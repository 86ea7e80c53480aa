/-
  File:      NutBluetti/Web/Fingerprint.lean
  Subject:   THE PIN OF A CERTIFICATE, as it is written and read (pve_shutdown.c, provisioning.c).
             Three places write it: `tls_request` in hexadecimal, `fp_pretty` and `h_admin_config`
             with colons between the pairs. `pve_fingerprint_normalise` reads what is posted.

  * `fingerprintLoop_ended` -- what is read is the digits in upper case, if they are digits and fit;
  * `pveFingerprintNormalise_accepts`, `pveFingerprintNormalise_congr` -- 64 digits, however they
    are separated and written;
  * `fpPretty_eq`, `adminFingerprint_digits` -- the colons are separators;
  * **`fingerprint_formats_agree`** -- what any of the three writes is read as the same pin.
-/
import NutBluetti.Pve.Trust
import NutBluetti.Web.FormCodec
import NutBluetti.Web.Settings

namespace NutBluetti.Web

open CLayout
open NutBluetti.Config
open NutBluetti.Pve (HostIx fpHex fpPretty)

/-! ## 1. Reading -/

/-- **`pve_fingerprint_normalise`**: what it writes, and its result. -/
def pveFingerprintNormalise (buf : List UInt8) : List UInt8 × Bool :=
  let (hex, ended) := fingerprintLoop 0 (cstr buf)
  (hex, ended && decide (hex.length = 64))

def isSeparator (c : UInt8) : Bool := c == chr ':' || c == chr ' '

/-- What remains of a text without its separators. -/
def fingerprintDigits (buf : List UInt8) : List UInt8 := (cstr buf).filter fun c => !isSeparator c

/-- What upper case leaves as it is. -/
theorem toUpper_facts (c : UInt8) : isXdigit (toUpper c) = isXdigit c ∧
    toUpper (toUpper c) = toUpper c ∧ isSeparator (toUpper c) = isSeparator c := by
  have hall : ∀ n : Fin 256, isXdigit (toUpper (UInt8.ofFin n)) = isXdigit (UInt8.ofFin n) ∧
      toUpper (toUpper (UInt8.ofFin n)) = toUpper (UInt8.ofFin n) ∧
      isSeparator (toUpper (UInt8.ofFin n)) = isSeparator (UInt8.ofFin n) := by decide +kernel
  exact hall c.toFin

/-- A digit is no separator, and no end. -/
theorem isXdigit_apart {c : UInt8} (h : isXdigit c = true) : c ≠ 0 ∧ isSeparator c = false := by
  have hall : ∀ n : Fin 256, isXdigit (UInt8.ofFin n) = true →
      UInt8.ofFin n ≠ 0 ∧ isSeparator (UInt8.ofFin n) = false := by decide +kernel
  exact hall c.toFin h

theorem fingerprintLoop_separator {n : Nat} {c : UInt8} {s : List UInt8}
    (h : isSeparator c = true) :
    fingerprintLoop n (c :: s) = fingerprintLoop n s := by
  have hsep : c = chr ':' ∨ c = chr ' ' := by simpa [isSeparator] using h
  rw [fingerprintLoop, if_pos hsep]

theorem fingerprintLoop_digit {n : Nat} {c : UInt8} {s : List UInt8} (h : isSeparator c = false) :
    fingerprintLoop n (c :: s) =
      if !isXdigit c ∨ 64 ≤ n then ([], false)
      else (toUpper c :: (fingerprintLoop (n + 1) s).1, (fingerprintLoop (n + 1) s).2) := by
  have hsep : ¬ (c = chr ':' ∨ c = chr ' ') := by simpa [isSeparator] using h
  rw [fingerprintLoop, if_neg hsep]

/-- The loop does not see the separators. -/
theorem fingerprintLoop_filter (n : Nat) (s : List UInt8) :
    fingerprintLoop n (s.filter fun c => !isSeparator c) = fingerprintLoop n s := by
  induction s generalizing n with
  | nil => rfl
  | cons c s ih =>
      cases hsep : isSeparator c with
      | true => rw [List.filter_cons_of_neg (by simp [hsep]), ih, fingerprintLoop_separator hsep]
      | false =>
          rw [List.filter_cons_of_pos (by simp [hsep]), fingerprintLoop_digit hsep,
            fingerprintLoop_digit hsep, ih]

/-- Nor in which case a digit is written. -/
theorem fingerprintLoop_upper (n : Nat) (s : List UInt8) :
    fingerprintLoop n (s.map toUpper) = fingerprintLoop n s := by
  induction s generalizing n with
  | nil => rfl
  | cons c s ih =>
      obtain ⟨hdigit, htwice, hsame⟩ := toUpper_facts c
      rw [List.map_cons]
      cases hsep : isSeparator c with
      | true =>
          rw [fingerprintLoop_separator (hsame.trans hsep), fingerprintLoop_separator hsep, ih]
      | false =>
          rw [fingerprintLoop_digit (hsame.trans hsep), fingerprintLoop_digit hsep, hdigit, htwice,
            ih]

/-- **What the loop reads to the end**: digits, as many as fit. -/
theorem fingerprintLoop_ended {n : Nat} {s out : List UInt8} (hs : ∀ c ∈ s, isSeparator c = false) :
    fingerprintLoop n s = (out, true) ↔
      (∀ c ∈ s, isXdigit c = true) ∧ (s ≠ [] → n + s.length ≤ 64) ∧ out = s.map toUpper := by
  induction s generalizing n out with
  | nil =>
      constructor
      · intro heq
        exact ⟨fun c hc => (nomatch hc), fun hne => absurd rfl hne, (Prod.mk.inj heq).1.symm⟩
      · rintro ⟨-, -, rfl⟩
        rfl
  | cons c s ih =>
      obtain ⟨hc, hrest⟩ := List.forall_mem_cons.mp hs
      rw [fingerprintLoop_digit hc]
      split
      · rename_i hbad
        refine iff_of_false (by simp) fun ⟨hdigits, hfits, _⟩ => ?_
        have hlen := hfits (List.cons_ne_nil c s)
        rw [List.length_cons] at hlen
        rcases hbad with hno | hfull
        · rw [hdigits c List.mem_cons_self] at hno
          cases hno
        · omega
      · rename_i hgood
        obtain ⟨hx, hn⟩ := not_or.mp hgood
        have hx : isXdigit c = true := by simpa using hx
        rw [List.map_cons, List.length_cons]
        constructor
        · intro heq
          obtain ⟨rfl, hended⟩ := Prod.mk.inj heq
          obtain ⟨hdigits, hfits, hout⟩ := (ih hrest).mp (Prod.ext rfl hended)
          refine ⟨List.forall_mem_cons.mpr ⟨hx, hdigits⟩, fun _ => ?_, congrArg _ hout⟩
          rcases List.eq_nil_or_concat s with rfl | ⟨l, a, rfl⟩
          · simp only [List.length_nil]
            omega
          · have := hfits (by simp)
            omega
        · rintro ⟨hdigits, hfits, rfl⟩
          have hlen := hfits (List.cons_ne_nil c s)
          rw [(ih hrest).mpr ⟨(List.forall_mem_cons.mp hdigits).2, fun _ => by omega, rfl⟩]

theorem fingerprintDigits_apart (buf : List UInt8) :
    ∀ c ∈ fingerprintDigits buf, isSeparator c = false :=
  fun _ hc => by simpa using (List.mem_filter.mp hc).2

theorem pveFingerprintNormalise_eq (buf : List UInt8) : pveFingerprintNormalise buf =
    ((fingerprintLoop 0 (fingerprintDigits buf)).1,
      (fingerprintLoop 0 (fingerprintDigits buf)).2 &&
        decide ((fingerprintLoop 0 (fingerprintDigits buf)).1.length = 64)) := by
  unfold pveFingerprintNormalise fingerprintDigits
  rw [fingerprintLoop_filter]

/-- **Accepted** are 64 digits, and what comes out is those digits in upper case. -/
theorem pveFingerprintNormalise_accepts {buf out : List UInt8} :
    pveFingerprintNormalise buf = (out, true) ↔
      (fingerprintDigits buf).length = 64 ∧ (∀ c ∈ fingerprintDigits buf, isXdigit c = true) ∧
        out = (fingerprintDigits buf).map toUpper := by
  rw [pveFingerprintNormalise_eq]
  have hloop := @fingerprintLoop_ended 0 (fingerprintDigits buf) out (fingerprintDigits_apart buf)
  constructor
  · intro heq
    obtain ⟨hout, hand⟩ := Prod.mk.inj heq
    obtain ⟨hended, hlen⟩ := Bool.and_eq_true_iff.mp hand
    obtain ⟨hdigits, -, hmap⟩ := hloop.mp (Prod.ext hout hended)
    refine ⟨?_, hdigits, hmap⟩
    rw [hout, hmap, List.length_map] at hlen
    exact of_decide_eq_true hlen
  · rintro ⟨hlen, hdigits, hmap⟩
    rw [hloop.mpr ⟨hdigits, fun _ => by omega, hmap⟩, hmap, List.length_map, hlen]
    rfl

/-- Texts with the same digits are read alike. -/
theorem pveFingerprintNormalise_congr {buf buf' : List UInt8}
    (h : (fingerprintDigits buf).map toUpper = (fingerprintDigits buf').map toUpper) :
    pveFingerprintNormalise buf = pveFingerprintNormalise buf' := by
  have hloop : fingerprintLoop 0 (fingerprintDigits buf) =
    fingerprintLoop 0 (fingerprintDigits buf') := by
    rw [← fingerprintLoop_upper 0 (fingerprintDigits buf), h, fingerprintLoop_upper]
  rw [pveFingerprintNormalise_eq, pveFingerprintNormalise_eq, hloop]

/-! ## 2. Writing -/

/-- The pin as `h_admin_config` shows it: pairs of digits with colons between. -/
def adminFingerprint (hex : List UInt8) : List UInt8 :=
  let rec pairs : List UInt8 → List UInt8
    | a :: b :: c :: rest => a :: b :: chr ':' :: pairs (c :: rest)
    | rest => rest
  pairs (hex.take 64)

/-- `fp_pretty` shows it alike. -/
theorem fpPretty_eq (hex : String) : ascii (fpPretty hex) = adminFingerprint (ascii hex) := by
  have hpairs : ∀ l : List Char, (fpPretty.pairs l).map (fun c => UInt8.ofNat c.toNat) =
      adminFingerprint.pairs (l.map fun c => UInt8.ofNat c.toNat) := by
    intro l
    fun_induction fpPretty.pairs l with
    | case1 a b c rest ih =>
        rw [List.map_cons, List.map_cons, List.map_cons, ih]
        rfl
    | case2 rest hshort =>
        match rest with
        | [] => rfl
        | [_] => rfl
        | [_, _] => rfl
        | a :: b :: c :: rest => exact absurd rfl (hshort a b c rest)
  unfold fpPretty adminFingerprint ascii
  rw [String.toList_ofList, hpairs, List.map_take]

/-- **The colons are separators.** -/
theorem adminFingerprint_digits {hex : List UInt8} (hhex : ∀ c ∈ hex, isXdigit c = true) :
    fingerprintDigits (adminFingerprint hex) = hex.take 64 := by
  have hpairs : ∀ l : List UInt8, (∀ c ∈ l, isXdigit c = true) →
      (0 : UInt8) ∉ adminFingerprint.pairs l ∧
        (adminFingerprint.pairs l).filter (fun c => !isSeparator c) = l := by
    intro l hl
    fun_induction adminFingerprint.pairs l with
    | case1 a b c rest ih =>
        obtain ⟨ha, hmore⟩ := List.forall_mem_cons.mp hl
        obtain ⟨hb, hrest⟩ := List.forall_mem_cons.mp hmore
        obtain ⟨hnul, hfilter⟩ := ih hrest
        obtain ⟨ha0, hasep⟩ := isXdigit_apart ha
        obtain ⟨hb0, hbsep⟩ := isXdigit_apart hb
        have hcolon : chr ':' ≠ 0 ∧ isSeparator (chr ':') = true := by decide
        refine ⟨?_, ?_⟩
        · simp only [List.mem_cons, not_or]
          exact ⟨ha0.symm, hb0.symm, hcolon.1.symm, hnul⟩
        · rw [List.filter_cons_of_pos (by simp [hasep]), List.filter_cons_of_pos (by simp [hbsep]),
            List.filter_cons_of_neg (by simp [hcolon.2]), hfilter]
    | case2 rest hshort =>
        refine ⟨fun hin => (isXdigit_apart (hl 0 hin)).1 rfl, List.filter_eq_self.mpr fun c hc =>
          ?_⟩
        rw [(isXdigit_apart (hl c hc)).2]
        rfl
  obtain ⟨hnul, hfilter⟩ := hpairs (hex.take 64) fun c hc => hhex c (List.mem_of_mem_take hc)
  unfold fingerprintDigits
  rw [show cstr (adminFingerprint hex) = adminFingerprint hex from cstr_of_noNul hnul]
  exact hfilter

/-- What `tls_request` writes: digits, in upper case. -/
theorem fpHex_digits (d : List UInt8) :
    ∀ c ∈ ascii (fpHex d), isXdigit c = true ∧ toUpper c = c := by
  have hbyte : ∀ n : Fin 256, ((Pve.hex2 (UInt8.ofFin n)).map fun c => UInt8.ofNat c.toNat).all
      (fun c => isXdigit c && (toUpper c == c)) = true := by decide +kernel
  intro c hc
  unfold ascii fpHex at hc
  rw [String.toList_ofList] at hc
  obtain ⟨ch, hch, rfl⟩ := List.mem_map.mp hc
  obtain ⟨b, -, hin⟩ := List.mem_flatMap.mp hch
  have hall := List.all_eq_true.mp (hbyte b.toFin) _ (List.mem_map.mpr ⟨ch, hin, rfl⟩)
  obtain ⟨hx, hup⟩ := Bool.and_eq_true_iff.mp hall
  exact ⟨hx, eq_of_beq hup⟩

theorem length_ascii (s : String) : (ascii s).length = s.length := by
  unfold ascii
  rw [List.length_map, String.length_toList]

/-! ## 3. The pin of a host -/

theorem cstr_cstr (buf : List UInt8) : cstr (cstr buf) = cstr buf :=
  cstr_of_noNul fun hin => absurd (List.mem_takeWhile_imp hin) (by decide)

/-- What is accepted is 64 digits, in upper case. -/
theorem pveFingerprintNormalise_digits {buf out : List UInt8}
    (h : pveFingerprintNormalise buf = (out, true)) :
    out.length = 64 ∧ ∀ c ∈ out, isXdigit c = true ∧ toUpper c = c := by
  obtain ⟨hlen, hdigits, rfl⟩ := pveFingerprintNormalise_accepts.mp h
  refine ⟨by rw [List.length_map, hlen], fun c hc => ?_⟩
  obtain ⟨d, hd, rfl⟩ := List.mem_map.mp hc
  obtain ⟨hsame, htwice, -⟩ := toUpper_facts d
  exact ⟨hsame.trans (hdigits d hd), htwice⟩

/-- Digits in upper case are read as they stand. -/
theorem pveFingerprintNormalise_of_upper {hex : List UInt8} (hlen : hex.length = 64)
    (hhex : ∀ c ∈ hex, isXdigit c = true ∧ toUpper c = c) {buf : List UInt8}
    (hbuf : fingerprintDigits buf = hex) : pveFingerprintNormalise buf = (hex, true) := by
  refine pveFingerprintNormalise_accepts.mpr ⟨by rw [hbuf, hlen], fun c hc => ?_, ?_⟩
  · exact (hhex c (hbuf ▸ hc)).1
  · rw [hbuf, List.map_congr_left fun c hc => (hhex c hc).2, List.map_id']

/-- Without a separator in it, a string is its own digits. -/
theorem fingerprintDigits_of_digits {hex : List UInt8} (hhex : ∀ c ∈ hex, isXdigit c = true) :
    fingerprintDigits hex = hex := by
  unfold fingerprintDigits
  rw [cstr_of_noNul fun hin => (isXdigit_apart (hhex 0 hin)).1 rfl]
  refine List.filter_eq_self.mpr fun c hc => ?_
  rw [(isXdigit_apart (hhex c hc)).2]
  rfl

/-- **A posted pin that is accepted is stored**, and reads as what came out. -/
theorem hostFingerprint_posted {body out : List UInt8} {i : HostIx} (stored img : Image)
    (hposted : pveFingerprintNormalise (formText body (hostKey i "fp") 128) = (out, true)) :
    (hostFingerprint body i stored img).2 = true ∧
      hostText (hostFingerprint body i stored img).1 i .fingerprint = out := by
  obtain ⟨hlen, hout⟩ := pveFingerprintNormalise_digits hposted
  obtain ⟨hdigits, -, -⟩ := pveFingerprintNormalise_accepts.mp hposted
  have hne : formText body (hostKey i "fp") 128 ≠ [] := by
    intro hnil
    rw [hnil] at hdigits
    cases hdigits
  have hloop : fingerprintLoop 0 (formText body (hostKey i "fp") 128) = (out, true) := by
    unfold pveFingerprintNormalise at hposted
    rw [show cstr (formText body (hostKey i "fp") 128) = formText body (hostKey i "fp") 128 from
      cstr_cstr _] at hposted
    obtain ⟨hfst, hand⟩ := Prod.mk.inj hposted
    exact Prod.ext hfst (Bool.and_eq_true_iff.mp hand).1
  have hstored : hostFingerprint body i stored img =
    (setHost img i .fingerprint (out ++ [0]), true) := by
    unfold hostFingerprint
    simp only [hloop, if_pos hne, if_true, hlen, decide_true]
  rw [hstored]
  refine ⟨rfl, ?_⟩
  have hsize : (out ++ [0]).length = (hostSpan i .fingerprint).size := by
    rw [List.length_append, hlen]
    rfl
  unfold hostText setHost
  rw [read_poke_self img hsize]
  exact cstr_append_nul fun hin => (isXdigit_apart (hout 0 hin).1).1 rfl

/-- **Fingerprint formats agree.** What is shown of a certificate, by the test or on the page, is
    read as what the certificate is compared with; accepted are the texts with 64 hexadecimal
    digits, however they are separated, in either case, and reading twice changes nothing; and a
    host whose pin was posted in any of these ways has the pin its certificate is compared with. -/
theorem fingerprint_formats_agree {d : List UInt8} (hd : d.length = 32) :
    pveFingerprintNormalise (ascii (fpPretty (fpHex d))) = (ascii (fpHex d), true) ∧
      pveFingerprintNormalise (adminFingerprint (ascii (fpHex d))) = (ascii (fpHex d), true) ∧
      (∀ buf, (pveFingerprintNormalise buf).2 = true ↔
        (fingerprintDigits buf).length = 64 ∧ ∀ c ∈ fingerprintDigits buf, isXdigit c = true) ∧
      (∀ buf buf', (fingerprintDigits buf).map toUpper = (fingerprintDigits buf').map toUpper →
        pveFingerprintNormalise buf = pveFingerprintNormalise buf') ∧
      (∀ buf, (pveFingerprintNormalise buf).2 = true →
        pveFingerprintNormalise (pveFingerprintNormalise buf).1 = pveFingerprintNormalise buf) ∧
      ∀ (body : List UInt8) (i : HostIx) (stored img : Image),
        (fingerprintDigits (formText body (hostKey i "fp") 128)).map toUpper = ascii (fpHex d) →
        (hostFingerprint body i stored img).2 = true ∧
          hostText (hostFingerprint body i stored img).1 i .fingerprint = ascii (fpHex d) := by
  have hhex := fpHex_digits d
  have hlen : (ascii (fpHex d)).length = 64 := by rw [length_ascii, Pve.fpHex_length, hd]
  have hown := fingerprintDigits_of_digits fun c hc => (hhex c hc).1
  have hread : pveFingerprintNormalise (ascii (fpHex d)) = (ascii (fpHex d), true) :=
    pveFingerprintNormalise_of_upper hlen hhex hown
  have hpage : pveFingerprintNormalise (adminFingerprint (ascii (fpHex d))) =
    (ascii (fpHex d), true) := by
    refine pveFingerprintNormalise_of_upper hlen hhex ?_
    rw [adminFingerprint_digits fun c hc => (hhex c hc).1,
      List.take_of_length_le (Nat.le_of_eq hlen)]
  refine ⟨by rw [fpPretty_eq, hpage], hpage, fun buf => ?_,
    fun _ _ => pveFingerprintNormalise_congr, fun buf hok => ?_, fun body i stored img hsame => ?_⟩
  · constructor
    · intro hok
      obtain ⟨hcount, hdigits, -⟩ := pveFingerprintNormalise_accepts.mp (Prod.ext rfl hok)
      exact ⟨hcount, hdigits⟩
    · rintro ⟨hcount, hdigits⟩
      rw [pveFingerprintNormalise_accepts.mpr ⟨hcount, hdigits, rfl⟩]
  · have hpair : pveFingerprintNormalise buf = ((pveFingerprintNormalise buf).1, true) :=
      Prod.ext rfl hok
    obtain ⟨hcount, hout⟩ := pveFingerprintNormalise_digits hpair
    rw [pveFingerprintNormalise_of_upper hcount hout
      (fingerprintDigits_of_digits fun c hc => (hout c hc).1)]
    exact hpair.symm
  · refine hostFingerprint_posted stored img ?_
    rw [← hread]
    refine pveFingerprintNormalise_congr ?_
    rw [hsame, hown, List.map_congr_left fun c hc => (hhex c hc).2, List.map_id']

theorem fingerprint_formats_agree_ab :
    pveFingerprintNormalise (ascii (fpPretty (fpHex (List.replicate 32 0xAB)))) =
      (ascii (fpHex (List.replicate 32 0xAB)), true) :=
  (fingerprint_formats_agree (by decide)).1

end NutBluetti.Web
