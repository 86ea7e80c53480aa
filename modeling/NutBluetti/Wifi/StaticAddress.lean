/-
  File:      NutBluetti/Wifi/StaticAddress.lean
  Subject:   STATIC ADDRESSES, read twice: by `valid_ipv4`, when the form is posted
             (provisioning.c), and by `esp_ip4addr_aton`, when the station starts (wifi_mgr.c).
             `esp_ip4addr_aton` belongs to the ESP-IDF; what is asked of it is what `inet_aton` does
             with four parts.

  * **`validIpv4_iff`** -- what `valid_ipv4` accepts: four numbers up to 255, of up to three digits;
    **`valid_ipv4_is_dotted_quad`** says so of the text as a whole;
  * `FollowsInetAton` -- a part that begins with 0 is octal;
  * `wifiMgrSetIpv4` -- what the station is given;
  * **`addresses_read_alike_iff`** -- the two readings agree just where no number from 8 on is
    written with a zero in front;
  * **`leading_zero_moves_address`** -- 192.168.010.001 is accepted, and is 192.168.8.1.
-/
import NutBluetti.Web.SectionFrames

namespace NutBluetti.Wifi

open CLayout
open NutBluetti.Config
open NutBluetti.Web

/-! ## 1. What the form accepts -/

/-- One of the four numbers, as it is written. -/
structure IsOctet (p : List UInt8) : Prop where
  digits : ∀ c ∈ p, isDigit c = true
  nonempty : p ≠ []
  short : p.length ≤ 3
  small : decimal p ≤ 255

/-- The digits read so far, and one more. -/
def pushDigit (n : Nat) (d : UInt8) : Nat := n * 10 + (d - chr '0').toNat

theorem le_foldl_pushDigit (ds : List UInt8) (val : Nat) : val ≤ ds.foldl pushDigit val := by
  induction ds generalizing val with
  | nil => exact Nat.le_refl val
  | cons d ds ih =>
      refine Nat.le_trans ?_ (ih (pushDigit val d))
      unfold pushDigit
      omega

/-- **One part**: digits up to the first character that is none. -/
theorem ipv4Part_iff {val digits : Nat} {s rest : List UInt8} (hval : val ≤ 255)
    (hdigits : digits ≤ 3) :
    ipv4Part val digits s = some rest ↔ ∃ ds, s = ds ++ rest ∧ (∀ c ∈ ds, isDigit c = true) ∧
      digits + ds.length ≤ 3 ∧ ds.foldl pushDigit val ≤ 255 ∧
      ∀ c ∈ rest.head?, isDigit c = false := by
  induction s generalizing val digits with
  | nil =>
      unfold ipv4Part
      constructor
      · intro h
        rw [← Option.some.inj h]
        exact ⟨[], rfl, fun c hc => absurd hc List.not_mem_nil, hdigits, hval,
          fun c hc => nomatch hc⟩
      · rintro ⟨ds, hs, -⟩
        rw [(List.append_eq_nil_iff.mp hs.symm).2]
  | cons c s ih =>
      unfold ipv4Part
      by_cases hc : isDigit c = true
      · -- a digit belongs to the part, for what is left over begins with none
        have hsplit : ∀ {ds : List UInt8}, c :: s = ds ++ rest →
          (∀ c ∈ rest.head?, isDigit c = false) →
            ∃ ds', ds = c :: ds' ∧ s = ds' ++ rest := by
          intro ds hs hrest
          cases ds with
          | nil =>
              have hs : c :: s = rest := hs
              have hno := hrest c (by rw [← hs]; rfl)
              rw [hc] at hno
              cases hno
          | cons d ds =>
              obtain ⟨rfl, hs'⟩ := List.cons.inj hs
              exact ⟨ds, rfl, hs'⟩
        rw [if_pos hc]
        dsimp only
        by_cases hover : digits + 1 > 3 ∨ val * 10 + (c - chr '0').toNat > 255
        · rw [if_pos hover]
          refine ⟨fun h => (nomatch h), ?_⟩
          rintro ⟨ds, hs, -, hlen, hsmall, hrest⟩
          obtain ⟨ds', rfl, -⟩ := hsplit hs hrest
          have hmono := le_foldl_pushDigit ds' (pushDigit val c)
          rw [List.foldl_cons] at hsmall
          rw [List.length_cons] at hlen
          unfold pushDigit at hmono hsmall
          omega
        · rw [if_neg hover, ih (by omega) (by omega)]
          constructor
          · rintro ⟨ds, rfl, hall, hlen, hsmall, hrest⟩
            refine ⟨c :: ds, rfl, List.forall_mem_cons.mpr ⟨hc, hall⟩, ?_, hsmall, hrest⟩
            rw [List.length_cons]
            omega
          · rintro ⟨ds, hs, hall, hlen, hsmall, hrest⟩
            obtain ⟨ds', rfl, hs'⟩ := hsplit hs hrest
            rw [List.length_cons] at hlen
            exact ⟨ds', hs', (List.forall_mem_cons.mp hall).2, by omega, hsmall, hrest⟩
      · rw [if_neg hc]
        constructor
        · intro h
          rw [← Option.some.inj h]
          exact ⟨[], rfl, fun c hc => absurd hc List.not_mem_nil, hdigits, hval, fun d hd =>
            Option.some.inj hd ▸ Bool.eq_false_of_not_eq_true hc⟩
        · rintro ⟨ds, hs, hall, -⟩
          cases ds with
          | nil => exact congrArg some hs
          | cons d ds =>
              obtain ⟨rfl, -⟩ := List.cons.inj hs
              exact absurd (List.forall_mem_cons.mp hall).1 hc

/-- A part is an octet, up to a character that is no digit. -/
theorem ipv4Part_octet {s rest : List UInt8} (hhead : ∀ c ∈ s.head?, isDigit c = true)
    (hs : s ≠ []) :
    ipv4Part 0 0 s = some rest ↔
      ∃ p, s = p ++ rest ∧ IsOctet p ∧ ∀ c ∈ rest.head?, isDigit c = false := by
  rw [ipv4Part_iff (by decide) (by decide)]
  constructor
  · rintro ⟨ds, rfl, hall, hlen, hsmall, hrest⟩
    refine ⟨ds, rfl, ⟨hall, ?_, by omega, hsmall⟩, hrest⟩
    rintro rfl
    obtain ⟨c, more, hcons⟩ := List.exists_cons_of_ne_nil hs
    have hrest := hrest c (by rw [← List.nil_append rest, hcons]; rfl)
    rw [hhead c (by rw [hcons]; rfl)] at hrest
    cases hrest
  · rintro ⟨p, rfl, hp, hrest⟩
    exact ⟨p, rfl, hp.digits, by have hshort := hp.short; omega, hp.small, hrest⟩

/-- Octets with dots between them, after the first. -/
def dotted : List (List UInt8) → List UInt8
  | [] => []
  | p :: ps => chr '.' :: (p ++ dotted ps)

theorem intercalate_eq_dotted (p : List UInt8) (ps : List (List UInt8)) :
    [chr '.'].intercalate (p :: ps) = p ++ dotted ps := by
  induction ps generalizing p with
  | nil => rw [List.intercalate_singleton, dotted, List.append_nil]
  | cons q ps ih => rw [List.intercalate_cons_cons, ih, dotted, List.append_assoc]; rfl

theorem dotted_head (ps : List (List UInt8)) : ∀ c ∈ (dotted ps).head?, isDigit c = false := by
  cases ps with
  | nil => exact fun c hc => nomatch hc
  | cons q ps =>
      intro c hc
      rw [← Option.some.inj (hc : some (chr '.') = some c)]
      decide

/-- The parts from one on. -/
theorem ipv4Parts_iff {fuel parts : Nat} {s : List UInt8} (hfuel : s.length < fuel)
    (hparts : parts < 4) :
    ipv4Parts fuel parts s = true ↔
      ∃ p ps, s = p ++ dotted ps ∧ parts + 1 + ps.length = 4 ∧ ∀ q ∈ p :: ps, IsOctet q := by
  induction fuel generalizing parts s with
  | zero => omega
  | succ fuel ih =>
      unfold ipv4Parts
      cases s with
      | nil =>
          refine ⟨fun h => (nomatch h), ?_⟩
          rintro ⟨p, ps, hs, -, hall⟩
          exact absurd (List.append_eq_nil_iff.mp hs.symm).1 (hall p List.mem_cons_self).nonempty
      | cons c s =>
          dsimp only
          have hless : ∀ {p rest : List UInt8} {d : UInt8}, c :: s = p ++ d :: rest →
            rest.length < fuel := by
            intro p rest d hs
            have hlen := congrArg List.length hs
            rw [List.length_append, List.length_cons, List.length_cons] at hlen
            rw [List.length_cons] at hfuel
            omega
          by_cases hc : isDigit c = true
          · rw [hc, if_neg (by decide)]
            have hpart : ∀ rest, ipv4Part 0 0 (c :: s) = some rest ↔
                ∃ p, c :: s = p ++ rest ∧ IsOctet p ∧ ∀ c ∈ rest.head?, isDigit c = false :=
                  fun rest =>
              ipv4Part_octet (fun d hd => Option.some.inj hd ▸ hc) (List.cons_ne_nil c s)
            constructor
            · intro h
              split at h
              · cases h
              · rename_i hend
                obtain ⟨p, hs, hp, -⟩ := (hpart []).mp hend
                have hlast : parts + 1 = 4 := of_decide_eq_true h
                exact ⟨p, [], hs, by simpa using hlast, List.forall_mem_singleton.mpr hp⟩
              · rename_i d rest hmore
                obtain ⟨p, hs, hp, -⟩ := (hpart _).mp hmore
                split at h
                · cases h
                · rename_i hdot
                  obtain ⟨hd, hroom⟩ := not_or.mp hdot
                  obtain ⟨q, ps, hrest, hcount, hall⟩ := (ih (hless hs) (by omega)).mp h
                  refine ⟨p, q :: ps, ?_, by
                    rw [List.length_cons]; omega, List.forall_mem_cons.mpr ⟨hp, hall⟩⟩
                  rw [hs, dotted, ← hrest, not_not.mp hd]
            · rintro ⟨p, ps, hs, hcount, hall⟩
              obtain ⟨hp, hps⟩ := List.forall_mem_cons.mp hall
              rw [(hpart (dotted ps)).mpr ⟨p, hs, hp, dotted_head ps⟩]
              cases ps with
              | nil => exact decide_eq_true (by simpa using hcount)
              | cons q ps =>
                  rw [List.length_cons] at hcount
                  have hroom : ¬ (chr '.' ≠ chr '.' ∨ parts + 1 = 4) :=
                    not_or.mpr ⟨not_not.mpr rfl, by omega⟩
                  show (if chr '.' ≠ chr '.' ∨ parts + 1 = 4 then false
                    else ipv4Parts fuel (parts + 1) (q ++ dotted ps)) = true
                  rw [if_neg hroom]
                  exact (ih (hless hs) (by omega)).mpr ⟨q, ps, rfl, by omega, hps⟩
          · rw [Bool.eq_false_of_not_eq_true hc, if_pos (by decide)]
            refine ⟨fun h => (nomatch h), ?_⟩
            rintro ⟨p, ps, hs, -, hall⟩
            have hp := hall p List.mem_cons_self
            obtain ⟨d, more, rfl⟩ := List.exists_cons_of_ne_nil hp.nonempty
            obtain ⟨rfl, -⟩ := List.cons.inj hs
            exact absurd (hp.digits c List.mem_cons_self) hc

/-- **What `valid_ipv4` accepts**: four octets with dots between them. -/
theorem validIpv4_iff (s : List UInt8) : validIpv4 s = true ↔
    ∃ ps : List (List UInt8), s = [chr '.'].intercalate ps ∧ ps.length = 4 ∧
    ∀ p ∈ ps, IsOctet p := by
  unfold validIpv4
  rw [ipv4Parts_iff (Nat.lt_succ_self _) (by decide)]
  constructor
  · rintro ⟨p, ps, rfl, hcount, hall⟩
    exact ⟨p :: ps, (intercalate_eq_dotted p ps).symm, by rw [List.length_cons]; omega, hall⟩
  · rintro ⟨ps, rfl, hcount, hall⟩
    cases ps with
    | nil => cases hcount
    | cons p ps =>
        rw [List.length_cons] at hcount
        exact ⟨p, ps, intercalate_eq_dotted p ps, by omega, hall⟩

/-- **Dotted quads and nothing else**: four parts of one to three digits, none above 255, with
    single dots between them, nothing before the first and nothing after the last. -/
theorem valid_ipv4_is_dotted_quad (s : List UInt8) : validIpv4 s = true ↔
    ∃ a b c d, IsOctet a ∧ IsOctet b ∧ IsOctet c ∧ IsOctet d ∧
      s = a ++ chr '.' :: (b ++ chr '.' :: (c ++ chr '.' :: d)) := by
  have htext : ∀ a b c d : List UInt8, [chr '.'].intercalate [a, b, c, d] =
      a ++ chr '.' :: (b ++ chr '.' :: (c ++ chr '.' :: d)) := by
    intro a b c d
    rw [intercalate_eq_dotted]
    simp only [dotted, List.append_nil]
  rw [validIpv4_iff]
  constructor
  · intro h
    obtain ⟨ps, hs, hfour, hps⟩ := h
    match ps, hfour with
    | [a, b, c, d], _ =>
        simp only [List.forall_mem_cons] at hps
        obtain ⟨ha, hb, hc, hd, -⟩ := hps
        exact ⟨a, b, c, d, ha, hb, hc, hd, hs.trans (htext a b c d)⟩
  · intro h
    obtain ⟨a, b, c, d, ha, hb, hc, hd, hs⟩ := h
    refine ⟨[a, b, c, d], hs.trans (htext a b c d).symm, rfl, ?_⟩
    simp only [List.forall_mem_cons]
    exact ⟨ha, hb, hc, hd, fun p hp => absurd hp List.not_mem_nil⟩

/-! ## 2. What the station makes of it -/

/-- An address, as its four bytes. -/
abbrev Address := List UInt8

/-- Digits in a base, one at least. -/
def readDigits (base : Nat) (ds : List UInt8) : Option Nat :=
  if ds = [] then none
  else
    ds.foldlM (fun n c =>
      match hexval c with
      | none => none
      | some d => if d.toNat < base then some (n * base + d.toNat) else none) 0

/-- A part, to `inet_aton`: `0x` is hexadecimal, `0` octal, and anything else decimal. -/
def partValue (p : List UInt8) : Option Nat :=
  if (p.take 2).map toLower = ascii "0x" then readDigits 16 (p.drop 2)
  else if p.head? = some (chr '0') then readDigits 8 p
  else readDigits 10 p

/-- Four numbers as an address. -/
def quad (vs : List Nat) : Option Address :=
  if vs.all (· ≤ 255) then some (vs.map UInt8.ofNat) else none

/-- Digits, or hexadecimal ones after `0x`. -/
def IsPart (p : List UInt8) : Prop :=
  (p ≠ [] ∧ ∀ c ∈ p, isDigit c = true) ∨
    ∃ ds, ds ≠ [] ∧ (∀ c ∈ ds, isXdigit c = true) ∧ p = ascii "0x" ++ ds

/-- **What is asked of `esp_ip4addr_aton`**: a text of four parts is what `inet_aton` makes of the
    four. -/
structure FollowsInetAton (aton : List UInt8 → Option Address) : Prop where
  parts : ∀ ps : List (List UInt8), ps.length = 4 → (∀ p ∈ ps, IsPart p) →
    aton ([chr '.'].intercalate ps) = (ps.mapM partValue).bind quad

/-- The number in its last `n` bytes. -/
def lastBytes (n v : Nat) : List UInt8 :=
  ((List.range n).map fun k => UInt8.ofNat (v / 256 ^ k)).reverse

/-- `inet_aton`, with its shorter forms: the last part takes the bytes that are left. -/
def inetAton (s : List UInt8) : Option Address :=
  (((s.takeWhile fun c => !isSpace c).splitOn (chr '.')).mapM partValue).bind fun vs =>
    match vs with
    | [a] => if a < 2 ^ 32 then some (lastBytes 4 a) else none
    | [a, b] => if a ≤ 255 ∧ b < 2 ^ 24 then some (UInt8.ofNat a :: lastBytes 3 b) else none
    | [a, b, c] =>
        if a ≤ 255 ∧ b ≤ 255 ∧ c < 2 ^ 16 then
          some (UInt8.ofNat a :: UInt8.ofNat b :: lastBytes 2 c)
        else none
    | [a, b, c, d] => quad [a, b, c, d]
    | _ => none

theorem length_mapM {α β : Type} {f : α → Option β} {xs : List α} {ys : List β}
    (h : xs.mapM f = some ys) : ys.length = xs.length := by
  induction xs generalizing ys with
  | nil =>
      cases h
      rfl
  | cons x xs ih =>
      rw [List.mapM_cons] at h
      obtain ⟨y, -, hrest⟩ := Option.bind_eq_some_iff.mp h
      obtain ⟨zs, hzs, hys⟩ := Option.bind_eq_some_iff.mp hrest
      rw [← Option.some.inj hys, List.length_cons, ih hzs, List.length_cons]

theorem digit_facts {c : UInt8} (h : isDigit c = true) :
    hexval c = some (c - chr '0') ∧ (c - chr '0').toNat < 10 ∧ toLower c ≠ chr 'x' ∧ c ≠ chr '.' ∧
      c ≠ 0 ∧ isSpace c = false := by
  have hall : ∀ n : Fin 256, isDigit (UInt8.ofFin n) = true →
      hexval (UInt8.ofFin n) = some (UInt8.ofFin n - chr '0') ∧
      (UInt8.ofFin n - chr '0').toNat < 10 ∧
        toLower (UInt8.ofFin n) ≠ chr 'x' ∧ UInt8.ofFin n ≠ chr '.' ∧ UInt8.ofFin n ≠ 0 ∧
        isSpace (UInt8.ofFin n) = false := by
    decide +kernel
  exact hall c.toFin h

/-- No part has a dot or a blank in it. -/
theorem IsPart.apart {p : List UInt8} (hp : IsPart p) :
    ∀ c ∈ p, c ≠ chr '.' ∧ isSpace c = false := by
  have hxdigit : ∀ c, isXdigit c = true → c ≠ chr '.' ∧ isSpace c = false := by
    have hall : ∀ n : Fin 256, isXdigit (UInt8.ofFin n) = true →
        UInt8.ofFin n ≠ chr '.' ∧ isSpace (UInt8.ofFin n) = false := by decide +kernel
    exact fun c => hall c.toFin
  intro c hc
  rcases hp with ⟨-, hall⟩ | ⟨ds, -, hall, rfl⟩
  · obtain ⟨-, -, -, hdot, -, hspace⟩ := digit_facts (hall c hc)
    exact ⟨hdot, hspace⟩
  · rcases List.mem_append.mp hc with hin | hin
    · have hlead : ∀ c ∈ ascii "0x", c ≠ chr '.' ∧ isSpace c = false := by decide +kernel
      exact hlead c hin
    · exact hxdigit c (hall c hin)

theorem inetAton_follows : FollowsInetAton inetAton where
  parts ps hlen hparts := by
    have hnospace : ([chr '.'].intercalate ps).takeWhile (fun c => !isSpace c) =
        [chr '.'].intercalate ps := by
      refine List.takeWhile_eq_self_iff.mpr fun c hc => ?_
      refine forall_mem_intercalate (P := fun c => (!isSpace c) = true)
        (List.forall_mem_singleton.mpr (by decide)) (fun p hp c hc => ?_) c hc
      rw [((hparts p hp).apart c hc).2]
      rfl
    have hsplit : ([chr '.'].intercalate ps).splitOn (chr '.') = ps :=
      List.splitOn_intercalate (chr '.') (fun p hp hin => ((hparts p hp).apart _ hin).1 rfl)
        (List.length_pos_iff.mp (by omega))
    unfold inetAton
    rw [hnospace, hsplit]
    cases hvs : ps.mapM partValue with
    | none => rfl
    | some vs =>
        have hfour : vs.length = 4 := (length_mapM hvs).trans hlen
        match vs, hfour with
        | [a, b, c, d], _ => rfl

/-- The four numbers as they are written. -/
def written (s : List UInt8) : Address := (s.splitOn (chr '.')).map fun p => UInt8.ofNat (decimal p)

/-- A number that is read alike in either way: it does not begin with 0, or is less than 8. -/
def Plain (p : List UInt8) : Prop := p.head? ≠ some (chr '0') ∨ decimal p < 8

instance (p : List UInt8) : Decidable (Plain p) := inferInstanceAs (Decidable (_ ∨ _))

/-- And a text whose four numbers are. -/
def Readable (s : List UInt8) : Prop := ∀ p ∈ s.splitOn (chr '.'), Plain p

instance (s : List UInt8) : Decidable (Readable s) := List.decidableBAll Plain (s.splitOn (chr '.'))

/-- **Decimal digits** are read as `valid_ipv4` reads them. -/
theorem readDigits_ten {ds : List UInt8} (hne : ds ≠ []) (hall : ∀ c ∈ ds, isDigit c = true) :
    readDigits 10 ds = some (decimal ds) := by
  have hloop : ∀ n, ds.foldlM (fun n c =>
      match hexval c with
      | none => none
      | some d => if d.toNat < 10 then some (n * 10 + d.toNat) else none) n =
        some (ds.foldl pushDigit n) := by
    induction ds with
    | nil => exact fun n => rfl
    | cons d ds ih =>
        intro n
        obtain ⟨hd, hds⟩ := List.forall_mem_cons.mp hall
        obtain ⟨hhex, hlt, -⟩ := digit_facts hd
        rw [List.foldlM_cons, hhex]
        dsimp only
        rw [if_pos hlt, Option.bind_eq_bind, Option.bind_some]
        by_cases hnil : ds = []
        · subst hnil
          rfl
        · exact ih hnil hds (n * 10 + (d - chr '0').toNat)
  unfold readDigits
  rw [if_neg hne]
  exact hloop 0

/-- **A number that begins with 0**, to `inet_aton`: a hundred and eleven of them. -/
theorem partValue_zero {ds : List UInt8} (hshort : ds.length ≤ 2)
    (hds : ∀ c ∈ ds, isDigit c = true) :
    (Plain (chr '0' :: ds) → partValue (chr '0' :: ds) = some (decimal (chr '0' :: ds))) ∧
      (¬ Plain (chr '0' :: ds) → partValue (chr '0' :: ds) ≠ some (decimal (chr '0' :: ds)) ∧
        (partValue (chr '0' :: ds)).all (· ≤ 255) = true ∧ decimal (chr '0' :: ds) < 255) := by
  have hdigit : ∀ {c}, isDigit c = true → ∃ x : Fin 10, c = chr '0' + UInt8.ofNat x.val := by
    intro c hc
    have hback : ∀ n : Fin 256, isDigit (UInt8.ofFin n) = true →
        UInt8.ofFin n = chr '0' + UInt8.ofNat (UInt8.ofFin n - chr '0').toNat := by decide +kernel
    exact ⟨⟨_, (digit_facts hc).2.1⟩, hback c.toFin hc⟩
  match ds, hshort, hds with
  | [], _, _ => decide
  | [d], _, hds =>
      obtain ⟨x, rfl⟩ := hdigit (hds d List.mem_cons_self)
      clear hds
      revert x
      decide +kernel
  | [d, e], _, hds =>
      obtain ⟨x, rfl⟩ := hdigit (hds d List.mem_cons_self)
      obtain ⟨y, rfl⟩ := hdigit (hds e (List.mem_cons_of_mem _ List.mem_cons_self))
      clear hds
      revert x y
      decide +kernel

/-- **An octet**, to `inet_aton`. -/
theorem partValue_octet {p : List UInt8} (hp : IsOctet p) :
    (Plain p → partValue p = some (decimal p)) ∧
      (¬ Plain p → partValue p ≠ some (decimal p) ∧ (partValue p).all (· ≤ 255) = true ∧
        decimal p < 255) := by
  by_cases hzero : p.head? = some (chr '0')
  · have hshort := hp.short
    have hall := hp.digits
    obtain ⟨c, ds, rfl⟩ := List.exists_cons_of_ne_nil hp.nonempty
    obtain rfl : c = chr '0' := Option.some.inj hzero
    rw [List.length_cons] at hshort
    exact partValue_zero (by omega) (List.forall_mem_cons.mp hall).2
  · have hhex : (p.take 2).map toLower ≠ ascii "0x" := by
      intro heq
      have hx : chr 'x' ∈ (p.take 2).map toLower := heq ▸ by decide
      obtain ⟨c, hc, hlow⟩ := List.mem_map.mp hx
      exact (digit_facts (hp.digits c (List.mem_of_mem_take hc))).2.2.1 hlow
    refine ⟨fun _ => ?_, fun hno => absurd (.inl hzero) hno⟩
    unfold partValue
    rw [if_neg hhex, if_neg hzero, readDigits_ten hp.nonempty hp.digits]

/-- Bytes that agree come of numbers that agree. -/
theorem mapM_octets {ps : List (List UInt8)} {vs : List Nat} (hps : ∀ p ∈ ps, IsOctet p)
    (hvs : ps.mapM partValue = some vs) (hsmall : ∀ v ∈ vs, v ≤ 255)
    (hbytes : vs.map UInt8.ofNat = ps.map fun p => UInt8.ofNat (decimal p)) :
    ∀ p ∈ ps, partValue p = some (decimal p) := by
  induction ps generalizing vs with
  | nil => exact fun p hp => absurd hp List.not_mem_nil
  | cons p ps ih =>
      obtain ⟨hp, hrest⟩ := List.forall_mem_cons.mp hps
      rw [List.mapM_cons] at hvs
      obtain ⟨v, hv, hvs⟩ := Option.bind_eq_some_iff.mp hvs
      obtain ⟨ws, hws, hcons⟩ := Option.bind_eq_some_iff.mp hvs
      obtain rfl : v :: ws = vs := Option.some.inj hcons
      obtain ⟨hv255, hws255⟩ := List.forall_mem_cons.mp hsmall
      obtain ⟨hbyte, hbytes⟩ := List.cons.inj hbytes
      have hsame : v = decimal p := by
        have hnat := congrArg UInt8.toNat hbyte
        have hp255 := hp.small
        rw [UInt8.toNat_ofNat', UInt8.toNat_ofNat'] at hnat
        omega
      exact List.forall_mem_cons.mpr ⟨hsame ▸ hv, ih hrest hws hws255 hbytes⟩

section Reading

variable {aton : List UInt8 → Option Address} {s : List UInt8}

/-- The four parts of an accepted text. -/
theorem octets_of_valid (hs : validIpv4 s = true) :
    (s.splitOn (chr '.')).length = 4 ∧ ∀ p ∈ s.splitOn (chr '.'), IsOctet p := by
  obtain ⟨ps, rfl, hfour, hps⟩ := (validIpv4_iff s).mp hs
  rw [List.splitOn_intercalate (chr '.')
    (fun p hp hin => (digit_facts ((hps p hp).digits _ hin)).2.2.2.1 rfl)
      (List.length_pos_iff.mp (by omega))]
  exact ⟨hfour, hps⟩

/-- **The two readings agree** exactly on texts whose numbers are plain. -/
theorem aton_eq_written_iff (haton : FollowsInetAton aton) (hs : validIpv4 s = true) :
    aton s = some (written s) ↔ Readable s := by
  obtain ⟨hfour, hps⟩ := octets_of_valid hs
  have hread := haton.parts (s.splitOn (chr '.')) hfour fun p hp =>
    .inl ⟨(hps p hp).nonempty, (hps p hp).digits⟩
  rw [List.intercalate_splitOn] at hread
  rw [hread]
  unfold written Readable
  generalize s.splitOn (chr '.') = ps at hps ⊢
  constructor
  · intro h
    obtain ⟨vs, hvs, hquad⟩ := Option.bind_eq_some_iff.mp h
    unfold quad at hquad
    split at hquad
    · rename_i hsmall
      have hsmall : ∀ v ∈ vs, v ≤ 255 := by simpa using hsmall
      intro p hp
      by_contra hno
      exact ((partValue_octet (hps p hp)).2 hno).1
        (mapM_octets hps hvs hsmall (Option.some.inj hquad) p hp)
    · cases hquad
  · intro hread
    have hvs : ps.mapM partValue = some (ps.map decimal) := by
      have hmap : ∀ qs ⊆ ps, qs.mapM partValue = some (qs.map decimal) := by
        intro qs hqs
        induction qs with
        | nil => rfl
        | cons q qs ih =>
            have hq : q ∈ ps := hqs List.mem_cons_self
            rw [List.mapM_cons, (partValue_octet (hps q hq)).1 (hread q hq),
              ih fun x hx => hqs (List.mem_cons_of_mem _ hx)]
            rfl
      exact hmap ps (List.Subset.refl ps)
    have hsmall : (ps.map decimal).all (· ≤ 255) = true := by
      rw [List.all_map, List.all_eq_true]
      exact fun p hp => decide_eq_true (hps p hp).small
    rw [hvs, Option.bind_some]
    unfold quad
    rw [if_pos hsmall, List.map_map]
    rfl

end Reading

/-! ## 3. The station -/

inductive EspErr where
  | ok
  | fail
  | invalidState
  | invalidArg
  | dhcpAlreadyStarted
  deriving DecidableEq, Repr

/-- `wifi_mgr_ipv4_t`; a text that is not given is empty. -/
structure Ipv4Config where
  hostname : List UInt8
  useStatic : Bool
  ip : List UInt8
  mask : List UInt8
  gw : List UInt8
  dns : List UInt8

/-- `esp_netif_ip_info_t`. -/
structure IpInfo where
  ip : Address
  netmask : Address
  gw : Address
  deriving DecidableEq, Repr

/-- What is asked of the station's interface. -/
inductive NetifCall where
  | setHostname (name : List UInt8)
  | dhcpcStart
  | dhcpcStop
  | setIpInfo (info : IpInfo)
  | setDnsInfo (addr : Address)
  deriving DecidableEq, Repr

/-- `esp_ip4addr_aton`: `IPADDR_NONE` where the text is no address. -/
def espIp4addrAton (aton : List UInt8 → Option Address) (s : List UInt8) : Address :=
  (aton s).getD [255, 255, 255, 255]

/-- **`wifi_mgr_set_ipv4`**; `netif` is whether the interface is there, the other two what starting
    DHCP and setting the addresses return. -/
def wifiMgrSetIpv4 (aton : List UInt8 → Option Address) (netif : Bool)
    (dhcpcStart setIpInfo : EspErr)
    (c : Ipv4Config) : EspErr × List NetifCall :=
  if !netif then (.invalidState, [])
  else
    let name := if c.hostname = [] then [] else [NetifCall.setHostname c.hostname]
    if !c.useStatic then
      (if dhcpcStart = .dhcpAlreadyStarted then .ok else dhcpcStart, name ++ [.dhcpcStart])
    else if c.ip = [] then (.invalidArg, name)
    else
      let info : IpInfo :=
        { ip := espIp4addrAton aton c.ip
          netmask := espIp4addrAton aton (if c.mask = [] then ascii "255.255.255.0" else c.mask)
          gw := if c.gw = [] then [0, 0, 0, 0] else espIp4addrAton aton c.gw }
      if setIpInfo ≠ .ok then (setIpInfo, name ++ [.dhcpcStop, .setIpInfo info, .dhcpcStart])
      else
        -- without DHCP there is no resolver: the gateway, unless one is given
        let dns := if c.dns = [] then c.gw else c.dns
        (.ok, name ++ [.dhcpcStop, .setIpInfo info] ++
          if dns = [] then [] else [.setDnsInfo (espIp4addrAton aton dns)])

/-- What main.c hands to it, for a station. -/
def stationConfig (cfg : Image) : Ipv4Config where
  hostname := text cfg .hostname
  useStatic := flag cfg .useStaticIp
  ip := text cfg .staticIp
  mask := text cfg .staticMask
  gw := text cfg .staticGw
  dns := text cfg .staticDns

/-- A configuration that the form accepted. -/
structure Ipv4Config.Accepted (c : Ipv4Config) : Prop where
  static : c.useStatic = true
  ip : validIpv4 c.ip = true
  mask : c.mask = [] ∨ validIpv4 c.mask = true
  gw : c.gw = [] ∨ validIpv4 c.gw = true
  dns : c.dns = [] ∨ validIpv4 c.dns = true

/-- The texts of a configuration that are there. -/
def Ipv4Config.texts (c : Ipv4Config) : List (List UInt8) :=
  [c.ip, c.mask, c.gw, c.dns].filter (· ≠ [])

section Station

variable {aton : List UInt8 → Option Address} {s : List UInt8} {c : Ipv4Config}

/-- An address that is given is the one that is written. -/
theorem espIp4addrAton_iff (haton : FollowsInetAton aton) (hs : validIpv4 s = true) :
    espIp4addrAton aton s = written s ↔ Readable s := by
  rw [← aton_eq_written_iff haton hs]
  unfold espIp4addrAton
  cases hread : aton s with
  | some a => exact ⟨congrArg some, Option.some.inj⟩
  | none =>
      refine ⟨fun hall => ?_, fun h => (nomatch h)⟩
      -- 255 in all four parts is plain, and would have been read
      have hplain : Readable s := by
        intro p hp
        have hin : UInt8.ofNat (decimal p) ∈ written s := List.mem_map_of_mem hp
        rw [← hall] at hin
        have hbyte : UInt8.ofNat (decimal p) = 255 := by simpa using hin
        by_contra hno
        obtain ⟨-, -, hlt⟩ := (partValue_octet ((octets_of_valid hs).2 p hp)).2 hno
        have hnat := congrArg UInt8.toNat hbyte
        rw [UInt8.toNat_ofNat'] at hnat
        have h255 : (255 : UInt8).toNat = 255 := rfl
        omega
      have hsome := (aton_eq_written_iff haton hs).mpr hplain
      rw [hread] at hsome
      cases hsome

/-- The decimal reading. -/
def decimalAton (s : List UInt8) : Option Address := some (written s)

/-- Two uses of a text that may be left out. -/
theorem unless_empty_iff {β : Type} {t : List UInt8} {x y z : β} {P : Prop}
    (h : t ≠ [] → (y = z ↔ P)) :
    (if t = [] then x else y) = (if t = [] then x else z) ↔ (t ≠ [] → P) := by
  by_cases hnil : t = []
  · rw [if_pos hnil, if_pos hnil]
    exact iff_of_true rfl fun hgiven => absurd hnil hgiven
  · rw [if_neg hnil, if_neg hnil, h hnil]
    exact (imp_iff_right hnil).symm

/-- **The station is given the addresses that are written** if and only if every text is
    readable. -/
theorem wifiMgrSetIpv4_iff (haton : FollowsInetAton aton) (hc : c.Accepted) (start : EspErr) :
    wifiMgrSetIpv4 aton true start .ok c = wifiMgrSetIpv4 decimalAton true start .ok c ↔
      ∀ t ∈ c.texts, Readable t := by
  have hread : ∀ {s}, validIpv4 s = true →
      (espIp4addrAton aton s = espIp4addrAton decimalAton s ↔ Readable s) := fun hs =>
    espIp4addrAton_iff haton hs
  have hne : ∀ {s}, validIpv4 s = true → s ≠ [] := by
    rintro s hs rfl
    cases hs
  have hmask : espIp4addrAton aton (if c.mask = [] then ascii "255.255.255.0" else c.mask) =
      espIp4addrAton decimalAton (if c.mask = [] then ascii "255.255.255.0" else c.mask) ↔
        (c.mask ≠ [] → Readable c.mask) := by
    by_cases hnil : c.mask = []
    · rw [if_pos hnil, hread (by decide)]
      exact ⟨fun _ h => absurd hnil h, fun _ => by decide⟩
    · rw [if_neg hnil, hread (hc.mask.resolve_left hnil)]
      exact ⟨fun h _ => h, fun h => h hnil⟩
  have hgw : (if c.gw = [] then [0, 0, 0, 0] else espIp4addrAton aton c.gw) =
      (if c.gw = [] then [0, 0, 0, 0] else espIp4addrAton decimalAton c.gw) ↔
        (c.gw ≠ [] → Readable c.gw) :=
    unless_empty_iff fun hgiven => hread (hc.gw.resolve_left hgiven)
  let dns := if c.dns = [] then c.gw else c.dns
  have hvalid : dns ≠ [] → validIpv4 dns = true := by
    intro hnil
    by_cases hown : c.dns = []
    · have hgw : dns = c.gw := if_pos hown
      exact hgw ▸ hc.gw.resolve_left (hgw ▸ hnil)
    · have hdns : dns = c.dns := if_neg hown
      exact hdns ▸ hc.dns.resolve_left hown
  have hdns : (if dns = [] then [] else [NetifCall.setDnsInfo (espIp4addrAton aton dns)]) =
      (if dns = [] then [] else [NetifCall.setDnsInfo (espIp4addrAton decimalAton dns)]) ↔
        (dns ≠ [] → Readable dns) := by
    refine unless_empty_iff fun hgiven => ?_
    rw [List.singleton_inj, NetifCall.setDnsInfo.injEq]
    exact hread (hvalid hgiven)
  have hcalls : ∀ a, wifiMgrSetIpv4 a true start .ok c =
      (.ok, (if c.hostname = [] then [] else [NetifCall.setHostname c.hostname]) ++
        (.dhcpcStop :: .setIpInfo
          { ip := espIp4addrAton a c.ip
            netmask := espIp4addrAton a (if c.mask = [] then ascii "255.255.255.0" else c.mask)
            gw := if c.gw = [] then [0, 0, 0, 0] else espIp4addrAton a c.gw } ::
          if dns = [] then [] else [.setDnsInfo (espIp4addrAton a dns)])) := by
    intro a
    unfold wifiMgrSetIpv4
    simp only [hc.static, if_neg (hne hc.ip), Bool.not_true, Bool.false_eq_true, if_false, ne_eq,
      not_true_eq_false]
    rw [List.append_assoc]
    rfl
  rw [hcalls, hcalls, Prod.mk.injEq, List.append_right_inj, List.cons.injEq, List.cons.injEq,
    NetifCall.setIpInfo.injEq, IpInfo.mk.injEq, hdns, hread hc.ip, hmask, hgw]
  unfold Ipv4Config.texts
  simp only [true_and, List.mem_filter, List.mem_cons, List.not_mem_nil, or_false,
    decide_eq_true_eq]
  constructor
  · rintro ⟨⟨hip, hmask, hgw⟩, hdns⟩ t ⟨rfl | rfl | rfl | rfl, hnil⟩
    · exact hip
    · exact hmask hnil
    · exact hgw hnil
    · have hown : dns = c.dns := if_neg hnil
      exact hown ▸ hdns (hown ▸ hnil)
  · intro hall
    refine ⟨⟨hall c.ip ⟨.inl rfl, hne hc.ip⟩, fun hnil => hall c.mask ⟨.inr (.inl rfl), hnil⟩,
      fun hnil => hall c.gw ⟨.inr (.inr (.inl rfl)), hnil⟩⟩, fun hnil => hall dns ⟨?_, hnil⟩⟩
    by_cases hown : c.dns = []
    · exact .inr (.inr (.inl (if_pos hown)))
    · exact .inr (.inr (.inr (if_neg hown)))

end Station

/-! ## 4. The form -/

section Form

variable {κ : Type} {o : Outside} {body : List UInt8} {img res : Image}

theorem text_congr {img img' : Image} {f : AppField} (h : img.read f.span = img'.read f.span) :
    text img f = text img' f := by
  unfold text
  rw [h]

/-- **What the checks of the form let through.** -/
theorem checkStatic_ok (h : checkStatic img = .ok res) :
    validIpv4 (text res .staticIp) = true ∧ validIpv4 (text res .staticMask) = true ∧
      (text res .staticGw = [] ∨ validIpv4 (text res .staticGw) = true) ∧
      (text res .staticDns = [] ∨ validIpv4 (text res .staticDns) = true) := by
  unfold checkStatic at h
  extract_lets masked at h
  have hother : ∀ f : AppField, f ≠ .staticMask → text masked f = text img f := by
    intro f hf
    refine text_congr ?_
    show (if text img .staticMask = [] then strlcpy img .staticMask (ascii "255.255.255.0")
      else img).read f.span = _
    split
    · exact read_strlcpy_other img _ (by decide) hf
    · rfl
  split at h
  · cases h
  rename_i hip
  split at h
  · cases h
  rename_i hmask
  split at h
  · cases h
  rename_i hgw
  split at h
  · cases h
  rename_i hdns
  rw [← Except.ok.inj h]
  have hblank : ∀ {f : AppField}, ¬ (text masked f ≠ [] ∧ (!validIpv4 (text masked f)) = true) →
      text masked f = [] ∨ validIpv4 (text masked f) = true := by
    intro f hno
    by_cases hnil : text masked f = []
    · exact .inl hnil
    · exact .inr (by simpa [hnil] using hno)
  refine ⟨by simpa [hother .staticIp (by decide)] using hip, ?_, hblank hgw, hblank hdns⟩
  have hmasked : masked = if text img .staticMask = [] then
    strlcpy img .staticMask (ascii "255.255.255.0") else img := rfl
  rw [hmasked]
  by_cases hnil : text img .staticMask = []
  · obtain ⟨rest, hread⟩ : ∃ rest, (img.poke AppField.staticMask.span.start
        (ascii "255.255.255.0" ++ [0])).read AppField.staticMask.span =
        ascii "255.255.255.0" ++ [0] ++ rest := read_poke_start img (by decide)
    have htext : text (strlcpy img .staticMask (ascii "255.255.255.0")) .staticMask =
        ascii "255.255.255.0" := by
      have hcopy : strlcpy img .staticMask (ascii "255.255.255.0") =
          img.poke AppField.staticMask.span.start (ascii "255.255.255.0" ++ [0]) := by
        unfold strlcpy Config.set
        rw [List.take_of_length_le (by decide)]
      unfold text
      rw [hcopy, hread, List.append_assoc]
      exact cstr_append_nul (by decide)
    rw [if_pos hnil, htext]
    decide
  · rw [if_neg hnil]
    simpa [hnil] using hmask

/-- The configuration of a station that was posted with a static address. -/
theorem accepted_of_saved {r : Request} {s : Server κ} (h : Saved o r s body .wifi)
    (hmode : formText body "wifi_mode" 8 ≠ ascii "ap")
    (hstatic : flag (hAdminReconfigure o r s).2.cfg .useStaticIp = true) :
    (stationConfig (hAdminReconfigure o r s).2.cfg).Accepted := by
  obtain ⟨pending, rules, hrun, hcfg, -⟩ := h.result
  rw [runSection_name] at hrun
  obtain ⟨hwifi, -⟩ := map_eq_ok hrun
  have hwifi : sectionWifi o body s.cfg = .ok pending := hwifi
  have hread : ∀ f : AppField, f ≠ .provisioned →
      (hAdminReconfigure o r s).2.cfg.read f.span = pending.read f.span := fun f hf => by
    rw [hcfg]
    exact (provisioned_within pending).read fun k hk => (AppField.span_apart hf).not_has hk
  have hflag : flag pending .useStaticIp = true := by
    have hbyte := hread .useStaticIp (by decide)
    rw [read_byte _ (by decide), read_byte _ (by decide)] at hbyte
    unfold flag at hstatic ⊢
    rw [← List.singleton_inj.mp hbyte]
    exact hstatic
  have hok : validIpv4 (text pending .staticIp) = true ∧
    validIpv4 (text pending .staticMask) = true ∧
      (text pending .staticGw = [] ∨ validIpv4 (text pending .staticGw) = true) ∧
      (text pending .staticDns = [] ∨ validIpv4 (text pending .staticDns) = true) := by
    unfold sectionWifi at hwifi
    dsimp only at hwifi
    rw [if_neg hmode] at hwifi
    unfold sectionWifiStation at hwifi
    extract_lets p₁ p₂ p₃ p₄ p₅ p₆ p₇ p₈ at hwifi
    split at hwifi
    · cases hwifi
    split at hwifi
    · cases hwifi
    split at hwifi
    · exact checkStatic_ok hwifi
    · rename_i hoff
      rw [Except.ok.inj hwifi] at hoff
      exact absurd hflag hoff
  have htext : ∀ f : AppField, f ≠ .provisioned →
      text (hAdminReconfigure o r s).2.cfg f = text pending f := fun f hf => text_congr (hread f hf)
  obtain ⟨hip, hmask, hgw, hdns⟩ := hok
  exact
    { static := hstatic
      ip := by rw [stationConfig, htext .staticIp (by decide)]; exact hip
      mask := .inr (by rw [stationConfig, htext .staticMask (by decide)]; exact hmask)
      gw := by rw [stationConfig, htext .staticGw (by decide)]; exact hgw
      dns := by rw [stationConfig, htext .staticDns (by decide)]; exact hdns }

/-- **Where the two readings agree.** A text that `valid_ipv4` accepts is read as it is written if
    and only if none of its numbers begins with 0 and is 8 or more; and a station whose addresses
    the form accepted is given them as they are written if and only if that is so of each of
    them. -/
theorem addresses_read_alike_iff {aton : List UInt8 → Option Address}
    (haton : FollowsInetAton aton) :
    (∀ s, validIpv4 s = true → (aton s = some (written s) ↔ Readable s)) ∧
      ∀ (o : Outside) (r : Request) (s : Server κ) (body : List UInt8), Saved o r s body .wifi →
        formText body "wifi_mode" 8 ≠ ascii "ap" →
        let cfg := (hAdminReconfigure o r s).2.cfg
        flag cfg .useStaticIp = true → ∀ start,
          (wifiMgrSetIpv4 aton true start .ok (stationConfig cfg) =
              wifiMgrSetIpv4 decimalAton true start .ok (stationConfig cfg) ↔
            ∀ t ∈ (stationConfig cfg).texts, Readable t) :=
  ⟨fun _ hs => aton_eq_written_iff haton hs, fun _ _ _ _ hsaved hmode hstatic start =>
    wifiMgrSetIpv4_iff haton (accepted_of_saved hsaved hmode hstatic) start⟩

/-- A station at 192.168.010.001. -/
def zeroForm : List UInt8 :=
  ascii "section=wifi&wifi_ssid=home&use_static_ip=1&static_ip=192.168.010.001"

def zeroCfg : Image :=
  (hAdminReconfigure quietOutside (postOf "/api/reconfigure" zeroForm) ruledServer).2.cfg

theorem addresses_read_alike_iff_zeroForm :
    (inetAton (ascii "192.168.10.1") = some (written (ascii "192.168.10.1")) ↔
      Readable (ascii "192.168.10.1")) ∧
    (wifiMgrSetIpv4 inetAton true .ok .ok (stationConfig zeroCfg) =
        wifiMgrSetIpv4 decimalAton true .ok .ok (stationConfig zeroCfg) ↔
      ∀ t ∈ (stationConfig zeroCfg).texts, Readable t) := by
  have hsaved : Saved quietOutside (postOf "/api/reconfigure" zeroForm) ruledServer zeroForm
    .wifi :=
    ⟨by decide +kernel, by decide +kernel, by decide +kernel⟩
  obtain ⟨htext, hform⟩ := addresses_read_alike_iff (κ := Nat) inetAton_follows
  exact ⟨htext _ (by decide), hform _ _ _ _ hsaved (by decide +kernel) (by decide +kernel) .ok⟩

/-- **A zero in front moves an address**: 192.168.010.001 is accepted, and the station is at
    192.168.8.1. -/
theorem leading_zero_moves_address :
    FollowsInetAton inetAton ∧ validIpv4 (ascii "192.168.010.001") = true ∧
      written (ascii "192.168.010.001") = [192, 168, 10, 1] ∧
      inetAton (ascii "192.168.010.001") = some [192, 168, 8, 1] :=
  ⟨inetAton_follows, by decide, by decide, by decide⟩

end Form

end NutBluetti.Wifi
