/-
  File:      NutBluetti/Ota/ReleaseScan.lean
  Subject:   THE RELEASE SCANNER (ota_github.c): `scan_byte` and the read loop of `ota_gh_check`, on
             the JSON text that comes in pieces.

  The matcher keeps how much of `"tag_name":"` it has seen; at a mismatch it starts again, at most
  with the byte at hand. A quote inside a string comes after a backslash, which is not in the
  needle: so inside a string the matcher never gets past the name, and a colon follows a quote only
  after a name.

  * `scanByte`, `scanReads` -- the code;
  * `Scan.between` -- the scanner between two values: how far it is, and the strings captured so
    far;
  * `scan_text`, `scan_name`, `scan_captured` -- a string, a name, and the value of a `tag_name`;
  * `scan_part` -- a value, items or members;
  * **`releases_scanned`** -- what is captured of a document, however it is cut.
-/
import NutBluetti.Lib.JsonMembers
import NutBluetti.Ota.Versions

namespace NutBluetti.Ota

open JsonText
open NutBluetti.Config (ascii)
open NutBluetti.Web

/-! ## 1. The scanner -/

/-- `ota_gh_release_t`. -/
structure Release where
  version : List UInt8
  prerelease : Bool
  newer : Bool
  deriving DecidableEq

/-- `sizeof val`, and that of a release's `version`. -/
def versionSz : Nat := 16

/-- `s.needle`. -/
def needle : List UInt8 := ascii "\"tag_name\":\""

/-- `scan_t`; `n` entries of `out` are filled, and `val_len` bytes of `val`. -/
structure Scan where
  matched : Nat
  capturing : Bool
  val : List UInt8
  out : List Release
  max : Nat
  running : List UInt8

/-- A tag without its leading v. -/
def dropV : List UInt8 → List UInt8
  | [] => []
  | c :: s => if c = chr 'v' ∨ c = chr 'V' then s else c :: s

/-- The entry for a captured value. -/
def releaseOf (running val : List UInt8) : Release :=
  let v := dropV (cstr val)
  { version := fitBytes versionSz v, prerelease := false, newer :=
    decide (otaGhVercmp v running > 0) }

/-- **`scan_byte`**. -/
def scanByte (s : Scan) (c : UInt8) : Scan :=
  if s.capturing then
    if c = chr '"' then
      { s with
        out := if s.out.length < s.max then s.out ++ [releaseOf s.running s.val] else s.out
        capturing := false
        val := [] }
    else if s.val.length + 1 < versionSz then { s with val := s.val ++ [c] }
    else s
  else if c = needle.getD s.matched 0 then
    if needle.getD (s.matched + 1) 0 = 0 then { s with capturing := true, val := [], matched := 0 }
    else { s with matched := s.matched + 1 }
  -- restart, allowing this byte to begin a fresh match
  else { s with matched := if c = needle.getD 0 0 then 1 else 0 }

/-- What one read brought. -/
def scanBytes (s : Scan) (buf : List UInt8) : Scan := buf.foldl scanByte s

/-- **The read loop of `ota_gh_check`**, on what the reads bring; one that brings nothing ends
    it. -/
def scanReads : Scan → List (List UInt8) → Scan
  | s, [] => s
  | s, buf :: more =>
      if buf = [] then s
      else if (scanBytes s buf).out.length ≥ s.max then scanBytes s buf
      else scanReads (scanBytes s buf) more

/-- `scan_t s = { … }`. -/
def Scan.start (max : Nat) (running : List UInt8) : Scan :=
  { matched := 0, capturing := false, val := [], out := [], max, running }

/-! ## 2. Strings -/

/-- The name that is looked for. -/
def tagName : List UInt8 := ascii "tag_name"

/-- How far the matcher is after a byte. -/
def advance (m : Nat) (c : UInt8) : Nat :=
  if c = needle.getD m 0 then m + 1 else if c = needle.getD 0 0 then 1 else 0

section Scanning

variable (max : Nat) (running : List UInt8)

/-- The entries for the strings that were captured. -/
def entries (found : List (List UInt8)) : List Release :=
  (found.take max).map fun v => releaseOf running (v.take (versionSz - 1))

/-- **The scanner between two values**, and inside strings it does not capture. -/
def Scan.between (m : Nat) (found : List (List UInt8)) : Scan :=
  { matched := m, capturing := false, val := [], out := entries max running found, max, running }

variable {max running}

theorem scanBytes_cons (s : Scan) (c : UInt8) (buf : List UInt8) :
    scanBytes s (c :: buf) = scanBytes (scanByte s c) buf := rfl

theorem scanBytes_append (s : Scan) (buf buf' : List UInt8) :
    scanBytes s (buf ++ buf') = scanBytes (scanBytes s buf) buf' := List.foldl_append

theorem scanByte_between {m : Nat} (hm : m ≤ 10) (c : UInt8) (found : List (List UInt8)) :
    scanByte (.between max running m found) c = .between max running (advance m c) found := by
  have hmore : ∀ m ≤ 10, needle.getD (m + 1) 0 ≠ 0 := by decide
  unfold advance
  show (if c = needle.getD m 0 then
      if needle.getD (m + 1) 0 = 0 then _ else Scan.between max running (m + 1) found
    else Scan.between max running (if c = needle.getD 0 0 then 1 else 0) found) = _
  by_cases hc : c = needle.getD m 0
  · rw [if_pos hc, if_pos hc, if_neg (hmore m hm)]
  · rw [if_neg hc, if_neg hc]

theorem advance_le {m : Nat} (hm : m ≤ 9) {c : UInt8} (hc : c ≠ chr '"') : advance m c ≤ 9 := by
  have hends : needle.getD 9 0 = chr '"' ∧ needle.getD 0 0 = chr '"' := ⟨rfl, rfl⟩
  unfold advance
  split
  · rename_i heq
    rcases Nat.lt_or_eq_of_le hm with hlt | rfl
    · exact hlt
    · exact absurd (heq.trans hends.1) hc
  · rw [hends.2, if_neg hc]
    exact Nat.zero_le 9

theorem advance_zero {c : UInt8} (hc : c ≠ chr '"') : advance 0 c = 0 :=
  (if_neg hc).trans (if_neg hc)

/-- A byte that is not in the needle begins afresh. -/
theorem advance_stop {c : UInt8} (hc : ∀ m ≤ 10, c ≠ needle.getD m 0) {m : Nat} (hm : m ≤ 10) :
    advance m c = 0 := by
  unfold advance
  rw [if_neg (hc m hm), if_neg (hc 0 (Nat.zero_le _))]

theorem advance_quote {m : Nat} (hm : m ≤ 9) : advance m (chr '"') = if m = 9 then 10 else 1 := by
  have hall : ∀ m : Fin 10, advance m.val (chr '"') = if m.val = 9 then 10 else 1 := by decide
  exact hall ⟨m, Nat.lt_succ_of_le hm⟩

/-- The bytes that stand between values. -/
theorem advance_mark {c : UInt8} (hc : c ∈ ascii "[]\x7b\x7d,") {m : Nat} (hm : m ≤ 10) :
    advance m c = 0 := by
  have hall : ∀ m : Fin 11, (ascii "[]\x7b\x7d,").all fun c => c ≠ needle.getD m.val 0 := by decide
  refine advance_stop (fun m hm => ?_) hm
  exact of_decide_eq_true (List.all_eq_true.mp (hall ⟨m, Nat.lt_succ_of_le hm⟩) c hc)

/-- Without a quote the matcher does not get past the name. -/
theorem foldl_advance_le {t : List UInt8} (ht : ∀ c ∈ t, c ≠ chr '"') {m : Nat} (hm : m ≤ 9) :
    t.foldl advance m ≤ 9 := by
  induction t generalizing m with
  | nil => exact hm
  | cons c t ih =>
      obtain ⟨hc, ht⟩ := List.forall_mem_cons.mp ht
      exact ih ht (advance_le hm hc)

theorem scan_unquoted {t : List UInt8} (ht : ∀ c ∈ t, c ≠ chr '"') {m : Nat} (hm : m ≤ 9)
    (found : List (List UInt8)) :
    scanBytes (.between max running m found) t =
    .between max running (t.foldl advance m) found := by
  induction t generalizing m with
  | nil => rfl
  | cons c t ih =>
      obtain ⟨hc, ht⟩ := List.forall_mem_cons.mp ht
      rw [scanBytes_cons, scanByte_between (by omega), List.foldl_cons]
      exact ih ht (advance_le hm hc)

/-- A quote in an escape comes after a backslash. -/
theorem scan_escaped {e t : List UInt8} (h : bytes.Escaped e t) {m : Nat} (hm : m ≤ 9)
    (found : List (List UInt8)) :
    ∃ m' ≤ 9, scanBytes (.between max running m found) t = .between max running m' found := by
  have hhex : ∀ {n : Nat} {c : UInt8}, bytes.IsHex n c → c ≠ chr '"' := by
    intro n c hc
    obtain ⟨d, rfl, hd⟩ := hc
    have hall : ("0123456789abcdef".toList ++ "0123456789ABCDEF".toList).all
        fun d => bytes.lit d ≠ chr '"' := by decide
    have hin : d ∈ "0123456789abcdef".toList ++ "0123456789ABCDEF".toList :=
      List.mem_append.mpr (hd.imp List.mem_of_getElem? List.mem_of_getElem?)
    exact of_decide_eq_true (List.all_eq_true.mp hall d hin)
  have hunit : ∀ {n : Nat} {t : List UInt8}, bytes.CodeUnit n t → ∀ c ∈ t, c ≠ chr '"' := by
    intro n t ht
    cases ht with
    | mk ha hb hc hd =>
        refine List.forall_mem_cons.mpr ⟨by decide, List.forall_mem_cons.mpr ⟨by decide, ?_⟩⟩
        simp only [List.mem_cons, List.not_mem_nil, or_false]
        rintro c (rfl | rfl | rfl | rfl)
        · exact hhex ha
        · exact hhex hb
        · exact hhex hc
        · exact hhex hd
  cases h with
  | short hmem =>
      rename_i e c
      have hback : advance m (bytes.lit '\\') = 0 :=
        advance_stop (fun m hm => by
          have hall : ∀ m : Fin 11, bytes.lit '\\' ≠ needle.getD m.val 0 := by decide
          exact hall ⟨m, Nat.lt_succ_of_le hm⟩) (by omega)
      rw [scanBytes_cons, scanByte_between (by omega), hback, scanBytes_cons,
        scanByte_between (Nat.zero_le _)]
      refine ⟨advance 0 (bytes.lit e), ?_, rfl⟩
      unfold advance
      split <;> omega
  | unit ht _ => exact ⟨_, foldl_advance_le (hunit ht) hm, scan_unquoted (hunit ht) hm found⟩
  | pair ht ht' =>
      have hboth := List.forall_mem_append.mpr ⟨hunit ht, hunit ht'⟩
      exact ⟨_, foldl_advance_le hboth hm, scan_unquoted hboth hm found⟩

/-- **A string, in any of its spellings**, does not match beyond the name. -/
theorem scan_text {s t : List UInt8} (h : bytes.SpellsText s t) {m : Nat} (hm : m ≤ 9)
    (found : List (List UInt8)) :
    ∃ m' ≤ 9, scanBytes (.between max running m found) t = .between max running m' found := by
  induction h generalizing m with
  | nil => exact ⟨m, hm, rfl⟩
  | plain hc _ ih =>
      rw [scanBytes_cons, scanByte_between (by omega)]
      exact ih (advance_le hm hc.1)
  | escaped he _ ih =>
      obtain ⟨m', hm', hscan⟩ := @scan_escaped max running _ _ he m hm found
      rw [scanBytes_append, hscan]
      exact ih hm'

/-! ## 3. Names -/

/-- Once the match is lost only a quote begins another. -/
theorem foldl_advance_zero {k : List UInt8} (hk : ∀ c ∈ k, c ≠ chr '"') :
    k.foldl advance 0 = 0 := by
  induction k with
  | nil => rfl
  | cons c k ih =>
      obtain ⟨hc, hk⟩ := List.forall_mem_cons.mp hk
      rw [List.foldl_cons, advance_zero hc, ih hk]

/-- **The matcher reads the name to its end** exactly of what is left of it. -/
theorem foldl_advance_iff {k : List UInt8} (hk : ∀ c ∈ k, c ≠ chr '"') {i : Nat} (hi : i ≤ 8) :
    k.foldl advance (i + 1) = 9 ↔ k = tagName.drop i := by
  induction k generalizing i with
  | nil =>
      have hlen : tagName.length = 8 := rfl
      rw [List.foldl_nil, eq_comm (a := []), List.drop_eq_nil_iff, hlen]
      omega
  | cons c k ih =>
      obtain ⟨hc, hk⟩ := List.forall_mem_cons.mp hk
      rw [List.foldl_cons]
      rcases Nat.lt_or_eq_of_le hi with hlt | rfl
      · have hdrop : tagName.drop i = needle.getD (i + 1) 0 :: tagName.drop (i + 1) := by
          have hall : ∀ i : Fin 8,
              tagName.drop i.val = needle.getD (i.val + 1) 0 :: tagName.drop (i.val + 1) := by
                decide
          exact hall ⟨i, hlt⟩
        rw [hdrop, List.cons.injEq]
        by_cases hsame : c = needle.getD (i + 1) 0
        · have hnext : advance (i + 1) c = i + 1 + 1 := if_pos hsame
          rw [hnext, ih hk hlt]
          exact (and_iff_right hsame).symm
        · have hlost : advance (i + 1) c = 0 := (if_neg hsame).trans (if_neg hc)
          rw [hlost, foldl_advance_zero hk]
          exact iff_of_false (by decide) fun heq => hsame heq.1
      · have hlost : advance 9 c = 0 := (if_neg hc).trans (if_neg hc)
        rw [hlost, foldl_advance_zero hk]
        exact iff_of_false (by decide) (List.cons_ne_nil c k)

/-- **A name**: the matcher waits for a colon if it is `tag_name`. -/
theorem scan_name {k : List UInt8} (hk : bytes.PlainText k) (found : List (List UInt8)) :
    scanBytes (.between max running 0 found) (bytes.quote k) =
      .between max running (if k = tagName then 10 else 1) found := by
  have hunquoted : ∀ c ∈ k, c ≠ chr '"' := fun c hc => (hk c hc).1
  have hopen : advance 0 (chr '"') = 1 := rfl
  have hle := foldl_advance_le hunquoted (show 1 ≤ 9 by decide)
  show scanBytes _ (chr '"' :: (k ++ [chr '"'])) = _
  rw [scanBytes_cons, scanByte_between (Nat.zero_le _), hopen, scanBytes_append,
    scan_unquoted hunquoted (by decide), scanBytes_cons, scanByte_between (by omega),
    advance_quote hle]
  simp only [foldl_advance_iff hunquoted (Nat.zero_le 8), List.drop_zero]
  rfl

/-! ## 4. The value of a `tag_name` -/

/-- The scanner inside a value it captures. -/
def Scan.within (max : Nat) (running val : List UInt8) (found : List (List UInt8)) : Scan :=
  { matched := 0, capturing := true, val, out := entries max running found, max, running }

theorem entries_snoc (found : List (List UInt8)) (s : List UInt8) :
    entries max running (found ++ [s]) =
      if (entries max running found).length < max then
        entries max running found ++ [releaseOf running (s.take (versionSz - 1))]
      else entries max running found := by
  unfold entries
  rw [List.length_map, List.length_take]
  split
  · have hroom : (found ++ [s]).length ≤ max := by
      rw [List.length_append, List.length_singleton]
      omega
    rw [List.take_of_length_le hroom, List.take_of_length_le (by omega), List.map_append]
    rfl
  · rw [List.take_append_of_le_length (by omega)]

theorem scan_within {s : List UInt8} (hs : ∀ c ∈ s, c ≠ chr '"') {val : List UInt8}
    (hval : val.length < versionSz) (found : List (List UInt8)) :
    scanBytes (.within max running val found) s =
      .within max running ((val ++ s).take (versionSz - 1)) found := by
  induction s generalizing val with
  | nil =>
      rw [List.append_nil, List.take_of_length_le (Nat.le_sub_one_of_lt hval)]
      rfl
  | cons c s ih =>
      obtain ⟨hc, hs⟩ := List.forall_mem_cons.mp hs
      rw [scanBytes_cons]
      have hstep : scanByte (.within max running val found) c =
          if val.length + 1 < versionSz then .within max running (val ++ [c]) found
          else .within max running val found := if_neg hc
      rw [hstep]
      split
      · rename_i hroom
        rw [ih hs (by rw [List.length_append]; exact hroom), List.append_assoc,
          List.singleton_append]
      · rename_i hfull
        have hlen : versionSz - 1 = val.length := by omega
        rw [ih hs hval, hlen, List.take_left, List.take_left]

/-- **The value of a `tag_name` is captured.** -/
theorem scan_captured {s : List UInt8} (hs : bytes.PlainText s) (found : List (List UInt8)) :
    scanBytes (.between max running 11 found) (bytes.quote s) =
      .between max running 0 (found ++ [s]) := by
  have hunquoted : ∀ c ∈ s, c ≠ chr '"' := fun c hc => (hs c hc).1
  have hopen : scanByte (.between max running 11 found) (chr '"') = .within max running [] found :=
    rfl
  have hclose : ∀ val, scanByte (.within max running val found) (chr '"') =
      { Scan.between max running 0 found with
        out := if (entries max running found).length < max then
            entries max running found ++ [releaseOf running val]
          else entries max running found } := fun _ => rfl
  show scanBytes _ (chr '"' :: (s ++ [chr '"'])) = _
  rw [scanBytes_cons, hopen, scanBytes_append, scan_within hunquoted (by decide), List.nil_append,
    scanBytes_cons, hclose, ← entries_snoc]
  rfl

/-! ## 5. Documents -/

theorem number_unquoted {ds : List UInt8}
    (h : ∀ c ∈ ds, ∃ d ∈ "0123456789-+.eE".toList, c = bytes.lit d) :
    ∀ c ∈ ds, c ≠ chr '"' := by
  intro c hc
  obtain ⟨d, hd, rfl⟩ := h c hc
  have hall : "0123456789-+.eE".toList.all fun d => bytes.lit d ≠ chr '"' := by decide
  exact of_decide_eq_true (List.all_eq_true.mp hall d hd)

/-- A value that is no string begins with something else than a quote. -/
theorem compact_head {Raw : List UInt8 → Prop} {v : Value UInt8} {t : List UInt8}
    (h : Compact bytes Raw (.value v) t) (hv : ∀ s, v ≠ .str s) :
    ∃ c rest, t = c :: rest ∧ c ≠ chr '"' := by
  cases h with
  | null => exact ⟨_, _, rfl, by decide⟩
  | yes => exact ⟨_, _, rfl, by decide⟩
  | no => exact ⟨_, _, rfl, by decide⟩
  | num hds =>
      obtain ⟨hne, hall⟩ := hds.characters
      obtain ⟨c, rest, rfl⟩ := List.exists_cons_of_ne_nil hne
      exact ⟨c, rest, rfl, number_unquoted hall c List.mem_cons_self⟩
  | str _ => exact absurd rfl (hv _)
  | arr _ => exact ⟨_, _, rfl, by decide⟩
  | obj _ => exact ⟨_, _, rfl, by decide⟩

/-- Such a value is scanned after a `tag_name` as it is elsewhere. -/
theorem scan_other {t : List UInt8} (ht : ∃ c rest, t = c :: rest ∧ c ≠ chr '"')
    (found : List (List UInt8)) :
    scanBytes (.between max running 11 found) t = scanBytes (.between max running 0 found) t := by
  obtain ⟨c, rest, rfl, hc⟩ := ht
  have hlost : scanByte (.between max running 11 found) c = .between max running 0 found := by
    show (if c = chr '"' then _
      else Scan.between max running (if c = chr '"' then 1 else 0) found) = _
    rw [if_neg hc, if_neg hc]
  have hlost' : scanByte (.between max running 0 found) c = .between max running 0 found := by
    rw [scanByte_between (Nat.zero_le _), advance_zero hc]
  rw [scanBytes_cons, scanBytes_cons, hlost, hlost']

/-- **A member**: its string is captured if it is a `tag_name`, and its value is scanned
    otherwise. -/
theorem scan_member {k : List UInt8} {v : Value UInt8} {t : List UInt8} (hk : bytes.PlainText k)
    (hv : Compact bytes (· = tagName) (.value v) t) (hraw : k = tagName → AsItIs bytes v t)
    (ih : ∀ found, ∃ m ≤ 10, scanBytes (.between max running 0 found) t =
      .between max running m (found ++ v.named tagName)) (found : List (List UInt8)) :
    ∃ m ≤ 10, scanBytes (.between max running 0 found) (bytes.quote k ++ bytes.lit ':' :: t) =
      .between max running m (found ++ namedMember tagName (k, v)) := by
  have hcolon : scanByte (.between max running (if k = tagName then 10 else 1) found)
    (bytes.lit ':') =
      .between max running (if k = tagName then 11 else 0) found := by
    split
    · rw [scanByte_between (by decide)]
      rfl
    · rw [scanByte_between (by decide)]
      rfl
  rw [scanBytes_append, scan_name hk, scanBytes_cons, hcolon]
  by_cases hstr : ∃ s, v = .str s
  · obtain ⟨s, rfl⟩ := hstr
    by_cases htag : k = tagName
    · obtain ⟨hs, rfl⟩ := hraw htag s rfl
      have hnamed : namedMember tagName (k, .str s) = [s] := if_pos htag
      rw [if_pos htag, hnamed]
      exact ⟨0, Nat.zero_le _, scan_captured hs found⟩
    · have hnamed : namedMember tagName (k, .str s) = [] := if_neg htag
      rw [if_neg htag, hnamed]
      exact ih found
  · have hv' : ∀ s, v ≠ .str s := fun s hs => hstr ⟨s, hs⟩
    have hnamed : namedMember tagName (k, v) = v.named tagName := by
      cases v with
      | str s => exact absurd rfl (hv' s)
      | _ => rfl
    rw [hnamed]
    split
    · rw [scan_other (compact_head hv hv')]
      exact ih found
    · exact ih found

/-- **What is captured of a part of a document.** -/
theorem scan_part {p : JsonText.Part UInt8} {t : List UInt8} (h : Compact bytes (· = tagName) p t)
    (found : List (List UInt8)) :
    ∃ m ≤ 10, scanBytes (.between max running 0 found) t =
      .between max running m (found ++ p.named tagName) := by
  -- a text without a quote holds nothing
  have hplain : ∀ {t : List UInt8} (found : List (List UInt8)), (∀ c ∈ t, c ≠ chr '"') →
      ∃ m ≤ 10, scanBytes (.between max running 0 found) t =
      .between max running m (found ++ []) := by
    intro t found ht
    rw [List.append_nil]
    exact ⟨_, Nat.le_succ_of_le (foldl_advance_le ht (Nat.zero_le 9)),
      scan_unquoted ht (Nat.zero_le 9) found⟩
  -- the byte after a part makes the matcher forget
  have hmark : ∀ {m : Nat} (c : UInt8) (found : List (List UInt8)), c ∈ ascii "[]\x7b\x7d," →
    m ≤ 10 →
      scanByte (.between max running m found) c = .between max running 0 found := by
    intro m c found hc hm
    rw [scanByte_between hm, advance_mark hc hm]
  induction h generalizing found with
  | null => exact hplain found (by decide +kernel)
  | yes => exact hplain found (by decide +kernel)
  | no => exact hplain found (by decide +kernel)
  | num hds => exact hplain found (number_unquoted hds.characters.2)
  | str ht =>
      obtain ⟨m, hm, hscan⟩ := @scan_text max running _ _ ht 1 (by decide) found
      have hopen : advance 0 (chr '"') = 1 := rfl
      show ∃ m ≤ 10, scanBytes _ (chr '"' :: (_ ++ [chr '"'])) =
        .between max running m (found ++ [])
      rw [scanBytes_cons, scanByte_between (Nat.zero_le _), hopen, scanBytes_append, hscan,
        scanBytes_cons, scanByte_between (by omega), advance_quote hm, List.append_nil]
      refine ⟨_, ?_, rfl⟩
      split
      · exact Nat.le_refl 10
      · decide
  | arr _ ih =>
      obtain ⟨m, hm, hscan⟩ := ih found
      rw [scanBytes_cons, hmark _ found (by decide) (Nat.zero_le _), scanBytes_append, hscan,
        scanBytes_cons, hmark _ _ (by decide) hm]
      exact ⟨0, Nat.zero_le _, rfl⟩
  | obj _ ih =>
      obtain ⟨m, hm, hscan⟩ := ih found
      rw [scanBytes_cons, hmark _ found (by decide) (Nat.zero_le _), scanBytes_append, hscan,
        scanBytes_cons, hmark _ _ (by decide) hm]
      exact ⟨0, Nat.zero_le _, rfl⟩
  | noItems => exact hplain found fun c hc => absurd hc List.not_mem_nil
  | lastItem _ ih =>
      obtain ⟨m, hm, hscan⟩ := ih found
      refine ⟨m, hm, hscan.trans ?_⟩
      simp only [Part.named, namedItems, List.append_nil]
  | item _ _ ih ih' =>
      obtain ⟨m, hm, hscan⟩ := ih found
      obtain ⟨m', hm', hscan'⟩ := ih' (found ++ Part.named tagName (.value _))
      rw [scanBytes_append, hscan, scanBytes_cons, hmark _ _ (by decide) hm, hscan',
        List.append_assoc]
      exact ⟨m', hm', rfl⟩
  | noMembers => exact hplain found fun c hc => absurd hc List.not_mem_nil
  | lastMember hk hv hraw ih =>
      obtain ⟨m, hm, hscan⟩ := scan_member hk hv hraw ih found
      refine ⟨m, hm, hscan.trans ?_⟩
      simp only [Part.named, namedMembers, List.append_nil]
  | member hk hv hraw _ ih ih' =>
      obtain ⟨m, hm, hscan⟩ := scan_member hk hv hraw ih found
      obtain ⟨m', hm', hscan'⟩ := ih' (found ++ namedMember tagName (_, _))
      rw [← List.cons_append, ← List.append_assoc, scanBytes_append, hscan, scanBytes_cons,
        hmark _ _ (by decide) hm, hscan', List.append_assoc]
      exact ⟨m', hm', rfl⟩

end Scanning

/-! ## 6. Pieces -/

theorem scanBytes_flatten (s : Scan) (chunks : List (List UInt8)) :
    chunks.foldl scanBytes s = scanBytes s chunks.flatten := by
  unfold scanBytes
  rw [List.foldl_flatten]

/-- Nothing is added to a full list. -/
theorem scanBytes_full {s : Scan} (h : s.max ≤ s.out.length) (buf : List UInt8) :
    (scanBytes s buf).out = s.out := by
  have hstep : ∀ s : Scan, s.max ≤ s.out.length → ∀ c,
      (scanByte s c).out = s.out ∧ (scanByte s c).max = s.max := by
    intro s h c
    unfold scanByte
    split
    · split
      · exact ⟨if_neg (by omega), rfl⟩
      · split
        · exact ⟨rfl, rfl⟩
        · exact ⟨rfl, rfl⟩
    · split
      · split
        · exact ⟨rfl, rfl⟩
        · exact ⟨rfl, rfl⟩
      · exact ⟨rfl, rfl⟩
  induction buf generalizing s with
  | nil => rfl
  | cons c buf ih =>
      obtain ⟨hout, hmax⟩ := hstep s h c
      rw [scanBytes_cons, ih (by rw [hout, hmax]; exact h), hout]

/-- **Leaving the loop early loses nothing.** -/
theorem scanReads_out {s : Scan} {chunks : List (List UInt8)} (hchunks : ∀ buf ∈ chunks, buf ≠ []) :
    (scanReads s chunks).out = (scanBytes s chunks.flatten).out := by
  have hmax : ∀ (buf : List UInt8) (s : Scan), (scanBytes s buf).max = s.max := by
    intro buf
    induction buf with
    | nil => exact fun s => rfl
    | cons c buf ih =>
        intro s
        rw [scanBytes_cons, ih]
        unfold scanByte
        split
        · split
          · rfl
          · split <;> rfl
        · split
          · split <;> rfl
          · rfl
  induction chunks generalizing s with
  | nil => rfl
  | cons buf chunks ih =>
      obtain ⟨hbuf, hmore⟩ := List.forall_mem_cons.mp hchunks
      rw [scanReads, if_neg hbuf, List.flatten_cons, scanBytes_append]
      split
      · rename_i hfull
        exact (scanBytes_full (by rw [hmax]; exact hfull) _).symm
      · exact ih hmore

theorem length_dropV_le (s : List UInt8) : (dropV s).length ≤ s.length := by
  cases s with
  | nil => exact Nat.le_refl 0
  | cons c s =>
      rw [dropV]
      split
      · exact Nat.le_succ s.length
      · exact Nat.le_refl _

/-- The version of an entry: nothing of the 15 bytes is lost. -/
theorem releaseOf_version (running : List UInt8) {v : List UInt8} (hv : bytes.PlainText v) :
    (releaseOf running (v.take (versionSz - 1))).version = dropV (v.take 15) := by
  have hnul : (0 : UInt8) ∉ v.take (versionSz - 1) := by
    intro hin
    have hcontrol := (hv 0 (List.mem_of_mem_take hin)).2.2
    cases hcontrol
  have hlen := Nat.le_trans (length_dropV_le (v.take (versionSz - 1))) (List.length_take_le _ v)
  unfold releaseOf fitBytes
  rw [cstr_of_noNul hnul]
  exact List.take_of_length_le hlen

/-- **What is captured of a document**, written without blanks, with its names as they are, and the
    strings under `tag_name` too: the first `max` of those strings, at any depth and in order, each
    cut to 15 bytes and without its leading v. It does not matter in which pieces the text comes. -/
theorem releases_scanned {doc : Value UInt8} {text : List UInt8}
    (hdoc : Compact bytes (· = tagName) (.value doc) text) {chunks : List (List UInt8)}
    (hchunks : chunks.flatten = text) (max : Nat) (running : List UInt8) :
    let versions := ((doc.named tagName).take max).map fun v => dropV (v.take 15)
    (chunks.foldl scanBytes (Scan.start max running)).out.map Release.version = versions ∧
      ((∀ buf ∈ chunks, buf ≠ []) →
        (scanReads (Scan.start max running) chunks).out.map Release.version = versions) := by
  intro versions
  obtain ⟨m, -, hscan⟩ := @scan_part max running _ _ hdoc []
  have hout : (scanBytes (Scan.start max running) chunks.flatten).out.map Release.version =
    versions := by
    have hstart : Scan.start max running = .between max running 0 [] := by
      unfold Scan.start Scan.between entries
      rw [List.take_nil, List.map_nil]
    have hout : (Scan.between max running m ([] ++ Part.named tagName (.value doc))).out =
        ((doc.named tagName).take max).map fun v => releaseOf running (v.take (versionSz - 1)) :=
          rfl
    rw [hchunks, hstart, hscan, hout, List.map_map]
    refine List.map_congr_left fun v hv => ?_
    exact releaseOf_version running (hdoc.named_plain rfl v (List.mem_of_mem_take hv))
  exact ⟨(congrArg (fun s => s.out.map Release.version) (scanBytes_flatten _ chunks)).trans hout,
    fun hne => (congrArg (List.map Release.version) (scanReads_out hne)).trans hout⟩

/-- Release notes with the needle in them, escaped; they do not count. -/
def notesDoc : Value UInt8 :=
  .arr [.obj [(ascii "body", .str (ascii "\"tag_name\":\"v9\"")), (tagName, .str (ascii "v0.2.0"))]]

def notesText : List UInt8 :=
  ascii "[\x7b\"body\":\"\\\"tag_name\\\":\\\"v9\\\"\",\"tag_name\":\"v0.2.0\"\x7d]"

theorem releases_scanned_notes :
    ((notesText.map fun c => [c]).foldl scanBytes (Scan.start 8 [])).out.map Release.version =
      [ascii "0.2.0"] := by
  have hquote : ∀ {s t : List UInt8}, bytes.SpellsText s t →
      bytes.SpellsText (chr '"' :: s) (chr '\\' :: chr '"' :: t) := fun h =>
    .escaped (.short (e := '"') (c := '"') (by decide)) h
  have hplain : ∀ {a s t : List UInt8}, bytes.PlainText a → bytes.SpellsText s t →
      bytes.SpellsText (a ++ s) (a ++ t) := by
    intro a s t ha h
    induction a with
    | nil => exact h
    | cons c a ih =>
        obtain ⟨hc, ha⟩ := List.forall_mem_cons.mp ha
        exact .plain hc (ih ha)
  have hbody : bytes.SpellsText (ascii "\"tag_name\":\"v9\"")
    (ascii "\\\"tag_name\\\":\\\"v9\\\"") :=
    hquote (hplain (a := ascii "tag_name") (by decide) (hquote (hplain (a := ascii ":") (by decide)
      (hquote (hplain (a := ascii "v9") (by decide) (hquote .nil))))))
  have hdoc : Compact bytes (· = tagName) (.value notesDoc) notesText :=
    .arr (.lastItem (.obj (.member (k := ascii "body") (by decide) (.str hbody)
      (fun h => absurd h (by decide)) (.lastMember (k := tagName) (by decide)
        (.str (Alphabet.PlainText.spells (s := ascii "v0.2.0") (by decide)))
        fun _ s hs => by
          cases hs
          exact ⟨by decide, rfl⟩))))
  exact (@releases_scanned _ _ hdoc (notesText.map fun c => [c]) (by decide) 8 []).1.trans
    (by decide)

end NutBluetti.Ota
