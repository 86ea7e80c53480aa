/-
  File:      NutBluetti/Web/FormCodec.lean
  Subject:   WHAT A FORM CARRIES (provisioning.c): fields, URL-encoded one way or another and joined
             with `&`, and what `form_get` reads back.

  * `Encodes` -- the ways to write a value;
  * `Encodes.urlDecode` -- each of them is read back;
  * `formPart_segment` -- one part of a body is one field, and no other;
  * `formGet_formBody`, **`form_round_trip`** -- the first field with the key, or none.
-/
import Mathlib.Data.List.TakeWhile
import NutBluetti.Web.Forms

namespace NutBluetti.Web

open NutBluetti.Config

/-! ## 1. Values -/

/-- `Encodes e v`: `e` is the value `v` as a form carries it. Every byte may be written as `%XX`, a
    blank as `+`, and any byte that means nothing to a form as it is. -/
inductive Encodes : List UInt8 → List UInt8 → Prop where
  | nil : Encodes [] []
  | raw {e v : List UInt8} (c : UInt8) (hnul : c ≠ 0) (hamp : c ≠ chr '&') (hplus : c ≠ chr '+')
      (hpercent : c ≠ chr '%') (rest : Encodes e v) : Encodes (c :: e) (c :: v)
  | space {e v : List UInt8} (rest : Encodes e v) : Encodes (chr '+' :: e) (chr ' ' :: v)
  | percent {e v : List UInt8} {c : UInt8} (h l hi lo : UInt8) (hhi : hexval h = some hi)
      (hlo : hexval l = some lo) (hc : hi * 16 + lo = c) (rest : Encodes e v) :
      Encodes (chr '%' :: h :: l :: e) (c :: v)

/-- A digit is none of the bytes a body is split at. -/
theorem hexval_apart {c d : UInt8} (h : hexval c = some d) : c ≠ 0 ∧ c ≠ chr '&' := by
  have hnul : hexval 0 = none := by decide
  have hamp : hexval (chr '&') = none := by decide
  constructor
  · intro heq
    rw [heq, hnul] at h
    cases h
  · intro heq
    rw [heq, hamp] at h
    cases h

/-- What is encoded has no end and no separator in it. -/
theorem Encodes.apart {e v : List UInt8} (he : Encodes e v) : ∀ c ∈ e, c ≠ 0 ∧ c ≠ chr '&' := by
  induction he with
  | nil => exact fun c hc => nomatch hc
  | raw c hnul hamp _ _ _ ih => exact List.forall_mem_cons.mpr ⟨⟨hnul, hamp⟩, ih⟩
  | space _ ih => exact List.forall_mem_cons.mpr ⟨by decide, ih⟩
  | percent h l hi lo hhi hlo _ _ ih =>
      exact List.forall_mem_cons.mpr ⟨by decide, List.forall_mem_cons.mpr
        ⟨hexval_apart hhi, List.forall_mem_cons.mpr ⟨hexval_apart hlo, ih⟩⟩⟩

/-- **What was encoded is decoded**, where there is room. -/
theorem Encodes.urlDecode {e v : List UInt8} (he : Encodes e v) {room : Nat}
    (hroom : v.length ≤ room) :
    urlDecode room e = v := by
  induction he generalizing room with
  | nil =>
      cases room <;> rfl
  | raw c _ _ hplus hpercent _ ih =>
      obtain ⟨room, rfl⟩ := Nat.exists_eq_add_one_of_ne_zero (Nat.ne_zero_of_lt hroom)
      simp only [Web.urlDecode, if_neg hplus, if_neg hpercent, ih (Nat.le_of_succ_le_succ hroom)]
  | space _ ih =>
      obtain ⟨room, rfl⟩ := Nat.exists_eq_add_one_of_ne_zero (Nat.ne_zero_of_lt hroom)
      simp only [Web.urlDecode, if_true, ih (Nat.le_of_succ_le_succ hroom)]
  | percent h l hi lo hhi hlo hc _ ih =>
      obtain ⟨room, rfl⟩ := Nat.exists_eq_add_one_of_ne_zero (Nat.ne_zero_of_lt hroom)
      have hplus : ¬ chr '%' = chr '+' := by decide
      simp only [Web.urlDecode, if_neg hplus, if_true, hhi, hlo, hc,
        ih (Nat.le_of_succ_le_succ hroom)]

/-- A value without a byte that means something to a form may be written as it is. -/
theorem Encodes.refl {v : List UInt8}
    (hv : ∀ c ∈ v, c ≠ 0 ∧ c ≠ chr '&' ∧ c ≠ chr '+' ∧ c ≠ chr '%') : Encodes v v := by
  induction v with
  | nil => exact .nil
  | cons c v ih =>
      obtain ⟨⟨hnul, hamp, hplus, hpercent⟩, hrest⟩ := List.forall_mem_cons.mp hv
      exact .raw c hnul hamp hplus hpercent (ih hrest)

/-! ## 2. Keys -/

/-- Letters, digits and `_`. -/
def isKeyChar (c : Char) : Bool := c.isAlphanum || c == '_'

def IsKey (key : String) : Prop := ∀ c ∈ key.toList, isKeyChar c = true

instance (key : String) : Decidable (IsKey key) := List.decidableBAll _ key.toList

theorem isKeyChar_bounds {c : Char} (h : isKeyChar c = true) :
    48 ≤ c.toNat ∧ c.toNat < 128 ∧ c.toNat ≠ 61 := by
  unfold isKeyChar Char.isAlphanum Char.isAlpha Char.isUpper Char.isLower Char.isDigit at h
  simp only [Bool.or_eq_true, Bool.and_eq_true, decide_eq_true_eq, beq_iff_eq, ge_iff_le,
    UInt32.le_iff_toNat_le] at h
  have hnat : c.toNat = c.val.toNat := rfl
  rcases h with ((h | h) | h) | rfl
  · simp at h
    omega
  · simp at h
    omega
  · simp at h
    omega
  · decide

theorem chr_apart {c : Char} (h : isKeyChar c = true) :
    chr c ≠ 0 ∧ chr c ≠ chr '&' ∧ chr c ≠ chr '=' := by
  obtain ⟨hlo, hhi, hne⟩ := isKeyChar_bounds h
  have hval : (chr c).toNat = c.toNat := UInt8.toNat_ofNat_of_lt' (by
    show c.toNat < 256
    omega)
  refine ⟨fun heq => ?_, fun heq => ?_, fun heq => ?_⟩
  all_goals
    rw [heq] at hval
    revert hval
  · show 0 = _ → False
    omega
  · show 38 = _ → False
    omega
  · show 61 = _ → False
    omega

theorem chr_injOn {c d : Char} (hc : isKeyChar c = true) (hd : isKeyChar d = true)
    (h : chr c = chr d) :
    c = d := by
  obtain ⟨-, hchi, -⟩ := isKeyChar_bounds hc
  obtain ⟨-, hdhi, -⟩ := isKeyChar_bounds hd
  have hsame : (chr c).toNat = (chr d).toNat := by rw [h]
  have hval : ∀ c : Char, c.toNat < 128 → (chr c).toNat = c.toNat := fun c hlt =>
    UInt8.toNat_ofNat_of_lt' (by
      show c.toNat < 256
      omega)
  rw [hval c hchi, hval d hdhi] at hsame
  exact Char.toNat_inj.mp hsame

theorem IsKey.apart {key : String} (hk : IsKey key) :
    ∀ c ∈ ascii key, c ≠ 0 ∧ c ≠ chr '&' ∧ c ≠ chr '=' := by
  intro c hc
  obtain ⟨ch, hch, rfl⟩ := List.mem_map.mp hc
  exact chr_apart (hk ch hch)

/-- Two keys of the same bytes are the same key. -/
theorem ascii_injOn {key key' : String} (hk : IsKey key) (hk' : IsKey key')
    (h : ascii key = ascii key') :
    key = key' := by
  refine String.toList_injective ?_
  unfold ascii at h
  unfold IsKey at hk hk'
  generalize key.toList = l at *
  generalize key'.toList = l' at *
  induction l generalizing l' with
  | nil => exact (List.map_eq_nil_iff.mp h.symm).symm
  | cons c l ih =>
      cases l' with
      | nil => cases h
      | cons d l' =>
          obtain ⟨hc, hl⟩ := List.forall_mem_cons.mp hk
          obtain ⟨hd, hl'⟩ := List.forall_mem_cons.mp hk'
          obtain ⟨hhead, htail⟩ := List.cons.inj h
          rw [chr_injOn hc hd hhead, ih hl l' hl' htail]

/-! ## 3. Bodies -/

/-- A field: its key, its value, and how the value is encoded. -/
structure FormField where
  key : String
  value : List UInt8
  encoded : List UInt8
  isKey : IsKey key
  encodes : Encodes encoded value
  noNul : (0 : UInt8) ∉ value
  short : encoded.length < formTmpSz

/-- `key=value`. -/
def FormField.segment (p : FormField) : List UInt8 := ascii p.key ++ chr '=' :: p.encoded

def formBody (ps : List FormField) : List UInt8 := [chr '&'].intercalate (ps.map FormField.segment)

theorem FormField.segment_apart (p : FormField) : ∀ c ∈ p.segment, c ≠ 0 ∧ c ≠ chr '&' := by
  intro c hc
  rcases List.mem_append.mp hc with hkey | hrest
  · exact ⟨(p.isKey.apart c hkey).1, (p.isKey.apart c hkey).2.1⟩
  · rcases List.mem_cons.mp hrest with rfl | hval
    · decide
    · exact p.encodes.apart c hval

/-- What holds of every byte of the parts and of the separator holds of every byte of the whole. -/
theorem forall_mem_intercalate {α : Type*} {P : α → Prop} {sep : List α} {ls : List (List α)}
    (hsep : ∀ c ∈ sep, P c) (hls : ∀ l ∈ ls, ∀ c ∈ l, P c) : ∀ c ∈ sep.intercalate ls, P c := by
  induction ls with
  | nil => exact fun c hc => nomatch hc
  | cons l ls ih =>
      obtain ⟨hl, hmore⟩ := List.forall_mem_cons.mp hls
      cases ls with
      | nil => rw [List.intercalate_singleton]; exact hl
      | cons m ms =>
          rw [List.intercalate_cons_cons]
          intro c hc
          rcases List.mem_append.mp hc with hin | hin
          · rcases List.mem_append.mp hin with hin | hin
            · exact hl c hin
            · exact hsep c hin
          · exact ih hmore c hin

theorem cstr_of_noNul {s : List UInt8} (h : (0 : UInt8) ∉ s) : cstr s = s :=
  List.takeWhile_eq_self_iff.mpr fun _ hc => decide_eq_true fun heq => h (heq ▸ hc)

/-- The text in a buffer that holds a terminated text. -/
theorem cstr_append_nul {v rest : List UInt8} (h : (0 : UInt8) ∉ v) :
    cstr (v ++ 0 :: rest) = v := by
  have hkeep : ∀ c ∈ v, decide (c ≠ 0) = true := fun c hc => decide_eq_true fun heq => h (heq ▸ hc)
  unfold cstr
  rw [List.takeWhile_append_of_pos hkeep]
  simp

/-- The body is a string. -/
theorem cstr_formBody (ps : List FormField) : cstr (formBody ps) = formBody ps := by
  have hbytes : ∀ c ∈ formBody ps, c ≠ 0 := by
    refine forall_mem_intercalate (List.forall_mem_singleton.mpr (by decide)) fun seg hseg c hc =>
      ?_
    obtain ⟨p, -, rfl⟩ := List.mem_map.mp hseg
    exact (p.segment_apart c hc).1
  exact cstr_of_noNul fun hin => hbytes 0 hin rfl

/-- The parts of the body are its fields. -/
theorem splitOn_formBody {ps : List FormField} (hne : ps ≠ []) :
    (formBody ps).splitOn (chr '&') = ps.map FormField.segment := by
  refine List.splitOn_intercalate (chr '&') (fun seg hseg hin => ?_) (by simpa using hne)
  obtain ⟨p, -, rfl⟩ := List.mem_map.mp hseg
  exact (p.segment_apart _ hin).2 rfl

/-- **A part of the body is its own field**, whatever other key begins or ends like it. -/
theorem formPart_segment (p : FormField) {key : String} (hk : IsKey key) :
    formPart (ascii key) p.segment = if p.key = key then some p.encoded else none := by
  have hbefore : p.segment.takeWhile (· ≠ chr '=') = ascii p.key := by
    unfold FormField.segment
    rw [List.takeWhile_append_of_pos fun c hc => decide_eq_true (p.isKey.apart c hc).2.2]
    simp
  have hmem : chr '=' ∈ p.segment := List.mem_append_right _ List.mem_cons_self
  unfold formPart
  rw [hbefore]
  by_cases hkey : p.key = key
  · subst hkey
    rw [if_pos ⟨hmem, rfl⟩, if_pos rfl]
    unfold FormField.segment
    rw [← List.drop_drop, List.drop_left]
    rfl
  · rw [if_neg hkey, if_neg fun h => hkey (ascii_injOn p.isKey hk h.2)]

/-- What is sent for a key is what the first field of that key has. -/
theorem findSome_segments (ps : List FormField) {key : String} (hk : IsKey key) :
    (ps.map FormField.segment).findSome? (formPart (ascii key)) =
      (ps.find? fun p => p.key = key).map FormField.encoded := by
  induction ps with
  | nil => rfl
  | cons p ps ih =>
      rw [List.map_cons, List.findSome?_cons, formPart_segment p hk]
      by_cases hkey : p.key = key
      · rw [if_pos hkey, List.find?_cons_of_pos (by simpa using hkey)]
        rfl
      · rw [if_neg hkey, List.find?_cons_of_neg (by simpa using hkey)]
        exact ih

/-- `form_get` finds the value of the first field with the key, or there is none. -/
theorem formGet_formBody (ps : List FormField) {key : String} (hk : IsKey key) {outsz : Nat}
    (hroom : ∀ p, (ps.find? fun p => p.key = key) = some p → p.value.length < outsz) :
    formGet (formBody ps) key outsz = (ps.find? fun p => p.key = key).map FormField.value := by
  have hparts : ((formBody ps).splitOn (chr '&')).findSome? (formPart (ascii key)) =
      (ps.find? fun p => p.key = key).map FormField.encoded := by
    by_cases hne : ps = []
    · subst hne
      rfl
    · rw [splitOn_formBody hne, findSome_segments ps hk]
  unfold formGet
  rw [cstr_formBody, hparts]
  cases hfound : ps.find? fun p => p.key = key with
  | none => rfl
  | some p =>
      have hlen := hroom p hfound
      have hshort : p.encoded.length ≤ formTmpSz - 1 := Nat.le_sub_one_of_lt p.short
      simp only [Option.map_some]
      rw [List.take_of_length_le hshort, p.encodes.urlDecode (Nat.le_sub_one_of_lt hlen)]

/-- And the string it leaves is that value. -/
theorem formText_formBody (ps : List FormField) {key : String} (hk : IsKey key) {outsz : Nat}
    (hroom : ∀ p, (ps.find? fun p => p.key = key) = some p → p.value.length < outsz) :
    formText (formBody ps) key outsz =
    ((ps.find? fun p => p.key = key).map FormField.value).getD [] := by
  unfold formText
  rw [formGet_formBody ps hk hroom]
  cases ps.find? fun p => p.key = key with
  | none => rfl
  | some p => exact cstr_of_noNul p.noNul

/-- **The form is read back**: `form_get` returns true with the value of the first field that has
    the key, or false with an empty string where no field has it. -/
theorem form_round_trip (ps : List FormField) {key : String} (hk : IsKey key) {outsz : Nat}
    (hroom : ∀ p, (ps.find? fun p => p.key = key) = some p → p.value.length < outsz) :
    formGet (formBody ps) key outsz = (ps.find? fun p => p.key = key).map FormField.value ∧
      formText (formBody ps) key outsz =
      ((ps.find? fun p => p.key = key).map FormField.value).getD [] ∧
      ((∀ p ∈ ps, p.key ≠ key) →
        formGet (formBody ps) key outsz = none ∧ formText (formBody ps) key outsz = []) := by
  have hget := formGet_formBody ps hk hroom
  have htext := formText_formBody ps hk hroom
  refine ⟨hget, htext, fun hno => ?_⟩
  have hnone : (ps.find? fun p => p.key = key) = none :=
    List.find?_eq_none.mpr fun p hp => by simpa using hno p hp
  rw [hget, htext, hnone]
  exact ⟨rfl, rfl⟩

/-- `tg_token_old=y&tg_token=x%26%3d+&tg_token=z`. -/
def tokenForm : List FormField :=
  [{ key := "tg_token_old", value := [chr 'y'], encoded := [chr 'y'], isKey := by decide
     encodes := .raw _ (by decide) (by decide) (by decide) (by decide) .nil
     noNul := by decide, short := by decide },
   { key := "tg_token", value := [chr 'x', chr '&', chr '=', chr ' ']
     encoded := [chr 'x', chr '%', chr '2', chr '6', chr '%', chr '3', chr 'd', chr '+']
     isKey := by decide
     encodes := .raw _ (by decide) (by decide) (by decide) (by decide)
      (.percent _ _ 2 6 (by decide) (by decide) (by decide)
        (.percent _ _ 3 13 (by decide) (by decide) (by decide) (.space .nil)))
     noNul := by decide, short := by decide },
   { key := "tg_token", value := [chr 'z'], encoded := [chr 'z'], isKey := by decide
     encodes := .raw _ (by decide) (by decide) (by decide) (by decide) .nil
     noNul := by decide, short := by decide }]

theorem form_round_trip_tokenForm :
    formGet (formBody tokenForm) "tg_token" 128 =
        (tokenForm.find? fun p => p.key = "tg_token").map FormField.value ∧
      formText (formBody tokenForm) "tg_token" 128 =
        ((tokenForm.find? fun p => p.key = "tg_token").map FormField.value).getD [] ∧
      ((∀ p ∈ tokenForm, p.key ≠ "tg_token") →
        formGet (formBody tokenForm) "tg_token" 128 = none ∧
          formText (formBody tokenForm) "tg_token" 128 = []) := by
  refine form_round_trip tokenForm (by decide) fun p hp => ?_
  have hshort : ∀ p ∈ tokenForm, p.value.length < 128 := by decide
  exact hshort p (List.mem_of_find?_eq_some hp)

end NutBluetti.Web
