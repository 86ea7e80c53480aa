/-
  File:      NutBluetti/Lib/JsonMembers.lean
  Subject:   JSON DOCUMENTS WITHOUT BLANKS, and the strings their members of one name hold.

  * `Compact` -- a text that spells a value without blanks, with every name as it is, and with the
    strings under some names as they are; **`Compact.spells`** -- it is a spelling by the grammar;
  * `Value.named` -- the strings under a name at any depth, in the order of the document;
  * `IsNumber.characters` -- the characters a number is written in.
-/
import NutBluetti.Lib.JsonText

namespace JsonText

variable {α : Type*} (A : Alphabet α)

/-! ## 1. Without blanks -/

/-- If the value is a string, it stands in the text as it is. -/
def AsItIs (v : Value α) (t : List α) : Prop := ∀ s, v = .str s → A.PlainText s ∧ t = A.quote s

/-- **The grammar without blanks**: names are written as they are, and so are the strings under a
    name in `Raw`; any other string is written in any of its spellings. -/
inductive Compact (Raw : List α → Prop) : Part α → List α → Prop
  | null : Compact Raw (.value .null) (A.word "null")
  | yes : Compact Raw (.value (.bool true)) (A.word "true")
  | no : Compact Raw (.value (.bool false)) (A.word "false")
  | num {ds : List α} : A.IsNumber ds → Compact Raw (.value (.num ds)) ds
  | str {s t : List α} : A.SpellsText s t → Compact Raw (.value (.str s)) (A.quote t)
  | arr {vs : List (Value α)} {t : List α} : Compact Raw (.items vs) t →
      Compact Raw (.value (.arr vs)) (A.lit '[' :: (t ++ [A.lit ']']))
  | obj {ms : List (List α × Value α)} {t : List α} : Compact Raw (.members ms) t →
      Compact Raw (.value (.obj ms)) (A.lit '\x7b' :: (t ++ [A.lit '\x7d']))
  | noItems : Compact Raw (.items []) []
  | lastItem {v : Value α} {t : List α} : Compact Raw (.value v) t → Compact Raw (.items [v]) t
  | item {u v : Value α} {vs : List (Value α)} {t t' : List α} : Compact Raw (.value u) t →
      Compact Raw (.items (v :: vs)) t' → Compact Raw (.items (u :: v :: vs)) (t ++ A.lit ',' :: t')
  | noMembers : Compact Raw (.members []) []
  | lastMember {k : List α} {v : Value α} {t : List α} : A.PlainText k → Compact Raw (.value v) t →
      (Raw k → AsItIs A v t) → Compact Raw (.members [(k, v)]) (A.quote k ++ A.lit ':' :: t)
  | member {k : List α} {v : Value α} {m : List α × Value α} {ms : List (List α × Value α)}
      {t t' : List α} : A.PlainText k → Compact Raw (.value v) t → (Raw k → AsItIs A v t) →
      Compact Raw (.members (m :: ms)) t' →
      Compact Raw (.members ((k, v) :: m :: ms)) (A.quote k ++ A.lit ':' :: (t ++ A.lit ',' :: t'))

variable {A} {Raw : List α → Prop}

/-- **It is a spelling.** -/
theorem Compact.spells {p : Part α} {t : List α} (h : Compact A Raw p t) : Spells A p t := by
  have hname : ∀ {k : List α}, A.PlainText k → Spells A (.value (.str k)) (A.quote k) := fun hk =>
    .str (Alphabet.PlainText.spells hk)
  have hblank : A.IsBlank [] := fun c hc => absurd hc List.not_mem_nil
  induction h with
  | null => exact .null
  | yes => exact .yes
  | no => exact .no
  | num hds => exact .num hds
  | str ht => exact .str ht
  | arr _ ih => exact .arr ih
  | obj _ ih => exact .obj ih
  | noItems => exact .noItems hblank
  | lastItem _ ih => exact .lastItem ih
  | item _ _ ih ih' => exact .item ih ih'
  | noMembers => exact .noMembers hblank
  | lastMember hk _ _ ih => exact .lastMember (hname hk) ih
  | member hk _ _ _ ih ih' => exact .member (hname hk) ih ih'

/-! ## 2. What stands under a name -/

section Named

variable [DecidableEq α] (key : List α)

mutual

/-- **The strings under the name `key`**, at any depth and in order. -/
def Value.named : Value α → List (List α)
  | .arr vs => namedItems vs
  | .obj ms => namedMembers ms
  | _ => []

def namedItems : List (Value α) → List (List α)
  | [] => []
  | v :: vs => v.named ++ namedItems vs

def namedMembers : List (List α × Value α) → List (List α)
  | [] => []
  | m :: ms => namedMember m ++ namedMembers ms

def namedMember : List α × Value α → List (List α)
  | (k, .str s) => if k = key then [s] else []
  | (_, v) => v.named

end

def Part.named : Part α → List (List α)
  | .value v => v.named key
  | .items vs => namedItems key vs
  | .members ms => namedMembers key ms

variable {key}

/-- What stands under a name whose strings are written as they are needs no escape. -/
theorem Compact.named_plain {p : Part α} {t : List α} (h : Compact A Raw p t) (hkey : Raw key) :
    ∀ s ∈ p.named key, A.PlainText s := by
  have hmember : ∀ {k : List α} {v : Value α} {t : List α}, (Raw k → AsItIs A v t) →
      (∀ s ∈ v.named key, A.PlainText s) → ∀ s ∈ namedMember key (k, v), A.PlainText s := by
    intro k v t hraw hv s hs
    cases v with
    | str s' =>
        by_cases hk : k = key
        · have hin : s ∈ [s'] := by
            have hnamed : namedMember key (k, .str s') = [s'] := if_pos hk
            exact hnamed ▸ hs
          rw [List.mem_singleton.mp hin]
          exact (hraw (hk ▸ hkey) s' rfl).1
        · have hin : s ∈ ([] : List (List α)) := by
            have hnamed : namedMember key (k, .str s') = [] := if_neg hk
            exact hnamed ▸ hs
          exact absurd hin List.not_mem_nil
    | _ => exact hv s hs
  have hnone : ∀ s ∈ ([] : List (List α)), A.PlainText s := fun s hs => absurd hs List.not_mem_nil
  induction h with
  | null => exact hnone
  | yes => exact hnone
  | no => exact hnone
  | num _ => exact hnone
  | str _ => exact hnone
  | arr _ ih => exact ih
  | obj _ ih => exact ih
  | noItems => exact hnone
  | lastItem _ ih => exact List.forall_mem_append.mpr ⟨ih, hnone⟩
  | item _ _ ih ih' => exact List.forall_mem_append.mpr ⟨ih, ih'⟩
  | noMembers => exact hnone
  | lastMember _ _ hraw ih => exact List.forall_mem_append.mpr ⟨hmember hraw ih, hnone⟩
  | member _ _ hraw _ ih ih' => exact List.forall_mem_append.mpr ⟨hmember hraw ih, ih'⟩

end Named

/-! ## 3. Numbers -/

/-- A number is written in a few characters, and is not empty. -/
theorem Alphabet.IsNumber.characters {ds : List α} (h : A.IsNumber ds) :
    ds ≠ [] ∧ ∀ c ∈ ds, ∃ d ∈ "0123456789-+.eE".toList, c = A.lit d := by
  obtain ⟨⟨sign, whole, fraction, exponent, rfl, hsign, hwhole, hfraction, hexponent⟩⟩ := h
  have hdigits : ∀ {fs : List α}, A.IsDigits fs →
      ∀ c ∈ fs, ∃ d ∈ "0123456789-+.eE".toList, c = A.lit d := by
    intro fs hfs c hc
    obtain ⟨d, hd, hlit⟩ := hfs.2 c hc
    have hsub : "0123456789".toList ⊆ "0123456789-+.eE".toList := by decide
    exact ⟨d, hsub hd, hlit⟩
  have hpart : whole ≠ [] ∧ ∀ c ∈ whole, ∃ d ∈ "0123456789-+.eE".toList, c = A.lit d := by
    rcases hwhole with rfl | ⟨d, hd, more, rfl, hmore⟩
    · refine ⟨List.cons_ne_nil _ _, fun c hc => ⟨'0', by decide, ?_⟩⟩
      exact List.mem_singleton.mp hc
    · refine ⟨List.cons_ne_nil _ _, List.forall_mem_cons.mpr ⟨⟨d, ?_, rfl⟩, ?_⟩⟩
      · have hsub : "123456789".toList ⊆ "0123456789-+.eE".toList := by decide
        exact hsub hd
      · rcases hmore with rfl | hmore
        · exact fun c hc => absurd hc List.not_mem_nil
        · exact hdigits hmore
  refine ⟨fun hnil => ?_, fun c hc => ?_⟩
  · simp only [List.append_eq_nil_iff] at hnil
    exact hpart.1 hnil.1.1.2
  · rcases List.mem_append.mp hc with hc | hc
    · rcases List.mem_append.mp hc with hc | hc
      · rcases List.mem_append.mp hc with hc | hc
        · rcases hsign with rfl | rfl
          · exact absurd hc List.not_mem_nil
          · exact ⟨'-', by decide, List.mem_singleton.mp hc⟩
        · exact hpart.2 c hc
      · rcases hfraction with rfl | ⟨fs, hfs, rfl⟩
        · exact absurd hc List.not_mem_nil
        · rcases List.mem_cons.mp hc with rfl | hc
          · exact ⟨'.', by decide, rfl⟩
          · exact hdigits hfs c hc
    · rcases hexponent with rfl | ⟨e, he, s, hs, es, hes, rfl⟩
      · exact absurd hc List.not_mem_nil
      · have hletter : ['e', 'E'] ⊆ "0123456789-+.eE".toList := by decide
        have hsign' : ∀ s ∈ ["", "+", "-"], s.toList ⊆ "0123456789-+.eE".toList := by decide
        rcases List.mem_cons.mp hc with rfl | hc
        · exact ⟨e, hletter he, rfl⟩
        · rcases List.mem_append.mp hc with hc | hc
          · obtain ⟨d, hd, rfl⟩ := List.mem_map.mp hc
            exact ⟨d, hsign' s hs hd, rfl⟩
          · exact hdigits hes c hc

end JsonText
