/-
  File:      NutBluetti/Lib/KeyedList.lean
  Subject:   LISTS SEARCHED BY KEY, first match wins -- the array-with-a-linear-scan that C code
             uses for a small table. Keys need not be distinct.

  * `lookup`, `modify` -- read and overwrite the first entry with a key;
  * `lookup_modify_self`, `lookup_modify_other`, `map_key_modify` -- the two operations together;
  * **`lookup_foldl_modify`** -- a loop of `modify`s, seen from one key: only the rounds for that
    key touch its entry, in their order;
  * `filter_key_perm`, `lookup_perm` -- with distinct keys the order of the list is not seen;
  * `OnlyFirst` -- a mark that only first entries of their key carry, kept by `modify`.
-/
import Mathlib.Data.List.Nodup

namespace KeyedList

variable {α β κ : Type*} [DecidableEq κ] (key : α → κ)

/-- The first entry with the key. -/
def lookup (k : κ) (l : List α) : Option α :=
  l.find? fun a => key a = k

/-- Overwrite the first entry with the key; the list itself where there is none. -/
def modify (k : κ) (f : α → α) : List α → List α
  | [] => []
  | a :: l => if key a = k then f a :: l else a :: modify k f l

variable {key}

@[simp] theorem lookup_nil (k : κ) : lookup key k [] = none := rfl

theorem lookup_cons (k : κ) (a : α) (l : List α) :
    lookup key k (a :: l) = if key a = k then some a else lookup key k l := by
  simp [lookup, List.find?_cons]
  split <;> simp_all

@[simp] theorem lookup_cons_self (a : α) (l : List α) : lookup key (key a) (a :: l) = some a := by
  simp [lookup_cons]

theorem lookup_cons_of_ne {k : κ} {a : α} (h : key a ≠ k) (l : List α) :
    lookup key k (a :: l) = lookup key k l := by
  simp [lookup_cons, h]

theorem key_of_lookup {k : κ} {l : List α} {a : α} (h : lookup key k l = some a) : key a = k := by
  simpa using List.find?_some h

theorem mem_of_lookup {k : κ} {l : List α} {a : α} (h : lookup key k l = some a) : a ∈ l :=
  List.mem_of_find?_eq_some h

/-- A key is found exactly when some entry carries it. -/
theorem exists_lookup_iff {k : κ} {l : List α} :
    (∃ a, lookup key k l = some a) ↔ k ∈ l.map key := by
  constructor
  · rintro ⟨a, ha⟩
    exact List.mem_map.mpr ⟨a, mem_of_lookup ha, key_of_lookup ha⟩
  · intro hk
    obtain ⟨a, ha, rfl⟩ := List.mem_map.mp hk
    cases h : lookup key (key a) l with
    | some b => exact ⟨b, rfl⟩
    | none =>
        have := List.find?_eq_none.mp h a ha
        simp at this

/-- Where no key comes twice, every entry is the one its key finds. -/
theorem lookup_of_nodup {l : List α} (h : (l.map key).Nodup) {a : α} (ha : a ∈ l) :
    lookup key (key a) l = some a := by
  induction l with
  | nil => simp at ha
  | cons b l ih =>
      obtain ⟨hb, hl⟩ := List.nodup_cons.mp h
      rcases List.mem_cons.mp ha with rfl | ha
      · exact lookup_cons_self a l
      · have hne : key b ≠ key a := fun hk => hb (hk ▸ List.mem_map_of_mem ha)
        rw [lookup_cons_of_ne hne]
        exact ih hl ha

/-- With distinct keys the entries of one key are the same in any order of the list. -/
theorem filter_key_perm {l l' : List α} (h : l.Perm l') (hn : (l.map key).Nodup) (k : κ) :
    (l.filter fun a => key a = k) = l'.filter fun a => key a = k := by
  induction h with
  | nil => rfl
  | cons a h ih => rw [List.filter_cons, List.filter_cons, ih (List.nodup_cons.mp hn).2]
  | swap a b l =>
      have hne : key b ≠ key a := fun he => (List.nodup_cons.mp hn).1 (by simp [he])
      by_cases hb : key b = k
      · have ha : key a ≠ k := fun ha => hne (hb.trans ha.symm)
        simp [ha, hb]
      · simp [List.filter_cons, hb]
  | trans h₁ h₂ ih₁ ih₂ => exact (ih₁ hn).trans (ih₂ ((h₁.map key).nodup_iff.mp hn))

theorem lookup_perm {l l' : List α} (h : l.Perm l') (hn : (l.map key).Nodup) (k : κ) :
    lookup key k l = lookup key k l' := by
  rw [lookup, lookup, ← List.head?_filter, ← List.head?_filter, filter_key_perm h hn]

/-- A map that keeps the keys commutes with the lookup. -/
theorem lookup_map {γ : Type*} {key' : γ → κ} {f : α → γ} (hf : ∀ a, key' (f a) = key a) (k : κ)
    (l : List α) : lookup key' k (l.map f) = (lookup key k l).map f := by
  induction l with
  | nil => rfl
  | cons a l ih =>
      by_cases ha : key a = k
      · simp [lookup_cons, hf, ha]
      · simp [lookup_cons, hf, ha, ih]

section Modify

variable {f : α → α}

@[simp] theorem modify_nil (k : κ) : modify key k f [] = [] := rfl

theorem mem_modify {k : κ} {l : List α} {b : α} (h : b ∈ modify key k f l) :
    b ∈ l ∨ ∃ a, lookup key k l = some a ∧ b = f a := by
  induction l with
  | nil => simp at h
  | cons a l ih =>
      by_cases ha : key a = k
      · simp only [modify, ha, if_true, List.mem_cons] at h
        rcases h with rfl | h
        · exact .inr ⟨a, by simp [lookup_cons, ha], rfl⟩
        · exact .inl (List.mem_cons_of_mem _ h)
      · simp only [modify, ha, if_false, List.mem_cons] at h
        rcases h with rfl | h
        · exact .inl List.mem_cons_self
        · rcases ih h with h | h
          · exact .inl (List.mem_cons_of_mem _ h)
          · exact .inr (by simpa [lookup_cons, ha] using h)

/-- A change that keeps the keys keeps the list of keys. -/
theorem map_key_modify (hf : ∀ a, key (f a) = key a) (k : κ) (l : List α) :
    (modify key k f l).map key = l.map key := by
  induction l with
  | nil => rfl
  | cons a l ih =>
      by_cases ha : key a = k
      · simp [modify, ha, hf]
      · simp [modify, ha, ih]

theorem lookup_modify_self (hf : ∀ a, key (f a) = key a) (k : κ) (l : List α) :
    lookup key k (modify key k f l) = (lookup key k l).map f := by
  induction l with
  | nil => rfl
  | cons a l ih =>
      by_cases ha : key a = k
      · simp [modify, lookup_cons, ha, hf]
      · simp [modify, lookup_cons, ha, ih]

theorem lookup_modify_other (hf : ∀ a, key (f a) = key a) {k k' : κ} (hk : k' ≠ k) (l : List α) :
    lookup key k' (modify key k f l) = lookup key k' l := by
  induction l with
  | nil => rfl
  | cons a l ih =>
      by_cases ha : key a = k
      · have : key a ≠ k' := fun h => hk (h.symm.trans ha)
        simp [modify, lookup_cons, ha, hf, Ne.symm hk]
      · simp [modify, lookup_cons, ha, ih]

/-- **A loop of modifications, from one key**: only the rounds for that key reach its entry. -/
theorem lookup_foldl_modify {id : β → κ} {g : β → α → α} (hg : ∀ b a, key (g b a) = key a)
    (bs : List β) (l : List α) (k : κ) :
    lookup key k (bs.foldl (fun l b => modify key (id b) (g b) l) l) =
      (lookup key k l).map fun a => (bs.filter fun b => id b = k).foldl (fun a b => g b a) a := by
  induction bs generalizing l with
  | nil => simp
  | cons b bs ih =>
      simp only [List.foldl_cons, ih, List.filter_cons]
      by_cases hb : id b = k
      · subst hb
        simp [lookup_modify_self (hg b), Option.map_map, Function.comp_def]
      · simp [lookup_modify_other (hg b) (Ne.symm hb), hb]

theorem map_key_foldl_modify {id : β → κ} {g : β → α → α} (hg : ∀ b a, key (g b a) = key a)
    (bs : List β) (l : List α) :
    (bs.foldl (fun l b => modify key (id b) (g b) l) l).map key = l.map key := by
  induction bs generalizing l with
  | nil => rfl
  | cons b bs ih => rw [List.foldl_cons, ih, map_key_modify (hg b)]

end Modify

/-! ## A mark on first entries -/

variable (key) in
/-- Only the first entry of a key may carry the mark `p`. -/
def OnlyFirst (p : α → Prop) (l : List α) : Prop :=
  l.Pairwise fun a b => key a = key b → ¬ p b

omit [DecidableEq κ] in
theorem OnlyFirst.of_none {p : α → Prop} {l : List α} (h : ∀ a ∈ l, ¬ p a) :
    OnlyFirst key p l :=
  List.Pairwise.imp_of_mem (R := fun _ _ => True) (fun _ hb _ _ => h _ hb)
    (List.pairwise_of_forall fun _ _ => trivial)

theorem OnlyFirst.modify {p : α → Prop} {f : α → α} (hf : ∀ a, key (f a) = key a) {l : List α}
    (h : OnlyFirst key p l) (k : κ) : OnlyFirst key p (modify key k f l) := by
  induction l with
  | nil => exact h
  | cons a l ih =>
      obtain ⟨hhead, htail⟩ := List.pairwise_cons.mp h
      by_cases ha : key a = k
      · simp only [KeyedList.modify, ha, if_true]
        exact List.pairwise_cons.mpr ⟨fun b hb hk => hhead b hb ((hf a).symm.trans hk), htail⟩
      · simp only [KeyedList.modify, ha, if_false]
        refine List.pairwise_cons.mpr ⟨fun b hb hk => ?_, ih htail⟩
        rcases mem_modify hb with hb | ⟨a', ha', rfl⟩
        · exact hhead b hb hk
        · exact absurd (hk.trans ((hf a').trans (key_of_lookup ha'))) ha

theorem OnlyFirst.foldl_modify {p : α → Prop} (id : β → κ) {g : β → α → α}
    (hg : ∀ b a, key (g b a) = key a) (bs : List β) {l : List α} (h : OnlyFirst key p l) :
    OnlyFirst key p (bs.foldl (fun l b => KeyedList.modify key (id b) (g b) l) l) := by
  induction bs generalizing l with
  | nil => exact h
  | cons b bs ih => exact ih (h.modify (hg b) (id b))

/-- A marked entry is the one its key finds. -/
theorem OnlyFirst.lookup {p : α → Prop} {l : List α} (h : OnlyFirst key p l) {a : α} (ha : a ∈ l)
    (hp : p a) : lookup key (key a) l = some a := by
  induction l with
  | nil => simp at ha
  | cons b l ih =>
      obtain ⟨hhead, htail⟩ := List.pairwise_cons.mp h
      rcases List.mem_cons.mp ha with rfl | ha
      · exact lookup_cons_self a l
      · have hne : key b ≠ key a := fun hk => hhead a ha hk hp
        rw [lookup_cons_of_ne hne]
        exact ih htail ha

end KeyedList
