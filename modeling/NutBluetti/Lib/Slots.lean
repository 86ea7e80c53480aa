/-
  File:      NutBluetti/Lib/Slots.lean
  Subject:   A FIXED ARRAY OF SLOTS, searched from the front, AS A FINITE MAP.

  A slot is in use with a key and a value, or free. A new key takes the first free slot and is
  dropped where there is none; a key that is there has its value overwritten.

  * `Slots.Call` -- a `put` or a `clear`, with what it does to the slots (`run`) and to a map
    (`apply`);
  * `Room ks t` -- keys in use are distinct and among `ks`, and there are slots enough for all of
    `ks`;
  * **`lookup_runAll`** -- with room for every key that is put, a sequence of calls on the slots is
    the same sequence on the map: nothing is dropped, nothing comes back, and nothing else is
    touched;
  * `lookup_of_mem_entries`, `entries_run`, `nodup_keys_run` -- what any array keeps, full or not.
-/
import Mathlib.Data.List.Nodup
import Mathlib.Data.List.Perm.Subperm
import Mathlib.Logic.Function.Basic

namespace Slots

variable {κ ν : Type*}

/-! ## 1. Slots -/

/-- The slots of an array, `none` where one is free. -/
abbrev Table (κ ν : Type*) := List (Option (κ × ν))

/-- The keys in use. -/
def keys (t : Table κ ν) : List κ := t.filterMap (Option.map Prod.fst)

@[simp] theorem keys_nil : keys ([] : Table κ ν) = [] := rfl

@[simp] theorem keys_free (t : Table κ ν) : keys (none :: t) = keys t := rfl

@[simp] theorem keys_used (k : κ) (v : ν) (t : Table κ ν) :
    keys (some (k, v) :: t) = k :: keys t := rfl

/-- All slots free. -/
@[simp] theorem keys_replicate (n : Nat) : keys (List.replicate n none : Table κ ν) = [] := by
  induction n with
  | zero => rfl
  | succ n ih => rw [List.replicate_succ, keys_free, ih]

/-- The first free slot is taken; a full array stays as it is. -/
def fill (k : κ) (v : ν) : Table κ ν → Table κ ν
  | [] => []
  | none :: t => some (k, v) :: t
  | some e :: t => some e :: fill k v t

theorem length_keys_of_full {t : Table κ ν} (h : none ∉ t) : (keys t).length = t.length := by
  induction t with
  | nil => rfl
  | cons e t ih =>
      cases e with
      | none => exact absurd List.mem_cons_self h
      | some e =>
          rw [keys_used, List.length_cons, List.length_cons,
            ih fun hm => h (List.mem_cons_of_mem _ hm)]

theorem length_fill (k : κ) (v : ν) (t : Table κ ν) : (fill k v t).length = t.length := by
  induction t with
  | nil => rfl
  | cons e t ih =>
      cases e with
      | none => rfl
      | some e => simp [fill, ih]

/-- The keys afterwards are those from before with the new one among them. -/
theorem keys_fill (k : κ) (v : ν) {t : Table κ ν} (h : none ∈ t) :
    (keys (fill k v t)).Perm (k :: keys t) := by
  induction t with
  | nil => cases h
  | cons e t ih =>
      cases e with
      | none => exact .refl _
      | some e =>
          have hmem : none ∈ t := by simpa using h
          exact ((ih hmem).cons e.1).trans (.swap k e.1 _)

variable [DecidableEq κ]

def lookup (k : κ) : Table κ ν → Option ν
  | [] => none
  | none :: t => lookup k t
  | some (k', v) :: t => if k' = k then some v else lookup k t

/-- The value of the first slot with the key is replaced. -/
def overwrite (k : κ) (v : ν) : Table κ ν → Table κ ν
  | [] => []
  | none :: t => none :: overwrite k v t
  | some (k', w) :: t => if k' = k then some (k', v) :: t else some (k', w) :: overwrite k v t

def put (k : κ) (v : ν) (t : Table κ ν) : Table κ ν :=
  if (lookup k t).isSome then overwrite k v t else fill k v t

/-- The first slot with the key is freed. -/
def clear (k : κ) : Table κ ν → Table κ ν
  | [] => []
  | none :: t => none :: clear k t
  | some (k', w) :: t => if k' = k then none :: t else some (k', w) :: clear k t

theorem isSome_lookup_iff {k : κ} {t : Table κ ν} : (lookup k t).isSome ↔ k ∈ keys t := by
  induction t with
  | nil => simp [lookup]
  | cons e t ih =>
      cases e with
      | none => simpa [lookup] using ih
      | some e =>
          by_cases he : e.1 = k
          · simp [lookup, keys, he]
          · have hne : k ≠ e.1 := fun h => he h.symm
            simpa [lookup, keys, he, hne] using ih

theorem lookup_eq_none_iff {k : κ} {t : Table κ ν} : lookup k t = none ↔ k ∉ keys t := by
  rw [← isSome_lookup_iff, Option.not_isSome_iff_eq_none]

/-! ## 2. One call -/

section Overwrite

variable (k : κ) (v : ν) (t : Table κ ν)

theorem keys_overwrite : keys (overwrite k v t) = keys t := by
  induction t with
  | nil => rfl
  | cons e t ih =>
      cases e with
      | none => exact ih
      | some e =>
          unfold overwrite
          split
          · rfl
          · rw [keys_used, keys_used, ih]

theorem length_overwrite : (overwrite k v t).length = t.length := by
  induction t with
  | nil => rfl
  | cons e t ih =>
      cases e with
      | none => simp [overwrite, ih]
      | some e =>
          unfold overwrite
          split
          · rfl
          · simp [ih]

theorem lookup_overwrite (k' : κ) (h : k ∈ keys t) :
    lookup k' (overwrite k v t) = Function.update (lookup · t) k (some v) k' := by
  induction t with
  | nil => cases h
  | cons e t ih =>
      cases e with
      | none =>
          simp only [overwrite, lookup]
          exact ih h
      | some e =>
          obtain ⟨j, w⟩ := e
          by_cases hj : j = k
          · subst hj
            by_cases hk : k' = j
            · simp [overwrite, lookup, hk]
            · have hne : j ≠ k' := fun h => hk h.symm
              simp [overwrite, lookup, hk, hne]
          · have hmem : k ∈ keys t := by
              rcases List.mem_cons.mp h with rfl | h
              · exact absurd rfl hj
              · exact h
            have hrec := ih hmem
            by_cases hk : k' = k
            · subst hk
              simp [overwrite, lookup, hj, hrec]
            · simp [overwrite, lookup, hj, hrec, hk]

end Overwrite

theorem lookup_fill (k : κ) (v : ν) (t : Table κ ν) (k' : κ) (hfree : none ∈ t)
    (hnew : k ∉ keys t) :
    lookup k' (fill k v t) = Function.update (lookup · t) k (some v) k' := by
  induction t with
  | nil => cases hfree
  | cons e t ih =>
      cases e with
      | none =>
          have hnone : lookup k t = none := lookup_eq_none_iff.mpr hnew
          by_cases hk : k' = k
          · simp [fill, lookup, hk]
          · have hne : k ≠ k' := fun h => hk h.symm
            simp [fill, lookup, hk, hne]
      | some e =>
          obtain ⟨j, w⟩ := e
          have hj : j ≠ k := fun h => hnew (by simp [h])
          have hrest : k ∉ keys t := fun h => hnew (List.mem_cons_of_mem j h)
          have hrec := ih (by simpa using hfree) hrest
          by_cases hk : k' = k
          · subst hk
            simp [fill, lookup, hj, hrec]
          · simp [fill, lookup, hrec, hk]


section Clear

variable (k : κ) (t : Table κ ν)

theorem length_clear : (clear k t).length = t.length := by
  induction t with
  | nil => rfl
  | cons e t ih =>
      cases e with
      | none => simp [clear, ih]
      | some e =>
          unfold clear
          split
          · rfl
          · simp [ih]

theorem keys_clear : keys (clear k t) = (keys t).erase k := by
  induction t with
  | nil => rfl
  | cons e t ih =>
      cases e with
      | none => exact ih
      | some e =>
          obtain ⟨j, w⟩ := e
          by_cases hj : j = k
          · simp [clear, hj]
          · simp [clear, hj, ih]

theorem lookup_clear (k' : κ) (hnd : (keys t).Nodup) :
    lookup k' (clear k t) = Function.update (lookup · t) k none k' := by
  induction t with
  | nil => simp [clear, lookup, Function.update]
  | cons e t ih =>
      cases e with
      | none =>
          simp only [clear, lookup]
          exact ih hnd
      | some e =>
          obtain ⟨j, w⟩ := e
          have hrest := List.nodup_cons.mp hnd
          by_cases hj : j = k
          · subst hj
            have hnone : lookup j t = none := lookup_eq_none_iff.mpr hrest.1
            by_cases hk : k' = j
            · simp [clear, lookup, hk, hnone]
            · have hne : j ≠ k' := fun h => hk h.symm
              simp [clear, lookup, hk, hne]
          · have hrec := ih hrest.2
            by_cases hk : k' = k
            · subst hk
              simp [clear, lookup, hj, hrec]
            · simp [clear, lookup, hj, hrec, hk]

end Clear

/-! ## 3. Sequences of calls -/

/-- A write to the array. -/
inductive Call (κ ν : Type*) where
  | put (k : κ) (v : ν)
  | clear (k : κ)

namespace Call

def key : Call κ ν → κ
  | put k _ => k
  | clear k => k

def run : Call κ ν → Table κ ν → Table κ ν
  | put k v, t => Slots.put k v t
  | clear k, t => Slots.clear k t

def apply : Call κ ν → (κ → Option ν) → κ → Option ν
  | put k v, m => Function.update m k (some v)
  | clear k, m => Function.update m k none

theorem apply_other {c : Call κ ν} {k : κ} (h : c.key ≠ k) (m : κ → Option ν) :
    c.apply m k = m k := by
  cases c <;> exact Function.update_of_ne (Ne.symm h) _ _

end Call

def runAll (cs : List (Call κ ν)) (t : Table κ ν) : Table κ ν := cs.foldl (fun t c => c.run t) t

def applyAll (cs : List (Call κ ν)) (m : κ → Option ν) : κ → Option ν :=
  cs.foldl (fun m c => c.apply m) m

theorem applyAll_append (cs ds : List (Call κ ν)) (m : κ → Option ν) :
    applyAll (cs ++ ds) m = applyAll ds (applyAll cs m) := List.foldl_append

/-- A key no call is about keeps its value. -/
theorem applyAll_other {cs : List (Call κ ν)} {k : κ} (h : ∀ c ∈ cs, c.key ≠ k)
    (m : κ → Option ν) : applyAll cs m k = m k := by
  induction cs generalizing m with
  | nil => rfl
  | cons c cs ih =>
      show applyAll cs (c.apply m) k = m k
      rw [ih (fun d hd => h d (List.mem_cons_of_mem c hd)),
        Call.apply_other (h c List.mem_cons_self)]

/-- Keys in use are distinct and among `ks`, and there are slots for all of `ks`. -/
structure Room (ks : List κ) (t : Table κ ν) : Prop where
  distinct : (keys t).Nodup
  known : ∀ k ∈ keys t, k ∈ ks
  enough : ks.length ≤ t.length

variable {ks : List κ} {t : Table κ ν}

omit [DecidableEq κ] in
/-- **There is a free slot for a known key that is not in use.** -/
theorem Room.free (hr : Room ks t) {k : κ} (hk : k ∈ ks) (hnew : k ∉ keys t) : none ∈ t := by
  by_contra hfull
  have hlen := length_keys_of_full hfull
  have hsub : k :: keys t ⊆ ks := List.cons_subset.mpr ⟨hk, hr.known⟩
  have hle := ((List.nodup_cons.mpr ⟨hnew, hr.distinct⟩).subperm hsub).length_le
  have henough := hr.enough
  simp only [List.length_cons] at hle
  omega

theorem Room.run (hr : Room ks t) {c : Call κ ν} (hc : c.key ∈ ks) : Room ks (c.run t) := by
  cases c with
  | put k v =>
      show Room ks (put k v t)
      unfold put
      by_cases hin : (lookup k t).isSome
      · rw [if_pos hin]
        refine ⟨?_, ?_, ?_⟩
        · rw [keys_overwrite]
          exact hr.distinct
        · rw [keys_overwrite]
          exact hr.known
        · rw [length_overwrite]
          exact hr.enough
      · have hnew : k ∉ keys t := fun h => hin (isSome_lookup_iff.mpr h)
        have hperm := keys_fill k v (hr.free hc hnew)
        rw [if_neg hin]
        refine ⟨?_, ?_, ?_⟩
        · exact hperm.nodup_iff.mpr (List.nodup_cons.mpr ⟨hnew, hr.distinct⟩)
        · intro j hj
          rcases List.mem_cons.mp (hperm.mem_iff.mp hj) with rfl | hj
          · exact hc
          · exact hr.known j hj
        · rw [length_fill]
          exact hr.enough
  | clear k =>
      show Room ks (clear k t)
      refine ⟨?_, ?_, ?_⟩
      · rw [keys_clear]
        exact hr.distinct.erase k
      · rw [keys_clear]
        exact fun j hj => hr.known j (List.mem_of_mem_erase hj)
      · rw [length_clear]
        exact hr.enough

theorem lookup_run (hr : Room ks t) {c : Call κ ν} (hc : c.key ∈ ks) :
    (lookup · (c.run t)) = c.apply (lookup · t) := by
  funext k'
  cases c with
  | put k v =>
      show lookup k' (put k v t) = Function.update (lookup · t) k (some v) k'
      unfold put
      by_cases hin : (lookup k t).isSome
      · rw [if_pos hin]
        exact lookup_overwrite k v t k' (isSome_lookup_iff.mp hin)
      · have hnew : k ∉ keys t := fun h => hin (isSome_lookup_iff.mpr h)
        rw [if_neg hin]
        exact lookup_fill k v t k' (hr.free hc hnew) hnew
  | clear k => exact lookup_clear k t k' hr.distinct

theorem Room.runAll (hr : Room ks t) {cs : List (Call κ ν)} (hcs : ∀ c ∈ cs, c.key ∈ ks) :
    Room ks (runAll cs t) := by
  induction cs generalizing t with
  | nil => exact hr
  | cons c cs ih =>
      exact ih (hr.run (hcs c List.mem_cons_self)) fun d hd => hcs d (List.mem_cons_of_mem c hd)

/-- **The slots are the map.** -/
theorem lookup_runAll (hr : Room ks t) {cs : List (Call κ ν)} (hcs : ∀ c ∈ cs, c.key ∈ ks) :
    (lookup · (runAll cs t)) = applyAll cs (lookup · t) := by
  induction cs generalizing t with
  | nil => rfl
  | cons c cs ih =>
      have hc := hcs c List.mem_cons_self
      have hrec := ih (hr.run hc) fun d hd => hcs d (List.mem_cons_of_mem c hd)
      rw [lookup_run hr hc] at hrec
      exact hrec

/-! ## 4. What any array keeps -/

/-- The keys in use with their values, slot by slot. -/
def entries (t : Table κ ν) : List (κ × ν) := t.filterMap id

omit [DecidableEq κ] in
@[simp] theorem entries_free (t : Table κ ν) : entries (none :: t) = entries t := rfl

omit [DecidableEq κ] in
@[simp] theorem entries_used (e : κ × ν) (t : Table κ ν) :
    entries (some e :: t) = e :: entries t := rfl

omit [DecidableEq κ] in
theorem keys_eq (t : Table κ ν) : keys t = (entries t).map Prod.fst := by
  induction t with
  | nil => rfl
  | cons e t ih =>
      cases e with
      | none => exact ih
      | some e => rw [keys_used, ih, entries_used, List.map_cons]

/-- Where no key is in use twice, every entry is the one its key finds. -/
theorem lookup_of_mem_entries (hnd : (keys t).Nodup) {e : κ × ν} (he : e ∈ entries t) :
    lookup e.1 t = some e.2 := by
  induction t with
  | nil => cases he
  | cons slot t ih =>
      cases slot with
      | none => exact ih hnd he
      | some d =>
          rw [keys_used] at hnd
          obtain ⟨hd, hrest⟩ := List.nodup_cons.mp hnd
          rcases List.mem_cons.mp he with rfl | he
          · simp [lookup]
          · have hin : e.1 ∈ keys t := by
              rw [keys_eq]
              exact List.mem_map_of_mem he
            have hne : d.1 ≠ e.1 := fun h => hd (h ▸ hin)
            rw [lookup, if_neg hne]
            exact ih hrest he

omit [DecidableEq κ] in
theorem fill_of_full {k : κ} {v : ν} {t : Table κ ν} (h : none ∉ t) : fill k v t = t := by
  induction t with
  | nil => rfl
  | cons e t ih =>
      cases e with
      | none => exact absurd List.mem_cons_self h
      | some e => rw [fill, ih fun hm => h (List.mem_cons_of_mem _ hm)]

omit [DecidableEq κ] in
theorem mem_entries_fill {k : κ} {v : ν} {e : κ × ν} (h : e ∈ entries (fill k v t)) :
    e ∈ entries t ∨ e = (k, v) := by
  induction t with
  | nil => cases h
  | cons slot t ih =>
      cases slot with
      | none => exact (List.mem_cons.mp h).symm
      | some d =>
          rcases List.mem_cons.mp h with rfl | h
          · exact .inl List.mem_cons_self
          · exact (ih h).imp_left (List.mem_cons_of_mem d)

theorem mem_entries_overwrite {k : κ} {v : ν} {e : κ × ν} (h : e ∈ entries (overwrite k v t)) :
    e ∈ entries t ∨ e = (k, v) := by
  induction t with
  | nil => cases h
  | cons slot t ih =>
      cases slot with
      | none => exact ih h
      | some d =>
          unfold overwrite at h
          split at h
          · rename_i hd
            rcases List.mem_cons.mp h with rfl | h
            · exact .inr (by rw [hd])
            · exact .inl (List.mem_cons_of_mem d h)
          · rcases List.mem_cons.mp h with rfl | h
            · exact .inl List.mem_cons_self
            · exact (ih h).imp_left (List.mem_cons_of_mem d)

theorem mem_entries_clear {k : κ} {e : κ × ν} (h : e ∈ entries (clear k t)) : e ∈ entries t := by
  induction t with
  | nil => cases h
  | cons slot t ih =>
      cases slot with
      | none => exact ih h
      | some d =>
          unfold clear at h
          split at h
          · exact List.mem_cons_of_mem d h
          · rcases List.mem_cons.mp h with rfl | h
            · exact List.mem_cons_self
            · exact List.mem_cons_of_mem d (ih h)

/-- A call leaves only entries that were there, and the one it puts. -/
theorem entries_run {c : Call κ ν} {e : κ × ν} (h : e ∈ entries (c.run t)) :
    e ∈ entries t ∨ ∃ k v, c = .put k v ∧ e = (k, v) := by
  cases c with
  | put k v =>
      have hput : e ∈ entries (put k v t) := h
      unfold put at hput
      split at hput
      · exact (mem_entries_overwrite hput).imp_right fun he => ⟨k, v, rfl, he⟩
      · exact (mem_entries_fill hput).imp_right fun he => ⟨k, v, rfl, he⟩
  | clear k => exact .inl (mem_entries_clear h)

/-- No call makes a key come twice; a full array drops a new one. -/
theorem nodup_keys_run (hnd : (keys t).Nodup) (c : Call κ ν) : (keys (c.run t)).Nodup := by
  cases c with
  | put k v =>
      show (keys (put k v t)).Nodup
      unfold put
      split
      · rw [keys_overwrite]
        exact hnd
      · rename_i hnew
        have hnew : k ∉ keys t := fun h => hnew (isSome_lookup_iff.mpr h)
        by_cases hfree : none ∈ t
        · exact (keys_fill k v hfree).nodup_iff.mpr (List.nodup_cons.mpr ⟨hnew, hnd⟩)
        · rw [fill_of_full hfree]
          exact hnd
  | clear k =>
      show (keys (clear k t)).Nodup
      rw [keys_clear]
      exact hnd.erase k

end Slots
