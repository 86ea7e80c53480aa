/-
  File:      NutBluetti/Lib/BoundedMap.lean
  Subject:   A MAP WITH ROOM FOR SO MANY KEYS, and an array of slots as one, full or not.

  * `others k m` -- the keys other than `k` that have a value;
  * `Call.within n` -- a call on a map with room for `n` keys: a `put` is dropped where `n` other
    keys have a value already;
  * **`lookup_run_within`**, **`lookup_runAll_within`** -- that is what a call, and a sequence of
    calls, does to an array of `n` slots.
-/
import Mathlib.Data.Set.Card
import NutBluetti.Lib.Slots

namespace Slots

variable {κ ν : Type*}

/-! ## 1. The map -/

/-- The other keys that have a value. -/
def others (k : κ) (m : κ → Option ν) : Set κ := {j | j ≠ k ∧ (m j).isSome = true}

variable [DecidableEq κ]

/-- The call on a map with room for `n` keys. -/
noncomputable def Call.within (n : Nat) : Call κ ν → (κ → Option ν) → κ → Option ν
  | .put k v, m => if (others k m).ncard < n then Function.update m k (some v) else m
  | .clear k, m => Function.update m k none

noncomputable def allWithin (n : Nat) (cs : List (Call κ ν)) (m : κ → Option ν) : κ → Option ν :=
  cs.foldl (fun m c => c.within n m) m

/-- A call is about its own key only. -/
theorem Call.within_other {n : Nat} {c : Call κ ν} {k : κ} (h : k ≠ c.key) (m : κ → Option ν) :
    c.within n m k = m k := by
  cases c with
  | put k' v =>
      show (if (others k' m).ncard < n then Function.update m k' (some v) else m) k = m k
      split
      · exact Function.update_of_ne h _ _
      · rfl
  | clear k' => exact Function.update_of_ne h _ _

/-! ## 2. The slots -/

variable {t : Table κ ν}

/-- The other keys, counted in the array. -/
theorem ncard_others (hnd : (keys t).Nodup) (k : κ) :
    (others k (lookup · t)).ncard = ((keys t).erase k).length := by
  have hset : others k (lookup · t) = ↑((keys t).erase k).toFinset := by
    ext j
    simp only [others, Set.mem_ofPred_eq, isSome_lookup_iff, List.coe_toFinset, hnd.mem_erase_iff]
  rw [hset, Set.ncard_coe_finset, List.toFinset_card_of_nodup (hnd.erase k)]

omit [DecidableEq κ] in
theorem length_keys_le (t : Table κ ν) : (keys t).length ≤ t.length := List.length_filterMap_le _ _

omit [DecidableEq κ] in
theorem length_keys_lt (h : none ∈ t) : (keys t).length < t.length := by
  induction t with
  | nil => cases h
  | cons e t ih =>
      cases e with
      | none =>
          rw [keys_free, List.length_cons]
          exact Nat.lt_succ_of_le (length_keys_le t)
      | some e =>
          rw [keys_used, List.length_cons, List.length_cons]
          exact Nat.succ_lt_succ (ih (by simpa using h))

/-- There is room for a key where it is in use or a slot is free. -/
theorem room_iff (hnd : (keys t).Nodup) (k : κ) :
    (others k (lookup · t)).ncard < t.length ↔ k ∈ keys t ∨ none ∈ t := by
  rw [ncard_others hnd]
  by_cases hin : k ∈ keys t
  · have hpos := List.length_pos_of_mem hin
    have hle := length_keys_le t
    rw [List.length_erase_of_mem hin]
    exact iff_of_true (by omega) (.inl hin)
  · rw [List.erase_of_not_mem hin, or_iff_right hin]
    constructor
    · intro hlt
      by_contra hfull
      rw [length_keys_of_full hfull] at hlt
      exact Nat.lt_irrefl _ hlt
    · exact length_keys_lt

theorem length_run (c : Call κ ν) (t : Table κ ν) : (c.run t).length = t.length := by
  cases c with
  | put k v =>
      show (put k v t).length = t.length
      unfold put
      split
      · exact length_overwrite k v t
      · exact length_fill k v t
  | clear k => exact length_clear k t

/-- **A call on an array of slots**, full or not, is the call on the map with as much room. -/
theorem lookup_run_within (hnd : (keys t).Nodup) (c : Call κ ν) :
    (lookup · (c.run t)) = c.within t.length (lookup · t) := by
  funext k'
  cases c with
  | put k v =>
      show lookup k' (put k v t) = (if (others k (lookup · t)).ncard < t.length then
        Function.update (lookup · t) k (some v) else (lookup · t)) k'
      unfold put
      by_cases hin : k ∈ keys t
      · rw [if_pos (isSome_lookup_iff.mpr hin), if_pos ((room_iff hnd k).mpr (.inl hin))]
        exact lookup_overwrite k v t k' hin
      · rw [if_neg fun h => hin (isSome_lookup_iff.mp h)]
        by_cases hfree : none ∈ t
        · rw [if_pos ((room_iff hnd k).mpr (.inr hfree))]
          exact lookup_fill k v t k' hfree hin
        · rw [if_neg fun h => ((room_iff hnd k).mp h).elim hin hfree, fill_of_full hfree]
  | clear k => exact lookup_clear k t k' hnd

/-- **A sequence of calls.** -/
theorem lookup_runAll_within (hnd : (keys t).Nodup) (cs : List (Call κ ν)) :
    (keys (runAll cs t)).Nodup ∧ (runAll cs t).length = t.length ∧
      (lookup · (runAll cs t)) = allWithin t.length cs (lookup · t) := by
  induction cs generalizing t with
  | nil => exact ⟨hnd, rfl, rfl⟩
  | cons c cs ih =>
      obtain ⟨hnd', hlen, hmap⟩ := ih (nodup_keys_run hnd c)
      rw [length_run] at hlen hmap
      refine ⟨hnd', hlen, ?_⟩
      rw [lookup_run_within hnd c] at hmap
      exact hmap

end Slots
