/-
  File:      NutBluetti/Lib/Crew.lean
  Subject:   TASKS IN A LIST, of which one at most is to be at work.

  A task's step replaces it at its place. `busy` says which tasks are at work; how they are counted
  over a step, and what is known of the rest when one is all that may be.

  * `count_set` -- the count after a step;
  * **`idle_of_other`** -- where one at most is at work and that one moves, the rest are idle.
-/
import Mathlib.Data.List.Basic

namespace Crew

variable {α : Type*} {busy : α → Bool} {l : List α} {i : Nat} {a : α}

/-- A task in the list, and the list with another in its place. -/
theorem split (h : l[i]? = some a) :
    ∃ pre post, l = pre ++ a :: post ∧ ∀ b, l.set i b = pre ++ b :: post := by
  obtain ⟨hi, rfl⟩ := List.getElem?_eq_some_iff.mp h
  refine ⟨l.take i, l.drop (i + 1), ?_, fun b => ?_⟩
  · rw [List.getElem_cons_drop, List.take_append_drop]
  · exact List.set_eq_take_append_cons_drop.trans (if_pos hi)

/-- **The count** changes with the task that moved, and with no other. -/
theorem count_set (h : l[i]? = some a) (b : α) :
    (l.set i b).countP busy + (busy a).toNat = l.countP busy + (busy b).toNat := by
  obtain ⟨pre, post, hl, hset⟩ := split h
  rw [hset, hl]
  simp only [List.countP_append, List.countP_cons]
  cases busy a <;> cases busy b <;> simp <;> omega

/-- **The rest are idle**: with one at most at work, and that one in another's place, nobody else
    is. -/
theorem idle_of_other (h : l[i]? = some a) (ha : busy a = true) (hone : l.countP busy ≤ 1) {b c : α}
    (hc : c ∈ l.set i b) : c = b ∨ (c ∈ l ∧ busy c = false) := by
  obtain ⟨pre, post, hl, hset⟩ := split h
  have hcount : pre.countP busy = 0 ∧ post.countP busy = 0 := by
    rw [hl, List.countP_append, List.countP_cons, if_pos ha] at hone
    omega
  rw [hset, List.mem_append, List.mem_cons] at hc
  rw [hl]
  rcases hc with hpre | rfl | hpost
  · exact .inr ⟨List.mem_append_left _ hpre,
      Bool.eq_false_iff.mpr (List.countP_eq_zero.mp hcount.1 c hpre)⟩
  · exact .inl rfl
  · exact .inr ⟨List.mem_append_right _ (List.mem_cons_of_mem _ hpost),
      Bool.eq_false_iff.mpr (List.countP_eq_zero.mp hcount.2 c hpost)⟩

end Crew
