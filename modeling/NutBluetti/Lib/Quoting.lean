/-
  File:      NutBluetti/Lib/Quoting.lean
  Subject:   QUOTED TEXT WITH AN ESCAPE CHARACTER, written and read back, over any alphabet.

  * `escape` -- a text with the escape `e` before each `q` and each `e`;
  * `readQuoted` -- the text up to the first `q` that no escape precedes, and what follows it;
  * **`readQuoted_escape`** -- what was written is read back, whatever follows;
  * **`takeWhile_escape_iff`** -- a reader that stops at the first `q` reads back the texts with
    neither, and no other.
-/
import Mathlib.Data.List.TakeWhile

namespace Quoting

variable {α : Type*} [DecidableEq α] (q e : α)

/-- One character as it stands between the quotes. -/
def escapeChar (c : α) : List α := if c = q ∨ c = e then [e, c] else [c]

def escape (v : List α) : List α := v.flatMap (escapeChar q e)

/-- The text after an opening quote, up to the closing one, and the rest. -/
def readQuoted : List α → Option (List α × List α)
  | [] => none
  | [c] => if c = q then some ([], []) else none
  | c :: d :: s =>
      if c = q then some ([], d :: s)
      else if c = e then (readQuoted s).map fun p => (d :: p.1, p.2)
      else (readQuoted (d :: s)).map fun p => (c :: p.1, p.2)

variable {q e}

@[simp] theorem escape_nil : escape q e [] = [] := rfl

@[simp] theorem escape_cons (c : α) (v : List α) :
    escape q e (c :: v) = escapeChar q e c ++ escape q e v := rfl

theorem escapeChar_ne_nil (c : α) : escapeChar q e c ≠ [] := by
  unfold escapeChar
  split <;> simp

theorem readQuoted_quote (s : List α) : readQuoted q e (q :: s) = some ([], s) := by
  cases s with
  | nil => simp [readQuoted]
  | cons d s => simp [readQuoted]

/-- **What was written is read back.** -/
theorem readQuoted_escape (hqe : q ≠ e) (v rest : List α) :
    readQuoted q e (escape q e v ++ q :: rest) = some (v, rest) := by
  induction v with
  | nil => exact readQuoted_quote rest
  | cons c v ih =>
      rw [escape_cons, List.append_assoc]
      by_cases hc : c = q ∨ c = e
      · have he : ¬ e = q := fun h => hqe h.symm
        rw [escapeChar, if_pos hc]
        simp [readQuoted, he, ih]
      · have hcq : ¬ c = q := fun h => hc (.inl h)
        have hce : ¬ c = e := fun h => hc (.inr h)
        rw [escapeChar, if_neg hc, List.singleton_append]
        -- something follows in any case: more of the text, or the closing quote
        cases hs : escape q e v ++ q :: rest with
        | nil => simp at hs
        | cons d s =>
            rw [hs] at ih
            simp [readQuoted, hcq, hce, ih]

/-! ## Reading without the escape -/

/-- A text that is written as it stands. -/
def Plain (q e : α) (v : List α) : Prop := ∀ c ∈ v, c ≠ q ∧ c ≠ e

instance (v : List α) : Decidable (Plain q e v) := inferInstanceAs (Decidable (∀ c ∈ v, _ ∧ _))

omit [DecidableEq α] in
theorem plain_cons {c : α} {v : List α} :
    Plain q e (c :: v) ↔ (c ≠ q ∧ c ≠ e) ∧ Plain q e v := List.forall_mem_cons

theorem length_le_escape (v : List α) : v.length ≤ (escape q e v).length := by
  induction v with
  | nil => exact Nat.le_refl 0
  | cons c v ih =>
      have hpos := List.length_pos_iff.mpr (escapeChar_ne_nil (q := q) (e := e) c)
      rw [escape_cons, List.length_append, List.length_cons]
      omega

theorem escape_eq_self_iff {v : List α} : escape q e v = v ↔ Plain q e v := by
  induction v with
  | nil => exact iff_of_true rfl nofun
  | cons c v ih =>
      rw [plain_cons, escape_cons, ← ih]
      by_cases hc : c = q ∨ c = e
      · have hlen := length_le_escape (q := q) (e := e) v
        rw [escapeChar, if_pos hc]
        constructor
        · intro h
          have := congrArg List.length h
          simp only [List.length_append, List.length_cons, List.length_nil] at this
          omega
        · rintro ⟨⟨hcq, hce⟩, -⟩
          exact (hc.elim hcq hce).elim
      · rw [escapeChar, if_neg hc, List.singleton_append, List.cons_inj_right]
        exact (and_iff_right (not_or.mp hc)).symm

/-- Escapes add no quote. -/
theorem not_mem_escape (hqe : q ≠ e) {v : List α} (h : q ∉ v) : q ∉ escape q e v := by
  intro hin
  obtain ⟨c, hc, hqc⟩ := List.mem_flatMap.mp hin
  have hne : q ≠ c := fun heq => h (heq ▸ hc)
  unfold escapeChar at hqc
  split at hqc
  · simp [hqe, hne] at hqc
  · exact hne (List.mem_singleton.mp hqc)

theorem takeWhile_quote {v : List α} (h : q ∉ v) (rest : List α) :
    (v ++ q :: rest).takeWhile (· ≠ q) = v := by
  rw [List.takeWhile_append_of_pos fun c hc => by simpa using fun heq : c = q => h (heq ▸ hc)]
  simp

theorem dropWhile_quote {v : List α} (h : q ∉ v) (rest : List α) :
    (v ++ q :: rest).dropWhile (· ≠ q) = q :: rest := by
  rw [List.dropWhile_append_of_pos fun c hc => by simpa using fun heq : c = q => h (heq ▸ hc)]
  simp

/-- **Up to the first quote** a text that was written is read back where it is plain. -/
theorem takeWhile_escape_iff (hqe : q ≠ e) (v rest : List α) :
    (escape q e v ++ q :: rest).takeWhile (· ≠ q) = v ↔ Plain q e v := by
  constructor
  · intro h
    have hq : q ∉ v := fun hin => by
      rw [← h] at hin
      simpa using List.mem_takeWhile_imp hin
    rw [takeWhile_quote (not_mem_escape hqe hq)] at h
    exact escape_eq_self_iff.mp h
  · intro h
    rw [escape_eq_self_iff.mpr h]
    exact takeWhile_quote (fun hin => (h q hin).1 rfl) rest

end Quoting
