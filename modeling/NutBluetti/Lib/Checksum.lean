/-
  File:      NutBluetti/Lib/Checksum.lean
  Subject:   A CHECK REGISTER that is folded over a word, and the short errors it tells.

  * `Lossless step` -- no symbol makes two registers meet; `TellsPairs step` -- two symbols in a row
    are told apart by the register they leave;
  * `Lossless.foldl` -- no word makes two registers meet;
  * `split_pair` -- two words that differ in two neighbouring places at most, taken apart there;
  * **`foldl_ne_of_burst`** -- such words never leave the same register.
-/
import Mathlib.Data.List.Basic
import Mathlib.Logic.Function.Basic

namespace Checksum

variable {σ α : Type*}

/-- No symbol makes two registers meet. -/
def Lossless (step : σ → α → σ) : Prop := ∀ a, Function.Injective fun s => step s a

/-- Two symbols in a row are told apart by the register they leave. -/
def TellsPairs (step : σ → α → σ) : Prop :=
  ∀ s a b a' b', step (step s a) b = step (step s a') b' → a = a' ∧ b = b'

variable {step : σ → α → σ}

theorem Lossless.foldl (h : Lossless step) (l : List α) :
    Function.Injective fun s => l.foldl step s := by
  induction l with
  | nil => exact fun _ _ he => he
  | cons a l ih => exact fun s t he => h a (ih he)

/-- Two words of one length that differ, and that only at `i` and the place after it. -/
theorem split_pair {l l' : List α} (hlen : l'.length = l.length) (hne : l' ≠ l) {i : Nat}
    (hi : i + 1 < l.length) (hout : ∀ j, j ≠ i → j ≠ i + 1 → l'[j]? = l[j]?) :
    ∃ pre a b a' b' post, l = pre ++ a :: b :: post ∧ l' = pre ++ a' :: b' :: post ∧
      ¬ (a' = a ∧ b' = b) := by
  have hi' : i + 1 < l'.length := by omega
  have htake : l'.take i = l.take i := by
    refine List.ext_getElem? fun j => ?_
    rw [List.getElem?_take, List.getElem?_take]
    split
    · exact hout j (by omega) (by omega)
    · rfl
  have hdrop : l'.drop (i + 2) = l.drop (i + 2) := by
    refine List.ext_getElem? fun j => ?_
    rw [List.getElem?_drop, List.getElem?_drop]
    exact hout _ (by omega) (by omega)
  have hsplit : ∀ l : List α, (h : i + 1 < l.length) →
      l = l.take i ++ l[i] :: l[i + 1] :: l.drop (i + 2) := fun l h => by
    rw [← List.drop_eq_getElem_cons, ← List.drop_eq_getElem_cons, List.take_append_drop]
  refine ⟨l.take i, l[i], l[i + 1], l'[i], l'[i + 1], l.drop (i + 2), hsplit l hi, ?_, ?_⟩
  · rw [← htake, ← hdrop]
    exact hsplit l' hi'
  · rintro ⟨ha, hb⟩
    apply hne
    rw [hsplit l' hi', hsplit l hi, htake, hdrop, ha, hb]

/-- **Short errors show**: two different words of one length that agree but for two neighbouring
    places leave different registers. -/
theorem foldl_ne_of_burst (h : Lossless step) (hp : TellsPairs step) {l l' : List α}
    (hlen : l'.length = l.length) (h2 : 2 ≤ l.length) (hne : l' ≠ l) {i : Nat}
    (hout : ∀ j, j ≠ i → j ≠ i + 1 → l'[j]? = l[j]?) (s : σ) :
    l'.foldl step s ≠ l.foldl step s := by
  -- a change of the last symbol alone is one of the last two
  obtain ⟨k, hk, hout'⟩ : ∃ k, k + 1 < l.length ∧ ∀ j, j ≠ k → j ≠ k + 1 → l'[j]? = l[j]? := by
    by_cases hi : i + 1 < l.length
    · exact ⟨i, hi, hout⟩
    · refine ⟨l.length - 2, by omega, fun j hj hj' => ?_⟩
      by_cases hjl : j < l.length
      · exact hout j (by omega) (by omega)
      · rw [List.getElem?_eq_none (by omega), List.getElem?_eq_none (by omega)]
  obtain ⟨pre, a, b, a', b', post, rfl, rfl, hab⟩ := split_pair hlen hne hk hout'
  intro he
  simp only [List.foldl_append, List.foldl_cons] at he
  exact hab (hp _ _ _ _ _ (h.foldl post he))

end Checksum
