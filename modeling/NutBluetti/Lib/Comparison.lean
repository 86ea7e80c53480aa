/-
  File:      NutBluetti/Lib/Comparison.lean
  Subject:   COMPARISONS THAT RETURN AN INTEGER: below 0, 0 or above 0, as `strcmp` does.

  * `TotalPreorder` -- what is asked of one;
  * `ReadsAs` -- its sign is the order of what it reads of each side; **`ReadsAs.total`** -- one
    that has such a reading is a total preorder;
  * `drawn`, `cmpDrawn` -- a loop that draws from both sides and returns at the first difference,
    and **`cmpDrawn_readsAs`** -- it compares what it draws as lists are compared.
-/
import Mathlib.Data.List.Lex
import Mathlib.Order.Lattice

namespace Comparison

variable {σ β : Type*}

/-! ## 1. Preorders -/

/-- **A total preorder**, by its sign: any two sides are comparable, for a sign is one of three. -/
structure TotalPreorder (cmp : σ → σ → Int) : Prop where
  refl : ∀ a, cmp a a = 0
  swap : ∀ a b, (cmp b a).sign = -(cmp a b).sign
  trans : ∀ a b c, cmp a b ≤ 0 → cmp b c ≤ 0 → cmp a c ≤ 0

/-- The sign of a comparison is the order of the readings of its sides. -/
structure ReadsAs [LinearOrder β] (cmp : σ → σ → Int) (key : σ → β) : Prop where
  lt_iff : ∀ a b, cmp a b < 0 ↔ key a < key b
  gt_iff : ∀ a b, 0 < cmp a b ↔ key b < key a

section Reading

variable [LinearOrder β] {cmp : σ → σ → Int} {key : σ → β}

theorem ReadsAs.eq_iff (h : ReadsAs cmp key) (a b : σ) : cmp a b = 0 ↔ key a = key b := by
  have hlt := h.lt_iff a b
  have hgt := h.gt_iff a b
  constructor
  · intro heq
    rcases lt_trichotomy (key a) (key b) with hless | hsame | hmore
    · have hneg := hlt.mpr hless
      omega
    · exact hsame
    · have hpos := hgt.mpr hmore
      omega
  · intro heq
    have hno : ¬ cmp a b < 0 := fun hneg => absurd heq (hlt.mp hneg).ne
    have hno' : ¬ 0 < cmp a b := fun hpos => absurd heq (hgt.mp hpos).ne'
    omega

theorem ReadsAs.le_iff (h : ReadsAs cmp key) (a b : σ) : cmp a b ≤ 0 ↔ key a ≤ key b := by
  rw [← Int.not_lt, h.gt_iff, not_lt]

/-- **A comparison with a reading is a total preorder.** -/
theorem ReadsAs.total (h : ReadsAs cmp key) : TotalPreorder cmp where
  refl a := (h.eq_iff a a).mpr rfl
  swap a b := by
    rcases lt_trichotomy (key a) (key b) with hless | hsame | hmore
    · rw [Int.sign_eq_neg_one_of_neg ((h.lt_iff a b).mpr hless),
        Int.sign_eq_one_of_pos ((h.gt_iff b a).mpr hless)]
      rfl
    · rw [(h.eq_iff a b).mpr hsame, (h.eq_iff b a).mpr hsame.symm]
      rfl
    · rw [Int.sign_eq_one_of_pos ((h.gt_iff a b).mpr hmore),
        Int.sign_eq_neg_one_of_neg ((h.lt_iff b a).mpr hmore)]
  trans a b c hab hbc := by
    rw [h.le_iff] at hab hbc ⊢
    exact le_trans hab hbc

end Reading

/-! ## 2. The first difference -/

section Drawing

variable [LinearOrder β] (next : σ → β × σ)

/-- What is drawn from one side in `n` turns. -/
def drawn : Nat → σ → List β
  | 0, _ => []
  | n + 1, a => (next a).1 :: drawn n (next a).2

/-- At most `n` turns, drawing from both sides, up to the first difference. -/
def cmpDrawn : Nat → σ → σ → Int
  | 0, _, _ => 0
  | n + 1, a, b =>
      if (next a).1 ≠ (next b).1 then if (next a).1 < (next b).1 then -1 else 1
      else cmpDrawn n (next a).2 (next b).2

/-- **The first difference decides**, as it does between lists. -/
theorem cmpDrawn_readsAs (n : Nat) : ReadsAs (cmpDrawn next n) (drawn next n) := by
  induction n with
  | zero => exact ⟨fun a b => iff_of_false (Int.lt_irrefl 0) (lt_irrefl _),
      fun a b => iff_of_false (Int.lt_irrefl 0) (lt_irrefl _)⟩
  | succ n ih =>
      constructor
      · intro a b
        rw [cmpDrawn, drawn, drawn, List.cons_lt_cons_iff]
        by_cases hsame : (next a).1 = (next b).1
        · rw [if_neg (not_not.mpr hsame), ih.lt_iff]
          constructor
          · exact fun hless => .inr ⟨hsame, hless⟩
          · intro hless
            exact (hless.resolve_left (hsame ▸ lt_irrefl _)).2
        · rw [if_pos hsame]
          split
          · rename_i hless
            exact iff_of_true (by decide) (.inl hless)
          · rename_i hno
            exact iff_of_false (by decide) fun hless => hsame (hless.resolve_left hno).1
      · intro a b
        rw [cmpDrawn, drawn, drawn, List.cons_lt_cons_iff]
        by_cases hsame : (next a).1 = (next b).1
        · rw [if_neg (not_not.mpr hsame), ih.gt_iff]
          constructor
          · exact fun hless => .inr ⟨hsame.symm, hless⟩
          · intro hless
            exact (hless.resolve_left (hsame ▸ lt_irrefl _)).2
        · rw [if_pos hsame]
          split
          · rename_i hless
            refine iff_of_false (by decide) fun hmore => ?_
            exact hsame (hmore.resolve_left (lt_asymm hless)).1.symm
          · rename_i hno
            exact iff_of_true (by decide) (.inl (lt_of_le_of_ne (not_lt.mp hno) (Ne.symm hsame)))

end Drawing

end Comparison
