/-
  File:      NutBluetti/Lib/History.lean
  Subject:   WHAT HOLDS AT EACH MOMENT OF A HISTORY. A history is a list of entries, the newest
             last; a moment is an entry with what came before it.

  * `EachMoment Q l` -- `Q` holds of every entry of `l` and its past;
  * **`eachMoment_snoc_iff`** -- one more entry adds one moment and changes no other;
  * `Latest p l e` -- `e` is the last entry of `l` that satisfies `p`;
  * `streak p l` -- how many entries at the end satisfy `p` in a row; **`le_streak_iff`** -- it
    reaches `n` exactly when the last `n` all do;
  * `IsLow f l m` -- `m` is the lowest value so far; **`newLow_iff`** -- it tells whether an entry
    is lower than all before.
-/
import Mathlib.Data.List.Induction
import Mathlib.Order.Lattice

namespace History

variable {α : Type*}

/-- `Q` holds of every entry of the history with what came before it. -/
def EachMoment (Q : List α → α → Prop) (l : List α) : Prop :=
  ∀ pre e post, l = pre ++ e :: post → Q pre e

@[simp] theorem eachMoment_nil (Q : List α → α → Prop) : EachMoment Q [] := by
  intro pre e post h
  simp at h

/-- **One more entry is one more moment.** -/
theorem eachMoment_snoc_iff {Q : List α → α → Prop} {l : List α} {a : α} :
    EachMoment Q (l ++ [a]) ↔ EachMoment Q l ∧ Q l a := by
  constructor
  · intro h
    refine ⟨fun pre e post hl => h pre e (post ++ [a]) (by simp [hl]), h l a [] rfl⟩
  · intro h pre e post hl
    rcases List.eq_nil_or_concat post with rfl | ⟨post', b, rfl⟩
    · obtain ⟨rfl, hae⟩ := List.append_inj' hl rfl
      obtain rfl : a = e := by simpa using hae
      exact h.2
    · have hl' : l ++ [a] = (pre ++ e :: post') ++ [b] := by simpa using hl
      exact h.1 pre e post' (List.append_inj' hl' rfl).1

/-- Entries that satisfy `Q` whatever their past add nothing to show. -/
theorem EachMoment.append {Q : List α → α → Prop} {l m : List α} (h : EachMoment Q l)
    (hm : ∀ e ∈ m, ∀ pre, Q pre e) : EachMoment Q (l ++ m) := by
  induction m generalizing l with
  | nil => simpa using h
  | cons a m ih =>
      obtain ⟨ha, hm'⟩ := List.forall_mem_cons.mp hm
      rw [List.append_cons]
      exact ih (eachMoment_snoc_iff.mpr ⟨h, ha l⟩) hm'

/-- `e` is the last entry of the history that satisfies `p`. -/
def Latest (p : α → Prop) (l : List α) (e : α) : Prop :=
  p e ∧ ∃ pre post, l = pre ++ e :: post ∧ ∀ x ∈ post, ¬ p x

theorem latest_snoc {p : α → Prop} {e : α} (he : p e) (l : List α) : Latest p (l ++ [e]) e :=
  ⟨he, l, [], rfl, by simp⟩

theorem latest_nil {p : α → Prop} {e : α} : ¬ Latest p [] e := by
  rintro ⟨-, pre, post, h, -⟩
  simp at h

/-- One more entry is the last that satisfies `p`, or changes nothing. -/
theorem latest_snoc_iff {p : α → Prop} {l : List α} {a e : α} :
    Latest p (l ++ [a]) e ↔ p a ∧ e = a ∨ ¬ p a ∧ Latest p l e := by
  constructor
  · rintro ⟨he, pre, post, hl, hpost⟩
    rcases List.eq_nil_or_concat post with rfl | ⟨post', b, rfl⟩
    · obtain ⟨-, hae⟩ := List.append_inj' hl rfl
      obtain rfl : a = e := by simpa using hae
      exact .inl ⟨he, rfl⟩
    · have hl' : l ++ [a] = (pre ++ e :: post') ++ [b] := by simpa using hl
      obtain ⟨rfl, hab⟩ := List.append_inj' hl' rfl
      obtain rfl : a = b := by simpa using hab
      exact .inr ⟨hpost a (by simp), he, pre, post', rfl, fun x hx => hpost x (by simp [hx])⟩
  · rintro (⟨ha, rfl⟩ | ⟨ha, he, pre, post, rfl, hpost⟩)
    · exact ⟨ha, l, [], rfl, by simp⟩
    · refine ⟨he, pre, post ++ [a], by simp, fun x hx => ?_⟩
      rcases List.mem_append.mp hx with hx | hx
      · exact hpost x hx
      · exact List.mem_singleton.mp hx ▸ ha

/-- Entries that do not satisfy `p` leave the last one that does. -/
theorem Latest.append {p : α → Prop} {l m : List α} {e : α} (h : Latest p l e)
    (hm : ∀ x ∈ m, ¬ p x) : Latest p (l ++ m) e := by
  obtain ⟨he, pre, post, rfl, hpost⟩ := h
  refine ⟨he, pre, post ++ m, by simp, fun x hx => ?_⟩
  rcases List.mem_append.mp hx with hx | hx
  · exact hpost x hx
  · exact hm x hx

/-- The moments of the entries that are kept are those of all the entries, with the past
    filtered. -/
theorem eachMoment_filter_iff {Q : List α → α → Prop} {p : α → Bool} {l : List α} :
    EachMoment Q (l.filter p) ↔ EachMoment (fun pre e => p e = true → Q (pre.filter p) e) l := by
  induction l using List.reverseRecOn with
  | nil => exact iff_of_true (eachMoment_nil _) (eachMoment_nil _)
  | append_singleton l a ih =>
      rw [eachMoment_snoc_iff, ← ih, List.filter_append]
      by_cases ha : p a = true
      · rw [List.filter_cons_of_pos ha, List.filter_nil, eachMoment_snoc_iff, imp_iff_right ha]
      · rw [List.filter_cons_of_neg ha, List.filter_nil, List.append_nil]
        exact (and_iff_left fun h => absurd h ha).symm

/-- The first entry that fails, or none. -/
theorem exists_first_not (p : α → Prop) (l : List α) :
    (∀ x ∈ l, p x) ∨ ∃ pre x post, l = pre ++ x :: post ∧ (∀ y ∈ pre, p y) ∧ ¬ p x := by
  induction l with
  | nil => exact .inl nofun
  | cons a l ih =>
      by_cases ha : p a
      · rcases ih with hall | ⟨pre, x, post, rfl, hpre, hx⟩
        · exact .inl (List.forall_mem_cons.mpr ⟨ha, hall⟩)
        · exact .inr ⟨a :: pre, x, post, rfl, List.forall_mem_cons.mpr ⟨ha, hpre⟩, hx⟩
      · exact .inr ⟨[], a, l, rfl, nofun, ha⟩

/-! ## The streak at the end -/

/-- How many entries at the end satisfy `p`, one after the other. -/
def streak (p : α → Bool) (l : List α) : Nat := l.foldl (fun n a => if p a then n + 1 else 0) 0

@[simp] theorem streak_snoc (p : α → Bool) (l : List α) (a : α) :
    streak p (l ++ [a]) = if p a then streak p l + 1 else 0 := by
  unfold streak
  rw [List.foldl_append]
  rfl

/-- **The streak reaches `n`** exactly when the last `n` entries are there and all satisfy `p`. -/
theorem le_streak_iff {p : α → Bool} {l : List α} {n : Nat} : n ≤ streak p l ↔
    ∃ pre post, l = pre ++ post ∧ post.length = n ∧ ∀ x ∈ post, p x = true := by
  induction l using List.reverseRecOn generalizing n with
  | nil =>
      constructor
      · intro h
        exact ⟨[], [], rfl, (Nat.le_zero.mp h).symm, fun x hx => absurd hx List.not_mem_nil⟩
      · rintro ⟨pre, post, hl, hlen, -⟩
        rw [(List.append_eq_nil_iff.mp hl.symm).2] at hlen
        exact Nat.le_of_eq hlen.symm
  | append_singleton l a ih =>
      cases n with
      | zero =>
          refine iff_of_true (Nat.zero_le _) ⟨l ++ [a], [], ?_, rfl, fun x hx => ?_⟩
          · rw [List.append_nil]
          · cases hx
      | succ n =>
          rw [streak_snoc]
          constructor
          · intro h
            cases ha : p a with
            | false =>
                rw [ha] at h
                exact absurd h (Nat.not_succ_le_zero n)
            | true =>
                rw [ha, if_pos rfl, Nat.succ_le_succ_iff] at h
                obtain ⟨pre, post, rfl, hlen, hall⟩ := ih.mp h
                refine ⟨pre, post ++ [a], by rw [List.append_assoc], ?_, fun x hx => ?_⟩
                · rw [List.length_append, List.length_singleton, hlen]
                · rcases List.mem_append.mp hx with hx | hx
                  · exact hall x hx
                  · rw [List.mem_singleton.mp hx, ha]
          · rintro ⟨pre, post, hl, hlen, hall⟩
            rcases List.eq_nil_or_concat post with rfl | ⟨post', b, rfl⟩
            · cases hlen
            · rw [List.concat_eq_append] at *
              rw [← List.append_assoc] at hl
              obtain ⟨rfl, hab⟩ := List.append_inj' hl rfl
              obtain rfl : a = b := by simpa using hab
              rw [hall a (by simp), if_pos rfl]
              rw [List.length_append, List.length_singleton] at hlen
              refine Nat.succ_le_succ (ih.mpr ⟨pre, post', rfl, Nat.succ.inj hlen, fun x hx => ?_⟩)
              exact hall x (List.mem_append_left _ hx)

/-! ## The lowest so far -/

section Lowest

variable {β : Type*} [LinearOrder β] {f : α → β} {l : List α} {m : β}

/-- The lowest value of a history that has begun. -/
def IsLow (f : α → β) (l : List α) (m : β) : Prop := (∃ x ∈ l, f x = m) ∧ ∀ x ∈ l, m ≤ f x

/-- The entry is lower than all before, and there was one. -/
def NewLow (f : α → β) (l : List α) (a : α) : Prop := l ≠ [] ∧ ∀ x ∈ l, f a < f x

theorem isLow_singleton (f : α → β) (a : α) : IsLow f [a] (f a) := by
  simp [IsLow]

theorem isLow_snoc (h : IsLow f l m) (a : α) : IsLow f (l ++ [a]) (min m (f a)) := by
  obtain ⟨⟨x, hx, hfx⟩, hlow⟩ := h
  refine ⟨?_, fun y hy => ?_⟩
  · rcases le_total m (f a) with hle | hle
    · exact ⟨x, List.mem_append_left _ hx, by rw [hfx, min_eq_left hle]⟩
    · exact ⟨a, by simp, (min_eq_right hle).symm⟩
  · rcases List.mem_append.mp hy with hy | hy
    · exact le_trans (min_le_left _ _) (hlow y hy)
    · rw [List.mem_singleton.mp hy]
      exact min_le_right _ _

/-- **The lowest so far decides**: an entry is lower than all before if it is lower than that. -/
theorem newLow_iff (h : IsLow f l m) (a : α) : NewLow f l a ↔ f a < m := by
  obtain ⟨⟨x, hx, hfx⟩, hlow⟩ := h
  constructor
  · intro hnew
    rw [← hfx]
    exact hnew.2 x hx
  · intro hlt
    exact ⟨List.ne_nil_of_mem hx, fun y hy => lt_of_lt_of_le hlt (hlow y hy)⟩

end Lowest

end History
