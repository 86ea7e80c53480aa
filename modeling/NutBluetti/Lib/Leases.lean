/-
  File:      NutBluetti/Lib/Leases.lean
  Subject:   LEASES THAT LAPSE. Who holds a lease after any history of grants, checks and releases.

  A holder is granted a lease, and every check renews it, but only if it comes in time after the
  last one: one that comes late takes the lease away. Nothing is taken away by time alone. A grant
  may oust another holder, for want of room.

  * `run` -- the table of holders, each with its last use, after a history;
  * `run_of_held` -- from a holder's own lease on: it is still held if nothing has ended it and no
    two uses in a row lie too far apart;
  * **`held_iff`** -- after any history in which nobody is granted a lease twice: exactly those hold
    one at a later time who were granted one that nothing has ended and that was always used in
    time;
  * **`step_other`** -- an event changes the lease of one holder, and that of the holder it ousts;
  * `last_use` -- the table shows the last use there was.
-/
import Mathlib.Data.List.Chain
import Mathlib.Logic.Function.Basic

namespace Leases

variable {K T : Type*}

/-! ## 1. Events -/

/-- What can happen to leases, of holders `K` at times `T`. -/
inductive Event (K T : Type*)
  | grant (k : K) (ousted : Option K) (t : T)
  | check (k : K) (t : T)
  | release (k : K)

/-- Whom an event is about. -/
def Event.holder : Event K T → K
  | .grant k _ _ => k
  | .check k _ => k
  | .release k => k

def Event.granted : Event K T → Option K
  | .grant k _ _ => some k
  | _ => none

def Event.ousted : Event K T → Option K
  | .grant _ o _ => o
  | _ => none

/-- The event ends the lease of `k`, whatever the time. -/
def Event.Ends (k : K) (e : Event K T) : Prop := e = .release k ∨ e.ousted = some k

section

variable [DecidableEq K]

/-- The time at which an event checks the lease of `k`. -/
def Event.checked (k : K) : Event K T → Option T
  | .check k' t => if k' = k then some t else none
  | _ => none

/-- The time at which an event grants or checks the lease of `k`. -/
def Event.used (k : K) : Event K T → Option T
  | .grant k' _ t => if k' = k then some t else none
  | .check k' t => if k' = k then some t else none
  | .release _ => none

/-! ## 2. The table -/

variable (R : T → T → Prop) [DecidableRel R]

/-- The table with nothing for an ousted holder. -/
def oust (tab : K → Option T) : Option K → K → Option T
  | none => tab
  | some k => Function.update tab k none

/-- The holders with their last uses, after an event. -/
def step (tab : K → Option T) : Event K T → K → Option T
  | .grant k ousted t => Function.update (oust tab ousted) k (some t)
  | .check k t =>
      match tab k with
      | none => tab
      | some u => Function.update tab k (if R u t then some t else none)
  | .release k => Function.update tab k none

/-- And after any number of them. -/
def run (tab : K → Option T) (es : List (Event K T)) : K → Option T := es.foldl (step R) tab

variable {R}

theorem oust_of_ne (tab : K → Option T) {o : Option K} {k : K} (h : o ≠ some k) :
    oust tab o k = tab k := by
  cases o with
  | none => rfl
  | some k' => exact Function.update_of_ne (fun hk => h (congrArg some hk.symm)) _ _

theorem oust_self (tab : K → Option T) (k : K) : oust tab (some k) k = none := by
  simp only [oust, Function.update_self]

/-- **An event changes the lease of one holder**, and that of the one it ousts. -/
theorem step_other (tab : K → Option T) {e : Event K T} {k : K} (hk : e.holder ≠ k)
    (ho : e.ousted ≠ some k) : step R tab e k = tab k := by
  cases e with
  | grant k' o t => exact (Function.update_of_ne (Ne.symm hk) _ _).trans (oust_of_ne tab ho)
  | check k' t =>
      simp only [step]
      cases tab k' with
      | none => rfl
      | some u => exact Function.update_of_ne (Ne.symm hk) _ _
  | release k' => exact Function.update_of_ne (Ne.symm hk) _ _

theorem step_grant_self (tab : K → Option T) (k : K) (o : Option K) (t : T) :
    step R tab (.grant k o t) k = some t := by
  simp only [step, Function.update_self]

theorem step_release_self (tab : K → Option T) (k : K) : step R tab (.release k) k = none := by
  simp only [step, Function.update_self]

theorem step_check_self (tab : K → Option T) {k : K} {u : T} (h : tab k = some u) (t : T) :
    step R tab (.check k t) k = if R u t then some t else none := by
  simp only [step, h, Function.update_self]

/-- Who holds none comes by one by a grant only. -/
theorem step_none {tab : K → Option T} {e : Event K T} {k : K} (h : tab k = none)
    (hg : e.granted ≠ some k) : step R tab e k = none := by
  cases e with
  | grant k' o t =>
      have hne : k ≠ k' := fun hk => hg (congrArg some hk.symm)
      refine (Function.update_of_ne hne _ _).trans ?_
      by_cases ho : o = some k
      · rw [ho]
        exact oust_self tab k
      · rw [oust_of_ne tab ho, h]
  | check k' t =>
      by_cases hk : k' = k
      · subst hk
        simp only [step, h]
      · exact (step_other tab (e := .check k' t) hk (fun ho => (nomatch ho))).trans h
  | release k' =>
      by_cases hk : k' = k
      · subst hk
        exact Function.update_self k' none tab
      · exact (step_other tab (e := .release k') hk (fun ho => (nomatch ho))).trans h

theorem run_none {tab : K → Option T} {es : List (Event K T)} {k : K} (h : tab k = none)
    (hg : ∀ e ∈ es, e.granted ≠ some k) : run R tab es k = none := by
  induction es generalizing tab with
  | nil => exact h
  | cons e es ih =>
      exact ih (step_none h (hg e List.mem_cons_self)) fun e' he' =>
        hg e' (List.mem_cons_of_mem _ he')

/-- What ends a lease leaves none, unless it grants one. -/
theorem step_ends (tab : K → Option T) {e : Event K T} {k : K} (h : e.Ends k)
    (hg : e.granted ≠ some k) :
    step R tab e k = none := by
  obtain rfl | ho := h
  · exact step_release_self tab k
  · cases e with
    | grant k' o t =>
        have hne : k ≠ k' := fun hk => hg (congrArg some hk.symm)
        have hok : o = some k := ho
        subst hok
        exact (Function.update_of_ne hne _ _).trans (oust_self tab k)
    | check k' t => cases ho
    | release k' => cases ho

/-- **From a lease on**: over events that grant the holder no other, it is still held in time if
    nothing has ended it and every use came in time after the one before. -/
theorem run_of_held {tab : K → Option T} {es : List (Event K T)} {k : K} {u t : T}
    (h : tab k = some u)
    (hg : ∀ e ∈ es, e.granted ≠ some k) :
    (∃ v, run R tab es k = some v ∧ R v t) ↔
      (∀ e ∈ es, ¬ e.Ends k) ∧ List.IsChain R (u :: (es.filterMap (Event.checked k) ++ [t])) := by
  induction es generalizing tab u with
  | nil =>
      have hrun : run R tab [] k = some u := h
      simp only [hrun, Option.some.injEq, exists_eq_left', List.not_mem_nil, false_imp_iff,
        implies_true, true_and, List.filterMap_nil, List.nil_append, List.isChain_cons_cons,
        List.isChain_singleton, and_true]
  | cons e es ih =>
      have hge := hg e List.mem_cons_self
      have hges : ∀ e' ∈ es, e'.granted ≠ some k := fun e' he' => hg e' (List.mem_cons_of_mem _ he')
      -- without a lease after this event there is none at the end
      have hlost (hnone : step R tab e k = none) :
          ¬ ∃ v, run R tab (e :: es) k = some v ∧ R v t := by
        rintro ⟨v, hv, -⟩
        have hend := run_none (R := R) hnone hges
        exact absurd (hend.symm.trans hv) (fun hn => (nomatch hn))
      by_cases hends : e.Ends k
      · refine iff_of_false (hlost (step_ends tab hends hge)) fun hall => ?_
        exact hall.1 e List.mem_cons_self hends
      · have hall : (∀ e' ∈ e :: es, ¬ e'.Ends k) ↔ ∀ e' ∈ es, ¬ e'.Ends k := by
          rw [List.forall_mem_cons]
          exact and_iff_right hends
        rw [hall]
        cases hc : e.checked k with
        | some t' =>
            obtain rfl : e = .check k t' := by
              cases e with
              | grant k' o t₁ => cases hc
              | release k' => cases hc
              | check k' t₁ =>
                  simp only [Event.checked] at hc
                  split at hc
                  · next hk => rw [hk, Option.some.inj hc]
                  · cases hc
            rw [List.filterMap_cons_some hc, List.cons_append, List.isChain_cons_cons]
            have hself := step_check_self (R := R) tab h t'
            by_cases hin : R u t'
            · rw [if_pos hin] at hself
              exact (ih hself hges).trans (and_congr_right fun _ => (and_iff_right hin).symm)
            · rw [if_neg hin] at hself
              exact iff_of_false (hlost hself) fun hall => hin hall.2.1
        | none =>
            rw [List.filterMap_cons_none hc]
            have hother : e.holder ≠ k := by
              rintro rfl
              cases e with
              | grant k' o t₁ => exact hge rfl
              | check k' t₁ => exact absurd hc (by simp [Event.checked, Event.holder])
              | release k' => exact hends (.inl rfl)
            have hsame := step_other (R := R) tab hother fun ho => hends (.inr ho)
            exact ih (hsame.trans h) hges

/-! ## 3. Whole histories -/

theorem run_append (tab : K → Option T) (es fs : List (Event K T)) :
    run R tab (es ++ fs) = run R (run R tab es) fs := List.foldl_append

/-- The holders of a history, in the order of their grants. -/
def grants (es : List (Event K T)) : List K := es.filterMap Event.granted

omit [DecidableEq K] in
theorem not_granted_of_nodup {before after : List (Event K T)} {k : K} {o : Option K} {t : T}
    (h : (grants (before ++ .grant k o t :: after)).Nodup) : ∀ e ∈ after, e.granted ≠ some k := by
  intro e he hk
  unfold grants at h
  have hk' : (Event.grant k o t).granted = some k := rfl
  rw [List.filterMap_append, List.filterMap_cons_some hk'] at h
  have hnot := (List.nodup_cons.mp (List.nodup_append.mp h).2.1).1
  exact hnot (List.mem_filterMap.mpr ⟨e, he, hk⟩)

/-- **Who holds a lease.** After a history from an empty table in which nobody is granted a lease
    twice, a holder's lease can be used in time at `t` if and only if it was granted, nothing has
    ended it since, and from the grant up to `t` every use came in time after the one before. -/
theorem held_iff {es : List (Event K T)} {k : K} {t : T} (hfresh : (grants es).Nodup) :
    (∃ v, run R (fun _ => none) es k = some v ∧ R v t) ↔
      ∃ before o t₀ after, es = before ++ .grant k o t₀ :: after ∧ (∀ e ∈ after, ¬ e.Ends k) ∧
        List.IsChain R (t₀ :: (after.filterMap (Event.checked k) ++ [t])) := by
  constructor
  · intro hheld
    obtain ⟨v, hv, -⟩ := id hheld
    have hgranted : ∃ e ∈ es, e.granted = some k := by
      by_contra hno
      have hnone : run R (fun _ => none) es k = none := run_none rfl fun e he hk => hno ⟨e, he, hk⟩
      exact absurd (hnone.symm.trans hv) (fun hn => (nomatch hn))
    obtain ⟨e, he, hk⟩ := hgranted
    obtain ⟨k', o, t₀, rfl⟩ : ∃ k' o t₀, e = Event.grant k' o t₀ := by
      cases e with
      | grant k' o t₀ => exact ⟨k', o, t₀, rfl⟩
      | check k' t₁ => cases hk
      | release k' => cases hk
    obtain rfl := Option.some.inj hk
    obtain ⟨before, after, rfl⟩ := List.append_of_mem he
    refine ⟨before, o, t₀, after, rfl, ?_⟩
    rw [run_append] at hheld
    exact (run_of_held (step_grant_self _ _ _ _) (not_granted_of_nodup hfresh)).mp hheld
  · rintro ⟨before, o, t₀, after, rfl, hkept⟩
    rw [run_append]
    exact (run_of_held (step_grant_self _ _ _ _) (not_granted_of_nodup hfresh)).mpr hkept

/-- What a step leaves with a holder is its use, or was there before. -/
theorem step_some {tab : K → Option T} {e : Event K T} {k : K} {v : T}
    (h : step R tab e k = some v) : e.used k = some v ∨ e.used k = none ∧ tab k = some v := by
  cases e with
  | grant k' o t =>
      by_cases hk : k' = k
      · subst hk
        rw [step_grant_self] at h
        exact .inl (by simpa [Event.used] using h)
      · refine .inr ⟨by simp [Event.used, hk], ?_⟩
        have hoff : oust tab o k = some v := by
          rw [← h]
          exact (Function.update_of_ne (Ne.symm hk) _ _).symm
        by_cases ho : o = some k
        · rw [ho, oust_self] at hoff
          cases hoff
        · rw [← oust_of_ne tab ho, hoff]
  | check k' t =>
      by_cases hk : k' = k
      · subst hk
        cases htab : tab k' with
        | none =>
            simp only [step, htab] at h
            cases h
        | some u =>
            rw [step_check_self tab htab] at h
            split at h
            · exact .inl (by simpa [Event.used] using h)
            · cases h
      · rw [step_other tab (e := .check k' t) hk (fun ho => (nomatch ho))] at h
        exact .inr ⟨by simp [Event.used, hk], h⟩
  | release k' =>
      by_cases hk : k' = k
      · subst hk
        rw [step_release_self] at h
        cases h
      · rw [step_other tab (e := .release k') hk (fun ho => (nomatch ho))] at h
        exact .inr ⟨rfl, h⟩

theorem run_some {tab : K → Option T} {es : List (Event K T)} {k : K} {v : T}
    (h : run R tab es k = some v) :
    (es.filterMap (Event.used k)).getLast? = some v ∨
      es.filterMap (Event.used k) = [] ∧ tab k = some v := by
  induction es generalizing tab with
  | nil => exact .inr ⟨rfl, h⟩
  | cons e es ih =>
      obtain hlast | ⟨hnil, hstep⟩ := ih h
      · left
        cases hu : e.used k with
        | none => rw [List.filterMap_cons_none hu, hlast]
        | some u => rw [List.filterMap_cons_some hu, List.getLast?_cons, hlast, Option.getD_some]
      · obtain hu | ⟨hu, htab⟩ := step_some hstep
        · left
          rw [List.filterMap_cons_some hu, hnil, List.getLast?_singleton]
        · right
          rw [List.filterMap_cons_none hu]
          exact ⟨hnil, htab⟩

/-- **The table shows the last use.** -/
theorem last_use {es : List (Event K T)} {k : K} {v : T}
    (h : run R (fun _ => none) es k = some v) : (es.filterMap (Event.used k)).getLast? =
    some v := by
  obtain hlast | ⟨-, hnone⟩ := run_some h
  · exact hlast
  · cases hnone

end

end Leases
