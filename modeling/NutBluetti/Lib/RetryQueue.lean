/-
  File:      NutBluetti/Lib/RetryQueue.lean
  Subject:   A BOUNDED QUEUE AND ONE WORKER THAT TRIES AGAIN. What is put waits in line; the worker
             takes the front, tries it, perhaps misses, tries again, and at last is done with it, in
             one way or another.

  A history is the list of what happened, the newest last.

  * `waitingOf`, `heldOf` -- who waits after a history, and who the worker is at;
  * `Lawful cap` -- a history of a queue with room for `cap`, whose worker takes the front and is at
    one thing at a time;
  * **`puts_eq`** -- what was put is, in this order, what the worker is done with, what it is at,
    and what waits; so each has one fate at most and the fates come in the order of the puts;
  * `missesOf` -- the misses at what the worker is at, since it was taken;
  * `Spaced gap ts` -- times with a gap behind each, **`spaced_span`**: the last is later than the
    first by all the gaps between.
-/
import NutBluetti.Lib.History
import Mathlib.Algebra.Order.Group.Int
import Mathlib.Algebra.Ring.Int.Defs
import Mathlib.Data.Int.Order.Basic

namespace RetryQueue

open History

variable {α φ τ : Type*}

/-! ## 1. The queue -/

/-- An entry of the history. -/
inductive Ev (α φ τ : Type*) where
  | put (a : α)
  | refuse (a : α)
  | take (a : α)
  | miss (a : α) (t : τ)
  | done (a : α) (f : φ)
  deriving DecidableEq

def nextWaiting (q : List α) : Ev α φ τ → List α
  | .put a => q ++ [a]
  | .take _ => q.tail
  | _ => q

/-- Who waits, the next one first. -/
def waitingOf (log : List (Ev α φ τ)) : List α := log.foldl nextWaiting []

def nextHeld (held : Option α) : Ev α φ τ → Option α
  | .take a => some a
  | .done _ _ => none
  | _ => held

/-- Who the worker is at. -/
def heldOf (log : List (Ev α φ τ)) : Option α := log.foldl nextHeld none

/-- What may happen after a history. -/
def May (cap : Nat) (log : List (Ev α φ τ)) : Ev α φ τ → Prop
  | .put _ => (waitingOf log).length < cap
  | .refuse _ => cap ≤ (waitingOf log).length
  | .take a => (waitingOf log).head? = some a ∧ heldOf log = none
  | .miss a _ => heldOf log = some a
  | .done a _ => heldOf log = some a

abbrev Lawful (cap : Nat) (log : List (Ev α φ τ)) : Prop := EachMoment (May cap) log

def putOf : Ev α φ τ → Option α
  | .put a => some a
  | _ => none

def fateOf : Ev α φ τ → Option (α × φ)
  | .done a f => some (a, f)
  | _ => none

/-- What was put. -/
def putsOf (log : List (Ev α φ τ)) : List α := log.filterMap putOf

/-- What the worker is done with, and how. -/
def fatesOf (log : List (Ev α φ τ)) : List (α × φ) := log.filterMap fateOf

/-- What has no fate yet. -/
def owedOf (log : List (Ev α φ τ)) : List α := (heldOf log).toList ++ waitingOf log

@[simp] theorem waitingOf_snoc (log : List (Ev α φ τ)) (e : Ev α φ τ) :
    waitingOf (log ++ [e]) = nextWaiting (waitingOf log) e := by
  unfold waitingOf
  rw [List.foldl_append]
  rfl

@[simp] theorem heldOf_snoc (log : List (Ev α φ τ)) (e : Ev α φ τ) :
    heldOf (log ++ [e]) = nextHeld (heldOf log) e := by
  unfold heldOf
  rw [List.foldl_append]
  rfl

@[simp] theorem putsOf_snoc (log : List (Ev α φ τ)) (e : Ev α φ τ) :
    putsOf (log ++ [e]) = putsOf log ++ (putOf e).toList := by
  unfold putsOf
  rw [List.filterMap_append]
  cases he : putOf e with
  | none => rw [List.filterMap_cons_none he]; rfl
  | some a => rw [List.filterMap_cons_some he]; rfl

@[simp] theorem fatesOf_snoc (log : List (Ev α φ τ)) (e : Ev α φ τ) :
    fatesOf (log ++ [e]) = fatesOf log ++ (fateOf e).toList := by
  unfold fatesOf
  rw [List.filterMap_append]
  cases he : fateOf e with
  | none => rw [List.filterMap_cons_none he]; rfl
  | some a => rw [List.filterMap_cons_some he]; rfl

/-- **One fate each, in the order of the puts.** -/
theorem puts_eq {cap : Nat} {log : List (Ev α φ τ)} (h : Lawful cap log) :
    putsOf log = (fatesOf log).map Prod.fst ++ owedOf log := by
  unfold owedOf
  induction log using List.reverseRecOn with
  | nil => rfl
  | append_singleton log e ih =>
      obtain ⟨hlog, hmay⟩ := eachMoment_snoc_iff.mp h
      have hputs := ih hlog
      rw [putsOf_snoc, fatesOf_snoc, heldOf_snoc, waitingOf_snoc, hputs]
      cases e with
      | put a => simp [putOf, fateOf, nextHeld, nextWaiting]
      | refuse a => simp [putOf, fateOf, nextHeld, nextWaiting]
      | miss a t => simp [putOf, fateOf, nextHeld, nextWaiting]
      | take a =>
          obtain ⟨hfront, hidle⟩ := hmay
          obtain ⟨rest, hq⟩ : ∃ rest, waitingOf log = a :: rest := by
            cases hw : waitingOf log with
            | nil =>
                rw [hw] at hfront
                cases hfront
            | cons b rest =>
                rw [hw] at hfront
                exact ⟨rest, congrArg (· :: rest) (Option.some.inj hfront)⟩
          simp [putOf, fateOf, nextHeld, nextWaiting, hidle, hq]
      | done a f =>
          have hheld : heldOf log = some a := hmay
          simp [putOf, fateOf, nextHeld, nextWaiting, hheld]

/-- **The queue keeps within its room.** -/
theorem waiting_le {cap : Nat} {log : List (Ev α φ τ)} (h : Lawful cap log) :
    (waitingOf log).length ≤ cap := by
  induction log using List.reverseRecOn with
  | nil => exact Nat.zero_le cap
  | append_singleton log e ih =>
      obtain ⟨hlog, hmay⟩ := eachMoment_snoc_iff.mp h
      have hle := ih hlog
      rw [waitingOf_snoc]
      cases e with
      | put a =>
          have hroom : (waitingOf log).length < cap := hmay
          show (waitingOf log ++ [a]).length ≤ cap
          rw [List.length_append, List.length_singleton]
          exact hroom
      | take a =>
          show (waitingOf log).tail.length ≤ cap
          rw [List.length_tail]
          omega
      | refuse a => exact hle
      | miss a t => exact hle
      | done a f => exact hle

/-! ## 2. Tries -/

def nextMisses (ts : List τ) : Ev α φ τ → List τ
  | .take _ => []
  | .miss _ t => ts ++ [t]
  | _ => ts

/-- The misses since the last time something was taken. -/
def missesOf (log : List (Ev α φ τ)) : List τ := log.foldl nextMisses []

@[simp] theorem missesOf_snoc (log : List (Ev α φ τ)) (e : Ev α φ τ) :
    missesOf (log ++ [e]) = nextMisses (missesOf log) e := by
  unfold missesOf
  rw [List.foldl_append]
  rfl

/-- A miss since the last take is one of the history. -/
theorem mem_missesOf {log : List (Ev α φ τ)} {t : τ} (h : t ∈ missesOf log) :
    ∃ a, Ev.miss a t ∈ log := by
  induction log using List.reverseRecOn with
  | nil => exact absurd h List.not_mem_nil
  | append_singleton log e ih =>
      have hold : t ∈ missesOf log → ∃ a, Ev.miss a t ∈ log ++ [e] := by
        intro hm
        obtain ⟨a, ha⟩ := ih hm
        exact ⟨a, List.mem_append_left _ ha⟩
      rw [missesOf_snoc] at h
      cases e with
      | put a => exact hold h
      | refuse a => exact hold h
      | done a f => exact hold h
      | take a => exact absurd h List.not_mem_nil
      | miss a t' =>
          rcases List.mem_append.mp h with hm | hm
          · exact hold hm
          · rw [List.mem_singleton.mp hm]
            exact ⟨a, by simp⟩

/-- Each time is followed, at the next, by at least its gap. -/
def Spaced (gap : Nat → Int) (ts : List Int) : Prop :=
  ∀ k t t', ts[k]? = some t → ts[k + 1]? = some t' → t + gap k ≤ t'

theorem spaced_nil (gap : Nat → Int) : Spaced gap [] := by
  intro k t t' hk
  cases hk

/-- One more time, far enough behind the last. -/
theorem spaced_snoc {gap : Nat → Int} {ts : List Int} {t' : Int} (h : Spaced gap ts)
    (hlast : ∀ t, ts.getLast? = some t → t + gap (ts.length - 1) ≤ t') :
    Spaced gap (ts ++ [t']) := by
  intro k t u hk hk'
  rw [List.getElem?_append] at hk hk'
  by_cases hin : k + 1 < ts.length
  · rw [if_pos (by omega)] at hk
    rw [if_pos hin] at hk'
    exact h k t u hk hk'
  · rw [if_neg hin] at hk'
    have hend : k + 1 = ts.length := by
      have hlt := (List.getElem?_eq_some_iff.mp hk').1
      rw [List.length_singleton] at hlt
      omega
    rw [hend, Nat.sub_self, List.getElem?_cons_zero, Option.some.injEq] at hk'
    rw [if_pos (by omega)] at hk
    have hk1 : ts.length - 1 = k := by omega
    have hl := hlast t (by rw [List.getLast?_eq_getElem?, hk1, hk])
    rw [hk1] at hl
    omega

/-- **The span of spaced times**: all the gaps between the first and the last. -/
theorem spaced_span {gap : Nat → Int} {ts : List Int} (h : Spaced gap ts) {n : Nat} {t0 t : Int}
    (h0 : ts[0]? = some t0) (hn : ts[n]? = some t) : t0 + ((List.range n).map gap).sum ≤ t := by
  induction n generalizing t with
  | zero =>
      obtain rfl := Option.some.inj (h0.symm.trans hn)
      simp
  | succ n ih =>
      have hlt := (List.getElem?_eq_some_iff.mp hn).1
      have hprev : ts[n]? = some ts[n] := List.getElem?_eq_getElem (by omega)
      have hle := ih hprev
      have hgap := h n _ _ hprev hn
      rw [List.range_succ, List.map_append, List.sum_append]
      simp only [List.map_cons, List.map_nil, List.sum_cons, List.sum_nil, add_zero]
      omega

end RetryQueue
