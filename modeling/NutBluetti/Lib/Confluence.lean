/-
  File:      NutBluetti/Lib/Confluence.lean
  Subject:   UPDATES IN ANY ORDER AND GROUPING. A state takes updates that commute and that change
             nothing when they are made twice; after some of them something derived is brought up to
             date.

  * `applyAll` -- a list of updates, one after the other;
  * `Settling S` -- the updates of `S` commute, and each is idempotent;
  * **`applyAll_congr`** -- of such updates only the set counts;
  * `Refreshes N S` -- what `N` brings up to date does not depend on whether it was before an
    update;
  * **`run_confluent`** -- two lists of steps that make the same updates end alike, up to `N`.
-/
import Mathlib.Data.List.Basic
import Mathlib.Logic.Function.Conjugate

namespace Confluence

variable {σ α : Type*}

def applyAll (l : List (σ → σ)) (s : σ) : σ := l.foldl (fun s f => f s) s

@[simp] theorem applyAll_nil (s : σ) : applyAll [] s = s := rfl

@[simp] theorem applyAll_cons (f : σ → σ) (l : List (σ → σ)) (s : σ) :
    applyAll (f :: l) s = applyAll l (f s) := rfl

theorem applyAll_append (l m : List (σ → σ)) (s : σ) :
    applyAll (l ++ m) s = applyAll m (applyAll l s) := List.foldl_append

/-! ## 1. Updates -/

structure Settling (S : (σ → σ) → Prop) : Prop where
  comm : ∀ f g, S f → S g → Function.Commute f g
  idem : ∀ f, S f → ∀ s, f (f s) = f s

section Settling

variable {S : (σ → σ) → Prop} {l m : List (σ → σ)}

/-- One update may come first or last. -/
theorem Settling.comm_all (h : Settling S) {f : σ → σ} (hf : S f) (hl : ∀ g ∈ l, S g) (s : σ) :
    applyAll l (f s) = f (applyAll l s) := by
  induction l generalizing s with
  | nil => rfl
  | cons g l ih =>
      obtain ⟨hg, hl⟩ := List.forall_mem_cons.mp hl
      have hcomm : g (f s) = f (g s) := (h.comm g f hg hf).eq s
      rw [applyAll_cons, applyAll_cons, hcomm, ih hl]

/-- An update made once more is lost. -/
theorem Settling.absorbed (h : Settling S) (hl : ∀ g ∈ l, S g) {f : σ → σ} (hf : f ∈ l) (s : σ) :
    f (applyAll l s) = applyAll l s := by
  induction l generalizing s with
  | nil => cases hf
  | cons g l ih =>
      obtain ⟨hg, hl'⟩ := List.forall_mem_cons.mp hl
      rw [applyAll_cons]
      rcases List.mem_cons.mp hf with rfl | hf
      · rw [h.comm_all hg hl', h.idem f hg]
      · exact ih hl' hf (g s)

/-- Updates that are all made later may be left out. -/
theorem Settling.absorbs (h : Settling S) (hl : ∀ g ∈ l, S g) (hm : ∀ f ∈ m, f ∈ l) (s : σ) :
    applyAll l (applyAll m s) = applyAll l s := by
  induction m generalizing s with
  | nil => rfl
  | cons f m ih =>
      obtain ⟨hf, hm⟩ := List.forall_mem_cons.mp hm
      rw [applyAll_cons, ih hm, h.comm_all (hl f hf) hl, h.absorbed hl hf]

theorem Settling.swap (h : Settling S) (hl : ∀ g ∈ l, S g) (hm : ∀ g ∈ m, S g) (s : σ) :
    applyAll l (applyAll m s) = applyAll m (applyAll l s) := by
  induction l generalizing s with
  | nil => rfl
  | cons f l ih =>
      obtain ⟨hf, hl⟩ := List.forall_mem_cons.mp hl
      rw [applyAll_cons, applyAll_cons, ← h.comm_all hf hm, ih hl]

/-- **Only the set of updates counts.** -/
theorem applyAll_congr (h : Settling S) (hl : ∀ g ∈ l, S g) (hlm : ∀ f, f ∈ l ↔ f ∈ m) (s : σ) :
    applyAll l s = applyAll m s := by
  have hm : ∀ g ∈ m, S g := fun g hg => hl g ((hlm g).mpr hg)
  calc applyAll l s
      = applyAll l (applyAll m s) := (h.absorbs hl (fun f hf => (hlm f).mpr hf) s).symm
    _ = applyAll m (applyAll l s) := h.swap hl hm s
    _ = applyAll m s := h.absorbs hm (fun f hf => (hlm f).mp hf) s

end Settling

/-! ## 2. Steps -/

structure Refreshes (N : σ → σ) (S : (σ → σ) → Prop) : Prop where
  idem : ∀ s, N (N s) = N s
  refresh : ∀ f, S f → ∀ s, N (f (N s)) = N (f s)

section Steps

variable {S : (σ → σ) → Prop} {N : σ → σ} {l : List (σ → σ)}

theorem Refreshes.all (h : Refreshes N S) (hl : ∀ f ∈ l, S f) (s : σ) :
    N (applyAll l (N s)) = N (applyAll l s) := by
  induction l generalizing s with
  | nil => exact h.idem s
  | cons f l ih =>
      obtain ⟨hf, hl⟩ := List.forall_mem_cons.mp hl
      calc N (applyAll l (f (N s)))
          = N (applyAll l (N (f (N s)))) := (ih hl _).symm
        _ = N (applyAll l (N (f s))) := by rw [h.refresh f hf]
        _ = N (applyAll l (f s)) := ih hl _

variable {step : σ → α → σ} {made : α → List (σ → σ)} {as bs : List α}

/-- A list of steps makes the updates of all of them, up to what is brought up to date. The
    induction is on the steps. -/
theorem run_made (h : Refreshes N S) (hS : ∀ a ∈ as, ∀ f ∈ made a, S f)
    (hstep : ∀ a ∈ as, ∀ s, N (step s a) = N (applyAll (made a) s)) (s : σ) :
    N (as.foldl step s) = N (applyAll (as.flatMap made) s) := by
  induction as generalizing s with
  | nil => rfl
  | cons a as ih =>
      obtain ⟨ha, hS⟩ := List.forall_mem_cons.mp hS
      obtain ⟨hs, hstep⟩ := List.forall_mem_cons.mp hstep
      have hrest : ∀ f ∈ as.flatMap made, S f := by
        intro f hf
        obtain ⟨b, hb, hf⟩ := List.mem_flatMap.mp hf
        exact hS b hb f hf
      rw [List.foldl_cons, List.flatMap_cons, applyAll_append, ih hS hstep]
      calc N (applyAll (as.flatMap made) (step s a))
          = N (applyAll (as.flatMap made) (N (step s a))) := (h.all hrest _).symm
        _ = N (applyAll (as.flatMap made) (N (applyAll (made a) s))) := by rw [hs s]
        _ = N (applyAll (as.flatMap made) (applyAll (made a) s)) := h.all hrest _

/-- **Two lists of steps that make the same updates** end alike. -/
theorem run_confluent (hset : Settling S) (href : Refreshes N S)
    (hS : ∀ a ∈ as ++ bs, ∀ f ∈ made a, S f)
    (hstep : ∀ a ∈ as ++ bs, ∀ s, N (step s a) = N (applyAll (made a) s))
    (hsame : ∀ f, (∃ a ∈ as, f ∈ made a) ↔ ∃ b ∈ bs, f ∈ made b) (s : σ) :
    N (as.foldl step s) = N (bs.foldl step s) := by
  have hleft := fun a ha => hS a (List.mem_append_left bs ha)
  have hright := fun b hb => hS b (List.mem_append_right as hb)
  have hmade : ∀ f ∈ as.flatMap made, S f := by
    intro f hf
    obtain ⟨a, ha, hf⟩ := List.mem_flatMap.mp hf
    exact hleft a ha f hf
  have hmem : ∀ f, f ∈ as.flatMap made ↔ f ∈ bs.flatMap made := by
    intro f
    rw [List.mem_flatMap, List.mem_flatMap]
    exact hsame f
  rw [run_made href hleft (fun a ha => hstep a (List.mem_append_left bs ha)),
    run_made href hright (fun b hb => hstep b (List.mem_append_right as hb)),
    applyAll_congr hset hmade hmem]

end Steps

end Confluence
