/-
  File:      NutBluetti/Lib/StepMachine.lean
  Subject:   RUNS OF A PARTIAL STEP FUNCTION, and the two induction rules for them.

  A machine is a function `step : σ → ε → Option σ`: an event that is not enabled in a state has
  no successor. Nothing here knows what the states or the events are.

  * `run` -- a whole run, `none` as soon as one event is not enabled;
  * **`run_inv`** -- what every step keeps, a run keeps;
  * `Along C` -- every step of the run meets the condition `C` on the state it starts from;
  * **`run_inv_along`** -- what a step keeps when `C` holds, a run keeps that meets `C` throughout;
  * `along_at` -- the condition at one step of the run;
  * **`along_congr`** -- two conditions that agree wherever an invariant holds, agree along runs;
  * `alongCheck` -- `Along` evaluated on a run, for a condition that can be;
  * `Always P` -- every state of a run meets `P`; **`always_iff_along`** -- a condition that says
    for each step when it keeps `P`, says for a run when it never loses it;
  * **`kept_iff_along`** -- the same for a property that no step ever brings back, of the last
    state;
  * **`exists_lost`** -- a total run that loses a property loses it at one of its steps;
  * `trace` -- what a total run does, and **`trace_split`**: each deed is that of one event;
  * `AgreeOn` -- two runs on the same events that look the same at every event, and
    **`agreeOn_of_sim`**, the simulation rule for them;
  * `observed` -- what an observer who is shown only some of the events sees of a run, and
    **`observed_eq`**, the unwinding rule: two runs alike to the observer look alike.
-/
import Mathlib.Data.List.Basic

namespace StepMachine

variable {σ ε : Type*} (step : σ → ε → Option σ)

/-- The state after a run of events, if every event was enabled where it came. -/
def run (s : σ) : List ε → Option σ
  | [] => some s
  | e :: es => (step s e).bind fun s' => run s' es

@[simp] theorem run_nil (s : σ) : run step s [] = some s := rfl

@[simp] theorem run_cons (s : σ) (e : ε) (es : List ε) :
    run step s (e :: es) = (step s e).bind fun s' => run step s' es := rfl

theorem run_cons_some {s s'' : σ} {e : ε} {es : List ε} :
    run step s (e :: es) = some s'' ↔ ∃ s', step s e = some s' ∧ run step s' es = some s'' := by
  simp [Option.bind_eq_some_iff]

/-- A run goes on from where its first part ends. -/
theorem run_append {s s' : σ} {es : List ε} (h : run step s es = some s') (fs : List ε) :
    run step s (es ++ fs) = run step s' fs := by
  induction es generalizing s with
  | nil => rw [← Option.some.inj h, List.nil_append]
  | cons e es ih =>
      obtain ⟨s1, h1, h2⟩ := (run_cons_some step).mp h
      rw [List.cons_append, run_cons, h1, Option.bind_some, ih h2]

/-- **The invariant rule**: what every step keeps, every run keeps. -/
theorem run_inv {I : σ → Prop} (hstep : ∀ s e s', I s → step s e = some s' → I s')
    {s s' : σ} {es : List ε} (h0 : I s) (h : run step s es = some s') : I s' := by
  induction es generalizing s with
  | nil => exact Option.some.inj h ▸ h0
  | cons e es ih =>
      obtain ⟨s1, h1, h2⟩ := (run_cons_some step).mp h
      exact ih (hstep s e s1 h0 h1) h2

/-- Every step of the run is taken from a state where `C` holds of the state and the event. -/
def Along (C : σ → ε → Prop) : σ → List ε → Prop
  | _, [] => True
  | s, e :: es => C s e ∧ ∀ s', step s e = some s' → Along C s' es

/-- **The invariant rule under a condition**: what every step meeting `C` keeps, every run keeps
    whose steps all meet `C`. -/
theorem run_inv_along {C : σ → ε → Prop} {I : σ → Prop}
    (hstep : ∀ s e s', C s e → I s → step s e = some s' → I s')
    {s s' : σ} {es : List ε} (hC : Along step C s es) (h0 : I s)
    (h : run step s es = some s') : I s' := by
  induction es generalizing s with
  | nil => exact Option.some.inj h ▸ h0
  | cons e es ih =>
      obtain ⟨s1, h1, h2⟩ := (run_cons_some step).mp h
      exact ih (hC.2 s1 h1) (hstep s e s1 hC.1 h0 h1) h2

theorem along_at {C : σ → ε → Prop} {s s' : σ} {es fs : List ε} {e : ε}
    (hC : Along step C s (es ++ e :: fs)) (h : run step s es = some s') : C s' e := by
  induction es generalizing s with
  | nil => exact Option.some.inj h ▸ hC.1
  | cons e' es ih =>
      obtain ⟨s1, h1, h2⟩ := (run_cons_some step).mp h
      exact ih (hC.2 s1 h1) h2

/-- **Two conditions that agree wherever an invariant holds** agree along every run from there. -/
theorem along_congr {C D : σ → ε → Prop} {I : σ → Prop}
    (hstep : ∀ s e s', I s → step s e = some s' → I s') (hCD : ∀ s e, I s → (C s e ↔ D s e))
    {s : σ} (h0 : I s) (es : List ε) : Along step C s es ↔ Along step D s es := by
  induction es generalizing s with
  | nil => exact Iff.rfl
  | cons e es ih =>
      refine and_congr (hCD s e h0) (forall_congr' fun s' => ?_)
      exact forall_congr' fun hs => ih (hstep s e s' h0 hs)

/-- A condition on the events alone holds along every run of events that meet it. -/
theorem along_of_forall {C : ε → Prop} {s : σ} {es : List ε} (h : ∀ e ∈ es, C e) :
    Along step (fun _ e => C e) s es := by
  induction es generalizing s with
  | nil => trivial
  | cons e es ih =>
      obtain ⟨he, hes⟩ := List.forall_mem_cons.mp h
      exact ⟨he, fun s' _ => ih hes⟩

/-- `Along`, evaluated. -/
def alongCheck (c : σ → ε → Bool) : σ → List ε → Bool
  | _, [] => true
  | s, e :: es =>
      c s e &&
        match step s e with
        | none => true
        | some s' => alongCheck c s' es

theorem along_of_check {C : σ → ε → Prop} {c : σ → ε → Bool} (hc : ∀ s e, c s e = true → C s e)
    {s : σ} {es : List ε} (h : alongCheck step c s es = true) : Along step C s es := by
  induction es generalizing s with
  | nil => trivial
  | cons e es ih =>
      obtain ⟨he, hes⟩ := Bool.and_eq_true_iff.mp h
      refine ⟨hc s e he, fun s' hs => ih ?_⟩
      rw [hs] at hes
      exact hes

/-! ## Every state of a run -/

/-- Every state a run comes through meets `P`. -/
def Always (P : σ → Prop) : σ → List ε → Prop
  | s, [] => P s
  | s, e :: es => P s ∧ ∀ s', step s e = some s' → Always P s' es

theorem always_run {P : σ → Prop} {s s' : σ} {es : List ε} (h : Always step P s es)
    (hrun : run step s es = some s') : P s' := by
  induction es generalizing s with
  | nil => exact Option.some.inj hrun ▸ h
  | cons e es ih =>
      obtain ⟨s1, h1, h2⟩ := (run_cons_some step).mp hrun
      exact ih (h.2 s1 h1) h2

/-- **The exact condition for a run**: where each step from a state that meets `P` keeps it exactly
    under `C`, a run keeps it throughout exactly when all its steps meet `C`. -/
theorem always_iff_along {P : σ → Prop} {C : σ → ε → Prop}
    (hstep : ∀ s e, P s → (C s e ↔ ∀ s', step s e = some s' → P s')) {s : σ} (h0 : P s)
    (es : List ε) : Always step P s es ↔ Along step C s es := by
  induction es generalizing s with
  | nil => exact iff_of_true h0 trivial
  | cons e es ih =>
      constructor
      · rintro ⟨-, hrest⟩
        have hfirst : ∀ s', step s e = some s' → P s' := by
          intro s' hs
          have hs' := hrest s' hs
          cases es with
          | nil => exact hs'
          | cons _ _ => exact hs'.1
        exact ⟨(hstep s e h0).mpr hfirst, fun s' hs => (ih (hfirst s' hs)).mp (hrest s' hs)⟩
      · rintro ⟨hC, hrest⟩
        have hfirst := (hstep s e h0).mp hC
        exact ⟨h0, fun s' hs => (ih (hfirst s' hs)).mpr (hrest s' hs)⟩

/-- **The exact condition for the last state**: where every step leads to a state with `P` exactly
    from one with `P` and under `C`, a run ends with `P` exactly if it started with `P` and all its
    steps meet `C`. -/
theorem kept_iff_along {P : σ → Prop} {C : σ → ε → Prop}
    (hstep : ∀ s e s', step s e = some s' → (P s' ↔ P s ∧ C s e)) {s s' : σ} {es : List ε}
    (hrun : run step s es = some s') : P s' ↔ P s ∧ Along step C s es := by
  induction es generalizing s with
  | nil => rw [← Option.some.inj hrun]; exact (and_iff_left trivial).symm
  | cons e es ih =>
      obtain ⟨s1, h1, h2⟩ := (run_cons_some step).mp hrun
      rw [ih h2, hstep s e s1 h1, and_assoc]
      refine and_congr_right fun _ => and_congr_right fun _ => ?_
      constructor
      · intro hrest t ht
        exact Option.some.inj (h1.symm.trans ht) ▸ hrest
      · exact fun hrest => hrest s1 h1

/-! ## Where a run changes -/

/-- **Where a property is lost**: a total run that starts with `P` and ends without it has a step
    that takes a state with `P` to one without. -/
theorem exists_lost {next : σ → ε → σ} {P : σ → Prop} {s : σ} {es : List ε} (h0 : P s)
    (h1 : ¬ P (es.foldl next s)) : ∃ pre e post, es = pre ++ e :: post ∧
      P (pre.foldl next s) ∧ ¬ P (next (pre.foldl next s) e) := by
  induction es generalizing s with
  | nil => exact absurd h0 h1
  | cons e es ih =>
      by_cases he : P (next s e)
      · obtain ⟨pre, e', post, rfl, hpre, hlost⟩ := ih he h1
        exact ⟨e :: pre, e', post, rfl, hpre, hlost⟩
      · exact ⟨[], e, es, rfl, h0, he⟩

/-! ## What a run does -/

section Trace

variable {δ : Type*} {next : σ → ε → σ} {deed : σ → ε → Option δ}

/-- What a total run does, one thing after the other: `deed` is what an event does in a state,
    `none` where it does nothing that counts. -/
def trace (next : σ → ε → σ) (deed : σ → ε → Option δ) : σ → List ε → List δ
  | _, [] => []
  | s, e :: es => (deed s e).toList ++ trace next deed (next s e) es

theorem trace_append (s : σ) (es fs : List ε) :
    trace next deed s (es ++ fs) =
    trace next deed s es ++ trace next deed (es.foldl next s) fs := by
  induction es generalizing s with
  | nil => rfl
  | cons e es ih => simp only [List.cons_append, trace, ih, List.append_assoc, List.foldl_cons]

/-- **One of the things done** is done by one event of the run, in the state the run has reached. -/
theorem trace_split {s : σ} {es : List ε} {pre post : List δ} {d : δ}
    (h : trace next deed s es = pre ++ d :: post) : ∃ before e after, es = before ++ e :: after ∧
      deed (before.foldl next s) e = some d ∧ trace next deed s before = pre ∧
      trace next deed ((before ++ [e]).foldl next s) after = post := by
  induction es generalizing s pre with
  | nil => exact absurd h (by simp [trace])
  | cons e es ih =>
      cases hd : deed s e with
      | none =>
          simp only [trace, hd, Option.toList_none, List.nil_append] at h
          obtain ⟨before, e', after, rfl, hdeed, hpre, hpost⟩ := ih h
          refine ⟨e :: before, e', after, rfl, hdeed, ?_, hpost⟩
          simp only [trace, hd, Option.toList_none, List.nil_append, hpre]
      | some d' =>
          simp only [trace, hd, Option.toList_some, List.singleton_append] at h
          cases pre with
          | nil =>
              obtain ⟨rfl, hpost⟩ := List.cons.inj h
              exact ⟨[], e, es, rfl, hd, rfl, hpost⟩
          | cons p pre =>
              obtain ⟨rfl, hrest⟩ := List.cons.inj h
              obtain ⟨before, e', after, rfl, hdeed, hpre, hpost⟩ := ih hrest
              refine ⟨e :: before, e', after, rfl, hdeed, ?_, hpost⟩
              simp only [trace, hd, Option.toList_some, List.singleton_append, hpre]

/-- The run to one of its events, that event, and the run from there. -/
theorem trace_at {s : σ} {before after : List ε} {e : ε} {d : δ}
    (hd : deed (before.foldl next s) e = some d) :
    trace next deed s (before ++ e :: after) =
      trace next deed s before ++ d :: trace next deed ((before ++ [e]).foldl next s) after := by
  simp only [trace_append, trace, hd, Option.toList_some, List.singleton_append, List.foldl_append,
    List.foldl_cons, List.foldl_nil]

theorem mem_trace_iff {s : σ} {es : List ε} {d : δ} : d ∈ trace next deed s es ↔
    ∃ before e after, es = before ++ e :: after ∧ deed (before.foldl next s) e = some d := by
  constructor
  · intro hd
    obtain ⟨pre, post, heq⟩ := List.append_of_mem hd
    obtain ⟨before, e, after, hes, hdeed, -, -⟩ := trace_split heq
    exact ⟨before, e, after, hes, hdeed⟩
  · rintro ⟨before, e, after, rfl, hdeed⟩
    rw [trace_at hdeed]
    exact List.mem_append_right _ List.mem_cons_self

/-- What a view of the deeds shows. -/
theorem filterMap_trace {γ : Type*} (view : δ → Option γ) (s : σ) (es : List ε) :
    (trace next deed s es).filterMap view = trace next (fun s e => (deed s e).bind view) s es := by
  induction es generalizing s with
  | nil => rfl
  | cons e es ih =>
      simp only [trace, List.filterMap_append, ih]
      cases deed s e with
      | none => rfl
      | some d =>
          cases hv : view d <;>
            simp only [Option.toList_some, Option.bind_some, hv, List.filterMap_cons,
              List.filterMap_nil, Option.toList_none]

/-- Where the state does not matter, the deeds are those of the events. -/
theorem trace_of_events {view : ε → Option δ} (h : ∀ s e, deed s e = view e) (s : σ) (es : List ε) :
    trace next deed s es = es.filterMap view := by
  induction es generalizing s with
  | nil => rfl
  | cons e es ih =>
      rw [trace, ih, h]
      cases hv : view e with
      | none => rw [List.filterMap_cons_none hv, Option.toList_none, List.nil_append]
      | some d => rw [List.filterMap_cons_some hv, Option.toList_some, List.singleton_append]

end Trace

/-! ## Two runs -/

/-- Two runs of a total step on the same events, from `s` and from `t`: at every event the two
    states they have reached look the same. -/
def AgreeOn (next : σ → ε → σ) (same : σ → σ → ε → Prop) : σ → σ → List ε → Prop
  | _, _, [] => True
  | s, t, e :: es => same s t e ∧ AgreeOn next same (next s e) (next t e) es

/-- **The simulation rule**: states related by what every step keeps, and that look the same to
    every event, agree on all runs. -/
theorem agreeOn_of_sim {next : σ → ε → σ} {same : σ → σ → ε → Prop} {R : σ → σ → Prop}
    (hstep : ∀ s t e, R s t → R (next s e) (next t e)) (hsame : ∀ s t e, R s t → same s t e)
    {s t : σ} (h : R s t) (es : List ε) : AgreeOn next same s t es := by
  induction es generalizing s t with
  | nil => trivial
  | cons e es ih => exact ⟨hsame s t e h, ih (hstep s t e h)⟩

/-! ## Two runs, one observer -/

/-- What an observer sees of a total run: `view e` is what he is shown of an event, `none` where he
    does not notice it, and `out` what the machine answers him at an event he notices. -/
def observed {υ ο : Type*} (next : σ → ε → σ) (view : ε → Option υ) (out : σ → ε → ο) :
    σ → List ε → List ο
  | _, [] => []
  | s, e :: es =>
      if (view e).isSome then out s e :: observed next view out (next s e) es
      else observed next view out (next s e) es

section Observer

variable {υ ο : Type*} {next : σ → ε → σ} {view : ε → Option υ} {out : σ → ε → ο}
  {R : σ → σ → Prop}

theorem observed_cons_none {s : σ} {e : ε} (h : view e = none) (es : List ε) :
    observed next view out s (e :: es) = observed next view out (next s e) es := by
  simp [observed, h]

theorem observed_cons_some {s : σ} {e : ε} {u : υ} (h : view e = some u) (es : List ε) :
    observed next view out s (e :: es) = out s e :: observed next view out (next s e) es := by
  simp [observed, h]

/-- **The unwinding rule**: if states alike to the observer stay alike over an event he does not
    notice, and over two events he is shown the same of answer him the same and stay alike, then
    two runs that show him the same events look the same to him. -/
theorem observed_eq (hsymm : ∀ s t, R s t → R t s)
    (hhidden : ∀ s t e, R s t → view e = none → R (next s e) t)
    (hseen : ∀ s t e f, R s t → view e = view f → (view e).isSome →
      out s e = out t f ∧ R (next s e) (next t f))
    {s t : σ} (h : R s t) {es fs : List ε} (hv : es.filterMap view = fs.filterMap view) :
    observed next view out s es = observed next view out t fs := by
  induction es generalizing s t fs with
  | nil =>
      induction fs generalizing t with
      | nil => rfl
      | cons f fs ihf =>
          cases hf : view f with
          | some u => simp [hf] at hv
          | none =>
              rw [observed_cons_none hf]
              rw [List.filterMap_cons_none hf] at hv
              exact ihf (hsymm _ _ (hhidden t s f (hsymm _ _ h) hf)) hv
  | cons e es ih =>
      cases he : view e with
      | none =>
          rw [observed_cons_none he]
          rw [List.filterMap_cons_none he] at hv
          exact ih (hhidden s t e h he) hv
      | some u =>
          -- the other run comes to the same event after some that are not noticed
          induction fs generalizing t with
          | nil => simp [he] at hv
          | cons f fs ihf =>
              cases hf : view f with
              | none =>
                  rw [observed_cons_none hf]
                  rw [List.filterMap_cons_none hf] at hv
                  exact ihf (hsymm _ _ (hhidden t s f (hsymm _ _ h) hf)) hv
              | some u' =>
                  rw [List.filterMap_cons_some he, List.filterMap_cons_some hf] at hv
                  obtain ⟨rfl, hrest⟩ := List.cons.inj hv
                  obtain ⟨hout, hnext⟩ := hseen s t e f h (he.trans hf.symm) (by simp [he])
                  rw [observed_cons_some he, observed_cons_some hf, hout, ih hnext hrest]

end Observer

end StepMachine
