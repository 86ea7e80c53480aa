/-
  File:      NutBluetti/Pve/HostsApart.lean
  Subject:   HOSTS ARE INDEPENDENT: the hosts share the clocks and the release edge, in one loop,
             and nothing of one host reaches another.

  * `HostView`, `EngineOp.view` -- what host `i` is shown of a call or an edit: all that is shared,
    its own entry and its own guest list;
  * `evalCall_apart` -- one call, from two engines with the same clocks and the same slot `i`;
  * **`hosts_apart`** -- two runs that show host `i` the same, whatever they do to the other hosts,
    fire it and its guests at the same calls with the same reasons.
-/
import NutBluetti.Lib.StepMachine
import NutBluetti.Pve.EngineRuns

namespace NutBluetti.Pve

open StepMachine

/-! ## 1. What a host is shown -/

/-- What host `i` is shown: of a call the feature switch, the minutes of mains, the observation and
    the time, with its own entry and list; of the edits those of its own list. -/
inductive HostView where
  | eval (enabled : Bool) (mainsBackMin : UInt16) (host : PveHost) (guests : List PveGuest)
      (obs : PveObs) (nowUs : Int)
  | sync (cfgGuests : List PveGuest)

def EngineOp.view (i : HostIx) : EngineOp → Option HostView
  | .eval c => some
      (.eval c.cfg.enabled c.cfg.mainsBackMin (c.cfg.hosts i) (c.guests i) c.obs c.nowUs)
  | .sync j l => if j = i then some (.sync l) else none

/-- What comes back: whether the host fired, and its latch, its reason and its guests' entries (each
    with `fired_now` and its reason) as the call or the edit leaves them. -/
structure HostReport where
  fires : Bool
  slot : HostSlot

def EngineOp.fires (st : PveEngine) (i : HostIx) : EngineOp → Bool
  | .eval c => (evalCall st c).2.hosts i
  | .sync _ _ => false

def hostReport (i : HostIx) (st : PveEngine) (op : EngineOp) : HostReport :=
  ⟨op.fires st i, (op.apply st).slot i⟩

/-- The reports of host `i` over a run: one for each call and for each edit of its list. -/
def hostReports (i : HostIx) (st : PveEngine) (ops : List EngineOp) : List HostReport :=
  observed EngineOp.apply (EngineOp.view i) (hostReport i) st ops

/-! ## 2. Two engines alike to a host -/

/-- Two engines that are alike to host `i`. -/
structure AlikeTo (i : HostIx) (st st' : PveEngine) : Prop where
  clocks : SameClocks st st'
  slot : st'.slot i = st.slot i

theorem AlikeTo.symm {i : HostIx} {st st' : PveEngine} (h : AlikeTo i st st') :
    AlikeTo i st' st :=
  ⟨h.clocks.symm, h.slot.symm⟩

section Apart

variable {i : HostIx} {st st' : PveEngine} {c c' : EvalCall}

theorem view_eval_inj (h : EngineOp.view i (.eval c) = EngineOp.view i (.eval c')) :
    c'.cfg.enabled = c.cfg.enabled ∧ c'.cfg.mainsBackMin = c.cfg.mainsBackMin ∧
      c'.cfg.hosts i = c.cfg.hosts i ∧ c'.guests i = c.guests i ∧ c'.obs = c.obs ∧
      c'.nowUs = c.nowUs := by
  obtain ⟨h1, h2, h3, h4, h5, h6⟩ := HostView.eval.inj (Option.some.inj h)
  exact ⟨h1.symm, h2.symm, h3.symm, h4.symm, h5.symm, h6.symm⟩

/-- **One call, seen by one host**: engines alike to it stay alike, and it fires in both or in
    neither. The loop writes a slot in its own round only, from the clocks and that slot. -/
theorem evalCall_apart (h : AlikeTo i st st')
    (hv : EngineOp.view i (.eval c) = EngineOp.view i (.eval c')) :
    AlikeTo i (evalCall st c).1 (evalCall st' c').1 ∧
      (evalCall st' c').2.hosts i = (evalCall st c).2.hosts i := by
  obtain ⟨hon, hmin, hhost, hguests, hobs, hnow⟩ := view_eval_inj hv
  cases hen : c.cfg.enabled with
  | false =>
      rw [evalCall_off hen, evalCall_off (hon.trans hen)]
      exact ⟨⟨⟨rfl, h.clocks.onBatterySinceUs, rfl, h.clocks.mainsSinceUs⟩, h.slot⟩, rfl⟩
  | true =>
      have hedges := h.clocks.edges hobs hnow
      have hback := h.clocks.back hmin hobs hnow
      have hround : hostRound st' c' i = hostRound st c i := by
        unfold hostRound
        rw [hhost, hguests, hobs, hnow, hback, h.slot]
        exact evalHost_congr _ _ _ _ _ hedges _
      have hen' : c'.cfg.enabled = true := hon.trans hen
      have hclocks : SameClocks (edges st c) (evalCall st c).1 := (evalCall_on hen).1
      have hclocks' : SameClocks (edges st' c') (evalCall st' c').1 := (evalCall_on hen').1
      refine ⟨⟨hclocks.symm.trans (hedges.trans hclocks'), ?_⟩, ?_⟩
      · rw [pveEval_slot hen, pveEval_slot hen', hround]
      · rw [pveEval_hosts hen, pveEval_hosts hen', hround]

/-- An edit of another host's list is not seen. -/
theorem alikeTo_of_hidden {op : EngineOp} (h : AlikeTo i st st') (hv : op.view i = none) :
    AlikeTo i (op.apply st) st' := by
  cases op with
  | eval c => cases hv
  | sync j l =>
      have hij : i ≠ j := by
        rintro rfl
        simp [EngineOp.view] at hv
      refine ⟨⟨h.clocks.onBattery, h.clocks.onBatterySinceUs, h.clocks.onMains,
        h.clocks.mainsSinceUs⟩, ?_⟩
      have hslot : (st.sync j l).slot i = st.slot i := by
        simp only [PveEngine.slot, guests_sync_of_ne hij]
        rfl
      exact h.slot.trans hslot.symm

/-- A call or an edit the host is shown the same of reports the same to it. -/
theorem hostReport_of_view {op op' : EngineOp} (h : AlikeTo i st st') (hv : op.view i = op'.view i)
    (hseen : (op.view i).isSome) :
    hostReport i st op = hostReport i st' op' ∧ AlikeTo i (op.apply st) (op'.apply st') := by
  cases op with
  | eval c =>
      cases op' with
      | eval c' =>
          obtain ⟨halike, hfires⟩ := evalCall_apart h hv
          refine ⟨?_, halike⟩
          show HostReport.mk _ ((evalCall st c).1.slot i) = ⟨_, (evalCall st' c').1.slot i⟩
          rw [halike.slot]
          exact congrArg₂ _ hfires.symm rfl
      | sync j l =>
          by_cases hj : j = i
          · simp [EngineOp.view, hj] at hv
          · simp [EngineOp.view, hj] at hv
  | sync j l =>
      obtain rfl : j = i := by
        by_contra hj
        simp [EngineOp.view, hj] at hseen
      cases op' with
      | eval c => simp [EngineOp.view] at hv
      | sync j' l' =>
          obtain ⟨rfl, rfl⟩ : j' = j ∧ l' = l := by
            by_cases hj : j' = j
            · simpa [EngineOp.view, hj, eq_comm] using hv
            · simp [EngineOp.view, hj] at hv
          have hslot : (st'.sync j' l').slot j' = (st.sync j' l').slot j' := by
            obtain ⟨hf, hr, hg⟩ := HostSlot.mk.inj h.slot
            simp only [PveEngine.slot, guests_sync_self, hg]
            exact congrArg₂ (HostSlot.mk · · _) hf hr
          refine ⟨congrArg (HostReport.mk false) hslot.symm, ⟨⟨h.clocks.onBattery,
            h.clocks.onBatterySinceUs, h.clocks.onMains, h.clocks.mainsSinceUs⟩, hslot⟩⟩

end Apart

/-! ## 3. Runs -/

/-- **Hosts are independent**: two runs from engines with the same clocks and the same latch, reason
    and guest entries of host `i`, over calls and edits that show host `i` the same -- whatever
    else their configurations, guest lists, edits and initial latches hold for the other hosts --
    report the same to it: it fires at the same calls, and so do its guests, with the same
    reasons. -/
theorem hosts_apart (i : HostIx) (st st' : PveEngine) (ops ops' : List EngineOp)
    (hclocks : SameClocks st st') (hslot : st'.slot i = st.slot i)
    (hview : ops.filterMap (EngineOp.view i) = ops'.filterMap (EngineOp.view i)) :
    hostReports i st ops = hostReports i st' ops' :=
  observed_eq (fun _ _ => AlikeTo.symm) (fun _ _ _ => alikeTo_of_hidden)
    (fun _ _ _ _ => hostReport_of_view) ⟨hclocks, hslot⟩ hview

/-! Host 0 fires on a low charge, with its guest, whether host 1 is set up like it or is latched,
    off and edited between the calls. -/

def otherCfg : PveConfig :=
  { flapCfg with hosts := fun j => if j = 0 then flapCfg.hosts 0 else PveHost.zero }

def otherEngine : PveEngine :=
  { PveEngine.zero with
    fired := fun j => decide (j = 1)
    reason := fun j => if j = 1 then "x" else "" }

def otherOps : List EngineOp :=
  [.sync 1 [⟨7, 0, 0⟩], .sync 0 [⟨101, 0, 30⟩],
    .eval { flapCall .battery 0 with cfg := otherCfg }, .sync 1 []]

def flapOps : List EngineOp := [.sync 0 [⟨101, 0, 30⟩], .eval (flapCall .battery 0)]

theorem hosts_apart_flap :
    hostReports 0 PveEngine.zero flapOps = hostReports 0 otherEngine otherOps ∧
      (hostReports 0 PveEngine.zero flapOps).map HostReport.fires = [false, true] :=
  ⟨hosts_apart 0 PveEngine.zero otherEngine flapOps otherOps ⟨rfl, rfl, rfl, rfl⟩ rfl rfl,
    by decide⟩

end NutBluetti.Pve
