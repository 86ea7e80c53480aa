/-
  File:      NutBluetti/Pve/WorkerStart.lean
  Subject:   IS PENDING WORK PICKED UP? Only an observation that fires something starts the worker,
             so work that was left over when a start failed waits for the next trigger.

  * `Completes` -- the steps with which a call of `pve_shutdown_observe` returns, its own start of
    the worker (if it made one) successful;
  * `PickedUp` -- work that is pending has a worker;
  * `Startable` -- what an observation must find: if no worker is recorded as running, nothing is
    pending or it fires something itself; if one is, its task was created;
  * **`pickedUp_iff`** -- along any run, every completed call leaves the work picked up exactly when
    every observation finds that;
  * `startable_of_created` -- observations find it as long as every task is created at once;
  * **`shutdown_left_latched`** -- a host that fired while the task could not be created.
-/
import NutBluetti.Pve.RuntimeRuns

namespace NutBluetti.Pve

open StepMachine

/-! ## 1. The statement -/

/-- `pending_hosts` or `pending_guests` is not empty. -/
def Pending (P : Runtime) : Prop := (∃ i, P.pendingHosts i = true) ∨ P.pendingGuests ≠ []

/-- A worker task exists and has not made its last empty check. -/
def WorkerRuns (s : Sys) : Prop := ∃ w ∈ s.workers, w.alive = true

def PickedUp (s : Sys) : Prop := Pending s.P → WorkerRuns s

/-- A call returns with this step, and its own start of the worker did not fail. -/
def Completes (s : Sys) : Ev → Prop
  | .observe known onMains socPct nowUs allocOk =>
      (pveShutdownObserve s.P known onMains socPct nowUs allocOk).2 = false
  | .createTask ok => ok = true
  | _ => False

/-- What a completed call leaves. -/
def LeavesPickedUp (s : Sys) (e : Ev) : Prop :=
  Completes s e → ∀ s', step s e = some s' → PickedUp s'

/-- `any`: `pve_eval` fires a host or a guest. -/
def Fires (P : Runtime) (known onMains : Bool) (socPct nowUs : Int) : Prop :=
  (P.evalCall known onMains socPct nowUs).2.hosts.nonzero = true ∨
    firedGuests (P.evalCall known onMains socPct nowUs).1 ≠ []

/-- What it fires comes into the queue: a host, or a guest there is memory for. -/
def Queues (P : Runtime) (known onMains : Bool) (socPct nowUs : Int) (allocOk : Nat → Bool) :
    Prop :=
  (P.evalCall known onMains socPct nowUs).2.hosts.nonzero = true ∨
    keepAllocated allocOk (firedGuests (P.evalCall known onMains socPct nowUs).1) ≠ []

/-- What an observation has to find. -/
def Startable (s : Sys) : Ev → Prop
  | .observe known onMains socPct nowUs allocOk =>
      (s.P.running = false → Pending s.P → Fires s.P known onMains socPct nowUs) ∧
        (s.P.running = true → Pending s.P ∨ Queues s.P known onMains socPct nowUs allocOk →
          s.creating = 0 ∧ s.failing = 0)
  | _ => True

/-! ## 2. One call -/

section Call

variable {s : Sys} (known onMains : Bool) (socPct nowUs : Int) (allocOk : Nat → Bool)

/-- The flag, seen from the workers. -/
theorem workerRuns_iff (h : AliveInv s) :
    WorkerRuns s ↔ s.P.running = true ∧ s.creating = 0 ∧ s.failing = 0 := by
  unfold AliveInv at h
  have hpos : WorkerRuns s ↔ 0 < s.workers.countP Worker.alive := List.countP_pos_iff.symm
  rw [hpos]
  cases hr : s.P.running
  · simp only [hr, Bool.false_eq_true, if_false] at h
    simp only [Bool.false_eq_true, false_and, iff_false]
    omega
  · simp only [hr, if_true] at h
    simp only [true_and]
    omega

/-- A call starts a worker exactly when it fires something and none is recorded as running. -/
theorem observe_start_iff :
    (pveShutdownObserve s.P known onMains socPct nowUs allocOk).2 = true ↔
      s.P.running = false ∧ Fires s.P known onMains socPct nowUs := by
  unfold pveShutdownObserve Fires
  generalize s.P.evalCall known onMains socPct nowUs = e
  obtain ⟨eng, fire⟩ := e
  by_cases hany : (fire.hosts.nonzero || !(firedGuests eng).isEmpty) = true
  · have hfires : fire.hosts.nonzero = true ∨ firedGuests eng ≠ [] := by simpa using hany
    cases hrun : s.P.running <;> simp [hany, hfires]
  · have hno : ¬ (fire.hosts.nonzero = true ∨ firedGuests eng ≠ []) := by simpa using hany
    simp only [hany, hno, and_false, iff_false]
    exact Bool.false_ne_true

/-- What is pending after the call. -/
theorem pending_observe :
    Pending (pveShutdownObserve s.P known onMains socPct nowUs allocOk).1 ↔
      Pending s.P ∨ Queues s.P known onMains socPct nowUs allocOk := by
  obtain ⟨-, -, hguests, hhosts, -⟩ := observe_spec s.P known onMains socPct nowUs allocOk
  unfold Pending Queues
  rw [hguests, ne_eq, List.append_eq_nil_iff, HostMask.nonzero_iff]
  simp only [hhosts, Bool.or_eq_true, exists_or]
  tauto

/-- A call that fires nothing queues nothing. -/
theorem fires_of_queues (h : Queues s.P known onMains socPct nowUs allocOk) :
    Fires s.P known onMains socPct nowUs := by
  rcases h with h | h
  · exact .inl h
  · refine .inr fun hnil => h ?_
    rw [hnil]
    rfl

/-- What a call leaves before a worker it starts is there. -/
theorem pickedUp_observe {s' : Sys}
    (hs : step s (.observe known onMains socPct nowUs allocOk) = some s') :
    PickedUp s' ↔
      (Pending s.P ∨ Queues s.P known onMains socPct nowUs allocOk → WorkerRuns s) := by
  rw [step_observe] at hs
  obtain rfl := Option.some.inj hs
  rw [← pending_observe]
  exact Iff.rfl

/-- **One call** leaves the work picked up exactly when it finds what it has to find. -/
theorem leavesPickedUp_observe (hI : AliveInv s) :
    LeavesPickedUp s (.observe known onMains socPct nowUs allocOk) ↔
      Startable s (.observe known onMains socPct nowUs allocOk) := by
  have hstart := observe_start_iff (s := s) known onMains socPct nowUs allocOk
  have hs := step_observe s known onMains socPct nowUs allocOk
  constructor
  · intro h
    refine ⟨fun hrun hpend => ?_, fun hrun hpend => ?_⟩
    · by_contra hno
      have hquiet : (pveShutdownObserve s.P known onMains socPct nowUs allocOk).2 = false :=
        Bool.eq_false_iff.mpr fun ht => hno (hstart.mp ht).2
      have hruns := (pickedUp_observe _ _ _ _ _ hs).mp (h hquiet _ hs) (.inl hpend)
      rw [((workerRuns_iff hI).mp hruns).1] at hrun
      cases hrun
    · have hquiet : (pveShutdownObserve s.P known onMains socPct nowUs allocOk).2 = false :=
        Bool.eq_false_iff.mpr fun ht => by
          rw [(hstart.mp ht).1] at hrun
          cases hrun
      have hruns := (pickedUp_observe _ _ _ _ _ hs).mp (h hquiet _ hs) hpend
      exact ((workerRuns_iff hI).mp hruns).2
  · rintro ⟨hclear, hset⟩ hquiet s' hs'
    refine (pickedUp_observe _ _ _ _ _ hs').mpr fun hpend => (workerRuns_iff hI).mpr ?_
    cases hrun : s.P.running with
    | true => exact ⟨rfl, hset hrun hpend⟩
    | false =>
        have hfires : Fires s.P known onMains socPct nowUs := by
          rcases hpend with hpend | hqueue
          · exact hclear hrun hpend
          · exact fires_of_queues _ _ _ _ _ hqueue
        have hstarts := hstart.mpr ⟨hrun, hfires⟩
        rw [show (pveShutdownObserve s.P known onMains socPct nowUs allocOk).2 = false from hquiet]
          at hstarts
        cases hstarts

end Call

/-- Every other step that completes a call has just made the worker. -/
theorem leavesPickedUp_iff {s : Sys} (hI : AliveInv s) (e : Ev) :
    LeavesPickedUp s e ↔ Startable s e := by
  cases e with
  | observe known onMains socPct nowUs allocOk =>
      exact leavesPickedUp_observe known onMains socPct nowUs allocOk hI
  | createTask ok =>
      refine iff_of_true (fun hok s' hs _ => ?_) trivial
      obtain rfl : ok = true := hok
      obtain ⟨-, rfl⟩ := step_createTask hs
      exact ⟨.top, List.mem_append_right _ (List.mem_singleton_self _), rfl⟩
  | _ => exact iff_of_true (fun h => h.elim) trivial

/-! ## 3. Runs -/

theorem aliveInv_start (cfg : PveConfig) (guests : GuestLists) : AliveInv (Sys.start cfg guests) :=
  rfl

/-- **In every run**, every completed call leaves pending work with a worker exactly when every
    observation of it finds what it has to find. -/
theorem pickedUp_iff (cfg : PveConfig) (guests : GuestLists) (es : List Ev) :
    Along step LeavesPickedUp (Sys.start cfg guests) es ↔
      Along step Startable (Sys.start cfg guests) es :=
  along_congr step aliveInv_step (fun _ e hI => leavesPickedUp_iff hI e) (aliveInv_start cfg guests)
    es

/-- Every task is created, and before the next observation is made. -/
def CreatedAtOnce (s : Sys) : Ev → Prop
  | .observe _ _ _ _ _ => s.creating = 0
  | .createTask ok => ok = true
  | _ => True

/-- What holds as long as they are: what is pending is accounted for by the flag. -/
structure FlagHolds (s : Sys) : Prop where
  created : s.failing = 0
  pending : Pending s.P → s.P.running = true

theorem pending_of_nextHost {P : Runtime} {i : HostIx} (h : nextHost P = some i) : Pending P := by
  unfold nextHost at h
  split at h
  next k hk => exact .inl ⟨k, by simpa using List.find?_some hk⟩
  next =>
    refine .inr fun hnil => ?_
    rw [hnil] at h
    cases h

theorem not_pending_of_nextHost {P : Runtime} (h : nextHost P = none) : ¬ Pending P := by
  unfold nextHost at h
  split at h
  next => cases h
  next hk =>
    rintro (⟨i, hi⟩ | hne)
    · exact List.find?_eq_none.mp hk i (mem_hostSlots i) hi
    · exact hne (List.head?_eq_none_iff.mp (Option.map_eq_none_iff.mp h))

theorem flagHolds_step (s : Sys) (e : Ev) (s' : Sys) (hc : CreatedAtOnce s e) (hI : FlagHolds s)
    (h : step s e = some s') : FlagHolds s' := by
  cases e with
  | observe known onMains socPct nowUs allocOk =>
      rw [step_observe] at h
      obtain rfl := Option.some.inj h
      refine ⟨hI.created, fun hpend => ?_⟩
      obtain ⟨-, -, -, -, ⟨-, -, hrun⟩ | ⟨hquiet, hsame⟩⟩ :=
        observe_spec s.P known onMains socPct nowUs allocOk
      · exact hrun
      · show (pveShutdownObserve s.P known onMains socPct nowUs allocOk).1.running = true
        rw [hsame]
        by_contra hno
        have hfalse := Bool.eq_false_iff.mpr hno
        rcases (pending_observe _ _ _ _ _).mp hpend with hp | hq
        · exact hno (hI.pending hp)
        · have hstart := (observe_start_iff (s := s) known onMains socPct nowUs allocOk).mpr
            ⟨hfalse, fires_of_queues _ _ _ _ _ hq⟩
          rw [hquiet] at hstart
          cases hstart
  | createTask ok =>
      obtain rfl : ok = true := hc
      obtain ⟨-, rfl⟩ := step_createTask h
      exact ⟨hI.created, hI.pending⟩
  | resetRunning => exact absurd hI.created (step_resetRunning h).1
  | takeWork w allocOk =>
      obtain ⟨-, ⟨hn, rfl⟩ | ⟨i, job, P', hn, ht, rfl⟩⟩ := step_takeWork h
      · exact ⟨hI.created, fun hpend => absurd hpend (not_pending_of_nextHost hn)⟩
      · obtain ⟨-, -, -, -, rfl⟩ := takeWork_spec hn ht
        exact ⟨hI.created, fun _ => hI.pending (pending_of_nextHost hn)⟩
  | runHost w attempts =>
      obtain ⟨job, -, rfl⟩ := step_runHost h
      obtain ⟨-, -, hrun, hhosts, hguests⟩ := foldl_applyNote (runHost job.host job.cfg
        job.nodePending job.batch job.reason ⟨attempts, [], [], []⟩).notes s.P
      refine ⟨hI.created, fun hpend => ?_⟩
      unfold Pending at hpend
      rw [hhosts, hguests] at hpend
      exact hrun.trans (hI.pending hpend)
  | leave w =>
      obtain ⟨-, rfl⟩ := step_leave h
      exact ⟨hI.created, hI.pending⟩
  | reconfigure cfg guests =>
      obtain rfl := Option.some.inj h
      exact ⟨hI.created, hI.pending⟩

theorem along_startable {s : Sys} {es : List Ev} (hI : FlagHolds s)
    (hc : Along step CreatedAtOnce s es) : Along step Startable s es := by
  induction es generalizing s with
  | nil => trivial
  | cons e es ih =>
      refine ⟨?_, fun s' hs => ih (flagHolds_step s e s' hc.1 hI hs) (hc.2 s' hs)⟩
      cases e with
      | observe known onMains socPct nowUs allocOk =>
          refine ⟨fun hrun hpend => ?_, fun _ _ => ⟨hc.1, hI.created⟩⟩
          rw [hI.pending hpend] at hrun
          cases hrun
      | _ => trivial

/-- **As long as every task is created at once**, observations find what they have to find. -/
theorem startable_of_created (cfg : PveConfig) (guests : GuestLists) {es : List Ev}
    (hc : Along step CreatedAtOnce (Sys.start cfg guests) es) :
    Along step Startable (Sys.start cfg guests) es := by
  refine along_startable ⟨rfl, ?_⟩ hc
  rintro (⟨i, hi⟩ | hne)
  · cases hi
  · exact absurd rfl hne

/-- Host and guest fire on a low charge, the task cannot be created; a minute later the charge is as
    low as before. -/
def failedStart : List Ev :=
  [.observe true false 15 0 fun _ => true, .createTask false, .resetRunning]

/-- **A shutdown left latched**: the next observation returns with the host and the guest pending,
    and there is no worker. -/
theorem shutdown_left_latched :
    ¬ Along step LeavesPickedUp (Sys.start soloCfg soloGuests)
      (failedStart ++ [.observe true false 15 usPerMin fun _ => true]) := by
  intro h
  have hmid : (runFrom soloCfg soloGuests failedStart).any (fun s =>
      s.P.pendingHosts 0 && s.workers.isEmpty &&
        !(pveShutdownObserve s.P true false 15 usPerMin fun _ => true).2) = true := by
    decide
  obtain ⟨s, hs, hfacts⟩ := (Option.any_eq_true _ _).mp hmid
  simp only [Bool.and_eq_true, Bool.not_eq_true', List.isEmpty_iff] at hfacts
  obtain ⟨⟨hpend, hnone⟩, hquiet⟩ := hfacts
  have hstep := step_observe s true false 15 usPerMin fun _ => true
  have hleft := along_at step h hs hquiet _ hstep
  obtain ⟨w, hw, -⟩ := (pickedUp_observe _ _ _ _ _ hstep).mp hleft (.inl (.inl ⟨0, hpend⟩))
  rw [hnone] at hw
  cases hw

end NutBluetti.Pve
