/-
  File:      NutBluetti/Pve/SendGates.lean
  Subject:   UNDER WHICH CONFIGURATION A SHUTDOWN REQUEST IS SENT. `run_host` re-checks three gates
             in the snapshot its worker took (armed, the slot in use, pinned); it does not re-check
             that the feature is on at all, and `pve_shutdown_reconfigure` leaves what is queued
             where it is.

  * `GatesAtSend` -- every request of the history was sent under a snapshot with all gates open;
  * `Watched` -- the runtime, and beside it which of the queued work is from before a
    reconfiguration that closed a gate of its host; every pass is recorded with the old work it
    took;
  * `OldUntouched` -- no pass that took such work sent a request;
  * **`sent_after_switch_off`** -- two runs that break them: the feature is switched off between the
    trigger and the worker's first pass; the host is disarmed and armed again before it;
  * `SwitchIdle` -- the condition on a reconfiguration that leaves no such work behind;
  * **`gates_at_send`** -- every run whose reconfigurations meet it keeps both.
-/
import NutBluetti.Pve.RuntimeRuns

namespace NutBluetti.Pve

open CText KeyedList

/-! ## 1. The gates -/

/-- All four gates: the feature is on, and the three `run_host` looks at. -/
def SendGates (cfg : PveConfig) (i : HostIx) : Prop :=
  cfg.enabled = true ∧ RunHostGates cfg i

/-- Every request written to a server was sent under a snapshot with all four gates open. -/
def GatesAtSend (s : Sys) : Prop :=
  ∀ job r, .sent job r ∈ s.log → SendGates job.cfg job.host

/-- Host `i` has work queued: the node, or a guest. -/
def HasWork (P : Runtime) (i : HostIx) : Prop :=
  P.pendingHosts i = true ∨ ∃ g ∈ P.pendingGuests, g.host = i

/-! ## 2. Work from before a gate closed -/

/-- What a user can close: the feature, the arming, and of the host its switch, URL and
    fingerprint. -/
inductive Gate where
  | feature | armed | host | url | fingerprint

def Gate.all : List Gate := [.feature, .armed, .host, .url, .fingerprint]

def Gate.isOpen (cfg : PveConfig) (i : HostIx) : Gate → Bool
  | .feature => cfg.enabled
  | .armed => cfg.armed
  | .host => (cfg.hosts i).enabled
  | .url => (cfg.hosts i).url != ""
  | .fingerprint => (cfg.hosts i).fingerprint != ""

/-- A gate of host `i` that was open is closed. -/
def closes (old new : PveConfig) (i : HostIx) : Bool :=
  Gate.all.any fun g => g.isOpen old i && !g.isOpen new i

/-- A pass of a worker, and the work it took from before a gate closed. -/
structure Pass where
  job : Job
  oldNode : Bool
  oldGuests : List PendingGuest

def Pass.Old (p : Pass) : Prop := p.oldNode = true ∨ p.oldGuests ≠ []

instance (p : Pass) : Decidable p.Old := inferInstanceAs (Decidable (_ ∨ _))

/-- **The runtime, watched**: of the queued work of each host, what was queued before a
    reconfiguration closed one of its gates; and the passes so far. -/
structure Watched where
  sys : Sys
  oldNode : HostMask
  oldGuests : HostIx → List PendingGuest
  passes : List Pass

def Watched.start (cfg : PveConfig) (guests : GuestLists) : Watched where
  sys := Sys.start cfg guests
  oldNode := HostMask.none
  oldGuests := fun _ => []
  passes := []

/-- Old work of host `i` is queued. -/
def Watched.HasOld (t : Watched) (i : HostIx) : Prop :=
  t.oldNode i = true ∨ t.oldGuests i ≠ []

/-- A reconfiguration makes all that is queued for a host old, if it closes a gate of the host. -/
def Watched.mark (t : Watched) (cfg : PveConfig) : Watched :=
  { t with
    oldNode := fun i =>
      if closes t.sys.P.cfg cfg i then t.sys.P.pendingHosts i else t.oldNode i
    oldGuests := fun i =>
      if closes t.sys.P.cfg cfg i then t.sys.P.pendingGuests.filter fun g => g.host = i
      else t.oldGuests i }

/-- A pass takes the old work of its host along. -/
def Watched.hand (t : Watched) (job : Job) : Watched :=
  { t with
    oldNode := t.oldNode.clear job.host
    oldGuests := Function.update t.oldGuests job.host []
    passes := t.passes ++ [⟨job, t.oldNode job.host, t.oldGuests job.host⟩] }

/-- What an event does to the old work. A trigger that fires for the node once more makes its work
    new again. -/
def Watched.track (t : Watched) : Ev → Watched
  | .observe known onMains socPct nowUs _ =>
      let fire := (t.sys.P.evalCall known onMains socPct nowUs).2
      { t with oldNode := fun i => t.oldNode i && !fire.hosts i }
  | .takeWork _ allocOk =>
      match (takeWork t.sys.P allocOk).1 with
      | some job => t.hand job
      | none => t
  | .reconfigure cfg _ => t.mark cfg
  | _ => t

/-- **One step**: the runtime's own, and what it does to the old work. -/
def watchedStep (t : Watched) (e : Ev) : Option Watched :=
  (step t.sys e).map fun s => { t.track e with sys := s }

/-- Every request was sent in a recorded pass, and in none that took old work. -/
def OldUntouched (t : Watched) : Prop :=
  ∀ job r, .sent job r ∈ t.sys.log →
    (∃ p ∈ t.passes, p.job = job) ∧ ∀ p ∈ t.passes, p.job = job → ¬ p.Old

/-- After a reconfiguration no old work is queued for a host that `run_host` would act on: armed, in
    use and pinned. Every other event is free. -/
def SwitchIdle (t : Watched) : Ev → Prop
  | .reconfigure cfg _ => ∀ i, RunHostGates cfg i → ¬ (t.mark cfg).HasOld i
  | _ => True

/-- What is watched is the runtime itself. -/
theorem watched_run {t t' : Watched} {es : List Ev}
    (h : StepMachine.run watchedStep t es = some t') :
    StepMachine.run step t.sys es = some t'.sys := by
  induction es generalizing t with
  | nil => exact congrArg (Option.map Watched.sys) h
  | cons e es ih =>
      obtain ⟨t1, h1, h2⟩ := (StepMachine.run_cons_some watchedStep).mp h
      obtain ⟨s, hs, rfl⟩ := Option.map_eq_some_iff.mp h1
      exact (StepMachine.run_cons_some step).mpr ⟨s, hs, ih h2⟩

/-- The runtime's run is watched to its end. -/
theorem watched_lift {t : Watched} {es : List Ev} {s : Sys}
    (h : StepMachine.run step t.sys es = some s) :
    ∃ t', StepMachine.run watchedStep t es = some t' ∧ t'.sys = s := by
  induction es generalizing t with
  | nil => exact ⟨t, rfl, Option.some.inj h⟩
  | cons e es ih =>
      obtain ⟨s₁, h₁, h₂⟩ := (StepMachine.run_cons_some step).mp h
      have h₁' : watchedStep t e = some { t.track e with sys := s₁ } := by
        rw [watchedStep, h₁]
        rfl
      obtain ⟨t', ht', hs⟩ := ih (t := { t.track e with sys := s₁ }) h₂
      exact ⟨t', (StepMachine.run_cons_some watchedStep).mpr ⟨_, h₁', ht'⟩, hs⟩

/-! ## 3. Runs that send all the same -/

/-- The trigger fires, the feature is switched off, and only then the worker makes its pass. -/
def switchOffRun : List Ev :=
  [.observe true false 15 0 fun _ => true,
    .reconfigure { soloCfg with enabled := false } soloGuests,
    .createTask true,
    .takeWork 0 fun _ => true,
    .runHost 0 (List.replicate 2 (.certificate (List.replicate 32 0xAB) (.reply (some 200) "")))]

/-- The paths of the requests sent with the feature off in the snapshot. -/
def sentOff (log : List LogEntry) : List String :=
  log.filterMap fun
    | .sent job r => if job.cfg.enabled then none else some r.path
    | _ => none

theorem sentOff_append (l l' : List LogEntry) : sentOff (l ++ l') = sentOff l ++ sentOff l' :=
  List.filterMap_append

theorem sentOff_map {job : Job} (hoff : job.cfg.enabled = false) (rs : List Request) :
    sentOff (rs.map (.sent job)) = rs.map Request.path := by
  unfold sentOff
  rw [List.filterMap_map]
  simp [hoff]

def LogEntry.isSent : LogEntry → Bool
  | .sent _ _ => true
  | _ => false

theorem sentOff_quiet {log : List LogEntry} (h : ∀ e ∈ log, e.isSent = false) :
    sentOff log = [] := by
  refine List.filterMap_eq_nil_iff.mpr fun e he => ?_
  cases e with
  | sent job r => cases h _ he
  | _ => rfl

theorem not_gatesAtSend_of_sentOff {s : Sys} {path : String} (h : path ∈ sentOff s.log) :
    ¬ GatesAtSend s := by
  intro hg
  obtain ⟨e, he, hpath⟩ := List.mem_filterMap.mp h
  cases e with
  | sent job r =>
      have hon := (hg job r he).1
      simp [hon] at hpath
  | _ => cases hpath

/-- The host of `soloCfg`, answered by its own server. -/
theorem soloHost_showsPin :
    ShowsPin (soloCfg.hosts 0) "10.0.0.10" "8006" (List.replicate 32 0xAB) where
  url := by decide
  pinned := by decide
  shown := rfl
  fits := by decide

/-- Both requests of the pass are accepted. -/
def soloAnswers : List TlsAttempt := List.replicate 2 (accepts (List.replicate 32 0xAB))

/-- Host and guest of `soloCfg` are both due. -/
def SoloJob (job : Job) : Prop :=
  job.host = 0 ∧ job.nodePending = true ∧ job.batch.map PendingGuest.id = [101] ∧
    job.cfg.armed = true ∧ job.cfg.hosts 0 = soloCfg.hosts 0

instance (job : Job) : Decidable (SoloJob job) := inferInstanceAs (Decidable (_ ∧ _))

theorem soloJob_sent {job : Job} (hjob : SoloJob job) :
    (Pve.runHost job.host job.cfg job.nodePending job.batch job.reason
      ⟨soloAnswers, [], [], []⟩).sent.map Request.path =
      ["/nodes/pve1/qemu/101/status/shutdown", "/nodes/pve1/status"] := by
  obtain ⟨hi, hnode, hbatch, harmed, hhost⟩ := hjob
  have hlen : job.batch.length = 1 := by
    rw [← List.length_map PendingGuest.id, hbatch]
    rfl
  have hgates : RunHostGates job.cfg 0 := by
    unfold RunHostGates
    rw [hhost]
    exact ⟨harmed, by decide⟩
  have hsent := (runHost_accepted hgates (hhost ▸ soloHost_showsPin) (by rw [hhost]; decide)
    (w := ⟨soloAnswers, [], [], []⟩) (by rw [hlen]; rfl) job.reason).sent
  rw [hi, hnode, hsent, hhost, hbatch]
  decide

/-- The work in the hands of the first worker. -/
def Sys.firstJob (s : Sys) : Option Job :=
  match s.workers with
  | .acting job :: _ => some job
  | _ => none

/-- The first worker has the pass over the host in hand, and nothing was sent so far. -/
def soloDue (enabled : Bool) (s : Sys) : Bool :=
  s.firstJob.any (fun job => decide (SoloJob job ∧ job.cfg.enabled = enabled)) &&
    s.log.all fun e => !e.isSent

theorem firstJob_some {s : Sys} {job : Job} (h : s.firstJob = some job) :
    s.workers[0]? = some (.acting job) := by
  unfold Sys.firstJob at h
  split at h
  · rename_i job' rest hw
    rw [hw, ← Option.some.inj h]
    rfl
  · cases h

/-- The pass of a run that is about to make it. -/
theorem soloPass (es : List Ev) (enabled : Bool)
    (hdue : (runFrom soloCfg soloGuests es).any (soloDue enabled) = true) :
    ∃ (s : Sys) (log : List LogEntry) (job : Job) (rs : List Request),
      runFrom soloCfg soloGuests (es ++ [.runHost 0 soloAnswers]) = some s ∧
      s.log = log ++ rs.map (.sent job) ∧ (∀ e ∈ log, e.isSent = false) ∧
      job.cfg.enabled = enabled ∧
      rs.map Request.path = ["/nodes/pve1/qemu/101/status/shutdown", "/nodes/pve1/status"] := by
  obtain ⟨s, hs, hd⟩ := (Option.any_eq_true _ _).mp hdue
  obtain ⟨hfirst, hlog⟩ := Bool.and_eq_true_iff.mp hd
  obtain ⟨job, hjob, hpass⟩ := (Option.any_eq_true _ _).mp hfirst
  obtain ⟨hsolo, hon⟩ := of_decide_eq_true hpass
  have hworker := firstJob_some hjob
  obtain ⟨s', hs'⟩ : ∃ s', step s (.runHost 0 soloAnswers) = some s' := by
    simp only [step, hworker, Option.some.injEq, exists_eq']
  obtain ⟨job', hworker', hafter⟩ := step_runHost hs'
  obtain rfl : job' = job := by simpa [hworker] using hworker'.symm
  refine ⟨s', s.log, job', _, ?_, by rw [hafter], fun e he => ?_, hon, soloJob_sent hsolo⟩
  · rw [runFrom, StepMachine.run_append step hs, StepMachine.run_cons, hs']
    rfl
  · simpa using List.all_eq_true.mp hlog e he

/-- Who works and who sent has its pass recorded. -/
structure Recorded (t : Watched) : Prop where
  acting : ∀ job, .acting job ∈ t.sys.workers → ∃ p ∈ t.passes, p.job = job
  sent : ∀ job r, .sent job r ∈ t.sys.log → ∃ p ∈ t.passes, p.job = job

/-- What a pass takes is recorded. -/
theorem track_takeWork {t : Watched} {w : Nat} {allocOk : Nat → Bool} {job : Job} {P' : Runtime}
    (h : takeWork t.sys.P allocOk = (some job, P')) :
    t.track (.takeWork w allocOk) = t.hand job := by
  simp only [Watched.track, h]

theorem recorded_step (t : Watched) (e : Ev) (t' : Watched) (hI : Recorded t)
    (h : watchedStep t e = some t') : Recorded t' := by
  obtain ⟨s', hs, rfl⟩ := Option.map_eq_some_iff.mp h
  cases e with
  | observe known onMains socPct nowUs allocOk =>
      rw [step_observe] at hs
      obtain rfl := Option.some.inj hs
      refine ⟨hI.acting, fun job r hr => ?_⟩
      rcases List.mem_append.mp hr with hr | hr
      · exact hI.sent job r hr
      · rcases mem_reported _ hr with ⟨j, -, hj⟩ | ⟨g, -, hg⟩
        · cases hj
        · cases hg
  | createTask ok =>
      obtain ⟨-, rfl⟩ := step_createTask hs
      cases ok with
      | false => exact ⟨hI.acting, hI.sent⟩
      | true =>
          refine ⟨fun job hjob => ?_, hI.sent⟩
          rcases List.mem_append.mp hjob with hjob | hjob
          · exact hI.acting job hjob
          · simp at hjob
  | resetRunning =>
      obtain ⟨-, rfl⟩ := step_resetRunning hs
      exact ⟨hI.acting, hI.sent⟩
  | takeWork w allocOk =>
      obtain ⟨-, ⟨hn, rfl⟩ | ⟨i, job, P', -, ht, rfl⟩⟩ := step_takeWork hs
      · have htrack : t.track (.takeWork w allocOk) = t := by
          simp only [Watched.track, takeWork, hn]
        rw [htrack]
        refine ⟨fun job hjob => ?_, hI.sent⟩
        rcases List.mem_or_eq_of_mem_set hjob with hjob | hjob
        · exact hI.acting job hjob
        · cases hjob
      · rw [track_takeWork ht]
        have hmore : ∀ job', (∃ p ∈ t.passes, p.job = job') →
            ∃ p ∈ (t.hand job).passes, p.job = job' := by
          intro job' hjob
          obtain ⟨p, hp, hpj⟩ := hjob
          exact ⟨p, List.mem_append_left _ hp, hpj⟩
        refine ⟨fun job' hjob => ?_, fun job' r hr => ?_⟩
        · rcases List.mem_or_eq_of_mem_set hjob with hjob | hjob
          · exact hmore job' (hI.acting job' hjob)
          · obtain rfl : job' = job := by simpa using hjob
            exact ⟨_, List.mem_append_right _ List.mem_cons_self, rfl⟩
        · rcases List.mem_append.mp hr with hr | hr
          · exact hmore job' (hI.sent job' r hr)
          · simp at hr
  | runHost w attempts =>
      obtain ⟨job, hw, rfl⟩ := step_runHost hs
      refine ⟨fun job' hjob => ?_, fun job' r hr => ?_⟩
      · rcases List.mem_or_eq_of_mem_set hjob with hjob | hjob
        · exact hI.acting job' hjob
        · cases hjob
      · rcases List.mem_append.mp hr with hr | hr
        · exact hI.sent job' r hr
        · obtain ⟨r', -, heq⟩ := List.mem_map.mp hr
          obtain ⟨rfl, rfl⟩ : job = job' ∧ r' = r := by simpa using heq
          exact hI.acting job (List.mem_of_getElem? hw)
  | leave w =>
      obtain ⟨-, rfl⟩ := step_leave hs
      exact ⟨fun job hjob => hI.acting job (List.mem_of_mem_eraseIdx hjob), hI.sent⟩
  | reconfigure cfg guests =>
      obtain rfl := Option.some.inj hs
      exact ⟨hI.acting, hI.sent⟩

theorem recorded_run {cfg : PveConfig} {guests : GuestLists} {es : List Ev} {t : Watched}
    (h : StepMachine.run watchedStep (.start cfg guests) es = some t) : Recorded t := by
  have h0 : Recorded (.start cfg guests) :=
    ⟨fun _ hjob => absurd hjob List.not_mem_nil, fun _ _ hr => absurd hr List.not_mem_nil⟩
  exact StepMachine.run_inv watchedStep recorded_step h0 h

/-- A request sent where every pass took old work. -/
theorem not_oldUntouched {t : Watched} (hI : Recorded t) (hold : ∀ p ∈ t.passes, p.Old) {job : Job}
    {r : Request} (hr : .sent job r ∈ t.sys.log) : ¬ OldUntouched t := by
  intro hun
  obtain ⟨p, hp, hpj⟩ := hI.sent job r hr
  exact (hun job r hr).2 p hp hpj (hold p hp)

/-- The trigger fires, the host is disarmed and armed again, and only then the worker makes its
    pass. -/
def rearmRun : List Ev :=
  [.observe true false 15 0 fun _ => true,
    .reconfigure { soloCfg with armed := false } soloGuests, .reconfigure soloCfg soloGuests,
    .createTask true, .takeWork 0 fun _ => true]

/-- Before the pass everything is due, and from before the disarming. -/
theorem rearmRun_due :
    (StepMachine.run watchedStep (.start soloCfg soloGuests) rearmRun).any
      (fun t => soloDue true t.sys && t.passes.all fun p => decide p.Old) = true := by
  decide

/-- **With the feature switched off the guest and the node are shut down**; and so they are on a
    trigger from before the host was disarmed. -/
theorem sent_after_switch_off :
    (∃ t, StepMachine.run watchedStep (.start soloCfg soloGuests) switchOffRun = some t ∧
      ¬ GatesAtSend t.sys ∧
      sentOff t.sys.log = ["/nodes/pve1/qemu/101/status/shutdown", "/nodes/pve1/status"]) ∧
    ∃ (t : Watched) (job : Job) (rs : List Request),
      StepMachine.run watchedStep (.start soloCfg soloGuests)
        (rearmRun ++ [.runHost 0 soloAnswers]) = some t ∧ ¬ OldUntouched t ∧
      (∀ r ∈ rs, .sent job r ∈ t.sys.log) ∧
      rs.map Request.path = ["/nodes/pve1/qemu/101/status/shutdown", "/nodes/pve1/status"] := by
  constructor
  · obtain ⟨s, log, job, rs, hs, hlog, hquiet, hoff, hpaths⟩ := soloPass
      [.observe true false 15 0 fun _ => true,
        .reconfigure { soloCfg with enabled := false } soloGuests, .createTask true,
        .takeWork 0 fun _ => true] false (by decide)
    obtain ⟨t, ht, rfl⟩ := watched_lift (t := .start soloCfg soloGuests) hs
    have hsent : sentOff t.sys.log =
        ["/nodes/pve1/qemu/101/status/shutdown", "/nodes/pve1/status"] := by
      rw [hlog, sentOff_append, sentOff_quiet hquiet, List.nil_append, sentOff_map hoff, hpaths]
    exact ⟨t, ht, not_gatesAtSend_of_sentOff (by rw [hsent]; exact List.mem_cons_self), hsent⟩
  · obtain ⟨t₁, ht₁, hdue⟩ := (Option.any_eq_true _ _).mp rearmRun_due
    obtain ⟨hsolo, hold⟩ := Bool.and_eq_true_iff.mp hdue
    obtain ⟨s, log, job, rs, hs, hlog, -, -, hpaths⟩ := soloPass rearmRun true
      ((Option.any_eq_true _ _).mpr ⟨t₁.sys, watched_run ht₁, hsolo⟩)
    obtain ⟨t, ht, rfl⟩ := watched_lift (t := .start soloCfg soloGuests) hs
    have hmem : ∀ r ∈ rs, .sent job r ∈ t.sys.log := fun r hr => by
      rw [hlog]
      exact List.mem_append_right _ (List.mem_map_of_mem hr)
    -- the pass itself records nothing
    have hpasses : t.passes = t₁.passes := by
      rw [StepMachine.run_append watchedStep ht₁, StepMachine.run_cons] at ht
      obtain ⟨t₂, h₂, h₃⟩ := Option.bind_eq_some_iff.mp ht
      obtain ⟨s₂, -, rfl⟩ := Option.map_eq_some_iff.mp h₂
      rw [← Option.some.inj h₃]
      rfl
    have hall : ∀ p ∈ t.passes, p.Old := fun p hp =>
      of_decide_eq_true (List.all_eq_true.mp hold p (hpasses ▸ hp))
    obtain ⟨r, hr⟩ : ∃ r, r ∈ rs := by
      refine List.exists_mem_of_ne_nil rs fun hnil => ?_
      rw [hnil] at hpaths
      cases hpaths
    exact ⟨t, job, rs, ht, not_oldUntouched (recorded_run ht) hall (hmem r hr), hmem, hpaths⟩

/-! ## 4. The runs that do not -/

/-- The invariant: while the feature is off the engine reports nothing and all that is queued is
    old; what is old is for hosts with a closed gate, and so is what a worker took; and what was
    sent was sent with open gates. -/
structure GateInv (t : Watched) : Prop where
  quiet : t.sys.P.cfg.enabled = false → ∀ i, ∀ gs ∈ t.sys.P.eng.guests i, gs.firedNow = false
  queued : t.sys.P.cfg.enabled = false → ∀ i, HasWork t.sys.P i → t.HasOld i
  idle : ∀ i, RunHostGates t.sys.P.cfg i → ¬ t.HasOld i
  taken : ∀ job, .acting job ∈ t.sys.workers → job.cfg.enabled = false →
    ¬ RunHostGates job.cfg job.host
  passed : ∀ p ∈ t.passes, p.Old → ¬ RunHostGates p.job.cfg p.job.host
  clean : GatesAtSend t.sys

theorem sync_firedNow {stGuests : List GuestEngine} {l : List PveGuest} {gs : GuestEngine}
    (h : gs ∈ pveEngineSyncGuests stGuests l) : gs.firedNow = false := by
  obtain ⟨g, -, rfl⟩ := List.mem_map.mp h
  exact freshGuest_firedNow stGuests g

theorem hasWork_of_nextHost {P : Runtime} {i : HostIx} (h : nextHost P = some i) : HasWork P i := by
  unfold nextHost at h
  split at h
  · rename_i k hk
    obtain rfl := Option.some.inj h
    exact .inl (by simpa using List.find?_some hk)
  · obtain ⟨g, hg, rfl⟩ := Option.map_eq_some_iff.mp h
    exact .inr ⟨g, List.mem_of_head? hg, rfl⟩

/-- With the feature off nothing is reported. -/
theorem Runtime.evalCall_off {P : Runtime} (hoff : P.cfg.enabled = false) (known onMains : Bool)
    (socPct nowUs : Int) : P.evalCall known onMains socPct nowUs =
      ({ P.eng with onBattery := false, onMains := false }, ⟨HostMask.none⟩) := by
  simp [Runtime.evalCall, pveEval, hoff]

/-- Switching off closes a gate of every host. -/
theorem closes_off {old new : PveConfig} (hon : old.enabled = true) (hoff : new.enabled = false)
    (i : HostIx) : closes old new i = true := by
  simp [closes, Gate.all, Gate.isOpen, hon, hoff]

/-- What a reconfiguration makes old is what is queued. -/
theorem hasOld_mark {t : Watched} {cfg : PveConfig} {i : HostIx}
    (hc : closes t.sys.P.cfg cfg i = true) : (t.mark cfg).HasOld i ↔ HasWork t.sys.P i := by
  simp only [Watched.HasOld, Watched.mark, if_pos hc, HasWork]
  refine or_congr_right ?_
  rw [ne_eq, List.filter_eq_nil_iff]
  simp

theorem hasOld_mark_other {t : Watched} {cfg : PveConfig} {i : HostIx}
    (hc : ¬ closes t.sys.P.cfg cfg i = true) : (t.mark cfg).HasOld i ↔ t.HasOld i := by
  simp only [Watched.HasOld, Watched.mark, if_neg hc]

/-- A pass leaves no old work of its host. -/
theorem hasOld_hand {t : Watched} {job : Job} {i : HostIx} :
    (t.hand job).HasOld i ↔ i ≠ job.host ∧ t.HasOld i := by
  by_cases hi : i = job.host
  · subst hi
    simp [Watched.HasOld, Watched.hand, HostMask.clear]
  · simp [Watched.HasOld, Watched.hand, HostMask.clear, hi]

section GateSteps

variable {t : Watched} {s' : Sys}

theorem GateInv.observe (hI : GateInv t) {known onMains : Bool} {socPct nowUs : Int}
    {allocOk : Nat → Bool} (h : step t.sys (.observe known onMains socPct nowUs allocOk) =
    some s') :
    GateInv { t.track (.observe known onMains socPct nowUs allocOk) with sys := s' } := by
  rw [step_observe] at h
  obtain rfl := Option.some.inj h
  obtain ⟨hcfg, heng, hguests, hhosts, -⟩ :=
    observe_spec t.sys.P known onMains socPct nowUs allocOk
  have hfewer : ∀ i,
      (t.track (.observe known onMains socPct nowUs allocOk)).HasOld i → t.HasOld i := by
    intro i hold
    rcases hold with hold | hold
    · exact .inl (Bool.and_eq_true_iff.mp hold).1
    · exact .inr hold
  have hclean : ∀ job r,
      .sent job r ∈ t.sys.log ++ reported (t.sys.P.evalCall known onMains socPct nowUs) →
        SendGates job.cfg job.host := by
    intro job r hr
    rcases List.mem_append.mp hr with hr | hr
    · exact hI.clean job r hr
    · rcases mem_reported _ hr with ⟨j, -, hj⟩ | ⟨g, -, hg⟩
      · cases hj
      · cases hg
  refine ⟨fun hoff => ?_, fun hoff i hw => ?_, fun i hgates hold => ?_, hI.taken, hI.passed, hclean⟩
  · simp only [hcfg] at hoff
    simp only [heng, Runtime.evalCall_off hoff]
    exact hI.quiet hoff
  · simp only [hcfg] at hoff
    have hnone : firedGuests { t.sys.P.eng with onBattery := false, onMains := false } = [] := by
      refine List.flatMap_eq_nil_iff.mpr fun i _ => ?_
      have hq := hI.quiet hoff i
      rw [List.filter_eq_nil_iff.mpr fun gs hgs => by simp [hq gs hgs], List.map_nil]
    rw [Runtime.evalCall_off hoff, hnone] at hguests
    rw [Runtime.evalCall_off hoff] at hhosts
    -- nothing came to what was queued, and what was old stays old
    have hwork : HasWork t.sys.P i := by
      rcases hw with hw | ⟨g, hg, hgi⟩
      · exact .inl (by simpa [hhosts i] using hw)
      · refine .inr ⟨g, ?_, hgi⟩
        have hg' := hg
        simp only [hguests] at hg'
        simpa [keepAllocated] using hg'
    rcases hI.queued hoff i hwork with hold | hold
    · refine .inl ?_
      simp only [Watched.track, Runtime.evalCall_off hoff]
      simpa using hold
    · exact .inr hold
  · simp only [hcfg] at hgates
    exact hI.idle i hgates (hfewer i hold)

theorem GateInv.takeWork (hI : GateInv t) {w : Nat} {allocOk : Nat → Bool}
    (h : step t.sys (.takeWork w allocOk) = some s') :
    GateInv { t.track (.takeWork w allocOk) with sys := s' } := by
  obtain ⟨-, ⟨hn, rfl⟩ | ⟨i, job, P', hn, ht, rfl⟩⟩ := step_takeWork h
  · have htrack : t.track (.takeWork w allocOk) = t := by
      simp only [Watched.track, Pve.takeWork, hn]
    rw [htrack]
    refine ⟨hI.quiet, hI.queued, hI.idle, fun job hjob => ?_, hI.passed, hI.clean⟩
    rcases List.mem_or_eq_of_mem_set hjob with hjob | hjob
    · exact hI.taken job hjob
    · cases hjob
  rw [track_takeWork ht]
  obtain ⟨rfl, hcfg, -, -, rfl⟩ := takeWork_spec hn ht
  refine ⟨hI.quiet, fun hoff i hw => ?_, fun i hgates hold => ?_, fun job' hjob' => ?_,
    fun p hp => ?_, fun job' r hr => ?_⟩
  · have hwork : i ≠ job.host ∧ HasWork t.sys.P i := by
      rcases hw with hw | ⟨g, hg, rfl⟩
      · by_cases hi : i = job.host
        · subst hi
          simp [HostMask.clear] at hw
        · exact ⟨hi, .inl (by simpa [HostMask.clear, Function.update_of_ne hi] using hw)⟩
      · obtain ⟨hg, hne⟩ := List.mem_filter.mp hg
        exact ⟨of_decide_eq_true hne, .inr ⟨g, hg, rfl⟩⟩
    exact hasOld_hand.mpr ⟨hwork.1, hI.queued hoff i hwork.2⟩
  · exact hI.idle i hgates (hasOld_hand.mp hold).2
  · rcases List.mem_or_eq_of_mem_set hjob' with hjob' | hjob'
    · exact hI.taken job' hjob'
    · obtain rfl : job' = job := by simpa using hjob'
      rw [hcfg]
      exact fun hoff hgates => hI.idle _ hgates (hI.queued hoff _ (hasWork_of_nextHost hn))
  · rcases List.mem_append.mp hp with hp | hp
    · exact hI.passed p hp
    · obtain rfl := List.mem_singleton.mp hp
      show _ → ¬ RunHostGates job.cfg job.host
      rw [hcfg]
      exact fun hold hgates => hI.idle _ hgates hold
  · rcases List.mem_append.mp hr with hr | hr
    · exact hI.clean job' r hr
    · simp at hr

theorem GateInv.runHost (hI : GateInv t) {w : Nat} {attempts : List TlsAttempt}
    (h : step t.sys (.runHost w attempts) = some s') : GateInv { t with sys := s' } := by
  obtain ⟨job, hw, rfl⟩ := step_runHost h
  generalize hworld : Pve.runHost job.host job.cfg job.nodePending job.batch job.reason
    ⟨attempts, [], [], []⟩ = world
  obtain ⟨hcfg, heng, -, hhosts, hguests⟩ := foldl_applyNote world.notes t.sys.P
  refine ⟨?_, ?_, ?_, fun job' hjob' => ?_, hI.passed, fun job' r hr => ?_⟩
  · simp only [hcfg, heng]
    exact hI.quiet
  · simp only [HasWork, hcfg, hhosts, hguests]
    exact hI.queued
  · simp only [hcfg]
    exact hI.idle
  · rcases List.mem_or_eq_of_mem_set hjob' with hjob' | hjob'
    · exact hI.taken job' hjob'
    · cases hjob'
  · rcases List.mem_append.mp hr with hr | hr
    · exact hI.clean job' r hr
    · obtain ⟨r', hr', heq⟩ := List.mem_map.mp hr
      obtain ⟨rfl, rfl⟩ : job = job' ∧ r' = r := by simpa using heq
      -- a request was written, so the three gates were open in the snapshot
      have hgates : RunHostGates job.cfg job.host := by
        by_contra hg
        rw [← hworld, runHost_sent hg] at hr'
        simp at hr'
      refine ⟨?_, hgates⟩
      cases hoff : job.cfg.enabled with
      | true => rfl
      | false => exact absurd hgates (hI.taken job (List.mem_of_getElem? hw) hoff)

/-- A reconfiguration that leaves no old work for a host with open gates. -/
theorem GateInv.reconfigure (hI : GateInv t) {cfg : PveConfig} {guests : GuestLists}
    (hidle : SwitchIdle t (.reconfigure cfg guests))
    (h : step t.sys (.reconfigure cfg guests) = some s') :
    GateInv { t.track (.reconfigure cfg guests) with sys := s' } := by
  obtain rfl := Option.some.inj h
  refine ⟨fun _ i gs hgs => sync_firedNow hgs, fun hoff i hw => ?_, hidle, hI.taken, hI.passed,
    hI.clean⟩
  by_cases hc : closes t.sys.P.cfg cfg i = true
  · exact (hasOld_mark hc).mpr hw
  · -- the feature was off before
    have hoff' : t.sys.P.cfg.enabled = false := by
      by_contra hon
      exact hc (closes_off (Bool.not_eq_false _ ▸ hon) hoff i)
    exact (hasOld_mark_other hc).mpr (hI.queued hoff' i hw)

theorem gateInv_step (t : Watched) (e : Ev) (t' : Watched) (hidle : SwitchIdle t e) (hI : GateInv t)
    (h : watchedStep t e = some t') : GateInv t' := by
  obtain ⟨s', hs, rfl⟩ := Option.map_eq_some_iff.mp h
  cases e with
  | observe known onMains socPct nowUs allocOk => exact hI.observe hs
  | createTask ok =>
      obtain ⟨-, rfl⟩ := step_createTask hs
      cases ok with
      | false => exact ⟨hI.quiet, hI.queued, hI.idle, hI.taken, hI.passed, hI.clean⟩
      | true =>
          refine ⟨hI.quiet, hI.queued, hI.idle, fun job hjob => ?_, hI.passed, hI.clean⟩
          rcases List.mem_append.mp hjob with hjob | hjob
          · exact hI.taken job hjob
          · simp at hjob
  | resetRunning =>
      obtain ⟨-, rfl⟩ := step_resetRunning hs
      exact ⟨hI.quiet, hI.queued, hI.idle, hI.taken, hI.passed, hI.clean⟩
  | takeWork w allocOk => exact hI.takeWork hs
  | runHost w attempts => exact hI.runHost hs
  | leave w =>
      obtain ⟨-, rfl⟩ := step_leave hs
      exact ⟨hI.quiet, hI.queued, hI.idle,
        fun job hjob => hI.taken job (List.mem_of_mem_eraseIdx hjob), hI.passed, hI.clean⟩
  | reconfigure cfg guests => exact hI.reconfigure hidle hs

end GateSteps

theorem gateInv_start (cfg : PveConfig) (guests : GuestLists) : GateInv (.start cfg guests) where
  quiet := fun _ _ _ hgs => sync_firedNow hgs
  queued := fun _ i hw => by
    rcases hw with hw | ⟨g, hg, -⟩
    · cases hw
    · exact absurd hg List.not_mem_nil
  idle := fun i _ hold => by
    rcases hold with hold | hold
    · cases hold
    · exact hold rfl
  taken := fun _ hjob => absurd hjob List.not_mem_nil
  passed := fun _ hp => absurd hp List.not_mem_nil
  clean := fun _ _ hr => absurd hr List.not_mem_nil

/-- **Every request is sent with all gates open, and none on work from before a gate closed**, in
    every run -- of observations, reconfigurations and worker passes, with any failures and any
    servers -- whose reconfigurations leave no such work queued for a host that is armed, in use and
    pinned. -/
theorem gates_at_send {cfg : PveConfig} {guests : GuestLists} {es : List Ev} {t : Watched}
    (hidle : StepMachine.Along watchedStep SwitchIdle (.start cfg guests) es)
    (h : StepMachine.run watchedStep (.start cfg guests) es = some t) :
    runFrom cfg guests es = some t.sys ∧ GatesAtSend t.sys ∧ OldUntouched t := by
  have hI : GateInv t :=
    StepMachine.run_inv_along watchedStep gateInv_step hidle (gateInv_start cfg guests) h
  have hrec : Recorded t := recorded_run h
  refine ⟨watched_run h, hI.clean, fun job r hr => ⟨hrec.sent job r hr, fun p hp hpj hold => ?_⟩⟩
  exact hI.passed p hp hold (hpj ▸ (hI.clean job r hr).2)

/-- The same trigger with the feature left on: both requests go out, under open gates. -/
def sendRun : List Ev :=
  [.observe true false 15 0 fun _ => true, .createTask true, .takeWork 0 fun _ => true,
    .runHost 0 (List.replicate 2 (.certificate (List.replicate 32 0xAB) (.reply (some 200) "")))]

theorem gates_at_send_sendRun :
    ∃ t, StepMachine.run watchedStep (.start soloCfg soloGuests) sendRun = some t ∧
      (runFrom soloCfg soloGuests sendRun = some t.sys ∧ GatesAtSend t.sys ∧ OldUntouched t) ∧
      t.sys.log.countP LogEntry.isSent = 2 := by
  have hidle : StepMachine.Along watchedStep SwitchIdle (.start soloCfg soloGuests) sendRun :=
    ⟨trivial, fun _ _ => ⟨trivial, fun _ _ => ⟨trivial, fun _ _ => ⟨trivial, fun _ _ => trivial⟩⟩⟩⟩
  obtain ⟨s, log, job, rs, hs, hlog, hquiet, -, hpaths⟩ := soloPass
    [.observe true false 15 0 fun _ => true, .createTask true, .takeWork 0 fun _ => true] true
    (by decide)
  obtain ⟨t, ht, rfl⟩ := watched_lift (t := .start soloCfg soloGuests) hs
  have hnone : log.countP LogEntry.isSent = 0 :=
    List.countP_eq_zero.mpr fun e he => by simp [hquiet e he]
  have hall : (rs.map (LogEntry.sent job)).countP LogEntry.isSent = rs.length := by
    rw [List.countP_map]
    exact List.countP_eq_length.mpr fun _ _ => rfl
  have hcount : t.sys.log.countP LogEntry.isSent = 2 := by
    rw [hlog, List.countP_append, hnone, hall, Nat.zero_add, ← List.length_map Request.path, hpaths]
    rfl
  exact ⟨t, ht, gates_at_send hidle ht, hcount⟩

end NutBluetti.Pve
