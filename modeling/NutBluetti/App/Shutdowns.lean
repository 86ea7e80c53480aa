/-
  File:      NutBluetti/App/Shutdowns.lean
  Subject:   WHEN A HOST IS SHUT DOWN, in terms of what the unit answered: from the registers of the
             poll loop to the reports of the Proxmox engine, over every interleaving of the tasks.

  * `OutageSince`, `ChargeLow` -- the two grounds, read off the readings that were handed on;
  * **`shutdown_iff_readings`** -- a step reports a host exactly when it hands on a reading, or the
    lack of one, with the feature and the host on, the latch open and one of the grounds given:
    silence of the unit is no ground, and does not take one away;
  * **`shutdown_needs_measured_outage`** -- where the reads of a sweep are answered in turn, each
    report of a host rests on a reading in which the unit itself put the power of its AC input at
    zero, and its voltage too if the model has one.
-/
import NutBluetti.App.Bridge

namespace NutBluetti.App

open Ble (Env Poll PollEv RegsCall acInputPowerRead acInputVoltageRead)
open Pve (EvalCall EndsOutage ShowsBattery HostIx PveHost outageClock)

/-! ## 1. Grounds -/

/-- A reading that has the unit on battery was handed on. -/
def Heard.OnBattery (h : Heard) : Prop := ∃ c, h.source = some c ∧ c.state.acInputPresent = false

/-- A reading that has it on the mains was. -/
def Heard.OnMains (h : Heard) : Prop := ∃ c, h.source = some c ∧ c.state.acInputPresent = true

/-- The unit was on battery `minutes` ago, and no reading since had the mains; nor was the feature
    off. -/
def OutageSince (heard : List Heard) (minutes : UInt16) (nowUs : Int) : Prop :=
  0 < minutes.toNat ∧ ∃ before b after, heard = before ++ b :: after ∧ b.OnBattery ∧
    (∀ a ∈ b :: after, a.call.cfg.enabled = true ∧ ¬ a.OnMains) ∧
    b.call.nowUs ≤ nowUs - minutes.toNat * Pve.usPerMin

/-- The reading is on battery, with the charge at the limit or below. -/
def ChargeLow (h : Heard) (pct : UInt8) : Prop :=
  0 < pct.toNat ∧ ∃ c, h.source = some c ∧ c.state.acInputPresent = false ∧ 0 ≤ c.state.socPct ∧
    c.state.socPct ≤ pct.toNat

/-- What was handed on is what the reading had, or nothing where there is none. -/
def Heard.Sourced (calls : List RegsCall) (h : Heard) : Prop :=
  match h.source with
  | none => h.call.obs.power = .unknown
  | some c => Tells calls c ∧ h.call.obs = Pve.pveObs true c.state.acInputPresent c.state.socPct

section Sourced

variable {calls : List RegsCall} {h : Heard}

theorem Heard.Sourced.mono {more : List RegsCall} (hs : h.Sourced calls) :
    h.Sourced (calls ++ more) := by
  unfold Heard.Sourced at hs ⊢
  split at hs
  · exact hs
  · exact ⟨hs.1.mono, hs.2⟩

theorem power_eq_battery_iff (hs : h.Sourced calls) :
    h.call.obs.power = .battery ↔ h.OnBattery := by
  unfold Heard.Sourced at hs
  unfold Heard.OnBattery
  split at hs
  · rename_i hnone
    simp [hs, hnone]
  · rename_i c hsome
    rw [hsome, hs.2]
    cases hac : c.state.acInputPresent <;> simp [Pve.pveObs, hac]

theorem power_eq_line_iff (hs : h.Sourced calls) : h.call.obs.power = .line ↔ h.OnMains := by
  unfold Heard.Sourced at hs
  unfold Heard.OnMains
  split at hs
  · rename_i hnone
    simp [hs, hnone]
  · rename_i c hsome
    rw [hsome, hs.2]
    cases hac : c.state.acInputPresent <;> simp [Pve.pveObs, hac]

theorem chargeMet_iff (hs : h.Sourced calls) (pct : UInt8) :
    Pve.ChargeMet pct h.call.obs ↔ ChargeLow h pct := by
  unfold Pve.ChargeMet ChargeLow
  rw [power_eq_battery_iff hs]
  unfold Heard.Sourced at hs
  unfold Heard.OnBattery
  split at hs
  · rename_i hnone
    simp [hnone]
  · rename_i c hsome
    rw [hsome, hs.2]
    simp only [Option.some.injEq, exists_eq_left', Pve.pveObs, if_true]
    exact ⟨fun hc => ⟨hc.2.1, hc.1, hc.2.2⟩, fun hc => ⟨hc.2.1, hc.1, hc.2.2⟩⟩

end Sourced

/-! ## 2. The engine behind the bridge -/

variable {κ : Type} {env : Env κ}

/-- **Nothing but a call of `pve_eval`** reports a host or moves the outage clock. -/
theorem pveStep_quiet {p p' : Pve.Sys} {pe : Pve.Ev}
    (hne : ∀ known onMains socPct nowUs allocOk, pe ≠ .observe known onMains socPct nowUs allocOk)
    (h : Pve.step p pe = some p') :
    outageClock p'.P.eng = outageClock p.P.eng ∧
      ∃ new, p'.log = p.log ++ new ∧ ∀ i, .hostFired i ∉ new := by
  have hnone : ∃ new, p.log = p.log ++ new ∧ ∀ i, Pve.LogEntry.hostFired i ∉ new :=
    ⟨[], (List.append_nil _).symm, fun _ => List.not_mem_nil⟩
  cases pe with
  | observe known onMains socPct nowUs allocOk => exact absurd rfl (hne _ _ _ _ _)
  | createTask ok =>
      obtain ⟨-, rfl⟩ := Pve.step_createTask h
      cases ok with
      | true => exact ⟨rfl, hnone⟩
      | false => exact ⟨rfl, hnone⟩
  | resetRunning =>
      obtain ⟨-, rfl⟩ := Pve.step_resetRunning h
      exact ⟨rfl, hnone⟩
  | takeWork w allocOk =>
      obtain ⟨-, ⟨-, rfl⟩ | ⟨i, job, P', hn, ht, rfl⟩⟩ := Pve.step_takeWork h
      · exact ⟨rfl, hnone⟩
      · obtain ⟨-, -, -, -, rfl⟩ := Pve.takeWork_spec hn ht
        exact ⟨rfl, [.call job], rfl, fun i hi => by simp at hi⟩
  | runHost w attempts =>
      obtain ⟨job, -, rfl⟩ := Pve.step_runHost h
      obtain ⟨-, heng, -, -, -⟩ := Pve.foldl_applyNote (Pve.runHost job.host job.cfg job.nodePending
        job.batch job.reason ⟨attempts, [], [], []⟩).notes p.P
      exact ⟨congrArg outageClock heng, _, rfl, fun i hi => by simp at hi⟩
  | leave w =>
      obtain ⟨-, rfl⟩ := Pve.step_leave h
      exact ⟨rfl, hnone⟩
  | reconfigure cfg guests =>
      obtain rfl := Option.some.inj h
      exact ⟨rfl, hnone⟩

section Steps

variable {s s' : Bridge κ}

/-- A deed that hands on an observation. -/
theorem perform_observe (s : Bridge κ) (a : Answers) (known onMains : Bool) (socPct : Int)
    (source : Option RegsCall) :
    let s' := s.perform a (.observe known onMains socPct source)
    let c := s.evalCall known onMains socPct
    s'.heard = s.heard ++ [⟨c, source⟩] ∧ s'.pve.P.eng = (Pve.evalCall s.pve.P.eng c).1 ∧
      s'.pve.log = s.pve.log ++ Pve.reported (Pve.evalCall s.pve.P.eng c) := by
  obtain ⟨-, heng, -⟩ := Pve.observe_spec s.pve.P known onMains socPct s.nowUs a.allocOk
  exact ⟨rfl, heng, rfl⟩

/-- Any other deed. -/
theorem perform_other (s : Bridge κ) (a : Answers) {d : Deed}
    (h : ∀ known onMains socPct source, d ≠ .observe known onMains socPct source) :
    (s.perform a d).heard = s.heard ∧ (s.perform a d).pve = s.pve := by
  cases d with
  | observe known onMains socPct source => exact absurd rfl (h _ _ _ _)
  | _ => exact ⟨rfl, rfl⟩

/-- **What a step hands on**: one observation, with the reports it leads to, or none. -/
theorem step_heard {e : Ev} (h : s.step env e = some s') :
    (∃ known onMains socPct source,
        (.observe known onMains socPct source ∈ s.callback ∨
          .observe known onMains socPct source ∈ s.watch.deeds) ∧
        s'.heard = s.heard ++ [⟨s.evalCall known onMains socPct, source⟩] ∧
        s'.pve.P.eng = (Pve.evalCall s.pve.P.eng (s.evalCall known onMains socPct)).1 ∧
        s'.pve.log = s.pve.log ++
          Pve.reported (Pve.evalCall s.pve.P.eng (s.evalCall known onMains socPct))) ∨
      (s'.heard = s.heard ∧ outageClock s'.pve.P.eng = outageClock s.pve.P.eng ∧
        ∃ new, s'.pve.log = s.pve.log ++ new ∧ ∀ i, .hostFired i ∉ new) := by
  have hnone : ∃ new, s.pve.log = s.pve.log ++ new ∧ ∀ i, Pve.LogEntry.hostFired i ∉ new :=
    ⟨[], (List.append_nil _).symm, fun _ => List.not_mem_nil⟩
  rcases step_world h with ⟨a, d, hd, hsame⟩ | ⟨pe, p, hne, hp, rfl⟩ | hsame
  · by_cases hobs : ∃ known onMains socPct source, d = .observe known onMains socPct source
    · obtain ⟨known, onMains, socPct, source, rfl⟩ := hobs
      obtain ⟨hheard, heng, hlog⟩ := perform_observe s a known onMains socPct source
      refine .inl ⟨known, onMains, socPct, source, hd, hsame.heard.trans hheard, ?_, ?_⟩
      · rw [hsame.pve]
        exact heng
      · rw [hsame.pve]
        exact hlog
    · obtain ⟨hheard, hpve⟩ := perform_other s a fun known onMains socPct source hd =>
        hobs ⟨known, onMains, socPct, source, hd⟩
      refine .inr ⟨hsame.heard.trans hheard, ?_⟩
      rw [hsame.pve, hpve]
      exact ⟨rfl, hnone⟩
  · exact .inr ⟨rfl, pveStep_quiet hne hp⟩
  · refine .inr ⟨hsame.heard, ?_⟩
    rw [hsame.pve]
    exact ⟨rfl, hnone⟩

end Steps

/-! ## 3. The record of what was handed on -/

/-- Calls in the order of their clocks. -/
def InOrder (heard : List Heard) : Prop :=
  (heard.map Heard.call).Pairwise fun a b => a.nowUs ≤ b.nowUs

/-- **The invariant**: every call has its source, the calls are in order, and the outage clock of
    the engine is the stopwatch over them. -/
structure HeardInv (s : Bridge κ) : Prop where
  sound : SoundInv s
  sourced : ∀ h ∈ s.heard, h.Sourced s.poll.calls
  order : InOrder s.heard
  past : ∀ h ∈ s.heard, h.call.nowUs ≤ s.nowUs
  clock : outageClock s.pve.P.eng =
    Stopwatch.reading EndsOutage ShowsBattery EvalCall.nowUs (s.heard.map Heard.call)

/-- The calls of `session_regs` and the clock only go on. -/
theorem step_grows {s s' : Bridge κ} {e : Ev} (hI : SoundInv s) (h : s.step env e = some s') :
    (∃ more, s'.poll.calls = s.poll.calls ++ more) ∧ s.nowUs ≤ s'.nowUs := by
  have hsame : ∃ more, s.poll.calls = s.poll.calls ++ more := ⟨[], (List.append_nil _).symm⟩
  cases e with
  | pass us =>
      obtain rfl := Option.some.inj h
      exact ⟨hsame, by show s.nowUs ≤ s.nowUs + us; omega⟩
  | ble e measured told =>
      obtain ⟨-, p, hp, hcase⟩ := step_ble h
      have hmore : ∃ more, p.calls = s.poll.calls ++ more := by
        obtain ⟨-, ⟨c, hc⟩ | hs⟩ := Ble.reading_step hI.named hp
        · exact ⟨[c], hc.last⟩
        · rcases hs.calls with hcalls | ⟨c, hcalls, -⟩
          · exact ⟨[], by rw [hcalls, List.append_nil]⟩
          · exact ⟨[c], hcalls⟩
      rcases hcase with ⟨-, rfl⟩ | ⟨c, -, rfl⟩
      · exact ⟨hmore, Int.le_refl _⟩
      · exact ⟨hmore, Int.le_refl _⟩
  | callback a =>
      obtain ⟨d, ds, -, rfl⟩ := step_callback h
      obtain ⟨hpoll, -, -, hnow, -⟩ := perform_tasks s a d
      show (∃ more, (s.perform a d).poll.calls = _) ∧ s.nowUs ≤ (s.perform a d).nowUs
      rw [hpoll, hnow]
      exact ⟨hsame, Int.le_refl _⟩
  | look =>
      obtain ⟨-, rfl⟩ := step_look h
      exact ⟨hsame, Int.le_refl _⟩
  | judge onLed onStatus onDriver =>
      obtain ⟨st, calm, -, rfl⟩ := step_judge h
      exact ⟨hsame, Int.le_refl _⟩
  | report a =>
      obtain ⟨d, ds, atUs, calm, -, rfl⟩ := step_report h
      obtain ⟨hpoll, -, -, hnow, -⟩ := perform_tasks s a d
      obtain ⟨hpoll', -, hnow', -⟩ := reported_tasks (s.perform a d) ds atUs calm
      rw [hpoll', hpoll, hnow', hnow]
      exact ⟨hsame, Int.le_refl _⟩
  | pve e =>
      obtain ⟨-, p, -, rfl⟩ := step_pve h
      exact ⟨hsame, Int.le_refl _⟩

/-- An observation that is due has its source. -/
theorem sourced_of_due {s : Bridge κ} (hI : SoundInv s) {known onMains : Bool} {socPct : Int}
    {source : Option RegsCall}
    (hd : .observe known onMains socPct source ∈ s.callback ∨
      .observe known onMains socPct source ∈ s.watch.deeds) :
    Heard.Sourced s.poll.calls ⟨s.evalCall known onMains socPct, source⟩ := by
  have hsound : (Deed.observe known onMains socPct source).Sound s.poll.calls :=
    hd.elim (hI.callback _) (hI.watch _)
  cases source with
  | none =>
      have hknown : known = false := hsound
      rw [hknown]
      rfl
  | some c =>
      obtain ⟨htells, rfl, rfl, rfl⟩ := hsound
      exact ⟨htells, rfl⟩

/-- **Every step keeps it.** -/
theorem heardInv_step (s : Bridge κ) (e : Ev) (s' : Bridge κ) (hI : HeardInv s)
    (h : s.step env e = some s') : HeardInv s' := by
  obtain ⟨⟨more, hcalls⟩, hnow⟩ := step_grows hI.sound h
  have hold : ∀ h ∈ s.heard, h.Sourced s'.poll.calls ∧ h.call.nowUs ≤ s'.nowUs := by
    intro h hh
    rw [hcalls]
    exact ⟨(hI.sourced h hh).mono, Int.le_trans (hI.past h hh) hnow⟩
  have hsound := soundInv_step s e s' hI.sound h
  rcases step_heard h with ⟨known, onMains, socPct, source, hd, hheard, heng, -⟩ |
    ⟨hheard, hclock, -⟩
  · have hnew := sourced_of_due hI.sound hd
    refine ⟨hsound, ?_, ?_, ?_, ?_⟩
    · rw [hheard, hcalls]
      intro h hh
      rcases List.mem_append.mp hh with hh | hh
      · exact (hI.sourced h hh).mono
      · rw [List.mem_singleton.mp hh]
        exact hnew.mono
    · unfold InOrder
      rw [hheard, List.map_append, List.pairwise_append]
      refine ⟨hI.order, List.pairwise_singleton _ _, fun a ha b hb => ?_⟩
      obtain ⟨h, hh, rfl⟩ := List.mem_map.mp ha
      rw [List.mem_singleton.mp hb]
      exact hI.past h hh
    · rw [hheard]
      intro h hh
      rcases List.mem_append.mp hh with hh | hh
      · exact (hold h hh).2
      · rw [List.mem_singleton.mp hh]
        exact hnow
    · unfold Stopwatch.reading
      rw [heng, Pve.outageClock_pveEval, hI.clock, hheard, List.map_append]
      exact (Stopwatch.readingFrom_snoc _ _ _).symm
  · refine ⟨hsound, ?_, ?_, ?_, ?_⟩
    · rw [hheard]
      exact fun h hh => (hold h hh).1
    · rw [hheard]
      exact hI.order
    · rw [hheard]
      exact fun h hh => (hold h hh).2
    · rw [hclock, hheard]
      exact hI.clock

theorem heardInv_start (controls : Bool) (lowPct : Int) (driverVersion label : String)
    (cfg : Pve.PveConfig) (guests : Pve.GuestLists) :
    HeardInv (Bridge.start controls lowPct driverVersion label cfg guests : Bridge κ) :=
  ⟨soundInv_start controls lowPct driverVersion label cfg guests, List.forall_mem_nil _,
    List.Pairwise.nil, List.forall_mem_nil _, rfl⟩

/-! ## 4. The timer, in readings -/

/-- What the stopwatch says of the calls, said of their readings. -/
theorem overdue_iff_outageSince {calls : List RegsCall} {heard : List Heard}
    (hs : ∀ h ∈ heard, h.Sourced calls) (ho : InOrder heard) (m : UInt16) (nowUs : Int) :
    (0 < m.toNat ∧ ∃ t, Stopwatch.reading EndsOutage ShowsBattery EvalCall.nowUs
        (heard.map Heard.call) = some t ∧ t ≤ nowUs - m.toNat * Pve.usPerMin) ↔
      OutageSince heard m nowUs := by
  have hends : ∀ a ∈ heard, ¬ EndsOutage a.call ↔ a.call.cfg.enabled = true ∧ ¬ a.OnMains := by
    intro a ha
    unfold EndsOutage
    rw [power_eq_line_iff (hs a ha), not_or, Bool.not_eq_false]
  unfold OutageSince
  rw [Stopwatch.overdue_iff ho]
  refine and_congr_right fun _ => ?_
  constructor
  · intro h
    obtain ⟨before, b, after, hl, hb, hno, hle⟩ := h
    obtain ⟨pre, rest, rfl, rfl, hrest⟩ := List.map_eq_append_iff.mp hl
    obtain ⟨g, post, rfl, rfl, rfl⟩ := List.map_eq_cons_iff.mp hrest
    refine ⟨pre, g, post, rfl, (power_eq_battery_iff (hs g (by simp))).mp hb, fun a ha => ?_, hle⟩
    refine (hends a (List.mem_append_right _ ha)).mp (hno a.call ?_)
    exact List.mem_map_of_mem (f := Heard.call) ha
  · intro h
    obtain ⟨pre, g, post, rfl, hb, hno, hle⟩ := h
    refine ⟨pre.map Heard.call, g.call, post.map Heard.call, by simp,
      (power_eq_battery_iff (hs g (by simp))).mpr hb, fun c hc => ?_, hle⟩
    obtain ⟨a, ha, rfl⟩ : ∃ a ∈ g :: post, a.call = c := List.mem_map.mp hc
    exact (hends a (List.mem_append_right _ ha)).mpr (hno a ha)

theorem mem_of_any_isHostFiring {log : List Pve.LogEntry} {i : HostIx}
    (h : log.any (Pve.isHostFiring i) = true) : .hostFired i ∈ log := by
  obtain ⟨entry, hm, hf⟩ := List.any_eq_true.mp h
  cases entry with
  | hostFired j =>
      have hj : j = i := by simpa [Pve.isHostFiring] using hf
      exact hj ▸ hm
  | _ => cases hf

/-- **A step reports a host** exactly when it makes a call of `pve_eval` in which it is due. -/
theorem newly_fired_iff {s s' : Bridge κ} {e : Ev} (hI : HeardInv s) (h : s.step env e = some s')
    (i : HostIx) :
    .hostFired i ∈ s'.pve.log.drop s.pve.log.length ↔
      ∃ g, s'.heard = s.heard ++ [g] ∧ s.pve.P.cfg.enabled = true ∧
        (s.pve.P.cfg.hosts i).enabled = true ∧ s.pve.P.eng.fired i = false ∧
        (OutageSince s'.heard (s.pve.P.cfg.hosts i).onBatteryMin s.nowUs ∨
          ChargeLow g (s.pve.P.cfg.hosts i).chargePct) := by
  have hI' := heardInv_step s e s' hI h
  rcases step_heard h with ⟨known, onMains, socPct, source, hd, hheard, heng, hlog⟩ |
    ⟨hheard, -, new, hlog, hno⟩
  · have hmem : .hostFired i ∈ Pve.reported (Pve.evalCall s.pve.P.eng
        (s.evalCall known onMains socPct)) ↔
        (Pve.evalCall s.pve.P.eng (s.evalCall known onMains socPct)).2.hosts i = true := by
      rw [← Pve.any_isHostFiring_reported]
      constructor
      · intro hm
        exact List.any_eq_true.mpr ⟨_, hm, by simp [Pve.isHostFiring]⟩
      · exact mem_of_any_isHostFiring
    rw [hlog, List.drop_left, hmem, Pve.evalCall_hosts_iff]
    have hdue : s.pve.P.cfg.enabled = true →
        (Pve.HostDue s.pve.P.eng (s.evalCall known onMains socPct) i ↔
          OutageSince s'.heard (s.pve.P.cfg.hosts i).onBatteryMin s.nowUs ∨
            ChargeLow ⟨s.evalCall known onMains socPct, source⟩
              (s.pve.P.cfg.hosts i).chargePct) := by
      intro hon
      unfold Pve.HostDue
      rw [Pve.timerMet_edges_iff hon, ← heng, hI'.clock]
      refine or_congr (overdue_iff_outageSince hI'.sourced hI'.order _ _) ?_
      exact chargeMet_iff (sourced_of_due hI.sound hd) _
    constructor
    · intro hf
      obtain ⟨hon, hhost, hopen, hg⟩ := hf
      exact ⟨_, hheard, hon, hhost, hopen, (hdue hon).mp hg⟩
    · intro hf
      obtain ⟨g, hg', hon, hhost, hopen, hg⟩ := hf
      obtain rfl : g = ⟨s.evalCall known onMains socPct, source⟩ := by
        have := List.append_cancel_left (hg'.symm.trans hheard)
        simpa using this
      exact ⟨hon, hhost, hopen, (hdue hon).mpr hg⟩
  · rw [hlog, List.drop_left]
    refine iff_of_false (hno i) fun hf => ?_
    obtain ⟨g, hg', -⟩ := hf
    rw [hheard] at hg'
    exact absurd hg' (by simp)

/-! ## 5. Shutdowns -/

section Runs

variable {controls : Bool} {lowPct : Int} {driverVersion label : String} {cfg : Pve.PveConfig}
  {guests : Pve.GuestLists} {es : List Ev} {s s' : Bridge κ}

theorem heardInv_runs
    (hrun : Runs env (Bridge.start controls lowPct driverVersion label cfg guests) es s) :
    HeardInv s :=
  StepMachine.run_inv (Bridge.step env) heardInv_step
    (heardInv_start controls lowPct driverVersion label cfg guests) hrun

/-- **When a host is reported**: in any run, by any task, exactly in a step that hands the engine an
    observation while the feature and the host are on and the host's latch is open, and either a
    battery reading was handed on that many minutes ago and no mains reading since, or the
    observation is itself a battery reading at the limit. All readings are the unit's own, published
    after a sweep. -/
theorem shutdown_iff_readings {e : Ev}
    (hrun : Runs env (Bridge.start controls lowPct driverVersion label cfg guests) es s)
    (hstep : s.step env e = some s') (i : HostIx) :
    (.hostFired i ∈ s'.pve.log.drop s.pve.log.length ↔
      ∃ g, s'.heard = s.heard ++ [g] ∧ s.pve.P.cfg.enabled = true ∧
        (s.pve.P.cfg.hosts i).enabled = true ∧ s.pve.P.eng.fired i = false ∧
        (OutageSince s'.heard (s.pve.P.cfg.hosts i).onBatteryMin s.nowUs ∨
          ChargeLow g (s.pve.P.cfg.hosts i).chargePct)) ∧
      ∀ g ∈ s'.heard, ∀ c, g.source = some c → Tells s'.poll.calls c := by
  have hI := heardInv_runs hrun
  refine ⟨newly_fired_iff hI hstep i, fun g hg c hc => ?_⟩
  have hs := (heardInv_step s e s' hI hstep).sourced g hg
  unfold Heard.Sourced at hs
  rw [hc] at hs
  exact hs.1

/-! A unit that tells no name, on battery at 15 %: seven fields, each answered at once, and a host
    that is to go at 20 %. -/

def flatSettings : Nut.NutSettings := ⟨0, 0, 0⟩

def flatAnswers : Answers := ⟨⟨false, false, false, false, false⟩, fun _ => true, fun _ => true⟩

def flatCfg : Pve.PveConfig :=
  ⟨true, true, 0, fun i => if i = 0 then { Pve.PveHost.zero with enabled := true, chargePct := 20 }
    else Pve.PveHost.zero⟩

def flatStart : Bridge Nat := Bridge.start false 20 "1" "" flatCfg fun _ => []

/-- A field is asked for and answered. -/
def askedAndAnswered (regs : List UInt8) : List Ev :=
  [.tick 0, .send, .mark 0, .answer 0 (Ble.readReply regs) 0].map
    fun e => .ble e flatSettings flatSettings

/-- Charge, four powers and no name, each handed on with all its deeds; the serial number, up to the
    deed that hands the reading to the engine. -/
def flatRun : List Ev :=
  Ble.plainLink.map (fun e => .ble e flatSettings flatSettings) ++
    [[0, 15], [0, 0], [0, 0], [0, 0], [0, 0], List.replicate 12 0].flatMap (fun regs =>
      askedAndAnswered regs ++ List.replicate 4 (.callback flatAnswers)) ++
    askedAndAnswered [0, 7, 0, 0, 0, 0, 0, 0] ++ List.replicate 2 (.callback flatAnswers)

/-- The next step reports the host. -/
theorem flatRun_fires : ∃ s s', Runs Ble.toyEnv flatStart flatRun s ∧
    s.step Ble.toyEnv (.callback flatAnswers) = some s' ∧
    .hostFired 0 ∈ s'.pve.log.drop s.pve.log.length := by
  have h : (StepMachine.run (Bridge.step Ble.toyEnv) flatStart flatRun).map (fun s =>
      (s.step Ble.toyEnv (.callback flatAnswers)).map fun s' =>
        (s'.pve.log.drop s.pve.log.length).any (Pve.isHostFiring 0)) = some (some true) := by
    decide +kernel
  obtain ⟨s, hs, h⟩ := Option.map_eq_some_iff.mp h
  obtain ⟨s', hs', h⟩ := Option.map_eq_some_iff.mp h
  exact ⟨s, s', hs, hs', mem_of_any_isHostFiring h⟩

theorem shutdown_iff_readings_flat : ∃ s s', Runs Ble.toyEnv flatStart flatRun s ∧
    s.step Ble.toyEnv (.callback flatAnswers) = some s' ∧
    .hostFired 0 ∈ s'.pve.log.drop s.pve.log.length ∧
    ∃ g, s'.heard = s.heard ++ [g] ∧
      (OutageSince s'.heard (s.pve.P.cfg.hosts 0).onBatteryMin s.nowUs ∨
        ChargeLow g (s.pve.P.cfg.hosts 0).chargePct) := by
  obtain ⟨s, s', hs, hs', hfired⟩ := flatRun_fires
  obtain ⟨g, hg, -, -, -, hground⟩ := (shutdown_iff_readings hs hs' 0).1.mp hfired
  exact ⟨s, s', hs, hs', hfired, g, hg, hground⟩

/-- The reads of a sweep are answered in turn. -/
def InTurn (s : Bridge κ) : Ev → Prop
  | .ble e _ _ => Ble.ReadInTurn s.poll e
  | _ => True

instance (s : Bridge κ) (e : Ev) : Decidable (InTurn s e) := by
  unfold InTurn
  split
  · infer_instance
  · infer_instance

/-- What holds along such runs: the record of what was handed on, and the truth of the sweeps. -/
structure MeasureInv (s : Bridge κ) : Prop where
  heard : HeardInv s
  sweep : Ble.SweepInv s.poll

theorem sweepInv_bridge {e : Ev} (hc : InTurn s e) (hI : Ble.SweepInv s.poll)
    (h : s.step env e = some s') : Ble.SweepInv s'.poll := by
  cases e with
  | pass us => exact Option.some.inj h ▸ hI
  | ble e measured told =>
      obtain ⟨-, p, hp, hcase⟩ := step_ble h
      have hnext := Ble.sweepInv_step s.poll e p hc hI hp
      rcases hcase with ⟨-, rfl⟩ | ⟨c, -, rfl⟩
      · exact hnext
      · exact hnext
  | callback a =>
      obtain ⟨d, ds, -, rfl⟩ := step_callback h
      exact (perform_tasks s a d).1.symm ▸ hI
  | look =>
      obtain ⟨-, rfl⟩ := step_look h
      exact hI
  | judge onLed onStatus onDriver =>
      obtain ⟨st, calm, -, rfl⟩ := step_judge h
      exact hI
  | report a =>
      obtain ⟨d, ds, atUs, calm, -, rfl⟩ := step_report h
      rw [(reported_tasks (s.perform a d) ds atUs calm).1, (perform_tasks s a d).1]
      exact hI
  | pve e =>
      obtain ⟨-, p, -, rfl⟩ := step_pve h
      exact hI

theorem measureInv_step (s : Bridge κ) (e : Ev) (s' : Bridge κ) (hc : InTurn s e)
    (hI : MeasureInv s) (h : s.step env e = some s') : MeasureInv s' :=
  ⟨heardInv_step s e s' hI.heard h, sweepInv_bridge hc hI.sweep h⟩

/-- The unit itself had answered its AC input power with 0 W, and its AC input voltage with 0 V
    where the model has that register. -/
def Heard.Measured (calls : List RegsCall) (h : Heard) : Prop :=
  ∃ c, h.source = some c ∧ Tells calls c ∧ acInputPowerRead ∈ c.answered ∧ c.state.acInWatts = 0 ∧
    (acInputVoltageRead ∈ c.plan → acInputVoltageRead ∈ c.answered ∧ c.state.acInVolts = 0)

/-- **Every battery reading that was handed on is measured.** -/
theorem measured_of_onBattery (hI : MeasureInv s) {b : Heard} (hb : b ∈ s.heard) (h : b.OnBattery) :
    b.Measured s.poll.calls := by
  obtain ⟨c, hc, hac⟩ := h
  have htells : Tells s.poll.calls c := by
    have hs := hI.heard.sourced b hb
    unfold Heard.Sourced at hs
    rw [hc] at hs
    exact hs.1
  -- no mains in the state means that neither of its two registers shows any
  have hmains := hI.heard.sound.readings c htells.mem htells.published
  have hno : ¬ (0 < c.state.acInWatts ∨ 0 < c.state.acInVolts) := by
    rw [← hmains, hac]
    exact Bool.false_ne_true
  have hbatt : (Ble.publishPower 0 c.state).onBattery = true := by
    unfold Ble.publishPower Ble.PowerReport.onBattery
    simp [htells.swept, hac]
  have htrue := hI.sweep.told c htells.mem
  obtain ⟨hans, hknown⟩ := htrue.power 0 hbatt
  refine ⟨c, hc, htells, hans, by omega, fun hin => ?_⟩
  obtain ⟨hansv, hknownv⟩ := htrue.voltage 0 hbatt hin
  exact ⟨hansv, by omega⟩

/-- **`b` is the ground** on which a host is reported when `g` is handed on: the battery reading
    from which the outage has lasted, or `g` itself, at the charge limit. -/
def GroundOf (heard : List Heard) (g : Heard) (host : PveHost) (nowUs : Int) (b : Heard) : Prop :=
  (0 < host.onBatteryMin.toNat ∧ ∃ before after, heard = before ++ b :: after ∧ b.OnBattery ∧
    (∀ a ∈ b :: after, a.call.cfg.enabled = true ∧ ¬ a.OnMains) ∧
    b.call.nowUs ≤ nowUs - host.onBatteryMin.toNat * Pve.usPerMin) ∨
  (ChargeLow g host.chargePct ∧ b = g)

theorem exists_groundOf {heard : List Heard} {g : Heard} {host : PveHost} {nowUs : Int}
    (h : OutageSince heard host.onBatteryMin nowUs ∨ ChargeLow g host.chargePct) :
    ∃ b, GroundOf heard g host nowUs b := by
  rcases h with ⟨hpos, before, b, after, hrest⟩ | hlow
  · exact ⟨b, .inl ⟨hpos, before, after, hrest⟩⟩
  · exact ⟨g, .inr ⟨hlow, rfl⟩⟩

/-- A ground is a battery reading of the record. -/
theorem onBattery_of_groundOf {heard : List Heard} {g b : Heard} {host : PveHost} {nowUs : Int}
    (hg : g ∈ heard) (h : GroundOf heard g host nowUs b) : b ∈ heard ∧ b.OnBattery := by
  rcases h with ⟨-, before, after, rfl, hb, -⟩ | ⟨⟨-, c, hc, hac, -⟩, rfl⟩
  · exact ⟨List.mem_append_right _ List.mem_cons_self, hb⟩
  · exact ⟨hg, c, hc, hac⟩

/-- **No host is shut down on less than a measured outage**, in any run in which the reads of each
    sweep are answered in turn: a step that reports a host does so on a ground, and whatever reading
    is the ground there, the unit had answered its AC input power with 0 W for it, and its AC input
    voltage with 0 V where the model has that register. -/
theorem shutdown_needs_measured_outage {e : Ev}
    (hturn : StepMachine.Along (Bridge.step env) InTurn
      (Bridge.start controls lowPct driverVersion label cfg guests) es)
    (hrun : Runs env (Bridge.start controls lowPct driverVersion label cfg guests) es s)
    (hin : InTurn s e) (hstep : s.step env e = some s') {i : HostIx}
    (hfired : .hostFired i ∈ s'.pve.log.drop s.pve.log.length) :
    ∃ g, s'.heard = s.heard ++ [g] ∧
      (∃ b, GroundOf s'.heard g (s.pve.P.cfg.hosts i) s.nowUs b) ∧
      ∀ b, GroundOf s'.heard g (s.pve.P.cfg.hosts i) s.nowUs b → b.Measured s'.poll.calls := by
  have h0 : MeasureInv (Bridge.start controls lowPct driverVersion label cfg guests : Bridge κ) :=
    ⟨heardInv_start controls lowPct driverVersion label cfg guests,
      Ble.sweepInv_start controls lowPct⟩
  have hI : MeasureInv s :=
    StepMachine.run_inv_along (Bridge.step env) measureInv_step hturn h0 hrun
  obtain ⟨g, hg, -, -, -, hground⟩ := (newly_fired_iff hI.heard hstep i).mp hfired
  refine ⟨g, hg, exists_groundOf hground, fun b hb => ?_⟩
  have hlast : g ∈ s'.heard := by
    rw [hg]
    exact List.mem_append_right _ List.mem_cons_self
  obtain ⟨hmem, hbatt⟩ := onBattery_of_groundOf hlast hb
  exact measured_of_onBattery (measureInv_step s e s' hin hI hstep) hmem hbatt

theorem shutdown_needs_measured_outage_flat :
    ∃ s s', Runs Ble.toyEnv flatStart flatRun s ∧
      s.step Ble.toyEnv (.callback flatAnswers) = some s' ∧
      .hostFired 0 ∈ s'.pve.log.drop s.pve.log.length ∧
      ∃ g, s'.heard = s.heard ++ [g] ∧
        (∃ b, GroundOf s'.heard g (s.pve.P.cfg.hosts 0) s.nowUs b) ∧
        ∀ b, GroundOf s'.heard g (s.pve.P.cfg.hosts 0) s.nowUs b → b.Measured s'.poll.calls := by
  have hc : StepMachine.Along (Bridge.step Ble.toyEnv) InTurn flatStart flatRun :=
    StepMachine.along_of_check (Bridge.step Ble.toyEnv) (fun s e h => of_decide_eq_true h)
      (c := fun s e => decide (InTurn s e)) (by decide +kernel)
  obtain ⟨s, s', hs, hs', hfired⟩ := flatRun_fires
  exact ⟨s, s', hs, hs', hfired,
    shutdown_needs_measured_outage (e := .callback flatAnswers) hc hs trivial hs' hfired⟩

end Runs

end NutBluetti.App
