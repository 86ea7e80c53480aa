/-
  File:      NutBluetti/App/Bridge.lean
  Subject:   THE BRIDGE (main.c): what `bluetti_cb` and `staleness_task` make of the unit's state,
             for the NUT clients, the alerts, the Proxmox engine and the LED, over the poll loop and
             the Proxmox runtime as they stand.

  Two tasks write the same places, and neither holds a lock over more than one call. So what a task
  has still to do is a list of deeds, and one step does the first of it: the callback of the BLE
  host task and a round of `staleness_task` come between each other at any deed, and between any two
  steps of the poll loop, the web server and the Proxmox workers.

  The bridge as `start_services` leaves it, with every integration switched on.
  `bluetti_ble_connected` and `s_cfg` are read several times in a pass and may have changed in
  between: each read has an answer of its own.

  * `bluettiCb`, `stalenessReport` -- the two lists of deeds; `vars_bluettiCb`,
    `vars_stalenessReport`: on the variable table they are `publish_nut_from_bluetti` and a round of
    `staleness_task`;
  * `Bridge.step` -- the machine; **`step_world`** -- what a step can do to the world outside the
    tasks;
  * **`soundInv_step`** -- no deed says more of the mains than the reading it comes from.
-/
import NutBluetti.Lib.StepMachine
import NutBluetti.Ble.Readings
import NutBluetti.Nut.Publish
import NutBluetti.Notify.Alerts
import NutBluetti.Pve.RuntimeRuns

namespace NutBluetti.App

open Ble (BluettiState Env Poll PollEv RegsCall publishPower published stamped)
open Nut (NutSettings VarCall VarTable measurementCalls nutServerSetStatus)
open Notify (Alert Notifier NotifyConfig PowerState)
open CText (fit)

/-! ## 1. Deeds -/

/-- `STALE_AFTER_US`. -/
def staleAfterUs : Int := 30 * 1000 * 1000

/-- `led_state_t`. -/
inductive LedState where
  | boot
  | linked
  deriving DecidableEq

/-- What a task does in one go. `source` is the reading that a power state comes from; nothing reads
    it. -/
inductive Deed where
  /-- `led_status_set`. -/
  | led (state : LedState)
  /-- Calls on the variables, none of them on `ups.status`. -/
  | vars (cs : List VarCall)
  /-- `nut_server_set_status`. -/
  | status (text : String) (source : Option RegsCall)
  /-- `pve_shutdown_observe`. -/
  | observe (known onMains : Bool) (socPct : Int) (source : Option RegsCall)
  /-- `notify_ups_status`. -/
  | notify (status : String) (socPct runtimeMin : Int)

/-- **`bluetti_cb`** on the state that a call of `session_regs` copied. `measured` are the settings
    the measurements are published by, `told` those the power state is. -/
def bluettiCb (measured told : NutSettings) (c : RegsCall) : List Deed :=
  let st := c.state
  .led .linked ::
    if !st.valid then []
    else
      let status := (publishPower told.runtimeLowS.toNat st).status
      .vars (measurementCalls measured st) ::
        if !st.sweepDone then
          [.status status none, .observe false false (-1) none]    -- not a reading yet
        else
          [.observe true st.acInputPresent st.socPct (some c), .status status (some c),
           .notify status st.socPct (if st.acInputPresent then -1 else st.minutesRemaining)]

/-- Whether the state that `staleness_task` took is stale. -/
def isStale (st : BluettiState) (nowUs : Int) : Bool :=
  !st.valid || decide (nowUs - st.updatedUs > staleAfterUs)

/-- The rest of a round of **`staleness_task`**, with the answers of `bluetti_ble_connected` for the
    LED, the status and `driver.state`. -/
def stalenessReport (st : BluettiState) (stale onLed onStatus onDriver : Bool) : List Deed :=
  .led (if onLed && !stale then .linked else .boot) ::
    if stale then
      let s := if onStatus then "OL WAIT" else "OFF"
      [.status s none,
       .vars [.set "driver.state" (if onDriver then "connected-no-data" else "disconnected")],
       .notify s (if st.valid then st.socPct else 0) (-1),
       .observe false false (-1) none]    -- stale: unknown, fail-safe
    else [.vars [.set "driver.state" "updated"]]

/-- What a deed does to the variables. -/
def Deed.varCalls : Deed → List VarCall
  | .vars cs => cs
  | .status text _ => [nutServerSetStatus text]
  | _ => []

/-- **The deeds of the callback are the calls of `publish_nut_from_bluetti`**, while the settings
    stay. -/
theorem vars_bluettiCb (cfg : NutSettings) (c : RegsCall) :
    (bluettiCb cfg cfg c).flatMap Deed.varCalls = Nut.publishCalls cfg c.state := by
  unfold bluettiCb Nut.publishCalls
  cases hv : c.state.valid <;> cases hs : c.state.sweepDone <;>
    simp [hv, hs, Nut.callsIf, Deed.varCalls]

/-- The deeds of a round are the calls of `staleness_task`, while the link stays as it is. -/
theorem vars_stalenessReport (st : BluettiState) (stale onLed connected : Bool) :
    (stalenessReport st stale onLed connected connected).flatMap Deed.varCalls =
      Nut.stalenessCalls stale connected := by
  cases stale <;> cases connected <;> rfl

/-! ## 2. The machine -/

/-- What the surroundings answer a deed: the settings of the alerts, the room in their queue, the
    allocations. -/
structure Answers where
  tg : NotifyConfig
  room : Alert → Bool
  allocOk : Nat → Bool

/-- A call of `pve_eval` with the reading its observation comes from. -/
structure Heard where
  call : Pve.EvalCall
  source : Option RegsCall

/-- Where `staleness_task` is. `calm`, for the record: when it looked, no callback was under way,
    and none began since. -/
inductive Watch where
  | asleep
  /-- It has copied the state. -/
  | looked (st : BluettiState) (calm : Bool)
  /-- It judged the state at `atUs`, and has this to report. -/
  | reporting (deeds : List Deed) (atUs : Int) (calm : Bool)

/-- A callback begins. -/
def Watch.disturbed : Watch → Watch
  | .asleep => .asleep
  | .looked st _ => .looked st false
  | .reporting ds atUs _ => .reporting ds atUs false

/-- The bridge, and the record of it: the calls of `pve_eval`; the reading handed to the last
    callback, and the one that `ups.status` comes from; when the last round that saw all of the
    former judged. -/
structure Bridge (κ : Type) where
  poll : Poll κ
  /-- What `bluetti_cb` has still to do. -/
  callback : List Deed
  watch : Watch
  led : LedState
  vars : VarTable
  notifier : Notifier
  pve : Pve.Sys
  nowUs : Int
  heard : List Heard
  newest : Option RegsCall
  shown : Option RegsCall
  checked : Option Int

section

variable {κ : Type}

/-- The bridge when `start_services` is through. -/
def Bridge.start (controls : Bool) (lowPct : Int) (driverVersion label : String)
    (cfg : Pve.PveConfig) (guests : Pve.GuestLists) : Bridge κ where
  poll := Poll.start controls lowPct
  callback := []
  watch := .asleep
  led := .boot
  vars := Nut.nutServerStart driverVersion
  notifier := Notify.notifyStart label
  pve := Pve.Sys.start cfg guests
  nowUs := 0
  heard := []
  newest := none
  shown := none
  checked := none

/-- What `pve_eval` is called with by a deed of now. -/
def Bridge.evalCall (s : Bridge κ) (known onMains : Bool) (socPct : Int) : Pve.EvalCall :=
  ⟨s.pve.P.cfg, s.pve.P.guests, Pve.pveObs known onMains socPct, s.nowUs⟩

/-- One deed. -/
def Bridge.perform (s : Bridge κ) (a : Answers) : Deed → Bridge κ
  | .led state => { s with led := state }
  | .vars cs => { s with vars := Nut.runCalls cs s.vars }
  | .status text source =>
      { s with vars := Nut.runCalls [nutServerSetStatus text] s.vars, shown := source }
  | .observe known onMains socPct source =>
      { s with
        pve := (Pve.step s.pve (.observe known onMains socPct s.nowUs a.allocOk)).getD s.pve
        heard := s.heard ++ [⟨s.evalCall known onMains socPct, source⟩] }
  | .notify status socPct runtimeMin =>
      { s with notifier :=
          Notify.notifyUpsStatus s.notifier ⟨a.tg, status, socPct, runtimeMin, s.nowUs, a.room⟩ }

/-- An event. -/
inductive Ev where
  | pass (us : Nat)
  /-- A step of the poll loop, with what `s_cfg` is going to say, should it publish a reading. -/
  | ble (e : PollEv) (measured told : NutSettings)
  /-- The first deed of the callback. -/
  | callback (a : Answers)
  /-- `staleness_task` wakes and copies the state. -/
  | look
  /-- It reads the clock, and the link three times. -/
  | judge (onLed onStatus onDriver : Bool)
  /-- The first deed of its report. -/
  | report (a : Answers)
  /-- The Proxmox runtime, all but `pve_shutdown_observe`. -/
  | pve (e : Pve.Ev)

/-- What the BLE host task runs, so that none of it comes inside a callback. -/
def onHostTask : PollEv → Bool
  | .answer _ _ _ => true
  | .exception _ _ => true
  | .notify _ => true
  | .connect => true
  | .disconnect => true
  | .subscribed => true
  | _ => false

/-- A step of the poll loop is due: its task is free, and its clock is the present one. -/
def Bridge.due (s : Bridge κ) (e : PollEv) : Bool :=
  (!onHostTask e || s.callback.isEmpty) && (stamped e).all fun t => decide (t = s.nowUs)

/-- The end of a round is put on record if it saw all there was. -/
def Bridge.reported (s : Bridge κ) (ds : List Deed) (atUs : Int) (calm : Bool) : Bridge κ :=
  match ds with
  | [] => { s with watch := .asleep, checked := if calm then some atUs else s.checked }
  | _ :: _ => { s with watch := .reporting ds atUs calm }

/-- **One step**, `none` where the event is not enabled. -/
def Bridge.step (env : Env κ) (s : Bridge κ) : Ev → Option (Bridge κ)
  | .pass us => some { s with nowUs := s.nowUs + us }
  | .ble e measured told =>
      if s.due e then
        (s.poll.step env e).map fun p =>
          match published s.poll p with
          | none => { s with poll := p }
          | some c =>
              { s with
                poll := p
                callback := bluettiCb measured told c
                newest := some c
                checked := none
                watch := s.watch.disturbed }
      else none
  | .callback a =>
      match s.callback with
      | [] => none
      | d :: ds => some { s.perform a d with callback := ds }
  | .look =>
      match s.watch with
      | .asleep => some { s with watch := .looked s.poll.b.state s.callback.isEmpty }
      | _ => none
  | .judge onLed onStatus onDriver =>
      match s.watch with
      | .looked st calm =>
          let ds := stalenessReport st (isStale st s.nowUs) onLed onStatus onDriver
          some { s with watch := .reporting ds s.nowUs calm }
      | _ => none
  | .report a =>
      match s.watch with
      | .reporting (d :: ds) atUs calm => some ((s.perform a d).reported ds atUs calm)
      | _ => none
  | .pve (.observe _ _ _ _ _) => none
  | .pve e => (Pve.step s.pve e).map fun p => { s with pve := p }

/-- A run of the bridge. -/
abbrev Runs (env : Env κ) (s : Bridge κ) (es : List Ev) (s' : Bridge κ) : Prop :=
  StepMachine.run (Bridge.step env) s es = some s'

/-! ## 3. What a step does -/

variable {env : Env κ} {s s' : Bridge κ}

/-- A step of the poll loop, which may begin a callback. -/
theorem step_ble {e : PollEv} {measured told : NutSettings}
    (h : s.step env (.ble e measured told) = some s') :
    s.due e = true ∧ ∃ p, s.poll.step env e = some p ∧
      ((published s.poll p = none ∧ s' = { s with poll := p }) ∨
        ∃ c, published s.poll p = some c ∧ s' = { s with
          poll := p
          callback := bluettiCb measured told c
          newest := some c
          checked := none
          watch := s.watch.disturbed }) := by
  simp only [Bridge.step] at h
  split at h
  · rename_i hdue
    obtain ⟨p, hp, rfl⟩ := Option.map_eq_some_iff.mp h
    refine ⟨hdue, p, hp, ?_⟩
    cases hc : published s.poll p with
    | none => exact .inl ⟨rfl, rfl⟩
    | some c => exact .inr ⟨c, rfl, rfl⟩
  · cases h

theorem step_callback {a : Answers} (h : s.step env (.callback a) = some s') :
    ∃ d ds, s.callback = d :: ds ∧ s' = { s.perform a d with callback := ds } := by
  simp only [Bridge.step] at h
  split at h
  · cases h
  · rename_i d ds hd
    exact ⟨d, ds, hd, (Option.some.inj h).symm⟩

theorem step_look (h : s.step env .look = some s') :
    s.watch = .asleep ∧ s' = { s with watch := .looked s.poll.b.state s.callback.isEmpty } := by
  simp only [Bridge.step] at h
  split at h
  · rename_i hw
    exact ⟨hw, (Option.some.inj h).symm⟩
  · cases h

theorem step_judge {onLed onStatus onDriver : Bool}
    (h : s.step env (.judge onLed onStatus onDriver) = some s') :
    ∃ st calm, s.watch = .looked st calm ∧ s' = { s with
      watch := .reporting (stalenessReport st (isStale st s.nowUs) onLed onStatus onDriver) s.nowUs
        calm } := by
  simp only [Bridge.step] at h
  split at h
  · rename_i st calm hw
    exact ⟨st, calm, hw, (Option.some.inj h).symm⟩
  · cases h

theorem step_report {a : Answers} (h : s.step env (.report a) = some s') :
    ∃ d ds atUs calm, s.watch = .reporting (d :: ds) atUs calm ∧
      s' = (s.perform a d).reported ds atUs calm := by
  simp only [Bridge.step] at h
  split at h
  · rename_i d ds atUs calm hw
    exact ⟨d, ds, atUs, calm, hw, (Option.some.inj h).symm⟩
  · cases h

/-- The Proxmox runtime goes on, by anything but a call of `pve_eval`. -/
theorem step_pve {e : Pve.Ev} (h : s.step env (.pve e) = some s') :
    (∀ known onMains socPct nowUs allocOk, e ≠ .observe known onMains socPct nowUs allocOk) ∧
      ∃ p, Pve.step s.pve e = some p ∧ s' = { s with pve := p } := by
  have hne : ∀ known onMains socPct nowUs allocOk,
      e ≠ .observe known onMains socPct nowUs allocOk := by
    intro known onMains socPct nowUs allocOk he
    rw [he] at h
    cases h
  have hstep : s.step env (.pve e) = (Pve.step s.pve e).map fun p => { s with pve := p } := by
    cases e with
    | observe known onMains socPct nowUs allocOk => exact absurd rfl (hne _ _ _ _ _)
    | _ => rfl
  rw [hstep] at h
  obtain ⟨p, hp, hs⟩ := Option.map_eq_some_iff.mp h
  exact ⟨hne, p, hp, hs.symm⟩

/-- What is left of a round. -/
def Watch.deeds : Watch → List Deed
  | .reporting ds _ _ => ds
  | _ => []

/-- All that the tasks' deeds change. -/
structure SameWorld (s s' : Bridge κ) : Prop where
  led : s'.led = s.led
  vars : s'.vars = s.vars
  pve : s'.pve = s.pve
  heard : s'.heard = s.heard
  shown : s'.shown = s.shown

theorem sameWorld_reported (s : Bridge κ) (ds : List Deed) (atUs : Int) (calm : Bool) :
    SameWorld s (s.reported ds atUs calm) := by
  cases ds <;> exact ⟨rfl, rfl, rfl, rfl, rfl⟩

/-- **What a step can do** to the world outside the tasks: a deed that was due, or a step of the
    Proxmox runtime, or nothing. -/
theorem step_world {e : Ev} (h : s.step env e = some s') :
    (∃ a d, (d ∈ s.callback ∨ d ∈ s.watch.deeds) ∧ SameWorld (s.perform a d) s') ∨
      (∃ pe p, (∀ known onMains socPct nowUs allocOk,
          pe ≠ .observe known onMains socPct nowUs allocOk) ∧ Pve.step s.pve pe = some p ∧
        s' = { s with pve := p }) ∨ SameWorld s s' := by
  cases e with
  | pass us =>
      obtain rfl := Option.some.inj h
      exact .inr (.inr ⟨rfl, rfl, rfl, rfl, rfl⟩)
  | ble e measured told =>
      obtain ⟨-, p, -, ⟨-, rfl⟩ | ⟨c, -, rfl⟩⟩ := step_ble h
      · exact .inr (.inr ⟨rfl, rfl, rfl, rfl, rfl⟩)
      · exact .inr (.inr ⟨rfl, rfl, rfl, rfl, rfl⟩)
  | callback a =>
      obtain ⟨d, ds, hd, rfl⟩ := step_callback h
      exact .inl ⟨a, d, .inl (hd ▸ List.mem_cons_self), rfl, rfl, rfl, rfl, rfl⟩
  | look =>
      obtain ⟨-, rfl⟩ := step_look h
      exact .inr (.inr ⟨rfl, rfl, rfl, rfl, rfl⟩)
  | judge onLed onStatus onDriver =>
      obtain ⟨st, calm, -, rfl⟩ := step_judge h
      exact .inr (.inr ⟨rfl, rfl, rfl, rfl, rfl⟩)
  | report a =>
      obtain ⟨d, ds, atUs, calm, hw, rfl⟩ := step_report h
      exact .inl ⟨a, d, .inr (hw ▸ List.mem_cons_self), sameWorld_reported _ ds atUs calm⟩
  | pve e =>
      obtain ⟨hne, p, hp, rfl⟩ := step_pve h
      exact .inr (.inl ⟨e, p, hne, hp, rfl⟩)

/-! ## 4. What the deeds carry -/

/-- A reading of the unit that tells of the mains: published, with every field of the plan asked
    for. -/
structure Tells (calls : List RegsCall) (c : RegsCall) : Prop where
  mem : c ∈ calls
  published : c.published = true
  swept : c.state.sweepDone = true

/-- The names of all variables but the status. -/
def plainNames : List String :=
  ["battery.charge", "battery.charge.low", "battery.runtime", "driver.state"] ++ Nut.detailNames

/-- The power state that a reading stands for. -/
def powerIn (st : BluettiState) : PowerState := if st.acInputPresent then .line else .battery

/-- What a client makes of a status. -/
def powerShown (text : String) : Option PowerState := Notify.powerOf (fit Nut.nutVarValueLen text)

/-- **A deed says no more than its source**: what it tells of the mains is what a reading had. -/
def Deed.Sound (calls : List RegsCall) : Deed → Prop
  | .led _ => True
  | .vars cs => Nut.Names plainNames cs
  | .status text none => ∀ p, powerShown text = some p → p = .offline
  | .status text (some c) => Tells calls c ∧ powerShown text = some (powerIn c.state)
  | .observe known _ _ none => known = false
  | .observe known onMains socPct (some c) =>
      Tells calls c ∧ known = true ∧ onMains = c.state.acInputPresent ∧ socPct = c.state.socPct
  | .notify _ _ _ => True

theorem Tells.mono {calls more : List RegsCall} {c : RegsCall} (h : Tells calls c) :
    Tells (calls ++ more) c := ⟨List.mem_append_left _ h.mem, h.published, h.swept⟩

theorem Deed.Sound.mono {calls more : List RegsCall} {d : Deed} (h : d.Sound calls) :
    d.Sound (calls ++ more) := by
  cases d with
  | led state => trivial
  | vars cs => exact h
  | status text source =>
      cases source with
      | none => exact h
      | some c => exact ⟨h.1.mono, h.2⟩
  | observe known onMains socPct source =>
      cases source with
      | none => exact h
      | some c => exact ⟨h.1.mono, h.2⟩
  | notify status socPct runtimeMin => trivial

theorem names_measurements (cfg : NutSettings) (st : BluettiState) :
    Nut.Names plainNames (measurementCalls cfg st) := by
  refine Nut.names_append (Nut.names_append (Nut.names_append (Nut.names_callsIf ?_) ?_) ?_) ?_
  · exact Nut.names_set (by simp [plainNames]) _ Nut.names_nil
  · exact Nut.names_set (by simp [plainNames]) _ Nut.names_nil
  · refine Nut.names_cons ?_ Nut.names_nil
    rw [Nut.runtimeCall_name]
    simp [plainNames]
  · exact fun c hc => List.mem_append_right _ (Nut.names_detail cfg st c hc)

/-- Every status the callback can publish fits, and stands for what was read. -/
theorem powerShown_published (low : Int) (st : BluettiState) :
    powerShown (publishPower low st).status = if st.sweepDone then some (powerIn st) else none := by
  have hline : ∀ chrg : Bool, powerShown ("OL" ++ if chrg then " CHRG" else "") = some .line := by
    decide +kernel
  have hbatt : ∀ lb chrg : Bool, powerShown ("OB" ++ (if lb then " LB" else "") ++
      if chrg then " CHRG" else " DISCHRG") = some .battery := by
    decide +kernel
  have hwait : powerShown "OL WAIT" = none := by decide +kernel
  unfold publishPower powerIn
  cases st.sweepDone with
  | false => exact hwait
  | true =>
      cases st.acInputPresent with
      | true => exact hline st.charging
      | false => exact hbatt _ st.charging

/-- **The callback** says what its reading had. -/
theorem sound_bluettiCb {calls : List RegsCall} {c : RegsCall} (hc : c ∈ calls)
    (hp : c.published = true) (measured told : NutSettings) :
    ∀ d ∈ bluettiCb measured told c, d.Sound calls := by
  have hshown := powerShown_published told.runtimeLowS.toNat c.state
  unfold bluettiCb
  simp only [List.forall_mem_cons]
  refine ⟨trivial, ?_⟩
  cases hv : c.state.valid with
  | false => exact List.forall_mem_nil _
  | true =>
      simp only [Bool.not_true, Bool.false_eq_true, if_false, List.forall_mem_cons]
      refine ⟨names_measurements measured c.state, ?_⟩
      cases hs : c.state.sweepDone with
      | false =>
          rw [hs] at hshown
          simp only [Bool.not_false, if_true, List.forall_mem_cons]
          refine ⟨fun p h => ?_, rfl, List.forall_mem_nil _⟩
          have h := hshown.symm.trans h
          cases h
      | true =>
          rw [hs] at hshown
          simp only [Bool.not_true, Bool.false_eq_true, if_false, List.forall_mem_cons]
          have htells : Tells calls c := ⟨hc, hp, hs⟩
          exact ⟨⟨htells, rfl, rfl, rfl⟩, ⟨htells, hshown⟩, trivial, List.forall_mem_nil _⟩

/-- **A report of staleness** claims nothing of the mains. -/
theorem sound_stalenessReport (calls : List RegsCall) (st : BluettiState)
    (stale onLed onStatus onDriver : Bool) :
    ∀ d ∈ stalenessReport st stale onLed onStatus onDriver, d.Sound calls := by
  have hdriver : ∀ v, Nut.Names plainNames [.set "driver.state" v] := fun v =>
    Nut.names_set (by simp [plainNames]) v Nut.names_nil
  have hwait : ∀ b : Bool, powerShown (if b then "OL WAIT" else "OFF") =
      if b then none else some .offline := by
    decide +kernel
  unfold stalenessReport
  simp only [List.forall_mem_cons]
  refine ⟨trivial, ?_⟩
  cases stale with
  | false => exact List.forall_mem_singleton.mpr (hdriver _)
  | true =>
      simp only [if_true, List.forall_mem_cons]
      refine ⟨fun p h => ?_, hdriver _, trivial, rfl, List.forall_mem_nil _⟩
      have h := (hwait onStatus).symm.trans h
      cases onStatus with
      | true => cases h
      | false => exact (Option.some.inj h).symm

/-- What stands of the bridge between two steps: the poll loop's record, and the deeds to come. -/
structure SoundInv (s : Bridge κ) : Prop where
  named : Ble.Named s.poll
  readings : ∀ c ∈ s.poll.calls, c.published = true →
    (c.state.acInputPresent = true ↔ 0 < c.state.acInWatts ∨ 0 < c.state.acInVolts)
  callback : ∀ d ∈ s.callback, d.Sound s.poll.calls
  watch : ∀ d ∈ s.watch.deeds, d.Sound s.poll.calls

theorem deeds_disturbed (w : Watch) : w.disturbed.deeds = w.deeds := by
  cases w <;> rfl

theorem deeds_reported {s : Bridge κ} {ds : List Deed} {atUs : Int} {calm : Bool} :
    (s.reported ds atUs calm).watch.deeds = ds := by
  cases ds <;> rfl

/-- A deed leaves the loop and the two lists alone. -/
theorem perform_tasks (s : Bridge κ) (a : Answers) (d : Deed) :
    (s.perform a d).poll = s.poll ∧ (s.perform a d).callback = s.callback ∧
      (s.perform a d).watch = s.watch ∧ (s.perform a d).nowUs = s.nowUs ∧
      (s.perform a d).newest = s.newest ∧ (s.perform a d).checked = s.checked := by
  cases d <;> exact ⟨rfl, rfl, rfl, rfl, rfl, rfl⟩

theorem reported_tasks (s : Bridge κ) (ds : List Deed) (atUs : Int) (calm : Bool) :
    (s.reported ds atUs calm).poll = s.poll ∧ (s.reported ds atUs calm).callback = s.callback ∧
      (s.reported ds atUs calm).nowUs = s.nowUs ∧ (s.reported ds atUs calm).newest = s.newest := by
  cases ds <;> exact ⟨rfl, rfl, rfl, rfl⟩

/-- **Every step keeps it.** -/
theorem soundInv_step (s : Bridge κ) (e : Ev) (s' : Bridge κ) (hI : SoundInv s)
    (h : s.step env e = some s') : SoundInv s' := by
  cases e with
  | pass us => exact Option.some.inj h ▸ ⟨hI.named, hI.readings, hI.callback, hI.watch⟩
  | ble e measured told =>
      obtain ⟨-, p, hp, hcase⟩ := step_ble h
      obtain ⟨hnamed, hread⟩ := Ble.reading_step hI.named hp
      rcases hread with ⟨c, hc⟩ | hs
      · obtain ⟨now, -, hfresh⟩ := hc.fresh
        rcases hcase with ⟨hnone, -⟩ | ⟨c', hc', rfl⟩
        · rw [hc.it] at hnone
          cases hnone
        obtain rfl : c = c' := Option.some.inj (hc.it.symm.trans hc')
        refine ⟨hnamed, fun d hd hpub => ?_, ?_, fun d hd => ?_⟩
        · rw [show p.calls = s.poll.calls ++ [c] from hc.last] at hd
          rcases List.mem_append.mp hd with hd | hd
          · exact hI.readings d hd hpub
          · rw [List.mem_singleton.mp hd]
            exact hfresh.mains
        · refine sound_bluettiCb ?_ hc.marked measured told
          rw [show p.calls = s.poll.calls ++ [c] from hc.last]
          exact List.mem_append_right _ List.mem_cons_self
        · rw [show p.calls = s.poll.calls ++ [c] from hc.last]
          rw [show Watch.deeds _ = s.watch.deeds from deeds_disturbed s.watch] at hd
          exact (hI.watch d hd).mono
      · rcases hcase with ⟨-, rfl⟩ | ⟨c', hc', -⟩
        · rcases hs.calls with hcalls | ⟨c, hcalls, hpub⟩
          · refine ⟨hnamed, ?_, ?_, ?_⟩
            · rw [show p.calls = s.poll.calls from hcalls]
              exact hI.readings
            · rw [show p.calls = s.poll.calls from hcalls]
              exact hI.callback
            · rw [show p.calls = s.poll.calls from hcalls]
              exact hI.watch
          · refine ⟨hnamed, fun d hd hd' => ?_, fun d hd => ?_, fun d hd => ?_⟩
            · rw [show p.calls = s.poll.calls ++ [c] from hcalls] at hd
              rcases List.mem_append.mp hd with hd | hd
              · exact hI.readings d hd hd'
              · rw [List.mem_singleton.mp hd, hpub] at hd'
                cases hd'
            · rw [show p.calls = s.poll.calls ++ [c] from hcalls]
              exact (hI.callback d hd).mono
            · rw [show p.calls = s.poll.calls ++ [c] from hcalls]
              exact (hI.watch d hd).mono
        · rw [hs.it] at hc'
          cases hc'
  | callback a =>
      obtain ⟨d, ds, hd, rfl⟩ := step_callback h
      obtain ⟨hpoll, -, hwatch, -⟩ := perform_tasks s a d
      refine ⟨hpoll ▸ hI.named, hpoll ▸ hI.readings, fun d' hd' => ?_, ?_⟩
      · show d'.Sound (s.perform a d).poll.calls
        rw [hpoll]
        exact hI.callback d' (hd ▸ List.mem_cons_of_mem d hd')
      · show ∀ d' ∈ (s.perform a d).watch.deeds, d'.Sound (s.perform a d).poll.calls
        rw [hpoll, hwatch]
        exact hI.watch
  | look =>
      obtain ⟨-, rfl⟩ := step_look h
      exact ⟨hI.named, hI.readings, hI.callback, List.forall_mem_nil _⟩
  | judge onLed onStatus onDriver =>
      obtain ⟨st, calm, -, rfl⟩ := step_judge h
      exact ⟨hI.named, hI.readings, hI.callback,
        sound_stalenessReport _ st _ onLed onStatus onDriver⟩
  | report a =>
      obtain ⟨d, ds, atUs, calm, hw, rfl⟩ := step_report h
      obtain ⟨hpoll, hcb, -⟩ := perform_tasks s a d
      obtain ⟨hpoll', hcb', -⟩ := reported_tasks (s.perform a d) ds atUs calm
      have hp := hpoll'.trans hpoll
      refine ⟨hp ▸ hI.named, hp ▸ hI.readings, ?_, fun d' hd' => ?_⟩
      · rw [hp, hcb', hcb]
        exact hI.callback
      · rw [deeds_reported] at hd'
        rw [hp]
        exact hI.watch d' (by rw [hw]; exact List.mem_cons_of_mem d hd')
  | pve e =>
      obtain ⟨-, p, -, rfl⟩ := step_pve h
      exact ⟨hI.named, hI.readings, hI.callback, hI.watch⟩

theorem soundInv_start (controls : Bool) (lowPct : Int) (driverVersion label : String)
    (cfg : Pve.PveConfig) (guests : Pve.GuestLists) :
    SoundInv (Bridge.start controls lowPct driverVersion label cfg guests : Bridge κ) := by
  refine ⟨fun hlink => (by cases hlink), List.forall_mem_nil _, List.forall_mem_nil _,
    List.forall_mem_nil _⟩

end

end NutBluetti.App
