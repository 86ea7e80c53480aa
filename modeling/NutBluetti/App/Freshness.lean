/-
  File:      NutBluetti/App/Freshness.lean
  Subject:   WHAT IS SHOWN IS FRESH: what the NUT clients read as the power state, and the colour of
             the LED, against the age of the reading behind them.

  `staleness_task` has to withdraw what `bluetti_cb` put there; the two overlap as they like. A
  round is checked that looked after the last callback was through, and has reported.

  * `Backed` -- `ups.status` stands for the power state of the reading it came from;
  * **`status_backed_and_fresh`** -- a client that reads a power state reads that of a swept reading
    of the unit, and that reading, and the one behind a green LED, was 30 seconds old at most
    whenever a round was checked since.
-/
import NutBluetti.App.Shutdowns

namespace NutBluetti.App

open CText (fit)
open Ble (Env RegsCall)
open Notify (PowerState)
open Nut (VarCall VarTable nutServerGetVar nutServerSetStatus)

/-! ## 1. The status on the table -/

/-- The map that calls on known names leave. -/
theorem getVar_runCalls {cs : List VarCall} (h : Nut.Names Nut.varNames cs) {t : VarTable}
    (hr : Slots.Room Nut.varNames t) :
    nutServerGetVar (Nut.runCalls cs t) = Nut.applyCalls cs (nutServerGetVar t) := by
  rw [Nut.runCalls_slots h]
  exact Slots.lookup_runAll hr (Nut.slotCall_mem h)

theorem names_of_plain {cs : List VarCall} (h : Nut.Names plainNames cs) :
    Nut.Names Nut.varNames cs := by
  have hsub : ∀ n ∈ plainNames, n ∈ Nut.varNames := by decide +kernel
  exact fun c hc => hsub _ (h c hc)

theorem names_status (text : String) : Nut.Names Nut.varNames [nutServerSetStatus text] :=
  Nut.names_set (by simp [Nut.varNames]) _ Nut.names_nil

section Table

variable {t : VarTable} (hr : Slots.Room Nut.varNames t)
include hr

theorem getVar_plain {cs : List VarCall} (h : Nut.Names plainNames cs) :
    nutServerGetVar (Nut.runCalls cs t) "ups.status" = nutServerGetVar t "ups.status" := by
  rw [getVar_runCalls (names_of_plain h) hr]
  exact Nut.applyCalls_other h (by decide +kernel) _

theorem getVar_setStatus (text : String) :
    nutServerGetVar (Nut.runCalls [nutServerSetStatus text] t) "ups.status" =
      some (fit Nut.nutVarValueLen text) := by
  rw [getVar_runCalls (names_status text) hr]
  exact (Nut.applyCalls_set _ _ _ _).trans (if_pos rfl)

end Table

theorem getVar_start (driverVersion : String) :
    nutServerGetVar (Nut.nutServerStart driverVersion) "ups.status" = some "OFF" := by
  rfl

/-! ## 2. The invariant -/

variable {κ : Type} {env : Env κ}

/-- **The status stands for its source**: the power state of a reading, or at most that the unit is
    out of reach. -/
def Backed (s : Bridge κ) : Prop :=
  ∃ text, nutServerGetVar s.vars "ups.status" = some text ∧
    match s.shown with
    | none => ∀ p, Notify.powerOf text = some p → p = .offline
    | some c => Tells s.poll.calls c ∧ Notify.powerOf text = some (powerIn c.state)

/-- The last reading was 30 seconds old at most. -/
def FreshAt (s : Bridge κ) (atUs : Int) : Prop :=
  ∃ c, s.newest = some c ∧ atUs - c.state.updatedUs ≤ staleAfterUs

/-- A change of the status is among the deeds. -/
def Tasked (ds : List Deed) : Prop := ∃ text source, .status text source ∈ ds

/-- Neither the status nor the LED claims anything of the unit. -/
def Withdrawn (s : Bridge κ) : Prop := s.shown = none ∧ s.led = .boot

/-- **A report in progress** on a reading that nothing disturbed: the reading is fresh, or what is
    shown is being withdrawn. -/
def ReportInv (s : Bridge κ) (ds : List Deed) (atUs : Int) : Prop :=
  FreshAt s atUs ∨ ((Tasked ds ∨ s.shown = none) ∧ (.led .boot ∈ ds ∨ s.led = .boot) ∧
    .led .linked ∉ ds)

/-- What a look without a callback under way saw. -/
def LookInv (s : Bridge κ) : Prop :=
  match s.watch with
  | .asleep => True
  | .looked st calm =>
      if calm then s.callback = [] ∧ (st.valid = true →
        ∃ c, s.newest = some c ∧ c.state.updatedUs = st.updatedUs)
      else s.checked = none
  | .reporting ds atUs calm =>
      if calm then s.callback = [] ∧ atUs ≤ s.nowUs ∧ ReportInv s ds atUs else s.checked = none

structure FreshInv (s : Bridge κ) : Prop where
  sound : SoundInv s
  room : Slots.Room Nut.varNames s.vars
  backed : Backed s
  newest : s.poll.b.state.valid = true →
    ∃ c, s.newest = some c ∧ c.state.updatedUs = s.poll.b.state.updatedUs
  /-- The callback shows its own reading, and no report shows any. -/
  sources : ∀ text source, .status text source ∈ s.callback → source = none ∨ source = s.newest
  withdraws : ∀ text source, .status text source ∈ s.watch.deeds → source = none
  shown : Tasked s.callback ∨ s.shown = none ∨ s.shown = s.newest
  look : LookInv s
  checked : ∀ atUs, s.checked = some atUs → s.callback = [] ∧ atUs ≤ s.nowUs ∧
    (FreshAt s atUs ∨ (Withdrawn s ∧ .led .linked ∉ s.watch.deeds))

/-! ## 3. Deeds -/

section Perform

variable {s : Bridge κ} {a : Answers} {d : Deed}

/-- A deed keeps the table in order, and the status that of its source. -/
theorem perform_backed (hr : Slots.Room Nut.varNames s.vars) (hb : Backed s)
    (hd : d.Sound s.poll.calls) :
    Slots.Room Nut.varNames (s.perform a d).vars ∧ Backed (s.perform a d) := by
  cases d with
  | led state => exact ⟨hr, hb⟩
  | vars cs =>
      refine ⟨Nut.room_runCalls (names_of_plain hd) hr, ?_⟩
      unfold Backed
      rw [show nutServerGetVar (s.perform a (.vars cs)).vars "ups.status" = _ from
        getVar_plain hr hd]
      exact hb
  | status text source =>
      refine ⟨Nut.room_runCalls (names_status text) hr, _, getVar_setStatus hr text, ?_⟩
      cases source with
      | none => exact hd
      | some c => exact hd
  | observe known onMains socPct source => exact ⟨hr, hb⟩
  | notify status socPct runtimeMin => exact ⟨hr, hb⟩

/-- What a deed of a report, on a reading not fresh, leaves to be withdrawn. -/
theorem perform_withdraws {ds : List Deed}
    (hsrc : ∀ text source, .status text source ∈ d :: ds → source = none)
    (h : (Tasked (d :: ds) ∨ s.shown = none) ∧ (.led .boot ∈ d :: ds ∨ s.led = .boot) ∧
      .led .linked ∉ d :: ds) :
    (Tasked ds ∨ (s.perform a d).shown = none) ∧
      (.led .boot ∈ ds ∨ (s.perform a d).led = .boot) ∧ .led .linked ∉ ds := by
  obtain ⟨hstatus, hled, hno⟩ := h
  have hno' : .led .linked ∉ ds := fun hm => hno (List.mem_cons_of_mem d hm)
  have hstatus' : (∀ text source, d ≠ .status text source) → Tasked ds ∨ s.shown = none := by
    intro hne
    refine hstatus.imp_left fun ht => ?_
    obtain ⟨text, source, hm⟩ := ht
    exact ⟨text, source, (List.mem_cons.mp hm).resolve_left fun heq => hne _ _ heq.symm⟩
  have hled' : d ≠ .led .boot → .led .boot ∈ ds ∨ s.led = .boot := by
    intro hne
    exact hled.imp_left fun hm => (List.mem_cons.mp hm).resolve_left fun heq => hne heq.symm
  cases d with
  | led state =>
      refine ⟨hstatus' (fun _ _ h => by cases h), ?_, hno'⟩
      cases state with
      | boot => exact .inr rfl
      | linked => exact absurd List.mem_cons_self hno
  | status text source =>
      exact ⟨.inr (hsrc text source List.mem_cons_self), hled' (fun h => by cases h), hno'⟩
  | vars cs => exact ⟨hstatus' (fun _ _ h => by cases h), hled' (fun h => by cases h), hno'⟩
  | observe known onMains socPct source =>
      exact ⟨hstatus' (fun _ _ h => by cases h), hled' (fun h => by cases h), hno'⟩
  | notify status socPct runtimeMin =>
      exact ⟨hstatus' (fun _ _ h => by cases h), hled' (fun h => by cases h), hno'⟩

/-- A deed of a report leaves what is withdrawn so, if it is not the green LED. -/
theorem perform_withdrawn {ds : List Deed}
    (hsrc : ∀ text source, .status text source ∈ d :: ds → source = none) (h : Withdrawn s)
    (hno : .led .linked ∉ d :: ds) : Withdrawn (s.perform a d) := by
  obtain ⟨hshown, hled⟩ := h
  cases d with
  | led state =>
      refine ⟨hshown, ?_⟩
      cases state with
      | boot => rfl
      | linked => exact absurd List.mem_cons_self hno
  | status text source => exact ⟨hsrc text source List.mem_cons_self, hled⟩
  | vars cs => exact ⟨hshown, hled⟩
  | observe known onMains socPct source => exact ⟨hshown, hled⟩
  | notify status socPct runtimeMin => exact ⟨hshown, hled⟩

/-- The reading shown changes with a status only. -/
theorem perform_shown : (s.perform a d).shown = s.shown ∨
    ∃ text, d = .status text (s.perform a d).shown := by
  cases d with
  | status text source => exact .inr ⟨text, rfl⟩
  | _ => exact .inl rfl

end Perform

/-- The callback of a valid reading changes the status, by its own reading if any. -/
theorem sources_bluettiCb (measured told : Nut.NutSettings) (c : RegsCall) :
    (c.state.valid = true → Tasked (bluettiCb measured told c)) ∧
      ∀ text source, .status text source ∈ bluettiCb measured told c →
        source = none ∨ source = some c := by
  unfold bluettiCb Tasked
  cases hv : c.state.valid <;> cases hs : c.state.sweepDone <;> simp [hv, hs]

/-- A report on a stale state withdraws all of it; one on a fresh state leaves it. -/
theorem sources_stalenessReport (st : Ble.BluettiState) (stale onLed onStatus onDriver : Bool) :
    (∀ text source, .status text source ∈ stalenessReport st stale onLed onStatus onDriver →
      source = none) ∧
    (stale = true → Tasked (stalenessReport st stale onLed onStatus onDriver) ∧
      .led .boot ∈ stalenessReport st stale onLed onStatus onDriver ∧
      .led .linked ∉ stalenessReport st stale onLed onStatus onDriver) := by
  unfold stalenessReport Tasked
  cases stale <;> cases onLed <;> simp

/-! ## 4. Steps -/

section Steps

variable {s s' : Bridge κ}

theorem freshInv_pass (hI : FreshInv s) (us : Nat) :
    FreshInv { s with nowUs := s.nowUs + us } := by
  have hle : ∀ t : Int, t ≤ s.nowUs → t ≤ s.nowUs + us := fun t ht => by omega
  refine ⟨⟨hI.sound.named, hI.sound.readings, hI.sound.callback, hI.sound.watch⟩, hI.room,
    hI.backed, hI.newest, hI.sources, hI.withdraws, hI.shown, ?_, fun atUs hc => ?_⟩
  · have hlook := hI.look
    unfold LookInv at hlook ⊢
    show match s.watch with
      | .asleep => True
      | .looked st calm => _
      | .reporting ds atUs calm => _
    cases hw : s.watch with
    | asleep => trivial
    | looked st calm =>
        rw [hw] at hlook
        exact hlook
    | reporting ds atUs calm =>
        rw [hw] at hlook
        cases calm with
        | false => exact hlook
        | true => exact ⟨hlook.1, hle _ hlook.2.1, hlook.2.2⟩
  · obtain ⟨hcb, hnow, hfresh⟩ := hI.checked atUs hc
    exact ⟨hcb, hle _ hnow, hfresh⟩

/-- The poll loop goes on without a reading: the state is no newer than before. -/
theorem freshInv_silent (hI : FreshInv s) {p : Ble.Poll κ} (hsound : SoundInv { s with poll := p })
    (hs : Ble.Silent s.poll p) : FreshInv { s with poll := p } := by
  refine ⟨hsound, hI.room, ?_, fun hv => ?_, hI.sources, hI.withdraws, hI.shown, hI.look,
    hI.checked⟩
  · obtain ⟨text, hget, hback⟩ := hI.backed
    refine ⟨text, hget, ?_⟩
    show match s.shown with
      | none => _
      | some c => Tells p.calls c ∧ _
    cases hshown : s.shown with
    | none =>
        rw [hshown] at hback
        exact hback
    | some c =>
        rw [hshown] at hback
        refine ⟨?_, hback.2⟩
        rcases hs.calls with hcalls | ⟨c', hcalls, -⟩
        · exact hcalls ▸ hback.1
        · exact hcalls ▸ hback.1.mono
  · rcases hs.state with hbad | hsame
    · rw [show p.b.state.valid = true from hv] at hbad
      cases hbad
    · obtain ⟨c, hc, hstamp⟩ := hI.newest (hsame.valid ▸ hv)
      exact ⟨c, hc, hstamp.trans hsame.stamp.symm⟩

/-- **A callback begins**: nothing is checked any more. -/
theorem freshInv_reading (hI : FreshInv s) {p : Ble.Poll κ} {e : Ble.PollEv} {c : RegsCall}
    {measured told : Nut.NutSettings} (hc : Ble.Publishes s.poll p e c)
    (hsound : SoundInv { s with
      poll := p, callback := bluettiCb measured told c, newest := some c, checked := none
      watch := s.watch.disturbed }) :
    FreshInv { s with
      poll := p, callback := bluettiCb measured told c, newest := some c, checked := none
      watch := s.watch.disturbed } := by
  obtain ⟨now, -, hfresh⟩ := hc.fresh
  obtain ⟨htasked, hsources⟩ := sources_bluettiCb measured told c
  refine ⟨hsound, hI.room, ?_, fun _ => ⟨c, rfl, by rw [hc.state]⟩, hsources,
    fun text source hm => ?_, .inl (htasked hfresh.valid), ?_, fun atUs hnone => (by cases hnone)⟩
  · obtain ⟨text, hget, hback⟩ := hI.backed
    refine ⟨text, hget, ?_⟩
    show match s.shown with
      | none => _
      | some c => Tells p.calls c ∧ _
    cases hshown : s.shown with
    | none =>
        rw [hshown] at hback
        exact hback
    | some c' =>
        rw [hshown] at hback
        exact ⟨hc.last ▸ hback.1.mono, hback.2⟩
  · rw [show Watch.deeds _ = s.watch.deeds from deeds_disturbed s.watch] at hm
    exact hI.withdraws text source hm
  · unfold LookInv
    show match s.watch.disturbed with
      | .asleep => True
      | .looked st calm => _
      | .reporting ds atUs calm => _
    cases s.watch with
    | asleep => trivial
    | looked st calm => rfl
    | reporting ds atUs calm => rfl

/-- **A deed of the callback**: while one is due nothing is checked, and a round under way is not
    going to be. -/
theorem freshInv_callback (hI : FreshInv s) {a : Answers} {d : Deed} {ds : List Deed}
    (hd : s.callback = d :: ds) (hsound : SoundInv { s.perform a d with callback := ds }) :
    FreshInv { s.perform a d with callback := ds } := by
  obtain ⟨hpoll, -, hwatch, hnow, hnewest, hchecked⟩ := perform_tasks s a d
  have hsub : ∀ {x}, x ∈ ds → x ∈ s.callback := fun hx => hd ▸ List.mem_cons_of_mem d hx
  have hdue : s.callback ≠ [] := by
    rw [hd]
    exact List.cons_ne_nil d ds
  obtain ⟨hroom, hbacked⟩ := perform_backed (a := a) hI.room hI.backed
    (hI.sound.callback d (hd ▸ List.mem_cons_self))
  refine ⟨hsound, hroom, hbacked, ?_, fun text source hm => ?_, ?_, ?_, ?_, fun atUs hc => ?_⟩
  · show (s.perform a d).poll.b.state.valid = true → ∃ c, (s.perform a d).newest = some c ∧
      c.state.updatedUs = (s.perform a d).poll.b.state.updatedUs
    rw [hpoll, hnewest]
    exact hI.newest
  · show source = none ∨ source = (s.perform a d).newest
    rw [hnewest]
    exact hI.sources text source (hsub hm)
  · show ∀ text source, .status text source ∈ (s.perform a d).watch.deeds → source = none
    rw [hwatch]
    exact hI.withdraws
  · show Tasked ds ∨ (s.perform a d).shown = none ∨ (s.perform a d).shown = (s.perform a d).newest
    rw [hnewest]
    rcases perform_shown (s := s) (a := a) (d := d) with heq | ⟨text, hst⟩
    · rw [heq]
      rcases hI.shown with ht | hshown
      · obtain ⟨text, source, hm⟩ := ht
        rw [hd] at hm
        rcases List.mem_cons.mp hm with rfl | hm
        · exact .inr (heq ▸ hI.sources text source (hd ▸ List.mem_cons_self))
        · exact .inl ⟨text, source, hm⟩
      · exact .inr hshown
    · refine .inr (hI.sources text (s.perform a d).shown ?_)
      rw [hd, ← hst]
      exact List.mem_cons_self
  · have hlook := hI.look
    unfold LookInv at hlook ⊢
    show match (s.perform a d).watch with
      | .asleep => True
      | .looked st calm => _
      | .reporting ds' atUs calm => _
    rw [hwatch]
    cases hw : s.watch with
    | asleep => trivial
    | looked st calm =>
        rw [hw] at hlook
        cases calm with
        | true => exact absurd hlook.1 hdue
        | false => exact hchecked.trans hlook
    | reporting ds' atUs calm =>
        rw [hw] at hlook
        cases calm with
        | true => exact absurd hlook.1 hdue
        | false => exact hchecked.trans hlook
  · exact absurd (hI.checked atUs (hchecked ▸ hc)).1 hdue

/-- **A look**: it is calm when no callback is under way, and then takes the last reading. -/
theorem freshInv_look (hI : FreshInv s)
    (hsound : SoundInv { s with watch := .looked s.poll.b.state s.callback.isEmpty }) :
    FreshInv { s with watch := .looked s.poll.b.state s.callback.isEmpty } := by
  refine ⟨hsound, hI.room, hI.backed, hI.newest, hI.sources, fun _ _ hm => (by cases hm), hI.shown,
    ?_, fun atUs hc => ?_⟩
  · show if s.callback.isEmpty then s.callback = [] ∧ (s.poll.b.state.valid = true → _)
      else s.checked = none
    split
    · rename_i hempty
      exact ⟨List.isEmpty_iff.mp hempty, hI.newest⟩
    · rename_i hempty
      cases hc : s.checked with
      | none => rfl
      | some atUs => exact absurd (List.isEmpty_iff.mpr (hI.checked atUs hc).1) hempty
  · obtain ⟨hcb, hnow, hfresh⟩ := hI.checked atUs hc
    exact ⟨hcb, hnow, hfresh.imp_right fun hwd => ⟨hwd.1, List.not_mem_nil⟩⟩

/-- What is fresh now was fresh before. -/
theorem FreshAt.earlier {atUs earlier : Int} (h : FreshAt s atUs) (hle : earlier ≤ atUs) :
    FreshAt s earlier := by
  obtain ⟨c, hc, hage⟩ := h
  exact ⟨c, hc, by omega⟩

/-- **The verdict**: a calm look that is not stale found the last reading fresh, and so does every
    round before it; one that is stale begins to withdraw. -/
theorem freshInv_judge (hI : FreshInv s) {st : Ble.BluettiState} {calm : Bool}
    (hw : s.watch = .looked st calm) {onLed onStatus onDriver : Bool}
    (hsound : SoundInv { s with
      watch := .reporting (stalenessReport st (isStale st s.nowUs) onLed onStatus onDriver) s.nowUs
        calm }) :
    FreshInv { s with
      watch := .reporting (stalenessReport st (isStale st s.nowUs) onLed onStatus onDriver) s.nowUs
        calm } := by
  obtain ⟨hnone, hstale⟩ := sources_stalenessReport st (isStale st s.nowUs) onLed onStatus onDriver
  have hlook := hI.look
  unfold LookInv at hlook
  rw [hw] at hlook
  have hfreshNow : calm = true → isStale st s.nowUs = false → FreshAt s s.nowUs := by
    intro hcalm hfresh
    rw [hcalm] at hlook
    unfold isStale at hfresh
    obtain ⟨hv, hage⟩ := Bool.or_eq_false_iff.mp hfresh
    obtain ⟨c, hc, hstamp⟩ := hlook.2 (by simpa using hv)
    have hage : ¬ s.nowUs - st.updatedUs > staleAfterUs := of_decide_eq_false hage
    exact ⟨c, hc, by omega⟩
  refine ⟨hsound, hI.room, hI.backed, hI.newest, hI.sources, hnone, hI.shown, ?_, fun atUs hc => ?_⟩
  · show if calm then s.callback = [] ∧ s.nowUs ≤ s.nowUs ∧ _ else s.checked = none
    cases hcalm : calm with
    | false =>
        rw [hcalm] at hlook
        exact hlook
    | true =>
        have hlook' := hlook
        rw [hcalm] at hlook'
        refine ⟨hlook'.1, Int.le_refl _, ?_⟩
        cases hs : isStale st s.nowUs with
        | false => exact .inl (hfreshNow hcalm hs)
        | true =>
            obtain ⟨ht, hb, hl⟩ := hstale hs
            rw [hs] at ht hb hl
            exact .inr ⟨.inl ht, .inl hb, hl⟩
  · obtain ⟨hcb, hnow, hfresh⟩ := hI.checked atUs hc
    refine ⟨hcb, hnow, ?_⟩
    cases hcalm : calm with
    | false =>
        rw [hcalm] at hlook
        have hlook : s.checked = none := hlook
        have hc : s.checked = some atUs := hc
        rw [hlook] at hc
        cases hc
    | true =>
        cases hs : isStale st s.nowUs with
        | false => exact .inl ((hfreshNow hcalm hs).earlier hnow)
        | true =>
            have hno := (hstale hs).2.2
            rw [hs] at hno
            exact hfresh.imp_right fun hwd => ⟨hwd.1, hno⟩

/-- **A deed of the report**, and the end of it: a calm round that is through is checked. -/
theorem freshInv_report (hI : FreshInv s) {a : Answers} {d : Deed} {ds : List Deed} {atUs : Int}
    {calm : Bool} (hw : s.watch = .reporting (d :: ds) atUs calm)
    (hsound : SoundInv ((s.perform a d).reported ds atUs calm)) :
    FreshInv ((s.perform a d).reported ds atUs calm) := by
  obtain ⟨hpoll, hcb, -, hnow, hnewest, hchecked⟩ := perform_tasks s a d
  have hdeeds : s.watch.deeds = d :: ds := by rw [hw]; rfl
  have hsrc : ∀ text source, .status text source ∈ d :: ds → source = none := hdeeds ▸ hI.withdraws
  obtain ⟨hroom, hbacked⟩ := perform_backed (a := a) hI.room hI.backed
    (hI.sound.watch d (hdeeds ▸ List.mem_cons_self))
  have hlook := hI.look
  unfold LookInv at hlook
  rw [hw] at hlook
  -- what was checked before, and what the round will have checked, after the deed
  have hold : ∀ t, s.checked = some t → s.callback = [] ∧ t ≤ s.nowUs ∧
      (FreshAt s t ∨ (Withdrawn (s.perform a d) ∧ .led .linked ∉ ds)) := by
    intro t ht
    obtain ⟨h1, h2, h3⟩ := hI.checked t ht
    refine ⟨h1, h2, h3.imp_right fun hwd => ?_⟩
    rw [hdeeds] at hwd
    exact ⟨perform_withdrawn hsrc hwd.1 hwd.2, fun hm => hwd.2 (List.mem_cons_of_mem d hm)⟩
  have hnext : calm = true → s.callback = [] ∧ atUs ≤ s.nowUs ∧
      (FreshAt s atUs ∨ ((Tasked ds ∨ (s.perform a d).shown = none) ∧
        (.led .boot ∈ ds ∨ (s.perform a d).led = .boot) ∧ .led .linked ∉ ds)) := by
    intro hcalm
    rw [hcalm] at hlook
    exact ⟨hlook.1, hlook.2.1, hlook.2.2.imp_right (perform_withdraws hsrc)⟩
  have hfresh : ∀ {t}, FreshAt s t → FreshAt (s.perform a d) t := by
    intro t h
    unfold FreshAt
    rw [hnewest]
    exact h
  have hshown : Tasked s.callback ∨ (s.perform a d).shown = none ∨
      (s.perform a d).shown = s.newest := by
    rcases perform_shown (s := s) (a := a) (d := d) with heq | ⟨text, hst⟩
    · rw [heq]
      exact hI.shown
    · exact .inr (.inl (hsrc text _ (hst ▸ List.mem_cons_self)))
  have hbase : (s.perform a d).poll.b.state.valid = true →
      ∃ c, (s.perform a d).newest = some c ∧
        c.state.updatedUs = (s.perform a d).poll.b.state.updatedUs := by
    rw [hpoll, hnewest]
    exact hI.newest
  have hsources : ∀ text source, .status text source ∈ (s.perform a d).callback →
      source = none ∨ source = (s.perform a d).newest := by
    rw [hcb, hnewest]
    exact hI.sources
  have hshown' : Tasked (s.perform a d).callback ∨ (s.perform a d).shown = none ∨
      (s.perform a d).shown = (s.perform a d).newest := by
    rw [hcb, hnewest]
    exact hshown
  cases ds with
  | nil =>
      refine ⟨hsound, hroom, hbacked, hbase, hsources, fun _ _ hm => (by cases hm), hshown',
        trivial, fun t ht => ?_⟩
      have ht : (if calm then some atUs else (s.perform a d).checked) = some t := ht
      show (s.perform a d).callback = [] ∧ t ≤ (s.perform a d).nowUs ∧
        (FreshAt (s.perform a d) t ∨ (Withdrawn (s.perform a d) ∧ Deed.led .linked ∉ []))
      rw [hcb, hnow]
      cases hcalm : calm with
      | false =>
          rw [hcalm, hchecked] at ht
          obtain ⟨h1, h2, h3⟩ := hold t ht
          exact ⟨h1, h2, h3.imp_left hfresh⟩
      | true =>
          rw [hcalm] at ht
          obtain rfl : atUs = t := Option.some.inj ht
          obtain ⟨h1, h2, h3⟩ := hnext hcalm
          refine ⟨h1, h2, h3.imp hfresh fun hwd => ⟨⟨?_, ?_⟩, List.not_mem_nil⟩⟩
          · refine hwd.1.resolve_left fun ht => ?_
            obtain ⟨_, _, hm⟩ := ht
            cases hm
          · exact hwd.2.1.resolve_left List.not_mem_nil
  | cons d' ds =>
      refine ⟨hsound, hroom, hbacked, hbase, hsources, ?_, hshown', ?_, fun t ht => ?_⟩
      · exact fun text source hm => hsrc text source (List.mem_cons_of_mem d hm)
      · show if calm then (s.perform a d).callback = [] ∧ atUs ≤ (s.perform a d).nowUs ∧
          ReportInv (s.perform a d) (d' :: ds) atUs else (s.perform a d).checked = none
        rw [hcb, hnow, hchecked]
        cases hcalm : calm with
        | false =>
            rw [hcalm] at hlook
            exact hlook
        | true =>
            obtain ⟨h1, h2, h3⟩ := hnext hcalm
            exact ⟨h1, h2, h3.imp_left hfresh⟩
      · show (s.perform a d).callback = [] ∧ t ≤ (s.perform a d).nowUs ∧
          (FreshAt (s.perform a d) t ∨ (Withdrawn (s.perform a d) ∧ .led .linked ∉ d' :: ds))
        obtain ⟨h1, h2, h3⟩ := hold t (hchecked ▸ ht)
        rw [hcb, hnow]
        exact ⟨h1, h2, h3.imp_left hfresh⟩

/-- **Every step keeps it.** -/
theorem freshInv_step (s : Bridge κ) (e : Ev) (s' : Bridge κ) (hI : FreshInv s)
    (h : s.step env e = some s') : FreshInv s' := by
  have hsound := soundInv_step s e s' hI.sound h
  cases e with
  | pass us => exact Option.some.inj h ▸ freshInv_pass hI us
  | ble e measured told =>
      obtain ⟨-, p, hp, hcase⟩ := step_ble h
      obtain ⟨-, ⟨c, hc⟩ | hs⟩ := Ble.reading_step hI.sound.named hp
      · rcases hcase with ⟨hnone, -⟩ | ⟨c', hc', rfl⟩
        · rw [hc.it] at hnone
          cases hnone
        · obtain rfl : c = c' := Option.some.inj (hc.it.symm.trans hc')
          exact freshInv_reading hI hc hsound
      · rcases hcase with ⟨-, rfl⟩ | ⟨c', hc', -⟩
        · exact freshInv_silent hI hsound hs
        · rw [hs.it] at hc'
          cases hc'
  | callback a =>
      obtain ⟨d, ds, hd, rfl⟩ := step_callback h
      exact freshInv_callback hI hd hsound
  | look =>
      obtain ⟨-, rfl⟩ := step_look h
      exact freshInv_look hI hsound
  | judge onLed onStatus onDriver =>
      obtain ⟨st, calm, hw, rfl⟩ := step_judge h
      exact freshInv_judge hI hw hsound
  | report a =>
      obtain ⟨d, ds, atUs, calm, hw, rfl⟩ := step_report h
      exact freshInv_report hI hw hsound
  | pve e =>
      obtain ⟨-, p, -, rfl⟩ := step_pve h
      exact ⟨hsound, hI.room, hI.backed, hI.newest, hI.sources, hI.withdraws, hI.shown, hI.look,
        hI.checked⟩

end Steps

/-! ## 5. Runs -/

theorem freshInv_start (controls : Bool) (lowPct : Int) (driverVersion label : String)
    (cfg : Pve.PveConfig) (guests : Pve.GuestLists) :
    FreshInv (Bridge.start controls lowPct driverVersion label cfg guests : Bridge κ) where
  sound := soundInv_start controls lowPct driverVersion label cfg guests
  room := (Nut.Reachable.start driverVersion).room
  backed := by
    refine ⟨"OFF", getVar_start driverVersion, fun p hp => ?_⟩
    have hoff : Notify.powerOf "OFF" = some .offline := by decide +kernel
    exact Option.some.inj (hp.symm.trans hoff)
  newest := fun hv => (by cases hv)
  sources := fun _ _ hm => (by cases hm)
  withdraws := fun _ _ hm => (by cases hm)
  shown := .inr (.inl rfl)
  look := trivial
  checked := fun _ hc => (by cases hc)

section Runs

variable {controls : Bool} {lowPct : Int} {driverVersion label : String} {cfg : Pve.PveConfig}
  {guests : Pve.GuestLists} {es : List Ev} {s : Bridge κ}

/-- **What is shown is a reading of the unit, and not an old one.** In any run, a client that reads
    a power state off `ups.status` reads that of a published, swept reading. And when a round of
    `staleness_task` has looked and reported since the last callback was through, that reading, and
    the last one behind a green LED, was 30 seconds old at most when the round judged it. -/
theorem status_backed_and_fresh
    (hrun : Runs env (Bridge.start controls lowPct driverVersion label cfg guests) es s) :
    (∃ text, nutServerGetVar s.vars "ups.status" = some text ∧
      ∀ p, Notify.powerOf text = some p → p ≠ .offline →
        ∃ c, s.shown = some c ∧ Tells s.poll.calls c ∧ p = powerIn c.state ∧
          ∀ atUs, s.checked = some atUs → atUs - c.state.updatedUs ≤ staleAfterUs) ∧
      (s.led = .linked → ∀ atUs, s.checked = some atUs →
        ∃ c, s.newest = some c ∧ atUs - c.state.updatedUs ≤ staleAfterUs) := by
  have hI : FreshInv s := StepMachine.run_inv (Bridge.step env) freshInv_step
    (freshInv_start controls lowPct driverVersion label cfg guests) hrun
  constructor
  · obtain ⟨text, hget, hback⟩ := hI.backed
    refine ⟨text, hget, fun p hp hne => ?_⟩
    cases hshown : s.shown with
    | none =>
        rw [hshown] at hback
        exact absurd (hback p hp) hne
    | some c =>
        rw [hshown] at hback
        refine ⟨c, rfl, hback.1, Option.some.inj (hp.symm.trans hback.2), fun atUs hc => ?_⟩
        obtain ⟨hcb, -, hfresh⟩ := hI.checked atUs hc
        -- no callback is under way, so what is shown is the last reading
        have hlast : s.newest = some c := by
          rcases hI.shown with ⟨_, _, hm⟩ | hnone | hnew
          · rw [hcb] at hm
            cases hm
          · rw [hshown] at hnone
            cases hnone
          · rw [← hnew, hshown]
        rcases hfresh with ⟨c', hc', hage⟩ | ⟨hwd, -⟩
        · obtain rfl : c' = c := Option.some.inj (hc'.symm.trans hlast)
          exact hage
        · rw [hwd.1] at hshown
          cases hshown
  · intro hled atUs hc
    obtain ⟨-, -, hfresh⟩ := hI.checked atUs hc
    refine hfresh.resolve_right fun hwd => ?_
    rw [hwd.1.2] at hled
    cases hled

/-- The unit on battery, shown to the clients, and a round ten seconds later. -/
def flatRound : List Ev :=
  flatRun ++ List.replicate 3 (.callback flatAnswers) ++
    [.pass 10000000, .look, .judge true true true, .report flatAnswers, .report flatAnswers]

theorem status_backed_and_fresh_flat : ∃ s, Runs Ble.toyEnv flatStart flatRound s ∧
    s.checked = some 10000000 ∧ s.led = .linked ∧
    nutServerGetVar s.vars "ups.status" = some "OB LB DISCHRG" ∧
    ∃ c, s.shown = some c ∧ powerIn c.state = .battery ∧
      10000000 - c.state.updatedUs ≤ staleAfterUs := by
  have h : (StepMachine.run (Bridge.step Ble.toyEnv) flatStart flatRound).map (fun s =>
      (s.checked, s.led, nutServerGetVar s.vars "ups.status")) =
      some (some 10000000, .linked, some "OB LB DISCHRG") := by
    decide +kernel
  obtain ⟨s, hs, h⟩ := Option.map_eq_some_iff.mp h
  obtain ⟨hchecked, hled, hstatus⟩ : s.checked = some 10000000 ∧ s.led = .linked ∧
      nutServerGetVar s.vars "ups.status" = some "OB LB DISCHRG" := by
    simpa using h
  obtain ⟨⟨text, htext, hshown⟩, -⟩ := status_backed_and_fresh hs
  obtain rfl : text = "OB LB DISCHRG" := Option.some.inj (htext.symm.trans hstatus)
  obtain ⟨c, hc, -, hp, hage⟩ := hshown .battery (by decide +kernel) (by decide)
  exact ⟨s, hs, hchecked, hled, hstatus, c, hc, hp.symm, hage _ hchecked⟩

end Runs

end NutBluetti.App
