/-
  File:      NutBluetti/Ble/Pursuit.lean
  Subject:   THE WAY TO A SUBSCRIBED LINK (bluetti_ble.c): the steps of `BleLink`, with the NimBLE
             calls they make executed, and the GATT discovery between a connection and its
             subscription.

  `BleLink.radio` is what a handler asks for. Here each call is answered: it succeeds or it fails,
  and nobody looks at the result of `ble_gap_disc` or of a GATT call but the log. NimBLE reports the
  end of a link after the procedures on it have failed (`broken`), and while it resets itself
  (`enabled` is false) it starts nothing; a GATT procedure that times out is one on a link that
  NimBLE drops.

  * `Underway` -- a discovery, a connection attempt, or a link that is discovered, subscribed or
    ended;
  * `Pursued` -- the bridge is to connect, and if it is on it, something is under way;
  * `Drops` -- a call fails, or an answer is dropped, with nothing else under way;
  * **`pursued_iff`** -- the bridge is on its way to its unit throughout a run exactly when no step
    of it drops the pursuit;
  * a subscription refused: a link that stays up with nothing under way.
-/
import NutBluetti.Ble.Link

namespace NutBluetti.Ble

variable {κ : Type}

/-! ## 1. What NimBLE has under way -/

/-- The GATT procedure that is under way. -/
inductive GattPhase where
  | none
  /-- `ble_gattc_disc_svc_by_uuid`. -/
  | services
  /-- `ble_gattc_disc_chrs_by_uuid`, for `WRITE_UUID` and for `NOTIFY_UUID`. -/
  | writeChr
  | notifyChr
  /-- The write to the descriptor, which `on_sub` answers. -/
  | subscribing
  deriving DecidableEq, Repr

/-- The link with the handles found on it, and what NimBLE is doing. -/
structure BleRadio (κ : Type) where
  link : BleLink κ
  writeHandle : UInt16
  writeWithRsp : Bool
  notifyHandle : UInt16
  notifyCccd : UInt16
  gatt : GattPhase
  discovering : Bool
  connecting : Bool
  /-- The link is lost, and the handler of `BLE_GAP_EVENT_DISCONNECT` has not run. -/
  broken : Bool
  /-- The host is up and in sync with its controller. -/
  enabled : Bool

/-- A call is executed: one of `ble_gap_disc` also where a discovery is under way already, one of
    `ble_gap_terminate` in `BleLink.terminating`. -/
def BleRadio.exec (s : BleRadio κ) (discOk connectOk : Bool) : RadioCmd → BleRadio κ
  | .disc _ => { s with discovering := s.discovering || discOk }
  | .discCancel => { s with discovering := false }
  | .connect => { s with connecting := s.connecting || connectOk }
  | .terminate => s

/-- The handler's calls, in order. -/
def BleRadio.after (s : BleRadio κ) (l : BleLink κ) (discOk connectOk : Bool) : BleRadio κ :=
  (l.radio.drop s.link.radio.length).foldl (fun r c => r.exec discOk connectOk c)
    { s with link := l }

/-! ## 2. The GATT discovery -/

/-- What a callback of the discovery is told. `EDONE` comes with the answer to the call it makes. -/
inductive GattEv where
  | svcDone (ok : Bool)
  | svcError
  | writeFound (handle : UInt16) (withRsp : Bool)
  | writeDone (ok : Bool)
  | writeError
  | notifyFound (handle : UInt16)
  | notifyDone (ok : Bool)
  | notifyError
  deriving DecidableEq, Repr

/-- The procedure that follows, if its call succeeded. -/
def nextPhase (ok : Bool) (p : GattPhase) : GattPhase := if ok then p else .none

/-- `on_disc_svc`, `on_disc_write_chr`, `on_disc_notify_chr`. A service that is not there is not
    noticed; an error ends the discovery of a characteristic without a word. -/
def BleRadio.onGatt (s : BleRadio κ) : GattEv → BleRadio κ
  | .svcDone ok => { s with gatt := nextPhase ok .writeChr }
  | .svcError => { s with gatt := .none, link := s.link.terminate }
  | .writeFound handle withRsp => { s with writeHandle := handle, writeWithRsp := withRsp }
  | .writeDone ok => { s with gatt := nextPhase ok .notifyChr }
  | .writeError => { s with gatt := .none }
  | .notifyFound handle => { s with notifyHandle := handle, notifyCccd := handle + 1 }
  | .notifyDone ok =>
      if s.notifyCccd = 0 ∨ s.writeHandle = 0 then
        { s with gatt := .none, link := s.link.terminate }
      else { s with gatt := nextPhase ok .subscribing }
  | .notifyError => { s with gatt := .none }

/-- The procedure that a callback belongs to. -/
def GattEv.phase : GattEv → GattPhase
  | .svcDone _ => .services
  | .svcError => .services
  | .writeFound _ _ => .writeChr
  | .writeDone _ => .writeChr
  | .writeError => .writeChr
  | .notifyFound _ => .notifyChr
  | .notifyDone _ => .notifyChr
  | .notifyError => .notifyChr

/-! ## 3. Steps -/

/-- What NimBLE reports, and when. -/
def BleRadio.reports (s : BleRadio κ) : LinkEv → Bool
  | .disc _ _ _ => s.discovering
  | .discComplete => s.discovering
  | .connect => s.connecting
  | .connectFailed => s.connecting
  | .disconnect => s.link.up && s.broken
  | .subscribed _ => decide (s.gatt = .subscribing)
  | .hostReset => !s.enabled
  | .hostSync _ => !s.enabled && !s.link.synced
  | _ => true

/-- What is over by the time the handler runs; `svcOk` answers the call of a handler of
    `BLE_GAP_EVENT_CONNECT` that starts the discovery. -/
def BleRadio.over (s : BleRadio κ) (svcOk : Bool) : LinkEv → BleRadio κ
  | .discComplete => { s with discovering := false }
  | .connect => { s with
      connecting := false, broken := false, gatt := nextPhase svcOk .services, writeHandle := 0
      writeWithRsp := false, notifyHandle := 0, notifyCccd := 0 }
  | .connectFailed => { s with connecting := false }
  | .disconnect => { s with broken := false, gatt := .none }
  | .subscribed _ => { s with gatt := .none }
  | .hostSync _ => { s with enabled := true }
  | _ => s

/-- The answer to `ble_gap_connect`, where a step makes that call. -/
def connectAnswer : LinkEv → Bool
  | .disc _ _ rcOk => rcOk
  | _ => false

inductive RadioEv where
  /-- A step of the link, with the answers of `ble_gap_disc` and `ble_gattc_disc_svc_by_uuid`. -/
  | link (e : LinkEv) (discOk svcOk : Bool)
  | gatt (g : GattEv)
  /-- NimBLE has lost the link. -/
  | lost
  /-- NimBLE begins to reset itself. -/
  | hostDown

def BleRadio.step (env : Env κ) (s : BleRadio κ) : RadioEv → Option (BleRadio κ)
  | .link e discOk svcOk =>
      if s.reports e then
        (s.link.step env e).map fun l => (s.over svcOk e).after l discOk (connectAnswer e)
      else none
  | .gatt g => if s.link.up ∧ s.gatt = g.phase then some (s.onGatt g) else none
  | .lost => if s.link.up then some { s with broken := true } else none
  | .hostDown => some { s with enabled := false }

/-- After `bluetti_ble_start`, whose call of `ble_gap_disc` succeeded. -/
def BleRadio.start (controls : Bool) (lowBatteryPct : Int) : BleRadio κ where
  link := linkStart bluettiBleHostInit controls lowBatteryPct
  writeHandle := 0
  writeWithRsp := false
  notifyHandle := 0
  notifyCccd := 0
  gatt := .none
  discovering := true
  connecting := false
  broken := false
  enabled := true

/-! ## 4. The pursuit -/

/-- A link that is being discovered, is subscribed, or is about to end. -/
def BleRadio.alive (s : BleRadio κ) : Bool :=
  s.link.up && (decide (s.gatt ≠ .none) || s.link.subscribed || s.link.terminating || s.broken)

/-- The host can look for the unit, and is to. -/
def BleRadio.onIt (s : BleRadio κ) : Bool :=
  s.enabled && s.link.synced && decide (s.link.mode = .connect)

/-- Something brings the bridge to its unit, or keeps it there. -/
def BleRadio.underway (s : BleRadio κ) : Bool := s.discovering || s.connecting || s.alive

/-- **The bridge is on its way to its unit**: it is to connect, now or after a scan; and where it is
    on it, something is under way. -/
def Pursued (s : BleRadio κ) : Prop :=
  Connecting s.link ∧ (s.onIt = true → s.underway = true)

/-- What would bring the bridge back if the GATT procedure, or the discovery, comes to nothing. -/
def BleRadio.elsewhere (s : BleRadio κ) : Bool :=
  s.discovering || s.connecting ||
    (s.link.up && (s.link.subscribed || s.link.terminating || s.broken))

/-- The callback starts nothing and asks for nothing. -/
def BleRadio.endsGatt (s : BleRadio κ) : GattEv → Bool
  | .svcDone ok => !ok
  | .writeDone ok => !ok
  | .writeError => true
  | .notifyDone ok => !ok && decide (s.notifyCccd ≠ 0 ∧ s.writeHandle ≠ 0)
  | .notifyError => true
  | _ => false

/-- **The pursuit is dropped**: a discovery is complete during a scan; or the bridge is on it, a
    call fails or an answer is dropped, and nothing else is under way. -/
def Drops (s : BleRadio κ) : RadioEv → Bool
  | .link .discComplete _ _ =>
      s.discovering && (decide (s.link.mode = .scan) || (s.onIt && !s.connecting && !s.alive))
  | .link .scanTimer discOk _ =>
      s.link.scanTimer && s.enabled && s.link.synced && !(decide (s.link.mode = .scan) && discOk) &&
        !s.connecting && !s.alive
  | .link (.disc parses target rcOk) discOk _ =>
      s.discovering && s.onIt && parses && target && !rcOk && !discOk && !s.connecting && !s.alive
  | .link .connect _ svcOk => s.connecting && s.onIt && !svcOk && !s.discovering
  | .link .connectFailed discOk _ =>
      s.connecting && s.onIt && !discOk && !s.discovering && !s.alive
  | .link .disconnect discOk _ =>
      s.link.up && s.broken && s.onIt && !discOk && !s.discovering && !s.connecting
  | .link (.subscribed ok) _ _ =>
      s.link.up && decide (s.gatt = .subscribing) && s.onIt && !ok && !s.elsewhere
  | .link (.hostSync addrOk) discOk _ =>
      !s.enabled && !s.link.synced && addrOk && decide (s.link.mode = .connect) && !discOk &&
        !s.underway
  | .gatt g =>
      s.link.up && decide (s.gatt = g.phase) && s.onIt && s.endsGatt g && !s.elsewhere
  | _ => false

section Steps

variable {env : Env κ} {s s' : BleRadio κ}

theorem after_eq {l : BleLink κ} {cs : List RadioCmd} (h : l.radio = s.link.radio ++ cs)
    (discOk connectOk : Bool) : s.after l discOk connectOk =
      cs.foldl (fun r c => r.exec discOk connectOk c) { s with link := l } := by
  unfold BleRadio.after
  rw [h, List.drop_left]

theorem step_link {e : LinkEv} {discOk svcOk : Bool}
    (h : s.step env (.link e discOk svcOk) = some s') : s.reports e = true ∧
      ∃ l, s.link.step env e = some l ∧ s' = (s.over svcOk e).after l discOk (connectAnswer e) := by
  simp only [BleRadio.step] at h
  split at h
  · rename_i hr
    obtain ⟨l, hl, rfl⟩ := Option.map_eq_some_iff.mp h
    exact ⟨hr, l, hl, rfl⟩
  · cases h

theorem after_link (l : BleLink κ) (discOk connectOk : Bool) :
    (s.after l discOk connectOk).link = l := by
  have hfold : ∀ (cs : List RadioCmd) (r : BleRadio κ),
      (cs.foldl (fun r c => r.exec discOk connectOk c) r).link = r.link := by
    intro cs
    induction cs with
    | nil => exact fun r => rfl
    | cons c cs ih => exact fun r => (ih _).trans (by cases c <;> rfl)
  exact hfold _ _

/-- What matters of a link to the pursuit, and what may only come to it: a request to end it. -/
structure SameRadio (l l' : BleLink κ) : Prop where
  mode : l'.mode = l.mode
  synced : l'.synced = l.synced
  up : l'.up = l.up
  subscribed : l'.subscribed = l.subscribed
  terminating : l.terminating = true → l'.terminating = true

/-- A step that asks for nothing but the end of the link keeps what is under way. -/
theorem underway_same {l : BleLink κ} {cs : List RadioCmd} (h : SameRadio s.link l)
    (hr : l.radio = s.link.radio ++ cs) (hcs : ∀ c ∈ cs, c = .terminate) (discOk connectOk : Bool)
    (hs : s.onIt = true → s.underway = true) : (s.after l discOk connectOk).onIt = true →
      (s.after l discOk connectOk).underway = true := by
  have hexec : cs.foldl (fun r c => r.exec discOk connectOk c) { s with link := l } =
      { s with link := l } := by
    clear hr
    induction cs with
    | nil => rfl
    | cons c cs ih =>
        obtain ⟨hc, hcs⟩ := List.forall_mem_cons.mp hcs
        rw [List.foldl_cons, hc]
        exact ih hcs
  rw [after_eq hr, hexec]
  unfold BleRadio.onIt BleRadio.underway BleRadio.alive at *
  simp only [h.mode, h.synced, h.up, h.subscribed]
  intro hon
  have hold := hs hon
  cases ht : s.link.terminating with
  | true => rw [ht] at hold; rw [h.terminating ht]; exact hold
  | false =>
      rw [ht] at hold
      revert hold
      cases s.discovering <;> cases s.connecting <;> cases s.link.up <;> cases s.link.subscribed <;>
        cases s.broken <;> cases l.terminating <;> simp

theorem pursued_iff_not (hC : Connecting s.link) :
    Pursued s ↔ (s.onIt && !s.underway) = false := by
  refine (and_iff_right hC).trans ?_
  cases s.onIt <;> cases s.underway <;> simp

theorem sameRadio_linkTick (env : Env κ) (l : BleLink κ) (nowUs sentUs : Int) :
    SameRadio l (linkTick env l nowUs sentUs) ∧
      ∃ cs, (linkTick env l nowUs sentUs).radio = l.radio ++ cs ∧ ∀ c ∈ cs, c = .terminate := by
  unfold linkTick
  simp only
  split
  · exact ⟨⟨rfl, rfl, rfl, rfl, fun _ => rfl⟩, [.terminate], rfl,
      fun c hc => List.mem_singleton.mp hc⟩
  split
  · exact ⟨⟨rfl, rfl, rfl, rfl, id⟩, [], (List.append_nil _).symm,
      fun c hc => absurd hc List.not_mem_nil⟩
  · exact ⟨⟨rfl, rfl, rfl, rfl, id⟩, [], (List.append_nil _).symm,
      fun c hc => absurd hc List.not_mem_nil⟩

theorem mode_hBleScan (l : BleLink κ) : (hBleScan l).mode = .scan := by
  unfold hBleScan
  split
  · assumption
  · unfold bluettiBleScan
    simp only
    split
    · rfl
    · split <;> rfl

/-- **What a step of the link drops** is what it leaves without anything under way. -/
theorem drops_link {l : BleLink κ} {e : LinkEv} {discOk svcOk : Bool} (h : Pursued s)
    (hr : s.reports e = true) (hl : s.link.step env e = some l)
    (hscan : noScanComplete s.link e = true) :
    Drops s (.link e discOk svcOk) =
      (((s.over svcOk e).after l discOk (connectAnswer e)).onIt &&
        !((s.over svcOk e).after l discOk (connectAnswer e)).underway) := by
  -- the handlers that start nothing
  have hquiet : ∀ {cs : List RadioCmd}, s.over svcOk e = s → SameRadio s.link l →
      l.radio = s.link.radio ++ cs → (∀ c ∈ cs, c = .terminate) →
      (((s.over svcOk e).after l discOk (connectAnswer e)).onIt &&
        !((s.over svcOk e).after l discOk (connectAnswer e)).underway) = false := by
    intro cs hover hsame hradio hcs
    rw [hover]
    have hkept := underway_same hsame hradio hcs discOk (connectAnswer e) h.2
    revert hkept
    cases (s.after l discOk (connectAnswer e)).onIt <;>
      cases (s.after l discOk (connectAnswer e)).underway <;> simp
  have hnone : ∀ c ∈ ([] : List RadioCmd), c = .terminate := fun c hc => absurd hc List.not_mem_nil
  cases e with
  | scan =>
      obtain rfl := Option.some.inj hl
      have hoff : ((s.over svcOk .scan).after (hBleScan s.link) discOk (connectAnswer .scan)).onIt =
          false := by
        unfold BleRadio.onIt
        rw [after_link, mode_hBleScan]
        simp
      rw [hoff]
      rfl
  | scanTimer =>
      obtain ⟨harmed, rfl⟩ := BleLink.step_scanTimer_iff.mp hl
      rcases h.1 with hm | ⟨hm, hres, -⟩
      · simp [BleRadio.after, bluettiBleScanStop, BleLink.ask, BleRadio.over, BleRadio.exec, Drops,
          BleRadio.onIt, BleRadio.underway, BleRadio.alive, hm, harmed, Bool.and_assoc]
      · simp [BleRadio.after, bluettiBleScanStop, startConnectScan, BleLink.ask, BleRadio.over,
          BleRadio.exec, Drops, BleRadio.onIt, BleRadio.underway, BleRadio.alive, hm, harmed, hres,
          Bool.and_assoc]
  | disc parses target rcOk =>
      obtain rfl := Option.some.inj hl
      have hdisc : s.discovering = true := hr
      cases hm : s.link.mode <;> cases parses <;> cases target <;> cases rcOk <;>
        simp [BleRadio.after, gapDisc, tryConnect, startConnectScan, BleLink.ask, BleRadio.over,
          BleRadio.exec, Drops, BleRadio.onIt, BleRadio.underway, BleRadio.alive, connectAnswer, hm,
          hdisc, Bool.and_assoc]
  | discComplete =>
      obtain rfl := Option.some.inj hl
      have hr : s.discovering = true := hr
      have hm : s.link.mode ≠ .scan := of_decide_eq_true hscan
      simp [BleRadio.after, gapDiscComplete, BleRadio.over, Drops, BleRadio.onIt, BleRadio.underway,
        BleRadio.alive, hm, hr, Bool.and_assoc]
  | connect =>
      obtain rfl := Option.some.inj hl
      have hr : s.connecting = true := hr
      cases svcOk <;>
        simp [BleRadio.after, linkConnect, BleRadio.over, nextPhase, Drops, BleRadio.onIt,
          BleRadio.underway, BleRadio.alive, hr, Bool.and_assoc]
  | connectFailed =>
      obtain rfl := Option.some.inj hl
      have hr : s.connecting = true := hr
      cases hm : s.link.mode <;>
        simp [BleRadio.after, startConnectScan, BleLink.ask, BleRadio.over, BleRadio.exec, Drops,
          BleRadio.onIt, BleRadio.underway, BleRadio.alive, hm, hr, Bool.and_assoc,
          Bool.and_left_comm]
  | disconnect =>
      obtain rfl := Option.some.inj hl
      have hr : (s.link.up && s.broken) = true := hr
      cases hm : s.link.mode <;>
        simp [BleRadio.after, linkDisconnect, linkDown, startConnectScan, BleLink.ask,
          BleRadio.over, BleRadio.exec, Drops, BleRadio.onIt, BleRadio.underway, BleRadio.alive, hm,
          hr, Bool.and_assoc, Bool.and_left_comm]
  | subscribed ok =>
      obtain ⟨hup, rfl⟩ := BleLink.step_subscribed_iff.mp hl
      have hgatt : s.gatt = .subscribing := of_decide_eq_true hr
      cases ok <;>
        simp [BleRadio.after, linkSubscribed, BleRadio.over, Drops, BleRadio.onIt,
          BleRadio.underway, BleRadio.alive, BleRadio.elsewhere, hup, hgatt, Bool.and_assoc]
  | notify data nowUs =>
      obtain ⟨-, rfl⟩ := BleLink.step_notify_iff.mp hl
      exact (hquiet rfl ⟨rfl, rfl, rfl, rfl, id⟩ (List.append_nil _).symm hnone).symm
  | kexTimer =>
      obtain ⟨-, rfl⟩ := BleLink.step_kexTimer_iff.mp hl
      exact (hquiet rfl ⟨rfl, rfl, rfl, rfl, id⟩ (List.append_nil _).symm hnone).symm
  | tick nowUs sentUs =>
      obtain ⟨-, rfl⟩ := BleLink.step_tick_iff.mp hl
      obtain ⟨hsame, cs, hradio, hcs⟩ := sameRadio_linkTick env s.link nowUs sentUs
      exact (hquiet rfl hsame hradio hcs).symm
  | hostReset =>
      obtain rfl := Option.some.inj hl
      simp [BleRadio.after, BleRadio.over, Drops, BleRadio.onIt]
  | hostSync addrOk =>
      obtain rfl := Option.some.inj hl
      have hr : (!s.enabled && !s.link.synced) = true := hr
      obtain ⟨hdown, hsync⟩ : s.enabled = false ∧ s.link.synced = false := by simpa using hr
      cases addrOk <;> cases hm : s.link.mode <;>
        simp [BleRadio.after, onSync, startConnectScan, BleLink.ask, BleRadio.over, BleRadio.exec,
          Drops, BleRadio.onIt, BleRadio.underway, BleRadio.alive, hm, hdown, hsync, Bool.and_assoc,
          Bool.and_left_comm]
  | setControls on =>
      obtain rfl := Option.some.inj hl
      exact (hquiet rfl ⟨rfl, rfl, rfl, rfl, id⟩ (List.append_nil _).symm hnone).symm
  | writeControl field value =>
      obtain rfl := Option.some.inj hl
      exact (hquiet rfl ⟨rfl, rfl, rfl, rfl, id⟩ (List.append_nil _).symm hnone).symm

theorem sameMode_onGatt (s : BleRadio κ) (g : GattEv) : SameMode s.link (s.onGatt g).link := by
  cases g with
  | notifyDone ok =>
      simp only [BleRadio.onGatt]
      split <;> exact ⟨rfl, rfl, rfl⟩
  | _ => exact ⟨rfl, rfl, rfl⟩

/-- **What a callback of the discovery drops** is what it leaves without anything under way. -/
theorem drops_gatt {g : GattEv} (hup : s.link.up = true) (hg : s.gatt = g.phase) :
    Drops s (.gatt g) = ((s.onGatt g).onIt && !(s.onGatt g).underway) := by
  have hphase : g.phase ≠ .none := by
    intro hnone
    cases g <;> cases hnone
  cases g with
  | notifyDone ok =>
      by_cases hmissing : s.notifyCccd = 0 ∨ s.writeHandle = 0
      · have hends : ¬ (s.notifyCccd ≠ 0 ∧ s.writeHandle ≠ 0) := by
          rintro ⟨hn, hw⟩
          exact hmissing.elim hn hw
        simp [Drops, BleRadio.onGatt, BleRadio.endsGatt, hmissing, hends, BleRadio.underway,
          BleRadio.alive, BleLink.terminate, BleLink.ask, hup]
      · obtain ⟨hn, hw⟩ := not_or.mp hmissing
        cases ok <;>
          simp [Drops, BleRadio.onGatt, nextPhase, BleRadio.endsGatt, BleRadio.onIt,
            BleRadio.underway, BleRadio.alive, BleRadio.elsewhere, hup, hg, hn, hw, Bool.and_assoc]
  | svcDone ok =>
      cases ok <;>
        simp [Drops, BleRadio.onGatt, nextPhase, BleRadio.endsGatt, BleRadio.onIt,
          BleRadio.underway, BleRadio.alive, BleRadio.elsewhere, hup, hg, Bool.and_assoc]
  | writeDone ok =>
      cases ok <;>
        simp [Drops, BleRadio.onGatt, nextPhase, BleRadio.endsGatt, BleRadio.onIt,
          BleRadio.underway, BleRadio.alive, BleRadio.elsewhere, hup, hg, Bool.and_assoc]
  | writeError =>
      rw [show (s.onGatt .writeError).underway = s.elsewhere by
        simp [BleRadio.onGatt, BleRadio.underway, BleRadio.alive, BleRadio.elsewhere]]
      show _ = (s.onIt && !s.elsewhere)
      simp [Drops, BleRadio.endsGatt, hup, hg]
  | notifyError =>
      rw [show (s.onGatt .notifyError).underway = s.elsewhere by
        simp [BleRadio.onGatt, BleRadio.underway, BleRadio.alive, BleRadio.elsewhere]]
      show _ = (s.onIt && !s.elsewhere)
      simp [Drops, BleRadio.endsGatt, hup, hg]
  | _ =>
      simp [Drops, BleRadio.onGatt, BleRadio.endsGatt, BleRadio.underway, BleRadio.alive,
        BleLink.terminate, BleLink.ask, hup, hg, hphase]

/-- Who drops nothing in a step that is not enabled. -/
theorem drops_of_none {e : RadioEv} (h : s.step env e = none) : Drops s e = false := by
  cases e with
  | link e discOk svcOk =>
      simp only [BleRadio.step] at h
      split at h
      · -- the handlers that may not be enabled wait for a timer or for a link
        rename_i hr
        have hl := Option.map_eq_none_iff.mp h
        cases e <;> first | cases hl | rfl | skip
        case scanTimer =>
          have harmed : s.link.scanTimer = false := by simpa [BleLink.step] using hl
          simp [Drops, harmed]
        case subscribed ok =>
          have hup : s.link.up = false := by simpa [BleLink.step] using hl
          simp [Drops, hup]
      · rename_i hr
        cases e <;> simp_all [Drops, BleRadio.reports]
  | gatt g =>
      simp only [BleRadio.step] at h
      split at h
      · cases h
      · rename_i hno
        cases hup : s.link.up <;> simp_all [Drops]
  | lost => rfl
  | hostDown => rfl

/-- **A step keeps the pursuit** exactly if it does not drop it. -/
theorem pursued_step_iff (h : Pursued s) (e : RadioEv) :
    Drops s e = false ↔ ∀ s', s.step env e = some s' → Pursued s' := by
  cases hs : s.step env e with
  | none => exact iff_of_true (drops_of_none hs) fun s' hs' => by cases hs'
  | some s' =>
      rw [show (∀ t, some s' = some t → Pursued t) ↔ Pursued s' from
        ⟨fun hall => hall s' rfl, fun hp t ht => Option.some.inj ht ▸ hp⟩]
      cases e with
      | link e discOk svcOk =>
          obtain ⟨hr, l, hl, rfl⟩ := step_link hs
          cases hscan : noScanComplete s.link e with
          | true =>
              rw [drops_link h hr hl hscan, pursued_iff_not]
              rw [after_link]
              exact connecting_step hscan h.1 hl
          | false =>
              -- a discovery is complete during a scan
              cases e <;> try cases hscan
              have hm : s.link.mode = .scan := by simpa [noScanComplete] using hscan
              have hdisc : s.discovering = true := hr
              obtain rfl := Option.some.inj hl
              refine iff_of_false (by simp [Drops, hm, hdisc]) fun hp => ?_
              have hidle : (gapDiscComplete s.link).mode = .idle := by
                unfold gapDiscComplete
                rw [if_pos hm]
              have hC := hp.1
              rw [after_link] at hC
              rcases hC with hc | ⟨hc, -⟩
              · rw [hidle] at hc
                cases hc
              · rw [hidle] at hc
                cases hc
      | gatt g =>
          simp only [BleRadio.step] at hs
          split at hs
          · rename_i hg
            obtain rfl := Option.some.inj hs
            rw [drops_gatt hg.1 hg.2, pursued_iff_not]
            exact h.1.of_same (sameMode_onGatt s g)
          · cases hs
      | lost =>
          simp only [BleRadio.step] at hs
          split at hs
          · rename_i hup
            obtain rfl := Option.some.inj hs
            refine iff_of_true rfl ⟨h.1, fun _ => ?_⟩
            simp [BleRadio.underway, BleRadio.alive, hup]
          · cases hs
      | hostDown =>
          obtain rfl := Option.some.inj hs
          exact iff_of_true rfl ⟨h.1, fun hon => by simp [BleRadio.onIt] at hon⟩

end Steps

/-! ## 5. Whole runs -/

/-- A subscription that the unit refuses: the link stays up, and nothing is under way on it. -/
example : (StepMachine.run (BleRadio.step toyEnv) (BleRadio.start false 20)
    [.link (.disc true true true) false false, .link .connect false true, .gatt (.svcDone true),
      .gatt (.writeFound 5 true), .gatt (.writeDone true), .gatt (.notifyFound 7),
      .gatt (.notifyDone true), .link (.subscribed false) false false]).map
    (fun s => (s.link.up, s.underway)) = some (true, false) := by rfl

end NutBluetti.Ble
