/-
  File:      NutBluetti/Ble/Link.lean
  Subject:   THE LINK (bluetti_ble.c): modes, timers, GAP events, scans from the web page, and
             resets of the NimBLE host. A handler is one step; handlers come in any order.

  A timer is armed or not, and fires only when it is. `up`, `subscribed` and `terminating` say what
  holds of the link itself: it is there, its notifications are enabled, and the bridge has asked for
  its end. `radio` is the history of what NimBLE was asked for; no function reads it. Probe mode,
  the table of devices a scan has seen and the GATT discovery before the subscription are left out.
-/
import NutBluetti.Lib.StepMachine
import NutBluetti.Ble.Poll

namespace NutBluetti.Ble

/-! ## 1. The link -/

/-- `ble_mode_t`. -/
inductive BleMode where
  | idle
  | scan
  | connect
  deriving DecidableEq, Repr

/-- What NimBLE is asked for. -/
inductive RadioCmd where
  | disc (reportAll : Bool)
  | discCancel
  | connect
  | terminate
  deriving DecidableEq, Repr

/-- The static `b` with its mode and its timers, and the link. -/
structure BleLink (κ : Type) where
  b : BluettiBle κ
  mode : BleMode
  resumeConnect : Bool
  synced : Bool
  scanTimer : Bool
  pollTimer : Bool
  kexTimer : Bool
  up : Bool
  subscribed : Bool
  terminating : Bool
  radio : List RadioCmd

section

variable {κ : Type}

def BleLink.ask (s : BleLink κ) (c : RadioCmd) : BleLink κ := { s with radio := s.radio ++ [c] }

/-- `ble_gap_terminate`. -/
def BleLink.terminate (s : BleLink κ) : BleLink κ := { s.ask .terminate with terminating := true }

/-! ## 2. Scan and connect -/

/-- `start_connect_scan`. -/
def startConnectScan (s : BleLink κ) : BleLink κ :=
  if s.mode ≠ .connect then s else s.ask (.disc false)

/-- `try_connect`; `rcOk` says whether `ble_gap_connect` returned 0. -/
def tryConnect (s : BleLink κ) (rcOk : Bool) : BleLink κ :=
  let s := (s.ask .discCancel).ask RadioCmd.connect
  if rcOk then s else startConnectScan s

/-- `bluetti_ble_scan`. -/
def bluettiBleScan (s : BleLink κ) : BleLink κ :=
  let s := { s with
    resumeConnect := decide (s.mode = BleMode.connect)
    mode := .scan
    scanTimer := true }
  if s.b.connected then s.terminate       -- the scan starts from the disconnect handler
  else if s.synced then (s.ask .discCancel).ask (.disc true)
  else s

/-- `bluetti_ble_scan_stop`. -/
def bluettiBleScanStop (s : BleLink κ) : BleLink κ :=
  let s := { s.ask .discCancel with scanTimer := false }
  if s.mode ≠ .scan then s
  else if s.resumeConnect then
    startConnectScan { s with resumeConnect := false, mode := .connect }
  else { s with mode := .idle }

/-- `h_ble_scan` without `poll=1`: a scan starts when none is running. -/
def hBleScan (s : BleLink κ) : BleLink κ :=
  if s.mode = .scan then s else bluettiBleScan s

/-! ## 3. GAP events -/

/-- `BLE_GAP_EVENT_DISC`: an advertisement that parses or not, of the target or of another
    device. -/
def gapDisc (s : BleLink κ) (parses target rcOk : Bool) : BleLink κ :=
  if s.mode = .connect ∧ parses ∧ target then tryConnect s rcOk else s

/-- `BLE_GAP_EVENT_CONNECT` with status 0. -/
def linkConnect (s : BleLink κ) : BleLink κ :=
  { s with b := gapConnect s.b, up := true, subscribed := false, terminating := false }

/-- The link is gone, and the timers that served it are stopped. -/
def linkDown (s : BleLink κ) : BleLink κ :=
  { s with
    b := gapDisconnect s.b
    pollTimer := false
    kexTimer := false
    up := false
    subscribed := false
    terminating := false }

/-- `BLE_GAP_EVENT_DISCONNECT`. -/
def linkDisconnect (s : BleLink κ) : BleLink κ :=
  let s := linkDown s
  if s.mode = .scan then s.ask (.disc true)
  else if s.mode = .connect then startConnectScan s
  else s

/-- `BLE_GAP_EVENT_DISC_COMPLETE`. -/
def gapDiscComplete (s : BleLink κ) : BleLink κ :=
  if s.mode = .scan then { s with mode := .idle } else s

/-- `on_sub`: both timers are started. -/
def linkSubscribed (s : BleLink κ) : BleLink κ :=
  { s with b := onSub s.b, pollTimer := true, kexTimer := true, subscribed := true }

/-- What a notification is cut to. -/
def notifyMax : Nat := 256

/-- The callbacks of the session reach `b`. -/
def BluettiBle.deliver (b : BluettiBle κ) (nowUs : Int) (calls : List (SessEvent κ)) :
    BluettiBle κ :=
  calls.foldl (fun b e =>
    match e with
    | .regs addr data => (sessionRegs b addr data nowUs).2
    | .ack _ _ _ => sessionAck b
    | _ => b) b

/-- `BLE_GAP_EVENT_NOTIFY_RX` on the notify handle. -/
def linkNotify (env : Env κ) (s : BleLink κ) (data : List UInt8) (nowUs : Int) : BleLink κ :=
  let sess := btSessionFeed env s.b.session (data.take notifyMax)
  let calls := callbacks s.b.session sess
  { s with b := { s.b with session := sess }.deliver nowUs calls }

/-! ## 4. Timers and the host -/

/-- `kex_timer_cb`. -/
def linkKexTimer (s : BleLink κ) : BleLink κ :=
  { s with b := kexTimerCb s.b, kexTimer := false }

/-- `poll_timer_cb`: where it gives up, it stops itself and drops the link. -/
def linkTick (env : Env κ) (s : BleLink κ) (nowUs sentUs : Int) : BleLink κ :=
  let (b, q) := pollTick s.b nowUs
  if s.b.connected && !b.connected then
    ({ s with b := b, pollTimer := false } : BleLink κ).terminate
  else
    match q with
    | none => { s with b := b }
    | some q =>
        let (ok, sess) := sendRequest env b.session q
        let b := { b with session := sess }
        { s with b := if ok then b.markSent sentUs else b }

/-- `on_sync`; `addrOk` says whether the address setup succeeded. -/
def onSync (s : BleLink κ) (addrOk : Bool) : BleLink κ :=
  if !addrOk then s
  else
    let s := { s with synced := true }
    if s.mode = .connect then startConnectScan s
    else if s.mode = .scan then s.ask (.disc true)
    else s

/-! ## 5. Steps -/

inductive LinkEv where
  /-- A scan asked for on the web page, and the end of its time. -/
  | scan
  | scanTimer
  | disc (parses target rcOk : Bool)
  | discComplete
  | connect
  | connectFailed
  | disconnect
  /-- The answer to the subscription: an error or not. -/
  | subscribed (ok : Bool)
  | notify (data : List UInt8) (nowUs : Int)
  | kexTimer
  | tick (nowUs sentUs : Int)
  | hostReset
  | hostSync (addrOk : Bool)
  | setControls (on : Bool)
  | writeControl (field : String) (value : Int)

/-- **One step.** A timer fires when it is armed; a subscription is confirmed and a notification
    comes on a link that is up. -/
def BleLink.step (env : Env κ) (s : BleLink κ) : LinkEv → Option (BleLink κ)
  | .scan => some (hBleScan s)
  | .scanTimer => if s.scanTimer then some (bluettiBleScanStop s) else none
  | .disc parses target rcOk => some (gapDisc s parses target rcOk)
  | .discComplete => some (gapDiscComplete s)
  | .connect => some (linkConnect s)
  | .connectFailed => some (startConnectScan s)
  | .disconnect => some (linkDisconnect s)
  | .subscribed ok => if s.up then some (if ok then linkSubscribed s else s) else none
  | .notify data nowUs => if s.up then some (linkNotify env s data nowUs) else none
  | .kexTimer => if s.kexTimer then some (linkKexTimer s) else none
  | .tick nowUs sentUs => if s.pollTimer then some (linkTick env s nowUs sentUs) else none
  | .hostReset => some { s with synced := false }
  | .hostSync addrOk => some (onSync s addrOk)
  | .setControls on => some { s with b := bluettiBleSetControls s.b on }
  | .writeControl field value => some { s with b := (bluettiBleWriteControl s.b field value).2 }

/-! What the timers, the service and the notifications wait for. -/

theorem BleLink.step_scanTimer_iff {env : Env κ} {s s' : BleLink κ} :
    s.step env .scanTimer = some s' ↔ s.scanTimer = true ∧ bluettiBleScanStop s = s' := by
  simp [BleLink.step]

theorem BleLink.step_subscribed_iff {env : Env κ} {s s' : BleLink κ} {ok : Bool} :
    s.step env (.subscribed ok) = some s' ↔
      s.up = true ∧ (if ok then linkSubscribed s else s) = s' := by
  simp [BleLink.step]

theorem BleLink.step_notify_iff {env : Env κ} {s s' : BleLink κ} {data : List UInt8} {nowUs : Int} :
    s.step env (.notify data nowUs) = some s' ↔ s.up = true ∧ linkNotify env s data nowUs = s' := by
  simp [BleLink.step]

theorem BleLink.step_kexTimer_iff {env : Env κ} {s s' : BleLink κ} :
    s.step env .kexTimer = some s' ↔ s.kexTimer = true ∧ linkKexTimer s = s' := by
  simp [BleLink.step]

theorem BleLink.step_tick_iff {env : Env κ} {s s' : BleLink κ} {nowUs sentUs : Int} :
    s.step env (.tick nowUs sentUs) = some s' ↔
      s.pollTimer = true ∧ linkTick env s nowUs sentUs = s' := by
  simp [BleLink.step]

/-- After `bluetti_ble_host_init` has returned 0. -/
def bluettiBleHostInit : BleLink κ where
  b := bluettiBleStart false 0
  mode := .idle
  resumeConnect := false
  synced := true
  scanTimer := false
  pollTimer := false
  kexTimer := false
  up := false
  subscribed := false
  terminating := false
  radio := []

/-- `bluetti_ble_start` with a usable address: a scan of the setup page ends, and the target is
    looked for. -/
def linkStart (s : BleLink κ) (controls : Bool) (lowBatteryPct : Int) : BleLink κ :=
  let s := bluettiBleScanStop s
  startConnectScan { s with
    b := { s.b with
      controls := controls
      lowBatteryPct := lowBatteryPct
      state := stateReset lowBatteryPct
      device := none
      plan := []
      planI := 0
      sweepReads := 0 }
    mode := .connect }

/-! ## 6. The mode -/

/-- The bridge is connecting, or scans and will go back to it when the scan's time is over. -/
def Connecting (s : BleLink κ) : Prop :=
  s.mode = .connect ∨ s.mode = .scan ∧ s.resumeConnect = true ∧ s.scanTimer = true

/-- No discovery is reported complete while a scan of the web page runs. -/
def noScanComplete (s : BleLink κ) : LinkEv → Bool
  | .discComplete => decide (s.mode ≠ .scan)
  | _ => true

/-- The same mode, resume flag and scan timer. -/
structure SameMode (s s' : BleLink κ) : Prop where
  mode : s'.mode = s.mode
  resume : s'.resumeConnect = s.resumeConnect
  timer : s'.scanTimer = s.scanTimer

theorem SameMode.refl (s : BleLink κ) : SameMode s s := ⟨rfl, rfl, rfl⟩

theorem SameMode.trans {s s' s'' : BleLink κ} (h : SameMode s s') (h' : SameMode s' s'') :
    SameMode s s'' :=
  ⟨h'.mode.trans h.mode, h'.resume.trans h.resume, h'.timer.trans h.timer⟩

theorem sameMode_startConnectScan (s : BleLink κ) : SameMode s (startConnectScan s) := by
  unfold startConnectScan
  split <;> exact ⟨rfl, rfl, rfl⟩

theorem sameMode_tryConnect (s : BleLink κ) (rcOk : Bool) : SameMode s (tryConnect s rcOk) := by
  have h : SameMode s ((s.ask .discCancel).ask RadioCmd.connect) := ⟨rfl, rfl, rfl⟩
  unfold tryConnect
  simp only
  split
  · exact h
  · exact h.trans (sameMode_startConnectScan _)

theorem sameMode_linkDisconnect (s : BleLink κ) : SameMode s (linkDisconnect s) := by
  have h : SameMode s (linkDown s) := ⟨rfl, rfl, rfl⟩
  unfold linkDisconnect
  simp only
  split
  · exact ⟨rfl, rfl, rfl⟩
  split
  · exact h.trans (sameMode_startConnectScan _)
  · exact ⟨rfl, rfl, rfl⟩

theorem sameMode_onSync (s : BleLink κ) (addrOk : Bool) : SameMode s (onSync s addrOk) := by
  have h : SameMode s { s with synced := true } := ⟨rfl, rfl, rfl⟩
  unfold onSync
  simp only
  split
  · exact .refl s
  split
  · exact h.trans (sameMode_startConnectScan _)
  split <;> exact ⟨rfl, rfl, rfl⟩

theorem sameMode_linkTick (env : Env κ) (s : BleLink κ) (nowUs sentUs : Int) :
    SameMode s (linkTick env s nowUs sentUs) := by
  unfold linkTick
  simp only
  split
  · exact ⟨rfl, rfl, rfl⟩
  split
  · exact ⟨rfl, rfl, rfl⟩
  · exact ⟨rfl, rfl, rfl⟩

theorem Connecting.of_same {s s' : BleLink κ} (h : Connecting s) (hs : SameMode s s') :
    Connecting s' := by
  unfold Connecting
  rw [hs.mode, hs.resume, hs.timer]
  exact h

theorem connecting_bluettiBleScan {s : BleLink κ} (h : s.mode = .connect) :
    Connecting (bluettiBleScan s) := by
  unfold bluettiBleScan
  simp only [h, decide_true]
  split
  · exact .inr ⟨rfl, rfl, rfl⟩
  split
  · exact .inr ⟨rfl, rfl, rfl⟩
  · exact .inr ⟨rfl, rfl, rfl⟩

/-- The end of a scan that is to resume goes back to connecting. -/
theorem connecting_scanStop {s : BleLink κ} (h : Connecting s) :
    Connecting (bluettiBleScanStop s) := by
  unfold bluettiBleScanStop
  simp only
  rcases h with hm | ⟨hm, hr, -⟩
  · rw [if_pos (show (s.ask .discCancel).mode ≠ .scan by
      rw [show (s.ask .discCancel).mode = s.mode from rfl, hm]
      decide)]
    exact .inl hm
  · rw [if_neg (not_not.mpr (show (s.ask .discCancel).mode = .scan from hm)),
      if_pos (show (s.ask .discCancel).resumeConnect = true from hr)]
    exact .inl (sameMode_startConnectScan _).mode

/-- **One step** keeps the bridge connecting, unless a discovery is complete during a scan. -/
theorem connecting_step {env : Env κ} {s s' : BleLink κ} {e : LinkEv}
    (hc : noScanComplete s e = true) (h : Connecting s) (hs : s.step env e = some s') :
    Connecting s' := by
  cases e with
  | scan =>
      obtain rfl := Option.some.inj hs
      unfold hBleScan
      split
      · exact h
      · rename_i hm
        exact connecting_bluettiBleScan (h.resolve_right fun hr => hm hr.1)
  | scanTimer =>
      obtain ⟨-, rfl⟩ := BleLink.step_scanTimer_iff.mp hs
      exact connecting_scanStop h
  | disc parses target rcOk =>
      obtain rfl := Option.some.inj hs
      unfold gapDisc
      split
      · exact h.of_same (sameMode_tryConnect s rcOk)
      · exact h
  | discComplete =>
      obtain rfl := Option.some.inj hs
      unfold gapDiscComplete
      rw [if_neg (of_decide_eq_true hc)]
      exact h
  | connect =>
      obtain rfl := Option.some.inj hs
      exact h.of_same ⟨rfl, rfl, rfl⟩
  | connectFailed =>
      obtain rfl := Option.some.inj hs
      exact h.of_same (sameMode_startConnectScan s)
  | disconnect =>
      obtain rfl := Option.some.inj hs
      exact h.of_same (sameMode_linkDisconnect s)
  | subscribed ok =>
      obtain ⟨-, rfl⟩ := BleLink.step_subscribed_iff.mp hs
      split
      · exact h.of_same ⟨rfl, rfl, rfl⟩
      · exact h
  | notify data nowUs =>
      obtain ⟨-, rfl⟩ := BleLink.step_notify_iff.mp hs
      exact h.of_same ⟨rfl, rfl, rfl⟩
  | kexTimer =>
      obtain ⟨-, rfl⟩ := BleLink.step_kexTimer_iff.mp hs
      exact h.of_same ⟨rfl, rfl, rfl⟩
  | tick nowUs sentUs =>
      obtain ⟨-, rfl⟩ := BleLink.step_tick_iff.mp hs
      exact h.of_same (sameMode_linkTick env s nowUs sentUs)
  | hostReset =>
      obtain rfl := Option.some.inj hs
      exact h.of_same ⟨rfl, rfl, rfl⟩
  | hostSync addrOk =>
      obtain rfl := Option.some.inj hs
      exact h.of_same (sameMode_onSync s addrOk)
  | setControls on =>
      obtain rfl := Option.some.inj hs
      exact h.of_same ⟨rfl, rfl, rfl⟩
  | writeControl field value =>
      obtain rfl := Option.some.inj hs
      exact h.of_same ⟨rfl, rfl, rfl⟩

theorem connecting_start (s : BleLink κ) (controls : Bool) (low : Int) :
    Connecting (linkStart s controls low) :=
  .inl (sameMode_startConnectScan _).mode

end

open StepMachine

/-- **The bridge never forgets its unit**: after `bluetti_ble_start`, in every run of scans, timers,
    GAP events, resets and syncs in which no discovery is complete during a scan. -/
theorem connecting_of_noScanComplete {κ : Type} (env : Env κ) (s₀ : BleLink κ) (controls : Bool)
    (low : Int) (es : List LinkEv) (s : BleLink κ)
    (hrun : run (BleLink.step env) (linkStart s₀ controls low) es = some s)
    (hc : Along (BleLink.step env) (fun s e => noScanComplete s e = true)
      (linkStart s₀ controls low) es) : Connecting s :=
  run_inv_along (BleLink.step env) (fun _ _ _ hc h hs => connecting_step hc h hs) hc
    (connecting_start s₀ controls low) hrun

/-- A scan on the web page drops the link; its time ends, and the unit is looked for again. -/
theorem connecting_of_noScanComplete_scan :
    let es : List LinkEv := [.disc true true true, .connect, .scan, .disconnect, .scanTimer]
    ∃ s, run (BleLink.step toyEnv) (linkStart bluettiBleHostInit false 20) es = some s ∧
      Connecting s := by
  refine ⟨_, rfl, connecting_of_noScanComplete toyEnv bluettiBleHostInit false 20
    [.disc true true true, .connect, .scan, .disconnect, .scanTimer] _ rfl ?_⟩
  exact along_of_check (BleLink.step toyEnv) (c := noScanComplete) (fun _ _ h => h) rfl

/-- **A scan that is reported complete before its time is over** leaves the bridge idle, also when
    the time is over. -/
theorem scan_forgets_unit :
    let es : List LinkEv := [.scan, .discComplete, .scanTimer]
    ∃ s, run (BleLink.step toyEnv) (linkStart bluettiBleHostInit false 20) es = some s ∧
      ¬ Connecting s := by
  refine ⟨_, rfl, fun h => ?_⟩
  rcases h with h | ⟨h, -⟩ <;> cases h

end NutBluetti.Ble
