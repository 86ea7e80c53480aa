/-
  File:      NutBluetti/Ble/Poll.lean
  Subject:   THE POLL LOOP (bluetti_ble.c): the timer that sends one request per tick, the callbacks
             of the session, and the events that rebuild the plan or the link.

  `poll_timer_cb` runs in a task of its own. It is three steps here: up to the request it takes from
  the write queue or the plan (`pollTick`), the call into the session (`sendRequest`), and the two
  assignments after it (`markSent`). Any step of the NimBLE host task or of the web server may
  come between two of them.

  The device is known by what it owes: a request whose transmission succeeded is owed an answer
  until that arrives, in any order and after any delay, or is lost. What arrives is bytes, handed to
  `btSessionFeed`.
-/
import NutBluetti.Ble.Regs
import NutBluetti.Ble.Session

namespace NutBluetti.Ble

/-! ## 1. The module's own state -/

def reqTimeoutUs : Int := 6 * 1000 * 1000
def pollFailLimit : Nat := 5
def writeQueueMax : Nat := 16

/-- The static `b`: the fields the poll loop and the callbacks use. -/
structure BluettiBle (κ : Type) where
  /-- `cfg.controls` and `cfg.low_battery_pct`. -/
  controls : Bool
  lowBatteryPct : Int
  /-- The identified model. -/
  device : Option BtDevice
  connected : Bool
  session : BtSession κ
  /-- The first `plan_n` entries of the plan. -/
  plan : List BtRegRead
  /-- The next field to read. -/
  planI : Nat
  sweepReads : Nat
  reqInFlight : Bool
  reqSentUs : Int
  /-- Consecutive reads with no reply. -/
  pollFails : Nat
  writeQueue : List (UInt16 × UInt16)
  state : BluettiState

/-- One Modbus request: a read of the plan or a control write. -/
inductive Request where
  | read (f : BtRegRead)
  | write (reg val : UInt16)
  deriving DecidableEq

def Request.addr : Request → UInt16
  | .read f => f.addr
  | .write r _ => r

def Request.isRead : Request → Bool
  | .read _ => true
  | .write _ _ => false

section

variable {κ : Type}

/-! ## 2. The callbacks of the session -/

/-- `bt_regs_apply` on the state of `b`. -/
def BluettiBle.applyRegs (b : BluettiBle κ) (addr : UInt16) (data : List UInt8) (nowUs : Int) :
    Nat × BluettiBle κ :=
  let (matched, st) := btRegsApply b.device addr data nowUs b.state
  (matched, { b with state := st })

/-- The unit has named itself, and no model was chosen yet. -/
def BluettiBle.unnamed (b : BluettiBle κ) : Bool := b.device.isNone && !b.state.model.isEmpty

/-- The model is looked up, and the plan rebuilt for it. -/
def BluettiBle.identify (b : BluettiBle κ) : BluettiBle κ :=
  let dev := (btDeviceLookup b.state.model).getD btDeviceGeneric
  { b with
    device := some dev
    plan := btRegsPlan dev b.controls btRegPlanMax
    planI := 0
    sweepReads := 0 }      -- new fields in the plan; the sweep starts over

/-- The end of `session_regs`: what is published of the sweep, and the request is answered. -/
def BluettiBle.settle (b : BluettiBle κ) : BluettiBle κ :=
  { b with
    state := { b.state with
      socLowPct := b.lowBatteryPct
      sweepDone := decide (0 < b.plan.length) && decide (b.plan.length ≤ b.sweepReads) }
    reqInFlight := false
    pollFails := 0 }

/-- **`session_regs`**: the number of fields recognised, which decides whether the state is
    published, and the new `b`. -/
def sessionRegs (b : BluettiBle κ) (addr : UInt16) (data : List UInt8) (nowUs : Int) :
    Nat × BluettiBle κ :=
  let (matched, b) := b.applyRegs addr data nowUs
  let b := if b.unnamed then (b.identify.applyRegs addr data nowUs).2 else b
  (matched, b.settle)

/-- `session_ack`. -/
def sessionAck (b : BluettiBle κ) : BluettiBle κ := { b with reqInFlight := false, pollFails := 0 }

/-! ## 3. `poll_timer_cb` -/

/-- A request is given up; at the limit the link is dropped instead. -/
def BluettiBle.giveUp (b : BluettiBle κ) : BluettiBle κ :=
  if !b.reqInFlight then b
  else if b.pollFails + 1 ≥ pollFailLimit then
    { b with reqInFlight := false, pollFails := 0, connected := false }
  else { b with reqInFlight := false, pollFails := b.pollFails + 1 }

/-- The next request: the oldest queued write, else the next field of the plan. -/
def BluettiBle.takeNext (b : BluettiBle κ) : BluettiBle κ × Option Request :=
  match b.writeQueue with
  | (r, v) :: rest => ({ b with writeQueue := rest }, some (.write r v))
  | [] =>
      match b.plan[b.planI]? with
      | none => (b, none)
      | some f =>
          ({ b with
             planI := (b.planI + 1) % b.plan.length
             sweepReads := if b.sweepReads < b.plan.length then b.sweepReads + 1
               else b.sweepReads },
           some (.read f))

/-- **`poll_timer_cb`** up to the request it is going to send, if any. -/
def pollTick (b : BluettiBle κ) (nowUs : Int) : BluettiBle κ × Option Request :=
  if !b.connected || !btSessionReady b.session || b.plan.isEmpty then (b, none)
  -- Hold off while a request is outstanding, unless the response is clearly not coming.
  else if b.reqInFlight && decide (nowUs - b.reqSentUs < reqTimeoutUs) then (b, none)
  else if !b.giveUp.connected then (b.giveUp, none)
  else b.giveUp.takeNext

/-- The call into the session, and whether it returned 0. -/
def sendRequest (env : Env κ) (s : BtSession κ) : Request → Bool × BtSession κ
  | .read f => btSessionReadRegs env s f.addr f.words.toUInt16
  | .write r v => btSessionWriteReg env s r v

/-- After a send that went out. -/
def BluettiBle.markSent (b : BluettiBle κ) (nowUs : Int) : BluettiBle κ :=
  { b with reqInFlight := true, reqSentUs := nowUs }

/-! ## 4. Link, plan and write queue -/

/-- `on_sub`: until the model is known, the fields common to every unit. -/
def onSub (b : BluettiBle κ) : BluettiBle κ :=
  { b with
    plan := btRegsPlan btDeviceGeneric false btRegPlanMax
    planI := 0
    sweepReads := 0
    pollFails := 0
    reqInFlight := false }

/-- `BLE_GAP_EVENT_CONNECT` with status 0. -/
def gapConnect (b : BluettiBle κ) : BluettiBle κ :=
  { b with
    connected := true
    plan := []
    planI := 0
    sweepReads := 0
    reqInFlight := false
    pollFails := 0
    state := stateReset b.state.socLowPct
    session := btSessionReset b.session
    device := none }

/-- `BLE_GAP_EVENT_DISCONNECT`. -/
def gapDisconnect (b : BluettiBle κ) : BluettiBle κ :=
  { b with connected := false, session := btSessionReset b.session, device := none }

/-- `kex_timer_cb`: no challenge came, so plain Modbus it is. -/
def kexTimerCb (b : BluettiBle κ) : BluettiBle κ :=
  if b.connected && decide (b.session.state = .idle) then
    { b with session := btSessionUsePlain b.session }
  else b

/-- `bluetti_ble_set_controls`. -/
def bluettiBleSetControls (b : BluettiBle κ) (on : Bool) : BluettiBle κ :=
  let b := { b with controls := on, writeQueue := if on then b.writeQueue else [] }
  match b.device with
  | none => b
  | some dev =>
      { b with plan := btRegsPlan dev on btRegPlanMax, planI := 0, sweepReads := 0 }

/-- A write to a register already queued replaces its value; else it goes to the end, if there is
    room. -/
def enqueueWrite (q : List (UInt16 × UInt16)) (r v : UInt16) : Option (List (UInt16 × UInt16)) :=
  match q.findIdx? fun w => w.1 == r with
  | some slot => some (q.set slot (r, v))
  | none => if q.length ≥ writeQueueMax then none else some (q ++ [(r, v)])

/-- `bluetti_ble_write_control`: whether it was queued. -/
def bluettiBleWriteControl (b : BluettiBle κ) (field : String) (value : Int) :
    Bool × BluettiBle κ :=
  match btControlLookup field with
  | none => (false, b)
  | some c =>
      if !btControlValid c value then (false, b)
      else if !b.controls then (false, b)
      else
        match b.device with
        | none => (false, b)
        | some dev =>
            if !b.connected || !btSessionReady b.session then (false, b)
            else if !dev.hasControl c.bit then (false, b)
            -- never a register that was not read back
            else if btControlCurrent c b.state < 0 then (false, b)
            else
              match enqueueWrite b.writeQueue c.reg (UInt16.ofInt value) with
              | none => (false, b)
              | some q => (true, { b with writeQueue := q })

/-- `b` after `bluetti_ble_start`. -/
def bluettiBleStart (controls : Bool) (lowBatteryPct : Int) : BluettiBle κ where
  controls := controls
  lowBatteryPct := lowBatteryPct
  device := none
  connected := false
  session := btSessionNew
  plan := []
  planI := 0
  sweepReads := 0
  reqInFlight := false
  reqSentUs := 0
  pollFails := 0
  writeQueue := []
  state := stateReset lowBatteryPct

/-! ## 5. What main.c makes of it -/

/-- What `publish_nut_from_bluetti` says of the mains: the NUT status, and the arguments of
    `pve_shutdown_observe`. -/
structure PowerReport where
  status : String
  known : Bool
  onMains : Bool
  socPct : Int
  deriving DecidableEq

/-- The end of `publish_nut_from_bluetti`. -/
def publishPower (runtimeLowS : Int) (st : BluettiState) : PowerReport :=
  if !st.sweepDone then ⟨"OL WAIT", false, false, -1⟩
  else
    let status :=
      if st.acInputPresent then "OL" ++ (if st.charging then " CHRG" else "")
      else
        -- low battery on either trigger
        let lowCharge := decide (st.socPct ≥ 0) && decide (st.socPct ≤ st.socLowPct)
        let lowRuntime := decide (runtimeLowS > 0) && decide (st.minutesRemaining ≥ 0) &&
          decide (st.minutesRemaining * 60 ≤ runtimeLowS)
        "OB" ++ (if lowCharge || lowRuntime then " LB" else "") ++
          (if st.charging then " CHRG" else " DISCHRG")
    ⟨status, true, st.acInputPresent, st.socPct⟩

/-- A report that the mains is out, to the NUT clients or to the Proxmox engine. -/
def PowerReport.onBattery (r : PowerReport) : Bool :=
  "OB".toList.isPrefixOf r.status.toList || (r.known && !r.onMains)

/-! ## 6. The loop and the device -/

/-- A request with a number of its own. -/
structure Issued where
  id : Nat
  req : Request
  deriving DecidableEq

/-- Where the timer task is. -/
inductive TimerPhase where
  | idle
  | send (q : Issued)
  | mark
  deriving DecidableEq

/-- A call of `session_regs`: the label and the request that elicited the answer; the state it
    copied, and whether it was published; the plan then, and the fields of it that had been answered
    since the plan was built. -/
structure RegsCall where
  label : UInt16
  elicited : Issued
  state : BluettiState
  published : Bool
  plan : List BtRegRead
  answered : List BtRegRead

/-- The loop with the timer task, the link, the requests that are owed an answer over it, and the
    record of them: the fields answered with register data since the plan was built, the read of the
    first sweep since then that waits for its data, and every call of `session_regs`. -/
structure Poll (κ : Type) where
  b : BluettiBle κ
  timer : TimerPhase
  link : Bool
  owed : List Issued
  nextId : Nat
  answered : List BtRegRead
  awaiting : Option Nat
  calls : List RegsCall

/-- An event. -/
inductive PollEv where
  /-- The timer task, step by step. -/
  | tick (nowUs : Int)
  | send
  | mark (nowUs : Int)
  /-- A notification that completes the answer to the `i`-th request owed one: register data, or the
      echo or the refusal of a write. -/
  | answer (i : Nat) (data : List UInt8) (nowUs : Int)
  /-- A notification with an exception for the `i`-th request owed an answer, a read. -/
  | exception (i : Nat) (data : List UInt8)
  /-- Any other notification: it completes no answer. -/
  | notify (data : List UInt8)
  /-- The answer to the `i`-th request will not come. -/
  | lose (i : Nat)
  | kexTimer
  | connect
  | disconnect
  | subscribed
  | setControls (on : Bool)
  | writeControl (field : String) (value : Int)

/-- The loop with another `b`, all else as it was. -/
def Poll.withB (s : Poll κ) (b : BluettiBle κ) : Poll κ := { s with b := b }

/-- The plan was rebuilt: no field of it has been answered yet. -/
def Poll.rebuilt (s : Poll κ) (b : BluettiBle κ) : Poll κ :=
  { s with b := b, answered := [], awaiting := none }

/-- The calls of `on_regs` and `on_ack` between two states of the session. -/
def callbacks (before after : BtSession κ) : List (SessEvent κ) :=
  (after.log.drop before.log.length).filter fun e =>
    match e with
    | .regs _ _ => true
    | .ack _ _ _ => true
    | _ => false

/-- A tick. A read of the first sweep is awaited from the moment the plan counts it. -/
def Poll.tick (s : Poll κ) (nowUs : Int) : Poll κ :=
  let (b, q) := pollTick s.b nowUs
  match q with
  | none => s.withB b
  | some q =>
      { s with
        b := b
        timer := .send ⟨s.nextId, q⟩
        nextId := s.nextId + 1
        awaiting := if q.isRead && decide (s.b.sweepReads < s.b.plan.length) then some s.nextId
          else s.awaiting }

/-- The request goes out, or does not. -/
def Poll.send (env : Env κ) (s : Poll κ) (q : Issued) : Poll κ :=
  let (ok, sess) := sendRequest env s.b.session q.req
  { s with
    b := { s.b with session := sess }
    timer := if ok then .mark else .idle
    owed := if ok then s.owed ++ [q] else s.owed }

/-- Register data of the read `f`, issued as `q`, reaches `session_regs` under a label. -/
def Poll.regs (s : Poll κ) (q : Issued) (f : BtRegRead) (label : UInt16) (data : List UInt8)
    (nowUs : Int) : Poll κ :=
  let rebuilds := (s.b.applyRegs label data nowUs).2.unnamed
  let (matched, b) := sessionRegs s.b label data nowUs
  let answered := if rebuilds then [] else if label = f.addr then f :: s.answered else s.answered
  { s with
    b := b
    answered := answered
    awaiting := if rebuilds ∨ s.awaiting = some q.id then none else s.awaiting
    calls := s.calls ++ [⟨label, q, b.state, decide (0 < matched), b.plan, answered⟩] }

/-- The bytes of a notification reach the session; there are none without a link. -/
def Poll.feed (env : Env κ) (s : Poll κ) (data : List UInt8) : Option (BtSession κ) :=
  if s.link then some (btSessionFeed env s.b.session data) else none

/-- The answer to `q` arrives. A read is answered with its registers, through one `on_regs`; a write
    is echoed or refused, through one `on_ack`. -/
def Poll.answer (env : Env κ) (s : Poll κ) (i : Nat) (q : Issued) (data : List UInt8)
    (nowUs : Int) : Option (Poll κ) :=
  (s.feed env data).bind fun sess =>
    let s' := { s with b := { s.b with session := sess }, owed := s.owed.eraseIdx i }
    match q.req, callbacks s.b.session sess with
    | .read f, [.regs label regs] =>
        if regs.length = 2 * f.words.toNat then some (s'.regs q f label regs nowUs) else none
    | .write _ _, [.ack _ _ _] => some (s'.withB (sessionAck s'.b))
    | _, _ => none

/-- A notification that calls nothing back. -/
def Poll.feedQuiet (env : Env κ) (s : Poll κ) (data : List UInt8) : Option (Poll κ) :=
  (s.feed env data).bind fun sess =>
    match callbacks s.b.session sess with
    | [] => some (s.withB { s.b with session := sess })
    | _ => none

/-- **One step.** -/
def Poll.step (env : Env κ) (s : Poll κ) : PollEv → Option (Poll κ)
  | .tick nowUs => if s.timer = .idle then some (s.tick nowUs) else none
  | .send =>
      match s.timer with
      | .send q => some (s.send env q)
      | _ => none
  | .mark nowUs =>
      if s.timer = .mark then some { s.withB (s.b.markSent nowUs) with timer := .idle } else none
  | .answer i data nowUs => s.owed[i]?.bind fun q => s.answer env i q data nowUs
  | .exception i data =>
      s.owed[i]?.bind fun q =>
        if q.req.isRead then
          (s.feedQuiet env data).map fun s' => { s' with owed := s.owed.eraseIdx i }
        else none
  | .notify data => s.feedQuiet env data
  | .lose i => if i < s.owed.length then some { s with owed := s.owed.eraseIdx i } else none
  | .kexTimer => some (s.withB (kexTimerCb s.b))
  -- What was owed on another link does not come on this one.
  | .connect => some { s.rebuilt (gapConnect s.b) with link := true, owed := [] }
  | .disconnect => some { s.withB (gapDisconnect s.b) with link := false, owed := [] }
  | .subscribed => some (s.rebuilt (onSub s.b))
  | .setControls on =>
      let b := bluettiBleSetControls s.b on
      some (if s.b.device.isSome then s.rebuilt b else s.withB b)
  | .writeControl field value => some (s.withB (bluettiBleWriteControl s.b field value).2)

/-- The loop at boot. -/
def Poll.start (controls : Bool) (lowBatteryPct : Int) : Poll κ where
  b := bluettiBleStart controls lowBatteryPct
  timer := .idle
  link := false
  owed := []
  nextId := 0
  answered := []
  awaiting := none
  calls := []

end

end NutBluetti.Ble
