/-
  File:      NutBluetti/Notify/Alerts.lean
  Subject:   THE TELEGRAM ALERTS (notify.c): the power state read off a NUT status, the repeat
             guard, and `notify_ups_status`, from a started notifier on.

  What xQueueSend takes is recorded in `queued`, in order, with the alert it came from; nothing
  reads that field. Whether the queue has room is the queue's answer to each message (`room`).
  Delivery by the worker is left out.
-/
import Mathlib.Algebra.Group.Int.Defs
import Mathlib.Algebra.GroupWithZero.Nat
import NutBluetti.Lib.CText

namespace NutBluetti.Notify

open CText

/-! ## 1. Data -/

def msgMax : Nat := 256

/-- `REPEAT_GUARD_US`. -/
def repeatGuardUs : Int := 60 * 1000 * 1000

/-- `notify_config_t`, as far as the detection of events reads it. -/
structure NotifyConfig where
  enabled : Bool
  onPower : Bool
  onLowBatt : Bool
  onLink : Bool
  onBatteryPct : Bool
  deriving DecidableEq, Repr

/-- `power_state_t`. -/
inductive PowerState where
  | unknown
  | line
  | battery
  | offline
  deriving DecidableEq, Repr

/-- What a message about the power state is about. -/
inductive PowerEvent where
  | mainsLost
  | mainsRestored
  | contactLost
  | unitBack
  deriving DecidableEq, Repr

/-- The alerts `notify_ups_status` raises, each at most once in a call. -/
inductive Alert where
  | power (ev : PowerEvent)
  | low
  | notLow
  | reminder
  deriving DecidableEq, Repr

/-- `msg_t`, with the alert it came from. -/
structure Msg where
  alert : Alert
  text : String
  queuedUs : Int
  deriving DecidableEq, Repr

/-- `N`. -/
structure Notifier where
  label : String
  power : PowerState
  lowBatt : Bool
  lastEventUs : Int
  lastEventState : PowerState
  battDecile : Int
  queued : List Msg
  deriving DecidableEq, Repr

/-- What `notify_start` leaves. -/
def notifyStart (label : String) : Notifier :=
  ⟨fit 40 label, .unknown, false, 0, .unknown, -1, []⟩

/-- A call of `notify_ups_status`: the configuration in force, its arguments, the clock, and the
    queue's answer to a message of each kind. -/
structure StatusCall where
  cfg : NotifyConfig
  status : String
  socPct : Int
  runtimeMin : Int
  nowUs : Int
  room : Alert → Bool

/-! ## 2. The status -/

/-- `strstr (s, needle) != NULL`. -/
def strstr (needle : List Char) : List Char → Bool
  | [] => needle.isEmpty
  | c :: s => needle.isPrefixOf (c :: s) || strstr needle s

/-- The power state a status stands for; none for `WAIT`, which is no observation, and for a status
    with nothing to report. -/
def powerOf (status : String) : Option PowerState :=
  if strstr "WAIT".toList status.toList then none
  else if "OFF".toList.isPrefixOf status.toList then some .offline
  else if strstr "OB".toList status.toList then some .battery
  else if strstr "OL".toList status.toList then some .line
  else none

/-! ## 3. Messages -/

/-- `notify_send`, with notifications enabled. -/
def notifySend (N : Notifier) (c : StatusCall) (alert : Alert) (text : String) : Notifier :=
  if c.room alert then
    { N with queued := N.queued ++ [⟨alert, fit msgMax
      (if N.label = "" then text else N.label ++ ": " ++ text), c.nowUs⟩] }
  else N

/-- The charge, with the time left where there is one. -/
def chargeText (c : StatusCall) (left none : String) : String :=
  if c.runtimeMin > 0 then
    toString c.socPct ++ left ++ toString c.runtimeMin ++ " min left."
  else toString c.socPct ++ none

/-- The message of a change from `was` to `now`. -/
def powerAlert (c : StatusCall) (was now : PowerState) : Option (PowerEvent × String) :=
  match now with
  | .battery =>
      -- Coming from OFFLINE means the link just returned, not that mains dropped.
      if was = .line && c.cfg.onPower then
        some (.mainsLost, fit msgMax ("\xE2\x9A\xA1 Mains lost \xE2\x80\x94 running on battery. " ++
          chargeText c "% charge, about " "% charge."))
      else if was = .offline && c.cfg.onLink then
        some (.unitBack, "\xE2\x9C\x85 BLUETTI unit is back \xE2\x80\x94 on battery.")
      else none
  | .line =>
      if was = .battery && c.cfg.onPower then
        some (.mainsRestored,
          fit msgMax ("\xE2\x9C\x85 Mains restored. " ++ toString c.socPct ++ "% charge."))
      else if was = .offline && c.cfg.onLink then
        some (.unitBack, "\xE2\x9C\x85 BLUETTI unit is back.")
      else none
  | .offline =>
      if c.cfg.onLink then
        some (.contactLost, "\xE2\x9A\xA0\xEF\xB8\x8F Lost contact with the BLUETTI unit " ++
          "\xE2\x80\x94 UPS status is unknown.")
      else none
  | .unknown => none

/-! ## 4. `notify_ups_status` -/

/-- `guard_allows`: a repeat of the state last told, inside the window, is refused. -/
def guardAllows (N : Notifier) (s : PowerState) (nowUs : Int) : Bool × Notifier :=
  if s = N.lastEventState ∧ nowUs - N.lastEventUs < repeatGuardUs then (false, N)
  else (true, { N with lastEventState := s, lastEventUs := nowUs })

/-- The change of the power state, behind the guard. -/
def powerEdge (N : Notifier) (c : StatusCall) (now : PowerState) : Notifier :=
  if now ≠ N.power ∧ N.power ≠ .unknown then
    let was := N.power
    let (allowed, N) := guardAllows N now c.nowUs
    if allowed then
      match powerAlert c was now with
      | some (ev, text) => notifySend N c (.power ev) text
      | none => N
    else N
  else N

/-- Low battery: its own edge, independent of the mains. -/
def lowEdge (N : Notifier) (c : StatusCall) (now : PowerState) (low : Bool) : Notifier :=
  let N := if low && !N.lowBatt && c.cfg.onLowBatt then
      notifySend N c .low (fit msgMax ("\xF0\x9F\x94\xB4 Battery low: " ++
        chargeText c "%, about " "%." ++ " Shut things down."))
    else N
  if !low && N.lowBatt && c.cfg.onLowBatt && now = .line then
    notifySend N c .notLow "\xF0\x9F\x94\x8B Battery no longer low."
  else N

/-- The reminder at every ten points the charge drops on battery. -/
def reminder (N : Notifier) (c : StatusCall) (now : PowerState) : Notifier :=
  if now = .battery ∧ c.cfg.onBatteryPct = true then
    let decile := c.socPct.tdiv 10
    if N.battDecile < 0 then { N with battDecile := decile }
    else if decile < N.battDecile then
      notifySend { N with battDecile := decile } c .reminder
        (fit msgMax ("\xF0\x9F\x94\x8B Still on battery: " ++
          chargeText c "% charge, about " "% charge."))
    else N
  else if now ≠ .battery then { N with battDecile := -1 }
  else N

/-- **`notify_ups_status`**. -/
def notifyUpsStatus (N : Notifier) (c : StatusCall) : Notifier :=
  if !c.cfg.enabled then N
  else
    match powerOf c.status with
    | none => N
    | some now =>
        let low := strstr "LB".toList c.status.toList
        let N := powerEdge N c now
        let N := lowEdge N c now low
        let N := reminder N c now
        { N with power := now, lowBatt := low }

/-- Calls one after the other. -/
def runCalls (N : Notifier) (cs : List StatusCall) : Notifier := cs.foldl notifyUpsStatus N

end NutBluetti.Notify
