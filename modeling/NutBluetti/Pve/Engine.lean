/-
  File:      NutBluetti/Pve/Engine.lean
  Subject:   THE DECISION HALF (pve_engine.c): `pve_engine_sync_guests`, `trigger_met`, `pve_eval`
             and the two countdowns.

  `pve_eval` is split where the source has a blank line: the edges of the outage (`observeEdges`),
  whether the mains has been back long enough (`mainsBack`), and one round of the loop over the
  hosts (`evalRound`, `evalHost`). The loop that fires guests on their own trigger and the loop that
  sweeps them up with the node are one loop (`stopGuest`) with two reasons.
-/
import NutBluetti.Pve.Types

namespace NutBluetti.Pve

open CText KeyedList

def usPerS : Int := 1000000
def usPerMin : Int := 60 * usPerS

/-! ## 1. `pve_engine_sync_guests` -/

/-- Fresh engine state for one configured id: `fired` and `reason` follow the id, `fired_now` never
    carries over. -/
def freshGuest (stGuests : List GuestEngine) (g : PveGuest) : GuestEngine :=
  match findGuestState stGuests g.id with
  | none => ⟨g.id, false, false, ""⟩
  | some old => ⟨g.id, old.fired, false, fit guestReasonSz old.reason⟩

/-- `pve_engine_sync_guests`. -/
def pveEngineSyncGuests (stGuests : List GuestEngine) (cfgGuests : List PveGuest) :
    List GuestEngine :=
  cfgGuests.map (freshGuest stGuests)

/-! ## 2. `trigger_met` -/

/-- `trigger_met`: the reason it leaves in the caller's buffer of `reasonSz` bytes, `none` when the
    trigger is not met. -/
def triggerMet (onBatteryMin : UInt16) (chargePct : UInt8) (st : PveEngine) (obs : PveObs)
    (nowUs : Int) (reasonSz : Nat) : Option String :=
  -- The on-battery timer needs no live reading; the charge test does.
  if onBatteryMin.toNat > 0 ∧ st.onBattery ∧
      nowUs - st.onBatterySinceUs ≥ onBatteryMin.toNat * usPerMin then
    some (fit reasonSz ("on battery for " ++ toString onBatteryMin.toNat ++ " min"))
  else if obs.power = .battery ∧ chargePct.toNat > 0 ∧ obs.socPct ≥ 0 ∧
      obs.socPct ≤ chargePct.toNat then
    some (fit reasonSz ("charge " ++ toString obs.socPct ++ "% (limit " ++
      toString chargePct.toNat ++ "%)"))
  else
    none

/-! ## 3. `pve_eval` -/

/-- The `switch` on the observed power: the edges both clocks are started from. -/
def observeEdges (st : PveEngine) (power : PvePower) (nowUs : Int) : PveEngine :=
  match power with
  | .battery =>
      let st := if st.onBattery then st
        else { st with onBattery := true, onBatterySinceUs := nowUs }
      { st with onMains := false }
  | .line =>
      let st := { st with onBattery := false }
      if st.onMains then st else { st with onMains := true, mainsSinceUs := nowUs }
  | .unknown =>
      -- Unknown never starts a countdown and never ends one; it is not mains, either.
      { st with onMains := false }

/-- `mains_back`: the latches release in this call. -/
def mainsBack (cfg : PveConfig) (st : PveEngine) (nowUs : Int) : Bool :=
  decide (cfg.mainsBackMin.toNat > 0) && st.onMains &&
    decide (nowUs - st.mainsSinceUs ≥ cfg.mainsBackMin.toNat * usPerMin)

/-- The fire-once latch of one guest closes, with its reason. -/
def GuestEngine.latch (gs : GuestEngine) (why : String) : GuestEngine :=
  { gs with fired := true, firedNow := true, reason := why }

/-- The latch of one guest opens. -/
def GuestEngine.release (gs : GuestEngine) : GuestEngine :=
  if gs.fired then { gs with fired := false, reason := "" } else gs

/-- One round of either guest loop: the entry `find_guest_state` points at is latched with the
    reason `why` finds for it, unless there is none, it is latched already or `why` finds no
    reason. -/
def stopGuest (why : PveGuest → Option String) (gst : List GuestEngine) (gg : PveGuest) :
    List GuestEngine :=
  modify GuestEngine.id gg.id
    (fun gs => if gs.fired then gs else
      match why gg with
      | none => gs
      | some text => gs.latch text) gst

/-- What one round of the loop over the hosts reads and writes of the engine's three arrays. -/
structure HostSlot where
  fired : Bool
  reason : String
  guests : List GuestEngine

def PveEngine.slot (st : PveEngine) (i : HostIx) : HostSlot :=
  ⟨st.fired i, st.reason i, st.guests i⟩

def PveEngine.setSlot (st : PveEngine) (i : HostIx) (s : HostSlot) : PveEngine :=
  { st with
    fired := Function.update st.fired i s.fired
    reason := Function.update st.reason i s.reason
    guests := Function.update st.guests i s.guests }

/-- A guest's own trigger. -/
def guestTrigger (st : PveEngine) (obs : PveObs) (nowUs : Int) (gg : PveGuest) : Option String :=
  triggerMet gg.onBatteryMin gg.chargePct st obs nowUs guestReasonSz

/-- The reason a guest is swept up with: the node's. -/
def sweepReason (nodeReason : String) (_ : PveGuest) : Option String :=
  some (fit guestReasonSz ("with the node (" ++ nodeReason ++ ")"))

/-- The guest states of a host before its own triggers are looked at: `fired_now` cleared, latches
    released with the mains. -/
def refreshGuests (back : Bool) (gst : List GuestEngine) : List GuestEngine :=
  let gst := gst.map fun gs => { gs with firedNow := false }
  if back then gst.map GuestEngine.release else gst

/-- One round of the loop over the hosts: the slot after it and whether the host fired. The
    clocks and the observation are the call's. -/
def evalHost (h : PveHost) (guests : List PveGuest) (st : PveEngine) (obs : PveObs) (nowUs : Int)
    (back : Bool) (s : HostSlot) : HostSlot × Bool :=
  let gst := refreshGuests back s.guests
  if s.fired then
    if back then (⟨false, "", gst⟩, false) else (⟨true, s.reason, gst⟩, false)
  else if !h.enabled then
    (⟨false, s.reason, gst⟩, false)
  else
    let gst := guests.foldl (stopGuest (guestTrigger st obs nowUs)) gst
    match triggerMet h.onBatteryMin h.chargePct st obs nowUs hostReasonSz with
    | none => (⟨false, s.reason, gst⟩, false)
    | some why =>
        -- The node going down is the deadline every configured guest has to be off by.
        (⟨true, why, guests.foldl (stopGuest (sweepReason why)) gst⟩, true)

/-- `pve_fire_t`. -/
structure PveFire where
  hosts : HostMask

/-- The body of the loop over the hosts: the slot of host `i` is read, run through its round and
    written back, and the bit of a host that fired is set. -/
def evalRound (cfg : PveConfig) (guests : GuestLists) (obs : PveObs) (nowUs : Int) (back : Bool)
    (acc : PveEngine × PveFire) (i : HostIx) : PveEngine × PveFire :=
  let (s, f) := evalHost (cfg.hosts i) (guests i) acc.1 obs nowUs back (acc.1.slot i)
  (acc.1.setSlot i s, if f then ⟨acc.2.hosts.set i⟩ else acc.2)

/-- **`pve_eval`**: one observation folded into the engine, and the hosts it fired. -/
def pveEval (cfg : PveConfig) (guests : GuestLists) (st : PveEngine) (obs : PveObs)
    (nowUs : Int) : PveEngine × PveFire :=
  if !cfg.enabled then
    -- Off: forget everything, so enabling it mid-outage starts clean.
    ({ st with onBattery := false, onMains := false }, ⟨HostMask.none⟩)
  else
    let st := observeEdges st obs.power nowUs
    hostSlots.foldl (evalRound cfg guests obs nowUs (mainsBack cfg st nowUs)) (st, ⟨HostMask.none⟩)

/-! ## 4. The countdowns -/

/-- The seconds left to a deadline `min` minutes into the outage. -/
def secondsLeft (st : PveEngine) (min : UInt16) (nowUs : Int) : Int :=
  let due := st.onBatterySinceUs + min.toNat * usPerMin
  let left := due - nowUs
  if left > 0 then left / usPerS else 0

/-- `pve_countdown_s`; a slot outside the array (`i` as the caller passed it) has none. -/
def pveCountdownS (cfg : PveConfig) (st : PveEngine) (i : Int) (nowUs : Int) : Int :=
  if hi : i < 0 ∨ i ≥ pveMaxHosts then -1
  else
    let ix : HostIx := ⟨i.toNat, by omega⟩
    let h := cfg.hosts ix
    if !cfg.enabled || !h.enabled || h.onBatteryMin.toNat == 0 || !st.onBattery || st.fired ix then
      -1
    else secondsLeft st h.onBatteryMin nowUs

/-- `pve_guest_countdown_s`. -/
def pveGuestCountdownS (cfg : PveConfig) (st : PveEngine) (guests : List PveGuest) (i : Int)
    (id : Int) (nowUs : Int) : Int :=
  if hi : i < 0 ∨ i ≥ pveMaxHosts then -1
  else
    let ix : HostIx := ⟨i.toNat, by omega⟩
    if !cfg.enabled || !(cfg.hosts ix).enabled || !st.onBattery then -1
    else
      match lookup PveGuest.id id guests with
      | none => -1
      | some gg =>
          if gg.onBatteryMin.toNat = 0 then -1
          else if (st.guests ix).any fun gs => gs.id == id && gs.fired then -1
          else secondsLeft st gg.onBatteryMin nowUs

end NutBluetti.Pve
