/-
  File:      NutBluetti/Nut/Publish.lean
  Subject:   WHAT THE NUT CLIENTS ARE TOLD (main.c): `publish_nut_from_bluetti`, and the tables it
             can find.

  * `publishNutFromBluetti` -- a unit's state becomes calls on the variable table, the status last;
  * `Reachable` -- the tables of a server that was started, under any publications, stale reports
    and settings;
  * **`Reachable.room`** -- no call of the firmware is ever dropped: its names are fewer than the
    slots;
  * `getVar_publish` -- so a variable reads as the calls of the publication left it.
-/
import NutBluetti.Nut.Vars
import NutBluetti.Ble.Poll

namespace NutBluetti.Nut

open CText
open Ble (BluettiState publishPower)

/-! ## 1. The publication -/

/-- The fields of `s_cfg` that are read here. -/
structure NutSettings where
  batteryWh : UInt16
  acRatingW : UInt16
  runtimeLowS : UInt16

/-- `cap_wh`: a user override wins, else the model's own figure. -/
def capWh (cfg : NutSettings) (st : BluettiState) : Nat :=
  if cfg.batteryWh.toNat > 0 then cfg.batteryWh.toNat else st.designCapacityWh

/-- `load_w`, in tenths: the measured output, or the full load where none is measured. -/
def loadTenths (cfg : NutSettings) (st : BluettiState) : Int :=
  if st.outputWatts ≥ 10 then st.outputWatts else 10 * (cfg.acRatingW.toNat : Int)

/-- `rt`: the runtime in seconds, -1 where none is known. -/
def batteryRuntime (cfg : NutSettings) (st : BluettiState) : Int :=
  if !st.acInputPresent && decide (st.minutesRemaining ≥ 0) then st.minutesRemaining * 60
  else if capWh cfg st > 0 ∧ st.socPct > 0 then
    let load := loadTenths cfg st
    if load ≥ 10 then
      -- `wh_left / load_w * 3600`, with the charge in percent and the load in tenths of a watt
      let secs := (capWh cfg st : Int) * st.socPct * 360
      if secs > 4000000 * load then 4000000 else secs / load
    else -1
  else -1

/-- Calls made under a condition. -/
def callsIf (b : Bool) (cs : List VarCall) : List VarCall := if b then cs else []

@[simp] theorem mem_callsIf {b : Bool} {cs : List VarCall} {c : VarCall} :
    c ∈ callsIf b cs ↔ b ∧ c ∈ cs := by
  unfold callsIf
  cases b <;> simp

def chargeCalls (st : BluettiState) : List VarCall :=
  callsIf (st.socPct ≥ 0) [nutServerSetVarInt "battery.charge" st.socPct] ++
    [nutServerSetVarInt "battery.charge.low" st.socLowPct]

def runtimeCall (cfg : NutSettings) (st : BluettiState) : VarCall :=
  if batteryRuntime cfg st ≥ 0 then nutServerSetVarInt "battery.runtime" (batteryRuntime cfg st)
  else .clear "battery.runtime"

def capacityCalls (cfg : NutSettings) (st : BluettiState) : List VarCall :=
  if st.designCapacityWh > 0 then [nutServerSetVarInt "battery.capacity" st.designCapacityWh]
  else callsIf (cfg.batteryWh.toNat > 0) [nutServerSetVarInt "battery.capacity" cfg.batteryWh.toNat]

/-- A reading that is published where it is known. -/
def readingCall (name : String) (tenths : Int) (decimals : Nat) : List VarCall :=
  callsIf (tenths ≥ 0) [nutServerSetVarFloat name tenths decimals]

def readingCalls (st : BluettiState) : List VarCall :=
  readingCall "ups.realpower" st.outputWatts 0 ++
  readingCall "input.realpower" st.inputWatts 0 ++
  readingCall "input.realpower.ac" st.acInWatts 0 ++
  readingCall "input.realpower.dc" st.dcInWatts 0 ++
  readingCall "output.realpower" st.acOutWatts 0 ++
  readingCall "output.realpower.dc" st.dcOutWatts 0 ++
  readingCall "input.voltage" st.acInVolts 1 ++
  readingCall "input.current" st.acInAmps 1 ++
  readingCall "output.voltage" st.acOutVolts 1

/-- One output bank as a NUT outlet. -/
def outletCalls (desc status realpower text : String) (switch watts : Int) : List VarCall :=
  callsIf (switch ≥ 0 || watts ≥ 0)
    ([.set desc text] ++ callsIf (switch ≥ 0) [.set status (if switch ≠ 0 then "on" else "off")] ++
      readingCall realpower watts 0)

def outletsCalls (st : BluettiState) : List VarCall :=
  outletCalls "outlet.1.desc" "outlet.1.status" "outlet.1.realpower" "AC" st.acSwitch
    st.acOutWatts ++
  outletCalls "outlet.2.desc" "outlet.2.status" "outlet.2.realpower" "DC" st.dcSwitch
    st.dcOutWatts ++
  callsIf (st.acSwitch ≥ 0 || st.dcSwitch ≥ 0 || st.acOutWatts ≥ 0 || st.dcOutWatts ≥ 0)
    [.set "outlet.count" "2"]

/-- `ups.load`, in percent of the configured rating. -/
def loadCalls (cfg : NutSettings) (st : BluettiState) : List VarCall :=
  let load := st.outputWatts * 10 / (cfg.acRatingW.toNat : Int)
  callsIf (st.outputWatts ≥ 0 && cfg.acRatingW.toNat > 0)
    [nutServerSetVarInt "ups.load" (if load > 100 then 100 else load)]

def identityCalls (st : BluettiState) : List VarCall :=
  callsIf (st.serial ≠ "") [.set "device.serial" st.serial, .set "ups.serial" st.serial] ++
    callsIf (st.model ≠ "") [.set "device.model" st.model, .set "ups.model" st.model]

/-- What comes after the runtime. No register gives a temperature, a pack voltage or a fault, so
    those variables are never set and the alarm is cleared. -/
def detailCalls (cfg : NutSettings) (st : BluettiState) : List VarCall :=
  capacityCalls cfg st ++ readingCalls st ++ outletsCalls st ++ loadCalls cfg st ++
    [.clear "ups.alarm"] ++ identityCalls st

def measurementCalls (cfg : NutSettings) (st : BluettiState) : List VarCall :=
  chargeCalls st ++ [runtimeCall cfg st] ++ detailCalls cfg st

def publishCalls (cfg : NutSettings) (st : BluettiState) : List VarCall :=
  callsIf st.valid (measurementCalls cfg st ++
    [nutServerSetStatus (publishPower cfg.runtimeLowS.toNat st).status])

/-- **`publish_nut_from_bluetti`**, on the table. -/
def publishNutFromBluetti (cfg : NutSettings) (st : BluettiState) : VarTable → VarTable :=
  runCalls (publishCalls cfg st)

/-! ## 2. The other writers -/

/-- The variables `nut_server_start` seeds. -/
def seedCalls (driverVersion : String) : List VarCall :=
  [.set "device.mfr" "BLUETTI", .set "device.model" "BLUETTI", .set "device.type" "ups",
   .set "driver.name" "esp32-nut-bluetti", .set "driver.version" driverVersion,
   .set "ups.mfr" "BLUETTI", .set "ups.model" "BLUETTI", .set "ups.status" "OFF",
   .set "battery.charge" "0"]

def nutServerStart (driverVersion : String) : VarTable :=
  runCalls (seedCalls driverVersion) (List.replicate nutMaxVars none)

/-- The settings that `start_services` publishes once. -/
def serviceCalls (cfg : NutSettings) : List VarCall :=
  callsIf (cfg.acRatingW.toNat > 0)
      [nutServerSetVarInt "ups.realpower.nominal" cfg.acRatingW.toNat] ++
    callsIf (cfg.runtimeLowS.toNat > 0)
      [nutServerSetVarInt "battery.runtime.low" cfg.runtimeLowS.toNat]

/-- A round of `staleness_task`. -/
def stalenessCalls (stale connected : Bool) : List VarCall :=
  if stale then
    [nutServerSetStatus (if connected then "OL WAIT" else "OFF"),
     .set "driver.state" (if connected then "connected-no-data" else "disconnected")]
  else [.set "driver.state" "updated"]

/-- The tables of a running server. -/
inductive Reachable : VarTable → Prop where
  | start (driverVersion : String) : Reachable (nutServerStart driverVersion)
  | services (cfg : NutSettings) {t : VarTable} (h : Reachable t) :
      Reachable (runCalls (serviceCalls cfg) t)
  | staleness (stale connected : Bool) {t : VarTable} (h : Reachable t) :
      Reachable (runCalls (stalenessCalls stale connected) t)
  | publish (cfg : NutSettings) (st : BluettiState) {t : VarTable} (h : Reachable t) :
      Reachable (publishNutFromBluetti cfg st t)
/-! ## 3. Names -/

def detailNames : List String :=
  ["battery.capacity", "ups.realpower", "input.realpower", "input.realpower.ac",
   "input.realpower.dc", "output.realpower", "output.realpower.dc", "input.voltage",
   "input.current", "output.voltage", "outlet.1.desc", "outlet.1.status", "outlet.1.realpower",
   "outlet.2.desc", "outlet.2.status", "outlet.2.realpower", "outlet.count", "ups.load",
   "ups.alarm", "device.serial", "ups.serial", "device.model", "ups.model"]

/-- Every name the firmware uses. -/
def varNames : List String :=
  ["battery.charge", "battery.charge.low", "battery.runtime", "ups.status", "device.mfr",
   "device.type", "driver.name", "driver.version", "driver.state", "ups.mfr",
   "ups.realpower.nominal", "battery.runtime.low"] ++ detailNames

/-- Calls on known names only. -/
def Names (ns : List String) (cs : List VarCall) : Prop := ∀ c ∈ cs, c.name ∈ ns

section Names

variable {ns : List String} {cs ds : List VarCall}

theorem names_nil : Names ns [] := nofun

theorem names_cons {c : VarCall} (hc : c.name ∈ ns) (h : Names ns cs) : Names ns (c :: cs) :=
  List.forall_mem_cons.mpr ⟨hc, h⟩

theorem names_set {n : String} (hn : n ∈ ns) (v : String) (h : Names ns cs) :
    Names ns (.set n v :: cs) := names_cons hn h

theorem names_append (h : Names ns cs) (h' : Names ns ds) : Names ns (cs ++ ds) := by
  intro c hc
  rcases List.mem_append.mp hc with hc | hc
  · exact h c hc
  · exact h' c hc

theorem names_callsIf {b : Bool} (h : Names ns cs) : Names ns (callsIf b cs) := by
  intro c hc
  exact h c (mem_callsIf.mp hc).2

theorem names_readingCall {n : String} (hn : n ∈ ns) (tenths : Int) (decimals : Nat) :
    Names ns (readingCall n tenths decimals) := names_callsIf (names_cons hn names_nil)

theorem names_outletCalls {d s r : String} (hd : d ∈ ns) (hs : s ∈ ns) (hr : r ∈ ns) (text : String)
    (switch watts : Int) : Names ns (outletCalls d s r text switch watts) := by
  refine names_callsIf (names_append (names_append ?_ ?_) (names_readingCall hr _ _))
  · exact names_cons hd names_nil
  · exact names_callsIf (names_cons hs names_nil)

end Names

theorem names_capacity (cfg : NutSettings) (st : BluettiState) :
    Names detailNames (capacityCalls cfg st) := by
  have hin : "battery.capacity" ∈ detailNames := by simp [detailNames]
  unfold capacityCalls
  split
  · exact names_cons hin names_nil
  · exact names_callsIf (names_cons hin names_nil)

theorem names_readings (st : BluettiState) : Names detailNames (readingCalls st) := by
  unfold readingCalls
  iterate 8 refine names_append ?_ (names_readingCall (by simp [detailNames]) _ _)
  exact names_readingCall (by simp [detailNames]) _ _

theorem names_outlets (st : BluettiState) : Names detailNames (outletsCalls st) := by
  refine names_append (names_append ?_ ?_) (names_callsIf (names_cons ?_ names_nil))
  · exact names_outletCalls (by simp [detailNames]) (by simp [detailNames]) (by simp [detailNames])
      _ _ _
  · exact names_outletCalls (by simp [detailNames]) (by simp [detailNames]) (by simp [detailNames])
      _ _ _
  · show "outlet.count" ∈ detailNames
    simp [detailNames]

theorem names_identity (st : BluettiState) : Names detailNames (identityCalls st) := by
  refine names_append (names_callsIf ?_) (names_callsIf ?_)
  · exact names_set (by simp [detailNames]) _ (names_set (by simp [detailNames]) _ names_nil)
  · exact names_set (by simp [detailNames]) _ (names_set (by simp [detailNames]) _ names_nil)

theorem names_detail (cfg : NutSettings) (st : BluettiState) :
    Names detailNames (detailCalls cfg st) := by
  have hload : "ups.load" ∈ detailNames := by simp [detailNames]
  have halarm : "ups.alarm" ∈ detailNames := by simp [detailNames]
  unfold detailCalls
  refine names_append (names_append (names_append (names_append (names_append ?_ ?_) ?_) ?_) ?_) ?_
  · exact names_capacity cfg st
  · exact names_readings st
  · exact names_outlets st
  · exact names_callsIf (names_cons hload names_nil)
  · exact names_cons halarm names_nil
  · exact names_identity st

theorem runtimeCall_name (cfg : NutSettings) (st : BluettiState) :
    (runtimeCall cfg st).name = "battery.runtime" := by
  unfold runtimeCall
  split <;> rfl

theorem names_publish (cfg : NutSettings) (st : BluettiState) :
    Names varNames (publishCalls cfg st) := by
  have hdetail : Names varNames (detailCalls cfg st) := fun c hc =>
    List.mem_append_right _ (names_detail cfg st c hc)
  have hcharge : Names varNames (chargeCalls st) := by
    refine names_append (names_callsIf ?_) ?_
    · exact names_set (by simp [varNames]) _ names_nil
    · exact names_set (by simp [varNames]) _ names_nil
  have hrt : (runtimeCall cfg st).name ∈ varNames := by
    rw [runtimeCall_name]
    simp [varNames]
  refine names_callsIf (names_append (names_append (names_append hcharge ?_) hdetail) ?_)
  · exact names_cons hrt names_nil
  · exact names_set (by simp [varNames]) _ names_nil

theorem names_seed (driverVersion : String) : Names varNames (seedCalls driverVersion) := by
  unfold seedCalls
  iterate 9 refine names_set (by simp [varNames, detailNames]) _ ?_
  exact names_nil

theorem names_service (cfg : NutSettings) : Names varNames (serviceCalls cfg) := by
  refine names_append (names_callsIf ?_) (names_callsIf ?_)
  · exact names_set (by simp [varNames]) _ names_nil
  · exact names_set (by simp [varNames]) _ names_nil

theorem names_staleness (stale connected : Bool) :
    Names varNames (stalenessCalls stale connected) := by
  unfold stalenessCalls
  split
  · exact names_set (by simp [varNames]) _ (names_set (by simp [varNames]) _ names_nil)
  · exact names_set (by simp [varNames]) _ names_nil

/-! ## 4. Nothing is dropped -/

theorem short_of_mem : ∀ n ∈ varNames, n.length < nutVarNameLen := by
  decide +kernel

theorem runCalls_slots {cs : List VarCall} (h : Names varNames cs) (t : VarTable) :
    runCalls cs t = Slots.runAll (cs.map VarCall.slotCall) t :=
  runCalls_eq (fun c hc => short_of_mem c.name (h c hc)) t

theorem slotCall_mem {cs : List VarCall} (h : Names varNames cs) :
    ∀ c ∈ cs.map VarCall.slotCall, c.key ∈ varNames := by
  intro c hc
  obtain ⟨d, hd, rfl⟩ := List.mem_map.mp hc
  rw [VarCall.slotCall_key]
  exact h d hd

theorem room_runCalls {cs : List VarCall} (h : Names varNames cs) {t : VarTable}
    (hr : Slots.Room varNames t) : Slots.Room varNames (runCalls cs t) := by
  rw [runCalls_slots h]
  exact hr.runAll (slotCall_mem h)

/-- **A table of the firmware has room for every name it uses.** -/
theorem Reachable.room {t : VarTable} (h : Reachable t) : Slots.Room varNames t := by
  induction h with
  | start driverVersion =>
      refine room_runCalls (names_seed driverVersion) ⟨?_, ?_, ?_⟩
      · rw [Slots.keys_replicate]
        exact List.nodup_nil
      · rw [Slots.keys_replicate]
        nofun
      · rw [List.length_replicate]
        decide
  | services cfg _ ih => exact room_runCalls (names_service cfg) ih
  | staleness stale connected _ ih => exact room_runCalls (names_staleness stale connected) ih
  | publish cfg st _ ih => exact room_runCalls (names_publish cfg st) ih

/-! ## 5. Reading back -/

section ReadBack

variable (cfg : NutSettings) {st : BluettiState} {t : VarTable}

/-- The map that a sequence of calls leaves. -/
def applyCalls (cs : List VarCall) (m : String → Option String) : String → Option String :=
  Slots.applyAll (cs.map VarCall.slotCall) m

theorem applyCalls_append (cs ds : List VarCall) (m : String → Option String) :
    applyCalls (cs ++ ds) m = applyCalls ds (applyCalls cs m) := by
  unfold applyCalls
  rw [List.map_append, Slots.applyAll_append]

theorem applyCalls_set (n v : String) (m : String → Option String) (k : String) :
    applyCalls [.set n v] m k = if k = n then some (fit nutVarValueLen v) else m k :=
  Function.update_apply m n _ k

theorem applyCalls_clear (n : String) (m : String → Option String) (k : String) :
    applyCalls [.clear n] m k = if k = n then none else m k :=
  Function.update_apply m n _ k

theorem applyCalls_other {ns : List String} {cs : List VarCall} (h : Names ns cs) {k : String}
    (hk : k ∉ ns) (m : String → Option String) : applyCalls cs m k = m k := by
  refine Slots.applyAll_other (fun c hc => ?_) m
  obtain ⟨d, hd, rfl⟩ := List.mem_map.mp hc
  rw [VarCall.slotCall_key]
  rintro rfl
  exact hk (h d hd)

theorem getVar_publish (hr : Reachable t) :
    nutServerGetVar (publishNutFromBluetti cfg st t) =
      applyCalls (publishCalls cfg st) (nutServerGetVar t) := by
  unfold publishNutFromBluetti
  rw [runCalls_slots (names_publish cfg st)]
  exact Slots.lookup_runAll hr.room (slotCall_mem (names_publish cfg st))

/-- A variable that neither the details nor the status touch. -/
theorem getVar_charge_runtime (hr : Reachable t) (hv : st.valid = true) {k : String}
    (hdetail : k ∉ detailNames) (hstatus : k ≠ "ups.status") :
    nutServerGetVar (publishNutFromBluetti cfg st t) k =
      applyCalls (chargeCalls st ++ [runtimeCall cfg st]) (nutServerGetVar t) k := by
  rw [getVar_publish cfg hr]
  unfold publishCalls measurementCalls nutServerSetStatus
  rw [hv, callsIf, if_pos rfl, applyCalls_append, applyCalls_set, if_neg hstatus,
    applyCalls_append, applyCalls_other (names_detail cfg st) hdetail]

theorem getVar_status (hr : Reachable t) (hv : st.valid = true) :
    nutServerGetVar (publishNutFromBluetti cfg st t) "ups.status" =
      some (fit nutVarValueLen (publishPower cfg.runtimeLowS.toNat st).status) := by
  rw [getVar_publish cfg hr]
  unfold publishCalls nutServerSetStatus
  rw [hv, callsIf, if_pos rfl, applyCalls_append, applyCalls_set, if_pos rfl]

theorem getVar_runtime (hr : Reachable t) (hv : st.valid = true) :
    nutServerGetVar (publishNutFromBluetti cfg st t) "battery.runtime" =
      if batteryRuntime cfg st ≥ 0 then
        some (fit nutVarValueLen (fit 24 (toString (batteryRuntime cfg st))))
      else none := by
  rw [getVar_charge_runtime cfg hr hv (by decide) (by decide), applyCalls_append]
  unfold runtimeCall nutServerSetVarInt
  split
  · rw [applyCalls_set, if_pos rfl]
  · rw [applyCalls_clear, if_pos rfl]

theorem getVar_runtimeless (hr : Reachable t) (hv : st.valid = true) {k : String}
    (hdetail : k ∉ detailNames) (hstatus : k ≠ "ups.status") (hrt : k ≠ "battery.runtime") :
    nutServerGetVar (publishNutFromBluetti cfg st t) k =
      applyCalls (chargeCalls st) (nutServerGetVar t) k := by
  have hnames : Names ["battery.runtime"] [runtimeCall cfg st] :=
    names_cons (by rw [runtimeCall_name]; exact List.mem_cons_self) names_nil
  rw [getVar_charge_runtime cfg hr hv hdetail hstatus, applyCalls_append,
    applyCalls_other hnames (by simpa using hrt)]

theorem getVar_chargeLow (hr : Reachable t) (hv : st.valid = true) :
    nutServerGetVar (publishNutFromBluetti cfg st t) "battery.charge.low" =
      some (fit nutVarValueLen (fit 24 (toString st.socLowPct))) := by
  rw [getVar_runtimeless cfg hr hv (by decide) (by decide) (by decide)]
  unfold chargeCalls nutServerSetVarInt
  rw [applyCalls_append, applyCalls_set, if_pos rfl]

/-- A charge that is known is the one published. -/
theorem getVar_charge (hr : Reachable t) (hv : st.valid = true) (hsoc : st.socPct ≥ 0) :
    nutServerGetVar (publishNutFromBluetti cfg st t) "battery.charge" =
      some (fit nutVarValueLen (fit 24 (toString st.socPct))) := by
  rw [getVar_runtimeless cfg hr hv (by decide) (by decide) (by decide)]
  unfold chargeCalls nutServerSetVarInt
  rw [applyCalls_append, applyCalls_set, if_neg (by decide), callsIf,
    if_pos (decide_eq_true hsoc), applyCalls_set, if_pos rfl]

end ReadBack

end NutBluetti.Nut
