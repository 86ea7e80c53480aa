/-
  File:      NutBluetti/Ble/Regs.lean
  Subject:   THE REGISTER MAP (bt_regs.c): models, polling plan, controls, and how the answer to one
             read lands in `bluetti_state_t`.

  A `float` of the source is held in tenths, as an `Int`: a reading is `v` or `v / 10`, and the rest
  is sums and differences of readings. The fields of `bluetti_state_t` that nothing but the initial
  `memset` writes are left out.
-/
import NutBluetti.Lib.CText

namespace NutBluetti.Ble

open CText

/-! ## 1. The state -/

/-- `BLUETTI_UNKNOWN_I`. -/
def bluettiUnknownI : Int := -1

/-- `BLUETTI_UNKNOWN_F`, in tenths. -/
def bluettiUnknownF : Int := -10000

/-- `bluetti_state_t`. -/
structure BluettiState where
  /-- At least one register has decoded. -/
  valid : Bool
  sweepDone : Bool
  updatedUs : Int
  socPct : Int
  socLowPct : Int
  acInputPresent : Bool
  charging : Bool
  minutesRemaining : Int
  inputWatts : Int
  outputWatts : Int
  acInWatts : Int
  acOutWatts : Int
  dcInWatts : Int
  dcOutWatts : Int
  batteryWatts : Int
  designCapacityWh : Nat
  acInVolts : Int
  acInAmps : Int
  acOutVolts : Int
  acSwitch : Int
  dcSwitch : Int
  ecoAc : Int
  ecoDc : Int
  ecoModeAc : Int
  ecoModeDc : Int
  chargingMode : Int
  powerLifting : Int
  displayTime : Int
  socMin : Int
  socMax : Int
  serial : String
  model : String

/-- `state_reset`: nothing read yet; the configured threshold stays. -/
def stateReset (socLowPct : Int) : BluettiState where
  valid := false
  sweepDone := false
  updatedUs := 0
  socPct := bluettiUnknownI
  socLowPct := socLowPct
  acInputPresent := false
  charging := false
  minutesRemaining := bluettiUnknownI
  inputWatts := bluettiUnknownF
  outputWatts := bluettiUnknownF
  acInWatts := bluettiUnknownF
  acOutWatts := bluettiUnknownF
  dcInWatts := bluettiUnknownF
  dcOutWatts := bluettiUnknownF
  batteryWatts := bluettiUnknownF
  designCapacityWh := 0
  acInVolts := bluettiUnknownF
  acInAmps := bluettiUnknownF
  acOutVolts := bluettiUnknownF
  acSwitch := bluettiUnknownI
  dcSwitch := bluettiUnknownI
  ecoAc := bluettiUnknownI
  ecoDc := bluettiUnknownI
  ecoModeAc := bluettiUnknownI
  ecoModeDc := bluettiUnknownI
  chargingMode := bluettiUnknownI
  powerLifting := bluettiUnknownI
  displayTime := bluettiUnknownI
  socMin := bluettiUnknownI
  socMax := bluettiUnknownI
  serial := ""
  model := ""

/-! ## 2. Registers and models -/

def regBatterySoc : UInt16 := 102
def regTimeRemaining : UInt16 := 104
def regDeviceType : UInt16 := 110
def regDeviceSn : UInt16 := 116
def regDcOutputPower : UInt16 := 140
def regAcOutputPower : UInt16 := 142
def regDcInputPower : UInt16 := 144
def regAcInputPower : UInt16 := 146
def regAcInputVoltage : UInt16 := 1314
def regAcInputCurrent : UInt16 := 1315
def regAcOutputVoltage : UInt16 := 1511
def regCtrlAc : UInt16 := 2011
def regCtrlDc : UInt16 := 2012
def regCtrlEcoDc : UInt16 := 2014
def regCtrlEcoModeDc : UInt16 := 2015
def regCtrlEcoAc : UInt16 := 2017
def regCtrlEcoModeAc : UInt16 := 2018
def regCtrlChargingMode : UInt16 := 2020
def regCtrlPowerLifting : UInt16 := 2021
def regCtrlSocMin : UInt16 := 2022
def regCtrlSocMax : UInt16 := 2023
def regCtrlDisplayTime : UInt16 := 2067

/-! The masks `BT_C_*` and `BT_F_*`. -/

def btCAcOut : UInt16 := 0x001
def btCDcOut : UInt16 := 0x002
def btCEcoAc : UInt16 := 0x004
def btCEcoDc : UInt16 := 0x008
def btCEcoModeAc : UInt16 := 0x010
def btCEcoModeDc : UInt16 := 0x020
def btCChargeMode : UInt16 := 0x040
def btCPowerLift : UInt16 := 0x080
def btCDisplay : UInt16 := 0x100
def btCSocMin : UInt16 := 0x200
def btCSocMax : UInt16 := 0x400
def btFSerial : UInt16 := 0x001
def btFRtMin : UInt16 := 0x002
def btFRt6Min : UInt16 := 0x004
def btFAcInV : UInt16 := 0x008
def btFAcInVRaw : UInt16 := 0x010
def btFAcInA : UInt16 := 0x020
def btFAcOutV : UInt16 := 0x040

/-- `bt_device_t`. -/
structure BtDevice where
  name : String
  fields : UInt16
  controls : UInt16
  wh : Nat
  deriving DecidableEq

/-- `mask & bit`. -/
def hasBit (mask bit : UInt16) : Bool := mask &&& bit != 0

def BtDevice.hasField (d : BtDevice) (bit : UInt16) : Bool := hasBit d.fields bit

def BtDevice.hasControl (d : BtDevice) (bit : UInt16) : Bool := hasBit d.controls bit

/-- `BT_DEVICE_GENERIC`. -/
def btDeviceGeneric : BtDevice := ⟨"unknown", btFSerial, 0, 0⟩

def cOut : UInt16 := btCAcOut ||| btCDcOut
def cFull : UInt16 :=
  cOut ||| btCEcoAc ||| btCEcoDc ||| btCEcoModeAc ||| btCEcoModeDc ||| btCChargeMode |||
    btCPowerLift
def fElite : UInt16 := btFSerial ||| btFRtMin ||| btFAcInV ||| btFAcInA ||| btFAcOutV

/-- `DEVICES`. -/
def devices : List BtDevice :=
  [⟨"EL100V2", fElite, cFull ||| btCDisplay ||| btCSocMin ||| btCSocMax, 1024⟩,
   ⟨"EL10", fElite, cFull ||| btCDisplay, 128⟩,
   ⟨"AC70", (fElite &&& ~~~btFRtMin) ||| btFRt6Min, cFull, 768⟩,
   ⟨"AC180", fElite &&& ~~~btFRtMin, cFull, 1152⟩,
   ⟨"EL30V2", btFSerial ||| btFRtMin ||| btFAcInV, cFull, 288⟩,
   ⟨"AC180P", btFSerial ||| btFAcInV, cOut ||| btCChargeMode ||| btCPowerLift, 1440⟩,
   ⟨"AC2P", btFSerial, cOut ||| btCPowerLift, 0⟩,
   ⟨"AC60", btFSerial ||| btFAcInV ||| btFAcInVRaw, cOut ||| btCPowerLift, 403⟩,
   ⟨"AC60P", btFSerial ||| btFAcInV ||| btFAcInVRaw, cOut ||| btCPowerLift, 0⟩,
   ⟨"Handsfree 2", (fElite &&& ~~~btFRtMin) ||| btFRt6Min, cOut, 960⟩]

/-- A model's name, and nothing but digits after it. -/
def nameMatches (name : List Char) (d : BtDevice) : Bool :=
  d.name.toList.isPrefixOf name && (name.drop d.name.length).all Char.isDigit

/-- `bt_device_lookup`. -/
def btDeviceLookup (name : String) : Option BtDevice :=
  if name.isEmpty then none else devices.find? (nameMatches name.toList)

/-! ## 3. Controls -/

/-- `bt_ctrl_kind_t`. -/
inductive BtCtrlKind where
  | bool
  | enum
  | range
  deriving DecidableEq

/-- `bt_control_t`; a null `allowed` is the empty text. -/
structure BtControl where
  field : String
  reg : UInt16
  bit : UInt16
  kind : BtCtrlKind
  allowed : String

/-- `BT_CONTROLS`. -/
def btControls : List BtControl :=
  [⟨"ac_output", regCtrlAc, btCAcOut, .bool, ""⟩,
   ⟨"dc_output", regCtrlDc, btCDcOut, .bool, ""⟩,
   ⟨"eco_ac", regCtrlEcoAc, btCEcoAc, .bool, ""⟩,
   ⟨"eco_dc", regCtrlEcoDc, btCEcoDc, .bool, ""⟩,
   ⟨"eco_mode_ac", regCtrlEcoModeAc, btCEcoModeAc, .enum, "1,2,3,4"⟩,
   ⟨"eco_mode_dc", regCtrlEcoModeDc, btCEcoModeDc, .enum, "1,2,3,4"⟩,
   ⟨"charging_mode", regCtrlChargingMode, btCChargeMode, .enum, "0,1,2,4"⟩,
   ⟨"power_lifting", regCtrlPowerLifting, btCPowerLift, .bool, ""⟩,
   ⟨"soc_min", regCtrlSocMin, btCSocMin, .range, "0,100"⟩,
   ⟨"soc_max", regCtrlSocMax, btCSocMax, .range, "0,100"⟩,
   ⟨"display_time", regCtrlDisplayTime, btCDisplay, .enum, "2,3,4,5"⟩]

/-- `parse_ints`. The tables hold digits and commas only, where it is a split at the commas. -/
def parseInts (s : String) (n : Nat) : List Nat :=
  (((s.toList.splitOn ',').filter fun t => !t.isEmpty).map fun t =>
    t.foldl (fun v c => v * 10 + (c.toNat - '0'.toNat)) 0).take n

/-- `bt_control_lookup`. -/
def btControlLookup (field : String) : Option BtControl :=
  btControls.find? fun c => field == c.field

/-- `bt_control_valid`. -/
def btControlValid (c : BtControl) (value : Int) : Bool :=
  match c.kind with
  | .bool => value == 0 || value == 1
  | .range =>
      match parseInts c.allowed 8 with
      | [lo, hi] => decide ((lo : Int) ≤ value) && decide (value ≤ hi)
      | _ => false
  | .enum => (parseInts c.allowed 8).any fun v => (v : Int) == value

/-- `bt_control_current`. -/
def btControlCurrent (c : BtControl) (st : BluettiState) : Int :=
  if c.reg = regCtrlAc then st.acSwitch
  else if c.reg = regCtrlDc then st.dcSwitch
  else if c.reg = regCtrlEcoAc then st.ecoAc
  else if c.reg = regCtrlEcoDc then st.ecoDc
  else if c.reg = regCtrlEcoModeAc then st.ecoModeAc
  else if c.reg = regCtrlEcoModeDc then st.ecoModeDc
  else if c.reg = regCtrlChargingMode then st.chargingMode
  else if c.reg = regCtrlPowerLifting then st.powerLifting
  else if c.reg = regCtrlSocMin then st.socMin
  else if c.reg = regCtrlSocMax then st.socMax
  else if c.reg = regCtrlDisplayTime then st.displayTime
  else -1

/-! ## 4. The polling plan -/

/-- `bt_reg_read_t`: one Modbus read. -/
structure BtRegRead where
  addr : UInt16
  words : UInt8
  deriving DecidableEq

def btRegPlanMax : Nat := 28

/-- The fields every unit has, the most important first. -/
def planCommon : List BtRegRead :=
  [⟨regBatterySoc, 1⟩, ⟨regAcInputPower, 1⟩, ⟨regAcOutputPower, 1⟩, ⟨regDcInputPower, 1⟩,
   ⟨regDcOutputPower, 1⟩, ⟨regDeviceType, 6⟩]

/-- The optional readings, each with the bits that announce it. -/
def planOptional : List (UInt16 × BtRegRead) :=
  [(btFRtMin ||| btFRt6Min, ⟨regTimeRemaining, 1⟩), (btFAcInV, ⟨regAcInputVoltage, 1⟩),
   (btFAcInA, ⟨regAcInputCurrent, 1⟩), (btFAcOutV, ⟨regAcOutputVoltage, 1⟩),
   (btFSerial, ⟨regDeviceSn, 4⟩)]

/-- The charge range, polled whatever the controls toggle says. -/
def planSocRange (dev : BtDevice) : List BtRegRead :=
  (if dev.hasControl btCSocMin then [⟨regCtrlSocMin, 1⟩] else []) ++
    (if dev.hasControl btCSocMax then [⟨regCtrlSocMax, 1⟩] else [])

/-- The other control registers. -/
def planControls (dev : BtDevice) : List BtRegRead :=
  (btControls.filter fun c => c.bit != btCSocMin && c.bit != btCSocMax && dev.hasControl c.bit).map
    fun c => ⟨c.reg, 1⟩

/-- `bt_regs_plan`: every push is made only while there is room, so the plan is cut at `max`. -/
def btRegsPlan (dev : BtDevice) (withControls : Bool) (max : Nat) : List BtRegRead :=
  (planCommon ++ ((planOptional.filter fun o => dev.hasField o.1).map Prod.snd) ++
    planSocRange dev ++ (if withControls then planControls dev else [])).take max

/-! ## 5. Decoding -/

/-- `reg`: one register out of a response that starts at `start`. -/
def reg (start : UInt16) (data : List UInt8) (addr : UInt16) : Option Nat :=
  if addr < start then none
  else
    let idx := (addr.toNat - start.toNat) * 2
    if idx + 1 ≥ data.length then none
    else some ((data.getD idx 0).toNat * 256 + (data.getD (idx + 1) 0).toNat)

/-- The characters of one word, low byte first; a zero byte is no character. -/
def wordChars (v : Nat) : List Char :=
  ([v % 256, v / 256 % 256].filter (· ≠ 0)).map Char.ofNat

/-- The loop of `swap_string`, from the word at `addr` on. -/
def swapChars (r : UInt16 → Option Nat) (outSz : Nat) : Nat → UInt16 → List Char → List Char
  | 0, _, out => out
  | words + 1, addr, out =>
      if out.length + 2 < outSz then
        match r addr with
        | none => out
        | some v => swapChars r outSz words (addr + 1) (out ++ wordChars v)
      else out

/-- `swap_string`: trailing blanks go. -/
def swapString (r : UInt16 → Option Nat) (addr : UInt16) (words outSz : Nat) : String :=
  String.ofList ((swapChars r outSz words addr []).reverse.dropWhile (· = ' ')).reverse

/-- An unknown power counts as none in a sum. -/
def knownWatts (w : Int) : Int := if w ≥ 0 then w else 0

def sumOutputs (st : BluettiState) : BluettiState :=
  if st.acOutWatts ≥ 0 ∨ st.dcOutWatts ≥ 0 then
    { st with outputWatts := knownWatts st.acOutWatts + knownWatts st.dcOutWatts }
  else st

def sumInputs (st : BluettiState) : BluettiState :=
  if st.acInWatts ≥ 0 ∨ st.dcInWatts ≥ 0 then
    { st with inputWatts := knownWatts st.acInWatts + knownWatts st.dcInWatts }
  else st

/-- There is no register for the mains: it shows in the input power, or in the line voltage. -/
def inferMains (st : BluettiState) : BluettiState :=
  { st with acInputPresent := decide (st.acInWatts > 0) || decide (st.acInVolts > 0) }

/-- Both sums are there. -/
def BluettiState.flowKnown (st : BluettiState) : Bool :=
  decide (st.inputWatts ≥ 0) && decide (st.outputWatts ≥ 0)

def netFlow (st : BluettiState) : BluettiState :=
  if st.flowKnown then { st with batteryWatts := st.outputWatts - st.inputWatts } else st

/-- The pack is gaining energy, from any source. -/
def inferCharging (st : BluettiState) : BluettiState :=
  let anyInput := st.acInputPresent || decide (st.dcInWatts > 0)
  let roomToCharge := decide (st.socPct ≥ 0) && decide (st.socPct < 100)
  { st with
    charging := (if st.flowKnown then decide (st.batteryWatts < 0) else anyInput) && roomToCharge }

/-- `recompute`: what is derived from the raw fields. -/
def recompute (st : BluettiState) : BluettiState :=
  inferCharging (netFlow (inferMains (sumInputs (sumOutputs st))))

/-- One `if` of `bt_regs_apply`: the new state where the field is there and its value is taken. -/
abbrev Decoder := BtDevice → (UInt16 → Option Nat) → BluettiState → Option BluettiState

/-- A field of one register. -/
def oneReg (has : BtDevice → Bool) (addr : UInt16) (accept : Nat → Bool)
    (set : BtDevice → Nat → BluettiState → BluettiState) : Decoder := fun dev r st =>
  if has dev then
    match r addr with
    | some v => if accept v then some (set dev v st) else none
    | none => none
  else none

/-- A reading every unit has. -/
def common (addr : UInt16) (set : Nat → BluettiState → BluettiState) : Decoder :=
  oneReg (fun _ => true) addr (fun _ => true) fun _ => set

/-- A reading that comes with bits of `fields`. -/
def optional (bits addr : UInt16) (set : BtDevice → Nat → BluettiState → BluettiState) : Decoder :=
  oneReg (·.hasField bits) addr (fun _ => true) set

/-- A control that comes with a bit of `controls`; any value not accepted means that the register is
    not really there. -/
def control (bit addr : UInt16) (accept : Nat → Bool) (set : Int → BluettiState → BluettiState) :
    Decoder :=
  oneReg (·.hasControl bit) addr accept fun _ v => set v

/-- The serial number: four words, the least significant first. -/
def decodeSerial : Decoder := fun dev r st =>
  if dev.hasField btFSerial then
    match r regDeviceSn, r (regDeviceSn + 1), r (regDeviceSn + 2), r (regDeviceSn + 3) with
    | some w0, some w1, some w2, some w3 =>
        let sn := ((w3 * 65536 + w2) * 65536 + w1) * 65536 + w0
        if sn = 0 then none else some { st with serial := fit 24 (toString sn) }
    | _, _, _, _ => none
  else none

def isSwitch (v : Nat) : Bool := v == 0 || v == 1

/-- The fields in the order of `bt_regs_apply`. -/
def decoders : List Decoder :=
  [oneReg (fun _ => true) regBatterySoc (fun v => decide (v ≤ 100))
     (fun _ v st => { st with socPct := v }),
   fun _ r st => (r regDeviceType).map fun _ =>
     { st with model := swapString r regDeviceType 6 24 },
   common regDcOutputPower (fun v st => { st with dcOutWatts := 10 * (v : Int) }),
   common regAcOutputPower (fun v st => { st with acOutWatts := 10 * (v : Int) }),
   common regDcInputPower (fun v st => { st with dcInWatts := 10 * (v : Int) }),
   common regAcInputPower (fun v st => { st with acInWatts := 10 * (v : Int) }),
   -- zero is "full" and "no estimate" alike
   optional (btFRtMin ||| btFRt6Min) regTimeRemaining (fun dev v st =>
     let mins := if dev.hasField btFRt6Min then v * 6 else v
     { st with minutesRemaining := if mins > 0 then (mins : Int) else bluettiUnknownI }),
   decodeSerial,
   optional btFAcInV regAcInputVoltage (fun dev v st =>
     { st with acInVolts := if dev.hasField btFAcInVRaw then 10 * (v : Int) else v }),
   optional btFAcInA regAcInputCurrent (fun _ v st => { st with acInAmps := v }),
   optional btFAcOutV regAcOutputVoltage (fun _ v st => { st with acOutVolts := v }),
   control btCAcOut regCtrlAc isSwitch (fun v st => { st with acSwitch := v }),
   control btCDcOut regCtrlDc isSwitch (fun v st => { st with dcSwitch := v }),
   control btCEcoAc regCtrlEcoAc isSwitch (fun v st => { st with ecoAc := v }),
   control btCEcoDc regCtrlEcoDc isSwitch (fun v st => { st with ecoDc := v }),
   control btCPowerLift regCtrlPowerLifting isSwitch (fun v st => { st with powerLifting := v }),
   control btCEcoModeAc regCtrlEcoModeAc (fun v => decide (1 ≤ v) && decide (v ≤ 4))
     (fun v st => { st with ecoModeAc := v }),
   control btCEcoModeDc regCtrlEcoModeDc (fun v => decide (1 ≤ v) && decide (v ≤ 4))
     (fun v st => { st with ecoModeDc := v }),
   control btCChargeMode regCtrlChargingMode (fun v => [0, 1, 2, 4].contains v)
     (fun v st => { st with chargingMode := v }),
   control btCDisplay regCtrlDisplayTime (fun v => decide (2 ≤ v) && decide (v ≤ 5))
     (fun v st => { st with displayTime := v }),
   control btCSocMin regCtrlSocMin (fun v => decide (v ≤ 100))
     (fun v st => { st with socMin := v }),
   control btCSocMax regCtrlSocMax (fun v => decide (v ≤ 100))
     (fun v st => { st with socMax := v })]

/-- One decoder after another, with the count of those that matched. -/
def decode (dev : BtDevice) (r : UInt16 → Option Nat) (acc : Nat × BluettiState) (d : Decoder) :
    Nat × BluettiState :=
  match d dev r acc.2 with
  | some st => (acc.1 + 1, st)
  | none => acc

/-- The nominal capacity, seeded where none is known. -/
def seedCapacity (dev : BtDevice) (st : BluettiState) : BluettiState :=
  if dev.wh > 0 ∧ st.designCapacityWh = 0 then { st with designCapacityWh := dev.wh } else st

/-- **`bt_regs_apply`**: the number of fields recognised, and the new state. -/
def btRegsApply (dev : Option BtDevice) (startAddr : UInt16) (data : List UInt8) (nowUs : Int)
    (st : BluettiState) : Nat × BluettiState :=
  let dev := dev.getD btDeviceGeneric
  let (matched, st) := decoders.foldl (decode dev (reg startAddr data)) (0, seedCapacity dev st)
  if matched > 0 then (matched, { recompute st with valid := true, updatedUs := nowUs })
  else (matched, st)

end NutBluetti.Ble
