/-
  File:      NutBluetti/Ble/RegsSpec.lean
  Subject:   WHAT A PLAN HOLDS AND WHAT AN ANSWER MAKES KNOWN.

  * `acInputPower_mem_plan`, `hasField_of_voltage_mem` -- the mains registers in a plan;
  * `Settles f d` -- a decoder leaves the reading `f` alone, or sets it to a known value;
  * **`regsApply_keeps`**, **`regsApply_known`** -- a reading once known stays known, and the answer
    to its register makes it known.
-/
import NutBluetti.Ble.Regs

namespace NutBluetti.Ble

/-! ## 1. Plans -/

/-- The two registers the mains is inferred from. -/
def acInputPowerRead : BtRegRead := ⟨regAcInputPower, 1⟩
def acInputVoltageRead : BtRegRead := ⟨regAcInputVoltage, 1⟩

/-- Every plan reads the power drawn from the mains. -/
theorem acInputPower_mem_plan (dev : BtDevice) (withControls : Bool) :
    acInputPowerRead ∈ btRegsPlan dev withControls btRegPlanMax := by
  have hhead : (planCommon ++ ((planOptional.filter fun o => dev.hasField o.1).map Prod.snd) ++
      planSocRange dev ++ (if withControls then planControls dev else [])) =
        planCommon ++ (((planOptional.filter fun o => dev.hasField o.1).map Prod.snd) ++
          planSocRange dev ++ (if withControls then planControls dev else [])) := by
    simp
  rw [btRegsPlan, hhead, List.take_append]
  refine List.mem_append_left _ ?_
  decide

/-- A plan reads the mains voltage only on a model that has the register. -/
theorem hasField_of_voltage_mem {dev : BtDevice} {withControls : Bool}
    (h : acInputVoltageRead ∈ btRegsPlan dev withControls btRegPlanMax) :
    dev.hasField btFAcInV = true := by
  have hmem := List.mem_of_mem_take h
  simp only [List.mem_append] at hmem
  rcases hmem with ((hmem | hmem) | hmem) | hmem
  · exact absurd hmem (by decide)
  · obtain ⟨o, ho, heq⟩ := List.mem_map.mp hmem
    obtain ⟨ho, hbit⟩ := List.mem_filter.mp ho
    simp only [planOptional, List.mem_cons, List.not_mem_nil, or_false] at ho
    rcases ho with rfl | rfl | rfl | rfl | rfl
    · exact absurd heq (by decide)
    · exact hbit
    · exact absurd heq (by decide)
    · exact absurd heq (by decide)
    · exact absurd heq (by decide)
  · unfold planSocRange at hmem
    rcases List.mem_append.mp hmem with hmem | hmem
    · split at hmem
      · exact absurd hmem (by decide)
      · cases hmem
    · split at hmem
      · exact absurd hmem (by decide)
      · cases hmem
  · split at hmem
    · obtain ⟨c, hc, heq⟩ := List.mem_map.mp hmem
      have hno : ∀ c ∈ btControls, (⟨c.reg, 1⟩ : BtRegRead) ≠ acInputVoltageRead := by decide
      exact absurd heq (hno c (List.mem_filter.mp hc).1)
    · cases hmem

/-! ## 2. Decoding -/

/-- The decoder leaves the reading alone, or sets it to a known value. -/
def Settles (f : BluettiState → Int) (d : Decoder) : Prop :=
  ∀ dev r st st', d dev r st = some st' → f st' = f st ∨ 0 ≤ f st'

theorem settles_oneReg {f : BluettiState → Int} {has : BtDevice → Bool} {addr : UInt16}
    {accept : Nat → Bool} {set : BtDevice → Nat → BluettiState → BluettiState}
    (h : ∀ dev v st, f (set dev v st) = f st ∨ 0 ≤ f (set dev v st)) :
    Settles f (oneReg has addr accept set) := by
  intro dev r st st' hd
  unfold oneReg at hd
  split at hd
  · split at hd
    · split at hd
      · exact Option.some.inj hd ▸ h dev _ st
      · cases hd
    · cases hd
  · cases hd

theorem settles_decodeSerial {f : BluettiState → Int}
    (h : ∀ st serial, f { st with serial := serial } = f st) : Settles f decodeSerial := by
  intro dev r st st' hd
  unfold decodeSerial at hd
  split at hd
  · split at hd
    · simp only at hd
      split at hd
      · cases hd
      · exact Option.some.inj hd ▸ .inl (h st _)
    · cases hd
  · cases hd

theorem settles_model {f : BluettiState → Int}
    (h : ∀ st model, f { st with model := model } = f st) :
    Settles f fun _ r st => (r regDeviceType).map fun _ =>
      { st with model := swapString r regDeviceType 6 24 } := by
  intro dev r st st' hd
  obtain ⟨v, -, rfl⟩ := Option.map_eq_some_iff.mp hd
  exact .inl (h st _)

/-- No field but its own register writes the power drawn from the mains. -/
theorem settles_acInWatts : ∀ d ∈ decoders, Settles BluettiState.acInWatts d := by
  have hother : ∀ {has addr accept} {set : BtDevice → Nat → BluettiState → BluettiState},
      (∀ dev v st, (set dev v st).acInWatts = st.acInWatts) →
        Settles BluettiState.acInWatts (oneReg has addr accept set) :=
    fun h => settles_oneReg fun dev v st => .inl (h dev v st)
  simp only [decoders, List.forall_mem_cons]
  and_intros
  all_goals first
    | exact hother fun _ _ _ => rfl
    | exact settles_model fun _ _ => rfl
    | exact settles_decodeSerial fun _ _ => rfl
    | exact List.forall_mem_nil _
    | skip
  refine settles_oneReg fun _ v _ => .inr ?_
  show (0 : Int) ≤ 10 * (v : Int)
  omega

/-- No field but its own register writes the mains voltage. -/
theorem settles_acInVolts : ∀ d ∈ decoders, Settles BluettiState.acInVolts d := by
  have hother : ∀ {has addr accept} {set : BtDevice → Nat → BluettiState → BluettiState},
      (∀ dev v st, (set dev v st).acInVolts = st.acInVolts) →
        Settles BluettiState.acInVolts (oneReg has addr accept set) :=
    fun h => settles_oneReg fun dev v st => .inl (h dev v st)
  simp only [decoders, List.forall_mem_cons]
  and_intros
  all_goals first
    | exact hother fun _ _ _ => rfl
    | exact settles_model fun _ _ => rfl
    | exact settles_decodeSerial fun _ _ => rfl
    | exact List.forall_mem_nil _
    | skip
  refine settles_oneReg fun dev v _ => .inr ?_
  show (0 : Int) ≤ if dev.hasField btFAcInVRaw = true then 10 * (v : Int) else v
  split <;> omega

section Apply

variable {f : BluettiState → Int} {dev : BtDevice} {r : UInt16 → Option Nat} {l : List Decoder}

/-- A reading that is known stays known, whatever is decoded. -/
theorem foldl_decode_keeps (hl : ∀ d ∈ l, Settles f d) (acc : Nat × BluettiState)
    (h : 0 ≤ f acc.2) : 0 ≤ f (l.foldl (decode dev r) acc).2 := by
  induction l generalizing acc with
  | nil => exact h
  | cons d l ih =>
      obtain ⟨hd, hl'⟩ := List.forall_mem_cons.mp hl
      refine ih hl' _ ?_
      unfold decode
      split
      · rename_i st hst
        rcases hd dev r acc.2 st hst with heq | hknown
        · exact heq ▸ h
        · exact hknown
      · exact h

/-- A reading that one of the decoders sets is known afterwards. -/
theorem foldl_decode_known (hl : ∀ d ∈ l, Settles f d) {d : Decoder} (hd : d ∈ l)
    (hset : ∀ st, ∃ st', d dev r st = some st' ∧ 0 ≤ f st') (acc : Nat × BluettiState) :
    0 ≤ f (l.foldl (decode dev r) acc).2 := by
  obtain ⟨pre, post, rfl⟩ := List.append_of_mem hd
  rw [List.foldl_append, List.foldl_cons]
  refine foldl_decode_keeps (fun d' hd' => hl d' (by simp [hd'])) _ ?_
  generalize pre.foldl (decode dev r) acc = acc'
  obtain ⟨st', hst', hknown⟩ := hset acc'.2
  unfold decode
  rw [hst']
  exact hknown

/-- The reading is none of the fields that are derived, seeded or stamped. -/
structure Raw (f : BluettiState → Int) : Prop where
  capacity : ∀ st wh, f { st with designCapacityWh := wh } = f st
  output : ∀ st w, f { st with outputWatts := w } = f st
  input : ∀ st w, f { st with inputWatts := w } = f st
  mains : ∀ st p, f { st with acInputPresent := p } = f st
  battery : ∀ st w, f { st with batteryWatts := w } = f st
  charging : ∀ st c, f { st with charging := c } = f st
  stamp : ∀ st now, f { st with valid := true, updatedUs := now } = f st

theorem raw_acInWatts : Raw BluettiState.acInWatts :=
  ⟨fun _ _ => rfl, fun _ _ => rfl, fun _ _ => rfl, fun _ _ => rfl, fun _ _ => rfl, fun _ _ => rfl,
    fun _ _ => rfl⟩

theorem raw_acInVolts : Raw BluettiState.acInVolts :=
  ⟨fun _ _ => rfl, fun _ _ => rfl, fun _ _ => rfl, fun _ _ => rfl, fun _ _ => rfl, fun _ _ => rfl,
    fun _ _ => rfl⟩

theorem Raw.seedCapacity (h : Raw f) (dev : BtDevice) (st : BluettiState) :
    f (seedCapacity dev st) = f st := by
  unfold Ble.seedCapacity
  split
  · exact h.capacity st _
  · rfl

theorem Raw.recompute (h : Raw f) (st : BluettiState) : f (recompute st) = f st := by
  have hout : ∀ st, f (sumOutputs st) = f st := by
    intro st
    unfold sumOutputs
    split
    · exact h.output st _
    · rfl
  have hin : ∀ st, f (sumInputs st) = f st := by
    intro st
    unfold sumInputs
    split
    · exact h.input st _
    · rfl
  have hflow : ∀ st, f (netFlow st) = f st := by
    intro st
    unfold netFlow
    split
    · exact h.battery st _
    · rfl
  calc f (Ble.recompute st)
      = f (netFlow (inferMains (sumInputs (sumOutputs st)))) := h.charging _ _
    _ = f (inferMains (sumInputs (sumOutputs st))) := hflow _
    _ = f (sumInputs (sumOutputs st)) := h.mains _ _
    _ = f st := (hin _).trans (hout st)

theorem regsApply_eq (hraw : Raw f) (dev : Option BtDevice) (start : UInt16) (data : List UInt8)
    (now : Int) (st : BluettiState) :
    f (btRegsApply dev start data now st).2 =
      f (decoders.foldl (decode (dev.getD btDeviceGeneric) (reg start data))
        (0, seedCapacity (dev.getD btDeviceGeneric) st)).2 := by
  unfold btRegsApply
  simp only
  split
  · exact (hraw.stamp _ now).trans (hraw.recompute _)
  · rfl

/-- **A known reading stays known.** -/
theorem regsApply_keeps (hraw : Raw f) (hl : ∀ d ∈ decoders, Settles f d) (dev : Option BtDevice)
    (start : UInt16) (data : List UInt8) (now : Int) {st : BluettiState} (h : 0 ≤ f st) :
    0 ≤ f (btRegsApply dev start data now st).2 := by
  rw [regsApply_eq hraw]
  refine foldl_decode_keeps hl _ ?_
  rw [hraw.seedCapacity]
  exact h

/-- **The answer to its register makes a reading known.** -/
theorem regsApply_known (hraw : Raw f) (hl : ∀ d ∈ decoders, Settles f d) {dev : Option BtDevice}
    {start : UInt16} {data : List UInt8} {d : Decoder} (hd : d ∈ decoders)
    (hset : ∀ st, ∃ st', d (dev.getD btDeviceGeneric) (reg start data) st = some st' ∧ 0 ≤ f st')
    (now : Int) (st : BluettiState) : 0 ≤ f (btRegsApply dev start data now st).2 := by
  rw [regsApply_eq hraw]
  exact foldl_decode_known hl hd hset _

end Apply

/-- A whole word under its own address is a register. -/
theorem reg_self (addr : UInt16) {data : List UInt8} (h : data.length = 2) :
    ∃ v, reg addr data addr = some v := by
  refine ⟨(data.getD 0 0).toNat * 256 + (data.getD 1 0).toNat, ?_⟩
  unfold reg
  have hlt : ¬ addr < addr := by simp
  rw [if_neg hlt]
  simp [h]

theorem acInWatts_known {dev : Option BtDevice} {data : List UInt8} (h : data.length = 2)
    (now : Int)
    (st : BluettiState) : 0 ≤ (btRegsApply dev regAcInputPower data now st).2.acInWatts := by
  obtain ⟨v, hv⟩ := reg_self regAcInputPower h
  refine regsApply_known raw_acInWatts settles_acInWatts
    (d := common regAcInputPower fun v st => { st with acInWatts := 10 * (v : Int) })
    (by simp [decoders]) (fun st => ⟨{ st with acInWatts := 10 * (v : Int) }, ?_, ?_⟩) now st
  · simp [common, oneReg, hv]
  · show (0 : Int) ≤ 10 * (v : Int)
    omega

theorem acInVolts_known {dev : BtDevice} (hbit : dev.hasField btFAcInV = true) {data : List UInt8}
    (h : data.length = 2) (now : Int) (st : BluettiState) :
    0 ≤ (btRegsApply (some dev) regAcInputVoltage data now st).2.acInVolts := by
  obtain ⟨v, hv⟩ := reg_self regAcInputVoltage h
  refine regsApply_known raw_acInVolts settles_acInVolts
    (d := optional btFAcInV regAcInputVoltage fun dev v st =>
      { st with acInVolts := if dev.hasField btFAcInVRaw then 10 * (v : Int) else v })
    (by simp [decoders]) (fun st => ⟨{ st with
      acInVolts := if dev.hasField btFAcInVRaw then 10 * (v : Int) else v }, ?_, ?_⟩) now st
  · simp [optional, oneReg, hv, hbit]
  · show (0 : Int) ≤ if dev.hasField btFAcInVRaw = true then 10 * (v : Int) else v
    split <;> omega

end NutBluetti.Ble
