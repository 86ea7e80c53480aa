/-
  File:      NutBluetti/Ble/RegsOrder.lean
  Subject:   REGISTERS READ IN ANY ORDER. `bt_regs_apply` takes one answer after another into the
             state and derives, after each, what can be derived from what was read so far.

  * `RegAnswer`, `applyAnswers` -- reads of registers that have values, and their answers in turn;
  * `RegAnswer.Whole` -- the fields of several words are read as a whole;
  * `RawSet` -- an update of a field that is read: nothing derived is touched, and no power gets
    unknown;
  * **`recompute_absorbs`** -- what is derived after such an update does not depend on whether it
    was derived before;
  * **`answers_anyOrder`** -- lists of reads that cover the same registers end in the same state,
    but for the time.
-/
import Mathlib.Data.List.GetD
import NutBluetti.Lib.Confluence
import NutBluetti.Ble.RegsSpec

namespace NutBluetti.Ble

open Confluence

/-! ## 1. Answers -/

/-- A read of registers, and when its answer is applied. -/
structure RegAnswer where
  start : UInt16
  words : Nat
  nowUs : Int

def RegAnswer.covers (q : RegAnswer) (addr : UInt16) : Bool :=
  decide (q.start ≤ addr) && decide (addr.toNat - q.start.toNat < q.words)

/-- A register on the wire. -/
def wordBytes (v : UInt16) : List UInt8 := [(v >>> 8).toUInt8, v.toUInt8]

/-- The answer, where the registers have the values `a`. -/
def RegAnswer.data (a : UInt16 → UInt16) (q : RegAnswer) : List UInt8 :=
  (List.range q.words).flatMap fun i => wordBytes (a (q.start + UInt16.ofNat i))

/-- Model name and serial number are wholly inside the read or wholly outside it. -/
def RegAnswer.Whole (q : RegAnswer) : Prop :=
  (∀ i < 6, q.covers (regDeviceType + UInt16.ofNat i) = q.covers regDeviceType) ∧
    ∀ i < 4, q.covers (regDeviceSn + UInt16.ofNat i) = q.covers regDeviceSn

instance (q : RegAnswer) : Decidable q.Whole := inferInstanceAs (Decidable (_ ∧ _))

def applyAnswer (dev : Option BtDevice) (a : UInt16 → UInt16) (st : BluettiState) (q : RegAnswer) :
    BluettiState :=
  (btRegsApply dev q.start (q.data a) q.nowUs st).2

def applyAnswers (dev : Option BtDevice) (a : UInt16 → UInt16) (st : BluettiState)
    (qs : List RegAnswer) : BluettiState :=
  qs.foldl (applyAnswer dev a) st

theorem length_pairs (hi lo : Nat → UInt8) (n : Nat) :
    ((List.range n).flatMap fun i => [hi i, lo i]).length = 2 * n := by
  induction n with
  | zero => rfl
  | succ n ih =>
      rw [List.range_succ, List.flatMap_append, List.length_append, ih]
      show 2 * n + 2 = 2 * (n + 1)
      omega

/-- The two bytes of a word in a row of words. -/
theorem getD_pairs (hi lo : Nat → UInt8) {n i : Nat} (h : i < n) :
    ((List.range n).flatMap fun i => [hi i, lo i]).getD (i * 2) 0 = hi i ∧
      ((List.range n).flatMap fun i => [hi i, lo i]).getD (i * 2 + 1) 0 = lo i := by
  induction n with
  | zero => omega
  | succ n ih =>
      have hlen := length_pairs hi lo n
      rw [List.range_succ, List.flatMap_append]
      rcases Nat.lt_succ_iff_lt_or_eq.mp h with hlt | rfl
      · rw [List.getD_append _ _ _ _ (by omega), List.getD_append _ _ _ _ (by omega)]
        exact ih hlt
      · rw [List.getD_append_right _ _ _ _ (by omega), List.getD_append_right _ _ _ _ (by omega),
          hlen, Nat.mul_comm i 2, Nat.sub_self, Nat.add_sub_cancel_left]
        exact ⟨rfl, rfl⟩

theorem toNat_word (v : UInt16) : (v >>> 8).toUInt8.toNat * 256 + v.toUInt8.toNat = v.toNat := by
  have h := v.toNat_lt
  simp only [UInt16.toNat_toUInt8, UInt16.toNat_shiftRight]
  rw [show UInt16.toNat 8 % 16 = 8 from rfl, Nat.shiftRight_eq_div_pow]
  omega

/-- All registers, as a reader of single words. -/
def full (a : UInt16 → UInt16) (addr : UInt16) : Option Nat := some (a addr).toNat

/-- **A register of an answer** has its value exactly where the read covers it. -/
theorem reg_data (a : UInt16 → UInt16) (q : RegAnswer) (addr : UInt16) :
    reg q.start (q.data a) addr = if q.covers addr then full a addr else none := by
  have hlen : (q.data a).length = 2 * q.words := length_pairs _ _ _
  unfold reg RegAnswer.covers
  by_cases hlt : addr < q.start
  · have hnot : ¬ q.start ≤ addr := UInt16.not_le.mpr hlt
    rw [if_pos hlt, decide_eq_false hnot]
    rfl
  rw [if_neg hlt, decide_eq_true (UInt16.not_lt.mp hlt), Bool.true_and, hlen]
  by_cases hin : addr.toNat - q.start.toNat < q.words
  · obtain ⟨hhi, hlo⟩ := getD_pairs (fun i => (a (q.start + UInt16.ofNat i) >>> 8).toUInt8)
      (fun i => (a (q.start + UInt16.ofNat i)).toUInt8) hin
    have haddr : q.start + UInt16.ofNat (addr.toNat - q.start.toNat) = addr := by
      have hle := UInt16.le_iff_toNat_le.mp (UInt16.not_lt.mp hlt)
      apply UInt16.toNat_inj.mp
      rw [UInt16.toNat_add, UInt16.toNat_ofNat']
      have := addr.toNat_lt
      omega
    rw [haddr] at hhi hlo
    rw [if_neg (by omega), if_pos (decide_eq_true hin)]
    show some (((q.data a).getD _ 0).toNat * 256 + ((q.data a).getD _ 0).toNat) = _
    rw [show (q.data a).getD ((addr.toNat - q.start.toNat) * 2) 0 = _ from hhi,
      show (q.data a).getD ((addr.toNat - q.start.toNat) * 2 + 1) 0 = _ from hlo, toNat_word]
    rfl
  · rw [if_pos (by omega), if_neg (by simpa using hin)]

/-! ## 2. What a decoder sees of an answer -/

/-- The decoder hangs on the register: where the read covers it, the field is decoded as from all
    registers, else not at all. -/
def HangsOn (d : Decoder) (addr : UInt16) : Prop :=
  ∀ dev a (q : RegAnswer), q.Whole → ∀ st,
    d dev (reg q.start (q.data a)) st = if q.covers addr then d dev (full a) st else none

theorem hangsOn_oneReg (has : BtDevice → Bool) (addr : UInt16) (accept : Nat → Bool)
    (set : BtDevice → Nat → BluettiState → BluettiState) :
    HangsOn (oneReg has addr accept set) addr := by
  intro dev a q _ st
  unfold oneReg
  rw [reg_data]
  cases q.covers addr with
  | true => rfl
  | false =>
      simp only [Bool.false_eq_true, if_false]
      split <;> rfl

theorem swapChars_congr {r r' : UInt16 → Option Nat} (outSz : Nat) {words : Nat} {addr : UInt16}
    (h : ∀ i < words, r (addr + UInt16.ofNat i) = r' (addr + UInt16.ofNat i)) (out : List Char) :
    swapChars r outSz words addr out = swapChars r' outSz words addr out := by
  induction words generalizing addr out with
  | zero => rfl
  | succ words ih =>
      have hrest : ∀ i < words, r (addr + 1 + UInt16.ofNat i) = r' (addr + 1 + UInt16.ofNat i) := by
        intro i hi
        have hnext : addr + 1 + UInt16.ofNat i = addr + UInt16.ofNat (i + 1) := by
          rw [UInt16.add_assoc, UInt16.ofNat_add, UInt16.add_comm 1]
          rfl
        rw [hnext]
        exact h (i + 1) (by omega)
      have h0 := h 0 (by omega)
      rw [show addr + UInt16.ofNat 0 = addr from UInt16.add_zero addr] at h0
      unfold swapChars
      rw [h0]
      split
      · split
        · rfl
        · exact ih hrest _
      · rfl

theorem hangsOn_model : HangsOn (fun _ r st => (r regDeviceType).map fun _ =>
    { st with model := swapString r regDeviceType 6 24 }) regDeviceType := by
  intro dev a q hq st
  simp only [reg_data]
  cases hc : q.covers regDeviceType with
  | false => rfl
  | true =>
      have hwords : ∀ i < 6, reg q.start (q.data a) (regDeviceType + UInt16.ofNat i) =
          full a (regDeviceType + UInt16.ofNat i) := by
        intro i hi
        rw [reg_data, hq.1 i hi, hc, if_pos rfl]
      simp only [if_true]
      unfold swapString
      rw [swapChars_congr 24 hwords]

theorem hangsOn_serial : HangsOn decodeSerial regDeviceSn := by
  intro dev a q hq st
  have hword : ∀ i < 4, ∀ addr, addr = regDeviceSn + UInt16.ofNat i →
      reg q.start (q.data a) addr = if q.covers regDeviceSn then full a addr else none := by
    rintro i hi _ rfl
    rw [reg_data, hq.2 i hi]
  unfold decodeSerial
  rw [hword 0 (by omega) regDeviceSn rfl, hword 1 (by omega) (regDeviceSn + 1) rfl,
    hword 2 (by omega) (regDeviceSn + 2) rfl, hword 3 (by omega) (regDeviceSn + 3) rfl]
  cases q.covers regDeviceSn with
  | true => simp only [if_true]
  | false =>
      simp only [Bool.false_eq_true, if_false]
      split <;> rfl

/-- The registers the decoders hang on, in their order. -/
def fieldRegs : List UInt16 :=
  [regBatterySoc, regDeviceType, regDcOutputPower, regAcOutputPower, regDcInputPower,
   regAcInputPower, regTimeRemaining, regDeviceSn, regAcInputVoltage, regAcInputCurrent,
   regAcOutputVoltage, regCtrlAc, regCtrlDc, regCtrlEcoAc, regCtrlEcoDc, regCtrlPowerLifting,
   regCtrlEcoModeAc, regCtrlEcoModeDc, regCtrlChargingMode, regCtrlDisplayTime, regCtrlSocMin,
   regCtrlSocMax]

def fieldDecoders : List (Decoder × UInt16) := decoders.zip fieldRegs

theorem fieldDecoders_fst : fieldDecoders.map Prod.fst = decoders := rfl

theorem hangsOn_field : ∀ p ∈ fieldDecoders, HangsOn p.1 p.2 := by
  simp only [fieldDecoders, decoders, fieldRegs, List.zip_cons_cons, List.zip_nil_left,
    List.forall_mem_cons]
  and_intros
  all_goals first
    | exact hangsOn_oneReg _ _ _ _
    | exact hangsOn_model
    | exact hangsOn_serial
    | exact List.forall_mem_nil _

/-! ## 3. What a decoder does -/

/-- Where the decoder takes the value of its field, it is the update `f`. -/
def Sets (d : Decoder) (f : BtDevice → (UInt16 → UInt16) → BluettiState → BluettiState) : Prop :=
  ∀ dev a, (∀ st, d dev (full a) st = none) ∨ ∀ st, d dev (full a) st = some (f dev a st)

theorem sets_oneReg (has : BtDevice → Bool) (addr : UInt16) (accept : Nat → Bool)
    (set : BtDevice → Nat → BluettiState → BluettiState) :
    Sets (oneReg has addr accept set) fun dev a => set dev (a addr).toNat := by
  intro dev a
  by_cases hhas : has dev = true ∧ accept (a addr).toNat = true
  · exact .inr fun st => by simp [oneReg, full, hhas.1, hhas.2]
  · refine .inl fun st => ?_
    unfold oneReg full
    simp only
    split
    · rename_i h
      rw [if_neg fun hacc => hhas ⟨h, hacc⟩]
    · rfl

theorem sets_model : Sets (fun _ r st => (r regDeviceType).map fun _ =>
    { st with model := swapString r regDeviceType 6 24 })
    fun _ a st => { st with model := swapString (full a) regDeviceType 6 24 } :=
  fun _ _ => .inr fun _ => rfl

/-- The serial number of all registers. -/
def serialOf (a : UInt16 → UInt16) : Nat :=
  (((a (regDeviceSn + 3)).toNat * 65536 + (a (regDeviceSn + 2)).toNat) * 65536 +
    (a (regDeviceSn + 1)).toNat) * 65536 + (a regDeviceSn).toNat

theorem sets_serial : Sets decodeSerial fun _ a st =>
    { st with serial := CText.fit 24 (toString (serialOf a)) } := by
  intro dev a
  by_cases h : dev.hasField btFSerial = true ∧ serialOf a ≠ 0
  · refine .inr fun st => ?_
    unfold decodeSerial
    rw [if_pos h.1]
    exact if_neg h.2
  · refine .inl fun st => ?_
    unfold decodeSerial
    split
    · rename_i hhas
      exact if_pos (Decidable.of_not_not fun hne => h ⟨hhas, hne⟩)
    · rfl

/-! What `bt_regs_apply` writes around the fields. -/

def BluettiState.validated (st : BluettiState) : BluettiState := { st with valid := true }

def BluettiState.stamped (st : BluettiState) (now : Int) : BluettiState :=
  { st with updatedUs := now }

def BluettiState.withCapacity (st : BluettiState) (wh : Nat) : BluettiState :=
  { st with designCapacityWh := wh }

/-- The update that a decoder makes when all registers are there. -/
def update (dev : BtDevice) (a : UInt16 → UInt16) (d : Decoder) (st : BluettiState) :
    BluettiState :=
  match d dev (full a) st with
  | some st => st.validated
  | none => st

theorem update_cases {d : Decoder} {f : BtDevice → (UInt16 → UInt16) → BluettiState → BluettiState}
    (h : Sets d f) (dev : BtDevice) (a : UInt16 → UInt16) :
    update dev a d = id ∨ (∀ st, d dev (full a) st = some (f dev a st)) ∧
      update dev a d = fun st => (f dev a st).validated := by
  rcases h dev a with h | h
  · exact .inl (funext fun st => by simp only [update, h, id])
  · exact .inr ⟨h, funext fun st => by simp only [update, h]⟩

/-- The derived fields. -/
def BluettiState.derive (st : BluettiState) (output input battery : Int) (mains charging : Bool) :
    BluettiState :=
  { st with
    outputWatts := output
    inputWatts := input
    batteryWatts := battery
    acInputPresent := mains
    charging := charging }

/-- A power that is known in the first state is known in the second. -/
structure KeepsKnown (st st' : BluettiState) : Prop where
  acOut : 0 ≤ st.acOutWatts → 0 ≤ st'.acOutWatts
  dcOut : 0 ≤ st.dcOutWatts → 0 ≤ st'.dcOutWatts
  acIn : 0 ≤ st.acInWatts → 0 ≤ st'.acInWatts
  dcIn : 0 ≤ st.dcInWatts → 0 ≤ st'.dcInWatts

/-- **An update of a field that is read**: made twice it is made once, it neither reads nor writes
    what is derived or the time, and no power gets unknown. -/
structure RawSet (f : BluettiState → BluettiState) : Prop where
  idem : ∀ st, f (f st) = f st
  derive : ∀ st o i b m c, f (st.derive o i b m c) = (f st).derive o i b m c
  stamp : ∀ st now, f (st.stamped now) = (f st).stamped now
  known : ∀ st, KeepsKnown st (f st)

/-- A field of the answer: nor does it read or write what `bt_regs_apply` sets around the fields. -/
structure FieldSet (f : BluettiState → BluettiState) : Prop extends RawSet f where
  valid : ∀ st, f st.validated = (f st).validated
  capacity : ∀ st wh, f (st.withCapacity wh) = (f st).withCapacity wh

theorem watts_known (v : Nat) : (0 : Int) ≤ 10 * (v : Int) := by omega

theorem exists_fieldSet {d : Decoder}
    {f : BtDevice → (UInt16 → UInt16) → BluettiState → BluettiState} (hd : Sets d f)
    (h : ∀ dev a, FieldSet (f dev a)) : ∃ f, Sets d f ∧ ∀ dev a, FieldSet (f dev a) := ⟨f, hd, h⟩

/-- **Every decoder** sets a field of the answer. -/
theorem fieldSet_decoders : ∀ d ∈ decoders, ∃ f, Sets d f ∧ ∀ dev a, FieldSet (f dev a) := by
  simp only [decoders, List.forall_mem_cons]
  and_intros
  all_goals first
    | exact List.forall_mem_nil _
    | refine exists_fieldSet (sets_oneReg _ _ _ _) fun dev a => ?_
    | refine exists_fieldSet sets_model fun dev a => ?_
    | refine exists_fieldSet sets_serial fun dev a => ?_
  all_goals
    refine ⟨⟨fun _ => rfl, fun _ _ _ _ _ _ => rfl, fun _ _ => rfl, fun _ => ⟨?_, ?_, ?_, ?_⟩⟩,
      fun _ => rfl, fun _ _ => rfl⟩
    all_goals first
      | exact fun h => h
      | exact fun _ => watts_known _

/-- One after the other, in either order. -/
def DecodeCommute (dev : BtDevice) (a : UInt16 → UInt16) (d e : Decoder) : Prop :=
  ∀ st, (d dev (full a) st).bind (e dev (full a)) = (e dev (full a) st).bind (d dev (full a))

/-- Two decoders that set different fields. -/
theorem commute_sets {d e : Decoder}
    {f g : BtDevice → (UInt16 → UInt16) → BluettiState → BluettiState} (hd : Sets d f)
    (he : Sets e g) (dev : BtDevice) (a : UInt16 → UInt16)
    (h : ∀ st, g dev a (f dev a st) = f dev a (g dev a st)) : DecodeCommute dev a d e := by
  intro st
  rcases hd dev a with hd | hd
  · rcases he dev a with he | he
    · rw [hd, he]
      rfl
    · rw [hd, he]
      exact (hd _).symm
  · rcases he dev a with he | he
    · rw [hd, he]
      exact he _
    · rw [hd, he]
      show e dev (full a) (f dev a st) = d dev (full a) (g dev a st)
      rw [hd, he, h]

/-- **No two decoders set the same field.** -/
theorem commute_decoders (dev : BtDevice) (a : UInt16 → UInt16) :
    decoders.Pairwise (DecodeCommute dev a) := by
  simp only [decoders, List.pairwise_cons, List.forall_mem_cons]
  and_intros
  all_goals first
    | exact commute_sets (sets_oneReg _ _ _ _) (sets_oneReg _ _ _ _) dev a fun _ => rfl
    | exact List.forall_mem_nil _
    | exact List.Pairwise.nil
    | exact commute_sets sets_model (sets_oneReg _ _ _ _) dev a fun _ => rfl
    | exact commute_sets (sets_oneReg _ _ _ _) sets_model dev a fun _ => rfl
    | exact commute_sets sets_serial (sets_oneReg _ _ _ _) dev a fun _ => rfl
    | exact commute_sets (sets_oneReg _ _ _ _) sets_serial dev a fun _ => rfl
    | exact commute_sets sets_model sets_serial dev a fun _ => rfl

/-- Their updates, `valid` included. -/
theorem commute_update {dev : BtDevice} {a : UInt16 → UInt16} {d e : Decoder} (hd : d ∈ decoders)
    (he : e ∈ decoders) : Function.Commute (update dev a d) (update dev a e) := by
  have hcomm : DecodeCommute dev a d e :=
    (commute_decoders dev a).forall_of_forall_of_flip (fun _ _ _ => rfl)
      ((commute_decoders dev a).imp fun h st => (h st).symm) hd he
  obtain ⟨f, hf, hfield⟩ := fieldSet_decoders d hd
  obtain ⟨g, hg, hgfield⟩ := fieldSet_decoders e he
  rcases update_cases hf dev a with hid | ⟨hf, hupd⟩
  · rw [hid]
    exact fun _ => rfl
  rcases update_cases hg dev a with hid | ⟨hg, hupe⟩
  · rw [hid]
    exact fun _ => rfl
  rw [hupd, hupe]
  intro st
  have heq : g dev a (f dev a st) = f dev a (g dev a st) := by
    have h := hcomm st
    rw [hf, hg, Option.bind_some, Option.bind_some, hf, hg] at h
    exact Option.some.inj h
  show (f dev a (g dev a st).validated).validated = (g dev a (f dev a st).validated).validated
  rw [(hfield dev a).valid, (hgfield dev a).valid, heq]

/-! ## 4. What is derived -/

/-- A sum of two powers, where one is known, else what was there. -/
def sumOr (w w' old : Int) : Int :=
  if w ≥ 0 ∨ w' ≥ 0 then knownWatts w + knownWatts w' else old

def BluettiState.outputOf (st : BluettiState) : Int :=
  sumOr st.acOutWatts st.dcOutWatts st.outputWatts

def BluettiState.inputOf (st : BluettiState) : Int := sumOr st.acInWatts st.dcInWatts st.inputWatts

def BluettiState.mainsOf (st : BluettiState) : Bool :=
  decide (st.acInWatts > 0) || decide (st.acInVolts > 0)

/-- The net flow, where both sums are known, else what was there. -/
def flowOr (input output old : Int) : Int :=
  if decide (input ≥ 0) && decide (output ≥ 0) then output - input else old

def BluettiState.batteryOf (st : BluettiState) : Int :=
  flowOr st.inputOf st.outputOf st.batteryWatts

def BluettiState.chargingOf (st : BluettiState) : Bool :=
  (if decide (st.inputOf ≥ 0) && decide (st.outputOf ≥ 0) then decide (st.batteryOf < 0)
    else st.mainsOf || decide (st.dcInWatts > 0)) &&
      (decide (st.socPct ≥ 0) && decide (st.socPct < 100))

/-- `recompute`, field by field. -/
theorem recompute_eq (st : BluettiState) :
    recompute st = st.derive st.outputOf st.inputOf st.batteryOf st.mainsOf st.chargingOf := by
  have hout : sumOutputs st = { st with outputWatts := st.outputOf } := by
    unfold sumOutputs BluettiState.outputOf sumOr
    split <;> rfl
  have hin : ∀ o, sumInputs { st with outputWatts := o } =
      { st with outputWatts := o, inputWatts := st.inputOf } := by
    intro o
    unfold sumInputs BluettiState.inputOf sumOr
    split <;> rfl
  have hflow : ∀ t : BluettiState, netFlow t =
      { t with batteryWatts := flowOr t.inputWatts t.outputWatts t.batteryWatts } := by
    intro t
    unfold netFlow BluettiState.flowKnown flowOr
    split <;> rfl
  unfold recompute
  rw [hout, hin, inferMains, hflow]
  rfl

theorem sumOr_absorbs {w₀ w₀' w w' : Int} (h : 0 ≤ w₀ → 0 ≤ w) (h' : 0 ≤ w₀' → 0 ≤ w') (old : Int) :
    sumOr w w' (sumOr w₀ w₀' old) = sumOr w w' old := by
  unfold sumOr
  by_cases hk : w ≥ 0 ∨ w' ≥ 0
  · rw [if_pos hk, if_pos hk]
  · have hk₀ : ¬ (w₀ ≥ 0 ∨ w₀' ≥ 0) := fun h0 => hk (h0.imp h h')
    rw [if_neg hk, if_neg hk, if_neg hk₀]

theorem sumOr_known {w₀ w₀' w w' : Int} (h : 0 ≤ w₀ → 0 ≤ w) (h' : 0 ≤ w₀' → 0 ≤ w') {old : Int}
    (hs : 0 ≤ sumOr w₀ w₀' old) : 0 ≤ sumOr w w' old := by
  unfold sumOr knownWatts at *
  by_cases hk : w ≥ 0 ∨ w' ≥ 0
  · rw [if_pos hk]
    split <;> split <;> omega
  · have hk₀ : ¬ (w₀ ≥ 0 ∨ w₀' ≥ 0) := fun h0 => hk (h0.imp h h')
    rw [if_neg hk₀] at hs
    rw [if_neg hk]
    exact hs

theorem flowOr_absorbs {i₀ o₀ i o : Int} (hi : 0 ≤ i₀ → 0 ≤ i) (ho : 0 ≤ o₀ → 0 ≤ o) (old : Int) :
    flowOr i o (flowOr i₀ o₀ old) = flowOr i o old := by
  unfold flowOr
  by_cases hk : (decide (i ≥ 0) && decide (o ≥ 0)) = true
  · rw [if_pos hk, if_pos hk]
  · have hk₀ : ¬ (decide (i₀ ≥ 0) && decide (o₀ ≥ 0)) = true := by
      simp only [Bool.and_eq_true, decide_eq_true_eq] at hk ⊢
      exact fun h0 => hk ⟨hi h0.1, ho h0.2⟩
    rw [if_neg hk, if_neg hk, if_neg hk₀]

theorem derive_self (st : BluettiState) : st.derive st.outputWatts st.inputWatts st.batteryWatts
    st.acInputPresent st.charging = st := rfl

theorem RawSet.keeps {f : BluettiState → BluettiState} (h : RawSet f) (st : BluettiState) :
    (f st).outputWatts = st.outputWatts ∧ (f st).inputWatts = st.inputWatts ∧
      (f st).batteryWatts = st.batteryWatts := by
  have hself := h.derive st st.outputWatts st.inputWatts st.batteryWatts st.acInputPresent
    st.charging
  rw [derive_self] at hself
  rw [hself]
  exact ⟨rfl, rfl, rfl⟩

/-- Deriving over other derived fields, where the sums and the flow come out the same. -/
theorem derive_derived (st : BluettiState) {o i b : Int} {m c : Bool}
    (ho : sumOr st.acOutWatts st.dcOutWatts o = st.outputOf)
    (hi : sumOr st.acInWatts st.dcInWatts i = st.inputOf)
    (hb : flowOr st.inputOf st.outputOf b = st.batteryOf) :
    let t := st.derive o i b m c
    t.derive t.outputOf t.inputOf t.batteryOf t.mainsOf t.chargingOf =
      st.derive st.outputOf st.inputOf st.batteryOf st.mainsOf st.chargingOf := by
  intro t
  have hout : t.outputOf = st.outputOf := ho
  have hin : t.inputOf = st.inputOf := hi
  have hbat : t.batteryOf = st.batteryOf := by
    show flowOr t.inputOf t.outputOf b = _
    rw [hin, hout, hb]
  have hch : t.chargingOf = st.chargingOf := by
    unfold BluettiState.chargingOf
    rw [hin, hout, hbat]
    rfl
  rw [hout, hin, hbat, hch]
  rfl

/-- **What is derived after an update** does not depend on whether it was derived before. -/
theorem recompute_absorbs {f : BluettiState → BluettiState} (h : RawSet f) (st : BluettiState) :
    recompute (f (recompute st)) = recompute (f st) := by
  obtain ⟨hao, hdo, hai, hdi⟩ := h.known st
  obtain ⟨ho, hi, hb⟩ := h.keeps st
  have hout : sumOr (f st).acOutWatts (f st).dcOutWatts st.outputOf = (f st).outputOf := by
    unfold BluettiState.outputOf
    rw [sumOr_absorbs hao hdo, ho]
  have hin : sumOr (f st).acInWatts (f st).dcInWatts st.inputOf = (f st).inputOf := by
    unfold BluettiState.inputOf
    rw [sumOr_absorbs hai hdi, hi]
  have hbat : flowOr (f st).inputOf (f st).outputOf st.batteryOf = (f st).batteryOf := by
    unfold BluettiState.batteryOf
    rw [flowOr_absorbs ?_ ?_, hb]
    · intro hk
      unfold BluettiState.inputOf at hk ⊢
      rw [hi]
      exact sumOr_known hai hdi hk
    · intro hk
      unfold BluettiState.outputOf at hk ⊢
      rw [ho]
      exact sumOr_known hao hdo hk
  rw [recompute_eq st, h.derive, recompute_eq, recompute_eq (f st)]
  exact derive_derived (f st) hout hin hbat

/-! ## 5. An answer as a set of updates -/

/-- The state with everything derived, and without the time. -/
def upToTime (st : BluettiState) : BluettiState := (recompute st).stamped 0

theorem recompute_stamped (st : BluettiState) (now : Int) :
    recompute (st.stamped now) = (recompute st).stamped now := by
  rw [recompute_eq, recompute_eq]
  rfl

theorem recompute_validated (st : BluettiState) :
    recompute st.validated = (recompute st).validated := by
  rw [recompute_eq, recompute_eq]
  rfl

theorem recompute_withCapacity (st : BluettiState) (wh : Nat) :
    recompute (st.withCapacity wh) = (recompute st).withCapacity wh := by
  rw [recompute_eq, recompute_eq]
  rfl

theorem rawSet_id : RawSet id :=
  ⟨fun _ => rfl, fun _ _ _ _ _ _ => rfl, fun _ _ => rfl, fun _ => ⟨id, id, id, id⟩⟩

theorem recompute_idem (st : BluettiState) : recompute (recompute st) = recompute st :=
  recompute_absorbs rawSet_id st

theorem seedCapacity_eq (dev : BtDevice) (st : BluettiState) :
    seedCapacity dev st = st.withCapacity
      (if dev.wh > 0 ∧ st.designCapacityWh = 0 then dev.wh else st.designCapacityWh) := by
  unfold seedCapacity
  split <;> rfl

theorem rawSet_seedCapacity (dev : BtDevice) : RawSet (seedCapacity dev) := by
  refine ⟨fun st => ?_, fun st o i b m c => ?_, fun st now => ?_, fun st => ?_⟩
  · unfold seedCapacity
    by_cases h : dev.wh > 0 ∧ st.designCapacityWh = 0
    · rw [if_pos h, if_neg fun h' => absurd h'.2 (Nat.ne_of_gt h.1)]
    · rw [if_neg h, if_neg h]
  · rw [seedCapacity_eq, seedCapacity_eq]
    rfl
  · rw [seedCapacity_eq, seedCapacity_eq]
    rfl
  · rw [seedCapacity_eq]
    exact ⟨fun h => h, fun h => h, fun h => h, fun h => h⟩

section Updates

variable {dev : BtDevice} {a : UInt16 → UInt16}

theorem rawSet_update {d : Decoder} (hd : d ∈ decoders) : RawSet (update dev a d) := by
  obtain ⟨f, hsets, hfield⟩ := fieldSet_decoders d hd
  have hf := hfield dev a
  rcases update_cases hsets dev a with h | ⟨-, h⟩
  · rw [h]
    exact rawSet_id
  · rw [h]
    refine ⟨fun st => ?_, fun st o i b m c => ?_, fun st now => ?_, fun st => ?_⟩
    · rw [hf.valid, hf.idem]
      rfl
    · rw [hf.derive]
      rfl
    · rw [hf.stamp]
      rfl
    · obtain ⟨hao, hdo, hai, hdi⟩ := hf.known st
      exact ⟨hao, hdo, hai, hdi⟩

theorem commute_seedCapacity {d : Decoder} (hd : d ∈ decoders) :
    Function.Commute (seedCapacity dev) (update dev a d) := by
  obtain ⟨f, hsets, hfield⟩ := fieldSet_decoders d hd
  have hf := hfield dev a
  rcases update_cases hsets dev a with h | ⟨-, h⟩
  · rw [h]
    exact fun _ => rfl
  · rw [h]
    intro st
    have hkeep : (f dev a st).validated.designCapacityWh = st.designCapacityWh := by
      have hself := hf.capacity st st.designCapacityWh
      rw [show st.withCapacity st.designCapacityWh = st from rfl] at hself
      rw [hself]
      rfl
    show seedCapacity dev (f dev a st).validated = (f dev a (seedCapacity dev st)).validated
    rw [seedCapacity_eq, seedCapacity_eq, hkeep, hf.capacity]
    rfl

/-- The updates that answers make. -/
def Updates (dev : BtDevice) (a : UInt16 → UInt16) (g : BluettiState → BluettiState) : Prop :=
  g = seedCapacity dev ∨ ∃ d ∈ decoders, g = update dev a d

theorem settling_updates : Settling (Updates dev a) := by
  refine ⟨fun f g hf hg => ?_, fun f hf st => ?_⟩
  · rcases hf with rfl | ⟨d, hd, rfl⟩
    · rcases hg with rfl | ⟨e, he, rfl⟩
      · exact fun _ => rfl
      · exact commute_seedCapacity he
    · rcases hg with rfl | ⟨e, he, rfl⟩
      · exact (commute_seedCapacity hd).symm
      · exact commute_update hd he
  · rcases hf with rfl | ⟨d, hd, rfl⟩
    · exact (rawSet_seedCapacity dev).idem st
    · exact (rawSet_update hd).idem st

theorem refreshes_updates : Refreshes upToTime (Updates dev a) := by
  refine ⟨fun st => ?_, fun g hg st => ?_⟩
  · unfold upToTime
    rw [recompute_stamped, recompute_idem]
    rfl
  · have hraw : RawSet g := by
      rcases hg with rfl | ⟨d, hd, rfl⟩
      · exact rawSet_seedCapacity dev
      · exact rawSet_update hd
    unfold upToTime
    rw [hraw.stamp, recompute_stamped, recompute_absorbs hraw]
    rfl

end Updates

/-! ## 6. Reads in any order -/

/-- The updates that one answer makes. -/
def made (dev : BtDevice) (a : UInt16 → UInt16) (q : RegAnswer) :
    List (BluettiState → BluettiState) :=
  seedCapacity dev :: (fieldDecoders.filter fun p => q.covers p.2).map fun p => update dev a p.1

/-- The state once a field has matched is valid. -/
def marked (acc : Nat × BluettiState) : BluettiState :=
  if acc.1 > 0 then acc.2.validated else acc.2

section Answers

variable {dev : BtDevice} {a : UInt16 → UInt16} {q : RegAnswer}

theorem mem_decoders {p : Decoder × UInt16} (h : p ∈ fieldDecoders) : p.1 ∈ decoders := by
  rw [← fieldDecoders_fst]
  exact List.mem_map_of_mem h

theorem mem_made {f : BluettiState → BluettiState} :
    f ∈ made dev a q ↔
      f = seedCapacity dev ∨ ∃ p ∈ fieldDecoders, q.covers p.2 = true ∧ update dev a p.1 = f := by
  simp only [made, List.mem_cons, List.mem_map, List.mem_filter, and_assoc]

theorem updates_made {f : BluettiState → BluettiState} (h : f ∈ made dev a q) :
    Updates dev a f := by
  rcases mem_made.mp h with rfl | ⟨p, hp, -, rfl⟩
  · exact .inl rfl
  · exact .inr ⟨p.1, mem_decoders hp, rfl⟩

/-- Decoding one field makes its update, where the read covers it. -/
theorem marked_decode (hq : q.Whole) {p : Decoder × UInt16} (hp : p ∈ fieldDecoders)
    (acc : Nat × BluettiState) :
    marked (decode dev (reg q.start (q.data a)) acc p.1) =
      if q.covers p.2 then update dev a p.1 (marked acc) else marked acc := by
  obtain ⟨f, hsets, hfield⟩ := fieldSet_decoders p.1 (mem_decoders hp)
  unfold decode
  rw [hangsOn_field p hp dev a q hq]
  cases q.covers p.2 with
  | false => rfl
  | true =>
      simp only [if_true]
      rcases hsets dev a with hnone | hsome
      · rw [hnone, update, hnone]
      · have hmark : f dev a (marked acc) = f dev a acc.2 ∨
            f dev a (marked acc) = (f dev a acc.2).validated := by
          unfold marked
          split
          · exact .inr ((hfield dev a).valid acc.2)
          · exact .inl rfl
        rw [hsome, update, hsome]
        show (f dev a acc.2).validated = (f dev a (marked acc)).validated
        rcases hmark with h | h
        · rw [h]
        · rw [h]
          rfl

/-- The decoders of a list, one after the other. -/
theorem marked_foldl (hq : q.Whole) {l : List (Decoder × UInt16)} (hl : ∀ p ∈ l, p ∈ fieldDecoders)
    (acc : Nat × BluettiState) :
    marked ((l.map Prod.fst).foldl (decode dev (reg q.start (q.data a))) acc) =
      applyAll ((l.filter fun p => q.covers p.2).map fun p => update dev a p.1) (marked acc) := by
  induction l generalizing acc with
  | nil => rfl
  | cons p l ih =>
      obtain ⟨hp, hl⟩ := List.forall_mem_cons.mp hl
      rw [List.map_cons, List.foldl_cons, ih hl, marked_decode hq hp]
      cases hc : q.covers p.2 with
      | true => rw [List.filter_cons, if_pos hc, List.map_cons, applyAll_cons, if_pos rfl]
      | false => rw [List.filter_cons, if_neg (Bool.eq_false_iff.mp hc), if_neg Bool.false_ne_true]

/-- Decoding that matches no field changes nothing. -/
theorem foldl_decode_count (r : UInt16 → Option Nat) (l : List Decoder) (acc : Nat × BluettiState) :
    l.foldl (decode dev r) acc = acc ∨ acc.1 < (l.foldl (decode dev r) acc).1 := by
  induction l generalizing acc with
  | nil => exact .inl rfl
  | cons d l ih =>
      have hd : decode dev r acc d = acc ∨ acc.1 < (decode dev r acc d).1 := by
        unfold decode
        split
        · exact .inr (Nat.lt_succ_self _)
        · exact .inl rfl
      rw [List.foldl_cons]
      rcases hd with hd | hd
      · rw [hd]
        exact ih acc
      · rcases ih (decode dev r acc d) with hrest | hrest
        · rw [hrest]
          exact .inr hd
        · exact .inr (Nat.lt_trans hd hrest)

end Answers

section Runs

variable {dev : Option BtDevice} {a : UInt16 → UInt16}

/-- What the decoders make of an answer. -/
def decoded (dev : BtDevice) (a : UInt16 → UInt16) (st : BluettiState) (q : RegAnswer) :
    Nat × BluettiState :=
  decoders.foldl (decode dev (reg q.start (q.data a))) (0, seedCapacity dev st)

theorem applyAnswer_eq (st : BluettiState) (q : RegAnswer) :
    applyAnswer dev a st q =
      if (decoded (dev.getD btDeviceGeneric) a st q).1 > 0 then
        (recompute (decoded (dev.getD btDeviceGeneric) a st q).2).validated.stamped q.nowUs
      else (decoded (dev.getD btDeviceGeneric) a st q).2 := by
  obtain ⟨⟨n, t⟩, hacc⟩ : ∃ acc, decoded (dev.getD btDeviceGeneric) a st q = acc := ⟨_, rfl⟩
  rw [hacc]
  unfold decoded at hacc
  simp only [applyAnswer, btRegsApply, hacc]
  by_cases hm : n > 0
  · rw [if_pos hm, if_pos hm]
    rfl
  · rw [if_neg hm, if_neg hm]

/-- An answer makes its updates, but for what is derived and the time. -/
theorem upToTime_applyAnswer {q : RegAnswer} (hq : q.Whole) (st : BluettiState) :
    upToTime (applyAnswer dev a st q) =
      upToTime (applyAll (made (dev.getD btDeviceGeneric) a q) st) := by
  have hfold : marked (decoded (dev.getD btDeviceGeneric) a st q) =
      applyAll (made (dev.getD btDeviceGeneric) a q) st := by
    unfold decoded made
    rw [← fieldDecoders_fst, marked_foldl hq fun _ hp => hp]
    rfl
  rw [← hfold, applyAnswer_eq]
  unfold marked
  generalize decoded _ a st q = acc
  by_cases hm : acc.1 > 0
  · rw [if_pos hm, if_pos hm]
    unfold upToTime
    rw [recompute_stamped, recompute_validated, recompute_validated, recompute_idem]
    rfl
  · rw [if_neg hm, if_neg hm]

/-- Everything that can be derived is derived. -/
def Derived (st : BluettiState) : Prop := recompute st = st

theorem derived_reset (low : Int) : Derived (stateReset low) := rfl

theorem derived_applyAnswer {st : BluettiState} (h : Derived st) (q : RegAnswer) :
    Derived (applyAnswer dev a st q) := by
  have hseed : Derived (seedCapacity (dev.getD btDeviceGeneric) st) := by
    rw [seedCapacity_eq]
    exact (recompute_withCapacity _ _).trans (by rw [h])
  have hcount : decoded (dev.getD btDeviceGeneric) a st q =
      (0, seedCapacity (dev.getD btDeviceGeneric) st) ∨
        0 < (decoded (dev.getD btDeviceGeneric) a st q).1 := foldl_decode_count _ decoders _
  rw [applyAnswer_eq]
  by_cases hm : (decoded (dev.getD btDeviceGeneric) a st q).1 > 0
  · rw [if_pos hm]
    unfold Derived
    rw [recompute_stamped, recompute_validated, recompute_idem]
  · rw [if_neg hm, hcount.resolve_right hm]
    exact hseed

theorem derived_answers {st : BluettiState} (h : Derived st) (qs : List RegAnswer) :
    Derived (applyAnswers dev a st qs) := by
  unfold applyAnswers
  induction qs generalizing st with
  | nil => exact h
  | cons q qs ih => exact ih (derived_applyAnswer h q)

/-- **Reads that cover the same registers**, in any order and grouping, end in the same state but
    for the time. -/
theorem answers_anyOrder (dev : Option BtDevice) (a : UInt16 → UInt16) (low : Int)
    {qs qs' : List RegAnswer} (hne : qs ≠ []) (hne' : qs' ≠ [])
    (hwhole : ∀ q ∈ qs ++ qs', q.Whole)
    (hcover : ∀ addr, (∃ q ∈ qs, q.covers addr = true) ↔ ∃ q ∈ qs', q.covers addr = true) :
    { applyAnswers dev a (stateReset low) qs with updatedUs := 0 } =
      { applyAnswers dev a (stateReset low) qs' with updatedUs := 0 } := by
  have hsame : ∀ f, (∃ q ∈ qs, f ∈ made (dev.getD btDeviceGeneric) a q) ↔
      ∃ q ∈ qs', f ∈ made (dev.getD btDeviceGeneric) a q := by
    have hhalf : ∀ {us vs : List RegAnswer}, vs ≠ [] →
        (∀ addr, (∃ q ∈ us, q.covers addr = true) → ∃ q ∈ vs, q.covers addr = true) →
        ∀ f, (∃ q ∈ us, f ∈ made (dev.getD btDeviceGeneric) a q) →
          ∃ q ∈ vs, f ∈ made (dev.getD btDeviceGeneric) a q := by
      rintro us vs hvs hc f ⟨q, hq, hf⟩
      rcases mem_made.mp hf with rfl | ⟨p, hp, hcov, rfl⟩
      · obtain ⟨v, hv⟩ := List.exists_mem_of_ne_nil vs hvs
        exact ⟨v, hv, mem_made.mpr (.inl rfl)⟩
      · obtain ⟨v, hv, hcov⟩ := hc p.2 ⟨q, hq, hcov⟩
        exact ⟨v, hv, mem_made.mpr (.inr ⟨p, hp, hcov, rfl⟩)⟩
    exact fun f => ⟨hhalf hne' (fun addr => (hcover addr).mp) f,
      hhalf hne (fun addr => (hcover addr).mpr) f⟩
  have hup : upToTime (applyAnswers dev a (stateReset low) qs) =
      upToTime (applyAnswers dev a (stateReset low) qs') :=
    run_confluent settling_updates refreshes_updates (fun _ _ _ => updates_made)
      (fun q hq => upToTime_applyAnswer (hwhole q hq)) hsame (stateReset low)
  unfold upToTime at hup
  rw [derived_answers (derived_reset low) qs, derived_answers (derived_reset low) qs'] at hup
  exact hup

/-- Serial number, mains power and charge of one model: all at once, or the charge last and
    twice. -/
theorem answers_anyOrder_regrouped :
    let a : UInt16 → UInt16 := fun addr => if addr = regBatterySoc then 80 else addr
    let once : List RegAnswer := [⟨100, 50, 7⟩]
    let pieces : List RegAnswer := [⟨regDeviceSn, 34, 1⟩, ⟨100, 16, 2⟩, ⟨regBatterySoc, 1, 3⟩]
    { applyAnswers devices[1]? a (stateReset 20) once with updatedUs := 0 } =
      { applyAnswers devices[1]? a (stateReset 20) pieces with updatedUs := 0 } := by
  intro a once pieces
  refine answers_anyOrder devices[1]? a 20 (by simp [once]) (by simp [pieces]) ?_ ?_
  · simp only [once, pieces, List.cons_append, List.nil_append, List.forall_mem_cons]
    decide +kernel
  · intro addr
    simp only [once, pieces, List.mem_cons, List.not_mem_nil, or_false, exists_eq_left,
      exists_eq_or_imp, RegAnswer.covers, Bool.and_eq_true, decide_eq_true_eq,
      UInt16.le_iff_toNat_le, regDeviceSn, regBatterySoc]
    show _ ↔ _
    have h100 : (100 : UInt16).toNat = 100 := rfl
    have h116 : (116 : UInt16).toNat = 116 := rfl
    have h102 : (102 : UInt16).toNat = 102 := rfl
    rw [h100, h116, h102]
    omega

end Runs

end NutBluetti.Ble
