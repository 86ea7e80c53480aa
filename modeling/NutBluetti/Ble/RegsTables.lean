/-
  File:      NutBluetti/Ble/RegsTables.lean
  Subject:   THE TABLES AGREE. What a model has is written down in a planner, in a table of controls
             and in a decoder, and what a control may hold three times over; a unit's name picks the
             mask.

  * `Presence`, `planRows`, `fieldRows` -- the fields with what announces them, in the order of the
    plan and in the order of the decoder;
  * `Decodes d row` -- the decoder takes an answer to its row's read, where the model has the row,
    and nothing else;
  * **`plan_decode_agree`** -- what is polled is what is decoded;
  * `ReadsBack c d` -- the decoder takes for a control what the validator allows;
  * **`valid_iff_readBack`** -- a write is allowed exactly when its read-back is;
  * **`deviceLookup_iff`** -- a name and nothing but digits after it, in whatever order the table
    is.
-/
import Mathlib.Data.List.Flatten
import NutBluetti.Ble.RegsOrder

namespace NutBluetti.Ble

/-! ## 1. The fields -/

/-- What announces a field: every unit has it, or bits of one of the two masks. -/
inductive Presence where
  | always
  | field (bits : UInt16)
  | control (bits : UInt16)
  deriving DecidableEq

def Presence.holds : Presence → BtDevice → Bool
  | .always, _ => true
  | .field bits, dev => dev.hasField bits
  | .control bits, dev => dev.hasControl bits

abbrev FieldRow := Presence × BtRegRead

/-- The fields in the order of `bt_regs_plan`: those that are polled whatever the controls toggle
    says, and those that need it. -/
def plainRows : List FieldRow :=
  planCommon.map (Presence.always, ·) ++ planOptional.map (fun o => (Presence.field o.1, o.2)) ++
    [(.control btCSocMin, ⟨regCtrlSocMin, 1⟩), (.control btCSocMax, ⟨regCtrlSocMax, 1⟩)]

def toggledRows : List FieldRow :=
  (btControls.filter fun c => c.bit != btCSocMin && c.bit != btCSocMax).map
    fun c => (Presence.control c.bit, ⟨c.reg, 1⟩)

def planRows (withControls : Bool) : List FieldRow :=
  plainRows ++ if withControls then toggledRows else []

/-- The reads of the rows that the unit has. -/
def readsOf (dev : BtDevice) (rows : List FieldRow) : List BtRegRead :=
  (rows.filter fun row => row.1.holds dev).map Prod.snd

theorem readsOf_append (dev : BtDevice) (rows rows' : List FieldRow) :
    readsOf dev (rows ++ rows') = readsOf dev rows ++ readsOf dev rows' := by
  unfold readsOf
  rw [List.filter_append, List.map_append]

theorem mem_readsOf {dev : BtDevice} {rows : List FieldRow} {q : BtRegRead} :
    q ∈ readsOf dev rows ↔ ∃ row ∈ rows, row.1.holds dev = true ∧ row.2 = q := by
  simp only [readsOf, List.mem_map, List.mem_filter, and_assoc]

theorem readsOf_sublist (dev : BtDevice) (rows : List FieldRow) :
    (readsOf dev rows).Sublist (rows.map Prod.snd) :=
  (List.filter_sublist (p := _)).map Prod.snd

/-- A table with its column of bits is filtered by them. -/
theorem readsOf_map {α : Type} (dev : BtDevice) (l : List α) (row : α → FieldRow) :
    readsOf dev (l.map row) = (l.filter fun x => (row x).1.holds dev).map fun x => (row x).2 := by
  unfold readsOf
  rw [List.filter_map, List.map_map]
  rfl

theorem readsOf_plain (dev : BtDevice) : readsOf dev plainRows =
    planCommon ++ ((planOptional.filter fun o => dev.hasField o.1).map Prod.snd) ++
      planSocRange dev := by
  have hcommon : readsOf dev (planCommon.map (Presence.always, ·)) = planCommon := by
    rw [readsOf_map]
    exact (congrArg _ (List.filter_eq_self.mpr fun _ _ => rfl)).trans (List.map_id' _)
  have hsoc : readsOf dev [(.control btCSocMin, ⟨regCtrlSocMin, 1⟩),
      (.control btCSocMax, ⟨regCtrlSocMax, 1⟩)] = planSocRange dev := by
    unfold readsOf planSocRange
    simp only [List.filter_cons, List.filter_nil, Presence.holds]
    split <;> split <;> rfl
  rw [plainRows, readsOf_append, readsOf_append, hcommon, hsoc, readsOf_map]
  rfl

theorem readsOf_toggled (dev : BtDevice) : readsOf dev toggledRows = planControls dev := by
  unfold toggledRows planControls
  rw [readsOf_map, List.filter_filter]
  congr 1
  refine List.filter_congr fun c _ => ?_
  rw [Bool.and_comm]
  rfl

/-- **The plan is a table filtered by the masks**, and never cut: there is room to spare. -/
theorem plan_eq_readsOf (dev : BtDevice) (withControls : Bool) {max : Nat}
    (h : btRegPlanMax ≤ max) :
    btRegsPlan dev withControls max = readsOf dev (planRows withControls) ∧
      (btRegsPlan dev withControls max).length < btRegPlanMax := by
  have hcount : (planRows withControls).length < btRegPlanMax := by
    cases withControls <;> decide
  have hlen : (readsOf dev (planRows withControls)).length < btRegPlanMax := by
    have hle := (readsOf_sublist dev (planRows withControls)).length_le
    rw [List.length_map] at hle
    omega
  have hall : btRegsPlan dev withControls max =
      (readsOf dev (planRows withControls)).take max := by
    unfold btRegsPlan planRows
    rw [readsOf_append, readsOf_plain]
    cases withControls with
    | false => rfl
    | true => rw [← readsOf_toggled]; rfl
  rw [hall, List.take_of_length_le (by omega)]
  exact ⟨rfl, hlen⟩

/-! ## 2. No register twice, and what the toggle adds -/

/-- The registers of a read. -/
def BtRegRead.registers (q : BtRegRead) : List UInt16 :=
  (List.range q.words.toNat).map fun i => q.addr + UInt16.ofNat i

/-- The registers that only the controls toggle puts into the plan. -/
def IsToggled (addr : UInt16) : Prop :=
  addr ∈ btControls.map BtControl.reg ∧ addr ≠ regCtrlSocMin ∧ addr ≠ regCtrlSocMax

instance (addr : UInt16) : Decidable (IsToggled addr) := inferInstanceAs (Decidable (_ ∧ _))

/-- No register is read twice, by itself or inside a longer read. -/
theorem plan_registers_nodup (dev : BtDevice) (withControls : Bool) :
    ((btRegsPlan dev withControls btRegPlanMax).flatMap BtRegRead.registers).Nodup := by
  rw [(plan_eq_readsOf dev withControls (Nat.le_refl _)).1]
  have hall : (((planRows withControls).map Prod.snd).flatMap BtRegRead.registers).Nodup := by
    cases withControls <;> decide
  exact hall.sublist ((readsOf_sublist dev _).flatMap _)

theorem plan_addrs_nodup (dev : BtDevice) (withControls : Bool) :
    ((btRegsPlan dev withControls btRegPlanMax).map BtRegRead.addr).Nodup := by
  rw [(plan_eq_readsOf dev withControls (Nat.le_refl _)).1]
  have hall : (((planRows withControls).map Prod.snd).map BtRegRead.addr).Nodup := by
    cases withControls <;> decide
  exact hall.sublist ((readsOf_sublist dev _).map _)

/-- Without controls it is the same plan, less the registers that are toggled. -/
theorem plan_without_controls (dev : BtDevice) : btRegsPlan dev false btRegPlanMax =
    (btRegsPlan dev true btRegPlanMax).filter fun q => !decide (IsToggled q.addr) := by
  rw [(plan_eq_readsOf dev false (Nat.le_refl _)).1, (plan_eq_readsOf dev true (Nat.le_refl _)).1]
  have hplain : ∀ row ∈ plainRows, ¬ IsToggled row.2.addr := by decide
  have htoggled : ∀ row ∈ toggledRows, IsToggled row.2.addr := by decide
  unfold planRows
  rw [readsOf_append, readsOf_append, List.filter_append]
  have hkeep : (readsOf dev plainRows).filter (fun q => !decide (IsToggled q.addr)) =
      readsOf dev plainRows := by
    refine List.filter_eq_self.mpr fun q hq => ?_
    obtain ⟨row, hrow, -, rfl⟩ := mem_readsOf.mp hq
    simp [hplain row hrow]
  have hdrop : (readsOf dev toggledRows).filter (fun q => !decide (IsToggled q.addr)) = [] := by
    refine List.filter_eq_nil_iff.mpr fun q hq => ?_
    obtain ⟨row, hrow, -, rfl⟩ := mem_readsOf.mp hq
    simp [htoggled row hrow]
  rw [hkeep]
  exact congrArg _ hdrop.symm

/-! ## 3. What is decoded -/

/-- The rows in the order of `bt_regs_apply`. -/
def decodedRows : List FieldRow :=
  [(.always, ⟨regBatterySoc, 1⟩), (.always, ⟨regDeviceType, 6⟩), (.always, ⟨regDcOutputPower, 1⟩),
   (.always, ⟨regAcOutputPower, 1⟩), (.always, ⟨regDcInputPower, 1⟩),
   (.always, ⟨regAcInputPower, 1⟩), (.field (btFRtMin ||| btFRt6Min), ⟨regTimeRemaining, 1⟩),
   (.field btFSerial, ⟨regDeviceSn, 4⟩), (.field btFAcInV, ⟨regAcInputVoltage, 1⟩),
   (.field btFAcInA, ⟨regAcInputCurrent, 1⟩), (.field btFAcOutV, ⟨regAcOutputVoltage, 1⟩),
   (.control btCAcOut, ⟨regCtrlAc, 1⟩), (.control btCDcOut, ⟨regCtrlDc, 1⟩),
   (.control btCEcoAc, ⟨regCtrlEcoAc, 1⟩), (.control btCEcoDc, ⟨regCtrlEcoDc, 1⟩),
   (.control btCPowerLift, ⟨regCtrlPowerLifting, 1⟩),
   (.control btCEcoModeAc, ⟨regCtrlEcoModeAc, 1⟩), (.control btCEcoModeDc, ⟨regCtrlEcoModeDc, 1⟩),
   (.control btCChargeMode, ⟨regCtrlChargingMode, 1⟩),
   (.control btCDisplay, ⟨regCtrlDisplayTime, 1⟩), (.control btCSocMin, ⟨regCtrlSocMin, 1⟩),
   (.control btCSocMax, ⟨regCtrlSocMax, 1⟩)]

def fieldRows : List (Decoder × FieldRow) := decoders.zip decodedRows

/-- What is decoded is what is planned, in another order. -/
theorem decodedRows_perm : decodedRows.Perm (planRows true) := by decide

/-- The decoder decodes the field of its row: not where the model lacks it, not without its first
    register, and some answer to its read is taken. -/
structure Decodes (d : Decoder) (row : FieldRow) : Prop where
  absent : ∀ dev r st, row.1.holds dev = false → d dev r st = none
  missing : ∀ dev r st, r row.2.addr = none → d dev r st = none
  taken : ∃ data : List UInt8, data.length = 2 * row.2.words.toNat ∧
    ∀ dev st, row.1.holds dev = true → (d dev (reg row.2.addr data) st).isSome = true

/-- A register under its own address. -/
theorem reg_wordBytes (addr : UInt16) (v : UInt16) :
    reg addr (wordBytes v) addr = some v.toNat := by
  unfold reg
  rw [if_neg (UInt16.lt_irrefl addr), Nat.sub_self]
  exact congrArg some (toNat_word v)

theorem decodes_oneReg {has : BtDevice → Bool} {addr : UInt16} {accept : Nat → Bool}
    {set : BtDevice → Nat → BluettiState → BluettiState} {p : Presence} (hp : p.holds = has)
    (v : UInt16) (hv : accept v.toNat = true) :
    Decodes (oneReg has addr accept set) (p, ⟨addr, 1⟩) := by
  subst hp
  refine ⟨fun dev r st h => ?_, fun dev r st h => ?_, wordBytes v, rfl, fun dev st h => ?_⟩
  · unfold oneReg
    rw [if_neg (by simp [h])]
  · unfold oneReg
    rw [show r addr = none from h]
    split <;> rfl
  · unfold oneReg
    rw [if_pos h, reg_wordBytes]
    simp only [hv, if_true, Option.isSome_some]

theorem decodes_model : Decodes (fun _ r st => (r regDeviceType).map fun _ =>
    { st with model := swapString r regDeviceType 6 24 }) (.always, ⟨regDeviceType, 6⟩) := by
  refine ⟨fun _ _ _ h => ?_, fun dev r st h => ?_, List.replicate 12 1, by decide, fun _ st _ => ?_⟩
  · cases h
  · simp only [show r regDeviceType = none from h, Option.map_none]
  · rw [Option.isSome_map]
    decide

theorem decodes_serial : Decodes decodeSerial (.field btFSerial, ⟨regDeviceSn, 4⟩) := by
  have hword : ∀ i < 4, reg regDeviceSn (List.replicate 8 1) (regDeviceSn + UInt16.ofNat i) =
      some 257 := by decide
  refine ⟨fun dev r st h => ?_, fun dev r st h => ?_, List.replicate 8 1, by decide,
    fun dev st h => ?_⟩
  · unfold decodeSerial
    rw [if_neg (by simp [show dev.hasField btFSerial = false from h])]
  · unfold decodeSerial
    rw [show r regDeviceSn = none from h]
    split <;> rfl
  · show (decodeSerial dev (reg regDeviceSn (List.replicate 8 1)) st).isSome = true
    unfold decodeSerial
    rw [if_pos (show dev.hasField btFSerial = true from h),
      show reg regDeviceSn (List.replicate 8 1) regDeviceSn = _ from hword 0 (by omega),
      show reg regDeviceSn (List.replicate 8 1) (regDeviceSn + 1) = _ from hword 1 (by omega),
      show reg regDeviceSn (List.replicate 8 1) (regDeviceSn + 2) = _ from hword 2 (by omega),
      show reg regDeviceSn (List.replicate 8 1) (regDeviceSn + 3) = _ from hword 3 (by omega)]
    rfl

/-- **Every decoder decodes its row.** -/
theorem decodes_field : ∀ p ∈ fieldRows, Decodes p.1 p.2 := by
  simp only [fieldRows, decoders, decodedRows, List.zip_cons_cons, List.zip_nil_left,
    List.forall_mem_cons]
  and_intros
  all_goals first
    | exact decodes_model
    | exact decodes_serial
    | exact List.forall_mem_nil _
    | exact decodes_oneReg rfl 1 (by decide)
    | exact decodes_oneReg rfl 2 (by decide)

theorem fieldRows_fst : fieldRows.map Prod.fst = decoders := rfl

theorem fieldRows_snd : fieldRows.map Prod.snd = decodedRows := rfl

/-- A row of the plan has its decoder. -/
theorem exists_decoder {row : FieldRow} (h : row ∈ planRows true) : ∃ d, (d, row) ∈ fieldRows := by
  rw [← decodedRows_perm.mem_iff, ← fieldRows_snd] at h
  obtain ⟨⟨d, _⟩, hmem, rfl⟩ := List.mem_map.mp h
  exact ⟨d, hmem⟩

/-- A decoder has its row in the plan. -/
theorem exists_row {d : Decoder} (h : d ∈ decoders) :
    ∃ row ∈ planRows true, (d, row) ∈ fieldRows := by
  rw [← fieldRows_fst] at h
  obtain ⟨⟨_, row⟩, hmem, rfl⟩ := List.mem_map.mp h
  refine ⟨row, decodedRows_perm.mem_iff.mp ?_, hmem⟩
  rw [← fieldRows_snd]
  exact List.mem_map_of_mem hmem

/-! ## 4. Planned and decoded -/

section Matched

variable {dev : BtDevice} {r : UInt16 → Option Nat} {l : List Decoder}

/-- Nothing is decoded where no decoder takes anything. -/
theorem foldl_decode_none (h : ∀ d ∈ l, ∀ st, d dev r st = none) (acc : Nat × BluettiState) :
    l.foldl (decode dev r) acc = acc := by
  induction l with
  | nil => rfl
  | cons d l ih =>
      obtain ⟨hd, hl⟩ := List.forall_mem_cons.mp h
      rw [List.foldl_cons, show decode dev r acc d = acc by simp only [decode, hd]]
      exact ih hl

theorem le_matched (acc : Nat × BluettiState) : acc.1 ≤ (l.foldl (decode dev r) acc).1 := by
  induction l generalizing acc with
  | nil => exact Nat.le_refl _
  | cons d l ih =>
      refine Nat.le_trans ?_ (ih _)
      unfold decode
      split
      · exact Nat.le_succ _
      · exact Nat.le_refl _

/-- One decoder that takes its field is counted. -/
theorem matched_pos {d : Decoder} (hd : d ∈ l) (h : ∀ st, (d dev r st).isSome = true)
    (acc : Nat × BluettiState) : 0 < (l.foldl (decode dev r) acc).1 := by
  obtain ⟨pre, post, rfl⟩ := List.append_of_mem hd
  rw [List.foldl_append, List.foldl_cons]
  refine Nat.lt_of_lt_of_le ?_ (le_matched _)
  generalize pre.foldl (decode dev r) acc = acc'
  obtain ⟨st', hst'⟩ := Option.isSome_iff_exists.mp (h acc'.2)
  unfold decode
  rw [hst']
  exact Nat.succ_pos _

end Matched

theorem regsApply_matched (dev : BtDevice) (start : UInt16) (data : List UInt8) (now : Int)
    (st : BluettiState) : (btRegsApply (some dev) start data now st).1 =
      (decoders.foldl (decode dev (reg start data)) (0, seedCapacity dev st)).1 := by
  unfold btRegsApply
  simp only [Option.getD_some]
  split <;> rfl

/-- An answer of one register holds no other. -/
theorem reg_other {start addr : UInt16} {data : List UInt8} (hlen : data.length = 2)
    (h : addr ≠ start) : reg start data addr = none := by
  unfold reg
  by_cases hlt : addr < start
  · exact if_pos hlt
  · rw [if_neg hlt]
    have hle := UInt16.le_iff_toNat_le.mp (UInt16.not_lt.mp hlt)
    have hne : addr.toNat ≠ start.toNat := fun heq => h (UInt16.toNat_inj.mp heq)
    exact if_pos (by omega)

/-- **Planner and decoder agree**, whatever the masks: there is room for the whole plan and no
    register in it twice; every planned read has an answer of its length that is recognised, and no
    register that is not planned has one; without controls it is the plan less the registers of the
    controls, but for the charge range. -/
theorem plan_decode_agree (dev : BtDevice) :
    (∀ withControls, (btRegsPlan dev withControls btRegPlanMax).length < btRegPlanMax ∧
      (∀ max, btRegPlanMax ≤ max →
        btRegsPlan dev withControls max = btRegsPlan dev withControls btRegPlanMax) ∧
      ((btRegsPlan dev withControls btRegPlanMax).map BtRegRead.addr).Nodup ∧
      ((btRegsPlan dev withControls btRegPlanMax).flatMap BtRegRead.registers).Nodup) ∧
    (∀ q ∈ btRegsPlan dev true btRegPlanMax, ∃ data : List UInt8,
      data.length = 2 * q.words.toNat ∧
        ∀ now st, 0 < (btRegsApply (some dev) q.addr data now st).1) ∧
    (∀ addr, addr ∉ (btRegsPlan dev true btRegPlanMax).map BtRegRead.addr →
      ∀ data : List UInt8, data.length = 2 →
        ∀ now st, (btRegsApply (some dev) addr data now st).1 = 0) ∧
    btRegsPlan dev false btRegPlanMax =
      (btRegsPlan dev true btRegPlanMax).filter fun q => !decide (IsToggled q.addr) := by
  have hplan := (plan_eq_readsOf dev true (Nat.le_refl _)).1
  refine ⟨fun withControls =>
    ⟨(plan_eq_readsOf dev withControls (Nat.le_refl _)).2, fun max hmax => ?_,
      plan_addrs_nodup dev withControls, plan_registers_nodup dev withControls⟩, fun q hq => ?_,
    fun addr haddr data hlen now st => ?_, plan_without_controls dev⟩
  · rw [(plan_eq_readsOf dev withControls hmax).1,
      (plan_eq_readsOf dev withControls (Nat.le_refl _)).1]
  · -- the row's decoder takes the answer that the row has
    rw [hplan] at hq
    obtain ⟨row, hrow, hholds, rfl⟩ := mem_readsOf.mp hq
    obtain ⟨d, hmem⟩ := exists_decoder hrow
    obtain ⟨data, hlen, htaken⟩ := (decodes_field _ hmem).taken
    refine ⟨data, hlen, fun now st => ?_⟩
    have hd : d ∈ decoders := fieldRows_fst ▸ List.mem_map_of_mem hmem
    rw [regsApply_matched]
    exact matched_pos hd (fun st => htaken dev st hholds) _
  · -- a decoder's register is planned or not there, and the answer holds one register
    rw [regsApply_matched, foldl_decode_none fun d hd st => ?_]
    obtain ⟨row, hrow, hmem⟩ := exists_row hd
    have hdec := decodes_field _ hmem
    by_cases hholds : row.1.holds dev = true
    · have hq : row.2 ∈ btRegsPlan dev true btRegPlanMax := by
        rw [hplan]
        exact mem_readsOf.mpr ⟨row, hrow, hholds, rfl⟩
      have hne : row.2.addr ≠ addr := fun heq => haddr (heq ▸ List.mem_map_of_mem hq)
      exact hdec.missing dev _ st (reg_other hlen hne)
    · exact hdec.absent dev _ st (by simpa using hholds)

/-! ## 5. A control and its read-back -/

/-- The decoder reads the control back: of a register's values it takes those that are allowed, and
    the control then has them. -/
structure ReadsBack (c : BtControl) (d : Decoder) : Prop where
  mem : (d, (Presence.control c.bit, ⟨c.reg, 1⟩)) ∈ fieldRows
  range : ∀ value, btControlValid c value = true → 0 ≤ value ∧ value < 65536
  taken : ∀ dev r st (v : Nat), dev.hasControl c.bit = true → r c.reg = some v →
    btControlValid c v = true → ∃ st', d dev r st = some st' ∧ btControlCurrent c st' = v
  refused : ∀ dev r st (v : Nat), r c.reg = some v → btControlValid c v = false → d dev r st = none

/-! The values a control may have, as each kind is written down. -/

theorem valid_bool {c : BtControl} (h : c.kind = .bool) (value : Int) :
    btControlValid c value = true ↔ ∃ v : Nat, value = v ∧ v ≤ 1 := by
  simp only [btControlValid, h, Bool.or_eq_true, beq_iff_eq]
  constructor
  · intro hv
    exact ⟨value.toNat, by omega, by omega⟩
  · rintro ⟨v, rfl, hv⟩
    omega

theorem valid_range {c : BtControl} {lo hi : Nat} (h : c.kind = .range)
    (hints : parseInts c.allowed 8 = [lo, hi]) (value : Int) :
    btControlValid c value = true ↔ ∃ v : Nat, value = v ∧ lo ≤ v ∧ v ≤ hi := by
  simp only [btControlValid, h, hints, Bool.and_eq_true, decide_eq_true_eq]
  constructor
  · intro hv
    exact ⟨value.toNat, by omega, by omega⟩
  · rintro ⟨v, rfl, hv⟩
    omega

theorem valid_enum {c : BtControl} {l : List Nat} (h : c.kind = .enum)
    (hints : parseInts c.allowed 8 = l) (value : Int) :
    btControlValid c value = true ↔ ∃ v : Nat, value = v ∧ v ∈ l := by
  simp only [btControlValid, h, hints, List.any_eq_true, beq_iff_eq]
  constructor
  · rintro ⟨v, hv, rfl⟩
    exact ⟨v, rfl, hv⟩
  · rintro ⟨v, rfl, hv⟩
    exact ⟨v, hv, rfl⟩

theorem readsBack_control {c : BtControl} {P : Nat → Prop}
    (hvalid : ∀ value, btControlValid c value = true ↔ ∃ v : Nat, value = v ∧ P v)
    (hfits : ∀ v, P v → v < 65536) {accept : Nat → Bool} {set : Int → BluettiState → BluettiState}
    (i : Nat) (hi : fieldRows[i]? =
      some (control c.bit c.reg accept set, (Presence.control c.bit, ⟨c.reg, 1⟩)))
    (haccept : ∀ v, accept v = true ↔ P v)
    (hset : ∀ (v : Nat) st, btControlCurrent c (set v st) = v) : ∃ d, ReadsBack c d := by
  have hiff : ∀ v : Nat, btControlValid c v = accept v := by
    intro v
    rw [Bool.eq_iff_iff, hvalid, haccept]
    constructor
    · rintro ⟨u, heq, hu⟩
      exact Int.ofNat.inj heq ▸ hu
    · exact fun h => ⟨v, rfl, h⟩
  refine ⟨_, List.mem_of_getElem? hi, fun value h => ?_, fun dev r st v hdev hr h => ?_,
    fun dev r st v hr h => ?_⟩
  · obtain ⟨v, rfl, hv⟩ := (hvalid value).mp h
    have := hfits v hv
    omega
  · refine ⟨set v st, ?_, hset v st⟩
    unfold control oneReg
    rw [if_pos hdev, hr]
    simp only [hiff v ▸ h, if_true]
  · unfold control oneReg
    rw [hr]
    simp only [hiff v ▸ h, Bool.false_eq_true, if_false]
    split <;> rfl

/-- No control is derived, seeded or stamped. -/
theorem raw_current (c : BtControl) : Raw (btControlCurrent c) :=
  ⟨fun _ _ => rfl, fun _ _ => rfl, fun _ _ => rfl, fun _ _ => rfl, fun _ _ => rfl, fun _ _ => rfl,
    fun _ _ => rfl⟩

/-- **Every control is read back.** -/
theorem readsBack_controls : ∀ c ∈ btControls, ∃ d, ReadsBack c d := by
  have hswitch : ∀ v, isSwitch v = true ↔ v ≤ 1 := by
    intro v
    simp only [isSwitch, Bool.or_eq_true, beq_iff_eq]
    omega
  have hmode : ∀ v, (decide (1 ≤ v) && decide (v ≤ 4)) = true ↔ v ∈ [1, 2, 3, 4] := by
    intro v
    simp only [Bool.and_eq_true, decide_eq_true_eq, List.mem_cons, List.not_mem_nil, or_false]
    omega
  have hdisplay : ∀ v, (decide (2 ≤ v) && decide (v ≤ 5)) = true ↔ v ∈ [2, 3, 4, 5] := by
    intro v
    simp only [Bool.and_eq_true, decide_eq_true_eq, List.mem_cons, List.not_mem_nil, or_false]
    omega
  have hsoc : ∀ v, decide (v ≤ 100) = true ↔ 0 ≤ v ∧ v ≤ 100 := by
    intro v
    rw [decide_eq_true_eq]
    omega
  have hbool : ∀ v, v ≤ 1 → v < 65536 := fun v h => by omega
  have hpercent : ∀ v, 0 ≤ v ∧ v ≤ 100 → v < 65536 := fun v h => by omega
  simp only [btControls, List.forall_mem_cons]
  and_intros
  · exact readsBack_control (valid_bool rfl) hbool 11 rfl hswitch fun _ _ => rfl
  · exact readsBack_control (valid_bool rfl) hbool 12 rfl hswitch fun _ _ => rfl
  · exact readsBack_control (valid_bool rfl) hbool 13 rfl hswitch fun _ _ => rfl
  · exact readsBack_control (valid_bool rfl) hbool 14 rfl hswitch fun _ _ => rfl
  · exact readsBack_control (valid_enum rfl (l := [1, 2, 3, 4]) (by decide)) (by decide) 16 rfl
      hmode
      fun _ _ => rfl
  · exact readsBack_control (valid_enum rfl (l := [1, 2, 3, 4]) (by decide)) (by decide) 17 rfl
      hmode
      fun _ _ => rfl
  · exact readsBack_control (valid_enum rfl (l := [0, 1, 2, 4]) (by decide)) (by decide) 18 rfl
      (fun v => List.contains_iff_mem) fun _ _ => rfl
  · exact readsBack_control (valid_bool rfl) hbool 15 rfl hswitch fun _ _ => rfl
  · exact readsBack_control (valid_range rfl (by decide)) hpercent 20 rfl hsoc fun _ _ => rfl
  · exact readsBack_control (valid_range rfl (by decide)) hpercent 21 rfl hsoc fun _ _ => rfl
  · exact readsBack_control (valid_enum rfl (l := [2, 3, 4, 5]) (by decide)) (by decide) 19 rfl
      hdisplay fun _ _ => rfl
  · exact List.forall_mem_nil _

/-- An answer with the control's register is decoded by its decoder alone. -/
theorem foldl_decode_only {dev : BtDevice} {r : UInt16 → Option Nat} {p : Decoder × FieldRow}
    (hp : p ∈ fieldRows) (hother : ∀ addr, addr ≠ p.2.2.addr → r addr = none)
    (acc : Nat × BluettiState) : decoders.foldl (decode dev r) acc = decode dev r acc p.1 := by
  have hnodup : (fieldRows.map fun q => q.2.2.addr).Nodup := by decide
  have hdec := decodes_field
  rw [← fieldRows_fst]
  obtain ⟨pre, post, heq⟩ := List.append_of_mem hp
  rw [heq] at hnodup hdec ⊢
  rw [List.map_append, List.map_cons, List.perm_middle.nodup_iff, List.nodup_cons,
    ← List.map_append] at hnodup
  have hnone : ∀ q ∈ pre ++ post, ∀ st, q.1 dev r st = none := by
    intro q hq st
    have hne : q.2.2.addr ≠ p.2.2.addr := fun h => hnodup.1 (h ▸ List.mem_map_of_mem hq)
    refine (hdec q ?_).missing dev r st (hother _ hne)
    simp only [List.mem_append, List.mem_cons] at hq ⊢
    exact hq.imp_right .inr
  rw [List.map_append, List.map_cons, List.foldl_append, List.foldl_cons,
    foldl_decode_none (l := pre.map Prod.fst) fun d hd st => ?_,
    foldl_decode_none (l := post.map Prod.fst) fun d hd st => ?_]
  · obtain ⟨q, hq, rfl⟩ := List.mem_map.mp hd
    exact hnone q (List.mem_append_right _ hq) st
  · obtain ⟨q, hq, rfl⟩ := List.mem_map.mp hd
    exact hnone q (List.mem_append_left _ hq) st

/-- What a control reads after an answer with its register: the value, where it is allowed, else
    what it read before. -/
theorem current_regsApply {c : BtControl} (hc : c ∈ btControls) {dev : BtDevice}
    (hdev : dev.hasControl c.bit = true) (w : UInt16) (now : Int) (st : BluettiState) :
    btControlCurrent c (btRegsApply (some dev) c.reg (wordBytes w) now st).2 =
      if btControlValid c w.toNat then (w.toNat : Int) else btControlCurrent c st := by
  obtain ⟨d, hback⟩ := readsBack_controls c hc
  have hreg := reg_wordBytes c.reg w
  rw [regsApply_eq (raw_current c), Option.getD_some, foldl_decode_only hback.mem fun addr h =>
    reg_other rfl h]
  unfold decode
  by_cases hvalid : btControlValid c w.toNat = true
  · obtain ⟨st', hst', hcur⟩ := hback.taken dev _ (seedCapacity dev st) _ hdev hreg hvalid
    simp only [hst', hvalid, if_true]
    exact hcur
  · rw [if_neg hvalid]
    simp only [hback.refused dev _ (seedCapacity dev st) _ hreg (by simpa using hvalid)]
    exact (raw_current c).seedCapacity dev st

/-- **A write is allowed exactly when its read-back is**: the value fits a register, and the answer
    with it makes the control, unknown so far, read as that value. -/
theorem valid_iff_readBack {c : BtControl} (hc : c ∈ btControls) {dev : BtDevice}
    (hdev : dev.hasControl c.bit = true) {st : BluettiState} (hst : btControlCurrent c st = -1)
    (now value : Int) : btControlValid c value = true ↔ ∃ w : UInt16, value = w.toNat ∧
      btControlCurrent c (btRegsApply (some dev) c.reg (wordBytes w) now st).2 = value := by
  obtain ⟨d, hback⟩ := readsBack_controls c hc
  constructor
  · intro hvalid
    obtain ⟨hlo, hhi⟩ := hback.range value hvalid
    have hw : value = (UInt16.ofNat value.toNat).toNat := by
      rw [UInt16.toNat_ofNat']
      omega
    refine ⟨_, hw, ?_⟩
    rw [current_regsApply hc hdev, ← hw, if_pos hvalid]
  · rintro ⟨w, rfl, hcur⟩
    rw [current_regsApply hc hdev, hst] at hcur
    split at hcur
    · assumption
    · omega

theorem chargingMode_readBack : btControlValid
    ⟨"charging_mode", regCtrlChargingMode, btCChargeMode, .enum, "0,1,2,4"⟩ 2 = true ↔
      ∃ w : UInt16, (2 : Int) = w.toNat ∧ btControlCurrent
        ⟨"charging_mode", regCtrlChargingMode, btCChargeMode, .enum, "0,1,2,4"⟩
        (btRegsApply (some ⟨"EL10", fElite, cFull ||| btCDisplay, 128⟩) regCtrlChargingMode
          (wordBytes w) 0 (stateReset 20)).2 = 2 :=
  valid_iff_readBack (c := ⟨"charging_mode", regCtrlChargingMode, btCChargeMode, .enum, "0,1,2,4"⟩)
    (by simp [btControls]) (by decide) rfl 0 2

/-! ## 6. Names -/

/-- The model's name and nothing but digits after it. -/
def NamedAfter (d : BtDevice) (name : String) : Prop :=
  ∃ digits : List Char, (∀ ch ∈ digits, ch.isDigit = true) ∧ name.toList = d.name.toList ++ digits

theorem nameMatches_iff (d : BtDevice) (name : String) :
    nameMatches name.toList d = true ↔ NamedAfter d name := by
  unfold nameMatches NamedAfter
  rw [Bool.and_eq_true, List.isPrefixOf_iff_prefix, List.all_eq_true]
  constructor
  · rintro ⟨⟨digits, heq⟩, hdigits⟩
    refine ⟨digits, ?_, heq.symm⟩
    rwa [← heq, ← String.length_toList, List.drop_left] at hdigits
  · rintro ⟨digits, hdigits, heq⟩
    refine ⟨⟨digits, heq.symm⟩, ?_⟩
    rwa [heq, ← String.length_toList, List.drop_left]

/-- One of two models that a name is after is after the other. -/
theorem named_apart {d d' : BtDevice} {name : String} (h : NamedAfter d name)
    (h' : NamedAfter d' name) : NamedAfter d d'.name ∨ NamedAfter d' d.name := by
  obtain ⟨digits, hdigits, heq⟩ := h
  obtain ⟨digits', hdigits', heq'⟩ := h'
  rcases List.append_eq_append_iff.mp (heq.symm.trans heq') with ⟨t, ht, htail⟩ | ⟨t, ht, htail⟩
  · exact .inl ⟨t, fun ch hch => hdigits ch (htail ▸ List.mem_append_left _ hch), ht⟩
  · exact .inr ⟨t, fun ch hch => hdigits' ch (htail ▸ List.mem_append_left _ hch), ht⟩

/-- **No name is after two models.** -/
theorem named_unique {d d' : BtDevice} (hd : d ∈ devices) (hd' : d' ∈ devices) {name : String}
    (h : NamedAfter d name) (h' : NamedAfter d' name) : d = d' := by
  have htable : ∀ d ∈ devices, ∀ d' ∈ devices, nameMatches d'.name.toList d = true → d = d' := by
    decide
  rcases named_apart h h' with h | h
  · exact htable d hd d' hd' ((nameMatches_iff d d'.name).mpr h)
  · exact (htable d' hd' d hd ((nameMatches_iff d' d.name).mpr h)).symm

/-- `bt_device_lookup`, in a table in any order. -/
def lookupIn (table : List BtDevice) (name : String) : Option BtDevice :=
  if name.isEmpty then none else table.find? (nameMatches name.toList)

theorem lookupIn_iff {table : List BtDevice} (h : table.Perm devices) (name : String)
    (d : BtDevice) :
    lookupIn table name = some d ↔ d ∈ devices ∧ NamedAfter d name := by
  have hnonempty : ∀ d ∈ devices, d.name.toList ≠ [] := by decide
  unfold lookupIn
  constructor
  · intro hfind
    split at hfind
    · cases hfind
    · exact ⟨h.mem_iff.mp (List.mem_of_find?_eq_some hfind),
        (nameMatches_iff d name).mp (List.find?_some hfind)⟩
  · rintro ⟨hd, hnamed⟩
    have hmatch := (nameMatches_iff d name).mpr hnamed
    have hname : ¬ name.isEmpty = true := by
      obtain ⟨digits, -, heq⟩ := hnamed
      intro hempty
      rw [String.isEmpty_iff.mp hempty] at heq
      exact hnonempty d hd (List.append_eq_nil_iff.mp heq.symm).1
    rw [if_neg hname]
    cases hfind : table.find? (nameMatches name.toList) with
    | none => exact absurd hmatch (List.find?_eq_none.mp hfind d (h.mem_iff.mpr hd))
    | some d' =>
        have hd' := h.mem_iff.mp (List.mem_of_find?_eq_some hfind)
        rw [named_unique hd' hd ((nameMatches_iff d' name).mp (List.find?_some hfind)) hnamed]

/-- **The model of a name** is the one the name is after, of which there is no more than one, in
    whatever order the table is. -/
theorem deviceLookup_iff (name : String) :
    (∀ d, btDeviceLookup name = some d ↔ d ∈ devices ∧ NamedAfter d name) ∧
      (∀ d ∈ devices, ∀ d' ∈ devices, NamedAfter d name → NamedAfter d' name → d = d') ∧
      ∀ table : List BtDevice, table.Perm devices → lookupIn table name = btDeviceLookup name := by
  refine ⟨lookupIn_iff (List.Perm.refl _) name, fun d hd d' hd' => named_unique hd hd',
    fun table h => Option.ext fun d => ?_⟩
  rw [lookupIn_iff h]
  exact (lookupIn_iff (List.Perm.refl _) name d).symm

end NutBluetti.Ble
