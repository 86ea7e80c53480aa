/-
  File:      NutBluetti/Ble/ControlValues.lean
  Subject:   THE VALUES OF THE CONTROLS over whole runs of the loop, and what
             `bluetti_ble_write_control` makes of a write in a state that a run reaches.

  A control is decoded by one `if` of `bt_regs_apply`, and every other leaves it alone, whatever the
  answer covers; so that each read keeps what one of them checks.

  * `frame_field` -- a decoder leaves the control of another register as it is;
  * `KnownValues` -- no control has a value that could not be written to it;
  * **`tableInv_run`** -- that is so in every state, and the model is one of the table;
  * **`writeControl_iff`** -- in every state a write is queued exactly if the link is ready and
    controls are on, the model has the control, its value is known, and the new one is allowed: the
    queue has room.
-/
import Mathlib.Data.List.Nodup
import NutBluetti.Ble.Readings
import NutBluetti.Ble.RegsTables
import NutBluetti.Ble.WriteQueue

namespace NutBluetti.Ble

variable {κ : Type} {env : Env κ}

/-! ## 1. One decoder for each control -/

theorem oneReg_some {has : BtDevice → Bool} {addr : UInt16} {accept : Nat → Bool}
    {set : BtDevice → Nat → BluettiState → BluettiState} {dev : BtDevice} {r : UInt16 → Option Nat}
    {st st' : BluettiState} (h : oneReg has addr accept set dev r st = some st') :
    ∃ v, st' = set dev v st := by
  unfold oneReg at h
  split at h
  · split at h
    · split at h
      · exact ⟨_, (Option.some.inj h).symm⟩
      · cases h
    · cases h
  · cases h

/-- A decoder that leaves a control alone. -/
def Leaves (c : BtControl) (d : Decoder) : Prop :=
  ∀ dev r st st', d dev r st = some st' → btControlCurrent c st' = btControlCurrent c st

theorem leaves_oneReg {c : BtControl} {has : BtDevice → Bool} {addr : UInt16} {accept : Nat → Bool}
    {set : BtDevice → Nat → BluettiState → BluettiState}
    (h : ∀ dev v st, btControlCurrent c (set dev v st) = btControlCurrent c st) :
    Leaves c (oneReg has addr accept set) := by
  intro dev r st st' hst
  obtain ⟨v, rfl⟩ := oneReg_some hst
  exact h dev v st

theorem leaves_model (c : BtControl) : Leaves c fun _ r st => (r regDeviceType).map fun _ =>
    { st with model := swapString r regDeviceType 6 24 } := by
  intro dev r st st' hst
  obtain ⟨_, -, rfl⟩ := Option.map_eq_some_iff.mp hst
  rfl

theorem leaves_serial (c : BtControl) : Leaves c decodeSerial := by
  intro dev r st st' hst
  unfold decodeSerial at hst
  split at hst
  · split at hst
    · dsimp only at hst
      split at hst
      · cases hst
      · rw [← Option.some.inj hst]
        rfl
    · cases hst
  · cases hst

/-- **A decoder leaves the controls of other registers alone.** -/
theorem frame_field (c : BtControl) :
    ∀ p ∈ fieldRows, p.2.2.addr ≠ c.reg → Leaves c p.1 := by
  simp only [fieldRows, decoders, decodedRows, List.zip_cons_cons, List.zip_nil_left,
    List.forall_mem_cons]
  and_intros
  all_goals first
    | exact List.forall_mem_nil _
    | exact fun _ => leaves_model c
    | exact fun _ => leaves_serial c
    | exact fun _ => leaves_oneReg fun _ _ _ => rfl
    | exact fun hne => leaves_oneReg fun _ _ _ => by
        simp only [btControlCurrent, hne.symm, if_false]

/-- A control has no value yet, or one that may be written to it. -/
def KnownValue (c : BtControl) (st : BluettiState) : Prop :=
  btControlCurrent c st = -1 ∨ btControlValid c (btControlCurrent c st) = true

/-- **A decoder** sets a control to a value that may be written to it, if it sets it at all. -/
theorem knownValue_decoder {c : BtControl} (hc : c ∈ btControls) {d : Decoder} (hd : d ∈ decoders)
    {dev : BtDevice} {r : UInt16 → Option Nat} {st st' : BluettiState} (h : d dev r st = some st')
    (hknown : KnownValue c st) : KnownValue c st' := by
  obtain ⟨own, hback⟩ := readsBack_controls c hc
  obtain ⟨row, -, hrow⟩ := exists_row hd
  by_cases hreg : row.2.addr = c.reg
  · -- the control's own decoder: it took a value, and takes none that is refused
    have hnodup : (fieldRows.map fun p => p.2.2.addr).Nodup := by decide
    have hown : (d, row) = (own, (Presence.control c.bit, ⟨c.reg, 1⟩)) :=
      List.inj_on_of_nodup_map hnodup hrow hback.mem hreg
    obtain ⟨rfl, rfl⟩ := Prod.mk.inj hown
    have hdec := decodes_field _ hrow
    have hdev : dev.hasControl c.bit = true := by
      cases hno : dev.hasControl c.bit with
      | true => rfl
      | false => exact absurd ((hdec.absent dev r st hno).symm.trans h) (fun heq => by cases heq)
    cases hr : r c.reg with
    | none => exact absurd ((hdec.missing dev r st hr).symm.trans h) (fun heq => by cases heq)
    | some v =>
        cases hv : btControlValid c v with
        | false =>
            rw [hback.refused dev r st v hr hv] at h
            cases h
        | true =>
            obtain ⟨st₁, hst, hcur⟩ := hback.taken dev r st v hdev hr hv
            obtain rfl := Option.some.inj (hst.symm.trans h)
            exact .inr (by rw [hcur]; exact hv)
  · unfold KnownValue
    rw [frame_field c (d, row) hrow hreg dev r st st' h]
    exact hknown

/-- **`bt_regs_apply`**, whatever the answer covers. -/
theorem knownValue_regsApply {c : BtControl} (hc : c ∈ btControls) (dev : Option BtDevice)
    (start : UInt16) (data : List UInt8) (now : Int) {st : BluettiState} (h : KnownValue c st) :
    KnownValue c (btRegsApply dev start data now st).2 := by
  have hfold : ∀ ds : List Decoder, (∀ d ∈ ds, d ∈ decoders) → ∀ acc : Nat × BluettiState,
      KnownValue c acc.2 →
      KnownValue c (ds.foldl (decode (dev.getD btDeviceGeneric) (reg start data)) acc).2 := by
    intro ds
    induction ds with
    | nil => exact fun _ _ hacc => hacc
    | cons d ds ih =>
        intro hds acc hacc
        obtain ⟨hd, hds⟩ := List.forall_mem_cons.mp hds
        refine ih hds _ ?_
        unfold decode
        split
        · rename_i st' hst
          exact knownValue_decoder hc hd hst hacc
        · exact hacc
  have hseed : KnownValue c (seedCapacity (dev.getD btDeviceGeneric) st) := by
    unfold KnownValue
    rw [(raw_current c).seedCapacity]
    exact h
  unfold KnownValue
  rw [regsApply_eq (raw_current c)]
  exact hfold decoders (fun _ hd => hd) _ hseed

/-! ## 2. Over a run -/

/-- **What is shown comes from the tables**: the values of the controls, and the model. -/
structure TableInv (b : BluettiBle κ) : Prop where
  values : ∀ c ∈ btControls, KnownValue c b.state
  model : ∀ dev, b.device = some dev → dev ∈ btDeviceGeneric :: devices

theorem TableInv.frame {b b' : BluettiBle κ} (h : TableInv b) (hstate : b'.state = b.state)
    (hdev : b'.device = b.device) : TableInv b' :=
  ⟨by rw [hstate]; exact h.values, by rw [hdev]; exact h.model⟩

/-- Nothing is known after a reset. -/
theorem knownValue_reset (c : BtControl) (low : Int) : KnownValue c (stateReset low) := by
  refine .inl ?_
  unfold btControlCurrent
  simp only [stateReset, bluettiUnknownI, ite_self]

theorem TableInv.applyRegs {b : BluettiBle κ} (h : TableInv b) (addr : UInt16) (data : List UInt8)
    (now : Int) : TableInv (b.applyRegs addr data now).2 :=
  ⟨fun c hc => knownValue_regsApply hc b.device addr data now (h.values c hc), h.model⟩

/-- The model is looked up in the table. -/
theorem TableInv.identify {b : BluettiBle κ} (h : TableInv b) : TableInv b.identify := by
  refine ⟨h.values, fun dev hdev => ?_⟩
  rw [← (Option.some.inj hdev : (btDeviceLookup b.state.model).getD btDeviceGeneric = dev)]
  cases hlook : btDeviceLookup b.state.model with
  | none => exact List.mem_cons_self
  | some found =>
      unfold btDeviceLookup at hlook
      split at hlook
      · cases hlook
      · exact List.mem_cons_of_mem _ (List.mem_of_find?_eq_some hlook)

theorem TableInv.sessionRegs {b : BluettiBle κ} (h : TableInv b) (addr : UInt16) (data : List UInt8)
    (now : Int) : TableInv (sessionRegs b addr data now).2 := by
  have hfirst := h.applyRegs addr data now
  have hboth : TableInv (if (b.applyRegs addr data now).2.unnamed then
      ((b.applyRegs addr data now).2.identify.applyRegs addr data now).2
      else (b.applyRegs addr data now).2) := by
    split
    · exact hfirst.identify.applyRegs addr data now
    · exact hfirst
  exact ⟨hboth.values, hboth.model⟩

/-- **One step.** -/
theorem tableInv_step (s : Poll κ) (e : PollEv) (p : Poll κ) (hI : TableInv s.b)
    (h : s.step env e = some p) : TableInv p.b := by
  cases e with
  | tick now =>
      obtain ⟨-, rfl⟩ := Poll.step_tick h
      obtain ⟨-, -, hdev, hstate⟩ := Named.tick (s := s) now
      exact hI.frame hstate hdev
  | send =>
      obtain ⟨q, -, rfl⟩ := Poll.step_send h
      exact hI.frame rfl rfl
  | mark now =>
      obtain ⟨-, rfl⟩ := Poll.step_mark h
      exact hI.frame rfl rfl
  | answer i data now =>
      obtain ⟨q, -, h⟩ := Option.bind_eq_some_iff.mp h
      obtain ⟨-, sess, -, ⟨f, regs, -, -, rfl⟩ | ⟨-, rfl⟩⟩ := Poll.answer_cases h
      · have hrecv : TableInv (s.received sess i).b := hI.frame rfl rfl
        exact hrecv.sessionRegs _ regs now
      · exact hI.frame rfl rfl
  | exception i data =>
      obtain ⟨-, sess, -, rfl⟩ := Poll.step_exception h
      exact hI.frame rfl rfl
  | notify data =>
      obtain ⟨-, sess, -, rfl⟩ := Poll.feedQuiet_cases h
      exact hI.frame rfl rfl
  | lose i =>
      obtain ⟨-, rfl⟩ := Poll.step_lose h
      exact hI
  | kexTimer =>
      obtain rfl := Option.some.inj h
      have hsame : (kexTimerCb s.b).state = s.b.state ∧ (kexTimerCb s.b).device = s.b.device := by
        unfold kexTimerCb
        split <;> exact ⟨rfl, rfl⟩
      exact hI.frame hsame.1 hsame.2
  | connect =>
      obtain rfl := Option.some.inj h
      exact ⟨fun c _ => knownValue_reset c _, fun dev hdev => (by cases hdev)⟩
  | disconnect =>
      obtain rfl := Option.some.inj h
      exact ⟨hI.values, fun dev hdev => (by cases hdev)⟩
  | subscribed =>
      obtain rfl := Option.some.inj h
      exact hI.frame rfl rfl
  | setControls on =>
      have hset : TableInv (bluettiBleSetControls s.b on) := by
        rcases setControls_cases s.b on with ⟨-, hb⟩ | ⟨dev, -, hb⟩ <;> rw [hb] <;>
          exact hI.frame rfl rfl
      rw [← Option.some.inj h]
      split <;> exact hset
  | writeControl field value =>
      obtain rfl := Option.some.inj h
      obtain ⟨q, hq⟩ := writeControl_cases s.b field value
      have hset : TableInv (bluettiBleWriteControl s.b field value).2 := by
        rw [hq]
        exact hI.frame rfl rfl
      exact hset

/-- **In every state that is reached.** -/
theorem tableInv_run {controls : Bool} {low : Int} {es : List PollEv} {p : Poll κ}
    (hrun : StepMachine.run (Poll.step env) (Poll.start controls low) es = some p) : TableInv p.b :=
  StepMachine.run_inv (Poll.step env) (I := fun s => TableInv s.b) tableInv_step
    ⟨fun c _ => knownValue_reset c low, fun dev hdev => (by cases hdev)⟩ hrun

/-! ## 3. What is accepted -/

/-- The controls of the model: none before it is known. -/
def BluettiBle.controlMask (b : BluettiBle κ) : UInt16 :=
  match b.device with
  | some dev => dev.controls
  | none => 0

/-- No two controls have one name. -/
theorem lookup_field {c : BtControl} (hc : c ∈ btControls) {field : String} :
    btControlLookup field = some c ↔ c.field = field := by
  have hnodup : (btControls.map BtControl.field).Nodup := by decide
  unfold btControlLookup
  constructor
  · intro h
    have hmatch : (field == c.field) = true := by simpa using List.find?_some h
    exact (beq_iff_eq.mp hmatch).symm
  · intro h
    cases hfind : btControls.find? fun c => field == c.field with
    | none => exact absurd (beq_iff_eq.mpr h.symm) (List.find?_eq_none.mp hfind c hc)
    | some c' =>
        have hmatch : (field == c'.field) = true := by simpa using List.find?_some hfind
        have hname : field = c'.field := beq_iff_eq.mp hmatch
        exact congrArg some (List.inj_on_of_nodup_map hnodup (List.mem_of_find?_eq_some hfind) hc
          (hname.symm.trans h.symm))

/-- A write that is queued passed every check. -/
theorem writeControl_passed {b : BluettiBle κ} {field : String} {value : Int}
    (h : (bluettiBleWriteControl b field value).1 = true) :
    ∃ c dev, btControlLookup field = some c ∧
      b.controls = true ∧ b.device = some dev ∧ dev.hasControl c.bit = true ∧
      (b.connected = true ∧ btSessionReady b.session = true) ∧ 0 ≤ btControlCurrent c b.state ∧
      btControlValid c value = true := by
  unfold bluettiBleWriteControl at h
  split at h
  · cases h
  rename_i c hc
  split at h
  · cases h
  rename_i hvalid
  split at h
  · cases h
  rename_i hon
  split at h
  · cases h
  rename_i dev hdev
  split at h
  · cases h
  rename_i hready
  split at h
  · cases h
  rename_i hbit
  split at h
  · cases h
  rename_i hknown
  exact ⟨c, dev, hc, by simpa using hon, hdev, by simpa using hbit, by simpa using hready,
    Int.not_lt.mp hknown, by simpa using hvalid⟩

/-- **What `bluetti_ble_write_control` queues**, in every state that is reached. -/
theorem writeControl_iff {controls : Bool} {low : Int} {es : List PollEv} {p : Poll κ}
    (hrun : StepMachine.run (Poll.step env) (Poll.start controls low) es = some p) (field : String)
    (value : Int) : (bluettiBleWriteControl p.b field value).1 = true ↔
      p.b.controls = true ∧ p.b.connected = true ∧ btSessionReady p.b.session = true ∧
        ∃ c ∈ btControls, c.field = field ∧ hasBit p.b.controlMask c.bit = true ∧
          0 ≤ btControlCurrent c p.b.state ∧ btControlValid c value = true := by
  have hroom : ∀ c ∈ btControls, ∀ v, (enqueueWrite p.b.writeQueue c.reg v).isSome = true := by
    have hlog : (StepMachine.run (WriteLog.step env) (WriteLog.start controls low) es).map
      WriteLog.poll =
        StepMachine.run (Poll.step env) (Poll.start controls low) es :=
      WriteLog.run_poll (WriteLog.start controls low) es
    rw [hrun] at hlog
    obtain ⟨w, hw, rfl⟩ := Option.map_eq_some_iff.mp hlog
    exact (writeQueue_ordered hw).2.2.2.2.1
  constructor
  · intro h
    obtain ⟨c, dev, hlook, hon, hdev, hbit, hready, hknown, hvalid⟩ := writeControl_passed h
    have hc : c ∈ btControls := List.mem_of_find?_eq_some hlook
    refine ⟨hon, hready.1, hready.2, c, hc, (lookup_field hc).mp hlook, ?_, hknown, hvalid⟩
    unfold BluettiBle.controlMask
    rw [hdev]
    exact hbit
  · intro h
    obtain ⟨hon, hup, hready, c, hc, hname, hbit, hknown, hvalid⟩ := h
    unfold BluettiBle.controlMask at hbit
    cases hdev : p.b.device with
    | none =>
        rw [hdev] at hbit
        simp [hasBit] at hbit
    | some dev =>
        rw [hdev] at hbit
        have hbit : dev.hasControl c.bit = true := hbit
        obtain ⟨q, hq⟩ := Option.isSome_iff_exists.mp (hroom c hc (UInt16.ofInt value))
        unfold bluettiBleWriteControl
        simp only [(lookup_field hc).mpr hname, hvalid, hon, hdev, hup, hready, hbit, hq,
          Int.not_lt.mpr hknown, Bool.not_true, Bool.or_self, Bool.false_eq_true, if_false]

end NutBluetti.Ble
