/-
  File:      NutBluetti/Ble/Readings.lean
  Subject:   WHAT A PUBLISHED READING IS: the state that `session_regs` hands to the callback,
             against the one that `bluetti_ble_get_state` copies.

  * `Fresh now st` -- decoded at `now`, with the mains as its own fields have it;
  * `Named` -- on a link, a unit whose model is known has been looked up;
  * **`reading_step`** -- a step of the poll loop either publishes a reading, which is fresh and is
    the state now; or it publishes none, and the state is then no newer than before.
-/
import NutBluetti.Ble.RegsTables
import NutBluetti.Ble.PollSweep

namespace NutBluetti.Ble

/-! ## 1. Decoding -/

section Decoding

variable {dev : BtDevice} {r : UInt16 → Option Nat} {l : List Decoder}

/-- Where nothing is counted, nothing is decoded. -/
theorem foldl_decode_uncounted {acc : Nat × BluettiState}
    (h : (l.foldl (decode dev r) acc).1 = acc.1) : l.foldl (decode dev r) acc = acc := by
  induction l generalizing acc with
  | nil => rfl
  | cons d l ih =>
      rw [List.foldl_cons] at h ⊢
      cases hd : d dev r acc.2 with
      | none =>
          rw [show decode dev r acc d = acc by simp only [decode, hd]] at h ⊢
          exact ih h
      | some st =>
          have hle : (decode dev r acc d).1 ≤ (l.foldl (decode dev r) (decode dev r acc d)).1 :=
            le_matched _
          rw [show decode dev r acc d = (acc.1 + 1, st) by simp only [decode, hd]] at h hle
          exact absurd hle (by omega)

end Decoding

/-- A state decoded at `now`: it is valid, stamped, and the mains is inferred from what stands
    beside it. -/
structure Fresh (now : Int) (st : BluettiState) : Prop where
  valid : st.valid = true
  stamp : st.updatedUs = now
  mains : st.acInputPresent = true ↔ 0 < st.acInWatts ∨ 0 < st.acInVolts

/-- A state with no newer reading in it than `st` has. -/
structure NoNewer (st st' : BluettiState) : Prop where
  valid : st'.valid = st.valid
  stamp : st'.updatedUs = st.updatedUs

theorem noNewer_seedCapacity (dev : BtDevice) (st : BluettiState) :
    NoNewer st (seedCapacity dev st) ∧ (seedCapacity dev st).model = st.model := by
  unfold seedCapacity
  split <;> exact ⟨⟨rfl, rfl⟩, rfl⟩

theorem Fresh.seedCapacity {now : Int} {st : BluettiState} (h : Fresh now st) (dev : BtDevice) :
    Fresh now (seedCapacity dev st) := by
  unfold Ble.seedCapacity
  split
  · exact ⟨h.valid, h.stamp, h.mains⟩
  · exact h

theorem mains_recompute (st : BluettiState) :
    (recompute st).acInputPresent = true ↔
      0 < (recompute st).acInWatts ∨ 0 < (recompute st).acInVolts := by
  rw [raw_acInWatts.recompute, raw_acInVolts.recompute]
  have hin : ∀ st, (netFlow (inferMains st)).acInputPresent = true ↔
      0 < st.acInWatts ∨ 0 < st.acInVolts := by
    intro st
    unfold netFlow
    split <;> simp [inferMains]
  have hsums : (sumInputs (sumOutputs st)).acInWatts = st.acInWatts ∧
      (sumInputs (sumOutputs st)).acInVolts = st.acInVolts := by
    unfold sumInputs sumOutputs
    split <;> split <;> exact ⟨rfl, rfl⟩
  rw [← hsums.1, ← hsums.2]
  exact hin _

/-- **`bt_regs_apply`** makes the state a fresh one, or decodes nothing of it. -/
theorem regsApply_cases (dev : Option BtDevice) (start : UInt16) (data : List UInt8) (now : Int)
    (st : BluettiState) :
    (0 < (btRegsApply dev start data now st).1 ∧ Fresh now (btRegsApply dev start data now st).2) ∨
      ((btRegsApply dev start data now st).1 = 0 ∧
        (btRegsApply dev start data now st).2 = seedCapacity (dev.getD btDeviceGeneric) st) := by
  unfold btRegsApply
  simp only
  split
  · rename_i hpos
    exact .inl ⟨hpos, rfl, rfl, mains_recompute _⟩
  · rename_i hpos
    have hzero := Nat.eq_zero_of_not_pos hpos
    refine .inr ⟨hzero, ?_⟩
    exact congrArg Prod.snd (foldl_decode_uncounted hzero)

/-! ## 2. `session_regs` -/

variable {κ : Type} {env : Env κ}

/-- No device is chosen for as long as the unit has not named itself. -/
def BluettiBle.Named (b : BluettiBle κ) : Prop := b.device = none → b.state.model = ""

theorem not_unnamed_of_named {b : BluettiBle κ} (h : b.Named) : b.unnamed = false := by
  unfold BluettiBle.unnamed
  cases hd : b.device with
  | some dev => rfl
  | none =>
      rw [h hd]
      decide

theorem named_of_not_unnamed {b : BluettiBle κ} (h : b.unnamed = false) : b.Named := by
  intro hd
  unfold BluettiBle.unnamed at h
  rw [hd] at h
  have hempty : b.state.model.isEmpty = true := by simpa using h
  exact String.isEmpty_iff.mp hempty

/-- The end of `session_regs` touches none of it. -/
theorem fresh_settle {b : BluettiBle κ} {now : Int} (h : Fresh now b.state) :
    Fresh now b.settle.state := ⟨h.valid, h.stamp, h.mains⟩

/-- **A call of `session_regs`**: a reading that is recognised leaves a fresh state; one that is not
    leaves the state as old as it was. -/
theorem sessionRegs_state {b : BluettiBle κ} (hb : b.Named) (addr : UInt16) (data : List UInt8)
    (now : Int) :
    (sessionRegs b addr data now).2.Named ∧
      ((0 < (sessionRegs b addr data now).1 ∧ Fresh now (sessionRegs b addr data now).2.state) ∨
        ((sessionRegs b addr data now).1 = 0 ∧
          NoNewer b.state (sessionRegs b addr data now).2.state)) := by
  have hcount : (sessionRegs b addr data now).1 = (btRegsApply b.device addr data now b.state).1 :=
    rfl
  have hfirst : (b.applyRegs addr data now).2.state =
      (btRegsApply b.device addr data now b.state).2 := rfl
  rw [hcount]
  rcases regsApply_cases b.device addr data now b.state with ⟨hpos, hfresh⟩ | ⟨hzero, hseed⟩
  · rw [← hfirst] at hfresh
    cases hu : (b.applyRegs addr data now).2.unnamed with
    | true =>
        -- the unit names itself, and the same registers are applied for its own model
        have hregs : (sessionRegs b addr data now).2 =
            (((b.applyRegs addr data now).2.identify.applyRegs addr data now).2).settle := by
          unfold sessionRegs
          simp only [hu, if_true]
        rw [hregs]
        refine ⟨fun hd => ?_, .inl ⟨hpos, fresh_settle ?_⟩⟩
        · have hsome : (some ((btDeviceLookup (b.applyRegs addr data now).2.state.model).getD
            btDeviceGeneric) : Option BtDevice) = none := hd
          cases hsome
        · rcases regsApply_cases (b.applyRegs addr data now).2.identify.device addr data now
            (b.applyRegs addr data now).2.identify.state with ⟨-, hagain⟩ | ⟨-, hkept⟩
          · exact hagain
          · show Fresh now (btRegsApply _ addr data now _).2
            rw [hkept]
            exact hfresh.seedCapacity _
    | false =>
        have hregs : (sessionRegs b addr data now).2 = (b.applyRegs addr data now).2.settle := by
          unfold sessionRegs
          simp only [hu, Bool.false_eq_true, if_false]
        rw [hregs]
        exact ⟨named_of_not_unnamed hu, .inl ⟨hpos, fresh_settle hfresh⟩⟩
  · obtain ⟨hnew, hmodel⟩ := noNewer_seedCapacity (b.device.getD btDeviceGeneric) b.state
    rw [← hseed, ← hfirst] at hnew hmodel
    have hnamed : (b.applyRegs addr data now).2.Named := fun hd => hmodel.trans (hb hd)
    have hregs : (sessionRegs b addr data now).2 = (b.applyRegs addr data now).2.settle := by
      unfold sessionRegs
      simp only [not_unnamed_of_named hnamed, Bool.false_eq_true, if_false]
    rw [hregs]
    exact ⟨hnamed, .inr ⟨hzero, hnew.valid, hnew.stamp⟩⟩

/-! ## 3. The poll loop -/

/-- The reading that a step published. -/
def published (before after : Poll κ) : Option RegsCall :=
  (after.calls.drop before.calls.length).find? RegsCall.published

/-- The clock that a step of the poll loop read. -/
def stamped : PollEv → Option Int
  | .tick nowUs => some nowUs
  | .mark nowUs => some nowUs
  | .answer _ _ nowUs => some nowUs
  | _ => none

/-- On a link, a unit that named itself has been looked up. -/
def Named (s : Poll κ) : Prop := s.link = true → s.b.Named

/-- **A reading is published**: it is the state now, fresh, and the last call on record. -/
structure Publishes (s p : Poll κ) (e : PollEv) (c : RegsCall) : Prop where
  it : published s p = some c
  last : p.calls = s.calls ++ [c]
  marked : c.published = true
  state : c.state = p.b.state
  fresh : ∃ now, stamped e = some now ∧ Fresh now c.state

/-- Nothing is published, and the state is as it was or not valid. -/
structure Silent (s p : Poll κ) : Prop where
  it : published s p = none
  state : p.b.state.valid = false ∨ NoNewer s.b.state p.b.state
  calls : p.calls = s.calls ∨ ∃ c, p.calls = s.calls ++ [c] ∧ c.published = false

theorem published_of_same {s p : Poll κ} (h : p.calls = s.calls) : published s p = none := by
  unfold published
  rw [h, List.drop_length]
  rfl

theorem published_snoc {s p : Poll κ} {c : RegsCall} (h : p.calls = s.calls ++ [c]) :
    published s p = if c.published then some c else none := by
  unfold published
  rw [h, List.drop_left]
  cases hp : c.published <;> simp [List.find?, hp]

theorem Silent.frame {s p : Poll κ} (hcalls : p.calls = s.calls) (hstate : p.b.state = s.b.state) :
    Silent s p :=
  ⟨published_of_same hcalls, .inr ⟨by rw [hstate], by rw [hstate]⟩, .inl hcalls⟩

/-- What a step neither of the link nor of the decoder leaves alone. -/
theorem Named.frame {s p : Poll κ} (hI : Named s) (hlink : p.link = s.link)
    (hdev : p.b.device = s.b.device) (hstate : p.b.state = s.b.state) : Named p := by
  intro hl hd
  rw [hstate]
  exact hI (hlink ▸ hl) (hdev ▸ hd)

/-- **Register data**: it is published as it was recognised. -/
theorem reading_regs {s : Poll κ} {q : Issued} {f : BtRegRead} {label : UInt16} {data : List UInt8}
    {now : Int} (hb : s.b.Named) {e : PollEv} (he : stamped e = some now) :
    Named (s.regs q f label data now) ∧ ((∃ c, Publishes s (s.regs q f label data now) e c) ∨
      Silent s (s.regs q f label data now)) := by
  obtain ⟨hnamed, hcases⟩ := sessionRegs_state hb label data now
  refine ⟨fun _ => hnamed, ?_⟩
  rcases hcases with ⟨hpos, hfresh⟩ | ⟨hzero, hold⟩
  · have hmark : decide (0 < (sessionRegs s.b label data now).1) = true := decide_eq_true hpos
    exact .inl ⟨_, (published_snoc rfl).trans (if_pos hmark), rfl, hmark, rfl, now, he, hfresh⟩
  · have hmark : decide (0 < (sessionRegs s.b label data now).1) = false := by
      rw [hzero]
      rfl
    refine .inr ⟨(published_snoc rfl).trans (if_neg fun ht => ?_), .inr hold, .inr ⟨_, rfl, hmark⟩⟩
    have ht : decide (0 < (sessionRegs s.b label data now).1) = true := ht
    rw [hmark] at ht
    cases ht

theorem Named.tick {s : Poll κ} (now : Int) :
    (s.tick now).link = s.link ∧ (s.tick now).calls = s.calls ∧
      (s.tick now).b.device = s.b.device ∧ (s.tick now).b.state = s.b.state := by
  obtain ⟨hlink, hcalls, hb⟩ : (s.tick now).link = s.link ∧ (s.tick now).calls = s.calls ∧
      (s.tick now).b = (pollTick s.b now).1 := by
    unfold Poll.tick
    simp only
    split <;> exact ⟨rfl, rfl, rfl⟩
  rw [hb]
  rcases pollTick_cases (show pollTick s.b now = (_, _) from rfl) with
    ⟨hs, -⟩ | ⟨f, -, -, -, -, -, -, hdev, hstate⟩
  · exact ⟨hlink, hcalls, hs.device, hs.state⟩
  · exact ⟨hlink, hcalls, hdev, hstate⟩

/-- **One step of the poll loop** publishes a reading or none. -/
theorem reading_step {s p : Poll κ} {e : PollEv} (hI : Named s) (h : s.step env e = some p) :
    Named p ∧ ((∃ c, Publishes s p e c) ∨ Silent s p) := by
  have hquiet : p.link = s.link → p.calls = s.calls → p.b.device = s.b.device →
      p.b.state = s.b.state → Named p ∧ ((∃ c, Publishes s p e c) ∨ Silent s p) :=
    fun hlink hcalls hdev hstate =>
      ⟨hI.frame hlink hdev hstate, .inr (.frame hcalls hstate)⟩
  cases e with
  | tick now =>
      obtain ⟨-, rfl⟩ := Poll.step_tick h
      obtain ⟨hlink, hcalls, hdev, hstate⟩ := Named.tick (s := s) now
      exact hquiet hlink hcalls hdev hstate
  | send =>
      obtain ⟨q, -, rfl⟩ := Poll.step_send h
      exact hquiet rfl rfl rfl rfl
  | mark now =>
      obtain ⟨-, rfl⟩ := Poll.step_mark h
      exact hquiet rfl rfl rfl rfl
  | answer i data now =>
      obtain ⟨q, -, h⟩ := Option.bind_eq_some_iff.mp h
      obtain ⟨hlink, sess, -, ⟨f, regs, -, -, rfl⟩ | ⟨-, rfl⟩⟩ := Poll.answer_cases h
      · -- the session alone has changed since `s`
        have hb : (s.received sess i).b.Named := hI hlink
        have he : stamped (.answer i data now) = some now := rfl
        refine ⟨(reading_regs hb he).1, ?_⟩
        have hread : (∃ c, Publishes (s.received sess i) ((s.received sess i).regs q f
            s.b.session.pendingAddr regs now) (.answer i data now) c) ∨
            Silent (s.received sess i) ((s.received sess i).regs q f
              s.b.session.pendingAddr regs now) := (reading_regs hb he).2
        rcases hread with ⟨c, hc⟩ | hs
        · exact .inl ⟨c, hc.it, hc.last, hc.marked, hc.state, hc.fresh⟩
        · exact .inr ⟨hs.it, hs.state, hs.calls⟩
      · exact hquiet rfl rfl rfl rfl
  | exception i data =>
      obtain ⟨-, sess, -, rfl⟩ := Poll.step_exception h
      exact hquiet rfl rfl rfl rfl
  | notify data =>
      obtain ⟨-, sess, -, rfl⟩ := Poll.feedQuiet_cases h
      exact hquiet rfl rfl rfl rfl
  | lose i =>
      obtain ⟨-, rfl⟩ := Poll.step_lose h
      exact hquiet rfl rfl rfl rfl
  | kexTimer =>
      obtain rfl := Option.some.inj h
      have hsame : (kexTimerCb s.b).device = s.b.device ∧ (kexTimerCb s.b).state = s.b.state := by
        unfold kexTimerCb
        split <;> exact ⟨rfl, rfl⟩
      exact hquiet rfl rfl hsame.1 hsame.2
  | connect =>
      obtain rfl := Option.some.inj h
      exact ⟨fun _ _ => rfl, .inr ⟨published_of_same rfl, .inl rfl, .inl rfl⟩⟩
  | disconnect =>
      obtain rfl := Option.some.inj h
      exact ⟨fun hl => (by cases hl), .inr (.frame rfl rfl)⟩
  | subscribed =>
      obtain rfl := Option.some.inj h
      exact hquiet rfl rfl rfl rfl
  | setControls on =>
      have hsame : (bluettiBleSetControls s.b on).device = s.b.device ∧
          (bluettiBleSetControls s.b on).state = s.b.state := by
        rcases setControls_cases s.b on with ⟨-, hb⟩ | ⟨dev, -, hb⟩ <;> rw [hb] <;> exact ⟨rfl, rfl⟩
      have hp : p = s.rebuilt (bluettiBleSetControls s.b on) ∨
          p = s.withB (bluettiBleSetControls s.b on) := by
        rw [← Option.some.inj h]
        split
        · exact .inl rfl
        · exact .inr rfl
      rcases hp with rfl | rfl
      · exact hquiet rfl rfl hsame.1 hsame.2
      · exact hquiet rfl rfl hsame.1 hsame.2
  | writeControl field value =>
      obtain rfl := Option.some.inj h
      obtain ⟨q, hq⟩ := writeControl_cases s.b field value
      rw [hq] at hquiet ⊢
      exact hquiet rfl rfl rfl rfl

end NutBluetti.Ble
