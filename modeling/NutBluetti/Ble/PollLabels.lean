/-
  File:      NutBluetti/Ble/PollLabels.lean
  Subject:   WHICH REGISTER AN ANSWER IS APPLIED TO. A Modbus answer carries no address: it is
             labelled with the address of the request that was sent last.

  * `LabelsRight` -- every answer was labelled with the address of the read that elicited it;
  * **`late_answer_mislabelled`** -- a read given up after six seconds, answered after the next was
    sent;
  * `NoneStale` -- the condition: a request goes out only when no read of another register is still
    owed its answer;
  * **`labelsRight_of_noneStale`** -- every run that meets it labels every answer right.
-/
import NutBluetti.Lib.StepMachine
import NutBluetti.Ble.PollSpec

namespace NutBluetti.Ble

variable {κ : Type} {env : Env κ}

/-! ## 1. The property and the condition -/

/-- **Every answer was labelled with the start address of the read that elicited it.** -/
def LabelsRight (s : Poll κ) : Prop :=
  ∀ c ∈ s.calls, c.elicited.req.isRead = true ∧ c.label = c.elicited.req.addr

/-- A request that the session will take goes out only when each read still owed its answer has the
    same start address. -/
def NoneStale (s : Poll κ) : PollEv → Prop
  | .send =>
      match s.timer with
      | .send q =>
          btSessionReady s.b.session = true →
            ∀ r ∈ s.owed, r.req.isRead = true → r.req.addr = q.req.addr
      | _ => True
  | _ => True

instance (s : Poll κ) (e : PollEv) : Decidable (NoneStale s e) := by
  unfold NoneStale
  split
  · split <;> infer_instance
  · infer_instance

/-! ## 2. The invariant -/

/-- The pending address is that of every read still owed its answer, and no answer so far was
    labelled wrong. -/
structure LabelInv (s : Poll κ) : Prop where
  owed : ∀ r ∈ s.owed, r.req.isRead = true → r.req.addr = s.b.session.pendingAddr
  calls : LabelsRight s

/-- A step that adds nothing to what is owed, and calls nothing back. -/
theorem LabelInv.frame {s s' : Poll κ} (hI : LabelInv s)
    (hpend : s'.b.session.pendingAddr = s.b.session.pendingAddr) (howed : ∀ r ∈ s'.owed, r ∈ s.owed)
    (hcalls : s'.calls = s.calls) : LabelInv s' := by
  refine ⟨fun r hr hread => ?_, fun c hc => ?_⟩
  · rw [hpend]
    exact hI.owed r (howed r hr) hread
  · rw [hcalls] at hc
    exact hI.calls c hc

theorem LabelInv.tick {s : Poll κ} (hI : LabelInv s) (now : Int) : LabelInv (s.tick now) := by
  have hsess := pollTick_session s.b now
  unfold Poll.tick
  simp only
  split
  · exact hI.frame (congrArg BtSession.pendingAddr hsess) (fun _ hr => hr) rfl
  · exact hI.frame (congrArg BtSession.pendingAddr hsess) (fun _ hr => hr) rfl

/-- The send is where the condition is used: the new pending address goes with everything owed. -/
theorem LabelInv.send {s : Poll κ} {q : Issued} (hI : LabelInv s)
    (hc : btSessionReady s.b.session = true →
      ∀ r ∈ s.owed, r.req.isRead = true → r.req.addr = q.req.addr) : LabelInv (s.send env q) := by
  rcases sendRequest_spec env s.b.session q.req with ⟨-, href⟩ | ⟨hready, hpend⟩
  · unfold Poll.send
    rw [href]
    exact hI.frame rfl (fun _ hr => hr) rfl
  · refine ⟨fun r hr hread => ?_, hI.calls⟩
    show r.req.addr = (sendRequest env s.b.session q.req).2.pendingAddr
    rw [hpend]
    simp only [Poll.send] at hr
    split at hr
    · rcases List.mem_append.mp hr with hr | hr
      · exact hc hready r hr hread
      · rw [List.mem_singleton.mp hr]
    · exact hc hready r hr hread

/-- An answer comes under the pending address, which is that of the read it is for. -/
theorem LabelInv.answer {s s' : Poll κ} {i : Nat} {q : Issued} {data : List UInt8} {now : Int}
    (hI : LabelInv s) (hq : s.owed[i]? = some q) (h : s.answer env i q data now = some s') :
    LabelInv s' := by
  obtain ⟨-, sess, hpend, hcase⟩ := Poll.answer_cases h
  have hrec : LabelInv (s.received sess i) :=
    hI.frame hpend (fun r hr => List.mem_of_mem_eraseIdx hr) rfl
  rcases hcase with ⟨f, regs, hread, -, rfl⟩ | ⟨-, rfl⟩
  · refine ⟨fun r hr hread' => ?_, fun c hc => ?_⟩
    · show r.req.addr = (sessionRegs (s.received sess i).b _ _ _).2.session.pendingAddr
      rw [sessionRegs_session]
      exact hrec.owed r hr hread'
    · rcases List.mem_append.mp hc with hc | hc
      · exact hI.calls c hc
      · rw [List.mem_singleton.mp hc]
        have hqread : q.req.isRead = true := by rw [hread]; rfl
        exact ⟨hqread, (hI.owed q (List.mem_of_getElem? hq) hqread).symm⟩
  · exact hrec.frame rfl (fun _ hr => hr) rfl

/-- **One step.** -/
theorem labelInv_step (s : Poll κ) (e : PollEv) (s' : Poll κ) (hc : NoneStale s e)
    (hI : LabelInv s) (h : s.step env e = some s') : LabelInv s' := by
  cases e with
  | tick now =>
      obtain ⟨-, rfl⟩ := Poll.step_tick h
      exact hI.tick now
  | send =>
      obtain ⟨q, hq, rfl⟩ := Poll.step_send h
      simp only [NoneStale, hq] at hc
      exact hI.send hc
  | mark now =>
      obtain ⟨-, rfl⟩ := Poll.step_mark h
      exact hI.frame rfl (fun _ hr => hr) rfl
  | answer i data now =>
      obtain ⟨q, hq, h⟩ := Option.bind_eq_some_iff.mp h
      exact hI.answer hq h
  | exception i data =>
      obtain ⟨-, sess, hpend, rfl⟩ := Poll.step_exception h
      exact hI.frame hpend (fun r hr => List.mem_of_mem_eraseIdx hr) rfl
  | notify data =>
      obtain ⟨-, sess, hpend, rfl⟩ := Poll.feedQuiet_cases h
      exact hI.frame hpend (fun _ hr => hr) rfl
  | lose i =>
      obtain ⟨-, rfl⟩ := Poll.step_lose h
      exact hI.frame rfl (fun r hr => List.mem_of_mem_eraseIdx hr) rfl
  | kexTimer =>
      exact Option.some.inj h ▸ hI.frame (kexTimerCb_pendingAddr s.b) (fun _ hr => hr) rfl
  | connect => exact Option.some.inj h ▸ hI.frame rfl (fun r hr => by cases hr) rfl
  | disconnect => exact Option.some.inj h ▸ hI.frame rfl (fun r hr => by cases hr) rfl
  | subscribed => exact Option.some.inj h ▸ hI.frame rfl (fun _ hr => hr) rfl
  | setControls on =>
      have hpend : (bluettiBleSetControls s.b on).session.pendingAddr =
        s.b.session.pendingAddr := by
        rw [setControls_session]
      rw [← Option.some.inj h]
      split
      · exact hI.frame hpend (fun _ hr => hr) rfl
      · exact hI.frame hpend (fun _ hr => hr) rfl
  | writeControl field value =>
      obtain ⟨q, hq⟩ := writeControl_cases s.b field value
      rw [← Option.some.inj h, hq]
      exact hI.frame rfl (fun _ hr => hr) rfl

theorem labelInv_start (controls : Bool) (low : Int) :
    LabelInv (Poll.start controls low : Poll κ) :=
  ⟨fun _ hr => absurd hr List.not_mem_nil, fun _ hc => absurd hc List.not_mem_nil⟩

/-- **Every answer is labelled with the address of the read that elicited it** in every run -- of
    ticks, sends that fail or not, control writes, answers after any delay and in any order,
    exceptions, lost answers, rebuilt plans and reconnects -- in which a request goes out only when
    no read of another register is still owed its answer. -/
theorem labelsRight_of_noneStale {controls : Bool} {low : Int} {es : List PollEv} {s : Poll κ}
    (hc : StepMachine.Along (Poll.step env) NoneStale (Poll.start controls low) es)
    (h : StepMachine.run (Poll.step env) (Poll.start controls low) es = some s) : LabelsRight s :=
  (StepMachine.run_inv_along (Poll.step env) labelInv_step hc (labelInv_start controls low) h).calls

/-! ## 3. A late answer -/

/-- The link to a unit that does not encrypt, up to the first tick. -/
def plainLink : List PollEv := [.connect, .subscribed, .kexTimer]

/-- A request goes out at a time. -/
def sendAt (nowUs : Int) : List PollEv := [.tick nowUs, .send, .mark nowUs]

/-- The charge is answered, the mains power is not, and the AC output is polled next. -/
def lostAnswerRun : List PollEv :=
  plainLink ++ sendAt 0 ++ [.answer 0 (readReply [0, 55]) 100000] ++ sendAt 250000 ++ [.lose 0] ++
    sendAt 7000000 ++ [.answer 0 (readReply [0, 120]) 7100000]

theorem labelsRight_of_noneStale_lostAnswerRun :
    ∃ s, StepMachine.run (Poll.step toyEnv) (Poll.start false 20) lostAnswerRun = some s ∧
      LabelsRight s ∧ s.calls.map (·.label) = [regBatterySoc, regAcOutputPower] := by
  have hc : StepMachine.Along (Poll.step toyEnv) NoneStale (Poll.start false 20) lostAnswerRun :=
    StepMachine.along_of_check (Poll.step toyEnv) (fun s e h => of_decide_eq_true h)
      (c := fun s e => decide (NoneStale s e)) (by decide +kernel)
  have hrun : (StepMachine.run (Poll.step toyEnv) (Poll.start false 20) lostAnswerRun).map
      (fun s => s.calls.map (·.label)) = some [regBatterySoc, regAcOutputPower] := by
    decide +kernel
  obtain ⟨s, hs, hcalls⟩ := Option.map_eq_some_iff.mp hrun
  exact ⟨s, hs, labelsRight_of_noneStale hc hs, hcalls⟩

/-- The charge is polled and given up after seven seconds; the mains power is polled next, and then
    the charge is answered: 55 %. -/
def lateAnswerRun : List PollEv :=
  plainLink ++ sendAt 0 ++ sendAt 7000000 ++ [.answer 0 (readReply [0, 55]) 7100000]

/-- **A charge of 55 % becomes 55 W of mains**: the late answer is applied to the register that was
    polled after it was given up, and the mains counts as present. -/
theorem late_answer_mislabelled :
    ∃ s, StepMachine.run (Poll.step toyEnv) (Poll.start false 20) lateAnswerRun = some s ∧
      ¬ LabelsRight s ∧ s.b.state.acInWatts = 550 ∧ s.b.state.acInputPresent = true := by
  have hrun : (StepMachine.run (Poll.step toyEnv) (Poll.start false 20) lateAnswerRun).map
      (fun s => (s.calls.map (fun c => (c.label, c.elicited.req.addr)), s.b.state.acInWatts,
        s.b.state.acInputPresent)) =
      some ([(regAcInputPower, regBatterySoc)], 550, true) := by decide +kernel
  obtain ⟨s, hs, hsum⟩ := Option.map_eq_some_iff.mp hrun
  obtain ⟨hcalls, hwatts, hpresent⟩ : s.calls.map (fun c => (c.label, c.elicited.req.addr)) =
      [(regAcInputPower, regBatterySoc)] ∧ s.b.state.acInWatts = 550 ∧
        s.b.state.acInputPresent = true := by simpa using hsum
  refine ⟨s, hs, fun hright => ?_, hwatts, hpresent⟩
  have hmem : (regAcInputPower, regBatterySoc) ∈
      s.calls.map (fun c => (c.label, c.elicited.req.addr)) := by rw [hcalls]; simp
  obtain ⟨c, hc, heq⟩ := List.mem_map.mp hmem
  obtain ⟨hl, ha⟩ := Prod.mk.inj heq
  have hsame := (hright c hc).2
  rw [hl, ha] at hsame
  exact absurd hsame (by decide)

end NutBluetti.Ble
