/-
  File:      NutBluetti/Ble/WriteQueue.lean
  Subject:   THE QUEUE OF CONTROL WRITES. `bluetti_ble_write_control` puts a write into it,
             `bluetti_ble_set_controls` clears it, and a tick takes the oldest out before it is
             sent.

  `WriteLog` is the loop with the history of its queue beside it, which is a `LatestQueue`.

  * `QueueStep` -- all that a step can do to the queue and to the write a tick has taken;
  * **`writeQueue_ordered`** -- in every reachable state: one place for each control, the latest
    value in it, first in, first out, and always room;
  * `Accounted` -- a write was transmitted, replaced, dropped, or is still there;
  * **`failed_write_lost`** -- the write is out of the queue when its transmission fails;
  * `SendsTaken` -- the condition: a write that was taken goes out;
  * **`accounted_iff`** -- a run loses no accepted write exactly if all its sends meet it.
-/
import Mathlib.Data.List.Perm.Subperm
import NutBluetti.Lib.LatestQueue
import NutBluetti.Ble.WriteGate

namespace NutBluetti.Ble

open LatestQueue History

variable {κ : Type} {env : Env κ}

/-! ## 1. The queue of the loop -/

/-- `bluetti_ble_write_control` puts the register, unless it is new and there is no room. -/
theorem enqueueWrite_eq (q : List (UInt16 × UInt16)) (r v : UInt16) : enqueueWrite q r v =
    if r ∈ q.map Prod.fst ∨ q.length < writeQueueMax then some (put q r v) else none := by
  have hfind : ∀ q : List (UInt16 × UInt16),
      (∃ slot, q.findIdx? (fun w => w.1 == r) = some slot ∧ r ∈ q.map Prod.fst ∧
        q.set slot (r, v) = put q r v) ∨
      (q.findIdx? (fun w => w.1 == r) = none ∧ r ∉ q.map Prod.fst ∧ q ++ [(r, v)] = put q r v) := by
    intro q
    induction q with
    | nil => exact .inr ⟨rfl, List.not_mem_nil, rfl⟩
    | cons e q ih =>
        rw [List.findIdx?_cons, put]
        by_cases he : e.1 = r
        · refine .inl ⟨0, by simp [he], by simp [he], ?_⟩
          rw [if_pos he]
          rfl
        · rw [if_neg he]
          rcases ih with ⟨slot, hslot, hmem, hset⟩ | ⟨hnone, hmem, happ⟩
          · refine .inl ⟨slot + 1, by simp [he, hslot], List.mem_cons_of_mem _ hmem, ?_⟩
            rw [List.set_cons_succ, hset]
          · refine .inr ⟨by simp [he, hnone], ?_, ?_⟩
            · rw [List.map_cons, List.mem_cons]
              exact not_or_intro (Ne.symm he) hmem
            · rw [List.cons_append, happ]
  unfold enqueueWrite
  rcases hfind q with ⟨slot, hslot, hmem, hset⟩ | ⟨hnone, hmem, happ⟩
  · have hin : r ∈ q.map Prod.fst ∨ q.length < writeQueueMax := .inl hmem
    rw [if_pos hin, hslot]
    exact congrArg some hset
  · rw [hnone, ← happ]
    by_cases hroom : q.length < writeQueueMax
    · have hin : r ∈ q.map Prod.fst ∨ q.length < writeQueueMax := .inr hroom
      rw [if_pos hin]
      exact if_neg (Nat.not_le.mpr hroom)
    · rw [if_neg (not_or_intro hmem hroom)]
      exact if_pos (Nat.not_lt.mp hroom)

/-- The register of a control. -/
def IsControl (r : UInt16) : Prop := ∃ c ∈ btControls, c.reg = r

/-- **What a step can do** to the queue, and to the write that a tick has taken. -/
inductive QueueStep (env : Env κ) (s p : Poll κ) : Option (Ev UInt16 UInt16) → Prop where
  | quiet (hqueue : p.b.writeQueue = s.b.writeQueue) (hheld : p.held = s.held) :
      QueueStep env s p none
  | put (r v : UInt16) (hcontrol : IsControl r) (hqueue : p.b.writeQueue = put s.b.writeQueue r v)
      (hheld : p.held = s.held) : QueueStep env s p (some (.put r v))
  | clear (hqueue : p.b.writeQueue = []) (hheld : p.held = s.held) : QueueStep env s p (some .clear)
  | take (r v : UInt16) (hnone : s.held = none) (hqueue : s.b.writeQueue = (r, v) :: p.b.writeQueue)
      (hheld : p.held = some (r, v)) : QueueStep env s p (some (.take r v))
  | handOver (r v : UInt16) (htaken : s.held = some (r, v))
      (hqueue : p.b.writeQueue = s.b.writeQueue)
      (hheld : p.held = none) :
      QueueStep env s p (some (.handOver r v (sendRequest env s.b.session (.write r v)).1))

/-- What is entered in the history for a step from `s` to `p`. -/
def queueEvent (env : Env κ) (s : Poll κ) (e : PollEv) (p : Poll κ) : Option (Ev UInt16 UInt16) :=
  match e with
  | .writeControl field value =>
      match btControlLookup field, (bluettiBleWriteControl s.b field value).1 with
      | some c, true => some (.put c.reg (UInt16.ofInt value))
      | _, _ => none
  | .setControls on => if on then none else some .clear
  | .tick _ => p.held.map fun w => .take w.1 w.2
  | .send =>
      s.held.map fun w => .handOver w.1 w.2 (sendRequest env s.b.session (.write w.1 w.2)).1
  | _ => none

theorem queueStep_tick {s p : Poll κ} {now : Int} (h : s.step env (.tick now) = some p) :
    QueueStep env s p (queueEvent env s (.tick now) p) := by
  obtain ⟨hidle, rfl⟩ := Poll.step_tick h
  have hnone : s.held = none := by
    unfold Poll.held
    rw [hidle]
  obtain ⟨b', q, htick⟩ : ∃ b' q, pollTick s.b now = (b', q) := ⟨_, _, rfl⟩
  obtain ⟨-, -, ⟨hqueue, hno⟩ | ⟨r, v, hqueue, rfl⟩⟩ := pollTick_queue htick
  · have hp : (s.tick now).b.writeQueue = s.b.writeQueue ∧ (s.tick now).held = none := by
      unfold Poll.tick
      rw [htick]
      cases q with
      | none => exact ⟨hqueue, hnone⟩
      | some req =>
          cases req with
          | read f => exact ⟨hqueue, rfl⟩
          | write r v => exact absurd rfl (hno r v)
    unfold queueEvent
    rw [hp.2]
    exact .quiet hp.1 (hp.2.trans hnone.symm)
  · have hp : (s.tick now).b.writeQueue = b'.writeQueue ∧ (s.tick now).held = some (r, v) := by
      unfold Poll.tick
      rw [htick]
      exact ⟨rfl, rfl⟩
    unfold queueEvent
    rw [hp.2]
    exact .take r v hnone (hp.1 ▸ hqueue) hp.2

theorem queueStep_send {s p : Poll κ} (h : s.step env .send = some p) :
    QueueStep env s p (queueEvent env s .send p) := by
  obtain ⟨q, hq, rfl⟩ := Poll.step_send h
  have hp : (s.send env q).b.writeQueue = s.b.writeQueue ∧ (s.send env q).held = none := by
    refine ⟨rfl, ?_⟩
    unfold Poll.send Poll.held
    simp only
    cases (sendRequest env s.b.session q.req).1 <;> rfl
  unfold queueEvent
  cases hheld : s.held with
  | none => exact .quiet hp.1 (hp.2.trans hheld.symm)
  | some w => exact .handOver w.1 w.2 hheld hp.1 hp.2

theorem queueStep_setControls {s p : Poll κ} {on : Bool}
    (h : s.step env (.setControls on) = some p) :
    QueueStep env s p (queueEvent env s (.setControls on) p) := by
  have hp : p.b.writeQueue = (if on then s.b.writeQueue else []) ∧ p.held = s.held := by
    rcases setControls_cases s.b on with ⟨-, hb⟩ | ⟨dev, -, hb⟩
    · rw [← Option.some.inj h, hb]
      split <;> exact ⟨rfl, rfl⟩
    · rw [← Option.some.inj h, hb]
      split <;> exact ⟨rfl, rfl⟩
  cases on with
  | true => exact .quiet hp.1 hp.2
  | false => exact .clear hp.1 hp.2

theorem queueStep_writeControl {s p : Poll κ} {field : String} {value : Int}
    (h : s.step env (.writeControl field value) = some p) :
    QueueStep env s p (queueEvent env s (.writeControl field value) p) := by
  obtain rfl := Option.some.inj h
  rcases writeControl_spec s.b field value with hb | ⟨c, dev, q, hc, -, -, -, hq, hb⟩
  · have hevent : ∀ p, queueEvent env s (.writeControl field value) p = none := by
      intro p
      simp only [queueEvent, hb]
      cases btControlLookup field <;> rfl
    rw [hevent, hb]
    exact .quiet rfl rfl
  · have hevent : ∀ p, queueEvent env s (.writeControl field value) p =
        some (.put c.reg (UInt16.ofInt value)) := by
      intro p
      simp only [queueEvent, hb, hc]
    rw [hevent, hb]
    rw [enqueueWrite_eq] at hq
    split at hq
    · exact .put _ _ ⟨c, List.mem_of_find?_eq_some hc, rfl⟩ (Option.some.inj hq).symm rfl
    · cases hq

/-- The other steps of the loop leave the queue, and the timer task but for its mark. -/
theorem queueStep_quiet {s p : Poll κ} {e : PollEv} (he : e.gating = false)
    (h : s.step env e = some p) : QueueStep env s p none := by
  refine .quiet (keeps_step he h).queue ?_
  cases e with
  | tick _ => cases he
  | send => cases he
  | connect => cases he
  | disconnect => cases he
  | setControls _ => cases he
  | writeControl _ _ => cases he
  | mark now =>
      obtain ⟨hmark, rfl⟩ := Poll.step_mark h
      unfold Poll.held
      rw [hmark]
  | answer i data now =>
      obtain ⟨q, -, h⟩ := Option.bind_eq_some_iff.mp h
      obtain ⟨-, sess, -, ⟨f, regs, -, -, rfl⟩ | ⟨-, rfl⟩⟩ := Poll.answer_cases h
      · rfl
      · rfl
  | exception i data =>
      obtain ⟨-, sess, -, rfl⟩ := Poll.step_exception h
      rfl
  | notify data =>
      obtain ⟨-, sess, -, rfl⟩ := Poll.feedQuiet_cases h
      rfl
  | lose i =>
      obtain ⟨-, rfl⟩ := Poll.step_lose h
      rfl
  | kexTimer =>
      obtain rfl := Option.some.inj h
      rfl
  | subscribed =>
      obtain rfl := Option.some.inj h
      rfl

/-- **Every step.** -/
theorem queueStep_of_step {s p : Poll κ} {e : PollEv} (h : s.step env e = some p) :
    QueueStep env s p (queueEvent env s e p) := by
  cases e with
  | tick now => exact queueStep_tick h
  | send => exact queueStep_send h
  | setControls on => exact queueStep_setControls h
  | writeControl field value => exact queueStep_writeControl h
  | connect =>
      obtain rfl := Option.some.inj h
      exact .quiet rfl rfl
  | disconnect =>
      obtain rfl := Option.some.inj h
      exact .quiet rfl rfl
  | mark now => exact queueStep_quiet rfl h
  | answer i data now => exact queueStep_quiet rfl h
  | exception i data => exact queueStep_quiet rfl h
  | notify data => exact queueStep_quiet rfl h
  | lose i => exact queueStep_quiet rfl h
  | kexTimer => exact queueStep_quiet rfl h
  | subscribed => exact queueStep_quiet rfl h

/-! ## 2. The history -/

/-- The loop with the history of its queue. -/
structure WriteLog (κ : Type) where
  poll : Poll κ
  log : List (Ev UInt16 UInt16)

/-- **One step**, entered in the history. -/
def WriteLog.step (env : Env κ) (w : WriteLog κ) (e : PollEv) : Option (WriteLog κ) :=
  (w.poll.step env e).map fun p => ⟨p, w.log ++ (queueEvent env w.poll e p).toList⟩

def WriteLog.start (controls : Bool) (lowBatteryPct : Int) : WriteLog κ :=
  ⟨Poll.start controls lowBatteryPct, []⟩

/-- The history stands beside the loop: the runs are those of the loop. -/
theorem WriteLog.run_poll (w : WriteLog κ) (es : List PollEv) :
    (StepMachine.run (WriteLog.step env) w es).map WriteLog.poll =
      StepMachine.run (Poll.step env) w.poll es := by
  induction es generalizing w with
  | nil => rfl
  | cons e es ih =>
      rw [StepMachine.run_cons, StepMachine.run_cons, WriteLog.step]
      cases w.poll.step env e with
      | none => rfl
      | some p => exact ih ⟨p, w.log ++ (queueEvent env w.poll e p).toList⟩

/-- Queue and hand are what the history leaves, and only controls are ever put. -/
structure LogInv (w : WriteLog κ) : Prop where
  queue : w.poll.b.writeQueue = queueOf w.log
  held : w.poll.held = heldOf w.log
  lawful : Lawful w.log
  controls : ∀ r v, .put r v ∈ w.log → IsControl r

theorem LogInv.snoc {w : WriteLog κ} {p : Poll κ} {ev : Ev UInt16 UInt16} (hI : LogInv w)
    (hqueue : p.b.writeQueue = next w.poll.b.writeQueue ev)
    (hheld : p.held = nextHeld w.poll.held ev) (hmay : May w.log ev)
    (hcontrol : ∀ r v, ev = .put r v → IsControl r) : LogInv ⟨p, w.log ++ [ev]⟩ := by
  refine ⟨?_, ?_, eachMoment_snoc_iff.mpr ⟨hI.lawful, hmay⟩, fun r v hmem => ?_⟩
  · rw [queueOf_snoc, ← hI.queue]
    exact hqueue
  · rw [heldOf_snoc, ← hI.held]
    exact hheld
  · rcases List.mem_append.mp hmem with hmem | hmem
    · exact hI.controls r v hmem
    · exact hcontrol r v (List.mem_singleton.mp hmem).symm

/-- **One step keeps it.** -/
theorem logInv_step (w : WriteLog κ) (e : PollEv) (w' : WriteLog κ) (hI : LogInv w)
    (h : w.step env e = some w') : LogInv w' := by
  obtain ⟨p, hp, rfl⟩ := Option.map_eq_some_iff.mp h
  have hstep := queueStep_of_step hp
  generalize queueEvent env w.poll e p = ev at hstep ⊢
  cases hstep with
  | quiet hqueue hheld =>
      rw [Option.toList_none, List.append_nil]
      exact ⟨hqueue.trans hI.queue, hheld.trans hI.held, hI.lawful, hI.controls⟩
  | put r v hcontrol hqueue hheld =>
      refine hI.snoc hqueue hheld trivial fun r' v' heq => ?_
      obtain ⟨rfl, -⟩ := Ev.put.inj heq
      exact hcontrol
  | clear hqueue hheld => exact hI.snoc hqueue hheld trivial fun r v heq => nomatch heq
  | take r v hnone hqueue hheld =>
      refine hI.snoc ?_ hheld ⟨?_, hI.held ▸ hnone⟩ fun r v heq => nomatch heq
      · rw [hqueue]
        rfl
      · rw [← hI.queue, hqueue]
        rfl
  | handOver r v htaken hqueue hheld =>
      exact hI.snoc hqueue hheld (hI.held.symm.trans htaken) fun r v heq => nomatch heq

theorem logInv_run {controls : Bool} {low : Int} {es : List PollEv} {w : WriteLog κ}
    (hrun : StepMachine.run (WriteLog.step env) (WriteLog.start controls low) es = some w) :
    LogInv w :=
  StepMachine.run_inv (WriteLog.step env) logInv_step
    ⟨rfl, rfl, eachMoment_nil _, fun _ _ h => absurd h List.not_mem_nil⟩ hrun

/-- What waits is for a control. -/
theorem LogInv.isControl {w : WriteLog κ} (hI : LogInv w) {r : UInt16}
    (h : r ∈ w.poll.b.writeQueue.map Prod.fst) : IsControl r := by
  obtain ⟨⟨r, v⟩, hmem, rfl⟩ := List.mem_map.mp h
  rw [hI.queue] at hmem
  obtain ⟨-, pre, post, heq, -⟩ := (mem_queueOf_iff hI.lawful).mp hmem
  exact hI.controls r v (heq ▸ List.mem_append_right _ List.mem_cons_self)

/-- There are no more writes than controls. -/
theorem LogInv.length_le {w : WriteLog κ} (hI : LogInv w) :
    w.poll.b.writeQueue.length ≤ btControls.length := by
  have hnodup : (w.poll.b.writeQueue.map Prod.fst).Nodup := hI.queue ▸ queueOf_nodup w.log
  have hsub : w.poll.b.writeQueue.map Prod.fst ⊆ btControls.map BtControl.reg := by
    intro r hr
    obtain ⟨c, hc, rfl⟩ := hI.isControl hr
    exact List.mem_map_of_mem hc
  have hle := (hnodup.subperm hsub).length_le
  rwa [List.length_map, List.length_map] at hle

/-- **The queue of control writes** in every state that can be reached: each register in it is that
    of a control and there once, so that there are never more than there are controls, and never no
    room for one; its value is the latest that was accepted since; and a write leaves before all
    that came later, by the time its register came in. -/
theorem writeQueue_ordered {controls : Bool} {low : Int} {es : List PollEv} {w : WriteLog κ}
    (hrun : StepMachine.run (WriteLog.step env) (WriteLog.start controls low) es = some w) :
    w.poll.b.writeQueue = queueOf w.log ∧
      (w.poll.b.writeQueue.map Prod.fst).Nodup ∧
      (∀ r ∈ w.poll.b.writeQueue.map Prod.fst, ∃ c ∈ btControls, c.reg = r) ∧
      w.poll.b.writeQueue.length ≤ btControls.length ∧
      (∀ c ∈ btControls, ∀ v, (enqueueWrite w.poll.b.writeQueue c.reg v).isSome = true) ∧
      (∀ r v, (r, v) ∈ w.poll.b.writeQueue → Latest (Touches r) w.log (.put r v)) ∧
      ∀ pre r v post, w.log = pre ++ .take r v :: post →
        ∃ i, Entered pre r i ∧ ∀ r' j, r' ≠ r → Entered pre r' j → i < j := by
  have hI := logInv_run hrun
  refine ⟨hI.queue, hI.queue ▸ queueOf_nodup w.log, fun r hr => hI.isControl hr, hI.length_le,
    fun c hc v => ?_, fun r v hmem => ?_,
      fun pre r v post hlog => entered_lt_of_take hI.lawful hlog⟩
  · -- eleven controls, sixteen places
    have hroom : w.poll.b.writeQueue.length < writeQueueMax :=
      Nat.lt_of_le_of_lt hI.length_le (by decide)
    rw [enqueueWrite_eq, if_pos (.inr hroom)]
    rfl
  · exact (mem_queueOf_iff hI.lawful).mp (hI.queue ▸ hmem)

/-- The AC output is switched off, and on again before the next tick, which takes the write. -/
def switchedBack : List PollEv := outputOff ++ [.writeControl "ac_output" 1, .tick 4000000]

theorem writeQueue_ordered_switchedBack :
    ∃ w, StepMachine.run (WriteLog.step toyEnv) (WriteLog.start true 20) switchedBack = some w ∧
      w.log = [.put regCtrlAc 0, .put regCtrlAc 1, .take regCtrlAc 1] ∧
      (∃ i, Entered [.put regCtrlAc 0, .put regCtrlAc (1 : UInt16)] regCtrlAc i) ∧
      w.poll.b.writeQueue.length ≤ btControls.length := by
  have hrun : (StepMachine.run (WriteLog.step toyEnv) (WriteLog.start true 20) switchedBack).map
      WriteLog.log = some [.put regCtrlAc 0, .put regCtrlAc 1, .take regCtrlAc 1] := by
        decide +kernel
  obtain ⟨w, hw, hlog⟩ := Option.map_eq_some_iff.mp hrun
  obtain ⟨-, -, -, hlen, -, -, horder⟩ := writeQueue_ordered hw
  obtain ⟨i, hi, -⟩ := horder [.put regCtrlAc 0, .put regCtrlAc 1] regCtrlAc 1 [] hlog
  exact ⟨w, hw, hlog, ⟨i, hi⟩, hlen⟩

/-! ## 3. No write is lost -/

/-- **The write was transmitted, replaced by a later one to its register, dropped with the queue, or
    is still in the queue** or in the hand of the tick that has taken it; `post` is the history
    since it was accepted. -/
def Accounted (w : WriteLog κ) (r v : UInt16) (post : List (Ev UInt16 UInt16)) : Prop :=
  (fateOf r post = .handedOver ∧ .handOver r v true ∈ post) ∨
    (fateOf r post = .replaced ∧ ∃ v', .put r v' ∈ post) ∨
    (fateOf r post = .cleared ∧ .clear ∈ post) ∨
    (fateOf r post = .waiting ∧ (r, v) ∈ w.poll.b.writeQueue) ∨
    (fateOf r post = .held ∧ w.poll.held = some (r, v))

theorem accounted_iff_not_lost {w : WriteLog κ} (hI : LogInv w) {pre post : List (Ev UInt16 UInt16)}
    {r v : UInt16} (hlog : w.log = pre ++ .put r v :: post) :
    Accounted w r v post ↔ fateOf r post ≠ .lost := by
  have hlawful := hI.lawful
  rw [hlog] at hlawful
  have hholds := fateOf_holds hlawful
  unfold Accounted
  cases hfate : fateOf r post with
  | waiting =>
      rw [hfate, ← hlog] at hholds
      exact iff_of_true (.inr (.inr (.inr (.inl ⟨rfl, hI.queue ▸ hholds.1⟩)))) Fate.noConfusion
  | held =>
      rw [hfate, ← hlog] at hholds
      exact iff_of_true (.inr (.inr (.inr (.inr ⟨rfl, hI.held.trans hholds⟩)))) Fate.noConfusion
  | handedOver =>
      rw [hfate] at hholds
      exact iff_of_true (.inl ⟨rfl, hholds⟩) Fate.noConfusion
  | replaced =>
      rw [hfate] at hholds
      exact iff_of_true (.inr (.inl ⟨rfl, hholds⟩)) Fate.noConfusion
  | cleared =>
      rw [hfate] at hholds
      exact iff_of_true (.inr (.inr (.inl ⟨rfl, hholds⟩))) Fate.noConfusion
  | lost => simp

/-- The session is ready for the write, can wrap it, and the transmission succeeds. -/
def WriteGoesOut (env : Env κ) (s : BtSession κ) (r v : UInt16) : Prop :=
  btSessionReady s = true ∧ env.txOk s.txs = true ∧
    (s.plain = true ∨
      (aesWrapSeed env s s.secureKey (modbusCmd modbusWrite r v) rxMax).1.isSome = true)

/-- Then, and only then, `bt_session_write_reg` returns 0, and the write was transmitted. -/
theorem writeReg_iff (env : Env κ) (s : BtSession κ) (r v : UInt16) :
    ((btSessionWriteReg env s r v).1 = true ↔ WriteGoesOut env s r v) ∧
      ((btSessionWriteReg env s r v).1 = true →
        ∃ sent, (btSessionWriteReg env s r v).2.log = s.log ++ [.tx sent true]) := by
  have htransmit : ∀ (t : BtSession κ) bytes, t.txs = s.txs → t.log = s.log →
      ((transmit env t bytes).1 = true ↔ env.txOk s.txs = true) ∧
        ((transmit env t bytes).1 = true →
          ∃ sent, (transmit env t bytes).2.log = s.log ++ [.tx sent true]) := by
    intro t bytes htxs hlog
    have hok : (transmit env t bytes).1 = env.txOk s.txs := congrArg env.txOk htxs
    refine ⟨by rw [hok], fun h => ⟨bytes, ?_⟩⟩
    show t.log ++ [.tx bytes (env.txOk t.txs)] = _
    rw [hlog, htxs, ← hok, h]
  unfold btSessionWriteReg WriteGoesOut
  by_cases hready : btSessionReady s = true
  · simp only [hready, Bool.not_true, Bool.false_eq_true, if_false, true_and]
    unfold sendCmd
    by_cases hplain : s.plain = true
    · simp only [hplain, if_true, true_or, and_true]
      exact htransmit _ _ rfl rfl
    · simp only [hplain, if_false, false_or, Bool.false_eq_true]
      unfold aesWrapSeed
      simp only
      cases wrapUnder env s.secureKey (env.md5 (env.random s.draws))
          (lenBe16 (modbusCmd modbusWrite r v).length ++ env.random s.draws)
          (modbusCmd modbusWrite r v) rxMax with
      | none => simp
      | some wrapped =>
          simp only [Option.isSome_some, and_true]
          exact htransmit _ _ rfl rfl
  · simp [hready]

/-- **The condition**: when a write that a tick has taken is handed to the session, it goes out. -/
def SendsTaken (env : Env κ) (s : Poll κ) : PollEv → Prop
  | .send => ∀ r v, s.held = some (r, v) → WriteGoesOut env s.b.session r v
  | _ => True

/-- No write that was taken has failed to go out. -/
def NoneFailed (w : WriteLog κ) : Prop := ∀ r v, .handOver r v false ∉ w.log

/-- Only a send hands a write over. -/
theorem queueEvent_ne_handOver {s p : Poll κ} {e : PollEv} (he : e ≠ .send) (r v : UInt16)
    (ok : Bool) :
    queueEvent env s e p ≠ some (.handOver r v ok) := by
  cases e with
  | send => exact absurd rfl he
  | tick now => simp [queueEvent]
  | setControls on => cases on <;> simp [queueEvent]
  | writeControl field value =>
      simp only [queueEvent]
      split <;> simp
  | _ => simp [queueEvent]

/-- What is held goes out exactly when the session takes it. -/
theorem sendsTaken_iff {s : Poll κ} {r v : UInt16} (hheld : s.held = some (r, v)) :
    SendsTaken env s .send ↔ (btSessionWriteReg env s.b.session r v).1 = true := by
  rw [(writeReg_iff env _ r v).1]
  constructor
  · exact fun h => h r v hheld
  · intro h r' v' heq
    obtain ⟨rfl, rfl⟩ := Prod.mk.inj (Option.some.inj (hheld.symm.trans heq))
    exact h

/-- Nothing but a failed send fails. -/
theorem noneFailed_snoc_iff (p : Poll κ) (log : List (Ev UInt16 UInt16))
    {ev : Option (Ev UInt16 UInt16)} (h : ∀ r v, ev ≠ some (.handOver r v false)) :
    NoneFailed (⟨p, log ++ ev.toList⟩ : WriteLog κ) ↔ NoneFailed (⟨p, log⟩ : WriteLog κ) := by
  refine forall_congr' fun r => forall_congr' fun v => not_congr ?_
  simp [h r v]

theorem noneFailed_step (w : WriteLog κ) (e : PollEv) (w' : WriteLog κ)
    (h : w.step env e = some w') : NoneFailed w' ↔ NoneFailed w ∧ SendsTaken env w.poll e := by
  obtain ⟨p, hp, rfl⟩ := Option.map_eq_some_iff.mp h
  by_cases he : e = .send
  · subst he
    cases hheld : w.poll.held with
    | none =>
        have hevent : queueEvent env w.poll .send p = none := by
          simp only [queueEvent, hheld, Option.map_none]
        rw [hevent, noneFailed_snoc_iff p w.log (by simp)]
        refine (and_iff_left fun r v hsome => ?_).symm
        rw [hheld] at hsome
        cases hsome
    | some wr =>
        obtain ⟨r, v⟩ := wr
        have hevent : queueEvent env w.poll .send p =
            some (.handOver r v (btSessionWriteReg env w.poll.b.session r v).1) := by
          simp only [queueEvent, hheld, Option.map_some, sendRequest]
        rw [hevent, sendsTaken_iff hheld]
        cases (btSessionWriteReg env w.poll.b.session r v).1 with
        | true =>
            rw [noneFailed_snoc_iff p w.log (by simp)]
            exact (and_iff_left rfl).symm
        | false =>
            refine iff_of_false (fun hnone => hnone r v ?_) (by simp)
            simp
  · rw [noneFailed_snoc_iff p w.log fun r v => queueEvent_ne_handOver he r v false]
    refine (and_iff_left ?_).symm
    cases e with
    | send => exact absurd rfl he
    | _ => trivial

/-- **No accepted control write is lost** in a run, in which any transmission may fail, exactly if
    every write that a tick takes from the queue goes out. -/
theorem accounted_iff {controls : Bool} {low : Int} {es : List PollEv} {w : WriteLog κ}
    (hrun : StepMachine.run (WriteLog.step env) (WriteLog.start controls low) es = some w) :
    (∀ pre r v post, w.log = pre ++ .put r v :: post → Accounted w r v post) ↔
      StepMachine.Along (WriteLog.step env) (fun w => SendsTaken env w.poll)
        (WriteLog.start controls low) es := by
  have hI := logInv_run hrun
  have hstart : NoneFailed (WriteLog.start controls low : WriteLog κ) := fun _ _ => List.not_mem_nil
  have hrun' := StepMachine.kept_iff_along (WriteLog.step env) noneFailed_step hrun
  rw [and_iff_right hstart] at hrun'
  rw [← hrun']
  have hlost := lost_iff hI.lawful
  constructor
  · intro hall r v hfailed
    obtain ⟨pre, r', v', post, hlog, hfate⟩ := hlost.mpr ⟨r, v, hfailed⟩
    exact (accounted_iff_not_lost hI hlog).mp (hall pre r' v' post hlog) hfate
  · intro hnone pre r v post hlog
    refine (accounted_iff_not_lost hI hlog).mpr fun hfate => ?_
    obtain ⟨r', v', hfailed⟩ := hlost.mp ⟨pre, r, v, post, hlog, hfate⟩
    exact hnone r' v' hfailed

theorem accounted_iff_outputOff :
    ∃ w, StepMachine.run (WriteLog.step toyEnv) (WriteLog.start true 20)
        (outputOff ++ sendAt 4000000) = some w ∧
      w.log = [.put regCtrlAc 0, .take regCtrlAc 0, .handOver regCtrlAc 0 true] ∧
      ((∀ pre r v post, w.log = pre ++ .put r v :: post → Accounted w r v post) ↔
        StepMachine.Along (WriteLog.step toyEnv) (fun w => SendsTaken toyEnv w.poll)
          (WriteLog.start true 20) (outputOff ++ sendAt 4000000)) := by
  have hrun : (StepMachine.run (WriteLog.step toyEnv) (WriteLog.start true 20)
      (outputOff ++ sendAt 4000000)).map WriteLog.log =
      some [.put regCtrlAc 0, .take regCtrlAc 0, .handOver regCtrlAc 0 true] := by decide +kernel
  obtain ⟨w, hw, hlog⟩ := Option.map_eq_some_iff.mp hrun
  exact ⟨w, hw, hlog, accounted_iff hw⟩

/-- The link carries the fourteen reads of the sweeps, and then no more. -/
def lossyEnv : Env Nat := { toyEnv with txOk := fun n => decide (n < 14) }

/-- **The write whose transmission fails** is in no queue any more: it was taken out before. -/
theorem failed_write_lost :
    ∃ w, StepMachine.run (WriteLog.step lossyEnv) (WriteLog.start true 20)
        (outputOff ++ [.tick 4000000, .send]) = some w ∧
      w.log = [.put regCtrlAc 0, .take regCtrlAc 0, .handOver regCtrlAc 0 false] ∧
      ¬ Accounted w regCtrlAc 0 [.take regCtrlAc 0, .handOver regCtrlAc 0 false] := by
  have hrun : (StepMachine.run (WriteLog.step lossyEnv) (WriteLog.start true 20)
      (outputOff ++ [.tick 4000000, .send])).map WriteLog.log =
      some [.put regCtrlAc 0, .take regCtrlAc 0, .handOver regCtrlAc 0 false] := by decide +kernel
  obtain ⟨w, hw, hlog⟩ := Option.map_eq_some_iff.mp hrun
  have hfate : fateOf regCtrlAc [.take regCtrlAc (0 : UInt16), .handOver regCtrlAc 0 false] =
      .lost := by decide
  refine ⟨w, hw, hlog, ?_⟩
  unfold Accounted
  simp [hfate]

end NutBluetti.Ble
