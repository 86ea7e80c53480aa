/-
  File:      NutBluetti/Ble/WriteGate.lean
  Subject:   WHEN A CONTROL WRITE MAY GO OUT. A write is checked when it is queued; a tick of the
             timer sends it later, and checks that there is a session.

  `Gate` is the loop with a record beside it: the connections are numbered, and every queued write
  goes with the number of the one it was last requested on.

  * `Sent.Gated` -- a write went out with controls enabled, to a unit that was identified on this
    connection and has that control, and was requested on this connection;
  * **`stale_write_sent`** -- a write that waits while the link drops goes to whatever unit answers
    next;
  * `Settled` -- the condition: no write waits when a connection comes up, and controls are not
    switched off in the middle of a tick;
  * **`writes_gated`** -- in every run that meets it, every write that goes out was gated.
-/
import NutBluetti.Ble.PollSweep

namespace NutBluetti.Ble

variable {κ : Type} {env : Env κ}

/-! ## 1. What the steps do to the write queue -/

theorem giveUp_queue (b : BluettiBle κ) : b.giveUp.controls = b.controls ∧
    b.giveUp.device = b.device ∧ b.giveUp.writeQueue = b.writeQueue := by
  unfold BluettiBle.giveUp
  split
  · exact ⟨rfl, rfl, rfl⟩
  · split <;> exact ⟨rfl, rfl, rfl⟩

/-- A tick takes the oldest write, or leaves the queue. -/
theorem pollTick_queue {b b' : BluettiBle κ} {now : Int} {q : Option Request}
    (h : pollTick b now = (b', q)) :
    b'.controls = b.controls ∧ b'.device = b.device ∧
      ((b'.writeQueue = b.writeQueue ∧ ∀ r v, q ≠ some (.write r v)) ∨
        ∃ r v, b.writeQueue = (r, v) :: b'.writeQueue ∧ q = some (.write r v)) := by
  obtain ⟨hcontrols, hdevice, hqueue⟩ := giveUp_queue b
  unfold pollTick at h
  split at h
  · obtain ⟨rfl, rfl⟩ := Prod.mk.inj h
    exact ⟨rfl, rfl, .inl ⟨rfl, by simp⟩⟩
  split at h
  · obtain ⟨rfl, rfl⟩ := Prod.mk.inj h
    exact ⟨rfl, rfl, .inl ⟨rfl, by simp⟩⟩
  split at h
  · obtain ⟨rfl, rfl⟩ := Prod.mk.inj h
    exact ⟨hcontrols, hdevice, .inl ⟨hqueue, by simp⟩⟩
  unfold BluettiBle.takeNext at h
  split at h
  · rename_i r v rest hwrites
    obtain ⟨rfl, rfl⟩ := Prod.mk.inj h
    exact ⟨hcontrols, hdevice, .inr ⟨r, v, hqueue.symm.trans hwrites, rfl⟩⟩
  · split at h
    · obtain ⟨rfl, rfl⟩ := Prod.mk.inj h
      exact ⟨hcontrols, hdevice, .inl ⟨hqueue, by simp⟩⟩
    · obtain ⟨rfl, rfl⟩ := Prod.mk.inj h
      exact ⟨hcontrols, hdevice, .inl ⟨hqueue, by simp⟩⟩

/-- `session_regs` names a unit that has no name yet, and leaves the writes alone. -/
theorem sessionRegs_queue (b : BluettiBle κ) (addr : UInt16) (data : List UInt8) (now : Int) :
    (sessionRegs b addr data now).2.controls = b.controls ∧
      (sessionRegs b addr data now).2.writeQueue = b.writeQueue ∧
      (sessionRegs b addr data now).2.connected = b.connected ∧
      (b.device.isSome = true → (sessionRegs b addr data now).2.device = b.device) := by
  unfold sessionRegs
  simp only
  split
  · rename_i hunnamed
    refine ⟨rfl, rfl, rfl, fun hsome => ?_⟩
    have hnone : b.device.isNone = true := (Bool.and_eq_true_iff.mp hunnamed).1
    rw [Option.isNone_iff_eq_none] at hnone
    rw [hnone] at hsome
    cases hsome
  · exact ⟨rfl, rfl, rfl, fun _ => rfl⟩

/-! ## 2. The record -/

/-- A control write that went out: what held then, the connection it went out on, the one the unit
    was identified on, and the one the write was requested on. -/
structure Sent where
  reg : UInt16
  val : UInt16
  controls : Bool
  device : Option BtDevice
  conn : Nat
  identifiedOn : Nat
  requestedOn : Nat
  deriving DecidableEq

/-- A model that is known, and whose mask contains the control of a register. -/
def Allows (device : Option BtDevice) (reg : UInt16) : Prop :=
  ∃ dev c, device = some dev ∧ c ∈ btControls ∧ c.reg = reg ∧ dev.hasControl c.bit = true

/-- **A write that was let through at the moment of sending.** -/
structure Sent.Gated (w : Sent) : Prop where
  controls : w.controls = true
  allowed : Allows w.device w.reg
  identified : w.identifiedOn = w.conn
  requested : w.requestedOn = w.conn

/-- The loop, the number of the connection, the one the unit was identified on, the queued writes
    with the connection each was requested on, that of the write a tick has taken, and the writes
    that went out. -/
structure Gate (κ : Type) where
  poll : Poll κ
  conn : Nat
  identifiedOn : Nat
  queued : List ((UInt16 × UInt16) × Nat)
  taken : Nat
  sent : List Sent

/-- The write that a tick has taken from the queue and not sent yet. -/
def Poll.held (s : Poll κ) : Option (UInt16 × UInt16) :=
  match s.timer with
  | .send ⟨_, .write r v⟩ => some (r, v)
  | _ => none

/-- A queued write of the same register is requested anew. -/
def requeue (queued : List ((UInt16 × UInt16) × Nat)) (w : UInt16 × UInt16) (conn : Nat) :
    List ((UInt16 × UInt16) × Nat) :=
  match queued.findIdx? fun e => e.1.1 == w.1 with
  | some slot => queued.set slot (w, conn)
  | none => queued ++ [(w, conn)]

/-- The loop has moved on; a unit it has just identified was identified on this connection. -/
def Gate.moved (g : Gate κ) (p : Poll κ) : Gate κ :=
  { g with
    poll := p
    identifiedOn := if g.poll.b.device.isNone && p.b.device.isSome then g.conn else g.identifiedOn }

/-- What is recorded of a step from `g.poll` to `p`. -/
def Gate.record (env : Env κ) (g : Gate κ) (e : PollEv) (p : Poll κ) : Gate κ :=
  match e with
  | .connect => { g.moved p with conn := g.conn + 1 }
  | .setControls on => { g.moved p with queued := if on then g.queued else [] }
  | .tick _ =>
      match p.held with
      | none => g.moved p
      | some _ =>
          { g.moved p with
            queued := g.queued.tail
            taken := (g.queued.head?.map Prod.snd).getD 0 }
  | .send =>
      match g.poll.held with
      | none => g.moved p
      | some (r, v) =>
          if (sendRequest env g.poll.b.session (.write r v)).1 then
            { g.moved p with
              sent := g.sent ++
                [⟨r, v, g.poll.b.controls, g.poll.b.device, g.conn, g.identifiedOn, g.taken⟩] }
          else g.moved p
  | .writeControl field value =>
      match btControlLookup field, (bluettiBleWriteControl g.poll.b field value).1 with
      | some c, true =>
          { g.moved p with queued := requeue g.queued (c.reg, UInt16.ofInt value) g.conn }
      | _, _ => g.moved p
  | _ => g.moved p

/-- **One step**, recorded. -/
def Gate.step (env : Env κ) (g : Gate κ) (e : PollEv) : Option (Gate κ) :=
  (g.poll.step env e).map (g.record env e)

def Gate.start (controls : Bool) (lowBatteryPct : Int) : Gate κ where
  poll := Poll.start controls lowBatteryPct
  conn := 0
  identifiedOn := 0
  queued := []
  taken := 0
  sent := []

theorem Gate.record_poll (g : Gate κ) (e : PollEv) (p : Poll κ) : (g.record env e p).poll = p := by
  unfold Gate.record
  split
  · rfl
  · rfl
  · split <;> rfl
  · split
    · rfl
    · split <;> rfl
  · split <;> rfl
  · rfl

/-- The record stands beside the loop: the runs are those of the loop. -/
theorem Gate.run_poll (g : Gate κ) (es : List PollEv) :
    (StepMachine.run (Gate.step env) g es).map Gate.poll =
      StepMachine.run (Poll.step env) g.poll es := by
  induction es generalizing g with
  | nil => rfl
  | cons e es ih =>
      rw [StepMachine.run_cons, StepMachine.run_cons, Gate.step]
      cases g.poll.step env e with
      | none => rfl
      | some p =>
          have hrest := ih (g.record env e p)
          rw [Gate.record_poll] at hrest
          exact hrest

/-- The queue of the record is that of the loop. -/
theorem requeue_spec {queued : List ((UInt16 × UInt16) × Nat)} {r v : UInt16} {conn : Nat}
    {q : List (UInt16 × UInt16)} (h : enqueueWrite (queued.map Prod.fst) r v = some q) :
    (requeue queued (r, v) conn).map Prod.fst = q := by
  unfold enqueueWrite at h
  rw [List.findIdx?_map] at h
  unfold requeue
  cases hslot : queued.findIdx? fun e => e.1.1 == r with
  | some slot =>
      have hslot' : queued.findIdx? ((fun w : UInt16 × UInt16 => w.1 == r) ∘ Prod.fst) =
        some slot :=
        hslot
      rw [hslot'] at h
      obtain rfl := Option.some.inj h
      exact List.map_set
  | none =>
      have hslot' : queued.findIdx? ((fun w : UInt16 × UInt16 => w.1 == r) ∘ Prod.fst) = none :=
        hslot
      rw [hslot'] at h
      simp only at h
      split at h
      · cases h
      · obtain rfl := Option.some.inj h
        exact List.map_append

/-- Requeueing adds the new request, and nothing else. -/
theorem mem_requeue {queued : List ((UInt16 × UInt16) × Nat)} {w : UInt16 × UInt16} {conn : Nat}
    {e : (UInt16 × UInt16) × Nat} (h : e ∈ requeue queued w conn) : e = (w, conn) ∨ e ∈ queued := by
  unfold requeue at h
  split at h
  · exact (List.mem_or_eq_of_mem_set h).symm
  · rcases List.mem_append.mp h with h | h
    · exact .inr h
    · exact .inl (List.mem_singleton.mp h)

/-! ## 3. The condition and the invariant -/

/-- **The condition**: when a connection comes up no write waits, in the queue or between a tick and
    its send; and controls are not switched off between the two. -/
def Settled (s : Poll κ) : PollEv → Prop
  | .connect => s.b.writeQueue = [] ∧ s.held = none
  | .setControls on => on = false → s.held = none
  | _ => True

instance (s : Poll κ) (e : PollEv) : Decidable (Settled s e) := by
  unfold Settled
  split <;> infer_instance

/-- There is no connection, and nothing can be sent before there is one. -/
structure Down (s : Poll κ) : Prop where
  link : s.link = false
  connected : s.b.connected = false
  ready : btSessionReady s.b.session = false
  device : s.b.device = none

/-- A write to a register may go out, if it was requested on a connection. -/
def Fit (g : Gate κ) (reg : UInt16) (requestedOn : Nat) : Prop :=
  g.poll.b.controls = true ∧ Allows g.poll.b.device reg ∧ requestedOn = g.conn

/-- There is a connection, and every write that waits may go out on it. -/
structure Up (g : Gate κ) : Prop where
  identified : g.poll.b.device.isSome = true → g.identifiedOn = g.conn
  queued : ∀ e ∈ g.queued, Fit g e.1.1 e.2
  held : ∀ r v, g.poll.held = some (r, v) → Fit g r g.taken

structure GateInv (g : Gate κ) : Prop where
  queue : g.queued.map Prod.fst = g.poll.b.writeQueue
  sent : ∀ w ∈ g.sent, w.Gated
  link : Down g.poll ∨ Up g

/-- A step that leaves the controls, the unit once it is known, the queue of writes, and takes
    none. -/
structure Keeps (s p : Poll κ) : Prop where
  controls : p.b.controls = s.b.controls
  device : s.b.device.isSome = true → p.b.device = s.b.device
  queue : p.b.writeQueue = s.b.writeQueue
  held : p.held = none ∨ p.held = s.held

theorem Allows.isSome {device : Option BtDevice} {reg : UInt16} (h : Allows device reg) :
    device.isSome = true := by
  obtain ⟨dev, c, rfl, -⟩ := h
  rfl

/-- What fits still fits after a step that keeps controls and unit. -/
theorem Fit.moved {g : Gate κ} {p : Poll κ} {reg : UInt16} {n : Nat} (h : Fit g reg n)
    (hcontrols : p.b.controls = g.poll.b.controls)
    (hdevice : g.poll.b.device.isSome = true → p.b.device = g.poll.b.device) :
    Fit (g.moved p) reg n := by
  obtain ⟨hon, hallows, hn⟩ := h
  refine ⟨hcontrols.trans hon, ?_, hn⟩
  show Allows p.b.device reg
  rw [hdevice hallows.isSome]
  exact hallows

/-- A unit that is known after a step was identified on this connection. -/
theorem Up.identified_moved {g : Gate κ} {p : Poll κ} (h : Up g)
    (hsome : p.b.device.isSome = true) :
    (g.moved p).identifiedOn = g.conn := by
  unfold Gate.moved
  cases hdev : g.poll.b.device with
  | none => simp only [Option.isNone_none, hsome, Bool.and_self, if_true]
  | some dev =>
      simp only [Option.isNone_some, Bool.false_and, Bool.false_eq_true, if_false]
      exact h.identified (by rw [hdev]; rfl)

/-- A step that keeps all that the gate is about. -/
theorem GateInv.moved {g : Gate κ} {p : Poll κ} (h : GateInv g) (hk : Keeps g.poll p)
    (hdown : Down g.poll → Down p) : GateInv (g.moved p) := by
  refine ⟨h.queue.trans hk.queue.symm, h.sent, ?_⟩
  rcases h.link with hd | hu
  · exact .inl (hdown hd)
  · refine .inr ⟨fun hsome => hu.identified_moved hsome, fun e he => ?_, fun r v hheld => ?_⟩
    · exact (hu.queued e he).moved hk.controls hk.device
    · rcases hk.held with hnone | hsame
      · rw [show (g.moved p).poll.held = p.held from rfl, hnone] at hheld
        cases hheld
      · exact (hu.held r v (hsame ▸ hheld)).moved hk.controls hk.device

/-! ## 4. The steps -/

/-- A disconnect leaves nothing that can be sent. -/
theorem down_disconnect (s : Poll κ) :
    Down { s.withB (gapDisconnect s.b) with link := false, owed := [] } :=
  ⟨rfl, rfl, rfl, rfl⟩

/-- **Without a connection** nothing but a connect changes that. -/
theorem Down.step {s p : Poll κ} {e : PollEv} (hd : Down s) (he : e ≠ .connect)
    (h : s.step env e = some p) : Down p := by
  obtain ⟨hlink, hconn, hready, hdev⟩ := hd
  cases e with
  | tick now =>
      have htick : pollTick s.b now = (s.b, none) := by
        unfold pollTick
        rw [hconn]
        rfl
      obtain ⟨-, rfl⟩ := Poll.step_tick h
      simp only [Poll.tick, htick]
      exact ⟨hlink, hconn, hready, hdev⟩
  | send =>
      obtain ⟨q, -, rfl⟩ := Poll.step_send h
      rcases sendRequest_spec env s.b.session q.req with ⟨-, href⟩ | ⟨hyes, -⟩
      · unfold Poll.send
        rw [href]
        exact ⟨hlink, hconn, hready, hdev⟩
      · rw [hready] at hyes
        cases hyes
  | mark now =>
      obtain ⟨-, rfl⟩ := Poll.step_mark h
      exact ⟨hlink, hconn, hready, hdev⟩
  | answer i data now =>
      obtain ⟨q, -, h⟩ := Option.bind_eq_some_iff.mp h
      obtain ⟨hyes, -⟩ := Poll.answer_cases h
      rw [hlink] at hyes
      cases hyes
  | exception i data =>
      obtain ⟨hyes, -⟩ := Poll.step_exception h
      rw [hlink] at hyes
      cases hyes
  | notify data =>
      obtain ⟨hyes, -⟩ := Poll.feedQuiet_cases h
      rw [hlink] at hyes
      cases hyes
  | lose i =>
      obtain ⟨-, rfl⟩ := Poll.step_lose h
      exact ⟨hlink, hconn, hready, hdev⟩
  | kexTimer =>
      have hsame : kexTimerCb s.b = s.b := by
        unfold kexTimerCb
        rw [hconn]
        rfl
      obtain rfl := Option.some.inj h
      rw [hsame]
      exact ⟨hlink, hconn, hready, hdev⟩
  | connect => exact absurd rfl he
  | disconnect => exact Option.some.inj h ▸ down_disconnect s
  | subscribed =>
      obtain rfl := Option.some.inj h
      exact ⟨hlink, hconn, hready, hdev⟩
  | setControls on =>
      rcases setControls_cases s.b on with ⟨-, hb⟩ | ⟨dev, hsome, -⟩
      · rw [← Option.some.inj h, hb]
        split <;> exact ⟨hlink, hconn, hready, hdev⟩
      · rw [hdev] at hsome
        cases hsome
  | writeControl field value =>
      rcases writeControl_spec s.b field value with hb | ⟨c, dev, q, -, -, hsome, -⟩
      · rw [← Option.some.inj h, hb]
        exact ⟨hlink, hconn, hready, hdev⟩
      · rw [hdev] at hsome
        cases hsome

/-- The events that the record says something of. -/
def PollEv.gating : PollEv → Bool
  | .tick _ | .send | .connect | .disconnect | .setControls _ | .writeControl _ _ => true
  | _ => false

/-- All others keep what the gate is about. -/
theorem keeps_step {s p : Poll κ} {e : PollEv} (he : e.gating = false)
    (h : s.step env e = some p) : Keeps s p := by
  cases e with
  | tick _ => cases he
  | send => cases he
  | connect => cases he
  | disconnect => cases he
  | setControls _ => cases he
  | writeControl _ _ => cases he
  | mark now =>
      obtain ⟨-, rfl⟩ := Poll.step_mark h
      exact ⟨rfl, fun _ => rfl, rfl, .inl rfl⟩
  | answer i data now =>
      obtain ⟨q, -, h⟩ := Option.bind_eq_some_iff.mp h
      obtain ⟨-, sess, -, ⟨f, regs, -, -, rfl⟩ | ⟨-, rfl⟩⟩ := Poll.answer_cases h
      · obtain ⟨hcontrols, hqueue, -, hdev⟩ :=
          sessionRegs_queue (s.received sess i).b s.b.session.pendingAddr regs now
        exact ⟨hcontrols, hdev, hqueue, .inr rfl⟩
      · exact ⟨rfl, fun _ => rfl, rfl, .inr rfl⟩
  | exception i data =>
      obtain ⟨-, sess, -, rfl⟩ := Poll.step_exception h
      exact ⟨rfl, fun _ => rfl, rfl, .inr rfl⟩
  | notify data =>
      obtain ⟨-, sess, -, rfl⟩ := Poll.feedQuiet_cases h
      exact ⟨rfl, fun _ => rfl, rfl, .inr rfl⟩
  | lose i =>
      obtain ⟨-, rfl⟩ := Poll.step_lose h
      exact ⟨rfl, fun _ => rfl, rfl, .inr rfl⟩
  | kexTimer =>
      obtain rfl := Option.some.inj h
      unfold kexTimerCb
      split <;> exact ⟨rfl, fun _ => rfl, rfl, .inr rfl⟩
  | subscribed =>
      obtain rfl := Option.some.inj h
      exact ⟨rfl, fun _ => rfl, rfl, .inr rfl⟩

/-- A tick takes the oldest write and what it was recorded with, or keeps all. -/
theorem GateInv.tick {g : Gate κ} {p : Poll κ} {now : Int} (hI : GateInv g)
    (h : g.poll.step env (.tick now) = some p) : GateInv (g.record env (.tick now) p) := by
  have hdown : Down g.poll → Down p := fun hd => hd.step PollEv.noConfusion h
  obtain ⟨hidle, h⟩ := Poll.step_tick h
  obtain ⟨b', q, htick⟩ : ∃ b' q, pollTick g.poll.b now = (b', q) := ⟨_, _, rfl⟩
  obtain ⟨hcontrols, hdevice, hcase⟩ := pollTick_queue htick
  simp only [Poll.tick, htick] at h
  rcases hcase with ⟨hqueue, hno⟩ | ⟨r, v, hqueue, rfl⟩
  · -- no write is taken
    have hk : Keeps g.poll p ∧ p.held = none := by
      have hheld : g.poll.held = none := by
        unfold Poll.held
        rw [hidle]
      cases q with
      | none =>
          subst h
          exact ⟨⟨hcontrols, fun _ => hdevice, hqueue, .inr rfl⟩, hheld⟩
      | some req =>
          cases req with
          | read f =>
              subst h
              exact ⟨⟨hcontrols, fun _ => hdevice, hqueue, .inl rfl⟩, rfl⟩
          | write r v => exact absurd rfl (hno r v)
    unfold Gate.record
    dsimp only
    rw [hk.2]
    exact hI.moved hk.1 hdown
  · subst h
    obtain ⟨e, rest, hrest, hfirst, htail⟩ := List.map_eq_cons_iff.mp (hI.queue.trans hqueue)
    unfold Gate.record
    dsimp only [Poll.held]
    rw [hrest]
    refine ⟨htail, hI.sent, ?_⟩
    rcases hI.link with hd | hu
    · exact .inl (hdown hd)
    · have hfit : ∀ e ∈ g.queued, Fit g e.1.1 e.2 := hu.queued
      rw [hrest] at hfit
      refine .inr ⟨fun hsome => hu.identified_moved hsome, fun e' he' => ?_, fun r' v' hheld => ?_⟩
      · exact (hfit e' (List.mem_cons_of_mem e he')).moved hcontrols fun _ => hdevice
      · obtain ⟨rfl, rfl⟩ := Prod.mk.inj (Option.some.inj hheld)
        have hhead := hfit e List.mem_cons_self
        rw [hfirst] at hhead
        exact hhead.moved hcontrols fun _ => hdevice

/-- **What goes out was let through.** -/
theorem GateInv.send {g : Gate κ} {p : Poll κ} (hI : GateInv g)
    (h : g.poll.step env .send = some p) : GateInv (g.record env .send p) := by
  have hdown : Down g.poll → Down p := fun hd => hd.step PollEv.noConfusion h
  have hk : Keeps g.poll p := by
    obtain ⟨q, -, rfl⟩ := Poll.step_send h
    refine ⟨rfl, fun _ => rfl, rfl, .inl ?_⟩
    unfold Poll.send Poll.held
    dsimp only
    cases (sendRequest env g.poll.b.session q.req).1 <;> rfl
  have hmoved := hI.moved hk hdown
  unfold Gate.record
  dsimp only
  split
  · exact hmoved
  · rename_i r v hheld
    split
    · rename_i hok
      refine ⟨hmoved.queue, fun w hw => ?_, hmoved.link.imp id fun hu => ⟨hu.1, hu.2, hu.3⟩⟩
      rcases List.mem_append.mp hw with hw | hw
      · exact hI.sent w hw
      · rw [List.mem_singleton.mp hw]
        rcases hI.link with hd | hu
        · -- without a connection there is no session
          rcases sendRequest_spec env g.poll.b.session (.write r v) with ⟨-, href⟩ | ⟨hyes, -⟩
          · rw [href] at hok
            cases hok
          · rw [hd.ready] at hyes
            cases hyes
        · obtain ⟨hon, hallows, hconn⟩ := hu.held r v hheld
          exact ⟨hon, hallows, hu.identified hallows.isSome, hconn⟩
    · exact hmoved

theorem GateInv.connect {g : Gate κ} {p : Poll κ} (hI : GateInv g) (hC : Settled g.poll .connect)
    (h : g.poll.step env .connect = some p) : GateInv (g.record env .connect p) := by
  obtain ⟨hempty, hheld⟩ := hC
  obtain rfl := Option.some.inj h
  have hqueued : g.queued = [] := List.map_eq_nil_iff.mp (hI.queue.trans hempty)
  refine ⟨hI.queue, hI.sent, .inr ⟨fun hsome => ?_, fun e he => ?_, fun r v hsome => ?_⟩⟩
  · cases hsome
  · rw [show (g.record env .connect _).queued = g.queued from rfl, hqueued] at he
    cases he
  · have hsame : g.poll.held = some (r, v) := hsome
    rw [hheld] at hsame
    cases hsame

theorem GateInv.setControls {g : Gate κ} {p : Poll κ} {on : Bool} (hI : GateInv g)
    (hC : Settled g.poll (.setControls on)) (h : g.poll.step env (.setControls on) = some p) :
    GateInv (g.record env (.setControls on) p) := by
  have hdown : Down g.poll → Down p := fun hd => hd.step PollEv.noConfusion h
  obtain ⟨hcontrols, hdevice, hqueue, hheld⟩ : p.b.controls = on ∧ p.b.device = g.poll.b.device ∧
      p.b.writeQueue = (if on then g.poll.b.writeQueue else []) ∧ p.held = g.poll.held := by
    rcases setControls_cases g.poll.b on with ⟨-, hb⟩ | ⟨dev, -, hb⟩
    · rw [← Option.some.inj h, hb]
      split <;> exact ⟨rfl, rfl, rfl, rfl⟩
    · rw [← Option.some.inj h, hb]
      split <;> exact ⟨rfl, rfl, rfl, rfl⟩
  have hkept : ∀ {reg n}, on = true → Fit g reg n → Fit (g.moved p) reg n := fun hon hfit =>
    hfit.moved (hcontrols.trans (hon.trans hfit.1.symm)) fun _ => hdevice
  refine ⟨?_, hI.sent, ?_⟩
  · rw [show (g.record env (.setControls on) p).poll.b.writeQueue = p.b.writeQueue from rfl, hqueue]
    cases on with
    | true => exact hI.queue
    | false => rfl
  · rcases hI.link with hd | hu
    · exact .inl (hdown hd)
    · refine .inr ⟨fun hsome => hu.identified_moved hsome, fun e he => ?_, fun r v hsome => ?_⟩
      · cases on with
        | true => exact hkept rfl (hu.queued e he)
        | false => cases he
      · rw [show (g.record env (.setControls on) p).poll.held = p.held from rfl, hheld] at hsome
        cases on with
        | true => exact hkept rfl (hu.held r v hsome)
        | false =>
            rw [hC rfl] at hsome
            cases hsome

theorem GateInv.writeControl {g : Gate κ} {p : Poll κ} {field : String} {value : Int}
    (hI : GateInv g) (h : g.poll.step env (.writeControl field value) = some p) :
    GateInv (g.record env (.writeControl field value) p) := by
  have hdown : Down g.poll → Down p := fun hd => hd.step PollEv.noConfusion h
  rcases writeControl_spec g.poll.b field value with
    hb | ⟨c, dev, q, hc, hon, hdev, hbit, hq, hb⟩
  · obtain rfl := Option.some.inj h
    have hrecord : g.record env (.writeControl field value)
        (g.poll.withB (bluettiBleWriteControl g.poll.b field value).2) =
        g.moved (g.poll.withB (bluettiBleWriteControl g.poll.b field value).2) := by
      simp only [Gate.record, hb]
      cases btControlLookup field <;> rfl
    rw [hrecord]
    rw [hb] at hdown ⊢
    exact hI.moved ⟨rfl, fun _ => rfl, rfl, .inr rfl⟩ hdown
  · have hp := Option.some.inj h
    rw [hb] at hp
    subst hp
    have hrecord : g.record env (.writeControl field value)
        (g.poll.withB { g.poll.b with writeQueue := q }) =
        { g.moved (g.poll.withB { g.poll.b with writeQueue := q }) with
          queued := requeue g.queued (c.reg, UInt16.ofInt value) g.conn } := by
      simp only [Gate.record, hb, hc]
    rw [hrecord]
    rw [← hI.queue] at hq
    refine ⟨requeue_spec hq, hI.sent, ?_⟩
    rcases hI.link with hd | hu
    · exact .inl (hdown hd)
    · refine .inr ⟨fun hsome => hu.identified_moved hsome, fun e he => ?_, fun r v hsome => ?_⟩
      · rcases mem_requeue he with rfl | he
        · exact ⟨hon, ⟨dev, c, hdev, List.mem_of_find?_eq_some hc, rfl, hbit⟩, rfl⟩
        · exact (hu.queued e he).moved rfl fun _ => rfl
      · exact (hu.held r v hsome).moved rfl fun _ => rfl

/-- **One step.** -/
theorem gateInv_step (g : Gate κ) (e : PollEv) (g' : Gate κ) (hC : Settled g.poll e)
    (hI : GateInv g) (h : g.step env e = some g') : GateInv g' := by
  obtain ⟨p, hp, rfl⟩ := Option.map_eq_some_iff.mp h
  have hquiet : e.gating = false → GateInv (g.moved p) := fun he =>
    hI.moved (keeps_step he hp) fun hd => hd.step (fun heq => by rw [heq] at he; cases he) hp
  cases e with
  | tick now => exact hI.tick hp
  | send => exact hI.send hp
  | connect => exact hI.connect hC hp
  | disconnect =>
      obtain rfl := Option.some.inj hp
      exact ⟨hI.queue, hI.sent, .inl (down_disconnect g.poll)⟩
  | setControls on => exact hI.setControls hC hp
  | writeControl field value => exact hI.writeControl hp
  | mark now => exact hquiet rfl
  | answer i data now => exact hquiet rfl
  | exception i data => exact hquiet rfl
  | notify data => exact hquiet rfl
  | lose i => exact hquiet rfl
  | kexTimer => exact hquiet rfl
  | subscribed => exact hquiet rfl

theorem gateInv_start (controls : Bool) (low : Int) : GateInv (Gate.start controls low : Gate κ) :=
  ⟨rfl, fun _ hw => absurd hw List.not_mem_nil, .inl ⟨rfl, rfl, rfl, rfl⟩⟩

/-- **Control writes are gated at the moment of sending** in every run -- of ticks, sends that fail
    or not, control writes, switches of the controls, answers that name the unit or not, and
    reconnects -- in which no write waits when a connection comes up and controls are not switched
    off between the tick that takes a write and its send. -/
theorem writes_gated {controls : Bool} {low : Int} {es : List PollEv} {g : Gate κ}
    (hC : StepMachine.Along (Gate.step env) (fun g => Settled g.poll) (Gate.start controls low) es)
    (hrun : StepMachine.run (Gate.step env) (Gate.start controls low) es = some g) :
    ∀ w ∈ g.sent, w.Gated :=
  (StepMachine.run_inv_along (Gate.step env) gateInv_step hC (gateInv_start controls low) hrun).sent

/-! ## 5. A unit with an AC output -/

/-- An AC2P that draws nothing, up to the state of its AC output: the fields every unit has, twice,
    the serial number, and the control. -/
def outputReadings : List (List UInt8) :=
  let common : List (List UInt8) :=
    [[0, 100], [0, 0], [0, 0], [0, 0], [0, 0], [0x43, 0x41, 0x50, 0x32, 0, 0, 0, 0, 0, 0, 0, 0]]
  common ++ common ++ [[0, 7, 0, 0, 0, 0, 0, 0], [0, 1]]

/-- The AC output is switched off from the page. -/
def outputOff : List PollEv := plainLink ++ rounds 0 outputReadings ++ [.writeControl "ac_output" 0]

theorem writes_gated_outputOff :
    ∃ g, StepMachine.run (Gate.step toyEnv) (Gate.start true 20) (outputOff ++ sendAt 4000000) =
        some g ∧ (∀ w ∈ g.sent, w.Gated) ∧
      g.sent = [⟨regCtrlAc, 0, true, btDeviceLookup "AC2P", 1, 1, 1⟩] := by
  have hC : StepMachine.Along (Gate.step toyEnv) (fun g => Settled g.poll) (Gate.start true 20)
      (outputOff ++ sendAt 4000000) :=
    StepMachine.along_of_check (Gate.step toyEnv) (fun g e h => of_decide_eq_true h)
      (c := fun g e => decide (Settled g.poll e)) (by decide +kernel)
  have hrun : (StepMachine.run (Gate.step toyEnv) (Gate.start true 20)
      (outputOff ++ sendAt 4000000)).map Gate.sent =
      some [⟨regCtrlAc, 0, true, btDeviceLookup "AC2P", 1, 1, 1⟩] := by decide +kernel
  obtain ⟨g, hg, hsent⟩ := Option.map_eq_some_iff.mp hrun
  exact ⟨g, hg, writes_gated hC hg, hsent⟩

/-- The link drops before the next tick, and some unit answers after it. -/
def staleWriteRun : List PollEv := outputOff ++ [.disconnect] ++ plainLink ++ sendAt 9000000

/-- **A write that waits while the link drops** goes to whatever unit answers after the reconnect,
    before that has named itself. -/
theorem stale_write_sent :
    ∃ g, StepMachine.run (Gate.step toyEnv) (Gate.start true 20) staleWriteRun = some g ∧
      g.sent = [⟨regCtrlAc, 0, true, none, 2, 1, 1⟩] ∧ ¬ ∀ w ∈ g.sent, w.Gated := by
  have hrun : (StepMachine.run (Gate.step toyEnv) (Gate.start true 20) staleWriteRun).map
      Gate.sent = some [⟨regCtrlAc, 0, true, none, 2, 1, 1⟩] := by decide +kernel
  obtain ⟨g, hg, hsent⟩ := Option.map_eq_some_iff.mp hrun
  refine ⟨g, hg, hsent, fun hall => ?_⟩
  rw [hsent] at hall
  have hsame := (hall _ (List.mem_singleton_self _)).requested
  cases hsame

end NutBluetti.Ble
