/-
  File:      NutBluetti/Ble/PollSpec.lean
  Subject:   WHAT EACH STEP OF THE POLL LOOP DOES: one lemma for the tick, the send and the answer,
             and what every step that calls nothing back leaves alone.

  * `pollTick_cases` -- a tick takes a write, takes the next field of the plan, or only gives up;
  * `sendRequest_spec` -- a request that goes out puts its address on the next answer;
  * **`Poll.answer_cases`** -- register data reaches `session_regs` under the pending address;
  * `Poll.step_tick` and its like -- when a step is enabled, and what it then does.
-/
import NutBluetti.Ble.SessionFrame
import NutBluetti.Ble.Poll

namespace NutBluetti.Ble

variable {κ : Type} {env : Env κ}

/-! ## 1. The tick -/

/-- The fields of `b` that say what is polled and what was read. -/
structure SameSweep (b b' : BluettiBle κ) : Prop where
  session : b'.session = b.session
  plan : b'.plan = b.plan
  planI : b'.planI = b.planI
  sweepReads : b'.sweepReads = b.sweepReads
  device : b'.device = b.device
  state : b'.state = b.state

theorem SameSweep.refl (b : BluettiBle κ) : SameSweep b b := ⟨rfl, rfl, rfl, rfl, rfl, rfl⟩

theorem SameSweep.trans {b b' b'' : BluettiBle κ} (h : SameSweep b b') (h' : SameSweep b' b'') :
    SameSweep b b'' :=
  ⟨h'.session.trans h.session, h'.plan.trans h.plan, h'.planI.trans h.planI,
    h'.sweepReads.trans h.sweepReads, h'.device.trans h.device, h'.state.trans h.state⟩

theorem sameSweep_giveUp (b : BluettiBle κ) : SameSweep b b.giveUp := by
  unfold BluettiBle.giveUp
  split
  · exact .refl b
  · split <;> exact ⟨rfl, rfl, rfl, rfl, rfl, rfl⟩

/-- The next request is a queued write, or the field of the plan that is due, which the sweep then
    counts. -/
theorem takeNext_cases {b b' : BluettiBle κ} {q : Option Request} (h : b.takeNext = (b', q)) :
    (SameSweep b b' ∧ ∀ f, q ≠ some (.read f)) ∨
      ∃ f, b.plan[b.planI]? = some f ∧ q = some (.read f) ∧
        b' = { b with
          planI := (b.planI + 1) % b.plan.length
          sweepReads :=
            if b.sweepReads < b.plan.length then b.sweepReads + 1 else b.sweepReads } := by
  unfold BluettiBle.takeNext at h
  split at h
  · obtain ⟨rfl, rfl⟩ := Prod.mk.inj h
    exact .inl ⟨⟨rfl, rfl, rfl, rfl, rfl, rfl⟩, by simp⟩
  split at h
  · obtain ⟨rfl, rfl⟩ := Prod.mk.inj h
    exact .inl ⟨⟨rfl, rfl, rfl, rfl, rfl, rfl⟩, by simp⟩
  · rename_i f hf
    obtain ⟨rfl, rfl⟩ := Prod.mk.inj h
    exact .inr ⟨f, hf, rfl, rfl⟩

/-- **A tick** leaves the sweep as it is, or takes the field of the plan that is due. -/
theorem pollTick_cases {b b' : BluettiBle κ} {now : Int} {q : Option Request}
    (h : pollTick b now = (b', q)) :
    (SameSweep b b' ∧ ∀ f, q ≠ some (.read f)) ∨
      ∃ f, b.plan[b.planI]? = some f ∧ q = some (.read f) ∧ b'.session = b.session ∧
        b'.plan = b.plan ∧ b'.planI = (b.planI + 1) % b.plan.length ∧
        b'.sweepReads = (if b.sweepReads < b.plan.length then b.sweepReads + 1 else b.sweepReads) ∧
        b'.device = b.device ∧ b'.state = b.state := by
  unfold pollTick at h
  split at h
  · obtain ⟨rfl, rfl⟩ := Prod.mk.inj h
    exact .inl ⟨.refl b, by simp⟩
  split at h
  · obtain ⟨rfl, rfl⟩ := Prod.mk.inj h
    exact .inl ⟨.refl b, by simp⟩
  split at h
  · obtain ⟨rfl, rfl⟩ := Prod.mk.inj h
    exact .inl ⟨sameSweep_giveUp b, by simp⟩
  have hg := sameSweep_giveUp b
  rcases takeNext_cases h with ⟨hs, hq⟩ | ⟨f, hf, rfl, rfl⟩
  · exact .inl ⟨hg.trans hs, hq⟩
  · rw [hg.plan, hg.planI] at hf
    refine .inr ⟨f, hf, rfl, hg.session, hg.plan, ?_, ?_, hg.device, hg.state⟩
    · show (b.giveUp.planI + 1) % b.giveUp.plan.length = _
      rw [hg.plan, hg.planI]
    · show (if b.giveUp.sweepReads < b.giveUp.plan.length then _ else _) = _
      rw [hg.plan, hg.sweepReads]

theorem pollTick_session (b : BluettiBle κ) (now : Int) :
    (pollTick b now).1.session = b.session := by
  rcases pollTick_cases (show pollTick b now = (_, _) from rfl) with ⟨hs, -⟩ | ⟨f, -, -, hs, -⟩
  · exact hs.session
  · exact hs

/-! ## 2. The send -/

theorem kexFrame_sendCmd (s : BtSession κ) (cmd : List UInt8) :
    KexFrame s (sendCmd env s cmd).2 := by
  unfold sendCmd
  split
  · exact kexFrame_transmit (show transmit env s cmd = (_, _) from rfl)
  · have hdraw : KexFrame s { s with draws := s.draws + 1 } := .of_log rfl rfl rfl
    unfold aesWrapSeed
    simp only
    split
    · rename_i s' hw
      obtain ⟨-, rfl⟩ := Prod.mk.inj hw
      exact hdraw
    · rename_i wrapped s' hw
      obtain ⟨-, rfl⟩ := Prod.mk.inj hw
      exact hdraw.trans (kexFrame_transmit (show transmit env _ wrapped = (_, _) from rfl))

/-- **A request** is refused by a session that is not ready, and otherwise leaves its own address
    for the next answer. -/
theorem sendRequest_spec (env : Env κ) (s : BtSession κ) (q : Request) :
    (btSessionReady s = false ∧ sendRequest env s q = (false, s)) ∨
      (btSessionReady s = true ∧ (sendRequest env s q).2.pendingAddr = q.addr) := by
  cases hr : btSessionReady s with
  | false =>
      refine .inl ⟨rfl, ?_⟩
      cases q <;> simp [sendRequest, btSessionReadRegs, btSessionWriteReg, hr]
  | true =>
      refine .inr ⟨rfl, ?_⟩
      cases q with
      | read f =>
          simp only [sendRequest, btSessionReadRegs, hr, Bool.not_true, Bool.false_eq_true,
            if_false]
          exact (kexFrame_sendCmd _ _).pendingAddr
      | write r v =>
          simp only [sendRequest, btSessionWriteReg, hr, Bool.not_true, Bool.false_eq_true,
            if_false]
          exact (kexFrame_sendCmd _ _).pendingAddr

/-! ## 3. Notifications -/

/-- All register data called back carries the pending address, which stays. -/
theorem feed_regs_label {s : Poll κ} {data : List UInt8} {sess : BtSession κ}
    (h : s.feed env data = some sess) :
    s.link = true ∧ sess.pendingAddr = s.b.session.pendingAddr ∧
      ∀ a d, SessEvent.regs a d ∈ callbacks s.b.session sess → a = s.b.session.pendingAddr := by
  unfold Poll.feed at h
  split at h
  · rename_i hlink
    obtain rfl := Option.some.inj h
    obtain ⟨hpend, m, hm, hlab⟩ := labelled_feed env s.b.session data
    refine ⟨hlink, hpend, fun a d hmem => hlab a d ?_⟩
    rw [callbacks, hm, List.drop_left] at hmem
    exact (List.mem_filter.mp hmem).1
  · cases h

/-- A session in which more has arrived, with the same pending address. -/
def Poll.received (s : Poll κ) (sess : BtSession κ) (i : Nat) : Poll κ :=
  { s with b := { s.b with session := sess }, owed := s.owed.eraseIdx i }

/-- **An answer**: the registers of a read reach `session_regs` under the pending address, or a
    write is acknowledged. -/
theorem Poll.answer_cases {s s' : Poll κ} {i : Nat} {q : Issued} {data : List UInt8} {now : Int}
    (h : s.answer env i q data now = some s') :
    s.link = true ∧ ∃ sess, sess.pendingAddr = s.b.session.pendingAddr ∧
      ((∃ f regs, q.req = .read f ∧ regs.length = 2 * f.words.toNat ∧
          s' = (s.received sess i).regs q f s.b.session.pendingAddr regs now) ∨
        ((∃ r v, q.req = .write r v) ∧
          s' = (s.received sess i).withB (sessionAck (s.received sess i).b))) := by
  obtain ⟨sess, hsess, h⟩ := Option.bind_eq_some_iff.mp h
  obtain ⟨hlink, hpend, hlab⟩ := feed_regs_label hsess
  refine ⟨hlink, sess, hpend, ?_⟩
  simp only at h
  split at h
  · rename_i f label regs hq hcb
    split at h
    · rename_i hlen
      obtain rfl := hlab label regs (by simp [hcb])
      exact .inl ⟨f, regs, hq, hlen, (Option.some.inj h).symm⟩
    · cases h
  · rename_i r v _ _ _ hq _
    exact .inr ⟨⟨r, v, hq⟩, (Option.some.inj h).symm⟩
  · cases h

/-- A notification that completes no answer changes the session, and not its pending address. -/
theorem Poll.feedQuiet_cases {s s' : Poll κ} {data : List UInt8}
    (h : s.feedQuiet env data = some s') :
    s.link = true ∧ ∃ sess, sess.pendingAddr = s.b.session.pendingAddr ∧
      s' = s.withB { s.b with session := sess } := by
  obtain ⟨sess, hsess, h⟩ := Option.bind_eq_some_iff.mp h
  obtain ⟨hlink, hpend, -⟩ := feed_regs_label hsess
  refine ⟨hlink, sess, hpend, ?_⟩
  simp only at h
  split at h
  · exact (Option.some.inj h).symm
  · cases h

/-! ## 4. The other steps -/

@[simp] theorem sessionRegs_session (b : BluettiBle κ) (addr : UInt16) (data : List UInt8)
    (now : Int) : (sessionRegs b addr data now).2.session = b.session := by
  unfold sessionRegs
  simp only
  split <;> rfl

/-- `bluetti_ble_set_controls`: the switch and the queue of writes; and for a unit that is known,
    its plan anew. -/
theorem setControls_cases (b : BluettiBle κ) (on : Bool) :
    (b.device = none ∧ bluettiBleSetControls b on =
      { b with controls := on, writeQueue := if on then b.writeQueue else [] }) ∨
    ∃ dev, b.device = some dev ∧ bluettiBleSetControls b on =
      { b with
        controls := on
        writeQueue := if on then b.writeQueue else []
        plan := btRegsPlan dev on btRegPlanMax
        planI := 0
        sweepReads := 0 } := by
  unfold bluettiBleSetControls
  cases hd : b.device with
  | none => exact .inl ⟨rfl, by simp only⟩
  | some dev => exact .inr ⟨dev, rfl, by simp only⟩

@[simp] theorem setControls_session (b : BluettiBle κ) (on : Bool) :
    (bluettiBleSetControls b on).session = b.session := by
  rcases setControls_cases b on with ⟨-, hb⟩ | ⟨dev, -, hb⟩ <;> rw [hb]

theorem setControls_connected (b : BluettiBle κ) (on : Bool) :
    (bluettiBleSetControls b on).connected = b.connected := by
  rcases setControls_cases b on with ⟨-, hb⟩ | ⟨dev, -, hb⟩ <;> rw [hb]

theorem kexTimerCb_pendingAddr (b : BluettiBle κ) :
    (kexTimerCb b).session.pendingAddr = b.session.pendingAddr := by
  unfold kexTimerCb btSessionUsePlain
  split
  · split <;> rfl
  · rfl

/-- A control write is refused, or passed every check and was queued. -/
theorem writeControl_spec (b : BluettiBle κ) (field : String) (value : Int) :
    bluettiBleWriteControl b field value = (false, b) ∨
      ∃ c dev q, btControlLookup field = some c ∧ b.controls = true ∧ b.device = some dev ∧
        dev.hasControl c.bit = true ∧
        enqueueWrite b.writeQueue c.reg (UInt16.ofInt value) = some q ∧
        bluettiBleWriteControl b field value = (true, { b with writeQueue := q }) := by
  unfold bluettiBleWriteControl
  split
  · exact .inl rfl
  rename_i c hc
  split
  · exact .inl rfl
  split
  · exact .inl rfl
  rename_i hcontrols
  split
  · exact .inl rfl
  rename_i dev hdev
  split
  · exact .inl rfl
  split
  · exact .inl rfl
  rename_i hmask
  split
  · exact .inl rfl
  split
  · exact .inl rfl
  rename_i q hq
  have hon : b.controls = true := by simpa using hcontrols
  have hbit : dev.hasControl c.bit = true := by simpa using hmask
  exact .inr ⟨c, dev, q, hc, hon, hdev, hbit, hq, rfl⟩

/-- A control write changes the write queue, if anything. -/
theorem writeControl_cases (b : BluettiBle κ) (field : String) (value : Int) :
    ∃ q, (bluettiBleWriteControl b field value).2 = { b with writeQueue := q } := by
  rcases writeControl_spec b field value with hb | ⟨c, dev, q, -, -, -, -, -, hb⟩
  · exact ⟨b.writeQueue, by rw [hb]⟩
  · exact ⟨q, by rw [hb]⟩

/-! ## 5. When a step is enabled -/

section Enabled

variable {s p : Poll κ} {now : Int} {i : Nat} {data : List UInt8}

theorem Poll.step_tick (h : s.step env (.tick now) = some p) :
    s.timer = .idle ∧ p = s.tick now := by
  simp only [Poll.step] at h
  split at h
  · rename_i hidle
    exact ⟨hidle, (Option.some.inj h).symm⟩
  · cases h

theorem Poll.step_send (h : s.step env .send = some p) :
    ∃ q, s.timer = .send q ∧ p = s.send env q := by
  simp only [Poll.step] at h
  split at h
  · rename_i q hq
    exact ⟨q, hq, (Option.some.inj h).symm⟩
  · cases h

theorem Poll.step_mark (h : s.step env (.mark now) = some p) :
    s.timer = .mark ∧ p = { s.withB (s.b.markSent now) with timer := .idle } := by
  simp only [Poll.step] at h
  split at h
  · rename_i hmark
    exact ⟨hmark, (Option.some.inj h).symm⟩
  · cases h

/-- An exception comes for a read that is owed an answer. -/
theorem Poll.step_exception (h : s.step env (.exception i data) = some p) :
    s.link = true ∧ ∃ sess, sess.pendingAddr = s.b.session.pendingAddr ∧
      p = { s.withB { s.b with session := sess } with owed := s.owed.eraseIdx i } := by
  obtain ⟨q, -, h⟩ := Option.bind_eq_some_iff.mp h
  split at h
  · obtain ⟨s1, h1, rfl⟩ := Option.map_eq_some_iff.mp h
    obtain ⟨hlink, sess, hpend, rfl⟩ := Poll.feedQuiet_cases h1
    exact ⟨hlink, sess, hpend, rfl⟩
  · cases h

theorem Poll.step_lose (h : s.step env (.lose i) = some p) :
    i < s.owed.length ∧ p = { s with owed := s.owed.eraseIdx i } := by
  simp only [Poll.step] at h
  split at h
  · rename_i hi
    exact ⟨hi, (Option.some.inj h).symm⟩
  · cases h

end Enabled

end NutBluetti.Ble
