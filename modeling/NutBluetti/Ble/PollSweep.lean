/-
  File:      NutBluetti/Ble/PollSweep.lean
  Subject:   WHEN A SWEEP IS DONE. `sweep_reads` counts the fields of the plan as they are asked
             for; `sweep_done` tells the rest of the program that they were read.

  * `SweepTrue` -- a state is published with `sweep_done` only when every field of the plan was
    answered, and the mains is reported out only when its registers were;
  * **`sweep_done_unanswered`** -- a unit on the mains that refuses one register once is reported to
    be on battery;
  * `ReadInTurn` -- the condition: each read of the first sweep gets its register data before the
    loop takes the next request and before other register data arrives;
  * **`sweepTrue_of_readInTurn`** -- every run that meets it keeps `SweepTrue`.
-/
import NutBluetti.Ble.RegsSpec
import NutBluetti.Ble.PollLabels

namespace NutBluetti.Ble

variable {κ : Type} {env : Env κ}

/-! ## 1. The property and the condition -/

/-- What a call of `session_regs` says of the sweep is true: every field of the plan has been
    answered since the plan was built, and no report of a power failure is made of it before the
    mains registers of the plan were read and are known. -/
structure RegsCall.SweepTrue (c : RegsCall) : Prop where
  sweep : c.state.sweepDone = true → ∀ f ∈ c.plan, f ∈ c.answered
  power : ∀ low, (publishPower low c.state).onBattery = true →
    acInputPowerRead ∈ c.answered ∧ 0 ≤ c.state.acInWatts
  voltage : ∀ low, (publishPower low c.state).onBattery = true → acInputVoltageRead ∈ c.plan →
    acInputVoltageRead ∈ c.answered ∧ 0 ≤ c.state.acInVolts

/-- **Every state `session_regs` made, published or not, tells the truth of the sweep.** -/
def SweepTrue (s : Poll κ) : Prop := ∀ c ∈ s.calls, c.SweepTrue

/-- A tick takes a request only when no read of the first sweep waits for its data, and the data of
    a read that arrives while one does is its own. -/
def ReadInTurn (s : Poll κ) : PollEv → Prop
  | .tick nowUs => (pollTick s.b nowUs).2.isSome = true → s.awaiting = none
  | .answer i _ _ =>
      match s.owed[i]? with
      | some q => q.req.isRead = true → s.awaiting = none ∨ s.awaiting = some q.id
      | none => True
  | _ => True

instance (s : Poll κ) (e : PollEv) : Decidable (ReadInTurn s e) := by
  unfold ReadInTurn
  split
  · infer_instance
  · split <;> infer_instance
  · infer_instance

/-- A power failure is reported only by a state with `sweep_done`. -/
theorem sweepDone_of_onBattery {low : Int} {st : BluettiState}
    (h : (publishPower low st).onBattery = true) : st.sweepDone = true := by
  cases hs : st.sweepDone with
  | true => rfl
  | false =>
      have hwait : publishPower low st = ⟨"OL WAIT", false, false, -1⟩ := by
        simp [publishPower, hs]
      rw [hwait] at h
      exact absurd h (by decide)

/-! ## 2. What `session_regs` does to the sweep -/

/-- The two ways through `session_regs`: the unit names itself, and the plan is a new one; or the
    reading is applied and the plan stays. -/
theorem sessionRegs_cases (b : BluettiBle κ) (addr : UInt16) (data : List UInt8) (now : Int) :
    let b1 := (b.applyRegs addr data now).2
    let b' := (sessionRegs b addr data now).2
    (b1.unnamed = true ∧ b'.sweepReads = 0 ∧ b'.planI = 0 ∧ b'.state.sweepDone = false ∧
        ∃ dev, b'.device = some dev ∧ b'.plan = btRegsPlan dev b.controls btRegPlanMax) ∨
      (b1.unnamed = false ∧ b'.plan = b.plan ∧ b'.planI = b.planI ∧ b'.sweepReads = b.sweepReads ∧
        b'.device = b.device ∧ b'.state.acInWatts = b1.state.acInWatts ∧
        b'.state.acInVolts = b1.state.acInVolts ∧
        b'.state.sweepDone =
          (decide (0 < b.plan.length) && decide (b.plan.length ≤ b.sweepReads))) := by
  cases hu : (b.applyRegs addr data now).2.unnamed with
  | true =>
      refine .inl ⟨hu, ?_⟩
      unfold sessionRegs
      simp only [hu, if_true]
      have hnot : ∀ n : Nat, (decide (0 < n) && decide (n ≤ 0)) = false := by
        intro n
        cases n <;> simp
      exact ⟨rfl, rfl, hnot (b.applyRegs addr data now).2.identify.plan.length, _, rfl, rfl⟩
  | false =>
      refine .inr ⟨hu, ?_⟩
      unfold sessionRegs
      simp only [hu, Bool.false_eq_true, if_false]
      exact ⟨rfl, rfl, rfl, rfl, rfl, rfl, rfl⟩

/-! ## 3. The count -/

/-- **The count of the sweep**: the fields it counts were answered, but for the last, whose read is
    the one awaited; the answer to that read will carry its own address. -/
structure CountInv (s : Poll κ) : Prop where
  fits : s.b.sweepReads ≤ s.b.plan.length
  next : s.b.sweepReads < s.b.plan.length → s.b.planI = s.b.sweepReads
  fresh : ∀ q, q ∈ s.owed ∨ s.timer = .send q → q.id < s.nextId
  done : s.awaiting = none → ∀ f ∈ s.b.plan.take s.b.sweepReads, f ∈ s.answered
  before : ∀ id, s.awaiting = some id →
    0 < s.b.sweepReads ∧ ∀ f ∈ s.b.plan.take (s.b.sweepReads - 1), f ∈ s.answered
  last : ∀ q, q ∈ s.owed ∨ s.timer = .send q → s.awaiting = some q.id →
    ∃ f, q.req = .read f ∧ s.b.plan[s.b.sweepReads - 1]? = some f
  turn : ∀ q, s.timer = .send q → ∀ id, s.awaiting = some id → q.id = id
  label : ∀ q ∈ s.owed, s.awaiting = some q.id → q.req.addr = s.b.session.pendingAddr

/-- What the count depends on. -/
structure SameCount (s s' : Poll κ) : Prop where
  plan : s'.b.plan = s.b.plan
  planI : s'.b.planI = s.b.planI
  sweepReads : s'.b.sweepReads = s.b.sweepReads
  pendingAddr : s'.b.session.pendingAddr = s.b.session.pendingAddr
  timer : ∀ q, s'.timer = .send q → s.timer = .send q
  owed : ∀ q ∈ s'.owed, q ∈ s.owed
  nextId : s'.nextId = s.nextId
  answered : s'.answered = s.answered
  awaiting : s'.awaiting = s.awaiting

theorem CountInv.frame {s s' : Poll κ} (hI : CountInv s) (h : SameCount s s') : CountInv s' := by
  have hany : ∀ q, q ∈ s'.owed ∨ s'.timer = .send q → q ∈ s.owed ∨ s.timer = .send q :=
    fun q hq => hq.imp (h.owed q) (h.timer q)
  refine ⟨?_, ?_, ?_, ?_, ?_, ?_, ?_, ?_⟩
  · rw [h.plan, h.sweepReads]
    exact hI.fits
  · rw [h.plan, h.sweepReads, h.planI]
    exact hI.next
  · rw [h.nextId]
    exact fun q hq => hI.fresh q (hany q hq)
  · rw [h.plan, h.sweepReads, h.awaiting, h.answered]
    exact hI.done
  · rw [h.plan, h.sweepReads, h.awaiting, h.answered]
    exact hI.before
  · rw [h.plan, h.sweepReads, h.awaiting]
    exact fun q hq => hI.last q (hany q hq)
  · rw [h.awaiting]
    exact fun q hq => hI.turn q (h.timer q hq)
  · rw [h.awaiting, h.pendingAddr]
    exact fun q hq => hI.label q (h.owed q hq)

/-- Nothing is awaited: only what was counted has to be answered. -/
theorem CountInv.of_none {s : Poll κ} (hfits : s.b.sweepReads ≤ s.b.plan.length)
    (hnext : s.b.sweepReads < s.b.plan.length → s.b.planI = s.b.sweepReads)
    (hfresh : ∀ q, q ∈ s.owed ∨ s.timer = .send q → q.id < s.nextId)
    (hdone : ∀ f ∈ s.b.plan.take s.b.sweepReads, f ∈ s.answered) (hnone : s.awaiting = none) :
    CountInv s := by
  refine ⟨hfits, hnext, hfresh, fun _ => hdone, ?_, ?_, ?_, ?_⟩
  · rw [hnone]
    exact fun id hid => by cases hid
  · rw [hnone]
    exact fun q _ hid => by cases hid
  · rw [hnone]
    exact fun q _ id hid => by cases hid
  · rw [hnone]
    exact fun q _ hid => by cases hid

/-- A plan just built, nothing of it asked for. -/
theorem CountInv.rebuilt {s s' : Poll κ} (hI : CountInv s) (hsweep : s'.b.sweepReads = 0)
    (hnext : s'.b.planI = 0) (htimer : ∀ q, s'.timer = .send q → s.timer = .send q)
    (howed : ∀ q ∈ s'.owed, q ∈ s.owed) (hid : s'.nextId = s.nextId) (haw : s'.awaiting = none) :
    CountInv s' := by
  refine CountInv.of_none (by omega) (fun _ => by omega) (fun q hq => ?_) (fun f hf => ?_) haw
  · rw [hid]
    exact hI.fresh q (hq.imp (howed q) (htimer q))
  · rw [hsweep] at hf
    cases hf

/-- The plan and the count stay, and nothing is awaited. -/
theorem CountInv.kept {s s' : Poll κ} (hI : CountInv s) (hplan : s'.b.plan = s.b.plan)
    (hreads : s'.b.sweepReads = s.b.sweepReads)
    (hnext : s.b.sweepReads < s.b.plan.length → s'.b.planI = s.b.sweepReads)
    (hfresh : ∀ q, q ∈ s'.owed ∨ s'.timer = .send q → q.id < s'.nextId)
    (hdone : ∀ f ∈ s.b.plan.take s.b.sweepReads, f ∈ s'.answered) (haw : s'.awaiting = none) :
    CountInv s' := by
  refine CountInv.of_none ?_ ?_ hfresh ?_ haw
  · rw [hplan, hreads]
    exact hI.fits
  · rw [hplan, hreads]
    exact hnext
  · rw [hplan, hreads]
    exact hdone

/-- A request gets a fresh number. -/
theorem CountInv.fresh_issued {s : Poll κ} (hI : CountInv s) {r : Request} :
    ∀ q, q ∈ s.owed ∨ TimerPhase.send ⟨s.nextId, r⟩ = .send q → q.id < s.nextId + 1 := by
  intro q hq
  rcases hq with hq | hq
  · have := hI.fresh q (.inl hq)
    omega
  · obtain rfl : (⟨s.nextId, r⟩ : Issued) = q := by simpa using hq
    exact Nat.lt_succ_self _

/-- The field at `plan_i` is counted, and its read is awaited. -/
theorem CountInv.counted {s : Poll κ} (hI : CountInv s) (hnone : s.awaiting = none) {f : BtRegRead}
    {b : BluettiBle κ} (hlt : s.b.sweepReads < s.b.plan.length)
    (hf : s.b.plan[s.b.sweepReads]? = some f)
    (hplan : b.plan = s.b.plan) (hplanI : b.planI = (s.b.sweepReads + 1) % s.b.plan.length)
    (hreads : b.sweepReads = s.b.sweepReads + 1) :
    CountInv { s with
      b := b
      timer := .send ⟨s.nextId, .read f⟩
      nextId := s.nextId + 1
      awaiting := some s.nextId } := by
  refine ⟨?_, ?_, hI.fresh_issued, by simp, ?_, ?_, ?_, ?_⟩
  · show b.sweepReads ≤ b.plan.length
    rw [hreads, hplan]
    omega
  · show b.sweepReads < b.plan.length → b.planI = b.sweepReads
    rw [hreads, hplan, hplanI]
    exact fun h => Nat.mod_eq_of_lt h
  · intro id _
    show 0 < b.sweepReads ∧ ∀ f ∈ b.plan.take (b.sweepReads - 1), f ∈ s.answered
    rw [hreads, hplan]
    exact ⟨Nat.succ_pos _, hI.done hnone⟩
  · intro q hq hid
    have hid : s.nextId = q.id := by simpa using hid
    rcases hq with hq | hq
    · have hold := hI.fresh q (.inl hq)
      omega
    · obtain rfl : (⟨s.nextId, .read f⟩ : Issued) = q := by simpa using hq
      refine ⟨f, rfl, ?_⟩
      show b.plan[b.sweepReads - 1]? = some f
      rw [hreads, hplan]
      exact hf
  · intro q hq id hid
    obtain rfl : (⟨s.nextId, .read f⟩ : Issued) = q := by simpa using hq
    simpa using hid
  · intro q hq hid
    have hid : s.nextId = q.id := by simpa using hid
    have hold := hI.fresh q (.inl hq)
    omega

/-- **A tick**: the field it takes in the first sweep is the next one, and is awaited from now
    on. -/
theorem CountInv.tick {s : Poll κ} (hI : CountInv s) {now : Int}
    (hc : (pollTick s.b now).2.isSome = true → s.awaiting = none) : CountInv (s.tick now) := by
  unfold Poll.tick
  cases hp : pollTick s.b now with
  | mk b q =>
      rw [hp] at hc
      cases q with
      | none =>
          rcases pollTick_cases hp with ⟨hs, -⟩ | ⟨f, -, hq, -⟩
          · exact hI.frame ⟨hs.plan, hs.planI, hs.sweepReads, congrArg _ hs.session,
              fun _ hq => hq, fun _ hq => hq, rfl, rfl, rfl⟩
          · cases hq
      | some r =>
          have hnone := hc rfl
          rcases pollTick_cases hp with ⟨hs, hw⟩ | ⟨f, hf, hq, -, hplan, hplanI, hreads, -, -⟩
          · cases r with
            | read f => exact absurd rfl (hw f)
            | write reg v =>
                exact hI.kept hs.plan hs.sweepReads (fun hlt => hs.planI.trans (hI.next hlt))
                  hI.fresh_issued (hI.done hnone) hnone
          · obtain rfl : r = .read f := by simpa using hq
            by_cases hlt : s.b.sweepReads < s.b.plan.length
            · -- the first sweep: the field at `plan_i` is the next one to be counted
              rw [if_pos hlt] at hreads
              rw [hI.next hlt] at hf hplanI
              have haw : (if (Request.read f).isRead && decide (s.b.sweepReads < s.b.plan.length)
                  then some s.nextId else s.awaiting) = some s.nextId := by
                simp [Request.isRead, hlt]
              simp only [haw]
              exact hI.counted hnone hlt hf hplan hplanI hreads
            · -- a later sweep: the count is full, and stays
              rw [if_neg hlt] at hreads
              have haw : (if (Request.read f).isRead && decide (s.b.sweepReads < s.b.plan.length)
                  then some s.nextId else s.awaiting) = none := by
                simp [hlt, hnone]
              simp only [haw]
              exact hI.kept hplan hreads (fun h => absurd h hlt) hI.fresh_issued (hI.done hnone) rfl

/-- **A send**: the awaited read is the one that goes out, and leaves its own address. -/
theorem CountInv.send {s : Poll κ} {q : Issued} (hI : CountInv s) (hq : s.timer = .send q) :
    CountInv (s.send env q) := by
  have howed : ∀ r ∈ (s.send env q).owed, r ∈ s.owed ∨ s.timer = .send r := by
    intro r hr
    simp only [Poll.send] at hr
    split at hr
    · rcases List.mem_append.mp hr with hr | hr
      · exact .inl hr
      · rw [List.mem_singleton.mp hr]
        exact .inr hq
    · exact .inl hr
  have htimer : ∀ r, (s.send env q).timer ≠ .send r := by
    intro r
    show (if (sendRequest env s.b.session q.req).1 = true then TimerPhase.mark else .idle) ≠ _
    cases (sendRequest env s.b.session q.req).1 <;> simp
  have hany : ∀ r, r ∈ (s.send env q).owed ∨ (s.send env q).timer = .send r →
      r ∈ s.owed ∨ s.timer = .send r :=
    fun r hr => hr.elim (howed r) fun h => absurd h (htimer r)
  refine ⟨hI.fits, hI.next, fun r hr => hI.fresh r (hany r hr), hI.done, hI.before,
    fun r hr => hI.last r (hany r hr), fun r hr => absurd hr (htimer r), fun r hr hid => ?_⟩
  rcases sendRequest_spec env s.b.session q.req with ⟨-, href⟩ | ⟨-, hpend⟩
  · have hr' : r ∈ s.owed := by
      simpa [Poll.send, href] using hr
    show r.req.addr = (sendRequest env s.b.session q.req).2.pendingAddr
    rw [href]
    exact hI.label r hr' hid
  · show r.req.addr = (sendRequest env s.b.session q.req).2.pendingAddr
    rw [hpend]
    have hqid : s.awaiting = some q.id := by
      rw [hI.turn q hq r.id hid]
      exact hid
    obtain ⟨f, hrf, hf⟩ := hI.last r (howed r hr) hid
    obtain ⟨f', hqf, hf'⟩ := hI.last q (.inr hq) hqid
    rw [hf] at hf'
    obtain rfl := Option.some.inj hf'
    rw [hrf, hqf]

/-- What `Poll.regs` makes of the record, by the way `session_regs` went. -/
theorem regs_record (s : Poll κ) (q : Issued) (f : BtRegRead) (label : UInt16) (data : List UInt8)
    (now : Int) :
    let r := s.regs q f label data now
    ((s.b.applyRegs label data now).2.unnamed = true → r.answered = [] ∧ r.awaiting = none) ∧
      ((s.b.applyRegs label data now).2.unnamed = false →
        r.answered = (if label = f.addr then f :: s.answered else s.answered) ∧
        r.awaiting = if s.awaiting = some q.id then none else s.awaiting) := by
  refine ⟨fun hu => ?_, fun hu => ?_⟩
  · simp [Poll.regs, hu]
  · simp [Poll.regs, hu]

/-- What was counted has been answered once the awaited read is. -/
theorem CountInv.done_of_answer {s : Poll κ} {q : Issued} {f : BtRegRead} (hI : CountInv s)
    (hq : q ∈ s.owed) (hread : q.req = .read f) (hc : s.awaiting = some q.id) :
    s.b.session.pendingAddr = f.addr ∧
      ∀ g ∈ s.b.plan.take s.b.sweepReads, g ∈ f :: s.answered := by
  obtain ⟨hpos, hbefore⟩ := hI.before q.id hc
  obtain ⟨f', hf', hlast⟩ := hI.last q (.inl hq) hc
  rw [hread] at hf'
  obtain rfl : f = f' := by simpa using hf'
  have hlabel : q.req.addr = s.b.session.pendingAddr := hI.label q hq hc
  rw [hread] at hlabel
  refine ⟨hlabel.symm, fun g hg => ?_⟩
  have hsplit : s.b.plan.take s.b.sweepReads = s.b.plan.take (s.b.sweepReads - 1) ++ [f] := by
    have hlt : s.b.sweepReads - 1 < s.b.plan.length := by
      have hfits := hI.fits
      omega
    have hget : s.b.plan[s.b.sweepReads - 1] = f := by
      rw [List.getElem?_eq_getElem hlt] at hlast
      exact Option.some.inj hlast
    rw [← hget, List.take_append_getElem, Nat.sub_add_cancel hpos]
  rw [hsplit] at hg
  rcases List.mem_append.mp hg with hg | hg
  · exact List.mem_cons_of_mem f (hbefore g hg)
  · rw [List.mem_singleton.mp hg]
    exact List.mem_cons_self

/-- **Register data** of the awaited read, or of any while none is awaited: whatever the count says
    was asked for has been answered now. -/
theorem CountInv.regs {s : Poll κ} {q : Issued} {f : BtRegRead} {data : List UInt8} {now : Int}
    {i : Nat} {sess : BtSession κ} (hI : CountInv s) (hq : q ∈ s.owed) (hread : q.req = .read f)
    (hc : s.awaiting = none ∨ s.awaiting = some q.id) :
    let s' := (s.received sess i).regs q f s.b.session.pendingAddr data now
    CountInv s' ∧ s'.awaiting = none := by
  intro s'
  have hbase : ∀ r, r ∈ s'.owed ∨ s'.timer = .send r → r.id < s'.nextId :=
    fun r hr => hI.fresh r (hr.imp List.mem_of_mem_eraseIdx id)
  obtain ⟨hrenew, hstay⟩ := regs_record (s.received sess i) q f s.b.session.pendingAddr data now
  rcases sessionRegs_cases (s.received sess i).b s.b.session.pendingAddr data now with
    ⟨hu, hreads, hplanI, -, -⟩ | ⟨hu, hplan, hplanI, hreads, -⟩
  · have hnone : s'.awaiting = none := (hrenew hu).2
    refine ⟨CountInv.of_none ?_ ?_ hbase ?_ hnone, hnone⟩
    · show (sessionRegs _ _ _ _).2.sweepReads ≤ _
      rw [hreads]
      exact Nat.zero_le _
    · intro _
      show (sessionRegs _ _ _ _).2.planI = (sessionRegs _ _ _ _).2.sweepReads
      rw [hreads, hplanI]
    · show ∀ g ∈ List.take (sessionRegs _ _ _ _).2.sweepReads _, _
      rw [hreads]
      simp
  · have hnone : s'.awaiting = none := by
      rw [(hstay hu).2]
      show (if s.awaiting = some q.id then none else s.awaiting) = none
      rcases hc with hc | hc
      · rw [if_neg (by simp [hc]), hc]
      · rw [if_pos hc]
    have hplanI' : s'.b.planI = s.b.planI := hplanI
    refine ⟨hI.kept hplan hreads (fun hlt => hplanI'.trans (hI.next hlt)) hbase ?_ hnone, hnone⟩
    rw [(hstay hu).1]
    rcases hc with hc | hc
    · intro g hg
      have hold := hI.done hc g hg
      split
      · exact List.mem_cons_of_mem f hold
      · exact hold
    · -- the awaited read: the last field counted, answered under its own address
      obtain ⟨hown, hdone⟩ := hI.done_of_answer hq hread hc
      rw [if_pos hown]
      exact hdone

/-! ## 4. What is known of the mains -/

/-- **The mains registers**: one that was answered is known, and the voltage is in the plan only of
    a model that has it. -/
structure KnownInv (s : Poll κ) : Prop where
  watts : acInputPowerRead ∈ s.answered → 0 ≤ s.b.state.acInWatts
  volts : acInputVoltageRead ∈ s.b.plan → acInputVoltageRead ∈ s.answered → 0 ≤ s.b.state.acInVolts
  model : s.link = true → acInputVoltageRead ∈ s.b.plan →
    ∃ dev, s.b.device = some dev ∧ dev.hasField btFAcInV = true
  power : s.b.plan ≠ [] → acInputPowerRead ∈ s.b.plan

theorem KnownInv.frame {s s' : Poll κ} (hI : KnownInv s) (hplan : s'.b.plan = s.b.plan)
    (hdev : s'.b.device = s.b.device) (hstate : s'.b.state = s.b.state) (hlink : s'.link = s.link)
    (hans : s'.answered = s.answered) : KnownInv s' := by
  refine ⟨?_, ?_, ?_, ?_⟩
  · rw [hans, hstate]
    exact hI.watts
  · rw [hplan, hans, hstate]
    exact hI.volts
  · rw [hlink, hplan, hdev]
    exact hI.model
  · rw [hplan]
    exact hI.power

/-- A plan built for a model. -/
theorem KnownInv.planned {s : Poll κ} {dev : BtDevice} {controls : Bool} (hans : s.answered = [])
    (hplan : s.b.plan = btRegsPlan dev controls btRegPlanMax) (hdev : s.b.device = some dev) :
    KnownInv s := by
  refine ⟨?_, ?_, ?_, ?_⟩
  · rw [hans]
    exact fun h => absurd h List.not_mem_nil
  · rw [hans]
    exact fun _ h => absurd h List.not_mem_nil
  · rw [hplan, hdev]
    exact fun _ h => ⟨dev, rfl, hasField_of_voltage_mem h⟩
  · rw [hplan]
    exact fun _ => acInputPower_mem_plan dev controls

theorem KnownInv.regs {s : Poll κ} {q : Issued} {f : BtRegRead} {data : List UInt8} {now : Int}
    {i : Nat} {sess : BtSession κ} (hI : KnownInv s) (hlink : s.link = true)
    (hlen : data.length = 2 * f.words.toNat) :
    KnownInv ((s.received sess i).regs q f s.b.session.pendingAddr data now) := by
  obtain ⟨hrenew, hstay⟩ := regs_record (s.received sess i) q f s.b.session.pendingAddr data now
  rcases sessionRegs_cases (s.received sess i).b s.b.session.pendingAddr data now with
    ⟨hu, -, -, -, dev, hdev, hplan⟩ | ⟨hu, hplan, -, -, hdev, hwatts, hvolts, -⟩
  · exact KnownInv.planned (hrenew hu).1 hplan hdev
  · have hans := (hstay hu).1
    refine ⟨fun hmem => ?_, fun hin hmem => ?_, fun _ hin => ?_, fun hne => ?_⟩
    · show 0 ≤ (sessionRegs _ _ _ _).2.state.acInWatts
      rw [hwatts]
      rw [hans] at hmem
      split at hmem
      · rename_i hlabel
        rcases List.mem_cons.mp hmem with rfl | hmem
        · rw [hlabel]
          exact acInWatts_known hlen now _
        · exact regsApply_keeps raw_acInWatts settles_acInWatts _ _ _ now (hI.watts hmem)
      · exact regsApply_keeps raw_acInWatts settles_acInWatts _ _ _ now (hI.watts hmem)
    · have hin' : acInputVoltageRead ∈ s.b.plan := by
        rw [← show (sessionRegs (s.received sess i).b s.b.session.pendingAddr data now).2.plan =
          s.b.plan from hplan]
        exact hin
      show 0 ≤ (sessionRegs _ _ _ _).2.state.acInVolts
      rw [hvolts]
      rw [hans] at hmem
      split at hmem
      · rename_i hlabel
        rcases List.mem_cons.mp hmem with rfl | hmem
        · obtain ⟨dev, hd, hbit⟩ := hI.model hlink hin'
          rw [hlabel]
          show 0 ≤ (btRegsApply s.b.device _ _ _ _).2.acInVolts
          rw [hd]
          exact acInVolts_known hbit hlen now _
        · exact regsApply_keeps raw_acInVolts settles_acInVolts _ _ _ now (hI.volts hin' hmem)
      · exact regsApply_keeps raw_acInVolts settles_acInVolts _ _ _ now (hI.volts hin' hmem)
    · have hin' : acInputVoltageRead ∈ s.b.plan := by
        rw [← show (sessionRegs (s.received sess i).b s.b.session.pendingAddr data now).2.plan =
          s.b.plan from hplan]
        exact hin
      obtain ⟨dev, hd, hbit⟩ := hI.model hlink hin'
      exact ⟨dev, hdev.trans hd, hbit⟩
    · show acInputPowerRead ∈ (sessionRegs _ _ _ _).2.plan
      rw [hplan]
      refine hI.power ?_
      rw [← show (sessionRegs (s.received sess i).b s.b.session.pendingAddr data now).2.plan =
        s.b.plan from hplan]
      exact hne

/-! ## 5. Runs -/

/-- **The invariant.** -/
structure SweepInv (s : Poll κ) : Prop where
  count : CountInv s
  known : KnownInv s
  told : SweepTrue s

/-- A step that neither reads nor rebuilds. -/
theorem SweepInv.frame {s s' : Poll κ} (hI : SweepInv s) (h : SameCount s s')
    (hdev : s'.b.device = s.b.device) (hstate : s'.b.state = s.b.state) (hlink : s'.link = s.link)
    (hcalls : s'.calls = s.calls) : SweepInv s' := by
  refine ⟨hI.count.frame h, hI.known.frame h.plan hdev hstate hlink h.answered, ?_⟩
  rw [SweepTrue, hcalls]
  exact hI.told

/-- With nothing awaited, a state whose count is full tells the truth. -/
theorem sweepTrue_of_full {s : Poll κ} (hcount : CountInv s) (hknown : KnownInv s)
    (hnone : s.awaiting = none)
    (hfull : s.b.state.sweepDone = true → 0 < s.b.plan.length ∧ s.b.plan.length ≤ s.b.sweepReads)
    (label : UInt16) (q : Issued) (p : Bool) :
    RegsCall.SweepTrue ⟨label, q, s.b.state, p, s.b.plan, s.answered⟩ := by
  have hall : s.b.state.sweepDone = true → ∀ f ∈ s.b.plan, f ∈ s.answered := by
    intro hd f hf
    refine hcount.done hnone f ?_
    rw [List.take_of_length_le (hfull hd).2]
    exact hf
  have hpower : s.b.state.sweepDone = true → acInputPowerRead ∈ s.answered := by
    intro hd
    exact hall hd _ (hknown.power (List.ne_nil_of_length_pos (hfull hd).1))
  refine ⟨hall, fun low hb => ?_, fun low hb hin => ?_⟩
  · have hans := hpower (sweepDone_of_onBattery hb)
    exact ⟨hans, hknown.watts hans⟩
  · have hans := hall (sweepDone_of_onBattery hb) _ hin
    exact ⟨hans, hknown.volts hin hans⟩

/-- **Register data** keeps the invariant: with nothing awaited any more, a full count means that
    all of the plan was answered. -/
theorem SweepInv.regs {s : Poll κ} {q : Issued} {f : BtRegRead} {data : List UInt8} {now : Int}
    {i : Nat} {sess : BtSession κ} (hI : SweepInv s) (hlink : s.link = true) (hq : q ∈ s.owed)
    (hread : q.req = .read f) (hlen : data.length = 2 * f.words.toNat)
    (hc : s.awaiting = none ∨ s.awaiting = some q.id) :
    SweepInv ((s.received sess i).regs q f s.b.session.pendingAddr data now) := by
  have hcount : CountInv ((s.received sess i).regs q f s.b.session.pendingAddr data now) ∧
      ((s.received sess i).regs q f s.b.session.pendingAddr data now).awaiting = none :=
    hI.count.regs hq hread hc
  have hknown : KnownInv ((s.received sess i).regs q f s.b.session.pendingAddr data now) :=
    hI.known.regs hlink hlen
  refine ⟨hcount.1, hknown, fun c hmem => ?_⟩
  rcases List.mem_append.mp hmem with hmem | hmem
  · exact hI.told c hmem
  · rw [List.mem_singleton.mp hmem]
    refine sweepTrue_of_full hcount.1 hknown hcount.2 (fun hd => ?_) _ _ _
    have hd : (sessionRegs (s.received sess i).b s.b.session.pendingAddr data now).2.state.sweepDone
      = true := hd
    rcases sessionRegs_cases (s.received sess i).b s.b.session.pendingAddr data now with
      ⟨-, -, -, hno, -⟩ | ⟨-, hplan, -, hreads, -, -, -, hdone⟩
    · rw [hno] at hd
      cases hd
    · show 0 < (sessionRegs _ _ _ _).2.plan.length ∧
        (sessionRegs _ _ _ _).2.plan.length ≤ (sessionRegs _ _ _ _).2.sweepReads
      rw [hdone] at hd
      rw [hplan, hreads]
      simpa using hd

/-- **A tick** keeps it: what it changes is the reader's business, never the state or the link. -/
theorem SweepInv.tick {s : Poll κ} (hI : SweepInv s) {now : Int}
    (hc : (pollTick s.b now).2.isSome = true → s.awaiting = none) : SweepInv (s.tick now) := by
  obtain ⟨hlink, hcalls, hans, hb⟩ : (s.tick now).link = s.link ∧ (s.tick now).calls = s.calls ∧
      (s.tick now).answered = s.answered ∧ (s.tick now).b = (pollTick s.b now).1 := by
    unfold Poll.tick
    simp only
    split <;> exact ⟨rfl, rfl, rfl, rfl⟩
  refine ⟨hI.count.tick hc, ?_, ?_⟩
  · rcases pollTick_cases (show pollTick s.b now = (_, _) from rfl) with
      ⟨hs, -⟩ | ⟨f, -, -, -, hplan, -, -, hdev, hstate⟩
    · exact hI.known.frame (hb ▸ hs.plan) (hb ▸ hs.device) (hb ▸ hs.state) hlink hans
    · exact hI.known.frame (hb ▸ hplan) (hb ▸ hdev) (hb ▸ hstate) hlink hans
  · rw [SweepTrue, hcalls]
    exact hI.told

/-- **The control switch** keeps it: the plan of a known unit is built anew, and its count with
    it. -/
theorem SweepInv.setControls {s : Poll κ} (hI : SweepInv s) (on : Bool) :
    SweepInv (if s.b.device.isSome then s.rebuilt (bluettiBleSetControls s.b on)
      else s.withB (bluettiBleSetControls s.b on)) := by
  rcases setControls_cases s.b on with ⟨hd, hb⟩ | ⟨dev, hd, hb⟩
  · rw [if_neg (by simp [hd]), hb]
    exact hI.frame ⟨rfl, rfl, rfl, rfl, fun _ hq => hq, fun _ hq => hq, rfl, rfl, rfl⟩ rfl rfl rfl
      rfl
  · rw [if_pos (by simp [hd]), hb]
    exact ⟨hI.count.rebuilt rfl rfl (fun _ hq => hq) (fun _ hq => hq) rfl rfl,
      KnownInv.planned rfl rfl hd, hI.told⟩

/-- **One step.** -/
theorem sweepInv_step (s : Poll κ) (e : PollEv) (s' : Poll κ) (hc : ReadInTurn s e)
    (hI : SweepInv s) (h : s.step env e = some s') : SweepInv s' := by
  cases e with
  | tick now =>
      obtain ⟨-, rfl⟩ := Poll.step_tick h
      exact hI.tick hc
  | send =>
      obtain ⟨q, hq, rfl⟩ := Poll.step_send h
      exact ⟨hI.count.send hq, hI.known.frame rfl rfl rfl rfl rfl, hI.told⟩
  | mark now =>
      obtain ⟨-, rfl⟩ := Poll.step_mark h
      exact hI.frame ⟨rfl, rfl, rfl, rfl, fun q hq => (by cases hq), fun _ hq => hq, rfl, rfl, rfl⟩
        rfl rfl rfl rfl
  | answer i data now =>
      obtain ⟨q, hq, h⟩ := Option.bind_eq_some_iff.mp h
      obtain ⟨hlink, sess, hpend, hcase⟩ := Poll.answer_cases h
      simp only [ReadInTurn, hq] at hc
      rcases hcase with ⟨f, regs, hread, hlen, rfl⟩ | ⟨-, rfl⟩
      · exact hI.regs hlink (List.mem_of_getElem? hq) hread hlen (hc (by rw [hread]; rfl))
      · exact hI.frame ⟨rfl, rfl, rfl, hpend, fun _ hq => hq,
          fun _ hq => List.mem_of_mem_eraseIdx hq, rfl, rfl, rfl⟩ rfl rfl rfl rfl
  | exception i data =>
      obtain ⟨-, sess, hpend, rfl⟩ := Poll.step_exception h
      exact hI.frame ⟨rfl, rfl, rfl, hpend, fun _ hq => hq,
        fun _ hq => List.mem_of_mem_eraseIdx hq, rfl, rfl, rfl⟩ rfl rfl rfl rfl
  | notify data =>
      obtain ⟨-, sess, hpend, rfl⟩ := Poll.feedQuiet_cases h
      exact hI.frame ⟨rfl, rfl, rfl, hpend, fun _ hq => hq, fun _ hq => hq, rfl, rfl, rfl⟩
        rfl rfl rfl rfl
  | lose i =>
      obtain ⟨-, rfl⟩ := Poll.step_lose h
      exact hI.frame ⟨rfl, rfl, rfl, rfl, fun _ hq => hq,
        fun _ hq => List.mem_of_mem_eraseIdx hq, rfl, rfl, rfl⟩ rfl rfl rfl rfl
  | kexTimer =>
      obtain rfl := Option.some.inj h
      have hsame : SameSweep { s.b with session := (kexTimerCb s.b).session } (kexTimerCb s.b) := by
        unfold kexTimerCb
        split <;> exact ⟨rfl, rfl, rfl, rfl, rfl, rfl⟩
      exact hI.frame ⟨hsame.plan, hsame.planI, hsame.sweepReads, kexTimerCb_pendingAddr s.b,
        fun _ hq => hq, fun _ hq => hq, rfl, rfl, rfl⟩ hsame.device hsame.state rfl rfl
  | connect =>
      obtain rfl := Option.some.inj h
      refine ⟨hI.count.rebuilt rfl rfl (fun _ hq => hq) (fun q hq => by cases hq) rfl rfl, ?_,
        hI.told⟩
      exact ⟨fun hmem => absurd hmem List.not_mem_nil, fun _ hmem => absurd hmem List.not_mem_nil,
        fun _ hin => absurd hin List.not_mem_nil, fun hne => absurd rfl hne⟩
  | disconnect =>
      obtain rfl := Option.some.inj h
      refine ⟨hI.count.frame
        ⟨rfl, rfl, rfl, rfl, fun _ hq => hq, fun q hq => (by cases hq), rfl, rfl, rfl⟩, ?_, hI.told⟩
      exact ⟨hI.known.watts, hI.known.volts, fun hlink => (by cases hlink), hI.known.power⟩
  | subscribed =>
      obtain rfl := Option.some.inj h
      refine ⟨hI.count.rebuilt rfl rfl (fun _ hq => hq) (fun _ hq => hq) rfl rfl, ?_, hI.told⟩
      refine ⟨fun hmem => absurd hmem List.not_mem_nil, fun _ hmem => absurd hmem List.not_mem_nil,
        fun _ hin => ?_, fun _ => acInputPower_mem_plan _ _⟩
      exact absurd (hasField_of_voltage_mem hin) (by decide)
  | setControls on => exact Option.some.inj h ▸ hI.setControls on
  | writeControl field value =>
      obtain rfl := Option.some.inj h
      obtain ⟨q, hq⟩ := writeControl_cases s.b field value
      rw [hq]
      exact hI.frame ⟨rfl, rfl, rfl, rfl, fun _ hq => hq, fun _ hq => hq, rfl, rfl, rfl⟩
        rfl rfl rfl rfl

theorem sweepInv_start (controls : Bool) (low : Int) :
    SweepInv (Poll.start controls low : Poll κ) := by
  refine ⟨CountInv.of_none (Nat.le_refl 0) (fun _ => rfl) ?_ (fun f hf => by cases hf) rfl, ?_,
    fun c hc => absurd hc List.not_mem_nil⟩
  · intro q hq
    rcases hq with hq | hq
    · cases hq
    · cases hq
  · exact ⟨fun hmem => absurd hmem List.not_mem_nil, fun hin => absurd hin List.not_mem_nil,
      fun _ hin => absurd hin List.not_mem_nil, fun hne => absurd rfl hne⟩

/-- **`sweep_done` tells the truth** in every run -- of ticks, sends that fail or not, control
    writes, answers, exceptions, lost answers, rebuilt plans and reconnects -- in which each read of
    the first sweep of a plan gets its register data before the loop takes the next request and
    before other register data arrives. -/
theorem sweepTrue_of_readInTurn {controls : Bool} {low : Int} {es : List PollEv} {s : Poll κ}
    (hc : StepMachine.Along (Poll.step env) ReadInTurn (Poll.start controls low) es)
    (h : StepMachine.run (Poll.step env) (Poll.start controls low) es = some s) : SweepTrue s :=
  (StepMachine.run_inv_along (Poll.step env) sweepInv_step hc (sweepInv_start controls low) h).told

/-! ## 6. An idle unit on the mains -/

/-- One field after another, each answered at once. -/
def rounds : Int → List (List UInt8) → List PollEv
  | _, [] => []
  | t, regs :: rest =>
      sendAt t ++ [.answer 0 (readReply regs) (t + 100000)] ++ rounds (t + 250000) rest

/-- Charge, four powers and the name of a full EL10 that draws nothing: the bytes of each word of
    the name are swapped. -/
def idleReadings : List (List UInt8) :=
  [[0, 100], [0, 0], [0, 0], [0, 0], [0, 0], [0x4C, 0x45, 0x30, 0x31, 0, 0, 0, 0, 0, 0, 0, 0]]

/-- Up to the mains voltage: the fields every unit has, twice, since the plan is rebuilt when the
    unit names itself, and the runtime. -/
def idleStart : List PollEv :=
  plainLink ++ rounds 0 idleReadings ++ rounds 1500000 (idleReadings ++ [[0, 0]])

/-- Input current, output voltage and serial number. -/
def lastReadings : List (List UInt8) := [[0, 0], [0x08, 0xFC], [0, 7, 0, 0, 0, 0, 0, 0]]

/-- The sweep with every field answered, the voltage with 230.4 V. -/
def answeredSweep : List PollEv := idleStart ++ rounds 3250000 ([0x09, 0x00] :: lastReadings)

/-- What the last call of `session_regs` leads to: whether its state was published, `sweep_done`,
    whether the voltage is of the plan and was answered, and the NUT status. -/
def lastCall (s : Poll κ) : Option (Bool × Bool × Bool × Bool × String) :=
  s.calls.getLast?.map fun c =>
    (c.published, c.state.sweepDone, decide (acInputVoltageRead ∈ c.plan),
      decide (acInputVoltageRead ∈ c.answered), (publishPower 0 c.state).status)

theorem sweepTrue_of_readInTurn_answeredSweep :
    ∃ s, StepMachine.run (Poll.step toyEnv) (Poll.start false 20) answeredSweep = some s ∧
      SweepTrue s ∧ lastCall s = some (true, true, true, true, "OL") := by
  have hc : StepMachine.Along (Poll.step toyEnv) ReadInTurn (Poll.start false 20) answeredSweep :=
    StepMachine.along_of_check (Poll.step toyEnv) (fun s e h => of_decide_eq_true h)
      (c := fun s e => decide (ReadInTurn s e)) (by decide +kernel)
  have hrun : (StepMachine.run (Poll.step toyEnv) (Poll.start false 20) answeredSweep).map
    lastCall =
      some (some (true, true, true, true, "OL")) := by decide +kernel
  obtain ⟨s, hs, hlast⟩ := Option.map_eq_some_iff.mp hrun
  exact ⟨s, hs, sweepTrue_of_readInTurn hc hs, hlast⟩

/-- The same sweep, with the voltage refused once: an exception, given up six seconds later. -/
def refusedSweep : List PollEv :=
  idleStart ++ sendAt 3250000 ++ [.exception 0 (exceptionReply 2)] ++ rounds 9500000 lastReadings

/-- **A unit on the mains is reported to be on battery**: the voltage counts as asked for, was never
    answered, and is taken for zero. -/
theorem sweep_done_unanswered :
    ∃ s, StepMachine.run (Poll.step toyEnv) (Poll.start false 20) refusedSweep = some s ∧
      ¬ SweepTrue s ∧ lastCall s = some (true, true, true, false, "OB DISCHRG") := by
  have hrun : (StepMachine.run (Poll.step toyEnv) (Poll.start false 20) refusedSweep).map lastCall =
      some (some (true, true, true, false, "OB DISCHRG")) := by decide +kernel
  obtain ⟨s, hs, hlast⟩ := Option.map_eq_some_iff.mp hrun
  refine ⟨s, hs, fun htrue => ?_, hlast⟩
  obtain ⟨c, hc, heq⟩ := Option.map_eq_some_iff.mp hlast
  obtain ⟨-, hdone, hin, hans, -⟩ : c.published = true ∧ c.state.sweepDone = true ∧
      acInputVoltageRead ∈ c.plan ∧ acInputVoltageRead ∉ c.answered ∧
        (publishPower 0 c.state).status = "OB DISCHRG" := by
    simpa using heq
  exact hans ((htrue c (List.mem_of_getLast? hc)).sweep hdone _ hin)

end NutBluetti.Ble
