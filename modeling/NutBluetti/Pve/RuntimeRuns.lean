/-
  File:      NutBluetti/Pve/RuntimeRuns.lean
  Subject:   WHAT HOLDS OF EVERY RUN of the Proxmox runtime: callers, reconfigurations and workers
             in any interleaving.

  * `AliveInv` -- the `running` flag counts the workers: **one at most is alive**;
  * `FlowInv` -- what `pve_eval` reported is what was handed to `run_host` plus what is pending,
    host by host and in order;
  * **`no_work_lost`** -- the four statements about the queue, for runs whose allocations and task
    creations succeed.
-/
import NutBluetti.Lib.History
import NutBluetti.Pve.Runtime

namespace NutBluetti.Pve

open CText History KeyedList

/-! ## 1. The sections under the lock, seen from outside -/

section Sections

variable {P : Runtime} {known onMains : Bool} {socPct nowUs : Int} {allocOk : Nat → Bool}

theorem keepAllocated_of_ok {α : Type} (h : ∀ k, allocOk k = true) (l : List α) :
    keepAllocated allocOk l = l := by
  rw [keepAllocated, List.filter_eq_self.mpr fun p _ => h p.2]
  exact List.zipIdx_map_fst 0 l

/-- What the section of `pve_shutdown_observe` leaves, whichever way it goes. -/
theorem observe_spec (P : Runtime) (known onMains : Bool) (socPct nowUs : Int)
    (allocOk : Nat → Bool) :
    let r := pveShutdownObserve P known onMains socPct nowUs allocOk
    let e := P.evalCall known onMains socPct nowUs
    r.1.cfg = P.cfg ∧ r.1.eng = e.1 ∧
      r.1.pendingGuests = P.pendingGuests ++ keepAllocated allocOk (firedGuests e.1) ∧
      (∀ i, r.1.pendingHosts i = (P.pendingHosts i || e.2.hosts i)) ∧
      ((r.2 = true ∧ P.running = false ∧ r.1.running = true) ∨
        (r.2 = false ∧ r.1.running = P.running)) := by
  unfold pveShutdownObserve
  generalize P.evalCall known onMains socPct nowUs = e
  obtain ⟨eng, fire⟩ := e
  by_cases hany : (fire.hosts.nonzero || !(firedGuests eng).isEmpty) = true
  · cases hrun : P.running <;> simp [hany]
  · have hno : ∀ i, fire.hosts i = false := by
      intro i
      by_contra hi
      refine hany ?_
      rw [Bool.or_eq_true]
      exact .inl ((HostMask.nonzero_iff _).mpr ⟨i, by simpa using hi⟩)
    simp [hany, hno]

end Sections

section Steps

variable {s s' : Sys}

theorem step_observe (s : Sys) (known onMains : Bool) (socPct nowUs : Int) (allocOk : Nat → Bool) :
    step s (.observe known onMains socPct nowUs allocOk) = some { s with
      P := (pveShutdownObserve s.P known onMains socPct nowUs allocOk).1
      creating := if (pveShutdownObserve s.P known onMains socPct nowUs allocOk).2
        then s.creating + 1 else s.creating
      log := s.log ++ reported (s.P.evalCall known onMains socPct nowUs) } := rfl

/-- A pass of a worker either takes the next host's work or ends the worker. -/
theorem step_takeWork {w : Nat} {allocOk : Nat → Bool}
    (h : step s (.takeWork w allocOk) = some s') :
    s.workers[w]? = some .top ∧
      ((nextHost s.P = none ∧ s' = { s with
          P := { s.P with running := false }
          workers := s.workers.set w .leaving }) ∨
        ∃ i job P', nextHost s.P = some i ∧ takeWork s.P allocOk = (some job, P') ∧
          s' = { s with
            P := P'
            workers := s.workers.set w (.acting job)
            log := s.log ++ [.call job] }) := by
  simp only [step] at h
  split at h
  · rename_i hw
    refine ⟨hw, ?_⟩
    cases hn : nextHost s.P with
    | none =>
        have ht : takeWork s.P allocOk = (none, { s.P with running := false }) := by
          simp [takeWork, hn]
        rw [ht] at h
        exact .inl ⟨rfl, (Option.some.inj h).symm⟩
    | some i =>
        obtain ⟨job, P', ht⟩ : ∃ job P', takeWork s.P allocOk = (some job, P') := by
          simp [takeWork, hn]
        rw [ht] at h
        exact .inr ⟨i, job, P', rfl, ht, (Option.some.inj h).symm⟩
  · cases h

theorem takeWork_spec {P P' : Runtime} {allocOk : Nat → Bool} {i : HostIx} {job : Job}
    (hn : nextHost P = some i) (h : takeWork P allocOk = (some job, P')) :
    job.host = i ∧ job.cfg = P.cfg ∧ job.nodePending = P.pendingHosts i ∧
      job.batch = keepAllocated allocOk (P.pendingGuests.filter fun g => g.host = i) ∧
      P' = { P with
        pendingHosts := P.pendingHosts.clear i
        pendingGuests := P.pendingGuests.filter fun g => g.host ≠ i } := by
  unfold takeWork at h
  rw [hn] at h
  simp only [Prod.mk.injEq, Option.some.injEq] at h
  obtain ⟨rfl, rfl⟩ := h
  exact ⟨rfl, rfl, rfl, rfl, rfl⟩

theorem step_runHost {w : Nat} {attempts : List TlsAttempt}
    (h : step s (.runHost w attempts) = some s') :
    ∃ job, s.workers[w]? = some (.acting job) ∧
      s' = { s with
        P := (runHost job.host job.cfg job.nodePending job.batch job.reason
          ⟨attempts, [], [], []⟩).notes.foldl Runtime.applyNote s.P
        workers := s.workers.set w .top
        log := s.log ++ (runHost job.host job.cfg job.nodePending job.batch job.reason
          ⟨attempts, [], [], []⟩).sent.map (.sent job) } := by
  simp only [step] at h
  split at h
  · rename_i job hw
    exact ⟨job, hw, (Option.some.inj h).symm⟩
  · cases h

theorem step_leave {w : Nat} (h : step s (.leave w) = some s') :
    s.workers[w]? = some .leaving ∧ s' = { s with workers := s.workers.eraseIdx w } := by
  simp only [step] at h
  split at h
  · rename_i hw
    exact ⟨hw, (Option.some.inj h).symm⟩
  · cases h

theorem step_createTask {ok : Bool} (h : step s (.createTask ok) = some s') :
    s.creating ≠ 0 ∧ s' = if ok then
        { s with creating := s.creating - 1, workers := s.workers ++ [.top] }
      else { s with creating := s.creating - 1, failing := s.failing + 1 } := by
  simp only [step] at h
  split at h
  · cases h
  · rename_i hc
    refine ⟨hc, ?_⟩
    cases ok <;> simpa using h.symm

theorem step_resetRunning (h : step s .resetRunning = some s') :
    s.failing ≠ 0 ∧
      s' = { s with failing := s.failing - 1, P := { s.P with running := false } } := by
  simp only [step] at h
  split at h
  · cases h
  · rename_i hf
    exact ⟨hf, (Option.some.inj h).symm⟩

/-- Notes for the status page change nothing else. -/
theorem foldl_applyNote (ns : List Note) (P : Runtime) :
    let P' := ns.foldl Runtime.applyNote P
    P'.cfg = P.cfg ∧ P'.eng = P.eng ∧ P'.running = P.running ∧
      P'.pendingHosts = P.pendingHosts ∧ P'.pendingGuests = P.pendingGuests := by
  induction ns generalizing P with
  | nil => exact ⟨rfl, rfl, rfl, rfl, rfl⟩
  | cons n ns ih =>
      obtain ⟨h1, h2, h3, h4, h5⟩ := ih (P.applyNote n)
      cases n <;> exact ⟨h1, h2, h3, h4, h5⟩

end Steps

/-! ## 2. One worker at most -/

/-- A worker in a list of workers, and the list with it replaced or taken out. -/
theorem workers_split {ws : List Worker} {w : Nat} {a : Worker} (h : ws[w]? = some a) :
    ∃ pre post, ws = pre ++ a :: post ∧ (∀ b, ws.set w b = pre ++ b :: post) ∧
      ws.eraseIdx w = pre ++ post := by
  obtain ⟨hw, rfl⟩ := List.getElem?_eq_some_iff.mp h
  refine ⟨ws.take w, ws.drop (w + 1), ?_, fun b => ?_, ?_⟩
  · rw [List.getElem_cons_drop, List.take_append_drop]
  · exact List.set_eq_take_append_cons_drop.trans (if_pos hw)
  · exact List.eraseIdx_eq_take_drop_succ ..

/-- The `running` flag accounts for everything that will take work: a task being created, one whose
    creation failed and is not recorded yet, the workers alive. -/
def AliveInv (s : Sys) : Prop :=
  s.creating + s.failing + s.workers.countP Worker.alive = if s.P.running then 1 else 0

theorem aliveInv_step (s : Sys) (e : Ev) (s' : Sys) (hI : AliveInv s) (h : step s e = some s') :
    AliveInv s' := by
  unfold AliveInv at hI ⊢
  cases e with
  | observe known onMains socPct nowUs allocOk =>
      rw [step_observe] at h
      obtain rfl := Option.some.inj h
      obtain ⟨-, -, -, -, ⟨hs, hr, hr'⟩ | ⟨hs, hr⟩⟩ :=
        observe_spec s.P known onMains socPct nowUs allocOk
      · simp only [hr, hs, hr', if_true] at hI ⊢
        simp only [Bool.false_eq_true, if_false] at hI
        omega
      · simpa only [hs, hr, Bool.false_eq_true, if_false] using hI
  | createTask ok =>
      obtain ⟨hc, rfl⟩ := step_createTask h
      cases ok with
      | true =>
          have hcount : (s.workers ++ [Worker.top]).countP Worker.alive =
              s.workers.countP Worker.alive + 1 := by simp [Worker.alive]
          simp only [if_true, hcount]
          omega
      | false =>
          simp only [Bool.false_eq_true, if_false]
          omega
  | resetRunning =>
      obtain ⟨hf, rfl⟩ := step_resetRunning h
      simp only [Bool.false_eq_true, if_false]
      cases hr : s.P.running
      · simp only [hr, Bool.false_eq_true, if_false] at hI
        omega
      · simp only [hr, if_true] at hI
        omega
  | takeWork w allocOk =>
      obtain ⟨hw, ⟨hn, rfl⟩ | ⟨i, job, P', hn, ht, rfl⟩⟩ := step_takeWork h
      · obtain ⟨pre, post, hws, hset, -⟩ := workers_split hw
        rw [hws] at hI
        simp only [hset, List.countP_append, List.countP_cons, Worker.alive, if_true,
          Bool.false_eq_true, if_false] at hI ⊢
        cases hr : s.P.running
        · simp only [hr, Bool.false_eq_true, if_false] at hI
          omega
        · simp only [hr, if_true] at hI
          omega
      · obtain ⟨-, -, -, -, rfl⟩ := takeWork_spec hn ht
        obtain ⟨pre, post, hws, hset, -⟩ := workers_split hw
        rw [hws] at hI
        simpa only [hset, List.countP_append, List.countP_cons, Worker.alive, if_true] using hI
  | runHost w attempts =>
      obtain ⟨job, hw, rfl⟩ := step_runHost h
      obtain ⟨pre, post, hws, hset, -⟩ := workers_split hw
      obtain ⟨-, -, hrun, -, -⟩ :=
        foldl_applyNote (runHost job.host job.cfg job.nodePending job.batch
        job.reason ⟨attempts, [], [], []⟩).notes s.P
      rw [hws] at hI
      simpa only [hset, hrun, List.countP_append, List.countP_cons, Worker.alive, if_true] using hI
  | leave w =>
      obtain ⟨hw, rfl⟩ := step_leave h
      obtain ⟨pre, post, hws, -, herase⟩ := workers_split hw
      rw [hws] at hI
      simpa only [herase, List.countP_append, List.countP_cons, Worker.alive, Bool.false_eq_true,
        if_false, Nat.add_zero] using hI
  | reconfigure cfg guests =>
      obtain rfl := Option.some.inj h
      exact hI

/-- **One worker at most is alive**, in every state of every run, whatever is allocated or
    created. -/
theorem one_worker {cfg : PveConfig} {guests : GuestLists} {es : List Ev} {s : Sys}
    (h : runFrom cfg guests es = some s) : s.workers.countP Worker.alive ≤ 1 := by
  have h0 : AliveInv (Sys.start cfg guests) := rfl
  have hI : AliveInv s := StepMachine.run_inv step aliveInv_step h0 h
  unfold AliveInv at hI
  cases hr : s.P.running
  · simp only [hr, Bool.false_eq_true, if_false] at hI
    omega
  · simp only [hr, if_true] at hI
    omega

/-! ## 3. What the history says -/

/-- The guests of host `i` that `pve_eval` reported, in order. -/
def guestFirings (i : HostIx) (log : List LogEntry) : List PendingGuest :=
  log.flatMap fun
    | .guestFired g => if g.host = i then [g] else []
    | _ => []

/-- The guests of host `i` that were handed to `run_host`, batch after batch. -/
def handedOver (i : HostIx) (log : List LogEntry) : List PendingGuest :=
  log.flatMap fun
    | .call job => if job.host = i then job.batch else []
    | _ => []

/-- A call of `run_host` with `node_pending` for host `i`. -/
def isNodeCall (i : HostIx) : LogEntry → Bool
  | .call job => decide (job.host = i) && job.nodePending
  | _ => false

/-- A report of host `i` by `pve_eval`. -/
def isHostFiring (i : HostIx) : LogEntry → Bool
  | .hostFired j => decide (j = i)
  | _ => false

/-- A report of host `i` that no call with `node_pending` followed yet. -/
def owed (i : HostIx) (log : List LogEntry) : Bool :=
  log.foldl (fun b e => (b || isHostFiring i e) && !isNodeCall i e) false

section History

variable {i : HostIx}

theorem guestFirings_append (l m : List LogEntry) :
    guestFirings i (l ++ m) = guestFirings i l ++ guestFirings i m := List.flatMap_append

theorem handedOver_append (l m : List LogEntry) :
    handedOver i (l ++ m) = handedOver i l ++ handedOver i m := List.flatMap_append

theorem owed_append (l m : List LogEntry) :
    owed i (l ++ m) =
      m.foldl (fun b e => (b || isHostFiring i e) && !isNodeCall i e) (owed i l) :=
        List.foldl_append

/-- Without a call for the node in a stretch, what was owed stays owed and every report adds. -/
theorem foldl_owed {m : List LogEntry} (hm : ∀ e ∈ m, isNodeCall i e = false) (b : Bool) :
    m.foldl (fun b e => (b || isHostFiring i e) && !isNodeCall i e) b =
      (b || m.any (isHostFiring i)) := by
  induction m generalizing b with
  | nil => simp
  | cons e m ih =>
      obtain ⟨he, hm'⟩ := List.forall_mem_cons.mp hm
      rw [List.foldl_cons, ih hm', he, List.any_cons]
      simp [Bool.or_assoc]

/-- What is owed is a report that no call for the node followed. -/
theorem owed_of_split {pre post : List LogEntry}
    (hpost : ∀ e ∈ post, isNodeCall i e = false) :
    owed i (pre ++ .hostFired i :: post) = true := by
  rw [List.append_cons, owed_append, foldl_owed hpost, owed_append]
  simp [isHostFiring, isNodeCall]

/-- Entries that are neither reports of guests nor calls do not change the two lists. -/
theorem guestFirings_sent (job : Job) (rs : List Request) :
    guestFirings i (rs.map (.sent job)) = [] := by
  induction rs with
  | nil => rfl
  | cons r rs ih => exact ih

theorem handedOver_sent (job : Job) (rs : List Request) :
    handedOver i (rs.map (.sent job)) = [] := by
  induction rs with
  | nil => rfl
  | cons r rs ih => exact ih

section Reported

variable (r : PveEngine × PveFire)

theorem mem_reported {e : LogEntry} (h : e ∈ reported r) :
    (∃ j, r.2.hosts j = true ∧ e = .hostFired j) ∨ ∃ g ∈ firedGuests r.1, e = .guestFired g := by
  rw [reported, List.mem_append, List.mem_map, List.mem_map] at h
  rcases h with ⟨j, hj, rfl⟩ | ⟨g, hg, rfl⟩
  · exact .inl ⟨j, (List.mem_filter.mp hj).2, rfl⟩
  · exact .inr ⟨g, hg, rfl⟩

theorem not_call_of_mem_reported {e : LogEntry} (h : e ∈ reported r) (job : Job) :
    e ≠ .call job := by
  rcases mem_reported r h with ⟨j, -, rfl⟩ | ⟨g, -, rfl⟩ <;> simp

theorem isNodeCall_reported {e : LogEntry} (h : e ∈ reported r) : isNodeCall i e = false := by
  rcases mem_reported r h with ⟨j, -, rfl⟩ | ⟨g, -, rfl⟩ <;> rfl

/-- What a report says of the guests of host `i`. -/
theorem guestFirings_reported :
    guestFirings i (reported r) = (firedGuests r.1).filter fun g => g.host = i := by
  have hhosts : ∀ l : List HostIx, guestFirings i (l.map .hostFired) = [] := by
    intro l
    induction l with
    | nil => rfl
    | cons j l ih => exact ih
  have hguests : ∀ l : List PendingGuest,
      guestFirings i (l.map .guestFired) = l.filter fun g => g.host = i := by
    intro l
    induction l with
    | nil => rfl
    | cons g l ih =>
        rw [List.map_cons, List.filter_cons, ← ih]
        by_cases hg : g.host = i <;> simp [guestFirings, hg]
  rw [reported, guestFirings_append, hhosts, hguests, List.nil_append]

theorem handedOver_reported : handedOver i (reported r) = [] := by
  have : ∀ l : List LogEntry, (∀ e ∈ l, ∀ job, e ≠ .call job) → handedOver i l = [] := by
    intro l hl
    refine List.flatMap_eq_nil_iff.mpr fun e he => ?_
    cases e with
    | call job => exact absurd rfl (hl _ he job)
    | _ => rfl
  exact this _ fun e he job => not_call_of_mem_reported r he job

theorem any_isHostFiring_reported : (reported r).any (isHostFiring i) = r.2.hosts i := by
  rw [Bool.eq_iff_iff, List.any_eq_true]
  constructor
  · intro h
    obtain ⟨e, he, hf⟩ := h
    rcases mem_reported r he with ⟨j, hj, rfl⟩ | ⟨g, -, rfl⟩
    · have hji : j = i := by simpa [isHostFiring] using hf
      exact hji ▸ hj
    · cases hf
  · intro h
    refine ⟨.hostFired i, ?_, by simp [isHostFiring]⟩
    rw [reported, List.mem_append]
    exact .inl (List.mem_map_of_mem (List.mem_filter.mpr ⟨mem_hostSlots i, h⟩))

theorem countP_isHostFiring_reported (h : r.2.hosts i = true) :
    1 ≤ (reported r).countP (isHostFiring i) := by
  have hany := any_isHostFiring_reported (i := i) r
  rw [h, List.any_eq_true] at hany
  exact List.countP_pos_iff.mpr hany

end Reported

end History

/-! ## 4. The queue -/

/-- Every allocation and every task creation of an event succeeds. -/
def Ev.Succeeds : Ev → Prop
  | .observe _ _ _ _ allocOk => ∀ k, allocOk k = true
  | .takeWork _ allocOk => ∀ k, allocOk k = true
  | .createTask ok => ok = true
  | _ => True

/-- A call of `run_host` takes, with its batch, every guest of its host reported before it. -/
def InTime (past : List LogEntry) (e : LogEntry) : Prop :=
  ∀ job, e = .call job → guestFirings job.host past = handedOver job.host past ++ job.batch

/-- **The invariant of the queue**, host by host: reported guests are those handed over and those
    pending, in order; the pending bit is what is owed to the node; no more calls for the node than
    reports of it; and each call took, with its batch, every guest reported by then. -/
structure FlowInv (s : Sys) : Prop where
  guests : ∀ i, guestFirings i s.log =
    handedOver i s.log ++ s.P.pendingGuests.filter fun g => g.host = i
  node : ∀ i, owed i s.log = s.P.pendingHosts i
  count : ∀ i, s.log.countP (isNodeCall i) + (if s.P.pendingHosts i then 1 else 0) ≤
    s.log.countP (isHostFiring i)
  inTime : EachMoment InTime s.log

section FlowSteps

variable {s s' : Sys}

theorem FlowInv.observe (hI : FlowInv s) {known onMains : Bool} {socPct nowUs : Int}
    {allocOk : Nat → Bool} (hok : ∀ k, allocOk k = true)
    (h : step s (.observe known onMains socPct nowUs allocOk) = some s') : FlowInv s' := by
  rw [step_observe] at h
  obtain rfl := Option.some.inj h
  obtain ⟨-, -, hguests, hhosts, -⟩ := observe_spec s.P known onMains socPct nowUs allocOk
  generalize s.P.evalCall known onMains socPct nowUs = r at hguests hhosts ⊢
  rw [keepAllocated_of_ok hok] at hguests
  refine ⟨fun i => ?_, fun i => ?_, fun i => ?_, ?_⟩
  · rw [guestFirings_append, handedOver_append, guestFirings_reported, handedOver_reported, hguests,
      List.filter_append, hI.guests i, List.append_nil, List.append_assoc]
  · rw [owed_append, foldl_owed fun e he => isNodeCall_reported r he, any_isHostFiring_reported,
      hI.node i, hhosts i]
  · have hno : (reported r).countP (isNodeCall i) = 0 :=
      List.countP_eq_zero.mpr fun e he => by simp [isNodeCall_reported r he]
    have hc := hI.count i
    rw [List.countP_append, List.countP_append, hno, hhosts i]
    cases hf : r.2.hosts i with
    | false =>
        rw [Bool.or_false]
        omega
    | true =>
        have hpos := countP_isHostFiring_reported r hf
        rw [Bool.or_true, if_pos rfl]
        omega
  · exact hI.inTime.append fun e he _ job hj => absurd hj (not_call_of_mem_reported r he job)

theorem FlowInv.takeWork (hI : FlowInv s) {w : Nat} {allocOk : Nat → Bool}
    (hok : ∀ k, allocOk k = true) (h : step s (.takeWork w allocOk) = some s') : FlowInv s' := by
  obtain ⟨-, ⟨-, rfl⟩ | ⟨i, job, P', hn, ht, rfl⟩⟩ := step_takeWork h
  · exact ⟨hI.guests, hI.node, hI.count, hI.inTime⟩
  obtain ⟨rfl, -, hnode, hbatch, rfl⟩ := takeWork_spec hn ht
  rw [keepAllocated_of_ok hok] at hbatch
  have hcall : ∀ i, handedOver i (s.log ++ [LogEntry.call job]) =
      handedOver i s.log ++ if job.host = i then job.batch else [] := by
    intro i
    rw [handedOver_append]
    simp [handedOver]
  have hreport : ∀ i, guestFirings i (s.log ++ [LogEntry.call job]) = guestFirings i s.log := by
    intro i
    rw [guestFirings_append]
    simp [guestFirings]
  refine ⟨fun i => ?_, fun i => ?_, fun i => ?_, ?_⟩
  · show guestFirings i (s.log ++ [.call job]) = handedOver i (s.log ++ [.call job]) ++
      (s.P.pendingGuests.filter fun g => g.host ≠ job.host).filter fun g => g.host = i
    rw [hcall, hreport, hI.guests i, List.filter_filter]
    by_cases hi : job.host = i
    · subst hi
      simp [hbatch]
    · have hf : ∀ g ∈ s.P.pendingGuests, (decide (g.host = i) && decide (g.host ≠ job.host)) =
          decide (g.host = i) := by
        intro g _
        by_cases hg : g.host = i
        · simp [hg, Ne.symm hi]
        · simp [hg]
      rw [List.filter_congr hf]
      simp [hi]
  · show owed i (s.log ++ [.call job]) = s.P.pendingHosts.clear job.host i
    rw [owed_append, hI.node i]
    by_cases hi : i = job.host
    · subst hi
      cases hp : s.P.pendingHosts job.host <;>
        simp [HostMask.clear, isHostFiring, isNodeCall, hp, hnode]
    · simp [HostMask.clear, Function.update_of_ne hi, isHostFiring, isNodeCall, Ne.symm hi]
  · show (s.log ++ [LogEntry.call job]).countP (isNodeCall i) +
        (if s.P.pendingHosts.clear job.host i then 1 else 0) ≤
      (s.log ++ [LogEntry.call job]).countP (isHostFiring i)
    have hc := hI.count i
    rw [List.countP_append, List.countP_append]
    by_cases hi : i = job.host
    · subst hi
      simp only [HostMask.clear, Function.update_self, Bool.false_eq_true, if_false, isHostFiring,
        List.countP_singleton, isNodeCall, decide_true, Bool.true_and, hnode]
      omega
    · simpa [HostMask.clear, Function.update_of_ne hi, isHostFiring, isNodeCall, Ne.symm hi]
        using hc
  · refine eachMoment_snoc_iff.mpr ⟨hI.inTime, fun job' hj => ?_⟩
    obtain rfl : job = job' := by simpa using hj
    rw [hI.guests job.host, hbatch]

theorem flowInv_step (s : Sys) (e : Ev) (s' : Sys) (hok : e.Succeeds) (hI : FlowInv s)
    (h : step s e = some s') : FlowInv s' := by
  cases e with
  | observe known onMains socPct nowUs allocOk => exact hI.observe hok h
  | createTask ok =>
      obtain ⟨-, rfl⟩ := step_createTask h
      cases ok <;> exact ⟨hI.guests, hI.node, hI.count, hI.inTime⟩
  | resetRunning =>
      obtain ⟨-, rfl⟩ := step_resetRunning h
      exact ⟨hI.guests, hI.node, hI.count, hI.inTime⟩
  | takeWork w allocOk => exact hI.takeWork hok h
  | runHost w attempts =>
      obtain ⟨job, -, rfl⟩ := step_runHost h
      generalize hworld : runHost job.host job.cfg job.nodePending job.batch job.reason
        ⟨attempts, [], [], []⟩ = world
      obtain ⟨-, -, -, hhosts, hguests⟩ := foldl_applyNote world.notes s.P
      have hno : ∀ e ∈ world.sent.map (LogEntry.sent job), ∀ i,
          isNodeCall i e = false ∧ isHostFiring i e = false := by
        intro e he i
        obtain ⟨r, -, rfl⟩ := List.mem_map.mp he
        exact ⟨rfl, rfl⟩
      refine ⟨fun i => ?_, fun i => ?_, fun i => ?_, ?_⟩
      · rw [guestFirings_append, handedOver_append, guestFirings_sent, handedOver_sent, hguests,
          List.append_nil, List.append_nil, hI.guests i]
      · have hany : (world.sent.map (LogEntry.sent job)).any (isHostFiring i) = false :=
          List.any_eq_false.mpr fun e he => by simp [(hno e he i).2]
        rw [owed_append, foldl_owed fun e he => (hno e he i).1, hany, hhosts, Bool.or_false,
          hI.node i]
      · have h1 : (world.sent.map (LogEntry.sent job)).countP (isNodeCall i) = 0 :=
          List.countP_eq_zero.mpr fun e he => by simp [(hno e he i).1]
        have h2 : (world.sent.map (LogEntry.sent job)).countP (isHostFiring i) = 0 :=
          List.countP_eq_zero.mpr fun e he => by simp [(hno e he i).2]
        rw [List.countP_append, List.countP_append, h1, h2, hhosts]
        exact hI.count i
      · refine hI.inTime.append fun e he _ job' hj => ?_
        obtain ⟨r, -, rfl⟩ := List.mem_map.mp he
        cases hj
  | leave w =>
      obtain ⟨-, rfl⟩ := step_leave h
      exact ⟨hI.guests, hI.node, hI.count, hI.inTime⟩
  | reconfigure cfg guests =>
      obtain rfl := Option.some.inj h
      exact ⟨hI.guests, hI.node, hI.count, hI.inTime⟩

end FlowSteps

/-- What holds of the queue, the history and the workers of a state. -/
structure QueueLaw (s : Sys) : Prop where
  /-- One worker at most takes or does work. -/
  oneWorker : s.workers.countP Worker.alive ≤ 1
  /-- Every guest reported was handed over in one batch or is pending, in the order of the
      reports. -/
  guests : ∀ i, guestFirings i s.log =
    handedOver i s.log ++ s.P.pendingGuests.filter fun g => g.host = i
  /-- After every report of a host its bit is set or a call for the node follows. -/
  node : ∀ i pre post, s.log = pre ++ .hostFired i :: post →
    s.P.pendingHosts i = true ∨ ∃ job, .call job ∈ post ∧ job.host = i ∧ job.nodePending = true
  /-- There are never more calls for the node than reports of the host. -/
  count : ∀ i, s.log.countP (isNodeCall i) ≤ s.log.countP (isHostFiring i)
  /-- A call for the node has every guest of the host reported so far in its batch or in an earlier
      one. -/
  inTime : ∀ pre job post, s.log = pre ++ .call job :: post → job.nodePending = true →
    guestFirings job.host pre = handedOver job.host pre ++ job.batch

/-- **No work is lost, doubled or overtaken**: in every state of every run of observations,
    reconfigurations and worker passes whose allocations and task creations succeed. -/
theorem no_work_lost {cfg : PveConfig} {guests : GuestLists} {es : List Ev} {s : Sys}
    (hok : ∀ e ∈ es, e.Succeeds) (h : runFrom cfg guests es = some s) : QueueLaw s := by
  have h0 : FlowInv (Sys.start cfg guests) :=
    ⟨fun _ => rfl, fun _ => rfl, fun _ => Nat.le_refl _, eachMoment_nil InTime⟩
  have hI : FlowInv s := StepMachine.run_inv_along step
    (fun s e s' hok hI hs => flowInv_step s e s' hok hI hs) (StepMachine.along_of_forall step hok)
      h0 h
  refine ⟨one_worker h, hI.guests, fun i pre post hl => ?_, fun i => ?_, fun pre job post hl _ =>
    ?_⟩
  · by_cases hcall : ∀ e ∈ post, isNodeCall i e = false
    · refine .inl ?_
      rw [← hI.node i, hl]
      exact owed_of_split hcall
    · obtain ⟨e, he, hc⟩ : ∃ e ∈ post, isNodeCall i e = true := by simpa using hcall
      cases e with
      | call job =>
          simp only [isNodeCall, Bool.and_eq_true, decide_eq_true_eq] at hc
          exact .inr ⟨job, he, hc.1, hc.2⟩
      | _ => cases hc
  · have := hI.count i
    omega
  · exact hI.inTime pre (.call job) post hl job rfl

/-- One armed, pinned host in the first slot, with one guest. -/
def soloCfg : PveConfig where
  enabled := true
  armed := true
  mainsBackMin := 0
  hosts := fun i =>
    if i = 0 then
      ⟨true, "https://10.0.0.10:8006", "pve1", "ups@pve!shutdown", "s", true,
        fpHex (List.replicate 32 0xAB), 0, 20⟩
    else PveHost.zero

def soloGuests : GuestLists := fun i => if i = 0 then [⟨101, 0, 30⟩] else []

/-- Host and guest fire on a low charge; the worker is started, takes both, reaches nobody, finds
    nothing more and leaves. -/
def busyRun : List Ev :=
  [.observe true false 15 0 fun _ => true, .createTask true, .takeWork 0 fun _ => true,
    .runHost 0 [], .observe true false 15 usPerMin fun _ => true, .takeWork 0 fun _ => true,
    .leave 0]

theorem no_work_lost_busyRun :
    ∃ s, runFrom soloCfg soloGuests busyRun = some s ∧ QueueLaw s ∧
      guestFirings 0 s.log = [⟨0, 101, "charge 15% (limit 30%)"⟩] := by
  have hok : ∀ e ∈ busyRun, e.Succeeds := by
    intro e he
    simp only [busyRun, List.mem_cons, List.not_mem_nil, or_false] at he
    rcases he with rfl | rfl | rfl | rfl | rfl | rfl | rfl <;> simp [Ev.Succeeds]
  have hlog : (runFrom soloCfg soloGuests busyRun).map (fun s => guestFirings 0 s.log) =
      some [⟨0, 101, "charge 15% (limit 30%)"⟩] := by
    decide
  obtain ⟨s, hs, hg⟩ := Option.map_eq_some_iff.mp hlog
  exact ⟨s, hs, no_work_lost hok hs, hg⟩

end NutBluetti.Pve
