/-
  File:      NutBluetti/Nut/Accept.lean
  Subject:   THE CLIENT SLOTS (nut_server.c): `accept_task` and the ends of `client_task`, against
             `client_count`.

  `client_count` is a `volatile int` without a lock: `++` and `--` are a load and a store, and each
  client's task runs its own. So each is two steps here, with the value loaded in between, and any
  number of clients end while the accepting task goes on.

  * `InUse` -- the slots that clients hold, counted; `Exact` -- `client_count` is that number;
  * `UpToDate` -- no store is of a value that another task changed since it was loaded;
  * **`clients_counted_iff`** -- the count is exact throughout a run exactly when every store in it
    is up to date, and then no more clients are served than the server is set to, and one is turned
    away only when they are;
  * a slot lost for good: two clients that close at once.
-/
import Mathlib.Algebra.Group.Int.Defs
import NutBluetti.Lib.StepMachine

namespace NutBluetti.Nut

/-! ## 1. The tasks -/

/-- Where `accept_task` is. -/
inductive Accepting where
  /-- Before `listen` returned. -/
  | starting
  /-- Without a socket. -/
  | ended
  /-- In `accept`. -/
  | waiting
  /-- With a connection, before the test of the count. -/
  | connected
  /-- The connection passed it. -/
  | admitted
  /-- `client_count++`, loaded. -/
  | counting (loaded : Int)
  /-- The connection is counted; its task is about to be created. -/
  | spawning
  /-- The task was not created; the connection is closed. -/
  | dropping
  /-- `client_count--`, loaded. -/
  | uncounting (loaded : Int)
  deriving DecidableEq

/-- Where a `client_task` is. -/
inductive ClientPhase where
  | serving
  /-- Its socket is closed. -/
  | closed
  /-- `client_count--`, loaded. -/
  | leaving (loaded : Int)
  deriving DecidableEq

/-- The accepting side of the server. -/
structure Listener where
  maxClients : Nat
  accepting : Accepting
  clients : List ClientPhase
  clientCount : Int

/-- What `nut_server_start` leaves: 0 stands for four clients. -/
def Listener.start (maxClients : UInt8) : Listener :=
  ⟨if maxClients.toNat = 0 then 4 else maxClients.toNat, .starting, [], 0⟩

inductive AcceptEv where
  /-- `socket`, `bind` and `listen`. -/
  | listen (ok : Bool)
  | accept (ok : Bool)
  /-- The test of the count. -/
  | test
  /-- The load and the store of `client_count++`. -/
  | load
  | store
  /-- `xTaskCreate`. -/
  | spawn (ok : Bool)
  /-- The end of client `i`: its socket is closed; the load and the store of `client_count--`. -/
  | close (i : Nat)
  | clientLoad (i : Nat)
  | clientStore (i : Nat)

/-- **One step**, `none` where the event is not enabled. -/
def Listener.step (s : Listener) : AcceptEv → Option Listener
  | .listen ok =>
      match s.accepting with
      | .starting => some { s with accepting := if ok then .waiting else .ended }
      | _ => none
  | .accept ok =>
      match s.accepting with
      | .waiting => some { s with accepting := if ok then .connected else .waiting }
      | _ => none
  | .test =>
      match s.accepting with
      | .connected =>
          some { s with accepting := if s.clientCount ≥ s.maxClients then .waiting else .admitted }
      | _ => none
  | .load =>
      match s.accepting with
      | .admitted => some { s with accepting := .counting s.clientCount }
      | .dropping => some { s with accepting := .uncounting s.clientCount }
      | _ => none
  | .store =>
      match s.accepting with
      | .counting loaded => some { s with accepting := .spawning, clientCount := loaded + 1 }
      | .uncounting loaded => some { s with accepting := .waiting, clientCount := loaded - 1 }
      | _ => none
  | .spawn ok =>
      match s.accepting with
      | .spawning =>
          some (if ok then { s with accepting := .waiting, clients := s.clients ++ [.serving] }
            else { s with accepting := .dropping })
      | _ => none
  | .close i =>
      match s.clients[i]? with
      | some .serving => some { s with clients := s.clients.set i .closed }
      | _ => none
  | .clientLoad i =>
      match s.clients[i]? with
      | some .closed => some { s with clients := s.clients.set i (.leaving s.clientCount) }
      | _ => none
  | .clientStore i =>
      match s.clients[i]? with
      | some (.leaving loaded) =>
          some { s with clients := s.clients.eraseIdx i, clientCount := loaded - 1 }
      | _ => none

/-! ## 2. The count -/

/-- The slot of a connection that is counted and not handed to a task, or not given back. -/
def Accepting.slots : Accepting → Nat
  | .spawning => 1
  | .dropping => 1
  | .uncounting _ => 1
  | _ => 0

/-- The slots in use. -/
def Listener.inUse (s : Listener) : Nat := s.clients.length + s.accepting.slots

/-- `client_count` is the number of slots in use. -/
def Exact (s : Listener) : Prop := s.clientCount = s.inUse

/-- A store is of the value that is still there. -/
def UpToDate (s : Listener) : AcceptEv → Prop
  | .store =>
      match s.accepting with
      | .counting loaded => loaded = s.clientCount
      | .uncounting loaded => loaded = s.clientCount
      | _ => True
  | .clientStore i =>
      match s.clients[i]? with
      | some (.leaving loaded) => loaded = s.clientCount
      | _ => True
  | _ => True

instance (s : Listener) (e : AcceptEv) : Decidable (UpToDate s e) := by
  unfold UpToDate
  split <;> (try split) <;> infer_instance

section Steps

variable {s s' : Listener} {e : AcceptEv}

/-- **A step keeps the count exact** exactly when it stores no outdated value. -/
theorem exact_step_iff (hx : Exact s) (h : s.step e = some s') : Exact s' ↔ UpToDate s e := by
  unfold Exact Listener.inUse at hx ⊢
  cases e with
  | listen ok =>
      simp only [Listener.step] at h
      split at h
      · rename_i hs
        obtain rfl := Option.some.inj h
        rw [hs] at hx
        cases ok <;> exact iff_of_true hx trivial
      · cases h
  | accept ok =>
      simp only [Listener.step] at h
      split at h
      · rename_i hs
        obtain rfl := Option.some.inj h
        rw [hs] at hx
        cases ok <;> exact iff_of_true hx trivial
      · cases h
  | test =>
      simp only [Listener.step] at h
      split at h
      · rename_i hs
        obtain rfl := Option.some.inj h
        rw [hs] at hx
        refine iff_of_true ?_ trivial
        show s.clientCount = ((s.clients.length + (ite _ _ _ : Accepting).slots : Nat) : Int)
        split <;> exact hx
      · cases h
  | load =>
      simp only [Listener.step] at h
      split at h
      · rename_i hs
        obtain rfl := Option.some.inj h
        rw [hs] at hx
        exact iff_of_true hx trivial
      · rename_i hs
        obtain rfl := Option.some.inj h
        rw [hs] at hx
        exact iff_of_true hx trivial
      · cases h
  | store =>
      simp only [Listener.step] at h
      split at h
      · rename_i loaded hs
        obtain rfl := Option.some.inj h
        simp only [UpToDate, hs, Accepting.slots] at hx ⊢
        omega
      · rename_i loaded hs
        obtain rfl := Option.some.inj h
        simp only [UpToDate, hs, Accepting.slots] at hx ⊢
        omega
      · cases h
  | spawn ok =>
      simp only [Listener.step] at h
      split at h
      · rename_i hs
        obtain rfl := Option.some.inj h
        rw [hs] at hx
        refine iff_of_true ?_ trivial
        cases ok with
        | true =>
            show s.clientCount = (((s.clients ++ [ClientPhase.serving]).length + 0 : Nat) : Int)
            rw [List.length_append]
            exact hx
        | false => exact hx
      · cases h
  | close i =>
      simp only [Listener.step] at h
      split at h
      · obtain rfl := Option.some.inj h
        refine iff_of_true ?_ trivial
        show s.clientCount = (((s.clients.set i .closed).length + s.accepting.slots : Nat) : Int)
        rw [List.length_set]
        exact hx
      · cases h
  | clientLoad i =>
      simp only [Listener.step] at h
      split at h
      · obtain rfl := Option.some.inj h
        refine iff_of_true ?_ trivial
        show s.clientCount =
          (((s.clients.set i (.leaving s.clientCount)).length + s.accepting.slots : Nat) : Int)
        rw [List.length_set]
        exact hx
      · cases h
  | clientStore i =>
      simp only [Listener.step] at h
      split at h
      · rename_i loaded hs
        obtain rfl := Option.some.inj h
        have hlt : i < s.clients.length := (List.getElem?_eq_some_iff.mp hs).1
        simp only [UpToDate, hs, List.length_eraseIdx, if_pos hlt]
        omega
      · cases h

/-- What the test of the count promises until the connection is counted. -/
def Accepting.passed : Accepting → Bool
  | .admitted => true
  | .counting _ => true
  | _ => false

/-- **The limit**: no more slots are in use than there are, and one is free for a connection that
    passed the test. -/
structure Limit (s : Listener) : Prop where
  most : s.inUse ≤ s.maxClients
  room : s.accepting.passed = true → s.inUse < s.maxClients

/-- Only the store of `client_count++` takes a slot into use, and only the test lets a connection so
    far. -/
theorem limit_step (hx : Exact s) (hl : Limit s) (h : s.step e = some s') : Limit s' := by
  obtain ⟨hmost, hroom⟩ := hl
  unfold Exact Listener.inUse at hx
  unfold Listener.inUse at hmost hroom
  have hsame : ∀ (p : Accepting), s' = { s with accepting := p } →
      p.slots = s.accepting.slots → (p.passed = true → s.clients.length + p.slots < s.maxClients) →
      Limit s' := by
    rintro p rfl hslots hp
    refine ⟨?_, hp⟩
    show s.clients.length + p.slots ≤ s.maxClients
    rw [hslots]
    exact hmost
  have hend : ∀ cs : List ClientPhase, cs.length ≤ s.clients.length → s'.maxClients = s.maxClients →
      s'.accepting = s.accepting → s'.clients = cs → Limit s' := by
    intro cs hle hmax hacc hcs
    constructor
    · unfold Listener.inUse
      rw [hcs, hacc, hmax]
      omega
    · intro hp
      rw [hacc] at hp
      have hold := hroom hp
      unfold Listener.inUse
      rw [hcs, hacc, hmax]
      omega
  cases e with
  | listen ok =>
      simp only [Listener.step] at h
      split at h
      · rename_i hs
        refine hsame _ (Option.some.inj h).symm ?_ ?_ <;> cases ok <;> simp [hs, Accepting.slots,
          Accepting.passed]
      · cases h
  | accept ok =>
      simp only [Listener.step] at h
      split at h
      · rename_i hs
        refine hsame _ (Option.some.inj h).symm ?_ ?_ <;> cases ok <;> simp [hs, Accepting.slots,
          Accepting.passed]
      · cases h
  | test =>
      simp only [Listener.step] at h
      split at h
      · rename_i hs
        simp only [hs, Accepting.slots, Nat.add_zero] at hx
        refine hsame _ (Option.some.inj h).symm ?_ ?_
        · rw [hs]
          split <;> rfl
        · split
          · intro hp
            cases hp
          · intro _
            show s.clients.length + 0 < s.maxClients
            omega
      · cases h
  | load =>
      simp only [Listener.step] at h
      split at h
      · rename_i hs
        rw [hs] at hroom
        exact hsame _ (Option.some.inj h).symm (by rw [hs]; rfl) fun _ => hroom rfl
      · rename_i hs
        exact hsame _ (Option.some.inj h).symm (by rw [hs]; rfl) fun hp => (by cases hp)
      · cases h
  | store =>
      simp only [Listener.step] at h
      split at h
      · rename_i loaded hs
        rw [hs] at hroom
        obtain rfl := Option.some.inj h
        have hfree := hroom rfl
        simp only [Accepting.slots, Nat.add_zero] at hfree
        exact ⟨hfree, fun hp => (by cases hp)⟩
      · rename_i loaded hs
        rw [hs] at hmost
        obtain rfl := Option.some.inj h
        refine ⟨Nat.le_trans ?_ hmost, fun hp => (by cases hp)⟩
        exact Nat.add_le_add_left (Nat.zero_le 1) _
      · cases h
  | spawn ok =>
      simp only [Listener.step] at h
      split at h
      · rename_i hs
        rw [hs] at hmost
        obtain rfl := Option.some.inj h
        cases ok with
        | true =>
            refine ⟨?_, fun hp => (by cases hp)⟩
            show (s.clients ++ [ClientPhase.serving]).length + 0 ≤ s.maxClients
            rw [List.length_append]
            exact hmost
        | false => exact ⟨hmost, fun hp => (by cases hp)⟩
      · cases h
  | close i =>
      simp only [Listener.step] at h
      split at h
      · obtain rfl := Option.some.inj h
        exact hend _ (Nat.le_of_eq List.length_set) rfl rfl rfl
      · cases h
  | clientLoad i =>
      simp only [Listener.step] at h
      split at h
      · obtain rfl := Option.some.inj h
        exact hend _ (Nat.le_of_eq List.length_set) rfl rfl rfl
      · cases h
  | clientStore i =>
      simp only [Listener.step] at h
      split at h
      · obtain rfl := Option.some.inj h
        exact hend _ (List.length_eraseIdx_le ..) rfl rfl rfl
      · cases h

end Steps

/-! ## 3. Runs -/

theorem exact_start (maxClients : UInt8) : Exact (Listener.start maxClients) := rfl

theorem limit_start (maxClients : UInt8) : Limit (Listener.start maxClients) :=
  ⟨Nat.zero_le _, fun hp => by cases hp⟩

/-- **The count of the clients**, in every interleaving of the accepting task with any number of
    clients that come and go: it is exact in every state exactly when no store is of an outdated
    value. Then at most `max_clients` clients are connected, and a connection is turned away only
    when so many slots are in use. -/
theorem clients_counted_iff (maxClients : UInt8) (es : List AcceptEv) :
    (StepMachine.Always Listener.step Exact (Listener.start maxClients) es ↔
        StepMachine.Along Listener.step UpToDate (Listener.start maxClients) es) ∧
      (StepMachine.Along Listener.step UpToDate (Listener.start maxClients) es →
        ∀ s, StepMachine.run Listener.step (Listener.start maxClients) es = some s →
          s.clients.length ≤ s.maxClients ∧
          (s.accepting = .connected →
            (s.step .test = some { s with accepting := .waiting } ↔
              s.clients.length = s.maxClients))) := by
  refine ⟨StepMachine.always_iff_along Listener.step (fun s e hx => ?_) (exact_start maxClients) es,
    fun hC s hrun => ?_⟩
  · constructor
    · exact fun hC s' hs => (exact_step_iff hx hs).mpr hC
    · intro hkeep
      cases hs : s.step e with
      | some s' => exact (exact_step_iff hx hs).mp (hkeep s' hs)
      | none =>
          -- an event that is not enabled stores nothing
          cases e with
          | store =>
              simp only [UpToDate]
              split
              · rename_i hp
                simp [Listener.step, hp] at hs
              · rename_i hp
                simp [Listener.step, hp] at hs
              · trivial
          | clientStore i =>
              simp only [UpToDate]
              split
              · rename_i hp
                simp [Listener.step, hp] at hs
              · trivial
          | _ => trivial
  · have hI : Exact s ∧ Limit s := by
      refine StepMachine.run_inv_along Listener.step (C := UpToDate)
        (I := fun s => Exact s ∧ Limit s) (fun s e s' hc hI hs => ?_) hC
        ⟨exact_start maxClients, limit_start maxClients⟩ hrun
      exact ⟨(exact_step_iff hI.1 hs).mpr hc, limit_step hI.1 hI.2 hs⟩
    obtain ⟨hx, hmost, -⟩ := hI
    unfold Exact Listener.inUse at hx
    unfold Listener.inUse at hmost
    refine ⟨by omega, fun hconn => ?_⟩
    rw [hconn] at hx hmost
    simp only [Accepting.slots, Nat.add_zero] at hx hmost
    have htest : s.step .test = some { s with
        accepting := if s.clientCount ≥ s.maxClients then .waiting else .admitted } := by
      simp [Listener.step, hconn]
    rw [htest]
    constructor
    · intro heq
      have hacc := congrArg Listener.accepting (Option.some.inj heq)
      by_cases hfull : s.clientCount ≥ s.maxClients
      · omega
      · simp [hfull] at hacc
    · intro hfull
      rw [if_pos (by omega)]

/-- A connection that becomes a client. -/
def connects : List AcceptEv := [.accept true, .test, .load, .store, .spawn true]

/-! Two clients that close at once, each between the load and the store of the other: none is left,
    and one slot of the two stays taken. -/

example : (StepMachine.run Listener.step (Listener.start 2) (.listen true :: connects ++ connects ++
    [.close 0, .close 1, .clientLoad 0, .clientLoad 1, .clientStore 0, .clientStore 0])).map
      (fun s => (s.clients.length, s.clientCount)) = some (0, 1) := by
  decide

end NutBluetti.Nut
