/-
  File:      NutBluetti/Pve/Runtime.lean
  Subject:   THE RUNTIME OF THE PROXMOX SHUTDOWN (pve_shutdown.c): `P`, `pve_shutdown_observe`,
             `pve_shutdown_reconfigure`, `worker_task`, and their interleavings.

  Each section under `P.lock` is one step; so are the creation of the task, `run_host` (which works
  on the snapshot the worker took, outside the lock) and the worker's last instructions. Any number
  of workers and of callers can be under way in a state of the machine: that there is one worker at
  most is a theorem, not a shape of the state.

  The `log` is a history: what `pve_eval` reported, what was handed to `run_host`, what was written
  to a server. No step reads it.
-/
import NutBluetti.Lib.StepMachine
import NutBluetti.Pve.EngineRuns
import NutBluetti.Pve.Shutdown

namespace NutBluetti.Pve

open CText KeyedList

/-! ## 1. `P` -/

/-- `guest_last_t`. -/
structure GuestLast where
  id : Int
  text : String
  ok : Bool

/-- The static `P`, as far as the worker and its callers use it. -/
structure Runtime where
  cfg : PveConfig
  guests : GuestLists
  eng : PveEngine
  /-- The worker task is alive. -/
  running : Bool
  pendingHosts : HostMask
  pendingGuests : List PendingGuest
  hostLast : HostIx → String × Bool
  guestLast : HostIx → List GuestLast

/-- `note_host` or `note_guest`, which grows the table of host `i` by an id it has not seen. -/
def Runtime.applyNote (P : Runtime) : Note → Runtime
  | .host i ok text => { P with hostLast := Function.update P.hostLast i (fit 128 text, ok) }
  | .guest i id ok text =>
      let last := P.guestLast i
      let last := match lookup GuestLast.id id last with
        | some _ => modify GuestLast.id id (fun _ => ⟨id, fit 64 text, ok⟩) last
        | none => last ++ [⟨id, fit 64 text, ok⟩]
      { P with guestLast := Function.update P.guestLast i last }

/-- `prune_guest_last`, for every host. -/
def pruneGuestLast (guests : GuestLists) (last : HostIx → List GuestLast) (i : HostIx) :
    List GuestLast :=
  (last i).filter fun l => (guests i).any fun g => g.id == l.id

/-- The state `pve_shutdown_start` leaves. -/
def pveShutdownStart (cfg : PveConfig) (guests : GuestLists) : Runtime :=
  { cfg := cfg, guests := guests, eng := synced guests, running := false
    pendingHosts := HostMask.none, pendingGuests := []
    hostLast := fun _ => ("", false), guestLast := fun _ => [] }

/-- `pve_shutdown_reconfigure`. -/
def pveShutdownReconfigure (P : Runtime) (cfg : PveConfig) (guests : GuestLists) : Runtime :=
  { P with
    cfg := cfg
    guests := guests
    eng := { P.eng with guests := fun i => pveEngineSyncGuests (P.eng.guests i) (guests i) }
    guestLast := pruneGuestLast guests P.guestLast }

/-! ## 2. `pve_shutdown_observe` -/

/-- What is left of a list whose elements each need a `realloc` that may fail. -/
def keepAllocated {α : Type} (allocOk : Nat → Bool) (l : List α) : List α :=
  (l.zipIdx.filter fun p => allocOk p.2).map Prod.fst

/-- The guests `pve_eval` reported with `fired_now`, in the order they are queued. -/
def firedGuests (eng : PveEngine) : List PendingGuest :=
  hostSlots.flatMap fun i =>
    ((eng.guests i).filter GuestEngine.firedNow).map fun gs =>
      ⟨i, gs.id, fit guestReasonSz gs.reason⟩

/-- `obs` of `pve_shutdown_observe`. -/
def pveObs (known onMains : Bool) (socPct : Int) : PveObs :=
  ⟨if !known then .unknown else if onMains then .line else .battery, if known then socPct else -1⟩

/-- The call of `pve_eval` that `pve_shutdown_observe` makes. -/
def Runtime.evalCall (P : Runtime) (known onMains : Bool) (socPct nowUs : Int) :
    PveEngine × PveFire :=
  pveEval P.cfg P.guests P.eng (pveObs known onMains socPct) nowUs

/-- The locked section of **`pve_shutdown_observe`**, and whether the caller has to start the
    worker. -/
def pveShutdownObserve (P : Runtime) (known onMains : Bool) (socPct nowUs : Int)
    (allocOk : Nat → Bool) : Runtime × Bool :=
  let (eng, fire) := P.evalCall known onMains socPct nowUs
  let fired := firedGuests eng
  let P := { P with
    eng := eng
    pendingGuests := P.pendingGuests ++ keepAllocated allocOk fired }
  if fire.hosts.nonzero || !fired.isEmpty then
    let P := { P with pendingHosts := P.pendingHosts.union fire.hosts }
    if P.running then (P, false) else ({ P with running := true }, true)
  else (P, false)

/-! ## 3. `worker_task` -/

/-- What the worker hands to `run_host`. -/
structure Job where
  host : HostIx
  cfg : PveConfig
  nodePending : Bool
  batch : List PendingGuest
  reason : String

/-- The host the next pass is about: the lowest pending node, else the first pending guest's. -/
def nextHost (P : Runtime) : Option HostIx :=
  match hostSlots.find? fun k => P.pendingHosts k with
  | some k => some k
  | none => P.pendingGuests.head?.map PendingGuest.host

/-- The locked section of one pass of **`worker_task`**: the work it takes, or the end of the
    worker. -/
def takeWork (P : Runtime) (allocOk : Nat → Bool) : Option Job × Runtime :=
  match nextHost P with
  | none => (none, { P with running := false })
  | some i =>
      let nodePending := P.pendingHosts i
      (some
        { host := i
          cfg := P.cfg
          nodePending := nodePending
          batch := keepAllocated allocOk (P.pendingGuests.filter fun g => g.host = i)
          reason := if nodePending then fit hostReasonSz (P.eng.reason i) else "" },
        { P with
          pendingHosts := P.pendingHosts.clear i
          pendingGuests := P.pendingGuests.filter fun g => g.host ≠ i })

/-! ## 4. The machine -/

/-- Where a worker task is. -/
inductive Worker where
  /-- At the top of its loop, before it takes the lock. -/
  | top
  /-- In `run_host`. -/
  | acting (job : Job)
  /-- Past its last empty check: nothing is left but `vTaskDelete`. -/
  | leaving

/-- The worker still takes or does work. -/
def Worker.alive : Worker → Bool
  | .leaving => false
  | _ => true

inductive LogEntry where
  /-- `pve_eval` reported host `i`. -/
  | hostFired (i : HostIx)
  /-- `pve_eval` reported a guest with `fired_now`. -/
  | guestFired (g : PendingGuest)
  /-- `run_host` was called. -/
  | call (job : Job)
  /-- `run_host` wrote a request to a server. -/
  | sent (job : Job) (r : Request)

structure Sys where
  P : Runtime
  /-- Callers of `pve_shutdown_observe` about to create the task, and those whose creation
      failed. -/
  creating : Nat
  failing : Nat
  workers : List Worker
  log : List LogEntry

def Sys.start (cfg : PveConfig) (guests : GuestLists) : Sys :=
  ⟨pveShutdownStart cfg guests, 0, 0, [], []⟩

inductive Ev where
  | observe (known onMains : Bool) (socPct nowUs : Int) (allocOk : Nat → Bool)
  /-- `xTaskCreate`, successful or not. -/
  | createTask (ok : Bool)
  /-- The locked section after a failed `xTaskCreate`. -/
  | resetRunning
  | takeWork (w : Nat) (allocOk : Nat → Bool)
  | runHost (w : Nat) (attempts : List TlsAttempt)
  /-- `vTaskDelete`. -/
  | leave (w : Nat)
  | reconfigure (cfg : PveConfig) (guests : GuestLists)

/-- What one call of `pve_eval` adds to the history. -/
def reported (r : PveEngine × PveFire) : List LogEntry :=
  (hostSlots.filter r.2.hosts).map .hostFired ++ (firedGuests r.1).map .guestFired

/-- **One step**, `none` where the event is not enabled. -/
def step (s : Sys) : Ev → Option Sys
  | .observe known onMains socPct nowUs allocOk =>
      let (P, start) := pveShutdownObserve s.P known onMains socPct nowUs allocOk
      some { s with
        P := P
        creating := if start then s.creating + 1 else s.creating
        log := s.log ++ reported (s.P.evalCall known onMains socPct nowUs) }
  | .createTask ok =>
      if s.creating = 0 then none
      else if ok then
        some { s with creating := s.creating - 1, workers := s.workers ++ [.top] }
      else some { s with creating := s.creating - 1, failing := s.failing + 1 }
  | .resetRunning =>
      if s.failing = 0 then none
      else some { s with failing := s.failing - 1, P := { s.P with running := false } }
  | .takeWork w allocOk =>
      match s.workers[w]? with
      | some .top =>
          match takeWork s.P allocOk with
          | (none, P) => some { s with P := P, workers := s.workers.set w .leaving }
          | (some job, P) =>
              some { s with
                P := P
                workers := s.workers.set w (.acting job)
                log := s.log ++ [.call job] }
      | _ => none
  | .runHost w attempts =>
      match s.workers[w]? with
      | some (.acting job) =>
          let world := Pve.runHost job.host job.cfg job.nodePending job.batch job.reason
            ⟨attempts, [], [], []⟩
          some { s with
            P := world.notes.foldl Runtime.applyNote s.P
            workers := s.workers.set w .top
            log := s.log ++ world.sent.map (.sent job) }
      | _ => none
  | .leave w =>
      match s.workers[w]? with
      | some .leaving => some { s with workers := s.workers.eraseIdx w }
      | _ => none
  | .reconfigure cfg guests => some { s with P := pveShutdownReconfigure s.P cfg guests }

/-- The states a run reaches from start-up. -/
def runFrom (cfg : PveConfig) (guests : GuestLists) (es : List Ev) : Option Sys :=
  StepMachine.run step (Sys.start cfg guests) es

end NutBluetti.Pve
