/-
  File:      NutBluetti/Pve/Types.lean
  Subject:   THE DATA OF THE PROXMOX SHUTDOWN (pve_shutdown.h): the stored configuration, one
             observation, and the engine's state.

  A `char` array is the text before its NUL (`CText`); the arrays over the host slots are
  functions on `HostIx`; `unsigned hosts`, one bit a slot, is a `HostMask`; `int64_t` microseconds
  are `Int`. `guest_wait_s`, which nothing reads, is left out here (its bytes are part of
  the configuration's layout).
-/
import Mathlib.Algebra.GroupWithZero.Nat
import Mathlib.Logic.Function.Basic
import NutBluetti.Lib.CText
import NutBluetti.Lib.KeyedList

namespace NutBluetti.Pve

open CText KeyedList

abbrev pveMaxHosts : Nat := 4

instance : NeZero pveMaxHosts := inferInstanceAs (NeZero (3 + 1))

abbrev HostIx := Fin pveMaxHosts

/-- `for (int i = 0; i < PVE_MAX_HOSTS; i++)`. -/
def hostSlots : List HostIx := List.finRange pveMaxHosts

/-! ## 1. Configuration -/

/-- `pve_guest_t`: one guest rule, both triggers off at 0. -/
structure PveGuest where
  id : Int
  onBatteryMin : UInt16
  chargePct : UInt8
  deriving DecidableEq, Repr

/-- `pve_host_t`. -/
structure PveHost where
  enabled : Bool
  url : String
  node : String
  tokenId : String
  secret : String
  shutdownNode : Bool
  fingerprint : String
  onBatteryMin : UInt16
  chargePct : UInt8
  deriving DecidableEq, Repr

/-- An unused slot: all bytes zero. -/
def PveHost.zero : PveHost := ⟨false, "", "", "", "", false, "", 0, 0⟩

/-- `pve_config_t`. -/
structure PveConfig where
  enabled : Bool
  armed : Bool
  mainsBackMin : UInt16
  hosts : HostIx → PveHost

/-- The guest rules of every host, as the caller of `pve_eval` holds them. -/
abbrev GuestLists := HostIx → List PveGuest

/-! ## 2. Observations -/

inductive PvePower where
  | unknown
  | line
  | battery
  deriving DecidableEq, Repr

/-- `pve_obs_t`; `socPct = -1` is an unknown charge. -/
structure PveObs where
  power : PvePower
  socPct : Int
  deriving DecidableEq, Repr

/-! ## 3. Engine state -/

/-- `sizeof` of a host's and of a guest's `reason`. -/
def hostReasonSz : Nat := 64
def guestReasonSz : Nat := 96

/-- `pve_guest_engine_t`. -/
structure GuestEngine where
  id : Int
  fired : Bool
  firedNow : Bool
  reason : String
  deriving DecidableEq, Repr

/-- `pve_engine_t`. -/
structure PveEngine where
  onBattery : Bool
  onBatterySinceUs : Int
  onMains : Bool
  mainsSinceUs : Int
  fired : HostIx → Bool
  reason : HostIx → String
  guests : HostIx → List GuestEngine

/-- A zeroed `pve_engine_t`. -/
def PveEngine.zero : PveEngine :=
  ⟨false, 0, false, 0, fun _ => false, fun _ => "", fun _ => []⟩

/-- `find_guest_state`. -/
def findGuestState (list : List GuestEngine) (id : Int) : Option GuestEngine :=
  lookup GuestEngine.id id list

/-- A bit mask over the host slots (`unsigned`, bit `i` for slot `i`). -/
abbrev HostMask := HostIx → Bool

def HostMask.none : HostMask := fun _ => false

/-- `mask |= 1u << i`. -/
def HostMask.set (m : HostMask) (i : HostIx) : HostMask := Function.update m i true

/-- `mask &= ~(1u << i)`. -/
def HostMask.clear (m : HostMask) (i : HostIx) : HostMask := Function.update m i false

/-- `mask |= other`. -/
def HostMask.union (m n : HostMask) : HostMask := fun i => m i || n i

/-- `mask != 0`. -/
def HostMask.nonzero (m : HostMask) : Bool := hostSlots.any m

@[simp] theorem mem_hostSlots (i : HostIx) : i ∈ hostSlots := List.mem_finRange i

theorem HostMask.nonzero_iff (m : HostMask) : m.nonzero = true ↔ ∃ i, m i = true := by
  simp [HostMask.nonzero, List.any_eq_true]

@[simp] theorem HostMask.none_apply (i : HostIx) : HostMask.none i = false := rfl

@[simp] theorem HostMask.union_apply (m n : HostMask) (i : HostIx) :
    m.union n i = (m i || n i) := rfl

end NutBluetti.Pve
