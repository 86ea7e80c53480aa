/-
  File:      NutBluetti/Nut/Vars.lean
  Subject:   THE VARIABLE TABLE OF THE NUT SERVER (nut_server.c) and the numbers written into it.

  The table of a server that runs. With NUT switched off there is none, and every call is a no-op.

  * `VarCall` -- a call on the table, with what it does to the slots (`run`); a text is cut to its
    buffer;
  * **`slotCall_run`** -- for a name its buffer holds, that is a call of `Slots`;
  * `numberOf_toString` -- a number is read back from its text.
-/
import Mathlib.Algebra.Group.Int.Defs
import Mathlib.Algebra.GroupWithZero.Nat
import NutBluetti.Lib.Slots
import NutBluetti.Lib.CText

namespace NutBluetti.Nut

open CText

/-! ## 1. The table -/

def nutMaxVars : Nat := 48
def nutVarNameLen : Nat := 40
def nutVarValueLen : Nat := 64

/-- `s.vars`: the name and the value of a slot in use. -/
abbrev VarTable := Slots.Table String String

/-- `nut_server_set_var`. -/
def nutServerSetVar (name value : String) (t : VarTable) : VarTable :=
  if (Slots.lookup name t).isSome then Slots.overwrite name (fit nutVarValueLen value) t
  else Slots.fill (fit nutVarNameLen name) (fit nutVarValueLen value) t

/-- `nut_server_clear_var`. -/
def nutServerClearVar (name : String) (t : VarTable) : VarTable := Slots.clear name t

/-- `nut_server_get_var`, into a buffer with room for any value. -/
def nutServerGetVar (t : VarTable) (name : String) : Option String := Slots.lookup name t

/-- A call on the table. -/
inductive VarCall where
  | set (name value : String)
  | clear (name : String)
  deriving DecidableEq

namespace VarCall

def name : VarCall → String
  | set n _ => n
  | clear n => n

def run : VarCall → VarTable → VarTable
  | set n v => nutServerSetVar n v
  | clear n => nutServerClearVar n

/-- The same on slots that hold the name whole. -/
def slotCall : VarCall → Slots.Call String String
  | set n v => .put n (fit nutVarValueLen v)
  | clear n => .clear n

@[simp] theorem slotCall_key (c : VarCall) : c.slotCall.key = c.name := by
  cases c <;> rfl

theorem slotCall_run {c : VarCall} (h : c.name.length < nutVarNameLen) (t : VarTable) :
    c.run t = c.slotCall.run t := by
  cases c with
  | set n v =>
      have hname : n.length < nutVarNameLen := h
      show nutServerSetVar n v t = Slots.put n (fit nutVarValueLen v) t
      unfold nutServerSetVar Slots.put
      rw [fit_of_length_lt hname]
  | clear n => rfl

end VarCall

def runCalls (cs : List VarCall) (t : VarTable) : VarTable := cs.foldl (fun t c => c.run t) t

theorem runCalls_eq {cs : List VarCall} (h : ∀ c ∈ cs, c.name.length < nutVarNameLen)
    (t : VarTable) : runCalls cs t = Slots.runAll (cs.map VarCall.slotCall) t := by
  induction cs generalizing t with
  | nil => rfl
  | cons c cs ih =>
      show runCalls cs (c.run t) = Slots.runAll (cs.map VarCall.slotCall) (c.slotCall.run t)
      rw [ih fun d hd => h d (List.mem_cons_of_mem c hd),
        VarCall.slotCall_run (h c List.mem_cons_self)]

/-! ## 2. Numbers -/

/-- `nut_server_set_var_int`. -/
def nutServerSetVarInt (name : String) (value : Int) : VarCall :=
  .set name (fit 24 (toString value))

/-- A reading of some tenths without the tenths: to the nearest, a half to the even one. -/
def roundTenths (tenths : Nat) : Nat :=
  if tenths % 10 < 5 ∨ tenths % 10 = 5 ∧ tenths / 10 % 2 = 0 then tenths / 10 else tenths / 10 + 1

/-- `%.*f` of a reading that is not negative, with no decimals or with one. -/
def floatText (tenths decimals : Nat) : String :=
  if decimals = 0 then toString (roundTenths tenths)
  else toString (tenths / 10) ++ "." ++ toString (tenths % 10)

/-- `nut_server_set_var_float`. -/
def nutServerSetVarFloat (name : String) (tenths : Int) (decimals : Nat) : VarCall :=
  .set name (fit 32 (floatText tenths.toNat decimals))

/-- `nut_server_set_status`. -/
def nutServerSetStatus (status : String) : VarCall := .set "ups.status" status

/-- The number that a decimal text stands for. -/
def numberOf (s : String) : Int :=
  match s.toList with
  | '-' :: ds => -(Nat.ofDigitChars 10 ds 0 : Int)
  | ds => Nat.ofDigitChars 10 ds 0

/-- A number is read back from its text. -/
theorem numberOf_toString (n : Int) : numberOf (toString n) = n := by
  rw [Int.toString_eq_repr, Int.repr_eq_if]
  unfold numberOf
  by_cases hn : 0 ≤ n
  · rw [if_pos hn, Nat.toList_repr]
    split
    next ds hds =>
      have hdigit : ('-' : Char).isDigit := Nat.isDigit_of_mem_toDigits (by decide) (by decide)
        (hds ▸ List.mem_cons_self)
      exact absurd hdigit (by decide)
    next =>
      rw [Nat.ofDigitChars_ten_toDigits]
      omega
  · rw [if_neg hn, String.toList_append, Nat.toList_repr]
    show -(Nat.ofDigitChars 10 (Nat.toDigits 10 (-n).toNat) 0 : Int) = n
    rw [Nat.ofDigitChars_ten_toDigits]
    omega

/-- A value of up to twelve digits fits the buffers it goes through. -/
theorem fit_toString {n : Int} (hlo : -10 ^ 12 < n) (hhi : n < 10 ^ 12) :
    fit nutVarValueLen (fit 24 (toString n)) = toString n := by
  have hlen : (toString n).length < 24 :=
    Nat.lt_of_le_of_lt (length_toString_le (by decide) hlo hhi) (by decide)
  rw [fit_of_length_lt hlen, fit_of_length_lt (Nat.lt_trans hlen (by decide))]

end NutBluetti.Nut
