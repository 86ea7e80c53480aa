/-
  File:      NutBluetti/Web/Forms.lean
  Subject:   TEXT FROM THE NETWORK (provisioning.c): URL decoding, form bodies, and the small
             parsers the handlers put on them.

  A text is its bytes. A C buffer may hold a NUL that a form encoded as `%00`; what the string
  functions see of it is `cstr`.
-/
import Mathlib.Algebra.Group.Int.Defs
import Mathlib.Algebra.GroupWithZero.Nat
import NutBluetti.Config.Types

namespace NutBluetti.Web

open NutBluetti.Config

/-- The string in a buffer: up to the first NUL. -/
def cstr (buf : List UInt8) : List UInt8 := buf.takeWhile (· ≠ 0)

theorem length_cstr_le (buf : List UInt8) : (cstr buf).length ≤ buf.length :=
  (List.takeWhile_prefix _).length_le

/-- `strlcpy` into a buffer of `sz` bytes. -/
def fitBytes (sz : Nat) (s : List UInt8) : List UInt8 := s.take (sz - 1)

/-! ## 1. Characters -/

def chr (c : Char) : UInt8 := UInt8.ofNat c.toNat

def isDigit (c : UInt8) : Bool := decide (chr '0' ≤ c) && decide (c ≤ chr '9')

/-- The digits `%02x` writes. -/
def isLowerHex (c : UInt8) : Bool := isDigit c || (decide (chr 'a' ≤ c) && decide (c ≤ chr 'f'))

/-- `tolower`, in the C locale. -/
def toLower (c : UInt8) : UInt8 := if chr 'A' ≤ c ∧ c ≤ chr 'Z' then c + 32 else c

/-- `hexval`; `none` for -1. -/
def hexval (c : UInt8) : Option UInt8 :=
  if isDigit c then some (c - chr '0')
  else
    let c := toLower c
    if chr 'a' ≤ c ∧ c ≤ chr 'f' then some (c - chr 'a' + 10) else none

def isXdigit (c : UInt8) : Bool := (hexval c).isSome

/-! ## 2. Forms -/

/-- **`url_decode`**, into a buffer with room for `room` more characters. -/
def urlDecode : Nat → List UInt8 → List UInt8
  | 0, _ => []
  | _, [] => []
  | room + 1, c :: rest =>
      if c = chr '+' then chr ' ' :: urlDecode room rest
      else if c = chr '%' then
        match rest with
        | h :: l :: more =>
            match hexval h, hexval l with
            | some hi, some lo => (hi * 16 + lo) :: urlDecode room more
            | _, _ => c :: urlDecode room rest
        | _ => c :: urlDecode room rest
      else c :: urlDecode room rest

/-- The value of a field in one part of the body, if the part is that field: `key=value`. -/
def formPart (key seg : List UInt8) : Option (List UInt8) :=
  if chr '=' ∈ seg ∧ seg.takeWhile (· ≠ chr '=') = key then some (seg.drop (key.length + 1))
    else none

/-- `sizeof tmp` in `form_get`. -/
def formTmpSz : Nat := 256

/-- **`form_get`**: what it leaves in a buffer of `outsz` bytes, or `none` where it returns false
    (and leaves an empty string). -/
def formGet (body : List UInt8) (key : String) (outsz : Nat) : Option (List UInt8) :=
  (((cstr body).splitOn (chr '&')).findSome? (formPart (ascii key))).map fun v =>
    urlDecode (outsz - 1) (v.take (formTmpSz - 1))

/-- The field as a string; empty if there is none. -/
def formText (body : List UInt8) (key : String) (outsz : Nat) : List UInt8 :=
  cstr ((formGet body key outsz).getD [])

/-- `form_get (…) && v[0] == '1'`. -/
def formIsOne (body : List UInt8) (key : String) (outsz : Nat) : Bool :=
  (formText body key outsz).head? = some (chr '1')

/-! ## 3. Parsers -/

/-- `isspace`, in the C locale. -/
def isSpace (c : UInt8) : Bool := c = 32 || (decide (9 ≤ c) && decide (c ≤ 13))

/-- The value of a row of digits. -/
def decimal (ds : List UInt8) : Nat := ds.foldl (fun n d => n * 10 + (d - chr '0').toNat) 0

/-- `atoi`: blanks, a sign, digits. The C library's `strtol` stops at the ends of a 32-bit
    `long`. -/
def atoi (s : List UInt8) : Int :=
  let s := s.dropWhile isSpace
  let (neg, ds) := match s with
    | c :: rest => if c = chr '-' then (true, rest) else if c = chr '+' then (false, rest)
        else (false, s)
    | [] => (false, [])
  let n : Int := decimal (ds.takeWhile isDigit)
  if neg then max (-n) (-2 ^ 31) else min n (2 ^ 31 - 1)

/-- `is_mac_addr`: six hex pairs, colon separated. -/
def isMacAddr (s : List UInt8) : Bool :=
  s.length = 17 && (List.range 17).all fun i =>
    if i % 3 = 2 then s.getD i 0 = chr ':' else isXdigit (s.getD i 0)

/-- One part of `valid_ipv4`: its digits read, the rest of the text, or `none` where it gives up. -/
def ipv4Part : Nat → Nat → List UInt8 → Option (List UInt8)
  | _, _, [] => some []
  | val, digits, c :: rest =>
      if isDigit c then
        let val := val * 10 + (c - chr '0').toNat
        if digits + 1 > 3 ∨ val > 255 then none else ipv4Part val (digits + 1) rest
      else some (c :: rest)

/-- The parts from one on; `parts` were read, and the text has at most `fuel` characters. -/
def ipv4Parts : Nat → Nat → List UInt8 → Bool
  | 0, _, _ => false
  | fuel + 1, parts, s =>
      match s with
      | [] => false
      | c :: _ =>
          -- each part needs a digit
          if !isDigit c then false
          else
            match ipv4Part 0 0 s with
            | none => false
            | some [] => parts + 1 = 4
            | some (d :: rest) =>
                if d ≠ chr '.' ∨ parts + 1 = 4 then false else ipv4Parts fuel (parts + 1) rest

/-- **`valid_ipv4`**. -/
def validIpv4 (s : List UInt8) : Bool := ipv4Parts (s.length + 1) 0 s

end NutBluetti.Web
