/-
  File:      NutBluetti/Lib/Checked.lean
  Subject:   ACCESSES WITH THEIR BOUNDS. A buffer is the list of its valid bytes; an access outside
             it, and a sum that leaves the width of a length, is `none`.

  * `byte`, `slice` -- reads of one byte and of a stretch;
  * `append` -- a copy behind what is there, into a buffer of a given size;
  * `sum` -- a sum of lengths of `2 ^ w` values;
  * **`byte_inside`**, **`slice_inside`**, **`append_inside`** -- what the accesses give inside the
    bounds.
-/
import Mathlib.Algebra.Group.Nat.Defs
import Mathlib.Data.List.GetD

namespace Checked

variable {β : Type*}

def byte (buf : List β) (i : Nat) : Option β := buf[i]?

def slice (buf : List β) (off len : Nat) : Option (List β) :=
  if off + len ≤ buf.length then some ((buf.drop off).take len) else none

def append (size : Nat) (buf data : List β) : Option (List β) :=
  if buf.length + data.length ≤ size then some (buf ++ data) else none

def sum (w a b : Nat) : Option Nat :=
  if a + b < 2 ^ w then some (a + b) else none

variable {buf data : List β}

theorem byte_inside {i : Nat} (h : i < buf.length) (d : β) : byte buf i = some (buf.getD i d) := by
  unfold byte
  rw [List.getElem?_eq_getElem h, List.getD_eq_getElem _ _ h]

theorem slice_inside {off len : Nat} (h : off + len ≤ buf.length) :
    slice buf off len = some ((buf.drop off).take len) := if_pos h

/-- The first bytes. -/
theorem slice_take {len : Nat} (h : len ≤ buf.length) : slice buf 0 len = some (buf.take len) :=
  slice_inside (by omega)

/-- The bytes from an offset to the end. -/
theorem slice_drop {off : Nat} (h : off ≤ buf.length) :
    slice buf off (buf.length - off) = some (buf.drop off) := by
  rw [slice_inside (by omega), ← List.length_drop, List.take_length]

theorem append_inside {size : Nat} (h : buf.length + data.length ≤ size) :
    append size buf data = some (buf ++ data) := if_pos h

theorem sum_inside {w a b : Nat} (h : a + b < 2 ^ w) : sum w a b = some (a + b) := if_pos h

end Checked
