/-
  File:      NutBluetti/Lib/Circular.lean
  Subject:   A STREAM IN A CIRCULAR BUFFER: position `p` of the stream lives in cell `p % sz`, and
             the last `sz` positions are held.

  Cells are a function of their index; a copy into them and one out of them are what `memcpy` does.

  * `copyIn`, `copyOut` -- a run of cells overwritten and read;
  * `writeAt`, `readAt` -- the same from a position of the stream, in two copies where the run goes
    over the end of the buffer;
  * `Holds sz cells s` -- the cells hold the end of the stream `s`;
  * **`Holds.writeAt`** -- what is written at the end of the stream extends it;
  * **`Holds.readAt`** -- a run of held positions reads as the stream has it there.
-/
import Mathlib.Data.List.Basic

namespace Circular

variable {α : Type*}

/-! ## 1. Copies -/

/-- The cells from `off` on, overwritten. -/
def copyIn (cells : Nat → α) (off : Nat) (data : List α) : Nat → α := fun i =>
  if off ≤ i then (data[i - off]?).getD (cells i) else cells i

/-- `n` cells from `off` on. -/
def copyOut (cells : Nat → α) (off n : Nat) : List α := (List.range n).map fun i => cells (off + i)

@[simp] theorem length_copyOut (cells : Nat → α) (off n : Nat) :
    (copyOut cells off n).length = n := by
  simp [copyOut]

theorem getElem?_copyOut {cells : Nat → α} {off n i : Nat} (h : i < n) :
    (copyOut cells off n)[i]? = some (cells (off + i)) := by
  simp [copyOut, h]

theorem copyIn_of_mem {cells : Nat → α} {off : Nat} {data : List α} {i : Nat} {a : α}
    (h : off ≤ i) (ha : data[i - off]? = some a) : copyIn cells off data i = a := by
  rw [copyIn, if_pos h, ha, Option.getD_some]

theorem copyIn_of_not_mem {cells : Nat → α} {off : Nat} {data : List α} {i : Nat}
    (h : i < off ∨ off + data.length ≤ i) : copyIn cells off data i = cells i := by
  unfold copyIn
  split
  · have hnone : data[i - off]? = none := List.getElem?_eq_none_iff.mpr (by omega)
    rw [hnone, Option.getD_none]
  · rfl

/-! ## 2. Runs of positions -/

variable (sz : Nat)

/-- How much of a run of `n` positions from `p` on comes before the end of the buffer. -/
def toEnd (p n : Nat) : Nat := min (sz - p % sz) n

/-- A text written from position `p` on. -/
def writeAt (cells : Nat → α) (p : Nat) (data : List α) : Nat → α :=
  let cells := copyIn cells (p % sz) (data.take (toEnd sz p data.length))
  if toEnd sz p data.length < data.length then
    copyIn cells 0 (data.drop (toEnd sz p data.length))
  else cells

/-- `n` positions read from `p` on. -/
def readAt (cells : Nat → α) (p n : Nat) : List α :=
  copyOut cells (p % sz) (toEnd sz p n) ++
    if toEnd sz p n < n then copyOut cells 0 (n - toEnd sz p n) else []

/-- The cells hold the last `sz` positions of the stream. -/
def Holds (cells : Nat → α) (s : List α) : Prop :=
  ∀ p, s.length ≤ p + sz → p < s.length → s[p]? = some (cells (p % sz))

variable {sz}

/-- The cell of the `k`-th position after `p`, where the run is no longer than the buffer. -/
theorem mod_of_run {p k : Nat} (hk : k < sz) :
    (p + k) % sz = if p % sz + k < sz then p % sz + k else p % sz + k - sz := by
  have hlt := Nat.mod_lt p (Nat.lt_of_le_of_lt (Nat.zero_le k) hk)
  rw [Nat.add_mod, Nat.mod_eq_of_lt hk]
  split
  · rename_i h
    exact Nat.mod_eq_of_lt h
  · rename_i h
    rw [Nat.mod_eq_sub_mod (Nat.le_of_not_lt h), Nat.mod_eq_of_lt (by omega)]

/-- What is written is found at its positions. -/
theorem writeAt_self {cells : Nat → α} {p k : Nat} {data : List α} (hlen : data.length ≤ sz)
    {a : α} (ha : data[k]? = some a) : writeAt sz cells p data ((p + k) % sz) = a := by
  have hk : k < data.length := (List.getElem?_eq_some_iff.mp ha).1
  have hoff := Nat.mod_lt p (show 0 < sz by omega)
  have hend : toEnd sz p data.length = min (sz - p % sz) data.length := rfl
  rw [mod_of_run (by omega)]
  unfold writeAt
  by_cases hwrap : p % sz + k < sz
  · have htake : (data.take (toEnd sz p data.length))[p % sz + k - p % sz]? = some a := by
      rw [Nat.add_sub_cancel_left, List.getElem?_take_of_lt (by omega)]
      exact ha
    rw [if_pos hwrap]
    split
    · rw [copyIn_of_not_mem (.inr (by rw [List.length_drop]; omega))]
      exact copyIn_of_mem (Nat.le_add_right _ _) htake
    · exact copyIn_of_mem (Nat.le_add_right _ _) htake
  · rw [if_neg hwrap, if_pos (by omega)]
    refine copyIn_of_mem (Nat.zero_le _) ?_
    rw [List.getElem?_drop, Nat.sub_zero]
    have hidx : toEnd sz p data.length + (p % sz + k - sz) = k := by omega
    rw [hidx]
    exact ha

/-- The positions before it that stay held keep their cells. -/
theorem writeAt_other {cells : Nat → α} {p q : Nat} {data : List α} (hq : q < p)
    (hheld : p + data.length ≤ q + sz) :
    writeAt sz cells p data (q % sz) = cells (q % sz) := by
  have hend : toEnd sz p data.length = min (sz - p % sz) data.length := rfl
  by_cases hnil : data = []
  · subst hnil
    unfold writeAt
    rw [if_neg (by simp)]
    exact copyIn_of_not_mem (by simp only [List.take_nil, List.length_nil]; omega)
  · have hpos := List.length_pos_iff.mpr hnil
    have hoff := Nat.mod_lt q (show 0 < sz by omega)
    have hp : p % sz = if q % sz + (p - q) < sz then q % sz + (p - q)
        else q % sz + (p - q) - sz := by
      rw [← mod_of_run (by omega), Nat.add_sub_cancel' (Nat.le_of_lt hq)]
    have hlt : p % sz ≤ sz := by
      split at hp <;> omega
    -- the cell of `q` lies before the run, or after all of it
    have hfirst : q % sz < p % sz ∨ p % sz + toEnd sz p data.length ≤ q % sz := by
      split at hp <;> omega
    have hfirst' : copyIn cells (p % sz) (data.take (toEnd sz p data.length)) (q % sz) =
        cells (q % sz) := by
      refine copyIn_of_not_mem ?_
      rw [List.length_take]
      omega
    unfold writeAt
    split
    · rw [copyIn_of_not_mem (.inr ?_), hfirst']
      rw [List.length_drop]
      split at hp <;> omega
    · exact hfirst'

/-! ## 3. The stream -/

theorem holds_nil (cells : Nat → α) : Holds sz cells ([] : List α) := fun _ _ h => by
  cases h

/-- **A write at the end of the stream extends it.** -/
theorem Holds.writeAt {cells : Nat → α} {s data : List α} (h : Holds sz cells s)
    (hlen : data.length ≤ sz) : Holds sz (Circular.writeAt sz cells s.length data) (s ++ data) := by
  intro p hheld hp
  rw [List.length_append] at hheld hp
  by_cases hold : p < s.length
  · rw [writeAt_other hold hheld, List.getElem?_append_left hold]
    exact h p (by omega) hold
  · have hk : p - s.length < data.length := by omega
    have ha : data[p - s.length]? = some data[p - s.length] := List.getElem?_eq_getElem hk
    have hself : Circular.writeAt sz cells s.length data ((s.length + (p - s.length)) % sz) =
        data[p - s.length] := writeAt_self hlen ha
    rw [Nat.add_sub_cancel' (Nat.le_of_not_lt hold)] at hself
    rw [List.getElem?_append_right (Nat.le_of_not_lt hold), ha, hself]

/-- **Held positions read as the stream has them.** -/
theorem Holds.readAt {cells : Nat → α} {s : List α} (h : Holds sz cells s) {p n : Nat}
    (hheld : s.length ≤ p + sz) (hn : p + n ≤ s.length) :
    Circular.readAt sz cells p n = (s.drop p).take n := by
  have hend : toEnd sz p n = min (sz - p % sz) n := rfl
  refine List.ext_getElem? fun k => ?_
  by_cases hk : k < n
  · have hoff := Nat.mod_lt p (show 0 < sz by omega)
    have hcell : s[p + k]? = some (cells ((p + k) % sz)) := h (p + k) (by omega) (by omega)
    rw [List.getElem?_take_of_lt hk, List.getElem?_drop, hcell, mod_of_run (by omega)]
    unfold Circular.readAt
    by_cases hwrap : p % sz + k < sz
    · rw [if_pos hwrap, List.getElem?_append_left (by rw [length_copyOut]; omega),
        getElem?_copyOut (by omega)]
    · rw [if_neg hwrap, List.getElem?_append_right (by rw [length_copyOut]; omega), length_copyOut,
        if_pos (by omega), getElem?_copyOut (by omega)]
      have hidx : 0 + (k - toEnd sz p n) = p % sz + k - sz := by omega
      rw [hidx]
  · have hleft : (Circular.readAt sz cells p n).length = n := by
      unfold Circular.readAt
      rw [List.length_append, length_copyOut]
      split
      · rw [length_copyOut]
        omega
      · rw [List.length_nil]
        omega
    rw [List.getElem?_eq_none_iff.mpr (by omega), List.getElem?_eq_none_iff.mpr (by
      rw [List.length_take]
      omega)]

end Circular
