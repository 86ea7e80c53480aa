/-
  File:      NutBluetti/Log/Ring.lean
  Subject:   THE LOG RING (log_ring.c): `ring_write`, `log_ring_read`, and a reader that follows the
             log, passing the position each read left it.

  The stream is what the ring was given: of a line longer than the ring, its tail. `head`, a
  `uint64_t` that counts bytes, is a `Nat`.

  * `Represents` -- the ring against the stream, kept by **`ringWrite_represents`**;
  * `logRingRead_spec` -- what a read returns, from any position with any room;
  * **`ring_holds_stream`** -- both, after any number of writes;
  * **`represents_lines`** -- and after any number of log lines, whose colour codes are gone;
  * `ReadExact` -- a read that follows without loss: its bytes are the stream's, from its position
    on, and it passes over none that the ring still holds;
  * **`follow_exact_iff`** -- along any run the reads are so exactly when at each the unread part of
    the ring fits the room: a read with less room starts at the newest bytes and drops held ones.
-/
import NutBluetti.Lib.Circular
import NutBluetti.Lib.StepMachine

namespace NutBluetti.Log

open Circular StepMachine

/-! ## 1. The ring -/

def ringSz : Nat := 12288

/-- `r`. -/
structure LogRing where
  buf : Nat → UInt8
  head : Nat

def LogRing.empty : LogRing := ⟨fun _ => 0, 0⟩

/-- What of a line `ring_write` takes: the tail of a huge one. -/
def tailOf (data : List UInt8) : List UInt8 :=
  if data.length > ringSz then data.drop (data.length - ringSz) else data

/-- `ring_write`. -/
def ringWrite (r : LogRing) (data : List UInt8) : LogRing :=
  if data = [] then r
  else
    let data := tailOf data
    ⟨writeAt ringSz r.buf r.head data, r.head + data.length⟩

/-- `strip_ansi`, inside a sequence or outside one. -/
def stripAnsi : Bool → List UInt8 → List UInt8
  | _, [] => []
  | true, c :: s => stripAnsi (c < 0x40 || c > 0x7E) s
  | false, [c] => [c]
  | false, c :: d :: s =>
      if c = 0x1B && d = 0x5B then stripAnsi true s else c :: stripAnsi false (d :: s)

/-- `ring_vprintf`, of a text as it comes out of its format. -/
def ringVprintf (r : LogRing) (text : List UInt8) : LogRing :=
  ringWrite r (stripAnsi false (text.take 255))

/-- `log_ring_read`: the bytes copied, and the next position. -/
def logRingRead (r : LogRing) (from_ cap : Nat) : List UInt8 × Nat :=
  let oldest := if r.head > ringSz then r.head - ringSz else 0
  let pos := if from_ < oldest then oldest else from_
  let pos := if pos > r.head then r.head else pos
  let avail := r.head - pos
  let pos := if avail > cap then r.head - cap else pos
  let avail := if avail > cap then cap else avail
  (readAt ringSz r.buf pos avail, pos + avail)

/-! ## 2. The stream -/

/-- The ring is the end of a stream. -/
structure Represents (r : LogRing) (s : List UInt8) : Prop where
  head : r.head = s.length
  cells : Holds ringSz r.buf s

theorem represents_empty : Represents LogRing.empty [] := ⟨rfl, holds_nil _⟩

theorem length_tailOf (data : List UInt8) : (tailOf data).length ≤ ringSz := by
  unfold tailOf
  split
  · rw [List.length_drop]
    omega
  · omega

/-- **A write extends the stream** by what it takes of the line. -/
theorem ringWrite_represents {r : LogRing} {s : List UInt8} (h : Represents r s)
    (data : List UInt8) : Represents (ringWrite r data) (s ++ tailOf data) := by
  unfold ringWrite
  split
  · rename_i hnil
    subst hnil
    simpa [tailOf] using h
  · refine ⟨?_, ?_⟩
    · show r.head + _ = _
      rw [h.head, List.length_append]
    · show Holds ringSz (writeAt ringSz r.buf r.head (tailOf data)) _
      rw [h.head]
      exact h.cells.writeAt (length_tailOf data)

/-- The oldest position held. -/
def oldest (head : Nat) : Nat := head - ringSz

/-- Where a read from `from_` begins if there is room for all of the rest. -/
def begins (head from_ : Nat) : Nat := min (max from_ (oldest head)) head

/-- **What a read returns**: from its beginning on where the rest fits the room, else the newest
    `cap` bytes. -/
theorem logRingRead_spec {r : LogRing} {s : List UInt8} (h : Represents r s) (from_ cap : Nat) :
    let pos := max (begins s.length from_) (s.length - cap)
    logRingRead r from_ cap = (s.drop pos, s.length) := by
  intro pos
  have hread : ∀ p, oldest s.length ≤ p → p ≤ s.length →
      readAt ringSz r.buf p (s.length - p) = s.drop p := by
    intro p hold hle
    rw [h.cells.readAt (by unfold oldest at hold; omega) (by omega)]
    exact List.take_of_length_le (Nat.le_of_eq List.length_drop)
  have hpos : oldest s.length ≤ pos ∧ pos ≤ s.length := by
    simp only [pos, begins, oldest]
    omega
  have hold : (if s.length > ringSz then s.length - ringSz else 0) = oldest s.length := by
    unfold oldest
    split <;> omega
  have hfirst : (if (if from_ < oldest s.length then oldest s.length else from_) > s.length then
      s.length else if from_ < oldest s.length then oldest s.length else from_) =
        begins s.length from_ := by
    unfold begins oldest
    split <;> split <;> omega
  have hle : begins s.length from_ ≤ s.length := Nat.min_le_right _ _
  have hp : (if s.length - begins s.length from_ > cap then s.length - cap
      else begins s.length from_) = pos := by
    simp only [pos]
    split <;> omega
  have hn : (if s.length - begins s.length from_ > cap then cap
      else s.length - begins s.length from_) = s.length - pos := by
    simp only [pos]
    split <;> omega
  unfold logRingRead
  rw [h.head]
  simp only [hold, hfirst, hp, hn]
  rw [hread pos hpos.1 hpos.2, Nat.add_sub_cancel' hpos.2]

/-- What a number of writes take, one after the other. -/
def streamOf (writes : List (List UInt8)) : List UInt8 := (writes.map tailOf).flatten

/-- **The ring after any number of writes.** -/
theorem represents_writes {r : LogRing} {s : List UInt8} (h : Represents r s)
    (writes : List (List UInt8)) :
    Represents (writes.foldl ringWrite r) (s ++ streamOf writes) := by
  induction writes generalizing r s with
  | nil =>
      have hnone : streamOf [] = [] := rfl
      rw [hnone, List.append_nil]
      exact h
  | cons data writes ih =>
      have hmore : streamOf (data :: writes) = tailOf data ++ streamOf writes := rfl
      rw [List.foldl_cons, hmore, ← List.append_assoc]
      exact ih (ringWrite_represents h data)

/-- The ring is the end of a stream: `head` is the length of the stream, the cells hold its last
    positions, and a read from anywhere with any room returns a piece of it, up to the position it
    tells. -/
structure EndsStream (r : LogRing) (stream : List UInt8) : Prop where
  head : r.head = stream.length
  cells : ∀ p, p < r.head → r.head - min r.head ringSz ≤ p → stream[p]? = some (r.buf (p % ringSz))
  reads : ∀ from_ cap, ∃ bytes next, logRingRead r from_ cap = (bytes, next) ∧
    bytes.length ≤ cap ∧ bytes.length ≤ next ∧ next ≤ r.head ∧
    bytes = (stream.drop (next - bytes.length)).take bytes.length

/-- **So it is after any writes**, of whatever lengths. -/
theorem ring_holds_stream (writes : List (List UInt8)) :
    EndsStream (writes.foldl ringWrite LogRing.empty) (streamOf writes) := by
  have hring := represents_writes represents_empty writes
  rw [List.nil_append] at hring
  generalize writes.foldl ringWrite LogRing.empty = r at hring ⊢
  generalize streamOf writes = stream at hring ⊢
  refine ⟨hring.head, fun p hlt hlast => ?_, fun from_ cap => ?_⟩
  · rw [hring.head] at hlt hlast
    exact hring.cells p (by omega) hlt
  · have hspec := logRingRead_spec hring from_ cap
    generalize hpos : max (begins stream.length from_) (stream.length - cap) = pos at hspec
    have hle : pos ≤ stream.length := by
      have hbegins : begins stream.length from_ ≤ stream.length := Nat.min_le_right _ _
      omega
    have hlen : (stream.drop pos).length = stream.length - pos := List.length_drop
    refine ⟨stream.drop pos, stream.length,
      hspec, by omega, by omega, Nat.le_of_eq hring.head.symm, ?_⟩
    rw [hlen, Nat.sub_sub_self hle, List.take_of_length_le (Nat.le_of_eq hlen)]

/-- What `ring_vprintf` writes of a text. -/
def lineOf (text : List UInt8) : List UInt8 := stripAnsi false (text.take 255)

/-- `strip_ansi` only takes bytes away, -/
theorem stripAnsi_sublist (inside : Bool) (s : List UInt8) : (stripAnsi inside s).Sublist s := by
  induction inside, s using stripAnsi.induct with
  | case1 inside => exact List.nil_sublist _
  | case2 c s ih =>
      rw [stripAnsi]
      exact ih.cons c
  | case3 c => exact List.Sublist.refl _
  | case4 c d s hesc ih =>
      rw [stripAnsi, if_pos hesc]
      exact (ih.cons d).cons c
  | case5 c d s hesc ih =>
      rw [stripAnsi, if_neg hesc]
      exact ih.cons_cons c

/-- and none where there is no escape. -/
theorem stripAnsi_plain {s : List UInt8} (h : 0x1B ∉ s) : stripAnsi false s = s := by
  induction s with
  | nil => rfl
  | cons c s ih =>
      obtain ⟨hc, hs⟩ := not_or.mp (mt List.mem_cons.mpr h)
      cases s with
      | nil => rfl
      | cons d s =>
          rw [stripAnsi, ih hs]
          simp [Ne.symm hc]

/-- **A line of the log is written whole**: what is left of it after `strip_ansi` is never so long
    that `ring_write` keeps its tail only. -/
theorem ringVprintf_represents {r : LogRing} {s : List UInt8} (h : Represents r s)
    (text : List UInt8) :
    Represents (ringVprintf r text) (s ++ lineOf text) := by
  have hlen : (lineOf text).length ≤ 255 :=
    Nat.le_trans (stripAnsi_sublist false _).length_le (List.length_take_le 255 text)
  have htail : tailOf (lineOf text) = lineOf text := if_neg (by unfold ringSz; omega)
  have hwrite := ringWrite_represents h (lineOf text)
  rw [htail] at hwrite
  exact hwrite

/-- **After any number of lines** the ring is the end of all of them. -/
theorem represents_lines (lines : List (List UInt8)) :
    Represents (lines.foldl ringVprintf LogRing.empty) (lines.flatMap lineOf) := by
  have hall : ∀ {r : LogRing} {s : List UInt8}, Represents r s →
      Represents (lines.foldl ringVprintf r) (s ++ lines.flatMap lineOf) := by
    induction lines with
    | nil =>
        intro r s h
        rw [List.flatMap_nil, List.append_nil]
        exact h
    | cons text lines ih =>
        intro r s h
        rw [List.foldl_cons, List.flatMap_cons, ← List.append_assoc]
        exact ih (ringVprintf_represents h text)
  have hlines := hall represents_empty
  rwa [List.nil_append] at hlines

/-! ## 3. Following the log -/

/-- A reader and the ring it follows, with the stream so far. -/
structure Follower where
  ring : LogRing
  stream : List UInt8
  /-- What the next read passes as its position. -/
  cursor : Nat

inductive LogOp where
  | write (data : List UInt8)
  | read (cap : Nat)

def Follower.start (cursor : Nat) : Follower := ⟨LogRing.empty, [], cursor⟩

def follow (f : Follower) : LogOp → Option Follower
  | .write data =>
      some { f with ring := ringWrite f.ring data, stream := f.stream ++ tailOf data }
  | .read cap => some { f with cursor := (logRingRead f.ring f.cursor cap).2 }

/-- A read by the follower: the bytes, and the position they are placed at, so that they end at the
    next one. -/
def Follower.got (f : Follower) (cap : Nat) : List UInt8 := (logRingRead f.ring f.cursor cap).1
def Follower.next (f : Follower) (cap : Nat) : Nat := (logRingRead f.ring f.cursor cap).2
def Follower.place (f : Follower) (cap : Nat) : Nat := f.next cap - (f.got cap).length

/-- **A read follows without loss.** -/
structure ReadExact (f : Follower) (cap : Nat) : Prop where
  ends : (f.got cap).length ≤ f.next cap
  /-- The bytes are the stream's at their positions. -/
  bytes : f.got cap = (f.stream.drop (f.place cap)).take (f.got cap).length
  /-- No position comes again. -/
  forward : f.got cap ≠ [] → f.cursor ≤ f.place cap
  /-- A position passed over was no longer among the last `ringSz` bytes written. -/
  skipped : ∀ p, f.cursor ≤ p → p < f.place cap → p + ringSz < f.stream.length

/-- The unread part of what the ring holds fits the room of a read. -/
def RoomForRest (f : Follower) (cap : Nat) : Prop :=
  f.stream.length - max f.cursor (oldest f.stream.length) ≤ cap

instance (f : Follower) (cap : Nat) : Decidable (RoomForRest f cap) :=
  inferInstanceAs (Decidable (_ ≤ _))

/-- **When a read follows without loss.** -/
theorem readExact_iff {f : Follower} (h : Represents f.ring f.stream) (cap : Nat) :
    ReadExact f cap ↔ RoomForRest f cap := by
  have hspec := logRingRead_spec h f.cursor cap
  simp only at hspec
  have hgot : f.got cap =
      f.stream.drop (max (begins f.stream.length f.cursor) (f.stream.length - cap)) :=
    congrArg Prod.fst hspec
  have hnext : f.next cap = f.stream.length := congrArg Prod.snd hspec
  have hlen : (f.got cap).length = f.stream.length -
      max (begins f.stream.length f.cursor) (f.stream.length - cap) := by
    rw [hgot, List.length_drop]
  have hle : begins f.stream.length f.cursor ≤ f.stream.length := Nat.min_le_right _ _
  have hplace : f.place cap = max (begins f.stream.length f.cursor) (f.stream.length - cap) := by
    rw [Follower.place, hnext, hlen]
    omega
  unfold RoomForRest
  constructor
  · intro hx
    by_contra hroom
    -- the oldest unread byte is still held, and is passed over
    have hskip := hx.skipped (max f.cursor (oldest f.stream.length)) (by omega) (by
      rw [hplace]
      unfold begins
      omega)
    unfold oldest at hskip
    omega
  · intro hroom
    have hbegins : max (begins f.stream.length f.cursor) (f.stream.length - cap) =
        begins f.stream.length f.cursor := by
      unfold begins
      omega
    rw [hbegins] at hplace hlen hgot
    refine ⟨by omega, ?_, fun hne => ?_, fun p hp hlt => ?_⟩
    · rw [hplace, hgot, List.take_of_length_le (Nat.le_refl _)]
    · have hpos := List.length_pos_iff.mpr hne
      rw [hplace]
      unfold begins at hlen ⊢
      omega
    · rw [hplace] at hlt
      unfold begins oldest at hlt
      omega

/-- What an operation of a run has to meet. -/
def OpExact (f : Follower) : LogOp → Prop
  | .write _ => True
  | .read cap => ReadExact f cap

def OpRoom (f : Follower) : LogOp → Prop
  | .write _ => True
  | .read cap => RoomForRest f cap

theorem represents_follow (f : Follower) (op : LogOp) (f' : Follower)
    (h : Represents f.ring f.stream) (hs : follow f op = some f') :
    Represents f'.ring f'.stream := by
  cases op with
  | write data =>
      obtain rfl := Option.some.inj hs
      exact ringWrite_represents h data
  | read cap =>
      obtain rfl := Option.some.inj hs
      exact h

/-- **When following loses nothing that is held**: along any run of writes and reads, from any first
    position, every read is exact exactly when at every read the unread part of the ring fits its
    room. -/
theorem follow_exact_iff (cursor : Nat) (ops : List LogOp) :
    Along follow OpExact (Follower.start cursor) ops ↔
      Along follow OpRoom (Follower.start cursor) ops := by
  refine along_congr (I := fun f => Represents f.ring f.stream) follow represents_follow ?_
    represents_empty ops
  intro f op h
  cases op with
  | write data => exact Iff.rfl
  | read cap => exact readExact_iff h cap

/-! Two bytes are written, and read with room for one. -/

def burst : List LogOp := [.write [65, 66], .read 1]

/-- **A short read drops a byte that is still held**: it returns the newer one, and the next
    position is past both. -/
theorem burst_loses_byte :
    (∃ f, follow (Follower.start 0) (.write [65, 66]) = some f ∧ f.got 1 = [66] ∧ f.next 1 = 2 ∧
      f.stream = [65, 66]) ∧ ¬ Along follow OpExact (Follower.start 0) burst := by
  have hex : ∃ f, follow (Follower.start 0) (.write [65, 66]) = some f ∧ f.got 1 = [66] ∧
      f.next 1 = 2 ∧ f.stream = [65, 66] := ⟨_, rfl, by decide, by decide, by decide⟩
  refine ⟨hex, fun hx => ?_⟩
  obtain ⟨f, hf, hgot, hnext, hstream⟩ := hex
  have hread : ReadExact f 1 := (hx.2 f hf).1
  have hcur : f.cursor = 0 := by
    obtain rfl := Option.some.inj hf
    rfl
  have hskip := hread.skipped 0 (Nat.le_of_eq hcur) (by simp [Follower.place, hgot, hnext])
  simp [hstream, ringSz] at hskip

end NutBluetti.Log
