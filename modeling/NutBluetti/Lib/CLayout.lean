/-
  File:      NutBluetti/Lib/CLayout.lean
  Subject:   HOW C LAYS OUT A STRUCT, and memory as the bytes at its offsets.

  A struct is the list of its members with their sizes and alignments; `place` says where each of
  them lands.

  * **`place_append`** -- a member appended moves none of those before it;
  * `place_bounds`, **`place_apart`** -- members lie within the struct, and do not overlap;
  * `read_poke_self`, `read_poke_other` -- a span reads back what was written over it, and is not
    touched by what is written beside it;
  * **`read_poke_front_iff`** -- a span under the end of a copied block keeps what it held exactly
    when the bytes copied over it are the same;
  * `ChangedWithin` -- what an operation may write, as a footprint: footprints are composed with
    `trans`, and **`ChangedWithin.read`** reads a member outside of them.
-/
import Mathlib.Data.List.GetD

namespace CLayout

variable {ν : Type*}

/-! ## 1. Structs -/

structure Member (ν : Type*) where
  name : ν
  size : Nat
  align : Nat

/-- Where a member lies. -/
structure Span (ν : Type*) where
  name : ν
  start : Nat
  size : Nat
  deriving DecidableEq

/-- The next offset that is a multiple of the alignment. -/
def alignUp (n a : Nat) : Nat := n + (a - n % a) % a

theorem le_alignUp (n a : Nat) : n ≤ alignUp n a := Nat.le_add_right n _

/-- The members from an offset on. -/
def place : Nat → List (Member ν) → List (Span ν)
  | _, [] => []
  | off, m :: ms =>
      ⟨m.name, alignUp off m.align, m.size⟩ :: place (alignUp off m.align + m.size) ms

/-- The offset just past the last member. -/
def endFrom : Nat → List (Member ν) → Nat
  | off, [] => off
  | off, m :: ms => endFrom (alignUp off m.align + m.size) ms

def alignOf (ms : List (Member ν)) : Nat := ms.foldl (fun a m => max a m.align) 1

/-- `sizeof`: the end, rounded up to the alignment of the whole. -/
def sizeOf (ms : List (Member ν)) : Nat := alignUp (endFrom 0 ms) (alignOf ms)

/-- **Append only**: the members of a prefix lie where they lie in the prefix alone. -/
theorem place_append (off : Nat) (l m : List (Member ν)) :
    place off (l ++ m) = place off l ++ place (endFrom off l) m := by
  induction l generalizing off with
  | nil => rfl
  | cons a l ih => simp only [List.cons_append, place, endFrom, ih]

theorem le_endFrom (off : Nat) (ms : List (Member ν)) : off ≤ endFrom off ms := by
  induction ms generalizing off with
  | nil => exact Nat.le_refl off
  | cons m ms ih =>
      have h1 := le_alignUp off m.align
      have h2 := ih (alignUp off m.align + m.size)
      simp only [endFrom]
      omega

/-- Every member lies between the two ends. -/
theorem place_bounds {off : Nat} {ms : List (Member ν)} {s : Span ν} (h : s ∈ place off ms) :
    off ≤ s.start ∧ s.start + s.size ≤ endFrom off ms := by
  induction ms generalizing off with
  | nil => cases h
  | cons m ms ih =>
      have h1 := le_alignUp off m.align
      rcases List.mem_cons.mp h with rfl | h
      · exact ⟨h1, le_endFrom _ ms⟩
      · have h2 := ih h
        simp only [endFrom]
        omega

/-- Two spans share no byte. -/
def Apart (s t : Span ν) : Prop := s.start + s.size ≤ t.start ∨ t.start + t.size ≤ s.start

/-- **Members do not overlap.** -/
theorem place_apart {off : Nat} {ms : List (Member ν)} {s t : Span ν} (hs : s ∈ place off ms)
    (ht : t ∈ place off ms) (hne : s ≠ t) : Apart s t := by
  induction ms generalizing off with
  | nil => cases hs
  | cons m ms ih =>
      rcases List.mem_cons.mp hs with rfl | hs
      · rcases List.mem_cons.mp ht with rfl | ht
        · exact absurd rfl hne
        · exact .inl (place_bounds ht).1
      · rcases List.mem_cons.mp ht with rfl | ht
        · exact .inr (place_bounds hs).1
        · exact ih hs ht

/-! ## 2. Memory -/

/-- The bytes of an object, by offset. -/
abbrev Image := Nat → UInt8

/-- Bytes written from an offset on: an assignment, `memset`, `memcpy`. -/
def Image.poke (img : Image) (start : Nat) (bytes : List UInt8) : Image := fun i =>
  if start ≤ i ∧ i < start + bytes.length then bytes.getD (i - start) 0 else img i

/-- The bytes of a member. -/
def Image.read (img : Image) (s : Span ν) : List UInt8 :=
  (List.range s.size).map fun k => img (s.start + k)

theorem read_eq_iff {img img' : Image} {s : Span ν} :
    img.read s = img'.read s ↔ ∀ k < s.size, img (s.start + k) = img' (s.start + k) := by
  unfold Image.read
  constructor
  · intro h k hk
    exact List.map_inj_left.mp h k (List.mem_range.mpr hk)
  · intro h
    exact List.map_inj_left.mpr fun k hk => h k (List.mem_range.mp hk)

theorem read_poke_self (img : Image) {s : Span ν} {bytes : List UInt8} (h : bytes.length = s.size) :
    (img.poke s.start bytes).read s = bytes := by
  unfold Image.read Image.poke
  apply List.ext_getElem
  · simp [h]
  · intro k hk hk'
    simp only [List.getElem_map, List.getElem_range, Nat.add_sub_cancel_left]
    rw [if_pos (by omega), List.getD_eq_getElem _ _ hk']

/-- Bytes written at the front of a member stand at its front. -/
theorem read_poke_start (img : Image) {s : Span ν} {bytes : List UInt8}
    (h : bytes.length ≤ s.size) : ∃ rest, (img.poke s.start bytes).read s = bytes ++ rest := by
  refine ⟨(List.range' bytes.length (s.size - bytes.length)).map fun k => img (s.start + k), ?_⟩
  unfold Image.read Image.poke
  apply List.ext_getElem
  · simp only [List.length_map, List.length_range, List.length_append, List.length_range']
    omega
  · intro k hk hk'
    simp only [List.getElem_map, List.getElem_range, Nat.add_sub_cancel_left]
    by_cases hlt : k < bytes.length
    · rw [if_pos (by omega), List.getElem_append_left hlt, List.getD_eq_getElem _ _ hlt]
    · rw [if_neg (by omega), List.getElem_append_right (by omega), List.getElem_map,
        List.getElem_range']
      congr 2
      omega

theorem read_poke_other (img : Image) {s : Span ν} {start : Nat} {bytes : List UInt8}
    (h : s.start + s.size ≤ start ∨ start + bytes.length ≤ s.start) :
    (img.poke start bytes).read s = img.read s := by
  refine read_eq_iff.mpr fun k hk => ?_
  unfold Image.poke
  rw [if_neg (by omega)]

/-- The memory from an address on. -/
def Image.from (img : Image) (base : Nat) : Image := fun i => img (base + i)

/-- `memcpy` of the first `n` bytes of an object. -/
def Image.copy (dst src : Image) (n : Nat) : Image := fun i => if i < n then src i else dst i

/-- **Under the end of a copied block** a span keeps what it held exactly when the bytes that were
    copied over it are the same. -/
theorem read_poke_front_iff (img : Image) (s : Span ν) (bytes : List UInt8) :
    (img.poke 0 bytes).read s = img.read s ↔
      ∀ k < s.size, s.start + k < bytes.length →
      bytes.getD (s.start + k) 0 = img (s.start + k) := by
  rw [read_eq_iff]
  refine forall₂_congr fun k hk => ?_
  unfold Image.poke
  by_cases hlt : s.start + k < bytes.length
  · rw [if_pos ⟨Nat.zero_le _, by omega⟩, Nat.sub_zero]
    exact ⟨fun h _ => h, fun h => h hlt⟩
  · rw [if_neg (by omega)]
    exact ⟨fun _ h => absurd h hlt, fun _ => rfl⟩

/-- A span that a copied block covers holds the bytes of the block. -/
theorem read_poke_front (img : Image) {s : Span ν} {bytes : List UInt8}
    (h : s.start + s.size ≤ bytes.length) :
    (img.poke 0 bytes).read s = (List.range s.size).map fun k => bytes.getD (s.start + k) 0 := by
  unfold Image.read Image.poke
  refine List.map_inj_left.mpr fun k hk => ?_
  have hk := List.mem_range.mp hk
  rw [if_pos (by omega), Nat.sub_zero]

/-- A span within what was written holds the bytes that landed there. -/
theorem read_poke_inner (img : Image) (s : Span ν) (start : Nat) (bytes : List UInt8)
    (hlo : start ≤ s.start) (hhi : s.start + s.size ≤ start + bytes.length) :
    (img.poke start bytes).read s =
      (List.range s.size).map fun k => bytes.getD (s.start - start + k) 0 := by
  unfold Image.read Image.poke
  refine List.map_inj_left.mpr fun k hk => ?_
  have hk := List.mem_range.mp hk
  rw [if_pos (by omega), Nat.sub_add_comm hlo]

/-! ## 3. Footprints -/

/-- The offsets of a member. -/
def Span.Has (s : Span ν) (k : Nat) : Prop := s.start ≤ k ∧ k < s.start + s.size

theorem Apart.not_has {s t : Span ν} (h : Apart s t) {k : Nat} (hk : s.Has k) : ¬ t.Has k := by
  obtain ⟨hlo, hhi⟩ := hk
  rintro ⟨hlo', hhi'⟩
  rcases h with h | h <;> omega

/-- Only bytes of the footprint `P` differ. -/
def ChangedWithin (P : Nat → Prop) (img img' : Image) : Prop := ∀ k, ¬ P k → img' k = img k

namespace ChangedWithin

variable {P Q : Nat → Prop} {img img' img'' : Image}

theorem refl (P : Nat → Prop) (img : Image) : ChangedWithin P img img := fun _ _ => rfl

theorem trans (h : ChangedWithin P img img') (h' : ChangedWithin P img' img'') :
    ChangedWithin P img img'' := fun k hk => (h' k hk).trans (h k hk)

theorem mono (h : ChangedWithin P img img') (hPQ : ∀ k, P k → Q k) : ChangedWithin Q img img' :=
  fun k hk => h k fun hP => hk (hPQ k hP)

/-- A write moves no more than where it lands. -/
theorem poke (img : Image) {start : Nat} {bytes : List UInt8}
    (hP : ∀ k, start ≤ k → k < start + bytes.length → P k) :
    ChangedWithin P img (img.poke start bytes) := by
  intro k hk
  unfold Image.poke
  rw [if_neg fun hin => hk (hP k hin.1 hin.2)]

/-- **A member outside the footprint is as before.** -/
theorem read (h : ChangedWithin P img img') {s : Span ν} (hs : ∀ k, s.Has k → ¬ P k) :
    img'.read s = img.read s :=
  read_eq_iff.mpr fun k hk => h _ (hs _ ⟨Nat.le_add_right _ _, by omega⟩)

end ChangedWithin

end CLayout
