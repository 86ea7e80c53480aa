/-
  File:      NutBluetti/Ble/KexFrames.lean
  Subject:   THE DATA OF A KEY-EXCHANGE FRAME: the slice `handle_kex` hands on, against the body it
             is cut from.

  * `KexSlice` -- where the data starts in the frame and how long it is said to be;
  * `handleKex_slice` -- what `handle_kex` hands on is that slice of an accepted frame;
  * **`kexSlice_inside_iff`** -- the slice lies inside the body for every accepted frame but those
    of five bytes, whose length wraps around.
-/
import NutBluetti.Ble.SessionStream

namespace NutBluetti.Ble

variable {κ : Type} {env : Env κ}

/-- A stretch of a frame: the offset of its first byte, and its length. -/
structure KexSlice where
  offset : Nat
  len : Nat

/-- The body of a frame, between the two magic bytes and the checksum. -/
def kexBody (frame : List UInt8) : KexSlice := ⟨2, frame.length - 4⟩

/-- The data handed on: the body without its type and the byte after it, `body + 2` and
    `body_len - 2`. -/
def kexData (frame : List UInt8) : KexSlice := ⟨4, kexDataLen (frame.length - 4)⟩

/-- The one stretch lies inside the other. -/
def KexSlice.Inside (s t : KexSlice) : Prop :=
  t.offset ≤ s.offset ∧ s.offset + s.len ≤ t.offset + t.len

instance (s t : KexSlice) : Decidable (s.Inside t) := inferInstanceAs (Decidable (_ ∧ _))

/-- The frame passes the length guard and the checksum. -/
def KexAccepted (frame : List UInt8) : Prop := (kexOf frame).isSome = true

instance (frame : List UInt8) : Decidable (KexAccepted frame) := inferInstanceAs (Decidable (_ = _))

/-- **What `handle_kex` hands on**: an accepted frame is dispatched on its type with the pointer and
    the length of `kexData`, any other is dropped. -/
theorem handleKex_slice (s : BtSession κ) (frame : List UInt8) :
    handleKex env s frame =
      if KexAccepted frame then
        let type := frame.getD 2 0
        let data := frame.drop (kexData frame).offset
        let len := (kexData frame).len
        if type = msgChallenge then onChallenge env s data len
        else if type = msgPeerPubkey then onPeerPubkey env s data len
        else if type = msgPubkeyAccepted then onPubkeyAccepted env s data len
        else s
      else s := by
  cases h : kexOf frame with
  | none =>
      rw [if_neg (by simp [KexAccepted, h]), handleKex_none h]
  | some p =>
      obtain ⟨type, data, len⟩ := p
      rw [if_pos (by simp [KexAccepted, h]), handleKex_some h]
      unfold kexOf at h
      simp only at h
      split at h
      · cases h
      rename_i h5
      split at h
      · cases h
      obtain ⟨rfl, hrest⟩ := Prod.mk.inj (Option.some.inj h)
      obtain ⟨rfl, rfl⟩ := Prod.mk.inj hrest
      have htype : ((frame.drop 2).take (frame.length - 4)).getD 0 0 = frame.getD 2 0 := by
        rw [List.getD_eq_getElem?_getD, List.getElem?_take_of_lt (by omega), List.getElem?_drop,
          List.getD_eq_getElem?_getD]
      rw [htype]
      rfl

/-- With more than one byte of body the length is the body's, less two. -/
theorem kexDataLen_of_le {n : Nat} (h : 2 ≤ n) : 2 + kexDataLen n ≤ n := by
  have hle : kexDataLen n ≤ n - 2 := by
    have hn : n + (2 ^ 32 - 2) = n - 2 + 2 ^ 32 := by omega
    rw [kexDataLen, hn, Nat.add_mod_right]
    exact Nat.mod_le _ _
  omega

/-- The accepted frames of five bytes: the one byte of body is its own checksum. -/
theorem kexAccepted_five {frame : List UInt8} (hlen : frame.length = 5) :
    KexAccepted frame ↔ ∃ m₀ m₁ b, frame = [m₀, m₁, b, 0, b] := by
  obtain ⟨m₀, m₁, b, hi, lo, rfl⟩ : ∃ m₀ m₁ b hi lo, frame = [m₀, m₁, b, hi, lo] := by
    match frame, hlen with
    | [m₀, m₁, b, hi, lo], _ => exact ⟨m₀, m₁, b, hi, lo, rfl⟩
  have hsum : hexsum [b] = [0, b] := by
    have hb : b.toNat / 256 = 0 := Nat.div_eq_of_lt b.toNat_lt
    simp [hexsum, hb]
  have hacc : KexAccepted [m₀, m₁, b, hi, lo] ↔ hexsum [b] = [hi, lo] := by
    unfold KexAccepted kexOf
    simp only [List.length_cons, List.length_nil]
    rw [if_neg (by decide)]
    by_cases h : hexsum [b] = [hi, lo]
    · exact iff_of_true (by simp [h]) h
    · exact iff_of_false (by simp [h]) h
  rw [hacc, hsum]
  constructor
  · intro h
    obtain ⟨rfl, rfl⟩ : 0 = hi ∧ b = lo := by simpa using h
    exact ⟨m₀, m₁, b, rfl⟩
  · rintro ⟨x, y, c, h⟩
    simp only [List.cons.injEq, and_true] at h
    obtain ⟨-, -, rfl, rfl, rfl⟩ := h
    rfl

/-- **Where the data handed on lies inside the body**: for every frame but those of five bytes that
    are their own checksum. Of their one byte of body two are taken off, in a `size_t`. -/
theorem kexSlice_inside_iff (frame : List UInt8) :
    (KexAccepted frame → (kexData frame).Inside (kexBody frame)) ↔
      ¬ ∃ m₀ m₁ b, frame = [m₀, m₁, b, 0, b] := by
  by_cases hlen : frame.length = 5
  · have hout : ¬ (kexData frame).Inside (kexBody frame) := by
      simp only [KexSlice.Inside, kexData, kexBody, hlen]
      decide
    rw [← kexAccepted_five hlen]
    exact ⟨fun h hacc => hout (h hacc), fun hno hacc => absurd hacc hno⟩
  · have hno : ¬ ∃ m₀ m₁ b, frame = [m₀, m₁, b, 0, b] := by
      rintro ⟨m₀, m₁, b, rfl⟩
      exact hlen rfl
    refine iff_of_true (fun hacc => ?_) hno
    have h5 : 5 ≤ frame.length := by
      by_contra hlt
      have hnone : kexOf frame = none := if_pos (by omega)
      rw [KexAccepted, hnone] at hacc
      cases hacc
    refine ⟨Nat.le_add_right 2 2, ?_⟩
    have hle := kexDataLen_of_le (n := frame.length - 4) (by omega)
    show 4 + kexDataLen (frame.length - 4) ≤ 2 + (frame.length - 4)
    omega

/-- A `PUBKEY_ACCEPTED` without its status byte: it passes the guard and the checksum, and
    4294967295 bytes are handed on from behind its body. -/
theorem kexSlice_outside :
    let frame : List UInt8 := [0x2A, 0x2A, 6, 0, 6]
    KexAccepted frame ∧ (kexData frame).len = 4294967295 ∧
      ¬ (KexAccepted frame → (kexData frame).Inside (kexBody frame)) := by
  decide

end NutBluetti.Ble
