/-
  File:      NutBluetti/Ble/CrcBurst.lean
  Subject:   THE CRC TELLS EVERY SHORT ERROR: `bt_crc16_modbus` as a register, over frames of any
             length.

  * `crcBit_xor`, `crcTurn_xor` -- the register is linear in exclusive or;
  * `crcTurn_injective` -- eight shifts lose nothing: the polynomial has its top bit set;
  * `crcTurn_byte` -- no byte but 0 is shifted out of the high half: no burst of up to 16 bits
    divides out;
  * `frame_residue` -- a frame with its CRC, low byte first, leaves the register at 0, and
    `modbus_crc_ok` accepts no other;
  * **`modbusCrcOk_burst`** -- a frame changed in one byte, or in two adjacent ones, is rejected.
-/
import NutBluetti.Lib.Checksum
import NutBluetti.Ble.SessionFrame

namespace NutBluetti.Ble

open Checksum

/-! ## 1. The register -/

/-- The eight shifts of one byte. -/
def crcTurn (crc : UInt16) : UInt16 := (List.range 8).foldl (fun crc _ => crcBit crc) crc

theorem crcByte_eq (crc : UInt16) (b : UInt8) : crcByte crc b = crcTurn (crc ^^^ b.toUInt16) := rfl

theorem low_bit (c : UInt16) : c &&& 1 = 1 ↔ c.toBitVec.getLsbD 0 = true := by
  rw [← UInt16.toBitVec_inj, UInt16.toBitVec_and]
  show c.toBitVec &&& 1#16 = 1#16 ↔ _
  rw [BitVec.and_one_eq_setWidth_ofBool_getLsbD]
  cases c.toBitVec.getLsbD 0 <;> decide

/-- `crcBit` on bit vectors. -/
theorem crcBit_toBitVec (c : UInt16) : (crcBit c).toBitVec =
    if c.toBitVec.getLsbD 0 then (c.toBitVec >>> 1) ^^^ 0xA001#16 else c.toBitVec >>> 1 := by
  unfold crcBit
  rw [ite_congr (propext (low_bit c)) (fun _ => rfl) fun _ => rfl]
  split <;> rfl

/-- One shift is linear. -/
theorem crcBit_xor (a b : UInt16) : crcBit (a ^^^ b) = crcBit a ^^^ crcBit b := by
  apply UInt16.toBitVec_inj.mp
  rw [UInt16.toBitVec_xor, crcBit_toBitVec, crcBit_toBitVec, crcBit_toBitVec, UInt16.toBitVec_xor,
    BitVec.getLsbD_xor, BitVec.ushiftRight_xor_distrib]
  have hself : (0xA001#16 ^^^ 0xA001#16 : BitVec 16) = 0#16 := BitVec.xor_self
  cases a.toBitVec.getLsbD 0 <;> cases b.toBitVec.getLsbD 0
  · rfl
  · exact BitVec.xor_assoc ..
  · simp only [Bool.xor_false, if_true, Bool.false_eq_true, if_false]
    ac_rfl
  · simp only [Bool.xor_self, if_true, Bool.false_eq_true, if_false]
    calc a.toBitVec >>> 1 ^^^ b.toBitVec >>> 1
        = (a.toBitVec >>> 1 ^^^ b.toBitVec >>> 1) ^^^ (0xA001#16 ^^^ 0xA001#16) := by
          rw [hself, BitVec.xor_zero]
      _ = (a.toBitVec >>> 1 ^^^ 0xA001#16) ^^^ (b.toBitVec >>> 1 ^^^ 0xA001#16) := by ac_rfl

/-- Nothing but 0 is shifted to 0: what is shifted out at the bottom comes in at the top. -/
theorem crcBit_eq_zero {c : UInt16} (h : crcBit c = 0) : c = 0 := by
  have hbits := congrArg UInt16.toBitVec h
  rw [crcBit_toBitVec] at hbits
  apply UInt16.toBitVec_inj.mp
  split at hbits
  · rename_i hodd
    -- the top bit of the polynomial meets the 0 of the shift
    have htop := congrArg (fun v : BitVec 16 => v.getLsbD 15) hbits
    simp only [BitVec.getLsbD_xor, BitVec.getLsbD_ushiftRight, BitVec.getLsbD_of_ge _ (1 + 15)
      (Nat.le_refl 16), Bool.false_xor] at htop
    exact absurd htop (by decide)
  · rename_i heven
    apply BitVec.eq_of_getLsbD_eq
    intro i _
    cases i with
    | zero => simpa using heven
    | succ i =>
        have hi := congrArg (fun v : BitVec 16 => v.getLsbD i) hbits
        simpa [BitVec.getLsbD_ushiftRight, Nat.add_comm] using hi

theorem foldl_crcBit_xor (l : List Nat) (a b : UInt16) :
    l.foldl (fun crc _ => crcBit crc) (a ^^^ b) =
      l.foldl (fun crc _ => crcBit crc) a ^^^ l.foldl (fun crc _ => crcBit crc) b := by
  induction l generalizing a b with
  | nil => rfl
  | cons _ l ih => rw [List.foldl_cons, crcBit_xor, ih, List.foldl_cons, List.foldl_cons]

theorem crcTurn_xor (a b : UInt16) : crcTurn (a ^^^ b) = crcTurn a ^^^ crcTurn b :=
  foldl_crcBit_xor (List.range 8) a b

theorem crcTurn_eq_zero {c : UInt16} (h : crcTurn c = 0) : c = 0 := by
  have hfold : ∀ (l : List Nat) (c : UInt16), l.foldl (fun crc _ => crcBit crc) c = 0 → c = 0 := by
    intro l
    induction l with
    | nil => exact fun c hc => hc
    | cons _ l ih => exact fun c hc => crcBit_eq_zero (ih (crcBit c) hc)
  exact hfold _ c h

theorem xor_eq_zero {a b : UInt16} : a ^^^ b = 0 ↔ a = b := UInt16.xor_eq_zero_iff

/-- Eight shifts lose nothing. -/
theorem crcTurn_injective : Function.Injective crcTurn := fun a b h =>
  xor_eq_zero.mp (crcTurn_eq_zero (by rw [crcTurn_xor]; exact xor_eq_zero.mpr h))

/-- What a byte is turned into, against the next one. -/
theorem crcTurn_byte : ∀ x y : UInt8, crcTurn x.toUInt16 = y.toUInt16 → x = 0 ∧ y = 0 := by
  have hhigh : ∀ n : Fin 256, (crcTurn (UInt8.ofFin n).toUInt16).toNat < 256 → n = 0 := by
    decide +kernel
  intro x y h
  have hx : x.toFin = 0 := hhigh x.toFin (by
    show (crcTurn x.toUInt16).toNat < 256
    rw [h, UInt8.toNat_toUInt16]
    exact y.toNat_lt)
  obtain rfl : x = 0 := UInt8.toFin_inj.mp hx
  refine ⟨rfl, UInt8.toUInt16_inj.mp (h.symm.trans ?_)⟩
  decide

theorem xor_cross {k a b a' b' : UInt16} (h : k ^^^ a ^^^ b = k ^^^ a' ^^^ b') :
    a ^^^ a' = b ^^^ b' :=
  calc a ^^^ a'
      = (k ^^^ k) ^^^ (a ^^^ a') ^^^ ((b ^^^ b) ^^^ (b' ^^^ b')) := by
        simp only [UInt16.xor_self, UInt16.zero_xor, UInt16.xor_zero]
    _ = ((k ^^^ a ^^^ b) ^^^ (k ^^^ a' ^^^ b')) ^^^ (b ^^^ b') := by ac_rfl
    _ = b ^^^ b' := by rw [h, UInt16.xor_self, UInt16.zero_xor]

/-- No byte makes two registers meet. -/
theorem lossless_crcByte : Lossless crcByte := by
  intro b c d h
  have hx : c ^^^ b.toUInt16 = d ^^^ b.toUInt16 := crcTurn_injective h
  exact (UInt16.xor_left_inj _).mp hx

/-- Two bytes in a row are told apart by the register they leave. -/
theorem tellsPairs_crcByte : TellsPairs crcByte := by
  intro c a b a' b' h
  have h1 : crcTurn (c ^^^ a.toUInt16) ^^^ b.toUInt16 =
      crcTurn (c ^^^ a'.toUInt16) ^^^ b'.toUInt16 := crcTurn_injective h
  rw [crcTurn_xor, crcTurn_xor] at h1
  -- what the first bytes differ by is turned into what the second ones differ by
  have h2 : crcTurn (a ^^^ a').toUInt16 = (b ^^^ b').toUInt16 := by
    rw [UInt8.toUInt16_xor, UInt8.toUInt16_xor, crcTurn_xor]
    exact xor_cross h1
  obtain ⟨ha, hb⟩ := crcTurn_byte _ _ h2
  exact ⟨UInt8.xor_eq_zero_iff.mp ha, UInt8.xor_eq_zero_iff.mp hb⟩

/-! ## 2. Frames -/

/-- A register shifted out whole. -/
theorem crcTurn_high : ∀ h : UInt8, crcTurn (h.toUInt16 <<< 8) = h.toUInt16 := by
  have hall : ∀ n : Fin 256, crcTurn ((UInt8.ofFin n).toUInt16 <<< 8) =
    (UInt8.ofFin n).toUInt16 := by
    decide +kernel
  exact fun h => hall h.toFin

/-- A register and its own two bytes, low byte first, leave 0. -/
theorem crcByte_own (crc : UInt16) :
    crcByte (crcByte crc crc.toUInt8) (crc >>> 8).toUInt8 = 0 := by
  have hsplit : crc ^^^ crc.toUInt8.toUInt16 = (crc >>> 8).toUInt8.toUInt16 <<< 8 := by
    apply UInt16.toBitVec_inj.mp
    apply BitVec.eq_of_getLsbD_eq
    intro i hi
    simp only [UInt16.toBitVec_xor, UInt16.toBitVec_shiftLeft, UInt8.toBitVec_toUInt16,
      UInt16.toBitVec_toUInt8, UInt16.toBitVec_shiftRight]
    by_cases h8 : i < 8
    · simp [h8, hi]
    · simp [h8, hi, show i - 8 < 16 by omega, show i - 8 < 8 by omega, show 8 + (i - 8) = i by
        omega]
  rw [crcByte_eq crc, hsplit, crcTurn_high, crcByte_eq, UInt16.xor_self]
  rfl

/-- A frame with its CRC leaves the register at 0. -/
theorem frame_residue (body : List UInt8) : (withCrc body).foldl crcByte 0xFFFF = 0 := by
  rw [withCrc, List.foldl_append]
  exact crcByte_own (btCrc16Modbus body)

/-- The two bytes a CRC is read from are the bytes it has. -/
theorem le16_bytes (lo hi : UInt8) :
    (lo.toUInt16 ||| hi.toUInt16 <<< 8).toUInt8 = lo ∧
      ((lo.toUInt16 ||| hi.toUInt16 <<< 8) >>> 8).toUInt8 = hi := by
  constructor
  · apply UInt8.toBitVec_inj.mp
    apply BitVec.eq_of_getLsbD_eq
    intro i hi
    simp [hi]
  · apply UInt8.toBitVec_inj.mp
    apply BitVec.eq_of_getLsbD_eq
    intro i hi
    simp [hi, show 8 + i < 16 by omega, show i < 16 by omega]

/-- **`modbus_crc_ok` accepts no frame but one with its CRC.** -/
theorem eq_withCrc_of_ok {f : List UInt8} {n : Nat} (hlen : f.length = n + 2)
    (h : modbusCrcOk f n = true) : f = withCrc (f.take n) := by
  have hcrc : btCrc16Modbus (f.take n) =
    (f.getD n 0).toUInt16 ||| (f.getD (n + 1) 0).toUInt16 <<< 8 :=
    beq_iff_eq.mp h
  obtain ⟨hlo, hhi⟩ := le16_bytes (f.getD n 0) (f.getD (n + 1) 0)
  have h0 : n < f.length := by omega
  have h1 : n + 1 < f.length := by omega
  have hget : ∀ k, (hk : k < f.length) → f.getD k 0 = f[k] := fun k hk => by simp [hk]
  have hdrop : f.drop n = [f[n], f[n + 1]] := by
    rw [List.drop_eq_getElem_cons h0, List.drop_eq_getElem_cons h1,
      List.drop_eq_nil_of_le (by omega)]
  rw [withCrc, hcrc, hlo, hhi, hget n h0, hget (n + 1) h1, ← hdrop, List.take_append_drop]

/-- **Short errors are told**: for data of any length, a frame that differs from the data with its
    CRC, but nowhere outside two neighbouring bytes -- those of the CRC included -- is
    rejected. -/
theorem modbusCrcOk_burst (data frame : List UInt8) (i : Nat)
    (hlen : frame.length = (withCrc data).length) (hne : frame ≠ withCrc data)
    (hout : ∀ j, j ≠ i → j ≠ i + 1 → frame[j]? = (withCrc data)[j]?) :
    modbusCrcOk frame data.length = false := by
  rw [withCrc_length] at hlen
  by_contra hok
  have hframe := eq_withCrc_of_ok hlen (by simpa using hok)
  refine foldl_ne_of_burst lossless_crcByte tellsPairs_crcByte (by simpa using hlen) (by simp) hne
    hout 0xFFFF ?_
  rw [frame_residue, hframe, frame_residue]

/-! The answer to a read, with two bytes of it changed. -/

theorem modbusCrcOk_burst_reply :
    withCrc [1, 3, 2, 0, 66] = [1, 3, 2, 0, 66, 56, 117] ∧
      modbusCrcOk [1, 3, 2, 0, 67, 57, 117] 5 = false := by
  have hframe : withCrc [1, 3, 2, 0, 66] = [1, 3, 2, 0, 66, 56, 117] := by decide +kernel
  refine ⟨hframe, modbusCrcOk_burst [1, 3, 2, 0, 66] [1, 3, 2, 0, 67, 57, 117] 4 ?_ ?_ ?_⟩
  · rw [hframe]
    rfl
  · rw [hframe]
    decide
  · intro j h4 h5
    rw [hframe]
    match j with
    | 0 => rfl
    | 1 => rfl
    | 2 => rfl
    | 3 => rfl
    | 4 => exact absurd rfl h4
    | 5 => exact absurd rfl h5
    | j + 6 => rfl

end NutBluetti.Ble
