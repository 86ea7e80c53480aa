/-
  File:      NutBluetti/Ble/RegsText.lean
  Subject:   MODEL NAME AND SERIAL NUMBER, as the unit packs them into registers and as
             `bt_regs_apply` takes them out (bt_regs.c).

  * `packText`, `packSerial` -- what the unit does;
  * `reg_block` -- a register of a row of words, wherever the row stands in an answer;
  * `swapString_packed` -- `swap_string` undoes the swap, the padding and nothing else;
  * `KeepsText` -- a decoder leaves a text alone: all but one leave the model name, all but one the
    serial;
  * **`text_and_serial_unpacked`** -- what was packed is what the state holds.
-/
import Mathlib.Algebra.Group.Nat.Defs
import NutBluetti.Ble.RegsOrder

namespace NutBluetti.Ble

open CText

/-! ## 1. Packing -/

/-- A text in 6 registers: two bytes a register, the first in the low half, zeros after the end. -/
def packText (bs : List UInt8) : List UInt8 :=
  (List.range 6).flatMap fun w => [bs.getD (2 * w + 1) 0, bs.getD (2 * w) 0]

/-- A number in 4 registers, the least significant first. -/
def packSerial (sn : UInt64) : List UInt8 :=
  (List.range 4).flatMap fun w =>
    [UInt8.ofNat (sn.toNat / 65536 ^ w / 256), UInt8.ofNat (sn.toNat / 65536 ^ w)]

/-- The string of some bytes, a character each. -/
def byteString (bs : List UInt8) : String := String.ofList (bs.map fun c => Char.ofNat c.toNat)

/-- An answer from register `start` on holds a row of words from register `addr` on. -/
structure HoldsAt (start : UInt16) (data : List UInt8) (addr : UInt16) (block : List UInt8) :
    Prop where
  split : ∃ before after, data = before ++ block ++ after ∧
    start.toNat + before.length / 2 = addr.toNat ∧
    before.length % 2 = 0

/-- **A register of a row of words.** -/
theorem reg_block {start addr : UInt16} {data : List UInt8} {hi lo : Nat → UInt8} {n w : Nat}
    (h : HoldsAt start data addr ((List.range n).flatMap fun i => [hi i, lo i])) (hw : w < n)
    (haddr : addr.toNat + n ≤ 65536) :
    reg start data (addr + UInt16.ofNat w) = some ((hi w).toNat * 256 + (lo w).toNat) := by
  obtain ⟨before, after, rfl, hstart, heven⟩ := h.split
  have hlen := length_pairs hi lo n
  obtain ⟨hhi, hlo⟩ := getD_pairs hi lo hw
  generalize (List.range n).flatMap (fun i => [hi i, lo i]) = block at hlen hhi hlo
  have hsum : (addr + UInt16.ofNat w).toNat = addr.toNat + w := by
    rw [UInt16.toNat_add, UInt16.toNat_ofNat']
    omega
  have hle : ¬ addr + UInt16.ofNat w < start := by
    rw [UInt16.lt_iff_toNat_lt, hsum]
    omega
  have hidx : (addr.toNat + w - start.toNat) * 2 = before.length + w * 2 := by omega
  have hget : ∀ k, k < block.length →
      (before ++ block ++ after).getD (before.length + k) 0 = block.getD k 0 := by
    intro k hk
    rw [List.getD_append _ _ _ _ (by rw [List.length_append]; omega),
      List.getD_append_right _ _ _ _ (Nat.le_add_right _ _), Nat.add_sub_cancel_left]
  unfold reg
  rw [if_neg hle, hsum, hidx]
  simp only [List.length_append]
  rw [if_neg (by omega), hget _ (by omega), Nat.add_assoc, hget _ (by omega), hhi, hlo]

/-! ## 2. Text -/

/-- The two characters of a word; zeros are none. -/
theorem wordChars_pair (a b : UInt8) :
    wordChars (b.toNat * 256 + a.toNat) =
    ([a, b].filter (· ≠ 0)).map fun c => Char.ofNat c.toNat := by
  have ha := a.toNat_lt
  have hb := b.toNat_lt
  have hzero : ∀ c : UInt8, c = 0 ↔ c.toNat = 0 := fun c => UInt8.toNat_inj.symm
  have hlow : (b.toNat * 256 + a.toNat) % 256 = a.toNat := by omega
  have hhigh : (b.toNat * 256 + a.toNat) / 256 % 256 = b.toNat := by omega
  unfold wordChars
  rw [hlow, hhigh]
  by_cases ha0 : a = 0
  · by_cases hb0 : b = 0
    · subst ha0 hb0
      rfl
    · have hb' := mt (hzero b).mpr hb0
      simp [ha0, hb0, hb']
  · have ha' := mt (hzero a).mpr ha0
    by_cases hb0 : b = 0
    · simp [ha0, hb0, ha']
    · have hb' := mt (hzero b).mpr hb0
      simp [ha0, hb0, ha', hb']

/-- Two more bytes of a text. -/
theorem take_two {bs : List UInt8} (hnul : (0 : UInt8) ∉ bs) (k : Nat) :
    bs.take k ++ [bs.getD k 0, bs.getD (k + 1) 0].filter (· ≠ 0) = bs.take (k + 2) := by
  have hone : ∀ k, bs.take k ++ [bs.getD k 0].filter (· ≠ 0) = bs.take (k + 1) := by
    intro k
    by_cases hk : k < bs.length
    · have hne : bs.getD k 0 ≠ 0 := by
        rw [List.getD_eq_getElem _ _ hk]
        exact fun heq => hnul (heq ▸ List.getElem_mem hk)
      have hkeep : [bs.getD k 0].filter (· ≠ 0) = [bs.getD k 0] := by
        refine List.filter_eq_self.mpr fun c hc => ?_
        rw [List.mem_singleton.mp hc]
        exact decide_eq_true hne
      rw [hkeep, List.take_succ_eq_append_getElem hk, List.getD_eq_getElem _ _ hk]
    · have hzero : bs.getD k 0 = 0 := List.getD_eq_default _ _ (Nat.not_lt.mp hk)
      rw [hzero, List.take_of_length_le (Nat.not_lt.mp hk), List.take_of_length_le (by omega)]
      exact List.append_nil bs
  have hsplit : [bs.getD k 0, bs.getD (k + 1) 0].filter (· ≠ 0) =
      [bs.getD k 0].filter (· ≠ 0) ++ [bs.getD (k + 1) 0].filter (· ≠ 0) :=
        List.filter_append [_] [_]
  rw [hsplit, ← List.append_assoc, hone, hone]

/-- The loop of `swap_string` goes on where it is. -/
theorem swapChars_packed {r : UInt16 → Option Nat} {bs : List UInt8} (hnul : (0 : UInt8) ∉ bs)
    (hlen : bs.length ≤ 12) {addr : UInt16}
    (hr : ∀ w < 6, r (addr + UInt16.ofNat w) =
      some ((bs.getD (2 * w + 1) 0).toNat * 256 + (bs.getD (2 * w) 0).toNat)) (n w : Nat)
        (h : w + n = 6) :
    swapChars r 24 n (addr + UInt16.ofNat w) ((bs.take (2 * w)).map fun c => Char.ofNat c.toNat) =
      bs.map fun c => Char.ofNat c.toNat := by
  induction n generalizing w with
  | zero =>
      rw [swapChars, List.take_of_length_le (by omega)]
  | succ n ih =>
      have hroom : ((bs.take (2 * w)).map fun c => Char.ofNat c.toNat).length + 2 < 24 := by
        rw [List.length_map, List.length_take]
        omega
      have hnext : addr + UInt16.ofNat w + 1 = addr + UInt16.ofNat (w + 1) := by
        rw [UInt16.ofNat_add, ← UInt16.add_assoc]
        rfl
      rw [swapChars, if_pos hroom, hr w (by omega)]
      dsimp only
      rw [wordChars_pair, ← List.map_append, take_two hnul, hnext]
      exact ih (w + 1) (by omega)

/-- **`swap_string` undoes the packing.** -/
theorem swapString_packed {r : UInt16 → Option Nat} {bs : List UInt8} (hnul : (0 : UInt8) ∉ bs)
    (hlen : bs.length ≤ 12) (hblank : bs.getLast? ≠ some 32) {addr : UInt16}
    (hr : ∀ w < 6, r (addr + UInt16.ofNat w) =
      some ((bs.getD (2 * w + 1) 0).toNat * 256 + (bs.getD (2 * w) 0).toNat)) :
    swapString r addr 6 24 = byteString bs := by
  have hloop := swapChars_packed hnul hlen hr 6 0 rfl
  have hzero : addr + UInt16.ofNat 0 = addr := UInt16.add_zero addr
  rw [hzero, Nat.mul_zero, List.take_zero, List.map_nil] at hloop
  unfold swapString byteString
  rw [hloop]
  refine congrArg String.ofList ?_
  -- the last character is no blank
  have hkeep : (bs.map fun c => Char.ofNat c.toNat).reverse.dropWhile (· = ' ') =
      (bs.map fun c => Char.ofNat c.toNat).reverse := by
    rw [← List.map_reverse]
    cases hrev : bs.reverse with
    | nil => rfl
    | cons c rest =>
        have hlast : bs.getLast? = some c := by rw [List.getLast?_eq_head?_reverse, hrev]; rfl
        have hc : Char.ofNat c.toNat ≠ ' ' := charOf_ne fun heq =>
          hblank (hlast.trans (congrArg some (UInt8.toNat_inj.mp heq)))
        rw [List.map_cons, List.dropWhile_cons_of_neg (by rw [decide_eq_true_eq]; exact hc)]
  rw [hkeep, List.reverse_reverse]

/-! ## 3. Who writes the texts -/

/-- The decoder leaves the text alone. -/
def KeepsText (f : BluettiState → String) (d : Decoder) : Prop :=
  ∀ dev r st st', d dev r st = some st' → f st' = f st

section Texts

variable {f : BluettiState → String} {dev : BtDevice} {r : UInt16 → Option Nat}

theorem keeps_oneReg {has : BtDevice → Bool} {addr : UInt16} {accept : Nat → Bool}
    {set : BtDevice → Nat → BluettiState → BluettiState} (h : ∀ dev v st, f (set dev v st) = f st) :
    KeepsText f (oneReg has addr accept set) := by
  intro dev r st st' hd
  unfold oneReg at hd
  split at hd
  · split at hd
    · split at hd
      · exact Option.some.inj hd ▸ h dev _ st
      · cases hd
    · cases hd
  · cases hd

theorem foldl_decode_text {l : List Decoder} (hl : ∀ d ∈ l, KeepsText f d)
    (acc : Nat × BluettiState) :
    f (l.foldl (decode dev r) acc).2 = f acc.2 := by
  induction l generalizing acc with
  | nil => rfl
  | cons d l ih =>
      obtain ⟨hd, hl⟩ := List.forall_mem_cons.mp hl
      rw [List.foldl_cons, ih hl]
      unfold decode
      split
      · rename_i st hst
        exact hd dev r acc.2 st hst
      · rfl

/-- **A text is what its one decoder makes of it.** -/
theorem foldl_decode_set {l : List Decoder} {i : Nat} {d : Decoder} {text : String}
    (hd : l[i]? = some d)
    (hl : ∀ d ∈ l.eraseIdx i, KeepsText f d)
    (hset : ∀ st, ∃ st', d dev r st = some st' ∧ f st' = text)
    (acc : Nat × BluettiState) : f (l.foldl (decode dev r) acc).2 = text := by
  obtain ⟨hi, hget⟩ := List.getElem?_eq_some_iff.mp hd
  have hsplit : l = l.take i ++ d :: l.drop (i + 1) := by
    rw [← hget, ← List.drop_eq_getElem_cons hi, List.take_append_drop]
  rw [List.eraseIdx_eq_take_drop_succ, List.forall_mem_append] at hl
  rw [hsplit, List.foldl_append, List.foldl_cons, foldl_decode_text hl.2]
  generalize (l.take i).foldl (decode dev r) acc = acc'
  obtain ⟨st', hst', htext⟩ := hset acc'.2
  unfold decode
  rw [hst']
  exact htext

end Texts

theorem model_kept : ∀ d ∈ decoders.eraseIdx 1, KeepsText BluettiState.model d := by
  have hserial : KeepsText BluettiState.model decodeSerial := by
    intro dev r st st' hd
    unfold decodeSerial at hd
    split at hd
    · split at hd
      · simp only at hd
        split at hd
        · cases hd
        · exact Option.some.inj hd ▸ rfl
      · cases hd
    · cases hd
  simp only [decoders, List.eraseIdx_cons_succ, List.eraseIdx_cons_zero, List.forall_mem_cons]
  and_intros
  all_goals first
    | exact hserial
    | exact keeps_oneReg fun _ _ _ => rfl
    | exact List.forall_mem_nil _

theorem serial_kept : ∀ d ∈ decoders.eraseIdx 7, KeepsText BluettiState.serial d := by
  have hmodel : KeepsText BluettiState.serial fun _ r st => (r regDeviceType).map fun _ =>
      { st with model := swapString r regDeviceType 6 24 } := by
    intro dev r st st' hd
    obtain ⟨v, -, rfl⟩ := Option.map_eq_some_iff.mp hd
    rfl
  simp only [decoders, List.eraseIdx_cons_succ, List.eraseIdx_cons_zero, List.forall_mem_cons]
  and_intros
  all_goals first
    | exact hmodel
    | exact keeps_oneReg fun _ _ _ => rfl
    | exact List.forall_mem_nil _

/-- What `bt_regs_apply` does around the decoders leaves both texts alone. -/
theorem text_regsApply {f : BluettiState → String}
    (hf : f = BluettiState.model ∨ f = BluettiState.serial) (dev : Option BtDevice) (start : UInt16)
    (data : List UInt8) (now : Int) (st : BluettiState) : f (btRegsApply dev start data now st).2 =
      f (decoders.foldl (decode (dev.getD btDeviceGeneric) (reg start data))
        (0, seedCapacity (dev.getD btDeviceGeneric) st)).2 := by
  unfold btRegsApply
  simp only
  split
  · rw [recompute_eq]
    rcases hf with rfl | rfl
    · rfl
    · rfl
  · rfl

/-! ## 4. What is left in the state -/

/-- The four words of a number. -/
theorem words_of_serial (n : Nat) (h : n < 2 ^ 64) :
    (((n / 65536 ^ 3 % 65536) * 65536 + n / 65536 ^ 2 % 65536) * 65536 + n / 65536 ^ 1 % 65536) *
    65536 +
      n / 65536 ^ 0 % 65536 = n := by
  omega

/-- **What the unit packed is what the state holds**: a model name of up to 12 bytes, if it has no
    NUL and does not end in a blank, and the decimal text of a serial number, whole, if the unit has
    the field. Every unit that is known has it, and so has the generic one. -/
theorem text_and_serial_unpacked (dev : Option BtDevice) (start : UInt16) (data : List UInt8)
    (now : Int)
    (st : BluettiState) :
    (∀ bs : List UInt8, bs.length ≤ 12 → (0 : UInt8) ∉ bs → bs.getLast? ≠ some 32 →
      HoldsAt start data regDeviceType (packText bs) →
        (btRegsApply dev start data now st).2.model = byteString bs) ∧
    (∀ sn : UInt64, sn ≠ 0 → (dev.getD btDeviceGeneric).hasField btFSerial = true →
      HoldsAt start data regDeviceSn (packSerial sn) →
        (btRegsApply dev start data now st).2.serial = toString sn.toNat) ∧
    ∀ d ∈ btDeviceGeneric :: devices, d.hasField btFSerial = true := by
  refine ⟨fun bs hlen hnul hblank hdata => ?_, fun sn hsn hfield hdata => ?_, by decide⟩
  · have hr : ∀ w < 6, reg start data (regDeviceType + UInt16.ofNat w) =
        some ((bs.getD (2 * w + 1) 0).toNat * 256 + (bs.getD (2 * w) 0).toNat) := by
      intro w hw
      have hroom : regDeviceType.toNat + 6 ≤ 65536 := by decide
      exact @reg_block start regDeviceType data (fun w => bs.getD (2 * w + 1) 0)
        (fun w => bs.getD (2 * w) 0)
        6 w hdata hw hroom
    rw [text_regsApply (.inl rfl)]
    refine foldl_decode_set (i := 1) rfl model_kept
      (fun st => ⟨{ st with model := byteString bs }, ?_, rfl⟩) _
    rw [swapString_packed hnul hlen hblank hr]
    have hfirst : reg start data regDeviceType = some _ := hr 0 (by decide)
    rw [hfirst]
    rfl
  · have hr : ∀ w < 4, reg start data (regDeviceSn + UInt16.ofNat w) =
        some (sn.toNat / 65536 ^ w % 65536) := by
      intro w hw
      rw [reg_block hdata hw (by decide)]
      refine congrArg some ?_
      rw [UInt8.toNat_ofNat', UInt8.toNat_ofNat']
      omega
    have hfits := sn.toNat_lt
    have hwords := words_of_serial sn.toNat hfits
    have hne : sn.toNat ≠ 0 := fun hzero => hsn (UInt64.toNat_inj.mp hzero)
    rw [text_regsApply (.inr rfl)]
    refine foldl_decode_set (i := 7) rfl serial_kept
      (fun st => ⟨{ st with serial := toString sn.toNat }, ?_, rfl⟩) _
    have hwhole : fit 24 (toString sn.toNat) = toString sn.toNat :=
      fit_of_length_lt
        (Nat.lt_of_le_of_lt (length_toString_nat (k := 20) (by decide) (by omega)) (by decide))
    unfold decodeSerial
    rw [if_pos hfield, show reg start data regDeviceSn = _ from hr 0 (by decide),
      show reg start data (regDeviceSn + 1) = _ from hr 1 (by decide),
      show reg start data (regDeviceSn + 2) = _ from hr 2 (by decide),
      show reg start data (regDeviceSn + 3) = _ from hr 3 (by decide)]
    simp only [hwords, if_neg hne, hwhole]

/-- An EL10, and the largest serial number there is. -/
theorem text_and_serial_unpacked_el10 :
    (btRegsApply none regDeviceType (packText [69, 76, 49, 48]) 0 (stateReset 0)).2.model = "EL10" ∧
      (btRegsApply none regDeviceSn (packSerial 18446744073709551615) 0 (stateReset 0)).2.serial =
        "18446744073709551615" := by
  have hself : ∀ (addr : UInt16) (block : List UInt8), HoldsAt addr block addr block :=
    fun _ block =>
    ⟨[], [], (List.append_nil block).symm, rfl, rfl⟩
  exact ⟨(text_and_serial_unpacked none _ _ 0 _).1 [69, 76, 49, 48] (by decide) (by decide)
    (by decide)
      (hself _ _),
    (text_and_serial_unpacked none _ _ 0 _).2.1 18446744073709551615 (by decide) (by decide)
      (hself _ _)⟩

end NutBluetti.Ble
