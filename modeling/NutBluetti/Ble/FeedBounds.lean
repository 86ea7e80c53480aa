/-
  File:      NutBluetti/Ble/FeedBounds.lean
  Subject:   THE RECEIVE PATH INSIDE ITS BUFFERS. The functions of the receive path once more, with
             every access checked against the bytes that are there, every write to `rx` against its
             size, and every round of a loop counted.

  * `handleModbusChecked`, `aesUnwrapChecked`, `handleKexChecked`, `drainPlainChecked`,
    `drainWrappedChecked`, `btSessionFeedChecked` -- `none` where an access is outside, where the
    secret is computed on a null keypair, or where a loop goes on after as many rounds as there are
    bytes;
  * `acceptsBare` -- a message that accepts our key while there is none;
  * `rx_reachable` -- the receive length of every reachable session;
  * **`feed_inside_iff`** -- for every reachable session and every notification the checked function
    gives what `bt_session_feed` gives, exactly if no such message is handed over;
  * **`feed_null_keypair`** -- a new session is sent one.
-/
import NutBluetti.Lib.Checked
import NutBluetti.Ble.SessionGate

namespace NutBluetti.Ble

open StepMachine Checked Reassembly

variable {κ : Type} {env : Env κ} {s : BtSession κ}

/-! ## 1. The checked functions -/

/-- `modbus_crc_ok`, on a frame of the bytes `f`. -/
def modbusCrcOkChecked (f : List UInt8) (n : Nat) : Option Bool := do
  let body ← slice f 0 n
  let lo ← byte f n
  let hi ← byte f (n + 1)
  some (btCrc16Modbus body == lo.toUInt16 ||| (hi.toUInt16 <<< 8))

/-- `handle_modbus`. The lines in the log read `f[2]`. -/
def handleModbusChecked (s : BtSession κ) (f : List UInt8) : Option (BtSession κ) :=
  if f.length < 5 then some s
  else do
    let fn ← byte f 1
    if fn = modbusWrite ∨ fn = modbusWrite ||| 0x80 then
      let ok ← if fn = modbusWrite ∧ f.length ≥ 8 then modbusCrcOkChecked f 6 else some false
      let _code ← if fn = modbusWrite ||| 0x80 then (byte f 2).map some else some none
      if ok then
        let ah ← byte f 2
        let al ← byte f 3
        let vh ← byte f 4
        let vl ← byte f 5
        some (s.note (.ack (be16 ah al) (be16 vh vl) true))
      else some (s.note (.ack s.pendingAddr 0 false))
    else if fn = modbusRead ||| 0x80 then
      let _code ← byte f 2
      some s
    else if fn ≠ modbusRead then some s
    else
      let count ← byte f 2
      if 3 + count.toNat + 2 > f.length then some s
      else
        let ok ← modbusCrcOkChecked f (3 + count.toNat)
        if !ok then some s
        else
          let data ← slice f 3 count.toNat
          some (s.note (.regs s.pendingAddr data))

/-- `framed_len`. -/
def framedLenChecked (haveSecure : Bool) (buf : List UInt8) : Option Nat :=
  let header := if haveSecure then 6 else 2
  if buf.length < header then some 0
  else do
    let hi ← byte buf 0
    let lo ← byte buf 1
    some (header + padded (hi.toNat * 256 + lo.toNat))

/-- IV and ciphertext of a frame. -/
def splitChecked (env : Env κ) (s : BtSession κ) (input : List UInt8) :
    Option (List UInt8 × List UInt8) :=
  if s.haveSecure then do
    let seed ← slice input 2 4
    let ct ← slice input 6 (input.length - 6)
    some (env.md5 seed, ct)
  else do
    let ct ← slice input 2 (input.length - 2)
    some (s.unsecureIv, ct)

/-- `aes_unwrap`; the inner `none` is its -1. The plaintext is decrypted into `tmp`, and copied from
    there into the caller's buffer. -/
def aesUnwrapChecked (env : Env κ) (s : BtSession κ) (input : List UInt8) (outSz : Nat) :
    Option (Option (List UInt8)) := do
  let hi ← byte input 0
  let lo ← byte input 1
  let plainLen := hi.toNat * 256 + lo.toNat
  if s.haveSecure && decide (input.length < 6) then some none
  else
    let key := if s.haveSecure then s.secureKey else s.unsecureKey
    let (iv, ct) ← splitChecked env s input
    if ct.length % btAesBlock ≠ 0 ∨ plainLen > ct.length ∨ plainLen > outSz then some none
    else if ct.length > rxMax then some none
    else
      match btAesCbcDecrypt env key iv ct with
      | none => some none
      | some plain =>
          let tmp ← append rxMax [] plain
          let plain ← slice tmp 0 plainLen
          let out ← append outSz [] plain
          some (some out)

/-- A write to `rx` and `rx_len`. -/
def storeRx (s : BtSession κ) (rx : List UInt8) : Option (BtSession κ) :=
  if rx.length ≤ rxMax then some (s.setRx rx) else none

/-- The bytes at the start of a message, where there are two. -/
def isKexChecked (data : List UInt8) : Option Bool :=
  if data.length < 2 then some false
  else do
    let m₀ ← byte data 0
    let m₁ ← byte data 1
    some (m₀ == 0x2A && m₁ == 0x2A)

/-- The length of the reply `rx` starts. -/
def plainFrameLenChecked (rx : List UInt8) : Option Nat := do
  let fn ← byte rx 1
  if fn = modbusWrite then some 8
  else if fn &&& 0x80 ≠ 0 then some 5
  else
    let count ← byte rx 2
    some (3 + count.toNat + 2)

/-- The loop of plain mode. -/
def drainPlainChecked : Nat → BtSession κ → Option (BtSession κ)
  | 0, _ => none
  | fuel + 1, s =>
      if s.rx.length < 3 then some s
      else do
        let frame ← plainFrameLenChecked s.rx
        if s.rx.length < frame then some s
        else
          let f ← slice s.rx 0 frame
          let s ← handleModbusChecked s f
          let rest ← slice s.rx frame (s.rx.length - frame)
          let s ← storeRx s rest
          drainPlainChecked fuel s

/-- `on_pubkey_accepted`: `bt_ecdh_shared` works on the keypair it is handed, also on a null one. -/
def onPubkeyAcceptedChecked (env : Env κ) (s : BtSession κ) (data : List UInt8) (len : Nat) :
    Option (BtSession κ) :=
  if len ≠ 1 ∨ data.getD 0 0 ≠ 0 then some (onPubkeyAccepted env s data len)
  else s.kp.map fun _ => onPubkeyAccepted env s data len

/-- `handle_kex`; the data it hands on are not read here. -/
def handleKexChecked (env : Env κ) (s : BtSession κ) (frame : List UInt8) :
    Option (BtSession κ) :=
  if frame.length < 5 then some s
  else do
    let body ← slice frame 2 (frame.length - 4)
    let check ← slice frame (2 + (frame.length - 4)) 2
    if hexsum body ≠ check then some s
    else
      let type ← byte body 0
      if type = msgPubkeyAccepted then
        onPubkeyAcceptedChecked env s (frame.drop 4) (kexDataLen (frame.length - 4))
      else some (handleKex env s frame)

/-- What is done with a plaintext. -/
def dispatchInnerChecked (env : Env κ) (s : BtSession κ) (plain : List UInt8) :
    Option (BtSession κ) := do
  let kex ← isKexChecked plain
  if kex then handleKexChecked env s plain else handleModbusChecked s plain

/-- The loop for wrapped frames. -/
def drainWrappedChecked (env : Env κ) : Nat → BtSession κ → Option (BtSession κ)
  | 0, _ => none
  | fuel + 1, s => do
      let need ← framedLenChecked s.haveSecure s.rx
      if need = 0 ∨ s.rx.length < need then some s
      else
        let frame ← slice s.rx 0 need
        let plain? ← aesUnwrapChecked env s frame rxMax
        match plain? with
        | none => storeRx s []
        | some plain =>
            let rest ← slice s.rx need (s.rx.length - need)
            let s ← storeRx s rest
            let s ← dispatchInnerChecked env s plain
            if s.rx = [] then some s else drainWrappedChecked env fuel s

/-- `memcpy` behind what is in `rx`, unless it overflows; lengths have 32 bits. -/
def receiveChecked (s : BtSession κ) (data : List UInt8) : Option (Bool × BtSession κ) := do
  let total ← Checked.sum 32 s.rx.length data.length
  if total > rxMax then (storeRx s []).map (false, ·)
  else
    let rx ← append rxMax s.rx data
    (storeRx s rx).map (true, ·)

/-- `bt_session_feed`. -/
def btSessionFeedChecked (env : Env κ) (s : BtSession κ) (data : List UInt8) :
    Option (BtSession κ) :=
  if s.plain then do
    let (fits, s) ← receiveChecked s data
    if fits then drainPlainChecked (s.rx.length + 1) s else some s
  else do
    let kex ← isKexChecked data
    if !s.haveSecure && kex then handleKexChecked env s data
    else if !s.haveUnsecure then some s
    else
      let (fits, s) ← receiveChecked s data
      if fits then drainWrappedChecked env (s.rx.length + 1) s else some s

/-! ## 2. One frame -/

theorem modbusCrcOkChecked_eq {f : List UInt8} {n : Nat} (h : n + 2 ≤ f.length) :
    modbusCrcOkChecked f n = some (modbusCrcOk f n) := by
  unfold modbusCrcOkChecked modbusCrcOk
  rw [slice_take (by omega), byte_inside (by omega) 0, byte_inside (by omega) 0]
  rfl

/-- **`handle_modbus` stays inside the frame**, whatever its length and its content. -/
theorem handleModbusChecked_eq (s : BtSession κ) (f : List UInt8) :
    handleModbusChecked s f = some (handleModbus s f) := by
  unfold handleModbusChecked handleModbus
  by_cases h5 : f.length < 5
  · rw [if_pos h5, if_pos h5]
  rw [if_neg h5, if_neg h5, byte_inside (by omega) 0, byte_inside (by omega) 0]
  simp only [Option.bind_eq_bind, Option.bind_some]
  by_cases hw : f.getD 1 0 = modbusWrite ∨ f.getD 1 0 = modbusWrite ||| 0x80
  · rw [if_pos hw, if_pos hw]
    by_cases hok : f.getD 1 0 = modbusWrite ∧ f.length ≥ 8
    · have hx : ¬ f.getD 1 0 = modbusWrite ||| 0x80 := by
        rw [hok.1]
        decide
      rw [if_pos hok, modbusCrcOkChecked_eq (by omega), byte_inside (by omega) 0,
        byte_inside (by omega) 0, byte_inside (by omega) 0]
      simp only [if_neg hx, Option.bind_some, decide_eq_true hok.1, decide_eq_true hok.2,
        Bool.true_and]
      cases modbusCrcOk f 6 <;> rfl
    · have hno : (decide (f.getD 1 0 = modbusWrite) && decide (f.length ≥ 8) && modbusCrcOk f 6) =
          false := by
        rw [Bool.and_eq_false_iff]
        exact .inl (by simpa using hok)
      rw [if_neg hok, hno]
      split <;> rfl
  rw [if_neg hw, if_neg hw]
  by_cases hr : f.getD 1 0 = modbusRead
  · have hex : ¬ f.getD 1 0 = modbusRead ||| 0x80 := by
      rw [hr]
      decide
    rw [if_neg hex, if_neg (not_not.mpr hr), if_neg (not_not.mpr hr)]
    by_cases hlen : 3 + (f.getD 2 0).toNat + 2 > f.length
    · rw [if_pos hlen, if_pos hlen]
    rw [if_neg hlen, if_neg hlen, modbusCrcOkChecked_eq (by omega), slice_inside (by omega)]
    simp only [Option.bind_some]
    split <;> rfl
  · rw [if_pos hr, if_pos hr]
    split <;> rfl

/-- `framed_len` reads no byte it was not given. -/
theorem framedLenChecked_eq (haveSecure : Bool) (buf : List UInt8) :
    framedLenChecked haveSecure buf = some (framedLen haveSecure buf) := by
  unfold framedLenChecked framedLen
  have hheader : 2 ≤ if haveSecure = true then 6 else 2 := by split <;> omega
  generalize (if haveSecure = true then 6 else 2) = header at hheader ⊢
  by_cases hlen : buf.length < header
  · simp only [if_pos hlen]
  · simp only [if_neg hlen]
    rw [byte_inside (by omega) 0, byte_inside (by omega) 0]
    rfl

theorem splitChecked_eq (env : Env κ) (s : BtSession κ) {input : List UInt8}
    (h : (if s.haveSecure then 6 else 2) ≤ input.length) :
    splitChecked env s input = some
      (if s.haveSecure then env.md5 ((input.drop 2).take 4) else s.unsecureIv,
        if s.haveSecure then input.drop 6 else input.drop 2) := by
  unfold splitChecked
  by_cases hs : s.haveSecure = true
  · rw [if_pos hs] at h
    rw [if_pos hs, if_pos hs, if_pos hs, slice_inside (by omega), slice_drop h]
    rfl
  · rw [if_neg hs] at h
    rw [if_neg hs, if_neg hs, if_neg hs, slice_drop h]
    rfl

theorem length_decrypt {key iv ct plain : List UInt8}
    (h : btAesCbcDecrypt env key iv ct = some plain) : plain.length = ct.length := by
  unfold btAesCbcDecrypt at h
  split at h
  · cases h
  · exact env.aesDecrypt_length _ _ _ _ h

/-- **`aes_unwrap` stays inside the frame and the buffers**, for every frame of a header or more. -/
theorem aesUnwrapChecked_eq (env : Env κ) (s : BtSession κ) {input : List UInt8} {outSz : Nat}
    (h : (if s.haveSecure then 6 else 2) ≤ input.length) :
    aesUnwrapChecked env s input outSz = some (aesUnwrap env s input outSz) := by
  have h2 : 2 ≤ input.length := Nat.le_trans (by split <;> omega) h
  have hshort : ¬ (s.haveSecure && decide (input.length < 6)) = true := by
    intro hc
    obtain ⟨hs, hlt⟩ := Bool.and_eq_true_iff.mp hc
    rw [if_pos hs] at h
    exact absurd (of_decide_eq_true hlt) (Nat.not_lt.mpr h)
  unfold aesUnwrapChecked aesUnwrap
  rw [byte_inside (by omega) 0, byte_inside (by omega) 0]
  simp only [Option.bind_eq_bind, Option.bind_some, if_neg hshort, splitChecked_eq env s h]
  generalize hct : (if s.haveSecure = true then input.drop 6 else input.drop 2) = ct
  generalize (if s.haveSecure = true then env.md5 ((input.drop 2).take 4) else s.unsecureIv) = iv
  show (if ct.length % btAesBlock ≠ 0 ∨ headerLen input > ct.length ∨ headerLen input > outSz
    then some none else _) = _
  by_cases hbad : ct.length % btAesBlock ≠ 0 ∨ headerLen input > ct.length ∨ headerLen input > outSz
  · rw [if_pos hbad, if_pos hbad]
  rw [if_neg hbad, if_neg hbad]
  by_cases hbig : ct.length > rxMax
  · rw [if_pos hbig, if_pos hbig]
  rw [if_neg hbig, if_neg hbig]
  generalize hkey : (if s.haveSecure = true then s.secureKey else s.unsecureKey) = key
  cases hdec : btAesCbcDecrypt env key iv ct with
  | none => rfl
  | some plain =>
      have hlen : plain.length = ct.length := length_decrypt hdec
      have hfit : headerLen input ≤ plain.length := by omega
      have htake : (plain.take (headerLen input)).length ≤ outSz := by
        rw [List.length_take]
        omega
      show ((append rxMax [] plain).bind fun tmp =>
        (slice tmp 0 (headerLen input)).bind fun plain =>
        (append outSz [] plain).bind fun out => some (some out)) = _
      rw [append_inside (by rw [List.length_nil]; omega), Option.bind_some, List.nil_append,
        slice_take hfit, Option.bind_some, append_inside (by rw [List.length_nil]; omega)]
      rfl

theorem isKexChecked_eq (data : List UInt8) :
    isKexChecked data = some (kexMagic.isPrefixOf data) := by
  unfold isKexChecked
  match data with
  | [] => rfl
  | [m₀] =>
      show some false = some (0x2A == m₀ && false)
      rw [Bool.and_false]
  | m₀ :: m₁ :: data =>
      show some (m₀ == 0x2A && m₁ == 0x2A) = some (0x2A == m₀ && (0x2A == m₁ && true))
      rw [Bool.and_true, Bool.beq_comm, Bool.beq_comm (a := m₁)]

/-- A frame that accepts our key. -/
def acceptsKey (frame : List UInt8) : Bool :=
  (kexOf frame).any fun m => m.1 == msgPubkeyAccepted && m.2.2 == 1 && m.2.1.getD 0 0 == 0

/-- **An acceptance with no keypair** to compute the secret with. -/
def acceptsBare (p : BtSession κ × Inner) : Bool :=
  match p.2 with
  | .kex frame => p.1.kp.isNone && acceptsKey frame
  | .modbus _ => false

/-- The buffer has no part in it. -/
theorem acceptsBare_setRx (s : BtSession κ) (rx : List UInt8) (m : Inner) :
    acceptsBare (s.setRx rx, m) = acceptsBare (s, m) := by
  cases m <;> rfl

theorem onPubkeyAcceptedChecked_eq (env : Env κ) (s : BtSession κ) (data : List UInt8) (len : Nat) :
    onPubkeyAcceptedChecked env s data len =
      if (s.kp.isNone && (len == 1 && data.getD 0 0 == 0)) = true then none
      else some (onPubkeyAccepted env s data len) := by
  unfold onPubkeyAcceptedChecked
  by_cases hacc : len ≠ 1 ∨ data.getD 0 0 ≠ 0
  · have hno : (len == 1 && data.getD 0 0 == 0) = false := by
      rw [Bool.and_eq_false_iff]
      exact hacc.imp beq_false_of_ne beq_false_of_ne
    rw [if_pos hacc, hno, Bool.and_false]
    rfl
  · obtain ⟨hlen, hdata⟩ := not_or.mp hacc
    rw [if_neg hacc, not_not.mp hlen, not_not.mp hdata]
    cases s.kp <;> rfl

/-- **`handle_kex` goes on**, unless the frame accepts a key there is no pair to. -/
theorem handleKexChecked_eq (env : Env κ) (s : BtSession κ) (frame : List UInt8) :
    handleKexChecked env s frame =
      if acceptsBare (s, .kex frame) = true then none else some (handleKex env s frame) := by
  by_cases h5 : frame.length < 5
  · have hno : kexOf frame = none := if_pos h5
    have hbare : ¬ acceptsBare (s, Inner.kex frame) = true := by simp [acceptsBare, acceptsKey, hno]
    unfold handleKexChecked
    rw [if_pos h5, if_neg hbare, handleKex_none hno]
  unfold handleKexChecked
  rw [if_neg h5, slice_inside (by omega), slice_inside (by omega)]
  simp only [Option.bind_eq_bind, Option.bind_some]
  by_cases hsum :
      hexsum ((frame.drop 2).take (frame.length - 4)) ≠ (frame.drop (2 + (frame.length - 4))).take 2
  · have hno : kexOf frame = none := by
      unfold kexOf
      simp only [if_neg h5, if_pos hsum]
    have hbare : ¬ acceptsBare (s, Inner.kex frame) = true := by simp [acceptsBare, acceptsKey, hno]
    rw [if_pos hsum, if_neg hbare, handleKex_none hno]
  have hsome : kexOf frame = some (((frame.drop 2).take (frame.length - 4)).getD 0 0, frame.drop 4,
      kexDataLen (frame.length - 4)) := by
    unfold kexOf
    simp only [if_neg h5, if_neg hsum]
  have hbody : 0 < ((frame.drop 2).take (frame.length - 4)).length := by
    rw [List.length_take, List.length_drop]
    omega
  rw [if_neg hsum, byte_inside hbody 0, Option.bind_some, handleKex_some hsome]
  simp only [acceptsBare, acceptsKey, hsome, Option.any_some]
  by_cases htype : ((frame.drop 2).take (frame.length - 4)).getD 0 0 = msgPubkeyAccepted
  · have hchallenge : msgPubkeyAccepted ≠ msgChallenge := by decide
    have hpeer : msgPubkeyAccepted ≠ msgPeerPubkey := by decide
    rw [htype, if_pos rfl, if_neg hchallenge, if_neg hpeer, if_pos rfl, onPubkeyAcceptedChecked_eq,
      beq_self_eq_true, Bool.true_and]
  · rw [if_neg htype, beq_false_of_ne htype, Bool.false_and, Bool.false_and, Bool.and_false,
      if_neg Bool.false_ne_true]

theorem dispatchInnerChecked_eq (env : Env κ) (s : BtSession κ) (plain : List UInt8) :
    dispatchInnerChecked env s plain =
      if acceptsBare (s, innerOf plain) = true then none else some (dispatchInner env s plain) := by
  unfold dispatchInnerChecked dispatchInner innerOf
  rw [isKexChecked_eq, handleModbusChecked_eq, handleKexChecked_eq]
  simp only [Option.bind_eq_bind, Option.bind_some]
  by_cases hkex : kexMagic.isPrefixOf plain = true
  · rw [if_pos hkex, if_pos hkex, if_pos hkex]
  · rw [if_neg hkex, if_neg hkex, if_neg hkex]
    rfl

/-! ## 3. The loops -/

theorem storeRx_inside {rx : List UInt8} (h : rx.length ≤ rxMax) :
    storeRx s rx = some (s.setRx rx) := if_pos h

theorem rx_handleModbus (s : BtSession κ) (f : List UInt8) : (handleModbus s f).rx = s.rx := by
  obtain ⟨log, h⟩ := handleModbus_log s f
  rw [h]

theorem rx_handleKex (s : BtSession κ) (frame : List UInt8) :
    (handleKex env s frame).rx = s.rx := by
  have h : handleKex env (s.setRx s.rx) frame = (handleKex env s frame).setRx s.rx :=
    handleKex_setRx s s.rx frame
  rw [show s.setRx s.rx = s from rfl] at h
  rw [h]
  rfl

theorem plainFrameLenChecked_eq {rx : List UInt8} (h : 3 ≤ rx.length) :
    plainFrameLenChecked rx = some (plainFrameLen rx) := by
  unfold plainFrameLenChecked plainFrameLen
  rw [byte_inside (by omega) 0, byte_inside (by omega) 0]
  simp only [Option.bind_eq_bind, Option.bind_some]
  split
  · rfl
  split
  · rfl
  · rfl

theorem plainFrameLen_pos (rx : List UInt8) : 0 < plainFrameLen rx := by
  unfold plainFrameLen
  simp only
  split
  · omega
  split
  · omega
  · omega

/-- **The plain loop** stays inside `rx` and ends after as many rounds as there are bytes. Each
    round takes a frame of at least one byte. -/
theorem drainPlainChecked_eq (fuel : Nat) (s : BtSession κ) (hfuel : s.rx.length ≤ fuel)
    (hrx : s.rx.length ≤ rxMax) :
    drainPlainChecked (fuel + 1) s = some (drainPlain fuel s) ∧
      (drainPlain fuel s).rx.length ≤ rxMax := by
  induction fuel generalizing s with
  | zero =>
      rw [drainPlainChecked, if_pos (by omega)]
      exact ⟨rfl, hrx⟩
  | succ fuel ih =>
      rw [drainPlainChecked, drainPlain]
      by_cases h3 : s.rx.length < 3
      · rw [if_pos h3, if_pos h3]
        exact ⟨rfl, hrx⟩
      rw [if_neg h3, if_neg h3, plainFrameLenChecked_eq (by omega)]
      simp only [Option.bind_eq_bind, Option.bind_some]
      by_cases hlen : s.rx.length < plainFrameLen s.rx
      · rw [if_pos hlen, if_pos hlen]
        exact ⟨rfl, hrx⟩
      have hpos := plainFrameLen_pos s.rx
      have hstay := rx_handleModbus s (s.rx.take (plainFrameLen s.rx))
      rw [if_neg hlen, if_neg hlen, slice_take (by omega), Option.bind_some, handleModbusChecked_eq,
        Option.bind_some]
      generalize handleModbus s (s.rx.take (plainFrameLen s.rx)) = t at hstay ⊢
      rw [hstay]
      have hdrop : (s.rx.drop (plainFrameLen s.rx)).length < s.rx.length := by
        rw [List.length_drop]
        omega
      rw [slice_drop (by omega), Option.bind_some, storeRx_inside (by omega)]
      exact ih (t.setRx _) (by rw [setRx_rx]; omega) (by rw [setRx_rx]; omega)

theorem framedLen_le {haveSecure : Bool} {buf : List UInt8} (h : framedLen haveSecure buf ≠ 0) :
    (if haveSecure then 6 else 2) ≤ framedLen haveSecure buf := by
  unfold framedLen at h ⊢
  generalize (if haveSecure = true then 6 else 2) = header at h ⊢
  simp only at h ⊢
  split at h
  · exact absurd rfl h
  · rename_i hlen
    rw [if_neg hlen]
    omega

/-- **The wrapped loop** stays inside `rx` and ends after as many rounds as there are bytes, also
    where the secure key comes up between two of them: the length of the next frame is asked for
    anew. Only an acceptance without a keypair stops it. -/
theorem drainWrappedChecked_eq (env : Env κ) (fuel : Nat) (s : BtSession κ) (buf : List UInt8)
    (hfuel : buf.length ≤ fuel) (hrx : buf.length ≤ rxMax) :
    drainWrappedChecked env (fuel + 1) (s.setRx buf) =
        (if ((taken (wrappedReceiver env) fuel s buf).filterMap (unwrapped env)).any
          acceptsBare = true
          then none else some (drainWrapped env fuel (s.setRx buf))) ∧
      (drainWrapped env fuel (s.setRx buf)).rx.length ≤ rxMax := by
  induction fuel generalizing s buf with
  | zero =>
      obtain rfl : buf = [] := List.length_eq_zero_iff.mp (Nat.le_zero.mp hfuel)
      rw [drainWrappedChecked, framedLenChecked_eq, setRx_rx, framedLen_nil]
      exact ⟨rfl, hrx⟩
  | succ fuel ih =>
      have hsec : (s.setRx buf).haveSecure = s.haveSecure := rfl
      have hunw : ∀ frame, aesUnwrap env (s.setRx buf) frame rxMax = aesUnwrap env s frame rxMax :=
        fun _ => rfl
      rw [drainWrappedChecked, framedLenChecked_eq, setRx_rx, hsec]
      simp only [Option.bind_eq_bind, Option.bind_some]
      by_cases hneed : framedLen s.haveSecure buf = 0 ∨ buf.length < framedLen s.haveSecure buf
      · have hcut : (wrappedReceiver env).cut s buf = none := if_pos hneed
        rw [if_pos hneed, drainWrapped_eq, drain_wait hcut, taken_wait hcut]
        exact ⟨rfl, hrx⟩
      have hcut : (wrappedReceiver env).cut s buf = some (framedLen s.haveSecure buf) :=
        if_neg hneed
      obtain ⟨hne, hle⟩ := not_or.mp hneed
      have hheader := framedLen_le hne
      have htake : (buf.take (framedLen s.haveSecure buf)).length = framedLen s.haveSecure buf := by
        rw [List.length_take]
        omega
      rw [if_neg hneed, slice_take (by omega), Option.bind_some,
        aesUnwrapChecked_eq env (s.setRx buf) (by rw [htake]; exact hheader), Option.bind_some,
        hunw]
      cases hun : aesUnwrap env s (buf.take (framedLen s.haveSecure buf)) rxMax with
      | none =>
          have hh : (wrappedReceiver env).handle s
            (buf.take (framedLen s.haveSecure buf)) = none := by
            simp only [wrappedReceiver, hun, Option.map_none]
          have hnone : ((taken (wrappedReceiver env) (fuel + 1) s buf).filterMap
              (unwrapped env)).any acceptsBare = false := by
            simp only [taken, hcut, hh, List.filterMap_cons, unwrapped, hun, Option.map_none,
              List.filterMap_nil, List.any_nil]
          rw [hnone, drainWrapped_eq]
          simp only [drain, hcut, hh]
          exact ⟨storeRx_inside (Nat.zero_le _), Nat.zero_le _⟩
      | some plain =>
          have hh : (wrappedReceiver env).handle s (buf.take (framedLen s.haveSecure buf)) =
              some (dispatchInner env s plain) := by
            simp only [wrappedReceiver, hun, Option.map_some]
          have hfirst : unwrapped env (s, buf.take (framedLen s.haveSecure buf)) =
              some (s, innerOf plain) := by
            simp only [unwrapped, hun, Option.map_some]
          have hdrop : (buf.drop (framedLen s.haveSecure buf)).length < buf.length := by
            rw [List.length_drop]
            omega
          rw [drainWrapped_eq, drain_take hcut hh, ← drainWrapped_eq, taken_take hcut hh,
            List.filterMap_cons_some hfirst, List.any_cons]
          simp only
          rw [slice_drop (by omega), Option.bind_some, storeRx_inside (by omega), Option.bind_some,
            dispatchInnerChecked_eq]
          show ((if acceptsBare
            (s.setRx (buf.drop (framedLen s.haveSecure buf)), innerOf plain) = true
            then none else some (dispatchInner env
              (s.setRx (buf.drop (framedLen s.haveSecure buf))) plain)).bind _) = _ ∧ _
          rw [acceptsBare_setRx, dispatchInner_setRx]
          generalize dispatchInner env s plain = t
          generalize buf.drop (framedLen s.haveSecure buf) = rest at hdrop ⊢
          obtain ⟨hloop, hstay⟩ := ih t rest (by omega) (by omega)
          refine ⟨?_, hstay⟩
          cases acceptsBare (s, innerOf plain) with
          | true => rfl
          | false =>
              rw [if_neg Bool.false_ne_true, Bool.false_or, Option.bind_some, setRx_rx]
              by_cases hnil : rest = []
              · have hwait : (wrappedReceiver env).cut t rest = none := by
                  rw [hnil]
                  exact if_pos (.inl (framedLen_nil _))
                rw [if_pos hnil, taken_wait hwait, drainWrapped_eq, drain_wait hwait]
                rfl
              · rw [if_neg hnil]
                exact hloop

/-! ## 4. A notification -/

theorem receiveChecked_eq (s : BtSession κ) {data : List UInt8} (hrx : s.rx.length ≤ rxMax)
    (hdata : data.length ≤ 256) :
    receiveChecked s data =
      if s.rx.length + data.length > rxMax then some (false, s.setRx [])
      else some (true, s.setRx (s.rx ++ data)) := by
  have hmax : rxMax = 512 := rfl
  unfold receiveChecked
  rw [sum_inside (by omega)]
  simp only [Option.bind_eq_bind, Option.bind_some]
  by_cases hfit : s.rx.length + data.length > rxMax
  · rw [if_pos hfit, if_pos hfit]
    rfl
  · rw [if_neg hfit, if_neg hfit, append_inside (by omega), Option.bind_some,
      storeRx_inside (by rw [List.length_append]; omega)]
    rfl

/-- In plain mode no acceptance is handed over. -/
theorem acceptsBare_plain (frames : List (BtSession κ × List UInt8)) :
    (frames.map fun p => (p.1, Inner.modbus p.2)).any acceptsBare = false := by
  rw [List.any_map]
  exact List.any_eq_false.mpr fun _ _ => Bool.false_ne_true

/-- **One notification**, where what is buffered fits `rx`: every access is inside, and only an
    acceptance without a keypair is not gone on from. -/
theorem btSessionFeedChecked_eq (env : Env κ) (s : BtSession κ) {data : List UInt8}
    (hrx : s.rx.length ≤ rxMax) (hdata : data.length ≤ 256) :
    btSessionFeedChecked env s data =
      if (handedOver env s data).any acceptsBare = true then none
      else some (btSessionFeed env s data) := by
  unfold btSessionFeedChecked btSessionFeed handedOver
  rw [isKexChecked_eq, receiveChecked_eq s hrx hdata]
  simp only [Option.bind_eq_bind, Option.bind_some]
  by_cases hp : s.plain = true
  · rw [if_pos hp, if_pos hp, if_pos hp]
    by_cases hfit : s.rx.length + data.length > rxMax
    · rw [if_pos hfit, if_pos hfit, if_pos hfit]
      rfl
    · rw [if_neg hfit, if_neg hfit, if_neg hfit, acceptsBare_plain]
      have hbuf : (s.rx ++ data).length ≤ rxMax := by
        rw [List.length_append]
        omega
      exact (drainPlainChecked_eq _ (s.setRx (s.rx ++ data)) (Nat.le_refl _) hbuf).1
  rw [if_neg hp, if_neg hp, if_neg hp]
  by_cases hkex : (!s.haveSecure && kexMagic.isPrefixOf data) = true
  · rw [if_pos hkex, if_pos hkex, if_pos hkex, handleKexChecked_eq, List.any_cons, List.any_nil,
      Bool.or_false]
  rw [if_neg hkex, if_neg hkex, if_neg hkex]
  by_cases hu : (!s.haveUnsecure) = true
  · rw [if_pos hu, if_pos hu, if_pos hu]
    rfl
  rw [if_neg hu, if_neg hu, if_neg hu]
  by_cases hfit : s.rx.length + data.length > rxMax
  · rw [if_pos hfit, if_pos hfit, if_pos hfit]
    rfl
  · rw [if_neg hfit, if_neg hfit, if_neg hfit]
    have hbuf : (s.rx ++ data).length ≤ rxMax := by
      rw [List.length_append]
      omega
    exact (drainWrappedChecked_eq env _ s (s.rx ++ data) (Nat.le_refl _) hbuf).1

/-- What is left of a notification fits `rx`, whatever its length. -/
theorem rx_feed (env : Env κ) (s : BtSession κ) (data : List UInt8) (hrx : s.rx.length ≤ rxMax) :
    (btSessionFeed env s data).rx.length ≤ rxMax := by
  have hbuf : ¬ s.rx.length + data.length > rxMax → (s.rx ++ data).length ≤ rxMax := by
    rw [List.length_append]
    omega
  unfold btSessionFeed
  split
  · split
    · exact Nat.zero_le _
    · rename_i hfit
      exact (drainPlainChecked_eq _ (s.setRx (s.rx ++ data)) (Nat.le_refl _) (hbuf hfit)).2
  split
  · rw [rx_handleKex]
    exact hrx
  split
  · exact hrx
  split
  · exact Nat.zero_le _
  · rename_i hfit
    exact (drainWrappedChecked_eq env _ s (s.rx ++ data) (Nat.le_refl _) (hbuf hfit)).2

theorem rx_sendCmd (s : BtSession κ) (cmd : List UInt8) : (sendCmd env s cmd).2.rx = s.rx := by
  unfold sendCmd
  split
  · rfl
  · unfold aesWrapSeed
    simp only
    split
    · rename_i t hw
      obtain ⟨-, rfl⟩ := Prod.mk.inj hw
      rfl
    · rename_i t hw
      obtain ⟨-, rfl⟩ := Prod.mk.inj hw
      rfl

/-- A call keeps the receive length within `rx`. -/
theorem rx_apply (env : Env κ) (s : BtSession κ) (c : SessCall) (hrx : s.rx.length ≤ rxMax) :
    (c.apply env s).rx.length ≤ rxMax := by
  cases c with
  | reset => exact Nat.zero_le _
  | op o =>
      cases o with
      | feed data => exact rx_feed env s data hrx
      | readRegs addr count =>
          show (btSessionReadRegs env s addr count).2.rx.length ≤ rxMax
          unfold btSessionReadRegs
          split
          · exact hrx
          · rw [rx_sendCmd]
            exact Nat.zero_le _
      | writeReg addr value =>
          show (btSessionWriteReg env s addr value).2.rx.length ≤ rxMax
          unfold btSessionWriteReg
          split
          · exact hrx
          · rw [rx_sendCmd]
            exact Nat.zero_le _
      | usePlain =>
          show (btSessionUsePlain s).rx.length ≤ rxMax
          unfold btSessionUsePlain
          split
          · exact hrx
          · exact Nat.zero_le _

theorem rx_reachable (hr : Reachable env s) : s.rx.length ≤ rxMax := by
  obtain ⟨calls, hrun⟩ := hr
  refine run_inv (sessStep env) (I := fun t => t.rx.length ≤ rxMax) (fun t c t' ht hs => ?_)
    (Nat.zero_le _) hrun
  rw [← Option.some.inj hs]
  exact rx_apply env t c ht

/-- **The receive path stays inside its buffers** and ends: the receive length fits `rx` before and
    after, and the checked function, which stops at the first access or write outside a buffer, on a
    null keypair and at the first round too many, gives what `bt_session_feed` gives. -/
def FeedInside (env : Env κ) (s : BtSession κ) (data : List UInt8) : Prop :=
  s.rx.length ≤ rxMax ∧ btSessionFeedChecked env s data = some (btSessionFeed env s data) ∧
    (btSessionFeed env s data).rx.length ≤ rxMax

/-- **Every reachable session and every notification** stays inside, exactly if no message that
    accepts our key is handed over while there is no keypair. -/
theorem feed_inside_iff (env : Env κ) (s : BtSession κ) (hr : Reachable env s) (data : List UInt8)
    (hdata : data.length ≤ 256) :
    FeedInside env s data ↔ ∀ p ∈ handedOver env s data, acceptsBare p = false := by
  have hrx := rx_reachable hr
  unfold FeedInside
  have hall : (handedOver env s data).any acceptsBare = false ↔
      ∀ p ∈ handedOver env s data, acceptsBare p = false := by
    simp only [List.any_eq_false, Bool.not_eq_true]
  rw [btSessionFeedChecked_eq env s hrx hdata, ← hall]
  cases (handedOver env s data).any acceptsBare with
  | true => exact iff_of_false (fun h => by cases h.2.1) Bool.noConfusion
  | false => exact iff_of_true ⟨hrx, rfl, rx_feed env s data hrx⟩ rfl

/-- **A new session is sent the acceptance** as its first notification: the secret is computed on a
    keypair that was never made. -/
theorem feed_null_keypair :
    Reachable toyEnv btSessionNew ∧
      btSessionFeedChecked toyEnv btSessionNew [0x2A, 0x2A, 6, 1, 0, 0, 7] = none ∧
      ¬ FeedInside toyEnv btSessionNew [0x2A, 0x2A, 6, 1, 0, 0, 7] := by
  have hstop : btSessionFeedChecked toyEnv btSessionNew [0x2A, 0x2A, 6, 1, 0, 0, 7] = none := by
    decide
  refine ⟨⟨[], rfl⟩, hstop, fun hin => ?_⟩
  rw [FeedInside, hstop] at hin
  cases hin.2.1

/-- Our key was accepted and a first frame under the secure key follows, in one notification: the
    header grows from two bytes to six between the two rounds. -/
theorem feed_inside_iff_accepted :
    let s := sessAfter toyEnv [.op (challengeMsg [1, 2, 3, 4]), .op peerPubkeyMsg]
    let accepted := lenBe16 7 ++ (kexMagic ++ [msgPubkeyAccepted, 1, 0] ++
      hexsum [msgPubkeyAccepted, 1, 0]) ++ List.replicate 9 0
    let data := accepted ++ (lenBe16 5 ++ List.replicate 4 0 ++ List.replicate 16 0)
    FeedInside toyEnv s data :=
  (feed_inside_iff toyEnv _ (reachable_after toyEnv _) _ (by decide)).mpr (by decide +kernel)

/-- There the second frame is taken under the secure key, and nothing is left. -/
example :
    let s := sessAfter toyEnv [.op (challengeMsg [1, 2, 3, 4]), .op peerPubkeyMsg]
    let accepted := lenBe16 7 ++ (kexMagic ++ [msgPubkeyAccepted, 1, 0] ++
      hexsum [msgPubkeyAccepted, 1, 0]) ++ List.replicate 9 0
    let data := accepted ++ (lenBe16 5 ++ List.replicate 4 0 ++ List.replicate 16 0)
    (btSessionFeed toyEnv s data).haveSecure = true ∧ (btSessionFeed toyEnv s data).rx = [] := by
  decide +kernel

end NutBluetti.Ble
