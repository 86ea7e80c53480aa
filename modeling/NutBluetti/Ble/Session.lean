/-
  File:      NutBluetti/Ble/Session.lean
  Subject:   THE SESSION (bt_session.c), byte for byte: key exchange, framing, Modbus.

  A buffer with a length (`rx`, `pubkey_reply`) is the list of its valid bytes. A handler that the C
  code gives a pointer and a length is given the bytes from that pointer to the end of its buffer,
  and the length. `log` is the history of the session: what it sent, what it called back, and the
  steps of the handshake; no function reads it. The hex dumps of the trace are left out.
-/
import NutBluetti.Ble.Crypto

namespace NutBluetti.Ble

/-- The static AES key the handshake starts from. -/
def localAesKey : List UInt8 :=
  [0x45, 0x9F, 0xC5, 0x35, 0x80, 0x89, 0x41, 0xF1, 0x70, 0x91, 0xE0, 0x99, 0x3E, 0xE3, 0xE9, 0x3D]

def kexMagic : List UInt8 := [0x2A, 0x2A]

/-- Message types, `body[0]` of a frame. -/
def msgChallenge : UInt8 := 1
def msgPeerPubkey : UInt8 := 4
def msgPubkeyAccepted : UInt8 := 6

def rxMax : Nat := 512
def modbusSlave : UInt8 := 0x01
def modbusRead : UInt8 := 0x03
def modbusWrite : UInt8 := 0x06

/-! ## 1. The session -/

/-- `bt_sess_state_t`. -/
inductive SessState where
  | idle
  | challenge
  | pubkey
  | ready
  | failed
  deriving DecidableEq, Repr

/-- An entry of the history of a session. -/
inductive SessEvent (κ : Type) where
  /-- A transmission, and whether it succeeded. -/
  | tx (bytes : List UInt8) (ok : Bool)
  /-- `on_regs` and `on_ack` were called. -/
  | regs (addr : UInt16) (data : List UInt8)
  | ack (addr value : UInt16) (ok : Bool)
  /-- The handshake failed. -/
  | failed (why : String)
  /-- A challenge was taken; this is the IV it gives. -/
  | challenge (iv : List UInt8)
  /-- A peer key came with a signature that verified over the key and this IV. -/
  | verified (key sig iv : List UInt8)
  /-- The secure key was computed: the state before, whether there was a challenge since the reset,
      and what it was computed from. -/
  | secure (before : SessState) (hadChallenge : Bool) (kp : Option κ) (peer secret : List UInt8)

/-- `struct bt_session`; `draws` and `txs` count what was taken from the outside. -/
structure BtSession (κ : Type) where
  state : SessState
  /-- The device does not encrypt: raw Modbus. -/
  plain : Bool
  unsecureKey : List UInt8
  unsecureIv : List UInt8
  haveUnsecure : Bool
  secureKey : List UInt8
  haveSecure : Bool
  peerPub : List UInt8
  kp : Option κ
  pubkeyReply : List UInt8
  rx : List UInt8
  pendingAddr : UInt16
  pendingCount : UInt16
  draws : Nat
  txs : Nat
  log : List (SessEvent κ)

section

variable {κ : Type}

/-- `bt_session_new`: all zero. -/
def btSessionNew : BtSession κ where
  state := .idle
  plain := false
  unsecureKey := List.replicate 16 0
  unsecureIv := List.replicate 16 0
  haveUnsecure := false
  secureKey := List.replicate 32 0
  haveSecure := false
  peerPub := List.replicate btP256Publen 0
  kp := none
  pubkeyReply := []
  rx := []
  pendingAddr := 0
  pendingCount := 0
  draws := 0
  txs := 0
  log := []

/-- `bt_session_reset`: the IV, the peer key and the pending address stay. -/
def btSessionReset (s : BtSession κ) : BtSession κ :=
  { s with
    kp := none
    state := .idle
    plain := false
    haveUnsecure := false
    haveSecure := false
    rx := []
    pubkeyReply := []
    secureKey := List.replicate 32 0
    unsecureKey := List.replicate 16 0 }

/-- `bt_session_use_plain`. -/
def btSessionUsePlain (s : BtSession κ) : BtSession κ :=
  if s.state ≠ .idle then s      -- a handshake is already under way
  else { s with plain := true, rx := [], state := .ready }

/-- `bt_session_ready`. -/
def btSessionReady (s : BtSession κ) : Bool :=
  decide (s.state = .ready) && (s.haveSecure || s.plain)

def BtSession.note (s : BtSession κ) (e : SessEvent κ) : BtSession κ :=
  { s with log := s.log ++ [e] }

/-- `s->tx (...)`, and whether it succeeded. -/
def transmit (env : Env κ) (s : BtSession κ) (bytes : List UInt8) : Bool × BtSession κ :=
  let ok := env.txOk s.txs
  (ok, { s.note (.tx bytes ok) with txs := s.txs + 1 })

/-! ## 2. Small helpers -/

/-- `hexsum`: a plain byte sum, big-endian. -/
def hexsum (data : List UInt8) : List UInt8 :=
  let sum := (data.map UInt8.toNat).sum
  [UInt8.ofNat (sum / 256), UInt8.ofNat sum]

/-- `build_kex`: `2a2a || body || checksum`, `none` where it does not fit. -/
def buildKex (body : List UInt8) (outSz : Nat) : Option (List UInt8) :=
  if outSz < body.length + 4 then none else some (kexMagic ++ body ++ hexsum body)

/-- `session_fail`. -/
def sessionFail (s : BtSession κ) (why : String) : BtSession κ :=
  { s.note (.failed why) with state := .failed }

/-! ## 3. AES wrapper -/

/-- A length rounded up to whole blocks. -/
def padded (len : Nat) : Nat := (len + btAesBlock - 1) / btAesBlock * btAesBlock

/-- `len` as the two bytes of a header. -/
def lenBe16 (len : Nat) : List UInt8 := [UInt8.ofNat (len / 256), UInt8.ofNat len]

/-- The part of `aes_wrap` after the IV is known: header, padding, encryption. -/
def wrapUnder (env : Env κ) (key iv header plain : List UInt8) (outSz : Nat) :
    Option (List UInt8) :=
  if header.length + padded plain.length > outSz ∨ padded plain.length > rxMax then none
  else
    (btAesCbcEncrypt env key iv
      (plain ++ List.replicate (padded plain.length - plain.length) 0)).map (header ++ ·)

/-- `aes_wrap` with the caller's IV (the handshake phase). -/
def aesWrapIv (env : Env κ) (key iv plain : List UInt8) (outSz : Nat) : Option (List UInt8) :=
  wrapUnder env key iv (lenBe16 plain.length) plain outSz

/-- `aes_wrap` with an IV of its own, `MD5 (seed)`, and the seed in the header. -/
def aesWrapSeed (env : Env κ) (s : BtSession κ) (key plain : List UInt8) (outSz : Nat) :
    Option (List UInt8) × BtSession κ :=
  let seed := env.random s.draws
  (wrapUnder env key (env.md5 seed) (lenBe16 plain.length ++ seed) plain outSz,
    { s with draws := s.draws + 1 })

/-- The plaintext length a frame starts with. -/
def headerLen (buf : List UInt8) : Nat :=
  (buf.getD 0 0).toNat * 256 + (buf.getD 1 0).toNat

/-- `framed_len`: total wire length of the frame `buf` starts, 0 if more is needed to tell. -/
def framedLen (haveSecure : Bool) (buf : List UInt8) : Nat :=
  let header := if haveSecure then 6 else 2
  if buf.length < header then 0 else header + padded (headerLen buf)

/-- `aes_unwrap`. -/
def aesUnwrap (env : Env κ) (s : BtSession κ) (input : List UInt8) (outSz : Nat) :
    Option (List UInt8) :=
  let plainLen := headerLen input
  if s.haveSecure && decide (input.length < 6) then none
  else
    let key := if s.haveSecure then s.secureKey else s.unsecureKey
    let iv := if s.haveSecure then env.md5 ((input.drop 2).take 4) else s.unsecureIv
    let ct := if s.haveSecure then input.drop 6 else input.drop 2
    if ct.length % btAesBlock ≠ 0 ∨ plainLen > ct.length ∨ plainLen > outSz then none
    else if ct.length > rxMax then none
    else (btAesCbcDecrypt env key iv ct).map (List.take plainLen)

/-! ## 4. Handshake steps -/

/-- `on_challenge`: the IV is MD5 over the 4 bytes reversed, the first key that IV XOR the static
    key. -/
def onChallenge (env : Env κ) (s : BtSession κ) (data : List UInt8) (len : Nat) : BtSession κ :=
  if len ≠ 4 then sessionFail s "challenge length"
  else
    let iv := env.md5 (data.take 4).reverse
    let s := { s.note (.challenge iv) with
      unsecureIv := iv
      unsecureKey := List.zipWith (· ^^^ ·) iv localAesKey
      haveUnsecure := true }
    match buildKex ([0x02, 0x04] ++ (iv.drop 8).take 4) 16 with
    | none => sessionFail s "challenge reply write"
    | some frame =>
        match transmit env s frame with
        | (false, s) => sessionFail s "challenge reply write"
        | (true, s) => { s with state := .challenge }

/-- Our public key and its signature as a frame, wrapped under the handshake key: what
    `on_peer_pubkey` transmits. -/
def pubkeyFrame (myPub sig : List UInt8) : Option (List UInt8) :=
  let body := [0x05, 0x80] ++ myPub ++ sig
  buildKex body (body.length + 4)

/-- The rest of `on_peer_pubkey`, from the keypair on. -/
def replyPubkey (env : Env κ) (s : BtSession κ) (kp : κ) : BtSession κ :=
  match env.keypairPublic kp with
  | none => sessionFail s "public key export"
  | some myPub =>
      match env.ecdsaSignL1 s.draws (myPub ++ s.unsecureIv) with
      | none => sessionFail { s with draws := s.draws + 1 } "signing"
      | some sig =>
          let s := { s with draws := s.draws + 1 }
          match pubkeyFrame myPub sig with
          | none => sessionFail s "frame build"
          | some frame =>
              -- Cached, so that a re-request is answered byte for byte.
              match aesWrapIv env s.unsecureKey s.unsecureIv frame rxMax with
              | none => sessionFail s "pubkey reply wrap"
              | some reply =>
                  match transmit env { s with pubkeyReply := reply } reply with
                  | (false, s) => sessionFail s "pubkey reply write"
                  | (true, s) => { s with state := .pubkey }

/-- `on_peer_pubkey`: 64 bytes of key, 64 of signature over the key and the IV, made with K2. -/
def onPeerPubkey (env : Env κ) (s : BtSession κ) (data : List UInt8) (len : Nat) : BtSession κ :=
  if len ≠ 128 then sessionFail s "pubkey length"
  else
    let key := data.take btP256Publen
    let sig := (data.drop btP256Publen).take btP256Siglen
    if s.kp.isSome ∧ s.pubkeyReply ≠ [] ∧ s.peerPub = key then
      -- A repeat is answered from the cache, and nothing else is done.
      (transmit env s s.pubkeyReply).2
    else if !env.ecdsaVerifyK2 (key ++ s.unsecureIv) sig then sessionFail s "peer key signature"
    else
      let s := { s.note (.verified key sig s.unsecureIv) with peerPub := key }
      match s.kp with
      | some kp => replyPubkey env s kp
      | none =>
          -- One ephemeral keypair per session.
          let kp? := env.keypairNew s.draws
          let s := { s with kp := kp?, draws := s.draws + 1 }
          match kp? with
          | none => sessionFail s "keypair"
          | some kp => replyPubkey env s kp

/-- `on_pubkey_accepted`. -/
def onPubkeyAccepted (env : Env κ) (s : BtSession κ) (data : List UInt8) (len : Nat) :
    BtSession κ :=
  if len ≠ 1 ∨ data.getD 0 0 ≠ 0 then sessionFail s "key rejected"
  else
    match env.ecdhShared s.kp s.peerPub with
    | none => sessionFail s "ECDH"
    | some secret =>
        { s.note (.secure s.state s.haveUnsecure s.kp s.peerPub secret) with
          secureKey := secret
          haveSecure := true
          state := .ready }

/-- `data_len` of `handle_kex`, a `size_t`: a body of one byte wraps around. -/
def kexDataLen (bodyLen : Nat) : Nat := (bodyLen + (2 ^ 32 - 2)) % 2 ^ 32

/-- **`handle_kex`**: dispatch of a `2a2a` frame, on its type alone. -/
def handleKex (env : Env κ) (s : BtSession κ) (frame : List UInt8) : BtSession κ :=
  if frame.length < 5 then s
  else
    let bodyLen := frame.length - 4
    let body := (frame.drop 2).take bodyLen
    if hexsum body ≠ (frame.drop (2 + bodyLen)).take 2 then s
    else
      let type := body.getD 0 0
      let data := frame.drop 4
      let dataLen := kexDataLen bodyLen
      if type = msgChallenge then onChallenge env s data dataLen
      else if type = msgPeerPubkey then onPeerPubkey env s data dataLen
      else if type = msgPubkeyAccepted then onPubkeyAccepted env s data dataLen
      else s                       -- challenge accepted, or unknown: a line in the log

/-! ## 5. Modbus -/

/-- `modbus_crc_ok`: the CRC over the first `n` bytes matches the two after them. -/
def modbusCrcOk (f : List UInt8) (n : Nat) : Bool :=
  btCrc16Modbus (f.take n) == (f.getD n 0).toUInt16 ||| ((f.getD (n + 1) 0).toUInt16 <<< 8)

/-- Two bytes, big-endian. -/
def be16 (hi lo : UInt8) : UInt16 := (hi.toUInt16 <<< 8) ||| lo.toUInt16

/-- `handle_modbus`. -/
def handleModbus (s : BtSession κ) (f : List UInt8) : BtSession κ :=
  if f.length < 5 then s
  else
    let fn := f.getD 1 0
    if fn = modbusWrite ∨ fn = modbusWrite ||| 0x80 then
      let ok := decide (fn = modbusWrite) && decide (f.length ≥ 8) && modbusCrcOk f 6
      let addr := if ok then be16 (f.getD 2 0) (f.getD 3 0) else s.pendingAddr
      let val := if ok then be16 (f.getD 4 0) (f.getD 5 0) else 0
      s.note (.ack addr val ok)
    else if fn ≠ modbusRead then s      -- an exception, or no answer to a read
    else
      let count := (f.getD 2 0).toNat
      if 3 + count + 2 > f.length then s
      else if !modbusCrcOk f (3 + count) then s
      else s.note (.regs s.pendingAddr ((f.drop 3).take count))

/-- A command with its CRC, little-endian. -/
def modbusCmd (fn : UInt8) (addr arg : UInt16) : List UInt8 :=
  let cmd := [modbusSlave, fn, (addr >>> 8).toUInt8, addr.toUInt8, (arg >>> 8).toUInt8, arg.toUInt8]
  let crc := btCrc16Modbus cmd
  cmd ++ [crc.toUInt8, (crc >>> 8).toUInt8]

/-- The tail of both commands: as it is in plain mode, wrapped under the secure key else. -/
def sendCmd (env : Env κ) (s : BtSession κ) (cmd : List UInt8) : Bool × BtSession κ :=
  if s.plain then transmit env s cmd
  else
    match aesWrapSeed env s s.secureKey cmd rxMax with
    | (none, s) => (false, s)
    | (some wrapped, s) => transmit env s wrapped

/-- `bt_session_read_regs`, and whether it returned 0. -/
def btSessionReadRegs (env : Env κ) (s : BtSession κ) (addr count : UInt16) : Bool × BtSession κ :=
  if !btSessionReady s then (false, s)
  else
    -- a fresh response is coming
    let s := { s with pendingAddr := addr, pendingCount := count, rx := [] }
    sendCmd env s (modbusCmd modbusRead addr count)

/-- `bt_session_write_reg`, and whether it returned 0. -/
def btSessionWriteReg (env : Env κ) (s : BtSession κ) (addr value : UInt16) : Bool × BtSession κ :=
  if !btSessionReady s then (false, s)
  else
    let s := { s with pendingAddr := addr, rx := [] }
    sendCmd env s (modbusCmd modbusWrite addr value)

/-! ## 6. Receive path -/

/-- The length of the reply `rx` starts, in plain mode. -/
def plainFrameLen (rx : List UInt8) : Nat :=
  let fn := rx.getD 1 0
  if fn = modbusWrite then 8
  else if fn &&& 0x80 ≠ 0 then 5
  else 3 + (rx.getD 2 0).toNat + 2

/-- The loop of `bt_session_feed` in plain mode. Each round consumes a frame, so the length of the
    buffer is fuel enough. -/
def drainPlain : Nat → BtSession κ → BtSession κ
  | 0, s => s
  | fuel + 1, s =>
      if s.rx.length < 3 then s
      else
        let frame := plainFrameLen s.rx
        if s.rx.length < frame then s        -- wait for the rest
        else
          let s := handleModbus s (s.rx.take frame)
          drainPlain fuel { s with rx := s.rx.drop frame }

/-- What is done with an unwrapped frame. -/
def dispatchInner (env : Env κ) (s : BtSession κ) (plain : List UInt8) : BtSession κ :=
  if kexMagic.isPrefixOf plain then handleKex env s plain else handleModbus s plain

/-- The loop of `bt_session_feed` for wrapped frames; the length of the buffer is fuel enough here,
    too. -/
def drainWrapped (env : Env κ) : Nat → BtSession κ → BtSession κ
  | 0, s => s
  | fuel + 1, s =>
      let need := framedLen s.haveSecure s.rx
      if need = 0 ∨ s.rx.length < need then s        -- wait for the rest
      else
        match aesUnwrap env s (s.rx.take need) rxMax with
        | none => { s with rx := [] }
        | some plain =>
            -- Consumed before it is dispatched: a handler may transmit.
            let s := dispatchInner env { s with rx := s.rx.drop need } plain
            if s.rx = [] then s else drainWrapped env fuel s

/-- **`bt_session_feed`**: one notification. -/
def btSessionFeed (env : Env κ) (s : BtSession κ) (data : List UInt8) : BtSession κ :=
  if s.plain then
    if s.rx.length + data.length > rxMax then { s with rx := [] }
    else
      let s := { s with rx := s.rx ++ data }
      drainPlain s.rx.length s
  else if !s.haveSecure && kexMagic.isPrefixOf data then
    -- A key-exchange frame arrives whole and unencrypted until the secure key is up.
    handleKex env s data
  else if !s.haveUnsecure then s
  else if s.rx.length + data.length > rxMax then { s with rx := [] }
  else
    let s := { s with rx := s.rx ++ data }
    drainWrapped env s.rx.length s

end

end NutBluetti.Ble
