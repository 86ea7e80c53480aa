/-
  File:      NutBluetti/Ble/SessionReset.lean
  Subject:   WHAT A RESET LEAVES BEHIND. `bt_session_reset` clears what says that a value is there;
             the IV, the peer key and the address of the last request keep their old values.

  * `newLike`, `seen` -- a new session with the same outside, and what can be seen of a run;
  * **`reset_shows_history`** -- after a reset an unasked answer comes with the address of a read of
    the session before;
  * `Alike` -- two sessions that differ in the left-over values only;
  * **`alike_handle`** -- a message that reads none of them keeps two sessions alike;
  * **`seen_reset`** -- where no left-over value is read, a run after the reset shows exactly what
    it shows on a new session.
-/
import NutBluetti.Ble.SessionGate

namespace NutBluetti.Ble

open StepMachine Reassembly

variable {κ : Type} {env : Env κ} {s t : BtSession κ}

/-! ## 1. What can be seen -/

/-- A new session that goes on with the random numbers and the transmissions of `s`. -/
def newLike (s : BtSession κ) : BtSession κ :=
  { btSessionNew with draws := s.draws, txs := s.txs }

/-- What leaves a session: transmissions and callbacks. -/
def SessEvent.leaves : SessEvent κ → Bool
  | .tx _ _ => true
  | e => e.isCallback

/-- What can be seen after a call: all that left the session since the reset, the return value, and
    what the queries answer. -/
structure Seen (κ : Type) where
  left : List (SessEvent κ)
  ok : Bool
  state : SessState
  ready : Bool
  plain : Bool

/-- The return value of a call; `true` for a `void` one. -/
def SessOp.ok (env : Env κ) (s : BtSession κ) : SessOp → Bool
  | .feed _ => true
  | .readRegs addr count => (btSessionReadRegs env s addr count).1
  | .writeReg addr value => (btSessionWriteReg env s addr value).1
  | .usePlain => true

def seenAfter (s : BtSession κ) (ok : Bool) : Seen κ where
  left := s.log.filter SessEvent.leaves
  ok := ok
  state := s.state
  ready := btSessionReady s
  plain := s.plain

/-- What can be seen of a run, call by call. -/
def seen (env : Env κ) : BtSession κ → List SessOp → List (Seen κ)
  | _, [] => []
  | s, op :: ops => seenAfter (op.apply env s) (op.ok env s) :: seen env (op.apply env s) ops

/-! ## 2. What reads a left-over value -/

/-- Whether a peer key has been verified since the reset. -/
def BtSession.verified (s : BtSession κ) : Bool := s.log.any SessEvent.isVerified

/-- Whether `handle_modbus` calls back under the pending address. -/
def modbusLabelled (f : List UInt8) : Bool :=
  modbusAnswers f &&
    !(f.getD 1 0 == modbusWrite && decide (8 ≤ f.length) && modbusCrcOk f 6)

/-- A message that reads no left-over value: a peer key is checked against the IV of a challenge
    since the reset, an acceptance is of a peer key since the reset, and an answer comes after a
    request. What is left over does no harm where it is what a new session holds. -/
def readsNoRest (asked : Bool) (p : BtSession κ × Inner) : Bool :=
  match p.2 with
  | .kex frame =>
      match kexOf frame with
      | none => true
      | some (type, data, len) =>
          if type = msgPeerPubkey ∧ len = 128 then
            p.1.haveUnsecure || p.1.unsecureIv == List.replicate 16 0
          else if type = msgPubkeyAccepted ∧ len = 1 ∧ data.getD 0 0 = 0 then
            p.1.verified || p.1.peerPub == List.replicate btP256Publen 0
          else true
  | .modbus f => !modbusLabelled f || asked || p.1.pendingAddr == 0

/-- A call that sets the pending address. -/
def SessOp.asks (s : BtSession κ) : SessOp → Bool
  | .readRegs _ _ => btSessionReady s
  | .writeReg _ _ => btSessionReady s
  | _ => false

/-- No message of the run reads a left-over value; `asked` says whether there was a request since
    the reset. -/
def noRestRead (env : Env κ) : Bool → BtSession κ → List SessOp → Bool
  | _, _, [] => true
  | asked, s, op :: ops =>
      (match op with
        | .feed data => (handedOver env s data).all (readsNoRest asked)
        | _ => true) &&
      noRestRead env (asked || op.asks s) (op.apply env s) ops

/-! ## 3. Two sessions -/

/-- The session with other left-over values. -/
def BtSession.withRest (s : BtSession κ) (iv peer : List UInt8) (addr count : UInt16) :
    BtSession κ :=
  { s with unsecureIv := iv, peerPub := peer, pendingAddr := addr, pendingCount := count }

/-- The second session is the first, but for left-over values that are a new session's in the
    second: the IV until there is a challenge, the peer key until one is verified, the address until
    there is a request, and the count, which nothing reads. -/
def Alike (asked : Bool) (s t : BtSession κ) : Prop :=
  ∃ iv peer addr count, t = s.withRest iv peer addr count ∧
    (iv = s.unsecureIv ∨ s.haveUnsecure = false ∧ iv = List.replicate 16 0) ∧
    (peer = s.peerPub ∨ s.verified = false ∧ s.kp = none ∧ peer = List.replicate btP256Publen 0) ∧
    (addr = s.pendingAddr ∨ asked = false ∧ addr = 0)

theorem alike_start (s : BtSession κ) : Alike false (sessStart s) (newLike s) :=
  ⟨List.replicate 16 0, List.replicate btP256Publen 0, 0, 0, rfl, .inr ⟨rfl, rfl⟩,
    .inr ⟨rfl, rfl, rfl⟩, .inr ⟨rfl, rfl⟩⟩

variable {asked : Bool}

theorem verified_note {e : SessEvent κ} (he : e.isVerified = false) (s : BtSession κ) :
    (s.note e).verified = s.verified := by
  unfold BtSession.verified BtSession.note
  rw [List.any_append, List.any_cons, he, List.any_nil, Bool.or_false, Bool.or_false]

theorem Alike.note (h : Alike asked s t) {e : SessEvent κ} (he : e.isVerified = false) :
    Alike asked (s.note e) (t.note e) := by
  obtain ⟨iv, peer, addr, count, rfl, hiv, hpeer, haddr⟩ := h
  rw [← verified_note he] at hpeer
  exact ⟨iv, peer, addr, count, rfl, hiv, hpeer, haddr⟩

theorem Alike.setState (h : Alike asked s t) (x : SessState) :
    Alike asked { s with state := x } { t with state := x } := by
  obtain ⟨iv, peer, addr, count, rfl, hiv, hpeer, haddr⟩ := h
  exact ⟨iv, peer, addr, count, rfl, hiv, hpeer, haddr⟩

theorem Alike.setRx (h : Alike asked s t) (rx : List UInt8) :
    Alike asked (s.setRx rx) (t.setRx rx) := by
  obtain ⟨iv, peer, addr, count, rfl, hiv, hpeer, haddr⟩ := h
  exact ⟨iv, peer, addr, count, rfl, hiv, hpeer, haddr⟩

theorem Alike.fail (h : Alike asked s t) (why : String) :
    Alike asked (sessionFail s why) (sessionFail t why) :=
  (h.note (e := .failed why) rfl).setState .failed

theorem Alike.transmit (h : Alike asked s t) (env : Env κ) (bytes : List UInt8) :
    (transmit env s bytes).1 = (transmit env t bytes).1 ∧
      Alike asked (transmit env s bytes).2 (transmit env t bytes).2 := by
  have h1 := h.note (e := .tx bytes (env.txOk s.txs)) rfl
  obtain ⟨iv, peer, addr, count, rfl, -⟩ := h
  obtain ⟨iv', peer', addr', count', heq, hiv, hpeer, haddr⟩ := h1
  refine ⟨rfl, iv', peer', addr', count', ?_, hiv, hpeer, haddr⟩
  show ({ (s.withRest iv peer addr count).note (.tx bytes (env.txOk s.txs)) with
    txs := s.txs + 1 } : BtSession κ) = _
  rw [heq]
  rfl

/-- A transmission, and what is done with its outcome. -/
theorem Alike.transmit_then (h : Alike asked s t) (bytes : List UInt8) (why : String)
    (x : SessState) :
    Alike asked
      (match Ble.transmit env s bytes with
        | (false, s) => sessionFail s why
        | (true, s) => { s with state := x })
      (match Ble.transmit env t bytes with
        | (false, t) => sessionFail t why
        | (true, t) => { t with state := x }) := by
  obtain ⟨hok, halike⟩ := h.transmit env bytes
  rcases hs : Ble.transmit env s bytes with ⟨ok, s'⟩
  rcases ht : Ble.transmit env t bytes with ⟨ok', t'⟩
  rw [hs, ht] at hok halike
  obtain rfl : ok = ok' := hok
  cases ok with
  | false => exact halike.fail why
  | true => exact halike.setState x

/-- A challenge writes the IV before anything reads it. -/
theorem alike_onChallenge (h : Alike asked s t) (data : List UInt8) (len : Nat) :
    Alike asked (onChallenge env s data len) (onChallenge env t data len) := by
  unfold onChallenge
  split
  · exact h.fail _
  have h1 : Alike asked
      { s.note (.challenge (env.md5 (data.take 4).reverse)) with
        unsecureIv := env.md5 (data.take 4).reverse
        unsecureKey := List.zipWith (· ^^^ ·) (env.md5 (data.take 4).reverse) localAesKey
        haveUnsecure := true }
      { t.note (.challenge (env.md5 (data.take 4).reverse)) with
        unsecureIv := env.md5 (data.take 4).reverse
        unsecureKey := List.zipWith (· ^^^ ·) (env.md5 (data.take 4).reverse) localAesKey
        haveUnsecure := true } := by
    obtain ⟨iv, peer, addr, count, rfl, -, hpeer, haddr⟩ := h
    rw [← verified_note (e := .challenge (env.md5 (data.take 4).reverse)) rfl s] at hpeer
    exact ⟨env.md5 (data.take 4).reverse, peer, addr, count, rfl, .inl rfl, hpeer, haddr⟩
  simp only
  split
  · exact h1.fail _
  · exact h1.transmit_then _ _ _

theorem alike_replyPubkey (h : Alike asked s t) (hiv : t.unsecureIv = s.unsecureIv) (kp : κ) :
    Alike asked (replyPubkey env s kp) (replyPubkey env t kp) := by
  obtain ⟨iv, peer, addr, count, rfl, -, hpeer, haddr⟩ := h
  obtain rfl : iv = s.unsecureIv := hiv
  unfold replyPubkey
  have h0 : Alike asked s (s.withRest s.unsecureIv peer addr count) :=
    ⟨_, _, _, _, rfl, .inl rfl, hpeer, haddr⟩
  split
  · exact h0.fail _
  have h1 : Alike asked { s with draws := s.draws + 1 }
      { s.withRest s.unsecureIv peer addr count with draws := s.draws + 1 } :=
    ⟨_, _, _, _, rfl, .inl rfl, hpeer, haddr⟩
  rename_i pub _
  have hsame : (s.withRest s.unsecureIv peer addr count).draws = s.draws ∧
      (s.withRest s.unsecureIv peer addr count).unsecureIv = s.unsecureIv ∧
      (s.withRest s.unsecureIv peer addr count).unsecureKey = s.unsecureKey := ⟨rfl, rfl, rfl⟩
  simp only [hsame]
  split
  · exact h1.fail _
  split
  · exact h1.fail _
  split
  · exact h1.fail _
  rename_i reply _
  have h2 : Alike asked { s with draws := s.draws + 1, pubkeyReply := reply }
      { s.withRest s.unsecureIv peer addr count with
        draws := s.draws + 1, pubkeyReply := reply } :=
    ⟨_, _, _, _, rfl, .inl rfl, hpeer, haddr⟩
  exact h2.transmit_then _ _ _

/-- The end of `on_peer_pubkey`, after the key is verified. -/
def answerVerified (env : Env κ) (s : BtSession κ) : BtSession κ :=
  match s.kp with
  | some kp => replyPubkey env s kp
  | none =>
      let kp? := env.keypairNew s.draws
      let s := { s with kp := kp?, draws := s.draws + 1 }
      match kp? with
      | none => sessionFail s "keypair"
      | some kp => replyPubkey env s kp

theorem onPeerPubkey_eq (s : BtSession κ) (data : List UInt8) (len : Nat) :
    onPeerPubkey env s data len =
      if len ≠ 128 then sessionFail s "pubkey length"
      else
        let key := data.take btP256Publen
        let sig := (data.drop btP256Publen).take btP256Siglen
        if s.kp.isSome ∧ s.pubkeyReply ≠ [] ∧ s.peerPub = key then
          (transmit env s s.pubkeyReply).2
        else if !env.ecdsaVerifyK2 (key ++ s.unsecureIv) sig then
          sessionFail s "peer key signature"
        else
          answerVerified env { s.note (.verified key sig s.unsecureIv) with peerPub := key } := rfl

theorem alike_answerVerified (h : Alike asked s t) (hiv : t.unsecureIv = s.unsecureIv)
    (hpeer : t.peerPub = s.peerPub) :
    Alike asked (answerVerified env s) (answerVerified env t) := by
  have halike := h
  obtain ⟨iv, peer, addr, count, rfl, -, -, haddr⟩ := h
  obtain rfl : iv = s.unsecureIv := hiv
  obtain rfl : peer = s.peerPub := hpeer
  unfold answerVerified
  have hkps : (s.withRest s.unsecureIv s.peerPub addr count).kp = s.kp := rfl
  rw [hkps]
  split
  · exact alike_replyPubkey halike rfl _
  have h1 : ∀ kp, Alike asked { s with kp := kp, draws := s.draws + 1 }
      { s.withRest s.unsecureIv s.peerPub addr count with kp := kp, draws := s.draws + 1 } :=
    fun kp => ⟨_, _, _, _, rfl, .inl rfl, .inl rfl, haddr⟩
  have hdraws : (s.withRest s.unsecureIv s.peerPub addr count).draws = s.draws := rfl
  simp only [hdraws]
  split
  · exact (h1 _).fail _
  · exact alike_replyPubkey (h1 _) rfl _

/-- A peer key is compared with one verified since the reset, if with any, and checked against the
    IV both sessions hold. -/
theorem alike_onPeerPubkey (h : Alike asked s t) {data : List UInt8} {len : Nat}
    (hread : len = 128 → s.haveUnsecure = true ∨ s.unsecureIv = List.replicate 16 0) :
    Alike asked (onPeerPubkey env s data len) (onPeerPubkey env t data len) := by
  rw [onPeerPubkey_eq, onPeerPubkey_eq]
  by_cases hlen : len = 128
  swap
  · rw [if_pos hlen, if_pos hlen]
    exact h.fail _
  rw [if_neg (not_not.mpr hlen), if_neg (not_not.mpr hlen)]
  have halike := h
  obtain ⟨iv, peer, addr, count, rfl, hiv, hpeer, haddr⟩ := h
  obtain rfl : iv = s.unsecureIv := by
    rcases hiv with h | ⟨hno, hzero⟩
    · exact h
    · rcases hread hlen with hyes | hiv
      · rw [hno] at hyes
        cases hyes
      · rw [hzero, hiv]
  -- the cache is looked at with a keypair only, and then the peer key is of this session
  have hcache : ((s.withRest s.unsecureIv peer addr count).kp.isSome = true ∧
        (s.withRest s.unsecureIv peer addr count).pubkeyReply ≠ [] ∧
        (s.withRest s.unsecureIv peer addr count).peerPub = data.take btP256Publen) ↔
      (s.kp.isSome = true ∧ s.pubkeyReply ≠ [] ∧ s.peerPub = data.take btP256Publen) := by
    rcases hpeer with rfl | ⟨-, hkp, -⟩
    · exact Iff.rfl
    · have hkp' : (s.withRest s.unsecureIv peer addr count).kp = none := hkp
      rw [hkp, hkp']
      simp
  simp only
  by_cases hc : s.kp.isSome = true ∧ s.pubkeyReply ≠ [] ∧ s.peerPub = data.take btP256Publen
  · rw [if_pos hc, if_pos (hcache.mpr hc)]
    exact (halike.transmit env s.pubkeyReply).2
  rw [if_neg hc, if_neg (mt hcache.mp hc)]
  have hivs : (s.withRest s.unsecureIv peer addr count).unsecureIv = s.unsecureIv := rfl
  rw [hivs]
  split
  · exact halike.fail _
  · exact alike_answerVerified ⟨_, _, _, _, rfl, .inl rfl, .inl rfl, haddr⟩ rfl rfl

/-- An acceptance takes a peer key of this session, or the one a new session holds. -/
theorem alike_onPubkeyAccepted (h : Alike asked s t) {data : List UInt8} {len : Nat}
    (hread : len = 1 → data.getD 0 0 = 0 →
      s.verified = true ∨ s.peerPub = List.replicate btP256Publen 0) :
    Alike asked (onPubkeyAccepted env s data len) (onPubkeyAccepted env t data len) := by
  unfold onPubkeyAccepted
  split
  · exact h.fail _
  rename_i hok
  rw [not_or, not_not, not_not] at hok
  obtain ⟨iv, peer, addr, count, rfl, hiv, hpeer, haddr⟩ := h
  obtain rfl : peer = s.peerPub := by
    rcases hpeer with h | ⟨hno, -, hzero⟩
    · exact h
    · rcases hread hok.1 hok.2 with hyes | hpeer
      · rw [hno] at hyes
        cases hyes
      · rw [hzero, hpeer]
  have h0 : Alike asked s (s.withRest iv s.peerPub addr count) :=
    ⟨_, _, _, _, rfl, hiv, .inl rfl, haddr⟩
  have hsame : (s.withRest iv s.peerPub addr count).kp = s.kp ∧
      (s.withRest iv s.peerPub addr count).peerPub = s.peerPub := ⟨rfl, rfl⟩
  rw [hsame.1, hsame.2]
  split
  · exact h0.fail _
  · exact ⟨iv, s.peerPub, addr, count, rfl, hiv, .inl rfl, haddr⟩

/-- What `handle_modbus` calls back for a frame. -/
def modbusCall (pending : UInt16) (f : List UInt8) : Option (SessEvent κ) :=
  let fn := f.getD 1 0
  let count := (f.getD 2 0).toNat
  let ok := decide (fn = modbusWrite) && decide (f.length ≥ 8) && modbusCrcOk f 6
  if f.length < 5 then none
  else if fn = modbusWrite ∨ fn = modbusWrite ||| 0x80 then
    some (.ack (if ok then be16 (f.getD 2 0) (f.getD 3 0) else pending)
      (if ok then be16 (f.getD 4 0) (f.getD 5 0) else 0) ok)
  else if fn ≠ modbusRead then none
  else if 3 + count + 2 > f.length then none
  else if !modbusCrcOk f (3 + count) then none
  else some (.regs pending ((f.drop 3).take count))

theorem handleModbus_eq (s : BtSession κ) (f : List UInt8) :
    handleModbus s f = ((modbusCall s.pendingAddr f).map s.note).getD s := by
  unfold handleModbus modbusCall
  simp only
  repeat' split
  all_goals rfl

theorem modbusCall_verified {pending : UInt16} {f : List UInt8} {e : SessEvent κ}
    (h : modbusCall pending f = some e) : e.isVerified = false := by
  unfold modbusCall at h
  simp only at h
  repeat' split at h
  all_goals cases h
  all_goals rfl

/-- An echo carries its own address. -/
theorem modbusCall_echo {f : List UInt8} (ha : modbusAnswers f = true)
    (hl : modbusLabelled f = false) (p q : UInt16) :
    (modbusCall p f : Option (SessEvent κ)) = modbusCall q f := by
  have hok : (decide (f.getD 1 0 = modbusWrite) && decide (f.length ≥ 8) && modbusCrcOk f 6) =
      true := by
    simpa [modbusLabelled, ha] using hl
  unfold modbusCall
  simp only [hok, if_true]
  have hfn : f.getD 1 0 = modbusWrite := by
    simp only [Bool.and_eq_true, decide_eq_true_eq] at hok
    exact hok.1.1
  by_cases h5 : f.length < 5
  · rw [if_pos h5, if_pos h5]
  · rw [if_neg h5, if_neg h5, if_pos (.inl hfn), if_pos (.inl hfn)]

theorem alike_handleModbus (h : Alike asked s t) {f : List UInt8}
    (hread : modbusLabelled f = false ∨ asked = true ∨ s.pendingAddr = 0) :
    Alike asked (handleModbus s f) (handleModbus t f) := by
  rcases Bool.eq_false_or_eq_true (modbusAnswers f) with ha | ha
  swap
  · rw [handleModbus_silent ha, handleModbus_silent ha]
    exact h
  have hcall : (modbusCall t.pendingAddr f : Option (SessEvent κ)) =
      modbusCall s.pendingAddr f := by
    rcases hread with hl | hlabel
    · exact modbusCall_echo ha hl _ _
    · obtain ⟨iv, peer, addr, count, rfl, -, -, haddr⟩ := h
      have heq : addr = s.pendingAddr := by
        rcases haddr with h | ⟨hno, hzero⟩
        · exact h
        · rw [hno] at hlabel
          rw [hzero, hlabel.resolve_left (by decide)]
      exact congrArg (modbusCall · f) heq
  rw [handleModbus_eq, handleModbus_eq, hcall]
  rcases he : (modbusCall s.pendingAddr f : Option (SessEvent κ)) with _ | e
  · exact h
  · exact h.note (modbusCall_verified he)

/-- **A message that reads no left-over value** keeps two sessions alike. -/
theorem alike_handle (env : Env κ) (h : Alike asked s t) {m : Inner}
    (hread : readsNoRest asked (s, m) = true) :
    Alike asked (handleInner env s m) (handleInner env t m) := by
  cases m with
  | kex frame =>
      show Alike asked (handleKex env s frame) (handleKex env t frame)
      rcases hk : kexOf frame with _ | ⟨type, data, len⟩
      · rw [handleKex_none hk, handleKex_none hk]
        exact h
      simp only [readsNoRest, hk] at hread
      rw [handleKex_some hk, handleKex_some hk]
      split
      · exact alike_onChallenge h data len
      split
      · rename_i htype
        refine alike_onPeerPubkey h fun hlen => ?_
        rw [if_pos ⟨htype, hlen⟩] at hread
        simpa using hread
      split
      · rename_i hno htype
        refine alike_onPubkeyAccepted h fun hlen hdata => ?_
        rw [if_neg (fun hc => hno hc.1), if_pos ⟨htype, hlen, hdata⟩] at hread
        simpa using hread
      · exact h
  | modbus f =>
      show Alike asked (handleModbus s f) (handleModbus t f)
      refine alike_handleModbus h ?_
      simpa [readsNoRest, or_assoc] using hread

/-! ## 4. Runs -/

/-- Two sessions alike take the same frames off their buffers: in plain mode. -/
theorem alike_drainPlain (h : Alike asked s t) (fuel : Nat) (buf : List UInt8)
    (hread : ∀ p ∈ taken plainReceiver fuel s buf,
      readsNoRest asked (p.1, .modbus p.2) = true) :
    Alike asked (drain plainReceiver fuel s buf).1 (drain plainReceiver fuel t buf).1 ∧
      (drain plainReceiver fuel s buf).2 = (drain plainReceiver fuel t buf).2 := by
  refine drain_sim (R := plainReceiver) (Q := plainReceiver) (Alike asked) (fun _ _ _ _ => rfl) fuel
    buf h fun p hp t ht => ?_
  refine .some (alike_handleModbus ht ?_)
  simpa [readsNoRest, or_assoc] using hread p hp

/-- What a frame unwraps to, in a session that has a handshake key. -/
theorem alike_unwrap (h : Alike asked s t) (hu : s.haveUnsecure = true) (frame : List UInt8) :
    aesUnwrap env s frame rxMax = aesUnwrap env t frame rxMax := by
  obtain ⟨iv, peer, addr, count, rfl, hiv, -, -⟩ := h
  obtain rfl : iv = s.unsecureIv := by
    rcases hiv with h | ⟨hno, -⟩
    · exact h
    · rw [hno] at hu
      cases hu
  rfl

/-- The same for wrapped frames. -/
theorem alike_drainWrapped (env : Env κ) (h : Alike asked s t) (hu : s.haveUnsecure = true)
    (fuel : Nat) (buf : List UInt8)
    (hread : ∀ p ∈ (taken (wrappedReceiver env) fuel s buf).filterMap (unwrapped env),
      readsNoRest asked p = true) :
    Alike asked (drain (wrappedReceiver env) fuel s buf).1
        (drain (wrappedReceiver env) fuel t buf).1 ∧
      (drain (wrappedReceiver env) fuel s buf).2 =
        (drain (wrappedReceiver env) fuel t buf).2 := by
  have hsim := drain_sim (R := wrappedReceiver env) (Q := wrappedReceiver env)
    (fun a b => Alike asked a b ∧ a.haveUnsecure = true) (fun a b buf hab => ?_) fuel buf ⟨h, hu⟩
      fun p hp b hab => ?_
  · exact ⟨hsim.1.1, hsim.2⟩
  · obtain ⟨iv, peer, addr, count, rfl, -⟩ := hab.1
    rfl
  · obtain ⟨hpb, hpu⟩ := hab
    show Option.Rel _ ((aesUnwrap env p.1 p.2 rxMax).map _) ((aesUnwrap env b p.2 rxMax).map _)
    rw [← alike_unwrap hpb hpu]
    rcases hun : aesUnwrap env p.1 p.2 rxMax with _ | plain
    · exact .none
    · have hmem : (p.1, innerOf plain) ∈
          (taken (wrappedReceiver env) fuel s buf).filterMap (unwrapped env) :=
        List.mem_filterMap.mpr ⟨p, hp, by rw [unwrapped, hun]; rfl⟩
      have halike := alike_handle env hpb (hread _ hmem)
      rw [handleInner_innerOf, handleInner_innerOf] at halike
      refine .some ⟨halike, ?_⟩
      unfold dispatchInner
      split
      · exact (kexMove_handleKex p.1 plain).unsecure hpu
      · obtain ⟨log, hl⟩ := handleModbus_log p.1 plain
        rw [hl]
        exact hpu

/-- **A notification** that brings no message reading a left-over value keeps two sessions alike. -/
theorem alike_feed (h : Alike asked s t) {data : List UInt8}
    (hread : ∀ p ∈ handedOver env s data, readsNoRest asked p = true) :
    Alike asked (btSessionFeed env s data) (btSessionFeed env t data) := by
  have halike := h
  obtain ⟨iv, peer, addr, count, rfl, -⟩ := h
  have hsame : (s.withRest iv peer addr count).plain = s.plain ∧
      (s.withRest iv peer addr count).rx = s.rx ∧
      (s.withRest iv peer addr count).haveSecure = s.haveSecure ∧
      (s.withRest iv peer addr count).haveUnsecure = s.haveUnsecure := ⟨rfl, rfl, rfl, rfl⟩
  unfold handedOver at hread
  unfold btSessionFeed
  simp only [hsame] at hread ⊢
  split
  · rename_i hp
    simp only [if_pos hp] at hread
    split
    · exact halike.setRx []
    · rename_i hfit
      simp only [if_neg hfit] at hread
      obtain ⟨h1, h2⟩ := alike_drainPlain halike (s.rx ++ data).length
        (s.rx ++ data) fun p hp => hread _ (List.mem_map_of_mem hp)
      have hs := drainPlain_eq (s.rx ++ data).length s (s.rx ++ data)
      have ht := drainPlain_eq (s.rx ++ data).length (s.withRest iv peer addr count) (s.rx ++ data)
      rw [← h2] at ht
      exact hs ▸ ht ▸ h1.setRx _
  rename_i hp
  simp only [if_neg hp] at hread
  split
  · rename_i hkex
    simp only [if_pos hkex] at hread
    exact alike_handle env halike (m := .kex data) (hread _ List.mem_cons_self)
  rename_i hkex
  simp only [if_neg hkex] at hread
  split
  · exact halike
  rename_i hu
  simp only [if_neg hu] at hread
  split
  · exact halike.setRx []
  · rename_i hfit
    simp only [if_neg hfit] at hread
    obtain ⟨h1, h2⟩ := alike_drainWrapped env halike (by simpa using hu)
      (s.rx ++ data).length (s.rx ++ data) hread
    have hs := drainWrapped_eq env (s.rx ++ data).length s (s.rx ++ data)
    have ht := drainWrapped_eq env (s.rx ++ data).length (s.withRest iv peer addr count)
      (s.rx ++ data)
    rw [← h2] at ht
    exact hs ▸ ht ▸ h1.setRx _

theorem alike_sendCmd (h : Alike asked s t) (cmd : List UInt8) :
    (sendCmd env s cmd).1 = (sendCmd env t cmd).1 ∧
      Alike asked (sendCmd env s cmd).2 (sendCmd env t cmd).2 := by
  have halike := h
  obtain ⟨iv, peer, addr, count, rfl, hiv, hpeer, haddr⟩ := h
  have hsame : (s.withRest iv peer addr count).plain = s.plain ∧
      (s.withRest iv peer addr count).secureKey = s.secureKey ∧
      (s.withRest iv peer addr count).draws = s.draws := ⟨rfl, rfl, rfl⟩
  unfold sendCmd aesWrapSeed
  simp only [hsame]
  split
  · exact halike.transmit env cmd
  have hdraw : Alike asked { s with draws := s.draws + 1 }
      { s.withRest iv peer addr count with draws := s.draws + 1 } :=
    ⟨iv, peer, addr, count, rfl, hiv, hpeer, haddr⟩
  rcases wrapUnder env s.secureKey (env.md5 (env.random s.draws))
    (lenBe16 cmd.length ++ env.random s.draws) cmd rxMax with _ | wrapped
  · exact ⟨rfl, hdraw⟩
  · exact hdraw.transmit env wrapped

theorem alike_ready (h : Alike asked s t) : btSessionReady t = btSessionReady s := by
  obtain ⟨iv, peer, addr, count, rfl, -⟩ := h
  rfl

/-- A request sets the address in both sessions, if they are ready. -/
theorem alike_request (h : Alike asked s t) (a n m : UInt16) :
    Alike true { s with pendingAddr := a, pendingCount := n, rx := [] }
      { t with pendingAddr := a, pendingCount := m, rx := [] } := by
  obtain ⟨iv, peer, addr, count, rfl, hiv, hpeer, -⟩ := h
  exact ⟨iv, peer, a, m, rfl, hiv, hpeer, .inl rfl⟩

/-- **A call** that reads no left-over value returns the same in two sessions alike, and keeps them
    alike. -/
theorem alike_apply (env : Env κ) (h : Alike asked s t) (op : SessOp)
    (hread : ∀ data, op = .feed data → ∀ p ∈ handedOver env s data, readsNoRest asked p = true) :
    op.ok env s = op.ok env t ∧
      Alike (asked || op.asks s) (op.apply env s) (op.apply env t) := by
  have hready := alike_ready h
  cases op with
  | feed data =>
      rw [show SessOp.asks s (.feed data) = false from rfl, Bool.or_false]
      exact ⟨rfl, alike_feed h (hread data rfl)⟩
  | readRegs a n =>
      show (btSessionReadRegs env s a n).1 = (btSessionReadRegs env t a n).1 ∧
        Alike (asked || btSessionReady s) (btSessionReadRegs env s a n).2
          (btSessionReadRegs env t a n).2
      unfold btSessionReadRegs
      rw [hready]
      rcases btSessionReady s with _ | _
      · simpa using h
      · simp only [Bool.not_true, Bool.false_eq_true, if_false, Bool.or_true]
        exact alike_sendCmd (alike_request h a n n) _
  | writeReg a v =>
      show (btSessionWriteReg env s a v).1 = (btSessionWriteReg env t a v).1 ∧
        Alike (asked || btSessionReady s) (btSessionWriteReg env s a v).2
          (btSessionWriteReg env t a v).2
      unfold btSessionWriteReg
      rw [hready]
      rcases btSessionReady s with _ | _
      · simpa using h
      · simp only [Bool.not_true, Bool.false_eq_true, if_false, Bool.or_true]
        exact alike_sendCmd (alike_request h a s.pendingCount t.pendingCount) _
  | usePlain =>
      refine ⟨rfl, ?_⟩
      rw [show SessOp.asks s .usePlain = false from rfl, Bool.or_false]
      show Alike asked (btSessionUsePlain s) (btSessionUsePlain t)
      obtain ⟨iv, peer, addr, count, rfl, hiv, hpeer, haddr⟩ := h
      unfold btSessionUsePlain
      have hstate : (s.withRest iv peer addr count).state = s.state := rfl
      rw [hstate]
      split
      · exact ⟨iv, peer, addr, count, rfl, hiv, hpeer, haddr⟩
      · exact ⟨iv, peer, addr, count, rfl, hiv, hpeer, haddr⟩

theorem seenAfter_alike (h : Alike asked s t) (ok : Bool) : seenAfter s ok = seenAfter t ok := by
  obtain ⟨iv, peer, addr, count, rfl, -⟩ := h
  rfl

theorem seen_alike (h : Alike asked s t) {ops : List SessOp}
    (hread : noRestRead env asked s ops = true) : seen env s ops = seen env t ops := by
  induction ops generalizing asked s t with
  | nil => rfl
  | cons op ops ih =>
      obtain ⟨hop, hops⟩ := Bool.and_eq_true_iff.mp hread
      obtain ⟨hok, hnext⟩ := alike_apply env h op fun data hd => by
        rw [hd] at hop
        exact List.all_eq_true.mp hop
      rw [seen, seen, hok, seenAfter_alike hnext, ih hnext hops]

/-- **A reset drops what was negotiated**: in any session, whatever follows, a run after the reset
    shows exactly what it shows on a new session, where no message of it reads a left-over value. -/
theorem seen_reset (env : Env κ) (s : BtSession κ) (ops : List SessOp)
    (hread : noRestRead env false (sessStart s) ops = true) :
    seen env (sessStart s) ops = seen env (newLike s) ops :=
  seen_alike (alike_start s) hread

/-- A session that has read register 102 of an unencrypted unit. -/
def askedOnce : List SessCall := [.op .usePlain, .op (.readRegs 102 1)]

/-- After its reset a handshake, a read and its answer, as on a new session. -/
theorem seen_reset_handshake :
    let s := sessAfter toyEnv askedOnce
    let ops := [challengeMsg [1, 2, 3, 4], peerPubkeyMsg, pubkeyAcceptedMsg, .readRegs 146 1]
    seen toyEnv (sessStart s) ops = seen toyEnv (newLike s) ops :=
  seen_reset toyEnv (sessAfter toyEnv askedOnce) _ (by decide +kernel)

/-- The addresses of the register data called back. -/
def labels (l : List (Seen κ)) : List (List UInt16) :=
  l.map fun o => o.left.filterMap fun e => match e with
    | .regs addr _ => some addr
    | _ => none

/-- **A reset session labels an unasked answer with the read of the session before**: 102, where a
    new session has no address yet. -/
theorem reset_shows_history :
    let s := sessAfter toyEnv askedOnce
    let ops : List SessOp := [.usePlain, .feed (readReply [0, 75])]
    Reachable toyEnv s ∧ seen toyEnv (sessStart s) ops ≠ seen toyEnv (newLike s) ops := by
  refine ⟨reachable_after toyEnv askedOnce, fun h => ?_⟩
  have hlabels := congrArg labels h
  have h102 : labels (seen toyEnv (sessStart (sessAfter toyEnv askedOnce))
      [.usePlain, .feed (readReply [0, 75])]) = [[], [102]] := by decide +kernel
  have h0 : labels (seen toyEnv (newLike (sessAfter toyEnv askedOnce))
      [.usePlain, .feed (readReply [0, 75])]) = [[], [0]] := by decide +kernel
  rw [h102, h0] at hlabels
  exact absurd hlabels (by decide)

end NutBluetti.Ble
