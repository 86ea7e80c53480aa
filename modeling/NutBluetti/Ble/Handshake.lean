/-
  File:      NutBluetti/Ble/Handshake.lean
  Subject:   WHAT THE SECURE KEY IS WORTH. `handle_kex` dispatches on the type of a message alone,
             so the four messages of the key exchange are handled in any order they come in.

  * `Agreed env past k peer` -- the handshake as it is meant: since the latest challenge a peer key
    came with a good signature, our reply with the public half of `k` went out, and nothing failed
    after that;
  * `SecretAgreed` -- at every moment the secure key is computed, it is the ECDH of such a pair;
  * **`secret_without_agreement`** -- a sequence of notifications that breaks it;
  * `AcceptedInOrder` -- the condition: an acceptance is taken only in the states that wait for one,
    and after a challenge;
  * **`secretAgreed_of_inOrder`** -- every run that meets it keeps `SecretAgreed`.
-/
import NutBluetti.Lib.History
import NutBluetti.Ble.SessionFrame

namespace NutBluetti.Ble

open History

variable {κ : Type}

/-! ## 1. Runs -/

/-- What is done to a session between two resets. -/
inductive SessOp where
  | feed (data : List UInt8)
  | readRegs (addr count : UInt16)
  | writeReg (addr value : UInt16)
  | usePlain

def SessOp.apply (env : Env κ) (s : BtSession κ) : SessOp → BtSession κ
  | .feed data => btSessionFeed env s data
  | .readRegs addr count => (btSessionReadRegs env s addr count).2
  | .writeReg addr value => (btSessionWriteReg env s addr value).2
  | .usePlain => btSessionUsePlain s

/-- A session that was just reset, with its history starting there. -/
def sessStart (s : BtSession κ) : BtSession κ :=
  { btSessionReset s with log := [] }

def runSess (env : Env κ) (s : BtSession κ) (ops : List SessOp) : BtSession κ :=
  ops.foldl (SessOp.apply env) s

/-! ## 2. The agreement -/

def SessEvent.IsChallenge : SessEvent κ → Prop
  | .challenge _ => True
  | _ => False

def SessEvent.IsFailure : SessEvent κ → Prop
  | .failed _ => True
  | _ => False

def SessEvent.IsSecure : SessEvent κ → Prop
  | .secure _ _ _ _ _ => True
  | _ => False

/-- The handshake key that goes with an IV. -/
def handshakeKey (iv : List UInt8) : List UInt8 := List.zipWith (· ^^^ ·) iv localAesKey

/-- `reply` is our answer to a peer key under the IV: the public half of `k` and a signature, framed
    and wrapped under the handshake key. -/
def IsPubkeyReply (env : Env κ) (k : κ) (iv reply : List UInt8) : Prop :=
  ∃ pub sig frame, env.keypairPublic k = some pub ∧ pubkeyFrame pub sig = some frame ∧
    aesWrapIv env (handshakeKey iv) iv frame rxMax = some reply

/-- Since the latest challenge of the past, with its IV: a peer key came with a signature that K2
    verifies over the key and that IV, then our reply with the public half of `k` went out, and
    after it nothing failed. -/
def Agreed (env : Env κ) (past : List (SessEvent κ)) (k : κ) (peer : List UInt8) : Prop :=
  ∃ a iv b sig c reply d,
    past = a ++ .challenge iv :: (b ++ .verified peer sig iv :: (c ++ .tx reply true :: d)) ∧
      (∀ e ∈ b ++ c ++ d, ¬ e.IsChallenge) ∧ env.ecdsaVerifyK2 (peer ++ iv) sig = true ∧
      IsPubkeyReply env k iv reply ∧ ∀ e ∈ d, ¬ e.IsFailure

/-- What a computed secret has to come from. -/
def SecretFrom (env : Env κ) (past : List (SessEvent κ)) (e : SessEvent κ) : Prop :=
  ∀ before had kp peer secret, e = .secure before had kp peer secret →
    ∃ k, kp = some k ∧ env.ecdhShared (some k) peer = some secret ∧ Agreed env past k peer

/-- **At every moment the secure key was computed, it was the ECDH of an agreed pair.** -/
def SecretAgreed (env : Env κ) (s : BtSession κ) : Prop :=
  EachMoment (SecretFrom env) s.log

/-- Every acceptance that computed the secure key was taken in the state our key was sent in (or in
    a session already ready), with a challenge since the reset. -/
def AcceptedInOrder (log : List (SessEvent κ)) : Prop :=
  ∀ before had kp peer secret, .secure before had kp peer secret ∈ log →
    (before = .pubkey ∨ before = .ready) ∧ had = true

/-- `AcceptedInOrder`, entry by entry. -/
def SessEvent.inOrder : SessEvent κ → Bool
  | .secure before had _ _ _ => (decide (before = .pubkey) || decide (before = .ready)) && had
  | _ => true

theorem acceptedInOrder_iff {log : List (SessEvent κ)} :
    AcceptedInOrder log ↔ ∀ e ∈ log, e.inOrder = true := by
  constructor
  · intro h e he
    cases e with
    | secure before had kp peer secret =>
        have := h before had kp peer secret he
        simpa [SessEvent.inOrder] using this
    | _ => rfl
  · intro h before had kp peer secret he
    have := h _ he
    simpa [SessEvent.inOrder] using this

instance (log : List (SessEvent κ)) : Decidable (AcceptedInOrder log) :=
  decidable_of_iff _ acceptedInOrder_iff.symm

theorem Agreed.append {env : Env κ} {past m : List (SessEvent κ)} {k : κ} {peer : List UInt8}
    (h : Agreed env past k peer) (hm : ∀ e ∈ m, ¬ e.IsChallenge ∧ ¬ e.IsFailure) :
    Agreed env (past ++ m) k peer := by
  obtain ⟨a, iv, b, sig, c, reply, d, rfl, hch, hv, hr, hf⟩ := h
  refine ⟨a, iv, b, sig, c, reply, d ++ m, by simp, fun e he => ?_, hv, hr, fun e he => ?_⟩
  · rw [← List.append_assoc] at he
    rcases List.mem_append.mp he with he | he
    · exact hch e he
    · exact (hm e he).1
  · rcases List.mem_append.mp he with he | he
    · exact hf e he
    · exact (hm e he).2

theorem AcceptedInOrder.left {l m : List (SessEvent κ)} (h : AcceptedInOrder (l ++ m)) :
    AcceptedInOrder l :=
  fun before had kp peer secret he => h before had kp peer secret (List.mem_append_left m he)

/-! ## 3. The invariant -/

/-- The part of the invariant that a failure keeps: the IV is the latest challenge's, the key goes
    with it, and what was computed in order was agreed. -/
structure Core (env : Env κ) (s : BtSession κ) : Prop where
  iv : s.haveUnsecure = true → Latest SessEvent.IsChallenge s.log (.challenge s.unsecureIv)
  key : s.haveUnsecure = true → s.unsecureKey = handshakeKey s.unsecureIv
  agreed : AcceptedInOrder s.log → SecretAgreed env s

/-- The session has sent its key, or got further, without the plain fallback. -/
def Keyed (s : BtSession κ) : Prop :=
  s.state = .pubkey ∨ s.state = .ready ∧ s.plain = false

/-- **The invariant**: where the session is in the states that wait for an acceptance, and a
    challenge was taken since the reset, the pair it would compute with is agreed. -/
structure HandshakeInv (env : Env κ) (s : BtSession κ) : Prop extends Core env s where
  pair : AcceptedInOrder s.log → Keyed s → s.haveUnsecure = true →
    ∃ k, s.kp = some k ∧ Agreed env s.log k s.peerPub

/-- Entries that say nothing of the handshake: transmissions and callbacks. -/
def SessEvent.IsQuiet : SessEvent κ → Prop
  | .tx _ _ => True
  | .regs _ _ => True
  | .ack _ _ _ => True
  | _ => False

theorem SessEvent.IsQuiet.spec {e : SessEvent κ} (h : e.IsQuiet) :
    ¬ e.IsChallenge ∧ ¬ e.IsFailure ∧ ¬ e.IsSecure := by
  cases e <;> simp_all [SessEvent.IsQuiet, SessEvent.IsChallenge, SessEvent.IsFailure,
    SessEvent.IsSecure]

/-- The fields of the handshake in two sessions, the second further on by quiet entries only. -/
structure QuietStep (s s' : BtSession κ) : Prop where
  log : ∃ m, s'.log = s.log ++ m ∧ ∀ e ∈ m, e.IsQuiet
  state : s'.state = s.state
  plain : s'.plain = s.plain
  unsecureKey : s'.unsecureKey = s.unsecureKey
  unsecureIv : s'.unsecureIv = s.unsecureIv
  haveUnsecure : s'.haveUnsecure = s.haveUnsecure
  kp : s'.kp = s.kp
  peerPub : s'.peerPub = s.peerPub

theorem QuietStep.refl (s : BtSession κ) : QuietStep s s :=
  ⟨⟨[], by simp, by simp⟩, rfl, rfl, rfl, rfl, rfl, rfl, rfl⟩

theorem QuietStep.trans {s s' s'' : BtSession κ} (h : QuietStep s s') (h' : QuietStep s' s'') :
    QuietStep s s'' := by
  obtain ⟨m, hm, hq⟩ := h.log
  obtain ⟨m', hm', hq'⟩ := h'.log
  refine ⟨⟨m ++ m', by rw [hm', hm, List.append_assoc], fun e he => ?_⟩, h'.state.trans h.state,
    h'.plain.trans h.plain, h'.unsecureKey.trans h.unsecureKey, h'.unsecureIv.trans h.unsecureIv,
    h'.haveUnsecure.trans h.haveUnsecure, h'.kp.trans h.kp, h'.peerPub.trans h.peerPub⟩
  rcases List.mem_append.mp he with he | he
  · exact hq e he
  · exact hq' e he

theorem secretFrom_of_not_secure {env : Env κ} {e : SessEvent κ} (h : ¬ e.IsSecure)
    (past : List (SessEvent κ)) : SecretFrom env past e := by
  intro before had kp peer secret he
  rw [he] at h
  exact absurd trivial h

section Inv

variable {env : Env κ} {s s' : BtSession κ}

/-- A quiet step keeps the core. -/
theorem Core.quiet (h : Core env s) (hq : QuietStep s s') : Core env s' := by
  obtain ⟨m, hm, hmq⟩ := hq.log
  refine ⟨fun hu => ?_, fun hu => ?_, fun ho => ?_⟩
  · rw [hm, hq.unsecureIv]
    exact (h.iv (hq.haveUnsecure ▸ hu)).append fun e he => (hmq e he).spec.1
  · rw [hq.unsecureKey, hq.unsecureIv]
    exact h.key (hq.haveUnsecure ▸ hu)
  · rw [hm] at ho
    rw [SecretAgreed, hm]
    exact EachMoment.append (h.agreed ho.left) fun e he past =>
      secretFrom_of_not_secure (hmq e he).spec.2.2 past

/-- A quiet step keeps the invariant. -/
theorem HandshakeInv.quiet (h : HandshakeInv env s) (hq : QuietStep s s') :
    HandshakeInv env s' := by
  refine ⟨h.toCore.quiet hq, fun ho hk hu => ?_⟩
  obtain ⟨m, hm, hmq⟩ := hq.log
  rw [hm] at ho
  have hk' : Keyed s := by
    unfold Keyed at hk ⊢
    rwa [hq.state, hq.plain] at hk
  obtain ⟨k, hkp, ha⟩ := h.pair ho.left hk' (hq.haveUnsecure ▸ hu)
  refine ⟨k, hq.kp.trans hkp, ?_⟩
  rw [hm, hq.peerPub]
  exact ha.append fun e he => ⟨(hmq e he).spec.1, (hmq e he).spec.2.1⟩

/-- The core does not depend on the state, the keypair or the peer key. -/
theorem Core.of_log (h : Core env s) (hlog : s'.log = s.log) (hu : s'.haveUnsecure = s.haveUnsecure)
    (hiv : s'.unsecureIv = s.unsecureIv) (hkey : s'.unsecureKey = s.unsecureKey) : Core env s' := by
  refine ⟨fun h' => ?_, fun h' => ?_, fun ho => ?_⟩
  · rw [hlog, hiv]
    exact h.iv (hu ▸ h')
  · rw [hkey, hiv]
    exact h.key (hu ▸ h')
  · rw [SecretAgreed, hlog]
    exact h.agreed (hlog ▸ ho)

/-- One entry that is neither a challenge nor a secret keeps the core. -/
theorem Core.note (h : Core env s) {e : SessEvent κ} (hc : ¬ e.IsChallenge) (hs : ¬ e.IsSecure) :
    Core env (s.note e) := by
  refine ⟨fun hu => (h.iv hu).append ?_, h.key, fun ho => ?_⟩
  · intro x hx
    exact List.mem_singleton.mp hx ▸ hc
  · exact eachMoment_snoc_iff.mpr
      ⟨h.agreed (AcceptedInOrder.left ho), secretFrom_of_not_secure hs _⟩

/-- **A failure** leaves the session in a state that waits for nothing. -/
theorem Core.sessionFail (h : Core env s) (why : String) :
    HandshakeInv env (sessionFail s why) := by
  have hnote : Core env (s.note (.failed why)) := h.note (fun h => h) (fun h => h)
  refine ⟨hnote.of_log rfl rfl rfl rfl, fun _ hk => ?_⟩
  rcases hk with hk | hk
  · cases hk
  · cases hk.1

theorem quietStep_transmit (env : Env κ) (s : BtSession κ) (bytes : List UInt8) :
    QuietStep s (transmit env s bytes).2 :=
  ⟨⟨[.tx bytes (env.txOk s.txs)], rfl, fun _ he => List.mem_singleton.mp he ▸ trivial⟩,
    rfl, rfl, rfl, rfl, rfl, rfl, rfl⟩

/-- A transmission is a quiet step, and the newest entry of the history says how it went. -/
theorem transmit_spec {bytes : List UInt8} {ok : Bool} (h : transmit env s bytes = (ok, s')) :
    QuietStep s s' ∧ s'.log = s.log ++ [.tx bytes ok] := by
  have hq := quietStep_transmit env s bytes
  rw [h] at hq
  obtain ⟨rfl, rfl⟩ := Prod.mk.inj h
  exact ⟨hq, rfl⟩

/-! ## 4. The handlers -/

/-- A challenge starts over: whatever was agreed before counts no more. -/
theorem Core.onChallenge (h : Core env s) (data : List UInt8) (len : Nat) :
    HandshakeInv env (onChallenge env s data len) := by
  unfold Ble.onChallenge
  split
  · exact h.sessionFail _
  · have h1 : Core env { s.note (.challenge (env.md5 (data.take 4).reverse)) with
        unsecureIv := env.md5 (data.take 4).reverse
        unsecureKey := List.zipWith (· ^^^ ·) (env.md5 (data.take 4).reverse) localAesKey
        haveUnsecure := true } := by
      refine ⟨fun _ => latest_snoc trivial _, fun _ => rfl, fun ho => ?_⟩
      exact eachMoment_snoc_iff.mpr ⟨h.agreed (AcceptedInOrder.left ho),
        secretFrom_of_not_secure (e := .challenge _) (fun h => h) _⟩
    simp only
    split
    · exact h1.sessionFail _
    · split
      · rename_i s' ht
        exact (h1.quiet (transmit_spec ht).1).sessionFail _
      · rename_i s' ht
        refine ⟨(h1.quiet (transmit_spec ht).1).of_log rfl rfl rfl rfl, fun _ hk => ?_⟩
        rcases hk with hk | hk
        · cases hk
        · cases hk.1

/-- Since the latest challenge, the peer key in hand came with a good signature. -/
def PeerVerified (env : Env κ) (s : BtSession κ) : Prop :=
  ∃ a b sig c, s.log = a ++ .challenge s.unsecureIv ::
      (b ++ .verified s.peerPub sig s.unsecureIv :: c) ∧
    (∀ e ∈ b ++ c, ¬ e.IsChallenge) ∧ env.ecdsaVerifyK2 (s.peerPub ++ s.unsecureIv) sig = true

/-- Our reply to a verified key: it is sent, or the handshake fails. -/
theorem Core.replyPubkey (h : Core env s) {kp : κ} (hkp : s.kp = some kp)
    (hv : s.haveUnsecure = true → PeerVerified env s) :
    HandshakeInv env (replyPubkey env s kp) := by
  unfold Ble.replyPubkey
  split
  · exact h.sessionFail _
  rename_i pub hpub
  have hdraw : Core env { s with draws := s.draws + 1 } := h.of_log rfl rfl rfl rfl
  split
  · exact hdraw.sessionFail _
  rename_i sig _
  simp only
  split
  · exact hdraw.sessionFail _
  rename_i frame hframe
  split
  · exact hdraw.sessionFail _
  rename_i reply hreply
  have h1 : Core env { s with draws := s.draws + 1, pubkeyReply := reply } :=
    h.of_log rfl rfl rfl rfl
  split
  · rename_i s' ht
    exact (h1.quiet (transmit_spec ht).1).sessionFail _
  · rename_i s' ht
    obtain ⟨hq, hlog'⟩ := transmit_spec ht
    refine ⟨(h1.quiet hq).of_log rfl rfl rfl rfl, fun _ _ hu => ?_⟩
    have hu' : s.haveUnsecure = true := hq.haveUnsecure ▸ hu
    obtain ⟨a, b, sg, c, hlog, hch, hver⟩ := hv hu'
    refine ⟨kp, hq.kp.trans hkp, a, s.unsecureIv, b, sg, c, reply, [],
      ?_, by simpa using hch, ?_, ?_, by simp⟩
    · show s'.log = _
      rw [hlog', hlog, hq.peerPub]
      simp
    · rw [hq.peerPub]
      exact hver
    · refine ⟨pub, sig, frame, hpub, hframe, ?_⟩
      rw [← h.key hu']
      exact hreply

/-- A peer key is answered from the cache, or verified and answered afresh. -/
theorem HandshakeInv.onPeerPubkey (h : HandshakeInv env s) (data : List UInt8) (len : Nat) :
    HandshakeInv env (onPeerPubkey env s data len) := by
  unfold Ble.onPeerPubkey
  split
  · exact h.toCore.sessionFail _
  simp only
  split
  · exact h.quiet (quietStep_transmit env s s.pubkeyReply)
  split
  · exact h.toCore.sessionFail _
  rename_i hver
  have hver : env.ecdsaVerifyK2 (data.take btP256Publen ++ s.unsecureIv)
      ((data.drop btP256Publen).take btP256Siglen) = true := by simpa using hver
  have h1 : Core env (s.note (.verified (data.take btP256Publen)
      ((data.drop btP256Publen).take btP256Siglen) s.unsecureIv)) :=
    h.toCore.note (fun h => h) (fun h => h)
  -- the signature was made over the IV of the latest challenge, if there was one
  have hv : s.haveUnsecure = true → ∃ a b sig c,
      s.log ++ [.verified (data.take btP256Publen) ((data.drop btP256Publen).take btP256Siglen)
        s.unsecureIv] = a ++ .challenge s.unsecureIv ::
          (b ++ .verified (data.take btP256Publen) sig s.unsecureIv :: c) ∧
        (∀ e ∈ b ++ c, ¬ e.IsChallenge) ∧
        env.ecdsaVerifyK2 (data.take btP256Publen ++ s.unsecureIv) sig = true := by
    intro hu
    obtain ⟨-, a, b, hlog, hb⟩ := h.iv hu
    refine ⟨a, b, (data.drop btP256Publen).take btP256Siglen, [], ?_, by simpa using hb, hver⟩
    rw [hlog]
    simp
  split
  · rename_i kp hkp
    have h2 : Core env { s.note (.verified (data.take btP256Publen)
        ((data.drop btP256Publen).take btP256Siglen) s.unsecureIv) with
          peerPub := data.take btP256Publen } := h1.of_log rfl rfl rfl rfl
    exact h2.replyPubkey hkp hv
  · have h2 : Core env { s.note (.verified (data.take btP256Publen)
        ((data.drop btP256Publen).take btP256Siglen) s.unsecureIv) with
          peerPub := data.take btP256Publen
          kp := env.keypairNew s.draws
          draws := s.draws + 1 } := h1.of_log rfl rfl rfl rfl
    split
    · exact h2.sessionFail _
    · rename_i kp hkp
      exact h2.replyPubkey hkp hv

/-- **The acceptance**: taken in order, it computes the secret of the agreed pair. -/
theorem HandshakeInv.onPubkeyAccepted (h : HandshakeInv env s) (hplain : s.plain = false)
    (data : List UInt8) (len : Nat) : HandshakeInv env (onPubkeyAccepted env s data len) := by
  unfold Ble.onPubkeyAccepted
  split
  · exact h.toCore.sessionFail _
  split
  · exact h.toCore.sessionFail _
  rename_i secret hsecret
  -- in order, the session was waiting for this acceptance, and its pair is agreed
  have hpair : AcceptedInOrder (s.log ++
      [.secure s.state s.haveUnsecure s.kp s.peerPub secret]) →
      ∃ k, s.kp = some k ∧ Agreed env s.log k s.peerPub := by
    intro ho
    obtain ⟨hst, hu⟩ := ho s.state s.haveUnsecure s.kp s.peerPub secret (by simp)
    exact h.pair ho.left (hst.imp id fun hr => ⟨hr, hplain⟩) hu
  refine ⟨⟨fun hu => (h.iv hu).append ?_, h.key, fun ho => ?_⟩, fun ho _ _ => ?_⟩
  · intro x hx
    exact List.mem_singleton.mp hx ▸ fun h => h
  · refine eachMoment_snoc_iff.mpr ⟨h.agreed (AcceptedInOrder.left ho), ?_⟩
    intro before had kp peer secret' he
    obtain ⟨rfl, rfl, rfl, rfl, rfl⟩ : s.state = before ∧ s.haveUnsecure = had ∧ s.kp = kp ∧
        s.peerPub = peer ∧ secret = secret' := by simpa using he
    obtain ⟨k, hk, ha⟩ := hpair ho
    exact ⟨k, hk, hk ▸ hsecret, ha⟩
  · obtain ⟨k, hk, ha⟩ := hpair ho
    refine ⟨k, hk, ha.append fun e he => ?_⟩
    rw [List.mem_singleton.mp he]
    exact ⟨fun h => h, fun h => h⟩

/-! ## 5. Notifications -/

theorem quietStep_note {e : SessEvent κ} (he : e.IsQuiet) (s : BtSession κ) :
    QuietStep s (s.note e) :=
  ⟨⟨[e], rfl, fun _ hx => List.mem_singleton.mp hx ▸ he⟩, rfl, rfl, rfl, rfl, rfl, rfl, rfl⟩

theorem quietStep_rx (s : BtSession κ) (rx : List UInt8) : QuietStep s { s with rx := rx } :=
  ⟨⟨[], by simp, by simp⟩, rfl, rfl, rfl, rfl, rfl, rfl, rfl⟩

/-- A Modbus frame touches nothing of the handshake. -/
theorem quietStep_handleModbus (s : BtSession κ) (f : List UInt8) :
    QuietStep s (handleModbus s f) := by
  unfold handleModbus
  split
  · exact .refl s
  simp only
  split
  · exact quietStep_note (e := .ack _ _ _) trivial s
  split
  · exact .refl s
  split
  · exact .refl s
  split
  · exact .refl s
  · exact quietStep_note (e := .regs _ _) trivial s

theorem quietStep_drainPlain (fuel : Nat) (s : BtSession κ) : QuietStep s (drainPlain fuel s) := by
  induction fuel generalizing s with
  | zero => exact .refl s
  | succ fuel ih =>
      unfold drainPlain
      split
      · exact .refl s
      simp only
      split
      · exact .refl s
      · exact ((quietStep_handleModbus s _).trans (quietStep_rx _ _)).trans (ih _)

/-- The invariant, in a session that is not in plain mode. -/
def EncryptedInv (env : Env κ) (s : BtSession κ) : Prop :=
  HandshakeInv env s ∧ s.plain = false

theorem EncryptedInv.quiet (h : EncryptedInv env s) (hq : QuietStep s s') : EncryptedInv env s' :=
  ⟨h.1.quiet hq, hq.plain.trans h.2⟩

/-- **A key-exchange frame**, whatever its type, keeps the invariant. -/
theorem EncryptedInv.handleKex (h : EncryptedInv env s) (frame : List UInt8) :
    EncryptedInv env (handleKex env s frame) := by
  refine ⟨?_, (kexFrame_handleKex s frame).plain.trans h.2⟩
  unfold Ble.handleKex
  split
  · exact h.1
  simp only
  split
  · exact h.1
  split
  · exact h.1.toCore.onChallenge _ _
  split
  · exact h.1.onPeerPubkey _ _
  split
  · exact h.1.onPubkeyAccepted h.2 _ _
  · exact h.1

theorem EncryptedInv.dispatchInner (h : EncryptedInv env s) (plain : List UInt8) :
    EncryptedInv env (dispatchInner env s plain) := by
  unfold Ble.dispatchInner
  split
  · exact h.handleKex plain
  · exact h.quiet (quietStep_handleModbus s plain)

theorem EncryptedInv.drainWrapped (h : EncryptedInv env s) (fuel : Nat) :
    EncryptedInv env (drainWrapped env fuel s) := by
  induction fuel generalizing s with
  | zero => exact h
  | succ fuel ih =>
      unfold Ble.drainWrapped
      simp only
      split
      · exact h
      split
      · exact h.quiet (quietStep_rx s [])
      · rename_i plain _
        have h1 : EncryptedInv env { s with rx := s.rx.drop (framedLen s.haveSecure s.rx) } :=
          h.quiet (quietStep_rx s _)
        split
        · exact h1.dispatchInner plain
        · exact ih (h1.dispatchInner plain)

/-- **One notification** keeps the invariant. -/
theorem HandshakeInv.feed (h : HandshakeInv env s) (data : List UInt8) :
    HandshakeInv env (btSessionFeed env s data) := by
  unfold btSessionFeed
  split
  · split
    · exact h.quiet (quietStep_rx s [])
    · exact h.quiet ((quietStep_rx s _).trans (quietStep_drainPlain _ _))
  rename_i hplain
  have he : EncryptedInv env s := ⟨h, by simpa using hplain⟩
  split
  · exact (he.handleKex data).1
  split
  · exact h
  split
  · exact h.quiet (quietStep_rx s [])
  · exact ((he.quiet (quietStep_rx s _)).drainWrapped _).1

/-- A command changes nothing of the handshake. -/
theorem quietStep_sendCmd (s : BtSession κ) (cmd : List UInt8) :
    QuietStep s (sendCmd env s cmd).2 := by
  unfold sendCmd
  split
  · exact quietStep_transmit env s cmd
  · have hdraw : QuietStep s { s with draws := s.draws + 1 } :=
      ⟨⟨[], by simp, by simp⟩, rfl, rfl, rfl, rfl, rfl, rfl, rfl⟩
    unfold aesWrapSeed
    simp only
    split
    · rename_i s' hw
      obtain ⟨-, rfl⟩ := Prod.mk.inj hw
      exact hdraw
    · rename_i s' hw
      obtain ⟨-, rfl⟩ := Prod.mk.inj hw
      exact hdraw.trans (quietStep_transmit env _ _)

theorem quietStep_readRegs (s : BtSession κ) (addr count : UInt16) :
    QuietStep s (btSessionReadRegs env s addr count).2 := by
  unfold btSessionReadRegs
  split
  · exact .refl s
  · have hset : QuietStep s { s with pendingAddr := addr, pendingCount := count, rx := [] } :=
      ⟨⟨[], by simp, by simp⟩, rfl, rfl, rfl, rfl, rfl, rfl, rfl⟩
    exact hset.trans (quietStep_sendCmd _ _)

theorem quietStep_writeReg (s : BtSession κ) (addr value : UInt16) :
    QuietStep s (btSessionWriteReg env s addr value).2 := by
  unfold btSessionWriteReg
  split
  · exact .refl s
  · have hset : QuietStep s { s with pendingAddr := addr, rx := [] } :=
      ⟨⟨[], by simp, by simp⟩, rfl, rfl, rfl, rfl, rfl, rfl, rfl⟩
    exact hset.trans (quietStep_sendCmd _ _)

/-- **Every operation** keeps the invariant. -/
theorem HandshakeInv.apply (h : HandshakeInv env s) (op : SessOp) :
    HandshakeInv env (op.apply env s) := by
  cases op with
  | feed data => exact h.feed data
  | readRegs addr count => exact h.quiet (quietStep_readRegs s addr count)
  | writeReg addr value => exact h.quiet (quietStep_writeReg s addr value)
  | usePlain =>
      show HandshakeInv env (btSessionUsePlain s)
      unfold btSessionUsePlain
      split
      · exact h
      · refine ⟨h.toCore.of_log rfl rfl rfl rfl, fun _ hk => ?_⟩
        rcases hk with hk | hk
        · cases hk
        · cases hk.2

end Inv

theorem handshakeInv_start (env : Env κ) (s : BtSession κ) : HandshakeInv env (sessStart s) := by
  refine ⟨⟨fun hu => ?_, fun hu => ?_, fun _ => eachMoment_nil _⟩, fun _ hk => ?_⟩
  · cases hu
  · cases hu
  · rcases hk with hk | hk
    · cases hk
    · cases hk.1

theorem handshakeInv_run (env : Env κ) (s : BtSession κ) (ops : List SessOp) :
    HandshakeInv env (runSess env (sessStart s) ops) := by
  have hrun : ∀ (s : BtSession κ) (ops : List SessOp), HandshakeInv env s →
      HandshakeInv env (runSess env s ops) := by
    intro s ops
    induction ops generalizing s with
    | nil => exact fun h => h
    | cons op ops ih => exact fun h => ih _ (h.apply op)
  exact hrun _ ops (handshakeInv_start env s)

/-- **The secure key is the ECDH of an agreed pair**, from a new or just reset session, for any
    cryptography and any notifications, commands and lost transmissions, in every run whose
    acceptances are taken in order. -/
theorem secretAgreed_of_inOrder (env : Env κ) (s : BtSession κ) (ops : List SessOp)
    (ho : AcceptedInOrder (runSess env (sessStart s) ops).log) :
    SecretAgreed env (runSess env (sessStart s) ops) :=
  (handshakeInv_run env s ops).agreed ho

/-! ## 6. Two handshakes -/

/-- A key-exchange frame as the unit sends it in the clear. -/
def kexNotification (body : List UInt8) : SessOp :=
  .feed (kexMagic ++ body ++ hexsum body)

def challengeMsg (c : List UInt8) : SessOp := kexNotification ([msgChallenge, 4] ++ c)

/-- A peer key, signed as `toyEnv` signs. -/
def peerPubkeyMsg : SessOp :=
  kexNotification ([msgPeerPubkey, 0x80] ++ List.replicate 64 7 ++ List.replicate 64 7)

def pubkeyAcceptedMsg : SessOp := kexNotification [msgPubkeyAccepted, 1, 0]

/-- The handshake as it is meant. -/
theorem secretAgreed_of_inOrder_handshake :
    let ops := [challengeMsg [1, 2, 3, 4], peerPubkeyMsg, pubkeyAcceptedMsg]
    btSessionReady (runSess toyEnv (sessStart btSessionNew) ops) = true ∧
      SecretAgreed toyEnv (runSess toyEnv (sessStart btSessionNew) ops) :=
  ⟨by decide +kernel, secretAgreed_of_inOrder toyEnv btSessionNew _ (by decide +kernel)⟩

def SessEvent.isChallenge : SessEvent κ → Bool
  | .challenge _ => true
  | _ => false

def SessEvent.isVerified : SessEvent κ → Bool
  | .verified _ _ _ => true
  | _ => false

def SessEvent.isSecure : SessEvent κ → Bool
  | .secure _ _ _ _ _ => true
  | _ => false

/-- An agreed pair has a verified key since the latest challenge. -/
theorem Agreed.verified_since {env : Env κ} {past : List (SessEvent κ)} {k : κ} {peer : List UInt8}
    (h : Agreed env past k peer) :
    (past.reverse.takeWhile fun e => !e.isChallenge).any SessEvent.isVerified = true := by
  obtain ⟨a, iv, b, sig, c, reply, d, rfl, hch, -, -, -⟩ := h
  have hrest : ∀ e ∈ (b ++ .verified peer sig iv :: (c ++ .tx reply true :: d)).reverse,
      (!e.isChallenge) = true := by
    intro e he
    have hno : ¬ e.IsChallenge := by
      simp only [List.mem_reverse, List.mem_append, List.mem_cons] at he
      rcases he with he | rfl | he | rfl | he
      · exact hch e (by simp [he])
      · exact fun h => h
      · exact hch e (by simp [he])
      · exact fun h => h
      · exact hch e (by simp [he])
    cases e <;> first | rfl | exact absurd trivial hno
  have hsplit : (a ++ .challenge iv ::
      (b ++ .verified peer sig iv :: (c ++ .tx reply true :: d))).reverse =
        (b ++ .verified peer sig iv :: (c ++ .tx reply true :: d)).reverse ++
          .challenge iv :: a.reverse := by simp
  rw [hsplit, List.takeWhile_append_of_pos hrest, List.any_append, List.any_reverse,
    List.any_append, List.any_cons]
  simp [SessEvent.isVerified]

/-- A second challenge after the key was verified, and then the acceptance. -/
def rechallenged : List SessOp :=
  [challengeMsg [1, 2, 3, 4], peerPubkeyMsg, challengeMsg [5, 6, 7, 8], pubkeyAcceptedMsg]

/-- **A session goes ready with a key no signature since the latest challenge vouches for**: the
    acceptance is taken in the state the second challenge left. -/
theorem secret_without_agreement :
    btSessionReady (runSess toyEnv (sessStart btSessionNew) rechallenged) = true ∧
      ¬ SecretAgreed toyEnv (runSess toyEnv (sessStart btSessionNew) rechallenged) := by
  refine ⟨by decide +kernel, fun hall => ?_⟩
  have hlast : (runSess toyEnv (sessStart btSessionNew) rechallenged).log.getLast?.map
      SessEvent.isSecure = some true := by decide +kernel
  have hsince :
      ((runSess toyEnv (sessStart btSessionNew) rechallenged).log.dropLast.reverse.takeWhile
      fun e => !e.isChallenge).any SessEvent.isVerified = false := by decide +kernel
  obtain ⟨e, he, hsec⟩ := Option.map_eq_some_iff.mp hlast
  have hsplit := List.dropLast_append_getLast? e he
  cases e with
  | secure before had kp peer secret =>
      obtain ⟨k, -, -, ha⟩ := hall _ _ [] hsplit.symm before had kp peer secret rfl
      rw [ha.verified_since] at hsince
      cases hsince
  | _ => cases hsec

end NutBluetti.Ble
