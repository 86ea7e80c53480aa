/-
  File:      NutBluetti/Ble/KexReplies.lean
  Subject:   WHAT OUR KEY IS SENT UNDER. `on_peer_pubkey` answers a repeat from the cache;
             `on_challenge` replaces the IV and the key that the cached reply was made with, and
             keeps the cache.

  * `handedOverRun` -- the messages of a run, each with the session it meets;
  * `RepliesRight` -- every reply to a peer key carries one public key, and is signed over and
    wrapped under what the latest challenge gives;
  * `repliesMade` -- the replies made so far, each with its IV, read off the history;
  * `UnderLatest` -- the condition on a message: it is answered after a challenge, and from the
    cache only with a reply made under the IV now in force;
  * **`repliesRight_of_underLatest`** -- every run whose messages all meet it has the right replies;
  * **`stale_reply`** -- a challenge between two requests with one key.
-/
import NutBluetti.Ble.Handshake
import NutBluetti.Ble.SessionGate

namespace NutBluetti.Ble

open History

variable {κ : Type} {env : Env κ} {s s' : BtSession κ}

/-! ## 1. The messages of a run and the replies -/

/-- The messages that are handed over in a run, each with the session it meets. -/
def handedOverRun (env : Env κ) : BtSession κ → List SessOp → List (BtSession κ × Inner)
  | _, [] => []
  | s, op :: ops =>
      (match op with
        | .feed data => handedOver env s data
        | _ => []) ++ handedOverRun env (op.apply env s) ops

/-- Data and length of a message with a peer key. -/
def peerPubkeyOf : Inner → Option (List UInt8 × Nat)
  | .kex frame =>
      match kexOf frame with
      | some (type, data, len) => if type = msgPeerPubkey then some (data, len) else none
      | none => none
  | .modbus _ => none

def SessEvent.sent : SessEvent κ → Option (List UInt8)
  | .tx bytes _ => some bytes
  | _ => none

/-- What the session transmits when it handles a message. -/
def sentBy (env : Env κ) (s : BtSession κ) (m : Inner) : List (List UInt8) :=
  ((handleInner env s m).log.drop s.log.length).filterMap SessEvent.sent

def SessEvent.challengeIv : SessEvent κ → Option (List UInt8)
  | .challenge iv => some iv
  | _ => none

/-- The IV of the latest challenge. -/
def latestIv (log : List (SessEvent κ)) : Option (List UInt8) :=
  log.reverse.findSome? SessEvent.challengeIv

/-- `bytes` is a reply with the public key `pub`, signed over it and the IV, and wrapped under the
    IV and the key that goes with it. -/
def ReplyUnder (env : Env κ) (pub iv bytes : List UInt8) : Prop :=
  ∃ draw sig frame, env.ecdsaSignL1 draw (pub ++ iv) = some sig ∧ pubkeyFrame pub sig = some frame ∧
    aesWrapIv env (handshakeKey iv) iv frame rxMax = some bytes

/-- Whatever a peer key is answered with is made with `pub` under the latest challenge. -/
def RepliedRight (env : Env κ) (pub : List UInt8) (s : BtSession κ) (m : Inner) : Prop :=
  (peerPubkeyOf m).isSome → ∀ bytes ∈ sentBy env s m,
    ∃ iv, latestIv s.log = some iv ∧ ReplyUnder env pub iv bytes

/-- **Every reply of a run** carries the same public key, under the challenge that was the latest
    then. -/
def RepliesRight (env : Env κ) (s : BtSession κ) (ops : List SessOp) : Prop :=
  ∃ pub, ∀ p ∈ handedOverRun env s ops, RepliedRight env pub p.1 p.2

/-! ## 2. The condition -/

/-- The replies made so far, each with the IV its peer key was verified with. -/
def repliesMade : List (SessEvent κ) → List (List UInt8 × List UInt8)
  | .verified _ _ iv :: .tx reply _ :: log => (iv, reply) :: repliesMade log
  | _ :: log => repliesMade log
  | [] => []

/-- The test of `on_peer_pubkey` for a repeat. -/
def IsRepeat (s : BtSession κ) (data : List UInt8) : Prop :=
  s.kp.isSome ∧ s.pubkeyReply ≠ [] ∧ s.peerPub = data.take btP256Publen

instance (s : BtSession κ) (data : List UInt8) : Decidable (IsRepeat s data) :=
  inferInstanceAs (Decidable (_ ∧ _ ∧ _))

/-- A peer key that gets an answer: a repeat, or one with a good signature. -/
def Answered (env : Env κ) (s : BtSession κ) (data : List UInt8) : Prop :=
  IsRepeat s data ∨ env.ecdsaVerifyK2 (data.take btP256Publen ++ s.unsecureIv)
    ((data.drop btP256Publen).take btP256Siglen) = true

instance (s : BtSession κ) (data : List UInt8) : Decidable (Answered env s data) :=
  inferInstanceAs (Decidable (_ ∨ _))

/-- **The condition on a message**: a peer key is answered only after a challenge, and a repeat only
    where the cached reply was made under the IV in force. -/
def UnderLatest (env : Env κ) (s : BtSession κ) (m : Inner) : Prop :=
  ∀ q ∈ peerPubkeyOf m, q.2 = 128 → (Answered env s q.1 → s.haveUnsecure = true) ∧
    (IsRepeat s q.1 → (s.unsecureIv, s.pubkeyReply) ∈ repliesMade s.log)

instance (s : BtSession κ) (m : Inner) : Decidable (UnderLatest env s m) :=
  inferInstanceAs (Decidable (∀ q ∈ peerPubkeyOf m, _))

/-! ## 3. The history -/

theorem latestIv_of_latest {log : List (SessEvent κ)} {iv : List UInt8}
    (h : Latest SessEvent.IsChallenge log (.challenge iv)) : latestIv log = some iv := by
  obtain ⟨-, pre, post, rfl, hpost⟩ := h
  have hnone : post.reverse.findSome? SessEvent.challengeIv = none := by
    refine List.findSome?_eq_none_iff.mpr fun e he => ?_
    have hno := hpost e (List.mem_reverse.mp he)
    cases e <;> first | rfl | exact absurd trivial hno
  unfold latestIv
  rw [List.reverse_append, List.reverse_cons, List.findSome?_append, List.findSome?_append, hnone]
  rfl

/-- No verified key waits for its reply at the end of the history. -/
def Closed (log : List (SessEvent κ)) : Prop :=
  ∀ past e, log = past ++ [e] → e.isVerified = false

theorem closed_of_last {m : List (SessEvent κ)} (hm : ∀ e ∈ m, e.isVerified = false) (hne : m ≠ [])
    (log : List (SessEvent κ)) : Closed (log ++ m) := by
  intro past e he
  rcases List.eq_nil_or_concat m with rfl | ⟨m, last, rfl⟩
  · exact absurd rfl hne
  · rw [List.concat_eq_append, ← List.append_assoc] at he
    obtain ⟨-, hlast⟩ := List.append_inj' he rfl
    rw [← List.head_eq_of_cons_eq hlast]
    exact hm last (by simp)

theorem Closed.append {log m : List (SessEvent κ)} (h : Closed log)
    (hm : ∀ e ∈ m, e.isVerified = false) : Closed (log ++ m) := by
  by_cases hne : m = []
  · rw [hne, List.append_nil]
    exact h
  · exact closed_of_last hm hne log

/-- Replies are made by the steps of a closed history and by what follows it, each on its own. -/
theorem repliesMade_append {log m : List (SessEvent κ)} (h : Closed log) :
    repliesMade (log ++ m) = repliesMade log ++ repliesMade m := by
  fun_induction repliesMade log with
  | case1 key sig iv reply ok log ih =>
      have hlog : Closed log := fun past e he => h (_ :: _ :: past) e (by rw [he]; rfl)
      rw [List.cons_append, List.cons_append, repliesMade, ih hlog]
      rfl
  | case2 e log hne ih =>
      have hlog : Closed log := fun past e he => h (_ :: past) e (by rw [he]; rfl)
      rw [List.cons_append, repliesMade, ih hlog]
      rintro key sig iv reply ok rest rfl hrest
      cases log with
      | nil => cases h [] _ rfl
      | cons x log =>
          obtain ⟨rfl, -⟩ := List.cons.inj hrest
          exact hne _ _ _ _ _ _ rfl rfl
  | case3 => rfl

theorem repliesMade_eq_nil {m : List (SessEvent κ)} (hm : ∀ e ∈ m, e.isVerified = false) :
    repliesMade m = [] := by
  fun_induction repliesMade m with
  | case1 key sig iv reply ok log ih => cases hm _ List.mem_cons_self
  | case2 e log hne ih => exact ih fun e he => hm e (List.mem_cons_of_mem _ he)
  | case3 => rfl

/-- The reply to a verified key is the transmission right behind it. -/
theorem repliesMade_verified {key sig iv : List UInt8} {m : List (SessEvent κ)}
    (hm : ∀ e ∈ m, e.isVerified = false) {q : List UInt8 × List UInt8}
    (hq : q ∈ repliesMade (.verified key sig iv :: m)) :
    q.1 = iv ∧ q.2 ∈ m.filterMap SessEvent.sent := by
  have hrest := repliesMade_eq_nil hm
  cases m with
  | nil => cases hq
  | cons e m =>
      have hm' := repliesMade_eq_nil fun x hx => hm x (List.mem_cons_of_mem e hx)
      cases e with
      | tx reply ok =>
          rw [repliesMade, hm', List.mem_singleton] at hq
          rw [hq]
          exact ⟨rfl, List.mem_cons_self⟩
      | _ =>
          rw [repliesMade, hrest] at hq
          · cases hq
          · rintro _ _ _ _ _ _ _ h
            cases h

/-! ## 4. What the handlers log -/

/-- A step that verifies no peer key, and keeps the keypair. -/
structure Unverified (s s' : BtSession κ) : Prop where
  log : ∃ m, s'.log = s.log ++ m ∧ ∀ e ∈ m, e.isVerified = false
  kp : s'.kp = s.kp

theorem Unverified.of_log (hl : s'.log = s.log) (hk : s'.kp = s.kp) : Unverified s s' :=
  ⟨⟨[], by simp [hl], by simp⟩, hk⟩

theorem Unverified.trans {s'' : BtSession κ} (h : Unverified s s') (h' : Unverified s' s'') :
    Unverified s s'' := by
  obtain ⟨m, hm, hq⟩ := h.log
  obtain ⟨m', hm', hq'⟩ := h'.log
  refine ⟨⟨m ++ m', by rw [hm', hm, List.append_assoc], fun e he => ?_⟩, h'.kp.trans h.kp⟩
  rcases List.mem_append.mp he with he | he
  · exact hq e he
  · exact hq' e he

theorem unverified_note {e : SessEvent κ} (he : e.isVerified = false) (s : BtSession κ) :
    Unverified s (s.note e) :=
  ⟨⟨[e], rfl, fun _ hx => List.mem_singleton.mp hx ▸ he⟩, rfl⟩

theorem unverified_sessionFail (s : BtSession κ) (why : String) :
    Unverified s (sessionFail s why) :=
  (unverified_note rfl s).trans (.of_log rfl rfl)

theorem QuietStep.unverified (h : QuietStep s s') : Unverified s s' := by
  obtain ⟨m, hm, hq⟩ := h.log
  refine ⟨⟨m, hm, fun e he => ?_⟩, h.kp⟩
  have := hq e he
  cases e <;> first | rfl | cases this

theorem unverified_onChallenge (s : BtSession κ) (data : List UInt8) (len : Nat) :
    Unverified s (onChallenge env s data len) := by
  unfold onChallenge
  split
  · exact unverified_sessionFail s _
  have h1 : Unverified s { s.note (.challenge (env.md5 (data.take 4).reverse)) with
      unsecureIv := env.md5 (data.take 4).reverse
      unsecureKey := List.zipWith (· ^^^ ·) (env.md5 (data.take 4).reverse) localAesKey
      haveUnsecure := true } := (unverified_note rfl s).trans (.of_log rfl rfl)
  simp only
  split
  · exact h1.trans (unverified_sessionFail _ _)
  · split
    · rename_i t ht
      exact (h1.trans (transmit_spec ht).1.unverified).trans (unverified_sessionFail _ _)
    · rename_i t ht
      exact (h1.trans (transmit_spec ht).1.unverified).trans (.of_log rfl rfl)

theorem unverified_onPubkeyAccepted (s : BtSession κ) (data : List UInt8) (len : Nat) :
    Unverified s (onPubkeyAccepted env s data len) := by
  unfold onPubkeyAccepted
  split
  · exact unverified_sessionFail s _
  split
  · exact unverified_sessionFail s _
  · exact (unverified_note rfl s).trans (.of_log rfl rfl)

/-- What `replyPubkey` logs with an IV and a key: the reply and how it went, or a failure before
    it. -/
inductive OurReply (env : Env κ) (iv key : List UInt8) (kp : κ) : List (SessEvent κ) → Prop
  | none (why : String) : OurReply env iv key kp [.failed why]
  | made {pub sig frame reply : List UInt8} {draw : Nat} (hpub : env.keypairPublic kp = some pub)
      (hsig : env.ecdsaSignL1 draw (pub ++ iv) = some sig)
      (hframe : pubkeyFrame pub sig = some frame)
      (hreply : aesWrapIv env key iv frame rxMax = some reply) (ok : Bool)
      {rest : List (SessEvent κ)} (hrest : ∀ e ∈ rest, e.IsFailure) :
      OurReply env iv key kp (.tx reply ok :: rest)

variable (env) in
theorem replyPubkey_log (s : BtSession κ) (kp : κ) :
    (replyPubkey env s kp).kp = s.kp ∧ ∃ m, (replyPubkey env s kp).log = s.log ++ m ∧
      OurReply env s.unsecureIv s.unsecureKey kp m := by
  unfold replyPubkey
  split
  · exact ⟨rfl, _, rfl, .none _⟩
  rename_i pub hpub
  split
  · exact ⟨rfl, _, rfl, .none _⟩
  rename_i sig hsig
  simp only
  split
  · exact ⟨rfl, _, rfl, .none _⟩
  rename_i frame hframe
  split
  · exact ⟨rfl, _, rfl, .none _⟩
  rename_i reply hreply
  split
  · rename_i t ht
    obtain ⟨hq, hlog⟩ := transmit_spec ht
    refine ⟨hq.kp, [.tx reply false, .failed "pubkey reply write"], ?_,
      .made hpub hsig hframe hreply false ?_⟩
    · show t.log ++ [_] = _
      rw [hlog]
      simp
    · intro e he
      exact List.mem_singleton.mp he ▸ trivial
  · rename_i t ht
    obtain ⟨hq, hlog⟩ := transmit_spec ht
    exact ⟨hq.kp, [.tx reply true], hlog, .made hpub hsig hframe hreply true (by simp)⟩

theorem OurReply.not_verified {iv key : List UInt8} {kp : κ} {m : List (SessEvent κ)}
    (h : OurReply env iv key kp m) : ∀ e ∈ m, e.isVerified = false := by
  cases h with
  | none why => exact fun e he => List.mem_singleton.mp he ▸ rfl
  | made hpub hsig hframe hreply ok hrest =>
      intro e he
      rcases List.mem_cons.mp he with rfl | he
      · rfl
      · have := hrest e he
        cases e <;> first | rfl | cases this

/-- A step that verifies a peer key and replies with the session's keypair, its first or the one it
    had; without a keypair it fails. -/
structure Verified (env : Env κ) (s s' : BtSession κ) : Prop where
  keeps : ∀ k, s.kp = some k → s'.kp = some k
  log : ∃ key sig m, s'.log = s.log ++ .verified key sig s.unsecureIv :: m ∧
    ((∃ why, m = [.failed why]) ∨
      ∃ k, s'.kp = some k ∧ OurReply env s.unsecureIv s.unsecureKey k m)

/-- The rest of `on_peer_pubkey`, from a session that has just noted the verified key. -/
theorem verified_replyPubkey {key sig : List UInt8} {kp : κ}
    (hlog : s'.log = s.log ++ [.verified key sig s.unsecureIv]) (hiv : s'.unsecureIv = s.unsecureIv)
    (hkey : s'.unsecureKey = s.unsecureKey) (hkp : s'.kp = some kp)
    (hone : ∀ k, s.kp = some k → k = kp) : Verified env s (replyPubkey env s' kp) := by
  obtain ⟨hk, m, hm, hr⟩ := replyPubkey_log env s' kp
  have hkp' : (replyPubkey env s' kp).kp = some kp := hk.trans hkp
  rw [hiv, hkey] at hr
  refine ⟨fun k hs => by rw [hkp', hone k hs], key, sig, m, ?_, .inr ⟨kp, hkp', hr⟩⟩
  rw [hm, hlog, List.append_assoc]
  rfl

/-- **What `on_peer_pubkey` can do**: fail, answer a repeat from the cache, or verify the key. -/
theorem onPeerPubkey_cases (env : Env κ) (s : BtSession κ) (data : List UInt8) (len : Nat) :
    (∃ why, onPeerPubkey env s data len = sessionFail s why) ∨
    (len = 128 ∧ IsRepeat s data ∧
      onPeerPubkey env s data len = (transmit env s s.pubkeyReply).2) ∨
    (len = 128 ∧ Answered env s data ∧ Verified env s (onPeerPubkey env s data len)) := by
  unfold onPeerPubkey
  split
  · exact .inl ⟨_, rfl⟩
  rename_i hlen
  have hlen : len = 128 := Decidable.of_not_not hlen
  simp only
  split
  · rename_i hrep
    exact .inr (.inl ⟨hlen, hrep, rfl⟩)
  split
  · exact .inl ⟨_, rfl⟩
  rename_i hver
  refine .inr (.inr ⟨hlen, .inr (by simpa using hver), ?_⟩)
  split
  · rename_i kp hkp
    refine verified_replyPubkey rfl rfl rfl hkp fun k hs => ?_
    rw [show s.kp = some kp from hkp] at hs
    exact (Option.some.inj hs).symm
  · rename_i hkp
    have hno : ∀ k, s.kp ≠ some k := fun k hs => by
      rw [show s.kp = none from hkp] at hs
      cases hs
    split
    · refine ⟨fun k hs => absurd hs (hno k), data.take btP256Publen,
        (data.drop btP256Publen).take btP256Siglen, [.failed "keypair"], ?_, .inl ⟨_, rfl⟩⟩
      exact List.append_assoc _ _ _
    · rename_i kp hnew
      exact verified_replyPubkey rfl rfl rfl hnew fun k hs => absurd hs (hno k)

/-! ## 5. Messages -/

theorem handleInner_peerPubkey {m : Inner} {data : List UInt8} {len : Nat}
    (h : peerPubkeyOf m = some (data, len)) :
    handleInner env s m = onPeerPubkey env s data len := by
  cases m with
  | modbus f => cases h
  | kex frame =>
      simp only [peerPubkeyOf] at h
      split at h
      · rename_i type data' len' hkex
        split at h
        · rename_i htype
          obtain ⟨rfl, rfl⟩ := Prod.mk.inj (Option.some.inj h)
          show handleKex env s frame = _
          rw [handleKex_some hkex, htype, if_neg (by decide), if_pos rfl]
        · cases h
      · cases h

theorem unverified_handleInner {m : Inner} (h : peerPubkeyOf m = none) :
    Unverified s (handleInner env s m) := by
  cases m with
  | modbus f => exact (quietStep_handleModbus s f).unverified
  | kex frame =>
      show Unverified s (handleKex env s frame)
      cases hkex : kexOf frame with
      | none => exact handleKex_none hkex ▸ .of_log rfl rfl
      | some q =>
          obtain ⟨type, data, len⟩ := q
          have htype : type ≠ msgPeerPubkey := by
            rintro rfl
            simp [peerPubkeyOf, hkex] at h
          rw [handleKex_some hkex, if_neg htype]
          split
          · exact unverified_onChallenge s data len
          split
          · exact unverified_onPubkeyAccepted s data len
          · exact .of_log rfl rfl

/-- A message keeps the keypair of the session. -/
theorem kp_handleInner (s : BtSession κ) (m : Inner) {k : κ} (hk : s.kp = some k) :
    (handleInner env s m).kp = some k := by
  cases hm : peerPubkeyOf m with
  | none => exact (unverified_handleInner hm).kp.trans hk
  | some q =>
      rw [handleInner_peerPubkey hm]
      rcases onPeerPubkey_cases env s q.1 q.2 with ⟨why, h⟩ | ⟨-, -, h⟩ | ⟨-, -, h⟩
      · rw [h]
        exact hk
      · rw [h]
        exact hk
      · exact h.keeps k hk

/-- `bytes` is a reply with the public half of the session's keypair, under the IV. -/
def OwnReply (env : Env κ) (s : BtSession κ) (iv bytes : List UInt8) : Prop :=
  ∃ k pub, s.kp = some k ∧ env.keypairPublic k = some pub ∧ ReplyUnder env pub iv bytes

theorem OwnReply.kept {iv bytes : List UInt8} (h : OwnReply env s iv bytes)
    (hk : ∀ k, s.kp = some k → s'.kp = some k) : OwnReply env s' iv bytes := by
  obtain ⟨k, pub, hkp, hrest⟩ := h
  exact ⟨k, pub, hk k hkp, hrest⟩

/-- **The invariant**: every reply made so far is the session's own, under its IV. -/
structure Made (env : Env κ) (s : BtSession κ) : Prop where
  closed : Closed s.log
  made : ∀ q ∈ repliesMade s.log, OwnReply env s q.1 q.2

theorem Made.unverified (h : Made env s) (hu : Unverified s s') : Made env s' := by
  obtain ⟨m, hm, hnot⟩ := hu.log
  refine ⟨hm ▸ h.closed.append hnot, fun q hq => ?_⟩
  rw [hm, repliesMade_append h.closed, repliesMade_eq_nil hnot, List.append_nil] at hq
  exact (h.made q hq).kept fun k hk => hu.kp.trans hk

theorem OurReply.under {iv : List UInt8} {kp : κ} {m : List (SessEvent κ)}
    (h : OurReply env iv (handshakeKey iv) kp m) {bytes : List UInt8}
    (hb : bytes ∈ m.filterMap SessEvent.sent) :
    ∃ pub, env.keypairPublic kp = some pub ∧ ReplyUnder env pub iv bytes := by
  cases h with
  | none why => cases hb
  | @made pub sig frame reply draw hpub hsig hframe hreply ok rest hrest =>
      have hnone : rest.filterMap SessEvent.sent = [] := by
        refine List.filterMap_eq_nil_iff.mpr fun e he => ?_
        have := hrest e he
        cases e <;> first | rfl | cases this
      rw [List.filterMap_cons_some (show SessEvent.sent (.tx reply ok) = some reply from rfl),
        hnone, List.mem_singleton] at hb
      obtain rfl := hb
      exact ⟨pub, hpub, draw, sig, frame, hsig, hframe, hreply⟩

/-- What a verified key is answered with. -/
theorem Verified.own (h : Verified env s s') (hkey : s.unsecureKey = handshakeKey s.unsecureIv) :
    ∃ key sig m, s'.log = s.log ++ .verified key sig s.unsecureIv :: m ∧ m ≠ [] ∧
      (∀ e ∈ m, e.isVerified = false) ∧
      ∀ bytes ∈ m.filterMap SessEvent.sent, OwnReply env s' s.unsecureIv bytes := by
  obtain ⟨key, sig, m, hm, ⟨why, rfl⟩ | ⟨k, hk, hr⟩⟩ := h.log
  · exact ⟨key, sig, _, hm, nofun, fun e he => List.mem_singleton.mp he ▸ rfl,
      fun _ hb => by cases hb⟩
  · rw [hkey] at hr
    refine ⟨key, sig, m, hm, fun hnil => ?_, hr.not_verified, fun bytes hb => ?_⟩
    · rw [hnil] at hr
      cases hr
    · obtain ⟨pub, hpub, hunder⟩ := hr.under hb
      exact ⟨k, pub, hk, hpub, hunder⟩

theorem Made.verified (h : Made env s) (hv : Verified env s s')
    (hkey : s.unsecureKey = handshakeKey s.unsecureIv) : Made env s' := by
  obtain ⟨key, sig, m, hm, hne, hnot, hown⟩ := hv.own hkey
  refine ⟨?_, fun q hq => ?_⟩
  · rw [hm, List.append_cons]
    exact closed_of_last hnot hne _
  · rw [hm, repliesMade_append h.closed] at hq
    rcases List.mem_append.mp hq with hq | hq
    · exact (h.made q hq).kept hv.keeps
    · obtain ⟨hiv, hsent⟩ := repliesMade_verified hnot hq
      rw [hiv]
      exact hown _ hsent

/-- **A message that meets the condition** keeps the invariant. -/
theorem Made.handleInner (h : Made env s) (hinv : HandshakeInv env s) {m : Inner}
    (hc : UnderLatest env s m) : Made env (handleInner env s m) := by
  cases hm : peerPubkeyOf m with
  | none => exact h.unverified (unverified_handleInner hm)
  | some q =>
      rw [handleInner_peerPubkey hm]
      rcases onPeerPubkey_cases env s q.1 q.2 with ⟨why, hs⟩ | ⟨-, -, hs⟩ | ⟨hlen, hans, hv⟩
      · rw [hs]
        exact h.unverified (unverified_sessionFail s why)
      · rw [hs]
        exact h.unverified (quietStep_transmit env s _).unverified
      · exact h.verified hv (hinv.key ((hc q hm hlen).1 hans))

/-- **What it is answered with** is the session's own reply, under the IV of the latest
    challenge. -/
theorem Made.replied (h : Made env s) (hinv : HandshakeInv env s) {m : Inner}
    (hc : UnderLatest env s m) (hm : (peerPubkeyOf m).isSome) {bytes : List UInt8}
    (hb : bytes ∈ sentBy env s m) :
    latestIv s.log = some s.unsecureIv ∧
    OwnReply env (Ble.handleInner env s m) s.unsecureIv bytes := by
  obtain ⟨q, hm⟩ := Option.isSome_iff_exists.mp hm
  have hlatest : s.haveUnsecure = true → latestIv s.log = some s.unsecureIv :=
    fun hu => latestIv_of_latest (hinv.iv hu)
  unfold sentBy at hb
  rw [handleInner_peerPubkey hm] at hb ⊢
  rcases onPeerPubkey_cases env s q.1 q.2 with ⟨why, hs⟩ | ⟨hlen, hrep, hs⟩ | ⟨hlen, hans, hv⟩
  · rw [hs, show (sessionFail s why).log = s.log ++ [.failed why] from rfl, List.drop_left] at hb
    cases hb
  · obtain ⟨hu, hcached⟩ := hc q hm hlen
    rw [hs, show (transmit env s s.pubkeyReply).2.log =
      s.log ++ [.tx s.pubkeyReply (env.txOk s.txs)]
      from rfl, List.drop_left] at hb
    obtain rfl : bytes = s.pubkeyReply := List.mem_singleton.mp hb
    rw [hs]
    exact ⟨hlatest (hu (.inl hrep)), (h.made _ (hcached hrep)).kept fun k hk => hk⟩
  · have hu := (hc q hm hlen).1 hans
    obtain ⟨key, sig, m, hm, -, -, hown⟩ := hv.own (hinv.key hu)
    rw [hm, List.drop_left, List.filterMap_cons_none rfl] at hb
    exact ⟨hlatest hu, hown bytes hb⟩

/-! ## 6. Runs -/

/-- What the condition keeps: the invariant of the handshake and that of the replies. -/
def RepliesInv (env : Env κ) (s : BtSession κ) : Prop :=
  HandshakeInv env s ∧ Made env s

theorem RepliesInv.quiet (h : RepliesInv env s) (hq : QuietStep s s') : RepliesInv env s' :=
  ⟨h.1.quiet hq, h.2.unverified hq.unverified⟩

/-- **One notification** whose messages meet the condition keeps both, and every message meets
    them. -/
theorem RepliesInv.feed (h : RepliesInv env s) (data : List UInt8)
    (hc : ∀ p ∈ handedOver env s data, UnderLatest env p.1 p.2) :
    RepliesInv env (btSessionFeed env s data) ∧
    ∀ p ∈ handedOver env s data, RepliesInv env p.1 := by
  have hmain := feed_inv env (fun t => RepliesInv env t ∧ t.plain = s.plain)
    (fun t rx ht => ⟨ht.1.quiet (quietStep_rx t rx), ht.2⟩) data ⟨h, rfl⟩ fun p hp ht => by
      refine ⟨⟨?_, ht.1.2.handleInner ht.1.1 (hc p hp)⟩, ?_⟩
      · obtain ⟨t, m⟩ := p
        cases m with
        | modbus f => exact ht.1.1.quiet (quietStep_handleModbus t f)
        | kex frame =>
            have hplain : t.plain = false := ht.2.trans (plain_of_handedOver_kex hp)
            exact (EncryptedInv.handleKex ⟨ht.1.1, hplain⟩ frame).1
      · obtain ⟨t, m⟩ := p
        cases m with
        | modbus f => exact (quietStep_handleModbus t f).plain.trans ht.2
        | kex frame => exact (kexFrame_handleKex t frame).plain.trans ht.2
  exact ⟨hmain.1.1, fun p hp => (hmain.2 p hp).1⟩

theorem RepliesInv.usePlain (h : RepliesInv env s) : RepliesInv env (btSessionUsePlain s) := by
  refine ⟨h.1.apply .usePlain, h.2.unverified ?_⟩
  unfold btSessionUsePlain
  split
  · exact .of_log rfl rfl
  · exact .of_log rfl rfl

/-- **A run whose messages meet the condition**: every message meets both invariants. The induction
    is on the operations. -/
theorem RepliesInv.run (h : RepliesInv env s) {ops : List SessOp}
    (hc : ∀ p ∈ handedOverRun env s ops, UnderLatest env p.1 p.2) :
    ∀ p ∈ handedOverRun env s ops, RepliesInv env p.1 := by
  induction ops generalizing s with
  | nil => exact fun p hp => by cases hp
  | cons op ops ih =>
      have hleft := fun p hp => hc p (List.mem_append_left _ hp)
      have hright := fun p hp => hc p (List.mem_append_right _ hp)
      intro p hp
      cases op with
      | feed data =>
          obtain ⟨hnext, hmet⟩ := h.feed data hleft
          rcases List.mem_append.mp hp with hp | hp
          · exact hmet p hp
          · exact ih hnext hright p hp
      | readRegs addr count => exact ih (h.quiet (quietStep_readRegs s addr count)) hright p hp
      | writeReg addr value => exact ih (h.quiet (quietStep_writeReg s addr value)) hright p hp
      | usePlain => exact ih h.usePlain hright p hp

/-- The second session has the keypair of the first, if that has one. -/
def KeepsKp (s s' : BtSession κ) : Prop := ∀ k, s.kp = some k → s'.kp = some k

theorem KeepsKp.refl (s : BtSession κ) : KeepsKp s s := fun _ hk => hk

theorem KeepsKp.trans {s s' s'' : BtSession κ} (h : KeepsKp s s') (h' : KeepsKp s' s'') :
    KeepsKp s s'' := fun k hk => h' k (h k hk)

theorem QuietStep.keepsKp (h : QuietStep s s') : KeepsKp s s' := fun _ hk => h.kp.trans hk

/-- **One keypair**: the session that ends a run has the keypair that any message led to. -/
theorem keepsKp_run (env : Env κ) (s : BtSession κ) (ops : List SessOp) :
    KeepsKp s (runSess env s ops) ∧
      ∀ p ∈ handedOverRun env s ops, KeepsKp (handleInner env p.1 p.2) (runSess env s ops) := by
  induction ops generalizing s with
  | nil => exact ⟨.refl s, fun p hp => by cases hp⟩
  | cons op ops ih =>
      obtain ⟨hend, hrest⟩ := ih (op.apply env s)
      cases op with
      | feed data =>
          obtain ⟨h1, h2⟩ := feed_later env KeepsKp .refl (fun _ _ _ => .trans)
            (fun t rx => (quietStep_rx t rx).keepsKp) (fun t m k => kp_handleInner t m) s data
          refine ⟨h1.trans hend, fun p hp => ?_⟩
          rcases List.mem_append.mp hp with hp | hp
          · exact (h2 p hp).trans hend
          · exact hrest p hp
      | readRegs addr count =>
          exact ⟨(quietStep_readRegs s addr count).keepsKp.trans hend, hrest⟩
      | writeReg addr value =>
          exact ⟨(quietStep_writeReg s addr value).keepsKp.trans hend, hrest⟩
      | usePlain =>
          have hk : KeepsKp s (btSessionUsePlain s) := by
            unfold btSessionUsePlain
            split
            · exact .refl s
            · exact fun k hk => hk
          exact ⟨hk.trans hend, hrest⟩

theorem repliesInv_start (env : Env κ) (s : BtSession κ) : RepliesInv env (sessStart s) := by
  refine ⟨handshakeInv_start env s, fun past e he => ?_, fun q hq => by cases hq⟩
  have hlen := congrArg List.length he
  rw [List.length_append] at hlen
  exact absurd hlen (Nat.ne_of_lt (Nat.succ_pos _))

/-- **Every reply to a peer key** carries one public key, under the IV and the key of the latest
    challenge, in every run from a reset whose messages meet the condition. -/
theorem repliesRight_of_underLatest (env : Env κ) (s : BtSession κ) (ops : List SessOp)
    (hc : ∀ p ∈ handedOverRun env (sessStart s) ops, UnderLatest env p.1 p.2) :
    RepliesRight env (sessStart s) ops := by
  have hinv := (repliesInv_start env s).run hc
  have hkeep := (keepsKp_run env (sessStart s) ops).2
  -- the keypair at the end of the run is the one every reply was made with
  refine ⟨((runSess env (sessStart s) ops).kp.bind env.keypairPublic).getD [],
    fun p hp hm bytes hb => ?_⟩
  obtain ⟨hiv, k, pub, hk, hpub, hunder⟩ := (hinv p hp).2.replied (hinv p hp).1 (hc p hp) hm hb
  refine ⟨p.1.unsecureIv, hiv, ?_⟩
  rw [hkeep p hp k hk, Option.bind_some, hpub]
  exact hunder

/-- A challenge, the peer's key three times, and the same challenge again before the last. -/
theorem repliesRight_of_underLatest_repeated :
    RepliesRight toyEnv (sessStart btSessionNew)
      [challengeMsg [1, 2, 3, 4], peerPubkeyMsg, peerPubkeyMsg, challengeMsg [1, 2, 3, 4],
        peerPubkeyMsg] :=
  repliesRight_of_underLatest toyEnv btSessionNew _ (by decide +kernel)

/-! ## 7. A stale reply -/

/-- The toy with an AES that depends on the IV: its first byte is XORed into every byte. -/
def ivEnv : Env Nat :=
  { toyEnv with
    aesEncrypt := fun _ iv p => some (p.map (· ^^^ iv.headD 0))
    aesDecrypt := fun _ iv c => some (c.map (· ^^^ iv.headD 0))
    aesEncrypt_length := fun _ _ _ _ h => by rw [← Option.some.inj h, List.length_map]
    aesDecrypt_length := fun _ _ _ _ h => by rw [← Option.some.inj h, List.length_map] }

/-- There a reply shows the IV it was wrapped under, where the magic stands in its frame. -/
theorem ReplyUnder.shows {pub iv bytes : List UInt8} (h : ReplyUnder ivEnv pub iv bytes) :
    bytes.getD 2 0 = 0x2A ^^^ iv.headD 0 := by
  obtain ⟨draw, sig, frame, -, hframe, hwrap⟩ := h
  unfold pubkeyFrame buildKex at hframe
  simp only at hframe
  split at hframe
  · cases hframe
  unfold aesWrapIv wrapUnder btAesCbcEncrypt at hwrap
  split at hwrap
  · cases hwrap
  split at hwrap
  · cases hwrap
  rw [← Option.some.inj hwrap, ← Option.some.inj hframe]
  rfl

/-- Two challenges, with the same peer key behind each. -/
def rekeyed : List SessOp :=
  [challengeMsg [1, 2, 3, 4], peerPubkeyMsg, challengeMsg [5, 6, 7, 8], peerPubkeyMsg]

/-- **The reply to the repeated key is still wrapped under the first challenge.** -/
theorem stale_reply : ¬ RepliesRight ivEnv (sessStart btSessionNew) rekeyed := by
  rintro ⟨pub, hall⟩
  have hstale : (handedOverRun ivEnv (sessStart btSessionNew) rekeyed).any (fun p =>
      (peerPubkeyOf p.2).isSome && latestIv p.1.log == some (ivEnv.md5 [8, 7, 6, 5]) &&
        (sentBy ivEnv p.1 p.2).any fun bytes => bytes.getD 2 0 != 0x2A ^^^ 8) = true := by
    decide +kernel
  obtain ⟨p, hp, hshow⟩ := List.any_eq_true.mp hstale
  rw [Bool.and_eq_true, Bool.and_eq_true] at hshow
  obtain ⟨⟨hm, hiv⟩, hsent⟩ := hshow
  obtain ⟨bytes, hb, hne⟩ := List.any_eq_true.mp hsent
  obtain ⟨iv, hlatest, hunder⟩ := hall p hp hm bytes hb
  rw [eq_of_beq hiv] at hlatest
  obtain rfl := Option.some.inj hlatest
  exact bne_iff_ne.mp hne hunder.shows

end NutBluetti.Ble
