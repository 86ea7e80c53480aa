/-
  File:      NutBluetti/Ble/SessionStream.lean
  Subject:   THE RECEIVE PATH AS A RECEIVER OF FRAMES. Both loops of `bt_session_feed` take whole
             frames off the front of `rx` and hand each one over once.

  * `plainReceiver`, `wrappedReceiver` -- the two loops;
  * **`drainPlain_eq`**, **`drainWrapped_eq`** -- the loops of the source are theirs, on every
    buffer;
  * `handedOver` -- the messages a notification hands to the two handlers, each with the session it
    meets;
  * **`feed_inv`**, **`feed_later`** -- what every message handed over keeps, the notification
    keeps, and what its end is later than;
  * **`plain_replies`** -- plain mode: a stream of replies, cut anywhere, calls back what the
    replies call back one by one.
-/
import Mathlib.Data.List.GetD
import NutBluetti.Lib.Reassembly
import NutBluetti.Ble.SessionFrame

namespace NutBluetti.Ble

open Reassembly

variable {κ : Type} {env : Env κ} {s : BtSession κ}

/-! ## 1. What the key exchange reads -/

/-- The session with another buffer. -/
def BtSession.setRx (s : BtSession κ) (rx : List UInt8) : BtSession κ := { s with rx := rx }

@[simp] theorem setRx_rx (s : BtSession κ) (rx : List UInt8) : (s.setRx rx).rx = rx := rfl

@[simp] theorem setRx_setRx (s : BtSession κ) (rx rx' : List UInt8) :
    (s.setRx rx).setRx rx' = s.setRx rx' := rfl

/-- The session with another buffer and another read pending. -/
def BtSession.setAside (s : BtSession κ) (rx : List UInt8) (addr count : UInt16) : BtSession κ :=
  { s with rx := rx, pendingAddr := addr, pendingCount := count }

theorem setAside_self (s : BtSession κ) : s.setAside s.rx s.pendingAddr s.pendingCount = s := rfl

section SetAside

variable (s : BtSession κ) (rx data : List UInt8) (addr count : UInt16) (len : Nat)

theorem onChallenge_setAside :
    onChallenge env (s.setAside rx addr count) data len =
      (onChallenge env s data len).setAside rx addr count := by
  unfold onChallenge
  split
  · rfl
  simp only
  split
  · rfl
  · simp only [transmit]
    have htx : (s.setAside rx addr count).txs = s.txs := rfl
    cases hok : env.txOk s.txs <;> simp only [BtSession.note, htx, hok] <;> rfl

theorem replyPubkey_setAside (kp : κ) :
    replyPubkey env (s.setAside rx addr count) kp =
      (replyPubkey env s kp).setAside rx addr count := by
  unfold replyPubkey
  have hdraws : (s.setAside rx addr count).draws = s.draws := rfl
  have hiv : (s.setAside rx addr count).unsecureIv = s.unsecureIv := rfl
  have hkey : (s.setAside rx addr count).unsecureKey = s.unsecureKey := rfl
  rw [hdraws, hiv, hkey]
  split
  · rfl
  split
  · rfl
  simp only
  split
  · rfl
  split
  · rfl
  · simp only [transmit]
    have htx : (s.setAside rx addr count).txs = s.txs := rfl
    cases hok : env.txOk s.txs <;> simp only [BtSession.note, htx, hok] <;> rfl

theorem onPeerPubkey_setAside :
    onPeerPubkey env (s.setAside rx addr count) data len =
      (onPeerPubkey env s data len).setAside rx addr count := by
  obtain ⟨state, plain, ukey, uiv, hu, skey, hs, peer, kp, reply, rx', pa, pc, draws, txs, log⟩ := s
  show onPeerPubkey env
    ⟨state, plain, ukey, uiv, hu, skey, hs, peer, kp, reply, rx, addr, count, draws, txs, log⟩ data
      len = BtSession.setAside _ rx addr count
  unfold onPeerPubkey
  simp only [BtSession.note]
  split
  · rfl
  split
  · rfl
  split
  · rfl
  cases kp with
  | some kp =>
      exact replyPubkey_setAside ⟨_, _, _, _, _, _, _, _, _, _, rx', pa, pc, _, _, _⟩ rx addr count
        kp
  | none =>
      simp only
      cases env.keypairNew draws with
      | some kp =>
          exact replyPubkey_setAside ⟨_, _, _, _, _, _, _, _, _, _, rx', pa, pc, _, _, _⟩ rx addr
            count kp
      | none => rfl

theorem onPubkeyAccepted_setAside :
    onPubkeyAccepted env (s.setAside rx addr count) data len =
      (onPubkeyAccepted env s data len).setAside rx addr count := by
  unfold onPubkeyAccepted
  have hkp : (s.setAside rx addr count).kp = s.kp := rfl
  have hpeer : (s.setAside rx addr count).peerPub = s.peerPub := rfl
  rw [hkp, hpeer]
  split
  · rfl
  split
  · rfl
  · rfl

/-- **The key exchange reads neither the buffer nor the pending read**, and leaves both alone. -/
theorem handleKex_setAside (env : Env κ) :
    handleKex env (s.setAside rx addr count) data =
      (handleKex env s data).setAside rx addr count := by
  unfold handleKex
  simp only [apply_ite (fun s : BtSession κ => s.setAside rx addr count), onChallenge_setAside,
    onPeerPubkey_setAside, onPubkeyAccepted_setAside]

end SetAside

theorem handleKex_setRx (s : BtSession κ) (rx frame : List UInt8) :
    handleKex env (s.setRx rx) frame = (handleKex env s frame).setRx rx := by
  have hself := handleKex_setAside s s.rx frame s.pendingAddr s.pendingCount env
  have hset := handleKex_setAside s rx frame s.pendingAddr s.pendingCount env
  rw [setAside_self] at hself
  have haddr : (handleKex env s frame).pendingAddr = s.pendingAddr := by rw [hself]; rfl
  have hcount : (handleKex env s frame).pendingCount = s.pendingCount := by rw [hself]; rfl
  have hback : (handleKex env s frame).setAside rx s.pendingAddr s.pendingCount =
      (handleKex env s frame).setRx rx := by
    rw [← haddr, ← hcount]
    rfl
  exact hset.trans hback

theorem handleModbus_setRx (s : BtSession κ) (rx f : List UInt8) :
    handleModbus (s.setRx rx) f = (handleModbus s f).setRx rx := by
  unfold handleModbus
  simp only [apply_ite (fun s : BtSession κ => s.setRx rx)]
  rfl

theorem dispatchInner_setRx (s : BtSession κ) (rx plain : List UInt8) :
    dispatchInner env (s.setRx rx) plain = (dispatchInner env s plain).setRx rx := by
  unfold dispatchInner
  split
  · exact handleKex_setRx s rx plain
  · exact handleModbus_setRx s rx plain

/-- Type, data and length of a key-exchange frame that is dispatched. -/
def kexOf (frame : List UInt8) : Option (UInt8 × List UInt8 × Nat) :=
  let bodyLen := frame.length - 4
  let body := (frame.drop 2).take bodyLen
  if frame.length < 5 then none
  else if hexsum body ≠ (frame.drop (2 + bodyLen)).take 2 then none
  else some (body.getD 0 0, frame.drop 4, kexDataLen bodyLen)

theorem handleKex_none {frame : List UInt8} (h : kexOf frame = none) :
    handleKex env s frame = s := by
  unfold kexOf at h
  unfold handleKex
  split
  · rfl
  rename_i h5
  simp only [if_neg h5] at h
  simp only
  split
  · rfl
  · rename_i hsum
    rw [if_neg hsum] at h
    cases h

theorem handleKex_some {frame : List UInt8} {type : UInt8} {data : List UInt8} {len : Nat}
    (h : kexOf frame = some (type, data, len)) :
    handleKex env s frame =
      if type = msgChallenge then onChallenge env s data len
      else if type = msgPeerPubkey then onPeerPubkey env s data len
      else if type = msgPubkeyAccepted then onPubkeyAccepted env s data len
      else s := by
  unfold kexOf at h
  unfold handleKex
  simp only at h
  split at h
  · cases h
  rename_i h5
  split at h
  · cases h
  rename_i hsum
  obtain ⟨rfl, hrest⟩ := Prod.mk.inj (Option.some.inj h)
  obtain ⟨rfl, rfl⟩ := Prod.mk.inj hrest
  rw [if_neg h5]
  simp only [if_neg hsum]

/-! ## 2. The two loops -/

/-- The loop of plain mode. -/
def plainReceiver : Receiver (BtSession κ) UInt8 where
  cut _ buf :=
    if buf.length < 3 ∨ buf.length < plainFrameLen buf then none else some (plainFrameLen buf)
  handle s frame := some (handleModbus s frame)

/-- The loop for wrapped frames. -/
def wrappedReceiver (env : Env κ) : Receiver (BtSession κ) UInt8 where
  cut s buf :=
    let need := framedLen s.haveSecure buf
    if need = 0 ∨ buf.length < need then none else some need
  handle s frame := (aesUnwrap env s frame rxMax).map (dispatchInner env s)

/-- **The plain loop of the source** is the receiver's. -/
theorem drainPlain_eq (fuel : Nat) (s : BtSession κ) (buf : List UInt8) :
    drainPlain fuel (s.setRx buf) =
      (drain plainReceiver fuel s buf).1.setRx (drain plainReceiver fuel s buf).2 := by
  induction fuel generalizing s buf with
  | zero => rfl
  | succ fuel ih =>
      rw [drainPlain, setRx_rx]
      by_cases h3 : buf.length < 3
      · rw [if_pos h3, drain_wait (if_pos (.inl h3))]
      rw [if_neg h3]
      simp only
      by_cases hlen : buf.length < plainFrameLen buf
      · rw [if_pos hlen, drain_wait (if_pos (.inr hlen))]
      · have hcut : (plainReceiver : Receiver (BtSession κ) UInt8).cut s buf =
            some (plainFrameLen buf) := if_neg (not_or.mpr ⟨h3, hlen⟩)
        rw [if_neg hlen, drain_take hcut rfl, handleModbus_setRx]
        exact ih (handleModbus s (buf.take (plainFrameLen buf))) (buf.drop (plainFrameLen buf))

theorem framedLen_nil (haveSecure : Bool) : framedLen haveSecure [] = 0 := by
  cases haveSecure <;> rfl

/-- **The wrapped loop of the source** is the receiver's. -/
theorem drainWrapped_eq (env : Env κ) (fuel : Nat) (s : BtSession κ) (buf : List UInt8) :
    drainWrapped env fuel (s.setRx buf) =
      (drain (wrappedReceiver env) fuel s buf).1.setRx
        (drain (wrappedReceiver env) fuel s buf).2 := by
  induction fuel generalizing s buf with
  | zero => rfl
  | succ fuel ih =>
      let need := framedLen s.haveSecure buf
      have hsec : (s.setRx buf).haveSecure = s.haveSecure := rfl
      have hunw : ∀ frame, aesUnwrap env (s.setRx buf) frame rxMax = aesUnwrap env s frame rxMax :=
        fun _ => rfl
      rw [drainWrapped]
      simp only [setRx_rx, hsec, hunw]
      by_cases hneed : need = 0 ∨ buf.length < need
      · rw [if_pos hneed, drain_wait (if_pos hneed)]
      have hcut : (wrappedReceiver env).cut s buf = some need := if_neg hneed
      rw [if_neg hneed]
      cases hun : aesUnwrap env s (buf.take need) rxMax with
      | none =>
          have hh : (wrappedReceiver env).handle s (buf.take need) = none := by
            simp only [wrappedReceiver, hun, Option.map_none]
          show s.setRx [] = _
          simp only [drain, hcut, hh]
      | some plain =>
          have hh : (wrappedReceiver env).handle s (buf.take need) =
              some (dispatchInner env s plain) := by
            simp only [wrappedReceiver, hun, Option.map_some]
          show (if (dispatchInner env (s.setRx (buf.drop need)) plain).rx = [] then
              dispatchInner env (s.setRx (buf.drop need)) plain
            else drainWrapped env fuel (dispatchInner env (s.setRx (buf.drop need)) plain)) = _
          rw [drain_take hcut hh]
          simp only [dispatchInner_setRx, setRx_rx]
          split
          · -- an empty buffer holds no frame, so the loop would stop as well
            rename_i hnil
            have hwait : (wrappedReceiver env).cut (dispatchInner env s plain) [] = none :=
              if_pos (.inl (framedLen_nil _))
            rw [hnil, drain_wait hwait]
          · exact ih (dispatchInner env s plain) (buf.drop need)

/-! ## 3. What a notification hands over -/

/-- A message for `handle_kex` or for `handle_modbus`. -/
inductive Inner where
  | kex (frame : List UInt8)
  | modbus (frame : List UInt8)

def handleInner (env : Env κ) (s : BtSession κ) : Inner → BtSession κ
  | .kex frame => handleKex env s frame
  | .modbus frame => handleModbus s frame

/-- The handler an unwrapped frame is for. -/
def innerOf (plain : List UInt8) : Inner :=
  if kexMagic.isPrefixOf plain then .kex plain else .modbus plain

theorem handleInner_innerOf (s : BtSession κ) (plain : List UInt8) :
    handleInner env s (innerOf plain) = dispatchInner env s plain := by
  unfold innerOf dispatchInner
  split <;> rfl

/-- A frame of the wrapped loop as a message, if it unwraps. -/
def unwrapped (env : Env κ) (p : BtSession κ × List UInt8) : Option (BtSession κ × Inner) :=
  (aesUnwrap env p.1 p.2 rxMax).map fun plain => (p.1, innerOf plain)

/-- The messages a notification hands over, each with the session it meets; the branches are those
    of `bt_session_feed`. -/
def handedOver (env : Env κ) (s : BtSession κ) (data : List UInt8) : List (BtSession κ × Inner) :=
  let buf := s.rx ++ data
  if s.plain then
    if s.rx.length + data.length > rxMax then []
    else (taken plainReceiver buf.length s buf).map fun p => (p.1, .modbus p.2)
  else if !s.haveSecure && kexMagic.isPrefixOf data then [(s, .kex data)]
  else if !s.haveUnsecure then []
  else if s.rx.length + data.length > rxMax then []
  else (taken (wrappedReceiver env) buf.length s buf).filterMap (unwrapped env)

/-- **What a notification is**, and what it hands over: it is dropped, it is a stretch of the plain
    stream, a message in the clear, or a stretch of the wrapped stream. -/
theorem feed_cases (env : Env κ) (s : BtSession κ) (data : List UInt8) :
    ((∃ rx, btSessionFeed env s data = s.setRx rx) ∧ handedOver env s data = []) ∨
    (btSessionFeed env s data =
        (feed plainReceiver (s, s.rx) data).1.setRx (feed plainReceiver (s, s.rx) data).2 ∧
      handedOver env s data =
        (taken plainReceiver (s.rx ++ data).length s (s.rx ++ data)).map
          fun p => (p.1, .modbus p.2)) ∨
    (btSessionFeed env s data = handleKex env s data ∧ handedOver env s data = [(s, .kex data)]) ∨
    (btSessionFeed env s data =
        (feed (wrappedReceiver env) (s, s.rx) data).1.setRx
          (feed (wrappedReceiver env) (s, s.rx) data).2 ∧
      handedOver env s data =
        (taken (wrappedReceiver env) (s.rx ++ data).length s (s.rx ++ data)).filterMap
          (unwrapped env)) := by
  unfold btSessionFeed handedOver
  by_cases hp : s.plain = true
  · simp only [if_pos hp]
    by_cases hfit : s.rx.length + data.length > rxMax
    · simp only [if_pos hfit]
      exact .inl ⟨⟨[], rfl⟩, trivial⟩
    · simp only [if_neg hfit]
      exact .inr (.inl ⟨drainPlain_eq (s.rx ++ data).length s (s.rx ++ data), trivial⟩)
  simp only [if_neg hp]
  by_cases hkex : (!s.haveSecure && kexMagic.isPrefixOf data) = true
  · simp only [if_pos hkex]
    exact .inr (.inr (.inl ⟨trivial, trivial⟩))
  simp only [if_neg hkex]
  by_cases hu : (!s.haveUnsecure) = true
  · simp only [if_pos hu]
    exact .inl ⟨⟨s.rx, rfl⟩, trivial⟩
  simp only [if_neg hu]
  by_cases hfit : s.rx.length + data.length > rxMax
  · simp only [if_pos hfit]
    exact .inl ⟨⟨[], rfl⟩, trivial⟩
  · simp only [if_neg hfit]
    exact .inr (.inr (.inr ⟨drainWrapped_eq env (s.rx ++ data).length s (s.rx ++ data), trivial⟩))

theorem wrapped_handle {t t' : BtSession κ} {frame : List UInt8}
    (h : (wrappedReceiver env).handle t frame = some t') :
    ∃ m, unwrapped env (t, frame) = some (t, m) ∧ t' = handleInner env t m := by
  obtain ⟨plain, hun, rfl⟩ := Option.map_eq_some_iff.mp h
  refine ⟨innerOf plain, ?_, (handleInner_innerOf t plain).symm⟩
  simp only [unwrapped, hun, Option.map_some]

/-- **The rule for a notification**: what every message handed over keeps (and another buffer
    keeps), the notification keeps, and every message meets it. -/
theorem feed_inv (env : Env κ) (I : BtSession κ → Prop) (hrx : ∀ t rx, I t → I (t.setRx rx))
    (data : List UInt8) (h0 : I s)
    (hstep : ∀ p ∈ handedOver env s data, I p.1 → I (handleInner env p.1 p.2)) :
    I (btSessionFeed env s data) ∧ ∀ p ∈ handedOver env s data, I p.1 := by
  rcases feed_cases env s data with ⟨⟨rx, hf⟩, hh⟩ | ⟨hf, hh⟩ | ⟨hf, hh⟩ | ⟨hf, hh⟩
  · rw [hf, hh]
    exact ⟨hrx s rx h0, fun p hp => by cases hp⟩
  · rw [hh] at hstep ⊢
    obtain ⟨h1, h2⟩ := drain_inv (R := plainReceiver) I (s.rx ++ data).length
      (s.rx ++ data) h0 fun p hp hI s' hs => by
        obtain rfl := Option.some.inj hs
        exact hstep _ (List.mem_map_of_mem hp) hI
    rw [hf]
    refine ⟨hrx _ _ h1, fun p hp => ?_⟩
    obtain ⟨q, hq, rfl⟩ := List.mem_map.mp hp
    exact h2 q hq
  · rw [hh] at hstep ⊢
    rw [hf]
    refine ⟨hstep _ List.mem_cons_self h0, fun p hp => ?_⟩
    rw [List.mem_singleton.mp hp]
    exact h0
  · rw [hh] at hstep ⊢
    obtain ⟨h1, h2⟩ := drain_inv (R := wrappedReceiver env) I (s.rx ++ data).length
      (s.rx ++ data) h0 fun p hp hI s' hs => by
        obtain ⟨m, hm, rfl⟩ := wrapped_handle hs
        exact hstep _ (List.mem_filterMap.mpr ⟨p, hp, hm⟩) hI
    rw [hf]
    refine ⟨hrx _ _ h1, fun p hp => ?_⟩
    obtain ⟨q, hq, hqp⟩ := List.mem_filterMap.mp hp
    obtain ⟨plain, -, rfl⟩ := Option.map_eq_some_iff.mp hqp
    exact h2 q hq

/-- **What comes later in a notification**: where every message leads to a later session (and
    another buffer does), the end is later than the start, and than what any message led to. -/
theorem feed_later (env : Env κ) (Later : BtSession κ → BtSession κ → Prop) (hrefl : ∀ t, Later t t)
    (htrans : ∀ t u v, Later t u → Later u v → Later t v) (hrx : ∀ t rx, Later t (t.setRx rx))
    (hstep : ∀ t m, Later t (handleInner env t m)) (s : BtSession κ) (data : List UInt8) :
    Later s (btSessionFeed env s data) ∧
      ∀ p ∈ handedOver env s data, Later (handleInner env p.1 p.2) (btSessionFeed env s data) := by
  rcases feed_cases env s data with ⟨⟨rx, hf⟩, hh⟩ | ⟨hf, hh⟩ | ⟨hf, hh⟩ | ⟨hf, hh⟩
  · rw [hf, hh]
    exact ⟨hrx s rx, fun p hp => by cases hp⟩
  · obtain ⟨h1, h2⟩ := drain_later (R := plainReceiver) Later hrefl htrans
      (fun t f t' ht => Option.some.inj ht ▸ hstep t (.modbus f)) (s.rx ++ data).length s
        (s.rx ++ data)
    rw [hf, hh]
    refine ⟨htrans _ _ _ h1 (hrx _ _), fun p hp => ?_⟩
    obtain ⟨q, hq, rfl⟩ := List.mem_map.mp hp
    exact htrans _ _ _ (h2 q hq _ rfl) (hrx _ _)
  · rw [hf, hh]
    refine ⟨hstep s (.kex data), fun p hp => ?_⟩
    rw [List.mem_singleton.mp hp]
    exact hrefl _
  · obtain ⟨h1, h2⟩ := drain_later (R := wrappedReceiver env) Later hrefl htrans
      (fun t f t' ht => by
        obtain ⟨m, -, rfl⟩ := wrapped_handle ht
        exact hstep t m) (s.rx ++ data).length s (s.rx ++ data)
    rw [hf, hh]
    refine ⟨htrans _ _ _ h1 (hrx _ _), fun p hp => ?_⟩
    obtain ⟨q, hq, hqp⟩ := List.mem_filterMap.mp hp
    obtain ⟨plain, hun, rfl⟩ := Option.map_eq_some_iff.mp hqp
    refine htrans _ _ _ (h2 q hq (handleInner env q.1 (innerOf plain)) ?_) (hrx _ _)
    show (aesUnwrap env q.1 q.2 rxMax).map (dispatchInner env q.1) = _
    rw [hun, Option.map_some, handleInner_innerOf]

/-! ## 4. Streams of notifications -/

/-- A stream of notifications. -/
def feedAll (env : Env κ) (s : BtSession κ) (cuts : List (List UInt8)) : BtSession κ :=
  cuts.foldl (btSessionFeed env) s

/-- What is buffered and the next notification fit the buffer, all along the stream. -/
def Fits (env : Env κ) : BtSession κ → List (List UInt8) → Prop
  | _, [] => True
  | s, d :: ds => s.rx.length + d.length ≤ rxMax ∧ Fits env (btSessionFeed env s d) ds

instance Fits.decidable :
    (s : BtSession κ) → (cuts : List (List UInt8)) → Decidable (Fits env s cuts)
  | _, [] => inferInstanceAs (Decidable True)
  | s, d :: ds =>
      @instDecidableAnd (s.rx.length + d.length ≤ rxMax) _ _
        (Fits.decidable (btSessionFeed env s d) ds)

/-- A Modbus frame adds to the history and changes nothing else. -/
theorem handleModbus_log (s : BtSession κ) (f : List UInt8) :
    ∃ log, handleModbus s f = { s with log := log } := by
  unfold handleModbus
  simp only [BtSession.note]
  repeat' split
  all_goals exact ⟨_, rfl⟩

/-- In plain mode a notification that fits is a chunk for the plain receiver. -/
theorem feed_plain (hp : s.plain = true) {buf data : List UInt8}
    (hfit : buf.length + data.length ≤ rxMax) :
    btSessionFeed env (s.setRx buf) data =
      (feed plainReceiver (s, buf) data).1.setRx (feed plainReceiver (s, buf) data).2 := by
  unfold btSessionFeed
  rw [if_pos (show (s.setRx buf).plain = true from hp), setRx_rx, if_neg (Nat.not_lt.mpr hfit)]
  exact drainPlain_eq (buf ++ data).length s (buf ++ data)

theorem plain_drain (hp : s.plain = true) (fuel : Nat) (buf : List UInt8) :
    (drain plainReceiver fuel s buf).1.plain = true := by
  refine (drain_inv (R := plainReceiver) (fun t => t.plain = true) fuel buf hp
    fun p _ hI s' hs => ?_).1
  obtain rfl := Option.some.inj hs
  obtain ⟨log, h⟩ := handleModbus_log p.1 p.2
  rw [h]
  exact hI

/-- A stream in plain mode is a stream for the plain receiver. -/
theorem feedAll_plain (hp : s.plain = true) (buf : List UInt8) {cuts : List (List UInt8)}
    (hfit : Fits env (s.setRx buf) cuts) :
    feedAll env (s.setRx buf) cuts =
      (Reassembly.feedAll plainReceiver (s, buf) cuts).1.setRx
        (Reassembly.feedAll plainReceiver (s, buf) cuts).2 := by
  induction cuts generalizing s buf with
  | nil => rfl
  | cons d ds ih =>
      obtain ⟨hd, hds⟩ := hfit
      have hd : buf.length + d.length ≤ rxMax := hd
      rw [feed_plain hp hd] at hds
      have h1 : feedAll env (s.setRx buf) (d :: ds) =
          feedAll env (btSessionFeed env (s.setRx buf) d) ds := rfl
      rw [h1, feed_plain hp hd]
      exact ih (plain_drain hp _ _) _ hds

/-! ## 5. Plain mode -/

/-- The length is decided by the second and the third byte. -/
theorem plainFrameLen_of_le {p f : List UInt8} (h : p <+: f) (h3 : 3 ≤ p.length) :
    plainFrameLen f = plainFrameLen p := by
  obtain ⟨t, rfl⟩ := h
  unfold plainFrameLen
  rw [List.getD_append _ _ _ _ (by omega), List.getD_append _ _ _ _ (by omega)]

theorem exception_bit (function : UInt8) : (function ||| 0x80) &&& 0x80 ≠ 0 := by
  intro h
  have h0 : ((function ||| 0x80) &&& 0x80).toNat = 0 := by
    rw [h]
    rfl
  rw [UInt8.toNat_and, UInt8.toNat_or, Nat.and_or_distrib_right] at h0
  have hle : 128 ≤ function.toNat &&& 128 ||| 128 := Nat.right_le_or
  exact absurd (h0 ▸ hle) (by decide)

theorem plainFrameLen_bytes (r : Reply) : plainFrameLen r.bytes = r.bytes.length := by
  have hl : r.bytes.length = r.body.length + 2 := withCrc_length r.body
  unfold plainFrameLen
  cases r with
  | read id data fits =>
      have hcount : ((Reply.read id data fits).bytes.getD 2 0).toNat = data.length :=
        count_toNat fits
      have hfn : (Reply.read id data fits).bytes.getD 1 0 = modbusRead := rfl
      simp only [hfn, hcount, hl]
      rw [if_neg (by decide), if_neg (by decide)]
      simp [Reply.body]
      omega
  | echo id addr value => rfl
  | exception id function code =>
      have hfn : (Reply.exception id function code).bytes.getD 1 0 = function ||| 0x80 := rfl
      simp only [hfn, hl]
      rw [if_neg (exception_function function).1, if_pos (exception_bit function)]
      rfl

theorem five_le_bytes (r : Reply) : 5 ≤ r.bytes.length := by
  have hl : r.bytes.length = r.body.length + 2 := withCrc_length r.body
  cases r <;> simp [hl, Reply.body]

/-- The plain receiver finds the end of every reply, and not before it is all there. -/
theorem delimited_bytes (r : Reply) :
    Delimited plainReceiver (fun _ : BtSession κ => True) handleModbus r.bytes := by
  have h5 := five_le_bytes r
  have hlen := plainFrameLen_bytes r
  have hne : r.bytes ≠ [] := fun h => absurd (h ▸ h5) (by decide)
  refine ⟨hne, fun s _ rest => ?_, fun s _ p hp hne => ?_, fun s _ => rfl, fun s _ => trivial⟩
  · have hframe : plainFrameLen (r.bytes ++ rest) = r.bytes.length :=
      (plainFrameLen_of_le (List.prefix_append _ rest) (by omega)).trans hlen
    simp only [plainReceiver, hframe, List.length_append]
    rw [if_neg (by omega)]
  · by_cases h3 : p.length < 3
    · exact if_pos (.inl h3)
    · have hframe : plainFrameLen p = r.bytes.length :=
        (plainFrameLen_of_le hp (by omega)).symm.trans hlen
      have hlt : p.length < r.bytes.length := by
        have hle := hp.length_le
        have hneq : p.length ≠ r.bytes.length := fun h => hne (hp.eq_of_length h)
        omega
      exact if_pos (.inr (hframe ▸ hlt))

/-- Replies one by one. -/
theorem handleModbus_replies (s : BtSession κ) (replies : List Reply) :
    (replies.map Reply.bytes).foldl handleModbus s =
      { s with log := s.log ++ replies.flatMap (Reply.calls s.pendingAddr) } := by
  induction replies generalizing s with
  | nil => simp
  | cons r rs ih =>
      rw [List.map_cons, List.foldl_cons, handleModbus_bytes, ih, List.flatMap_cons,
        List.append_assoc]

/-- **A stream of replies in plain mode**, cut into notifications at any places, calls back exactly
    what the replies call back one by one, in order, and leaves the session as it was otherwise, its
    buffer empty. -/
theorem plain_replies (env : Env κ) (s : BtSession κ) (hp : s.plain = true) (hrx : s.rx = [])
    (replies : List Reply) (cuts : List (List UInt8))
    (hcut : cuts.flatten = (replies.map Reply.bytes).flatten) (hfit : Fits env s cuts) :
    feedAll env s cuts =
        { s with log := s.log ++ replies.flatMap (Reply.calls s.pendingAddr) } ∧
      (feedAll env s cuts).rx = [] := by
  have hs : s.setRx [] = s := by
    rw [← hrx]
    rfl
  have hnil : ∀ t : BtSession κ, True → plainReceiver.cut t [] = none := fun _ _ => rfl
  have hall : ∀ f ∈ replies.map Reply.bytes,
      Delimited plainReceiver (fun _ : BtSession κ => True) handleModbus f := by
    intro f hf
    obtain ⟨r, -, rfl⟩ := List.mem_map.mp hf
    exact delimited_bytes r
  have hmain : feedAll env s cuts = { s with
      log := s.log ++ replies.flatMap (Reply.calls s.pendingAddr) } := by
    have hfeed := feedAll_plain (s := s) hp [] (by rw [hs]; exact hfit)
    rw [hs, (feedAll_frames hall trivial hnil hcut).1, handleModbus_replies] at hfeed
    rw [hfeed, ← hrx]
    rfl
  exact ⟨hmain, by rw [hmain]; exact hrx⟩

/-- A read, a write and two refusals, in notifications of three bytes. -/
def mixedReplies : List Reply :=
  [.read 1 [0, 75] (by decide), .echo 1 2011 2, .exception 1 6 4, .exception 1 3 2]

def mixedCuts : List (List UInt8) :=
  let stream := (mixedReplies.map Reply.bytes).flatten
  (List.range 9).map fun i => (stream.drop (3 * i)).take 3

theorem plain_replies_mixed :
    (feedAll toyEnv (btSessionUsePlain btSessionNew) mixedCuts).rx = [] ∧
      (feedAll toyEnv (btSessionUsePlain btSessionNew) mixedCuts).log =
        mixedReplies.flatMap (Reply.calls 0) := by
  obtain ⟨h, hrx⟩ := plain_replies toyEnv (btSessionUsePlain btSessionNew) rfl rfl mixedReplies
    mixedCuts (by decide +kernel) (by decide +kernel)
  exact ⟨hrx, by rw [h]; rfl⟩

end NutBluetti.Ble
