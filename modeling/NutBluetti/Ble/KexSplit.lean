/-
  File:      NutBluetti/Ble/KexSplit.lean
  Subject:   A WRAPPED KEY-EXCHANGE FRAME IN PIECES. Until the secure key is up `bt_session_feed`
             looks at the first two bytes of each notification, not of each frame, to tell a frame
             in the clear from a fragment of a wrapped one.

  * `routed`, `routedAll` -- where each notification goes: a frame in the clear, or the inner frames
    that are unwrapped;
  * `WrappedKex` -- a key-exchange frame under the handshake key, as `aes_wrap` makes it;
  * `feed_part`, `feed_last` -- a piece that is buffered, and the one that completes the frame;
  * **`recovers_iff`** -- the inner frame is recovered, once and as it was sent, exactly where no
    piece begins with the magic.
-/
import NutBluetti.Ble.SessionWrap

namespace NutBluetti.Ble

open StepMachine Reassembly

variable {κ : Type} {env : Env κ} {s : BtSession κ}

/-! ## 1. Where a notification goes -/

/-- What comes out of a notification: a reply of plain mode, a frame taken in the clear, or an
    inner frame. -/
inductive Routed where
  | reply (frame : List UInt8)
  | clear (frame : List UInt8)
  | inner (frame : List UInt8)
  deriving DecidableEq

/-- The branches of `bt_session_feed`. -/
def routed (env : Env κ) (s : BtSession κ) (data : List UInt8) : List Routed :=
  let buf := s.rx ++ data
  if s.plain then
    if s.rx.length + data.length > rxMax then []
    else (taken plainReceiver buf.length s buf).map fun p => .reply p.2
  else if !s.haveSecure && kexMagic.isPrefixOf data then [.clear data]
  else if !s.haveUnsecure then []
  else if s.rx.length + data.length > rxMax then []
  else (taken (wrappedReceiver env) buf.length s buf).filterMap fun p =>
    (aesUnwrap env p.1 p.2 rxMax).map .inner

/-- What comes out of a stream of notifications. -/
def routedAll (env : Env κ) : BtSession κ → List (List UInt8) → List Routed
  | _, [] => []
  | s, d :: ds => routed env s d ++ routedAll env (btSessionFeed env s d) ds

/-! ## 2. The handshake phase -/

/-- A session in which a challenge was taken waits for nothing in plain mode. -/
def HandshakeMode (s : BtSession κ) : Prop :=
  s.haveUnsecure = true → s.state ≠ .idle ∧ s.plain = false

theorem haveUnsecure_replyPubkey (s : BtSession κ) (kp : κ) :
    (replyPubkey env s kp).haveUnsecure = s.haveUnsecure := by
  unfold replyPubkey
  split
  · rfl
  split
  · rfl
  simp only
  split
  · rfl
  split
  · rfl
  split
  · rename_i t ht
    exact (transmit_keys ht).2
  · rename_i t ht
    exact (transmit_keys ht).2

theorem haveUnsecure_onPeerPubkey (s : BtSession κ) (data : List UInt8) (len : Nat) :
    (onPeerPubkey env s data len).haveUnsecure = s.haveUnsecure := by
  unfold onPeerPubkey
  split
  · rfl
  simp only
  split
  · rfl
  split
  · rfl
  split
  · exact haveUnsecure_replyPubkey _ _
  · split
    · rfl
    · exact haveUnsecure_replyPubkey _ _

theorem state_onChallenge (s : BtSession κ) (data : List UInt8) (len : Nat) :
    (onChallenge env s data len).state ≠ .idle := by
  unfold onChallenge
  split
  · exact nofun
  simp only
  split
  · exact nofun
  · split
    · exact nofun
    · exact nofun

/-- A handshake key that is there after a message was there before it, or came with a challenge. -/
theorem haveUnsecure_handleKex {frame : List UInt8}
    (h : (handleKex env s frame).haveUnsecure = true) :
    s.haveUnsecure = true ∨ (handleKex env s frame).state ≠ .idle := by
  unfold handleKex at h ⊢
  split at h
  · exact .inl h
  simp only at h ⊢
  split at h
  · exact .inl h
  rename_i h5 hsum
  rw [if_neg h5, if_neg hsum]
  split at h
  · rename_i hc
    rw [if_pos hc]
    exact .inr (state_onChallenge _ _ _)
  split at h
  · exact .inl ((haveUnsecure_onPeerPubkey _ _ _).symm.trans h)
  split at h
  · refine .inl ?_
    unfold onPubkeyAccepted at h
    split at h
    · exact h
    split at h
    · exact h
    · exact h
  · exact .inl h

theorem HandshakeMode.kex (h : HandshakeMode s) (hp : s.plain = false) (frame : List UInt8) :
    HandshakeMode (handleKex env s frame) := by
  intro hu
  refine ⟨?_, (kexFrame_handleKex s frame).plain.trans hp⟩
  rcases haveUnsecure_handleKex hu with hbefore | hstate
  · have hmove : KexMove s (handleKex env s frame) := kexMove_handleKex s frame
    cases hmove with
    | stay hs _ _ =>
        rw [hs]
        exact (h hbefore).1
    | move hs _ _ =>
        rcases hs with hs | hs | hs <;> rw [hs] <;> exact nofun
    | ready hs _ _ =>
        rw [hs]
        exact nofun
  · exact hstate

theorem HandshakeMode.of_eq {s' : BtSession κ} (h : HandshakeMode s)
    (hu : s'.haveUnsecure = s.haveUnsecure) (hs : s'.state = s.state) (hp : s'.plain = s.plain) :
    HandshakeMode s' := by
  unfold HandshakeMode
  rw [hu, hs, hp]
  exact h

theorem HandshakeMode.quiet {s' : BtSession κ} (h : HandshakeMode s) (hq : QuietStep s s') :
    HandshakeMode s' :=
  h.of_eq hq.haveUnsecure hq.state hq.plain

theorem HandshakeMode.feed (h : HandshakeMode s) (data : List UInt8) :
    HandshakeMode (btSessionFeed env s data) := by
  refine (feed_inv env (fun t => HandshakeMode t ∧ t.plain = s.plain)
    (fun t rx ht => ⟨ht.1.of_eq rfl rfl rfl, ht.2⟩) data ⟨h, rfl⟩ fun p hp ht => ?_).1.1
  obtain ⟨t, m⟩ := p
  cases m with
  | modbus f =>
      have hq := quietStep_handleModbus t f
      exact ⟨ht.1.quiet hq, hq.plain.trans ht.2⟩
  | kex frame =>
      have hplain : t.plain = false := ht.2.trans (plain_of_handedOver_kex hp)
      exact ⟨ht.1.kex hplain frame, (kexFrame_handleKex t frame).plain.trans ht.2⟩

theorem HandshakeMode.apply (h : HandshakeMode s) (c : SessCall) :
    HandshakeMode (c.apply env s) := by
  cases c with
  | reset => exact nofun
  | op o =>
      cases o with
      | feed data => exact h.feed data
      | readRegs addr count => exact h.quiet (quietStep_readRegs s addr count)
      | writeReg addr value => exact h.quiet (quietStep_writeReg s addr value)
      | usePlain =>
          show HandshakeMode (btSessionUsePlain s)
          unfold btSessionUsePlain
          split
          · exact h
          · rename_i hidle
            exact fun hu => absurd (by simpa using hidle) (h hu).1

theorem handshakeMode_reachable (h : Reachable env s) : HandshakeMode s := by
  obtain ⟨calls, hrun⟩ := h
  refine run_inv (sessStep env) (fun t c t' ht hs => ?_) (nofun : HandshakeMode btSessionNew) hrun
  rw [← Option.some.inj hs]
  exact ht.apply c

/-! ## 3. A frame under the handshake key -/

/-- A key-exchange frame, wrapped by `aes_wrap` under the handshake key and IV of a session, small
    enough for the buffer. -/
structure WrappedKex (env : Env κ) (s : BtSession κ) where
  frame : List UInt8
  outSz : Nat
  wrapped : List UInt8
  magic : kexMagic.isPrefixOf frame = true
  wraps : aesWrapIv env s.unsecureKey s.unsecureIv frame outSz = some wrapped
  fits : wrapped.length ≤ rxMax

/-- The parts of it: two bytes of length, and whole blocks. -/
theorem WrappedKex.parts (w : WrappedKex env s) :
    ∃ ct, w.wrapped = lenBe16 w.frame.length ++ ct ∧ ct.length = padded w.frame.length ∧
      2 + padded w.frame.length ≤ rxMax ∧ env.aesEncrypt s.unsecureKey s.unsecureIv
        (w.frame ++ List.replicate (padded w.frame.length - w.frame.length) 0) = some ct := by
  obtain ⟨ct, hframe, hct, -, henc⟩ := wrapUnder_parts w.wraps
  refine ⟨ct, hframe, hct, ?_, henc⟩
  have hfits := w.fits
  rw [hframe, List.length_append, hct] at hfits
  exact hfits

theorem WrappedKex.length_eq (w : WrappedKex env s) :
    w.wrapped.length = 2 + padded w.frame.length := by
  obtain ⟨ct, hw, hct, -, -⟩ := w.parts
  rw [hw, List.length_append, hct]
  rfl

theorem WrappedKex.headerLen_eq (w : WrappedKex env s) : headerLen w.wrapped = w.frame.length := by
  obtain ⟨ct, hw, -, hfit, -⟩ := w.parts
  have hle := le_padded w.frame.length
  have hrx : rxMax = 512 := rfl
  rw [hw]
  exact lenBe16_toNat (by omega)

/-- The inner frame comes back. -/
theorem WrappedKex.unwraps (w : WrappedKex env s) (hinv : DecryptInverts env) {t : BtSession κ}
    (hsec : t.haveSecure = false) (hkey : t.unsecureKey = s.unsecureKey)
    (hiv : t.unsecureIv = s.unsecureIv) : aesUnwrap env t w.wrapped rxMax = some w.frame := by
  obtain ⟨ct, hw, hct, hfit, henc⟩ := w.parts
  have hle := le_padded w.frame.length
  have hheader := w.headerLen_eq
  have hdrop : w.wrapped.drop 2 = ct := by rw [hw]; rfl
  have hdec : btAesCbcDecrypt env s.unsecureKey s.unsecureIv ct =
      some (w.frame ++ List.replicate (padded w.frame.length - w.frame.length) 0) :=
    decrypt_padded hinv henc
  unfold aesUnwrap
  simp only [hsec, Bool.false_and, Bool.false_eq_true, if_false, hdrop, hheader, hkey, hiv, hct,
    hdec]
  rw [if_neg (by rw [padded_mod]; omega), if_neg (by omega), Option.map_some, List.take_left]

/-- Where the wrapped frame ends: found as soon as it is all there, and not before. -/
theorem WrappedKex.framedLen_eq (w : WrappedKex env s) {p : List UInt8} (hp : p <+: w.wrapped) :
    framedLen false p = 0 ∨ framedLen false p = w.wrapped.length := by
  unfold framedLen
  simp only [Bool.false_eq_true, if_false]
  split
  · exact .inl rfl
  · rename_i h2
    refine .inr ?_
    obtain ⟨t, ht⟩ := hp
    have hheader : headerLen p = w.frame.length := by
      rw [← w.headerLen_eq, ← ht]
      unfold headerLen
      rw [List.getD_append _ _ _ _ (by omega), List.getD_append _ _ _ _ (by omega)]
    rw [hheader, w.length_eq]

/-! ## 4. Pieces -/

/-- The session a piece of a frame meets: in the handshake phase, with the keys of `s`. -/
structure Holds (s t : BtSession κ) : Prop where
  plain : t.plain = false
  haveUnsecure : t.haveUnsecure = true
  haveSecure : t.haveSecure = false
  key : t.unsecureKey = s.unsecureKey
  iv : t.unsecureIv = s.unsecureIv

theorem Holds.setRx {t : BtSession κ} (h : Holds s t) (rx : List UInt8) : Holds s (t.setRx rx) :=
  ⟨h.plain, h.haveUnsecure, h.haveSecure, h.key, h.iv⟩

section Piece

variable {t : BtSession κ} {d : List UInt8}

/-- A piece that begins with the magic is taken for a frame in the clear. -/
theorem routed_magic (h : Holds s t) (hd : kexMagic.isPrefixOf d = true) :
    routed env t d = [.clear d] := by
  unfold routed
  simp [h.plain, h.haveSecure, hd]

variable (env) in
/-- Any other piece is a chunk for the wrapped receiver. -/
theorem feed_chunk (h : Holds s t) (hd : kexMagic.isPrefixOf d = false)
    (hfit : t.rx.length + d.length ≤ rxMax) :
    btSessionFeed env t d = drainWrapped env (t.rx ++ d).length (t.setRx (t.rx ++ d)) ∧
      routed env t d = (taken (wrappedReceiver env) (t.rx ++ d).length t (t.rx ++ d)).filterMap
        fun p => (aesUnwrap env p.1 p.2 rxMax).map .inner := by
  have hp : ¬ t.plain = true := by rw [h.plain]; decide
  have hkex : ¬ (!t.haveSecure && kexMagic.isPrefixOf d) = true := by
    rw [hd]
    simp
  have hu : ¬ (!t.haveUnsecure) = true := by rw [h.haveUnsecure]; decide
  unfold btSessionFeed routed
  simp only [if_neg hp, if_neg hkex, if_neg hu, if_neg (Nat.not_lt.mpr hfit), and_true]
  rfl

/-- **A piece that does not complete the frame** is buffered. -/
theorem feed_part (w : WrappedKex env s) (h : Holds s t) (hd : kexMagic.isPrefixOf d = false)
    (hp : t.rx ++ d <+: w.wrapped) (hne : t.rx ++ d ≠ w.wrapped) :
    btSessionFeed env t d = t.setRx (t.rx ++ d) ∧ routed env t d = [] := by
  have hle := hp.length_le
  have hlt : (t.rx ++ d).length < w.wrapped.length :=
    Nat.lt_of_le_of_ne hle fun heq => hne (hp.eq_of_length heq)
  have hfits := w.fits
  rw [List.length_append] at hle
  obtain ⟨hfeed, hrouted⟩ := feed_chunk env h hd (by omega)
  have hwait : (wrappedReceiver env).cut t (t.rx ++ d) = none := by
    refine if_pos ?_
    show framedLen t.haveSecure (t.rx ++ d) = 0 ∨
      (t.rx ++ d).length < framedLen t.haveSecure (t.rx ++ d)
    rw [h.haveSecure]
    exact (w.framedLen_eq hp).imp_right fun heq => by rw [heq]; exact hlt
  rw [hfeed, hrouted, drainWrapped_eq, drain_wait hwait, taken_wait hwait]
  exact ⟨rfl, rfl⟩

/-- **The piece that completes the frame**: the inner frame goes to `handle_kex`. -/
theorem feed_last (w : WrappedKex env s) (hinv : DecryptInverts env) (h : Holds s t)
    (hd : kexMagic.isPrefixOf d = false) (hw : t.rx ++ d = w.wrapped) :
    btSessionFeed env t d = (handleKex env t w.frame).setRx [] ∧
      routed env t d = [.inner w.frame] := by
  have hlen := w.length_eq
  have hfits := w.fits
  have hbuf : t.rx.length + d.length = w.wrapped.length := by rw [← List.length_append, hw]
  obtain ⟨hfeed, hrouted⟩ := feed_chunk env h hd (by omega)
  have hcut : (wrappedReceiver env).cut t w.wrapped = some w.wrapped.length := by
    have hneed : framedLen t.haveSecure w.wrapped = w.wrapped.length := by
      rw [h.haveSecure]
      refine (w.framedLen_eq (List.prefix_refl _)).resolve_left fun h0 => ?_
      unfold framedLen at h0
      simp only [Bool.false_eq_true, if_false] at h0
      split at h0
      · omega
      · omega
    simp only [wrappedReceiver, hneed]
    rw [if_neg (by omega)]
  have hun : aesUnwrap env t w.wrapped rxMax = some w.frame :=
    w.unwraps hinv h.haveSecure h.key h.iv
  have hhandle : (wrappedReceiver env).handle t (w.wrapped.take w.wrapped.length) =
      some (handleKex env t w.frame) := by
    rw [List.take_length]
    show (aesUnwrap env t w.wrapped rxMax).map (dispatchInner env t) = _
    rw [hun, Option.map_some, dispatchInner, if_pos w.magic]
  obtain ⟨fuel, hfuel⟩ : ∃ n, w.wrapped.length = n + 1 := ⟨w.wrapped.length - 1, by omega⟩
  have hnil : (wrappedReceiver env).cut (handleKex env t w.frame) [] = none :=
    if_pos (.inl (framedLen_nil _))
  rw [hfeed, hrouted, drainWrapped_eq, hw, hfuel, drain_take hcut hhandle, taken_take hcut hhandle,
    List.drop_length, drain_wait hnil, taken_wait hnil, List.take_length]
  exact ⟨rfl, by simp [hun]⟩

variable (env) in
/-- Nothing comes out of empty pieces behind it. -/
theorem feed_empty (hp : t.plain = false) (hrx : t.rx = []) :
    btSessionFeed env t [] = t ∧ routed env t [] = [] := by
  have hp : ¬ t.plain = true := by rw [hp]; decide
  have hkex : ¬ (!t.haveSecure && kexMagic.isPrefixOf []) = true := by
    rw [show kexMagic.isPrefixOf [] = false from rfl]
    simp
  have hfit : ¬ t.rx.length + ([] : List UInt8).length > rxMax := by
    rw [hrx]
    decide
  have hbuf : t.rx ++ [] = [] := by rw [hrx]; rfl
  have hsame : t.setRx [] = t := by rw [← hrx]; rfl
  unfold btSessionFeed routed
  simp only [if_neg hp, if_neg hkex, if_neg hfit, hbuf]
  split
  · exact ⟨rfl, rfl⟩
  · exact ⟨hsame, rfl⟩

end Piece

/-! ## 5. All the pieces -/

variable (env) in
theorem feedAll_empty {t : BtSession κ} (hp : t.plain = false) (hrx : t.rx = [])
    {ds : List (List UInt8)} (hds : ds.flatten = []) :
    feedAll env t ds = t ∧ routedAll env t ds = [] := by
  induction ds with
  | nil => exact ⟨rfl, rfl⟩
  | cons d ds ih =>
      obtain ⟨rfl, hds⟩ := List.append_eq_nil_iff.mp (List.flatten_cons ▸ hds)
      obtain ⟨hfeed, hrouted⟩ := feed_empty env hp hrx
      obtain ⟨ih1, ih2⟩ := ih hds
      refine ⟨?_, by rw [routedAll, hfeed, hrouted, ih2]; rfl⟩
      show feedAll env (btSessionFeed env t []) ds = t
      rw [hfeed, ih1]

/-- **No piece begins with the magic**: the frame comes out, once. The induction is on the pieces;
    what was fed is in the buffer until the frame is complete. -/
theorem pieces_recovered (w : WrappedKex env s) (hinv : DecryptInverts env) {t : BtSession κ}
    (h : Holds s t) {ds : List (List UInt8)} (hw : t.rx ++ ds.flatten = w.wrapped)
    (hmore : t.rx ≠ w.wrapped) (hds : ∀ d ∈ ds, kexMagic.isPrefixOf d = false) :
    feedAll env t ds = (handleKex env t w.frame).setRx [] ∧
      routedAll env t ds = [.inner w.frame] := by
  induction ds generalizing t with
  | nil => exact absurd ((List.append_nil _).symm.trans hw) hmore
  | cons d ds ih =>
      obtain ⟨hd, hds⟩ := List.forall_mem_cons.mp hds
      rw [List.flatten_cons, ← List.append_assoc] at hw
      by_cases hlast : t.rx ++ d = w.wrapped
      · obtain ⟨hfeed, hrouted⟩ := feed_last w hinv h hd hlast
        have hrest : ds.flatten = [] := by
          rw [hlast] at hw
          exact List.append_right_eq_self.mp hw
        have hplain : ((handleKex env t w.frame).setRx []).plain = false :=
          (kexFrame_handleKex t w.frame).plain.trans h.plain
        obtain ⟨h1, h2⟩ := feedAll_empty env hplain rfl hrest
        refine ⟨?_, by rw [routedAll, hfeed, hrouted, h2]; rfl⟩
        show feedAll env (btSessionFeed env t d) ds = _
        rw [hfeed, h1]
      · obtain ⟨hfeed, hrouted⟩ := feed_part w h hd ⟨_, hw⟩ hlast
        obtain ⟨h1, h2⟩ := ih (h.setRx (t.rx ++ d)) hw hlast hds
        rw [handleKex_setRx, setRx_setRx] at h1
        refine ⟨?_, by rw [routedAll, hfeed, hrouted, h2]; rfl⟩
        show feedAll env (btSessionFeed env t d) ds = _
        rw [hfeed, h1]

/-- **A piece begins with the magic**: it is taken for a frame in the clear. -/
theorem pieces_misrouted (w : WrappedKex env s) {t : BtSession κ} (h : Holds s t)
    {ds : List (List UInt8)} (hw : t.rx ++ ds.flatten = w.wrapped)
    (hmagic : ∃ d ∈ ds, kexMagic.isPrefixOf d = true) :
    ∃ d ∈ ds, .clear d ∈ routedAll env t ds := by
  induction ds generalizing t with
  | nil =>
      obtain ⟨d, hd, -⟩ := hmagic
      cases hd
  | cons d ds ih =>
      cases hd : kexMagic.isPrefixOf d with
      | true =>
          refine ⟨d, List.mem_cons_self, ?_⟩
          rw [routedAll, routed_magic h hd]
          exact List.mem_cons_self
      | false =>
          obtain ⟨m, hm, hpre⟩ := hmagic
          have hm : m ∈ ds := by
            rcases List.mem_cons.mp hm with rfl | hm
            · rw [hpre] at hd
              cases hd
            · exact hm
          rw [List.flatten_cons, ← List.append_assoc] at hw
          have hpart : t.rx ++ d ≠ w.wrapped := by
            intro hlast
            rw [hlast] at hw
            have hnil := List.flatten_eq_nil_iff.mp (List.append_right_eq_self.mp hw) m hm
            rw [hnil] at hpre
            cases hpre
          obtain ⟨hfeed, -⟩ := feed_part w h hd ⟨_, hw⟩ hpart
          obtain ⟨c, hc, hmem⟩ := ih (h.setRx (t.rx ++ d)) hw ⟨m, hm, hpre⟩
          refine ⟨c, List.mem_cons_of_mem _ hc, ?_⟩
          rw [routedAll, hfeed]
          exact List.mem_append_right _ hmem

/-- **The inner frame is recovered**: it comes out once, nothing else does, and the session is where
    the frame alone takes it. -/
structure Recovers (env : Env κ) (s : BtSession κ) (frame : List UInt8)
    (pieces : List (List UInt8)) : Prop where
  once : routedAll env s pieces = [.inner frame]
  handled : feedAll env s pieces = handleKex env s frame

/-- **A wrapped key-exchange frame in pieces**, in every reachable session of the handshake phase
    with an empty buffer: the inner frame is recovered exactly where no piece begins with the
    magic. -/
theorem recovers_iff (hinv : DecryptInverts env) (hr : Reachable env s)
    (hu : s.haveUnsecure = true) (hsec : s.haveSecure = false) (hrx : s.rx = [])
    (w : WrappedKex env s) (pieces : List (List UInt8)) (hcut : pieces.flatten = w.wrapped) :
    Recovers env s w.frame pieces ↔ ∀ d ∈ pieces, kexMagic.isPrefixOf d = false := by
  have hold : Holds s s := ⟨(handshakeMode_reachable hr hu).2, hu, hsec, rfl, rfl⟩
  have hw : s.rx ++ pieces.flatten = w.wrapped := by rw [hrx, hcut]; rfl
  have hmore : s.rx ≠ w.wrapped := by
    intro h
    have hlen := w.length_eq
    rw [← h, hrx, List.length_nil] at hlen
    omega
  constructor
  · intro h d hd
    rw [Bool.eq_false_iff]
    intro hmagic
    obtain ⟨c, -, hc⟩ := pieces_misrouted w hold hw ⟨d, hd, hmagic⟩
    rw [h.once, List.mem_singleton] at hc
    cases hc
  · intro hpieces
    obtain ⟨h1, h2⟩ := pieces_recovered w hinv hold hw hmore hpieces
    refine ⟨h2, h1.trans ?_⟩
    rw [← handleKex_setRx, ← hrx]
    rfl

def challenged : BtSession Nat := sessAfter toyEnv [.op (challengeMsg [1, 2, 3, 4])]

/-- A message with a peer key of one byte, over and over. -/
def pubkeyOf (key : UInt8) : List UInt8 :=
  let body := [msgPeerPubkey, 0x80] ++ List.replicate 64 key ++ List.replicate 64 7
  kexMagic ++ body ++ hexsum body

/-- Two of them, wrapped under the handshake key; the key of the second is made of magic bytes. -/
def wrappedPubkey : WrappedKex toyEnv challenged where
  frame := pubkeyOf 7
  outSz := rxMax
  wrapped := lenBe16 134 ++ pubkeyOf 7 ++ List.replicate 10 0
  magic := rfl
  wraps := by decide +kernel
  fits := by decide +kernel

def wrappedMagic : WrappedKex toyEnv challenged where
  frame := pubkeyOf 0x2A
  outSz := rxMax
  wrapped := lenBe16 134 ++ pubkeyOf 0x2A ++ List.replicate 10 0
  magic := rfl
  wraps := by decide +kernel
  fits := by decide +kernel

/-- Notifications of so many bytes. -/
def inPieces (n : Nat) (bytes : List UInt8) : List (List UInt8) :=
  (List.range ((bytes.length + n - 1) / n)).map fun i => (bytes.drop (n * i)).take n

/-- A peer key in notifications of 20 bytes. -/
theorem recovers_iff_pubkey :
    Recovers toyEnv challenged wrappedPubkey.frame (inPieces 20 wrappedPubkey.wrapped) :=
  (recovers_iff decryptInverts_toyEnv (reachable_after toyEnv _) (by decide)
    (by decide) (by decide) wrappedPubkey _ (by decide +kernel)).mpr
    (by decide +kernel)

/-- **A key with the magic in its bytes is lost**: the second notification begins with it. -/
theorem pubkey_not_recovered :
    Reachable toyEnv challenged ∧ challenged.haveUnsecure = true ∧ challenged.haveSecure = false ∧
      challenged.rx = [] ∧
      (inPieces 20 wrappedMagic.wrapped).flatten = wrappedMagic.wrapped ∧
      ¬ Recovers toyEnv challenged wrappedMagic.frame
        (inPieces 20 wrappedMagic.wrapped) := by
  refine ⟨reachable_after toyEnv _, by decide, by decide, by decide,
    by decide +kernel, fun h => ?_⟩
  have hrouted : routedAll toyEnv challenged (inPieces 20 wrappedMagic.wrapped) ≠
      [.inner wrappedMagic.frame] := by decide +kernel
  exact hrouted h.once

end NutBluetti.Ble
