/-
  File:      NutBluetti/Ble/SessionWrap.lean
  Subject:   THE ENCRYPTED TRANSPORT, THERE AND BACK. `aes_wrap`, `framed_len` and `aes_unwrap` each
             compute header and padding on their own.

  * `WrappedPlain` -- a plaintext, and the frame `aes_wrap` makes of it under a secure key;
  * **`framedLen_frame`**, **`aesUnwrap_frame`** -- the length is predicted, and the plaintext comes
    back;
  * `RoundTrip` -- a stream of such frames hands over its plaintexts, once and in order, and leaves
    the buffer empty;
  * **`frames_ignored`** -- a ready session that hands over nothing: it took a key with no challenge
    since the reset;
  * **`roundTrip_iff`** -- in a ready session with the secure key the round trip holds exactly where
    a challenge was taken.
-/
import NutBluetti.Ble.SessionGate

namespace NutBluetti.Ble

open StepMachine Reassembly

variable {κ : Type} {env : Env κ} {key : List UInt8}

/-! ## 1. A frame -/

/-- A plaintext that is no key exchange, wrapped under `key` with a seed, into a buffer of 512
    bytes. -/
structure WrappedPlain (env : Env κ) (key : List UInt8) where
  plain : List UInt8
  seed : List UInt8
  frame : List UInt8
  seed_length : seed.length = 4
  wrapped : wrapUnder env key (env.md5 seed) (lenBe16 plain.length ++ seed) plain rxMax = some frame
  not_kex : kexMagic.isPrefixOf plain = false

/-- What `aes_wrap` makes with a seed of its own. -/
def WrappedPlain.ofSeed (s : BtSession κ) {s' : BtSession κ} (plain : List UInt8)
    {frame : List UInt8}
    (h : aesWrapSeed env s key plain rxMax = (some frame, s'))
    (hkex : kexMagic.isPrefixOf plain = false) : WrappedPlain env key where
  plain := plain
  seed := env.random s.draws
  frame := frame
  seed_length := env.random_length s.draws
  wrapped := congrArg Prod.fst h
  not_kex := hkex

/-- Decryption inverts encryption, on whole blocks. -/
def DecryptInverts (env : Env κ) : Prop :=
  ∀ k iv p c, p.length % btAesBlock = 0 → env.aesEncrypt k iv p = some c →
    env.aesDecrypt k iv c = some p

theorem le_padded (n : Nat) : n ≤ padded n := by
  unfold padded btAesBlock
  omega

theorem padded_mod (n : Nat) : padded n % btAesBlock = 0 := Nat.mul_mod_left _ _

theorem length_padding (plain : List UInt8) :
    (plain ++ List.replicate (padded plain.length - plain.length) 0).length =
      padded plain.length := by
  have hle := le_padded plain.length
  rw [List.length_append, List.length_replicate]
  omega

/-- What `aes_wrap` makes under any header: the header, and a ciphertext of whole blocks. -/
theorem wrapUnder_parts {iv header plain frame : List UInt8} {outSz : Nat}
    (h : wrapUnder env key iv header plain outSz = some frame) :
    ∃ ct, frame = header ++ ct ∧ ct.length = padded plain.length ∧
      header.length + padded plain.length ≤ outSz ∧ env.aesEncrypt key iv
        (plain ++ List.replicate (padded plain.length - plain.length) 0) = some ct := by
  have hlen := length_padding plain
  unfold wrapUnder at h
  split at h
  · cases h
  rename_i hfit
  obtain ⟨ct, hct, hframe⟩ := Option.map_eq_some_iff.mp h
  unfold btAesCbcEncrypt at hct
  rw [hlen, if_neg (by rw [padded_mod]; decide)] at hct
  exact ⟨ct, hframe.symm, (env.aesEncrypt_length _ _ _ _ hct).trans hlen, by omega, hct⟩

/-- The padded plaintext comes back. -/
theorem decrypt_padded (hinv : DecryptInverts env) {iv plain ct : List UInt8}
    (henc : env.aesEncrypt key iv
      (plain ++ List.replicate (padded plain.length - plain.length) 0) = some ct) :
    btAesCbcDecrypt env key iv ct =
      some (plain ++ List.replicate (padded plain.length - plain.length) 0) := by
  have hlen := length_padding plain
  unfold btAesCbcDecrypt
  rw [env.aesEncrypt_length _ _ _ _ henc, hlen, if_neg (by rw [padded_mod]; decide)]
  refine hinv _ _ _ _ ?_ henc
  rw [hlen, padded_mod]

/-- The parts of a frame: the header, and a ciphertext of whole blocks that fits the buffer. -/
theorem frame_parts (w : WrappedPlain env key) :
    ∃ ct, w.frame = lenBe16 w.plain.length ++ w.seed ++ ct ∧ ct.length = padded w.plain.length ∧
      6 + padded w.plain.length ≤ rxMax ∧
      env.aesEncrypt key (env.md5 w.seed)
        (w.plain ++ List.replicate (padded w.plain.length - w.plain.length) 0) = some ct := by
  have hheader : (lenBe16 w.plain.length ++ w.seed).length = 6 := by simp [lenBe16, w.seed_length]
  obtain ⟨ct, hframe, hct, hfit, henc⟩ := wrapUnder_parts w.wrapped
  rw [hheader] at hfit
  exact ⟨ct, hframe, hct, hfit, henc⟩

theorem lenBe16_toNat {n : Nat} (h : n < 65536) :
    (UInt8.ofNat (n / 256)).toNat * 256 + (UInt8.ofNat n).toNat = n := by
  rw [UInt8.toNat_ofNat', UInt8.toNat_ofNat']
  omega

/-- The length in the header, whatever follows the frame. -/
theorem headerLen_frame (w : WrappedPlain env key) (rest : List UInt8) :
    headerLen (w.frame ++ rest) = w.plain.length := by
  obtain ⟨ct, hframe, -, hfit, -⟩ := frame_parts w
  have hle := le_padded w.plain.length
  have hrx : rxMax = 512 := rfl
  rw [hframe]
  exact lenBe16_toNat (by omega)

theorem frame_length (w : WrappedPlain env key) : w.frame.length = 6 + padded w.plain.length := by
  obtain ⟨ct, hframe, hct, -, -⟩ := frame_parts w
  rw [hframe, List.length_append, List.length_append, hct, w.seed_length]
  rfl

/-- **The length predicted is the length `aes_wrap` returned**, whatever follows the frame. -/
theorem framedLen_frame (w : WrappedPlain env key) (rest : List UInt8) :
    framedLen true (w.frame ++ rest) = w.frame.length := by
  have hlen := frame_length w
  unfold framedLen
  simp only [if_true, headerLen_frame]
  rw [if_neg (by rw [List.length_append]; omega), hlen]

/-- **The plaintext comes back.** -/
theorem aesUnwrap_frame (hinv : DecryptInverts env) (w : WrappedPlain env key) {s : BtSession κ}
    (hsec : s.haveSecure = true) (hkey : s.secureKey = key) :
    aesUnwrap env s w.frame rxMax = some w.plain := by
  obtain ⟨ct, hframe, hct, hfit, henc⟩ := frame_parts w
  have hlen := frame_length w
  have hle := le_padded w.plain.length
  have hheader : (lenBe16 w.plain.length ++ w.seed).length = 6 := by simp [lenBe16, w.seed_length]
  have hdrop : w.frame.drop 6 = ct := by
    rw [hframe, ← hheader, List.drop_left]
  have hseed : (w.frame.drop 2).take 4 = w.seed := by
    rw [hframe, ← w.seed_length]
    simp [lenBe16]
  have hplain : headerLen w.frame = w.plain.length := by
    have := headerLen_frame w []
    rwa [List.append_nil] at this
  have hdec : btAesCbcDecrypt env key (env.md5 w.seed) ct =
      some (w.plain ++ List.replicate (padded w.plain.length - w.plain.length) 0) :=
    decrypt_padded hinv henc
  unfold aesUnwrap
  simp only [hsec, Bool.true_and, if_true, hdrop, hseed, hplain, hkey, hct, hdec]
  rw [if_neg (by rw [decide_eq_true_eq]; omega), if_neg (by rw [padded_mod]; omega),
    if_neg (by omega), Option.map_some, List.take_left]

/-! ## 2. Streams of frames -/

/-- A session that takes wrapped frames under `key`. -/
structure Open (key : List UInt8) (s : BtSession κ) : Prop where
  plain : s.plain = false
  haveSecure : s.haveSecure = true
  haveUnsecure : s.haveUnsecure = true
  secureKey : s.secureKey = key

/-- What the wrapped loop does with a frame that unwraps. -/
def unwrapAndHandle (env : Env κ) (s : BtSession κ) (frame : List UInt8) : BtSession κ :=
  dispatchInner env s ((aesUnwrap env s frame rxMax).getD [])

theorem dispatchInner_frame (w : WrappedPlain env key) (s : BtSession κ) :
    dispatchInner env s w.plain = handleModbus s w.plain := by
  unfold dispatchInner
  rw [w.not_kex]
  rfl

theorem Open.modbus {s : BtSession κ} (h : Open key s) (f : List UInt8) :
    Open key (handleModbus s f) := by
  obtain ⟨log, hl⟩ := handleModbus_log s f
  rw [hl]
  exact ⟨h.plain, h.haveSecure, h.haveUnsecure, h.secureKey⟩

theorem unwrapAndHandle_frame (hinv : DecryptInverts env) (w : WrappedPlain env key)
    {s : BtSession κ} (h : Open key s) :
    unwrapAndHandle env s w.frame = handleModbus s w.plain := by
  unfold unwrapAndHandle
  rw [aesUnwrap_frame hinv w h.haveSecure h.secureKey, Option.getD_some, dispatchInner_frame]

/-- The wrapped receiver finds the end of every frame, and not before it is all there. -/
theorem delimited_frame (hinv : DecryptInverts env) (w : WrappedPlain env key) :
    Delimited (wrappedReceiver env) (Open key) (unwrapAndHandle env) w.frame := by
  have hlen := frame_length w
  have hne : w.frame ≠ [] := List.ne_nil_of_length_pos (by omega)
  refine ⟨hne, fun s hs rest => ?_, fun s hs p hp hne => ?_, fun s hs => ?_, fun s hs => ?_⟩
  · have hneed := framedLen_frame w rest
    simp only [wrappedReceiver, hs.haveSecure, hneed, List.length_append]
    rw [if_neg (by omega)]
  · obtain ⟨t, ht⟩ := hp
    have hlt : p.length < w.frame.length := by
      have htpos : t ≠ [] := fun h => hne (by rw [← ht, h, List.append_nil])
      have := List.length_pos_iff.mpr htpos
      rw [← ht, List.length_append]
      omega
    simp only [wrappedReceiver, hs.haveSecure]
    by_cases h6 : p.length < 6
    · exact if_pos (.inl (if_pos h6))
    · have hneed : framedLen true p = w.frame.length := by
        have hh : headerLen p = w.plain.length := by
          have := headerLen_frame w []
          rw [List.append_nil, ← ht] at this
          rw [← this]
          unfold headerLen
          rw [List.getD_append _ _ _ _ (by omega), List.getD_append _ _ _ _ (by omega)]
        unfold framedLen
        simp only [if_true, hh]
        rw [if_neg h6, hlen]
      rw [hneed]
      exact if_pos (.inr hlt)
  · show (aesUnwrap env s w.frame rxMax).map (dispatchInner env s) = _
    rw [unwrapAndHandle, aesUnwrap_frame hinv w hs.haveSecure hs.secureKey]
    rfl
  · rw [unwrapAndHandle_frame hinv w hs]
    exact hs.modbus w.plain

/-- The messages a stream of notifications hands over. -/
def handedOverAll (env : Env κ) : BtSession κ → List (List UInt8) → List Inner
  | _, [] => []
  | s, d :: ds =>
      (handedOver env s d).map Prod.snd ++ handedOverAll env (btSessionFeed env s d) ds

/-- A notification in an open session is a chunk for the wrapped receiver. -/
theorem feed_open (env : Env κ) {s : BtSession κ} (h : Open key s) {d : List UInt8}
    (hfit : s.rx.length + d.length ≤ rxMax) :
    btSessionFeed env s d =
        (drain (wrappedReceiver env) (s.rx ++ d).length s (s.rx ++ d)).1.setRx
          (drain (wrappedReceiver env) (s.rx ++ d).length s (s.rx ++ d)).2 ∧
      handedOver env s d =
        (taken (wrappedReceiver env) (s.rx ++ d).length s (s.rx ++ d)).filterMap
          (unwrapped env) := by
  have hp : ¬ s.plain = true := by rw [h.plain]; decide
  have hkex : ¬ (!s.haveSecure && kexMagic.isPrefixOf d) = true := by
    rw [h.haveSecure]
    simp
  have hu : ¬ (!s.haveUnsecure) = true := by rw [h.haveUnsecure]; decide
  unfold btSessionFeed handedOver
  simp only [if_neg hp, if_neg hkex, if_neg hu, if_neg (Nat.not_lt.mpr hfit), and_true]
  exact drainWrapped_eq env (s.rx ++ d).length s (s.rx ++ d)

theorem foldl_frames (hinv : DecryptInverts env) (sent : List (WrappedPlain env key))
    {s : BtSession κ} (h : Open key s) :
    (sent.map (·.frame)).foldl (unwrapAndHandle env) s =
      (sent.map (·.plain)).foldl handleModbus s := by
  induction sent generalizing s with
  | nil => rfl
  | cons w ws ih =>
      simp only [List.map_cons, List.foldl_cons, unwrapAndHandle_frame hinv w h]
      exact ih (h.modbus w.plain)

/-- Frames taken by open sessions are messages for `handle_modbus`. -/
theorem unwrapped_frames (hinv : DecryptInverts env) (sent : List (WrappedPlain env key))
    {l : List (BtSession κ × List UInt8)} (hl : l.map Prod.snd = sent.map (·.frame))
    (hopen : ∀ p ∈ l, Open key p.1) :
    (l.filterMap (unwrapped env)).map Prod.snd = sent.map fun w => .modbus w.plain := by
  induction l generalizing sent with
  | nil =>
      cases sent with
      | nil => rfl
      | cons w ws => cases hl
  | cons p l ih =>
      cases sent with
      | nil => cases hl
      | cons w ws =>
          obtain ⟨hp, hl⟩ := List.cons.inj hl
          obtain ⟨h0, hopen⟩ := List.forall_mem_cons.mp hopen
          have hun : unwrapped env p = some (p.1, .modbus w.plain) := by
            unfold unwrapped
            rw [show p.2 = w.frame from hp, aesUnwrap_frame hinv w h0.haveSecure h0.secureKey,
              Option.map_some, innerOf, w.not_kex]
            rfl
          rw [List.filterMap_cons_some hun, List.map_cons, List.map_cons, ih ws hl hopen]

/-- Handling frames of Modbus leaves the buffer alone. -/
theorem foldl_modbus_setRx (fs : List (List UInt8)) (s : BtSession κ) (rx : List UInt8) :
    fs.foldl handleModbus (s.setRx rx) = (fs.foldl handleModbus s).setRx rx := by
  induction fs generalizing s with
  | nil => rfl
  | cons f fs ih => rw [List.foldl_cons, List.foldl_cons, handleModbus_setRx, ih]

theorem Open.foldl {s : BtSession κ} (h : Open key s) (fs : List (List UInt8)) :
    Open key (fs.foldl handleModbus s) := by
  induction fs generalizing s with
  | nil => exact h
  | cons f fs ih => exact ih (h.modbus f)

theorem Open.setRx {s : BtSession κ} (h : Open key s) (rx : List UInt8) : Open key (s.setRx rx) :=
  ⟨h.plain, h.haveSecure, h.haveUnsecure, h.secureKey⟩

/-- **A stream of frames in an open session**, from a buffer that waits. The induction is on the
    notifications: each takes the frames it completes. -/
theorem open_stream (hinv : DecryptInverts env) {sent : List (WrappedPlain env key)}
    {s : BtSession κ} (h : Open key s) (hw : Waiting s.rx (sent.map (·.frame)))
    {cuts : List (List UInt8)} (hb : s.rx ++ cuts.flatten = (sent.map (·.frame)).flatten)
    (hfit : Fits env s cuts) :
    handedOverAll env s cuts = sent.map (fun w => .modbus w.plain) ∧
      feedAll env s cuts = ((sent.map (·.plain)).foldl handleModbus s).setRx [] := by
  have hall : ∀ f ∈ sent.map (·.frame),
      Delimited (wrappedReceiver env) (Open key) (unwrapAndHandle env) f := by
    intro f hf
    obtain ⟨w, -, rfl⟩ := List.mem_map.mp hf
    exact delimited_frame hinv w
  induction cuts generalizing s sent with
  | nil =>
      rw [List.flatten_nil, List.append_nil] at hb
      obtain ⟨hrx, hnil⟩ := nil_of_waiting (fun f hf => (hall f hf).ne_nil) hw hb
      obtain rfl := List.map_eq_nil_iff.mp hnil
      exact ⟨rfl, by rw [← hrx]; rfl⟩
  | cons d ds ih =>
      obtain ⟨hd, hds⟩ := hfit
      rw [List.flatten_cons, ← List.append_assoc] at hb
      have hnil : ∀ t : BtSession κ, Open key t → (wrappedReceiver env).cut t [] = none :=
        fun t _ => if_pos (.inl (framedLen_nil _))
      obtain ⟨done, todo, tail, hsplit, htail, hwait, hdrain, htaken, hopen⟩ :=
        drain_stream hnil hall h hb (Nat.le_refl _)
      obtain ⟨sent, left, rfl, rfl, rfl⟩ := List.map_eq_append_iff.mp hsplit
      obtain ⟨hfeed, hhand⟩ := feed_open env h hd
      rw [hdrain, foldl_frames hinv sent h] at hfeed
      have hstates : ∀ p ∈ taken (wrappedReceiver env) (s.rx ++ d).length s (s.rx ++ d),
          Open key p.1 := by
        refine (drain_inv (R := wrappedReceiver env) (Open key) _ _ h fun p hp hI t ht => ?_).2
        have hmem : p.2 ∈ sent.map (·.frame) := htaken ▸ List.mem_map_of_mem hp
        have hdel := hall p.2 (by rw [List.map_append]; exact List.mem_append_left _ hmem)
        rw [hdel.handled p.1 hI] at ht
        rw [← Option.some.inj ht]
        exact hdel.keeps p.1 hI
      have hnext : Open key (btSessionFeed env s d) := by
        rw [hfeed]
        exact (h.foldl _).setRx tail
      have hrx : (btSessionFeed env s d).rx = tail := by
        rw [hfeed]
        rfl
      have hleft : Waiting (btSessionFeed env s d).rx (left.map (·.frame)) := by
        rw [hrx]
        exact hwait
      obtain ⟨ih1, ih2⟩ := ih hnext hleft
        (by rw [hrx]; exact htail) hds
        (fun f hf => hall f (by rw [List.map_append]; exact List.mem_append_right _ hf))
      constructor
      · rw [handedOverAll, ih1, hhand, unwrapped_frames hinv sent htaken hstates, List.map_append]
      · show feedAll env (btSessionFeed env s d) ds = _
        rw [ih2, hfeed, foldl_modbus_setRx, setRx_setRx, List.map_append, List.foldl_append]

/-! ## 3. The round trip -/

/-- **The round trip** of a stream of frames: each length is predicted, the plaintexts are handed
    over once and in order, `handle_modbus` gets each, and the buffer ends empty. -/
structure RoundTrip (env : Env κ) (s : BtSession κ) (sent : List (WrappedPlain env s.secureKey))
    (cuts : List (List UInt8)) : Prop where
  lengths : ∀ w ∈ sent, framedLen s.haveSecure w.frame = w.frame.length
  inOrder : handedOverAll env s cuts = sent.map fun w => .modbus w.plain
  handled : feedAll env s cuts = (sent.map (·.plain)).foldl handleModbus s
  empty : (feedAll env s cuts).rx = []

/-- A session without a challenge since the reset ignores what comes, once it has the secure key. -/
theorem feed_ignored (env : Env κ) {s : BtSession κ} (hp : s.plain = false)
    (hsec : s.haveSecure = true)
    (hu : s.haveUnsecure = false) (d : List UInt8) :
    btSessionFeed env s d = s ∧ handedOver env s d = [] := by
  unfold btSessionFeed handedOver
  simp [hp, hsec, hu]

theorem feedAll_ignored (env : Env κ) {s : BtSession κ} (hp : s.plain = false)
    (hsec : s.haveSecure = true)
    (hu : s.haveUnsecure = false) (cuts : List (List UInt8)) :
    feedAll env s cuts = s ∧ handedOverAll env s cuts = [] := by
  induction cuts with
  | nil => exact ⟨rfl, rfl⟩
  | cons d ds ih =>
      obtain ⟨h1, h2⟩ := feed_ignored env hp hsec hu d
      refine ⟨?_, by rw [handedOverAll, h1, h2, ih.2]; rfl⟩
      show feedAll env (btSessionFeed env s d) ds = s
      rw [h1, ih.1]

/-- **The round trip of the encrypted transport**, in every ready session with the secure key and an
    empty buffer, for any plaintexts, seeds and cuts: it holds exactly where a challenge was taken
    since the reset (or nothing is sent). -/
theorem roundTrip_iff (env : Env κ) (hinv : DecryptInverts env) (s : BtSession κ)
    (hr : Reachable env s) (_hready : btSessionReady s = true) (hsec : s.haveSecure = true)
    (hrx : s.rx = []) (sent : List (WrappedPlain env s.secureKey)) (cuts : List (List UInt8))
    (hcut : cuts.flatten = (sent.map (·.frame)).flatten) (hfit : Fits env s cuts) :
    RoundTrip env s sent cuts ↔ s.haveUnsecure = true ∨ sent = [] := by
  have hplain : s.plain = false := by
    rw [Bool.eq_false_iff]
    intro hp
    rw [((modes_reachable hr).plain hp).2] at hsec
    cases hsec
  have hlengths : ∀ w ∈ sent, framedLen s.haveSecure w.frame = w.frame.length := by
    intro w _
    have := framedLen_frame w []
    rwa [List.append_nil, ← hsec] at this
  constructor
  · intro h
    rcases Bool.eq_false_or_eq_true s.haveUnsecure with hu | hu
    · exact .inl hu
    · have hnone := h.inOrder
      rw [(feedAll_ignored env hplain hsec hu cuts).2] at hnone
      exact .inr (List.map_eq_nil_iff.mp hnone.symm)
  · intro h
    rcases Bool.eq_false_or_eq_true s.haveUnsecure with hu | hu
    · obtain ⟨h1, h2⟩ := open_stream hinv ⟨hplain, hsec, hu, rfl⟩ (.inl hrx)
        (by rw [hrx]; exact hcut) hfit
      have hback : ((sent.map (·.plain)).foldl handleModbus s).setRx [] =
          (sent.map (·.plain)).foldl handleModbus s := by
        rw [← foldl_modbus_setRx, ← hrx]
        rfl
      exact ⟨hlengths, h1, h2.trans hback, by rw [h2]; rfl⟩
    · obtain rfl : sent = [] := h.resolve_left (by rw [hu]; decide)
      obtain ⟨h1, h2⟩ := feedAll_ignored env hplain hsec hu cuts
      exact ⟨hlengths, h2, h1, by rw [h1]; exact hrx⟩

theorem decryptInverts_toyEnv : DecryptInverts toyEnv := fun _ _ _ _ _ h => h.symm

def handshake : List SessCall :=
  [.op (challengeMsg [1, 2, 3, 4]), .op peerPubkeyMsg, .op pubkeyAcceptedMsg]

/-- The answer to a read, an empty plaintext and one of a whole block. -/
def toyFrames (key : List UInt8) : List (WrappedPlain toyEnv key) :=
  [.ofSeed btSessionNew (readReply [0, 75]) rfl rfl, .ofSeed btSessionNew [] rfl rfl,
    .ofSeed btSessionNew (List.replicate 16 9) rfl rfl]

/-- The three frames, in notifications of five bytes. -/
theorem roundTrip_iff_handshake :
    let s := sessAfter toyEnv handshake
    let stream := ((toyFrames s.secureKey).map (·.frame)).flatten
    RoundTrip toyEnv s (toyFrames s.secureKey)
      ((List.range 10).map fun i => (stream.drop (5 * i)).take 5) :=
  (roundTrip_iff toyEnv decryptInverts_toyEnv (sessAfter toyEnv handshake)
    (reachable_after toyEnv handshake) (by decide +kernel) (by decide +kernel) (by decide +kernel)
    (toyFrames _) _ (by decide +kernel) (by decide +kernel)).mpr (.inl (by decide +kernel))

/-- A handshake, a reset, and the peer's signed key once more, with no challenge before it. -/
def replayed : List SessCall :=
  handshake ++ [.reset, .op peerPubkeyMsg, .op pubkeyAcceptedMsg]

/-- **A ready session with the secure key that ignores its own frames**: the key was taken without a
    challenge. -/
theorem frames_ignored :
    let s := sessAfter toyEnv replayed
    let sent := toyFrames s.secureKey
    Reachable toyEnv s ∧ btSessionReady s = true ∧ s.haveSecure = true ∧ s.rx = [] ∧
      Fits toyEnv s (sent.map (·.frame)) ∧ ¬ RoundTrip toyEnv s sent (sent.map (·.frame)) := by
  refine ⟨reachable_after toyEnv replayed, by decide +kernel, by decide +kernel, by decide +kernel,
    by decide +kernel, fun h => ?_⟩
  have hnone := (feedAll_ignored toyEnv (s := sessAfter toyEnv replayed)
    (by decide +kernel) (by decide +kernel) (by decide +kernel)
    ((toyFrames (sessAfter toyEnv replayed).secureKey).map (·.frame))).2
  have horder := h.inOrder
  rw [hnone] at horder
  cases horder

end NutBluetti.Ble
