/-
  File:      NutBluetti/Ble/LinkLive.lean
  Subject:   WHAT RECOVERS A LINK THAT IS STUCK. The poll timer drops a link whose reads go
             unanswered, but only in a ready session; the key-exchange timer falls back to plain
             Modbus once, but only in a session that has seen no handshake.

  * `Recoverable` -- a link with notifications polls in a ready session, or waits for the
    key-exchange timer, or is being dropped;
  * **`stuck_after_challenge`** -- a challenge and then silence: it does none of these;
  * `staysRecoverable` -- the condition: the key-exchange timer finds no half-way session, and no
    message after it takes a ready session back into a handshake;
  * **`recoverable_of_stays`** -- every run that meets it keeps the link recoverable.
-/
import NutBluetti.Ble.Link
import NutBluetti.Ble.PollSpec
import NutBluetti.Ble.SessionGate

namespace NutBluetti.Ble

open StepMachine

variable {κ : Type} {env : Env κ}

/-! ## 1. Recovery -/

/-- **What keeps a link from being stuck for ever.** -/
def Recoverable (s : BleLink κ) : Prop :=
  s.up = true → s.subscribed = true →
    (s.b.session.state = .ready ∧ s.pollTimer = true) ∨ s.kexTimer = true ∨ s.terminating = true

/-- Whether a message takes a ready session out of that state: a challenge, a peer key that is not
    answered from the cache, a refusal, an acceptance whose ECDH fails. -/
def unsettles (env : Env κ) (p : BtSession κ × Inner) : Bool :=
  match p.2 with
  | .modbus _ => false
  | .kex frame =>
      match kexOf frame with
      | none => false
      | some (type, data, len) =>
          if type = msgChallenge then true
          else if type = msgPeerPubkey then
            !(decide (len = 128) && p.1.kp.isSome && decide (p.1.pubkeyReply ≠ []) &&
              decide (p.1.peerPub = data.take btP256Publen))
          else if type = msgPubkeyAccepted then
            decide (len ≠ 1) || decide (data.getD 0 0 ≠ 0) ||
              (env.ecdhShared p.1.kp p.1.peerPub).isNone
          else false

/-- A step after which the link can still recover: the key-exchange timer fires in a session that
    has seen no handshake, or is ready; and once it has fired, no message unsettles a ready session.
    On a link that is being dropped anything may happen. -/
def staysRecoverable (env : Env κ) (s : BleLink κ) : LinkEv → Bool
  | .kexTimer =>
      !s.subscribed || s.terminating || decide (s.b.session.state = .idle) ||
        decide (s.b.session.state = .ready)
  | .notify data _ =>
      !s.subscribed || s.terminating || s.kexTimer ||
        (handedOver env s.b.session (data.take notifyMax)).all fun p =>
          decide (p.1.state ≠ .ready) || !unsettles env p
  | _ => true

/-! ## 2. A ready session -/

theorem ready_handleInner {t : BtSession κ} {m : Inner} (hr : t.state = .ready)
    (hm : unsettles env (t, m) = false) : (handleInner env t m).state = .ready := by
  cases m with
  | modbus f =>
      obtain ⟨log, hl⟩ := handleModbus_log t f
      show (handleModbus t f).state = _
      rw [hl]
      exact hr
  | kex frame =>
      show (handleKex env t frame).state = _
      rcases hk : kexOf frame with _ | ⟨type, data, len⟩
      · rw [handleKex_none hk]
        exact hr
      rw [handleKex_some hk]
      simp only [unsettles, hk] at hm
      split
      · rename_i htype
        rw [if_pos htype] at hm
        cases hm
      rename_i h1
      rw [if_neg h1] at hm
      split
      · rename_i htype
        rw [if_pos htype] at hm
        simp only [Bool.not_eq_false', Bool.and_eq_true, decide_eq_true_eq] at hm
        obtain ⟨⟨⟨hlen, hkp⟩, hreply⟩, hpeer⟩ := hm
        -- a repeat, answered from the cache
        unfold onPeerPubkey
        rw [if_neg (not_not.mpr hlen)]
        simp only
        rw [if_pos ⟨hkp, hreply, hpeer⟩]
        exact hr
      rename_i h2
      rw [if_neg h2] at hm
      split
      · rename_i htype
        rw [if_pos htype] at hm
        simp only [Bool.or_eq_false_iff, decide_eq_false_iff_not] at hm
        obtain ⟨⟨hlen, hdata⟩, hecdh⟩ := hm
        unfold onPubkeyAccepted
        rw [if_neg (not_or.mpr ⟨hlen, hdata⟩)]
        rcases hs : env.ecdhShared t.kp t.peerPub with _ | secret
        · rw [hs] at hecdh
          cases hecdh
        · rfl
      · exact hr

/-- **A notification** none of whose messages unsettles a ready session leaves it ready. -/
theorem ready_feed {s : BtSession κ} {data : List UInt8} (hr : s.state = .ready)
    (hm : ∀ p ∈ handedOver env s data, p.1.state = .ready → unsettles env p = false) :
    (btSessionFeed env s data).state = .ready :=
  (feed_inv env (fun t => t.state = .ready) (fun _ _ h => h) data hr
    fun p hp hready => ready_handleInner hready (hm p hp hready)).1

theorem sendRequest_state (s : BtSession κ) (q : Request) :
    (sendRequest env s q).2.state = s.state := by
  cases q with
  | read f =>
      show (btSessionReadRegs env s f.addr f.words.toUInt16).2.state = s.state
      unfold btSessionReadRegs
      split
      · rfl
      · exact (quietStep_sendCmd _ _).state
  | write r v =>
      show (btSessionWriteReg env s r v).2.state = s.state
      unfold btSessionWriteReg
      split
      · rfl
      · exact (quietStep_sendCmd _ _).state

/-! ## 3. The callbacks leave the link alone -/

theorem sessionRegs_link (b : BluettiBle κ) (addr : UInt16) (data : List UInt8) (nowUs : Int) :
    (sessionRegs b addr data nowUs).2.session = b.session ∧
      (sessionRegs b addr data nowUs).2.connected = b.connected := by
  unfold sessionRegs
  simp only [BluettiBle.settle]
  split <;> exact ⟨rfl, rfl⟩

theorem deliver_link (nowUs : Int) (calls : List (SessEvent κ)) (b : BluettiBle κ) :
    (b.deliver nowUs calls).session = b.session ∧
      (b.deliver nowUs calls).connected = b.connected := by
  induction calls generalizing b with
  | nil => exact ⟨rfl, rfl⟩
  | cons e es ih =>
      unfold BluettiBle.deliver at ih ⊢
      rw [List.foldl_cons]
      cases e with
      | regs addr data =>
          obtain ⟨h1, h2⟩ := sessionRegs_link b addr data nowUs
          obtain ⟨h3, h4⟩ := ih (sessionRegs b addr data nowUs).2
          exact ⟨h3.trans h1, h4.trans h2⟩
      | ack addr value ok => exact ih (sessionAck b)
      | _ => exact ih b

/-! ## 4. The invariant -/

/-- **The invariant**: on a link that is not being dropped the bridge is connected; with
    notifications it polls, and once the key-exchange timer has fired the session is ready. -/
structure LinkInv (s : BleLink κ) : Prop where
  connected : s.up = true → s.terminating = false → s.b.connected = true
  polling : s.up = true → s.terminating = false → s.subscribed = true → s.pollTimer = true
  ready : s.up = true → s.terminating = false → s.subscribed = true → s.kexTimer = false →
    s.b.session.state = .ready

theorem LinkInv.recoverable {s : BleLink κ} (h : LinkInv s) : Recoverable s := by
  intro hup hsub
  rcases Bool.eq_false_or_eq_true s.terminating with ht | ht
  · exact .inr (.inr ht)
  rcases Bool.eq_false_or_eq_true s.kexTimer with hk | hk
  · exact .inr (.inl hk)
  · exact .inl ⟨h.ready hup ht hsub hk, h.polling hup ht hsub⟩

/-- What a step of the scan, the host or the radio leaves alone. -/
structure SameLink (s s' : BleLink κ) : Prop where
  b : s'.b = s.b
  up : s'.up = s.up
  subscribed : s'.subscribed = s.subscribed
  terminating : s'.terminating = s.terminating
  pollTimer : s'.pollTimer = s.pollTimer
  kexTimer : s'.kexTimer = s.kexTimer

theorem LinkInv.of_same {s s' : BleLink κ} (h : LinkInv s) (hs : SameLink s s') : LinkInv s' := by
  refine ⟨?_, ?_, ?_⟩
  · rw [hs.up, hs.terminating, hs.b]
    exact h.connected
  · rw [hs.up, hs.terminating, hs.subscribed, hs.pollTimer]
    exact h.polling
  · rw [hs.up, hs.terminating, hs.subscribed, hs.kexTimer, hs.b]
    exact h.ready

/-- Another `b`, with the same session state and connection. -/
theorem LinkInv.withB {s : BleLink κ} (h : LinkInv s) {b : BluettiBle κ}
    (hc : b.connected = s.b.connected) (hs : b.session.state = s.b.session.state) :
    LinkInv { s with b := b } :=
  ⟨fun hu ht => hc.trans (h.connected hu ht), h.polling,
    fun hu ht hsub hk => hs.trans (h.ready hu ht hsub hk)⟩

theorem LinkInv.of_terminating {s : BleLink κ} (h : s.terminating = true) : LinkInv s := by
  refine ⟨fun _ ht => ?_, fun _ ht => ?_, fun _ ht => ?_⟩ <;>
    · rw [h] at ht
      cases ht

theorem LinkInv.of_down {s : BleLink κ} (h : s.up = false) : LinkInv s := by
  refine ⟨fun hu => ?_, fun hu => ?_, fun hu => ?_⟩ <;>
    · rw [h] at hu
      cases hu

theorem sameLink_startConnectScan (s : BleLink κ) : SameLink s (startConnectScan s) := by
  unfold startConnectScan
  split <;> exact ⟨rfl, rfl, rfl, rfl, rfl, rfl⟩

theorem LinkInv.bluettiBleScan {s : BleLink κ} (h : LinkInv s) : LinkInv (bluettiBleScan s) := by
  unfold Ble.bluettiBleScan
  simp only
  split
  · exact .of_terminating rfl
  split
  · exact h.of_same ⟨rfl, rfl, rfl, rfl, rfl, rfl⟩
  · exact h.of_same ⟨rfl, rfl, rfl, rfl, rfl, rfl⟩

theorem sameLink_scanStop (s : BleLink κ) : SameLink s (bluettiBleScanStop s) := by
  unfold bluettiBleScanStop
  simp only
  split
  · exact ⟨rfl, rfl, rfl, rfl, rfl, rfl⟩
  split
  · obtain ⟨h1, h2, h3, h4, h5, h6⟩ := sameLink_startConnectScan
      ({ s.ask .discCancel with scanTimer := false, resumeConnect := false, mode := .connect })
    exact ⟨h1, h2, h3, h4, h5, h6⟩
  · exact ⟨rfl, rfl, rfl, rfl, rfl, rfl⟩

theorem sameLink_tryConnect (s : BleLink κ) (rcOk : Bool) : SameLink s (tryConnect s rcOk) := by
  unfold tryConnect
  simp only
  split
  · exact ⟨rfl, rfl, rfl, rfl, rfl, rfl⟩
  · obtain ⟨h1, h2, h3, h4, h5, h6⟩ :=
      sameLink_startConnectScan ((s.ask .discCancel).ask RadioCmd.connect)
    exact ⟨h1, h2, h3, h4, h5, h6⟩

theorem sameLink_onSync (s : BleLink κ) (addrOk : Bool) : SameLink s (onSync s addrOk) := by
  unfold onSync
  simp only
  split
  · exact ⟨rfl, rfl, rfl, rfl, rfl, rfl⟩
  split
  · obtain ⟨h1, h2, h3, h4, h5, h6⟩ := sameLink_startConnectScan { s with synced := true }
    exact ⟨h1, h2, h3, h4, h5, h6⟩
  split <;> exact ⟨rfl, rfl, rfl, rfl, rfl, rfl⟩

theorem linkDisconnect_up (s : BleLink κ) : (linkDisconnect s).up = false := by
  unfold linkDisconnect
  simp only
  split
  · rfl
  split
  · exact (sameLink_startConnectScan (linkDown s)).up
  · rfl

/-- A tick gives the link up, or changes neither the connection nor the state of the session. -/
theorem LinkInv.linkTick {s : BleLink κ} (h : LinkInv s) (nowUs sentUs : Int) :
    LinkInv (linkTick env s nowUs sentUs) := by
  have hsess := pollTick_session s.b nowUs
  unfold Ble.linkTick
  simp only
  split
  · exact .of_terminating rfl
  rename_i hgive
  -- where the bridge was connected, it still is
  have hconn : s.b.connected = true → (pollTick s.b nowUs).1.connected = true := by
    simpa using hgive
  have hkeep : ∀ b : BluettiBle κ, b.connected = (pollTick s.b nowUs).1.connected →
      b.session.state = s.b.session.state → LinkInv { s with b := b } := by
    intro b hc hs
    exact ⟨fun hu ht => hc.trans (hconn (h.connected hu ht)), h.polling,
      fun hu ht hsub hk => hs.trans (h.ready hu ht hsub hk)⟩
  split
  · exact hkeep _ rfl (congrArg BtSession.state hsess)
  · rename_i q _
    have hstate : (sendRequest env (pollTick s.b nowUs).1.session q).2.state =
        s.b.session.state := by
      rw [sendRequest_state, hsess]
    split
    · exact hkeep _ rfl hstate
    · exact hkeep _ rfl hstate

theorem LinkInv.linkNotify {s : BleLink κ} (h : LinkInv s) {data : List UInt8} {nowUs : Int}
    (hc : staysRecoverable env s (.notify data nowUs) = true) :
    LinkInv (linkNotify env s data nowUs) := by
  unfold Ble.linkNotify
  simp only
  obtain ⟨hs, hconn⟩ := deliver_link nowUs
    (callbacks s.b.session (btSessionFeed env s.b.session (data.take notifyMax)))
    { s.b with session := btSessionFeed env s.b.session (data.take notifyMax) }
  refine ⟨fun hu ht => hconn.trans (h.connected hu ht), h.polling, fun hu ht hsub hk => ?_⟩
  have hready := h.ready hu ht hsub hk
  refine (congrArg BtSession.state hs).trans (ready_feed hready fun p hp hr => ?_)
  have hsub : s.subscribed = true := hsub
  have ht : s.terminating = false := ht
  have hk : s.kexTimer = false := hk
  simp only [staysRecoverable, hsub, ht, hk, Bool.not_true, Bool.false_or, List.all_eq_true] at hc
  have hm := hc p hp
  rw [hr] at hm
  simpa using hm

/-- The key-exchange timer falls back to plain mode, or finds a session that is ready. -/
theorem LinkInv.linkKexTimer {s : BleLink κ} (h : LinkInv s)
    (hc : staysRecoverable env s .kexTimer = true) : LinkInv (linkKexTimer s) := by
  have hconn : (kexTimerCb s.b).connected = s.b.connected := by
    unfold kexTimerCb
    split <;> rfl
  refine ⟨fun hu ht => hconn.trans (h.connected hu ht), h.polling, fun hu ht hsub _ => ?_⟩
  have hb := h.connected hu ht
  have hsub : s.subscribed = true := hsub
  have ht : s.terminating = false := ht
  simp only [staysRecoverable, hsub, ht, Bool.not_true, Bool.false_or, Bool.or_eq_true,
    decide_eq_true_eq] at hc
  show (kexTimerCb s.b).session.state = .ready
  unfold kexTimerCb
  rcases hc with hidle | hready
  · rw [hb, hidle]
    show (btSessionUsePlain s.b.session).state = .ready
    unfold btSessionUsePlain
    rw [if_neg (not_not.mpr hidle)]
  · rw [hready, hb]
    exact hready

/-- **One step** keeps the invariant. -/
theorem linkInv_step {s s' : BleLink κ} {e : LinkEv} (hc : staysRecoverable env s e = true)
    (h : LinkInv s) (hs : s.step env e = some s') : LinkInv s' := by
  cases e with
  | scan =>
      obtain rfl := Option.some.inj hs
      unfold hBleScan
      split
      · exact h
      · exact h.bluettiBleScan
  | scanTimer =>
      obtain ⟨-, rfl⟩ := BleLink.step_scanTimer_iff.mp hs
      exact h.of_same (sameLink_scanStop s)
  | disc parses target rcOk =>
      obtain rfl := Option.some.inj hs
      unfold gapDisc
      split
      · exact h.of_same (sameLink_tryConnect s rcOk)
      · exact h
  | discComplete =>
      obtain rfl := Option.some.inj hs
      unfold gapDiscComplete
      split
      · exact h.of_same ⟨rfl, rfl, rfl, rfl, rfl, rfl⟩
      · exact h
  | connect =>
      obtain rfl := Option.some.inj hs
      have hsub : (linkConnect s).subscribed ≠ true := Bool.false_ne_true
      exact ⟨fun _ _ => rfl, fun _ _ h => absurd h hsub, fun _ _ h _ => absurd h hsub⟩
  | connectFailed =>
      obtain rfl := Option.some.inj hs
      exact h.of_same (sameLink_startConnectScan s)
  | disconnect =>
      obtain rfl := Option.some.inj hs
      exact .of_down (linkDisconnect_up s)
  | subscribed ok =>
      obtain ⟨-, rfl⟩ := BleLink.step_subscribed_iff.mp hs
      split
      · have hkex : (linkSubscribed s).kexTimer ≠ false := Bool.false_ne_true.symm
        exact ⟨h.connected, fun _ _ _ => rfl, fun _ _ _ hk => absurd hk hkex⟩
      · exact h
  | notify data nowUs =>
      obtain ⟨-, rfl⟩ := BleLink.step_notify_iff.mp hs
      exact h.linkNotify hc
  | kexTimer =>
      obtain ⟨-, rfl⟩ := BleLink.step_kexTimer_iff.mp hs
      exact h.linkKexTimer hc
  | tick nowUs sentUs =>
      obtain ⟨-, rfl⟩ := BleLink.step_tick_iff.mp hs
      exact h.linkTick nowUs sentUs
  | hostReset =>
      obtain rfl := Option.some.inj hs
      exact h.of_same ⟨rfl, rfl, rfl, rfl, rfl, rfl⟩
  | hostSync addrOk =>
      obtain rfl := Option.some.inj hs
      exact h.of_same (sameLink_onSync s addrOk)
  | setControls on =>
      obtain rfl := Option.some.inj hs
      exact h.withB (setControls_connected s.b on)
        (congrArg BtSession.state (setControls_session s.b on))
  | writeControl field value =>
      obtain rfl := Option.some.inj hs
      obtain ⟨q, hq⟩ := writeControl_cases s.b field value
      rw [hq]
      exact h.withB rfl rfl

theorem linkInv_start (controls : Bool) (low : Int) :
    LinkInv (linkStart (bluettiBleHostInit : BleLink κ) controls low) := by
  refine .of_down ?_
  unfold linkStart
  simp only
  rw [(sameLink_startConnectScan _).up]
  exact (sameLink_scanStop _).up

/-- **A link never stays stuck**: after `bluetti_ble_start`, in every run of connections,
    subscriptions, notifications of any bytes, lost sends, timers, scans and resets that meets the
    condition. -/
theorem recoverable_of_stays (env : Env κ) (controls : Bool) (low : Int) (es : List LinkEv)
    (s : BleLink κ)
    (hrun : run (BleLink.step env) (linkStart bluettiBleHostInit controls low) es = some s)
    (hc : Along (BleLink.step env) (fun s e => staysRecoverable env s e = true)
      (linkStart bluettiBleHostInit controls low) es) : Recoverable s :=
  (run_inv_along (BleLink.step env) (fun _ _ _ hc h hs => linkInv_step hc h hs) hc
    (linkInv_start controls low) hrun).recoverable

/-- A link that is up and subscribed. -/
def subscribedLink : List LinkEv := [.disc true true true, .connect, .subscribed true]

/-- A key-exchange message as the unit notifies it. -/
def notifyKex (body : List UInt8) : LinkEv := .notify (kexMagic ++ body ++ hexsum body) 0

/-- A whole handshake, the key-exchange timer, a tick. -/
def settledRun : List LinkEv :=
  subscribedLink ++ [notifyKex [msgChallenge, 4, 1, 2, 3, 4],
    notifyKex ([msgPeerPubkey, 0x80] ++ List.replicate 128 7), notifyKex [msgPubkeyAccepted, 1, 0],
    .kexTimer, .tick 20000000 20000001]

theorem recoverable_of_stays_settledRun :
    ∃ s, run (BleLink.step toyEnv) (linkStart bluettiBleHostInit false 20) settledRun = some s ∧
      Recoverable s := by
  have hrun : (run (BleLink.step toyEnv) (linkStart bluettiBleHostInit false 20)
      settledRun).isSome = true := by decide
  obtain ⟨s, hs⟩ := Option.isSome_iff_exists.mp hrun
  exact ⟨s, hs, recoverable_of_stays toyEnv false 20 settledRun s hs
    (along_of_check (BleLink.step toyEnv) (c := staysRecoverable toyEnv) (fun _ _ h => h)
      (by decide +kernel))⟩

/-- A challenge, and the unit says no more. -/
def silentRun : List LinkEv :=
  subscribedLink ++ [notifyKex [msgChallenge, 4, 1, 2, 3, 4], .kexTimer]

/-- **A link stuck after a challenge**: up and subscribed, the session half-way, the timer spent,
    and nothing asked to drop it. -/
theorem stuck_after_challenge :
    ∃ s, run (BleLink.step toyEnv) (linkStart bluettiBleHostInit false 20) silentRun = some s ∧
      ¬ Recoverable s := by
  have hrun : (run (BleLink.step toyEnv) (linkStart bluettiBleHostInit false 20) silentRun).any
      (fun s => s.up && s.subscribed && decide (s.b.session.state = .challenge) && !s.kexTimer &&
        !s.terminating) = true := by decide
  rcases hs : run (BleLink.step toyEnv) (linkStart bluettiBleHostInit false 20) silentRun with _ | s
  · rw [hs] at hrun
    cases hrun
  rw [hs] at hrun
  have hp : (s.up && s.subscribed && decide (s.b.session.state = .challenge) && !s.kexTimer &&
      !s.terminating) = true := hrun
  simp only [Bool.and_eq_true, Bool.not_eq_true', decide_eq_true_eq] at hp
  obtain ⟨⟨⟨⟨hup, hsub⟩, hstate⟩, hk⟩, ht⟩ := hp
  refine ⟨s, rfl, fun h => ?_⟩
  rcases h hup hsub with ⟨hr, -⟩ | h | h
  · rw [hstate] at hr
    cases hr
  · rw [hk] at h
    cases h
  · rw [ht] at h
    cases h

end NutBluetti.Ble
