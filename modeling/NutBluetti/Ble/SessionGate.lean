/-
  File:      NutBluetti/Ble/SessionGate.lean
  Subject:   WHEN REGISTER DATA IS DELIVERED. The header says that Modbus is available in a ready
             session; the wrapped loop hands every frame that is no key exchange to `handle_modbus`,
             also one under the handshake key.

  * `Modes` -- plain mode and the secure key exclude each other, and a session that is ready has one
    of them;
  * **`modes_reachable`** -- so it is after any calls;
  * `allCallbacks` -- the callbacks of a run, each with the session at that moment;
    **`callbacks_complete`** -- they are all the run makes;
  * **`answer_before_ready`** -- register data delivered after nothing but a challenge;
  * **`callbacks_ready`** -- where no wrapped frame before that is an answer, every callback comes
    from a ready session.
-/
import NutBluetti.Lib.StepMachine
import NutBluetti.Ble.Handshake
import NutBluetti.Ble.SessionStream

namespace NutBluetti.Ble

open StepMachine Reassembly

variable {κ : Type} {env : Env κ} {s s' : BtSession κ}

/-! ## 1. Calls -/

/-- What is done to a session. -/
inductive SessCall where
  | op (o : SessOp)
  | reset

def SessCall.apply (env : Env κ) (s : BtSession κ) : SessCall → BtSession κ
  | .op o => o.apply env s
  | .reset => btSessionReset s

def sessStep (env : Env κ) (s : BtSession κ) (c : SessCall) : Option (BtSession κ) :=
  some (c.apply env s)

/-- The session after some calls on a new one. -/
def Reachable (env : Env κ) (s : BtSession κ) : Prop :=
  ∃ calls, run (sessStep env) btSessionNew calls = some s

/-- The session after these calls. -/
def sessAfter (env : Env κ) (calls : List SessCall) : BtSession κ :=
  calls.foldl (SessCall.apply env) btSessionNew

theorem reachable_after (env : Env κ) (calls : List SessCall) :
    Reachable env (sessAfter env calls) := by
  have hrun : ∀ s : BtSession κ,
      run (sessStep env) s calls = some (calls.foldl (SessCall.apply env) s) := by
    induction calls with
    | nil => exact fun s => rfl
    | cons c cs ih => exact fun s => ih (c.apply env s)
  exact ⟨calls, hrun btSessionNew⟩

/-! ## 2. Modes -/

/-- What a message of the key exchange does to the state and to the secure key; a handshake key
    stays. -/
inductive KexMove (s s' : BtSession κ) : Prop where
  | stay (state : s'.state = s.state) (secure : s'.haveSecure = s.haveSecure)
      (unsecure : s.haveUnsecure = true → s'.haveUnsecure = true)
  | move (state : s'.state = .challenge ∨ s'.state = .pubkey ∨ s'.state = .failed)
      (secure : s'.haveSecure = s.haveSecure)
      (unsecure : s.haveUnsecure = true → s'.haveUnsecure = true)
  | ready (state : s'.state = .ready) (secure : s'.haveSecure = true)
      (unsecure : s.haveUnsecure = true → s'.haveUnsecure = true)

theorem KexMove.unsecure (h : KexMove s s') (hu : s.haveUnsecure = true) :
    s'.haveUnsecure = true := by
  cases h with
  | stay _ _ h => exact h hu
  | move _ _ h => exact h hu
  | ready _ _ h => exact h hu

theorem kexMove_refl (s : BtSession κ) : KexMove s s := .stay rfl rfl id

theorem kexMove_fail (why : String) (hh : s'.haveSecure = s.haveSecure)
    (hu : s.haveUnsecure = true → s'.haveUnsecure = true) : KexMove s (sessionFail s' why) :=
  .move (.inr (.inr rfl)) hh hu

theorem transmit_keys {bytes : List UInt8} {ok : Bool} (h : transmit env s bytes = (ok, s')) :
    s'.haveSecure = s.haveSecure ∧ s'.haveUnsecure = s.haveUnsecure := by
  obtain ⟨-, rfl⟩ := Prod.mk.inj h
  exact ⟨rfl, rfl⟩

theorem kexMove_onChallenge (s : BtSession κ) (data : List UInt8) (len : Nat) :
    KexMove s (onChallenge env s data len) := by
  unfold onChallenge
  split
  · exact kexMove_fail _ rfl id
  simp only
  split
  · exact kexMove_fail _ rfl fun _ => rfl
  · split
    · rename_i t ht
      obtain ⟨hh, hu⟩ := transmit_keys ht
      exact kexMove_fail _ hh fun _ => hu
    · rename_i t ht
      obtain ⟨hh, hu⟩ := transmit_keys ht
      exact .move (.inl rfl) hh fun _ => hu

theorem kexMove_replyPubkey (s : BtSession κ) (kp : κ) : KexMove s (replyPubkey env s kp) := by
  unfold replyPubkey
  split
  · exact kexMove_fail _ rfl id
  split
  · exact kexMove_fail _ rfl id
  simp only
  split
  · exact kexMove_fail _ rfl id
  split
  · exact kexMove_fail _ rfl id
  split
  · rename_i t ht
    obtain ⟨hh, hu⟩ := transmit_keys ht
    exact kexMove_fail _ hh fun h => hu.trans h
  · rename_i t ht
    obtain ⟨hh, hu⟩ := transmit_keys ht
    exact .move (.inr (.inl rfl)) hh fun h => hu.trans h

/-- A move from a session with the same state and keys. -/
theorem KexMove.of_eq {t : BtSession κ} (h : KexMove s s') (hs : s.state = t.state)
    (hh : s.haveSecure = t.haveSecure) (hu : s.haveUnsecure = t.haveUnsecure) : KexMove t s' := by
  cases h with
  | stay h1 h2 h3 => exact .stay (h1.trans hs) (h2.trans hh) fun h => h3 (hu.trans h)
  | move h1 h2 h3 => exact .move h1 (h2.trans hh) fun h => h3 (hu.trans h)
  | ready h1 h2 h3 => exact .ready h1 h2 fun h => h3 (hu.trans h)

theorem kexMove_onPeerPubkey (s : BtSession κ) (data : List UInt8) (len : Nat) :
    KexMove s (onPeerPubkey env s data len) := by
  unfold onPeerPubkey
  split
  · exact kexMove_fail _ rfl id
  simp only
  split
  · exact .stay rfl rfl id
  split
  · exact kexMove_fail _ rfl id
  split
  · exact KexMove.of_eq (kexMove_replyPubkey _ _) rfl rfl rfl
  · split
    · exact kexMove_fail _ rfl id
    · exact KexMove.of_eq (kexMove_replyPubkey _ _) rfl rfl rfl

theorem kexMove_onPubkeyAccepted (s : BtSession κ) (data : List UInt8) (len : Nat) :
    KexMove s (onPubkeyAccepted env s data len) := by
  unfold onPubkeyAccepted
  split
  · exact kexMove_fail _ rfl id
  split
  · exact kexMove_fail _ rfl id
  · exact .ready rfl rfl id

theorem kexMove_handleKex (s : BtSession κ) (frame : List UInt8) :
    KexMove s (handleKex env s frame) := by
  unfold handleKex
  split
  · exact kexMove_refl s
  simp only
  split
  · exact kexMove_refl s
  split
  · exact kexMove_onChallenge s _ _
  split
  · exact kexMove_onPeerPubkey s _ _
  split
  · exact kexMove_onPubkeyAccepted s _ _
  · exact kexMove_refl s

/-- **The modes of a session.** -/
structure Modes (s : BtSession κ) : Prop where
  plain : s.plain = true → s.state = .ready ∧ s.haveSecure = false
  ready : s.state = .ready → s.haveSecure = true ∨ s.plain = true
  idle : s.state = .idle → s.haveSecure = false

theorem Modes.of_eq (h : Modes s) (hp : s'.plain = s.plain) (hs : s'.state = s.state)
    (hh : s'.haveSecure = s.haveSecure) : Modes s' := by
  refine ⟨?_, ?_, ?_⟩
  · rw [hp, hs, hh]
    exact h.plain
  · rw [hp, hs, hh]
    exact h.ready
  · rw [hs, hh]
    exact h.idle

/-- A key exchange, outside plain mode. -/
theorem Modes.kex (h : Modes s) (hp : s.plain = false) (hp' : s'.plain = s.plain)
    (hm : KexMove s s') : Modes s' := by
  cases hm with
  | stay hs hh _ => exact h.of_eq hp' hs hh
  | move hs hh _ =>
      have hplain : s'.plain ≠ true := by rw [hp', hp]; decide
      refine ⟨fun h' => absurd h' hplain, fun h' => ?_, fun h' => ?_⟩
      · rw [h'] at hs
        simp at hs
      · rw [h'] at hs
        simp at hs
  | ready hs hh _ =>
      have hplain : s'.plain ≠ true := by rw [hp', hp]; decide
      refine ⟨fun h' => absurd h' hplain, fun _ => .inl hh, fun h' => ?_⟩
      rw [h'] at hs
      cases hs

/-- A Modbus frame changes the history only. -/
theorem Modes.modbus (h : Modes s) (f : List UInt8) : Modes (handleModbus s f) := by
  obtain ⟨log, hl⟩ := handleModbus_log s f
  rw [hl]
  exact h.of_eq rfl rfl rfl

/-- In plain mode nothing but Modbus frames is handed over. -/
theorem handedOver_plain (hp : s.plain = true) {data : List UInt8} {p : BtSession κ × Inner}
    (h : p ∈ handedOver env s data) : ∃ f, p.2 = .modbus f := by
  unfold handedOver at h
  simp only [if_pos hp] at h
  split at h
  · cases h
  · obtain ⟨q, -, rfl⟩ := List.mem_map.mp h
    exact ⟨q.2, rfl⟩

/-- Where a frame of the key exchange is handed over, the session is not in plain mode. -/
theorem plain_of_handedOver_kex {data frame : List UInt8} {t : BtSession κ}
    (h : (t, Inner.kex frame) ∈ handedOver env s data) : s.plain = false := by
  rw [Bool.eq_false_iff]
  intro hs
  obtain ⟨f, hf⟩ := handedOver_plain hs h
  cases hf

/-- **One notification** keeps the modes, and whether the session is in plain mode; every message it
    hands over meets both. -/
theorem Modes.feed (h : Modes s) (data : List UInt8) :
    Modes (btSessionFeed env s data) ∧
      ∀ p ∈ handedOver env s data, Modes p.1 ∧ p.1.plain = s.plain := by
  have hinv := feed_inv env (fun t => Modes t ∧ t.plain = s.plain)
    (fun t rx ht => ⟨ht.1.of_eq rfl rfl rfl, ht.2⟩) data ⟨h, rfl⟩ fun p hp ht => ?_
  · exact ⟨hinv.1.1, hinv.2⟩
  · obtain ⟨t, m⟩ := p
    cases m with
    | modbus f =>
        refine ⟨ht.1.modbus f, ?_⟩
        obtain ⟨log, hl⟩ := handleModbus_log t f
        show (handleModbus t f).plain = s.plain
        rw [hl]
        exact ht.2
    | kex frame =>
        have hplain : t.plain = false := ht.2.trans (plain_of_handedOver_kex hp)
        have hkeep : (handleKex env t frame).plain = t.plain := (kexFrame_handleKex t frame).plain
        exact ⟨ht.1.kex hplain hkeep (kexMove_handleKex t frame), hkeep.trans ht.2⟩

/-- A command changes neither the modes nor the state. -/
theorem sendCmd_modes (s : BtSession κ) (cmd : List UInt8) (h : Modes s) :
    Modes (sendCmd env s cmd).2 := by
  unfold sendCmd
  split
  · exact h.of_eq rfl rfl rfl
  · unfold aesWrapSeed
    simp only
    split
    · rename_i t hw
      obtain ⟨-, rfl⟩ := Prod.mk.inj hw
      exact h.of_eq rfl rfl rfl
    · rename_i t hw
      obtain ⟨-, rfl⟩ := Prod.mk.inj hw
      exact h.of_eq rfl rfl rfl

theorem Modes.apply (h : Modes s) (c : SessCall) : Modes (c.apply env s) := by
  cases c with
  | reset => exact ⟨nofun, nofun, fun _ => rfl⟩
  | op o =>
      cases o with
      | feed data => exact (h.feed data).1
      | readRegs addr count =>
          show Modes (btSessionReadRegs env s addr count).2
          unfold btSessionReadRegs
          split
          · exact h
          · exact sendCmd_modes _ _ (h.of_eq rfl rfl rfl)
      | writeReg addr value =>
          show Modes (btSessionWriteReg env s addr value).2
          unfold btSessionWriteReg
          split
          · exact h
          · exact sendCmd_modes _ _ (h.of_eq rfl rfl rfl)
      | usePlain =>
          show Modes (btSessionUsePlain s)
          unfold btSessionUsePlain
          split
          · exact h
          · rename_i hidle
            have hsec := h.idle (by simpa using hidle)
            exact ⟨fun _ => ⟨rfl, hsec⟩, fun _ => .inr rfl, nofun⟩

theorem modes_new : Modes (btSessionNew : BtSession κ) :=
  ⟨nofun, nofun, fun _ => rfl⟩

/-- **Every session is in one mode**, after any calls. -/
theorem modes_reachable (h : Reachable env s) : Modes s := by
  obtain ⟨calls, hrun⟩ := h
  refine run_inv (sessStep env) (fun t c t' ht hs => ?_) modes_new hrun
  rw [← Option.some.inj hs]
  exact ht.apply c

/-! ## 3. Callbacks -/

/-- The callbacks in the history of a session. -/
def calledBack (s : BtSession κ) : List (SessEvent κ) := s.log.filter SessEvent.isCallback

/-- What the handling of a message calls back. -/
def callsOf (env : Env κ) (p : BtSession κ × Inner) : List (SessEvent κ) :=
  (calledBack (handleInner env p.1 p.2)).drop (calledBack p.1).length

/-- The callbacks of a call, each with the session at that moment. -/
def callbacksIn (env : Env κ) (s : BtSession κ) : SessCall → List (BtSession κ × SessEvent κ)
  | .op (.feed data) =>
      (handedOver env s data).flatMap fun p => (callsOf env p).map fun e => (p.1, e)
  | _ => []

/-- The callbacks of a run. -/
def allCallbacks (env : Env κ) : BtSession κ → List SessCall → List (BtSession κ × SessEvent κ)
  | _, [] => []
  | s, c :: cs => callbacksIn env s c ++ allCallbacks env (c.apply env s) cs

theorem callsOf_kex (s : BtSession κ) (frame : List UInt8) : callsOf env (s, .kex frame) = [] := by
  have hframe : KexFrame s (handleKex env s frame) := kexFrame_handleKex s frame
  obtain ⟨m, hm, hno⟩ := hframe.log
  have hfilter : m.filter SessEvent.isCallback = [] :=
    List.filter_eq_nil_iff.mpr fun e he => by rw [hno e he]; decide
  unfold callsOf calledBack
  rw [show handleInner env s (.kex frame) = handleKex env s frame from rfl, hm, List.filter_append,
    hfilter, List.append_nil, List.drop_length]

/-- What was called back is still in the history, and what is new comes after it. -/
theorem calledBack_handleInner (p : BtSession κ × Inner) :
    calledBack (handleInner env p.1 p.2) = calledBack p.1 ++ callsOf env p := by
  have hgrow : ∃ m, (handleInner env p.1 p.2).log = p.1.log ++ m := by
    obtain ⟨t, m⟩ := p
    cases m with
    | kex frame =>
        have hframe : KexFrame t (handleKex env t frame) := kexFrame_handleKex t frame
        obtain ⟨m, hm, -⟩ := hframe.log
        exact ⟨m, hm⟩
    | modbus f =>
        obtain ⟨m, hm, -⟩ := (labelled_handleModbus t f).log
        exact ⟨m, hm⟩
  obtain ⟨m, hm⟩ := hgrow
  unfold callsOf calledBack
  rw [hm, List.filter_append, List.drop_left]

theorem calledBack_feed (s : BtSession κ) (data : List UInt8) :
    calledBack (btSessionFeed env s data) =
      calledBack s ++ (handedOver env s data).flatMap (callsOf env) := by
  rcases feed_cases env s data with ⟨⟨rx, hf⟩, hh⟩ | ⟨hf, hh⟩ | ⟨hf, hh⟩ | ⟨hf, hh⟩
  · rw [hf, hh]
    exact (List.append_nil _).symm
  · rw [hf, hh, List.flatMap_map]
    refine drain_out (R := plainReceiver) calledBack (fun t f t' ht => ?_)
      (fun t f ht => ?_) (s.rx ++ data).length s (s.rx ++ data)
    · rw [← Option.some.inj ht]
      exact calledBack_handleInner (t, .modbus f)
    · cases ht
  · rw [hf, hh, List.flatMap_cons, List.flatMap_nil, List.append_nil]
    exact calledBack_handleInner (s, .kex data)
  · rw [hf, hh, List.filterMap_eq_flatMap_toList, List.flatMap_assoc]
    refine drain_out (R := wrappedReceiver env) calledBack (fun t f t' ht => ?_)
      (fun t f ht => ?_) (s.rx ++ data).length s (s.rx ++ data)
    · obtain ⟨m, hm, rfl⟩ := wrapped_handle ht
      rw [hm, Option.toList_some, List.flatMap_singleton]
      exact calledBack_handleInner (t, m)
    · have hnone : unwrapped env (t, f) = none := by
        rw [unwrapped, Option.map_eq_none_iff.mp ht, Option.map_none]
      rw [hnone]
      rfl

theorem calledBack_sendCmd (s : BtSession κ) (cmd : List UInt8) :
    calledBack (sendCmd env s cmd).2 = calledBack s := by
  have htx : ∀ t bytes, calledBack (transmit env t bytes).2 = calledBack t := fun t bytes => by
    show (t.log ++ [SessEvent.tx bytes (env.txOk t.txs)]).filter SessEvent.isCallback = calledBack t
    rw [List.filter_append]
    exact List.append_nil _
  unfold sendCmd
  split
  · exact htx s cmd
  · unfold aesWrapSeed
    simp only
    split
    · rename_i t hw
      obtain ⟨-, rfl⟩ := Prod.mk.inj hw
      rfl
    · rename_i t hw
      obtain ⟨-, rfl⟩ := Prod.mk.inj hw
      exact htx _ _

/-- **Nothing else is called back**: the callbacks of a call are what it adds to the history. -/
theorem calledBack_apply (s : BtSession κ) (c : SessCall) :
    calledBack (c.apply env s) = calledBack s ++ (callbacksIn env s c).map Prod.snd := by
  cases c with
  | reset => exact (List.append_nil _).symm
  | op o =>
      cases o with
      | feed data =>
          have hmap : (callbacksIn env s (.op (.feed data))).map Prod.snd =
              (handedOver env s data).flatMap (callsOf env) := by
            simp only [callbacksIn, List.map_flatMap, List.map_map, Function.comp_def, List.map_id']
          rw [hmap]
          exact calledBack_feed s data
      | readRegs addr count =>
          show calledBack (btSessionReadRegs env s addr count).2 = _ ++ []
          rw [List.append_nil]
          unfold btSessionReadRegs
          split
          · rfl
          · exact calledBack_sendCmd _ _
      | writeReg addr value =>
          show calledBack (btSessionWriteReg env s addr value).2 = _ ++ []
          rw [List.append_nil]
          unfold btSessionWriteReg
          split
          · rfl
          · exact calledBack_sendCmd _ _
      | usePlain =>
          show calledBack (btSessionUsePlain s) = _ ++ []
          rw [List.append_nil]
          unfold btSessionUsePlain
          split <;> rfl

/-- **All callbacks of a run**: the history of the run holds the listed callbacks and no other. -/
theorem callbacks_complete {calls : List SessCall} (h : run (sessStep env) s calls = some s') :
    calledBack s' = calledBack s ++ (allCallbacks env s calls).map Prod.snd := by
  induction calls generalizing s with
  | nil =>
      rw [← Option.some.inj h]
      exact (List.append_nil _).symm
  | cons c cs ih =>
      obtain ⟨t, ht, hrun⟩ := (run_cons_some (sessStep env)).mp h
      obtain rfl := Option.some.inj ht
      rw [ih hrun, calledBack_apply, allCallbacks, List.map_append, List.append_assoc]

/-! ## 4. The gate -/

/-- Whether `handle_modbus` calls anything back for a frame. -/
def modbusAnswers (f : List UInt8) : Bool :=
  let fn := f.getD 1 0
  let count := (f.getD 2 0).toNat
  decide (5 ≤ f.length) &&
    (fn == modbusWrite || fn == modbusWrite ||| 0x80 ||
      (fn == modbusRead && decide (3 + count + 2 ≤ f.length) && modbusCrcOk f (3 + count)))

theorem handleModbus_silent {f : List UInt8} (h : modbusAnswers f = false) (s : BtSession κ) :
    handleModbus s f = s := by
  unfold handleModbus
  split
  · rfl
  rename_i h5
  simp only [modbusAnswers, decide_eq_true (Nat.not_lt.mp h5), Bool.true_and, Bool.or_eq_false_iff,
    beq_eq_false_iff_ne, Bool.and_eq_false_iff, decide_eq_false_iff_not] at h
  obtain ⟨⟨hw, hwx⟩, hr⟩ := h
  simp only
  rw [if_neg (not_or.mpr ⟨hw, hwx⟩)]
  split
  · rfl
  rename_i hread
  split
  · rfl
  split
  · rfl
  rename_i hlen hcrc
  rcases hr with (hr | hr) | hr
  · exact absurd hr hread
  · exact absurd (Nat.not_lt.mp hlen) hr
  · rw [hr] at hcrc
    exact absurd rfl hcrc

/-- No wrapped frame that a notification completes before the session is ready holds an answer. -/
def noEarlyAnswer (env : Env κ) (s : BtSession κ) : SessCall → Bool
  | .op (.feed data) =>
      (handedOver env s data).all fun p =>
        match p.2 with
        | .kex _ => true
        | .modbus f => s.plain || btSessionReady p.1 || !modbusAnswers f
  | _ => true

/-- **A call calls back in a ready session only**, where no early answer comes. -/
theorem ready_of_noEarlyAnswer {c : SessCall} (hm : Modes s) (hc : noEarlyAnswer env s c = true) :
    ∀ p ∈ callbacksIn env s c, btSessionReady p.1 = true := by
  intro p hp
  cases c with
  | reset => cases hp
  | op o =>
      cases o with
      | feed data =>
          obtain ⟨⟨t, m⟩, hq, hpq⟩ := List.mem_flatMap.mp hp
          obtain ⟨e, he, rfl⟩ := List.mem_map.mp hpq
          obtain ⟨hmt, hpt⟩ := (hm.feed data).2 _ hq
          have hgate := List.all_eq_true.mp hc _ hq
          cases m with
          | kex frame =>
              rw [callsOf_kex] at he
              cases he
          | modbus f =>
              simp only [Bool.or_eq_true, Bool.not_eq_true'] at hgate
              rcases hgate with (hplain | hready) | hsilent
              · -- plain mode is ready
                have hplain : t.plain = true := hpt.trans hplain
                unfold btSessionReady
                rw [(hmt.plain hplain).1, hplain]
                simp
              · exact hready
              · have hnone : callsOf env (t, .modbus f) = [] := by
                  unfold callsOf
                  rw [show handleInner env t (.modbus f) = handleModbus t f from rfl,
                    handleModbus_silent hsilent, List.drop_length]
                rw [hnone] at he
                cases he
      | readRegs addr count => cases hp
      | writeReg addr value => cases hp
      | usePlain => cases hp

theorem ready_run {calls : List SessCall} (hm : Modes s)
    (hc : Along (sessStep env) (fun s c => noEarlyAnswer env s c = true) s calls) :
    ∀ p ∈ allCallbacks env s calls, btSessionReady p.1 = true := by
  induction calls generalizing s with
  | nil => exact fun p hp => absurd hp List.not_mem_nil
  | cons c cs ih =>
      intro p hp
      rcases List.mem_append.mp hp with hp | hp
      · exact ready_of_noEarlyAnswer hm hc.1 p hp
      · exact ih (hm.apply c) (hc.2 _ rfl) p hp

/-- **Register data and acknowledgements are delivered in a ready session only**, in every run of
    calls and notifications on a new session none of whose notifications brings an early answer. -/
theorem callbacks_ready (env : Env κ) (calls : List SessCall)
    (hc : Along (sessStep env) (fun s c => noEarlyAnswer env s c = true) btSessionNew calls) :
    ∀ p ∈ allCallbacks env btSessionNew calls, btSessionReady p.1 = true :=
  ready_run modes_new hc

/-- A notification with a message under a handshake key. -/
def underHandshakeKey (iv plain : List UInt8) : SessCall :=
  .op (.feed ((aesWrapIv toyEnv (handshakeKey iv) iv plain rxMax).getD []))

/-- A notification with a message under the secure key. -/
def underSecureKey (key plain : List UInt8) : SessCall :=
  .op (.feed ((aesWrapSeed toyEnv (btSessionNew) key plain rxMax).1.getD []))

/-- The handshake, a read and its answer. -/
theorem callbacks_ready_exchange :
    let calls : List SessCall := [.op (challengeMsg [1, 2, 3, 4]), .op peerPubkeyMsg,
      .op pubkeyAcceptedMsg, .op (.readRegs 102 1),
      underSecureKey (List.replicate 32 7) (readReply [0, 75])]
    (allCallbacks toyEnv btSessionNew calls).length = 1 ∧
      ∀ p ∈ allCallbacks toyEnv btSessionNew calls, btSessionReady p.1 = true :=
  ⟨by decide +kernel, callbacks_ready toyEnv _
    (along_of_check (sessStep toyEnv) (c := noEarlyAnswer toyEnv) (fun _ _ h => h)
      (by decide +kernel))⟩

/-- A challenge, and then the answer to a read nobody made, under the handshake key. -/
def earlyAnswer : List SessCall :=
  [.op (challengeMsg [1, 2, 3, 4]),
    underHandshakeKey (toyEnv.md5 [4, 3, 2, 1]) (readReply [0, 75])]

/-- **Register data delivered before the key exchange is over**: the session has answered the
    challenge and waits for the peer's key. -/
theorem answer_before_ready :
    ¬ ∀ p ∈ allCallbacks toyEnv btSessionNew earlyAnswer, btSessionReady p.1 = true := by
  intro h
  have hall := List.all_eq_true.mpr h
  have hno : (allCallbacks toyEnv btSessionNew earlyAnswer).all (fun p => btSessionReady p.1) =
      false := by decide +kernel
  rw [hno] at hall
  cases hall

end NutBluetti.Ble
