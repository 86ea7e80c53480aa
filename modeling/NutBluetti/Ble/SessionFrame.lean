/-
  File:      NutBluetti/Ble/SessionFrame.lean
  Subject:   WHAT A NOTIFICATION LEAVES ALONE. The address a read was sent for labels the answer; no
             byte the unit sends changes it.

  * `KexFrame` -- a step of the key exchange: the mode and the pending address stay, and nothing is
    called back;
  * **`kexFrame_handleKex`** -- every message of the key exchange is such a step;
  * `Labelled` -- a step whose `on_regs` callbacks all carry the pending address, which stays;
  * **`labelled_feed`** -- every notification is such a step.
-/
import NutBluetti.Ble.Session

namespace NutBluetti.Ble

variable {κ : Type} {env : Env κ} {s s' s'' : BtSession κ}

/-! ## 1. The key exchange -/

def SessEvent.isCallback : SessEvent κ → Bool
  | .regs _ _ => true
  | .ack _ _ _ => true
  | _ => false

/-- The second session is the first further on by steps of the key exchange. -/
structure KexFrame (s s' : BtSession κ) : Prop where
  plain : s'.plain = s.plain
  pendingAddr : s'.pendingAddr = s.pendingAddr
  log : ∃ m, s'.log = s.log ++ m ∧ ∀ e ∈ m, e.isCallback = false

/-- A step that adds nothing to the history. -/
theorem KexFrame.of_log (hp : s'.plain = s.plain) (ha : s'.pendingAddr = s.pendingAddr)
    (hl : s'.log = s.log) : KexFrame s s' :=
  ⟨hp, ha, [], by simp [hl], by simp⟩

theorem KexFrame.refl (s : BtSession κ) : KexFrame s s := .of_log rfl rfl rfl

theorem KexFrame.trans (h : KexFrame s s') (h' : KexFrame s' s'') : KexFrame s s'' := by
  obtain ⟨m, hm, hq⟩ := h.log
  obtain ⟨m', hm', hq'⟩ := h'.log
  refine ⟨h'.plain.trans h.plain, h'.pendingAddr.trans h.pendingAddr, m ++ m',
    by rw [hm', hm, List.append_assoc], fun e he => ?_⟩
  rcases List.mem_append.mp he with he | he
  · exact hq e he
  · exact hq' e he

theorem kexFrame_note {e : SessEvent κ} (he : e.isCallback = false) (s : BtSession κ) :
    KexFrame s (s.note e) :=
  ⟨rfl, rfl, [e], rfl, fun _ hx => List.mem_singleton.mp hx ▸ he⟩

theorem kexFrame_sessionFail (s : BtSession κ) (why : String) : KexFrame s (sessionFail s why) :=
  (kexFrame_note rfl s).trans (.of_log rfl rfl rfl)

theorem kexFrame_transmit {bytes : List UInt8} {ok : Bool}
    (h : transmit env s bytes = (ok, s')) : KexFrame s s' := by
  obtain ⟨-, rfl⟩ := Prod.mk.inj h
  exact (kexFrame_note rfl s).trans (.of_log rfl rfl rfl)

theorem kexFrame_onChallenge (s : BtSession κ) (data : List UInt8) (len : Nat) :
    KexFrame s (onChallenge env s data len) := by
  unfold onChallenge
  split
  · exact kexFrame_sessionFail s _
  have h1 : KexFrame s { s.note (.challenge (env.md5 (data.take 4).reverse)) with
      unsecureIv := env.md5 (data.take 4).reverse
      unsecureKey := List.zipWith (· ^^^ ·) (env.md5 (data.take 4).reverse) localAesKey
      haveUnsecure := true } :=
    (kexFrame_note rfl s).trans (.of_log rfl rfl rfl)
  simp only
  split
  · exact h1.trans (kexFrame_sessionFail _ _)
  · split
    · rename_i s' ht
      exact (h1.trans (kexFrame_transmit ht)).trans (kexFrame_sessionFail _ _)
    · rename_i s' ht
      exact (h1.trans (kexFrame_transmit ht)).trans (.of_log rfl rfl rfl)

theorem kexFrame_replyPubkey (s : BtSession κ) (kp : κ) : KexFrame s (replyPubkey env s kp) := by
  unfold replyPubkey
  split
  · exact kexFrame_sessionFail s _
  have hdraw : KexFrame s { s with draws := s.draws + 1 } := .of_log rfl rfl rfl
  split
  · exact hdraw.trans (kexFrame_sessionFail _ _)
  simp only
  split
  · exact hdraw.trans (kexFrame_sessionFail _ _)
  split
  · exact hdraw.trans (kexFrame_sessionFail _ _)
  rename_i reply _
  have h1 : KexFrame s { s with draws := s.draws + 1, pubkeyReply := reply } :=
    .of_log rfl rfl rfl
  split
  · rename_i s' ht
    exact (h1.trans (kexFrame_transmit ht)).trans (kexFrame_sessionFail _ _)
  · rename_i s' ht
    exact (h1.trans (kexFrame_transmit ht)).trans (.of_log rfl rfl rfl)

theorem kexFrame_onPeerPubkey (s : BtSession κ) (data : List UInt8) (len : Nat) :
    KexFrame s (onPeerPubkey env s data len) := by
  unfold onPeerPubkey
  split
  · exact kexFrame_sessionFail s _
  simp only
  split
  · exact kexFrame_transmit (show transmit env s s.pubkeyReply = (_, _) from rfl)
  split
  · exact kexFrame_sessionFail s _
  have h1 : KexFrame s { s.note (.verified (data.take btP256Publen)
      ((data.drop btP256Publen).take btP256Siglen) s.unsecureIv) with
        peerPub := data.take btP256Publen } :=
    (kexFrame_note rfl s).trans (.of_log rfl rfl rfl)
  split
  · exact h1.trans (kexFrame_replyPubkey _ _)
  · have h2 : KexFrame s { s.note (.verified (data.take btP256Publen)
        ((data.drop btP256Publen).take btP256Siglen) s.unsecureIv) with
          peerPub := data.take btP256Publen
          kp := env.keypairNew s.draws
          draws := s.draws + 1 } := h1.trans (.of_log rfl rfl rfl)
    split
    · exact h2.trans (kexFrame_sessionFail _ _)
    · exact h2.trans (kexFrame_replyPubkey _ _)

theorem kexFrame_onPubkeyAccepted (s : BtSession κ) (data : List UInt8) (len : Nat) :
    KexFrame s (onPubkeyAccepted env s data len) := by
  unfold onPubkeyAccepted
  split
  · exact kexFrame_sessionFail s _
  split
  · exact kexFrame_sessionFail s _
  · exact (kexFrame_note rfl s).trans (.of_log rfl rfl rfl)

/-- **Every message of the key exchange** keeps the mode and the pending address, and calls nothing
    back. -/
theorem kexFrame_handleKex (s : BtSession κ) (frame : List UInt8) :
    KexFrame s (handleKex env s frame) := by
  unfold handleKex
  split
  · exact .refl s
  simp only
  split
  · exact .refl s
  split
  · exact kexFrame_onChallenge s _ _
  split
  · exact kexFrame_onPeerPubkey s _ _
  split
  · exact kexFrame_onPubkeyAccepted s _ _
  · exact .refl s

/-! ## 2. Labels -/

/-- The second session is the first further on, with the same pending address, and with that address
    on all register data called back meanwhile. -/
structure Labelled (s s' : BtSession κ) : Prop where
  pendingAddr : s'.pendingAddr = s.pendingAddr
  log : ∃ m, s'.log = s.log ++ m ∧ ∀ a d, SessEvent.regs a d ∈ m → a = s.pendingAddr

theorem KexFrame.labelled (h : KexFrame s s') : Labelled s s' := by
  obtain ⟨m, hm, hq⟩ := h.log
  refine ⟨h.pendingAddr, m, hm, fun a d he => ?_⟩
  have hno := hq _ he
  cases hno

theorem Labelled.refl (s : BtSession κ) : Labelled s s := (KexFrame.refl s).labelled

theorem Labelled.trans (h : Labelled s s') (h' : Labelled s' s'') : Labelled s s'' := by
  obtain ⟨m, hm, hq⟩ := h.log
  obtain ⟨m', hm', hq'⟩ := h'.log
  refine ⟨h'.pendingAddr.trans h.pendingAddr, m ++ m', by rw [hm', hm, List.append_assoc],
    fun a d he => ?_⟩
  rcases List.mem_append.mp he with he | he
  · exact hq a d he
  · rw [hq' a d he, h.pendingAddr]

theorem labelled_rx (s : BtSession κ) (rx : List UInt8) : Labelled s { s with rx := rx } :=
  have h : KexFrame s { s with rx := rx } := .of_log rfl rfl rfl
  h.labelled

theorem labelled_note {e : SessEvent κ} (he : ∀ a d, e = .regs a d → a = s.pendingAddr) :
    Labelled s (s.note e) :=
  ⟨rfl, [e], rfl, fun a d hx => he a d (List.mem_singleton.mp hx).symm⟩

theorem labelled_handleModbus (s : BtSession κ) (f : List UInt8) :
    Labelled s (handleModbus s f) := by
  unfold handleModbus
  split
  · exact .refl s
  simp only
  split
  · exact labelled_note fun a d he => by cases he
  split
  · exact .refl s
  split
  · exact .refl s
  split
  · exact .refl s
  · refine labelled_note fun a d he => ?_
    cases he
    rfl

theorem labelled_drainPlain (fuel : Nat) (s : BtSession κ) : Labelled s (drainPlain fuel s) := by
  induction fuel generalizing s with
  | zero => exact .refl s
  | succ fuel ih =>
      unfold drainPlain
      split
      · exact .refl s
      simp only
      split
      · exact .refl s
      · exact ((labelled_handleModbus s _).trans (labelled_rx _ _)).trans (ih _)

theorem labelled_dispatchInner (s : BtSession κ) (plain : List UInt8) :
    Labelled s (dispatchInner env s plain) := by
  unfold dispatchInner
  split
  · exact (kexFrame_handleKex s plain).labelled
  · exact labelled_handleModbus s plain

theorem labelled_drainWrapped (fuel : Nat) (s : BtSession κ) :
    Labelled s (drainWrapped env fuel s) := by
  induction fuel generalizing s with
  | zero => exact .refl s
  | succ fuel ih =>
      unfold drainWrapped
      simp only
      split
      · exact .refl s
      split
      · exact labelled_rx s []
      · rename_i plain _
        have h1 : Labelled s (dispatchInner env
            { s with rx := s.rx.drop (framedLen s.haveSecure s.rx) } plain) :=
          (labelled_rx s _).trans (labelled_dispatchInner _ plain)
        split
        · exact h1
        · exact h1.trans (ih _)

/-- **Every notification** keeps the pending address, and puts it on the register data it
    delivers. -/
theorem labelled_feed (env : Env κ) (s : BtSession κ) (data : List UInt8) :
    Labelled s (btSessionFeed env s data) := by
  unfold btSessionFeed
  split
  · split
    · exact labelled_rx s []
    · exact (labelled_rx s _).trans (labelled_drainPlain _ _)
  split
  · exact (kexFrame_handleKex s data).labelled
  split
  · exact .refl s
  split
  · exact labelled_rx s []
  · exact (labelled_rx s _).trans (labelled_drainWrapped _ _)

/-! ## 3. Whole replies -/

/-- Two bytes of a CRC, low byte first, make it up again. -/
theorem crc_bytes (crc : UInt16) :
    crc.toUInt8.toUInt16 ||| ((crc >>> 8).toUInt8.toUInt16 <<< 8) = crc := by
  have hlt : crc.toNat < 65536 := crc.toNat_lt
  have hdiv : crc.toNat >>> 8 % 256 = crc.toNat / 256 := by
    rw [Nat.shiftRight_eq_div_pow]
    omega
  have hshift : (crc.toNat / 256) <<< 8 = 256 * (crc.toNat / 256) := by
    rw [Nat.shiftLeft_eq]
    omega
  have hlow : crc.toNat % 256 < 2 ^ 8 := by omega
  have hsum := Nat.shiftLeft_add_eq_or_of_lt hlow (crc.toNat / 256)
  apply UInt16.toNat_inj.mp
  simp only [UInt16.toNat_or, UInt16.toNat_shiftLeft, UInt8.toNat_toUInt16, UInt16.toNat_toUInt8,
    UInt16.toNat_shiftRight, UInt16.reduceToNat, Nat.reduceMod, Nat.reducePow]
  rw [hdiv, Nat.or_comm, Nat.mod_eq_of_lt (by omega), ← hsum, hshift]
  omega

/-- A body with its CRC, low byte first. -/
def withCrc (body : List UInt8) : List UInt8 :=
  body ++ [(btCrc16Modbus body).toUInt8, (btCrc16Modbus body >>> 8).toUInt8]

@[simp] theorem withCrc_length (body : List UInt8) : (withCrc body).length = body.length + 2 := by
  simp [withCrc]

theorem modbusCrcOk_append (f : List UInt8) : modbusCrcOk (withCrc f) f.length = true := by
  have h0 : (withCrc f).getD f.length 0 = (btCrc16Modbus f).toUInt8 := by simp [withCrc]
  have h1 : (withCrc f).getD (f.length + 1) 0 = (btCrc16Modbus f >>> 8).toUInt8 := by simp [withCrc]
  rw [modbusCrcOk, h0, h1, crc_bytes, withCrc, List.take_left]
  exact beq_self_eq_true _

/-- The frame a unit answers a read with. -/
def readReply (regs : List UInt8) : List UInt8 :=
  let f := [modbusSlave, modbusRead, UInt8.ofNat regs.length] ++ regs
  f ++ [(btCrc16Modbus f).toUInt8, (btCrc16Modbus f >>> 8).toUInt8]

/-- The frame a unit refuses a read with. -/
def exceptionReply (code : UInt8) : List UInt8 :=
  let f := [modbusSlave, modbusRead ||| 0x80, code]
  f ++ [(btCrc16Modbus f).toUInt8, (btCrc16Modbus f >>> 8).toUInt8]

/-- A reply of a unit, with any slave id: the registers of a read, the echo of a write, an
    exception. -/
inductive Reply where
  | read (id : UInt8) (data : List UInt8) (fits : data.length < 256)
  | echo (id : UInt8) (addr value : UInt16)
  | exception (id function code : UInt8)

def Reply.body : Reply → List UInt8
  | .read id data _ => [id, modbusRead, UInt8.ofNat data.length] ++ data
  | .echo id addr value =>
      [id, modbusWrite, (addr >>> 8).toUInt8, addr.toUInt8, (value >>> 8).toUInt8, value.toUInt8]
  | .exception id function code => [id, function ||| 0x80, code]

/-- The reply on the wire. -/
def Reply.bytes (r : Reply) : List UInt8 := withCrc r.body

/-- What a reply calls back, with this address pending. Of the exceptions only that of a write is
    called back: as an acknowledgement that is not ok. -/
def Reply.calls (pending : UInt16) : Reply → List (SessEvent κ)
  | .read _ data _ => [.regs pending data]
  | .echo _ addr value => [.ack addr value true]
  | .exception _ function _ =>
      if function ||| 0x80 = modbusWrite ||| 0x80 then [.ack pending 0 false] else []

theorem be16_bytes (w : UInt16) : be16 (w >>> 8).toUInt8 w.toUInt8 = w := by
  rw [be16, UInt16.or_comm]
  exact crc_bytes w

theorem count_toNat {data : List UInt8} (fits : data.length < 256) :
    (UInt8.ofNat data.length).toNat = data.length := by
  rw [UInt8.toNat_ofNat']
  exact Nat.mod_eq_of_lt fits

/-- The function of an exception is neither a read nor a write. -/
theorem exception_function (function : UInt8) :
    function ||| 0x80 ≠ modbusWrite ∧ function ||| 0x80 ≠ modbusRead := by
  have hle : 128 ≤ (function ||| 0x80).toNat := by
    rw [UInt8.toNat_or]
    exact Nat.right_le_or
  constructor
  · intro h
    rw [h] at hle
    exact absurd hle (by decide)
  · intro h
    rw [h] at hle
    exact absurd hle (by decide)

/-- **A whole reply calls back once at most**, and changes nothing else. -/
theorem handleModbus_bytes (s : BtSession κ) (r : Reply) :
    handleModbus s r.bytes = { s with log := s.log ++ r.calls s.pendingAddr } := by
  have hcrc := modbusCrcOk_append r.body
  have hl : r.bytes.length = r.body.length + 2 := withCrc_length r.body
  unfold handleModbus
  cases r with
  | read id data fits =>
      have hbody : (Reply.read id data fits).body.length = 3 + data.length := by
        simp [Reply.body]
        omega
      have hcount : ((Reply.read id data fits).bytes.getD 2 0).toNat = data.length :=
        count_toNat fits
      have hfn : (Reply.read id data fits).bytes.getD 1 0 = modbusRead := rfl
      have hdata : ((Reply.read id data fits).bytes.drop 3).take data.length = data := by
        simp [Reply.bytes, Reply.body, withCrc]
      rw [hbody] at hl hcrc
      simp only [hfn, hcount, hl, hdata]
      rw [if_neg (by omega), if_neg (by decide), if_neg (by decide), if_neg (by omega),
        show modbusCrcOk (Reply.read id data fits).bytes (3 + data.length) = true from hcrc]
      rfl
  | echo id addr value =>
      have hfn : (Reply.echo id addr value).bytes.getD 1 0 = modbusWrite := rfl
      have hok : modbusCrcOk (Reply.echo id addr value).bytes 6 = true := hcrc
      have haddr : be16 ((Reply.echo id addr value).bytes.getD 2 0)
          ((Reply.echo id addr value).bytes.getD 3 0) = addr := be16_bytes addr
      have hvalue : be16 ((Reply.echo id addr value).bytes.getD 4 0)
          ((Reply.echo id addr value).bytes.getD 5 0) = value := be16_bytes value
      simp only [hfn, hok, haddr, hvalue, hl]
      rfl
  | exception id function code =>
      have hfn : (Reply.exception id function code).bytes.getD 1 0 = function ||| 0x80 := rfl
      obtain ⟨hw, hr⟩ := exception_function function
      simp only [hfn, hl, hw, false_or]
      rw [if_neg (show ¬ (Reply.exception id function code).body.length + 2 < 5 by
        simp [Reply.body])]
      by_cases h86 : function ||| 0x80 = modbusWrite ||| 0x80
      · rw [if_pos h86, Reply.calls, if_pos h86]
        rfl
      · rw [if_neg h86, if_pos hr, Reply.calls, if_neg h86, List.append_nil]

end NutBluetti.Ble
