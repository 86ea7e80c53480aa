/-
  File:      NutBluetti/Pve/Trust.lean
  Subject:   TRUST ON FIRST USE: to whom a host's token is written, over any sequence of calls and
             against any choice of the certificates presented.

  * `tlsRequest_cases` -- the three ways a request ends, seen from the pin;
  * `Requests` -- a stretch of connections made with one host record: each with the pin it was
    checked against, what the other side did, and what was written;
  * `firstContact_cases` -- the test, the one call that may rewrite the pin, and only between its
    first and its second connection;
  * `performAll_pinned` -- once there is a fingerprint, it stays;
  * **`trustOnFirstUse`** -- every call of every sequence.
-/
import NutBluetti.Pve.ApiCalls

namespace NutBluetti.Pve

open CText

/-! ## 1. One request -/

/-- One digit, and so a byte, is determined by how it is written. -/
theorem digit_injective : ∀ a b : Fin 16,
    (Nat.digitChar a).toUpper = (Nat.digitChar b).toUpper → a = b := by
  decide

theorem hex2_injective : Function.Injective hex2 := by
  intro a b hab
  have ha := a.toNat_lt
  have hb := b.toNat_lt
  obtain ⟨hhi, hlo⟩ : _ ∧ _ := by simpa only [hex2, List.cons.injEq, and_true] using hab
  have h1 := digit_injective ⟨a.toNat / 16, by omega⟩ ⟨b.toNat / 16, by omega⟩ hhi
  have h2 := digit_injective ⟨a.toNat % 16, by omega⟩ ⟨b.toNat % 16, by omega⟩ hlo
  simp only [Fin.mk.injEq] at h1 h2
  exact UInt8.toNat_inj.mp (by omega)

/-- Two digests written alike are the same digest. -/
theorem fpHex_injective : Function.Injective fpHex := by
  intro d d' h
  replace h : d.flatMap hex2 = d'.flatMap hex2 := String.ofList_injective h
  induction d generalizing d' with
  | nil =>
      cases d' with
      | nil => rfl
      | cons b d' => simp [hex2] at h
  | cons a d ih =>
      cases d' with
      | nil => simp [hex2] at h
      | cons b d' =>
          rw [List.flatMap_cons, List.flatMap_cons] at h
          obtain ⟨h1, h2⟩ := List.append_inj h rfl
          rw [hex2_injective h1, ih h2]

/-- Two hexadecimal digits a byte. -/
theorem fpHex_length (d : List UInt8) : (fpHex d).length = 2 * d.length := by
  unfold fpHex
  rw [String.length_ofList]
  induction d with
  | nil => rfl
  | cons a d ih =>
      rw [List.flatMap_cons, List.length_append, ih]
      simp [hex2]
      omega

/-- **How a request ends**: it fails before anything is written; or nothing is pinned, and it stops
    at the certificate it saw; or it saw the pinned certificate. -/
theorem tlsRequest_cases (h : PveHost) (path : String) (body : Option String) (respSz errSz : Nat)
    (resp err : String) (a : TlsAttempt) :
    let r := tlsRequest h path body respSz errSz resp err a
    (r.status = -1 ∧ r.sent = none) ∨
    (h.fingerprint = "" ∧ ∃ d answer, a = .certificate d answer ∧ r.status = 0 ∧
      r.seenFp = fpHex d ∧ r.sent = none) ∨
    (h.fingerprint ≠ "" ∧ ∃ d answer, a = .certificate d answer ∧ fpHex d = h.fingerprint ∧
      r.seenFp = fpHex d) := by
  intro r
  have hr : r = tlsRequest h path body respSz errSz resp err a := rfl
  clear_value r
  unfold tlsRequest at hr
  cases hurl : splitUrl h.url 64 8 with
  | none => exact .inl (by simp [hr, hurl])
  | some hp =>
      obtain ⟨host, port⟩ := hp
      cases a with
      | certificate d answer =>
          by_cases hpin : h.fingerprint = ""
          · exact .inr (.inl ⟨hpin, d, answer, rfl, by simp [hr, hurl, hpin]⟩)
          by_cases hseen : fpHex d = h.fingerprint
          · refine .inr (.inr ⟨hpin, d, answer, rfl, hseen, ?_⟩)
            by_cases hlong : (requestText h host path body).length ≥ reqSz
            · simp [hr, hurl, hpin, hseen, hlong]
            · cases answer with
              | reply status text => cases status <;> simp [hr, hurl, hpin, hseen, hlong]
              | writeFailed rc => simp [hr, hurl, hpin, hseen, hlong]
              | outOfMemory => simp [hr, hurl, hpin, hseen, hlong]
              | readFailed rc => simp [hr, hurl, hpin, hseen, hlong]
          · exact .inl (by simp [hr, hurl, hpin, hseen])
      | rngFailed rc => exact .inl (by simp [hr, hurl])
      | connectFailed rc => exact .inl (by simp [hr, hurl])
      | configFailed rc => exact .inl (by simp [hr, hurl])
      | setupFailed rc => exact .inl (by simp [hr, hurl])
      | handshakeFailed rc => exact .inl (by simp [hr, hurl])
      | noCertificate => exact .inl (by simp [hr, hurl])

/-! ## 2. Connections -/

/-- One connection: the fingerprint it was checked against, what the other side did, and the request
    written to it, if one was. -/
structure Connection where
  pin : String
  attempt : TlsAttempt
  sent : Option Request

/-- What was written, was written to a server that showed the certificate pinned at that moment. -/
def Connection.OnPinned (k : Connection) : Prop :=
  k.sent ≠ none → k.pin ≠ "" ∧ ∃ d answer, k.attempt = .certificate d answer ∧ fpHex d = k.pin

/-- The connections opened and the bytes written from `w` to `w'`. -/
structure Account (w : World) (cs : List Connection) (w' : World) : Prop where
  /-- The connections meet what the other side chose for them, one after the other. -/
  met : ∀ n k, cs[n]? = some k → k.attempt = w.attempts.getD n (.connectFailed 0)
  left : w'.attempts = w.attempts.drop cs.length
  /-- Nothing is written but on them. -/
  sent : w'.sent = w.sent ++ cs.filterMap Connection.sent
  onPinned : ∀ k ∈ cs, k.OnPinned

namespace Account

variable {w w₁ w' : World} {cs cs' : List Connection}

theorem quiet (ha : w'.attempts = w.attempts) (hs : w'.sent = w.sent) : Account w [] w' :=
  ⟨fun _ _ hk => by simp at hk, by simp [ha], by simp [hs], nofun⟩

theorem trans (h1 : Account w cs w₁) (h2 : Account w₁ cs' w') : Account w (cs ++ cs') w' where
  met n k hk := by
    rcases Nat.lt_or_ge n cs.length with hn | hn
    · rw [List.getElem?_append_left hn] at hk
      exact h1.met n k hk
    · rw [List.getElem?_append_right hn] at hk
      rw [h2.met _ k hk, h1.left, List.getD_eq_getElem?_getD, List.getD_eq_getElem?_getD,
        List.getElem?_drop, Nat.add_sub_cancel' hn]
  left := by rw [h2.left, h1.left, List.drop_drop, List.length_append]
  sent := by rw [h2.sent, h1.sent, List.filterMap_append, List.append_assoc]
  onPinned k hk := (List.mem_append.mp hk).elim (h1.onPinned k) (h2.onPinned k)

/-- **The pin is checked first**: the account of one request. -/
theorem request (h : PveHost) (w : World) (path : String) (body : Option String)
    (respSz errSz : Nat)
    (resp err : String) :
    Account w [⟨h.fingerprint, w.attempt, (w.request h path body respSz errSz resp err).1.sent⟩]
      (w.request h path body respSz errSz resp err).2 where
  met n k hk := by
    obtain ⟨rfl, rfl⟩ : n = 0 ∧ _ = k := by simpa [List.getElem?_singleton] using hk
    cases hl : w.attempts <;> simp [World.attempt, hl]
  left := by simp [World.request]
  sent := by
    simp only [World.request]
    cases (tlsRequest h path body respSz errSz resp err w.attempt).sent <;> rfl
  onPinned k hk hsent := by
    obtain rfl := List.mem_singleton.mp hk
    rcases tlsRequest_cases h path body respSz errSz resp err w.attempt with
      ⟨-, hnone⟩ | ⟨-, d, answer, -, -, -, hnone⟩ | ⟨hpin, d, answer, ha, hd, -⟩
    · exact absurd hnone hsent
    · exact absurd hnone hsent
    · exact ⟨hpin, d, answer, ha, hd⟩

end Account

/-- `Requests h w cs w'`: from `w` to `w'` the code called `tls_request` on the host `h` once for
    each connection of `cs`, in order, and neither opened nor wrote anything else. -/
inductive Requests (h : PveHost) : World → List Connection → World → Prop where
  | done {w : World} : Requests h w [] w
  | quiet {w w₁ w' : World} {cs : List Connection} (ha : w₁.attempts = w.attempts)
      (hs : w₁.sent = w.sent) (rest : Requests h w₁ cs w') : Requests h w cs w'
  | request {w w' : World} {cs : List Connection} (path : String) (body : Option String)
      (respSz errSz : Nat) (resp err : String)
      (rest : Requests h (w.request h path body respSz errSz resp err).2 cs w') :
      Requests h w
        (⟨h.fingerprint, w.attempt, (w.request h path body respSz errSz resp err).1.sent⟩ :: cs) w'

namespace Requests

variable {h : PveHost} {w w₁ w' : World} {cs cs' : List Connection}

theorem trans (h1 : Requests h w cs w₁) (h2 : Requests h w₁ cs' w') :
    Requests h w (cs ++ cs') w' := by
  induction h1 with
  | done => exact h2
  | quiet ha hs _ ih => exact .quiet ha hs (ih h2)
  | request path body respSz errSz resp err _ ih =>
      exact .request path body respSz errSz resp err (ih h2)

/-- One request. -/
theorem one (h : PveHost) (w : World) (path : String) (body : Option String) (respSz errSz : Nat)
    (resp err : String) :
    Requests h w [⟨h.fingerprint, w.attempt, (w.request h path body respSz errSz resp err).1.sent⟩]
      (w.request h path body respSz errSz resp err).2 :=
  .request path body respSz errSz resp err .done

theorem account (hr : Requests h w cs w') : Account w cs w' := by
  induction hr with
  | done => exact .quiet rfl rfl
  | quiet ha hs _ ih => exact (Account.quiet ha hs).trans ih
  | @request w w' cs path body respSz errSz resp err _ ih =>
      exact (Account.request h w path body respSz errSz resp err).trans ih

/-- All with the one pin. -/
theorem pin (hr : Requests h w cs w') : ∀ k ∈ cs, k.pin = h.fingerprint := by
  induction hr with
  | done => exact nofun
  | quiet _ _ _ ih => exact ih
  | request path body respSz errSz resp err _ ih =>
      intro k hk
      rcases List.mem_cons.mp hk with rfl | hk
      · rfl
      · exact ih k hk

end Requests

/-! ## 3. What only asks -/

/-- From `w` to `w'` nothing was opened or written but by `tls_request` on `h`. -/
def Reaches (h : PveHost) (w w' : World) : Prop := ∃ cs, Requests h w cs w'

namespace Reaches

variable {h : PveHost} {w w₁ w' : World}

theorem refl (h : PveHost) (w : World) : Reaches h w w := ⟨[], .done⟩

theorem trans (h1 : Reaches h w w₁) (h2 : Reaches h w₁ w') : Reaches h w w' := by
  obtain ⟨cs, h1⟩ := h1
  obtain ⟨cs', h2⟩ := h2
  exact ⟨cs ++ cs', h1.trans h2⟩

theorem request (h : PveHost) (w : World) (path : String) (body : Option String)
    (respSz errSz : Nat) (resp err : String) :
    Reaches h w (w.request h path body respSz errSz resp err).2 :=
  ⟨_, .one h w path body respSz errSz resp err⟩

theorem emit (hr : Reaches h w w₁) (kind : PveEventKind) (text : String) :
    Reaches h w (w₁.emit kind text) :=
  hr.trans ⟨[], .quiet (show (w₁.emit kind text).attempts = w₁.attempts from rfl) rfl .done⟩

theorem note (hr : Reaches h w w₁) (n : Note) : Reaches h w (w₁.note n) :=
  hr.trans ⟨[], .quiet (show (w₁.note n).attempts = w₁.attempts from rfl) rfl .done⟩

theorem foldl {α : Type} {f : World → α → World} (hf : ∀ w a, Reaches h w (f w a)) (l : List α)
    (w : World) : Reaches h w (l.foldl f w) := by
  induction l generalizing w with
  | nil => exact refl h w
  | cons a l ih => exact (hf w a).trans (ih (f w a))

end Reaches

theorem guestKinds_reaches (h : PveHost) (id : Int) (kinds : List String) (last : Int × String)
    (w : World) : Reaches h w (guestKinds h id kinds last w).2 := by
  induction kinds generalizing last w with
  | nil => exact .refl h w
  | cons kind kinds ih =>
      have hone := Reaches.request h w
        (fit 96 ("/nodes/" ++ h.node ++ "/" ++ kind ++ "/" ++ toString id ++ "/status/shutdown"))
        (some "") 0 64 "" last.2
      simp only [guestKinds]
      split
      · exact hone
      · exact hone.trans (ih _ _)

theorem shutdownGuest_reaches (h : PveHost) (id : Int) (wsz : Nat) (w : World) :
    Reaches h w (shutdownGuest h id wsz w).2 := by
  have hkinds := guestKinds_reaches h id ["qemu", "lxc"] (-1, "") w
  simp only [shutdownGuest]
  split <;> exact hkinds

theorem nodeNames_reaches (h : PveHost) (names : List String) (last : Int × String) (w : World) :
    Reaches h w (nodeNames h names last w).2 := by
  induction names generalizing last w with
  | nil => exact .refl h w
  | cons name names ih =>
      have hone := Reaches.request h w (fit 64 ("/nodes/" ++ name ++ "/status"))
        (some "command=shutdown") 0 64 "" last.2
      simp only [nodeNames]
      split
      · exact hone
      · exact hone.trans (ih _ _)

theorem nodeTries_reaches (h : PveHost) (n : Nat) (last : Int × String) (w : World) :
    Reaches h w (nodeTries h n last w).2 := by
  induction n generalizing last w with
  | zero => exact .refl h w
  | succ n ih =>
      simp only [nodeTries]
      generalize (if h.node = "localhost" then [h.node] else [h.node, "localhost"]) = names
      have hnames := nodeNames_reaches h names last w
      split
      · exact hnames
      · exact hnames.trans (ih _ _)

theorem shutdownNode_reaches (h : PveHost) (wsz : Nat) (w : World) :
    Reaches h w (shutdownNode h wsz w).2 := by
  have htries := nodeTries_reaches h nodeAttempts (-1, "") w
  simp only [shutdownNode]
  split <;> exact htries

theorem stopPending_reaches (i : HostIx) (h : PveHost) (w : World) (g : PendingGuest) :
    Reaches h w (stopPending i h w g) := by
  have hguest := shutdownGuest_reaches h g.id 96 w
  unfold stopPending
  cases hres : shutdownGuest h g.id 96 w with
  | mk why w₁ =>
      rw [hres] at hguest
      cases why with
      | none => exact (hguest.note _).emit _ _
      | some why => exact (hguest.note _).emit _ _

theorem stopNode_reaches (i : HostIx) (h : PveHost) (nodeReason : String) (w : World) :
    Reaches h w (stopNode i h nodeReason w) := by
  have hnode : Reaches h w (if h.shutdownNode then shutdownNode h 96 w else (none, w)).2 := by
    split
    · exact shutdownNode_reaches h 96 w
    · exact .refl h w
  unfold stopNode
  cases hres : (if h.shutdownNode then shutdownNode h 96 w else (none, w)) with
  | mk why w₁ =>
      rw [hres] at hnode
      cases why with
      | none => exact (hnode.note _).emit _ _
      | some why => exact (hnode.note _).emit _ _

/-- **The worker only asks**, with the host as its snapshot of the configuration has it. -/
theorem runHost_reaches (i : HostIx) (cfg : PveConfig) (nodePending : Bool)
    (batch : List PendingGuest) (nodeReason : String) (w : World) :
    Reaches (cfg.hosts i) w (runHost i cfg nodePending batch nodeReason w) := by
  unfold runHost
  dsimp only
  split
  · exact .refl _ w
  split
  · -- a dry run: only reports
    have hdry := Reaches.foldl (h := cfg.hosts i) (f := dryRunGuest i (cfg.hosts i))
      (fun w g => ((Reaches.refl _ w).emit _ _).note _) batch w
    cases nodePending with
    | false => exact hdry
    | true => exact (hdry.emit _ _).note _
  split
  · -- not trusted: only reports
    have hskip := Reaches.foldl (h := cfg.hosts i) (f := untrustedGuest i)
      (fun w g => (Reaches.refl _ w).note _) batch
    cases nodePending with
    | false => exact hskip w
    | true => exact (((Reaches.refl _ w).emit _ _).note _).trans (hskip _)
  · have hguests := Reaches.foldl (stopPending_reaches i (cfg.hosts i)) batch w
    cases nodePending with
    | false => exact hguests
    | true => exact hguests.trans (stopNode_reaches i (cfg.hosts i) nodeReason _)

theorem listKind_reaches (parse : String → Option Json) (h : PveHost) (kind : String)
    (outSz errSz : Nat) (respOk : Bool) (out : String) (first : Bool) (err : String) (w : World) :
    Reaches h w (listKind parse h kind outSz errSz respOk out first err w).2 := by
  unfold listKind
  split
  · exact .refl h w
  have hone := Reaches.request h w (fit 64 ("/nodes/" ++ h.node ++ "/" ++ kind)) none
    pveGuestRespMax errSz "" err
  dsimp only
  split
  · exact hone
  split <;> exact hone

theorem pveShutdownListGuests_reaches (parse : String → Option Json) (h : PveHost)
    (jsonSz errSz : Nat) (qemuOk lxcOk : Bool) (err : String) (w : World) :
    Reaches h w (pveShutdownListGuests parse h jsonSz errSz qemuOk lxcOk err w).2 := by
  unfold pveShutdownListGuests
  split
  · exact .refl h w
  have hqemu := listKind_reaches parse h "qemu" (jsonSz - 2) errSz qemuOk "[" true err w
  cases hres : listKind parse h "qemu" (jsonSz - 2) errSz qemuOk "[" true err w with
  | mk res w₁ =>
      rw [hres] at hqemu
      cases res with
      | error why => exact hqemu
      | ok acc =>
          obtain ⟨out, first, n⟩ := acc
          have hlxc := listKind_reaches parse h "lxc" (jsonSz - 2) errSz lxcOk out first err w₁
          cases hres' : listKind parse h "lxc" (jsonSz - 2) errSz lxcOk out first err w₁ with
          | mk res' w₂ =>
              rw [hres'] at hlxc
              cases res' with
              | error why => simpa only [hres'] using hqemu.trans hlxc
              | ok acc' => simpa only [hres'] using hqemu.trans hlxc

/-! ## 4. The test -/

/-- Every digest the other side can show is a SHA-256. -/
def Digests (attempts : List TlsAttempt) : Prop :=
  ∀ d answer, TlsAttempt.certificate d answer ∈ attempts → d.length = 32

theorem Digests.shown {w : World} (hw : Digests w.attempts) {d : List UInt8} {answer : TlsAnswer}
    (ha : w.attempt = .certificate d answer) : d.length = 32 := by
  unfold World.attempt at ha
  cases hl : w.attempts with
  | nil => simp [hl] at ha
  | cons a rest =>
      rw [hl, List.headD_cons] at ha
      exact hw d answer (hl ▸ ha ▸ List.mem_cons_self)

/-- What `h->fingerprint` holds of a digest that was copied into it: all of it. -/
theorem fit_fpHex {d : List UInt8} (hd : d.length = 32) : fit 65 (fpHex d) = fpHex d :=
  fit_of_length_lt (by rw [fpHex_length, hd]; decide)

theorem fpHex_ne_empty {d : List UInt8} (hd : d.length = 32) : fpHex d ≠ "" := by
  intro h
  have := congrArg String.length h
  rw [fpHex_length, hd] at this
  exact absurd this (by decide)

/-- The first contact pins nothing new: it asked on the host as it was. -/
def Asked (h : PveHost) (w : World) (c : Contact) (w' : World) : Prop :=
  c.host = h ∧ Reaches h w w'

/-- The first contact pinned what it saw, on a connection that was told nothing, and asked on a
    second one; whoever shows another certificate there is told nothing either, and the request
    fails. -/
def Pinned (h : PveHost) (w : World) (c : Contact) (w' : World) : Prop :=
  h.fingerprint = "" ∧ ∃ d answer w₁,
    c.host = { h with fingerprint := fpHex d } ∧
    Requests h w [⟨"", .certificate d answer, none⟩] w₁ ∧
    Requests c.host w₁ [⟨fpHex d, w₁.attempt, c.result.sent⟩] w' ∧
    ∀ d' answer', w₁.attempt = .certificate d' answer' → d' ≠ d →
      c.result.status = -1 ∧ c.result.sent = none

theorem firstContact_cases {h : PveHost} {w : World} (hw : Digests w.attempts) :
    Asked h w (firstContact h w).1 (firstContact h w).2 ∨
      Pinned h w (firstContact h w).1 (firstContact h w).2 := by
  have hone := Requests.one h w "/version" none respMax 80 "" ""
  have hcases := tlsRequest_cases h "/version" none respMax 80 "" "" w.attempt
  unfold firstContact
  generalize hreq : w.request h "/version" none respMax 80 "" "" = rw₁ at hone
  obtain ⟨r, w₁⟩ := rw₁
  have hr : r = tlsRequest h "/version" none respMax 80 "" "" w.attempt :=
    (congrArg Prod.fst hreq).symm
  rw [← hr] at hcases
  dsimp only at hone hcases ⊢
  by_cases hzero : r.status = 0
  · rw [if_pos hzero]
    rcases hcases with ⟨hneg, -⟩ | ⟨hpin, d, answer, ha, -, hseen, hnone⟩ |
      ⟨hpin, d, answer, ha, hfp, hseen⟩
    · rw [hneg] at hzero
      exact absurd hzero (by decide)
    · have hd := hw.shown ha
      rw [hseen, fit_fpHex hd]
      rw [hpin, ha, hnone] at hone
      refine .inr ⟨hpin, d, answer, w₁, rfl, hone, .one _ w₁ "/version" none respMax 80 _ _, ?_⟩
      intro d' answer' ha' hne
      rcases tlsRequest_cases { h with fingerprint := fpHex d } "/version" none respMax 80 r.resp
        r.err
          w₁.attempt with hfail | ⟨hempty, -⟩ | ⟨-, d'', answer'', ha'', hfp, -⟩
      · exact hfail
      · exact absurd hempty (fpHex_ne_empty hd)
      · rw [ha'] at ha''
        cases ha''
        exact absurd (fpHex_injective hfp) hne
    · -- a reply of status 0 from the pinned server: the same value is stored again
      have hsame : { h with fingerprint := fit 65 r.seenFp } = h := by
        rw [hseen, fit_fpHex (hw.shown ha), hfp]
      rw [hsame]
      exact .inl ⟨rfl, .trans ⟨_, hone⟩ (.request h w₁ "/version" none respMax 80 _ _)⟩
  · rw [if_neg hzero]
    exact .inl ⟨rfl, _, hone⟩

/-! ## 5. Every call of every sequence -/

/-- The one way a fingerprint changes: a test of a host that had none, to the digest its first
    connection showed; the rest of the test is checked against that, and if the second connection
    shows another certificate, nothing is written at all. -/
def FirstUse (c : ApiCall) (s s' : PveHost × World) (cs : List Connection) : Prop :=
  c.isTest = true ∧ s.1.fingerprint = "" ∧ ∃ d answer w₁ second rest,
    cs = ⟨"", .certificate d answer, none⟩ :: second :: rest ∧
    Requests s.1 s.2 [⟨"", .certificate d answer, none⟩] w₁ ∧
    s'.1 = { s.1 with fingerprint := fpHex d } ∧
    Requests s'.1 w₁ (second :: rest) s'.2 ∧ (∀ k ∈ second :: rest, k.pin = fpHex d) ∧
    ∀ d' answer', second.attempt = .certificate d' answer' → d' ≠ d → s'.2.sent = s.2.sent

/-- What a call that takes `s` to `s'` does with the connections `cs` it opens: the pins are the
    host's fingerprint as the call found it, and it stays so, except at a first use. -/
structure TrustLaw (c : ApiCall) (s s' : PveHost × World) (cs : List Connection) : Prop where
  account : Account s.2 cs s'.2
  pin : (s'.1 = s.1 ∧ Requests s.1 s.2 cs s'.2 ∧ ∀ k ∈ cs, k.pin = s.1.fingerprint) ∨
    FirstUse c s s' cs

/-- A call that only asks keeps the law. -/
theorem Reaches.trustLaw {h : PveHost} {w w' : World} (hr : Reaches h w w') (c : ApiCall) :
    ∃ cs, TrustLaw c (h, w) (h, w') cs := by
  obtain ⟨cs, hr⟩ := hr
  exact ⟨cs, hr.account, .inl ⟨rfl, hr, hr.pin⟩⟩

section Test

variable (parse : String → Option Json) (h : PveHost) (guests : List PveGuest) (msgSz : Nat)
    (w : World)

theorem pveShutdownTest_host :
    (pveShutdownTest parse h guests msgSz true w).1 = (firstContact h w).1.host := by
  unfold pveShutdownTest
  simp only [Bool.not_true, Bool.false_eq_true, if_false]
  split <;> rfl

/-- Unless the first contact got its reply, the test ends with it. -/
theorem pveShutdownTest_ends (hst : (firstContact h w).1.result.status ≠ 200) :
    (pveShutdownTest parse h guests msgSz true w).2.2 = (firstContact h w).2 := by
  simp only [pveShutdownTest, Bool.not_true, Bool.false_eq_true, if_false, hst, ne_eq,
    not_false_eq_true, if_true]

/-- What the test does after the first contact, it does with the host as that left it. -/
theorem pveShutdownTest_reaches :
    Reaches (firstContact h w).1.host (firstContact h w).2
      (pveShutdownTest parse h guests msgSz true w).2.2 := by
  by_cases hst : (firstContact h w).1.result.status = 200
  · simp only [pveShutdownTest, Bool.not_true, Bool.false_eq_true, hst, ne_eq, not_true,
      ↓reduceIte]
    exact .request _ _ "/access/permissions" none respMax 80 _ _
  · rw [pveShutdownTest_ends parse h guests msgSz w hst]
    exact .refl _ _

/-- On a pinned host the test only asks. -/
theorem pveShutdownTest_pinned {h : PveHost} {w : World} (hw : Digests w.attempts)
    (hpin : h.fingerprint ≠ "") (respOk : Bool) :
    Reaches h w (pveShutdownTest parse h guests msgSz respOk w).2.2 := by
  cases respOk with
  | false => exact .refl h w
  | true =>
      have hrest := pveShutdownTest_reaches parse h guests msgSz w
      rcases firstContact_cases hw with ⟨hsame, hasked⟩ | ⟨hempty, -⟩
      · rw [hsame] at hrest
        exact hasked.trans hrest
      · exact absurd hempty hpin

/-- **The test keeps the law**: it asks on the host as it was, or this is a first use. -/
theorem pveShutdownTest_trustLaw {w : World} (hw : Digests w.attempts) (respOk : Bool) :
    ∃ cs, TrustLaw (.test guests msgSz respOk) (h, w)
      (perform parse (.test guests msgSz respOk) (h, w)) cs := by
  cases respOk with
  | false => exact (Reaches.refl h w).trustLaw _
  | true =>
      have hrest := pveShutdownTest_reaches parse h guests msgSz w
      have hhost := pveShutdownTest_host parse h guests msgSz w
      change ∃ cs, TrustLaw _ (h, w) ((pveShutdownTest parse h guests msgSz true w).1,
        (pveShutdownTest parse h guests msgSz true w).2.2) cs
      rw [hhost]
      rcases firstContact_cases hw with ⟨hsame, hasked⟩ |
        ⟨hpin, d, answer, w₁, hnew, h1, h2, hother⟩
      · rw [hsame] at hrest ⊢
        exact (hasked.trans hrest).trustLaw _
      · obtain ⟨cs, hcs⟩ := hrest
        have hafter := h2.trans hcs
        have hall := h1.account.trans hafter.account
        refine ⟨_, hall, .inr ⟨rfl, hpin, d, answer, w₁, _, cs, rfl, h1, hnew, hafter, ?_, ?_⟩⟩
        · intro k hk
          rw [hafter.pin k hk, hnew]
        · -- the second connection shows another certificate: the test ends there, unheard
          intro d' answer' ha' hne
          obtain ⟨hst, hnone⟩ := hother d' answer' ha' hne
          have hend := pveShutdownTest_ends parse h guests msgSz w (by rw [hst]; decide)
          show (pveShutdownTest parse h guests msgSz true w).2.2.sent = w.sent
          rw [hend, (h1.account.trans h2.account).sent]
          simp [hnone]

end Test

@[simp] theorem withHost_hosts (cfg : PveConfig) (i : HostIx) (h : PveHost) :
    (cfg.withHost i h).hosts i = h := by
  simp [PveConfig.withHost]

theorem selftestDue_pinned {cfg : PveConfig} {i : HostIx} {look : SelftestLook}
    (hdue : selftestDue cfg i look = true) : (cfg.hosts i).fingerprint ≠ "" := by
  simp only [selftestDue, Bool.and_eq_true, bne_iff_ne] at hdue
  exact hdue.1.1.2

/-- **The self-test only asks**: it never sees a host without a pin. -/
theorem selftestSlot_reaches (parse : String → Option Json) (cfg : PveConfig) (guests : GuestLists)
    (i : HostIx) (look : SelftestLook) (copyOk respOk : Bool) {w : World}
    (hw : Digests w.attempts) :
    Reaches (cfg.hosts i) w (selftestSlot parse cfg guests i look copyOk respOk w) := by
  unfold selftestSlot
  split
  next hdue =>
    exact (pveShutdownTest_pinned parse _ 200 hw (selftestDue_pinned hdue) respOk).note _
  next => exact .refl _ w

/-- **Every call keeps the law.** -/
theorem perform_trustLaw (parse : String → Option Json) (c : ApiCall) (h : PveHost) {w : World}
    (hw : Digests w.attempts) : ∃ cs, TrustLaw c (h, w) (perform parse c (h, w)) cs := by
  cases c with
  | test guests msgSz respOk => exact pveShutdownTest_trustLaw parse h guests msgSz hw respOk
  | listGuests jsonSz errSz qemuOk lxcOk err =>
      exact (pveShutdownListGuests_reaches parse h jsonSz errSz qemuOk lxcOk err w).trustLaw _
  | selftest i cfg guests look copyOk respOk =>
      have htest := selftestSlot_reaches parse (cfg.withHost i h) guests i look copyOk respOk hw
      rw [withHost_hosts] at htest
      exact htest.trustLaw _
  | worker i cfg nodePending batch nodeReason =>
      have hrun := runHost_reaches i (cfg.withHost i h) nodePending batch nodeReason w
      rw [withHost_hosts] at hrun
      exact hrun.trustLaw _

/-- What is left of the attempts after a sequence is still made of SHA-256 digests. -/
theorem performAll_digests (parse : String → Option Json) (calls : List ApiCall)
    {s : PveHost × World} (hs : Digests s.2.attempts) :
    Digests (performAll parse calls s).2.attempts := by
  induction calls generalizing s with
  | nil => exact hs
  | cons c calls ih =>
      obtain ⟨cs, hlaw⟩ := perform_trustLaw parse c s.1 hs
      refine ih fun d answer hd => hs d answer ?_
      rw [hlaw.account.left] at hd
      exact List.mem_of_mem_drop hd

/-- Once there is a fingerprint, no call changes it. -/
theorem performAll_pinned (parse : String → Option Json) (calls : List ApiCall)
    {s : PveHost × World} (hs : Digests s.2.attempts) (hpin : s.1.fingerprint ≠ "") :
    (performAll parse calls s).1 = s.1 := by
  induction calls generalizing s with
  | nil => rfl
  | cons c calls ih =>
      obtain ⟨cs, hlaw⟩ := perform_trustLaw parse c s.1 hs
      have hleft := performAll_digests parse [c] hs
      rcases hlaw.pin with ⟨hsame, -⟩ | ⟨-, hempty, -⟩
      · have hsame : (perform parse c s).1 = s.1 := hsame
        have := ih (s := perform parse c s) hleft (by rw [hsame]; exact hpin)
        exact this.trans hsame
      · exact absurd hempty hpin

/-- The other side: for each connection to come, what happens on it. -/
structure Adversary where
  attempts : List TlsAttempt
  digests : Digests attempts

/-- Nothing opened, nothing sent yet. -/
def Adversary.world (A : Adversary) : World := ⟨A.attempts, [], [], []⟩

/-- **Trust on first use**, for every host, every adversary and every sequence of calls: whatever
    was called before, the next call keeps the law. -/
theorem trustOnFirstUse (parse : String → Option Json) (A : Adversary) (h : PveHost)
    (before : List ApiCall) (c : ApiCall) :
    let s := performAll parse before (h, A.world)
    ∃ cs, TrustLaw c s (perform parse c s) cs := by
  intro s
  have hs : Digests s.2.attempts :=
    performAll_digests parse before (s := (h, A.world)) A.digests
  exact perform_trustLaw parse c s.1 hs

end NutBluetti.Pve
