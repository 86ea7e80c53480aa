/-
  File:      NutBluetti/Pve/Shutdown.lean
  Subject:   THE SENDING HALF (pve_shutdown.c): one pinned HTTPS request, the shutdown of a guest
             and of a node, and `run_host`.

  The network and mbedTLS are not in the repository: what they do with one connection is a
  `TlsAttempt`, chosen by the environment, and the code here is what `tls_request` makes of it.
  A run of requests consumes a list of attempts in order; past its end nothing answers.

  * `tlsRequest` -- handshake, pin, and only then the request;
  * `shutdownGuest`, `shutdownNode`, `runHost` -- the sequence;
  * **`runHost_sent`** -- what `run_host` checks of the configuration before anything is written to
    a server;
  * **`runHost_accepted`** -- the requests of a pass that the server accepts.
-/
import NutBluetti.Pve.Engine

namespace NutBluetti.Pve

open CText

def nodeAttempts : Nat := 3

/-! ## 1. One request -/

/-- `split_url`: host and port of "https://host[:port]", in buffers of `hsz` and `psz` bytes. -/
def splitUrl (url : String) (hsz psz : Nat) : Option (String × String) :=
  let p := url.toList
  if !"https://".toList.isPrefixOf p then none
  else
    let p := p.drop 8
    let host := p.takeWhile fun c => c != ':' && c != '/'
    if host.length = 0 ∨ host.length ≥ hsz then none
    else
      match p.drop host.length with
      | ':' :: p =>
          let port := p.takeWhile fun c => c != '/'
          if port.length = 0 ∨ port.length ≥ psz then none
          else some (String.ofList host, String.ofList port)
      | _ => some (String.ofList host, fit psz "8006")

/-- What the server does with a request it was sent. -/
inductive TlsAnswer where
  | writeFailed (rc : Nat)
  | outOfMemory
  | readFailed (rc : Nat)
  /-- A reply, with its status if its first line is one of HTTP, and what follows the headers. -/
  | reply (status : Option Int) (body : String)

/-- What happens to one connection, up to where it fails. -/
inductive TlsAttempt where
  | rngFailed (rc : Nat)
  | connectFailed (rc : Nat)
  | configFailed (rc : Nat)
  | setupFailed (rc : Nat)
  | handshakeFailed (rc : Nat)
  | noCertificate
  /-- The handshake completes with a certificate of this SHA-256, and then this answer. -/
  | certificate (digest : List UInt8) (answer : TlsAnswer)

/-- A request written to a server that showed the pinned certificate. -/
structure Request where
  host : String
  port : String
  path : String
  body : Option String
  text : String
  deriving DecidableEq

/-- `req_result_t`, with the caller's `resp` and `err` buffers as the call leaves them, and the
    request if one was written. -/
structure TlsResult where
  status : Int
  seenFp : String
  resp : String
  err : String
  sent : Option Request

/-- `%04x`. -/
def hex4 (n : Nat) : String :=
  let d := Nat.toDigits 16 n
  String.ofList (List.replicate (4 - d.length) '0' ++ d)

/-- `%02X` of one byte. -/
def hex2 (b : UInt8) : List Char :=
  [(Nat.digitChar (b.toNat / 16)).toUpper, (Nat.digitChar (b.toNat % 16)).toUpper]

/-- The digest as `tls_request` writes it. -/
def fpHex (digest : List UInt8) : String :=
  String.ofList (digest.flatMap hex2)

/-- `sizeof (req)`. -/
def reqSz : Nat := 512

/-- The text of a request, HTTP/1.0 so that the reply is never chunked. -/
def requestText (h : PveHost) (host path : String) (body : Option String) : String :=
  (if body.isSome then "POST" else "GET") ++ " /api2/json" ++ path ++ " HTTP/1.0\r\nHost: " ++
  host ++
    "\r\nAuthorization: PVEAPIToken=" ++ h.tokenId ++ "=" ++ h.secret ++
    "\r\nConnection: close\r\n" ++
    (if body.isSome then "Content-Type: application/x-www-form-urlencoded\r\n" else "") ++
    "Content-Length: " ++ toString (body.getD "").length ++ "\r\n\r\n" ++ body.getD ""

/-- **`tls_request`**: handshake, pin check, then -- only if the pin matches -- the request. With no
    fingerprint configured it stops at what it saw, with status 0. -/
def tlsRequest (h : PveHost) (path : String) (body : Option String) (respSz errSz : Nat)
    (resp err : String) (a : TlsAttempt) : TlsResult :=
  let fail (text : String) : TlsResult := ⟨-1, "", resp, fit errSz text, none⟩
  match splitUrl h.url 64 8 with
  | none => fail "URL must be https://host[:port]"
  | some (host, port) =>
    match a with
    | .rngFailed rc => fail ("rng: -0x" ++ hex4 rc)
    | .connectFailed rc =>
        fail ("connect " ++ host ++ ":" ++ port ++ " failed (-0x" ++ hex4 rc ++ ")")
    | .configFailed rc => fail ("ssl config: -0x" ++ hex4 rc)
    | .setupFailed rc => fail ("ssl setup: -0x" ++ hex4 rc)
    | .handshakeFailed rc => fail ("TLS handshake failed (-0x" ++ hex4 rc ++ ")")
    | .noCertificate => fail "server sent no certificate"
    | .certificate digest answer =>
        let seen := fpHex digest
        if h.fingerprint = "" then
          -- not pinned: report, send nothing
          ⟨0, seen, resp, err, none⟩
        else if seen ≠ h.fingerprint then
          { fail "certificate fingerprint does not match the pinned one" with seenFp := seen }
        else
          let text := requestText h host path body
          if text.length ≥ reqSz then { fail "request too long" with seenFp := seen }
          else
            let sent := some (Request.mk host port path body text)
            match answer with
            | .writeFailed rc =>
                { fail ("write failed (-0x" ++ hex4 rc ++ ")") with seenFp := seen, sent := sent }
            | .outOfMemory => { fail "out of memory" with seenFp := seen, sent := sent }
            | .readFailed rc =>
                { fail ("read failed (-0x" ++ hex4 rc ++ ")") with seenFp := seen, sent := sent }
            | .reply none _ => { fail "not an HTTP reply" with seenFp := seen, sent := sent }
            | .reply (some status) text =>
                ⟨status, seen, if respSz = 0 then resp else fit respSz text, err, sent⟩

/-- `status_text`. -/
def statusText (st : Int) : Option String :=
  if st = 401 then some "401 authentication failed (token invalid?)"
  else if st = 403 then some "403 permission denied (privilege missing?)"
  else if st = 500 then some "500 (node name wrong?)"
  else if st = 501 then some "501 (a Backup Server? only PVE is supported)"
  else none

/-- `describe`. -/
def describe (st : Int) (err : String) (sz : Nat) : String :=
  fit sz <|
    if st < 0 then (if err ≠ "" then err else "connection failed")
    else if st = 0 then "certificate not pinned"
    else match statusText st with
      | some t => t
      | none => "HTTP " ++ toString st

/-! ## 2. The sequence -/

inductive PveEventKind where
  | host
  | guest
  deriving DecidableEq, Repr

/-- A call of `note_host` or `note_guest`. -/
inductive Note where
  | host (i : HostIx) (ok : Bool) (text : String)
  | guest (i : HostIx) (id : Int) (ok : Bool) (text : String)
  deriving DecidableEq

/-- The outside of the sequence: the attempts still to come, and what went out so far -- requests,
    messages to the user, notes for the status page. -/
structure World where
  attempts : List TlsAttempt
  sent : List Request
  events : List (PveEventKind × String)
  notes : List Note

/-- The next connection; nothing answers past the end of the list. -/
def World.attempt (w : World) : TlsAttempt := w.attempts.headD (.connectFailed 0)

def World.emit (w : World) (kind : PveEventKind) (text : String) : World :=
  { w with events := w.events ++ [(kind, text)] }

def World.note (w : World) (n : Note) : World :=
  { w with notes := w.notes ++ [n] }

/-- `tls_request` on the next connection. -/
def World.request (w : World) (h : PveHost) (path : String) (body : Option String)
    (respSz errSz : Nat)
    (resp err : String) : TlsResult × World :=
  let r := tlsRequest h path body respSz errSz resp err w.attempt
  (r, { w with attempts := w.attempts.tail, sent := w.sent ++ r.sent.toList })

/-- `snprintf` of `text[240]`. -/
def fitText (s : String) : String := fit 240 s

/-- The loop of `shutdown_guest` over the two kinds: status and error text of the last request. -/
def guestKinds (h : PveHost) (id : Int) : List String → Int × String → World →
    (Int × String) × World
  | [], last, w => (last, w)
  | kind :: kinds, last, w =>
      let path := fit 96 ("/nodes/" ++ h.node ++ "/" ++ kind ++ "/" ++ toString id ++
        "/status/shutdown")
      let (r, w) := w.request h path (some "") 0 64 "" last.2
      if r.status = 200 ∨ r.status ≤ 0 ∨ r.status = 401 ∨ r.status = 403 then
        -- done, or not a "wrong kind" answer
        ((r.status, r.err), w)
      else guestKinds h id kinds (r.status, r.err) w

/-- `shutdown_guest`: qemu, then lxc; whichever the id is, the other answers 500. On failure,
    why. -/
def shutdownGuest (h : PveHost) (id : Int) (wsz : Nat) (w : World) : Option String × World :=
  let ((status, err), w) := guestKinds h id ["qemu", "lxc"] (-1, "") w
  if status = 200 then (none, w)
  else (some (fit wsz ("guest " ++ toString id ++ ": " ++ describe status err 80)), w)

/-- The inner loop of `shutdown_node`, over the names of the node. -/
def nodeNames (h : PveHost) : List String → Int × String → World → (Int × String) × World
  | [], last, w => (last, w)
  | name :: names, last, w =>
      let path := fit 64 ("/nodes/" ++ name ++ "/status")
      let (r, w) := w.request h path (some "command=shutdown") 0 64 "" last.2
      if r.status = 200 ∨ r.status ≤ 0 then
        -- done, or no point trying the other name
        ((r.status, r.err), w)
      else nodeNames h names (r.status, r.err) w

/-- The outer loop of `shutdown_node`, over the attempts left. -/
def nodeTries (h : PveHost) : Nat → Int × String → World → (Int × String) × World
  | 0, last, w => (last, w)
  | n + 1, last, w =>
      let names := if h.node = "localhost" then [h.node] else [h.node, "localhost"]
      let (last, w) := nodeNames h names last w
      if last.1 = 200 then (last, w) else nodeTries h n last w

/-- `shutdown_node`. On failure, why. -/
def shutdownNode (h : PveHost) (wsz : Nat) (w : World) : Option String × World :=
  let ((status, err), w) := nodeTries h nodeAttempts (-1, "") w
  if status = 200 then (none, w)
  else (some (fit wsz ("node: " ++ describe status err 80)), w)

/-- `pending_guest_t`. -/
structure PendingGuest where
  host : HostIx
  id : Int
  reason : String
  deriving DecidableEq

/-- One guest of the batch in a dry run. -/
def dryRunGuest (i : HostIx) (h : PveHost) (w : World) (g : PendingGuest) : World :=
  (w.emit .guest
    (fitText ("DRY RUN \xE2\x80\x94 would shut down guest " ++ toString g.id ++ " on " ++
    h.node ++ " (" ++ g.reason ++ ")"))).note (.guest i g.id true "dry run: would shut down")

/-- One guest of the batch of a host whose certificate is not trusted yet. -/
def untrustedGuest (i : HostIx) (w : World) (g : PendingGuest) : World :=
  w.note (.guest i g.id false "not trusted \xE2\x80\x94 skipped")

/-- One guest of the batch, for real. -/
def stopPending (i : HostIx) (h : PveHost) (w : World) (g : PendingGuest) : World :=
  match shutdownGuest h g.id 96 w with
  | (none, w) =>
      (w.note (.guest i g.id true "shutdown sent")).emit .guest
        (fitText ("\xF0\x9F\x94\xBB Shutting down guest " ++ toString g.id ++ " on " ++ h.node ++
          " (" ++ g.reason ++ ")"))
  | (some why, w) =>
      (w.note (.guest i g.id false why)).emit .guest
        (fitText ("\xE2\x9D\x8C Guest " ++ toString g.id ++ " on " ++ h.node ++
          " shutdown FAILED \xE2\x80\x94 " ++ why))

/-- The node itself, for real; with `shutdown_node` off only its guests go and the node stays up. -/
def stopNode (i : HostIx) (h : PveHost) (nodeReason : String) (w : World) : World :=
  match (if h.shutdownNode then shutdownNode h 96 w else (none, w)) with
  | (none, w) =>
      (w.note (.host i true "shutdown sent")).emit .host
        (fitText ("\xF0\x9F\x94\xBB Shutting down Proxmox " ++ h.node ++ " (" ++ nodeReason ++ ")"))
  | (some why, w) =>
      (w.note (.host i false why)).emit .host
        (fitText ("\xE2\x9D\x8C Proxmox " ++ h.node ++ " shutdown FAILED \xE2\x80\x94 " ++ why))

/-- **`run_host`**: the guests due, then, if the node itself is due, the node. -/
def runHost (i : HostIx) (cfg : PveConfig) (nodePending : Bool) (batch : List PendingGuest)
    (nodeReason : String) (w : World) : World :=
  let h := cfg.hosts i
  if !h.enabled || h.url == "" then w
  else if !cfg.armed then
    let w := batch.foldl (dryRunGuest i h) w
    if nodePending then
      (w.emit .host (fitText ("DRY RUN \xE2\x80\x94 would shut down " ++ h.node ++ " (" ++
        nodeReason ++ ")"))).note (.host i true "dry run: would shut down")
    else w
  else if h.fingerprint = "" then
    let w := if nodePending then
        (w.emit .host (fitText ("\xE2\x9D\x8C Proxmox " ++ h.node ++
          " NOT shut down: certificate not trusted yet (use Test connection on the Proxmox tab)"))).note
          (.host i false "not trusted \xE2\x80\x94 skipped")
      else w
    batch.foldl (untrustedGuest i) w
  else
    let w := batch.foldl (stopPending i h) w
    if nodePending then stopNode i h nodeReason w else w

/-! ## 3. What `run_host` checks -/

/-- The three gates `run_host` re-checks at the sending end: armed, the slot in use, pinned. -/
def RunHostGates (cfg : PveConfig) (i : HostIx) : Prop :=
  cfg.armed = true ∧ (cfg.hosts i).enabled = true ∧ (cfg.hosts i).url ≠ "" ∧
    (cfg.hosts i).fingerprint ≠ ""

instance (cfg : PveConfig) (i : HostIx) : Decidable (RunHostGates cfg i) :=
  inferInstanceAs (Decidable (_ ∧ _))

@[simp] theorem sent_emit (w : World) (k : PveEventKind) (t : String) :
    (w.emit k t).sent = w.sent := rfl

@[simp] theorem sent_note (w : World) (n : Note) : (w.note n).sent = w.sent := rfl

theorem sent_foldl {f : World → PendingGuest → World} (hf : ∀ w g, (f w g).sent = w.sent)
    (batch : List PendingGuest) (w : World) : (batch.foldl f w).sent = w.sent := by
  induction batch generalizing w with
  | nil => rfl
  | cons g batch ih => rw [List.foldl_cons, ih, hf]

/-- **Past closed gates nothing is written**: if one of the gates is closed in the configuration
    `run_host` was given, it sends no request at all. -/
theorem runHost_sent {i : HostIx} {cfg : PveConfig} (hg : ¬ RunHostGates cfg i) (nodePending : Bool)
    (batch : List PendingGuest) (nodeReason : String) (w : World) :
    (runHost i cfg nodePending batch nodeReason w).sent = w.sent := by
  unfold runHost
  by_cases hslot : (!(cfg.hosts i).enabled || (cfg.hosts i).url == "") = true
  · simp [hslot]
  simp only [hslot]
  by_cases harmed : (!cfg.armed) = true
  · have hdry := sent_foldl (f := dryRunGuest i (cfg.hosts i)) (fun _ _ => rfl) batch w
    cases nodePending <;> simp [harmed, hdry]
  simp only [harmed]
  by_cases hpin : (cfg.hosts i).fingerprint = ""
  · have hskip := fun w => sent_foldl (f := untrustedGuest i) (fun _ _ => rfl) batch w
    cases nodePending <;> simp [hpin, hskip]
  · refine absurd ⟨by simpa using harmed, ?_, ?_, hpin⟩ hg
    · cases he : (cfg.hosts i).enabled
      · simp [he] at hslot
      · rfl
    · intro hurl
      simp [hurl] at hslot

/-! ## 4. A server that accepts -/

/-- What a request with a form adds to its fields. -/
theorem requestText_length (h : PveHost) (host path body : String) :
    (requestText h host path (some body)).length =
      path.length + host.length + h.tokenId.length + h.secret.length +
        (toString body.length).length + body.length + 152 := by
  have hfixed : "POST".length + " /api2/json".length + " HTTP/1.0\r\nHost: ".length +
      "\r\nAuthorization: PVEAPIToken=".length + "=".length + "\r\nConnection: close\r\n".length +
      "Content-Type: application/x-www-form-urlencoded\r\n".length + "Content-Length: ".length +
      "\r\n\r\n".length = 152 := by
    decide
  unfold requestText
  rw [Option.isSome_some, if_pos rfl, if_pos rfl, Option.getD_some]
  simp only [String.length_append]
  omega

/-- A host whose server shows the pinned certificate, and whose requests fit the buffer of
    `tls_request`. -/
structure ShowsPin (h : PveHost) (host port : String) (digest : List UInt8) : Prop where
  url : splitUrl h.url 64 8 = some (host, port)
  pinned : h.fingerprint ≠ ""
  shown : fpHex digest = h.fingerprint
  fits : host.length + h.tokenId.length + h.secret.length ≤ 240

/-- A connection whose request is accepted. -/
def accepts (digest : List UInt8) : TlsAttempt := .certificate digest (.reply (some 200) "")

variable {h : PveHost} {host port : String} {digest : List UInt8}

/-- The requests from `w` to `w'` were all accepted, one connection each, and `n` more will be. -/
structure AllAccepted (digest : List UInt8) (n : Nat) (w : World) (paths : List String)
    (w' : World) :
    Prop where
  left : w'.attempts = List.replicate n (accepts digest)
  sent : w'.sent.map Request.path = w.sent.map Request.path ++ paths

theorem AllAccepted.trans {n m : Nat} {w w₁ w' : World} {ps qs : List String}
    (h1 : AllAccepted digest n w ps w₁) (h2 : AllAccepted digest m w₁ qs w') :
    AllAccepted digest m w (ps ++ qs) w' :=
  ⟨h2.left, by rw [h2.sent, h1.sent, List.append_assoc]⟩

/-- The request fits the buffer. -/
theorem requestText_fits (hh : ShowsPin h host port digest) {path body : String}
    (hpath : path.length < 96) (hbody : body.length ≤ 16) :
    (requestText h host path (some body)).length < reqSz := by
  have hdigits : ∀ n < 17, (toString n).length ≤ 2 := by decide
  have hn := hdigits body.length (by omega)
  have hroom := hh.fits
  rw [requestText_length]
  unfold reqSz
  omega

/-- What a request comes to that is sent and gets a reply. -/
theorem request_reply (hh : ShowsPin h host port digest) {w : World} {st : Int} {text : String}
    (ha : w.attempt = .certificate digest (.reply (some st) text)) {path body : String}
    (hpath : path.length < 96) (hbody : body.length ≤ 16) (errSz : Nat) (resp err : String) :
    (w.request h path (some body) 0 errSz resp err).1.status = st ∧
      (w.request h path (some body) 0 errSz resp err).1.sent =
        some ⟨host, port, path, some body, requestText h host path (some body)⟩ := by
  have hfit := Nat.not_le.mpr (requestText_fits hh hpath hbody)
  unfold World.request
  rw [ha]
  simp [tlsRequest, hh.url, hh.pinned, hh.shown, hfit]

theorem request_accepted (hh : ShowsPin h host port digest) {w : World} {n : Nat}
    (hw : w.attempts = List.replicate (n + 1) (accepts digest)) (path body : String)
    (hpath : path.length < 96) (hbody : body.length ≤ 16) (errSz : Nat) (resp err : String) :
    (w.request h path (some body) 0 errSz resp err).1.status = 200 ∧
      AllAccepted digest n w [path] (w.request h path (some body) 0 errSz resp err).2 := by
  have hnext : w.attempt = accepts digest := by simp [World.attempt, hw, List.replicate_succ]
  obtain ⟨hst, hsent⟩ := request_reply hh hnext hpath hbody errSz resp err
  refine ⟨hst, by simp [World.request, hw], ?_⟩
  show (w.sent ++ (w.request h path (some body) 0 errSz resp err).1.sent.toList).map _ = _
  rw [hsent, List.map_append]
  rfl

/-- The path of the first request about a guest. -/
def guestPath (h : PveHost) (id : Int) : String :=
  fit 96 ("/nodes/" ++ h.node ++ "/" ++ "qemu" ++ "/" ++ toString id ++ "/status/shutdown")

/-- The path of the first request about the node. -/
def nodePath (h : PveHost) : String :=
  fit 64 ("/nodes/" ++ h.node ++ "/status")

theorem shutdownGuest_done {w : World} {id : Int} (wsz : Nat)
    (hok : (w.request h (guestPath h id) (some "") 0 64 "" "").1.status = 200) :
    shutdownGuest h id wsz w = (none, (w.request h (guestPath h id) (some "") 0 64 "" "").2) := by
  unfold guestPath at hok ⊢
  unfold shutdownGuest guestKinds
  simp only [hok, true_or, if_true]

theorem stopPending_accepted (hh : ShowsPin h host port digest) {w : World} {n : Nat}
    (hw : w.attempts = List.replicate (n + 1) (accepts digest)) (i : HostIx) (g : PendingGuest) :
    AllAccepted digest n w [guestPath h g.id] (stopPending i h w g) := by
  obtain ⟨hok, hreq⟩ := request_accepted hh hw (guestPath h g.id) "" (fit_length_lt (by decide) _)
    (by decide) 64 "" ""
  unfold stopPending
  rw [shutdownGuest_done 96 hok]
  exact ⟨hreq.left, hreq.sent⟩

theorem batch_accepted (hh : ShowsPin h host port digest) (i : HostIx) {n : Nat}
    (batch : List PendingGuest) {w : World}
    (hw : w.attempts = List.replicate (batch.length + n) (accepts digest)) :
    AllAccepted digest n w ((batch.map PendingGuest.id).map (guestPath h))
      (batch.foldl (stopPending i h) w) := by
  induction batch generalizing w with
  | nil => exact ⟨by simpa using hw, by simp⟩
  | cons g batch ih =>
      rw [List.length_cons, Nat.add_right_comm] at hw
      have h1 := stopPending_accepted hh hw i g
      exact h1.trans (ih h1.left)

theorem shutdownNode_done {w : World} (wsz : Nat)
    (hok : (w.request h (nodePath h) (some "command=shutdown") 0 64 "" "").1.status = 200) :
    shutdownNode h wsz w =
      (none, (w.request h (nodePath h) (some "command=shutdown") 0 64 "" "").2) := by
  have hnames : ∀ names, nodeNames h (h.node :: names) (-1, "") w =
      ((200, (w.request h (nodePath h) (some "command=shutdown") 0 64 "" "").1.err),
        (w.request h (nodePath h) (some "command=shutdown") 0 64 "" "").2) := by
    intro names
    unfold nodePath at hok ⊢
    unfold nodeNames
    simp only [hok, true_or, if_true]
  unfold shutdownNode nodeAttempts nodeTries
  by_cases hl : h.node = "localhost"
  · simp only [if_pos hl, hnames, if_true]
  · simp only [if_neg hl, hnames, if_true]

theorem stopNode_accepted (hh : ShowsPin h host port digest) (hnode : h.shutdownNode = true)
    {w : World} {n : Nat} (hw : w.attempts = List.replicate (n + 1) (accepts digest)) (i : HostIx)
    (reason : String) : AllAccepted digest n w [nodePath h] (stopNode i h reason w) := by
  have hlen : (nodePath h).length < 96 :=
    Nat.lt_of_lt_of_le (fit_length_lt (by decide) _) (by decide)
  obtain ⟨hok, hreq⟩ := request_accepted hh hw (nodePath h) "command=shutdown" hlen (by decide) 64
    "" ""
  unfold stopNode
  rw [if_pos hnode, shutdownNode_done 96 hok]
  exact ⟨hreq.left, hreq.sent⟩

/-- **A pass that is accepted** shuts down every guest of the batch, in the order it was queued, and
    then the node: one request each. -/
theorem runHost_accepted {i : HostIx} {cfg : PveConfig} (hg : RunHostGates cfg i)
    (hh : ShowsPin (cfg.hosts i) host port digest) (hnode : (cfg.hosts i).shutdownNode = true)
    {batch : List PendingGuest} {w : World}
    (hw : w.attempts = List.replicate (batch.length + 1) (accepts digest)) (reason : String) :
    AllAccepted digest 0 w
      ((batch.map PendingGuest.id).map (guestPath (cfg.hosts i)) ++ [nodePath (cfg.hosts i)])
      (runHost i cfg true batch reason w) := by
  obtain ⟨harmed, hslot, hurl, hpin⟩ := hg
  have hrun : runHost i cfg true batch reason w =
      stopNode i (cfg.hosts i) reason (batch.foldl (stopPending i (cfg.hosts i)) w) := by
    simp [runHost, harmed, hslot, hurl, hpin]
  have hbatch := batch_accepted hh i batch hw
  rw [hrun]
  exact hbatch.trans (stopNode_accepted hh hnode hbatch.left i reason)

end NutBluetti.Pve
