/-
  File:      NutBluetti/Pve/Transient.lean
  Subject:   SHUTDOWN REQUESTS AND FAULTS THAT PASS (pve_shutdown.c): a server that does not answer
             at once. `shutdown_node` asks again; `shutdown_guest` asks each kind once.

  * `Answers` -- the connections of a call: the lost, the busy, and those answered as Proxmox
    answers;
  * `Served.step` -- one request of a call, and what is left of it;
  * `nodeNames_served` -- a try of `shutdown_node` that fails has met a fault, and so
    **`shutdownNode_survives`**;
  * `shutdownGuest_iff` -- which faults `shutdown_guest` does not survive;
  * **`shutdowns_survive_iff`** -- both.
-/
import NutBluetti.Pve.SendGates
import NutBluetti.Pve.Trust

namespace NutBluetti.Pve

open CText

/-! ## 1. A server with faults -/

/-- No connection, and a busy server. -/
def Lost (a : TlsAttempt) : Prop := ∃ rc, a = .connectFailed rc

def Busy (a : TlsAttempt) : Prop := ∃ digest body, a = .certificate digest (.reply (some 503) body)

/-- A fault that passes. -/
def Fault (a : TlsAttempt) : Prop := Lost a ∨ Busy a

/-- `Answers status digest n as rs`: on the connections `as`, over which the requests `rs` were
    written, there were `n` faults, and on every other the request was answered by its path. -/
inductive Answers (status : String → Int) (digest : List UInt8) :
    Nat → List TlsAttempt → List Request → Prop where
  | done : Answers status digest 0 [] []
  | lost {n : Nat} {as : List TlsAttempt} {rs : List Request} (rc : Nat)
      (rest : Answers status digest n as rs) :
      Answers status digest (n + 1) (.connectFailed rc :: as) rs
  | busy {n : Nat} {as : List TlsAttempt} {rs : List Request} (body : String) (r : Request)
      (rest : Answers status digest n as rs) :
      Answers status digest (n + 1) (.certificate digest (.reply (some 503) body) :: as) (r :: rs)
  | answered {n : Nat} {as : List TlsAttempt} {rs : List Request} (body : String) (r : Request)
      (rest : Answers status digest n as rs) :
      Answers status digest n
        (.certificate digest (.reply (some (status r.path)) body) :: as) (r :: rs)

/-- The connections a call used, and the requests it wrote. -/
def World.used (w w' : World) : List TlsAttempt :=
  w.attempts.take (w.attempts.length - w'.attempts.length)

def World.written (w w' : World) : List Request := w'.sent.drop w.sent.length

/-- From `w` to `w'` there were `n` faults, and all else was answered. -/
abbrev Served (status : String → Int) (digest : List UInt8) (n : Nat) (w w' : World) : Prop :=
  Answers status digest n (w.used w') (w.written w')

/-- The paths of `shutdown_node` and of `shutdown_guest`. -/
def nodeStatusPath (name : String) : String := "/nodes/" ++ name ++ "/status"

def guestKindPath (h : PveHost) (kind : String) (id : Int) : String :=
  "/nodes/" ++ h.node ++ "/" ++ kind ++ "/" ++ toString id ++ "/status/shutdown"

/-- What a guest is. -/
inductive GuestKind where
  | vm
  | container
  deriving DecidableEq, Repr

/-- `KIND`, and the other one. -/
def GuestKind.name : GuestKind → String
  | .vm => "qemu"
  | .container => "lxc"

def GuestKind.other : GuestKind → GuestKind
  | .vm => .container
  | .container => .vm

/-- How Proxmox answers the paths of a host and of one of its guests: 200 for the right ones, 500
    for the guest as what it is not. The name of the node may be misspelled; "localhost" never
    is. -/
structure AnswersAsProxmox (status : String → Int) (h : PveHost) (id : Int) (kind : GuestKind) :
    Prop
    where
  localhost : status (nodeStatusPath "localhost") = 200
  node : 0 < status (nodeStatusPath h.node)
  right : status (guestKindPath h kind.name id) = 200
  wrong : status (guestKindPath h kind.other.name id) = 500

/-- A host of the configuration (`token_id[64]`, `secret[40]`, `node[32]`) whose server shows the
    pinned certificate. -/
structure PinnedHost (h : PveHost) (host port : String) (digest : List UInt8) : Prop where
  url : splitUrl h.url 64 8 = some (host, port)
  pinned : h.fingerprint ≠ ""
  shown : fpHex digest = h.fingerprint
  tokenId : h.tokenId.length < 64
  secret : h.secret.length < 40
  node : h.node.length < 32

variable {status : String → Int} {digest : List UInt8} {h : PveHost} {host port : String}

theorem splitUrl_host_length {url : String} {hsz psz : Nat}
    (h : splitUrl url hsz psz = some (host, port)) : host.length < hsz := by
  unfold splitUrl at h
  dsimp only at h
  split at h
  · cases h
  split at h
  · cases h
  rename_i hlen
  have hshort := Nat.not_le.mp fun hle => hlen (.inr hle)
  split at h
  · split at h
    · cases h
    · obtain ⟨rfl, -⟩ := Prod.mk.inj (Option.some.inj h)
      rw [String.length_ofList]
      exact hshort
  · obtain ⟨rfl, -⟩ := Prod.mk.inj (Option.some.inj h)
    rw [String.length_ofList]
    exact hshort

theorem PinnedHost.showsPin (hh : PinnedHost h host port digest) : ShowsPin h host port digest := by
  refine ⟨hh.url, hh.pinned, hh.shown, ?_⟩
  have h1 := splitUrl_host_length hh.url
  have h2 := hh.tokenId
  have h3 := hh.secret
  omega

theorem nodeStatusPath_short {name : String} (hn : name.length < 32) :
    (nodeStatusPath name).length < 64 := by
  have hfixed : "/nodes/".length = 7 ∧ "/status".length = 7 := by decide
  unfold nodeStatusPath
  rw [String.length_append, String.length_append]
  omega

/-! ## 2. One request of a call -/

/-- What was used and written, after one request and from there to the end. -/
theorem used_written_cons {w w₁ w' : World} {a : TlsAttempt} {rs : List Request}
    (ha : w.attempts = a :: w₁.attempts) (hs : w₁.sent = w.sent ++ rs) (hr : Reaches h w₁ w') :
    w.used w' = a :: w₁.used w' ∧ w.written w' = rs ++ w₁.written w' := by
  obtain ⟨cs, hr⟩ := hr
  have hleft := hr.account.left
  have hsent := hr.account.sent
  have hlen : w'.attempts.length ≤ w₁.attempts.length := by
    rw [hleft, List.length_drop]
    omega
  unfold World.used World.written
  constructor
  · rw [ha, List.length_cons, Nat.succ_sub hlen, List.take_succ_cons]
  · rw [hsent, List.drop_left, hs, List.append_assoc, List.drop_left]

/-- How one request of a call went, and the faults before and after it: the connection was lost, or
    the server busy, or it answered. -/
inductive Went (status : String → Int) (digest : List UInt8) (path : String) (a : TlsAttempt)
    (st : Int)
    (n m : Nat) : Prop where
  | lost (rc : Nat) (ha : a = .connectFailed rc) (hst : st = -1) (hn : n = m + 1)
  | busy (body : String) (ha : a = .certificate digest (.reply (some 503) body)) (hst : st = 503)
      (hn : n = m + 1)
  | answered (body : String) (ha : a = .certificate digest (.reply (some (status path)) body))
      (hst : st = status path) (hn : n = m)

/-- A lost connection. -/
theorem request_lost (hh : ShowsPin h host port digest) {w : World} {rc : Nat}
    (ha : w.attempt = .connectFailed rc) (path body : String) (errSz : Nat) (resp err : String) :
    (w.request h path (some body) 0 errSz resp err).1.status = -1 ∧
      (w.request h path (some body) 0 errSz resp err).1.sent = none := by
  unfold World.request
  rw [ha]
  simp [tlsRequest, hh.url]

/-- **One request**, and the faults that are left for the rest of the call. -/
theorem Served.step (hh : PinnedHost h host port digest) {w w' : World} {n : Nat}
    {path body err : String}
    (hpath : path.length < 96) (hbody : body.length ≤ 16) (hne : w.attempts ≠ [])
    (hr : Reaches h (w.request h path (some body) 0 64 "" err).2 w')
    (hserved : Served status digest n w w') :
    ∃ m, Went status digest path w.attempt (w.request h path (some body) 0 64 "" err).1.status n m ∧
      Served status digest m (w.request h path (some body) 0 64 "" err).2 w' := by
  obtain ⟨a, rest, ha⟩ := List.exists_cons_of_ne_nil hne
  have hnext : w.attempt = a := by rw [World.attempt, ha, List.headD_cons]
  have hrest : w.attempts = a :: (w.request h path (some body) 0 64 "" err).2.attempts := by
    rw [ha]
    show a :: rest = a :: w.attempts.tail
    rw [ha, List.tail_cons]
  have hsent : (w.request h path (some body) 0 64 "" err).2.sent =
      w.sent ++ (w.request h path (some body) 0 64 "" err).1.sent.toList := rfl
  have hshows := hh.showsPin
  obtain ⟨hused, hwritten⟩ := used_written_cons hrest hsent hr
  rw [Served, hused, hwritten] at hserved
  generalize hws : (w.request h path (some body) 0 64 "" err).1.sent.toList ++ _ = ws at hserved
  cases hserved with
  | lost rc hanswers =>
      obtain ⟨hst, hnone⟩ := request_lost hshows hnext path body 64 "" err
      rw [hnone, Option.toList_none, List.nil_append] at hws
      exact ⟨_, .lost rc hnext hst rfl, by rw [Served, hws]; exact hanswers⟩
  | busy text r hanswers =>
      obtain ⟨hst, hone⟩ := request_reply hshows hnext hpath hbody 64 "" err
      rw [hone, Option.toList_some, List.singleton_append] at hws
      obtain ⟨-, rfl⟩ := List.cons.inj hws
      exact ⟨_, .busy text hnext hst rfl, hanswers⟩
  | answered text r hanswers =>
      obtain ⟨hst, hone⟩ := request_reply hshows hnext hpath hbody 64 "" err
      rw [hone, Option.toList_some, List.singleton_append] at hws
      obtain ⟨rfl, rfl⟩ := List.cons.inj hws
      exact ⟨_, .answered text hnext hst rfl, hanswers⟩

/-! ## 3. The node -/

/-- The request to the node under one of its names. -/
def askNode (h : PveHost) (name err : String) (w : World) : TlsResult × World :=
  w.request h (fit 64 (nodeStatusPath name)) (some "command=shutdown") 0 64 "" err

theorem nodeNames_cons (name : String) (names : List String) (last : Int × String) (w : World) :
    nodeNames h (name :: names) last w =
      if (askNode h name last.2 w).1.status = 200 ∨ (askNode h name last.2 w).1.status ≤ 0 then
        (((askNode h name last.2 w).1.status, (askNode h name last.2 w).1.err),
          (askNode h name last.2 w).2)
      else nodeNames h names ((askNode h name last.2 w).1.status, (askNode h name last.2 w).1.err)
        (askNode h name last.2 w).2 := rfl

theorem askNode_attempts (name err : String) (w : World) :
    (askNode h name err w).2.attempts = w.attempts.tail := rfl

theorem nodeNames_attempts (names : List String) (last : Int × String) (w : World) :
    w.attempts.length ≤ (nodeNames h names last w).2.attempts.length + names.length := by
  induction names generalizing last w with
  | nil => exact Nat.le_refl _
  | cons name names ih =>
      have hone : w.attempts.length ≤ (askNode h name last.2 w).2.attempts.length + 1 := by
        rw [askNode_attempts, List.length_tail]
        omega
      rw [nodeNames_cons, List.length_cons]
      split
      · dsimp only
        omega
      · have hrest := ih ((askNode h name last.2 w).1.status, (askNode h name last.2 w).1.err)
          (askNode h name last.2 w).2
        omega

/-- The names fit their path, and are answered. -/
def Names (status : String → Int) (names : List String) : Prop :=
  ∀ name ∈ names, name.length < 32 ∧ 0 < status (nodeStatusPath name)

/-- The names `shutdown_node` asks for in one try. -/
def namesOf (h : PveHost) : List String :=
  if h.node = "localhost" then [h.node] else [h.node, "localhost"]

theorem nodeTries_succ (tries : Nat) (last : Int × String) (w : World) :
    nodeTries h (tries + 1) last w =
      if (nodeNames h (namesOf h) last w).1.1 = 200 then nodeNames h (namesOf h) last w
      else nodeTries h tries (nodeNames h (namesOf h) last w).1
        (nodeNames h (namesOf h) last w).2 := rfl

theorem length_namesOf (h : PveHost) : (namesOf h).length ≤ 2 := by
  unfold namesOf
  split <;> simp

theorem names_namesOf (hshort : h.node.length < 32) (hnode : 0 < status (nodeStatusPath h.node))
    (hlocal : status (nodeStatusPath "localhost") = 200) : Names status (namesOf h) := by
  intro name hin
  unfold namesOf at hin
  split at hin
  · exact List.mem_singleton.mp hin ▸ ⟨hshort, hnode⟩
  · rcases List.mem_pair.mp hin with rfl | rfl
    · exact ⟨hshort, hnode⟩
    · exact ⟨by decide, by omega⟩

theorem localhost_mem_namesOf (h : PveHost) : "localhost" ∈ namesOf h := by
  unfold namesOf
  split
  · rename_i heq
    exact heq ▸ List.mem_singleton_self _
  · simp

section Node

variable (hh : PinnedHost h host port digest) {names : List String} {n : Nat} {last : Int × String}
  {w w' : World}

include hh

theorem Served.name {name err : String} (hname : name.length < 32) (hne : w.attempts ≠ [])
    (hr : Reaches h (askNode h name err w).2 w') (hserved : Served status digest n w w') :
    ∃ m, Went status digest (nodeStatusPath name) w.attempt (askNode h name err w).1.status n m ∧
      Served status digest m (askNode h name err w).2 w' := by
  have hshort := nodeStatusPath_short hname
  have hpath : nodeStatusPath name = fit 64 (nodeStatusPath name) := (fit_of_length_lt hshort).symm
  have hlen : (fit 64 (nodeStatusPath name)).length < 96 :=
    Nat.lt_of_lt_of_le (fit_length_lt (by decide) _) (by decide)
  have hstep := hserved.step hh hlen (by decide) hne hr
  rw [← hpath] at hstep
  unfold askNode
  rw [← hpath]
  exact hstep

/-- **A try** that fails, with a right name among those it asks for, has met a fault. -/
theorem nodeNames_served (hnames : Names status names) (hlong : names.length ≤ w.attempts.length)
    (hr : Reaches h (nodeNames h names last w).2 w') (hserved : Served status digest n w w') :
    ∃ m ≤ n, Served status digest m (nodeNames h names last w).2 w' ∧
      ((∃ name ∈ names, status (nodeStatusPath name) = 200) →
        (nodeNames h names last w).1.1 = 200 ∨ m < n) := by
  induction names generalizing last w n with
  | nil =>
      refine ⟨n, Nat.le_refl n, hserved, ?_⟩
      rintro ⟨name, hname, -⟩
      cases hname
  | cons name names ih =>
      obtain ⟨⟨hname, hpos⟩, hrest⟩ := List.forall_mem_cons.mp hnames
      have hne : w.attempts ≠ [] := fun heq => by
        rw [heq] at hlong
        exact absurd hlong (by simp)
      have htail : names.length ≤ (askNode h name last.2 w).2.attempts.length := by
        rw [askNode_attempts, List.length_tail]
        rw [List.length_cons] at hlong
        omega
      rw [nodeNames_cons] at hr ⊢
      split at hr
      · rename_i hdone
        rw [if_pos hdone]
        obtain ⟨m, hwent, hleft⟩ := hserved.name hh hname hne hr
        cases hwent with
        | lost rc _ _ hn => exact ⟨m, by omega, hleft, fun _ => .inr (by omega)⟩
        | busy text _ _ hn => exact ⟨m, by omega, hleft, fun _ => .inr (by omega)⟩
        | answered text _ hst hn =>
            refine ⟨m, Nat.le_of_eq hn.symm, hleft, fun _ => .inl ?_⟩
            -- an answer to a request ends the try only if it is 200
            rcases hdone with hok | hno
            · exact hok
            · omega
      · rename_i hmore
        rw [if_neg hmore]
        have hgo := nodeNames_reaches h names
          ((askNode h name last.2 w).1.status, (askNode h name last.2 w).1.err)
            (askNode h name last.2 w).2
        obtain ⟨m, hwent, hleft⟩ := hserved.name hh hname hne (hgo.trans hr)
        obtain ⟨k, hkm, hend, hright⟩ := ih hrest htail hr hleft
        have hmn : m ≤ n := by cases hwent <;> omega
        refine ⟨k, Nat.le_trans hkm hmn, hend, fun ⟨right, hin, hok⟩ => ?_⟩
        rcases List.mem_cons.mp hin with rfl | hin
        · -- the right name was asked for, and the answer was not 200
          cases hwent with
          | lost rc _ hst hn => exact .inr (by omega)
          | busy text _ hst hn => exact .inr (by omega)
          | answered text _ hst hn => exact absurd (.inl (hst.trans hok)) hmore
        · rcases hright ⟨right, hin, hok⟩ with hyes | hlt
          · exact .inl hyes
          · exact .inr (by omega)

/-- **Fewer faults than tries**: one of the tries gets through. -/
theorem nodeTries_served (hnode : 0 < status (nodeStatusPath h.node))
    (hlocal : status (nodeStatusPath "localhost") = 200) (tries : Nat)
    (hlong : 2 * tries ≤ w.attempts.length) (hfew : n < tries)
    (hserved : Served status digest n w (nodeTries h tries last w).2) :
    (nodeTries h tries last w).1.1 = 200 := by
  induction tries generalizing last w n with
  | zero => exact absurd hfew (Nat.not_lt_zero n)
  | succ tries ih =>
      have hkept := nodeNames_attempts (h := h) (namesOf h) last w
      have htwo := length_namesOf h
      have hnames := names_namesOf hh.node hnode hlocal
      rw [nodeTries_succ] at hserved ⊢
      split at hserved
      · rename_i hok
        rw [if_pos hok]
        exact hok
      · rename_i hfailed
        rw [if_neg hfailed]
        have hreach := nodeTries_reaches h tries (nodeNames h (namesOf h) last w).1
          (nodeNames h (namesOf h) last w).2
        obtain ⟨m, -, hleft, htry⟩ := nodeNames_served hh hnames (by omega) hreach hserved
        rcases htry ⟨"localhost", localhost_mem_namesOf h, hlocal⟩ with hok | hlt
        · exact absurd hok hfailed
        · exact ih (by omega) (by omega) hleft

/-- **`shutdown_node` survives** `NODE_ATTEMPTS - 1` faults, wherever they fall. -/
theorem shutdownNode_survives (hnode : 0 < status (nodeStatusPath h.node))
    (hlocal : status (nodeStatusPath "localhost") = 200) {wsz : Nat}
    (hlong : 2 * nodeAttempts ≤ w.attempts.length) (hfew : n < nodeAttempts)
    (hserved : Served status digest n w (shutdownNode h wsz w).2) :
    (shutdownNode h wsz w).1 = none := by
  have hend : (shutdownNode h wsz w).2 = (nodeTries h nodeAttempts (-1, "") w).2 := by
    unfold shutdownNode
    dsimp only
    split <;> rfl
  rw [hend] at hserved
  have hok := nodeTries_served hh hnode hlocal nodeAttempts hlong hfew hserved
  unfold shutdownNode
  simp only [hok, if_true]

end Node

/-! ## 4. A guest -/

/-- The request about a guest as one kind. -/
def askGuest (h : PveHost) (id : Int) (kind err : String) (w : World) : TlsResult × World :=
  w.request h (fit 96 (guestKindPath h kind id)) (some "") 0 64 "" err

theorem guestKinds_cons (id : Int) (kind : String) (kinds : List String) (last : Int × String)
    (w : World) : guestKinds h id (kind :: kinds) last w =
      if (askGuest h id kind last.2 w).1.status = 200 ∨ (askGuest h id kind last.2 w).1.status ≤ 0 ∨
          (askGuest h id kind last.2 w).1.status = 401 ∨ (askGuest h id kind last.2 w).1.status =
          403 then
        (((askGuest h id kind last.2 w).1.status, (askGuest h id kind last.2 w).1.err),
          (askGuest h id kind last.2 w).2)
      else guestKinds h id kinds
        ((askGuest h id kind last.2 w).1.status, (askGuest h id kind last.2 w).1.err)
        (askGuest h id kind last.2 w).2 := rfl

theorem shutdownGuest_end (h : PveHost) (id : Int) (wsz : Nat) (w : World) :
    (shutdownGuest h id wsz w).2 = (guestKinds h id ["qemu", "lxc"] (-1, "") w).2 := by
  unfold shutdownGuest
  dsimp only
  split <;> rfl

theorem guestKindPath_short {kind : String} {id : Int} (hnode : h.node.length < 32)
    (hkind : kind.length ≤ 4) (hid : IsInt id) : (guestKindPath h kind id).length < 96 := by
  have hfixed : "/nodes/".length = 7 ∧ "/".length = 1 ∧ "/status/shutdown".length = 16 := by decide
  have hdigits := hid.length_toString_le
  unfold guestKindPath
  simp only [String.length_append]
  omega

/-- **The condition** on the faults: a virtual machine's one request meets none; of a container's
    two the first is not lost and the second meets none. -/
def SparesGuest (kind : GuestKind) (as : List TlsAttempt) : Prop :=
  match kind with
  | .vm => ¬ Fault (as.getD 0 (.connectFailed 0))
  | .container => ¬ Lost (as.getD 0 (.connectFailed 0)) ∧ ¬ Fault (as.getD 1 (.connectFailed 0))

section Guest

variable (hh : PinnedHost h host port digest) {n : Nat} {w w' : World} {id : Int}
    {kind err : String}

include hh

theorem Served.guest (hkind : kind.length ≤ 4) (hid : IsInt id) (hne : w.attempts ≠ [])
    (hr : Reaches h (askGuest h id kind err w).2 w') (hserved : Served status digest n w w') :
    ∃ m, Went status digest (guestKindPath h kind id) w.attempt (askGuest h id kind err w).1.status
      n m ∧
      Served status digest m (askGuest h id kind err w).2 w' := by
  have hshort := guestKindPath_short hh.node hkind hid
  unfold askGuest at hr ⊢
  rw [fit_of_length_lt hshort] at hr ⊢
  exact hserved.step hh hshort (by decide) hne hr

omit hh in
/-- A fault, or the answer. -/
theorem Went.fault_cases {path : String} {a : TlsAttempt} {st : Int} {m : Nat}
    (hw : Went status digest path a st n m) (hne : status path ≠ 503) :
    (Lost a ∧ st = -1) ∨ (¬ Lost a ∧ Busy a ∧ st = 503) ∨ (¬ Fault a ∧ st = status path) := by
  cases hw with
  | lost rc ha hst _ => exact .inl ⟨⟨rc, ha⟩, hst⟩
  | busy body ha hst _ =>
      refine .inr (.inl ⟨?_, ⟨digest, body, ha⟩, hst⟩)
      rintro ⟨rc, hrc⟩
      cases ha.symm.trans hrc
  | answered body ha hst _ =>
      refine .inr (.inr ⟨?_, hst⟩)
      rintro (⟨rc, hrc⟩ | ⟨d, text, hbusy⟩)
      · cases ha.symm.trans hrc
      · have heq := ha.symm.trans hbusy
        simp only [TlsAttempt.certificate.injEq, TlsAnswer.reply.injEq, Option.some.injEq] at heq
        exact hne heq.2.1

omit hh in
/-- The last kind that is asked for. -/
theorem guestKinds_one (kind : String) (last : Int × String) (w : World) :
    guestKinds h id [kind] last w =
      (((askGuest h id kind last.2 w).1.status, (askGuest h id kind last.2 w).1.err),
        (askGuest h id kind last.2 w).2) := by
  rw [guestKinds_cons]
  split <;> rfl

omit hh in
/-- The search ends with the first kind. -/
theorem spares_of_first {kind : GuestKind} (hS : AnswersAsProxmox status h id kind) {a : TlsAttempt}
    {more : List TlsAttempt} {st : Int} {m : Nat}
    (hwent : Went status digest (guestKindPath h "qemu" id) a st n m)
    (hdone : st = 200 ∨ st ≤ 0 ∨ st = 401 ∨ st = 403) : st = 200 ↔
    SparesGuest kind (a :: more) := by
  cases kind with
  | vm =>
      have hright : status (guestKindPath h "qemu" id) = 200 := hS.right
      rcases hwent.fault_cases (by rw [hright]; decide) with ⟨hlost, rfl⟩ | ⟨-, -, rfl⟩ | ⟨hno, rfl⟩
      · exact iff_of_false (by decide) fun hspares => hspares (.inl hlost)
      · exact absurd hdone (by decide)
      · exact iff_of_true hright hno
  | container =>
      have hwrong : status (guestKindPath h "qemu" id) = 500 := hS.wrong
      rcases hwent.fault_cases (by rw [hwrong]; decide) with ⟨hlost, rfl⟩ | ⟨-, -, rfl⟩ | ⟨-, rfl⟩
      · exact iff_of_false (by decide) fun hspares => hspares.1 hlost
      · exact absurd hdone (by decide)
      · rw [hwrong] at hdone
        exact absurd hdone (by decide)

omit hh in
/-- It goes on, and the second kind answers. -/
theorem spares_of_second {kind : GuestKind} (hS : AnswersAsProxmox status h id kind)
    {a b : TlsAttempt}
    {more : List TlsAttempt} {st st' : Int} {m m' k : Nat}
    (hwent : Went status digest (guestKindPath h "qemu" id) a st n m)
    (hmore : ¬ (st = 200 ∨ st ≤ 0 ∨ st = 401 ∨ st = 403))
    (hwent' : Went status digest (guestKindPath h "lxc" id) b st' m' k) :
    st' = 200 ↔ SparesGuest kind (a :: b :: more) := by
  cases kind with
  | vm =>
      have hright : status (guestKindPath h "qemu" id) = 200 := hS.right
      have hwrong : status (guestKindPath h "lxc" id) = 500 := hS.wrong
      -- the first request was met by a busy server, and the second asks for a container
      have hbusy : Fault a := by
        rcases hwent.fault_cases (by rw [hright]; decide) with ⟨hlost, -⟩ | ⟨-, hbusy, -⟩ | ⟨-, rfl⟩
        · exact .inl hlost
        · exact .inr hbusy
        · exact absurd (.inl hright) hmore
      have hno : st' ≠ 200 := by
        rcases hwent'.fault_cases (by rw [hwrong]; decide) with ⟨-, rfl⟩ | ⟨-, -, rfl⟩ | ⟨-, rfl⟩
        · decide
        · decide
        · rw [hwrong]
          decide
      exact iff_of_false hno fun hspares => hspares hbusy
  | container =>
      have hright : status (guestKindPath h "lxc" id) = 200 := hS.right
      have hwrong : status (guestKindPath h "qemu" id) = 500 := hS.wrong
      have hkept : ¬ Lost a := by
        rcases hwent.fault_cases (by rw [hwrong]; decide) with ⟨-, rfl⟩ | ⟨hno, -⟩ | ⟨hno, -⟩
        · exact absurd (.inr (.inl (by decide))) hmore
        · exact hno
        · exact fun hlost => hno (.inl hlost)
      rcases hwent'.fault_cases (by rw [hright]; decide) with ⟨hlost, rfl⟩ | ⟨-, hbusy, rfl⟩ |
        ⟨hno, rfl⟩
      · exact iff_of_false (by decide) fun hspares => hspares.2 (.inl hlost)
      · exact iff_of_false (by decide) fun hspares => hspares.2 (.inr hbusy)
      · exact iff_of_true hright ⟨hkept, hno⟩

/-- What the search over the kinds comes to. -/
theorem guestKinds_iff {kind : GuestKind} (hS : AnswersAsProxmox status h id kind) (hid : IsInt id)
    (hlong : 2 ≤ w.attempts.length)
    (hserved : Served status digest n w (guestKinds h id ["qemu", "lxc"] (-1, "") w).2) :
    (guestKinds h id ["qemu", "lxc"] (-1, "") w).1.1 = 200 ↔ SparesGuest kind w.attempts := by
  obtain ⟨a, b, more, hw⟩ : ∃ a b more, w.attempts = a :: b :: more := by
    match hl : w.attempts, hlong with
    | a :: b :: more, _ => exact ⟨a, b, more, rfl⟩
  have hfirst : w.attempt = a := by rw [World.attempt, hw, List.headD_cons]
  have hne : w.attempts ≠ [] := by rw [hw]; exact List.cons_ne_nil _ _
  have hnext : (askGuest h id "qemu" "" w).2.attempts = b :: more := by
    show w.attempts.tail = _
    rw [hw, List.tail_cons]
  have hsecond : (askGuest h id "qemu" "" w).2.attempt = b := by
    rw [World.attempt, hnext, List.headD_cons]
  rw [guestKinds_cons] at hserved ⊢
  split at hserved
  · rename_i hdone
    rw [if_pos hdone, hw]
    obtain ⟨m, hwent, -⟩ := hserved.guest hh (by decide) hid hne (.refl h _)
    rw [hfirst] at hwent
    exact spares_of_first hS hwent hdone
  · rename_i hmore
    rw [if_neg hmore, hw]
    dsimp only at hserved
    have hreach := guestKinds_reaches h id ["lxc"] ((askGuest h id "qemu" "" w).1.status,
      (askGuest h id "qemu" "" w).1.err) (askGuest h id "qemu" "" w).2
    obtain ⟨m, hwent, hleft⟩ := hserved.guest hh (by decide) hid hne hreach
    rw [hfirst] at hwent
    rw [guestKinds_one] at hleft ⊢
    obtain ⟨k, hwent', -⟩ :=
      hleft.guest hh (by decide) hid (by rw [hnext]; exact List.cons_ne_nil _ _)
      (.refl h _)
    rw [hsecond] at hwent'
    exact spares_of_second hS hwent hmore hwent'

/-- **Which faults `shutdown_guest` survives.** -/
theorem shutdownGuest_iff {kind : GuestKind} (hS : AnswersAsProxmox status h id kind)
    (hid : IsInt id)
    (hlong : 2 ≤ w.attempts.length) {wsz : Nat}
    (hserved : Served status digest n w (shutdownGuest h id wsz w).2) :
    (shutdownGuest h id wsz w).1 = none ↔ SparesGuest kind w.attempts := by
  rw [shutdownGuest_end] at hserved
  rw [← guestKinds_iff hh hS hid hlong hserved]
  unfold shutdownGuest
  dsimp only
  split
  · rename_i hok
    exact iff_of_true rfl hok
  · rename_i hno
    exact iff_of_false (Option.some_ne_none _) hno

end Guest

/-! ## 5. Both -/

/-- **The two senders**, and the faults that pass: there are fewer of them than `NODE_ATTEMPTS`, and
    any number in the call about the guest. Both calls succeed if and only if the guest is
    spared. -/
theorem shutdowns_survive_iff (hh : PinnedHost h host port digest) {id : Int} {kind : GuestKind}
    (hS : AnswersAsProxmox status h id kind) (hid : IsInt id) (wsz : Nat) {wn wg : World}
    {n k : Nat}
    (hwn : 2 * nodeAttempts ≤ wn.attempts.length) (hwg : 2 * nodeAttempts ≤ wg.attempts.length)
    (hn : n < nodeAttempts)
    (hnode : Served status digest n wn (shutdownNode h wsz wn).2)
    (hguest : Served status digest k wg (shutdownGuest h id wsz wg).2) :
    ((shutdownNode h wsz wn).1 = none ∧ (shutdownGuest h id wsz wg).1 = none) ↔
      SparesGuest kind wg.attempts := by
  have hfirst := shutdownNode_survives hh hS.node hS.localhost hwn hn hnode
  have hlong : 2 ≤ wg.attempts.length := Nat.le_trans (by decide) hwg
  exact (and_iff_right hfirst).trans (shutdownGuest_iff hh hS hid hlong hguest)

section Demo

variable {w w' : World} {n : Nat} {path body err text : String} {st : Int} {id : Int}

/-- A request that got a reply, put before what is served. -/
theorem Served.replied (hh : PinnedHost h host port digest)
    (ha : w.attempts.head? = some (.certificate digest (.reply (some st) text)))
    (hpath : path.length < 96) (hbody : body.length ≤ 16)
    (hr : Reaches h (w.request h path (some body) 0 64 "" err).2 w')
    (hrest : Served status digest n (w.request h path (some body) 0 64 "" err).2 w') :
    (st = 503 → Served status digest (n + 1) w w') ∧
    (st = status path → Served status digest n w w') := by
  obtain ⟨rest, ha⟩ := List.head?_eq_some_iff.mp ha
  have hnext : w.attempt = .certificate digest (.reply (some st) text) := by
    rw [World.attempt, ha, List.headD_cons]
  obtain ⟨-, hone⟩ := request_reply hh.showsPin hnext hpath hbody 64 "" err
  have hleft : w.attempts = .certificate digest (.reply (some st) text) ::
      (w.request h path (some body) 0 64 "" err).2.attempts := by
    show _ = _ :: w.attempts.tail
    rw [ha, List.tail_cons]
  have hsent : (w.request h path (some body) 0 64 "" err).2.sent =
      w.sent ++ [⟨host, port, path, some body, requestText h host path (some body)⟩] := by
    show w.sent ++ (w.request h path (some body) 0 64 "" err).1.sent.toList = _
    rw [hone]
    rfl
  obtain ⟨hused, hwritten⟩ := used_written_cons hleft hsent hr
  rw [Served, Served, hused, hwritten]
  constructor
  · intro hbusy
    rw [hbusy]
    exact .busy text _ hrest
  · intro hanswer
    rw [hanswer]
    exact .answered text ⟨host, port, path, some body, requestText h host path (some body)⟩ hrest

/-- A connection that is lost, put before what is served. -/
theorem Served.unreached (hh : PinnedHost h host port digest) {rc : Nat}
    (ha : w.attempts.head? = some (.connectFailed rc))
    (hr : Reaches h (w.request h path (some body) 0 64 "" err).2 w')
    (hrest : Served status digest n (w.request h path (some body) 0 64 "" err).2 w') :
    Served status digest (n + 1) w w' := by
  obtain ⟨rest, ha⟩ := List.head?_eq_some_iff.mp ha
  have hnext : w.attempt = .connectFailed rc := by rw [World.attempt, ha, List.headD_cons]
  obtain ⟨-, hnone⟩ := request_lost hh.showsPin hnext path body 64 "" err
  have hleft : w.attempts = .connectFailed rc ::
      (w.request h path (some body) 0 64 "" err).2.attempts := by
    show _ = _ :: w.attempts.tail
    rw [ha, List.tail_cons]
  have hsent : (w.request h path (some body) 0 64 "" err).2.sent = w.sent ++ [] := by
    show w.sent ++ (w.request h path (some body) 0 64 "" err).1.sent.toList = _
    rw [hnone]
    rfl
  obtain ⟨hused, hwritten⟩ := used_written_cons hleft hsent hr
  rw [Served, hused, hwritten]
  exact .lost rc hrest

theorem Served.refl (w : World) : Served status digest 0 w w := by
  unfold Served World.used World.written
  rw [Nat.sub_self, List.take_zero, List.drop_length]
  exact .done

/-- The node answers at once. -/
theorem shutdownNode_served (hh : PinnedHost h host port digest)
    (ha : w.attempts = List.replicate (n + 1) (accepts digest))
    (hst : status (nodePath h) = 200) (wsz : Nat) :
    Served status digest 0 w (shutdownNode h wsz w).2 := by
  have hshort : (nodePath h).length < 96 :=
    Nat.lt_of_lt_of_le (fit_length_lt (by decide) _) (by decide)
  obtain ⟨hok, -⟩ :=
    request_accepted hh.showsPin ha (nodePath h) "command=shutdown" hshort (by decide) 64 "" ""
  rw [shutdownNode_done wsz hok]
  have hfirst : w.attempts.head? = some (accepts digest) := by rw [ha]; rfl
  exact (Served.replied hh hfirst hshort (by decide) (.refl _ _) (.refl _)).2 hst.symm

/-- The server is busy, and then answers: the second request asks for a container. -/
theorem shutdownGuest_busy (hh : PinnedHost h host port digest) (hid : IsInt id)
    {rest : List TlsAttempt}
    (ha : w.attempts = .certificate digest (.reply (some 503) text) :: accepts digest :: rest)
    (hst : status (guestKindPath h "lxc" id) = 200) (wsz : Nat) :
    Served status digest 1 w (shutdownGuest h id wsz w).2 := by
  have hone := guestKindPath_short hh.node (show "qemu".length ≤ 4 by decide) hid
  have htwo := guestKindPath_short hh.node (show "lxc".length ≤ 4 by decide) hid
  have hnext : w.attempt = .certificate digest (.reply (some 503) text) := by
    rw [World.attempt, ha, List.headD_cons]
  have hempty : "".length ≤ 16 := by decide
  obtain ⟨hbusy, -⟩ := request_reply hh.showsPin hnext hone hempty 64 "" ""
  rw [shutdownGuest_end, guestKinds_cons, guestKinds_one]
  unfold askGuest
  rw [fit_of_length_lt hone, fit_of_length_lt htwo]
  dsimp only
  rw [hbusy, if_neg (by decide)]
  have hfirst : w.attempts.head? = some (.certificate digest (.reply (some 503) text)) := by
    rw [ha]; rfl
  have hthen : (w.request h (guestKindPath h "qemu" id) (some "") 0 64 "" "").2.attempts.head? =
      some (accepts digest) := by
    show w.attempts.tail.head? = _
    rw [ha]
    rfl
  refine (Served.replied hh hfirst hone hempty (.request ..) ?_).1 rfl
  exact (Served.replied hh hthen htwo hempty (.refl _ _) (.refl _)).2 hst.symm

/-- The connection is lost: there is no second request. -/
theorem shutdownGuest_lost (hh : PinnedHost h host port digest) (hid : IsInt id)
    {rest : List TlsAttempt}
    {rc : Nat} (ha : w.attempts = .connectFailed rc :: rest) (wsz : Nat) :
    Served status digest 1 w (shutdownGuest h id wsz w).2 := by
  have hone := guestKindPath_short hh.node (show "qemu".length ≤ 4 by decide) hid
  have hnext : w.attempt = .connectFailed rc := by rw [World.attempt, ha, List.headD_cons]
  obtain ⟨hlost, -⟩ := request_lost hh.showsPin hnext (guestKindPath h "qemu" id) "" 64 "" ""
  rw [shutdownGuest_end, guestKinds_cons]
  unfold askGuest
  rw [fit_of_length_lt hone]
  dsimp only
  rw [hlost, if_pos (by decide)]
  have hfirst : w.attempts.head? = some (.connectFailed rc) := by rw [ha]; rfl
  exact Served.unreached hh hfirst (.refl _ _) (.refl _)

theorem soloHost_pinned :
    PinnedHost (soloCfg.hosts 0) "10.0.0.10" "8006" (List.replicate 32 0xAB) where
  url := soloHost_showsPin.url
  pinned := soloHost_showsPin.pinned
  shown := soloHost_showsPin.shown
  tokenId := by decide
  secret := by decide
  node := by decide

/-- Proxmox, with guest 101 of the host of that kind. -/
def soloProxmox (kind : GuestKind) (path : String) : Int :=
  if path = guestKindPath (soloCfg.hosts 0) kind.other.name 101 then 500 else 200

theorem soloProxmox_answers (kind : GuestKind) :
    AnswersAsProxmox (soloProxmox kind) (soloCfg.hosts 0) 101 kind := by
  cases kind <;> exact ⟨by decide, by decide, by decide, by decide⟩

/-- A server that answers; one that is busy at first; one that is lost at first. -/
def noFault : World := ⟨List.replicate 6 (accepts (List.replicate 32 0xAB)), [], [], []⟩

def busyFirst : World :=
  ⟨.certificate (List.replicate 32 0xAB) (.reply (some 503) "") ::
    List.replicate 5 (accepts (List.replicate 32 0xAB)), [], [], []⟩

def lostFirst : World :=
  ⟨.connectFailed 1 :: List.replicate 5 (accepts (List.replicate 32 0xAB)), [], [], []⟩

theorem shutdowns_survive_busyFirst :
    ((shutdownNode (soloCfg.hosts 0) 96 noFault).1 = none ∧
      (shutdownGuest (soloCfg.hosts 0) 101 96 busyFirst).1 = none) ↔
      SparesGuest .container busyFirst.attempts :=
  shutdowns_survive_iff soloHost_pinned (soloProxmox_answers .container) ⟨by decide, by decide⟩ 96
    (by decide) (by decide) (by decide)
    (shutdownNode_served soloHost_pinned rfl (by decide) 96)
    (shutdownGuest_busy soloHost_pinned ⟨by decide, by decide⟩ rfl
      (soloProxmox_answers .container).right 96)

/-- **One lost connection**, and a virtual machine is not shut down. -/
theorem not_shutdowns_survive :
    ¬ ∀ (h : PveHost) (host port : String) (digest : List UInt8) (status : String → Int) (id : Int)
        (kind : GuestKind) (n k : Nat) (wn wg : World),
      PinnedHost h host port digest → AnswersAsProxmox status h id kind → IsInt id →
      2 * nodeAttempts ≤ wn.attempts.length → 2 * nodeAttempts ≤ wg.attempts.length →
      n < nodeAttempts → k < nodeAttempts → Served status digest n wn (shutdownNode h 96 wn).2 →
      Served status digest k wg (shutdownGuest h id 96 wg).2 →
      (shutdownNode h 96 wn).1 = none ∧ (shutdownGuest h id 96 wg).1 = none := by
  intro hall
  have hS := soloProxmox_answers .vm
  have hid : IsInt 101 := ⟨by decide, by decide⟩
  have hnode : Served (soloProxmox .vm) (List.replicate 32 0xAB) 0 noFault
      (shutdownNode (soloCfg.hosts 0) 96 noFault).2 :=
    shutdownNode_served soloHost_pinned rfl (by decide) 96
  have hguest : Served (soloProxmox .vm) (List.replicate 32 0xAB) 1 lostFirst
      (shutdownGuest (soloCfg.hosts 0) 101 96 lostFirst).2 :=
    shutdownGuest_lost soloHost_pinned hid rfl 96
  obtain ⟨-, hnone⟩ := hall _ _ _ _ _ _ .vm 0 1 noFault lostFirst soloHost_pinned hS hid (by decide)
    (by decide) (by decide) (by decide) hnode hguest
  exact (shutdownGuest_iff soloHost_pinned hS hid (by decide) hguest).mp hnone (.inl ⟨1, rfl⟩)

end Demo

end NutBluetti.Pve
