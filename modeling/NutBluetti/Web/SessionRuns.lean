/-
  File:      NutBluetti/Web/SessionRuns.lean
  Subject:   WHO IS STILL SIGNED IN, after any number of requests to the admin server.

  The sessions are in RAM: a run starts from empty slots. Besides sign-ins and sign-outs only
  `auth_ok` touches them, on the routes behind it and for the front page; the requests about updates
  do not ask it.

  * `KeepsSessions` -- the rest of every handler leaves the slots alone
    (`RouteFn.guarded_sessions`);
  * **`visit_leases`** -- what one request does to the tokens and their last uses;
  * **`reached_leases`** -- after any number of them the slots hold what the history leaves;
  * `Good` -- a token that was issued, not signed out, always used within 8 hours and never the
    stalest of four at a sign-in, all of it read off the history;
  * **`authorised_iff`** -- just those are let through, and a request about one token changes
    nothing for another, but for that eviction.
-/
import NutBluetti.Web.Credentials
import NutBluetti.Web.Routes
import NutBluetti.Web.SessionLeases

namespace NutBluetti.Web

open NutBluetti.Config

variable {κ : Type}

/-! ## 1. Handlers that leave the sessions alone -/

/-- Nothing a handler does touches `S`. -/
def KeepsSessions (h : Handler κ) : Prop := ∀ o r s, (h o r s).2.sessions = s.sessions

theorem withBody_sessions {o : Outside} {r : Request} {minLen maxLen : Nat} {heap : Bool}
    {s : Server κ}
    {k : List UInt8 → Reply × Server κ} (h : ∀ body, (k body).2.sessions = s.sessions) :
    (withBody o r minLen maxLen heap s k).2.sessions = s.sessions := by
  unfold withBody
  cases readBody o r minLen maxLen heap with
  | error reply => rfl
  | ok body => exact h body

theorem requireAuth_sessions {h : Handler κ} (hkeep : KeepsSessions h) (o : Outside) (r : Request)
    (s : Server κ) : (requireAuth h o r s).2.sessions = (authOk o r s).2.sessions := by
  unfold requireAuth
  by_cases hok : (authOk o r s).1 = true
  · simp only [hok, Bool.not_true, Bool.false_eq_true, if_false]
    exact hkeep o r _
  · simp only [Bool.eq_false_iff.mpr hok, Bool.not_false, if_true]

theorem ask_sessions {α : Type} (s : Server κ) (host : List UInt8) (n : NetCall α) :
    (s.ask host n).sessions = s.sessions := by
  unfold Server.ask
  split <;> rfl

theorem keeps_heapPage : KeepsSessions (heapPage (κ := κ)) := by
  intro o r s
  unfold heapPage
  split <;> rfl

theorem notifySendTest_sessions (o : Outside) (token chat : List UInt8) (s : Server κ) :
    (notifySendTest o token chat s).2.sessions = s.sessions := by
  unfold notifySendTest
  split
  · rfl
  · exact ask_sessions s _ _

theorem applySection_sessions (name : List UInt8) (nutBefore : Bool) (s : Server κ) :
    (applySection name nutBefore s).2.sessions = s.sessions := by
  unfold applySection
  split
  · rfl
  split
  · rfl
  split
  · dsimp only
    split <;> rfl
  · rfl

theorem keeps_hUpdateCheck : KeepsSessions (hUpdateCheck (κ := κ)) := by
  intro o r s
  unfold hUpdateCheck otaGhCheck
  by_cases hclient : o.ghClient = true
  · simp only [hclient, Bool.not_true, Bool.false_eq_true, if_false]
    rfl
  · simp only [hclient, Bool.not_false, if_true]

theorem otaGhStart_sessions (o : Outside) (version : List UInt8) (s : Server κ) :
    (otaGhStart o version s).2.sessions = s.sessions := by
  unfold otaGhStart
  split
  · rfl
  dsimp only
  split
  · rfl
  split <;> rfl

theorem keeps_hUpdateInstall : KeepsSessions (hUpdateInstall (κ := κ)) := by
  intro o r s
  unfold hUpdateInstall
  split
  · rfl
  · refine withBody_sessions fun body => ?_
    dsimp only
    split
    · rfl
    split
    · rfl
    split <;> exact otaGhStart_sessions o _ s

theorem keeps_otaUpload : KeepsSessions (otaUpload (κ := κ)) := by
  intro o r s
  unfold otaUpload
  split
  · rfl
  split
  · rfl
  split
  · rfl
  dsimp only
  split
  · rfl
  split
  · rfl
  split
  · rfl
  split
  · rfl
  split <;> rfl

/-- A handler behind the check changes the sessions as the check does. -/
theorem RouteFn.guarded_sessions {f : RouteFn} (h : f.guarded = true) (o : Outside) (r : Request)
    (s : Server κ) : (f.run o r s).2.sessions = (authOk o r s).2.sessions := by
  cases f with
  | adminRoot | login | logout | hostname | updateCheck | updateInstall | updateStatus => cases h
  | adminStatus => exact requireAuth_sessions keeps_heapPage o r s
  | adminConfig => exact requireAuth_sessions keeps_heapPage o r s
  | adminLogs =>
      unfold RouteFn.run hAdminLogs
      refine requireAuth_sessions (fun o r s => ?_) o r s
      dsimp only
      split <;> rfl
  | adminReconfigure =>
      unfold RouteFn.run hAdminReconfigure
      refine requireAuth_sessions (fun o r s => withBody_sessions fun body => ?_) o r s
      dsimp only
      split
      · rfl
      · split
        · rfl
        · exact applySection_sessions _ _ _
  | adminCredentials =>
      unfold RouteFn.run hAdminCredentials
      refine requireAuth_sessions (fun o r s => withBody_sessions fun body => ?_) o r s
      dsimp only
      split
      · rfl
      split
      · rfl
      split <;> split <;> rfl
  | notifyTest =>
      unfold RouteFn.run hNotifyTest
      refine requireAuth_sessions (fun o r s => withBody_sessions fun body => ?_) o r s
      have hsend := notifySendTest_sessions o (postedOr body "tg_token" (text s.cfg .tgToken) 64)
        (postedOr body "tg_chat" (text s.cfg .tgChat) 24) s
      dsimp only
      split
      · next heq => exact (congrArg (fun p => p.2.sessions) heq).symm.trans hsend
      · next heq => exact (congrArg (fun p => p.2.sessions) heq).symm.trans hsend
  | pveTest =>
      unfold RouteFn.run hPveTest
      refine requireAuth_sessions (fun o r s => ?_) o r s
      dsimp only
      split
      · rfl
      · exact ask_sessions s _ _
  | pveGuests =>
      unfold RouteFn.run hPveGuests
      refine requireAuth_sessions (fun o r s => ?_) o r s
      dsimp only
      split
      · rfl
      split
      · rfl
      split
      · rfl
      split <;> exact ask_sessions s _ _
  | bleScan =>
      unfold RouteFn.run hBleScan
      refine requireAuth_sessions (fun o r s => ?_) o r s
      dsimp only
      split <;> split <;> rfl
  | wifiScan =>
      unfold RouteFn.run hWifiScan
      refine requireAuth_sessions (fun o r s => ?_) o r s
      dsimp only
      split <;> rfl
  | adminReboot => exact requireAuth_sessions (fun _ _ _ => rfl) o r s
  | ledToggle =>
      unfold RouteFn.run hLedToggle
      refine requireAuth_sessions (fun o r s => withBody_sessions fun body => ?_) o r s
      dsimp only
      split
      · rfl
      · next gpio _ =>
          cases gpio <;> split <;> split <;> split <;> split <;> rfl
  | controlsGet =>
      unfold RouteFn.run hControlsGet
      refine requireAuth_sessions (fun o r s => ?_) o r s
      split <;> rfl
  | controlsEnable =>
      unfold RouteFn.run hControlsEnable
      refine requireAuth_sessions (fun o r s => withBody_sessions fun body => ?_) o r s
      dsimp only
      split <;> rfl
  | controlSet =>
      unfold RouteFn.run hControlSet
      refine requireAuth_sessions (fun o r s => withBody_sessions fun body => ?_) o r s
      dsimp only
      split
      · rfl
      split
      · rfl
      split <;> rfl
  | loglevelSet =>
      unfold RouteFn.run hLoglevelSet
      refine requireAuth_sessions (fun o r s => withBody_sessions fun body => ?_) o r s
      dsimp only
      split
      · rfl
      split <;> rfl
  | factoryReset => exact requireAuth_sessions (fun _ _ _ => rfl) o r s
  | ota => exact requireAuth_sessions keeps_otaUpload o r s

/-! ## 2. What a request does to the sessions -/

/-- The handler of a request. -/
def handlerOf (webOta : Bool) (r : Request) : Option RouteFn :=
  (findRoute (adminRoutes webOta) r).map (·.handler)

/-- `h_admin_root` asks `auth_ok` as well, and goes on without it. -/
def RouteFn.checks (f : RouteFn) : Bool := decide (f = .adminRoot) || f.guarded

/-- The token that `auth_ok` looks for in a request, if it is asked. -/
def checkedToken (webOta : Bool) (r : Request) : Option Token :=
  if (handlerOf webOta r).any RouteFn.checks then cookieToken r.cookie else none

/-- The token that a request signs out. -/
def signedOut (webOta : Bool) (r : Request) : Option Token :=
  if handlerOf webOta r = some .logout then cookieToken r.cookie else none

/-- A request signs somebody in: it is one for `h_login`, which answers "ok". -/
def SignsInAt (webOta : Bool) (s : Server κ) (e : Outside × Request) : Prop :=
  handlerOf webOta e.2 = some .login ∧ (hLogin e.1 e.2 s).1.status = .ok

instance (webOta : Bool) (s : Server κ) (e : Outside × Request) :
    Decidable (SignsInAt webOta s e) :=
  inferInstanceAs (Decidable (_ ∧ _))

/-- The server after a request. -/
def visit (webOta : Bool) (s : Server κ) (e : Outside × Request) : Server κ :=
  (serve webOta e.1 e.2 s).2

/-- The server after any number of requests, one after the other. -/
def reached (webOta : Bool) (s : Server κ) (es : List (Outside × Request)) : Server κ :=
  es.foldl (visit webOta) s

theorem readBody_status {o : Outside} {r : Request} {minLen maxLen : Nat} {heap : Bool}
    {reply : Reply}
    (h : readBody o r minLen maxLen heap = .error reply) : reply.status ≠ .ok := by
  unfold readBody at h
  split at h
  · cases h
    exact Status.noConfusion
  split at h
  · cases h
    exact Status.noConfusion
  split at h
  · cases h
    exact Status.noConfusion
  · cases h

/-- The login form answers "ok" for a session it has made, and changes nothing otherwise. -/
theorem signsIn_of_ok {o : Outside} {r : Request} {s : Server κ}
    (h : (hLogin o r s).1.status = .ok) :
    SignsIn o r s := by
  refine ⟨h, ?_⟩
  unfold hLogin withBody at h ⊢
  cases hbody : readBody o r 1 512 true with
  | error reply =>
      simp only [hbody] at h
      exact absurd h (readBody_status hbody)
  | ok body =>
      simp only [hbody] at h ⊢
      split at h
      · next hin => rw [if_pos hin]
      · cases h

theorem visit_of_none {webOta : Bool} {e : Outside × Request} (h : handlerOf webOta e.2 = none)
    (s : Server κ) : visit webOta s e = s := by
  have hroute : findRoute (adminRoutes webOta) e.2 = none := Option.map_eq_none_iff.mp h
  unfold visit serve
  rw [hroute]

theorem visit_of_some {webOta : Bool} {e : Outside × Request} {f : RouteFn}
    (h : handlerOf webOta e.2 = some f) (s : Server κ) :
    visit webOta s e = (f.run e.1 e.2 s).2 := by
  obtain ⟨rt, hroute, rfl⟩ := Option.map_eq_some_iff.mp h
  unfold visit serve
  rw [hroute]

/-! ## 3. One request -/

/-- What a request does to the leases. -/
def deed (webOta : Bool) (s : Server κ) (e : Outside × Request) : Option (Leases.Event Token Int) :=
  if SignsInAt webOta s e then some (.grant e.1.token (oustedToken s.sessions) e.1.nowUs)
  else
    match signedOut webOta e.2 with
    | some tok => some (.release tok)
    | none => (checkedToken webOta e.2).map fun tok => .check tok e.1.nowUs

/-- A request is for one handler. -/
theorem signedOut_of_signsIn {webOta : Bool} {s : Server κ} {e : Outside × Request}
    (h : SignsInAt webOta s e) : signedOut webOta e.2 = none := by
  unfold signedOut
  rw [h.1]
  rfl

theorem checkedToken_of_signsIn {webOta : Bool} {s : Server κ} {e : Outside × Request}
    (h : SignsInAt webOta s e) : checkedToken webOta e.2 = none := by
  unfold checkedToken
  rw [h.1]
  rfl

theorem checkedToken_of_signedOut {webOta : Bool} {r : Request} {tok : Token}
    (h : signedOut webOta r = some tok) : checkedToken webOta r = none := by
  unfold signedOut at h
  unfold checkedToken
  split at h
  · next hf =>
      rw [hf]
      rfl
  · cases h

theorem deed_grant_iff {webOta : Bool} {s : Server κ} {e : Outside × Request} {k : Token}
    {o : Option Token} {t : Int} : deed webOta s e = some (.grant k o t) ↔
      SignsInAt webOta s e ∧ e.1.token = k ∧ oustedToken s.sessions = o ∧ e.1.nowUs = t := by
  unfold deed
  by_cases hin : SignsInAt webOta s e
  · rw [if_pos hin, Option.some.injEq, Leases.Event.grant.injEq]
    exact (and_iff_right hin).symm
  · rw [if_neg hin]
    refine iff_of_false ?_ fun h => hin h.1
    intro h
    split at h
    · cases h
    · obtain ⟨tok, -, htok⟩ := Option.map_eq_some_iff.mp h
      cases htok

theorem deed_release_iff {webOta : Bool} {s : Server κ} {e : Outside × Request} {k : Token} :
    deed webOta s e = some (.release k) ↔ signedOut webOta e.2 = some k := by
  unfold deed
  by_cases hin : SignsInAt webOta s e
  · rw [if_pos hin, signedOut_of_signsIn hin]
    exact iff_of_false (fun h => (nomatch h)) (fun h => (nomatch h))
  · rw [if_neg hin]
    cases hout : signedOut webOta e.2 with
    | some tok => simp only [Option.some.injEq, Leases.Event.release.injEq]
    | none =>
        refine iff_of_false (fun h => ?_) (fun h => (nomatch h))
        obtain ⟨tok, -, htok⟩ := Option.map_eq_some_iff.mp h
        cases htok

theorem deed_check_iff {webOta : Bool} {s : Server κ} {e : Outside × Request} {k : Token}
    {t : Int} :
    deed webOta s e = some (.check k t) ↔ checkedToken webOta e.2 = some k ∧ e.1.nowUs = t := by
  unfold deed
  by_cases hin : SignsInAt webOta s e
  · rw [if_pos hin, checkedToken_of_signsIn hin]
    exact iff_of_false (fun h => (nomatch h)) (fun h => (nomatch h.1))
  · rw [if_neg hin]
    cases hout : signedOut webOta e.2 with
    | some tok =>
        rw [checkedToken_of_signedOut hout]
        exact iff_of_false (fun h => (nomatch h)) (fun h => (nomatch h.1))
    | none =>
        simp only [Option.map_eq_some_iff, Leases.Event.check.injEq]
        constructor
        · rintro ⟨tok, htok, rfl, ht⟩
          exact ⟨htok, ht⟩
        · rintro ⟨htok, ht⟩
          exact ⟨k, htok, rfl, ht⟩

/-- With a password set, `auth_ok` is the look at the slots. -/
theorem authOk_some {o : Outside} {r : Request} {s : Server κ} {tok : Token}
    (hset : flag s.cfg .authSet = true) (htok : cookieToken r.cookie = some tok) :
    authOk o r s = ((authSlot s.sessions tok o.nowUs).1,
      { s with sessions := (authSlot s.sessions tok o.nowUs).2 }) := by
  unfold authOk
  rw [hset, htok]
  rfl

theorem authOk_noToken {o : Outside} {r : Request} (h : cookieToken r.cookie = none)
    (s : Server κ) :
    (authOk o r s).2.sessions = s.sessions := congrArg Server.sessions (authOk_none h s)

/-- The sessions after a request that asks `auth_ok`. -/
theorem visit_sessions_of_checks {webOta : Bool} {s : Server κ} {e : Outside × Request}
    {f : RouteFn}
    (hf : handlerOf webOta e.2 = some f) (hc : f.checks = true) :
    (visit webOta s e).sessions = (authOk e.1 e.2 s).2.sessions := by
  rw [visit_of_some hf]
  obtain hroot | hguard := Bool.or_eq_true_iff.mp hc
  · rw [of_decide_eq_true hroot]
    rfl
  · exact f.guarded_sessions hguard e.1 e.2 s

/-- The sessions after a request for any other handler than those of the three kinds. -/
theorem run_sessions_of_rest {f : RouteFn} (hin : f ≠ .login) (hout : f ≠ .logout)
    (hc : f.checks = false) (o : Outside) (r : Request) (s : Server κ) :
    (f.run o r s).2.sessions = s.sessions := by
  cases f with
  | login => exact absurd rfl hin
  | logout => exact absurd rfl hout
  | hostname => rfl
  | updateCheck => exact keeps_hUpdateCheck o r s
  | updateInstall => exact keeps_hUpdateInstall o r s
  | updateStatus => rfl
  | _ => cases hc

/-- **One request**: the leases after it are those its deed leaves, where a new token is new. -/
theorem visit_leases {webOta : Bool} {s : Server κ} {e : Outside × Request}
    (hset : flag s.cfg .authSet = true) (hd : Distinct s.sessions)
    (hnew : SignsInAt webOta s e → leases s.sessions e.1.token = none) :
    Distinct (visit webOta s e).sessions ∧ leases (visit webOta s e).sessions =
      (deed webOta s e).elim (leases s.sessions) (Leases.step InTime (leases s.sessions)) := by
  by_cases hin : SignsInAt webOta s e
  · have hsess : (visit webOta s e).sessions = sessionNew s.sessions e.1.token e.1.nowUs := by
      rw [visit_of_some hin.1]
      exact (signsIn_of_ok hin.2).2
    rw [hsess, deed_grant_iff.mpr ⟨hin, rfl, rfl, rfl⟩]
    exact ⟨distinct_sessionNew hd (hnew hin) _, leases_sessionNew hd (hnew hin) _⟩
  · cases hout : signedOut webOta e.2 with
    | some tok =>
        have hsess : (visit webOta s e).sessions = dropToken s.sessions tok := by
          unfold signedOut at hout
          split at hout
          · next hf =>
              rw [visit_of_some hf]
              simp only [RouteFn.run, hLogout, hout]
          · cases hout
        rw [hsess, deed_release_iff.mpr hout]
        exact ⟨distinct_dropToken hd tok, leases_dropToken hd tok⟩
    | none =>
        cases hcheck : checkedToken webOta e.2 with
        | some tok =>
            have hsess : (visit webOta s e).sessions = (authSlot s.sessions tok e.1.nowUs).2 := by
              unfold checkedToken at hcheck
              split at hcheck
              · next hany =>
                  obtain ⟨f, hf, hc⟩ := (Option.any_eq_true _ _).mp hany
                  rw [visit_sessions_of_checks hf hc, authOk_some hset hcheck]
              · cases hcheck
            rw [hsess, deed_check_iff.mpr ⟨hcheck, rfl⟩]
            exact ⟨distinct_authSlot hd tok _, leases_authSlot hd tok _⟩
        | none =>
            have hdeed : deed webOta s e = none := by
              unfold deed
              rw [if_neg hin, hout, hcheck]
              rfl
            have hsess : (visit webOta s e).sessions = s.sessions := by
              cases hf : handlerOf webOta e.2 with
              | none => rw [visit_of_none hf]
              | some f =>
                  by_cases hc : f.checks = true
                  · unfold checkedToken at hcheck
                    rw [hf, Option.any_some, if_pos hc] at hcheck
                    rw [visit_sessions_of_checks hf hc, authOk_noToken hcheck]
                  · rw [visit_of_some hf]
                    by_cases hlogin : f = .login
                    · subst hlogin
                      exact congrArg Server.sessions (hLogin_fails fun hok => hin ⟨hf, hok⟩)
                    · by_cases hlogout : f = .logout
                      · subst hlogout
                        unfold signedOut at hout
                        rw [if_pos hf] at hout
                        simp only [RouteFn.run, hLogout, hout]
                      · exact run_sessions_of_rest hlogin hlogout (Bool.eq_false_iff.mpr hc) _ _ s
            rw [hsess, hdeed]
            exact ⟨hd, rfl⟩

/-! ## 4. Any number of requests -/

/-- A password is set in every state of a run. -/
def PasswordSet (webOta : Bool) (s : Server κ) (es : List (Outside × Request)) : Prop :=
  ∀ before after, es = before ++ after → flag (reached webOta s before).cfg .authSet = true

/-- The tokens that a run issues. -/
def issued (webOta : Bool) (s : Server κ) (es : List (Outside × Request)) : List Token :=
  StepMachine.trace (visit webOta)
    (fun s e => if SignsInAt webOta s e then some e.1.token else none) s es

/-- The history of a run, as leases. -/
def history (webOta : Bool) (s : Server κ) (es : List (Outside × Request)) :
    List (Leases.Event Token Int) := StepMachine.trace (visit webOta) (deed webOta) s es

theorem PasswordSet.head {webOta : Bool} {s : Server κ} {es : List (Outside × Request)}
    (h : PasswordSet webOta s es) : flag s.cfg .authSet = true := h [] es rfl

theorem PasswordSet.tail {webOta : Bool} {s : Server κ} {e : Outside × Request}
    {es : List (Outside × Request)} (h : PasswordSet webOta s (e :: es)) :
    PasswordSet webOta (visit webOta s e) es := by
  rintro before after rfl
  exact h (e :: before) after rfl

theorem PasswordSet.before {webOta : Bool} {s : Server κ} {es fs : List (Outside × Request)}
    (h : PasswordSet webOta s (es ++ fs)) : PasswordSet webOta s es := by
  rintro before after rfl
  exact h before (after ++ fs) (List.append_assoc before after fs)

theorem passwordSet_nil {webOta : Bool} {s : Server κ} (h : flag s.cfg .authSet = true) :
    PasswordSet webOta s [] := by
  intro before after heq
  rw [(List.append_eq_nil_iff.mp heq.symm).1]
  exact h

theorem passwordSet_cons {webOta : Bool} {s : Server κ} {e : Outside × Request}
    {es : List (Outside × Request)} (h : flag s.cfg .authSet = true)
    (hrest : PasswordSet webOta (visit webOta s e) es) : PasswordSet webOta s (e :: es) := by
  intro before after heq
  cases before with
  | nil => exact h
  | cons e' before =>
      obtain ⟨rfl, hes⟩ := List.cons.inj heq
      exact hrest before after hes

theorem issued_eq (webOta : Bool) (s : Server κ) (es : List (Outside × Request)) :
    issued webOta s es = Leases.grants (history webOta s es) := by
  unfold issued Leases.grants history
  rw [StepMachine.filterMap_trace]
  congr 1
  funext s e
  unfold deed
  by_cases hin : SignsInAt webOta s e
  · rw [if_pos hin, if_pos hin]
    rfl
  · rw [if_neg hin, if_neg hin]
    cases signedOut webOta e.2 with
    | some tok => rfl
    | none => cases checkedToken webOta e.2 <;> rfl

/-- **A run**: the slots hold the leases that the history of the run leaves. -/
theorem reached_leases {webOta : Bool} {s : Server κ} {es : List (Outside × Request)}
    (hset : PasswordSet webOta s es) (hd : Distinct s.sessions)
    (hfresh : (issued webOta s es).Nodup)
    (hnew : ∀ tok ∈ issued webOta s es, leases s.sessions tok = none) :
    Distinct (reached webOta s es).sessions ∧ leases (reached webOta s es).sessions =
      Leases.run InTime (leases s.sessions) (history webOta s es) := by
  induction es generalizing s with
  | nil => exact ⟨hd, rfl⟩
  | cons e es ih =>
      have hfirst : SignsInAt webOta s e → leases s.sessions e.1.token = none := by
        intro hin
        refine hnew e.1.token ?_
        unfold issued
        rw [StepMachine.trace, if_pos hin]
        exact List.mem_cons_self
      obtain ⟨hd', hstep⟩ := visit_leases hset.head hd hfirst
      have hsplit : history webOta s (e :: es) =
          (deed webOta s e).toList ++ history webOta (visit webOta s e) es := rfl
      rw [issued_eq, hsplit] at hfresh hnew
      have hnew' : ∀ tok ∈ issued webOta (visit webOta s e) es,
          leases (visit webOta s e).sessions tok = none := by
        intro tok htok
        rw [issued_eq] at htok
        have hnone := hnew tok (by
          unfold Leases.grants
          rw [List.filterMap_append]
          exact List.mem_append_right _ htok)
        rw [hstep]
        cases hdeed : deed webOta s e with
        | none => exact hnone
        | some d =>
            refine Leases.step_none hnone fun hg => ?_
            rw [hdeed] at hfresh
            unfold Leases.grants at hfresh
            rw [List.filterMap_append, Option.toList_some, List.filterMap_cons_some hg] at hfresh
            exact (List.nodup_cons.mp hfresh).1 htok
      have hfresh' : (issued webOta (visit webOta s e) es).Nodup := by
        rw [issued_eq]
        unfold Leases.grants at hfresh
        rw [List.filterMap_append] at hfresh
        exact (List.nodup_append.mp hfresh).2.1
      obtain ⟨hdist, hrun⟩ := ih hset.tail hd' hfresh' hnew'
      refine ⟨hdist, hrun.trans ?_⟩
      rw [hsplit, hstep]
      cases deed webOta s e <;> rfl

/-! ## 5. Who is still signed in -/

/-- The times at which a token is checked. -/
def checkTimes (webOta : Bool) (tok : Token) (es : List (Outside × Request)) : List Int :=
  es.filterMap fun e => if checkedToken webOta e.2 = some tok then some e.1.nowUs else none

/-- The last time at which a token was issued or checked. -/
def lastUse (webOta : Bool) (s : Server κ) (es : List (Outside × Request)) (tok : Token) :
    Option Int :=
  (StepMachine.trace (visit webOta) (fun s e =>
    if SignsInAt webOta s e ∧ e.1.token = tok ∨ checkedToken webOta e.2 = some tok then
      some e.1.nowUs
    else none) s es).getLast?

/-- After a run the four slots are taken, and this token is in the one whose token was used the
    longest ago; of several, in the first. -/
structure StalestOfFour (webOta : Bool) (s : Server κ) (es : List (Outside × Request))
    (tok : Token) :
    Prop where
  taken : ∀ j, ((reached webOta s es).sessions j).tok ≠ none
  least : ∃ i, ((reached webOta s es).sessions i).tok = some tok ∧
    ∀ j tok', j ≠ i → ((reached webOta s es).sessions j).tok = some tok' →
      ∃ a b, lastUse webOta s es tok = some a ∧ lastUse webOta s es tok' = some b ∧
        (a < b ∨ a = b ∧ i < j)

/-- **A token is good** at a time after a run: it was issued, it has not been signed out since, from
    its issue up to this time no two uses in a row were more than 8 hours apart, and at no sign-in
    since was it the stalest of four. -/
def Good (webOta : Bool) (s : Server κ) (es : List (Outside × Request)) (tok : Token)
    (nowUs : Int) :
    Prop :=
  ∃ before e after, es = before ++ e :: after ∧
    (SignsInAt webOta (reached webOta s before) e ∧ e.1.token = tok) ∧
    (∀ e' ∈ after, signedOut webOta e'.2 ≠ some tok) ∧
    List.IsChain (fun a b => b - a ≤ sessionIdleUs)
      (e.1.nowUs :: (checkTimes webOta tok after ++ [nowUs])) ∧
    ∀ mid e' rest, after = mid ++ e' :: rest →
      SignsInAt webOta (reached webOta s (before ++ e :: mid)) e' →
        ¬ StalestOfFour webOta s (before ++ e :: mid) tok

/-- A request is about a token: it signs in and is given it, has it checked, or signs it out. -/
def IsAbout (webOta : Bool) (s : Server κ) (e : Outside × Request) (tok : Token) : Prop :=
  (SignsInAt webOta s e ∧ e.1.token = tok) ∨ checkedToken webOta e.2 = some tok ∨
    signedOut webOta e.2 = some tok

theorem used_deed (webOta : Bool) (tok : Token) (s : Server κ) (e : Outside × Request) :
    (deed webOta s e).bind (Leases.Event.used tok) =
      if SignsInAt webOta s e ∧ e.1.token = tok ∨ checkedToken webOta e.2 = some tok then
        some e.1.nowUs
      else none := by
  unfold deed
  by_cases hin : SignsInAt webOta s e
  · rw [if_pos hin, checkedToken_of_signsIn hin]
    simp only [Option.bind_some, Leases.Event.used, hin, true_and, reduceCtorEq, or_false]
  · rw [if_neg hin]
    simp only [hin, false_and, false_or]
    cases hout : signedOut webOta e.2 with
    | some tok' =>
        rw [checkedToken_of_signedOut hout]
        rfl
    | none =>
        cases checkedToken webOta e.2 with
        | none => rfl
        | some tok' =>
            simp only [Option.map_some, Option.bind_some, Leases.Event.used, Option.some.injEq]

theorem checked_deed (webOta : Bool) (tok : Token) (s : Server κ) (e : Outside × Request) :
    (deed webOta s e).bind (Leases.Event.checked tok) =
      if checkedToken webOta e.2 = some tok then some e.1.nowUs else none := by
  unfold deed
  by_cases hin : SignsInAt webOta s e
  · rw [if_pos hin, checkedToken_of_signsIn hin]
    rfl
  · rw [if_neg hin]
    cases hout : signedOut webOta e.2 with
    | some tok' =>
        rw [checkedToken_of_signedOut hout]
        rfl
    | none =>
        cases checkedToken webOta e.2 with
        | none => rfl
        | some tok' =>
            simp only [Option.map_some, Option.bind_some, Leases.Event.checked, Option.some.injEq]

theorem checkTimes_eq (webOta : Bool) (tok : Token) (s : Server κ) (es : List (Outside × Request)) :
    (history webOta s es).filterMap (Leases.Event.checked tok) = checkTimes webOta tok es := by
  unfold history
  rw [StepMachine.filterMap_trace]
  exact StepMachine.trace_of_events (checked_deed webOta tok) s es

theorem lastUse_eq (webOta : Bool) (tok : Token) (s : Server κ) (es : List (Outside × Request)) :
    ((history webOta s es).filterMap (Leases.Event.used tok)).getLast? =
    lastUse webOta s es tok := by
  unfold history lastUse
  rw [StepMachine.filterMap_trace]
  congr 2
  funext s e
  exact used_deed webOta tok s e

section Runs

variable {webOta : Bool} {s : Server κ} {es : List (Outside × Request)}

theorem leases_boot (hboot : s.sessions = fun _ => Slot.free) :
    Distinct s.sessions ∧ leases s.sessions = fun _ => none := by
  rw [hboot]
  refine ⟨fun i j tok hi => (nomatch hi), funext fun tok => ?_⟩
  exact leases_none.mpr fun i hi => (nomatch hi)

/-- After a start the slots hold the leases of the history. -/
theorem reached_from_boot (hboot : s.sessions = fun _ => Slot.free) (hset : PasswordSet webOta s es)
    (hfresh : (issued webOta s es).Nodup) :
    Distinct (reached webOta s es).sessions ∧ leases (reached webOta s es).sessions =
      Leases.run InTime (fun _ => none) (history webOta s es) := by
  obtain ⟨hd, hnone⟩ := leases_boot hboot
  have hrun := reached_leases hset hd hfresh fun tok _ => congrFun hnone tok
  rw [hnone] at hrun
  exact hrun

theorem issued_before {fs : List (Outside × Request)} (h : (issued webOta s (es ++ fs)).Nodup) :
    (issued webOta s es).Nodup := by
  unfold issued at h ⊢
  rw [StepMachine.trace_append] at h
  exact (List.nodup_append.mp h).1

/-- The slot that was used the longest ago is that of the token that was. -/
theorem stalest_iff (hboot : s.sessions = fun _ => Slot.free) (hset : PasswordSet webOta s es)
    (hfresh : (issued webOta s es).Nodup) (tok : Token) :
    Stalest (reached webOta s es).sessions tok ↔ StalestOfFour webOta s es tok := by
  obtain ⟨hd, hrun⟩ := reached_from_boot hboot hset hfresh
  have huse {i : Fin sessionSlots} {t : Token}
    (ht : ((reached webOta s es).sessions i).tok = some t) :
      lastUse webOta s es t = some ((reached webOta s es).sessions i).lastUs := by
    rw [← lastUse_eq]
    refine Leases.last_use (R := InTime) ?_
    rw [← congrFun hrun t, leases_iff hd]
    exact ⟨i, by rw [← ht]⟩
  constructor
  · rintro ⟨htaken, i, hi, hleast⟩
    exact ⟨htaken, i, hi, fun j tok' hj htok' => ⟨_, _, huse hi, huse htok', hleast j hj⟩⟩
  · rintro ⟨htaken, i, hi, hleast⟩
    refine ⟨htaken, i, hi, fun j hj => ?_⟩
    obtain ⟨tok', htok'⟩ := Option.ne_none_iff_exists'.mp (htaken j)
    obtain ⟨a, b, ha, hb, hab⟩ := hleast j tok' hj htok'
    rw [← Option.some.inj ((huse hi).symm.trans ha), ← Option.some.inj ((huse htok').symm.trans hb)]
      at hab
    exact hab

/-- With a password set, who is let through can be read off the leases. -/
theorem authOk_iff_leases {s : Server κ} (hset : flag s.cfg .authSet = true)
    (hd : Distinct s.sessions)
    {o : Outside} {r : Request} {tok : Token} (htok : cookieToken r.cookie = some tok) :
    (authOk o r s).1 = true ↔ ∃ u, leases s.sessions tok = some u ∧ InTime u o.nowUs := by
  rw [authOk_some hset htok]
  exact (authSlot_iff hd tok o.nowUs).trans (live_iff_leases hd tok o.nowUs)

/-- The history of a run keeps a lease just as the run keeps the token good. -/
theorem kept_iff_good (hboot : s.sessions = fun _ => Slot.free) (hset : PasswordSet webOta s es)
    (hfresh : (issued webOta s es).Nodup) {tok : Token} {nowUs : Int} :
    (∃ pre o t₀ post, history webOta s es = pre ++ .grant tok o t₀ :: post ∧
      (∀ d ∈ post, ¬ d.Ends tok) ∧
      List.IsChain InTime (t₀ :: (post.filterMap (Leases.Event.checked tok) ++ [nowUs]))) ↔
        Good webOta s es tok nowUs := by
  -- a sign-in after the one that issued the token ousts it if it is the stalest
  have houst {before mid rest : List (Outside × Request)} {e e' : Outside × Request}
      (hes : es = before ++ e :: (mid ++ e' :: rest)) :
      oustedToken (reached webOta s (before ++ e :: mid)).sessions = some tok ↔
        StalestOfFour webOta s (before ++ e :: mid) tok := by
    have hes' : es = (before ++ e :: mid) ++ e' :: rest := by
      rw [hes, List.append_assoc, List.cons_append]
    rw [hes'] at hset hfresh
    exact (ousted_iff _ tok).trans (stalest_iff hboot hset.before (issued_before hfresh) tok)
  have hstate (before : List (Outside × Request)) (e : Outside × Request)
      (mid : List (Outside × Request)) :
        mid.foldl (visit webOta) ((before ++ [e]).foldl (visit webOta) s) =
        reached webOta s (before ++ e :: mid) := by
    unfold reached
    rw [← List.foldl_append, List.append_assoc, List.singleton_append]
  constructor
  · rintro ⟨pre, o, t₀, post, hhist, hends, hchain⟩
    obtain ⟨before, e, after, rfl, hdeed, -, rfl⟩ := StepMachine.trace_split hhist
    obtain ⟨hin, htok, -, rfl⟩ := deed_grant_iff.mp hdeed
    refine ⟨before, e, after, rfl, ⟨hin, htok⟩, ?_, ?_, ?_⟩
    · intro e' he' hout
      obtain ⟨mid, rest, rfl⟩ := List.append_of_mem he'
      exact hends (.release tok) (StepMachine.mem_trace_iff.mpr
        ⟨mid, e', rest, rfl, deed_release_iff.mpr hout⟩) (.inl rfl)
    · rw [← checkTimes_eq webOta tok ((before ++ [e]).foldl (visit webOta) s) after]
      exact hchain
    · rintro mid e' rest rfl hin' hstale
      have hdeed' : deed webOta (mid.foldl (visit webOta) ((before ++ [e]).foldl (visit webOta) s))
        e' =
          some (.grant e'.1.token (some tok) e'.1.nowUs) := by
        rw [hstate]
        exact deed_grant_iff.mpr ⟨hin', rfl, (houst rfl).mpr hstale, rfl⟩
      exact hends _ (StepMachine.mem_trace_iff.mpr ⟨mid, e', rest, rfl, hdeed'⟩) (.inr rfl)
  · rintro ⟨before, e, after, rfl, ⟨hin, htok⟩, hout, hchain, hstale⟩
    refine ⟨history webOta s before, oustedToken (reached webOta s before).sessions, e.1.nowUs,
      history webOta ((before ++ [e]).foldl (visit webOta) s) after,
      StepMachine.trace_at (deed_grant_iff.mpr ⟨hin, htok, rfl, rfl⟩), ?_, ?_⟩
    · intro d hd hends
      obtain ⟨mid, e', rest, rfl, hdeed⟩ := StepMachine.mem_trace_iff.mp hd
      obtain rfl | hends := hends
      · exact hout e' (List.mem_append_right _ List.mem_cons_self) (deed_release_iff.mp hdeed)
      · cases d with
        | grant k o t =>
            obtain ⟨hin', -, hous, -⟩ := deed_grant_iff.mp hdeed
            rw [hstate] at hin' hous
            exact hstale mid e' rest rfl hin' ((houst rfl).mp (hous.trans hends))
        | check k t => cases hends
        | release k => cases hends
    · rw [checkTimes_eq]
      exact hchain

end Runs

/-- **Who is still signed in.** On a unit with an admin password, after a start and any number of
    requests at any times, where no token is issued twice: a request that carries a token is let
    through if and only if the token is good at that time; and a request about another token changes
    nothing for it, unless that is a sign-in at which the token is the stalest of four. -/
theorem authorised_iff {webOta : Bool} {s : Server κ} {es : List (Outside × Request)}
    (hboot : s.sessions = fun _ => Slot.free) (hset : PasswordSet webOta s es)
    (hfresh : (issued webOta s es).Nodup) :
    (∀ o r tok, cookieToken r.cookie = some tok →
      ((authOk o r (reached webOta s es)).1 = true ↔ Good webOta s es tok o.nowUs)) ∧
    ∀ before e after, es = before ++ e :: after →
      ∀ tok, ¬ IsAbout webOta (reached webOta s before) e tok →
        ¬ (SignsInAt webOta (reached webOta s before) e ∧ StalestOfFour webOta s before tok) →
          ∀ o r, cookieToken r.cookie = some tok →
            (authOk o r (reached webOta s (before ++ [e]))).1 =
            (authOk o r (reached webOta s before)).1 := by
  constructor
  · intro o r tok htok
    obtain ⟨hd, hrun⟩ := reached_from_boot hboot hset hfresh
    rw [authOk_iff_leases (hset es [] (List.append_nil es).symm) hd htok, hrun]
    have hnodup : (Leases.grants (history webOta s es)).Nodup := issued_eq webOta s es ▸ hfresh
    exact (Leases.held_iff hnodup).trans (kept_iff_good hboot hset hfresh)
  · rintro before e after rfl tok habout hstale o r htok
    have hes : before ++ e :: after = (before ++ [e]) ++ after := by
      rw [List.append_assoc, List.singleton_append]
    have hset' : PasswordSet webOta s (before ++ [e]) := (hes ▸ hset).before
    have hfresh' : (issued webOta s (before ++ [e])).Nodup := issued_before (hes ▸ hfresh)
    obtain ⟨hd, hrun⟩ := reached_from_boot hboot hset.before (issued_before hfresh)
    obtain ⟨hd', hrun'⟩ := reached_from_boot hboot hset' hfresh'
    have hsame : leases (reached webOta s (before ++ [e])).sessions tok =
        leases (reached webOta s before).sessions tok := by
      have hsplit : history webOta s (before ++ [e]) =
          history webOta s before ++ ((deed webOta (reached webOta s before) e).toList ++ []) :=
        StepMachine.trace_append s before [e]
      rw [hrun', hrun, hsplit, List.append_nil, Leases.run_append]
      cases hdeed : deed webOta (reached webOta s before) e with
      | none => rfl
      | some d =>
          refine Leases.step_other _ ?_ ?_
          · rintro rfl
            refine habout ?_
            cases d with
            | grant k o t =>
                obtain ⟨hin, hk, -, -⟩ := deed_grant_iff.mp hdeed
                exact .inl ⟨hin, hk⟩
            | check k t => exact .inr (.inl (deed_check_iff.mp hdeed).1)
            | release k => exact .inr (.inr (deed_release_iff.mp hdeed))
          · intro hous
            cases d with
            | grant k o t =>
                obtain ⟨hin, -, ho, -⟩ := deed_grant_iff.mp hdeed
                have hout := (ousted_iff _ tok).mp (ho.trans hous)
                exact hstale
                  ⟨hin, (stalest_iff hboot hset.before (issued_before hfresh) tok).mp hout⟩
            | check k t => cases hous
            | release k => cases hous
    refine Bool.eq_iff_iff.mpr ?_
    rw [authOk_iff_leases (hset' _ [] (List.append_nil _).symm) hd' htok,
      authOk_iff_leases (hset before (e :: after) rfl) hd htok, hsame]

section Browser

/-- `POST /api/login`. -/
def loginRequest : Request := postOf "/api/login" (ascii "user=admin&pass=correct horse")

/-- The page of the settings, asked for by the browser that signed in. -/
def browserRequest : Request :=
  { configRequest with cookie := some (ascii "sid=" ++ quietOutside.token.chars) }

/-- A sign-in, and a request an hour later. -/
def browserVisits : List (Outside × Request) :=
  [(quietOutside, loginRequest), ({ quietOutside with nowUs := 3660000000 }, browserRequest)]

/-- `authorised_iff` for them. -/
theorem authorised_iff_browser :
    (∀ o r tok, cookieToken r.cookie = some tok →
      ((authOk o r (reached true guardedServer browserVisits)).1 = true ↔
        Good true guardedServer browserVisits tok o.nowUs)) ∧
    ∀ before e after, browserVisits = before ++ e :: after →
      ∀ tok, ¬ IsAbout true (reached true guardedServer before) e tok →
        ¬ (SignsInAt true (reached true guardedServer before) e ∧
            StalestOfFour true guardedServer before tok) →
          ∀ o r, cookieToken r.cookie = some tok →
            (authOk o r (reached true guardedServer (before ++ [e]))).1 =
              (authOk o r (reached true guardedServer before)).1 :=
  authorised_iff rfl
    (passwordSet_cons (by decide +kernel) (passwordSet_cons (by decide +kernel)
      (passwordSet_nil (by decide +kernel))))
    (by decide +kernel)

end Browser

end NutBluetti.Web
