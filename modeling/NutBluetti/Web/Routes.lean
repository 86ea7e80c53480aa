/-
  File:      NutBluetti/Web/Routes.lean
  Subject:   COMPLETE MEDIATION. The routes `start_httpd (false)` registers, and which of them a
             request without a live session gets past.

  * `Refused` -- the reply is 401, and nothing was changed and nobody asked;
  * `requireAuth_refused` -- a handler behind `REQUIRE_AUTH` refuses, whatever comes after it;
  * **`refused_iff`** -- of the routes that are not for everyone, all but the three of the updates
    refuse;
  * **`install_unmediated`** -- a stranger starts a firmware download;
  * **`strangers_change_nothing`** -- over any number of requests without a token, to routes other
    than those three and without the password, the server stays as it was.
-/
import NutBluetti.Config.Upgrade
import NutBluetti.Lib.StepMachine
import NutBluetti.Web.Settings

namespace NutBluetti.Web

open CLayout
open NutBluetti.Config

variable {κ : Type}

/-! ## 1. The routes -/

/-- The handlers that are registered. -/
inductive RouteFn where
  | adminRoot | login | logout | hostname
  | adminStatus | adminLogs | adminConfig | adminReconfigure | adminCredentials
  | notifyTest | pveTest | pveGuests | bleScan | wifiScan | adminReboot
  | ledToggle | controlsGet | controlsEnable | controlSet | loglevelSet | factoryReset
  | ota | updateCheck | updateInstall | updateStatus
  deriving DecidableEq, Repr

def RouteFn.run : RouteFn → Handler κ
  | .adminRoot => hAdminRoot
  | .login => hLogin
  | .logout => hLogout
  | .hostname => hHostname
  | .adminStatus => hAdminStatus
  | .adminLogs => hAdminLogs
  | .adminConfig => hAdminConfig
  | .adminReconfigure => hAdminReconfigure
  | .adminCredentials => hAdminCredentials
  | .notifyTest => hNotifyTest
  | .pveTest => hPveTest
  | .pveGuests => hPveGuests
  | .bleScan => hBleScan
  | .wifiScan => hWifiScan
  | .adminReboot => hAdminReboot
  | .ledToggle => hLedToggle
  | .controlsGet => hControlsGet
  | .controlsEnable => hControlsEnable
  | .controlSet => hControlSet
  | .loglevelSet => hLoglevelSet
  | .factoryReset => hFactoryReset
  | .ota => hOta
  | .updateCheck => hUpdateCheck
  | .updateInstall => hUpdateInstall
  | .updateStatus => hUpdateStatus

/-- `httpd_uri_t`. -/
structure Route where
  uri : String
  method : Method
  handler : RouteFn
  deriving DecidableEq, Repr

/-- **`start_httpd (false)`**; `webOta` is `CONFIG_ENABLE_WEB_OTA`. -/
def adminRoutes (webOta : Bool) : List Route :=
  [⟨"/", .get, .adminRoot⟩,
   ⟨"/api/login", .post, .login⟩,
   ⟨"/api/logout", .post, .logout⟩,
   ⟨"/api/hostname", .get, .hostname⟩,
   ⟨"/api/status", .get, .adminStatus⟩,
   ⟨"/api/logs", .get, .adminLogs⟩,
   ⟨"/api/config", .get, .adminConfig⟩,
   ⟨"/api/reconfigure", .post, .adminReconfigure⟩,
   ⟨"/api/credentials", .post, .adminCredentials⟩,
   ⟨"/api/notify-test", .post, .notifyTest⟩,
   ⟨"/api/pve-test", .post, .pveTest⟩,
   ⟨"/api/pve-guests", .post, .pveGuests⟩,
   ⟨"/api/ble-scan", .get, .bleScan⟩,
   ⟨"/api/wifi-scan", .get, .wifiScan⟩,
   ⟨"/api/reboot", .post, .adminReboot⟩,
   ⟨"/api/led", .post, .ledToggle⟩,
   ⟨"/api/controls", .get, .controlsGet⟩,
   ⟨"/api/controls", .post, .controlsEnable⟩,
   ⟨"/api/control", .post, .controlSet⟩,
   ⟨"/api/loglevel", .post, .loglevelSet⟩,
   ⟨"/api/factory-reset", .post, .factoryReset⟩] ++
  if webOta then
    [⟨"/api/ota", .post, .ota⟩,
     ⟨"/api/update/check", .get, .updateCheck⟩,
     ⟨"/api/update/install", .post, .updateInstall⟩,
     ⟨"/api/update/status", .get, .updateStatus⟩]
  else []

/-- The routes for everyone. -/
def publicUris : List String := ["/", "/api/login", "/api/logout", "/api/hostname"]

def updateUris : List String := ["/api/update/check", "/api/update/install", "/api/update/status"]

/-- The route of a request: the HTTP server compares path and method. -/
def findRoute (routes : List Route) (r : Request) : Option Route :=
  routes.find? fun rt => rt.uri = r.path && rt.method = r.method

/-- A request to the server; what has no route is answered by the HTTP server itself. -/
def serve (webOta : Bool) (o : Outside) (r : Request) (s : Server κ) : Option Reply × Server κ :=
  match findRoute (adminRoutes webOta) r with
  | none => (none, s)
  | some rt =>
      let (reply, s) := rt.handler.run o r s
      (some reply, s)

/-! ## 2. Refusing -/

/-- The request carries the token of a session that has not idled out. -/
def Request.Live (r : Request) (o : Outside) (s : Server κ) : Prop :=
  ∃ tok, cookieToken r.cookie = some tok ∧ Web.Live s.sessions tok o.nowUs

/-- **A request is refused**: 401, and the configuration, the stored rules, the queued control
    writes, the update and the boot partition are as before, and no other host is asked. -/
structure Refused (s : Server κ) (res : Reply × Server κ) : Prop where
  unauthorized : res.1.status = .unauthorized
  cfg : res.2.cfg = s.cfg
  stored : res.2.stored = s.stored
  storedGuests : res.2.storedGuests = s.storedGuests
  writeQueue : res.2.ble.writeQueue = s.ble.writeQueue
  ota : res.2.ota = s.ota
  boot : res.2.boot = s.boot
  outbound : res.2.outbound = s.outbound

/-- `auth_ok` changes sessions only. -/
theorem authOk_frame (o : Outside) (r : Request) (s : Server κ) :
    (authOk o r s).2 = { s with sessions := (authOk o r s).2.sessions } := by
  unfold authOk
  split
  · rfl
  · split <;> rfl

/-- With a password set, `auth_ok` lets no request through that is not live. -/
theorem authOk_false {o : Outside} {r : Request} {s : Server κ} (hset : flag s.cfg .authSet = true)
    (hlive : ¬ r.Live o s) : (authOk o r s).1 = false := by
  unfold authOk
  rw [hset]
  cases htok : cookieToken r.cookie with
  | none => rfl
  | some tok =>
      have hno : (authSlot s.sessions tok o.nowUs).1 ≠ true := fun h =>
        hlive ⟨tok, htok, authSlot_live h⟩
      exact Bool.eq_false_iff.mpr hno

/-- What a handler behind the check does for a request that is not let through. -/
theorem requireAuth_stop {o : Outside} {r : Request} {s : Server κ} (h : Handler κ)
    (hno : (authOk o r s).1 = false) : requireAuth h o r s = (send401, (authOk o r s).2) := by
  unfold requireAuth
  simp only [hno, Bool.not_false, if_true]

/-- **A handler behind the check refuses**, whatever it would do. -/
theorem requireAuth_refused {o : Outside} {r : Request} {s : Server κ} (h : Handler κ)
    (hset : flag s.cfg .authSet = true) (hlive : ¬ r.Live o s) :
    Refused s (requireAuth h o r s) := by
  rw [requireAuth_stop h (authOk_false hset hlive), authOk_frame]
  exact ⟨rfl, rfl, rfl, rfl, rfl, rfl, rfl, rfl⟩

/-! ## 3. Which handlers are behind the check -/

/-- The handlers that start with `REQUIRE_AUTH`. -/
def RouteFn.guarded : RouteFn → Bool
  | .adminRoot | .login | .logout | .hostname | .updateCheck | .updateInstall | .updateStatus =>
    false
  | _ => true

theorem RouteFn.guarded_run {f : RouteFn} (h : f.guarded = true) :
    ∃ body : Handler κ, f.run = requireAuth body := by
  cases f <;> simp only [RouteFn.guarded, Bool.false_eq_true] at h <;> simp only [RouteFn.run] <;>
    exact ⟨_, rfl⟩

/-- Every route but those for everyone is behind the check, or one of the updates. -/
theorem guarded_iff {webOta : Bool} {rt : Route} (h : rt ∈ adminRoutes webOta)
    (hpub : rt.uri ∉ publicUris) : rt.handler.guarded = true ↔ rt.uri ∉ updateUris := by
  have hall : ∀ webOta, ∀ rt ∈ adminRoutes webOta, rt.uri ∉ publicUris →
      (rt.handler.guarded = true ↔ rt.uri ∉ updateUris) := by decide
  exact hall webOta rt h hpub

theorem findRoute_some {routes : List Route} {r : Request} {rt : Route}
    (h : findRoute routes r = some rt) : rt ∈ routes ∧ rt.uri = r.path ∧ rt.method = r.method := by
  unfold findRoute at h
  have hp := List.find?_some h
  simp only [Bool.and_eq_true, decide_eq_true_eq] at hp
  exact ⟨List.mem_of_find?_eq_some h, hp.1, hp.2⟩

/-- The replies of the updates: never 401. -/
theorem withBody_status {o : Outside} {r : Request} {minLen maxLen : Nat} {heap : Bool}
    {s : Server κ}
    {k : List UInt8 → Reply × Server κ} (h : ∀ body, (k body).1.status ≠ .unauthorized) :
    (withBody o r minLen maxLen heap s k).1.status ≠ .unauthorized := by
  unfold withBody readBody
  split
  case h_1 reply hreply =>
      split at hreply
      · cases hreply
        exact Status.noConfusion
      · split at hreply
        · cases hreply
          exact Status.noConfusion
        · split at hreply
          · cases hreply
            exact Status.noConfusion
          · cases hreply
  case h_2 body _ => exact h body

theorem hUpdateInstall_status (o : Outside) (r : Request) (s : Server κ) :
    (hUpdateInstall o r s).1.status ≠ .unauthorized := by
  unfold hUpdateInstall
  split
  · exact Status.noConfusion
  · refine withBody_status fun body => ?_
    dsimp only
    split
    · exact Status.noConfusion
    · split
      · exact Status.noConfusion
      · split <;> exact Status.noConfusion

theorem update_status {f : RouteFn} (hf : f ∈ [.updateCheck, .updateInstall, .updateStatus])
    (o : Outside) (r : Request) (s : Server κ) : (f.run o r s).1.status ≠ .unauthorized := by
  simp only [List.mem_cons, List.not_mem_nil, or_false] at hf
  rcases hf with rfl | rfl | rfl
  · exact Status.noConfusion
  · exact hUpdateInstall_status o r s
  · exact Status.noConfusion

/-- The handlers of the updates are those at their paths. -/
theorem update_handler {webOta : Bool} {rt : Route} (h : rt ∈ adminRoutes webOta)
    (huri : rt.uri ∈ updateUris) : rt.handler ∈ [.updateCheck, .updateInstall, .updateStatus] := by
  have hall : ∀ webOta, ∀ rt ∈ adminRoutes webOta, rt.uri ∈ updateUris →
      rt.handler ∈ [RouteFn.updateCheck, .updateInstall, .updateStatus] := by decide
  exact hall webOta rt h huri

/-! ## 4. One request -/

/-- **With a password set, a request without a live session** to a route that is not for everyone is
    refused exactly when it is not one of the updates. -/
theorem refused_iff {webOta : Bool} {o : Outside} {r : Request} {s : Server κ} {rt : Route}
    (hroute : findRoute (adminRoutes webOta) r = some rt) (hpub : r.path ∉ publicUris)
    (hset : flag s.cfg .authSet = true) (hlive : ¬ r.Live o s) :
    Refused s (rt.handler.run o r s) ↔ r.path ∉ updateUris := by
  obtain ⟨hmem, huri, -⟩ := findRoute_some hroute
  rw [← huri] at hpub ⊢
  constructor
  · intro href hup
    exact update_status (update_handler hmem hup) o r s href.unauthorized
  · intro hup
    obtain ⟨body, hrun⟩ := RouteFn.guarded_run ((guarded_iff hmem hpub).mpr hup)
    rw [hrun]
    exact requireAuth_refused body hset hlive

section Stranger

/-- A unit with an admin password, as Kconfig.projbuild sets it up, and nobody signed in. -/
def guardedServer : Server Nat where
  cfg := setSecret kconfigBoard.sha256 kconfigBoard.salt authSecret (appConfigDefaults kconfigBoard)
    (ascii "correct horse")
  bleFound := []
  sessions := fun _ => Slot.free
  stored := none
  storedGuests := fun _ => []
  ble := Ble.bluettiBleStart false 20
  ota := ⟨.idle, -1, [], [], false⟩
  boot := "ota_0"
  calls := []

/-- Everything works, and the network has nothing to say. -/
def quietOutside : Outside where
  nowUs := 60000000
  alloc := fun _ => true
  sha256 := kconfigBoard.sha256
  salt := kconfigBoard.salt
  token := ⟨List.replicate 32 (chr '0'), rfl, fun c hc => by
    rw [List.eq_of_mem_replicate hc]
    rfl⟩
  defaultName := ascii "esp-nut-bluetti-A1B2"
  saveCfg := .ok
  saveGuests := fun _ => .ok
  eraseGuests := .ok
  eraseCfg := .ok
  loginHtml := []
  adminHtml := []
  page := some []
  logRing := fun n => ([], n)
  ghOwner := ascii "thatguy-za"
  ghRepo := ascii "esp32-nut-bluetti"
  ghClient := true
  ghReleases := .ok []
  mutexOk := true
  taskOk := true
  otaPartition := some "ota_1"
  otaBegin := true
  otaWrite := fun _ => true
  otaEnd := none
  otaSetBoot := true
  ledIdentify := true
  ledEnabled := true
  ledGpio := 48
  bleScanning := false
  wifiFound := []
  notifyTest := ⟨true, .ok ()⟩
  pveTest := ⟨true, ⟨0, [], [], true⟩⟩
  pveList := ⟨true, .ok []⟩

/-- `POST /api/update/install` with the header and a version, and no cookie. -/
def installRequest : Request where
  method := .post
  path := "/api/update/install"
  query := none
  cookie := none
  confirm := some (ascii "FLASH")
  contentLen := 13
  recv := [.data (ascii "version=0.0.1")]

/-- The settings, asked for without a cookie. -/
def configRequest : Request := { installRequest with method := .get, path := "/api/config" }

theorem not_live_of_none {r : Request} (h : cookieToken r.cookie = none) (o : Outside)
    (s : Server κ) : ¬ r.Live o s := by
  rintro ⟨tok, htok, -⟩
  rw [h] at htok
  cases htok

/-- `refused_iff` for the settings page. -/
theorem refused_iff_config :
    Refused guardedServer (RouteFn.adminConfig.run quietOutside configRequest guardedServer) ↔
      configRequest.path ∉ updateUris :=
  refused_iff
    (show findRoute (adminRoutes true) configRequest = some ⟨"/api/config", .get, .adminConfig⟩ from
      by decide)
    (by decide) (by decide) (not_live_of_none rfl _ _)

/-- **A stranger installs firmware**: without a cookie, on a unit with an admin password, the
    request is answered with "ok" and the download of an old release is started. -/
theorem install_unmediated :
    findRoute (adminRoutes true) installRequest =
        some ⟨"/api/update/install", .post, .updateInstall⟩ ∧
      installRequest.path ∉ publicUris ∧ flag guardedServer.cfg .authSet = true ∧
      ¬ installRequest.Live quietOutside guardedServer ∧
      ((RouteFn.updateInstall.run quietOutside installRequest guardedServer).1 = sendStr "ok" ∧
        (RouteFn.updateInstall.run quietOutside installRequest guardedServer).2.outbound =
          [.downloadTask (ascii "0.0.1")] ∧
        (RouteFn.updateInstall.run quietOutside installRequest guardedServer).2.ota.state =
          .running) ∧
      ¬ Refused guardedServer
        (RouteFn.updateInstall.run quietOutside installRequest guardedServer) := by
  refine ⟨by decide, by decide, by decide, not_live_of_none rfl _ _,
    ⟨by decide, by decide, by decide⟩, fun href => ?_⟩
  exact hUpdateInstall_status _ _ _ href.unauthorized

end Stranger

/-! ## 5. Any number of requests -/

/-- A request from somebody who has no token and does not know the password, to a route other than
    those of the updates. -/
def Stranger (s : Server κ) (e : Outside × Request) : Prop :=
  cookieToken e.2.cookie = none ∧ e.2.path ∉ updateUris ∧
    (e.2.path = "/api/login" → (hLogin e.1 e.2 s).1.status ≠ .ok)

/-- Without a token `auth_ok` leaves the sessions alone. -/
theorem authOk_none {o : Outside} {r : Request} (h : cookieToken r.cookie = none) (s : Server κ) :
    (authOk o r s).2 = s := by
  unfold authOk
  rw [h]
  split <;> rfl

/-- A sign-in that fails changes nothing. -/
theorem hLogin_fails {o : Outside} {r : Request} {s : Server κ}
    (h : (hLogin o r s).1.status ≠ .ok) :
    (hLogin o r s).2 = s := by
  unfold hLogin withBody at h ⊢
  cases hbody : readBody o r 1 512 true with
  | error reply => rfl
  | ok body =>
      simp only [hbody] at h ⊢
      split at h
      · exact absurd rfl h
      · rename_i hno
        rw [if_neg hno]

/-- What a stranger asks changes nothing. -/
theorem serve_stranger {webOta : Bool} {s : Server κ} {e : Outside × Request}
    (hset : flag s.cfg .authSet = true) (h : Stranger s e) : (serve webOta e.1 e.2 s).2 = s := by
  obtain ⟨htok, hup, hlogin⟩ := h
  unfold serve
  cases hroute : findRoute (adminRoutes webOta) e.2 with
  | none => rfl
  | some rt =>
      obtain ⟨hmem, huri, -⟩ := findRoute_some hroute
      show (rt.handler.run e.1 e.2 s).2 = s
      by_cases hpub : rt.uri ∈ publicUris
      · -- the four routes for everyone
        have hhandler : rt.handler ∈ [RouteFn.adminRoot, .logout, .hostname] ∨
            rt.handler = .login ∧ rt.uri = "/api/login" := by
          have hall : ∀ webOta, ∀ rt ∈ adminRoutes webOta, rt.uri ∈ publicUris →
              rt.handler ∈ [RouteFn.adminRoot, .logout, .hostname] ∨
                rt.handler = .login ∧ rt.uri = "/api/login" := by decide
          exact hall webOta rt hmem hpub
        rcases hhandler with hhandler | ⟨hhandler, hpath⟩
        · simp only [List.mem_cons, List.not_mem_nil, or_false] at hhandler
          rcases hhandler with hf | hf | hf
          · rw [hf]
            exact authOk_none htok s
          · rw [hf]
            simp only [RouteFn.run, hLogout, htok]
          · rw [hf]
            rfl
        · rw [hhandler]
          exact hLogin_fails (hlogin (huri ▸ hpath))
      · have hno := authOk_false hset (not_live_of_none htok e.1 s)
        obtain ⟨body, hrun⟩ :=
          RouteFn.guarded_run (κ := κ) ((guarded_iff hmem hpub).mpr (huri ▸ hup))
        rw [hrun, requireAuth_stop body hno]
        exact authOk_none htok s

/-- The server as a machine. -/
def serveStep (webOta : Bool) (s : Server κ) (e : Outside × Request) : Option (Server κ) :=
  some (serve webOta e.1 e.2 s).2

/-- **Any number of requests from strangers** leaves the server as it was. -/
theorem strangers_change_nothing {webOta : Bool} {s s' : Server κ} {es : List (Outside × Request)}
    (hset : flag s.cfg .authSet = true) (hes : StepMachine.Along (serveStep webOta) Stranger s es)
    (hrun : StepMachine.run (serveStep webOta) s es = some s') : s' = s := by
  refine StepMachine.run_inv_along _ (I := fun t => t = s) ?_ hes rfl hrun
  rintro t e t' hC rfl hstep
  rw [← Option.some.inj hstep]
  exact serve_stranger hset hC

end NutBluetti.Web
