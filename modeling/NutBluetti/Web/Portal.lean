/-
  File:      NutBluetti/Web/Portal.lean
  Subject:   SETUP MODE (provisioning.c): `h_provision`, the task that joins the network, and
             `h_status`.

  The portal answers posts while `prov_connect` is still joining, and both work on `P.pending`: here
  it is part of the state.
-/
import NutBluetti.Web.Settings

namespace NutBluetti.Web

open CLayout
open NutBluetti.Config

variable {κ : Type}

/-- `prov_state_t`. -/
inductive ProvState where
  | idle
  | connecting
  | connected
  | failed
  deriving DecidableEq, Repr

/-- The static `P` in setup mode. -/
structure Portal (κ : Type) where
  server : Server κ
  pending : Image
  state : ProvState
  detail : List UInt8
  /-- `DONE_BIT`. -/
  done : Bool
  /-- The tasks `prov_connect` that have not ended. -/
  tasks : Nat

/-- The admin login of a form: a blank user is "admin". -/
def setCredentials (o : Outside) (cfg : Image) (user pass : List UInt8) : Image :=
  appConfigSetPassword o.sha256 o.salt
    (strlcpy cfg .authUser (if user = [] then ascii "admin" else user)) pass

/-- `h_provision` as an access point: it is stored, and the unit restarts. -/
def provisionAp (o : Outside) (body : List UInt8) (pending : Image) (p : Portal κ) :
    Reply × Portal κ :=
  let pending := set pending .wifiMode [1]
  let pending := intoText body "ap_ssid" .apSsid pending
  let pending := intoText body "ap_pass" .apPass pending
  if shortPass (text pending .apPass) then
    (badRequest "AP password must be 8+ characters", { p with pending := pending })
  else
    let pending := defaultSsid o .apSsid pending
    let (s, ok) := { p.server with cfg := set pending .provisioned [1] }.saveCfg o
    if !ok then
      (sendErr .internalError (ascii "could not save config"),
        { p with server := s, pending := pending })
    else
      (sendJson (ascii "\x7b\"ok\":true\x7d"),
        { p with server := s.call (.rebootTask 900), pending := pending })

/-- `h_provision` as a station: it is stored once the network was joined. -/
def provisionStation (o : Outside) (body : List UInt8) (pending : Image) (p : Portal κ) :
    Reply × Portal κ :=
  let pending := set pending .wifiMode [0]
  let pending := intoText body "ssid" .wifiSsid pending
  let pending := intoText body "pass" .wifiPass pending
  if text pending .wifiSsid = [] then (badRequest "ssid required", { p with pending := pending })
  else
    (sendJson (ascii "\x7b\"ok\":true\x7d"),
      { p with
        pending := pending
        state := .connecting
        detail := []
        tasks := if o.taskOk then p.tasks + 1 else p.tasks })

/-- The form asks for an access point. -/
def asksForAp (body : List UInt8) : Prop := formText body "wifi_mode" 8 = ascii "ap"

instance (body : List UInt8) : Decidable (asksForAp body) :=
  inferInstanceAs (Decidable (formText body "wifi_mode" 8 = ascii "ap"))

/-- **`h_provision`**. -/
def hProvision (o : Outside) (r : Request) (p : Portal κ) : Reply × Portal κ :=
  match readBody o r 1 2048 true with
  | .error reply => (reply, p)
  | .ok body =>
      let pending := p.server.cfg
      let user := formText body "auth_user" 33
      let pass := formText body "auth_pass" 128
      if pass = [] then
        (badRequest "an admin password is required", { p with pending := pending })
      else
        let pending := setCredentials o pending user pass
        if asksForAp body then provisionAp o body pending p else provisionStation o body pending p

/-- What `wifi_mgr_sta_connect` returns. -/
inductive StaConnect where
  | ok
  | timeout
  | failed
  deriving DecidableEq, Repr

/-- **`connect_task`**, when `wifi_mgr_sta_connect` returns; that the configuration is stored is not
    checked. -/
def connectTask (o : Outside) (rc : StaConnect) (p : Portal κ) : Portal κ :=
  let p := { p with tasks := p.tasks - 1 }
  if rc = .ok then
    { p with
      server := ({ p.server with cfg := set p.pending .provisioned [1] }.saveCfg o).1
      state := .connected
      done := true }
  else
    { p with
      detail := fitBytes 96
        (ascii (if rc = .timeout then "Wi-Fi timed out" else "Wi-Fi association failed"))
      state := .failed }

def ProvState.name : ProvState → String
  | .idle => "idle"
  | .connecting => "connecting"
  | .connected => "connected"
  | .failed => "failed"

/-- `h_status`, with the address of the station. -/
def hStatus (ip : List UInt8) (p : Portal κ) : Reply :=
  sendJson
    (fitBytes 192 (ascii "\x7b\"state\":\"" ++ ascii p.state.name ++ ascii "\",\"ip\":\"" ++ ip ++
    ascii "\",\"detail\":\"" ++ p.detail ++ ascii "\"\x7d"))

end NutBluetti.Web
