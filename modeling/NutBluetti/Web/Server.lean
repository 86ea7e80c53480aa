/-
  File:      NutBluetti/Web/Server.lean
  Subject:   THE ADMIN SERVER (provisioning.c): a request, the outside of a handler, the state the
             handlers work on, and the check they make first.

  A handler is a function of the request, of what the outside does during it (`Outside`), and of the
  state; it gives the reply and the new state. Calls into modules that are not part of the state are
  recorded in `calls`, in order, and so is every request to another host.
-/
import NutBluetti.Ble.Poll
import NutBluetti.Config.Load
import NutBluetti.Config.Secrets
import NutBluetti.Pve.Types
import NutBluetti.Web.Sessions

namespace NutBluetti.Web

open CLayout
open NutBluetti.Config
open NutBluetti.Pve (PveGuest HostIx)

/-! ## 1. Requests and replies -/

inductive Method where
  | get
  | post
  deriving DecidableEq, Repr

/-- What one call of `httpd_req_recv` does. -/
inductive Recv where
  | data (bytes : List UInt8)
  | timeout
  | closed
  deriving DecidableEq, Repr

/-- `httpd_req_t`: the path, the query if there is one, the two headers that are looked at, the
    length announced for the body and what the calls that receive it do. -/
structure Request where
  method : Method
  path : String
  query : Option (List UInt8)
  cookie : Option (List UInt8)
  confirm : Option (List UInt8)
  contentLen : Nat
  recv : List Recv

inductive Status where
  | ok
  | badRequest
  | unauthorized
  | internalError
  deriving DecidableEq, Repr

structure Reply where
  status : Status
  contentType : String
  headers : List (String × List UInt8)
  body : List UInt8
  deriving DecidableEq, Repr

/-- `httpd_resp_send_err`. -/
def sendErr (status : Status) (msg : List UInt8) : Reply := ⟨status, "text/html", [], msg⟩

def badRequest (msg : String) : Reply := sendErr .badRequest (ascii msg)

/-- `httpd_resp_send_500`. -/
def send500 : Reply := sendErr .internalError (ascii "Server has encountered an unexpected error")

/-- `httpd_resp_sendstr`, with no type set. -/
def sendStr (s : String) : Reply := ⟨.ok, "text/html", [], ascii s⟩

/-- `send_json`. -/
def sendJson (json : List UInt8) : Reply :=
  ⟨.ok, "application/json", [("Cache-Control", ascii "no-store")], json⟩

/-- `send_401`. -/
def send401 : Reply := ⟨.unauthorized, "text/plain", [], ascii "Sign in required"⟩

/-- The loop that receives `left` bytes: `httpd_req_recv` gives no more than it is asked for, and
    anything but data ends it. -/
def recvLoop : Nat → List Recv → Option (List UInt8)
  | 0, _ => some []
  | left + 1, .data bytes :: rest =>
      let got := bytes.take (left + 1)
      if got = [] then none else (recvLoop (left + 1 - got.length) rest).map (got ++ ·)
  | _ + 1, _ => none

/-! ## 2. The outside -/

/-- How a write to NVS goes. -/
inductive NvsFault where
  | ok
  | openFails
  | noMemory
  | writeFails
  /-- The value may have reached the flash all the same. -/
  | commitFails (kept : Bool)
  deriving DecidableEq

/-- What is stored after a write, and whether it is reported to have worked. -/
def NvsFault.write {α : Type} (f : NvsFault) (old new : α) : α × Bool :=
  match f with
  | .ok => (new, true)
  | .commitFails kept => (if kept then new else old, false)
  | _ => (old, false)

/-- `ota_gh_release_t`. -/
structure Release where
  version : List UInt8
  newer : Bool
  deriving DecidableEq

/-- A function that asks another host: whether it gets as far as the request, and what it
    returns. -/
structure NetCall (α : Type) where
  sent : Bool
  result : α

/-- `pve_shutdown_test`: its code, the message, the fingerprint it trusted just now, and whether one
    is pinned after it. -/
structure PveTest where
  code : Int
  msg : List UInt8
  fp : List UInt8
  pinned : Bool

/-- What happens around a handler while it runs. -/
structure Outside where
  /-- `esp_timer_get_time`. -/
  nowUs : Int
  /-- The `n`-th allocation of the handler. -/
  alloc : Nat → Bool
  sha256 : List UInt8 → List UInt8
  /-- The random numbers: a salt, and the token they make. -/
  salt : List UInt8
  token : Token
  /-- `app_config_default_name`. -/
  defaultName : List UInt8
  /-- Writes to NVS: the configuration, and the rules of a host. -/
  saveCfg : NvsFault
  saveGuests : HostIx → NvsFault
  /-- `app_config_erase`: the rules, and the configuration. -/
  eraseGuests : NvsFault
  eraseCfg : NvsFault
  /-- The two pages that are built in. -/
  loginHtml : List UInt8
  adminHtml : List UInt8
  /-- What a page that only reports is printed from other modules, if it fits; `log_ring_read` from
      a position: the text, and the position after it. -/
  page : Option (List UInt8)
  logRing : Nat → List UInt8 × Nat
  /-- The owner and the name of the repository (Kconfig). -/
  ghOwner : List UInt8
  ghRepo : List UInt8
  /-- Whether there is an HTTPS client, and what GitHub's answer is read as. -/
  ghClient : Bool
  ghReleases : Except (List UInt8) (List Release)
  /-- `xSemaphoreCreateMutex` and `xTaskCreate` in ota_github.c. -/
  mutexOk : Bool
  taskOk : Bool
  /-- `esp_ota_*`: the other partition, `begin`, the `n`-th `write`, `end` (the error, and whether
      it is the image), and `esp_ota_set_boot_partition`. -/
  otaPartition : Option String
  otaBegin : Bool
  otaWrite : Nat → Bool
  otaEnd : Option Bool
  otaSetBoot : Bool
  /-- `led_status_identify`, and what the LED module says of itself. -/
  ledIdentify : Bool
  ledEnabled : Bool
  ledGpio : Int
  /-- `bluetti_ble_scanning`, and the networks `wifi_mgr_scan` finds: SSID, RSSI, whether it is
      locked. -/
  bleScanning : Bool
  wifiFound : List (List UInt8 × Int × Bool)
  /-- The tests against Telegram and Proxmox, and the list of a node's guests (or the error). -/
  notifyTest : NetCall (Except (List UInt8) Unit)
  pveTest : NetCall PveTest
  pveList : NetCall (Except (List UInt8) (List UInt8))

/-! ## 3. The state -/

/-- `notify_config_t`. -/
structure NotifyConfig where
  enabled : Bool
  botToken : List UInt8
  chatId : List UInt8
  onPower : Bool
  onLowBatt : Bool
  onLink : Bool
  onBatteryPct : Bool
  deriving DecidableEq

/-- A call out of this module. -/
inductive Call where
  | ledReinit (gpio : Int)
  | ledEnable (on : Bool)
  | ledIdentify
  | logLevel (info : Bool)
  | bleVerbose (on : Bool)
  | bleScan (ms : Nat)
  | wifiScan
  /-- `pve_shutdown_reconfigure`: the block, the hours, the rules. -/
  | pveReconfigure (pve hours : List UInt8) (guests : List (List PveGuest))
  | pveNoteTest (host : HostIx) (ok : Bool) (msg : List UInt8)
  | notifyReconfigure (cfg : NotifyConfig)
  | otaBegin (partition : String) (len : Nat)
  | otaAbort
  /-- The tasks that restart the unit, and a restart at once. -/
  | rebootTask (ms : Nat)
  | restart
  /-- A request to another host: the GitHub API, Telegram, Proxmox. -/
  | request (host : List UInt8)
  /-- The task that downloads a release. -/
  | downloadTask (version : List UInt8)
  deriving DecidableEq

/-- Another host is asked for something. -/
def Call.isOutbound : Call → Bool
  | .request _ => true
  | .downloadTask _ => true
  | _ => false

/-- `ota_gh_state_t`. -/
inductive OtaGhState where
  | idle
  | running
  | done
  | failed
  deriving DecidableEq, Repr

/-- The static `G` of ota_github.c. -/
structure OtaGh where
  state : OtaGhState
  pct : Int
  msg : List UInt8
  version : List UInt8
  /-- `lock` was created. -/
  lock : Bool
  deriving DecidableEq

/-- `bluetti_scan_entry_t`. -/
structure ScanEntry where
  addr : List UInt8
  name : List UInt8
  rssi : Int
  looksLikeBluetti : Bool

/-- The static `P` and `S`, what is in NVS, and the state of the modules the handlers change. -/
structure Server (κ : Type) where
  /-- `*P.cfg`, which `provisioning_admin_start` sets. -/
  cfg : Image
  bleFound : List ScanEntry
  sessions : Sessions
  /-- The blob of the configuration, and the rules of each host. -/
  stored : Option (List UInt8)
  storedGuests : HostIx → List PveGuest
  ble : Ble.BluettiBle κ
  ota : OtaGh
  /-- The partition the unit boots from. -/
  boot : String
  calls : List Call

section

variable {κ : Type}

def Server.call (s : Server κ) (c : Call) : Server κ := { s with calls := s.calls ++ [c] }

/-- A request to another host, where it gets that far. -/
def Server.ask {α : Type} (s : Server κ) (host : List UInt8) (n : NetCall α) : Server κ :=
  if n.sent then s.call (.request host) else s

/-- The requests to other hosts. -/
def Server.outbound (s : Server κ) : List Call := s.calls.filter Call.isOutbound

/-- `app_config_save (P.cfg)`: whether it worked. -/
def Server.saveCfg (s : Server κ) (o : Outside) : Server κ × Bool :=
  let (stored, ok) := o.saveCfg.write s.stored (some (appConfigSave s.cfg))
  ({ s with stored := stored }, ok)

/-- `app_config_erase`. -/
def Server.erase (s : Server κ) (o : Outside) : Server κ :=
  { s with
    storedGuests := (o.eraseGuests.write s.storedGuests fun _ => []).1
    stored := (o.eraseCfg.write s.stored none).1 }

/-- A handler. -/
abbrev Handler (κ : Type) := Outside → Request → Server κ → Reply × Server κ

/-- The block most handlers start with: the length of the body, the buffer for it (on the heap or
    not), the loop that receives it. -/
def readBody (o : Outside) (r : Request) (minLen maxLen : Nat) (heap : Bool) :
    Except Reply (List UInt8) :=
  if r.contentLen < minLen ∨ maxLen < r.contentLen then .error (badRequest "bad body")
  else if heap && !o.alloc 0 then .error send500
  else
    match recvLoop r.contentLen r.recv with
    | none => .error send500
    | some body => .ok body

/-- A handler that goes on with the body, or ends with the reply of that block. -/
def withBody (o : Outside) (r : Request) (minLen maxLen : Nat) (heap : Bool) (s : Server κ)
    (k : List UInt8 → Reply × Server κ) : Reply × Server κ :=
  match readBody o r minLen maxLen heap with
  | .error reply => (reply, s)
  | .ok body => k body

/-! ## 4. Who is signed in -/

/-- **`auth_ok`**. -/
def authOk (o : Outside) (r : Request) (s : Server κ) : Bool × Server κ :=
  -- not configured yet
  if !flag s.cfg .authSet then (true, s)
  else
    match cookieToken r.cookie with
    | none => (false, s)
    | some tok =>
        let (ok, sessions) := authSlot s.sessions tok o.nowUs
        (ok, { s with sessions := sessions })

/-- **`REQUIRE_AUTH`**, and the rest of the handler after it. -/
def requireAuth (h : Handler κ) : Handler κ := fun o r s =>
  let (ok, s) := authOk o r s
  if !ok then (send401, s) else h o r s

end

end NutBluetti.Web
