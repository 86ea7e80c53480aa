/-
  File:      NutBluetti/Pve/ApiCalls.lean
  Subject:   THE CALLS ON ONE HOST (pve_shutdown.c): the connection test, the guest listing, the
             self-test, and, from `Shutdown`, the worker's `run_host`.

  They share one client, `tls_request`, and so one list of attempts. The JSON parser is not in the
  repository: `parse` is what it makes of a reply, and the lookups here are cJSON's.

  * `pveShutdownTest` -- trusts the first certificate it sees, then asks for version and
    permissions;
  * `pveShutdownListGuests` -- the guests of a host as a JSON array;
  * `selftestSlot` -- one slot of one pass of `selftest_task`;
  * `perform`, `performAll` -- a call, and a sequence of calls, on one host.
-/
import NutBluetti.Pve.Shutdown

namespace NutBluetti.Pve

open CText

/-- `RESP_MAX` and `PVE_GUEST_RESP_MAX`. -/
def respMax : Nat := 2048
def pveGuestRespMax : Nat := 8192

/-! ## 1. Replies -/

/-- A parsed reply, a number as its `valueint`. -/
inductive Json where
  | null
  | bool (b : Bool)
  | num (valueint : Int)
  | str (s : String)
  | arr (items : List Json)
  | obj (fields : List (String × Json))

/-- `cJSON_GetObjectItem`: the first member of this name, upper and lower case alike. -/
def Json.getObjectItem : Json → String → Option Json
  | .obj fields, name =>
      (fields.find? fun f => f.1.toList.map Char.toLower == name.toList.map Char.toLower).map
        Prod.snd
  | _, _ => none

/-- `has_priv`. -/
def hasPriv (data : Json) (path priv : String) : Bool :=
  match (data.getObjectItem path).bind fun p => p.getObjectItem priv with
  | some (.num v) => v != 0
  | some (.bool b) => b
  | _ => false

/-- `fp_pretty`: the digits in pairs with colons between. -/
def fpPretty (hex : String) : String :=
  let rec pairs : List Char → List Char
    | a :: b :: c :: rest => a :: b :: ':' :: pairs (c :: rest)
    | rest => rest
  String.ofList (pairs (hex.toList.take 64))

/-! ## 2. The connection test -/

/-- What the caller of `pve_shutdown_test` gets: the result, `msg` and `seen_fp`. -/
structure TestReport where
  ret : Int
  msg : String
  seenFp : String

/-- How far the first request of `pve_shutdown_test` got. -/
structure Contact where
  host : PveHost
  trustedNow : Bool
  seenFp : String
  result : TlsResult

/-- `pve_shutdown_test` up to the reply to `/version`. With nothing trusted yet (status 0) the first
    connection only shows its certificate; that one is stored, and the request goes out on a second
    connection, checked against it. -/
def firstContact (h : PveHost) (w : World) : Contact × World :=
  let (r, w) := w.request h "/version" none respMax 80 "" ""
  if r.status = 0 then
    let h := { h with fingerprint := fit 65 r.seenFp }
    let (r', w) := w.request h "/version" none respMax 80 r.resp r.err
    (⟨h, true, fpPretty r.seenFp, r'⟩, w)
  else (⟨h, false, "", r⟩, w)

section Test

variable (parse : String → Option Json)

/-- `ver`: the version the reply names, or "?". -/
def versionOf (resp : String) : String :=
  match ((parse resp).bind fun j => j.getObjectItem "data").bind fun d =>
      d.getObjectItem "version" with
  | some (.str v) => fit 24 v
  | _ => "?"

/-- `node_ok`. -/
def nodeOk (h : PveHost) (d : Json) : Bool :=
  !h.shutdownNode || hasPriv d "/" "Sys.PowerMgmt" || hasPriv d "/nodes" "Sys.PowerMgmt" ||
    hasPriv d (fit 48 ("/nodes/" ++ h.node)) "Sys.PowerMgmt"

/-- `guests_missing`. -/
def guestsMissing (guests : List PveGuest) (d : Json) : Nat :=
  guests.countP fun g =>
    !hasPriv d "/" "VM.PowerMgmt" && !hasPriv d "/vms" "VM.PowerMgmt" &&
      !hasPriv d (fit 24 ("/vms/" ++ toString g.id)) "VM.PowerMgmt"

/-- What `pve_shutdown_test` makes of the reply to `/access/permissions`. -/
def permissionsReport (h : PveHost) (guests : List PveGuest) (trustedNow : Bool) (ver : String)
    (r : TlsResult) : Int × String :=
  if r.status ≠ 200 then
    (1, "PVE " ++ ver ++ " reachable, but /access/permissions: HTTP " ++ toString r.status)
  else
    match (parse r.resp).bind fun j => j.getObjectItem "data" with
    | none =>
        (1, "PVE " ++ ver ++ " reachable, permissions reply unreadable " ++
          "(too long? the token should carry one role)")
    | some d =>
        let missing := guestsMissing guests d ≠ 0
        if nodeOk h d ∧ ¬ missing then
          (0, "PVE " ++ ver ++ ": Sys.PowerMgmt ok" ++
            if guests ≠ [] then ", VM.PowerMgmt ok for the guests" else "")
        else
          (1, (if trustedNow then "Certificate trusted. " else "") ++ "PVE " ++ ver ++
            " reachable, but " ++
            (if nodeOk h d then "" else "Sys.PowerMgmt not confirmed on /nodes") ++
            (if ¬ nodeOk h d ∧ missing then "; " else "") ++
            (if missing then "VM.PowerMgmt missing for some guests" else ""))

/-- **`pve_shutdown_test`**; `respOk` is its `malloc`. -/
def pveShutdownTest (h : PveHost) (guests : List PveGuest) (msgSz : Nat) (respOk : Bool)
    (w : World) : PveHost × TestReport × World :=
  if !respOk then (h, ⟨-1, fit msgSz "out of memory", ""⟩, w)
  else
    let (c, w) := firstContact h w
    if c.result.status ≠ 200 then
      (c.host, ⟨-1, fit msgSz ((if c.trustedNow then "Certificate trusted. " else "") ++
        "GET /version: " ++ describe c.result.status c.result.err 80), c.seenFp⟩, w)
    else
      let ver := versionOf parse c.result.resp
      let (r, w) := w.request c.host "/access/permissions" none respMax 80 c.result.resp
        c.result.err
      let (ret, msg) := permissionsReport parse c.host guests c.trustedNow ver r
      (c.host, ⟨ret, fit msgSz msg, c.seenFp⟩, w)

/-! ## 3. The guest listing -/

/-- A guest's name as `list_kind` copies it: 38 bytes at most, and nothing that JSON would need to
    escape. -/
def listedName : Option Json → String
  | some (.str s) =>
      String.ofList ((s.toList.take 38).map fun c =>
        if c.toNat = 0x22 ∨ c.toNat = 0x5c ∨ c.toNat < 0x20 then '_' else c)
  | _ => ""

/-- `cJSON_IsString (st) ? st->valuestring : ""`. -/
def textOf : Option Json → String
  | some (.str s) => s
  | _ => ""

/-- The loop of `list_kind` over the guests: the array so far, whether it is empty, and the
    count. -/
def listLoop (kind : String) (outSz : Nat) : List Json → String × Bool × Nat → String × Bool × Nat
  | [], acc => acc
  | g :: gs, (out, first, n) =>
      match g.getObjectItem "vmid" with
      | some (.num id) =>
          let item := (if first then "" else ",") ++ "\x7b\"id\":" ++ toString id ++
            ",\"name\":\"" ++ listedName (g.getObjectItem "name") ++ "\",\"type\":\"" ++ kind ++
            "\",\"status\":\"" ++ textOf (g.getObjectItem "status") ++ "\"\x7d"
          -- no room for this one: the list ends here
          if item.length ≥ outSz - out.length then (out, first, n)
          else listLoop kind outSz gs (out ++ item, false, n + 1)
      | _ => listLoop kind outSz gs (out, first, n)

/-- `list_kind`; `respOk` is its `malloc`. -/
def listKind (h : PveHost) (kind : String) (outSz errSz : Nat) (respOk : Bool) (out : String)
    (first : Bool) (err : String) (w : World) : Except String (String × Bool × Nat) × World :=
  if !respOk then (.error (fit errSz "out of memory"), w)
  else
    let path := fit 64 ("/nodes/" ++ h.node ++ "/" ++ kind)
    let (r, w) := w.request h path none pveGuestRespMax errSz "" err
    if r.status ≠ 200 then
      (.error (fit errSz ("GET " ++ path ++ ": " ++ describe r.status r.err 80)), w)
    else
      match (parse r.resp).bind fun j => j.getObjectItem "data" with
      | some (.arr items) => (.ok (listLoop kind outSz items (out, first, 0)), w)
      | _ =>
          (.error (fit errSz ("GET " ++ path ++
            ": reply unreadable (too many guests for this buffer?)")), w)

/-- **`pve_shutdown_list_guests`**: the array and the count, or why there is none. The buffer has
    room for the brackets (`json_sz > 3`; the one caller passes 4096). -/
def pveShutdownListGuests (h : PveHost) (jsonSz errSz : Nat) (qemuOk lxcOk : Bool) (err : String)
    (w : World) : Except String (String × Nat) × World :=
  if h.fingerprint = "" then (.error (fit errSz "pin the certificate first (Test)"), w)
  else
    match listKind parse h "qemu" (jsonSz - 2) errSz qemuOk "[" true err w with
    | (.error why, w) => (.error why, w)
    | (.ok (out, first, a), w) =>
        match listKind parse h "lxc" (jsonSz - 2) errSz lxcOk out first err w with
        | (.error why, w) => (.error why, w)
        | (.ok (out, _, b), w) => (.ok (out ++ "]", a + b), w)

/-! ## 4. The self-test -/

/-- What `selftest_task` reads besides the configuration: at the start of the pass, and again before
    the slot. -/
structure SelftestLook where
  selftestHours : UInt16
  onBattery : Bool
  nowUs : Int
  onBatteryNow : Bool
  lastTestUs : Int

/-- The slot is tested in this pass: pinned, in use, not during an outage, and its interval is
    over. -/
def selftestDue (cfg : PveConfig) (i : HostIx) (look : SelftestLook) : Bool :=
  let hc := cfg.hosts i
  let intervalUs : Int := look.selftestHours.toNat * 3600 * 1000000
  cfg.enabled && look.selftestHours != 0 && !look.onBattery &&
    hc.enabled && hc.url != "" && hc.fingerprint != "" && !look.onBatteryNow &&
    !(look.lastTestUs != 0 && decide (look.nowUs - look.lastTestUs < intervalUs))

/-- One slot of a pass of `selftest_task`. The test works on a copy of the host; `copyOk` is the
    `malloc` of the copy of its guests. -/
def selftestSlot (cfg : PveConfig) (guests : GuestLists) (i : HostIx) (look : SelftestLook)
    (copyOk respOk : Bool) (w : World) : World :=
  if selftestDue cfg i look then
    let guests := if copyOk then guests i else []
    let (_, report, w) := pveShutdownTest parse (cfg.hosts i) guests 200 respOk w
    w.note (.host i (report.ret == 0) report.msg)
  else w

/-! ## 5. Calls on one host -/

/-- A call that may open connections to a host; the configuration of a self-test or of the worker is
    the one with this host in slot `i`. -/
inductive ApiCall where
  | test (guests : List PveGuest) (msgSz : Nat) (respOk : Bool)
  | listGuests (jsonSz errSz : Nat) (qemuOk lxcOk : Bool) (err : String)
  | selftest (i : HostIx) (cfg : PveConfig) (guests : GuestLists) (look : SelftestLook)
      (copyOk respOk : Bool)
  | worker (i : HostIx) (cfg : PveConfig) (nodePending : Bool) (batch : List PendingGuest)
      (nodeReason : String)

def ApiCall.isTest : ApiCall → Bool
  | .test .. => true
  | _ => false

/-- The configuration with the host in its slot. -/
def PveConfig.withHost (cfg : PveConfig) (i : HostIx) (h : PveHost) : PveConfig :=
  { cfg with hosts := Function.update cfg.hosts i h }

/-- One call on a host. Only `pve_shutdown_test` is given the host itself. -/
def perform : ApiCall → PveHost × World → PveHost × World
  | .test guests msgSz respOk, (h, w) =>
      let (h, _, w) := pveShutdownTest parse h guests msgSz respOk w
      (h, w)
  | .listGuests jsonSz errSz qemuOk lxcOk err, (h, w) =>
      (h, (pveShutdownListGuests parse h jsonSz errSz qemuOk lxcOk err w).2)
  | .selftest i cfg guests look copyOk respOk, (h, w) =>
      (h, selftestSlot parse (cfg.withHost i h) guests i look copyOk respOk w)
  | .worker i cfg nodePending batch nodeReason, (h, w) =>
      (h, runHost i (cfg.withHost i h) nodePending batch nodeReason w)

/-- A sequence of calls on a host. -/
def performAll (calls : List ApiCall) (s : PveHost × World) : PveHost × World :=
  calls.foldl (fun s c => perform parse c s) s

end Test

end NutBluetti.Pve
