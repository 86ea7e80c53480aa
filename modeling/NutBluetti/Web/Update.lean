/-
  File:      NutBluetti/Web/Update.lean
  Subject:   FIRMWARE UPDATES (ota_github.c, provisioning.c): `ota_gh_check`, `ota_gh_start`,
             `ota_gh_status`, the three handlers on them, and the upload.

  The check for a session stands in front of the upload only.
-/
import NutBluetti.Web.Server

namespace NutBluetti.Web

open NutBluetti.Config

variable {κ : Type}

/-! ## 1. ota_github.c -/

def otaGhMaxReleases : Nat := 10

/-- `snprintf` of an `int` with `%d`. -/
def decInt (n : Int) : List UInt8 := ascii (toString n)

/-- The URL that `ota_gh_check` opens. -/
def releasesUrl (o : Outside) : List UInt8 :=
  ascii "https://api.github.com/repos/" ++ o.ghOwner ++ ascii "/" ++ o.ghRepo ++
    ascii "/releases?per_page=" ++ decInt otaGhMaxReleases

/-- `ota_gh_check`: the releases, or why there are none. -/
def otaGhCheck (o : Outside) (s : Server κ) : Except (List UInt8) (List Release) × Server κ :=
  if !o.ghClient then (.error (ascii "could not start the HTTPS client"), s)
  else (o.ghReleases, s.call (.request (releasesUrl o)))

/-- `set_fail`. -/
def OtaGh.setFail (g : OtaGh) (why : String) : OtaGh :=
  { g with state := .failed, msg := ascii why }

/-- **`ota_gh_start`**: whether the task was started. -/
def otaGhStart (o : Outside) (version : List UInt8) (s : Server κ) : Bool × Server κ :=
  if !s.ota.lock && !o.mutexOk then (false, s)
  else
    let s := { s with ota := { s.ota with lock := true } }
    if s.ota.state = .running then (false, s)
    else
      let ota : OtaGh :=
        { s.ota with
          version := fitBytes 16 version
          state := .running
          pct := -1
          msg := ascii "starting" }
      if !o.taskOk then
        (false, { s with ota := ota.setFail "could not start the update task" })
      else (true, { s with ota := ota }.call (.downloadTask ota.version))

/-- `ota_gh_status`. -/
def otaGhStatus (g : OtaGh) : OtaGhState × Int × List UInt8 :=
  if !g.lock then (.idle, -1, []) else (g.state, g.pct, g.msg)

/-! ## 2. The page's requests -/

def jsonBool (b : Bool) : List UInt8 := if b then ascii "true" else ascii "false"

/-- The entries of a JSON array, with commas between them. -/
def commaSep : List (List UInt8) → List UInt8
  | [] => []
  | [e] => e
  | e :: es => e ++ ascii "," ++ commaSep es

def releaseJson (r : Release) : List UInt8 :=
  ascii "\x7b\"version\":\"" ++ r.version ++ ascii "\",\"newer\":" ++ jsonBool r.newer ++
    ascii "\x7d"

/-- `httpd_resp_send` of a JSON text that may be cached. -/
def sendJsonCached (json : List UInt8) : Reply := ⟨.ok, "application/json", [], json⟩

/-- **`h_update_check`**: it makes no check of its own. -/
def hUpdateCheck : Handler κ := fun o _ s =>
  let (res, s) := otaGhCheck o s
  let out := match res with
    | .error err => ascii "\x7b\"error\":\"" ++ err ++ ascii "\"\x7d"
    | .ok rels => ascii "\x7b\"releases\":[" ++ commaSep (rels.map releaseJson) ++ ascii "]\x7d"
  (sendJsonCached out, s)

/-- The confirmation of both ways to flash: the header, as much of it as fits. -/
def confirmed (r : Request) : Bool :=
  decide (fitBytes 16 (r.confirm.getD []) = ascii "FLASH")

/-- **`h_update_install`**: nor does this. -/
def hUpdateInstall : Handler κ := fun o r s =>
  if !confirmed r then (badRequest "confirm required", s)
  else
    withBody o r 1 128 true s fun body =>
      let v := formText body "version" 16
      if v = [] then (badRequest "no version", s)
      -- this goes straight into a download URL
      else if !(v.all fun c => isDigit c || c = chr '.') then (badRequest "bad version", s)
      else
        let (started, s) := otaGhStart o v s
        if !started then (sendErr .internalError (ascii "an update is already running"), s)
        else (sendStr "ok", s)

def OtaGhState.name : OtaGhState → String
  | .idle => "idle"
  | .running => "running"
  | .done => "done"
  | .failed => "failed"

/-- **`h_update_status`**: nor does this. -/
def hUpdateStatus : Handler κ := fun _ _ s =>
  let (state, pct, msg) := otaGhStatus s.ota
  (sendJsonCached
    (ascii "\x7b\"state\":\"" ++ ascii state.name ++ ascii "\",\"pct\":" ++ decInt pct ++
    ascii ",\"msg\":\"" ++ msg ++ ascii "\"\x7d"), s)

/-! ## 3. The upload -/

/-- The loop of `h_ota`, with `left` bytes to come and the `n`-th write next: whether all of them
    were received and written. Seven waits in a row without data end it. -/
def otaLoop (write : Nat → Bool) : Nat → Nat → Nat → List Recv → Bool
  | _, _, 0, _ => true
  | stalls, n, left + 1, .timeout :: rest =>
      if stalls + 1 > 6 then false else otaLoop write (stalls + 1) n (left + 1) rest
  | _, n, left + 1, .data bytes :: rest =>
      let got := bytes.take (min (left + 1) 4096)
      if got = [] then false
      else if !write n then false
      else otaLoop write 0 (n + 1) (left + 1 - got.length) rest
  | _, _, _ + 1, _ => false

/-- `h_ota` after the check. -/
def otaUpload : Handler κ := fun o r s =>
  if !confirmed r then (badRequest "confirm required", s)
  else if r.contentLen < 4096 ∨ 4 * 1024 * 1024 < r.contentLen then
    (badRequest "implausible size", s)
  else
    match o.otaPartition with
    | none => (sendErr .internalError (ascii "no OTA partition"), s)
    | some tgt =>
        let s := s.call (.otaBegin tgt r.contentLen)
        if !o.otaBegin then (sendErr .internalError (ascii "ota_begin failed"), s)
        else if !o.alloc 0 then (send500, s.call .otaAbort)
        else if !otaLoop o.otaWrite 0 0 r.contentLen r.recv then
          (sendErr .internalError (ascii "transfer failed"), s.call .otaAbort)
        else
          match o.otaEnd with
          | some invalid =>
              (badRequest (if invalid then "image invalid" else "ota_end failed"), s)
          | none =>
              if !o.otaSetBoot then (sendErr .internalError (ascii "set_boot failed"), s)
              else
                (sendJson (ascii "\x7b\"ok\":true\x7d"),
                  { s with boot := tgt }.call (.rebootTask 1200))

/-- **`h_ota`**. -/
def hOta : Handler κ := requireAuth otaUpload

end NutBluetti.Web
