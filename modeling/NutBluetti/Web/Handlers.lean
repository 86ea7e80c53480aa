/-
  File:      NutBluetti/Web/Handlers.lean
  Subject:   THE HANDLERS OF THE ADMIN PAGE (provisioning.c), but for the settings form
             (Settings.lean) and the updates (Update.lean).

  A handler that starts with `REQUIRE_AUTH` is `requireAuth` of the rest of it.
-/
import NutBluetti.Web.Update

namespace NutBluetti.Web

open CLayout
open NutBluetti.Config

variable {κ : Type}

/-- A member that is a string. -/
def text (cfg : Image) (f : AppField) : List UInt8 := cstr (cfg.read f.span)

/-! ## 1. Handlers that anyone may call -/

/-- `h_admin_root`: the page, or the login form. -/
def hAdminRoot : Handler κ := fun o r s =>
  let (ok, s) := authOk o r s
  (⟨.ok, "text/html", [("Cache-Control", ascii "no-store")], if ok then o.adminHtml
    else o.loginHtml⟩, s)

/-- **`h_login`**. -/
def hLogin : Handler κ := fun o r s =>
  withBody o r 1 512 true s fun body =>
    let user := formText body "user" 40
    let pass := formText body "pass" 80
    if user = text s.cfg .authUser ∧ appConfigCheckPassword o.sha256 s.cfg pass then
      let cookie := ascii "sid=" ++ o.token.chars ++
        ascii "; Path=/; HttpOnly; SameSite=Strict; Max-Age=28800"
      (⟨.ok, "text/html", [("Set-Cookie", cookie)], ascii "ok"⟩,
        { s with sessions := sessionNew s.sessions o.token o.nowUs })
    else (⟨.unauthorized, "text/plain", [], ascii "Wrong username or password"⟩, s)

/-- `h_logout`, with `session_drop`. -/
def hLogout : Handler κ := fun _ r s =>
  let sessions := match cookieToken r.cookie with
    | none => s.sessions
    | some tok => dropToken s.sessions tok
  (⟨.ok, "text/html",
      [("Set-Cookie", ascii "sid=; Path=/; HttpOnly; SameSite=Strict; Max-Age=0")], ascii "ok"⟩,
    { s with sessions := sessions })

/-- `h_hostname`. -/
def hHostname : Handler κ := fun _ _ s => (⟨.ok, "text/plain", [], text s.cfg .hostname⟩, s)

/-! ## 2. Pages that report -/

/-- A page that is printed into a buffer on the heap: `h_admin_status`, `h_admin_config`. -/
def heapPage : Handler κ := fun o _ s =>
  if !o.alloc 0 then (send500, s) else (sendJson (o.page.getD []), s)

/-- `h_admin_status`. -/
def hAdminStatus : Handler κ := requireAuth heapPage

/-- `h_admin_config`. -/
def hAdminConfig : Handler κ := requireAuth heapPage

/-- `h_controls_get`. -/
def hControlsGet : Handler κ := requireAuth fun o _ s =>
  match o.page with
  | none => (send500, s)
  | some json => (sendJson json, s)

/-- The query, as much of it as fits in a buffer. -/
def queryText (r : Request) (sz : Nat) : List UInt8 := fitBytes sz (r.query.getD [])

/-- The text after the first place where a word stands (`strstr`). -/
def afterWord (word : List UInt8) : List UInt8 → Option (List UInt8)
  | [] => none
  | c :: rest =>
      if word.isPrefixOf (c :: rest) then some ((c :: rest).drop word.length)
        else afterWord word rest

/-- `strtoull`: blanks, a sign, digits; it stops at the largest value. -/
def strtoull (s : List UInt8) : Nat :=
  let s := s.dropWhile isSpace
  let (neg, ds) := match s with
    | c :: rest => if c = chr '-' then (true, rest) else if c = chr '+' then (false, rest)
        else (false, s)
    | [] => (false, [])
  let n := decimal (ds.takeWhile isDigit)
  if 2 ^ 64 ≤ n then 2 ^ 64 - 1 else if neg then (2 ^ 64 - n) % 2 ^ 64 else n

/-- `h_admin_logs`. -/
def hAdminLogs : Handler κ := requireAuth fun o r s =>
  let from_ := match afterWord (ascii "from=") (queryText r 40) with
    | none => 0
    | some p => strtoull p
  if !o.alloc 0 then (send500, s)
  else
    let (log, next) := o.logRing from_
    (⟨.ok, "text/plain", [("X-Log-Next", decInt next), ("Cache-Control", ascii "no-store")], log⟩,
      s)

/-- The entries of a list in a JSON text, as long as the text is short of 1900 bytes. -/
def listJson : List UInt8 → Bool → List (List UInt8) → List UInt8
  | out, _, [] => out
  | out, first, e :: es =>
      if out.length < 1900 then listJson (out ++ (if first then [] else ascii ",") ++ e) false es
        else out

def scanEntryJson (e : ScanEntry) : List UInt8 :=
  ascii "\x7b\"addr\":\"" ++ e.addr ++ ascii "\",\"name\":\"" ++ e.name ++ ascii "\",\"rssi\":" ++
    decInt e.rssi ++ ascii ",\"bluetti\":" ++ jsonBool e.looksLikeBluetti ++ ascii "\x7d"

/-- `h_ble_scan`: a bare GET starts a scan, `?poll=1` only reports. -/
def hBleScan : Handler κ := requireAuth fun o r s =>
  let pollOnly := (afterWord (ascii "poll=1") (queryText r 16)).isSome
  let start := !pollOnly && !o.bleScanning
  let s := if start then { s with bleFound := [] }.call (.bleScan 7000) else s
  if !o.alloc 0 then (send500, s)
  else
    let head := ascii "\x7b\"scanning\":" ++ jsonBool (o.bleScanning || start) ++
      ascii ",\"devices\":["
    (sendJson (listJson head true (s.bleFound.map scanEntryJson) ++ ascii "]\x7d"), s)

def wifiEntryJson (e : List UInt8 × Int × Bool) : List UInt8 :=
  ascii "\x7b\"ssid\":\"" ++ e.1 ++ ascii "\",\"rssi\":" ++ decInt e.2.1 ++ ascii ",\"lock\":" ++
    jsonBool e.2.2 ++ ascii "\x7d"

/-- `h_wifi_scan`. -/
def hWifiScan : Handler κ := requireAuth fun o _ s =>
  let s := s.call .wifiScan
  if !o.alloc 0 then (send500, s)
  else
    (sendJson (listJson (ascii "\x7b\"aps\":[") true (o.wifiFound.map wifiEntryJson) ++
      ascii "]\x7d"), s)

/-! ## 3. Switches -/

/-- `v[0] == '1' || v[0] == 't'`. -/
def isOn (v : List UInt8) : Bool := v.head? = some (chr '1') || v.head? = some (chr 't')

/-- The pin in `h_led_toggle`: nothing posted, one out of range, or a pin. -/
def ledPin (body : List UInt8) : Except Reply (Option Int) :=
  let v := formText body "gpio" 8
  if v = [] then .ok none
  else if atoi v < -1 ∨ 48 < atoi v then .error (badRequest "gpio out of range")
  else .ok (some (atoi v))

/-- `h_led_toggle`. -/
def hLedToggle : Handler κ := requireAuth fun o r s =>
  withBody o r 1 48 false s fun body =>
    match ledPin body with
    | .error reply => (reply, s)
    | .ok gpio =>
        let s := match gpio with
          | none => s
          | some n => { s with cfg := set s.cfg .ledGpio (le16 (UInt16.ofInt n)) }.call
              (.ledReinit n)
        let v := formText body "on" 8
        let s := if v = [] then s
          else { s with cfg := set s.cfg .ledEnabled [boolByte (isOn v)] }.call
            (.ledEnable (isOn v))
        let s := if gpio.isSome ∨ v ≠ [] then (s.saveCfg o).1 else s
        let test := isOn (formText body "test" 8)
        -- the test comes last, on whatever pin the request just set
        let s := if test then s.call .ledIdentify else s
        if test && !o.ledIdentify then (sendJson (ascii "\x7b\"tested\":false\x7d"), s)
        else
          (sendJson (ascii "\x7b\"led\":" ++ jsonBool o.ledEnabled ++ ascii ",\"led_gpio\":" ++
            decInt o.ledGpio ++ ascii "\x7d"), s)

/-- `h_controls_enable`. -/
def hControlsEnable : Handler κ := requireAuth fun o r s =>
  withBody o r 1 31 false s fun body =>
    let v := formText body "enable" 8
    if v = [] then (badRequest "missing 'enable'", s)
    else
      let s := ({ s with cfg := set s.cfg .controlsEnabled [boolByte (isOn v)] }.saveCfg o).1
      (sendJson (ascii "\x7b\"enabled\":" ++ jsonBool (isOn v) ++ ascii "\x7d"),
        { s with ble := Ble.bluettiBleSetControls s.ble (isOn v) })

/-- `h_loglevel_set`. -/
def hLoglevelSet : Handler κ := requireAuth fun o r s =>
  withBody o r 1 31 false s fun body =>
    let v := formText body "level" 8
    let lvl := atoi v
    if v = [] then (badRequest "missing 'level'", s)
    else if lvl < 0 ∨ 2 < lvl then (badRequest "level 0..2", s)
    else
      let s := ({ s with cfg := set s.cfg .logLevel [UInt8.ofNat lvl.toNat] }.saveCfg o).1
      (sendJson (ascii "\x7b\"log_level\":" ++ decInt lvl ++ ascii "\x7d"),
        (s.call (.logLevel (decide (lvl ≠ 0)))).call (.bleVerbose (decide (2 ≤ lvl))))

/-- A string as the control table spells it: one character for a byte. -/
def asString (s : List UInt8) : String := String.ofList (s.map fun c => Char.ofNat c.toNat)

/-- `h_control_set`. -/
def hControlSet : Handler κ := requireAuth fun o r s =>
  withBody o r 1 64 false s fun body =>
    let field := formText body "field" 24
    let val := formText body "value" 8
    if field = [] ∨ val = [] then (badRequest "field and value", s)
    else if !val.all isDigit then (badRequest "value", s)
    else
      let (queued, ble) := Ble.bluettiBleWriteControl s.ble (asString field) (atoi val)
      let s := { s with ble := ble }
      if !queued then (badRequest "not available, disabled, or bad value", s)
      else (sendJson (ascii "\x7b\"queued\":true\x7d"), s)

/-! ## 4. Restarts, and the test message -/

/-- `h_admin_reboot`. -/
def hAdminReboot : Handler κ := requireAuth fun _ _ s =>
  (sendJson (ascii "\x7b\"ok\":true\x7d"), s.call (.rebootTask 900))

/-- `h_factory_reset`. -/
def hFactoryReset : Handler κ := requireAuth fun o _ s =>
  (sendStr "\x7b\"ok\":true\x7d", (s.erase o).call .restart)

/-- `telegram_post`, as far as it decides whether Telegram is asked. -/
def notifySendTest (o : Outside) (token chat : List UInt8) (s : Server κ) :
    Except (List UInt8) Unit × Server κ :=
  if token = [] ∨ chat = [] then (.error (ascii "bot token and chat id are required"), s)
  else
    (o.notifyTest.result,
      s.ask (ascii "https://api.telegram.org/bot" ++ token ++ ascii "/sendMessage") o.notifyTest)

/-- The posted value where there is one, else the stored one, in a buffer of `sz` bytes. -/
def postedOr (body : List UInt8) (key : String) (stored : List UInt8) (sz : Nat) : List UInt8 :=
  let v := formText body key 128
  fitBytes sz (if v = [] then stored else v)

/-- `h_notify_test`. -/
def hNotifyTest : Handler κ := requireAuth fun o r s =>
  withBody o r 0 1024 true s fun body =>
    let token := postedOr body "tg_token" (text s.cfg .tgToken) 64
    let chat := postedOr body "tg_chat" (text s.cfg .tgChat) 24
    match notifySendTest o token chat s with
    | (.error err, s) => (sendErr .badRequest (if err = [] then ascii "send failed" else err), s)
    | (.ok (), s) => (sendJson (ascii "\x7b\"ok\":true\x7d"), s)

end NutBluetti.Web
