/-
  File:      NutBluetti/Web/Settings.lean
  Subject:   THE SETTINGS FORM (provisioning.c): `h_admin_reconfigure` section by section,
             `h_admin_credentials`, and the two requests that try a Proxmox host.

  A section takes the posted body and the configuration to a pending one, or to a reply.
  `P.pending`, which every handler fills before it reads it, is a local value here. A Proxmox host
  is its bytes within the configuration.
-/
import Mathlib.Data.List.DropRight
import NutBluetti.Web.Handlers

namespace NutBluetti.Web

open CLayout
open NutBluetti.Config
open NutBluetti.Pve (PveGuest HostIx hostSlots)

variable {κ : Type}

/-! ## 1. Fields -/

/-- `form_get (…) && v[0]`, then `strlcpy`: a blank field keeps the stored value. -/
def keepText (body : List UInt8) (key : String) (f : AppField) (cfg : Image) : Image :=
  let v := formText body key 128
  if v = [] then cfg else strlcpy cfg f v

/-- `form_get` straight into a member: a field that is not there empties it. -/
def intoText (body : List UInt8) (key : String) (f : AppField) (cfg : Image) : Image :=
  set cfg f (((formGet body key f.span.size).getD []) ++ [0])

/-- `member = form_get (…) && v[0] == '1'`. -/
def intoFlag (body : List UInt8) (key : String) (f : AppField) (cfg : Image) : Image :=
  set cfg f [boolByte (formIsOne body key 128)]

/-- A "clear" box next to a password. -/
def clearText (body : List UInt8) (key : String) (f : AppField) (cfg : Image) : Image :=
  if formIsOne body key 128 then set cfg f [0] else cfg

/-- `form_get (…) && atoi (v) >= lo`, for a member of 16 bits or of 8. -/
def intoHalf (body : List UInt8) (key : String) (lo : Int) (f : AppField) (cfg : Image) : Image :=
  match formGet body key 128 with
  | none => cfg
  | some v => if lo ≤ atoi (cstr v) then set cfg f (le16 (UInt16.ofInt (atoi (cstr v)))) else cfg

def intoByte (body : List UInt8) (key : String) (lo : Int) (f : AppField) (cfg : Image) : Image :=
  match formGet body key 128 with
  | none => cfg
  | some v => if lo ≤ atoi (cstr v) then set cfg f [UInt8.ofInt (atoi (cstr v))] else cfg

/-! ## 2. Proxmox hosts -/

/-- `sizeof (pve_host_t)`. -/
def pveHostSize : Nat := CLayout.sizeOf pveHostMembers

/-- `&cfg->pve.hosts[i]`. -/
def hostStart (i : HostIx) : Nat :=
  AppField.pve.span.start + PveField.hosts.span.start + i.val * pveHostSize

/-- A member of host `i`. -/
def hostSpan (i : HostIx) (f : PveHostField) : Span PveHostField :=
  ⟨f, hostStart i + f.span.start, f.span.size⟩

def setHost (img : Image) (i : HostIx) (f : PveHostField) (value : List UInt8) : Image :=
  img.poke (hostSpan i f).start value

def hostText (img : Image) (i : HostIx) (f : PveHostField) : List UInt8 :=
  cstr (img.read (hostSpan i f))

def hostFlag (img : Image) (i : HostIx) (f : PveHostField) : Bool := img (hostSpan i f).start ≠ 0

def hostStrlcpy (img : Image) (i : HostIx) (f : PveHostField) (s : List UInt8) : Image :=
  setHost img i f (fitBytes f.span.size s ++ [0])

/-- `hN_name`. -/
def hostKey (i : HostIx) (name : String) : String := "h" ++ toString i.val ++ "_" ++ name

def intoHostText (body : List UInt8) (i : HostIx) (name : String) (f : PveHostField) (img : Image) :
    Image :=
  setHost img i f (((formGet body (hostKey i name) f.span.size).getD []) ++ [0])

/-- `toupper`, in the C locale. -/
def toUpper (c : UInt8) : UInt8 := if chr 'a' ≤ c ∧ c ≤ chr 'z' then c - 32 else c

/-- The loop of `pve_fingerprint_normalise`, with `n` digits written: what it writes, and whether it
    got to the end of the text. -/
def fingerprintLoop : Nat → List UInt8 → List UInt8 × Bool
  | _, [] => ([], true)
  | n, c :: rest =>
      if c = chr ':' ∨ c = chr ' ' then fingerprintLoop n rest
      else if !isXdigit c ∨ 64 ≤ n then ([], false)
      else
        let (out, ended) := fingerprintLoop (n + 1) rest
        (toUpper c :: out, ended)

/-- The posted limits of a host. -/
def intoHostLimit (body : List UInt8) (i : HostIx) (name : String) (hi : Int) (f : PveHostField)
    (enc : Int → List UInt8) (img : Image) : Image :=
  match formGet body (hostKey i name) 128 with
  | none => img
  | some v =>
      let n := atoi (cstr v)
      if 0 ≤ n ∧ n ≤ hi then setHost img i f (enc n) else img

/-- The pin: a posted one, the box that forgets it, or the stored one. `false` if a posted one is
    not 64 hex digits. -/
def hostFingerprint (body : List UInt8) (i : HostIx) (stored img : Image) : Image × Bool :=
  let fp := formText body (hostKey i "fp") 128
  if fp ≠ [] then
    let (hex, ended) := fingerprintLoop 0 fp
    if ended then (setHost img i .fingerprint (hex ++ [0]), decide (hex.length = 64))
    else (setHost img i .fingerprint hex, false)
  else if formIsOne body (hostKey i "fp_clear") 128 then (setHost img i .fingerprint [0], true)
  else (hostStrlcpy img i .fingerprint (hostText stored i .fingerprint), true)

/-- A trailing slash is trimmed, so that URLs join. -/
def trimUrl (i : HostIx) (img : Image) : Image :=
  let url := hostText img i .url
  let kept := url.rdropWhile (· = chr '/')
  img.poke ((hostSpan i .url).start + kept.length) (List.replicate (url.length - kept.length) 0)

def hostError (i : HostIx) (why : String) : List UInt8 :=
  ascii ("host " ++ toString (i.val + 1) ++ ": " ++ why)

/-- What an enabled host needs. -/
def hostCheck (i : HostIx) (img : Image) : Option (List UInt8) :=
  if !hostFlag img i .enabled then none
  else if !(ascii "https://").isPrefixOf (hostText img i .url) then
    some (hostError i "URL must start with https://")
  else if hostText img i .node = [] ∨ hostText img i .tokenId = [] ∨
    hostText img i .secret = [] then
    some (hostError i "node, token ID and secret are required")
  else if chr '!' ∉ hostText img i .tokenId then
    some (hostError i "token ID looks like user@realm!name")
  else if img.read (hostSpan i .onBatteryMin) = [0, 0] ∧ img.read (hostSpan i .chargePct) = [0] then
    some (hostError i "set a time or a charge to shut down at")
  else none

/-- The bytes of a host with the defaults. -/
def defaultHost : List UInt8 :=
  let d := appConfigPveDefaults (fun _ => 0) 0
  (List.range pveHostSize).map fun k => d (PveField.hosts.span.start + k)

/-- **`pve_host_from_form`**: the host after it, and the error if there is one. -/
def pveHostFromForm (body : List UInt8) (i : HostIx) (img stored : Image) :
    Image × Option (List UInt8) :=
  -- "Remove": wipe the slot, secret and pin included
  if formIsOne body (hostKey i "clear") 128 then (img.poke (hostStart i) defaultHost, none)
  else
    let img := setHost img i .enabled [boolByte (formIsOne body (hostKey i "on") 128)]
    let img := intoHostText body i "url" .url img
    let img := intoHostText body i "node" .node img
    let img := intoHostText body i "token" .tokenId img
    let img := setHost img i .shutdownNode [boolByte (formIsOne body (hostKey i "node_off") 128)]
    let img := intoHostLimit body i "min" 1440 .onBatteryMin (fun n => le16 (UInt16.ofInt n)) img
    let img := intoHostLimit body i "pct" 100 .chargePct (fun n => [UInt8.ofInt n]) img
    let secret := formText body (hostKey i "secret") 128
    let img := hostStrlcpy img i .secret (if secret = [] then hostText stored i .secret else secret)
    let (img, ok) := hostFingerprint body i stored img
    if !ok then (img, some (hostError i "fingerprint must be 64 hex digits"))
    else
      let img := trimUrl i img
      (img, hostCheck i img)

/-- `hN_gG_name`. -/
def guestKey (i : HostIx) (g : Nat) (name : String) : String :=
  "h" ++ toString i.val ++ "_g" ++ toString g ++ "_" ++ name

/-- A limit of a rule: 0 unless it is posted and within bounds. -/
def guestLimit (body : List UInt8) (key : String) (hi : Int) : Int :=
  match formGet body key 16 with
  | none => 0
  | some v => if 0 ≤ atoi (cstr v) ∧ atoi (cstr v) ≤ hi then atoi (cstr v) else 0

/-- One rule; there is none without a positive id. -/
def guestFromForm (body : List UInt8) (i : HostIx) (g : Nat) : Option PveGuest :=
  let id := atoi (formText body (guestKey i g "id") 16)
  if id ≤ 0 then none
  else
    some
      { id := id
        onBatteryMin := UInt16.ofInt (guestLimit body (guestKey i g "min") 1440)
        chargePct := UInt8.ofInt (guestLimit body (guestKey i g "pct") 100) }

/-- **`pve_guests_from_form`**; `allocOk` is its `malloc`. -/
def pveGuestsFromForm (body : List UInt8) (i : HostIx) (allocOk : Bool) : List PveGuest :=
  let count := atoi (formText body (hostKey i "gcount") 16)
  if count ≤ 0 ∨ !allocOk then []
  else (List.range (min count 10000).toNat).filterMap (guestFromForm body i)

/-! ## 3. The sections -/

/-- Section "bluetti". -/
def sectionBluetti (body : List UInt8) (pending : Image) : Except Reply Image :=
  let pending := match formGet body "ble_addr" 128 with
    | none => pending
    | some v => strlcpy pending .bleAddr (cstr v)
  -- the address is the only way to name a unit, so it has to be one
  if !isMacAddr (text pending .bleAddr) then
    .error (badRequest "pick a device, or enter its address as AA:BB:CC:DD:EE:FF")
  else .ok pending

/-- Section "nut". -/
def sectionNut (o : Outside) (body : List UInt8) (pending : Image) : Image :=
  let pending := keepText body "ups_name" .upsName pending
  let pending := intoHalf body "nut_port" 1 .nutPort pending
  let pending := intoByte body "low_pct" 1 .lowPct pending
  let pending := intoHalf body "ac_rating_w" 1 .acRatingW pending
  let pending := intoHalf body "battery_wh" 0 .batteryWh pending
  let pending := intoHalf body "runtime_low_s" 0 .runtimeLowS pending
  let pending := keepText body "nut_user" .nutUser pending
  let pass := formText body "nut_pass" 128
  -- blank keeps the stored password; the checkbox clears it
  let pending := if pass = [] then pending else setSecret o.sha256 o.salt nutSecret pending pass
  if formIsOne body "nut_noauth" 128 then setSecret o.sha256 o.salt nutSecret pending []
    else pending

/-- An access point's password is open or has 8 characters. -/
def shortPass (pass : List UInt8) : Bool := decide (0 < pass.length) && decide (pass.length < 8)

/-- A blank SSID of an access point becomes the unit's own name. -/
def defaultSsid (o : Outside) (f : AppField) (pending : Image) : Image :=
  if text pending f = [] then set pending f (fitBytes f.span.size o.defaultName ++ [0]) else pending

/-- Section "wifi", as an access point. -/
def sectionWifiAp (o : Outside) (body : List UInt8) (pending : Image) : Except Reply Image :=
  let pending := set pending .wifiMode [1]
  let pending := intoText body "ap_ssid" .apSsid pending
  let pending := keepText body "ap_pass" .apPass pending
  let pending := clearText body "ap_open" .apPass pending
  if shortPass (text pending .apPass) then .error (badRequest "AP password must be 8+ characters")
  else .ok (defaultSsid o .apSsid pending)

/-- The fallback access point of a station. -/
def fallbackAp (body : List UInt8) (pending : Image) : Image :=
  let pending := intoFlag body "fb_ap" .fbApEnabled pending
  if flag pending .fbApEnabled then
    let pending := intoText body "fb_ap_ssid" .fbApSsid pending
    let pending := keepText body "fb_ap_pass" .fbApPass pending
    clearText body "fb_ap_open" .fbApPass pending
  else pending

/-- The checks of a static address; a blank mask gets the usual one. -/
def checkStatic (pending : Image) : Except Reply Image :=
  if !validIpv4 (text pending .staticIp) then
    .error (badRequest "static IP is not a valid IPv4 address")
  else if text pending .staticMask ≠ [] ∧ !validIpv4 (text pending .staticMask) then
    .error (badRequest "subnet mask is not valid")
  else
    let pending := if text pending .staticMask = [] then
        strlcpy pending .staticMask (ascii "255.255.255.0")
      else pending
    if text pending .staticGw ≠ [] ∧ !validIpv4 (text pending .staticGw) then
      .error (badRequest "gateway is not a valid IPv4 address")
    else if text pending .staticDns ≠ [] ∧ !validIpv4 (text pending .staticDns) then
      .error (badRequest "DNS server is not a valid IPv4 address")
    else .ok pending

/-- Section "wifi", as a station. -/
def sectionWifiStation (o : Outside) (body : List UInt8) (pending : Image) : Except Reply Image :=
  let pending := set pending .wifiMode [0]
  let pending := intoText body "wifi_ssid" .wifiSsid pending
  let pending := keepText body "wifi_pass" .wifiPass pending
  let pending := clearText body "wifi_open" .wifiPass pending
  let pending := intoFlag body "use_static_ip" .useStaticIp pending
  let pending := if flag pending .useStaticIp then
      intoText body "static_dns" .staticDns (intoText body "static_gw" .staticGw
        (intoText body "static_mask" .staticMask (intoText body "static_ip" .staticIp pending)))
    else pending
  let pending := fallbackAp body pending
  if flag pending .fbApEnabled && shortPass (text pending .fbApPass) then
    .error (badRequest "fallback AP password must be 8+ characters")
  else
    let pending := if flag pending .fbApEnabled then defaultSsid o .fbApSsid pending else pending
    if text pending .wifiSsid = [] then .error (badRequest "pick a Wi-Fi network")
    else if flag pending .useStaticIp then checkStatic pending
    else .ok pending

/-- Section "wifi". -/
def sectionWifi (o : Outside) (body : List UInt8) (pending : Image) : Except Reply Image :=
  let pending := keepText body "hostname" .hostname pending
  if formText body "wifi_mode" 8 = ascii "ap" then sectionWifiAp o body pending
  else sectionWifiStation o body pending

/-- A flag of the Proxmox block. -/
def pveFlag (img : Image) (f : PveField) : Bool := img (AppField.pve.span.start + f.span.start) ≠ 0

/-- The hosts of section "pve", from a slot on: the pending configuration, and for each host whose
    rules are to be stored the rules; or the error of the first host that has one. The `n`-th host's
    rules are the `n + 1`-th allocation. -/
def pveHosts (o : Outside) (body : List UInt8) (stored : Image) :
    List HostIx → Image → Except (List UInt8) (Image × List (HostIx × List PveGuest))
  | [], pending => .ok (pending, [])
  | i :: is, pending =>
      match pveHostFromForm body i pending stored with
      | (_, some err) => .error err
      | (pending, none) =>
          let rules :=
            -- "Remove" wipes the rules too, rather than leave them for the slot's next host
            if formIsOne body (hostKey i "clear") 8 then [(i, [])]
            else if hostFlag pending i .enabled then
              [(i, pveGuestsFromForm body i (o.alloc (i.val + 1)))]
            else []
          (pveHosts o body stored is pending).map fun (pending, more) => (pending, rules ++ more)

/-- Section "pve": the pending configuration and the rules to store. -/
def sectionPve (o : Outside) (body : List UInt8) (stored pending : Image) :
    Except Reply (Image × List (HostIx × List PveGuest)) :=
  let armed := boolByte (formIsOne body "pve_armed" 128)
  let pending := pending.poke (AppField.pve.span.start + PveField.armed.span.start) [armed]
  let pending := match formGet body "pve_mains_back_min" 128 with
    | none => pending
    | some v =>
        if 0 ≤ atoi (cstr v) then
          pending.poke (AppField.pve.span.start + PveField.mainsBackMin.span.start)
            (le16 (UInt16.ofInt (atoi (cstr v))))
        else pending
  let pending := intoHalf body "pve_selftest_hours" 0 .pveSelftestHours pending
  -- switched off: the hosts stay exactly as stored
  if pveFlag pending .enabled then
    match pveHosts o body stored hostSlots pending with
    | .error err => .error (sendErr .badRequest err)
    | .ok res => .ok res
  else .ok (pending, [])

/-- Section "notify". -/
def sectionNotify (body : List UInt8) (pending : Image) : Except Reply Image :=
  let pending := keepText body "tg_token" .tgToken pending
  let pending := intoText body "tg_chat" .tgChat pending
  let pending := intoFlag body "tg_on_power" .tgOnPower pending
  let pending := intoFlag body "tg_on_low_batt" .tgOnLowBatt pending
  let pending := intoFlag body "tg_on_link" .tgOnLink pending
  let pending := intoFlag body "tg_on_pve_host" .tgOnPveHost pending
  let pending := intoFlag body "tg_on_pve_guest" .tgOnPveGuest pending
  let pending := intoFlag body "tg_on_battery_pct" .tgOnBatteryPct pending
  if flag pending .tgEnabled ∧ (text pending .tgToken = [] ∨ text pending .tgChat = []) then
    .error (badRequest "a bot token and chat id are required")
  else .ok pending

/-- Section "integrations". -/
def sectionIntegrations (body : List UInt8) (pending : Image) : Image :=
  let pending := intoFlag body "nut_enabled" .nutEnabled pending
  let pending := pending.poke (AppField.pve.span.start + PveField.enabled.span.start)
    [boolByte (formIsOne body "pve_enabled" 128)]
  intoFlag body "tg_enabled" .tgEnabled pending

/-! ## 4. `h_admin_reconfigure` -/

/-- The section that is posted, on the pending configuration. -/
def runSection (o : Outside) (body : List UInt8) (stored : Image) (name : List UInt8) :
    Except Reply (Image × List (HostIx × List PveGuest)) :=
  if name = ascii "bluetti" then (sectionBluetti body stored).map (·, [])
  else if name = ascii "nut" then .ok (sectionNut o body stored, [])
  else if name = ascii "wifi" then (sectionWifi o body stored).map (·, [])
  else if name = ascii "pve" then sectionPve o body stored stored
  else if name = ascii "notify" then (sectionNotify body stored).map (·, [])
  else if name = ascii "integrations" then .ok (sectionIntegrations body stored, [])
  else .error (badRequest "unknown section")

/-- `app_config_pve_guests_save` of the rules of some hosts; its result is not looked at. -/
def saveRules (o : Outside) (rules : List (HostIx × List PveGuest))
    (stored : HostIx → List PveGuest) : HostIx → List PveGuest :=
  rules.foldl (fun stored (i, guests) =>
    Function.update stored i ((o.saveGuests i).write (stored i) guests).1) stored

/-- `pve_shutdown_reconfigure` with the stored configuration and rules. -/
def applyPve (s : Server κ) : Server κ :=
  s.call (.pveReconfigure (s.cfg.read AppField.pve.span) (s.cfg.read AppField.pveSelftestHours.span)
    (hostSlots.map s.storedGuests))

/-- `notify_reconfigure` with the stored configuration. -/
def applyNotify (s : Server κ) : Server κ :=
  s.call (.notifyReconfigure
    { enabled := flag s.cfg .tgEnabled
      botToken := fitBytes 64 (text s.cfg .tgToken)
      chatId := fitBytes 24 (text s.cfg .tgChat)
      onPower := flag s.cfg .tgOnPower
      onLowBatt := flag s.cfg .tgOnLowBatt
      onLink := flag s.cfg .tgOnLink
      onBatteryPct := flag s.cfg .tgOnBatteryPct })

/-- How a section that was saved is applied: at once, or by a restart. -/
def applySection (name : List UInt8) (nutBefore : Bool) (s : Server κ) : Reply × Server κ :=
  let live := sendJson (ascii "\x7b\"ok\":true,\"reboot\":false\x7d")
  let reboot := (sendJson (ascii "\x7b\"ok\":true\x7d"), s.call (.rebootTask 900))
  if name = ascii "pve" then (live, applyPve s)
  else if name = ascii "notify" then (live, applyNotify s)
  else if name = ascii "integrations" then
    let s := applyNotify (applyPve s)
    -- the NUT server cannot be started or stopped at run time
    if flag s.cfg .nutEnabled ≠ nutBefore then
      (sendJson (ascii "\x7b\"ok\":true\x7d"), s.call (.rebootTask 900))
    else (live, s)
  else reboot

/-- **`h_admin_reconfigure`**. -/
def hAdminReconfigure : Handler κ := requireAuth fun o r s =>
  withBody o r 1 65536 true s fun body =>
    let name := formText body "section" 16
    match runSection o body s.cfg name with
    | .error reply => (reply, s)
    | .ok (pending, rules) =>
        let s' :=
          { s with
            storedGuests := saveRules o rules s.storedGuests
            cfg := set pending .provisioned [1] }
        let (s', ok) := s'.saveCfg o
        if !ok then (sendErr .internalError (ascii "could not save config"), s')
        else applySection name (flag s.cfg .nutEnabled) s'

/-! ## 5. `h_admin_credentials` -/

/-- **`h_admin_credentials`**: the current password is asked for as well. -/
def hAdminCredentials : Handler κ := requireAuth fun o r s =>
  withBody o r 1 1024 true s fun body =>
    let user := formText body "auth_user" 33
    let cur := formText body "current_pass" 128
    let pass := formText body "auth_pass" 128
    if flag s.cfg .authSet && !appConfigCheckPassword o.sha256 s.cfg cur then
      (badRequest "current password is wrong", s)
    else if pass = [] then (badRequest "a password is required", s)
    else
      let pending := strlcpy s.cfg .authUser (if user = [] then ascii "admin" else user)
      let pending := appConfigSetPassword o.sha256 o.salt pending pass
      let (s, ok) := { s with cfg := pending }.saveCfg o
      if !ok then (sendErr .internalError (ascii "could not save config"), s)
      else (sendJson (ascii "\x7b\"ok\":true\x7d"), s)

/-! ## 6. Trying a Proxmox host -/

/-- `pve_read_host`: the slot, and the configuration with the posted host in it. -/
def pveReadHost (o : Outside) (r : Request) (cfg : Image) : Except Reply (HostIx × Image) :=
  match readBody o r 1 65536 true with
  | .error reply => .error reply
  | .ok body =>
      let n : Int := match formGet body "i" 8 with
        | none => -1
        | some v => atoi (cstr v)
      if h : 0 ≤ n ∧ n.toNat < Pve.pveMaxHosts then
        let i : HostIx := ⟨n.toNat, h.2⟩
        match pveHostFromForm body i cfg cfg with
        | (_, some err) => .error (sendErr .badRequest err)
        | (img, none) =>
            let img := setHost img i .enabled [1]
            if !(ascii "https://").isPrefixOf (hostText img i .url) ∨ hostText img i .node = [] ∨
                hostText img i .tokenId = [] ∨ hostText img i .secret = [] then
              .error (sendErr .badRequest (ascii "URL (https://" ++ [0xE2, 0x80, 0xA6] ++
                ascii "), node, token ID and secret are required"))
            else .ok (i, img)
      else .error (badRequest "bad host index")

/-- `h_pve_guests`. -/
def hPveGuests : Handler κ := requireAuth fun o r s =>
  match pveReadHost o r s.cfg with
  | .error reply => (reply, s)
  | .ok (i, img) =>
      if !o.alloc 1 then (send500, s)
      -- `pve_shutdown_list_guests` asks no host whose certificate is not pinned
      else if hostText img i .fingerprint = [] then
        (badRequest "pin the certificate first (Test)", s)
      else
        let s := s.ask (hostText img i .url) o.pveList
        match o.pveList.result with
        | .error err => (sendErr .badRequest err, s)
        | .ok json => (sendJson json, s)

/-- `h_pve_test`. -/
def hPveTest : Handler κ := requireAuth fun o r s =>
  match pveReadHost o r s.cfg with
  | .error reply => (reply, s)
  | .ok (i, img) =>
      let t := o.pveTest.result
      let s := (s.ask (hostText img i .url) o.pveTest).call
        (.pveNoteTest i (decide (t.code = 0)) t.msg)
      (sendJson (ascii "\x7b\"ok\":" ++ jsonBool (decide (t.code = 0)) ++ ascii ",\"connected\":" ++
        jsonBool (decide (0 ≤ t.code)) ++ ascii ",\"pinned\":" ++ jsonBool t.pinned ++
        ascii ",\"msg\":\"" ++ t.msg ++ ascii "\",\"fp\":\"" ++ t.fp ++ ascii "\"\x7d"), s)

end NutBluetti.Web
