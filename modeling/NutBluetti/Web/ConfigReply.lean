/-
  File:      NutBluetti/Web/ConfigReply.lean
  Subject:   THE SETTINGS AS JSON (provisioning.c, `h_admin_config`), and the three replies that
             carry names.

  * `configArgs`, `pveArgs`, `hostArgs`, `guestArgs` -- the formats with their arguments;
  * **`adminConfigText_raw`** -- what is printed is the page, with its strings as they are stored;
  * **`configPage_plain`** -- of what is stored only the strings that go out can spoil it;
  * **`json_replies_iff`** -- the three replies are the JSON texts of what they show if and only if
    no name or string in them has to be escaped;
  * **`names_break_json`** -- the name of a neighbour's network adds a member to the list.
-/
import NutBluetti.Web.Fingerprint
import NutBluetti.Web.NumericFields
import NutBluetti.Web.ScanReplies

namespace NutBluetti.Web

open CLayout
open JsonText
open NutBluetti.Config
open NutBluetti.Pve (PveGuest HostIx hostSlots)

variable {κ : Type}

/-! ## 1. Conversions -/

/-- A conversion of a format with its argument: a string between quotes, a number, a switch. -/
inductive Arg where
  | text (s : List UInt8)
  | number (n : Int)
  | switch (b : Bool)

def Arg.print : Arg → List UInt8
  | .text s => ascii "\"" ++ s ++ ascii "\""
  | .number n => decInt n
  | .switch b => jsonBool b

/-- The value it is meant to be. -/
def Arg.value : Arg → Value UInt8
  | .text s => .str s
  | .number n => .num (decInt n)
  | .switch b => .bool b

/-- A string that goes out as it is has to be plain. -/
def Arg.Plain : Arg → Prop
  | .text s => bytes.PlainText s
  | _ => True

/-- A member, as a format spells it. -/
def memberText (m : String × Arg) : List UInt8 :=
  ascii "\"" ++ ascii m.1 ++ ascii "\":" ++ m.2.print

def memberValue (m : String × Arg) : List UInt8 × Value UInt8 := (ascii m.1, m.2.value)

theorem Arg.print_raw (a : Arg) : a.print = a.value.raw bytes := by
  cases a with
  | text s => rfl
  | number n => rfl
  | switch b => cases b <;> rfl

theorem Arg.value_plain (a : Arg) : a.value.Plain bytes ↔ a.Plain := by
  cases a with
  | text s => exact Iff.rfl
  | number n => exact iff_of_true (bytes.isNumber_int n) trivial
  | switch b => exact Iff.rfl

theorem memberText_raw (m : String × Arg) : memberText m = rawMember bytes (memberValue m) := by
  unfold memberText memberValue
  rw [rawMember, ← Arg.print_raw]
  simp only [Alphabet.quote, List.append_assoc, List.cons_append]
  rfl

theorem commaSep_members (ms : List (String × Arg)) :
    commaSep (ms.map memberText) = rawMembers bytes (ms.map memberValue) := by
  induction ms with
  | nil => rfl
  | cons m ms ih =>
      cases ms with
      | nil => exact memberText_raw m
      | cons m' ms =>
          rw [List.map_cons] at ih
          rw [List.map_cons, List.map_cons, commaSep, ih, memberText_raw, List.append_assoc]
          · rfl
          · exact fun h => (nomatch h)

theorem commaSep_items {β : Type} {entry : β → List UInt8} {value : β → Value UInt8}
    (h : ∀ e, entry e = (value e).raw bytes) (es : List β) :
    commaSep (es.map entry) = rawItems bytes (es.map value) := by
  induction es with
  | nil => rfl
  | cons e es ih =>
      cases es with
      | nil => exact h e
      | cons e' es =>
          rw [List.map_cons] at ih
          rw [List.map_cons, List.map_cons, commaSep, ih, h, List.append_assoc]
          · rfl
          · exact fun h => (nomatch h)

/-- Members whose keys are plain are as plain as their arguments. -/
theorem members_plain {ms : List (String × Arg)}
    (hkeys : ∀ k ∈ ms.map Prod.fst, bytes.PlainText (ascii k)) :
    PlainMembers bytes (ms.map memberValue) ↔ ∀ m ∈ ms, m.2.Plain := by
  rw [plainMembers_iff, List.forall_mem_map]
  refine forall_congr' fun m => forall_congr' fun hm => ?_
  rw [← Arg.value_plain]
  exact and_iff_right (hkeys m.1 (List.mem_map_of_mem hm))

theorem plainMembers_append {ms ns : List (List UInt8 × Value UInt8)} :
    PlainMembers bytes (ms ++ ns) ↔ PlainMembers bytes ms ∧ PlainMembers bytes ns := by
  rw [plainMembers_iff, plainMembers_iff, plainMembers_iff, List.forall_mem_append]

/-! ## 2. `h_admin_config` -/

/-- A member of the configuration that is a number. -/
def appNumber (cfg : Image) (f : AppField) : Arg := .number (numberAt cfg f.span)

def appText (cfg : Image) (f : AppField) : Arg := .text (text cfg f)

def appSwitch (cfg : Image) (f : AppField) : Arg := .switch (flag cfg f)

/-- Whether a password or a token is stored: it does not go out itself. -/
def appStored (cfg : Image) (f : AppField) : Arg := .switch (decide (text cfg f ≠ []))

/-- The name of an access point, the unit's own if none is stored. -/
def apName (o : Outside) (cfg : Image) (f : AppField) : Arg :=
  .text (if text cfg f = [] then o.defaultName else text cfg f)

/-- The first format. -/
def configArgs (o : Outside) (cfg : Image) : List (String × Arg) :=
  [("ble_addr", appText cfg .bleAddr), ("log_level", appNumber cfg .logLevel),
    ("controls_enabled", appSwitch cfg .controlsEnabled),
    ("nut_enabled", appSwitch cfg .nutEnabled), ("ups_name", appText cfg .upsName),
    ("nut_port", appNumber cfg .nutPort), ("low_pct", appNumber cfg .lowPct),
    ("poll_ms", appNumber cfg .pollMs), ("nut_user", appText cfg .nutUser),
    ("nut_auth_set", appSwitch cfg .nutAuthSet), ("ac_rating_w", appNumber cfg .acRatingW),
    ("battery_wh", appNumber cfg .batteryWh), ("runtime_low_s", appNumber cfg .runtimeLowS),
    ("wifi_mode",
    .text (ascii (if cfg.read AppField.wifiMode.span = [1] then "ap" else "station"))),
    ("wifi_ssid", appText cfg .wifiSsid), ("has_wifi_pass", appStored cfg .wifiPass),
    ("ap_ssid", apName o cfg .apSsid), ("has_ap_pass", appStored cfg .apPass),
    ("default_ap_ssid", .text o.defaultName), ("auth_user", appText cfg .authUser),
    ("auth_set", appSwitch cfg .authSet), ("hostname", appText cfg .hostname),
    ("use_static_ip", appSwitch cfg .useStaticIp), ("static_ip", appText cfg .staticIp),
    ("static_mask", appText cfg .staticMask), ("static_gw", appText cfg .staticGw),
    ("static_dns", appText cfg .staticDns), ("fb_ap_enabled", appSwitch cfg .fbApEnabled),
    ("fb_ap_ssid", apName o cfg .fbApSsid), ("has_fb_ap_pass", appStored cfg .fbApPass),
    ("tg_enabled", appSwitch cfg .tgEnabled), ("tg_chat", appText cfg .tgChat),
    ("has_tg_token", appStored cfg .tgToken), ("tg_on_power", appSwitch cfg .tgOnPower),
    ("tg_on_low_batt", appSwitch cfg .tgOnLowBatt), ("tg_on_link", appSwitch cfg .tgOnLink),
    ("tg_on_pve_host", appSwitch cfg .tgOnPveHost),
    ("tg_on_pve_guest", appSwitch cfg .tgOnPveGuest),
    ("tg_on_battery_pct", appSwitch cfg .tgOnBatteryPct)]

/-- The format of the Proxmox block. -/
def pveArgs (cfg : Image) : List (String × Arg) :=
  [("enabled", .switch (pveFlag cfg .enabled)), ("armed", .switch (pveFlag cfg .armed)),
    ("mains_back_min", .number (numberAt cfg (ConfigField.pve .mainsBackMin).span)),
    ("selftest_hours", appNumber cfg .pveSelftestHours)]

/-- The format of a host. -/
def hostArgs (cfg : Image) (i : HostIx) : List (String × Arg) :=
  [("enabled", .switch (hostFlag cfg i .enabled)), ("url", .text (hostText cfg i .url)),
    ("node", .text (hostText cfg i .node)), ("token_id", .text (hostText cfg i .tokenId)),
    ("has_secret", .switch (decide (hostText cfg i .secret ≠ []))),
    ("shutdown_node", .switch (hostFlag cfg i .shutdownNode)),
    ("fingerprint", .text (adminFingerprint (hostText cfg i .fingerprint))),
    ("on_battery_min", .number (numberAt cfg (hostSpan i .onBatteryMin))),
    ("charge_pct", .number (numberAt cfg (hostSpan i .chargePct)))]

/-- The format of a rule. -/
def guestArgs (g : PveGuest) : List (String × Arg) :=
  [("id", .number g.id), ("on_battery_min", .number g.onBatteryMin.toNat),
    ("charge_pct", .number g.chargePct.toNat)]

def objectText (ms : List (String × Arg)) : List UInt8 :=
  ascii "\x7b" ++ commaSep (ms.map memberText) ++ ascii "\x7d"

def objectValue (ms : List (String × Arg)) : Value UInt8 := .obj (ms.map memberValue)

/-- The rules `app_config_pve_guests_load` gets, with the allocation for those of the host. -/
def shownGuests (o : Outside) (s : Server κ) (i : HostIx) : List PveGuest :=
  if o.alloc (i.val + 1) then s.storedGuests i else []

/-- A host with its rules. -/
def shownHost (o : Outside) (s : Server κ) (i : HostIx) : List UInt8 :=
  ascii "\x7b" ++ commaSep ((hostArgs s.cfg i).map memberText) ++ ascii ",\"guests\":[" ++
    commaSep ((shownGuests o s i).map fun g => objectText (guestArgs g)) ++ ascii "]\x7d"

/-- **What `h_admin_config` prints**, in a buffer that holds it. -/
def adminConfigText (o : Outside) (s : Server κ) : List UInt8 :=
  -- the brace that ends the first object is taken back
  (objectText (configArgs o s.cfg)).dropLast ++ ascii ",\"pve\":\x7b" ++
    commaSep ((pveArgs s.cfg).map memberText) ++ ascii ",\"hosts\":[" ++
    commaSep (hostSlots.map (shownHost o s)) ++ ascii "]\x7d\x7d"

/-- The size of its buffer. -/
def adminConfigSz : Nat := 16000

/-- The outside with that page: what does not fit in the buffer is cut off. -/
def printsConfig (o : Outside) (s : Server κ) : Outside :=
  { o with page := some (fitBytes adminConfigSz (adminConfigText o s)) }

/-- The page as it is meant. -/
def hostValue (o : Outside) (s : Server κ) (i : HostIx) : Value UInt8 :=
  .obj ((hostArgs s.cfg i).map memberValue ++
    [(ascii "guests", .arr ((shownGuests o s i).map fun g => objectValue (guestArgs g)))])

def configPage (o : Outside) (s : Server κ) : Value UInt8 :=
  .obj ((configArgs o s.cfg).map memberValue ++
    [(ascii "pve", .obj ((pveArgs s.cfg).map memberValue ++
      [(ascii "hosts", .arr (hostSlots.map (hostValue o s)))]))])

theorem objectText_raw (ms : List (String × Arg)) : objectText ms = (objectValue ms).raw bytes := by
  unfold objectText objectValue
  rw [commaSep_members, Value.raw]
  rfl

/-- An object with one more member at its end. -/
theorem object_raw {ms : List (String × Arg)} (hms : ms ≠ []) (k : String) (v : Value UInt8) :
    (Value.obj (ms.map memberValue ++ [(ascii k, v)])).raw bytes =
      ascii "\x7b" ++ rawMembers bytes (ms.map memberValue) ++ ascii ",\"" ++ ascii k ++
      ascii "\":" ++
        v.raw bytes ++ ascii "\x7d" := by
  have hne : ms.map memberValue ≠ [] := fun h => hms (List.map_eq_nil_iff.mp h)
  rw [Value.raw, rawMembers_append hne (List.cons_ne_nil _ _), rawMembers, rawMember]
  simp only [Alphabet.quote, List.append_assoc, List.cons_append]
  rfl

theorem shownHost_raw (o : Outside) (s : Server κ) (i : HostIx) :
    shownHost o s i = (hostValue o s i).raw bytes := by
  have hargs : hostArgs s.cfg i ≠ [] := List.cons_ne_nil _ _
  unfold shownHost hostValue
  rw [object_raw hargs, commaSep_members,
    commaSep_items fun g => objectText_raw (guestArgs g), Value.raw]
  simp only [List.append_assoc, List.cons_append]
  rfl

/-- **What is printed is the page**, with its strings as they are. -/
theorem adminConfigText_raw (o : Outside) (s : Server κ) :
    adminConfigText o s = (configPage o s).raw bytes := by
  have hopen : (objectText (configArgs o s.cfg)).dropLast =
      ascii "\x7b" ++ rawMembers bytes ((configArgs o s.cfg).map memberValue) := by
    unfold objectText
    rw [commaSep_members]
    exact List.dropLast_concat
  have hargs : configArgs o s.cfg ≠ [] := List.cons_ne_nil _ _
  have hpve : pveArgs s.cfg ≠ [] := List.cons_ne_nil _ _
  unfold adminConfigText configPage
  rw [object_raw hargs, object_raw hpve, hopen, commaSep_members,
    commaSep_items (shownHost_raw o s), Value.raw]
  simp only [List.append_assoc, List.cons_append]
  rfl

/-! ## 3. What has to be plain -/

/-- The strings of the configuration that go out. -/
def shownTexts : List AppField :=
  [.bleAddr, .upsName, .nutUser, .wifiSsid, .apSsid, .authUser, .hostname, .staticIp, .staticMask,
    .staticGw, .staticDns, .fbApSsid, .tgChat]

/-- And those of a host: of the pin as many characters as are shown. -/
def shownHostTexts (cfg : Image) (i : HostIx) : List (List UInt8) :=
  [hostText cfg i .url, hostText cfg i .node, hostText cfg i .tokenId,
    (hostText cfg i .fingerprint).take 64]

/-- No string that goes out has to be escaped. -/
structure PlainConfig (cfg : Image) : Prop where
  app : ∀ f ∈ shownTexts, bytes.PlainText (text cfg f)
  host : ∀ i, ∀ t ∈ shownHostTexts cfg i, bytes.PlainText t

/-- The colons of the pin need no escape. -/
theorem adminFingerprint_plain (hex : List UInt8) :
    bytes.PlainText (adminFingerprint hex) ↔ bytes.PlainText (hex.take 64) := by
  have hcolon : bytes.Ordinary (chr ':') := by decide
  have hpairs : ∀ l : List UInt8, bytes.PlainText (adminFingerprint.pairs l) ↔
    bytes.PlainText l := by
    intro l
    fun_induction adminFingerprint.pairs l with
    | case1 a b c rest ih =>
        simp only [Alphabet.PlainText, List.forall_mem_cons] at ih ⊢
        rw [ih]
        exact and_congr_right fun _ => and_congr_right fun _ => and_iff_right hcolon
    | case2 rest _ => exact Iff.rfl
  exact hpairs _

theorem defaultName_plain (b : Board) : bytes.PlainText (appConfigDefaultName b) := by
  have hword : bytes.PlainText (ascii "esp-nut-bluetti-") := by decide
  unfold appConfigDefaultName
  simp only [Alphabet.PlainText, List.forall_mem_append]
  exact ⟨⟨hword, hex2_plain b.mac4⟩, hex2_plain b.mac5⟩

theorem apName_plain {o : Outside} (hname : bytes.PlainText o.defaultName) (cfg : Image)
    (f : AppField) :
    (apName o cfg f).Plain ↔ bytes.PlainText (text cfg f) := by
  show bytes.PlainText (if text cfg f = [] then o.defaultName else text cfg f) ↔ _
  by_cases hnil : text cfg f = []
  · rw [if_pos hnil, hnil]
    exact iff_of_true hname fun c hc => absurd hc List.not_mem_nil
  · rw [if_neg hnil]

theorem configArgs_plain {o : Outside} (hname : bytes.PlainText o.defaultName) (cfg : Image) :
    (∀ m ∈ configArgs o cfg, m.2.Plain) ↔ ∀ f ∈ shownTexts, bytes.PlainText (text cfg f) := by
  have hmode : bytes.PlainText
      (ascii (if cfg.read AppField.wifiMode.span = [1] then "ap" else "station")) := by
    split <;> decide
  have htext : ∀ f, (appText cfg f).Plain ↔ bytes.PlainText (text cfg f) := fun f => Iff.rfl
  have hnumber : ∀ f, (appNumber cfg f).Plain := fun f => trivial
  have hswitch : ∀ f, (appSwitch cfg f).Plain := fun f => trivial
  have hstored : ∀ f, (appStored cfg f).Plain := fun f => trivial
  have hgiven : ∀ {t}, bytes.PlainText t → (Arg.text t).Plain := fun h => h
  simp only [configArgs, shownTexts, List.forall_mem_cons, htext, hnumber, hswitch, hstored,
    apName_plain hname, hgiven hmode, hgiven hname, true_and, List.not_mem_nil, false_imp_iff,
    implies_true]

theorem hostArgs_plain (cfg : Image) (i : HostIx) :
    (∀ m ∈ hostArgs cfg i, m.2.Plain) ↔ ∀ t ∈ shownHostTexts cfg i, bytes.PlainText t := by
  have htext : ∀ t, (Arg.text t).Plain ↔ bytes.PlainText t := fun t => Iff.rfl
  have hnumber : ∀ n, (Arg.number n).Plain := fun n => trivial
  have hswitch : ∀ b, (Arg.switch b).Plain := fun b => trivial
  simp only [hostArgs, shownHostTexts, List.forall_mem_cons, htext, hnumber, hswitch,
    adminFingerprint_plain, true_and, List.not_mem_nil, false_imp_iff, implies_true]

theorem hostValue_plain (o : Outside) (s : Server κ) (i : HostIx) :
    (hostValue o s i).Plain bytes ↔ ∀ t ∈ shownHostTexts s.cfg i, bytes.PlainText t := by
  have hkeys : ∀ k ∈ (hostArgs s.cfg i).map Prod.fst, bytes.PlainText (ascii k) := by
    show ∀ k ∈ ["enabled", "url", "node", "token_id", "has_secret", "shutdown_node", "fingerprint",
      "on_battery_min", "charge_pct"], bytes.PlainText (ascii k)
    decide
  have hguest : ∀ g : PveGuest, (objectValue (guestArgs g)).Plain bytes := by
    intro g
    have hnames : ∀ k ∈ (guestArgs g).map Prod.fst, bytes.PlainText (ascii k) := by
      show ∀ k ∈ ["id", "on_battery_min", "charge_pct"], bytes.PlainText (ascii k)
      decide
    refine (members_plain hnames).mpr ?_
    simp only [guestArgs, List.forall_mem_cons]
    exact ⟨trivial, trivial, trivial, fun m hm => absurd hm List.not_mem_nil⟩
  have hguests : PlainItems bytes ((shownGuests o s i).map fun g => objectValue (guestArgs g)) :=
    plainItems_iff.mpr (List.forall_mem_map.mpr fun g _ => hguest g)
  have hkey : bytes.PlainText (ascii "guests") := by decide
  have hlast : PlainMembers bytes
      [(ascii "guests", .arr ((shownGuests o s i).map fun g => objectValue (guestArgs g)))] :=
    ⟨⟨hkey, hguests⟩, trivial⟩
  rw [← hostArgs_plain, ← members_plain hkeys]
  exact plainMembers_append.trans (and_iff_left hlast)

/-- **The page is plain** just if the strings that go out are. -/
theorem configPage_plain {o : Outside} (hname : bytes.PlainText o.defaultName) (s : Server κ) :
    (configPage o s).Plain bytes ↔ PlainConfig s.cfg := by
  have hkeys : ∀ k ∈ (configArgs o s.cfg).map Prod.fst, bytes.PlainText (ascii k) := by
    show ∀ k ∈ ["ble_addr", "log_level", "controls_enabled", "nut_enabled", "ups_name", "nut_port",
      "low_pct", "poll_ms", "nut_user", "nut_auth_set", "ac_rating_w", "battery_wh",
      "runtime_low_s", "wifi_mode", "wifi_ssid", "has_wifi_pass", "ap_ssid", "has_ap_pass",
      "default_ap_ssid", "auth_user", "auth_set", "hostname", "use_static_ip", "static_ip",
      "static_mask", "static_gw", "static_dns", "fb_ap_enabled", "fb_ap_ssid", "has_fb_ap_pass",
      "tg_enabled", "tg_chat", "has_tg_token", "tg_on_power", "tg_on_low_batt", "tg_on_link",
      "tg_on_pve_host", "tg_on_pve_guest", "tg_on_battery_pct"], bytes.PlainText (ascii k)
    decide +kernel
  have hpveKeys : ∀ k ∈ (pveArgs s.cfg).map Prod.fst, bytes.PlainText (ascii k) := by
    show ∀ k ∈ ["enabled", "armed", "mains_back_min", "selftest_hours"], bytes.PlainText (ascii k)
    decide
  have hpve : PlainMembers bytes ((pveArgs s.cfg).map memberValue) := by
    refine (members_plain hpveKeys).mpr ?_
    simp only [pveArgs, List.forall_mem_cons]
    exact ⟨trivial, trivial, trivial, trivial, fun m hm => absurd hm List.not_mem_nil⟩
  have hlast : ∀ k ∈ ["pve", "hosts"], bytes.PlainText (ascii k) := by decide
  have hhosts : PlainItems bytes (hostSlots.map (hostValue o s)) ↔
      ∀ i, ∀ t ∈ shownHostTexts s.cfg i, bytes.PlainText t := by
    rw [plainItems_iff, List.forall_mem_map]
    constructor
    · exact fun h i => (hostValue_plain o s i).mp (h i (Pve.mem_hostSlots i))
    · exact fun h i _ => (hostValue_plain o s i).mpr (h i)
  have happ : PlainMembers bytes ((configArgs o s.cfg).map memberValue) ↔
      ∀ f ∈ shownTexts, bytes.PlainText (text s.cfg f) :=
    (members_plain hkeys).trans (configArgs_plain hname s.cfg)
  constructor
  · intro h
    obtain ⟨hfirst, ⟨-, hblock⟩, -⟩ := plainMembers_append.mp h
    obtain ⟨-, ⟨-, hitems⟩, -⟩ := plainMembers_append.mp hblock
    exact ⟨happ.mp hfirst, hhosts.mp hitems⟩
  · rintro ⟨htexts, hhost⟩
    refine plainMembers_append.mpr ⟨happ.mpr htexts, ⟨hlast "pve" (by decide), ?_⟩, trivial⟩
    exact plainMembers_append.mpr ⟨hpve, ⟨hlast "hosts" (by decide), hhosts.mpr hhost⟩, trivial⟩

/-- **The settings page**, where it fits in its buffer, is JSON for what is stored if and only if no
    string in it has to be escaped. -/
theorem config_reply_iff {o : Outside} {r : Request} {s : Server κ}
    (hauth : (authOk o r s).1 = true)
    (halloc : o.alloc 0 = true) (hname : bytes.PlainText o.defaultName)
    (hfits : (adminConfigText o s).length < adminConfigSz) :
    Spells bytes (.value (configPage o s)) (hAdminConfig (printsConfig o s) r s).1.body ↔
      PlainConfig s.cfg := by
  have hbody : (hAdminConfig (printsConfig o s) r s).1.body = (configPage o s).raw bytes := by
    have hpage : (hAdminConfig (printsConfig o s) r s).1.body =
        fitBytes adminConfigSz (adminConfigText o s) := by
      have hsame : (authOk (printsConfig o s) r s).1 = true := hauth
      have hroom : (printsConfig o s).alloc 0 = true := halloc
      unfold hAdminConfig
      rw [requireAuth_go _ hsame]
      unfold heapPage
      simp only [hroom, Bool.not_true, Bool.false_eq_true, if_false]
      rfl
    rw [hpage, ← adminConfigText_raw]
    exact List.take_of_length_le (by omega)
  rw [hbody, spells_raw_iff, configPage_plain hname]

/-! ## 4. The three replies -/

/-- **When the replies are JSON.** For a request that is let through, whatever was on the air and
    whatever is stored: the lists of networks and of devices fit their buffers, and each is the JSON
    text of what it lists if and only if no name in it has to be escaped; and so are the settings,
    where they fit, if and only if no string that goes out has to be. -/
theorem json_replies_iff {o : Outside} {r : Request} {s : Server κ} {looks : List UInt8 → Bool}
    {adverts : List Advert} {b : Board} (hauth : (authOk o r s).1 = true)
    (halloc : o.alloc 0 = true)
    (hname : o.defaultName = appConfigDefaultName b)
    (hfound : s.bleFound = (adverts.foldl (handleScanDisc looks) ⟨[], []⟩).found)
    (hsized : ∀ e ∈ o.wifiFound, e.1.length ≤ 32 ∧ ∃ n : Int8, e.2.1 = n.toInt) :
    ((hWifiScan o r s).1.body.length < scanReplySz ∧
      (Spells bytes (.value (wifiPage (wifiListed o))) (hWifiScan o r s).1.body ↔
        ∀ e ∈ wifiListed o, bytes.PlainText e.1)) ∧
    ((hBleScan o r s).1.body.length < scanReplySz ∧
      (Spells bytes (.value (blePage (o.bleScanning || startsScan o r) (bleListed o r s)))
          (hBleScan o r s).1.body ↔ ∀ e ∈ bleListed o r s, bytes.PlainText e.name)) ∧
    ((adminConfigText o s).length < adminConfigSz →
      (Spells bytes (.value (configPage o s)) (hAdminConfig (printsConfig o s) r s).1.body ↔
        PlainConfig s.cfg)) := by
  have hlist : ScanList adverts s.bleFound := hfound ▸ found_onAir looks adverts
  have haddr : ∀ e ∈ bleListed o r s, bytes.PlainText e.addr := by
    intro e he
    unfold bleListed at he
    obtain ⟨k, htake⟩ := @listedOf_take _ scanEntryJson (bleHead o r).length true (bleShown o r s)
    rw [htake] at he
    have hshown := List.mem_of_mem_take he
    unfold bleShown at hshown
    split at hshown
    · cases hshown
    · obtain ⟨val, hval⟩ := (hlist.2 e hshown).addr
      rw [hval]
      exact addrToStr_plain val
  refine ⟨⟨wifi_reply_fits hauth halloc hsized, wifi_reply_iff hauth halloc⟩,
    ⟨ble_reply_fits hauth halloc hlist, ?_⟩, fun hfits => ?_⟩
  · rw [ble_reply_iff hauth halloc]
    exact forall_congr' fun e => forall_congr' fun he => and_iff_right (haddr e he)
  · exact config_reply_iff hauth halloc (hname ▸ defaultName_plain b) hfits

section Neighbour

/-- One network in reach, with a plain name. -/
def quietStreet : Outside := { quietOutside with wifiFound := [(ascii "Cafe", -40, true)] }

/-- `json_replies_iff` for it, on a unit without a password. -/
theorem json_replies_iff_quietStreet :
    ((hWifiScan quietStreet configRequest ruledServer).1.body.length < scanReplySz ∧
      (Spells bytes (.value (wifiPage (wifiListed quietStreet)))
          (hWifiScan quietStreet configRequest ruledServer).1.body ↔
        ∀ e ∈ wifiListed quietStreet, bytes.PlainText e.1)) ∧
    ((hBleScan quietStreet configRequest ruledServer).1.body.length < scanReplySz ∧
      (Spells bytes
        (.value (blePage (quietStreet.bleScanning || startsScan quietStreet configRequest)
          (bleListed quietStreet configRequest ruledServer)))
          (hBleScan quietStreet configRequest ruledServer).1.body ↔
        ∀ e ∈ bleListed quietStreet configRequest ruledServer, bytes.PlainText e.name)) ∧
    ((adminConfigText quietStreet ruledServer).length < adminConfigSz →
      (Spells bytes (.value (configPage quietStreet ruledServer))
          (hAdminConfig (printsConfig quietStreet ruledServer) configRequest ruledServer).1.body ↔
        PlainConfig ruledServer.cfg)) :=
  @json_replies_iff Nat quietStreet configRequest ruledServer (fun _ => false) [] kconfigBoard
    (by decide +kernel) rfl (by decide) rfl
    (fun e he => by
      rw [List.mem_singleton.mp he]
      exact ⟨by decide, -40, by decide⟩)

/-- A neighbour's network: its name closes the string and adds a member. -/
def neighbourStreet : Outside :=
  { quietOutside with wifiFound := [(ascii "x\",\"ssid\":\"y", -40, true)] }

/-- A UPS name with a quote in it, posted by the page. -/
def upsPost : Request := postOf "/api/reconfigure" (ascii "section=nut&ups_name=a%22b")

/-- The unit after it. -/
def renamedServer : Server Nat := (hAdminReconfigure quietOutside upsPost ruledServer).2

/-- **A neighbour's name gets into the page's data**: the reply has a second `ssid`, and is not the
    JSON text of the network that was found. And a name that was stored with a quote breaks the
    settings. -/
theorem names_break_json :
    (authOk neighbourStreet configRequest ruledServer).1 = true ∧ neighbourStreet.alloc 0 = true ∧
      (hWifiScan neighbourStreet configRequest ruledServer).1.body =
        ascii "\x7b\"aps\":[\x7b\"ssid\":\"x\",\"ssid\":\"y\",\"rssi\":-40,\"lock\":true\x7d]\x7d" ∧
      ¬ Spells bytes (.value (wifiPage (wifiListed neighbourStreet)))
        (hWifiScan neighbourStreet configRequest ruledServer).1.body ∧
      (hAdminReconfigure quietOutside upsPost ruledServer).1.status = .ok ∧
      text renamedServer.cfg .upsName = ascii "a\"b" ∧
      (adminConfigText quietOutside renamedServer).length < adminConfigSz ∧
      ¬ Spells bytes (.value (configPage quietOutside renamedServer))
        (hAdminConfig (printsConfig quietOutside renamedServer) configRequest
          renamedServer).1.body := by
  have hauth : (authOk neighbourStreet configRequest ruledServer).1 = true := by decide +kernel
  have hauth' : (authOk quietOutside configRequest renamedServer).1 = true := by decide +kernel
  have hups : text renamedServer.cfg .upsName = ascii "a\"b" := by decide +kernel
  have hfits : (adminConfigText quietOutside renamedServer).length < adminConfigSz := by
    decide +kernel
  have hplain : bytes.PlainText quietOutside.defaultName := by decide
  refine ⟨hauth, rfl, by decide +kernel, fun hspells => ?_, by decide +kernel, hups, hfits,
    fun hspells => ?_⟩
  · have hbad : ¬ ∀ e ∈ wifiListed neighbourStreet, bytes.PlainText e.1 := by decide +kernel
    exact hbad ((wifi_reply_iff hauth rfl).mp hspells)
  · have hok := ((config_reply_iff hauth' rfl hplain hfits).mp hspells).app .upsName (by decide)
    rw [hups] at hok
    exact absurd hok (by decide)

end Neighbour

end NutBluetti.Web
