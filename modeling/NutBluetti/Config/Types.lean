/-
  File:      NutBluetti/Config/Types.lean
  Subject:   THE STORED CONFIGURATION (app_config.h, app_config.c): members, layouts of every
             version, and the defaults of a board.

  `app_config_t` is the bytes at its offsets: what a version of the firmware stores and the next one
  reads is decided by offsets and lengths alone. The value of a member is its bytes; `read` gives
  them.
-/
import NutBluetti.Lib.CLayout

namespace NutBluetti.Config

open CLayout

/-! ## 1. Members -/

/-- The members of `app_config_t`. -/
inductive AppField where
  | wifiMode | wifiSsid | wifiPass | apSsid | apPass
  | hostname | useStaticIp | staticIp | staticMask | staticGw | staticDns
  | bleAddr | bleProbe | upsName | nutPort | acRatingW | runtimeLowS
  | nutUser | nutSalt | nutHash | nutAuthSet | pollMs | lowPct
  | tgEnabled | tgToken | tgChat | tgOnPower | tgOnLowBatt | tgOnLink
  | authUser | authSalt | authHash | authSet | provisioned
  | ledEnabled | ledGpio | controlsEnabled | batteryWh | logLevel
  | fbApEnabled | fbApSsid | fbApPass | pve | tgOnPveHost | tgOnPveGuest
  | nutEnabled | pveSelftestHours | tgOnBatteryPct
  deriving DecidableEq, Repr

/-- The members of `pve_host_t` and of `pve_config_t`. -/
inductive PveHostField where
  | enabled | url | node | tokenId | secret | guestWaitS | shutdownNode | fingerprint
  | onBatteryMin | chargePct
  deriving DecidableEq, Repr

inductive PveField where
  | enabled | armed | mainsBackMin
  | hosts
  deriving DecidableEq, Repr

section Sizes

variable {ν : Type}

/-- `bool` and `uint8_t`; `uint16_t` and `int16_t`; an array of bytes. -/
def byte (name : ν) : Member ν := ⟨name, 1, 1⟩
def half (name : ν) : Member ν := ⟨name, 2, 2⟩
def bytes (name : ν) (n : Nat) : Member ν := ⟨name, n, 1⟩

end Sizes

/-- `pve_host_t`. -/
def pveHostMembers : List (Member PveHostField) :=
  [byte .enabled, bytes .url 64, bytes .node 32, bytes .tokenId 64, bytes .secret 40,
   half .guestWaitS, byte .shutdownNode, bytes .fingerprint 65, half .onBatteryMin, byte .chargePct]

def pveMaxHosts : Nat := 4

/-- `pve_config_t`. -/
def pveMembers : List (Member PveField) :=
  [byte .enabled, byte .armed, half .mainsBackMin,
   ⟨.hosts, pveMaxHosts * CLayout.sizeOf pveHostMembers, alignOf pveHostMembers⟩]

/-- `app_config_t`. -/
def appMembers : List (Member AppField) :=
  [byte .wifiMode, bytes .wifiSsid 33, bytes .wifiPass 65, bytes .apSsid 33, bytes .apPass 65,
   bytes .hostname 33, byte .useStaticIp, bytes .staticIp 16, bytes .staticMask 16,
   bytes .staticGw 16, bytes .staticDns 16, bytes .bleAddr 18, byte .bleProbe, bytes .upsName 32,
   half .nutPort, half .acRatingW, half .runtimeLowS,
   bytes .nutUser 33, bytes .nutSalt 16, bytes .nutHash 32, byte .nutAuthSet, half .pollMs,
   byte .lowPct,
   byte .tgEnabled, bytes .tgToken 64, bytes .tgChat 24, byte .tgOnPower, byte .tgOnLowBatt,
   byte .tgOnLink,
   bytes .authUser 33, bytes .authSalt 16, bytes .authHash 32, byte .authSet, byte .provisioned,
   byte .ledEnabled, half .ledGpio, byte .controlsEnabled, half .batteryWh, byte .logLevel,
   byte .fbApEnabled, bytes .fbApSsid 33, bytes .fbApPass 65,
   ⟨.pve, CLayout.sizeOf pveMembers, alignOf pveMembers⟩, byte .tgOnPveHost, byte .tgOnPveGuest,
   byte .nutEnabled, half .pveSelftestHours, byte .tgOnBatteryPct]

/-- The two members of `cfg_blob_t`. -/
inductive BlobField where
  | version
  | cfg
  deriving DecidableEq, Repr

/-- `cfg_blob_t`, around a struct of the given members. -/
def blobMembers (cfg : List (Member AppField)) : List (Member BlobField) :=
  [⟨.version, 4, 4⟩, ⟨.cfg, CLayout.sizeOf cfg, alignOf cfg⟩]

/-- The offset of the struct in the blob, whatever its members. -/
def cfgStart : Nat := 4

/-! ## 2. Where today's members lie -/

def appSpans : List (Span AppField) := place 0 appMembers

/-- `offsetof` and `sizeof` of a member. -/
def AppField.span (f : AppField) : Span AppField :=
  (appSpans.find? fun s => s.name = f).getD ⟨f, 0, 0⟩

def PveField.span (f : PveField) : Span PveField :=
  ((place 0 pveMembers).find? fun s => s.name = f).getD ⟨f, 0, 0⟩

def PveHostField.span (f : PveHostField) : Span PveHostField :=
  ((place 0 pveHostMembers).find? fun s => s.name = f).getD ⟨f, 0, 0⟩

theorem AppField.span_mem (f : AppField) : f.span ∈ appSpans := by
  cases f <;> decide

theorem AppField.span_name (f : AppField) : f.span.name = f := by
  cases f <;> decide

/-- Different members of `app_config_t` share no byte. -/
theorem AppField.span_apart {f g : AppField} (h : f ≠ g) : Apart f.span g.span := by
  refine place_apart f.span_mem g.span_mem fun heq => h ?_
  rw [← f.span_name, ← g.span_name, heq]

/-! ## 3. Versions -/

def cfgVersion : Nat := 18

/-- The last member of the struct of a version, by the history in app_config.c. -/
def lastField : Nat → AppField
  | 3 => .ledEnabled
  | 4 => .ledGpio
  | 5 => .controlsEnabled
  | 6 => .logLevel
  | 7 => .fbApPass
  | 12 => .pve
  | 13 => .tgOnPveHost
  | 14 => .tgOnPveGuest
  | 15 => .nutEnabled
  | 16 => .nutEnabled
  | 17 => .pveSelftestHours
  | _ => .tgOnBatteryPct

/-- How many members the struct of a version has. -/
def versionCount (v : Nat) : Nat := appMembers.findIdx (fun m => m.name == lastField v) + 1

/-- The struct of a version: a prefix of today's. -/
def versionMembers (v : Nat) : List (Member AppField) := appMembers.take (versionCount v)

/-- The members that came after a version. -/
def laterMembers (v : Nat) : List (Member AppField) := appMembers.drop (versionCount v)

/-- `sizeof (cfg_blob_t)` of a version. -/
def blobSize (v : Nat) : Nat := CLayout.sizeOf (blobMembers (versionMembers v))

/-! ## 4. Defaults -/

/-- What the defaults of a unit depend on: Kconfig, the last bytes of its MAC address, the random
    salt drawn for the NUT password, and SHA-256. -/
structure Board where
  wifiSsid : List UInt8
  wifiPassword : List UInt8
  bleAddress : List UInt8
  upsName : List UInt8
  nutTcpPort : UInt16
  pollIntervalMs : UInt16
  batteryLowPct : UInt8
  acRatingW : UInt16
  runtimeLowS : UInt16
  statusLedGpio : UInt16
  mac4 : UInt8
  mac5 : UInt8
  salt : List UInt8
  sha256 : List UInt8 → List UInt8
  salt_length : salt.length = 16
  sha256_length : ∀ m, (sha256 m).length = 32

/-- The bytes of a text literal. -/
def ascii (s : String) : List UInt8 := s.toList.map fun c => UInt8.ofNat c.toNat

def le16 (v : UInt16) : List UInt8 := [v.toUInt8, (v >>> 8).toUInt8]

def boolByte (b : Bool) : UInt8 := if b then 1 else 0

/-- `%02X`. -/
def hex2 (b : UInt8) : List UInt8 :=
  let digit := fun n : Nat => UInt8.ofNat (if n < 10 then 48 + n else 55 + n)
  [digit (b.toNat / 16), digit (b.toNat % 16)]

/-- An assignment to a member. -/
def set (img : Image) (f : AppField) (value : List UInt8) : Image := img.poke f.span.start value

/-- `strlcpy` into a member: what fits, and a NUL. -/
def strlcpy (img : Image) (f : AppField) (s : List UInt8) : Image :=
  set img f (s.take (f.span.size - 1) ++ [0])

/-- `app_config_default_name`, as `snprintf` leaves it in a buffer that holds it. -/
def appConfigDefaultName (b : Board) : List UInt8 :=
  ascii "esp-nut-bluetti-" ++ hex2 b.mac4 ++ hex2 b.mac5

/-- `app_config_default_nut_password`. -/
def appConfigDefaultNutPassword (b : Board) : List UInt8 :=
  ascii "bluetti" ++ hex2 b.mac4 ++ hex2 b.mac5

/-- `app_config_set_nut_password` of a password that is not empty. -/
def appConfigSetNutPassword (b : Board) (img : Image) (password : List UInt8) : Image :=
  let img := set img .nutSalt b.salt
  let img := set img .nutHash (b.sha256 (b.salt ++ password))
  set img .nutAuthSet [1]

/-- `app_config_pve_defaults`, on the block that starts at `base`. -/
def appConfigPveDefaults (img : Image) (base : Nat) : Image :=
  let img := img.poke base (List.replicate (CLayout.sizeOf pveMembers) 0)
  let img := img.poke (base + PveField.mainsBackMin.span.start) (le16 5)
  (List.range pveMaxHosts).foldl (fun img i =>
    let host := base + PveField.hosts.span.start + i * CLayout.sizeOf pveHostMembers
    let img := img.poke (host + PveHostField.onBatteryMin.span.start) (le16 30)
    let img := img.poke (host + PveHostField.chargePct.span.start) [10]
    let img := img.poke (host + PveHostField.guestWaitS.span.start) (le16 30)
    img.poke (host + PveHostField.shutdownNode.span.start) [1]) img

/-- A blank SSID from Kconfig means that the unit must be provisioned. -/
def blankSsid (b : Board) (img : Image) : Image :=
  if b.wifiSsid.take (AppField.wifiSsid.span.size - 1) = ascii "myssid" then
    set (set img .wifiSsid [0]) .wifiPass [0]
  else img

/-- **`app_config_defaults`**. -/
def appConfigDefaults (b : Board) : Image :=
  let img : Image := fun _ => 0
  let img := set img .wifiMode [0]
  let img := strlcpy img .wifiSsid b.wifiSsid
  let img := strlcpy img .wifiPass b.wifiPassword
  let img := strlcpy img .bleAddr b.bleAddress
  let img := strlcpy img .upsName b.upsName
  let img := set img .nutPort (le16 b.nutTcpPort)
  let img := set img .pollMs (le16 b.pollIntervalMs)
  let img := set img .lowPct [b.batteryLowPct]
  let img := set img .acRatingW (le16 b.acRatingW)
  let img := set img .runtimeLowS (le16 b.runtimeLowS)
  let img := strlcpy img .hostname (appConfigDefaultName b)
  let img := set img .useStaticIp [0]
  let img := set img .tgOnPower [1]
  let img := set img .tgOnLowBatt [1]
  let img := set img .tgOnLink [0]
  let img := set img .tgOnBatteryPct [0]
  let img := set img .tgOnPveHost [1]
  let img := set img .tgOnPveGuest [1]
  let img := strlcpy img .nutUser (ascii "upsmon")
  let img := appConfigSetNutPassword b img (appConfigDefaultNutPassword b)
  let img := strlcpy img .authUser (ascii "admin")
  let img := set img .authSet [0]
  let img := set img .provisioned [0]
  let img := set img .ledEnabled [1]
  let img := set img .ledGpio (le16 b.statusLedGpio)
  let img := set img .controlsEnabled [0]
  let img := set img .batteryWh (le16 0)
  let img := set img .logLevel [0]
  let img := set img .bleProbe [0]
  let img := set img .fbApEnabled [0]
  let img := set img .nutEnabled [0]
  let img := set img .pveSelftestHours (le16 24)
  let img := appConfigPveDefaults img AppField.pve.span.start
  blankSsid b img

end NutBluetti.Config
