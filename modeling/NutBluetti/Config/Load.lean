/-
  File:      NutBluetti/Config/Load.lean
  Subject:   LOADING AND SAVING (app_config.c): `app_config_load`, `app_config_save`.

  NVS holds the blob as bytes, or nothing that can be read (`none`).
-/
import NutBluetti.Config.Types

namespace NutBluetti.Config

open CLayout

/-- The longest blob that is read. -/
def maxOnDisk : Nat := 8192

/-- `min_len`: no version that is kept is shorter. -/
def minLen : Nat := cfgStart + AppField.ledGpio.span.start

def sizeofAppConfig : Nat := CLayout.sizeOf appMembers

def sizeofBlob : Nat := CLayout.sizeOf (blobMembers appMembers)

/-- `APP_LOG_VERBOSE`. -/
def appLogVerbose : UInt8 := 2

/-- The version word of a blob in memory. -/
def versionWord (blob : Image) : Nat :=
  (blob 0).toNat + 256 * ((blob 1).toNat + 256 * ((blob 2).toNat + 256 * (blob 3).toNat))

/-- A `cfg_blob_t` of today's version. -/
def blobOf (cfg : Image) : Image := fun i =>
  if i < cfgStart then [UInt8.ofNat cfgVersion, 0, 0, 0].getD i 0 else cfg (i - cfgStart)

/-- How much of a stored struct means what today's does. -/
def trustedLen (version : Nat) : Nat :=
  if version ≤ 11 then AppField.pve.span.start else sizeofAppConfig

/-- What is done to a config of an older version after its bytes were taken over. -/
def overrides (version : Nat) (cfg : Image) : Image :=
  let cfg := if 8 ≤ version ∧ version ≤ 11 then appConfigPveDefaults cfg AppField.pve.span.start
    else cfg
  -- the NUT server had no switch before v15
  let cfg := if version < 15 then set cfg .nutEnabled [1] else cfg
  -- before v6 there was `ble_probe` only
  let cfg := if version < 6 then
      set cfg .logLevel [if cfg AppField.bleProbe.span.start ≠ 0 then appLogVerbose else 0]
    else cfg
  set cfg .bleProbe [boolByte (decide (appLogVerbose ≤ cfg AppField.logLevel.span.start))]

/-- **`app_config_load`**. -/
def appConfigLoad (b : Board) (nvs : Option (List UInt8)) (allocOk : Bool) : Image :=
  let cfg := appConfigDefaults b
  match nvs with
  | none => cfg
  | some stored =>
      if stored.length > maxOnDisk then cfg
      else if !allocOk then cfg
      else
        -- Pre-seeded, so that a short read leaves the newer members alone.
        let blob := (blobOf cfg).poke 0 stored
        let version := versionWord blob
        if stored.length < minLen ∨ version < 3 ∨ cfgVersion < version then cfg
        else overrides version (cfg.copy (blob.from cfgStart) (trustedLen version))

/-- `app_config_save`: the bytes it stores. -/
def appConfigSave (cfg : Image) : List UInt8 := (List.range sizeofBlob).map (blobOf cfg)

end NutBluetti.Config
