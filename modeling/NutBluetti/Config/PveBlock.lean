/-
  File:      NutBluetti/Config/PveBlock.lean
  Subject:   THE PROXMOX BLOCK AFTER A BOOT: whatever the config key holds, no unit comes up armed
             unless the stored bytes say so in a layout that means what today's does.

  * `pveDefaults_at` -- `app_config_pve_defaults` writes the whole block, the same bytes anywhere;
  * `Accepted` -- the blobs the loader takes; `Readable` -- those whose Proxmox block it reads;
  * **`pve_loaded`** -- a flag is on exactly when a readable blob reaches its byte and the byte is
    not zero; without a readable blob the block is the defaults; with one, each byte is the stored
    one as far as the blob reaches and the default beyond;
  * `switched_off_kept` -- a readable blob with both flags off keeps its other settings.
-/
import NutBluetti.Config.Upgrade

namespace NutBluetti.Config

open CLayout

/-! ## 1. The block of the defaults -/

def pveSize : Nat := CLayout.sizeOf pveMembers

/-- A byte of the block that `app_config_pve_defaults` leaves. -/
def pveDefaultByte (k : Nat) : UInt8 := appConfigPveDefaults (fun _ => 0) 0 k

/-- Two memories hold the same block, each at its own address. -/
def SameBlock (f : Image) (a : Nat) (g : Image) (c : Nat) : Prop :=
  ∀ k < pveSize, f (a + k) = g (c + k)

theorem SameBlock.poke {f g : Image} {a c : Nat} (h : SameBlock f a g c) {p q : Nat}
    (hpq : p + c = q + a) (bytes : List UInt8) :
    SameBlock (f.poke p bytes) a (g.poke q bytes) c := by
  intro k hk
  unfold Image.poke
  by_cases hin : p ≤ a + k ∧ a + k < p + bytes.length
  · rw [if_pos hin, if_pos (by omega), show a + k - p = c + k - q by omega]
  · rw [if_neg hin, if_neg (by omega)]
    exact h k hk

/-- A block that is written over agrees with any other one. -/
theorem sameBlock_fill (f g : Image) (a c : Nat) (v : UInt8) :
    SameBlock (f.poke a (List.replicate pveSize v)) a (g.poke c (List.replicate pveSize v)) c := by
  intro k hk
  unfold Image.poke
  rw [List.length_replicate, if_pos (by omega), if_pos (by omega), Nat.add_sub_cancel_left,
    Nat.add_sub_cancel_left]

theorem SameBlock.foldl (step : Nat → Image → Nat → Image) {a c : Nat}
    (hstep : ∀ f g i, SameBlock f a g c → SameBlock (step a f i) a (step c g i) c) {f g : Image}
    (h : SameBlock f a g c) (is : List Nat) :
    SameBlock (is.foldl (step a) f) a (is.foldl (step c) g) c := by
  induction is generalizing f g with
  | nil => exact h
  | cons i is ih => exact ih (hstep f g i h)

/-- **The defaults write the whole block**, whatever was there, the same bytes at any address. -/
theorem pveDefaults_at (img : Image) (base : Nat) :
    SameBlock (appConfigPveDefaults img base) base (appConfigPveDefaults (fun _ => 0) 0) 0 := by
  unfold appConfigPveDefaults
  refine SameBlock.foldl (fun base img i =>
    let host := base + PveField.hosts.span.start + i * CLayout.sizeOf pveHostMembers
    let img := img.poke (host + PveHostField.onBatteryMin.span.start) (le16 30)
    let img := img.poke (host + PveHostField.chargePct.span.start) [10]
    let img := img.poke (host + PveHostField.guestWaitS.span.start) (le16 30)
    img.poke (host + PveHostField.shutdownNode.span.start) [1]) (fun f g i h => ?_) ?_ _
  · exact (((h.poke (by omega) _).poke (by omega) _).poke (by omega) _).poke (by omega) _
  · exact (sameBlock_fill img (fun _ => 0) base 0 0).poke (by omega) _

/-- The block of a config, byte by byte. -/
def pveByte (cfg : Image) (k : Nat) : UInt8 := cfg (AppField.pve.span.start + k)

/-- **The block is exactly `app_config_pve_defaults`.** -/
def PveDefaults (cfg : Image) : Prop := ∀ k < pveSize, pveByte cfg k = pveDefaultByte k

theorem pveDefaults_of_read {cfg cfg' : Image}
    (h : cfg.read AppField.pve.span = cfg'.read AppField.pve.span) (hd : PveDefaults cfg') :
    PveDefaults cfg := by
  intro k hk
  rw [← hd k hk]
  exact read_eq_iff.mp h k hk

theorem pveDefaults_reset (cfg : Image) :
    PveDefaults (appConfigPveDefaults cfg AppField.pve.span.start) := by
  intro k hk
  have := pveDefaults_at cfg AppField.pve.span.start k hk
  rw [Nat.zero_add] at this
  exact this

theorem defaults_pve (b : Board) : PveDefaults (appConfigDefaults b) := by
  unfold appConfigDefaults
  exact pveDefaults_of_read (read_blankSsid_other b _ (by decide) (by decide)) (pveDefaults_reset _)

/-- Off, and a dry run. -/
theorem pveDefaultByte_flags :
    pveDefaultByte PveField.enabled.span.start = 0 ∧
      pveDefaultByte PveField.armed.span.start = 0 := by
  decide +kernel

/-! ## 2. What is read -/

/-- The version word as stored. -/
def storedVersion (stored : List UInt8) : Nat := versionWord fun i => stored.getD i 0

/-- The blobs the loader accepts. -/
structure Accepted (allocOk : Bool) (stored : List UInt8) : Prop where
  short : stored.length ≤ maxOnDisk
  alloc : allocOk = true
  long : minLen ≤ stored.length
  oldest : 3 ≤ storedVersion stored
  newest : storedVersion stored ≤ cfgVersion

/-- Those whose Proxmox block has today's layout. -/
structure Readable (allocOk : Bool) (stored : List UInt8) : Prop where
  accepted : Accepted allocOk stored
  since : 12 ≤ storedVersion stored

/-- Where a byte of the block lies in a blob. -/
def pveAt (k : Nat) : Nat := cfgStart + AppField.pve.span.start + k

section Load

variable (b : Board) {allocOk : Bool} {stored : List UInt8}

/-- The struct before the overrides. -/
def takenOver (stored : List UInt8) : Image :=
  (appConfigDefaults b).copy (((blobOf (appConfigDefaults b)).poke 0 stored).from cfgStart)
    (trustedLen (storedVersion stored))

theorem load_accepted (h : Accepted allocOk stored) :
    appConfigLoad b (some stored) allocOk =
      overrides (storedVersion stored) (takenOver b stored) := by
  obtain ⟨hshort, rfl, hlong, hold, hnew⟩ := h
  have hmin : minLen = 618 := by decide
  have hversion : versionWord ((blobOf (appConfigDefaults b)).poke 0 stored) =
      storedVersion stored := versionWord_poke _ (by omega)
  unfold appConfigLoad takenOver
  simp only [Bool.not_true, Bool.false_eq_true, if_false, hversion]
  rw [if_neg (by omega), if_neg (by omega)]

/-- A blob that is not accepted leaves the defaults. -/
theorem load_rejected (h : ¬ Accepted allocOk stored) :
    appConfigLoad b (some stored) allocOk = appConfigDefaults b := by
  have hmin : minLen = 618 := by decide
  unfold appConfigLoad
  simp only
  split
  · rfl
  rename_i hshort
  split
  · rfl
  rename_i halloc
  split
  · rfl
  rename_i hrest
  refine absurd ?_ h
  have hlong : minLen ≤ stored.length := by omega
  rw [versionWord_poke _ (by omega)] at hrest
  exact ⟨by omega, by simpa using halloc, hlong, by unfold storedVersion; omega,
    by unfold storedVersion; omega⟩

/-- The overrides of a version touch the block only to reset it. -/
theorem overrides_pve (v : Nat) (cfg : Image) :
    (overrides v cfg).read AppField.pve.span =
      (if 8 ≤ v ∧ v ≤ 11 then appConfigPveDefaults cfg AppField.pve.span.start
        else cfg).read AppField.pve.span := by
  by_cases hreset : 8 ≤ v ∧ v ≤ 11
  · have heq : overrides v cfg = set (logOverride v (nutOverride v
        (appConfigPveDefaults cfg AppField.pve.span.start))) .bleProbe
        [boolByte (decide (appLogVerbose ≤ logOverride v (nutOverride v
          (appConfigPveDefaults cfg AppField.pve.span.start)) AppField.logLevel.span.start))] := by
      unfold overrides
      simp only [if_pos hreset]
      rfl
    rw [heq, if_pos hreset, read_set_other _ (Nat.le_of_eq rfl) (by decide),
      read_logOverride _ _ (by decide), read_nutOverride _ _ (by decide)]
  · rw [if_neg hreset]
    exact read_overrides_other hreset cfg (by decide) (by decide) (by decide)

theorem pveSize_fits : AppField.pve.span.size = pveSize ∧
    AppField.pve.span.start + pveSize ≤ sizeofAppConfig := by
  decide +kernel

/-- A version from 3 to 11 brings no byte of the block. -/
theorem load_old (h : Accepted allocOk stored) (hv : storedVersion stored ≤ 11) :
    PveDefaults (appConfigLoad b (some stored) allocOk) := by
  rw [load_accepted b h]
  refine pveDefaults_of_read (overrides_pve _ _) ?_
  split
  · exact pveDefaults_reset _
  · intro k hk
    rw [← defaults_pve b k hk]
    unfold pveByte takenOver Image.copy trustedLen
    rw [if_pos hv, if_neg (by omega)]

/-- A byte of the struct that a later version brings, as far as the blob reaches. -/
theorem takenOver_byte (hv : 12 ≤ storedVersion stored) {i : Nat} (hi : i < sizeofAppConfig) :
    takenOver b stored i =
      if cfgStart + i < stored.length then stored.getD (cfgStart + i) 0
      else appConfigDefaults b i := by
  have htrust : trustedLen (storedVersion stored) = sizeofAppConfig := if_neg (by omega)
  unfold takenOver Image.copy
  rw [htrust, if_pos hi]
  unfold Image.from Image.poke
  by_cases hin : cfgStart + i < stored.length
  · rw [if_pos hin, if_pos ⟨Nat.zero_le _, by omega⟩, Nat.sub_zero]
  · rw [if_neg hin, if_neg (by omega)]
    unfold blobOf
    rw [if_neg (by omega), Nat.add_sub_cancel_left]

/-- It brings the bytes of the block that it reaches. -/
theorem load_readable (h : Readable allocOk stored) {k : Nat} (hk : k < pveSize) :
    pveByte (appConfigLoad b (some stored) allocOk) k =
      if pveAt k < stored.length then stored.getD (pveAt k) 0 else pveDefaultByte k := by
  have hsince := h.since
  obtain ⟨hsize, hfits⟩ := pveSize_fits
  have hread := overrides_pve (storedVersion stored) (takenOver b stored)
  rw [if_neg (by omega)] at hread
  have hbyte : pveByte (overrides (storedVersion stored) (takenOver b stored)) k =
      pveByte (takenOver b stored) k := read_eq_iff.mp hread k (by omega)
  rw [load_accepted b h.accepted, hbyte, ← defaults_pve b k hk]
  unfold pveByte pveAt
  rw [takenOver_byte b hsince (by omega), Nat.add_assoc]

/-! ## 3. The statement -/

/-- The blob that the block is read from. -/
def ReadFrom (nvs : Option (List UInt8)) (allocOk : Bool) (stored : List UInt8) : Prop :=
  nvs = some stored ∧ Readable allocOk stored

/-- Without a readable blob the block is the defaults. -/
theorem load_unread (nvs : Option (List UInt8)) (h : ∀ stored, ¬ ReadFrom nvs allocOk stored) :
    PveDefaults (appConfigLoad b nvs allocOk) := by
  cases nvs with
  | none => exact defaults_pve b
  | some stored =>
      by_cases ha : Accepted allocOk stored
      · have hold : storedVersion stored ≤ 11 := by
          refine Nat.le_of_not_lt fun hnew => ?_
          exact h stored ⟨rfl, ha, hnew⟩
        exact load_old b ha hold
      · rw [load_rejected b ha]
        exact defaults_pve b

/-- A flag of the block: `pve.enabled` or `pve.armed`. -/
def pveFlag (cfg : Image) (f : PveField) : Bool := pveByte cfg f.span.start ≠ 0

/-- A byte that is off in the defaults is on exactly when it was stored so. -/
theorem load_flag_iff (nvs : Option (List UInt8)) {f : PveField} (hf : f.span.start < pveSize)
    (hoff : pveDefaultByte f.span.start = 0) :
    pveFlag (appConfigLoad b nvs allocOk) f = true ↔
      ∃ stored, ReadFrom nvs allocOk stored ∧ pveAt f.span.start < stored.length ∧
        stored.getD (pveAt f.span.start) 0 ≠ 0 := by
  unfold pveFlag
  rw [decide_eq_true_iff]
  constructor
  · intro hon
    have hread : ∃ stored, ReadFrom nvs allocOk stored := by
      refine Classical.byContradiction fun hnone => ?_
      have hdef := load_unread b nvs (not_exists.mp hnone) f.span.start hf
      exact hon (hdef.trans hoff)
    obtain ⟨stored, rfl, hr⟩ := hread
    rw [load_readable b hr hf] at hon
    split at hon
    next hin => exact ⟨stored, ⟨rfl, hr⟩, hin, hon⟩
    next => exact absurd hoff hon
  · rintro ⟨stored, ⟨rfl, hr⟩, hin, hne⟩
    rw [load_readable b hr hf, if_pos hin]
    exact hne

end Load

/-- **The Proxmox block after a boot**, for every content of the config key. -/
theorem pve_loaded (b : Board) (nvs : Option (List UInt8)) (allocOk : Bool) :
    (∀ f ∈ [PveField.enabled, PveField.armed],
      pveFlag (appConfigLoad b nvs allocOk) f = true ↔
        ∃ stored, ReadFrom nvs allocOk stored ∧ pveAt f.span.start < stored.length ∧
          stored.getD (pveAt f.span.start) 0 ≠ 0) ∧
    ((∀ stored, ¬ ReadFrom nvs allocOk stored) → PveDefaults (appConfigLoad b nvs allocOk)) ∧
    (∀ stored, ReadFrom nvs allocOk stored → ∀ k < pveSize,
      pveByte (appConfigLoad b nvs allocOk) k =
        if pveAt k < stored.length then stored.getD (pveAt k) 0 else pveDefaultByte k) := by
  refine ⟨fun f hf => ?_, load_unread b nvs, ?_⟩
  · have hflags := pveDefaultByte_flags
    have hsmall : PveField.enabled.span.start < pveSize ∧ PveField.armed.span.start < pveSize := by
      decide
    rcases List.mem_cons.mp hf with rfl | hf
    · exact load_flag_iff b nvs hsmall.1 hflags.1
    · obtain rfl := List.mem_singleton.mp hf
      exact load_flag_iff b nvs hsmall.2 hflags.2
  · rintro stored ⟨rfl, hr⟩ k hk
    exact load_readable b hr hk

/-- A blob of today's version with the feature off and `mains_back_min` at nine. -/
def switchedOffBlob : List UInt8 :=
  le16 18 ++ List.replicate (pveAt PveField.mainsBackMin.span.start - 2) 0 ++ [9, 0] ++
    List.replicate (sizeofBlob - pveAt PveField.mainsBackMin.span.start - 2) 0

/-- **Switched off is not reset**: neither flag is on in the stored bytes, and the block is not that
    of the defaults. -/
theorem switched_off_kept :
    ¬ ∀ (b : Board) (nvs : Option (List UInt8)) (allocOk : Bool),
      (∃ f ∈ [PveField.enabled, PveField.armed], ∃ stored, ReadFrom nvs allocOk stored ∧
        pveAt f.span.start < stored.length ∧ stored.getD (pveAt f.span.start) 0 ≠ 0) ∨
      PveDefaults (appConfigLoad b nvs allocOk) := by
  intro h
  have hread : Readable true switchedOffBlob :=
    ⟨⟨by decide +kernel, rfl, by decide +kernel, by decide, by decide⟩,
      by decide⟩
  rcases h kconfigBoard (some switchedOffBlob) true with ⟨f, hf, stored, hfrom, -, hne⟩ | hdef
  · obtain rfl := Option.some.inj hfrom.1
    have hzero : ∀ f ∈ [PveField.enabled, PveField.armed],
        switchedOffBlob.getD (pveAt f.span.start) 0 = 0 := by decide +kernel
    exact hne (hzero f hf)
  · have hkept := hdef PveField.mainsBackMin.span.start (by decide)
    rw [load_readable kconfigBoard hread (by decide)] at hkept
    exact absurd hkept (by decide +kernel)

end NutBluetti.Config
