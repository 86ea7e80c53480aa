/-
  File:      NutBluetti/Web/SectionFrames.lean
  Subject:   WHAT A SECTION OF THE SETTINGS FORM MAY WRITE (provisioning.c, `h_admin_reconfigure`).
             The sections share one body and one configuration; each has members of its own.

  * `Section.fields`, `Secret` -- the members of a section, and the secrets among them;
  * `Moves` -- the footprint of a request: the members of its section, less the secrets it keeps;
  * `runSection_moves` -- each section stays within it;
  * `pveHosts_secret` -- and a host keeps its token and its pin;
  * **`sections_are_isolated`** -- for every configuration, every body and every section.
-/
import NutBluetti.Web.FailedSave
import NutBluetti.Web.FormCodec

namespace NutBluetti.Web

open CLayout
open NutBluetti.Config
open NutBluetti.Pve (PveGuest HostIx hostSlots)

variable {κ : Type}

/-! ## 1. Sections and secrets -/

/-- A member of the configuration, or of its Proxmox block. -/
inductive ConfigField where
  | app (f : AppField)
  | pve (f : PveField)
  deriving DecidableEq

/-- Where it lies in the configuration. -/
def ConfigField.span : ConfigField → Span ConfigField
  | .app f => ⟨.app f, f.span.start, f.span.size⟩
  | .pve f => ⟨.pve f, AppField.pve.span.start + f.span.start, f.span.size⟩

/-- The sections of the form. -/
inductive Section where
  | bluetti
  | nut
  | wifi
  | pve
  | notify
  | integrations
  deriving DecidableEq, Repr

/-- The field `section` of the form. -/
def Section.name : Section → List UInt8
  | .bluetti => ascii "bluetti"
  | .nut => ascii "nut"
  | .wifi => ascii "wifi"
  | .pve => ascii "pve"
  | .notify => ascii "notify"
  | .integrations => ascii "integrations"

/-- The members a section owns. -/
def Section.fields : Section → List ConfigField
  | .bluetti => [.app .bleAddr]
  | .nut =>
      [.app .upsName, .app .nutPort, .app .lowPct, .app .acRatingW, .app .batteryWh,
        .app .runtimeLowS, .app .nutUser, .app .nutSalt, .app .nutHash, .app .nutAuthSet]
  | .wifi =>
      [.app .hostname, .app .wifiMode, .app .apSsid, .app .apPass, .app .wifiSsid, .app .wifiPass,
        .app .useStaticIp, .app .staticIp, .app .staticMask, .app .staticGw, .app .staticDns,
        .app .fbApEnabled, .app .fbApSsid, .app .fbApPass]
  | .pve => [.pve .armed, .pve .mainsBackMin, .pve .hosts, .app .pveSelftestHours]
  | .notify =>
      [.app .tgToken, .app .tgChat, .app .tgOnPower, .app .tgOnLowBatt, .app .tgOnLink,
        .app .tgOnPveHost, .app .tgOnPveGuest, .app .tgOnBatteryPct]
  | .integrations => [.app .nutEnabled, .pve .enabled, .app .tgEnabled]

/-- The secrets of the configuration; each of the Proxmox hosts has a token and a pin besides. -/
inductive Secret where
  | wifiPass
  | apPass
  | fbApPass
  | nutPass
  | tgToken
  deriving DecidableEq, Repr

namespace Secret

/-- The members that hold it. -/
def fields : Secret → List AppField
  | wifiPass => [.wifiPass]
  | apPass => [.apPass]
  | fbApPass => [.fbApPass]
  | nutPass => [.nutSalt, .nutHash, .nutAuthSet]
  | tgToken => [.tgToken]

/-- Its field in the form, and the box that clears it. -/
def key : Secret → String
  | wifiPass => "wifi_pass"
  | apPass => "ap_pass"
  | fbApPass => "fb_ap_pass"
  | nutPass => "nut_pass"
  | tgToken => "tg_token"

def clearKey : Secret → Option String
  | wifiPass => some "wifi_open"
  | apPass => some "ap_open"
  | fbApPass => some "fb_ap_open"
  | nutPass => some "nut_noauth"
  | tgToken => none

/-- The form leaves it alone: its field is blank or absent, and its box is not 1. -/
def Kept (body : List UInt8) (sec : Secret) : Prop :=
  formText body sec.key 128 = [] ∧ ∀ box, sec.clearKey = some box → formIsOne body box 128 = false

end Secret

/-- **The footprint of a request**: the members of its section, less the secrets the form leaves
    alone. -/
def Moves (X : Section) (body : List UInt8) (k : Nat) : Prop :=
  (∃ f ∈ X.fields, f.span.Has k) ∧
    ∀ sec : Secret, sec.Kept body → ∀ f ∈ sec.fields, ¬ f.span.Has k

/-- The Proxmox block holds its members. -/
theorem pveField_within (f : PveField) {k : Nat} (h : (ConfigField.pve f).span.Has k) :
    AppField.pve.span.Has k := by
  obtain ⟨hlo, hhi⟩ := h
  have hsize : ∀ f : PveField, f.span.start + f.span.size ≤ AppField.pve.span.size := by
    intro f
    cases f <;> decide
  have hf := hsize f
  have hstart : (ConfigField.pve f).span.start = AppField.pve.span.start + f.span.start := rfl
  have hlen : (ConfigField.pve f).span.size = f.span.size := rfl
  constructor <;> omega

/-- No member holds two secrets. -/
theorem Secret.fields_apart (sec sec' : Secret) :
    sec = sec' ∨ ∀ f ∈ sec.fields, f ∉ sec'.fields := by
  cases sec <;> cases sec' <;> first | exact .inl rfl | exact .inr (by decide)

/-- The members that hold a secret. -/
def secretFields : List AppField :=
  [.wifiPass, .apPass, .fbApPass, .nutSalt, .nutHash, .nutAuthSet, .tgToken]

theorem Secret.fields_subset (sec : Secret) : ∀ f ∈ sec.fields, f ∈ secretFields := by
  cases sec <;> decide

section Footprint

variable {X : Section} {body : List UInt8} {k : Nat}

theorem moves_app {f : AppField} (hf : .app f ∈ X.fields ∧ f ∉ secretFields) (hk : f.span.Has k) :
    Moves X body k := by
  refine ⟨⟨.app f, hf.1, hk⟩, fun sec _ g hg => ?_⟩
  have hne : f ≠ g := by
    rintro rfl
    exact hf.2 (sec.fields_subset f hg)
  exact (AppField.span_apart hne).not_has hk

theorem moves_pve {f : PveField} (hf : .pve f ∈ X.fields) (hk : (ConfigField.pve f).span.Has k) :
    Moves X body k := by
  refine ⟨⟨.pve f, hf, hk⟩, fun sec _ g hg => ?_⟩
  have hne : AppField.pve ≠ g := by
    rintro rfl
    cases sec <;> exact absurd hg (by decide)
  exact (AppField.span_apart hne).not_has (pveField_within f hk)

/-- A secret that the form does not leave alone. -/
theorem moves_secret {sec : Secret} {f : AppField} (hf : .app f ∈ X.fields ∧ f ∈ sec.fields)
    (hgiven : ¬ sec.Kept body) (hk : f.span.Has k) : Moves X body k := by
  refine ⟨⟨.app f, hf.1, hk⟩, fun sec' hkept g hg => ?_⟩
  have hne : f ≠ g := by
    rintro rfl
    rcases sec.fields_apart sec' with rfl | hno
    · exact hgiven hkept
    · exact hno f hf.2 hg
  exact (AppField.span_apart hne).not_has hk

theorem not_kept_of_text (sec : Secret) (h : formText body sec.key 128 ≠ []) : ¬ sec.Kept body :=
  fun hkept => h hkept.1

theorem not_kept_of_box (sec : Secret) {box : String} (hbox : sec.clearKey = some box)
    (h : formIsOne body box 128 = true) : ¬ sec.Kept body := fun hkept => by
  rw [hkept.2 box hbox] at h
  cases h

end Footprint

/-! ## 2. One field -/

section Steps

variable {P : Nat → Prop} {img₀ img : Image} {body : List UInt8} {key : String} {f : AppField}

theorem within_set (h : ChangedWithin P img₀ img) {value : List UInt8}
    (hlen : value.length ≤ f.span.size)
    (hf : ∀ k, f.span.Has k → P k) : ChangedWithin P img₀ (set img f value) :=
  h.trans (.poke img fun k hlo hhi => hf k ⟨hlo, by omega⟩)

theorem within_strlcpy (h : ChangedWithin P img₀ img) {value : List UInt8} (hpos : 0 < f.span.size)
    (hf : ∀ k, f.span.Has k → P k) : ChangedWithin P img₀ (strlcpy img f value) := by
  refine within_set h ?_ hf
  rw [List.length_append, List.length_take, List.length_singleton]
  omega

theorem within_keepText (h : ChangedWithin P img₀ img) (hpos : 0 < f.span.size)
    (hf : formText body key 128 ≠ [] → ∀ k, f.span.Has k → P k) :
    ChangedWithin P img₀ (keepText body key f img) := by
  unfold keepText
  dsimp only
  split
  · exact h
  · rename_i hgiven
    exact within_strlcpy h hpos (hf hgiven)

theorem within_intoText (h : ChangedWithin P img₀ img) (hpos : 0 < f.span.size)
    (hf : ∀ k, f.span.Has k → P k) : ChangedWithin P img₀ (intoText body key f img) := by
  refine within_set h ?_ hf
  have hlen := @length_formGet_le body key f.span.size
  rw [List.length_append, List.length_singleton]
  omega

theorem within_intoFlag (h : ChangedWithin P img₀ img) (hpos : 0 < f.span.size)
    (hf : ∀ k, f.span.Has k → P k) : ChangedWithin P img₀ (intoFlag body key f img) :=
  within_set h hpos hf

theorem within_clearText (h : ChangedWithin P img₀ img) (hpos : 0 < f.span.size)
    (hf : formIsOne body key 128 = true → ∀ k, f.span.Has k → P k) :
    ChangedWithin P img₀ (clearText body key f img) := by
  unfold clearText
  split
  · rename_i hone
    exact within_set h hpos (hf hone)
  · exact h

theorem within_intoHalf (h : ChangedWithin P img₀ img) {lo : Int} (hsize : 2 ≤ f.span.size)
    (hf : ∀ k, f.span.Has k → P k) : ChangedWithin P img₀ (intoHalf body key lo f img) := by
  unfold intoHalf
  split
  · exact h
  · split
    · exact within_set h hsize hf
    · exact h

theorem within_intoByte (h : ChangedWithin P img₀ img) {lo : Int} (hpos : 0 < f.span.size)
    (hf : ∀ k, f.span.Has k → P k) : ChangedWithin P img₀ (intoByte body key lo f img) := by
  unfold intoByte
  split
  · exact h
  · split
    · exact within_set h hpos hf
    · exact h

theorem within_setSecret (h : ChangedWithin P img₀ img) {sha256 : List UInt8 → List UInt8}
    {salt password : List UInt8} {fs : SecretFields} (hfs : fs.Proper) (hsalt : salt.length = 16)
    (hsha : ∀ m, (sha256 m).length = 32)
    (hf : ∀ g ∈ [fs.salt, fs.hash, fs.isSet], ∀ k, g.span.Has k → P k) :
    ChangedWithin P img₀ (setSecret sha256 salt fs img password) := by
  have hsaltP := hf fs.salt (by simp)
  have hhashP := hf fs.hash (by simp)
  have hsetP := hf fs.isSet (by simp)
  have hone : ∀ b : UInt8, [b].length ≤ fs.isSet.span.size := fun _ => Nat.le_of_eq hfs.isSet.symm
  unfold setSecret
  split
  · refine within_set (within_set (within_set h ?_ hsaltP) ?_ hhashP) (hone 0) hsetP
    · rw [List.length_replicate, hfs.salt]
    · rw [List.length_replicate, hfs.hash]
  · refine within_set (within_set (within_set h ?_ hsaltP) ?_ hhashP) (hone 1) hsetP
    · rw [hsalt, hfs.salt]
    · rw [hsha, hfs.hash]

end Steps

/-! ## 3. The sections without Proxmox -/

section Sections

variable {o : Outside} {body : List UInt8} {img₀ img res : Image}

theorem sectionBluetti_moves (h : ChangedWithin (Moves .bluetti body) img₀ img)
    (hrun : sectionBluetti body img = .ok res) : ChangedWithin (Moves .bluetti body) img₀ res := by
  unfold sectionBluetti at hrun
  extract_lets pending at hrun
  have hpending : ChangedWithin (Moves .bluetti body) img₀ pending := by
    unfold pending
    split
    · exact h
    · exact within_strlcpy h (by decide) fun k => moves_app (by decide)
  split at hrun
  · cases hrun
  · rw [← Except.ok.inj hrun]
    exact hpending

theorem sectionNut_moves (hsalt : o.salt.length = 16) (hsha : ∀ m, (o.sha256 m).length = 32)
    (h : ChangedWithin (Moves .nut body) img₀ img) :
    ChangedWithin (Moves .nut body) img₀ (sectionNut o body img) := by
  have hown : ∀ {f : AppField}, (.app f ∈ Section.fields .nut ∧ f ∉ secretFields) →
      ∀ k, f.span.Has k → Moves .nut body k := fun hf k => moves_app hf
  have hsecret : ¬ Secret.nutPass.Kept body →
      ∀ g ∈ [nutSecret.salt, nutSecret.hash, nutSecret.isSet], ∀ k, g.span.Has k →
      Moves .nut body k := by
    intro hgiven g hg k
    have hfields : ∀ g ∈ [nutSecret.salt, nutSecret.hash, nutSecret.isSet],
        .app g ∈ Section.fields .nut ∧ g ∈ Secret.fields .nutPass := by decide
    exact moves_secret (hfields g hg) hgiven
  have hrows : ChangedWithin (Moves .nut body) img₀
      (keepText body "nut_user" .nutUser (intoHalf body "runtime_low_s" 0 .runtimeLowS
        (intoHalf body "battery_wh" 0 .batteryWh (intoHalf body "ac_rating_w" 1 .acRatingW
          (intoByte body "low_pct" 1 .lowPct (intoHalf body "nut_port" 1 .nutPort
            (keepText body "ups_name" .upsName img))))))) := by
    refine within_keepText (within_intoHalf (within_intoHalf (within_intoHalf (within_intoByte
      (within_intoHalf (within_keepText h (by decide) fun _ => hown (by decide)) (by decide)
        (hown (by decide))) (by decide) (hown (by decide))) (by decide) (hown (by decide)))
          (by decide)
          (hown (by decide))) (by decide) (hown (by decide))) (by decide) fun _ => hown (by decide)
  unfold sectionNut
  extract_lets p₁ p₂ p₃ p₄ p₅ p₆ p₇ pass p₈
  have hpass : ChangedWithin (Moves .nut body) img₀ p₈ := by
    show ChangedWithin _ _ (if pass = [] then p₇ else _)
    split
    · exact hrows
    · rename_i hgiven
      exact within_setSecret hrows nutSecret_proper hsalt hsha
        (hsecret (not_kept_of_text .nutPass hgiven))
  split
  · rename_i hbox
    exact within_setSecret hpass nutSecret_proper hsalt hsha
      (hsecret (not_kept_of_box .nutPass rfl hbox))
  · exact hpass

/-- A member of section "wifi" that holds no secret. -/
theorem ownWifi {f : AppField} (hf : .app f ∈ Section.fields .wifi ∧ f ∉ secretFields) :
    ∀ k, f.span.Has k → Moves .wifi body k := fun _ => moves_app hf

/-- A password of section "wifi" that is posted, or whose box is set. -/
theorem passWifi {sec : Secret} {f : AppField} (hf : .app f ∈ Section.fields .wifi ∧ f ∈ sec.fields)
    (hgiven : ¬ sec.Kept body) : ∀ k, f.span.Has k → Moves .wifi body k :=
      fun _ => moves_secret hf hgiven

theorem defaultSsid_moves {f : AppField} (h : ChangedWithin (Moves .wifi body) img₀ img)
    (hpos : 0 < f.span.size) (hf : .app f ∈ Section.fields .wifi ∧ f ∉ secretFields) :
    ChangedWithin (Moves .wifi body) img₀ (defaultSsid o f img) := by
  unfold defaultSsid
  split
  · refine within_set h ?_ (ownWifi hf)
    unfold fitBytes
    rw [List.length_append, List.length_take, List.length_singleton]
    omega
  · exact h

theorem sectionWifiAp_moves (h : ChangedWithin (Moves .wifi body) img₀ img)
    (hrun : sectionWifiAp o body img = .ok res) : ChangedWithin (Moves .wifi body) img₀ res := by
  unfold sectionWifiAp at hrun
  extract_lets p₁ p₂ p₃ p₄ at hrun
  have hmode : ChangedWithin (Moves .wifi body) img₀ p₁ :=
    within_set h (by decide) (ownWifi (by decide))
  have hssid : ChangedWithin (Moves .wifi body) img₀ p₂ :=
    within_intoText hmode (by decide) (ownWifi (by decide))
  have hpass : ChangedWithin (Moves .wifi body) img₀ p₃ :=
    within_keepText hssid (by decide) fun hgiven =>
      passWifi (by decide) (not_kept_of_text .apPass hgiven)
  have hopen : ChangedWithin (Moves .wifi body) img₀ p₄ :=
    within_clearText hpass (by decide) fun hone =>
      passWifi (by decide) (not_kept_of_box .apPass rfl hone)
  split at hrun
  · cases hrun
  · rw [← Except.ok.inj hrun]
    exact defaultSsid_moves hopen (by decide) (by decide)

theorem fallbackAp_moves (h : ChangedWithin (Moves .wifi body) img₀ img) :
    ChangedWithin (Moves .wifi body) img₀ (fallbackAp body img) := by
  unfold fallbackAp
  extract_lets p₁ p₂ p₃
  have hflag : ChangedWithin (Moves .wifi body) img₀ p₁ :=
    within_intoFlag h (by decide) (ownWifi (by decide))
  split
  · have hssid : ChangedWithin (Moves .wifi body) img₀ p₂ :=
      within_intoText hflag (by decide) (ownWifi (by decide))
    have hpass : ChangedWithin (Moves .wifi body) img₀ p₃ :=
      within_keepText hssid (by decide) fun hgiven =>
        passWifi (by decide) (not_kept_of_text .fbApPass hgiven)
    exact within_clearText hpass (by decide) fun hone =>
      passWifi (by decide) (not_kept_of_box .fbApPass rfl hone)
  · exact hflag

theorem checkStatic_moves (h : ChangedWithin (Moves .wifi body) img₀ img)
    (hrun : checkStatic img = .ok res) : ChangedWithin (Moves .wifi body) img₀ res := by
  unfold checkStatic at hrun
  extract_lets p₁ at hrun
  have hmask : ChangedWithin (Moves .wifi body) img₀ p₁ := by
    show ChangedWithin _ _ (if text img .staticMask = [] then _ else img)
    split
    · exact within_strlcpy h (by decide) (ownWifi (by decide))
    · exact h
  split at hrun
  · cases hrun
  split at hrun
  · cases hrun
  split at hrun
  · cases hrun
  split at hrun
  · cases hrun
  rw [← Except.ok.inj hrun]
  exact hmask

theorem sectionWifiStation_moves (h : ChangedWithin (Moves .wifi body) img₀ img)
    (hrun : sectionWifiStation o body img = .ok res) :
    ChangedWithin (Moves .wifi body) img₀ res := by
  unfold sectionWifiStation at hrun
  extract_lets p₁ p₂ p₃ p₄ p₅ p₆ p₇ p₈ at hrun
  have hmode : ChangedWithin (Moves .wifi body) img₀ p₁ :=
    within_set h (by decide) (ownWifi (by decide))
  have hssid : ChangedWithin (Moves .wifi body) img₀ p₂ :=
    within_intoText hmode (by decide) (ownWifi (by decide))
  have hpass : ChangedWithin (Moves .wifi body) img₀ p₃ :=
    within_keepText hssid (by decide) fun hgiven =>
      passWifi (by decide) (not_kept_of_text .wifiPass hgiven)
  have hopen : ChangedWithin (Moves .wifi body) img₀ p₄ :=
    within_clearText hpass (by decide) fun hone =>
      passWifi (by decide) (not_kept_of_box .wifiPass rfl hone)
  have hflag : ChangedWithin (Moves .wifi body) img₀ p₅ :=
    within_intoFlag hopen (by decide) (ownWifi (by decide))
  have hstatic : ChangedWithin (Moves .wifi body) img₀ p₆ := by
    show ChangedWithin _ _ (if flag p₅ .useStaticIp then _ else p₅)
    split
    · exact within_intoText (within_intoText (within_intoText (within_intoText hflag (by decide)
        (ownWifi (by decide))) (by decide) (ownWifi (by decide))) (by decide) (ownWifi (by decide)))
          (by decide) (ownWifi (by decide))
    · exact hflag
  have hfallback : ChangedWithin (Moves .wifi body) img₀ p₇ := fallbackAp_moves hstatic
  have hname : ChangedWithin (Moves .wifi body) img₀ p₈ := by
    show ChangedWithin _ _ (if flag p₇ .fbApEnabled then _ else p₇)
    split
    · exact defaultSsid_moves hfallback (by decide) (by decide)
    · exact hfallback
  split at hrun
  · cases hrun
  split at hrun
  · cases hrun
  split at hrun
  · exact checkStatic_moves hname hrun
  · rw [← Except.ok.inj hrun]
    exact hname

theorem sectionWifi_moves (h : ChangedWithin (Moves .wifi body) img₀ img)
    (hrun : sectionWifi o body img = .ok res) : ChangedWithin (Moves .wifi body) img₀ res := by
  unfold sectionWifi at hrun
  dsimp only at hrun
  have hname : ChangedWithin (Moves .wifi body) img₀ (keepText body "hostname" .hostname img) :=
    within_keepText h (by decide) fun _ => ownWifi (by decide)
  split at hrun
  · exact sectionWifiAp_moves hname hrun
  · exact sectionWifiStation_moves hname hrun

theorem sectionNotify_moves (h : ChangedWithin (Moves .notify body) img₀ img)
    (hrun : sectionNotify body img = .ok res) : ChangedWithin (Moves .notify body) img₀ res := by
  have hown : ∀ {f : AppField}, (.app f ∈ Section.fields .notify ∧ f ∉ secretFields) →
      ∀ k, f.span.Has k → Moves .notify body k := fun hf k => moves_app hf
  have htoken : ChangedWithin (Moves .notify body) img₀ (keepText body "tg_token" .tgToken img) :=
    within_keepText h (by decide) fun hgiven k =>
      moves_secret (by decide) (not_kept_of_text .tgToken hgiven)
  unfold sectionNotify at hrun
  extract_lets p₁ p₂ p₃ p₄ p₅ p₆ p₇ p₈ at hrun
  have hflags : ChangedWithin (Moves .notify body) img₀ p₈ :=
    within_intoFlag
      (within_intoFlag (within_intoFlag (within_intoFlag (within_intoFlag (within_intoFlag
      (within_intoText htoken (by decide) (hown (by decide))) (by decide) (hown (by decide)))
        (by decide) (hown (by decide))) (by decide) (hown (by decide))) (by decide)
          (hown (by decide)))
          (by decide) (hown (by decide))) (by decide) (hown (by decide))
  split at hrun
  · cases hrun
  · rw [← Except.ok.inj hrun]
    exact hflags

theorem sectionIntegrations_moves (h : ChangedWithin (Moves .integrations body) img₀ img) :
    ChangedWithin (Moves .integrations body) img₀ (sectionIntegrations body img) := by
  have hown : ∀ {f : AppField}, (.app f ∈ Section.fields .integrations ∧ f ∉ secretFields) →
      ∀ k, f.span.Has k → Moves .integrations body k := fun hf k => moves_app hf
  unfold sectionIntegrations
  refine within_intoFlag (.trans (within_intoFlag h (by decide) (hown (by decide))) (.poke _ ?_))
    (by decide) (hown (by decide))
  intro k hlo hhi
  refine moves_pve (f := .enabled) (by decide) ⟨hlo, Nat.lt_of_lt_of_le hhi ?_⟩
  exact Nat.add_le_add_left (Nat.le_refl 1) _

end Sections

/-! ## 4. The hosts -/

/-- The bytes of a host. -/
def HostHas (i : HostIx) (k : Nat) : Prop := hostStart i ≤ k ∧ k < hostStart i + pveHostSize

theorem hostField_bounds (f : PveHostField) :
    0 < f.span.size ∧ f.span.start + f.span.size ≤ pveHostSize := by
  cases f <;> decide

theorem hostSpan_within {i : HostIx} {f : PveHostField} {k : Nat} (h : (hostSpan i f).Has k) :
    HostHas i k := by
  obtain ⟨-, hbound⟩ := hostField_bounds f
  obtain ⟨hlo, hhi⟩ := h
  have hstart : (hostSpan i f).start = hostStart i + f.span.start := rfl
  have hsize : (hostSpan i f).size = f.span.size := rfl
  constructor <;> omega

/-- Different members of a host share no byte. -/
theorem hostSpan_apart (i : HostIx) {f g : PveHostField} (h : f ≠ g) :
    Apart (hostSpan i f) (hostSpan i g) := by
  have hspans : ∀ f : PveHostField, f.span ∈ place 0 pveHostMembers ∧ f.span.name = f := by
    intro f
    cases f <;> decide
  have hne : f.span ≠ g.span := fun heq => h (by rw [← (hspans f).2, heq, (hspans g).2])
  have happart := place_apart (hspans f).1 (hspans g).1 hne
  unfold Apart hostSpan at *
  dsimp only
  omega

/-- Nor do different hosts. -/
theorem hostHas_apart {i j : HostIx} (h : i ≠ j) {k : Nat} (hk : HostHas i k) : ¬ HostHas j k := by
  obtain ⟨hlo, hhi⟩ := hk
  rintro ⟨hlo', hhi'⟩
  have hne : i.val ≠ j.val := fun heq => h (Fin.ext heq)
  unfold hostStart at *
  rcases Nat.lt_or_gt_of_ne hne with hlt | hlt
  · have hmul : (i.val + 1) * pveHostSize ≤ j.val * pveHostSize := Nat.mul_le_mul_right _ hlt
    rw [Nat.succ_mul] at hmul
    omega
  · have hmul : (j.val + 1) * pveHostSize ≤ i.val * pveHostSize := Nat.mul_le_mul_right _ hlt
    rw [Nat.succ_mul] at hmul
    omega

/-- The hosts lie in the Proxmox block. -/
theorem hostHas_hosts {i : HostIx} {k : Nat} (h : HostHas i k) :
    (ConfigField.pve .hosts).span.Has k := by
  obtain ⟨hlo, hhi⟩ := h
  have hsize : (ConfigField.pve .hosts).span.size = 4 * pveHostSize := by decide
  have hstart : (ConfigField.pve .hosts).span.start =
    AppField.pve.span.start + PveField.hosts.span.start := rfl
  have hi := i.isLt
  have hmul : (i.val + 1) * pveHostSize ≤ 4 * pveHostSize := Nat.mul_le_mul_right _ hi
  rw [Nat.succ_mul] at hmul
  unfold hostStart at hlo hhi
  constructor <;> omega

section Host

variable {P : Nat → Prop} {img₀ img : Image} {body : List UInt8} {i : HostIx} {name : String}
  {f : PveHostField}

theorem within_setHost (h : ChangedWithin P img₀ img) {value : List UInt8}
    (hlen : value.length ≤ f.span.size) (hf : ∀ k, (hostSpan i f).Has k → P k) :
    ChangedWithin P img₀ (setHost img i f value) :=
  h.trans
    (.poke img fun k hlo hhi => hf k ⟨hlo, Nat.lt_of_lt_of_le hhi (Nat.add_le_add_left hlen _)⟩)

theorem within_hostByte (h : ChangedWithin P img₀ img) (b : UInt8)
    (hf : ∀ k, (hostSpan i f).Has k → P k) : ChangedWithin P img₀ (setHost img i f [b]) :=
  within_setHost h (hostField_bounds f).1 hf

theorem within_hostStrlcpy (h : ChangedWithin P img₀ img) (s : List UInt8)
    (hf : ∀ k, (hostSpan i f).Has k → P k) : ChangedWithin P img₀ (hostStrlcpy img i f s) := by
  obtain ⟨hpos, -⟩ := hostField_bounds f
  refine within_setHost h ?_ hf
  unfold fitBytes
  rw [List.length_append, List.length_take, List.length_singleton]
  omega

theorem within_intoHostText (h : ChangedWithin P img₀ img) (hf : ∀ k, (hostSpan i f).Has k → P k) :
    ChangedWithin P img₀ (intoHostText body i name f img) := by
  obtain ⟨hpos, -⟩ := hostField_bounds f
  refine within_setHost h ?_ hf
  have hlen := @length_formGet_le body (hostKey i name) f.span.size
  rw [List.length_append, List.length_singleton]
  omega

theorem within_intoHostLimit (h : ChangedWithin P img₀ img) {hi : Int} {enc : Int → List UInt8}
    (henc : ∀ n, (enc n).length ≤ f.span.size) (hf : ∀ k, (hostSpan i f).Has k → P k) :
    ChangedWithin P img₀ (intoHostLimit body i name hi f enc img) := by
  unfold intoHostLimit
  split
  · exact h
  · dsimp only
    split
    · exact within_setHost h (henc _) hf
    · exact h

theorem within_hostFingerprint (h : ChangedWithin P img₀ img) (stored : Image)
    (hf : ∀ k, (hostSpan i .fingerprint).Has k → P k) :
    ChangedWithin P img₀ (hostFingerprint body i stored img).1 := by
  have hloop : ∀ (n : Nat) (s : List UInt8), n ≤ 64 → (fingerprintLoop n s).1.length ≤ 64 - n := by
    intro n s hn
    induction s generalizing n with
    | nil => exact Nat.zero_le _
    | cons c s ih =>
        unfold fingerprintLoop
        split
        · exact ih n hn
        split
        · exact Nat.zero_le _
        · rename_i hgood
          have hroom := Nat.not_le.mp (not_or.mp hgood).2
          have hrest := ih (n + 1) hroom
          dsimp only
          rw [List.length_cons]
          omega
  have hsize : PveHostField.fingerprint.span.size = 65 := by decide
  have hhex := hloop 0 (formText body (hostKey i "fp") 128) (by decide)
  unfold hostFingerprint
  dsimp only
  split
  · split
    · refine within_setHost h ?_ hf
      rw [List.length_append, List.length_singleton, hsize]
      omega
    · exact within_setHost h (by omega) hf
  split
  · exact within_setHost h (by decide) hf
  · exact within_hostStrlcpy h _ hf

theorem length_hostText_le (img : Image) (i : HostIx) (f : PveHostField) :
    (hostText img i f).length ≤ f.span.size := by
  refine Nat.le_trans (length_cstr_le _) (Nat.le_of_eq ?_)
  unfold Image.read
  rw [List.length_map, List.length_range]
  rfl

theorem within_trimUrl (h : ChangedWithin P img₀ img) (hf : ∀ k, (hostSpan i .url).Has k → P k) :
    ChangedWithin P img₀ (trimUrl i img) := by
  have hlen := length_hostText_le img i .url
  have hkept : ((hostText img i .url).rdropWhile (· = chr '/')).length ≤
    (hostText img i .url).length :=
    (List.rdropWhile_prefix _ _).length_le
  have hsize : (hostSpan i .url).size = PveHostField.url.span.size := rfl
  unfold trimUrl
  refine h.trans (.poke img fun k hlo hhi => hf k ⟨by omega, ?_⟩)
  rw [List.length_replicate] at hhi
  omega

/-- The fields of a host up to its secret, as `pve_host_from_form` fills them in. -/
def hostFields (body : List UInt8) (i : HostIx) (img : Image) : Image :=
  let img := setHost img i .enabled [boolByte (formIsOne body (hostKey i "on") 128)]
  let img := intoHostText body i "url" .url img
  let img := intoHostText body i "node" .node img
  let img := intoHostText body i "token" .tokenId img
  let img := setHost img i .shutdownNode [boolByte (formIsOne body (hostKey i "node_off") 128)]
  let img := intoHostLimit body i "min" 1440 .onBatteryMin (fun n => le16 (UInt16.ofInt n)) img
  intoHostLimit body i "pct" 100 .chargePct (fun n => [UInt8.ofInt n]) img

/-- And with the secret. -/
def hostSecret (body : List UInt8) (i : HostIx) (stored img : Image) : Image :=
  let secret := formText body (hostKey i "secret") 128
  hostStrlcpy (hostFields body i img) i .secret
    (if secret = [] then hostText stored i .secret else secret)

/-- A host that is not removed, and is accepted. -/
theorem pveHostFromForm_ok {stored res : Image}
    (hstay : formIsOne body (hostKey i "clear") 128 = false)
    (hrun : pveHostFromForm body i img stored = (res, none)) :
    res = trimUrl i (hostFingerprint body i stored (hostSecret body i stored img)).1 := by
  unfold pveHostFromForm at hrun
  rw [hstay] at hrun
  dsimp only [Bool.false_eq_true, if_false] at hrun
  change (if !(hostFingerprint body i stored (hostSecret body i stored img)).2 then _ else _) =
    _ at hrun
  split at hrun
  · cases hrun
  · exact (Prod.mk.inj hrun).1.symm

theorem within_hostFields (h : ChangedWithin P img₀ img)
    (hf : ∀ f : PveHostField, f ≠ .secret → f ≠ .fingerprint → ∀ k, (hostSpan i f).Has k → P k) :
    ChangedWithin P img₀ (hostFields body i img) := by
  have hP : ∀ {f : PveHostField}, (f ≠ .secret ∧ f ≠ .fingerprint) → ∀ k, (hostSpan i f).Has k →
    P k :=
    fun {f} hne => hf f hne.1 hne.2
  unfold hostFields
  extract_lets h₁ h₂ h₃ h₄ h₅ h₆
  have hon : ChangedWithin P img₀ h₁ := within_hostByte h _ (hP (by decide))
  have hurl : ChangedWithin P img₀ h₂ := within_intoHostText hon (hP (by decide))
  have hnode : ChangedWithin P img₀ h₃ := within_intoHostText hurl (hP (by decide))
  have htoken : ChangedWithin P img₀ h₄ := within_intoHostText hnode (hP (by decide))
  have hoff : ChangedWithin P img₀ h₅ := within_hostByte htoken _ (hP (by decide))
  have hmin : ChangedWithin P img₀ h₆ :=
    within_intoHostLimit hoff (fun _ => Nat.le_refl 2) (hP (by decide))
  exact within_intoHostLimit hmin (fun _ => Nat.le_refl 1) (hP (by decide))

/-- **A host that is posted is written within its own bytes.** -/
theorem within_pveHostFromForm {stored res : Image}
    (hrun : pveHostFromForm body i img stored = (res, none)) :
    ChangedWithin (HostHas i) img res := by
  have hown : ∀ f : PveHostField, ∀ k, (hostSpan i f).Has k → HostHas i k :=
    fun _ _ => hostSpan_within
  cases hclear : formIsOne body (hostKey i "clear") 128 with
  | true =>
      unfold pveHostFromForm at hrun
      rw [hclear, if_pos rfl] at hrun
      rw [← (Prod.mk.inj hrun).1]
      refine .poke img fun k hlo hhi => ⟨hlo, ?_⟩
      have hlen : defaultHost.length = pveHostSize := by
        unfold defaultHost
        rw [List.length_map, List.length_range]
      rw [hlen] at hhi
      exact hhi
  | false =>
      rw [pveHostFromForm_ok hclear hrun]
      have hfields : ChangedWithin (HostHas i) img (hostFields body i img) :=
        within_hostFields (.refl _ img) fun f _ _ => hown f
      exact within_trimUrl
        (within_hostFingerprint (within_hostStrlcpy hfields _ (hown .secret)) stored
        (hown .fingerprint)) (hown .url)

/-- A text that is copied into a host, and fits, is there. -/
theorem hostText_hostStrlcpy {s : List UInt8} (hs : (0 : UInt8) ∉ s)
    (hlen : s.length < f.span.size) :
    hostText (hostStrlcpy img i f s) i f = s := by
  have hfit : fitBytes f.span.size s = s := List.take_of_length_le (Nat.le_sub_one_of_lt hlen)
  have hroom : (s ++ [0]).length ≤ (hostSpan i f).size := by
    rw [List.length_append, List.length_singleton]
    exact hlen
  obtain ⟨rest, hread⟩ := read_poke_start img hroom
  unfold hostText hostStrlcpy setHost
  rw [hfit, hread, List.append_assoc]
  exact cstr_append_nul hs

/-- The text of a member that is terminated fits it. -/
theorem hostText_terminated (h : (0 : UInt8) ∈ img.read (hostSpan i f)) :
    (0 : UInt8) ∉ hostText img i f ∧ (hostText img i f).length < f.span.size := by
  have hsize : (img.read (hostSpan i f)).length = f.span.size := by
    unfold Image.read
    rw [List.length_map, List.length_range]
    rfl
  constructor
  · exact fun hin => absurd (List.mem_takeWhile_imp hin) (by decide)
  · rw [← hsize]
    refine Nat.lt_of_le_of_ne (length_cstr_le _) fun heq => ?_
    have hwhole : cstr (img.read (hostSpan i f)) = img.read (hostSpan i f) :=
      (List.takeWhile_prefix _).eq_of_length heq
    rw [← hwhole] at h
    exact absurd (List.mem_takeWhile_imp h) (by decide)

/-- The host's token: the field is blank or absent, and the host is not removed. -/
theorem pveHostFromForm_secret {stored res : Image}
    (hrun : pveHostFromForm body i img stored = (res, none))
    (hstay : formIsOne body (hostKey i "clear") 128 = false)
    (hblank : formText body (hostKey i "secret") 128 = [])
    (hterm : (0 : UInt8) ∈ stored.read (hostSpan i .secret)) :
    hostText res i .secret = hostText stored i .secret := by
  obtain ⟨hnul, hlen⟩ := hostText_terminated hterm
  let P : Nat → Prop := fun k => (hostSpan i .fingerprint).Has k ∨ (hostSpan i .url).Has k
  have hlater : ChangedWithin P (hostSecret body i stored img) res := by
    rw [pveHostFromForm_ok hstay hrun]
    exact within_trimUrl (within_hostFingerprint (.refl P _) stored fun _ => .inl) fun _ => .inr
  have hread : res.read (hostSpan i .secret) =
      (hostSecret body i stored img).read (hostSpan i .secret) := by
    refine hlater.read fun k hk => ?_
    rintro (hfp | hurl)
    · exact (hostSpan_apart i (by decide)).not_has hk hfp
    · exact (hostSpan_apart i (by decide)).not_has hk hurl
  unfold hostText
  rw [hread]
  unfold hostSecret
  simp only [hblank, if_true]
  exact hostText_hostStrlcpy hnul hlen

/-- The host's pin: the field is blank or absent, its box is not 1, and the host is not removed. -/
theorem pveHostFromForm_pin {stored res : Image}
    (hrun : pveHostFromForm body i img stored = (res, none))
    (hstay : formIsOne body (hostKey i "clear") 128 = false)
    (hblank : formText body (hostKey i "fp") 128 = [])
    (hbox : formIsOne body (hostKey i "fp_clear") 128 = false)
    (hterm : (0 : UInt8) ∈ stored.read (hostSpan i .fingerprint)) :
    hostText res i .fingerprint = hostText stored i .fingerprint := by
  obtain ⟨hnul, hlen⟩ := hostText_terminated hterm
  have hpin : (hostFingerprint body i stored (hostSecret body i stored img)).1 =
      hostStrlcpy (hostSecret body i stored img) i .fingerprint
        (hostText stored i .fingerprint) := by
    unfold hostFingerprint
    dsimp only
    rw [if_neg (not_not.mpr hblank), hbox, if_neg Bool.false_ne_true]
  have hread : res.read (hostSpan i .fingerprint) =
      (hostFingerprint body i stored (hostSecret body i stored img)).1.read
        (hostSpan i .fingerprint) := by
    rw [pveHostFromForm_ok hstay hrun]
    refine (within_trimUrl (.refl (hostSpan i .url).Has _) fun _ hk => hk).read fun k hk => ?_
    exact (hostSpan_apart i (by decide)).not_has hk
  unfold hostText
  rw [hread, hpin]
  exact hostText_hostStrlcpy hnul hlen

end Host

section Hosts

variable {o : Outside} {body : List UInt8} {stored pending : Image} {is : List HostIx}
  {res : Image × List (HostIx × List PveGuest)}

theorem pveHosts_cons {i : HostIx} (h : pveHosts o body stored (i :: is) pending = .ok res) :
    ∃ next rest, pveHostFromForm body i pending stored = (next, none) ∧
      pveHosts o body stored is next = .ok (res.1, rest) := by
  unfold pveHosts at h
  split at h
  · cases h
  · rename_i next hnext
    cases hrest : pveHosts o body stored is next with
    | error err => rw [hrest] at h; cases h
    | ok more =>
        rw [hrest] at h
        refine ⟨next, more.2, hnext, ?_⟩
        rw [hrest, ← Except.ok.inj h]

theorem pveHosts_within (h : pveHosts o body stored is pending = .ok res) :
    ChangedWithin (fun k => ∃ i ∈ is, HostHas i k) pending res.1 := by
  induction is generalizing pending res with
  | nil => cases h; exact .refl _ _
  | cons i is ih =>
      obtain ⟨next, rest, hnext, hrest⟩ := pveHosts_cons h
      have hown := (within_pveHostFromForm hnext).mono (Q := fun k => ∃ j ∈ i :: is, HostHas j k)
        fun k hk => ⟨i, List.mem_cons_self, hk⟩
      have hothers := (ih hrest).mono (Q := fun k => ∃ j ∈ i :: is, HostHas j k)
        fun k ⟨j, hj, hk⟩ => ⟨j, List.mem_cons_of_mem _ hj, hk⟩
      exact hown.trans hothers

/-- **Each host is as its own fields leave it**: what comes before it and after it is about
    others. -/
theorem pveHosts_host (hnodup : is.Nodup) (h : pveHosts o body stored is pending = .ok res)
    {i : HostIx} (hi : i ∈ is) :
    ∃ before next, pveHostFromForm body i before stored = (next, none) ∧
      (∀ f, before.read (hostSpan i f) = pending.read (hostSpan i f)) ∧
      ∀ f, res.1.read (hostSpan i f) = next.read (hostSpan i f) := by
  induction is generalizing pending res with
  | nil => cases hi
  | cons j is ih =>
      obtain ⟨hj, hrest⟩ := List.nodup_cons.mp hnodup
      obtain ⟨next, rest, hnext, hmore⟩ := pveHosts_cons h
      rcases List.mem_cons.mp hi with rfl | hi
      · refine ⟨pending, next, hnext, fun _ => rfl, fun f => ?_⟩
        refine (pveHosts_within hmore).read fun k hk => ?_
        rintro ⟨j, hin, hk'⟩
        have hne : i ≠ j := fun heq => hj (heq ▸ hin)
        exact hostHas_apart hne (hostSpan_within hk) hk'
      · obtain ⟨before, after, hown, hbefore, hafter⟩ := ih hrest hmore hi
        refine ⟨before, after, hown, fun f => (hbefore f).trans ?_, hafter⟩
        refine (within_pveHostFromForm hnext).read fun k hk => ?_
        have hne : i ≠ j := fun heq => hj (heq ▸ hi)
        exact hostHas_apart hne (hostSpan_within hk)

end Hosts

/-! ## 5. Section "pve" -/

section Pve

variable {o : Outside} {body : List UInt8} {stored img : Image}
  {res : Image × List (HostIx × List PveGuest)}

/-- Section "pve" up to the hosts. -/
def pveScalars (body : List UInt8) (img : Image) : Image :=
  let armed := boolByte (formIsOne body "pve_armed" 128)
  let img := img.poke (AppField.pve.span.start + PveField.armed.span.start) [armed]
  let img := match formGet body "pve_mains_back_min" 128 with
    | none => img
    | some v =>
        if 0 ≤ atoi (cstr v) then
          img.poke (AppField.pve.span.start + PveField.mainsBackMin.span.start)
            (le16 (UInt16.ofInt (atoi (cstr v))))
        else img
  intoHalf body "pve_selftest_hours" 0 .pveSelftestHours img

theorem sectionPve_eq : sectionPve o body stored img =
    if pveFlag (pveScalars body img) .enabled then
      match pveHosts o body stored hostSlots (pveScalars body img) with
      | .error err => .error (sendErr .badRequest err)
      | .ok res => .ok res
    else .ok (pveScalars body img, []) := rfl

/-- The bytes it writes before the hosts. -/
def PveScalars (k : Nat) : Prop :=
  (ConfigField.pve .armed).span.Has k ∨ (ConfigField.pve .mainsBackMin).span.Has k ∨
    AppField.pveSelftestHours.span.Has k

theorem pveScalars_within (body : List UInt8) (img : Image) :
    ChangedWithin PveScalars img (pveScalars body img) := by
  unfold pveScalars
  extract_lets armed p₁ p₂
  refine within_intoHalf ?_ (by decide) fun k hk => .inr (.inr hk)
  have harmed : ChangedWithin PveScalars img p₁ := .poke img fun k hlo hhi => .inl ⟨hlo, hhi⟩
  show ChangedWithin PveScalars img (match formGet body "pve_mains_back_min" 128 with
    | none => p₁
    | some v =>
        if 0 ≤ atoi (cstr v) then
          p₁.poke (AppField.pve.span.start + PveField.mainsBackMin.span.start)
            (le16 (UInt16.ofInt (atoi (cstr v))))
        else p₁)
  split
  · exact harmed
  · split
    · exact harmed.trans (.poke p₁ fun k hlo hhi => .inr (.inl ⟨hlo, hhi⟩))
    · exact harmed

theorem pveScalars_own {k : Nat} (h : PveScalars k) : Moves .pve body k := by
  rcases h with h | h | h
  · exact moves_pve (f := .armed) (by decide) h
  · exact moves_pve (f := .mainsBackMin) (by decide) h
  · exact moves_app (f := .pveSelftestHours) (by decide) h

/-- A member of the Proxmox block shares no byte with another, or with the rest. -/
theorem pveField_apart {f g : PveField} (h : f ≠ g) :
    Apart (ConfigField.pve f).span (ConfigField.pve g).span := by
  have hspans : ∀ f : PveField, f.span ∈ place 0 pveMembers ∧ f.span.name = f := by
    intro f
    cases f <;> decide
  have hne : f.span ≠ g.span := fun heq => h (by rw [← (hspans f).2, heq, (hspans g).2])
  have happart := place_apart (hspans f).1 (hspans g).1 hne
  unfold Apart ConfigField.span at *
  dsimp only
  omega

/-- What comes before the hosts touches neither them nor the switch. -/
theorem pveScalars_apart {f : PveField} (hf : f = .hosts ∨ f = .enabled) {k : Nat}
    (hk : (ConfigField.pve f).span.Has k) : ¬ PveScalars k := by
  have hne : f ≠ .armed ∧ f ≠ .mainsBackMin := by rcases hf with rfl | rfl <;> decide
  rintro (h | h | h)
  · exact (pveField_apart hne.1).not_has hk h
  · exact (pveField_apart hne.2).not_has hk h
  · have happ : AppField.pve ≠ AppField.pveSelftestHours := by decide
    exact (AppField.span_apart happ).not_has (pveField_within f hk) h

theorem pveFlag_enabled (body : List UInt8) (img : Image) :
    pveFlag (pveScalars body img) .enabled = pveFlag img .enabled := by
  have hbyte : (ConfigField.pve .enabled).span.Has
      (AppField.pve.span.start + PveField.enabled.span.start) := by
    constructor
    · exact Nat.le_refl _
    · exact Nat.lt_add_of_pos_right (by decide)
  have hsame := pveScalars_within body img _ (pveScalars_apart (.inr rfl) hbyte)
  unfold pveFlag
  rw [hsame]

/-- **Section "pve"** writes its own bytes. -/
theorem sectionPve_moves (hrun : sectionPve o body stored img = .ok res) :
    ChangedWithin (Moves .pve body) img res.1 := by
  have hscalars := (pveScalars_within body img).mono fun k (h : PveScalars k) =>
    (pveScalars_own h : Moves .pve body k)
  rw [sectionPve_eq] at hrun
  split at hrun
  · split at hrun
    · cases hrun
    · rename_i hosts hhosts
      rw [← Except.ok.inj hrun]
      refine hscalars.trans ((pveHosts_within hhosts).mono fun k ⟨i, _, hk⟩ => ?_)
      exact moves_pve (f := .hosts) (by decide) (hostHas_hosts hk)
  · rw [← Except.ok.inj hrun]
    exact hscalars

/-- **Switched off**, it leaves the hosts and the rules. -/
theorem sectionPve_off (hoff : pveFlag img .enabled = false)
    (hrun : sectionPve o body stored img = .ok res) :
    res.2 = [] ∧ ChangedWithin PveScalars img res.1 := by
  rw [sectionPve_eq, pveFlag_enabled, hoff, if_neg Bool.false_ne_true] at hrun
  rw [← Except.ok.inj hrun]
  exact ⟨rfl, pveScalars_within body img⟩

/-- Switched on, each host is as its own fields leave it. -/
theorem sectionPve_host (hrun : sectionPve o body stored img = .ok res)
    (hon : pveFlag img .enabled = true) (i : HostIx) :
    ∃ before next, pveHostFromForm body i before stored = (next, none) ∧
      (∀ f, before.read (hostSpan i f) = img.read (hostSpan i f)) ∧
      ∀ f, res.1.read (hostSpan i f) = next.read (hostSpan i f) := by
  rw [sectionPve_eq, pveFlag_enabled, hon, if_pos rfl] at hrun
  split at hrun
  · cases hrun
  · rename_i hosts hhosts
    obtain ⟨before, next, hown, hbefore, hafter⟩ :=
      pveHosts_host (List.nodup_finRange _) hhosts (List.mem_finRange i)
    refine ⟨before, next, hown, fun f => (hbefore f).trans ?_, fun f => ?_⟩
    · exact (pveScalars_within body img).read fun k hk =>
        pveScalars_apart (.inl rfl) (hostHas_hosts (hostSpan_within hk))
    · rw [← Except.ok.inj hrun]
      exact hafter f

end Pve

/-! ## 6. The request -/

section Request

variable {o : Outside} {r : Request} {s : Server κ} {body : List UInt8} {X : Section}

/-- The form was posted with a section, and the reply was no error. -/
structure Saved (o : Outside) (r : Request) (s : Server κ) (body : List UInt8) (X : Section) :
    Prop where
  received : readBody o r 1 65536 true = .ok body
  named : formText body "section" 16 = X.name
  ok : (hAdminReconfigure o r s).1.status = .ok

/-- **A refusal is an error reply.** -/
theorem runSection_refuses {stored : Image} {name : List UInt8} {reply : Reply}
    (h : runSection o body stored name = .error reply) : reply.status = .badRequest := by
  have hbad : ∀ {α : Type} {why : String}, (.error (badRequest why) : Except Reply α) =
    .error reply →
      reply.status = .badRequest := fun heq => by
    rw [← Except.error.inj heq]
    rfl
  have hmap : ∀ {x : Except Reply Image}, x.map (·, ([] : List (HostIx × List PveGuest))) =
      .error reply → x = .error reply := fun {x} hx => by
    cases x with
    | ok pending => cases hx
    | error why => exact congrArg _ (Except.error.inj hx)
  unfold runSection at h
  split at h
  · have h := hmap h
    unfold sectionBluetti at h
    extract_lets pending at h
    split at h
    · exact hbad h
    · cases h
  split at h
  · cases h
  split at h
  · have h := hmap h
    unfold sectionWifi at h
    dsimp only at h
    split at h
    · unfold sectionWifiAp at h
      extract_lets p₁ p₂ p₃ p₄ at h
      split at h
      · exact hbad h
      · cases h
    · unfold sectionWifiStation checkStatic at h
      extract_lets p₁ p₂ p₃ p₄ p₅ p₆ p₇ p₈ p₉ at h
      repeat' split at h
      all_goals first | exact hbad h | cases h
  split at h
  · rw [sectionPve_eq] at h
    split at h
    · split at h
      · rw [← Except.error.inj h]
        rfl
      · cases h
    · cases h
  split at h
  · have h := hmap h
    unfold sectionNotify at h
    extract_lets p₁ p₂ p₃ p₄ p₅ p₆ p₇ p₈ at h
    split at h
    · exact hbad h
    · cases h
  split at h
  · cases h
  · exact hbad h

theorem applySection_frame (name : List UInt8) (nutBefore : Bool) (s : Server κ) :
    Unchanged s (applySection name nutBefore s).2 := by
  unfold applySection
  split
  · exact ⟨rfl, rfl, rfl⟩
  split
  · exact ⟨rfl, rfl, rfl⟩
  split
  · dsimp only
    split <;> exact ⟨rfl, rfl, rfl⟩
  · exact ⟨rfl, rfl, rfl⟩

/-- **What a successful request leaves**: what its section made of the configuration. -/
theorem Saved.result (h : Saved o r s body X) :
    ∃ pending rules, runSection o body s.cfg X.name = .ok (pending, rules) ∧
      (hAdminReconfigure o r s).2.cfg = set pending .provisioned [1] ∧
      (hAdminReconfigure o r s).2.storedGuests = saveRules o rules s.storedGuests := by
  have hok := h.ok
  obtain ⟨hcfg, -, hguests⟩ := authOk_unchanged o r s
  unfold hAdminReconfigure requireAuth withBody at hok ⊢
  simp only [h.received, h.named] at hok ⊢
  cases hauth : (authOk o r s).1 with
  | false =>
      rw [hauth] at hok
      cases hok
  | true =>
      simp only [hauth, Bool.not_true, Bool.false_eq_true, if_false, hcfg, hguests] at hok ⊢
      split at hok
      · rename_i reply hrun
        rw [runSection_refuses hrun] at hok
        cases hok
      · rename_i pending rules hrun
        refine ⟨pending, rules, hrun, ?_⟩
        split at hok
        · cases hok
        · rename_i hsaved
          rw [if_neg hsaved]
          obtain ⟨hcfg', -, hguests'⟩ := applySection_frame X.name (flag s.cfg .nutEnabled)
            (Server.saveCfg { (authOk o r s).2 with
              storedGuests := saveRules o rules s.storedGuests
              cfg := set pending .provisioned [1] } o).1
          exact ⟨hcfg', hguests'⟩

/-- The names of the sections differ. -/
theorem name_injective : Function.Injective Section.name := by
  have hall : ∀ X Y : Section, X.name = Y.name → X = Y := by
    intro X Y
    cases X <;> cases Y <;> decide
  exact fun X Y => hall X Y

/-- The section a request names. -/
theorem runSection_name (stored : Image) : runSection o body stored X.name =
    match X with
    | .bluetti => (sectionBluetti body stored).map (·, [])
    | .nut => .ok (sectionNut o body stored, [])
    | .wifi => (sectionWifi o body stored).map (·, [])
    | .pve => sectionPve o body stored stored
    | .notify => (sectionNotify body stored).map (·, [])
    | .integrations => .ok (sectionIntegrations body stored, []) := by
  have hne : ∀ Y : Section, X ≠ Y → X.name ≠ Y.name := fun Y h heq => h (name_injective heq)
  have hbluetti : X ≠ .bluetti → X.name ≠ ascii "bluetti" := hne .bluetti
  have hnut : X ≠ .nut → X.name ≠ ascii "nut" := hne .nut
  have hwifi : X ≠ .wifi → X.name ≠ ascii "wifi" := hne .wifi
  have hpve : X ≠ .pve → X.name ≠ ascii "pve" := hne .pve
  have hnotify : X ≠ .notify → X.name ≠ ascii "notify" := hne .notify
  unfold runSection
  cases X with
  | bluetti => exact if_pos rfl
  | nut =>
      rw [if_neg (hbluetti (by decide))]
      exact if_pos rfl
  | wifi =>
      rw [if_neg (hbluetti (by decide)), if_neg (hnut (by decide))]
      exact if_pos rfl
  | pve =>
      rw [if_neg (hbluetti (by decide)), if_neg (hnut (by decide)), if_neg (hwifi (by decide))]
      exact if_pos rfl
  | notify =>
      rw [if_neg (hbluetti (by decide)), if_neg (hnut (by decide)), if_neg (hwifi (by decide)),
        if_neg (hpve (by decide))]
      exact if_pos rfl
  | integrations =>
      rw [if_neg (hbluetti (by decide)), if_neg (hnut (by decide)), if_neg (hwifi (by decide)),
        if_neg (hpve (by decide)), if_neg (hnotify (by decide))]
      exact if_pos rfl

theorem map_eq_ok {x : Except Reply Image} {res : Image × List (HostIx × List PveGuest)}
    (h : x.map (·, []) = .ok res) : x = .ok res.1 ∧ res.2 = [] := by
  cases x with
  | error why => cases h
  | ok pending =>
      rw [← Except.ok.inj h]
      exact ⟨rfl, rfl⟩

/-- **A section stays within its footprint**, and only section "pve" has rules to store. -/
theorem runSection_moves (hsalt : o.salt.length = 16) (hsha : ∀ m, (o.sha256 m).length = 32)
    {stored : Image} {res : Image × List (HostIx × List PveGuest)}
    (hrun : runSection o body stored X.name = .ok res) :
    ChangedWithin (Moves X body) stored res.1 ∧ (X ≠ .pve → res.2 = []) := by
  rw [runSection_name] at hrun
  cases X with
  | bluetti =>
      obtain ⟨hok, hnil⟩ := map_eq_ok hrun
      exact ⟨sectionBluetti_moves (.refl _ _) hok, fun _ => hnil⟩
  | nut =>
      rw [← Except.ok.inj hrun]
      exact ⟨sectionNut_moves hsalt hsha (.refl _ _), fun _ => rfl⟩
  | wifi =>
      obtain ⟨hok, hnil⟩ := map_eq_ok hrun
      exact ⟨sectionWifi_moves (.refl _ _) hok, fun _ => hnil⟩
  | pve => exact ⟨sectionPve_moves hrun, fun hno => absurd rfl hno⟩
  | notify =>
      obtain ⟨hok, hnil⟩ := map_eq_ok hrun
      exact ⟨sectionNotify_moves (.refl _ _) hok, fun _ => hnil⟩
  | integrations =>
      rw [← Except.ok.inj hrun]
      exact ⟨sectionIntegrations_moves (.refl _ _), fun _ => rfl⟩

theorem provisioned_within (img : Image) :
    ChangedWithin AppField.provisioned.span.Has img (set img .provisioned [1]) :=
  .poke img fun _ hlo hhi => ⟨hlo, hhi⟩

/-- The mark that the unit is set up lies beside the hosts. -/
theorem read_host_provisioned (img : Image) (i : HostIx) (f : PveHostField) :
    (set img .provisioned [1]).read (hostSpan i f) = img.read (hostSpan i f) := by
  refine (provisioned_within img).read fun k hk => ?_
  have happ : AppField.pve ≠ AppField.provisioned := by decide
  exact (AppField.span_apart happ).not_has
    (pveField_within .hosts (hostHas_hosts (hostSpan_within hk)))

/-- A host keeps a secret that the form leaves alone. -/
theorem Saved.host_secrets (h : Saved o r s body .pve) {i : HostIx}
    (hstay : formIsOne body (hostKey i "clear") 128 = false) :
    (formText body (hostKey i "secret") 128 = [] → (0 : UInt8) ∈ s.cfg.read (hostSpan i .secret) →
      hostText (hAdminReconfigure o r s).2.cfg i .secret = hostText s.cfg i .secret) ∧
    (formText body (hostKey i "fp") 128 = [] → formIsOne body (hostKey i "fp_clear") 128 = false →
      (0 : UInt8) ∈ s.cfg.read (hostSpan i .fingerprint) →
      hostText (hAdminReconfigure o r s).2.cfg i .fingerprint = hostText s.cfg i .fingerprint) := by
  obtain ⟨pending, rules, hrun, hcfg, -⟩ := h.result
  rw [runSection_name] at hrun
  have hread : ∀ f, (hAdminReconfigure o r s).2.cfg.read (hostSpan i f) =
    pending.read (hostSpan i f) :=
    fun f => by rw [hcfg, read_host_provisioned]
  cases hon : pveFlag s.cfg .enabled with
  | false =>
      obtain ⟨-, hscalars⟩ := sectionPve_off hon hrun
      have hsame : ∀ f, pending.read (hostSpan i f) = s.cfg.read (hostSpan i f) := fun f =>
        hscalars.read fun k hk => pveScalars_apart (.inl rfl) (hostHas_hosts (hostSpan_within hk))
      unfold hostText
      constructor
      · intro _ _
        rw [hread, hsame]
      · intro _ _ _
        rw [hread, hsame]
  | true =>
      obtain ⟨before, next, hhost, -, hafter⟩ := sectionPve_host hrun hon i
      have hsame : ∀ f, hostText (hAdminReconfigure o r s).2.cfg i f = hostText next i f :=
        fun f => by
        unfold hostText
        rw [hread, hafter]
      rw [hsame, hsame]
      exact ⟨pveHostFromForm_secret hhost hstay, pveHostFromForm_pin hhost hstay⟩

/-- **Sections are isolated.** A request that succeeds changes no byte but those of its section's
    members and the mark that the unit is set up; only section "pve" changes the rules of guests; a
    secret that the form leaves alone stays; and with Proxmox switched off, section "pve" leaves
    every host and every rule. -/
theorem sections_are_isolated (hsalt : o.salt.length = 16) (hsha : ∀ m, (o.sha256 m).length = 32)
    (h : Saved o r s body X) :
    let s' := (hAdminReconfigure o r s).2
    (∀ k, (∀ f ∈ .app .provisioned :: X.fields, ¬ f.span.Has k) → s'.cfg k = s.cfg k) ∧
      (X ≠ .pve → s'.storedGuests = s.storedGuests) ∧
      (∀ sec : Secret, sec.Kept body → ∀ f ∈ sec.fields, s'.cfg.read f.span = s.cfg.read f.span) ∧
      (X = .pve → ∀ i, formIsOne body (hostKey i "clear") 128 = false →
        (formText body (hostKey i "secret") 128 = [] →
        (0 : UInt8) ∈ s.cfg.read (hostSpan i .secret) →
          hostText s'.cfg i .secret = hostText s.cfg i .secret) ∧
        (formText body (hostKey i "fp") 128 = [] →
        formIsOne body (hostKey i "fp_clear") 128 = false →
          (0 : UInt8) ∈ s.cfg.read (hostSpan i .fingerprint) →
          hostText s'.cfg i .fingerprint = hostText s.cfg i .fingerprint)) ∧
      (X = .pve → pveFlag s.cfg .enabled = false →
        s'.cfg.read (ConfigField.pve .hosts).span = s.cfg.read (ConfigField.pve .hosts).span ∧
          s'.storedGuests = s.storedGuests) := by
  intro s'
  obtain ⟨pending, rules, hrun, hcfg, hguests⟩ := h.result
  obtain ⟨hmoves, hrules⟩ := runSection_moves hsalt hsha hrun
  have hcfg : s'.cfg = set pending .provisioned [1] := hcfg
  have hguests : s'.storedGuests = saveRules o rules s.storedGuests := hguests
  refine ⟨fun k hk => ?_, fun hno => ?_, fun sec hkept f hf => ?_, fun hpve i hstay => ?_,
    fun hpve hoff => ?_⟩
  · obtain ⟨hprov, hown⟩ := List.forall_mem_cons.mp hk
    rw [hcfg, provisioned_within pending k hprov]
    exact hmoves k fun ⟨⟨f, hf, hin⟩, _⟩ => hown f hf hin
  · have hnil : rules = [] := hrules hno
    rw [hguests, hnil]
    rfl
  · have hne : f ≠ .provisioned := by
      rintro rfl
      exact absurd (sec.fields_subset _ hf) (by decide)
    rw [hcfg, (provisioned_within pending).read fun k hk => (AppField.span_apart hne).not_has hk]
    exact hmoves.read fun k hk hmoved => hmoved.2 sec hkept f hf hk
  · subst hpve
    exact h.host_secrets hstay
  · subst hpve
    rw [runSection_name] at hrun
    obtain ⟨hnil, hscalars⟩ := sectionPve_off hoff hrun
    have hnil : rules = [] := hnil
    refine ⟨?_, by rw [hguests, hnil]; rfl⟩
    rw [hcfg, ← hscalars.read fun k hk => pveScalars_apart (.inl rfl) hk]
    have happ : AppField.pve ≠ AppField.provisioned := by decide
    exact (provisioned_within pending).read fun k hk =>
      (AppField.span_apart happ).not_has (pveField_within .hosts hk)

/-- The chat of the notifications is posted, with a field of another section. -/
def postChat : Request :=
  postOf "/api/reconfigure" (ascii "section=notify&tg_chat=42&wifi_ssid=other")

theorem postChat_saved :
    Saved quietOutside postChat ruledServer (ascii "section=notify&tg_chat=42&wifi_ssid=other")
      .notify where
  received := by decide +kernel
  named := by decide +kernel
  ok := by decide +kernel

theorem sections_are_isolated_postChat :
    (∀ k, (∀ f ∈ .app .provisioned :: Section.fields .notify, ¬ f.span.Has k) →
      (hAdminReconfigure quietOutside postChat ruledServer).2.cfg k = ruledServer.cfg k) ∧
      (hAdminReconfigure quietOutside postChat ruledServer).2.storedGuests =
      ruledServer.storedGuests := by
  obtain ⟨hcfg, hrules, -⟩ := sections_are_isolated (by decide) (fun _ => rfl) postChat_saved
  exact ⟨hcfg, hrules (by decide)⟩

end Request

end NutBluetti.Web
