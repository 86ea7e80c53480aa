/-
  File:      NutBluetti/Web/StaysSetUp.lean
  Subject:   A UNIT STAYS SET UP, in every run of requests to the admin server and restarts.

  The handlers change the live configuration and then store it, so that a restart can come between
  any two requests, also after a save that failed. A unit that came up without a login would be
  anybody's, and one without a network would be back in setup.

  * `InService` -- marked as set up, and complete; `InService.needSetup`: it comes up so;
  * `Serving` -- what is live is in service, and what is stored comes up so on every board;
  * `network_sectionWifi` -- section "wifi" accepts no form that leaves the unit without a network;
  * `run_serving` -- no handler but `h_factory_reset` loses it;
  * **`serving_iff`** -- no run loses it, exactly if no factory reset that is let through wipes what
    is stored.
-/
import NutBluetti.Web.SessionRuns
import NutBluetti.Web.Setup

namespace NutBluetti.Web

open CLayout
open NutBluetti.Config
open NutBluetti.Pve (PveGuest HostIx)

variable {κ : Type}

/-! ## 1. In service -/

/-- **Marked as set up, and complete.** -/
structure InService (cfg : Image) : Prop where
  marked : flag cfg .provisioned = true
  complete : Complete cfg

/-- The members that decide it. -/
def serviceFields : List AppField := .provisioned :: setupFields

theorem InService.congr {a b : Image} (h : InService a)
    (hread : ∀ f ∈ serviceFields, b.read f.span = a.read f.span) : InService b := by
  have hmark := hread .provisioned (by decide)
  rw [read_byte _ (by decide), read_byte _ (by decide)] at hmark
  refine ⟨?_, (complete_congr fun f hf => hread f (List.mem_cons_of_mem _ hf)).mpr h.complete⟩
  unfold flag
  rw [List.singleton_inj.mp hmark]
  exact h.marked

theorem flag_of_read {img : Image} {f : AppField} (hsize : f.span.size = 1)
    (h : img.read f.span = [1]) : flag img f = true := by
  rw [read_byte _ hsize] at h
  unfold flag
  rw [List.singleton_inj.mp h]
  rfl

/-- Another member. -/
theorem InService.set {cfg : Image} (h : InService cfg) {f : AppField} {value : List UInt8}
    (hlen : value.length ≤ f.span.size) (hf : f ∉ serviceFields) : InService (set cfg f value) :=
  h.congr fun _ hg => read_set_other cfg hlen fun heq => hf (heq ▸ hg)

/-- `app_main` does not go into setup with it. -/
theorem InService.needSetup {cfg : Image} (h : InService cfg) : needSetup cfg = false := by
  unfold Web.needSetup
  rw [h.marked]
  by_cases hap : isAp cfg
  · simp only [hap, decide_true, Bool.not_true, Bool.and_true, Bool.false_and, Bool.or_false]
  · have hssid := h.complete.network.2 hap
    simp only [hap, hssid, decide_false, Bool.not_true, Bool.and_false, Bool.or_false]

theorem inService_save {cfg : Image} (h : InService cfg) (b : Board) :
    InService (appConfigLoad b (some (appConfigSave cfg)) true) :=
  ⟨(marked_load_save b cfg).trans h.marked, (complete_load_save b cfg).mpr h.complete⟩

/-- **The unit serves**: what is live is in service, and what is stored comes up so. -/
structure Serving (s : Server κ) : Prop where
  live : InService s.cfg
  flash : ∀ b, InService (appConfigLoad b s.stored true)

section

variable {o : Outside} {s s' : Server κ}

theorem Serving.unchanged (h : Serving s) (hsame : Unchanged s s') : Serving s' :=
  ⟨hsame.cfg ▸ h.live, hsame.stored ▸ h.flash⟩

theorem Serving.withCfg (h : Serving s) {cfg : Image} (hcfg : InService cfg) :
    Serving { s with cfg := cfg } := ⟨hcfg, h.flash⟩

/-- A save, whatever the flash makes of it. -/
theorem Serving.saveCfg (h : Serving s) (o : Outside) : Serving (s.saveCfg o).1 := by
  refine ⟨h.live, fun b => ?_⟩
  have hstored : (s.saveCfg o).1.stored =
    (o.saveCfg.write s.stored (some (appConfigSave s.cfg))).1 := rfl
  rw [hstored, o.saveCfg.write_fst]
  split
  · exact inService_save h.live b
  · exact h.flash b

end

/-! ## 2. The forms that are accepted -/

section Forms

variable {o : Outside} {body : List UInt8} {img res : Image}

/-- Everything but one member. -/
def Beside (f : AppField) (k : Nat) : Prop := ¬ f.span.Has k

theorem beside {f g : AppField} (h : f ≠ g) : ∀ k, g.span.Has k → Beside f k :=
  fun _ hk => (AppField.span_apart h.symm).not_has hk

theorem read_beside {f : AppField} (h : ChangedWithin (Beside f) img res) :
    res.read f.span = img.read f.span := h.read fun _ hk hno => hno hk

theorem beside_defaultSsid {f g : AppField} (hpos : 0 < g.span.size) (hne : f ≠ g) :
    ChangedWithin (Beside f) img (defaultSsid o g img) := by
  unfold defaultSsid
  split
  · refine within_set (.refl _ _) ?_ (beside hne)
    rw [List.length_append, List.length_singleton, fitBytes, List.length_take]
    omega
  · exact .refl _ _

theorem beside_fallbackAp (f : AppField) (hf : f ∉ [.fbApEnabled, .fbApSsid, .fbApPass]) :
    ChangedWithin (Beside f) img (fallbackAp body img) := by
  simp only [List.mem_cons, List.not_mem_nil, or_false, not_or] at hf
  obtain ⟨hflag, hssid, hpass⟩ := hf
  have hon : ChangedWithin (Beside f) img (intoFlag body "fb_ap" .fbApEnabled img) :=
    within_intoFlag (.refl _ _) (by decide) (beside hflag)
  unfold fallbackAp
  dsimp only
  split
  · exact within_clearText
      (within_keepText (within_intoText hon (by decide) (beside hssid)) (by decide)
      fun _ => beside hpass) (by decide) fun _ => beside hpass
  · exact hon

/-- An access point keeps its mode, and its password is none or long enough. -/
theorem network_sectionWifiAp (hrun : sectionWifiAp o body img = .ok res) : HasNetwork res := by
  unfold sectionWifiAp at hrun
  extract_lets p₁ p₂ p₃ p₄ at hrun
  have hrest : ChangedWithin (Beside .wifiMode) p₁ p₄ :=
    within_clearText (within_keepText (within_intoText (.refl _ _) (by decide) (beside (by decide)))
      (by decide) fun _ => beside (by decide)) (by decide) fun _ => beside (by decide)
  split at hrun
  · cases hrun
  · rename_i hlong
    rw [← Except.ok.inj hrun]
    have hmode : isAp (defaultSsid o .apSsid p₄) := by
      unfold isAp
      rw [read_defaultSsid_other p₄ (by decide) (by decide), read_beside hrest]
      exact read_set_self _ (by decide)
    have hpass : text (defaultSsid o .apSsid p₄) .apPass = text p₄ .apPass :=
      congrArg cstr (read_defaultSsid_other p₄ (by decide) (by decide))
    exact ⟨fun _ => hpass ▸ Bool.eq_false_iff.mpr hlong, fun hno => absurd hmode hno⟩

theorem checkStatic_beside {f : AppField} (hf : f ≠ .staticMask)
    (hrun : checkStatic img = .ok res) :
    ChangedWithin (Beside f) img res := by
  unfold checkStatic at hrun
  extract_lets p₁ at hrun
  have hmask : ChangedWithin (Beside f) img p₁ := by
    show ChangedWithin _ _ (if text img .staticMask = [] then _ else img)
    split
    · exact within_strlcpy (.refl _ _) (by decide) (beside hf)
    · exact .refl _ _
  split at hrun
  · cases hrun
  split at hrun
  · cases hrun
  split at hrun
  · cases hrun
  split at hrun
  · cases hrun
  · rw [← Except.ok.inj hrun]
    exact hmask

/-- A station keeps its mode, and has the name of a network. -/
theorem network_sectionWifiStation (hrun : sectionWifiStation o body img = .ok res) :
    HasNetwork res := by
  unfold sectionWifiStation at hrun
  extract_lets p₁ p₂ p₃ p₄ p₅ p₆ p₇ p₈ at hrun
  have hstatic : ChangedWithin (Beside .wifiMode) p₁ p₆ := by
    have hflag : ChangedWithin (Beside .wifiMode) p₁ p₅ :=
      within_intoFlag (within_clearText (within_keepText (within_intoText (.refl _ _) (by decide)
        (beside (by decide))) (by decide) fun _ => beside (by decide)) (by decide)
          fun _ => beside (by decide)) (by decide) (beside (by decide))
    show ChangedWithin _ _ (if flag p₅ .useStaticIp then _ else p₅)
    split
    · exact within_intoText (within_intoText (within_intoText (within_intoText hflag (by decide)
        (beside (by decide))) (by decide) (beside (by decide))) (by decide) (beside (by decide)))
          (by decide) (beside (by decide))
    · exact hflag
  have hname : ChangedWithin (Beside .wifiMode) p₁ p₈ := by
    have hfallback : ChangedWithin (Beside .wifiMode) p₁ p₇ :=
      hstatic.trans (beside_fallbackAp .wifiMode (by decide))
    show ChangedWithin _ _ (if flag p₇ .fbApEnabled then _ else p₇)
    split
    · exact hfallback.trans (beside_defaultSsid (by decide) (by decide))
    · exact hfallback
  split at hrun
  · cases hrun
  split at hrun
  · cases hrun
  rename_i hssid
  -- what is left is the check of a static address, which may fill in the mask
  have hlast : ChangedWithin (Beside .wifiMode) p₈ res ∧
    ChangedWithin (Beside .wifiSsid) p₈ res := by
    split at hrun
    · exact ⟨checkStatic_beside (by decide) hrun, checkStatic_beside (by decide) hrun⟩
    · rw [← Except.ok.inj hrun]
      exact ⟨.refl _ _, .refl _ _⟩
  have hmode : ¬ isAp res := by
    have hread : res.read AppField.wifiMode.span = [0] :=
      (read_beside (hname.trans hlast.1)).trans (read_set_self _ (by decide))
    unfold isAp
    rw [hread]
    decide
  have htext : text res .wifiSsid = text p₈ .wifiSsid := congrArg cstr (read_beside hlast.2)
  exact ⟨fun hap => absurd hap hmode, fun _ => htext ▸ hssid⟩

/-- **Section "wifi" leaves a network.** -/
theorem network_sectionWifi (hrun : sectionWifi o body img = .ok res) : HasNetwork res := by
  unfold sectionWifi at hrun
  dsimp only at hrun
  split at hrun
  · exact network_sectionWifiAp hrun
  · exact network_sectionWifiStation hrun

theorem not_moves {X : Section} {g : AppField} (hown : .app g ∉ X.fields) (hpve : g ≠ .pve)
    {k : Nat}
    (hk : g.span.Has k) : ¬ Moves X body k := by
  intro hmoves
  obtain ⟨⟨f, hf, hfk⟩, -⟩ := hmoves
  cases f with
  | app a =>
      have hne : a ≠ g := fun heq => hown (heq ▸ hf)
      exact (AppField.span_apart hne).not_has hfk hk
  | pve a => exact (AppField.span_apart hpve.symm).not_has (pveField_within a hfk) hk

theorem runSection_section {stored : Image} {name : List UInt8}
    {res : Image × List (HostIx × List PveGuest)} (hrun : runSection o body stored name = .ok res) :
    ∃ X : Section, name = X.name := by
  unfold runSection at hrun
  by_cases hbluetti : name = Section.bluetti.name
  · exact ⟨_, hbluetti⟩
  by_cases hnut : name = Section.nut.name
  · exact ⟨_, hnut⟩
  by_cases hwifi : name = Section.wifi.name
  · exact ⟨_, hwifi⟩
  by_cases hpve : name = Section.pve.name
  · exact ⟨_, hpve⟩
  by_cases hnotify : name = Section.notify.name
  · exact ⟨_, hnotify⟩
  by_cases hint : name = Section.integrations.name
  · exact ⟨_, hint⟩
  · simp only [Section.name] at hbluetti hnut hwifi hpve hnotify hint
    rw [if_neg hbluetti, if_neg hnut, if_neg hwifi, if_neg hpve, if_neg hnotify, if_neg hint]
      at hrun
    cases hrun

/-- **A form that is accepted** leaves the login, and a network. -/
theorem complete_runSection (hsalt : o.salt.length = 16) (hsha : ∀ m, (o.sha256 m).length = 32)
    {stored : Image} {name : List UInt8} {res : Image × List (HostIx × List PveGuest)}
    (h : Complete stored) (hrun : runSection o body stored name = .ok res) : Complete res.1 := by
  obtain ⟨X, rfl⟩ := runSection_section hrun
  obtain ⟨hmoves, -⟩ := runSection_moves hsalt hsha hrun
  have hkeep : ∀ g, .app g ∉ X.fields → g ≠ .pve → res.1.read g.span = stored.read g.span :=
    fun g hown hpve => hmoves.read fun _ hk => not_moves hown hpve hk
  by_cases hX : X = .wifi
  · subst hX
    rw [runSection_name] at hrun
    obtain ⟨hok, -⟩ := map_eq_ok hrun
    exact ⟨(hkeep .authSet (by decide) (by decide)).trans h.login, network_sectionWifi hok⟩
  · have hnone : ∀ g ∈ setupFields, .app g ∉ X.fields ∧ g ≠ .pve := by
      cases X with
      | wifi => exact absurd rfl hX
      | _ => decide
    exact (complete_congr fun g hg => hkeep g (hnone g hg).1 (hnone g hg).2).mpr h

/-- A new login. -/
theorem inService_setCredentials (hsalt : o.salt.length = 16) (hsha : ∀ m, (o.sha256 m).length = 32)
    {cfg : Image} (h : InService cfg) (user : List UInt8) {pass : List UInt8} (hpass : pass ≠ []) :
    InService (setCredentials o cfg user pass) := by
  have hother : ∀ f ∈ serviceFields, f ≠ .authSet →
      f ≠ .authUser ∧ f ≠ .authSalt ∧ f ≠ .authHash ∧ f ≠ .authSet := by decide
  refine h.congr fun f hf => ?_
  by_cases hset : f = .authSet
  · rw [hset, login_setCredentials cfg user hpass, h.complete.login]
  · obtain ⟨huser, hsalt', hhash, hset⟩ := hother f hf hset
    refine read_beside (within_setSecret (within_strlcpy (.refl _ _) (by decide) (beside huser))
      authSecret_proper hsalt hsha fun g hg => ?_)
    simp only [List.mem_cons, List.not_mem_nil, or_false] at hg
    obtain rfl | rfl | rfl := hg
    · exact beside hsalt'
    · exact beside hhash
    · exact beside hset

end Forms

/-! ## 3. The handlers -/

/-- What the unit is made of: a salt of 16 bytes, and hashes of 32. -/
structure Hardware extends Outside where
  salt_length : salt.length = 16
  sha256_length : ∀ m, (sha256 m).length = 32

/-- Nothing a handler does takes the unit out of service. -/
def KeepsServing (h : Handler κ) : Prop :=
  ∀ (o : Hardware) (r : Request) (s : Server κ), Serving s → Serving (h o.toOutside r s).2

section Handlers

variable {o : Outside} {r : Request} {s : Server κ}

theorem serving_withBody {minLen maxLen : Nat} {heap : Bool} {k : List UInt8 → Reply × Server κ}
    (h : Serving s) (hk : ∀ body, Serving (k body).2) :
    Serving (withBody o r minLen maxLen heap s k).2 := by
  unfold withBody
  cases readBody o r minLen maxLen heap with
  | error reply => exact h
  | ok body => exact hk body

theorem keepsServing_requireAuth {h : Handler κ} (hkeep : KeepsServing h) :
    KeepsServing (requireAuth h) := by
  intro o r s hs
  have hauth := hs.unchanged (authOk_unchanged o.toOutside r s)
  unfold requireAuth
  by_cases hok : (authOk o.toOutside r s).1 = true
  · simp only [hok, Bool.not_true, Bool.false_eq_true, if_false]
    exact hkeep o r _ hauth
  · simp only [Bool.eq_false_iff.mpr hok, Bool.not_false, if_true]
    exact hauth

theorem serving_ite {c : Prop} [Decidable c] {a b : Server κ} (ha : Serving a) (hb : Serving b) :
    Serving (if c then a else b) := by
  split
  · exact ha
  · exact hb

theorem serving_reply {α : Type} {c : Prop} [Decidable c] {a b : α × Server κ} (ha : Serving a.2)
    (hb : Serving b.2) : Serving (if c then a else b).2 := by
  split
  · exact ha
  · exact hb

theorem Serving.call (h : Serving s) (c : Call) : Serving (s.call c) := ⟨h.live, h.flash⟩

theorem Serving.ask (h : Serving s) {α : Type} (host : List UInt8) (n : NetCall α) :
    Serving (s.ask host n) := by
  unfold Server.ask
  split
  · exact h.call _
  · exact h

theorem keepsServing_heapPage : KeepsServing (heapPage (κ := κ)) := by
  intro o r s h
  unfold heapPage
  split <;> exact h

theorem keepsServing_reconfigure : KeepsServing (hAdminReconfigure (κ := κ)) := by
  refine keepsServing_requireAuth fun o r s h => serving_withBody h fun body => ?_
  dsimp only
  split
  · exact h
  · rename_i pending rules hrun
    have hcomplete := complete_runSection o.salt_length o.sha256_length h.live.complete hrun
    have hlive : InService (set pending .provisioned [1]) :=
      ⟨flag_of_read rfl (read_set_self _ (by decide)), (complete_provisioned pending).mpr hcomplete⟩
    have hset : Serving { s with
        storedGuests := saveRules o.toOutside rules s.storedGuests
        cfg := set pending .provisioned [1] } := ⟨hlive, h.flash⟩
    have hsaved := hset.saveCfg o.toOutside
    exact serving_reply hsaved (hsaved.unchanged (applySection_frame _ _ _))

theorem keepsServing_credentials : KeepsServing (hAdminCredentials (κ := κ)) := by
  refine keepsServing_requireAuth fun o r s h => serving_withBody h fun body => ?_
  refine serving_reply h ?_
  by_cases hpass : formText body "auth_pass" 128 = []
  · rw [if_pos hpass]
    exact h
  · have hlive := inService_setCredentials o.salt_length o.sha256_length h.live
      (formText body "auth_user" 33) hpass
    have hsaved := (h.withCfg hlive).saveCfg o.toOutside
    rw [if_neg hpass]
    exact serving_reply hsaved hsaved

/-- The pin of the LED, and whether it is on. -/
theorem keepsServing_ledToggle : KeepsServing (hLedToggle (κ := κ)) := by
  refine keepsServing_requireAuth fun o r s h => serving_withBody h fun body => ?_
  cases ledPin body with
  | error reply => exact h
  | ok gpio =>
      dsimp -zeta only
      extract_lets s₁ v s₂ s₃ test s₄
      have hpin : Serving s₁ := by
        cases gpio with
        | none => exact h
        | some n => exact (h.withCfg (h.live.set (Nat.le_of_eq rfl) (by decide))).call _
      have hon : Serving s₂ :=
        serving_ite hpin ((hpin.withCfg (hpin.live.set (Nat.le_of_eq rfl) (by decide))).call _)
      have hsaved : Serving s₃ := serving_ite (hon.saveCfg _) hon
      have htest : Serving s₄ := serving_ite (hsaved.call _) hsaved
      exact serving_reply htest htest

theorem keepsServing_controlsEnable : KeepsServing (hControlsEnable (κ := κ)) := by
  refine keepsServing_requireAuth fun o r s h => serving_withBody h fun body => ?_
  have hset : InService (set s.cfg .controlsEnabled [boolByte (isOn (formText body "enable" 8))]) :=
    h.live.set (Nat.le_of_eq rfl) (by decide)
  have hsaved := (h.withCfg hset).saveCfg o.toOutside
  exact serving_reply h ⟨hsaved.live, hsaved.flash⟩

theorem keepsServing_loglevelSet : KeepsServing (hLoglevelSet (κ := κ)) := by
  refine keepsServing_requireAuth fun o r s h => serving_withBody h fun body => ?_
  have hset :
      InService (set s.cfg .logLevel [UInt8.ofNat (atoi (formText body "level" 8)).toNat]) :=
    h.live.set (Nat.le_of_eq rfl) (by decide)
  have hsaved := (h.withCfg hset).saveCfg o.toOutside
  exact serving_reply h (serving_reply h ⟨hsaved.live, hsaved.flash⟩)

theorem keepsServing_notifyTest : KeepsServing (hNotifyTest (κ := κ)) := by
  refine keepsServing_requireAuth fun o r s h => serving_withBody h fun body => ?_
  have hsend : ∀ token chat, Serving (notifySendTest o.toOutside token chat s).2 :=
    fun token chat =>
    serving_reply h (h.ask _ _)
  dsimp only
  split
  · next heq => exact (congrArg Prod.snd heq) ▸ hsend _ _
  · next heq => exact (congrArg Prod.snd heq) ▸ hsend _ _

theorem keepsServing_pveTest : KeepsServing (hPveTest (κ := κ)) := by
  refine keepsServing_requireAuth fun o r s h => ?_
  dsimp only
  split
  · exact h
  · exact (h.ask _ _).call _

theorem keepsServing_pveGuests : KeepsServing (hPveGuests (κ := κ)) := by
  refine keepsServing_requireAuth fun o r s h => ?_
  dsimp only
  split
  · exact h
  split
  · exact h
  split
  · exact h
  split <;> exact h.ask _ _

theorem keepsServing_controlSet : KeepsServing (hControlSet (κ := κ)) := by
  refine keepsServing_requireAuth fun o r s h => serving_withBody h fun body => ?_
  dsimp only
  refine serving_reply h (serving_reply h ?_)
  split <;> exact ⟨h.live, h.flash⟩

theorem keepsServing_ota : KeepsServing (otaUpload (κ := κ)) := by
  intro o r s h
  refine serving_reply h (serving_reply h ?_)
  split
  · exact h
  · refine serving_reply (h.call _)
      (serving_reply ((h.call _).call _) (serving_reply ((h.call _).call _) ?_))
    split
    · exact h.call _
    · exact serving_reply (h.call _) ⟨h.live, h.flash⟩

theorem serving_otaGhStart (h : Serving s) (version : List UInt8) :
    Serving (otaGhStart o version s).2 :=
  serving_reply h (serving_reply ⟨h.live, h.flash⟩
    (serving_reply ⟨h.live, h.flash⟩ ⟨h.live, h.flash⟩))

theorem keepsServing_updateCheck : KeepsServing (hUpdateCheck (κ := κ)) := by
  intro o r s h
  have hcheck : Serving (otaGhCheck o.toOutside s).2 := serving_reply h (h.call _)
  exact hcheck

theorem keepsServing_updateInstall : KeepsServing (hUpdateInstall (κ := κ)) := by
  intro o r s h
  refine serving_reply h (serving_withBody h fun body => serving_reply h (serving_reply h ?_))
  have hstart := serving_otaGhStart (o := o.toOutside) h (formText body "version" 16)
  exact serving_reply hstart hstart

/-- **No handler takes the unit out of service**, but for the factory reset. -/
theorem run_serving {f : RouteFn} (hf : f ≠ .factoryReset) : KeepsServing (f.run (κ := κ)) := by
  cases f with
  | factoryReset => exact absurd rfl hf
  | adminRoot => exact fun o r s h => h.unchanged (authOk_unchanged o.toOutside r s)
  | login => exact fun o r s h => serving_withBody h fun body => serving_reply ⟨h.live, h.flash⟩ h
  | logout => exact fun o r s h => ⟨h.live, h.flash⟩
  | hostname => exact fun o r s h => h
  | adminStatus => exact keepsServing_requireAuth keepsServing_heapPage
  | adminConfig => exact keepsServing_requireAuth keepsServing_heapPage
  | adminLogs => exact keepsServing_requireAuth fun o r s h => serving_reply h h
  | adminReconfigure => exact keepsServing_reconfigure
  | adminCredentials => exact keepsServing_credentials
  | notifyTest => exact keepsServing_notifyTest
  | pveTest => exact keepsServing_pveTest
  | pveGuests => exact keepsServing_pveGuests
  | bleScan =>
      refine keepsServing_requireAuth fun o r s h => ?_
      have hscan := serving_ite (c := (!(afterWord (ascii "poll=1") (queryText r 16)).isSome &&
        !o.bleScanning) = true) (Serving.call (s := { s with bleFound := [] }) ⟨h.live, h.flash⟩
          (.bleScan 7000)) h
      exact serving_reply hscan hscan
  | wifiScan => exact keepsServing_requireAuth fun o r s h => serving_reply (h.call _) (h.call _)
  | adminReboot => exact keepsServing_requireAuth fun o r s h => h.call _
  | ledToggle => exact keepsServing_ledToggle
  | controlsGet =>
      refine keepsServing_requireAuth fun o r s h => ?_
      split <;> exact h
  | controlsEnable => exact keepsServing_controlsEnable
  | controlSet => exact keepsServing_controlSet
  | loglevelSet => exact keepsServing_loglevelSet
  | ota => exact keepsServing_requireAuth keepsServing_ota
  | updateCheck => exact keepsServing_updateCheck
  | updateInstall => exact keepsServing_updateInstall
  | updateStatus => exact fun o r s h => h

end Handlers

/-! ## 4. A run -/

/-- What happens to a unit in service: a request to the admin server, a restart. -/
inductive ServiceEv where
  | request (o : Hardware) (r : Request)
  | restart (o : Outside) (b : Board) (allocOk held : Bool)

/-- **One step.** A restart comes up in service, or service is over. -/
def serviceStep (webOta : Bool) (s : Server κ) : ServiceEv → Option (Server κ)
  | .request o r => some (serve webOta o.toOutside r s).2
  | .restart o b allocOk held =>
      let s := s.start o b allocOk held
      if needSetup s.cfg then none else some s

/-- A factory reset that is let through, and that wipes what is stored. -/
def Wipes (webOta : Bool) (s : Server κ) : ServiceEv → Prop
  | .request o r => handlerOf webOta r = some .factoryReset ∧ (authOk o.toOutside r s).1 = true ∧
      o.eraseCfg.lands = true
  | .restart .. => False

theorem not_inService_defaults (b : Board) : ¬ InService (appConfigDefaults b) := fun h => by
  have hmark := h.marked
  rw [defaults_unprovisioned] at hmark
  cases hmark

/-- **A factory reset** takes the unit out of service exactly if it is let through, and the flash
    takes it. -/
theorem factoryReset_serving_iff {s : Server κ} (h : Serving s) (o : Outside) (r : Request) :
    Serving (hFactoryReset o r s).2 ↔ ¬ ((authOk o r s).1 = true ∧ o.eraseCfg.lands = true) := by
  have hauth := h.unchanged (authOk_unchanged o r s)
  unfold hFactoryReset requireAuth
  by_cases hok : (authOk o r s).1 = true
  · simp only [hok, Bool.not_true, Bool.false_eq_true, if_false, true_and]
    have hstored : ((authOk o r s).2.erase o).stored =
        if o.eraseCfg.lands then none else (authOk o r s).2.stored := o.eraseCfg.write_fst _ _
    cases hland : o.eraseCfg.lands with
    | false =>
        rw [hland] at hstored
        exact iff_of_true ⟨hauth.live, fun b => hstored ▸ hauth.flash b⟩ Bool.false_ne_true
    | true =>
        rw [hland] at hstored
        refine iff_of_false (fun hs => ?_) (fun hno => hno rfl)
        have hflash := hs.flash kconfigBoard
        have hnone : (((authOk o r s).2.erase o).call .restart).stored = none := hstored
        rw [hnone] at hflash
        exact not_inService_defaults kconfigBoard hflash
  · simp only [Bool.eq_false_iff.mpr hok, Bool.not_false, if_true]
    exact iff_of_true hauth fun hno => absurd hno.1 Bool.false_ne_true

/-- **A request** takes it out of service exactly if it wipes what is stored. -/
theorem request_serving_iff {webOta : Bool} {s : Server κ} (h : Serving s) (o : Hardware)
    (r : Request) :
    Serving (serve webOta o.toOutside r s).2 ↔ ¬ Wipes webOta s (.request o r) := by
  cases hroute : handlerOf webOta r with
  | none =>
      have hvisit := visit_of_none (e := (o.toOutside, r)) hroute s
      unfold visit at hvisit
      rw [hvisit]
      refine iff_of_true h fun hno => ?_
      cases hroute.symm.trans hno.1
  | some f =>
      have hvisit := visit_of_some (e := (o.toOutside, r)) hroute s
      unfold visit at hvisit
      rw [hvisit]
      by_cases hf : f = .factoryReset
      · subst hf
        refine (factoryReset_serving_iff h o.toOutside r).trans (not_congr ?_)
        exact (and_iff_right hroute).symm
      · refine iff_of_true (run_serving hf o r s h) fun hno => hf ?_
        exact Option.some.inj (hroute.symm.trans hno.1)

/-- A restart that comes up in service serves. -/
theorem start_serving {s : Server κ} (h : Serving s) {o : Outside} {b : Board} {allocOk held : Bool}
    (hup : needSetup (s.start o b allocOk held).cfg = false) :
    Serving (s.start o b allocOk held) := by
  have hdefaults : needSetup (appConfigDefaults b) = true := by
    unfold needSetup
    rw [defaults_unprovisioned]
    rfl
  unfold Server.start at hup ⊢
  cases held with
  | true => exact absurd (hdefaults.symm.trans hup) Bool.noConfusion
  | false =>
      cases allocOk with
      | true => exact ⟨h.flash b, h.flash⟩
      | false =>
          simp only [Bool.false_eq_true, if_false, load_noMemory] at hup
          exact absurd (hdefaults.symm.trans hup) Bool.noConfusion

/-- **A unit stays set up**, in every run of requests and restarts, whatever is posted and whatever
    the flash makes of what is saved, exactly if no factory reset is let through and wipes what is
    stored: what is live has a login and a network, and so has what the next restart loads. -/
theorem serving_iff (webOta : Bool) {s : Server κ} (h : Serving s) (es : List ServiceEv) :
    StepMachine.Always (serviceStep webOta) Serving s es ↔
      StepMachine.Along (serviceStep webOta) (fun s e => ¬ Wipes webOta s e) s es := by
  refine StepMachine.always_iff_along (serviceStep webOta) (fun s e h => ?_) h es
  cases e with
  | request o r =>
      refine (request_serving_iff h o r).symm.trans ⟨fun hr s' hs => ?_, fun hr => hr _ rfl⟩
      rw [← Option.some.inj hs]
      exact hr
  | restart o b allocOk held =>
      refine iff_of_true (fun hno => hno) fun s' hs => ?_
      simp only [serviceStep] at hs
      split at hs
      · cases hs
      · rename_i hup
        rw [← Option.some.inj hs]
        exact start_serving h (Bool.eq_false_iff.mpr hup)

def setupHardware : Hardware :=
  { setupOutside with salt_length := by decide, sha256_length := fun _ => rfl }

/-- The unit's owner signs in, and resets it. -/
def signInAndReset : List ServiceEv :=
  [.request setupHardware (postOf "/api/login" (loginForm sixLetters)),
    .request setupHardware { postOf "/api/factory-reset" [] with
      cookie := some (ascii "sid=" ++ quietOutside.token.chars) }]

theorem serving_setUp : Serving (setUp sixLetters) := by
  have hlive : InService (setUp sixLetters).cfg := ⟨by decide +kernel, by decide +kernel⟩
  exact ⟨hlive, fun b => inService_save hlive b⟩

/-- `serving_iff` where it is lost: a unit out of its setup, which is reset. -/
theorem serving_iff_reset :
    ¬ StepMachine.Always (serviceStep true) Serving (setUp sixLetters) signInAndReset :=
  (serving_iff true serving_setUp signInAndReset).not.mpr fun halong =>
    (halong.2 _ rfl).1 ⟨by decide +kernel, by decide +kernel, rfl⟩

end NutBluetti.Web
