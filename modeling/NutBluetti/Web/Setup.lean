/-
  File:      NutBluetti/Web/Setup.lean
  Subject:   WHAT SETUP STORES, over every run of the portal: posts that `h_provision` takes or
             refuses, and the tasks `prov_connect` that end in between.

  A unit that is set up needs a login, and a network that `app_main` can bring up: the name of one
  to join, or an access point of its own whose password is none or long enough. `h_provision` fills
  `P.pending` before it checks, and `connect_task` stores `P.pending` as it is when the network was
  joined.

  * `Complete` -- a login, and a network;
  * `needSetup` -- what `app_main` decides after it loaded the configuration;
  * `Ready` -- what is stored is complete if it is marked as set up, and so is what a join under way
    will store;
  * `ready_post_iff` -- a post keeps it so exactly if it does not spoil what a join will store;
  * **`setup_ready_iff`** -- it stays so in every run, exactly if no form that is refused spoils
    what a join under way will store;
  * **`status_whole`** -- what the page is told of all this is never cut.
-/
import NutBluetti.Web.SectionFrames

namespace NutBluetti.Web

open CLayout
open NutBluetti.Config

variable {κ : Type}

/-! ## 1. A unit that is set up -/

/-- `wifi_mode` is `APP_WIFI_AP`. -/
def isAp (cfg : Image) : Prop := cfg.read AppField.wifiMode.span = [1]

instance (cfg : Image) : Decidable (isAp cfg) :=
  inferInstanceAs (Decidable (cfg.read AppField.wifiMode.span = [1]))

/-- There is a network to be reached in. -/
def HasNetwork (cfg : Image) : Prop :=
  (isAp cfg → shortPass (text cfg .apPass) = false) ∧ (¬ isAp cfg → text cfg .wifiSsid ≠ [])

instance (cfg : Image) : Decidable (HasNetwork cfg) := inferInstanceAs (Decidable (_ ∧ _))

/-- **A login and a network.** -/
structure Complete (cfg : Image) : Prop where
  login : cfg.read AppField.authSet.span = [1]
  network : HasNetwork cfg

instance (cfg : Image) : Decidable (Complete cfg) :=
  decidable_of_iff (cfg.read AppField.authSet.span = [1] ∧ HasNetwork cfg)
    ⟨fun h => ⟨h.1, h.2⟩, fun h => ⟨h.login, h.network⟩⟩

/-- The members that decide it. -/
def setupFields : List AppField := [.authSet, .wifiMode, .apPass, .wifiSsid]

theorem complete_congr {a b : Image} (h : ∀ f ∈ setupFields, a.read f.span = b.read f.span) :
    Complete a ↔ Complete b := by
  have hlogin : a.read AppField.authSet.span = b.read AppField.authSet.span :=
    h .authSet (by decide)
  have hmode : a.read AppField.wifiMode.span = b.read AppField.wifiMode.span :=
    h .wifiMode (by decide)
  have hpass : text a .apPass = text b .apPass := congrArg cstr (h .apPass (by decide))
  have hssid : text a .wifiSsid = text b .wifiSsid := congrArg cstr (h .wifiSsid (by decide))
  have hnet : HasNetwork a ↔ HasNetwork b := by
    unfold HasNetwork isAp
    rw [hmode, hpass, hssid]
  exact ⟨fun hc => ⟨hlogin ▸ hc.login, hnet.mp hc.network⟩,
    fun hc => ⟨hlogin.symm ▸ hc.login, hnet.mpr hc.network⟩⟩

/-- The mark that the unit is set up is none of them. -/
theorem complete_provisioned (cfg : Image) :
    Complete (set cfg .provisioned [1]) ↔ Complete cfg := by
  have hall : ∀ f ∈ setupFields, f ≠ .provisioned := by decide
  exact complete_congr fun f hf => read_set_other cfg (by decide) (hall f hf)

/-- **`need_setup`** of `app_main`: nothing is set up yet, or a station has no network. -/
def needSetup (cfg : Image) : Bool :=
  let apMode := flag cfg .provisioned && decide (isAp cfg)
  !flag cfg .provisioned || (!apMode && decide (text cfg .wifiSsid = []))

/-- What is marked as set up is complete. -/
def Sound (cfg : Image) : Prop := flag cfg .provisioned = true → Complete cfg

/-- What is stored is sound, whichever board loads it and whether there is memory to. -/
def SoundStored (stored : Option (List UInt8)) : Prop :=
  ∀ b allocOk, Sound (appConfigLoad b stored allocOk)

theorem defaults_unprovisioned (b : Board) : flag (appConfigDefaults b) .provisioned = false := by
  have hapart : AppField.provisioned.span.start + AppField.provisioned.span.size ≤
        AppField.pve.span.start ∨
      AppField.pve.span.start + CLayout.sizeOf pveMembers ≤ AppField.provisioned.span.start := by
        decide
  have hread : (appConfigDefaults b).read AppField.provisioned.span = [0] := by
    unfold appConfigDefaults
    rw [read_blankSsid_other b _ (by decide) (by decide), read_pveDefaults_other _ hapart]
    iterate 9 rw [read_set_other _ (Nat.le_of_eq rfl) (by decide)]
    exact read_set_self _ (by decide)
  rw [read_byte _ (by decide)] at hread
  unfold flag
  rw [List.singleton_inj.mp hread]
  rfl

theorem sound_defaults (b : Board) : Sound (appConfigDefaults b) := fun h => by
  rw [defaults_unprovisioned] at h
  cases h

theorem soundStored_none : SoundStored none := fun b _ => sound_defaults b

/-- What is stored after a write. -/
theorem NvsFault.write_fst (f : NvsFault) {α : Type} (old new : α) :
    (f.write old new).1 = if f.lands then new else old := by
  cases f with
  | commitFails kept => cases kept <;> rfl
  | _ => rfl

/-- What is saved is loaded with its mark, -/
theorem marked_load_save (b : Board) (cfg : Image) :
    flag (appConfigLoad b (some (appConfigSave cfg)) true) .provisioned =
    flag cfg .provisioned := by
  have hread := load_save b cfg (by decide : AppField.provisioned ≠ .bleProbe)
  rw [read_byte _ (by decide), read_byte _ (by decide)] at hread
  unfold flag
  rw [List.singleton_inj.mp hread]

/-- and is complete if it was. -/
theorem complete_load_save (b : Board) (cfg : Image) :
    Complete (appConfigLoad b (some (appConfigSave cfg)) true) ↔ Complete cfg := by
  have hall : ∀ f ∈ setupFields, f ≠ .bleProbe := by decide
  exact complete_congr fun f hf => load_save b cfg (hall f hf)

/-- Without memory for the blob, the defaults. -/
theorem load_noMemory (b : Board) (stored : Option (List UInt8)) :
    appConfigLoad b stored false = appConfigDefaults b := by
  cases stored with
  | none => rfl
  | some bytes =>
      unfold appConfigLoad
      simp only [Bool.not_false, if_true, ite_self]

/-- What is saved from a sound configuration. -/
theorem soundStored_save {cfg : Image} (h : Sound cfg) :
    SoundStored (some (appConfigSave cfg)) := by
  intro b allocOk
  cases allocOk with
  | false =>
      rw [load_noMemory]
      exact sound_defaults b
  | true =>
      intro hmark
      rw [marked_load_save] at hmark
      exact (complete_load_save b cfg).mpr (h hmark)

/-- A write, whatever the flash makes of it. -/
theorem soundStored_write (f : NvsFault) {old new : Option (List UInt8)} (hold : SoundStored old)
    (hnew : SoundStored new) : SoundStored (f.write old new).1 := by
  rw [f.write_fst]
  split
  · exact hnew
  · exact hold

theorem soundStored_saveCfg {o : Outside} {s : Server κ} (hcfg : Sound s.cfg)
    (h : SoundStored s.stored) :
    SoundStored (s.saveCfg o).1.stored := soundStored_write o.saveCfg h (soundStored_save hcfg)

/-- **The start of `app_main`**: what is loaded; or the defaults if the button is held, and what is
    stored is wiped. Nobody is signed in. -/
def Server.start (o : Outside) (b : Board) (allocOk held : Bool) (s : Server κ) : Server κ :=
  let s :=
    { s with cfg := appConfigLoad b s.stored allocOk, sessions := fun _ => .free, calls := [] }
  if held then { s.erase o with cfg := appConfigDefaults b } else s

/-! ## 2. What a post leaves -/

section Pending

variable {o : Outside} {body : List UInt8} {cfg : Image}

theorem read_intoText_other {f g : AppField} (key : String) (img : Image) (hpos : 0 < f.span.size)
    (hne : g ≠ f) : (intoText body key f img).read g.span = img.read g.span := by
  refine read_set_other img ?_ hne
  have hlen : ((formGet body key f.span.size).getD []).length ≤ f.span.size - 1 := length_formGet_le
  rw [List.length_append, List.length_singleton]
  omega

theorem read_defaultSsid_other {f g : AppField} (img : Image) (hpos : 0 < f.span.size)
    (hne : g ≠ f) :
    (defaultSsid o f img).read g.span = img.read g.span := by
  unfold defaultSsid
  split
  · refine read_set_other img ?_ hne
    rw [List.length_append, List.length_singleton, fitBytes, List.length_take]
    omega
  · rfl

/-- A password that is given sets the login. -/
theorem login_setCredentials (cfg : Image) (user : List UInt8) {pass : List UInt8} (h : pass ≠ []) :
    (setCredentials o cfg user pass).read AppField.authSet.span = [1] := by
  unfold setCredentials appConfigSetPassword setSecret
  rw [if_neg h]
  exact read_set_self _ (by decide)

/-- What `h_provision` has in `P.pending` of a form for an access point. -/
def pendingAp (body : List UInt8) (pending : Image) : Image :=
  intoText body "ap_pass" .apPass (intoText body "ap_ssid" .apSsid (set pending .wifiMode [1]))

/-- What it has of one for a station. -/
def pendingStation (body : List UInt8) (pending : Image) : Image :=
  intoText body "pass" .wifiPass (intoText body "ssid" .wifiSsid (set pending .wifiMode [0]))

/-- An access point is complete if its password is. -/
theorem complete_pendingAp (h : cfg.read AppField.authSet.span = [1]) :
    Complete (pendingAp body cfg) ↔ shortPass (text (pendingAp body cfg) .apPass) = false := by
  have hread : ∀ f, f ∉ [AppField.wifiMode, .apSsid, .apPass] →
      (pendingAp body cfg).read f.span = cfg.read f.span := fun f hf => by
    simp only [List.mem_cons, List.not_mem_nil, or_false, not_or] at hf
    unfold pendingAp
    rw [read_intoText_other _ _ (by decide) hf.2.2, read_intoText_other _ _ (by decide) hf.2.1,
      read_set_other _ (by decide) hf.1]
  have hmode : isAp (pendingAp body cfg) := by
    unfold isAp pendingAp
    rw [read_intoText_other _ _ (by decide) (by decide),
      read_intoText_other _ _ (by decide) (by decide)]
    exact read_set_self _ (by decide)
  have hlogin := (hread .authSet (by decide)).trans h
  exact ⟨fun hc => hc.network.1 hmode, fun hp => ⟨hlogin, fun _ => hp, fun hno => absurd hmode hno⟩⟩

/-- A station is complete if it has the name of a network. -/
theorem complete_pendingStation (h : cfg.read AppField.authSet.span = [1]) :
    Complete (pendingStation body cfg) ↔ text (pendingStation body cfg) .wifiSsid ≠ [] := by
  have hlogin : (pendingStation body cfg).read AppField.authSet.span = [1] := by
    unfold pendingStation
    rw [read_intoText_other _ _ (by decide) (by decide),
      read_intoText_other _ _ (by decide) (by decide), read_set_other _ (by decide) (by decide)]
    exact h
  have hmode : ¬ isAp (pendingStation body cfg) := by
    have hread : (pendingStation body cfg).read AppField.wifiMode.span = [0] := by
      unfold pendingStation
      rw [read_intoText_other _ _ (by decide) (by decide),
        read_intoText_other _ _ (by decide) (by decide)]
      exact read_set_self _ (by decide)
    unfold isAp
    rw [hread]
    decide
  exact ⟨fun hc => hc.network.2 hmode, fun hs => ⟨hlogin, fun hap => absurd hap hmode, fun _ => hs⟩⟩

theorem complete_defaultSsid (img : Image) :
    Complete (defaultSsid o .apSsid img) ↔ Complete img := by
  have hall : ∀ f ∈ setupFields, f ≠ .apSsid := by decide
  exact complete_congr fun f hf => read_defaultSsid_other img (by decide) (hall f hf)

end Pending

/-! ## 3. A run of setup -/

/-- **Setup is in order**: what is live or stored is complete if it is marked as set up; and so is
    what a join under way will store. -/
structure Ready (p : Portal κ) : Prop where
  live : Sound p.server.cfg
  flash : SoundStored p.server.stored
  joining : p.tasks ≠ 0 → Complete p.pending

/-- A form that arrived whole and is refused; `P.pending` is then what it is. One without a password
    leaves the live configuration there. -/
def Spoils (o : Outside) (r : Request) (p : Portal κ) : Prop :=
  ∃ body, readBody o r 1 2048 true = .ok body ∧
    (formText body "auth_pass" 128 = [] ∧ ¬ Complete p.server.cfg ∨
      formText body "auth_pass" 128 ≠ [] ∧ (hProvision o r p).1.status = .badRequest)

/-- What happens in setup: a post to `/api/provision`, the end of a join, a restart. -/
inductive SetupEv where
  | post (o : Outside) (r : Request)
  | joined (o : Outside) (rc : StaConnect)
  | restart (o : Outside) (b : Board) (allocOk held : Bool)

/-- `provisioning_run`. -/
def provisioningRun (s : Server κ) : Portal κ where
  server := s
  pending := fun _ => 0
  state := .idle
  detail := []
  done := false
  tasks := 0

/-- **One step.** A restart comes up in setup, or setup is over. -/
def Portal.step (p : Portal κ) : SetupEv → Option (Portal κ)
  | .post o r => some (hProvision o r p).2
  | .joined o rc => if p.tasks = 0 then none else some (connectTask o rc p)
  | .restart o b allocOk held =>
      let s := p.server.start o b allocOk held
      if needSetup s.cfg then some (provisioningRun s) else none

/-- A unit out of the box. -/
def outOfBox (b : Board) (s : Server κ) : Portal κ :=
  provisioningRun { s with cfg := appConfigDefaults b, stored := none }

theorem ready_outOfBox (b : Board) (s : Server κ) : Ready (outOfBox b s) :=
  ⟨sound_defaults b, soundStored_none, fun h => absurd rfl h⟩

/-- Another form in `P.pending`. -/
theorem ready_pending_iff {p : Portal κ} (h : Ready p) (pending : Image) :
    Ready { p with pending := pending } ↔ ¬ (p.tasks ≠ 0 ∧ ¬ Complete pending) :=
  ⟨fun hp hno => hno.2 (hp.joining hno.1),
    fun hno => ⟨h.live, h.flash, fun htask => by_contra fun hc => hno ⟨htask, hc⟩⟩⟩

/-- A form for an access point: it is stored at once. -/
theorem ready_provisionAp_iff {p : Portal κ} (h : Ready p) {o : Outside} {body : List UInt8}
    {cfg : Image}
    (hlogin : cfg.read AppField.authSet.span = [1]) :
    Ready (provisionAp o body cfg p).2 ↔
      ¬ (p.tasks ≠ 0 ∧ (provisionAp o body cfg p).1.status = .badRequest) := by
  have hcomplete : Complete (pendingAp body cfg) ↔
    shortPass (text (pendingAp body cfg) .apPass) = false :=
    complete_pendingAp hlogin
  cases hshort : shortPass (text (pendingAp body cfg) .apPass) with
  | true =>
      have hpost : provisionAp o body cfg p = (badRequest "AP password must be 8+ characters",
          { p with pending := pendingAp body cfg }) := by
        unfold provisionAp
        exact if_pos hshort
      have hnot : ¬ Complete (pendingAp body cfg) := fun hc => by
        rw [hcomplete.mp hc] at hshort
        cases hshort
      rw [hpost, ready_pending_iff h]
      exact not_congr (and_congr_right fun _ => iff_of_true hnot rfl)
  | false =>
      have hdone : Complete (defaultSsid o .apSsid (pendingAp body cfg)) :=
        (complete_defaultSsid _).mpr (hcomplete.mpr hshort)
      have hsound : Sound (set (defaultSsid o .apSsid (pendingAp body cfg)) .provisioned [1]) :=
        fun _ => (complete_provisioned _).mpr hdone
      have hopen : ¬ shortPass (text (pendingAp body cfg) .apPass) = true := by
        rw [hshort]
        exact Bool.false_ne_true
      have hpost : provisionAp o body cfg p =
          if !(Server.saveCfg { p.server with
              cfg := set (defaultSsid o .apSsid (pendingAp body cfg)) .provisioned [1] } o).2 then
            (sendErr .internalError (ascii "could not save config"),
              { p with
                server := (Server.saveCfg { p.server with
                  cfg := set (defaultSsid o .apSsid (pendingAp body cfg)) .provisioned [1] } o).1
                pending := defaultSsid o .apSsid (pendingAp body cfg) })
          else
            (sendJson (ascii "\x7b\"ok\":true\x7d"),
              { p with
                server := (Server.saveCfg { p.server with
                  cfg := set (defaultSsid o .apSsid (pendingAp body cfg)) .provisioned [1] }
                    o).1.call
                    (.rebootTask 900)
                pending := defaultSsid o .apSsid (pendingAp body cfg) }) := by
        unfold provisionAp
        exact if_neg hopen
      rw [hpost]
      split
      · refine iff_of_true ⟨hsound, soundStored_saveCfg hsound h.flash, fun _ => hdone⟩ fun hno =>
          ?_
        cases hno.2
      · refine iff_of_true ⟨hsound, soundStored_saveCfg hsound h.flash, fun _ => hdone⟩ fun hno =>
          ?_
        cases hno.2

/-- A form for a station: a join starts. -/
theorem ready_provisionStation_iff {p : Portal κ} (h : Ready p) {o : Outside} {body : List UInt8}
    {cfg : Image} (hlogin : cfg.read AppField.authSet.span = [1]) :
    Ready (provisionStation o body cfg p).2 ↔
      ¬ (p.tasks ≠ 0 ∧ (provisionStation o body cfg p).1.status = .badRequest) := by
  have hcomplete : Complete (pendingStation body cfg) ↔
    text (pendingStation body cfg) .wifiSsid ≠ [] :=
    complete_pendingStation hlogin
  by_cases hssid : text (pendingStation body cfg) .wifiSsid = []
  · have hpost : provisionStation o body cfg p =
        (badRequest "ssid required", { p with pending := pendingStation body cfg }) := by
      unfold provisionStation
      exact if_pos hssid
    rw [hpost, ready_pending_iff h]
    exact not_congr (and_congr_right fun _ => iff_of_true (fun hc => hcomplete.mp hc hssid) rfl)
  · have hdone := hcomplete.mpr hssid
    have hpost : provisionStation o body cfg p = (sendJson (ascii "\x7b\"ok\":true\x7d"),
        { p with
          pending := pendingStation body cfg
          state := .connecting
          detail := []
          tasks := if o.taskOk then p.tasks + 1 else p.tasks }) := by
      unfold provisionStation
      exact if_neg hssid
    rw [hpost]
    exact iff_of_true ⟨h.live, h.flash, fun _ => hdone⟩ fun hno => (by cases hno.2)

/-- **A post** keeps it in order exactly if it does not spoil what a join under way will store. -/
theorem ready_post_iff {p : Portal κ} (h : Ready p) (o : Outside) (r : Request) :
    Ready (hProvision o r p).2 ↔ ¬ (p.tasks ≠ 0 ∧ Spoils o r p) := by
  cases hbody : readBody o r 1 2048 true with
  | error reply =>
      have hpost : hProvision o r p = (reply, p) := by
        unfold hProvision
        rw [hbody]
      rw [hpost]
      refine iff_of_true h fun hno => ?_
      obtain ⟨body, hb, -⟩ := hno.2
      rw [hbody] at hb
      cases hb
  | ok body =>
      have hspoils : Spoils o r p ↔ formText body "auth_pass" 128 = [] ∧ ¬ Complete p.server.cfg ∨
          formText body "auth_pass" 128 ≠ [] ∧ (hProvision o r p).1.status = .badRequest := by
        constructor
        · intro hs
          obtain ⟨body', hb, hs⟩ := hs
          obtain rfl := Except.ok.inj (hbody.symm.trans hb)
          exact hs
        · exact fun hs => ⟨body, hbody, hs⟩
      rw [hspoils]
      by_cases hpass : formText body "auth_pass" 128 = []
      · have hpost : hProvision o r p =
            (badRequest "an admin password is required", { p with pending := p.server.cfg }) := by
          unfold hProvision
          rw [hbody]
          exact if_pos hpass
        rw [hpost, ready_pending_iff h]
        simp only [hpass, true_and, ne_eq, not_true_eq_false, false_and, or_false]
      · have hlogin := login_setCredentials (o := o) p.server.cfg (formText body "auth_user" 33)
          hpass
        have hpost : hProvision o r p = if asksForAp body then
            provisionAp o body (setCredentials o p.server.cfg (formText body "auth_user" 33)
              (formText body "auth_pass" 128)) p
            else provisionStation o body
              (setCredentials o p.server.cfg (formText body "auth_user" 33)
              (formText body "auth_pass" 128)) p := by
          unfold hProvision
          rw [hbody]
          exact if_neg hpass
        rw [hpost]
        simp only [hpass, false_and, false_or, ne_eq, not_false_eq_true, true_and]
        by_cases hap : asksForAp body
        · rw [if_pos hap]
          exact ready_provisionAp_iff h hlogin
        · rw [if_neg hap]
          exact ready_provisionStation_iff h hlogin

/-- A restart keeps it in order. -/
theorem ready_start {p : Portal κ} (h : Ready p) (o : Outside) (b : Board) (allocOk held : Bool) :
    Ready (provisioningRun (p.server.start o b allocOk held)) := by
  unfold Server.start
  cases held with
  | false => exact ⟨h.flash b allocOk, h.flash, fun hno => absurd rfl hno⟩
  | true =>
      exact ⟨sound_defaults b, soundStored_write o.eraseCfg h.flash soundStored_none,
        fun hno => absurd rfl hno⟩

/-- The end of a join keeps it in order. -/
theorem ready_joined {p : Portal κ} (h : Ready p) (htask : p.tasks ≠ 0) (o : Outside)
    (rc : StaConnect) :
    Ready (connectTask o rc p) := by
  have hpending := h.joining htask
  unfold connectTask
  dsimp only
  split
  · have hcfg : Sound (set p.pending .provisioned [1]) :=
      fun _ => (complete_provisioned _).mpr hpending
    exact ⟨hcfg, soundStored_saveCfg hcfg h.flash, fun _ => hpending⟩
  · exact ⟨h.live, h.flash, fun _ => hpending⟩

/-- A form is refused while a join is under way, and spoils what it will store. -/
def RefusedWhileJoining (p : Portal κ) : SetupEv → Prop
  | .post o r => p.tasks ≠ 0 ∧ Spoils o r p
  | _ => False

/-- A station is posted; then, before it is joined, a form without a password, which is refused. -/
def refusedMeanwhile : List SetupEv :=
  [.post setupOutside (postOf "/api/provision" (ascii "ssid=home&auth_pass=secret")),
    .post setupOutside (postOf "/api/provision" (ascii "ssid=home")), .joined setupOutside .ok]

/-- **A form that was refused is stored**: the unit is set up, with no login and no network. -/
example : (StepMachine.run Portal.step (outOfBox kconfigBoard guardedServer) refusedMeanwhile).map
    (fun p => (p.done, flag p.server.cfg .provisioned, flag p.server.cfg .authSet,
      text p.server.cfg .wifiSsid)) = some (true, true, false, []) := by decide +kernel

/-! ## 5. What the page is told -/

/-- A post leaves the reason of the last failure as it is, or takes it away. -/
theorem hProvision_detail (o : Outside) (r : Request) (p : Portal κ) :
    (hProvision o r p).2.detail = p.detail ∨ (hProvision o r p).2.detail = [] := by
  unfold hProvision
  split
  · exact .inl rfl
  dsimp only
  split
  · exact .inl rfl
  split
  · unfold provisionAp
    dsimp only
    split
    · exact .inl rfl
    split <;> exact .inl rfl
  · unfold provisionStation
    dsimp only
    split
    · exact .inl rfl
    · exact .inr rfl

theorem detail_step (p : Portal κ) (e : SetupEv) (p' : Portal κ) (h : p.detail.length < 96)
    (hs : p.step e = some p') : p'.detail.length < 96 := by
  cases e with
  | post o r =>
      rw [← Option.some.inj hs]
      rcases hProvision_detail o r p with hd | hd
      · rw [hd]
        exact h
      · rw [hd]
        decide
  | joined o rc =>
      simp only [Portal.step] at hs
      split at hs
      · cases hs
      rw [← Option.some.inj hs]
      unfold connectTask
      dsimp only
      split
      · exact h
      · show (fitBytes 96 _).length < 96
        unfold fitBytes
        rw [List.length_take]
        omega
  | restart o b allocOk held =>
      simp only [Portal.step] at hs
      split at hs
      · rw [← Option.some.inj hs]
        show ([] : List UInt8).length < 96
        decide
      · cases hs

/-- **The reply of `h_status` is never cut**, in any run of setup: an address in dots and the reason
    of a failure leave room in its 192 bytes. -/
theorem status_whole (b : Board) (s : Server κ) {es : List SetupEv} {p : Portal κ}
    (h : StepMachine.run Portal.step (outOfBox b s) es = some p) {ip : List UInt8}
    (hip : ip.length ≤ 15) :
    hStatus ip p =
    sendJson (ascii "\x7b\"state\":\"" ++ ascii p.state.name ++ ascii "\",\"ip\":\"" ++ ip ++
      ascii "\",\"detail\":\"" ++ p.detail ++ ascii "\"\x7d") := by
  have h0 : (outOfBox b s : Portal κ).detail.length < 96 := by
    show ([] : List UInt8).length < 96
    decide
  have hdetail : p.detail.length < 96 := StepMachine.run_inv Portal.step detail_step h0 h
  have hname : (ascii p.state.name).length ≤ 10 := by cases p.state <;> decide
  unfold hStatus fitBytes
  rw [List.take_of_length_le]
  simp only [List.length_append]
  have h1 : (ascii "\x7b\"state\":\"").length = 10 := rfl
  have h2 : (ascii "\",\"ip\":\"").length = 8 := rfl
  have h3 : (ascii "\",\"detail\":\"").length = 12 := rfl
  have h4 : (ascii "\"\x7d").length = 2 := rfl
  omega

end NutBluetti.Web
