/-
  File:      NutBluetti/Web/FailedSave.lean
  Subject:   A SAVE THAT FAILS. `h_admin_reconfigure` and `h_admin_credentials` write the live
             configuration and the rules of the Proxmox hosts before the write that may fail, and
             put nothing back.

  * `Saver.asks` -- what a request asks to be stored, if it is let through and passes its checks;
  * `Saver.run_cases` -- the two ways a request goes;
  * **`failed_save_iff`** -- an error reply means that nothing was changed if and only if the
    request is refused, or the configuration is written, or there was nothing to change;
  * **`failed_save_drops_rules`** -- removing a host is answered with "could not save config", and
    the rules of the host are gone.
-/
import NutBluetti.Web.Credentials

namespace NutBluetti.Web

open CLayout
open NutBluetti.Config
open NutBluetti.Pve (PveGuest HostIx hostSlots)

variable {κ : Type}

/-! ## 1. Writes -/

/-- The value gets into the flash, whatever is reported. -/
def NvsFault.lands : NvsFault → Bool
  | .ok => true
  | .commitFails kept => kept
  | _ => false

theorem NvsFault.write_snd (f : NvsFault) {α : Type} (old new : α) :
    (f.write old new).2 = true ↔ f = .ok := by
  cases f <;> simp [NvsFault.write]

/-- A write leaves what was stored if it does not get there, or is the same. -/
theorem NvsFault.write_eq_old_iff (f : NvsFault) {α : Type} (old new : α) :
    (f.write old new).1 = old ↔ (f.lands = true → new = old) := by
  cases f with
  | commitFails kept => cases kept <;> simp [NvsFault.write, NvsFault.lands]
  | _ => simp [NvsFault.write, NvsFault.lands]

section Rules

variable {o : Outside}

/-- The rules of the other hosts stay. -/
theorem saveRules_other {rules : List (HostIx × List PveGuest)} {stored : HostIx → List PveGuest}
    {i : HostIx} (h : i ∉ rules.map Prod.fst) : saveRules o rules stored i = stored i := by
  induction rules generalizing stored with
  | nil => rfl
  | cons p ps ih =>
      rw [List.map_cons, List.mem_cons, not_or] at h
      show saveRules o ps (Function.update stored p.1
        ((o.saveGuests p.1).write (stored p.1) p.2).1) i = stored i
      rw [ih h.2, Function.update_of_ne h.1]

/-- **The rules are as before** if every write that gets there writes what was stored. -/
theorem saveRules_eq_iff {rules : List (HostIx × List PveGuest)} {stored : HostIx → List PveGuest}
    (h : (rules.map Prod.fst).Nodup) :
    saveRules o rules stored = stored ↔
      ∀ p ∈ rules, (o.saveGuests p.1).lands = true → p.2 = stored p.1 := by
  induction rules generalizing stored with
  | nil => simp [saveRules]
  | cons p ps ih =>
      rw [List.map_cons, List.nodup_cons] at h
      have hcons : saveRules o (p :: ps) stored =
          saveRules o ps (Function.update stored p.1
            ((o.saveGuests p.1).write (stored p.1) p.2).1) := rfl
      rw [hcons, List.forall_mem_cons, ← NvsFault.write_eq_old_iff]
      constructor
      · intro heq
        -- the hosts differ, so the first one keeps what was written for it
        have hfirst := congrFun heq p.1
        rw [saveRules_other h.1, Function.update_self] at hfirst
        rw [hfirst, Function.update_eq_self] at heq
        exact ⟨hfirst, (ih h.2).mp heq⟩
      · rintro ⟨hfirst, hrest⟩
        rw [hfirst, Function.update_eq_self]
        exact (ih h.2).mpr hrest

/-- The rules that section "pve" stores are those of different hosts. -/
theorem pveHosts_sublist {body : List UInt8} {stored : Image} {is : List HostIx} {pending : Image}
    {res : Image × List (HostIx × List PveGuest)}
    (h : pveHosts o body stored is pending = .ok res) : (res.2.map Prod.fst).Sublist is := by
  induction is generalizing pending res with
  | nil =>
      cases h
      exact .slnil
  | cons i is ih =>
      unfold pveHosts at h
      split at h
      · cases h
      · rename_i pending' _
        cases hrest : pveHosts o body stored is pending' with
        | error err =>
            rw [hrest] at h
            cases h
        | ok more =>
            rw [hrest] at h
            cases h
            have hsub := ih hrest
            rw [List.map_append]
            split
            · exact hsub.cons_cons i
            · split
              · exact hsub.cons_cons i
              · exact hsub.cons i

theorem sectionPve_sublist {body : List UInt8} {stored pending : Image}
    {res : Image × List (HostIx × List PveGuest)} (h : sectionPve o body stored pending = .ok res) :
    (res.2.map Prod.fst).Sublist hostSlots := by
  unfold sectionPve at h
  extract_lets armed pending₁ pending₂ pending₃ at h
  split at h
  · split at h
    · cases h
    · rename_i hosts
      cases h
      exact pveHosts_sublist hosts
  · cases h
    exact List.nil_sublist _

theorem runSection_nodup {body name : List UInt8} {stored : Image}
    {res : Image × List (HostIx × List PveGuest)}
    (h : runSection o body stored name = .ok res) : (res.2.map Prod.fst).Nodup := by
  have hnone : ∀ {x : Except Reply Image}, x.map (·, []) = .ok res → res.2 = [] := by
    intro x hx
    cases x with
    | error reply => cases hx
    | ok pending =>
        cases hx
        rfl
  have hnil : res.2 = [] → (res.2.map Prod.fst).Nodup := fun hres => by
    rw [hres]
    exact List.nodup_nil
  unfold runSection at h
  split at h
  · exact hnil (hnone h)
  · split at h
    · cases h
      exact List.nodup_nil
    · split at h
      · exact hnil (hnone h)
      · split at h
        · exact (sectionPve_sublist h).nodup (List.nodup_finRange _)
        · split at h
          · exact hnil (hnone h)
          · split at h
            · cases h
              exact List.nodup_nil
            · cases h

end Rules

/-! ## 2. The two handlers -/

/-- The handlers that save settings. -/
inductive Saver where
  | reconfigure
  | credentials
  deriving DecidableEq, Repr

def Saver.run : Saver → Handler κ
  | .reconfigure => hAdminReconfigure
  | .credentials => hAdminCredentials

/-- The body of a request. -/
def Saver.body (o : Outside) (r : Request) : Saver → Except Reply (List UInt8)
  | .reconfigure => readBody o r 1 65536 true
  | .credentials => readBody o r 1 1024 true

/-- What a body asks to be stored over a configuration: the new one and the rules of some hosts.
    There is nothing if the checks refuse it. -/
def Saver.wants (o : Outside) (body : List UInt8) (cfg : Image) :
    Saver → Option (Image × List (HostIx × List PveGuest))
  | .reconfigure =>
      match runSection o body cfg (formText body "section" 16) with
      | .error _ => none
      | .ok (pending, rules) => some (set pending .provisioned [1], rules)
  | .credentials =>
      let pass := formText body "auth_pass" 128
      if flag cfg .authSet && !appConfigCheckPassword o.sha256 cfg
        (formText body "current_pass" 128)
      then none
      else if pass = [] then none
      else some (setCredentials o cfg (formText body "auth_user" 33) pass, [])

/-- What a request asks to be stored, if it is let through and its body arrives. -/
def Saver.asks (h : Saver) (o : Outside) (r : Request) (s : Server κ) :
    Option (Image × List (HostIx × List PveGuest)) :=
  if !(authOk o r s).1 then none
  else
    match h.body o r with
    | .error _ => none
    | .ok body => h.wants o body s.cfg

/-- The live configuration, the stored one and the rules of every host are as before. -/
structure Unchanged (s s' : Server κ) : Prop where
  cfg : s'.cfg = s.cfg
  stored : s'.stored = s.stored
  storedGuests : s'.storedGuests = s.storedGuests

/-- An error reply means that nothing was changed. -/
def KeepsOnError (h : Saver) (o : Outside) (r : Request) (s : Server κ) : Prop :=
  (h.run o r s).1.status ≠ .ok → Unchanged s (h.run o r s).2

/-- `auth_ok` changes none of them. -/
theorem authOk_unchanged (o : Outside) (r : Request) (s : Server κ) :
    Unchanged s (authOk o r s).2 := by
  rw [authOk_frame]
  exact ⟨rfl, rfl, rfl⟩

/-- What a request writes: the rules, the live configuration, and the stored one, which may fail. -/
def commit (o : Outside) (cfg : Image) (rules : List (HostIx × List PveGuest)) (s : Server κ) :
    Server κ × Bool :=
  { s with storedGuests := saveRules o rules s.storedGuests, cfg := cfg }.saveCfg o

/-- However a section that was saved is applied, the reply is no error. -/
theorem applySection_status (name : List UInt8) (nutBefore : Bool) (s : Server κ) :
    (applySection name nutBefore s).1.status = .ok := by
  unfold applySection
  split
  · rfl
  · split
    · rfl
    · split
      · dsimp only
        split <;> rfl
      · rfl

/-- **The two ways a request goes**: it is refused, and nothing was changed; or what it asks for is
    written, and the reply is an error if that is not stored. -/
theorem Saver.run_cases (h : Saver) (o : Outside) (r : Request) (s : Server κ) :
    (h.asks o r s = none ∧ ∃ reply, h.run o r s = (reply, (authOk o r s).2)) ∨
      ∃ cfg rules, ∃ done : Server κ → Reply × Server κ, h.asks o r s = some (cfg, rules) ∧
        (rules.map Prod.fst).Nodup ∧ (∀ s', (done s').1.status = .ok) ∧
        h.run o r s =
          if !(commit o cfg rules (authOk o r s).2).2 then
            (sendErr .internalError (ascii "could not save config"),
              (commit o cfg rules (authOk o r s).2).1)
          else done (commit o cfg rules (authOk o r s).2).1 := by
  have hcfg := (authOk_unchanged o r s).cfg
  cases hauth : (authOk o r s).1 with
  | false =>
      have hasks : h.asks o r s = none := by
        rw [Saver.asks, hauth]
        rfl
      obtain ⟨body, hbody⟩ : ∃ body : Handler κ, h.run = requireAuth body := by
        cases h <;> simp only [Saver.run] <;> exact ⟨_, rfl⟩
      rw [hbody, requireAuth_stop body hauth]
      exact .inl ⟨hasks, send401, rfl⟩
  | true =>
      cases h with
      | reconfigure =>
          simp only [Saver.asks, Saver.body, Saver.wants, Saver.run, hAdminReconfigure, requireAuth,
            withBody, hauth, hcfg, Bool.not_true, Bool.false_eq_true, if_false]
          cases readBody o r 1 65536 true with
          | error reply => exact .inl ⟨rfl, reply, rfl⟩
          | ok body =>
              dsimp only
              cases hrun : runSection o body s.cfg (formText body "section" 16) with
              | error reply => exact .inl ⟨rfl, reply, rfl⟩
              | ok res =>
                  exact .inr ⟨_, res.2, applySection (formText body "section" 16)
                    (flag s.cfg .nutEnabled), rfl, runSection_nodup hrun, applySection_status _ _,
                      rfl⟩
      | credentials =>
          simp only [Saver.asks, Saver.body, Saver.wants, Saver.run, hAdminCredentials, requireAuth,
            withBody, hauth, hcfg, Bool.not_true, Bool.false_eq_true, if_false]
          cases readBody o r 1 1024 true with
          | error reply => exact .inl ⟨rfl, reply, rfl⟩
          | ok body =>
              dsimp only
              by_cases hcur : (flag s.cfg .authSet && !appConfigCheckPassword o.sha256 s.cfg
                  (formText body "current_pass" 128)) = true
              · rw [if_pos hcur, if_pos hcur]
                exact .inl ⟨rfl, _, rfl⟩
              · rw [if_neg hcur, if_neg hcur]
                by_cases hpass : formText body "auth_pass" 128 = []
                · rw [if_pos hpass, if_pos hpass]
                  exact .inl ⟨rfl, _, rfl⟩
                · rw [if_neg hpass, if_neg hpass]
                  exact .inr ⟨_, [], fun s' => (sendJson (ascii "\x7b\"ok\":true\x7d"), s'), rfl,
                    List.nodup_nil, fun _ => rfl, rfl⟩

/-! ## 3. When an error means that nothing was changed -/

/-- There is nothing to change: what is asked for is live, and what gets into the flash is there. -/
structure NothingNew (o : Outside) (cfg : Image) (rules : List (HostIx × List PveGuest))
    (s : Server κ) : Prop where
  live : cfg = s.cfg
  flash : o.saveCfg.lands = true → some (appConfigSave cfg) = s.stored
  hosts : ∀ p ∈ rules, (o.saveGuests p.1).lands = true → p.2 = s.storedGuests p.1

theorem commit_unchanged_iff {o : Outside} {cfg : Image} {rules : List (HostIx × List PveGuest)}
    {s s₁ : Server κ} (hnodup : (rules.map Prod.fst).Nodup) (hsame : Unchanged s s₁) :
    Unchanged s (commit o cfg rules s₁).1 ↔ NothingNew o cfg rules s := by
  have hcfg : (commit o cfg rules s₁).1.cfg = cfg := rfl
  have hstored : (commit o cfg rules s₁).1.stored =
      (o.saveCfg.write s.stored (some (appConfigSave cfg))).1 := by
    simp only [commit, Server.saveCfg, hsame.stored]
  have hrules : (commit o cfg rules s₁).1.storedGuests = saveRules o rules s.storedGuests := by
    simp only [commit, Server.saveCfg, hsame.storedGuests]
  constructor
  · rintro ⟨hcfg', hstored', hrules'⟩
    rw [hcfg] at hcfg'
    rw [hstored, NvsFault.write_eq_old_iff] at hstored'
    rw [hrules, saveRules_eq_iff hnodup] at hrules'
    exact ⟨hcfg', hstored', hrules'⟩
  · rintro ⟨hcfg', hstored', hrules'⟩
    exact ⟨hcfg.trans hcfg', hstored.trans ((NvsFault.write_eq_old_iff _ _ _).mpr hstored'),
      hrules.trans ((saveRules_eq_iff hnodup).mpr hrules')⟩

/-- **When an error reply means that nothing was changed**: the request is refused, or the
    configuration is written, or there is nothing to change. -/
theorem failed_save_iff (h : Saver) (o : Outside) (r : Request) (s : Server κ) :
    KeepsOnError h o r s ↔
      ∀ cfg rules, h.asks o r s = some (cfg, rules) → o.saveCfg ≠ .ok →
      NothingNew o cfg rules s := by
  have hsame := authOk_unchanged o r s
  unfold KeepsOnError
  rcases h.run_cases o r s with ⟨hasks, reply, hrun⟩ |
    ⟨cfg, rules, done, hasks, hnodup, hdone, hrun⟩
  · rw [hrun, hasks]
    refine iff_of_true (fun _ => hsame) ?_
    intro cfg rules heq
    cases heq
  · have hnothing : Unchanged s (commit o cfg rules (authOk o r s).2).1 ↔
        NothingNew o cfg rules s := commit_unchanged_iff hnodup hsame
    have hok : (commit o cfg rules (authOk o r s).2).2 = true ↔ o.saveCfg = .ok := by
      simp only [commit, Server.saveCfg, NvsFault.write_snd]
    by_cases hsave : o.saveCfg = .ok
    · rw [hrun, hok.mpr hsave]
      refine iff_of_true (fun herr => absurd (hdone _) herr) ?_
      intro cfg' rules' _ hfail
      exact absurd hsave hfail
    · rw [hrun, hasks, Bool.eq_false_iff.mpr fun heq => hsave (hok.mp heq)]
      constructor
      · intro hkeeps cfg' rules' heq _
        cases heq
        exact hnothing.mp (hkeeps Status.noConfusion)
      · intro hnew _
        exact hnothing.mpr (hnew cfg rules rfl hsave)

section Removed

/-- A unit that has Proxmox on, one rule for its first host, and no admin password yet. -/
def ruledServer : Server Nat where
  cfg := (appConfigDefaults kconfigBoard).poke
    (AppField.pve.span.start + PveField.enabled.span.start) [1]
  bleFound := []
  sessions := fun _ => Slot.free
  stored := none
  storedGuests := fun i => if i = 0 then [⟨101, 10, 0⟩] else []
  ble := Ble.bluettiBleStart false 20
  ota := ⟨.idle, -1, [], [], false⟩
  boot := "ota_0"
  calls := []

/-- `nvs_open` fails once the rules are written. -/
def fullFlash : Outside := { quietOutside with saveCfg := .openFails }

/-- "Remove" of the first host, with the shutdown armed. -/
def removeHost : Request :=
  postOf "/api/reconfigure" (ascii "section=pve&pve_armed=1&h0_clear=1")

/-- **A save that fails drops the rules of a host and arms the shutdown**, and the page says that it
    was not saved. -/
theorem failed_save_drops_rules :
    (hAdminReconfigure fullFlash removeHost ruledServer).1 =
        sendErr .internalError (ascii "could not save config") ∧
      ruledServer.storedGuests 0 = [⟨101, 10, 0⟩] ∧
      (hAdminReconfigure fullFlash removeHost ruledServer).2.storedGuests 0 = [] ∧
      pveFlag ruledServer.cfg .armed = false ∧
      pveFlag (hAdminReconfigure fullFlash removeHost ruledServer).2.cfg .armed = true ∧
      ¬ KeepsOnError .reconfigure fullFlash removeHost ruledServer := by
  have hreply : (hAdminReconfigure fullFlash removeHost ruledServer).1 =
      sendErr .internalError (ascii "could not save config") := by decide +kernel
  have hbefore : ruledServer.storedGuests 0 = [⟨101, 10, 0⟩] := rfl
  have hrules : (hAdminReconfigure fullFlash removeHost ruledServer).2.storedGuests 0 = [] := by
    decide +kernel
  refine ⟨hreply, hbefore, hrules, by decide +kernel, by decide +kernel, fun hkeeps => ?_⟩
  have hsame := hkeeps (by
    rw [Saver.run, hreply]
    exact Status.noConfusion)
  have hkept := congrFun hsame.storedGuests 0
  rw [Saver.run, hrules, hbefore] at hkept
  cases hkept

end Removed

end NutBluetti.Web
