/-
  File:      NutBluetti/Ota/Install.lean
  Subject:   INSTALLING A RELEASE (ota_github.c): `ota_gh_start` and `ota_task`, beside the upload
             of `h_ota` (provisioning.c) and the restarts of the unit.

  Both ways to flash write the one partition that is not running. A start holds `G.lock` to make the
  state `RUNNING`, and nothing after; the task reads `G.version` and writes the partition without
  it. What ESP-IDF does to the partition is no part of the state here: a step has what a call
  returned. The requests are those of the one task of the web server, so of `ota_gh_start` and
  `h_ota` one runs at a time; the download tasks run beside it, any number of them.

  * `Exclusive` -- who is at work on a release is counted by the state `RUNNING`, and has its
    version;
  * **`one_install`** -- so in every run one start at most is at work, and each task downloads the
    release its own start was given;
  * **`otaGhStart_steps`** -- `ota_gh_start` as the server has it, in these steps.
-/
import NutBluetti.Lib.Crew
import NutBluetti.Lib.StepMachine
import NutBluetti.Web.Update

namespace NutBluetti.Ota

open NutBluetti.Config NutBluetti.Web

/-! ## 1. The tasks -/

/-- Where an `ota_task` is. -/
inductive Phase where
  | created
  /-- In `esp_https_ota_begin`. -/
  | beginning (url : List UInt8)
  /-- With a handle, in the loop of `esp_https_ota_perform`; whether it has been called. -/
  | performing (url : List UInt8) (total : Int) (called : Bool)
  /-- All data received, before `esp_https_ota_finish`. -/
  | received (url : List UInt8)
  /-- Without a handle, before `set_fail`. -/
  | failing (why : String)
  /-- Finished, before the state is set. -/
  | installed (url : List UInt8)
  /-- In the delay before `esp_restart`. -/
  | restarting (url : List UInt8)
  | ended
  deriving DecidableEq

/-- An `ota_task`, with the version that its start was given. -/
structure Task where
  version : List UInt8
  phase : Phase
  deriving DecidableEq

/-- Where the task of the web server is. -/
inductive ServerPhase where
  | idle
  /-- In `ota_gh_start`, before `xTaskCreate`. -/
  | creating (version : List UInt8)
  /-- `xTaskCreate` failed, before `set_fail`. -/
  | refusing
  /-- In `h_ota`, with a handle. -/
  | receiving
  /-- In `h_ota`, before `esp_ota_set_boot_partition`. -/
  | closed
  deriving DecidableEq

/-- The static `G` and the tasks. -/
structure Installer where
  ota : OtaGh
  tasks : List Task
  server : ServerPhase
  /-- `esp_https_ota_finish` or `esp_ota_set_boot_partition` succeeded since the unit started. -/
  boot : Bool
  deriving DecidableEq

/-- `G` as it is initialised. -/
def ghZero : OtaGh := ⟨.idle, -1, [], [], false⟩

def Installer.init : Installer := ⟨ghZero, [], .idle, false⟩

/-! ## 2. The steps -/

/-- What `esp_https_ota_perform` returns, with what is asked after it. -/
inductive Performed where
  /-- `ESP_ERR_HTTPS_OTA_IN_PROGRESS`, with the bytes read. -/
  | inProgress (done : Int)
  /-- `ESP_OK`; whether all data was received. -/
  | ok (complete : Bool)
  /-- `ESP_ERR_OTA_VALIDATE_FAILED`. -/
  | invalid
  | error (name : String)

/-- What `esp_https_ota_finish` returns. -/
inductive Finished where
  | ok
  | invalid
  | error
  deriving DecidableEq

inductive TaskEv where
  | read
  | begin (ok : Bool) (total : Int)
  | perform (res : Performed)
  | finish (res : Finished)
  | fail
  | report

inductive InstallEv where
  /-- `ota_gh_start` until it gives the lock back. -/
  | start (version : List UInt8) (mutexOk : Bool)
  | create (ok : Bool)
  | refuse
  | uploadBegin (ok : Bool)
  | uploadWrite
  | uploadAbort
  | uploadEnd (ok : Bool)
  | uploadBoot (ok : Bool)
  | task (i : Nat) (e : TaskEv)
  /-- A restart, by a task or by a loss of power. -/
  | restart

/-- `snprintf (url, 220, …)`. -/
def assetUrl (owner repo version : List UInt8) : List UInt8 :=
  fitBytes 220 (ascii "https://github.com/" ++ owner ++ ascii "/" ++ repo ++
    ascii "/releases/download/v" ++ version ++ ascii "/" ++ repo ++ ascii "-" ++ version ++
    ascii ".bin")

/-- `snprintf (m, 96, …)`. -/
def downloadFailed (name : String) : String :=
  String.ofList (("download failed (" ++ name ++ ")").toList.take 95)

/-- The percentage: C division, which is towards zero. -/
def percent (done total : Int) : Int := if total > 0 then (done * 100).tdiv total else -1

/-- `G` for a version that is to be installed. -/
def ghBegun (g : OtaGh) (version : List UInt8) : OtaGh :=
  { g with version := fitBytes 16 version, state := .running, pct := -1, msg := ascii "starting",
           lock := true }

def ghInstalled (g : OtaGh) : OtaGh :=
  { g with state := .done, pct := 100, msg := ascii "installed - rebooting" }

section Steps

variable (owner repo : List UInt8)

/-- **`ota_task`**, one stretch of it. -/
def Installer.taskStep (s : Installer) : Phase → TaskEv → Option (Installer × Phase)
  | .created, .read => some (s, .beginning (assetUrl owner repo s.ota.version))
  | .beginning url, .begin ok total =>
      some (s, if ok then .performing url total false
        else .failing "could not start the download")
  | .performing url total _, .perform res =>
      match res with
      | .inProgress done =>
          some
            ({ s with ota := { s.ota with pct := percent done total } }, .performing url total true)
      | .ok complete =>
          some (s, if complete then .received url else .failing "the download ended early")
      | .invalid => some (s, .failing "that file is not a valid image for this device")
      | .error name => some (s, .failing (downloadFailed name))
  | .received url, .finish res =>
      match res with
      | .ok => some ({ s with boot := true }, .installed url)
      | .invalid => some (s, .failing "the downloaded image failed validation")
      | .error => some (s, .failing "could not finish writing the image")
  | .failing why, .fail => some ({ s with ota := s.ota.setFail why }, .ended)
  | .installed url, .report => some ({ s with ota := ghInstalled s.ota }, .restarting url)
  | _, _ => none

/-- **A step** of the server's task, of one of the download tasks, or of the unit. -/
def Installer.step (s : Installer) : InstallEv → Option Installer
  | .start version mutexOk =>
      if s.server ≠ .idle then none
      else if !s.ota.lock && !mutexOk then some s
      else if s.ota.state = .running then some { s with ota := { s.ota with lock := true } }
      else some { s with ota := ghBegun s.ota version, server := .creating (fitBytes 16 version) }
  | .create ok =>
      match s.server with
      | .creating v =>
          if ok then some { s with server := .idle, tasks := s.tasks ++ [⟨v, .created⟩] }
          else some { s with server := .refusing }
      | _ => none
  | .refuse =>
      if s.server = .refusing then
        some { s with server := .idle, ota := s.ota.setFail "could not start the update task" }
      else none
  | .uploadBegin ok =>
      if s.server ≠ .idle then none
      else some (if ok then { s with server := .receiving } else s)
  | .uploadWrite => if s.server = .receiving then some s else none
  | .uploadAbort => if s.server = .receiving then some { s with server := .idle } else none
  | .uploadEnd ok =>
      if s.server = .receiving then
        some (if ok then { s with server := .closed } else { s with server := .idle })
      else none
  | .uploadBoot ok =>
      if s.server = .closed then some { s with server := .idle, boot := s.boot || ok } else none
  | .task i e =>
      match s.tasks[i]? with
      | none => none
      | some t =>
          match s.taskStep owner repo t.phase e with
          | none => none
          | some (s', p) => some { s' with tasks := s.tasks.set i { t with phase := p } }
  | .restart => some .init

end Steps

/-! ## 3. One install at a time -/

/-- A task that the state `RUNNING` stands for. -/
def Task.busy (t : Task) : Bool :=
  match t.phase with
  | .restarting _ => false
  | .ended => false
  | _ => true

/-- A start that the state `RUNNING` stands for, and that is not yet a task. -/
def ServerPhase.starting : ServerPhase → Bool
  | .creating _ => true
  | .refusing => true
  | _ => false

/-- The URL a task was made with. -/
def Phase.url : Phase → Option (List UInt8)
  | .beginning url => some url
  | .performing url _ _ => some url
  | .received url => some url
  | .installed url => some url
  | .restarting url => some url
  | _ => none

/-- **Whoever is at work on a release is counted by the state `RUNNING`**, and has its version. -/
structure Exclusive (owner repo : List UInt8) (s : Installer) : Prop where
  count : s.tasks.countP Task.busy + s.server.starting.toNat =
    if s.ota.state = .running then 1 else 0
  version : ∀ t ∈ s.tasks, t.busy = true → t.version = s.ota.version
  created : ∀ v, s.server = .creating v → v = s.ota.version
  url : ∀ t ∈ s.tasks, ∀ u, t.phase.url = some u → u = assetUrl owner repo t.version

section Runs

variable {owner repo : List UInt8} {s s' : Installer}

theorem Exclusive.one (h : Exclusive owner repo s) :
    s.tasks.countP Task.busy ≤ 1 ∧ s.tasks.countP Task.busy + s.server.starting.toNat ≤ 1 := by
  have hcount := h.count
  split at hcount <;> omega

/-- A task at work leaves the server's task no start to make. -/
theorem Exclusive.alone (h : Exclusive owner repo s) {t : Task} (ht : t ∈ s.tasks)
    (hb : t.busy = true) : s.ota.state = .running ∧ s.server.starting = false := by
  have hpos : 0 < s.tasks.countP Task.busy := List.countP_pos_iff.mpr ⟨t, ht, hb⟩
  have hcount := h.count
  cases hs : s.server.starting with
  | true =>
      rw [hs, Bool.toNat_true] at hcount
      split at hcount <;> omega
  | false =>
      refine ⟨?_, rfl⟩
      by_contra hne
      rw [if_neg hne] at hcount
      omega

/-- **A stretch of `ota_task`**, where a task may be at work: what it changes of the rest. -/
structure TaskMoves (owner repo : List UInt8) (s s' : Installer) (p p' : Phase) : Prop where
  server : s'.server = s.server
  tasks : s'.tasks = s.tasks
  version : s'.ota.version = s.ota.version
  /-- It stays at work, or hands the state back. -/
  state :
    (∀ v, (Task.mk v p).busy = true ∧ (Task.mk v p').busy = true ∧ s'.ota.state = s.ota.state) ∨
    ∀ v, (Task.mk v p).busy = true ∧ (Task.mk v p').busy = false ∧ s'.ota.state ≠ .running
  url : ∀ u, p'.url = some u → p.url = some u ∨ u = assetUrl owner repo s.ota.version

theorem taskStep_moves {p p' : Phase} {e : TaskEv} (h : s.taskStep owner repo p e = some (s', p')) :
    TaskMoves owner repo s s' p p' := by
  cases p <;> cases e <;> try (cases h; done)
  case created.read =>
    obtain ⟨rfl, rfl⟩ := Prod.mk.inj (Option.some.inj h)
    exact ⟨rfl, rfl, rfl, .inl fun v => ⟨rfl, rfl, rfl⟩, fun u hu => .inr (Option.some.inj hu).symm⟩
  case beginning.begin url ok total =>
    obtain ⟨rfl, rfl⟩ := Prod.mk.inj (Option.some.inj h)
    cases ok <;> exact ⟨rfl, rfl, rfl, .inl fun v => ⟨rfl, rfl, rfl⟩, fun u hu => by
      first | exact .inl hu | cases hu⟩
  case performing.perform url total called res =>
    cases res with
    | inProgress done =>
        obtain ⟨rfl, rfl⟩ := Prod.mk.inj (Option.some.inj h)
        exact ⟨rfl, rfl, rfl, .inl fun v => ⟨rfl, rfl, rfl⟩, fun u hu => .inl hu⟩
    | ok complete =>
        obtain ⟨rfl, rfl⟩ := Prod.mk.inj (Option.some.inj h)
        cases complete <;> exact ⟨rfl, rfl, rfl, .inl fun v => ⟨rfl, rfl, rfl⟩, fun u hu => by
          first | exact .inl hu | cases hu⟩
    | invalid =>
        obtain ⟨rfl, rfl⟩ := Prod.mk.inj (Option.some.inj h)
        exact ⟨rfl, rfl, rfl, .inl fun v => ⟨rfl, rfl, rfl⟩, fun u hu => by cases hu⟩
    | error name =>
        obtain ⟨rfl, rfl⟩ := Prod.mk.inj (Option.some.inj h)
        exact ⟨rfl, rfl, rfl, .inl fun v => ⟨rfl, rfl, rfl⟩, fun u hu => by cases hu⟩
  case received.finish url res =>
    cases res <;> obtain ⟨rfl, rfl⟩ := Prod.mk.inj (Option.some.inj h) <;>
      exact ⟨rfl, rfl, rfl, .inl fun v => ⟨rfl, rfl, rfl⟩, fun u hu => by
        first | exact .inl hu | cases hu⟩
  case failing.fail why =>
    obtain ⟨rfl, rfl⟩ := Prod.mk.inj (Option.some.inj h)
    exact ⟨rfl, rfl, rfl, .inr fun v => ⟨rfl, rfl, fun hn => by cases hn⟩, fun u hu => by cases hu⟩
  case installed.report url =>
    obtain ⟨rfl, rfl⟩ := Prod.mk.inj (Option.some.inj h)
    exact ⟨rfl, rfl, rfl, .inr fun v => ⟨rfl, rfl, fun hn => by cases hn⟩, fun u hu => .inl hu⟩

theorem TaskMoves.busy {p p' : Phase} (h : TaskMoves owner repo s s' p p') (v : List UInt8) :
    (Task.mk v p).busy = true := by
  rcases h.state with hwork | hdone
  · exact (hwork v).1
  · exact (hdone v).1

theorem step_task {i : Nat} {e : TaskEv} (h : s.step owner repo (.task i e) = some s') :
    ∃ t s1 p, s.tasks[i]? = some t ∧ s.taskStep owner repo t.phase e = some (s1, p) ∧
      s' = { s1 with tasks := s.tasks.set i { t with phase := p } } := by
  simp only [Installer.step] at h
  split at h
  · cases h
  · rename_i t ht
    split at h
    · cases h
    · rename_i s1 p hs
      exact ⟨t, s1, p, ht, hs, (Option.some.inj h).symm⟩

/-- A step of the others leaves the tasks, and `G` as long as somebody is at work. -/
theorem exclusive_kept {g : OtaGh} {p : ServerPhase} {b : Bool}
    (h : Exclusive owner repo s) (hstate : g.state = s.ota.state)
    (hversion : g.version = s.ota.version)
    (hstart : p.starting = s.server.starting)
    (hcr : ∀ v, p = .creating v → s.server = .creating v) :
    Exclusive owner repo { s with ota := g, server := p, boot := b } := by
  refine ⟨?_, fun t ht hb => ?_, fun v hv => ?_, h.url⟩
  · show s.tasks.countP Task.busy + p.starting.toNat = if g.state = .running then 1 else 0
    rw [hstart, hstate]
    exact h.count
  · exact (h.version t ht hb).trans hversion.symm
  · exact (h.created v (hcr v hv)).trans hversion.symm

theorem exclusive_step (s : Installer) (e : InstallEv) (s' : Installer)
    (hI : Exclusive owner repo s)
    (h : s.step owner repo e = some s') : Exclusive owner repo s' := by
  have hbeside : ∀ (p : ServerPhase) (b : Bool), s.server.starting = false →
      p.starting = false → Exclusive owner repo { s with server := p, boot := b } :=
    fun p b hs hp => exclusive_kept hI rfl rfl (hp.trans hs.symm)
      fun v hv => by rw [hv] at hp; cases hp
  cases e with
  | start version mutexOk =>
      simp only [Installer.step] at h
      split at h
      · cases h
      rename_i hidle
      have hidle : s.server = .idle := not_not.mp hidle
      split at h
      · exact Option.some.inj h ▸ hI
      split at h
      · obtain rfl := Option.some.inj h
        exact exclusive_kept hI rfl rfl rfl fun v hv => hv
      · rename_i hfree
        obtain rfl := Option.some.inj h
        -- nobody is at work, so nobody has another version
        have hnone : s.tasks.countP Task.busy = 0 := by
          have hcount := hI.count
          rw [if_neg hfree, hidle] at hcount
          exact hcount
        refine ⟨?_, fun t ht hb => ?_, fun v hv => (ServerPhase.creating.inj hv).symm, hI.url⟩
        · show s.tasks.countP Task.busy + 1 = 1
          rw [hnone]
        · exact absurd hb (List.countP_eq_zero.mp hnone t ht)
  | create ok =>
      simp only [Installer.step] at h
      split at h
      · rename_i v hv
        have hcount := hI.count
        rw [hv] at hcount
        split at h
        · obtain rfl := Option.some.inj h
          refine ⟨?_, fun t ht hb => ?_, fun v hv => (by cases hv), fun t ht u hu => ?_⟩
          · show (s.tasks ++ [Task.mk v .created]).countP Task.busy + 0 = _
            rw [List.countP_append]
            exact hcount
          · rcases List.mem_append.mp ht with ht | ht
            · exact hI.version t ht hb
            · rw [List.mem_singleton.mp ht]
              exact hI.created v hv
          · rcases List.mem_append.mp ht with ht | ht
            · exact hI.url t ht u hu
            · rw [List.mem_singleton.mp ht] at hu
              cases hu
        · obtain rfl := Option.some.inj h
          exact exclusive_kept hI rfl rfl (by rw [hv]; rfl) fun v hv => by cases hv
      · cases h
  | refuse =>
      simp only [Installer.step] at h
      split at h
      · rename_i hv
        obtain rfl := Option.some.inj h
        have hnone : s.tasks.countP Task.busy = 0 := by
          have hone := hI.one.2
          rw [hv, show ServerPhase.refusing.starting.toNat = 1 from rfl] at hone
          omega
        refine ⟨?_, fun t ht hb => ?_, fun v hv => (by cases hv), hI.url⟩
        · show s.tasks.countP Task.busy + 0 = 0
          rw [hnone]
        · exact absurd hb (List.countP_eq_zero.mp hnone t ht)
      · cases h
  | uploadBegin ok =>
      simp only [Installer.step] at h
      split at h
      · cases h
      rename_i hidle
      obtain rfl := Option.some.inj h
      have hidle : s.server = .idle := not_not.mp hidle
      cases ok with
      | true => exact hbeside _ _ (by rw [hidle]; rfl) rfl
      | false => exact hI
  | uploadWrite =>
      simp only [Installer.step] at h
      split at h
      · exact Option.some.inj h ▸ hI
      · cases h
  | uploadAbort =>
      simp only [Installer.step] at h
      split at h
      · rename_i hr
        obtain rfl := Option.some.inj h
        exact hbeside _ _ (by rw [hr]; rfl) rfl
      · cases h
  | uploadEnd ok =>
      simp only [Installer.step] at h
      split at h
      · rename_i hr
        obtain rfl := Option.some.inj h
        cases ok <;> exact hbeside _ _ (by rw [hr]; rfl) rfl
      · cases h
  | uploadBoot ok =>
      simp only [Installer.step] at h
      split at h
      · rename_i hr
        obtain rfl := Option.some.inj h
        exact hbeside _ _ (by rw [hr]; rfl) rfl
      · cases h
  | task i e =>
      obtain ⟨t, s1, p, ht, hs, rfl⟩ := step_task h
      have hm := taskStep_moves hs
      have hmem := List.mem_of_getElem? ht
      have hbusy : t.busy = true := hm.busy t.version
      have hset : (s.tasks.set i { t with phase := p }).countP Task.busy + t.busy.toNat =
          s.tasks.countP Task.busy + (Task.mk t.version p).busy.toNat := Crew.count_set ht _
      refine ⟨?_, fun t' ht' hb => ?_, fun v hv => ?_, fun t' ht' u hu => ?_⟩
      · show (s.tasks.set i { t with phase := p }).countP Task.busy + s1.server.starting.toNat =
          if s1.ota.state = .running then 1 else 0
        rw [hm.server]
        rcases hm.state with hwork | hdone
        · obtain ⟨h0, h1, hst⟩ := hwork t.version
          rw [hst, ← hI.count]
          rw [show t.busy = true from h0, show (Task.mk t.version p).busy = true from h1] at hset
          omega
        · obtain ⟨h0, h1, hst⟩ := hdone t.version
          have hone := hI.one.2
          rw [if_neg hst]
          rw [show t.busy = true from h0, show (Task.mk t.version p).busy = false from h1] at hset
          simp only [Bool.toNat_true, Bool.toNat_false] at hset
          omega
      · show t'.version = s1.ota.version
        rw [hm.version]
        rcases List.mem_or_eq_of_mem_set ht' with hold | rfl
        · exact hI.version t' hold hb
        · exact hI.version t hmem hbusy
      · exact (hI.created v (hm.server ▸ hv)).trans hm.version.symm
      · rcases List.mem_or_eq_of_mem_set ht' with hold | rfl
        · exact hI.url t' hold u hu
        · rcases hm.url u hu with hsame | hnew
          · exact hI.url t hmem u hsame
          · rw [hnew]
            exact congrArg (assetUrl owner repo) (hI.version t hmem hbusy).symm
  | restart =>
      obtain rfl := Option.some.inj h
      exact ⟨rfl, fun t ht => absurd ht List.not_mem_nil, fun v hv => (by cases hv),
        fun t ht => absurd ht List.not_mem_nil⟩

theorem exclusive_init (owner repo : List UInt8) : Exclusive owner repo Installer.init :=
  ⟨rfl, fun t ht => absurd ht List.not_mem_nil, fun v hv => (by cases hv),
    fun t ht => absurd ht List.not_mem_nil⟩

/-- **One install at a time**, in any run: the starts not yet tasks and the tasks at work are one
    while the state is `RUNNING`, and none otherwise; they are for the version in `G`; and the URL
    of every task is that of the version its own start was given. -/
theorem one_install {es : List InstallEv}
    (h : StepMachine.run (Installer.step owner repo) Installer.init es = some s) :
    s.tasks.countP Task.busy + s.server.starting.toNat =
        (if s.ota.state = .running then 1 else 0) ∧
      (∀ t ∈ s.tasks, t.busy = true → t.version = s.ota.version) ∧
      ∀ t ∈ s.tasks, ∀ u, t.phase.url = some u → u = assetUrl owner repo t.version := by
  have hI : Exclusive owner repo s :=
    StepMachine.run_inv (Installer.step owner repo) exclusive_step (exclusive_init owner repo) h
  exact ⟨hI.count, hI.version, hI.url⟩

/-! The download of 0.3.0 goes to its end; then 0.4.0 is asked for in the delay before the
    restart. -/

def twoInstalls : List InstallEv :=
  [.start (ascii "0.3.0") true, .create true, .task 0 .read, .task 0 (.begin true 2000),
    .task 0 (.perform (.inProgress 1000)), .task 0 (.perform (.ok true)), .task 0 (.finish .ok),
    .task 0 .report, .start (ascii "0.4.0") true, .create true, .task 1 .read]

def twoInstallsEnd : Installer where
  ota := ⟨.running, -1, ascii "starting", ascii "0.4.0", true⟩
  tasks := [⟨ascii "0.3.0", .restarting (assetUrl (ascii "o") (ascii "r") (ascii "0.3.0"))⟩,
    ⟨ascii "0.4.0", .beginning (assetUrl (ascii "o") (ascii "r") (ascii "0.4.0"))⟩]
  server := .idle
  boot := true

theorem twoInstalls_run : StepMachine.run (Installer.step (ascii "o") (ascii "r")) Installer.init
    twoInstalls = some twoInstallsEnd := by decide +kernel

theorem one_install_two :
    twoInstallsEnd.tasks.countP Task.busy + twoInstallsEnd.server.starting.toNat =
        (if twoInstallsEnd.ota.state = .running then 1 else 0) ∧
      (∀ t ∈ twoInstallsEnd.tasks, t.busy = true → t.version = twoInstallsEnd.ota.version) ∧
      ∀ t ∈ twoInstallsEnd.tasks, ∀ u, t.phase.url = some u →
        u = assetUrl (ascii "o") (ascii "r") t.version :=
  one_install twoInstalls_run

end Runs

/-! ## 4. `ota_gh_start` -/

section Start

variable {κ : Type} {owner repo : List UInt8} {s : Installer}

/-- **`ota_gh_start` as the server has it**: these steps one after the other, where no task takes a
    step between them. -/
theorem otaGhStart_steps (o : Outside) (version : List UInt8) (sv : Server κ)
    (hota : s.ota = sv.ota) (hidle : s.server = .idle) :
    ∃ es s', StepMachine.run (Installer.step owner repo) s es = some s' ∧
      s'.ota = (otaGhStart o version sv).2.ota ∧ s'.server = .idle ∧
      s'.tasks = s.tasks ++
        if (otaGhStart o version sv).1 then [⟨fitBytes 16 version, .created⟩] else [] := by
  have hstart : s.step owner repo (.start version o.mutexOk) =
      if !sv.ota.lock && !o.mutexOk then some s
      else if sv.ota.state = .running then some { s with ota := { sv.ota with lock := true } }
      else some { s with
        ota := ghBegun sv.ota version, server := .creating (fitBytes 16 version) } := by
    rw [← hota]
    exact if_neg (not_not.mpr hidle)
  unfold otaGhStart
  split
  · rename_i hno
    refine ⟨[.start version o.mutexOk], s, ?_, hota, hidle, (List.append_nil _).symm⟩
    rw [StepMachine.run_cons, hstart, if_pos hno]
    rfl
  rename_i hlock
  rw [if_neg hlock] at hstart
  dsimp only
  split
  · rename_i hrun
    refine ⟨[.start version o.mutexOk], { s with ota := { sv.ota with lock := true } }, ?_, rfl,
      hidle, (List.append_nil _).symm⟩
    rw [StepMachine.run_cons, hstart, if_pos hrun]
    rfl
  rename_i hfree
  rw [if_neg hfree] at hstart
  split
  · rename_i htask
    refine ⟨[.start version o.mutexOk, .create false, .refuse],
      { s with ota := (ghBegun sv.ota version).setFail "could not start the update task",
               server := .idle }, ?_, rfl, rfl, (List.append_nil _).symm⟩
    rw [StepMachine.run_cons, hstart]
    rfl
  · refine ⟨[.start version o.mutexOk, .create true],
      { s with ota := ghBegun sv.ota version, server := .idle,
               tasks := s.tasks ++ [⟨fitBytes 16 version, .created⟩] }, ?_, rfl, rfl, rfl⟩
    rw [StepMachine.run_cons, hstart]
    rfl

end Start

end NutBluetti.Ota
