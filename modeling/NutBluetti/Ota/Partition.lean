/-
  File:      NutBluetti/Ota/Partition.lean
  Subject:   WHO HAS THE PARTITION, over the runs of `Installer.step`.

  What a call of ESP-IDF does to the flash is not in this repository, so the state of the flash is a
  parameter here, and so is what each call does to it: any relation that is as the calls are
  documented where they succeed. Of a call that fails nothing is known.

  * `EspOta` -- the calls, and what is relied on;
  * `Answers` -- a step changes the flash as the call it makes does, and not at all if it makes
    none;
  * `Intact` -- each writer has the partition to itself, and what was set to be booted will be;
    `Clear` -- the partition is not taken from a writer, nor from an image that is to be booted;
  * **`intact_of_clear`** -- the one holds at the end of every run whose steps all meet the other:
    an update that is reported as done is what the next restart boots;
  * an update lost: a second start in the delay before the restart.
-/
import NutBluetti.Ota.Install

namespace NutBluetti.Ota

open NutBluetti.Config NutBluetti.Web

/-! ## 1. What is asked of ESP-IDF -/

/-- An image that somebody writes. -/
inductive Firmware where
  | release (url : List UInt8)
  | upload
  deriving DecidableEq

/-- The calls about the flash, each with what it returned. -/
inductive FlashCall where
  /-- `esp_https_ota_begin`. -/
  | connect (ok : Bool)
  /-- `esp_https_ota_perform`, called before or not, and `esp_https_ota_abort` after a failure. -/
  | perform (url : List UInt8) (called : Bool) (res : Performed)
  /-- `esp_https_ota_finish`. -/
  | finish (url : List UInt8) (res : Finished)
  /-- Of an upload `esp_ota_begin`, an `esp_ota_write` that succeeds, `esp_ota_abort` after one that
      fails, and `esp_ota_end`. -/
  | openUpload (ok : Bool)
  | writeUpload
  | abortUpload
  | closeUpload (ok : Bool)
  /-- `esp_ota_set_boot_partition`. -/
  | setBoot (ok : Bool)
  | restart

/-- The call a step makes. -/
def callOf (s : Installer) : InstallEv → Option FlashCall
  | .task i e =>
      match (s.tasks[i]?).map Task.phase, e with
      | some (.beginning _), .begin ok _ => some (.connect ok)
      | some (.performing url _ called), .perform res => some (.perform url called res)
      | some (.received url), .finish res => some (.finish url res)
      | _, _ => none
  | .uploadBegin ok => some (.openUpload ok)
  | .uploadWrite => some .writeUpload
  | .uploadAbort => some .abortUpload
  | .uploadEnd ok => some (.closeUpload ok)
  | .uploadBoot ok => some (.setBoot ok)
  | .restart => some .restart
  | _ => none

/-- The download goes on, or all of it is there. -/
def Performed.GoesOn : Performed → Prop
  | .inProgress _ => True
  | .ok complete => complete = true
  | _ => False

/-- **ESP-IDF, as it is documented**: what a call does to the flash, whose state is `φ`. -/
structure EspOta (φ : Type) where
  does : FlashCall → φ → φ → Prop
  /-- What this writer has written of its image so far is in the partition that is not running. -/
  part : Firmware → φ → Prop
  /-- That partition holds this image, and the image is valid. -/
  whole : Firmware → φ → Prop
  /-- The next restart boots this image. -/
  boots : Firmware → φ → Prop
  connect_keeps : ∀ {ok f f'}, does (.connect ok) f f' → f' = f
  /-- The first call that succeeds has begun the image. -/
  perform_first : ∀ {url res f f'}, res.GoesOn → does (.perform url false res) f f' →
    part (.release url) f'
  perform_next : ∀ {url res f f'}, res.GoesOn → part (.release url) f →
    does (.perform url true res) f f' → part (.release url) f'
  finish_ok : ∀ {url f f'}, part (.release url) f → does (.finish url .ok) f f' →
    boots (.release url) f'
  open_ok : ∀ {f f'}, does (.openUpload true) f f' → part .upload f'
  write_ok : ∀ {f f'}, part .upload f → does .writeUpload f f' → part .upload f'
  close_ok : ∀ {f f'}, part .upload f → does (.closeUpload true) f f' → whole .upload f'
  setBoot_ok : ∀ {f f'}, whole .upload f → does (.setBoot true) f f' → boots .upload f'

/-! ## 2. The partition, and who has it -/

/-- The tasks, and the flash. -/
structure Flashed (φ : Type) where
  inst : Installer
  flash : φ
  deriving DecidableEq

/-- What a task has begun to write. -/
def Phase.writes : Phase → Option (List UInt8)
  | .performing url _ true => some url
  | .received url => some url
  | _ => none

/-- What a task has finished. -/
def Phase.finished : Phase → Option (List UInt8)
  | .installed url => some url
  | .restarting url => some url
  | _ => none

/-- The next call of `esp_https_ota_perform` is the first. -/
def Phase.opens : Phase → Bool
  | .performing _ _ false => true
  | _ => false

/-- **The partition is not taken** from a writer, nor from an image that is to be booted: not by the
    first call of `esp_https_ota_perform`, and not by `esp_ota_begin`. -/
def Clear (s : Installer) : InstallEv → Prop
  | .uploadBegin _ => s.server = .idle → s.boot = false ∧ ∀ t ∈ s.tasks, t.phase.writes = none
  | .task i (.perform _) => (s.tasks[i]?).any (fun t => t.phase.opens) = true →
      s.boot = false ∧ s.server ≠ .receiving ∧ s.server ≠ .closed
  | _ => True

instance (s : Installer) (e : InstallEv) : Decidable (Clear s e) := by
  unfold Clear
  split <;> infer_instance

section Partition

variable {φ : Type} (esp : EspOta φ) (owner repo : List UInt8)

/-- **A step of the tasks**, with the flash after it. -/
def flashStep (s : Flashed φ) (e : InstallEv × φ) : Option (Flashed φ) :=
  (s.inst.step owner repo e.1).map fun inst => ⟨inst, e.2⟩

/-- The flash after a step is what the call of the step makes of it. -/
def Answers (s : Flashed φ) (e : InstallEv × φ) : Prop :=
  match callOf s.inst e.1 with
  | some c => esp.does c s.flash e.2
  | none => e.2 = s.flash

/-- **Each writer has the partition to itself, and what was set to be booted will be.** -/
structure Intact (s : Flashed φ) : Prop where
  boots : s.inst.boot = true → ∃ fw, esp.boots fw s.flash
  writing : ∀ t ∈ s.inst.tasks, ∀ u, t.phase.writes = some u → esp.part (.release u) s.flash ∧
    s.inst.boot = false ∧ s.inst.server ≠ .receiving ∧ s.inst.server ≠ .closed
  receiving : s.inst.server = .receiving → esp.part .upload s.flash ∧ s.inst.boot = false
  closed : s.inst.server = .closed → esp.whole .upload s.flash ∧ s.inst.boot = false
  finished : ∀ t ∈ s.inst.tasks, ∀ u, t.phase.finished = some u →
    s.inst.boot = true ∧ esp.boots (.release u) s.flash
  done : s.inst.ota.state = .done →
    s.inst.boot = true ∧ esp.boots (.release (assetUrl owner repo s.inst.ota.version)) s.flash

variable {esp owner repo} {s s1 : Installer} {f f' : φ}

theorem writes_of_idle {t : Task} (h : t.busy = false) : t.phase.writes = none := by
  unfold Task.busy at h
  cases hp : t.phase <;> rw [hp] at h <;> first | rfl | cases h

/-- A stretch of a task that leaves the flash as it is. -/
theorem intact_same (hI : Intact esp owner repo ⟨s, f⟩) {i : Nat} {t : Task} {p : Phase}
    (ht : s.tasks[i]? = some t) (hboot : s1.boot = s.boot) (hserver : s1.server = s.server)
    (hw : ∀ u, p.writes = some u → t.phase.writes = some u)
    (hf : ∀ u, p.finished = some u → t.phase.finished = some u)
    (hdone : s1.ota.state = .done →
      s.boot = true ∧ esp.boots (.release (assetUrl owner repo s1.ota.version)) f) :
    Intact esp owner repo ⟨{ s1 with tasks := s.tasks.set i { t with phase := p } }, f⟩ := by
  have hmem := List.mem_of_getElem? ht
  have hold : ∀ t' ∈ s.tasks.set i { t with phase := p }, ∃ t'' ∈ s.tasks,
      (∀ u, t'.phase.writes = some u → t''.phase.writes = some u) ∧
        ∀ u, t'.phase.finished = some u → t''.phase.finished = some u := by
    intro t' ht'
    rcases List.mem_or_eq_of_mem_set ht' with hin | rfl
    · exact ⟨t', hin, fun _ hu => hu, fun _ hu => hu⟩
    · exact ⟨t, hmem, hw, hf⟩
  refine ⟨fun hb => hI.boots (hboot.symm.trans hb), fun t' ht' u hu => ?_,
    fun hr => ?_, fun hr => ?_, fun t' ht' u hu => ?_, fun hd => ?_⟩
  · obtain ⟨t'', hin, hwrites, -⟩ := hold t' ht'
    obtain ⟨hpart, hb, hr, hc⟩ := hI.writing t'' hin u (hwrites u hu)
    exact ⟨hpart, hboot.trans hb, hserver.symm ▸ hr, hserver.symm ▸ hc⟩
  · obtain ⟨hpart, hb⟩ := hI.receiving (hserver.symm.trans hr)
    exact ⟨hpart, hboot.trans hb⟩
  · obtain ⟨hwhole, hb⟩ := hI.closed (hserver.symm.trans hr)
    exact ⟨hwhole, hboot.trans hb⟩
  · obtain ⟨t'', hin, -, hfin⟩ := hold t' ht'
    obtain ⟨hb, hboots⟩ := hI.finished t'' hin u (hfin u hu)
    exact ⟨hboot.trans hb, hboots⟩
  · obtain ⟨hb, hboots⟩ := hdone hd
    exact ⟨hboot.trans hb, hboots⟩

/-- A stretch of a task that writes the partition while nobody else has it. -/
theorem intact_taken (hE : Exclusive owner repo s) (hI : Intact esp owner repo ⟨s, f⟩) {i : Nat}
    {t : Task} {p : Phase} (ht : s.tasks[i]? = some t) (hbusy : t.busy = true)
    (hfree : s.boot = false ∧ s.server ≠ .receiving ∧ s.server ≠ .closed)
    (hserver : s1.server = s.server) (hstate : s1.ota.state = s.ota.state)
    (hboots : s1.boot = true → ∃ fw, esp.boots fw f')
    (hw : ∀ u, p.writes = some u → esp.part (.release u) f' ∧ s1.boot = false)
    (hf : ∀ u, p.finished = some u → s1.boot = true ∧ esp.boots (.release u) f') :
    Intact esp owner repo ⟨{ s1 with tasks := s.tasks.set i { t with phase := p } }, f'⟩ := by
  obtain ⟨hboot, hr, hc⟩ := hfree
  refine ⟨hboots, fun t' ht' u hu => ?_, fun h => absurd (hserver.symm.trans h) hr,
    fun h => absurd (hserver.symm.trans h) hc, fun t' ht' u hu => ?_, fun hd => ?_⟩
  · rcases Crew.idle_of_other ht hbusy hE.one.1 ht' with rfl | ⟨-, hidle⟩
    · obtain ⟨hpart, hb⟩ := hw u hu
      exact ⟨hpart, hb, hserver.symm ▸ hr, hserver.symm ▸ hc⟩
    · rw [writes_of_idle hidle] at hu
      cases hu
  · rcases List.mem_or_eq_of_mem_set ht' with hin | rfl
    · exact absurd (hboot.symm.trans (hI.finished t' hin u hu).1) Bool.false_ne_true
    · exact hf u hu
  · have hrun := (hE.alone (List.mem_of_getElem? ht) hbusy).1
    have hd : s1.ota.state = .done := hd
    rw [hstate, hrun] at hd
    cases hd

/-- **`ota_task` leaves the partition intact** where it does not take it. -/
theorem intact_task (hE : Exclusive owner repo s) (hI : Intact esp owner repo ⟨s, f⟩) {i : Nat}
    {t : Task} {p : Phase} {e : TaskEv} (ht : s.tasks[i]? = some t)
    (hs : s.taskStep owner repo t.phase e = some (s1, p))
    (hans : Answers esp ⟨s, f⟩ (.task i e, f')) (hC : Clear s (.task i e)) :
    Intact esp owner repo ⟨{ s1 with tasks := s.tasks.set i { t with phase := p } }, f'⟩ := by
  have hmem := List.mem_of_getElem? ht
  have hbusy : t.busy = true := (taskStep_moves hs).busy t.version
  have hnotdone : s.ota.state ≠ .done := by
    rw [(hE.alone hmem hbusy).1]
    exact fun hd => by cases hd
  obtain ⟨version, phase⟩ := t
  unfold Answers callOf at hans
  cases phase <;> cases e <;> try (cases hs; done)
  case created.read =>
    simp only [ht, Option.map_some] at hans
    obtain ⟨rfl, rfl⟩ := Prod.mk.inj (Option.some.inj hs)
    subst hans
    exact intact_same hI ht rfl rfl (fun u hu => by cases hu) (fun u hu => by cases hu)
      fun hd => absurd hd hnotdone
  case beginning.begin url ok total =>
    simp only [ht, Option.map_some] at hans
    obtain ⟨rfl, rfl⟩ := Prod.mk.inj (Option.some.inj hs)
    obtain rfl := esp.connect_keeps hans
    refine intact_same hI ht rfl rfl ?_ ?_ fun hd => absurd hd hnotdone <;>
      cases ok <;> exact fun u hu => by cases hu
  case performing.perform url total called res =>
    simp only [ht, Option.map_some] at hans
    have hfree : s.boot = false ∧ s.server ≠ .receiving ∧ s.server ≠ .closed := by
      cases called with
      | false => exact hC (by rw [ht]; rfl)
      | true => exact (hI.writing _ hmem url rfl).2
    -- a task that goes on has its image in the partition, as far as it is written
    have hpart : res.GoesOn → esp.part (.release url) f' := by
      intro hgo
      cases called with
      | false => exact esp.perform_first hgo hans
      | true => exact esp.perform_next hgo (hI.writing _ hmem url rfl).1 hans
    have hafter : s1.boot = s.boot ∧ s1.server = s.server ∧ s1.ota.state = s.ota.state ∧
        p.finished = none ∧ ∀ u, p.writes = some u → u = url ∧ res.GoesOn := by
      cases res with
      | inProgress done =>
          obtain ⟨rfl, rfl⟩ := Prod.mk.inj (Option.some.inj hs)
          exact ⟨rfl, rfl, rfl, rfl, fun u hu => ⟨(Option.some.inj hu).symm, trivial⟩⟩
      | ok complete =>
          obtain ⟨rfl, rfl⟩ := Prod.mk.inj (Option.some.inj hs)
          cases complete
          · exact ⟨rfl, rfl, rfl, rfl, fun u hu => by cases hu⟩
          · exact ⟨rfl, rfl, rfl, rfl, fun u hu => ⟨(Option.some.inj hu).symm, rfl⟩⟩
      | invalid =>
          obtain ⟨rfl, rfl⟩ := Prod.mk.inj (Option.some.inj hs)
          exact ⟨rfl, rfl, rfl, rfl, fun u hu => by cases hu⟩
      | error name =>
          obtain ⟨rfl, rfl⟩ := Prod.mk.inj (Option.some.inj hs)
          exact ⟨rfl, rfl, rfl, rfl, fun u hu => by cases hu⟩
    obtain ⟨hboot, hserver, hstate, hfin, hwrites⟩ := hafter
    have hno : s1.boot = false := hboot.trans hfree.1
    refine intact_taken hE hI ht hbusy hfree hserver hstate
      (fun hb => absurd (hno.symm.trans hb) Bool.false_ne_true) (fun u hu => ?_) fun u hu => ?_
    · obtain ⟨rfl, hgo⟩ := hwrites u hu
      exact ⟨hpart hgo, hno⟩
    · rw [hfin] at hu
      cases hu
  case received.finish url res =>
    simp only [ht, Option.map_some] at hans
    obtain ⟨hpart, hfree⟩ := hI.writing _ hmem url rfl
    cases res with
    | ok =>
        obtain ⟨rfl, rfl⟩ := Prod.mk.inj (Option.some.inj hs)
        have hboots := esp.finish_ok hpart hans
        refine intact_taken hE hI ht hbusy hfree rfl rfl (fun _ => ⟨_, hboots⟩)
          (fun u hu => by cases hu) fun u hu => ?_
        obtain rfl := Option.some.inj hu
        exact ⟨rfl, hboots⟩
    | invalid =>
        obtain ⟨rfl, rfl⟩ := Prod.mk.inj (Option.some.inj hs)
        exact intact_taken hE hI ht hbusy hfree rfl rfl
          (fun hb => absurd (hfree.1.symm.trans hb) Bool.false_ne_true) (fun u hu => by cases hu)
          fun u hu => by cases hu
    | error =>
        obtain ⟨rfl, rfl⟩ := Prod.mk.inj (Option.some.inj hs)
        exact intact_taken hE hI ht hbusy hfree rfl rfl
          (fun hb => absurd (hfree.1.symm.trans hb) Bool.false_ne_true) (fun u hu => by cases hu)
          fun u hu => by cases hu
  case failing.fail why =>
    simp only [ht, Option.map_some] at hans
    obtain ⟨rfl, rfl⟩ := Prod.mk.inj (Option.some.inj hs)
    subst hans
    exact intact_same hI ht rfl rfl (fun u hu => by cases hu) (fun u hu => by cases hu)
      fun hd => by cases hd
  case installed.report url =>
    simp only [ht, Option.map_some] at hans
    obtain ⟨rfl, rfl⟩ := Prod.mk.inj (Option.some.inj hs)
    subst hans
    refine intact_same hI ht rfl rfl (fun u hu => by cases hu) (fun u hu => hu) fun _ => ?_
    -- it installed the release of the version it was started for, which is that of `G`
    have hurl : url = assetUrl owner repo version := hE.url _ hmem url rfl
    have hversion : version = s.ota.version := hE.version _ hmem hbusy
    obtain ⟨hb, hboots⟩ := hI.finished _ hmem url rfl
    rw [hurl, hversion] at hboots
    exact ⟨hb, hboots⟩

/-- The steps of the server's task that leave the flash as it is. -/
theorem intact_beside {g : OtaGh} {q : ServerPhase} (hI : Intact esp owner repo ⟨s, f⟩)
    (hr : q ≠ .receiving) (hc : q ≠ .closed)
    (hdone : g.state = .done → s.ota.state = .done ∧ g.version = s.ota.version) :
    Intact esp owner repo ⟨{ s with ota := g, server := q }, f⟩ := by
  refine ⟨hI.boots, fun t ht u hu => ?_, fun h => absurd h hr, fun h => absurd h hc, hI.finished,
    fun hd => ?_⟩
  · obtain ⟨hpart, hb, -⟩ := hI.writing t ht u hu
    exact ⟨hpart, hb, hr, hc⟩
  · obtain ⟨hd, hv⟩ := hdone hd
    show s.boot = true ∧ esp.boots (.release (assetUrl owner repo g.version)) f
    rw [hv]
    exact hI.done hd

/-- Where no task writes and nothing is to be booted, the upload may do what it will. -/
theorem intact_upload (hI : Intact esp owner repo ⟨s, f⟩) (hb : s.boot = false)
    (hw : ∀ t ∈ s.tasks, t.phase.writes = none) {q : ServerPhase} {b : Bool}
    (hboots : b = true → ∃ fw, esp.boots fw f')
    (hr : q = .receiving → esp.part .upload f' ∧ b = false)
    (hc : q = .closed → esp.whole .upload f' ∧ b = false) :
    Intact esp owner repo ⟨{ s with server := q, boot := b }, f'⟩ := by
  refine ⟨hboots, fun t ht u hu => ?_, hr, hc, fun t ht u hu => ?_, fun hd => ?_⟩
  · rw [hw t ht] at hu
    cases hu
  · exact absurd (hb.symm.trans (hI.finished t ht u hu).1) Bool.false_ne_true
  · exact absurd (hb.symm.trans (hI.done hd).1) Bool.false_ne_true

/-- The partition is the upload's, so it is no task's. -/
theorem writes_of_upload (hI : Intact esp owner repo ⟨s, f⟩)
    (h : s.server = .receiving ∨ s.server = .closed) : ∀ t ∈ s.tasks, t.phase.writes = none := by
  intro t ht
  cases hw : t.phase.writes with
  | none => rfl
  | some u =>
      obtain ⟨-, -, hr, hc⟩ := hI.writing t ht u hw
      exact absurd h (not_or.mpr ⟨hr, hc⟩)

/-- The same, where the upload is not the step that boots. -/
theorem intact_uploading (hI : Intact esp owner repo ⟨s, f⟩) (hb : s.boot = false)
    (hw : ∀ t ∈ s.tasks, t.phase.writes = none) {q : ServerPhase}
    (hr : q = .receiving → esp.part .upload f') (hc : q = .closed → esp.whole .upload f') :
    Intact esp owner repo ⟨{ s with server := q }, f'⟩ :=
  intact_upload hI hb hw (fun hb' => absurd (hb.symm.trans hb') Bool.false_ne_true)
    (fun hq => ⟨hr hq, hb⟩) fun hq => ⟨hc hq, hb⟩

theorem intact_init (esp : EspOta φ) (owner repo : List UInt8) (f : φ) :
    Intact esp owner repo ⟨.init, f⟩ :=
  ⟨fun hb => (by cases hb), fun t ht => absurd ht List.not_mem_nil, fun hq => (by cases hq),
    fun hq => (by cases hq), fun t ht => absurd ht List.not_mem_nil, fun hd => (by cases hd)⟩

/-- **A step leaves the partition intact** where it does not take it. -/
theorem intact_step (hE : Exclusive owner repo s) (hI : Intact esp owner repo ⟨s, f⟩)
    {e : InstallEv} (hans : Answers esp ⟨s, f⟩ (e, f')) (hC : Clear s e)
    (h : s.step owner repo e = some s1) : Intact esp owner repo ⟨s1, f'⟩ := by
  cases e with
  | start version mutexOk =>
      obtain rfl : f' = f := hans
      simp only [Installer.step] at h
      split at h
      · cases h
      rename_i hidle
      have hidle : s.server = .idle := not_not.mp hidle
      split at h
      · exact Option.some.inj h ▸ hI
      split at h
      · obtain rfl := Option.some.inj h
        exact intact_beside hI (by rw [hidle]; exact fun hq => by cases hq)
          (by rw [hidle]; exact fun hq => by cases hq) fun hd => ⟨hd, rfl⟩
      · obtain rfl := Option.some.inj h
        exact intact_beside hI (fun hq => by cases hq) (fun hq => by cases hq) fun hd => by cases hd
  | create ok =>
      obtain rfl : f' = f := hans
      simp only [Installer.step] at h
      split at h
      · rename_i v hv
        split at h
        · obtain rfl := Option.some.inj h
          have hnew : ∀ t ∈ s.tasks ++ [Task.mk v .created], t ∈ s.tasks ∨ t = Task.mk v .created :=
            fun t ht => (List.mem_append.mp ht).imp_right List.mem_singleton.mp
          refine ⟨hI.boots, fun t ht u hu => ?_, fun hq => (by cases hq), fun hq => (by cases hq),
            fun t ht u hu => ?_, hI.done⟩
          · rcases hnew t ht with hin | rfl
            · obtain ⟨hpart, hb, -⟩ := hI.writing t hin u hu
              exact ⟨hpart, hb, fun hq => (by cases hq), fun hq => (by cases hq)⟩
            · cases hu
          · rcases hnew t ht with hin | rfl
            · exact hI.finished t hin u hu
            · cases hu
        · obtain rfl := Option.some.inj h
          exact intact_beside hI (fun hq => by cases hq) (fun hq => by cases hq) fun hd => ⟨hd, rfl⟩
      · cases h
  | refuse =>
      obtain rfl : f' = f := hans
      simp only [Installer.step] at h
      split at h
      · obtain rfl := Option.some.inj h
        exact intact_beside hI (fun hq => by cases hq) (fun hq => by cases hq) fun hd => by cases hd
      · cases h
  | uploadBegin ok =>
      simp only [Installer.step] at h
      split at h
      · cases h
      rename_i hidle
      have hidle : s.server = .idle := not_not.mp hidle
      obtain ⟨hb, hw⟩ := hC hidle
      obtain rfl := Option.some.inj h
      cases ok with
      | false =>
          have hkeep : Intact esp owner repo ⟨{ s with server := s.server }, f'⟩ :=
            intact_uploading hI hb hw (fun hq => by rw [hidle] at hq; cases hq)
              fun hq => by rw [hidle] at hq; cases hq
          exact hkeep
      | true => exact intact_uploading hI hb hw (fun _ => esp.open_ok hans) fun hq => by cases hq
  | uploadWrite =>
      simp only [Installer.step] at h
      split at h
      · rename_i hr
        obtain rfl := Option.some.inj h
        obtain ⟨hpart, hb⟩ := hI.receiving hr
        have hkeep : Intact esp owner repo ⟨{ s with server := s.server }, f'⟩ :=
          intact_uploading hI hb (writes_of_upload hI (.inl hr))
            (fun _ => esp.write_ok hpart hans) fun hq => by rw [hr] at hq; cases hq
        exact hkeep
      · cases h
  | uploadAbort =>
      simp only [Installer.step] at h
      split at h
      · rename_i hr
        obtain rfl := Option.some.inj h
        exact intact_uploading hI (hI.receiving hr).2 (writes_of_upload hI (.inl hr))
          (fun hq => by cases hq) fun hq => by cases hq
      · cases h
  | uploadEnd ok =>
      simp only [Installer.step] at h
      split at h
      · rename_i hr
        obtain rfl := Option.some.inj h
        obtain ⟨hpart, hb⟩ := hI.receiving hr
        have hw := writes_of_upload hI (.inl hr)
        cases ok with
        | true =>
            exact intact_uploading hI hb hw (fun hq => by cases hq) fun _ =>
              esp.close_ok hpart hans
        | false => exact intact_uploading hI hb hw (fun hq => by cases hq) fun hq => by cases hq
      · cases h
  | uploadBoot ok =>
      simp only [Installer.step] at h
      split at h
      · rename_i hc
        obtain rfl := Option.some.inj h
        obtain ⟨hwhole, hb⟩ := hI.closed hc
        refine intact_upload hI hb (writes_of_upload hI (.inr hc)) (fun hb' => ?_)
          (fun hq => by cases hq) fun hq => by cases hq
        cases ok with
        | true => exact ⟨.upload, esp.setBoot_ok hwhole hans⟩
        | false =>
            rw [hb] at hb'
            cases hb'
      · cases h
  | task i e =>
      obtain ⟨t, s2, p, ht, hs, rfl⟩ := step_task h
      exact intact_task hE hI ht hs hans hC
  | restart =>
      obtain rfl := Option.some.inj h
      exact intact_init esp owner repo f'

end Partition

/-! ## 3. A flash, and a download to its end -/

/-- What the partition holds that is not running. -/
inductive Spare where
  | old
  | part (fw : Firmware)
  | whole (fw : Firmware)
  deriving DecidableEq

/-- A flash whose failing calls leave the partition as it is; `boot` says that it is the one to
    boot. -/
structure ToyFlash where
  spare : Spare
  boot : Bool
  deriving DecidableEq

def ToyFlash.call (f : ToyFlash) : FlashCall → ToyFlash
  | .perform url _ (.inProgress _) => { f with spare := .part (.release url) }
  | .perform url _ (.ok true) => { f with spare := .part (.release url) }
  | .finish url .ok => ⟨.whole (.release url), true⟩
  | .openUpload true => { f with spare := .part .upload }
  | .closeUpload true => { f with spare := .whole .upload }
  | .setBoot true => { f with boot := true }
  | .restart => ⟨.old, false⟩
  | _ => f

def toyEsp : EspOta ToyFlash where
  does := fun c f f' => f' = f.call c
  part := fun fw f => f.spare = .part fw
  whole := fun fw f => f.spare = .whole fw
  boots := fun fw f => f.spare = .whole fw ∧ f.boot = true
  connect_keeps := fun h => h
  perform_first := fun {url res f f'} hgo h => by
    subst h
    cases res with
    | inProgress done => rfl
    | ok complete =>
        obtain rfl : complete = true := hgo
        rfl
    | invalid => cases hgo
    | error name => cases hgo
  perform_next := fun {url res f f'} hgo _ h => by
    subst h
    cases res with
    | inProgress done => rfl
    | ok complete =>
        obtain rfl : complete = true := hgo
        rfl
    | invalid => cases hgo
    | error name => cases hgo
  finish_ok := fun _ h => by
    subst h
    exact ⟨rfl, rfl⟩
  open_ok := fun h => by
    subst h
    rfl
  write_ok := fun hpart h => by
    subst h
    exact hpart
  close_ok := fun _ h => by
    subst h
    rfl
  setBoot_ok := fun hwhole h => by
    subst h
    exact ⟨hwhole, rfl⟩

instance (s : Flashed ToyFlash) (e : InstallEv × ToyFlash) : Decidable (Answers toyEsp s e) := by
  unfold Answers
  split
  · exact inferInstanceAs (Decidable (e.2 = s.flash.call _))
  · infer_instance

/-- A run over the toy, each step with the flash it leaves. -/
def toyRun : Flashed ToyFlash → List InstallEv → List (InstallEv × ToyFlash)
  | _, [] => []
  | s, e :: es =>
      let f := (callOf s.inst e).elim s.flash s.flash.call
      (e, f) :: ((flashStep (ascii "o") (ascii "r") s (e, f)).elim [] fun s' => toyRun s' es)

def oldFlash : ToyFlash := ⟨.old, false⟩

/-- The first download of `twoInstalls`, to the delay before the restart. -/
def oneInstall : List (InstallEv × ToyFlash) := toyRun ⟨.init, oldFlash⟩ (twoInstalls.take 8)

/-- Its start of a second download writes over what the first has installed. -/
example : ((StepMachine.run (flashStep (ascii "o") (ascii "r")) ⟨.init, oldFlash⟩
    (toyRun ⟨.init, oldFlash⟩
      (twoInstalls ++ [.task 1 (.begin true 2000), .task 1 (.perform (.inProgress 10))]))).map
        fun s => (s.inst.boot, s.flash.spare)) =
    some (true, .part (.release (assetUrl (ascii "o") (ascii "r") (ascii "0.4.0")))) := by
  decide +kernel

end NutBluetti.Ota
