/-
  File:      NutBluetti/Pve/EngineOff.lean
  Subject:   SWITCHING THE FEATURE OFF, as a property of two runs: what the engine reports after a
             call with `enabled` false, against what a zeroed engine with freshly synced guest
             states reports at the same calls.

  * `runListed`, `listedInv_run` -- the engines edits and calls reach, with the lists they are
    synced to, and what holds of them;
  * `guestFires_due_iff`, `guestLatched_on_iff` -- a guest's firing and its latch over one call;
  * `SameView` -- two engines no call tells apart: running clocks, latches, `fired_now`;
  * **`SameView.evalCall`** -- one call keeps that, and reports the same of both;
  * **`off_forgets_iff`** -- after the call with the feature off no continuation tells the two
    engines apart exactly when no host and no guest was latched: the clocks are all that is
    forgotten.
-/
import NutBluetti.Pve.FiringReports

namespace NutBluetti.Pve

open CText KeyedList StepMachine

/-! ## 1. A guest over one call -/

section Guest

variable {st : PveEngine} {c : EvalCall} {i : HostIx} {id : Int}

/-- An entry with `fired_now` stands in the state, for guest `id` of host `i`. -/
def FiredNow (st : PveEngine) (i : HostIx) (id : Int) : Prop :=
  ∃ gs ∈ st.guests i, gs.id = id ∧ gs.firedNow = true

theorem GuestLatched.mem_ids (h : GuestLatched st i id) :
    id ∈ (st.guests i).map GuestEngine.id := by
  obtain ⟨gs, hgs, -⟩ := h
  exact exists_lookup_iff.mp ⟨gs, hgs⟩

/-- **When a guest fires**: it has an entry, its latch is open and it is due. -/
theorem guestFires_due_iff (h : c.cfg.enabled = true) :
    GuestFires st c i id ↔ id ∈ (st.guests i).map GuestEngine.id ∧ ¬ GuestLatched st i id ∧
      GuestDue st c i id := by
  rw [guestFires_iff h]
  constructor
  · intro hc
    have hmem : id ∈ (st.guests i).map GuestEngine.id := by
      rw [← map_id_evalCall st c i]
      exact hc.2.mem_ids
    obtain ⟨a, ha⟩ := exists_lookup_iff.mpr hmem
    obtain ⟨gs, hgs, hfired⟩ := hc.2
    obtain ⟨r, hr, ⟨rfl, -⟩ | ⟨-, hdue, -⟩⟩ := evalCall_guest (c := c) h ha
    · obtain rfl := Option.some.inj (hgs.symm.trans hr)
      rw [refreshEntry_fired, Bool.and_eq_true] at hfired
      exact absurd ⟨a, ha, hfired.1⟩ hc.1
    · exact ⟨hmem, hc.1, hdue⟩
  · rintro ⟨hmem, hopen, hdue⟩
    obtain ⟨a, ha⟩ := exists_lookup_iff.mpr hmem
    have hafired : a.fired = false := by
      by_contra hne
      exact hopen ⟨a, ha, by simpa using hne⟩
    obtain ⟨r, hr, ⟨-, hno⟩ | ⟨-, -, text, -, rfl⟩⟩ := evalCall_guest (c := c) h ha
    · exact absurd ⟨hafired, hdue⟩ hno
    · exact ⟨hopen, _, hr, rfl⟩

/-- **The latch of a guest over one call**: it stays closed unless the call releases, and closes
    when the guest fires. -/
theorem guestLatched_on_iff (h : c.cfg.enabled = true) :
    GuestLatched (evalCall st c).1 i id ↔
      (GuestLatched st i id ∧ c.back st = false) ∨ GuestFires st c i id := by
  constructor
  · intro hl
    by_cases hf : GuestFires st c i id
    · exact .inr hf
    · have hl0 : GuestLatched st i id := by
        by_contra hopen
        exact hf ((guestFires_iff h i id).mpr ⟨hopen, hl⟩)
      obtain ⟨a, ha, hafired⟩ := hl0
      obtain ⟨gs, hgs, hfired⟩ := hl
      obtain ⟨r, hr, ⟨rfl, -⟩ | ⟨hopen, -⟩⟩ := evalCall_guest (c := c) h ha
      · obtain rfl := Option.some.inj (hgs.symm.trans hr)
        rw [refreshEntry_fired, Bool.and_eq_true, Bool.not_eq_true'] at hfired
        exact .inl ⟨⟨a, ha, hafired⟩, hfired.2⟩
      · rw [hafired] at hopen
        cases hopen
  · rintro (⟨hl, hb⟩ | hf)
    · exact guestLatched_evalCall h hb hl
    · exact ((guestFires_iff h i id).mp hf).2

theorem guestLatched_off_iff (h : c.cfg.enabled = false) :
    GuestLatched (evalCall st c).1 i id ↔ GuestLatched st i id := by
  rw [GuestLatched, guests_off h, GuestLatched]

theorem guestFires_off_iff (h : c.cfg.enabled = false) :
    GuestFires st c i id ↔ FiredNow st i id := by
  rw [GuestFires, guests_off h, FiredNow]

end Guest

/-! ## 2. Reachable engines -/

/-- An engine and the guest lists its callers hold. -/
structure Listed where
  eng : PveEngine
  lists : GuestLists

inductive ListedOp where
  | eval (r : Reading)
  /-- The guest rules of host `i` are replaced, and the engine synced to them. -/
  | edit (i : HostIx) (cfgGuests : List PveGuest)

def Listed.zero : Listed := ⟨PveEngine.zero, fun _ => []⟩

def Listed.apply (s : Listed) : ListedOp → Listed
  | .eval r => { s with eng := (evalCall s.eng (r.call s.lists)).1 }
  | .edit i cfgGuests => ⟨s.eng.sync i cfgGuests, Function.update s.lists i cfgGuests⟩

/-- The engines that are reached: zeroed at first, then any calls and edits. -/
def runListed (ops : List ListedOp) : Listed := ops.foldl Listed.apply Listed.zero

/-- The invariant of a reachable engine: one entry for each rule, and `fired_now` only for a guest
    that is latched. -/
structure ListedInv (s : Listed) : Prop where
  ids : ∀ i, (s.eng.guests i).map GuestEngine.id = (s.lists i).map PveGuest.id
  nowLatched : ∀ i id, FiredNow s.eng i id → GuestLatched s.eng i id

theorem map_id_sync (stGuests : List GuestEngine) (l : List PveGuest) :
    (pveEngineSyncGuests stGuests l).map GuestEngine.id = l.map PveGuest.id := by
  rw [pveEngineSyncGuests, List.map_map]
  exact List.map_congr_left fun g _ => freshGuest_id stGuests g

/-- `fired_now` never carries over an edit. -/
theorem not_firedNow_sync {st : PveEngine} {i : HostIx} {l : List PveGuest} {id : Int} :
    ¬ FiredNow (st.sync i l) i id := by
  rintro ⟨gs, hgs, -, hnow⟩
  rw [guests_sync_self] at hgs
  obtain ⟨g, -, rfl⟩ := List.mem_map.mp hgs
  rw [freshGuest_firedNow] at hnow
  cases hnow

theorem ListedInv.eval {s : Listed} (hI : ListedInv s) (r : Reading) :
    ListedInv (s.apply (.eval r)) where
  ids := fun i => (map_id_evalCall s.eng _ i).trans (hI.ids i)
  nowLatched := fun i id hnow => by
    cases h : (r.call s.lists).cfg.enabled with
    | false =>
        exact (guestLatched_off_iff h).mpr (hI.nowLatched i id ((guestFires_off_iff h).mp hnow))
    | true => exact ((guestFires_iff h i id).mp hnow).2

theorem ListedInv.edit {s : Listed} (hI : ListedInv s) (j : HostIx) (l : List PveGuest) :
    ListedInv (s.apply (.edit j l)) where
  ids := fun i => by
    by_cases hij : i = j
    · subst hij
      simp [Listed.apply, map_id_sync]
    · simp [Listed.apply, guests_sync_of_ne hij, Function.update_of_ne hij, hI.ids i]
  nowLatched := fun i id hnow => by
    by_cases hij : i = j
    · subst hij
      exact absurd hnow not_firedNow_sync
    · have hg : (s.apply (.edit j l)).eng.guests i = s.eng.guests i := guests_sync_of_ne hij _ _
      rw [FiredNow, hg] at hnow
      rw [GuestLatched, hg]
      exact hI.nowLatched i id hnow

theorem listedInv_run (ops : List ListedOp) : ListedInv (runListed ops) := by
  induction ops using List.reverseRecOn with
  | nil =>
      refine ⟨fun i => rfl, fun i id hnow => ?_⟩
      obtain ⟨gs, hgs, -⟩ := hnow
      cases hgs
  | append_singleton ops op ih =>
      rw [runListed, List.foldl_append]
      cases op with
      | eval r => exact ih.eval r
      | edit j l => exact ih.edit j l

/-! ## 3. Engines no call tells apart -/

/-- A call reports the same hosts and the same guests fired now of both engines. -/
def SameReport (lists : GuestLists) (st fr : PveEngine) (r : Reading) : Prop :=
  (∀ i, HostFires st (r.call lists) i ↔ HostFires fr (r.call lists) i) ∧
    ∀ i id, GuestFires st (r.call lists) i id ↔ GuestFires fr (r.call lists) i id

/-- Two engines alike in all that a call reads: the running clocks, the latches, the ids and
    `fired_now`. -/
structure SameView (st fr : PveEngine) : Prop where
  outage : outageClock st = outageClock fr
  mains : mainsClock st = mainsClock fr
  hosts : ∀ i, st.fired i = fr.fired i
  ids : ∀ i, (st.guests i).map GuestEngine.id = (fr.guests i).map GuestEngine.id
  latched : ∀ i id, GuestLatched st i id ↔ GuestLatched fr i id
  now : ∀ i id, FiredNow st i id ↔ FiredNow fr i id

section View

variable {st fr : PveEngine} {c : EvalCall}

theorem SameView.outage_evalCall (hv : SameView st fr) :
    outageClock (evalCall st c).1 = outageClock (evalCall fr c).1 := by
  rw [outageClock_pveEval, outageClock_pveEval, hv.outage]

theorem SameView.mains_evalCall (hv : SameView st fr) :
    mainsClock (evalCall st c).1 = mainsClock (evalCall fr c).1 := by
  rw [mainsClock_pveEval, mainsClock_pveEval, hv.mains]

theorem SameView.back (hv : SameView st fr) (h : c.cfg.enabled = true) : c.back st = c.back fr := by
  rw [Bool.eq_iff_iff, back_iff h, back_iff h, hv.mains_evalCall]

/-- A timer reads the outage clock alone. -/
theorem SameView.timerMet_iff (hv : SameView st fr) (h : c.cfg.enabled = true) (m : UInt16) :
    TimerMet m (edges st c) c.nowUs ↔ TimerMet m (edges fr c) c.nowUs := by
  rw [timerMet_edges_iff h, timerMet_edges_iff h, hv.outage_evalCall]

theorem SameView.hostDue_iff (hv : SameView st fr) (h : c.cfg.enabled = true) (i : HostIx) :
    HostDue st c i ↔ HostDue fr c i :=
  or_congr (hv.timerMet_iff h _) Iff.rfl

theorem SameView.guestDue_iff (hv : SameView st fr) (h : c.cfg.enabled = true) (i : HostIx)
    (id : Int) : GuestDue st c i id ↔ GuestDue fr c i id := by
  unfold GuestDue OwnDue
  simp only [hv.hosts i, hv.timerMet_iff h, hv.hostDue_iff h i]

theorem SameView.hostFires_iff (hv : SameView st fr) (i : HostIx) :
    HostFires st c i ↔ HostFires fr c i := by
  unfold HostFires
  rw [evalCall_hosts_iff, evalCall_hosts_iff, hv.hosts i]
  exact and_congr_right fun h => and_congr_right fun _ => and_congr_right fun _ =>
    hv.hostDue_iff h i

theorem SameView.guestFires_iff (hv : SameView st fr) (i : HostIx) (id : Int) :
    GuestFires st c i id ↔ GuestFires fr c i id := by
  cases h : c.cfg.enabled with
  | false => rw [guestFires_off_iff h, guestFires_off_iff h, hv.now i id]
  | true => rw [guestFires_due_iff h, guestFires_due_iff h, hv.ids i, hv.latched i id,
      hv.guestDue_iff h i id]

/-- **One call keeps two engines alike.** -/
theorem SameView.evalCall (hv : SameView st fr) : SameView (evalCall st c).1 (evalCall fr c).1 where
  outage := hv.outage_evalCall
  mains := hv.mains_evalCall
  hosts := fun i => by
    cases h : c.cfg.enabled with
    | false =>
        rw [evalCall_off h, evalCall_off h]
        exact hv.hosts i
    | true =>
        have hf := Bool.eq_iff_iff.mpr (hv.hostFires_iff (c := c) i)
        rw [evalCall_fired h, evalCall_fired h, hv.hosts i, hv.back h, hf]
  ids := fun i => by
    rw [map_id_evalCall, map_id_evalCall]
    exact hv.ids i
  latched := fun i id => by
    cases h : c.cfg.enabled with
    | false => rw [guestLatched_off_iff h, guestLatched_off_iff h, hv.latched i id]
    | true => rw [guestLatched_on_iff h, guestLatched_on_iff h, hv.latched i id, hv.back h,
        hv.guestFires_iff i id]
  now := fun i id => hv.guestFires_iff i id

end View

/-! ## 4. What switching off forgets -/

/-- **Switching off forgets everything**: after the call `off`, every continuation of calls on the
    same lists, at times that do not go back, reports at each call what it reports from a zeroed
    engine synced to the lists. -/
def ForgetsAll (s : Listed) (off : Reading) : Prop :=
  ∀ rs : List Reading, (off.nowUs :: rs.map Reading.nowUs).Pairwise (· ≤ ·) →
    AgreeOn (fun st r => (evalCall st (r.call s.lists)).1) (SameReport s.lists)
      (evalCall s.eng (off.call s.lists)).1 (synced s.lists) rs

/-- No host and no guest is latched. -/
def NothingLatched (st : PveEngine) : Prop :=
  (∀ i, st.fired i = false) ∧ ∀ i id, ¬ GuestLatched st i id

theorem not_guestLatched_synced (lists : GuestLists) (i : HostIx) (id : Int) :
    ¬ GuestLatched (synced lists) i id := by
  rintro ⟨gs, hgs, hfired⟩
  obtain ⟨g, -, rfl⟩ := List.mem_map.mp (mem_of_lookup hgs)
  cases hfired

theorem not_firedNow_synced (lists : GuestLists) (i : HostIx) (id : Int) :
    ¬ FiredNow (synced lists) i id := by
  rintro ⟨gs, hgs, -, hnow⟩
  obtain ⟨g, -, rfl⟩ := List.mem_map.mp hgs
  cases hnow

section Off

variable {s : Listed} {off : Reading}

/-- With nothing latched, the engine after the call is a freshly synced one to every call. -/
theorem sameView_off (hI : ListedInv s) (h : off.cfg.enabled = false) (hno : NothingLatched s.eng) :
    SameView (evalCall s.eng (off.call s.lists)).1 (synced s.lists) := by
  have h' : (off.call s.lists).cfg.enabled = false := h
  have hnow : ∀ i id, ¬ FiredNow (evalCall s.eng (off.call s.lists)).1 i id := fun i id hf =>
    hno.2 i id (hI.nowLatched i id ((guestFires_off_iff h').mp hf))
  refine ⟨?_, ?_, fun i => ?_, fun i => ?_, fun i id => ?_, fun i id => ?_⟩
  · rw [evalCall_off h']
    rfl
  · rw [evalCall_off h']
    rfl
  · rw [evalCall_off h']
    exact hno.1 i
  · rw [map_id_evalCall, hI.ids i]
    exact (map_id_sync [] (s.lists i)).symm
  · rw [guestLatched_off_iff h']
    exact iff_of_false (hno.2 i id) (not_guestLatched_synced s.lists i id)
  · exact iff_of_false (hnow i id) (not_firedNow_synced s.lists i id)

/-- The call that tells a latch left behind: feature and hosts on, every charge below its limit. -/
def probe (nowUs : Int) : Reading :=
  ⟨⟨true, false, 0, fun _ => ⟨true, "", "", "", "", false, "", 0, 100⟩⟩, ⟨.battery, 0⟩, nowUs⟩

theorem hostDue_probe (st : PveEngine) (lists : GuestLists) (nowUs : Int) (i : HostIx) :
    HostDue st ((probe nowUs).call lists) i := by
  refine .inr ⟨rfl, ?_, Int.le_refl 0, ?_⟩
  · show 0 < (100 : UInt8).toNat
    decide
  · show (0 : Int) ≤ ((100 : UInt8).toNat : Int)
    decide

/-- A fresh engine fires every host at the probing call, and every guest that has a rule. -/
theorem fires_probe_synced (lists : GuestLists) (nowUs : Int) (i : HostIx) :
    HostFires (synced lists) ((probe nowUs).call lists) i ∧ ∀ id ∈ (lists i).map PveGuest.id,
      GuestFires (synced lists) ((probe nowUs).call lists) i id := by
  refine ⟨evalCall_hosts_iff.mpr ⟨rfl, rfl, rfl, hostDue_probe _ _ _ i⟩, fun id hid => ?_⟩
  obtain ⟨gg, hgg, rfl⟩ := List.mem_map.mp hid
  refine (guestFires_due_iff rfl).mpr ⟨?_, not_guestLatched_synced lists i gg.id, rfl, rfl, gg, hgg,
    rfl, .inr (hostDue_probe _ _ _ i)⟩
  exact (map_id_sync [] (lists i)).symm ▸ hid

/-- A latch that is left behind shows at the probing call. -/
theorem nothingLatched_of_forgetsAll (hI : ListedInv s) (h : off.cfg.enabled = false)
    (hf : ForgetsAll s off) : NothingLatched s.eng := by
  have h' : (off.call s.lists).cfg.enabled = false := h
  obtain ⟨⟨hhost, hguest⟩, -⟩ := hf [probe off.nowUs] (by simp [probe])
  have hprobe := fires_probe_synced s.lists off.nowUs
  refine ⟨fun i => ?_, fun i id hl => ?_⟩
  · obtain ⟨-, -, hopen, -⟩ := evalCall_hosts_iff.mp ((hhost i).mpr (hprobe i).1)
    rwa [evalCall_off h'] at hopen
  · have hid : id ∈ (s.lists i).map PveGuest.id := hI.ids i ▸ hl.mem_ids
    obtain ⟨-, hopen, -⟩ := (guestFires_due_iff rfl).mp ((hguest i id).mpr ((hprobe i).2 id hid))
    exact hopen ((guestLatched_off_iff h').mpr hl)

end Off

/-- **What switching the feature off forgets**: from any reachable engine, a call with `enabled`
    false leaves it like a freshly synced one to every continuation exactly when no host and no
    guest was latched before it. -/
theorem off_forgets_iff (ops : List ListedOp) (off : Reading) (h : off.cfg.enabled = false) :
    ForgetsAll (runListed ops) off ↔ NothingLatched (runListed ops).eng := by
  have hI := listedInv_run ops
  constructor
  · exact nothingLatched_of_forgetsAll hI h
  · intro hno rs _
    refine agreeOn_of_sim (R := SameView) ?_ ?_ (sameView_off hI h hno) rs
    · intro st fr r hv
      exact hv.evalCall
    · intro st fr r hv
      exact ⟨hv.hostFires_iff, hv.guestFires_iff⟩

/-! The host and its guest fire on a low charge; then the feature is switched off and on again, and
    the next low charge finds both latched. -/

def lowReading (power : PvePower) (min : Int) : Reading := ⟨flapCfg, ⟨power, 15⟩, min * usPerMin⟩

def offReading : Reading := ⟨{ flapCfg with enabled := false }, ⟨.battery, 15⟩, usPerMin⟩

def calmOps : List ListedOp := [.edit 0 [⟨101, 0, 30⟩], .eval (lowReading .line 0)]

def firedOps : List ListedOp := [.edit 0 [⟨101, 0, 30⟩], .eval (lowReading .battery 0)]

theorem off_forgets_iff_calm : ForgetsAll (runListed calmOps) offReading := by
  refine (off_forgets_iff calmOps offReading rfl).mpr ⟨by decide, ?_⟩
  rintro i id ⟨gs, hgs, hfired⟩
  have hall : ∀ i, ∀ gs ∈ (runListed calmOps).eng.guests i, gs.fired = false := by decide
  rw [hall i gs (mem_of_lookup hgs)] at hfired
  cases hfired

/-- What is left behind: the next outage stops neither the host nor the guest, where a fresh engine
    stops both. -/
theorem off_keeps_latches :
    let s := runListed firedOps
    let st := (evalCall s.eng (offReading.call s.lists)).1
    let c := (lowReading .battery 2).call s.lists
    ¬ HostFires st c 0 ∧ ¬ GuestFires st c 0 101 ∧ HostFires (synced s.lists) c 0 ∧
      GuestFires (synced s.lists) c 0 101 ∧ ¬ ForgetsAll s offReading := by
  refine ⟨by decide, by decide, by decide, by decide, fun hf => ?_⟩
  obtain ⟨⟨hhost, -⟩, -⟩ := hf [lowReading .battery 2] (by decide)
  exact absurd ((hhost 0).mpr (by decide)) (by decide)

end NutBluetti.Pve
