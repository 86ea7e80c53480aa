/-
  File:      NutBluetti/Pve/FiringReports.lean
  Subject:   WHAT A CALL OF `pve_eval` REPORTS, against what it did: a guest's `fired_now` and a
             host's bit of the mask on one side, the latches that closed in that call on the other,
             and the queue `pve_shutdown_observe` builds from the report.

  * `ReportsExact` -- the report names the latches that closed in this call and no other;
  * `reportsExact_on` -- with the feature on it always does;
  * **`reportsExact_iff`** -- with the feature off it does exactly when no entry still carries
    `fired_now` from an earlier call: the early return clears none.
-/
import NutBluetti.Pve.Runtime

namespace NutBluetti.Pve

open CText KeyedList

/-! ## 1. Exact reports -/

/-- No id comes twice in the guest state of a host. -/
def DistinctGuests (st : PveEngine) : Prop :=
  ∀ i, ((st.guests i).map GuestEngine.id).Nodup

/-- The latch of guest `id` of host `i` closes in a call. -/
def GuestCloses (st : PveEngine) (c : EvalCall) (i : HostIx) (id : Int) : Prop :=
  ¬ GuestLatched st i id ∧ GuestLatched (evalCall st c).1 i id

/-- The guests `pve_shutdown_observe` queues after a call, by host and id. -/
def queuedIds (eng : PveEngine) : List (HostIx × Int) :=
  (firedGuests eng).map fun g => (g.host, g.id)

/-- **The report of a call is exact.** -/
structure ReportsExact (st : PveEngine) (c : EvalCall) : Prop where
  /-- Entry by entry: `fired_now` after the call, `fired` from false to true in it. -/
  guests : ∀ i, List.Forall₂
    (fun before after => before.id = after.id ∧
      (after.firedNow = true ↔ before.fired = false ∧ after.fired = true))
    (st.guests i) ((evalCall st c).1.guests i)
  hosts : ∀ i, (evalCall st c).2.hosts i = true ↔
    st.fired i = false ∧ (evalCall st c).1.fired i = true
  /-- The caller queues each guest whose latch closes in the call, no other, and none twice. -/
  queued : ∀ i id, (i, id) ∈ queuedIds (evalCall st c).1 ↔ GuestCloses st c i id
  queuedOnce : (queuedIds (evalCall st c).1).Nodup

/-- No entry carries `fired_now`. -/
def NoneFiredNow (st : PveEngine) : Prop :=
  ∀ i, ∀ gs ∈ st.guests i, gs.firedNow = false

/-! ## 2. The queue of the caller -/

theorem mem_queuedIds {eng : PveEngine} {i : HostIx} {id : Int} :
    (i, id) ∈ queuedIds eng ↔ ∃ gs ∈ eng.guests i, gs.id = id ∧ gs.firedNow = true := by
  simp only [queuedIds, firedGuests, List.mem_map, List.mem_flatMap, List.mem_filter, Prod.mk.injEq]
  constructor
  · rintro ⟨g, ⟨j, -, gs, ⟨hgs, hnow⟩, rfl⟩, rfl, rfl⟩
    exact ⟨gs, hgs, rfl, hnow⟩
  · rintro ⟨gs, hgs, rfl, hnow⟩
    exact ⟨_, ⟨i, mem_hostSlots i, gs, ⟨hgs, hnow⟩, rfl⟩, rfl, rfl⟩

theorem queuedIds_eq (eng : PveEngine) :
    queuedIds eng = hostSlots.flatMap fun i =>
      (((eng.guests i).filter GuestEngine.firedNow).map GuestEngine.id).map fun id => (i, id) := by
  simp [queuedIds, firedGuests, List.map_flatMap, Function.comp_def]

theorem nodup_queuedIds {eng : PveEngine} (hd : DistinctGuests eng) : (queuedIds eng).Nodup := by
  rw [queuedIds_eq]
  refine List.nodup_flatMap.mpr ⟨fun i _ => ?_, ?_⟩
  · refine List.Nodup.map (fun id id' h => (Prod.mk.inj h).2) ?_
    exact ((List.filter_sublist (l := eng.guests i)).map GuestEngine.id).nodup (hd i)
  · refine List.Pairwise.imp (fun {i j} hij => ?_) (List.nodup_finRange pveMaxHosts)
    intro p hi hj
    obtain ⟨id, -, rfl⟩ := List.mem_map.mp hi
    obtain ⟨id', -, hp⟩ := List.mem_map.mp hj
    exact hij (Prod.mk.inj hp).1.symm

/-! ## 3. One call -/

section Call

variable {st : PveEngine} {c : EvalCall}

theorem distinctGuests_evalCall (hd : DistinctGuests st) (c : EvalCall) :
    DistinctGuests (evalCall st c).1 := fun i => by
  rw [map_id_evalCall]
  exact hd i

/-- The entries of a list and of one with the same keys, position by position. -/
theorem key_of_mem_zip {l l' : List GuestEngine} (h : l'.map GuestEngine.id = l.map GuestEngine.id)
    {a r : GuestEngine} (hm : (a, r) ∈ l.zip l') : a.id = r.id := by
  induction l generalizing l' with
  | nil => simp at hm
  | cons b l ih =>
      cases l' with
      | nil => simp at hm
      | cons b' l' =>
          obtain ⟨hb, hl⟩ := List.cons.inj h
          rcases List.mem_cons.mp hm with heq | hm
          · obtain ⟨rfl, rfl⟩ := Prod.mk.inj heq
            exact hb.symm
          · exact ih hl hm

/-- A latch closes in a call exactly where an entry comes out with `fired_now`. -/
theorem guestFires_iff (h : c.cfg.enabled = true) (i : HostIx) (id : Int) :
    GuestFires st c i id ↔ GuestCloses st c i id := by
  constructor
  · intro hf
    obtain ⟨h1, h2, -⟩ := guestFires_spec h hf
    exact ⟨h1, h2⟩
  · rintro ⟨hopen, gs, hgs, hfired⟩
    have hmem : id ∈ (st.guests i).map GuestEngine.id := by
      rw [← map_id_evalCall st c i, ← key_of_lookup hgs]
      exact List.mem_map_of_mem (mem_of_lookup hgs)
    obtain ⟨a, ha⟩ := exists_lookup_iff.mpr hmem
    have hafired : a.fired = false := by
      by_contra hne
      exact hopen ⟨a, ha, by simpa using hne⟩
    obtain ⟨r, hr, ⟨rfl, -⟩ | ⟨-, -, text, -, rfl⟩⟩ := evalCall_guest (c := c) h ha
    · obtain rfl : gs = refreshEntry (c.back st) a := Option.some.inj (hgs.symm.trans hr)
      simp [hafired] at hfired
    · exact ⟨_, mem_of_lookup hr, key_of_lookup hr, rfl⟩

/-- **With the feature on every report is exact.** -/
theorem reportsExact_on (hd : DistinctGuests st) (h : c.cfg.enabled = true) :
    ReportsExact st c where
  guests := fun i => by
    have hkeys := map_id_evalCall st c i
    refine List.forall₂_iff_zip.mpr ⟨?_, fun {a r} hm => ?_⟩
    · simpa using (congrArg List.length hkeys).symm
    · have hid := key_of_mem_zip hkeys hm
      obtain ⟨hma, hmr⟩ := List.of_mem_zip hm
      have ha : findGuestState (st.guests i) a.id = some a := lookup_of_nodup (hd i) hma
      have hr : findGuestState ((evalCall st c).1.guests i) a.id = some r := by
        rw [hid]
        exact lookup_of_nodup (distinctGuests_evalCall hd c i) hmr
      refine ⟨hid, ?_⟩
      obtain ⟨r', hr', ⟨rfl, -⟩ | ⟨hopen, -, text, -, rfl⟩⟩ := evalCall_guest (c := c) h ha
      · obtain rfl := Option.some.inj (hr.symm.trans hr')
        simp only [refreshEntry_firedNow, refreshEntry_fired, Bool.false_eq_true, false_iff]
        rintro ⟨hf, hf'⟩
        rw [hf] at hf'
        cases hf'
      · obtain rfl := Option.some.inj (hr.symm.trans hr')
        simp [GuestEngine.latch, hopen]
  hosts := fun i => by
    refine ⟨fun hf => ?_, fun hf => ?_⟩
    · obtain ⟨h1, h2, -⟩ := hostFires_spec (c := c) hf
      exact ⟨h1, h2⟩
    · obtain ⟨h1, h2⟩ := hf
      rw [evalCall_fired h, h1, Bool.false_and, Bool.false_or] at h2
      exact h2
  queued := fun i id => mem_queuedIds.trans (guestFires_iff h i id)
  queuedOnce := nodup_queuedIds (distinctGuests_evalCall hd c)

theorem guests_off (h : c.cfg.enabled = false) (i : HostIx) :
    (evalCall st c).1.guests i = st.guests i := by
  rw [evalCall_off h]

theorem reportsExact_off_iff (hd : DistinctGuests st) (h : c.cfg.enabled = false) :
    ReportsExact st c ↔ NoneFiredNow st := by
  constructor
  · intro hx i gs hgs
    have hg := hx.guests i
    rw [guests_off h, List.forall₂_same] at hg
    have hnot := (hg gs hgs).2
    by_contra hnow
    obtain ⟨h1, h2⟩ := hnot.mp (by simpa using hnow)
    rw [h1] at h2
    cases h2
  · intro hno
    refine ⟨fun i => ?_, fun i => ?_, fun i id => ?_,
      nodup_queuedIds (distinctGuests_evalCall hd c)⟩
    · rw [guests_off h, List.forall₂_same]
      intro gs hgs
      cases hf : gs.fired <;> simp [hno i gs hgs]
    · rw [evalCall_off h]
      cases hf : st.fired i <;> simp [HostMask.none]
    · rw [mem_queuedIds, guests_off h]
      constructor
      · rintro ⟨gs, hgs, -, hnow⟩
        rw [hno i gs hgs] at hnow
        cases hnow
      · rintro ⟨hopen, gs, hgs, hfired⟩
        rw [guests_off h] at hgs
        exact absurd ⟨gs, hgs, hfired⟩ hopen

/-- **When the report of a call is exact**: the feature is on, or no entry carries `fired_now` from
    an earlier call. -/
theorem reportsExact_iff (hd : DistinctGuests st) (c : EvalCall) :
    ReportsExact st c ↔ c.cfg.enabled = true ∨ NoneFiredNow st := by
  cases h : c.cfg.enabled with
  | true => simp [reportsExact_on hd h]
  | false => simp [reportsExact_off_iff hd h]

end Call

/-! A guest is stopped on a low charge; then the feature is switched off while `fired_now` is
    set. -/

def firedEngine : PveEngine :=
  (evalCall (synced fun _ => [⟨101, 0, 30⟩]) (flapCall .battery 0)).1

def offCall : EvalCall :=
  ⟨{ flapCfg with enabled := false }, fun _ => [⟨101, 0, 30⟩], ⟨.battery, 15⟩, usPerMin⟩

theorem distinctGuests_firedEngine : DistinctGuests firedEngine := by
  unfold DistinctGuests
  decide

theorem reportsExact_iff_firedEngine :
    ReportsExact firedEngine (flapCall .battery 1) ∧ ¬ ReportsExact firedEngine offCall := by
  refine ⟨(reportsExact_iff distinctGuests_firedEngine _).mpr (.inl rfl), fun h => ?_⟩
  rcases (reportsExact_iff distinctGuests_firedEngine _).mp h with hon | hno
  · cases hon
  · exact absurd (hno 0) (by decide)

/-- The call with the feature off queues guest 101 of host 0 again: nothing fired in it. -/
theorem off_requeues_fired_guest :
    DistinctGuests firedEngine ∧ GuestLatched firedEngine 0 101 ∧
      (0, 101) ∈ queuedIds (evalCall firedEngine offCall).1 ∧
      ¬ ReportsExact firedEngine offCall := by
  have hq : (0, 101) ∈ queuedIds (evalCall firedEngine offCall).1 := by decide
  have hl : GuestLatched firedEngine 0 101 := ⟨_, rfl, rfl⟩
  exact ⟨distinctGuests_firedEngine, hl, hq, fun h => ((h.queued 0 101).mp hq).1 hl⟩

end NutBluetti.Pve
