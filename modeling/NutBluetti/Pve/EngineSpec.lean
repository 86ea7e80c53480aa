/-
  File:      NutBluetti/Pve/EngineSpec.lean
  Subject:   WHAT ONE CALL OF `pve_eval` DOES, said once: every result about runs of the engine
             cites these lemmas and never unfolds `pveEval` again.

  * `triggerMet_isSome_iff` -- a trigger is met by the timer (`TimerMet`) or the charge
    (`ChargeMet`);
  * **`pveEval_slot`**, `pveEval_hosts` -- the loop over the hosts, seen from one slot: its round of
    `evalHost` on the slot as it was before the call;
  * `outageClock_pveEval`, `mainsClock_pveEval` -- the two clocks, one tick each;
  * `hostRound_cases` -- the four ways through a round;
  * `evalCall_hosts_iff`, `evalCall_fired` -- when a host fires and what its latch does;
  * **`evalCall_guest`** -- what a call does to the state of one guest id.
-/
import NutBluetti.Lib.Stopwatch
import NutBluetti.Pve.Engine

namespace NutBluetti.Pve

open CText KeyedList

/-! ## 1. Triggers -/

/-- The on-battery timer of a trigger has run out: the outage clock has run for the minutes set. -/
def TimerMet (onBatteryMin : UInt16) (st : PveEngine) (nowUs : Int) : Prop :=
  onBatteryMin.toNat > 0 ∧ st.onBattery = true ∧
    nowUs - st.onBatterySinceUs ≥ onBatteryMin.toNat * usPerMin

/-- The charge of a trigger is reached: a live reading on battery, at or below the limit. -/
def ChargeMet (chargePct : UInt8) (obs : PveObs) : Prop :=
  obs.power = .battery ∧ chargePct.toNat > 0 ∧ 0 ≤ obs.socPct ∧ obs.socPct ≤ chargePct.toNat

section Trigger

variable {m : UInt16} {pct : UInt8} {st : PveEngine} {obs : PveObs} {nowUs : Int} (sz : Nat)

/-- A trigger is met by its timer or by its charge. -/
theorem triggerMet_isSome_iff :
    (∃ why, triggerMet m pct st obs nowUs sz = some why) ↔
      TimerMet m st nowUs ∨ ChargeMet pct obs := by
  unfold triggerMet TimerMet ChargeMet
  split
  · rename_i h
    exact ⟨fun _ => .inl h, fun _ => ⟨_, rfl⟩⟩
  · rename_i h
    split
    · rename_i h'
      exact ⟨fun _ => .inr h', fun _ => ⟨_, rfl⟩⟩
    · rename_i h'
      constructor
      · intro hw
        obtain ⟨why, hw⟩ := hw
        simp at hw
      · intro hw
        rcases hw with hw | hw
        · exact absurd hw h
        · exact absurd hw h'

variable {sz}

/-- A met trigger leaves a reason. -/
theorem triggerMet_ne_empty (hsz : 2 ≤ sz) {why : String}
    (h : triggerMet m pct st obs nowUs sz = some why) : why ≠ "" := by
  unfold triggerMet at h
  split at h
  · obtain rfl := Option.some.inj h
    exact fit_ne_empty hsz (append_ne_empty (append_ne_empty (by decide)))
  · split at h
    · obtain rfl := Option.some.inj h
      refine fit_ne_empty hsz ?_
      exact append_ne_empty (append_ne_empty (append_ne_empty (append_ne_empty (by decide))))
    · simp at h

/-- A trigger reads only the outage clock of the engine. -/
theorem triggerMet_congr {st' : PveEngine} (h1 : st'.onBattery = st.onBattery)
    (h2 : st'.onBatterySinceUs = st.onBatterySinceUs) :
    triggerMet m pct st' obs nowUs sz = triggerMet m pct st obs nowUs sz := by
  unfold triggerMet
  rw [h1, h2]

end Trigger

/-! ## 2. The loop over the hosts -/

/-- Two engines with the same clocks. -/
structure SameClocks (st st' : PveEngine) : Prop where
  onBattery : st'.onBattery = st.onBattery
  onBatterySinceUs : st'.onBatterySinceUs = st.onBatterySinceUs
  onMains : st'.onMains = st.onMains
  mainsSinceUs : st'.mainsSinceUs = st.mainsSinceUs

theorem SameClocks.symm {st st' : PveEngine} (h : SameClocks st st') : SameClocks st' st :=
  ⟨h.onBattery.symm, h.onBatterySinceUs.symm, h.onMains.symm, h.mainsSinceUs.symm⟩

theorem SameClocks.trans {st st' st'' : PveEngine} (h : SameClocks st st')
    (h' : SameClocks st' st'') : SameClocks st st'' :=
  ⟨h'.onBattery.trans h.onBattery, h'.onBatterySinceUs.trans h.onBatterySinceUs,
    h'.onMains.trans h.onMains, h'.mainsSinceUs.trans h.mainsSinceUs⟩

@[simp] theorem slot_setSlot_self (st : PveEngine) (i : HostIx) (s : HostSlot) :
    (st.setSlot i s).slot i = s := by
  simp [PveEngine.setSlot, PveEngine.slot]

@[simp] theorem slot_setSlot_of_ne {st : PveEngine} {i j : HostIx} (h : j ≠ i) (s : HostSlot) :
    (st.setSlot i s).slot j = st.slot j := by
  simp [PveEngine.setSlot, PveEngine.slot, Function.update_of_ne h]

theorem sameClocks_setSlot {st0 st : PveEngine} (h : SameClocks st0 st) (i : HostIx)
    (s : HostSlot) : SameClocks st0 (st.setSlot i s) :=
  ⟨h.onBattery, h.onBatterySinceUs, h.onMains, h.mainsSinceUs⟩

section Loop

variable (cfg : PveConfig) (guests : GuestLists) (obs : PveObs) (nowUs : Int) (back : Bool)

/-- A round of the loop sees of the engine only its clocks, which no round changes. -/
theorem evalHost_congr (h : PveHost) (gs : List PveGuest) {st st' : PveEngine}
    (hc : SameClocks st st') (s : HostSlot) :
    evalHost h gs st' obs nowUs back s = evalHost h gs st obs nowUs back s := by
  have htr : ∀ m pct sz, triggerMet m pct st' obs nowUs sz = triggerMet m pct st obs nowUs sz :=
    fun m pct sz => triggerMet_congr hc.onBattery hc.onBatterySinceUs
  have hgt : guestTrigger st' obs nowUs = guestTrigger st obs nowUs :=
    funext fun gg => htr _ _ _
  unfold evalHost
  rw [hgt, htr]

/-- The loop over any slots, from any state it has reached: a slot is changed by its own round
    only. -/
theorem evalHosts_aux (st0 : PveEngine) (is : List HostIx) (hn : is.Nodup) :
    ∀ (acc : PveEngine × PveFire), SameClocks st0 acc.1 →
      let acc' := is.foldl (evalRound cfg guests obs nowUs back) acc
      SameClocks st0 acc'.1 ∧ ∀ i,
        (i ∈ is → acc'.1.slot i =
            (evalHost (cfg.hosts i) (guests i) st0 obs nowUs back (acc.1.slot i)).1 ∧
          acc'.2.hosts i = (acc.2.hosts i ||
            (evalHost (cfg.hosts i) (guests i) st0 obs nowUs back (acc.1.slot i)).2)) ∧
        (i ∉ is → acc'.1.slot i = acc.1.slot i ∧ acc'.2.hosts i = acc.2.hosts i) := by
  induction is with
  | nil =>
      intro acc hc
      exact ⟨hc, fun i => ⟨fun hi => absurd hi List.not_mem_nil, fun _ => ⟨rfl, rfl⟩⟩⟩
  | cons j is ih =>
      intro acc hc
      obtain ⟨hj, hn'⟩ := List.nodup_cons.mp hn
      have hev := evalHost_congr obs nowUs back (cfg.hosts j) (guests j) hc (acc.1.slot j)
      rw [List.foldl_cons, evalRound, hev]
      generalize hr : evalHost (cfg.hosts j) (guests j) st0 obs nowUs back (acc.1.slot j) = r
      obtain ⟨s, f⟩ := r
      obtain ⟨hc', hi'⟩ := ih hn' (acc.1.setSlot j s, if f then ⟨acc.2.hosts.set j⟩ else acc.2)
        (sameClocks_setSlot hc j s)
      refine ⟨hc', fun i => ?_⟩
      by_cases hij : i = j
      · subst hij
        obtain ⟨h1, h2⟩ := (hi' i).2 hj
        refine ⟨fun _ => ?_, fun hni => absurd List.mem_cons_self hni⟩
        rw [h1, h2, hr, slot_setSlot_self]
        cases f <;> simp [HostMask.set]
      · have hm : (if f then (⟨acc.2.hosts.set j⟩ : PveFire) else acc.2).hosts i =
          acc.2.hosts i := by
          cases f <;> simp [HostMask.set, Function.update_of_ne hij]
        refine ⟨fun hi => ?_, fun hi => ?_⟩
        · have := (hi' i).1 ((List.mem_cons.mp hi).resolve_left hij)
          rwa [slot_setSlot_of_ne hij, hm] at this
        · have := (hi' i).2 (fun hi2 => hi (List.mem_cons_of_mem _ hi2))
          rwa [slot_setSlot_of_ne hij, hm] at this

end Loop

/-! ## 3. One call -/

/-- One call of `pve_eval`, with everything it reads. -/
structure EvalCall where
  cfg : PveConfig
  guests : GuestLists
  obs : PveObs
  nowUs : Int

def evalCall (st : PveEngine) (c : EvalCall) : PveEngine × PveFire :=
  pveEval c.cfg c.guests st c.obs c.nowUs

/-- The engine between the edges and the loop. -/
def edges (st : PveEngine) (c : EvalCall) : PveEngine :=
  observeEdges st c.obs.power c.nowUs

/-- The latches release in this call. -/
def EvalCall.back (c : EvalCall) (st : PveEngine) : Bool :=
  mainsBack c.cfg (edges st c) c.nowUs

/-- The round of the loop that host `i` gets in a call. -/
def hostRound (st : PveEngine) (c : EvalCall) (i : HostIx) : HostSlot × Bool :=
  evalHost (c.cfg.hosts i) (c.guests i) (edges st c) c.obs c.nowUs (c.back st) (st.slot i)

/-- The edges of an outage are found from the clocks and the observation alone. -/
theorem SameClocks.observeEdges {st st' : PveEngine} (h : SameClocks st st') (p : PvePower)
    (nowUs : Int) : SameClocks (observeEdges st p nowUs) (observeEdges st' p nowUs) := by
  obtain ⟨hb, hbs, hm, hms⟩ := h
  cases p with
  | unknown => exact ⟨hb, hbs, rfl, hms⟩
  | line =>
      cases hm' : st.onMains <;> rw [hm'] at hm <;> constructor <;>
        simp [Pve.observeEdges, hm, hm', hbs, hms]
  | battery =>
      cases hb' : st.onBattery <;> rw [hb'] at hb <;> constructor <;>
        simp [Pve.observeEdges, hb, hb', hbs, hms]

theorem SameClocks.edges {st st' : PveEngine} {c c' : EvalCall} (h : SameClocks st st')
    (hobs : c'.obs = c.obs) (hnow : c'.nowUs = c.nowUs) :
    SameClocks (edges st c) (edges st' c') := by
  unfold Pve.edges
  rw [hobs, hnow]
  exact h.observeEdges c.obs.power c.nowUs

/-- Whether the latches release is found from the clocks too. -/
theorem SameClocks.back {st st' : PveEngine} {c c' : EvalCall} (h : SameClocks st st')
    (hmin : c'.cfg.mainsBackMin = c.cfg.mainsBackMin) (hobs : c'.obs = c.obs)
    (hnow : c'.nowUs = c.nowUs) : c'.back st' = c.back st := by
  have hedges := h.edges hobs hnow
  unfold EvalCall.back mainsBack
  rw [hmin, hnow, hedges.onMains, hedges.mainsSinceUs]

theorem slot_observeEdges (st : PveEngine) (p : PvePower) (nowUs : Int) (i : HostIx) :
    (observeEdges st p nowUs).slot i = st.slot i := by
  cases p with
  | unknown => rfl
  | line =>
      cases hm : st.onMains <;> simp [observeEdges, PveEngine.slot, hm]
  | battery =>
      cases hb : st.onBattery <;> simp [observeEdges, PveEngine.slot, hb]

section Call

variable {st : PveEngine} {c : EvalCall}

theorem evalCall_off (h : c.cfg.enabled = false) :
    evalCall st c = ({ st with onBattery := false, onMains := false }, ⟨HostMask.none⟩) := by
  simp [evalCall, pveEval, h]

theorem evalCall_on (h : c.cfg.enabled = true) :
    SameClocks (edges st c) (evalCall st c).1 ∧ ∀ i,
      (evalCall st c).1.slot i = (hostRound st c i).1 ∧
        (evalCall st c).2.hosts i = (hostRound st c i).2 := by
  have hn : hostSlots.Nodup := List.nodup_finRange pveMaxHosts
  obtain ⟨hc, hi⟩ := evalHosts_aux c.cfg c.guests c.obs c.nowUs (c.back st) (edges st c) hostSlots
    hn (edges st c, ⟨HostMask.none⟩) ⟨rfl, rfl, rfl, rfl⟩
  have he : evalCall st c = hostSlots.foldl
      (evalRound c.cfg c.guests c.obs c.nowUs (c.back st)) (edges st c, ⟨HostMask.none⟩) := by
    simp [evalCall, pveEval, h, edges, EvalCall.back]
  rw [he]
  refine ⟨hc, fun i => ?_⟩
  obtain ⟨h1, h2⟩ := (hi i).1 (mem_hostSlots i)
  have hs : (edges st c).slot i = st.slot i := slot_observeEdges st c.obs.power c.nowUs i
  rw [hs] at h1 h2
  exact ⟨h1, by rw [h2]; rfl⟩

/-- **The loop seen from one slot**: its own round, on the slot as it was before the call. -/
theorem pveEval_slot (h : c.cfg.enabled = true) (i : HostIx) :
    (evalCall st c).1.slot i = (hostRound st c i).1 :=
  ((evalCall_on h).2 i).1

theorem pveEval_hosts (h : c.cfg.enabled = true) (i : HostIx) :
    (evalCall st c).2.hosts i = (hostRound st c i).2 :=
  ((evalCall_on h).2 i).2

/-- With the feature off a call leaves every latch, reason and guest state as it was. -/
theorem pveEval_slot_off (h : c.cfg.enabled = false) (i : HostIx) :
    (evalCall st c).1.slot i = st.slot i := by
  rw [evalCall_off h]
  rfl

theorem pveEval_hosts_off (h : c.cfg.enabled = false) (i : HostIx) :
    (evalCall st c).2.hosts i = false := by
  rw [evalCall_off h]
  rfl

end Call

/-! ## 4. The clocks -/

/-- The outage clock: the edge it runs from, `none` while it is stopped. -/
def outageClock (st : PveEngine) : Option Int :=
  if st.onBattery then some st.onBatterySinceUs else none

/-- The mains clock. -/
def mainsClock (st : PveEngine) : Option Int :=
  if st.onMains then some st.mainsSinceUs else none

/-- A call that ends an outage: the mains is seen, or the feature is off. -/
def EndsOutage (c : EvalCall) : Prop := c.cfg.enabled = false ∨ c.obs.power = .line

/-- A call that sees the unit on battery. -/
def ShowsBattery (c : EvalCall) : Prop := c.obs.power = .battery

/-- A call that sees the mains, with the feature on. -/
def ShowsMains (c : EvalCall) : Prop := c.cfg.enabled = true ∧ c.obs.power = .line

instance : DecidablePred EndsOutage := fun _ => inferInstanceAs (Decidable (_ ∨ _))
instance : DecidablePred ShowsBattery := fun _ => inferInstanceAs (Decidable (_ = _))
instance : DecidablePred ShowsMains := fun _ => inferInstanceAs (Decidable (_ ∧ _))

section Clocks

variable (st : PveEngine) (c : EvalCall)

theorem outageClock_congr {st st' : PveEngine} (h : SameClocks st st') :
    outageClock st' = outageClock st := by
  rw [outageClock, outageClock, h.onBattery, h.onBatterySinceUs]

theorem mainsClock_congr {st st' : PveEngine} (h : SameClocks st st') :
    mainsClock st' = mainsClock st := by
  rw [mainsClock, mainsClock, h.onMains, h.mainsSinceUs]

/-- **The outage clock is a stopwatch**: started by battery, cleared by the mains and by the feature
    being off, left alone by an unknown reading. -/
theorem outageClock_pveEval :
    outageClock (evalCall st c).1 =
      Stopwatch.tick EndsOutage ShowsBattery EvalCall.nowUs (outageClock st) c := by
  cases h : c.cfg.enabled with
  | false =>
      rw [evalCall_off h]
      simp [outageClock, Stopwatch.tick, EndsOutage, h]
  | true =>
      rw [outageClock_congr (evalCall_on h).1, edges]
      cases hp : c.obs.power with
      | unknown =>
          cases hb : st.onBattery <;>
            simp [Stopwatch.tick, EndsOutage, ShowsBattery, h, hp, hb, observeEdges, outageClock]
      | line =>
          cases hm : st.onMains <;>
            simp [Stopwatch.tick, EndsOutage, h, hp, hm, observeEdges, outageClock]
      | battery =>
          cases hb : st.onBattery <;>
            simp [Stopwatch.tick, EndsOutage, ShowsBattery, h, hp, hb, observeEdges, outageClock]

/-- **The mains clock is a stopwatch** that every call clears which does not see the mains. -/
theorem mainsClock_pveEval :
    mainsClock (evalCall st c).1 =
      Stopwatch.tick (fun c => ¬ ShowsMains c) ShowsMains EvalCall.nowUs (mainsClock st) c := by
  cases h : c.cfg.enabled with
  | false =>
      rw [evalCall_off h]
      simp [mainsClock, Stopwatch.tick, ShowsMains, h]
  | true =>
      rw [mainsClock_congr (evalCall_on h).1, edges]
      cases hp : c.obs.power with
      | unknown => simp [Stopwatch.tick, ShowsMains, hp, observeEdges, mainsClock]
      | line =>
          cases hm : st.onMains <;>
            simp [Stopwatch.tick, ShowsMains, h, hp, hm, observeEdges, mainsClock]
      | battery =>
          cases hb : st.onBattery <;>
            simp [Stopwatch.tick, ShowsMains, hp, hb, observeEdges, mainsClock]

variable {st c}

/-- The latches release in a call exactly when the mains clock has run long enough by then. -/
theorem back_iff (h : c.cfg.enabled = true) :
    c.back st = true ↔ 0 < c.cfg.mainsBackMin.toNat ∧ ∃ t, mainsClock (evalCall st c).1 = some t ∧
      t ≤ c.nowUs - c.cfg.mainsBackMin.toNat * usPerMin := by
  rw [mainsClock_congr (evalCall_on h).1]
  unfold EvalCall.back mainsBack mainsClock
  cases hm : (edges st c).onMains with
  | false => simp
  | true =>
      simp only [Bool.and_true, Bool.and_eq_true, decide_eq_true_eq, if_true, Option.some.injEq,
        exists_eq_left']
      constructor
      · intro hb
        exact ⟨hb.1, by omega⟩
      · intro hb
        exact ⟨hb.1, by omega⟩

/-- A release needs the mains in that very call. -/
theorem showsMains_of_back (h : c.cfg.enabled = true) (hb : c.back st = true) : ShowsMains c := by
  obtain ⟨-, t, ht, -⟩ := (back_iff h).mp hb
  by_contra hm
  simp [mainsClock_pveEval, Stopwatch.tick, hm] at ht

/-- The timer of a trigger, read off the outage clock after the call's edge. -/
theorem timerMet_edges_iff (h : c.cfg.enabled = true) (m : UInt16) :
    TimerMet m (edges st c) c.nowUs ↔ 0 < m.toNat ∧ ∃ t, outageClock (evalCall st c).1 = some t ∧
      t ≤ c.nowUs - m.toNat * usPerMin := by
  rw [outageClock_congr (evalCall_on h).1]
  unfold TimerMet outageClock
  cases hb : (edges st c).onBattery with
  | false => simp
  | true =>
      simp only [true_and, if_true, Option.some.injEq, exists_eq_left']
      constructor
      · intro hm
        exact ⟨hm.1, by omega⟩
      · intro hm
        exact ⟨hm.1, by omega⟩

/-- Nothing is due in a call that sees the mains. -/
theorem not_due_of_line (h : c.cfg.enabled = true) (hl : c.obs.power = .line) (m : UInt16)
    (pct : UInt8) : ¬ (TimerMet m (edges st c) c.nowUs ∨ ChargeMet pct c.obs) := by
  rw [timerMet_edges_iff h, outageClock_pveEval]
  simp [Stopwatch.tick, EndsOutage, ChargeMet, hl]

end Clocks

/-! ## 5. Hosts -/

section Host

variable {st : PveEngine} {c : EvalCall} {i : HostIx}

/-- The host trigger of a call. -/
def HostDue (st : PveEngine) (c : EvalCall) (i : HostIx) : Prop :=
  TimerMet (c.cfg.hosts i).onBatteryMin (edges st c) c.nowUs ∨
    ChargeMet (c.cfg.hosts i).chargePct c.obs

/-- The host trigger of a call, as the code asks for it. -/
def hostTrigger (st : PveEngine) (c : EvalCall) (i : HostIx) : Option String :=
  triggerMet (c.cfg.hosts i).onBatteryMin (c.cfg.hosts i).chargePct (edges st c) c.obs c.nowUs
    hostReasonSz

theorem hostTrigger_isSome_iff : (∃ why, hostTrigger st c i = some why) ↔ HostDue st c i :=
  triggerMet_isSome_iff hostReasonSz

/-- The guest states of host `i` as the call's guest loops find them. -/
def refreshed (st : PveEngine) (c : EvalCall) (i : HostIx) : List GuestEngine :=
  refreshGuests (c.back st) (st.guests i)

/-- The guest states of host `i` after the loop over the guests' own triggers. -/
def ownFired (st : PveEngine) (c : EvalCall) (i : HostIx) : List GuestEngine :=
  (c.guests i).foldl (stopGuest (guestTrigger (edges st c) c.obs c.nowUs)) (refreshed st c i)

/-- **The four ways through a round of the loop over the hosts**: latched, disabled, not due,
    fired. -/
theorem hostRound_cases (st : PveEngine) (c : EvalCall) (i : HostIx) :
    (st.fired i = true ∧ ∃ reason, hostRound st c i =
        (⟨!c.back st, reason, refreshed st c i⟩, false)) ∨
      (st.fired i = false ∧ (c.cfg.hosts i).enabled = false ∧ hostRound st c i =
        (⟨false, st.reason i, refreshed st c i⟩, false)) ∨
      (st.fired i = false ∧ (c.cfg.hosts i).enabled = true ∧ hostTrigger st c i = none ∧
        hostRound st c i = (⟨false, st.reason i, ownFired st c i⟩, false)) ∨
      (st.fired i = false ∧ (c.cfg.hosts i).enabled = true ∧ ∃ why,
        hostTrigger st c i = some why ∧ hostRound st c i =
          (⟨true, why, (c.guests i).foldl (stopGuest (sweepReason why)) (ownFired st c i)⟩,
          true)) := by
  cases hf : st.fired i with
  | true =>
      refine .inl ⟨rfl, ?_⟩
      cases hb : c.back st with
      | true => exact ⟨"", by simp [hostRound, evalHost, hf, hb, refreshed, PveEngine.slot]⟩
      | false =>
          exact ⟨st.reason i, by simp [hostRound, evalHost, hf, hb, refreshed, PveEngine.slot]⟩
  | false =>
      refine .inr ?_
      cases he : (c.cfg.hosts i).enabled with
      | false =>
          exact .inl ⟨rfl, rfl, by simp [hostRound, evalHost, hf, he, refreshed, PveEngine.slot]⟩
      | true =>
          refine .inr ?_
          cases ht : hostTrigger st c i with
          | none =>
              have ht' := ht
              unfold hostTrigger at ht'
              exact .inl ⟨rfl, rfl, rfl, by
                simp [hostRound, evalHost, hf, he, ht', ownFired, refreshed, PveEngine.slot]⟩
          | some why =>
              have ht' := ht
              unfold hostTrigger at ht'
              exact .inr ⟨rfl, rfl, why, rfl, by
                simp [hostRound, evalHost, hf, he, ht', ownFired, refreshed, PveEngine.slot]⟩

/-- **When a host fires**: feature and host enabled, its latch open, its trigger met. -/
theorem evalCall_hosts_iff :
    (evalCall st c).2.hosts i = true ↔ c.cfg.enabled = true ∧ (c.cfg.hosts i).enabled = true ∧
      st.fired i = false ∧ HostDue st c i := by
  cases h : c.cfg.enabled with
  | false => simp [pveEval_hosts_off h]
  | true =>
      rw [pveEval_hosts h, ← hostTrigger_isSome_iff]
      rcases hostRound_cases st c i with ⟨hf, _, hr⟩ | ⟨hf, he, hr⟩ | ⟨hf, he, ht, hr⟩ |
        ⟨hf, he, why, ht, hr⟩
      · simp [hr, hf]
      · simp [hr, he]
      · simp [hr, ht]
      · simp [hr, hf, he, ht]

/-- What a call does to the latch of a host: a release opens it, a firing closes it. -/
theorem evalCall_fired (h : c.cfg.enabled = true) :
    (evalCall st c).1.fired i = ((st.fired i && !c.back st) || (evalCall st c).2.hosts i) := by
  have hslot : (evalCall st c).1.fired i = (hostRound st c i).1.fired := by
    rw [← pveEval_slot h i]
    rfl
  rw [hslot, pveEval_hosts h]
  rcases hostRound_cases st c i with ⟨hf, _, hr⟩ | ⟨hf, -, hr⟩ | ⟨hf, -, -, hr⟩ |
    ⟨hf, -, why, -, hr⟩ <;> simp [hr, hf]

/-- A call in which anything is due is no call that releases. -/
theorem back_eq_false_of_due (h : c.cfg.enabled = true) {m : UInt16} {pct : UInt8}
    (hd : TimerMet m (edges st c) c.nowUs ∨ ChargeMet pct c.obs) : c.back st = false := by
  by_contra hb
  have hb : c.back st = true := by simpa using hb
  exact not_due_of_line h (showsMains_of_back h hb).2 m pct hd

/-- A call in which anything is due stops the mains clock. -/
theorem mainsClock_eq_none_of_due (h : c.cfg.enabled = true) {m : UInt16} {pct : UInt8}
    (hd : TimerMet m (edges st c) c.nowUs ∨ ChargeMet pct c.obs) :
    mainsClock (evalCall st c).1 = none := by
  have hm : ¬ ShowsMains c := fun hm => not_due_of_line h hm.2 m pct hd
  simp [mainsClock_pveEval, Stopwatch.tick, hm]

end Host

/-! ## 6. Guests -/

/-- One round of a guest loop, seen from the entry it points at. -/
def stopEntry (why : PveGuest → Option String) (gg : PveGuest) (gs : GuestEngine) : GuestEngine :=
  if gs.fired then gs else
    match why gg with
    | none => gs
    | some text => gs.latch text

@[simp] theorem latch_id (gs : GuestEngine) (why : String) : (gs.latch why).id = gs.id := rfl

@[simp] theorem latch_fired (gs : GuestEngine) (why : String) : (gs.latch why).fired = true := rfl

theorem stopEntry_id (why : PveGuest → Option String) (gg : PveGuest) (gs : GuestEngine) :
    (stopEntry why gg gs).id = gs.id := by
  unfold stopEntry
  split
  · rfl
  · split <;> rfl

theorem release_id (gs : GuestEngine) : gs.release.id = gs.id := by
  unfold GuestEngine.release
  split <;> rfl

/-- A latched entry passes through a guest loop unchanged. -/
theorem foldl_stopEntry_of_fired {why : PveGuest → Option String} {gs : GuestEngine}
    (h : gs.fired = true) (ggs : List PveGuest) :
    ggs.foldl (fun a gg => stopEntry why gg a) gs = gs := by
  induction ggs with
  | nil => rfl
  | cons gg ggs ih =>
      rw [List.foldl_cons, stopEntry, if_pos h]
      exact ih

/-- **A guest loop, from one open entry**: it is latched by the first rule that has a reason, and
    unchanged if none has. -/
theorem foldl_stopEntry {why : PveGuest → Option String} {gs : GuestEngine}
    (h : gs.fired = false) (ggs : List PveGuest) :
    ((∀ gg ∈ ggs, why gg = none) ∧ ggs.foldl (fun a gg => stopEntry why gg a) gs = gs) ∨
      ∃ gg ∈ ggs, ∃ text, why gg = some text ∧
        ggs.foldl (fun a gg => stopEntry why gg a) gs = gs.latch text := by
  induction ggs with
  | nil => exact .inl ⟨by simp, rfl⟩
  | cons gg ggs ih =>
      rw [List.foldl_cons, stopEntry, if_neg (by simp [h])]
      cases hw : why gg with
      | some text =>
          refine .inr ⟨gg, List.mem_cons_self, text, hw, ?_⟩
          exact foldl_stopEntry_of_fired (latch_fired gs text) ggs
      | none =>
          rcases ih with ⟨hno, he⟩ | ⟨gg', hgg', text, hw', he⟩
          · exact .inl ⟨List.forall_mem_cons.mpr ⟨hw, hno⟩, he⟩
          · exact .inr ⟨gg', List.mem_cons_of_mem _ hgg', text, hw', he⟩

/-- A guest loop over a host's rules, seen from one id. -/
theorem lookup_foldl_stopGuest (why : PveGuest → Option String) (ggs : List PveGuest)
    (gst : List GuestEngine) (id : Int) :
    findGuestState (ggs.foldl (stopGuest why) gst) id = (findGuestState gst id).map fun gs =>
      (ggs.filter fun gg => gg.id = id).foldl (fun a gg => stopEntry why gg a) gs :=
  lookup_foldl_modify (stopEntry_id why) ggs gst id

theorem map_id_foldl_stopGuest (why : PveGuest → Option String) (ggs : List PveGuest)
    (gst : List GuestEngine) :
    (ggs.foldl (stopGuest why) gst).map GuestEngine.id = gst.map GuestEngine.id :=
  map_key_foldl_modify (stopEntry_id why) ggs gst

/-- One entry as the guest loops of a call find it. -/
def refreshEntry (back : Bool) (gs : GuestEngine) : GuestEngine :=
  if back then GuestEngine.release { gs with firedNow := false } else { gs with firedNow := false }

theorem refreshEntry_id (back : Bool) (gs : GuestEngine) : (refreshEntry back gs).id = gs.id := by
  cases back with
  | false => rfl
  | true => exact release_id _

@[simp] theorem refreshEntry_firedNow (back : Bool) (gs : GuestEngine) :
    (refreshEntry back gs).firedNow = false := by
  unfold refreshEntry GuestEngine.release
  cases back <;> cases gs.fired <;> rfl

@[simp] theorem refreshEntry_fired (back : Bool) (gs : GuestEngine) :
    (refreshEntry back gs).fired = (gs.fired && !back) := by
  unfold refreshEntry GuestEngine.release
  cases back <;> cases h : gs.fired <;> simp_all

theorem refreshGuests_eq (back : Bool) (gst : List GuestEngine) :
    refreshGuests back gst = gst.map (refreshEntry back) := by
  cases back <;> simp [refreshGuests, refreshEntry, Function.comp_def]

section Guest

variable {st : PveEngine} {c : EvalCall} {i : HostIx}

/-- A rule's own trigger in a call. -/
def OwnDue (st : PveEngine) (c : EvalCall) (gg : PveGuest) : Prop :=
  TimerMet gg.onBatteryMin (edges st c) c.nowUs ∨ ChargeMet gg.chargePct c.obs

/-- The call stops guest `id` of host `i` if its latch is open: the host is enabled and open, and
    a rule for the guest is due itself or the host is. -/
def GuestDue (st : PveEngine) (c : EvalCall) (i : HostIx) (id : Int) : Prop :=
  st.fired i = false ∧ (c.cfg.hosts i).enabled = true ∧
    ∃ gg ∈ c.guests i, gg.id = id ∧ (OwnDue st c gg ∨ HostDue st c i)

/-- A guest that is due is due in a call that releases nothing. -/
theorem GuestDue.back (h : c.cfg.enabled = true) {id : Int} (hd : GuestDue st c i id) :
    c.back st = false := by
  obtain ⟨-, -, gg, -, -, hd | hd⟩ := hd
  · exact back_eq_false_of_due h hd
  · exact back_eq_false_of_due h hd

theorem guests_evalCall (h : c.cfg.enabled = true) :
    (evalCall st c).1.guests i = (hostRound st c i).1.guests := by
  rw [← pveEval_slot h i]
  rfl

theorem sweepReason_ne_empty {nodeReason text : String} {gg : PveGuest}
    (h : sweepReason nodeReason gg = some text) : text ≠ "" := by
  obtain rfl := Option.some.inj h
  exact fit_ne_empty (by decide) (append_ne_empty (append_ne_empty (by decide)))

/-- The entry of one id after the loop over the guests' own triggers. -/
theorem lookup_ownFired {id : Int} {a : GuestEngine}
    (ha : findGuestState (st.guests i) id = some a) :
    ∃ r, findGuestState (ownFired st c i) id = some r ∧
      ((r = refreshEntry (c.back st) a ∧ ((refreshEntry (c.back st) a).fired = true ∨
          ∀ gg ∈ c.guests i, gg.id = id → ¬ OwnDue st c gg)) ∨
        ((refreshEntry (c.back st) a).fired = false ∧ ∃ gg ∈ c.guests i, gg.id = id ∧
          OwnDue st c gg ∧ ∃ text, text ≠ "" ∧ r = (refreshEntry (c.back st) a).latch text)) := by
  have hl : findGuestState (refreshed st c i) id = some (refreshEntry (c.back st) a) := by
    rw [refreshed, refreshGuests_eq, findGuestState, lookup_map (refreshEntry_id _)]
    exact congrArg _ ha
  rw [ownFired, lookup_foldl_stopGuest, hl]
  refine ⟨_, rfl, ?_⟩
  cases hf : (refreshEntry (c.back st) a).fired with
  | true => exact .inl ⟨foldl_stopEntry_of_fired hf _, .inl rfl⟩
  | false =>
      rcases foldl_stopEntry hf ((c.guests i).filter fun gg => gg.id = id) with
        ⟨hno, he⟩ | ⟨gg, hgg, text, hw, he⟩
      · refine .inl ⟨he, .inr fun gg hgg hid hd => ?_⟩
        obtain ⟨why, hw⟩ := (triggerMet_isSome_iff guestReasonSz).mpr hd
        have := hno gg (List.mem_filter.mpr ⟨hgg, by simpa using hid⟩)
        rw [guestTrigger, hw] at this
        simp at this
      · obtain ⟨hmem, hid⟩ := List.mem_filter.mp hgg
        refine .inr ⟨rfl, gg, hmem, by simpa using hid, ?_, text, ?_, he⟩
        · exact (triggerMet_isSome_iff guestReasonSz).mp ⟨text, hw⟩
        · exact triggerMet_ne_empty (by decide) hw

/-- **What a call does to the state of one guest id** (the first entry that carries it): it is
    latched, with a reason, exactly when its latch is open and it is due; else it is only
    refreshed. -/
theorem evalCall_guest (h : c.cfg.enabled = true) {id : Int} {a : GuestEngine}
    (ha : findGuestState (st.guests i) id = some a) :
    ∃ r, findGuestState ((evalCall st c).1.guests i) id = some r ∧
      ((r = refreshEntry (c.back st) a ∧ ¬ (a.fired = false ∧ GuestDue st c i id)) ∨
        (a.fired = false ∧ GuestDue st c i id ∧ ∃ text, text ≠ "" ∧
          r = (refreshEntry (c.back st) a).latch text)) := by
  have hl : findGuestState (refreshed st c i) id = some (refreshEntry (c.back st) a) := by
    rw [refreshed, refreshGuests_eq, findGuestState, lookup_map (refreshEntry_id _)]
    exact congrArg _ ha
  have hopen : (refreshEntry (c.back st) a).fired = false → GuestDue st c i id →
    a.fired = false := by
    intro hf hd
    simpa [hd.back h] using hf
  have hclosed : (refreshEntry (c.back st) a).fired = true → ¬ (a.fired = false) := by
    intro hf ha'
    simp [ha'] at hf
  rw [guests_evalCall h]
  rcases hostRound_cases st c i with ⟨hf, _, hr⟩ | ⟨hf, he, hr⟩ | ⟨hf, he, ht, hr⟩ |
    ⟨hf, he, why, ht, hr⟩
  · exact ⟨_, by rw [hr]; exact hl, .inl ⟨rfl, fun hd => by rw [hd.2.1] at hf; cases hf⟩⟩
  · exact ⟨_, by rw [hr]; exact hl, .inl ⟨rfl, fun hd => by rw [hd.2.2.1] at he; cases he⟩⟩
  · -- not due itself: only the guests' own triggers count
    have hnd : ¬ HostDue st c i := fun hd => by
      obtain ⟨why, hw⟩ := hostTrigger_isSome_iff.mpr hd
      simp [ht] at hw
    obtain ⟨r, hrl, ⟨rfl, hno⟩ | ⟨hfr, gg, hgg, hid, hd, htext⟩⟩ := lookup_ownFired (c := c) ha
    · refine ⟨_, by rw [hr]; exact hrl, .inl ⟨rfl, fun hd => ?_⟩⟩
      obtain ⟨gg, hgg, hid, hd'⟩ := hd.2.2.2
      rcases hno with hno | hno
      · exact hclosed hno hd.1
      · exact hd'.elim (hno gg hgg hid) hnd
    · have hdue : GuestDue st c i id := ⟨hf, he, gg, hgg, hid, .inl hd⟩
      exact ⟨r, by rw [hr]; exact hrl, .inr ⟨hopen hfr hdue, hdue, htext⟩⟩
  · -- the host fires: whoever its rules name and is still open goes with it
    have hhd : HostDue st c i := hostTrigger_isSome_iff.mp ⟨why, ht⟩
    obtain ⟨r, hrl, hcase⟩ := lookup_ownFired (c := c) ha
    rw [hr]
    simp only [lookup_foldl_stopGuest, hrl, Option.map_some]
    refine ⟨_, rfl, ?_⟩
    rcases hcase with ⟨rfl, -⟩ | ⟨hfr, gg, hgg, hid, hd, text, htext, rfl⟩
    · cases hfr : (refreshEntry (c.back st) a).fired with
      | true =>
          refine .inl ⟨foldl_stopEntry_of_fired hfr _, fun hd => hclosed hfr hd.1⟩
      | false =>
          rcases foldl_stopEntry hfr ((c.guests i).filter fun gg => gg.id = id) with
            ⟨hno, he'⟩ | ⟨gg, hgg, text, hw, he'⟩
          · refine .inl ⟨he', fun hd => ?_⟩
            obtain ⟨gg, hgg, hid, -⟩ := hd.2.2.2
            have := hno gg (List.mem_filter.mpr ⟨hgg, by simpa using hid⟩)
            simp [sweepReason] at this
          · obtain ⟨hmem, hid⟩ := List.mem_filter.mp hgg
            have hdue : GuestDue st c i id := ⟨hf, he, gg, hmem, by simpa using hid, .inr hhd⟩
            exact .inr ⟨hopen hfr hdue, hdue, text, sweepReason_ne_empty hw, he'⟩
    · have hdue : GuestDue st c i id := ⟨hf, he, gg, hgg, hid, .inl hd⟩
      refine .inr ⟨hopen hfr hdue, hdue, text, htext, ?_⟩
      exact foldl_stopEntry_of_fired (latch_fired _ text) _

/-- A call neither adds nor drops an entry. -/
theorem map_id_evalCall (st : PveEngine) (c : EvalCall) (i : HostIx) :
    ((evalCall st c).1.guests i).map GuestEngine.id = (st.guests i).map GuestEngine.id := by
  have hrf : (refreshed st c i).map GuestEngine.id = (st.guests i).map GuestEngine.id := by
    rw [refreshed, refreshGuests_eq, List.map_map]
    exact List.map_congr_left fun gs _ => refreshEntry_id _ gs
  have hown : (ownFired st c i).map GuestEngine.id = (st.guests i).map GuestEngine.id := by
    rw [ownFired, map_id_foldl_stopGuest, hrf]
  cases h : c.cfg.enabled with
  | false =>
      rw [evalCall_off h]
  | true =>
      rw [guests_evalCall h]
      rcases hostRound_cases st c i with ⟨-, _, hr⟩ | ⟨-, -, hr⟩ | ⟨-, -, -, hr⟩ |
        ⟨-, -, why, -, hr⟩ <;> rw [hr]
      · exact hrf
      · exact hrf
      · exact hown
      · rw [map_id_foldl_stopGuest, hown]

/-- After a call with the feature on only the first entry of an id can carry `fired_now`. -/
theorem onlyFirst_firedNow (h : c.cfg.enabled = true) :
    OnlyFirst GuestEngine.id (fun gs => gs.firedNow = true) ((evalCall st c).1.guests i) := by
  have hrf : OnlyFirst GuestEngine.id (fun gs => gs.firedNow = true) (refreshed st c i) := by
    refine OnlyFirst.of_none fun gs hgs => ?_
    rw [refreshed, refreshGuests_eq] at hgs
    obtain ⟨gs', -, rfl⟩ := List.mem_map.mp hgs
    simp
  have hown := hrf.foldl_modify PveGuest.id
    (stopEntry_id (guestTrigger (edges st c) c.obs c.nowUs)) (c.guests i)
  rw [guests_evalCall h]
  rcases hostRound_cases st c i with ⟨-, _, hr⟩ | ⟨-, -, hr⟩ | ⟨-, -, -, hr⟩ |
    ⟨-, -, why, -, hr⟩ <;> rw [hr]
  · exact hrf
  · exact hrf
  · exact hown
  · exact OnlyFirst.foldl_modify PveGuest.id (stopEntry_id (sweepReason why)) (c.guests i) hown

end Guest

end NutBluetti.Pve
