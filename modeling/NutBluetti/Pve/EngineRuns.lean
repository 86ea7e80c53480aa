/-
  File:      NutBluetti/Pve/EngineRuns.lean
  Subject:   RUNS OF THE ENGINE: any sequence of `pve_eval` calls and guest-list edits
             (`pve_engine_sync_guests`), with the configuration free to change from call to call.

  * `outageClock_runOps`, `mainsClock_runOps` -- the two clocks are stopwatches over the calls;
  * **`host_reported_iff`** -- when a host is reported, in terms of the whole history of
    observations: the first battery reading of the outage, not the latest one, starts its time;
  * **`refire_needs_mains`** -- between two firings of a host, or of a guest that stays in its list,
    lies an unbroken stretch of mains as long as the configuration asks for;
  * **`sweep_misses_no_guest`** -- a latched host has all its guests latched, and the firing of a
    host stops each open guest once.
-/
import NutBluetti.Lib.StepMachine
import NutBluetti.Pve.EngineSpec

namespace NutBluetti.Pve

open CText KeyedList

/-! ## 1. Runs -/

/-- What happens to an engine: a call, or an edit of one host's guest list. -/
inductive EngineOp where
  | eval (c : EvalCall)
  | sync (i : HostIx) (cfgGuests : List PveGuest)

/-- An edit of host `i`'s guest list. -/
def PveEngine.sync (st : PveEngine) (i : HostIx) (cfgGuests : List PveGuest) : PveEngine :=
  { st with guests := Function.update st.guests i (pveEngineSyncGuests (st.guests i) cfgGuests) }

def EngineOp.apply (st : PveEngine) : EngineOp → PveEngine
  | .eval c => (evalCall st c).1
  | .sync i cfgGuests => st.sync i cfgGuests

def EngineOp.call? : EngineOp → Option EvalCall
  | .eval c => some c
  | .sync _ _ => none

def runOps (st : PveEngine) (ops : List EngineOp) : PveEngine :=
  ops.foldl EngineOp.apply st

/-- The calls of a run, in order. -/
def calls (ops : List EngineOp) : List EvalCall :=
  ops.filterMap EngineOp.call?

@[simp] theorem runOps_nil (st : PveEngine) : runOps st [] = st := rfl

@[simp] theorem runOps_cons (st : PveEngine) (op : EngineOp) (ops : List EngineOp) :
    runOps st (op :: ops) = runOps (op.apply st) ops := rfl

theorem runOps_append (st : PveEngine) (ops ops' : List EngineOp) :
    runOps st (ops ++ ops') = runOps (runOps st ops) ops' := by
  simp [runOps, List.foldl_append]

@[simp] theorem calls_nil : calls [] = [] := rfl

@[simp] theorem calls_cons_eval (c : EvalCall) (ops : List EngineOp) :
    calls (.eval c :: ops) = c :: calls ops := rfl

@[simp] theorem calls_cons_sync (i : HostIx) (l : List PveGuest) (ops : List EngineOp) :
    calls (.sync i l :: ops) = calls ops := rfl

theorem calls_append (ops ops' : List EngineOp) : calls (ops ++ ops') = calls ops ++ calls ops' :=
  List.filterMap_append ..

@[simp] theorem fired_sync (st : PveEngine) (i : HostIx) (l : List PveGuest) :
    (st.sync i l).fired = st.fired := rfl

@[simp] theorem guests_sync_self (st : PveEngine) (i : HostIx) (l : List PveGuest) :
    (st.sync i l).guests i = pveEngineSyncGuests (st.guests i) l := by
  simp [PveEngine.sync]

theorem guests_sync_of_ne {i j : HostIx} (h : j ≠ i) (st : PveEngine) (l : List PveGuest) :
    (st.sync i l).guests j = st.guests j := by
  simp [PveEngine.sync, Function.update_of_ne h]

theorem freshGuest_firedNow (stGuests : List GuestEngine) (g : PveGuest) :
    (freshGuest stGuests g).firedNow = false := by
  unfold freshGuest
  split <;> rfl

theorem freshGuest_id (stGuests : List GuestEngine) (g : PveGuest) :
    (freshGuest stGuests g).id = g.id := by
  unfold freshGuest
  split <;> rfl

/-- The latch of an id that was tracked before an edit follows it. -/
theorem freshGuest_fired_of {stGuests : List GuestEngine} {g : PveGuest} {a : GuestEngine}
    (ha : findGuestState stGuests g.id = some a) {b : Bool} (hf : a.fired = b) :
    (freshGuest stGuests g).fired = b := by
  rw [freshGuest, ha]
  exact hf

/-- After an edit an id finds fresh state for the first rule that carries it. -/
theorem findGuestState_sync (stGuests : List GuestEngine) (l : List PveGuest) (id : Int) :
    findGuestState (pveEngineSyncGuests stGuests l) id =
      (lookup PveGuest.id id l).map (freshGuest stGuests) :=
  lookup_map (freshGuest_id stGuests) id l

/-- The outage clock after a run is the stopwatch over its calls. -/
theorem outageClock_runOps (st : PveEngine) (ops : List EngineOp) :
    outageClock (runOps st ops) =
      Stopwatch.readingFrom EndsOutage ShowsBattery EvalCall.nowUs (outageClock st)
        (calls ops) := by
  induction ops generalizing st with
  | nil => rfl
  | cons op ops ih =>
      rw [runOps_cons, ih]
      cases op with
      | eval c =>
          show Stopwatch.readingFrom _ _ _ (outageClock (evalCall st c).1) _ = _
          rw [outageClock_pveEval]
          rfl
      | sync i l => rfl

/-- The mains clock after a run is the stopwatch over its calls. -/
theorem mainsClock_runOps (st : PveEngine) (ops : List EngineOp) :
    mainsClock (runOps st ops) = Stopwatch.readingFrom (fun c => ¬ ShowsMains c) ShowsMains
      EvalCall.nowUs (mainsClock st) (calls ops) := by
  induction ops generalizing st with
  | nil => rfl
  | cons op ops ih =>
      rw [runOps_cons, ih]
      cases op with
      | eval c =>
          show Stopwatch.readingFrom _ _ _ (mainsClock (evalCall st c).1) _ = _
          rw [mainsClock_pveEval]
          rfl
      | sync i l => rfl

/-! ## 2. When a host is reported -/

/-- The outage known to a history of calls has lasted `m` minutes at `nowUs`: it began with the
    FIRST battery reading after the last call that saw the mains or had the feature off. -/
def OutageLasts (hist : List EvalCall) (m : UInt16) (nowUs : Int) : Prop :=
  0 < m.toNat ∧ ∃ b, Stopwatch.FirstSince EndsOutage ShowsBattery hist b ∧
    b.nowUs ≤ nowUs - m.toNat * usPerMin

theorem timerMet_iff_outageLasts (ops : List EngineOp) {c : EvalCall} (h : c.cfg.enabled = true)
    (m : UInt16) : TimerMet m (edges (runOps PveEngine.zero ops) c) c.nowUs ↔
      OutageLasts (calls ops ++ [c]) m c.nowUs := by
  have hread : outageClock (evalCall (runOps PveEngine.zero ops) c).1 =
      Stopwatch.reading EndsOutage ShowsBattery EvalCall.nowUs (calls ops ++ [c]) := by
    rw [outageClock_pveEval, outageClock_runOps]
    exact (Stopwatch.readingFrom_snoc _ _ _).symm
  rw [timerMet_edges_iff h, hread, OutageLasts]
  simp only [Stopwatch.reading_eq_some_iff]
  constructor
  · intro ht
    obtain ⟨hm, t, ⟨b, hb, rfl⟩, hle⟩ := ht
    exact ⟨hm, b, hb, hle⟩
  · intro ht
    obtain ⟨hm, b, hb, hle⟩ := ht
    exact ⟨hm, b.nowUs, ⟨b, hb, rfl⟩, hle⟩

/-- An unknown reading neither starts an outage nor ends one. -/
theorem outageLasts_snoc_unknown {hist : List EvalCall} {c : EvalCall} (h : c.cfg.enabled = true)
    (hu : c.obs.power = .unknown) (m : UInt16) (nowUs : Int) :
    OutageLasts (hist ++ [c]) m nowUs ↔ OutageLasts hist m nowUs := by
  have hr : ¬ EndsOutage c := by simp [EndsOutage, h, hu]
  have hs : ¬ ShowsBattery c := by simp [ShowsBattery, hu]
  simp [OutageLasts, Stopwatch.firstSince_snoc_iff, hr, hs]

/-- **When a host is reported**: from a zeroed engine, after any run, a call reports host `i`
    exactly when the feature and the host are on, the host is not latched, and either the outage of
    the history has lasted the host's minutes or the charge, read live on battery, is at its limit.
    An unknown reading leaves the outage clock as it is and reports a host only for an outage the
    calls before it had begun. -/
theorem host_reported_iff (ops : List EngineOp) (c : EvalCall) (i : HostIx) :
    let st := runOps PveEngine.zero ops
    ((evalCall st c).2.hosts i = true ↔
      c.cfg.enabled = true ∧ (c.cfg.hosts i).enabled = true ∧ st.fired i = false ∧
        (OutageLasts (calls ops ++ [c]) (c.cfg.hosts i).onBatteryMin c.nowUs ∨
          ChargeMet (c.cfg.hosts i).chargePct c.obs)) ∧
    (c.cfg.enabled = true → c.obs.power = .unknown →
      outageClock (evalCall st c).1 = outageClock st ∧
        ((evalCall st c).2.hosts i = true →
          OutageLasts (calls ops) (c.cfg.hosts i).onBatteryMin c.nowUs)) := by
  intro st
  have hiff : (evalCall st c).2.hosts i = true ↔
      c.cfg.enabled = true ∧ (c.cfg.hosts i).enabled = true ∧ st.fired i = false ∧
        (OutageLasts (calls ops ++ [c]) (c.cfg.hosts i).onBatteryMin c.nowUs ∨
          ChargeMet (c.cfg.hosts i).chargePct c.obs) := by
    rw [evalCall_hosts_iff]
    refine and_congr_right fun h => ?_
    rw [HostDue, timerMet_iff_outageLasts ops h]
  refine ⟨hiff, fun h hu => ⟨?_, fun hrep => ?_⟩⟩
  · rw [outageClock_pveEval]
    simp [Stopwatch.tick, EndsOutage, ShowsBattery, h, hu]
  · obtain ⟨-, -, -, ht | hc⟩ := hiff.mp hrep
    · exact (outageLasts_snoc_unknown h hu _ _).mp ht
    · rw [hc.1] at hu
      cases hu

/-! ## 3. A latch is closed until the mains has been back -/

/-- A stretch of mains in a history: a call that asks for `m > 0` minutes of it, an earlier call at
    least `m` minutes before, and every call from the one to the other sees the mains. -/
def MainsWindow (hist : List EvalCall) : Prop :=
  ∃ before first mid last after, hist = before ++ first :: (mid ++ last :: after) ∧
    0 < last.cfg.mainsBackMin.toNat ∧
    first.nowUs ≤ last.nowUs - last.cfg.mainsBackMin.toNat * usPerMin ∧
    ∀ x ∈ first :: (mid ++ [last]), x.obs.power = .line

theorem MainsWindow.append {hist : List EvalCall} (h : MainsWindow hist) (tail : List EvalCall) :
    MainsWindow (hist ++ tail) := by
  obtain ⟨before, first, mid, last, after, rfl, h1, h2, h3⟩ := h
  exact ⟨before, first, mid, last, after ++ tail, by simp, h1, h2, h3⟩

theorem not_mainsWindow {hist : List EvalCall} (h : ∀ c ∈ hist, c.cfg.mainsBackMin.toNat = 0) :
    ¬ MainsWindow hist := by
  intro hw
  obtain ⟨before, first, mid, last, after, rfl, h1, -, -⟩ := hw
  have := h last (by simp)
  omega

/-- **A release is earned**: a call that releases the latches, after a run from a state whose mains
    clock is stopped, closes a stretch of mains in the history. -/
theorem mainsWindow_of_back {st : PveEngine} (hst : mainsClock st = none) (ops : List EngineOp)
    {c : EvalCall} (h : c.cfg.enabled = true) (hb : c.back (runOps st ops) = true) :
    MainsWindow (calls ops ++ [c]) := by
  obtain ⟨hm, t, ht, hle⟩ := (back_iff h).mp hb
  have hread : Stopwatch.readingFrom (fun c => ¬ ShowsMains c) ShowsMains EvalCall.nowUs none
      (calls ops ++ [c]) = some t := by
    rw [Stopwatch.readingFrom_snoc, ← hst, ← mainsClock_runOps, ← mainsClock_pveEval]
    exact ht
  obtain ⟨hno, -⟩ | ⟨before, b, after, hl, rfl, hsb, hall⟩ :=
    Stopwatch.reading_unbroken (fun _ hs => hs) hread
  · cases hno
  · have hpos : 0 < (c.cfg.mainsBackMin.toNat : Int) * usPerMin := by
      have : 0 < usPerMin := by decide
      exact Int.mul_pos (by omega) this
    rcases List.eq_nil_or_concat after with rfl | ⟨mid, last, rfl⟩
    · -- the stretch would be the releasing call alone, but that call is not earlier than itself
      have hcb : c = b := by simpa using (List.append_inj' hl rfl).2
      rw [hcb] at hpos hle
      omega
    · have hl' : calls ops ++ [c] = (before ++ b :: mid) ++ [last] := by simpa using hl
      have hcl : c = last := by simpa using (List.append_inj' hl' rfl).2
      refine ⟨before, b, mid, last, [], by simpa using hl, hcl ▸ hm, hcl ▸ hle, ?_⟩
      refine List.forall_mem_cons.mpr ⟨hsb.2, fun x hx => ?_⟩
      exact (hall x (by simpa using hx)).2

/-- **What only a release opens, stays closed until a stretch of mains**: if `closed` holds at the
    beginning of a run and not at its end, and no step but a releasing call undoes it, then the
    history of the run has a stretch of mains. -/
theorem mainsWindow_of_opened (closed : PveEngine → Prop) (ops : List EngineOp) {st : PveEngine}
    (hstep : ∀ st, ∀ op ∈ ops, closed st → ¬ closed (op.apply st) →
      ∃ c, op = .eval c ∧ c.cfg.enabled = true ∧ c.back st = true)
    (hst : mainsClock st = none) (h0 : closed st) (h1 : ¬ closed (runOps st ops)) :
    MainsWindow (calls ops) := by
  obtain ⟨pre, op, post, rfl, hclosed, hopen⟩ := StepMachine.exists_lost (P := closed) h0 h1
  obtain ⟨c, rfl, h, hb⟩ := hstep _ op (by simp) hclosed hopen
  have hwindow : MainsWindow (calls pre ++ [c]) := mainsWindow_of_back hst pre h hb
  rw [calls_append, calls_cons_eval, List.append_cons]
  exact hwindow.append (calls post)

/-- Host `i` fires at a call. -/
def HostFires (st : PveEngine) (c : EvalCall) (i : HostIx) : Prop :=
  (evalCall st c).2.hosts i = true

/-- Guest `id` of host `i` fires at a call: an entry for it comes out with `fired_now`. -/
def GuestFires (st : PveEngine) (c : EvalCall) (i : HostIx) (id : Int) : Prop :=
  ∃ gs ∈ (evalCall st c).1.guests i, gs.id = id ∧ gs.firedNow = true

instance (st : PveEngine) (c : EvalCall) (i : HostIx) : Decidable (HostFires st c i) :=
  inferInstanceAs (Decidable (_ = _))

instance (st : PveEngine) (c : EvalCall) (i : HostIx) (id : Int) :
    Decidable (GuestFires st c i id) :=
  inferInstanceAs (Decidable (∃ gs ∈ (evalCall st c).1.guests i, gs.id = id ∧ gs.firedNow = true))

/-- The latch of guest `id` of host `i` (of the entry `find_guest_state` points at) is closed. -/
def GuestLatched (st : PveEngine) (i : HostIx) (id : Int) : Prop :=
  ∃ gs, findGuestState (st.guests i) id = some gs ∧ gs.fired = true

/-- Every edit of host `i`'s list keeps guest `id` in it. -/
def KeepsGuest (i : HostIx) (id : Int) (ops : List EngineOp) : Prop :=
  ∀ l, .sync i l ∈ ops → id ∈ l.map PveGuest.id

section Refire

variable {st : PveEngine} {c : EvalCall} {i : HostIx} {id : Int}

/-- A firing guest is the entry its id finds; its latch was open and closes, in a call that stops
    the mains clock. -/
theorem guestFires_spec (h : c.cfg.enabled = true) (hf : GuestFires st c i id) :
    ¬ GuestLatched st i id ∧ GuestLatched (evalCall st c).1 i id ∧
      mainsClock (evalCall st c).1 = none := by
  obtain ⟨gs, hgs, hid, hnow⟩ := hf
  have hlook : findGuestState ((evalCall st c).1.guests i) id = some gs := by
    have := (onlyFirst_firedNow h).lookup hgs hnow
    rwa [hid] at this
  have hmem : id ∈ (st.guests i).map GuestEngine.id := by
    rw [← map_id_evalCall st c i, ← hid]
    exact List.mem_map_of_mem hgs
  obtain ⟨a, ha⟩ := exists_lookup_iff.mpr hmem
  obtain ⟨r, hr, hcase⟩ := evalCall_guest h ha
  obtain rfl : r = gs := Option.some.inj (hr.symm.trans hlook)
  rcases hcase with ⟨rfl, -⟩ | ⟨hopen, hdue, text, -, rfl⟩
  · simp at hnow
  · refine ⟨?_, ⟨_, hr, rfl⟩, ?_⟩
    · intro hl
      obtain ⟨a', ha', hfired⟩ := hl
      obtain rfl : a' = a := Option.some.inj (ha'.symm.trans ha)
      rw [hopen] at hfired
      cases hfired
    · obtain ⟨-, -, gg, -, -, hd | hd⟩ := hdue
      · exact mainsClock_eq_none_of_due h hd
      · exact mainsClock_eq_none_of_due h hd

/-- A firing host's latch was open and closes, in a call that stops the mains clock. -/
theorem hostFires_spec (hf : HostFires st c i) :
    st.fired i = false ∧ (evalCall st c).1.fired i = true ∧
      mainsClock (evalCall st c).1 = none := by
  have hf' : (evalCall st c).2.hosts i = true := hf
  obtain ⟨h, -, hopen, hdue⟩ := evalCall_hosts_iff.mp hf'
  refine ⟨hopen, ?_, mainsClock_eq_none_of_due h hdue⟩
  rw [evalCall_fired h, hf', Bool.or_true]

/-- Only a releasing call opens a host's latch. -/
theorem host_opened {op : EngineOp} (hc : st.fired i = true) (ho : ¬ (op.apply st).fired i = true) :
    ∃ c, op = .eval c ∧ c.cfg.enabled = true ∧ c.back st = true := by
  cases op with
  | sync j l => exact absurd hc ho
  | eval c =>
      cases h : c.cfg.enabled with
      | false =>
          have : (evalCall st c).1.fired i = st.fired i := by rw [evalCall_off h]
          exact absurd (this.trans hc) ho
      | true =>
          refine ⟨c, rfl, h, ?_⟩
          have hf : (evalCall st c).1.fired i = _ := evalCall_fired h
          cases hb : c.back st with
          | true => rfl
          | false => exact absurd (by simp [EngineOp.apply, hf, hc, hb]) ho

/-- Only a releasing call opens the latch of a guest that stays in its list. -/
theorem guest_opened {op : EngineOp} (hkeep : ∀ l, op = .sync i l → id ∈ l.map PveGuest.id)
    (hc : GuestLatched st i id) (ho : ¬ GuestLatched (op.apply st) i id) :
    ∃ c, op = .eval c ∧ c.cfg.enabled = true ∧ c.back st = true := by
  obtain ⟨a, ha, hfired⟩ := hc
  cases op with
  | sync j l =>
      refine absurd ?_ ho
      by_cases hij : i = j
      · subst hij
        obtain ⟨gg, hgg⟩ := exists_lookup_iff.mpr (hkeep l rfl)
        refine ⟨freshGuest (st.guests i) gg, ?_, freshGuest_fired_of ?_ hfired⟩
        · show findGuestState ((st.sync i l).guests i) id = _
          rw [guests_sync_self, findGuestState_sync, hgg]
          rfl
        · rw [key_of_lookup hgg]
          exact ha
      · exact ⟨a, by rw [EngineOp.apply, guests_sync_of_ne hij]; exact ha, hfired⟩
  | eval c =>
      cases h : c.cfg.enabled with
      | false =>
          refine absurd ⟨a, ?_, hfired⟩ ho
          show findGuestState ((evalCall st c).1.guests i) id = some a
          rw [evalCall_off h]
          exact ha
      | true =>
          refine ⟨c, rfl, h, ?_⟩
          by_contra hb
          have hb : c.back st = false := by simpa using hb
          obtain ⟨r, hr, ⟨rfl, -⟩ | ⟨hopen, -⟩⟩ := evalCall_guest (c := c) h ha
          · exact ho ⟨_, hr, by simp [hfired, hb]⟩
          · rw [hfired] at hopen
            cases hopen

end Refire

/-- **No second firing without the mains back**: in any run, from any engine, with the feature on
    throughout, if host `i` fires at two calls, or a guest that every edit between them keeps in
    the list does, then the calls between them have a stretch of mains of the minutes some call of
    it asks for. With `mains_back_min` at 0 between them there is no second firing. -/
theorem refire_needs_mains (st : PveEngine) (pre mid : List EngineOp) (c c' : EvalCall) (i : HostIx)
    (hon : ∀ x ∈ calls (pre ++ .eval c :: (mid ++ [.eval c'])), x.cfg.enabled = true) :
    let st₁ := runOps st pre
    let st₂ := runOps st (pre ++ .eval c :: mid)
    (HostFires st₁ c i → HostFires st₂ c' i → MainsWindow (calls mid)) ∧
      (∀ id, KeepsGuest i id mid → GuestFires st₁ c i id → GuestFires st₂ c' i id →
        MainsWindow (calls mid)) ∧
      ((∀ x ∈ calls mid, x.cfg.mainsBackMin.toNat = 0) →
        ¬ (HostFires st₁ c i ∧ HostFires st₂ c' i) ∧
          ∀ id, KeepsGuest i id mid → ¬ (GuestFires st₁ c i id ∧ GuestFires st₂ c' i id)) := by
  intro st₁ st₂
  have hc : c.cfg.enabled = true := hon c (by simp [calls_append])
  have hc' : c'.cfg.enabled = true := hon c' (by simp [calls_append])
  have hst₂ : st₂ = runOps (evalCall st₁ c).1 mid := by
    show runOps st (pre ++ .eval c :: mid) = _
    rw [runOps_append]
    rfl
  have hhost : HostFires st₁ c i → HostFires st₂ c' i → MainsWindow (calls mid) := by
    intro h1 h2
    obtain ⟨-, hclosed, hclock⟩ := hostFires_spec h1
    obtain ⟨hopen, -, -⟩ := hostFires_spec h2
    rw [hst₂] at hopen
    exact mainsWindow_of_opened (fun st => st.fired i = true) mid
      (fun _ _ _ => host_opened) hclock hclosed (by simp [hopen])
  have hguest : ∀ id, KeepsGuest i id mid → GuestFires st₁ c i id → GuestFires st₂ c' i id →
      MainsWindow (calls mid) := by
    intro id hkeep h1 h2
    obtain ⟨-, hclosed, hclock⟩ := guestFires_spec hc h1
    obtain ⟨hopen, -, -⟩ := guestFires_spec hc' h2
    rw [hst₂] at hopen
    exact mainsWindow_of_opened (fun st => GuestLatched st i id) mid
      (fun _ op hop => guest_opened fun l hl => hkeep l (hl ▸ hop)) hclock hclosed hopen
  refine ⟨hhost, hguest, fun hm => ⟨fun h => ?_, fun id hkeep h => ?_⟩⟩
  · exact not_mainsWindow hm (hhost h.1 h.2)
  · exact not_mainsWindow hm (hguest id hkeep h.1 h.2)

/-! A host with one guest of its own: both fire on a low charge, the mains is back for two minutes,
    both fire again. -/

def flapCfg : PveConfig :=
  ⟨true, true, 2, fun _ => ⟨true, "https://10.0.0.10", "pve1", "ups@pve", "s", true, "AB", 0, 20⟩⟩

def flapCall (power : PvePower) (min : Int) : EvalCall :=
  ⟨flapCfg, fun _ => [⟨101, 0, 30⟩], ⟨power, 15⟩, min * usPerMin⟩

def flapMid : List EngineOp :=
  [.eval (flapCall .line 1), .sync 0 [⟨101, 0, 30⟩], .eval (flapCall .line 2),
    .eval (flapCall .line 3)]

def flapBefore : PveEngine :=
  runOps PveEngine.zero [.sync 0 [⟨101, 0, 30⟩]]

def flapAfter : PveEngine :=
  runOps PveEngine.zero ([.sync 0 [⟨101, 0, 30⟩]] ++ .eval (flapCall .battery 0) :: flapMid)

theorem refire_needs_mains_flap :
    HostFires flapBefore (flapCall .battery 0) 0 ∧ HostFires flapAfter (flapCall .battery 4) 0 ∧
      GuestFires flapBefore (flapCall .battery 0) 0 101 ∧
      GuestFires flapAfter (flapCall .battery 4) 0 101 ∧ MainsWindow (calls flapMid) := by
  have hon : ∀ x ∈ calls ([.sync 0 [⟨101, 0, 30⟩]] ++ .eval (flapCall .battery 0) ::
      (flapMid ++ [.eval (flapCall .battery 4)])), x.cfg.enabled = true := by
    intro x hx
    simp only [flapMid, calls_cons_sync, calls_cons_eval, calls_nil, List.cons_append,
      List.nil_append, List.mem_cons, List.not_mem_nil, or_false] at hx
    rcases hx with rfl | rfl | rfl | rfl | rfl <;> rfl
  have hkeep : KeepsGuest 0 101 flapMid := by
    intro l hl
    simp only [flapMid, List.mem_cons, reduceCtorEq, List.not_mem_nil, or_false, false_or,
      EngineOp.sync.injEq, true_and] at hl
    rw [hl]
    decide
  have hg1 : GuestFires flapBefore (flapCall .battery 0) 0 101 := by decide
  have hg2 : GuestFires flapAfter (flapCall .battery 4) 0 101 := by decide
  exact ⟨by decide, by decide, hg1, hg2,
    (refire_needs_mains PveEngine.zero [.sync 0 [⟨101, 0, 30⟩]] flapMid (flapCall .battery 0)
      (flapCall .battery 4) 0 hon).2.1 101 hkeep hg1 hg2⟩

/-! ## 4. The sweep -/

/-- A zeroed engine whose guest states were matched to the lists, as at start-up. -/
def synced (lists : GuestLists) : PveEngine :=
  { PveEngine.zero with guests := fun i => pveEngineSyncGuests [] (lists i) }

/-- What varies from call to call where the guest lists stay. -/
structure Reading where
  cfg : PveConfig
  obs : PveObs
  nowUs : Int

def Reading.call (lists : GuestLists) (r : Reading) : EvalCall :=
  ⟨r.cfg, lists, r.obs, r.nowUs⟩

/-- The invariant of the sweep: the state has an entry for each rule and no other, and the guests of
    a latched host are latched. -/
structure SweepInv (lists : GuestLists) (st : PveEngine) : Prop where
  ids : ∀ i, (st.guests i).map GuestEngine.id = (lists i).map PveGuest.id
  swept : ∀ i, st.fired i = true → ∀ gg ∈ lists i, GuestLatched st i gg.id

theorem sweepInv_synced (lists : GuestLists) : SweepInv lists (synced lists) where
  ids := fun i => by
    show (pveEngineSyncGuests [] (lists i)).map GuestEngine.id = _
    rw [pveEngineSyncGuests, List.map_map]
    exact List.map_congr_left fun g _ => freshGuest_id [] g
  swept := fun i hf => by
    have hz : (synced lists).fired i = false := rfl
    rw [hz] at hf
    cases hf

section Sweep

variable {lists : GuestLists} {st : PveEngine} {r : Reading} {i : HostIx} {gg : PveGuest}

/-- Every rule has its entry. -/
theorem SweepInv.entry (hI : SweepInv lists st) (hgg : gg ∈ lists i) :
    ∃ a, findGuestState (st.guests i) gg.id = some a := by
  refine exists_lookup_iff.mpr ?_
  rw [hI.ids i]
  exact List.mem_map_of_mem hgg

/-- The firing of a host, seen from one of its guests: an open latch closes with a reason and with
    `fired_now`, a closed one stays as it is. -/
theorem sweep_guest (hf : HostFires st (r.call lists) i) (hgg : gg ∈ lists i) {a : GuestEngine}
    (ha : findGuestState (st.guests i) gg.id = some a) :
    ∃ gs, findGuestState ((evalCall st (r.call lists)).1.guests i) gg.id = some gs ∧
      gs.fired = true ∧ gs.firedNow = !a.fired ∧ (a.fired = false → gs.reason ≠ "") := by
  obtain ⟨h, he, hopen, hdue⟩ := evalCall_hosts_iff.mp hf
  have hb := back_eq_false_of_due h hdue
  have hgd : GuestDue st (r.call lists) i gg.id := ⟨hopen, he, gg, hgg, rfl, .inr hdue⟩
  obtain ⟨gs, hgs, ⟨rfl, hno⟩ | ⟨hafired, -, text, htext, rfl⟩⟩ := evalCall_guest h ha
  · have hfired : a.fired = true := by
      by_contra hne
      exact hno ⟨by simpa using hne, hgd⟩
    exact ⟨_, hgs, by simp [hfired, hb], by simp [hfired], fun h0 => by simp [hfired] at h0⟩
  · exact ⟨_, hgs, rfl, by simp [hafired, GuestEngine.latch], fun _ => htext⟩

/-- A latch that is closed survives a call that does not release. -/
theorem guestLatched_evalCall {c : EvalCall} {id : Int} (h : c.cfg.enabled = true)
    (hb : c.back st = false) (hl : GuestLatched st i id) : GuestLatched (evalCall st c).1 i id := by
  obtain ⟨a, ha, hfired⟩ := hl
  obtain ⟨gs, hgs, ⟨rfl, -⟩ | ⟨-, -, text, -, rfl⟩⟩ := evalCall_guest (c := c) h ha
  · exact ⟨_, hgs, by simp [hfired, hb]⟩
  · exact ⟨_, hgs, rfl⟩

/-- **One call keeps the invariant of the sweep.** -/
theorem SweepInv.step (hI : SweepInv lists st) : SweepInv lists (evalCall st (r.call lists)).1 where
  ids := fun i => (map_id_evalCall st _ i).trans (hI.ids i)
  swept := fun i hfired gg hgg => by
    cases h : (r.call lists).cfg.enabled with
    | false =>
        rw [evalCall_off h] at hfired ⊢
        exact hI.swept i hfired gg hgg
    | true =>
        by_cases hf : HostFires st (r.call lists) i
        · obtain ⟨a, ha⟩ := hI.entry hgg
          obtain ⟨gs, hgs, hgsf, -, -⟩ := sweep_guest hf hgg ha
          exact ⟨gs, hgs, hgsf⟩
        · have hf' : (evalCall st (r.call lists)).2.hosts i = false := by simpa [HostFires] using hf
          rw [evalCall_fired h, hf', Bool.or_false, Bool.and_eq_true, Bool.not_eq_true'] at hfired
          exact guestLatched_evalCall h hfired.2 (hI.swept i hfired.1 gg hgg)

theorem sweepInv_run (lists : GuestLists) (rs : List Reading) :
    SweepInv lists (runOps (synced lists) (rs.map fun r => .eval (r.call lists))) := by
  induction rs using List.reverseRecOn with
  | nil => exact sweepInv_synced lists
  | append_singleton rs r ih =>
      rw [List.map_append, runOps_append]
      exact ih.step

end Sweep

/-- **The sweep misses no guest and stops none twice**: from a zeroed engine synced to the lists,
    after every run of calls on them and at the next one: the state has one entry for each rule in
    their order; a latched host has every guest latched; and where a host fires, each of its guests
    that was open is latched with `fired_now` and a reason, each that was latched is left with
    `fired_now` clear. -/
theorem sweep_misses_no_guest (lists : GuestLists) (rs : List Reading) (r : Reading) (i : HostIx) :
    let st := runOps (synced lists) (rs.map fun r => .eval (r.call lists))
    let st' := (evalCall st (r.call lists)).1
    (st'.guests i).map GuestEngine.id = (lists i).map PveGuest.id ∧
      (st'.fired i = true → ∀ gg ∈ lists i, GuestLatched st' i gg.id) ∧
      (HostFires st (r.call lists) i → ∀ gg ∈ lists i,
        (¬ GuestLatched st i gg.id → ∃ gs, findGuestState (st'.guests i) gg.id = some gs ∧
          gs.fired = true ∧ gs.firedNow = true ∧ gs.reason ≠ "") ∧
        (GuestLatched st i gg.id → ∃ gs, findGuestState (st'.guests i) gg.id = some gs ∧
          gs.fired = true ∧ gs.firedNow = false)) := by
  intro st st'
  have hI : SweepInv lists st := sweepInv_run lists rs
  have hI' : SweepInv lists st' := hI.step
  refine ⟨hI'.ids i, hI'.swept i, fun hf gg hgg => ?_⟩
  obtain ⟨a, ha⟩ := hI.entry hgg
  obtain ⟨gs, hgs, hfired, hnow, hreason⟩ := sweep_guest hf hgg ha
  refine ⟨fun hopen => ?_, fun hl => ?_⟩
  · have hafired : a.fired = false := by
      by_contra hne
      exact hopen ⟨a, ha, by simpa using hne⟩
    exact ⟨gs, hgs, hfired, by simp [hnow, hafired], hreason hafired⟩
  · obtain ⟨a', ha', hfired'⟩ := hl
    obtain rfl : a' = a := Option.some.inj (ha'.symm.trans ha)
    exact ⟨gs, hgs, hfired, by simp [hnow, hfired']⟩

end NutBluetti.Pve
