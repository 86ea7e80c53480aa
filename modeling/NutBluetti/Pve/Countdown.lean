/-
  File:      NutBluetti/Pve/Countdown.lean
  Subject:   THE COUNTDOWNS SHOWN AND THE ENGINE THAT ACTS: `pve_countdown_s` and
             `pve_guest_countdown_s` work their deadline out beside `pve_eval`, with guards of their
             own.

  * `secondsLeft_early`, `secondsLeft_late` -- the seconds shown against the deadline, rounding
    included;
  * `quiet_run` -- a stretch of calls with the feature on and no mains keeps the outage clock and
    every closed host latch;
  * `outage_starts_of_met` -- a timer that is met with the clock stopped before has seen an outage
    start;
  * **`host_countdown_acted_on`** -- the host countdown is the one the engine acts on;
  * **`guest_countdown_acted_on_iff`** -- the guest countdown is, exactly where the guest's host is
    not latched.
-/
import NutBluetti.Lib.StepMachine
import NutBluetti.Pve.EngineOff

namespace NutBluetti.Pve

open CText KeyedList StepMachine

/-! ## 1. The seconds shown -/

section Seconds

variable {st : PveEngine} {m : UInt16} {t x : Int}

theorem secondsLeft_nonneg (st : PveEngine) (m : UInt16) (t : Int) : 0 ≤ secondsLeft st m t := by
  unfold secondsLeft
  dsimp only
  split
  · rename_i hleft
    exact Int.ediv_nonneg (by omega) (by decide)
  · exact Int.le_refl 0

/-- Before the seconds shown are over the deadline is not reached. -/
theorem secondsLeft_early (ht : t ≤ x) (hx : x < t + secondsLeft st m t * usPerS) :
    x < st.onBatterySinceUs + m.toNat * usPerMin := by
  unfold secondsLeft at hx
  dsimp only at hx
  split at hx
  · rename_i hleft
    have hdiv := Int.ediv_mul_le (st.onBatterySinceUs + m.toNat * usPerMin - t)
      (show usPerS ≠ 0 by decide)
    omega
  · omega

/-- A second after the seconds shown are over the deadline is reached: the division rounds down. -/
theorem secondsLeft_late (hx : t + (secondsLeft st m t + 1) * usPerS ≤ x) :
    st.onBatterySinceUs + m.toNat * usPerMin ≤ x := by
  unfold secondsLeft at hx
  dsimp only at hx
  split at hx
  · rename_i hleft
    have hdiv := Int.lt_ediv_add_one_mul_self (st.onBatterySinceUs + m.toNat * usPerMin - t)
      (show 0 < usPerS by decide)
    omega
  · rename_i hleft
    have : (0 : Int) < usPerS := by decide
    omega

end Seconds

/-- The countdown of host `i` runs: feature and host are on, its timer is, an outage has begun and
    the host is not latched. -/
structure HostCounts (cfg : PveConfig) (st : PveEngine) (i : HostIx) : Prop where
  on : cfg.enabled = true
  host : (cfg.hosts i).enabled = true
  timer : 0 < (cfg.hosts i).onBatteryMin.toNat
  outage : st.onBattery = true
  unlatched : st.fired i = false

/-- **`pve_countdown_s`**, case by case. -/
theorem pveCountdownS_cases (cfg : PveConfig) (st : PveEngine) (i : HostIx) (t : Int) :
    (HostCounts cfg st i ∧
        pveCountdownS cfg st i.val t = secondsLeft st (cfg.hosts i).onBatteryMin t) ∨
      (¬ HostCounts cfg st i ∧ pveCountdownS cfg st i.val t = -1) := by
  have hi : ¬ ((i.val : Int) < 0 ∨ (i.val : Int) ≥ pveMaxHosts) := by
    have := i.isLt
    omega
  have hix : (⟨(i.val : Int).toNat, by omega⟩ : HostIx) = i := Fin.ext (Int.toNat_natCast i.val)
  simp only [pveCountdownS, dif_neg hi, hix]
  by_cases hc : HostCounts cfg st i
  · refine .inl ⟨hc, if_neg ?_⟩
    have htimer := hc.timer
    simp only [hc.on, hc.host, hc.outage, hc.unlatched, Bool.not_true, Bool.false_or,
      Bool.or_false, beq_iff_eq]
    omega
  · refine .inr ⟨hc, if_pos ?_⟩
    by_contra hg
    simp only [Bool.or_eq_true, Bool.not_eq_true', beq_iff_eq, not_or, Bool.not_eq_false,
      Bool.not_eq_true] at hg
    obtain ⟨⟨⟨⟨hon, hhost⟩, htimer⟩, houtage⟩, hopen⟩ := hg
    exact hc ⟨hon, hhost, by omega, houtage, hopen⟩

/-! ## 2. Calls without mains -/

/-- A call on the configuration `cfg`, not before `t`. -/
structure After (cfg : PveConfig) (t : Int) (c : EvalCall) : Prop where
  cfg : c.cfg = cfg
  after : t ≤ c.nowUs

/-- A call that does not see the mains. -/
def NoLine (c : EvalCall) : Prop := c.obs.power ≠ .line

section Quiet

variable {st : PveEngine} {c : EvalCall} {i : HostIx} {b : Int}

theorem back_eq_false_of_noLine (h : c.cfg.enabled = true) (hl : NoLine c) : c.back st = false := by
  by_contra hb
  exact hl (showsMains_of_back h (by simpa using hb)).2

/-- A running outage clock runs on. -/
theorem outageClock_noLine (h : c.cfg.enabled = true) (hl : NoLine c)
    (hb : outageClock st = some b) : outageClock (evalCall st c).1 = some b := by
  have hno : ¬ EndsOutage c := by
    rintro (hoff | hline)
    · rw [h] at hoff
      cases hoff
    · exact hl hline
  rw [outageClock_pveEval, hb, Stopwatch.tick, if_neg hno]
  split <;> rfl

/-- A closed host latch stays closed. -/
theorem fired_noLine (h : c.cfg.enabled = true) (hl : NoLine c) (hf : st.fired i = true) :
    (evalCall st c).1.fired i = true := by
  rw [evalCall_fired h, hf, back_eq_false_of_noLine h hl]
  rfl

/-- **A stretch of calls without mains** keeps the outage clock and every closed host latch. -/
theorem quiet_run {ops : List EngineOp} (hq : ∀ x ∈ calls ops, x.cfg.enabled = true ∧ NoLine x)
    (hb : outageClock st = some b) : outageClock (runOps st ops) = some b ∧
      (st.fired i = true → (runOps st ops).fired i = true) := by
  induction ops generalizing st with
  | nil => exact ⟨hb, id⟩
  | cons op ops ih =>
      cases op with
      | sync j l => exact ih hq hb
      | eval c =>
          obtain ⟨⟨h, hl⟩, hq'⟩ := List.forall_mem_cons.mp hq
          obtain ⟨hclock, hlatch⟩ := ih hq' (outageClock_noLine h hl hb)
          exact ⟨hclock, fun hf => hlatch (fired_noLine h hl hf)⟩

/-- A timer, with the outage clock known. -/
theorem timerMet_iff_of_clock (h : c.cfg.enabled = true) (hl : NoLine c)
    (hb : outageClock st = some b) (m : UInt16) :
    TimerMet m (edges st c) c.nowUs ↔ 0 < m.toNat ∧ b ≤ c.nowUs - m.toNat * usPerMin := by
  rw [timerMet_edges_iff h, outageClock_noLine h hl hb]
  simp

theorem outageClock_of_onBattery (hb : st.onBattery = true) :
    outageClock st = some st.onBatterySinceUs := by
  rw [outageClock, if_pos hb]

end Quiet

/-! ## 3. The start of an outage -/

/-- An outage starts in the call: its clock is stopped before it and runs from it. -/
def OutageStarts (st : PveEngine) (c : EvalCall) : Prop :=
  outageClock st = none ∧ outageClock (evalCall st c).1 = some c.nowUs

/-- The only step that sets a stopped outage clock going is a call in which an outage starts. -/
theorem outageStarts_of_clock {st : PveEngine} {op : EngineOp} (h0 : outageClock st = none)
    (h1 : ¬ outageClock (op.apply st) = none) : ∃ c, op = .eval c ∧ OutageStarts st c := by
  cases op with
  | sync j l => exact absurd h0 h1
  | eval c =>
      refine ⟨c, rfl, h0, ?_⟩
      have htick := outageClock_pveEval st c
      change ¬ outageClock (evalCall st c).1 = none at h1
      rw [htick, h0, Stopwatch.tick] at h1 ⊢
      split at h1
      · exact absurd rfl h1
      · rename_i hr
        split at h1
        · rename_i hs
          rw [if_neg hr, if_pos hs]
          rfl
        · exact absurd rfl h1

/-- A timer that is met, in a run that began with the clock stopped: an outage has started. -/
theorem outage_starts_of_met {st : PveEngine} (h0 : outageClock st = none) {ops : List EngineOp}
    {c : EvalCall} (h : c.cfg.enabled = true) {m : UInt16}
    (hmet : TimerMet m (edges (runOps st ops) c) c.nowUs) :
    ∃ pre d post, ops ++ [.eval c] = pre ++ .eval d :: post ∧ OutageStarts (runOps st pre) d := by
  obtain ⟨-, b, hb, -⟩ := (timerMet_edges_iff h m).mp hmet
  have hrun : ¬ outageClock ((ops ++ [EngineOp.eval c]).foldl EngineOp.apply st) = none := by
    rw [List.foldl_append]
    change ¬ outageClock (evalCall (runOps st ops) c).1 = none
    simp [hb]
  obtain ⟨pre, op, post, hsplit, hpre, hlost⟩ :=
    exists_lost (P := fun st => outageClock st = none) h0 hrun
  obtain ⟨d, rfl, hd⟩ := outageStarts_of_clock hpre hlost
  exact ⟨pre, d, post, hsplit, hd⟩

/-! ## 4. The host countdown -/

/-- Host `i` fires through its timer: it fires at a call whose clock has its timer met, the trigger
    that is looked at first. -/
def FiresByTimer (st : PveEngine) (c : EvalCall) (i : HostIx) : Prop :=
  HostFires st c i ∧ TimerMet (c.cfg.hosts i).onBatteryMin (edges st c) c.nowUs

section Host

variable {st : PveEngine} {cfg : PveConfig} {i : HostIx} {t : Int} {ops : List EngineOp}
  {c : EvalCall}

/-- A running countdown, over a stretch without mains: no firing through the timer before it is
    over, the latch closed a second after. -/
theorem HostCounts.acted_on (hc : HostCounts cfg st i)
    (hcont : ∀ x ∈ calls (ops ++ [.eval c]), After cfg t x ∧ NoLine x) :
    (c.nowUs < t + secondsLeft st (cfg.hosts i).onBatteryMin t * usPerS →
        ¬ FiresByTimer (runOps st ops) c i) ∧
      (t + (secondsLeft st (cfg.hosts i).onBatteryMin t + 1) * usPerS ≤ c.nowUs →
        (evalCall (runOps st ops) c).1.fired i = true) := by
  have hon : ∀ x ∈ calls (ops ++ [.eval c]), x.cfg.enabled = true ∧ NoLine x := fun x hx =>
    ⟨(hcont x hx).1.cfg ▸ hc.on, (hcont x hx).2⟩
  obtain ⟨hac, hlc⟩ := hcont c (by simp [calls_append])
  have h : c.cfg.enabled = true := hac.cfg ▸ hc.on
  have hops : ∀ x ∈ calls ops, x.cfg.enabled = true ∧ NoLine x := fun x hx =>
    hon x (by rw [calls_append]; exact List.mem_append_left _ hx)
  obtain ⟨hclock, -⟩ := quiet_run (i := i) hops (outageClock_of_onBattery hc.outage)
  have hmet := timerMet_iff_of_clock h hlc hclock (cfg.hosts i).onBatteryMin
  constructor
  · rintro hearly ⟨-, htimer⟩
    rw [hac.cfg] at htimer
    have hdue := (hmet.mp htimer).2
    have := secondsLeft_early hac.after hearly
    omega
  · intro hlate
    have htimer := hmet.mpr ⟨hc.timer, by have := secondsLeft_late hlate; omega⟩
    by_cases hf : (runOps st ops).fired i = true
    · exact fired_noLine h hlc hf
    · have hfires : HostFires (runOps st ops) c i := evalCall_hosts_iff.mpr
        ⟨h, by rw [hac.cfg]; exact hc.host, by simpa using hf, .inl (by rw [hac.cfg]; exact htimer)⟩
      exact (hostFires_spec hfires).2.1

/-- No countdown, and the host fires through its timer all the same: an outage has started. -/
theorem outage_starts_of_not_counts (hc : ¬ HostCounts cfg st i)
    (hcont : ∀ x ∈ calls (ops ++ [.eval c]), After cfg t x)
    (hf : FiresByTimer (runOps st ops) c i) :
    ∃ pre d post, ops ++ [.eval c] = pre ++ .eval d :: post ∧ OutageStarts (runOps st pre) d := by
  obtain ⟨hfires, hmet⟩ := hf
  obtain ⟨h, hhost, hopen, -⟩ := evalCall_hosts_iff.mp hfires
  have hcfg : c.cfg = cfg := (hcont c (by simp [calls_append])).cfg
  cases hclock : outageClock st with
  | none => exact outage_starts_of_met hclock h hmet
  | some b =>
      -- the clock was running, so it was the latch that kept the countdown from being shown
      have houtage : st.onBattery = true := by
        by_contra hno
        simp [outageClock, hno] at hclock
      have hfired : st.fired i = true := by
        by_contra hno
        exact hc ⟨hcfg ▸ h, hcfg ▸ hhost, hcfg ▸ hmet.1, houtage, by simpa using hno⟩
      -- only mains opens it again, and mains stops the clock
      obtain ⟨pre, op, post, rfl, hclosed, hlost⟩ :=
        exists_lost (P := fun st : PveEngine => st.fired i = true) hfired
          (by change ¬ (runOps st ops).fired i = true; simp [hopen])
      obtain ⟨d, rfl, hd, hback⟩ := host_opened hclosed hlost
      have hstopped : outageClock (runOps st (pre ++ [.eval d])) = none := by
        have hline := (showsMains_of_back hd hback).2
        rw [runOps_append]
        change outageClock (evalCall (runOps st pre) d).1 = none
        rw [outageClock_pveEval, Stopwatch.tick, if_pos (.inr hline)]
      have hrest : runOps st (pre ++ .eval d :: post) =
          runOps (runOps st (pre ++ [.eval d])) post := by
        rw [← runOps_append]
        simp
      rw [hrest] at hmet
      obtain ⟨pre', e, post', hsplit, he⟩ := outage_starts_of_met hstopped h hmet
      refine ⟨pre ++ [.eval d] ++ pre', e, post', ?_, by rw [runOps_append]; exact he⟩
      have hpost := congrArg (pre ++ .eval d :: ·) hsplit
      simpa [List.append_assoc] using hpost

end Host

/-- **The host countdown is the one the engine acts on**: from any engine, read at `t` for host `i`,
    over any calls not before `t` on the same configuration and any edits. With `n ≥ 0` seconds
    shown and no mains seen, the host fires through its timer at no call before `t + n` seconds and
    is latched by every call from `t + n + 1` seconds on, the first one included. With -1 shown,
    a call at which it fires through its timer comes with or after a call in which an outage
    starts. -/
theorem host_countdown_acted_on (st : PveEngine) (cfg : PveConfig) (i : HostIx) (t : Int)
    (ops : List EngineOp) (c : EvalCall) (hcont : ∀ x ∈ calls (ops ++ [.eval c]), After cfg t x) :
    let n := pveCountdownS cfg st i.val t
    (0 ≤ n → (∀ x ∈ calls (ops ++ [.eval c]), NoLine x) →
      (c.nowUs < t + n * usPerS → ¬ FiresByTimer (runOps st ops) c i) ∧
        (t + (n + 1) * usPerS ≤ c.nowUs → (evalCall (runOps st ops) c).1.fired i = true)) ∧
      (n = -1 → FiresByTimer (runOps st ops) c i → ∃ pre d post,
        ops ++ [.eval c] = pre ++ .eval d :: post ∧ OutageStarts (runOps st pre) d) := by
  intro n
  obtain ⟨hc, hn⟩ | ⟨hc, hn⟩ := pveCountdownS_cases cfg st i t
  · have hpos : 0 ≤ n := by
      show 0 ≤ pveCountdownS cfg st i.val t
      rw [hn]
      exact secondsLeft_nonneg st _ t
    refine ⟨fun _ hline => ?_, fun h1 => by omega⟩
    have hboth := hc.acted_on fun x hx => ⟨hcont x hx, hline x hx⟩
    rw [← hn] at hboth
    exact hboth
  · exact ⟨fun hpos => by omega, fun _ hf => outage_starts_of_not_counts hc hcont hf⟩

/-! A timer of five minutes, read a minute into the outage: 240 seconds, and at 241 the host is
    latched. -/

def timerCfg : PveConfig :=
  ⟨true, true, 2, fun _ => ⟨true, "https://10.0.0.10", "pve1", "ups@pve", "s", true, "AB", 5, 20⟩⟩

def timerCall (power : PvePower) (s : Int) : EvalCall :=
  ⟨timerCfg, fun _ => [], ⟨power, 80⟩, s * usPerS⟩

def timerOutage : PveEngine := runOps PveEngine.zero [.eval (timerCall .battery 0)]

theorem host_countdown_acted_on_timer :
    pveCountdownS timerCfg timerOutage (0 : HostIx).val (60 * usPerS) = 240 ∧
      ¬ FiresByTimer timerOutage (timerCall .unknown 299) 0 ∧
      (evalCall timerOutage (timerCall .unknown 301)).1.fired 0 = true := by
  have hn : pveCountdownS timerCfg timerOutage (0 : HostIx).val (60 * usPerS) = 240 := by decide
  have hpos : 0 ≤ pveCountdownS timerCfg timerOutage (0 : HostIx).val (60 * usPerS) := by decide
  have hline : ∀ s, ∀ x ∈ calls [EngineOp.eval (timerCall .unknown s)], NoLine x := by
    simp [timerCall, NoLine]
  refine ⟨hn, ?_, ?_⟩
  · refine ((host_countdown_acted_on timerOutage timerCfg 0 (60 * usPerS) []
      (timerCall .unknown 299) ?_).1 hpos (hline 299)).1 ?_
    · intro x hx
      obtain rfl := List.mem_singleton.mp hx
      exact ⟨rfl, by decide⟩
    · rw [hn]
      decide
  · refine ((host_countdown_acted_on timerOutage timerCfg 0 (60 * usPerS) []
      (timerCall .unknown 301) ?_).1 hpos (hline 301)).2 ?_
    · intro x hx
      obtain rfl := List.mem_singleton.mp hx
      exact ⟨rfl, by decide⟩
    · rw [hn]
      decide

/-! ## 5. The guest countdown -/

/-- The countdown of guest `id` of host `i` runs: feature and host are on, an outage has begun, the
    rule found for the guest has its timer on, and no entry for the guest is latched. -/
structure GuestCounts (cfg : PveConfig) (st : PveEngine) (guests : List PveGuest) (i : HostIx)
    (id : Int) (gg : PveGuest) : Prop where
  on : cfg.enabled = true
  host : (cfg.hosts i).enabled = true
  outage : st.onBattery = true
  rule : lookup PveGuest.id id guests = some gg
  timer : 0 < gg.onBatteryMin.toNat
  unlatched : ∀ gs ∈ st.guests i, gs.id = id → gs.fired = false

/-- **`pve_guest_countdown_s`**, case by case. -/
theorem pveGuestCountdownS_cases (cfg : PveConfig) (st : PveEngine) (guests : List PveGuest)
    (i : HostIx) (id t : Int) :
    (∃ gg, GuestCounts cfg st guests i id gg ∧
        pveGuestCountdownS cfg st guests i.val id t = secondsLeft st gg.onBatteryMin t) ∨
      ((¬ ∃ gg, GuestCounts cfg st guests i id gg) ∧
        pveGuestCountdownS cfg st guests i.val id t = -1) := by
  have hi : ¬ ((i.val : Int) < 0 ∨ (i.val : Int) ≥ pveMaxHosts) := by
    have := i.isLt
    omega
  have hix : (⟨(i.val : Int).toNat, by omega⟩ : HostIx) = i := Fin.ext (Int.toNat_natCast i.val)
  have hany : (st.guests i).any (fun gs => gs.id == id && gs.fired) = false ↔
      ∀ gs ∈ st.guests i, gs.id = id → gs.fired = false := by
    simp
  simp only [pveGuestCountdownS, dif_neg hi, hix]
  by_cases hc : ∃ gg, GuestCounts cfg st guests i id gg
  · obtain ⟨gg, hc⟩ := hc
    have htimer : ¬ gg.onBatteryMin.toNat = 0 := by
      have := hc.timer
      omega
    refine .inl ⟨gg, hc, ?_⟩
    simp only [hc.on, hc.host, hc.outage, hc.rule, Bool.not_true, Bool.or_self, Bool.false_eq_true,
      if_false, if_neg htimer, hany.mpr hc.unlatched]
  · refine .inr ⟨hc, ?_⟩
    by_cases hon : cfg.enabled = true ∧ (cfg.hosts i).enabled = true ∧ st.onBattery = true
    · cases hl : lookup PveGuest.id id guests with
      | none => simp
      | some gg =>
          by_cases htimer : gg.onBatteryMin.toNat = 0
          · simp [htimer]
          · cases ha : (st.guests i).any fun gs => gs.id == id && gs.fired with
            | true => simp
            | false =>
                exact absurd ⟨gg, hon.1, hon.2.1, hon.2.2, hl, by omega, hany.mp ha⟩ hc
    · refine if_pos ?_
      by_contra hg
      simp only [Bool.or_eq_true, Bool.not_eq_true', not_or, Bool.not_eq_false] at hg
      exact hon ⟨hg.1.1, hg.1.2, hg.2⟩

/-- What keeps the configuration and the list of host `i`, makes no call before `t` and shows no
    mains. -/
def QuietOp (cfg : PveConfig) (i : HostIx) (l : List PveGuest) (t : Int) : ListedOp → Prop
  | .eval r => r.cfg = cfg ∧ t ≤ r.nowUs ∧ r.obs.power ≠ .line
  | .edit j l' => j = i → l' = l

/-- **The engine acts on the guest countdown**: read at `t`, with `n ≥ 0` seconds shown, every call
    from `t + n + 1` seconds on leaves the guest latched, whatever calls and edits come before it
    that keep the configuration and the host's list and show no mains. -/
def GuestActedOn (s : Listed) (cfg : PveConfig) (i : HostIx) (id t : Int) : Prop :=
  let n := pveGuestCountdownS cfg s.eng (s.lists i) i.val id t
  0 ≤ n → ∀ (ops : List ListedOp) (r : Reading),
    (∀ op ∈ ops ++ [.eval r], QuietOp cfg i (s.lists i) t op) → t + (n + 1) * usPerS ≤ r.nowUs →
      GuestLatched ((ops ++ [ListedOp.eval r]).foldl Listed.apply s).eng i id

/-- What a stretch without mains keeps, while the countdown of a guest runs: the clock, the list,
    and an open way to the guest -- its host open too, unless the guest is latched. -/
structure Counting (i : HostIx) (id : Int) (l : List PveGuest) (b : Int) (s : Listed) : Prop where
  listed : ListedInv s
  list : s.lists i = l
  clock : outageClock s.eng = some b
  open_or_latched : s.eng.fired i = false ∨ GuestLatched s.eng i id

section Guest

variable {cfg : PveConfig} {i : HostIx} {id t b : Int} {l : List PveGuest} {s : Listed}
  {gg : PveGuest}

/-- A call on an open host: the guest is latched by it where it is due, and the host stays open
    where the guest is not. -/
theorem Counting.call (hC : Counting i id l b s) {r : Reading} (h : r.cfg.enabled = true)
    (hl : r.obs.power ≠ .line) (hhost : (r.cfg.hosts i).enabled = true) (hgg : gg ∈ l)
    (hid : gg.id = id) :
    let st' := (evalCall s.eng (r.call s.lists)).1
    (GuestLatched st' i id ∨ st'.fired i = false) ∧
      (OwnDue s.eng (r.call s.lists) gg → GuestLatched st' i id) := by
  intro st'
  have h' : (r.call s.lists).cfg.enabled = true := h
  have hback : (r.call s.lists).back s.eng = false := back_eq_false_of_noLine h' hl
  have hids : id ∈ (s.eng.guests i).map GuestEngine.id := by
    rw [hC.listed.ids i, hC.list, ← hid]
    exact List.mem_map_of_mem hgg
  by_cases hlat : GuestLatched s.eng i id
  · have hlat' : GuestLatched st' i id := guestLatched_evalCall h' hback hlat
    exact ⟨.inl hlat', fun _ => hlat'⟩
  · have hopen := hC.open_or_latched.resolve_right hlat
    have hrule : gg ∈ (r.call s.lists).guests i := by
      show gg ∈ s.lists i
      rwa [hC.list]
    have hdue : OwnDue s.eng (r.call s.lists) gg ∨ HostDue s.eng (r.call s.lists) i →
        GuestLatched st' i id := fun hd => (guestLatched_on_iff h').mpr
      (.inr ((guestFires_due_iff h').mpr ⟨hids, hlat, hopen, hhost, gg, hrule, hid, hd⟩))
    refine ⟨?_, fun hd => hdue (.inl hd)⟩
    by_cases hfires : HostFires s.eng (r.call s.lists) i
    · exact .inl (hdue (.inr (evalCall_hosts_iff.mp hfires).2.2.2))
    · refine .inr ?_
      show (evalCall s.eng (r.call s.lists)).1.fired i = false
      rw [evalCall_fired h', hopen, Bool.false_and, Bool.false_or]
      simpa [HostFires] using hfires

/-- An edit that keeps the host's list keeps the guest's latch. -/
theorem guestLatched_edit (hgg : gg ∈ l) (hid : gg.id = id) {j : HostIx} {l' : List PveGuest}
    (hkeep : j = i → l' = l) (hlat : GuestLatched s.eng i id) :
    GuestLatched (s.apply (.edit j l')).eng i id := by
  by_contra ho
  have hstays : ∀ l'', EngineOp.sync j l' = .sync i l'' → id ∈ l''.map PveGuest.id := by
    intro l'' hl''
    obtain ⟨rfl, rfl⟩ := EngineOp.sync.inj hl''
    rw [hkeep rfl, ← hid]
    exact List.mem_map_of_mem hgg
  obtain ⟨c, hc, -⟩ := guest_opened hstays hlat ho
  cases hc

/-- **One step keeps the way to the guest open.** -/
theorem Counting.step (hC : Counting i id l b s) (hon : cfg.enabled = true)
    (hhost : (cfg.hosts i).enabled = true) (hgg : gg ∈ l) (hid : gg.id = id) {op : ListedOp}
    (hq : QuietOp cfg i l t op) : Counting i id l b (s.apply op) := by
  cases op with
  | eval r =>
      obtain ⟨rfl, -, hl⟩ := hq
      obtain ⟨hor, -⟩ := hC.call hon hl hhost hgg hid
      exact ⟨hC.listed.eval r, hC.list, outageClock_noLine (c := r.call s.lists) hon hl hC.clock,
        hor.symm⟩
  | edit j l' =>
      refine ⟨hC.listed.edit j l', ?_, hC.clock, ?_⟩
      · by_cases hij : i = j
        · subst hij
          simp [Listed.apply, hq rfl]
        · simp [Listed.apply, Function.update_of_ne hij, hC.list]
      · rcases hC.open_or_latched with hopen | hlat
        · exact .inl hopen
        · exact .inr (guestLatched_edit hgg hid hq hlat)

theorem Counting.run (hC : Counting i id l b s) (hon : cfg.enabled = true)
    (hhost : (cfg.hosts i).enabled = true) (hgg : gg ∈ l) (hid : gg.id = id) {ops : List ListedOp}
    (hq : ∀ op ∈ ops, QuietOp cfg i l t op) : Counting i id l b (ops.foldl Listed.apply s) := by
  induction ops generalizing s with
  | nil => exact hC
  | cons op ops ih =>
      obtain ⟨hop, hops⟩ := List.forall_mem_cons.mp hq
      exact ih (hC.step hon hhost hgg hid hop) hops

/-- On an open host the engine acts on the countdown. -/
theorem GuestCounts.acted_on (hc : GuestCounts cfg s.eng (s.lists i) i id gg) (hI : ListedInv s)
    (hopen : s.eng.fired i = false) {ops : List ListedOp} {r : Reading}
    (hq : ∀ op ∈ ops ++ [.eval r], QuietOp cfg i (s.lists i) t op)
    (hlate : t + (secondsLeft s.eng gg.onBatteryMin t + 1) * usPerS ≤ r.nowUs) :
    GuestLatched ((ops ++ [ListedOp.eval r]).foldl Listed.apply s).eng i id := by
  have hgg := mem_of_lookup hc.rule
  have hid := key_of_lookup hc.rule
  have hC : Counting i id (s.lists i) s.eng.onBatterySinceUs s :=
    ⟨hI, rfl, outageClock_of_onBattery hc.outage, .inl hopen⟩
  have hC' := hC.run hc.on hc.host hgg hid fun op hop => hq op (List.mem_append_left _ hop)
  obtain ⟨rfl, -, hl⟩ : QuietOp cfg i (s.lists i) t (.eval r) := hq _ (by simp)
  rw [List.foldl_append]
  refine (hC'.call hc.on hl hc.host hgg hid).2 (.inl ?_)
  have hmet := timerMet_iff_of_clock (c := r.call (ops.foldl Listed.apply s).lists) hc.on hl
    hC'.clock gg.onBatteryMin
  refine hmet.mpr ⟨hc.timer, ?_⟩
  have := secondsLeft_late hlate
  show s.eng.onBatterySinceUs ≤ r.nowUs - _
  omega

/-- On a latched host no call latches the guest. -/
theorem not_guestLatched_of_latched {c : EvalCall} {st : PveEngine} (h : c.cfg.enabled = true)
    (hf : st.fired i = true) (hno : ¬ GuestLatched st i id) :
    ¬ GuestLatched (evalCall st c).1 i id := by
  rw [guestLatched_on_iff h, guestFires_due_iff h]
  rintro (⟨hlat, -⟩ | ⟨-, -, hopen, -⟩)
  · exact hno hlat
  · rw [hf] at hopen
    cases hopen

end Guest

/-- **Where the guest countdown is the one the engine acts on**: from any reachable engine, for any
    host, guest and time, exactly unless the countdown runs while the host itself is latched. The
    loop over the hosts leaves a latched host before it looks at its guests. -/
theorem guest_countdown_acted_on_iff (ops : List ListedOp) (cfg : PveConfig) (i : HostIx)
    (id t : Int) :
    let s := runListed ops
    GuestActedOn s cfg i id t ↔
      ¬ (s.eng.fired i = true ∧ ∃ gg, GuestCounts cfg s.eng (s.lists i) i id gg) := by
  intro s
  have hI : ListedInv s := listedInv_run ops
  obtain ⟨gg, hc, hn⟩ | ⟨hc, hn⟩ := pveGuestCountdownS_cases cfg s.eng (s.lists i) i id t
  · constructor
    · rintro hacted ⟨hf, -⟩
      unfold GuestActedOn at hacted
      rw [hn] at hacted
      -- one call that sees nothing, a second after the countdown is over
      let r : Reading :=
        ⟨cfg, ⟨.unknown, 0⟩, t + (secondsLeft s.eng gg.onBatteryMin t + 1) * usPerS⟩
      have hq : ∀ op ∈ [] ++ [ListedOp.eval r], QuietOp cfg i (s.lists i) t op := by
        intro op hop
        obtain rfl := List.mem_singleton.mp hop
        have hn0 := secondsLeft_nonneg s.eng gg.onBatteryMin t
        have hstep : 0 ≤ (secondsLeft s.eng gg.onBatteryMin t + 1) * usPerS :=
          Int.mul_nonneg (by omega) (by decide)
        refine ⟨rfl, ?_, nofun⟩
        show t ≤ t + (secondsLeft s.eng gg.onBatteryMin t + 1) * usPerS
        omega
      have hlat := hacted (secondsLeft_nonneg _ _ _) [] r hq (Int.le_refl _)
      refine not_guestLatched_of_latched (c := r.call s.lists) hc.on hf ?_ hlat
      rintro ⟨gs, hgs, hfired⟩
      rw [hc.unlatched gs (mem_of_lookup hgs) (key_of_lookup hgs)] at hfired
      cases hfired
    · intro hno _ ops r hq hlate
      rw [hn] at hlate
      exact hc.acted_on hI (by simpa using fun hf => hno ⟨hf, gg, hc⟩) hq hlate
  · refine iff_of_true (fun hpos => ?_) fun hl => hc hl.2
    rw [hn] at hpos
    omega

/-! The host fires on a low charge; a rule for guest 102 is added in that outage. Ten minutes in,
    with nothing left on its countdown, the guest is not stopped. -/

def lateRuleOps : List ListedOp :=
  [.edit 0 [⟨101, 0, 30⟩], .eval ⟨timerCfg, ⟨.battery, 15⟩, 0⟩,
    .edit 0 [⟨101, 0, 30⟩, ⟨102, 10, 0⟩]]

def lateReading : Reading := ⟨timerCfg, ⟨.battery, 10⟩, 601 * usPerS⟩

theorem guest_countdown_not_acted_on :
    let s := runListed lateRuleOps
    ((s.lists 0).map PveGuest.id).Nodup ∧ s.eng.fired 0 = true ∧
      pveGuestCountdownS timerCfg s.eng (s.lists 0) (0 : HostIx).val 102 (60 * usPerS) = 540 ∧
      (∀ gs ∈ (s.apply (.eval lateReading)).eng.guests 0, gs.id = 102 → gs.fired = false) ∧
      ¬ GuestActedOn s timerCfg 0 102 (60 * usPerS) := by
  intro s
  have hn : pveGuestCountdownS timerCfg s.eng (s.lists 0) (0 : HostIx).val 102 (60 * usPerS) =
      540 := by
    decide
  have hopen : ∀ gs ∈ (s.apply (.eval lateReading)).eng.guests 0, gs.id = 102 →
      gs.fired = false := by
    decide
  refine ⟨by decide, by decide, hn, hopen, fun hacted => ?_⟩
  unfold GuestActedOn at hacted
  rw [hn] at hacted
  have hq : ∀ op ∈ [] ++ [ListedOp.eval lateReading],
      QuietOp timerCfg 0 (s.lists 0) (60 * usPerS) op := by
    intro op hop
    obtain rfl := List.mem_singleton.mp hop
    exact ⟨rfl, by decide, nofun⟩
  obtain ⟨gs, hgs, hfired⟩ := hacted (by decide) [] lateReading hq (by decide)
  rw [hopen gs (mem_of_lookup hgs) (key_of_lookup hgs)] at hfired
  cases hfired

end NutBluetti.Pve
