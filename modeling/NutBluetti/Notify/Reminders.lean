/-
  File:      NutBluetti/Notify/Reminders.lean
  Subject:   THE CHARGE REMINDERS over whole stretches on battery (notify.c): one stored integer is
             the mark "no sample yet" and the lowest tens so far, and an unknown charge, -1, has the
             tens 0.

  * `Due` -- the rule: a known charge whose tens are lower than those of every known charge before;
  * `Tracks` -- what the stored integer is after the samples of a stretch; `reminds_moments` -- so a
    reminder is queued at each new low of the tens;
  * `Harmless` -- where an unknown charge falls;
  * **`reminders_iff`** -- the reminders of a stretch follow the rule exactly there;
  * **`unknown_charge_reminded`** -- 57%, unknown, 44%: the unknown charge is reminded of, 44% is
    not.
-/
import Mathlib.Data.Int.Order.Basic
import NutBluetti.Lib.History
import NutBluetti.Notify.Alerts

namespace NutBluetti.Notify

open History (EachMoment NewLow IsLow)

/-! ## 1. Stretches and the rule -/

/-- A call of a stretch: alerts and the reminder are on, and the status is no observation or one on
    battery. -/
structure OnBattery (c : StatusCall) : Prop where
  enabled : c.cfg.enabled = true
  reminder : c.cfg.onBatteryPct = true
  status : powerOf c.status = none ∨ powerOf c.status = some .battery
  charge : -1 ≤ c.socPct ∧ c.socPct ≤ 100

/-- A stretch begins with the notifier, or after a status with `OL` or `OFF`. -/
structure Stretch (before cs : List StatusCall) : Prop where
  begins : before = [] ∨ ∃ init c, before = init ++ [c] ∧ c.cfg.enabled = true ∧
    (powerOf c.status = some .line ∨ powerOf c.status = some .offline)
  calls : ∀ c ∈ cs, OnBattery c

/-- A sample: an observation on battery. -/
def isSample (c : StatusCall) : Bool := powerOf c.status = some .battery

def samples (cs : List StatusCall) : List StatusCall := cs.filter isSample

/-- The charge is known. -/
def Known (c : StatusCall) : Prop := 0 ≤ c.socPct

/-- **The rule**, for a sample and those before it. -/
def Due (earlier : List StatusCall) (c : StatusCall) : Prop :=
  Known c ∧ (∃ b ∈ earlier, Known b) ∧ ∀ b ∈ earlier, Known b → c.socPct / 10 < b.socPct / 10

/-- The call queues a reminder. -/
def Reminds (N : Notifier) (c : StatusCall) : Prop :=
  ∃ m ∈ (notifyUpsStatus N c).queued.drop N.queued.length, m.alert = .reminder

instance (c : StatusCall) : Decidable (Known c) := inferInstanceAs (Decidable (_ ≤ _))

instance (earlier : List StatusCall) (c : StatusCall) : Decidable (Due earlier c) :=
  inferInstanceAs (Decidable (_ ∧ _ ∧ _))

instance (N : Notifier) (c : StatusCall) : Decidable (Reminds N c) :=
  inferInstanceAs (Decidable (∃ m ∈ _, _))

/-- A reminder is queued at each sample that is due one and finds room in the queue, and at no other
    call. -/
def ByTheRule (N : Notifier) (cs : List StatusCall) : Prop :=
  EachMoment (fun earlier c => Reminds (runCalls N earlier) c ↔
    isSample c = true ∧ c.room .reminder = true ∧ Due (samples earlier) c) cs

/-! ## 2. One call -/

/-- `decile`. -/
def decile (c : StatusCall) : Int := c.socPct.tdiv 10

/-- What the edges before the reminder leave: the stored integer, and no reminder in the queue. -/
structure NoReminder (N N' : Notifier) : Prop where
  kept : N'.battDecile = N.battDecile
  queued : ∃ more, N'.queued = N.queued ++ more ∧ ∀ m ∈ more, m.alert ≠ .reminder

theorem NoReminder.trans {N N' N'' : Notifier} (h : NoReminder N N') (h' : NoReminder N' N'') :
    NoReminder N N'' := by
  obtain ⟨hkept, more, hq, hm⟩ := h
  obtain ⟨hkept', more', hq', hm'⟩ := h'
  refine ⟨hkept'.trans hkept, more ++ more', ?_, fun m hin => ?_⟩
  · rw [hq', hq, List.append_assoc]
  · rcases List.mem_append.mp hin with hin | hin
    · exact hm m hin
    · exact hm' m hin

theorem noReminder_of_queued {N N' : Notifier} (h : N'.battDecile = N.battDecile)
    (hq : N'.queued = N.queued) : NoReminder N N' :=
  ⟨h, [], by rw [hq, List.append_nil], nofun⟩

theorem noReminder_send (N : Notifier) (c : StatusCall) {alert : Alert} (text : String)
    (h : alert ≠ .reminder) : NoReminder N (notifySend N c alert text) := by
  unfold notifySend
  split
  · exact ⟨rfl, _, rfl, fun m hm => by rw [List.mem_singleton.mp hm]; exact h⟩
  · exact noReminder_of_queued rfl rfl

theorem noReminder_powerEdge (N : Notifier) (c : StatusCall) (now : PowerState) :
    NoReminder N (powerEdge N c now) := by
  have hguard : NoReminder N (guardAllows N now c.nowUs).2 := by
    unfold guardAllows
    split <;> exact noReminder_of_queued rfl rfl
  unfold powerEdge
  split
  · dsimp only
    split
    · split
      · exact hguard.trans (noReminder_send _ c _ Alert.noConfusion)
      · exact hguard
    · exact hguard
  · exact noReminder_of_queued rfl rfl

theorem noReminder_lowEdge (N : Notifier) (c : StatusCall) (now : PowerState) (low : Bool) :
    NoReminder N (lowEdge N c now low) := by
  have hsend : ∀ (N : Notifier) (b : Bool) (alert : Alert) (text : String), alert ≠ .reminder →
      NoReminder N (if b = true then notifySend N c alert text else N) := by
    intro N b alert text hne
    split
    · exact noReminder_send N c text hne
    · exact noReminder_of_queued rfl rfl
  unfold lowEdge
  exact (hsend N _ .low _ Alert.noConfusion).trans (hsend _ _ .notLow _ Alert.noConfusion)

/-- The stored integer after a sample. -/
def nextDecile (d : Int) (c : StatusCall) : Int := if d < 0 then decile c else min d (decile c)

/-- **The reminder of a sample**: it is queued where the tens are below the stored ones. -/
theorem reminder_spec {c : StatusCall} (h : c.cfg.onBatteryPct = true) (N : Notifier) :
    (reminder N c .battery).battDecile = nextDecile N.battDecile c ∧
      ∃ more, (reminder N c .battery).queued = N.queued ++ more ∧
        ((∃ m ∈ more, m.alert = .reminder) ↔
          0 ≤ N.battDecile ∧ decile c < N.battDecile ∧ c.room .reminder = true) := by
  unfold reminder nextDecile decile
  rw [if_pos ⟨rfl, h⟩]
  by_cases hfirst : N.battDecile < 0
  · have hno : ¬ 0 ≤ N.battDecile := Int.not_le.mpr hfirst
    simp only [if_pos hfirst]
    exact ⟨trivial, [], (List.append_nil _).symm, by simp [hno]⟩
  · have hbegun : 0 ≤ N.battDecile := Int.not_lt.mp hfirst
    simp only [if_neg hfirst]
    by_cases hlow : c.socPct.tdiv 10 < N.battDecile
    · simp only [if_pos hlow]
      have hmin : c.socPct.tdiv 10 = min N.battDecile (c.socPct.tdiv 10) :=
        (min_eq_right (le_of_lt hlow)).symm
      unfold notifySend
      split
      · rename_i hroom
        exact ⟨hmin, _, rfl, by simp [hbegun, hlow, hroom]⟩
      · rename_i hroom
        exact ⟨hmin, [], (List.append_nil _).symm, by simp [hroom]⟩
    · simp only [if_neg hlow]
      exact ⟨(min_eq_left (Int.not_lt.mp hlow)).symm, [], (List.append_nil _).symm, by simp [hlow]⟩

/-- **A call of a stretch**: a sample goes into the stored integer, any other call changes
    nothing. -/
theorem notifyUpsStatus_onBattery {c : StatusCall} (h : OnBattery c) (N : Notifier) :
    isSample c = false ∧ notifyUpsStatus N c = N ∨
      isSample c = true ∧ (notifyUpsStatus N c).battDecile = nextDecile N.battDecile c ∧
        (Reminds N c ↔ 0 ≤ N.battDecile ∧ decile c < N.battDecile ∧ c.room .reminder = true) := by
  have hon : (!c.cfg.enabled) = false := by rw [h.enabled]; rfl
  rcases h.status with hst | hst
  · refine .inl ⟨by simp [isSample, hst], ?_⟩
    simp only [notifyUpsStatus, hon, hst, Bool.false_eq_true, if_false]
  · refine .inr ⟨by simp [isSample, hst], ?_⟩
    obtain ⟨hkept, before, hq, hbefore⟩ := (noReminder_powerEdge N c .battery).trans
      (noReminder_lowEdge _ c .battery (strstr "LB".toList c.status.toList))
    generalize hN' : lowEdge (powerEdge N c .battery) c .battery
      (strstr "LB".toList c.status.toList) = N' at hkept hq
    obtain ⟨hdecile, more, hmore, hreminds⟩ := reminder_spec h.reminder N'
    have hcall : (notifyUpsStatus N c).battDecile = (reminder N' c .battery).battDecile ∧
        (notifyUpsStatus N c).queued = (reminder N' c .battery).queued := by
      simp only [notifyUpsStatus, hon, hst, Bool.false_eq_true, if_false, hN', and_self]
    rw [hkept] at hdecile hreminds
    refine ⟨hcall.1.trans hdecile, ?_⟩
    unfold Reminds
    rw [hcall.2, hmore, hq, List.append_assoc, List.drop_left, ← hreminds]
    constructor
    · rintro ⟨m, hm, hreminder⟩
      rcases List.mem_append.mp hm with hm | hm
      · exact absurd hreminder (hbefore m hm)
      · exact ⟨m, hm, hreminder⟩
    · rintro ⟨m, hm, hreminder⟩
      exact ⟨m, List.mem_append_right _ hm, hreminder⟩

/-! ## 3. A stretch -/

/-- The stored integer after the samples of a stretch: the mark, or their lowest tens. -/
def Tracks (N : Notifier) (seen : List StatusCall) : Prop :=
  seen = [] ∧ N.battDecile = -1 ∨ 0 ≤ N.battDecile ∧ IsLow decile seen N.battDecile

theorem decile_known {c : StatusCall} (h : Known c) : decile c = c.socPct / 10 :=
  Int.tdiv_eq_ediv_of_nonneg h

theorem decile_unknown {c : StatusCall} (h : OnBattery c) (hc : ¬ Known c) : decile c = 0 := by
  have hsoc : c.socPct = -1 := by
    have hlow := h.charge.1
    unfold Known at hc
    omega
  unfold decile
  rw [hsoc]
  rfl

theorem decile_nonneg {c : StatusCall} (h : OnBattery c) : 0 ≤ decile c := by
  by_cases hc : Known c
  · have hsoc : 0 ≤ c.socPct := hc
    rw [decile_known hc]
    omega
  · exact le_of_eq (decile_unknown h hc).symm

theorem tracks_snoc {N N' : Notifier} {seen : List StatusCall} {c : StatusCall} (h : OnBattery c)
    (hN : Tracks N seen) (hnext : N'.battDecile = nextDecile N.battDecile c) :
    Tracks N' (seen ++ [c]) := by
  have hpos := decile_nonneg h
  rcases hN with ⟨rfl, hmark⟩ | ⟨hbegun, hlow⟩
  · have hfirst : N'.battDecile = decile c := by
      rw [hnext, nextDecile, hmark, if_pos (by decide)]
    exact .inr ⟨hfirst ▸ hpos, hfirst ▸ History.isLow_singleton decile c⟩
  · have hmin : N'.battDecile = min N.battDecile (decile c) := by
      rw [hnext, nextDecile, if_neg (Int.not_lt.mpr hbegun)]
    exact .inr ⟨hmin ▸ le_min hbegun hpos, hmin ▸ History.isLow_snoc hlow c⟩

/-- Below the stored integer is below every sample before. -/
theorem newLow_of_tracks {N : Notifier} {seen : List StatusCall} (h : Tracks N seen)
    (c : StatusCall) : 0 ≤ N.battDecile ∧ decile c < N.battDecile ↔ NewLow decile seen c := by
  rcases h with ⟨rfl, hmark⟩ | ⟨hbegun, hlow⟩
  · rw [hmark]
    exact iff_of_false (fun h => absurd h.1 (by decide)) fun h => h.1 rfl
  · rw [History.newLow_iff hlow, and_iff_right hbegun]

/-- **The reminders of a stretch**: one at each new low of the tens, the tens of -1 being 0. -/
theorem reminds_moments {N : Notifier} (hN : N.battDecile = -1) {cs : List StatusCall}
    (h : ∀ c ∈ cs, OnBattery c) : Tracks (runCalls N cs) (samples cs) ∧
      EachMoment (fun earlier c => Reminds (runCalls N earlier) c ↔
        isSample c = true ∧ c.room .reminder = true ∧ NewLow decile (samples earlier) c) cs := by
  induction cs using List.reverseRecOn with
  | nil => exact ⟨.inl ⟨rfl, hN⟩, History.eachMoment_nil _⟩
  | append_singleton cs c ih =>
      obtain ⟨htracks, hmoments⟩ := ih fun d hd => h d (List.mem_append_left _ hd)
      have hc := h c (by simp)
      have hrun : runCalls N (cs ++ [c]) = notifyUpsStatus (runCalls N cs) c := by
        rw [runCalls, List.foldl_append]
        rfl
      rw [History.eachMoment_snoc_iff, hrun]
      rcases notifyUpsStatus_onBattery hc (runCalls N cs) with ⟨hno, hsame⟩ |
        ⟨hyes, hnext, hreminds⟩
      · have hseen : samples (cs ++ [c]) = samples cs := by simp [samples, hno]
        have hquiet : ¬ Reminds (runCalls N cs) c := by
          unfold Reminds
          rw [hsame, List.drop_length]
          simp
        rw [hseen, hsame]
        exact ⟨htracks, hmoments, iff_of_false hquiet fun hs => by simp [hno] at hs⟩
      · have hseen : samples (cs ++ [c]) = samples cs ++ [c] := by simp [samples, hyes]
        rw [hseen]
        refine ⟨tracks_snoc hc htracks hnext, hmoments, hreminds.trans ?_⟩
        rw [and_iff_right hyes, ← newLow_of_tracks htracks c]
        exact ⟨fun ⟨hbegun, hlow, hroom⟩ => ⟨hroom, hbegun, hlow⟩,
          fun ⟨hroom, hbegun, hlow⟩ => ⟨hbegun, hlow, hroom⟩⟩

/-- The mark is set when a stretch begins. -/
theorem mark_of_stretch {before cs : List StatusCall} (h : Stretch before cs) (label : String) :
    (runCalls (notifyStart label) before).battDecile = -1 := by
  rcases h.begins with rfl | ⟨init, c, rfl, hon, hst⟩
  · rfl
  · rw [runCalls, List.foldl_append]
    show (notifyUpsStatus (runCalls (notifyStart label) init) c).battDecile = -1
    rcases hst with hst | hst
    · simp [notifyUpsStatus, reminder, hon, hst]
    · simp [notifyUpsStatus, reminder, hon, hst]

/-! ## 4. Where the rule is followed -/

/-- **The condition**: the first unknown charge comes after a known one below 10. Where it does not,
    it is the first sample, or the queue has no room for a reminder, and no later sample of the
    stretch is due one that finds room. -/
def Harmless (ss : List StatusCall) : Prop :=
  ∀ before c after, ss = before ++ c :: after → ¬ Known c → (∀ b ∈ before, 10 ≤ b.socPct) →
    (before = [] ∨ c.room .reminder = false) ∧
      EachMoment (fun mid d => Due (before ++ c :: mid) d → d.room .reminder = false) after

section Rule

variable {seen : List StatusCall} {c : StatusCall}

/-- Among known charges a new low of the tens is what is due. -/
theorem newLow_iff_due (hall : ∀ b ∈ seen, Known b) (hknown : Known c) :
    NewLow decile seen c ↔ Due seen c := by
  unfold NewLow Due
  rw [and_iff_right hknown, decile_known hknown]
  constructor
  · rintro ⟨hne, hlow⟩
    obtain ⟨b, hb⟩ := List.exists_mem_of_ne_nil _ hne
    exact ⟨⟨b, hb, hall b hb⟩, fun d hd hdk => decile_known hdk ▸ hlow d hd⟩
  · rintro ⟨⟨b, hb, -⟩, hlow⟩
    exact ⟨List.ne_nil_of_mem hb,
      fun d hd => (decile_known (hall d hd)).symm ▸ hlow d hd (hall d hd)⟩

/-- After a sample with the tens 0 there is no new low. -/
theorem not_newLow_of_zero (hc : OnBattery c) {b : StatusCall} (hb : b ∈ seen)
    (hzero : decile b = 0) :
    ¬ NewLow decile seen c := by
  intro hnew
  have hlow := hnew.2 b hb
  have hpos := decile_nonneg hc
  omega

/-- An unknown charge is a new low where every sample before was known to be 10 or more. -/
theorem newLow_unknown_iff (h : ∀ b ∈ seen, OnBattery b) (hc : OnBattery c) (hunknown : ¬ Known c) :
    NewLow decile seen c ↔ seen ≠ [] ∧ ∀ b ∈ seen, 10 ≤ b.socPct := by
  refine and_congr_right fun _ => forall₂_congr fun b hb => ?_
  rw [decile_unknown hc hunknown]
  by_cases hbk : Known b
  · have hsoc : 0 ≤ b.socPct := hbk
    rw [decile_known hbk]
    omega
  · rw [decile_unknown (h b hb) hbk]
    unfold Known at hbk
    omega

/-- After a known charge below 10 none is due. -/
theorem not_due_of_low {b : StatusCall} (hb : b ∈ seen) (hbk : Known b) (hlow : b.socPct < 10) :
    ¬ Due seen c := by
  rintro ⟨hck, -, hless⟩
  have hless := hless b hb hbk
  have hbk : 0 ≤ b.socPct := hbk
  have hck : 0 ≤ c.socPct := hck
  omega

end Rule

section NewLows

variable {ss : List StatusCall} (h : ∀ c ∈ ss, OnBattery c)

include h

/-- Where each new low is due, and each that is due is a new low, the unknown charges are
    harmless. -/
theorem harmless_of_newLows_due (hrule : EachMoment (fun earlier c => c.room .reminder = true →
    (NewLow decile earlier c ↔ Due earlier c)) ss) : Harmless ss := by
  intro before c after hss hunknown hhigh
  have hbefore : ∀ b ∈ before, OnBattery b := fun b hb => h b (by simp [hss, hb])
  have hc : OnBattery c := h c (by simp [hss])
  refine ⟨?_, ?_⟩
  · by_contra hno
    obtain ⟨hne, hroom⟩ := not_or.mp hno
    have hnew := (newLow_unknown_iff hbefore hc hunknown).mpr ⟨hne, hhigh⟩
    exact hunknown ((hrule before c after hss (by simpa using hroom)).mp hnew).1
  · intro mid d rest hafter hdue
    have hsplit : ss = (before ++ c :: mid) ++ d :: rest := by
      rw [hss, hafter, List.append_assoc]
      rfl
    by_contra hroom
    have hnew := (hrule _ d rest hsplit (by simpa using hroom)).mpr hdue
    exact not_newLow_of_zero (h d (by simp [hsplit])) (b := c) (by simp)
      (decile_unknown hc hunknown) hnew

/-- Before the first unknown charge a new low is what is due, but for an unknown charge, which is
    due none; after it there is no new low. -/
theorem newLows_due_of_harmless (hharmless : Harmless ss) :
    EachMoment (fun earlier c => c.room .reminder = true →
      (NewLow decile earlier c ↔ Due earlier c)) ss := by
  intro seen c rest hss hroom
  have hseen : ∀ b ∈ seen, OnBattery b := fun b hb => h b (by simp [hss, hb])
  have hc : OnBattery c := h c (by simp [hss])
  have hfinds : ¬ c.room .reminder = false := fun hfull => by rw [hroom] at hfull; cases hfull
  rcases History.exists_first_not Known seen with hall | ⟨before, u, mid, rfl, hknown, hu⟩
  · -- every charge before is known
    by_cases hck : Known c
    · exact newLow_iff_due hall hck
    · refine iff_of_false (fun hnew => ?_) fun hdue => hck hdue.1
      obtain ⟨hne, hhigh⟩ := (newLow_unknown_iff hseen hc hck).mp hnew
      exact (hharmless seen c rest hss hck hhigh).1.elim hne hfinds
  · -- `u` is the first unknown charge
    have huseen : u ∈ before ++ u :: mid := by simp
    have hdone := not_newLow_of_zero hc huseen (decile_unknown (hseen u huseen) hu)
    refine iff_of_false hdone fun hdue => ?_
    by_cases hhigh : ∀ b ∈ before, 10 ≤ b.socPct
    · have hsplit : ss = before ++ u :: (mid ++ c :: rest) := by rw [hss, List.append_assoc]; rfl
      exact hfinds ((hharmless before u _ hsplit hu hhigh).2 mid c rest rfl hdue)
    · obtain ⟨b, hb⟩ := not_forall.mp hhigh
      obtain ⟨hb, hlow⟩ := Classical.not_imp.mp hb
      exact not_due_of_low (List.mem_append_left _ hb) (hknown b hb) (not_le.mp hlow) hdue

/-- **New lows are what is due** exactly where unknown charges are harmless. -/
theorem newLows_due_iff : EachMoment (fun earlier c => c.room .reminder = true →
    (NewLow decile earlier c ↔ Due earlier c)) ss ↔ Harmless ss :=
  ⟨harmless_of_newLows_due h, newLows_due_of_harmless h⟩

end NewLows

/-- **When the reminders follow the rule**: in every stretch of a notifier, whatever came before it,
    exactly if its unknown charges are harmless. -/
theorem reminders_iff (label : String) {before cs : List StatusCall} (h : Stretch before cs) :
    ByTheRule (runCalls (notifyStart label) before) cs ↔ Harmless (samples cs) := by
  have hmoments := (reminds_moments (mark_of_stretch h label) h.calls).2
  have hsamples : ∀ c ∈ samples cs, OnBattery c := fun c hc =>
    h.calls c (List.mem_filter.mp hc).1
  rw [← newLows_due_iff hsamples, samples, History.eachMoment_filter_iff]
  refine forall₃_congr fun earlier c rest => imp_congr_right fun hcs => ?_
  have hmoment := hmoments earlier c rest hcs
  dsimp only at hmoment ⊢
  rw [hmoment]
  constructor
  · intro hrule hsample hroom
    rw [and_iff_right hsample, and_iff_right hroom, and_iff_right hsample, and_iff_right hroom]
      at hrule
    exact hrule
  · intro hrule
    exact and_congr_right fun hsample => and_congr_right fun hroom => hrule hsample hroom

/-! An outage: what the alerts are told of the charge. -/

def remindersOn : NotifyConfig := ⟨true, true, true, true, true⟩

def onBatteryAt (socPct seconds : Int) : StatusCall :=
  ⟨remindersOn, "OB DISCHRG", socPct, 120, seconds * 1000000, fun _ => true⟩

def outage (charges : List Int) : List StatusCall :=
  charges.mapIdx fun i socPct => onBatteryAt socPct (5 * i)

theorem stretch_outage {charges : List Int} (h : ∀ s ∈ charges, -1 ≤ s ∧ s ≤ 100) :
    Stretch [] (outage charges) := by
  refine ⟨.inl rfl, fun c hc => ?_⟩
  obtain ⟨i, hi, rfl⟩ := List.mem_mapIdx.mp hc
  have hstatus : powerOf "OB DISCHRG" = some .battery := by decide
  exact ⟨rfl, rfl, .inr hstatus, h _ (List.getElem_mem hi)⟩

theorem reminders_iff_draining :
    ByTheRule (runCalls (notifyStart "ups") []) (outage [57, 52, 44]) ↔
      Harmless (samples (outage [57, 52, 44])) :=
  reminders_iff "ups" (stretch_outage (by decide))

/-- **An unknown charge is reminded of**, as -1%, and 44% after it is not. -/
theorem unknown_charge_reminded :
    Stretch [] (outage [57, -1, 44]) ∧
      Reminds (runCalls (notifyStart "ups") (outage [57])) (onBatteryAt (-1) 5) ∧
      ¬ Reminds (runCalls (notifyStart "ups") (outage [57, -1])) (onBatteryAt 44 10) ∧
      ¬ ByTheRule (runCalls (notifyStart "ups") []) (outage [57, -1, 44]) := by
  have htold : Reminds (runCalls (notifyStart "ups") (outage [57])) (onBatteryAt (-1) 5) := by
    decide +kernel
  refine ⟨stretch_outage (by decide), htold, by decide +kernel, fun hrule => ?_⟩
  have hmoment := hrule (outage [57]) (onBatteryAt (-1) 5) [onBatteryAt 44 10] rfl
  exact absurd (hmoment.mp htold).2.2.1 (by decide)

end NutBluetti.Notify
