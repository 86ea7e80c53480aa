/-
  File:      NutBluetti/Nut/LowBattery.lean
  Subject:   LOW BATTERY: the flag in `ups.status` against the charge and the runtime that are
             published beside it.

  A client plans by what it reads: `LB` should stand there exactly when the charge is at its
  threshold or the runtime is at its own. The runtime is the unit's estimate, or derived where there
  is none; the flag looks at the estimate only.

  * `LowBatteryTrue` -- the flag agrees with the variables beside it;
  * **`lowBatteryTrue_iff`** -- it does exactly when the charge raises the flag anyway, or the
    runtime plays no part, or the estimate is there, or none can be derived, or the derived one is
    above its threshold;
  * `derived_runtime_ignored` -- a unit without an estimate, under a load that leaves five minutes.
-/
import NutBluetti.Nut.Publish

namespace NutBluetti.Nut

open Ble (BluettiState publishPower stateReset)

/-! ## 1. The statement -/

/-- The number a variable shows. -/
def published (t : VarTable) (name : String) : Option Int :=
  (nutServerGetVar t name).map numberOf

/-- `LB` stands in the status. -/
def ShowsLowBattery (t : VarTable) : Prop :=
  ∃ status, nutServerGetVar t "ups.status" = some status ∧ "LB".toList <:+: status.toList

/-- A state that is published while on battery. -/
structure OnBattery (st : BluettiState) : Prop where
  valid : st.valid = true
  swept : st.sweepDone = true
  noMains : st.acInputPresent = false

/-- The values of a C `int`. -/
def IsInt (n : Int) : Prop := -2 ^ 31 ≤ n ∧ n < 2 ^ 31

instance (n : Int) : Decidable (IsInt n) := inferInstanceAs (Decidable (_ ∧ _))

/-- The types of the fields that are published as they are. -/
structure Typed (st : BluettiState) : Prop where
  socPct : IsInt st.socPct
  socLowPct : IsInt st.socLowPct
  minutes : IsInt st.minutesRemaining

/-- **The flag and the variables beside it say the same.** -/
def LowBatteryTrue (cfg : NutSettings) (st : BluettiState) (t : VarTable) : Prop :=
  ShowsLowBattery t ↔
    (st.socPct ≥ 0 ∧ ∃ charge low, published t "battery.charge" = some charge ∧
      published t "battery.charge.low" = some low ∧ charge ≤ low) ∨
    (cfg.runtimeLowS.toNat > 0 ∧ ∃ runtime, published t "battery.runtime" = some runtime ∧
      runtime ≤ cfg.runtimeLowS.toNat)

/-- When they do, by the settings and the state: the charge is at its threshold; or no runtime
    threshold is set; or the unit gives an estimate; or there is nothing to derive one from; or
    capacity × charge ÷ load is a second or more above the threshold. -/
def FlagCovers (cfg : NutSettings) (st : BluettiState) : Prop :=
  (st.socPct ≥ 0 ∧ st.socPct ≤ st.socLowPct) ∨ cfg.runtimeLowS.toNat = 0 ∨
    st.minutesRemaining ≥ 0 ∨ capWh cfg st = 0 ∨ st.socPct ≤ 0 ∨ loadTenths cfg st < 10 ∨
    ((cfg.runtimeLowS.toNat : Int) + 1) * loadTenths cfg st ≤ (capWh cfg st : Int) * st.socPct * 360

/-! ## 2. The status -/

/-- The two triggers of the code. -/
def lowCharge (st : BluettiState) : Prop := st.socPct ≥ 0 ∧ st.socPct ≤ st.socLowPct

def lowEstimate (cfg : NutSettings) (st : BluettiState) : Prop :=
  cfg.runtimeLowS.toNat > 0 ∧ st.minutesRemaining ≥ 0 ∧
    st.minutesRemaining * 60 ≤ cfg.runtimeLowS.toNat

variable {cfg : NutSettings} {st : BluettiState} {t : VarTable}

instance : Decidable (lowCharge st) := inferInstanceAs (Decidable (_ ∧ _))

instance : Decidable (lowEstimate cfg st) := inferInstanceAs (Decidable (_ ∧ _ ∧ _))

/-- The status on battery. -/
def batteryStatus (low charging : Bool) : String :=
  "OB" ++ (if low then " LB" else "") ++ (if charging then " CHRG" else " DISCHRG")

theorem publishPower_status (hb : OnBattery st) :
    (publishPower cfg.runtimeLowS.toNat st).status =
      batteryStatus (decide (lowCharge st ∨ lowEstimate cfg st)) st.charging := by
  unfold publishPower batteryStatus
  simp [hb.swept, hb.noMains, lowCharge, lowEstimate, and_assoc]

theorem batteryStatus_shows (low charging : Bool) :
    "LB".toList <:+: (CText.fit nutVarValueLen (batteryStatus low charging)).toList ↔
      low = true := by
  revert low charging
  decide +kernel

theorem showsLowBattery_iff (hr : Reachable t) (hb : OnBattery st) :
    ShowsLowBattery (publishNutFromBluetti cfg st t) ↔ lowCharge st ∨ lowEstimate cfg st := by
  unfold ShowsLowBattery
  rw [getVar_status cfg hr hb.valid, publishPower_status hb]
  constructor
  · rintro ⟨status, he, hlb⟩
    cases he
    exact of_decide_eq_true ((batteryStatus_shows _ _).mp hlb)
  · intro hlow
    exact ⟨_, rfl, (batteryStatus_shows _ _).mpr (decide_eq_true hlow)⟩

/-! ## 3. The runtime -/

theorem batteryRuntime_estimate (hb : OnBattery st) (h : st.minutesRemaining ≥ 0) :
    batteryRuntime cfg st = st.minutesRemaining * 60 := by
  unfold batteryRuntime
  rw [hb.noMains, if_pos (by simpa using h)]

/-- What the runtime is derived from is there. -/
structure Derivable (cfg : NutSettings) (st : BluettiState) : Prop where
  noEstimate : st.minutesRemaining < 0
  capacity : capWh cfg st > 0
  charge : st.socPct > 0
  load : loadTenths cfg st ≥ 10

theorem batteryRuntime_derived (hd : Derivable cfg st) :
    batteryRuntime cfg st =
      if (capWh cfg st : Int) * st.socPct * 360 > 4000000 * loadTenths cfg st then 4000000
      else (capWh cfg st : Int) * st.socPct * 360 / loadTenths cfg st := by
  have hno := hd.noEstimate
  unfold batteryRuntime
  rw [if_neg (by simp; omega), if_pos ⟨hd.capacity, hd.charge⟩]
  exact if_pos hd.load

theorem batteryRuntime_none (hno : st.minutesRemaining < 0) (hd : ¬ Derivable cfg st) :
    batteryRuntime cfg st = -1 := by
  unfold batteryRuntime
  rw [if_neg (by simp; omega)]
  split
  case isTrue hcap =>
    exact if_neg fun hload => hd ⟨hno, hcap.1, hcap.2, hload⟩
  case isFalse => rfl

/-- A derived runtime is at a threshold of 16 bits when the energy left is used up in that time and
    a second. -/
theorem derived_le_iff (hd : Derivable cfg st) :
    batteryRuntime cfg st ≤ cfg.runtimeLowS.toNat ↔
      (capWh cfg st : Int) * st.socPct * 360 <
        ((cfg.runtimeLowS.toNat : Int) + 1) * loadTenths cfg st := by
  have hload := hd.load
  have hlow : (cfg.runtimeLowS.toNat : Int) < 65536 := by
    have := cfg.runtimeLowS.toNat_lt
    omega
  rw [batteryRuntime_derived hd]
  generalize (capWh cfg st : Int) * st.socPct * 360 = secs
  generalize loadTenths cfg st = load at hload ⊢
  generalize (cfg.runtimeLowS.toNat : Int) = low at hlow ⊢
  split
  case isTrue hcap =>
    have hle : (low + 1) * load ≤ 4000000 * load :=
      Int.mul_le_mul_of_nonneg_right (by omega) (by omega)
    constructor <;> intro h <;> omega
  case isFalse =>
    rw [← Int.lt_add_one_iff, Int.ediv_lt_iff_lt_mul (by omega)]

theorem derived_nonneg (hd : Derivable cfg st) : 0 ≤ batteryRuntime cfg st := by
  have hcharge := hd.charge
  have hload := hd.load
  rw [batteryRuntime_derived hd]
  split
  · decide
  · refine Int.ediv_nonneg ?_ (by omega)
    exact Int.mul_nonneg (Int.mul_nonneg (Int.natCast_nonneg _) (by omega)) (by decide)

theorem batteryRuntime_lt (cfg : NutSettings) (hb : OnBattery st) (ht : Typed st) :
    -10 ^ 12 < batteryRuntime cfg st ∧ batteryRuntime cfg st < 10 ^ 12 := by
  have hmin := ht.minutes
  unfold IsInt at hmin
  by_cases hest : st.minutesRemaining ≥ 0
  · rw [batteryRuntime_estimate hb hest]
    omega
  · by_cases hd : Derivable cfg st
    · have hnonneg := derived_nonneg hd
      refine ⟨by omega, ?_⟩
      rw [batteryRuntime_derived hd]
      have hload := hd.load
      split
      · decide
      case isFalse hcap =>
        have : (capWh cfg st : Int) * st.socPct * 360 / loadTenths cfg st ≤ 4000000 :=
          Int.ediv_le_of_le_mul (by omega) (by omega)
        omega
    · rw [batteryRuntime_none (by omega) hd]
      decide

/-! ## 4. What is published -/

theorem published_int {t : VarTable} {name : String} {n : Int}
    (h : nutServerGetVar t name = some (CText.fit nutVarValueLen (CText.fit 24 (toString n))))
    (hlo : -10 ^ 12 < n) (hhi : n < 10 ^ 12) : published t name = some n := by
  unfold published
  rw [h, fit_toString hlo hhi, Option.map_some, numberOf_toString]

/-- The charge half of the statement is the trigger of the code. -/
theorem charge_iff (hr : Reachable t) (hb : OnBattery st) (ht : Typed st) :
    (st.socPct ≥ 0 ∧ ∃ charge low,
      published (publishNutFromBluetti cfg st t) "battery.charge" = some charge ∧
      published (publishNutFromBluetti cfg st t) "battery.charge.low" = some low ∧ charge ≤ low) ↔
    lowCharge st := by
  have hsoc := ht.socPct
  have hlow := ht.socLowPct
  unfold IsInt at hsoc hlow
  refine and_congr_right fun hknown => ?_
  rw [published_int (getVar_charge cfg hr hb.valid hknown) (by omega) (by omega),
    published_int (getVar_chargeLow cfg hr hb.valid) (by omega) (by omega)]
  constructor
  · rintro ⟨charge, low, hc, hl, hle⟩
    cases hc
    cases hl
    exact hle
  · intro hle
    exact ⟨_, _, rfl, rfl, hle⟩

/-- The runtime half is about the runtime, where there is one. -/
theorem runtime_iff (hr : Reachable t) (hb : OnBattery st) (ht : Typed st) :
    (cfg.runtimeLowS.toNat > 0 ∧ ∃ runtime,
      published (publishNutFromBluetti cfg st t) "battery.runtime" = some runtime ∧
      runtime ≤ cfg.runtimeLowS.toNat) ↔
    cfg.runtimeLowS.toNat > 0 ∧ 0 ≤ batteryRuntime cfg st ∧
      batteryRuntime cfg st ≤ cfg.runtimeLowS.toNat := by
  obtain ⟨hlo, hhi⟩ := batteryRuntime_lt cfg hb ht
  refine and_congr_right fun _ => ?_
  by_cases hrt : batteryRuntime cfg st ≥ 0
  · have hget := getVar_runtime cfg hr hb.valid
    rw [if_pos hrt] at hget
    rw [published_int hget hlo hhi]
    constructor
    · rintro ⟨runtime, he, hle⟩
      cases he
      exact ⟨hrt, hle⟩
    · rintro ⟨-, hle⟩
      exact ⟨_, rfl, hle⟩
  · have hget := getVar_runtime cfg hr hb.valid
    rw [if_neg hrt] at hget
    unfold published
    rw [hget]
    constructor
    · rintro ⟨_, h, -⟩
      cases h
    · rintro ⟨h, -⟩
      exact absurd h hrt

/-! ## 5. The flag and the runtime -/

/-- With an estimate, the two computations are one. -/
theorem estimate_agrees (hb : OnBattery st) (h : st.minutesRemaining ≥ 0) :
    lowEstimate cfg st ↔ cfg.runtimeLowS.toNat > 0 ∧ 0 ≤ batteryRuntime cfg st ∧
      batteryRuntime cfg st ≤ cfg.runtimeLowS.toNat := by
  rw [batteryRuntime_estimate hb h]
  unfold lowEstimate
  omega

/-- Without one, the flag covers the runtime exactly when the runtime is not low. -/
theorem flagCovers_iff (hno : st.minutesRemaining < 0) :
    FlagCovers cfg st ↔ lowCharge st ∨ ¬(cfg.runtimeLowS.toNat > 0 ∧
      0 ≤ batteryRuntime cfg st ∧ batteryRuntime cfg st ≤ cfg.runtimeLowS.toNat) := by
  by_cases hd : Derivable cfg st
  · have hle := derived_le_iff hd
    have hnonneg := derived_nonneg hd
    obtain ⟨-, hcap, hcharge, hload⟩ := hd
    unfold FlagCovers lowCharge
    omega
  · have hparts : capWh cfg st = 0 ∨ st.socPct ≤ 0 ∨ loadTenths cfg st < 10 := by
      by_contra hall
      exact hd ⟨hno, by omega, by omega, by omega⟩
    rw [batteryRuntime_none hno hd]
    unfold FlagCovers lowCharge
    omega

/-- **The flag says what the variables beside it say exactly when it covers the runtime**, whatever
    was published before. -/
theorem lowBatteryTrue_iff (hr : Reachable t) (hb : OnBattery st) (ht : Typed st) :
    LowBatteryTrue cfg st (publishNutFromBluetti cfg st t) ↔ FlagCovers cfg st := by
  unfold LowBatteryTrue
  rw [showsLowBattery_iff hr hb, charge_iff hr hb ht, runtime_iff hr hb ht]
  by_cases hest : st.minutesRemaining ≥ 0
  · rw [estimate_agrees hb hest]
    exact iff_of_true Iff.rfl (.inr (.inr (.inl hest)))
  · have hnone : ¬ lowEstimate cfg st := fun h => hest h.2.1
    rw [flagCovers_iff (by omega)]
    tauto

/-! ## 6. A heavy load -/

/-- Five minutes is low; the pack is set to 245 Wh. -/
def smallPack : NutSettings := ⟨245, 0, 300⟩

/-- A unit at 30 % under 900 W, with the estimate it gives. -/
def heavyLoad (minutes : Int) : BluettiState :=
  { stateReset 20 with
    valid := true, sweepDone := true, socPct := 30, minutesRemaining := minutes,
    acInWatts := 0, inputWatts := 0, acOutWatts := 9000, dcOutWatts := 0, outputWatts := 9000,
    batteryWatts := 9000, model := "AC2P" }

def heavyLoadTable (minutes : Int) : VarTable :=
  publishNutFromBluetti smallPack (heavyLoad minutes) (nutServerStart "esp32-nut-bluetti 1.0")

theorem onBattery_heavyLoad (minutes : Int) : OnBattery (heavyLoad minutes) := ⟨rfl, rfl, rfl⟩

theorem typed_heavyLoad {minutes : Int} (h : IsInt minutes) : Typed (heavyLoad minutes) := by
  refine ⟨?_, ?_, h⟩
  · show IsInt 30
    decide
  · show IsInt 20
    decide

theorem lowBatteryTrue_iff_estimate :
    LowBatteryTrue smallPack (heavyLoad 4) (heavyLoadTable 4) := by
  have ht : Typed (heavyLoad 4) := typed_heavyLoad (by decide)
  have hcovers : FlagCovers smallPack (heavyLoad 4) := .inr (.inr (.inl (by decide)))
  exact (lowBatteryTrue_iff (.start _) (onBattery_heavyLoad 4) ht).mpr hcovers

/-- **294 seconds are published, the threshold is 300, and there is no `LB`**: a model without a
    register for the remaining time. -/
theorem derived_runtime_ignored :
    OnBattery (heavyLoad (-1)) ∧ Typed (heavyLoad (-1)) ∧
      published (heavyLoadTable (-1)) "battery.runtime" = some 294 ∧
      nutServerGetVar (heavyLoadTable (-1)) "ups.status" = some "OB DISCHRG" ∧
      ¬ LowBatteryTrue smallPack (heavyLoad (-1)) (heavyLoadTable (-1)) := by
  have hr : Reachable (nutServerStart "esp32-nut-bluetti 1.0") := .start _
  have hb := onBattery_heavyLoad (-1)
  have hsecs : batteryRuntime smallPack (heavyLoad (-1)) = 294 := by decide
  have hpower : (publishPower smallPack.runtimeLowS.toNat (heavyLoad (-1))).status =
      "OB DISCHRG" := by decide
  have hrt : published (heavyLoadTable (-1)) "battery.runtime" = some 294 := by
    have hget := getVar_runtime smallPack hr hb.valid
    rw [hsecs, if_pos (by decide)] at hget
    exact published_int hget (by omega) (by omega)
  have hstatus : nutServerGetVar (heavyLoadTable (-1)) "ups.status" = some "OB DISCHRG" := by
    have hget := getVar_status smallPack hr hb.valid
    rw [hpower, CText.fit_of_length_lt (by decide)] at hget
    exact hget
  refine ⟨hb, typed_heavyLoad (by decide), hrt, hstatus, fun htrue => ?_⟩
  have hlow : smallPack.runtimeLowS.toNat > 0 ∧ (294 : Int) ≤ smallPack.runtimeLowS.toNat := by
    decide
  obtain ⟨status, he, hlb⟩ := htrue.mpr (.inr ⟨hlow.1, 294, hrt, hlow.2⟩)
  rw [hstatus] at he
  cases he
  exact absurd hlb (by decide +kernel)

end NutBluetti.Nut
