/-
  File:      NutBluetti/Web/NumericFields.lean
  Subject:   THE NUMBERS OF THE SETTINGS FORM (provisioning.c, `h_admin_reconfigure`): which of them
             are stored as posted. Sections "nut" and "pve" cast what `atoi` reads to the width of
             the member; only the limits of hosts and of guests are bounded from above first.

  * `numberAt` -- the number a member holds;
  * `SetRight` -- the posted number is stored, or it is out of range and the previous one stays;
  * `scalar_stored`, `limit_stored`, `rules_stored` -- what a request stores;
  * **`numeric_settings_iff`** -- when that is right;
  * **`port_wraps`** -- a port of 65616 is stored as 80.
-/
import NutBluetti.Web.GuestRules
import NutBluetti.Web.SectionFrames

namespace NutBluetti.Web

open CLayout
open CText (IsInt)
open NutBluetti.Config
open NutBluetti.Pve (PveGuest HostIx hostSlots)

variable {κ : Type}

/-! ## 1. Numbers in memory -/

section Memory

variable {ν μ : Type*} {img img' : Image} {s : Span ν} {t : Span μ}

/-- The number a member holds, least byte first. -/
def numberAt (img : Image) (s : Span ν) : Nat :=
  (img.read s).foldr (fun b n => b.toNat + n * 2 ^ 8) 0

theorem numberAt_congr (h : img.read s = img'.read t) : numberAt img s = numberAt img' t := by
  unfold numberAt
  rw [h]

theorem numberAt_half {v : UInt16} (h : img.read s = le16 v) : numberAt img s = v.toNat := by
  have hlow : v.toUInt8.toNat = v.toNat % 2 ^ 8 := UInt16.toNat_toUInt8 v
  have hhigh : (v >>> 8).toUInt8.toNat = v.toNat / 2 ^ 8 % 2 ^ 8 := by
    rw [UInt16.toNat_toUInt8, UInt16.toNat_shiftRight, Nat.shiftRight_eq_div_pow]
    rfl
  have hlt : v.toNat < 2 ^ 16 := v.toNat_lt
  unfold numberAt
  rw [h]
  show v.toUInt8.toNat + ((v >>> 8).toUInt8.toNat + 0 * 2 ^ 8) * 2 ^ 8 = v.toNat
  rw [hlow, hhigh]
  omega

theorem numberAt_byte {b : UInt8} (h : img.read s = [b]) : numberAt img s = b.toNat := by
  unfold numberAt
  rw [h]
  show b.toNat + 0 * 2 ^ 8 = b.toNat
  omega

end Memory

/-- **The posted number is stored**, or it is out of range and the previous one stays. -/
def SetRight (lo hi n : Int) (prev now : Nat) : Prop :=
  (now : Int) = n ∨ (¬ (lo ≤ n ∧ n ≤ hi) ∧ now = prev)

instance (lo hi n : Int) (prev now : Nat) : Decidable (SetRight lo hi n prev now) :=
  inferInstanceAs (Decidable (_ ∨ _))

/-! ## 2. What one field leaves -/

/-- A member of `w` bits, set from a field that is at least `lo`. -/
def castNumber (body : List UInt8) (key : String) (lo : Int) (w prev : Nat) : Nat :=
  match formGet body key 128 with
  | none => prev
  | some v => if lo ≤ atoi (cstr v) then (atoi (cstr v) % 2 ^ w).toNat else prev

/-- One that is set from a field within bounds. -/
def boundedNumber (body : List UInt8) (key : String) (hi : Int) (prev : Nat) : Nat :=
  match formGet body key 128 with
  | none => prev
  | some v => if 0 ≤ atoi (cstr v) ∧ atoi (cstr v) ≤ hi then (atoi (cstr v)).toNat else prev

section Posted

variable {body : List UInt8} {key : String} {n : Int}

theorem Carries.get (hc : Carries body key (decimalText n)) (hn : IsInt n) :
    ∃ v, formGet body key 128 = some v ∧ atoi (cstr v) = n := by
  have hlen := length_decimalText_lt hn
  refine ⟨_, hc 128 (by omega), ?_⟩
  rw [cstr_of_noNul (decimalText_noNul n), atoi_decimalText hn]

/-- **A number that is cast** is right if it fits, or if what is left of it is there already. -/
theorem castNumber_right {lo : Int} {w prev : Nat} (hlo : 0 ≤ lo ∧ lo ≤ 1)
    (hc : Carries body key (decimalText n))
    (hn : IsInt n) : SetRight lo (2 ^ w - 1) n prev (castNumber body key lo w prev) ↔
      n < 2 ^ w ∨ n % 2 ^ w = prev := by
  obtain ⟨v, hget, hval⟩ := hc.get hn
  have hpos : (0 : Int) < 2 ^ w := Int.pow_pos (by decide)
  have hnonneg := Int.emod_nonneg n (Int.ne_of_gt hpos)
  have hmod := Int.emod_lt_of_pos n hpos
  unfold SetRight castNumber
  simp only [hget, hval]
  by_cases hmin : lo ≤ n
  · rw [if_pos hmin, Int.toNat_of_nonneg hnonneg]
    constructor
    · rintro (heq | ⟨-, heq⟩)
      · exact .inl (heq ▸ hmod)
      · exact .inr (by omega)
    · rintro (hlt | heq)
      · exact .inl (Int.emod_eq_of_lt (Int.le_trans hlo.1 hmin) hlt)
      · by_cases hfit : n < 2 ^ w
        · exact .inl (Int.emod_eq_of_lt (Int.le_trans hlo.1 hmin) hfit)
        · exact .inr ⟨by omega, by omega⟩
  · rw [if_neg hmin]
    exact ⟨fun _ => .inl (by omega), fun _ => .inr ⟨fun hin => hmin hin.1, rfl⟩⟩

/-- **A number that is bounded** is always right. -/
theorem boundedNumber_right {hi : Int} {prev : Nat} (hc : Carries body key (decimalText n))
    (hn : IsInt n) : SetRight 0 hi n prev (boundedNumber body key hi prev) := by
  obtain ⟨v, hget, hval⟩ := hc.get hn
  unfold SetRight boundedNumber
  simp only [hget, hval]
  by_cases hin : 0 ≤ n ∧ n ≤ hi
  · rw [if_pos hin]
    exact .inl (Int.toNat_of_nonneg hin.1)
  · rw [if_neg hin]
    exact .inr ⟨hin, rfl⟩

end Posted

/-! ## 3. The members of the configuration -/

/-- The numbers of sections "nut" and "pve" that stand outside the hosts. -/
inductive Scalar where
  | nutPort
  | lowPct
  | acRatingW
  | batteryWh
  | runtimeLowS
  | mainsBackMin
  | selftestHours
  deriving DecidableEq, Repr

namespace Scalar

def sect : Scalar → Section
  | mainsBackMin | selftestHours => .pve
  | _ => .nut

/-- Its field in the form. -/
def key : Scalar → String
  | nutPort => "nut_port"
  | lowPct => "low_pct"
  | acRatingW => "ac_rating_w"
  | batteryWh => "battery_wh"
  | runtimeLowS => "runtime_low_s"
  | mainsBackMin => "pve_mains_back_min"
  | selftestHours => "pve_selftest_hours"

/-- The least number that is accepted. -/
def lo : Scalar → Int
  | nutPort | lowPct | acRatingW => 1
  | _ => 0

/-- The bits of the member. -/
def width : Scalar → Nat
  | lowPct => 8
  | _ => 16

def member : Scalar → ConfigField
  | nutPort => .app .nutPort
  | lowPct => .app .lowPct
  | acRatingW => .app .acRatingW
  | batteryWh => .app .batteryWh
  | runtimeLowS => .app .runtimeLowS
  | mainsBackMin => .pve .mainsBackMin
  | selftestHours => .app .pveSelftestHours

theorem lo_bounds (F : Scalar) : 0 ≤ F.lo ∧ F.lo ≤ 1 := by cases F <;> decide

example (F : Scalar) : F.member.span.size * 8 = F.width := by cases F <;> decide

end Scalar

section Members

variable {o : Outside} {body : List UInt8} {key : String} {lo : Int} {f g : AppField}
    {img img' : Image}

/-- What is written within one member leaves the others. -/
theorem numberAt_beside (hne : f ≠ g)
    (h : ∀ P : Nat → Prop, (∀ k, f.span.Has k → P k) → ChangedWithin P img img') :
    numberAt img' g.span = numberAt img g.span :=
  numberAt_congr ((h f.span.Has fun _ hk => hk).read fun _ hk hf =>
    (AppField.span_apart hne).not_has hf hk)

theorem numberAt_keepText_beside (hpos : 0 < f.span.size) (hne : f ≠ g) :
    numberAt (keepText body key f img) g.span = numberAt img g.span :=
  numberAt_beside hne fun P hP => within_keepText (.refl P img) hpos fun _ => hP

theorem numberAt_intoHalf_beside (hsize : 2 ≤ f.span.size) (hne : f ≠ g) :
    numberAt (intoHalf body key lo f img) g.span = numberAt img g.span :=
  numberAt_beside hne fun P hP => within_intoHalf (.refl P img) hsize hP

theorem numberAt_intoByte_beside (hpos : 0 < f.span.size) (hne : f ≠ g) :
    numberAt (intoByte body key lo f img) g.span = numberAt img g.span :=
  numberAt_beside hne fun P hP => within_intoByte (.refl P img) hpos hP

theorem numberAt_intoHalf (hsize : f.span.size = 2) :
    numberAt (intoHalf body key lo f img) f.span =
    castNumber body key lo 16 (numberAt img f.span) := by
  unfold intoHalf castNumber
  cases formGet body key 128 with
  | none => rfl
  | some v =>
      dsimp only
      split
      · rw [numberAt_half (read_set_self img hsize.symm), toNat_ofInt16]
      · rfl

theorem numberAt_intoByte (hsize : f.span.size = 1) :
    numberAt (intoByte body key lo f img) f.span =
    castNumber body key lo 8 (numberAt img f.span) := by
  unfold intoByte castNumber
  cases formGet body key 128 with
  | none => rfl
  | some v =>
      dsimp only
      split
      · rw [numberAt_byte (read_set_self img hsize.symm), toNat_ofInt8]
      · rfl

/-- Section "nut" up to the login. -/
def nutNumbers (body : List UInt8) (img : Image) : Image :=
  let img := keepText body "ups_name" .upsName img
  let img := intoHalf body "nut_port" 1 .nutPort img
  let img := intoByte body "low_pct" 1 .lowPct img
  let img := intoHalf body "ac_rating_w" 1 .acRatingW img
  let img := intoHalf body "battery_wh" 0 .batteryWh img
  intoHalf body "runtime_low_s" 0 .runtimeLowS img

/-- The login holds no number. -/
theorem read_sectionNut (hsalt : o.salt.length = 16) (hsha : ∀ m, (o.sha256 m).length = 32)
    (hf : f ∉ [AppField.nutUser, .nutSalt, .nutHash, .nutAuthSet]) :
    (sectionNut o body img).read f.span = (nutNumbers body img).read f.span := by
  let P : Nat → Prop := fun k => ¬ f.span.Has k
  have happ : ∀ g ∈ [AppField.nutUser, .nutSalt, .nutHash, .nutAuthSet], ∀ k, g.span.Has k →
    P k := by
    intro g hg k hk
    have hne : g ≠ f := fun heq => hf (heq ▸ hg)
    exact (AppField.span_apart hne).not_has hk
  have hsecret : ∀ {img₀ img pass}, ChangedWithin P img₀ img →
      ChangedWithin P img₀ (setSecret o.sha256 o.salt nutSecret img pass) := fun h =>
    within_setSecret h nutSecret_proper hsalt hsha fun g hg => happ g (List.mem_cons_of_mem _ hg)
  have hlogin : ChangedWithin P (nutNumbers body img) (sectionNut o body img) := by
    unfold sectionNut nutNumbers
    extract_lets p₁ p₂ p₃ p₄ p₅ p₆ p₇ pass p₈
    have huser : ChangedWithin P p₆ p₇ :=
      within_keepText (.refl P p₆) (by decide) fun _ => happ .nutUser (by decide)
    have hpass : ChangedWithin P p₆ p₈ := by
      show ChangedWithin P p₆ (if pass = [] then p₇ else _)
      split
      · exact huser
      · exact hsecret huser
    split
    · exact hsecret hpass
    · exact hpass
  exact hlogin.read fun k hk hno => hno hk

/-- **The numbers of section "nut"** are cast: each is set by one step, and the others leave it. -/
theorem nutNumbers_stored (F : Scalar) (hF : F.sect = .nut) :
    numberAt (nutNumbers body img) F.member.span =
      castNumber body F.key F.lo F.width (numberAt img F.member.span) := by
  have happ : ∀ (img : Image) (f : AppField), numberAt img (ConfigField.app f).span =
    numberAt img f.span :=
    fun _ _ => rfl
  unfold nutNumbers
  cases F with
  | mainsBackMin => cases hF
  | selftestHours => cases hF
  | _ =>
      simp (disch := decide) only [Scalar.member, Scalar.key, Scalar.lo, Scalar.width, happ,
        numberAt_intoHalf_beside, numberAt_intoByte_beside, numberAt_keepText_beside,
        numberAt_intoHalf, numberAt_intoByte]

end Members

section Proxmox

variable {o : Outside} {body : List UInt8} {img : Image}

/-- No number lies in a host, or in the mark that the unit is set up. -/
theorem Scalar.not_has (F : Scalar) {k : Nat} (hk : F.member.span.Has k) :
    ¬ (ConfigField.pve .hosts).span.Has k ∧ ¬ AppField.provisioned.span.Has k := by
  cases F with
  | mainsBackMin =>
      have happ : AppField.pve ≠ AppField.provisioned := by decide
      exact ⟨(pveField_apart (by decide)).not_has hk,
        (AppField.span_apart happ).not_has (pveField_within .mainsBackMin hk)⟩
  | _ =>
      exact ⟨fun hhosts => (AppField.span_apart (by decide)).not_has hk
        (pveField_within .hosts hhosts), (AppField.span_apart (by decide)).not_has hk⟩

/-- **The two numbers of section "pve"** are cast. -/
theorem pveScalars_stored (F : Scalar) (hF : F.sect = .pve) :
    numberAt (pveScalars body img) F.member.span =
      castNumber body F.key F.lo F.width (numberAt img F.member.span) := by
  have hmains : AppField.pve ≠ AppField.pveSelftestHours := by decide
  unfold pveScalars
  extract_lets armed p₁ p₂
  have harmed : ChangedWithin (ConfigField.pve .armed).span.Has img p₁ :=
    .poke img fun k hlo hhi => ⟨hlo, hhi⟩
  have hp₂ : p₂ = match formGet body "pve_mains_back_min" 128 with
      | none => p₁
      | some v =>
          if 0 ≤ atoi (cstr v) then
            p₁.poke (ConfigField.pve .mainsBackMin).span.start (le16 (UInt16.ofInt (atoi (cstr v))))
          else p₁ := rfl
  cases F with
  | mainsBackMin =>
      show numberAt _ (ConfigField.pve .mainsBackMin).span =
        castNumber body "pve_mains_back_min" 0 16
          (numberAt img (ConfigField.pve .mainsBackMin).span)
      have hafter : ChangedWithin AppField.pveSelftestHours.span.Has p₂
          (intoHalf body "pve_selftest_hours" 0 .pveSelftestHours p₂) :=
        within_intoHalf (.refl _ p₂) (by decide) fun _ hk => hk
      have hbefore : numberAt p₁ (ConfigField.pve .mainsBackMin).span =
          numberAt img (ConfigField.pve .mainsBackMin).span :=
        numberAt_congr (harmed.read fun k hk => (pveField_apart (by decide)).not_has hk)
      rw [numberAt_congr (hafter.read fun k hk =>
        (AppField.span_apart hmains).not_has (pveField_within .mainsBackMin hk)), hp₂]
      unfold castNumber
      cases formGet body "pve_mains_back_min" 128 with
      | none => exact hbefore
      | some v =>
          dsimp only
          split
          · have hsize : 2 = (ConfigField.pve .mainsBackMin).span.size := by decide
            rw [numberAt_half (read_poke_self p₁ hsize), toNat_ofInt16]
          · exact hbefore
  | selftestHours =>
      show numberAt _ AppField.pveSelftestHours.span =
        castNumber body "pve_selftest_hours" 0 16 (numberAt img AppField.pveSelftestHours.span)
      have hbefore : ChangedWithin AppField.pve.span.Has img p₂ := by
        have harmed := harmed.mono fun k => pveField_within .armed
        rw [hp₂]
        split
        · exact harmed
        · split
          · exact harmed.trans (.poke p₁ fun k hlo hhi => pveField_within .mainsBackMin ⟨hlo, hhi⟩)
          · exact harmed
      rw [numberAt_intoHalf (by decide), numberAt_congr (hbefore.read fun k hk =>
        (AppField.span_apart hmains.symm).not_has hk)]
  | _ => cases hF

end Proxmox

section Saved

variable {o : Outside} {r : Request} {s : Server κ} {body : List UInt8} {X : Section}

/-- **What a request leaves of a number of its section.** -/
theorem Saved.scalar_stored (h : Saved o r s body X) (hsalt : o.salt.length = 16)
    (hsha : ∀ m, (o.sha256 m).length = 32) (F : Scalar) (hF : F.sect = X) :
    numberAt (hAdminReconfigure o r s).2.cfg F.member.span =
      castNumber body F.key F.lo F.width (numberAt s.cfg F.member.span) := by
  obtain ⟨pending, rules, hrun, hcfg, -⟩ := h.result
  have hmark : numberAt (hAdminReconfigure o r s).2.cfg F.member.span =
    numberAt pending F.member.span := by
    rw [hcfg]
    exact numberAt_congr ((provisioned_within pending).read fun k hk => (F.not_has hk).2)
  rw [hmark]
  subst hF
  rw [runSection_name] at hrun
  cases hsect : F.sect with
  | nut =>
      rw [hsect] at hrun
      obtain ⟨f, hf, hlogin⟩ : ∃ f, F.member = .app f ∧
          f ∉ [AppField.nutUser, .nutSalt, .nutHash, .nutAuthSet] := by
        cases F with
        | mainsBackMin => cases hsect
        | selftestHours => cases hsect
        | _ => exact ⟨_, rfl, by decide⟩
      have hpending : sectionNut o body s.cfg = pending := (Prod.mk.inj (Except.ok.inj hrun)).1
      have hread : numberAt (nutNumbers body s.cfg) F.member.span =
          castNumber body F.key F.lo F.width (numberAt s.cfg F.member.span) :=
            nutNumbers_stored F hsect
      rw [← hread, ← hpending, hf]
      exact numberAt_congr (read_sectionNut hsalt hsha hlogin)
  | pve =>
      rw [hsect] at hrun
      rw [← pveScalars_stored F hsect]
      dsimp only at hrun
      rw [sectionPve_eq] at hrun
      split at hrun
      · split at hrun
        · cases hrun
        · rename_i hosts hhosts
          have hpending : hosts.1 = pending := congrArg Prod.fst (Except.ok.inj hrun)
          rw [← hpending]
          exact numberAt_congr ((pveHosts_within hhosts).read fun k hk ⟨i, _, hin⟩ =>
            (F.not_has hk).1 (hostHas_hosts hin))
      · rw [← (Prod.mk.inj (Except.ok.inj hrun)).1]
  | _ => cases F <;> cases hsect

end Saved

/-! ## 4. The limits of a host -/

/-- The limits of a host, and of a rule. -/
inductive Limit where
  | min
  | pct
  deriving DecidableEq, Repr

namespace Limit

/-- Its field, after the prefix. -/
def name : Limit → String
  | min => "min"
  | pct => "pct"

/-- The largest that is accepted. -/
def hi : Limit → Int
  | min => 1440
  | pct => 100

def member : Limit → PveHostField
  | min => .onBatteryMin
  | pct => .chargePct

def encode : Limit → Int → List UInt8
  | min => fun n => le16 (UInt16.ofInt n)
  | pct => fun n => [UInt8.ofInt n]

/-- What a removed host is left with. -/
def reset : Limit → Nat
  | min => 30
  | pct => 10

def ofRule : Limit → PveGuest → Nat
  | min => fun rule => rule.onBatteryMin.toNat
  | pct => fun rule => rule.chargePct.toNat

theorem length_encode (L : Limit) (n : Int) : (L.encode n).length = L.member.span.size := by
  have hsizes : 2 = PveHostField.onBatteryMin.span.size ∧ 1 = PveHostField.chargePct.span.size := by
    decide
  cases L with
  | min => exact hsizes.1
  | pct => exact hsizes.2

/-- An accepted limit fits its member. -/
theorem numberAt_encode (L : Limit) {n : Int} (hlo : 0 ≤ n) (hn : n ≤ L.hi) {ν : Type*}
    {img : Image}
    {sp : Span ν} (h : img.read sp = L.encode n) : numberAt img sp = n.toNat := by
  cases L with
  | min =>
      have hn : n ≤ 1440 := hn
      rw [numberAt_half h, toNat_ofInt16]
      omega
  | pct =>
      have hn : n ≤ 100 := hn
      rw [numberAt_byte h, toNat_ofInt8]
      omega

end Limit

section Host

variable {body : List UInt8} {i : HostIx} {f g : PveHostField} {img img' stored res : Image}

/-- What is written within one member of a host leaves the others. -/
theorem read_host_beside (hne : f ≠ g)
    (h : ∀ P : Nat → Prop, (∀ k, (hostSpan i f).Has k → P k) → ChangedWithin P img img') :
    img'.read (hostSpan i g) = img.read (hostSpan i g) :=
  (h (hostSpan i f).Has fun _ hk => hk).read fun _ hk hf => (hostSpan_apart i hne).not_has hf hk

theorem numberAt_intoHostLimit (L : Limit) :
    numberAt (intoHostLimit body i L.name L.hi L.member L.encode img) (hostSpan i L.member) =
      boundedNumber body (hostKey i L.name) L.hi (numberAt img (hostSpan i L.member)) := by
  unfold intoHostLimit boundedNumber
  cases formGet body (hostKey i L.name) 128 with
  | none => rfl
  | some v =>
      dsimp only
      split
      · rename_i hin
        exact L.numberAt_encode hin.1 hin.2 (read_poke_self img (L.length_encode _))
      · rfl

/-- **A host that is kept** has the limits that are posted within bounds. -/
theorem pveHostFromForm_limit (hrun : pveHostFromForm body i img stored = (res, none))
    (hstay : formIsOne body (hostKey i "clear") 128 = false) (L : Limit) :
    numberAt res (hostSpan i L.member) =
      boundedNumber body (hostKey i L.name) L.hi (numberAt img (hostSpan i L.member)) := by
  have hlater : ChangedWithin
    (fun k => (hostSpan i .secret).Has k ∨ (hostSpan i .fingerprint).Has k ∨
      (hostSpan i .url).Has k) (hostFields body i img) res := by
    rw [pveHostFromForm_ok hstay hrun]
    exact within_trimUrl
      (within_hostFingerprint (within_hostStrlcpy (.refl _ _) _ fun _ => .inl) stored
      fun _ hk => .inr (.inl hk)) fun _ hk => .inr (.inr hk)
  have hne : L.member ≠ .secret ∧ L.member ≠ .fingerprint ∧ L.member ≠ .url := by cases L <;> decide
  have hfields : numberAt res (hostSpan i L.member) =
    numberAt (hostFields body i img) (hostSpan i L.member) := by
    refine numberAt_congr (hlater.read fun k hk => ?_)
    rintro (h | h | h)
    · exact (hostSpan_apart i hne.1).not_has hk h
    · exact (hostSpan_apart i hne.2.1).not_has hk h
    · exact (hostSpan_apart i hne.2.2).not_has hk h
  rw [hfields]
  unfold hostFields
  extract_lets h₁ h₂ h₃ h₄ h₅ h₆
  let P : Nat → Prop := fun k => ¬ (hostSpan i .onBatteryMin).Has k ∧
    ¬ (hostSpan i .chargePct).Has k
  have hP : ∀ {f : PveHostField}, f ≠ .onBatteryMin ∧ f ≠ .chargePct → ∀ k, (hostSpan i f).Has k →
    P k :=
    fun hf k hk => ⟨(hostSpan_apart i hf.1).not_has hk, (hostSpan_apart i hf.2).not_has hk⟩
  have hbefore : ChangedWithin P img h₅ :=
    within_hostByte (within_intoHostText (within_intoHostText (within_intoHostText
      (within_hostByte (.refl P img) _ (hP (by decide))) (hP (by decide))) (hP (by decide)))
        (hP (by decide))) _ (hP (by decide))
  have hsize : ∀ n, (Limit.encode .min n).length ≤ PveHostField.onBatteryMin.span.size := fun n =>
    Nat.le_of_eq (Limit.length_encode .min n)
  have hsize' : ∀ n, (Limit.encode .pct n).length ≤ PveHostField.chargePct.span.size := fun n =>
    Nat.le_of_eq (Limit.length_encode .pct n)
  cases L with
  | min =>
      have hpct : numberAt (intoHostLimit body i "pct" 100 .chargePct (Limit.encode .pct) h₆)
          (hostSpan i .onBatteryMin) = numberAt h₆ (hostSpan i .onBatteryMin) :=
        numberAt_congr
          (read_host_beside (by decide) fun P hP => within_intoHostLimit (.refl P h₆) hsize' hP)
      have hin : numberAt h₅ (hostSpan i .onBatteryMin) = numberAt img (hostSpan i .onBatteryMin) :=
        numberAt_congr (hbefore.read fun k hk hno => hno.1 hk)
      have hown : numberAt (intoHostLimit body i Limit.min.name Limit.min.hi Limit.min.member
          Limit.min.encode h₅) (hostSpan i Limit.min.member) =
          boundedNumber body (hostKey i Limit.min.name) Limit.min.hi
            (numberAt h₅ (hostSpan i Limit.min.member)) := numberAt_intoHostLimit .min
      exact hpct.trans (hown.trans (congrArg (boundedNumber _ _ _) hin))
  | pct =>
      have hmin : numberAt h₆ (hostSpan i .chargePct) = numberAt h₅ (hostSpan i .chargePct) :=
        numberAt_congr
          (read_host_beside (by decide) fun P hP => within_intoHostLimit (.refl P h₅) hsize hP)
      have hin : numberAt h₅ (hostSpan i .chargePct) = numberAt img (hostSpan i .chargePct) :=
        numberAt_congr (hbefore.read fun k hk hno => hno.2 hk)
      have hown : numberAt (intoHostLimit body i Limit.pct.name Limit.pct.hi Limit.pct.member
          Limit.pct.encode h₆) (hostSpan i Limit.pct.member) =
          boundedNumber body (hostKey i Limit.pct.name) Limit.pct.hi
            (numberAt h₆ (hostSpan i Limit.pct.member)) := numberAt_intoHostLimit .pct
      exact hown.trans (congrArg (boundedNumber _ _ _) (hmin.trans hin))

/-- A host that is removed has the defaults. -/
theorem pveHostFromForm_reset (hrun : pveHostFromForm body i img stored = (res, none))
    (hclear : formIsOne body (hostKey i "clear") 128 = true) (L : Limit) :
    numberAt res (hostSpan i L.member) = L.reset := by
  unfold pveHostFromForm at hrun
  rw [hclear, if_pos rfl] at hrun
  obtain ⟨-, hbound⟩ := hostField_bounds L.member
  have hlen : defaultHost.length = pveHostSize := by
    unfold defaultHost
    rw [List.length_map, List.length_range]
  have hread := read_poke_inner img (hostSpan i L.member) (hostStart i) defaultHost
    (Nat.le_add_right _ _) (by
      rw [hlen]
      show hostStart i + L.member.span.start + L.member.span.size ≤ hostStart i + pveHostSize
      omega)
  have hoff : (hostSpan i L.member).start - hostStart i = L.member.span.start :=
    Nat.add_sub_cancel_left ..
  rw [hoff] at hread
  rw [← (Prod.mk.inj hrun).1]
  cases L with
  | min =>
      have hbytes : ((List.range PveHostField.onBatteryMin.span.size).map fun k =>
          defaultHost.getD (PveHostField.onBatteryMin.span.start + k) 0) =
            le16 30 := by decide +kernel
      exact numberAt_half (hread.trans hbytes)
  | pct =>
      have hbytes : ((List.range PveHostField.chargePct.span.size).map fun k =>
          defaultHost.getD (PveHostField.chargePct.span.start + k) 0) = [10] := by decide +kernel
      exact numberAt_byte (hread.trans hbytes)

end Host

/-! ## 5. The rules of a host -/

section Rules

variable {o : Outside} {body : List UInt8} {i : HostIx} {img stored pending : Image}
    {is : List HostIx}
  {res : Image × List (HostIx × List PveGuest)}

/-- A box is read alike by any buffer. -/
theorem formIsOne_outsz (body : List UInt8) (key : String) {m n : Nat} (hm : 1 < m) (hn : 1 < n) :
    formIsOne body key m = formIsOne body key n := by
  have htake : ∀ sz, 1 < sz → (formText body key sz).take 1 = (typedText body key).take 1 :=
    fun sz hsz =>
    formText_take body key (Nat.le_sub_one_of_lt hsz) (by decide)
  have hhead : (formText body key m).head? = (formText body key n).head? := by
    have heq := congrArg List.head? ((htake m hm).trans (htake n hn).symm)
    rw [List.head?_take, List.head?_take] at heq
    simpa using heq
  unfold formIsOne
  rw [hhead]

/-- A host is enabled as its box says. -/
theorem pveHostFromForm_enabled {next : Image}
    (hrun : pveHostFromForm body i img stored = (next, none))
    (hstay : formIsOne body (hostKey i "clear") 128 = false) :
    hostFlag next i .enabled = formIsOne body (hostKey i "on") 128 := by
  let P : Nat → Prop := fun k => ¬ (hostSpan i .enabled).Has k
  have hP : ∀ {f : PveHostField}, f ≠ .enabled → ∀ k, (hostSpan i f).Has k → P k :=
    fun hne k hk => (hostSpan_apart i hne).not_has hk
  let on : Image := setHost img i .enabled [boolByte (formIsOne body (hostKey i "on") 128)]
  have hfields : ChangedWithin P on (hostFields body i img) := by
    unfold hostFields
    extract_lets h₂ h₃ h₄ h₅ h₆
    have hurl : ChangedWithin P on h₂ := within_intoHostText (.refl P on) (hP (by decide))
    have hnode : ChangedWithin P on h₃ := within_intoHostText hurl (hP (by decide))
    have htoken : ChangedWithin P on h₄ := within_intoHostText hnode (hP (by decide))
    have hoff : ChangedWithin P on h₅ := within_hostByte htoken _ (hP (by decide))
    have hmin : ChangedWithin P on h₆ :=
      within_intoHostLimit hoff (fun _ => Nat.le_refl 2) (hP (by decide))
    exact within_intoHostLimit hmin (fun _ => Nat.le_refl 1) (hP (by decide))
  have hnext : ChangedWithin P on next := by
    rw [pveHostFromForm_ok hstay hrun]
    exact within_trimUrl
      (within_hostFingerprint (within_hostStrlcpy hfields _ (hP (by decide))) stored
      (hP (by decide))) (hP (by decide))
  have hsize : 1 = (hostSpan i .enabled).size := by
    show 1 = PveHostField.enabled.span.size
    decide
  have hbyte : ∀ img : Image, img.read (hostSpan i .enabled) = [img (hostSpan i .enabled).start] :=
    fun img => by
    unfold Image.read
    rw [← hsize]
    rfl
  have hread : next.read (hostSpan i .enabled) = [boolByte (formIsOne body (hostKey i "on") 128)] :=
    (hnext.read fun k hk hno => hno hk).trans (read_poke_self img hsize)
  rw [hbyte] at hread
  unfold hostFlag
  rw [List.singleton_inj.mp hread]
  cases formIsOne body (hostKey i "on") 128 <;> rfl

/-- **The rules of a host that is kept and enabled** are to be stored. -/
theorem pveHosts_rules (h : pveHosts o body stored is pending = .ok res) (hi : i ∈ is)
    (hstay : formIsOne body (hostKey i "clear") 128 = false)
    (hon : formIsOne body (hostKey i "on") 128 = true) :
    (i, pveGuestsFromForm body i (o.alloc (i.val + 1))) ∈ res.2 := by
  have hstay8 : formIsOne body (hostKey i "clear") 8 = false := by
    rw [formIsOne_outsz body _ (by decide : 1 < 8) (by decide : 1 < 128), hstay]
  induction is generalizing pending res with
  | nil => cases hi
  | cons j is ih =>
      unfold pveHosts at h
      split at h
      · cases h
      · rename_i next hnext
        cases hrest : pveHosts o body stored is next with
        | error err => rw [hrest] at h; cases h
        | ok more =>
            rw [hrest] at h
            rw [← Except.ok.inj h]
            refine List.mem_append.mpr ?_
            rcases List.mem_cons.mp hi with rfl | hi
            · have henabled : hostFlag next i .enabled = true :=
                (pveHostFromForm_enabled hnext hstay).trans hon
              rw [hstay8, if_neg Bool.false_ne_true, henabled, if_pos rfl]
              exact .inl List.mem_cons_self
            · exact .inr (ih hrest hi)

/-- What is written for one of different hosts is stored. -/
theorem saveRules_mem {rules : List (HostIx × List PveGuest)} {guests : List PveGuest}
    (hnodup : (rules.map Prod.fst).Nodup) (hin : (i, guests) ∈ rules) (hok : o.saveGuests i = .ok)
    (st : HostIx → List PveGuest) : saveRules o rules st i = guests := by
  induction rules generalizing st with
  | nil => cases hin
  | cons p ps ih =>
      obtain ⟨hp, hrest⟩ := List.nodup_cons.mp hnodup
      show saveRules o ps (Function.update st p.1
        ((o.saveGuests p.1).write (st p.1) p.2).1) i = guests
      rcases List.mem_cons.mp hin with rfl | hin
      · rw [saveRules_other hp, Function.update_self, hok]
        rfl
      · exact ih hrest hin _

/-- A limit of a rule is the one that is posted, or 0. -/
theorem guestFromForm_right {g : Nat} {rule : PveGuest} (h : guestFromForm body i g = some rule)
    (L : Limit) {n : Int} (hn : IsInt n) (hc : Carries body (guestKey i g L.name) (decimalText n)) :
    SetRight 0 L.hi n 0 (L.ofRule rule) := by
  obtain ⟨⟨v, hget, hval⟩, -⟩ := hc.number hn
  have hlimit : guestLimit body (guestKey i g L.name) L.hi = if 0 ≤ n ∧ n ≤ L.hi then n else 0 := by
    unfold guestLimit
    simp only [hget, hval]
  unfold guestFromForm at h
  dsimp only at h
  split at h
  · cases h
  · rw [← Option.some.inj h]
    unfold SetRight
    cases L with
    | min =>
        have hlimit : guestLimit body (guestKey i g "min") 1440 = if 0 ≤ n ∧ n ≤ 1440 then n
          else 0 := hlimit
        simp only [Limit.ofRule, Limit.hi, toNat_ofInt16, hlimit]
        split <;> omega
    | pct =>
        have hlimit : guestLimit body (guestKey i g "pct") 100 = if 0 ≤ n ∧ n ≤ 100 then n else 0 :=
          hlimit
        simp only [Limit.ofRule, Limit.hi, toNat_ofInt8, hlimit]
        split <;> omega

end Rules

/-! ## 6. The request -/

section Request

variable {o : Outside} {r : Request} {s : Server κ} {body : List UInt8} {X : Section} {i : HostIx}

/-- The request reads the fields of a host: Proxmox is on, and the host is not removed. -/
def HostRead (cfg : Image) (body : List UInt8) (i : HostIx) : Prop :=
  pveFlag cfg .enabled = true ∧ formIsOne body (hostKey i "clear") 128 = false

/-- What a host that is not read holds: a removed one the defaults, and any with Proxmox off what it
    held. -/
def unreadLimit (cfg : Image) (i : HostIx) (L : Limit) : Nat :=
  if pveFlag cfg .enabled = true then L.reset else numberAt cfg (hostSpan i L.member)

/-- **What a request leaves of a limit.** -/
theorem Saved.limit_stored (h : Saved o r s body .pve) (i : HostIx) (L : Limit) :
    (HostRead s.cfg body i → numberAt (hAdminReconfigure o r s).2.cfg (hostSpan i L.member) =
      boundedNumber body (hostKey i L.name) L.hi (numberAt s.cfg (hostSpan i L.member))) ∧
    (¬ HostRead s.cfg body i → numberAt (hAdminReconfigure o r s).2.cfg (hostSpan i L.member) =
      unreadLimit s.cfg i L) := by
  obtain ⟨pending, rules, hrun, hcfg, -⟩ := h.result
  rw [runSection_name] at hrun
  have hmark : numberAt (hAdminReconfigure o r s).2.cfg (hostSpan i L.member) =
      numberAt pending (hostSpan i L.member) := by
    rw [hcfg]
    exact numberAt_congr (read_host_provisioned pending i L.member)
  rw [hmark]
  unfold HostRead unreadLimit
  cases hon : pveFlag s.cfg .enabled with
  | false =>
      obtain ⟨-, hscalars⟩ := sectionPve_off hon hrun
      refine ⟨fun hread => absurd hread.1 Bool.false_ne_true, fun _ => ?_⟩
      rw [if_neg Bool.false_ne_true]
      exact numberAt_congr (hscalars.read fun k hk =>
        pveScalars_apart (.inl rfl) (hostHas_hosts (hostSpan_within hk)))
  | true =>
      obtain ⟨before, next, hhost, hbefore, hafter⟩ := sectionPve_host hrun hon i
      have hnext : numberAt pending (hostSpan i L.member) = numberAt next (hostSpan i L.member) :=
        numberAt_congr (hafter L.member)
      rw [hnext, if_pos rfl]
      constructor
      · intro hread
        rw [pveHostFromForm_limit hhost hread.2, numberAt_congr (hbefore L.member)]
      · intro hno
        refine pveHostFromForm_reset hhost ?_ L
        cases hclear : formIsOne body (hostKey i "clear") 128 with
        | true => rfl
        | false => exact absurd ⟨rfl, hclear⟩ hno

/-- **What a request stores as the rules of a host** that is read and enabled, if NVS takes them. -/
theorem Saved.rules_stored (h : Saved o r s body .pve) (hread : HostRead s.cfg body i)
    (hon : formIsOne body (hostKey i "on") 128 = true) (hok : o.saveGuests i = .ok) :
    (hAdminReconfigure o r s).2.storedGuests i =
    pveGuestsFromForm body i (o.alloc (i.val + 1)) := by
  obtain ⟨pending, rules, hrun, -, hguests⟩ := h.result
  have hnodup := runSection_nodup hrun
  rw [runSection_name] at hrun
  dsimp only at hrun
  rw [sectionPve_eq, pveFlag_enabled, hread.1, if_pos rfl] at hrun
  rw [hguests]
  split at hrun
  · cases hrun
  · rename_i hosts hhosts
    have hrules : hosts.2 = rules := congrArg Prod.snd (Except.ok.inj hrun)
    have hin := pveHosts_rules hhosts (List.mem_finRange i) hread.2 hon
    rw [hrules] at hin
    exact saveRules_mem hnodup hin hok _

/-- **When numbers are stored right.** One that stands outside the hosts: if it fits the member, or
    if what is left of it is there already. A limit of a host: if the host is read, and else if what
    is there instead is right. The rules that are stored are those of the form, and each of them is
    right. -/
theorem numeric_settings_iff (hsalt : o.salt.length = 16) (hsha : ∀ m, (o.sha256 m).length = 32)
    (h : Saved o r s body X) :
    let s' := (hAdminReconfigure o r s).2
    (∀ F : Scalar, F.sect = X → ∀ n, IsInt n → Carries body F.key (decimalText n) →
      let prev := numberAt s.cfg F.member.span
      (SetRight F.lo (2 ^ F.width - 1) n prev (numberAt s'.cfg F.member.span) ↔
        n < 2 ^ F.width ∨ n % 2 ^ F.width = prev)) ∧
    (X = .pve → ∀ (i : HostIx) (L : Limit) (n : Int), IsInt n →
      Carries body (hostKey i L.name) (decimalText n) →
      let prev := numberAt s.cfg (hostSpan i L.member)
      (SetRight 0 L.hi n prev (numberAt s'.cfg (hostSpan i L.member)) ↔
        HostRead s.cfg body i ∨ SetRight 0 L.hi n prev (unreadLimit s.cfg i L))) ∧
    (X = .pve → ∀ (i : HostIx) (count : Int), HostRead s.cfg body i →
      formIsOne body (hostKey i "on") 128 = true → o.alloc (i.val + 1) = true →
      o.saveGuests i = .ok →
      IsInt count → Carries body (hostKey i "gcount") (decimalText count) →
      s'.storedGuests i = (List.range (min count 10000).toNat).filterMap (guestFromForm body i) ∧
        ∀ g rule, guestFromForm body i g = some rule → ∀ (L : Limit) (n : Int), IsInt n →
          Carries body (guestKey i g L.name) (decimalText n) →
          SetRight 0 L.hi n 0 (L.ofRule rule)) := by
  intro s'
  refine ⟨fun F hF n hn hc => ?_, fun hpve i L n hn hc => ?_,
    fun hpve i count hread hon hmem hok hcount hc => ?_⟩
  · dsimp only
    rw [h.scalar_stored hsalt hsha F hF]
    exact castNumber_right F.lo_bounds hc hn
  · subst hpve
    obtain ⟨hkept, hunread⟩ := h.limit_stored i L
    dsimp only
    by_cases hread : HostRead s.cfg body i
    · rw [hkept hread]
      exact ⟨fun _ => .inl hread, fun _ => boundedNumber_right hc hn⟩
    · rw [hunread hread]
      exact ⟨.inr, fun hright => hright.resolve_left hread⟩
  · subst hpve
    have hval : atoi (formText body (hostKey i "gcount") 16) = count := (hc.number hcount).2
    refine ⟨(h.rules_stored hread hon hok).trans ?_, fun g rule hrule L n hn hc =>
      guestFromForm_right hrule L hn hc⟩
    unfold pveGuestsFromForm
    simp only [hval, hmem]
    split
    · rename_i hnone
      have hzero : (min count 10000).toNat = 0 := by
        rcases hnone with hle | hno
        · omega
        · cases hno
      rw [hzero]
      rfl
    · rfl

/-- A form with a port of 65616. -/
def portFields : List FormField :=
  [⟨"section", ascii "nut",
  ascii "nut", by decide, Encodes.refl (by decide +kernel), by decide, by decide⟩,
    .number "nut_port" (by decide) 65616 (by decide)]

def postPort : Request := postOf "/api/reconfigure" (formBody portFields)

theorem postPort_saved : Saved quietOutside postPort ruledServer (formBody portFields) .nut where
  received := by decide +kernel
  named := by decide +kernel
  ok := by decide +kernel

theorem postPort_carries : Carries (formBody portFields) "nut_port" (decimalText 65616) :=
  @carries_of_perm portFields portFields [] (by rw [List.append_nil]) (by decide)
    (fun _ h => absurd h List.not_mem_nil) (.number "nut_port" (by decide) 65616 (by decide))
    (List.mem_cons_of_mem _ List.mem_cons_self)

theorem numeric_settings_iff_postPort :
    SetRight 1 (2 ^ 16 - 1) 65616 (numberAt ruledServer.cfg AppField.nutPort.span)
        (numberAt (hAdminReconfigure quietOutside postPort ruledServer).2.cfg
          AppField.nutPort.span) ↔
      (65616 : Int) < 2 ^ 16 ∨ (65616 : Int) % 2 ^ 16 =
      numberAt ruledServer.cfg AppField.nutPort.span :=
  (numeric_settings_iff (by decide) (fun _ => rfl) postPort_saved).1 .nutPort rfl 65616 (by decide)
    postPort_carries

/-- **A port wraps**: 65616 is accepted, and stored as 80. -/
theorem port_wraps :
    Saved quietOutside postPort ruledServer (formBody portFields) .nut ∧ IsInt 65616 ∧
      Carries (formBody portFields) Scalar.nutPort.key (decimalText 65616) ∧
      numberAt ruledServer.cfg Scalar.nutPort.member.span = 3493 ∧
      numberAt (hAdminReconfigure quietOutside postPort ruledServer).2.cfg
        Scalar.nutPort.member.span = 80 ∧
      ¬ SetRight Scalar.nutPort.lo (2 ^ Scalar.nutPort.width - 1) 65616 3493 80 :=
  ⟨postPort_saved, by decide, postPort_carries, by decide +kernel, by decide +kernel, by decide⟩

end Request

end NutBluetti.Web
