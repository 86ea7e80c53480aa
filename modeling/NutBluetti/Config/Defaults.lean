/-
  File:      NutBluetti/Config/Defaults.lean
  Subject:   READING THE CONFIGURATION: a member reads back what was assigned to it and is not
             touched by an assignment to another, by `strlcpy` into another, or by the Proxmox
             block.

  * `read_set_self`, `read_set_other` -- one assignment;
  * `read_pveDefaults_other` -- the defaults of the Proxmox block stay within it;
  * **`defaults_tgOnPveGuest`** -- the notices of guests are on by default, whatever the board.
-/
import NutBluetti.Config.Types

namespace NutBluetti.Config

open CLayout

/-! ## 1. Assignments -/

theorem read_set_self (img : Image) {f : AppField} {value : List UInt8}
    (h : value.length = f.span.size) : (set img f value).read f.span = value :=
  read_poke_self img h

/-- An assignment within one member leaves the others. -/
theorem read_set_other (img : Image) {f g : AppField} {value : List UInt8}
    (h : value.length ≤ f.span.size) (hne : g ≠ f) :
    (set img f value).read g.span = img.read g.span := by
  refine read_poke_other img ?_
  have hapart := AppField.span_apart hne
  unfold Apart at hapart
  omega

/-- So does `strlcpy`, which never leaves its member. -/
theorem read_strlcpy_other (img : Image) {f g : AppField} (s : List UInt8) (hpos : 0 < f.span.size)
    (hne : g ≠ f) : (strlcpy img f s).read g.span = img.read g.span := by
  refine read_set_other img ?_ hne
  rw [List.length_append, List.length_take, List.length_singleton]
  omega

/-- The byte of a member of one byte. -/
theorem read_byte (img : Image) {f : AppField} (h : f.span.size = 1) :
    img.read f.span = [img f.span.start] := by
  unfold Image.read
  rw [h]
  rfl

/-! ## 2. The blocks of the defaults -/

theorem read_setNutPassword_other (b : Board) (img : Image) (password : List UInt8) {g : AppField}
    (hsalt : g ≠ .nutSalt) (hhash : g ≠ .nutHash) (hset : g ≠ .nutAuthSet) :
    (appConfigSetNutPassword b img password).read g.span = img.read g.span := by
  unfold appConfigSetNutPassword
  rw [read_set_other _ (Nat.le_of_eq rfl) hset,
    read_set_other _ (Nat.le_of_eq (b.sha256_length _)) hhash,
    read_set_other _ (Nat.le_of_eq b.salt_length) hsalt]

/-- What every step of a loop leaves alone, the loop does. -/
theorem read_foldl_other {ν : Type} {s : Span ν} {step : Image → Nat → Image} {is : List Nat}
    (hstep : ∀ img, ∀ i ∈ is, (step img i).read s = img.read s) (img : Image) :
    (is.foldl step img).read s = img.read s := by
  induction is generalizing img with
  | nil => rfl
  | cons i is ih =>
      rw [List.foldl_cons, ih fun img j hj => hstep img j (List.mem_cons_of_mem i hj)]
      exact hstep img i List.mem_cons_self

/-- A span beside the Proxmox block keeps its bytes. -/
theorem read_pveDefaults_other (img : Image) {base : Nat} {s : Span AppField}
    (h : s.start + s.size ≤ base ∨ base + CLayout.sizeOf pveMembers ≤ s.start) :
    (appConfigPveDefaults img base).read s = img.read s := by
  have hblock : CLayout.sizeOf pveMembers = 1100 ∧ PveField.mainsBackMin.span.start = 2 ∧
      PveField.hosts.span.start = 4 := by decide
  have hhost : CLayout.sizeOf pveHostMembers = 274 ∧ PveHostField.onBatteryMin.span.start = 270 ∧
      PveHostField.chargePct.span.start = 272 ∧ PveHostField.guestWaitS.span.start = 202 ∧
      PveHostField.shutdownNode.span.start = 204 := by decide
  obtain ⟨hpve, hmains, hhosts⟩ := hblock
  obtain ⟨hsize, hmin, hpct, hwait, hnode⟩ := hhost
  have hhalf : ∀ v, (le16 v).length = 2 := fun _ => rfl
  unfold appConfigPveDefaults
  rw [read_foldl_other, read_poke_other, read_poke_other]
  · rw [List.length_replicate]
    omega
  · rw [hhalf]
    omega
  · intro img i hi
    have hi : i < 4 := List.mem_range.mp hi
    have hstart : i * CLayout.sizeOf pveHostMembers ≤ 3 * 274 := by
      rw [hsize]
      omega
    rw [read_poke_other, read_poke_other, read_poke_other, read_poke_other]
    all_goals
      simp only [hhalf, List.length_singleton]
      omega

theorem read_blankSsid_other (b : Board) (img : Image) {g : AppField} (hssid : g ≠ .wifiSsid)
    (hpass : g ≠ .wifiPass) : (blankSsid b img).read g.span = img.read g.span := by
  unfold blankSsid
  split
  · rw [read_set_other _ (by decide) hpass, read_set_other _ (by decide) hssid]
  · rfl

/-! ## 3. A default -/

/-- **The notices of guests are on by default.** -/
theorem defaults_tgOnPveGuest (b : Board) :
    (appConfigDefaults b).read AppField.tgOnPveGuest.span = [1] := by
  have hapart : AppField.tgOnPveGuest.span.start + AppField.tgOnPveGuest.span.size ≤
        AppField.pve.span.start ∨
      AppField.pve.span.start + CLayout.sizeOf pveMembers ≤ AppField.tgOnPveGuest.span.start := by
    decide
  unfold appConfigDefaults
  rw [read_blankSsid_other b _ (by decide) (by decide), read_pveDefaults_other _ hapart]
  iterate 11 rw [read_set_other _ (Nat.le_of_eq rfl) (by decide)]
  rw [read_strlcpy_other _ _ (by decide) (by decide),
    read_setNutPassword_other b _ _ (by decide) (by decide) (by decide),
    read_strlcpy_other _ _ (by decide) (by decide)]
  exact read_set_self _ (by decide)

end NutBluetti.Config
