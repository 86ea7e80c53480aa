/-
  File:      NutBluetti/Web/GuestRules.lean
  Subject:   THE RULES OF A HOST'S GUESTS, posted (provisioning.c) and stored (app_config.c). NVS
             holds one blob for each host, the array of `pve_guest_t` as it lies in memory, and none
             for a host without rules.

  * `guestsOf_blob` -- a blob holds its rules, whatever its padding holds;
  * `rules_load_save` -- what is saved for one host is loaded, and the others keep theirs;
  * `guestKey_injective`, `ruleKeys_nodup` -- no two fields of the rules have one key;
  * `pveGuestsFromForm_posted` -- what is posted is read;
  * **`guest_rules_survive`** -- from the form to NVS and back.
-/
import NutBluetti.Web.FormNumbers
import NutBluetti.Web.Settings

namespace NutBluetti.Web

open CText (IsInt split_at_first)
open NutBluetti.Config
open NutBluetti.Pve (PveGuest HostIx)

/-! ## 1. Rules as bytes -/

/-- The members of `pve_guest_t`. -/
inductive GuestField where
  | id
  | onBatteryMin
  | chargePct

def pveGuestMembers : List (CLayout.Member GuestField) :=
  [⟨.id, 4, 4⟩, ⟨.onBatteryMin, 2, 2⟩, ⟨.chargePct, 1, 1⟩]

/-- `sizeof (pve_guest_t)`: seven bytes, and one of padding. -/
def pveGuestSize : Nat := CLayout.sizeOf pveGuestMembers

example : pveGuestSize = 8 := by decide

/-- An `int`. -/
def le32 (n : Int) : List UInt8 :=
  let w := (n % 2 ^ 32).toNat
  [UInt8.ofNat w, UInt8.ofNat (w / 2 ^ 8), UInt8.ofNat (w / 2 ^ 16), UInt8.ofNat (w / 2 ^ 24)]

def intOf (b₀ b₁ b₂ b₃ : UInt8) : Int :=
  let w : Nat := b₀.toNat + b₁.toNat * 2 ^ 8 + b₂.toNat * 2 ^ 16 + b₃.toNat * 2 ^ 24
  if w < 2 ^ 31 then w else w - 2 ^ 32

/-- A `uint16_t`. -/
def halfOf (b₀ b₁ : UInt8) : UInt16 := UInt16.ofNat (b₀.toNat + b₁.toNat * 2 ^ 8)

/-- A rule as it lies in memory. -/
def guestBytes (pad : UInt8) (g : PveGuest) : List UInt8 :=
  le32 g.id ++ le16 g.onBatteryMin ++ [g.chargePct, pad]

/-- An array of rules; the padding of each is what `malloc` left there. -/
def guestsBlob : (Nat → UInt8) → List PveGuest → List UInt8
  | _, [] => []
  | pad, g :: gs => guestBytes (pad 0) g ++ guestsBlob (fun k => pad (k + 1)) gs

/-- The rules of a blob, one for each `sizeof (pve_guest_t)` of it. -/
def guestsOf : List UInt8 → List PveGuest
  | b₀ :: b₁ :: b₂ :: b₃ :: b₄ :: b₅ :: b₆ :: _ :: rest =>
      ⟨intOf b₀ b₁ b₂ b₃, halfOf b₄ b₅, b₆⟩ :: guestsOf rest
  | _ => []

theorem intOf_le32 {n : Int} (hn : IsInt n) :
    intOf (UInt8.ofNat (n % 2 ^ 32).toNat) (UInt8.ofNat ((n % 2 ^ 32).toNat / 2 ^ 8))
      (UInt8.ofNat ((n % 2 ^ 32).toNat / 2 ^ 16)) (UInt8.ofNat ((n % 2 ^ 32).toNat / 2 ^ 24)) =
        n := by
  obtain ⟨hlo, hhi⟩ := hn
  have hbyte : ∀ k, (UInt8.ofNat k).toNat = k % 2 ^ 8 := fun _ => UInt8.toNat_ofNat'
  unfold intOf
  simp only [hbyte]
  omega

theorem halfOf_le16 (v : UInt16) : halfOf v.toUInt8 (v >>> 8).toUInt8 = v := by
  have hlt : v.toNat < 2 ^ 16 := v.toNat_lt
  have hlow : v.toUInt8.toNat = v.toNat % 2 ^ 8 := UInt16.toNat_toUInt8 v
  have hhigh : (v >>> 8).toUInt8.toNat = v.toNat / 2 ^ 8 % 2 ^ 8 := by
    rw [UInt16.toNat_toUInt8, UInt16.toNat_shiftRight, Nat.shiftRight_eq_div_pow]
    rfl
  apply UInt16.toNat_inj.mp
  unfold halfOf
  rw [UInt16.toNat_ofNat', hlow, hhigh]
  omega

theorem guestsOf_cons {g : PveGuest} (hg : IsInt g.id) (pad : UInt8) (rest : List UInt8) :
    guestsOf (guestBytes pad g ++ rest) = g :: guestsOf rest := by
  show PveGuest.mk (intOf _ _ _ _) (halfOf _ _) g.chargePct :: guestsOf rest = _
  rw [intOf_le32 hg, halfOf_le16]

/-- **A blob holds its rules.** -/
theorem guestsOf_blob (pad : Nat → UInt8) {guests : List PveGuest}
    (hids : ∀ g ∈ guests, IsInt g.id) :
    guestsOf (guestsBlob pad guests) = guests := by
  induction guests generalizing pad with
  | nil => rfl
  | cons g gs ih =>
      obtain ⟨hg, hgs⟩ := List.forall_mem_cons.mp hids
      rw [guestsBlob, guestsOf_cons hg, ih _ hgs]

theorem length_guestsBlob (pad : Nat → UInt8) (guests : List PveGuest) :
    (guestsBlob pad guests).length = guests.length * pveGuestSize := by
  have hone : ∀ p g, (guestBytes p g).length = pveGuestSize := fun _ _ => rfl
  induction guests generalizing pad with
  | nil => rw [List.length_nil, Nat.zero_mul]; rfl
  | cons g gs ih =>
      rw [guestsBlob, List.length_append, hone, ih, List.length_cons, Nat.succ_mul, Nat.add_comm]

/-! ## 2. NVS -/

/-- The blobs of the namespace `CFG_NS`, by key. -/
abbrev Nvs := String → Option (List UInt8)

/-- `guest_key`. -/
def guestBlobKey (i : HostIx) : String := "pveg" ++ toString i.val

/-- **`app_config_pve_guests_save`**: what is stored after it, and whether it returns `ESP_OK`. -/
def appConfigPveGuestsSave (fault : NvsFault) (i : HostIx) (pad : Nat → UInt8)
    (guests : List PveGuest)
    (nvs : Nvs) : Nvs × Bool :=
  fault.write nvs (Function.update nvs (guestBlobKey i)
    (if guests = [] then none else some (guestsBlob pad guests)))

/-- **`app_config_pve_guests_load`**; `opens` is `nvs_open`, `allocOk` its `malloc`, `reads` the
    second `nvs_get_blob`. -/
def appConfigPveGuestsLoad (opens allocOk reads : Bool) (i : HostIx) (nvs : Nvs) : List PveGuest :=
  if !opens then []
  else
    match nvs (guestBlobKey i) with
    | none => []
    | some blob =>
        if blob.length = 0 ∨ blob.length % pveGuestSize ≠ 0 then []
        else if !allocOk || !reads then []
        else guestsOf blob

theorem guestBlobKey_injective : Function.Injective guestBlobKey := by
  have hall : ∀ i j : HostIx, guestBlobKey i = guestBlobKey j → i = j := by decide
  exact fun i j => hall i j

/-- **What is saved is loaded**, and the other hosts keep theirs. -/
theorem rules_load_save (i : HostIx) (pad : Nat → UInt8) {guests : List PveGuest}
    (hids : ∀ g ∈ guests, IsInt g.id) (nvs : Nvs) :
    appConfigPveGuestsLoad true true true i (appConfigPveGuestsSave .ok i pad guests nvs).1 =
    guests ∧
      ∀ j ≠ i, (appConfigPveGuestsSave .ok i pad guests nvs).1 (guestBlobKey j) =
        nvs (guestBlobKey j) := by
  constructor
  · have hhere : (appConfigPveGuestsSave .ok i pad guests nvs).1 (guestBlobKey i) =
        if guests = [] then none else some (guestsBlob pad guests) := Function.update_self ..
    unfold appConfigPveGuestsLoad
    rw [hhere]
    by_cases hnil : guests = []
    · simp [hnil]
    · have hlen := length_guestsBlob pad guests
      have hpos := List.length_pos_of_ne_nil hnil
      have hsize : pveGuestSize = 8 := by decide
      have hsound : ¬ ((guestsBlob pad guests).length = 0 ∨
          (guestsBlob pad guests).length % pveGuestSize ≠ 0) := by
        rw [hlen, hsize]
        omega
      simp only [if_neg hnil, if_neg hsound]
      exact guestsOf_blob pad hids
  · intro j hj
    exact Function.update_of_ne (fun heq => hj (guestBlobKey_injective heq)) _ _

/-! ## 3. The fields of the rules -/

/-- The fields of rule `g`. -/
def guestFields (i : HostIx) (r : PveGuest) (g : Nat) : List (String × Int) :=
  [(guestKey i g "id", r.id), (guestKey i g "min", r.onBatteryMin.toNat),
    (guestKey i g "pct", r.chargePct.toNat)]

/-- The fields of all rules of a host: the count, and three for each. -/
def ruleFields (i : HostIx) (rules : List PveGuest) : List (String × Int) :=
  (hostKey i "gcount", rules.length) :: rules.zipIdx.flatMap fun (r, g) => guestFields i r g

/-- A form that posts the rules: each field once, in any order, among others with other keys. -/
def PostsRules (i : HostIx) (rules : List PveGuest) (ps : List FormField) : Prop :=
  ∃ fields others : List FormField, ps.Perm (fields ++ others) ∧
    fields.map (fun p => (p.key, p.value)) =
      (ruleFields i rules).map (fun kn => (kn.1, decimalText kn.2)) ∧
    ∀ q ∈ others, q.key ∉ (ruleFields i rules).map Prod.fst

theorem toDigits_injective {n m : Nat} (h : Nat.toDigits 10 n = Nat.toDigits 10 m) : n = m := by
  have hbytes : digitBytes n = digitBytes m := congrArg (List.map chr) h
  rw [← (decimal_digitBytes n).1, hbytes, (decimal_digitBytes m).1]

theorem guestKey_toList (i : HostIx) (g : Nat) (name : String) :
    (guestKey i g name).toList =
      ("h" ++ toString i.val ++ "_g").toList ++ (Nat.toDigits 10 g ++ '_' :: name.toList) := by
  unfold guestKey
  rw [String.toList_append, String.toList_append, String.toList_append,
    Nat.toString_eq_repr (n := g), Nat.toList_repr, List.append_assoc, List.append_assoc]
  rfl

/-- **A key names one rule, and one member of it.** -/
theorem guestKey_injective {i : HostIx} {g g' : Nat} {name name' : String}
    (h : guestKey i g name = guestKey i g' name') : g = g' ∧ name = name' := by
  have hlist := congrArg String.toList h
  rw [guestKey_toList, guestKey_toList] at hlist
  obtain ⟨hdigits, hname⟩ :=
    split_at_first Nat.underscore_not_in_toDigits Nat.underscore_not_in_toDigits
    (List.append_cancel_left hlist)
  exact ⟨toDigits_injective hdigits, String.toList_injective hname⟩

/-- The count has a key of its own: no number begins with `c`. -/
theorem guestKey_ne_gcount (i : HostIx) (g : Nat) (name : String) :
    guestKey i g name ≠ hostKey i "gcount" := by
  intro h
  have hlist := congrArg String.toList h
  have hcount : (hostKey i "gcount").toList =
    ("h" ++ toString i.val ++ "_g").toList ++ "count".toList := by
    unfold hostKey
    simp only [String.toList_append, List.append_assoc]
    rfl
  rw [guestKey_toList, hcount] at hlist
  have hrest := List.append_cancel_left hlist
  cases hd : Nat.toDigits 10 g with
  | nil => exact Nat.toDigits_ne_nil hd
  | cons c ds =>
      rw [hd] at hrest
      have hc : c = 'c' := (List.cons.inj hrest).1
      have hdigit : c.isDigit = true :=
        Nat.isDigit_of_mem_toDigits (by decide) (by decide) (hd ▸ List.mem_cons_self)
      rw [hc] at hdigit
      cases hdigit

/-- **No two fields of the rules have one key.** -/
theorem ruleKeys_nodup (i : HostIx) (rules : List PveGuest) :
    ((ruleFields i rules).map Prod.fst).Nodup := by
  have hkeys : (ruleFields i rules).map Prod.fst = hostKey i "gcount" ::
      rules.zipIdx.flatMap fun rg =>
        [guestKey i rg.2 "id", guestKey i rg.2 "min", guestKey i rg.2 "pct"] := by
    unfold ruleFields
    rw [List.map_cons, List.map_flatMap]
    rfl
  rw [hkeys, List.nodup_cons]
  constructor
  · intro hin
    obtain ⟨rg, -, hkey⟩ := List.mem_flatMap.mp hin
    simp only [List.mem_cons, List.not_mem_nil, or_false] at hkey
    rcases hkey with h | h | h
    all_goals exact guestKey_ne_gcount i rg.2 _ h.symm
  · refine List.nodup_flatMap.mpr ⟨fun rg _ => ?_, ?_⟩
    · have hne : ∀ a b : String, a ≠ b → guestKey i rg.2 a ≠ guestKey i rg.2 b := fun a b hab h =>
        hab (guestKey_injective h).2
      simp [hne "id" "min" (by decide), hne "id" "pct" (by decide), hne "min" "pct" (by decide)]
    · have hindex : rules.zipIdx.Pairwise fun rg rg' => rg.2 ≠ rg'.2 := by
        refine List.pairwise_map.mp ?_
        rw [List.zipIdx_map_snd]
        exact List.nodup_range'
      refine hindex.imp fun {rg rg'} hne => ?_
      intro key hkey hkey'
      simp only [List.mem_cons, List.not_mem_nil, or_false] at hkey hkey'
      rcases hkey with rfl | rfl | rfl
      all_goals
        rcases hkey' with h | h | h
        all_goals exact hne (guestKey_injective h).1

/-! ## 4. From the form to NVS and back -/

/-- A rule that the page can post. -/
structure IsRule (r : PveGuest) : Prop where
  id : 0 < r.id
  int : r.id < 2 ^ 31
  min : r.onBatteryMin.toNat ≤ 1440
  pct : r.chargePct.toNat ≤ 100

/-- A field of the rules is carried by the form. -/
theorem PostsRules.carries {i : HostIx} {rules : List PveGuest} {ps : List FormField}
    (hps : PostsRules i rules ps) {kn : String × Int} (hkn : kn ∈ ruleFields i rules) :
    Carries (formBody ps) kn.1 (decimalText kn.2) := by
  obtain ⟨fields, others, hperm, hfields, hothers⟩ := hps
  have hkeys : fields.map FormField.key = (ruleFields i rules).map Prod.fst := by
    have hfst := congrArg (List.map Prod.fst) hfields
    rw [List.map_map, List.map_map] at hfst
    exact hfst
  have hin : (kn.1, decimalText kn.2) ∈ fields.map fun p => (p.key, p.value) := by
    rw [hfields]
    exact List.mem_map.mpr ⟨kn, hkn, rfl⟩
  obtain ⟨p, hp, hpair⟩ := List.mem_map.mp hin
  obtain ⟨hkey, hvalue⟩ := Prod.mk.inj hpair
  rw [← hkey, ← hvalue]
  exact carries_of_perm hperm (hkeys ▸ ruleKeys_nodup i rules) (hkeys ▸ hothers) hp

/-- A limit that is posted within bounds is read. -/
theorem guestLimit_posted {body : List UInt8} {key : String} {hi n : Int}
    (hc : Carries body key (decimalText n)) (hlo : 0 ≤ n) (hn : n ≤ hi) (hint : IsInt n) :
    guestLimit body key hi = n := by
  obtain ⟨⟨v, hget, hval⟩, -⟩ := hc.number hint
  unfold guestLimit
  simp only [hget, hval, if_pos (And.intro hlo hn)]

/-- **A rule that is posted is read.** -/
theorem guestFromForm_posted {body : List UInt8} {i : HostIx} {g : Nat} {r : PveGuest}
    (hr : IsRule r)
    (hc : ∀ kn ∈ guestFields i r g, Carries body kn.1 (decimalText kn.2)) :
    guestFromForm body i g = some r := by
  have hminlt := hr.min
  have hpctlt := hr.pct
  have hid := hc (guestKey i g "id", r.id) (by simp [guestFields])
  have hmin := hc (guestKey i g "min", r.onBatteryMin.toNat) (by simp [guestFields])
  have hpct := hc (guestKey i g "pct", r.chargePct.toNat) (by simp [guestFields])
  dsimp only at hid hmin hpct
  have hidval := (hid.number ⟨Int.le_trans (by decide) (Int.le_of_lt hr.id), hr.int⟩).2
  have hminval : guestLimit body (guestKey i g "min") 1440 = r.onBatteryMin.toNat :=
    guestLimit_posted hmin (by omega) (by omega) ⟨by omega, by omega⟩
  have hpctval : guestLimit body (guestKey i g "pct") 100 = r.chargePct.toNat :=
    guestLimit_posted hpct (by omega) (by omega) ⟨by omega, by omega⟩
  have hhalf : UInt16.ofInt r.onBatteryMin.toNat = r.onBatteryMin := by
    apply UInt16.toNat_inj.mp
    rw [toNat_ofInt16]
    omega
  have hbyte : UInt8.ofInt r.chargePct.toNat = r.chargePct := by
    apply UInt8.toNat_inj.mp
    rw [toNat_ofInt8]
    omega
  unfold guestFromForm
  simp only [hidval, if_neg (Int.not_le.mpr hr.id), hminval, hpctval, hhalf, hbyte]

theorem filterMap_range_getElem {α : Type*} (l : List α) :
    (List.range l.length).filterMap (fun k => l[k]?) = l := by
  induction l using List.reverseRecOn with
  | nil => rfl
  | append_singleton l a ih =>
      have hlast : (l ++ [a])[l.length]? = some a := by simp
      have hrest : ∀ k ∈ List.range l.length, (l ++ [a])[k]? = l[k]? := fun k hk =>
        List.getElem?_append_left (List.mem_range.mp hk)
      rw [List.length_append, List.length_singleton, List.range_succ, List.filterMap_append,
        List.filterMap_congr hrest, ih, List.filterMap_cons, hlast]
      rfl

/-- **What is posted is read**: the rules, in order, and nothing else. -/
theorem pveGuestsFromForm_posted {i : HostIx} {rules : List PveGuest} {ps : List FormField}
    (hlen : rules.length ≤ 10000) (hrules : ∀ r ∈ rules, IsRule r) (hps : PostsRules i rules ps) :
    pveGuestsFromForm (formBody ps) i true = rules := by
  have hcount : atoi (formText (formBody ps) (hostKey i "gcount") 16) = rules.length := by
    have hc := @PostsRules.carries i rules ps hps (hostKey i "gcount", rules.length)
      List.mem_cons_self
    exact (hc.number ⟨by omega, by omega⟩).2
  have hrule : ∀ g ∈ List.range rules.length, guestFromForm (formBody ps) i g = rules[g]? := by
    intro g hg
    have hlt := List.mem_range.mp hg
    have hin : (rules[g], g) ∈ rules.zipIdx := List.mk_mem_zipIdx_iff_getElem?.mpr (by simp [hlt])
    rw [List.getElem?_eq_getElem hlt]
    refine guestFromForm_posted (hrules _ (List.getElem_mem hlt)) fun kn hkn => hps.carries ?_
    exact List.mem_cons_of_mem _ (List.mem_flatMap.mpr ⟨_, hin, hkn⟩)
  unfold pveGuestsFromForm
  simp only [hcount]
  split
  · rename_i hempty
    have hnil : rules = [] := by
      rcases hempty with hle | hno
      · exact List.eq_nil_of_length_eq_zero (by omega)
      · cases hno
    exact hnil.symm
  · rw [Int.min_eq_left (by omega), Int.toNat_natCast, List.filterMap_congr hrule,
      filterMap_range_getElem]

/-- **Guest rules survive**: rules that are posted, in any order of the fields, and then saved are
    what is loaded, and the other hosts load what they loaded before. -/
theorem guest_rules_survive {i : HostIx} {rules : List PveGuest} {ps : List FormField}
    (hlen : rules.length ≤ 10000) (hrules : ∀ r ∈ rules, IsRule r) (hps : PostsRules i rules ps)
    (pad : Nat → UInt8) (nvs : Nvs) :
    let nvs' := (appConfigPveGuestsSave .ok i pad (pveGuestsFromForm (formBody ps) i true) nvs).1
    appConfigPveGuestsLoad true true true i nvs' = rules ∧
      ∀ j ≠ i, nvs' (guestBlobKey j) = nvs (guestBlobKey j) ∧
        appConfigPveGuestsLoad true true true j nvs' =
        appConfigPveGuestsLoad true true true j nvs := by
  intro nvs'
  have hids : ∀ r ∈ rules, IsInt r.id := fun r hr =>
    ⟨Int.le_trans (by decide) (Int.le_of_lt (hrules r hr).id), (hrules r hr).int⟩
  have hread := pveGuestsFromForm_posted hlen hrules hps
  obtain ⟨hown, hothers⟩ := rules_load_save i pad hids nvs
  rw [← hread] at hown hothers
  refine ⟨hown.trans hread, fun j hj => ⟨hothers j hj, ?_⟩⟩
  unfold appConfigPveGuestsLoad
  rw [show nvs' (guestBlobKey j) = nvs (guestBlobKey j) from hothers j hj]

/-- Two rules of the second host, and their fields. -/
def pairRules : List PveGuest := [⟨101, 5, 20⟩, ⟨102, 0, 0⟩]

def pairFields : List FormField :=
  [.number "h1_gcount" (by decide) 2 (by decide), .number "h1_g0_id" (by decide) 101 (by decide),
    .number "h1_g0_min" (by decide) 5 (by decide), .number "h1_g0_pct" (by decide) 20 (by decide),
    .number "h1_g1_id" (by decide) 102 (by decide), .number "h1_g1_min" (by decide) 0 (by decide),
    .number "h1_g1_pct" (by decide) 0 (by decide)]

/-- A rule of another host, in the same form. -/
def strayFields : List FormField := [.number "h2_g1_id" (by decide) 7 (by decide)]

theorem guest_rules_survive_pair :
    let nvs' := (appConfigPveGuestsSave .ok 1 (fun _ => 0xA5)
      (pveGuestsFromForm (formBody (pairFields ++ strayFields).reverse) 1 true) fun _ => none).1
    appConfigPveGuestsLoad true true true 1 nvs' = pairRules ∧
      ∀ j ≠ 1, nvs' (guestBlobKey j) = none ∧
        appConfigPveGuestsLoad true true true j nvs' =
          appConfigPveGuestsLoad true true true j fun _ => none :=
  have hrules : ∀ r ∈ pairRules, IsRule r :=
    List.forall_mem_cons.mpr ⟨⟨by decide, by decide, by decide, by decide⟩,
      List.forall_mem_singleton.mpr ⟨by decide, by decide, by decide, by decide⟩⟩
  have hposts : PostsRules 1 pairRules (pairFields ++ strayFields).reverse :=
    ⟨pairFields, strayFields,
      List.reverse_perm _, by decide, List.forall_mem_singleton.mpr (by decide)⟩
  guest_rules_survive (by decide) hrules hposts (fun _ => 0xA5) fun _ => none

end NutBluetti.Web
