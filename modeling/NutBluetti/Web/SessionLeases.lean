/-
  File:      NutBluetti/Web/SessionLeases.lean
  Subject:   THE FOUR SLOTS AS LEASES. The tokens of the sessions with their last uses, and what
             each operation on the slots does to them.

  * **`ousted_iff`** -- a sign-in takes a free slot if there is one, else that of the least recently
    used token, and of several the first;
  * **`leases_sessionNew`**, **`leases_dropToken`**, **`leases_authSlot`** -- the three operations
    grant, release and check a lease (Lib/Leases.lean), where no two slots hold one token;
  * `distinct_sessionNew`, `distinct_dropToken`, `distinct_authSlot` -- and so it stays.
-/
import NutBluetti.Lib.Leases
import NutBluetti.Web.Sessions

namespace NutBluetti.Web

/-! ## 1. The slots as leases -/

/-- The tokens of the sessions, with their last uses. -/
def leases (ss : Sessions) (tok : Token) : Option Int := (slotOf ss tok).map fun i => (ss i).lastUs

/-- A use in time keeps a session. -/
def InTime (lastUs nowUs : Int) : Prop := nowUs - lastUs ≤ sessionIdleUs

instance : DecidableRel InTime := fun lastUs nowUs =>
  inferInstanceAs (Decidable (nowUs - lastUs ≤ sessionIdleUs))

theorem leases_iff {ss : Sessions} (hd : Distinct ss) {tok : Token} {u : Int} :
    leases ss tok = some u ↔ ∃ i, ss i = ⟨some tok, u⟩ := by
  unfold leases
  constructor
  · intro h
    obtain ⟨i, hi, rfl⟩ := Option.map_eq_some_iff.mp h
    refine ⟨i, ?_⟩
    rw [← slotOf_some hi]
  · rintro ⟨i, hi⟩
    have htok : (ss i).tok = some tok := congrArg Slot.tok hi
    cases hslot : slotOf ss tok with
    | none => exact absurd htok (slotOf_none hslot i)
    | some j =>
        obtain rfl := hd i j tok htok (slotOf_some hslot)
        exact congrArg (fun x => some x.lastUs) hi

theorem leases_none {ss : Sessions} {tok : Token} :
    leases ss tok = none ↔ ∀ i, (ss i).tok ≠ some tok := by
  unfold leases
  rw [Option.map_eq_none_iff]
  refine ⟨fun h i => slotOf_none h i, fun h => ?_⟩
  cases hslot : slotOf ss tok with
  | none => rfl
  | some i => exact absurd (slotOf_some hslot) (h i)

/-- Where no two slots hold one token, the table says who is let through. -/
theorem live_iff_leases {ss : Sessions} (hd : Distinct ss) (tok : Token) (nowUs : Int) :
    Live ss tok nowUs ↔ ∃ u, leases ss tok = some u ∧ InTime u nowUs := by
  constructor
  · rintro ⟨i, htok, hlast⟩
    refine ⟨(ss i).lastUs, (leases_iff hd).mpr ⟨i, ?_⟩, hlast⟩
    rw [← htok]
  · rintro ⟨u, hu, hin⟩
    obtain ⟨i, hi⟩ := (leases_iff hd).mp hu
    refine ⟨i, by rw [hi], ?_⟩
    rw [hi]
    exact hin

/-- Of the slots from `slot` on, in order: a free one is taken if there is one. -/
theorem pickSlot_free {ss : Sessions} {slot : Fin sessionSlots} {l : List (Fin sessionSlots)}
    (h : ∃ i ∈ l, (ss i).tok = none) : (ss (pickSlot ss slot l)).tok = none := by
  induction l generalizing slot with
  | nil => obtain ⟨i, hi, -⟩ := h; cases hi
  | cons i rest ih =>
      unfold pickSlot
      by_cases hfree : (ss i).tok = none
      · rw [if_pos hfree]
        exact hfree
      · rw [if_neg hfree]
        have hrest : ∃ j ∈ rest, (ss j).tok = none := by
          obtain ⟨j, hj, hnone⟩ := h
          obtain rfl | hj := List.mem_cons.mp hj
          · exact absurd hnone hfree
          · exact ⟨j, hj, hnone⟩
        split
        · exact ih hrest
        · exact ih hrest

/-- Else the least recently used of them, and of several that are, the first. -/
theorem pickSlot_least {ss : Sessions} {slot : Fin sessionSlots} {l : List (Fin sessionSlots)}
    (hocc : ∀ i ∈ l, (ss i).tok ≠ none) (hord : (slot :: l).Pairwise (· ≤ ·)) : ∀ j ∈ slot :: l,
    (ss (pickSlot ss slot l)).lastUs ≤ (ss j).lastUs ∧
      (j < pickSlot ss slot l → (ss (pickSlot ss slot l)).lastUs < (ss j).lastUs) := by
  induction l generalizing slot with
  | nil =>
      intro j hj
      obtain rfl := List.mem_singleton.mp hj
      exact ⟨Int.le_refl _, fun hlt => absurd hlt (Nat.lt_irrefl _)⟩
  | cons i rest ih =>
      obtain ⟨hslot, hrest⟩ := List.pairwise_cons.mp hord
      have hocc' : ∀ j ∈ rest, (ss j).tok ≠ none := fun j hj => hocc j (List.mem_cons_of_mem _ hj)
      have hle : slot ≤ i := hslot i List.mem_cons_self
      unfold pickSlot
      rw [if_neg (hocc i List.mem_cons_self)]
      by_cases hlt : (ss i).lastUs < (ss slot).lastUs
      · rw [if_pos hlt]
        have hall := ih hocc' hrest
        intro j hj
        obtain rfl | hj := List.mem_cons.mp hj
        · have hi := (hall i List.mem_cons_self).1
          exact ⟨by omega, fun _ => by omega⟩
        · exact hall j hj
      · rw [if_neg hlt]
        have hskip : (slot :: rest).Pairwise (· ≤ ·) :=
          List.pairwise_cons.mpr ⟨fun j hj => hslot j (List.mem_cons_of_mem _ hj),
            (List.pairwise_cons.mp hrest).2⟩
        have hall := ih hocc' hskip
        obtain ⟨hmin, hfirst⟩ := hall slot List.mem_cons_self
        intro j hj
        obtain rfl | hj := List.mem_cons.mp hj
        · exact ⟨hmin, hfirst⟩
        · obtain rfl | hj := List.mem_cons.mp hj
          · refine ⟨by omega, fun hj => ?_⟩
            have hs := hfirst (Nat.lt_of_le_of_lt hle hj)
            omega
          · exact hall j (List.mem_cons_of_mem _ hj)

/-- The token that a new session takes the slot of, if all are taken. -/
def oustedToken (ss : Sessions) : Option Token :=
  (ss (pickSlot ss 0 (List.finRange sessionSlots))).tok

/-- A token is in the slot that was used the longest ago of four that are taken, and in the first of
    them if there are several. -/
structure Stalest (ss : Sessions) (tok : Token) : Prop where
  taken : ∀ j, (ss j).tok ≠ none
  least : ∃ i, (ss i).tok = some tok ∧
    ∀ j, j ≠ i → (ss i).lastUs < (ss j).lastUs ∨ (ss i).lastUs = (ss j).lastUs ∧ i < j

/-- **Whom a sign-in ousts.** -/
theorem ousted_iff (ss : Sessions) (tok : Token) :
    oustedToken ss = some tok ↔ Stalest ss tok := by
  have hord : ((0 : Fin sessionSlots) :: List.finRange sessionSlots).Pairwise (· ≤ ·) := by decide
  constructor
  · intro htok
    have htaken : ∀ j, (ss j).tok ≠ none := by
      intro j hnone
      have hfree := @pickSlot_free ss 0 _ ⟨j, List.mem_finRange j, hnone⟩
      exact absurd (hfree.symm.trans htok) (Option.some_ne_none _).symm
    refine ⟨htaken, _, htok, fun j hj => ?_⟩
    obtain ⟨hmin, hfirst⟩ := pickSlot_least (fun i _ => htaken i) hord j
      (List.mem_cons_of_mem _ (List.mem_finRange j))
    obtain hlt | hgt := Nat.lt_or_gt_of_ne (fun hv => hj (Fin.ext hv))
    · exact .inl (hfirst hlt)
    · obtain hlt | heq := Int.lt_or_eq_of_le hmin
      · exact .inl hlt
      · exact .inr ⟨heq, hgt⟩
  · rintro ⟨htaken, i, htok, hleast⟩
    have hall := pickSlot_least (fun i _ => htaken i) hord i
      (List.mem_cons_of_mem _ (List.mem_finRange i))
    by_cases hi : pickSlot ss 0 (List.finRange sessionSlots) = i
    · unfold oustedToken
      rw [hi, htok]
    · obtain hlt | ⟨heq, hlt⟩ := hleast _ hi
      · exact absurd hall.1 (Int.not_le.mpr hlt)
      · exact absurd (hall.2 hlt) (by omega)

/-! ## 2. What the operations do to the leases -/

/-- Two tables are the same if they show the same of every holder. -/
theorem leases_eq {ss : Sessions} (hd : Distinct ss) {tab : Token → Option Int}
    (h : ∀ tok u, (∃ i, ss i = ⟨some tok, u⟩) ↔ tab tok = some u) : leases ss = tab := by
  funext tok
  refine Option.ext fun u => ?_
  exact (leases_iff hd).trans (h tok u)

theorem distinct_update {ss : Sessions} (hd : Distinct ss) (i : Fin sessionSlots) {x : Slot}
    (hx : ∀ tok, x.tok = some tok → ∀ j, j ≠ i → (ss j).tok ≠ some tok) :
    Distinct (Function.update ss i x) := by
  intro j k tok hj hk
  by_cases hji : j = i
  · by_cases hki : k = i
    · rw [hji, hki]
    · rw [hji, Function.update_self] at hj
      rw [Function.update_of_ne hki] at hk
      exact absurd hk (hx tok hj k hki)
  · rw [Function.update_of_ne hji] at hj
    by_cases hki : k = i
    · rw [hki, Function.update_self] at hk
      exact absurd hj (hx tok hk j hji)
    · rw [Function.update_of_ne hki] at hk
      exact hd j k tok hj hk

/-- What the slots hold after one of them is written. -/
theorem exists_update_iff {ss : Sessions} {i : Fin sessionSlots} {x y : Slot} :
    (∃ j, Function.update ss i x j = y) ↔ x = y ∨ ∃ j, j ≠ i ∧ ss j = y := by
  constructor
  · rintro ⟨j, hj⟩
    by_cases hji : j = i
    · rw [hji, Function.update_self] at hj
      exact .inl hj
    · rw [Function.update_of_ne hji] at hj
      exact .inr ⟨j, hji, hj⟩
  · rintro (hx | ⟨j, hji, hj⟩)
    · exact ⟨i, by rw [Function.update_self, hx]⟩
    · exact ⟨j, by rw [Function.update_of_ne hji, hj]⟩

/-- A sign-in with a token that no slot holds keeps the tokens distinct. -/
theorem distinct_sessionNew {ss : Sessions} (hd : Distinct ss) {tok : Token}
    (hnew : leases ss tok = none)
    (nowUs : Int) : Distinct (sessionNew ss tok nowUs) := by
  refine distinct_update hd _ fun tok' htok j _ => ?_
  obtain rfl := Option.some.inj htok
  exact leases_none.mp hnew j

/-- **A sign-in grants a lease**, and ousts the token whose slot it takes. -/
theorem leases_sessionNew {ss : Sessions} (hd : Distinct ss) {tok : Token}
    (hnew : leases ss tok = none)
    (nowUs : Int) : leases (sessionNew ss tok nowUs) =
      Leases.step InTime (leases ss) (.grant tok (oustedToken ss) nowUs) := by
  refine leases_eq (distinct_sessionNew hd hnew nowUs) fun tok' u => ?_
  unfold sessionNew
  rw [exists_update_iff]
  by_cases htok : tok' = tok
  · subst htok
    rw [Leases.step_grant_self]
    constructor
    · rintro (heq | ⟨j, -, hj⟩)
      · cases heq
        rfl
      · exact absurd (congrArg Slot.tok hj) (leases_none.mp hnew j)
    · intro heq
      cases heq
      exact .inl rfl
  · have hne : (⟨some tok, nowUs⟩ : Slot) ≠ ⟨some tok', u⟩ := fun heq => by
      cases heq
      exact htok rfl
    rw [or_iff_right hne]
    by_cases hout : oustedToken ss = some tok'
    · have hnone : Leases.step InTime (leases ss) (.grant tok (oustedToken ss) nowUs) tok' = none :=
        Leases.step_ends _ (.inr hout) fun hg => htok (Option.some.inj hg).symm
      rw [hnone]
      refine iff_of_false ?_ (Option.some_ne_none u).symm
      rintro ⟨j, hj, hslot⟩
      exact hj (hd j _ tok' (congrArg Slot.tok hslot) hout)
    · rw [Leases.step_other _ (e := .grant tok (oustedToken ss) nowUs) (Ne.symm htok) hout,
        leases_iff hd]
      constructor
      · rintro ⟨j, -, hj⟩
        exact ⟨j, hj⟩
      · rintro ⟨j, hj⟩
        refine ⟨j, ?_, hj⟩
        rintro rfl
        exact hout (congrArg Slot.tok hj)

theorem distinct_dropToken {ss : Sessions} (hd : Distinct ss) (tok : Token) :
    Distinct (dropToken ss tok) := by
  intro i j tok' hi hj
  unfold dropToken at hi hj
  split at hi
  · cases hi
  · split at hj
    · cases hj
    · exact hd i j tok' hi hj

/-- **A sign-out releases the lease.** -/
theorem leases_dropToken {ss : Sessions} (hd : Distinct ss) (tok : Token) :
    leases (dropToken ss tok) = Leases.step InTime (leases ss) (.release tok) := by
  refine leases_eq (distinct_dropToken hd tok) fun tok' u => ?_
  have hslot (i) : dropToken ss tok i = ⟨some tok', u⟩ ↔ tok' ≠ tok ∧ ss i = ⟨some tok', u⟩ := by
    unfold dropToken
    by_cases hholds : (ss i).tok = some tok
    · rw [if_pos ((holds_iff ss tok i).mpr hholds)]
      refine iff_of_false (fun heq => ?_) fun hboth => hboth.1 ?_
      · exact (Option.some_ne_none tok').symm (congrArg Slot.tok heq)
      · exact Option.some.inj ((congrArg Slot.tok hboth.2).symm.trans hholds)
    · rw [if_neg (mt (holds_iff ss tok i).mp hholds)]
      refine (and_iff_right_of_imp fun heq => ?_).symm
      rintro rfl
      exact hholds (congrArg Slot.tok heq)
  simp only [hslot, exists_and_left]
  by_cases htok : tok' = tok
  · rw [htok, Leases.step_release_self]
    exact iff_of_false (fun h => h.1 rfl) (Option.some_ne_none u).symm
  · rw [Leases.step_other _ (e := .release tok) (Ne.symm htok) (Option.some_ne_none tok').symm,
      leases_iff hd]
    exact and_iff_right htok

theorem distinct_authSlot {ss : Sessions} (hd : Distinct ss) (tok : Token) (nowUs : Int) :
    Distinct (authSlot ss tok nowUs).2 := by
  unfold authSlot
  cases hslot : slotOf ss tok with
  | none => exact hd
  | some i =>
      dsimp only
      split
      · exact distinct_update hd i fun tok' htok => absurd htok (Option.some_ne_none tok').symm
      · refine distinct_update hd i fun tok' htok j hj hj' => ?_
        exact hj (hd j i tok' hj' htok)

/-- **`auth_ok` checks the lease.** -/
theorem leases_authSlot {ss : Sessions} (hd : Distinct ss) (tok : Token) (nowUs : Int) :
    leases (authSlot ss tok nowUs).2 = Leases.step InTime (leases ss) (.check tok nowUs) := by
  refine leases_eq (distinct_authSlot hd tok nowUs) fun tok' u => ?_
  cases hslot : slotOf ss tok with
  | none =>
      have hnone : leases ss tok = none := by
        unfold leases
        rw [hslot, Option.map_none]
      have hsame : (authSlot ss tok nowUs).2 = ss := by
        unfold authSlot
        rw [hslot]
      simp only [hsame, Leases.step, hnone]
      exact (leases_iff hd).symm
  | some i =>
      have hsome : leases ss tok = some (ss i).lastUs := by
        unfold leases
        rw [hslot, Option.map_some]
      have htok := slotOf_some hslot
      have hsame : (authSlot ss tok nowUs).2 = Function.update ss i
          (if InTime (ss i).lastUs nowUs then { ss i with lastUs := nowUs } else Slot.free) := by
        unfold authSlot
        rw [hslot]
        by_cases hin : InTime (ss i).lastUs nowUs
        · rw [if_pos hin]
          simp only [if_neg (Int.not_lt.mpr hin)]
        · rw [if_neg hin]
          simp only [if_pos (Int.not_le.mp hin)]
      rw [hsame, exists_update_iff]
      by_cases hone : tok' = tok
      · subst hone
        rw [Leases.step_check_self _ hsome]
        have hothers : ¬ ∃ j, j ≠ i ∧ ss j = ⟨some tok', u⟩ := by
          rintro ⟨j, hj, heq⟩
          exact hj (hd j i tok' (congrArg Slot.tok heq) htok)
        rw [or_iff_left hothers]
        by_cases hin : InTime (ss i).lastUs nowUs
        · rw [if_pos hin, if_pos hin, Slot.mk.injEq, Option.some.injEq]
          exact and_iff_right htok
        · rw [if_neg hin, if_neg hin]
          exact iff_of_false (fun heq => (Option.some_ne_none tok').symm (congrArg Slot.tok heq))
            (Option.some_ne_none u).symm
      · rw [Leases.step_other _ (e := .check tok nowUs) (Ne.symm hone)
          (Option.some_ne_none tok').symm, leases_iff hd]
        have hne :
            (if InTime (ss i).lastUs nowUs then { ss i with lastUs := nowUs } else Slot.free) ≠
            (⟨some tok', u⟩ : Slot) := by
          intro heq
          split at heq
          · exact hone (Option.some.inj ((congrArg Slot.tok heq).symm.trans htok))
          · cases congrArg Slot.tok heq
        rw [or_iff_right hne]
        constructor
        · rintro ⟨j, -, hj⟩
          exact ⟨j, hj⟩
        · rintro ⟨j, hj⟩
          refine ⟨j, ?_, hj⟩
          rintro rfl
          exact hone (Option.some.inj ((congrArg Slot.tok hj).symm.trans htok))

end NutBluetti.Web
