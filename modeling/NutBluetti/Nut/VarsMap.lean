/-
  File:      NutBluetti/Nut/VarsMap.lean
  Subject:   THE VARIABLE TABLE AS A FINITE MAP, full or not, and why the firmware never fills it.

  * `varMap` -- the map that a sequence of calls makes where there is room for `nutMaxVars` names;
  * `NextCall` -- what the next calls do to a table: other names keep their values, a clear empties
    its own, a set is kept unless `nutMaxVars` other names are live;
  * `FirmwareCall` -- the calls of the start, of the staleness task and of the publications;
  * **`varTable_refines_map`** -- the table is that map after every sequence of calls, and no
    sequence of calls of the firmware has a set dropped.
-/
import NutBluetti.Lib.BoundedMap
import NutBluetti.Nut.Publish

namespace NutBluetti.Nut

open CText

/-! ## 1. The map -/

/-- The table after a sequence of calls on an empty one. -/
def varsAfter (cs : List VarCall) : VarTable := runCalls cs (List.replicate nutMaxVars none)

/-- The same as a map with room for so many names. -/
noncomputable def varMap (cs : List VarCall) : String → Option String :=
  Slots.allWithin nutMaxVars (cs.map VarCall.slotCall) fun _ => none

/-- A name that its buffer holds whole. -/
def NameFits (n : String) : Prop := n.length < nutVarNameLen

instance (n : String) : Decidable (NameFits n) := inferInstanceAs (Decidable (_ < _))

/-- The other names that are live. -/
def liveBut (n : String) (t : VarTable) : Set String := Slots.others n (nutServerGetVar t)

theorem runCalls_within {cs : List VarCall} (h : ∀ c ∈ cs, NameFits c.name) {t : VarTable}
    (hnd : (Slots.keys t).Nodup) :
    (Slots.keys (runCalls cs t)).Nodup ∧ (runCalls cs t).length = t.length ∧
      nutServerGetVar (runCalls cs t) =
        Slots.allWithin t.length (cs.map VarCall.slotCall) (nutServerGetVar t) := by
  rw [runCalls_eq h]
  exact Slots.lookup_runAll_within hnd (cs.map VarCall.slotCall)

theorem getVar_run {c : VarCall} (h : NameFits c.name) {t : VarTable} (hnd : (Slots.keys t).Nodup) :
    nutServerGetVar (c.run t) = c.slotCall.within t.length (nutServerGetVar t) := by
  rw [VarCall.slotCall_run h]
  exact Slots.lookup_run_within hnd c.slotCall

/-! ## 2. The next calls -/

/-- What calls do to a table, name by name. -/
structure NextCall (t : VarTable) : Prop where
  kept : ∀ cs n, (∀ c ∈ cs, NameFits c.name ∧ c.name ≠ n) →
    nutServerGetVar (runCalls cs t) n = nutServerGetVar t n
  cleared : ∀ n, NameFits n → nutServerGetVar (nutServerClearVar n t) n = none
  set : ∀ n v, NameFits n → (liveBut n t).ncard ≠ nutMaxVars →
    nutServerGetVar (nutServerSetVar n v t) n = some (fit nutVarValueLen v)
  dropped : ∀ n v, NameFits n → (liveBut n t).ncard = nutMaxVars → nutServerSetVar n v t = t
  atMost : ∀ n, (liveBut n t).ncard ≤ nutMaxVars

section NextCall

variable {t : VarTable} (hnd : (Slots.keys t).Nodup)

include hnd

theorem getVar_runCalls_other {cs : List VarCall} {n : String}
    (h : ∀ c ∈ cs, NameFits c.name ∧ c.name ≠ n) :
    nutServerGetVar (runCalls cs t) n = nutServerGetVar t n := by
  induction cs generalizing t with
  | nil => rfl
  | cons c cs ih =>
      obtain ⟨hfits, hne⟩ := h c List.mem_cons_self
      have hstep : nutServerGetVar (c.run t) n = nutServerGetVar t n := by
        rw [getVar_run hfits hnd]
        exact Slots.Call.within_other (by rw [VarCall.slotCall_key]; exact hne.symm) _
      have hnd' : (Slots.keys (c.run t)).Nodup := by
        rw [VarCall.slotCall_run hfits]
        exact Slots.nodup_keys_run hnd c.slotCall
      show nutServerGetVar (runCalls cs (c.run t)) n = _
      rw [ih hnd' fun d hd => h d (List.mem_cons_of_mem c hd), hstep]

theorem getVar_clear {n : String} (h : NameFits n) :
    nutServerGetVar (nutServerClearVar n t) n = none := by
  have hrun := getVar_run (c := .clear n) h hnd
  have hclear : (VarCall.slotCall (.clear n)).within t.length (nutServerGetVar t) =
      Function.update (nutServerGetVar t) n none := rfl
  rw [show nutServerClearVar n t = VarCall.run (.clear n) t from rfl, hrun, hclear]
  exact Function.update_self n _ _

theorem getVar_set {n v : String} (h : NameFits n) (hroom : (liveBut n t).ncard < t.length) :
    nutServerGetVar (nutServerSetVar n v t) n = some (fit nutVarValueLen v) := by
  have hrun := getVar_run (c := .set n v) h hnd
  have hput : (VarCall.slotCall (.set n v)).within t.length (nutServerGetVar t) =
      Function.update (nutServerGetVar t) n (some (fit nutVarValueLen v)) := if_pos hroom
  rw [show nutServerSetVar n v t = VarCall.run (.set n v) t from rfl, hrun, hput]
  exact Function.update_self n _ _

/-- A set with no room for its name changes no slot. -/
theorem set_dropped {n v : String} (hfull : ¬(liveBut n t).ncard < t.length) :
    nutServerSetVar n v t = t := by
  have hnone := (Slots.room_iff hnd n).not.mp hfull
  obtain ⟨hnew, hfree⟩ := not_or.mp hnone
  have hlook : ¬(Slots.lookup n t).isSome := fun h => hnew (Slots.isSome_lookup_iff.mp h)
  unfold nutServerSetVar
  rw [if_neg hlook, Slots.fill_of_full hfree]

theorem ncard_liveBut_le (n : String) : (liveBut n t).ncard ≤ t.length := by
  have hcount : (liveBut n t).ncard = ((Slots.keys t).erase n).length := Slots.ncard_others hnd n
  rw [hcount]
  exact (List.length_erase_le).trans (Slots.length_keys_le t)

theorem nextCall (hlen : t.length = nutMaxVars) : NextCall t := by
  have hmost : ∀ n, (liveBut n t).ncard ≤ nutMaxVars := fun n => hlen ▸ ncard_liveBut_le hnd n
  refine ⟨fun cs n h => getVar_runCalls_other hnd h, fun n h => getVar_clear hnd h, ?_, ?_, hmost⟩
  · intro n v h hne
    have hlt := lt_of_le_of_ne (hmost n) hne
    exact getVar_set hnd h (hlen ▸ hlt)
  · intro n v _ hfull
    exact set_dropped hnd (by rw [hfull, hlen]; exact Nat.lt_irrefl _)

end NextCall

/-! ## 3. The firmware -/

/-- A call that the program makes: at its start, in the staleness task or in a publication. -/
inductive FirmwareCall : VarCall → Prop where
  | seed {driverVersion c} (h : c ∈ seedCalls driverVersion) : FirmwareCall c
  | service {cfg c} (h : c ∈ serviceCalls cfg) : FirmwareCall c
  | staleness {stale connected c} (h : c ∈ stalenessCalls stale connected) : FirmwareCall c
  | publish {cfg st c} (h : c ∈ publishCalls cfg st) : FirmwareCall c

theorem FirmwareCall.name_mem {c : VarCall} (h : FirmwareCall c) : c.name ∈ varNames := by
  cases h with
  | seed h => exact names_seed _ c h
  | service h => exact names_service _ c h
  | staleness h => exact names_staleness _ _ c h
  | publish h => exact names_publish _ _ c h

theorem room_varsAfter {cs : List VarCall} (h : ∀ c ∈ cs, FirmwareCall c) :
    Slots.Room varNames (varsAfter cs) := by
  refine room_runCalls (fun c hc => (h c hc).name_mem) ⟨?_, ?_, ?_⟩
  · rw [Slots.keys_replicate]
    exact List.nodup_nil
  · rw [Slots.keys_replicate]
    nofun
  · rw [List.length_replicate]
    decide

/-- A known name has a slot or finds a free one. -/
theorem live_lt_of_room {t : VarTable} (hr : Slots.Room varNames t) {n : String}
    (hn : n ∈ varNames) : (liveBut n t).ncard < t.length := by
  refine (Slots.room_iff hr.distinct n).mpr ?_
  by_cases hin : n ∈ Slots.keys t
  · exact .inl hin
  · exact .inr (hr.free hn hin)

/-! ## 4. The table is the map -/

/-- **The variable table is a finite map.** After every sequence of calls with names their buffer
    holds, used slots have distinct names, `get_var` reads the map, the next calls change their own
    names only, and a set is dropped exactly where `nutMaxVars` other names are live. The firmware's
    calls, in any order, leave room for each of its sets. -/
theorem varTable_refines_map {cs : List VarCall} (h : ∀ c ∈ cs, NameFits c.name) :
    (Slots.keys (varsAfter cs)).Nodup ∧
      nutServerGetVar (varsAfter cs) = varMap cs ∧
      (∀ n, (∀ c ∈ cs, c.name ≠ n) → nutServerGetVar (varsAfter cs) n = none) ∧
      NextCall (varsAfter cs) ∧
      ((∀ c ∈ cs, FirmwareCall c) → ∀ n v, FirmwareCall (.set n v) →
        (liveBut n (varsAfter cs)).ncard < nutMaxVars ∧
          nutServerGetVar (nutServerSetVar n v (varsAfter cs)) n =
          some (fit nutVarValueLen v)) := by
  have hempty :
      (Slots.keys (List.replicate nutMaxVars (none : Option (String × String)))).Nodup := by
    rw [Slots.keys_replicate]
    exact List.nodup_nil
  have hnone : nutServerGetVar (List.replicate nutMaxVars none) = fun _ => none := by
    funext n
    refine Slots.lookup_eq_none_iff.mpr ?_
    rw [Slots.keys_replicate]
    exact List.not_mem_nil
  obtain ⟨hnd, hlen, hmap⟩ := runCalls_within h hempty
  rw [List.length_replicate] at hlen hmap
  rw [hnone] at hmap
  refine ⟨hnd, hmap, fun n hother => ?_, nextCall hnd hlen, fun hfw n v hset => ?_⟩
  · have hkept := getVar_runCalls_other hempty fun c hc => ⟨h c hc, hother c hc⟩
    rw [hnone] at hkept
    exact hkept
  · have hroom := live_lt_of_room (room_varsAfter hfw) hset.name_mem
    have hfits : NameFits n := short_of_mem n hset.name_mem
    exact ⟨hlen ▸ hroom, getVar_set hnd hfits hroom⟩

theorem varTable_refines_map_cleared :
    nutServerGetVar (varsAfter [.set "ups.load" "7", .clear "ups.load"]) =
      varMap [.set "ups.load" "7", .clear "ups.load"] := by
  have hfits : ∀ c ∈ [VarCall.set "ups.load" "7", .clear "ups.load"], NameFits c.name := by decide
  exact (varTable_refines_map hfits).2.1

end NutBluetti.Nut
