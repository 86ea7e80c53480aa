/-
  File:      NutBluetti/Pve/GuestOrder.lean
  Subject:   A GUEST'S LATCH FOLLOWS ITS ID: the engine's entries are an array that each edit builds
             anew and each loop searches, and the order of neither array is seen.

  * `SameRules` -- one guest list in two orders, its ids distinct; `Reordered` -- a call or an edit
    made on the one and on the other;
  * `SlotAlike` -- two slots alike but for the order of the entries; `evalHost_reordered` -- a round
    of the loop over the hosts keeps that;
  * `sync_latch` -- an edit keeps the latch of an id it finds and starts a new one open;
  * **`latch_follows_id`** -- two runs that differ in the order of the guest lists report the same
    hosts and guest ids at every call and hold the same entry for every id after every step.
-/
import NutBluetti.Pve.EngineOff

namespace NutBluetti.Pve

open CText KeyedList

/-! ## 1. One list in two orders -/

/-- The same guest rules, in two orders; no id comes twice. -/
structure SameRules (l l' : List PveGuest) : Prop where
  perm : l.Perm l'
  distinct : (l.map PveGuest.id).Nodup

theorem SameRules.filter_eq {l l' : List PveGuest} (h : SameRules l l') (id : Int) :
    (l.filter fun gg => gg.id = id) = l'.filter fun gg => gg.id = id :=
  filter_key_perm h.perm h.distinct id

theorem SameRules.distinct' {l l' : List PveGuest} (h : SameRules l l') :
    (l'.map PveGuest.id).Nodup :=
  (h.perm.map PveGuest.id).nodup_iff.mp h.distinct

/-- The same call or the same edit, with the guest lists in another order. -/
inductive Reordered : EngineOp → EngineOp → Prop where
  | eval {cfg : PveConfig} {guests guests' : GuestLists} {obs : PveObs} {nowUs : Int}
      (h : ∀ i, SameRules (guests i) (guests' i)) :
      Reordered (.eval ⟨cfg, guests, obs, nowUs⟩) (.eval ⟨cfg, guests', obs, nowUs⟩)
  | sync {i : HostIx} {l l' : List PveGuest} (h : SameRules l l') :
      Reordered (.sync i l) (.sync i l')

/-! ## 2. A round of the loop -/

/-- Every id finds the same entry in both. -/
def SameEntries (gst gst' : List GuestEngine) : Prop :=
  ∀ id, findGuestState gst id = findGuestState gst' id

/-- Two slots alike but for the order of the guest entries. -/
structure SlotAlike (s s' : HostSlot) : Prop where
  fired : s.fired = s'.fired
  reason : s.reason = s'.reason
  entries : SameEntries s.guests s'.guests

section Round

variable {gst gst' : List GuestEngine} {l l' : List PveGuest}

theorem findGuestState_refreshGuests (back : Bool) (gst : List GuestEngine) (id : Int) :
    findGuestState (refreshGuests back gst) id =
      (findGuestState gst id).map (refreshEntry back) := by
  rw [refreshGuests_eq, findGuestState, lookup_map (refreshEntry_id _)]
  rfl

theorem SameEntries.refreshGuests (h : SameEntries gst gst') (back : Bool) :
    SameEntries (refreshGuests back gst) (refreshGuests back gst') := fun id => by
  rw [findGuestState_refreshGuests, findGuestState_refreshGuests, h id]

/-- A guest loop reaches an entry only in the rounds for its id, of which there is one at most. -/
theorem SameEntries.guestLoop (h : SameEntries gst gst') (hr : SameRules l l')
    (why : PveGuest → Option String) :
    SameEntries (l.foldl (stopGuest why) gst) (l'.foldl (stopGuest why) gst') := fun id => by
  rw [lookup_foldl_stopGuest, lookup_foldl_stopGuest, hr.filter_eq id, h id]

/-- **A round of the loop over the hosts, on the same rules in two orders**: the slots stay alike,
    and the host fires in both or in neither. -/
theorem evalHost_reordered (hr : SameRules l l') {s s' : HostSlot} (hs : SlotAlike s s')
    (h : PveHost) (st : PveEngine) (obs : PveObs) (nowUs : Int) (back : Bool) :
    SlotAlike (evalHost h l st obs nowUs back s).1 (evalHost h l' st obs nowUs back s').1 ∧
      (evalHost h l st obs nowUs back s).2 = (evalHost h l' st obs nowUs back s').2 := by
  have hrefresh := hs.entries.refreshGuests back
  have hown := hrefresh.guestLoop hr (guestTrigger st obs nowUs)
  unfold evalHost
  rw [← hs.fired, ← hs.reason]
  dsimp only
  cases s.fired with
  | true =>
      cases back with
      | true => exact ⟨⟨rfl, rfl, hrefresh⟩, rfl⟩
      | false => exact ⟨⟨rfl, rfl, hrefresh⟩, rfl⟩
  | false =>
      cases h.enabled with
      | false => exact ⟨⟨rfl, rfl, hrefresh⟩, rfl⟩
      | true =>
          cases triggerMet h.onBatteryMin h.chargePct st obs nowUs hostReasonSz with
          | none => exact ⟨⟨rfl, rfl, hown⟩, rfl⟩
          | some why => exact ⟨⟨rfl, rfl, hown.guestLoop hr (sweepReason why)⟩, rfl⟩

end Round

/-! ## 3. Two engines alike but for the order -/

/-- Two engines alike but for the order of the guest entries. -/
structure AlikeById (st st' : PveEngine) : Prop where
  clocks : SameClocks st st'
  slots : ∀ i, SlotAlike (st.slot i) (st'.slot i)
  distinct : DistinctGuests st
  distinct' : DistinctGuests st'

theorem AlikeById.entry {st st' : PveEngine} (h : AlikeById st st') (i : HostIx) (id : Int) :
    findGuestState (st.guests i) id = findGuestState (st'.guests i) id :=
  (h.slots i).entries id

section Alike

variable {st st' : PveEngine} {cfg : PveConfig} {guests guests' : GuestLists} {obs : PveObs}
  {nowUs : Int}

/-- **One call on the same rules in two orders.** -/
theorem AlikeById.evalCall (h : AlikeById st st') (hr : ∀ i, SameRules (guests i) (guests' i)) :
    let c : EvalCall := ⟨cfg, guests, obs, nowUs⟩
    let c' : EvalCall := ⟨cfg, guests', obs, nowUs⟩
    AlikeById (evalCall st c).1 (evalCall st' c').1 ∧
      ∀ i, HostFires st c i ↔ HostFires st' c' i := by
  intro c c'
  have hd := distinctGuests_evalCall h.distinct c
  have hd' := distinctGuests_evalCall h.distinct' c'
  cases hen : cfg.enabled with
  | false =>
      have hoff : c.cfg.enabled = false := hen
      have hoff' : c'.cfg.enabled = false := hen
      refine ⟨⟨?_, fun i => ?_, hd, hd'⟩, fun i => ?_⟩
      · rw [evalCall_off hoff, evalCall_off hoff']
        exact ⟨rfl, h.clocks.onBatterySinceUs, rfl, h.clocks.mainsSinceUs⟩
      · rw [pveEval_slot_off hoff, pveEval_slot_off hoff']
        exact h.slots i
      · rw [HostFires, HostFires, pveEval_hosts_off hoff, pveEval_hosts_off hoff']
  | true =>
      have hon : c.cfg.enabled = true := hen
      have hon' : c'.cfg.enabled = true := hen
      have hedges : SameClocks (edges st c) (edges st' c') := h.clocks.edges rfl rfl
      have hround : ∀ i, SlotAlike (hostRound st c i).1 (hostRound st' c' i).1 ∧
          (hostRound st c i).2 = (hostRound st' c' i).2 := fun i => by
        have hback : c'.back st' = c.back st := h.clocks.back rfl rfl rfl
        have hcongr : hostRound st' c' i = evalHost (cfg.hosts i) (guests' i) (edges st c) obs
            nowUs (c.back st) (st'.slot i) := by
          unfold hostRound
          rw [hback]
          exact evalHost_congr _ _ _ _ _ hedges _
        rw [hcongr]
        exact evalHost_reordered (hr i) (h.slots i) _ _ _ _ _
      refine ⟨⟨?_, fun i => ?_, hd, hd'⟩, fun i => ?_⟩
      · exact (evalCall_on hon).1.symm.trans (hedges.trans (evalCall_on hon').1)
      · rw [pveEval_slot hon, pveEval_slot hon']
        exact (hround i).1
      · rw [HostFires, HostFires, pveEval_hosts hon, pveEval_hosts hon', (hround i).2]

/-- **One edit on the same rules in two orders.** -/
theorem AlikeById.sync (h : AlikeById st st') {l l' : List PveGuest} (hr : SameRules l l')
    (j : HostIx) : AlikeById (st.sync j l) (st'.sync j l') := by
  have hdistinct : ∀ {st : PveEngine} {l : List PveGuest}, DistinctGuests st →
      (l.map PveGuest.id).Nodup → DistinctGuests (st.sync j l) := fun {st l} hd hl i => by
    by_cases hij : i = j
    · subst hij
      rw [guests_sync_self, map_id_sync]
      exact hl
    · rw [guests_sync_of_ne hij]
      exact hd i
  refine ⟨⟨h.clocks.onBattery, h.clocks.onBatterySinceUs, h.clocks.onMains,
    h.clocks.mainsSinceUs⟩, fun i => ⟨(h.slots i).fired, (h.slots i).reason, fun id => ?_⟩,
    hdistinct h.distinct hr.distinct, hdistinct h.distinct' hr.distinct'⟩
  show findGuestState ((st.sync j l).guests i) id = findGuestState ((st'.sync j l').guests i) id
  by_cases hij : i = j
  · subst hij
    have hfresh : freshGuest (st.guests i) = freshGuest (st'.guests i) := funext fun gg => by
      rw [freshGuest, freshGuest, h.entry i]
    rw [guests_sync_self, guests_sync_self, findGuestState_sync, findGuestState_sync,
      lookup_perm hr.perm hr.distinct, hfresh]
  · rw [guests_sync_of_ne hij, guests_sync_of_ne hij]
    exact h.entry i id

theorem alikeById_zero : AlikeById PveEngine.zero PveEngine.zero :=
  ⟨⟨rfl, rfl, rfl, rfl⟩, fun _ => ⟨rfl, rfl, fun _ => rfl⟩, fun _ => List.nodup_nil,
    fun _ => List.nodup_nil⟩

theorem AlikeById.run (h : AlikeById st st') {ops ops' : List EngineOp}
    (hops : List.Forall₂ Reordered ops ops') : AlikeById (runOps st ops) (runOps st' ops') := by
  induction hops generalizing st st' with
  | nil => exact h
  | cons hop _ ih =>
      cases hop with
      | eval hr => exact ih (h.evalCall hr).1
      | sync hr => exact ih (h.sync hr _)

/-- With distinct ids a guest fires exactly when the entry its id finds comes out with
    `fired_now`. -/
theorem guestFires_iff_lookup {c : EvalCall} (hd : DistinctGuests st) (i : HostIx) (id : Int) :
    GuestFires st c i id ↔ ∃ gs, findGuestState ((Pve.evalCall st c).1.guests i) id = some gs ∧
      gs.firedNow = true := by
  constructor
  · rintro ⟨gs, hgs, rfl, hnow⟩
    exact ⟨gs, lookup_of_nodup (distinctGuests_evalCall hd c i) hgs, hnow⟩
  · rintro ⟨gs, hgs, hnow⟩
    exact ⟨gs, mem_of_lookup hgs, key_of_lookup hgs, hnow⟩

theorem AlikeById.guestFires_iff (h : AlikeById st st')
    (hr : ∀ i, SameRules (guests i) (guests' i)) (i : HostIx) (id : Int) :
    GuestFires st ⟨cfg, guests, obs, nowUs⟩ i id ↔
      GuestFires st' ⟨cfg, guests', obs, nowUs⟩ i id := by
  rw [guestFires_iff_lookup h.distinct, guestFires_iff_lookup h.distinct',
    (h.evalCall hr).1.entry i]

end Alike

/-! ## 4. The latch over an edit -/

/-- **What an edit does to the latch of an id of its list**: found before, it is as it was; not
    found, it starts open, without a reason. -/
theorem sync_latch (st : PveEngine) (i : HostIx) {l : List PveGuest} {id : Int}
    (hid : id ∈ l.map PveGuest.id) :
    ∃ gs, findGuestState ((st.sync i l).guests i) id = some gs ∧
      (∀ old, findGuestState (st.guests i) id = some old → gs.fired = old.fired) ∧
      (findGuestState (st.guests i) id = none → gs.fired = false ∧ gs.reason = "") := by
  obtain ⟨gg, hgg⟩ := exists_lookup_iff.mpr hid
  refine ⟨freshGuest (st.guests i) gg, ?_, fun old hold => ?_, fun hnone => ?_⟩
  · rw [guests_sync_self, findGuestState_sync, hgg]
    rfl
  · exact freshGuest_fired_of (by rw [key_of_lookup hgg]; exact hold) rfl
  · have hno : findGuestState (st.guests i) gg.id = none := by rw [key_of_lookup hgg]; exact hnone
    rw [freshGuest, hno]
    exact ⟨rfl, rfl⟩

/-- **A guest's latch follows its id**: after any run, and the same run with the guest lists of its
    edits and calls in other orders, the host latches and reasons are the same and each id finds
    the same entry; a next call reports the same hosts and the same guest ids; and an edit leaves
    the latch of an id it finds as it was and starts a new id unlatched. -/
theorem latch_follows_id (ops ops' : List EngineOp) (hops : List.Forall₂ Reordered ops ops') :
    let st := runOps PveEngine.zero ops
    let st' := runOps PveEngine.zero ops'
    (∀ i, st.fired i = st'.fired i ∧ st.reason i = st'.reason i ∧
      ∀ id, findGuestState (st.guests i) id = findGuestState (st'.guests i) id) ∧
    (∀ c c', Reordered (.eval c) (.eval c') → ∀ i, (HostFires st c i ↔ HostFires st' c' i) ∧
      ∀ id, GuestFires st c i id ↔ GuestFires st' c' i id) ∧
    ∀ i l, ∀ id ∈ l.map PveGuest.id, ∃ gs, findGuestState ((st.sync i l).guests i) id = some gs ∧
      (∀ old, findGuestState (st.guests i) id = some old → gs.fired = old.fired) ∧
      (findGuestState (st.guests i) id = none → gs.fired = false ∧ gs.reason = "") := by
  intro st st'
  have h : AlikeById st st' := alikeById_zero.run hops
  refine ⟨fun i => ⟨(h.slots i).fired, (h.slots i).reason, h.entry i⟩, ?_,
    fun i l id hid => sync_latch st i hid⟩
  intro c c' hc i
  cases hc with
  | eval hr => exact ⟨(h.evalCall hr).2 i, h.guestFires_iff hr i⟩

/-! Two guests of a host, in one order and in the other: 101 goes on a low charge, 102 stays. -/

def twoRules : List PveGuest := [⟨101, 0, 30⟩, ⟨102, 0, 10⟩]

def twoCall (guests : GuestLists) (min : Int) : EvalCall :=
  ⟨{ flapCfg with hosts := fun _ => { flapCfg.hosts 0 with chargePct := 0 } }, guests,
    ⟨.battery, 15⟩, min * usPerMin⟩

def twoOps (rules : List PveGuest) : List EngineOp :=
  [.sync 0 rules, .eval (twoCall (fun _ => rules) 0)]

theorem sameRules_two : SameRules twoRules twoRules.reverse :=
  ⟨(List.reverse_perm _).symm, by decide⟩

theorem latch_follows_id_two :
    findGuestState ((runOps PveEngine.zero (twoOps twoRules.reverse)).guests 0) 101 =
        some ⟨101, true, true, "charge 15% (limit 30%)"⟩ ∧
      ∀ id, GuestFires (runOps PveEngine.zero (twoOps twoRules))
          (twoCall (fun _ => twoRules) 1) 0 id ↔
        GuestFires (runOps PveEngine.zero (twoOps twoRules.reverse))
          (twoCall (fun _ => twoRules.reverse) 1) 0 id := by
  have hops : List.Forall₂ Reordered (twoOps twoRules) (twoOps twoRules.reverse) :=
    .cons (.sync sameRules_two) (.cons (.eval fun _ => sameRules_two) .nil)
  obtain ⟨hentries, hreports, -⟩ := latch_follows_id _ _ hops
  refine ⟨?_, (hreports _ _ (.eval fun _ => sameRules_two) 0).2⟩
  rw [← (hentries 0).2.2 101]
  decide

end NutBluetti.Pve
