/-
  File:      NutBluetti/Lib/LatestQueue.lean
  Subject:   A QUEUE OF THE LATEST VALUES. Each key waits once: to put it again while it waits
             replaces its value and keeps its place. What comes to the front is taken out, and then
             handed over, which succeeds or fails.

  * `queueOf`, `heldOf` -- the queue after a history, and what was taken and not handed over yet;
  * `Lawful` -- a history in which the front is what is taken, one entry at a time;
  * **`mem_queueOf_iff`** -- what waits is the latest value put for its key, untouched since;
  * `Entered log k i` -- the stay of `k` in the queue began at the `i`-th entry of the history;
  * **`entered_lt_of_take`** -- the keys leave in the order in which their stays began;
  * `fateOf` -- what became of one put, and **`lost_iff`**: it is lost only where handing over
    failed.
-/
import Mathlib.Data.List.Induction
import NutBluetti.Lib.History

namespace LatestQueue

open History

variable {K V : Type*} [DecidableEq K]

/-! ## 1. The queue -/

/-- The value of a key that waits is replaced; else the key goes to the end. -/
def put : List (K × V) → K → V → List (K × V)
  | [], k, v => [(k, v)]
  | e :: q, k, v => if e.1 = k then (k, v) :: q else e :: put q k v

/-- An entry of the history. -/
inductive Ev (K V : Type*) where
  | put (k : K) (v : V)
  | clear
  | take (k : K) (v : V)
  /-- What was taken is handed over, or is not. -/
  | handOver (k : K) (v : V) (ok : Bool)
  deriving DecidableEq

def next (q : List (K × V)) : Ev K V → List (K × V)
  | .put k v => put q k v
  | .clear => []
  | .take _ _ => q.tail
  | .handOver _ _ _ => q

/-- The queue after a history. -/
def queueOf (log : List (Ev K V)) : List (K × V) := log.foldl next []

def nextHeld (held : Option (K × V)) : Ev K V → Option (K × V)
  | .take k v => some (k, v)
  | .handOver _ _ _ => none
  | _ => held

/-- What was taken and not handed over yet. -/
def heldOf (log : List (Ev K V)) : Option (K × V) := log.foldl nextHeld none

/-- What may happen after a history: the front is taken, when nothing is held, and what is held is
    handed over. -/
def May (log : List (Ev K V)) : Ev K V → Prop
  | .take k v => (queueOf log).head? = some (k, v) ∧ heldOf log = none
  | .handOver k v _ => heldOf log = some (k, v)
  | _ => True

abbrev Lawful (log : List (Ev K V)) : Prop := EachMoment May log

theorem queueOf_snoc (log : List (Ev K V)) (e : Ev K V) :
    queueOf (log ++ [e]) = next (queueOf log) e := by
  unfold queueOf
  rw [List.foldl_append]
  rfl

omit [DecidableEq K] in
theorem heldOf_snoc (log : List (Ev K V)) (e : Ev K V) :
    heldOf (log ++ [e]) = nextHeld (heldOf log) e := by
  unfold heldOf
  rw [List.foldl_append]
  rfl

/-- The keys that wait stay in their places; a new one comes last. -/
theorem put_keys (q : List (K × V)) (k : K) (v : V) : (put q k v).map Prod.fst =
    if k ∈ q.map Prod.fst then q.map Prod.fst else q.map Prod.fst ++ [k] := by
  induction q with
  | nil => rfl
  | cons e q ih =>
      unfold put
      by_cases he : e.1 = k
      · simp [he]
      · rw [if_neg he, List.map_cons, ih]
        by_cases hk : k ∈ q.map Prod.fst
        · simp [hk]
        · simp [hk, Ne.symm he]

theorem mem_put {q : List (K × V)} (hq : (q.map Prod.fst).Nodup) {k : K} {v : V} {e : K × V} :
    e ∈ put q k v ↔ e = (k, v) ∨ e.1 ≠ k ∧ e ∈ q := by
  induction q with
  | nil => simp [put]
  | cons d q ih =>
      rw [List.map_cons, List.nodup_cons] at hq
      unfold put
      by_cases hd : d.1 = k
      · have hother : ∀ e ∈ q, e.1 ≠ k := fun e he heq =>
          hq.1 (hd ▸ heq ▸ List.mem_map_of_mem he)
        rw [if_pos hd, List.mem_cons, List.mem_cons]
        constructor
        · rintro (rfl | he)
          · exact .inl rfl
          · exact .inr ⟨hother e he, .inr he⟩
        · rintro (rfl | ⟨hne, rfl | he⟩)
          · exact .inl rfl
          · exact absurd hd hne
          · exact .inr he
      · rw [if_neg hd, List.mem_cons, List.mem_cons, ih hq.2]
        constructor
        · rintro (rfl | rfl | ⟨hne, he⟩)
          · exact .inr ⟨hd, .inl rfl⟩
          · exact .inl rfl
          · exact .inr ⟨hne, .inr he⟩
        · rintro (rfl | ⟨hne, rfl | he⟩)
          · exact .inr (.inl rfl)
          · exact .inl rfl
          · exact .inr (.inr ⟨hne, he⟩)

/-- **No key waits twice.** -/
theorem queueOf_nodup (log : List (Ev K V)) : ((queueOf log).map Prod.fst).Nodup := by
  induction log using List.reverseRecOn with
  | nil => exact List.nodup_nil
  | append_singleton log e ih =>
      rw [queueOf_snoc]
      cases e with
      | put k v =>
          show ((put (queueOf log) k v).map Prod.fst).Nodup
          rw [put_keys]
          split
          · exact ih
          · rename_i hk
            refine List.nodup_append.mpr ⟨ih, by simp, fun a ha b hb hab => ?_⟩
            exact hk (List.mem_singleton.mp hb ▸ hab ▸ ha)
      | clear => exact List.nodup_nil
      | take k v =>
          show ((queueOf log).tail.map Prod.fst).Nodup
          rw [List.map_tail]
          exact ih.sublist (List.tail_sublist _)
      | handOver k v ok => exact ih

/-! ## 2. What waits -/

/-- The entry puts the key, takes it, or clears the queue. -/
def Touches (k : K) : Ev K V → Prop
  | .put k' _ => k' = k
  | .clear => True
  | .take k' _ => k' = k
  | .handOver _ _ _ => False

/-- Where the front is taken, the rest waits. -/
theorem queueOf_take {log : List (Ev K V)} {k : K} {v : V} (h : May log (.take k v)) :
    queueOf log = (k, v) :: next (queueOf log) (.take k v) := by
  obtain ⟨hfront, -⟩ := h
  cases hq : queueOf log with
  | nil => rw [hq] at hfront; cases hfront
  | cons e q =>
      rw [hq] at hfront
      rw [Option.some.inj hfront]
      rfl

/-- What is taken does not wait any more. -/
theorem not_mem_of_take {log : List (Ev K V)} {k : K} {v : V} (h : May log (.take k v)) :
    k ∉ (next (queueOf log) (.take k v)).map Prod.fst := by
  have hnodup := queueOf_nodup log
  rw [queueOf_take h, List.map_cons, List.nodup_cons] at hnodup
  exact hnodup.1

/-- **What waits** is the latest value put for its key, if that was neither taken nor cleared
    since. -/
theorem mem_queueOf_iff {log : List (Ev K V)} (h : Lawful log) {k : K} {v : V} :
    (k, v) ∈ queueOf log ↔ Latest (Touches k) log (.put k v) := by
  induction log using List.reverseRecOn with
  | nil => exact iff_of_false List.not_mem_nil latest_nil
  | append_singleton log e ih =>
      obtain ⟨hlog, hmay⟩ := eachMoment_snoc_iff.mp h
      rw [queueOf_snoc, latest_snoc_iff, ← ih hlog]
      cases e with
      | put k' v' =>
          rw [next, mem_put (queueOf_nodup log), Prod.mk.injEq]
          simp only [Touches, Ev.put.injEq, ne_eq]
          constructor
          · rintro (⟨rfl, rfl⟩ | ⟨hne, hmem⟩)
            · exact .inl ⟨rfl, rfl, rfl⟩
            · exact .inr ⟨Ne.symm hne, hmem⟩
          · rintro (⟨-, rfl, rfl⟩ | ⟨hne, hmem⟩)
            · exact .inl ⟨rfl, rfl⟩
            · exact .inr ⟨Ne.symm hne, hmem⟩
      | clear => simp [next, Touches]
      | take k' v' =>
          have hq := queueOf_take hmay
          have hgone := not_mem_of_take hmay
          generalize next (queueOf log) (.take k' v') = rest at hq hgone ⊢
          simp only [Touches, reduceCtorEq, and_false, false_or]
          rw [hq, List.mem_cons]
          constructor
          · intro hmem
            refine ⟨?_, .inr hmem⟩
            rintro rfl
            exact hgone (List.mem_map.mpr ⟨_, hmem, rfl⟩)
          · rintro ⟨hne, heq | hmem⟩
            · exact absurd (Prod.mk.inj heq).1.symm hne
            · exact hmem
      | handOver k' v' ok => simp [next, Touches]

/-! ## 3. The order -/

/-- The entry ends a stay of the key in the queue. -/
def Ends (k : K) : Ev K V → Prop
  | .clear => True
  | .take k' _ => k' = k
  | _ => False

/-- **The stay of the key began** with the `i`-th entry: it was put when it did not wait, and has
    waited ever since. -/
def Entered (log : List (Ev K V)) (k : K) (i : Nat) : Prop :=
  ∃ pre v post, log = pre ++ .put k v :: post ∧ pre.length = i ∧
    k ∉ (queueOf pre).map Prod.fst ∧ ∀ e ∈ post, ¬ Ends k e

theorem entered_snoc_iff {log : List (Ev K V)} {a : Ev K V} {k : K} {i : Nat} :
    Entered (log ++ [a]) k i ↔ Entered log k i ∧ ¬ Ends k a ∨
      i = log.length ∧ (∃ v, a = .put k v) ∧ k ∉ (queueOf log).map Prod.fst := by
  constructor
  · rintro ⟨pre, v, post, hl, rfl, hnot, hpost⟩
    rcases List.eq_nil_or_concat post with rfl | ⟨post', b, rfl⟩
    · obtain ⟨rfl, ha⟩ := List.append_inj' hl rfl
      exact .inr ⟨rfl, ⟨v, by simpa using ha⟩, hnot⟩
    · have hl' : log ++ [a] = (pre ++ .put k v :: post') ++ [b] := by simpa using hl
      obtain ⟨rfl, hab⟩ := List.append_inj' hl' rfl
      obtain rfl : a = b := by simpa using hab
      exact .inl ⟨⟨pre, v, post', rfl, rfl, hnot, fun e he => hpost e (by simp [he])⟩,
        hpost a (by simp)⟩
  · rintro (⟨⟨pre, v, post, rfl, rfl, hnot, hpost⟩, ha⟩ | ⟨rfl, ⟨v, rfl⟩, hnot⟩)
    · refine ⟨pre, v, post ++ [a], by simp, rfl, hnot, fun e he => ?_⟩
      rcases List.mem_append.mp he with he | he
      · exact hpost e he
      · exact List.mem_singleton.mp he ▸ ha
    · exact ⟨log, v, [], rfl, rfl, hnot, by simp⟩

theorem Entered.lt {log : List (Ev K V)} {k : K} {i : Nat} (h : Entered log k i) :
    i < log.length := by
  obtain ⟨pre, v, post, rfl, rfl, -, -⟩ := h
  simp

/-- **A key waits exactly where a stay of it has begun** and has not ended. -/
theorem exists_entered {log : List (Ev K V)} (h : Lawful log) {k : K} :
    k ∈ (queueOf log).map Prod.fst ↔ ∃ i, Entered log k i := by
  induction log using List.reverseRecOn with
  | nil =>
      refine iff_of_false List.not_mem_nil ?_
      rintro ⟨i, hi⟩
      exact absurd hi.lt (Nat.not_lt_zero i)
  | append_singleton log e ih =>
      obtain ⟨hlog, hmay⟩ := eachMoment_snoc_iff.mp h
      have hih := ih hlog
      have hsnoc : (∃ i, Entered (log ++ [e]) k i) ↔ k ∈ (queueOf log).map Prod.fst ∧ ¬ Ends k e ∨
          (∃ v, e = .put k v) ∧ k ∉ (queueOf log).map Prod.fst := by
        simp only [entered_snoc_iff, exists_or, exists_and_right, exists_eq, true_and, ← hih]
      rw [hsnoc, queueOf_snoc]
      cases e with
      | put k' v' =>
          rw [next, put_keys]
          by_cases hk' : k' ∈ (queueOf log).map Prod.fst
          · rw [if_pos hk']
            simp only [Ends, not_false_eq_true, and_true, Ev.put.injEq]
            constructor
            · exact .inl
            · rintro (hk | ⟨⟨_, rfl, -⟩, hk⟩)
              · exact hk
              · exact absurd hk' hk
          · rw [if_neg hk', List.mem_append, List.mem_singleton]
            simp only [Ends, not_false_eq_true, and_true, Ev.put.injEq]
            constructor
            · rintro (hk | rfl)
              · exact .inl hk
              · exact .inr ⟨⟨v', rfl, rfl⟩, hk'⟩
            · rintro (hk | ⟨⟨_, rfl, -⟩, -⟩)
              · exact .inl hk
              · exact .inr rfl
      | clear => simp [next, Ends]
      | take k' v' =>
          have hq := queueOf_take hmay
          have hgone := not_mem_of_take hmay
          generalize next (queueOf log) (.take k' v') = rest at hq hgone ⊢
          rw [hq, List.map_cons, List.mem_cons]
          simp only [Ends, reduceCtorEq, exists_false, false_and, or_false]
          constructor
          · intro hk
            refine ⟨.inr hk, ?_⟩
            rintro rfl
            exact hgone hk
          · rintro ⟨rfl | hk, hne⟩
            · exact absurd rfl hne
            · exact hk
      | handOver k' v' ok => simp [next, Ends]

/-- A stay that goes on began where it did. -/
theorem Entered.of_snoc {log : List (Ev K V)} {a : Ev K V} {k : K} {i : Nat}
    (h : Entered (log ++ [a]) k i) (hk : k ∈ (queueOf log).map Prod.fst) : Entered log k i := by
  rcases entered_snoc_iff.mp h with ⟨h, -⟩ | ⟨-, -, hnot⟩
  · exact h
  · exact absurd hk hnot

/-- **The queue stands in the order in which the stays began.** -/
theorem queueOf_ordered {log : List (Ev K V)} (h : Lawful log) :
    ((queueOf log).map Prod.fst).Pairwise
    fun k k' => ∀ i j, Entered log k i → Entered log k' j → i < j := by
  induction log using List.reverseRecOn with
  | nil => exact List.Pairwise.nil
  | append_singleton log e ih =>
      obtain ⟨hlog, hmay⟩ := eachMoment_snoc_iff.mp h
      have hih := ih hlog
      -- the keys that waited before are still in their order
      have hkept : ((queueOf log).map Prod.fst).Pairwise
          fun k k' => ∀ i j, Entered (log ++ [e]) k i → Entered (log ++ [e]) k' j → i < j :=
        hih.imp_of_mem fun hk hk' hlt i j hi hj => hlt i j (hi.of_snoc hk) (hj.of_snoc hk')
      rw [queueOf_snoc]
      cases e with
      | put k v =>
          rw [next, put_keys]
          split
          · exact hkept
          · rename_i hnot
            refine List.pairwise_append.mpr ⟨hkept, List.pairwise_singleton _ _, ?_⟩
            intro k' hk' k'' hk'' i j hi hj
            obtain rfl := List.mem_singleton.mp hk''
            rcases entered_snoc_iff.mp hj with ⟨hj, -⟩ | ⟨rfl, -, -⟩
            · exact absurd ((exists_entered hlog).mpr ⟨j, hj⟩) hnot
            · exact (hi.of_snoc hk').lt
      | clear => exact List.Pairwise.nil
      | take k v =>
          rw [next, List.map_tail]
          exact hkept.sublist (List.tail_sublist _)
      | handOver k v ok => exact hkept

/-- **First in, first out**: a key that is taken entered before every other that waits. -/
theorem entered_lt_of_take {log : List (Ev K V)} (h : Lawful log) {pre post : List (Ev K V)} {k : K}
    {v : V} (hlog : log = pre ++ .take k v :: post) : ∃ i, Entered pre k i ∧
      ∀ k' j, k' ≠ k → Entered pre k' j → i < j := by
  have hpre : Lawful pre := fun a e b hab => h a e (b ++ .take k v :: post) (by simp [hlog, hab])
  have hq := queueOf_take (h pre _ post hlog)
  have hordered := queueOf_ordered hpre
  rw [hq, List.map_cons, List.pairwise_cons] at hordered
  obtain ⟨i, hi⟩ :=
    (exists_entered hpre).mp (hq ▸ List.mem_cons_self : k ∈ (queueOf pre).map Prod.fst)
  refine ⟨i, hi, fun k' j hne hj => ?_⟩
  have hk' := (exists_entered hpre).mpr ⟨j, hj⟩
  rw [hq, List.map_cons, List.mem_cons] at hk'
  rcases hk' with heq | hk'
  · exact absurd heq hne
  · exact hordered.1 k' hk' i j hi hj

/-! ## 4. What becomes of a value -/

/-- What became of a value that was put. -/
inductive Fate where
  | waiting
  | held
  | handedOver
  | replaced
  | cleared
  | lost
  deriving DecidableEq

/-- A value that waits is replaced by a later one for its key, cleared with the queue, or taken;
    then it is handed over, or lost. -/
def Fate.next (k : K) : Fate → Ev K V → Fate
  | .waiting, .put k' _ => if k' = k then .replaced else .waiting
  | .waiting, .clear => .cleared
  | .waiting, .take k' _ => if k' = k then .held else .waiting
  | .held, .handOver _ _ ok => if ok then .handedOver else .lost
  | f, _ => f

/-- The fate of a value put for `k`, after what came since. -/
def fateOf (k : K) (post : List (Ev K V)) : Fate := post.foldl (Fate.next k) .waiting

theorem fateOf_snoc (k : K) (post : List (Ev K V)) (e : Ev K V) :
    fateOf k (post ++ [e]) = Fate.next k (fateOf k post) e := by
  unfold fateOf
  rw [List.foldl_append]
  rfl

theorem fateOf_untouched {k : K} {post : List (Ev K V)} (h : ∀ e ∈ post, ¬ Touches k e) :
    fateOf k post = .waiting := by
  induction post using List.reverseRecOn with
  | nil => rfl
  | append_singleton post e ih =>
      have he := h e (by simp)
      rw [fateOf_snoc, ih fun e he => h e (by simp [he])]
      cases e with
      | put k' v => exact if_neg he
      | clear => exact absurd trivial he
      | take k' v => exact if_neg he
      | handOver k' v ok => rfl

theorem foldl_lost (k : K) (post : List (Ev K V)) : post.foldl (Fate.next k) .lost = .lost := by
  induction post with
  | nil => rfl
  | cons e post ih => cases e <;> exact ih

/-- What a fate says of the queue and of the history. -/
def Fate.Holds (log post : List (Ev K V)) (k : K) (v : V) : Fate → Prop
  | .waiting => (k, v) ∈ queueOf log ∧ ∀ e ∈ post, ¬ Touches k e
  | .held => heldOf log = some (k, v)
  | .handedOver => .handOver k v true ∈ post
  | .replaced => ∃ v', .put k v' ∈ post
  | .cleared => .clear ∈ post
  | .lost => .handOver k v false ∈ post

section Step

variable {log post : List (Ev K V)} {e : Ev K V} {k : K} {v : V}

/-- A value that waits: what does not touch its key leaves it waiting. -/
theorem holds_next_waiting (h : Lawful (log ++ [e])) (hwaits : Fate.waiting.Holds log post k v) :
    (Fate.next k .waiting e).Holds (log ++ [e]) (post ++ [e]) k v := by
  obtain ⟨hlog, hmay⟩ := eachMoment_snoc_iff.mp h
  obtain ⟨hmem, huntouched⟩ := hwaits
  have hstays : ¬ Touches k e → Fate.waiting.Holds (log ++ [e]) (post ++ [e]) k v := by
    intro he
    have hlatest := (mem_queueOf_iff hlog).mp hmem
    refine ⟨(mem_queueOf_iff h).mpr (latest_snoc_iff.mpr (.inr ⟨he, hlatest⟩)), fun e' he' => ?_⟩
    rcases List.mem_append.mp he' with he' | he'
    · exact huntouched e' he'
    · exact List.mem_singleton.mp he' ▸ he
  cases e with
  | put k' v' =>
      by_cases hk : k' = k
      · subst hk
        simp only [Fate.next, if_true]
        exact ⟨v', by simp⟩
      · simp only [Fate.next, if_neg hk]
        exact hstays hk
  | clear => exact List.mem_append_right _ (List.mem_singleton_self _)
  | take k' v' =>
      by_cases hk : k' = k
      · subst hk
        simp only [Fate.next, if_true]
        show heldOf _ = some (k', v)
        rw [queueOf_take hmay] at hmem
        rcases List.mem_cons.mp hmem with heq | hmem
        · rw [heldOf_snoc, heq]
          rfl
        · exact absurd (List.mem_map.mpr ⟨_, hmem, rfl⟩) (not_mem_of_take hmay)
      · simp only [Fate.next, if_neg hk]
        exact hstays hk
  | handOver k' v' ok => exact hstays id

/-- A value in hand: nothing else is taken until it is handed over. -/
theorem holds_next_held (h : May log e) (hheld : Fate.held.Holds log post k v) :
    (Fate.next k .held e).Holds (log ++ [e]) (post ++ [e]) k v := by
  have hheld : heldOf log = some (k, v) := hheld
  cases e with
  | put k' v' => exact (heldOf_snoc _ _).trans hheld
  | clear => exact (heldOf_snoc _ _).trans hheld
  | take k' v' =>
      rw [h.2] at hheld
      cases hheld
  | handOver k' v' ok =>
      obtain ⟨rfl, rfl⟩ := Prod.mk.inj (Option.some.inj (hheld.symm.trans h))
      have hlast : Ev.handOver k v ok ∈ post ++ [.handOver k v ok] :=
        List.mem_append_right _ (List.mem_singleton_self _)
      cases ok with
      | true => exact hlast
      | false => exact hlast

end Step

/-- **A fate is what it says**: the value is in the queue, or in hand, or there is the entry of the
    history that replaced it, cleared it, handed it over or failed to. -/
theorem fateOf_holds {pre post : List (Ev K V)} {k : K} {v : V}
    (h : Lawful (pre ++ .put k v :: post)) :
    (fateOf k post).Holds (pre ++ .put k v :: post) post k v := by
  induction post using List.reverseRecOn with
  | nil =>
      refine ⟨(mem_queueOf_iff h).mpr ?_, by simp⟩
      exact latest_snoc (show Touches k (.put k v) from rfl) pre
  | append_singleton post e ih =>
      have hsplit : pre ++ .put k v :: (post ++ [e]) = (pre ++ .put k v :: post) ++ [e] := by simp
      rw [hsplit] at h ⊢
      obtain ⟨hlog, hmay⟩ := eachMoment_snoc_iff.mp h
      have hih := ih hlog
      rw [fateOf_snoc]
      generalize fateOf k post = f at hih ⊢
      cases f with
      | waiting => exact holds_next_waiting h hih
      | held => exact holds_next_held hmay hih
      -- what became of the value is in the history
      | handedOver => exact List.mem_append_left [e] hih
      | replaced =>
          obtain ⟨v', hv'⟩ := hih
          exact ⟨v', List.mem_append_left [e] hv'⟩
      | cleared => exact List.mem_append_left [e] hih
      | lost => exact List.mem_append_left [e] hih

/-- What is held was put, and not replaced or cleared before it was taken. -/
theorem exists_held {log : List (Ev K V)} (h : Lawful log) {k : K} {v : V}
    (hheld : heldOf log = some (k, v)) :
    ∃ pre post, log = pre ++ .put k v :: post ∧ fateOf k post = .held := by
  induction log using List.reverseRecOn with
  | nil => cases hheld
  | append_singleton log e ih =>
      obtain ⟨hlog, hmay⟩ := eachMoment_snoc_iff.mp h
      rw [heldOf_snoc] at hheld
      -- an entry that leaves what is held
      have hkept : heldOf log = some (k, v) → Fate.next k .held e = .held →
          ∃ pre post, log ++ [e] = pre ++ .put k v :: post ∧ fateOf k post = .held := by
        intro hold hnext
        obtain ⟨pre, post, rfl, hfate⟩ := ih hlog hold
        exact ⟨pre, post ++ [e], by simp, by rw [fateOf_snoc, hfate, hnext]⟩
      cases e with
      | put k' v' => exact hkept hheld rfl
      | clear => exact hkept hheld rfl
      | take k' v' =>
          obtain ⟨rfl, rfl⟩ := Prod.mk.inj (Option.some.inj hheld)
          have hmem : (k', v') ∈ queueOf log := queueOf_take hmay ▸ List.mem_cons_self
          obtain ⟨-, pre, post, rfl, hpost⟩ := (mem_queueOf_iff hlog).mp hmem
          refine ⟨pre, post ++ [.take k' v'], by simp, ?_⟩
          rw [fateOf_snoc, fateOf_untouched hpost]
          exact if_pos rfl
      | handOver k' v' ok => cases hheld

/-- **A value is lost exactly where handing over failed.** -/
theorem lost_iff {log : List (Ev K V)} (h : Lawful log) :
    (∃ pre k v post, log = pre ++ .put k v :: post ∧ fateOf k post = .lost) ↔
      ∃ k v, .handOver k v false ∈ log := by
  constructor
  · rintro ⟨pre, k, v, post, rfl, hlost⟩
    have hholds := fateOf_holds h
    rw [hlost] at hholds
    exact ⟨k, v, List.mem_append_right _ (List.mem_cons_of_mem _ hholds)⟩
  · rintro ⟨k, v, hmem⟩
    obtain ⟨a, b, rfl⟩ := List.append_of_mem hmem
    have ha : Lawful a := fun pre e post hab =>
      h pre e (post ++ .handOver k v false :: b) (by simp [hab])
    obtain ⟨pre, post, rfl, hheld⟩ := exists_held ha (h a _ b rfl)
    refine ⟨pre, k, v, post ++ .handOver k v false :: b, by simp, ?_⟩
    unfold fateOf at hheld ⊢
    rw [List.foldl_append, hheld]
    exact foldl_lost k b

end LatestQueue
