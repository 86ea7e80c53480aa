/-
  File:      NutBluetti/Lib/Stopwatch.lean
  Subject:   AN EDGE-TRIGGERED STOPWATCH over a trace of events, and what its reading says about
             the trace.

  The watch is cleared by a `reset` event; a `start` event starts it unless it already runs. It is
  the usual way a device times a condition with one flag and one timestamp.

  * `FirstSince reset start l b` -- the abstract meaning: `b` is the first starting event of `l`
    after its last resetting one, and nothing resets after it;
  * `reading` -- the watch itself, one fold over the trace;
  * **`reading_eq_some_iff`** -- the watch reads `some t` exactly when such a `b` exists and `t` is
    its stamp;
  * **`reading_unbroken`** -- where every event that does not start the watch resets it, a running
    watch means an unbroken stretch of starting events from that stamp to the end of the trace;
  * **`overdue_iff`** -- on a clock that never runs back the watch reads `T` or less exactly when
    some starting event that nothing reset since is stamped `T` or less.
-/
import Mathlib.Data.List.Induction
import Mathlib.Order.Basic

namespace Stopwatch

variable {α τ : Type*}

/-- One event on the watch. -/
def tick (reset start : α → Prop) [DecidablePred reset] [DecidablePred start] (stamp : α → τ)
    (w : Option τ) (a : α) : Option τ :=
  if reset a then none else if start a then some (w.getD (stamp a)) else w

/-- The watch after a trace, started from `w`. -/
def readingFrom (reset start : α → Prop) [DecidablePred reset] [DecidablePred start]
    (stamp : α → τ) (w : Option τ) (l : List α) : Option τ :=
  l.foldl (tick reset start stamp) w

/-- The watch after a trace, started cleared. -/
def reading (reset start : α → Prop) [DecidablePred reset] [DecidablePred start]
    (stamp : α → τ) (l : List α) : Option τ :=
  readingFrom reset start stamp none l

/-- `b` is the first starting event of `l` after the last resetting one (or after the beginning,
    where nothing resets), and no later event of `l` resets. -/
def FirstSince (reset start : α → Prop) (l : List α) (b : α) : Prop :=
  ∃ before quiet after, l = before ++ quiet ++ b :: after ∧
    (∀ r, before.getLast? = some r → reset r) ∧
    (∀ q ∈ quiet, ¬ reset q ∧ ¬ start q) ∧ start b ∧ ¬ reset b ∧ ∀ a ∈ after, ¬ reset a

section Reading

variable {reset start : α → Prop}

/-- After a resetting event no event is the first since. -/
theorem firstSince_snoc_reset {l : List α} {a b : α} (ha : reset a) :
    ¬ FirstSince reset start (l ++ [a]) b := by
  rintro ⟨before, quiet, after, hl, -, -, -, hb, hafter⟩
  rcases List.eq_nil_or_concat after with rfl | ⟨after', a', rfl⟩
  · have := (List.append_inj' hl rfl).2
    simp only [List.cons.injEq, and_true] at this
    exact hb (this ▸ ha)
  · have hl' : l ++ [a] = (before ++ quiet ++ b :: after') ++ [a'] := by simpa using hl
    have := (List.append_inj' hl' rfl).2
    simp only [List.cons.injEq, and_true] at this
    exact hafter a' (by simp) (this ▸ ha)

/-- An event that does not reset keeps the first since, if there is one. -/
theorem FirstSince.snoc {l : List α} {a b : α} (ha : ¬ reset a)
    (h : FirstSince reset start l b) : FirstSince reset start (l ++ [a]) b := by
  obtain ⟨before, quiet, after, rfl, h1, h2, h3, h4, h5⟩ := h
  refine ⟨before, quiet, after ++ [a], by simp, h1, h2, h3, h4, fun x hx => ?_⟩
  rcases List.mem_append.mp hx with hx | hx
  · exact h5 x hx
  · exact List.mem_singleton.mp hx ▸ ha

/-- Every trace splits at its last resetting event; what follows holds no reset. -/
theorem exists_split (reset : α → Prop) (l : List α) :
    ∃ before rest, l = before ++ rest ∧ (∀ r, before.getLast? = some r → reset r) ∧
      ∀ a ∈ rest, ¬ reset a := by
  classical
  induction l using List.reverseRecOn with
  | nil => exact ⟨[], [], rfl, by simp, by simp⟩
  | append_singleton l a ih =>
      obtain ⟨before, rest, rfl, h1, h2⟩ := ih
      by_cases ha : reset a
      · refine ⟨before ++ rest ++ [a], [], by simp, fun r hr => ?_, by simp⟩
        rw [List.getLast?_concat, Option.some.injEq] at hr
        exact hr ▸ ha
      · refine ⟨before, rest ++ [a], by simp, h1, fun x hx => ?_⟩
        rcases List.mem_append.mp hx with hx | hx
        · exact h2 x hx
        · exact List.mem_singleton.mp hx ▸ ha

/-- In a stretch without resets, either nothing starts or some event starts first. -/
theorem exists_first (start : α → Prop) (l : List α) :
    (∀ a ∈ l, ¬ start a) ∨ ∃ quiet b after, l = quiet ++ b :: after ∧ start b ∧
      ∀ q ∈ quiet, ¬ start q := by
  classical
  induction l with
  | nil => exact .inl (by simp)
  | cons a l ih =>
      by_cases ha : start a
      · exact .inr ⟨[], a, l, rfl, ha, by simp⟩
      · rcases ih with h | ⟨quiet, b, after, rfl, hb, hq⟩
        · exact .inl (List.forall_mem_cons.mpr ⟨ha, h⟩)
        · exact .inr ⟨a :: quiet, b, after, rfl, hb, List.forall_mem_cons.mpr ⟨ha, hq⟩⟩

/-- Where nothing is the first since, a starting event becomes it. -/
theorem firstSince_snoc_start {l : List α} {a : α} (hr : ¬ reset a) (hs : start a)
    (hno : ∀ b, ¬ FirstSince reset start l b) : FirstSince reset start (l ++ [a]) a := by
  obtain ⟨before, rest, rfl, h1, h2⟩ := exists_split reset l
  rcases exists_first start rest with h | ⟨quiet, b, after, rfl, hb, hq⟩
  · exact ⟨before, rest, [], by simp, h1, fun q hq => ⟨h2 q hq, h q hq⟩, hs, hr, by simp⟩
  · refine absurd ⟨before, quiet, after, by simp, h1, fun q hq' => ⟨h2 q ?_, hq q hq'⟩, hb,
      h2 b (by simp), fun x hx => h2 x (by simp [hx])⟩ (hno b)
    simp [hq']

/-- The first since after one more event: it was there before, or the event is it. -/
theorem firstSince_snoc_iff {l : List α} {a b : α} :
    FirstSince reset start (l ++ [a]) b ↔ ¬ reset a ∧ (FirstSince reset start l b ∨
      start a ∧ b = a ∧ ∀ b', ¬ FirstSince reset start l b') := by
  constructor
  · intro h
    have ha : ¬ reset a := fun ha => firstSince_snoc_reset ha h
    refine ⟨ha, ?_⟩
    obtain ⟨before, quiet, after, hl, h1, h2, h3, h4, h5⟩ := h
    rcases List.eq_nil_or_concat after with rfl | ⟨after', a', rfl⟩
    · obtain ⟨rfl, hab⟩ := List.append_inj' hl rfl
      obtain rfl : a = b := by simpa using hab
      by_cases hno : ∃ b', FirstSince reset start (before ++ quiet) b'
      · -- an earlier first would have to lie before the last reset, or in the quiet stretch
        exfalso
        obtain ⟨b', before', quiet', after', hl', h1', -, h3', h4', h5'⟩ := hno
        have hsuf : ∀ x ∈ b' :: after', ¬ reset x := by
          simp only [List.mem_cons, forall_eq_or_imp]
          exact ⟨h4', h5'⟩
        rcases List.append_eq_append_iff.mp hl' with ⟨m, hm, hq⟩ | ⟨m, hm, hq⟩
        · exact (h2 b' (by rw [hq]; simp)).2 h3'
        · cases hm' : m.getLast? with
          | none =>
              rw [List.getLast?_eq_none_iff.mp hm', List.nil_append] at hq
              exact (h2 b' (by rw [← hq]; simp)).2 h3'
          | some r =>
              have hr : reset r := h1 r (by rw [hm, List.getLast?_append, hm']; rfl)
              exact hsuf r (by rw [hq]; exact List.mem_append_left _ (List.mem_of_getLast? hm')) hr
      · exact .inr ⟨h3, rfl, fun b' hb' => hno ⟨b', hb'⟩⟩
    · have hl' : l ++ [a] = (before ++ quiet ++ b :: after') ++ [a'] := by simpa using hl
      obtain ⟨rfl, -⟩ := List.append_inj' hl' rfl
      exact .inl ⟨before, quiet, after', rfl, h1, h2, h3, h4, fun x hx => h5 x (by simp [hx])⟩
  · rintro ⟨ha, h | ⟨hs, rfl, hno⟩⟩
    · exact h.snoc ha
    · exact firstSince_snoc_start ha hs hno

variable [DecidablePred reset] [DecidablePred start] {stamp : α → τ}

@[simp] theorem readingFrom_nil (w : Option τ) : readingFrom reset start stamp w [] = w := rfl

theorem readingFrom_snoc (w : Option τ) (l : List α) (a : α) :
    readingFrom reset start stamp w (l ++ [a]) =
      tick reset start stamp (readingFrom reset start stamp w l) a := by
  simp [readingFrom, List.foldl_append]

/-- **What the watch reads**: the stamp of the first starting event since the last reset. -/
theorem reading_eq_some_iff {l : List α} {t : τ} :
    reading reset start stamp l = some t ↔ ∃ b, FirstSince reset start l b ∧ stamp b = t := by
  induction l using List.reverseRecOn generalizing t with
  | nil => simp [reading, FirstSince]
  | append_singleton l a ih =>
      have hnone : reading reset start stamp l = none ↔ ∀ b, ¬ FirstSince reset start l b := by
        rw [Option.eq_none_iff_forall_ne_some]
        constructor
        · intro h b hb
          exact h (stamp b) (ih.mpr ⟨b, hb, rfl⟩)
        · intro h t' ht'
          obtain ⟨b, hb, -⟩ := ih.mp ht'
          exact h b hb
      rw [reading, readingFrom_snoc, ← reading]
      simp only [firstSince_snoc_iff]
      by_cases hr : reset a
      · simp [tick, hr]
      · by_cases hs : start a
        · cases hw : reading reset start stamp l with
          | none =>
              have hno := hnone.mp hw
              simp [tick, hr, hs, hno]
          | some t' =>
              obtain ⟨b', hb', hst⟩ := ih.mp hw
              have hex : ¬ ∀ b', ¬ FirstSince reset start l b' := fun h => h b' hb'
              simp only [tick, hr, hs, if_false, if_true, Option.getD_some, not_false_eq_true,
                true_and, hex, and_false, or_false]
              rw [← hw]
              exact ih
        · simp only [tick, hr, hs, if_false, not_false_eq_true, true_and, false_and, or_false]
          exact ih

/-- **A watch that every other event resets**: if it runs at the end of a trace it was started
    cleared or already running at `t0`, and every event of the stretch it times starts it. -/
theorem reading_unbroken (hrs : ∀ a, ¬ start a → reset a) {w : Option τ} {l : List α} {t : τ}
    (h : readingFrom reset start stamp w l = some t) :
    (w = some t ∧ ∀ a ∈ l, start a) ∨
      ∃ before b after, l = before ++ b :: after ∧ stamp b = t ∧ start b ∧
        ∀ a ∈ after, start a := by
  induction l using List.reverseRecOn generalizing t with
  | nil => exact .inl ⟨h, by simp⟩
  | append_singleton l a ih =>
      rw [readingFrom_snoc] at h
      by_cases hr : reset a
      · simp [tick, hr] at h
      have hs : start a := by
        by_contra hs
        exact hr (hrs a hs)
      simp only [tick, hr, hs, if_false, if_true, Option.some.injEq] at h
      cases hw : readingFrom reset start stamp w l with
      | none =>
          rw [hw] at h
          exact .inr ⟨l, a, [], rfl, h, hs, by simp⟩
      | some t' =>
          rw [hw, Option.getD_some] at h
          subst h
          rcases ih hw with ⟨hw', hall⟩ | ⟨before, b, after, rfl, hb, hsb, hall⟩
          · refine .inl ⟨hw', fun x hx => ?_⟩
            rcases List.mem_append.mp hx with hx | hx
            · exact hall x hx
            · exact List.mem_singleton.mp hx ▸ hs
          · refine .inr ⟨before, b, after ++ [a], by simp, hb, hsb, fun x hx => ?_⟩
            rcases List.mem_append.mp hx with hx | hx
            · exact hall x hx
            · exact List.mem_singleton.mp hx ▸ hs

/-- Nothing that does not reset the watch changes it while it runs. -/
theorem readingFrom_running {l : List α} (h : ∀ a ∈ l, ¬ reset a) (t : τ) :
    readingFrom reset start stamp (some t) l = some t := by
  induction l with
  | nil => rfl
  | cons a l ih =>
      obtain ⟨ha, hl⟩ := List.forall_mem_cons.mp h
      have htick : tick reset start stamp (some t) a = some t := by
        unfold tick
        rw [if_neg ha]
        split <;> rfl
      show readingFrom reset start stamp (tick reset start stamp (some t) a) l = some t
      rw [htick]
      exact ih hl

/-- **On a clock that never runs back** the watch has run since `T` exactly when it was started by
    then and not reset since. -/
theorem overdue_iff [Preorder τ] {l : List α} (hl : l.Pairwise fun a b => stamp a ≤ stamp b)
    {T : τ} :
    (∃ t, reading reset start stamp l = some t ∧ t ≤ T) ↔
      ∃ before b after, l = before ++ b :: after ∧ start b ∧ (∀ a ∈ b :: after, ¬ reset a) ∧
        stamp b ≤ T := by
  constructor
  · intro h
    obtain ⟨t, ht, hle⟩ := h
    obtain ⟨b, hb, rfl⟩ := reading_eq_some_iff.mp ht
    obtain ⟨before, quiet, after, rfl, -, -, hs, hr, hafter⟩ := hb
    exact ⟨before ++ quiet, b, after, rfl, hs, List.forall_mem_cons.mpr ⟨hr, hafter⟩, hle⟩
  · intro h
    obtain ⟨before, b, after, rfl, hs, hno, hle⟩ := h
    obtain ⟨hr, hafter⟩ := List.forall_mem_cons.mp hno
    obtain ⟨t, ht, htb⟩ : ∃ t, reading reset start stamp (before ++ [b]) = some t ∧
      t ≤ stamp b := by
      unfold reading
      rw [readingFrom_snoc, tick, if_neg hr, if_pos hs]
      refine ⟨_, rfl, ?_⟩
      cases hw : readingFrom reset start stamp none before with
      | none => exact le_refl _
      | some t =>
          -- the watch already ran: what started it is an earlier event
          obtain ⟨a, ha, rfl⟩ := reading_eq_some_iff.mp hw
          obtain ⟨pre, quiet, post, rfl, -⟩ := ha
          exact (List.pairwise_append.mp hl).2.2 a (by simp) b List.mem_cons_self
    refine ⟨t, ?_, le_trans htb hle⟩
    have hsplit : before ++ b :: after = (before ++ [b]) ++ after := by simp
    unfold reading at ht ⊢
    unfold readingFrom at ht ⊢
    rw [hsplit, List.foldl_append, ht]
    exact readingFrom_running hafter t

end Reading

end Stopwatch
