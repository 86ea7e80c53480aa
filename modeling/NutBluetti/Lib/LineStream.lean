/-
  File:      NutBluetti/Lib/LineStream.lean
  Subject:   LINES FROM A STREAM THAT COMES IN BLOCKS, with a bound on the line kept between them.

  A server is handed one line after the other and may stop after any; what is left of an unfinished
  line is kept. A kept line that has grown to the bound is dropped, and the server told.

  * `step`, `feed` -- one character at a time: nothing here depends on blocks;
  * `scan`, `readBlock` -- a block at a time: first its lines, then the bound once, on what is kept;
  * **`readBlock_eq_feed`** -- where a block fits the room left, that is the same: with
    `feed_append` the cuts between such blocks do not show;
  * `length_kept_feed`, `mem_kept_readBlock` -- the line kept stays below the bound and has no
    newline;
  * `calls` -- the lines that were handed over, with the places of their newlines;
  * **`calls_whole_iff`** -- each of them is a whole line of the stream exactly where all lines, up
    to the one the server stops at, stay below the bound.
-/
import Mathlib.Data.List.Induction
import Mathlib.Data.List.TakeWhile

namespace LineStream

variable {α σ : Type*}

/-- Who gets the lines: `line` also says whether to stop, `overlong` is told of a dropped line. -/
structure Server (α σ : Type*) where
  line : σ → List α → σ × Bool
  overlong : σ → σ

/-- The receiving side: what the server made of it, the unfinished line, and whether it stopped. -/
structure Rx (α σ : Type*) where
  out : σ
  kept : List α
  stopped : Bool

variable [DecidableEq α] (nl : α) (limit : Nat) (srv : Server α σ)

/-! ## 1. A character at a time -/

/-- A character without regard to the bound. -/
def scanStep (r : Rx α σ) (c : α) : Rx α σ :=
  if r.stopped then r
  else if c = nl then ⟨(srv.line r.out r.kept).1, [], (srv.line r.out r.kept).2⟩
  else { r with kept := r.kept ++ [c] }

/-- The bound on the line kept. -/
def bound (r : Rx α σ) : Rx α σ :=
  if r.stopped then r
  else if r.kept.length = limit then { r with out := srv.overlong r.out, kept := [] }
  else r

def step (r : Rx α σ) (c : α) : Rx α σ := bound limit srv (scanStep nl srv r c)

def feed (r : Rx α σ) (s : List α) : Rx α σ := s.foldl (step nl limit srv) r

/-! ## 2. A block at a time -/

def scan (r : Rx α σ) (s : List α) : Rx α σ := s.foldl (scanStep nl srv) r

def readBlock (r : Rx α σ) (s : List α) : Rx α σ := bound limit srv (scan nl srv r s)

variable {nl limit srv}

theorem scan_of_stopped {r : Rx α σ} (h : r.stopped = true) (s : List α) : scan nl srv r s = r := by
  induction s with
  | nil => rfl
  | cons c s ih =>
      rw [scan, List.foldl_cons, scanStep, if_pos h]
      exact ih

omit [DecidableEq α] in
theorem bound_of_stopped {r : Rx α σ} (h : r.stopped = true) : bound limit srv r = r := by
  rw [bound, if_pos h]

omit [DecidableEq α] in
theorem bound_of_short {r : Rx α σ} (h : r.kept.length < limit) : bound limit srv r = r := by
  unfold bound
  split
  · rfl
  · rw [if_neg (by omega)]

theorem feed_of_stopped {r : Rx α σ} (h : r.stopped = true) (s : List α) :
    feed nl limit srv r s = r := by
  induction s with
  | nil => rfl
  | cons c s ih =>
      rw [feed, List.foldl_cons, step, scanStep, if_pos h, bound_of_stopped h]
      exact ih

theorem feed_append (r : Rx α σ) (s t : List α) :
    feed nl limit srv r (s ++ t) = feed nl limit srv (feed nl limit srv r s) t :=
  List.foldl_append

/-- **A block that fits the room left**: its lines first and the bound once at the end give what the
    bound at every character gives. -/
theorem readBlock_eq_feed {s : List α} :
    ∀ {r : Rx α σ}, r.stopped = true ∨ r.kept.length < limit ∧ r.kept.length + s.length ≤ limit →
      readBlock nl limit srv r s = feed nl limit srv r s := by
  induction s with
  | nil =>
      intro r h
      rcases h with h | h
      · exact bound_of_stopped h
      · exact bound_of_short h.1
  | cons c s ih =>
      intro r h
      rcases h with h | ⟨hroom, hfit⟩
      · rw [feed_of_stopped h, readBlock, scan_of_stopped h, bound_of_stopped h]
      · rw [List.length_cons] at hfit
        by_cases hs : r.stopped = true
        · rw [feed_of_stopped hs, readBlock, scan_of_stopped hs, bound_of_stopped hs]
        · by_cases hlast : s = []
          · -- the last character of the block: the bound is looked at here in either reading
            subst hlast
            rfl
          · have hpos : 0 < s.length := List.length_pos_iff.mpr hlast
            have hshort : (scanStep nl srv r c).kept.length + s.length ≤ limit ∧
                (scanStep nl srv r c).kept.length < limit := by
              unfold scanStep
              rw [if_neg hs]
              split
              · simp only [List.length_nil]
                omega
              · simp only [List.length_append, List.length_singleton]
                omega
            have hstep : step nl limit srv r c = scanStep nl srv r c := bound_of_short hshort.2
            rw [feed, List.foldl_cons, hstep]
            exact ih (.inr ⟨hshort.2, hshort.1⟩)

/-- The line kept stays shorter than the bound. -/
theorem length_kept_step (hlim : 0 < limit) {r : Rx α σ} (h : r.kept.length < limit) (c : α) :
    (step nl limit srv r c).kept.length < limit := by
  unfold step bound scanStep
  by_cases hs : r.stopped = true
  · simpa [hs] using h
  · by_cases hc : c = nl
    · simp only [if_neg hs, if_pos hc]
      split
      · exact hlim
      · rw [if_neg (by simp only [List.length_nil]; omega)]
        exact hlim
    · simp only [if_neg hs, if_neg hc, List.length_append, List.length_singleton]
      split
      · exact hlim
      · simp only [List.length_append, List.length_singleton]
        omega

theorem length_kept_feed (hlim : 0 < limit) {r : Rx α σ} (h : r.kept.length < limit) (s : List α) :
    (feed nl limit srv r s).kept.length < limit := by
  induction s generalizing r with
  | nil => exact h
  | cons c s ih => exact ih (length_kept_step hlim h c)

theorem scan_append (r : Rx α σ) (s t : List α) :
    scan nl srv r (s ++ t) = scan nl srv (scan nl srv r s) t :=
  List.foldl_append

/-- What a block leaves of an unfinished line was there before or stands in the block. -/
theorem mem_kept_scan {r : Rx α σ} {s : List α} {c : α} (h : c ∈ (scan nl srv r s).kept) :
    c ∈ r.kept ∨ c ∈ s ∧ c ≠ nl := by
  induction s generalizing r with
  | nil => exact .inl h
  | cons d s ih =>
      rcases ih (r := scanStep nl srv r d) h with hk | ⟨hs, hne⟩
      · unfold scanStep at hk
        split at hk
        · exact .inl hk
        · split at hk
          · cases hk
          · rename_i hd
            rcases List.mem_append.mp hk with hk | hk
            · exact .inl hk
            · obtain rfl := List.mem_singleton.mp hk
              exact .inr ⟨List.mem_cons_self, hd⟩
      · exact .inr ⟨List.mem_cons_of_mem d hs, hne⟩

theorem mem_kept_readBlock {r : Rx α σ} {s : List α} {c : α}
    (h : c ∈ (readBlock nl limit srv r s).kept) : c ∈ r.kept ∨ c ∈ s ∧ c ≠ nl := by
  unfold readBlock bound at h
  split at h
  · exact mem_kept_scan h
  · split at h
    · cases h
    · exact mem_kept_scan h

/-! ## 3. What is handed over -/

/-- The newline after `s` ends the line that `s` was in the middle of. -/
def lastLine (nl : α) (s : List α) : List α := (s.reverse.takeWhile (· ≠ nl)).reverse

/-- The lines of a stream that are ended; `line` is the one it starts in the middle of. -/
def lines (nl : α) (line : List α) : List α → List (List α)
  | [] => []
  | c :: s => if c = nl then line :: lines nl [] s else lines nl (line ++ [c]) s

/-- The places of the newlines, from `base` on. -/
def newlines (nl : α) (base : Nat) : List α → List Nat
  | [] => []
  | c :: s => if c = nl then base :: newlines nl (base + 1) s else newlines nl (base + 1) s

variable (nl limit srv) in
/-- The lines handed over while `s` comes in, with the places of their newlines. -/
def calls (base : Nat) (r : Rx α σ) : List α → List (Nat × List α)
  | [] => []
  | c :: s =>
      if r.stopped = false ∧ c = nl then
        (base, r.kept) :: calls (base + 1) (step nl limit srv r c) s
      else calls (base + 1) (step nl limit srv r c) s

omit [DecidableEq α] in
/-- Lines that stay below the bound, up to the one the server stops at. -/
def Fits (limit : Nat) (srv : Server α σ) : σ → List (List α) → Prop
  | _, [] => True
  | out, line :: rest =>
      line.length < limit ∧
        ((srv.line out line).2 = false → Fits limit srv (srv.line out line).1 rest)

theorem calls_append (base : Nat) (r : Rx α σ) (s t : List α) :
    calls nl limit srv base r (s ++ t) = calls nl limit srv base r s ++
      calls nl limit srv (base + s.length) (feed nl limit srv r s) t := by
  induction s generalizing base r with
  | nil => rfl
  | cons c s ih =>
      have hplace : base + 1 + s.length = base + (c :: s).length := by
        rw [List.length_cons]
        omega
      rw [List.cons_append, calls, calls, feed, List.foldl_cons, ← feed, ih, hplace]
      split <;> rfl

theorem calls_of_stopped {r : Rx α σ} (h : r.stopped = true) (base : Nat) (s : List α) :
    calls nl limit srv base r s = [] := by
  induction s generalizing base with
  | nil => rfl
  | cons c s ih =>
      have hstep : step nl limit srv r c = r := by
        rw [step, scanStep, if_pos h, bound_of_stopped h]
      rw [calls, if_neg (by simp [h]), hstep]
      exact ih (base + 1)

theorem calls_of_no_newline {s : List α} (h : nl ∉ s) (base : Nat) (r : Rx α σ) :
    calls nl limit srv base r s = [] := by
  induction s generalizing base r with
  | nil => rfl
  | cons c s ih =>
      have hc : ¬ c = nl := fun heq => h (heq ▸ List.mem_cons_self)
      rw [calls, if_neg (fun hcall => hc hcall.2)]
      exact ih (fun hs => h (List.mem_cons_of_mem c hs)) _ _

/-- The places of the calls are the first newlines. -/
theorem zip_newlines {β : Type*} (f : List α → β) (base : Nat) (r : Rx α σ) (s : List α) :
    (newlines nl base s).zip ((calls nl limit srv base r s).map fun p => f p.2) =
      (calls nl limit srv base r s).map fun p => (p.1, f p.2) := by
  induction s generalizing base r with
  | nil => rfl
  | cons c s ih =>
      by_cases hs : r.stopped = true
      · rw [calls_of_stopped hs]
        exact List.zip_nil_right
      · rw [newlines, calls]
        by_cases hc : c = nl
        · rw [if_pos hc, if_pos ⟨by simpa using hs, hc⟩, List.map_cons, List.zip_cons_cons, ih]
          rfl
        · rw [if_neg hc, if_neg fun hcall => hc hcall.2]
          exact ih _ _

/-- **A line as it comes in**: below the bound it is kept whole; from there on, the bound or more is
    missing from what is kept. -/
theorem feed_line (hlim : 0 < limit) (out : σ) {line : List α} (h : nl ∉ line) :
    (feed nl limit srv ⟨out, [], false⟩ line).stopped = false ∧
      (line.length < limit ∧ feed nl limit srv ⟨out, [], false⟩ line = ⟨out, line, false⟩ ∨
        (feed nl limit srv ⟨out, [], false⟩ line).kept.length + limit ≤ line.length) := by
  induction line using List.reverseRecOn with
  | nil => exact ⟨rfl, .inl ⟨hlim, rfl⟩⟩
  | append_singleton line c ih =>
      have hc : ¬ c = nl := fun heq => h (by simp [heq])
      obtain ⟨hopen, hkept⟩ := ih fun hl => h (List.mem_append_left _ hl)
      rw [feed_append, List.length_append, List.length_singleton]
      generalize feed nl limit srv ⟨out, [], false⟩ line = r at hopen hkept ⊢
      obtain ⟨out', kept, stopped⟩ := r
      obtain rfl : stopped = false := hopen
      have hscan : scanStep nl srv ⟨out', kept, false⟩ c = ⟨out', kept ++ [c], false⟩ := by
        simp [scanStep, hc]
      have hstep : feed nl limit srv ⟨out', kept, false⟩ [c] =
          bound limit srv ⟨out', kept ++ [c], false⟩ := by
        rw [← hscan]
        rfl
      rw [hstep]
      unfold bound
      simp only [Bool.false_eq_true, if_false, List.length_append, List.length_singleton]
      by_cases hfull : kept.length + 1 = limit
      · simp only [if_pos hfull, true_and, List.length_nil]
        refine .inr ?_
        rcases hkept with ⟨-, heq⟩ | hlong
        · obtain ⟨-, rfl, -⟩ := Rx.mk.inj heq
          omega
        · simp only at hlong
          omega
      · simp only [if_neg hfull, true_and, List.length_append, List.length_singleton]
        rcases hkept with ⟨hlt, heq⟩ | hlong
        · obtain ⟨rfl, rfl, -⟩ := Rx.mk.inj heq
          exact .inl ⟨by omega, rfl⟩
        · simp only at hlong
          exact .inr (by omega)

theorem lastLine_append {before line : List α} (hb : lastLine nl before = []) (h : nl ∉ line) :
    lastLine nl (before ++ line) = line := by
  unfold lastLine at hb ⊢
  have hall : ∀ c ∈ line.reverse, (decide (c ≠ nl)) = true := fun c hc =>
    decide_eq_true fun heq => h (heq ▸ List.mem_reverse.mp hc)
  rw [List.reverse_append, List.takeWhile_append_of_pos hall, List.reverse_append, hb,
    List.nil_append, List.reverse_reverse]

theorem lastLine_newline (s : List α) : lastLine nl (s ++ [nl]) = [] := by
  simp [lastLine]

theorem lines_line {line : List α} (h : nl ∉ line) (before rest : List α) :
    lines nl before (line ++ nl :: rest) = (before ++ line) :: lines nl [] rest := by
  induction line generalizing before with
  | nil => rw [List.nil_append, lines, if_pos rfl, List.append_nil]
  | cons c line ih =>
      have hc : ¬ c = nl := fun heq => h (heq ▸ List.mem_cons_self)
      rw [List.cons_append, lines, if_neg hc, ih fun hl => h (List.mem_cons_of_mem c hl)]
      simp

theorem lines_of_no_newline {s : List α} (h : nl ∉ s) (before : List α) :
    lines nl before s = [] := by
  induction s generalizing before with
  | nil => rfl
  | cons c s ih =>
      have hc : ¬ c = nl := fun heq => h (heq ▸ List.mem_cons_self)
      rw [lines, if_neg hc]
      exact ih (fun hs => h (List.mem_cons_of_mem c hs)) _

/-- A newline hands over what is kept, and the next line starts afresh. -/
theorem step_newline (hlim : 0 < limit) (out : σ) (kept : List α) :
    step nl limit srv ⟨out, kept, false⟩ nl =
    ⟨(srv.line out kept).1, [], (srv.line out kept).2⟩ := by
  have hscan : scanStep nl srv ⟨out, kept, false⟩ nl =
      ⟨(srv.line out kept).1, [], (srv.line out kept).2⟩ := by
    simp [scanStep]
  rw [step, hscan]
  exact bound_of_short hlim

/-- A line below the bound is handed over whole. -/
theorem feed_whole_line (hlim : 0 < limit) (out : σ) {line : List α} (h : nl ∉ line)
    (hlen : line.length < limit) :
    feed nl limit srv ⟨out, [], false⟩ (line ++ [nl]) =
      ⟨(srv.line out line).1, [], (srv.line out line).2⟩ := by
  have hline : (feed nl limit srv ⟨out, [], false⟩ line).stopped = false ∧ _ := feed_line hlim out h
  obtain ⟨-, ⟨-, hkept⟩ | hlong⟩ := hline
  · rw [feed_append, hkept]
    exact step_newline hlim out line
  · omega

/-- From the start of a line on. -/
theorem calls_whole_iff_from {β : Type*} {f : List α → β} (hlim : 0 < limit)
    (hf : ∀ kept line, kept.length + limit ≤ line.length → f kept ≠ f line) :
    ∀ (n : Nat) (s : List α), s.length ≤ n → ∀ (before : List α) (out : σ),
      lastLine nl before = [] →
        ((∀ p ∈ calls nl limit srv before.length ⟨out, [], false⟩ s,
            f p.2 = f (lastLine nl ((before ++ s).take p.1))) ↔
          Fits limit srv out (lines nl [] s)) := by
  intro n
  induction n with
  | zero =>
      intro s hs before out _
      obtain rfl := List.length_eq_zero_iff.mp (Nat.le_zero.mp hs)
      exact iff_of_true (fun p hp => absurd hp List.not_mem_nil) trivial
  | succ n ih =>
      intro s hs before out hbefore
      by_cases hmem : nl ∈ s
      · obtain ⟨line, rest, rfl, hline⟩ := List.eq_append_cons_of_mem hmem
        have hfed : (feed nl limit srv ⟨out, [], false⟩ line).stopped = false ∧ _ :=
          feed_line hlim out hline
        obtain ⟨hopen, hkept⟩ := hfed
        have hwhole : lastLine nl ((before ++ (line ++ nl :: rest)).take
            (before.length + line.length)) = line := by
          rw [← List.append_assoc, ← List.length_append, List.take_left]
          exact lastLine_append hbefore hline
        rw [calls_append, calls_of_no_newline hline, List.nil_append, lines_line hline,
          List.nil_append]
        generalize feed nl limit srv ⟨out, [], false⟩ line = r at hopen hkept ⊢
        obtain ⟨out', kept, stopped⟩ := r
        obtain rfl : stopped = false := hopen
        rw [calls, if_pos ⟨rfl, rfl⟩, List.forall_mem_cons, hwhole, step_newline hlim, Fits]
        rcases hkept with ⟨hlt, heq⟩ | hlong
        · obtain ⟨rfl, rfl, -⟩ := Rx.mk.inj heq
          rw [and_iff_right rfl, and_iff_right hlt]
          cases hstop : (srv.line out' kept).2 with
          | true =>
              rw [calls_of_stopped rfl]
              exact iff_of_true (fun p hp => absurd hp List.not_mem_nil) fun h => nomatch h
          | false =>
              have hplace : before.length + kept.length + 1 = (before ++ kept ++ [nl]).length := by
                simp
                omega
              have hstream : before ++ (kept ++ nl :: rest) = before ++ kept ++ [nl] ++ rest := by
                simp
              have hrest : rest.length ≤ n := by
                simp only [List.length_append, List.length_cons] at hs
                omega
              rw [hplace, hstream, ih rest hrest _ _ (lastLine_newline _)]
              exact ⟨fun h _ => h, fun h => h rfl⟩
        · -- what is missing from the line shows in what was handed over
          refine iff_of_false (fun hall => hf kept line hlong hall.1) fun hfits => ?_
          simp only at hlong
          omega
      · rw [calls_of_no_newline hmem, lines_of_no_newline hmem]
        exact iff_of_true (fun p hp => absurd hp List.not_mem_nil) trivial

/-- **Every line handed over is a whole line of the stream**, at its newline and as far as `f`
    tells, exactly if all lines, up to the one the server stops at, stay below the bound. -/
theorem calls_whole_iff {β : Type*} {f : List α → β} (hlim : 0 < limit)
    (hf : ∀ kept line, kept.length + limit ≤ line.length → f kept ≠ f line) (out : σ) (s : List α) :
    (∀ p ∈ calls nl limit srv 0 ⟨out, [], false⟩ s, f p.2 = f (lastLine nl (s.take p.1))) ↔
      Fits limit srv out (lines nl [] s) :=
  calls_whole_iff_from hlim hf s.length s (Nat.le_refl _) [] out rfl

end LineStream
