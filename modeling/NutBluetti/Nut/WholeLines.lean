/-
  File:      NutBluetti/Nut/WholeLines.lean
  Subject:   WHAT `handle_line` IS CALLED WITH. A line that does not fit the receive buffer is
             dropped with `ERR TOO-LONG`, as far as it has come in; the rest of it is a line of its
             own.

  * `served` -- the calls of `handle_line`, each with the place of its newline in the stream;
  * `WholeAt` -- the text is that of the whole line the newline ends;
  * `Fits` -- the condition: lines shorter than the buffer, up to a command that closes the
    connection;
  * **`served_whole_iff`** -- every call is made with a whole line exactly under it;
  * **`tail_executed`** -- a command at the end of a line that is too long is executed.
-/
import NutBluetti.Nut.Client

namespace NutBluetti.Nut

/-! ## 1. The calls -/

/-- The text of a call of `handle_line`. -/
def ClientEvent.text? : ClientEvent → Option (List Char)
  | .line text => some text
  | .tooLong => none

section Served

variable {σ : Type*} (H : Handler σ)

/-- The calls of `handle_line` between two states of the task. -/
def newCalls (before after : ClientTask σ) : List (List Char) :=
  (after.events.drop before.events.length).filterMap ClientEvent.text?

/-- The calls of `handle_line` over the results of `recv`. In a round `strchr` goes from newline to
    newline, so that the calls are made at the first newlines of the chunk, in order; `base` is the
    place of the chunk in the stream. -/
def served (t : ClientTask σ) (base : Nat) : List (List Char) → List (Nat × List Char)
  | [] => []
  | chunk :: rest =>
      (LineStream.newlines '\n' base chunk).zip (newCalls t (t.recv H chunk)) ++
        served (t.recv H chunk) (base + chunk.length) rest

/-- The text is that of the whole line that the newline at this place of the stream ends, less one
    trailing CR. -/
def WholeAt (stream : List Char) (i : Nat) (text : List Char) : Prop :=
  text = stripCr (LineStream.lastLine '\n' (stream.take i))

/-- **The condition**: each line that is ended is shorter than the buffer, up to a command that
    closes the connection. -/
def Fits : σ → List (List Char) → Prop
  | _, [] => True
  | out, line :: rest =>
      line.length < clientRxBuf - 1 ∧
        ((H.handleLine out (stripCr line)).2 = false →
        Fits (H.handleLine out (stripCr line)).1 rest)

variable {H}

theorem fits_recording (lines : List (List Char)) (out : σ) (events : List ClientEvent) :
    LineStream.Fits (clientRxBuf - 1) (recording H) (out, events) lines ↔ Fits H out lines := by
  induction lines generalizing out events with
  | nil => exact Iff.rfl
  | cons line rest ih => exact and_congr_right fun _ => forall_congr' fun _ => ih _ _

/-- What the record gains with a character: the call at a newline, `ERR TOO-LONG` where the buffer
    is full, or nothing. -/
theorem events_step (r : LineStream.Rx Char (σ × List ClientEvent)) (c : Char) :
    ∃ more, (LineStream.step '\n' (clientRxBuf - 1) (recording H) r c).out.2 = r.out.2 ++ more ∧
      more.filterMap ClientEvent.text? =
        if r.stopped = false ∧ c = '\n' then [stripCr r.kept] else [] := by
  obtain ⟨out, kept, stopped⟩ := r
  cases stopped with
  | true => exact ⟨[], by simp [LineStream.step, LineStream.scanStep, LineStream.bound], rfl⟩
  | false =>
      by_cases hc : c = '\n'
      · subst hc
        rw [LineStream.step_newline (by decide), if_pos ⟨rfl, rfl⟩]
        exact ⟨[.line (stripCr kept)], rfl, rfl⟩
      · rw [if_neg fun h => hc h.2]
        have hscan : LineStream.scanStep '\n' (recording H) ⟨out, kept, false⟩ c =
            ⟨out, kept ++ [c], false⟩ := by
          simp [LineStream.scanStep, hc]
        rw [LineStream.step, hscan]
        unfold LineStream.bound
        by_cases hfull : (kept ++ [c]).length = clientRxBuf - 1
        · exact ⟨[.tooLong], by simp [hfull, recording], rfl⟩
        · exact ⟨[], by
            simp only [Bool.false_eq_true, if_false, if_neg hfull, List.append_nil], rfl⟩

/-- What the record gains while a text comes in: the calls, and `ERR TOO-LONG` between them. -/
theorem events_feed (s : List Char) (base : Nat) (r : LineStream.Rx Char (σ × List ClientEvent)) :
    ∃ more, (LineStream.feed '\n' (clientRxBuf - 1) (recording H) r s).out.2 = r.out.2 ++ more ∧
      more.filterMap ClientEvent.text? =
        (LineStream.calls '\n' (clientRxBuf - 1) (recording H) base r s).map
          fun p => stripCr p.2 := by
  induction s generalizing base r with
  | nil => exact ⟨[], (List.append_nil _).symm, rfl⟩
  | cons c s ih =>
      obtain ⟨first, hfirst, htext⟩ := events_step (H := H) r c
      obtain ⟨more, hmore, htexts⟩ := ih (base + 1)
        (LineStream.step '\n' (clientRxBuf - 1) (recording H) r c)
      refine ⟨first ++ more, ?_, ?_⟩
      · rw [LineStream.feed, List.foldl_cons, ← LineStream.feed, hmore, hfirst, List.append_assoc]
      · rw [List.filterMap_append, htext, htexts, LineStream.calls]
        split <;> rfl

/-- **The calls of the loop** are those of the stream, a character at a time, with the trailing CR
    dropped. -/
theorem served_eq {chunks : List (List Char)} : ∀ {t : ClientTask σ} {stream : List Char},
    Partial t → '\x00' ∉ stream → Delivers H t stream chunks → ∀ base, served H t base chunks =
      (LineStream.calls '\n' (clientRxBuf - 1) (recording H) base t.rx stream).map
        fun p => (p.1, stripCr p.2) := by
  induction chunks with
  | nil =>
      intro t stream _ _ hd base
      rcases hd with hclosed | rfl
      · rw [LineStream.calls_of_stopped hclosed]
        rfl
      · rfl
  | cons chunk rest ih =>
      intro t stream hp hnul hd base
      obtain ⟨hopen, -, hfit, left, rfl, hrest⟩ := hd
      have hnulc : '\x00' ∉ chunk := fun h => hnul (List.mem_append_left _ h)
      have hnull : '\x00' ∉ left := fun h => hnul (List.mem_append_right _ h)
      obtain ⟨hround, hp'⟩ := hp.recv (H := H) hopen hnulc hfit
      have hnew : newCalls t (t.recv H chunk) =
          (LineStream.calls '\n' (clientRxBuf - 1) (recording H) base t.rx chunk).map
            fun p => stripCr p.2 := by
        obtain ⟨more, hmore, htexts⟩ := events_feed (H := H) chunk base t.rx
        rw [← hround] at hmore
        have hevents : (t.recv H chunk).events = t.events ++ more := hmore
        rw [newCalls, hevents, List.drop_left, htexts]
      rw [served, hnew, LineStream.zip_newlines (fun line => stripCr line), ih hp' hnull hrest,
        LineStream.calls_append, List.map_append, hround]

/-- The record leaves no call out. -/
theorem served_texts {out : σ} {stream : List Char} (hnul : '\x00' ∉ stream)
    {chunks : List (List Char)} (h : Delivers H (ClientTask.start out) stream chunks) :
    (served H (ClientTask.start out) 0 chunks).map Prod.snd =
      (clientTask H (ClientTask.start out) chunks).events.filterMap ClientEvent.text? := by
  obtain ⟨more, hmore, htexts⟩ := events_feed (H := H) stream 0 (ClientTask.start out).rx
  rw [← rx_clientTask (partial_start out) hnul h] at hmore
  have hevents : (clientTask H (ClientTask.start out) chunks).events = more := hmore
  rw [served_eq (partial_start out) hnul h, hevents, htexts, List.map_map]
  rfl

/-- A CR less does not make up for what is missing of a line that was too long. -/
theorem stripCr_ne {kept line : List Char} (h : kept.length + (clientRxBuf - 1) ≤ line.length) :
    stripCr kept ≠ stripCr line := by
  have hle : ∀ l : List Char, (stripCr l).length ≤ l.length ∧
    l.length ≤ (stripCr l).length + 1 := by
    intro l
    unfold stripCr
    split
    · rw [List.length_dropLast]
      omega
    · omega
  intro heq
  have hlen := congrArg List.length heq
  have hkept := (hle kept).1
  have hline := (hle line).2
  have hbuf : clientRxBuf - 1 = 511 := rfl
  omega

end Served

/-- **`handle_line` is called only with whole lines of the stream**, each at its newline, exactly if
    the lines that are ended are shorter than the buffer, up to a command that closes the
    connection: for every stream without a NUL, every delivery of it and whatever `handle_line`
    does. -/
theorem served_whole_iff {σ : Type*} (H : Handler σ) (out : σ) {stream : List Char}
    (hnul : '\x00' ∉ stream) {chunks : List (List Char)}
    (h : Delivers H (ClientTask.start out) stream chunks) :
    (∀ p ∈ served H (ClientTask.start out) 0 chunks, WholeAt stream p.1 p.2) ↔
      Fits H out (LineStream.lines '\n' [] stream) := by
  rw [served_eq (partial_start out) hnul h, List.forall_mem_map,
    ← fits_recording (H := H) _ out []]
  exact LineStream.calls_whole_iff (by decide) (fun kept line => stripCr_ne) (out, []) stream

theorem served_whole_iff_demo :
    (∀ p ∈ served demoHandler demoStart 0 splitReads,
        WholeAt "NETVER\r\nLOGOUT\nVER".toList p.1 p.2) ↔
      Fits demoHandler (ClientCtx.zero, Sock.fresh)
        (LineStream.lines '\n' [] "NETVER\r\nLOGOUT\nVER".toList) :=
  served_whole_iff demoHandler _ (by decide) delivers_splitReads

/-! ## 2. A command behind 511 bytes -/

def longLine : List Char := List.replicate 511 'A' ++ "VER\n".toList

def longLineReads : List (List Char) := [List.replicate 511 'A', "VER\n".toList]

/-- **The tail of a line that is too long is executed**: the version is sent for a line of 514 bytes
    that is no command. -/
theorem tail_executed :
    '\x00' ∉ longLine ∧ Delivers demoHandler demoStart longLine longLineReads ∧
      (clientTask demoHandler demoStart longLineReads).events = [.tooLong, .line "VER".toList] ∧
      ¬ ∀ p ∈ served demoHandler demoStart 0 longLineReads, WholeAt longLine p.1 p.2 := by
  have hfirst : (demoStart.recv demoHandler (List.replicate 511 'A')).closed = false ∧
      (demoStart.recv demoHandler (List.replicate 511 'A')).buf.length + "VER\n".toList.length ≤
        clientRxBuf - 1 := by
    decide +kernel
  have hserved : served demoHandler demoStart 0 longLineReads = [(514, "VER".toList)] := by
    decide +kernel
  have hpart : "VER".toList ≠ stripCr (LineStream.lastLine '\n' (longLine.take 514)) := by
    decide +kernel
  refine ⟨by decide +kernel, ?_, by decide +kernel, fun hall => hpart ?_⟩
  · have hfit : demoStart.buf.length + (List.replicate 511 'A').length ≤ clientRxBuf - 1 := by
      rw [List.length_replicate]
      exact Nat.le_refl 511
    have hnext : "VER\n".toList ≠ [] := by decide
    exact ⟨rfl, List.cons_ne_nil _ _, hfit, "VER\n".toList, rfl, hfirst.1, hnext, hfirst.2, [],
      rfl, .inr rfl⟩
  · rw [hserved] at hall
    exact hall _ List.mem_cons_self

end NutBluetti.Nut
