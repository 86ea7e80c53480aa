/-
  File:      NutBluetti/Nut/Client.lean
  Subject:   THE RECEIVE LOOP OF A NUT CLIENT (`client_task`, nut_server.c): what `recv` delivers,
             cut into lines in a buffer of fixed size.

  `handle_line` is a parameter here, with everything it reads and writes as one state: the loop does
  not depend on what a command does, only on whether it closes the connection. `nutHandler` is the
  server's own.

  * `clientTask` -- the loop, over the results of successive `recv` calls;
  * `recv_eq_readBlock` -- without a NUL in the stream, one round of it is a block of `LineStream`;
  * `Delivers` -- the ways `recv` may cut a stream up;
  * **`chunking_invisible`** -- any two of them give the same lines, the same `ERR TOO-LONG` and the
    same end.
-/
import Mathlib.Data.List.TakeWhile
import NutBluetti.Lib.LineStream
import NutBluetti.Nut.Commands

namespace NutBluetti.Nut

/-! ## 1. The loop -/

def clientRxBuf : Nat := 512

/-- `handle_line` as the loop sees it, and the notice for a line that is too long. -/
structure Handler (σ : Type*) where
  /-- What it leaves, and whether it returned less than zero. -/
  handleLine : σ → List Char → σ × Bool
  sendTooLong : σ → σ

/-- What a client's task did with its lines, in order. -/
inductive ClientEvent where
  /-- A call of `handle_line`, with the text of the line. -/
  | line (text : List Char)
  /-- `ERR TOO-LONG`. -/
  | tooLong
  deriving DecidableEq, Repr

structure ClientTask (σ : Type*) where
  out : σ
  events : List ClientEvent
  /-- `buf[0 .. fill)`. -/
  buf : List Char
  /-- `handle_line` closed the connection, or `recv` ended it. -/
  closed : Bool

def ClientTask.start {σ : Type*} (out : σ) : ClientTask σ := ⟨out, [], [], false⟩

/-- One trailing CR of a line is dropped. -/
def stripCr (line : List Char) : List Char :=
  if line.getLast? = some '\r' then line.dropLast else line

/-- What a `char` buffer with a NUL behind it holds as a string. -/
def cstring (buf : List Char) : List Char := buf.takeWhile (· ≠ '\x00')

section Loop

variable {σ : Type*} (H : Handler σ)

/-- The inner loop: `strchr` walks from `start`, with `line` behind it, to the next newline. What it
    has passed when there is none is the partial line to keep. -/
def serveLines (out : σ) (events : List ClientEvent) (line : List Char) :
    List Char → ClientTask σ
  | [] => ⟨out, events, line, false⟩
  | c :: rest =>
      if c = '\n' then
        let text := stripCr line
        let (out, closes) := H.handleLine out text
        if closes then ⟨out, events ++ [.line text], [], true⟩
        else serveLines out (events ++ [.line text]) [] rest
      else serveLines out events (line ++ [c]) rest

/-- One round: the bytes `recv` appended, the lines in the buffer, and the partial line moved to its
    front, or dropped where it fills the buffer. -/
def ClientTask.recv (t : ClientTask σ) (chunk : List Char) : ClientTask σ :=
  let t := serveLines H t.out t.events [] (cstring (t.buf ++ chunk))
  if t.closed then t
  else if t.buf.length = clientRxBuf - 1 then
    { t with out := H.sendTooLong t.out, events := t.events ++ [.tooLong], buf := [] }
  else t

/-- **`client_task`**, over the results of its `recv` calls; one without a byte ends it. -/
def clientTask (t : ClientTask σ) : List (List Char) → ClientTask σ
  | [] => t
  | chunk :: rest =>
      if t.closed then t
      else if chunk = [] then { t with closed := true }
      else clientTask (t.recv H chunk) rest

/-- What `recv` may deliver of a stream: a part of what is left at every call, not empty, that fits
    the free space of the buffer; no call after the end of the task. -/
def Delivers (t : ClientTask σ) (stream : List Char) : List (List Char) → Prop
  | [] => t.closed = true ∨ stream = []
  | chunk :: rest =>
      t.closed = false ∧ chunk ≠ [] ∧ t.buf.length + chunk.length ≤ clientRxBuf - 1 ∧
        ∃ left, stream = chunk ++ left ∧ Delivers (t.recv H chunk) left rest

end Loop

/-- The server's own `handle_line`: the client's context, its socket and the server's state. -/
def nutHandler (s : NutServer) : Handler (ClientCtx × Sock) where
  handleLine := fun (c, k) line =>
    let (c, k, rc) := handleLine s c line k
    ((c, k), decide (rc < 0))
  sendTooLong := fun (c, k) => (c, (sendStr k "ERR TOO-LONG\n".toList).1)

/-! ## 2. The loop is a line stream -/

section Stream

variable {σ : Type*} (H : Handler σ)

/-- The handler with the record of what it was told. -/
def recording : LineStream.Server Char (σ × List ClientEvent) where
  line := fun (out, events) line =>
    (((H.handleLine out (stripCr line)).1, events ++ [.line (stripCr line)]),
      (H.handleLine out (stripCr line)).2)
  overlong := fun (out, events) => (H.sendTooLong out, events ++ [.tooLong])

/-- The task as a receiver of lines. -/
def ClientTask.rx (t : ClientTask σ) : LineStream.Rx Char (σ × List ClientEvent) :=
  ⟨(t.out, t.events), t.buf, t.closed⟩

theorem rx_injective {t u : ClientTask σ} (h : t.rx = u.rx) : t = u := by
  cases t
  cases u
  simp only [ClientTask.rx, LineStream.Rx.mk.injEq, Prod.mk.injEq] at h
  obtain ⟨⟨rfl, rfl⟩, rfl, rfl⟩ := h
  rfl

variable {H}

theorem rx_serveLines (s : List Char) : ∀ (out : σ) (events : List ClientEvent) (line : List Char),
    (serveLines H out events line s).rx =
      LineStream.scan '\n' (recording H) ⟨(out, events), line, false⟩ s := by
  induction s with
  | nil => intro out events line; rfl
  | cons c s ih =>
      intro out events line
      rw [serveLines, LineStream.scan, List.foldl_cons, ← LineStream.scan]
      by_cases hc : c = '\n'
      · cases hclose : (H.handleLine out (stripCr line)).2 with
        | true =>
            have hstop : LineStream.scanStep '\n' (recording H) ⟨(out, events), line, false⟩ c =
                ⟨((H.handleLine out (stripCr line)).1, events ++ [.line (stripCr line)]), [],
                  true⟩ := by
              simp [LineStream.scanStep, recording, hc, hclose]
            rw [hstop, LineStream.scan_of_stopped rfl]
            simp [hc, hclose, ClientTask.rx]
        | false =>
            have hgo : LineStream.scanStep '\n' (recording H) ⟨(out, events), line, false⟩ c =
                ⟨((H.handleLine out (stripCr line)).1, events ++ [.line (stripCr line)]), [],
                  false⟩ := by
              simp [LineStream.scanStep, recording, hc, hclose]
            rw [hgo, ← ih]
            simp [hc, hclose]
      · have hgo : LineStream.scanStep '\n' (recording H) ⟨(out, events), line, false⟩ c =
            ⟨(out, events), line ++ [c], false⟩ := by
          simp [LineStream.scanStep, hc]
        rw [if_neg hc, hgo]
        exact ih out events (line ++ [c])

theorem cstring_of_no_nul {s : List Char} (h : '\x00' ∉ s) : cstring s = s := by
  refine List.takeWhile_eq_self_iff.mpr fun c hc => ?_
  have hne : c ≠ '\x00' := fun he => h (he ▸ hc)
  simpa using hne

/-- An unfinished line walked over again brings the walk to where it was. -/
theorem scan_kept {line : List Char} (h : '\n' ∉ line) (out : σ × List ClientEvent) :
    ∀ before : List Char, LineStream.scan '\n' (recording H) ⟨out, before, false⟩ line =
      ⟨out, before ++ line, false⟩ := by
  induction line with
  | nil => intro before; simp [LineStream.scan]
  | cons c line ih =>
      intro before
      have hc : ¬ c = '\n' := fun he => h (he ▸ List.mem_cons_self)
      rw [LineStream.scan, List.foldl_cons, ← LineStream.scan]
      have hgo : LineStream.scanStep '\n' (recording H) ⟨out, before, false⟩ c =
          ⟨out, before ++ [c], false⟩ := by
        simp [LineStream.scanStep, hc]
      rw [hgo, ih fun hm => h (List.mem_cons_of_mem c hm)]
      simp

/-- **One round of the loop is one block**, where neither the kept line nor the block has a NUL. -/
theorem recv_eq_readBlock {t : ClientTask σ} {chunk : List Char} (hopen : t.closed = false)
    (hbuf : '\n' ∉ t.buf) (hnul : '\x00' ∉ t.buf ++ chunk) :
    (t.recv H chunk).rx =
      LineStream.readBlock '\n' (clientRxBuf - 1) (recording H) t.rx chunk := by
  have hserve : (serveLines H t.out t.events [] (cstring (t.buf ++ chunk))).rx =
      LineStream.scan '\n' (recording H) t.rx chunk := by
    rw [rx_serveLines, cstring_of_no_nul hnul, LineStream.scan_append, scan_kept hbuf,
      List.nil_append, ClientTask.rx, hopen]
  unfold ClientTask.recv LineStream.readBlock
  rw [← hserve]
  generalize serveLines H t.out t.events [] (cstring (t.buf ++ chunk)) = u
  unfold LineStream.bound
  cases hc : u.closed with
  | true => simp [ClientTask.rx, hc]
  | false =>
      by_cases hl : u.buf.length = clientRxBuf - 1
      · simp [ClientTask.rx, recording, hc, hl]
      · simp [ClientTask.rx, hc, hl]

/-! ## 3. Any two deliveries -/

/-- What the loop keeps: a partial line, without newline or NUL, shorter than the buffer. -/
structure Partial (t : ClientTask σ) : Prop where
  noNewline : '\n' ∉ t.buf
  noNul : '\x00' ∉ t.buf
  room : t.buf.length < clientRxBuf - 1

theorem partial_start (out : σ) : Partial (ClientTask.start out) :=
  ⟨List.not_mem_nil, List.not_mem_nil, Nat.succ_pos 510⟩

/-- **A round is its chunk, a character at a time**, and leaves a partial line again. -/
theorem Partial.recv {t : ClientTask σ} {chunk : List Char} (hp : Partial t)
    (hopen : t.closed = false)
    (hnul : '\x00' ∉ chunk) (hfit : t.buf.length + chunk.length ≤ clientRxBuf - 1) :
    (t.recv H chunk).rx = LineStream.feed '\n' (clientRxBuf - 1) (recording H) t.rx chunk ∧
      Partial (t.recv H chunk) := by
  have hnulb : '\x00' ∉ t.buf ++ chunk := by
    rw [List.mem_append]
    rintro (h | h)
    · exact hp.noNul h
    · exact hnul h
  have hblock : (t.recv H chunk).rx =
      LineStream.readBlock '\n' (clientRxBuf - 1) (recording H) t.rx chunk :=
    recv_eq_readBlock hopen hp.noNewline hnulb
  have hfeed : LineStream.readBlock '\n' (clientRxBuf - 1) (recording H) t.rx chunk =
      LineStream.feed '\n' (clientRxBuf - 1) (recording H) t.rx chunk :=
    LineStream.readBlock_eq_feed (.inr ⟨hp.room, hfit⟩)
  have hkept : ∀ c ∈ (t.recv H chunk).buf, c ∈ t.buf ∨ c ∈ chunk ∧ c ≠ '\n' := by
    intro c hc
    have hc' : c ∈ (t.recv H chunk).rx.kept := hc
    rw [hblock] at hc'
    exact LineStream.mem_kept_readBlock hc'
  refine ⟨hblock.trans hfeed, fun hc => ?_, fun hc => ?_, ?_⟩
  · rcases hkept _ hc with h | h
    · exact hp.noNewline h
    · exact h.2 rfl
  · rcases hkept _ hc with h | h
    · exact hp.noNul h
    · exact hnul h.1
  · show (t.recv H chunk).rx.kept.length < _
    rw [hblock, hfeed]
    exact LineStream.length_kept_feed (by decide) hp.room chunk

/-- **A whole delivery is the stream, a character at a time.** -/
theorem rx_clientTask {chunks : List (List Char)} :
    ∀ {t : ClientTask σ} {stream : List Char}, Partial t → '\x00' ∉ stream →
      Delivers H t stream chunks → (clientTask H t chunks).rx =
        LineStream.feed '\n' (clientRxBuf - 1) (recording H) t.rx stream := by
  induction chunks with
  | nil =>
      intro t stream hp _ hd
      rcases hd with hclosed | rfl
      · exact (LineStream.feed_of_stopped hclosed stream).symm
      · rfl
  | cons chunk rest ih =>
      intro t stream hp hnul hd
      obtain ⟨hopen, hne, hfit, left, rfl, hrest⟩ := hd
      have hnulc : '\x00' ∉ chunk := fun h => hnul (List.mem_append_left _ h)
      have hnull : '\x00' ∉ left := fun h => hnul (List.mem_append_right _ h)
      obtain ⟨hround, hp'⟩ := hp.recv (H := H) hopen hnulc hfit
      have hstep : clientTask H t (chunk :: rest) = clientTask H (t.recv H chunk) rest := by
        rw [clientTask, if_neg (by simp [hopen]), if_neg hne]
      rw [hstep, ih hp' hnull hrest, hround, LineStream.feed_append]

end Stream

/-- **Chunking is invisible**: for a stream without a NUL, whatever `handle_line` does, any two ways
    `recv` may deliver it leave the task alike: the same calls of `handle_line` with the same texts,
    `ERR TOO-LONG` at the same points between them, closed at the same command or with the same
    partial line kept. -/
theorem chunking_invisible {σ : Type*} (H : Handler σ) (out : σ) {stream : List Char}
    (hnul : '\x00' ∉ stream) {chunks chunks' : List (List Char)}
    (h : Delivers H (ClientTask.start out) stream chunks)
    (h' : Delivers H (ClientTask.start out) stream chunks') :
    clientTask H (ClientTask.start out) chunks = clientTask H (ClientTask.start out) chunks' := by
  refine rx_injective ?_
  rw [rx_clientTask (partial_start out) hnul h, rx_clientTask (partial_start out) hnul h']

/-! Two commands, the first with its CR and LF in different reads. -/

def demoServer : NutServer := ⟨"bluetti", "AC200M", "esp32-nut-bluetti 1.0", [none], none⟩

def demoHandler : Handler (ClientCtx × Sock) := nutHandler demoServer

def demoStart : ClientTask (ClientCtx × Sock) := ClientTask.start (ClientCtx.zero, Sock.fresh)

def wholeRead : List (List Char) := ["NETVER\r\nLOGOUT\nVER".toList]

def splitReads : List (List Char) :=
  ["NET".toList, "VER\r".toList, "\nLOGO".toList, "UT\nVE".toList]

theorem delivers_wholeRead :
    Delivers demoHandler demoStart "NETVER\r\nLOGOUT\nVER".toList wholeRead := by
  refine ⟨rfl, by decide, by decide, [], by decide, .inr rfl⟩

theorem delivers_splitReads :
    Delivers demoHandler demoStart "NETVER\r\nLOGOUT\nVER".toList splitReads := by
  refine ⟨rfl, by decide, by decide, "VER\r\nLOGOUT\nVER".toList, by decide, ?_⟩
  refine ⟨by decide, by decide, by decide, "\nLOGOUT\nVER".toList, by decide, ?_⟩
  refine ⟨by decide, by decide, by decide, "UT\nVER".toList, by decide, ?_⟩
  refine ⟨by decide, by decide, by decide, "R".toList, by decide, .inl ?_⟩
  decide

theorem chunking_invisible_demo :
    clientTask demoHandler demoStart wholeRead = clientTask demoHandler demoStart splitReads ∧
      (clientTask demoHandler demoStart splitReads).events =
        [.line "NETVER".toList, .line "LOGOUT".toList] := by
  refine ⟨chunking_invisible demoHandler _ (by decide) delivers_wholeRead delivers_splitReads, ?_⟩
  decide

end NutBluetti.Nut
