/-
  File:      NutBluetti/Lib/Reassembly.lean
  Subject:   FRAMES FROM A BYTE STREAM. A receiver buffers what arrives and takes whole frames off
             the front of the buffer; the sender's frames come cut at any places.

  A receiver says how long the frame at the head of the buffer is, and what it does with it. Nothing
  here knows what the bytes or the states are.

  * `Receiver`, `drain`, `feed` -- the loop, and one chunk of the stream;
  * `taken` -- the frames a loop takes, each with the state it met;
  * **`drain_inv`**, **`drain_later`**, **`drain_out`**, **`drain_sim`** -- the loop's invariant
    rule, what its end is later than, what it puts out, and its simulation rule;
  * `Delimited` -- a frame whose end the receiver finds whatever follows, and not before it is all
    there;
  * **`feedAll_frames`** -- a stream of such frames, cut anywhere, is taken frame by frame, in
    order, and leaves the buffer empty.
-/
import Mathlib.Data.List.Basic

namespace Reassembly

variable {σ τ β : Type*}

/-- `cut s buf` is the length of the frame at the head of the buffer, `none` where more is needed;
    `handle s f` takes the frame `f`, `none` where the receiver gives its buffer up. -/
structure Receiver (σ β : Type*) where
  cut : σ → List β → Option Nat
  handle : σ → List β → Option σ

variable (R : Receiver σ β)

/-! ## 1. The loop -/

/-- The state and the buffer after at most so many frames. -/
def drain : Nat → σ → List β → σ × List β
  | 0, s, buf => (s, buf)
  | fuel + 1, s, buf =>
      match R.cut s buf with
      | none => (s, buf)
      | some k =>
          match R.handle s (buf.take k) with
          | none => (s, [])
          | some s' => drain fuel s' (buf.drop k)

/-- The frames of the same loop, each with the state that met it. -/
def taken : Nat → σ → List β → List (σ × List β)
  | 0, _, _ => []
  | fuel + 1, s, buf =>
      match R.cut s buf with
      | none => []
      | some k =>
          (s, buf.take k) ::
            match R.handle s (buf.take k) with
            | none => []
            | some s' => taken fuel s' (buf.drop k)

/-- One chunk. -/
def feed (p : σ × List β) (data : List β) : σ × List β :=
  drain R (p.2 ++ data).length p.1 (p.2 ++ data)

/-- A stream of chunks. -/
def feedAll (p : σ × List β) (chunks : List (List β)) : σ × List β :=
  chunks.foldl (feed R) p

/-- The frames taken from a stream of chunks. -/
def takenAll : σ × List β → List (List β) → List (List β)
  | _, [] => []
  | p, c :: cs =>
      (taken R (p.2 ++ c).length p.1 (p.2 ++ c)).map Prod.snd ++ takenAll (feed R p c) cs

variable {R}

theorem drain_wait {s : σ} {buf : List β} (h : R.cut s buf = none) (fuel : Nat) :
    drain R fuel s buf = (s, buf) := by
  cases fuel with
  | zero => rfl
  | succ fuel => simp only [drain, h]

theorem drain_take {s s' : σ} {buf : List β} {k : Nat} (h : R.cut s buf = some k)
    (hs : R.handle s (buf.take k) = some s') (fuel : Nat) :
    drain R (fuel + 1) s buf = drain R fuel s' (buf.drop k) := by
  simp only [drain, h, hs]

theorem taken_wait {s : σ} {buf : List β} (h : R.cut s buf = none) (fuel : Nat) :
    taken R fuel s buf = [] := by
  cases fuel with
  | zero => rfl
  | succ fuel => simp only [taken, h]

theorem taken_take {s s' : σ} {buf : List β} {k : Nat} (h : R.cut s buf = some k)
    (hs : R.handle s (buf.take k) = some s') (fuel : Nat) :
    taken R (fuel + 1) s buf = (s, buf.take k) :: taken R fuel s' (buf.drop k) := by
  simp only [taken, h, hs]

/-! ## 2. The rules -/

/-- **The invariant rule**: what the handling of a taken frame keeps, the loop keeps, and every
    taken frame meets it. -/
theorem drain_inv (I : σ → Prop) (fuel : Nat) {s : σ} (buf : List β) (h0 : I s)
    (hstep : ∀ p ∈ taken R fuel s buf, I p.1 → ∀ s', R.handle p.1 p.2 = some s' → I s') :
    I (drain R fuel s buf).1 ∧ ∀ p ∈ taken R fuel s buf, I p.1 := by
  induction fuel generalizing s buf with
  | zero => exact ⟨h0, fun p hp => by cases hp⟩
  | succ fuel ih =>
      cases hcut : R.cut s buf with
      | none =>
          rw [drain_wait hcut, taken_wait hcut]
          exact ⟨h0, fun p hp => by cases hp⟩
      | some k =>
          cases hs : R.handle s (buf.take k) with
          | none =>
              simp only [drain, taken, hcut, hs]
              refine ⟨h0, fun p hp => ?_⟩
              rw [List.mem_singleton.mp hp]
              exact h0
          | some s' =>
              rw [taken_take hcut hs] at hstep
              rw [drain_take hcut hs, taken_take hcut hs]
              have h1 : I s' := hstep _ List.mem_cons_self h0 s' hs
              obtain ⟨hd, ht⟩ := ih _ h1 fun p hp => hstep p (List.mem_cons_of_mem _ hp)
              refine ⟨hd, fun p hp => ?_⟩
              rcases List.mem_cons.mp hp with rfl | hp
              · exact h0
              · exact ht p hp

/-- **What comes later**: where every handling leads to a later state, the end of the loop is later
    than the start, and than what any taken frame was handled to. -/
theorem drain_later (Later : σ → σ → Prop) (hrefl : ∀ s, Later s s)
    (htrans : ∀ s t u, Later s t → Later t u → Later s u)
    (hstep : ∀ s f s', R.handle s f = some s' → Later s s') (fuel : Nat) (s : σ) (buf : List β) :
    Later s (drain R fuel s buf).1 ∧ ∀ p ∈ taken R fuel s buf, ∀ s', R.handle p.1 p.2 = some s' →
      Later s' (drain R fuel s buf).1 := by
  induction fuel generalizing s buf with
  | zero => exact ⟨hrefl s, fun p hp => by cases hp⟩
  | succ fuel ih =>
      cases hcut : R.cut s buf with
      | none =>
          rw [drain_wait hcut, taken_wait hcut]
          exact ⟨hrefl s, fun p hp => by cases hp⟩
      | some k =>
          cases hs : R.handle s (buf.take k) with
          | none =>
              simp only [drain, taken, hcut, hs]
              refine ⟨hrefl s, fun p hp s' hs' => ?_⟩
              rw [List.mem_singleton.mp hp, hs] at hs'
              cases hs'
          | some s₁ =>
              obtain ⟨hd, ht⟩ := ih s₁ (buf.drop k)
              rw [drain_take hcut hs, taken_take hcut hs]
              refine ⟨htrans _ _ _ (hstep _ _ _ hs) hd, fun p hp s' hs' => ?_⟩
              rcases List.mem_cons.mp hp with rfl | hp
              · rw [hs] at hs'
                exact Option.some.inj hs' ▸ hd
              · exact ht p hp s' hs'

/-- **What a loop puts out**: what the taken frames put out, one after the other. -/
theorem drain_out {ε : Type*} (out : σ → List ε) {δ : σ × List β → List ε}
    (hsome : ∀ s f s', R.handle s f = some s' → out s' = out s ++ δ (s, f))
    (hnone : ∀ s f, R.handle s f = none → δ (s, f) = []) (fuel : Nat) (s : σ) (buf : List β) :
    out (drain R fuel s buf).1 = out s ++ (taken R fuel s buf).flatMap δ := by
  induction fuel generalizing s buf with
  | zero => simp [drain, taken]
  | succ fuel ih =>
      cases hcut : R.cut s buf with
      | none =>
          rw [drain_wait hcut, taken_wait hcut]
          simp
      | some k =>
          cases hs : R.handle s (buf.take k) with
          | none => simp [drain, taken, hcut, hs, hnone s _ hs]
          | some s' =>
              rw [drain_take hcut hs, taken_take hcut hs, ih, hsome s _ s' hs, List.flatMap_cons,
                List.append_assoc]

/-- **The simulation rule**: two receivers that cut alike and handle alike the frames the first one
    takes stay related, with the same buffer. -/
theorem drain_sim {Q : Receiver τ β} (Rel : σ → τ → Prop)
    (hcut : ∀ s t buf, Rel s t → R.cut s buf = Q.cut t buf) (fuel : Nat) {s : σ} {t : τ}
    (buf : List β) (h0 : Rel s t)
    (hstep : ∀ p ∈ taken R fuel s buf, ∀ t, Rel p.1 t →
      Option.Rel Rel (R.handle p.1 p.2) (Q.handle t p.2)) :
    Rel (drain R fuel s buf).1 (drain Q fuel t buf).1 ∧
      (drain R fuel s buf).2 = (drain Q fuel t buf).2 := by
  induction fuel generalizing s t buf with
  | zero => exact ⟨h0, rfl⟩
  | succ fuel ih =>
      have hc' := hcut s t buf h0
      cases hc : R.cut s buf with
      | none =>
          rw [drain_wait hc, drain_wait (hc' ▸ hc)]
          exact ⟨h0, rfl⟩
      | some k =>
          rw [hc] at hc'
          have hmem : (s, buf.take k) ∈ taken R (fuel + 1) s buf := by
            simp only [taken, hc]
            exact List.mem_cons_self
          have hr := hstep _ hmem t h0
          cases hs : R.handle s (buf.take k) with
          | none =>
              rw [hs] at hr
              cases hq : Q.handle t (buf.take k) with
              | none =>
                  simp only [drain, hc, ← hc', hs, hq, and_true]
                  exact h0
              | some t' =>
                  rw [hq] at hr
                  cases hr
          | some s' =>
              rw [hs] at hr
              cases hq : Q.handle t (buf.take k) with
              | none =>
                  rw [hq] at hr
                  cases hr
              | some t' =>
                  rw [hq] at hr
                  cases hr with
                  | some h1 =>
                      rw [drain_take hc hs, drain_take hc'.symm hq]
                      refine ih _ h1 fun p hp => hstep p ?_
                      rw [taken_take hc hs]
                      exact List.mem_cons_of_mem _ hp

/-! ## 3. Streams of frames -/

/-- In states `I`, the receiver finds the end of `f` whatever follows, waits while `f` is not all
    there, and handles it with the effect `g`. -/
structure Delimited (R : Receiver σ β) (I : σ → Prop) (g : σ → List β → σ) (f : List β) : Prop where
  ne_nil : f ≠ []
  whole : ∀ s, I s → ∀ rest, R.cut s (f ++ rest) = some f.length
  part : ∀ s, I s → ∀ p, p <+: f → p ≠ f → R.cut s p = none
  handled : ∀ s, I s → R.handle s f = some (g s f)
  keeps : ∀ s, I s → I (g s f)

/-- What is buffered is less than the next frame. -/
def Waiting (buf : List β) (frames : List (List β)) : Prop :=
  buf = [] ∨ ∃ f fs, frames = f :: fs ∧ buf <+: f ∧ buf ≠ f

variable {I : σ → Prop} {g : σ → List β → σ}

/-- The loop over the beginning of a stream: some frames are done, and the rest of the buffer waits.
    The induction is on the frames of the stream. -/
theorem drain_stream (hnil : ∀ s, I s → R.cut s [] = none) {frames : List (List β)}
    (hf : ∀ f ∈ frames, Delimited R I g f) {s : σ} (hs : I s) {buf rest : List β}
    (hb : buf ++ rest = frames.flatten) {fuel : Nat} (hfuel : buf.length ≤ fuel) :
    ∃ done todo tail, frames = done ++ todo ∧ tail ++ rest = todo.flatten ∧ Waiting tail todo ∧
      drain R fuel s buf = (done.foldl g s, tail) ∧
      (taken R fuel s buf).map Prod.snd = done ∧ I (done.foldl g s) := by
  induction frames generalizing s buf fuel with
  | nil =>
      obtain ⟨rfl, rfl⟩ : buf = [] ∧ rest = [] := by simpa using hb
      have hw := hnil s hs
      exact ⟨[], [], [], rfl, rfl, .inl rfl, drain_wait hw fuel, by rw [taken_wait hw]; rfl, hs⟩
  | cons f frames ih =>
      obtain ⟨hf0, hfs⟩ := List.forall_mem_cons.mp hf
      rw [List.flatten_cons] at hb
      by_cases hlt : buf.length < f.length
      · -- the first frame is not all there
        have hpre : buf <+: f :=
          List.prefix_of_prefix_length_le ⟨rest, hb⟩ (List.prefix_append f _) (by omega)
        have hne : buf ≠ f := fun h => by
          rw [h] at hlt
          exact Nat.lt_irrefl _ hlt
        have hw := hf0.part s hs buf hpre hne
        exact ⟨[], f :: frames, buf, rfl, hb, .inr ⟨f, frames, rfl, hpre, hne⟩, drain_wait hw fuel,
          by rw [taken_wait hw]; rfl, hs⟩
      · have hpre : f <+: buf :=
          List.prefix_of_prefix_length_le (List.prefix_append f _) ⟨rest, hb⟩ (by omega)
        obtain ⟨buf', rfl⟩ := hpre
        have hpos : 0 < f.length := List.length_pos_iff.mpr hf0.ne_nil
        rw [List.length_append] at hfuel
        obtain ⟨fuel, rfl⟩ : ∃ n, fuel = n + 1 := ⟨fuel - 1, by omega⟩
        have hcut := hf0.whole s hs buf'
        have htake : (f ++ buf').take f.length = f := List.take_left
        have hdrop : (f ++ buf').drop f.length = buf' := List.drop_left
        have hh : R.handle s ((f ++ buf').take f.length) = some (g s f) := by
          rw [htake]
          exact hf0.handled s hs
        have hb' : buf' ++ rest = frames.flatten := by
          rw [List.append_assoc] at hb
          exact List.append_cancel_left hb
        obtain ⟨done, todo, tail, h1, h2, h3, h4, h5, h6⟩ :=
          ih hfs (hf0.keeps s hs) hb' (show buf'.length ≤ fuel by omega)
        refine ⟨f :: done, todo, tail, by rw [h1]; rfl, h2, h3, ?_, ?_, h6⟩
        · rw [drain_take hcut hh, hdrop, h4]
          rfl
        · rw [taken_take hcut hh, List.map_cons, hdrop, h5, htake]

theorem nil_of_waiting {frames : List (List β)} (hf : ∀ f ∈ frames, f ≠ []) {buf : List β}
    (hw : Waiting buf frames) (hb : buf = frames.flatten) : buf = [] ∧ frames = [] := by
  have hbuf : buf = [] := by
    rcases hw with h | ⟨f, fs, rfl, hpre, hne⟩
    · exact h
    · have hle : f.length ≤ buf.length := by
        rw [hb, List.flatten_cons, List.length_append]
        omega
      exact absurd (hpre.eq_of_length_le hle) hne
  refine ⟨hbuf, ?_⟩
  cases frames with
  | nil => rfl
  | cons f fs =>
      rw [hbuf, List.flatten_cons] at hb
      exact absurd (List.append_eq_nil_iff.mp hb.symm).1 (hf f List.mem_cons_self)

/-- A stream, from a buffer that waits. The induction is on the chunks. -/
theorem feedAll_waiting (hnil : ∀ s, I s → R.cut s [] = none) {frames : List (List β)}
    (hf : ∀ f ∈ frames, Delimited R I g f) {s : σ} (hs : I s) {buf : List β}
    (hw : Waiting buf frames) {chunks : List (List β)}
    (hb : buf ++ chunks.flatten = frames.flatten) :
    feedAll R (s, buf) chunks = (frames.foldl g s, []) ∧ takenAll R (s, buf) chunks = frames := by
  induction chunks generalizing s buf frames with
  | nil =>
      rw [List.flatten_nil, List.append_nil] at hb
      obtain ⟨rfl, rfl⟩ := nil_of_waiting (fun f h => (hf f h).ne_nil) hw hb
      exact ⟨rfl, rfl⟩
  | cons c cs ih =>
      rw [List.flatten_cons, ← List.append_assoc] at hb
      obtain ⟨done, todo, tail, rfl, h2, h3, h4, h5, h6⟩ :=
        drain_stream hnil hf hs hb (Nat.le_refl _)
      have hfeed : feed R (s, buf) c = (done.foldl g s, tail) := h4
      obtain ⟨h7, h8⟩ := ih (fun f h => hf f (List.mem_append_right done h)) h6 h3 h2
      constructor
      · rw [feedAll, List.foldl_cons, hfeed, ← feedAll, h7, List.foldl_append]
      · rw [takenAll, hfeed, h8]
        exact congrArg (· ++ todo) h5

/-- **A stream of delimited frames, cut anywhere**: every frame is taken, in order and once, and the
    buffer ends empty. -/
theorem feedAll_frames {frames : List (List β)} (hf : ∀ f ∈ frames, Delimited R I g f) {s : σ}
    (hs : I s) {chunks : List (List β)} (hnil : ∀ s, I s → R.cut s [] = none)
    (hb : chunks.flatten = frames.flatten) :
    feedAll R (s, []) chunks = (frames.foldl g s, []) ∧ takenAll R (s, []) chunks = frames :=
  feedAll_waiting hnil hf hs (.inl rfl) hb

end Reassembly
