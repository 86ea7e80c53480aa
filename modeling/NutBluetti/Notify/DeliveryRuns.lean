/-
  File:      NutBluetti/Notify/DeliveryRuns.lean
  Subject:   WHOLE RUNS OF THE DELIVERY: when a message is given up, what arrives, and that the
             queue drains.

  * **`given_up_late`** -- a message is given up after fifteen failed posts, the last at least
    3199.986 seconds after the first; so an outage that is shorter loses no message;
  * **`delivered_text`** -- what arrives is the message, and how late it is if that is more than 90
    s, by a configuration of the run;
  * **`drains`** -- while posts succeed and every configuration can post, every step of the worker
    brings the queue nearer to empty, and what leaves it is delivered.
-/
import NutBluetti.Notify.Delivery

namespace NutBluetti.Notify

open CText RetryQueue History

/-! ## 1. When a message is given up -/

/-- The posts at the message so far that failed and are counted. -/
def Worker.attempt : Worker → Nat
  | .receiving => 0
  | .held _ attempt => attempt
  | .posting _ attempt _ _ _ => attempt
  | .waiting _ attempt _ => attempt

/-- The worker does not post before that time. -/
def Worker.notBefore (w : Worker) (nowUs : Int) : Int :=
  match w with
  | .waiting _ _ untilUs => untilUs - (tickUs - 1)
  | _ => nowUs

/-- Between a post that failed and the end of the next, by the number of those before. -/
def gapUs (k : Nat) : Int := backoffMs (k + 1) * 1000 - (tickUs - 1)

/-- What is known where a message is given up. -/
def GivenUpLate (pre : List Entry) (e : Entry) : Prop :=
  ∀ m, e = .done m .gaveUp → (missesOf pre).length = sendAttempts ∧ Spaced gapUs (missesOf pre)

/-- The worker has tried as often as it counts, with the pauses of `backoff_ms` between. -/
structure Retrying (d : Delivery) : Prop where
  count : ∀ m, d.worker.msg = some m → (missesOf d.log).length = d.worker.attempt
  few : d.worker.attempt < sendAttempts
  spaced : Spaced gapUs (missesOf d.log)
  rested : ∀ m, d.worker.msg = some m → ∀ t, (missesOf d.log).getLast? = some t →
    t + gapUs (d.worker.attempt - 1) ≤ d.worker.notBefore d.nowUs
  each : EachMoment GivenUpLate d.log

/-- A worker at the queue has nothing to count. -/
theorem retrying_receiving {d : Delivery} (hw : d.worker = .receiving)
    (hspaced : Spaced gapUs (missesOf d.log)) (heach : EachMoment GivenUpLate d.log) :
    Retrying d where
  count m hm := by
    rw [hw] at hm
    cases hm
  few := by
    rw [hw]
    decide
  spaced := hspaced
  rested m hm := by
    rw [hw] at hm
    cases hm
  each := heach

/-- The post that fails is one more miss, far enough behind the last. -/
theorem spaced_miss {d : Delivery} {m : MsgT} {attempt : Nat} {cfg : TelegramConfig} {text : String}
    {madeUs : Int} (h : Retrying d) (hw : d.worker = .posting m attempt cfg text madeUs) :
    (missesOf d.log).length = attempt ∧ Spaced gapUs (missesOf d.log ++ [d.nowUs]) := by
  have hcount := h.count m (by rw [hw]; rfl)
  rw [hw] at hcount
  refine ⟨hcount, spaced_snoc h.spaced fun t ht => ?_⟩
  have hrest := h.rested m (by rw [hw]; rfl) t ht
  rw [hw] at hrest
  rw [hcount]
  exact hrest

theorem retrying_step {d d' : Delivery} {e : Event} (h : Retrying d)
    (hs : deliveryStep d e = some d') : Retrying d' := by
  obtain ⟨hcount, hfew, hspaced, hrested, heach⟩ := h
  -- an entry that is no miss, no take and no giving up
  have hquiet : ∀ m, EachMoment GivenUpLate (d.log ++ [.put m]) ∧
      EachMoment GivenUpLate (d.log ++ [.refuse m]) ∧ EachMoment GivenUpLate (d.log ++ [.take m]) ∧
      EachMoment GivenUpLate (d.log ++ [.miss m d.nowUs]) := by
    intro m
    refine ⟨?_, ?_, ?_, ?_⟩ <;>
      exact eachMoment_snoc_iff.mpr ⟨heach, fun m' hm' => by cases hm'⟩
  cases moves_of_step hs with
  | pass us =>
      refine ⟨hcount, hfew, hspaced, fun m hm t ht => ?_, heach⟩
      have hle := hrested m hm t ht
      refine hle.trans ?_
      show d.worker.notBefore d.nowUs ≤ d.worker.notBefore (d.nowUs + us)
      cases d.worker <;> simp only [Worker.notBefore] <;> omega
  | reconfigure cfg => exact ⟨hcount, hfew, hspaced, hrested, heach⟩
  | send text => exact ⟨hcount, hfew, hspaced, hrested, heach⟩
  | sendOff text => exact ⟨hcount, hfew, hspaced, hrested, heach⟩
  | enqueued i m hm room =>
      have hmiss : missesOf (d.log ++ [.put m]) = missesOf d.log := missesOf_snoc _ _
      refine ⟨?_, hfew, ?_, ?_, (hquiet m).1⟩
      · simpa only [hmiss] using hcount
      · simpa only [hmiss] using hspaced
      · simpa only [hmiss] using hrested
  | refused i m hm full =>
      have hmiss : missesOf (d.log ++ [.refuse m]) = missesOf d.log := missesOf_snoc _ _
      refine ⟨?_, hfew, ?_, ?_, (hquiet m).2.1⟩
      · simpa only [hmiss] using hcount
      · simpa only [hmiss] using hspaced
      · simpa only [hmiss] using hrested
  | receive m rest idle hq =>
      have hmiss : missesOf (d.log ++ [.take m]) = [] := missesOf_snoc _ _
      refine ⟨fun _ _ => ?_, Nat.zero_lt_succ 14, ?_, ?_, (hquiet m).2.2.1⟩
      · simp only [hmiss]
        rfl
      · simp only [hmiss]
        exact spaced_nil gapUs
      · intro _ _ t ht
        simp only [hmiss] at ht
        cases ht
  | turnedOff m attempt hw off =>
      have hmiss : missesOf (d.log ++ [.done m .turnedOff]) = missesOf d.log := missesOf_snoc _ _
      refine retrying_receiving rfl ?_ (eachMoment_snoc_iff.mpr ⟨heach, fun m' hm' => by cases hm'⟩)
      simpa only [hmiss] using hspaced
  | snapshot m attempt hw on =>
      rw [hw] at hcount hfew hrested
      exact ⟨hcount, hfew, hspaced, hrested, heach⟩
  | delivered a m attempt cfg text madeUs hw ok =>
      have hmiss : missesOf (d.log ++ [.done m (.delivered (telegramRequest cfg text) madeUs)]) =
          missesOf d.log := missesOf_snoc _ _
      refine retrying_receiving rfl ?_ (eachMoment_snoc_iff.mpr ⟨heach, fun m' hm' => by cases hm'⟩)
      simpa only [hmiss] using hspaced
  | retry a m attempt cfg text madeUs why hw err more =>
      obtain ⟨hlen, hmore⟩ := spaced_miss ⟨hcount, hfew, hspaced, hrested, heach⟩ hw
      have hmiss : missesOf (d.log ++ [.miss m d.nowUs]) = missesOf d.log ++ [d.nowUs] :=
        missesOf_snoc _ _
      refine ⟨fun _ _ => ?_, more, ?_, fun _ _ t ht => ?_, (hquiet m).2.2.2⟩
      · simp only [hmiss, List.length_append, List.length_singleton, hlen]
        rfl
      · simpa only [hmiss] using hmore
      · simp only [hmiss, List.getLast?_concat, Option.some.injEq] at ht
        subst ht
        simp only [Worker.attempt, Worker.notBefore, gapUs, Nat.add_sub_cancel]
        omega
  | gaveUp a m attempt cfg text madeUs why hw err last =>
      obtain ⟨hlen, hmore⟩ := spaced_miss ⟨hcount, hfew, hspaced, hrested, heach⟩ hw
      have hmiss : missesOf (d.log ++ [.miss m d.nowUs]) = missesOf d.log ++ [d.nowUs] :=
        missesOf_snoc _ _
      have hmiss' : missesOf (d.log ++ [.miss m d.nowUs] ++ [.done m .gaveUp]) =
          missesOf d.log ++ [d.nowUs] := (missesOf_snoc _ _).trans hmiss
      rw [hw] at hfew
      refine retrying_receiving rfl ?_ (eachMoment_snoc_iff.mpr ⟨(hquiet m).2.2.2, fun m' _ => ?_⟩)
      · simpa only [hmiss'] using hmore
      · rw [hmiss]
        refine ⟨?_, hmore⟩
        have hlt : attempt < sendAttempts := hfew
        rw [List.length_append, List.length_singleton, hlen]
        omega
  | wake m attempt untilUs hw due =>
      rw [hw] at hcount hfew hrested
      refine ⟨hcount, hfew, hspaced, fun m' hm' t ht => ?_, heach⟩
      have hle := hrested m' hm' t ht
      simp only [Worker.notBefore, Worker.attempt] at hle ⊢
      omega

/-- The pauses of all the attempts. -/
def allGapsUs : Int := ((List.range (sendAttempts - 1)).map gapUs).sum

theorem allGapsUs_eq : allGapsUs = 3199986014 := by decide

section Whole

variable {cfg : TelegramConfig} {label : String} {nowUs : Int} {es : List Event} {d : Delivery}

theorem retrying_run (h : Runs cfg label nowUs es d) : Retrying d :=
  StepMachine.run_inv deliveryStep (fun _ _ _ hd hs => retrying_step hd hs)
    (retrying_receiving (d := .start cfg label nowUs) rfl (spaced_nil gapUs) (eachMoment_nil _)) h

/-- **A message is given up after fifteen posts that failed**, the last of them 3199.986 seconds
    after the first or later: posts that fail within a shorter time lose no message. -/
theorem given_up_late (h : Runs cfg label nowUs es d) :
    (∀ pre m post, d.log = pre ++ .done m .gaveUp :: post → (missesOf pre).length = sendAttempts ∧
      ∃ first last, (missesOf pre).head? = some first ∧ (missesOf pre).getLast? = some last ∧
        first + 3199986014 ≤ last) ∧
    ∀ fromUs toUs, toUs - fromUs < 3199986014 →
      (∀ m t, Ev.miss m t ∈ d.log → fromUs ≤ t ∧ t ≤ toUs) → ∀ m, Ev.done m .gaveUp ∉ d.log := by
  have heach := (retrying_run h).each
  have hlate : ∀ pre m post, d.log = pre ++ .done m .gaveUp :: post →
      (missesOf pre).length = sendAttempts ∧ ∃ first last, (missesOf pre).head? = some first ∧
        (missesOf pre).getLast? = some last ∧ first + 3199986014 ≤ last := by
    intro pre m post hlog
    obtain ⟨hlen, hspaced⟩ := heach pre _ post hlog m rfl
    have hfirst : 0 < (missesOf pre).length := Nat.lt_of_lt_of_eq (Nat.zero_lt_succ 14) hlen.symm
    have hlast : sendAttempts - 1 < (missesOf pre).length :=
      Nat.lt_of_lt_of_eq (Nat.lt_succ_self 14) hlen.symm
    have h0 := List.getElem?_eq_getElem hfirst
    have hn := List.getElem?_eq_getElem hlast
    refine ⟨hlen, (missesOf pre)[0], (missesOf pre)[sendAttempts - 1],
      List.head?_eq_getElem?.trans h0, ?_, ?_⟩
    · rw [List.getLast?_eq_getElem?, hlen]
      exact hn
    · rw [← allGapsUs_eq]
      exact spaced_span hspaced h0 hn
  refine ⟨hlate, fun fromUs toUs hshort hall m hm => ?_⟩
  obtain ⟨pre, post, hlog⟩ := List.append_of_mem hm
  obtain ⟨-, first, last, hfirst, hlast, hspan⟩ := hlate pre m post hlog
  have hin : ∀ t, t ∈ missesOf pre → fromUs ≤ t ∧ t ≤ toUs := by
    intro t ht
    obtain ⟨m', hm'⟩ := mem_missesOf ht
    exact hall m' t (hlog ▸ List.mem_append_left _ hm')
  have h1 := hin first (List.mem_of_mem_head? hfirst)
  have h2 := hin last (List.mem_of_getLast? hlast)
  omega

/-! The network does not come back. -/

def hopelessRun : List Event :=
  [.send "Mains lost", .enqueue 0, .receive] ++
    (List.range 14).flatMap (fun _ => [.snapshot, .posted noNetwork, .pass 300000000, .wake]) ++
    [.snapshot, .posted noNetwork]

def hopelessEnd : Delivery :=
  ⟨homeConfig, "ups", [], [], .receiving, 4200000000,
    [.put lostMsg, .take lostMsg] ++
      (List.range 15).map (fun k => .miss lostMsg (300000000 * k)) ++ [.done lostMsg .gaveUp]⟩

theorem hopelessRun_ends : Runs homeConfig "ups" 0 hopelessRun hopelessEnd := by rfl

theorem given_up_late_hopeless :
    (∀ pre m post, hopelessEnd.log = pre ++ .done m .gaveUp :: post →
      (missesOf pre).length = sendAttempts ∧ ∃ first last, (missesOf pre).head? = some first ∧
        (missesOf pre).getLast? = some last ∧ first + 3199986014 ≤ last) ∧
    ∀ fromUs toUs, toUs - fromUs < 3199986014 →
      (∀ m t, Ev.miss m t ∈ hopelessEnd.log → fromUs ≤ t ∧ t ≤ toUs) →
      ∀ m, Ev.done m .gaveUp ∉ hopelessEnd.log :=
  given_up_late hopelessRun_ends

end Whole

/-! ## 2. What arrives -/

/-- A message has been made, not later than now, and fits its buffer. -/
def MsgT.MadeBy (m : MsgT) (fromUs nowUs : Int) : Prop :=
  fromUs ≤ m.queuedUs ∧ m.queuedUs ≤ nowUs ∧ m.text.length < msgMax

theorem MsgT.MadeBy.mono {m : MsgT} {fromUs nowUs nowUs' : Int} (h : m.MadeBy fromUs nowUs)
    (hle : nowUs ≤ nowUs') : m.MadeBy fromUs nowUs' :=
  ⟨h.1, h.2.1.trans hle, h.2.2⟩

section Known

/-! `known` are the configurations of the run: the one it started with, and those stored since. -/

variable (known : TelegramConfig → Prop) (fromUs nowUs : Int)

/-- A post that was made of a message at `madeUs`, under a configuration that was in force and
    on. -/
def MadeOf (m : MsgT) (cfg : TelegramConfig) (text : String) (madeUs : Int) : Prop :=
  m.MadeBy fromUs madeUs ∧ madeUs ≤ nowUs ∧ known cfg ∧ cfg.enabled = true ∧
    text = postText m madeUs

/-- What the worker is at, by where it is. -/
def Worker.Fine : Worker → Prop
  | .receiving => True
  | .held m _ => m.MadeBy fromUs nowUs
  | .posting m _ cfg text madeUs => MadeOf known fromUs nowUs m cfg text madeUs
  | .waiting m _ _ => m.MadeBy fromUs nowUs

/-- Where every message stands. -/
structure Dated (d : Delivery) : Prop where
  began : fromUs ≤ d.nowUs
  cfg : known d.cfg
  sending : ∀ m ∈ d.sending, m.MadeBy fromUs d.nowUs
  queue : ∀ m ∈ d.queue, m.MadeBy fromUs d.nowUs
  worker : d.worker.Fine known fromUs d.nowUs
  log : ∀ m req madeUs, Ev.done m (.delivered req madeUs) ∈ d.log → ∃ cfg text, cfg.Able ∧
    req = telegramRequest cfg text ∧ MadeOf known fromUs d.nowUs m cfg text madeUs

variable {known fromUs nowUs}

theorem MadeOf.mono {nowUs' : Int} {m : MsgT} {cfg : TelegramConfig} {text : String} {madeUs : Int}
    (h : MadeOf known fromUs nowUs m cfg text madeUs) (hle : nowUs ≤ nowUs') :
    MadeOf known fromUs nowUs' m cfg text madeUs :=
  ⟨h.1, h.2.1.trans hle, h.2.2⟩

theorem Worker.Fine.mono {nowUs' : Int} {w : Worker} (h : w.Fine known fromUs nowUs)
    (hle : nowUs ≤ nowUs') : w.Fine known fromUs nowUs' := by
  cases w with
  | receiving => trivial
  | held m attempt => exact MsgT.MadeBy.mono h hle
  | posting m attempt cfg text madeUs => exact MadeOf.mono h hle
  | waiting m attempt untilUs => exact MsgT.MadeBy.mono h hle

theorem able_of_post {cfg : TelegramConfig} {a : PostAnswer} {errSz : Nat}
    (hon : cfg.enabled = true)
    (h : telegramPost cfg a errSz = .ok ()) : cfg.Able := by
  unfold telegramPost at h
  split at h
  case isTrue => cases h
  case isFalse hset => exact ⟨hon, fun hb => hset (.inl hb), fun hc => hset (.inr hc)⟩

/-- A reconfiguration stores what is known. -/
def Stores (known : TelegramConfig → Prop) (e : Event) : Prop :=
  ∀ c, e = .reconfigure c → known c

theorem dated_step {d d' : Delivery} {e : Event} (hstores : Stores known e)
    (h : Dated known fromUs d) (hs : deliveryStep d e = some d') : Dated known fromUs d' := by
  obtain ⟨hbegan, hcfg, hsending, hqueue, hworker, hlog⟩ := h
  -- an entry that is no delivery
  have hquiet : ∀ e : Entry, (∀ m req madeUs, e ≠ .done m (.delivered req madeUs)) →
      ∀ m req madeUs, Ev.done m (.delivered req madeUs) ∈ d.log ++ [e] → ∃ cfg text, cfg.Able ∧
        req = telegramRequest cfg text ∧ MadeOf known fromUs d.nowUs m cfg text madeUs := by
    intro e he m req madeUs hm
    rcases List.mem_append.mp hm with hm | hm
    · exact hlog m req madeUs hm
    · exact absurd (List.mem_singleton.mp hm).symm (he m req madeUs)
  cases moves_of_step hs with
  | pass us =>
      have hle : d.nowUs ≤ d.nowUs + us := by omega
      refine ⟨hbegan.trans hle, hcfg, fun m hm => (hsending m hm).mono hle,
        fun m hm => (hqueue m hm).mono hle, hworker.mono hle, fun m req madeUs hm => ?_⟩
      obtain ⟨cfg, text, hable, hreq, hmade⟩ := hlog m req madeUs hm
      exact ⟨cfg, text, hable, hreq, hmade.mono hle⟩
  | reconfigure cfg => exact ⟨hbegan, hstores cfg rfl, hsending, hqueue, hworker, hlog⟩
  | send text =>
      refine ⟨hbegan, hcfg, fun m hm => ?_, hqueue, hworker, hlog⟩
      rcases List.mem_append.mp hm with hm | hm
      · exact hsending m hm
      · rw [List.mem_singleton.mp hm]
        exact ⟨hbegan, Int.le_refl _, fit_length_lt (by decide) _⟩
  | sendOff text => exact ⟨hbegan, hcfg, hsending, hqueue, hworker, hlog⟩
  | enqueued i m hm room =>
      refine ⟨hbegan, hcfg, fun m' hm' => hsending m' (List.mem_of_mem_eraseIdx hm'),
        fun m' hm' => ?_, hworker, hquiet _ (fun _ _ _ h => by cases h)⟩
      rcases List.mem_append.mp hm' with hm' | hm'
      · exact hqueue m' hm'
      · rw [List.mem_singleton.mp hm']
        exact hsending m (List.mem_of_getElem? hm)
  | refused i m hm full =>
      exact ⟨hbegan, hcfg, fun m' hm' => hsending m' (List.mem_of_mem_eraseIdx hm'), hqueue,
        hworker, hquiet _ (fun _ _ _ h => by cases h)⟩
  | receive m rest idle hq =>
      rw [hq] at hqueue
      obtain ⟨hm, hrest⟩ := List.forall_mem_cons.mp hqueue
      exact ⟨hbegan, hcfg, hsending, hrest, hm, hquiet _ (fun _ _ _ h => by cases h)⟩
  | turnedOff m attempt hw off =>
      exact ⟨hbegan, hcfg, hsending, hqueue, trivial, hquiet _ (fun _ _ _ h => by cases h)⟩
  | snapshot m attempt hw on =>
      rw [hw] at hworker
      exact ⟨hbegan, hcfg, hsending, hqueue, ⟨hworker, Int.le_refl _, hcfg, on, rfl⟩, hlog⟩
  | delivered a m attempt cfg text madeUs hw ok =>
      rw [hw] at hworker
      refine ⟨hbegan, hcfg, hsending, hqueue, trivial, fun m' req madeUs' hm => ?_⟩
      rcases List.mem_append.mp hm with hm | hm
      · exact hlog m' req madeUs' hm
      · cases List.mem_singleton.mp hm
        exact ⟨cfg, text, able_of_post hworker.2.2.2.1 ok, rfl, hworker⟩
  | retry a m attempt cfg text madeUs why hw err more =>
      rw [hw] at hworker
      exact ⟨hbegan, hcfg, hsending, hqueue, hworker.1.mono hworker.2.1,
        hquiet _ (fun _ _ _ h => by cases h)⟩
  | gaveUp a m attempt cfg text madeUs why hw err last =>
      refine ⟨hbegan, hcfg, hsending, hqueue, trivial, fun m' req madeUs' hm => ?_⟩
      rcases List.mem_append.mp hm with hm | hm
      · exact hquiet _ (fun _ _ _ h => by cases h) m' req madeUs' hm
      · cases List.mem_singleton.mp hm
  | wake m attempt untilUs hw due =>
      rw [hw] at hworker
      exact ⟨hbegan, hcfg, hsending, hqueue, hworker, hlog⟩

end Known

/-- The text of a post is never cut: at most 279 characters in 288 bytes. -/
theorem postText_eq {m : MsgT} {fromUs madeUs : Int} (h : m.MadeBy fromUs madeUs) (h0 : 0 ≤ fromUs)
    (hclock : madeUs < 2 ^ 63) : postText m madeUs =
      if madeUs - m.queuedUs > lateAfterUs then
        m.text ++ " (" ++ toString ((madeUs - m.queuedUs).tdiv 60000000) ++ " min ago)"
      else m.text := by
  obtain ⟨hfrom, hnow, hlen⟩ := h
  unfold msgMax at hlen
  unfold postText
  simp only
  split
  case isTrue =>
    apply fit_of_length_lt
    have hmin : (toString ((madeUs - m.queuedUs).tdiv 60000000)).length ≤ 13 := by
      refine length_toString_le (k := 12) (by decide) ?_ ?_
      · rw [Int.tdiv_eq_ediv_of_nonneg (by omega)]
        omega
      · rw [Int.tdiv_eq_ediv_of_nonneg (by omega)]
        omega
    simp only [String.length_append]
    have h1 : " (".length = 2 := rfl
    have h2 : " min ago)".length = 9 := rfl
    unfold msgMax
    omega
  case isFalse =>
    apply fit_of_length_lt
    unfold msgMax
    omega

/-- The URL is never cut either. -/
theorem telegramRequest_url (cfg : TelegramConfig) (text : String) :
    (telegramRequest cfg text).url =
    "https://api.telegram.org/bot" ++ cfg.botToken ++ "/sendMessage" := by
  apply fit_of_length_lt
  have htoken := cfg.botToken_fits
  have h1 : "https://api.telegram.org/bot".length = 28 := rfl
  have h2 : "/sendMessage".length = 12 := rfl
  simp only [String.length_append]
  omega

section Whole

variable {cfg : TelegramConfig} {label : String} {nowUs : Int} {es : List Event} {d : Delivery}

/-- A configuration of the run. -/
def OfRun (cfg : TelegramConfig) (es : List Event) (c : TelegramConfig) : Prop :=
  c = cfg ∨ Event.reconfigure c ∈ es

theorem dated_run (h : Runs cfg label nowUs es d) : Dated (OfRun cfg es) nowUs d := by
  have hstart : Dated (OfRun cfg es) nowUs (.start cfg label nowUs) :=
    ⟨Int.le_refl _, .inl rfl, fun _ hm => absurd hm List.not_mem_nil,
      fun _ hm => absurd hm List.not_mem_nil, trivial, fun _ _ _ hm => absurd hm List.not_mem_nil⟩
  have hstores : StepMachine.Along deliveryStep (fun _ e => Stores (OfRun cfg es) e)
      (.start cfg label nowUs) es := by
    refine StepMachine.along_of_forall deliveryStep fun e he c hc => .inr ?_
    rw [← hc]
    exact he
  exact StepMachine.run_inv_along deliveryStep (fun _ _ _ hC hd hs => dated_step hC hd hs) hstores
    hstart h

/-- **What arrives**: the message as it was queued, to the chat and with the token of a
    configuration of the run that was switched on; and how many minutes late it is, exactly if that
    is more than 90 s. -/
theorem delivered_text (h : Runs cfg label nowUs es d) (h0 : 0 ≤ nowUs) (hclock : d.nowUs < 2 ^ 63)
    {m : MsgT} {req : TelegramRequest} {madeUs : Int}
    (hm : Ev.done m (.delivered req madeUs) ∈ d.log) :
    m.queuedUs ≤ madeUs ∧
    req.text = (if madeUs - m.queuedUs > lateAfterUs then
        m.text ++ " (" ++ toString ((madeUs - m.queuedUs).tdiv 60000000) ++ " min ago)"
      else m.text) ∧
    ∃ c : TelegramConfig, (c = cfg ∨ Event.reconfigure c ∈ es) ∧ c.Able ∧ req.chatId = c.chatId ∧
      req.url = "https://api.telegram.org/bot" ++ c.botToken ++ "/sendMessage" := by
  obtain ⟨c, text, hable, rfl, hmade, hthen, hknown, -, rfl⟩ := (dated_run h).log m req madeUs hm
  refine ⟨hmade.2.1, ?_, c, hknown, hable, rfl, telegramRequest_url c _⟩
  exact postText_eq hmade h0 (lt_of_le_of_lt hthen hclock)

theorem delivered_text_late : lostMsg.queuedUs ≤ 100000000 ∧
    lateRequest.text = (if 100000000 - lostMsg.queuedUs > lateAfterUs then
        lostMsg.text ++ " (" ++ toString ((100000000 - lostMsg.queuedUs).tdiv 60000000) ++
          " min ago)"
      else lostMsg.text) ∧
    ∃ c : TelegramConfig, (c = homeConfig ∨ Event.reconfigure c ∈ lateRun) ∧ c.Able ∧
      lateRequest.chatId = c.chatId ∧
      lateRequest.url = "https://api.telegram.org/bot" ++ c.botToken ++ "/sendMessage" :=
  delivered_text lateRun_ends (by decide) (by decide) (List.mem_of_getLast? rfl)

end Whole

/-! ## 3. While posts succeed -/

/-- The steps of the worker, of all there are. -/
def Event.ofWorker : Event → Bool
  | .receive => true
  | .snapshot => true
  | .posted _ => true
  | .wake => true
  | _ => false

/-- No post fails, and what a reconfiguration stores can post. -/
def Event.Smooth : Event → Prop
  | .reconfigure cfg => cfg.Able
  | .posted a => a.Accepted
  | _ => True

/-- How many steps the worker is from the queue, and how many what waits will take it. -/
def Worker.rank : Worker → Nat
  | .receiving => 0
  | .posting _ _ _ _ _ => 1
  | .held _ _ => 2
  | .waiting _ _ _ => 3

def Delivery.rank (d : Delivery) : Nat := 3 * d.queue.length + d.worker.rank

/-- The configuration in force can post, and so can the one of a post under way. -/
structure CanPost (d : Delivery) : Prop where
  able : d.cfg.Able
  posting : ∀ m attempt cfg text madeUs, d.worker = .posting m attempt cfg text madeUs → cfg.Able

/-- What a stretch of a run adds: with every put three more steps to do, with every step of the
    worker one less, and nothing but deliveries. -/
structure Progress (d d' : Delivery) (steps : Nat) : Prop where
  rank : d'.rank + steps + 3 * (putsOf d.log).length = d.rank + 3 * (putsOf d'.log).length
  fates : ∃ new, fatesOf d'.log = fatesOf d.log ++ new ∧
    ∀ x ∈ new, ∃ req madeUs, x.2 = Fate.delivered req madeUs

theorem Progress.trans {d d' d'' : Delivery} {m n : Nat} (h : Progress d d' m)
    (h' : Progress d' d'' n) : Progress d d'' (m + n) := by
  obtain ⟨hrank, new, hnew, hall⟩ := h
  obtain ⟨hrank', new', hnew', hall'⟩ := h'
  refine ⟨by omega, new ++ new', by rw [hnew', hnew, List.append_assoc], fun x hx => ?_⟩
  rcases List.mem_append.mp hx with hx | hx
  · exact hall x hx
  · exact hall' x hx

/-- A step that puts nothing and ends nothing. -/
theorem progress_quiet {d d' : Delivery} {n : Nat} (hputs : putsOf d'.log = putsOf d.log)
    (hfates : fatesOf d'.log = fatesOf d.log) (hrank : d'.rank + n = d.rank) : Progress d d' n := by
  refine ⟨by rw [hputs]; omega, [], by rw [hfates, List.append_nil], fun x hx => ?_⟩
  cases hx

theorem smooth_step {d d' : Delivery} {e : Event} (h : CanPost d) (he : e.Smooth)
    (hs : deliveryStep d e = some d') : CanPost d' ∧ Progress d d' e.ofWorker.toNat := by
  obtain ⟨hable, hposting⟩ := h
  -- a step that leaves the worker somewhere else than in a post
  have hcan : ∀ d' : Delivery, d'.cfg = d.cfg → (∀ m attempt cfg text madeUs,
      d'.worker ≠ .posting m attempt cfg text madeUs) → CanPost d' := by
    intro d' hcfg hw
    exact ⟨hcfg ▸ hable, fun m attempt cfg text madeUs heq =>
      absurd heq (hw m attempt cfg text madeUs)⟩
  cases moves_of_step hs with
  | pass us => exact ⟨⟨hable, hposting⟩, progress_quiet rfl rfl rfl⟩
  | reconfigure cfg => exact ⟨⟨he, hposting⟩, progress_quiet rfl rfl rfl⟩
  | send text => exact ⟨⟨hable, hposting⟩, progress_quiet rfl rfl rfl⟩
  | sendOff text => exact ⟨⟨hable, hposting⟩, progress_quiet rfl rfl rfl⟩
  | enqueued i m hm room =>
      refine ⟨⟨hable, hposting⟩, ?_, [], ?_, fun x hx => by cases hx⟩
      · simp only [putsOf_snoc, putOf, Option.toList_some, List.length_append,
          List.length_singleton, Delivery.rank, Event.ofWorker, Bool.toNat_false]
        omega
      · simp only [fatesOf_snoc, fateOf, Option.toList_none]
  | refused i m hm full =>
      refine ⟨⟨hable, hposting⟩, progress_quiet ?_ ?_ rfl⟩
      · simp only [putsOf_snoc, putOf, Option.toList_none, List.append_nil]
      · simp only [fatesOf_snoc, fateOf, Option.toList_none, List.append_nil]
  | receive m rest idle hq =>
      refine ⟨hcan _ rfl (fun _ _ _ _ _ hw => by cases hw), progress_quiet ?_ ?_ ?_⟩
      · simp only [putsOf_snoc, putOf, Option.toList_none, List.append_nil]
      · simp only [fatesOf_snoc, fateOf, Option.toList_none, List.append_nil]
      · simp only [Delivery.rank, idle, hq, Worker.rank, List.length_cons, Event.ofWorker,
          Bool.toNat_true]
        omega
  | turnedOff m attempt hw off => exact absurd (hable.enabled.symm.trans off) Bool.noConfusion
  | snapshot m attempt hw on =>
      refine ⟨⟨hable, fun m' attempt' cfg text madeUs hw' => ?_⟩, progress_quiet rfl rfl ?_⟩
      · cases hw'
        exact hable
      · simp only [Delivery.rank, hw, Worker.rank, Event.ofWorker, Bool.toNat_true]
  | delivered a m attempt cfg text madeUs hw ok =>
      refine ⟨hcan _ rfl (fun _ _ _ _ _ hw' => by cases hw'), ?_,
        [(m, Fate.delivered (telegramRequest cfg text) madeUs)], ?_, fun x hx => ?_⟩
      · simp only [putsOf_snoc, putOf, Option.toList_none, List.append_nil, Delivery.rank, hw,
          Worker.rank, Event.ofWorker, Bool.toNat_true]
      · simp only [fatesOf_snoc, fateOf, Option.toList_some]
      · rw [List.mem_singleton.mp hx]
        exact ⟨_, _, rfl⟩
  | retry a m attempt cfg text madeUs why hw err more =>
      rw [telegramPost_ok (hposting m attempt cfg text madeUs hw) he] at err
      cases err
  | gaveUp a m attempt cfg text madeUs why hw err last =>
      rw [telegramPost_ok (hposting m attempt cfg text madeUs hw) he] at err
      cases err
  | wake m attempt untilUs hw due =>
      refine ⟨hcan _ rfl (fun _ _ _ _ _ hw' => by cases hw'), progress_quiet rfl rfl ?_⟩
      simp only [Delivery.rank, hw, Worker.rank, Event.ofWorker, Bool.toNat_true]

/-- How many of the steps of a run are the worker's. -/
def workerSteps (es : List Event) : Nat := (es.map fun e => e.ofWorker.toNat).sum

theorem smooth_run {d d' : Delivery} {es : List Event} (h : CanPost d) (hes : ∀ e ∈ es, e.Smooth)
    (hrun : StepMachine.run deliveryStep d es = some d') : Progress d d' (workerSteps es) := by
  induction es generalizing d with
  | nil =>
      obtain rfl := Option.some.inj hrun
      exact progress_quiet rfl rfl rfl
  | cons e es ih =>
      obtain ⟨he, hrest⟩ := List.forall_mem_cons.mp hes
      obtain ⟨d1, h1, h2⟩ := (StepMachine.run_cons_some _).mp hrun
      obtain ⟨hcan, hfirst⟩ := smooth_step h he h1
      exact hfirst.trans (ih hcan hrest h2)

/-- With something to do, the worker can move, if need be after some time. -/
theorem worker_moves {d : Delivery} (h : 0 < d.rank) : ∃ us e, e.ofWorker = true ∧ e.Smooth ∧
    (StepMachine.run deliveryStep d [.pass us, e]).isSome := by
  cases hw : d.worker with
  | receiving =>
      cases hq : d.queue with
      | nil =>
          unfold Delivery.rank at h
          rw [hw, hq] at h
          cases h
      | cons m rest =>
          refine ⟨0, .receive, rfl, trivial, ?_⟩
          simp [StepMachine.run, deliveryStep, hw, hq]
  | held m attempt =>
      refine ⟨0, .snapshot, rfl, trivial, ?_⟩
      simp [StepMachine.run, deliveryStep, hw]
  | posting m attempt cfg text madeUs =>
      refine ⟨0, .posted takenAnswer, rfl, ⟨rfl, rfl, rfl, rfl, rfl⟩, ?_⟩
      simp [StepMachine.run, deliveryStep, hw]
  | waiting m attempt untilUs =>
      refine ⟨(untilUs - d.nowUs).toNat, .wake, rfl, trivial, ?_⟩
      have hdue : untilUs < d.nowUs + ((untilUs - d.nowUs).toNat : Int) + tickUs := by
        unfold tickUs
        omega
      simp only [StepMachine.run, deliveryStep, hw, Option.bind_some, if_pos hdue,
        Option.isSome_some]

theorem rank_eq_zero_iff {d : Delivery} (h : Sound d) : d.rank = 0 ↔ owedOf d.log = [] := by
  unfold owedOf Delivery.rank
  rw [h.held, h.queue, List.append_eq_nil_iff]
  cases hw : d.worker <;> simp [Worker.rank, Worker.msg]

section Whole

variable {cfg : TelegramConfig} {label : String} {nowUs : Int} {es : List Event} {d : Delivery}

/-- **While posts succeed the queue drains**: in every run from there, whoever else is at work, in
    which every configuration stored can post, each step of the worker takes one off the number of
    steps to do, each message put adds three, and what gets a fate is delivered; the worker can
    always move while something is owed, and nothing is owed once no steps are to do. -/
theorem drains (h : Runs cfg label nowUs es d) (hcan : CanPost d) :
    (∀ es' d', (∀ e ∈ es', e.Smooth) → StepMachine.run deliveryStep d es' = some d' →
      Progress d d' (workerSteps es')) ∧
    (owedOf d.log ≠ [] → ∃ us e, e.ofWorker = true ∧ e.Smooth ∧
      (StepMachine.run deliveryStep d [.pass us, e]).isSome) ∧
    (d.rank = 0 ↔ owedOf d.log = []) := by
  have hzero := rank_eq_zero_iff (sound_run h)
  refine ⟨fun es' d' hsmooth hrun => smooth_run hcan hsmooth hrun, fun howed => ?_, hzero⟩
  exact worker_moves (Nat.pos_of_ne_zero fun h0 => howed (hzero.mp h0))

/-- The message that waits for the network, before the post that succeeds. -/
def retryEnd : Delivery :=
  ⟨homeConfig, "ups", [], [], .held lostMsg 1, 100000000,
    [.put lostMsg, .take lostMsg, .miss lostMsg 0]⟩

theorem canPost_retry : CanPost retryEnd := by
  refine ⟨⟨rfl, by decide, by decide⟩, fun m attempt cfg text madeUs hw => ?_⟩
  cases hw

theorem drains_retry :
    (∀ es' d', (∀ e ∈ es', e.Smooth) → StepMachine.run deliveryStep retryEnd es' = some d' →
      Progress retryEnd d' (workerSteps es')) ∧
    (owedOf retryEnd.log ≠ [] → ∃ us e, e.ofWorker = true ∧ e.Smooth ∧
      (StepMachine.run deliveryStep retryEnd [.pass us, e]).isSome) ∧
    (retryEnd.rank = 0 ↔ owedOf retryEnd.log = []) :=
  drains (show Runs homeConfig "ups" 0 (lateRun.take 7) retryEnd by rfl) canPost_retry

end Whole

end NutBluetti.Notify
