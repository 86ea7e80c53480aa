/-
  File:      NutBluetti/Notify/Delivery.lean
  Subject:   DELIVERY OF THE ALERTS (notify.c): `notify_send`, the queue, and the worker that posts
             to Telegram, from a started notifier on.

  The callers of `notify_send`, `notify_reconfigure` and the worker run side by side; a step is what
  one of them does between two places where another may come in. A caller reads the configuration
  under the lock, makes its message, and only then puts it in the queue; the worker copies the
  configuration and posts under the copy.

  `log` records what happens to each message; nothing reads it.

  * `Moves` -- what a step can do, one rule for each way;
  * **`fates_in_order`** -- every message that got into the queue has one fate at most, the fates
    come in the order of the queue, and nobody else is in it.
-/
import NutBluetti.Lib.RetryQueue
import NutBluetti.Lib.StepMachine
import NutBluetti.Notify.Alerts

namespace NutBluetti.Notify

open CText RetryQueue History

/-! ## 1. `telegram_post` -/

/-- `notify_config_t`, as far as the transport reads it. -/
structure TelegramConfig where
  enabled : Bool
  botToken : String
  chatId : String
  botToken_fits : botToken.length < 64
  chatId_fits : chatId.length < 24
  deriving DecidableEq

/-- What the libraries and the server answer to one post. -/
structure PostAnswer where
  /-- `cJSON_CreateObject`, `cJSON_PrintUnformatted` and `esp_http_client_init` succeed. -/
  object : Bool
  printed : Bool
  client : Bool
  /-- The name of the error of `esp_http_client_open`. -/
  openErr : Option String
  status : Int
  resp : String
  deriving DecidableEq, Repr

/-- The members of the body, and where it goes. -/
structure TelegramRequest where
  url : String
  chatId : String
  text : String
  deriving DecidableEq, Repr

def telegramRequest (cfg : TelegramConfig) (text : String) : TelegramRequest :=
  ⟨fit 128 ("https://api.telegram.org/bot" ++ cfg.botToken ++ "/sendMessage"), cfg.chatId, text⟩

/-- Telegram's own description of a failure, else the status. -/
def whyFailed (a : PostAnswer) (errSz : Nat) : String :=
  match afterFirst "\"description\":\"".toList (fit 192 a.resp).toList with
  | some why => String.ofList ((why.takeWhile (· != '"')).take (errSz - 1))
  | none => fit errSz ("Telegram HTTP " ++ toString a.status)

/-- **`telegram_post`**: nothing, or why it failed. -/
def telegramPost (cfg : TelegramConfig) (a : PostAnswer) (errSz : Nat) : Except String Unit :=
  if cfg.botToken = "" ∨ cfg.chatId = "" then
    .error (fit errSz "bot token and chat id are required")
  else if !a.object then .error (fit errSz "out of memory")
  else if !a.printed then .error (fit errSz "json build failed")
  else if !a.client then .error (fit errSz "http init failed")
  else
    match a.openErr with
    | some name => .error (fit errSz ("connect failed: " ++ name))
    | none => if a.status = 200 then .ok () else .error (whyFailed a errSz)

/-- Telegram has taken the message. -/
def PostAnswer.Accepted (a : PostAnswer) : Prop :=
  a.object = true ∧ a.printed = true ∧ a.client = true ∧ a.openErr = none ∧ a.status = 200

/-- A configuration that can post. -/
structure TelegramConfig.Able (cfg : TelegramConfig) : Prop where
  enabled : cfg.enabled = true
  botToken : cfg.botToken ≠ ""
  chatId : cfg.chatId ≠ ""

theorem telegramPost_ok {cfg : TelegramConfig} {a : PostAnswer} (hcfg : cfg.Able) (ha : a.Accepted)
    (errSz : Nat) : telegramPost cfg a errSz = .ok () := by
  obtain ⟨h1, h2, h3, h4, h5⟩ := ha
  unfold telegramPost
  rw [if_neg fun h => h.elim hcfg.botToken hcfg.chatId]
  simp [h1, h2, h3, h4, h5]

/-! ## 2. The worker and its queue -/

def queueDepth : Nat := 6
def sendAttempts : Nat := 15
def backoffCapMs : Nat := 5 * 60 * 1000

/-- `LATE_AFTER_US`. -/
def lateAfterUs : Int := 90 * 1000 * 1000

/-- One tick of FreeRTOS; a delay of `n` ticks lasts more than `n - 1`. -/
def tickUs : Int := 1000

/-- The loop of `backoff_ms`, with so many turns to come. -/
def backoffLoop : Nat → Nat → Nat
  | 0, ms => ms
  | turns + 1, ms => if ms < backoffCapMs then backoffLoop turns (ms * 3) else ms

/-- `backoff_ms`. -/
def backoffMs (attempt : Nat) : Nat :=
  let ms := backoffLoop (attempt - 1) 5000
  if ms > backoffCapMs then backoffCapMs else ms

/-- `msg_t`. -/
structure MsgT where
  text : String
  queuedUs : Int
  deriving DecidableEq, Repr

/-- The text of a post, made at `nowUs`. -/
def postText (m : MsgT) (nowUs : Int) : String :=
  let lateUs := nowUs - m.queuedUs
  if lateUs > lateAfterUs then
    fit (msgMax + 32) (m.text ++ " (" ++ toString (lateUs.tdiv 60000000) ++ " min ago)")
  else fit (msgMax + 32) m.text

/-- What becomes of a message. -/
inductive Fate where
  /-- Posted, with the text made at that time. -/
  | delivered (req : TelegramRequest) (madeUs : Int)
  | gaveUp
  | turnedOff
  deriving DecidableEq, Repr

/-- Where the worker is: at `xQueueReceive`; before it copies the configuration; in `telegram_post`;
    in `vTaskDelay`. -/
inductive Worker where
  | receiving
  | held (m : MsgT) (attempt : Nat)
  | posting (m : MsgT) (attempt : Nat) (cfg : TelegramConfig) (text : String) (madeUs : Int)
  | waiting (m : MsgT) (attempt : Nat) (untilUs : Int)
  deriving DecidableEq

abbrev Entry := Ev MsgT Fate Int

/-- `N`, as far as the delivery uses it, the callers on their way to the queue, and the clock. -/
structure Delivery where
  cfg : TelegramConfig
  label : String
  sending : List MsgT
  queue : List MsgT
  worker : Worker
  nowUs : Int
  log : List Entry

/-- What `notify_start` leaves. -/
def Delivery.start (cfg : TelegramConfig) (label : String) (nowUs : Int) : Delivery :=
  ⟨cfg, fit 40 label, [], [], .receiving, nowUs, []⟩

inductive Event where
  /-- Time goes by. -/
  | pass (us : Nat)
  /-- `notify_reconfigure`. -/
  | reconfigure (cfg : TelegramConfig)
  /-- `notify_send`, up to its message. -/
  | send (text : String)
  /-- `xQueueSend` of one of the callers that are at it. -/
  | enqueue (i : Nat)
  /-- `xQueueReceive` has a message. -/
  | receive
  /-- The configuration is copied, and the text made. -/
  | snapshot
  /-- `telegram_post` is over. -/
  | posted (a : PostAnswer)
  /-- `vTaskDelay` is over. -/
  | wake

/-- The message of `notify_send`. -/
def labelled (label text : String) : String :=
  fit msgMax (if label = "" then text else label ++ ": " ++ text)

/-- `xQueueSend` with no wait. -/
def Delivery.xQueueSend (d : Delivery) (m : MsgT) : Delivery :=
  if d.queue.length < queueDepth then { d with queue := d.queue ++ [m], log := d.log ++ [.put m] }
  else { d with log := d.log ++ [.refuse m] }

/-- What follows a post that failed. -/
def Delivery.failed (d : Delivery) (m : MsgT) (attempt : Nat) : Delivery :=
  let d : Delivery := { d with log := d.log ++ [.miss m d.nowUs] }
  if attempt + 1 ≥ sendAttempts then
    { d with worker := .receiving, log := d.log ++ [.done m .gaveUp] }
  else { d with worker := .waiting m (attempt + 1) (d.nowUs + backoffMs (attempt + 1) * 1000) }

/-- **One step**, `none` for one that cannot be taken. -/
def deliveryStep (d : Delivery) : Event → Option Delivery
  | .pass us => some { d with nowUs := d.nowUs + us }
  | .reconfigure cfg => some { d with cfg := cfg }
  | .send text =>
      some (if d.cfg.enabled then
        { d with sending := d.sending ++ [⟨labelled d.label text, d.nowUs⟩] }
        else d)
  | .enqueue i =>
      match d.sending[i]? with
      | some m => some ({ d with sending := d.sending.eraseIdx i }.xQueueSend m)
      | none => none
  | .receive =>
      match d.worker, d.queue with
      | .receiving, m :: rest =>
          some { d with worker := .held m 0, queue := rest, log := d.log ++ [.take m] }
      | _, _ => none
  | .snapshot =>
      match d.worker with
      | .held m attempt =>
          some (if !d.cfg.enabled then        -- turned off while queued
              { d with worker := .receiving, log := d.log ++ [.done m .turnedOff] }
            else { d with worker := .posting m attempt d.cfg (postText m d.nowUs) d.nowUs })
      | _ => none
  | .posted a =>
      match d.worker with
      | .posting m attempt cfg text madeUs =>
          some (match telegramPost cfg a 96 with
            | .ok _ =>
                { d with
                  worker := .receiving
                  log := d.log ++ [.done m (.delivered (telegramRequest cfg text) madeUs)] }
            | .error _ => d.failed m attempt)
      | _ => none
  | .wake =>
      match d.worker with
      | .waiting m attempt untilUs =>
          if untilUs < d.nowUs + tickUs then some { d with worker := .held m attempt } else none
      | _ => none

/-! ## 3. What a step can do -/

/-- The steps, one rule for each way they can go. -/
inductive Moves (d : Delivery) : Event → Delivery → Prop
  | pass (us : Nat) : Moves d (.pass us) { d with nowUs := d.nowUs + us }
  | reconfigure (cfg : TelegramConfig) : Moves d (.reconfigure cfg) { d with cfg := cfg }
  | send (text : String) : Moves d (.send text)
      { d with sending := d.sending ++ [⟨labelled d.label text, d.nowUs⟩] }
  | sendOff (text : String) : Moves d (.send text) d
  | enqueued (i : Nat) (m : MsgT) (hm : d.sending[i]? = some m)
      (room : d.queue.length < queueDepth) :
      Moves d (.enqueue i)
        { d with
          sending := d.sending.eraseIdx i
          queue := d.queue ++ [m]
          log := d.log ++ [.put m] }
  | refused (i : Nat) (m : MsgT) (hm : d.sending[i]? = some m)
      (full : queueDepth ≤ d.queue.length) :
      Moves d (.enqueue i)
        { d with sending := d.sending.eraseIdx i, log := d.log ++ [.refuse m] }
  | receive (m : MsgT) (rest : List MsgT) (idle : d.worker = .receiving)
      (hq : d.queue = m :: rest) :
      Moves d .receive
        { d with worker := .held m 0, queue := rest, log := d.log ++ [.take m] }
  | turnedOff (m : MsgT) (attempt : Nat) (hw : d.worker = .held m attempt)
      (off : d.cfg.enabled = false) :
      Moves d .snapshot { d with worker := .receiving, log := d.log ++ [.done m .turnedOff] }
  | snapshot (m : MsgT) (attempt : Nat) (hw : d.worker = .held m attempt)
      (on : d.cfg.enabled = true) :
      Moves d .snapshot
        { d with worker := .posting m attempt d.cfg (postText m d.nowUs) d.nowUs }
  | delivered (a : PostAnswer) (m : MsgT) (attempt : Nat) (cfg : TelegramConfig) (text : String)
      (madeUs : Int) (hw : d.worker = .posting m attempt cfg text madeUs)
      (ok : telegramPost cfg a 96 = .ok ()) :
      Moves d (.posted a)
        { d with
          worker := .receiving
          log := d.log ++ [.done m (.delivered (telegramRequest cfg text) madeUs)] }
  | retry (a : PostAnswer) (m : MsgT) (attempt : Nat) (cfg : TelegramConfig) (text : String)
      (madeUs : Int) (why : String) (hw : d.worker = .posting m attempt cfg text madeUs)
      (err : telegramPost cfg a 96 = .error why) (more : attempt + 1 < sendAttempts) :
      Moves d (.posted a)
        { d with
          worker := .waiting m (attempt + 1) (d.nowUs + backoffMs (attempt + 1) * 1000)
          log := d.log ++ [.miss m d.nowUs] }
  | gaveUp (a : PostAnswer) (m : MsgT) (attempt : Nat) (cfg : TelegramConfig) (text : String)
      (madeUs : Int) (why : String) (hw : d.worker = .posting m attempt cfg text madeUs)
      (err : telegramPost cfg a 96 = .error why) (last : sendAttempts ≤ attempt + 1) :
      Moves d (.posted a)
        { d with
          worker := .receiving
          log := d.log ++ [.miss m d.nowUs] ++ [.done m .gaveUp] }
  | wake (m : MsgT) (attempt : Nat) (untilUs : Int) (hw : d.worker = .waiting m attempt untilUs)
      (due : untilUs < d.nowUs + tickUs) :
      Moves d .wake { d with worker := .held m attempt }

/-- **A step is one of these.** -/
theorem moves_of_step {d d' : Delivery} {e : Event} (h : deliveryStep d e = some d') :
    Moves d e d' := by
  cases e with
  | pass us =>
      obtain rfl := Option.some.inj h
      exact .pass us
  | reconfigure cfg =>
      obtain rfl := Option.some.inj h
      exact .reconfigure cfg
  | send text =>
      obtain rfl := Option.some.inj h
      split
      · exact .send text
      · exact .sendOff text
  | enqueue i =>
      simp only [deliveryStep] at h
      split at h
      case h_1 m hm =>
        obtain rfl := Option.some.inj h
        unfold Delivery.xQueueSend
        split
        case isTrue hroom => exact .enqueued i m hm hroom
        case isFalse hfull => exact .refused i m hm (Nat.le_of_not_lt hfull)
      case h_2 => cases h
  | receive =>
      simp only [deliveryStep] at h
      split at h
      case h_1 m rest hw hq =>
        obtain rfl := Option.some.inj h
        exact .receive m rest hw hq
      case h_2 => cases h
  | snapshot =>
      simp only [deliveryStep] at h
      split at h
      case h_1 m attempt hw =>
        obtain rfl := Option.some.inj h
        cases hon : d.cfg.enabled with
        | false => exact .turnedOff m attempt hw hon
        | true => exact .snapshot m attempt hw hon
      case h_2 => cases h
  | posted a =>
      simp only [deliveryStep] at h
      split at h
      case h_1 m attempt cfg text madeUs hw =>
        obtain rfl := Option.some.inj h
        cases hpost : telegramPost cfg a 96 with
        | ok u => exact .delivered a m attempt cfg text madeUs hw hpost
        | error why =>
            simp only [Delivery.failed]
            split
            case isTrue hlast => exact .gaveUp a m attempt cfg text madeUs why hw hpost hlast
            case isFalse hmore =>
              exact .retry a m attempt cfg text madeUs why hw hpost (Nat.lt_of_not_le hmore)
      case h_2 => cases h
  | wake =>
      simp only [deliveryStep] at h
      split at h
      case h_1 m attempt untilUs hw =>
        split at h
        case isTrue hdue =>
          obtain rfl := Option.some.inj h
          exact .wake m attempt untilUs hw hdue
        case isFalse => cases h
      case h_2 => cases h

/-! ## 4. One fate each, in order -/

/-- The message the worker is at. -/
def Worker.msg : Worker → Option MsgT
  | .receiving => none
  | .held m _ => some m
  | .posting m _ _ _ _ => some m
  | .waiting m _ _ => some m

/-- The history is that of a queue with one worker, and the state is what it comes to. -/
structure Sound (d : Delivery) : Prop where
  lawful : Lawful queueDepth d.log
  queue : waitingOf d.log = d.queue
  held : heldOf d.log = d.worker.msg

theorem sound_start (cfg : TelegramConfig) (label : String) (nowUs : Int) :
    Sound (.start cfg label nowUs) := ⟨eachMoment_nil _, rfl, rfl⟩

theorem sound_step {d d' : Delivery} {e : Event} (h : Sound d) (hs : deliveryStep d e = some d') :
    Sound d' := by
  obtain ⟨hlaw, hqueue, hheld⟩ := h
  cases moves_of_step hs with
  | pass us => exact ⟨hlaw, hqueue, hheld⟩
  | reconfigure cfg => exact ⟨hlaw, hqueue, hheld⟩
  | send text => exact ⟨hlaw, hqueue, hheld⟩
  | sendOff text => exact ⟨hlaw, hqueue, hheld⟩
  | enqueued i m hm room =>
      refine ⟨eachMoment_snoc_iff.mpr ⟨hlaw, ?_⟩, ?_, ?_⟩
      · rw [← hqueue] at room
        exact room
      · rw [waitingOf_snoc, hqueue]
        rfl
      · rw [heldOf_snoc]
        exact hheld
  | refused i m hm full =>
      refine ⟨eachMoment_snoc_iff.mpr ⟨hlaw, ?_⟩, ?_, ?_⟩
      · rw [← hqueue] at full
        exact full
      · rw [waitingOf_snoc]
        exact hqueue
      · rw [heldOf_snoc]
        exact hheld
  | receive m rest idle hq =>
      refine ⟨eachMoment_snoc_iff.mpr ⟨hlaw, ?_, ?_⟩, ?_, ?_⟩
      · rw [hqueue, hq]
        rfl
      · rw [hheld, idle]
        rfl
      · rw [waitingOf_snoc, hqueue, hq]
        rfl
      · rw [heldOf_snoc]
        rfl
  | turnedOff m attempt hw off =>
      rw [hw] at hheld
      refine ⟨eachMoment_snoc_iff.mpr ⟨hlaw, hheld⟩, ?_, ?_⟩
      · rw [waitingOf_snoc]
        exact hqueue
      · rw [heldOf_snoc]
        rfl
  | snapshot m attempt hw on =>
      rw [hw] at hheld
      exact ⟨hlaw, hqueue, hheld⟩
  | delivered a m attempt cfg text madeUs hw ok =>
      rw [hw] at hheld
      refine ⟨eachMoment_snoc_iff.mpr ⟨hlaw, hheld⟩, ?_, ?_⟩
      · rw [waitingOf_snoc]
        exact hqueue
      · rw [heldOf_snoc]
        rfl
  | retry a m attempt cfg text madeUs why hw err more =>
      rw [hw] at hheld
      refine ⟨eachMoment_snoc_iff.mpr ⟨hlaw, hheld⟩, ?_, ?_⟩
      · rw [waitingOf_snoc]
        exact hqueue
      · rw [heldOf_snoc]
        exact hheld
  | gaveUp a m attempt cfg text madeUs why hw err last =>
      rw [hw] at hheld
      have hmiss : Lawful queueDepth (d.log ++ [.miss m d.nowUs]) :=
        eachMoment_snoc_iff.mpr ⟨hlaw, hheld⟩
      refine ⟨eachMoment_snoc_iff.mpr ⟨hmiss, ?_⟩, ?_, ?_⟩
      · show heldOf (d.log ++ [.miss m d.nowUs]) = some m
        rw [heldOf_snoc]
        exact hheld
      · rw [waitingOf_snoc, waitingOf_snoc]
        exact hqueue
      · rw [heldOf_snoc]
        rfl
  | wake m attempt untilUs hw due =>
      rw [hw] at hheld
      exact ⟨hlaw, hqueue, hheld⟩

/-- A run from a started notifier. -/
abbrev Runs (cfg : TelegramConfig) (label : String) (nowUs : Int) (es : List Event) (d : Delivery) :
    Prop :=
  StepMachine.run deliveryStep (.start cfg label nowUs) es = some d

/-! The mains fail and take the router with them: the first post finds no network. -/

def homeConfig : TelegramConfig := ⟨true, "1:A", "7", by decide, by decide⟩

/-- The answer of a server that takes the message, and of a network that is not there. -/
def takenAnswer : PostAnswer := ⟨true, true, true, none, 200, ""⟩
def noNetwork : PostAnswer := ⟨true, true, true, some "ESP_ERR_HTTP_CONNECT", 0, ""⟩

def lateRun : List Event :=
  [.send "Mains lost", .enqueue 0, .receive, .snapshot, .posted noNetwork, .pass 100000000, .wake,
   .snapshot, .posted takenAnswer]

def lostMsg : MsgT := ⟨"ups: Mains lost", 0⟩

def lateRequest : TelegramRequest := telegramRequest homeConfig "ups: Mains lost (1 min ago)"

def lateEnd : Delivery :=
  ⟨homeConfig, "ups", [], [], .receiving, 100000000,
    [.put lostMsg, .take lostMsg, .miss lostMsg 0,
    .done lostMsg (.delivered lateRequest 100000000)]⟩

theorem lateRun_ends : Runs homeConfig "ups" 0 lateRun lateEnd := by rfl

section Whole

variable {cfg : TelegramConfig} {label : String} {nowUs : Int} {es : List Event} {d : Delivery}

theorem sound_run (h : Runs cfg label nowUs es d) : Sound d :=
  StepMachine.run_inv deliveryStep (fun _ _ _ hd hs => sound_step hd hs)
    (sound_start cfg label nowUs) h

/-- **Every message that got into the queue has one fate at most**: what was put is, in this order,
    what has its fate, what the worker is at, and what waits, which is never more than six. -/
theorem fates_in_order (h : Runs cfg label nowUs es d) :
    putsOf d.log = (fatesOf d.log).map Prod.fst ++ (d.worker.msg.toList ++ d.queue) ∧
      d.queue.length ≤ queueDepth := by
  have hsound := sound_run h
  have hputs := puts_eq hsound.lawful
  unfold owedOf at hputs
  rw [hsound.held, hsound.queue] at hputs
  refine ⟨hputs, ?_⟩
  rw [← hsound.queue]
  exact waiting_le hsound.lawful

theorem fates_in_order_late : putsOf lateEnd.log = (fatesOf lateEnd.log).map Prod.fst ++
    (lateEnd.worker.msg.toList ++ lateEnd.queue) ∧ lateEnd.queue.length ≤ queueDepth :=
  fates_in_order lateRun_ends

end Whole

end NutBluetti.Notify
