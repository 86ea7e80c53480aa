/-
  File:      NutBluetti/Notify/RepeatGuard.lean
  Subject:   THE REPEAT GUARD over whole runs of `notify_ups_status`: what it keeps out of the chat.

  * `guardInv_run` -- the state the guard remembers is always the power state itself, so no change
    is ever a repeat to it;
  * `changes` -- the changes of the power state that a sequence of statuses shows, each with the
    event it is, where its alert is on and the queue has room;
  * **`powerMessages_run`** -- a message is queued for every one of them: nothing is held back;
  * **`messages_spaced_iff`** -- so no event is told twice within a minute exactly when the statuses
    show none twice within a minute.
-/
import NutBluetti.Notify.Alerts

namespace NutBluetti.Notify

open CText

/-! ## 1. Changes -/

/-- The event a change of the power state is; none for the first state seen and for no change. -/
def eventOf : PowerState → PowerState → Option PowerEvent
  | .line, .battery => some .mainsLost
  | .battery, .line => some .mainsRestored
  | .line, .offline => some .contactLost
  | .battery, .offline => some .contactLost
  | .offline, .line => some .unitBack
  | .offline, .battery => some .unitBack
  | _, _ => none

/-- The alert for an event is switched on. -/
def NotifyConfig.alertOn (cfg : NotifyConfig) : PowerEvent → Bool
  | .mainsLost => cfg.onPower
  | .mainsRestored => cfg.onPower
  | .contactLost => cfg.onLink
  | .unitBack => cfg.onLink

/-- The power state after a call, by its status. -/
def nextPower (was : PowerState) (c : StatusCall) : PowerState :=
  if c.cfg.enabled then (powerOf c.status).getD was else was

/-- What a call shows: the event of its change, with its alert on and room in the queue. -/
def change (was : PowerState) (c : StatusCall) : List (PowerEvent × Int) :=
  match eventOf was (nextPower was c) with
  | some ev => if c.cfg.alertOn ev && c.room (.power ev) then [(ev, c.nowUs)] else []
  | none => []

/-- What a sequence of calls shows, by the statuses alone. -/
def changes : PowerState → List StatusCall → List (PowerEvent × Int)
  | _, [] => []
  | was, c :: cs => change was c ++ changes (nextPower was c) cs

/-- No event comes twice within the window. -/
def SpacedOut (l : List (PowerEvent × Int)) : Prop :=
  l.Pairwise fun a b => a.1 = b.1 → repeatGuardUs ≤ b.2 - a.2

instance (l : List (PowerEvent × Int)) : Decidable (SpacedOut l) :=
  inferInstanceAs (Decidable (List.Pairwise _ l))

theorem eventOf_self (s : PowerState) : eventOf s s = none := by
  cases s <;> rfl

theorem eventOf_unknown (s : PowerState) : eventOf .unknown s = none := by
  cases s <;> rfl

theorem powerOf_ne_unknown {status : String} {now : PowerState} (h : powerOf status = some now) :
    now ≠ .unknown := by
  unfold powerOf at h
  split at h
  · cases h
  · split at h
    · obtain rfl := Option.some.inj h
      simp
    · split at h
      · obtain rfl := Option.some.inj h
        simp
      · split at h
        · obtain rfl := Option.some.inj h
          simp
        · cases h

/-- The message of a change is the one of its event, where that alert is on. -/
theorem powerAlert_event (c : StatusCall) {was now : PowerState} (hne : now ≠ was)
    (hwas : was ≠ .unknown) : (powerAlert c was now).map Prod.fst =
      (eventOf was now).bind fun ev => if c.cfg.alertOn ev then some ev else none := by
  cases was with
  | unknown => exact absurd rfl hwas
  | line =>
      cases now with
      | line => exact absurd rfl hne
      | unknown => rfl
      | battery => cases h : c.cfg.onPower <;> simp [powerAlert, eventOf, NotifyConfig.alertOn, h]
      | offline => cases h : c.cfg.onLink <;> simp [powerAlert, eventOf, NotifyConfig.alertOn, h]
  | battery =>
      cases now with
      | battery => exact absurd rfl hne
      | unknown => rfl
      | line => cases h : c.cfg.onPower <;> simp [powerAlert, eventOf, NotifyConfig.alertOn, h]
      | offline => cases h : c.cfg.onLink <;> simp [powerAlert, eventOf, NotifyConfig.alertOn, h]
  | offline =>
      cases now with
      | offline => exact absurd rfl hne
      | unknown => rfl
      | line => cases h : c.cfg.onLink <;> simp [powerAlert, eventOf, NotifyConfig.alertOn, h]
      | battery => cases h : c.cfg.onLink <;> simp [powerAlert, eventOf, NotifyConfig.alertOn, h]

/-! ## 2. One call -/

/-- What the guard remembers is the power state, from the first change on. -/
def GuardInv (N : Notifier) : Prop :=
  N.lastEventState = .unknown ∨ N.lastEventState = N.power

/-- The events the queue was told of, with their times. -/
def powerMessages (N : Notifier) : List (PowerEvent × Int) :=
  N.queued.filterMap fun m =>
    match m.alert with
    | .power ev => some (ev, m.queuedUs)
    | _ => none

section Call

variable {N : Notifier} {c : StatusCall} {now : PowerState}

/-- **The guard never refuses a change.** -/
theorem guardAllows_change (hI : GuardInv N) (hne : now ≠ N.power) (hknown : now ≠ .unknown)
    (nowUs : Int) :
    guardAllows N now nowUs = (true, { N with lastEventState := now, lastEventUs := nowUs }) := by
  have hno : ¬ (now = N.lastEventState ∧ nowUs - N.lastEventUs < repeatGuardUs) := by
    rintro ⟨hlast, -⟩
    rcases hI with h | h
    · exact hknown (hlast.trans h)
    · exact hne (hlast.trans h)
  rw [guardAllows, if_neg hno]

/-- A message leaves all but the queue as it is. -/
theorem notifySend_frame (N : Notifier) (c : StatusCall) (alert : Alert) (text : String) :
    (notifySend N c alert text).power = N.power ∧
      (notifySend N c alert text).lastEventState = N.lastEventState := by
  unfold notifySend
  split <;> exact ⟨rfl, rfl⟩

theorem powerMessages_send (N : Notifier) (c : StatusCall) (ev : PowerEvent) (text : String) :
    powerMessages (notifySend N c (.power ev) text) =
      powerMessages N ++ if c.room (.power ev) then [(ev, c.nowUs)] else [] := by
  unfold notifySend
  split <;> simp [powerMessages]

theorem powerMessages_send_other (N : Notifier) (c : StatusCall) {alert : Alert} (text : String)
    (h : ∀ ev, alert ≠ .power ev) :
    powerMessages (notifySend N c alert text) = powerMessages N := by
  unfold notifySend
  split
  · cases alert with
    | power ev => exact absurd rfl (h ev)
    | low => simp [powerMessages]
    | notLow => simp [powerMessages]
    | reminder => simp [powerMessages]
  · rfl

/-- What the edges beside the mains leave alone. -/
structure SamePower (N N' : Notifier) : Prop where
  power : N'.power = N.power
  last : N'.lastEventState = N.lastEventState
  messages : powerMessages N' = powerMessages N

theorem SamePower.trans {N N' N'' : Notifier} (h : SamePower N N') (h' : SamePower N' N'') :
    SamePower N N'' :=
  ⟨h'.power.trans h.power, h'.last.trans h.last, h'.messages.trans h.messages⟩

theorem samePower_send (N : Notifier) (c : StatusCall) {alert : Alert} (text : String)
    (h : ∀ ev, alert ≠ .power ev) : SamePower N (notifySend N c alert text) :=
  ⟨(notifySend_frame N c alert text).1, (notifySend_frame N c alert text).2,
    powerMessages_send_other N c text h⟩

theorem samePower_sendIf (N : Notifier) (c : StatusCall) {alert : Alert} (text : String)
    (h : ∀ ev, alert ≠ .power ev) (b : Bool) :
    SamePower N (if b then notifySend N c alert text else N) := by
  split
  · exact samePower_send N c text h
  · exact ⟨rfl, rfl, rfl⟩

theorem samePower_lowEdge (N : Notifier) (c : StatusCall) (now : PowerState) (low : Bool) :
    SamePower N (lowEdge N c now low) := by
  have hlow : ∀ ev, Alert.low ≠ .power ev := fun ev => by simp
  have hnot : ∀ ev, Alert.notLow ≠ .power ev := fun ev => by simp
  unfold lowEdge
  exact (samePower_sendIf N c _ hlow _).trans (samePower_sendIf _ c _ hnot _)

theorem samePower_reminder (N : Notifier) (c : StatusCall) (now : PowerState) :
    SamePower N (reminder N c now) := by
  have hdecile : ∀ d, SamePower N { N with battDecile := d } := fun d => ⟨rfl, rfl, rfl⟩
  unfold reminder
  split
  · simp only
    split
    · exact hdecile _
    · split
      · exact (hdecile _).trans (samePower_send _ c _ (by simp))
      · exact ⟨rfl, rfl, rfl⟩
  · split
    · exact hdecile _
    · exact ⟨rfl, rfl, rfl⟩

/-- **The change of the power state**: whatever it is, its message goes to the queue. -/
theorem powerEdge_spec (hI : GuardInv N) (hknown : now ≠ .unknown) :
    (powerEdge N c now).power = N.power ∧
      ((powerEdge N c now).lastEventState = now ∨
        (powerEdge N c now).lastEventState = .unknown) ∧
      powerMessages (powerEdge N c now) = powerMessages N ++
        (match eventOf N.power now with
        | some ev => if c.cfg.alertOn ev && c.room (.power ev) then [(ev, c.nowUs)] else []
        | none => []) := by
  by_cases hch : now ≠ N.power ∧ N.power ≠ .unknown
  · obtain ⟨hne, hwas⟩ := hch
    have hev := powerAlert_event c hne hwas
    unfold powerEdge
    rw [if_pos ⟨hne, hwas⟩]
    simp only [guardAllows_change hI hne hknown c.nowUs, if_true]
    cases hp : powerAlert c N.power now with
    | none =>
        rw [hp] at hev
        refine ⟨rfl, .inl rfl, ?_⟩
        cases he : eventOf N.power now with
        | none => simp [powerMessages]
        | some ev =>
            cases hon : c.cfg.alertOn ev with
            | false => simp [powerMessages, hon]
            | true => simp [he, hon] at hev
    | some p =>
        obtain ⟨ev, text⟩ := p
        rw [hp] at hev
        cases he : eventOf N.power now with
        | none => simp [he] at hev
        | some ev' =>
            have hon : c.cfg.alertOn ev' = true ∧ ev = ev' := by
              by_cases hon : c.cfg.alertOn ev' = true
              · simp [he, hon] at hev
                exact ⟨hon, hev⟩
              · simp [he, hon] at hev
            obtain ⟨hon, rfl⟩ := hon
            have hfr := notifySend_frame
              { N with lastEventState := now, lastEventUs := c.nowUs } c (.power ev) text
            refine ⟨hfr.1, .inl hfr.2, ?_⟩
            simp only [powerMessages_send, hon, Bool.true_and]
            rfl
  · have hsame : powerEdge N c now = N := by
      unfold powerEdge
      rw [if_neg hch]
    have hstill : N.power = .unknown ∨ now = N.power := by
      by_cases hwas : N.power = .unknown
      · exact .inl hwas
      · exact .inr (Classical.byContradiction fun hne => hch ⟨hne, hwas⟩)
    have hnone : eventOf N.power now = none := by
      rcases hstill with hwas | rfl
      · rw [hwas, eventOf_unknown]
      · rw [eventOf_self]
    rw [hsame, hnone]
    refine ⟨rfl, ?_, by simp⟩
    rcases hI with h | h
    · exact .inr h
    · rcases hstill with hwas | hwas
      · exact .inr (h.trans hwas)
      · exact .inl (h.trans hwas.symm)

/-- **One call**: the guard's invariant is kept, and what the call shows is queued. -/
theorem notifyUpsStatus_spec (hI : GuardInv N) (c : StatusCall) :
    GuardInv (notifyUpsStatus N c) ∧ (notifyUpsStatus N c).power = nextPower N.power c ∧
      powerMessages (notifyUpsStatus N c) = powerMessages N ++ change N.power c := by
  unfold notifyUpsStatus change nextPower
  cases hen : c.cfg.enabled with
  | false => simp [eventOf_self, hI]
  | true =>
      cases hst : powerOf c.status with
      | none => simp [eventOf_self, hI]
      | some now =>
          obtain ⟨-, hlast, hmsg⟩ := powerEdge_spec (c := c) hI (powerOf_ne_unknown hst)
          have hsame := (samePower_lowEdge (powerEdge N c now) c now
            (strstr "LB".toList c.status.toList)).trans (samePower_reminder _ c now)
          simp only [Bool.not_true, Bool.false_eq_true, if_false, if_true, Option.getD_some]
          refine ⟨?_, trivial, ?_⟩
          · rcases hlast with h | h
            · exact .inr (hsame.last.trans h)
            · exact .inl (hsame.last.trans h)
          · exact hsame.messages.trans hmsg

end Call

/-! ## 3. Whole runs -/

theorem guardInv_start (label : String) : GuardInv (notifyStart label) := .inl rfl

theorem runCalls_spec {N : Notifier} (hI : GuardInv N) (cs : List StatusCall) :
    GuardInv (runCalls N cs) ∧
      powerMessages (runCalls N cs) = powerMessages N ++ changes N.power cs := by
  induction cs generalizing N with
  | nil => exact ⟨hI, by simp [runCalls, changes]⟩
  | cons c cs ih =>
      obtain ⟨hI', hpower, hmsg⟩ := notifyUpsStatus_spec hI c
      obtain ⟨hI'', hrest⟩ := ih hI'
      refine ⟨hI'', ?_⟩
      rw [runCalls, List.foldl_cons, ← runCalls, hrest, hmsg, hpower, changes, List.append_assoc]

/-- **Every change is told**: from a started notifier, the messages about the power state are those
    of all the changes the statuses show. -/
theorem powerMessages_run (label : String) (cs : List StatusCall) :
    powerMessages (runCalls (notifyStart label) cs) = changes .unknown cs := by
  rw [(runCalls_spec (guardInv_start label) cs).2]
  rfl

/-- **When no event is told twice within a minute**: exactly when the statuses show none twice
    within a minute, its alert on and the queue with room at both. -/
theorem messages_spaced_iff (label : String) (cs : List StatusCall) :
    SpacedOut (powerMessages (runCalls (notifyStart label) cs)) ↔
    SpacedOut (changes .unknown cs) := by
  rw [powerMessages_run]

/-! A supply that flaps: on mains, then lost, back and lost again within three seconds. -/

def alertsOn : NotifyConfig := ⟨true, true, true, true, false⟩

def statusAt (status : String) (seconds : Int) : StatusCall :=
  ⟨alertsOn, status, 80, 120, seconds * 1000000, fun _ => true⟩

def flapping : List StatusCall :=
  [statusAt "OL" 0, statusAt "OB DISCHRG" 1, statusAt "OL CHRG" 2, statusAt "OB DISCHRG" 3]

/-- **Flapping fills the chat**: two messages that the mains is lost, two seconds apart. -/
theorem flapping_told_twice :
    powerMessages (runCalls (notifyStart "ups") flapping) =
      [(.mainsLost, 1000000), (.mainsRestored, 2000000), (.mainsLost, 3000000)] ∧
    ¬ SpacedOut (powerMessages (runCalls (notifyStart "ups") flapping)) := by
  have hmsg : powerMessages (runCalls (notifyStart "ups") flapping) =
      [(.mainsLost, 1000000), (.mainsRestored, 2000000), (.mainsLost, 3000000)] := by
    rw [powerMessages_run]
    decide
  refine ⟨hmsg, ?_⟩
  rw [hmsg]
  decide

end NutBluetti.Notify
