/-
  File:      NutBluetti/Wifi/Station.lean
  Subject:   THE WI-FI STATION (wifi_mgr.c): connecting, the retry timer, and the events of the
             driver, as a machine whose steps come in any order.

  `attempt` is the driver's side: a call of `esp_wifi_connect` that succeeded is under way until the
  driver reports a disconnect or a lease; one that failed is followed by nothing. The access point
  is here as far as its start and stop touch the station; addresses, the scan and the supervisor
  that raises the fallback AP are left out.

  * `trying_step_iff` -- when a step keeps the chain of attempts going;
  * **`backoff_bounds`** -- the delay between two attempts is at most half a minute;
  * `Trying` -- a station that is to connect and has no lease has an attempt under way or its retry
    timer armed;
  * **`never_gives_up_iff`** -- along any run that is so throughout exactly when no call of
    `esp_wifi_connect` fails with nothing else under way: nobody looks at its result.
-/
import NutBluetti.Lib.StepMachine

namespace NutBluetti.Wifi

open StepMachine

/-! ## 1. The station -/

def maxRetry : Nat := 8
def backoffMinMs : Nat := 1000
def backoffMaxMs : Nat := 30000

/-- The statics of wifi_mgr.c that the station uses, and the attempt under way. -/
structure Station where
  wantConnect : Bool
  /-- `BIT_CONNECTED`: the station holds a lease. -/
  connected : Bool
  /-- `BIT_FAILED`. -/
  failed : Bool
  retries : Nat
  backoffMs : Nat
  /-- `s_retry_timer` was created. -/
  hasTimer : Bool
  timerArmed : Bool
  ip : String
  apUp : Bool
  attempt : Bool
  deriving DecidableEq, Repr

/-- After `wifi_mgr_init`. -/
def Station.init : Station :=
  ⟨false, false, false, 0, backoffMinMs, false, false, "0.0.0.0", false, false⟩

/-- `esp_wifi_connect`, successful or not. -/
def espWifiConnect (s : Station) (ok : Bool) : Station :=
  if ok then { s with attempt := true } else s

/-- `s_backoff_ms` doubled, up to its bound. -/
def nextBackoff (ms : Nat) : Nat := if ms < backoffMaxMs then min (ms * 2) backoffMaxMs else ms

/-- `reconnect_later`; the timer is created at its first call, if that succeeds. -/
def reconnectLater (s : Station) (createOk connectOk : Bool) : Station :=
  if !s.hasTimer && !createOk then espWifiConnect s connectOk    -- no timer: at least try once
  else { s with hasTimer := true, timerArmed := true, backoffMs := nextBackoff s.backoffMs }

/-- `s_retries` after a disconnect. Reaching the bound unblocks a waiting `wifi_mgr_sta_connect`;
    the retries go on. -/
def countRetry (s : Station) : Station :=
  { s with
    retries := s.retries + 1
    failed := s.failed || decide (s.retries + 1 = maxRetry) }

inductive WifiEvent where
  /-- `wifi_mgr_sta_connect`, up to its wait. -/
  | staConnect (connectOk : Bool)
  /-- `retry_timer_cb`. -/
  | retryTimer (connectOk : Bool)
  /-- `WIFI_EVENT_STA_START`. -/
  | staStart (connectOk : Bool)
  /-- `WIFI_EVENT_STA_DISCONNECTED`. -/
  | staDisconnected (createOk connectOk : Bool)
  /-- `IP_EVENT_STA_GOT_IP`. -/
  | gotIp (ip : String)
  /-- `wifi_mgr_ap_start`. -/
  | apStart
  /-- `wifi_mgr_ap_stop`. -/
  | apStop (connectOk : Bool)
  deriving DecidableEq, Repr

/-- **One step**, `none` for a timer that fires without being armed. -/
def step (s : Station) : WifiEvent → Option Station
  | .staConnect connectOk =>
      let s := { s with
        connected := false, failed := false, retries := 0, backoffMs := backoffMinMs
        wantConnect := true }
      some (espWifiConnect s connectOk)
  | .retryTimer connectOk =>
      if !s.timerArmed then none
      else
        let s := { s with timerArmed := false }
        some (if s.wantConnect then espWifiConnect s connectOk else s)
  | .staStart connectOk => some (if s.wantConnect then espWifiConnect s connectOk else s)
  | .staDisconnected createOk connectOk =>
      let s := { s with ip := "0.0.0.0", connected := false, attempt := false }
      some (if s.wantConnect then reconnectLater (countRetry s) createOk connectOk else s)
  | .gotIp ip =>
      some { s with
        ip := ip, retries := 0, backoffMs := backoffMinMs, timerArmed := false, failed := false
        connected := true, attempt := false }
  | .apStart => some { s with apUp := true }
  | .apStop connectOk =>
      let s := { s with apUp := false }
      some (if s.wantConnect then
          espWifiConnect { s with retries := 0, backoffMs := backoffMinMs, failed := false }
            connectOk
        else s)

/-! ## 2. What keeps the chain going -/

/-- A station that is to connect and has no lease has an attempt under way or its timer armed. -/
def Trying (s : Station) : Prop :=
  s.wantConnect = true → s.connected = false → s.attempt = true ∨ s.timerArmed = true

/-- A call of `esp_wifi_connect` fails, and nothing else would bring the station back: no lease, no
    other attempt, no timer armed by then. -/
def FailsAlone (s : Station) : WifiEvent → Prop
  | .staConnect connectOk => connectOk = false ∧ s.attempt = false ∧ s.timerArmed = false
  | .retryTimer connectOk =>
      s.timerArmed = true ∧ s.wantConnect = true ∧ connectOk = false ∧ s.connected = false ∧
        s.attempt = false
  | .staStart connectOk =>
      s.wantConnect = true ∧ connectOk = false ∧ s.connected = false ∧ s.attempt = false ∧
        s.timerArmed = false
  | .staDisconnected createOk connectOk =>
      s.wantConnect = true ∧ s.hasTimer = false ∧ createOk = false ∧ connectOk = false ∧
        s.timerArmed = false
  | .apStop connectOk =>
      s.wantConnect = true ∧ connectOk = false ∧ s.connected = false ∧ s.attempt = false ∧
        s.timerArmed = false
  | .gotIp _ => False
  | .apStart => False

instance (s : Station) : Decidable (Trying s) := inferInstanceAs (Decidable (_ → _))

@[simp] theorem espWifiConnect_attempt (s : Station) (ok : Bool) :
    (espWifiConnect s ok).attempt = (s.attempt || ok) := by
  cases ok <;> simp [espWifiConnect]

@[simp] theorem espWifiConnect_wantConnect (s : Station) (ok : Bool) :
    (espWifiConnect s ok).wantConnect = s.wantConnect := by
  cases ok <;> rfl

@[simp] theorem espWifiConnect_connected (s : Station) (ok : Bool) :
    (espWifiConnect s ok).connected = s.connected := by
  cases ok <;> rfl

@[simp] theorem espWifiConnect_timerArmed (s : Station) (ok : Bool) :
    (espWifiConnect s ok).timerArmed = s.timerArmed := by
  cases ok <;> rfl

@[simp] theorem espWifiConnect_backoffMs (s : Station) (ok : Bool) :
    (espWifiConnect s ok).backoffMs = s.backoffMs := by
  cases ok <;> rfl

@[simp] theorem countRetry_wantConnect (s : Station) :
    (countRetry s).wantConnect = s.wantConnect := rfl

@[simp] theorem countRetry_connected (s : Station) :
    (countRetry s).connected = s.connected := rfl

@[simp] theorem countRetry_attempt (s : Station) :
    (countRetry s).attempt = s.attempt := rfl

@[simp] theorem countRetry_timerArmed (s : Station) :
    (countRetry s).timerArmed = s.timerArmed := rfl

@[simp] theorem countRetry_hasTimer (s : Station) :
    (countRetry s).hasTimer = s.hasTimer := rfl

@[simp] theorem countRetry_backoffMs (s : Station) :
    (countRetry s).backoffMs = s.backoffMs := rfl

/-- What `reconnect_later` leaves: its timer armed, or the one attempt made in its place. -/
theorem reconnectLater_cases (s : Station) (createOk connectOk : Bool) :
    ((s.hasTimer = true ∨ createOk = true) ∧
        (reconnectLater s createOk connectOk).timerArmed = true) ∨
      (s.hasTimer = false ∧ createOk = false ∧
        reconnectLater s createOk connectOk = espWifiConnect s connectOk) := by
  unfold reconnectLater
  cases hs : s.hasTimer <;> cases createOk <;> simp

/-- A call of `esp_wifi_connect` keeps the chain going where it succeeds or something else does. -/
theorem trying_espWifiConnect_iff {s : Station} (ok : Bool) :
    Trying (espWifiConnect s ok) ↔ ¬ (s.wantConnect = true ∧ ok = false ∧ s.connected = false ∧
      s.attempt = false ∧ s.timerArmed = false) := by
  unfold Trying
  simp only [espWifiConnect_wantConnect, espWifiConnect_connected, espWifiConnect_attempt,
    espWifiConnect_timerArmed]
  cases s.wantConnect <;> cases s.connected <;> cases s.attempt <;> cases s.timerArmed <;>
    cases ok <;> simp

/-- After a disconnect the chain goes on by the timer, or by the one call made in its place. -/
theorem trying_reconnectLater_iff {s : Station} (hwant : s.wantConnect = true)
    (hconn : s.connected = false) (hatt : s.attempt = false) (createOk ok : Bool) :
    Trying (reconnectLater s createOk ok) ↔
      ¬ (s.hasTimer = false ∧ createOk = false ∧ ok = false ∧ s.timerArmed = false) := by
  rcases reconnectLater_cases s createOk ok with ⟨hmade, harmed⟩ | ⟨hno, hcreate, hcall⟩
  · refine iff_of_true (fun _ _ => .inr harmed) fun hfails => ?_
    rcases hmade with hmade | hmade
    · rw [hfails.1] at hmade
      cases hmade
    · rw [hfails.2.1] at hmade
      cases hmade
  · rw [hcall, trying_espWifiConnect_iff]
    simp [hwant, hconn, hatt, hno, hcreate]

/-- **When a step keeps the chain going**: exactly when no call fails in it with nothing else under
    way. -/
theorem trying_step_iff {s : Station} (h : Trying s) (e : WifiEvent) :
    ¬ FailsAlone s e ↔ ∀ s', step s e = some s' → Trying s' := by
  cases e with
  | staConnect ok =>
      simp only [step, Option.some.injEq, forall_eq', trying_espWifiConnect_iff, FailsAlone]
      simp
  | retryTimer ok =>
      cases harmed : s.timerArmed with
      | false => simp [step, FailsAlone, harmed]
      | true =>
          cases hwant : s.wantConnect with
          | false => simp [step, FailsAlone, harmed, hwant, Trying]
          | true =>
              simp only [step, harmed, hwant, Bool.not_true, Bool.false_eq_true, if_false, if_true,
                Option.some.injEq, forall_eq', trying_espWifiConnect_iff, FailsAlone]
              simp
  | staStart ok =>
      cases hwant : s.wantConnect with
      | false => simp [step, FailsAlone, hwant, Trying]
      | true =>
          simp only [step, hwant, if_true, Option.some.injEq, forall_eq', trying_espWifiConnect_iff,
            FailsAlone]
  | staDisconnected createOk ok =>
      cases hwant : s.wantConnect with
      | false => simp [step, FailsAlone, hwant, Trying]
      | true =>
          simp only [step, hwant, if_true, Option.some.injEq, forall_eq', FailsAlone, true_and]
          rw [trying_reconnectLater_iff rfl rfl rfl]
          rfl
  | gotIp ip => simp [step, FailsAlone, Trying]
  | apStart => simpa [step, FailsAlone, Trying] using h
  | apStop ok =>
      cases hwant : s.wantConnect with
      | false => simp [step, FailsAlone, hwant, Trying]
      | true =>
          simp only [step, hwant, if_true, Option.some.injEq, forall_eq', trying_espWifiConnect_iff,
            FailsAlone]

/-! ## 3. Whole runs -/

/-- **The station never gives up**, in any run from the start, exactly when no call of
    `esp_wifi_connect` fails with no lease, no other attempt and no timer armed. -/
theorem never_gives_up_iff (es : List WifiEvent) :
    Always step Trying Station.init es ↔
      Along step (fun s e => ¬ FailsAlone s e) Station.init es := by
  refine always_iff_along step (fun s e h => trying_step_iff h e) ?_ es
  intro hwant
  cases hwant

/-- The delay before an attempt is within its bounds. -/
def BackoffOk (s : Station) : Prop := backoffMinMs ≤ s.backoffMs ∧ s.backoffMs ≤ backoffMaxMs

theorem backoffOk_min {s : Station} (h : s.backoffMs = backoffMinMs) : BackoffOk s := by
  unfold BackoffOk
  rw [h]
  decide

theorem backoffOk_next {ms : Nat} (h : backoffMinMs ≤ ms ∧ ms ≤ backoffMaxMs) :
    backoffMinMs ≤ nextBackoff ms ∧ nextBackoff ms ≤ backoffMaxMs := by
  unfold nextBackoff backoffMinMs backoffMaxMs at *
  split <;> omega

theorem backoffOk_reconnectLater {s : Station} (h : BackoffOk s) (createOk ok : Bool) :
    BackoffOk (reconnectLater s createOk ok) := by
  unfold reconnectLater
  split
  · unfold BackoffOk
    rw [espWifiConnect_backoffMs]
    exact h
  · exact backoffOk_next h

theorem backoffOk_step (s : Station) (e : WifiEvent) (s' : Station) (h : BackoffOk s)
    (hs : step s e = some s') : BackoffOk s' := by
  have hconnect : ∀ (t : Station) (ok : Bool), BackoffOk t → BackoffOk (espWifiConnect t ok) := by
    intro t ok ht
    unfold BackoffOk
    rw [espWifiConnect_backoffMs]
    exact ht
  cases e with
  | staConnect ok =>
      obtain rfl := Option.some.inj hs
      exact hconnect _ ok (backoffOk_min rfl)
  | retryTimer ok =>
      simp only [step] at hs
      split at hs
      · cases hs
      · obtain rfl := Option.some.inj hs
        split
        · exact hconnect _ ok h
        · exact h
  | staStart ok =>
      obtain rfl := Option.some.inj hs
      split
      · exact hconnect _ ok h
      · exact h
  | staDisconnected createOk ok =>
      obtain rfl := Option.some.inj hs
      split
      · refine backoffOk_reconnectLater ?_ createOk ok
        unfold BackoffOk
        rw [countRetry_backoffMs]
        exact h
      · exact h
  | gotIp ip =>
      obtain rfl := Option.some.inj hs
      exact backoffOk_min rfl
  | apStart =>
      obtain rfl := Option.some.inj hs
      exact h
  | apStop ok =>
      obtain rfl := Option.some.inj hs
      split
      · exact hconnect _ ok (backoffOk_min rfl)
      · exact h

/-- **The delay between two attempts** is from one second to half a minute, in every run. -/
theorem backoff_bounds {es : List WifiEvent} {s : Station} (h : run step Station.init es = some s) :
    BackoffOk s :=
  run_inv step backoffOk_step (backoffOk_min rfl) h

/-! The router is gone: the first attempt ends in a disconnect, and the retry fails at once. -/

def strandedRun : List WifiEvent :=
  [.staConnect true, .staDisconnected true true, .retryTimer false]

/-- **One failed call strands the station**: it is to connect, has no lease, and nothing is left
    that would try again. -/
theorem stranded_after_failed_retry :
    (∃ s, run step Station.init strandedRun = some s ∧ s.wantConnect = true ∧ s.connected = false ∧
      s.attempt = false ∧ s.timerArmed = false) ∧
    ¬ Always step Trying Station.init strandedRun := by
  have hrun : ∃ s, run step Station.init strandedRun = some s ∧ s.wantConnect = true ∧
      s.connected = false ∧ s.attempt = false ∧ s.timerArmed = false :=
    ⟨_, rfl, rfl, rfl, rfl, rfl⟩
  refine ⟨hrun, fun hall => ?_⟩
  obtain ⟨s, hs, hwant, hconn, hatt, harmed⟩ := hrun
  rcases always_run step hall hs hwant hconn with h | h
  · rw [hatt] at h
    cases h
  · rw [harmed] at h
    cases h

end NutBluetti.Wifi
