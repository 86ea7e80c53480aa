/-
  File:      NutBluetti/Wifi/Fallback.lean
  Subject:   THE FALLBACK ACCESS POINT (wifi_mgr.c): the supervisor that looks at the link every two
             seconds, beside the station and whatever else starts the access point.

  The supervisor sleeps, looks and decides, and then starts or stops the access point; the driver's
  events come in between. The access points of AP mode and of setup are started and stopped by
  app_main, before there is a supervisor. A failure of the driver in `wifi_mgr_ap_start` aborts the
  firmware, so that a run has none.

  `looks` records of each look whether the station held a lease; nothing reads it.

  * **`supervised_station`** -- a run with the supervisor is, for the station, a run of the station
    alone, whose access point is started and stopped; **`supervised_trying_iff`** -- so the station
    gives up under the supervisor exactly where it does by itself;
  * **`fallback_iff_streak`** -- in station mode the access point is up, while the supervisor
    sleeps, exactly when the looks at the end that found no lease add up to the time set, and then
    under the name and with the password set;
  * **`configured_ap_kept`** -- an access point that is not the supervisor's stays as it is, in
    every continuation.
-/
import NutBluetti.Wifi.Station
import NutBluetti.Lib.CText
import NutBluetti.Lib.History

namespace NutBluetti.Wifi.Fallback

open StepMachine CText History

/-! ## 1. The supervisor -/

def fallbackTickMs : Nat := 2000

/-- What `wifi_mgr_ap_start` sets up. -/
structure ApConfig where
  ssid : String
  secured : Bool
  pass : String
  deriving DecidableEq, Repr

/-- The access point of `wifi_mgr_ap_start`, on a board with that default name: WPA2 needs eight
    characters or more, anything shorter is treated as open. -/
def apConfig (board ssid pass : String) : ApConfig :=
  let ssid := if ssid = "" then board else ssid
  let secured := decide (8 ≤ pass.length)
  ⟨fit 32 ssid, secured, if secured then fit 64 pass else ""⟩

/-- Where `fallback_task` is: in `vTaskDelay`, or decided and about to act. -/
inductive Task where
  | sleeping
  | raising
  | dropping
  deriving DecidableEq, Repr

structure Supervised where
  sta : Station
  ap : Option ApConfig
  fbEnabled : Bool
  fbSsid : String
  fbPass : String
  fbAfterMs : Nat
  fbApUp : Bool
  fbTaskStarted : Bool
  downMs : Nat
  task : Task
  looks : List Bool
  deriving DecidableEq

/-- After `wifi_mgr_init`. -/
def Supervised.init : Supervised :=
  ⟨.init, none, false, "", "", 0, false, false, 0, .sleeping, []⟩

inductive Event where
  /-- `on_event`, the retry timer, `wifi_mgr_sta_connect`. -/
  | wifi (e : WifiEvent)
  /-- `wifi_mgr_ap_start` and `wifi_mgr_ap_stop`, called by app_main. -/
  | apStart (ssid pass : String)
  | apStop (connectOk : Bool)
  /-- `wifi_mgr_set_fallback_ap`. -/
  | setFallback (enabled : Bool) (ssid pass : String) (afterMs : Nat) (taskOk connectOk : Bool)
  /-- A tick of `fallback_task`, up to its decision. -/
  | look
  /-- The supervisor's `wifi_mgr_ap_start` and `wifi_mgr_ap_stop`. -/
  | raise
  | drop (connectOk : Bool)
  deriving DecidableEq

/-- What concerns the access point is not the driver's. -/
def ofDriver : WifiEvent → Bool
  | .apStart => false
  | .apStop _ => false
  | _ => true

/-- `wifi_mgr_ap_start`. -/
def Supervised.apStart (s : Supervised) (board ssid pass : String) : Supervised :=
  { s with sta := { s.sta with apUp := true }, ap := some (apConfig board ssid pass) }

/-- `wifi_mgr_ap_stop`. -/
def Supervised.apStop (s : Supervised) (connectOk : Bool) : Supervised :=
  { s with sta := (step s.sta (.apStop connectOk)).getD s.sta, ap := none }

/-- An access point that is not the supervisor's owns the radio. -/
def Supervised.foreignAp (s : Supervised) : Bool := s.sta.apUp && !s.fbApUp

/-- One turn of `fallback_task`, up to its decision. -/
def look (s : Supervised) : Supervised :=
  let seen := { s with looks := s.looks ++ [s.sta.connected] }
  if !s.fbEnabled || s.foreignAp then { seen with downMs := 0 }
  else if s.sta.connected then
    if s.fbApUp then { seen with downMs := 0, fbApUp := false, task := .dropping }
    else { seen with downMs := 0 }
  else if s.fbApUp then seen                  -- already up, still waiting
  else
    let downMs := (s.downMs + fallbackTickMs) % 2 ^ 32
    if downMs < s.fbAfterMs then { seen with downMs := downMs }
    else { seen with downMs := downMs, task := .raising }

/-- `wifi_mgr_set_fallback_ap`. -/
def setFallback (board : String) (s : Supervised) (enabled : Bool) (ssid pass : String)
    (afterMs : Nat)
    (taskOk connectOk : Bool) : Supervised :=
  let s := { s with
    fbSsid := fit 33 (if ssid = "" then board else ssid)
    fbPass := fit 65 pass
    fbAfterMs := if afterMs = 0 then 60000 else afterMs
    fbEnabled := enabled }
  if !enabled then
    if s.fbApUp then { s with fbApUp := false }.apStop connectOk else s
  else if !s.fbTaskStarted then
    if !taskOk then { s with fbEnabled := false } else { s with fbTaskStarted := true }
  else s

/-- **One step**, `none` for one that cannot be taken. -/
def fallbackStep (board : String) (s : Supervised) : Event → Option Supervised
  | .wifi e => if ofDriver e then (step s.sta e).map fun sta => { s with sta := sta } else none
  | .apStart ssid pass => if s.fbTaskStarted then none else some (s.apStart board ssid pass)
  | .apStop connectOk => if s.fbTaskStarted then none else some (s.apStop connectOk)
  | .setFallback enabled ssid pass afterMs taskOk connectOk =>
      some (setFallback board s enabled ssid pass afterMs taskOk connectOk)
  | .look => if s.fbTaskStarted ∧ s.task = .sleeping then some (look s) else none
  | .raise =>
      if s.task = .raising then
        some { s.apStart board s.fbSsid s.fbPass with fbApUp := true, task := .sleeping }
      else none
  | .drop connectOk =>
      if s.task = .dropping then some { s.apStop connectOk with task := .sleeping } else none

/-! ## 2. The station under the supervisor -/

/-- What a step is to the station. -/
def wifiOf (s : Supervised) : Event → Option WifiEvent
  | .wifi e => some e
  | .apStart _ _ => some .apStart
  | .apStop connectOk => some (.apStop connectOk)
  | .setFallback enabled _ _ _ _ connectOk => if !enabled && s.fbApUp then some (.apStop connectOk)
      else none
  | .look => none
  | .raise => some .apStart
  | .drop connectOk => some (.apStop connectOk)

/-- What a run is to the station. -/
def wifiEvents (board : String) (s : Supervised) : List Event → List WifiEvent
  | [] => []
  | e :: es =>
      match fallbackStep board s e with
      | none => []
      | some s' => (wifiOf s e).toList ++ wifiEvents board s' es

section Station

variable {board : String} {s s' : Supervised}

theorem apStop_sta (s : Supervised) (ok : Bool) :
    step s.sta (.apStop ok) = some (s.apStop ok).sta := rfl

theorem look_sta (s : Supervised) : (look s).sta = s.sta := by
  unfold look
  split
  · rfl
  · split
    · split <;> rfl
    · split
      · rfl
      · dsimp only
        split <;> rfl

theorem setFallback_sta (s : Supervised) (enabled : Bool) (ssid pass : String) (afterMs : Nat)
    (taskOk ok : Bool) : (setFallback board s enabled ssid pass afterMs taskOk ok).sta =
      if !enabled && s.fbApUp then (s.apStop ok).sta else s.sta := by
  unfold setFallback
  dsimp only
  cases enabled with
  | false => cases s.fbApUp <;> rfl
  | true => cases s.fbTaskStarted <;> cases taskOk <;> rfl

/-- **A step is one of the station, or none.** -/
theorem step_station {e : Event} (h : fallbackStep board s e = some s') :
    match wifiOf s e with
    | some w => step s.sta w = some s'.sta
    | none => s'.sta = s.sta := by
  cases e with
  | wifi e =>
      simp only [fallbackStep] at h
      split at h
      · obtain ⟨sta, hsta, rfl⟩ := Option.map_eq_some_iff.mp h
        exact hsta
      · cases h
  | apStart ssid pass =>
      simp only [fallbackStep] at h
      split at h
      · cases h
      · obtain rfl := Option.some.inj h
        rfl
  | apStop ok =>
      simp only [fallbackStep] at h
      split at h
      · cases h
      · obtain rfl := Option.some.inj h
        rfl
  | setFallback enabled ssid pass afterMs taskOk ok =>
      obtain rfl := Option.some.inj h
      have hsta : (setFallback board s enabled ssid pass afterMs taskOk ok).sta =
          if !enabled && s.fbApUp then (s.apStop ok).sta else s.sta :=
        setFallback_sta s enabled ssid pass afterMs taskOk ok
      simp only [wifiOf]
      split at hsta
      case isTrue hoff =>
        rw [if_pos hoff]
        exact (apStop_sta s ok).trans (congrArg some hsta.symm)
      case isFalse hon =>
        rw [if_neg hon]
        exact hsta
  | look =>
      simp only [fallbackStep] at h
      split at h
      · obtain rfl := Option.some.inj h
        exact look_sta s
      · cases h
  | raise =>
      simp only [fallbackStep] at h
      split at h
      · obtain rfl := Option.some.inj h
        rfl
      · cases h
  | drop ok =>
      simp only [fallbackStep] at h
      split at h
      · obtain rfl := Option.some.inj h
        rfl
      · cases h

/-- **A run with the supervisor** is, for the station, a run of the station alone. -/
theorem supervised_station {es : List Event} (h : run (fallbackStep board) s es = some s') :
    run step s.sta (wifiEvents board s es) = some s'.sta := by
  induction es generalizing s with
  | nil =>
      obtain rfl := Option.some.inj h
      rfl
  | cons e es ih =>
      obtain ⟨s1, h1, h2⟩ := (run_cons_some _).mp h
      have hstep := step_station h1
      simp only [wifiEvents, h1]
      cases hw : wifiOf s e with
      | none =>
          rw [hw] at hstep
          rw [Option.toList_none, List.nil_append, ← hstep]
          exact ih h2
      | some w =>
          rw [hw] at hstep
          rw [Option.toList_some, List.singleton_append, run_cons, hstep, Option.bind_some]
          exact ih h2

/-- The states of the one run are those of the other. -/
theorem always_station_iff (P : Station → Prop) (es : List Event) :
    Always (fallbackStep board) (fun s => P s.sta) s es ↔
      Always step P s.sta (wifiEvents board s es) := by
  induction es generalizing s with
  | nil => exact Iff.rfl
  | cons e es ih =>
      cases h1 : fallbackStep board s e with
      | none =>
          simp only [wifiEvents, h1, Always]
          exact and_iff_left fun _ hs => by cases hs
      | some s1 =>
          have hstep := step_station h1
          simp only [wifiEvents, h1, Always, Option.some.injEq, forall_eq']
          rw [ih]
          cases hw : wifiOf s e with
          | none =>
              rw [hw] at hstep
              rw [Option.toList_none, List.nil_append, hstep]
              refine and_iff_right_of_imp fun hrest => ?_
              cases hes : wifiEvents board s1 es with
              | nil =>
                  rw [hes] at hrest
                  exact hrest
              | cons w ws =>
                  rw [hes] at hrest
                  exact hrest.1
          | some w =>
              rw [hw] at hstep
              rw [Option.toList_some, List.singleton_append]
              simp only [Always, hstep, Option.some.injEq, forall_eq']

/-- **The supervisor strands nobody**: with it at work the station always has an attempt under way
    or its timer armed exactly when no call of `esp_wifi_connect` -- those that follow the access
    point's stop among them -- fails with nothing else under way. -/
theorem supervised_trying_iff (board : String) (es : List Event) :
    Always (fallbackStep board) (fun s => Trying s.sta) .init es ↔
      Along step (fun s e => ¬ FailsAlone s e) Station.init (wifiEvents board .init es) := by
  refine (always_station_iff Trying es).trans ?_
  refine always_iff_along step (fun s e h => trying_step_iff h e) ?_ _
  intro hwant
  cases hwant

end Station

/-! ## 3. What a look decides -/

section Look

variable {board : String} {s s' : Supervised}

/-- The ways of a look at a link the supervisor is to watch. -/
theorem look_cases (hen : s.fbEnabled = true) (hown : s.sta.apUp = s.fbApUp) :
    (s.sta.connected = true ∧ s.fbApUp = true ∧ look s =
        { s with looks := s.looks ++ [true], downMs := 0, fbApUp := false, task := .dropping }) ∨
    (s.sta.connected = true ∧ s.fbApUp = false ∧ look s =
        { s with looks := s.looks ++ [true], downMs := 0 }) ∨
    (s.sta.connected = false ∧ s.fbApUp = true ∧ look s = { s with looks := s.looks ++ [false] }) ∨
    (s.sta.connected = false ∧ s.fbApUp = false ∧ ∃ downMs,
      downMs = (s.downMs + fallbackTickMs) % 2 ^ 32 ∧
      ((downMs < s.fbAfterMs ∧ look s = { s with looks := s.looks ++ [false], downMs := downMs }) ∨
        (s.fbAfterMs ≤ downMs ∧ look s =
          { s with looks := s.looks ++ [false], downMs := downMs, task := .raising }))) := by
  have hforeign : s.foreignAp = false := by
    unfold Supervised.foreignAp
    rw [hown, Bool.and_not_self]
  unfold look
  rw [hen, hforeign]
  dsimp only
  rw [Bool.not_true, Bool.or_false, if_neg Bool.false_ne_true]
  cases hc : s.sta.connected with
  | true =>
      cases hup : s.fbApUp with
      | true => exact .inl ⟨rfl, rfl, rfl⟩
      | false => exact .inr (.inl ⟨rfl, rfl, rfl⟩)
  | false =>
      cases hup : s.fbApUp with
      | true => exact .inr (.inr (.inl ⟨rfl, rfl, rfl⟩))
      | false =>
          refine .inr (.inr (.inr ⟨rfl, rfl, _, rfl, ?_⟩))
          by_cases hlt : (s.downMs + fallbackTickMs) % 2 ^ 32 < s.fbAfterMs
          · exact .inl ⟨hlt, if_pos hlt⟩
          · exact .inr ⟨Nat.le_of_not_lt hlt, if_neg hlt⟩

/-- The looks at the end that found no lease. -/
def Supervised.missed (s : Supervised) : Nat := streak (fun connected => !connected) s.looks

theorem ofDriver_apUp {sta sta' : Station} {e : WifiEvent} (he : ofDriver e = true)
    (h : step sta e = some sta') : sta'.apUp = sta.apUp := by
  have hcall : ∀ (t : Station) (ok : Bool), (espWifiConnect t ok).apUp = t.apUp := by
    intro t ok
    cases ok <;> rfl
  cases e with
  | staConnect ok =>
      obtain rfl := Option.some.inj h
      exact hcall _ ok
  | retryTimer ok =>
      simp only [step] at h
      split at h
      · cases h
      · obtain rfl := Option.some.inj h
        split
        · exact hcall _ ok
        · rfl
  | staStart ok =>
      obtain rfl := Option.some.inj h
      split
      · exact hcall _ ok
      · rfl
  | staDisconnected createOk ok =>
      obtain rfl := Option.some.inj h
      split
      · unfold reconnectLater
        split
        · exact hcall _ ok
        · rfl
      · rfl
  | gotIp ip =>
      obtain rfl := Option.some.inj h
      rfl
  | apStart => cases he
  | apStop ok => cases he

/-! ## 4. When the access point is up -/

/-- The settings are given once, before there is a supervisor, and nobody else starts an access
    point: station mode, as app_main comes up in it. -/
def StationMode (s : Supervised) : Event → Prop
  | .apStart _ _ => False
  | .setFallback _ _ _ afterMs _ _ => s.fbTaskStarted = false ∧ afterMs + fallbackTickMs ≤ 2 ^ 32
  | _ => True

/-- The access point that was set. -/
def Supervised.wanted (s : Supervised) (board : String) : ApConfig :=
  apConfig board s.fbSsid s.fbPass

/-- What the supervisor knows, by where it is. -/
def Knows (board : String) (s : Supervised) : Task → Prop
  | .sleeping =>
      s.sta.apUp = s.fbApUp ∧
      (s.fbApUp = true → s.ap = some (s.wanted board) ∧ s.fbAfterMs ≤ fallbackTickMs * s.missed) ∧
      (s.fbApUp = false → s.downMs = fallbackTickMs * s.missed ∧ s.downMs < s.fbAfterMs)
  | .raising => s.fbApUp = false ∧ s.fbAfterMs ≤ fallbackTickMs * s.missed
  | .dropping => s.fbApUp = false ∧ s.downMs = 0 ∧ s.missed = 0

structure Watching (board : String) (s : Supervised) : Prop where
  before : s.fbTaskStarted = false → s.task = .sleeping ∧ s.sta.apUp = false ∧ s.fbApUp = false ∧
    s.downMs = 0 ∧ s.looks = []
  enabled : s.fbTaskStarted = true → s.fbEnabled = true
  after : s.fbTaskStarted = true → 0 < s.fbAfterMs ∧ s.fbAfterMs + fallbackTickMs ≤ 2 ^ 32
  knows : s.fbTaskStarted = true → Knows board s s.task

theorem watching_unstarted (board : String) (h : s.fbTaskStarted = false)
    (hbefore : s.task = .sleeping ∧ s.sta.apUp = false ∧ s.fbApUp = false ∧ s.downMs = 0 ∧
      s.looks = []) : Watching board s := by
  refine ⟨fun _ => hbefore, fun hs => ?_, fun hs => ?_, fun hs => ?_⟩ <;>
    exact absurd (h.symm.trans hs) Bool.false_ne_true

theorem missed_snoc_true (s : Supervised) (l : List Bool) (h : s.looks = l ++ [true]) :
    s.missed = 0 := by
  unfold Supervised.missed
  rw [h, streak_snoc]
  rfl

theorem missed_snoc_false (s t : Supervised) (h : t.looks = s.looks ++ [false]) :
    t.missed = s.missed + 1 := by
  unfold Supervised.missed
  rw [h, streak_snoc]
  rfl

/-- A look keeps what the supervisor knows. -/
theorem knows_look (hen : s.fbEnabled = true) (hafter : 0 < s.fbAfterMs)
    (hfit : s.fbAfterMs + fallbackTickMs ≤ 2 ^ 32) (h : Knows board s .sleeping)
    (hsleep : s.task = .sleeping) : Knows board (look s) (look s).task := by
  obtain ⟨hown, hup, hdown⟩ := h
  rcases look_cases hen hown with ⟨-, -, heq⟩ | ⟨-, hno, heq⟩ | ⟨-, hyes, heq⟩ |
    ⟨-, hno, downMs, hms, ⟨hlt, heq⟩ | ⟨hle, heq⟩⟩
  · rw [heq]
    exact ⟨rfl, rfl, missed_snoc_true _ s.looks rfl⟩
  · rw [heq]
    show Knows board _ s.task
    rw [hsleep]
    refine ⟨hown, fun h => absurd (hno.symm.trans h) Bool.false_ne_true, fun _ => ⟨?_, hafter⟩⟩
    rw [missed_snoc_true _ s.looks rfl]
    rfl
  · rw [heq]
    show Knows board _ s.task
    rw [hsleep]
    obtain ⟨hap, hlong⟩ := hup hyes
    refine ⟨hown, fun _ => ⟨hap, ?_⟩, fun h => absurd (hyes.symm.trans h).symm Bool.false_ne_true⟩
    rw [missed_snoc_false s _ rfl]
    exact hlong.trans (Nat.mul_le_mul_left _ (Nat.le_succ _))
  · obtain ⟨hcount, hshort⟩ := hdown hno
    have hms' : downMs = fallbackTickMs * (s.missed + 1) := by
      rw [hms, hcount, Nat.mul_succ]
      apply Nat.mod_eq_of_lt
      omega
    rw [heq]
    show Knows board _ s.task
    rw [hsleep]
    refine ⟨hown, fun h => absurd (hno.symm.trans h) Bool.false_ne_true, fun _ => ⟨?_, hlt⟩⟩
    rw [missed_snoc_false s _ rfl]
    exact hms'
  · obtain ⟨hcount, hshort⟩ := hdown hno
    have hms' : downMs = fallbackTickMs * (s.missed + 1) := by
      rw [hms, hcount, Nat.mul_succ]
      apply Nat.mod_eq_of_lt
      omega
    rw [heq]
    refine ⟨hno, ?_⟩
    rw [missed_snoc_false s _ rfl, ← hms']
    exact hle

/-- Nothing the supervisor knows is in the station's own fields. -/
theorem watching_sta {sta : Station} (h : Watching board s) (hap : sta.apUp = s.sta.apUp) :
    Watching board { s with sta := sta } := by
  obtain ⟨hbefore, henabled, hafter, hknows⟩ := h
  refine ⟨fun hs => ?_, henabled, hafter, fun hs => ?_⟩
  · obtain ⟨h1, h2, h3⟩ := hbefore hs
    exact ⟨h1, hap.trans h2, h3⟩
  · have hk := hknows hs
    show Knows board { s with sta := sta } s.task
    cases htask : s.task with
    | sleeping =>
        rw [htask] at hk
        exact ⟨hap.trans hk.1, hk.2⟩
    | raising =>
        rw [htask] at hk
        exact hk
    | dropping =>
        rw [htask] at hk
        exact hk

/-- What `wifi_mgr_set_fallback_ap` changes, where the supervisor's access point is not up. -/
theorem setFallback_down {enabled : Bool} {ssid pass : String} {afterMs : Nat} {taskOk ok : Bool}
    {t : Supervised} (hfb : s.fbApUp = false)
    (ht : setFallback board s enabled ssid pass afterMs taskOk ok = t) :
    (t.sta = s.sta ∧ t.ap = s.ap ∧ t.fbApUp = false ∧ t.task = s.task ∧ t.downMs = s.downMs ∧
      t.looks = s.looks) ∧
    (t.fbTaskStarted = s.fbTaskStarted ∨
      t.fbTaskStarted = true ∧ t.fbEnabled = true ∧
        t.fbAfterMs = if afterMs = 0 then 60000 else afterMs) := by
  obtain ⟨sta, ap, en, ssid', pass', ms, up, started, down, task, looks⟩ := s
  obtain rfl : up = false := hfb
  subst ht
  cases enabled with
  | false => exact ⟨⟨rfl, rfl, rfl, rfl, rfl, rfl⟩, .inl rfl⟩
  | true =>
      cases started with
      | true => exact ⟨⟨rfl, rfl, rfl, rfl, rfl, rfl⟩, .inl rfl⟩
      | false =>
          cases taskOk with
          | false => exact ⟨⟨rfl, rfl, rfl, rfl, rfl, rfl⟩, .inl rfl⟩
          | true => exact ⟨⟨rfl, rfl, rfl, rfl, rfl, rfl⟩, .inr ⟨rfl, rfl, rfl⟩⟩

theorem watching_setFallback {enabled : Bool} {ssid pass : String} {afterMs : Nat}
    {taskOk ok : Bool}
    {t : Supervised} (h : Watching board s) (hs : s.fbTaskStarted = false)
    (hfit : afterMs + fallbackTickMs ≤ 2 ^ 32)
    (ht : setFallback board s enabled ssid pass afterMs taskOk ok = t) : Watching board t := by
  obtain ⟨hsleep, hap, hfb, hdown, hlooks⟩ := h.before hs
  obtain ⟨⟨h1, -, h3, h4, h5, h6⟩, hstart⟩ := setFallback_down hfb ht
  rcases hstart with hno | ⟨hyes, hen, hafter⟩
  · refine watching_unstarted board (hno.trans hs) ⟨h4.trans hsleep, ?_, h3, h5.trans hdown,
      h6.trans hlooks⟩
    rw [h1, hap]
  · have hmissed : t.missed = 0 := by
      unfold Supervised.missed
      rw [h6, hlooks]
      rfl
    have hpos : 0 < t.fbAfterMs ∧ t.fbAfterMs + fallbackTickMs ≤ 2 ^ 32 := by
      rw [hafter]
      unfold fallbackTickMs at hfit ⊢
      split <;> omega
    refine ⟨fun hno => absurd (hno.symm.trans hyes) Bool.false_ne_true, fun _ => hen, fun _ => hpos,
      fun _ => ?_⟩
    rw [h4, hsleep]
    refine ⟨?_, fun h => absurd (h3.symm.trans h) Bool.false_ne_true, fun _ => ?_⟩
    · rw [h1, hap, h3]
    · rw [h5, hdown, hmissed]
      exact ⟨rfl, hpos.1⟩

theorem watching_step (s : Supervised) (e : Event) (s' : Supervised) (hmode : StationMode s e)
    (h : Watching board s) (hs : fallbackStep board s e = some s') : Watching board s' := by
  cases e with
  | wifi e =>
      simp only [fallbackStep] at hs
      split at hs
      case isTrue hdrv =>
        obtain ⟨sta, hsta, rfl⟩ := Option.map_eq_some_iff.mp hs
        exact watching_sta h (ofDriver_apUp hdrv hsta)
      case isFalse => cases hs
  | apStart ssid pass => exact hmode.elim
  | apStop ok =>
      simp only [fallbackStep] at hs
      split at hs
      case isTrue => cases hs
      case isFalse hno =>
        obtain rfl := Option.some.inj hs
        have hun : s.fbTaskStarted = false := Bool.eq_false_iff.mpr hno
        obtain ⟨hsleep, hap, hrest⟩ := h.before hun
        refine watching_unstarted board hun ⟨hsleep, ?_, hrest⟩
        show ((step s.sta (.apStop ok)).getD s.sta).apUp = false
        simp only [step, Option.getD_some]
        split
        · cases ok <;> rfl
        · rfl
  | setFallback enabled ssid pass afterMs taskOk ok =>
      obtain rfl := Option.some.inj hs
      exact watching_setFallback h hmode.1 hmode.2 rfl
  | look =>
      simp only [fallbackStep] at hs
      split at hs
      case isTrue hlook =>
        obtain rfl := Option.some.inj hs
        obtain ⟨hstarted, hsleep⟩ := hlook
        have hen := h.enabled hstarted
        obtain ⟨hpos, hfit⟩ := h.after hstarted
        have hk := h.knows hstarted
        rw [hsleep] at hk
        have hlooked := knows_look hen hpos hfit hk hsleep
        -- a look leaves the settings alone
        have hkeep : (look s).fbTaskStarted = s.fbTaskStarted ∧ (look s).fbEnabled = s.fbEnabled ∧
            (look s).fbAfterMs = s.fbAfterMs := by
          rcases look_cases hen hk.1 with ⟨-, -, heq⟩ | ⟨-, -, heq⟩ | ⟨-, -, heq⟩ |
            ⟨-, -, downMs, -, ⟨-, heq⟩ | ⟨-, heq⟩⟩ <;>
            exact heq ▸ ⟨rfl, rfl, rfl⟩
        obtain ⟨hk1, hk2, hk3⟩ := hkeep
        refine ⟨fun hno => ?_, fun _ => hk2.trans hen, fun _ => ?_, fun _ => hlooked⟩
        · rw [hk1, hstarted] at hno
          cases hno
        · rw [hk3]
          exact ⟨hpos, hfit⟩
      case isFalse => cases hs
  | raise =>
      simp only [fallbackStep] at hs
      split at hs
      case isTrue htask =>
        obtain rfl := Option.some.inj hs
        refine ⟨fun hno => ?_, h.enabled, h.after, fun hyes => ?_⟩
        · have hsleep := (h.before hno).1
          rw [htask] at hsleep
          cases hsleep
        · have hk := h.knows hyes
          rw [htask] at hk
          exact ⟨rfl, fun _ => ⟨rfl, hk.2⟩, fun hfalse => absurd hfalse.symm Bool.false_ne_true⟩
      case isFalse => cases hs
  | drop ok =>
      simp only [fallbackStep] at hs
      split at hs
      case isTrue htask =>
        obtain rfl := Option.some.inj hs
        refine ⟨fun hno => ?_, h.enabled, h.after, fun hyes => ?_⟩
        · have hsleep := (h.before hno).1
          rw [htask] at hsleep
          cases hsleep
        · have hk := h.knows hyes
          rw [htask] at hk
          obtain ⟨hfb, hdown, hmissed⟩ := hk
          have hpos := (h.after hyes).1
          refine ⟨?_, fun hfalse => absurd (hfb.symm.trans hfalse) Bool.false_ne_true, fun _ => ?_⟩
          · show ((step s.sta (.apStop ok)).getD s.sta).apUp = s.fbApUp
            rw [hfb]
            simp only [step, Option.getD_some]
            split
            · cases ok <;> rfl
            · rfl
          · refine ⟨?_, ?_⟩
            · show s.downMs = fallbackTickMs * s.missed
              rw [hdown, hmissed]
              rfl
            · show s.downMs < s.fbAfterMs
              rw [hdown]
              exact hpos
      case isFalse => cases hs

/-- **When the fallback access point is up**: in station mode, with the supervisor at work and
    asleep, exactly when the looks at the end that found no lease add up to the time set; and it has
    the name and the password set. -/
theorem fallback_iff_streak {es : List Event} (h : run (fallbackStep board) .init es = some s)
    (hmode : Along (fallbackStep board) StationMode .init es) (hstarted : s.fbTaskStarted = true)
    (hsleep : s.task = .sleeping) :
    (s.sta.apUp = true ↔ ∃ before last, s.looks = before ++ last ∧
      s.fbAfterMs ≤ fallbackTickMs * last.length ∧ ∀ connected ∈ last, connected = false) ∧
    (s.sta.apUp = true → s.ap = some (apConfig board s.fbSsid s.fbPass)) := by
  have hw : Watching board s := run_inv_along _ watching_step hmode
    (watching_unstarted board rfl ⟨rfl, rfl, rfl, rfl, rfl⟩) h
  have hk := hw.knows hstarted
  rw [hsleep] at hk
  obtain ⟨hown, hup, hdown⟩ := hk
  rw [hown]
  refine ⟨?_, fun hyes => (hup hyes).1⟩
  constructor
  · intro hyes
    obtain ⟨before, last, hlooks, hlen, hall⟩ := le_streak_iff.mp (Nat.le_refl s.missed)
    refine ⟨before, last, hlooks, ?_, fun c hc => ?_⟩
    · rw [hlen]
      exact (hup hyes).2
    · exact Bool.not_eq_eq_eq_not.mp (hall c hc)
  · rintro ⟨before, last, hlooks, hlong, hall⟩
    cases hfb : s.fbApUp with
    | true => rfl
    | false =>
        obtain ⟨hcount, hshort⟩ := hdown hfb
        have hle : last.length ≤ s.missed :=
          le_streak_iff.mpr ⟨before, last, hlooks, rfl, fun c hc => by rw [hall c hc]; rfl⟩
        have := Nat.mul_le_mul_left fallbackTickMs hle
        omega

/-! The router is dead at boot: two looks at a link with four seconds to wait. -/

def deadRouterRun : List Event :=
  [.setFallback true "" "longenough" 4000 true true, .wifi (.staConnect true), .look, .look, .raise]

def deadRouterEnd : Supervised :=
  ⟨{ Station.init with wantConnect := true, apUp := true, attempt := true },
    some ⟨"esp-nut-bluetti-A1B2", true, "longenough"⟩, true, "esp-nut-bluetti-A1B2", "longenough",
      4000,
    true, true, 4000, .sleeping, [false, false]⟩

theorem fallback_iff_streak_deadRouter :
    (deadRouterEnd.sta.apUp = true ↔ ∃ before last, deadRouterEnd.looks = before ++ last ∧
      deadRouterEnd.fbAfterMs ≤ fallbackTickMs * last.length ∧
        ∀ connected ∈ last, connected = false) ∧
    (deadRouterEnd.sta.apUp = true → deadRouterEnd.ap =
      some (apConfig "esp-nut-bluetti-A1B2" deadRouterEnd.fbSsid deadRouterEnd.fbPass)) := by
  have hrun : run (fallbackStep "esp-nut-bluetti-A1B2") .init deadRouterRun =
    some deadRouterEnd := by
    rfl
  refine fallback_iff_streak hrun ⟨⟨rfl, by decide⟩, fun _ _ => ?_⟩ rfl rfl
  exact ⟨trivial, fun _ _ =>
    ⟨trivial, fun _ _ => ⟨trivial, fun _ _ => ⟨trivial, fun _ _ => trivial⟩⟩⟩⟩

/-- **An access point that is not the supervisor's** stays as it is, whatever comes. -/
theorem configured_ap_kept {es : List Event} (hstarted : s.fbTaskStarted = true)
    (hsleep : s.task = .sleeping) (hup : s.sta.apUp = true) (hfb : s.fbApUp = false)
    (h : run (fallbackStep board) s es = some s') :
    s'.sta.apUp = true ∧ s'.ap = s.ap ∧ s'.fbApUp = false := by
  have hinv := run_inv (fallbackStep board)
    (I := fun t => t.fbTaskStarted = true ∧ t.task = .sleeping ∧ t.sta.apUp = true ∧
      t.fbApUp = false ∧ t.ap = s.ap) ?_ ⟨hstarted, hsleep, hup, hfb, rfl⟩ h
  · exact ⟨hinv.2.2.1, hinv.2.2.2.2, hinv.2.2.2.1⟩
  intro t e t' ht hs
  obtain ⟨h1, h2, h3, h4, h5⟩ := ht
  cases e with
  | wifi e =>
      simp only [fallbackStep] at hs
      split at hs
      case isTrue hdrv =>
        obtain ⟨sta, hsta, rfl⟩ := Option.map_eq_some_iff.mp hs
        exact ⟨h1, h2, (ofDriver_apUp hdrv hsta).trans h3, h4, h5⟩
      case isFalse => cases hs
  | apStart ssid pass =>
      simp only [fallbackStep, h1, if_true] at hs
      cases hs
  | apStop ok =>
      simp only [fallbackStep, h1, if_true] at hs
      cases hs
  | setFallback enabled ssid pass afterMs taskOk ok =>
      obtain ⟨⟨k1, k2, k3, k4, -, -⟩, hstart⟩ := setFallback_down h4 (Option.some.inj hs)
      refine ⟨?_, k4.trans h2, by rw [k1, h3], k3, k2.trans h5⟩
      rcases hstart with hsame | ⟨hyes, -, -⟩
      · exact hsame.trans h1
      · exact hyes
  | look =>
      simp only [fallbackStep, h1, h2, and_self, if_true] at hs
      obtain rfl := Option.some.inj hs
      have hforeign : t.foreignAp = true := by
        unfold Supervised.foreignAp
        rw [h3, h4]
        rfl
      unfold look
      rw [hforeign, Bool.or_true, if_pos rfl]
      exact ⟨h1, h2, h3, h4, h5⟩
  | raise =>
      simp only [fallbackStep, h2] at hs
      cases hs
  | drop ok =>
      simp only [fallbackStep, h2] at hs
      cases hs

end Look

end NutBluetti.Wifi.Fallback
