/-
  File:      NutBluetti/Web/ControlsPage.lean
  Subject:   THE CONTROLS OF THE UNIT ON THE PAGE: `bluetti_ble_controls_json` (bluetti_ble.c)
             prints them for `h_controls_get`, and what `h_control_set` takes from the page goes to
             `bluetti_ble_write_control`.

  `b.device` and `b.connected` are read beside the lock; a page is of one moment here.

  * `controlsPage` -- the page as it is meant;
  * `putControls_eq` -- the loop prints the controls of the model, one after the other, for as long
    as there is room;
  * **`controls_reply_whole`** -- in every state of the loop there is room for all of it, the reply
    is its JSON text, and each value on it is unknown or one that may be written;
  * **`control_form_iff_page`** -- a value that is posted is queued exactly as the page says:
    available and enabled, a control that it lists with a value, and a number that the control may
    have.
-/
import NutBluetti.Ble.ControlValues
import NutBluetti.Web.ConfigReply

namespace NutBluetti.Web

open JsonText
open NutBluetti.Ble
open NutBluetti.Config

variable {κ : Type}

/-! ## 1. `bluetti_ble_controls_json` -/

/-- `KIND`. -/
def kindName : BtCtrlKind → String
  | .bool => "bool"
  | .enum => "enum"
  | .range => "range"

/-- The format of a control. -/
def controlArgs (st : BluettiState) (c : BtControl) : List (String × Arg) :=
  [("field", .text (ascii c.field)), ("kind", .text (ascii (kindName c.kind))),
    ("allowed", .text (ascii c.allowed)), ("value", .number (btControlCurrent c st))]

/-- The controls can be used now. -/
def controlsAvailable (b : BluettiBle κ) : Bool :=
  b.connected && b.controlMask != 0 && btSessionReady b.session

def modelName (b : BluettiBle κ) : String :=
  match b.device with
  | some dev => dev.name
  | none => ""

/-- The format in front of them. -/
def controlsArgs (b : BluettiBle κ) : List (String × Arg) :=
  [("available", .switch (controlsAvailable b)), ("enabled", .switch b.controls),
    ("model", .text (ascii (modelName b))),
    -- before the sweep is complete, "no AC input" only means that it has not come round yet
    ("on_battery", .switch (b.state.valid && b.state.sweepDone && !b.state.acInputPresent))]

def controlsHead (b : BluettiBle κ) : List UInt8 :=
  ascii "\x7b" ++ commaSep ((controlsArgs b).map memberText) ++ ascii ",\"items\":["

/-- One round of the loop, with what is printed so far and `first`; it ends where the buffer
    does. -/
def putControl (len : Nat) (mask : UInt16) (st : BluettiState) (acc : List UInt8 × Bool)
    (c : BtControl) :
    List UInt8 × Bool :=
  if len ≤ acc.1.length then acc
  else if !hasBit mask c.bit then acc      -- this model does not have it
  else (acc.1 ++ (if acc.2 then [] else ascii ",") ++ objectText (controlArgs st c), false)

/-- **`bluetti_ble_controls_json`**: the text, unless it does not fit. -/
def bluettiBleControlsJson (b : BluettiBle κ) (len : Nat) : Option (List UInt8) :=
  let out := (btControls.foldl (putControl len b.controlMask b.state) (controlsHead b, true)).1
  if len ≤ out.length then none
  else
    let out := out ++ ascii "]\x7d"
    if len ≤ out.length then none else some out

/-! ## 2. The page -/

/-- The controls of the model. -/
def shownControls (b : BluettiBle κ) : List BtControl :=
  btControls.filter fun c => hasBit b.controlMask c.bit

def controlValue (st : BluettiState) (c : BtControl) : Value UInt8 := objectValue (controlArgs st c)

/-- **The page as it is meant.** -/
def controlsPage (b : BluettiBle κ) : Value UInt8 :=
  .obj ((controlsArgs b).map memberValue ++
    [(ascii "items", .arr ((shownControls b).map (controlValue b.state)))])

/-- The loop prints the controls of the model, where there is room for them. -/
theorem putControls_eq {len : Nat} {mask : UInt16} {st : BluettiState} (cs : List BtControl)
    {out : List UInt8} {first : Bool} (hroom : (out ++ glue bytes first
      ((cs.filter fun c => hasBit mask c.bit).map (controlValue st))).length < len) :
    (cs.foldl (putControl len mask st) (out, first)).1 =
      out ++ glue bytes first ((cs.filter fun c => hasBit mask c.bit).map (controlValue st)) := by
  induction cs generalizing out first with
  | nil => exact (List.append_nil out).symm
  | cons c cs ih =>
      rw [List.foldl_cons]
      unfold putControl
      have hopen : ¬ len ≤ out.length := by
        rw [List.length_append] at hroom
        omega
      rw [if_neg hopen]
      cases hbit : hasBit mask c.bit with
      | false =>
          rw [List.filter_cons_of_neg (by rw [hbit]; exact Bool.false_ne_true)] at hroom ⊢
          exact ih hroom
      | true =>
          have hkeep : (c :: cs).filter (fun c => hasBit mask c.bit) =
              c :: cs.filter fun c => hasBit mask c.bit := List.filter_cons_of_pos hbit
          rw [hkeep, List.map_cons, glue] at hroom ⊢
          have hitem : out ++ (if first then [] else ascii ",") ++ objectText (controlArgs st c) =
              out ++
              ((if first then [] else [bytes.lit ',']) ++ (controlValue st c).raw bytes) := by
            rw [objectText_raw, List.append_assoc]
            rfl
          rw [← List.append_assoc, ← hitem] at hroom ⊢
          exact ih hroom

theorem controlsPage_raw (b : BluettiBle κ) : (controlsPage b).raw bytes = controlsHead b ++
    glue bytes true ((shownControls b).map (controlValue b.state)) ++ ascii "]\x7d" := by
  have hargs : controlsArgs b ≠ [] := List.cons_ne_nil _ _
  unfold controlsPage controlsHead
  rw [object_raw hargs, commaSep_members, Value.raw, rawItems_eq_glue]
  simp only [List.append_assoc, List.cons_append]
  rfl

/-- **What is printed is the page**, where it fits. -/
theorem controlsJson_eq {b : BluettiBle κ} {len : Nat}
    (hfits : ((controlsPage b).raw bytes).length < len) :
    bluettiBleControlsJson b len = some ((controlsPage b).raw bytes) := by
  rw [controlsPage_raw] at hfits ⊢
  have hroom : (controlsHead b ++
      glue bytes true ((shownControls b).map (controlValue b.state))).length < len := by
    rw [List.length_append] at hfits
    omega
  unfold bluettiBleControlsJson
  rw [putControls_eq btControls hroom]
  exact (if_neg (Nat.not_le.mpr hroom)).trans (if_neg (Nat.not_le.mpr hfits))

/-! ## 3. The reply -/

/-- A value that may be written is a percentage at most. -/
theorem valid_le_hundred {c : BtControl} (hc : c ∈ btControls) {value : Int}
    (h : btControlValid c value = true) : 0 ≤ value ∧ value ≤ 100 := by
  have htable : ∀ c ∈ btControls, (parseInts c.allowed 8).all (· ≤ 100) = true := by decide +kernel
  have hsmall : ∀ n ∈ parseInts c.allowed 8, n ≤ 100 := fun n hn =>
    of_decide_eq_true (List.all_eq_true.mp (htable c hc) n hn)
  unfold btControlValid at h
  cases hk : c.kind with
  | bool =>
      simp only [hk, Bool.or_eq_true, beq_iff_eq] at h
      omega
  | enum =>
      simp only [hk, List.any_eq_true, beq_iff_eq] at h
      obtain ⟨n, hn, rfl⟩ := h
      have hle := hsmall n hn
      omega
  | range =>
      simp only [hk] at h
      split at h
      · rename_i lo hi hints
        have hle := hsmall hi (by rw [hints]; exact List.mem_cons_of_mem _ List.mem_cons_self)
        simp only [Bool.and_eq_true, decide_eq_true_eq] at h
        omega
      · cases h

theorem length_percent {value : Int} (hlo : -1 ≤ value) (hhi : value ≤ 100) :
    (decInt value).length ≤ 3 := by
  have hall : ∀ n : Fin 102, (decInt ((n.val : Int) - 1)).length ≤ 3 := by decide +kernel
  have hvalue : value = (((value + 1).toNat : Nat) : Int) - 1 := by omega
  rw [hvalue]
  exact hall ⟨(value + 1).toNat, by omega⟩

/-- The text of a control. -/
theorem length_control {c : BtControl} (hc : c ∈ btControls) {st : BluettiState}
    (h : KnownValue c st) :
    ((controlValue st c).raw bytes).length ≤ 72 := by
  have htable : ∀ c ∈ btControls, (ascii "\x7b" ++ commaSep ([("field", Arg.text (ascii c.field)),
      ("kind", .text (ascii (kindName c.kind))), ("allowed", .text (ascii c.allowed))].map
        memberText) ++
      ascii ",\"value\":").length ≤ 68 := by decide +kernel
  have hvalue : (decInt (btControlCurrent c st)).length ≤ 3 := by
    rcases h with hunknown | hvalid
    · exact length_percent (by omega) (by omega)
    · obtain ⟨hlo, hhi⟩ := valid_le_hundred hc hvalid
      exact length_percent (by omega) hhi
  have htext : (controlValue st c).raw bytes = (ascii "\x7b" ++ commaSep ([("field",
      Arg.text (ascii c.field)), ("kind", .text (ascii (kindName c.kind))),
      ("allowed", .text (ascii c.allowed))].map memberText) ++ ascii ",\"value\":") ++
      decInt (btControlCurrent c st) ++ ascii "\x7d" := by
    have hkey : ascii ",\"value\":" =
      ascii "," ++ (ascii "\"" ++ (ascii "value" ++ ascii "\":")) := by decide
    unfold controlValue
    rw [← objectText_raw, hkey]
    simp only [objectText, controlArgs, List.map_cons, List.map_nil, commaSep, memberText,
      Arg.print, List.append_assoc]
  rw [htext, List.length_append, List.length_append]
  have hfront := htable c hc
  have hend : (ascii "\x7d").length = 1 := by decide
  omega

/-- The text in front of them. -/
theorem length_controlsHead {b : BluettiBle κ} (h : TableInv b) :
    (controlsHead b).length ≤ 100 := by
  have hname : (ascii (modelName b)).length ≤ 11 := by
    have htable : ∀ dev ∈ btDeviceGeneric :: devices, (ascii dev.name).length ≤ 11 := by
      decide +kernel
    unfold modelName
    cases hdev : b.device with
    | none => decide
    | some dev => exact htable dev (h.model dev hdev)
  have hparts : (ascii "\x7b").length = 1 ∧ (ascii "\"available\":").length = 12 ∧
      (ascii ",\"enabled\":").length = 11 ∧ (ascii ",\"model\":\"").length = 10 ∧
      (ascii "\",\"on_battery\":").length = 15 ∧ (ascii ",\"items\":[").length = 10 := by decide
  obtain ⟨h1, h2, h3, h4, h5, h6⟩ := hparts
  have htext : controlsHead b =
    ascii "\x7b" ++ ascii "\"available\":" ++ jsonBool (controlsAvailable b) ++
      ascii ",\"enabled\":" ++ jsonBool b.controls ++ ascii ",\"model\":\"" ++
      ascii (modelName b) ++
      ascii "\",\"on_battery\":" ++
      jsonBool (b.state.valid && b.state.sweepDone && !b.state.acInputPresent) ++
      ascii ",\"items\":[" := by
    have hsplit : ascii "\"available\":" = ascii "\"" ++ ascii "available" ++ ascii "\":" ∧
        ascii ",\"enabled\":" = ascii "," ++ ascii "\"" ++ ascii "enabled" ++ ascii "\":" ∧
        ascii ",\"model\":\"" = ascii "," ++ ascii "\"" ++ ascii "model" ++ ascii "\":" ++
        ascii "\"" ∧
        ascii "\",\"on_battery\":" =
          ascii "\"" ++ ascii "," ++ ascii "\"" ++ ascii "on_battery" ++ ascii "\":" := by decide
    rw [hsplit.1, hsplit.2.1, hsplit.2.2.1, hsplit.2.2.2]
    simp only [controlsHead, controlsArgs, List.map_cons, List.map_nil, commaSep, memberText,
      Arg.print, List.append_assoc]
  have hbool := length_jsonBool
  have hb1 := hbool (controlsAvailable b)
  have hb2 := hbool b.controls
  have hb3 := hbool (b.state.valid && b.state.sweepDone && !b.state.acInputPresent)
  rw [htext]
  simp only [List.length_append]
  omega

theorem length_glue {vs : List (Value UInt8)} {m : Nat} (h : ∀ v ∈ vs, (v.raw bytes).length ≤ m)
    (first : Bool) : (glue bytes first vs).length ≤ (m + 1) * vs.length := by
  induction vs generalizing first with
  | nil => exact Nat.zero_le _
  | cons v vs ih =>
      obtain ⟨hv, hvs⟩ := List.forall_mem_cons.mp h
      have hrest := ih hvs false
      have hcomma : (if first then ([] : List UInt8) else [bytes.lit ',']).length ≤ 1 := by
        cases first <;> decide
      rw [glue, List.length_append, List.length_append, List.length_cons, Nat.mul_succ]
      omega

/-- **There is room for the page** in the buffer of `h_controls_get`. -/
theorem controlsPage_fits {b : BluettiBle κ} (h : TableInv b) :
    ((controlsPage b).raw bytes).length < 1024 := by
  have hitems : ∀ v ∈ (shownControls b).map (controlValue b.state), (v.raw bytes).length ≤ 72 := by
    refine List.forall_mem_map.mpr fun c hc => ?_
    have hc := List.mem_of_mem_filter hc
    exact length_control hc (h.values c hc)
  have hglue := length_glue hitems true
  have hcount : (shownControls b).length ≤ 11 := List.length_filter_le _ btControls
  have hhead := length_controlsHead h
  have hend : (ascii "]\x7d").length = 2 := by decide
  rw [List.length_map] at hglue
  rw [controlsPage_raw, List.length_append, List.length_append]
  omega

/-- Every string on the page is from the tables, and needs no escape. -/
theorem controlsPage_plain {b : BluettiBle κ} (h : TableInv b) : (controlsPage b).Plain bytes := by
  have hkeys : ∀ k ∈ (controlsArgs b).map Prod.fst, bytes.PlainText (ascii k) := by
    show ∀ k ∈ ["available", "enabled", "model", "on_battery"], bytes.PlainText (ascii k)
    decide
  have hname : bytes.PlainText (ascii (modelName b)) := by
    have htable : ∀ dev ∈ btDeviceGeneric :: devices, bytes.PlainText (ascii dev.name) := by
      decide +kernel
    unfold modelName
    cases hdev : b.device with
    | none => exact fun c hc => absurd hc List.not_mem_nil
    | some dev => exact htable dev (h.model dev hdev)
  have hhead : ∀ m ∈ controlsArgs b, m.2.Plain := by
    simp only [controlsArgs, List.forall_mem_cons]
    exact ⟨trivial, trivial, hname, trivial, fun m hm => absurd hm List.not_mem_nil⟩
  have hcontrol : ∀ c ∈ btControls, (controlValue b.state c).Plain bytes := by
    intro c hc
    have htable : ∀ c ∈ btControls, bytes.PlainText (ascii c.field) ∧
        bytes.PlainText (ascii (kindName c.kind)) ∧ bytes.PlainText (ascii c.allowed) := by
          decide +kernel
    obtain ⟨hfield, hkind, hallowed⟩ := htable c hc
    have hnames : ∀ k ∈ (controlArgs b.state c).map Prod.fst, bytes.PlainText (ascii k) := by
      show ∀ k ∈ ["field", "kind", "allowed", "value"], bytes.PlainText (ascii k)
      decide
    refine (members_plain hnames).mpr ?_
    simp only [controlArgs, List.forall_mem_cons]
    exact ⟨hfield, hkind, hallowed, trivial, fun m hm => absurd hm List.not_mem_nil⟩
  have hitems : PlainItems bytes ((shownControls b).map (controlValue b.state)) :=
    plainItems_iff.mpr (List.forall_mem_map.mpr fun c hc => hcontrol c (List.mem_of_mem_filter hc))
  have hkey : bytes.PlainText (ascii "items") := by decide
  exact plainMembers_append.mpr ⟨(members_plain hkeys).mpr hhead, ⟨hkey, hitems⟩, trivial⟩

section Request

variable {env : Env κ} {controls : Bool} {low : Int} {es : List PollEv} {p : Poll κ}
variable {o : Outside} {r : Request} {s : Server κ}

/-- The outside with that page. -/
def printsControls (o : Outside) (s : Server κ) : Outside :=
  { o with page := bluettiBleControlsJson s.ble 1024 }

/-- **The controls as they are.** In every state of the loop, for a request that is let through, the
    reply is the JSON text of the controls that the model has, and each value in it is unknown or
    one that may be written to the control. -/
theorem controls_reply_whole
    (hrun : StepMachine.run (Poll.step env) (Poll.start controls low) es = some p)
    (hauth : (authOk o r s).1 = true) (hble : s.ble = p.b) :
    (hControlsGet (printsControls o s) r s).1.status = .ok ∧
      Spells bytes (.value (controlsPage p.b)) (hControlsGet (printsControls o s) r s).1.body ∧
      ∀ c ∈ shownControls p.b, btControlCurrent c p.b.state = -1 ∨
        btControlValid c (btControlCurrent c p.b.state) = true := by
  have hI := tableInv_run hrun
  have hpage : (printsControls o s).page = some ((controlsPage p.b).raw bytes) := by
    simp only [printsControls, hble]
    exact controlsJson_eq (controlsPage_fits hI)
  have hsame : (authOk (printsControls o s) r s).1 = true := by
    simpa only [authOk, printsControls] using hauth
  have hreply : (hControlsGet (printsControls o s) r s).1 =
    sendJson ((controlsPage p.b).raw bytes) := by
    unfold hControlsGet
    rw [requireAuth_go _ hsame]
    simp only [hpage]
  rw [hreply]
  exact ⟨rfl, (spells_raw_iff _).mpr (controlsPage_plain hI), fun c hc =>
    hI.values c (List.mem_of_mem_filter hc)⟩

/-- **A value that is posted is queued exactly as the page says**, in every state of the loop: it
    says available and enabled, and lists the control with a value that is known; and what was
    posted is a number that the control may have. -/
theorem control_form_iff_page
    (hrun : StepMachine.run (Poll.step env) (Poll.start controls low) es = some p)
    (hauth : (authOk o r s).1 = true) (hble : s.ble = p.b) {body : List UInt8}
    (hbody : readBody o r 1 64 false = .ok body) :
    (hControlSet o r s).1.status = .ok ↔
      (controlsAvailable p.b = true ∧ p.b.controls = true) ∧
        (formText body "value" 8 ≠ [] ∧ (formText body "value" 8).all isDigit = true) ∧
        ∃ c ∈ shownControls p.b, c.field = asString (formText body "field" 24) ∧
          0 ≤ btControlCurrent c p.b.state ∧
          btControlValid c (atoi (formText body "value" 8)) = true := by
  have hsame : (authOk o r s).2.ble = p.b := by
    rw [authOk_frame]
    exact hble
  have hreply : (hControlSet o r s).1.status = .ok ↔
      ¬ (formText body "field" 24 = [] ∨ formText body "value" 8 = []) ∧
        (formText body "value" 8).all isDigit = true ∧
        (bluettiBleWriteControl p.b (asString (formText body "field" 24))
          (atoi (formText body "value" 8))).1 = true := by
    unfold hControlSet
    rw [requireAuth_go _ hauth]
    unfold withBody
    simp only [hbody, hsame]
    by_cases hempty : formText body "field" 24 = [] ∨ formText body "value" 8 = []
    · rw [if_pos hempty]
      exact iff_of_false (fun h => by cases h) fun h => h.1 hempty
    rw [if_neg hempty]
    cases hdigits : (formText body "value" 8).all isDigit with
    | false => exact iff_of_false (fun h => by cases h) fun h => (by cases h.2.1)
    | true =>
        obtain ⟨queued, ble, hwrite⟩ : ∃ queued ble, bluettiBleWriteControl p.b
          (asString (formText body "field" 24)) (atoi (formText body "value" 8)) = (queued, ble) :=
          ⟨_, _, rfl⟩
        simp only [hwrite, Bool.not_true, Bool.false_eq_true, if_false]
        cases queued with
        | false => exact iff_of_false (fun h => by cases h) fun h => (by cases h.2.2)
        | true => exact iff_of_true rfl ⟨hempty, trivial, rfl⟩
  rw [hreply, writeControl_iff hrun]
  have hmask : ∀ c : BtControl, hasBit p.b.controlMask c.bit = true →
    (p.b.controlMask != 0) = true := by
    intro c hbit
    refine bne_iff_ne.mpr fun hzero => ?_
    rw [hzero] at hbit
    simp [hasBit] at hbit
  constructor
  · intro h
    obtain ⟨hgiven, hdigits, hon, hup, hready, c, hc, hname, hbit, hknown, hvalid⟩ := h
    refine ⟨⟨?_, hon⟩, ⟨fun hno => hgiven (.inr hno), hdigits⟩, c, ?_, hname, hknown, hvalid⟩
    · unfold controlsAvailable
      rw [hup, hmask c hbit, hready]
      rfl
    · exact List.mem_filter.mpr ⟨hc, hbit⟩
  · intro h
    obtain ⟨⟨havail, hon⟩, ⟨hval, hdigits⟩, c, hshown, hname, hknown, hvalid⟩ := h
    obtain ⟨hc, hbit⟩ := List.mem_filter.mp hshown
    have hboth : (p.b.connected = true ∧ (p.b.controlMask != 0) = true) ∧
        btSessionReady p.b.session = true := by
          simpa only [controlsAvailable, Bool.and_eq_true] using havail
    refine ⟨fun hempty => ?_, hdigits, hon, hboth.1.1, hboth.2, c, hc, hname, hbit, hknown, hvalid⟩
    rcases hempty with hfield | hno
    · -- no control has an empty name
      have htable : ∀ c ∈ btControls, c.field ≠ asString [] := by decide
      rw [hfield] at hname
      exact htable c hc hname
    · exact hval hno

end Request

/-- The server beside a loop, before a password is set. -/
def serverOf (b : BluettiBle Nat) : Server Nat := { ruledServer with ble := b }

theorem authOk_serverOf (b : BluettiBle Nat) (r : Request) :
    (authOk quietOutside r (serverOf b)).1 = true := by
  have hopen : flag ruledServer.cfg .authSet = false := by decide +kernel
  unfold authOk
  simp only [serverOf, hopen, Bool.not_false, if_true]

theorem controls_reply_whole_outputOff :
    ∃ p, StepMachine.run (Poll.step toyEnv) (Poll.start true 20) outputOff = some p ∧
      Spells bytes (.value (controlsPage p.b))
        (hControlsGet (printsControls quietOutside (serverOf p.b)) (postOf "/api/controls" [])
          (serverOf p.b)).1.body ∧
      (shownControls p.b).map BtControl.field = ["ac_output", "dc_output", "power_lifting"] := by
  have hrun : (StepMachine.run (Poll.step toyEnv) (Poll.start true 20) outputOff).map
      (fun p => (shownControls p.b).map BtControl.field) =
        some ["ac_output", "dc_output", "power_lifting"] := by decide +kernel
  obtain ⟨p, hp, hshown⟩ := Option.map_eq_some_iff.mp hrun
  exact ⟨p, hp, (controls_reply_whole hp (authOk_serverOf p.b _) rfl).2.1, hshown⟩

/-- The DC output is switched on from the page. -/
def outletOn : List UInt8 := ascii "field=dc_output&value=1"

theorem control_form_iff_page_outputOff :
    ∃ p, StepMachine.run (Poll.step toyEnv) (Poll.start true 20) outputOff = some p ∧
      ((hControlSet quietOutside (postOf "/api/control" outletOn) (serverOf p.b)).1.status = .ok ↔
        (controlsAvailable p.b = true ∧ p.b.controls = true) ∧
          (formText outletOn "value" 8 ≠ [] ∧ (formText outletOn "value" 8).all isDigit = true) ∧
          ∃ c ∈ shownControls p.b, c.field = asString (formText outletOn "field" 24) ∧
            0 ≤ btControlCurrent c p.b.state ∧
            btControlValid c (atoi (formText outletOn "value" 8)) = true) := by
  have hrun :
      (StepMachine.run (Poll.step toyEnv) (Poll.start true 20) outputOff).isSome = true := by
    decide +kernel
  obtain ⟨p, hp⟩ := Option.isSome_iff_exists.mp hrun
  exact ⟨p, hp, control_form_iff_page hp (authOk_serverOf p.b _) rfl (by decide +kernel)⟩

end NutBluetti.Web
