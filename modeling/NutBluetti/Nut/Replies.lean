/-
  File:      NutBluetti/Nut/Replies.lean
  Subject:   THE `LIST VAR` AND `GET VAR` REPLIES, written and read back.

  A reader knows the UPS name it asked for; it takes the lines of a reply apart by the words and the
  quotes, undoing the escapes.

  * `wholeLine` -- a variable's line as the protocol has it, `varLine_eq_iff` -- when the buffer
    holds it;
  * `readVars_lines` -- whole lines are read back, entry by entry;
  * `cmdListVar_sent`, `cmdGetVar_sent` -- what the two commands write;
  * **`replies_whole_iff`** -- both replies are whole and read back for every variable exactly when
    the UPS name, the name and the escaped value of each have 118 characters at most.
-/
import NutBluetti.Lib.Quoting
import NutBluetti.Nut.Commands

namespace NutBluetti.Nut

open CText

/-! ## 1. A line -/

/-- The words before the value. -/
def varWords (ups name : String) : List Char :=
  ("VAR " ++ ups ++ " " ++ name ++ " ").toList

def escaped (value : String) : List Char := Quoting.escape '"' '\\' value.toList

/-- `VAR <ups> <name> "<escaped value>"` and a newline. -/
def wholeLine (ups name value : String) : List Char :=
  varWords ups name ++ '"' :: (escaped value ++ ['"', '\n'])

/-- The line fits the buffer it is built in. -/
def LineFits (ups name value : String) : Prop :=
  ups.length + name.length + (escaped value).length ≤ 118

instance (ups name value : String) : Decidable (LineFits ups name value) :=
  inferInstanceAs (Decidable (_ ≤ _))

theorem length_varWords (ups name : String) :
    (varWords ups name).length = ups.length + name.length + 6 := by
  have h4 : "VAR ".length = 4 := by decide
  have h1 : " ".length = 1 := by decide
  simp only [varWords, String.length_toList, String.length_append]
  omega

theorem length_wholeLine (ups name value : String) : (wholeLine ups name value).length =
    ups.length + name.length + (escaped value).length + 9 := by
  simp only [wholeLine, List.length_append, List.length_cons, List.length_nil, length_varWords]
  omega

/-- With room for all of it the loop of `append_quoted` writes the whole escaped text. -/
theorem appendEscaped_of_fits {sz : Nat} (src : List Char) :
    ∀ dst : List Char, dst.length + (Quoting.escape '"' '\\' src).length + 2 ≤ sz →
      appendEscaped sz dst src = dst ++ Quoting.escape '"' '\\' src := by
  induction src with
  | nil => intro dst _; simp [appendEscaped]
  | cons c src ih =>
      intro dst h
      rw [Quoting.escape_cons, List.length_append] at h
      have hpos := List.length_pos_iff.mpr (Quoting.escapeChar_ne_nil (q := '"') (e := '\\') c)
      rw [appendEscaped, if_pos (by omega)]
      by_cases hc : c = '"' ∨ c = '\\'
      · simp only [Quoting.escapeChar, if_pos hc, List.length_cons, List.length_nil] at h
        simp only [if_pos hc]
        rw [ih _ (by simp only [List.length_append, List.length_cons, List.length_nil]; omega)]
        simp [Quoting.escapeChar, hc]
      · simp only [Quoting.escapeChar, if_neg hc, List.length_cons, List.length_nil] at h
        simp only [if_neg hc]
        rw [ih _ (by simp only [List.length_append, List.length_cons, List.length_nil]; omega)]
        simp [Quoting.escapeChar, hc]

/-- The buffer never holds more than it has room for. -/
theorem length_varLine_le (ups name value : String) : (varLine ups name value).length ≤ 127 :=
  List.length_take_le _ _

theorem varLine_of_fits {ups name value : String} (h : LineFits ups name value) :
    varLine ups name value = wholeLine ups name value := by
  have hw := length_varWords ups name
  have hsz : varLineSz = 128 := rfl
  unfold LineFits at h
  have h1 : snprintf varLineSz (varWords ups name) = varWords ups name :=
    List.take_of_length_le (by omega)
  have h2 : appendQuoted (varWords ups name) varLineSz value.toList =
      varWords ups name ++ ('"' :: escaped value) ++ ['"'] := by
    unfold appendQuoted
    simp only [if_pos (show (varWords ups name).length + 1 < varLineSz by omega)]
    rw [appendEscaped_of_fits _ _ (by
      rw [← escaped, List.length_append, List.length_singleton]
      omega), ← escaped]
    rw [if_pos (by
      simp only [List.length_append, List.length_singleton]
      omega)]
    simp
  have h3 : varLine ups name value = strlcat varLineSz
      (appendQuoted (snprintf varLineSz (varWords ups name)) varLineSz value.toList) "\n".toList :=
        rfl
  rw [h3, h1, h2, strlcat, List.take_of_length_le]
  · simp [wholeLine]
  · simp only [List.length_append, List.length_cons, List.length_nil]
    show _ + 1 ≤ _
    omega

/-- **When a line is whole**: exactly when it fits. -/
theorem varLine_eq_iff {ups name value : String} :
    varLine ups name value = wholeLine ups name value ↔ LineFits ups name value := by
  refine ⟨fun h => ?_, varLine_of_fits⟩
  have hle := length_varLine_le ups name value
  rw [h, length_wholeLine] at hle
  unfold LineFits
  omega

/-! ## 2. Reading a reply -/

/-- The text after a word that has to stand there. -/
def expect (word s : List Char) : Option (List Char) :=
  if word.isPrefixOf s then some (s.drop word.length) else none

/-- One line of a reply: name, value and the rest. -/
def readVar (ups : String) (s : List Char) : Option ((String × String) × List Char) :=
  (expect ("VAR " ++ ups ++ " ").toList s).bind fun s =>
    let name := s.takeWhile (· ≠ ' ')
    (expect " \"".toList (s.drop name.length)).bind fun s =>
      (Quoting.readQuoted '"' '\\' s).bind fun p =>
        (expect "\n".toList p.2).map fun rest =>
          ((String.ofList name, String.ofList p.1), rest)

/-- At most `n` lines, up to the first text that is none. -/
def readVars (ups : String) : Nat → List Char → List (String × String) × List Char
  | 0, s => ([], s)
  | n + 1, s =>
      match readVar ups s with
      | none => ([], s)
      | some (e, rest) =>
          let r := readVars ups n rest
          (e :: r.1, r.2)

def beginLine (ups : String) : List Char := ("BEGIN LIST VAR " ++ ups ++ "\n").toList
def endLine (ups : String) : List Char := ("END LIST VAR " ++ ups ++ "\n").toList

/-- A whole reply: its entries, if there is nothing else between the first line and the last. -/
def readReply (ups : String) (s : List Char) : Option (List (String × String)) :=
  (expect (beginLine ups) s).bind fun s =>
    let r := readVars ups s.length s
    if r.2 = endLine ups then some r.1 else none

theorem expect_append (word rest : List Char) : expect word (word ++ rest) = some rest := by
  simp [expect]

/-- A whole line is read back, whatever follows. -/
theorem readVar_wholeLine {ups name : String} (hn : ' ' ∉ name.toList) (value : String)
    (rest : List Char) :
    readVar ups (wholeLine ups name value ++ rest) = some ((name, value), rest) := by
  have htake :
      (name.toList ++ (" \"".toList ++ (escaped value ++ '"' :: ("\n".toList ++ rest)))).takeWhile
      (· ≠ ' ') = name.toList := by
    have hall : ∀ c ∈ name.toList, decide (c ≠ ' ') = true := fun c hc => by
      have hne : c ≠ ' ' := fun h => hn (h ▸ hc)
      simpa using hne
    rw [List.takeWhile_append_of_pos hall]
    simp
  have hline : wholeLine ups name value ++ rest = ("VAR " ++ ups ++ " ").toList ++
      (name.toList ++ (" \"".toList ++ (escaped value ++ '"' :: ("\n".toList ++ rest)))) := by
    simp [wholeLine, varWords]
  rw [hline, readVar, expect_append, Option.bind_some]
  simp only [htake, List.drop_left]
  rw [expect_append, Option.bind_some, escaped, Quoting.readQuoted_escape (by decide),
    Option.bind_some, expect_append]
  simp

/-- The last line of a reply is no line of a variable. -/
theorem readVar_endLine (ups : String) : readVar ups (endLine ups) = none := by
  have hno : ("VAR " ++ ups ++ " ").toList.isPrefixOf (endLine ups) = false := by
    simp only [endLine, String.toList_append, String.reduceToList, List.cons_append]
    rfl
  rw [readVar, expect, hno]
  rfl

/-- **Whole lines are read back**, entry by entry, up to the end of the reply. -/
theorem readVars_lines {ups : String} {es : List (String × String)}
    (hn : ∀ e ∈ es, ' ' ∉ e.1.toList) {n : Nat} (h : es.length ≤ n) :
    readVars ups n ((es.flatMap fun e => wholeLine ups e.1 e.2) ++ endLine ups) =
      (es, endLine ups) := by
  induction es generalizing n with
  | nil =>
      cases n with
      | zero => rfl
      | succ n => simp [readVars, readVar_endLine]
  | cons e es ih =>
      obtain ⟨he, hes⟩ := List.forall_mem_cons.mp hn
      cases n with
      | zero => simp at h
      | succ n =>
          rw [List.flatMap_cons, List.append_assoc, readVars, readVar_wholeLine he]
          simp only [ih hes (Nat.le_of_succ_le_succ h)]

theorem length_le_flatMap {es : List (String × String)} (ups : String) :
    es.length ≤ (es.flatMap fun e => wholeLine ups e.1 e.2).length := by
  induction es with
  | nil => exact Nat.le_refl 0
  | cons e es ih =>
      rw [List.flatMap_cons, List.length_append, List.length_cons, length_wholeLine]
      omega

theorem readReply_lines {ups : String} {es : List (String × String)}
    (hn : ∀ e ∈ es, ' ' ∉ e.1.toList) :
    readReply ups (beginLine ups ++ (es.flatMap fun e => wholeLine ups e.1 e.2) ++ endLine ups) =
      some es := by
  have hlen : es.length ≤ (es.flatMap fun e => wholeLine ups e.1 e.2).length :=
    length_le_flatMap ups
  rw [readReply, List.append_assoc, expect_append, Option.bind_some]
  rw [readVars_lines hn (by rw [List.length_append]; omega)]
  simp

/-! ## 3. What the commands write -/

theorem listVars_sent (ups : String) (t : VarTable) (sent : List Char) :
    listVars ups t ⟨sent, []⟩ =
      (⟨sent ++ (Slots.entries t).flatMap fun e => varLine ups e.1 e.2, []⟩, 0) := by
  induction t generalizing sent with
  | nil => simp [listVars, Slots.entries]
  | cons slot t ih =>
      cases slot with
      | none => exact ih sent
      | some e =>
          obtain ⟨name, value⟩ := e
          by_cases hl : varLine ups name value = []
          · simp [listVars, sendStr, sendAll, hl, ih, Slots.entries]
          · simp [listVars, sendStr, sendAll, hl, ih, Slots.entries]

theorem length_beginLine (ups : String) : (beginLine ups).length = ups.length + 16 := by
  have h15 : "BEGIN LIST VAR ".length = 15 := by decide
  have h1 : "\n".length = 1 := by decide
  simp only [beginLine, String.length_toList, String.length_append]
  omega

theorem length_endLine (ups : String) : (endLine ups).length = ups.length + 14 := by
  have h13 : "END LIST VAR ".length = 13 := by decide
  have h1 : "\n".length = 1 := by decide
  simp only [endLine, String.length_toList, String.length_append]
  omega

section Sent

variable {s : NutServer}

/-- `LIST VAR`, where every send succeeds. -/
theorem cmdListVar_sent (hups : s.upsName.length ≤ 31) :
    (cmdListVar s s.upsName Sock.fresh).1.sent = beginLine s.upsName ++
      ((Slots.entries s.vars).flatMap fun e => varLine s.upsName e.1 e.2) ++ endLine s.upsName := by
  have hb : (beginLine s.upsName).take (clientTxBuf - 1) = beginLine s.upsName :=
    List.take_of_length_le (by rw [length_beginLine, clientTxBuf]; omega)
  have he : (endLine s.upsName).take (clientTxBuf - 1) = endLine s.upsName :=
    List.take_of_length_le (by rw [length_endLine, clientTxBuf]; omega)
  have hbne : beginLine s.upsName ≠ [] := by simp [beginLine]
  have hene : endLine s.upsName ≠ [] := by simp [endLine]
  have hbegin : sendFmt Sock.fresh (beginLine s.upsName) = (⟨beginLine s.upsName, []⟩, 0) := by
    simp [sendFmt, hb, sendAll, hbne, Sock.fresh]
  have hend : ∀ sent, sendFmt ⟨sent, []⟩ (endLine s.upsName) =
      (⟨sent ++ endLine s.upsName, []⟩, 0) := by
    intro sent
    simp [sendFmt, he, sendAll, hene]
  unfold cmdListVar
  rw [← beginLine, ← endLine, hbegin]
  simp [upsMatches, listVars_sent, hend]

/-- `GET VAR` of a name, where every send succeeds. -/
theorem cmdGetVar_sent (name : String) :
    (cmdGetVar s s.upsName name Sock.fresh).1.sent =
      match Slots.lookup name s.vars with
      | some value => varLine s.upsName name value
      | none => "ERR VAR-NOT-SUPPORTED\n".toList := by
  unfold cmdGetVar
  cases h : Slots.lookup name s.vars with
  | none => simp [upsMatches, sendStr, sendAll, Sock.fresh]
  | some value =>
      by_cases hl : varLine s.upsName name value = []
      · simp [upsMatches, sendStr, sendAll, Sock.fresh, hl]
      · simp [upsMatches, sendStr, sendAll, Sock.fresh, hl]

end Sent

/-! ## 4. Whole replies -/

/-- A name of 1 to 39 characters, none of them blank. -/
def NameAdmitted (name : String) : Prop :=
  1 ≤ name.length ∧ name.length ≤ 39 ∧ ∀ c ∈ name.toList, c.isWhitespace = false

/-- A value of up to 63 characters without a newline. -/
def ValueAdmitted (value : String) : Prop := value.length ≤ 63 ∧ '\n' ∉ value.toList

instance (name : String) : Decidable (NameAdmitted name) :=
  decidable_of_iff
    (1 ≤ name.length ∧ name.length ≤ 39 ∧ (name.toList.all fun c => !c.isWhitespace) = true)
    (by simp only [NameAdmitted, List.all_eq_true, Bool.not_eq_true'])

instance (value : String) : Decidable (ValueAdmitted value) := inferInstanceAs (Decidable (_ ∧ _))

/-- A table as the calls of the interface leave it, under a UPS name its buffer holds. -/
structure Admitted (s : NutServer) : Prop where
  ups : s.upsName.length ≤ 31
  distinct : (Slots.keys s.vars).Nodup
  names : ∀ e ∈ Slots.entries s.vars, NameAdmitted e.1
  values : ∀ e ∈ Slots.entries s.vars, ValueAdmitted e.2

/-- A call of the interface with an admitted name, and a value without a newline. -/
def CallAdmitted : VarCall → Prop
  | .set name value => NameAdmitted name ∧ '\n' ∉ value.toList
  | .clear _ => True

/-- The reply to `LIST VAR` is whole and reads back as the table; `GET VAR` gives the same lines. -/
structure RepliesWhole (s : NutServer) : Prop where
  list : (cmdListVar s s.upsName Sock.fresh).1.sent = beginLine s.upsName ++
    ((Slots.entries s.vars).flatMap fun e => wholeLine s.upsName e.1 e.2) ++ endLine s.upsName
  read : readReply s.upsName (cmdListVar s s.upsName Sock.fresh).1.sent =
    some (Slots.entries s.vars)
  get : ∀ e ∈ Slots.entries s.vars,
    (cmdGetVar s s.upsName e.1 Sock.fresh).1.sent = wholeLine s.upsName e.1 e.2

/-- **When both replies are whole**: exactly when every variable in use fits its line. -/
theorem replies_whole_iff (s : NutServer) (h : Admitted s) :
    RepliesWhole s ↔ ∀ e ∈ Slots.entries s.vars, LineFits s.upsName e.1 e.2 := by
  have hget : ∀ e ∈ Slots.entries s.vars,
      (cmdGetVar s s.upsName e.1 Sock.fresh).1.sent = varLine s.upsName e.1 e.2 := by
    intro e he
    rw [cmdGetVar_sent, Slots.lookup_of_mem_entries h.distinct he]
  constructor
  · intro hw e he
    refine varLine_eq_iff.mp ?_
    rw [← hget e he]
    exact hw.get e he
  · intro hfit
    have hline : ∀ e ∈ Slots.entries s.vars,
        varLine s.upsName e.1 e.2 = wholeLine s.upsName e.1 e.2 :=
      fun e he => varLine_of_fits (hfit e he)
    have hlist : (cmdListVar s s.upsName Sock.fresh).1.sent = beginLine s.upsName ++
        ((Slots.entries s.vars).flatMap fun e => wholeLine s.upsName e.1 e.2) ++
        endLine s.upsName := by
      rw [cmdListVar_sent h.ups, List.flatMap_congr hline]
    have hblank : ∀ e ∈ Slots.entries s.vars, ' ' ∉ e.1.toList := fun e he hm =>
      absurd ((h.names e he).2.2 ' ' hm) (by decide)
    refine ⟨hlist, ?_, fun e he => (hget e he).trans (hline e he)⟩
    rw [hlist]
    exact readReply_lines hblank

theorem mem_entries_run {c : VarCall} (hc : CallAdmitted c) {t : VarTable} {e : String × String}
    (he : e ∈ Slots.entries (c.run t)) :
    e ∈ Slots.entries t ∨ NameAdmitted e.1 ∧ ValueAdmitted e.2 := by
  cases c with
  | clear n => exact .inl (Slots.mem_entries_clear he)
  | set n v =>
      obtain ⟨hname, hnl⟩ := hc
      have hlen : n.length < nutVarNameLen := Nat.lt_succ_of_le hname.2.1
      rw [VarCall.slotCall_run (c := .set n v) hlen] at he
      refine (Slots.entries_run he).imp_right fun ⟨k, w, hput, hkw⟩ => ?_
      obtain ⟨rfl, rfl⟩ := Slots.Call.put.inj hput
      subst hkw
      refine ⟨hname, ?_, fun hm => hnl ?_⟩
      · show (fit nutVarValueLen v).length ≤ 63
        rw [← String.length_toList, fit, String.toList_ofList]
        exact List.length_take_le _ _
      · rw [fit, String.toList_ofList] at hm
        exact List.mem_of_mem_take hm

/-- **The tables the interface leaves are admitted ones.** -/
theorem admitted_runCalls {s : NutServer} (h : Admitted s) {cs : List VarCall}
    (hcs : ∀ c ∈ cs, CallAdmitted c) : Admitted { s with vars := runCalls cs s.vars } := by
  induction cs generalizing s with
  | nil => exact h
  | cons c cs ih =>
      obtain ⟨hc, hcs⟩ := List.forall_mem_cons.mp hcs
      have hdistinct : (Slots.keys (c.run s.vars)).Nodup := by
        cases c with
        | clear n => exact Slots.nodup_keys_run h.distinct (.clear n)
        | set n v =>
            have hlen : n.length < nutVarNameLen := Nat.lt_succ_of_le hc.1.2.1
            rw [VarCall.slotCall_run (c := .set n v) hlen]
            exact Slots.nodup_keys_run h.distinct _
      refine ih (s := { s with vars := c.run s.vars }) ⟨h.ups, hdistinct, ?_, ?_⟩ hcs
      · intro e he
        rcases mem_entries_run hc he with he | he
        · exact h.names e he
        · exact he.1
      · intro e he
        rcases mem_entries_run hc he with he | he
        · exact h.values e he
        · exact he.2

/-! A table whose lines fit, with quotes and backslashes in a value, and one whose first line does
    not: a value of 56 quotes, which is 112 characters escaped. -/

def fittingServer : NutServer :=
  ⟨"bluetti", "AC200M", "esp32-nut-bluetti 1.0",
    runCalls [.set "ups.status" "OL CHRG", .set "device.mfr" "a \"b\" \\ c"] [none, none, none],
    none⟩

def cutServer : NutServer :=
  ⟨"b", "AC200M", "esp32-nut-bluetti 1.0",
    runCalls [.set "ups.id" (String.ofList (List.replicate 56 '"')), .set "a" "OL"] [none, none],
    none⟩

/-- A server with nothing in its table. -/
theorem admitted_empty {s : NutServer} (hups : s.upsName.length ≤ 31)
    (hvars : Slots.entries s.vars = []) : Admitted s := by
  refine ⟨hups, ?_, ?_, ?_⟩
  · rw [Slots.keys_eq, hvars]
    exact List.nodup_nil
  · rw [hvars]
    exact fun _ he => absurd he List.not_mem_nil
  · rw [hvars]
    exact fun _ he => absurd he List.not_mem_nil

theorem admitted_fittingServer : Admitted fittingServer := by
  refine admitted_runCalls (s := { fittingServer with vars := [none, none, none] })
    (admitted_empty (by decide) rfl) ?_
  exact List.forall_mem_cons.mpr ⟨⟨by decide, by decide⟩,
    List.forall_mem_singleton.mpr ⟨by decide, by decide⟩⟩

theorem admitted_cutServer : Admitted cutServer := by
  refine admitted_runCalls (s := { cutServer with vars := [none, none] })
    (admitted_empty (by decide) rfl) ?_
  refine List.forall_mem_cons.mpr
    ⟨⟨by decide, ?_⟩, List.forall_mem_singleton.mpr ⟨by decide, by decide⟩⟩
  rw [String.toList_ofList, List.mem_replicate]
  decide

theorem replies_whole_iff_fittingServer : RepliesWhole fittingServer :=
  (replies_whole_iff fittingServer admitted_fittingServer).mpr (by decide)

/-- The line of the long variable has lost its newline: the next variable's line runs on in it, and
    the reply does not read back. -/
theorem long_line_is_cut :
    Admitted cutServer ∧
      '\n' ∉ (cmdGetVar cutServer cutServer.upsName "ups.id" Sock.fresh).1.sent ∧
      readReply cutServer.upsName (cmdListVar cutServer cutServer.upsName Sock.fresh).1.sent ≠
        some (Slots.entries cutServer.vars) ∧
      ¬ RepliesWhole cutServer := by
  have hread : readReply cutServer.upsName
      (cmdListVar cutServer cutServer.upsName Sock.fresh).1.sent ≠
        some (Slots.entries cutServer.vars) := by decide +kernel
  exact ⟨admitted_cutServer, by decide +kernel, hread, fun h => hread h.read⟩

end NutBluetti.Nut
