/-
  File:      NutBluetti/Nut/Login.lean
  Subject:   THE NUT LOGIN, FROM THE FORM THAT SETS IT TO THE CLIENT THAT SIGNS IN (provisioning.c,
             main.c, nut_server.c). The form hashes up to 127 bytes of a password; a client's
             context keeps 64.

  * `nutVerifyLogin`, `startNutServer` -- the callback that main.c sets, and the server it starts;
  * `NutAccepted` -- a form that sets a NUT password was accepted;
  * `replies_loginStream` -- what the client is told, however its three lines arrive;
  * **`nut_login_iff`** -- it is told OK three times if and only if the password has at most 64
    bytes, or its first 64 hash to the same;
  * **`long_nut_password_denied`** -- 65 letters are accepted and never let a client in.
-/
import NutBluetti.Nut.Tokens
import NutBluetti.Nut.Client
import NutBluetti.Web.Credentials

namespace NutBluetti.Nut

open CText CLayout
open NutBluetti.Config
open NutBluetti.Web (Outside Request Server text cstr chr asString readBody formText formIsOne
  hAdminReconfigure sectionNut requireAuth withBody authOk runSection applySection keepText
  length_cstr_le length_formText_le)

/-! ## 1. The callback -/

/-- `nut_verify_login`. -/
def nutVerifyLogin (sha256 : List UInt8 → List UInt8) (cfg : Image) (user pass : String) : Bool :=
  if user = "" then false
  else decide (ascii user = text cfg .nutUser) && appConfigCheckNutPassword sha256 cfg (ascii pass)

/-- The NUT server as `start_services` starts it, with whatever is in its table by now. -/
def startNutServer (sha256 : List UInt8 → List UInt8) (cfg : Image) (driverVersion : String)
    (vars : VarTable) : NutServer where
  upsName := fit 32 (asString (text cfg .upsName))
  upsDesc := "BLUETTI via ESP32"
  driverVersion := driverVersion
  vars := vars
  authCb := if flag cfg .nutAuthSet then some (nutVerifyLogin sha256 cfg) else none

/-! ## 2. Bytes as characters -/

/-- The characters of a buffer, one a byte. -/
def charsOf (s : List UInt8) : List Char := s.map fun c => Char.ofNat c.toNat

theorem toList_asString (s : List UInt8) : (asString s).toList = charsOf s := String.toList_ofList

/-- Characters go back to the bytes they came from. -/
theorem ascii_asString (s : List UInt8) : ascii (asString s) = s := by
  unfold ascii
  rw [toList_asString, charsOf, List.map_map]
  refine (List.map_congr_left fun c _ => ?_).trans (List.map_id s)
  show UInt8.ofNat (Char.ofNat c.toNat).toNat = c
  rw [toNat_charOf, UInt8.ofNat_toNat]

/-- A buffer keeps the start of a text. -/
theorem fit_asString (sz : Nat) (s : List UInt8) :
    fit sz (asString s) = asString (s.take (sz - 1)) := by
  unfold fit
  rw [toList_asString, charsOf, ← List.map_take]
  rfl

theorem asString_eq_empty {s : List UInt8} : asString s = "" ↔ s = [] := by
  rw [← String.toList_eq_nil_iff, toList_asString, charsOf, List.map_eq_nil_iff]

/-- No blanks, quotes, backslashes or control characters. -/
def Clean (s : List UInt8) : Prop := ∀ c ∈ s, 32 < c ∧ c ≠ 127 ∧ c ≠ chr '"' ∧ c ≠ chr '\\'

instance (s : List UInt8) : Decidable (Clean s) := List.decidableBAll _ s

/-- Such a text is one token, and ends no line. -/
theorem Clean.char {s : List UInt8} (h : Clean s) : ∀ c ∈ charsOf s,
    isBlank c = false ∧ c ≠ '"' ∧ c ≠ '\n' ∧ c ≠ '\r' ∧ c ≠ '\x00' := by
  intro d hd
  obtain ⟨c, hc, rfl⟩ := List.mem_map.mp hd
  obtain ⟨hlow, -, hquote, -⟩ := h c hc
  have hlow : 32 < c.toNat := UInt8.lt_iff_toNat_lt.mp hlow
  have hsmall : ∀ d : Char, d.toNat ≤ 32 → Char.ofNat c.toNat ≠ d := fun d hd =>
    charOf_ne (by omega)
  have hq : Char.ofNat c.toNat ≠ '"' := charOf_ne fun heq => hquote (UInt8.toNat_inj.mp heq)
  refine ⟨?_, hq, hsmall _ (by decide), hsmall _ (by decide), hsmall _ (by decide)⟩
  unfold isBlank
  rw [decide_eq_false (hsmall ' ' (by decide)), decide_eq_false (hsmall '\t' (by decide))]
  rfl

/-! ## 3. The three commands -/

section Commands

variable {s : NutServer} {c : ClientCtx} {line : List Char} {sent : List Char} {arg : String}

/-- A command with one argument goes past the tables. -/
theorem handleLine_one {cmd : String} (h : tokenize line = [cmd, arg])
    (hlist : strcaseEq cmd "LIST" = false) (k : Sock) :
    handleLine s c line k = handleSession s c cmd [arg] k := by
  unfold handleLine
  rw [h]
  simp only [hlist, List.isEmpty_nil, Bool.not_true, Bool.and_false, Bool.false_eq_true, if_false]

theorem handleLine_username (h : tokenize line = ["USERNAME", arg]) (hc : c.user = "") :
    handleLine s c line ⟨sent, []⟩ =
    ({ c with user := fit 33 arg }, ⟨sent ++ "OK\n".toList, []⟩, 0) := by
  have hset : setOnce c.user 33 "ERR ALREADY-SET-USERNAME\n" [arg] ⟨sent, []⟩ =
      (fit 33 arg, ⟨sent ++ "OK\n".toList, []⟩, 0) := by
    rw [hc]
    rfl
  have hcmd : strcaseEq "USERNAME" "USERNAME" = true := by decide
  rw [handleLine_one h (by decide)]
  unfold handleSession
  rw [hcmd, if_pos rfl, hset]

theorem handleLine_password (h : tokenize line = ["PASSWORD", arg]) (hc : c.pass = "") :
    handleLine s c line ⟨sent, []⟩ =
    ({ c with pass := fit 65 arg }, ⟨sent ++ "OK\n".toList, []⟩, 0) := by
  have hset : setOnce c.pass 65 "ERR ALREADY-SET-PASSWORD\n" [arg] ⟨sent, []⟩ =
      (fit 65 arg, ⟨sent ++ "OK\n".toList, []⟩, 0) := by
    rw [hc]
    rfl
  have hcmd : strcaseEq "PASSWORD" "USERNAME" = false ∧ strcaseEq "PASSWORD" "PASSWORD" = true := by
    decide
  rw [handleLine_one h (by decide)]
  unfold handleSession
  rw [hcmd.1, if_neg Bool.false_ne_true, hcmd.2, if_pos rfl, hset]

/-- The reply to `LOGIN`. -/
def loginReply (s : NutServer) (user pass : String) : List Char :=
  if (s.authCb.map fun verify => verify user pass).getD true then "OK\n".toList
  else "ERR ACCESS-DENIED\n".toList

theorem handleLine_login (h : tokenize line = ["LOGIN"]) :
    ∃ c', handleLine s c line ⟨sent, []⟩ = (c', ⟨sent ++ loginReply s c.user c.pass, []⟩, 0) := by
  have hother : strcaseEq "LOGIN" "USERNAME" = false ∧ strcaseEq "LOGIN" "PASSWORD" = false := by
    decide
  have hcmd : (strcaseEq "LOGIN" "LOGIN" || strcaseEq "LOGIN" "PRIMARY" ||
      strcaseEq "LOGIN" "MASTER") = true := by
    decide
  unfold handleLine
  rw [h]
  show ∃ c', handleSession s c "LOGIN" [] ⟨sent, []⟩ = _
  unfold handleSession loginReply
  rw [hother.1, hother.2, if_neg Bool.false_ne_true, if_neg Bool.false_ne_true, hcmd, if_pos rfl]
  split
  · exact ⟨_, rfl⟩
  · exact ⟨_, rfl⟩

end Commands

/-! ## 4. The client's lines -/

def commandLine (cmd : String) (arg : List UInt8) : List Char := cmd.toList ++ ' ' :: charsOf arg

/-- What the client sends. -/
def loginStream (user pass : List UInt8) : List Char :=
  (commandLine "USERNAME" user ++ ['\n']) ++
    ((commandLine "PASSWORD" pass ++ ['\n']) ++ ("LOGIN".toList ++ ['\n']))

/-- A command word, and an argument that is one token. -/
structure Sendable (cmd : String) (arg : List UInt8) : Prop where
  word : cmd.toList ≠ [] ∧ ∀ c ∈ cmd.toList,
    isBlank c = false ∧ c ≠ '"' ∧ c ≠ '\n' ∧ c ≠ '\r' ∧ c ≠ '\x00'
  given : arg ≠ []
  clean : Clean arg
  short : cmd.toList.length + arg.length < 500

/-- The words of the three commands end no token and no line. -/
theorem word_commands : ∀ cmd ∈ ["USERNAME", "PASSWORD", "LOGIN"], cmd.toList ≠ [] ∧
    ∀ c ∈ cmd.toList, isBlank c = false ∧ c ≠ '"' ∧ c ≠ '\n' ∧ c ≠ '\r' ∧ c ≠ '\x00' := by
  have hall : ∀ cmd ∈ ["USERNAME", "PASSWORD", "LOGIN"], cmd.toList ≠ [] ∧ (cmd.toList.all fun c =>
      !isBlank c && c != '"' && c != '\n' && c != '\r' && c != '\x00') = true := by
    decide
  simpa [and_assoc] using hall

section Lines

variable {cmd : String} {arg : List UInt8}

theorem Sendable.tokens (h : Sendable cmd arg) :
    tokenize (commandLine cmd arg) = [cmd, asString arg] := by
  have hne : charsOf arg ≠ [] := fun heq => h.given (List.map_eq_nil_iff.mp heq)
  have hword : ∀ c ∈ cmd.toList, isBlank c = false ∧ c ≠ '"' := fun c hc =>
    ⟨(h.word.2 c hc).1, (h.word.2 c hc).2.1⟩
  have harg : ∀ c ∈ charsOf arg, isBlank c = false ∧ c ≠ '"' := fun c hc =>
    ⟨(h.clean.char c hc).1, (h.clean.char c hc).2.1⟩
  have hlast : tokenizeFrom 7 (charsOf arg) = [charsOf arg] := by
    have htoken := tokenizeFrom_word 6 (s := []) hne harg nofun
    rw [List.append_nil] at htoken
    exact htoken
  have hfirst : tokenizeFrom 8 (commandLine cmd arg) =
    cmd.toList :: tokenizeFrom 7 (charsOf arg) := by
    refine tokenizeFrom_word 7 (s := ' ' :: charsOf arg) h.word.1 hword fun c hc => ?_
    cases hc
    rfl
  show (tokenizeFrom 8 (commandLine cmd arg)).map String.ofList = _
  rw [hfirst, hlast, List.map_cons, List.map_singleton, String.ofList_toList]
  rfl

/-- The line has nothing in it that the loop acts on. -/
theorem Sendable.inert (h : Sendable cmd arg) :
    ∀ c ∈ commandLine cmd arg, c ≠ '\n' ∧ c ≠ '\r' ∧ c ≠ '\x00' := by
  intro c hc
  rcases List.mem_append.mp hc with hc | hc
  · exact (h.word.2 c hc).2.2
  · rcases List.mem_cons.mp hc with rfl | hc
    · decide
    · exact (h.clean.char c hc).2.2

theorem Sendable.length (h : Sendable cmd arg) :
    (commandLine cmd arg).length < clientRxBuf - 1 := by
  have hbuf : clientRxBuf - 1 = 511 := rfl
  have hshort := h.short
  rw [commandLine, List.length_append, List.length_cons, charsOf, List.length_map, hbuf]
  omega

end Lines

theorem stripCr_of_no_cr {line : List Char} (h : '\r' ∉ line) : stripCr line = line := by
  unfold stripCr
  rw [if_neg fun hlast => h (List.mem_of_getLast? hlast)]

/-- A line that is answered and closes nothing, as the loop sees it. -/
theorem feed_command {srv : NutServer} {c c' : ClientCtx} {k k' : Sock}
    {line : List Char} (h : handleLine srv c line k = (c', k', 0))
    (hinert : ∀ c ∈ line, c ≠ '\n' ∧ c ≠ '\r' ∧ c ≠ '\x00') (hlen : line.length < clientRxBuf - 1)
    (events : List ClientEvent) :
    LineStream.feed '\n' (clientRxBuf - 1) (recording (nutHandler srv))
      ⟨((c, k), events), [], false⟩
        (line ++ ['\n']) = ⟨((c', k'), events ++ [.line line]), [], false⟩ := by
  have hstrip : stripCr line = line := stripCr_of_no_cr fun hc => (hinert _ hc).2.1 rfl
  have hserve : (recording (nutHandler srv)).line ((c, k), events) line =
      (((c', k'), events ++ [.line line]), false) := by
    simp only [recording, nutHandler, hstrip, h]
    rfl
  rw [LineStream.feed_whole_line (by decide) _ (fun hc => (hinert _ hc).1 rfl) hlen, hserve]

/-- **What the client is told**, however its lines arrive. -/
theorem replies_loginStream (srv : NutServer) {user pass : List UInt8}
    (huser : Sendable "USERNAME" user) (hpass : Sendable "PASSWORD" pass)
    {chunks : List (List Char)}
    (h : Delivers (nutHandler srv) (ClientTask.start (ClientCtx.zero, Sock.fresh))
      (loginStream user pass) chunks) :
    (clientTask (nutHandler srv) (ClientTask.start (ClientCtx.zero, Sock.fresh))
      chunks).out.2.sent =
      "OK\n".toList ++ "OK\n".toList ++
        loginReply srv (fit 33 (asString user)) (fit 65 (asString pass)) := by
  have hlogin : ∀ c ∈ "LOGIN".toList, c ≠ '\n' ∧ c ≠ '\r' ∧ c ≠ '\x00' := fun c hc =>
    ((word_commands "LOGIN" (by simp)).2 c hc).2.2
  have hnul : '\x00' ∉ loginStream user pass := by
    unfold loginStream
    simp only [List.mem_append, not_or]
    exact ⟨⟨fun hc => (huser.inert _ hc).2.2 rfl, by decide⟩,
      ⟨fun hc => (hpass.inert _ hc).2.2 rfl, by decide⟩, by decide, by decide⟩
  -- the three commands, one after the other
  have h₁ : handleLine srv ClientCtx.zero (commandLine "USERNAME" user) Sock.fresh =
      (⟨fit 33 (asString user), "", false⟩, ⟨"OK\n".toList, []⟩, 0) :=
    handleLine_username huser.tokens rfl
  have h₂ : handleLine srv ⟨fit 33 (asString user), "", false⟩ (commandLine "PASSWORD" pass)
      ⟨"OK\n".toList, []⟩ = (⟨fit 33 (asString user), fit 65 (asString pass), false⟩,
        ⟨"OK\n".toList ++ "OK\n".toList, []⟩, 0) :=
    handleLine_password hpass.tokens rfl
  obtain ⟨c', h₃⟩ : ∃ c', handleLine srv ⟨fit 33 (asString user), fit 65 (asString pass), false⟩
      "LOGIN".toList ⟨"OK\n".toList ++ "OK\n".toList, []⟩ =
        (c', ⟨"OK\n".toList ++ "OK\n".toList ++
          loginReply srv (fit 33 (asString user)) (fit 65 (asString pass)), []⟩, 0) :=
    handleLine_login (by decide)
  have hstart : (ClientTask.start (ClientCtx.zero, Sock.fresh)).rx =
      ⟨((ClientCtx.zero, Sock.fresh), []), [], false⟩ := rfl
  have hrx := rx_clientTask (partial_start (ClientCtx.zero, Sock.fresh)) hnul h
  rw [hstart, loginStream, LineStream.feed_append,
    feed_command h₁ huser.inert huser.length, LineStream.feed_append,
    feed_command h₂ hpass.inert hpass.length, feed_command h₃ hlogin (by decide)] at hrx
  exact congrArg (fun r => r.out.1.2.sent) hrx

/-! ## 5. What the form stores -/

/-- The members that decide which client may sign in. -/
def nutLoginFields : List AppField := [.nutUser, .nutSalt, .nutHash, .nutAuthSet]

/-- Two configurations let in the same clients. -/
def SameNutLogin (a b : Image) : Prop := ∀ f ∈ nutLoginFields, a.read f.span = b.read f.span

/-- A restart keeps the NUT login. -/
theorem sameNutLogin_load_save (b : Board) (cfg : Image) :
    SameNutLogin (appConfigLoad b (some (appConfigSave cfg)) true) cfg := by
  intro f hf
  refine load_save b cfg ?_
  rintro rfl
  exact absurd hf (by decide)

variable {κ : Type}

/-- The "nut" section was posted with a user and a password, and the reply was no error. -/
structure NutAccepted (o : Outside) (r : Request) (s : Server κ) (body user pass : List UInt8) :
    Prop where
  received : readBody o r 1 65536 true = .ok body
  nut : formText body "section" 16 = ascii "nut"
  typed : formText body "nut_user" 128 = user ∧ formText body "nut_pass" 128 = pass
  given : user ≠ [] ∧ pass ≠ []
  login : formIsOne body "nut_noauth" 128 = false
  ok : (hAdminReconfigure o r s).1.status = .ok

section Accepted

variable {o : Outside} {r : Request} {s : Server κ} {body user pass : List UInt8}

theorem NutAccepted.cfg_eq (h : NutAccepted o r s body user pass) :
    (hAdminReconfigure o r s).2.cfg =
      Config.set (sectionNut o body (authOk o r s).2.cfg) .provisioned [1] := by
  have hok := h.ok
  have hnames : ascii "nut" ≠ ascii "bluetti" ∧ ascii "nut" ≠ ascii "pve" ∧
      ascii "nut" ≠ ascii "notify" ∧ ascii "nut" ≠ ascii "integrations" := by
    decide
  have hsection : ∀ cfg, runSection o body cfg (ascii "nut") = .ok (sectionNut o body cfg, []) := by
    intro cfg
    unfold runSection
    rw [if_neg hnames.1, if_pos rfl]
  unfold hAdminReconfigure requireAuth withBody at hok ⊢
  simp only [h.received, h.nut, hsection] at hok ⊢
  cases hauth : (authOk o r s).1 with
  | false =>
      rw [hauth] at hok
      cases hok
  | true =>
      simp only [hauth, Bool.not_true, Bool.false_eq_true, if_false] at hok ⊢
      split at hok
      · cases hok
      · rename_i hsaved
        rw [if_neg hsaved]
        unfold applySection
        rw [if_neg hnames.2.1, if_neg hnames.2.2.1, if_neg hnames.2.2.2]
        rfl

theorem text_strlcpy (img : Image) {f : AppField} {v : List UInt8} (hpos : 0 < f.span.size)
    (h : (0 : UInt8) ∉ v) : text (Config.strlcpy img f v) f = v.take (f.span.size - 1) := by
  have hlen : (v.take (f.span.size - 1) ++ [0]).length ≤ f.span.size := by
    rw [List.length_append, List.length_take, List.length_singleton]
    omega
  have hkeep : ∀ c ∈ v.take (f.span.size - 1), decide (c ≠ 0) = true := fun c hc =>
    decide_eq_true fun heq => h (heq ▸ List.mem_of_mem_take hc)
  obtain ⟨rest, hread⟩ := read_poke_start img hlen
  unfold text cstr Config.strlcpy Config.set
  rw [hread, List.append_assoc, List.takeWhile_append_of_pos hkeep]
  exact List.append_nil _

/-- **What the form leaves**: the start of the user's name, and the password. -/
theorem NutAccepted.stores (h : NutAccepted o r s body user pass) (hsalt : o.salt.length = 16)
    (hsha : ∀ m, (o.sha256 m).length = 32) :
    text (hAdminReconfigure o r s).2.cfg .nutUser = user.take 32 ∧
      HoldsSecret o.sha256 nutSecret (hAdminReconfigure o r s).2.cfg o.salt pass := by
  have hother : ∀ (img : Image) {f : AppField}, f ≠ .provisioned →
      (Config.set img .provisioned [1]).read f.span = img.read f.span := fun img f hf =>
    read_set_other img (Nat.le_of_eq rfl) hf
  have hnul : (0 : UInt8) ∉ user := fun hin => by
    rw [← h.typed.1] at hin
    exact absurd (List.mem_takeWhile_imp hin) (by decide)
  rw [h.cfg_eq]
  unfold sectionNut
  simp only [h.typed.2, if_neg h.given.2, h.login, Bool.false_eq_true, if_false]
  refine ⟨?_, ?_⟩
  · have hread : ∀ img : Image,
        (Config.set (setSecret o.sha256 o.salt nutSecret img pass) .provisioned [1]).read
          AppField.nutUser.span = img.read AppField.nutUser.span := fun img =>
      (hother _ (by decide)).trans
        (read_setSecret_other nutSecret_proper hsalt hsha img h.given.2 (by decide))
    refine (congrArg cstr (hread _)).trans ?_
    unfold keepText
    simp only [h.typed.1, if_neg h.given.1]
    exact text_strlcpy _ (by decide) hnul
  · obtain ⟨hset, hsalted, hhashed⟩ := holds_setSecret nutSecret_proper hsalt hsha _ h.given.2
    exact ⟨(hother _ (by decide)).trans hset, (hother _ (by decide)).trans hsalted,
      (hother _ (by decide)).trans hhashed⟩

end Accepted

/-! ## 6. Signing in -/

theorem ok_ne_denied :
    "OK\n".toList ++ "OK\n".toList ++ "OK\n".toList = "OK\nOK\nOK\n".toList ∧
      "OK\n".toList ++ "OK\n".toList ++ "ERR ACCESS-DENIED\n".toList ≠ "OK\nOK\nOK\n".toList := by
  decide

/-- Whom the callback lets in. -/
theorem verifies_iff {sha256 : List UInt8 → List UInt8} {cfg : Image} {salt user pass : List UInt8}
    (huser : text cfg .nutUser = user) (hne : user ≠ [])
    (h : HoldsSecret sha256 nutSecret cfg salt pass) (tried : List UInt8) :
    nutVerifyLogin sha256 cfg (asString user) (asString tried) = true ↔
      sha256 (salt ++ tried) = sha256 (salt ++ pass) := by
  have hgiven : ¬ asString user = "" := fun heq => hne (asString_eq_empty.mp heq)
  have hname : ascii (asString user) = text cfg .nutUser := by rw [ascii_asString, huser]
  unfold nutVerifyLogin
  rw [if_neg hgiven, decide_eq_true hname, Bool.true_and, ascii_asString]
  exact h.check_iff nutSecret_proper tried

/-- A fresh connection. -/
def freshClient : ClientTask (ClientCtx × Sock) := ClientTask.start (ClientCtx.zero, Sock.fresh)

section SigningIn

variable {o : Outside} {r : Request} {s : Server κ} {body user pass : List UInt8} {cfg : Image}
  {chunks : List (List Char)} (hsalt : o.salt.length = 16) (hsha : ∀ m, (o.sha256 m).length = 32)
  (hset : NutAccepted o r s body user pass) (hclean : Clean user ∧ Clean pass)
  (hkept : SameNutLogin cfg (hAdminReconfigure o r s).2.cfg) (driverVersion : String)
  (vars : VarTable)

include hsalt hsha hset hclean hkept

/-- What a client is told that sends what was stored and what was typed. -/
theorem sent_login (hsent : Delivers (nutHandler (startNutServer o.sha256 cfg driverVersion vars))
      freshClient (loginStream (text cfg .nutUser) pass) chunks) :
    (clientTask (nutHandler (startNutServer o.sha256 cfg driverVersion vars)) freshClient
        chunks).out.2.sent = "OK\n".toList ++ "OK\n".toList ++
      (if o.sha256 (o.salt ++ pass.take 64) = o.sha256 (o.salt ++ pass) then "OK\n".toList
      else "ERR ACCESS-DENIED\n".toList) := by
  obtain ⟨hname, hset', hsalted, hhashed⟩ := hset.stores hsalt hsha
  have huser : text cfg .nutUser = user.take 32 :=
    (congrArg cstr (hkept .nutUser (by decide))).trans hname
  have hholds : HoldsSecret o.sha256 nutSecret cfg o.salt pass :=
    ⟨(hkept _ (by decide)).trans hset', (hkept _ (by decide)).trans hsalted,
      (hkept _ (by decide)).trans hhashed⟩
  have hlen : pass.length ≤ 127 := by
    rw [← hset.typed.2]
    exact length_formText_le
  have hne : user.take 32 ≠ [] := fun heq => by
    rcases List.take_eq_nil_iff.mp heq with h0 | h0
    · cases h0
    · exact hset.given.1 h0
  have husername : Sendable "USERNAME" (user.take 32) := by
    have hshort := List.length_take_le 32 user
    exact ⟨word_commands _ (by simp), hne, fun c hc => hclean.1 c (List.mem_of_mem_take hc), by
      show 8 + _ < 500
      omega⟩
  have hpassword : Sendable "PASSWORD" pass :=
    ⟨word_commands _ (by simp), hset.given.2, hclean.2, by
      show 8 + _ < 500
      omega⟩
  have hauth : (startNutServer o.sha256 cfg driverVersion vars).authCb =
      some (nutVerifyLogin o.sha256 cfg) := if_pos (hholds.flag_eq nutSecret_proper)
  -- the context keeps the user's name, and 64 bytes of the password
  have hfit : fit 33 (asString (user.take 32)) = asString (user.take 32) := by
    rw [fit_asString, List.take_take]
    rfl
  have hverify := verifies_iff huser hne hholds (pass.take 64)
  rw [huser] at hsent
  have hreplies := replies_loginStream _ husername hpassword hsent
  rw [hfit, fit_asString, loginReply, hauth] at hreplies
  refine hreplies.trans (congrArg _ ?_)
  exact if_congr hverify rfl rfl

/-- **When a NUT password that was accepted lets a client in.** The form was accepted, the server
    runs with the login it stored, and a new client sends the stored user, that password and
    `LOGIN`, in whatever pieces: it is told OK three times if and only if the password has at most
    64 bytes, or its first 64 bytes hash as all of it. -/
theorem nut_login_iff
    (hsent : Delivers (nutHandler (startNutServer o.sha256 cfg driverVersion vars))
      freshClient (loginStream (text cfg .nutUser) pass) chunks) :
    (clientTask (nutHandler (startNutServer o.sha256 cfg driverVersion vars)) freshClient
        chunks).out.2.sent = "OK\nOK\nOK\n".toList ↔
      pass.length ≤ 64 ∨ o.sha256 (o.salt ++ pass.take 64) = o.sha256 (o.salt ++ pass) := by
  have hcut : pass.length ≤ 64 → pass.take 64 = pass := List.take_of_length_le
  rw [sent_login hsalt hsha hset hclean hkept driverVersion vars hsent]
  by_cases hsame : o.sha256 (o.salt ++ pass.take 64) = o.sha256 (o.salt ++ pass)
  · rw [if_pos hsame]
    exact iff_of_true ok_ne_denied.1 (.inr hsame)
  · rw [if_neg hsame]
    refine iff_of_false ok_ne_denied.2 ?_
    rintro (hshort | heq)
    · exact hsame (by rw [hcut hshort])
    · exact hsame heq

end SigningIn

section Demo

/-- The settings form with a NUT user and password, and the configuration after it and a restart. -/
def nutForm (user pass : List UInt8) : List UInt8 :=
  ascii "section=nut&nut_user=" ++ user ++ ascii "&nut_pass=" ++ pass

def postNut (pass : List UInt8) : Request :=
  Web.postOf "/api/reconfigure" (nutForm (ascii "upsmon") pass)

def restarted (pass : List UInt8) : Image :=
  appConfigLoad kconfigBoard (some (appConfigSave
    (hAdminReconfigure Web.setupOutside (postNut pass) Web.freshPortal.server).2.cfg)) true

/-- The lines arrive in one piece. -/
theorem delivers_login {σ : Type*} (H : Handler σ) (out : σ) {user pass : List UInt8}
    (hlen : user.length + pass.length ≤ 400) :
    Delivers H (ClientTask.start out) (loginStream user pass) [loginStream user pass] := by
  refine ⟨rfl, List.cons_ne_nil _ _, ?_, [], (List.append_nil _).symm, .inr rfl⟩
  show 0 + (loginStream user pass).length ≤ 511
  simp only [loginStream, commandLine, charsOf, List.length_append, List.length_cons,
    List.length_map, List.length_nil]
  have hwords : "USERNAME".toList.length = 8 ∧ "PASSWORD".toList.length = 8 ∧
      "LOGIN".toList.length = 5 := by
    decide
  omega

theorem length_restarted_user (pass : List UInt8) :
    (text (restarted pass) .nutUser).length ≤ 33 := by
  refine Nat.le_trans (length_cstr_le _) ?_
  simp only [Image.read, List.length_map, List.length_range]
  decide

theorem sameNutLogin_restarted (pass : List UInt8) : SameNutLogin (restarted pass)
    (hAdminReconfigure Web.setupOutside (postNut pass) Web.freshPortal.server).2.cfg :=
  sameNutLogin_load_save kconfigBoard _

def longPass : List UInt8 := List.replicate 65 (chr 'a')

theorem nut_login_iff_short :
    (clientTask (nutHandler (startNutServer Web.setupOutside.sha256 (restarted (ascii "secret"))
        "esp32-nut-bluetti 1.0" [])) freshClient
        [loginStream (text (restarted (ascii "secret")) .nutUser) (ascii "secret")]).out.2.sent =
        "OK\nOK\nOK\n".toList ↔
      (ascii "secret").length ≤ 64 ∨
        Web.setupOutside.sha256 (Web.setupOutside.salt ++ (ascii "secret").take 64) =
          Web.setupOutside.sha256 (Web.setupOutside.salt ++ ascii "secret") := by
  have haccepted : NutAccepted Web.setupOutside (postNut (ascii "secret")) Web.freshPortal.server
      (nutForm (ascii "upsmon") (ascii "secret")) (ascii "upsmon") (ascii "secret") :=
    ⟨rfl, by decide, by decide, by decide, by decide, by decide⟩
  have hclean : Clean (ascii "upsmon") ∧ Clean (ascii "secret") := by decide
  refine nut_login_iff (by decide) (fun _ => rfl) haccepted hclean
    (sameNutLogin_restarted (ascii "secret")) _ _ (delivers_login _ _ ?_)
  have hlen := length_restarted_user (ascii "secret")
  have hpass : (ascii "secret").length = 6 := by decide
  omega

/-- **A long NUT password locks every client out**: the form accepts 65 letters, and the server
    denies them. -/
theorem long_nut_password_denied :
    NutAccepted Web.setupOutside (postNut longPass) Web.freshPortal.server
        (nutForm (ascii "upsmon") longPass) (ascii "upsmon") longPass ∧
      Clean (ascii "upsmon") ∧ Clean longPass ∧
      SameNutLogin (restarted longPass)
        (hAdminReconfigure Web.setupOutside (postNut longPass) Web.freshPortal.server).2.cfg ∧
      (clientTask (nutHandler (startNutServer Web.setupOutside.sha256 (restarted longPass)
        "esp32-nut-bluetti 1.0" [])) freshClient
        [loginStream (text (restarted longPass) .nutUser) longPass]).out.2.sent ≠
          "OK\nOK\nOK\n".toList := by
  have haccepted : NutAccepted Web.setupOutside (postNut longPass) Web.freshPortal.server
      (nutForm (ascii "upsmon") longPass) (ascii "upsmon") longPass :=
    ⟨rfl, by decide, by decide, by decide, by decide, by decide⟩
  have hclean : Clean (ascii "upsmon") ∧ Clean longPass := by decide
  have hkept := sameNutLogin_restarted longPass
  have hhash : Web.setupOutside.sha256 (Web.setupOutside.salt ++ longPass.take 64) ≠
      Web.setupOutside.sha256 (Web.setupOutside.salt ++ longPass) := by
    decide
  refine ⟨haccepted, hclean.1, hclean.2, hkept, ?_⟩
  have hlen := length_restarted_user longPass
  have hpass : longPass.length = 65 := List.length_replicate
  have hsent := sent_login (by decide) (fun _ => rfl) haccepted hclean hkept
    "esp32-nut-bluetti 1.0" [] (delivers_login _ _ (by omega))
  rw [hsent, if_neg hhash]
  exact ok_ne_denied.2

end Demo

end NutBluetti.Nut
