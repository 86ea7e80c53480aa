/-
  File:      NutBluetti/Nut/Commands.lean
  Subject:   THE COMMANDS OF THE NUT SERVER (nut_server.c): what is written to a client's socket,
             the quoting, the tokens of a line and `handle_line`.

  What a `char` buffer holds before its NUL is a list of characters here, one a byte; the texts the
  server stores are strings, as in the table. The verdict of the login callback is a parameter.
-/
import NutBluetti.Nut.Vars

namespace NutBluetti.Nut

open CText

/-! ## 1. The socket -/

def clientTxBuf : Nat := 1024

/-- A connected socket: what was written to it, and how its next `send_all` calls end: `none` for a
    whole write, `some n` for one that fails after `n` bytes; whole ones after the last. -/
structure Sock where
  sent : List Char
  faults : List (Option Nat)

def Sock.fresh : Sock := ⟨[], []⟩

/-- `send_all`. -/
def sendAll (k : Sock) (data : List Char) : Sock × Int :=
  if data = [] then (k, 0)
  else
    match k.faults with
    | [] => (⟨k.sent ++ data, []⟩, 0)
    | none :: fs => (⟨k.sent ++ data, fs⟩, 0)
    | some n :: fs => (⟨k.sent ++ data.take n, fs⟩, -1)

/-- `send_str`. -/
def sendStr (k : Sock) (str : List Char) : Sock × Int := sendAll k str

/-- `send_fmt`, of the text as it comes out of the format. -/
def sendFmt (k : Sock) (text : List Char) : Sock × Int := sendAll k (text.take (clientTxBuf - 1))

/-! ## 2. Lines -/

/-- `snprintf` into a buffer of `sz` bytes. -/
def snprintf (sz : Nat) (text : List Char) : List Char := text.take (sz - 1)

/-- `strlcat` onto a buffer of `sz` bytes. -/
def strlcat (sz : Nat) (dst src : List Char) : List Char := (dst ++ src).take (sz - 1)

/-- The loop of `append_quoted` over the source. -/
def appendEscaped (dstsz : Nat) : List Char → List Char → List Char
  | dst, [] => dst
  | dst, c :: src =>
      if dst.length + 2 < dstsz then
        let dst := if c = '"' ∨ c = '\\' then dst ++ ['\\'] else dst
        appendEscaped dstsz (dst ++ [c]) src
      else dst

/-- `append_quoted`. -/
def appendQuoted (dst : List Char) (dstsz : Nat) (src : List Char) : List Char :=
  let dst := if dst.length + 1 < dstsz then dst ++ ['"'] else dst
  let dst := appendEscaped dstsz dst src
  if dst.length + 1 < dstsz then dst ++ ['"'] else dst

/-! ## 3. Tokens -/

def maxTokens : Nat := 8

def isBlank (c : Char) : Bool := c = ' ' || c = '\t'

/-- `tokenize`, with room for `n` more tokens. -/
def tokenizeFrom : Nat → List Char → List (List Char)
  | 0, _ => []
  | n + 1, line =>
      match line.dropWhile isBlank with
      | [] => []
      | '"' :: p => p.takeWhile (· ≠ '"') :: tokenizeFrom n ((p.dropWhile (· ≠ '"')).drop 1)
      | p => p.takeWhile (fun c => !isBlank c) ::
          tokenizeFrom n ((p.dropWhile fun c => !isBlank c).drop 1)

def tokenize (line : List Char) : List String :=
  (tokenizeFrom maxTokens line).map String.ofList

/-- `strcasecmp (a, b) == 0`. -/
def strcaseEq (a b : String) : Bool := a.toList.map Char.toLower = b.toList.map Char.toLower

/-! ## 4. The server and its commands -/

/-- `s`, as far as a client's commands use it. -/
structure NutServer where
  upsName : String
  upsDesc : String
  driverVersion : String
  vars : VarTable
  /-- `auth_cb`, where one is set. -/
  authCb : Option (String → String → Bool)

/-- `client_ctx_t`. -/
structure ClientCtx where
  user : String
  pass : String
  loggedIn : Bool

def ClientCtx.zero : ClientCtx := ⟨"", "", false⟩

/-- `char line[64 + NUT_VAR_VALUE_LEN]`. -/
def varLineSz : Nat := 64 + nutVarValueLen

/-- The line `cmd_list_var` and `cmd_get_var` build for a variable. -/
def varLine (ups name value : String) : List Char :=
  let line := snprintf varLineSz
    ("VAR " ++ ups ++ " " ++ name ++ " ").toList
  let line := appendQuoted line varLineSz value.toList
  strlcat varLineSz line "\n".toList

section Commands

variable (s : NutServer)

/-- `ups_matches`. -/
def upsMatches (name : String) : Bool := name = s.upsName

/-- `cmd_list_ups`. -/
def cmdListUps (k : Sock) : Sock × Int :=
  let line := strlcat 128 "UPS ".toList s.upsName.toList
  let line := strlcat 128 line " ".toList
  let line := appendQuoted line 128 s.upsDesc.toList
  sendFmt k ("BEGIN LIST UPS\n" ++ String.ofList line ++ "\nEND LIST UPS\n").toList

/-- The loop of `cmd_list_var` over the slots, until a send fails. -/
def listVars (ups : String) : VarTable → Sock → Sock × Int
  | [], k => (k, 0)
  | none :: t, k => listVars ups t k
  | some (name, value) :: t, k =>
      let (k, rc) := sendStr k (varLine ups name value)
      if rc = 0 then listVars ups t k else (k, rc)

/-- `cmd_list_var`. -/
def cmdListVar (ups : String) (k : Sock) : Sock × Int :=
  if !upsMatches s ups then sendStr k "ERR UNKNOWN-UPS\n".toList
  else
    let (k, rc) := sendFmt k ("BEGIN LIST VAR " ++ ups ++ "\n").toList
    if rc < 0 then (k, -1)
    else
      let (k, rc) := listVars ups s.vars k
      if rc < 0 then (k, -1)
      else sendFmt k ("END LIST VAR " ++ ups ++ "\n").toList

/-- `cmd_get_var`. -/
def cmdGetVar (ups var : String) (k : Sock) : Sock × Int :=
  if !upsMatches s ups then sendStr k "ERR UNKNOWN-UPS\n".toList
  else
    match Slots.lookup var s.vars with
    | some value => sendStr k (varLine ups var value)
    | none => sendStr k "ERR VAR-NOT-SUPPORTED\n".toList

/-- The subjects `LIST` answers with an empty list. -/
def emptyLists : List String := ["RW", "CMD", "ENUM", "RANGE", "CLIENT", "CLIENTS"]

/-- `LIST`, with its subject and what follows it. -/
def handleList (what : String) (args : List String) (k : Sock) : Sock × Int :=
  if strcaseEq what "UPS" then cmdListUps s k
  else
    match args with
    | [] => sendStr k "ERR INVALID-ARGUMENT\n".toList
    | ups :: _ =>
        if strcaseEq what "VAR" then cmdListVar s ups k
        else if emptyLists.any (strcaseEq what) then
          sendFmt k ("BEGIN LIST " ++ what ++ " " ++ ups ++ "\nEND LIST " ++ what ++ " " ++ ups ++
            "\n").toList
        else sendStr k "ERR INVALID-ARGUMENT\n".toList

/-- `GET`, with its subject, the UPS and what follows. -/
def handleGet (what ups : String) (args : List String) (k : Sock) : Sock × Int :=
  if strcaseEq what "VAR" && !args.isEmpty then cmdGetVar s ups (args.headD "") k
  else if strcaseEq what "UPSDESC" then
    if !upsMatches s ups then sendStr k "ERR UNKNOWN-UPS\n".toList
    else
      let out := snprintf 128 ("UPSDESC " ++ ups ++ " ").toList
      let out := appendQuoted out 128 s.upsDesc.toList
      sendStr k (strlcat 128 out "\n".toList)
  else if strcaseEq what "NUMLOGINS" then
    sendFmt k ("NUMLOGINS " ++ ups ++ " 0\n").toList
  else if strcaseEq what "DESC" && !args.isEmpty then
    let var := args.headD ""
    sendFmt k ("DESC " ++ ups ++ " " ++ var ++ " \"" ++ var ++ "\"\n").toList
  else if strcaseEq what "TYPE" && !args.isEmpty then
    sendFmt k ("TYPE " ++ ups ++ " " ++ args.headD "" ++ " STRING:" ++
      toString (nutVarValueLen - 1) ++ "\n").toList
  else sendStr k "ERR INVALID-ARGUMENT\n".toList

/-- `USERNAME` and `PASSWORD`: set once, from the first argument. -/
def setOnce (old : String) (sz : Nat) (already : String) (args : List String) (k : Sock) :
    String × Sock × Int :=
  match args with
  | [] => (old, sendStr k "ERR INVALID-ARGUMENT\n".toList)
  | arg :: _ =>
      if old ≠ "" then (old, sendStr k already.toList)
      else (fit sz arg, sendStr k "OK\n".toList)

/-- The commands that read no table. -/
def handleSession (c : ClientCtx) (cmd : String) (args : List String) (k : Sock) :
    ClientCtx × Sock × Int :=
  if strcaseEq cmd "USERNAME" then
    let (user, r) := setOnce c.user 33 "ERR ALREADY-SET-USERNAME\n" args k
    ({ c with user := user }, r)
  else if strcaseEq cmd "PASSWORD" then
    let (pass, r) := setOnce c.pass 65 "ERR ALREADY-SET-PASSWORD\n" args k
    ({ c with pass := pass }, r)
  else if strcaseEq cmd "LOGIN" || strcaseEq cmd "PRIMARY" || strcaseEq cmd "MASTER" then
    if (s.authCb.map fun verify => verify c.user c.pass).getD true then
      ({ c with loggedIn := true }, sendStr k "OK\n".toList)
    else (c, sendStr k "ERR ACCESS-DENIED\n".toList)
  else if strcaseEq cmd "LOGOUT" then
    -- The line is closed whether or not the goodbye went out.
    ({ c with loggedIn := false }, (sendStr k "OK Goodbye\n".toList).1, -1)
  else if strcaseEq cmd "STARTTLS" then (c, sendStr k "ERR FEATURE-NOT-CONFIGURED\n".toList)
  else if strcaseEq cmd "VER" then
    (c, sendStr k (snprintf 52 (s.driverVersion ++ "\n").toList))
  else if strcaseEq cmd "NETVER" || strcaseEq cmd "PROTVER" then (c, sendStr k "1.3\n".toList)
  else if strcaseEq cmd "HELP" then
    (c, sendStr k
      "Commands: HELP VER GET LIST LOGIN LOGOUT USERNAME PASSWORD STARTTLS\n".toList)
  else (c, sendStr k "ERR UNKNOWN-COMMAND\n".toList)

/-- **`handle_line`**; a result below zero closes the connection. -/
def handleLine (c : ClientCtx) (line : List Char) (k : Sock) : ClientCtx × Sock × Int :=
  match tokenize line with
  | [] => (c, k, 0)
  | [cmd] => handleSession s c cmd [] k
  | cmd :: what :: args =>
      if strcaseEq cmd "LIST" then (c, handleList s what args k)
      else if strcaseEq cmd "GET" && !args.isEmpty then
        (c, handleGet s what (args.headD "") args.tail k)
      else handleSession s c cmd (what :: args) k

end Commands

end NutBluetti.Nut
