/-
  File:      NutBluetti/Web/Sessions.lean
  Subject:   ADMIN SESSIONS (provisioning.c): tokens, the four slots, the cookie, and who is signed
             in.

  A token is 32 hex digits and cannot be anything else. A slot whose `tok[0]` is 0 holds none.

  * `tokEq_iff` -- the constant-time comparison is equality;
  * `Live` -- the request carries the token of a session that has not idled out;
  * **`authSlot_iff`** -- where no two slots hold one token, just such requests are let through.
-/
import Mathlib.Data.List.FinRange
import Mathlib.Data.List.TakeWhile
import Mathlib.Logic.Function.Basic
import NutBluetti.Web.Forms

namespace NutBluetti.Web

open NutBluetti.Config

abbrev sessionSlots : Nat := 4

instance : NeZero sessionSlots := inferInstanceAs (NeZero (3 + 1))

def sessionToklen : Nat := 32
def sessionIdleUs : Int := 8 * 3600 * 1000000

/-! ## 1. Tokens -/

/-- A session token: 32 hex digits. -/
structure Token where
  chars : List UInt8
  length_eq : chars.length = sessionToklen
  hex : ∀ c ∈ chars, isLowerHex c = true

theorem Token.ext_chars {a b : Token} (h : a.chars = b.chars) : a = b := by
  cases a
  cases b
  cases h
  rfl

instance : DecidableEq Token := fun a b =>
  if h : a.chars = b.chars then .isTrue (Token.ext_chars h)
  else .isFalse fun heq => h (congrArg Token.chars heq)

/-- The loop of `tok_eq` over what is left of the two tokens: `diff` gathers the bits that differ,
    and a NUL ends it. -/
def tokEqLoop : UInt8 → List UInt8 → List UInt8 → Bool
  | diff, a :: as, b :: bs =>
      let diff := diff ||| (a ^^^ b)
      if a = 0 ∨ b = 0 then false else tokEqLoop diff as bs
  | diff, _, _ => decide (diff = 0)

/-- `tok_eq`. -/
def tokEq (a b : Token) : Bool := tokEqLoop 0 a.chars b.chars

theorem isLowerHex_ne_zero {c : UInt8} (h : isLowerHex c = true) : c ≠ 0 := by
  rintro rfl
  exact absurd h (by decide)

theorem or_xor_eq_zero_iff (diff a b : UInt8) : diff ||| (a ^^^ b) = 0 ↔ diff = 0 ∧ a = b := by
  rw [UInt8.or_eq_zero_iff, UInt8.xor_eq_zero_iff]

/-- The bits that differ are gathered to the end. -/
theorem tokEqLoop_iff {as bs : List UInt8} (hlen : as.length = bs.length)
    (ha : ∀ c ∈ as, isLowerHex c = true) (hb : ∀ c ∈ bs, isLowerHex c = true) (diff : UInt8) :
    tokEqLoop diff as bs = true ↔ diff = 0 ∧ as = bs := by
  induction as generalizing bs diff with
  | nil =>
      cases bs with
      | nil => simp [tokEqLoop]
      | cons b bs => exact absurd hlen (by simp)
  | cons a as ih =>
      cases bs with
      | nil => exact absurd hlen (by simp)
      | cons b bs =>
          have ha0 := isLowerHex_ne_zero (ha a List.mem_cons_self)
          have hb0 := isLowerHex_ne_zero (hb b List.mem_cons_self)
          have hrest := ih (Nat.succ.inj hlen) (fun c hc => ha c (List.mem_cons_of_mem _ hc))
            (fun c hc => hb c (List.mem_cons_of_mem _ hc)) (diff ||| (a ^^^ b))
          simp only [tokEqLoop, ha0, hb0, or_self, if_false, hrest, or_xor_eq_zero_iff,
            List.cons.injEq]
          exact and_assoc

/-- **The constant-time comparison is equality.** -/
theorem tokEq_iff (a b : Token) : tokEq a b = true ↔ a = b := by
  unfold tokEq
  rw [tokEqLoop_iff (a.length_eq.trans b.length_eq.symm) a.hex b.hex]
  exact ⟨fun h => Token.ext_chars h.2, fun h => ⟨rfl, by rw [h]⟩⟩

/-! ## 2. Slots -/

/-- One element of `S`. -/
structure Slot where
  tok : Option Token
  lastUs : Int
  deriving DecidableEq

/-- What `memset` leaves. -/
def Slot.free : Slot := ⟨none, 0⟩

/-- The array `S`. -/
abbrev Sessions := Fin sessionSlots → Slot

/-- The slot a new session takes, of those from `i` on: the first free one, else the least recently
    used one. -/
def pickSlot (ss : Sessions) : Fin sessionSlots → List (Fin sessionSlots) → Fin sessionSlots
  | slot, [] => slot
  | slot, i :: rest =>
      if (ss i).tok = none then i
      else if (ss i).lastUs < (ss slot).lastUs then pickSlot ss i rest
      else pickSlot ss slot rest

/-- `session_new`, with the token the random numbers make. -/
def sessionNew (ss : Sessions) (tok : Token) (nowUs : Int) : Sessions :=
  Function.update ss (pickSlot ss 0 (List.finRange sessionSlots)) ⟨some tok, nowUs⟩

/-- The slot of a token: the first that compares equal. -/
def slotOf (ss : Sessions) (tok : Token) : Option (Fin sessionSlots) :=
  (List.finRange sessionSlots).find? fun i => (ss i).tok.any fun t => tokEq t tok

/-- `session_drop` of a token. -/
def dropToken (ss : Sessions) (tok : Token) : Sessions := fun i =>
  if (ss i).tok.any fun t => tokEq t tok then Slot.free else ss i

/-- The loop of `auth_ok`: whether the token is let through, and the sessions after it. -/
def authSlot (ss : Sessions) (tok : Token) (nowUs : Int) : Bool × Sessions :=
  match slotOf ss tok with
  | none => (false, ss)
  | some i =>
      if nowUs - (ss i).lastUs > sessionIdleUs then
        -- idled out
        (false, Function.update ss i Slot.free)
      else
        -- keep it alive
        (true, Function.update ss i { ss i with lastUs := nowUs })

/-- There is a session of this token that has not idled out. -/
def Live (ss : Sessions) (tok : Token) (nowUs : Int) : Prop :=
  ∃ i, (ss i).tok = some tok ∧ nowUs - (ss i).lastUs ≤ sessionIdleUs

/-- No two slots hold one token. -/
def Distinct (ss : Sessions) : Prop :=
  ∀ i j tok, (ss i).tok = some tok → (ss j).tok = some tok → i = j

/-- What `slotOf` looks for. -/
theorem holds_iff (ss : Sessions) (tok : Token) (i : Fin sessionSlots) :
    ((ss i).tok.any fun t => tokEq t tok) = true ↔ (ss i).tok = some tok := by
  cases (ss i).tok with
  | none => simp
  | some t => simp [tokEq_iff]

theorem slotOf_some {ss : Sessions} {tok : Token} {i : Fin sessionSlots}
    (h : slotOf ss tok = some i) :
    (ss i).tok = some tok := by
  unfold slotOf at h
  have hany := List.find?_some h
  exact (holds_iff ss tok i).mp hany

theorem slotOf_none {ss : Sessions} {tok : Token} (h : slotOf ss tok = none)
    (i : Fin sessionSlots) :
    (ss i).tok ≠ some tok := fun hi =>
  List.find?_eq_none.mp h i (List.mem_finRange i) ((holds_iff ss tok i).mpr hi)

/-- Only a live token is let through. -/
theorem authSlot_live {ss : Sessions} {tok : Token} {nowUs : Int}
    (h : (authSlot ss tok nowUs).1 = true) : Live ss tok nowUs := by
  unfold authSlot at h
  cases hslot : slotOf ss tok with
  | none =>
      rw [hslot] at h
      cases h
  | some i =>
      simp only [hslot] at h
      by_cases hidle : nowUs - (ss i).lastUs > sessionIdleUs
      · rw [if_pos hidle] at h
        cases h
      · exact ⟨i, slotOf_some hslot, Int.not_lt.mp hidle⟩

/-- **Just the live tokens are let through.** -/
theorem authSlot_iff {ss : Sessions} (hd : Distinct ss) (tok : Token) (nowUs : Int) :
    (authSlot ss tok nowUs).1 = true ↔ Live ss tok nowUs := by
  refine ⟨authSlot_live, fun ⟨i, hi, hlast⟩ => ?_⟩
  unfold authSlot
  cases hslot : slotOf ss tok with
  | none => exact absurd hi (slotOf_none hslot i)
  | some j =>
      have hij := hd i j tok hi (slotOf_some hslot)
      subst hij
      simp only [if_neg (Int.not_lt.mpr hlast)]

/-! ## 3. The cookie -/

/-- `strstr (…, "sid=")` from here on, at the start of the header or after a blank or a semicolon;
    `prev` is the character before. What follows the `sid=`. -/
def findSid : Option UInt8 → List UInt8 → Option (List UInt8)
  | _, [] => none
  | prev, c :: rest =>
      -- "othersid=" cannot match
      if (ascii "sid=").isPrefixOf (c :: rest) ∧
          (prev = none ∨ prev = some (chr ' ') ∨ prev = some (chr ';')) then
        some ((c :: rest).drop 4)
      else findSid (some c) rest

/-- The hex digits at the start of a text, if they are a token. -/
def leadingToken (s : List UInt8) : Option Token :=
  if h : (s.takeWhile isLowerHex).length = sessionToklen then
    some ⟨s.takeWhile isLowerHex, h, fun _ hc => List.mem_takeWhile_imp hc⟩
  else none

/-- `sizeof hdr` in `cookie_token`. -/
def cookieHdrSz : Nat := 256

/-- **`cookie_token`**, of the header's value if there is one: a value that does not fit is not
    read. -/
def cookieToken (cookie : Option (List UInt8)) : Option Token :=
  match cookie with
  | none => none
  | some hdr =>
      if hdr.length + 1 > cookieHdrSz then none
      else
        match findSid none hdr with
        | none => none
        | some s => leadingToken s

end NutBluetti.Web
