/-
  File:      NutBluetti/Web/Cookies.lean
  Subject:   WHICH COOKIE SIGNS IN (`cookie_token`, provisioning.c): the search for "sid=" against
             the header as the cookies it was written from.

  * `Cookie`, `cookieHeader` -- pairs of name and value, joined with "; ";
  * **`findSid_cookieHeader`** -- the search settles on the first cookie that is named sid or has a
    blank and "sid=" inside it, whichever comes first;
  * **`token_right_iff`** -- the token is the whole value of the first cookie named sid, exactly if
    that value does not go on behind a token and no such text before it holds another.
-/
import NutBluetti.Lib.CText
import NutBluetti.Web.Sessions

namespace NutBluetti.Web

open CText (split_at_first afterFirst afterFirst_eq_some isPrefixOf_append)
open NutBluetti.Config (ascii)

/-! ## 1. Cookies -/

/-- A cookie: its name ends at the first '=' and its value at the next ';'. -/
structure Cookie where
  name : List UInt8
  value : List UInt8
  name_plain : ∀ c ∈ name, c ≠ chr '=' ∧ c ≠ chr ';'
  value_plain : chr ';' ∉ value

def Cookie.text (c : Cookie) : List UInt8 := c.name ++ chr '=' :: c.value

/-- The value of the header that holds these cookies. -/
def cookieHeader : List Cookie → List UInt8
  | [] => []
  | [c] => c.text
  | c :: d :: cs => c.text ++ (ascii "; " ++ cookieHeader (d :: cs))

/-- The name of our cookie. -/
def sidName : List UInt8 := ascii "sid"

/-- The value of the first cookie with that name. -/
def sidValue (cs : List Cookie) : Option (List UInt8) :=
  (cs.find? fun c => c.name = sidName).map Cookie.value

/-- A cookie with another name, that ends in sid, or with "sid=" in its value. -/
def LookAlike (c : Cookie) : Prop :=
  c.name ≠ sidName ∧ (sidName <:+ c.name ∨ ascii "sid=" <:+: c.value)

instance (c : Cookie) : Decidable (LookAlike c) := inferInstanceAs (Decidable (_ ∧ _))

/-- **What is wanted of `cookie_token` for a header**: a token is the whole value of the first
    cookie named sid, and look-alikes make no difference. -/
structure TokenRight (cs : List Cookie) : Prop where
  whole : ∀ t, cookieToken (some (cookieHeader cs)) = some t ↔ sidValue cs = some t.chars
  apart : cookieToken (some (cookieHeader (cs.filter (¬LookAlike ·)))) =
    cookieToken (some (cookieHeader cs))

/-! ## 2. The search in one cookie -/

/-- The hex digits at the start of a text. -/
def hexRun (s : List UInt8) : List UInt8 := s.takeWhile isLowerHex

/-- The end of a cookie in the header. -/
def EndsCookie (rest : List UInt8) : Prop := ∀ c ∈ rest.head?, c = chr ';'

theorem EndsCookie.head_not_mem {rest pat : List UInt8} (h : EndsCookie rest)
    (hpat : chr ';' ∉ pat) :
    ∀ c ∈ rest.head?, c ∉ pat := fun c hc => h c hc ▸ hpat

/-- No digit follows a cookie. -/
theorem hexRun_append {rest : List UInt8} (h : EndsCookie rest) (s : List UInt8) :
    hexRun (s ++ rest) = hexRun s := by
  unfold hexRun
  rw [List.takeWhile_append]
  split
  case isTrue hall =>
    have hrest : rest.takeWhile isLowerHex = [] := by
      cases rest with
      | nil => rfl
      | cons c rest => exact List.takeWhile_cons_of_neg (by rw [h c rfl]; decide)
    rw [hrest, List.append_nil]
    exact ((List.takeWhile_prefix _).eq_of_length hall).symm
  case isFalse => rfl

/-- Where no "sid=" stands the search goes on. -/
theorem findSid_next {c : UInt8} {s : List UInt8} (h : (ascii "sid=").isPrefixOf (c :: s) = false)
    (prev : Option UInt8) : findSid prev (c :: s) = findSid (some c) s := by
  rw [findSid, h]
  exact if_neg fun hc => Bool.false_ne_true hc.1

/-- "sid=" right behind another character than a blank is passed over. -/
theorem findSid_inner {p c : UInt8} {s : List UInt8} (hblank : p ≠ chr ' ') (hsemi : p ≠ chr ';') :
    findSid (some p) (c :: s) = findSid (some c) s := by
  rw [findSid]
  refine if_neg fun hc => ?_
  obtain ⟨-, hp | hp | hp⟩ := hc
  · cases hp
  · exact hblank (Option.some.inj hp)
  · exact hsemi (Option.some.inj hp)

/-- At the start of the header and behind a blank it is found. -/
theorem findSid_found {prev : Option UInt8} (hprev : prev = none ∨ prev = some (chr ' '))
    (r : List UInt8) :
    findSid prev (ascii "sid=" ++ r) = some r := by
  show findSid prev (chr 's' :: (ascii "id=" ++ r)) = some r
  rw [findSid, if_pos ⟨List.isPrefixOf_iff_prefix.mpr ⟨r, rfl⟩, hprev.imp_right .inl⟩]
  rfl

/-- " sid=" at a place is a blank there and "sid=" behind it. -/
theorem afterFirst_next {p : UInt8} {s : List UInt8}
    (h : ¬(p = chr ' ' ∧ (ascii "sid=").isPrefixOf s = true)) :
    afterFirst (ascii " sid=") (p :: s) = afterFirst (ascii " sid=") s := by
  rw [afterFirst]
  refine if_neg fun hpre => h ?_
  have hboth : (chr ' ' == p && (ascii "sid=").isPrefixOf s) = true := hpre
  rw [Bool.and_eq_true, beq_iff_eq] at hboth
  exact ⟨hboth.1.symm, hboth.2⟩

/-- **Inside a cookie the search settles on the first blank with "sid=" behind it**; without one it
    goes on behind the cookie. -/
theorem findSid_inside {rest : List UInt8} {r : Option (List UInt8)} (hrest : EndsCookie rest)
    (hr : ∀ p, findSid (some p) rest = r) {t : List UInt8} {p : UInt8} (hsemi : chr ';' ∉ p :: t) :
    findSid (some p) (t ++ rest) =
    ((afterFirst (ascii " sid=") (p :: t)).map (· ++ rest)).or r := by
  induction t generalizing p with
  | nil =>
      rw [List.nil_append, hr, afterFirst_next (s := []) fun h => absurd h.2 (by decide)]
      rfl
  | cons c t ih =>
      have hnext := ih fun hin => hsemi (List.mem_cons_of_mem _ hin)
      by_cases hfound : p = chr ' ' ∧ (ascii "sid=").isPrefixOf (c :: t) = true
      · obtain ⟨rfl, hpre⟩ := hfound
        obtain ⟨w, hw⟩ := List.isPrefixOf_iff_prefix.mp hpre
        rw [← hw, List.append_assoc, findSid_found (.inr rfl)]
        rfl
      · rw [afterFirst_next hfound, ← hnext]
        by_cases hblank : p = chr ' '
        · have hnot : (ascii "sid=").isPrefixOf (c :: t ++ rest) = false := by
            rw [isPrefixOf_append (hrest.head_not_mem (by decide))]
            exact Bool.eq_false_iff.mpr fun hpre => hfound ⟨hblank, hpre⟩
          exact findSid_next hnot _
        · exact findSid_inner hblank fun heq => hsemi (heq ▸ List.mem_cons_self)

/-- Only a cookie named sid begins with "sid=". -/
theorem Cookie.name_of_prefix {c : Cookie} {rest : List UInt8}
    (h : (ascii "sid=").isPrefixOf (c.text ++ rest) = true) : c.name = sidName := by
  obtain ⟨r, hr⟩ := List.isPrefixOf_iff_prefix.mp h
  have hsplit : sidName ++ chr '=' :: r = c.name ++ chr '=' :: (c.value ++ rest) := by
    rw [show sidName ++ chr '=' :: r = ascii "sid=" ++ r from rfl, hr]
    unfold text
    rw [List.append_assoc, List.cons_append]
  exact (split_at_first (by decide) (fun hin => (c.name_plain _ hin).1 rfl) hsplit).1.symm

theorem Cookie.semicolon_not_mem (c : Cookie) : chr ';' ∉ c.text := by
  intro hin
  rcases List.mem_append.mp hin with hname | hvalue
  · exact (c.name_plain _ hname).2 rfl
  · rcases List.mem_cons.mp hvalue with heq | hvalue
    · exact absurd heq (by decide)
    · exact c.value_plain hvalue

theorem Cookie.text_ne_nil (c : Cookie) : c.text ≠ [] :=
  List.append_ne_nil_of_right_ne_nil _ (List.cons_ne_nil _ _)

/-- **One cookie**: our own is found at its start. -/
theorem findSid_cookie {prev : Option UInt8} (hprev : prev = none ∨ prev = some (chr ' '))
    (c : Cookie)
    {rest : List UInt8} {r : Option (List UInt8)} (hrest : EndsCookie rest)
    (hr : ∀ p, findSid (some p) rest = r) :
    findSid prev (c.text ++ rest) =
      if c.name = sidName then some (c.value ++ rest)
      else ((afterFirst (ascii " sid=") c.text).map (· ++ rest)).or r := by
  split
  case isTrue hname =>
    have htext : c.text ++ rest = ascii "sid=" ++ (c.value ++ rest) := by
      unfold Cookie.text
      rw [hname, List.append_assoc]
      rfl
    rw [htext, findSid_found hprev]
  case isFalse hname =>
    have hnot : (ascii "sid=").isPrefixOf (c.text ++ rest) = false :=
      Bool.eq_false_iff.mpr fun hpre => hname (Cookie.name_of_prefix hpre)
    obtain ⟨x, s, hs⟩ := List.exists_cons_of_ne_nil c.text_ne_nil
    have hsemi := c.semicolon_not_mem
    rw [hs] at hnot hsemi ⊢
    exact (findSid_next hnot prev).trans (findSid_inside hrest hr hsemi)

/-! ## 3. The search in the header -/

/-- What follows a cookie in the header. -/
def behind : List Cookie → List UInt8
  | [] => []
  | c :: cs => ascii "; " ++ cookieHeader (c :: cs)

theorem cookieHeader_cons (c : Cookie) (cs : List Cookie) :
    cookieHeader (c :: cs) = c.text ++ behind cs := by
  cases cs with
  | nil => exact (List.append_nil _).symm
  | cons d cs => rfl

theorem endsCookie_behind (cs : List Cookie) : EndsCookie (behind cs) := by
  cases cs with
  | nil => exact fun c hc => absurd hc (by simp [behind])
  | cons d cs => exact fun c hc => (Option.some.inj hc).symm

/-- Behind a cookie the search begins anew, with a blank before the next one. -/
theorem findSid_behind (p : UInt8) (cs : List Cookie) :
    findSid (some p) (behind cs) = findSid (some (chr ' ')) (cookieHeader cs) := by
  cases cs with
  | nil => rfl
  | cons c cs =>
      show findSid (some p) (chr ';' :: chr ' ' :: cookieHeader (c :: cs)) = _
      rw [findSid_next rfl, findSid_next rfl]

/-- What stands behind the first blank and "sid=" inside a cookie that comes before the first one
    named sid. -/
def inside : List Cookie → Option (List UInt8)
  | [] => none
  | c :: cs =>
      if c.name = sidName then none else (afterFirst (ascii " sid=") c.text).or (inside cs)

theorem sidValue_cons (c : Cookie) (cs : List Cookie) :
    sidValue (c :: cs) = if c.name = sidName then some c.value else sidValue cs := by
  unfold sidValue
  rw [List.find?_cons]
  split
  case h_1 h => rw [if_pos (of_decide_eq_true h)]; rfl
  case h_2 h => rw [if_neg (of_decide_eq_false h)]

/-- **The search of `cookie_token`**: the digits it comes to are those inside such a cookie, and
    without one those of our own. -/
theorem findSid_cookieHeader {prev : Option UInt8} (hprev : prev = none ∨ prev = some (chr ' '))
    (cs : List Cookie) : (findSid prev (cookieHeader cs)).map hexRun =
      ((inside cs).or (sidValue cs)).map hexRun := by
  induction cs generalizing prev with
  | nil => rfl
  | cons c cs ih =>
      have hcookie := findSid_cookie hprev c (endsCookie_behind cs) (fun p => findSid_behind p cs)
      have hrest := ih (.inr rfl)
      have hrun := hexRun_append (endsCookie_behind cs)
      rw [cookieHeader_cons, hcookie, sidValue_cons, inside]
      split
      case isTrue => rw [Option.none_or, Option.map_some, hrun]; rfl
      case isFalse =>
        cases hw : afterFirst (ascii " sid=") c.text with
        | none => exact hrest
        | some w => exact congrArg some (hrun w)

/-! ## 4. The token -/

/-- A token is read exactly where its digits, and no more, stand. -/
theorem leadingToken_iff (s : List UInt8) (t : Token) :
    leadingToken s = some t ↔ hexRun s = t.chars := by
  unfold leadingToken
  constructor
  · intro h
    split at h
    · exact congrArg Token.chars (Option.some.inj h)
    · cases h
  · intro h
    have hlen : (s.takeWhile isLowerHex).length = sessionToklen := by
      rw [← t.length_eq]
      exact congrArg List.length h
    rw [dif_pos hlen]
    exact congrArg some (Token.ext_chars h)

theorem hexRun_chars (t : Token) : hexRun t.chars = t.chars := List.takeWhile_eq_self_iff.mpr t.hex

/-- **`cookie_token`**: the digits that the search comes to are the token's. -/
theorem cookieToken_iff {cs : List Cookie} (hlen : (cookieHeader cs).length < cookieHdrSz)
    (t : Token) :
    cookieToken (some (cookieHeader cs)) = some t ↔
      ((inside cs).or (sidValue cs)).map hexRun = some t.chars := by
  have hread : cookieToken (some (cookieHeader cs)) =
    (findSid none (cookieHeader cs)).bind leadingToken := by
    refine (if_neg (by omega)).trans ?_
    cases findSid none (cookieHeader cs) with
    | none => rfl
    | some s => rfl
  rw [← findSid_cookieHeader (.inl rfl), hread]
  cases findSid none (cookieHeader cs) with
  | none =>
      rw [Option.bind_none, Option.map_none]
      simp only [reduceCtorEq]
  | some s =>
      rw [Option.map_some, Option.some.injEq, Option.bind_some]
      exact leadingToken_iff s t

/-! ## 5. Without the look-alikes -/

/-- A blank and "sid=" inside a cookie that is not ours make it a look-alike. -/
theorem lookAlike_of_inside {c : Cookie} {w : List UInt8} (hname : c.name ≠ sidName)
    (h : afterFirst (ascii " sid=") c.text = some w) : LookAlike c := by
  obtain ⟨l, hl⟩ := afterFirst_eq_some h
  refine ⟨hname, ?_⟩
  rcases List.append_eq_append_iff.mp hl with ⟨a, -, hvalue⟩ | ⟨a, hend, hvalue⟩
  · -- the blank comes after the name, and so after its '='
    right
    cases a with
    | nil => exact absurd (List.cons_eq_cons.mp hvalue).1 (by decide)
    | cons x a =>
        refine ⟨a ++ [chr ' '], w, ?_⟩
        rw [(List.cons_eq_cons.mp hvalue).2, List.append_assoc, List.append_assoc]
        rfl
  · -- it is in the name, which ends with what it begins
    left
    have hsplit : ascii " sid" ++ chr '=' :: w = a ++ chr '=' :: c.value := hvalue
    have hplain : chr '=' ∉ a :=
      fun hin => (c.name_plain _ (hend ▸ List.mem_append_right _ hin)).1 rfl
    refine ⟨l ++ [chr ' '], ?_⟩
    rw [hend, ← (split_at_first (by decide) hplain hsplit).1, List.append_assoc]
    rfl

/-- Without look-alikes only our own cookie is found. -/
theorem inside_filter (cs : List Cookie) : inside (cs.filter (¬LookAlike ·)) = none := by
  induction cs with
  | nil => rfl
  | cons c cs ih =>
      rw [List.filter_cons]
      split
      case isFalse => exact ih
      case isTrue hc =>
        rw [inside]
        split
        case isTrue => rfl
        case isFalse hname =>
          have hnone : afterFirst (ascii " sid=") c.text = none :=
            Option.eq_none_iff_forall_ne_some.mpr fun w hw =>
              of_decide_eq_true hc (lookAlike_of_inside hname hw)
          rw [hnone]
          exact ih

theorem sidValue_filter (cs : List Cookie) : sidValue (cs.filter (¬LookAlike ·)) = sidValue cs := by
  induction cs with
  | nil => rfl
  | cons c cs ih =>
      rw [List.filter_cons]
      split
      case isTrue => rw [sidValue_cons, sidValue_cons, ih]
      case isFalse hc =>
        have hlook : LookAlike c := Classical.byContradiction fun hnot => hc (decide_eq_true hnot)
        rw [sidValue_cons, if_neg hlook.1, ih]

theorem length_behind_cons (c : Cookie) (cs : List Cookie) :
    (behind (c :: cs)).length = c.text.length + (behind cs).length + 2 := by
  show (cookieHeader (c :: cs)).length + 1 + 1 = _
  rw [cookieHeader_cons, List.length_append]

theorem length_cookieHeader (cs : List Cookie) :
    (cookieHeader cs).length = (behind cs).length - 2 := by
  cases cs with
  | nil => rfl
  | cons c cs => rw [length_behind_cons, cookieHeader_cons, List.length_append, Nat.add_sub_cancel]

/-- A header with fewer cookies is no longer. -/
theorem length_cookieHeader_filter (p : Cookie → Bool) (cs : List Cookie) :
    (cookieHeader (cs.filter p)).length ≤ (cookieHeader cs).length := by
  have hbehind : (behind (cs.filter p)).length ≤ (behind cs).length := by
    induction cs with
    | nil => exact Nat.le_refl _
    | cons c cs ih =>
        rw [List.filter_cons, length_behind_cons]
        split
        · rw [length_behind_cons]
          omega
        · omega
  rw [length_cookieHeader, length_cookieHeader]
  omega

/-- **Without the look-alikes** the token is read from the start of our own cookie's value. -/
theorem cookieToken_filter {cs : List Cookie} (hlen : (cookieHeader cs).length < cookieHdrSz)
    (t : Token) :
    cookieToken (some (cookieHeader (cs.filter (¬LookAlike ·)))) = some t ↔
      ∃ v, sidValue cs = some v ∧ hexRun v = t.chars := by
  rw [cookieToken_iff (Nat.lt_of_le_of_lt (length_cookieHeader_filter _ cs) hlen), inside_filter,
    Option.none_or, sidValue_filter, Option.map_eq_some_iff]

/-! ## 6. Our own cookie, whole -/

/-- A value is taken for the token at its start only if it is the token, exactly if it does not go
    on behind a token's digits. -/
theorem hexRun_whole_iff (o : Option (List UInt8)) :
    (∀ t : Token, (∃ v, o = some v ∧ hexRun v = t.chars) ↔ o = some t.chars) ↔
      ∀ v, o = some v → (hexRun v).length = sessionToklen → v.length = sessionToklen := by
  constructor
  · intro h v hv hrun
    -- the token that the digits are
    obtain ⟨t, ht⟩ : ∃ t : Token, hexRun v = t.chars :=
      ⟨⟨hexRun v, hrun, fun _ hc => List.mem_takeWhile_imp hc⟩, rfl⟩
    have hwhole := (h t).mp ⟨v, hv, ht⟩
    rw [hv] at hwhole
    rw [Option.some.inj hwhole, t.length_eq]
  · intro h t
    constructor
    · intro ⟨v, hv, ht⟩
      have hlength : v.length = sessionToklen := h v hv (by rw [ht, t.length_eq])
      have hwhole : hexRun v = v := (List.takeWhile_prefix isLowerHex).eq_of_length (by
        show (hexRun v).length = v.length
        rw [ht, t.length_eq, hlength])
      rw [hv, ← hwhole, ht]
    · intro hv
      exact ⟨t.chars, hv, hexRun_chars t⟩

/-- **The token is the whole value of the first cookie named sid**, and look-alikes make no
    difference, exactly if that value does not go on behind a token's digits, and just the same
    token's digits stand at the start of it and behind a blank and "sid=" inside a cookie that comes
    before. -/
theorem token_right_iff {cs : List Cookie} (hlen : (cookieHeader cs).length < cookieHdrSz) :
    TokenRight cs ↔
      (∀ v, sidValue cs = some v → (hexRun v).length = sessionToklen → v.length = sessionToklen) ∧
      ∀ w, inside cs = some w → ∀ t : Token,
        hexRun w = t.chars ↔ ∃ v, sidValue cs = some v ∧ hexRun v = t.chars := by
  have hread := cookieToken_iff hlen
  have hfilter := cookieToken_filter hlen
  rw [← hexRun_whole_iff]
  constructor
  · intro h
    have hsame : ∀ t : Token, cookieToken (some (cookieHeader cs)) = some t ↔
        ∃ v, sidValue cs = some v ∧ hexRun v = t.chars := fun t => by rw [← h.apart, hfilter]
    refine ⟨fun t => (hsame t).symm.trans (h.whole t), fun w hw t => ?_⟩
    rw [← hsame, hread, hw, Option.some_or, Option.map_some, Option.some.injEq]
  · intro ⟨hwhole, hagree⟩
    have hsame : ∀ t : Token, cookieToken (some (cookieHeader cs)) = some t ↔
        ∃ v, sidValue cs = some v ∧ hexRun v = t.chars := by
      intro t
      rw [hread]
      cases hw : inside cs with
      | none => rw [Option.none_or, Option.map_eq_some_iff]
      | some w =>
          rw [Option.some_or, Option.map_some, Option.some.injEq]
          exact hagree w hw t
    exact ⟨fun t => (hsame t).trans (hwhole t),
      Option.ext fun t => (hfilter t).trans (hsame t).symm⟩

/-- A session cookie, with something behind its digits or nothing. -/
def sessionCookie (extra : List UInt8) (h : chr ';' ∉ extra) : Cookie where
  name := sidName
  value := ascii "0123456789abcdef0123456789abcdef" ++ extra
  name_plain := by decide +kernel
  value_plain := fun hin => (List.mem_append.mp hin).elim (by decide +kernel) h

def themeCookie : Cookie := ⟨ascii "theme", ascii "dark", by decide +kernel, by decide +kernel⟩

/-- A cookie that another page can set. -/
def noteCookie : Cookie :=
  ⟨ascii "note", ascii "a sid=ffffffffffffffffffffffffffffffff", by decide +kernel, by
    decide +kernel⟩

theorem token_right_iff_theme : TokenRight [themeCookie, sessionCookie [] (by decide)] := by
  have hvalue : sidValue [themeCookie, sessionCookie [] (by decide)] =
      some (ascii "0123456789abcdef0123456789abcdef") := by decide +kernel
  have hinside : inside [themeCookie, sessionCookie [] (by decide)] = none := by decide +kernel
  refine (token_right_iff (by decide +kernel)).mpr ⟨fun v hv _ => ?_, fun w hw => ?_⟩
  · rw [hvalue] at hv
    rw [← Option.some.inj hv]
    decide +kernel
  · rw [hinside] at hw
    cases hw

/-- Behind the digits anything else may follow; and what stands inside another cookie is read
    instead of our own. -/
theorem token_wrong : ¬TokenRight [sessionCookie (ascii "g") (by decide)] ∧
    ¬TokenRight [noteCookie, sessionCookie [] (by decide)] := by
  constructor
  · intro h
    have hlong :=
      (h.whole ⟨ascii "0123456789abcdef0123456789abcdef", by decide, by decide +kernel⟩).mp
      (by decide +kernel)
    exact absurd hlong (by decide +kernel)
  · intro h
    have hnote :=
      (h.whole ⟨ascii "ffffffffffffffffffffffffffffffff", by decide, by decide +kernel⟩).mp
      (by decide +kernel)
    exact absurd hnote (by decide +kernel)

end NutBluetti.Web
