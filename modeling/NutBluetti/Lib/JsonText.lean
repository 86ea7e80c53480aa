/-
  File:      NutBluetti/Lib/JsonText.lean
  Subject:   JSON TEXTS, as a grammar over any alphabet, and texts that are printed without
             escaping.

  * `Alphabet` -- how ASCII is written, what is a control character, what `\u` stands for;
  * `Spells` -- the grammar: a text is one of the spellings of a value, with blanks and escapes
    where JSON has them;
  * `Part.raw` -- what a `printf` makes of a value: strings between quotes, as they are;
  * `Spells.length_le` -- no spelling is shorter than that, and none with an escape is as short;
  * **`spells_raw_iff`** -- a value that is printed raw is spelled if and only if its strings hold
    no quote, no backslash and no control character.
-/
import Mathlib.Algebra.Group.Nat.Defs
import Mathlib.Data.List.Basic

namespace JsonText

/-! ## 1. Alphabets and values -/

/-- The characters of a text. -/
structure Alphabet (α : Type*) where
  /-- An ASCII character. -/
  lit : Char → α
  isControl : α → Bool
  /-- What the code point of an escape stands for. -/
  code : Nat → List α
  code_short : ∀ n, (code n).length < 6

inductive Value (α : Type*) where
  | null
  | bool (b : Bool)
  /-- A number, as it is written. -/
  | num (digits : List α)
  | str (s : List α)
  | arr (items : List (Value α))
  | obj (members : List (List α × Value α))

/-- A value, or what stands between the brackets of one. -/
inductive Part (α : Type*) where
  | value (v : Value α)
  | items (vs : List (Value α))
  | members (ms : List (List α × Value α))

section Grammar

variable {α : Type*} (A : Alphabet α)

namespace Alphabet

/-- A word of ASCII characters. -/
def word (s : String) : List α := s.toList.map A.lit

def quote (t : List α) : List α := A.lit '"' :: (t ++ [A.lit '"'])

/-- A character that stands for itself in a string. -/
def Ordinary (c : α) : Prop := c ≠ A.lit '"' ∧ c ≠ A.lit '\\' ∧ A.isControl c = false

instance [DecidableEq α] (c : α) : Decidable (A.Ordinary c) :=
  inferInstanceAs (Decidable (_ ∧ _ ∧ _))

/-- A text that needs no escape. -/
def PlainText (s : List α) : Prop := ∀ c ∈ s, A.Ordinary c

instance [DecidableEq α] (s : List α) : Decidable (A.PlainText s) := List.decidableBAll A.Ordinary s

def IsBlank (w : List α) : Prop := ∀ c ∈ w, ∃ b ∈ [' ', '\t', '\n', '\r'], c = A.lit b

def IsDigits (ds : List α) : Prop := ds ≠ [] ∧ ∀ c ∈ ds, ∃ d ∈ "0123456789".toList, c = A.lit d

/-- A whole number without its sign: no zero stands in front of another digit. -/
def IsWhole (ds : List α) : Prop :=
  ds = A.word "0" ∨ ∃ d ∈ "123456789".toList, ∃ more, ds = A.lit d :: more ∧
    (more = [] ∨ A.IsDigits more)

/-- A number: sign, whole part, fraction, exponent. -/
structure IsNumber (ds : List α) : Prop where
  parts : ∃ sign whole fraction exponent, ds = sign ++ whole ++ fraction ++ exponent ∧
    (sign = [] ∨ sign = A.word "-") ∧ A.IsWhole whole ∧
    (fraction = [] ∨ ∃ fs, A.IsDigits fs ∧ fraction = A.lit '.' :: fs) ∧
    (exponent = [] ∨ ∃ e ∈ ['e', 'E'], ∃ s ∈ ["", "+", "-"], ∃ es, A.IsDigits es ∧
      exponent = A.lit e :: (A.word s ++ es))

/-- A hexadecimal digit. -/
def IsHex (n : Nat) (c : α) : Prop :=
  ∃ d, c = A.lit d ∧
    ("0123456789abcdef".toList[n]? = some d ∨ "0123456789ABCDEF".toList[n]? = some d)

/-- `\uXXXX`. -/
inductive CodeUnit : Nat → List α → Prop
  | mk {a b c d : Nat} {w x y z : α} : A.IsHex a w → A.IsHex b x → A.IsHex c y → A.IsHex d z →
      CodeUnit (a * 4096 + b * 256 + c * 16 + d) [A.lit '\\', A.lit 'u', w, x, y, z]

/-- The escapes of two characters, and what they stand for. -/
def escapes : List (Char × Char) :=
  [('"', '"'), ('\\', '\\'), ('/', '/'), ('b', Char.ofNat 8), ('f', Char.ofNat 12), ('n', '\n'),
  ('r', '\r'),
    ('t', '\t')]

/-- An escape, after what it stands for. -/
inductive Escaped : List α → List α → Prop
  | short {e c : Char} : (e, c) ∈ escapes → Escaped [A.lit c] [A.lit '\\', A.lit e]
  | unit {n : Nat} {t : List α} :
      A.CodeUnit n t → ¬ (0xD800 ≤ n ∧ n ≤ 0xDFFF) → Escaped (A.code n) t
  | pair {m n : Nat} {t t' : List α} : A.CodeUnit m t → A.CodeUnit n t' → 0xD800 ≤ m → m ≤ 0xDBFF →
      0xDC00 ≤ n → n ≤ 0xDFFF →
      Escaped (A.code (0x10000 + (m - 0xD800) * 0x400 + (n - 0xDC00))) (t ++ t')

/-- What stands between the quotes of a string, after the string. -/
inductive SpellsText : List α → List α → Prop
  | nil : SpellsText [] []
  | plain {c : α} {s t : List α} : A.Ordinary c → SpellsText s t → SpellsText (c :: s) (c :: t)
  | escaped {e t s' t' : List α} : A.Escaped e t → SpellsText s' t' → SpellsText (e ++ s') (t ++ t')

end Alphabet

/-- **The grammar of JSON**: a text that spells a value. -/
inductive Spells : Part α → List α → Prop
  | null : Spells (.value .null) (A.word "null")
  | yes : Spells (.value (.bool true)) (A.word "true")
  | no : Spells (.value (.bool false)) (A.word "false")
  | num {ds : List α} : A.IsNumber ds → Spells (.value (.num ds)) ds
  | str {s t : List α} : A.SpellsText s t → Spells (.value (.str s)) (A.quote t)
  | arr {vs : List (Value α)} {t : List α} : Spells (.items vs) t →
      Spells (.value (.arr vs)) (A.lit '[' :: (t ++ [A.lit ']']))
  | obj {ms : List (List α × Value α)} {t : List α} : Spells (.members ms) t →
      Spells (.value (.obj ms)) (A.lit '\x7b' :: (t ++ [A.lit '\x7d']))
  | blanks {v : Value α} {w t w' : List α} : A.IsBlank w → Spells (.value v) t → A.IsBlank w' →
      Spells (.value v) (w ++ t ++ w')
  | noItems {w : List α} : A.IsBlank w → Spells (.items []) w
  | lastItem {v : Value α} {t : List α} : Spells (.value v) t → Spells (.items [v]) t
  | item {u v : Value α} {vs : List (Value α)} {t t' : List α} : Spells (.value u) t →
      Spells (.items (v :: vs)) t' → Spells (.items (u :: v :: vs)) (t ++ A.lit ',' :: t')
  | noMembers {w : List α} : A.IsBlank w → Spells (.members []) w
  | lastMember {k : List α} {v : Value α} {t t' : List α} : Spells (.value (.str k)) t →
      Spells (.value v) t' → Spells (.members [(k, v)]) (t ++ A.lit ':' :: t')
  | member {k : List α} {v : Value α} {m : List α × Value α} {ms : List (List α × Value α)}
      {t t' t'' : List α} : Spells (.value (.str k)) t → Spells (.value v) t' →
      Spells (.members (m :: ms)) t'' →
      Spells (.members ((k, v) :: m :: ms)) (t ++ A.lit ':' :: (t' ++ A.lit ',' :: t''))

/-! ## 2. Printed raw -/

mutual

/-- A value as `printf` writes it. -/
def Value.raw : Value α → List α
  | .null => A.word "null"
  | .bool true => A.word "true"
  | .bool false => A.word "false"
  | .num ds => ds
  | .str s => A.quote s
  | .arr vs => A.lit '[' :: (rawItems vs ++ [A.lit ']'])
  | .obj ms => A.lit '\x7b' :: (rawMembers ms ++ [A.lit '\x7d'])

def rawItems : List (Value α) → List α
  | [] => []
  | [v] => v.raw
  | u :: v :: vs => u.raw ++ A.lit ',' :: rawItems (v :: vs)

def rawMembers : List (List α × Value α) → List α
  | [] => []
  | [m] => rawMember m
  | m :: m' :: ms => rawMember m ++ A.lit ',' :: rawMembers (m' :: ms)

def rawMember : List α × Value α → List α
  | (k, v) => A.quote k ++ A.lit ':' :: v.raw

end

mutual

/-- The numbers of a value are numbers, and its strings need no escape. -/
def Value.Plain : Value α → Prop
  | .null => True
  | .bool _ => True
  | .num ds => A.IsNumber ds
  | .str s => A.PlainText s
  | .arr vs => PlainItems vs
  | .obj ms => PlainMembers ms

def PlainItems : List (Value α) → Prop
  | [] => True
  | v :: vs => v.Plain ∧ PlainItems vs

def PlainMembers : List (List α × Value α) → Prop
  | [] => True
  | m :: ms => PlainMember m ∧ PlainMembers ms

def PlainMember : List α × Value α → Prop
  | (k, v) => A.PlainText k ∧ v.Plain

end

/-- Items as a loop prints them, one after the other: each but the very first with a comma. -/
def glue : Bool → List (Value α) → List α
  | _, [] => []
  | first, v :: vs => (if first then [] else [A.lit ',']) ++ v.raw A ++ glue false vs

def Part.raw : Part α → List α
  | .value v => v.raw A
  | .items vs => rawItems A vs
  | .members ms => rawMembers A ms

def Part.Plain : Part α → Prop
  | .value v => v.Plain A
  | .items vs => PlainItems A vs
  | .members ms => PlainMembers A ms

/-! ## 3. Spelled as it is printed -/

variable {A}

theorem rawItems_cons (v : Value α) (vs : List (Value α)) :
    rawItems A (v :: vs) = v.raw A ++ vs.flatMap fun u => A.lit ',' :: u.raw A := by
  induction vs generalizing v with
  | nil => rw [rawItems, List.flatMap_nil, List.append_nil]
  | cons u vs ih => rw [rawItems, ih, List.flatMap_cons, List.cons_append]

theorem rawItems_eq_glue (vs : List (Value α)) : rawItems A vs = glue A true vs := by
  have hrest : ∀ vs : List (Value α), glue A false vs =
    vs.flatMap fun u => A.lit ',' :: u.raw A := by
    intro vs
    induction vs with
    | nil => rfl
    | cons v vs ih =>
        rw [glue, ih]
        rfl
  cases vs with
  | nil => rfl
  | cons v vs =>
      rw [rawItems_cons, glue, hrest]
      rfl

theorem glue_append (first : Bool) (us vs : List (Value α)) :
    glue A first (us ++ vs) = glue A first us ++ glue A (first && us.isEmpty) vs := by
  induction us generalizing first with
  | nil =>
      rw [List.nil_append, List.isEmpty_nil, Bool.and_true]
      rfl
  | cons u us ih =>
      rw [List.cons_append, glue, ih, glue, List.isEmpty_cons, Bool.and_false, Bool.false_and,
        List.append_assoc _ (glue A false us)]

/-- Members go on after others with a comma. -/
theorem rawMembers_append {ms ns : List (List α × Value α)} (hms : ms ≠ []) (hns : ns ≠ []) :
    rawMembers A (ms ++ ns) = rawMembers A ms ++ A.lit ',' :: rawMembers A ns := by
  induction ms with
  | nil => exact absurd rfl hms
  | cons m ms ih =>
      cases ms with
      | nil =>
          cases ns with
          | nil => exact absurd rfl hns
          | cons n ns => rfl
      | cons m' ms =>
          have hrest := ih (List.cons_ne_nil m' ms)
          rw [List.cons_append] at hrest
          rw [List.cons_append, List.cons_append, rawMembers, hrest, rawMembers, List.append_assoc,
            List.cons_append]

theorem plainItems_iff {vs : List (Value α)} : PlainItems A vs ↔ ∀ v ∈ vs, v.Plain A := by
  induction vs with
  | nil => exact ⟨fun _ v hv => absurd hv List.not_mem_nil, fun _ => trivial⟩
  | cons v vs ih =>
      rw [PlainItems, ih]
      exact List.forall_mem_cons.symm

theorem plainMembers_iff {ms : List (List α × Value α)} :
    PlainMembers A ms ↔ ∀ m ∈ ms, A.PlainText m.1 ∧ m.2.Plain A := by
  induction ms with
  | nil => exact ⟨fun _ m hm => absurd hm List.not_mem_nil, fun _ => trivial⟩
  | cons m ms ih =>
      obtain ⟨k, v⟩ := m
      rw [PlainMembers, PlainMember, ih]
      constructor
      · intro ⟨hm, hms⟩ x hx
        rcases List.mem_cons.mp hx with rfl | hx
        · exact hm
        · exact hms x hx
      · exact fun h => ⟨h (k, v) List.mem_cons_self, fun x hx => h x (List.mem_cons_of_mem _ hx)⟩

/-- An escape is longer than what it stands for. -/
theorem Alphabet.Escaped.length_lt {e t : List α} (h : A.Escaped e t) : e.length < t.length := by
  have hunit : ∀ {n t}, A.CodeUnit n t → t.length = 6 := fun h => by
    cases h
    rfl
  cases h with
  | short hmem => exact Nat.lt_succ_self 1
  | unit hunit' =>
      rw [hunit hunit']
      exact A.code_short _
  | pair h h' =>
      rw [List.length_append, hunit h, hunit h']
      exact Nat.lt_trans (A.code_short _) (by decide)

/-- **A string is spelled no shorter than it is**, and as short only if it needs no escape. -/
theorem Alphabet.SpellsText.length_le {s t : List α} (h : A.SpellsText s t) :
    s.length ≤ t.length ∧ (t.length ≤ s.length → A.PlainText s) := by
  induction h with
  | nil => exact ⟨Nat.le_refl 0, fun _ c hc => absurd hc List.not_mem_nil⟩
  | plain hc _ ih =>
      rw [List.length_cons, List.length_cons]
      exact ⟨Nat.succ_le_succ ih.1, fun hle => List.forall_mem_cons.mpr ⟨hc, ih.2 (by omega)⟩⟩
  | escaped he _ ih =>
      have hlt := he.length_lt
      rw [List.length_append, List.length_append]
      exact ⟨by omega, fun hle => by omega⟩

theorem Alphabet.PlainText.spells {s : List α} (h : A.PlainText s) : A.SpellsText s s := by
  induction s with
  | nil => exact .nil
  | cons c s ih =>
      obtain ⟨hc, hs⟩ := List.forall_mem_cons.mp h
      exact .plain hc (ih hs)

/-- **No spelling is shorter than the raw one**, and none is as short unless the value is plain. -/
theorem Spells.length_le {p : Part α} {t : List α} (h : Spells A p t) :
    (p.raw A).length ≤ t.length ∧ (t.length ≤ (p.raw A).length → p.Plain A) := by
  have hquote : ∀ s : List α, (A.quote s).length = s.length + 2 := fun s => by
    unfold Alphabet.quote
    rw [List.length_cons, List.length_append, List.length_singleton]
  induction h with
  | null => exact ⟨Nat.le_refl _, fun _ => trivial⟩
  | yes => exact ⟨Nat.le_refl _, fun _ => trivial⟩
  | no => exact ⟨Nat.le_refl _, fun _ => trivial⟩
  | num hnum => exact ⟨Nat.le_refl _, fun _ => hnum⟩
  | str ht =>
      obtain ⟨hle, hplain⟩ := ht.length_le
      show (A.quote _).length ≤ (A.quote _).length ∧ ((A.quote _).length ≤ (A.quote _).length → _)
      rw [hquote, hquote]
      exact ⟨by omega, fun hle => hplain (by omega)⟩
  | arr _ ih =>
      simp only [Part.raw, Value.raw, List.length_cons, List.length_append, List.length_nil] at ih ⊢
      exact ⟨by omega, fun hle => ih.2 (by omega)⟩
  | obj _ ih =>
      simp only [Part.raw, Value.raw, List.length_cons, List.length_append, List.length_nil] at ih ⊢
      exact ⟨by omega, fun hle => ih.2 (by omega)⟩
  | blanks _ _ _ ih =>
      rw [List.length_append, List.length_append]
      exact ⟨by omega, fun hle => ih.2 (by omega)⟩
  | noItems _ => exact ⟨Nat.zero_le _, fun _ => trivial⟩
  | lastItem _ ih => exact ⟨ih.1, fun hle => ⟨ih.2 hle, trivial⟩⟩
  | item _ _ ih ih' =>
      simp only [Part.raw, rawItems, List.length_cons, List.length_append] at ih ih' ⊢
      exact ⟨by omega, fun hle => ⟨ih.2 (by omega), ih'.2 (by omega)⟩⟩
  | noMembers _ => exact ⟨Nat.zero_le _, fun _ => trivial⟩
  | lastMember _ _ ih ih' =>
      simp only [Part.raw, rawMembers, rawMember, Value.raw, List.length_cons, List.length_append]
        at ih ih' ⊢
      exact ⟨by omega, fun hle => ⟨⟨ih.2 (by omega), ih'.2 (by omega)⟩, trivial⟩⟩
  | member _ _ _ ih ih' ih'' =>
      simp only [Part.raw, rawMembers, rawMember, Value.raw, List.length_cons, List.length_append]
        at ih ih' ih'' ⊢
      exact ⟨by omega, fun hle => ⟨⟨ih.2 (by omega), ih'.2 (by omega)⟩, ih''.2 (by omega)⟩⟩

mutual

/-- **A plain value is spelled as it is printed.** -/
theorem Value.spells_raw : ∀ v : Value α, v.Plain A → Spells A (.value v) (v.raw A)
  | .null, _ => .null
  | .bool true, _ => .yes
  | .bool false, _ => .no
  | .num _, h => .num h
  | .str _, h => .str (Alphabet.PlainText.spells h)
  | .arr vs, h => .arr (spells_rawItems vs h)
  | .obj ms, h => .obj (spells_rawMembers ms h)

theorem spells_rawItems : ∀ vs :
    List (Value α), PlainItems A vs → Spells A (.items vs) (rawItems A vs)
  | [], _ => .noItems fun _ hc => absurd hc List.not_mem_nil
  | [v], h => .lastItem (v.spells_raw h.1)
  | u :: v :: vs, h => .item (u.spells_raw h.1) (spells_rawItems (v :: vs) h.2)

theorem spells_rawMembers : ∀ ms : List (List α × Value α), PlainMembers A ms →
    Spells A (.members ms) (rawMembers A ms)
  | [], _ => .noMembers fun _ hc => absurd hc List.not_mem_nil
  | [(_, v)], h => .lastMember (.str (Alphabet.PlainText.spells h.1.1)) (v.spells_raw h.1.2)
  | (k, v) :: m :: ms, h => by
      have hrest := spells_rawMembers (m :: ms) h.2
      have hmember := Spells.member (.str (Alphabet.PlainText.spells h.1.1)) (v.spells_raw h.1.2)
        hrest
      rw [rawMembers, rawMember, List.append_assoc, List.cons_append]
      exact hmember

end

/-- **Printed raw**, a value is spelled if and only if it is plain. -/
theorem spells_raw_iff (v : Value α) : Spells A (.value v) (v.raw A) ↔ v.Plain A :=
  ⟨fun h => h.length_le.2 (Nat.le_refl _), v.spells_raw⟩

/-! ## 4. Numbers -/

/-- The digits of a positive number: the first is not 0. -/
theorem toDigits_pos {n : Nat} (h : 0 < n) : ∃ d ∈ "123456789".toList, ∃ more,
    Nat.toDigits 10 n = d :: more ∧ ∀ c ∈ more, c ∈ "0123456789".toList := by
  have hdigit : ∀ r : Fin 10, Nat.digitChar r.val ∈ "0123456789".toList := by decide
  have hfirst : ∀ r : Fin 10, 0 < r.val → Nat.digitChar r.val ∈ "123456789".toList := by decide
  induction n using Nat.strongRecOn with
  | ind n ih =>
      by_cases hlt : n < 10
      · exact ⟨_, hfirst ⟨n, hlt⟩ h, [], Nat.toDigits_of_lt_base hlt,
          fun c hc => absurd hc List.not_mem_nil⟩
      · have hge := Nat.not_lt.mp hlt
        obtain ⟨d, hd, more, hdigits, hmore⟩ := ih (n / 10) (by omega) (by omega)
        refine ⟨d, hd, more ++ [Nat.digitChar (n % 10)], ?_, fun c hc => ?_⟩
        · rw [Nat.toDigits_of_base_le (by decide) hge, hdigits]
          rfl
        · rcases List.mem_append.mp hc with hin | hin
          · exact hmore c hin
          · rw [List.mem_singleton.mp hin]
            exact hdigit ⟨n % 10, Nat.mod_lt n (by decide)⟩

theorem Alphabet.isWhole_digits (n : Nat) : A.IsWhole ((Nat.toDigits 10 n).map A.lit) := by
  rcases Nat.eq_zero_or_pos n with rfl | hpos
  · exact .inl rfl
  · obtain ⟨d, hd, more, hdigits, hmore⟩ := toDigits_pos hpos
    rw [hdigits]
    refine .inr ⟨d, hd, more.map A.lit, rfl, ?_⟩
    by_cases hnil : more = []
    · exact .inl (by rw [hnil]; rfl)
    · refine .inr ⟨fun hno => hnil (List.map_eq_nil_iff.mp hno), fun c hc => ?_⟩
      obtain ⟨d, hd, rfl⟩ := List.mem_map.mp hc
      exact ⟨d, hmore d hd, rfl⟩

/-- **An integer, as `%d` prints it, is a number.** -/
theorem Alphabet.isNumber_int (n : Int) : A.IsNumber (A.word (toString n)) := by
  have hparts : ∀ sign, (sign = [] ∨ sign = A.word "-") → ∀ m : Nat,
      A.IsNumber (sign ++ (Nat.toDigits 10 m).map A.lit) := fun sign hsign m =>
    ⟨⟨sign, _, [],
      [], by rw [List.append_nil, List.append_nil], hsign, A.isWhole_digits m, .inl rfl, .inl rfl⟩⟩
  unfold word
  rw [Int.toString_eq_repr, Int.repr_eq_if]
  split
  · rw [Nat.toList_repr]
    exact hparts [] (.inl rfl) _
  · rw [String.toList_append, Nat.toList_repr, List.map_append]
    exact hparts (A.word "-") (.inr rfl) _

end Grammar

/-! ## 5. Bytes and characters -/

/-- The bytes of a code point. -/
def utf8 (n : Nat) : List UInt8 :=
  let tail (k : Nat) : UInt8 := UInt8.ofNat (0x80 + n / 64 ^ k % 64)
  if n < 0x80 then [UInt8.ofNat n]
  else if n < 0x800 then [UInt8.ofNat (0xC0 + n / 64), tail 0]
  else if n < 0x10000 then [UInt8.ofNat (0xE0 + n / 64 ^ 2), tail 1, tail 0]
  else [UInt8.ofNat (0xF0 + n / 64 ^ 3), tail 2, tail 1, tail 0]

/-- Texts of bytes. -/
def bytes : Alphabet UInt8 where
  lit c := UInt8.ofNat c.toNat
  isControl c := decide (c.toNat < 0x20)
  code := utf8
  code_short n := by
    unfold utf8
    dsimp only
    split
    · exact Nat.lt_of_sub_eq_succ rfl
    split
    · exact Nat.lt_of_sub_eq_succ rfl
    split
    · exact Nat.lt_of_sub_eq_succ rfl
    · exact Nat.lt_of_sub_eq_succ rfl

/-- Texts of characters. -/
def chars : Alphabet Char where
  lit c := c
  isControl c := decide (c.toNat < 0x20)
  code n := [Char.ofNat n]
  code_short _ := Nat.lt_of_sub_eq_succ rfl

end JsonText
