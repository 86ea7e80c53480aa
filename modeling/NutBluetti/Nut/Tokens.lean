/-
  File:      NutBluetti/Nut/Tokens.lean
  Subject:   THE TOKENS OF A QUOTED LINE (nut_server.c): `tokenize` against `append_quoted`.

  `append_quoted` puts a backslash before each quote and each backslash; `tokenize` reads a quoted
  token up to the next quote and knows no backslash.

  * `Joined` -- a line of quoted texts with blanks between them;
  * **`tokenize_joined_iff`** -- its tokens are those texts exactly where no text has a quote or a
    backslash;
  * `quoted_quote_split` -- a text with a quote becomes two tokens.
-/
import NutBluetti.Nut.Replies

namespace NutBluetti.Nut

open Quoting (escape Plain)

/-! ## 1. Lines of quoted texts -/

/-- `append_quoted` has room for all of the text, its quotes and the NUL. -/
def Roomy (sz : Nat) (v : String) : Prop := (escape '"' '\\' v.toList).length + 3 ≤ sz

instance (sz : Nat) (v : String) : Decidable (Roomy sz v) := inferInstanceAs (Decidable (_ ≤ _))

/-- The texts quoted one by one, with blanks between them. -/
inductive Joined : List String → List Char → Prop where
  | one {v : String} {sz : Nat} (h : Roomy sz v) : Joined [v] (appendQuoted [] sz v.toList)
  | cons {v : String} {sz : Nat} {gap line : List Char} {vs : List String} (h : Roomy sz v)
      (hgap : gap ≠ [] ∧ ∀ c ∈ gap, isBlank c) (hrest : Joined vs line) :
      Joined (v :: vs) (appendQuoted [] sz v.toList ++ (gap ++ line))

theorem appendQuoted_roomy {sz : Nat} {v : String} (h : Roomy sz v) :
    appendQuoted [] sz v.toList = '"' :: (escape '"' '\\' v.toList ++ ['"']) := by
  unfold Roomy at h
  have hroom : ['"'].length + (escape '"' '\\' v.toList).length + 2 ≤ sz := by
    rw [List.length_singleton]
    omega
  have hopen : ([] : List Char).length + 1 < sz := by
    rw [List.length_nil]
    omega
  have hclose : (['"'] ++ escape '"' '\\' v.toList).length + 1 < sz := by
    rw [List.length_append, List.length_singleton]
    omega
  simp only [appendQuoted, if_pos hopen, List.nil_append, appendEscaped_of_fits _ _ hroom]
  rw [if_pos hclose]
  rfl

/-! ## 2. One token -/

/-- A quoted token ends at the first quote. -/
theorem tokenizeFrom_quote (n : Nat) (p : List Char) :
    tokenizeFrom (n + 1) ('"' :: p) =
      p.takeWhile (· ≠ '"') :: tokenizeFrom n ((p.dropWhile (· ≠ '"')).drop 1) := rfl

theorem tokenizeFrom_nil (n : Nat) : tokenizeFrom n [] = [] := by
  cases n <;> rfl

/-- A token without quotes ends at the first blank. -/
theorem tokenizeFrom_word (n : Nat) {w s : List Char} (hne : w ≠ [])
    (hw : ∀ c ∈ w, isBlank c = false ∧ c ≠ '"') (hs : ∀ c ∈ s.head?, isBlank c) :
    tokenizeFrom (n + 1) (w ++ s) = w :: tokenizeFrom n (s.drop 1) := by
  obtain ⟨c, v, rfl⟩ := List.exists_cons_of_ne_nil hne
  obtain ⟨hblank, hquote⟩ := hw c List.mem_cons_self
  have hskip : (c :: v ++ s).dropWhile isBlank = c :: v ++ s := by
    rw [List.cons_append, List.dropWhile_cons, hblank, if_neg Bool.false_ne_true]
  have hword : ∀ d ∈ c :: v, !isBlank d := fun d hd => by rw [(hw d hd).1]; rfl
  have htake : s.takeWhile (fun c => !isBlank c) = [] ∧ s.dropWhile (fun c => !isBlank c) = s := by
    cases s with
    | nil => exact ⟨rfl, rfl⟩
    | cons d s =>
        have hd : isBlank d = true := hs d rfl
        rw [List.takeWhile_cons, List.dropWhile_cons, hd]
        exact ⟨rfl, rfl⟩
  rw [tokenizeFrom, hskip]
  split
  · rename_i heq
    cases heq
  · rename_i heq
    exact absurd (List.cons.inj heq).1 hquote
  · rw [List.takeWhile_append_of_pos hword, List.dropWhile_append_of_pos hword, htake.1, htake.2,
      List.append_nil]

theorem tokenizeFrom_blanks {gap : List Char} (h : ∀ c ∈ gap, isBlank c) (n : Nat)
    (line : List Char) : tokenizeFrom n (gap ++ line) = tokenizeFrom n line := by
  cases n with
  | zero => rfl
  | succ n =>
      unfold tokenizeFrom
      rw [List.dropWhile_append_of_pos h]

/-- A quoted text and what follows it: the text comes out and the rest is read on where it is plain,
    and something else comes out where it is not. -/
theorem tokenizeFrom_quoted_iff (n : Nat) (v rest : List Char) (ts : List (List Char)) :
    tokenizeFrom (n + 1) ('"' :: (escape '"' '\\' v ++ '"' :: rest)) = v :: ts ↔
      Plain '"' '\\' v ∧ tokenizeFrom n rest = ts := by
  have hhead := Quoting.takeWhile_escape_iff (q := '"') (e := '\\') (by decide) v rest
  rw [tokenizeFrom_quote, List.cons.injEq, hhead]
  refine and_congr_right fun hplain => ?_
  rw [Quoting.escape_eq_self_iff.mpr hplain,
    Quoting.dropWhile_quote (fun hin => (hplain '"' hin).1 rfl)]
  rfl

/-! ## 3. The whole line -/

theorem tokenizeFrom_joined_iff {vs : List String} {line : List Char} (h : Joined vs line) :
    ∀ n, vs.length ≤ n → (tokenizeFrom n line = vs.map String.toList ↔
      ∀ v ∈ vs, Plain '"' '\\' v.toList) := by
  induction h with
  | @one v sz hroom =>
      intro n hn
      obtain ⟨n, rfl⟩ := Nat.exists_eq_add_of_lt (Nat.lt_of_lt_of_le Nat.one_pos hn)
      have htoken := tokenizeFrom_quoted_iff n v.toList [] []
      rw [Nat.zero_add, appendQuoted_roomy hroom, List.map_singleton, htoken,
        and_iff_left (tokenizeFrom_nil n), List.forall_mem_singleton]
  | @cons v sz gap line vs hroom hgap hrest ih =>
      intro n hn
      obtain ⟨n, rfl⟩ := Nat.exists_eq_add_of_lt (Nat.lt_of_lt_of_le (Nat.succ_pos _) hn)
      have hlen : vs.length ≤ n := by
        rw [List.length_cons] at hn
        omega
      have htoken := tokenizeFrom_quoted_iff n v.toList (gap ++ line) (vs.map String.toList)
      have hline : appendQuoted [] sz v.toList ++ (gap ++ line) =
          '"' :: (escape '"' '\\' v.toList ++ '"' :: (gap ++ line)) := by
        rw [appendQuoted_roomy hroom, List.cons_append, List.append_assoc]
        rfl
      rw [Nat.zero_add, hline, List.map_cons, htoken, tokenizeFrom_blanks hgap.2, ih n hlen,
        List.forall_mem_cons]

/-- **`tokenize` undoes the quoting** of up to `maxTokens` texts exactly where each of them is
    written as it stands. -/
theorem tokenize_joined_iff {vs : List String} {line : List Char} (h : Joined vs line)
    (hlen : vs.length ≤ maxTokens) :
    tokenize line = vs ↔ ∀ v ∈ vs, Plain '"' '\\' v.toList := by
  rw [← tokenizeFrom_joined_iff h maxTokens hlen]
  unfold tokenize
  constructor
  · intro htokens
    have hlists := congrArg (List.map String.toList) htokens
    rw [List.map_map] at hlists
    simpa [Function.comp_def] using hlists
  · intro hlists
    rw [hlists, List.map_map]
    simp [Function.comp_def]

theorem tokenize_joined_iff_login :
    tokenize "\"USERNAME\" \"the ups\"".toList = ["USERNAME", "the ups"] ↔
      ∀ v ∈ ["USERNAME", "the ups"], Plain '"' '\\' v.toList :=
  have hroom : Roomy 64 "USERNAME" ∧ Roomy 64 "the ups" := by decide
  have hgap : [' '] ≠ [] ∧ ∀ c ∈ [' '], isBlank c :=
    ⟨List.cons_ne_nil _ _, List.forall_mem_singleton.mpr rfl⟩
  tokenize_joined_iff
    (@Joined.cons "USERNAME" 64 [' '] _ _ hroom.1 hgap (@Joined.one "the ups" 64 hroom.2))
    (by decide)

/-- A password with a quote in it: `a"b` is written `"a\"b"` and read as `a\` and `b"`. -/
theorem quoted_quote_split :
    Joined ["a\"b"] "\"a\\\"b\"".toList ∧ (["a\"b"] : List String).length ≤ maxTokens ∧
      tokenize "\"a\\\"b\"".toList = ["a\\", "b\""] ∧
      tokenize "\"a\\\"b\"".toList ≠ ["a\"b"] := by
  have hjoined : Joined ["a\"b"] "\"a\\\"b\"".toList := @Joined.one "a\"b" 64 (by decide)
  refine ⟨hjoined, ?_, ?_, ?_⟩ <;> decide +kernel

end NutBluetti.Nut
