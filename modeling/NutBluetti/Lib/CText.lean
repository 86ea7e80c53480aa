/-
  File:      NutBluetti/Lib/CText.lean
  Subject:   C STRINGS AS TEXT. A `char` buffer that holds a terminated string is read as a
             `String` with one `Char` for each byte before the NUL, so that a length is a number
             of bytes and a cut can fall inside a multi-byte character, as in C.
-/
import Mathlib.Algebra.Group.Int.Defs
import Mathlib.Algebra.Group.Nat.Defs

namespace CText

/-- What a buffer of `sz` bytes holds after `snprintf (buf, sz, …)` or `strlcpy (buf, …, sz)` of
    the text: at most `sz - 1` of its bytes. -/
def fit (sz : Nat) (s : String) : String :=
  String.ofList (s.toList.take (sz - 1))

/-- A text with room to spare is kept whole. -/
theorem fit_of_length_lt {sz : Nat} {s : String} (h : s.length < sz) : fit sz s = s := by
  unfold fit
  rw [List.take_of_length_le (by rw [String.length_toList]; omega), String.ofList_toList]

theorem fit_length_lt {sz : Nat} (hsz : 0 < sz) (s : String) : (fit sz s).length < sz := by
  unfold fit
  rw [String.length_ofList]
  have h := List.length_take_le (sz - 1) s.toList
  omega

/-- The first byte of a text is kept by any buffer with room for it. -/
theorem fit_ne_empty {sz : Nat} {s : String} (hsz : 2 ≤ sz) (hs : s ≠ "") : fit sz s ≠ "" := by
  intro h
  have hl : s.toList.take (sz - 1) = [] := by
    have := congrArg String.toList h
    simpa [fit] using this
  rcases List.take_eq_nil_iff.mp hl with h0 | h0
  · omega
  · exact hs (String.toList_eq_nil_iff.mp h0)

theorem append_ne_empty {s t : String} (hs : s ≠ "") : s ++ t ≠ "" := by
  intro h
  have := congrArg String.toList h
  simp only [String.toList_append, String.toList_empty, List.append_eq_nil_iff] at this
  exact hs (String.toList_eq_nil_iff.mp this.1)

/-! The character of a byte. -/

theorem toNat_charOf (c : UInt8) : (Char.ofNat c.toNat).toNat = c.toNat := by
  have hvalid : c.toNat.isValidChar := .inl (Nat.lt_trans c.toNat_lt (by decide))
  unfold Char.ofNat
  rw [dif_pos hvalid]
  rfl

theorem charOf_ne {c : UInt8} {d : Char} (h : c.toNat ≠ d.toNat) : Char.ofNat c.toNat ≠ d :=
  fun heq => h (by rw [← toNat_charOf c, heq])

/-- The numbers of an `int`. -/
def IsInt (n : Int) : Prop := -2 ^ 31 ≤ n ∧ n < 2 ^ 31

instance (n : Int) : Decidable (IsInt n) := inferInstanceAs (Decidable (_ ∧ _))

/-- The decimal text of a number of up to `k` digits: with its sign, at most `k + 1` characters. -/
theorem length_toString_le {k : Nat} (hk : 0 < k) {n : Int} (hlo : -10 ^ k < n) (hhi : n < 10 ^ k) :
    (toString n).length ≤ k + 1 := by
  have hdigits : ∀ m : Nat, (m : Int) < 10 ^ k → m.repr.length ≤ k := fun m hm =>
    (Nat.length_repr_le_iff hk).mpr (by exact_mod_cast hm)
  rw [Int.toString_eq_repr, Int.repr_eq_if]
  split
  · have hlen := hdigits n.toNat (by omega)
    omega
  · have hlen := hdigits (-n).toNat (by omega)
    rw [String.length_append]
    show 1 + _ ≤ _
    omega

/-- The decimal text of a number that is not negative. -/
theorem length_toString_nat {k n : Nat} (hk : 0 < k) (h : n < 10 ^ k) : (toString n).length ≤ k :=
  (Nat.length_repr_le_iff hk).mpr h

/-- The decimal text of an `int`. -/
theorem IsInt.length_toString_le {n : Int} (h : IsInt n) : (toString n).length ≤ 11 := by
  obtain ⟨hlo, hhi⟩ := h
  exact CText.length_toString_le (k := 10) (by decide) (by omega) (by omega)

/-! Parts of a text. -/

/-- What comes before the first of some character is settled by the whole. -/
theorem split_at_first {α : Type*} {c : α} {l l' r r' : List α} (hl : c ∉ l) (hl' : c ∉ l')
    (h : l ++ c :: r = l' ++ c :: r') : l = l' ∧ r = r' := by
  induction l generalizing l' with
  | nil =>
      cases l' with
      | nil => exact ⟨rfl, (List.cons.inj h).2⟩
      | cons d l' => exact absurd ((List.cons.inj h).1 ▸ List.mem_cons_self) hl'
  | cons b l ih =>
      cases l' with
      | nil => exact absurd ((List.cons.inj h).1 ▸ List.mem_cons_self) hl
      | cons d l' =>
          obtain ⟨rfl, htail⟩ := List.cons.inj h
          obtain ⟨rfl, rfl⟩ := ih (fun hin => hl (List.mem_cons_of_mem _ hin))
            (fun hin => hl' (List.mem_cons_of_mem _ hin)) htail
          exact ⟨rfl, rfl⟩

/-- What stands behind the first occurrence of a pattern (`strstr`). -/
def afterFirst {α : Type*} [DecidableEq α] (pat : List α) : List α → Option (List α)
  | [] => if pat = [] then some [] else none
  | c :: s => if pat.isPrefixOf (c :: s) then some ((c :: s).drop pat.length) else afterFirst pat s

/-- What it finds is an occurrence. -/
theorem afterFirst_eq_some {α : Type*} [DecidableEq α] {pat s r : List α}
    (h : afterFirst pat s = some r) :
    ∃ l, s = l ++ (pat ++ r) := by
  induction s with
  | nil =>
      unfold afterFirst at h
      split at h
      case isTrue hnil =>
        cases h
        exact ⟨[], by rw [hnil]; rfl⟩
      case isFalse => cases h
  | cons c s ih =>
      unfold afterFirst at h
      split at h
      case isTrue hpre =>
        cases h
        exact ⟨[], (List.prefix_iff_eq_append.mp (List.isPrefixOf_iff_prefix.mp hpre)).symm⟩
      case isFalse =>
        obtain ⟨l, rfl⟩ := ih h
        exact ⟨c :: l, rfl⟩

/-- A pattern without some character stands at the start of a text that this character follows
    exactly if it stands at the start of the text. -/
theorem isPrefixOf_append {α : Type*} [DecidableEq α] {pat s r : List α}
    (h : ∀ c ∈ r.head?, c ∉ pat) : pat.isPrefixOf (s ++ r) = pat.isPrefixOf s := by
  induction pat generalizing s with
  | nil => rw [List.isPrefixOf_nil_left, List.isPrefixOf_nil_left]
  | cons d pat ih =>
      cases s with
      | nil =>
          cases r with
          | nil => rfl
          | cons c r =>
              have hne : (d == c) = false := beq_false_of_ne fun heq =>
                h c rfl (heq ▸ List.mem_cons_self)
              rw [List.nil_append, List.isPrefixOf_cons_cons, hne]
              rfl
      | cons b s =>
          rw [List.cons_append, List.isPrefixOf_cons_cons, List.isPrefixOf_cons_cons,
            ih fun c hc hin => h c hc (List.mem_cons_of_mem _ hin)]

end CText
