/-
  File:      NutBluetti/Web/FormNumbers.lean
  Subject:   NUMBERS IN A FORM (provisioning.c): an `int` is posted as its decimal text, and `atoi`
             reads it back.

  * `decimal_toDigits` -- digits are read back;
  * **`atoi_decimalText`** -- and so is every `int`;
  * `Carries.formGet`, `Carries.atoi` -- a field of a body, and a number in it.
-/
import Mathlib.Data.List.Nodup
import NutBluetti.Lib.CText
import NutBluetti.Web.FormCodec

namespace NutBluetti.Web

open CText (IsInt)
open NutBluetti.Config

/-! ## 1. Decimal texts -/

/-- The text of a number. -/
def decimalText (n : Int) : List UInt8 := ascii (toString n)

/-- The bytes of a row of digits. -/
def digitBytes (n : Nat) : List UInt8 := (Nat.toDigits 10 n).map chr

theorem digitByte_facts {r : Nat} (h : r < 10) :
    (chr (Nat.digitChar r) - chr '0').toNat = r ∧ isDigit (chr (Nat.digitChar r)) = true := by
  have hall : ∀ r : Fin 10, (chr (Nat.digitChar r.val) - chr '0').toNat = r.val ∧
      isDigit (chr (Nat.digitChar r.val)) = true := by decide
  exact hall ⟨r, h⟩

theorem digitBytes_step {n : Nat} (h : 10 ≤ n) :
    digitBytes n = digitBytes (n / 10) ++ [chr (Nat.digitChar (n % 10))] := by
  unfold digitBytes
  rw [Nat.toDigits_of_base_le (by decide) h, List.map_append]
  rfl

theorem digitBytes_small {n : Nat} (h : n < 10) : digitBytes n = [chr (Nat.digitChar n)] := by
  unfold digitBytes
  rw [Nat.toDigits_of_lt_base h]
  rfl

/-- **Digits are read back.** -/
theorem decimal_digitBytes (n : Nat) :
    decimal (digitBytes n) = n ∧ ∀ c ∈ digitBytes n, isDigit c = true := by
  induction n using Nat.strongRecOn with
  | ind n ih =>
      by_cases h : n < 10
      · obtain ⟨hval, hdigit⟩ := digitByte_facts h
        rw [digitBytes_small h]
        refine ⟨?_, List.forall_mem_singleton.mpr hdigit⟩
        show 0 * 10 + _ = n
        omega
      · have h := Nat.not_lt.mp h
        obtain ⟨hval, hdigit⟩ := digitByte_facts (Nat.mod_lt n (by decide : 10 > 0))
        obtain ⟨hhigh, hall⟩ := ih (n / 10) (Nat.div_lt_self (by omega) (by decide))
        rw [digitBytes_step h]
        constructor
        · unfold decimal at hhigh ⊢
          rw [List.foldl_append, hhigh, List.foldl_cons, List.foldl_nil, hval]
          omega
        · intro c hc
          rcases List.mem_append.mp hc with hin | hin
          · exact hall c hin
          · rw [List.mem_singleton.mp hin]
            exact hdigit

theorem digitBytes_ne_nil (n : Nat) : digitBytes n ≠ [] := by
  unfold digitBytes
  rw [Ne, List.map_eq_nil_iff]
  exact Nat.toDigits_ne_nil

/-- A number is its digits, after a sign if it has one. -/
theorem decimalText_eq (n : Int) : decimalText n =
    if 0 ≤ n then digitBytes n.toNat else chr '-' :: digitBytes (-n).toNat := by
  unfold decimalText ascii digitBytes
  rw [Int.toString_eq_repr, Int.repr_eq_if]
  split
  · rw [Nat.toList_repr]
    rfl
  · rw [String.toList_append, Nat.toList_repr]
    rfl

/-- What a digit is not, to `atoi` and to a form. -/
theorem isDigit_apart {c : UInt8} (h : isDigit c = true) :
    isSpace c = false ∧ c ≠ chr '-' ∧ c ≠ chr '+' ∧ c ≠ 0 ∧ c ≠ chr '&' ∧ c ≠ chr '%' := by
  have hall : ∀ n : Fin 256, isDigit (UInt8.ofFin n) = true →
      isSpace (UInt8.ofFin n) = false ∧ UInt8.ofFin n ≠ chr '-' ∧ UInt8.ofFin n ≠ chr '+' ∧
        UInt8.ofFin n ≠ 0 ∧ UInt8.ofFin n ≠ chr '&' ∧ UInt8.ofFin n ≠ chr '%' := by
    decide +kernel
  exact hall c.toFin h

/-- **`atoi` reads an `int` back.** -/
theorem atoi_decimalText {n : Int} (h : IsInt n) : atoi (decimalText n) = n := by
  obtain ⟨hlo, hhi⟩ := h
  rw [decimalText_eq]
  split
  · rename_i hpos
    obtain ⟨hval, hall⟩ := decimal_digitBytes n.toNat
    obtain ⟨c, rest, hcons⟩ := List.exists_cons_of_ne_nil (digitBytes_ne_nil n.toNat)
    have hwhole : (digitBytes n.toNat).takeWhile isDigit = digitBytes n.toNat :=
      List.takeWhile_eq_self_iff.mpr hall
    obtain ⟨hspace, hminus, hplus, -⟩ := isDigit_apart (hall c (hcons ▸ List.mem_cons_self))
    unfold atoi
    rw [hcons, List.dropWhile_cons_of_neg (by simp [hspace])]
    simp only [if_neg hminus, if_neg hplus]
    rw [← hcons, hwhole, hval]
    show min (n.toNat : Int) _ = n
    omega
  · rename_i hneg
    obtain ⟨hval, hall⟩ := decimal_digitBytes (-n).toNat
    have hwhole : (digitBytes (-n).toNat).takeWhile isDigit = digitBytes (-n).toNat :=
      List.takeWhile_eq_self_iff.mpr hall
    unfold atoi
    rw [List.dropWhile_cons_of_neg (by decide)]
    simp only [if_true]
    rw [hwhole, hval]
    show max (-((-n).toNat : Int)) _ = n
    omega

/-- A decimal text has no byte that means something to a form. -/
theorem decimalText_plain (n : Int) :
    ∀ c ∈ decimalText n, c ≠ 0 ∧ c ≠ chr '&' ∧ c ≠ chr '+' ∧ c ≠ chr '%' := by
  have hdigit : ∀ m, ∀ c ∈ digitBytes m, c ≠ 0 ∧ c ≠ chr '&' ∧ c ≠ chr '+' ∧ c ≠ chr '%' := by
    intro m c hc
    obtain ⟨-, -, hplus, hnul, hamp, hpercent⟩ := isDigit_apart ((decimal_digitBytes m).2 c hc)
    exact ⟨hnul, hamp, hplus, hpercent⟩
  rw [decimalText_eq]
  split
  · exact hdigit _
  · exact List.forall_mem_cons.mpr ⟨by decide, hdigit _⟩

theorem decimalText_noNul (n : Int) : (0 : UInt8) ∉ decimalText n := fun hin =>
  (decimalText_plain n 0 hin).1 rfl

theorem length_decimalText_lt {n : Int} (h : IsInt n) : (decimalText n).length < 16 := by
  have hlen := h.length_toString_le
  unfold decimalText ascii
  rw [List.length_map, String.length_toList]
  omega

/-- What a member of 16 bits or of 8 keeps of a number. -/
theorem toNat_ofInt16 (n : Int) : (UInt16.ofInt n).toNat = (n % 2 ^ 16).toNat := by
  unfold UInt16.ofInt
  rw [UInt16.toNat_ofNat']
  omega

theorem toNat_ofInt8 (n : Int) : (UInt8.ofInt n).toNat = (n % 2 ^ 8).toNat := by
  unfold UInt8.ofInt
  rw [UInt8.toNat_ofNat']
  omega

/-! ## 2. Fields -/

/-- A field of the body, for every buffer that has room for its value. -/
def Carries (body : List UInt8) (key : String) (value : List UInt8) : Prop :=
  ∀ outsz, value.length < outsz → formGet body key outsz = some value

/-- A number as a field. -/
def FormField.number (key : String) (hkey : IsKey key) (n : Int) (hn : IsInt n) : FormField where
  key := key
  value := decimalText n
  encoded := decimalText n
  isKey := hkey
  encodes := Encodes.refl (decimalText_plain n)
  noNul := decimalText_noNul n
  short := Nat.lt_trans (length_decimalText_lt hn) (by decide)

/-- **In any order**: a field that is posted once is carried, wherever it stands and whatever else
    is posted under other keys. -/
theorem carries_of_perm {ps fields others : List FormField} (hperm : ps.Perm (fields ++ others))
    (hnodup : (fields.map FormField.key).Nodup)
    (hothers : ∀ q ∈ others, q.key ∉ fields.map FormField.key) {p : FormField} (hp : p ∈ fields) :
    Carries (formBody ps) p.key p.value := by
  have hposted : p ∈ ps := hperm.mem_iff.mpr (List.mem_append_left _ hp)
  have hfirst : (ps.find? fun q => q.key = p.key) = some p := by
    cases hfind : ps.find? fun q => q.key = p.key with
    | none => exact absurd (List.find?_eq_none.mp hfind p hposted) (by simp)
    | some q =>
        have hkey : q.key = p.key := by simpa using List.find?_some hfind
        rcases List.mem_append.mp (hperm.mem_iff.mp (List.mem_of_find?_eq_some hfind)) with hin |
          hin
        · exact congrArg some (List.inj_on_of_nodup_map hnodup hin hp hkey)
        · exact absurd (List.mem_map.mpr ⟨p, hp, hkey.symm⟩) (hothers q hin)
  intro outsz hroom
  rw [formGet_formBody ps p.isKey fun q hq => ?_, hfirst]
  · rfl
  · rw [hfirst] at hq
    exact Option.some.inj hq ▸ hroom

/-- A number that is posted is read. -/
theorem Carries.number {body : List UInt8} {key : String} {n : Int}
    (hc : Carries body key (decimalText n)) (hn : IsInt n) :
    (∃ v, formGet body key 16 = some v ∧ atoi (cstr v) = n) ∧ atoi (formText body key 16) = n := by
  have hget := hc 16 (length_decimalText_lt hn)
  have htext : cstr (decimalText n) = decimalText n := cstr_of_noNul (decimalText_noNul n)
  refine ⟨⟨_, hget, by rw [htext, atoi_decimalText hn]⟩, ?_⟩
  unfold formText
  rw [hget, Option.getD_some, htext, atoi_decimalText hn]

end NutBluetti.Web
