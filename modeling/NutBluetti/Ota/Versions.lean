/-
  File:      NutBluetti/Ota/Versions.lean
  Subject:   THE ORDER OF VERSIONS (ota_github.c): `ota_gh_vercmp`, on whatever text a tag holds.

  Each cursor goes its own way: what is read of one text does not depend on the other. So the
  comparison is one of readings, three numbers for any text.

  * `versionNumbers` -- the three numbers;
  * `otaGhVercmp_readsAs` -- what the comparison compares;
  * `IsVersion` -- texts that are versions, and `IsVersion.numbers`, what is read of them;
  * **`vercmp_orders_versions`** -- a total preorder on all texts, and on versions their order.
-/
import Mathlib.Data.Int.Order.Basic
import NutBluetti.Lib.Comparison
import NutBluetti.Web.FormNumbers

namespace NutBluetti.Ota

open Comparison
open NutBluetti.Config (ascii)
open NutBluetti.Web

/-! ## 1. `ota_gh_vercmp` -/

/-- The ends of a `long`, which has 32 bits on the target. -/
def longMin : Int := -2 ^ 31

def longMax : Int := 2 ^ 31 - 1

/-- **`strtol (s, &end, 10)`**: the number, and the text from `end` on, which is all of it if there
    is no number. -/
def strtol (s : List UInt8) : Int × List UInt8 :=
  let t := s.dropWhile isSpace
  let (neg, ds) := match t with
    | c :: rest =>
        if c = chr '-' then (true, rest) else if c = chr '+' then (false, rest) else (false, t)
    | [] => (false, [])
  let digits := ds.takeWhile isDigit
  if digits = [] then (0, s)
  else
    let n : Int := decimal digits
    (if neg then max (-n) longMin else min n longMax, ds.dropWhile isDigit)

/-- `if (*a == '.') a++;`. -/
def skipDot : List UInt8 → List UInt8
  | [] => []
  | c :: s => if c = chr '.' then s else c :: s

/-- The loop of `ota_gh_vercmp`, with `i` turns left. -/
def vercmpLoop : Nat → List UInt8 → List UInt8 → Int
  | 0, _, _ => 0
  | i + 1, a, b =>
      let (x, a) := strtol a
      let (y, b) := strtol b
      if x ≠ y then if x < y then -1 else 1 else vercmpLoop i (skipDot a) (skipDot b)

/-- **`ota_gh_vercmp`**. -/
def otaGhVercmp (a b : List UInt8) : Int := vercmpLoop 3 a b

/-! ## 2. What is compared -/

/-- A turn of one cursor. -/
def versionPart (s : List UInt8) : Int × List UInt8 := ((strtol s).1, skipDot (strtol s).2)

/-- **The numbers that are read of a text.** -/
def versionNumbers (s : List UInt8) : List Int := drawn versionPart 3 s

theorem vercmpLoop_eq (i : Nat) (a b : List UInt8) :
    vercmpLoop i a b = cmpDrawn versionPart i a b := by
  induction i generalizing a b with
  | zero => rfl
  | succ i ih =>
      rw [cmpDrawn, ← ih]
      rfl

/-- **The sign is the order of the numbers.** -/
theorem otaGhVercmp_readsAs : ReadsAs otaGhVercmp versionNumbers := by
  have hloop : otaGhVercmp = cmpDrawn versionPart 3 :=
    funext fun a => funext fun b => vercmpLoop_eq 3 a b
  rw [hloop]
  exact cmpDrawn_readsAs versionPart 3

/-! ## 3. Versions -/

/-- A decimal number that fits a `long`, as it is written: zeros may stand in front. -/
structure IsNumeral (ds : List UInt8) (n : Int) : Prop where
  nonempty : ds ≠ []
  digits : ∀ c ∈ ds, isDigit c = true
  value : (decimal ds : Int) = n
  fits : n < 2 ^ 31

/-- **`major[.minor[.patch]]`**, and its three numbers. -/
inductive IsVersion : List UInt8 → Int → Int → Int → Prop
  | major {ds : List UInt8} {n : Int} : IsNumeral ds n → IsVersion ds n 0 0
  | minor {ds es : List UInt8} {n m : Int} : IsNumeral ds n → IsNumeral es m →
      IsVersion (ds ++ chr '.' :: es) n m 0
  | patch {ds es fs : List UInt8} {n m p : Int} : IsNumeral ds n → IsNumeral es m → IsNumeral fs p →
      IsVersion (ds ++ chr '.' :: (es ++ chr '.' :: fs)) n m p

/-- A number as it is printed. -/
theorem isNumeral_digitBytes {n : Nat} (h : n < 2 ^ 31) : IsNumeral (digitBytes n) n where
  nonempty := digitBytes_ne_nil n
  digits := (decimal_digitBytes n).2
  value := congrArg Nat.cast (decimal_digitBytes n).1
  fits := by omega

theorem digit_unsigned {c : UInt8} (h : isDigit c = true) :
    isSpace c = false ∧ c ≠ chr '-' ∧ c ≠ chr '+' := by
  have hall : ∀ n : Fin 256, isDigit (UInt8.ofFin n) = true →
      isSpace (UInt8.ofFin n) = false ∧ UInt8.ofFin n ≠ chr '-' ∧ UInt8.ofFin n ≠ chr '+' := by
    decide +kernel
  exact hall c.toFin h

/-- **A numeral is read whole**, up to a character that is no digit. -/
theorem strtol_numeral {ds rest : List UInt8} {n : Int} (h : IsNumeral ds n)
    (hrest : ∀ c ∈ rest.head?, isDigit c = false) : strtol (ds ++ rest) = (n, rest) := by
  have htake : (ds ++ rest).takeWhile isDigit = ds := by
    rw [List.takeWhile_append_of_pos h.digits]
    cases rest with
    | nil => rw [List.takeWhile_nil, List.append_nil]
    | cons c rest =>
        have hno := hrest c rfl
        rw [List.takeWhile_cons_of_neg (by rw [hno]; exact Bool.false_ne_true), List.append_nil]
  have hdrop : (ds ++ rest).dropWhile isDigit = rest := by
    rw [List.dropWhile_append_of_pos h.digits]
    cases rest with
    | nil => rfl
    | cons c rest =>
        have hno := hrest c rfl
        rw [List.dropWhile_cons_of_neg (by rw [hno]; exact Bool.false_ne_true)]
  have hfits : min (decimal ds : Int) longMax = n := by
    have hlt := h.fits
    rw [h.value]
    unfold longMax
    omega
  obtain ⟨d, more, hcons⟩ := List.exists_cons_of_ne_nil h.nonempty
  obtain ⟨hspace, hminus, hplus⟩ := digit_unsigned (h.digits d (hcons ▸ List.mem_cons_self))
  have hblanks : (ds ++ rest).dropWhile isSpace = d :: (more ++ rest) := by
    rw [hcons, List.cons_append,
      List.dropWhile_cons_of_neg (by rw [hspace]; exact Bool.false_ne_true)]
  have htext : d :: (more ++ rest) = ds ++ rest := by rw [hcons, List.cons_append]
  unfold strtol
  simp only [hblanks, if_neg hminus, if_neg hplus]
  rw [htext, htake, hdrop]
  simp only [if_neg h.nonempty, Bool.false_eq_true, if_false, hfits]

theorem versionPart_dot {ds rest : List UInt8} {n : Int} (h : IsNumeral ds n) :
    versionPart (ds ++ chr '.' :: rest) = (n, rest) := by
  have hread : strtol (ds ++ chr '.' :: rest) = (n, chr '.' :: rest) :=
    strtol_numeral h fun c hc => by
    rw [← Option.some.inj hc]
    rfl
  rw [versionPart, hread, skipDot, if_pos rfl]

theorem versionPart_last {ds : List UInt8} {n : Int} (h : IsNumeral ds n) :
    versionPart ds = (n, []) := by
  have hread : strtol (ds ++ []) = (n, []) :=
    strtol_numeral h fun c hc => (Option.some_ne_none c hc.symm).elim
  rw [List.append_nil] at hread
  rw [versionPart, hread]
  rfl

/-- **What is read of a version**: its numbers, and 0 for those it leaves out. -/
theorem IsVersion.numbers {s : List UInt8} {n m p : Int} (h : IsVersion s n m p) :
    versionNumbers s = [n, m, p] := by
  have hnone : versionPart [] = (0, []) := rfl
  unfold versionNumbers
  cases h with
  | major hn => simp only [drawn, versionPart_last hn, hnone]
  | minor hn hm => simp only [drawn, versionPart_dot hn, versionPart_last hm, hnone]
  | patch hn hm hp => simp only [drawn, versionPart_dot hn, versionPart_dot hm, versionPart_last hp]

/-- **Versions are ordered**: the comparison is a total preorder on all texts, and on two versions
    its sign is the order of their numbers, the first difference deciding. -/
theorem vercmp_orders_versions : TotalPreorder otaGhVercmp ∧
    ∀ {s s' : List UInt8} {n m p n' m' p' : Int}, IsVersion s n m p → IsVersion s' n' m' p' →
      (otaGhVercmp s s' < 0 ↔ [n, m, p] < [n', m', p']) ∧
        (otaGhVercmp s s' = 0 ↔ [n, m, p] = [n', m', p']) ∧
        (0 < otaGhVercmp s s' ↔ [n', m', p'] < [n, m, p]) := by
  refine ⟨otaGhVercmp_readsAs.total, fun hs hs' => ?_⟩
  rw [otaGhVercmp_readsAs.lt_iff, otaGhVercmp_readsAs.eq_iff, otaGhVercmp_readsAs.gt_iff,
    hs.numbers, hs'.numbers]
  exact ⟨Iff.rfl, Iff.rfl, Iff.rfl⟩

/-- 0.10.0 is newer than 0.9, which a comparison of texts gets wrong. -/
theorem vercmp_orders_versions_tenth : 0 < otaGhVercmp (ascii "0.10.0") (ascii "0.9") := by
  have hten : IsVersion (ascii "0.10.0") 0 10 0 :=
    .patch (isNumeral_digitBytes (n := 0) (by decide)) (isNumeral_digitBytes (n := 10) (by decide))
      (isNumeral_digitBytes (n := 0) (by decide))
  have hnine : IsVersion (ascii "0.9") 0 9 0 :=
    .minor (isNumeral_digitBytes (n := 0) (by decide)) (isNumeral_digitBytes (n := 9) (by decide))
  exact (vercmp_orders_versions.2 hten hnine).2.2.mpr (by decide)

end NutBluetti.Ota
