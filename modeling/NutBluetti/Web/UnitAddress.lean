/-
  File:      NutBluetti/Web/UnitAddress.lean
  Subject:   THE ADDRESS OF THE UNIT, from the scan to the connection: written by `addr_to_str`,
             listed on the page, posted back, checked by `is_mac_addr` (provisioning.c), stored,
             loaded after the restart, and read by `parse_addr` (bluetti_ble.c) for
             `BLE_GAP_EVENT_DISC` to compare.

  `sscanf` is of the C library: `%x` skips blanks and takes a sign and `0x` too, and stops at the
  end of an `unsigned`, which has 32 bits on the target.

  * `parseAddr_isMacAddr` -- `parse_addr` reads whatever `is_mac_addr` accepts, as the bytes it
    spells;
  * `addrToStr_injective` -- no two addresses are written alike;
  * **`chosen_unit_is_target`** -- after a form that was accepted and a restart there is a target:
    it is the address that was posted, and for one that was picked from the scan that of the device.
-/
import NutBluetti.Nut.Login
import NutBluetti.Web.ScanReplies
import NutBluetti.Wifi.StaticAddress

namespace NutBluetti.Web

open CLayout
open NutBluetti.Config

variable {κ : Type}

/-! ## 1. `sscanf` -/

/-- The value of a row of hexadecimal digits. -/
def hexadecimal (ds : List UInt8) : Nat :=
  ds.foldl (fun n d => n * 16 + ((hexval d).getD 0).toNat) 0

/-- A sign, and whether it is a minus. -/
def takeSign : List UInt8 → Bool × List UInt8
  | c :: s =>
      if c = chr '-' then (true, s) else if c = chr '+' then (false, s) else (false, c :: s)
  | [] => (false, [])

/-- `0x` in front of a digit. -/
def dropHexPrefix : List UInt8 → List UInt8
  | z :: x :: d :: s =>
      if z = chr '0' ∧ toLower x = chr 'x' ∧ isXdigit d then d :: s else z :: x :: d :: s
  | s => s

/-- The largest `unsigned`. -/
def uintMax : Nat := 2 ^ 32 - 1

/-- `%x`: the number and the rest of the text, if there is one. -/
def scanHex (s : List UInt8) : Option (Nat × List UInt8) :=
  let (neg, t) := takeSign (s.dropWhile isSpace)
  let t := dropHexPrefix t
  let ds := t.takeWhile isXdigit
  if ds = [] then none
  else
    let n := min (hexadecimal ds) uintMax
    some (if neg then (uintMax + 1 - n) % (uintMax + 1) else n, t.dropWhile isXdigit)

/-- `%x:%x:…`, with so many numbers; what follows the last is not read. -/
def scanHexes : Nat → List UInt8 → Option (List Nat)
  | 0, _ => some []
  | 1, s => (scanHex s).map fun (n, _) => [n]
  | k + 2, s =>
      match scanHex s with
      | some (n, c :: rest) => if c = chr ':' then (scanHexes (k + 1) rest).map (n :: ·) else none
      | _ => none

/-- **`parse_addr`**: the bytes, the last one first. -/
def parseAddr (s : List UInt8) : Option (Vector UInt8 6) :=
  match scanHexes 6 s with
  | some [v0, v1, v2, v3, v4, v5] =>
      some #v[UInt8.ofNat v5, UInt8.ofNat v4, UInt8.ofNat v3, UInt8.ofNat v2, UInt8.ofNat v1,
        UInt8.ofNat v0]
  | _ => none

/-! ## 2. What `is_mac_addr` accepts -/

/-- A hexadecimal digit is nothing else that `%x` looks for; and it is how `%02X` writes its
    value. -/
theorem xdigit_facts {c : UInt8} (h : isXdigit c = true) : isSpace c = false ∧ c ≠ chr '-' ∧
    c ≠ chr '+' ∧ toLower c ≠ chr 'x' ∧ ((hexval c).getD 0).toNat < 16 ∧
    toUpper c = UInt8.ofNat (if ((hexval c).getD 0).toNat < 10 then 48 + ((hexval c).getD 0).toNat
      else 55 + ((hexval c).getD 0).toNat) := by
  have hall : ∀ n : Fin 256, isXdigit (UInt8.ofFin n) = true → isSpace (UInt8.ofFin n) = false ∧
      UInt8.ofFin n ≠ chr '-' ∧ UInt8.ofFin n ≠ chr '+' ∧ toLower (UInt8.ofFin n) ≠ chr 'x' ∧
      ((hexval (UInt8.ofFin n)).getD 0).toNat < 16 ∧
      toUpper (UInt8.ofFin n) = UInt8.ofNat
        (if ((hexval (UInt8.ofFin n)).getD 0).toNat < 10 then
          48 + ((hexval (UInt8.ofFin n)).getD 0).toNat
          else 55 + ((hexval (UInt8.ofFin n)).getD 0).toNat) := by decide +kernel
  exact hall c.toFin h

/-- The byte that two digits spell. -/
def pairByte (h l : UInt8) : UInt8 := UInt8.ofNat (hexadecimal [h, l])

theorem hexadecimal_pair (h l : UInt8) :
    hexadecimal [h, l] = ((hexval h).getD 0).toNat * 16 + ((hexval l).getD 0).toNat := by
  simp [hexadecimal]

/-- **Two digits and no third** are read as the byte they spell. -/
theorem scanHex_pair {h l : UInt8} {rest : List UInt8} (hh : isXdigit h = true)
    (hl : isXdigit l = true) (hrest : ∀ c ∈ rest.head?, isXdigit c = false) :
    scanHex (h :: l :: rest) = some (hexadecimal [h, l], rest) := by
  obtain ⟨hspace, hminus, hplus, -, hhigh, -⟩ := xdigit_facts hh
  obtain ⟨-, -, -, hx, hlow, -⟩ := xdigit_facts hl
  have hsign : takeSign ((h :: l :: rest).dropWhile isSpace) = (false, h :: l :: rest) := by
    rw [List.dropWhile_cons_of_neg (by rw [hspace]; exact Bool.false_ne_true)]
    exact (if_neg hminus).trans (if_neg hplus)
  have hdrop : dropHexPrefix (h :: l :: rest) = h :: l :: rest := by
    cases rest with
    | nil => rfl
    | cons d rest =>
        unfold dropHexPrefix
        exact if_neg fun hpre => hx hpre.2.1
  have hnone : rest.takeWhile isXdigit = [] ∧ rest.dropWhile isXdigit = rest := by
    cases rest with
    | nil => exact ⟨rfl, rfl⟩
    | cons c rest =>
        have hc := hrest c rfl
        exact ⟨List.takeWhile_cons_of_neg (by rw [hc]; exact Bool.false_ne_true),
          List.dropWhile_cons_of_neg (by rw [hc]; exact Bool.false_ne_true)⟩
  have hsmall : min (hexadecimal [h, l]) uintMax = hexadecimal [h, l] := by
    rw [hexadecimal_pair]
    unfold uintMax
    omega
  unfold scanHex
  rw [hsign]
  dsimp only
  rw [hdrop, List.takeWhile_cons_of_pos hh, List.takeWhile_cons_of_pos hl, hnone.1,
    List.dropWhile_cons_of_pos hh, List.dropWhile_cons_of_pos hl, hnone.2,
    if_neg (List.cons_ne_nil _ _), hsmall]
  rfl

/-- A byte that two digits spell is written with them, in upper case. -/
theorem hex2_pairByte {h l : UInt8} (hh : isXdigit h = true) (hl : isXdigit l = true) :
    hex2 (pairByte h l) = [toUpper h, toUpper l] := by
  obtain ⟨-, -, -, -, hhigh, hupper⟩ := xdigit_facts hh
  obtain ⟨-, -, -, -, hlow, hlower⟩ := xdigit_facts hl
  have hbyte : (pairByte h l).toNat =
    ((hexval h).getD 0).toNat * 16 + ((hexval l).getD 0).toNat := by
    unfold pairByte
    rw [hexadecimal_pair, UInt8.toNat_ofNat']
    omega
  have hhi : (pairByte h l).toNat / 16 = ((hexval h).getD 0).toNat := by omega
  have hlo : (pairByte h l).toNat % 16 = ((hexval l).getD 0).toNat := by omega
  unfold hex2
  rw [hhi, hlo, hupper, hlower]

/-- Six pairs of digits with colons between them. -/
def macText (d : Nat → UInt8) : List UInt8 :=
  [d 0, d 1, chr ':', d 3, d 4, chr ':', d 6, d 7, chr ':', d 9, d 10, chr ':', d 12, d 13, chr ':',
  d 15,
    d 16]

theorem isMacAddr_eq {s : List UInt8} (h : isMacAddr s = true) :
    s = macText (s.getD · 0) ∧ ∀ i < 17, i % 3 ≠ 2 → isXdigit (s.getD i 0) = true := by
  obtain ⟨hlen, hall⟩ : s.length = 17 ∧ ∀ i < 17,
      (if i % 3 = 2 then decide (s.getD i 0 = chr ':') else isXdigit (s.getD i 0)) = true := by
    simpa [isMacAddr] using h
  have hcolon : ∀ i < 17, i % 3 = 2 → s.getD i 0 = chr ':' := by
    intro i hi hm
    have hi := hall i hi
    rw [if_pos hm] at hi
    exact of_decide_eq_true hi
  refine ⟨?_, fun i hi hm => ?_⟩
  · have hs : s = (List.range 17).map (s.getD · 0) := by
      refine List.ext_getElem (by simp [hlen]) fun i h1 h2 => ?_
      simp [h1]
    refine hs.trans ?_
    show [s.getD 0 0, s.getD 1 0, s.getD 2 0, s.getD 3 0, s.getD 4 0, s.getD 5 0, s.getD 6 0,
      s.getD 7 0, s.getD 8 0, s.getD 9 0, s.getD 10 0, s.getD 11 0, s.getD 12 0, s.getD 13 0,
      s.getD 14 0, s.getD 15 0, s.getD 16 0] = macText (s.getD · 0)
    rw [hcolon 2 (by omega) rfl, hcolon 5 (by omega) rfl, hcolon 8 (by omega) rfl,
      hcolon 11 (by omega) rfl, hcolon 14 (by omega) rfl]
    rfl
  · have hi := hall i hi
    rwa [if_neg hm] at hi

theorem scanHexes_pair {h l : UInt8} (hh : isXdigit h = true) (hl : isXdigit l = true) (k : Nat)
    (rest : List UInt8) : scanHexes (k + 2) (h :: l :: chr ':' :: rest) =
      (scanHexes (k + 1) rest).map (hexadecimal [h, l] :: ·) := by
  have hread : scanHex (h :: l :: chr ':' :: rest) = some (hexadecimal [h, l], chr ':' :: rest) :=
    scanHex_pair hh hl fun c hc => by
      rw [← Option.some.inj hc]
      decide
  simp only [scanHexes, hread, if_true]

theorem scanHexes_last {h l : UInt8} (hh : isXdigit h = true) (hl : isXdigit l = true) :
    scanHexes 1 [h, l] = some [hexadecimal [h, l]] := by
  have hread : scanHex [h, l] = some (hexadecimal [h, l], []) :=
    scanHex_pair hh hl fun c hc => by cases hc
  simp only [scanHexes, hread, Option.map_some]

/-- **What `is_mac_addr` accepts, `parse_addr` reads**, as the address that is written so in upper
    case. -/
theorem parseAddr_isMacAddr {s : List UInt8} (h : isMacAddr s = true) :
    ∃ val, parseAddr s = some val ∧ addrToStr val = s.map toUpper := by
  obtain ⟨hs, hdigit⟩ := isMacAddr_eq h
  generalize hd : (fun i => s.getD i 0) = d at hs
  have hdigit : ∀ i < 17, i % 3 ≠ 2 → isXdigit (d i) = true := fun i hi hm => by
    rw [← hd]
    exact hdigit i hi hm
  refine ⟨#v[pairByte (d 15) (d 16), pairByte (d 12) (d 13), pairByte (d 9) (d 10),
    pairByte (d 6) (d 7), pairByte (d 3) (d 4), pairByte (d 0) (d 1)], ?_, ?_⟩
  · rw [hs]
    unfold parseAddr macText
    rw [scanHexes_pair (hdigit 0 (by omega) (by omega)) (hdigit 1 (by omega) (by omega)),
      scanHexes_pair (hdigit 3 (by omega) (by omega)) (hdigit 4 (by omega) (by omega)),
      scanHexes_pair (hdigit 6 (by omega) (by omega)) (hdigit 7 (by omega) (by omega)),
      scanHexes_pair (hdigit 9 (by omega) (by omega)) (hdigit 10 (by omega) (by omega)),
      scanHexes_pair (hdigit 12 (by omega) (by omega)) (hdigit 13 (by omega) (by omega)),
      scanHexes_last (hdigit 15 (by omega) (by omega)) (hdigit 16 (by omega) (by omega))]
    rfl
  · have hsep : ascii ":" = [toUpper (chr ':')] := by decide
    rw [hs]
    show hex2 (pairByte (d 0) (d 1)) ++ ascii ":" ++ hex2 (pairByte (d 3) (d 4)) ++ ascii ":" ++
      hex2 (pairByte (d 6) (d 7)) ++ ascii ":" ++ hex2 (pairByte (d 9) (d 10)) ++ ascii ":" ++
      hex2 (pairByte (d 12) (d 13)) ++ ascii ":" ++ hex2 (pairByte (d 15) (d 16)) = _
    rw [hsep, hex2_pairByte (hdigit 0 (by omega) (by omega)) (hdigit 1 (by omega) (by omega)),
      hex2_pairByte (hdigit 3 (by omega) (by omega)) (hdigit 4 (by omega) (by omega)),
      hex2_pairByte (hdigit 6 (by omega) (by omega)) (hdigit 7 (by omega) (by omega)),
      hex2_pairByte (hdigit 9 (by omega) (by omega)) (hdigit 10 (by omega) (by omega)),
      hex2_pairByte (hdigit 12 (by omega) (by omega)) (hdigit 13 (by omega) (by omega)),
      hex2_pairByte (hdigit 15 (by omega) (by omega)) (hdigit 16 (by omega) (by omega))]
    rfl

/-! ## 3. From the scan to the restart -/

theorem hex2_injective : Function.Injective hex2 := by
  have hback : ∀ n : Fin 256,
      pairByte ((hex2 (UInt8.ofFin n)).getD 0 0) ((hex2 (UInt8.ofFin n)).getD 1 0) =
      UInt8.ofFin n := by
    decide +kernel
  intro a b hab
  calc a = pairByte ((hex2 a).getD 0 0) ((hex2 a).getD 1 0) := (hback a.toFin).symm
    _ = pairByte ((hex2 b).getD 0 0) ((hex2 b).getD 1 0) := by rw [hab]
    _ = b := hback b.toFin

/-- **No two addresses are written alike.** -/
theorem addrToStr_injective : Function.Injective addrToStr := by
  intro v w h
  unfold addrToStr at h
  obtain ⟨h, h0⟩ := List.append_inj' h rfl
  obtain ⟨h, h1⟩ := List.append_inj' (List.append_inj' h rfl).1 rfl
  obtain ⟨h, h2⟩ := List.append_inj' (List.append_inj' h rfl).1 rfl
  obtain ⟨h, h3⟩ := List.append_inj' (List.append_inj' h rfl).1 rfl
  obtain ⟨h5, h4⟩ := List.append_inj' (List.append_inj' h rfl).1 rfl
  obtain ⟨h5, -⟩ := List.append_inj' h5 rfl
  refine Vector.ext fun i hi => hex2_injective ?_
  obtain rfl | rfl | rfl | rfl | rfl | rfl : i = 0 ∨ i = 1 ∨ i = 2 ∨ i = 3 ∨ i = 4 ∨ i = 5 := by
    omega
  exacts [h0, h1, h2, h3, h4, h5]

/-- An address is written in upper case. -/
theorem addrToStr_upper (val : Vector UInt8 6) : (addrToStr val).map toUpper = addrToStr val := by
  have hhex : ∀ b : UInt8, (hex2 b).map toUpper = hex2 b := by
    have hall : ∀ n : Fin 256, (hex2 (UInt8.ofFin n)).map toUpper = hex2 (UInt8.ofFin n) := by
      decide +kernel
    exact fun b => hall b.toFin
  have hsep : (ascii ":").map toUpper = ascii ":" := by decide
  unfold addrToStr
  simp only [List.map_append, hhex, hsep]

/-- What names the unit in a form: the value of `ble_addr` as far as the field holds it, or what is
    stored. -/
def chosenUnit (body : List UInt8) (stored : Image) : List UInt8 :=
  match formGet body "ble_addr" 128 with
  | some v => (cstr v).take 17
  | none => text stored .bleAddr

/-- `cfg.ble_addr` after the configuration was saved and the board restarted. -/
def unitAfterRestart (b : Board) (cfg : Image) : List UInt8 :=
  text (appConfigLoad b (some (appConfigSave cfg)) true) .bleAddr

variable {o : Outside} {r : Request} {s : Server κ} {body : List UInt8}

/-- The text that was chosen is stored as it is, and is an address. -/
theorem chosenUnit_stored (b : Board) (h : Saved o r s body .bluetti) :
    unitAfterRestart b (hAdminReconfigure o r s).2.cfg = chosenUnit body s.cfg ∧
      isMacAddr (chosenUnit body s.cfg) = true := by
  obtain ⟨pending, rules, hrun, hcfg, -⟩ := h.result
  rw [runSection_name] at hrun
  obtain ⟨hsection, -⟩ := map_eq_ok hrun
  have hsection : sectionBluetti body s.cfg = .ok pending := hsection
  have hkept : unitAfterRestart b (hAdminReconfigure o r s).2.cfg = text pending .bleAddr := by
    refine Wifi.text_congr ((load_save b _ (by decide)).trans ?_)
    rw [hcfg]
    exact (provisioned_within pending).read fun k hk => (AppField.span_apart (by decide)).not_has hk
  unfold sectionBluetti at hsection
  extract_lets chosen at hsection
  have hchosen : text chosen .bleAddr = chosenUnit body s.cfg := by
    unfold chosenUnit
    cases hform : formGet body "ble_addr" 128 with
    | none => simp only [chosen, hform]
    | some v =>
        simp only [chosen, hform]
        exact Nut.text_strlcpy _ (by decide) fun hin =>
          absurd (List.mem_takeWhile_imp hin) (by decide)
  split at hsection
  · cases hsection
  · rename_i hmac
    have hmac : isMacAddr (text chosen .bleAddr) = true := by simpa using hmac
    rw [← Except.ok.inj hsection, hchosen] at hkept
    rw [hchosen] at hmac
    exact ⟨hkept, hmac⟩

/-- **The unit that was chosen is the target.** After a "bluetti" form that was accepted, and a
    restart, `parse_addr` does read an address; an advertiser is the target if and only if its
    address, written out, is the text that was chosen, up to the case of the letters; and for a text
    that `addr_to_str` wrote it is the address that was written. -/
theorem chosen_unit_is_target (b : Board) (h : Saved o r s body .bluetti) :
    ∃ target, parseAddr (unitAfterRestart b (hAdminReconfigure o r s).2.cfg) = some target ∧
      (∀ addr, addr = target ↔ addrToStr addr = (chosenUnit body s.cfg).map toUpper) ∧
      ∀ addr, chosenUnit body s.cfg = addrToStr addr → target = addr := by
  obtain ⟨hstored, hmac⟩ := chosenUnit_stored b h
  obtain ⟨target, hread, hwritten⟩ := parseAddr_isMacAddr hmac
  refine ⟨target, by rw [hstored]; exact hread, fun addr => ?_, fun addr hpicked => ?_⟩
  · rw [← hwritten]
    exact addrToStr_injective.eq_iff.symm
  · refine addrToStr_injective ?_
    rw [hwritten, hpicked, addrToStr_upper]

/-- A unit in lower case. -/
def unitForm : List UInt8 := ascii "section=bluetti&ble_addr=d4%3a3c%3aff%3a00%3a1e%3a9b"

theorem chosen_unit_is_target_unitForm :
    ∃ target, parseAddr (unitAfterRestart kconfigBoard
        (hAdminReconfigure quietOutside (postOf "/api/reconfigure" unitForm) ruledServer).2.cfg) =
          some target ∧
      (∀ addr, addr = target ↔
        addrToStr addr = (chosenUnit unitForm ruledServer.cfg).map toUpper) ∧
      ∀ addr, chosenUnit unitForm ruledServer.cfg = addrToStr addr → target = addr := by
  have hsaved : Saved quietOutside (postOf "/api/reconfigure" unitForm) ruledServer unitForm
    .bluetti :=
    ⟨by decide +kernel, by decide +kernel, by decide +kernel⟩
  exact chosen_unit_is_target kconfigBoard hsaved

end NutBluetti.Web
