/-
  File:      NutBluetti/Web/ScanReplies.lean
  Subject:   WHAT A SCAN SHOWS. The names that come in from the air (bluetti_ble.c, provisioning.c)
             and the JSON that `h_ble_scan` and `h_wifi_scan` make of them.

  A name is copied between quotes as it came.

  * **`found_onAir`** -- over any number of advertisements, the devices that are found: printed
    addresses, and names of at most 31 bytes that some device sent;
  * `listJson_eq` -- the list in a reply is that of the first entries, as many as get in before it
    has 1900 bytes;
  * `length_listJson_le` -- so the buffer of 2048 bytes is never full;
  * **`wifi_reply_iff`**, **`ble_reply_iff`** -- the reply is the JSON text of what it lists if and
    only if no name has to be escaped.
-/
import NutBluetti.Lib.JsonText
import NutBluetti.Web.Routes

namespace NutBluetti.Web

open NutBluetti.Config
open JsonText

variable {κ : Type}

/-! ## 1. Devices on the air -/

/-- What `handle_scan_disc` takes from an advertisement: the address, last byte first, the signal,
    and `name_len` bytes of a name. -/
structure Advert where
  addr : Vector UInt8 6
  rssi : Int8
  name : List UInt8

/-- `addr_to_str`. -/
def addrToStr (val : Vector UInt8 6) : List UInt8 :=
  hex2 val[5] ++ ascii ":" ++ hex2 val[4] ++ ascii ":" ++ hex2 val[3] ++ ascii ":" ++ hex2 val[2] ++
    ascii ":" ++ hex2 val[1] ++ ascii ":" ++ hex2 val[0]

/-- The table `b.seen`, with whether a name came with the address, and `P.ble`. -/
structure BleScan where
  seen : List (Vector UInt8 6 × Bool)
  found : List ScanEntry

/-- The entries of either table. -/
def bleScanMax : Nat := 24

/-- The loop of `ble_scan_cb`: a device that is listed keeps its name if none came now. -/
def mergeEntry (e : ScanEntry) : List ScanEntry → Option (List ScanEntry)
  | [] => none
  | x :: xs =>
      if x.addr = e.addr then
        some ((if e.name = [] then { x with rssi := e.rssi }
          else { x with rssi := e.rssi, name := e.name, looksLikeBluetti := e.looksLikeBluetti }) ::
            xs)
      else (mergeEntry e xs).map (x :: ·)

/-- `ble_scan_cb`. -/
def bleScanCb (e : ScanEntry) (found : List ScanEntry) : List ScanEntry :=
  match mergeEntry e found with
  | some found => found
  | none => if found.length < bleScanMax then found ++ [e] else found

/-- The entry of an advertisement; `looks` is `name_looks_bluetti`. -/
def scanEntryOf (looks : List UInt8 → Bool) (a : Advert) : ScanEntry where
  addr := addrToStr a.addr
  name := cstr (fitBytes 32 a.name)
  rssi := a.rssi.toInt
  looksLikeBluetti := !a.name.isEmpty && looks a.name

/-- **`handle_scan_disc`**, with the callback. -/
def handleScanDisc (looks : List UInt8 → Bool) (st : BleScan) (a : Advert) : BleScan :=
  let hasName := !a.name.isEmpty
  match st.seen.find? fun x => x.1 = a.addr with
  | some (_, named) =>
      -- nothing new to say
      if !hasName || named then st
      else
        { seen := st.seen.map fun x => if x.1 = a.addr then (x.1, true) else x
          found := bleScanCb (scanEntryOf looks a) st.found }
  | none =>
      if bleScanMax ≤ st.seen.length then st
      else
        { seen := st.seen ++ [(a.addr, hasName)]
          found := bleScanCb (scanEntryOf looks a) st.found }

/-- An entry that advertisements have filled in. -/
structure OnAir (adverts : List Advert) (e : ScanEntry) : Prop where
  addr : ∃ val, e.addr = addrToStr val
  name : ∃ a ∈ adverts, e.name = cstr (fitBytes 32 a.name)
  rssi : ∃ n : Int8, e.rssi = n.toInt

theorem mergeEntry_onAir {adverts : List Advert} {e : ScanEntry} (he : OnAir adverts e)
    {found merged : List ScanEntry} (hmerge : mergeEntry e found = some merged)
    (hfound : ∀ x ∈ found, OnAir adverts x) :
    merged.length = found.length ∧ ∀ x ∈ merged, OnAir adverts x := by
  induction found generalizing merged with
  | nil => cases hmerge
  | cons x xs ih =>
      obtain ⟨hx, hxs⟩ := List.forall_mem_cons.mp hfound
      unfold mergeEntry at hmerge
      split at hmerge
      · rw [← Option.some.inj hmerge]
        refine ⟨rfl, List.forall_mem_cons.mpr ⟨?_, hxs⟩⟩
        split
        · exact ⟨hx.addr, hx.name, he.rssi⟩
        · exact ⟨hx.addr, he.name, he.rssi⟩
      · obtain ⟨rest, hrest, rfl⟩ := Option.map_eq_some_iff.mp hmerge
        obtain ⟨hlen, hall⟩ := ih hrest hxs
        exact ⟨congrArg Nat.succ hlen, List.forall_mem_cons.mpr ⟨hx, hall⟩⟩

/-- The list of devices, as a scan keeps it. -/
def ScanList (adverts : List Advert) (found : List ScanEntry) : Prop :=
  found.length ≤ bleScanMax ∧ ∀ e ∈ found, OnAir adverts e

theorem bleScanCb_onAir {adverts : List Advert} {e : ScanEntry} (he : OnAir adverts e)
    {found : List ScanEntry} (hfound : ScanList adverts found) :
    ScanList adverts (bleScanCb e found) := by
  obtain ⟨hlen, hall⟩ := hfound
  unfold bleScanCb
  cases hmerge : mergeEntry e found with
  | some merged =>
      obtain ⟨hsame, hmerged⟩ := mergeEntry_onAir he hmerge hall
      exact ⟨hsame ▸ hlen, hmerged⟩
  | none =>
      dsimp only
      split
      · next hroom =>
          refine ⟨?_, List.forall_mem_append.mpr ⟨hall, fun x hx => ?_⟩⟩
          · rw [List.length_append, List.length_singleton]
            exact hroom
          · rw [List.mem_singleton.mp hx]
            exact he
      · exact ⟨hlen, hall⟩

theorem handleScanDisc_onAir {adverts : List Advert} (looks : List UInt8 → Bool) {st : BleScan}
    {a : Advert} (ha : a ∈ adverts) (hst : ScanList adverts st.found) :
    ScanList adverts (handleScanDisc looks st a).found := by
  have hentry : OnAir adverts (scanEntryOf looks a) := ⟨⟨a.addr, rfl⟩, ⟨a, ha, rfl⟩, ⟨a.rssi, rfl⟩⟩
  unfold handleScanDisc
  dsimp only
  split
  · split
    · exact hst
    · exact bleScanCb_onAir hentry hst
  · split
    · exact hst
    · exact bleScanCb_onAir hentry hst

/-- **What a scan finds**: at most 24 devices, their addresses printed, and under each a name that
    was sent, cut to 31 bytes. -/
theorem found_onAir (looks : List UInt8 → Bool) (adverts : List Advert) :
    ScanList adverts (adverts.foldl (handleScanDisc looks) ⟨[], []⟩).found := by
  have hrun : ∀ (as : List Advert) (st : BleScan), (∀ a ∈ as, a ∈ adverts) →
    ScanList adverts st.found →
      ScanList adverts (as.foldl (handleScanDisc looks) st).found := by
    intro as
    induction as with
    | nil => exact fun st _ hst => hst
    | cons a as ih =>
        intro st hmem hst
        obtain ⟨ha, has⟩ := List.forall_mem_cons.mp hmem
        exact ih _ has (handleScanDisc_onAir looks ha hst)
  exact hrun adverts ⟨[], []⟩ (fun _ ha => ha)
    ⟨Nat.zero_le _, fun e he => absurd he List.not_mem_nil⟩

/-! ## 2. The loop of a reply -/

section Loop

variable {β : Type} {entry : β → List UInt8} {value : β → Value UInt8}

/-- The entries that get into a reply with `len` bytes in it. -/
def listedOf (entry : β → List UInt8) : Nat → Bool → List β → List β
  | _, _, [] => []
  | len, first, e :: es =>
      if len < 1900 then
        e :: listedOf entry (len + (if first then 0 else 1) + (entry e).length) false es
      else []

/-- They are the first ones. -/
theorem listedOf_take (len : Nat) (first : Bool) (es : List β) :
    ∃ k, listedOf entry len first es = es.take k := by
  induction es generalizing len first with
  | nil => exact ⟨0, rfl⟩
  | cons e es ih =>
      unfold listedOf
      split
      · obtain ⟨k, hk⟩ := ih (len + (if first then 0 else 1) + (entry e).length) false
        exact ⟨k + 1, by rw [hk, List.take_succ_cons]⟩
      · exact ⟨0, rfl⟩

/-- **The loop** prints them, each as the JSON text of its value, with commas between. -/
theorem listJson_eq (h : ∀ e, entry e = (value e).raw bytes) (out : List UInt8) (first : Bool)
    (es : List β) : listJson out first (es.map entry) =
      out ++ glue bytes first ((listedOf entry out.length first es).map value) := by
  induction es generalizing out first with
  | nil => exact (List.append_nil out).symm
  | cons e es ih =>
      rw [List.map_cons, listJson, listedOf]
      by_cases hlen : out.length < 1900
      · rw [if_pos hlen, if_pos hlen, ih, List.map_cons, glue, ← h e]
        have hout : (out ++ (if first then [] else ascii ",") ++ entry e).length =
            out.length + (if first then 0 else 1) + (entry e).length := by
          rw [List.length_append, List.length_append]
          cases first <;> rfl
        rw [hout, List.append_assoc, List.append_assoc, List.append_assoc]
        rfl
      · rw [if_neg hlen, if_neg hlen]
        exact (List.append_nil out).symm

/-- The text never gets longer than one entry past the 1900 bytes. -/
theorem length_listJson_le (entry : β → List UInt8) {m : Nat} {es : List β}
    (h : ∀ e ∈ es, (entry e).length ≤ m)
    (out : List UInt8) (first : Bool) :
    (listJson out first (es.map entry)).length ≤ max out.length (1900 + m) := by
  induction es generalizing out first with
  | nil => exact Nat.le_max_left _ _
  | cons e es ih =>
      obtain ⟨he, hes⟩ := List.forall_mem_cons.mp h
      rw [List.map_cons, listJson]
      split
      · next hlen =>
          have hrest := ih hes (out ++ (if first then [] else ascii ",") ++ entry e) false
          have hcomma : (if first then [] else ascii ",").length ≤ 1 := by cases first <;> decide
          rw [List.length_append, List.length_append] at hrest
          omega
      · exact Nat.le_max_left _ _

end Loop

/-! ## 3. The pages -/

/-- A network in the list. -/
def wifiValue (e : List UInt8 × Int × Bool) : Value UInt8 :=
  .obj [(ascii "ssid", .str e.1), (ascii "rssi", .num (decInt e.2.1)), (ascii "lock", .bool e.2.2)]

def wifiPage (found : List (List UInt8 × Int × Bool)) : Value UInt8 :=
  .obj [(ascii "aps", .arr (found.map wifiValue))]

/-- A device in the list. -/
def deviceValue (e : ScanEntry) : Value UInt8 :=
  .obj
    [(ascii "addr", .str e.addr), (ascii "name", .str e.name), (ascii "rssi", .num (decInt e.rssi)),
      (ascii "bluetti", .bool e.looksLikeBluetti)]

def blePage (scanning : Bool) (found : List ScanEntry) : Value UInt8 :=
  .obj [(ascii "scanning", .bool scanning), (ascii "devices", .arr (found.map deviceValue))]

theorem wifiEntryJson_raw (e : List UInt8 × Int × Bool) :
    wifiEntryJson e = (wifiValue e).raw bytes := by
  obtain ⟨ssid, rssi, lock⟩ := e
  unfold wifiEntryJson wifiValue
  cases lock <;>
    simp only [Value.raw, rawMembers, rawMember, Alphabet.quote, List.append_assoc,
      List.cons_append] <;>
    rfl

theorem scanEntryJson_raw (e : ScanEntry) : scanEntryJson e = (deviceValue e).raw bytes := by
  obtain ⟨addr, name, rssi, looks⟩ := e
  unfold scanEntryJson deviceValue
  cases looks <;>
    simp only [Value.raw, rawMembers, rawMember, Alphabet.quote, List.append_assoc,
      List.cons_append] <;>
    rfl

theorem wifiValue_plain (e : List UInt8 × Int × Bool) :
    (wifiValue e).Plain bytes ↔ bytes.PlainText e.1 := by
  have hkeys : ∀ k ∈ ["ssid", "rssi", "lock"], bytes.PlainText (ascii k) := by decide
  refine ⟨fun h => h.1.2, fun h => ?_⟩
  exact ⟨⟨hkeys "ssid" (by decide), h⟩, ⟨hkeys "rssi" (by decide), bytes.isNumber_int e.2.1⟩,
    ⟨hkeys "lock" (by decide), trivial⟩, trivial⟩

theorem deviceValue_plain (e : ScanEntry) :
    (deviceValue e).Plain bytes ↔ bytes.PlainText e.addr ∧ bytes.PlainText e.name := by
  have hkeys : ∀ k ∈ ["addr", "name", "rssi", "bluetti"], bytes.PlainText (ascii k) := by decide
  refine ⟨fun h => ⟨h.1.2, h.2.1.2⟩, fun ⟨haddr, hname⟩ => ?_⟩
  exact ⟨⟨hkeys "addr" (by decide), haddr⟩, ⟨hkeys "name" (by decide), hname⟩,
    ⟨hkeys "rssi" (by decide), bytes.isNumber_int e.rssi⟩, ⟨hkeys "bluetti" (by decide), trivial⟩,
    trivial⟩

theorem wifiPage_plain (found : List (List UInt8 × Int × Bool)) :
    (wifiPage found).Plain bytes ↔ ∀ e ∈ found, bytes.PlainText e.1 := by
  have hkey : bytes.PlainText (ascii "aps") := by decide
  have hitems : PlainItems bytes (found.map wifiValue) ↔ ∀ e ∈ found, bytes.PlainText e.1 := by
    rw [plainItems_iff, List.forall_mem_map]
    exact forall_congr' fun e => forall_congr' fun _ => wifiValue_plain e
  rw [← hitems]
  exact ⟨fun h => h.1.2, fun h => ⟨⟨hkey, h⟩, trivial⟩⟩

theorem blePage_plain (scanning : Bool) (found : List ScanEntry) :
    (blePage scanning found).Plain bytes ↔
    ∀ e ∈ found, bytes.PlainText e.addr ∧ bytes.PlainText e.name := by
  have hkeys : ∀ k ∈ ["scanning", "devices"], bytes.PlainText (ascii k) := by decide
  have hitems : PlainItems bytes (found.map deviceValue) ↔
      ∀ e ∈ found, bytes.PlainText e.addr ∧ bytes.PlainText e.name := by
    rw [plainItems_iff, List.forall_mem_map]
    exact forall_congr' fun e => forall_congr' fun _ => deviceValue_plain e
  rw [← hitems]
  exact ⟨fun h => h.2.1.2, fun h => ⟨⟨hkeys "scanning" (by decide), trivial⟩,
    ⟨hkeys "devices" (by decide), h⟩, trivial⟩⟩

/-! ## 4. The replies -/

/-- What a handler behind the check does for a request that is let through. -/
theorem requireAuth_go {o : Outside} {r : Request} {s : Server κ} (h : Handler κ)
    (hauth : (authOk o r s).1 = true) : requireAuth h o r s = h o r (authOk o r s).2 := by
  unfold requireAuth
  simp only [hauth, Bool.not_true, Bool.false_eq_true, if_false]

/-- The networks in a reply. -/
def wifiListed (o : Outside) : List (List UInt8 × Int × Bool) :=
  listedOf wifiEntryJson (ascii "\x7b\"aps\":[").length true o.wifiFound

theorem hWifiScan_body {o : Outside} {r : Request} {s : Server κ} (hauth : (authOk o r s).1 = true)
    (halloc : o.alloc 0 = true) :
    (hWifiScan o r s).1.body = (wifiPage (wifiListed o)).raw bytes ∧ (hWifiScan o r s).1.body =
      listJson (ascii "\x7b\"aps\":[") true (o.wifiFound.map wifiEntryJson) ++ ascii "]\x7d" := by
  have hbody : (hWifiScan o r s).1.body =
      listJson (ascii "\x7b\"aps\":[") true (o.wifiFound.map wifiEntryJson) ++ ascii "]\x7d" := by
    unfold hWifiScan
    rw [requireAuth_go _ hauth]
    simp only [halloc, Bool.not_true, Bool.false_eq_true, if_false]
    rfl
  refine ⟨hbody.trans ?_, hbody⟩
  rw [listJson_eq wifiEntryJson_raw, ← rawItems_eq_glue]
  unfold wifiPage
  simp only [Value.raw, rawMembers, rawMember, Alphabet.quote, List.append_assoc, List.cons_append]
  rfl

/-- **The list of networks** is JSON for the names it lists if and only if none has to be
    escaped. -/
theorem wifi_reply_iff {o : Outside} {r : Request} {s : Server κ} (hauth : (authOk o r s).1 = true)
    (halloc : o.alloc 0 = true) :
    Spells bytes (.value (wifiPage (wifiListed o))) (hWifiScan o r s).1.body ↔
      ∀ e ∈ wifiListed o, bytes.PlainText e.1 := by
  rw [(hWifiScan_body hauth halloc).1, spells_raw_iff, wifiPage_plain]

/-- A GET without `poll=1` starts a scan, unless one is going. -/
def startsScan (o : Outside) (r : Request) : Bool :=
  !(afterWord (ascii "poll=1") (queryText r 16)).isSome && !o.bleScanning

/-- The devices found so far: a new scan starts with none. -/
def bleShown (o : Outside) (r : Request) (s : Server κ) : List ScanEntry :=
  if startsScan o r then [] else s.bleFound

def bleHead (o : Outside) (r : Request) : List UInt8 :=
  ascii "\x7b\"scanning\":" ++ jsonBool (o.bleScanning || startsScan o r) ++ ascii ",\"devices\":["

/-- The devices in a reply. -/
def bleListed (o : Outside) (r : Request) (s : Server κ) : List ScanEntry :=
  listedOf scanEntryJson (bleHead o r).length true (bleShown o r s)

theorem hBleScan_body {o : Outside} {r : Request} {s : Server κ} (hauth : (authOk o r s).1 = true)
    (halloc : o.alloc 0 = true) :
    (hBleScan o r s).1.body =
        (blePage (o.bleScanning || startsScan o r) (bleListed o r s)).raw bytes ∧
      (hBleScan o r s).1.body =
        listJson (bleHead o r) true ((bleShown o r s).map scanEntryJson) ++ ascii "]\x7d" := by
  have hfound : (authOk o r s).2.bleFound = s.bleFound := by rw [authOk_frame]
  have hbody : (hBleScan o r s).1.body =
      listJson (bleHead o r) true ((bleShown o r s).map scanEntryJson) ++ ascii "]\x7d" := by
    unfold hBleScan
    rw [requireAuth_go _ hauth]
    simp only [halloc, Bool.not_true, Bool.false_eq_true, if_false]
    unfold bleHead bleShown startsScan
    rw [← hfound]
    cases !(afterWord (ascii "poll=1") (queryText r 16)).isSome && !o.bleScanning <;> rfl
  refine ⟨hbody.trans ?_, hbody⟩
  rw [listJson_eq scanEntryJson_raw, ← rawItems_eq_glue]
  unfold blePage bleListed
  generalize listedOf scanEntryJson (bleHead o r).length true (bleShown o r s) = listed
  unfold bleHead
  cases o.bleScanning || startsScan o r <;>
    simp only [Value.raw, rawMembers, rawMember, Alphabet.quote, List.append_assoc,
      List.cons_append] <;>
    rfl

/-- **The list of devices** is JSON for the names it lists if and only if none has to be escaped. -/
theorem ble_reply_iff {o : Outside} {r : Request} {s : Server κ} (hauth : (authOk o r s).1 = true)
    (halloc : o.alloc 0 = true) :
    Spells bytes (.value (blePage (o.bleScanning || startsScan o r) (bleListed o r s)))
        (hBleScan o r s).1.body ↔
      ∀ e ∈ bleListed o r s, bytes.PlainText e.addr ∧ bytes.PlainText e.name := by
  rw [(hBleScan_body hauth halloc).1, spells_raw_iff, blePage_plain]

/-! ## 5. They fit -/

/-- `sizeof buf` of both handlers. -/
def scanReplySz : Nat := 2048

theorem length_rssi (n : Int8) : (decInt n.toInt).length ≤ 4 := by
  have hall : ∀ k : Fin 256, (decInt (Int8.ofBitVec (BitVec.ofFin k)).toInt).length ≤ 4 := by
    decide +kernel
  exact hall n.toBitVec.toFin

theorem length_jsonBool (b : Bool) : (jsonBool b).length ≤ 5 := by
  cases b <;> decide

theorem length_wifiEntryJson {e : List UInt8 × Int × Bool} (hssid : e.1.length ≤ 32)
    (hrssi : ∃ n : Int8, e.2.1 = n.toInt) : (wifiEntryJson e).length ≤ 68 := by
  obtain ⟨n, hn⟩ := hrssi
  have hnum := length_rssi n
  have hbool := length_jsonBool e.2.2
  have hfixed : (ascii "\x7b\"ssid\":\"").length = 9 ∧ (ascii "\",\"rssi\":").length = 9 ∧
      (ascii ",\"lock\":").length = 8 ∧ (ascii "\x7d").length = 1 := by decide
  unfold wifiEntryJson
  rw [hn]
  simp only [List.length_append]
  omega

theorem length_scanEntryJson {adverts : List Advert} {e : ScanEntry} (h : OnAir adverts e) :
    (scanEntryJson e).length ≤ 97 := by
  obtain ⟨⟨val, haddr⟩, ⟨a, -, hname⟩, ⟨n, hrssi⟩⟩ := h
  have hnum := length_rssi n
  have hbool := length_jsonBool e.looksLikeBluetti
  have hmac : (addrToStr val).length = 17 := rfl
  have hcut : (cstr (fitBytes 32 a.name)).length ≤ 31 := by
    refine Nat.le_trans (length_cstr_le _) ?_
    unfold fitBytes
    rw [List.length_take]
    exact Nat.min_le_left _ _
  have hfixed : (ascii "\x7b\"addr\":\"").length = 9 ∧ (ascii "\",\"name\":\"").length = 10 ∧
      (ascii "\",\"rssi\":").length = 9 ∧ (ascii ",\"bluetti\":").length = 11 ∧
      (ascii "\x7d").length = 1 := by decide
  unfold scanEntryJson
  rw [haddr, hname, hrssi]
  simp only [List.length_append]
  omega

/-- **Both lists fit**: the text and its NUL never fill the buffer, for names as long as they
    come. -/
theorem wifi_reply_fits {o : Outside} {r : Request} {s : Server κ} (hauth : (authOk o r s).1 = true)
    (halloc : o.alloc 0 = true)
    (hsized : ∀ e ∈ o.wifiFound, e.1.length ≤ 32 ∧ ∃ n : Int8, e.2.1 = n.toInt) :
    (hWifiScan o r s).1.body.length < scanReplySz := by
  have hlen := length_listJson_le wifiEntryJson (fun e he => length_wifiEntryJson (hsized e he).1
    (hsized e he).2) (ascii "\x7b\"aps\":[") true
  have hfixed : (ascii "\x7b\"aps\":[").length = 8 ∧ (ascii "]\x7d").length = 2 := by decide
  rw [(hWifiScan_body hauth halloc).2, List.length_append]
  unfold scanReplySz
  omega

theorem ble_reply_fits {o : Outside} {r : Request} {s : Server κ} (hauth : (authOk o r s).1 = true)
    (halloc : o.alloc 0 = true) {adverts : List Advert} (hfound : ScanList adverts s.bleFound) :
    (hBleScan o r s).1.body.length < scanReplySz := by
  have hshown : ∀ e ∈ bleShown o r s, OnAir adverts e := by
    unfold bleShown
    split
    · exact fun e he => absurd he List.not_mem_nil
    · exact hfound.2
  have hlen := length_listJson_le scanEntryJson (fun e he => length_scanEntryJson (hshown e he))
    (bleHead o r) true
  have hhead : (bleHead o r).length ≤ 30 := by
    have hbool := length_jsonBool (o.bleScanning || startsScan o r)
    have hfixed : (ascii "\x7b\"scanning\":").length = 12 ∧
      (ascii ",\"devices\":[").length = 12 := by
      decide
    unfold bleHead
    simp only [List.length_append]
    omega
  have hend : (ascii "]\x7d").length = 2 := by decide
  rw [(hBleScan_body hauth halloc).2, List.length_append]
  unfold scanReplySz
  omega

theorem hex2_plain (b : UInt8) : bytes.PlainText (hex2 b) := by
  have hall : ∀ k : Fin 256, bytes.PlainText (hex2 (UInt8.ofFin k)) := by decide +kernel
  exact hall b.toFin

/-- A printed address needs no escape. -/
theorem addrToStr_plain (val : Vector UInt8 6) : bytes.PlainText (addrToStr val) := by
  have hhex := hex2_plain
  have hcolon : bytes.PlainText (ascii ":") := by decide
  unfold addrToStr
  simp only [Alphabet.PlainText, List.forall_mem_append]
  exact ⟨⟨⟨⟨⟨⟨⟨⟨⟨⟨hhex _, hcolon⟩, hhex _⟩, hcolon⟩, hhex _⟩, hcolon⟩, hhex _⟩, hcolon⟩, hhex _⟩,
    hcolon⟩, hhex _⟩

end NutBluetti.Web
