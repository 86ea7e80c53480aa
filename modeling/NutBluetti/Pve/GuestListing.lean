/-
  File:      NutBluetti/Pve/GuestListing.lean
  Subject:   THE GUESTS OF A HOST AS A JSON ARRAY (pve_shutdown.c, `pve_shutdown_list_guests`): two
             replies, one buffer.

  * `listed` -- the entries of one reply that have a number for an id, as objects;
  * `listLoop_spec` -- the loop writes the first of them, as many as there is room for;
  * **`guest_listing_is_json`** -- what the buffer holds is an array of just the objects that were
    counted, and it fits.
-/
import NutBluetti.Lib.JsonText
import NutBluetti.Pve.ApiCalls

namespace NutBluetti.Pve

open CText
open JsonText

/-! ## 1. Entries -/

/-- The object of one guest. -/
def entryValue (kind : String) (id : Int) (g : Json) : Value Char :=
  .obj
    [("id".toList, .num (chars.word (toString id))),
      ("name".toList, .str (listedName (g.getObjectItem "name")).toList),
      ("type".toList, .str kind.toList),
      ("status".toList, .str (textOf (g.getObjectItem "status")).toList)]

/-- The objects of a reply: an entry without a number for an id has none. -/
def listed (kind : String) (items : List Json) : List (Value Char) :=
  items.filterMap fun g =>
    match g.getObjectItem "vmid" with
    | some (.num id) => some (entryValue kind id g)
    | _ => none

/-- The text `snprintf` makes of an entry is its object. -/
theorem entry_text (kind : String) (id : Int) (g : Json) (first : Bool) :
    ((if first then "" else ",") ++ "\x7b\"id\":" ++ toString id ++ ",\"name\":\"" ++
      listedName (g.getObjectItem "name") ++ "\",\"type\":\"" ++ kind ++ "\",\"status\":\"" ++
      textOf (g.getObjectItem "status") ++ "\"\x7d").toList =
    (if first then [] else [',']) ++ (entryValue kind id g).raw chars := by
  have hword : chars.word (toString id) = (toString id).toList := List.map_id _
  have hcomma : (if first then "" else ",").toList = if first then [] else [','] := by
    cases first <;> rfl
  simp only [String.toList_append, hcomma, List.append_assoc]
  refine congrArg _ ?_
  unfold entryValue
  simp only [Value.raw, rawMembers, rawMember, Alphabet.quote, hword, List.cons_append,
    List.append_assoc]
  rfl

/-- A guest's name is listed without what a string would have to escape. -/
theorem listedName_plain (name : Option Json) : chars.PlainText (listedName name).toList := by
  unfold listedName
  split
  · intro c hc
    rw [String.toList_ofList] at hc
    obtain ⟨d, -, rfl⟩ := List.mem_map.mp hc
    split
    · exact ⟨by decide, by decide, by decide⟩
    · rename_i hd
      obtain ⟨hquote, hrest⟩ := not_or.mp hd
      obtain ⟨hslash, hcontrol⟩ := not_or.mp hrest
      refine ⟨?_, ?_, decide_eq_false hcontrol⟩
      · rintro rfl
        exact hquote rfl
      · rintro rfl
        exact hslash rfl
  · exact fun c hc => absurd hc List.not_mem_nil

/-! ## 2. One reply -/

/-- **The loop** writes the first objects of the reply, as many as fit, and counts them; it ends
    early only where the next one does not fit. -/
theorem listLoop_spec (kind : String) {outSz : Nat} (items : List Json) {out : String}
    (first : Bool) (n : Nat) (hroom : out.length < outSz) :
    ∃ k out', listLoop kind outSz items (out, first, n) =
        (out', first && ((listed kind items).take k).isEmpty,
        n + ((listed kind items).take k).length) ∧
      out'.toList = out.toList ++ glue chars first ((listed kind items).take k) ∧
      out'.length < outSz ∧
      (k < (listed kind items).length →
        outSz ≤ (out.toList ++ glue chars first ((listed kind items).take (k + 1))).length) := by
  induction items generalizing out first n with
  | nil =>
      refine ⟨0, out, ?_, (List.append_nil _).symm, hroom,
        fun hlt => absurd hlt (Nat.not_lt_zero 0)⟩
      show (out, first, n) = (out, first && true, n + 0)
      rw [Bool.and_true, Nat.add_zero]
  | cons g items ih =>
      unfold listLoop
      cases hid : g.getObjectItem "vmid" with
      | none =>
          have hskip : listed kind (g :: items) = listed kind items := by
            unfold listed
            rw [List.filterMap_cons, hid]
          rw [hskip]
          exact ih first n hroom
      | some v =>
          cases v with
          | num id =>
              have hcons : listed kind (g :: items) =
                entryValue kind id g :: listed kind items := by
                unfold listed
                rw [List.filterMap_cons, hid]
              have htext := entry_text kind id g first
              dsimp only
              generalize (if first then "" else ",") ++ "\x7b\"id\":" ++ toString id ++
                ",\"name\":\"" ++
                listedName (g.getObjectItem "name") ++ "\",\"type\":\"" ++ kind ++
                "\",\"status\":\"" ++
                textOf (g.getObjectItem "status") ++ "\"\x7d" = item at htext ⊢
              have hglue : ∀ es, glue chars first (entryValue kind id g :: es) =
                  item.toList ++ glue chars false es := fun es => by
                rw [glue, htext]
                rfl
              have hlen : item.length = item.toList.length := String.length_toList.symm
              have hout : out.length = out.toList.length := String.length_toList.symm
              rw [hcons]
              by_cases hfull : item.length ≥ outSz - out.length
              · rw [if_pos hfull]
                refine ⟨0, out, ?_, (List.append_nil _).symm, hroom, fun _ => ?_⟩
                · show (out, first, n) = (out, first && true, n + 0)
                  rw [Bool.and_true, Nat.add_zero]
                · rw [List.take_succ_cons, List.take_zero, hglue, List.length_append,
                    List.length_append]
                  omega
              · rw [if_neg hfull]
                have hmore : (out ++ item).length < outSz := by
                  rw [String.length_append]
                  omega
                obtain ⟨k, out', hloop, hlist, hfits, hcut⟩ := ih false (n + 1) hmore
                refine ⟨k + 1, out', ?_, ?_, hfits, fun hlt => ?_⟩
                · rw [hloop, List.take_succ_cons, List.isEmpty_cons, List.length_cons,
                    Bool.and_false, Bool.false_and]
                  congr 2
                  omega
                · rw [hlist, List.take_succ_cons, hglue, String.toList_append, List.append_assoc]
                · rw [List.length_cons] at hlt
                  have hcut := hcut (by omega)
                  rw [String.toList_append, List.append_assoc, ← hglue] at hcut
                  exact hcut
          | _ =>
              have hskip : listed kind (g :: items) = listed kind items := by
                unfold listed
                rw [List.filterMap_cons, hid]
              rw [hskip]
              exact ih first n hroom

section Listing

variable (parse : String → Option Json)

/-- The request for the guests of one kind. -/
def listRequest (h : PveHost) (kind : String) (errSz : Nat) (err : String) (w : World) :
    TlsResult × World :=
  w.request h (fit 64 ("/nodes/" ++ h.node ++ "/" ++ kind)) none pveGuestRespMax errSz "" err

/-- The array a node returned. -/
def Returned (r : TlsResult) (items : List Json) : Prop :=
  r.status = 200 ∧ ((parse r.resp).bind fun j => j.getObjectItem "data") = some (.arr items)

variable {parse} {h : PveHost} {kind : String} {outSz errSz : Nat} {respOk first : Bool}
    {out err : String}
  {w w' : World}

theorem listKind_ok {res : String × Bool × Nat}
    (hrun : listKind parse h kind outSz errSz respOk out first err w = (.ok res, w')) :
    ∃ items, Returned parse (listRequest h kind errSz err w).1 items ∧
      w' = (listRequest h kind errSz err w).2 ∧
      res = listLoop kind outSz items (out, first, 0) := by
  unfold listKind at hrun
  split at hrun
  · cases hrun
  · dsimp only at hrun
    split at hrun
    · cases hrun
    · rename_i hstatus
      split at hrun
      · rename_i items hitems
        obtain ⟨hres, hw⟩ := Prod.mk.inj hrun
        exact ⟨items, ⟨not_not.mp hstatus, hitems⟩, hw.symm, (Except.ok.inj hres).symm⟩
      · cases hrun

/-! ## 3. Both replies -/

/-- The status of an entry, as it is copied into its object. -/
def listedStatus (g : Json) : List Char := (textOf (g.getObjectItem "status")).toList

theorem entryValue_plain {kind : String} {id : Int} {g : Json} (hkind : chars.PlainText kind.toList)
    (hstatus : chars.PlainText (listedStatus g)) : (entryValue kind id g).Plain chars := by
  have hkeys : ∀ k ∈ ["id", "name", "type", "status"], chars.PlainText k.toList := by decide
  refine plainMembers_iff.mpr fun m hm => ?_
  simp only [List.mem_cons, List.not_mem_nil, or_false] at hm
  rcases hm with rfl | rfl | rfl | rfl
  · exact ⟨hkeys "id" (by simp), chars.isNumber_int id⟩
  · exact ⟨hkeys "name" (by simp), listedName_plain _⟩
  · exact ⟨hkeys "type" (by simp), hkind⟩
  · exact ⟨hkeys "status" (by simp), hstatus⟩

theorem listed_plain {items : List Json} (hkind : chars.PlainText kind.toList)
    (hstatus : ∀ g ∈ items, chars.PlainText (listedStatus g)) :
    ∀ v ∈ listed kind items, v.Plain chars := by
  intro v hv
  obtain ⟨g, hg, hentry⟩ := List.mem_filterMap.mp hv
  split at hentry
  · rw [← Option.some.inj hentry]
    exact entryValue_plain hkind (hstatus g hg)
  · cases hentry

/-- **The listing is a JSON array.** With room for four bytes at least, what the buffer holds on
    success is an array of the objects that were counted: the first of the virtual machines' reply
    and the first of the containers' reply, each of an entry with a number for an id. It fits with
    its NUL; it is well formed if no status has to be escaped; and a reply is cut only where one
    object more would fill the buffer. -/
theorem guest_listing_is_json {jsonSz : Nat} {qemuOk lxcOk : Bool} {json : String} {n : Nat}
    (hsz : 4 ≤ jsonSz)
    (hrun : pveShutdownListGuests parse h jsonSz errSz qemuOk lxcOk err w = (.ok (json, n), w')) :
    ∃ (qemu lxc : List Json) (a b : Nat),
      let first := listRequest h "qemu" errSz err w
      let vms := listed "qemu" qemu
      let cts := listed "lxc" lxc
      let objects := vms.take a ++ cts.take b
      Returned parse first.1 qemu ∧ Returned parse (listRequest h "lxc" errSz err first.2).1 lxc ∧
      n = objects.length ∧ json.length + 1 ≤ jsonSz ∧ json.toList = (Value.arr objects).raw chars ∧
      ((∀ g ∈ qemu ++ lxc, chars.PlainText (listedStatus g)) →
        Spells chars (.value (.arr objects)) json.toList) ∧
      (a < vms.length → jsonSz ≤ ((Value.arr (vms.take (a + 1))).raw chars).length + 1) ∧
      (b < cts.length → jsonSz ≤ ((Value.arr (vms.take a ++ cts.take (b + 1))).raw chars).length +
      1) := by
  unfold pveShutdownListGuests at hrun
  split at hrun
  · cases hrun
  split at hrun
  · cases hrun
  rename_i out₁ first₁ n₁ w₁ hqemu
  split at hrun
  · cases hrun
  rename_i out₂ first₂ n₂ w₂ hlxc
  obtain ⟨hres, -⟩ := Prod.mk.inj hrun
  obtain ⟨hjson, hn⟩ := Prod.mk.inj (Except.ok.inj hres)
  obtain ⟨qemu, hreturned, hw₁, hloop₁⟩ := listKind_ok hqemu
  obtain ⟨lxc, hreturned', -, hloop₂⟩ := listKind_ok hlxc
  have hstart : ("[" : String).length < jsonSz - 2 := by
    show 1 < jsonSz - 2
    omega
  obtain ⟨a, _, hrun₁, hlist₁, hfits₁, hcut₁⟩ := listLoop_spec "qemu" qemu true 0 hstart
  obtain ⟨hout₁, hrest₁⟩ := Prod.mk.inj (hloop₁.trans hrun₁)
  obtain ⟨hfirst₁, hn₁⟩ := Prod.mk.inj hrest₁
  subst hout₁
  obtain ⟨b, _, hrun₂, hlist₂, hfits₂, hcut₂⟩ := listLoop_spec "lxc" lxc first₁ 0 hfits₁
  obtain ⟨hout₂, hrest₂⟩ := Prod.mk.inj (hloop₂.trans hrun₂)
  obtain ⟨-, hn₂⟩ := Prod.mk.inj hrest₂
  subst hout₂
  -- the second reply goes on where the first one stopped
  have hglue : ∀ k, out₁.toList ++ glue chars first₁ ((listed "lxc" lxc).take k) =
      '[' :: rawItems chars ((listed "qemu" qemu).take a ++ (listed "lxc" lxc).take k) := by
    intro k
    rw [hlist₁, hfirst₁, rawItems_eq_glue, glue_append, List.append_assoc]
    rfl
  have hraw : ∀ es, (Value.arr es).raw chars = ('[' :: rawItems chars es) ++ [']'] := fun _ => rfl
  have htext : json.toList =
      (Value.arr ((listed "qemu" qemu).take a ++ (listed "lxc" lxc).take b)).raw chars := by
    rw [← hjson, String.toList_append, hlist₂, hglue, hraw]
    rfl
  refine ⟨qemu, lxc, a, b, hreturned, hw₁ ▸ hreturned', ?_, ?_, htext, fun hstatus => ?_,
    fun hlt => ?_, fun hlt => ?_⟩
  · rw [← hn, hn₁, hn₂, List.length_append]
    omega
  · rw [← hjson, String.length_append]
    show out₂.length + 1 + 1 ≤ jsonSz
    omega
  · obtain ⟨hvms, hcts⟩ := List.forall_mem_append.mp hstatus
    rw [htext, spells_raw_iff]
    refine plainItems_iff.mpr fun v hv => ?_
    rcases List.mem_append.mp hv with hin | hin
    · exact listed_plain (by decide) hvms v (List.mem_of_mem_take hin)
    · exact listed_plain (by decide) hcts v (List.mem_of_mem_take hin)
  · have hcut := hcut₁ hlt
    have hopen : ("[" : String).toList = ['['] := rfl
    rw [hraw, rawItems_eq_glue, List.length_append, List.length_cons]
    rw [hopen, List.length_append] at hcut
    simp only [List.length_cons, List.length_nil] at hcut ⊢
    omega
  · have hcut := hcut₂ hlt
    rw [hglue] at hcut
    rw [hraw, List.length_append, List.length_singleton]
    omega

/-- A node that returns the same two guests for either kind: one without a name, and one without an
    id. -/
def twoGuests : String → Option Json := fun _ =>
  some
    (.obj
      [("data",
        .arr [.obj [("vmid", .num 101), ("status", .str "up")], .obj [("name", .str "ct")]])])

def listHost : PveHost :=
  { enabled := true, url := "https://pve", node := "pve", tokenId := "a@b!c", secret := "s"
    shutdownNode := true, fingerprint := fpHex [0xAB], onBatteryMin := 30, chargePct := 10 }

def listWorld : World :=
  ⟨List.replicate 2 (.certificate [0xAB] (.reply (some 200) "")), [], [], []⟩

/-- With 64 bytes there is room for the first of them. -/
theorem listWorld_run : (pveShutdownListGuests twoGuests listHost 64 80 true true "" listWorld).1 =
    .ok ("[\x7b\"id\":101,\"name\":\"\",\"type\":\"qemu\",\"status\":\"up\"\x7d]", 1) := by
  decide +kernel

theorem guest_listing_is_json_twoGuests :
    let json := "[\x7b\"id\":101,\"name\":\"\",\"type\":\"qemu\",\"status\":\"up\"\x7d]"
    ∃ objects : List (Value Char), 1 = objects.length ∧ json.length + 1 ≤ 64 ∧
      json.toList = (Value.arr objects).raw chars := by
  intro json
  have hpair : ∀ {x : Except String (String × Nat) × World} {y}, x.1 = y → x = (y, x.2) := fun h =>
    Prod.ext h rfl
  obtain ⟨_, _, _, _, -, -, hcount, hfits, htext, -⟩ :=
    guest_listing_is_json (by decide) (hpair listWorld_run)
  exact ⟨_, hcount, hfits, htext⟩

end Listing

end NutBluetti.Pve
