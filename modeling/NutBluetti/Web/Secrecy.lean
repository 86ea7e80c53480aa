/-
  File:      NutBluetti/Web/Secrecy.lean
  Subject:   WHAT STAYS IN: two units that differ in the passwords and tokens they store, asked the
             same.

  The admin page shows of a stored password only whether there is one. But a blank field keeps what
  is stored, the checks look at it, a test uses it, and a form whose save failed is live all the
  same: so what a reply depends on is a matter of whole runs. What comes from outside (the network,
  the flash, the other modules) is the same for both.

  * `Alike` -- two configurations that differ in their secrets, and neither in whether they are set
    nor in whether the password of an access point is too short;
  * `alike_runSection` -- a form is refused on both or accepted on both, and what it leaves is
    alike;
  * `alike_configArgs`, `alike_statusArgs` -- the two pages that show the configuration;
  * `SameAnswer` -- the same reply, and two servers that are alike again;
  * `discreet` -- every handler answers alike servers alike;
  * **`secrets_stay_in`** -- so does the unit in any number of requests and restarts.
-/
import NutBluetti.Web.ConfigReply
import NutBluetti.Web.ControlsPage
import NutBluetti.Web.StaysSetUp

namespace NutBluetti.Web

open CLayout
open NutBluetti.Config
open NutBluetti.Pve (PveGuest HostIx hostSlots)

variable {κ : Type}

/-! ## 1. Configurations that are alike -/

/-- The members that are texts nobody is shown. -/
def secretTexts : List AppField := [.wifiPass, .apPass, .fbApPass, .tgToken]

/-- And with the salt and the hash of the NUT password, and the flag that nothing reads. -/
def hiddenFields : List AppField := secretTexts ++ [.nutSalt, .nutHash, .bleProbe]

/-- A byte of another member; those of a host's token are hidden as well. -/
def Shown (k : Nat) : Prop :=
  (∃ f, f ∉ hiddenFields ∧ f.span.Has k) ∧ ∀ i, ¬ (hostSpan i .secret).Has k

/-- What is seen of a secret: whether it is set, and of an access point's password whether it is too
    short. -/
def glimpse (f : AppField) (v : List UInt8) : Bool × Bool :=
  (decide (v = []), decide (f = .apPass ∨ f = .fbApPass) && shortPass v)

/-- **Alike but for their secrets.** -/
structure Alike (a b : Image) : Prop where
  rest : ∀ k, Shown k → a k = b k
  texts : ∀ f ∈ secretTexts, glimpse f (text a f) = glimpse f (text b f)
  hosts : ∀ i, hostText a i .secret = [] ↔ hostText b i .secret = []

theorem Alike.refl (a : Image) : Alike a a := ⟨fun _ _ => rfl, fun _ _ => rfl, fun _ => Iff.rfl⟩

/-! Where the bytes are. -/

theorem hostSpan_pve {i : HostIx} {f : PveHostField} {k : Nat} (h : (hostSpan i f).Has k) :
    AppField.pve.span.Has k := pveField_within .hosts (hostHas_hosts (hostSpan_within h))

theorem shown_app {f : AppField} (hf : f ∉ hiddenFields ∧ f ≠ .pve) {k : Nat} (hk : f.span.Has k) :
    Shown k :=
  ⟨⟨f, hf.1, hk⟩, fun _ hsecret => (AppField.span_apart hf.2).not_has hk (hostSpan_pve hsecret)⟩

theorem shown_host {i : HostIx} {f : PveHostField} (hf : f ≠ .secret) {k : Nat}
    (hk : (hostSpan i f).Has k) : Shown k := by
  refine ⟨⟨.pve, by decide, hostSpan_pve hk⟩, fun j hsecret => ?_⟩
  by_cases hij : i = j
  · subst hij
    exact (hostSpan_apart i hf).not_has hk hsecret
  · exact hostHas_apart hij (hostSpan_within hk) (hostSpan_within hsecret)

theorem shown_pve {f : PveField} (hf : f ≠ .hosts) {k : Nat} (hk : (ConfigField.pve f).span.Has k) :
    Shown k :=
  ⟨⟨.pve, by decide, pveField_within f hk⟩, fun _ hsecret =>
    (pveField_apart hf).not_has hk (hostHas_hosts (hostSpan_within hsecret))⟩

section Reads

variable {a b : Image}

theorem Alike.read {ν : Type} (h : Alike a b) {s : Span ν} (hs : ∀ k, s.Has k → Shown k) :
    a.read s = b.read s :=
  read_eq_iff.mpr fun _ hk => h.rest _ (hs _ ⟨Nat.le_add_right _ _, Nat.add_lt_add_left hk _⟩)

theorem Alike.app (h : Alike a b) {f : AppField} (hf : f ∉ hiddenFields ∧ f ≠ .pve) :
    a.read f.span = b.read f.span := h.read fun _ => shown_app hf

theorem Alike.text (h : Alike a b) {f : AppField} (hf : f ∉ hiddenFields ∧ f ≠ .pve) :
    text a f = text b f := congrArg cstr (h.app hf)

theorem Alike.flag (h : Alike a b) {f : AppField} (hf : f ∉ hiddenFields ∧ f ≠ .pve)
    (hpos : 0 < f.span.size) : flag a f = flag b f := by
  unfold Config.flag
  rw [h.rest _ (shown_app hf ⟨Nat.le_refl _, Nat.lt_add_of_pos_right hpos⟩)]

theorem Alike.hostRead (h : Alike a b) (i : HostIx) {f : PveHostField} (hf : f ≠ .secret) :
    a.read (hostSpan i f) = b.read (hostSpan i f) := h.read fun _ => shown_host hf

theorem Alike.hostText (h : Alike a b) (i : HostIx) {f : PveHostField} (hf : f ≠ .secret) :
    hostText a i f = hostText b i f := congrArg cstr (h.hostRead i hf)

theorem Alike.hostFlag (h : Alike a b) (i : HostIx) {f : PveHostField} (hf : f ≠ .secret)
    (hpos : 0 < f.span.size) : hostFlag a i f = hostFlag b i f := by
  unfold Web.hostFlag
  rw [h.rest _ (shown_host hf ⟨Nat.le_refl _, Nat.lt_add_of_pos_right hpos⟩)]

theorem Alike.pveFlag (h : Alike a b) {f : PveField} (hf : f ≠ .hosts) (hpos : 0 < f.span.size) :
    pveFlag a f = pveFlag b f := by
  have hbyte : a (AppField.pve.span.start + f.span.start) =
    b (AppField.pve.span.start + f.span.start) :=
    h.rest _ (shown_pve hf ⟨Nat.le_refl _, Nat.lt_add_of_pos_right hpos⟩)
  unfold Web.pveFlag
  rw [hbyte]

theorem Alike.empty (h : Alike a b) {f : AppField} (hf : f ∈ secretTexts) :
    Web.text a f = [] ↔ Web.text b f = [] :=
  decide_eq_decide.mp (congrArg Prod.fst (h.texts f hf))

theorem Alike.short (h : Alike a b) {f : AppField} (hf : f = .apPass ∨ f = .fbApPass) :
    shortPass (Web.text a f) = shortPass (Web.text b f) := by
  have hmem : f ∈ secretTexts := by
    obtain rfl | rfl := hf <;> decide
  have hlook := congrArg Prod.snd (h.texts f hmem)
  simp only [glimpse, hf, decide_true, Bool.true_and] at hlook
  exact hlook

end Reads

/-! ## 2. Writes -/

section Writes

variable {a b : Image}

/-- The first NUL ends a text. -/
theorem cstr_append_mem {v : List UInt8} (h : (0 : UInt8) ∈ v) (rest : List UInt8) :
    cstr (v ++ rest) = cstr v := by
  induction v with
  | nil => cases h
  | cons c v ih =>
      unfold cstr at ih ⊢
      rw [List.cons_append, List.takeWhile_cons, List.takeWhile_cons]
      split
      · rename_i hc
        obtain rfl | hmem := List.mem_cons.mp h
        · exact absurd rfl (of_decide_eq_true hc)
        · rw [ih hmem]
      · rfl

theorem cstr_noNul (buf : List UInt8) : (0 : UInt8) ∉ cstr buf :=
  fun hin => absurd (List.mem_takeWhile_imp hin) (by decide)

/-- The same bytes written to both: they are alike if every secret is as before, or the same in
    both. -/
theorem Alike.poke (h : Alike a b) (start : Nat) (v : List UInt8)
    (htexts : ∀ f ∈ secretTexts, Web.text (a.poke start v) f = Web.text (b.poke start v) f ∨
      ∀ img : Image, Web.text (img.poke start v) f = Web.text img f)
    (hhosts : ∀ i, Web.hostText (a.poke start v) i .secret =
    Web.hostText (b.poke start v) i .secret ∨
      ∀ img : Image, Web.hostText (img.poke start v) i .secret = Web.hostText img i .secret) :
    Alike (a.poke start v) (b.poke start v) where
  rest k hk := by
    unfold Image.poke
    split
    · rfl
    · exact h.rest k hk
  texts f hf := by
    obtain heq | hsame := htexts f hf
    · rw [heq]
    · rw [hsame, hsame]
      exact h.texts f hf
  hosts i := by
    obtain heq | hsame := hhosts i
    · rw [heq]
    · rw [hsame, hsame]
      exact h.hosts i

theorem text_poke_other {f : AppField} {start : Nat} {v : List UInt8}
    (hoff : ∀ k, f.span.Has k → ¬ (start ≤ k ∧ k < start + v.length)) (img : Image) :
    Web.text (img.poke start v) f = Web.text img f :=
  congrArg cstr ((ChangedWithin.poke img fun _ hlo hhi => ⟨hlo, hhi⟩).read hoff)

theorem hostText_poke_other {i : HostIx} {f : PveHostField} {start : Nat} {v : List UInt8}
    (hoff : ∀ k, (hostSpan i f).Has k → ¬ (start ≤ k ∧ k < start + v.length)) (img : Image) :
    Web.hostText (img.poke start v) i f = Web.hostText img i f :=
  congrArg cstr ((ChangedWithin.poke img fun _ hlo hhi => ⟨hlo, hhi⟩).read hoff)

/-- A member is set: a text with its end, where it is a secret. -/
theorem Alike.set (h : Alike a b) {f : AppField} (hpve : f ≠ .pve) {v : List UInt8}
    (hlen : v.length ≤ f.span.size) (hend : f ∈ secretTexts → (0 : UInt8) ∈ v) :
    Alike (set a f v) (set b f v) := by
  have hin : ∀ {k}, f.span.start ≤ k ∧ k < f.span.start + v.length → f.span.Has k :=
    fun hk => ⟨hk.1, by omega⟩
  refine h.poke _ _ (fun g hg => ?_) (fun i => .inr (hostText_poke_other fun k hk hno => ?_))
  · by_cases hgf : g = f
    · subst hgf
      left
      have htext : ∀ img : Image, Web.text (img.poke g.span.start v) g = cstr v := fun img => by
        obtain ⟨rest, hread⟩ := read_poke_start img hlen
        unfold Web.text
        rw [hread]
        exact cstr_append_mem (hend hg) rest
      rw [htext, htext]
    · exact .inr (text_poke_other fun k hk hno => (AppField.span_apart hgf).not_has hk (hin hno))
  · exact (AppField.span_apart hpve).not_has (hin hno) (hostSpan_pve hk)

/-- A branch that both take. -/
theorem both_ite {α : Type} {R : α → α → Prop} {c c' : Prop} [Decidable c] [Decidable c']
    (hc : c ↔ c')
    {x y x' y' : α} (h : R x x') (h' : R y y') :
    R (if c then x else y) (if c' then x' else y') := by
  by_cases hx : c
  · rw [if_pos hx, if_pos (hc.mp hx)]
    exact h
  · rw [if_neg hx, if_neg fun hx' => hx (hc.mpr hx')]
    exact h'

/-! The fields of a form. -/

variable {body : List UInt8} {key : String} {f : AppField}

theorem Alike.strlcpy (h : Alike a b) (hf : f ≠ .pve ∧ 0 < f.span.size) (s : List UInt8) :
    Alike (strlcpy a f s) (strlcpy b f s) := by
  refine h.set hf.1 ?_ fun _ => by simp
  rw [List.length_append, List.length_take, List.length_singleton]
  omega

theorem Alike.keepText (h : Alike a b) (hf : f ≠ .pve ∧ 0 < f.span.size) :
    Alike (keepText body key f a) (keepText body key f b) :=
  both_ite Iff.rfl h (h.strlcpy hf _)

theorem Alike.intoText (h : Alike a b) (hf : f ≠ .pve ∧ 0 < f.span.size) :
    Alike (intoText body key f a) (intoText body key f b) := by
  refine h.set hf.1 ?_ fun _ => by simp
  have hlen := @length_formGet_le body key f.span.size
  rw [List.length_append, List.length_singleton]
  omega

theorem Alike.clearText (h : Alike a b) (hf : f ≠ .pve ∧ 0 < f.span.size) :
    Alike (clearText body key f a) (clearText body key f b) :=
  both_ite Iff.rfl (h.set hf.1 hf.2 fun _ => List.mem_singleton.mpr rfl) h

/-- A member that is no text. -/
theorem Alike.put (h : Alike a b) {v : List UInt8} (hf : f ≠ .pve ∧ f ∉ secretTexts)
    (hlen : v.length ≤ f.span.size) : Alike (Config.set a f v) (Config.set b f v) :=
  h.set hf.1 hlen fun hsecret => absurd hsecret hf.2

theorem Alike.intoFlag (h : Alike a b) (hf : f ≠ .pve ∧ f ∉ secretTexts) (hpos : 0 < f.span.size) :
    Alike (intoFlag body key f a) (intoFlag body key f b) := h.put hf hpos

theorem Alike.intoHalf (h : Alike a b) {lo : Int} (hf : f ≠ .pve ∧ f ∉ secretTexts)
    (hsize : 2 ≤ f.span.size) : Alike (intoHalf body key lo f a) (intoHalf body key lo f b) := by
  unfold Web.intoHalf
  cases formGet body key 128 with
  | none => exact h
  | some v => exact both_ite Iff.rfl (h.put hf hsize) h

theorem Alike.intoByte (h : Alike a b) {lo : Int} (hf : f ≠ .pve ∧ f ∉ secretTexts)
    (hpos : 0 < f.span.size) : Alike (intoByte body key lo f a) (intoByte body key lo f b) := by
  unfold Web.intoByte
  cases formGet body key 128 with
  | none => exact h
  | some v => exact both_ite Iff.rfl (h.put hf hpos) h

theorem Alike.setSecret (h : Alike a b) {sha256 : List UInt8 → List UInt8} {salt : List UInt8}
    {fs : SecretFields} (hfs : fs.Proper) (hsalt : salt.length = 16)
    (hsha : ∀ m, (sha256 m).length = 32)
    (hf : ∀ g ∈ [fs.salt, fs.hash, fs.isSet], g ≠ .pve ∧ g ∉ secretTexts) (password : List UInt8) :
    Alike (setSecret sha256 salt fs a password) (setSecret sha256 salt fs b password) := by
  have hone : ∀ c : UInt8, [c].length ≤ fs.isSet.span.size := fun _ => Nat.le_of_eq hfs.isSet.symm
  have hput : ∀ {v w : List UInt8} (c : UInt8), v.length = 16 → w.length = 32 →
      Alike (Config.set (Config.set (Config.set a fs.salt v) fs.hash w) fs.isSet [c])
        (Config.set (Config.set (Config.set b fs.salt v) fs.hash w) fs.isSet [c]) := by
    intro v w c hv hw
    have hsalted := h.put (hf fs.salt (by simp)) (Nat.le_of_eq (hv.trans hfs.salt.symm))
    have hhashed := hsalted.put (hf fs.hash (by simp)) (Nat.le_of_eq (hw.trans hfs.hash.symm))
    exact hhashed.put (hf fs.isSet (by simp)) (hone c)
  exact both_ite Iff.rfl (hput 0 List.length_replicate List.length_replicate)
    (hput 1 hsalt (hsha _))

theorem Alike.defaultSsid (h : Alike a b) (hf : f ∉ hiddenFields ∧ f ≠ .pve)
    (hpos : 0 < f.span.size)
    (o : Outside) : Alike (defaultSsid o f a) (defaultSsid o f b) := by
  refine both_ite (by rw [h.text hf]) (h.set hf.2 ?_ fun _ => by simp) h
  rw [List.length_append, List.length_singleton, fitBytes, List.length_take]
  omega

end Writes

/-! ## 3. The sections -/

/-- Two courses of a check: the same error, or results that are related. -/
inductive SameCourse {ε α : Type} (R : α → α → Prop) : Except ε α → Except ε α → Prop where
  | error (e : ε) : SameCourse R (.error e) (.error e)
  | ok {x y : α} (h : R x y) : SameCourse R (.ok x) (.ok y)

theorem SameCourse.map {ε α β : Type} {R : α → α → Prop} {S : β → β → Prop} {x y : Except ε α}
    (h : SameCourse R x y) {g : α → β} (hg : ∀ x y, R x y → S (g x) (g y)) :
    SameCourse S (x.map g) (y.map g) := by
  cases h with
  | error e => exact .error e
  | ok hxy => exact .ok (hg _ _ hxy)

section Sections

variable {o : Outside} {a b : Image} {body : List UInt8}

theorem alike_sectionBluetti (h : Alike a b) :
    SameCourse Alike (sectionBluetti body a) (sectionBluetti body b) := by
  unfold sectionBluetti
  cases formGet body "ble_addr" 128 with
  | none => exact both_ite (by rw [h.text (by decide)]) (.error _) (.ok h)
  | some v =>
      have hset : Alike (strlcpy a .bleAddr (cstr v)) (strlcpy b .bleAddr (cstr v)) :=
        h.strlcpy (by decide) _
      exact both_ite (by rw [hset.text (by decide)]) (.error _) (.ok hset)

theorem alike_sectionNut (hsalt : o.salt.length = 16) (hsha : ∀ m, (o.sha256 m).length = 32)
    (h : Alike a b) : Alike (sectionNut o body a) (sectionNut o body b) := by
  have hfs : ∀ g ∈ [nutSecret.salt, nutSecret.hash, nutSecret.isSet], g ≠ .pve ∧
    g ∉ secretTexts := by
    decide
  unfold sectionNut
  extract_lets a₁ a₂ a₃ a₄ a₅ a₆ a₇ pass a₈ b₁ b₂ b₃ b₄ b₅ b₆ b₇ b₈
  have hrows : Alike a₇ b₇ :=
    Alike.keepText (Alike.intoHalf (Alike.intoHalf (Alike.intoHalf (Alike.intoByte (Alike.intoHalf
      (h.keepText (by decide)) (by decide) (by decide)) (by decide) (by decide)) (by decide)
        (by decide))
        (by decide) (by decide)) (by decide) (by decide)) (by decide)
  have hpass : Alike a₈ b₈ :=
    both_ite Iff.rfl hrows (hrows.setSecret nutSecret_proper hsalt hsha hfs pass)
  exact both_ite Iff.rfl (hpass.setSecret nutSecret_proper hsalt hsha hfs []) hpass

theorem alike_sectionWifiAp (h : Alike a b) :
    SameCourse Alike (sectionWifiAp o body a) (sectionWifiAp o body b) := by
  have hmode : Alike (set a .wifiMode [1]) (set b .wifiMode [1]) := h.put (by decide) (by decide)
  unfold sectionWifiAp
  extract_lets a₁ a₂ a₃ a₄ b₁ b₂ b₃ b₄
  have hopen : Alike a₄ b₄ :=
    ((hmode.intoText (by decide)).keepText (by decide)).clearText (by decide)
  exact both_ite (by rw [hopen.short (.inl rfl)]) (.error _)
    (.ok (hopen.defaultSsid (by decide) (by decide) o))

theorem alike_fallbackAp (h : Alike a b) : Alike (fallbackAp body a) (fallbackAp body b) := by
  unfold fallbackAp
  extract_lets a₁ a₂ a₃ b₁ b₂ b₃
  have hflag : Alike a₁ b₁ := h.intoFlag (by decide) (by decide)
  exact both_ite (by rw [hflag.flag (by decide) (by decide)])
    (((hflag.intoText (by decide)).keepText (by decide)).clearText (by decide)) hflag

theorem alike_checkStatic (h : Alike a b) : SameCourse Alike (checkStatic a) (checkStatic b) := by
  unfold checkStatic
  extract_lets a₁ b₁
  have hmask : Alike a₁ b₁ :=
    both_ite (by rw [h.text (by decide)]) (h.strlcpy (by decide) _) h
  refine both_ite (by rw [h.text (by decide)]) (.error _) (both_ite (by rw [h.text (by decide)])
    (.error _) ?_)
  refine both_ite (by rw [hmask.text (by decide)]) (.error _)
    (both_ite (by rw [hmask.text (by decide)])
    (.error _) (.ok hmask))

theorem alike_sectionWifiStation (h : Alike a b) :
    SameCourse Alike (sectionWifiStation o body a) (sectionWifiStation o body b) := by
  unfold sectionWifiStation
  extract_lets a₁ a₂ a₃ a₄ a₅ a₆ a₇ a₈ b₁ b₂ b₃ b₄ b₅ b₆ b₇ b₈
  have hmode : Alike a₁ b₁ := h.put (by decide) (by decide)
  have hflag : Alike a₅ b₅ :=
    (((hmode.intoText (by decide)).keepText (by decide)).clearText (by decide)).intoFlag (by decide)
      (by decide)
  have hstatic : Alike a₆ b₆ :=
    both_ite (by rw [hflag.flag (by decide) (by decide)]) ((((hflag.intoText (by decide)).intoText
      (by decide)).intoText (by decide)).intoText (by decide)) hflag
  have hfallback : Alike a₇ b₇ := alike_fallbackAp hstatic
  have hon : flag a₇ .fbApEnabled = flag b₇ .fbApEnabled := hfallback.flag (by decide) (by decide)
  have hname : Alike a₈ b₈ :=
    both_ite (by rw [hon]) (hfallback.defaultSsid (by decide) (by decide) o) hfallback
  refine both_ite (by rw [hon, hfallback.short (.inr rfl)]) (.error _) ?_
  refine both_ite (by rw [hname.text (by decide)]) (.error _) ?_
  exact both_ite (by rw [hname.flag (by decide) (by decide)]) (alike_checkStatic hname) (.ok hname)

theorem alike_sectionWifi (h : Alike a b) :
    SameCourse Alike (sectionWifi o body a) (sectionWifi o body b) := by
  have hname : Alike (keepText body "hostname" .hostname a)
    (keepText body "hostname" .hostname b) :=
    h.keepText (by decide)
  exact both_ite Iff.rfl (alike_sectionWifiAp hname) (alike_sectionWifiStation hname)

theorem alike_sectionNotify (h : Alike a b) :
    SameCourse Alike (sectionNotify body a) (sectionNotify body b) := by
  unfold sectionNotify
  extract_lets a₁ a₂ a₃ a₄ a₅ a₆ a₇ a₈ b₁ b₂ b₃ b₄ b₅ b₆ b₇ b₈
  have hchat : Alike a₂ b₂ := (h.keepText (by decide)).intoText (by decide)
  have hflags : Alike a₈ b₈ :=
    (((((hchat.intoFlag (by decide) (by decide)).intoFlag (by decide) (by decide)).intoFlag
      (by decide)
      (by decide)).intoFlag (by decide) (by decide)).intoFlag (by decide) (by decide)).intoFlag
        (by decide)
        (by decide)
  refine both_ite ?_ (.error _) (.ok hflags)
  rw [hflags.flag (by decide) (by decide), hflags.empty (by decide), hflags.text (by decide)]

end Sections

/-! ## 4. The Proxmox hosts -/

section Hosts

variable {o : Outside} {a b sa sb : Image} {body : List UInt8} {i : HostIx}

/-- The other secrets lie outside the Proxmox block. -/
theorem secret_off_pve {f : AppField} (hf : f ∈ secretTexts) {k : Nat} (hk : f.span.Has k) :
    ¬ AppField.pve.span.Has k := by
  have hne : f ≠ .pve := fun heq => absurd (heq ▸ hf) (by decide)
  exact (AppField.span_apart hne).not_has hk

theorem not_shown {f : AppField} (hf : f ∈ secretTexts) {k : Nat} (hk : f.span.Has k) :
    ¬ Shown k := by
  intro hshown
  obtain ⟨⟨g, hg, hgk⟩, -⟩ := hshown
  have hne : g ≠ f := fun heq => hg (List.mem_append_left _ (heq ▸ hf))
  exact (AppField.span_apart hne).not_has hgk hk

/-- What is changed is shown, and the same in both. -/
theorem Alike.change (h : Alike a b) {a' b' : Image} (ha : ChangedWithin Shown a a')
    (hb : ChangedWithin Shown b b') (heq : ∀ k, Shown k → a' k = b' k) : Alike a' b' := by
  have htext : ∀ {x y : Image}, ChangedWithin Shown x y → ∀ f ∈ secretTexts,
      Web.text y f = Web.text x f := fun hxy _ hf => congrArg cstr (hxy.read fun _ => not_shown hf)
  have hhost : ∀ {x y : Image}, ChangedWithin Shown x y → ∀ i,
      Web.hostText y i .secret = Web.hostText x i .secret :=
    fun hxy i => congrArg cstr (hxy.read fun _ hk hno => hno.2 i hk)
  refine ⟨heq, fun f hf => ?_, fun i => ?_⟩
  · rw [htext ha f hf, htext hb f hf, h.texts f hf]
  · rw [hhost ha i, hhost hb i, h.hosts i]

theorem Alike.poke_rest (h : Alike a b) (start : Nat) (v : List UInt8) :
    ∀ k, Shown k → a.poke start v k = b.poke start v k := fun k hk => by
  unfold Image.poke
  split
  · rfl
  · exact h.rest k hk

/-- A member of the Proxmox block beside the hosts. -/
theorem Alike.pvePoke (h : Alike a b) {f : PveField} (hf : f ≠ .hosts) {v : List UInt8}
    (hlen : v.length ≤ f.span.size) :
    Alike (a.poke (AppField.pve.span.start + f.span.start) v)
      (b.poke (AppField.pve.span.start + f.span.start) v) := by
  have hin : ∀ img : Image,
      ChangedWithin Shown img (img.poke (AppField.pve.span.start + f.span.start) v) := fun img =>
    .poke img fun k hlo hhi =>
      shown_pve hf ⟨hlo, Nat.lt_of_lt_of_le hhi (Nat.add_le_add_left hlen _)⟩
  exact h.change (hin a) (hin b) (h.poke_rest _ v)

/-- A member of a host, but for its token. -/
theorem Alike.setHost (h : Alike a b) {f : PveHostField} (hf : f ≠ .secret) {v : List UInt8}
    (hlen : v.length ≤ f.span.size) : Alike (setHost a i f v) (setHost b i f v) :=
  h.change (within_setHost (.refl _ a) hlen fun _ => shown_host hf)
    (within_setHost (.refl _ b) hlen fun _ => shown_host hf) (h.poke_rest _ v)

theorem Alike.hostByte (h : Alike a b) {f : PveHostField} (hf : f ≠ .secret) (c : UInt8) :
    Alike (Web.setHost a i f [c]) (Web.setHost b i f [c]) := h.setHost hf (hostField_bounds f).1

/-- Two tokens, both set or both not. -/
theorem Alike.hostSecret (h : Alike a b) {s t : List UInt8} (hs : (0 : UInt8) ∉ s)
    (ht : (0 : UInt8) ∉ t)
    (hst : s = [] ↔ t = []) :
    Alike (hostStrlcpy a i .secret s) (hostStrlcpy b i .secret t) := by
  have hwithin : ∀ (img : Image) (s : List UInt8),
      ChangedWithin (hostSpan i .secret).Has img (hostStrlcpy img i .secret s) :=
    fun img s => within_hostStrlcpy (.refl _ img) s fun _ hk => hk
  have hoff : ∀ (img : Image) (s : List UInt8), ∀ k, ¬ (hostSpan i .secret).Has k →
      hostStrlcpy img i .secret s k = img k := fun img s k hk => hwithin img s k hk
  have htext : ∀ (img : Image) {s : List UInt8}, (0 : UInt8) ∉ s →
      (Web.hostText (hostStrlcpy img i .secret s) i .secret = [] ↔ s = []) := by
    intro img s hs
    have hroom : (fitBytes PveHostField.secret.span.size s ++ [0]).length ≤
      (hostSpan i .secret).size := by
      rw [List.length_append, List.length_singleton, fitBytes, List.length_take]
      have hpos := (hostField_bounds .secret).1
      have hsize : (hostSpan i .secret).size = PveHostField.secret.span.size := rfl
      omega
    obtain ⟨rest, hread⟩ := read_poke_start img hroom
    have hfit : (0 : UInt8) ∉ fitBytes PveHostField.secret.span.size s :=
      fun hin => hs (List.mem_of_mem_take hin)
    unfold Web.hostText hostStrlcpy Web.setHost
    rw [hread, List.append_assoc]
    refine Eq.congr_left (cstr_append_nul hfit) |>.trans ?_
    unfold fitBytes
    rw [List.take_eq_nil_iff]
    exact or_iff_right (by decide)
  refine ⟨fun k hk => ?_, fun f hf => ?_, fun j => ?_⟩
  · rw [hoff a s k (hk.2 i), hoff b t k (hk.2 i), h.rest k hk]
  · have happ : ∀ (img : Image) (s : List UInt8), Web.text (hostStrlcpy img i .secret s) f =
      Web.text img f :=
      fun img s => congrArg cstr ((hwithin img s).read fun k hk hsecret =>
        secret_off_pve hf hk (hostSpan_pve hsecret))
    rw [happ, happ, h.texts f hf]
  · by_cases hij : j = i
    · subst hij
      rw [htext a hs, htext b ht, hst]
    · have hother : ∀ (img : Image) (s : List UInt8),
          Web.hostText (hostStrlcpy img i .secret s) j .secret = Web.hostText img j .secret :=
        fun img s => congrArg cstr ((hwithin img s).read fun k hk hsecret =>
          hostHas_apart hij (hostSpan_within hk) (hostSpan_within hsecret))
      rw [hother, hother, h.hosts j]

theorem Alike.intoHostText (h : Alike a b) {name : String} {f : PveHostField} (hf : f ≠ .secret) :
    Alike (intoHostText body i name f a) (intoHostText body i name f b) := by
  refine h.setHost hf ?_
  have hlen := @length_formGet_le body (hostKey i name) f.span.size
  have hpos := (hostField_bounds f).1
  rw [List.length_append, List.length_singleton]
  omega

theorem Alike.intoHostLimit (h : Alike a b) {name : String} {hi : Int} {f : PveHostField}
    {enc : Int → List UInt8} (hf : f ≠ .secret) (hlen : ∀ n, (enc n).length ≤ f.span.size) :
    Alike (intoHostLimit body i name hi f enc a) (intoHostLimit body i name hi f enc b) := by
  unfold Web.intoHostLimit
  cases formGet body (hostKey i name) 128 with
  | none => exact h
  | some v => exact both_ite Iff.rfl (h.setHost hf (hlen _)) h

theorem alike_hostFields (h : Alike a b) : Alike (hostFields body i a) (hostFields body i b) := by
  unfold hostFields
  extract_lets a₁ a₂ a₃ a₄ a₅ a₆ b₁ b₂ b₃ b₄ b₅ b₆
  have hon : Alike a₁ b₁ := h.hostByte (by decide) _
  have htoken : Alike a₄ b₄ :=
    ((hon.intoHostText (by decide)).intoHostText (by decide)).intoHostText (by decide)
  have hoff : Alike a₅ b₅ := htoken.hostByte (by decide) _
  have hmin : Alike a₆ b₆ := hoff.intoHostLimit (by decide) fun _ => Nat.le_refl 2
  exact hmin.intoHostLimit (by decide) fun _ => Nat.le_refl 1

/-- The pin: what is posted, none, or the stored one. -/
theorem alike_hostFingerprint (hs : Alike sa sb) (h : Alike a b) :
    Alike (hostFingerprint body i sa a).1 (hostFingerprint body i sb b).1 ∧
      (hostFingerprint body i sa a).2 = (hostFingerprint body i sb b).2 := by
  have hin : ∀ stored img, ChangedWithin Shown img (hostFingerprint body i stored img).1 :=
    fun stored img => within_hostFingerprint (.refl _ img) stored fun _ => shown_host (by decide)
  have hboth :
      (∀ k, Shown k → (hostFingerprint body i sa a).1 k = (hostFingerprint body i sb b).1 k) ∧
      (hostFingerprint body i sa a).2 = (hostFingerprint body i sb b).2 := by
    unfold hostFingerprint
    rw [hs.hostText i (by decide)]
    dsimp only
    split
    · split
      · exact ⟨h.poke_rest _ _, rfl⟩
      · exact ⟨h.poke_rest _ _, rfl⟩
    split
    · exact ⟨h.poke_rest _ _, rfl⟩
    · exact ⟨h.poke_rest _ _, rfl⟩
  exact ⟨h.change (hin sa a) (hin sb b) hboth.1, hboth.2⟩

theorem Alike.trimUrl (h : Alike a b) : Alike (trimUrl i a) (trimUrl i b) := by
  have hin : ∀ img, ChangedWithin Shown img (Web.trimUrl i img) :=
    fun img => within_trimUrl (.refl _ img) fun _ => shown_host (by decide)
  refine h.change (hin a) (hin b) ?_
  unfold Web.trimUrl
  rw [h.hostText i (by decide)]
  exact h.poke_rest _ _

theorem alike_hostCheck (h : Alike a b) : hostCheck i a = hostCheck i b := by
  unfold hostCheck
  rw [h.hostFlag i (by decide) (by decide), h.hostText i (f := .url) (by decide),
    h.hostText i (f := .node) (by decide), h.hostText i (f := .tokenId) (by decide),
    h.hostRead i (f := .onBatteryMin) (by decide), h.hostRead i (f := .chargePct) (by decide)]
  simp only [h.hosts i]

/-- "Remove": the whole slot, its token included. -/
theorem alike_wipe (h : Alike a b) :
    Alike (a.poke (hostStart i) defaultHost) (b.poke (hostStart i) defaultHost) := by
  have hlen : defaultHost.length = pveHostSize := by
    unfold defaultHost
    rw [List.length_map, List.length_range]
  have hslot : ∀ {k}, hostStart i ≤ k ∧ k < hostStart i + defaultHost.length → HostHas i k :=
    fun hk => ⟨hk.1, hlen ▸ hk.2⟩
  refine h.poke _ _ (fun f hf => .inr (text_poke_other fun k hk hno => ?_)) (fun j => ?_)
  · exact secret_off_pve hf hk (pveField_within .hosts (hostHas_hosts (hslot hno)))
  · by_cases hij : j = i
    · subst hij
      refine .inl (congrArg cstr (read_eq_iff.mpr fun k hk => ?_))
      obtain ⟨hlo, hhi⟩ : HostHas j ((hostSpan j .secret).start + k) :=
        hostSpan_within ⟨Nat.le_add_right _ _, Nat.add_lt_add_left hk _⟩
      unfold Image.poke
      rw [hlen, if_pos ⟨hlo, hhi⟩, if_pos ⟨hlo, hhi⟩]
    · exact .inr
        (hostText_poke_other fun k hk hno => hostHas_apart hij (hostSpan_within hk) (hslot hno))

/-- **A host that is posted** is refused on both, or accepted on both. -/
theorem alike_pveHostFromForm (hs : Alike sa sb) (h : Alike a b) :
    Alike (pveHostFromForm body i a sa).1 (pveHostFromForm body i b sb).1 ∧
      (pveHostFromForm body i a sa).2 = (pveHostFromForm body i b sb).2 := by
  have htoken : Alike (hostSecret body i sa a) (hostSecret body i sb b) := by
    unfold hostSecret
    extract_lets secret
    by_cases hblank : secret = []
    · rw [if_pos hblank, if_pos hblank]
      exact (alike_hostFields h).hostSecret (cstr_noNul _) (cstr_noNul _) (hs.hosts i)
    · rw [if_neg hblank, if_neg hblank]
      exact (alike_hostFields h).hostSecret (cstr_noNul _) (cstr_noNul _) Iff.rfl
  obtain ⟨hpin, hok⟩ := @alike_hostFingerprint _ _ _ _ body i hs htoken
  have hurl := hpin.trimUrl (i := i)
  have hwiped : ∀ stored img, formIsOne body (hostKey i "clear") 128 = true →
      pveHostFromForm body i img stored = (img.poke (hostStart i) defaultHost, none) := by
    intro stored img hclear
    unfold pveHostFromForm
    rw [hclear, if_pos rfl]
  have hposted : ∀ stored img, formIsOne body (hostKey i "clear") 128 = false →
      pveHostFromForm body i img stored =
        if !(hostFingerprint body i stored (hostSecret body i stored img)).2 then
          ((hostFingerprint body i stored (hostSecret body i stored img)).1,
            some (hostError i "fingerprint must be 64 hex digits"))
        else
          (trimUrl i (hostFingerprint body i stored (hostSecret body i stored img)).1,
            hostCheck i
              (trimUrl i (hostFingerprint body i stored (hostSecret body i stored img)).1)) := by
    intro stored img hclear
    unfold pveHostFromForm
    rw [hclear]
    rfl
  cases hclear : formIsOne body (hostKey i "clear") 128 with
  | true =>
      have hwipe : Alike (a.poke (hostStart i) defaultHost) (b.poke (hostStart i) defaultHost) :=
        alike_wipe h
      rw [hwiped sa a hclear, hwiped sb b hclear]
      exact ⟨hwipe, rfl⟩
  | false =>
      rw [hposted sa a hclear, hposted sb b hclear, hok]
      by_cases hbad : (!(hostFingerprint body i sb (hostSecret body i sb b)).2) = true
      · rw [if_pos hbad, if_pos hbad]
        exact ⟨hpin, rfl⟩
      · have hcheck := @alike_hostCheck _ _ i hurl
        rw [if_neg hbad, if_neg hbad]
        dsimp only
        exact ⟨hurl, hcheck⟩

/-- The hosts, one after the other: the rules that are stored are the same. -/
theorem alike_pveHosts (hs : Alike sa sb) (h : Alike a b) (is : List HostIx) :
    SameCourse (fun x y : Image × List (HostIx × List PveGuest) => Alike x.1 y.1 ∧ x.2 = y.2)
      (pveHosts o body sa is a) (pveHosts o body sb is b) := by
  induction is generalizing a b with
  | nil => exact .ok ⟨h, rfl⟩
  | cons i is ih =>
      obtain ⟨hhost, herr⟩ := @alike_pveHostFromForm _ _ _ _ body i hs h
      have hon : hostFlag (pveHostFromForm body i a sa).1 i .enabled =
          hostFlag (pveHostFromForm body i b sb).1 i .enabled :=
        hhost.hostFlag i (by decide) (by decide)
      have hrest := ih hhost
      unfold pveHosts
      generalize pveHostFromForm body i a sa = x at herr hon hrest ⊢
      generalize pveHostFromForm body i b sb = y at herr hon hrest ⊢
      obtain ⟨x, ex⟩ := x
      obtain ⟨y, ey⟩ := y
      obtain rfl : ex = ey := herr
      cases ex with
      | some err => exact .error err
      | none =>
          dsimp only at hon hrest ⊢
          rw [hon]
          refine hrest.map fun u v huv => ⟨huv.1, ?_⟩
          simp only [huv.2]

theorem alike_sectionPve (hs : Alike sa sb) (h : Alike a b) :
    SameCourse (fun x y : Image × List (HostIx × List PveGuest) => Alike x.1 y.1 ∧ x.2 = y.2)
      (sectionPve o body sa a) (sectionPve o body sb b) := by
  unfold sectionPve
  extract_lets armed a₁ a₂ a₃ b₁ b₂ b₃
  have harmed : Alike a₁ b₁ := h.pvePoke (by decide) (Nat.le_of_eq rfl)
  have hback : Alike a₂ b₂ := by
    cases hback : formGet body "pve_mains_back_min" 128 with
    | none => simpa only [a₂, b₂, hback] using harmed
    | some v =>
        simp only [a₂, b₂, hback]
        exact both_ite Iff.rfl (harmed.pvePoke (by decide) (Nat.le_of_eq rfl)) harmed
  have hhours : Alike a₃ b₃ := hback.intoHalf (by decide) (by decide)
  refine both_ite (by rw [hhours.pveFlag (by decide) (by decide)]) ?_ (.ok ⟨hhours, rfl⟩)
  have hhosts := @alike_pveHosts o _ _ _ _ body hs hhours hostSlots
  generalize pveHosts o body sa hostSlots a₃ = x at hhosts ⊢
  generalize pveHosts o body sb hostSlots b₃ = y at hhosts ⊢
  cases hhosts with
  | error err => exact .error _
  | ok hxy => exact .ok hxy

theorem alike_sectionIntegrations (h : Alike a b) :
    Alike (sectionIntegrations body a) (sectionIntegrations body b) := by
  unfold sectionIntegrations
  extract_lets a₁ a₂ b₁ b₂
  have hnut : Alike a₁ b₁ := h.intoFlag (by decide) (by decide)
  have hpve : Alike a₂ b₂ := hnut.pvePoke (by decide) (Nat.le_of_eq rfl)
  exact hpve.intoFlag (by decide) (by decide)

end Hosts

/-- **A form** is refused on both with the same reply, or accepted on both, and what it leaves is
    alike. -/
theorem alike_runSection {o : Outside} {a b : Image} {body : List UInt8}
    (hsalt : o.salt.length = 16)
    (hsha : ∀ m, (o.sha256 m).length = 32) (h : Alike a b) (name : List UInt8) :
    SameCourse (fun x y : Image × List (HostIx × List PveGuest) => Alike x.1 y.1 ∧ x.2 = y.2)
      (runSection o body a name) (runSection o body b name) := by
  have hpair : ∀ x y : Image, Alike x y →
      Alike (x, ([] : List (HostIx × List PveGuest))).1
        (y, ([] : List (HostIx × List PveGuest))).1 ∧
        (x, ([] : List (HostIx × List PveGuest))).2 = (y, []).2 := fun _ _ hxy => ⟨hxy, rfl⟩
  unfold runSection
  refine both_ite Iff.rfl ((alike_sectionBluetti h).map hpair) ?_
  refine both_ite Iff.rfl (.ok ⟨alike_sectionNut hsalt hsha h, rfl⟩) ?_
  refine both_ite Iff.rfl ((alike_sectionWifi h).map hpair) ?_
  refine both_ite Iff.rfl (alike_sectionPve h h) ?_
  refine both_ite Iff.rfl ((alike_sectionNotify h).map hpair) ?_
  exact both_ite Iff.rfl (.ok ⟨alike_sectionIntegrations h, rfl⟩) (.error _)

/-! ## 5. The pages -/

/-- `pve_guest_status_t` and `pve_host_status_t`, as they are shown. -/
structure PveGuestStatus where
  id : Int
  fired : Bool
  countdownS : Int
  last : List UInt8
  lastOk : Bool

structure PveHostStatus where
  node : List UInt8
  enabled : Bool
  pinned : Bool
  fired : Bool
  countdownS : Int
  last : List UInt8
  lastOk : Bool
  lastCheckedS : Int
  guests : List PveGuestStatus

/-- What `h_admin_status` asks of modules whose state is not part of the server: the addresses, the
    firmware, two NUT variables, the shutdown engine. -/
structure StatusNow where
  apIp : List UInt8
  staIp : List UInt8
  staGw : List UInt8
  staDns : List UInt8
  fallbackUp : Bool
  version : List UInt8
  date : List UInt8
  time : List UInt8
  upsStatus : List UInt8
  runtimeS : Int
  pveEnabled : Bool
  pveArmed : Bool
  onBatteryS : Int
  hosts : HostIx → PveHostStatus

/-- `WFIG`: the figures are in tenths of a watt. -/
def wattsFig (st : Ble.BluettiState) (f : Int) : Int :=
  if st.valid && decide (Ble.bluettiUnknownF < f) then (if f < 0 then f - 5 else f + 5).tdiv 10
  else -100000

/-- A number that is not known yet goes out as -1. -/
def knownOr (st : Ble.BluettiState) (n : Int) : Int := if st.valid && decide (0 ≤ n) then n else -1

/-- The first format of `h_admin_status`. -/
def statusArgs (webOta : Bool) (o : Outside) (now : StatusNow) (cfg : Image)
    (b : Ble.BluettiBle κ) :
    List (String × Arg) :=
  let ap := decide (isAp cfg)
  let st := b.state
  [("wifi_mode", .text (ascii (if ap then "ap" else "station"))),
    ("network", if ap then appText cfg .apSsid else appText cfg .wifiSsid),
    ("ip", .text (if ap then now.apIp else now.staIp)),
    ("addressing",
    .text (ascii (if ap then "ap" else if flag cfg .useStaticIp then "static" else "dhcp"))),
    ("gateway", .text (if ap then ascii "-" else now.staGw)),
    ("dns", .text (if ap then ascii "-" else now.staDns)), ("hostname", appText cfg .hostname),
    ("fw_version", .text now.version), ("fw_date", .text (now.date ++ ascii " " ++ now.time)),
    ("ota", .switch webOta), ("ups", appText cfg .upsName), ("nut_port", appNumber cfg .nutPort),
    ("ble_target", appText cfg .bleAddr), ("ble_connected", .switch b.connected),
    ("telemetry_valid", .switch st.valid),
    ("battery_pct", .number (if st.valid then st.socPct else 0)),
    ("low_pct", appNumber cfg .lowPct), ("ac_input", .switch (st.valid && st.acInputPresent)),
    ("charging", .switch (st.valid && st.charging)),
    ("model", .text (if st.valid then ascii st.model else [])),
    ("log_level", appNumber cfg .logLevel), ("ups_status", .text now.upsStatus),
    ("battery_runtime_s", .number now.runtimeS),
    ("minutes_remaining", .number (knownOr st st.minutesRemaining)),
    ("output_watts", .number (wattsFig st st.outputWatts)),
    ("ac_out_watts", .number (wattsFig st st.acOutWatts)),
    ("dc_out_watts", .number (wattsFig st st.dcOutWatts)),
    ("input_watts", .number (wattsFig st st.inputWatts)),
    ("ac_in_watts", .number (wattsFig st st.acInWatts)),
    ("dc_in_watts", .number (wattsFig st st.dcInWatts)),
    ("battery_watts", .number (wattsFig st st.batteryWatts)),
    ("soc_min", .number (knownOr st st.socMin)), ("soc_max", .number (knownOr st st.socMax)),
    ("led", .switch o.ledEnabled), ("led_gpio", .number o.ledGpio),
    ("fb_ap_up", .switch now.fallbackUp), ("configured", .switch (decide (text cfg .bleAddr ≠ []))),
    ("nut_enabled", appSwitch cfg .nutEnabled), ("tg_enabled", appSwitch cfg .tgEnabled)]

/-- The formats of the shutdown engine, of a host and of a rule. -/
def pveStatusArgs (now : StatusNow) : List (String × Arg) :=
  [("enabled", .switch now.pveEnabled), ("armed", .switch now.pveArmed),
    ("on_battery_s", .number now.onBatteryS)]

def hostStatusArgs (h : PveHostStatus) : List (String × Arg) :=
  [("node", .text h.node), ("enabled", .switch h.enabled), ("pinned", .switch h.pinned),
    ("fired", .switch h.fired), ("countdown_s", .number h.countdownS), ("last", .text h.last),
    ("ok", .switch h.lastOk), ("checked_s", .number h.lastCheckedS)]

def guestStatusArgs (g : PveGuestStatus) : List (String × Arg) :=
  [("id", .number g.id), ("fired", .switch g.fired), ("countdown_s", .number g.countdownS),
    ("last", .text g.last), ("ok", .switch g.lastOk)]

def hostStatusText (h : PveHostStatus) : List UInt8 :=
  ascii "\x7b" ++ commaSep ((hostStatusArgs h).map memberText) ++ ascii ",\"guests\":[" ++
    commaSep (h.guests.map fun g => objectText (guestStatusArgs g)) ++ ascii "]\x7d"

/-- **What `h_admin_status` prints**, in a buffer that holds it. -/
def adminStatusText (webOta : Bool) (o : Outside) (now : StatusNow) (s : Server κ) : List UInt8 :=
  -- the brace that ends the first object is taken back
  (objectText (statusArgs webOta o now s.cfg s.ble)).dropLast ++ ascii ",\"pve\":\x7b" ++
    commaSep ((pveStatusArgs now).map memberText) ++ ascii ",\"hosts\":[" ++
    commaSep (hostSlots.map fun i => hostStatusText (now.hosts i)) ++ ascii "]\x7d\x7d"

/-- The outside with that page: what does not fit in the buffer is cut off. -/
def printsStatus (webOta : Bool) (now : StatusNow) (o : Outside) (s : Server κ) : Outside :=
  { o with page := some (fitBytes 16000 (adminStatusText webOta o now s)) }

section Pages

variable {o : Outside} {a b : Image}

theorem alike_isAp (h : Alike a b) : isAp a ↔ isAp b := by
  unfold isAp
  rw [h.app (by decide)]

theorem alike_needSetup (h : Alike a b) : needSetup a = needSetup b := by
  unfold needSetup
  rw [h.flag (by decide) (by decide), h.text (by decide)]
  simp only [alike_isAp h]

theorem alike_appText (h : Alike a b) (f : AppField) (hf : f ∉ hiddenFields ∧ f ≠ .pve) :
    appText a f = appText b f := congrArg Arg.text (h.text hf)

theorem alike_appNumber (h : Alike a b) (f : AppField) (hf : f ∉ hiddenFields ∧ f ≠ .pve) :
    appNumber a f = appNumber b f := by
  unfold appNumber
  rw [numberAt_congr (h.app hf)]

theorem alike_appSwitch (h : Alike a b) (f : AppField)
    (hf : (f ∉ hiddenFields ∧ f ≠ .pve) ∧ 0 < f.span.size) : appSwitch a f = appSwitch b f :=
  congrArg Arg.switch (h.flag hf.1 hf.2)

/-- Of a secret the page tells whether it is set. -/
theorem alike_appStored (h : Alike a b) (f : AppField) (hf : f ∈ secretTexts) :
    appStored a f = appStored b f := by
  unfold appStored
  simp only [ne_eq, h.empty hf]

theorem alike_apName (h : Alike a b) (f : AppField) (hf : f ∉ hiddenFields ∧ f ≠ .pve) :
    apName o a f = apName o b f := by
  unfold apName
  rw [h.text hf]

theorem alike_configArgs (h : Alike a b) : configArgs o a = configArgs o b := by
  have hmode : a.read AppField.wifiMode.span = b.read AppField.wifiMode.span := h.app (by decide)
  simp (disch := decide)
    only [configArgs, hmode, alike_appText h, alike_appNumber h, alike_appSwitch h,
      alike_appStored h, alike_apName h]

theorem alike_statusArgs (h : Alike a b) (webOta : Bool) (now : StatusNow)
    (ble : Ble.BluettiBle κ) :
    statusArgs webOta o now a ble = statusArgs webOta o now b ble := by
  have haddr : text a .bleAddr = text b .bleAddr := h.text (by decide)
  have hstatic : flag a .useStaticIp = flag b .useStaticIp := h.flag (by decide) (by decide)
  simp (disch := decide) only [statusArgs, alike_isAp h, haddr, hstatic, alike_appText h,
    alike_appNumber h, alike_appSwitch h]

theorem alike_pveArgs (h : Alike a b) : pveArgs a = pveArgs b := by
  have hback : a.read (ConfigField.pve .mainsBackMin).span =
    b.read (ConfigField.pve .mainsBackMin).span :=
    h.read fun _ => shown_pve (by decide)
  unfold pveArgs
  rw [h.pveFlag (f := .enabled) (by decide) (by decide),
    h.pveFlag (f := .armed) (by decide) (by decide), numberAt_congr hback,
    alike_appNumber h .pveSelftestHours (by decide)]

theorem alike_hostArgs (h : Alike a b) (i : HostIx) : hostArgs a i = hostArgs b i := by
  unfold hostArgs
  rw [h.hostFlag i (f := .enabled) (by decide) (by decide), h.hostText i (f := .url) (by decide),
    h.hostText i (f := .node) (by decide), h.hostText i (f := .tokenId) (by decide),
    h.hostFlag i (f := .shutdownNode) (by decide) (by decide),
    h.hostText i (f := .fingerprint) (by decide),
    numberAt_congr (h.hostRead i (f := .onBatteryMin) (by decide)),
    numberAt_congr (h.hostRead i (f := .chargePct) (by decide))]
  simp only [ne_eq, h.hosts i]

end Pages

/-! ## 6. Two servers -/

/-- **Alike**: what is live, and what a restart loads. The calls into other modules are not
    compared. -/
structure AlikeServers (s t : Server κ) : Prop where
  cfg : Alike s.cfg t.cfg
  flash : ∀ b allocOk, Alike (appConfigLoad b s.stored allocOk) (appConfigLoad b t.stored allocOk)
  guests : s.storedGuests = t.storedGuests
  found : s.bleFound = t.bleFound
  sessions : s.sessions = t.sessions
  ble : s.ble = t.ble
  ota : s.ota = t.ota
  boot : s.boot = t.boot

/-- **The same reply, and alike again.** -/
structure SameAnswer {α : Type} (x y : α × Server κ) : Prop where
  reply : x.1 = y.1
  servers : AlikeServers x.2 y.2

/-- What is saved is loaded with its members, but for the one that nothing reads. -/
theorem alike_load_save {a b : Image} (h : Alike a b) (board : Board) (allocOk : Bool) :
    Alike (appConfigLoad board (some (appConfigSave a)) allocOk)
      (appConfigLoad board (some (appConfigSave b)) allocOk) := by
  cases allocOk with
  | false =>
      rw [load_noMemory, load_noMemory]
      exact .refl _
  | true =>
      have hbyte : ∀ (cfg : Image) {f : AppField}, f ≠ .bleProbe → ∀ k, f.span.Has k →
          appConfigLoad board (some (appConfigSave cfg)) true k = cfg k := by
        intro cfg f hf k hk
        obtain ⟨hlo, hhi⟩ := hk
        have hread := read_eq_iff.mp (load_save board cfg hf) (k - f.span.start) (by omega)
        rwa [Nat.add_sub_of_le hlo] at hread
      have hprobe : .bleProbe ∈ hiddenFields ∧ ∀ f ∈ secretTexts, f ≠ .bleProbe := by decide
      have htext : ∀ (cfg : Image), ∀ f ∈ secretTexts,
          text (appConfigLoad board (some (appConfigSave cfg)) true) f = text cfg f :=
        fun cfg f hf => congrArg cstr (load_save board cfg (hprobe.2 f hf))
      have hhost : ∀ (cfg : Image) (i : HostIx),
          hostText (appConfigLoad board (some (appConfigSave cfg)) true) i .secret =
            hostText cfg i .secret := fun cfg i => congrArg cstr (read_eq_iff.mpr fun k hk =>
        hbyte cfg (f := .pve) (by decide) _
          (hostSpan_pve ⟨Nat.le_add_right _ _, Nat.add_lt_add_left hk _⟩))
      refine ⟨fun k hk => ?_, fun f hf => ?_, fun i => ?_⟩
      · obtain ⟨f, hf, hfk⟩ := hk.1
        have hne : f ≠ .bleProbe := fun heq => hf (heq ▸ hprobe.1)
        rw [hbyte a hne k hfk, hbyte b hne k hfk, h.rest k hk]
      · rw [htext a f hf, htext b f hf, h.texts f hf]
      · rw [hhost a i, hhost b i, h.hosts i]

section Servers

variable {o : Outside} {r : Request} {s t : Server κ}

theorem AlikeServers.call (h : AlikeServers s t) (c d : Call) :
    AlikeServers (s.call c) (t.call d) :=
  ⟨h.cfg, h.flash, h.guests, h.found, h.sessions, h.ble, h.ota, h.boot⟩

theorem AlikeServers.ask (h : AlikeServers s t) {α : Type} (x y : List UInt8) (n : NetCall α) :
    AlikeServers (s.ask x n) (t.ask y n) := both_ite Iff.rfl (h.call _ _) h

theorem AlikeServers.withCfg (h : AlikeServers s t) {a b : Image} (hab : Alike a b) :
    AlikeServers { s with cfg := a } { t with cfg := b } :=
  ⟨hab, h.flash, h.guests, h.found, h.sessions, h.ble, h.ota, h.boot⟩

theorem AlikeServers.withSessions (h : AlikeServers s t) {x y : Sessions} (hxy : x = y) :
    AlikeServers { s with sessions := x } { t with sessions := y } :=
  ⟨h.cfg, h.flash, h.guests, h.found, hxy, h.ble, h.ota, h.boot⟩

theorem AlikeServers.withBle (h : AlikeServers s t) {x y : Ble.BluettiBle κ} (hxy : x = y) :
    AlikeServers { s with ble := x } { t with ble := y } :=
  ⟨h.cfg, h.flash, h.guests, h.found, h.sessions, hxy, h.ota, h.boot⟩

theorem AlikeServers.withOta (h : AlikeServers s t) (g : OtaGh) :
    AlikeServers { s with ota := g } { t with ota := g } :=
  ⟨h.cfg, h.flash, h.guests, h.found, h.sessions, h.ble, rfl, h.boot⟩

/-- What a write leaves of two values depends on its fault only, and so does what it reports. -/
theorem alike_write (f : NvsFault) {x y x' y' : Option (List UInt8)}
    (hold : ∀ b allocOk, Alike (appConfigLoad b x allocOk) (appConfigLoad b y allocOk))
    (hnew : ∀ b allocOk, Alike (appConfigLoad b x' allocOk) (appConfigLoad b y' allocOk)) :
    ∀ b allocOk, Alike (appConfigLoad b (f.write x x').1 allocOk)
      (appConfigLoad b (f.write y y').1 allocOk) := by
  rw [f.write_fst, f.write_fst]
  split
  · exact hnew
  · exact hold

theorem AlikeServers.saveCfg (h : AlikeServers s t) (o : Outside) :
    (s.saveCfg o).2 = (t.saveCfg o).2 ∧ AlikeServers (s.saveCfg o).1 (t.saveCfg o).1 := by
  have hreport : ∀ (f : NvsFault) (x y x' y' : Option (List UInt8)),
      (f.write x x').2 = (f.write y y').2 := fun f _ _ _ _ => by cases f <;> rfl
  have hflash := alike_write o.saveCfg h.flash (alike_load_save h.cfg)
  exact ⟨hreport _ _ _ _ _, h.cfg, hflash, h.guests, h.found, h.sessions, h.ble, h.ota, h.boot⟩

theorem AlikeServers.erase (h : AlikeServers s t) (o : Outside) :
    AlikeServers (s.erase o) (t.erase o) := by
  have hflash :=
    alike_write o.eraseCfg h.flash (fun b allocOk => Alike.refl (appConfigLoad b none allocOk))
  have hguests : (s.erase o).storedGuests = (t.erase o).storedGuests :=
    congrArg (fun g => (o.eraseGuests.write g fun _ => []).1) h.guests
  exact ⟨h.cfg, hflash, hguests, h.found, h.sessions, h.ble, h.ota, h.boot⟩

/-- A restart loads what is alike. -/
theorem AlikeServers.start (h : AlikeServers s t) (o : Outside) (b : Board) (allocOk held : Bool) :
    AlikeServers (s.start o b allocOk held) (t.start o b allocOk held) := by
  have hloaded : AlikeServers
      { s with cfg := appConfigLoad b s.stored allocOk, sessions := fun _ => .free, calls := [] }
      { t with cfg := appConfigLoad b t.stored allocOk, sessions := fun _ => .free, calls := [] } :=
    ⟨h.flash b allocOk, h.flash, h.guests, h.found, rfl, h.ble, h.ota, h.boot⟩
  exact both_ite Iff.rfl ((hloaded.erase o).withCfg (.refl _)) hloaded

theorem alike_authOk (h : AlikeServers s t) : SameAnswer (authOk o r s) (authOk o r t) := by
  unfold authOk
  rw [h.cfg.flag (by decide) (by decide), h.sessions]
  refine both_ite Iff.rfl ⟨rfl, h⟩ ?_
  cases cookieToken r.cookie with
  | none => exact ⟨rfl, h⟩
  | some tok => exact ⟨rfl, h.withSessions rfl⟩

theorem alike_requireAuth {f : Handler κ} (h : AlikeServers s t)
    (hf : ∀ s t, AlikeServers s t → SameAnswer (f o r s) (f o r t)) :
    SameAnswer (requireAuth f o r s) (requireAuth f o r t) := by
  have hauth := @alike_authOk _ o r _ _ h
  unfold requireAuth
  generalize authOk o r s = x at hauth ⊢
  generalize authOk o r t = y at hauth ⊢
  obtain ⟨ok, s'⟩ := x
  obtain ⟨ok', t'⟩ := y
  obtain rfl : ok = ok' := hauth.reply
  exact both_ite Iff.rfl ⟨rfl, hauth.servers⟩ (hf _ _ hauth.servers)

theorem alike_withBody {minLen maxLen : Nat} {heap : Bool} {k k' : List UInt8 → Reply × Server κ}
    (h : AlikeServers s t) (hk : ∀ body, SameAnswer (k body) (k' body)) :
    SameAnswer (withBody o r minLen maxLen heap s k) (withBody o r minLen maxLen heap t k') := by
  unfold withBody
  cases readBody o r minLen maxLen heap with
  | error reply => exact ⟨rfl, h⟩
  | ok body => exact hk body

/-- The page of the settings is the same. -/
theorem alike_printsConfig (h : AlikeServers s t) : printsConfig o s = printsConfig o t := by
  have hhost : ∀ i, shownHost o s i = shownHost o t i := fun i => by
    unfold shownHost shownGuests
    rw [alike_hostArgs h.cfg, h.guests]
  unfold printsConfig adminConfigText
  rw [alike_configArgs h.cfg, alike_pveArgs h.cfg, funext hhost]

theorem alike_printsStatus (h : AlikeServers s t) (webOta : Bool) (now : StatusNow) :
    printsStatus webOta now o s = printsStatus webOta now o t := by
  unfold printsStatus adminStatusText
  rw [alike_statusArgs h.cfg, h.ble]

theorem alike_printsControls (h : AlikeServers s t) : printsControls o s = printsControls o t := by
  unfold printsControls
  rw [h.ble]

end Servers

/-! ## 7. The handlers -/

/-- **Alike servers are answered alike.** -/
def Discreet (f : Handler κ) : Prop :=
  ∀ (o : Hardware) (r : Request) (s t : Server κ), AlikeServers s t →
    SameAnswer (f o.toOutside r s) (f o.toOutside r t)

section Handlers

variable {o : Outside} {r : Request} {s t : Server κ}

theorem discreet_requireAuth {f : Handler κ} (hf : Discreet f) : Discreet (requireAuth f) :=
  fun o r _ _ h => alike_requireAuth h (hf o r)

theorem alike_checkPassword {a b : Image} (h : Alike a b) (sha256 : List UInt8 → List UInt8)
    (pass : List UInt8) : appConfigCheckPassword sha256 a pass =
    appConfigCheckPassword sha256 b pass := by
  unfold appConfigCheckPassword checkSecret authSecret
  rw [h.flag (f := .authSet) (by decide) (by decide), h.app (f := .authSalt) (by decide),
    h.app (f := .authHash) (by decide)]

theorem discreet_adminRoot : Discreet (hAdminRoot (κ := κ)) := by
  intro o r s t h
  have hauth := @alike_authOk _ o.toOutside r _ _ h
  unfold hAdminRoot
  generalize authOk o.toOutside r s = x at hauth ⊢
  generalize authOk o.toOutside r t = y at hauth ⊢
  obtain ⟨ok, s'⟩ := x
  obtain ⟨ok', t'⟩ := y
  obtain rfl : ok = ok' := hauth.reply
  exact ⟨rfl, hauth.servers⟩

theorem discreet_login : Discreet (hLogin (κ := κ)) := by
  refine fun o r s t h => alike_withBody h fun body => ?_
  dsimp only
  rw [h.cfg.text (f := .authUser) (by decide), alike_checkPassword h.cfg, h.sessions]
  exact both_ite Iff.rfl ⟨rfl, h.withSessions rfl⟩ ⟨rfl, h⟩

theorem discreet_logout : Discreet (hLogout (κ := κ)) := by
  intro o r s t h
  unfold hLogout
  rw [h.sessions]
  exact ⟨rfl, h.withSessions rfl⟩

theorem discreet_hostname : Discreet (hHostname (κ := κ)) := fun _ _ _ _ h => by
  unfold hHostname
  rw [h.cfg.text (by decide)]
  exact ⟨rfl, h⟩

theorem discreet_logs : Discreet (hAdminLogs (κ := κ)) :=
  discreet_requireAuth fun _ _ _ _ h => both_ite Iff.rfl ⟨rfl, h⟩ ⟨rfl, h⟩

theorem discreet_bleScan : Discreet (hBleScan (κ := κ)) := by
  refine discreet_requireAuth fun o r s t h => ?_
  extract_lets pollOnly start s' head t'
  have hscan : AlikeServers s' t' := by
    refine both_ite Iff.rfl (AlikeServers.call ?_ _ _) h
    exact ⟨h.cfg, h.flash, h.guests, rfl, h.sessions, h.ble, h.ota, h.boot⟩
  rw [hscan.found]
  exact both_ite Iff.rfl ⟨rfl, hscan⟩ ⟨rfl, hscan⟩

theorem discreet_wifiScan : Discreet (hWifiScan (κ := κ)) :=
  discreet_requireAuth fun _ _ _ _ h =>
    both_ite Iff.rfl ⟨rfl, h.call _ _⟩ ⟨rfl, h.call _ _⟩

theorem discreet_ledToggle : Discreet (hLedToggle (κ := κ)) := by
  refine discreet_requireAuth fun o r s t h => alike_withBody h fun body => ?_
  cases ledPin body with
  | error reply => exact ⟨rfl, h⟩
  | ok gpio =>
      dsimp -zeta only
      extract_lets s₁ v s₂ s₃ test s₄ t₁ t₂ t₃ t₄
      have hpin : AlikeServers s₁ t₁ := by
        cases gpio with
        | none => exact h
        | some n => exact (h.withCfg (h.cfg.put (by decide) (Nat.le_of_eq rfl))).call _ _
      have hon : AlikeServers s₂ t₂ :=
        both_ite Iff.rfl hpin
          ((hpin.withCfg (hpin.cfg.put (by decide) (Nat.le_of_eq rfl))).call _ _)
      have hsaved : AlikeServers s₃ t₃ := both_ite Iff.rfl (hon.saveCfg _).2 hon
      have htest : AlikeServers s₄ t₄ := both_ite Iff.rfl (hsaved.call _ _) hsaved
      exact both_ite Iff.rfl ⟨rfl, htest⟩ ⟨rfl, htest⟩

theorem discreet_controlsEnable : Discreet (hControlsEnable (κ := κ)) := by
  refine discreet_requireAuth fun o r s t h => alike_withBody h fun body => ?_
  have hset :=
    (h.withCfg
      (h.cfg.put (f := .controlsEnabled) (v := [boolByte (isOn (formText body "enable" 8))])
    (by decide) (Nat.le_of_eq rfl))).saveCfg o.toOutside
  have hswitch := congrArg (fun b => Ble.bluettiBleSetControls b (isOn (formText body "enable" 8)))
    hset.2.ble
  exact both_ite Iff.rfl ⟨rfl, h⟩ ⟨rfl, hset.2.withBle hswitch⟩

theorem discreet_loglevelSet : Discreet (hLoglevelSet (κ := κ)) := by
  refine discreet_requireAuth fun o r s t h => alike_withBody h fun body => ?_
  have hset := (h.withCfg (h.cfg.put (f := .logLevel)
    (v := [UInt8.ofNat (atoi (formText body "level" 8)).toNat]) (by decide)
      (Nat.le_of_eq rfl))).saveCfg o.toOutside
  exact both_ite Iff.rfl ⟨rfl, h⟩ (both_ite Iff.rfl ⟨rfl, h⟩ ⟨rfl, (hset.2.call _ _).call _ _⟩)

theorem discreet_controlSet : Discreet (hControlSet (κ := κ)) := by
  refine discreet_requireAuth fun o r s t h => alike_withBody h fun body => ?_
  dsimp only
  rw [h.ble]
  refine both_ite Iff.rfl ⟨rfl, h⟩ (both_ite Iff.rfl ⟨rfl, h⟩ ?_)
  exact both_ite Iff.rfl ⟨rfl, h.withBle rfl⟩ ⟨rfl, h.withBle rfl⟩

theorem discreet_reboot : Discreet (hAdminReboot (κ := κ)) :=
  discreet_requireAuth fun _ _ _ _ h => ⟨rfl, h.call _ _⟩

theorem discreet_factoryReset : Discreet (hFactoryReset (κ := κ)) :=
  discreet_requireAuth fun o _ _ _ h => ⟨rfl, (h.erase o.toOutside).call _ _⟩

/-- The calls of `applySection` are not compared. -/
theorem alike_applySection (h : AlikeServers s t) (name : List UInt8) (nutBefore : Bool) :
    SameAnswer (applySection name nutBefore s) (applySection name nutBefore t) := by
  have hpve : AlikeServers (applyPve s) (applyPve t) := h.call _ _
  have hboth : AlikeServers (applyNotify (applyPve s)) (applyNotify (applyPve t)) := hpve.call _ _
  have hnut : flag (applyNotify (applyPve s)).cfg .nutEnabled =
      flag (applyNotify (applyPve t)).cfg .nutEnabled := hboth.cfg.flag (by decide) (by decide)
  refine both_ite Iff.rfl ⟨rfl, hpve⟩ (both_ite Iff.rfl ⟨rfl, h.call _ _⟩ ?_)
  refine both_ite Iff.rfl ?_ ⟨rfl, h.call _ _⟩
  exact both_ite (by rw [hnut]) ⟨rfl, hboth.call _ _⟩ ⟨rfl, hboth⟩

/-- **The settings form**: what is saved is alike, whatever the flash makes of it. -/
theorem discreet_reconfigure : Discreet (hAdminReconfigure (κ := κ)) := by
  refine discreet_requireAuth fun o r s t h => alike_withBody h fun body => ?_
  have hrun := @alike_runSection o.toOutside _ _ body o.salt_length o.sha256_length h.cfg
    (formText body "section" 16)
  dsimp only
  generalize runSection o.toOutside body s.cfg (formText body "section" 16) = x at hrun ⊢
  generalize runSection o.toOutside body t.cfg (formText body "section" 16) = y at hrun ⊢
  cases hrun with
  | error reply => exact ⟨rfl, h⟩
  | @ok x y hxy =>
      obtain ⟨pending, rules⟩ := x
      obtain ⟨pending', rules'⟩ := y
      obtain ⟨hpending, rfl⟩ := hxy
      have hset : AlikeServers
          { s with
            storedGuests := saveRules o.toOutside rules s.storedGuests
            cfg := set pending .provisioned [1] }
          { t with
            storedGuests := saveRules o.toOutside rules t.storedGuests
            cfg := set pending' .provisioned [1] } :=
        ⟨hpending.put (by decide) (Nat.le_of_eq rfl), h.flash,
          congrArg (saveRules o.toOutside rules) h.guests, h.found, h.sessions, h.ble, h.ota,
          h.boot⟩
      obtain ⟨hreport, hsaved⟩ := hset.saveCfg o.toOutside
      have hnut : flag s.cfg .nutEnabled = flag t.cfg .nutEnabled :=
        h.cfg.flag (by decide) (by decide)
      dsimp only
      rw [hreport, hnut]
      exact both_ite Iff.rfl ⟨rfl, hsaved⟩ (alike_applySection hsaved _ _)

theorem discreet_credentials : Discreet (hAdminCredentials (κ := κ)) := by
  have hfs : ∀ g ∈ [authSecret.salt, authSecret.hash, authSecret.isSet], g ≠ .pve ∧
    g ∉ secretTexts := by
    decide
  refine discreet_requireAuth fun o r s t h => alike_withBody h fun body => ?_
  have hset := (h.withCfg ((h.cfg.strlcpy (f := .authUser) (by decide)
    (if formText body "auth_user" 33 = [] then ascii "admin"
      else formText body "auth_user" 33)).setSecret
      authSecret_proper o.salt_length o.sha256_length hfs (formText body "auth_pass" 128))).saveCfg
        o.toOutside
  dsimp only
  rw [h.cfg.flag (f := .authSet) (by decide) (by decide), alike_checkPassword h.cfg]
  refine both_ite Iff.rfl ⟨rfl, h⟩ (both_ite Iff.rfl ⟨rfl, h⟩ ?_)
  exact both_ite (by rw [appConfigSetPassword, appConfigSetPassword, hset.1]) ⟨rfl, hset.2⟩
    ⟨rfl, hset.2⟩

/-- A blank field is tested with what is stored: with it if there is one. -/
theorem discreet_notifyTest : Discreet (hNotifyTest (κ := κ)) := by
  refine discreet_requireAuth fun o r s t h => alike_withBody h fun body => ?_
  have htoken : postedOr body "tg_token" (text s.cfg .tgToken) 64 = [] ↔
      postedOr body "tg_token" (text t.cfg .tgToken) 64 = [] := by
    have hfit : ∀ v : List UInt8, fitBytes 64 v = [] ↔ v = [] := fun v => by
      unfold fitBytes
      rw [List.take_eq_nil_iff]
      exact or_iff_right (by decide)
    unfold postedOr
    rw [hfit, hfit]
    split
    · exact h.cfg.empty (by decide)
    · exact Iff.rfl
  have hsend : ∀ chat, SameAnswer
      (notifySendTest o.toOutside (postedOr body "tg_token" (text s.cfg .tgToken) 64) chat s)
      (notifySendTest o.toOutside (postedOr body "tg_token" (text t.cfg .tgToken) 64) chat t) :=
    fun chat => both_ite (or_congr htoken Iff.rfl) ⟨rfl, h⟩ ⟨rfl, h.ask _ _ _⟩
  have hcall := hsend (postedOr body "tg_chat" (text t.cfg .tgChat) 24)
  dsimp only
  rw [h.cfg.text (f := .tgChat) (by decide)]
  generalize notifySendTest o.toOutside _ _ s = x at hcall ⊢
  generalize notifySendTest o.toOutside _ _ t = y at hcall ⊢
  obtain ⟨res, s'⟩ := x
  obtain ⟨res', t'⟩ := y
  obtain rfl : res = res' := hcall.reply
  cases res with
  | error err => exact ⟨rfl, hcall.servers⟩
  | ok u => exact ⟨rfl, hcall.servers⟩

/-- The host that is tried, with its token: refused on both, or the same slot and alike. -/
theorem alike_pveReadHost {a b : Image} (h : Alike a b) :
    SameCourse (fun x y : HostIx × Image => x.1 = y.1 ∧ Alike x.2 y.2) (pveReadHost o r a)
      (pveReadHost o r b) := by
  unfold pveReadHost
  cases readBody o r 1 65536 true with
  | error reply => exact .error _
  | ok body =>
      dsimp -zeta only
      extract_lets n
      by_cases hn : 0 ≤ n ∧ n.toNat < Pve.pveMaxHosts
      · rw [dif_pos hn, dif_pos hn]
        extract_lets i
        obtain ⟨hhost, herr⟩ := @alike_pveHostFromForm _ _ _ _ body i h h
        generalize pveHostFromForm body i a a = x at hhost herr ⊢
        generalize pveHostFromForm body i b b = y at hhost herr ⊢
        obtain ⟨x, ex⟩ := x
        obtain ⟨y, ey⟩ := y
        obtain rfl : ex = ey := herr
        cases ex with
        | some err => exact .error _
        | none =>
            have hon : Alike (setHost x i .enabled [1]) (setHost y i .enabled [1]) :=
              hhost.hostByte (by decide) 1
            refine both_ite ?_ (.error _) (.ok ⟨rfl, hon⟩)
            rw [hon.hostText i (f := .url) (by decide), hon.hostText i (f := .node) (by decide),
              hon.hostText i (f := .tokenId) (by decide), hon.hosts i]
      · rw [dif_neg hn, dif_neg hn]
        exact .error _

theorem discreet_pveTest : Discreet (hPveTest (κ := κ)) := by
  refine discreet_requireAuth fun o r s t h => ?_
  have hread := @alike_pveReadHost o.toOutside r _ _ h.cfg
  dsimp only
  generalize pveReadHost o.toOutside r s.cfg = x at hread ⊢
  generalize pveReadHost o.toOutside r t.cfg = y at hread ⊢
  cases hread with
  | error reply => exact ⟨rfl, h⟩
  | ok hxy => exact ⟨rfl, (h.ask _ _ _).call _ _⟩

theorem discreet_pveGuests : Discreet (hPveGuests (κ := κ)) := by
  refine discreet_requireAuth fun o r s t h => ?_
  have hread := @alike_pveReadHost o.toOutside r _ _ h.cfg
  dsimp only
  generalize pveReadHost o.toOutside r s.cfg = x at hread ⊢
  generalize pveReadHost o.toOutside r t.cfg = y at hread ⊢
  cases hread with
  | error reply => exact ⟨rfl, h⟩
  | @ok x y hxy =>
      obtain ⟨i, a⟩ := x
      obtain ⟨j, b⟩ := y
      obtain ⟨rfl, hab⟩ := hxy
      refine both_ite Iff.rfl ⟨rfl, h⟩ (both_ite ?_ ⟨rfl, h⟩ ?_)
      · rw [hab.hostText i (by decide)]
      · cases o.pveList.result with
        | error err => exact ⟨rfl, h.ask _ _ _⟩
        | ok json => exact ⟨rfl, h.ask _ _ _⟩

theorem discreet_ota : Discreet (hOta (κ := κ)) := by
  refine discreet_requireAuth fun o r s t h => ?_
  refine both_ite Iff.rfl ⟨rfl, h⟩ (both_ite Iff.rfl ⟨rfl, h⟩ ?_)
  cases o.otaPartition with
  | none => exact ⟨rfl, h⟩
  | some tgt =>
      have hbegun := h.call (.otaBegin tgt r.contentLen) (.otaBegin tgt r.contentLen)
      refine both_ite Iff.rfl ⟨rfl, hbegun⟩ (both_ite Iff.rfl ⟨rfl, hbegun.call _ _⟩
        (both_ite Iff.rfl ⟨rfl, hbegun.call _ _⟩ ?_))
      cases o.otaEnd with
      | some invalid => exact ⟨rfl, hbegun⟩
      | none =>
          refine both_ite Iff.rfl ⟨rfl, hbegun⟩ ⟨rfl, AlikeServers.call ?_ _ _⟩
          exact ⟨h.cfg, h.flash, h.guests, h.found, h.sessions, h.ble, h.ota, rfl⟩

theorem discreet_updateCheck : Discreet (hUpdateCheck (κ := κ)) := by
  intro o r s t h
  have hcheck : SameAnswer (otaGhCheck o.toOutside s) (otaGhCheck o.toOutside t) :=
    both_ite Iff.rfl ⟨rfl, h⟩ ⟨rfl, h.call _ _⟩
  unfold hUpdateCheck
  generalize otaGhCheck o.toOutside s = x at hcheck ⊢
  generalize otaGhCheck o.toOutside t = y at hcheck ⊢
  obtain ⟨res, s'⟩ := x
  obtain ⟨res', t'⟩ := y
  obtain rfl : res = res' := hcheck.reply
  exact ⟨rfl, hcheck.servers⟩

theorem alike_otaGhStart (h : AlikeServers s t) (version : List UInt8) :
    SameAnswer (otaGhStart o version s) (otaGhStart o version t) := by
  unfold otaGhStart
  rw [h.ota]
  refine both_ite Iff.rfl ⟨rfl, h⟩ (both_ite Iff.rfl ⟨rfl, h.withOta _⟩ ?_)
  exact both_ite Iff.rfl ⟨rfl, h.withOta _⟩ ⟨rfl, (h.withOta _).call _ _⟩

theorem discreet_updateInstall : Discreet (hUpdateInstall (κ := κ)) := by
  intro o r s t h
  refine both_ite Iff.rfl ⟨rfl, h⟩ (alike_withBody h fun body => ?_)
  have hstart := @alike_otaGhStart _ o.toOutside _ _ h (formText body "version" 16)
  refine both_ite Iff.rfl ⟨rfl, h⟩ (both_ite Iff.rfl ⟨rfl, h⟩ ?_)
  generalize otaGhStart o.toOutside (formText body "version" 16) s = x at hstart ⊢
  generalize otaGhStart o.toOutside (formText body "version" 16) t = y at hstart ⊢
  obtain ⟨started, s'⟩ := x
  obtain ⟨started', t'⟩ := y
  obtain rfl : started = started' := hstart.reply
  exact both_ite Iff.rfl ⟨rfl, hstart.servers⟩ ⟨rfl, hstart.servers⟩

theorem discreet_updateStatus : Discreet (hUpdateStatus (κ := κ)) := fun _ _ _ _ h => by
  unfold hUpdateStatus
  rw [h.ota]
  exact ⟨rfl, h⟩

end Handlers

/-! ## 8. A run -/

/-- **A handler, with the page it prints.** -/
def RouteFn.answer (webOta : Bool) (now : StatusNow) : RouteFn → Handler κ
  | .adminStatus => fun o r s => hAdminStatus (printsStatus webOta now o s) r s
  | .adminConfig => fun o r s => hAdminConfig (printsConfig o s) r s
  | .controlsGet => fun o r s => hControlsGet (printsControls o s) r s
  | f => f.run

theorem alike_heapPage {o : Outside} {r : Request} {s t : Server κ} (h : AlikeServers s t) :
    SameAnswer (requireAuth heapPage o r s) (requireAuth heapPage o r t) :=
  alike_requireAuth h fun _ _ h => both_ite Iff.rfl ⟨rfl, h⟩ ⟨rfl, h⟩

/-- **No handler tells alike servers apart.** -/
theorem discreet (webOta : Bool) (now : StatusNow) (f : RouteFn) :
    Discreet (f.answer (κ := κ) webOta now) := by
  cases f with
  | adminRoot => exact discreet_adminRoot
  | login => exact discreet_login
  | logout => exact discreet_logout
  | hostname => exact discreet_hostname
  | adminStatus =>
      intro o r s t h
      simp only [RouteFn.answer, alike_printsStatus h]
      exact alike_heapPage h
  | adminLogs => exact discreet_logs
  | adminConfig =>
      intro o r s t h
      simp only [RouteFn.answer, alike_printsConfig h]
      exact alike_heapPage h
  | adminReconfigure => exact discreet_reconfigure
  | adminCredentials => exact discreet_credentials
  | notifyTest => exact discreet_notifyTest
  | pveTest => exact discreet_pveTest
  | pveGuests => exact discreet_pveGuests
  | bleScan => exact discreet_bleScan
  | wifiScan => exact discreet_wifiScan
  | adminReboot => exact discreet_reboot
  | ledToggle => exact discreet_ledToggle
  | controlsGet =>
      intro o r s t h
      simp only [RouteFn.answer, alike_printsControls h]
      refine alike_requireAuth h fun s t h => ?_
      split
      · exact ⟨rfl, h⟩
      · exact ⟨rfl, h⟩
  | controlsEnable => exact discreet_controlsEnable
  | controlSet => exact discreet_controlSet
  | loglevelSet => exact discreet_loglevelSet
  | factoryReset => exact discreet_factoryReset
  | ota => exact discreet_ota
  | updateCheck => exact discreet_updateCheck
  | updateInstall => exact discreet_updateInstall
  | updateStatus => exact discreet_updateStatus

/-- What happens to a unit: a request, with what the status page would report, and a restart. -/
inductive UnitEv where
  | request (o : Hardware) (now : StatusNow) (r : Request)
  | restart (o : Outside) (b : Board) (allocOk held : Bool)

/-- What is seen of it: the reply of a handler, a request that has no route, a restart into service
    or into setup. -/
inductive Seen where
  | reply (reply : Reply)
  | noRoute
  | up (setup : Bool)
  deriving DecidableEq

/-- **One step.** -/
def unitStep (webOta : Bool) (s : Server κ) : UnitEv → Seen × Server κ
  | .request o now r =>
      match handlerOf webOta r with
      | none => (.noRoute, s)
      | some f =>
          let (reply, s) := f.answer webOta now o.toOutside r s
          (.reply reply, s)
  | .restart o b allocOk held =>
      let s := s.start o b allocOk held
      (.up (needSetup s.cfg), s)

/-- What is seen of a run, up to a restart into setup: that is another server. -/
def seen (webOta : Bool) : Server κ → List UnitEv → List Seen
  | _, [] => []
  | s, e :: es =>
      let (what, s) := unitStep webOta s e
      if what = .up true then [what] else what :: seen webOta s es

theorem alike_unitStep {webOta : Bool} {s t : Server κ} (h : AlikeServers s t) (e : UnitEv) :
    SameAnswer (unitStep webOta s e) (unitStep webOta t e) := by
  cases e with
  | request o now r =>
      simp only [unitStep]
      cases handlerOf webOta r with
      | none => exact ⟨rfl, h⟩
      | some f =>
          have hanswer := discreet webOta now f o r s t h
          exact ⟨congrArg Seen.reply hanswer.reply, hanswer.servers⟩
  | restart o b allocOk held =>
      have hup := h.start o b allocOk held
      simp only [unitStep]
      exact ⟨congrArg Seen.up (alike_needSetup hup.cfg), hup⟩

def tokenCfg (token : List UInt8) : Image := strlcpy (appConfigDefaults kconfigBoard) .tgToken token

def tokenServer (token : List UInt8) : Server Nat :=
  { guardedServer with cfg := tokenCfg token, stored := some (appConfigSave (tokenCfg token)) }

theorem tokenServers_alike :
    AlikeServers (tokenServer (ascii "1:AAAA")) (tokenServer (ascii "22:B")) := by
  have hwithin : ∀ token, ChangedWithin AppField.tgToken.span.Has (appConfigDefaults kconfigBoard)
      (tokenCfg token) := fun token => within_strlcpy (.refl _ _) (by decide) fun _ hk => hk
  have hrest : ∀ token k, Shown k → tokenCfg token k = appConfigDefaults kconfigBoard k :=
    fun token k hk => hwithin token k fun hin => not_shown (by decide) hin hk
  have hcfg : Alike (tokenCfg (ascii "1:AAAA")) (tokenCfg (ascii "22:B")) :=
    ⟨fun k hk => (hrest _ k hk).trans (hrest _ k hk).symm, by decide +kernel, by decide +kernel⟩
  exact ⟨hcfg, alike_load_save hcfg, rfl, rfl, rfl, rfl, rfl, rfl⟩

def quietNow : StatusNow where
  apIp := ascii "192.168.4.1"
  staIp := ascii "0.0.0.0"
  staGw := ascii "-"
  staDns := ascii "-"
  fallbackUp := false
  version := ascii "1.0.0"
  date := ascii "Jan  1 2025"
  time := ascii "00:00:00"
  upsStatus := []
  runtimeS := -1
  pveEnabled := false
  pveArmed := false
  onBatteryS := 0
  hosts := fun _ => ⟨[], false, false, false, -1, [], false, -1, []⟩

/-- The settings are looked at, the token is tried, and the unit restarted. -/
def tokenRun : List UnitEv :=
  [.request setupHardware quietNow { postOf "/api/config" [] with method := .get },
    .request setupHardware quietNow (postOf "/api/notify-test" (ascii "tg_chat=5")),
    .restart quietOutside kconfigBoard true false]

end NutBluetti.Web
