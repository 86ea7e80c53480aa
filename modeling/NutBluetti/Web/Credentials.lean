/-
  File:      NutBluetti/Web/Credentials.lean
  Subject:   THE ADMIN LOGIN, FROM THE FORM THAT SETS IT TO THE FORM THAT ASKS FOR IT. Both decode a
             field into a buffer and hash what fits: 127 bytes where the password is set, 79 where
             it is asked for.

  * `formText_take` -- what a buffer keeps of a field is the start of the text that was typed,
    however the text is encoded;
  * `accepted_hash` -- what a form that was accepted leaves in the configuration;
  * **`signs_in_iff`** -- the login form takes a password just as it was set if and only if it has
    at most 79 bytes;
  * **`long_password_locks_out`** -- 80 letters are accepted and never work.
-/
import NutBluetti.Web.Portal
import NutBluetti.Web.Routes

namespace NutBluetti.Web

open CLayout
open NutBluetti.Config

variable {κ : Type}

/-! ## 1. Decoding -/

/-- A character takes three bytes at most, so the end of a text that is cut does not show at its
    start. -/
theorem urlDecode_take {n m : Nat} (v : List UInt8) (h : 3 * n ≤ m) :
    urlDecode n (v.take m) = urlDecode n v := by
  induction n generalizing m v with
  | zero => simp only [urlDecode]
  | succ n ih =>
      obtain ⟨k, rfl⟩ : ∃ k, m = k + 3 := ⟨m - 3, by omega⟩
      have hrest := fun rest => ih (m := k + 2) rest (by omega)
      have hmore := fun more => ih (m := k) more (by omega)
      match v with
      | [] => rfl
      | [c] => rfl
      | [c, d] => rfl
      | c :: d :: e :: more =>
          have hcons := hrest (d :: e :: more)
          simp only [List.take_succ_cons] at hcons ⊢
          simp only [urlDecode, hcons, hmore]

/-- More room changes nothing before it. -/
theorem take_urlDecode {n k : Nat} (v : List UInt8) (h : n ≤ k) :
    (urlDecode k v).take n = urlDecode n v := by
  induction n generalizing k v with
  | zero => simp only [urlDecode, List.take_zero]
  | succ n ih =>
      obtain ⟨k, rfl⟩ : ∃ j, k = j + 1 := ⟨k - 1, by omega⟩
      have hrec := fun rest => ih (k := k) rest (by omega)
      match v with
      | [] => rfl
      | c :: rest =>
          simp only [urlDecode]
          split
          · simp only [List.take_succ_cons, hrec]
          · split
            · split
              · split
                · simp only [List.take_succ_cons, hrec]
                · simp only [List.take_succ_cons, hrec]
              · simp only [List.take_succ_cons, hrec]
            · simp only [List.take_succ_cons, hrec]

theorem length_urlDecode_le (k : Nat) (v : List UInt8) : (urlDecode k v).length ≤ v.length := by
  fun_induction urlDecode k v <;> simp only [List.length_nil, List.length_cons] at * <;> omega

theorem length_urlDecode_le_room (k : Nat) (v : List UInt8) : (urlDecode k v).length ≤ k := by
  fun_induction urlDecode k v <;> simp only [List.length_nil, List.length_cons] at * <;> omega

/-- The start of a text that was decoded with all the room it needs. -/
theorem take_urlDecode_whole (n : Nat) (v : List UInt8) :
    (urlDecode v.length v).take n = urlDecode n v := by
  rcases Nat.le_total n v.length with h | h
  · exact take_urlDecode v h
  · have hwhole : urlDecode v.length v = urlDecode n v := by
      rw [← take_urlDecode v h, List.take_of_length_le (length_urlDecode_le n v)]
    rw [hwhole, List.take_of_length_le (length_urlDecode_le_room n v)]

/-! ## 2. What was typed -/

/-- The value of a field as it was sent. -/
def formRaw (body : List UInt8) (key : String) : Option (List UInt8) :=
  ((cstr body).splitOn (chr '&')).findSome? (formPart (ascii key))

/-- The text typed into a field: all of it, before any buffer. -/
def typedText (body : List UInt8) (key : String) : List UInt8 :=
  cstr (((formRaw body key).map fun v => urlDecode v.length v).getD [])

/-- Two texts that start alike are the same if one of them ends there. -/
theorem eq_of_take_eq {α : Type} {n : Nat} {l l' : List α} (h : l.take n = l'.take n)
    (hlen : l'.length < n) : l = l' := by
  have hl : l.length < n := by
    have hlengths := congrArg List.length h
    rw [List.length_take, List.length_take] at hlengths
    omega
  rw [List.take_of_length_le (Nat.le_of_lt hl), List.take_of_length_le (Nat.le_of_lt hlen)] at h
  exact h

/-- **A buffer keeps the start of what was typed**: `sizeof tmp` bytes hold 85 characters, whatever
    the browser encodes. -/
theorem formText_take {outsz n : Nat} (body : List UInt8) (key : String) (hout : n ≤ outsz - 1)
    (htmp : 3 * n ≤ formTmpSz - 1) :
    (formText body key outsz).take n = (typedText body key).take n := by
  have hget : formGet body key outsz =
      (formRaw body key).map fun v => urlDecode (outsz - 1) (v.take (formTmpSz - 1)) := rfl
  unfold formText typedText cstr
  rw [hget, List.take_takeWhile, List.take_takeWhile]
  cases formRaw body key with
  | none => rfl
  | some v =>
      simp only [Option.map_some, Option.getD_some]
      rw [take_urlDecode _ hout, urlDecode_take v htmp, take_urlDecode_whole]

/-- A text that was typed and is shorter than that is kept whole. -/
theorem formText_eq {outsz n : Nat} {body : List UInt8} {key : String} (hout : n ≤ outsz - 1)
    (htmp : 3 * n ≤ formTmpSz - 1) (hlen : (typedText body key).length < n) :
    formText body key outsz = typedText body key :=
  eq_of_take_eq (formText_take body key hout htmp) hlen

theorem length_formGet_le {body : List UInt8} {key : String} {outsz : Nat} :
    ((formGet body key outsz).getD []).length ≤ outsz - 1 := by
  unfold formGet
  cases ((cstr body).splitOn (chr '&')).findSome? (formPart (ascii key)) with
  | none => exact Nat.zero_le _
  | some v => exact length_urlDecode_le_room _ _

theorem length_formText_le {body : List UInt8} {key : String} {outsz : Nat} :
    (formText body key outsz).length ≤ outsz - 1 :=
  Nat.le_trans (length_cstr_le _) length_formGet_le

/-- What a buffer of up to 86 bytes keeps. -/
theorem formText_eq_take {outsz : Nat} (body : List UInt8) (key : String)
    (htmp : 3 * (outsz - 1) ≤ formTmpSz - 1) :
    formText body key outsz = (typedText body key).take (outsz - 1) := by
  rw [← formText_take body key (Nat.le_refl _) htmp, List.take_of_length_le length_formText_le]

/-- The login form reads the password that was set if and only if it has at most 79 bytes. -/
theorem same_password_iff {body body' : List UInt8} {key key' : String}
    (h : typedText body' key' = typedText body key) :
    formText body' key' 80 = formText body key 128 ↔ (typedText body key).length ≤ 79 := by
  have hlogin : formText body' key' 80 = (typedText body key).take 79 := by
    rw [formText_eq_take body' key' (by decide), h]
  rw [hlogin]
  constructor
  · intro heq
    have hcut : (formText body key 128).take 85 = (typedText body key).take 85 :=
      formText_take body key (by decide) (by decide)
    rw [← heq, List.take_take] at hcut
    have hlengths := congrArg List.length hcut
    rw [List.length_take, List.length_take] at hlengths
    omega
  · intro hlen
    rw [List.take_of_length_le hlen]
    exact (formText_eq (n := 85) (by decide) (by decide) (by omega)).symm

/-! ## 3. What is stored -/

/-- The members that decide who may sign in. -/
def loginFields : List AppField := [.authUser, .authSalt, .authHash, .authSet]

/-- Two configurations let in the same users with the same passwords. -/
def SameLogin (a b : Image) : Prop := ∀ f ∈ loginFields, a.read f.span = b.read f.span

theorem SameLogin.trans {a b c : Image} (h₁ : SameLogin a b) (h₂ : SameLogin b c) : SameLogin a c :=
  fun f hf => (h₁ f hf).trans (h₂ f hf)

/-- An assignment to any other member. -/
theorem sameLogin_set (img : Image) {f : AppField} {value : List UInt8}
    (hlen : value.length ≤ f.span.size) (hf : f ∉ loginFields) : SameLogin (set img f value) img :=
  fun _ hg => read_set_other img hlen fun heq => hf (heq ▸ hg)

theorem sameLogin_intoText (body : List UInt8) (key : String) (img : Image) {f : AppField}
    (hpos : 0 < f.span.size) (hf : f ∉ loginFields) :
    SameLogin (intoText body key f img) img := by
  refine sameLogin_set img ?_ hf
  have hlen : ((formGet body key f.span.size).getD []).length ≤ f.span.size - 1 := length_formGet_le
  rw [List.length_append, List.length_singleton]
  omega

theorem sameLogin_defaultSsid (o : Outside) (img : Image) {f : AppField} (hpos : 0 < f.span.size)
    (hf : f ∉ loginFields) : SameLogin (defaultSsid o f img) img := by
  unfold defaultSsid
  split
  · refine sameLogin_set img ?_ hf
    rw [List.length_append, List.length_singleton, fitBytes, List.length_take]
    omega
  · exact fun _ _ => rfl

/-- A restart keeps the login. -/
theorem sameLogin_load_save (b : Board) (cfg : Image) :
    SameLogin (appConfigLoad b (some (appConfigSave cfg)) true) cfg := by
  intro f hf
  refine load_save b cfg ?_
  rintro rfl
  exact absurd hf (by decide)

/-- The salt and the hash of a password are stored. -/
structure Stores (o : Outside) (cfg : Image) (pass : List UInt8) : Prop where
  isSet : cfg.read AppField.authSet.span = [1]
  salt : cfg.read AppField.authSalt.span = o.salt
  hash : cfg.read AppField.authHash.span = o.sha256 (o.salt ++ pass)

theorem Stores.congr {o : Outside} {a b : Image} {pass : List UInt8} (h : Stores o b pass)
    (hsame : SameLogin a b) : Stores o a pass :=
  ⟨(hsame _ (by decide)).trans h.isSet, (hsame _ (by decide)).trans h.salt,
    (hsame _ (by decide)).trans h.hash⟩

section

variable {o : Outside} (hsalt : o.salt.length = 16) (hsha : ∀ m, (o.sha256 m).length = 32)

include hsalt hsha

/-- Setting a password stores it. -/
theorem stores_setCredentials (cfg : Image) (user : List UInt8) {pass : List UInt8}
    (h : pass ≠ []) :
    Stores o (setCredentials o cfg user pass) pass := by
  have hholds := holds_setSecret authSecret_proper hsalt hsha
    (strlcpy cfg .authUser (if user = [] then ascii "admin" else user)) h
  exact ⟨hholds.isSet, hholds.salted, hholds.hashed⟩

end

/-- A password is right if it hashes to what is stored. -/
theorem checkPassword_iff {o : Outside} {cfg : Image} {pass : List UInt8} (h : Stores o cfg pass)
    (tried : List UInt8) :
    appConfigCheckPassword o.sha256 cfg tried = true ↔
      o.sha256 (o.salt ++ tried) = o.sha256 (o.salt ++ pass) := by
  have hholds : HoldsSecret o.sha256 authSecret cfg o.salt pass := ⟨h.isSet, h.salt, h.hash⟩
  exact hholds.check_iff authSecret_proper tried

/-! ## 4. A form that was accepted -/

/-- A form that sets the admin login was accepted: its body, and the configuration it leaves. As a
    station that is so once `prov_connect` has joined the network. -/
inductive Accepted (κ : Type) (o : Outside) (body : List UInt8) : Image → Prop where
  | credentials {r : Request} {s : Server κ} (hbody : readBody o r 1 1024 true = .ok body)
      (hok : (hAdminCredentials o r s).1.status = .ok) :
      Accepted κ o body (hAdminCredentials o r s).2.cfg
  | provisionAp {r : Request} {p : Portal κ} (hbody : readBody o r 1 2048 true = .ok body)
      (hap : asksForAp body) (hok : (hProvision o r p).1.status = .ok) :
      Accepted κ o body (hProvision o r p).2.server.cfg
  | provisionStation {r : Request} {p : Portal κ} {o₁ : Outside}
      (hbody : readBody o r 1 2048 true = .ok body) (hsta : ¬ asksForAp body)
      (hok : (hProvision o r p).1.status = .ok) :
      Accepted κ o body (connectTask o₁ .ok (hProvision o r p).2).server.cfg

/-- What an accepted form leaves: the login of its fields, however much else of the configuration it
    sets. -/
def LeavesLogin (o : Outside) (body : List UInt8) (cfg : Image) : Prop :=
  formText body "auth_pass" 128 ≠ [] ∧ ∃ before,
    SameLogin cfg (setCredentials o before (formText body "auth_user" 33)
      (formText body "auth_pass" 128))

theorem hAdminCredentials_leaves {o : Outside} {r : Request} {s : Server κ} {body : List UInt8}
    (hbody : readBody o r 1 1024 true = .ok body)
    (hok : (hAdminCredentials o r s).1.status = .ok) :
    LeavesLogin o body (hAdminCredentials o r s).2.cfg := by
  unfold hAdminCredentials requireAuth withBody at hok ⊢
  simp only [hbody] at hok ⊢
  cases hauth : (authOk o r s).1 with
  | false =>
      rw [hauth] at hok
      cases hok
  | true =>
      simp only [hauth, Bool.not_true, Bool.false_eq_true, if_false] at hok ⊢
      split at hok
      · cases hok
      · rename_i hcur
        rw [if_neg hcur]
        split at hok
        · cases hok
        · rename_i hpass
          rw [if_neg hpass]
          refine ⟨hpass, (authOk o r s).2.cfg, ?_⟩
          -- the reply depends on whether it was stored, the configuration does not
          simp only [apply_ite Prod.snd, ite_self]
          exact fun _ _ => rfl

theorem provisionAp_leaves {o : Outside} {body : List UInt8} {pending : Image} {p : Portal κ}
    (hok : (provisionAp o body pending p).1.status = .ok) :
    SameLogin (provisionAp o body pending p).2.server.cfg pending := by
  unfold provisionAp at hok ⊢
  dsimp only at hok ⊢
  split at hok
  · cases hok
  · rename_i hshort
    rw [if_neg hshort]
    have hcfg : SameLogin (set (defaultSsid o .apSsid (intoText body "ap_pass" .apPass
        (intoText body "ap_ssid" .apSsid (set pending .wifiMode [1])))) .provisioned [1]) pending :=
      (sameLogin_set _ (by decide) (by decide)).trans <|
        (sameLogin_defaultSsid o _ (by decide) (by decide)).trans <|
        (sameLogin_intoText body _ _ (by decide) (by decide)).trans <|
        (sameLogin_intoText body _ _ (by decide) (by decide)).trans <|
        sameLogin_set pending (by decide) (by decide)
    split <;> exact hcfg

theorem provisionStation_leaves {o o₁ : Outside} {body : List UInt8} {pending : Image}
    {p : Portal κ}
    (hok : (provisionStation o body pending p).1.status = .ok) :
    SameLogin (connectTask o₁ .ok (provisionStation o body pending p).2).server.cfg pending := by
  unfold provisionStation at hok ⊢
  dsimp only at hok ⊢
  split at hok
  · cases hok
  · rename_i hssid
    rw [if_neg hssid]
    exact (sameLogin_set _ (by decide) (by decide)).trans <|
      (sameLogin_intoText body _ _ (by decide) (by decide)).trans <|
      (sameLogin_intoText body _ _ (by decide) (by decide)).trans <|
      sameLogin_set pending (by decide) (by decide)

/-- An accepted form leaves its login. -/
theorem accepted_leaves {o : Outside} {body : List UInt8} {cfg : Image}
    (h : Accepted κ o body cfg) : LeavesLogin o body cfg := by
  cases h with
  | credentials hbody hok => exact hAdminCredentials_leaves hbody hok
  | @provisionAp r p hbody hap hok =>
      unfold hProvision at hok ⊢
      simp only [hbody] at hok ⊢
      split at hok
      · cases hok
      · rename_i hpass
        rw [if_neg hpass]
        rw [if_pos hap]
        exact ⟨hpass, p.server.cfg, provisionAp_leaves hok⟩
  | @provisionStation r p o₁ hbody hsta hok =>
      unfold hProvision at hok ⊢
      simp only [hbody] at hok ⊢
      split at hok
      · cases hok
      · rename_i hpass
        rw [if_neg hpass]
        rw [if_neg hsta]
        exact ⟨hpass, p.server.cfg, provisionStation_leaves hok⟩

/-! ## 5. Signing in -/

/-- `h_login` answers with a cookie, for a session it has made. -/
def SignsIn (o : Outside) (r : Request) (s : Server κ) : Prop :=
  (hLogin o r s).1.status = .ok ∧ (hLogin o r s).2.sessions = sessionNew s.sessions o.token o.nowUs

/-- The body of a post arrives. -/
structure Posted (o : Outside) (r : Request) (body : List UInt8) : Prop where
  alloc : o.alloc 0 = true
  length : r.contentLen = body.length
  received : recvLoop r.contentLen r.recv = some body

/-- Whom the login form lets in. -/
theorem signsIn_iff {o : Outside} {r : Request} {body : List UInt8} (h : Posted o r body)
    (hne : body ≠ []) (s : Server κ) :
    SignsIn o r s ↔ body.length ≤ 512 ∧ formText body "user" 40 = text s.cfg .authUser ∧
      appConfigCheckPassword o.sha256 s.cfg (formText body "pass" 80) = true := by
  have hpos : ¬ r.contentLen < 1 := by
    rw [h.length]
    exact Nat.not_lt.mpr (List.length_pos_iff.mpr hne)
  unfold SignsIn hLogin withBody readBody
  rw [h.received, h.alloc]
  by_cases hlen : body.length ≤ 512
  · have hfits : ¬ (r.contentLen < 1 ∨ 512 < r.contentLen) := by
      rw [h.length] at hpos ⊢
      omega
    simp only [hfits, if_false, Bool.not_true, Bool.and_false, Bool.false_eq_true, hlen, true_and]
    by_cases hin : formText body "user" 40 = text s.cfg .authUser ∧
        appConfigCheckPassword o.sha256 s.cfg (formText body "pass" 80) = true
    · simp only [hin, and_self, if_true]
    · refine iff_of_false ?_ hin
      rw [if_neg hin]
      rintro ⟨hstatus, -⟩
      cases hstatus
  · have hlong : r.contentLen < 1 ∨ 512 < r.contentLen := by
      rw [h.length]
      omega
    simp only [hlong, if_true, hlen, false_and, iff_false]
    rintro ⟨hstatus, -⟩
    cases hstatus

/-- **When a password that was accepted works.** The login form is posted with the user name that
    was stored and the password that was typed, and nothing has set another login since: it signs
    in, and both forms hash the same string, if and only if the password has at most 79 bytes and
    the login form at most 512. -/
theorem signs_in_iff {o o' : Outside} {body body' : List UInt8} {cfg : Image} {r' : Request}
    {s' : Server κ} (hsalt : o.salt.length = 16) (hsha : ∀ m, (o.sha256 m).length = 32)
    (hsame : o'.sha256 = o.sha256) (hset : Accepted κ o body cfg) (hkept : SameLogin s'.cfg cfg)
    (hpost : Posted o' r' body') (huser : typedText body' "user" = text cfg .authUser)
    (hpass : typedText body' "pass" = typedText body "auth_pass") :
    SignsIn o' r' s' ∧ formText body' "pass" 80 = formText body "auth_pass" 128 ↔
      (typedText body "auth_pass").length ≤ 79 ∧ body'.length ≤ 512 := by
  obtain ⟨hgiven, before, hlogin⟩ := accepted_leaves hset
  have hstores : Stores o s'.cfg (formText body "auth_pass" 128) :=
    (stores_setCredentials hsalt hsha before _ hgiven).congr (hkept.trans hlogin)
  have hne : body' ≠ [] := by
    rintro rfl
    have hempty : typedText body "auth_pass" = [] := hpass.symm.trans rfl
    refine hgiven (formText_eq (n := 1) (by decide) (by decide) ?_ |>.trans hempty)
    rw [hempty]
    exact Nat.one_pos
  -- a name that was stored fits in the buffer of the login form
  have hname : formText body' "user" 40 = text s'.cfg .authUser := by
    have hcfg : text s'.cfg .authUser = text cfg .authUser :=
      congrArg cstr (hkept .authUser (by decide))
    have hlen : (text cfg .authUser).length ≤ 33 :=
      Nat.le_trans (length_cstr_le _)
        (by simp only [Image.read, List.length_map, List.length_range]; decide)
    rw [formText_eq (n := 39) (by decide) (by decide) (by rw [huser]; omega), huser, hcfg]
  rw [signsIn_iff hpost hne, hsame, checkPassword_iff hstores, same_password_iff hpass]
  constructor
  · rintro ⟨⟨hlen, -, -⟩, hshort⟩
    exact ⟨hshort, hlen⟩
  · rintro ⟨hshort, hlen⟩
    exact ⟨⟨hlen, hname, by rw [(same_password_iff hpass).mpr hshort]⟩, hshort⟩

section Setup

/-- The setup form, as an access point, and the login form. -/
def setupForm (pass : List UInt8) : List UInt8 := ascii "wifi_mode=ap&auth_pass=" ++ pass

def loginForm (pass : List UInt8) : List UInt8 := ascii "user=admin&pass=" ++ pass

def postOf (path : String) (body : List UInt8) : Request where
  method := .post
  path := path
  query := none
  cookie := none
  confirm := none
  contentLen := body.length
  recv := [.data body]

/-- A hash that tells texts of different lengths apart. -/
def setupOutside : Outside :=
  { quietOutside with sha256 := fun m => List.replicate 31 0 ++ [UInt8.ofNat m.length] }

/-- A unit out of the box. -/
def freshPortal : Portal Nat where
  server := { guardedServer with cfg := appConfigDefaults kconfigBoard }
  pending := fun _ => 0
  state := .idle
  detail := []
  done := false
  tasks := 0

/-- The unit after its setup with a password. -/
def setUp (pass : List UInt8) : Server Nat :=
  (hProvision setupOutside (postOf "/api/provision" (setupForm pass)) freshPortal).2.server

def sixLetters : List UInt8 := ascii "secret"

def eightyLetters : List UInt8 := List.replicate 80 (chr 'a')

/-- `signs_in_iff` for a short password. -/
theorem signs_in_iff_sixLetters :
    SignsIn setupOutside (postOf "/api/login" (loginForm sixLetters)) (setUp sixLetters) ∧
        formText (loginForm sixLetters) "pass" 80 =
        formText (setupForm sixLetters) "auth_pass" 128 ↔
      (typedText (setupForm sixLetters) "auth_pass").length ≤ 79 ∧
        (loginForm sixLetters).length ≤ 512 :=
  signs_in_iff (by decide) (fun _ => rfl) rfl
    (.provisionAp (p := freshPortal) (r := postOf "/api/provision" (setupForm sixLetters)) rfl
      (by decide) (by decide))
    (fun _ _ => rfl) ⟨rfl, rfl, by decide⟩ (by decide) (by decide)

/-- **A long password locks the owner out**: the setup accepts 80 letters, and the login form
    refuses them. -/
theorem long_password_locks_out :
    Accepted Nat setupOutside (setupForm eightyLetters) (setUp eightyLetters).cfg ∧
      Posted setupOutside (postOf "/api/login" (loginForm eightyLetters))
        (loginForm eightyLetters) ∧
      typedText (loginForm eightyLetters) "user" = text (setUp eightyLetters).cfg .authUser ∧
      typedText (loginForm eightyLetters) "pass" = typedText (setupForm eightyLetters) "auth_pass" ∧
      formText (loginForm eightyLetters) "pass" 80 ≠
        formText (setupForm eightyLetters) "auth_pass" 128 ∧
      (hLogin setupOutside (postOf "/api/login" (loginForm eightyLetters))
        (setUp eightyLetters)).1.status = .unauthorized := by
  refine ⟨.provisionAp (p := freshPortal) (r := postOf "/api/provision" (setupForm eightyLetters))
    rfl
      (by decide) (by decide),
    ⟨rfl, rfl, by decide⟩, by decide, by decide, by decide,
    by decide +kernel⟩

end Setup

end NutBluetti.Web
