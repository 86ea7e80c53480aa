/-
  File:      NutBluetti/Config/Secrets.lean
  Subject:   STORED PASSWORDS (app_config.c): a random salt and the salted SHA-256, for the admin
             login and for the NUT clients.

  `set_secret` and `check_secret` work on three members of the configuration; which ones is a
  parameter here.

  * `holds_setSecret` -- a password that is set is in its members;
  * `HoldsSecret.check_iff` -- the passwords that are then right.
-/
import NutBluetti.Config.Defaults

namespace NutBluetti.Config

open CLayout

/-- The members of a stored password. -/
structure SecretFields where
  salt : AppField
  hash : AppField
  isSet : AppField

def authSecret : SecretFields := ⟨.authSalt, .authHash, .authSet⟩

def nutSecret : SecretFields := ⟨.nutSalt, .nutHash, .nutAuthSet⟩

/-- A `bool` member. -/
def flag (img : Image) (f : AppField) : Bool := img f.span.start ≠ 0

section

variable (sha256 : List UInt8 → List UInt8)

/-- `set_secret`, with the salt `esp_fill_random` draws. -/
def setSecret (salt : List UInt8) (fs : SecretFields) (img : Image) (password : List UInt8) :
    Image :=
  if password = [] then
    let img := set img fs.salt (List.replicate 16 0)
    let img := set img fs.hash (List.replicate 32 0)
    set img fs.isSet [0]
  else
    let img := set img fs.salt salt
    let img := set img fs.hash (sha256 (salt ++ password))
    set img fs.isSet [1]

/-- `check_secret` of a password that is there. -/
def checkSecret (fs : SecretFields) (img : Image) (password : List UInt8) : Bool :=
  if !flag img fs.isSet then true
  else decide (sha256 (img.read fs.salt.span ++ password) = img.read fs.hash.span)

/-- `app_config_set_password`. -/
def appConfigSetPassword (salt : List UInt8) (img : Image) (password : List UInt8) : Image :=
  setSecret sha256 salt authSecret img password

/-- `app_config_check_password`. -/
def appConfigCheckPassword (img : Image) (password : List UInt8) : Bool :=
  checkSecret sha256 authSecret img password

/-- `app_config_check_nut_password`. -/
def appConfigCheckNutPassword (img : Image) (password : List UInt8) : Bool :=
  checkSecret sha256 nutSecret img password

end

/-! ## What is stored -/

/-- The members have the sizes of a salt, a hash and a `bool`, and no two are the same. -/
structure SecretFields.Proper (fs : SecretFields) : Prop where
  salt : fs.salt.span.size = 16
  hash : fs.hash.span.size = 32
  isSet : fs.isSet.span.size = 1
  apart : fs.salt ≠ fs.hash ∧ fs.salt ≠ fs.isSet ∧ fs.hash ≠ fs.isSet

theorem authSecret_proper : authSecret.Proper := ⟨by decide, by decide, by decide, by decide⟩

theorem nutSecret_proper : nutSecret.Proper := ⟨by decide, by decide, by decide, by decide⟩

/-- The salt and the hash of a password are in the members. -/
structure HoldsSecret (sha256 : List UInt8 → List UInt8) (fs : SecretFields) (img : Image)
    (salt password : List UInt8) : Prop where
  isSet : img.read fs.isSet.span = [1]
  salted : img.read fs.salt.span = salt
  hashed : img.read fs.hash.span = sha256 (salt ++ password)

section HoldsSecret

variable {sha256 : List UInt8 → List UInt8} {fs : SecretFields} {salt password : List UInt8}

/-- **A password that is set is held.** -/
theorem holds_setSecret (hfs : fs.Proper) (hsalt : salt.length = 16)
    (hsha : ∀ m, (sha256 m).length = 32) (img : Image) (h : password ≠ []) :
    HoldsSecret sha256 fs (setSecret sha256 salt fs img password) salt password := by
  obtain ⟨hsh, hss, hhs⟩ := hfs.apart
  have hone : [(1 : UInt8)].length = fs.isSet.span.size := hfs.isSet.symm
  have hhash : (sha256 (salt ++ password)).length = fs.hash.span.size :=
    (hsha _).trans hfs.hash.symm
  unfold setSecret
  rw [if_neg h]
  refine ⟨read_set_self _ hone, ?_, ?_⟩
  · rw [read_set_other _ (Nat.le_of_eq hone) hss,
      read_set_other _ (Nat.le_of_eq hhash) hsh]
    exact read_set_self _ (hsalt.trans hfs.salt.symm)
  · rw [read_set_other _ (Nat.le_of_eq hone) hhs]
    exact read_set_self _ hhash

theorem read_setSecret_other (hfs : fs.Proper) (hsalt : salt.length = 16)
    (hsha : ∀ m, (sha256 m).length = 32) (img : Image) (h : password ≠ []) {f : AppField}
    (hf : f ≠ fs.salt ∧ f ≠ fs.hash ∧ f ≠ fs.isSet) :
    (setSecret sha256 salt fs img password).read f.span = img.read f.span := by
  have hone : [(1 : UInt8)].length = fs.isSet.span.size := hfs.isSet.symm
  have hhash : (sha256 (salt ++ password)).length = fs.hash.span.size :=
    (hsha _).trans hfs.hash.symm
  unfold setSecret
  rw [if_neg h, read_set_other _ (Nat.le_of_eq hone) hf.2.2,
    read_set_other _ (Nat.le_of_eq hhash) hf.2.1,
    read_set_other _ (Nat.le_of_eq (hsalt.trans hfs.salt.symm)) hf.1]

theorem HoldsSecret.flag_eq {img : Image} (h : HoldsSecret sha256 fs img salt password)
    (hfs : fs.Proper) :
    flag img fs.isSet = true := by
  have hbyte := h.isSet
  rw [read_byte img hfs.isSet] at hbyte
  have hone : img fs.isSet.span.start = 1 := List.singleton_inj.mp hbyte
  unfold flag
  rw [hone]
  rfl

/-- A password is right if it hashes to what is held. -/
theorem HoldsSecret.check_iff {img : Image} (h : HoldsSecret sha256 fs img salt password)
    (hfs : fs.Proper)
    (tried : List UInt8) :
    checkSecret sha256 fs img tried = true ↔
    sha256 (salt ++ tried) = sha256 (salt ++ password) := by
  unfold checkSecret
  rw [h.flag_eq hfs, h.salted, h.hashed]
  exact decide_eq_true_iff

end HoldsSecret

end NutBluetti.Config
