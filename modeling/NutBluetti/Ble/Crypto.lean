/-
  File:      NutBluetti/Ble/Crypto.lean
  Subject:   WHAT THE SESSION TAKES FROM OUTSIDE (bt_crypto.c and its caller): mbedTLS, the random
             numbers and the transmissions.

  MD5, AES, ECDSA and ECDH are uninterpreted: an `Env` is any choice of them, with the lengths the
  vendor library documents. A draw of random numbers is numbered, so that a run is a function of
  its inputs; so is a transmission. The CRC is the code's own and is computed here.
-/
import Mathlib.Algebra.Group.Int.Defs
import Mathlib.Algebra.GroupWithZero.Nat
import Mathlib.Data.List.Basic

namespace NutBluetti.Ble

/-- The outside of a session; `κ` is `bt_keypair_t`. -/
structure Env (κ : Type) where
  md5 : List UInt8 → List UInt8
  /-- `mbedtls_aes_setkey_enc/dec` and `mbedtls_aes_crypt_cbc`: key, IV, whole blocks. -/
  aesEncrypt : List UInt8 → List UInt8 → List UInt8 → Option (List UInt8)
  aesDecrypt : List UInt8 → List UInt8 → List UInt8 → Option (List UInt8)
  /-- `bt_ecdsa_verify_k2` of a message and a signature. -/
  ecdsaVerifyK2 : List UInt8 → List UInt8 → Bool
  /-- `bt_ecdsa_sign_l1` at a draw. -/
  ecdsaSignL1 : Nat → List UInt8 → Option (List UInt8)
  /-- `bt_keypair_new` at a draw. -/
  keypairNew : Nat → Option κ
  keypairPublic : κ → Option (List UInt8)
  /-- `bt_ecdh_shared`. The caller may hand it a null keypair; what comes of that is left open here,
      and the checked receive path stops there: the function works on the pointer it is handed. -/
  ecdhShared : Option κ → List UInt8 → Option (List UInt8)
  /-- The 4 bytes of `bt_random` at a draw. -/
  random : Nat → List UInt8
  /-- Whether the `n`-th transmission succeeds. -/
  txOk : Nat → Bool
  md5_length : ∀ d, (md5 d).length = 16
  aesEncrypt_length : ∀ k iv p c, aesEncrypt k iv p = some c → c.length = p.length
  aesDecrypt_length : ∀ k iv c p, aesDecrypt k iv c = some p → p.length = c.length
  random_length : ∀ n, (random n).length = 4

def btAesBlock : Nat := 16
def btP256Publen : Nat := 64
def btP256Siglen : Nat := 64

/-- `aes_cbc` in the two directions: the length has to be a multiple of the block. -/
def btAesCbcEncrypt {κ : Type} (env : Env κ) (key iv input : List UInt8) : Option (List UInt8) :=
  if input.length % btAesBlock ≠ 0 then none else env.aesEncrypt key iv input

def btAesCbcDecrypt {κ : Type} (env : Env κ) (key iv input : List UInt8) : Option (List UInt8) :=
  if input.length % btAesBlock ≠ 0 then none else env.aesDecrypt key iv input

/-- One bit of the CRC. -/
def crcBit (crc : UInt16) : UInt16 :=
  if crc &&& 1 = 1 then (crc >>> 1) ^^^ 0xA001 else crc >>> 1

/-- One byte of the CRC. -/
def crcByte (crc : UInt16) (b : UInt8) : UInt16 :=
  (List.range 8).foldl (fun crc _ => crcBit crc) (crc ^^^ b.toUInt16)

/-- `bt_crc16_modbus`. -/
def btCrc16Modbus (data : List UInt8) : UInt16 :=
  data.foldl crcByte 0xFFFF

/-- A toy to run examples with: MD5 pads or cuts to 16 bytes, AES leaves a block as it is, a
    signature is the first 64 bytes of what it signs, a keypair is a number. -/
def toyEnv : Env Nat where
  md5 := fun d => (d ++ List.replicate 16 0).take 16
  aesEncrypt := fun _ _ p => some p
  aesDecrypt := fun _ _ c => some c
  ecdsaVerifyK2 := fun msg sig => sig == msg.take btP256Siglen
  ecdsaSignL1 := fun _ msg => some (msg.take btP256Siglen)
  keypairNew := fun n => some n
  keypairPublic := fun k => some (List.replicate btP256Publen (UInt8.ofNat k))
  ecdhShared := fun kp peer => kp.map fun _ => peer.take 32
  random := fun _ => List.replicate 4 0
  txOk := fun _ => true
  md5_length := fun d => by simp
  aesEncrypt_length := fun _ _ _ _ h => by rw [Option.some.inj h]
  aesDecrypt_length := fun _ _ _ _ h => by rw [Option.some.inj h]
  random_length := fun _ => by simp

end NutBluetti.Ble
