import Mathlib.GroupTheory.OrderOfElement
import PttaiCore.Lib.BigBytes
import PttaiCore.OplogSign

/-! # Deriving keys -/

namespace PttaiCore

def secp256k1N : Nat := 0xFFFFFFFFFFFFFFFFFFFFFFFFFFFFFFFEBAAEDCE6AF48A03BBFD25E8CD0364141

structure Secp256k1 where
  Point : Type
  [group : AddCommGroup Point]
  G : Point
  x : Point → Nat
  y : Point → Nat
  /-- The point on the curve with two coordinates. -/
  ofCoordinates : Nat → Nat → Option Point
  addOrderOf_G : addOrderOf G = secp256k1N
  coordinates (P : Point) : P ≠ 0 → (0 < x P ∧ x P < 256 ^ 32) ∧ 0 < y P ∧ y P < 256 ^ 32
  ofCoordinates_eq (P : Point) : P ≠ 0 → ofCoordinates (x P) (y P) = some P

attribute [instance] Secp256k1.group

structure PrivateKey where
  d : Nat
  valid : 0 < d ∧ d < secp256k1N

structure KeyScheme extends Secp256k1 where
  hmacSha512 : Bytes → Bytes → ByteArrayOf 64
  keccak256Hash : Bytes → ByteArrayOf 32
  cryptoSign : Bytes → Bytes → Bytes
  verifySignature : Bytes → Bytes → Bytes → Bool
  expireOplogSeconds : Int64
  verify_sign (k : PrivateKey) (hash : ByteArrayOf 32) : 64 ≤ (cryptoSign hash.1 (Bytes.be 32 k.d)).length ∧
    verifySignature (4 :: (Bytes.be 32 (x (k.d • G)) ++ Bytes.be 32 (y (k.d • G)))) hash.1
      ((cryptoSign hash.1 (Bytes.be 32 k.d)).take 64) = true

structure ExtendedKey where
  key : Bytes
  chainCode : Bytes
  childNum : UInt32
  isPrivate : Bool
  deriving DecidableEq

namespace KeyScheme

variable (K : KeyScheme)

/-! ## Keys as bytes -/

def fromECDSA (k : PrivateKey) : Bytes := Bytes.be 32 k.d

def toECDSA (b : Bytes) : Option PrivateKey :=
  if b.length ≠ 32 then none
  else if h : 0 < Bytes.ofBE b ∧ Bytes.ofBE b < secp256k1N then some ⟨Bytes.ofBE b, h⟩
  else none

def publicKey (k : PrivateKey) : K.Point := k.d • K.G

def fromECDSAPub (P : K.Point) : Bytes := 4 :: (Bytes.be 32 (K.x P) ++ Bytes.be 32 (K.y P))

def unmarshalPubkey (b : Bytes) : Option K.Point :=
  if b.length = 65 ∧ b.head? = some 4 then K.ofCoordinates (Bytes.ofBE (b.tail.take 32)) (Bytes.ofBE (b.tail.drop 32)) else none

/-! ## Extended keys -/

def privKeyToExtKey (k : PrivateKey) (chainCode : Bytes) : ExtendedKey := ⟨fromECDSA k, chainCode, 0, true⟩

def pubKeyToExtKey (P : K.Point) (chainCode : Bytes) : ExtendedKey := ⟨K.fromECDSAPub P, chainCode, 0, false⟩

def pubkeyBytes (k : ExtendedKey) : Except Err Bytes :=
  if !k.isPrivate then .ok k.key
  else match toECDSA k.key with
    | none => .error .panic
    | some key => .ok (K.fromECDSAPub (K.publicKey key))

def child (k : ExtendedKey) (idx : UInt32) : Except Err ExtendedKey :=
  match K.pubkeyBytes k with
  | .error e => .error e
  | .ok pubBytes =>
    if pubBytes.length < 33 then .error .panic
    else
      let ilr := (K.hmacSha512 k.chainCode (pubBytes.take 33 ++ Bytes.be 4 idx.toNat)).1
      let ilNum := Bytes.ofBE (ilr.take 32)
      let childChainCode := ilr.drop 32
      if secp256k1N ≤ ilNum ∨ ilNum = 0 then .error .invalidChild
      else if k.isPrivate then
        let childKey := Bytes.minimal ((ilNum + Bytes.ofBE k.key) % secp256k1N)
        if childKey.length * 8 ≠ 256 then .error .invalidChild
        else .ok ⟨childKey, childChainCode, idx, true⟩
      else
        let il := ilNum • K.G
        if K.x il = 0 ∨ K.y il = 0 then .error .invalidChild
        else match K.unmarshalPubkey k.key with
          | none => .error .invalidKey
          | some pubKey => .ok ⟨K.fromECDSAPub (il + pubKey), childChainCode, idx, false⟩

def derive (k : ExtendedKey) : List UInt32 → Except Err ExtendedKey
  | [] => .ok k
  | idx :: path =>
    match K.child k idx with
    | .error e => .error e
    | .ok c => derive c path

/-! ## Signing keys -/

def bip32Key (masterKey : PrivateKey) (idx : UInt32) (newSalt : Except Err Salt) : Except Err (ExtendedKey × Salt) :=
  match newSalt with
  | .error e => .error e
  | .ok salt =>
    match K.child (privKeyToExtKey masterKey salt.1) idx with
    | .error e => .error e
    | .ok key => .ok (key, salt)

def maxIterDeriveKeyBIP32 : Nat := 10

def deriveKeyBIP32From (masterKey : PrivateKey) (newSalt : Nat → Except Err Salt) : (left idx : Nat) → Err → Except Err (ExtendedKey × KeyBIP32)
  | 0, _, err => .error err
  | left + 1, idx, _ =>
    match K.bip32Key masterKey (UInt32.ofNat idx) (newSalt idx) with
    | .error e => deriveKeyBIP32From masterKey newSalt left (idx + 1) e
    | .ok (key, salt) => .ok (key, ⟨K.fromECDSAPub (K.publicKey masterKey), some salt, UInt32.ofNat idx⟩)

def deriveKeyBIP32 (masterKey : PrivateKey) (newSalt : Nat → Except Err Salt) : Except Err (ExtendedKey × KeyBIP32) :=
  K.deriveKeyBIP32From masterKey newSalt maxIterDeriveKeyBIP32 0 .invalidChild

def toPrivkey (k : ExtendedKey) : Except Err PrivateKey :=
  if !k.isPrivate then .error .invalidKey
  else match toECDSA k.key with
    | none => .error .invalidKey
    | some key => .ok key

def newKeyInfo (extendedKey : ExtendedKey) (extra : Option KeyBIP32) : Except Err KeyInfo :=
  match toPrivkey extendedKey, K.pubkeyBytes extendedKey with
  | .error e, _ => .error e
  | .ok _, .error e => .error e
  | .ok privKey, .ok pubBytes => .ok ⟨fromECDSA privKey, pubBytes, extra⟩

def newSignKeyInfo (masterKey : PrivateKey) (newSalt : Nat → Except Err Salt) : Except Err KeyInfo :=
  match K.deriveKeyBIP32 masterKey newSalt with
  | .error e => .error e
  | .ok (key, extra) => K.newKeyInfo key (some extra)

/-! ## The context of the keys -/

def isSamePubKey (P : K.Point) (id : PttID) : Bool :=
  id.1.take 20 == ((K.keccak256Hash (K.fromECDSAPub P).tail).1.drop 12)

def toCtx : Ctx where
  keccak256Hash := K.keccak256Hash
  cryptoSign := K.cryptoSign
  verifySignature := K.verifySignature
  isSamePubKey pubBytes id :=
    match K.unmarshalPubkey pubBytes with
    | none => false
    | some P => K.isSamePubKey P id
  childPubKey parent salt idx :=
    match K.unmarshalPubkey parent with
    | none => none
    | some P =>
      match K.child (K.pubKeyToExtKey P salt.1) idx with
      | .error _ => none
      | .ok c => some c.key
  expireOplogSeconds := K.expireOplogSeconds

end KeyScheme

end PttaiCore
