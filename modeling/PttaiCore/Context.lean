import PttaiCore.Types

/-! # The context: hash, signatures, keys -/

namespace PttaiCore

structure Ctx where
  keccak256Hash : Bytes → ByteArrayOf 32
  /-- The signature of a hash with a private key. -/
  cryptoSign : Bytes → Bytes → Bytes
  /-- Whether the first 64 bytes of a signature are one of the hash with the private key of a public key. -/
  verifySignature : Bytes → Bytes → Bytes → Bool
  /-- Whether the bytes are a public key whose address is the first part of the identifier. -/
  isSamePubKey : Bytes → PttID → Bool
  /-- The public key derived from a parent's, a salt and a child number, if there is one. -/
  childPubKey : Bytes → Salt → UInt32 → Option Bytes
  expireOplogSeconds : Int64

def Ctx.keccak256 (Γ : Ctx) (b : Bytes) : Bytes := (Γ.keccak256Hash b).1

def Ctx.addr (Γ : Ctx) (b : Bytes) : ByteArrayOf 20 :=
  ⟨((Γ.keccak256Hash b).1.drop 12).take 20, by simp [(Γ.keccak256Hash b).2]⟩

def hashToAddr (hash : Bytes) : Option (ByteArrayOf 20) :=
  if h : 32 ≤ hash.length then some ⟨(hash.drop 12).take 20, by simp; omega⟩ else none

end PttaiCore
