import PttaiCore.Lib.TextCodec
import PttaiCore.Types

/-! # JSON encodings of the common types -/

namespace PttaiCore

class JsonCodec (α : Type) where
  enc : α → Json
  dec : Json → Option α
  dec_enc (a : α) : dec (enc a) = some a

attribute [simp] JsonCodec.dec_enc

open JsonCodec

class JsonPointee (α : Type) extends JsonCodec α where
  enc_ne_null (a : α) : enc a ≠ .null

structure NodeID where
  bytes : ByteArrayOf 64
  deriving DecidableEq

namespace JsonCodec

def decNat (bound : Nat) : Json → Option Nat
  | .num n => if 0 ≤ n ∧ n < bound then some n.toNat else none
  | _ => none

theorem decNat_num {bound n : Nat} (h : n < bound) : decNat bound (.num n) = some n := by
  have : (n : Int) < bound := by exact_mod_cast h
  simp [decNat, this]

instance : JsonCodec UInt8 where
  enc n := .num n.toNat
  dec j := (decNat (2 ^ 8) j).map UInt8.ofNat
  dec_enc n := by rw [decNat_num n.toNat_lt]; simp

instance : JsonCodec UInt32 where
  enc n := .num n.toNat
  dec j := (decNat (2 ^ 32) j).map UInt32.ofNat
  dec_enc n := by rw [decNat_num n.toNat_lt]; simp

instance : JsonCodec UInt64 where
  enc n := .num n.toNat
  dec j := (decNat (2 ^ 64) j).map UInt64.ofNat
  dec_enc n := by rw [decNat_num n.toNat_lt]; simp

instance : JsonCodec Int64 where
  enc n := .num n.toInt
  dec
    | .num n => if -2 ^ 63 ≤ n ∧ n < 2 ^ 63 then some (Int64.ofInt n) else none
    | _ => none
  dec_enc n := by
    have h1 := n.le_toInt
    have h2 := n.toInt_lt
    simp only [h1, h2, and_self, if_true, Int64.ofInt_toInt]

instance : JsonCodec Bool where
  enc b := .num b.toInt
  dec
    | .num 1 => some true
    | .num 0 => some false
    | _ => none
  dec_enc b := by cases b <;> rfl

instance : JsonCodec Bytes where
  enc b := if b = [] then .null else .str (Base64.encode b)
  dec
    | .null => some []
    | .str s => Base64.decode s.1
    | _ => none
  dec_enc b := by
    split_ifs with h
    · simp [h]
    · simp [Base64.decode_encode]

def ofBytes (n : Nat) (b : Bytes) : Option (ByteArrayOf n) := if h : b.length = n then some ⟨b, h⟩ else none

theorem ofBytes_val {n : Nat} (b : ByteArrayOf n) : ofBytes n b.1 = some b := by simp [ofBytes, b.2]

instance {n : Nat} : JsonPointee (ByteArrayOf n) where
  enc b := .str (Base58.encode b.1)
  dec
    | .str s => (Base58.decode s.1).bind (ofBytes n)
    | _ => none
  dec_enc b := by simp [Base58.decode_encode, ofBytes_val]
  enc_ne_null b := by simp

instance : JsonPointee NodeID where
  enc b := .str (Hex.encode b.bytes.1)
  dec
    | .str s => ((Hex.decode s.1).bind (ofBytes 64)).map NodeID.mk
    | _ => none
  dec_enc b := by simp [Hex.decode_encode, ofBytes_val]
  enc_ne_null b := by simp

instance {α : Type} [JsonPointee α] : JsonCodec (Option α) where
  enc
    | none => .null
    | some a => enc a
  dec j := if j.isNull then some none else (dec j).map some
  dec_enc a := by
    cases a with
    | none => rfl
    | some a =>
      have hnull : (enc a).isNull = false := Json.isNull_eq_false_iff.2 (JsonPointee.enc_ne_null a)
      simp [hnull]

instance {α : Type} [JsonCodec α] : JsonCodec (List α) where
  enc l := if l = [] then .null else .arr (l.map enc)
  dec
    | .null => some []
    | .arr l => l.mapM dec
    | _ => none
  dec_enc l := by
    split_ifs with h
    · rw [h]
    · have hmap : ∀ l : List α, (l.map enc).mapM dec = some l := by
        intro l
        induction l with
        | nil => rfl
        | cons a l ih => simp [List.mapM_cons, ih]
      exact hmap l

end JsonCodec

end PttaiCore
