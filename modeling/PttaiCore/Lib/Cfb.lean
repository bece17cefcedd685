import Mathlib.Data.List.Basic
import PttaiCore.Lib.Bytes

/-! # Cipher feedback -/

namespace Cfb

def xorKeyStream (block : Bytes → Bytes) (isDecrypt : Bool) : (out next src : Bytes) → Bytes
  | _, _, [] => []
  | k :: out, next, b :: src =>
    (b ^^^ k) :: xorKeyStream block isDecrypt out (next ++ [if isDecrypt then b else b ^^^ k]) src
  | [], next, b :: src =>
    match block next with
    | [] => []
    | k :: out => (b ^^^ k) :: xorKeyStream block isDecrypt out [if isDecrypt then b else b ^^^ k] src

def encrypt (block : Bytes → Bytes) (iv msg : Bytes) : Bytes := xorKeyStream block false [] iv msg

def decrypt (block : Bytes → Bytes) (iv msg : Bytes) : Bytes := xorKeyStream block true [] iv msg

variable {block : Bytes → Bytes}

theorem xor_xor_self (b k : UInt8) : b ^^^ k ^^^ k = b := by
  rw [UInt8.xor_assoc, UInt8.xor_self, UInt8.xor_zero]

theorem xorKeyStream_inverse (h : ∀ b, block b ≠ []) (out next src : Bytes) :
    xorKeyStream block true out next (xorKeyStream block false out next src) = src := by
  induction src generalizing out next with
  | nil => cases out <;> rfl
  | cons b src ih =>
    cases out with
    | cons k out => simp only [xorKeyStream, Bool.false_eq_true, if_true, if_false, xor_xor_self, ih]
    | nil =>
      cases hk : block next with
      | nil => exact absurd hk (h next)
      | cons k out => simp only [xorKeyStream, hk, Bool.false_eq_true, if_true, if_false, xor_xor_self, ih]

theorem length_xorKeyStream (h : ∀ b, block b ≠ []) (isDecrypt : Bool) (out next src : Bytes) :
    (xorKeyStream block isDecrypt out next src).length = src.length := by
  induction src generalizing out next with
  | nil => cases out <;> rfl
  | cons b src ih =>
    cases out with
    | cons k out => simp [xorKeyStream, ih]
    | nil =>
      cases hk : block next with
      | nil => exact absurd hk (h next)
      | cons k out => simp [xorKeyStream, hk, ih]

theorem decrypt_encrypt (h : ∀ b, block b ≠ []) (iv msg : Bytes) : decrypt block iv (encrypt block iv msg) = msg :=
  xorKeyStream_inverse h [] iv msg

theorem length_encrypt (h : ∀ b, block b ≠ []) (iv msg : Bytes) : (encrypt block iv msg).length = msg.length :=
  length_xorKeyStream h false [] iv msg

end Cfb
