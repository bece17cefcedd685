import Mathlib.Data.Nat.Log
import PttaiCore.Lib.Bytes

/-! # The bytes of a number -/

namespace Bytes

def minimal (n : Nat) : Bytes := (be (n.log2 / 8 + 1) n).dropWhile (· == 0)

theorem foldl_acc (b : Bytes) (a : Nat) :
    b.foldl (fun acc x => acc * 256 + x.toNat) a = a * 256 ^ b.length + b.foldl (fun acc x => acc * 256 + x.toNat) 0 := by
  induction b generalizing a with
  | nil => simp
  | cons x b ih =>
    rw [List.foldl_cons, ih, List.foldl_cons, ih (0 * 256 + x.toNat), List.length_cons]
    ring

theorem ofBE_cons (x : UInt8) (b : Bytes) : ofBE (x :: b) = x.toNat * 256 ^ b.length + ofBE b := by
  rw [ofBE, List.foldl_cons, foldl_acc, ofBE]
  ring

theorem ofBE_lt (b : Bytes) : ofBE b < 256 ^ b.length := by
  induction b with
  | nil => exact Nat.one_pos
  | cons x b ih =>
    have hx := x.toNat_lt
    calc ofBE (x :: b) = x.toNat * 256 ^ b.length + ofBE b := ofBE_cons x b
      _ < x.toNat * 256 ^ b.length + 256 ^ b.length := Nat.add_lt_add_left ih _
      _ = (x.toNat + 1) * 256 ^ b.length := by ring
      _ ≤ 256 * 256 ^ b.length := Nat.mul_le_mul_right _ (by omega)
      _ = 256 ^ (x :: b).length := by rw [List.length_cons, pow_succ']

theorem be_ofBE (b : Bytes) : be b.length (ofBE b) = b := by
  induction b with
  | nil => rfl
  | cons x b ih =>
    have hlt := ofBE_lt b
    have hpos : 0 < 256 ^ b.length := Nat.pow_pos (by norm_num)
    have hdiv : ofBE (x :: b) / 256 ^ b.length = x.toNat := by
      rw [ofBE_cons, mul_comm, Nat.mul_add_div hpos, Nat.div_eq_of_lt hlt, Nat.add_zero]
    have hmod : ofBE (x :: b) % 256 ^ b.length = ofBE b := by
      rw [ofBE_cons, mul_comm, Nat.mul_add_mod, Nat.mod_eq_of_lt hlt]
    rw [List.length_cons, be, hdiv, UInt8.ofNat_toNat, ← be_mod, hmod, ih]

theorem ofBE_dropWhile_zero (b : Bytes) : ofBE (b.dropWhile (· == 0)) = ofBE b := by
  induction b with
  | nil => rfl
  | cons x b ih =>
    rw [List.dropWhile_cons]
    split_ifs with hx
    · rw [ih, ofBE_cons, eq_of_beq hx]
      simp
    · rfl

theorem ofBE_minimal (n : Nat) : ofBE (minimal n) = n := by
  have hlt : n < 256 ^ (n.log2 / 8 + 1) := by
    calc n < 2 ^ (n.log2 + 1) := Nat.lt_log2_self
      _ ≤ 2 ^ (8 * (n.log2 / 8 + 1)) := Nat.pow_le_pow_right (by norm_num) (by omega)
      _ = 256 ^ (n.log2 / 8 + 1) := pow_mul 2 8 _
  rw [minimal, ofBE_dropWhile_zero, ofBE_be, Nat.mod_eq_of_lt hlt]

theorem minimal_eq_be {n w : Nat} (h : (minimal n).length = w) : minimal n = be w n := by
  have hself := be_ofBE (minimal n)
  rw [ofBE_minimal, h] at hself
  exact hself.symm

end Bytes
