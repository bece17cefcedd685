import Mathlib.Algebra.BigOperators.Fin
import Mathlib.Data.Nat.Bitwise
import Mathlib.Tactic.Ring

/-! # Sums in parallel lanes -/

namespace PttaiCore.Lanes

def laneSum (w : Nat) : Nat → Nat → Nat
  | 0, _ => 0
  | n + 1, x => x % 2 ^ w + laneSum w n (x / 2 ^ w)

def Small (w : Nat) : Nat → Nat → Prop
  | 0, _ => True
  | n + 1, x => x % 2 ^ w ≤ w ∧ Small w n (x / 2 ^ w)

def evens (w : Nat) : Nat → Nat → Nat
  | 0, _ => 0
  | n + 1, x => x % 2 ^ w + 2 ^ (2 * w) * evens w n (x / 2 ^ (2 * w))

def laneMask (w : Nat) : Nat → Nat
  | 0 => 0
  | n + 1 => (2 ^ w - 1) + 2 ^ (2 * w) * laneMask w n

def pairSums (w n x : Nat) : Nat := evens w n x + evens w n (x / 2 ^ w)

theorem add_mul_split {a b c : Nat} (h : a < b) : (a + b * c) % b = a ∧ (a + b * c) / b = c := by
  refine ⟨by rw [Nat.add_mul_mod_self_left, Nat.mod_eq_of_lt h], ?_⟩
  rw [Nat.add_mul_div_left _ _ (Nat.zero_lt_of_lt h), Nat.div_eq_of_lt h, Nat.zero_add]

theorem pow_double (w : Nat) : 2 ^ (2 * w) = 2 ^ w * 2 ^ w := by rw [two_mul, pow_add]

theorem pairSums_succ (w n x : Nat) :
    pairSums w (n + 1) x = (x % 2 ^ w + x / 2 ^ w % 2 ^ w) + 2 ^ (2 * w) * pairSums w n (x / 2 ^ (2 * w)) := by
  simp only [pairSums, evens, Nat.div_div_eq_div_mul, Nat.mul_comm (2 ^ w) (2 ^ (2 * w))]
  ring

theorem and_laneMask (w n : Nat) (x : Nat) : x &&& laneMask w n = evens w n x := by
  induction n generalizing x with
  | zero => exact Nat.and_zero x
  | succ n ih =>
    have hw : 2 ^ w ≤ 2 ^ (2 * w) := Nat.pow_le_pow_right (by decide) (by omega)
    have hp := Nat.two_pow_pos w
    obtain ⟨hm, hd⟩ := add_mul_split (c := laneMask w n) (show 2 ^ w - 1 < 2 ^ (2 * w) by omega)
    rw [← Nat.mod_add_div (x &&& laneMask w (n + 1)) (2 ^ (2 * w)), Nat.and_mod_two_pow, Nat.and_div_two_pow, laneMask, hm, hd, ih,
      Nat.and_two_pow_sub_one_eq_mod, Nat.mod_mod_of_dvd _ (pow_dvd_pow 2 (by omega))]
    rfl

theorem evens_add (w n : Nat) {x : Nat} (h : x < 2 ^ (2 * w * n)) : evens w n x + 2 ^ w * evens w n (x / 2 ^ w) = x := by
  induction n generalizing x with
  | zero => simp only [Nat.mul_zero, pow_zero, Nat.lt_one_iff] at h; simp [evens, h]
  | succ n ih =>
    have hx : x / 2 ^ (2 * w) < 2 ^ (2 * w * n) := by
      rw [Nat.div_lt_iff_lt_mul (Nat.two_pow_pos _), ← pow_add]
      exact h
    have hi := ih hx
    have hs : x % 2 ^ w + 2 ^ w * (x / 2 ^ w % 2 ^ w) = x % 2 ^ (2 * w) := by rw [pow_double, Nat.mod_mul]
    rw [Nat.div_div_eq_div_mul] at hi
    simp only [evens, Nat.div_div_eq_div_mul, Nat.mul_comm (2 ^ w) (2 ^ (2 * w))]
    calc _ = (x % 2 ^ w + 2 ^ w * (x / 2 ^ w % 2 ^ w)) + 2 ^ (2 * w) *
          (evens w n (x / 2 ^ (2 * w)) + 2 ^ w * evens w n (x / (2 ^ (2 * w) * 2 ^ w))) := by ring
      _ = x := by rw [hs, hi, Nat.mod_add_div]

theorem laneSum_pairSums (w n : Nat) {x : Nat} (h : Small w (2 * n) x) :
    laneSum (2 * w) n (pairSums w n x) = laneSum w (2 * n) x ∧ Small (2 * w) n (pairSums w n x) := by
  induction n generalizing x with
  | zero => exact ⟨rfl, trivial⟩
  | succ n ih =>
    obtain ⟨ha, hb, hr⟩ := h
    rw [Nat.div_div_eq_div_mul, ← pow_double] at hr
    have hlt : x % 2 ^ w + x / 2 ^ w % 2 ^ w < 2 ^ (2 * w) :=
      lt_of_le_of_lt (show _ ≤ 2 * w by omega) Nat.lt_two_pow_self
    obtain ⟨hm, hd⟩ := add_mul_split (c := pairSums w n (x / 2 ^ (2 * w))) hlt
    obtain ⟨hs, hk⟩ := ih hr
    rw [pairSums_succ]
    refine ⟨?_, by rw [hm]; omega, by rw [hd]; exact hk⟩
    rw [laneSum, hm, hd, hs, show 2 * (n + 1) = 2 * n + 1 + 1 from rfl, laneSum, laneSum, Nat.div_div_eq_div_mul, ← pow_double]
    omega

theorem small_one (n x : Nat) : Small 1 n x := by
  induction n generalizing x with
  | zero => trivial
  | succ n ih => exact ⟨Nat.le_of_lt_succ (Nat.mod_lt _ (by decide)), ih _⟩

theorem evens_add_shift (n : Nat) {x : Nat} (h : Small 4 (2 * n) x) : evens 4 n (x + x / 2 ^ 4) = pairSums 4 n x := by
  induction n generalizing x with
  | zero => rfl
  | succ n ih =>
    obtain ⟨ha, hb, hr⟩ := h
    rw [Nat.div_div_eq_div_mul] at hr
    have hc : x / 256 % 16 ≤ 4 ∨ n = 0 := by
      cases n with
      | zero => exact .inr rfl
      | succ n => exact .inl hr.1
    have hi := ih hr
    rw [pairSums_succ, evens]
    simp only [Nat.reducePow, Nat.reduceMul] at *
    rw [← hi]
    rcases hc with hc | rfl
    · have hq : (x + x / 16) / 256 = x / 256 + x / 256 / 16 := by
        rw [show x / 256 = x / 16 / 16 by rw [Nat.div_div_eq_div_mul]] at *
        omega
      rw [show (x + x / 16) % 16 = x % 16 + x / 16 % 16 by omega, hq]
    · rw [show (x + x / 16) % 16 = x % 16 + x / 16 % 16 by omega]
      rfl

theorem laneSum_eight {x : Nat} (h : Small 8 8 x) (hx : x < 2 ^ 64) :
    let y := (x + x / 2 ^ 8) % 2 ^ 64
    let z := (y + y / 2 ^ 16) % 2 ^ 64
    (z + z / 2 ^ 32) % 2 ^ 64 % 256 = laneSum 8 8 x := by
  simp only [Small, laneSum, and_true, Nat.reducePow] at *
  generalize h1 : x / 256 = x1 at *
  generalize h2 : x1 / 256 = x2 at *
  generalize h3 : x2 / 256 = x3 at *
  generalize h4 : x3 / 256 = x4 at *
  generalize h5 : x4 / 256 = x5 at *
  generalize h6 : x5 / 256 = x6 at *
  generalize h7 : x6 / 256 = x7 at *
  -- no sum reaches the next lane, so each shift brings down the quotients above it
  rw [Nat.mod_eq_of_lt (show x + x1 < 18446744073709551616 by omega), show (x + x1) / 65536 = x2 + x3 by omega,
    Nat.mod_eq_of_lt (show x + x1 + (x2 + x3) < 18446744073709551616 by omega),
    show (x + x1 + (x2 + x3)) / 4294967296 = x4 + x5 + (x6 + x7) by omega]
  omega

theorem laneSum_one_eq_card (n x : Nat) : laneSum 1 n x = ((Finset.range n).filter fun i => x.testBit i = true).card := by
  induction n generalizing x with
  | zero => rfl
  | succ n ih =>
    have hz : x % 2 ^ 1 = if x.testBit 0 then 1 else 0 := by
      rw [Nat.testBit_zero, pow_one]
      rcases Nat.mod_two_eq_zero_or_one x with h | h <;> simp [h]
    have hs : ∀ i, (x / 2 ^ 1).testBit i = x.testBit (i + 1) := fun i => (Nat.testBit_succ x i).symm
    rw [laneSum, ih, Finset.card_filter, Finset.card_filter, Finset.sum_range_succ', hz, add_comm]
    simp only [hs]

end PttaiCore.Lanes
