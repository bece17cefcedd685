import Mathlib.Order.Lattice
import Mathlib.Data.List.Lex
import Mathlib.Algebra.Order.Ring.Nat
import Mathlib.Tactic.Ring

/-! # Byte strings in key order -/

instance UInt8.linearOrder : LinearOrder UInt8 where
  le_refl _ := UInt8.le_refl _
  le_trans _ _ _ := UInt8.le_trans
  lt_iff_le_not_ge a b := by rw [UInt8.lt_iff_toNat_lt, UInt8.le_iff_toNat_le, UInt8.le_iff_toNat_le]; omega
  le_antisymm _ _ := UInt8.le_antisymm
  le_total := UInt8.le_total
  toDecidableLE := inferInstance
  toDecidableEq := inferInstance
  toDecidableLT := inferInstance

instance UInt64.linearOrder : LinearOrder UInt64 where
  le_refl _ := UInt64.le_refl _
  le_trans _ _ _ := UInt64.le_trans
  lt_iff_le_not_ge a b := by rw [UInt64.lt_iff_toNat_lt, UInt64.le_iff_toNat_le, UInt64.le_iff_toNat_le]; omega
  le_antisymm _ _ := UInt64.le_antisymm
  le_total := UInt64.le_total
  toDecidableLE := inferInstance
  toDecidableEq := inferInstance
  toDecidableLT := inferInstance

abbrev Bytes : Type := List UInt8

namespace Bytes

open List

def be : Nat → Nat → Bytes
  | 0, _ => []
  | w + 1, n => UInt8.ofNat (n / 256 ^ w) :: be w n

def ofBE (b : Bytes) : Nat := b.foldl (fun acc x => acc * 256 + x.toNat) 0

@[simp] theorem be_length (w n : Nat) : (be w n).length = w := by
  induction w with
  | zero => rfl
  | succ w ih => simp [be, ih]

theorem be_mod (w n : Nat) : be w (n % 256 ^ w) = be w n := by
  suffices h : ∀ k, w ≤ k → be w (n % 256 ^ k) = be w n from h w (Nat.le_refl w)
  induction w with
  | zero => intro k _; rfl
  | succ w ih =>
    intro k hk
    simp only [be, ih k (by omega), List.cons.injEq, and_true]
    apply UInt8.toNat_inj.1
    simp only [UInt8.toNat_ofNat']
    obtain ⟨j, rfl⟩ : ∃ j, k = w + 1 + j := ⟨k - (w + 1), by omega⟩
    have hpow : 256 ^ (w + 1 + j) = 256 ^ w * (256 * 256 ^ j) := by ring
    rw [hpow, Nat.mod_mul_right_div_self, Nat.mod_mul_right_mod]

theorem be_lt_be {w m n : Nat} (hm : m < 256 ^ w) (hn : n < 256 ^ w) : be w m < be w n ↔ m < n := by
  induction w generalizing m n with
  | zero => simp [be] at *; omega
  | succ w ih =>
    have hpos : 0 < 256 ^ w := Nat.pow_pos (by decide)
    have hdm : m / 256 ^ w < 256 := by
      rw [Nat.div_lt_iff_lt_mul hpos, Nat.mul_comm, ← Nat.pow_succ]; exact hm
    have hdn : n / 256 ^ w < 256 := by
      rw [Nat.div_lt_iff_lt_mul hpos, Nat.mul_comm, ← Nat.pow_succ]; exact hn
    have hhead : UInt8.ofNat (m / 256 ^ w) < UInt8.ofNat (n / 256 ^ w) ↔ m / 256 ^ w < n / 256 ^ w := by
      rw [UInt8.lt_iff_toNat_lt, UInt8.toNat_ofNat_of_lt' hdm, UInt8.toNat_ofNat_of_lt' hdn]
    have hheq : UInt8.ofNat (m / 256 ^ w) = UInt8.ofNat (n / 256 ^ w) ↔ m / 256 ^ w = n / 256 ^ w := by
      rw [← UInt8.toNat_inj, UInt8.toNat_ofNat_of_lt' hdm, UInt8.toNat_ofNat_of_lt' hdn]
    have htail : be w m < be w n ↔ m % 256 ^ w < n % 256 ^ w := by
      rw [← be_mod w m, ← be_mod w n]
      exact ih (Nat.mod_lt _ hpos) (Nat.mod_lt _ hpos)
    have em := Nat.div_add_mod m (256 ^ w)
    have en := Nat.div_add_mod n (256 ^ w)
    rw [be, be, cons_lt_cons_iff, hhead, hheq, htail]
    constructor
    · rintro (h | ⟨h1, h2⟩)
      · by_contra hle
        exact absurd (Nat.div_le_div_right (c := 256 ^ w) (not_lt.1 hle)) (by omega)
      · rw [h1] at em; omega
    · intro h
      rcases Nat.lt_or_ge (m / 256 ^ w) (n / 256 ^ w) with hlt | hge
      · exact .inl hlt
      · have heq : m / 256 ^ w = n / 256 ^ w :=
          Nat.le_antisymm (Nat.div_le_div_right (Nat.le_of_lt h)) hge
        exact .inr ⟨heq, by rw [heq] at em; omega⟩

theorem be_injective {w m n : Nat} (hm : m < 256 ^ w) (hn : n < 256 ^ w) (h : be w m = be w n) : m = n := by
  by_contra hne
  rcases Nat.lt_or_gt_of_ne hne with hlt | hlt
  · exact absurd h (ne_of_lt ((be_lt_be hm hn).2 hlt))
  · exact absurd h (ne_of_gt ((be_lt_be hn hm).2 hlt))

theorem ofBE_be (w n : Nat) : ofBE (be w n) = n % 256 ^ w := by
  suffices h : ∀ acc, (be w n).foldl (fun acc x => acc * 256 + x.toNat) acc = acc * 256 ^ w + n % 256 ^ w by
    simpa [ofBE] using h 0
  induction w with
  | zero => intro acc; simp [be, Nat.mod_one]
  | succ w ih =>
    intro acc
    simp only [be, foldl_cons, ih, UInt8.toNat_ofNat']
    have h256 : n % 256 ^ (w + 1) = 256 ^ w * (n / 256 ^ w % 256) + n % 256 ^ w := by
      rw [Nat.pow_succ, Nat.mod_mul]; omega
    rw [h256]; ring

/-! ## Concatenation and order -/

@[simp] theorem append_lt_append_left (p a b : Bytes) : p ++ a < p ++ b ↔ a < b := by
  induction p with
  | nil => rfl
  | cons x p ih => simp [ih]

@[simp] theorem append_le_append_left (p a b : Bytes) : p ++ a ≤ p ++ b ↔ a ≤ b := by
  rw [← not_lt, ← not_lt, append_lt_append_left]

theorem append_lt_append_iff {a b : Bytes} (hlen : a.length = b.length) (x y : Bytes) :
    a ++ x < b ++ y ↔ a < b ∨ a = b ∧ x < y := by
  induction a generalizing b with
  | nil =>
    obtain rfl : b = [] := by simpa using hlen.symm
    simp
  | cons c a ih =>
    cases b with
    | nil => simp at hlen
    | cons d b =>
      simp only [length_cons, Nat.add_right_cancel_iff] at hlen
      simp only [cons_append, cons_lt_cons_iff, ih hlen, List.cons.injEq]
      tauto

theorem prefix_of_between {p s t k : Bytes} (hlo : p ++ s ≤ k) (hhi : k < p ++ t) : p <+: k := by
  induction p generalizing k with
  | nil => exact List.nil_prefix
  | cons x p ih =>
    cases k with
    | nil => exact absurd hlo (by simp)
    | cons y k =>
      rw [cons_append, ← not_lt, cons_lt_cons_iff] at hlo
      rw [cons_append, cons_lt_cons_iff] at hhi
      have hxy : y = x := by
        rcases lt_trichotomy y x with h | h | h
        · exact absurd (.inl h) hlo
        · exact h
        · rcases hhi with h' | ⟨h', _⟩
          · exact absurd h (lt_asymm h')
          · exact h'
      subst hxy
      have hlo' : p ++ s ≤ k := not_lt.1 fun h => hlo (.inr ⟨rfl, h⟩)
      have hhi' : k < p ++ t := by
        rcases hhi with h | ⟨_, h⟩
        · exact absurd h (lt_irrefl _)
        · exact h
      exact cons_prefix_cons.2 ⟨rfl, ih hlo' hhi'⟩

end Bytes
