import Mathlib.Order.Lattice
import Mathlib.Algebra.Order.Group.Int
import Mathlib.Data.Int.ConditionallyCompleteOrder
import Mathlib.Data.Int.Order.Basic
import Mathlib.Data.Nat.Find
import Mathlib.Tactic.IntervalCases
import Mathlib.Tactic.Ring
import Mathlib.Tactic.SplitIfs

/-! # Buckets: consecutive intervals of the integers, and the calendar's -/

structure Buckets where
  /-- The first integer of a bucket. -/
  start : Int → Int
  /-- The bucket of an integer. -/
  index : Int → Int
  start_lt (i : Int) : start i < start (i + 1)
  start_index_le (x : Int) : start (index x) ≤ x
  lt_start_index (x : Int) : x < start (index x + 1)

namespace Buckets

variable (b : Buckets)

variable (x : Int) (n : Int) (y : Int) (d : Int)

def floor : Int := b.start (b.index x)

def next : Int := b.start (b.index x + 1)

theorem floor_le : b.floor x ≤ x := b.start_index_le x

theorem lt_next : x < b.next x := b.lt_start_index x

theorem start_strictMono : StrictMono b.start := strictMono_int_of_lt_succ b.start_lt

theorem index_eq {x i : Int} (h1 : b.start i ≤ x) (h2 : x < b.start (i + 1)) : b.index x = i := by
  have hlo : b.start (b.index x) < b.start (i + 1) := lt_of_le_of_lt (b.start_index_le x) h2
  have hhi : b.start i < b.start (b.index x + 1) := lt_of_le_of_lt h1 (b.lt_start_index x)
  rw [b.start_strictMono.lt_iff_lt] at hlo hhi
  omega

@[simp] theorem index_start (i : Int) : b.index (b.start i) = i := b.index_eq (le_refl _) (b.start_lt i)

@[simp] theorem floor_floor : b.floor (b.floor x) = b.floor x := by simp [floor]

@[simp] theorem next_floor : b.next (b.floor x) = b.next x := by simp [floor, next]

theorem floor_eq {x y : Int} (h1 : b.floor x ≤ y) (h2 : y < b.next x) : b.floor y = b.floor x := by
  rw [floor, floor, b.index_eq h1 h2]

theorem next_eq_of_floor_eq {x y : Int} (h : b.floor x = b.floor y) : b.next x = b.next y := by
  rw [← b.next_floor x, h, b.next_floor]

theorem next_le_of_lt {x y : Int} (hx : b.floor x = x) (hy : b.floor y = y) (h : x < y) : b.next x ≤ y := by
  by_contra hgt
  have heq := b.floor_eq (hx.le.trans h.le) (not_le.1 hgt)
  rw [hy, hx] at heq
  exact absurd heq (ne_of_gt h)

theorem floor_mono {x y : Int} (h : x ≤ y) : b.floor x ≤ b.floor y := by
  refine b.start_strictMono.monotone ?_
  have h1 : b.start (b.index x) < b.start (b.index y + 1) :=
    lt_of_le_of_lt ((b.start_index_le x).trans h) (b.lt_start_index y)
  rw [b.start_strictMono.lt_iff_lt] at h1
  omega

def Refines (b c : Buckets) : Prop := ∀ i, ∃ j, b.start j = c.start i

variable {b} {c : Buckets}

theorem Refines.floor_le_floor (h : b.Refines c) (x : Int) : c.floor x ≤ b.floor x := by
  obtain ⟨j, hj⟩ := h (c.index x)
  have hfix : b.floor (c.floor x) = c.floor x := by rw [floor, floor, ← hj, index_start]
  rw [← hfix]
  exact b.floor_mono (c.floor_le x)

theorem Refines.next_le_next (h : b.Refines c) (x : Int) : b.next x ≤ c.next x := by
  obtain ⟨j, hj⟩ := h (c.index x + 1)
  have hlt : b.start (b.index x) < b.start j := by
    rw [hj]; exact lt_of_le_of_lt (b.start_index_le x) (c.lt_start_index x)
  rw [b.start_strictMono.lt_iff_lt] at hlt
  rw [next, next, ← hj]
  exact b.start_strictMono.monotone (by omega)

theorem Refines.floor_floor (h : b.Refines c) (x : Int) : c.floor (b.floor x) = c.floor x :=
  c.floor_eq (h.floor_le_floor x) (lt_of_le_of_lt (b.floor_le x) (c.lt_next x))

theorem Refines.floor_of_floor (h : b.Refines c) (x : Int) : b.floor (c.floor x) = c.floor x := by
  obtain ⟨j, hj⟩ := h (c.index x)
  rw [floor, floor, ← hj, index_start]

theorem Refines.trans {d : Buckets} (h : b.Refines c) (h' : c.Refines d) : b.Refines d := by
  intro i
  obtain ⟨j, hj⟩ := h' i
  obtain ⟨k, hk⟩ := h j
  exact ⟨k, hk.trans hj⟩

/-! ## Uniform buckets and change of unit -/

def uniform (hn : 0 < n) : Buckets where
  start i := n * i
  index x := x / n
  start_lt i := by
    have : n * (i + 1) = n * i + n := by ring
    omega
  start_index_le x := Int.mul_ediv_self_le (ne_of_gt hn)
  lt_start_index x := by
    have h := Int.lt_mul_ediv_self_add (x := x) hn
    have : n * (x / n + 1) = n * (x / n) + n := by ring
    omega

def scale (b : Buckets) (n : Int) (hn : 0 < n) : Buckets where
  start i := n * b.start i
  index x := b.index (x / n)
  start_lt i := Int.mul_lt_mul_of_pos_left (b.start_lt i) hn
  start_index_le x :=
    (Int.mul_le_mul_of_nonneg_left (b.start_index_le (x / n)) (le_of_lt hn)).trans (Int.mul_ediv_self_le (ne_of_gt hn))
  lt_start_index x := by
    have h : x / n + 1 ≤ b.start (b.index (x / n) + 1) := b.lt_start_index (x / n)
    have h1 := Int.mul_le_mul_of_nonneg_left h (le_of_lt hn)
    have h2 := Int.lt_mul_ediv_self_add (x := x) hn
    have : n * (x / n + 1) = n * (x / n) + n := by ring
    omega

theorem uniform_floor (hn : 0 < n) (x : Int) : (uniform n hn).floor x = x - x % n := by
  have := Int.mul_ediv_add_emod x n
  change n * (x / n) = _
  omega

theorem uniform_next (hn : 0 < n) (x : Int) : (uniform n hn).next x = x - x % n + n := by
  have h := Int.mul_ediv_add_emod x n
  have : n * (x / n + 1) = n * (x / n) + n := by ring
  change n * (x / n + 1) = _
  omega

theorem uniform_refines {m n : Int} (hm : 0 < m) (hn : 0 < n) (h : m ∣ n) : (uniform m hm).Refines (uniform n hn) := by
  obtain ⟨k, rfl⟩ := h
  exact fun i => ⟨k * i, by simp only [uniform]; ring⟩

theorem uniform_refines_scale (b : Buckets) (n : Int) (hn : 0 < n) : (uniform n hn).Refines (b.scale n hn) :=
  fun i => ⟨b.start i, rfl⟩

theorem Refines.scale (h : b.Refines c) (n : Int) (hn : 0 < n) : (b.scale n hn).Refines (c.scale n hn) := by
  intro i
  obtain ⟨j, hj⟩ := h i
  exact ⟨j, by simp only [Buckets.scale, hj]⟩

/-! ## The calendar -/

def daysBeforeYear : Int := 365 * (y - 1970) + ((y - 1) / 4 - (y - 1) / 100 + (y - 1) / 400 - 477)

def yearOfDay : Int :=
  let y := 1970 + 400 * d / 146097
  if d < daysBeforeYear y then y - 1 else if daysBeforeYear (y + 1) ≤ d then y + 1 else y

def leapDays : Int := daysBeforeYear (y + 1) - daysBeforeYear y - 365

def daysBeforeMonthOfYear (l : Int) : Nat → Int
  | 0 => 0
  | 1 => 31
  | 2 => 59 + l
  | 3 => 90 + l
  | 4 => 120 + l
  | 5 => 151 + l
  | 6 => 181 + l
  | 7 => 212 + l
  | 8 => 243 + l
  | 9 => 273 + l
  | 10 => 304 + l
  | 11 => 334 + l
  | _ => 365 + l

def monthOfDayOfYear (l d : Int) : Nat := Nat.findGreatest (fun m => daysBeforeMonthOfYear l m ≤ d) 11

def daysBeforeMonth (i : Int) : Int := daysBeforeYear (i / 12) + daysBeforeMonthOfYear (leapDays (i / 12)) (i % 12).toNat

def monthOfDay : Int :=
  let y := yearOfDay d
  12 * y + monthOfDayOfYear (leapDays y) (d - daysBeforeYear y)

theorem leapDays_bounds : 0 ≤ leapDays y ∧ leapDays y ≤ 1 := by
  simp only [leapDays, daysBeforeYear]
  omega

theorem daysBeforeYear_bounds :
    146097 * (y - 1970) - 506 ≤ 400 * daysBeforeYear y ∧ 400 * daysBeforeYear y ≤ 146097 * (y - 1970) + 589 := by
  simp only [daysBeforeYear]
  omega

theorem yearOfDay_spec : daysBeforeYear (yearOfDay d) ≤ d ∧ d < daysBeforeYear (yearOfDay d + 1) := by
  simp only [yearOfDay]
  generalize hy : 1970 + 400 * d / 146097 = y
  have hpred := daysBeforeYear_bounds (y - 1)
  have hsucc := daysBeforeYear_bounds (y + 1 + 1)
  split_ifs with h1 h2
  · rw [sub_add_cancel]
    omega
  · omega
  · omega

theorem daysBeforeMonthOfYear_lt {l : Int} (hl : 0 ≤ l ∧ l ≤ 1) {m : Nat} (hm : m < 12) :
    daysBeforeMonthOfYear l m < daysBeforeMonthOfYear l (m + 1) := by
  interval_cases m <;> simp only [daysBeforeMonthOfYear] <;> omega

theorem monthOfDayOfYear_spec {l d : Int} (h0 : 0 ≤ d) (h1 : d < 365 + l) :
    monthOfDayOfYear l d < 12 ∧ daysBeforeMonthOfYear l (monthOfDayOfYear l d) ≤ d ∧
      d < daysBeforeMonthOfYear l (monthOfDayOfYear l d + 1) := by
  have hle : monthOfDayOfYear l d ≤ 11 := Nat.findGreatest_le 11
  refine ⟨by omega, Nat.findGreatest_spec (P := fun m => daysBeforeMonthOfYear l m ≤ d) (Nat.zero_le 11) h0, ?_⟩
  rcases Nat.lt_or_ge (monthOfDayOfYear l d) 11 with hlt | hge
  · exact not_le.1 (Nat.findGreatest_is_greatest (Nat.lt_succ_self _) hlt)
  · rw [show monthOfDayOfYear l d = 11 by omega]
    exact h1

theorem daysBeforeMonth_of_lt {m : Nat} (hm : m < 12) :
    daysBeforeMonth (12 * y + m) = daysBeforeYear y + daysBeforeMonthOfYear (leapDays y) m ∧
      daysBeforeMonth (12 * y + m + 1) = daysBeforeYear y + daysBeforeMonthOfYear (leapDays y) (m + 1) := by
  have hdiv : (12 * y + (m : Int)) / 12 = y := by omega
  have hmod : ((12 * y + (m : Int)) % 12).toNat = m := by omega
  refine ⟨by rw [daysBeforeMonth, hdiv, hmod], ?_⟩
  rcases Nat.lt_or_ge m 11 with h | h
  · have hdiv' : (12 * y + (m : Int) + 1) / 12 = y := by omega
    have hmod' : ((12 * y + (m : Int) + 1) % 12).toNat = m + 1 := by omega
    rw [daysBeforeMonth, hdiv', hmod']
  · obtain rfl : m = 11 := by omega
    have hdiv' : (12 * y + ((11 : Nat) : Int) + 1) / 12 = y + 1 := by omega
    have hmod' : ((12 * y + ((11 : Nat) : Int) + 1) % 12).toNat = 0 := by omega
    rw [daysBeforeMonth, hdiv', hmod']
    simp only [daysBeforeMonthOfYear, leapDays]
    omega

def years : Buckets where
  start := daysBeforeYear
  index := yearOfDay
  start_lt y := by simp only [daysBeforeYear]; omega
  start_index_le d := (yearOfDay_spec d).1
  lt_start_index d := (yearOfDay_spec d).2

theorem monthOfDay_spec : daysBeforeMonth (monthOfDay d) ≤ d ∧ d < daysBeforeMonth (monthOfDay d + 1) := by
  have hy := yearOfDay_spec d
  have hm := monthOfDayOfYear_spec (l := leapDays (yearOfDay d)) (d := d - daysBeforeYear (yearOfDay d)) (by omega)
    (by simp only [leapDays]; omega)
  have hb := daysBeforeMonth_of_lt (yearOfDay d) hm.1
  rw [monthOfDay, hb.1, hb.2]
  omega

def months : Buckets where
  start := daysBeforeMonth
  index := monthOfDay
  start_lt i := by
    obtain ⟨y, m, hm, rfl⟩ : ∃ (y : Int) (m : Nat), m < 12 ∧ i = 12 * y + m :=
      ⟨i / 12, (i % 12).toNat, by omega, by omega⟩
    have hb := daysBeforeMonth_of_lt y hm
    have hlt := daysBeforeMonthOfYear_lt (leapDays_bounds y) hm
    rw [hb.1, hb.2]
    omega
  start_index_le d := (monthOfDay_spec d).1
  lt_start_index d := (monthOfDay_spec d).2

theorem months_refines_years : months.Refines years := by
  intro y
  refine ⟨12 * y, ?_⟩
  have h := (daysBeforeMonth_of_lt y (m := 0) (by decide)).1
  change daysBeforeMonth (12 * y) = daysBeforeYear y
  simpa [daysBeforeMonthOfYear] using h

example : years.floor 18262 = 18262 ∧ years.next 18262 = 18628 := by decide

example : months.floor 11015 = 10988 ∧ months.next 11015 = 11017 := by decide

end Buckets
