import PttaiCore.Lemmas.Span

/-! # Buckets of time, from the timestamps' side -/

namespace PttaiCore

open Timestamp

def Timestamp.Within (t : Timestamp) (b : Timestamp × Timestamp) : Prop := b.1.isLessEqual t = true ∧ t.isLess b.2 = true

def Timestamp.Dated (t : Timestamp) : Prop :=
  Timestamp.months.floor t.unixSeconds ≤ t.ts.toInt ∧ Timestamp.years.next t.unixSeconds < 2 ^ 63

namespace TimeBucketsAux

open MerkleTreeLevel

variable {t u : Timestamp} {level : MerkleTreeLevel}

theorem ts_le_unixSeconds (t : Timestamp) : t.ts.toInt ≤ t.unixSeconds := by
  rw [Timestamp.unixSeconds]
  omega

theorem unixSeconds_le (t : Timestamp) : t.unixSeconds ≤ t.ts.toInt + 4 := by
  have hn : (t.nanoTs / Timestamp.billion).toNat = t.nanoTs.toNat / 1000000000 := UInt32.toNat_div _ _
  have hlt := t.nanoTs.toNat_lt
  rw [Timestamp.unixSeconds, hn]
  omega

theorem months_floor_eq (h : t.Dated) : Timestamp.months.floor t.ts.toInt = Timestamp.months.floor t.unixSeconds :=
  Timestamp.months.floor_eq h.1 ((ts_le_unixSeconds t).trans_lt (Timestamp.months.lt_next _))

theorem years_floor_eq (h : t.Dated) : Timestamp.years.floor t.ts.toInt = Timestamp.years.floor t.unixSeconds := by
  rw [← months_refines_years.floor_floor, months_floor_eq h, months_refines_years.floor_floor]

theorem inRange_ts (ht : 0 ≤ t.ts.toInt) (h : t.Dated) : InRange t.ts.toInt :=
  ⟨ht, (Timestamp.years.next_eq_of_floor_eq (years_floor_eq h)).trans_lt h.2⟩

theorem bounds_dated (ht : 0 ≤ t.ts.toInt) (h : t.Dated) (hl : level ∈ uppers) :
    level.bounds t = (.ofSec (level.buckets.floor t.ts.toInt), .ofSec (level.buckets.next t.ts.toInt)) := by
  rw [← bounds_eq (inRange_ts ht h) hl]
  have hunix : (⟨t.ts, 0⟩ : Timestamp).unixSeconds = t.ts.toInt := by simp [Timestamp.unixSeconds]
  cases level with
  | month =>
    have hm := months_floor_eq h
    rw [bounds, bounds, Timestamp.toMonthTimestamp, Timestamp.toMonthTimestamp, hunix, hm, Timestamp.months.next_eq_of_floor_eq hm]
  | year =>
    have hy := years_floor_eq h
    rw [bounds, bounds, Timestamp.toYearTimestamp, Timestamp.toYearTimestamp, hunix, hy, Timestamp.years.next_eq_of_floor_eq hy]
  | _ => rfl

theorem within_ofSec {a b : Int} (ha : 0 ≤ a) (hb : 0 ≤ b) (ha' : a < 2 ^ 63) (hb' : b < 2 ^ 63) :
    t.Within (.ofSec a, .ofSec b) ↔ a ≤ t.ts.toInt ∧ t.ts.toInt < b := by
  rw [Timestamp.Within, isLessEqual_iff, isLess_iff, order_ofSec_le ha ha', order_lt_ofSec hb hb']

theorem within_bounds (ht : 0 ≤ t.ts.toInt) (h : t.Dated) (hl : level ∈ uppers) {v : Timestamp} :
    v.Within (level.bounds t) ↔ level.buckets.floor t.ts.toInt ≤ v.ts.toInt ∧ v.ts.toInt < level.buckets.next t.ts.toInt := by
  have hr := inRange_ts ht h
  have hn := level.buckets.lt_next t.ts.toInt
  rw [bounds_dated ht h hl, within_ofSec (floor_nonneg level ht) (by omega) ((level.buckets.floor_le _).trans_lt hr.lt) (hr.next_lt level)]

theorem start_of_end (ht : 0 ≤ t.ts.toInt) (h : t.Dated) (hl : level ∈ uppers) :
    (level.bounds (level.bounds t).2).1 = (level.bounds t).2 := by
  have hn := level.buckets.lt_next t.ts.toInt
  have hsec : (level.bounds t).2.ts.toInt = level.buckets.next t.ts.toInt := by
    rw [bounds_dated ht h hl]
    exact toInt_ofSec (by omega) ((inRange_ts ht h).next_lt level)
  have hfix : level.buckets.floor (level.buckets.next t.ts.toInt) = level.buckets.next t.ts.toInt := by
    simp [Buckets.floor, Buckets.next]
  have hunix : (level.bounds t).2.unixSeconds = level.buckets.next t.ts.toInt := by
    rw [← hsec, bounds_dated ht h hl]
    simp [Timestamp.unixSeconds, Timestamp.ofSec]
  have hstart : (level.bounds (level.bounds t).2).1 = .ofSec (level.buckets.floor (level.buckets.next t.ts.toInt)) := by
    generalize (level.bounds t).2 = e at hsec hunix
    cases level with
    | hr => rw [← hsec]; exact toHRTimestamp_eq (by omega)
    | day => rw [← hsec]; exact toDayTimestamp_eq (by omega)
    | month => rw [← hunix]; rfl
    | year => rw [← hunix]; rfl
    | now => exact absurd hl (by decide)
    | invalid => exact absurd hl (by decide)
  rw [hstart, hfix, bounds_dated ht h hl]

theorem same_or_disjoint (ht : 0 ≤ t.ts.toInt) (h : t.Dated) (hu : 0 ≤ u.ts.toInt) (h' : u.Dated) (hl : level ∈ uppers) :
    level.bounds t = level.bounds u ∨ ∀ v : Timestamp, ¬ (v.Within (level.bounds t) ∧ v.Within (level.bounds u)) := by
  by_cases he : level.buckets.floor t.ts.toInt = level.buckets.floor u.ts.toInt
  · refine .inl ?_
    rw [bounds_dated ht h hl, bounds_dated hu h' hl, he, level.buckets.next_eq_of_floor_eq he]
  · refine .inr fun v hv => he ?_
    rw [within_bounds ht h hl, within_bounds hu h' hl] at hv
    rw [← level.buckets.floor_eq hv.1.1 hv.1.2, ← level.buckets.floor_eq hv.2.1 hv.2.2]

theorem within_of_refines (ht : 0 ≤ t.ts.toInt) (h : t.Dated) {level' : MerkleTreeLevel} (hl : level ∈ uppers) (hl' : level' ∈ uppers)
    (hr : level.buckets.Refines level'.buckets) {v : Timestamp} (hv : v.Within (level.bounds t)) : v.Within (level'.bounds t) := by
  rw [within_bounds ht h hl] at hv
  rw [within_bounds ht h hl']
  exact ⟨(hr.floor_le_floor _).trans hv.1, hv.2.trans_le (hr.next_le_next _)⟩

theorem dated_of_within (ht : 0 ≤ t.ts.toInt) (hm : t.Within t.toMonthTimestamp) (hy : t.Within t.toYearTimestamp) : t.Dated := by
  have hle := ts_le_unixSeconds t
  have hgt := unixSeconds_le t
  have hlt := t.ts.toInt_lt
  have hlo := Timestamp.years.lt_next t.unixSeconds
  have hwidth := next_sub_floor_le .year t.unixSeconds
  have hfl : Timestamp.years.floor t.unixSeconds ≤ t.unixSeconds := Timestamp.years.floor_le _
  change Timestamp.years.next t.unixSeconds - Timestamp.years.floor t.unixSeconds ≤ _ at hwidth
  have hnext : Timestamp.years.next t.unixSeconds < 2 ^ 63 := by
    by_contra hge
    have hneg : (Int64.ofInt (Timestamp.years.next t.unixSeconds)).toInt < 0 := by
      rw [Int64.toInt_ofInt, Int.bmod_def]
      norm_num only [Int64.size]
      omega
    have hless := (isLess_iff _ _).mp hy.2
    rw [Timestamp.order, Timestamp.order, Prod.Lex.lt_iff] at hless
    simp only [ofLex_toLex, Timestamp.toYearTimestamp] at hless
    omega
  refine ⟨?_, hnext⟩
  have hfm := Timestamp.months.floor_le t.unixSeconds
  have hnn : 0 ≤ Timestamp.months.floor t.unixSeconds := floor_nonneg .month (by omega)
  exact (order_ofSec_le hnn (by omega)).mp ((isLessEqual_iff _ _).mp hm.1)

end TimeBucketsAux

open TimeBucketsAux MerkleTreeLevel

/-- Two times from 1970 on are each in their hour, day, month and year, the two of one level are equal or disjoint, the next one begins where
each ends, and each lies in the one above, where the nanoseconds carry neither time out of its month and its year ends before the largest
number of seconds. -/
theorem timeBuckets_nest_iff {t u : Timestamp} (ht : 0 ≤ t.ts.toInt) (hu : 0 ≤ u.ts.toInt) :
    ((∀ level ∈ [hr, day, month, year], (t.Within (level.bounds t) ∧ u.Within (level.bounds u)) ∧
        (level.bounds t = level.bounds u ∨ ∀ v : Timestamp, ¬ (v.Within (level.bounds t) ∧ v.Within (level.bounds u))) ∧
        (level.bounds (level.bounds t).2).1 = (level.bounds t).2 ∧ (level.bounds (level.bounds u).2).1 = (level.bounds u).2) ∧
      ∀ v : Timestamp, (v.Within t.toHRTimestamp → v.Within t.toDayTimestamp) ∧ (v.Within t.toDayTimestamp → v.Within t.toMonthTimestamp) ∧
        (v.Within t.toMonthTimestamp → v.Within t.toYearTimestamp)) ↔ t.Dated ∧ u.Dated := by
  constructor
  · rintro ⟨hall, -⟩
    obtain ⟨⟨hmt, hmu⟩, -⟩ := hall month month_mem_uppers
    obtain ⟨⟨hyt, hyu⟩, -⟩ := hall year year_mem_uppers
    exact ⟨dated_of_within ht hmt hyt, dated_of_within hu hmu hyu⟩
  · rintro ⟨h, h'⟩
    refine ⟨fun level hl => ⟨⟨?_, ?_⟩, same_or_disjoint ht h hu h' hl, start_of_end ht h hl, start_of_end hu h' hl⟩, fun v => ⟨?_, ?_, ?_⟩⟩
    · exact (within_bounds ht h hl).mpr ⟨level.buckets.floor_le _, level.buckets.lt_next _⟩
    · exact (within_bounds hu h' hl).mpr ⟨level.buckets.floor_le _, level.buckets.lt_next _⟩
    · exact within_of_refines ht h hr_mem_uppers day_mem_uppers hours_refines_days
    · exact within_of_refines ht h day_mem_uppers month_mem_uppers days_refines_months
    · exact within_of_refines ht h month_mem_uppers year_mem_uppers PttaiCore.months_refines_years

def lastOfJanuary : Timestamp := ⟨2678399, 2000000000⟩

def lastSecond : Timestamp := ⟨9223372036854775807, 0⟩

/-- A time outside its month, whose hour is outside that month too, and one whose hour ends before 1970. -/
theorem lastOfJanuary_outside :
    ¬ lastOfJanuary.Within lastOfJanuary.toMonthTimestamp ∧ lastOfJanuary.Within lastOfJanuary.toDayTimestamp ∧
      ¬ lastSecond.Within lastSecond.toHRTimestamp := by
  unfold Timestamp.Within
  decide +kernel

/-- The last day of a February and the first of March. -/
theorem timeBuckets_nest_iff_leap :
    (⟨68169600, 5⟩ : Timestamp).Within (⟨65750400, 0⟩, ⟨68256000, 0⟩) ∧
      ∀ v : Timestamp, v.Within (⟨65750400, 0⟩, ⟨68256000, 0⟩) → v.Within (⟨63072000, 0⟩, ⟨94694400, 0⟩) := by
  have hmonth : (⟨68169600, 5⟩ : Timestamp).toMonthTimestamp = (⟨65750400, 0⟩, ⟨68256000, 0⟩) := by decide +kernel
  have hyear : (⟨68169600, 5⟩ : Timestamp).toYearTimestamp = (⟨63072000, 0⟩, ⟨94694400, 0⟩) := by decide +kernel
  have hd : (⟨68169600, 5⟩ : Timestamp).Dated ∧ (⟨68256000, 0⟩ : Timestamp).Dated := by
    unfold Timestamp.Dated
    decide +kernel
  obtain ⟨hall, hnest⟩ := (timeBuckets_nest_iff (by decide) (by decide)).mpr hd
  have hin := (hall month month_mem_uppers).1.1
  rw [bounds, hmonth] at hin
  refine ⟨hin, fun v hv => ?_⟩
  rw [← hmonth] at hv
  exact hyear ▸ (hnest v).2.2 hv

end PttaiCore
