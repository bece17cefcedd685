import Mathlib.Order.Interval.Finset.Nat
import PttaiCore.Lemmas.Merkle
import PttaiCore.Lib.Recalc

/-! # The merkle tree as cells -/

namespace PttaiCore

open Buckets

/-! ## Buckets of the levels -/

def MerkleTreeLevel.uppers : List MerkleTreeLevel := [.hr, .day, .month, .year]

theorem MerkleTreeLevel.hr_mem_uppers : .hr ∈ uppers := by decide

theorem MerkleTreeLevel.day_mem_uppers : .day ∈ uppers := by decide

theorem MerkleTreeLevel.month_mem_uppers : .month ∈ uppers := by decide

theorem MerkleTreeLevel.year_mem_uppers : .year ∈ uppers := by decide

def MerkleTreeLevel.buckets : MerkleTreeLevel → Buckets
  | .day => Timestamp.days
  | .month => Timestamp.months
  | .year => Timestamp.years
  | .hr | .now | .invalid => Timestamp.hours

def InRange (x : Int) : Prop := 0 ≤ x ∧ Timestamp.years.next x < 2 ^ 63

def Timestamp.ofSec (x : Int) : Timestamp := ⟨Int64.ofInt x, 0⟩

section buckets

open MerkleTreeLevel

theorem hours_refines_days : Timestamp.hours.Refines Timestamp.days := uniform_refines _ _ (by decide)

theorem days_refines_months : Timestamp.days.Refines Timestamp.months := uniform_refines_scale _ _ _

theorem months_refines_years : Timestamp.months.Refines Timestamp.years := Buckets.months_refines_years.scale _ _

theorem child_refines {level : MerkleTreeLevel} (h : level ∈ uppers) (hhr : level ≠ .hr) :
    level.child.buckets.Refines level.buckets := by
  cases level with
  | hr => exact absurd rfl hhr
  | day => exact hours_refines_days
  | month => exact days_refines_months
  | year => exact months_refines_years
  | now => exact absurd h (by decide)
  | invalid => exact absurd h (by decide)

theorem refines_years (level : MerkleTreeLevel) : level.buckets.Refines Timestamp.years := by
  have hdays := days_refines_months.trans months_refines_years
  cases level with
  | day => exact hdays
  | month => exact months_refines_years
  | year => exact fun i => ⟨i, rfl⟩
  | _ => exact hours_refines_days.trans hdays

theorem hours_refines (level : MerkleTreeLevel) : Timestamp.hours.Refines level.buckets := by
  cases level with
  | day => exact hours_refines_days
  | month => exact hours_refines_days.trans days_refines_months
  | year => exact refines_years .hr
  | _ => exact fun i => ⟨i, rfl⟩

variable {x : Int}

theorem floor_nonneg (level : MerkleTreeLevel) (h : 0 ≤ x) : 0 ≤ level.buckets.floor x := by
  have hepoch : Timestamp.years.floor 0 = 0 := by decide
  calc 0 = Timestamp.years.floor 0 := hepoch.symm
    _ ≤ Timestamp.years.floor x := Timestamp.years.floor_mono h
    _ ≤ level.buckets.floor x := (refines_years level).floor_le_floor x

theorem InRange.lt (h : InRange x) : x < 2 ^ 63 := (Timestamp.years.lt_next x).trans h.2

theorem InRange.floor (h : InRange x) (level : MerkleTreeLevel) : InRange (level.buckets.floor x) := by
  have hyear : Timestamp.years.floor (level.buckets.floor x) = Timestamp.years.floor x := (refines_years level).floor_floor x
  exact ⟨floor_nonneg level h.1, (Timestamp.years.next_eq_of_floor_eq hyear).trans_lt h.2⟩

theorem InRange.next_lt (h : InRange x) (level : MerkleTreeLevel) : level.buckets.next x < 2 ^ 63 :=
  ((refines_years level).next_le_next x).trans_lt h.2

theorem next_sub_floor_le (level : MerkleTreeLevel) (x : Int) : level.buckets.next x - level.buckets.floor x ≤ 366 * 86400 := by
  have hyear : Timestamp.years.next x - Timestamp.years.floor x ≤ 366 * 86400 := by
    have hleap := leapDays_bounds (Buckets.yearOfDay (x / 86400))
    change 86400 * Buckets.daysBeforeYear (Buckets.yearOfDay (x / 86400) + 1) -
      86400 * Buckets.daysBeforeYear (Buckets.yearOfDay (x / 86400)) ≤ _
    simp only [Buckets.leapDays] at hleap
    omega
  have hnext := (refines_years level).next_le_next x
  have hfloor := (refines_years level).floor_le_floor x
  omega

theorem toInt_ofInt {x : Int} (h0 : 0 ≤ x) (h1 : x < 2 ^ 63) : (Int64.ofInt x).toInt = x :=
  Int64.toInt_ofInt_of_le (by omega) h1

theorem uniform_floor {sec n : Int64} {N : Int} (hN : n.toInt = N) (hn : 0 < N) (hsec : 0 ≤ sec.toInt) :
    (sec - sec % n).toInt = (Buckets.uniform N hn).floor sec.toInt := by
  rw [Timestamp.toInt_sub_mod, hN, Int.tmod_eq_emod_of_nonneg hsec, Buckets.uniform_floor]

theorem uniform_bounds {sec n : Int64} {N : Int} (hN : n.toInt = N) (hn : 0 < N) (hsec : 0 ≤ sec.toInt)
    (hlt : (Buckets.uniform N hn).next sec.toInt < 2 ^ 63) :
    sec - sec % n = Int64.ofInt ((Buckets.uniform N hn).floor sec.toInt) ∧
      sec - sec % n + n = Int64.ofInt ((Buckets.uniform N hn).next sec.toInt) := by
  have hmod_lt := Int.emod_lt_of_pos sec.toInt hn
  have hfloor := uniform_floor hN hn hsec
  refine ⟨by rw [← hfloor, Int64.ofInt_toInt], ?_⟩
  rw [Buckets.uniform_floor] at hfloor
  rw [uniform_next] at hlt ⊢
  have hmin := (sec - sec % n).le_toInt
  rw [← Int64.toInt_inj, toInt_ofInt (by omega) hlt, Int64.toInt_add, hfloor, hN]
  apply Int.bmod_eq_of_le <;> omega

theorem bounds_eq_of_lt {sec : Int64} {level : MerkleTreeLevel} (hl : level ∈ uppers) (h0 : 0 ≤ sec.toInt)
    (hnext : level.buckets.next sec.toInt < 2 ^ 63) :
    level.bounds ⟨sec, 0⟩ = (.ofSec (level.buckets.floor sec.toInt), .ofSec (level.buckets.next sec.toInt)) := by
  have hunix : (⟨sec, 0⟩ : Timestamp).unixSeconds = sec.toInt := by simp [Timestamp.unixSeconds]
  cases level with
  | hr =>
    obtain ⟨hfloor, hend⟩ := uniform_bounds (n := Timestamp.hrSeconds) rfl (by decide) h0 hnext
    simp only [bounds, Timestamp.toHRTimestamp, hend]
    rw [hfloor]
    rfl
  | day =>
    obtain ⟨hfloor, hend⟩ := uniform_bounds (n := Timestamp.daySeconds) rfl (by decide) h0 hnext
    simp only [bounds, Timestamp.toDayTimestamp, hend]
    rw [hfloor]
    rfl
  | month =>
    simp only [bounds, Timestamp.toMonthTimestamp, hunix]
    rfl
  | year =>
    simp only [bounds, Timestamp.toYearTimestamp, hunix]
    rfl
  | now => exact absurd hl (by decide)
  | invalid => exact absurd hl (by decide)

theorem bounds_eq {sec : Int64} (h : InRange sec.toInt) {level : MerkleTreeLevel} (hl : level ∈ uppers) :
    level.bounds ⟨sec, 0⟩ = (.ofSec (level.buckets.floor sec.toInt), .ofSec (level.buckets.next sec.toInt)) :=
  bounds_eq_of_lt hl h.1 (h.next_lt level)

end buckets

/-! ## The order of the keys -/

section keys

variable {m : Merkle} {level level' : MerkleTreeLevel} {a b : Int}

theorem MerkleTreeLevel.toUInt8_injective (h : level.toUInt8 = level'.toUInt8) : level = level' := by
  revert h
  cases level <;> cases level' <;> decide

theorem marshalKey_eq (m : Merkle) (level : MerkleTreeLevel) (ts : Timestamp) :
    m.marshalKey level ts = m.dbPrefix ++ (level.toUInt8 :: ts.marshal) := by
  rw [Merkle.marshalKey, Merkle.dbPrefix, List.append_assoc]

theorem unsigned_ofSec (h0 : 0 ≤ a) (h1 : a < 2 ^ 63) : (Timestamp.ofSec a).ts.toUInt64.toNat = a.toNat := by
  rw [Timestamp.ofSec, ← Int64.toNat_toBitVec, Int64.toBitVec_ofInt, BitVec.toNat_ofInt, Int.emod_eq_of_lt h0 (by omega)]

theorem marshal_sec_injective {sec sec' : Int64} (h : (⟨sec, 0⟩ : Timestamp).marshal = (⟨sec', 0⟩ : Timestamp).marshal) :
    sec = sec' := by
  have hnano : ¬ Timestamp.billion ≤ 0 := by decide
  have hread := congrArg Timestamp.unmarshal h
  rw [Timestamp.unmarshal_marshal, Timestamp.unmarshal_marshal, if_neg hnano, if_neg hnano] at hread
  exact congrArg Timestamp.ts (Except.ok.inj hread)

theorem marshal_lt_iff (t t' : Timestamp) : t.marshal < t'.marshal ↔ t.ts.toUInt64.toNat < t'.ts.toUInt64.toNat ∨
    t.ts.toUInt64.toNat = t'.ts.toUInt64.toNat ∧ t.nanoTs.toNat < t'.nanoTs.toNat := by
  have hlen : (Bytes.be 8 t.ts.toUInt64.toNat).length = (Bytes.be 8 t'.ts.toUInt64.toNat).length := by simp
  rw [Timestamp.marshal, Timestamp.marshal, Bytes.append_lt_append_iff hlen,
    Bytes.be_lt_be t.ts.toUInt64.toNat_lt t'.ts.toUInt64.toNat_lt, Bytes.be_lt_be t.nanoTs.toNat_lt t'.nanoTs.toNat_lt]
  refine or_congr_right (and_congr_left fun _ => ⟨fun h => ?_, fun h => h ▸ rfl⟩)
  exact Bytes.be_injective t.ts.toUInt64.toNat_lt t'.ts.toUInt64.toNat_lt h

theorem ofSec_unsigned {sec : Int64} (h : sec.toUInt64.toNat < 2 ^ 63) : Timestamp.ofSec sec.toUInt64.toNat = ⟨sec, 0⟩ := by
  have hnat := unsigned_ofSec (a := sec.toUInt64.toNat) (by omega) (by omega)
  rw [Int.toNat_natCast] at hnat
  have hsec : Int64.ofInt sec.toUInt64.toNat = sec :=
    Int64.toBitVec_inj.1 (UInt64.toBitVec_inj.2 (UInt64.toNat_inj.1 hnat))
  rw [Timestamp.ofSec, hsec]

theorem marshal_ofSec_lt_iff (ha : 0 ≤ a ∧ a < 2 ^ 63) (hb : 0 ≤ b ∧ b < 2 ^ 63) :
    (Timestamp.ofSec a).marshal < (Timestamp.ofSec b).marshal ↔ a < b := by
  have hnano : ¬ (Timestamp.ofSec a).nanoTs.toNat < (Timestamp.ofSec b).nanoTs.toNat := lt_irrefl _
  rw [marshal_lt_iff, unsigned_ofSec ha.1 ha.2, unsigned_ofSec hb.1 hb.2]
  omega

theorem marshalKey_lt_iff (ha : 0 ≤ a ∧ a < 2 ^ 63) (hb : 0 ≤ b ∧ b < 2 ^ 63) :
    m.marshalKey level (.ofSec a) < m.marshalKey level' (.ofSec b) ↔
      level.toUInt8 < level'.toUInt8 ∨ level = level' ∧ a < b := by
  rw [marshalKey_eq, marshalKey_eq, Bytes.append_lt_append_left, List.cons_lt_cons_iff, marshal_ofSec_lt_iff ha hb]
  refine or_congr_right (and_congr_left fun _ => ?_)
  exact ⟨MerkleTreeLevel.toUInt8_injective, fun h => h ▸ rfl⟩

theorem marshalKey_injective (ha : 0 ≤ a ∧ a < 2 ^ 63) (hb : 0 ≤ b ∧ b < 2 ^ 63)
    (h : m.marshalKey level (.ofSec a) = m.marshalKey level' (.ofSec b)) : level = level' ∧ a = b := by
  have h1 : ¬ m.marshalKey level (.ofSec a) < m.marshalKey level' (.ofSec b) := h ▸ lt_irrefl _
  have h2 : ¬ m.marshalKey level' (.ofSec b) < m.marshalKey level (.ofSec a) := h ▸ lt_irrefl _
  rw [marshalKey_lt_iff ha hb, not_or] at h1
  rw [marshalKey_lt_iff hb ha, not_or] at h2
  have hlevel : level = level' := MerkleTreeLevel.toUInt8_injective (le_antisymm (not_lt.1 h2.1) (not_lt.1 h1.1))
  exact ⟨hlevel, by_contra fun hne => by
    rcases lt_or_gt_of_ne hne with hlt | hgt
    · exact h1.2 ⟨hlevel, hlt⟩
    · exact h2.2 ⟨hlevel.symm, hgt⟩⟩

end keys

/-! ## Cells -/

@[ext]
structure Cell where
  level : MerkleTreeLevel
  start : Int
  upper : level ∈ MerkleTreeLevel.uppers
  isStart : level.buckets.floor start = start
  inRange : InRange start

namespace Cell

def above {x : Int} (h : InRange x) (level : MerkleTreeLevel) (hl : level ∈ MerkleTreeLevel.uppers) : Cell where
  level := level
  start := level.buckets.floor x
  upper := hl
  isStart := level.buckets.floor_floor x
  inRange := h.floor level

def next (c : Cell) : Int := c.level.buckets.next c.start

theorem start_bounds (c : Cell) : 0 ≤ c.start ∧ c.start < 2 ^ 63 := ⟨c.inRange.1, c.inRange.lt⟩

theorem next_bounds (c : Cell) : 0 ≤ c.next ∧ c.next < 2 ^ 63 :=
  ⟨c.inRange.1.trans (c.level.buckets.lt_next c.start).le, c.inRange.next_lt c.level⟩

variable (Γ : Ctx) (m : Merkle)

def key (c : Cell) : Bytes := m.marshalKey c.level (.ofSec c.start)

def deps (c : Cell) : Set Bytes :=
  {k | m.marshalKey c.level.child (.ofSec c.start) ≤ k ∧ k < m.marshalKey c.level.child (.ofSec c.next)}

def children (c : Cell) (db : KeyStore Bytes Value) : List MerkleNode :=
  (db.range (m.marshalKey c.level.child (.ofSec c.start)) (m.marshalKey c.level.child (.ofSec c.next))).filterMap
    (fun e => e.2.toNode)

def value (c : Cell) (db : KeyStore Bytes Value) : Option Value :=
  match c.children m db with
  | [] => none
  | children => some (.node ⟨c.level, Γ.addr (children.flatMap (fun n => n.addr.1)), .ofSec c.start,
      UInt32.ofNat children.length, []⟩)

theorem key_injective : Function.Injective (key m) := by
  intro c c' h
  obtain ⟨hlevel, hstart⟩ := marshalKey_injective c.start_bounds c'.start_bounds h
  exact Cell.ext hlevel hstart

def sheet : Sheet Cell Bytes Value where
  key := key m
  key_injective := key_injective m
  deps := deps m
  value := value Γ m
  value_congr c s t h := by
    have hrange : c.children m s = c.children m t := by
      rw [children, children, KeyStore.range_congr fun k h1 h2 => h k ⟨h1, h2⟩]
    rw [value, value, hrange]

variable {m}

theorem key_mem_deps {c c' : Cell} : c.key m ∈ c'.deps m ↔
    c.level = c'.level.child ∧ c'.start ≤ c.start ∧ c.start < c'.next := by
  rw [deps, Set.mem_ofPred_eq, key, ← not_lt, marshalKey_lt_iff c.start_bounds c'.start_bounds,
    marshalKey_lt_iff c.start_bounds c'.next_bounds]
  constructor
  · rintro ⟨hlo, hhi | ⟨hlevel, hhi⟩⟩
    · exact absurd (.inl hhi) hlo
    · refine ⟨hlevel, not_lt.1 fun hlt => hlo (.inr ⟨hlevel, hlt⟩), hhi⟩
  · rintro ⟨hlevel, hlo, hhi⟩
    refine ⟨?_, .inr ⟨hlevel, hhi⟩⟩
    rintro (hlt | ⟨-, hlt⟩)
    · exact absurd (hlevel ▸ hlt) (lt_irrefl _)
    · exact absurd hlt (not_lt.2 hlo)

def path {x : Int} (h : InRange x) : List Cell :=
  [above h .hr MerkleTreeLevel.hr_mem_uppers, above h .day MerkleTreeLevel.day_mem_uppers,
    above h .month MerkleTreeLevel.month_mem_uppers, above h .year MerkleTreeLevel.year_mem_uppers]

theorem mem_path {x : Int} {h : InRange x} {c : Cell} : c ∈ path h ↔ c.start = c.level.buckets.floor x := by
  constructor
  · intro hc
    simp only [path, List.mem_cons, List.not_mem_nil, or_false] at hc
    rcases hc with rfl | rfl | rfl | rfl <;> rfl
  · intro hstart
    have hc : c = above h c.level c.upper := Cell.ext rfl hstart
    obtain ⟨level, start, upper, isStart, inRange⟩ := c
    simp only [MerkleTreeLevel.uppers, List.mem_cons, List.not_mem_nil, or_false] at upper
    rw [hc]
    rcases upper with rfl | rfl | rfl | rfl <;> simp [path]

theorem child_ne (level : MerkleTreeLevel) (h : level ∈ MerkleTreeLevel.uppers) : level ≠ level.child := by
  revert h
  cases level <;> decide

theorem path_isPath {x : Int} (h : InRange x) : (sheet Γ m).IsPath (path h) := by
  have hkey : ∀ {l l' : MerkleTreeLevel} (hl : l ∈ MerkleTreeLevel.uppers) (hl' : l' ∈ MerkleTreeLevel.uppers),
      l ≠ l'.child ∧ l ≠ l' →
      (above h l hl).key m ∉ (above h l' hl').deps m ∧ (above h l hl).key m ≠ (above h l' hl').key m := by
    intro l l' hl hl' hne
    exact ⟨fun hdep => hne.1 (key_mem_deps.1 hdep).1, fun heq => hne.2 (congrArg Cell.level (key_injective m heq))⟩
  refine ⟨?_, ?_, ?_⟩
  · simp only [path, List.pairwise_cons, List.mem_cons, List.not_mem_nil, or_false]
    refine ⟨?_, ?_, ?_, by simp⟩
    · rintro c (rfl | rfl | rfl) <;> exact hkey _ _ (by decide)
    · rintro c (rfl | rfl) <;> exact hkey _ _ (by decide)
    · rintro c rfl
      exact hkey _ _ (by decide)
  · intro c _ hdep
    exact child_ne c.level c.upper (key_mem_deps.1 hdep).1
  · intro c hc c' hdep
    obtain ⟨hlevel, hlo, hhi⟩ := key_mem_deps.1 hdep
    have hhr : c'.level ≠ .hr := by
      intro heq
      rw [heq] at hlevel
      exact absurd c.upper (hlevel ▸ by decide)
    have hrefines := child_refines c'.upper hhr
    rw [← hlevel] at hrefines
    rw [mem_path] at hc ⊢
    calc c'.start = c'.level.buckets.floor c'.start := c'.isStart.symm
      _ = c'.level.buckets.floor c.start := (floor_eq _ (c'.isStart.le.trans hlo) hhi).symm
      _ = c'.level.buckets.floor x := by rw [hc, hrefines.floor_floor]

end Cell

end PttaiCore
