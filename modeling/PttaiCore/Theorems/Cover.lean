import PttaiCore.Lemmas.Solo
import PttaiCore.Theorems.Journal

/-! # The list of nodes up to a time covers the oplogs before it -/

namespace PttaiCore

open MerkleTreeLevel Buckets Timestamp List

def MerkleNode.covers (u n : MerkleNode) : Bool :=
  if u.level = .now then decide (u = n)
  else (u.level.bounds u.updateTS).1.isLessEqual n.updateTS && n.updateTS.isLess (u.level.bounds u.updateTS).2

def Merkle.listUpTo (m : Merkle) (db : KeyStore Bytes Value) (ts : Timestamp) : List MerkleNode :=
  (m.getMerkleTreeList db ts true).1 ++ (m.getMerkleTreeList db ts true).2

structure ExactCover (m : Merkle) (db : KeyStore Bytes Value) (ts : Timestamp) : Prop where
  sorted : (m.listUpTo db ts).Pairwise fun a b => b.updateTS.isLess a.updateTS = false
  once : ∀ n ∈ m.leaves db, n.updateTS.isLess ts = true → (m.listUpTo db ts).countP (fun u => u.covers n) = 1
  never : ∀ n ∈ m.leaves db, n.updateTS.isLess ts = false → ∀ u ∈ m.listUpTo db ts, u.covers n = false

def InCarriedMonth (ts : Timestamp) (n : MerkleNode) : Prop :=
  Timestamp.days.floor ts.ts.toInt ≤ n.updateTS.ts.toInt ∧ n.updateTS.ts.toInt < Timestamp.months.floor ts.unixSeconds

def IsSkipped (ts : Timestamp) (n : MerkleNode) : Prop :=
  Timestamp.hours.floor ts.ts.toInt ≤ n.updateTS.ts.toInt ∧ n.updateTS.isLess ts = true ∧ n.isReadable = false

namespace CoverAux

variable {Γ : Ctx} {m : Merkle} {db : KeyStore Bytes Value} {level : MerkleTreeLevel} {n u : MerkleNode} {ts : Timestamp} {a b : Int}

/-! ## The boundaries -/

theorem unixSeconds_bounds (ts : Timestamp) : ts.ts.toInt ≤ ts.unixSeconds ∧ ts.unixSeconds ≤ ts.ts.toInt + 4 := by
  have hnano := ts.nanoTs.toNat_lt
  have hdiv : (ts.nanoTs / Timestamp.billion).toNat = ts.nanoTs.toNat / 1000000000 := rfl
  rw [Timestamp.unixSeconds, hdiv]
  omega

def IsDay (x : Int) : Prop := Timestamp.days.floor x = x

theorem isDay_iff : IsDay b ↔ b % 86400 = 0 := by
  rw [IsDay, Timestamp.days, Buckets.uniform_floor]
  omega

theorem isDay_floor_months (x : Int) : IsDay (Timestamp.months.floor x) := days_refines_months.floor_of_floor x

theorem isDay_floor_years (x : Int) : IsDay (Timestamp.years.floor x) :=
  (days_refines_months.trans months_refines_years).floor_of_floor x

theorem lt_of_isDay (hb : IsDay b) (hle : b ≤ ts.unixSeconds) : b < 2 ^ 63 := by
  have hunix := unixSeconds_bounds ts
  have hlt := ts.ts.toInt_lt
  rw [isDay_iff] at hb
  omega

theorem le_floor_of_lt (ha : IsDay a) (hb : IsDay b) (hle : b ≤ ts.unixSeconds) (hlt : a < b) :
    a ≤ Timestamp.days.floor ts.ts.toInt := by
  have hunix := unixSeconds_bounds ts
  rw [isDay_iff] at ha hb
  rw [Timestamp.days, Buckets.uniform_floor]
  omega

theorem boundaries (hts : 0 ≤ ts.ts.toInt) :
    (0 ≤ Timestamp.years.floor ts.unixSeconds ∧ Timestamp.years.floor ts.unixSeconds < 2 ^ 63) ∧
    (0 ≤ Timestamp.months.floor ts.unixSeconds ∧ Timestamp.months.floor ts.unixSeconds < 2 ^ 63) ∧
    (0 ≤ Timestamp.days.floor ts.ts.toInt ∧ Timestamp.days.floor ts.ts.toInt < 2 ^ 63) ∧
    (0 ≤ Timestamp.hours.floor ts.ts.toInt ∧ Timestamp.hours.floor ts.ts.toInt < 2 ^ 63) := by
  have hunix : 0 ≤ ts.unixSeconds := hts.trans (unixSeconds_bounds ts).1
  have hlt := ts.ts.toInt_lt
  refine ⟨⟨floor_nonneg .year hunix, lt_of_isDay (isDay_floor_years _) (floor_le _ _)⟩,
    ⟨floor_nonneg .month hunix, lt_of_isDay (isDay_floor_months _) (floor_le _ _)⟩,
    ⟨floor_nonneg .day hts, (floor_le _ _).trans_lt hlt⟩, ⟨floor_nonneg .hr hts, (floor_le _ _).trans_lt hlt⟩⟩

/-! ## Counting the nodes above an oplog -/

theorem countP_eq_one {α : Type} [DecidableEq α] {l : List α} {p : α → Bool} {x : α} (hnodup : l.Nodup) (hx : x ∈ l) (hp : p x = true)
    (huniq : ∀ y ∈ l, p y = true → y = x) : l.countP p = 1 := by
  have hcongr : l.countP p = l.count x := by
    refine countP_congr fun y hy => ?_
    constructor
    · intro hpy
      simp [huniq y hy hpy]
    · intro hyx
      rw [LawfulBEq.eq_of_beq hyx]
      exact hp
  rw [hcongr]
  exact count_eq_one_of_mem hnodup hx

theorem covers_span (h : Consistent Γ m db) {c : Span} (hget : db.get (c.key m) = some (.node u)) :
    u.covers n = true ↔ c.start ≤ n.updateTS.ts.toInt ∧ n.updateTS.ts.toInt < c.next := by
  obtain ⟨hlevel, hts⟩ := h.span_node hget
  have hbounds : c.level.bounds (.ofSec c.start) = (.ofSec c.start, .ofSec c.next) := c.bounds_eq
  have hnow : c.level ≠ .now := by
    intro heq
    have hupper := c.upper
    rw [heq] at hupper
    exact absurd hupper (by decide)
  rw [MerkleNode.covers, hlevel, if_neg hnow, hts, hbounds, Bool.and_eq_true, isLessEqual_iff, isLess_iff,
    order_ofSec_le c.nonneg c.start_lt, order_lt_ofSec c.next_nonneg c.next_lt]

theorem nodup_list (h : Consistent Γ m db) (hl : level ∈ now :: uppers) (t t' : Timestamp) :
    (m.getMerkleTreeListCore db level t t').Nodup := by
  rw [getMerkleTreeListCore_eq]
  exact ((h.pairwise_nodesBetween hl).imp And.right).filter _

theorem countP_upper (h : Consistent Γ m db) (hl : level ∈ uppers) (ha : 0 ≤ a ∧ a < 2 ^ 63) (hb : 0 ≤ b ∧ b < 2 ^ 63)
    (hfa : level.buckets.floor a = a) (hfb : level.buckets.floor b = b) (hn : n ∈ m.leaves db) :
    (m.getMerkleTreeListCore db level (.ofSec a) (.ofSec b)).countP (fun u => u.covers n) =
      if a ≤ n.updateTS.ts.toInt ∧ n.updateTS.ts.toInt < b then 1 else 0 := by
  split_ifs with hin
  · have h0 : 0 ≤ n.updateTS.ts.toInt := ha.1.trans hin.1
    have hnext : level.buckets.next n.updateTS.ts.toInt ≤ b := by
      rw [← level.buckets.next_floor]
      exact level.buckets.next_le_of_lt (level.buckets.floor_floor _) hfb ((level.buckets.floor_le _).trans_lt hin.2)
    obtain ⟨u, hu⟩ := h.exists_above hl (mem_leaves.1 hn) h0 (hnext.trans_lt hb.2)
    have hmem : u ∈ m.getMerkleTreeListCore db level (.ofSec a) (.ofSec b) := by
      refine (h.mem_list_upper hl ha hb hfb).2 ⟨_, rfl, ?_, ?_, hu⟩
      · exact hfa.ge.trans (level.buckets.floor_mono hin.1)
      · exact (level.buckets.next_floor _).trans_le hnext
    refine countP_eq_one (nodup_list h (.tail _ hl) _ _) hmem ((covers_span h hu).2 ⟨level.buckets.floor_le _, ?_⟩) ?_
    · exact (level.buckets.lt_next _).trans_eq (level.buckets.next_floor _).symm
    · intro u' hu' hcov
      obtain ⟨c, rfl, -, -, hget⟩ := (h.mem_list_upper hl ha hb hfb).1 hu'
      obtain ⟨hlo, hhi⟩ := (covers_span h hget).1 hcov
      have hc : c = Span.above c.upper h0 (hnext.trans_lt hb.2) := by
        refine Span.ext rfl ?_
        exact (c.mem_bucket_iff.1 ⟨hlo, hhi⟩).symm
      rw [hc] at hget
      exact (Value.node.inj (Option.some.inj (hu.symm.trans hget))).symm
  · rw [countP_eq_zero]
    intro u hu hcov
    obtain ⟨c, rfl, hlo, hhi, hget⟩ := (h.mem_list_upper hl ha hb hfb).1 hu
    obtain ⟨hlo', hhi'⟩ := (covers_span h hget).1 hcov
    exact hin ⟨hlo.trans hlo', hhi'.trans_le hhi⟩

theorem countP_now (h : Consistent Γ m db) (ha : 0 ≤ a ∧ a < 2 ^ 63) (hts : 0 ≤ ts.ts.toInt) (hn : n ∈ m.leaves db) :
    (m.getMerkleTreeListCore db .now (.ofSec a) ts).countP (fun u => u.covers n) =
      if a ≤ n.updateTS.ts.toInt ∧ n.updateTS.isLess ts = true ∧ n.isReadable = true then 1 else 0 := by
  have hnow : now ∈ now :: uppers := mem_cons_self
  have ha' : 0 ≤ (Timestamp.ofSec a).ts.toInt := ha.1.trans (toInt_ofSec ha.1 ha.2).ge
  have hmem : n ∈ m.getMerkleTreeListCore db .now (.ofSec a) ts ↔
      a ≤ n.updateTS.ts.toInt ∧ n.updateTS.isLess ts = true ∧ n.isReadable = true := by
    rw [getMerkleTreeListCore_eq, mem_filter, h.mem_nodesBetween hnow, isLess_iff, and_iff_right (mem_leaves.1 hn),
      and_assoc]
    by_cases h0 : 0 ≤ n.updateTS.ts.toInt
    · rw [keyOrder_le_iff ha' h0, keyOrder_lt_iff h0 hts, order_ofSec_le ha.1 ha.2]
    · constructor
      · rintro ⟨-, hlt, -⟩
        exact absurd (keyOrder_lt_of_neg hts (not_le.1 h0)) (lt_asymm hlt)
      · rintro ⟨hle, -⟩
        exact absurd (ha.1.trans hle) h0
  have hcov : ∀ u ∈ m.getMerkleTreeListCore db .now (.ofSec a) ts, u.covers n = true ↔ u = n := by
    intro u hu
    rw [getMerkleTreeListCore_eq, mem_filter, h.mem_nodesBetween hnow] at hu
    obtain ⟨⟨⟨r, hget⟩, -⟩, -⟩ := hu
    rw [MerkleNode.covers, if_pos (h.leaf r u hget).level, decide_eq_true_iff]
  split_ifs with hin
  · exact countP_eq_one (nodup_list h hnow _ _) (hmem.2 hin) ((hcov n (hmem.2 hin)).2 rfl) fun u hu hc => (hcov u hu).1 hc
  · rw [countP_eq_zero]
    intro u hu hc
    rw [(hcov u hu).1 hc] at hu
    exact hin (hmem.1 hu)

theorem listUpTo_eq (m : Merkle) (db : KeyStore Bytes Value) (hts : 0 ≤ ts.ts.toInt) : m.listUpTo db ts =
    (m.getMerkleTreeListCore db .year (.ofSec 0) (.ofSec (Timestamp.years.floor ts.unixSeconds)) ++
      (m.getMerkleTreeListCore db .month (.ofSec (Timestamp.years.floor ts.unixSeconds))
        (.ofSec (Timestamp.months.floor ts.unixSeconds)) ++
      (m.getMerkleTreeListCore db .day (.ofSec (Timestamp.months.floor ts.unixSeconds)) (.ofSec (Timestamp.days.floor ts.ts.toInt)) ++
      m.getMerkleTreeListCore db .hr (.ofSec (Timestamp.days.floor ts.ts.toInt)) (.ofSec (Timestamp.hours.floor ts.ts.toInt))))) ++
      m.getMerkleTreeListCore db .now (.ofSec (Timestamp.hours.floor ts.ts.toInt)) ts := by
  rw [Merkle.listUpTo, Merkle.getMerkleTreeList, toDayTimestamp_eq hts, toHRTimestamp_eq hts]
  rfl

theorem countP_listUpTo (h : Consistent Γ m db) (hts : 0 ≤ ts.ts.toInt) (hn : n ∈ m.leaves db) :
    (m.listUpTo db ts).countP (fun u => u.covers n) =
      (if 0 ≤ n.updateTS.ts.toInt ∧ n.updateTS.ts.toInt < Timestamp.years.floor ts.unixSeconds then 1 else 0) +
      ((if Timestamp.years.floor ts.unixSeconds ≤ n.updateTS.ts.toInt ∧ n.updateTS.ts.toInt < Timestamp.months.floor ts.unixSeconds
        then 1 else 0) +
      ((if Timestamp.months.floor ts.unixSeconds ≤ n.updateTS.ts.toInt ∧ n.updateTS.ts.toInt < Timestamp.days.floor ts.ts.toInt
        then 1 else 0) +
      (if Timestamp.days.floor ts.ts.toInt ≤ n.updateTS.ts.toInt ∧ n.updateTS.ts.toInt < Timestamp.hours.floor ts.ts.toInt
        then 1 else 0))) +
      (if Timestamp.hours.floor ts.ts.toInt ≤ n.updateTS.ts.toInt ∧ n.updateTS.isLess ts = true ∧ n.isReadable = true
        then 1 else 0) := by
  obtain ⟨hY, hM, hD, hH⟩ := boundaries hts
  have hzero : Timestamp.years.floor 0 = 0 := by decide
  rw [listUpTo_eq m db hts]
  simp only [countP_append]
  rw [countP_upper h year_mem_uppers ⟨le_rfl, by decide⟩ hY hzero (floor_floor _ _) hn,
    countP_upper h month_mem_uppers hY hM (months_refines_years.floor_of_floor _) (floor_floor _ _) hn,
    countP_upper h day_mem_uppers hM hD (days_refines_months.floor_of_floor _) (floor_floor _ _) hn,
    countP_upper h hr_mem_uppers hD hH (hours_refines_days.floor_of_floor _) (floor_floor _ _) hn,
    countP_now h hH hts hn]

/-! ## The order of the list -/

structure StartsIn (a b : Int) (u : MerkleNode) (s : Int) : Prop where
  time : u.updateTS = .ofSec s
  nonneg : 0 ≤ s
  le : a ≤ s
  lt : s < b
  inRange : s < 2 ^ 63

theorem startsIn_of_mem (h : Consistent Γ m db) (hl : level ∈ uppers) (ha : 0 ≤ a ∧ a < 2 ^ 63) (hb : 0 ≤ b ∧ b < 2 ^ 63)
    (hfb : level.buckets.floor b = b) (hu : u ∈ m.getMerkleTreeListCore db level (.ofSec a) (.ofSec b)) :
    ∃ s, level.buckets.floor s = s ∧ StartsIn a b u s := by
  obtain ⟨c, rfl, hlo, hhi, hget⟩ := (h.mem_list_upper hl ha hb hfb).1 hu
  exact ⟨c.start, c.isStart, (h.span_node hget).2, c.nonneg, hlo, c.start_lt_next.trans_le hhi, c.start_lt⟩

theorem StartsIn.not_isLess {s : Int} (hu : StartsIn a b u s) (hle : s ≤ n.updateTS.ts.toInt) : n.updateTS.isLess u.updateTS = false := by
  rw [isLess_eq_false_iff, hu.time, order_ofSec_le hu.nonneg hu.inRange]
  exact hle

theorem StartsIn.toInt_eq {s : Int} (hu : StartsIn a b u s) : u.updateTS.ts.toInt = s := by
  rw [hu.time, toInt_ofSec hu.nonneg hu.inRange]

theorem sorted_level (h : Consistent Γ m db) (hl : level ∈ now :: uppers) {t t' : Timestamp}
    (h0 : ∀ u ∈ m.getMerkleTreeListCore db level t t', 0 ≤ u.updateTS.ts.toInt) :
    (m.getMerkleTreeListCore db level t t').Pairwise fun a b => b.updateTS.isLess a.updateTS = false := by
  have hpair : (m.getMerkleTreeListCore db level t t').Pairwise fun a b => a.updateTS.keyOrder ≤ b.updateTS.keyOrder := by
    rw [getMerkleTreeListCore_eq]
    exact ((h.pairwise_nodesBetween hl).imp And.left).filter _
  refine hpair.imp_of_mem fun {a b} ha hb hle => ?_
  rwa [isLess_eq_false_iff, ← keyOrder_le_iff (h0 a ha) (h0 b hb)]

theorem le_of_mem_now (h : Consistent Γ m db) (ha : 0 ≤ a ∧ a < 2 ^ 63) (hts : 0 ≤ ts.ts.toInt)
    (hu : u ∈ m.getMerkleTreeListCore db .now (.ofSec a) ts) : a ≤ u.updateTS.ts.toInt := by
  rw [getMerkleTreeListCore_eq, mem_filter, h.mem_nodesBetween mem_cons_self] at hu
  obtain ⟨⟨-, hlo, hhi⟩, -⟩ := hu
  have h0 : 0 ≤ u.updateTS.ts.toInt := not_lt.1 fun hneg => absurd (keyOrder_lt_of_neg hts hneg) (lt_asymm hhi)
  rwa [keyOrder_le_iff (ha.1.trans (toInt_ofSec ha.1 ha.2).ge) h0, order_ofSec_le ha.1 ha.2] at hlo

theorem sorted_listUpTo (h : Consistent Γ m db) (hts : 0 ≤ ts.ts.toInt) :
    (m.listUpTo db ts).Pairwise fun a b => b.updateTS.isLess a.updateTS = false := by
  obtain ⟨hY, hM, hD, hH⟩ := boundaries hts
  have hYM : Timestamp.years.floor ts.unixSeconds ≤ Timestamp.months.floor ts.unixSeconds := months_refines_years.floor_le_floor _
  have hDH : Timestamp.days.floor ts.ts.toInt ≤ Timestamp.hours.floor ts.ts.toInt := hours_refines_days.floor_le_floor _
  rw [listUpTo_eq m db hts]
  -- Years and months end at a day that has begun, so that their nodes start no later than the day of `ts`.
  have year : ∀ u ∈ m.getMerkleTreeListCore db .year (.ofSec 0) (.ofSec (Timestamp.years.floor ts.unixSeconds)),
      ∃ s, StartsIn 0 (Timestamp.years.floor ts.unixSeconds) u s ∧ s ≤ Timestamp.days.floor ts.ts.toInt := by
    intro u hu
    obtain ⟨s, hs, hstart⟩ := startsIn_of_mem h year_mem_uppers ⟨le_rfl, by decide⟩ hY (floor_floor _ _) hu
    exact ⟨s, hstart, le_floor_of_lt (hs ▸ isDay_floor_years s) (isDay_floor_years _) (floor_le _ _) hstart.lt⟩
  have month : ∀ u ∈ m.getMerkleTreeListCore db .month (.ofSec (Timestamp.years.floor ts.unixSeconds))
      (.ofSec (Timestamp.months.floor ts.unixSeconds)), ∃ s, StartsIn (Timestamp.years.floor ts.unixSeconds)
        (Timestamp.months.floor ts.unixSeconds) u s ∧ s ≤ Timestamp.days.floor ts.ts.toInt := by
    intro u hu
    obtain ⟨s, hs, hstart⟩ := startsIn_of_mem h month_mem_uppers hY hM (floor_floor _ _) hu
    exact ⟨s, hstart, le_floor_of_lt (hs ▸ isDay_floor_months s) (isDay_floor_months _) (floor_le _ _) hstart.lt⟩
  have day := fun u => startsIn_of_mem (u := u) h day_mem_uppers hM hD (floor_floor _ _)
  have hr := fun u => startsIn_of_mem (u := u) h hr_mem_uppers hD hH (floor_floor _ _)
  have now := fun u => le_of_mem_now (u := u) h hH hts
  have level : ∀ {l : MerkleTreeLevel} (hl : l ∈ uppers) {a b : Int} (_ : 0 ≤ a ∧ a < 2 ^ 63) (_ : 0 ≤ b ∧ b < 2 ^ 63)
      (_ : l.buckets.floor b = b), (m.getMerkleTreeListCore db l (.ofSec a) (.ofSec b)).Pairwise
        fun a b => b.updateTS.isLess a.updateTS = false := by
    intro l hl a b ha hb hfb
    refine sorted_level h (.tail _ hl) fun u hu => ?_
    obtain ⟨s, -, hs⟩ := startsIn_of_mem h hl ha hb hfb hu
    exact hs.nonneg.trans hs.toInt_eq.ge
  simp only [pairwise_append, mem_append]
  refine ⟨⟨level year_mem_uppers ⟨le_rfl, by decide⟩ hY (floor_floor _ _), ⟨level month_mem_uppers hY hM (floor_floor _ _),
    ⟨level day_mem_uppers hM hD (floor_floor _ _), level hr_mem_uppers hD hH (floor_floor _ _), ?_⟩, ?_⟩, ?_⟩,
    sorted_level h (.head _) fun u hu => hH.1.trans (now u hu), ?_⟩
  · intro u hu u' hu'
    obtain ⟨s, -, hs⟩ := day u hu
    obtain ⟨s', -, hs'⟩ := hr u' hu'
    exact hs.not_isLess (hs'.toInt_eq ▸ hs.lt.le.trans hs'.le)
  · intro u hu u' hu'
    obtain ⟨s, hs, hle⟩ := month u hu
    rcases hu' with hu' | hu'
    · obtain ⟨s', -, hs'⟩ := day u' hu'
      exact hs.not_isLess (hs'.toInt_eq ▸ hs.lt.le.trans hs'.le)
    · obtain ⟨s', -, hs'⟩ := hr u' hu'
      exact hs.not_isLess (hs'.toInt_eq ▸ hle.trans hs'.le)
  · intro u hu u' hu'
    obtain ⟨s, hs, hle⟩ := year u hu
    rcases hu' with hu' | hu' | hu'
    · obtain ⟨s', hs', -⟩ := month u' hu'
      exact hs.not_isLess (hs'.toInt_eq ▸ hs.lt.le.trans hs'.le)
    · obtain ⟨s', -, hs'⟩ := day u' hu'
      exact hs.not_isLess (hs'.toInt_eq ▸ hs.lt.le.trans (hYM.trans hs'.le))
    · obtain ⟨s', -, hs'⟩ := hr u' hu'
      exact hs.not_isLess (hs'.toInt_eq ▸ hle.trans hs'.le)
  · intro u hu u' hu'
    have hnow := now u' hu'
    rcases hu with hu | hu | hu | hu
    · obtain ⟨s, hs, hle⟩ := year u hu
      exact hs.not_isLess (hle.trans (hDH.trans hnow))
    · obtain ⟨s, hs, hle⟩ := month u hu
      exact hs.not_isLess (hle.trans (hDH.trans hnow))
    · obtain ⟨s, -, hs⟩ := day u hu
      exact hs.not_isLess (hs.lt.le.trans (hDH.trans hnow))
    · obtain ⟨s, -, hs⟩ := hr u hu
      exact hs.not_isLess (hs.lt.le.trans hnow)

/-! ## The condition -/

theorem isLess_bounds {t u : Timestamp} :
    (t.isLess u = true → t.ts.toInt ≤ u.ts.toInt) ∧ (t.ts.toInt < u.ts.toInt → t.isLess u = true) := by
  rw [isLess_iff, Timestamp.order, Timestamp.order, Prod.Lex.lt_iff]
  simp only [ofLex_toLex]
  omega

theorem month_before_or_carried (ts : Timestamp) : Timestamp.months.floor ts.unixSeconds ≤ Timestamp.days.floor ts.ts.toInt ∨
    ts.ts.toInt < Timestamp.months.floor ts.unixSeconds := by
  refine (le_or_gt (Timestamp.months.floor ts.unixSeconds) ts.ts.toInt).imp_left fun hle => ?_
  exact (isDay_floor_months ts.unixSeconds).ge.trans (Timestamp.days.floor_mono hle)

theorem exactCover_iff_countP (h : Consistent Γ m db) (hts : 0 ≤ ts.ts.toInt) : ExactCover m db ts ↔ ∀ n ∈ m.leaves db,
    (m.listUpTo db ts).countP (fun u => u.covers n) = if n.updateTS.isLess ts = true then 1 else 0 := by
  constructor
  · intro hcover n hn
    split_ifs with hless
    · exact hcover.once n hn hless
    · rw [countP_eq_zero]
      intro u hu hc
      rw [hcover.never n hn (Bool.not_eq_true _ ▸ hless) u hu] at hc
      cases hc
  · intro hcount
    refine ⟨sorted_listUpTo h hts, fun n hn hless => ?_, fun n hn hless u hu => ?_⟩
    · rw [hcount n hn, if_pos hless]
    · have hzero := hcount n hn
      rw [hless, if_neg Bool.false_ne_true, countP_eq_zero] at hzero
      exact Bool.not_eq_true _ ▸ hzero u hu

end CoverAux

open CoverAux in
/-- The list up to a time from 1970 on is an exact cover if and only if every oplog is from 1970 on, and is in the month that the
nanoseconds of the time carry it into exactly if it is left out of the hour of the time. Without such nanoseconds no oplog may be
left out. -/
theorem exactCover_iff {Γ : Ctx} {m : Merkle} {db : KeyStore Bytes Value} (h : Consistent Γ m db) {ts : Timestamp}
    (hts : 0 ≤ ts.ts.toInt) :
    ExactCover m db ts ↔ ∀ n ∈ m.leaves db, 0 ≤ n.updateTS.ts.toInt ∧ (InCarriedMonth ts n ↔ IsSkipped ts n) := by
  rw [exactCover_iff_countP h hts]
  refine forall₂_congr fun n hn => ?_
  have hYM : Timestamp.years.floor ts.unixSeconds ≤ Timestamp.months.floor ts.unixSeconds := months_refines_years.floor_le_floor _
  have hDH : Timestamp.days.floor ts.ts.toInt ≤ Timestamp.hours.floor ts.ts.toInt := hours_refines_days.floor_le_floor _
  have hHt : Timestamp.hours.floor ts.ts.toInt ≤ ts.ts.toInt := Buckets.floor_le _ _
  obtain ⟨⟨hY, -⟩, -, ⟨hD, -⟩, -⟩ := boundaries hts
  have hcarry := month_before_or_carried ts
  obtain ⟨hle, hlt⟩ := isLess_bounds (t := n.updateTS) (u := ts)
  rw [countP_listUpTo h hts hn, InCarriedMonth, IsSkipped]
  cases hless : n.updateTS.isLess ts with
  | true =>
    have hxt := hle hless
    cases n.isReadable with
    | true =>
      simp only [and_true, if_true, and_false, Bool.true_eq_false, iff_false]
      constructor <;> intro hc <;> split_ifs at * <;> omega
    | false =>
      simp only [and_true, if_true, and_false, Bool.false_eq_true, if_false]
      constructor <;> intro hc <;> split_ifs at * <;> omega
  | false =>
    have hxt : ¬ n.updateTS.ts.toInt < ts.ts.toInt := fun hx => absurd (hlt hx) (by rw [hless]; decide)
    simp only [Bool.false_eq_true, false_and, and_false, if_false, iff_false]
    constructor <;> intro hc <;> split_ifs at * <;> omega

namespace CoverWitness

open SigningWitness JournalWitness

def addr : ByteArrayOf 20 := ByteArrayOf.replicate 20 7

def leafAt (sec : Int64) : MerkleNode := leafNode merkle addr ⟨sec, 0⟩ []

def treeAt (sec : Int64) : KeyStore Bytes Value := soloTree ctx merkle (leafAt sec) ((⟨sec, 0⟩ : Timestamp).marshal ++ [])

theorem consistent_treeAt {sec : Int64} (h : 0 ≤ sec.toInt) : Consistent ctx merkle (treeAt sec) :=
  consistent_soloTree ctx h (isLeaf_leafNode _ _ _ _)

theorem mem_leaves_treeAt {sec : Int64} {n : MerkleNode} : n ∈ merkle.leaves (treeAt sec) ↔ n = leafAt sec := by
  rw [mem_leaves, treeAt, SoloAux.hasNode_iff mem_cons_self]
  rfl

end CoverWitness

open CoverWitness SigningWitness JournalWitness in
/-- The tree of an oplog of the second hour of 1970, up to the third. -/
theorem exactCover_iff_treeAt : Consistent ctx merkle (treeAt 5000) ∧ ExactCover merkle (treeAt 5000) ⟨9000, 0⟩ := by
  have hconsistent : Consistent ctx merkle (treeAt 5000) := consistent_treeAt (by decide)
  refine ⟨hconsistent, (exactCover_iff hconsistent (by decide)).2 fun n hn => ?_⟩
  rw [mem_leaves_treeAt] at hn
  subst hn
  have hcarried : ¬ InCarriedMonth ⟨9000, 0⟩ (leafAt 5000) := by
    unfold InCarriedMonth
    decide
  exact ⟨by decide, iff_of_false hcarried fun h => absurd h.2.2 (by decide)⟩

open CoverWitness SigningWitness JournalWitness in
/-- The nanoseconds of the time carry it from the last second of January into February: the node of January is listed, and so is the
oplog of the second before below it. -/
theorem covered_twice : Consistent ctx merkle (treeAt 2678398) ∧
    (merkle.listUpTo (treeAt 2678398) ⟨2678399, 1000000000⟩).map (fun u => (u.level, u.updateTS)) =
      [(.month, ⟨0, 0⟩), (.now, ⟨2678398, 0⟩)] ∧
    (merkle.listUpTo (treeAt 2678398) ⟨2678399, 1000000000⟩).countP (fun u => u.covers (leafAt 2678398)) = 2 ∧
    ¬ ExactCover merkle (treeAt 2678398) ⟨2678399, 1000000000⟩ := by
  have hcount : (merkle.listUpTo (treeAt 2678398) ⟨2678399, 1000000000⟩).countP (fun u => u.covers (leafAt 2678398)) = 2 := by
    decide +kernel
  refine ⟨consistent_treeAt (by decide), by decide +kernel, hcount, fun h => ?_⟩
  have hone := h.once (leafAt 2678398) (mem_leaves_treeAt.2 rfl) (by decide)
  rw [hcount] at hone
  cases hone

end PttaiCore
