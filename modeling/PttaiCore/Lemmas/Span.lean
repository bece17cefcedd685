import PttaiCore.Lemmas.Rebuild
import PttaiCore.MerkleList

/-! # Consistent trees -/

namespace PttaiCore

open MerkleTreeLevel Bytes KeyStore Timestamp

/-! ## The order of the keys and of time -/

def Timestamp.keyOrder (t : Timestamp) : Nat ×ₗ Nat := toLex (t.unsigned, t.nanoTs.toNat)

section order

variable {m : Merkle} {level : MerkleTreeLevel} {t u : Timestamp} {a : Int}

theorem marshal_lt_marshal : t.marshal < u.marshal ↔ t.keyOrder < u.keyOrder := by
  rw [marshal_lt_iff, Timestamp.keyOrder, Timestamp.keyOrder, Prod.Lex.lt_iff]
  rfl

theorem marshalKey_lt_marshalKey : m.marshalKey level t < m.marshalKey level u ↔ t.keyOrder < u.keyOrder := by
  rw [marshalKey_eq, marshalKey_eq, append_lt_append_left, List.cons_lt_cons_iff, marshal_lt_marshal]
  simp

theorem marshal_append_lt_marshal (r : Bytes) : t.marshal ++ r < u.marshal ↔ t.keyOrder < u.keyOrder := by
  have hlen : t.marshal.length = u.marshal.length := by rw [marshal_length, marshal_length]
  have happ := append_lt_append_iff hlen r []
  rw [List.append_nil] at happ
  rw [happ, marshal_lt_marshal]
  simp

theorem keyOrder_injective (h : t.keyOrder = u.keyOrder) : t = u := by
  obtain ⟨hsec, hnano⟩ := Prod.mk.inj (toLex.injective h)
  obtain ⟨a, n⟩ := t
  obtain ⟨b, k⟩ := u
  rw [Timestamp.mk.injEq, ← UInt32.toNat_inj]
  exact ⟨Int64.toBitVec_inj.1 (UInt64.toBitVec_inj.2 (UInt64.toNat_inj.1 hsec)), hnano⟩

theorem marshal_injective (h : t.marshal = u.marshal) : t = u := by
  have hle : ¬ t.keyOrder < u.keyOrder := fun hlt => absurd h (ne_of_lt (marshal_lt_marshal.2 hlt))
  have hge : ¬ u.keyOrder < t.keyOrder := fun hlt => absurd h (ne_of_gt (marshal_lt_marshal.2 hlt))
  exact keyOrder_injective (le_antisymm (not_lt.1 hge) (not_lt.1 hle))

theorem unsigned_of_nonneg (h : 0 ≤ t.ts.toInt) : (t.unsigned : Int) = t.ts.toInt := by
  have hlt := t.ts.toInt_lt
  have hnat : t.unsigned = t.ts.toInt.toNat := by
    have := unsigned_ofSec h hlt
    rwa [Timestamp.ofSec, Int64.ofInt_toInt] at this
  omega

theorem two_pow_le_unsigned (h : t.ts.toInt < 0) : 2 ^ 63 ≤ t.unsigned := by
  by_contra hlt
  have hofSec : Timestamp.ofSec t.ts.toUInt64.toNat = ⟨t.ts, 0⟩ := ofSec_unsigned (not_le.1 hlt)
  have hsec := congrArg (fun u => u.ts.toInt) hofSec
  simp only [Timestamp.ofSec] at hsec
  rw [toInt_ofInt (by omega) (by have : t.ts.toUInt64.toNat < 2 ^ 63 := not_le.1 hlt; omega)] at hsec
  omega

theorem keyOrder_lt_iff (ht : 0 ≤ t.ts.toInt) (hu : 0 ≤ u.ts.toInt) : t.keyOrder < u.keyOrder ↔ t.order < u.order := by
  have ht' := unsigned_of_nonneg ht
  have hu' := unsigned_of_nonneg hu
  simp only [Timestamp.keyOrder, Timestamp.order, Prod.Lex.lt_iff, ofLex_toLex]
  omega

theorem keyOrder_le_iff (ht : 0 ≤ t.ts.toInt) (hu : 0 ≤ u.ts.toInt) : t.keyOrder ≤ u.keyOrder ↔ t.order ≤ u.order := by
  rw [← not_lt, ← not_lt, keyOrder_lt_iff hu ht]

theorem unsigned_eq (t : Timestamp) : (t.unsigned : Int) = if t.ts.toInt < 0 then t.ts.toInt + 2 ^ 64 else t.ts.toInt := by
  have hcond := t.ts.toBitVec.toInt_eq_toNat_cond
  rw [Int64.toInt_toBitVec, Int64.toNat_toBitVec] at hcond
  have hlt : t.unsigned < 2 ^ 64 := t.ts.toUInt64.toNat_lt
  change t.ts.toInt = if 2 * t.unsigned < 2 ^ 64 then (t.unsigned : Int) else t.unsigned - 2 ^ 64 at hcond
  split_ifs at hcond ⊢ <;> omega

theorem keyOrder_lt_iff_of_sign (hsign : t.ts.toInt < 0 ↔ u.ts.toInt < 0) : t.keyOrder < u.keyOrder ↔ t.order < u.order := by
  have ht := unsigned_eq t
  have hu := unsigned_eq u
  simp only [Timestamp.keyOrder, Timestamp.order, Prod.Lex.lt_iff, ofLex_toLex]
  split_ifs at ht hu <;> omega

theorem keyOrder_lt_of_neg (ht : 0 ≤ t.ts.toInt) (hu : u.ts.toInt < 0) : t.keyOrder < u.keyOrder := by
  have ht' := unsigned_of_nonneg ht
  have hlt := t.ts.toInt_lt
  have hu' := two_pow_le_unsigned hu
  rw [Timestamp.keyOrder, Timestamp.keyOrder, Prod.Lex.lt_iff]
  exact .inl (by dsimp only [ofLex_toLex]; omega)

theorem toInt_ofSec (h0 : 0 ≤ a) (h1 : a < 2 ^ 63) : (Timestamp.ofSec a).ts.toInt = a := toInt_ofInt h0 h1

theorem order_ofSec_le (h0 : 0 ≤ a) (h1 : a < 2 ^ 63) : (Timestamp.ofSec a).order ≤ t.order ↔ a ≤ t.ts.toInt := by
  have hsec := toInt_ofSec h0 h1
  rw [Timestamp.order, Timestamp.order, Prod.Lex.le_iff]
  simp only [ofLex_toLex, hsec]
  have hnano : (Timestamp.ofSec a).nanoTs.toNat = 0 := rfl
  omega

theorem order_lt_ofSec (h0 : 0 ≤ a) (h1 : a < 2 ^ 63) : t.order < (Timestamp.ofSec a).order ↔ t.ts.toInt < a := by
  rw [← not_le, order_ofSec_le h0 h1, not_le]

theorem toDayTimestamp_eq (h : 0 ≤ t.ts.toInt) : t.toDayTimestamp.1 = .ofSec (Timestamp.days.floor t.ts.toInt) := by
  have hfloor : (t.ts - t.ts % Timestamp.daySeconds).toInt = Timestamp.days.floor t.ts.toInt := uniform_floor rfl (by decide) h
  rw [Timestamp.ofSec, ← hfloor, Int64.ofInt_toInt]
  rfl

theorem toHRTimestamp_eq (h : 0 ≤ t.ts.toInt) : t.toHRTimestamp.1 = .ofSec (Timestamp.hours.floor t.ts.toInt) := by
  have hfloor : (t.ts - t.ts % Timestamp.hrSeconds).toInt = Timestamp.hours.floor t.ts.toInt := uniform_floor rfl (by decide) h
  rw [Timestamp.ofSec, ← hfloor, Int64.ofInt_toInt]
  rfl

end order

/-! ## Spans -/

theorem child_mem_uppers {level : MerkleTreeLevel} (hl : level ∈ uppers) (hhr : level ≠ .hr) : level.child ∈ uppers := by
  revert hl hhr
  cases level <;> decide

@[ext]
structure Span where
  level : MerkleTreeLevel
  start : Int
  upper : level ∈ uppers
  isStart : level.buckets.floor start = start
  nonneg : 0 ≤ start
  next_lt : level.buckets.next start < 2 ^ 63

def Merkle.leaves (m : Merkle) (db : KeyStore Bytes Value) : List MerkleNode :=
  (db.select fun k => (m.dbPrefix ++ [now.toUInt8]).isPrefixOf k).filterMap fun e => e.2.toNode

def Merkle.HasNode (m : Merkle) (db : KeyStore Bytes Value) (level : MerkleTreeLevel) (n : MerkleNode) : Prop :=
  ∃ r, db.get (m.dbPrefix ++ (level.toUInt8 :: r)) = some (.node n)

def Merkle.nodesBetween (m : Merkle) (db : KeyStore Bytes Value) (level : MerkleTreeLevel) (ts nextTS : Timestamp) : List MerkleNode :=
  (m.getMerkleIter db level ts nextTS).filterMap fun e => e.2.toNode

def MerkleNode.isReadable (n : MerkleNode) : Bool := n.updateTS.nanoTs < Timestamp.billion

theorem getMerkleTreeListCore_eq (m : Merkle) (db : KeyStore Bytes Value) (level : MerkleTreeLevel) (ts nextTS : Timestamp) :
    m.getMerkleTreeListCore db level ts nextTS = (m.nodesBetween db level ts nextTS).filter MerkleNode.isReadable := by
  rw [Merkle.nodesBetween, List.filter_filterMap]
  rfl

theorem mem_leaves {m : Merkle} {db : KeyStore Bytes Value} {n : MerkleNode} : n ∈ m.leaves db ↔ m.HasNode db .now n := by
  have hnode : ∀ v : Value, v.toNode = some n ↔ v = .node n := by
    intro v
    cases v <;> simp [Value.toNode]
  simp only [Merkle.leaves, List.mem_filterMap, mem_select, Merkle.HasNode, hnode, List.isPrefixOf_iff_prefix]
  constructor
  · rintro ⟨⟨k, v⟩, ⟨hget, r, rfl⟩, rfl⟩
    exact ⟨r, by simpa using hget⟩
  · rintro ⟨r, hget⟩
    exact ⟨(_, _), ⟨hget, r, by simp⟩, rfl⟩

namespace Span

def above {level : MerkleTreeLevel} (hl : level ∈ uppers) {x : Int} (h0 : 0 ≤ x) (h1 : level.buckets.next x < 2 ^ 63) : Span where
  level := level
  start := level.buckets.floor x
  upper := hl
  isStart := level.buckets.floor_floor x
  nonneg := floor_nonneg level h0
  next_lt := (level.buckets.next_floor x).trans_lt h1

variable (c : Span)

def next : Int := c.level.buckets.next c.start

theorem start_lt_next : c.start < c.next := c.level.buckets.lt_next c.start

theorem next_le_of_lt {b : Int} (hb : c.level.buckets.floor b = b) (hlt : c.start < b) : c.next ≤ b :=
  c.level.buckets.next_le_of_lt c.isStart hb hlt

theorem start_lt : c.start < 2 ^ 63 := c.start_lt_next.trans c.next_lt

theorem bounds_eq : c.level.bounds (.ofSec c.start) = (.ofSec c.start, .ofSec c.next) := by
  have hsec : (Int64.ofInt c.start).toInt = c.start := toInt_ofInt c.nonneg c.start_lt
  have hbounds : c.level.bounds ⟨Int64.ofInt c.start, 0⟩ = _ :=
    bounds_eq_of_lt c.upper (hsec.symm ▸ c.nonneg) (hsec.symm ▸ c.next_lt)
  rwa [hsec, c.isStart] at hbounds

theorem mem_bucket_iff {x : Int} : c.start ≤ x ∧ x < c.next ↔ c.level.buckets.floor x = c.start := by
  constructor
  · rintro ⟨hlo, hhi⟩
    rw [c.level.buckets.floor_eq (c.isStart.le.trans hlo) hhi, c.isStart]
  · intro hfloor
    refine ⟨hfloor.ge.trans (c.level.buckets.floor_le x), ?_⟩
    rw [next, ← hfloor, c.level.buckets.next_floor]
    exact c.level.buckets.lt_next x

theorem child_mem : c.level.child ∈ now :: uppers := by
  have hupper := c.upper
  revert hupper
  cases c.level <;> decide

theorem next_nonneg : 0 ≤ c.next := c.nonneg.trans c.start_lt_next.le

variable (Γ : Ctx) (m : Merkle) (db : KeyStore Bytes Value)

def key : Bytes := m.marshalKey c.level (.ofSec c.start)

def children : List MerkleNode :=
  m.nodesBetween db c.level.child (.ofSec c.start) (.ofSec c.next)

def preimage : Bytes := (c.children m db).flatMap fun n => n.addr.1

structure NodeOK (c : Span) : Prop where
  missing : db.get (c.key m) = none ↔ c.children m db = []
  node : ∀ n, db.get (c.key m) = some (.node n) →
    n.nChildren.toNat = (c.children m db).length ∧ n.addr = Γ.addr (c.preimage m db)

end Span

structure IsLeaf (m : Merkle) (n : MerkleNode) (r : Bytes) : Prop where
  level : n.level = .now
  nChildren : n.nChildren = 0
  time : n.updateTS.marshal <+: r
  key : n.key = m.partPrefix .oplog ++ (m.prefixID.1 ++ r)

namespace IsLeaf

variable {m : Merkle} {x y : MerkleNode} {r r' : Bytes}

theorem rest_eq (hx : IsLeaf m x r) (hy : IsLeaf m y r') (hkey : x.key = y.key) : r = r' := by
  rw [hx.key, hy.key] at hkey
  exact List.append_cancel_left (List.append_cancel_left hkey)

theorem updateTS_eq (hx : IsLeaf m x r) (hy : IsLeaf m y r') (hkey : x.key = y.key) : x.updateTS = y.updateTS := by
  obtain ⟨s, hs⟩ := hx.time
  obtain ⟨s', hs'⟩ := hy.time
  rw [← hx.rest_eq hy hkey, ← hs] at hs'
  have hlen : y.updateTS.marshal.length = x.updateTS.marshal.length := by rw [marshal_length, marshal_length]
  exact (marshal_injective (List.append_inj hs' hlen).1).symm

end IsLeaf

structure TreeShape (m : Merkle) (db : KeyStore Bytes Value) : Prop where
  tree : TreeOK m db
  leaf : ∀ r n, db.get (m.dbPrefix ++ (now.toUInt8 :: r)) = some (.node n) → IsLeaf m n r
  isStart : ∀ level ∈ uppers, ∀ sec : Int64, 0 ≤ sec.toInt → db.get (m.marshalKey level ⟨sec, 0⟩) ≠ none →
    level.buckets.floor sec.toInt = sec.toInt

structure Consistent (Γ : Ctx) (m : Merkle) (db : KeyStore Bytes Value) : Prop extends TreeShape m db where
  node : ∀ c : Span, c.NodeOK Γ m db

namespace TreeShape

variable {m : Merkle} {db : KeyStore Bytes Value} {level : MerkleTreeLevel} {n u : MerkleNode} {t t' : Timestamp}

theorem entry (h : TreeShape m db) (hl : level ∈ now :: uppers) {r : Bytes} {v : Value}
    (hget : db.get (m.dbPrefix ++ (level.toUInt8 :: r)) = some v) : ∃ n, v = .node n ∧ n.level = level ∧ n.updateTS.marshal <+: r := by
  rcases List.mem_cons.1 hl with rfl | hl
  · obtain ⟨n, rfl⟩ := h.tree.nodes _ _ hget (List.prefix_append _ _)
    exact ⟨n, rfl, (h.leaf r n hget).level, (h.leaf r n hget).time⟩
  · obtain ⟨sec, rfl, addr, nChildren, rfl⟩ := h.tree.upper level hl r v hget
    exact ⟨_, rfl, rfl, List.prefix_refl _⟩

theorem mem_getMerkleIter (h : TreeShape m db) (hl : level ∈ now :: uppers) {e : Bytes × Value} :
    e ∈ m.getMerkleIter db level t t' ↔ ∃ r n, e = (m.dbPrefix ++ (level.toUInt8 :: r), .node n) ∧ db.get e.1 = some e.2 ∧
      n.level = level ∧ n.updateTS.marshal <+: r ∧ t.keyOrder ≤ n.updateTS.keyOrder ∧ n.updateTS.keyOrder < t'.keyOrder := by
  have hkey : ∀ (a : Timestamp) (s : Bytes), m.dbPrefix ++ (level.toUInt8 :: (a.marshal ++ s)) < m.marshalKey level t' ↔
      a.keyOrder < t'.keyOrder := by
    intro a s
    rw [marshalKey_eq, append_lt_append_left, List.cons_lt_cons_iff, marshal_append_lt_marshal]
    simp
  have hkey' : ∀ (a : Timestamp) (s : Bytes), m.marshalKey level t ≤ m.dbPrefix ++ (level.toUInt8 :: (a.marshal ++ s)) ↔
      t.keyOrder ≤ a.keyOrder := by
    intro a s
    rw [← not_lt, ← not_lt, marshalKey_eq, append_lt_append_left, List.cons_lt_cons_iff, marshal_append_lt_marshal]
    simp
  rw [Merkle.getMerkleIter, mem_range]
  constructor
  · rintro ⟨hget, hlo, hhi⟩
    have hcons : ∀ a : Timestamp, m.marshalKey level a = m.dbPrefix ++ [level.toUInt8] ++ a.marshal := by
      intro a
      rw [marshalKey_eq, List.append_assoc]
      rfl
    obtain ⟨r, hr⟩ : m.dbPrefix ++ [level.toUInt8] <+: e.1 := by
      rw [hcons] at hlo hhi
      exact prefix_of_between hlo hhi
    have hr' : e.1 = m.dbPrefix ++ (level.toUInt8 :: r) := by
      rw [← hr, List.append_assoc]
      rfl
    rw [hr'] at hget
    obtain ⟨n, hv, hlevel, s, rfl⟩ := h.entry hl hget
    rw [hr', hkey'] at hlo
    rw [hr', hkey] at hhi
    refine ⟨_, n, Prod.ext hr' hv, ?_, hlevel, ⟨s, rfl⟩, hlo, hhi⟩
    rw [hr']
    exact hget
  · rintro ⟨r, n, rfl, hget, -, ⟨s, rfl⟩, hlo, hhi⟩
    exact ⟨hget, (hkey' _ s).2 hlo, (hkey _ s).2 hhi⟩

theorem key_unique (h : TreeShape m db) (hl : level ∈ now :: uppers) {r r' : Bytes}
    (hget : db.get (m.dbPrefix ++ (level.toUInt8 :: r)) = some (.node n))
    (hget' : db.get (m.dbPrefix ++ (level.toUInt8 :: r')) = some (.node n)) : r = r' := by
  rcases List.mem_cons.1 hl with rfl | hl
  · have hkey := (h.leaf r n hget).key.symm.trans (h.leaf r' n hget').key
    simpa using hkey
  · obtain ⟨sec, rfl, addr, nChildren, hn⟩ := h.tree.upper level hl r _ hget
    obtain ⟨sec', rfl, addr', nChildren', hn'⟩ := h.tree.upper level hl r' _ hget'
    cases hn
    cases hn'
    rfl

theorem mem_nodesBetween (h : TreeShape m db) (hl : level ∈ now :: uppers) : n ∈ m.nodesBetween db level t t' ↔
    m.HasNode db level n ∧ t.keyOrder ≤ n.updateTS.keyOrder ∧ n.updateTS.keyOrder < t'.keyOrder := by
  rw [Merkle.nodesBetween, List.mem_filterMap]
  constructor
  · rintro ⟨e, he, hn⟩
    obtain ⟨r, n', rfl, hget, -, -, hbetween⟩ := (h.mem_getMerkleIter hl).1 he
    cases hn
    exact ⟨⟨r, hget⟩, hbetween⟩
  · rintro ⟨⟨r, hget⟩, hbetween⟩
    obtain ⟨n', hn', hlevel, hr⟩ := h.entry hl hget
    cases hn'
    exact ⟨_, (h.mem_getMerkleIter hl).2 ⟨r, n, rfl, hget, hlevel, hr, hbetween⟩, rfl⟩

theorem pairwise_nodesBetween (h : TreeShape m db) (hl : level ∈ now :: uppers) :
    (m.nodesBetween db level t t').Pairwise fun a b => a.updateTS.keyOrder ≤ b.updateTS.keyOrder ∧ a ≠ b := by
  rw [Merkle.nodesBetween, List.pairwise_filterMap]
  refine (db.range_sorted _ _).imp_of_mem fun {e e'} he he' hlt n hn n' hn' => ?_
  obtain ⟨r, n, rfl, hget, -, ⟨s, rfl⟩, -⟩ := (h.mem_getMerkleIter hl).1 he
  obtain ⟨r', n', rfl, hget', -, ⟨s', rfl⟩, -⟩ := (h.mem_getMerkleIter hl).1 he'
  cases hn
  cases hn'
  constructor
  · rw [append_lt_append_left, List.cons_lt_cons_iff] at hlt
    have hlt' : n.updateTS.marshal ++ s < n'.updateTS.marshal ++ s' := by simpa using hlt
    have hlen : n.updateTS.marshal.length = n'.updateTS.marshal.length := by
      rw [marshal_length, marshal_length]
    rw [append_lt_append_iff hlen] at hlt'
    rcases hlt' with hlt' | ⟨heq, -⟩
    · exact (marshal_lt_marshal.1 hlt').le
    · exact not_lt.1 fun hgt => absurd heq (ne_of_gt (marshal_lt_marshal.2 hgt))
  · rintro rfl
    rw [h.key_unique hl hget hget'] at hlt
    exact absurd hlt (lt_irrefl _)

theorem pairwise_key (h : TreeShape m db) : (m.getMerkleTreeListCore db .now t t').Pairwise fun a b => a.key < b.key := by
  rw [getMerkleTreeListCore_eq]
  refine List.Pairwise.filter _ ?_
  rw [Merkle.nodesBetween, List.pairwise_filterMap]
  refine (db.range_sorted _ _).imp_of_mem fun {e e'} he he' hlt n hn n' hn' => ?_
  obtain ⟨r, n, rfl, hget, -, -, -⟩ := (h.mem_getMerkleIter (.head _)).1 he
  obtain ⟨r', n', rfl, hget', -, -, -⟩ := (h.mem_getMerkleIter (.head _)).1 he'
  cases hn
  cases hn'
  rw [(h.leaf r n hget).key, (h.leaf r' n' hget').key, append_lt_append_left, append_lt_append_left]
  rw [append_lt_append_left, List.cons_lt_cons_iff] at hlt
  simpa using hlt

theorem mem_list_now (h : TreeShape m db) (hsign : t.ts.toInt < 0 ↔ t'.ts.toInt < 0) : n ∈ m.getMerkleTreeListCore db .now t t' ↔
    n ∈ m.leaves db ∧ n.isReadable = true ∧ t.order ≤ n.updateTS.order ∧ n.updateTS.order < t'.order := by
  rw [getMerkleTreeListCore_eq, List.mem_filter, h.mem_nodesBetween List.mem_cons_self, mem_leaves, and_assoc, and_comm (b := _ = true)]
  refine and_congr_right fun _ => and_congr_right fun _ => ?_
  by_cases hn : n.updateTS.ts.toInt < 0 ↔ t.ts.toInt < 0
  · have hle : t.keyOrder ≤ n.updateTS.keyOrder ↔ t.order ≤ n.updateTS.order := by
      rw [← not_lt, ← not_lt, keyOrder_lt_iff_of_sign hn]
    rw [hle, keyOrder_lt_iff_of_sign (hn.trans hsign)]
  · have hkey := unsigned_eq n.updateTS
    have hkey' := unsigned_eq t
    have hkey'' := unsigned_eq t'
    have hb := n.updateTS.ts.toInt_lt
    have hb' := n.updateTS.ts.le_toInt
    have hc := t.ts.toInt_lt
    have hc' := t.ts.le_toInt
    have hd := t'.ts.toInt_lt
    have hd' := t'.ts.le_toInt
    simp only [Timestamp.keyOrder, Timestamp.order, Prod.Lex.lt_iff, Prod.Lex.le_iff, ofLex_toLex]
    split_ifs at hkey hkey' hkey'' <;> omega

theorem list_now_nil (h : TreeShape m db) (ht : t.ts.toInt < 0) (ht' : 0 ≤ t'.ts.toInt) : m.getMerkleTreeListCore db .now t t' = [] := by
  rw [List.eq_nil_iff_forall_not_mem]
  intro n hn
  rw [getMerkleTreeListCore_eq, List.mem_filter, h.mem_nodesBetween List.mem_cons_self] at hn
  exact absurd (keyOrder_lt_of_neg ht' ht) (lt_asymm (hn.1.2.1.trans_lt hn.1.2.2))

/-! ## Nodes above the level `now` -/

theorem ofSec_toInt {sec : Int64} : Timestamp.ofSec sec.toInt = ⟨sec, 0⟩ := by rw [Timestamp.ofSec, Int64.ofInt_toInt]

theorem exists_span (h : TreeShape m db) (hl : level ∈ uppers) (hu : m.HasNode db level u) (h0 : 0 ≤ u.updateTS.ts.toInt) {b : Int}
    (hb : level.buckets.floor b = b) (hb' : b < 2 ^ 63) (hlt : u.updateTS.ts.toInt < b) :
    ∃ c : Span, c.level = level ∧ u.updateTS = .ofSec c.start ∧ db.get (c.key m) = some (.node u) := by
  obtain ⟨r, hget⟩ := hu
  obtain ⟨sec, rfl, addr, nChildren, hn⟩ := h.tree.upper level hl r _ hget
  cases hn
  rw [← marshalKey_eq] at hget
  have hstart := h.isStart level hl sec h0 (by rw [hget]; exact Option.some_ne_none _)
  have hnext : level.buckets.next sec.toInt ≤ b := level.buckets.next_le_of_lt hstart hb hlt
  refine ⟨⟨level, sec.toInt, hl, hstart, h0, hnext.trans_lt hb'⟩, rfl, ofSec_toInt.symm, ?_⟩
  rw [Span.key, ofSec_toInt]
  exact hget

theorem span_node (h : TreeShape m db) {c : Span} (hget : db.get (c.key m) = some (.node u)) :
    u.level = c.level ∧ u.updateTS = .ofSec c.start := by
  rw [Span.key, marshalKey_eq] at hget
  obtain ⟨sec, hsec, addr, nChildren, hn⟩ := h.tree.upper c.level c.upper _ _ hget
  cases hn
  have hts : Int64.ofInt c.start = sec := marshal_sec_injective hsec
  rw [← hts]
  exact ⟨rfl, rfl⟩

theorem mem_children (h : TreeShape m db) {c : Span} : n ∈ c.children m db ↔
    m.HasNode db c.level.child n ∧ c.start ≤ n.updateTS.ts.toInt ∧ n.updateTS.ts.toInt < c.next := by
  rw [Span.children, h.mem_nodesBetween c.child_mem]
  refine and_congr_right fun _ => ?_
  have hstart : 0 ≤ (Timestamp.ofSec c.start).ts.toInt := by rw [toInt_ofSec c.nonneg c.start_lt]; exact c.nonneg
  have hnext : 0 ≤ (Timestamp.ofSec c.next).ts.toInt := by rw [toInt_ofSec c.next_nonneg c.next_lt]; exact c.next_nonneg
  by_cases h0 : 0 ≤ n.updateTS.ts.toInt
  · rw [keyOrder_le_iff hstart h0, keyOrder_lt_iff h0 hnext, order_ofSec_le c.nonneg c.start_lt, order_lt_ofSec c.next_nonneg c.next_lt]
  · have hneg := not_le.1 h0
    constructor
    · rintro ⟨-, hlt⟩
      exact absurd (keyOrder_lt_of_neg hnext hneg) (lt_asymm hlt)
    · rintro ⟨hle, -⟩
      exact absurd (c.nonneg.trans hle) h0

/-! ## Listed nodes -/

theorem isReadable_of_upper (h : TreeShape m db) (hl : level ∈ uppers) (hu : m.HasNode db level u) : u.isReadable = true := by
  obtain ⟨r, hget⟩ := hu
  obtain ⟨sec, -, addr, nChildren, hn⟩ := h.tree.upper level hl r _ hget
  cases hn
  rfl

theorem mem_list_upper (h : TreeShape m db) (hl : level ∈ uppers) {a b : Int} (ha : 0 ≤ a ∧ a < 2 ^ 63) (hb : 0 ≤ b ∧ b < 2 ^ 63)
    (hfloor : level.buckets.floor b = b) : u ∈ m.getMerkleTreeListCore db level (.ofSec a) (.ofSec b) ↔
      ∃ c : Span, c.level = level ∧ a ≤ c.start ∧ c.next ≤ b ∧ db.get (c.key m) = some (.node u) := by
  have ha' := toInt_ofSec ha.1 ha.2
  have hb' := toInt_ofSec hb.1 hb.2
  rw [getMerkleTreeListCore_eq, List.mem_filter, h.mem_nodesBetween (List.mem_cons_of_mem _ hl)]
  constructor
  · rintro ⟨⟨hu, hlo, hhi⟩, -⟩
    have h0 : 0 ≤ u.updateTS.ts.toInt :=
      not_lt.1 fun hneg => absurd (keyOrder_lt_of_neg (hb.1.trans hb'.ge) hneg) (lt_asymm hhi)
    rw [keyOrder_le_iff (ha.1.trans ha'.ge) h0, order_ofSec_le ha.1 ha.2] at hlo
    rw [keyOrder_lt_iff h0 (hb.1.trans hb'.ge), order_lt_ofSec hb.1 hb.2] at hhi
    obtain ⟨c, rfl, hts, hget⟩ := h.exists_span hl hu h0 hfloor hb.2 hhi
    rw [hts, toInt_ofSec c.nonneg c.start_lt] at hlo hhi
    exact ⟨c, rfl, hlo, c.next_le_of_lt hfloor hhi, hget⟩
  · rintro ⟨c, rfl, hlo, hhi, hget⟩
    have hu : m.HasNode db c.level u := ⟨_, by rw [← marshalKey_eq]; exact hget⟩
    have hc := toInt_ofSec c.nonneg c.start_lt
    refine ⟨⟨hu, ?_, ?_⟩, h.isReadable_of_upper hl hu⟩
    · rw [(h.span_node hget).2, keyOrder_le_iff (ha.1.trans ha'.ge) (c.nonneg.trans hc.ge), order_ofSec_le ha.1 ha.2, hc]
      exact hlo
    · rw [(h.span_node hget).2, keyOrder_lt_iff (c.nonneg.trans hc.ge) (hb.1.trans hb'.ge), order_lt_ofSec hb.1 hb.2, hc]
      exact c.start_lt_next.trans_le hhi

end TreeShape

/-! ## Other entries -/

section congr

variable {m : Merkle} {db db' : KeyStore Bytes Value} (hsame : ∀ k, m.dbPrefix <+: k → db'.get k = db.get k)

include hsame

theorem getMerkleIter_congr (level : MerkleTreeLevel) (t t' : Timestamp) : m.getMerkleIter db' level t t' = m.getMerkleIter db level t t' := by
  refine range_congr fun k hlo hhi => hsame k ?_
  have hcons : ∀ a : Timestamp, m.marshalKey level a = m.dbPrefix ++ (level.toUInt8 :: a.marshal) := fun a => marshalKey_eq ..
  rw [hcons] at hlo hhi
  exact prefix_of_between hlo hhi

theorem children_congr (c : Span) : c.children m db' = c.children m db := by
  rw [Span.children, Merkle.nodesBetween, getMerkleIter_congr hsame]
  rfl

theorem leaves_congr : m.leaves db' = m.leaves db := by
  rw [Merkle.leaves, Merkle.leaves, select_congr]
  intro k hk
  exact hsame k ((List.prefix_append _ _).trans (List.isPrefixOf_iff_prefix.1 hk))

theorem Consistent.congr {Γ : Ctx} (h : Consistent Γ m db) : Consistent Γ m db' := by
  have hlevel : ∀ (level : MerkleTreeLevel) (r : Bytes),
      db'.get (m.dbPrefix ++ (level.toUInt8 :: r)) = db.get (m.dbPrefix ++ (level.toUInt8 :: r)) :=
    fun level r => hsame _ (List.prefix_append _ _)
  have hkey : ∀ (level : MerkleTreeLevel) (t : Timestamp), db'.get (m.marshalKey level t) = db.get (m.marshalKey level t) := by
    intro level t
    rw [marshalKey_eq, hlevel]
  refine ⟨⟨⟨fun k v hget hk => h.tree.nodes k v (hsame k hk ▸ hget) hk, fun level hl r v hget => ?_⟩, fun r n hget => ?_,
    fun level hl sec h0 hget => ?_⟩, fun c => ⟨?_, fun n hget => ?_⟩⟩
  · exact h.tree.upper level hl r v (hlevel level r ▸ hget)
  · exact h.leaf r n (hlevel now r ▸ hget)
  · exact h.isStart level hl sec h0 (hkey level _ ▸ hget)
  · rw [children_congr hsame, Span.key, hkey]
    exact (h.node c).missing
  · rw [Span.preimage, children_congr hsame]
    exact (h.node c).node n (hkey c.level _ ▸ hget)

end congr

/-! ## Nodes that are there -/

namespace Consistent

variable {Γ : Ctx} {m : Merkle} {db : KeyStore Bytes Value} {level : MerkleTreeLevel} {n : MerkleNode}

theorem exists_of_child (h : Consistent Γ m db) {c : Span} (hn : n ∈ c.children m db) : ∃ u, db.get (c.key m) = some (.node u) := by
  cases hget : db.get (c.key m) with
  | none =>
    rw [(h.node c).missing.1 hget] at hn
    cases hn
  | some v =>
    rw [Span.key, marshalKey_eq] at hget
    obtain ⟨u, rfl, -⟩ := h.entry (.tail _ c.upper) hget
    exact ⟨u, rfl⟩

theorem exists_above_of_child (h : Consistent Γ m db) (hl : level ∈ uppers) (hhr : level ≠ .hr) {x : Int} (h0 : 0 ≤ x)
    (h1 : level.buckets.next x < 2 ^ 63) (h1' : level.child.buckets.next x < 2 ^ 63)
    (hu : ∃ u, db.get ((Span.above (child_mem_uppers hl hhr) h0 h1').key m) = some (.node u)) :
    ∃ u, db.get ((Span.above hl h0 h1).key m) = some (.node u) := by
  obtain ⟨u, hget⟩ := hu
  have hts : u.updateTS.ts.toInt = level.child.buckets.floor x := by
    rw [(h.span_node hget).2]
    exact toInt_ofSec (Span.nonneg _) (Span.start_lt _)
  refine h.exists_of_child (n := u) (h.mem_children.2 ⟨⟨_, by rw [← marshalKey_eq]; exact hget⟩, ?_, ?_⟩)
  · rw [hts]
    exact (child_refines hl hhr).floor_le_floor x
  · rw [hts]
    change level.child.buckets.floor x < level.buckets.next (level.buckets.floor x)
    rw [level.buckets.next_floor]
    exact (level.child.buckets.floor_le x).trans_lt (level.buckets.lt_next x)

theorem exists_above (h : Consistent Γ m db) (hl : level ∈ uppers) (hn : m.HasNode db .now n) (h0 : 0 ≤ n.updateTS.ts.toInt)
    (h1 : level.buckets.next n.updateTS.ts.toInt < 2 ^ 63) : ∃ u, db.get ((Span.above hl h0 h1).key m) = some (.node u) := by
  have hday := hours_refines_days.next_le_next n.updateTS.ts.toInt
  have hmonth := days_refines_months.next_le_next n.updateTS.ts.toInt
  have hyear := months_refines_years.next_le_next n.updateTS.ts.toInt
  have hhr : ∀ h1', ∃ u, db.get ((Span.above hr_mem_uppers h0 h1').key m) = some (.node u) := by
    intro h1'
    refine h.exists_of_child (n := n) (h.mem_children.2 ⟨hn, Timestamp.hours.floor_le _, ?_⟩)
    change _ < Timestamp.hours.next (Timestamp.hours.floor _)
    rw [Buckets.next_floor]
    exact Buckets.lt_next _ _
  have hday' : ∀ h1', ∃ u, db.get ((Span.above day_mem_uppers h0 h1').key m) = some (.node u) := by
    intro h1'
    exact h.exists_above_of_child _ (by decide) h0 h1' (hday.trans_lt h1') (hhr _)
  have hmonth' : ∀ h1', ∃ u, db.get ((Span.above month_mem_uppers h0 h1').key m) = some (.node u) := by
    intro h1'
    exact h.exists_above_of_child _ (by decide) h0 h1' (hmonth.trans_lt h1') (hday' _)
  cases level with
  | hr => exact hhr h1
  | day => exact hday' h1
  | month => exact hmonth' h1
  | year => exact h.exists_above_of_child _ (by decide) h0 h1 (hyear.trans_lt h1) (hmonth' _)
  | now => exact absurd hl (by decide)
  | invalid => exact absurd hl (by decide)

end Consistent

end PttaiCore
