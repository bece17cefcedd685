import PttaiCore.Theorems.Windows

/-! # The nodes of an answer -/

namespace PttaiCore

open SyncPeer MerkleTreeLevel WindowsAux Timestamp List

def Merkle.leavesIn (m : Merkle) (db : KeyStore Bytes Value) (offset now : Timestamp) : List MerkleNode :=
  (m.leaves db).filter fun n => offset.isLessEqual n.updateTS && n.updateTS.isLess now

def SyncPeer.ackOffset (p : SyncPeer) (myToSyncTime : Timestamp) : Timestamp :=
  (if myToSyncTime.isEqual .zero then p.createTS else myToSyncTime).toHRTimestamp.1

structure SyncPeer.AckComplete (p : SyncPeer) (m : Merkle) (myToSyncTime now : Timestamp) : Prop where
  sent : ∃ acks : List SyncOplogAck, p.syncOplogAck m myToSyncTime now = ⟨.ok (), acks.map SyncMsg.syncOplogAck⟩ ∧
    acks.flatMap SyncOplogAck.nodes = m.leavesIn p.db.db (p.ackOffset myToSyncTime) now ∧
    ∀ a ∈ acks, a.nodes ≠ [] ∧ a.nodes.length ≤ maxSyncOplogAck
  ends : ∃ k < ackFuel (p.ackOffset myToSyncTime) now, ((ackNextHourTS · now)^[k] (p.ackOffset myToSyncTime)).isLess now = false

structure AckFits (m : Merkle) (db : KeyStore Bytes Value) (offset now : Timestamp) : Prop where
  readable : ∀ n, m.LeafIn db offset now n → n.isReadable = true
  lastHour : ∀ n, m.LeafIn db offset now n → n.updateTS.ts.toInt < -3600 ∨ 0 ≤ n.updateTS.ts.toInt
  oneSide : (∀ n, m.LeafIn db offset now n → n.updateTS.ts.toInt < 0) ∨ ∀ n, m.LeafIn db offset now n → 0 ≤ n.updateTS.ts.toInt

namespace AckNodesAux

variable {m : Merkle} {db : KeyStore Bytes Value} {offset now cur next start t u : Timestamp} {fuel : Nat} {n : MerkleNode}
  {nodes : List MerkleNode} {gs : List AckHour} {s : AckState}

/-! ## The messages of the loop -/

theorem blocks_nodes (hfuel : nodes.length ≤ fuel) :
    (syncOplogAckBlocks offset cur next fuel start nodes).flatMap SyncOplogAck.nodes = nodes := by
  induction fuel generalizing start nodes with
  | zero =>
    rw [length_eq_zero_iff.1 (Nat.le_zero.1 hfuel)]
    rfl
  | succ fuel ih =>
    by_cases hne : nodes = []
    · rw [hne, blocks_nil]
      rfl
    · rw [blocks_cons hne, flatMap_cons, ih (length_drop_le hfuel)]
      exact take_append_drop _ _

theorem blocks_sizes {a : SyncOplogAck} (ha : a ∈ syncOplogAckBlocks offset cur next fuel start nodes) :
    a.nodes ≠ [] ∧ a.nodes.length ≤ maxSyncOplogAck := by
  induction fuel generalizing start nodes with
  | zero => cases ha
  | succ fuel ih =>
    by_cases hne : nodes = []
    · rw [hne, blocks_nil] at ha
      cases ha
    · rw [blocks_cons hne] at ha
      rcases mem_cons.1 ha with rfl | ha
      · refine ⟨fun hnil => hne ?_, length_take_le _ _⟩
        exact (take_eq_nil_iff.1 hnil).resolve_left (by decide)
      · exact ih ha

theorem waitingMsg_nodes (offset e : Timestamp) (s : AckState) :
    (AckHour.waitingMsg offset e s).flatMap SyncOplogAck.nodes = s.nodes := by
  by_cases hne : s.nodes = []
  · rw [waitingMsg_nil offset e hne, hne]
    rfl
  · rw [waitingMsg_of_ne offset e hne]
    simp

theorem waitingMsg_sizes {e : Timestamp} {a : SyncOplogAck} (hs : s.nodes.length ≤ maxSyncOplogAck)
    (ha : a ∈ AckHour.waitingMsg offset e s) : a.nodes ≠ [] ∧ a.nodes.length ≤ maxSyncOplogAck := by
  by_cases hne : s.nodes = []
  · rw [waitingMsg_nil offset e hne] at ha
    cases ha
  · rw [waitingMsg_of_ne offset e hne] at ha
    rw [mem_singleton.1 ha]
    exact ⟨hne, hs⟩

theorem ackHours_nodes (offset now : Timestamp) (gs : List AckHour) (s : AckState) :
    (ackHours offset now gs s).flatMap SyncOplogAck.nodes = s.nodes ++ gs.flatMap AckHour.nodes := by
  induction gs generalizing s with
  | nil =>
    rw [ackHours, waitingMsg_nodes, flatMap_nil, append_nil]
  | cons g gs ih =>
    rw [flatMap_cons]
    rcases ackHours_cons offset now g gs s with ⟨-, -, heq⟩ | ⟨-, -, -, heq⟩ | ⟨-, -, -, heq⟩
    · rw [heq, ih, append_assoc]
    · rw [heq, flatMap_append, waitingMsg_nodes, ih]
    · rw [heq, flatMap_append, flatMap_append, waitingMsg_nodes, ih, AckHour.blocks, blocks_nodes le_rfl, nil_append]

theorem ackHours_sizes (hs : s.nodes.length ≤ maxSyncOplogAck) {a : SyncOplogAck} (ha : a ∈ ackHours offset now gs s) :
    a.nodes ≠ [] ∧ a.nodes.length ≤ maxSyncOplogAck := by
  induction gs generalizing s with
  | nil => exact waitingMsg_sizes hs ha
  | cons g gs ih =>
    rcases ackHours_cons offset now g gs s with ⟨hlt, -, heq⟩ | ⟨-, hcount, -, heq⟩ | ⟨-, -, -, heq⟩ <;> rw [heq] at ha
    · refine ih ?_ ha
      rw [length_append]
      exact hlt.le
    · rcases mem_append.1 ha with ha | ha
      · exact waitingMsg_sizes hs ha
      · exact ih (hcount.le.trans (by decide)) ha
    · rcases mem_append.1 ha with ha | ha
      · exact waitingMsg_sizes hs ha
      · rcases mem_append.1 ha with ha | ha
        · exact blocks_sizes ha
        · exact ih (Nat.zero_le _) ha

/-! ## The loop ends -/

theorem loop_ends (hnow : now.IsClock) (hcur : cur = now ∨ IsHourTS cur) (hfits : Fits now fuel cur) :
    ∃ k < fuel, ((ackNextHourTS · now)^[k] cur).isLess now = false := by
  induction fuel generalizing cur with
  | zero => exact absurd hfits.1 (by decide)
  | succ fuel ih =>
    rcases lt_or_ge cur.order now.order with hlt | hge
    · have hcur' : IsHourTS cur := hcur.resolve_left fun heq => absurd hlt (by rw [heq]; exact lt_irrefl _)
      have hnext := (next_spec hnow hcur' hlt).2.2.imp_right And.left
      obtain ⟨k, hk, hend⟩ := ih hnext (fits_next hnow hcur' hlt hfits)
      exact ⟨k + 1, Nat.succ_lt_succ hk, hend⟩
    · exact ⟨0, Nat.succ_pos fuel, (isLess_eq_false_iff _ _).2 hge⟩

/-! ## The nodes in order -/

theorem leaf_lt (h : TreeShape m db) {r r' : Bytes} {n' : MerkleNode} (hget : db.get (m.dbPrefix ++ (MerkleTreeLevel.now.toUInt8 :: r)) = some (.node n))
    (hget' : db.get (m.dbPrefix ++ (MerkleTreeLevel.now.toUInt8 :: r')) = some (.node n'))
    (hlt : m.dbPrefix ++ (MerkleTreeLevel.now.toUInt8 :: r) < m.dbPrefix ++ (MerkleTreeLevel.now.toUInt8 :: r')) :
    n.key < n'.key ∧ n.updateTS.keyOrder ≤ n'.updateTS.keyOrder := by
  rw [Bytes.append_lt_append_left, cons_lt_cons_iff] at hlt
  have hr : r < r' := by simpa using hlt
  obtain ⟨hkey, hkey'⟩ := And.intro (h.leaf r n hget).key (h.leaf r' n' hget').key
  refine ⟨?_, ?_⟩
  · rw [hkey, hkey', Bytes.append_lt_append_left, Bytes.append_lt_append_left]
    exact hr
  · obtain ⟨s, rfl⟩ := (h.leaf r n hget).time
    obtain ⟨s', rfl⟩ := (h.leaf r' n' hget').time
    rw [Bytes.append_lt_append_iff (by rw [marshal_length, marshal_length])] at hr
    rcases hr with hr | ⟨heq, -⟩
    · exact (marshal_lt_marshal.1 hr).le
    · exact not_lt.1 fun hgt => absurd heq (ne_of_gt (marshal_lt_marshal.2 hgt))

theorem leaves_sorted (h : TreeShape m db) :
    (m.leaves db).Pairwise fun a b => a.key < b.key ∧ a.updateTS.keyOrder ≤ b.updateTS.keyOrder := by
  rw [Merkle.leaves, pairwise_filterMap]
  refine (db.select_sorted _).imp_of_mem fun {e e'} he he' hlt a ha b hb => ?_
  have hentry : ∀ {e : Bytes × Value} {a : MerkleNode}, e ∈ db.select (fun k => (m.dbPrefix ++ [now.toUInt8]).isPrefixOf k) →
      e.2.toNode = some a → ∃ r, e.1 = m.dbPrefix ++ (now.toUInt8 :: r) ∧ db.get (m.dbPrefix ++ (now.toUInt8 :: r)) = some (.node a) := by
    intro e a he ha
    obtain ⟨hget, hpre⟩ := KeyStore.mem_select.1 he
    obtain ⟨r, hr⟩ := List.isPrefixOf_iff_prefix.1 hpre
    have hr' : e.1 = m.dbPrefix ++ (now.toUInt8 :: r) := by rw [← hr, append_assoc]; rfl
    have hv : e.2 = .node a := by
      cases hv : e.2 <;> rw [hv] at ha <;> cases ha
      rfl
    exact ⟨r, hr', by rw [← hr', hget, hv]⟩
  obtain ⟨r, hr, hget⟩ := hentry he ha
  obtain ⟨r', hr', hget'⟩ := hentry he' hb
  rw [hr, hr'] at hlt
  exact leaf_lt h hget hget' hlt

theorem mem_leavesIn : n ∈ m.leavesIn db offset now ↔ m.LeafIn db offset now n := by
  rw [Merkle.leavesIn, mem_filter, Bool.and_eq_true, isLessEqual_iff, isLess_iff]
  rfl

theorem leavesIn_sorted (h : TreeShape m db) :
    (m.leavesIn db offset now).Pairwise fun a b => a.key < b.key ∧ a.updateTS.keyOrder ≤ b.updateTS.keyOrder := (leaves_sorted h).filter _

theorem eq_of_mem_iff_of_keys {l l' : List MerkleNode} (hl : l.Pairwise fun a b => a.key < b.key)
    (hl' : l'.Pairwise fun a b => a.key < b.key) (hmem : ∀ n, n ∈ l ↔ n ∈ l') : l = l' := by
  have : Std.Irrefl fun a b : MerkleNode => a.key < b.key := ⟨fun a => lt_irrefl a.key⟩
  have : Std.Antisymm fun a b : MerkleNode => a.key < b.key := ⟨fun a b hab hba => absurd hab (lt_asymm hba)⟩
  exact hl.eq_of_mem_iff hl' hmem

theorem list_eq (h : TreeShape m db) (hsign : t.ts.toInt < 0 ↔ u.ts.toInt < 0) :
    m.getMerkleTreeListCore db .now t u = (m.leavesIn db t u).filter MerkleNode.isReadable := by
  refine eq_of_mem_iff_of_keys h.pairwise_key (((leavesIn_sorted h).imp And.left).filter _) fun n => ?_
  rw [h.mem_list_now hsign, mem_filter, mem_leavesIn, Merkle.LeafIn, Set.mem_Ico, and_assoc, and_comm (a := n.isReadable = true), and_assoc]

/-! ## The hours before 1970 -/

def lastHour : Timestamp := ⟨-3600, 0⟩

theorem order_le_iff_of_nano_zero (ht : t.nanoTs = 0) : t.order ≤ u.order ↔ t.ts.toInt ≤ u.ts.toInt := by
  rw [Timestamp.order, Timestamp.order, Prod.Lex.le_iff]
  simp only [ofLex_toLex, ht]
  have h0 : (0 : UInt32).toNat = 0 := rfl
  omega

theorem next_of_neg (hnow : now.IsClock) (hcur : IsHourTS cur) (hneg : cur.ts.toInt < 0) :
    cur.order < now.order ∧ IsHourTS (ackNextHourTS cur now) ∧ (ackNextHourTS cur now).ts.toInt = cur.ts.toInt + 3600 := by
  have hmod := hcur.2
  have hclock := hnow.1
  have hlt : cur.ts.toInt + 3600 < 2 ^ 63 := by omega
  have hhour := isHourTS_nextHourTS hlt hcur
  have hsec := toInt_nextHourTS hlt
  have hle : cur.nextHourTS.order ≤ now.order := (order_le_iff_of_nano_zero hhour.1).2 (by omega)
  have heq : ackNextHourTS cur now = cur.nextHourTS := by
    rw [ackNextHourTS, (isLess_eq_false_iff _ _).2 hle]
    rfl
  rw [heq]
  refine ⟨lt_of_not_ge fun hge => ?_, hhour, hsec⟩
  have := toInt_le_of_order_le hge
  omega

theorem keyOrder_le_of_neg (ht : t.ts.toInt < 0) (hu : u.ts.toInt < 0) (hle : t.order ≤ u.order) : t.keyOrder ≤ u.keyOrder := by
  rw [← not_lt, keyOrder_lt_iff_of_sign (iff_of_true hu ht), not_lt]
  exact hle

theorem flatMap_hoursFrom_of_neg (h : TreeShape m db) (hnow : now.IsClock) (hcur : IsHourTS cur) (hneg : cur.ts.toInt < 0)
    (hfits : Fits now fuel cur) : (hoursFrom m db now fuel cur).flatMap AckHour.nodes =
      m.getMerkleTreeListCore db .now cur lastHour ++ m.getMerkleTreeListCore db .now .zero now := by
  have hlast : lastHour.ts.toInt = -3600 := by decide
  induction fuel generalizing cur with
  | zero => exact absurd hfits.1 (by decide)
  | succ fuel ih =>
    obtain ⟨hlt, hhour, hsec⟩ := next_of_neg hnow hcur hneg
    have hfits' := fits_next hnow hcur hlt hfits
    have hmod := hcur.2
    rw [hoursFrom_cons hlt, flatMap_cons]
    generalize ackNextHourTS cur now = next at hhour hsec hfits'
    by_cases hcase : cur.ts.toInt = -3600
    · -- the bounds of the last hour before 1970 are in the wrong order as keys
      have hnext : next = .zero := by
        have hts : next.ts = 0 := by
          rw [← Int64.toInt_inj, hsec, hcase]
          rfl
        rw [show next = ⟨next.ts, next.nanoTs⟩ from rfl, hts, hhour.1]
        rfl
      have hcurLast : cur = lastHour := by
        have hts : cur.ts = -3600 := by
          rw [← Int64.toInt_inj, hcase]
          decide
        rw [show cur = ⟨cur.ts, cur.nanoTs⟩ from rfl, hts, hcur.1]
        rfl
      subst hnext hcurLast
      have hself := list_append_of_keyOrder m db (t := lastHour) le_rfl le_rfl
      have hzero : Timestamp.zero.order ≤ now.order := (order_le_iff_of_nano_zero rfl).2 hnow.1
      rw [append_right_eq_self.1 hself, h.list_now_nil hneg le_rfl, flatMap_hoursFrom hnow (Or.inr hhour) le_rfl hzero hfits']
    · have hnextNeg : next.ts.toInt < 0 := by omega
      have hle : cur.order ≤ next.order := (order_le_iff_of_nano_zero hcur.1).2 (by omega)
      have hle' : next.order ≤ lastHour.order := (order_le_iff_of_nano_zero hhour.1).2 (by have := hhour.2; omega)
      rw [ih hhour hnextNeg hfits', ← append_assoc, list_append_of_keyOrder m db (keyOrder_le_of_neg hneg hnextNeg hle)
        (keyOrder_le_of_neg hnextNeg (by omega) hle')]

/-! ## What is sent -/

theorem from_nodes (hnow : now.IsClock) (hoff : IsHourTS offset) :
    (syncOplogAckFrom m db offset now).flatMap SyncOplogAck.nodes = (ackHoursOf m db offset now).flatMap AckHour.nodes := by
  rw [syncOplogAckFrom_eq hnow hoff, ackHours_nodes, nil_append]

theorem nodes_iff_of_nonneg (h : TreeShape m db) (hnow : now.IsClock) (hoff : IsHourTS offset) (hlt : offset.order < now.order)
    (h0 : 0 ≤ offset.ts.toInt) :
    (syncOplogAckFrom m db offset now).flatMap SyncOplogAck.nodes = m.leavesIn db offset now ↔ AckFits m db offset now := by
  have hafter : ∀ n, m.LeafIn db offset now n → 0 ≤ n.updateTS.ts.toInt := fun n hn => h0.trans (toInt_le_of_order_le hn.2.1)
  have hnow0 := hnow.1
  rw [from_nodes hnow hoff, ackHoursOf, flatMap_hoursFrom hnow (Or.inr hoff) h0 hlt.le (fits_start offset now), list_eq h (by omega),
    filter_eq_self]
  exact ⟨fun hread => ⟨fun n hn => hread n (mem_leavesIn.2 hn), fun n hn => .inr (hafter n hn), .inr hafter⟩,
    fun hfit n hn => hfit.readable n (mem_leavesIn.1 hn)⟩

theorem mem_before (hnow : now.IsClock) : n ∈ m.leavesIn db offset lastHour ↔ m.LeafIn db offset now n ∧ n.updateTS.ts.toInt < -3600 := by
  have hlast : lastHour.order ≤ n.updateTS.order ↔ -3600 ≤ n.updateTS.ts.toInt := order_le_iff_of_nano_zero rfl
  have hnow0 : lastHour.order ≤ now.order := (order_le_iff_of_nano_zero rfl).2 (by
    have : lastHour.ts.toInt = -3600 := by decide
    have := hnow.1
    omega)
  rw [mem_leavesIn, Merkle.LeafIn, Merkle.LeafIn, Set.mem_Ico, Set.mem_Ico, ← not_le (a := lastHour.order), hlast, not_le]
  constructor
  · rintro ⟨hn, hlo, hhi⟩
    exact ⟨⟨hn, hlo, lt_of_lt_of_le (lt_of_not_ge fun hge => absurd (hlast.1 hge) (by omega)) hnow0⟩, hhi⟩
  · rintro ⟨⟨hn, hlo, -⟩, hhi⟩
    exact ⟨hn, hlo, hhi⟩

theorem mem_after (hoff : IsHourTS offset) (hneg : offset.ts.toInt < 0) : n ∈ m.leavesIn db .zero now ↔ m.LeafIn db offset now n ∧ 0 ≤ n.updateTS.ts.toInt := by
  have hzero : Timestamp.zero.order ≤ n.updateTS.order ↔ 0 ≤ n.updateTS.ts.toInt := order_le_iff_of_nano_zero rfl
  have hoffset : offset.order ≤ n.updateTS.order ↔ offset.ts.toInt ≤ n.updateTS.ts.toInt := order_le_iff_of_nano_zero hoff.1
  rw [mem_leavesIn, Merkle.LeafIn, Merkle.LeafIn, Set.mem_Ico, Set.mem_Ico, hzero, hoffset]
  constructor
  · rintro ⟨hn, hlo, hhi⟩
    exact ⟨⟨hn, by omega, hhi⟩, hlo⟩
  · rintro ⟨⟨hn, -, hhi⟩, hlo⟩
    exact ⟨hn, hlo, hhi⟩

section neg

variable (h : TreeShape m db) (hnow : now.IsClock) (hoff : IsHourTS offset) (hneg : offset.ts.toInt < 0)
include h hnow hoff hneg

theorem from_nodes_of_neg : (syncOplogAckFrom m db offset now).flatMap SyncOplogAck.nodes =
    (m.leavesIn db offset lastHour).filter MerkleNode.isReadable ++ (m.leavesIn db .zero now).filter MerkleNode.isReadable := by
  have hlast : lastHour.ts.toInt = -3600 := by decide
  have hzero : Timestamp.zero.ts.toInt = 0 := by decide
  have hnow0 := hnow.1
  rw [from_nodes hnow hoff, ackHoursOf, flatMap_hoursFrom_of_neg h hnow hoff hneg (fits_start offset now), list_eq h (by omega),
    list_eq h (by omega)]

theorem fits_of_nodes (heq : (syncOplogAckFrom m db offset now).flatMap SyncOplogAck.nodes = m.leavesIn db offset now) :
    AckFits m db offset now := by
  rw [from_nodes_of_neg h hnow hoff hneg] at heq
  have hmem : ∀ n, m.LeafIn db offset now n → n.isReadable = true ∧ (n.updateTS.ts.toInt < -3600 ∨ 0 ≤ n.updateTS.ts.toInt) := by
    intro n hn
    rw [← mem_leavesIn, ← heq, mem_append, mem_filter, mem_filter, mem_before hnow,
      mem_after hoff hneg] at hn
    rcases hn with ⟨⟨-, hts⟩, hread⟩ | ⟨⟨-, hts⟩, hread⟩
    · exact ⟨hread, .inl hts⟩
    · exact ⟨hread, .inr hts⟩
  refine ⟨fun n hn => (hmem n hn).1, fun n hn => (hmem n hn).2, ?_⟩
  by_contra hboth
  rw [not_or] at hboth
  push Not at hboth
  obtain ⟨⟨y, hy, hy0⟩, x, hx, hx0⟩ := hboth
  -- the earlier node is sent first, though its key is the greater one
  have hsorted : (m.leavesIn db offset now).Pairwise fun a b => a.key < b.key ∧ a.updateTS.keyOrder ≤ b.updateTS.keyOrder :=
    leavesIn_sorted h
  rw [← heq] at hsorted
  have hxbefore : x ∈ (m.leavesIn db offset lastHour).filter MerkleNode.isReadable := by
    rw [mem_filter, mem_before hnow]
    exact ⟨⟨hx, (hmem x hx).2.resolve_right (by omega)⟩, (hmem x hx).1⟩
  have hyafter : y ∈ (m.leavesIn db .zero now).filter MerkleNode.isReadable := by
    rw [mem_filter, mem_after hoff hneg]
    exact ⟨⟨hy, hy0⟩, (hmem y hy).1⟩
  have hle := ((pairwise_append.1 hsorted).2.2 x hxbefore y hyafter).2
  exact absurd (keyOrder_lt_of_neg hy0 hx0) (not_lt.2 hle)

theorem nodes_of_fits (hfit : AckFits m db offset now) :
    (syncOplogAckFrom m db offset now).flatMap SyncOplogAck.nodes = m.leavesIn db offset now := by
  rw [from_nodes_of_neg h hnow hoff hneg]
  have hkeys : ∀ {t u : Timestamp}, ((m.leavesIn db t u).filter MerkleNode.isReadable).Pairwise fun a b => a.key < b.key :=
    fun {t u} => ((leavesIn_sorted h).imp And.left).filter _
  rcases hfit.oneSide with hside | hside
  · have hnil : m.leavesIn db .zero now = [] := by
      rw [eq_nil_iff_forall_not_mem]
      intro n hn
      obtain ⟨hleaf, hts⟩ := (mem_after hoff hneg).1 hn
      exact absurd (hside n hleaf) (by omega)
    rw [hnil, filter_nil, append_nil]
    refine eq_of_mem_iff_of_keys hkeys ((leavesIn_sorted h).imp And.left) fun n => ?_
    rw [mem_filter, mem_before hnow, mem_leavesIn]
    exact ⟨fun hn => hn.1.1, fun hn => ⟨⟨hn, (hfit.lastHour n hn).resolve_right (by have := hside n hn; omega)⟩, hfit.readable n hn⟩⟩
  · have hnil : m.leavesIn db offset lastHour = [] := by
      rw [eq_nil_iff_forall_not_mem]
      intro n hn
      obtain ⟨hleaf, hts⟩ := (mem_before hnow).1 hn
      exact absurd (hside n hleaf) (by omega)
    rw [hnil, filter_nil, nil_append]
    refine eq_of_mem_iff_of_keys hkeys ((leavesIn_sorted h).imp And.left) fun n => ?_
    rw [mem_filter, mem_after hoff hneg, mem_leavesIn]
    exact ⟨fun hn => hn.1.1, fun hn => ⟨⟨hn, hside n hn⟩, hfit.readable n hn⟩⟩

end neg

theorem nodes_iff (h : TreeShape m db) (hnow : now.IsClock) (hoff : IsHourTS offset) :
    (syncOplogAckFrom m db offset now).flatMap SyncOplogAck.nodes = m.leavesIn db offset now ↔ AckFits m db offset now := by
  rcases lt_or_ge offset.order now.order with hlt | hge
  · rcases lt_or_ge offset.ts.toInt 0 with hneg | h0
    · exact ⟨fits_of_nodes h hnow hoff hneg, nodes_of_fits h hnow hoff hneg⟩
    · exact nodes_iff_of_nonneg h hnow hoff hlt h0
  · have hnone : ∀ n, ¬ m.LeafIn db offset now n := fun n hn => absurd (hn.2.1.trans_lt hn.2.2) (not_lt.2 hge)
    refine iff_of_true ?_ ⟨fun n hn => absurd hn (hnone n), fun n hn => absurd hn (hnone n), .inl fun n hn => absurd hn (hnone n)⟩
    rw [from_nodes hnow hoff, show ackHoursOf m db offset now = [] from hoursFrom_nil hge, flatMap_nil, eq_comm,
      eq_nil_iff_forall_not_mem]
    exact fun n hn => hnone n (mem_leavesIn.1 hn)

end AckNodesAux

open AckNodesAux in
/-- The messages of an answer together have the nodes of all oplogs from the hour of the start until now, in order, none of them empty or
too large, and the loop ends, exactly if the nodes fit. -/
theorem ackComplete_iff {m : Merkle} {p : SyncPeer} (h : TreeShape m p.db.db) (myToSyncTime : Timestamp) {now : Timestamp}
    (hnow : now.IsClock) : p.AckComplete m myToSyncTime now ↔ AckFits m p.db.db (p.ackOffset myToSyncTime) now := by
  have hoff : IsHourTS (p.ackOffset myToSyncTime) := isHourTS_toHRTimestamp _
  have hsent : p.syncOplogAck m myToSyncTime now =
      ⟨.ok (), (syncOplogAckFrom m p.db.db (p.ackOffset myToSyncTime) now).map SyncMsg.syncOplogAck⟩ := rfl
  rw [← nodes_iff h hnow hoff]
  constructor
  · rintro ⟨⟨acks, hacks, hnodes, -⟩, -⟩
    rw [hsent] at hacks
    have hlist := List.map_injective_iff.2 (fun _ _ => SyncMsg.syncOplogAck.inj) (SyncOutcome.mk.inj hacks).2
    rw [hlist]
    exact hnodes
  · intro hnodes
    refine ⟨⟨_, hsent, hnodes, fun a ha => ?_⟩, loop_ends hnow (Or.inr hoff) (fits_start _ now)⟩
    rw [syncOplogAckFrom_eq hnow hoff] at ha
    exact ackHours_sizes (Nat.zero_le _) ha

namespace AckNodesWitness

open SigningWitness JournalWitness CoverWitness

def peerOf (db : KeyStore Bytes Value) : SyncPeer := ⟨.alive, .alive, ⟨3700, 0⟩, .ofDB db, false, none⟩

def unreadable : MerkleNode := leafNode merkle addr ⟨5000, 1000000000⟩ []

def unreadableTree : KeyStore Bytes Value := soloTree ctx merkle unreadable ((⟨5000, 1000000000⟩ : Timestamp).marshal ++ [])

theorem unreadable_shape : TreeShape merkle unreadableTree :=
  (consistent_soloTree ctx (show 0 ≤ (5000 : Int64).toInt by decide) (isLeaf_leafNode _ _ _ _)).toTreeShape

theorem clock : (⟨9000, 0⟩ : Timestamp).IsClock := by
  unfold Timestamp.IsClock
  decide

end AckNodesWitness

open AckNodesWitness SigningWitness JournalWitness CoverWitness in
/-- An oplog of the second hour of 1970, which is the hour of the start. -/
theorem ackComplete_iff_one : TreeShape merkle (treeAt 5000) ∧ (⟨9000, 0⟩ : Timestamp).IsClock ∧
    (peerOf (treeAt 5000)).AckComplete merkle ⟨3700, 0⟩ ⟨9000, 0⟩ := by
  have hshape : TreeShape merkle (treeAt 5000) := (consistent_treeAt (by decide)).toTreeShape
  refine ⟨hshape, clock, (ackComplete_iff (p := peerOf (treeAt 5000)) hshape ⟨3700, 0⟩ clock).2 ⟨fun n hn => ?_, fun n hn => ?_, Or.inr fun n hn => ?_⟩⟩
  all_goals
    rw [mem_leaves_treeAt.1 hn.1]
    decide

open AckNodesWitness SigningWitness JournalWitness CoverWitness in
/-- The node of an oplog whose time has a second of nanoseconds is stored and not sent. -/
theorem unreadable_node_not_sent : TreeShape merkle unreadableTree ∧ (⟨9000, 0⟩ : Timestamp).IsClock ∧
    (peerOf unreadableTree).syncOplogAck merkle ⟨3700, 0⟩ ⟨9000, 0⟩ = ⟨.ok (), []⟩ ∧
    merkle.leavesIn unreadableTree ((peerOf unreadableTree).ackOffset ⟨3700, 0⟩) ⟨9000, 0⟩ = [unreadable] := by
  have hrun : syncOplogAckFrom merkle unreadableTree (⟨3700, 0⟩ : Timestamp).toHRTimestamp.1 ⟨9000, 0⟩ = [] ∧
      merkle.leavesIn unreadableTree (⟨3700, 0⟩ : Timestamp).toHRTimestamp.1 ⟨9000, 0⟩ = [unreadable] := by decide +kernel
  refine ⟨unreadable_shape, clock, ?_, hrun.2⟩
  change (⟨.ok (), (syncOplogAckFrom merkle unreadableTree (⟨3700, 0⟩ : Timestamp).toHRTimestamp.1 ⟨9000, 0⟩).map SyncMsg.syncOplogAck⟩ :
    SyncOutcome) = _
  rw [hrun.1]
  rfl

end PttaiCore
