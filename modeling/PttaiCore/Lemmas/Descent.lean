import PttaiCore.Lemmas.Span
import PttaiCore.SyncOplog

/-! # One step down two trees -/

namespace PttaiCore

open MerkleTreeLevel Buckets

/-! ## What is reported -/

def MerkleNode.KnownBy (x y : MerkleNode) : Prop :=
  x.updateTS = y.updateTS ∧ x.level = y.level ∧ (x.nChildren < y.nChildren ∨ x.nChildren = y.nChildren ∧ x.addr = y.addr)

namespace MerkleNode.KnownBy

variable {x y : MerkleNode}

theorem nChildren_le (h : x.KnownBy y) : x.nChildren.toNat ≤ y.nChildren.toNat := by
  rcases h.2.2 with hlt | ⟨heq, -⟩
  · exact (UInt32.lt_iff_toNat_lt.1 hlt).le
  · rw [heq]

theorem addr_eq (h : x.KnownBy y) (heq : x.nChildren.toNat = y.nChildren.toNat) : x.addr = y.addr := by
  rcases h.2.2 with hlt | ⟨-, haddr⟩
  · exact absurd heq (UInt32.lt_iff_toNat_lt.1 hlt).ne
  · exact haddr

end MerkleNode.KnownBy

theorem toUInt8_lt_asymm {a b : MerkleTreeLevel} (h : ¬ a.toUInt8 > b.toUInt8) (h' : ¬ a.toUInt8 < b.toUInt8) : a = b :=
  toUInt8_injective (le_antisymm (not_lt.1 h) (not_lt.1 h'))

theorem diffVerdict_both {x y : MerkleNode} {a b : Bool} (h : diffVerdict x y = .both a b) :
    (a = false → x.KnownBy y) ∧ (b = false → y.KnownBy x) := by
  unfold diffVerdict at h
  split_ifs at h with h1 h2 h3 h4 h5 h6
  all_goals
    have hts : x.updateTS = y.updateTS := Timestamp.eq_of_not_isLess (Bool.not_eq_true _ ▸ h1) (Bool.not_eq_true _ ▸ h2)
    have hlevel : x.level = y.level := toUInt8_lt_asymm h3 h4
    cases h
  · exact ⟨fun ha => absurd ha (by decide), fun _ => ⟨hts.symm, hlevel.symm, .inl h5⟩⟩
  · exact ⟨fun _ => ⟨hts, hlevel, .inl h6⟩, fun hb => absurd hb (by decide)⟩
  · have hn : x.nChildren = y.nChildren := UInt32.le_antisymm (UInt32.not_lt.1 h5) (UInt32.not_lt.1 h6)
    have haddr : decide (x.addr ≠ y.addr) = false → x.addr = y.addr := fun h => not_not.1 (of_decide_eq_false h)
    exact ⟨fun ha => ⟨hts, hlevel, .inr ⟨hn, haddr ha⟩⟩, fun hb => ⟨hts.symm, hlevel.symm, .inr ⟨hn.symm, (haddr hb).symm⟩⟩⟩

theorem validateMerkleTreeTrimNodes_eq {nodes : List MerkleNode} {ts : Timestamp} (h : ∀ n ∈ nodes, n.updateTS.isLess ts = true) :
    validateMerkleTreeTrimNodes nodes ts = nodes := by
  unfold validateMerkleTreeTrimNodes
  rw [bisect_of_forall_not, List.take_length]
  intro i hi
  rw [List.getElem?_eq_getElem hi, Option.elim_some, Timestamp.isLessEqual_eq, h _ (List.getElem_mem hi)]
  rfl

section report

variable {myNodes theirNodes : List MerkleNode} {ts : Timestamp}

theorem diffMerkleTree_eq (hmy : ∀ n ∈ myNodes, n.updateTS.isLess ts = true) (htheir : ∀ n ∈ theirNodes, n.updateTS.isLess ts = true) :
    diffMerkleTree myNodes theirNodes ts = mergeDiff diffVerdict myNodes theirNodes := by
  unfold diffMerkleTree
  rw [validateMerkleTreeTrimNodes_eq hmy, validateMerkleTreeTrimNodes_eq htheir, ite_self]

theorem diffMerkleTree_zero : diffMerkleTree myNodes theirNodes .zero = mergeDiff diffVerdict myNodes theirNodes := rfl

theorem mem_diff_snd {x : MerkleNode} (hx : x ∈ myNodes) (h : ∀ y ∈ theirNodes, ¬ x.KnownBy y) :
    x ∈ (mergeDiff diffVerdict myNodes theirNodes).2 :=
  mem_snd_of_forall _ _ hx fun y hy _ hv => h y hy ((diffVerdict_both hv).1 rfl)

theorem mem_diff_fst {y : MerkleNode} (hy : y ∈ theirNodes) (h : ∀ x ∈ myNodes, ¬ y.KnownBy x) :
    y ∈ (mergeDiff diffVerdict myNodes theirNodes).1 :=
  mem_fst_of_forall _ _ hy fun x hx _ hv => h x hx ((diffVerdict_both hv).2 rfl)

end report

/-! ## The children of a span -/

def Merkle.LeavesReadable (m : Merkle) (db : KeyStore Bytes Value) : Prop := ∀ n ∈ m.leaves db, n.isReadable = true

theorem upper_induction {P : MerkleTreeLevel → Prop} (hr : P .hr) (step : ∀ level ∈ uppers, level ≠ .hr → P level.child → P level) :
    ∀ level ∈ uppers, P level := by
  have hday : P .day := step .day day_mem_uppers (by decide) hr
  have hmonth : P .month := step .month month_mem_uppers (by decide) hday
  have hyear : P .year := step .year year_mem_uppers (by decide) hmonth
  intro level hl
  cases level with
  | hr => exact hr
  | day => exact hday
  | month => exact hmonth
  | year => exact hyear
  | now => exact absurd hl (by decide)
  | invalid => exact absurd hl (by decide)

namespace Span

variable {m : Merkle} {db : KeyStore Bytes Value} {c c' : Span} {u n : MerkleNode}

theorem level_ne_now (c : Span) : c.level ≠ .now := by
  intro heq
  have hupper := c.upper
  rw [heq] at hupper
  exact absurd hupper (by decide)

structure IsChild (c' c : Span) : Prop where
  level : c'.level = c.level.child
  ne_hr : c.level ≠ .hr
  start_le : c.start ≤ c'.start
  next_le : c'.next ≤ c.next

theorem floor_next (c : Span) : c.level.buckets.floor c.next = c.next := by
  rw [next, Buckets.next, Buckets.floor, index_start]

theorem exists_isChild (h : TreeShape m db) (hhr : c.level ≠ .hr) (hu : u ∈ c.children m db) :
    ∃ c', IsChild c' c ∧ db.get (c'.key m) = some (.node u) := by
  obtain ⟨hnode, hlo, hhi⟩ := h.mem_children.1 hu
  have hfloor : c.level.child.buckets.floor c.next = c.next := by
    have hof := (child_refines c.upper hhr).floor_of_floor c.next
    rwa [c.floor_next] at hof
  obtain ⟨c', hlevel, hts, hget⟩ := h.exists_span (child_mem_uppers c.upper hhr) hnode (c.nonneg.trans hlo) hfloor c.next_lt hhi
  rw [hts, toInt_ofSec c'.nonneg c'.start_lt] at hlo hhi
  rw [← hlevel] at hfloor
  exact ⟨c', ⟨hlevel, hhr, hlo, c'.next_le_of_lt hfloor hhi⟩, hget⟩

theorem IsChild.mem_children (hc : IsChild c' c) (h : TreeShape m db) (hget : db.get (c'.key m) = some (.node u)) :
    u ∈ c.children m db := by
  refine h.mem_children.2 ⟨⟨_, by rw [← hc.level, ← marshalKey_eq]; exact hget⟩, ?_⟩
  rw [(h.span_node hget).2, toInt_ofSec c'.nonneg c'.start_lt]
  exact ⟨hc.start_le, c'.start_lt_next.trans_le hc.next_le⟩

theorem exists_isChild_of_mem (hhr : c.level ≠ .hr) {x : Int} (hlo : c.start ≤ x) (hhi : x < c.next) :
    ∃ c', IsChild c' c ∧ c'.start ≤ x ∧ x < c'.next := by
  have hrefines := child_refines c.upper hhr
  have hnext : c.level.child.buckets.next x ≤ c.next := by
    have hle := hrefines.next_le_next x
    rwa [← c.level.buckets.next_floor x, c.mem_bucket_iff.1 ⟨hlo, hhi⟩] at hle
  have h0 : 0 ≤ x := c.nonneg.trans hlo
  have hmem : c.level.child.buckets.floor x ≤ x ∧ x < c.level.child.buckets.next x :=
    ⟨floor_le _ _, lt_next _ _⟩
  refine ⟨above (child_mem_uppers c.upper hhr) h0 (hnext.trans_lt c.next_lt), ⟨rfl, hhr, ?_, ?_⟩, hmem.1, ?_⟩
  · have hle := hrefines.floor_le_floor x
    rwa [c.mem_bucket_iff.1 ⟨hlo, hhi⟩] at hle
  · exact (next_floor _ x).trans_le hnext
  · exact hmem.2.trans_eq (next_floor _ x).symm

theorem mem_children_hr (h : TreeShape m db) (hhr : c.level = .hr) :
    n ∈ c.children m db ↔ n ∈ m.leaves db ∧ c.start ≤ n.updateTS.ts.toInt ∧ n.updateTS.ts.toInt < c.next := by
  rw [h.mem_children, mem_leaves, hhr]
  rfl

theorem children_nodup (h : TreeShape m db) (c : Span) : (c.children m db).Nodup :=
  (h.pairwise_nodesBetween c.child_mem).imp And.right

theorem getChildNodes_eq (h : TreeShape m db) (hread : m.LeavesReadable db) (c : Span) :
    m.getChildNodes db c.level (.ofSec c.start) = c.children m db := by
  rw [Merkle.getChildNodes, c.bounds_eq, getMerkleTreeListCore_eq, children]
  refine List.filter_eq_self.2 fun n hn => ?_
  have hnode : m.HasNode db c.level.child n := (h.mem_children.1 hn).1
  rcases List.mem_cons.1 c.child_mem with hnow | hupper
  · rw [hnow] at hnode
    exact hread n (mem_leaves.2 hnode)
  · exact h.isReadable_of_upper hupper hnode

theorem getNodeByLevelTS_eq (h : TreeShape m db) (hget : db.get (c.key m) = some (.node u)) :
    m.getNodeByLevelTS db c.level (.ofSec c.start) = .ok u := by
  have hread : u.isReadable = true := h.isReadable_of_upper c.upper ⟨_, by rw [← marshalKey_eq]; exact hget⟩
  have hnode : (Value.node u).unmarshalNode = some u := by
    rw [Value.unmarshalNode, Value.toNode, Option.filter_some]
    exact if_pos hread
  rw [key] at hget
  rw [Merkle.getNodeByLevelTS, if_neg c.level_ne_now, hget]
  dsimp only
  rw [hnode]

end Span

/-! ## The handlers -/

section handlers

variable {Γ : Ctx} {m : Merkle} {p : SyncPeer} {c : Span} {u : MerkleNode}

def askMsg (m : Merkle) (db : KeyStore Bytes Value) (c : Span) : SyncMsg :=
  .forceSyncOplogByMerkle (.ofSec c.start) c.level (c.children m db)

theorem forceSyncOplogByMerkle_span (h : Consistent Γ m p.db.db) (hread : m.LeavesReadable p.db.db) (hlevel : u.level = c.level)
    (hts : u.updateTS = .ofSec c.start) : p.forceSyncOplogByMerkle m u = .send (askMsg m p.db.db c) := by
  unfold SyncPeer.forceSyncOplogByMerkle
  rw [hlevel, hts, Span.getChildNodes_eq h.toTreeShape hread]
  cases hget : p.db.db.get (c.key m) with
  | none =>
    have hnil := (h.node c).missing.1 hget
    have hnode : m.getNodeByLevelTS p.db.db c.level (.ofSec c.start) = .error .notFound := by
      rw [Span.key] at hget
      rw [Merkle.getNodeByLevelTS, if_neg c.level_ne_now, hget]
    rw [hnode, askMsg, hnil]
    rfl
  | some v =>
    obtain ⟨w, rfl, -⟩ : ∃ w, v = .node w ∧ _ := by
      rw [Span.key, marshalKey_eq] at hget
      exact h.entry (.tail _ c.upper) hget
    rw [Span.getNodeByLevelTS_eq h.toTreeShape hget]
    exact if_neg (not_not.2 ((h.node c).node w hget).1.symm)

theorem syncOplogInvalidByMerkle_span (h : Consistent Γ m p.db.db) (hread : m.LeavesReadable p.db.db)
    (theirNewNodes : List MerkleNode) {myNewNodes : List MerkleNode}
    (hspan : ∀ u ∈ myNewNodes, ∃ c : Span, u.level = c.level ∧ u.updateTS = .ofSec c.start) :
    (∀ u ∈ myNewNodes, ∀ c : Span, u.level = c.level → u.updateTS = .ofSec c.start →
      askMsg m p.db.db c ∈ (p.syncOplogInvalidByMerkle m theirNewNodes myNewNodes).sent) ∧
    (theirNewNodes ≠ [] → .forceSyncOplogByMerkleAck theirNewNodes ∈ (p.syncOplogInvalidByMerkle m theirNewNodes myNewNodes).sent) := by
  induction myNewNodes with
  | nil =>
    refine ⟨fun u hu => absurd hu List.not_mem_nil, fun hne => ?_⟩
    have hempty : theirNewNodes.isEmpty = false := by rwa [List.isEmpty_eq_false_iff]
    rw [SyncPeer.syncOplogInvalidByMerkle, hempty]
    exact .head _
  | cons u l ih =>
    obtain ⟨ih1, ih2⟩ := ih fun v hv => hspan v (List.mem_cons_of_mem u hv)
    obtain ⟨c, hlevel, hts⟩ := hspan u List.mem_cons_self
    have hsent : (p.syncOplogInvalidByMerkle m theirNewNodes (u :: l)).sent =
        askMsg m p.db.db c :: (p.syncOplogInvalidByMerkle m theirNewNodes l).sent := by
      rw [SyncPeer.syncOplogInvalidByMerkle, forceSyncOplogByMerkle_span h hread hlevel hts]
      rfl
    rw [hsent]
    refine ⟨fun v hv c' hlevel' hts' => ?_, fun hne => .tail _ (ih2 hne)⟩
    rcases List.mem_cons.1 hv with rfl | hv
    · have hmsg := forceSyncOplogByMerkle_span h hread hlevel' hts'
      rw [forceSyncOplogByMerkle_span h hread hlevel hts] at hmsg
      have heq : askMsg m p.db.db c = askMsg m p.db.db c' := (List.cons.inj (congrArg SyncOutcome.sent hmsg)).1
      rw [heq]
      exact .head _
    · exact .tail _ (ih1 v hv c' hlevel' hts')

end handlers

end PttaiCore
