import PttaiCore.Lemmas.MyNodes

/-! # The books of the nodes -/

namespace PttaiCore

open Heap KeyStore List

namespace Me

namespace ProtocolManager

structure Bookkept (Γ : NodeCtx) (pm : ProtocolManager) : Prop where
  total : pm.totalWeight = UInt32.ofNat pm.weightSum
  weighty : ∀ r p, pm.myNodes.get r = some p → (pm.heap.get p).weight ≠ 0 →
    ∃ id, setNodeSignID Γ (pm.heap.get p).nodeID pm.myID = .ok id ∧ pm.myNodeByNodeSignIDs.get id = some p
  signed : ∀ id p, pm.myNodeByNodeSignIDs.get id = some p → pm.myNodes.get (pm.heap.get p).raftID = some p

structure Keyed (Γ : NodeCtx) (pm : ProtocolManager) : Prop where
  allocated : ∀ r p, pm.myNodes.get r = some p → p < pm.heap.next
  raftID : ∀ r p, pm.myNodes.get r = some p → (pm.heap.get p).raftID = r
  nodeID : ∀ r p, pm.myNodes.get r = some p → toRaftID Γ (pm.heap.get p).nodeID = .ok r
  signID : ∀ id p, pm.myNodeByNodeSignIDs.get id = some p → setNodeSignID Γ (pm.heap.get p).nodeID pm.myID = .ok id

def storedNodes (pm : ProtocolManager) : List MyNode := pm.records.filterMap pm.ownRecord

structure RecordsProper (Γ : NodeCtx) (pm : ProtocolManager) : Prop where
  each : ∀ e ∈ pm.records, ∃ node : MyNode, e = (marshalKey pm.myID node.nodeID, some node) ∧ node.id = pm.myID ∧
    toRaftID Γ node.nodeID = .ok node.raftID
  distinct : ∀ a ∈ pm.storedNodes, ∀ b ∈ pm.storedNodes, a.raftID = b.raftID → a.nodeID = b.nodeID

namespace BooksAux

variable {Γ : NodeCtx} {pm pm' : ProtocolManager}

structure WellKept (Γ : NodeCtx) (pm : ProtocolManager) : Prop where
  keyed : Keyed Γ pm
  books : Bookkept Γ pm

theorem WellKept.congr (h : WellKept Γ pm) (hs : SameBooks pm pm') : WellKept Γ pm' := by
  obtain ⟨⟨halloc, hraft, hnode, hsign⟩, htotal, hweighty, hsigned⟩ := h
  refine ⟨⟨?_, ?_, ?_, ?_⟩, ?_, ?_, ?_⟩
  · rw [hs.myNodes, hs.next]
    exact halloc
  · intro r p hp
    rw [hs.myNodes] at hp
    rw [hs.raftID]
    exact hraft r p hp
  · intro r p hp
    rw [hs.myNodes] at hp
    rw [hs.nodeID]
    exact hnode r p hp
  · intro id p hp
    rw [hs.signIDs] at hp
    rw [hs.nodeID, hs.myID]
    exact hsign id p hp
  · rw [hs.total, htotal, weightSum, weightSum, hs.myNodes]
    exact congrArg UInt32.ofNat (sumOn_congr fun _ p _ => by rw [hs.weight])
  · intro r p hp hw
    rw [hs.myNodes] at hp
    rw [hs.weight] at hw
    rw [hs.nodeID, hs.myID, hs.signIDs]
    exact hweighty r p hp hw
  · intro id p hp
    rw [hs.signIDs] at hp
    rw [hs.myNodes, hs.raftID]
    exact hsigned id p hp

theorem keyed_unique (h : Keyed Γ pm) {r r' : UInt64} {p : Nat} (hp : pm.myNodes.get r = some p) (hp' : pm.myNodes.get r' = some p) :
    r = r' := (h.raftID r p hp).symm.trans (h.raftID r' p hp')

theorem WellKept.signAllocated (h : WellKept Γ pm) {id : PttID} {p : Nat} (hp : pm.myNodeByNodeSignIDs.get id = some p) : p < pm.heap.next :=
  h.keyed.allocated _ p (h.books.signed id p hp)

theorem weightSum_eq (pm : ProtocolManager) (r : UInt64) : pm.weightSum =
    ((pm.myNodes.get r).elim 0 fun p => (pm.heap.get p).weight.toNat) +
      (pm.myNodes.delete r).sumOn fun _ p => (pm.heap.get p).weight.toNat := by
  cases hr : pm.myNodes.get r with
  | none => rw [delete_of_get_eq_none hr, Option.elim_none, Nat.zero_add, weightSum]
  | some p => rw [weightSum, sumOn_of_get hr, Option.elim_some]

theorem ofNat_replace (w old : UInt32) (rest : Nat) :
    UInt32.ofNat (old.toNat + rest) + (w - old) = UInt32.ofNat (w.toNat + rest) := by
  rw [UInt32.ofNat_add, UInt32.ofNat_add, UInt32.ofNat_toNat, UInt32.ofNat_toNat]
  grind

/-! ## Entries that add a node -/

section add

variable {r : UInt64} {n : NodeID} {w : UInt32} {s : PttID} {p : Nat} {old new : MyNode}

theorem nodeID_new (h : AddEffect pm r n w s p old new pm') (hown : ∀ p, pm.myNodes.get r = some p → (pm.heap.get p).nodeID = n) :
    new.nodeID = n := by
  rw [h.nodeID]
  rcases h.found with ⟨hp, rfl⟩ | ⟨-, -, -, hn, -⟩
  · exact hown p hp
  · exact hn

theorem raftID_new (h : AddEffect pm r n w s p old new pm') (hk : Keyed Γ pm) : new.raftID = r := by
  rw [h.raftID]
  rcases h.found with ⟨hp, rfl⟩ | ⟨-, -, -, -, hr, -⟩
  · exact hk.raftID r p hp
  · exact hr

theorem other_record (h : AddEffect pm r n w s p old new pm') (hk : Keyed Γ pm) {r' : UInt64} {q : Nat} (hne : r' ≠ r)
    (hq : pm.myNodes.get r' = some q) : q ≠ p ∧ pm'.heap.get q = pm.heap.get q := by
  have hqp : q ≠ p := by
    rintro rfl
    rcases h.found with ⟨hp, -⟩ | ⟨-, hp, -⟩
    · exact hne (keyed_unique hk hq hp)
    · exact absurd (hk.allocated r' q hq) (hp ▸ lt_irrefl _)
  exact ⟨hqp, h.frame q (hk.allocated r' q hq) hqp⟩

theorem keyed_add (hk : WellKept Γ pm) (h : AddEffect pm r n w s p old new pm') (hr : toRaftID Γ n = .ok r)
    (hs : setNodeSignID Γ n pm.myID = .ok s) (hown : ∀ p, pm.myNodes.get r = some p → (pm.heap.get p).nodeID = n) : Keyed Γ pm' := by
  have hnode : ∀ r' q, pm'.myNodes.get r' = some q →
      (r' = r ∧ q = p ∧ pm'.heap.get q = new) ∨ (r' ≠ r ∧ pm.myNodes.get r' = some q ∧ pm'.heap.get q = pm.heap.get q) := by
    intro r' q hq
    rw [h.myNodes, get_put] at hq
    split_ifs at hq with hrr
    · cases hq
      exact .inl ⟨hrr, rfl, h.cell⟩
    · exact .inr ⟨hrr, hq, (other_record h hk.keyed hrr hq).2⟩
  refine ⟨fun r' q hq => ?_, fun r' q hq => ?_, fun r' q hq => ?_, fun id q hq => ?_⟩
  · rcases hnode r' q hq with ⟨-, rfl, -⟩ | ⟨-, hq', -⟩
    · exact h.lt_next
    · exact (hk.keyed.allocated r' q hq').trans_le h.next
  · rcases hnode r' q hq with ⟨rfl, rfl, hcell⟩ | ⟨-, hq', hcell⟩
    · rw [hcell, raftID_new h hk.keyed]
    · rw [hcell, hk.keyed.raftID r' q hq']
  · rcases hnode r' q hq with ⟨rfl, rfl, hcell⟩ | ⟨-, hq', hcell⟩
    · rw [hcell, nodeID_new h hown, hr]
    · rw [hcell, hk.keyed.nodeID r' q hq']
  · rw [h.signIDs, get_put] at hq
    rw [h.myID]
    split_ifs at hq with hid
    · cases hq
      rw [h.cell, nodeID_new h hown, hs, hid]
    · by_cases hqp : q = p
      · -- the record had another sign identifier before, which is that of the same node
        subst hqp
        rcases h.found with ⟨hp, rfl⟩ | ⟨-, hp, -⟩
        · rw [h.cell, h.nodeID]
          exact hk.keyed.signID id q hq
        · exact absurd (hk.signAllocated hq) (hp ▸ lt_irrefl _)
      · rw [h.frame q (hk.signAllocated hq) hqp]
        exact hk.keyed.signID id q hq

theorem weightSum_add (h : AddEffect pm r n w s p old new pm') (hk : Keyed Γ pm) :
    ∃ rest, pm.weightSum = old.weight.toNat + rest ∧ pm'.weightSum = w.toNat + rest := by
  refine ⟨(pm.myNodes.delete r).sumOn fun _ q => (pm.heap.get q).weight.toNat, ?_, ?_⟩
  · rw [weightSum_eq pm r]
    rcases h.found with ⟨hp, rfl⟩ | ⟨hp, -, hw, -⟩
    · rw [hp, Option.elim_some]
    · rw [hp, hw, Option.elim_none]
      rfl
  · rw [weightSum, h.myNodes, sumOn_put, h.cell, h.weight]
    congr 1
    refine sumOn_congr fun r' q hq => ?_
    rw [get_delete] at hq
    split_ifs at hq with hrr
    rw [(other_record h hk hrr hq).2]

theorem WellKept.add (hk : WellKept Γ pm) (h : AddEffect pm r n w s p old new pm') (hr : toRaftID Γ n = .ok r)
    (hs : setNodeSignID Γ n pm.myID = .ok s) (hown : ∀ p, pm.myNodes.get r = some p → (pm.heap.get p).nodeID = n) : WellKept Γ pm' := by
  refine ⟨keyed_add hk h hr hs hown, ?_, fun r' q hq hw => ?_, fun id q hq => ?_⟩
  · obtain ⟨rest, hbefore, hafter⟩ := weightSum_add h hk.keyed
    rw [h.total, hk.books.total, hbefore, hafter, ofNat_replace]
  · rw [h.myNodes, get_put] at hq
    rw [h.myID, h.signIDs]
    split_ifs at hq with hrr
    · cases hq
      rw [h.cell, nodeID_new h hown]
      exact ⟨s, hs, by rw [get_put, if_pos rfl]⟩
    · rw [(other_record h hk.keyed hrr hq).2] at hw ⊢
      obtain ⟨id, hid, hget⟩ := hk.books.weighty r' q hq hw
      refine ⟨id, hid, ?_⟩
      have hne : id ≠ s := by
        -- nodes that sign alike have the same raft identifier
        rintro rfl
        have heq := toRaftID_of_signID hid hs
        rw [hk.keyed.nodeID r' q hq, hr] at heq
        exact hrr (Except.ok.inj heq)
      rw [get_put, if_neg hne, hget]
  · rw [h.signIDs, get_put] at hq
    rw [h.myNodes, get_put]
    split_ifs at hq with hid
    · cases hq
      rw [h.cell, raftID_new h hk.keyed, if_pos rfl]
    · by_cases hqp : q = p
      · subst hqp
        rw [h.cell, raftID_new h hk.keyed, if_pos rfl]
      · rw [h.frame q (hk.signAllocated hq) hqp]
        have hget := hk.books.signed id q hq
        rw [if_neg ?_, hget]
        intro hrr
        rw [hrr] at hget
        rcases h.found with ⟨hp, -⟩ | ⟨hp, -⟩
        · exact hqp (Option.some.inj (hget.symm.trans hp))
        · rw [hp] at hget
          cases hget

end add

/-! ## Entries that remove a node -/

section remove

variable {r : UInt64} {n : NodeID} {s : PttID} {p : Nat} {new : MyNode}

theorem left_record (h : RemoveEffect pm r s p new pm') (hk : Keyed Γ pm) {r' : UInt64} {q : Nat}
    (hq : pm'.myNodes.get r' = some q) : r' ≠ r ∧ pm.myNodes.get r' = some q ∧ pm'.heap.get q = pm.heap.get q := by
  rw [h.myNodes, get_delete] at hq
  split_ifs at hq with hrr
  refine ⟨hrr, hq, ?_⟩
  rw [h.heap]
  refine get_set_of_ne ?_
  rintro rfl
  exact hrr (keyed_unique hk hq h.found)

theorem left_signer (h : RemoveEffect pm r s p new pm') (hk : Keyed Γ pm) (hs : setNodeSignID Γ n pm.myID = .ok s)
    (hown : (pm.heap.get p).nodeID = n) {id : PttID} {q : Nat} (hq : pm'.myNodeByNodeSignIDs.get id = some q) :
    id ≠ s ∧ pm.myNodeByNodeSignIDs.get id = some q ∧ q ≠ p ∧ pm'.heap.get q = pm.heap.get q := by
  rw [h.signIDs, get_delete] at hq
  split_ifs at hq with hid
  have hqp : q ≠ p := by
    rintro rfl
    have hkey := hk.signID id q hq
    rw [hown, hs] at hkey
    exact hid (Except.ok.inj hkey).symm
  rw [h.heap]
  exact ⟨hid, hq, hqp, get_set_of_ne hqp⟩

theorem weightSum_remove (h : RemoveEffect pm r s p new pm') (hk : Keyed Γ pm) :
    pm'.weightSum = (pm.myNodes.delete r).sumOn fun _ q => (pm.heap.get q).weight.toNat := by
  rw [weightSum, sumOn_congr fun r' q hq => by rw [(left_record h hk hq).2.2], h.myNodes]

theorem WellKept.remove (hk : WellKept Γ pm) (h : RemoveEffect pm r s p new pm') (hr : toRaftID Γ n = .ok r)
    (hs : setNodeSignID Γ n pm.myID = .ok s) (hown : (pm.heap.get p).nodeID = n) : WellKept Γ pm' := by
  have hnext : pm'.heap.next = pm.heap.next := by rw [h.heap, next_set]
  refine ⟨⟨fun r' q hq => ?_, fun r' q hq => ?_, fun r' q hq => ?_, fun id q hq => ?_⟩, ?_, fun r' q hq hw => ?_, fun id q hq => ?_⟩
  · rw [hnext]
    exact hk.keyed.allocated r' q (left_record h hk.keyed hq).2.1
  · obtain ⟨-, hq', hcell⟩ := left_record h hk.keyed hq
    rw [hcell, hk.keyed.raftID r' q hq']
  · obtain ⟨-, hq', hcell⟩ := left_record h hk.keyed hq
    rw [hcell, hk.keyed.nodeID r' q hq']
  · obtain ⟨-, hq', -, hcell⟩ := left_signer h hk.keyed hs hown hq
    rw [hcell, h.myID, hk.keyed.signID id q hq']
  · rw [h.total, weightSum_remove h hk.keyed]
  · obtain ⟨hrr, hq', hcell⟩ := left_record h hk.keyed hq
    rw [hcell] at hw ⊢
    obtain ⟨id, hid, hget⟩ := hk.books.weighty r' q hq' hw
    rw [h.myID, h.signIDs]
    refine ⟨id, hid, ?_⟩
    have hne : id ≠ s := by
      rintro rfl
      have heq := toRaftID_of_signID hid hs
      rw [hk.keyed.nodeID r' q hq', hr] at heq
      exact hrr (Except.ok.inj heq)
    rw [get_delete, if_neg hne, hget]
  · obtain ⟨-, hq', hqp, hcell⟩ := left_signer h hk.keyed hs hown hq
    have hget := hk.books.signed id q hq'
    rw [hcell, h.myNodes, get_delete, if_neg ?_, hget]
    intro hrr
    rw [hrr, h.found] at hget
    exact hqp (Option.some.inj hget).symm

theorem WellKept.handleRevokeMyNode (hk : WellKept Γ pm) (hzero : pm.weightSum = 0) : WellKept Γ (handleRevokeMyNode Γ pm) := by
  have hclean := cleaned_foldl (Γ := Γ) pm.myNodes.entries { pm with status := .revoked }
  have hnone : ∀ r, (ProtocolManager.handleRevokeMyNode Γ pm).myNodes.get r = none := by
    intro r
    rw [ProtocolManager.handleRevokeMyNode, revokeMyNodeCleanMyNodes, hclean.myNodes, get_deleteAll]
    split_ifs with hmem
    · rfl
    · refine get_eq_none_iff.2 fun q hq => hmem ?_
      exact mem_map_of_mem (f := Prod.fst) hq
  have hnone' : ∀ id, (ProtocolManager.handleRevokeMyNode Γ pm).myNodeByNodeSignIDs.get id = none := by
    intro id
    cases hget : (ProtocolManager.handleRevokeMyNode Γ pm).myNodeByNodeSignIDs.get id with
    | none => rfl
    | some q =>
      obtain ⟨hq, hes⟩ := hclean.signIDs id q hget
      have hmem := get_eq_some_iff.1 (hk.books.signed id q hq)
      exact absurd (hk.keyed.signID id q hq) (hes _ hmem)
  have hsum : (ProtocolManager.handleRevokeMyNode Γ pm).weightSum = 0 := by
    have hempty : (ProtocolManager.handleRevokeMyNode Γ pm).myNodes = KeyStore.empty := ext_get hnone
    rw [weightSum, hempty]
    rfl
  refine ⟨⟨?_, ?_, ?_, ?_⟩, ?_, ?_, ?_⟩
  all_goals first
    | (intro r q hq; rw [hnone] at hq; cases hq)
    | (intro id q hq; rw [hnone'] at hq; cases hq)
    | skip
  rw [hsum, ← hzero, ← hk.books.total]
  exact hclean.total

end remove

/-! ## Approvals -/

theorem WellKept.approve (hk : WellKept Γ pm) {ts : Timestamp} {n : NodeID}
    (hsafe : ∀ id p, pm.myNodeByNodeSignIDs.get id = some p → toRaftID Γ n ≠ .ok (pm.heap.get p).raftID) :
    WellKept Γ (pm.approveJoinMe Γ ts n).2 := by
  rw [ProtocolManager.approveJoinMe]
  cases hr : toRaftID Γ n with
  | error e =>
    rw [newMyNode, hr]
    exact hk
  | ok r =>
    rw [newMyNode_eq hr]
    have hnode : ∀ r' q, (pm.myNodes.put r pm.heap.next).get r' = some q → (r' = r ∧ q = pm.heap.next) ∨ (r' ≠ r ∧ pm.myNodes.get r' = some q) := by
      intro r' q hq
      rw [get_put] at hq
      split_ifs at hq with hrr
      · exact .inl ⟨hrr, (Option.some.inj hq).symm⟩
      · exact .inr ⟨hrr, hq⟩
    have hold : ∀ {r' q a}, pm.myNodes.get r' = some q → (pm.heap.alloc a).get q = pm.heap.get q :=
      fun hq => get_alloc_of_lt (hk.keyed.allocated _ _ hq)
    have hsigner : ∀ {id q a}, pm.myNodeByNodeSignIDs.get id = some q → (pm.heap.alloc a).get q = pm.heap.get q :=
      fun hq => get_alloc_of_lt (hk.signAllocated hq)
    refine ⟨⟨fun r' q hq => ?_, fun r' q hq => ?_, fun r' q hq => ?_, fun id q hq => ?_⟩, ?_, fun r' q hq hw => ?_, fun id q hq => ?_⟩
    · rw [next_alloc]
      rcases hnode r' q hq with ⟨-, rfl⟩ | ⟨-, hq⟩
      · exact Nat.lt_succ_self _
      · exact (hk.keyed.allocated r' q hq).trans (Nat.lt_succ_self _)
    · rcases hnode r' q hq with ⟨rfl, rfl⟩ | ⟨-, hq⟩
      · rw [get_alloc_next]
      · rw [hold hq, hk.keyed.raftID r' q hq]
    · rcases hnode r' q hq with ⟨rfl, rfl⟩ | ⟨-, hq⟩
      · rw [get_alloc_next, hr]
      · rw [hold hq, hk.keyed.nodeID r' q hq]
    · rw [hsigner hq]
      exact hk.keyed.signID id q hq
    · -- a record in the place of the new one weighs nothing, since its node cannot sign
      have hzero : ((pm.myNodes.get r).elim 0 fun p => (pm.heap.get p).weight.toNat) = 0 := by
        cases hp : pm.myNodes.get r with
        | none => rfl
        | some p =>
          rw [Option.elim_some]
          by_contra hw
          obtain ⟨id, -, hget⟩ := hk.books.weighty r p hp fun heq => hw (by rw [heq]; rfl)
          exact hsafe id p hget (by rw [hr, hk.keyed.raftID r p hp])
      rw [weightSum, sumOn_put, get_alloc_next, hk.books.total, weightSum_eq pm r, hzero]
      congr 2
      refine sumOn_congr fun r' q hq => ?_
      rw [get_delete] at hq
      split_ifs at hq with hrr
      rw [hold hq]
    · rcases hnode r' q hq with ⟨rfl, rfl⟩ | ⟨-, hq⟩
      · rw [get_alloc_next] at hw
        exact absurd rfl hw
      · rw [hold hq] at hw ⊢
        exact hk.books.weighty r' q hq hw
    · rw [hsigner hq, get_put, if_neg ?_]
      · exact hk.books.signed id q hq
      · intro heq
        exact hsafe id q hq (by rw [hr, heq])

/-! ## Loading -/

structure Loaded (Γ : NodeCtx) (pm : ProtocolManager) (nodes : List MyNode) (pm' : ProtocolManager) : Prop where
  kept : WellKept Γ pm'
  frame : ∀ r p, pm.myNodes.get r = some p → pm'.myNodes.get r = some p ∧ pm'.heap.get p = pm.heap.get p
  signFrame : ∀ s p, pm.myNodeByNodeSignIDs.get s = some p → pm'.myNodeByNodeSignIDs.get s = some p
  loaded : ∀ node ∈ nodes, ∃ p s, pm'.myNodes.get node.raftID = some p ∧ pm'.heap.get p = node ∧
    setNodeSignID Γ node.nodeID pm.myID = .ok s ∧ pm'.myNodeByNodeSignIDs.get s = some p
  only : ∀ r p, pm'.myNodes.get r = some p → pm.myNodes.get r = some p ∨ ∃ node ∈ nodes, node.raftID = r
  myID : pm'.myID = pm.myID
  myNodeID : pm'.myNodeID = pm.myNodeID

structure StoredNode (Γ : NodeCtx) (pm : ProtocolManager) (node : MyNode) : Prop where
  raftID : toRaftID Γ node.nodeID = .ok node.raftID
  id : node.id = pm.myID
  stored : pm.dbMyNodes.get (marshalKey node.id node.nodeID) = some (some node)

theorem loaded_foldl {nodes : List MyNode} (hk : WellKept Γ pm) (hstored : ∀ node ∈ nodes, StoredNode Γ pm node)
    (hdist : nodes.Pairwise fun a b => a.raftID ≠ b.raftID) (hnew : ∀ node ∈ nodes, pm.myNodes.get node.raftID = none) :
    Loaded Γ pm nodes (nodes.foldl (loadNode Γ) pm) := by
  induction nodes generalizing pm with
  | nil => exact ⟨hk, fun r p h => ⟨h, rfl⟩, fun s p h => h, fun node h => absurd h not_mem_nil, fun r p h => .inl h, rfl, rfl⟩
  | cons node nodes ih =>
    have hnode := hstored node mem_cons_self
    obtain ⟨s, hs, heff⟩ := loadNode_effect hnode.raftID hnode.id (hnew node (.head _)) hnode.stored
    have hmid := hk.add heff hnode.raftID hs fun p hp => by
      rw [hnew node mem_cons_self] at hp
      cases hp
    have hdb : (loadNode Γ pm node).dbMyNodes = pm.dbMyNodes := by
      rw [loadNode]
      split <;> rfl
    have hrest := ih hmid
      (fun a ha => by
        have hst := hstored a (.tail _ ha)
        exact ⟨hst.raftID, hst.id.trans heff.myID.symm, hdb ▸ hst.stored⟩)
      (pairwise_cons.1 hdist).2
      (fun a ha => by
        rw [heff.myNodes, get_put, if_neg ((pairwise_cons.1 hdist).1 a ha).symm]
        exact hnew a (.tail _ ha))
    rw [foldl_cons]
    refine ⟨hrest.kept, fun r p hp => ?_, fun s' p hp => ?_, fun a ha => ?_, fun r p hp => ?_, hrest.myID.trans heff.myID,
      hrest.myNodeID.trans heff.myNodeID⟩
    · have hne : r ≠ node.raftID := by
        rintro rfl
        rw [hnew node mem_cons_self] at hp
        cases hp
      obtain ⟨hget, hcell⟩ := hrest.frame r p (by rw [heff.myNodes, get_put, if_neg hne, hp])
      exact ⟨hget, hcell.trans (other_record heff hk.keyed hne hp).2⟩
    · refine hrest.signFrame s' p ?_
      rw [heff.signIDs, get_put, if_neg ?_, hp]
      rintro rfl
      -- a node that signs alike would have the raft identifier of the record
      have hsame := toRaftID_of_signID (hk.keyed.signID s' p hp) hs
      have hget := hk.books.signed s' p hp
      rw [hk.keyed.nodeID _ p hget, hnode.raftID] at hsame
      rw [Except.ok.inj hsame, hnew node mem_cons_self] at hget
      cases hget
    · rcases mem_cons.1 ha with rfl | ha
      · have hmine : (loadNode Γ pm a).myNodes.get a.raftID = some pm.heap.next := by rw [heff.myNodes, get_put, if_pos rfl]
        obtain ⟨hget, hcell⟩ := hrest.frame _ _ hmine
        refine ⟨pm.heap.next, s, hget, hcell.trans heff.cell, hs, hrest.signFrame s _ ?_⟩
        rw [heff.signIDs, get_put, if_pos rfl]
      · obtain ⟨p, s', h1, h2, h3, h4⟩ := hrest.loaded a ha
        exact ⟨p, s', h1, h2, heff.myID ▸ h3, h4⟩
    · rcases hrest.only r p hp with hp | ⟨a, ha, hr⟩
      · rw [heff.myNodes, get_put] at hp
        split_ifs at hp with hrr
        · exact .inr ⟨node, (.head _), hrr.symm⟩
        · exact .inl hp
      · exact .inr ⟨a, .tail _ ha, hr⟩

theorem isPrefixOf_marshalKey (myID : PttID) (n : NodeID) : (dbMyNodePrefix ++ myID.1).isPrefixOf (marshalKey myID n) = true :=
  List.isPrefixOf_iff_prefix.2 (prefix_append _ _)

theorem marshalKey_inj {myID : PttID} {n m : NodeID} : marshalKey myID n = marshalKey myID m ↔ n = m := by
  refine ⟨fun h => ?_, congrArg _⟩
  have hbytes := append_cancel_left h
  cases n
  cases m
  exact congrArg NodeID.mk (Subtype.ext hbytes)

theorem mem_records {k : Bytes} {v : Option MyNode} :
    (k, v) ∈ pm.records ↔ pm.dbMyNodes.get k = some v ∧ (dbMyNodePrefix ++ pm.myID.1).isPrefixOf k = true := mem_select

theorem mem_storedNodes (h : RecordsProper Γ pm) {node : MyNode} :
    node ∈ pm.storedNodes ↔ pm.dbMyNodes.get (marshalKey pm.myID node.nodeID) = some (some node) := by
  rw [storedNodes, mem_filterMap]
  constructor
  · rintro ⟨e, he, hown⟩
    obtain ⟨a, rfl, hid, -⟩ := h.each e he
    rw [ownRecord, Option.filter_some, if_pos (decide_eq_true hid)] at hown
    cases hown
    exact (mem_records.1 he).1
  · intro hget
    have he : (marshalKey pm.myID node.nodeID, some node) ∈ pm.records := mem_records.2 ⟨hget, isPrefixOf_marshalKey _ _⟩
    obtain ⟨a, ha, hid, -⟩ := h.each _ he
    obtain rfl : node = a := Option.some.inj (Prod.ext_iff.1 ha).2
    exact ⟨_, he, by rw [ownRecord, Option.filter_some, if_pos (decide_eq_true hid)]⟩

theorem storedNode_of_mem (h : RecordsProper Γ pm) {node : MyNode} (hmem : node ∈ pm.storedNodes) : StoredNode Γ pm node := by
  have hget := (mem_storedNodes h).1 hmem
  obtain ⟨a, ha, hid, hr⟩ := h.each _ (mem_records.2 ⟨hget, isPrefixOf_marshalKey _ _⟩)
  obtain rfl : node = a := Option.some.inj (Prod.ext_iff.1 ha).2
  exact ⟨hr, hid, hid.symm ▸ hget⟩

theorem pairwise_storedNodes (h : RecordsProper Γ pm) : pm.storedNodes.Pairwise fun a b => a.raftID ≠ b.raftID := by
  have hmem : ∀ e ∈ pm.records, ∀ a ∈ pm.ownRecord e, e = (marshalKey pm.myID a.nodeID, some a) ∧ a ∈ pm.storedNodes := by
    intro e he a ha
    refine ⟨?_, mem_filterMap.2 ⟨e, he, ha⟩⟩
    obtain ⟨b, rfl, hid, -⟩ := h.each e he
    rw [ownRecord, Option.filter_some, if_pos (decide_eq_true hid)] at ha
    rw [Option.some.inj ha]
  refine pairwise_filterMap.2 ((select_sorted _ _).imp_of_mem fun {e e'} he he' hlt a ha b hb hr => ?_)
  obtain ⟨rfl, hma⟩ := hmem e he a ha
  obtain ⟨rfl, hmb⟩ := hmem e' he' b hb
  rw [h.distinct a hma b hmb hr] at hlt
  exact absurd hlt (lt_irrefl _)

theorem kept_fresh (pm : ProtocolManager) : WellKept Γ pm.fresh := by
  refine ⟨⟨?_, ?_, ?_, ?_⟩, rfl, ?_, ?_⟩
  all_goals
    intro k p h
    rw [fresh, get_empty] at h
    cases h

theorem loadMyNodes_eq (h : RecordsProper Γ pm) (hown : ∃ node ∈ pm.storedNodes, node.nodeID = pm.myNodeID) :
    ∃ pm', loadMyNodes Γ pm.fresh = .ok pm' ∧ Loaded Γ pm.fresh pm.storedNodes pm' ∧ pm'.dbMyNodes = pm.dbMyNodes := by
  have hnone : pm.fresh.records.filter (fun e => (pm.fresh.ownRecord e).isNone) = [] := by
    refine filter_eq_nil_iff.2 fun e he => ?_
    obtain ⟨a, rfl, hid, -⟩ := h.each e he
    rw [ownRecord, Option.filter_some, if_pos (decide_eq_true (show a.id = pm.fresh.myID from hid))]
    exact Bool.false_ne_true
  have hany : (pm.fresh.records.filterMap pm.fresh.ownRecord).any (fun node => decide (node.nodeID = pm.fresh.myNodeID)) = true := by
    obtain ⟨node, hmem, heq⟩ := hown
    exact any_eq_true.2 ⟨node, hmem, decide_eq_true heq⟩
  have hstored : ∀ node ∈ pm.storedNodes, StoredNode Γ pm.fresh node := fun node hmem =>
    ⟨(storedNode_of_mem h hmem).raftID, (storedNode_of_mem h hmem).id, (storedNode_of_mem h hmem).stored⟩
  have hload := loaded_foldl (kept_fresh pm) hstored (pairwise_storedNodes h) fun node _ => rfl
  refine ⟨_, if_pos hany, ?_, ?_⟩
  · have hsame : ∀ db, SameBooks (pm.storedNodes.foldl (loadNode Γ) pm.fresh)
        { pm.storedNodes.foldl (loadNode Γ) pm.fresh with dbMyNodes := db } := fun db =>
      ⟨rfl, rfl, rfl, rfl, fun _ => rfl, fun _ => rfl, fun _ => rfl, rfl, rfl⟩
    exact ⟨hload.kept.congr (hsame _), hload.frame, hload.signFrame, hload.loaded, hload.only, hload.myID, hload.myNodeID⟩
  · rw [hnone]
    rfl

end BooksAux

end ProtocolManager

end Me

end PttaiCore
