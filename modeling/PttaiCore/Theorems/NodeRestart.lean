import PttaiCore.Theorems.Weights

/-! # The nodes after a restart -/

namespace PttaiCore

open KeyStore

namespace Me

namespace ProtocolManager

def nodeAt (pm : ProtocolManager) (r : UInt64) : Option (NodeID × UInt32) :=
  (pm.myNodes.get r).map fun p => ((pm.heap.get p).nodeID, (pm.heap.get p).weight)

def signerAt (pm : ProtocolManager) (id : PttID) : Option (NodeID × UInt32) :=
  (pm.myNodeByNodeSignIDs.get id).map fun p => ((pm.heap.get p).nodeID, (pm.heap.get p).weight)

structure SameNodes (pm pm' : ProtocolManager) : Prop where
  nodes : ∀ r, pm'.nodeAt r = pm.nodeAt r
  signers : ∀ id, pm'.signerAt id = pm.signerAt id
  total : pm'.totalWeight = pm.totalWeight

def RestartFaithful (Γ : NodeCtx) (pm : ProtocolManager) : Prop := ∃ pm', loadMyNodes Γ pm.fresh = .ok pm' ∧ SameNodes pm pm'

def EntrySafe (Γ : NodeCtx) (pm : ProtocolManager) : NodeCall → Prop
  | .addNode _ _ cc | .removeNode _ _ cc => cc.ctxNodeID ≠ pm.myNodeID ∧
      ∀ node ∈ pm.storedNodes, toRaftID Γ cc.ctxNodeID = .ok node.raftID → node.nodeID = cc.ctxNodeID
  | .approveJoinMe _ _ => False

def EntryStep (Γ : NodeCtx) (pm : ProtocolManager) (c : NodeCall) (pm' : ProtocolManager) : Prop :=
  EntrySafe Γ pm c ∧ pm' = nodeCall Γ pm c

namespace NodeRestartAux

open BooksAux

variable {Γ : NodeCtx} {pm pm' : ProtocolManager}

structure Mirrored (Γ : NodeCtx) (pm : ProtocolManager) : Prop where
  kept : WellKept Γ pm
  proper : RecordsProper Γ pm
  stored : ∀ r p, pm.myNodes.get r = some p → pm.heap.get p ∈ pm.storedNodes ∧ (pm.heap.get p).status ≠ .deleted
  signed : ∀ r p, pm.myNodes.get r = some p →
    ∃ s, setNodeSignID Γ (pm.heap.get p).nodeID pm.myID = .ok s ∧ pm.myNodeByNodeSignIDs.get s = some p
  present : ∀ node ∈ pm.storedNodes, node.status ≠ .deleted → ∃ p, pm.myNodes.get node.raftID = some p ∧ pm.heap.get p = node
  own : ∃ node ∈ pm.storedNodes, node.nodeID = pm.myNodeID

theorem Mirrored.congr (h : Mirrored Γ pm) (hs : SameBooks pm pm') (hheap : pm'.heap = pm.heap) (hdb : pm'.dbMyNodes = pm.dbMyNodes) :
    Mirrored Γ pm' := by
  have hrecords : pm'.records = pm.records := by rw [records, records, hdb, hs.myID]
  have hnodes : pm'.storedNodes = pm.storedNodes := by
    have hown : pm'.ownRecord = pm.ownRecord := by
      funext e
      rw [ownRecord, ownRecord, hs.myID]
    rw [storedNodes, storedNodes, hrecords, hown]
  refine ⟨h.kept.congr hs, ⟨?_, ?_⟩, ?_, ?_, ?_, ?_⟩
  · rw [hrecords, hs.myID]
    exact h.proper.each
  · rw [hnodes]
    exact h.proper.distinct
  · rw [hs.myNodes, hheap, hnodes]
    exact h.stored
  · rw [hs.myNodes, hheap, hs.myID, hs.signIDs]
    exact h.signed
  · rw [hs.myNodes, hheap, hnodes]
    exact h.present
  · rw [hnodes, hs.myNodeID]
    exact h.own

variable {new : MyNode} {n : NodeID}

theorem storedNodes_put (h : RecordsProper Γ pm) (hmyID : pm'.myID = pm.myID)
    (hdb : pm'.dbMyNodes = pm.dbMyNodes.put (marshalKey new.id new.nodeID) (some new)) (hid : new.id = pm.myID)
    (hr : toRaftID Γ new.nodeID = .ok new.raftID)
    (hclash : ∀ node ∈ pm.storedNodes, toRaftID Γ new.nodeID = .ok node.raftID → node.nodeID = new.nodeID) :
    RecordsProper Γ pm' ∧ ∀ node, node ∈ pm'.storedNodes ↔ node = new ∨ node ∈ pm.storedNodes ∧ node.nodeID ≠ new.nodeID := by
  have heach : ∀ e ∈ pm'.records, ∃ node : MyNode, e = (marshalKey pm'.myID node.nodeID, some node) ∧ node.id = pm'.myID ∧
      toRaftID Γ node.nodeID = .ok node.raftID := by
    rintro ⟨k, v⟩ he
    rw [hmyID]
    rw [mem_records, hdb, hid, hmyID, get_put] at he
    obtain ⟨hget, hpre⟩ := he
    split_ifs at hget with hk
    · exact ⟨new, by rw [hk, Option.some.inj hget], hid, hr⟩
    · exact h.each _ (mem_records.2 ⟨hget, hpre⟩)
  have hmem : ∀ node, pm'.dbMyNodes.get (marshalKey pm'.myID node.nodeID) = some (some node) ↔
      node = new ∨ node ∈ pm.storedNodes ∧ node.nodeID ≠ new.nodeID := by
    intro node
    rw [hdb, hid, hmyID, get_put, mem_storedNodes h]
    by_cases hn : node.nodeID = new.nodeID
    · rw [if_pos (by rw [hn])]
      simp [hn, eq_comm]
    · rw [if_neg fun hk => hn (marshalKey_inj.1 hk)]
      have hne : node ≠ new := fun heq => hn (by rw [heq])
      simp [hn, hne]
  -- membership in the stored nodes needs that the records are proper, which needs their raft identifiers to differ
  have hsub : ∀ node ∈ pm'.storedNodes, node = new ∨ node ∈ pm.storedNodes ∧ node.nodeID ≠ new.nodeID := by
    intro node hnode
    obtain ⟨e, he, hown⟩ := List.mem_filterMap.1 hnode
    obtain ⟨a, rfl, hida, -⟩ := heach e he
    rw [ownRecord, Option.filter_some, if_pos (decide_eq_true hida)] at hown
    obtain rfl := Option.some.inj hown
    exact (hmem a).1 (mem_records.1 he).1
  have hproper : RecordsProper Γ pm' := by
    refine ⟨heach, fun a ha b hb hab => ?_⟩
    rcases hsub a ha with rfl | ⟨ha, -⟩ <;> rcases hsub b hb with rfl | ⟨hb, -⟩
    · rfl
    · exact (hclash b hb (hab ▸ hr)).symm
    · exact hclash a ha (hab ▸ hr)
    · exact h.distinct a ha b hb hab
  exact ⟨hproper, fun node => (mem_storedNodes hproper).trans (hmem node)⟩

theorem Mirrored.ownRaftID (h : Mirrored Γ pm)
    (hclash : ∀ node ∈ pm.storedNodes, toRaftID Γ n = .ok node.raftID → node.nodeID = n) : OwnRaftID Γ pm n := by
  intro r p hr hp
  refine hclash _ (h.stored r p hp).1 ?_
  rw [hr, h.kept.keyed.raftID r p hp]

theorem Mirrored.replace (h : Mirrored Γ pm) {s : PttID} (hs : setNodeSignID Γ n pm.myID = .ok s)
    (hclash : ∀ node ∈ pm.storedNodes, toRaftID Γ n = .ok node.raftID → node.nodeID = n) (hkept : WellKept Γ pm') (hid : new.id = pm.myID)
    (hnodeID : new.nodeID = n) (hr : toRaftID Γ n = .ok new.raftID) (hmyID : pm'.myID = pm.myID) (hmyNodeID : pm'.myNodeID = pm.myNodeID)
    (hdb : pm'.dbMyNodes = pm.dbMyNodes.put (marshalKey new.id new.nodeID) (some new))
    (hnodes : ∀ r', r' ≠ new.raftID → pm'.myNodes.get r' = pm.myNodes.get r' ∧
      ∀ q, pm.myNodes.get r' = some q → pm'.heap.get q = pm.heap.get q)
    (hsigns : ∀ s', s' ≠ s → pm'.myNodeByNodeSignIDs.get s' = pm.myNodeByNodeSignIDs.get s')
    (hnew : ∀ p, pm'.myNodes.get new.raftID = some p →
      pm'.heap.get p = new ∧ new.status ≠ .deleted ∧ pm'.myNodeByNodeSignIDs.get s = some p)
    (hpresent : new.status ≠ .deleted → pm'.myNodes.get new.raftID ≠ none) : Mirrored Γ pm' := by
  obtain ⟨hproper, hmem⟩ := storedNodes_put h.proper hmyID hdb hid (hnodeID ▸ hr) (hnodeID ▸ hclash)
  refine ⟨hkept, hproper, fun r' q hq => ?_, fun r' q hq => ?_, fun node hnode hst => ?_, ?_⟩
  · by_cases hrr : r' = new.raftID
    · obtain ⟨hcell, hst, -⟩ := hnew q (hrr ▸ hq)
      rw [hcell]
      exact ⟨(hmem new).2 (.inl rfl), hst⟩
    · rw [(hnodes r' hrr).1] at hq
      rw [(hnodes r' hrr).2 q hq]
      obtain ⟨hstored, hst⟩ := h.stored r' q hq
      refine ⟨(hmem _).2 (.inr ⟨hstored, fun heq => hrr ?_⟩), hst⟩
      have hnode := h.kept.keyed.nodeID r' q hq
      rw [heq, hnodeID, hr] at hnode
      exact (Except.ok.inj hnode).symm
  · rw [hmyID]
    by_cases hrr : r' = new.raftID
    · obtain ⟨hcell, -, hget⟩ := hnew q (hrr ▸ hq)
      rw [hcell, hnodeID]
      exact ⟨s, hs, hget⟩
    · rw [(hnodes r' hrr).1] at hq
      rw [(hnodes r' hrr).2 q hq]
      obtain ⟨s', hs', hget⟩ := h.signed r' q hq
      refine ⟨s', hs', (hsigns s' ?_).trans hget⟩
      rintro rfl
      have hsame := toRaftID_of_signID hs' hs
      rw [h.kept.keyed.nodeID r' q hq, hr] at hsame
      exact hrr (Except.ok.inj hsame)
  · rcases (hmem node).1 hnode with rfl | ⟨hnode, hne⟩
    · obtain ⟨p, hp⟩ := Option.ne_none_iff_exists'.1 (hpresent hst)
      exact ⟨p, hp, (hnew p hp).1⟩
    · obtain ⟨q, hq, hcell⟩ := h.present node hnode hst
      have hrr : node.raftID ≠ new.raftID := fun heq => hne ((hclash node hnode (heq ▸ hr)).trans hnodeID.symm)
      exact ⟨q, (hnodes _ hrr).1.trans hq, ((hnodes _ hrr).2 q hq).trans hcell⟩
  · obtain ⟨node, hnode, heq⟩ := h.own
    rw [hmyNodeID]
    by_cases hne : node.nodeID = new.nodeID
    · exact ⟨new, (hmem new).2 (.inl rfl), hne.symm.trans heq⟩
    · exact ⟨node, (hmem node).2 (.inr ⟨hnode, hne⟩), heq⟩

theorem Mirrored.add (h : Mirrored Γ pm) {r : UInt64} {w : UInt32} {s : PttID} {p : Nat} {old new : MyNode}
    (heff : AddEffect pm r n w s p old new pm') (hr : toRaftID Γ n = .ok r) (hs : setNodeSignID Γ n pm.myID = .ok s)
    (hclash : ∀ node ∈ pm.storedNodes, toRaftID Γ n = .ok node.raftID → node.nodeID = n)
    (hstatus : new.status = .deleted → pm.myNodes.get r = some p ∧ (pm.heap.get p).status = .deleted) : Mirrored Γ pm' := by
  have hown : ∀ p, pm.myNodes.get r = some p → (pm.heap.get p).nodeID = n := fun p hp => h.ownRaftID hclash r p hr hp
  obtain rfl : new.raftID = r := raftID_new heff h.kept.keyed
  have hid : new.id = pm.myID := by
    rw [heff.id]
    rcases heff.found with ⟨hp, rfl⟩ | ⟨-, -, -, -, -, hid⟩
    · exact (storedNode_of_mem h.proper (h.stored _ p hp).1).id
    · exact hid
  have hmine : pm'.myNodes.get new.raftID = some p := by rw [heff.myNodes, get_put, if_pos rfl]
  refine h.replace hs hclash (h.kept.add heff hr hs hown) hid (nodeID_new heff hown) hr heff.myID heff.myNodeID heff.db (fun r' hrr => ?_)
    (fun s' hss => ?_) (fun q hq => ?_) fun _ => by simp [hmine]
  · exact ⟨by rw [heff.myNodes, get_put, if_neg hrr], fun q hq => (other_record heff h.kept.keyed hrr hq).2⟩
  · rw [heff.signIDs, get_put, if_neg hss]
  · cases hmine.symm.trans hq
    refine ⟨heff.cell, fun hdel => ?_, by rw [heff.signIDs, get_put, if_pos rfl]⟩
    obtain ⟨hp, hdel⟩ := hstatus hdel
    exact (h.stored _ p hp).2 hdel

theorem Mirrored.remove (h : Mirrored Γ pm) {r : UInt64} {s : PttID} {p : Nat}
    (heff : RemoveEffect pm r s p new pm') (hr : toRaftID Γ n = .ok r) (hs : setNodeSignID Γ n pm.myID = .ok s)
    (hclash : ∀ node ∈ pm.storedNodes, toRaftID Γ n = .ok node.raftID → node.nodeID = n) : Mirrored Γ pm' := by
  have hown : (pm.heap.get p).nodeID = n := h.ownRaftID hclash r p hr heff.found
  obtain rfl : new.raftID = r := heff.raftID.trans (h.kept.keyed.raftID r p heff.found)
  have hid : new.id = pm.myID := heff.id.trans (storedNode_of_mem h.proper (h.stored _ p heff.found).1).id
  have hgone : pm'.myNodes.get new.raftID = none := by rw [heff.myNodes, get_delete, if_pos rfl]
  refine h.replace hs hclash (h.kept.remove heff hr hs hown) hid (heff.nodeID.trans hown) hr heff.myID heff.myNodeID heff.db
    (fun r' hrr => ?_) (fun s' hss => ?_) (fun q hq => ?_) fun hst => absurd heff.status hst
  · have hget : pm'.myNodes.get r' = pm.myNodes.get r' := by rw [heff.myNodes, get_delete, if_neg hrr]
    exact ⟨hget, fun q hq => (left_record heff h.kept.keyed (hget.trans hq)).2.2⟩
  · rw [heff.signIDs, get_delete, if_neg hss]
  · rw [hgone] at hq
    cases hq

theorem Mirrored.step (h : Mirrored Γ pm) {c : NodeCall} (hsafe : EntrySafe Γ pm c) : Mirrored Γ (nodeCall Γ pm c) := by
  cases c with
  | addNode ans idx cc =>
    obtain ⟨hother, hclash⟩ := hsafe
    rcases publishEntriesAddNode_cases (Γ := Γ) ans idx cc h.kept.keyed.allocated with
      heq | ⟨r, s, p, old, new, mid, hr, hs, heff, hsame, hstatus, hfields⟩
    · rw [nodeCall, heq]
      exact h
    · exact (h.add heff hr hs hclash hstatus).congr hsame (hfields hother).1 (hfields hother).2
  | removeNode ans idx cc =>
    obtain ⟨hother, hclash⟩ := hsafe
    rcases publishEntriesRemoveNode_cases Γ pm ans idx cc with heq | ⟨r, s, p, new, mid, hr, hs, heff, heq⟩
    · rw [nodeCall, heq]
      exact h
    · -- the own node has another raft identifier, since its record is stored
      have hmine : toRaftID Γ pm.myNodeID ≠ .ok r := by
        obtain ⟨node, hnode, hown⟩ := h.own
        intro hr'
        have hraftID := (storedNode_of_mem h.proper hnode).raftID
        rw [hown, hr'] at hraftID
        exact hother ((hclash node hnode (hr.trans hraftID)).symm.trans hown)
      rw [nodeCall, heq, if_neg hmine]
      exact h.remove heff hr hs hclash
  | approveJoinMe ts peerID => exact hsafe.elim

theorem mirrored_load {new : ProtocolManager} (hproper : RecordsProper Γ new) (halive : ∀ node ∈ new.storedNodes, node.status ≠ .deleted)
    (hload : loadMyNodes Γ new.fresh = .ok pm) : Mirrored Γ pm := by
  have hown : ∃ node ∈ new.storedNodes, node.nodeID = new.myNodeID := by
    rw [loadMyNodes] at hload
    split_ifs at hload with hany
    obtain ⟨node, hnode, heq⟩ := List.any_eq_true.1 hany
    exact ⟨node, hnode, of_decide_eq_true heq⟩
  obtain ⟨pm', hload', hl, hdb⟩ := loadMyNodes_eq hproper hown
  obtain rfl : pm = pm' := Except.ok.inj (hload.symm.trans hload')
  have hmyID : pm.myID = new.myID := hl.myID
  have hrecords : pm.records = new.records := by rw [records, records, hdb, hmyID]
  have hnodes : pm.storedNodes = new.storedNodes := by
    have hownRecord : pm.ownRecord = new.ownRecord := by
      funext e
      rw [ownRecord, ownRecord, hmyID]
    rw [storedNodes, storedNodes, hrecords, hownRecord]
  have honly : ∀ r p, pm.myNodes.get r = some p → pm.heap.get p ∈ new.storedNodes ∧
      ∃ s, setNodeSignID Γ (pm.heap.get p).nodeID new.myID = .ok s ∧ pm.myNodeByNodeSignIDs.get s = some p := by
    intro r p hp
    rcases hl.only r p hp with hnone | ⟨node, hnode, rfl⟩
    · rw [fresh, get_empty] at hnone
      cases hnone
    · obtain ⟨q, s, hq, hcell, hs, hget⟩ := hl.loaded node hnode
      cases hp.symm.trans hq
      rw [hcell]
      exact ⟨hnode, s, hs, hget⟩
  refine ⟨hl.kept, ⟨?_, ?_⟩, fun r p hp => ?_, fun r p hp => ?_, fun node hnode _ => ?_, ?_⟩
  · rw [hrecords, hmyID]
    exact hproper.each
  · rw [hnodes]
    exact hproper.distinct
  · rw [hnodes]
    exact ⟨(honly r p hp).1, halive _ (honly r p hp).1⟩
  · rw [hmyID]
    exact (honly r p hp).2
  · rw [hnodes] at hnode
    obtain ⟨q, -, hq, hcell, -⟩ := hl.loaded node hnode
    exact ⟨q, hq, hcell⟩
  · rw [hnodes, show pm.myNodeID = new.myNodeID from hl.myNodeID]
    exact hown

theorem weightSum_of_nodeAt (h : ∀ r, pm'.nodeAt r = pm.nodeAt r) : pm'.weightSum = pm.weightSum := by
  have hsum : ∀ q : ProtocolManager, q.weightSum =
      ((q.myNodes.entries.map fun e => (e.1, ((q.heap.get e.2).nodeID, (q.heap.get e.2).weight))).map fun e => e.2.2.toNat).sum := by
    intro q
    rw [weightSum, KeyStore.sumOn, List.map_map]
    rfl
  have hsorted : ∀ q : ProtocolManager, (q.myNodes.entries.map fun e =>
      (e.1, ((q.heap.get e.2).nodeID, (q.heap.get e.2).weight))).Pairwise (fun a b => a.1 < b.1) :=
    fun q => List.pairwise_map.2 q.myNodes.sorted
  have hmem : ∀ (q : ProtocolManager) (e : UInt64 × NodeID × UInt32), e ∈ (q.myNodes.entries.map fun e =>
      (e.1, ((q.heap.get e.2).nodeID, (q.heap.get e.2).weight))) ↔ q.nodeAt e.1 = some e.2 := by
    rintro q ⟨r, v⟩
    rw [List.mem_map, nodeAt, Option.map_eq_some_iff]
    constructor
    · rintro ⟨⟨r', p⟩, he, heq⟩
      cases heq
      exact ⟨p, get_eq_some_iff.2 he, rfl⟩
    · rintro ⟨p, hp, hv⟩
      exact ⟨(r, p), get_eq_some_iff.1 hp, by rw [hv]⟩
  rw [hsum, hsum, entries_eq_of_mem_iff (hsorted pm') (hsorted pm) fun e => by rw [hmem, hmem, h]]

theorem restartFaithful_of_mirrored (h : Mirrored Γ pm) : RestartFaithful Γ pm ↔ ∀ node ∈ pm.storedNodes, node.status ≠ .deleted := by
  obtain ⟨pm', hload, hl, -⟩ := loadMyNodes_eq h.proper h.own
  constructor
  · rintro ⟨pm'', hload', hsame⟩ node hnode hdel
    obtain rfl : pm' = pm'' := Except.ok.inj (hload.symm.trans hload')
    -- the record that was loaded is that of a node in memory, which has another record
    obtain ⟨q, -, hq, hcell, -⟩ := hl.loaded node hnode
    have hview := hsame.nodes node.raftID
    rw [nodeAt, nodeAt, hq, Option.map_some, hcell] at hview
    obtain ⟨p, hp, hpair⟩ := Option.map_eq_some_iff.1 hview.symm
    obtain ⟨hstored, hst⟩ := h.stored _ p hp
    have hget := (mem_storedNodes h.proper).1 hstored
    rw [show (pm.heap.get p).nodeID = node.nodeID from congrArg Prod.fst hpair, (mem_storedNodes h.proper).1 hnode] at hget
    rw [← Option.some.inj (Option.some.inj hget)] at hst
    exact hst hdel
  · intro halive
    have hone : ∀ r p, pm.myNodes.get r = some p → ∃ q s, pm'.myNodes.get r = some q ∧ pm'.heap.get q = pm.heap.get p ∧
        setNodeSignID Γ (pm.heap.get p).nodeID pm.myID = .ok s ∧ pm'.myNodeByNodeSignIDs.get s = some q := by
      intro r p hp
      obtain ⟨q, s, hq, hcell, hs, hget⟩ := hl.loaded _ (h.stored r p hp).1
      rw [h.kept.keyed.raftID r p hp] at hq
      exact ⟨q, s, hq, hcell, hs, hget⟩
    have hback : ∀ r q, pm'.myNodes.get r = some q → ∃ p, pm.myNodes.get r = some p := by
      intro r q hq
      rcases hl.only r q hq with hnone | ⟨node, hnode, rfl⟩
      · rw [fresh, get_empty] at hnone
        cases hnone
      · obtain ⟨p, hp, -⟩ := h.present node hnode (halive node hnode)
        exact ⟨p, hp⟩
    have hnodes : ∀ r, pm'.nodeAt r = pm.nodeAt r := by
      intro r
      rw [nodeAt, nodeAt]
      cases hp : pm.myNodes.get r with
      | some p =>
        obtain ⟨q, -, hq, hcell, -⟩ := hone r p hp
        rw [hq, Option.map_some, Option.map_some, hcell]
      | none =>
        cases hq : pm'.myNodes.get r with
        | none => rfl
        | some q =>
          obtain ⟨p, hp'⟩ := hback r q hq
          rw [hp] at hp'
          cases hp'
    refine ⟨pm', hload, hnodes, fun id => ?_, ?_⟩
    · rw [signerAt, signerAt]
      cases hp : pm.myNodeByNodeSignIDs.get id with
      | some p =>
        obtain ⟨q, s, -, hcell, hs, hget⟩ := hone _ p (h.kept.books.signed id p hp)
        rw [h.kept.keyed.signID id p hp] at hs
        rw [Except.ok.inj hs, hget, Option.map_some, Option.map_some, hcell]
      | none =>
        cases hq : pm'.myNodeByNodeSignIDs.get id with
        | none => rfl
        | some q =>
          have hq' := hl.kept.books.signed id q hq
          obtain ⟨p, hp'⟩ := hback _ q hq'
          obtain ⟨q', s, hq'', hcell, hs, -⟩ := hone _ p hp'
          cases hq'.symm.trans hq''
          obtain ⟨s', hs', hget⟩ := h.signed _ p hp'
          have hid := hl.kept.keyed.signID id q hq
          rw [hcell, show pm'.myID = pm.myID from hl.myID, hs'] at hid
          rw [Except.ok.inj hid, hp] at hget
          cases hget
    · rw [hl.kept.books.total, h.kept.books.total, weightSum_of_nodeAt hnodes]

end NodeRestartAux

open NodeRestartAux in
/-- After any entries about other nodes, a manager that is created anew has the same nodes if and only if no stored record is marked as
deleted. -/
theorem restartFaithful_iff_storedNodes {Γ : NodeCtx} {new pm₀ pm : ProtocolManager} {calls : List NodeCall}
    (hproper : RecordsProper Γ new) (halive : ∀ node ∈ new.storedNodes, node.status ≠ .deleted)
    (hload : loadMyNodes Γ new.fresh = .ok pm₀) (hrun : Run (EntryStep Γ) pm₀ calls pm) :
    RestartFaithful Γ pm ↔ ∀ node ∈ pm.storedNodes, node.status ≠ .deleted := by
  refine restartFaithful_of_mirrored (hrun.invariant (I := Mirrored Γ) (mirrored_load hproper halive hload) ?_)
  rintro t c u h ⟨hsafe, rfl⟩
  exact h.step hsafe

end ProtocolManager

namespace NodeRestartWitness

open ProtocolManager WeightsWitness

def added : ProtocolManager := nodeCall nodeCtx created (.addNode answers 9 (entryFor 2 3))

def removed : ProtocolManager := nodeCall nodeCtx added (.removeNode answers 10 (entryFor 2 0))

def addedAgain : ProtocolManager := nodeCall nodeCtx removed (.addNode answers 11 (entryFor 2 5))

def restarted : ProtocolManager := (loadMyNodes nodeCtx removed.fresh).toOption.getD removed

end NodeRestartWitness

open ProtocolManager WeightsWitness NodeRestartWitness in
/-- A node that is added, removed and added again is there after a restart. -/
theorem restartFaithful_iff_storedNodes_addedAgain : Run (EntryStep nodeCtx) created
    [.addNode answers 9 (entryFor 2 3), .removeNode answers 10 (entryFor 2 0), .addNode answers 11 (entryFor 2 5)] addedAgain ∧
    RestartFaithful nodeCtx addedAgain := by
  have hadd : EntrySafe nodeCtx created (.addNode answers 9 (entryFor 2 3)) := ⟨by decide +kernel, by decide +kernel⟩
  have hremove : EntrySafe nodeCtx added (.removeNode answers 10 (entryFor 2 0)) := ⟨by decide +kernel, by decide +kernel⟩
  have hagain : EntrySafe nodeCtx removed (.addNode answers 11 (entryFor 2 5)) := ⟨by decide +kernel, by decide +kernel⟩
  have hrun : Run (EntryStep nodeCtx) created
      [.addNode answers 9 (entryFor 2 3), .removeNode answers 10 (entryFor 2 0), .addNode answers 11 (entryFor 2 5)] addedAgain :=
    ((Run.single ⟨hadd, rfl⟩).snoc ⟨hremove, rfl⟩).snoc ⟨hagain, rfl⟩
  refine ⟨hrun, (restartFaithful_iff_storedNodes proper_stored (by decide +kernel) load_stored hrun).2 (by decide +kernel)⟩

open ProtocolManager WeightsWitness NodeRestartWitness in
/-- A node that was removed is back after a restart, and signs with its weight. -/
theorem removed_node_returns : removed = [NodeCall.addNode answers 9 (entryFor 2 3), .removeNode answers 10 (entryFor 2 0)].foldl
      (nodeCall nodeCtx) created ∧
    removed.nodeAt (entryFor 2 0).nodeID = none ∧ restarted.nodeAt (entryFor 2 0).nodeID = some (nodeOf 2, 3) ∧
    removed.totalWeight = 1 ∧ restarted.totalWeight = 4 ∧ removed.quorum = 1 ∧ restarted.quorum = 3 ∧
    ¬ RestartFaithful nodeCtx removed := by
  have hload : loadMyNodes nodeCtx removed.fresh = .ok restarted := by
    rw [restarted]
    cases hres : loadMyNodes nodeCtx removed.fresh with
    | ok pm => rfl
    | error e =>
      have hsome : (loadMyNodes nodeCtx removed.fresh).toOption.isSome = true := by decide +kernel
      rw [hres] at hsome
      cases hsome
  have hgone : removed.nodeAt (entryFor 2 0).nodeID = none := by decide +kernel
  have hback : restarted.nodeAt (entryFor 2 0).nodeID = some (nodeOf 2, 3) := by decide +kernel
  refine ⟨rfl, hgone, hback, by decide +kernel, by decide +kernel, by decide +kernel, by decide +kernel, ?_⟩
  rintro ⟨pm', hload', hsame⟩
  obtain rfl : restarted = pm' := Except.ok.inj (hload.symm.trans hload')
  have hview := hsame.nodes (entryFor 2 0).nodeID
  rw [hgone, hback] at hview
  cases hview

end Me

end PttaiCore
