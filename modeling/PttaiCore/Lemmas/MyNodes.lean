import PttaiCore.MyNodes

/-! # What entries do to the nodes -/

namespace PttaiCore

open Heap KeyStore

namespace Me

namespace ProtocolManager

variable {Γ : NodeCtx} {pm pm' : ProtocolManager}

/-! ## Identifiers -/

theorem toRaftID_of_signID {n m : NodeID} {myID id : PttID} (hn : setNodeSignID Γ n myID = .ok id)
    (hm : setNodeSignID Γ m myID = .ok id) : toRaftID Γ n = toRaftID Γ m := by
  have haddr : ∀ {k : NodeID}, setNodeSignID Γ k myID = .ok id → ∃ a, pubkeyToAddress Γ k = .ok a ∧ a.1 = id.1.take 20 := by
    intro k hk
    rw [setNodeSignID] at hk
    cases ha : pubkeyToAddress Γ k with
    | error e =>
      rw [ha] at hk
      cases hk
    | ok a =>
      rw [ha] at hk
      cases hk
      exact ⟨a, rfl, (List.take_left' a.2).symm⟩
  obtain ⟨a, ha, hav⟩ := haddr hn
  obtain ⟨b, hb, hbv⟩ := haddr hm
  obtain rfl : a = b := Subtype.ext (hav.trans hbv.symm)
  rw [toRaftID, toRaftID, ha, hb]

theorem exists_signID {n : NodeID} {r : UInt64} (h : toRaftID Γ n = .ok r) (myID : PttID) : ∃ id, setNodeSignID Γ n myID = .ok id := by
  rw [toRaftID] at h
  rw [setNodeSignID]
  cases ha : pubkeyToAddress Γ n with
  | error e =>
    rw [ha] at h
    cases h
  | ok a => exact ⟨_, rfl⟩

theorem newMyNode_eq {ts : Timestamp} {myID : PttID} {n : NodeID} {w : UInt32} {r : UInt64} (h : toRaftID Γ n = .ok r) :
    newMyNode Γ ts myID n w = .ok ⟨myID, ts, ts, .init, [], n, w, none, r⟩ := by
  rw [newMyNode, h]
  rfl

/-! ## Weights -/

def weightSum (pm : ProtocolManager) : Nat := pm.myNodes.sumOn fun _ p => (pm.heap.get p).weight.toNat

theorem addUp_eq (ws : List UInt32) : addUp ws = UInt32.ofNat (ws.map UInt32.toNat).sum := by
  have hfold : ∀ (ws : List UInt32) (a : UInt32), ws.foldl (· + ·) a = a + UInt32.ofNat (ws.map UInt32.toNat).sum := by
    intro ws
    induction ws with
    | nil => intro a; simp
    | cons w ws ih =>
      intro a
      rw [List.foldl_cons, ih, List.map_cons, List.sum_cons, UInt32.ofNat_add, UInt32.ofNat_toNat, UInt32.add_assoc]
  rw [addUp, hfold, UInt32.zero_add]

theorem addUp_nodes (pm : ProtocolManager) : addUp (pm.nodes.map MyNode.weight) = UInt32.ofNat pm.weightSum := by
  rw [addUp_eq, nodes, weightSum, KeyStore.sumOn, List.map_map, List.map_map]
  rfl

/-! ## Adding -/

structure AddEffect (pm : ProtocolManager) (r : UInt64) (n : NodeID) (w : UInt32) (s : PttID) (p : Nat) (old new : MyNode)
    (pm' : ProtocolManager) : Prop where
  found : (pm.myNodes.get r = some p ∧ old = pm.heap.get p) ∨
    (pm.myNodes.get r = none ∧ p = pm.heap.next ∧ old.weight = 0 ∧ old.nodeID = n ∧ old.raftID = r ∧ old.id = pm.myID)
  weight : new.weight = w
  nodeID : new.nodeID = old.nodeID
  raftID : new.raftID = old.raftID
  id : new.id = old.id
  myNodes : pm'.myNodes = pm.myNodes.put r p
  signIDs : pm'.myNodeByNodeSignIDs = pm.myNodeByNodeSignIDs.put s p
  cell : pm'.heap.get p = new
  frame : ∀ q, q < pm.heap.next → q ≠ p → pm'.heap.get q = pm.heap.get q
  next : pm.heap.next ≤ pm'.heap.next
  lt_next : p < pm'.heap.next
  total : pm'.totalWeight = pm.totalWeight + (w - old.weight)
  db : pm'.dbMyNodes = pm.dbMyNodes.put (marshalKey new.id new.nodeID) (some new)
  myID : pm'.myID = pm.myID
  myNodeID : pm'.myNodeID = pm.myNodeID

theorem status_added {node : MyNode} {ts : Timestamp} {w : UInt32} {id : PttID} (h : (added node ts w id).status = .deleted) :
    node.status = .deleted := by
  rw [added] at h
  split_ifs at h with hinit
  exact h

theorem setMyNode_cases (ts : Timestamp) (w : UInt32) (idx : UInt64) (fromID : PttID) {r : UInt64} {n : NodeID}
    (hr : toRaftID Γ n = .ok r) (halloc : ∀ p, pm.myNodes.get r = some p → p < pm.heap.next) :
    publishEntriesAddNodeCreateMasterOplogAndSetMyNode Γ pm ts r n w idx fromID = (.error .oplogAlreadyExists, pm) ∨
    ∃ oplog s p old new pm', setNodeSignID Γ n pm.myID = .ok s ∧ AddEffect pm r n w s p old new pm' ∧
      (new.status = .deleted → pm.myNodes.get r = some p ∧ (pm.heap.get p).status = .deleted) ∧
      publishEntriesAddNodeCreateMasterOplogAndSetMyNode Γ pm ts r n w idx fromID = (.ok oplog, pm') := by
  obtain ⟨s, hsign⟩ := exists_signID hr pm.myID
  rw [publishEntriesAddNodeCreateMasterOplogAndSetMyNode]
  cases hget : pm.masterOplogs.get (raftIdxToMasterOplogID idx pm.myID) with
  | some o => exact .inl rfl
  | none =>
    refine .inr ?_
    cases hnode : pm.myNodes.get r with
    | some p =>
      rw [nodeOrNew, hnode]
      dsimp only
      rw [hsign]
      have hput : pm.myNodes = pm.myNodes.put r p := by
        refine ext_get fun k => ?_
        rw [get_put]
        split_ifs with hk
        · rw [hk, hnode]
        · rfl
      refine ⟨_, s, p, pm.heap.get p, added (pm.heap.get p) ts w (raftIdxToMasterOplogID idx pm.myID), _, rfl, ?_, fun hst => ⟨rfl, status_added hst⟩, rfl⟩
      exact ⟨.inl ⟨hnode, rfl⟩, rfl, rfl, rfl, rfl, hput, rfl,
        get_set_self (halloc p hnode), fun q _ hne => get_set_of_ne hne, (next_set _ _ _).ge,
        (halloc p hnode).trans_eq (next_set _ _ _).symm, rfl, rfl, rfl, rfl⟩
    | none =>
      rw [nodeOrNew, hnode, newMyNode_eq hr]
      dsimp only [bind, Except.bind]
      rw [hsign, get_alloc_next]
      let created : MyNode := ⟨pm.myID, ts, ts, .internalPending, [], n, 0, none, r⟩
      refine ⟨_, s, pm.heap.next, created, added created ts w (raftIdxToMasterOplogID idx pm.myID), _, rfl, ?_,
        fun hst => Status.noConfusion (status_added hst), rfl⟩
      refine ⟨.inr ⟨hnode, rfl, rfl, rfl, rfl, rfl⟩, rfl, rfl, rfl, rfl, rfl, rfl,
        ?_, ?_, ?_, ?_, rfl, rfl, rfl, rfl⟩
      · exact get_set_self (by rw [next_alloc]; exact Nat.lt_succ_self _)
      · intro q hq hne
        exact (get_set_of_ne hne).trans (get_alloc_of_lt hq)
      · exact (Nat.le_succ _).trans_eq ((next_set _ _ _).trans (next_alloc _ _)).symm
      · exact (Nat.lt_succ_self _).trans_eq ((next_set _ _ _).trans (next_alloc _ _)).symm

structure SameBooks (pm pm' : ProtocolManager) : Prop where
  myNodes : pm'.myNodes = pm.myNodes
  signIDs : pm'.myNodeByNodeSignIDs = pm.myNodeByNodeSignIDs
  total : pm'.totalWeight = pm.totalWeight
  next : pm'.heap.next = pm.heap.next
  weight : ∀ q, (pm'.heap.get q).weight = (pm.heap.get q).weight
  nodeID : ∀ q, (pm'.heap.get q).nodeID = (pm.heap.get q).nodeID
  raftID : ∀ q, (pm'.heap.get q).raftID = (pm.heap.get q).raftID
  myID : pm'.myID = pm.myID
  myNodeID : pm'.myNodeID = pm.myNodeID

theorem SameBooks.refl (pm : ProtocolManager) : SameBooks pm pm :=
  ⟨rfl, rfl, rfl, rfl, fun _ => rfl, fun _ => rfl, fun _ => rfl, rfl, rfl⟩

theorem SameBooks.saveOplog (h : SameBooks pm pm') (oplog : MasterOplog) : SameBooks pm (pm'.saveOplog oplog) := ⟨h.1, h.2, h.3, h.4, h.5,
  h.6, h.7, h.8, h.9⟩

theorem sameBooks_setNode {p : Nat} {node : MyNode} {st : Status} (hw : node.weight = (pm.heap.get p).weight)
    (hn : node.nodeID = (pm.heap.get p).nodeID) (hr : node.raftID = (pm.heap.get p).raftID) :
    SameBooks pm ({ pm with status := st }.setNode p node) := by
  have hcell : ∀ q, (pm.heap.set p node).get q = pm.heap.get q ∨ q = p ∧ (pm.heap.set p node).get q = node := by
    intro q
    by_cases hq : q = p
    · subst hq
      rcases lt_or_ge q pm.heap.next with hlt | hge
      · exact .inr ⟨rfl, get_set_self hlt⟩
      · exact .inl (by rw [Heap.set, List.set_eq_of_length_le hge])
    · exact .inl (get_set_of_ne hq)
  refine ⟨rfl, rfl, rfl, next_set _ _ _, fun q => ?_, fun q => ?_, fun q => ?_, rfl, rfl⟩ <;>
    rcases hcell q with h | ⟨rfl, h⟩
  · exact congrArg MyNode.weight h
  · exact (congrArg MyNode.weight h).trans hw
  · exact congrArg MyNode.nodeID h
  · exact (congrArg MyNode.nodeID h).trans hn
  · exact congrArg MyNode.raftID h
  · exact (congrArg MyNode.raftID h).trans hr

theorem sameBooks_createMeOrAddDial (pm : ProtocolManager) (ans : Answers) (oplog : MasterOplog) (n : NodeID) (r : UInt64) :
    SameBooks pm (pm.createMeOrAddDial ans oplog n r).2 := by
  have hstatus : ∀ st, SameBooks pm { pm with status := st } := fun st =>
    ⟨rfl, rfl, rfl, rfl, fun _ => rfl, fun _ => rfl, fun _ => rfl, rfl, rfl⟩
  rw [createMeOrAddDial]
  split_ifs
  · split
    · rw [createFullMe]
      by_cases hprofile : ans.profile = true
      · rw [if_pos hprofile]
        split
        · exact hstatus _
        · exact sameBooks_setNode rfl rfl rfl
      · rw [if_neg hprofile]
        exact SameBooks.refl pm
    · rw [internalSyncToAlive]
      split
      · exact hstatus _
      · exact sameBooks_setNode rfl rfl rfl
    · exact SameBooks.refl pm
  · exact SameBooks.refl pm
  · exact SameBooks.refl pm

theorem publishEntriesAddNode_cases (ans : Answers) (idx : UInt64) (cc : ConfChange)
    (halloc : ∀ r p, pm.myNodes.get r = some p → p < pm.heap.next) :
    (publishEntriesAddNode Γ pm ans idx cc).2 = pm ∨
    ∃ r s p old new mid, toRaftID Γ cc.ctxNodeID = .ok r ∧ setNodeSignID Γ cc.ctxNodeID pm.myID = .ok s ∧
      AddEffect pm r cc.ctxNodeID cc.weight s p old new mid ∧ SameBooks mid (publishEntriesAddNode Γ pm ans idx cc).2 ∧
      (new.status = .deleted → pm.myNodes.get r = some p ∧ (pm.heap.get p).status = .deleted) ∧
      (cc.ctxNodeID ≠ pm.myNodeID → (publishEntriesAddNode Γ pm ans idx cc).2.heap = mid.heap ∧
        (publishEntriesAddNode Γ pm ans idx cc).2.dbMyNodes = mid.dbMyNodes) := by
  rw [publishEntriesAddNode]
  cases hr : toRaftID Γ cc.ctxNodeID with
  | error e => exact .inl rfl
  | ok r =>
    dsimp only
    by_cases hne : r ≠ cc.nodeID
    · rw [if_pos hne]
      exact .inl rfl
    rw [if_neg hne]
    rcases setMyNode_cases ans.ts cc.weight idx cc.ctxFromID hr (halloc r) with
      heq | ⟨oplog, s, p, old, new, mid, hs, heff, hst, heq⟩
    · rw [heq]
      exact .inl rfl
    rw [heq]
    dsimp only
    have hsame := sameBooks_createMeOrAddDial mid ans oplog cc.ctxNodeID r
    have hother : cc.ctxNodeID ≠ pm.myNodeID → (mid.createMeOrAddDial ans oplog cc.ctxNodeID r).2 = mid := by
      intro hown
      rw [createMeOrAddDial, if_neg (by rw [heff.myNodeID]; exact hown)]
    refine .inr ⟨r, s, p, old, new, mid, rfl, hs, heff, ?_⟩
    rcases hrest : mid.createMeOrAddDial ans oplog cc.ctxNodeID r with ⟨res, pm'⟩
    rw [hrest] at hsame hother
    have hfields : cc.ctxNodeID ≠ pm.myNodeID → pm'.heap = mid.heap ∧ pm'.dbMyNodes = mid.dbMyNodes := by
      intro hown
      obtain rfl : pm' = mid := hother hown
      exact ⟨rfl, rfl⟩
    cases res with
    | error e => exact ⟨hsame, hst, hfields⟩
    | ok u => exact ⟨hsame.saveOplog oplog, hst, hfields⟩

/-! ## Removing -/

structure RemoveEffect (pm : ProtocolManager) (r : UInt64) (s : PttID) (p : Nat) (new : MyNode) (pm' : ProtocolManager) : Prop where
  found : pm.myNodes.get r = some p
  status : new.status = .deleted
  nodeID : new.nodeID = (pm.heap.get p).nodeID
  raftID : new.raftID = (pm.heap.get p).raftID
  id : new.id = (pm.heap.get p).id
  myNodes : pm'.myNodes = pm.myNodes.delete r
  signIDs : pm'.myNodeByNodeSignIDs = pm.myNodeByNodeSignIDs.delete s
  heap : pm'.heap = pm.heap.set p new
  total : pm'.totalWeight = UInt32.ofNat ((pm.myNodes.delete r).sumOn fun _ q => (pm.heap.get q).weight.toNat)
  db : pm'.dbMyNodes = pm.dbMyNodes.put (marshalKey new.id new.nodeID) (some new)
  myID : pm'.myID = pm.myID
  myNodeID : pm'.myNodeID = pm.myNodeID

theorem publishEntriesRemoveNode_cases (Γ : NodeCtx) (pm : ProtocolManager) (ans : Answers) (idx : UInt64) (cc : ConfChange) :
    (publishEntriesRemoveNode Γ pm ans idx cc).2 = pm ∨
    ∃ r s p new mid, toRaftID Γ cc.ctxNodeID = .ok r ∧ setNodeSignID Γ cc.ctxNodeID pm.myID = .ok s ∧ RemoveEffect pm r s p new mid ∧
      (publishEntriesRemoveNode Γ pm ans idx cc).2 = if toRaftID Γ pm.myNodeID = .ok r then handleRevokeMyNode Γ mid else mid := by
  rw [publishEntriesRemoveNode]
  cases hr : toRaftID Γ cc.ctxNodeID with
  | error e => exact .inl rfl
  | ok r =>
    obtain ⟨s, hs⟩ := exists_signID hr pm.myID
    dsimp only
    by_cases hne : r ≠ cc.nodeID
    · rw [if_pos hne]
      exact .inl rfl
    rw [if_neg hne, publishEntriesRemoveNodeDealWithMyNodes]
    cases hget : pm.masterOplogs.get (raftIdxToMasterOplogID idx pm.myID) with
    | some o => exact .inl rfl
    | none =>
      cases hnode : pm.myNodes.get r with
      | none => exact .inl rfl
      | some p =>
        rw [hs]
        refine .inr ⟨r, s, p, { pm.heap.get p with
          status := .deleted, logID := some (raftIdxToMasterOplogID idx pm.myID) }, _, rfl, rfl, ?_, rfl⟩
        exact ⟨hnode, rfl, rfl, rfl, rfl, rfl, rfl, rfl,
          addUp_nodes { pm with myNodes := pm.myNodes.delete r, myNodeByNodeSignIDs := pm.myNodeByNodeSignIDs.delete s }, rfl, rfl, rfl⟩

structure Cleaned (Γ : NodeCtx) (pm : ProtocolManager) (es : List (UInt64 × Nat)) (pm' : ProtocolManager) : Prop where
  heap : pm'.heap = pm.heap
  total : pm'.totalWeight = pm.totalWeight
  myID : pm'.myID = pm.myID
  myNodes : pm'.myNodes = pm.myNodes.deleteAll (es.map Prod.fst)
  signIDs : ∀ id q, pm'.myNodeByNodeSignIDs.get id = some q →
    pm.myNodeByNodeSignIDs.get id = some q ∧ ∀ e ∈ es, setNodeSignID Γ (pm.heap.get e.2).nodeID pm.myID ≠ .ok id

theorem cleaned_foldl (es : List (UInt64 × Nat)) (pm : ProtocolManager) : Cleaned Γ pm es (es.foldl (cleanNode Γ) pm) := by
  induction es generalizing pm with
  | nil => exact ⟨rfl, rfl, rfl, rfl, fun id q h => ⟨h, fun e he => absurd he List.not_mem_nil⟩⟩
  | cons e es ih =>
    have hone : ∀ id q, (cleanNode Γ pm e).myNodeByNodeSignIDs.get id = some q →
        pm.myNodeByNodeSignIDs.get id = some q ∧ setNodeSignID Γ (pm.heap.get e.2).nodeID pm.myID ≠ .ok id := by
      intro id q h
      rw [cleanNode] at h
      cases hs : setNodeSignID Γ (pm.heap.get e.2).nodeID pm.myID with
      | error err =>
        rw [hs] at h
        exact ⟨h, by simp⟩
      | ok s =>
        rw [hs] at h
        rw [get_delete] at h
        split_ifs at h with hid
        exact ⟨h, fun heq => hid (Except.ok.inj heq).symm⟩
    have hrest := ih (cleanNode Γ pm e)
    refine ⟨hrest.heap, hrest.total, hrest.myID, hrest.myNodes, fun id q h => ?_⟩
    obtain ⟨hmid, hes⟩ := hrest.signIDs id q h
    obtain ⟨hpm, he⟩ := hone id q hmid
    refine ⟨hpm, fun e' he' => ?_⟩
    rcases List.mem_cons.1 he' with rfl | he'
    · exact he
    · exact hes e' he'

/-! ## Loading -/

theorem loadNode_effect {node : MyNode} (hr : toRaftID Γ node.nodeID = .ok node.raftID) (hid : node.id = pm.myID)
    (hnew : pm.myNodes.get node.raftID = none) (hdb : pm.dbMyNodes.get (marshalKey node.id node.nodeID) = some (some node)) :
    ∃ s, setNodeSignID Γ node.nodeID pm.myID = .ok s ∧
      AddEffect pm node.raftID node.nodeID node.weight s pm.heap.next { node with weight := 0 } node (loadNode Γ pm node) := by
  obtain ⟨s, hs⟩ := exists_signID hr pm.myID
  have hput : pm.dbMyNodes = pm.dbMyNodes.put (marshalKey node.id node.nodeID) (some node) := by
    refine ext_get fun k => ?_
    rw [get_put]
    split_ifs with hk
    · rw [hk, hdb]
    · rfl
  refine ⟨s, hs, ?_⟩
  rw [loadNode, hs]
  exact ⟨.inr ⟨hnew, rfl, rfl, rfl, rfl, hid⟩, rfl, rfl, rfl, rfl, rfl, rfl, get_alloc_next _ _,
    fun q hq _ => get_alloc_of_lt hq, (Nat.le_succ _).trans_eq (next_alloc _ _).symm,
    (Nat.lt_succ_self _).trans_eq (next_alloc _ _).symm, by rw [UInt32.sub_zero], hput, rfl, rfl⟩

end ProtocolManager

end Me

end PttaiCore
