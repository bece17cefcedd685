import PttaiCore.Lemmas.NodeBooks
import PttaiCore.Theorems.Signing

/-! # The weights of the nodes -/

namespace PttaiCore

namespace Me

namespace ProtocolManager

inductive NodeCall where
  | addNode (ans : Answers) (idx : UInt64) (cc : ConfChange)
  | removeNode (ans : Answers) (idx : UInt64) (cc : ConfChange)
  | approveJoinMe (ts : Timestamp) (peerID : NodeID)

def nodeCall (Γ : NodeCtx) (pm : ProtocolManager) : NodeCall → ProtocolManager
  | .addNode ans idx cc => (publishEntriesAddNode Γ pm ans idx cc).2
  | .removeNode ans idx cc => (publishEntriesRemoveNode Γ pm ans idx cc).2
  | .approveJoinMe ts peerID => (pm.approveJoinMe Γ ts peerID).2

def OwnRaftID (Γ : NodeCtx) (pm : ProtocolManager) (n : NodeID) : Prop :=
  ∀ r p, toRaftID Γ n = .ok r → pm.myNodes.get r = some p → (pm.heap.get p).nodeID = n

def CallSafe (Γ : NodeCtx) (pm : ProtocolManager) : NodeCall → Prop
  | .addNode _ _ cc => OwnRaftID Γ pm cc.ctxNodeID
  | .removeNode _ _ cc => OwnRaftID Γ pm cc.ctxNodeID ∧
      (toRaftID Γ cc.ctxNodeID = toRaftID Γ pm.myNodeID →
        ∀ r p, pm.myNodes.get r = some p → toRaftID Γ cc.ctxNodeID ≠ .ok r → (pm.heap.get p).weight = 0)
  | .approveJoinMe _ peerID => ∀ id p, pm.myNodeByNodeSignIDs.get id = some p → toRaftID Γ peerID ≠ .ok (pm.heap.get p).raftID

def NodeStep (Γ : NodeCtx) (pm : ProtocolManager) (c : NodeCall) (pm' : ProtocolManager) : Prop :=
  CallSafe Γ pm c ∧ pm' = nodeCall Γ pm c

namespace WeightsAux

open BooksAux

variable {Γ : NodeCtx} {pm : ProtocolManager}

theorem kept_step (hk : WellKept Γ pm) {c : NodeCall} (hsafe : CallSafe Γ pm c) : WellKept Γ (nodeCall Γ pm c) := by
  cases c with
  | addNode ans idx cc =>
    rcases publishEntriesAddNode_cases (Γ := Γ) ans idx cc hk.keyed.allocated with heq | ⟨r, s, p, old, new, mid, hr, hs, heff, hsame, -, -⟩
    · rw [nodeCall, heq]
      exact hk
    · exact (hk.add heff hr hs fun p hp => hsafe r p hr hp).congr hsame
  | removeNode ans idx cc =>
    obtain ⟨hown, hothers⟩ := hsafe
    rcases publishEntriesRemoveNode_cases Γ pm ans idx cc with heq | ⟨r, s, p, new, mid, hr, hs, heff, heq⟩
    · rw [nodeCall, heq]
      exact hk
    · have hmid := hk.remove heff hr hs (hown r p hr heff.found)
      rw [nodeCall, heq]
      split_ifs with hmine
      · refine hmid.handleRevokeMyNode ?_
        rw [weightSum_remove heff hk.keyed, KeyStore.sumOn]
        refine List.sum_eq_zero fun w hw => ?_
        obtain ⟨e, he, rfl⟩ := List.mem_map.1 hw
        have hget := KeyStore.get_eq_some_iff.2 he
        rw [KeyStore.get_delete] at hget
        split_ifs at hget with hrr
        rw [hothers (hr.trans hmine.symm) e.1 e.2 hget (by rw [hr]; exact fun h => hrr (Except.ok.inj h).symm)]
        rfl
      · exact hmid
  | approveJoinMe ts peerID => exact hk.approve hsafe

end WeightsAux

open WeightsAux BooksAux in
/-- In every run of safe calls, from right books on, the books are right. -/
theorem bookkept_of_run {Γ : NodeCtx} {pm₀ pm : ProtocolManager} {calls : List NodeCall} (hkeyed : Keyed Γ pm₀)
    (hbooks : Bookkept Γ pm₀) (hrun : Run (NodeStep Γ) pm₀ calls pm) : Bookkept Γ pm := by
  refine (hrun.invariant (I := WellKept Γ) ⟨hkeyed, hbooks⟩ ?_).books
  rintro t c u hk ⟨hsafe, rfl⟩
  exact kept_step hk hsafe

end ProtocolManager

namespace WeightsWitness

open ProtocolManager

def nodeCtx : NodeCtx := { SigningWitness.ctx with isOnCurve := fun _ => true }

theorem length_sixtyFour (b : UInt8) : (List.replicate 64 b).length = 64 := List.length_replicate

def nodeOf (b : UInt8) : NodeID := ⟨⟨List.replicate 64 b, length_sixtyFour b⟩⟩

def myID : PttID := SigningWitness.idOf 7

def ownNode : MyNode := { id := myID, createTS := ⟨1, 0⟩, updateTS := ⟨1, 0⟩, status := .alive, nodeName := [], nodeID := nodeOf 1
                          weight := 1, logID := none, raftID := (toRaftID nodeCtx (nodeOf 1)).toOption.getD 0 }

def stored : ProtocolManager where
  myID := myID
  myNodeID := nodeOf 1
  status := .alive
  heap := Heap.empty
  myNodes := KeyStore.empty
  myNodeByNodeSignIDs := KeyStore.empty
  totalWeight := 0
  dbMyNodes := KeyStore.empty.put (marshalKey myID (nodeOf 1)) (some ownNode)
  masterOplogs := KeyStore.empty

def created : ProtocolManager := (loadMyNodes nodeCtx stored).toOption.getD stored

def answers : Answers := ⟨⟨5, 0⟩, [], true, true, true⟩

def entryFor (b : UInt8) (weight : UInt32) : ConfChange :=
  ⟨(toRaftID nodeCtx (nodeOf b)).toOption.getD 0, weight, nodeOf b, myID⟩

def approved : ProtocolManager := nodeCall nodeCtx created (.approveJoinMe ⟨4, 0⟩ (nodeOf 2))

def weighed : ProtocolManager := nodeCall nodeCtx approved (.addNode answers 9 (entryFor 2 3))

def approvedAgain : ProtocolManager := nodeCall nodeCtx weighed (.approveJoinMe ⟨6, 0⟩ (nodeOf 2))

theorem proper_stored : RecordsProper nodeCtx stored := by
  refine ⟨fun e he => ?_, fun a ha b hb _ => ?_⟩
  · have hrecords : stored.records = [(marshalKey stored.myID (nodeOf 1), some ownNode)] := by decide +kernel
    rw [hrecords, List.mem_singleton] at he
    exact ⟨ownNode, he, rfl, by decide +kernel⟩
  · have hnodes : stored.storedNodes = [ownNode] := by decide +kernel
    rw [hnodes, List.mem_singleton] at ha hb
    rw [ha, hb]

theorem loaded_stored : ∃ pm', loadMyNodes nodeCtx stored.fresh = .ok pm' ∧ BooksAux.Loaded nodeCtx stored.fresh stored.storedNodes pm' ∧
    created = pm' := by
  obtain ⟨pm', hload, hloaded, -⟩ := BooksAux.loadMyNodes_eq proper_stored ⟨ownNode, by decide +kernel, rfl⟩
  have hfresh : stored.fresh = stored := rfl
  exact ⟨pm', hload, hloaded, by rw [created, ← hfresh, hload, Except.toOption, Option.getD_some]⟩

theorem load_stored : loadMyNodes nodeCtx stored.fresh = .ok created := by
  obtain ⟨pm', hload, -, heq⟩ := loaded_stored
  rw [heq, hload]

theorem kept_created : Keyed nodeCtx created ∧ Bookkept nodeCtx created := by
  obtain ⟨pm', -, hloaded, heq⟩ := loaded_stored
  rw [heq]
  exact ⟨hloaded.kept.keyed, hloaded.kept.books⟩

end WeightsWitness

open ProtocolManager WeightsWitness in
/-- A node that is approved, and weighed by raft. -/
theorem bookkept_of_run_weighed : Run (NodeStep nodeCtx) created
    [.approveJoinMe ⟨4, 0⟩ (nodeOf 2), .addNode answers 9 (entryFor 2 3)] weighed ∧ Bookkept nodeCtx weighed := by
  have happrove : CallSafe nodeCtx created (.approveJoinMe ⟨4, 0⟩ (nodeOf 2)) := by
    intro id p hp
    have hall : ∀ e ∈ created.myNodeByNodeSignIDs.entries, toRaftID nodeCtx (nodeOf 2) ≠ .ok (created.heap.get e.2).raftID := by
      decide +kernel
    exact hall _ (KeyStore.get_eq_some_iff.1 hp)
  have hadd : CallSafe nodeCtx approved (.addNode answers 9 (entryFor 2 3)) := by
    intro r p hr hp
    have hall : ∀ e ∈ approved.myNodes.entries, toRaftID nodeCtx (entryFor 2 3).ctxNodeID = .ok e.1 →
        (approved.heap.get e.2).nodeID = (entryFor 2 3).ctxNodeID := by decide +kernel
    exact hall (r, p) (KeyStore.get_eq_some_iff.1 hp) hr
  have hrun : Run (NodeStep nodeCtx) created [.approveJoinMe ⟨4, 0⟩ (nodeOf 2), .addNode answers 9 (entryFor 2 3)] weighed :=
    (Run.single ⟨happrove, rfl⟩).snoc ⟨hadd, rfl⟩
  exact ⟨hrun, bookkept_of_run kept_created.1 kept_created.2 hrun⟩

open ProtocolManager WeightsWitness in
/-- Approving a node that is there takes its weight from the nodes, not from the sum. -/
theorem approved_weight_kept : Bookkept nodeCtx created ∧ approvedAgain =
      [NodeCall.approveJoinMe ⟨4, 0⟩ (nodeOf 2), .addNode answers 9 (entryFor 2 3), .approveJoinMe ⟨6, 0⟩ (nodeOf 2)].foldl
        (nodeCall nodeCtx) created ∧
    approvedAgain.totalWeight = 4 ∧ approvedAgain.weightSum = 1 ∧ ¬ Bookkept nodeCtx approvedAgain := by
  have htotal : approvedAgain.totalWeight = 4 := by decide +kernel
  have hsum : approvedAgain.weightSum = 1 := by decide +kernel
  refine ⟨kept_created.2, rfl, htotal, hsum, fun h => ?_⟩
  have heq := h.total
  rw [htotal, hsum] at heq
  exact absurd heq (by decide)

end Me

end PttaiCore
