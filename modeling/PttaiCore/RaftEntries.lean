import PttaiCore.MyNodes
import PttaiCore.RaftStorage

/-! # Applying the entries that raft commits -/

namespace PttaiCore

namespace Me

/-! ## Changes of the configuration -/

inductive ConfChangeType where
  | addNode | removeNode | updateNode | addLearnerNode | unexpected
  deriving DecidableEq, Repr

structure RaftConfChange where
  type : ConfChangeType
  nodeID : UInt64
  weight : UInt32
  context : Bytes
  deriving DecidableEq, Repr

def sizeNodeID : Nat := 64

theorem length_context_nodeID {context : Bytes} (h : sizeNodeID ≤ context.length) : (context.take sizeNodeID).length = 64 := by
  rw [List.length_take, Nat.min_eq_left h]
  rfl

theorem length_context_fromID (context : Bytes) : ((context.drop sizeNodeID ++ List.replicate 40 0).take 40).length = 40 := by
  rw [List.length_take, List.length_append, List.length_replicate]
  omega

def RaftConfChange.split (cc : RaftConfChange) : Option ProtocolManager.ConfChange :=
  if h : sizeNodeID ≤ cc.context.length then
    some ⟨cc.nodeID, cc.weight, ⟨⟨cc.context.take sizeNodeID, length_context_nodeID h⟩⟩,
      ⟨(cc.context.drop sizeNodeID ++ List.replicate 40 0).take 40, length_context_fromID cc.context⟩⟩
  else none

/-! ## The loop that serves raft -/

structure RaftService where
  pm : ProtocolManager
  raftAppliedIndex : UInt64
  raftSnapshotIndex : UInt64
  raftConfState : ConfState
  /-- The entries published so far, each as often as it was. -/
  published : List RaftEntry

structure RaftEnv where
  unmarshal : Bytes → RaftConfChange
  answers : RaftService → RaftEntry → ProtocolManager.Answers
  applyConfChange : RaftService → RaftConfChange → ConfState

structure RaftReady where
  snapshot : RaftSnapshot
  committedEntries : List RaftEntry

namespace RaftService

variable (Γ : NodeCtx) (env : RaftEnv) (s : RaftService)

def raftEntriesToApply (ents : List RaftEntry) : List RaftEntry :=
  match ents with
  | [] => []
  | ent :: _ =>
    let firstIdx := ent.index
    let newFirstIdx := s.raftAppliedIndex - firstIdx + 1
    if newFirstIdx.toNat < ents.length then ents.drop newFirstIdx.toNat else []

def setRaftAppliedIndex (idx : UInt64) : RaftService := { s with raftAppliedIndex := idx }

def publishConfChange (ent : RaftEntry) (cc : RaftConfChange) : Option ProtocolManager :=
  match cc.type with
  | .addNode => cc.split.map fun change => (s.pm.publishEntriesAddNode Γ (env.answers s ent) ent.index change).2
  | .removeNode => cc.split.map fun change => (s.pm.publishEntriesRemoveNode Γ (env.answers s ent) ent.index change).2
  | _ => some s.pm

def applyConfChange (cc : RaftConfChange) : Option ConfState :=
  if cc.type = .unexpected ∧ cc.nodeID ≠ 0 then none else some (env.applyConfChange s cc)

def publishRaftEntry (ent : RaftEntry) : Option RaftService :=
  match ent.type with
  | .normal => some { s.setRaftAppliedIndex ent.index with published := s.published ++ [ent] }
  | .confChange => do
    let cc := env.unmarshal ent.data
    let pm ← s.publishConfChange Γ env ent cc
    let raftConfState ← s.applyConfChange env cc
    some { s.setRaftAppliedIndex ent.index with pm, raftConfState, published := s.published ++ [ent] }

def publishRaftEntries (ents : List RaftEntry) : Option RaftService := ents.foldlM (publishRaftEntry Γ env) s

def publishRaftSnapshot (snap : RaftSnapshot) : RaftService :=
  if snap.metadata.index = 0 ∨ snap.metadata.index ≤ s.raftAppliedIndex then s
  else { s with
    raftConfState := snap.metadata.confState
    raftSnapshotIndex := snap.metadata.index
    raftAppliedIndex := snap.metadata.index }

def serveReady (rd : RaftReady) : Option RaftService :=
  let s := s.publishRaftSnapshot rd.snapshot
  s.publishRaftEntries Γ env (s.raftEntriesToApply rd.committedEntries)

def serveReadies (rds : List RaftReady) : Option RaftService := rds.foldlM (serveReady Γ env) s

end RaftService

def serveRaftChannels (Γ : NodeCtx) (env : RaftEnv) (pm : ProtocolManager) (snap : RaftSnapshot) (rds : List RaftReady) :
    Option RaftService :=
  RaftService.serveReadies Γ env ⟨pm, snap.metadata.index, snap.metadata.index, snap.metadata.confState, []⟩ rds

end Me

end PttaiCore
