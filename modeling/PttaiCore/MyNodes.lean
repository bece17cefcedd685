import PttaiCore.Lib.Heap
import PttaiCore.Context
import PttaiCore.OpData

/-! # The nodes of a user -/

namespace PttaiCore

namespace Me

inductive NodeErr where
  | invalidPoint | invalidNodeID | invalidEntry | invalidNode | invalidMe | oplogAlreadyExists | service
  deriving DecidableEq, Repr

/-! ## Identifiers -/

structure NodeCtx extends Ctx where
  isOnCurve : NodeID → Bool

theorem length_take_address (id : PttID) : (id.1.take 20).length = 20 := by simp [id.2]

theorem length_signID (addr : ByteArrayOf 20) (id : PttID) : (addr.1 ++ id.1.take 20).length = 40 := by
  rw [List.length_append, addr.2, length_take_address]

theorem length_masterOplogID (idx : UInt64) (id : PttID) :
    (List.replicate 12 0 ++ Bytes.be 8 idx.toNat ++ id.1.take 20).length = 40 := by
  rw [List.length_append, List.length_append, List.length_replicate, Bytes.be_length, length_take_address]

def pubkeyToAddress (Γ : NodeCtx) (nodeID : NodeID) : Except NodeErr (ByteArrayOf 20) :=
  if Γ.isOnCurve nodeID then .ok (Γ.addr nodeID.bytes.1) else .error .invalidPoint

def toRaftID (Γ : NodeCtx) (nodeID : NodeID) : Except NodeErr UInt64 := do
  let addr ← pubkeyToAddress Γ nodeID
  let id := UInt64.ofNat (Bytes.ofBE ((addr.1.drop 6).take 8))
  if id = 0 then .error .invalidNodeID else .ok id

def setNodeSignID (Γ : NodeCtx) (nodeID : NodeID) (myID : PttID) : Except NodeErr PttID := do
  let addr ← pubkeyToAddress Γ nodeID
  .ok ⟨addr.1 ++ myID.1.take 20, length_signID addr myID⟩

def raftIdxToMasterOplogID (raftIdx : UInt64) (myID : PttID) : PttID :=
  ⟨List.replicate 12 0 ++ Bytes.be 8 raftIdx.toNat ++ myID.1.take 20, length_masterOplogID raftIdx myID⟩

/-! ## Nodes -/

structure MyNode where
  id : PttID
  createTS : Timestamp
  updateTS : Timestamp
  status : Status
  nodeName : Bytes
  nodeID : NodeID
  weight : UInt32
  logID : Option PttID
  raftID : UInt64
  deriving DecidableEq

instance : Inhabited MyNode :=
  ⟨⟨ByteArrayOf.replicate 40 0, .zero, .zero, .invalid, [], ⟨ByteArrayOf.replicate 64 0⟩, 0, none, 0⟩⟩

def newMyNode (Γ : NodeCtx) (ts : Timestamp) (myID : PttID) (nodeID : NodeID) (weight : UInt32) : Except NodeErr MyNode := do
  let raftID ← toRaftID Γ nodeID
  .ok { id := myID, createTS := ts, updateTS := ts, status := .init, nodeName := [], nodeID, weight, logID := none, raftID }

def dbMyNodePrefix : Bytes := [46, 109, 110, 100, 98]

def marshalKey (myID : PttID) (nodeID : NodeID) : Bytes := dbMyNodePrefix ++ myID.1 ++ nodeID.bytes.1

structure MasterOplog where
  id : PttID
  updateTS : Timestamp
  data : OpData

structure ProtocolManager where
  myID : PttID
  myNodeID : NodeID
  /-- The status of the user's entity. -/
  status : Status
  /-- The records of nodes. -/
  heap : Heap MyNode
  /-- By raft identifier. -/
  myNodes : KeyStore UInt64 Nat
  myNodeByNodeSignIDs : KeyStore PttID Nat
  totalWeight : UInt32
  /-- The stored records; one that cannot be decoded is `none`. -/
  dbMyNodes : KeyStore Bytes (Option MyNode)
  masterOplogs : KeyStore PttID MasterOplog

namespace ProtocolManager

def saveNode (pm : ProtocolManager) (node : MyNode) : ProtocolManager :=
  { pm with dbMyNodes := pm.dbMyNodes.put (marshalKey node.id node.nodeID) (some node) }

def setNode (pm : ProtocolManager) (p : Nat) (node : MyNode) : ProtocolManager := { pm with heap := pm.heap.set p node }.saveNode node

def saveOplog (pm : ProtocolManager) (oplog : MasterOplog) : ProtocolManager :=
  { pm with masterOplogs := pm.masterOplogs.put oplog.id oplog }

def nodes (pm : ProtocolManager) : List MyNode := pm.myNodes.entries.map fun e => pm.heap.get e.2

def addUp (weights : List UInt32) : UInt32 := weights.foldl (· + ·) 0

def mastersOf (nodes : List MyNode) : KeyStore (ByteArrayOf 64) UInt32 :=
  nodes.foldl (fun masters node => masters.put node.nodeID.bytes node.weight) KeyStore.empty

/-! ## Signing -/

def quorum (pm : ProtocolManager) : UInt32 := pm.totalWeight / 2 + 1

def signWeight (pm : ProtocolManager) (signers : List PttID) : UInt32 :=
  addUp (signers.filterMap fun id => (pm.myNodeByNodeSignIDs.get id).map fun p => (pm.heap.get p).weight)

def isValidInternalOplog (pm : ProtocolManager) (signers : List PttID) : Bool := decide (pm.quorum ≤ pm.signWeight signers)

/-! ## Entries that raft publishes -/

structure ConfChange where
  nodeID : UInt64
  weight : UInt32
  ctxNodeID : NodeID
  ctxFromID : PttID

structure Answers where
  ts : Timestamp
  hostname : Bytes
  opKey : Bool
  profile : Bool
  userNode : Bool

def nodeOrNew (Γ : NodeCtx) (pm : ProtocolManager) (ts : Timestamp) (raftID : UInt64) (nodeID : NodeID) :
    Except NodeErr (Nat × ProtocolManager) :=
  match pm.myNodes.get raftID with
  | some p => .ok (p, pm)
  | none => do
    let node ← newMyNode Γ ts pm.myID nodeID 0
    .ok (pm.heap.next, { pm with
      heap := pm.heap.alloc { node with status := .internalPending }
      myNodes := pm.myNodes.put raftID pm.heap.next })

def added (node : MyNode) (ts : Timestamp) (weight : UInt32) (logID : PttID) : MyNode :=
  { node with status := if node.status = .init then .internalPending else node.status, weight, updateTS := ts, logID := some logID }

def publishEntriesAddNodeCreateMasterOplogAndSetMyNode (Γ : NodeCtx) (pm : ProtocolManager) (ts : Timestamp) (raftID : UInt64)
    (nodeID : NodeID) (weight : UInt32) (idx : UInt64) (fromID : PttID) : Except NodeErr MasterOplog × ProtocolManager :=
  let id := raftIdxToMasterOplogID idx pm.myID
  match pm.masterOplogs.get id with
  | some _ => (.error .oplogAlreadyExists, pm)
  | none =>
    let masters := (mastersOf (pm.nodes.filter fun node => node.weight != 0)).put nodeID.bytes weight
    let oplog : MasterOplog :=
      ⟨id, ts, .masterOpAddMaster (some nodeID) (some fromID) (some masters) (addUp (masters.entries.map Prod.snd))⟩
    match nodeOrNew Γ pm ts raftID nodeID with
    | .error e => (.error e, pm)
    | .ok (p, pm) =>
      let node := added (pm.heap.get p) ts weight id
      match setNodeSignID Γ nodeID pm.myID with
      | .error e => (.error e, { pm with
          heap := pm.heap.set p node
          totalWeight := pm.totalWeight + (weight - (pm.heap.get p).weight) })
      | .ok signID => (.ok oplog, { pm with
          totalWeight := pm.totalWeight + (weight - (pm.heap.get p).weight)
          myNodeByNodeSignIDs := pm.myNodeByNodeSignIDs.put signID p }.setNode p node)

def createFullMe (pm : ProtocolManager) (ans : Answers) (myRaftID : UInt64) : Except NodeErr Unit × ProtocolManager :=
  if ans.profile then
    match pm.myNodes.get myRaftID with
    | none => (.error .invalidNode, { pm with status := .alive })
    | some p =>
      (if ans.userNode then .ok () else .error .service,
        { pm with status := .alive }.setNode p { pm.heap.get p with nodeName := ans.hostname })
  else (.error .service, pm)

def internalSyncToAlive (pm : ProtocolManager) (ans : Answers) (oplog : MasterOplog) (myRaftID : UInt64) :
    Except NodeErr Unit × ProtocolManager :=
  match pm.myNodes.get myRaftID with
  | none => (.error .service, { pm with status := .alive })
  | some p =>
    (if ans.userNode then .ok () else .error .service,
      { pm with status := .alive }.setNode p
        { pm.heap.get p with status := .alive, updateTS := oplog.updateTS, logID := some oplog.id })

def createMeOrAddDial (pm : ProtocolManager) (ans : Answers) (oplog : MasterOplog) (nodeID : NodeID) (raftID : UInt64) :
    Except NodeErr Unit × ProtocolManager :=
  if nodeID = pm.myNodeID then
    match pm.status with
    | .pending => pm.createFullMe ans raftID
    | .sync => pm.internalSyncToAlive ans oplog raftID
    | _ => (.ok (), pm)
  else (if ans.opKey then .ok () else .error .service, pm)

def publishEntriesAddNode (Γ : NodeCtx) (pm : ProtocolManager) (ans : Answers) (idx : UInt64) (cc : ConfChange) :
    Except NodeErr Unit × ProtocolManager :=
  match toRaftID Γ cc.ctxNodeID with
  | .error e => (.error e, pm)
  | .ok raftID =>
    if raftID ≠ cc.nodeID then (.error .invalidEntry, pm) else
    match publishEntriesAddNodeCreateMasterOplogAndSetMyNode Γ pm ans.ts raftID cc.ctxNodeID cc.weight idx cc.ctxFromID with
    | (.error .oplogAlreadyExists, pm) => (.ok (), pm)
    | (.error e, pm) => (.error e, pm)
    | (.ok oplog, pm) =>
      match pm.createMeOrAddDial ans oplog cc.ctxNodeID raftID with
      | (.error e, pm) => (.error e, pm)
      | (.ok _, pm) => (.ok (), pm.saveOplog oplog)

def publishEntriesRemoveNodeDealWithMyNodes (Γ : NodeCtx) (pm : ProtocolManager) (raftID : UInt64) (nodeID : NodeID) (idx : UInt64) :
    Except NodeErr (KeyStore (ByteArrayOf 64) UInt32 × UInt32 × Nat) × ProtocolManager :=
  match pm.masterOplogs.get (raftIdxToMasterOplogID idx pm.myID) with
  | some _ => (.error .oplogAlreadyExists, pm)
  | none =>
    match pm.myNodes.get raftID with
    | none => (.error .invalidNode, pm)
    | some p =>
      match setNodeSignID Γ nodeID pm.myID with
      | .error _ => (.error .invalidNode, pm)
      | .ok signID =>
        let pm := { pm with
          myNodes := pm.myNodes.delete raftID
          myNodeByNodeSignIDs := pm.myNodeByNodeSignIDs.delete signID }
        (.ok (mastersOf pm.nodes, addUp (pm.nodes.map MyNode.weight), p), pm)

def cleanNode (Γ : NodeCtx) (pm : ProtocolManager) (e : UInt64 × Nat) : ProtocolManager :=
  let node := pm.heap.get e.2
  let signIDs := match setNodeSignID Γ node.nodeID pm.myID with
    | .error _ => pm.myNodeByNodeSignIDs
    | .ok signID => pm.myNodeByNodeSignIDs.delete signID
  { pm with
    myNodes := pm.myNodes.delete e.1
    myNodeByNodeSignIDs := signIDs
    dbMyNodes := pm.dbMyNodes.delete (marshalKey node.id node.nodeID) }

def revokeMyNodeCleanMyNodes (Γ : NodeCtx) (pm : ProtocolManager) : ProtocolManager := pm.myNodes.entries.foldl (cleanNode Γ) pm

def handleRevokeMyNode (Γ : NodeCtx) (pm : ProtocolManager) : ProtocolManager :=
  revokeMyNodeCleanMyNodes Γ { pm with status := .revoked }

def publishEntriesRemoveNode (Γ : NodeCtx) (pm : ProtocolManager) (ans : Answers) (idx : UInt64) (cc : ConfChange) :
    Except NodeErr Unit × ProtocolManager :=
  match toRaftID Γ cc.ctxNodeID with
  | .error e => (.error e, pm)
  | .ok raftID =>
    if raftID ≠ cc.nodeID then (.error .invalidEntry, pm) else
    match publishEntriesRemoveNodeDealWithMyNodes Γ pm raftID cc.ctxNodeID idx with
    | (.error .oplogAlreadyExists, pm) => (.ok (), pm)
    | (.error e, pm) => (.error e, pm)
    | (.ok (masters, totalWeight, p), pm) =>
      let oplog : MasterOplog :=
        ⟨raftIdxToMasterOplogID idx pm.myID, ans.ts, .masterOpRevokeMaster (some cc.ctxNodeID) (some cc.ctxFromID) (some masters)⟩
      let pm := ({ pm with totalWeight }.setNode p { pm.heap.get p with status := .deleted, logID := some oplog.id }).saveOplog oplog
      -- the raft identifier of the own node decides, not its node identifier
      (.ok (), if toRaftID Γ pm.myNodeID = .ok raftID then handleRevokeMyNode Γ pm else pm)

/-! ## Approval and restart -/

def approveJoinMe (Γ : NodeCtx) (pm : ProtocolManager) (ts : Timestamp) (peerID : NodeID) : Except NodeErr Unit × ProtocolManager :=
  match newMyNode Γ ts pm.myID peerID 0 with
  | .error e => (.error e, pm)
  | .ok node => (.ok (), { pm with heap := pm.heap.alloc node, myNodes := pm.myNodes.put node.raftID pm.heap.next })

def loadNode (Γ : NodeCtx) (pm : ProtocolManager) (node : MyNode) : ProtocolManager :=
  match setNodeSignID Γ node.nodeID pm.myID with
  | .error _ => pm
  | .ok signID => { pm with
      heap := pm.heap.alloc node
      myNodes := pm.myNodes.put node.raftID pm.heap.next
      myNodeByNodeSignIDs := pm.myNodeByNodeSignIDs.put signID pm.heap.next
      totalWeight := pm.totalWeight + node.weight }

def records (pm : ProtocolManager) : List (Bytes × Option MyNode) :=
  pm.dbMyNodes.select fun k => (dbMyNodePrefix ++ pm.myID.1).isPrefixOf k

def ownRecord (pm : ProtocolManager) (e : Bytes × Option MyNode) : Option MyNode := e.2.filter fun node => decide (node.id = pm.myID)

def loadMyNodes (Γ : NodeCtx) (pm : ProtocolManager) : Except NodeErr ProtocolManager :=
  let nodes := pm.records.filterMap pm.ownRecord
  if nodes.any fun node => decide (node.nodeID = pm.myNodeID) then
    .ok { nodes.foldl (loadNode Γ) pm with
      dbMyNodes := pm.dbMyNodes.deleteAll ((pm.records.filter fun e => (pm.ownRecord e).isNone).map Prod.fst) }
  else .error .invalidMe

def fresh (pm : ProtocolManager) : ProtocolManager :=
  { pm with heap := Heap.empty, myNodes := KeyStore.empty, myNodeByNodeSignIDs := KeyStore.empty, totalWeight := 0 }

end ProtocolManager

end Me

end PttaiCore
