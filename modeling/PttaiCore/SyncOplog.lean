import PttaiCore.MerkleTime
import PttaiCore.OplogStore

/-! # Synchronising the oplogs of an entity -/

namespace PttaiCore

def maxSyncOplogAck : Nat := 200

def maxSyncObjectAck : Nat := 50

def Timestamp.nextHourTS (t : Timestamp) : Timestamp := { t with ts := t.ts + 3600 }

structure SyncOplogAck where
  ts : Timestamp
  nodes : List MerkleNode
  startHourTS : Timestamp
  endHourTS : Timestamp
  startTS : Timestamp
  endTS : Timestamp
  deriving DecidableEq

inductive SyncMsg where
  | syncOplog (toSyncTime : Timestamp) (toSyncNodes : List MerkleNode)
  | forceSyncOplogByMerkle (updateTS : Timestamp) (level : MerkleTreeLevel) (nodes : List MerkleNode)
  | forceSyncOplogByMerkleAck (nodes : List MerkleNode)
  | forceSyncOplogByOplogAck (oplogs : List BaseOplog)
  | syncOplogAck (ack : SyncOplogAck)
  | syncOplogNewOplogs (ts : Timestamp) (oplogs : List BaseOplog) (myNewKeys : List Bytes)
  deriving DecidableEq

structure SyncOutcome where
  result : Except Err Unit
  sent : List SyncMsg

namespace SyncOutcome

def give (result : Except Err Unit) : SyncOutcome := ⟨result, []⟩

def send (msg : SyncMsg) : SyncOutcome := ⟨.ok (), [msg]⟩

def andThen (a b : SyncOutcome) : SyncOutcome :=
  match a.result with
  | .error _ => a
  | .ok _ => ⟨b.result, a.sent ++ b.sent⟩

end SyncOutcome

structure SyncPeer where
  /-- The status of the entity of the user who runs the node. -/
  myStatus : Status
  /-- The status of the entity. -/
  status : Status
  createTS : Timestamp
  db : LDBDatabase Value
  /-- Whether a forced synchronisation is being asked for. -/
  isBusyForceSync : Bool
  /-- The mark `isNewer` of an oplog that is sent, if it is set. -/
  setNewestOplog : Option (BaseOplog → Bool)

def getOplogsFromKeys (db : LDBDatabase Value) (keys : List Bytes) : List BaseOplog :=
  keys.filterMap fun key => (BaseOplog.load db key).toOption

namespace SyncPeer

variable (m : Merkle) (p : SyncPeer)

def markNewest (oplogs : List BaseOplog) : List BaseOplog :=
  match p.setNewestOplog with
  | none => oplogs
  | some f => oplogs.map fun o => { o with isNewer := f o }

def tryForceSync : Except Err Unit := if p.isBusyForceSync then .error .busy else .ok ()

/-! ## Down the tree -/

def forceSyncOplogByMerkle (myNewNode : MerkleNode) : SyncOutcome :=
  let nodes := m.getChildNodes p.db.db myNewNode.level myNewNode.updateTS
  match m.getNodeByLevelTS p.db.db myNewNode.level myNewNode.updateTS with
  | .ok myNode =>
    if nodes.length ≠ myNode.nChildren.toNat then .give p.tryForceSync
    else .send (.forceSyncOplogByMerkle myNewNode.updateTS myNewNode.level nodes)
  | .error _ =>
    if nodes.length ≠ 0 then .give p.tryForceSync
    else .send (.forceSyncOplogByMerkle myNewNode.updateTS myNewNode.level nodes)

def forceSyncOplogByMerkleAck (nodes : List MerkleNode) : SyncOutcome := .send (.forceSyncOplogByMerkleAck nodes)

def forceSyncOplogByOplogAck (theirNewNodes : List MerkleNode) : SyncOutcome :=
  let theirNewLogs := getOplogsFromKeys p.db (theirNewNodes.map MerkleNode.key)
  if theirNewLogs.isEmpty then .give (.ok ())
  else .send (.forceSyncOplogByOplogAck (p.markNewest theirNewLogs))

def handleForceSyncOplogByMerkle (updateTS : Timestamp) (level : MerkleTreeLevel) (theirNodes : List MerkleNode) : SyncOutcome :=
  if p.myStatus ≠ .alive then .give (.ok ())
  else if p.status ≠ .alive then .give (.ok ())
  else
    let nodes := m.getChildNodes p.db.db level updateTS
    let theirNewNodes := (diffMerkleTree nodes theirNodes .zero).2
    if theirNewNodes.isEmpty then .give (.ok ())
    else if level = .hr then p.forceSyncOplogByOplogAck theirNewNodes
    else forceSyncOplogByMerkleAck theirNewNodes

def handleForceSyncOplogByMerkleAck (nodes : List MerkleNode) : SyncOutcome :=
  if p.myStatus ≠ .alive then .give (.ok ())
  else if p.status ≠ .alive then .give (.ok ())
  else ⟨.ok (), nodes.flatMap fun node => (p.forceSyncOplogByMerkle m node).sent⟩

def syncOplogInvalidByMerkle (theirNewNodes : List MerkleNode) : List MerkleNode → SyncOutcome
  | [] => if theirNewNodes.isEmpty then .give (.ok ()) else forceSyncOplogByMerkleAck theirNewNodes
  | node :: myNewNodes => (p.forceSyncOplogByMerkle m node).andThen (syncOplogInvalidByMerkle theirNewNodes myNewNodes)

/-! ## Windows of time -/

structure AckState where
  nodes : List MerkleNode
  startHourTS : Timestamp
  deriving DecidableEq

def syncOplogAckBlocks (offsetHourTS currentHourTS nextHourTS : Timestamp) : Nat → Timestamp → List MerkleNode → List SyncOplogAck
  | 0, _, _ => []
  | fuel + 1, startTS, pNodes =>
    if pNodes.isEmpty then []
    else
      let rest := pNodes.drop maxSyncOplogAck
      let endTS := rest.head?.elim nextHourTS MerkleNode.updateTS
      ⟨offsetHourTS, pNodes.take maxSyncOplogAck, currentHourTS, nextHourTS, startTS, endTS⟩ ::
        syncOplogAckBlocks offsetHourTS currentHourTS nextHourTS fuel endTS rest

def ackNextHourTS (currentHourTS now : Timestamp) : Timestamp :=
  if now.isLess currentHourTS.nextHourTS then now else currentHourTS.nextHourTS

def syncOplogAckCore (db : KeyStore Bytes Value) (s : AckState) (currentHourTS offsetHourTS now : Timestamp) :
    List SyncOplogAck × AckState :=
  let nextHourTS := ackNextHourTS currentHourTS now
  let eachNodes := m.getMerkleTreeListByLevel db .now currentHourTS nextHourTS
  if s.nodes.length + eachNodes.length < maxSyncOplogAck then ([], ⟨s.nodes ++ eachNodes, s.startHourTS⟩)
  else
    let waiting : List SyncOplogAck :=
      if s.nodes.isEmpty then []
      else [⟨offsetHourTS, s.nodes, s.startHourTS, currentHourTS, s.startHourTS, currentHourTS⟩]
    if eachNodes.length < maxSyncObjectAck then (waiting, ⟨eachNodes, currentHourTS⟩)
    else (waiting ++ syncOplogAckBlocks offsetHourTS currentHourTS nextHourTS eachNodes.length currentHourTS eachNodes,
      ⟨[], nextHourTS⟩)

def syncOplogAckLoop (db : KeyStore Bytes Value) (offsetHourTS now : Timestamp) : Nat → Timestamp → AckState → List SyncOplogAck
  | 0, _, _ => []
  | fuel + 1, currentHourTS, s =>
    if currentHourTS.isLess now then
      (syncOplogAckCore m db s currentHourTS offsetHourTS now).1 ++
        syncOplogAckLoop db offsetHourTS now fuel (ackNextHourTS currentHourTS now)
          (syncOplogAckCore m db s currentHourTS offsetHourTS now).2
    else if s.nodes.isEmpty then []
    else [⟨offsetHourTS, s.nodes, s.startHourTS, now, s.startHourTS, now⟩]

def ackFuel (offsetHourTS now : Timestamp) : Nat := ((now.ts.toInt - offsetHourTS.ts.toInt) / 3600).toNat + 2

def syncOplogAckFrom (db : KeyStore Bytes Value) (offsetHourTS now : Timestamp) : List SyncOplogAck :=
  syncOplogAckLoop m db offsetHourTS now (ackFuel offsetHourTS now) offsetHourTS ⟨[], offsetHourTS⟩

def syncOplogAck (myToSyncTime now : Timestamp) : SyncOutcome :=
  let myToSyncTime := if myToSyncTime.isEqual .zero then p.createTS else myToSyncTime
  ⟨.ok (), (syncOplogAckFrom m p.db.db myToSyncTime.toHRTimestamp.1 now).map SyncMsg.syncOplogAck⟩

def handleSyncOplogAckFilterTS (nodes : List MerkleNode) (startTS endTS : Timestamp) : List MerkleNode :=
  nodes.filter fun node => startTS.isLessEqual node.updateTS && node.updateTS.isLess endTS

def syncOplogAckKeys (db : KeyStore Bytes Value) (ack : SyncOplogAck) : List Bytes × List Bytes :=
  let myNodes := m.getMerkleTreeListByLevel db .now ack.startHourTS ack.endHourTS
  mergeKeysInMerkleNodes (handleSyncOplogAckFilterTS myNodes ack.startTS ack.endTS) ack.nodes

def syncOplogNewOplogs (ts : Timestamp) (myNewKeys theirNewKeys : List Bytes) : SyncOutcome :=
  let theirNewLogs := getOplogsFromKeys p.db theirNewKeys
  if theirNewLogs.isEmpty && myNewKeys.isEmpty then .give (.ok ())
  else .send (.syncOplogNewOplogs ts (p.markNewest theirNewLogs) myNewKeys)

def handleSyncOplogAck (ack : SyncOplogAck) : SyncOutcome :=
  if p.myStatus ≠ .alive then .give (.ok ())
  else if p.status ≠ .alive then .give (.ok ())
  else
    let keys := syncOplogAckKeys m p.db.db ack
    p.syncOplogNewOplogs ack.ts keys.1 keys.2

/-! ## Beginning -/

def syncOplog : Except Err SyncMsg :=
  match m.toSyncTime p.db with
  | .error e => .error e
  | .ok toSyncTime => .ok (.syncOplog toSyncTime (m.getMerkleTreeList p.db.db toSyncTime false).1)

def handleSyncOplog (theirToSyncTime : Timestamp) (theirToSyncNodes : List MerkleNode) (now : Timestamp) : SyncOutcome :=
  if p.myStatus ≠ .alive then .give (.ok ())
  else if p.status ≠ .alive then .give (.ok ())
  else match m.toSyncTime p.db with
    | .error e => .give (.error e)
    | .ok myToSyncTime =>
      if myToSyncTime.isLess theirToSyncTime then .give (.ok ())
      else
        let toSyncTime := if theirToSyncTime.isLess myToSyncTime then theirToSyncTime else myToSyncTime
        let myToSyncNodes := (m.getMerkleTreeList p.db.db toSyncTime false).1
        let diff := diffMerkleTree myToSyncNodes theirToSyncNodes toSyncTime
        if diff.1.isEmpty && diff.2.isEmpty then p.syncOplogAck m myToSyncTime now
        else p.syncOplogInvalidByMerkle m diff.2 diff.1

def handle (now : Timestamp) : SyncMsg → SyncOutcome
  | .syncOplog toSyncTime toSyncNodes => p.handleSyncOplog m toSyncTime toSyncNodes now
  | .forceSyncOplogByMerkle updateTS level nodes => p.handleForceSyncOplogByMerkle m updateTS level nodes
  | .forceSyncOplogByMerkleAck nodes => p.handleForceSyncOplogByMerkleAck m nodes
  | .syncOplogAck ack => p.handleSyncOplogAck m ack
  | .forceSyncOplogByOplogAck _ | .syncOplogNewOplogs _ _ _ => .give (.ok ())

end SyncPeer

end PttaiCore
