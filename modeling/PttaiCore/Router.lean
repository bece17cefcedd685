import PttaiCore.Peer

/-! # Entities and the router -/

namespace PttaiCore

structure OpKeyInfo where
  hash : Address
  keyBytes : Bytes
  updateTS : Timestamp
  status : Status
  deriving DecidableEq

inductive EntityKind where
  | base | account | me
  deriving DecidableEq, Repr

structure Entity where
  id : PttID
  kind : EntityKind
  status : Status
  /-- The status of the record of a master, and of a member. -/
  masters : PttID → Option Status
  members : PttID → Option Status
  /-- The nodes of the pending peers. -/
  pendingPeers : List NodeID
  /-- The status of the record of a node of the user's own; a node without a raft identifier has none. -/
  myNodes : NodeID → Option Status
  ownerIDs : List PttID
  /-- The operation keys, in the order a loop over the map gives them. -/
  opKeyInfos : List OpKeyInfo
  oldestOpKeyInfo : Option OpKeyInfo
  expireOpKeySeconds : Int64
  renewOpKeySeconds : Int64
  /-- What listing the operation key oplogs that are alive gives. -/
  opKeyOplogList : Except Err (List BaseOplog)

namespace Entity

/-! ## Peers -/

def isMaster (e : Entity) (id : PttID) : Bool := e.masters id == some .alive

def isMember (e : Entity) (id : PttID) : Bool := e.members id == some .alive

def isMyDevice (e : Entity) (p : PttPeer) : Bool :=
  match e.kind with
  | .base | .account => p.peerType == .me
  | .me =>
    match e.myNodes p.id with
    | none => false
    | some status => !decide (status < .sync) && e.ownerIDs.any fun myID => p.userID == some myID

def isImportantPeer (e : Entity) (p : PttPeer) : Bool :=
  match e.kind, p.userID with
  | .base, some userID => e.isMaster userID
  | _, _ => false

def isMemberPeer (e : Entity) (p : PttPeer) : Bool :=
  match e.kind, p.userID with
  | .base, some userID | .account, some userID => e.isMember userID
  | _, _ => false

def isPendingPeer (e : Entity) (p : PttPeer) : Bool := e.pendingPeers.contains p.id

def getPeerType (e : Entity) (p : PttPeer) : PeerType :=
  if e.isMyDevice p then .me
  else if e.isImportantPeer p then .important
  else if e.isMemberPeer p then .member
  else if e.isPendingPeer p then .pending
  else .random

/-! ## Operation keys -/

def getExpireRenewOpKeyTS (e : Entity) (now : Timestamp) : Timestamp :=
  let expired := now.ts - e.expireOpKeySeconds
  if e.expireOpKeySeconds < e.renewOpKeySeconds then ⟨expired, now.nanoTs⟩
  else ⟨expired + e.renewOpKeySeconds, now.nanoTs⟩

def checkOldestOpKeyInfo (expireRenewTS : Timestamp) (oldest : Option OpKeyInfo) (keyInfo : OpKeyInfo) : Option OpKeyInfo :=
  if keyInfo.updateTS.isLess expireRenewTS then oldest
  else if keyInfo.status ≠ .alive then oldest
  else match oldest with
    | none => some keyInfo
    | some o => if keyInfo.updateTS.isLess o.updateTS then some keyInfo else some o

def getOldestOpKeyFullScan (e : Entity) (now : Timestamp) : Except Err OpKeyInfo × Entity :=
  match e.opKeyInfos.foldl (checkOldestOpKeyInfo (e.getExpireRenewOpKeyTS now)) none with
  | none => (.error .invalidKey, { e with oldestOpKeyInfo := none })
  | some k => (.ok k, { e with oldestOpKeyInfo := some k })

def getOldestOpKey (e : Entity) (now : Timestamp) : Except Err OpKeyInfo × Entity :=
  if e.opKeyInfos.isEmpty then (.error .invalidKey, e)
  else match e.oldestOpKeyInfo with
    | some k => (.ok k, e)
    | none => e.getOldestOpKeyFullScan now

def getOpKeyFromHash (e : Entity) (hash : Address) : Except Err OpKeyInfo :=
  match e.opKeyInfos.find? fun k => k.hash == hash with
  | none => .error .invalidKeyInfo
  | some k => .ok k

def opKeyList (e : Entity) : List OpKeyInfo := e.opKeyInfos

end Entity

structure MyEntity where
  id : PttID
  status : Status
  signKey : Option KeyInfo
  deriving DecidableEq

structure Router where
  myEntity : Option MyEntity
  /-- The entity an operation key is of. -/
  ops : Address → Option PttID
  entities : PttID → Option Entity
  id_entities : ∀ id e, entities id = some e → e.id = id

namespace Router

def getEntityFromHash (r : Router) : Option Address → Except Err Entity
  | none => .error .panic
  | some hash =>
    match (r.ops hash).bind r.entities with
    | none => .error .invalidData
    | some e => .ok e

def setEntity (r : Router) (e : Entity) : Router where
  myEntity := r.myEntity
  ops := r.ops
  entities := fun id => if id = e.id then some e else r.entities id
  id_entities := by
    intro id e' h
    split at h
    next heq =>
      cases h
      exact heq.symm
    next => exact r.id_entities id e' h

end Router

end PttaiCore
