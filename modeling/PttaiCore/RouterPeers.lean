import PttaiCore.PeerSet
import PttaiCore.Router

/-! # The router's tables of peers -/

namespace PttaiCore

inductive PeerTable where
  | me | hub | important | member | pending | random
  deriving DecidableEq, Repr

def PeerType.table : PeerType → Option PeerTable
  | .me => some .me
  | .hub => some .hub
  | .important => some .important
  | .member => some .member
  | .pending => some .pending
  | .random => some .random
  | .err | .removed => none

def PeerTable.peerType : PeerTable → PeerType
  | .me => .me
  | .hub => .hub
  | .important => .important
  | .member => .member
  | .pending => .pending
  | .random => .random

@[simp] theorem PeerTable.table_peerType (t : PeerTable) : t.peerType.table = some t := by cases t <;> rfl

structure RouterPeer extends PttPeer where
  isToClose : Bool
  deriving DecidableEq

def RouterPeer.new (id : NodeID) : RouterPeer := ⟨.new id, false⟩

structure PeerConfig where
  maxPeers : Int
  maxHubPeers : Int
  maxImportantPeers : Int
  maxMemberPeers : Int
  maxPendingPeers : Int
  maxRandomPeers : Int

structure RouterPeers where
  peers : Nat → RouterPeer
  tables : PeerTable → KeyStore NodeID Nat
  userPeerMap : KeyStore PttID NodeID
  config : PeerConfig

structure PeerEntities where
  myEntity : Option Entity
  entities : List Entity

def PeerEntities.determinePeerTypeFromAllEntities (es : PeerEntities) (p : PttPeer) : PeerType :=
  if es.myEntity.any fun e => e.isMyDevice p then .me
  else if es.entities.any fun e => e.isImportantPeer p then .important
  else if es.entities.any fun e => e.isMemberPeer p then .member
  else if es.entities.any fun e => e.isPendingPeer p then .pending
  else .random

namespace RouterPeers

variable (r : RouterPeers)

def len (t : PeerTable) : Int := (r.tables t).entries.length

def setTable (peerType : PeerType) (f : KeyStore NodeID Nat → KeyStore NodeID Nat) : RouterPeers :=
  match peerType.table with
  | none => r
  | some t => { r with tables := Function.update r.tables t (f (r.tables t)) }

def setPeer (c : Nat) (p : RouterPeer) : RouterPeers := { r with peers := Function.update r.peers c p }

/-! ## The part of a connection -/

def setPeerType (c : Nat) (peerType : PeerType) (isForce : Bool) : Except Err Unit × RouterPeers :=
  let peer := r.peers c
  if peer.isToClose then (.error .toClose, r)
  else if !isForce && decide (peerType ≤ peer.peerType) then (.ok (), r)
  else
    let r := r.setPeer c { peer with peerType }
    let r := (r.setTable peer.peerType fun peers => peers.delete peer.id).setTable peerType fun peers => peers.put peer.id c
    match peer.userID with
    | none => (.ok (), r)
    | some userID => (.ok (), { r with userPeerMap := r.userPeerMap.put userID peer.id })

def unsetPeerType (c : Nat) : Except Err Unit × RouterPeers :=
  let peer := r.peers c
  match peer.peerType.table with
  | none => (.ok (), r)
  | some t =>
    if (r.tables t).get peer.id ≠ some c then (.error .notRegistered, r)
    else (.ok (), r.setTable peer.peerType fun peers => peers.delete peer.id)

def dropAnyPeer (peerType : PeerType) : Except Err Unit :=
  if r.len .random ≠ 0 then .ok ()
  else if peerType = .random then .error .tooManyPeers
  else if r.len .pending ≠ 0 then .ok ()
  else if peerType = .pending then .error .tooManyPeers
  else if r.len .member ≠ 0 then .ok ()
  else if peerType = .member then .error .tooManyPeers
  else if r.len .important ≠ 0 then .ok ()
  else if peerType = .important then .error .tooManyPeers
  else if r.len .hub ≠ 0 then .ok ()
  else if peerType = .hub then .error .tooManyPeers
  else .ok ()

def validatePeer (nodeID : NodeID) (userID : Option PttID) (peerType : PeerType) : Except Err Unit :=
  if peerType = .me then .ok ()
  else if (userID.bind r.userPeerMap.get).any fun origNodeID => decide (origNodeID ≠ nodeID) then .error .alreadyRegistered
  else if peerType = .hub ∧ r.config.maxHubPeers ≤ r.len .hub then .error .tooManyPeers
  else if peerType = .important ∧ r.config.maxImportantPeers ≤ r.len .important then .error .tooManyPeers
  else if peerType = .member ∧ r.config.maxMemberPeers ≤ r.len .member then .error .tooManyPeers
  else if peerType = .pending ∧ r.config.maxPendingPeers ≤ r.len .pending then .error .tooManyPeers
  else if peerType = .random ∧ r.config.maxRandomPeers ≤ r.len .random then .error .tooManyPeers
  else if r.config.maxPeers ≤ r.len .me + r.len .hub + r.len .important + r.len .member + r.len .pending + r.len .random then
    r.dropAnyPeer peerType
  else .ok ()

def addPeerKnownUserID (c : Nat) (peerType : PeerType) : Except Err Unit × RouterPeers :=
  match r.validatePeer (r.peers c).id (r.peers c).userID peerType with
  | .error e => (.error e, r)
  | .ok () => r.setPeerType c peerType false

/-! ## Connections come, are identified and go -/

def addNewPeer (c : Nat) : Except Err Unit × RouterPeers :=
  match r.validatePeer (r.peers c).id (r.peers c).userID .random with
  | .error e => (.error e, r)
  | .ok () => r.setPeerType c .random false

def registerPeerToEntities (c : Nat) : RouterPeers := r.setPeer c { r.peers c with isRegistered := true }

def setupPeer (c : Nat) (peerType : PeerType) : Except Err Unit × RouterPeers :=
  if (r.peers c).userID = none then (.error .peerUserID, r)
  else match r.addPeerKnownUserID c peerType with
    | (.error e, r) => (.error e, r)
    | (.ok (), r) => (.ok (), r.registerPeerToEntities c)

def finishIdentifyPeer (es : PeerEntities) (c : Nat) (isResetPeerType : Bool) : Except Err Unit × RouterPeers :=
  if (r.peers c).userID = none then (.error .peerUserID, r)
  else
    let r := if isResetPeerType then ((r.setPeer c { r.peers c with isRegistered := false }).setPeerType c .random true).2 else r
    if (r.peers c).isRegistered then (.ok (), r)
    else r.setupPeer c (es.determinePeerTypeFromAllEntities (r.peers c).toPttPeer)

def resetPeerType (es : PeerEntities) (c : Nat) (isForceReset : Bool) : Except Err Unit × RouterPeers :=
  if (r.peers c).isToClose then (.error .toClose, r)
  else if (r.peers c).userID = none then (.error .peerUserID, r)
  else
    let r := if isForceReset then (r.setPeerType c .random true).2 else r
    r.addPeerKnownUserID c (es.determinePeerTypeFromAllEntities (r.peers c).toPttPeer)

def removePeer (c : Nat) : RouterPeers := ((r.setPeer c { r.peers c with isToClose := true }).unsetPeerType c).2

/-! ## Entities come -/

def fit (e : Entity) (c : Nat) : PeerType := e.getPeerType (r.peers c).toPttPeer

def promoted (e : Entity) (order : PeerTable → MapOrder Nat) (t : PeerTable) : List Nat :=
  ((order t).1 ((r.tables t).entries.map Prod.snd)).filter fun c => decide (t.peerType < r.fit e c)

def deletePeers (t : PeerTable) (cs : List Nat) : RouterPeers :=
  r.setTable t.peerType fun peers => peers.deleteAll (cs.map fun c => (r.peers c).id)

def setPeerTypes (peerType : PeerType) (cs : List Nat) : RouterPeers := cs.foldl (fun r c => (r.setPeerType c peerType false).2) r

def registerEntityPeers (e : Entity) (order : PeerTable → MapOrder Nat) : RouterPeers :=
  let important := r.promoted e order .important
  let r₁ := r.deletePeers .important important
  let member := r₁.promoted e order .member
  let r₂ := r₁.deletePeers .member member
  let pending := r₂.promoted e order .pending
  let r₃ := r₂.deletePeers .member pending
  let random := r₃.promoted e order .random
  let r₄ := r₃.deletePeers .random random
  let toPeers := fun peerType => (important ++ member ++ pending ++ random).filter fun c => decide (r.fit e c = peerType)
  (((r₄.setPeerTypes .me (toPeers .me)).setPeerTypes .important (toPeers .important)).setPeerTypes .member (toPeers .member)).setPeerTypes .pending
    (toPeers .pending)

end RouterPeers

end PttaiCore
