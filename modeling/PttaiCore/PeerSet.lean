import Mathlib.Logic.Function.Basic
import PttaiCore.Peer

/-! # The set of an entity's peers -/

namespace PttaiCore

theorem NodeID.bytes_injective {n m : NodeID} (h : n.bytes = m.bytes) : n = m := by
  cases n
  cases m
  exact congrArg NodeID.mk h

instance NodeID.linearOrder : LinearOrder NodeID := LinearOrder.lift' NodeID.bytes fun _ _ => NodeID.bytes_injective

inductive PeerClass where
  | me | important | member | pending
  deriving DecidableEq, Repr

def PeerType.peerClass : PeerType → Option PeerClass
  | .me => some .me
  | .important => some .important
  | .member => some .member
  | .pending => some .pending
  | .err | .removed | .random | .hub => none

abbrev MapOrder (P : Type) : Type := { f : List P → List P // ∀ l, (f l).Perm l }

structure PeerStore (P : Type) where
  peers : KeyStore NodeID P
  peerList : List P

inductive PeerSetErr where
  | closed | alreadyRegistered | notRegistered
  deriving DecidableEq, Repr

structure PttPeerSet (P : Type) where
  peerTypes : KeyStore NodeID PeerType
  stores : PeerClass → PeerStore P
  peerList : List P
  closed : Bool

namespace PttPeerSet

variable {P : Type} [DecidableEq P]

def empty (closed : Bool) : PttPeerSet P := ⟨KeyStore.empty, fun _ => ⟨KeyStore.empty, []⟩, [], closed⟩

def newPttPeerSet : PttPeerSet P := empty false

def getPeerWithPeerType (ps : PttPeerSet P) (id : NodeID) (peerType : PeerType) : Option P :=
  peerType.peerClass.bind fun c => (ps.stores c).peers.get id

def peersToPeerList (order : MapOrder P) (peers : KeyStore NodeID P) : List P := order.1 (peers.entries.map Prod.snd)

def setPeers (ps : PttPeerSet P) (peerType : PeerType) (f : KeyStore NodeID P → KeyStore NodeID P) : PttPeerSet P :=
  match peerType.peerClass with
  | none => ps
  | some c => { ps with stores := Function.update ps.stores c { ps.stores c with peers := f (ps.stores c).peers } }

def relist (ps : PttPeerSet P) (order : MapOrder P) (peerType : PeerType) : PttPeerSet P :=
  match peerType.peerClass with
  | none => ps
  | some c =>
    { ps with stores := Function.update ps.stores c { ps.stores c with peerList := peersToPeerList order (ps.stores c).peers } }

def setPeerList (ps : PttPeerSet P) : PttPeerSet P :=
  { ps with peerList := ((ps.stores .me).peerList ++ (ps.stores .important).peerList) ++ (ps.stores .member).peerList }

section

variable (nodeID : P → NodeID)

def move (ps : PttPeerSet P) (order : MapOrder P) (peer : P) (origPeerType peerType : PeerType) : PttPeerSet P :=
  let id := nodeID peer
  let ps := { ps with peerTypes := ps.peerTypes.put id peerType }
  let ps := (ps.setPeers origPeerType fun peers => peers.delete id).setPeers peerType fun peers => peers.put id peer
  ((ps.relist order origPeerType).relist order peerType).setPeerList

def register (ps : PttPeerSet P) (order : MapOrder P) (peer : P) (peerType : PeerType) : Except PeerSetErr Unit × PttPeerSet P :=
  if ps.closed then (.error .closed, ps) else
  match ps.peerTypes.get (nodeID peer) with
  | none => (.ok (), ps.move nodeID order peer .err peerType)
  | some origPeerType =>
    -- another connection to the same node
    if (ps.getPeerWithPeerType (nodeID peer) origPeerType).any fun origPeer => decide (origPeer ≠ peer) then
      (.error .alreadyRegistered, ps)
    else if origPeerType = peerType then (.ok (), ps)
    else (.ok (), ps.move nodeID order peer origPeerType peerType)

def unregister (ps : PttPeerSet P) (order : MapOrder P) (peer : P) : Except PeerSetErr Unit × PttPeerSet P :=
  match ps.peerTypes.get (nodeID peer) with
  | none => (.error .notRegistered, ps)
  | some origPeerType =>
    if origPeerType.peerClass.isSome && decide (ps.getPeerWithPeerType (nodeID peer) origPeerType ≠ some peer) then
      (.error .notRegistered, ps)
    else
      let id := nodeID peer
      let ps := (ps.setPeers origPeerType fun peers => peers.delete id)
      let ps := { ps with peerTypes := ps.peerTypes.delete id }
      (.ok (), (ps.relist order origPeerType).setPeerList)

def unregisterFrom (ps : PttPeerSet P) (order : MapOrder P) (userID : P → Option PttID) (id : Option PttID) (c : PeerClass) :
    Option (P × PttPeerSet P) :=
  ((ps.stores c).peerList.find? fun peer => decide (userID peer = id)).map fun peer => (peer, (ps.unregister nodeID order peer).2)

def unregisterPeerByOtherUserID (ps : PttPeerSet P) (order : MapOrder P) (userID : P → Option PttID) (id : Option PttID) :
    (Option P × PeerType) × PttPeerSet P :=
  match ps.unregisterFrom nodeID order userID id .important with
  | some (peer, ps) => ((some peer, .important), ps)
  | none =>
    match ps.unregisterFrom nodeID order userID id .member with
    | some (peer, ps) => ((some peer, .member), ps)
    | none =>
      match ps.unregisterFrom nodeID order userID id .pending with
      | some (peer, ps) => ((some peer, .pending), ps)
      | none => ((none, .random), ps)

end

def close (_ : PttPeerSet P) : PttPeerSet P := empty true

end PttPeerSet

end PttaiCore
