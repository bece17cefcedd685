import PttaiCore.Identify

/-! # Approving a join -/

namespace PttaiCore

structure ApproveJoinInput where
  /-- Whether the node has an oplog that makes its user a member. -/
  hasMyMemberLog : Bool
  /-- Reading the newest operation key and its oplog. -/
  opKey : Except Err Unit
  /-- Listing the oplogs of the masters. -/
  masterLogs : Except Err Unit
  /-- Making the user a member, or reading the oplog that did. -/
  addMember : Except Err Unit
  /-- The type of the peer once it is worked out again. -/
  resetPeerType : PeerType

namespace PttPeer

def assumeUserID (p : PttPeer) (id : PttID) (i : IdentifyInput) : PttPeer :=
  match p.userID with
  | some _ => p
  | none => (finishIdentifyPeer { p with userID := some id } i).2

end PttPeer

namespace Router

def approveJoin (r : Router) (e : Entity) (joinID : PttID) (a : ApproveJoinInput) (p : PttPeer) (i : IdentifyInput) :
    Except Err Unit × PttPeer :=
  match r.myEntity with
  | none => (.error .panic, p)
  | some me =>
    if !e.isMaster me.id && p.peerType != .me then (.error .invalidID, p)
    else if !a.hasMyMemberLog then (.error .invalidStatus, p)
    else match a.opKey with
      | .error err => (.error err, p)
      | .ok () =>
        if e.status ≠ .alive then (.error .invalidStatus, p)
        else match a.masterLogs, (if me.id = joinID then .ok () else a.addMember) with
          | .error err, _ => (.error err, p)
          | .ok (), .error err => (.error err, p)
          | .ok (), .ok () =>
            let p := p.assumeUserID joinID i
            (.ok (), if p.peerType < .member then { p with peerType := a.resetPeerType } else p)

def approveJoinFriend (joinID : PttID) (createFriend : Except Err Unit) (p : PttPeer) (i : IdentifyInput) :
    Except Err Unit × PttPeer :=
  match createFriend with
  | .error err => (.error err, p)
  | .ok () => (.ok (), p.assumeUserID joinID i)

def handleApproveJoinFriend (r : Router) (friend0ID friend1ID : PttID) (saveFriend : Except Err Unit) (p : PttPeer)
    (i : IdentifyInput) : Except Err Unit × PttPeer :=
  match r.myEntity with
  | none => (.error .panic, p)
  | some me =>
    match saveFriend with
    | .error err => (.error err, p)
    | .ok () => (.ok (), p.assumeUserID (if me.id = friend0ID then friend1ID else friend0ID) i)

def approveJoinMe (myID : PttID) (addMyNode opKey : Except Err Unit) (p : PttPeer) : Except Err Unit × PttPeer :=
  match addMyNode with
  | .error err => (.error err, p)
  | .ok () => (opKey, { p with userID := some myID })

def handleApproveJoinMe (newMyID : PttID) (saveMyInfo registerEntity : Except Err Unit) (p : PttPeer) :
    Except Err Unit × PttPeer :=
  match saveMyInfo with
  | .error err => (.error err, p)
  | .ok () => (registerEntity, { p with userID := some newMyID })

end Router

end PttaiCore
