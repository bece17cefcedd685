import PttaiCore.Envelope
import PttaiCore.Identify

/-! # Handling a message -/

namespace PttaiCore

inductive CodeHandler where
  | join | joinAck | op | opFail | requestOpKey | requestOpKeyFail | requestOpKeyAck | entityDeleted | opCheckMember | opCheckMemberAck
  | identifyPeer | identifyPeerFail | identifyPeerWithMyID | identifyPeerWithMyIDChallenge | identifyPeerWithMyIDChallengeAck
  | identifyPeerWithMyIDAck
  deriving DecidableEq

def CodeType.handler (code : CodeType) : Option CodeHandler :=
  ([(join, .join), (joinAck, .joinAck), (op, .op), (opFail, .opFail), (requestOpKey, .requestOpKey),
    (requestOpKeyFail, .requestOpKeyFail), (requestOpKeyAck, .requestOpKeyAck), (entityDeleted, .entityDeleted),
    (opCheckMember, .opCheckMember), (opCheckMemberAck, .opCheckMemberAck), (identifyPeer, .identifyPeer),
    (identifyPeerFail, .identifyPeerFail), (identifyPeerWithMyID, .identifyPeerWithMyID),
    (identifyPeerWithMyIDChallenge, .identifyPeerWithMyIDChallenge),
    (identifyPeerWithMyIDChallengeAck, .identifyPeerWithMyIDChallengeAck),
    (identifyPeerWithMyIDAck, .identifyPeerWithMyIDAck)] : List (CodeType × CodeHandler)).lookup code

def identifyPeerMsg : OpType := 52

def identifyPeerAckMsg : OpType := 53

structure ReceivedOplog where
  verify : Except Err Unit
  hash : Bytes
  updateTS : Timestamp

structure OpCheckMember where
  entityID : Option PttID
  myLog : Option ReceivedOplog
  theirLog : Option ReceivedOplog

structure OpCheckMemberAck where
  entityID : Option PttID
  log : Option ReceivedOplog

structure IdentifyPeerWithMyID where
  id : Option PttID
  challenge : Option Salt

structure IdentifyPeerWithMyIDChallengeAck where
  challenge : Option Salt
  ackData : Option IdentifyPeerAck

structure MessageCtx extends CipherCtx where
  /-- Whether the bytes are a public key. -/
  unmarshalPubkey : Bytes → Bool
  event : Bytes → Option RouterEventData
  hash : Bytes → Option (Option Address)
  entityID : CodeHandler → Bytes → Option (Option PttID)
  challenge : Bytes → Option (Option Salt)
  ack : Bytes → Option IdentifyPeerAck
  withMyID : Bytes → Option IdentifyPeerWithMyID
  challengeAck : Bytes → Option IdentifyPeerWithMyIDChallengeAck
  checkMember : Bytes → Option OpCheckMember
  checkMemberAck : Bytes → Option OpCheckMemberAck

structure Below where
  identify : IdentifyInput
  /-- What is left to do for an entity. -/
  call : CodeHandler → Entity → Except Err Unit
  /-- The hash and the time of the log of a member; a member may have none. -/
  memberLog : Entity → PttID → Except Err (Option (Bytes × Timestamp))
  /-- The key of a join, and that of a join request of the node. -/
  joinKey : Address → Except Err OpKeyInfo
  joinRequest : Address → Except Err OpKeyInfo
  finish_ne : identify.finish ≠ .error .panic
  call_ne (h : CodeHandler) (e : Entity) : call h e ≠ .error .panic
  memberLog_ne (e : Entity) (id : PttID) : memberLog e id ≠ .error .panic
  joinKey_ne (hash : Address) : joinKey hash ≠ .error .panic
  joinRequest_ne (hash : Address) : joinRequest hash ≠ .error .panic

def orError {α : Type} (e : Err) : Option α → Except Err α
  | none => .error e
  | some a => .ok a

def deref {α : Type} (a : Option α) : Except Err α := orError .panic a

namespace MessageCtx

variable (Γ : MessageCtx)

def openMessage (myNodeID : NodeID) (code : CodeType) (data : RouterData) : Except Err (Address × Bytes) :=
  if data.node ≠ myNodeID.bytes.1 then .error .invalidData
  else if Γ.keccak256 data.evWithSalt ≠ data.checksum then .error .invalidData
  else if data.evWithSalt.length < 32 then .error .panic
  else
    match Γ.event (data.evWithSalt.take (data.evWithSalt.length - 32)) with
    | none => .error .json
    | some ev =>
      if ev.code ≠ code ∨ code < CodeType.requireHash ∧ (copyToAddress ev.hash).1 ≠ data.hash then .error .invalidData
      else .ok (copyToAddress ev.hash, ev.encData)

def reachesDoer (pubKeyBytes : Bytes) : Option KeyExtraInfo → Bool
  | none => Γ.unmarshalPubkey pubKeyBytes
  | some k =>
    match (JsonCodec.dec k.data : Option KeyBIP32) with
    | none => false
    | some b => k.keyType == keyTypeBIP32 && Γ.unmarshalPubkey b.parent

end MessageCtx

namespace Router

variable (Γ : MessageCtx) (x : Below) (r : Router) (p : PttPeer)

def ackResult (entityID : PttID) (data : IdentifyPeerAck) : Except Err Unit :=
  if data.myID.isSome then (handleIdentifyPeerAck Γ.toCtx (some entityID) data p x.identify).1
  else
    match p.idChallenge, data.ackChallenge with
    | some challenge, some ackChallenge =>
      if ackChallenge.length + data.spare < 32 then .error .panic
      else if challenge.1 ≠ (ackChallenge ++ List.replicate data.spare 0).take 32 then .error .invalidData
      else if Γ.reachesDoer data.pubBytes data.extra then .error .panic
      else .error .invalidKey
    | _, _ => .error .invalidData

def pmHandleMessageWrapper (h : CodeHandler) (e : Entity) (hash : Address) (encData : Bytes) : Except Err Unit := do
  let key ← e.getOpKeyFromHash hash
  let d ← Γ.decryptData encData key
  if d.1 = identifyPeerMsg then
    let challenge ← orError .json (Γ.challenge d.2)
    (r.pmHandleIdentifyPeer Γ.toCtx e challenge p x.identify).result
  else if d.1 = identifyPeerAckMsg then
    let data ← orError .json (Γ.ack d.2)
    ackResult Γ x p e.id data
  else x.call h e

def checkMemberLog (e : Entity) (id : Option PttID) (log : ReceivedOplog) : Except Err Unit := do
  let id ← deref id
  let own ← x.memberLog e id
  let stored ← deref own
  if stored.1 = log.hash then .ok () else if stored.2.isLess log.updateTS then x.call .opCheckMember e else .ok ()

def verifyLog (log : Option ReceivedOplog) : Except Err ReceivedOplog := do
  let o ← deref log
  o.verify
  .ok o

def checkTheirLog (e : Entity) (log : ReceivedOplog) : Except Err Unit :=
  if e.status ≤ .alive then checkMemberLog x e p.userID log else .ok ()

def handleOpCheckMember (encData : Bytes) : Except Err Unit := do
  let data ← orError .json (Γ.checkMember encData)
  let id ← deref data.entityID
  let e ← orError .invalidID (r.entities id)
  let myLog ← verifyLog data.myLog
  let theirLog ← verifyLog data.theirLog
  checkTheirLog x p e myLog
  checkMemberLog x e (r.myEntity.map MyEntity.id) theirLog

def handleOpCheckMemberAck (encData : Bytes) : Except Err Unit := do
  let data ← orError .json (Γ.checkMemberAck encData)
  let id ← deref data.entityID
  let e ← orError .invalidID (r.entities id)
  let _ ← verifyLog data.log
  x.call .opCheckMemberAck e

def opCheckMember (e : Entity) (userID : PttID) : Except Err Unit := do
  let me ← deref r.myEntity
  let myLog ← x.memberLog e me.id
  let theirLog ← x.memberLog e userID
  let _ ← deref myLog
  let _ ← deref theirLog
  .ok ()

def handleForEntity (h : CodeHandler) (encData : Bytes) (f : Entity → PttID → Except Err Unit) : Except Err Unit := do
  let userID ← orError .invalidID p.userID
  let entityID ← orError .json (Γ.entityID h encData)
  let id ← deref entityID
  let e ← orError .invalidID (r.entities id)
  f e userID

def handleForKey (h : CodeHandler) (hash : Address) (encData : Bytes) : Except Err Unit :=
  match r.getEntityFromHash (some hash) with
  | .error _ => .ok ()
  | .ok e => pmHandleMessageWrapper Γ x r p h e hash encData

def handleCode (hash : Address) (encData : Bytes) : CodeHandler → Except Err Unit
  | .join => do
    let key ← x.joinKey hash
    let _ ← Γ.decryptData encData key
    .ok ()
  | .joinAck => do
    let _ ← deref r.myEntity
    let key ← x.joinRequest hash
    let _ ← Γ.decryptData encData key
    .ok ()
  | .op => handleForKey Γ x r p .op hash encData
  | .identifyPeer => handleForKey Γ x r p .identifyPeer hash encData
  | .opFail => do
    let hash ← orError .json (Γ.hash encData)
    let _ ← orError .invalidID p.userID
    let e ← r.getEntityFromHash hash
    x.call .opFail e
  | .requestOpKey => handleForEntity Γ r p .requestOpKey encData fun e _ => x.call .requestOpKey e
  | .requestOpKeyAck => handleForEntity Γ r p .requestOpKeyAck encData fun e _ => x.call .requestOpKeyAck e
  | .entityDeleted => handleForEntity Γ r p .entityDeleted encData fun e _ => x.call .entityDeleted e
  | .requestOpKeyFail => handleForEntity Γ r p .requestOpKeyFail encData (opCheckMember x r)
  | .opCheckMember => handleOpCheckMember Γ x r p encData
  | .opCheckMemberAck => handleOpCheckMemberAck Γ x r encData
  | .identifyPeerFail => do
    let _ ← orError .json (Γ.hash encData)
    (r.identifyPeerWithMyID p x.identify).result
  | .identifyPeerWithMyID => do
    let data ← orError .json (Γ.withMyID encData)
    (r.handleIdentifyPeerWithMyID Γ.toCtx data.id data.challenge p x.identify).result
  | .identifyPeerWithMyIDChallenge => do
    let challenge ← orError .json (Γ.challenge encData)
    (r.handleIdentifyPeerWithMyIDChallenge Γ.toCtx challenge p x.identify).result
  | .identifyPeerWithMyIDChallengeAck => do
    let me ← orError .invalidEntity r.myEntity
    let data ← orError .json (Γ.challengeAck encData)
    if data.ackData.all fun ack => ack.myID.isSome then
      (r.handleIdentifyPeerWithMyIDChallengeAck Γ.toCtx data.challenge data.ackData p x.identify).result
    else
      let ack ← deref data.ackData
      ackResult Γ x p me.id ack
  | .identifyPeerWithMyIDAck => do
    let me ← orError .invalidEntity r.myEntity
    let data ← orError .json (Γ.ack encData)
    ackResult Γ x p me.id data

def handleMessage (myNodeID : NodeID) (code : CodeType) (data : RouterData) : Except Err Unit := do
  let d ← Γ.openMessage myNodeID code data
  match code.handler with
  | none => .ok ()
  | some h => if handleCode Γ x r p d.1 d.2 h = .error .panic then .error .panic else .ok ()

end Router

end PttaiCore
