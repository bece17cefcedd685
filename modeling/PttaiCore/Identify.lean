import PttaiCore.Router

/-! # Identification of the user at the other end of a connection -/

namespace PttaiCore

structure IdentifyPeerAck where
  ackChallenge : Option Bytes
  /-- How many bytes the slice of a received answer has behind its end; they are zero. -/
  spare : Nat
  hash : Bytes
  sig : Bytes
  pubBytes : Bytes
  extra : Option KeyExtraInfo
  myID : Option PttID
  deriving DecidableEq

inductive IdentifyMsg where
  | identifyPeer (hash : Address) (challenge : Option Salt)
  | identifyPeerAck (hash : Address) (data : IdentifyPeerAck)
  | identifyPeerFail (hash : Option Address)
  | identifyPeerWithMyID (id : Option PttID) (challenge : Option Salt)
  | identifyPeerWithMyIDChallenge (challenge : Option Salt)
  | identifyPeerWithMyIDChallengeAck (challenge : Option Salt) (ackData : Option IdentifyPeerAck)
  | identifyPeerWithMyIDAck (data : IdentifyPeerAck)
  deriving DecidableEq

namespace IdentifyMsg

def ackData : IdentifyMsg → Option IdentifyPeerAck
  | .identifyPeerAck _ data | .identifyPeerWithMyIDAck data => some data
  | .identifyPeerWithMyIDChallengeAck _ data => data
  | .identifyPeer _ _ | .identifyPeerFail _ | .identifyPeerWithMyID _ _ | .identifyPeerWithMyIDChallenge _ => none

def challenge : IdentifyMsg → Option Salt
  | .identifyPeer _ c | .identifyPeerWithMyID _ c | .identifyPeerWithMyIDChallenge c | .identifyPeerWithMyIDChallengeAck c _ => c
  | .identifyPeerAck _ _ | .identifyPeerFail _ | .identifyPeerWithMyIDAck _ => none

end IdentifyMsg

structure IdentifyInput where
  /-- The salts it draws: for a challenge, and for a signature. -/
  challengeSalt : Salt
  signSalt : Salt
  /-- The key the protocol manager sends with. -/
  opKey : Option Address
  /-- What registering an identified peer gives, and the peer's type and registration after it. -/
  finish : Except Err Unit
  finishPeerType : PeerType
  finishIsRegistered : Bool

structure IdentifyOutcome where
  result : Except Err Unit
  peer : PttPeer
  generated : List Salt
  sent : List IdentifyMsg

def PttPeer.give (p : PttPeer) (result : Except Err Unit) : IdentifyOutcome := ⟨result, p, [], []⟩

def PttPeer.finishIdentifyPeer (p : PttPeer) (i : IdentifyInput) : Except Err Unit × PttPeer :=
  if p.isRegistered then (.ok (), p)
  else (i.finish, { p with peerType := i.finishPeerType, isRegistered := i.finishIsRegistered })

@[simp] theorem PttPeer.userID_finishIdentifyPeer (p : PttPeer) (i : IdentifyInput) :
    (p.finishIdentifyPeer i).2.userID = p.userID := by
  unfold finishIdentifyPeer
  split <;> rfl

@[simp] theorem PttPeer.idChallenge_finishIdentifyPeer (p : PttPeer) (i : IdentifyInput) :
    (p.finishIdentifyPeer i).2.idChallenge = p.idChallenge := by
  unfold finishIdentifyPeer
  split <;> rfl

namespace Router

/-! ## Challenges and answers -/

def identifyPeer (entityID : Option PttID) (p : PttPeer) (isForce : Bool) (i : IdentifyInput)
    (mk : Salt → List IdentifyMsg) : IdentifyOutcome :=
  match p.initID entityID isForce i.challengeSalt with
  | (.error e, p') => p'.give (.error e)
  | (.ok salt, p') => ⟨.ok (), p', [salt], mk salt⟩

def identifyPeerAck (Γ : Ctx) (r : Router) (challenge : Option Salt) (i : IdentifyInput) : Except Err IdentifyPeerAck :=
  match r.myEntity with
  | none => .error .invalidEntity
  | some me =>
    match me.signKey, challenge with
    | none, _ => .error .invalidKey
    | some _, none => .error .panic
    | some key, some challenge =>
      let s := signData Γ challenge.1 key i.signSalt
      .ok ⟨some (challenge.1 ++ s.salt.1), 0, s.hash, s.sig, s.pubBytes, key.extra.map KeyBIP32.toExtra, some me.id⟩

def handleIdentifyPeerAck (Γ : Ctx) (entityID : Option PttID) (data : IdentifyPeerAck) (p : PttPeer) (i : IdentifyInput) :
    Except Err Unit × PttPeer :=
  match p.idChallenge, data.ackChallenge with
  | some challenge, some ackChallenge =>
    if ackChallenge.length + data.spare < 32 then (.error .panic, p)
    else if challenge.1 ≠ (ackChallenge ++ List.replicate data.spare 0).take 32 then (.error .invalidData, p)
    else match data.myID with
      | none => (.error .panic, p)
      | some myID =>
        match verifyData Γ ackChallenge data.hash data.sig data.pubBytes myID data.extra with
        | .error e => (.error e, p)
        | .ok () =>
          if p.userID.isSome then (.ok (), p)
          else (PttPeer.finishID { p with userID := some myID } entityID).finishIdentifyPeer i
  | _, _ => (.error .invalidData, p)

/-! ## For an entity -/

def pmSend (i : IdentifyInput) (mk : Address → IdentifyMsg) : List IdentifyMsg := (i.opKey.map mk).toList

def pmIdentifyPeer (e : Entity) (p : PttPeer) (i : IdentifyInput) : IdentifyOutcome :=
  if p.userID.isSome then p.give (.ok ())
  else { identifyPeer (some e.id) p false i (fun salt => pmSend i fun hash => .identifyPeer hash (some salt)) with
    result := .ok () }

def pmIdentifyPeerAck (Γ : Ctx) (r : Router) (e : Entity) (challenge : Option Salt) (p : PttPeer) (i : IdentifyInput) :
    IdentifyOutcome :=
  match r.identifyPeerAck Γ challenge i with
  | .error err => p.give (.error err)
  | .ok ackData =>
    let o := pmIdentifyPeer e p i
    { o with sent := pmSend i (fun hash => .identifyPeerAck hash ackData) ++ o.sent }

def pmHandleIdentifyPeer (Γ : Ctx) (r : Router) (e : Entity) (challenge : Option Salt) (p : PttPeer) (i : IdentifyInput) :
    IdentifyOutcome :=
  if .alive < e.status then p.give (.error .alreadyDeleted) else r.pmIdentifyPeerAck Γ e challenge p i

def identifyPeerFail (hash : Address) (o : IdentifyOutcome) : IdentifyOutcome :=
  { o with sent := o.sent ++ [.identifyPeerFail (some hash)] }

def handleCodeIdentifyPeer (Γ : Ctx) (r : Router) (hash : Address) (challenge : Option Salt) (p : PttPeer) (i : IdentifyInput) :
    IdentifyOutcome :=
  match r.getEntityFromHash (some hash) with
  | .error _ => identifyPeerFail hash (p.give (.ok ()))
  | .ok e =>
    match e.getOpKeyFromHash hash with
    | .error err => identifyPeerFail hash (p.give (.error err))
    | .ok _ =>
      let o := r.pmHandleIdentifyPeer Γ e challenge p i
      match o.result with
      | .ok () => o
      | .error _ => identifyPeerFail hash o

def handleCodeOp (Γ : Ctx) (r : Router) (hash : Address) (data : IdentifyPeerAck) (p : PttPeer) (i : IdentifyInput) :
    IdentifyOutcome :=
  match r.getEntityFromHash (some hash) with
  | .error _ => p.give (.ok ())
  | .ok e =>
    match e.getOpKeyFromHash hash with
    | .error err => p.give (.error err)
    | .ok _ =>
      let x := handleIdentifyPeerAck Γ (some e.id) data p i
      x.2.give x.1

/-! ## With the node's own identifier -/

def identifyPeerWithMyID (r : Router) (p : PttPeer) (i : IdentifyInput) : IdentifyOutcome :=
  match r.myEntity with
  | none => p.give (.error .invalidEntity)
  | some me =>
    match p.initID (some me.id) true i.challengeSalt with
    | (.error e, p') => p'.give (.error e)
    | (.ok salt, p') => ⟨.ok (), { p' with idEntityID := none }, [salt], [.identifyPeerWithMyID (some me.id) (some salt)]⟩

def identifyPeerWithMyIDAck (Γ : Ctx) (r : Router) (challenge : Option Salt) (p : PttPeer) (i : IdentifyInput) :
    IdentifyOutcome :=
  match r.identifyPeerAck Γ challenge i with
  | .error err => p.give (.error err)
  | .ok ackData => ⟨.ok (), p, [], [.identifyPeerWithMyIDAck ackData]⟩

def handleIdentifyPeerWithMyID (Γ : Ctx) (r : Router) (id : Option PttID) (challenge : Option Salt) (p : PttPeer)
    (i : IdentifyInput) : IdentifyOutcome :=
  match p.userID with
  | some userID =>
    if some userID ≠ id then p.give (.error .invalidID) else r.identifyPeerWithMyIDAck Γ challenge p i
  | none => identifyPeer id p true i fun salt => [.identifyPeerWithMyIDChallenge (some salt)]

def handleIdentifyPeerWithMyIDChallenge (Γ : Ctx) (r : Router) (challenge : Option Salt) (p : PttPeer) (i : IdentifyInput) :
    IdentifyOutcome :=
  match r.identifyPeerAck Γ challenge i with
  | .error err => p.give (.error err)
  | .ok ackData => ⟨.ok (), p, [], [.identifyPeerWithMyIDChallengeAck p.idChallenge (some ackData)]⟩

def handleIdentifyPeerWithMyIDChallengeAck (Γ : Ctx) (r : Router) (challenge : Option Salt) (ackData : Option IdentifyPeerAck)
    (p : PttPeer) (i : IdentifyInput) : IdentifyOutcome :=
  match r.myEntity, ackData with
  | none, _ => p.give (.error .invalidEntity)
  | some _, none => p.give (.error (if p.idChallenge.isSome then .panic else .invalidData))
  | some me, some data =>
    match handleIdentifyPeerAck Γ (some me.id) data p i with
    | (.error e, p') => p'.give (.error e)
    | (.ok (), p') => if p'.peerType = .random then p'.give (.ok ()) else r.identifyPeerWithMyIDAck Γ challenge p' i

def handleIdentifyPeerWithMyIDAck (Γ : Ctx) (r : Router) (data : IdentifyPeerAck) (p : PttPeer) (i : IdentifyInput) :
    IdentifyOutcome :=
  match r.myEntity with
  | none => p.give (.error .invalidEntity)
  | some me =>
    let x := handleIdentifyPeerAck Γ (some me.id) data p i
    x.2.give x.1

/-! ## Dispatch -/

def handleIdentifyMsg (Γ : Ctx) (r : Router) (p : PttPeer) (i : IdentifyInput) : IdentifyMsg → IdentifyOutcome
  | .identifyPeer hash challenge => r.handleCodeIdentifyPeer Γ hash challenge p i
  | .identifyPeerAck hash data => r.handleCodeOp Γ hash data p i
  | .identifyPeerFail _ => r.identifyPeerWithMyID p i
  | .identifyPeerWithMyID id challenge => r.handleIdentifyPeerWithMyID Γ id challenge p i
  | .identifyPeerWithMyIDChallenge challenge => r.handleIdentifyPeerWithMyIDChallenge Γ challenge p i
  | .identifyPeerWithMyIDChallengeAck challenge data => r.handleIdentifyPeerWithMyIDChallengeAck Γ challenge data p i
  | .identifyPeerWithMyIDAck data => r.handleIdentifyPeerWithMyIDAck Γ data p i

end Router

end PttaiCore
