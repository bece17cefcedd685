import PttaiCore.Router

/-! # The exchange of operation keys -/

namespace PttaiCore

inductive OpKeyMsg where
  | opFail (hash : Option Address)
  | requestOpKey (entityID : Option PttID) (opKeys : List OpKeyInfo) (opKeyLogs : List BaseOplog)
  | requestOpKeyAck (entityID : Option PttID) (opKeys : List OpKeyInfo) (logs : List BaseOplog)
  | requestOpKeyFail (entityID : Option PttID)
  | entityDeleted (entityID : Option PttID) (status : Status)

namespace OpKeyMsg

def entityID : OpKeyMsg → Option PttID
  | .opFail _ => none
  | .requestOpKey id _ _ | .requestOpKeyAck id _ _ | .requestOpKeyFail id | .entityDeleted id _ => id

def opKeys : OpKeyMsg → List OpKeyInfo
  | .requestOpKey _ ks _ | .requestOpKeyAck _ ks _ => ks
  | .opFail _ | .requestOpKeyFail _ | .entityDeleted _ _ => []

end OpKeyMsg

structure OpKeyOutcome where
  result : Except Err Unit
  router : Router
  sent : List OpKeyMsg

namespace Router

def give (r : Router) (result : Except Err Unit) : OpKeyOutcome := ⟨result, r, []⟩

def sendDataToPeer (r : Router) (m : OpKeyMsg) : OpKeyOutcome := ⟨.ok (), r, [m]⟩

/-! ## Asking -/

def requestOpKeyByEntity (r : Router) (e : Entity) : OpKeyOutcome :=
  match e.opKeyOplogList with
  | .error err => r.give (.error err)
  | .ok logs => r.sendDataToPeer (.requestOpKey (some e.id) e.opKeyList logs)

def requestOpKey (r : Router) (hash : Option Address) (p : PttPeer) : OpKeyOutcome :=
  match p.userID with
  | none => r.give (.error .invalidID)
  | some _ =>
    match r.getEntityFromHash hash with
    | .error err => r.give (.error err)
    | .ok e => r.requestOpKeyByEntity e

def handleOpFail (r : Router) (hash : Option Address) (p : PttPeer) : OpKeyOutcome := r.requestOpKey hash p

def syncOplog (r : Router) (e : Entity) (now : Timestamp) (p : PttPeer) (sync : Except Err Unit) : OpKeyOutcome :=
  if !p.isRegistered then r.give (.ok ())
  else match r.myEntity with
    | none => r.give (.error .panic)
    | some me =>
      if me.status ≠ .alive then r.give (.ok ())
      else if e.status ≠ .alive then r.give (.ok ())
      else match e.getOldestOpKey now with
        | (.error _, e') => (r.setEntity e').requestOpKeyByEntity e'
        | (.ok _, e') => (r.setEntity e').give sync

/-! ## Answering -/

def requestOpKeyFail (r : Router) (entityID : PttID) : OpKeyOutcome := r.sendDataToPeer (.requestOpKeyFail (some entityID))

def requestOpKeyAck (r : Router) (entityID : PttID) (p : PttPeer) : OpKeyOutcome :=
  match r.entities entityID with
  | none => r.give (.error .invalidID)
  | some e =>
    if e.getPeerType p < .member then r.requestOpKeyFail entityID
    else match e.opKeyOplogList with
      | .error err => r.give (.error err)
      | .ok logs => r.sendDataToPeer (.requestOpKeyAck (some entityID) e.opKeyList logs)

def entityTerminal (r : Router) (e : Entity) : OpKeyOutcome := r.sendDataToPeer (.entityDeleted (some e.id) e.status)

def handleRequestOpKey (r : Router) (entityID : Option PttID) (absorb : Router → Router) (p : PttPeer) : OpKeyOutcome :=
  match p.userID, entityID with
  | none, _ => r.give (.error .invalidID)
  | some _, none => r.give (.error .panic)
  | some _, some id =>
    match r.entities id with
    | none => r.give (.error .invalidID)
    | some e =>
      if .migrated ≤ e.status then r.entityTerminal e
      else (absorb r).requestOpKeyAck id p

def handleRequestOpKeyAck (r : Router) (entityID : Option PttID) (absorb : Router → Router) (p : PttPeer) : OpKeyOutcome :=
  match p.userID, entityID with
  | none, _ => r.give (.error .invalidID)
  | some _, none => r.give (.error .panic)
  | some _, some id =>
    match r.entities id with
    | none => r.give (.error .invalidID)
    | some _ => (absorb r).give (.ok ())

end Router

end PttaiCore
