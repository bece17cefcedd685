import PttaiCore.Objects

/-! # Objects: the handlers of their oplogs -/

namespace PttaiCore

open Books

variable {δ : Type}

/-! ## Creating -/

structure CreateInput (δ : Type) where
  getData : Except Err Unit
  /-- Whether the same batch of logs says that the object is gone. -/
  existsInInfo : Except Err Bool
  newObj : Option δ

def handleCreateObjectNewLog (inp : CreateInput δ) (id : PttID) : Handler δ := fun oplog s =>
  match inp.existsInInfo with
  | .error e => (some e, oplog, s)
  | .ok true => (none, oplog, s)
  | .ok false =>
    match inp.newObj with
    | none => (some .invalidOplog, oplog, s)
    | some data => (none, oplog, s.saveObj id (Object.newObjectWithOplog oplog data))

def handleCreateObjectSameLog (id : PttID) (obj : Object δ) : Handler δ := fun oplog s =>
  if obj.status = .internalSync then (none, oplog, s)
  else if oplog.toStatus < obj.status ∨ oplog.toStatus = obj.status ∧ obj.updateTS.isLessEqual oplog.updateTS then
    (some .newerOplog, oplog, s)
  else
    let r := s.saveNewObjectWithOplog id obj oplog
    (none, r.1, r.2.2)

def handleCreateObjectLogCore (inp : CreateInput δ) : Handler δ := fun oplog s =>
  match inp.getData, oplog.objID with
  | .error e, _ => (some e, oplog, s)
  | .ok _, none => (some .panic, oplog, s)
  | .ok _, some id =>
    match s.objs.get id with
    | none => handleCreateObjectNewLog inp id oplog s
    | some obj =>
      -- a failed object gives way to a valid log
      if obj.status = .failed ∧ oplog.masterLogID.isSome then handleCreateObjectNewLog inp id oplog (s.deleteObj id)
      else if obj.newestLogID = some oplog.id then handleCreateObjectSameLog id obj oplog s
      else (some .newerOplog, oplog, s)

/-! ## Updating -/

structure UpdateInput where
  getData : Except Err Unit
  content : Except Err (Option BlockInfo × Bool)

def syncInfoFromOplog (oplog : BaseOplog) (content : Option BlockInfo × Bool) : SyncInfo :=
  { SyncInfo.initWithOplog .internalSync oplog with blockInfo := content.1, isGood := content.2 }

def SyncInfo.toObject (sync : SyncInfo) (obj : Object δ) : Object δ :=
  { obj with
    status := sync.status, updateTS := sync.updateTS, updaterID := sync.updaterID, blockInfo := sync.blockInfo, isGood := true
    isAllGood := true, syncInfo := none, updateLogID := some sync.logID }

def handleUpdateObjectNewLog (id : PttID) (obj : Object δ) (newSyncInfo : SyncInfo) (oplog : BaseOplog) (s : Books δ) :
    SyncInfo × Object δ × BaseOplog × Books δ :=
  let (isAllGood, sync) := newSyncInfo.checkIsAllGood
  if isAllGood && oplog.toStatus == .alive then
    let r := s.saveUpdateObjectWithOplog id (sync.toObject obj) oplog
    (sync, r.2.1, r.1, r.2.2)
  else
    let sync := if isAllGood then { sync with status := oplog.toStatus } else sync
    let obj := { obj with syncInfo := some sync }
    (sync, obj, oplog, s.saveObj id obj)

def handleUpdateObjectSameLog (id : PttID) (obj : Object δ) (origSyncInfo : SyncInfo) (oplog : BaseOplog) (s : Books δ) :
    SyncInfo × Object δ × BaseOplog × Books δ :=
  handleUpdateObjectNewLog id { obj with syncInfo := none } origSyncInfo oplog s

def handleUpdateObjectWithNewSyncInfo (isRetainValid : Bool) (id : PttID) (obj : Object δ) (newSyncInfo : SyncInfo) : Handler δ :=
  fun oplog s =>
    match obj.syncInfo with
    | none => (none, (handleUpdateObjectNewLog id obj newSyncInfo oplog s).2.2)
    | some sync =>
      if !isReplaceOrigSyncInfo (some sync) oplog.toStatus oplog.updateTS oplog.id then (some .newerOplog, oplog, s)
      else if sync.logID = oplog.id then (none, (handleUpdateObjectSameLog id obj sync oplog s).2.2)
      else
        match s.removeBlockAndMediaInfoBySyncInfo sync oplog isRetainValid with
        | (.error e, s) => (some e, oplog, s)
        | (.ok _, s) => (none, (handleUpdateObjectNewLog id { obj with syncInfo := none } newSyncInfo oplog s).2.2)

def handleUpdateObjectCore (isRetainValid : Bool) (inp : UpdateInput) : Handler δ := fun oplog s =>
  match oplog.objID with
  | none => (some .panic, oplog, s)
  | some id =>
    match s.objs.get id with
    | none => (some .newerOplog, oplog, s)
    | some obj =>
      if .deleted ≤ obj.status then (some .newerOplog, oplog, s)
      else if obj.logID ≠ oplog.preLogID then (some .invalidPreLog, oplog, s)
      else if obj.updateLogID = some oplog.id then (none, oplog, s.saveObj id { obj with updateTS := oplog.updateTS })
      else if oplog.updateTS.isLess obj.updateTS then (some .newerOplog, oplog, s)
      else if oplog.isNewer then (some .newerOplog, oplog, s)
      else
        match inp.getData, inp.content with
        | .error e, _ => (some e, oplog, s)
        | .ok _, .error e => (some e, oplog, s)
        | .ok _, .ok content => handleUpdateObjectWithNewSyncInfo isRetainValid id obj (syncInfoFromOplog oplog content) oplog s

def handleFailedUpdateObjectLog (oplog : BaseOplog) (s : Books δ) : Option Err × Books δ :=
  match oplog.objID with
  | none => (some .panic, s)
  | some id =>
    match s.objs.get id with
    | none => (none, s)
    | some obj =>
      match obj.syncInfo with
      | none => (none, s)
      | some sync =>
        if sync.logID ≠ oplog.id then (none, s)
        else if oplog.updateTS.isLess sync.updateTS then (none, s)
        else (none, s.saveObj id { obj with syncInfo := none })

def handleFailedDeleteObjectLog (oplog : BaseOplog) (s : Books δ) : Option Err × Books δ := handleFailedUpdateObjectLog oplog s

/-! ## Deleting -/

def deleteStatus (oplog : BaseOplog) : Status := statusToDeleteStatus oplog.toStatus .internalDeleted .pendingDeleted .deleted

def handleDeleteObjectLogCore (myID : PttID) (id : PttID) (obj : Object δ) : Handler δ := fun oplog s =>
  match s.replaceSyncInfo isReplaceOrigSyncInfo obj oplog (deleteStatus oplog) true with
  | (.error e, s) => (some e, oplog, s)
  | (.ok _, s) =>
    if obj.status < .alive ∧ myID ≠ oplog.creatorID then (some .skipOplog, oplog, s.deleteObj id)
    else (none, s.saveDeleteObjectWithOplog id obj oplog .deleted)

def handleDeleteObjectLog (getData : Except Err Unit) (myID : PttID) : Handler δ := fun oplog s =>
  match getData, oplog.objID with
  | .error e, _ => (some e, oplog, s)
  | .ok _, none => (some .panic, oplog, s)
  | .ok _, some id =>
    match s.objs.get id with
    | none => (some .newerOplog, oplog, s)
    | some obj =>
      if .deleted ≤ obj.status then
        if oplog.updateTS.isLess obj.updateTS then (some .newerOplog, s.saveDeleteObjectWithOplog id obj oplog .deleted)
        else (some .newerOplog, oplog, s)
      else handleDeleteObjectLogCore myID id obj oplog s

def handlePendingDeleteObjectLogCore (id : PttID) (obj : Object δ) : Handler δ := fun oplog s =>
  if !isReplaceOrigSyncInfo obj.syncInfo (deleteStatus oplog) oplog.updateTS oplog.id then (some .alreadyPending, oplog, s)
  else
    let r : Except Err Unit × Books δ :=
      match obj.syncInfo with
      | none => (.ok (), s)
      | some sync => if sync.logID = oplog.id then (.ok (), s) else s.removeBlockAndMediaInfoBySyncInfo sync oplog false
    match r with
    | (.error e, s) => (some e, oplog, s)
    | (.ok _, s) => (none, oplog, s.saveObj id { obj with syncInfo := some (SyncInfo.initWithOplog (deleteStatus oplog) oplog) })

def handlePendingDeleteObjectLog : Handler δ := fun oplog s =>
  match oplog.objID with
  | none => (some .panic, oplog, s)
  | some id =>
    match s.objs.get id with
    | none => (some .newerOplog, oplog, s)
    | some obj =>
      if obj.status = .deleted then (some .newerOplog, oplog, s) else handlePendingDeleteObjectLogCore id obj oplog s

structure DeleteInput where
  /-- The statuses of the entity and of the own one. -/
  entityStatus : Status
  myStatus : Status
  myID : PttID
  isMaster : Bool
  newOplog : Except Err BaseOplog
  signOplog : BaseOplog → Except Err BaseOplog

def deleteObject (inp : DeleteInput) (id : PttID) (s : Books δ) : Option Err × Books δ :=
  if inp.entityStatus ≠ .alive ∨ inp.myStatus ≠ .alive then (some .invalidStatus, s)
  else
    match s.objs.get id with
    | none => (some .notFound, s)
    | some obj =>
      if .deleted ≤ obj.status then (none, s)
      else if inp.myID ≠ obj.creatorID ∧ inp.isMaster = false then (some .invalidID, s)
      else
        match inp.newOplog.bind fun oplog =>
          inp.signOplog (if obj.status = .alive then { oplog with preLogID := obj.logID } else oplog) with
        | .error e => (some e, s)
        | .ok oplog =>
          let core : Handler δ :=
            if .deleted ≤ deleteStatus oplog then handleDeleteObjectLogCore inp.myID id obj else handlePendingDeleteObjectLogCore id obj
          match core oplog s with
          | (some e, _, s) => (some e, s)
          | (none, oplog, s) =>
            match s.saveLog oplog with
            | (.error e, s) => (some e, s)
            | (.ok _, s) => (none, s)

end PttaiCore
