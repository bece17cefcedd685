import PttaiCore.OplogStore
import PttaiCore.SyncInfo

/-! # Objects, persons and the oplogs about them -/

namespace PttaiCore

structure Object (δ : Type) where
  createTS : Timestamp
  updateTS : Timestamp
  creatorID : PttID
  updaterID : PttID
  logID : Option PttID
  updateLogID : Option PttID
  status : Status
  isGood : Bool
  isAllGood : Bool
  blockInfo : Option BlockInfo
  syncInfo : Option SyncInfo
  data : δ
  deriving DecidableEq

namespace Object

variable {δ : Type} (obj : Object δ) (oplog : BaseOplog)

def newObjectWithOplog (data : δ) : Object δ :=
  { createTS := oplog.updateTS, updateTS := .zero, creatorID := oplog.creatorID, updaterID := oplog.creatorID, logID := some oplog.id
    updateLogID := none, status := .internalSync, isGood := false, isAllGood := false, blockInfo := none, syncInfo := none, data }

def setNewObjectWithOplog : Object δ :=
  { obj with
    createTS := oplog.updateTS, logID := some oplog.id, status := oplog.toStatus, updateTS := oplog.updateTS
    updaterID := oplog.creatorID }

def setUpdateObjectWithOplog : Object δ :=
  { obj with status := .alive, updateLogID := some oplog.id, updateTS := oplog.updateTS, updaterID := oplog.creatorID }

def setDeleteObjectWithOplog (status : Status) : Object δ :=
  { obj with status, logID := some oplog.id, updateTS := oplog.updateTS, updaterID := oplog.creatorID, syncInfo := none }

def checkIsAllGood : Bool × Object δ :=
  if obj.isAllGood then (true, obj)
  else if !obj.isGood then (false, obj)
  else if obj.blockInfo.any fun b => !b.getIsAllGood then (false, obj)
  else (true, { obj with isAllGood := true, blockInfo := obj.blockInfo.map BlockInfo.noteIsAllGood })

def newestLogID : Option PttID := obj.updateLogID <|> obj.logID

end Object

structure Books (δ : Type) where
  objs : KeyStore PttID (Object δ)
  logs : KeyStore PttID BaseOplog

namespace Books

variable {δ : Type} (s : Books δ)

/-! ## The stores -/

def getObj (id : PttID) : Except Err (Object δ) := (s.objs.get id).elim (.error .notFound) .ok

def saveObj (id : PttID) (obj : Object δ) : Books δ := { s with objs := s.objs.put id obj }

def deleteObj (id : PttID) : Books δ := { s with objs := s.objs.delete id }

def getLog (id : PttID) : Except Err BaseOplog := (s.logs.get id).elim (.error .notFound) .ok

def saveLog (oplog : BaseOplog) : Except Err Unit × Books δ :=
  if oplog.masterLogID.isNone && (s.logs.get oplog.id).any fun orig => decide (oplog.toStatus < orig.toStatus) then
    (.error .invalidOplog, s)
  else (.ok (), { s with logs := s.logs.put oplog.id oplog.notNewer })

def deleteLog (id : PttID) : Books δ := { s with logs := s.logs.delete id }

def removeNonSyncOplog (logID : PttID) (isRetainValid : Bool) (newUpdateTS : Timestamp) : Except Err Unit × Books δ :=
  match s.getLog logID with
  | .error e => (.error e, s)
  | .ok oplog =>
    if oplog.isSync && oplog.toStatus == .alive then (.ok (), s)
    else if isRetainValid && oplog.toStatus == .alive && oplog.updateTS.isLess newUpdateTS then
      (.ok (), (s.saveLog { oplog with isSync := true }).2)
    else (.ok (), s.deleteLog logID)

def removeBlockAndMediaInfoBySyncInfo (syncInfo : SyncInfo) (oplog : BaseOplog) (isRetainValid : Bool) : Except Err Unit × Books δ :=
  if syncInfo.logID = oplog.id then (.error .busy, s) else s.removeNonSyncOplog syncInfo.logID isRetainValid oplog.updateTS

def replaceSyncInfo (isReplace : Option SyncInfo → Status → Timestamp → PttID → Bool) (obj : Object δ) (oplog : BaseOplog)
    (status : Status) (isSameKept : Bool) : Except Err Unit × Books δ :=
  match obj.syncInfo with
  | none => (.ok (), s)
  | some sync =>
    if isReplace (some sync) status oplog.updateTS oplog.id && !(isSameKept && decide (sync.logID = oplog.id)) then
      s.removeBlockAndMediaInfoBySyncInfo sync oplog true
    else (.ok (), s)

/-! ## Accepting an oplog -/

structure Selected (δ : Type) where
  result : Except Err (Bool × Bool)
  oplog : BaseOplog
  books : Books δ

def selectExisting (o : BaseOplog) : Selected δ :=
  match s.getLog o.id with
  | .error .notFound => ⟨.ok (false, true), o, s⟩
  | .error e => ⟨.error e, o, s⟩
  | .ok orig =>
    let oplogIsSync := o.isSync || (decide (o.toStatus ≤ orig.toStatus) && orig.isSync)
    let o' := { o with isNewer := false, extra := orig.extra, isSync := oplogIsSync || orig.isSync }
    let restore (o' : BaseOplog) : BaseOplog := { o' with isSync := oplogIsSync, isNewer := o.isNewer }
    let forceSave (isToBroadcast : Bool) : Selected δ :=
      let r := s.saveLog o'
      ⟨r.1.map fun _ => (orig.isSync, isToBroadcast), restore o', r.2⟩
    let keep : Selected δ := ⟨.ok (orig.isSync, false), restore (o'.takeOver orig), s⟩
    if o.hash = orig.hash then ⟨.ok (orig.isSync, false), restore o', s⟩
    else if o.masterLogID.isNone then ⟨.error .invalidOplog, restore o', s⟩
    else if orig.masterLogID.isNone then { forceSave true with result := .ok (orig.isSync, true) }
    else if o.updateTS.isLess orig.updateTS then forceSave true
    else if orig.updateTS.isLess o.updateTS then keep
    else if o.hash < orig.hash then forceSave true
    else keep

abbrev Handler (δ : Type) : Type := BaseOplog → Books δ → Option Err × BaseOplog × Books δ

def handleOplog (processLog : Handler δ) (o : BaseOplog) : Option Err × Books δ :=
  let sel := s.selectExisting o
  match sel.result with
  | .error e => (some e, sel.books)
  | .ok (origIsSync, _) =>
    if sel.oplog.isSync then (none, sel.books)
    else
      let (err, o, s) := processLog sel.oplog sel.books
      let (err, o) := if err = some .newerOplog then (none, { o with isSync := true }) else (err, o)
      match err with
      | some e => (some e, s)
      | none =>
        let r := s.saveLog { o with isSync := o.isSync || origIsSync }
        match r.1 with
        | .error .invalidUpdateTS | .ok _ => (none, r.2)
        | .error e => (some e, r.2)

/-! ## Saving an object with its oplog -/

def saveNewObjectWithOplog (id : PttID) (obj : Object δ) (oplog : BaseOplog) : BaseOplog × Object δ × Books δ :=
  if obj.isAllGood then
    ({ oplog with isSync := true }, obj.setNewObjectWithOplog oplog, s.saveObj id (obj.setNewObjectWithOplog oplog))
  else (oplog, obj, s.saveObj id obj)

def saveUpdateObjectWithOplog (id : PttID) (obj : Object δ) (oplog : BaseOplog) : BaseOplog × Object δ × Books δ :=
  ({ oplog with isSync := true }, obj.setUpdateObjectWithOplog oplog, s.saveObj id (obj.setUpdateObjectWithOplog oplog))

def saveDeleteObjectWithOplog (id : PttID) (obj : Object δ) (oplog : BaseOplog) (status : Status) : BaseOplog × Books δ :=
  ({ oplog with isSync := true }, s.saveObj id (obj.setDeleteObjectWithOplog oplog status))

end Books

end PttaiCore
