import PttaiCore.Objects

/-! # Entities and the oplogs that end them -/

namespace PttaiCore

structure EntityRecord where
  createTS : Timestamp
  updateTS : Timestamp
  status : Status
  logID : Option PttID
  updaterID : PttID
  syncInfo : Option SyncInfo
  deriving DecidableEq

def setNewEntityWithOplog (entity : EntityRecord) (status : Status) (oplog : BaseOplog) : EntityRecord :=
  { entity with createTS := oplog.updateTS, status, updateTS := oplog.updateTS, logID := some oplog.id, updaterID := oplog.creatorID }

def Books.dropSyncInfo {δ : Type} (s : Books δ) (entity : EntityRecord) (oplog : BaseOplog) : Except Err Unit × Books δ :=
  match entity.syncInfo with
  | none => (.ok (), s)
  | some sync => if sync.logID ≠ oplog.id then s.removeBlockAndMediaInfoBySyncInfo sync oplog true else (.ok (), s)

def handleDeleteEntityLog {δ : Type} (getData : BaseOplog → Except Err Unit) (status : Status) (oplog : BaseOplog) (entity : EntityRecord)
    (s : Books δ) : Option Err × BaseOplog × EntityRecord × Books δ :=
  match getData oplog with
  | .error e => (some e, oplog, entity, s)
  | .ok _ =>
    let statusClass := statusToStatusClass status
    let origStatusClass := statusToStatusClass entity.status
    if origStatusClass = statusClass then
      if oplog.updateTS.isLess entity.updateTS then (some .newerOplog, oplog, setNewEntityWithOplog entity status oplog, s)
      else (some .newerOplog, oplog, entity, s)
    else if .deleted ≤ origStatusClass then (some .newerOplog, oplog, entity, s)
    else
      match s.dropSyncInfo entity oplog with
      | (.error e, s) => (some e, oplog, entity, s)
      | (.ok _, s) => (none, { oplog with isSync := true }, setNewEntityWithOplog { entity with syncInfo := none } status oplog, s)

/-! ## The entity of a user -/

section me

variable {δ : Type} (getData : BaseOplog → Except Err Unit)

def handleDeleteMeLog : BaseOplog → EntityRecord → Books δ → Option Err × BaseOplog × EntityRecord × Books δ :=
  handleDeleteEntityLog getData .deleted

def handleMigrateMeLog : BaseOplog → EntityRecord → Books δ → Option Err × BaseOplog × EntityRecord × Books δ :=
  handleDeleteEntityLog getData .migrated

end me

end PttaiCore
