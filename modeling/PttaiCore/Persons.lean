import PttaiCore.Objects

/-! # Persons: the handlers of their oplogs -/

namespace PttaiCore

namespace Books

variable {δ : Type} (s : Books δ)

def savePerson (id : PttID) (person : Object δ) (oplog : BaseOplog) : BaseOplog × Books δ :=
  let r := s.saveNewObjectWithOplog id { person with syncInfo := none, isGood := true, isAllGood := true } oplog
  (r.1, r.2.2)

end Books

variable {δ : Type}

open Books

/-! ## Adding -/

def handleCreatePersonLog (data : δ) : Handler δ := fun oplog s =>
  match oplog.objID with
  | none => (some .panic, oplog, s)
  | some id =>
    if (s.objs.get id).any fun person => oplog.updateTS.isLess person.updateTS then (some .newerOplog, oplog, s)
    else (none, s.savePerson id (Object.newObjectWithOplog oplog data) oplog)

def handleUpdatePersonLogCore (id : PttID) (person : Object δ) : Handler δ := fun oplog s =>
  match s.replaceSyncInfo isReplaceOrigSyncPersonInfo person oplog .alive false with
  | (.error e, s) => (some e, oplog, s)
  | (.ok _, s) => (none, s.savePerson id person oplog)

def handleUpdatePersonLog : Handler δ := fun oplog s =>
  match oplog.objID with
  | none => (some .panic, oplog, s)
  | some id =>
    match s.getObj id with
    | .error e => (some e, oplog, s)
    | .ok person =>
      if oplog.updateTS.isLess person.updateTS then (some .newerOplog, oplog, s)
      else if person.status = .alive then
        if person.updateTS.isLess oplog.updateTS then (none, s.savePerson id person oplog)
        else (some .newerOplog, oplog, s)
      else if .migrated ≤ person.status then (some .newerOplog, oplog, s)
      else handleUpdatePersonLogCore id person oplog s

def handleAddMemberLog (data : δ) : Handler δ := fun oplog s =>
  if oplog.objID.any fun id => (s.objs.get id).isNone then handleCreatePersonLog data oplog s else handleUpdatePersonLog oplog s

/-! ## Deleting -/

def handleDeletePersonLogCore (status : Status) (id : PttID) (person : Object δ) : Handler δ := fun oplog s =>
  match s.replaceSyncInfo isReplaceOrigSyncPersonInfo person oplog status true with
  | (.error e, s) => (some e, oplog, s)
  | (.ok _, s) => (none, s.saveDeleteObjectWithOplog id person oplog status)

def handleDeletePersonLog (status : Status) : Handler δ := fun oplog s =>
  match oplog.objID with
  | none => (some .panic, oplog, s)
  | some id =>
    match s.getObj id with
    | .error e => (some e, oplog, s)
    | .ok person =>
      if oplog.updateTS.isLess person.updateTS then (some .newerOplog, oplog, s)
      else if person.status = .deleted then (some .newerOplog, oplog, s)
      else if .migrated ≤ person.status then (some .newerOplog, oplog, s)
      else handleDeletePersonLogCore status id person oplog s

/-! ## Transferring -/

inductive TransferKind where
  | transfer | migrate
  deriving DecidableEq, Repr

def TransferKind.statusTransferred : TransferKind → Status
  | .transfer => .transferred
  | .migrate => .migrated

def posttransferUpdatePerson (id : PttID) (person : Object δ) : Handler δ := fun oplog s =>
  if person.status = .alive then (none, oplog, s)
  else if .migrated ≤ person.status then (some .alreadyDeleted, oplog, s)
  else
    let r := s.saveUpdateObjectWithOplog id person oplog
    (none, r.1, r.2.2)

def posttransferPerson (newPerson : PttID → Except Err (Object δ)) (toID : PttID) : Handler δ := fun oplog s =>
  match s.objs.get toID with
  | some person => posttransferUpdatePerson toID person oplog s
  | none =>
    match newPerson toID with
    | .error e => (some e, oplog, s)
    | .ok person =>
      let r := s.saveNewObjectWithOplog toID { person with isGood := true, isAllGood := true } oplog
      (none, r.1, r.2.2)

def handleTransferPersonLogCore (kind : TransferKind) (newPerson : PttID → Except Err (Object δ)) (toID : Option PttID)
    (fromID : PttID) (person : Object δ) : Handler δ := fun oplog s =>
  match s.replaceSyncInfo isReplaceOrigSyncPersonInfo person oplog kind.statusTransferred false with
  | (.error e, s) => (some e, oplog, s)
  | (.ok _, s) =>
    let (oplog, s) := s.saveDeleteObjectWithOplog fromID person oplog kind.statusTransferred
    match toID with
    | none => (some .panic, oplog, s)
    | some toID => if toID = fromID then (none, oplog, s) else (none, (posttransferPerson newPerson toID oplog s).2)

def handleTransferPersonLog (kind : TransferKind) (newPerson : PttID → Except Err (Object δ)) (toID : Option PttID) : Handler δ :=
  fun oplog s =>
    match oplog.objID with
    | none => (some .panic, oplog, s)
    | some fromID =>
      match s.getObj fromID with
      | .error _ => (some .newerOplog, oplog, s)
      | .ok person =>
        if person.logID ≠ oplog.preLogID then (some .invalidPreLog, oplog, s)
        else if person.status = kind.statusTransferred then
          if oplog.updateTS.isLess person.updateTS then
            let r := s.saveUpdateObjectWithOplog fromID person oplog
            (some .newerOplog, r.1, r.2.2)
          else (some .newerOplog, oplog, s)
        else handleTransferPersonLogCore kind newPerson toID fromID person oplog s

end PttaiCore
