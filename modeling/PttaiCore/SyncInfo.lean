import PttaiCore.Blocks
import PttaiCore.Oplog

/-! # Sync infos: the pending change of an object -/

namespace PttaiCore

inductive StatusClass where
  | invalid | internalPendingAlive | pendingAlive | alive | failed | internalDelete | pendingDelete | internalTerminal
  | pendingTerminal | deleted | terminal
  deriving DecidableEq, Repr

namespace StatusClass

def toNat (c : StatusClass) : Nat := c.ctorIdx

theorem toNat_injective : Function.Injective toNat := by
  intro a b
  cases a <;> cases b <;> decide

instance linearOrder : LinearOrder StatusClass := LinearOrder.lift' toNat toNat_injective

end StatusClass

def statusToStatusClass : Status → StatusClass
  | .invalid => .invalid
  | .init | .internalSync | .internalPending => .internalPendingAlive
  | .pending | .sync => .pendingAlive
  | .toBeSynced | .alive => .alive
  | .failed => .failed
  | .internalDeleted | .internalRevoke | .internalTransfer => .internalDelete
  | .internalMigrate | .internalTerminal => .internalTerminal
  | .pendingDeleted | .pendingRevoke | .pendingTransfer => .pendingDelete
  | .pendingMigrate | .pendingTerminal => .pendingTerminal
  | .deleted | .revoked | .transferred => .deleted
  | .migrated | .terminal => .terminal

def statusToDeleteStatus (status internalPendingStatus pendingStatus aliveStatus : Status) : Status :=
  match status with
  | .internalPending => internalPendingStatus
  | .pending => pendingStatus
  | .alive => aliveStatus
  | s => s

structure SyncInfo where
  logID : PttID
  updateTS : Timestamp
  updaterID : PttID
  status : Status
  blockInfo : Option BlockInfo
  isGood : Bool
  isAllGood : Bool
  deriving DecidableEq

def BlockInfo.noteIsAllGood (b : BlockInfo) : BlockInfo :=
  if b.nBlock ≠ 0 ∧ b.getIsAllGood then { b with isAllGood := true } else b

namespace SyncInfo

def initWithOplog (status : Status) (oplog : BaseOplog) : SyncInfo :=
  { logID := oplog.id, updateTS := oplog.updateTS, updaterID := oplog.creatorID, status, blockInfo := none, isGood := false
    isAllGood := false }

def checkIsAllGood (s : SyncInfo) : Bool × SyncInfo :=
  if s.isAllGood then (true, s)
  else if !s.isGood then (false, s)
  else if s.blockInfo.any fun b => !b.getIsAllGood then (false, s)
  else (true, { s with isAllGood := true, blockInfo := s.blockInfo.map BlockInfo.noteIsAllGood })

def isReplaced (lower : StatusClass → StatusClass) (syncInfo : Option SyncInfo) (status : Status) (ts : Timestamp) (newLogID : PttID) :
    Bool :=
  match syncInfo with
  | none => true
  | some s =>
    let statusClass := statusToStatusClass status
    let syncStatusClass := lower (statusToStatusClass s.status)
    if statusClass < syncStatusClass then false
    else if syncStatusClass < statusClass then true
    else if s.updateTS.isLess ts then false
    else if ts.isLess s.updateTS then true
    else decide (newLogID.1 < s.logID.1)

end SyncInfo

def lowerTerminal : StatusClass → StatusClass
  | .internalTerminal => .internalDelete
  | .pendingTerminal => .pendingDelete
  | .terminal => .deleted
  | c => c

def lowerDelete : StatusClass → StatusClass
  | .internalDelete => .internalPendingAlive
  | .pendingDelete => .pendingAlive
  | .deleted => .alive
  | c => c

def isReplaceOrigSyncInfo : Option SyncInfo → Status → Timestamp → PttID → Bool := SyncInfo.isReplaced lowerTerminal

def isReplaceOrigSyncPersonInfo : Option SyncInfo → Status → Timestamp → PttID → Bool := SyncInfo.isReplaced lowerDelete

theorem lowerTerminal_le (c : StatusClass) : lowerTerminal c ≤ c := by cases c <;> decide

theorem lowerDelete_le (c : StatusClass) : lowerDelete c ≤ c := by cases c <;> decide

end PttaiCore
