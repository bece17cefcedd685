import PttaiCore.Lemmas.Objects
import PttaiCore.ObjectAcks
import PttaiCore.PendingLogs

/-! # Runs of an object's updates -/

namespace PttaiCore

open Books

variable {δ : Type}

/-! ## The calls -/

inductive UpdateCall (δ : Type) where
  | updateLog (inp : UpdateInput) (oplog : BaseOplog)
  | pendingUpdateLog (signer : PendingSigner) (now : Timestamp) (inp : UpdateInput) (oplog : BaseOplog)
  | pendingDeleteLog (signer : PendingSigner) (now : Timestamp) (getData : Except Err Unit) (myID : PttID) (oplog : BaseOplog)
  | failedUpdateLog (oplog : BaseOplog)
  | failedDeleteLog (oplog : BaseOplog)
  | createObjectAck (ack : CreateAck δ)
  | createBlockAck (ack : BlockAck)
  | updateObjectAck (ack : UpdateAck)
  | updateBlockAck (ack : BlockAck)

def UpdateCall.exec (Γ : Ctx) (s : Books δ) : UpdateCall δ → Books δ
  | updateLog inp oplog => (s.handleOplog (handleUpdateObjectCore true inp) oplog).2
  | pendingUpdateLog signer now inp oplog =>
    (s.handlePendingOplog Γ signer now (handlePendingUpdateObjectLog inp) (handleUpdateObjectCore true inp) oplog).2
  | pendingDeleteLog signer now getData myID oplog =>
    (s.handlePendingOplog Γ signer now signPendingDeleteObjectLog (handleDeleteObjectLog getData myID) oplog).2
  | failedUpdateLog oplog => (handleFailedUpdateObjectLog oplog s).2
  | failedDeleteLog oplog => (handleFailedDeleteObjectLog oplog s).2
  | createObjectAck ack => (handleSyncCreateObjectAck ack s).2
  | createBlockAck ack => (handleSyncCreateBlockAck ack s).2
  | updateObjectAck ack => (handleSyncUpdateObjectAck ack s).2
  | updateBlockAck ack => (handleSyncUpdateBlockAck ack s).2

structure UpdateTarget where
  op : UInt32
  id : PttID

namespace UpdateTarget

variable (t : UpdateTarget)

def Updates (o : BaseOplog) : Prop := o.op = t.op ∧ o.objID = some t.id

instance (o : BaseOplog) : Decidable (t.Updates o) := inferInstanceAs (Decidable (_ ∧ _))

def Valid (o : BaseOplog) : Prop := t.Updates o ∧ o.toStatus = .alive

def Right (s : Books δ) : Prop :=
  ∀ obj, s.objs.get t.id = some obj → obj.status = .alive → obj.syncInfo = none →
    ∀ i o, s.logs.get i = some o → t.Valid o → o.isSync = true → obj.updateTS.isLess o.updateTS = false

def Start (s : Books δ) : Prop :=
  (∃ obj, s.objs.get t.id = some obj ∧ ¬ .deleted ≤ obj.status ∧ obj.syncInfo = none) ∧
    (∀ i o, s.logs.get i = some o → o.id = i ∧ ¬ t.Updates o)

/-! ## The calls that are meant -/

def LegalUpdate (s : Books δ) (inp : UpdateInput) (o : BaseOplog) : Prop :=
  t.Updates o ∧ o.isSync = false ∧ o.isNewer = false ∧ inp.getData ≠ .error .newerOplog ∧ inp.content ≠ .error .newerOplog ∧
    ∀ v, s.logs.get o.id = some v → t.Updates v

def LegalSigner (signer : InternalSigner) : Prop := ∀ u, t.Updates (signer.sign u) → t.Updates u

def Legal (s : Books δ) : UpdateCall δ → Prop
  | .updateLog inp o => t.LegalUpdate s inp o ∧ o.toStatus = .alive
  | .pendingUpdateLog _ _ inp o => t.LegalUpdate s inp o ∧ o.toStatus ≠ .alive
  | .pendingDeleteLog _ _ _ _ o => o.objID = some t.id ∧ o.op ≠ t.op ∧ o.isSync = false ∧ o.toStatus ≠ .alive ∧
      ∀ v, s.logs.get o.id = some v → ¬ t.Updates v
  | .failedUpdateLog o => o.objID = some t.id
  | .failedDeleteLog o => o.objID = some t.id
  | .createObjectAck ack => ack.id = t.id ∧ t.LegalSigner ack.signer
  | .createBlockAck ack => ack.id = t.id ∧ t.LegalSigner ack.signer
  | .updateObjectAck ack => ack.id = t.id
  | .updateBlockAck ack => ack.id = t.id

/-! ## The calls that lose nothing -/

structure FitsUpdate (inp : UpdateInput) (o : BaseOplog) (obj : Object δ) (s : Books δ) : Prop where
  /-- The log that has been applied last is stored as synced. -/
  last : obj.updateLogID = some o.id → s.Synced o.id
  /-- If another log than an updating one waits, the log is not newer than the object. -/
  deleting (sync : SyncInfo) : obj.syncInfo = some sync →
    statusToStatusClass sync.status < .alive ∨ o.updateTS.order ≤ obj.updateTS.order
  /-- A valid log that waits is not newer than the one that takes its place. -/
  waiting (sync : SyncInfo) (u : BaseOplog) : obj.syncInfo = some sync → s.logs.get sync.logID = some u → t.Valid u →
    sync.logID = o.id ∨ obj.updateTS.order ≤ o.updateTS.order →
    u.updateTS.order ≤ o.updateTS.order ∧ ∀ v, s.logs.get o.id = some v → v.toStatus = .alive → u.updateTS.order ≤ v.updateTS.order
  /-- If a pending version of the log is stored as synced and the log is newer than the object, it can be processed. -/
  readable (v : BaseOplog) : s.logs.get o.id = some v → v.toStatus ≠ .alive → v.isSync = true →
    obj.updateTS.order < o.updateTS.order → obj.logID = o.preLogID ∧ inp.getData = .ok () ∧ (∃ content, inp.content = .ok content) ∧
      ∀ sync, obj.syncInfo = some sync → s.logs.get sync.logID ≠ none

structure FitsPendingUpdate (Γ : Ctx) (signer : PendingSigner) (now : Timestamp) (o : BaseOplog) (obj : Object δ) (s : Books δ) : Prop where
  last : obj.updateLogID = some o.id → s.Synced o.id
  /-- No other log that waits is valid. -/
  waiting (sync : SyncInfo) (u : BaseOplog) : obj.syncInfo = some sync → sync.logID ≠ o.id → s.logs.get sync.logID = some u → ¬ t.Valid u
  /-- A pending version that is stored as synced is not made valid by the signatures of the two. -/
  pending (v : BaseOplog) : s.logs.get o.id = some v → v.toStatus ≠ .alive → v.isSync = true →
    (s.integrateOplog Γ signer now o).oplog.toStatus ≠ .alive

def NoneWaits (obj : Object δ) (s : Books δ) : Prop :=
  ∀ sync u, obj.syncInfo = some sync → s.logs.get sync.logID = some u → ¬ t.Valid u

def KeepsTime (signer : InternalSigner) (obj : Object δ) (u : BaseOplog) : Prop :=
  obj.updateTS.order ≤ u.updateTS.order ∧ obj.updateTS.order ≤ (setOplogIsSync signer u).updateTS.order

def Fits (Γ : Ctx) (s : Books δ) (c : UpdateCall δ) : Prop :=
  ∀ obj, s.objs.get t.id = some obj →
    match c with
    | .updateLog inp o => ¬ .deleted ≤ obj.status → t.FitsUpdate inp o obj s
    | .pendingUpdateLog signer now _ o => ¬ .deleted ≤ obj.status → t.FitsPendingUpdate Γ signer now o obj s
    | .pendingDeleteLog _ _ _ _ _ => t.NoneWaits obj s
    | .failedUpdateLog o => (∃ sync, obj.syncInfo = some sync ∧ sync.logID = o.id) → t.NoneWaits obj s
    | .failedDeleteLog o => (∃ sync, obj.syncInfo = some sync ∧ sync.logID = o.id) → t.NoneWaits obj s
    | .createObjectAck ack => obj.isGood = false → ¬ .deleted ≤ obj.status ∧
        ∀ logID u, ack.logID = some logID → s.logs.get logID = some u → u.isSync = false → ¬ t.Updates u ∧ KeepsTime ack.signer obj u
    | .createBlockAck ack => obj.isAllGood = false → ¬ .deleted ≤ obj.status ∧
        ∀ logID u, obj.logID = some logID → s.logs.get logID = some u → ¬ t.Updates u ∧ KeepsTime ack.signer obj u
    | .updateObjectAck ack => ∀ sync u, obj.syncInfo = some sync → ack.logID = some sync.logID → s.logs.get sync.logID = some u →
        obj.updateTS.order ≤ (setOplogIsSync ack.signer u).updateTS.order
    | .updateBlockAck ack => ∀ sync u, obj.syncInfo = some sync → s.logs.get sync.logID = some u →
        obj.updateTS.order ≤ (setOplogIsSync ack.signer u).updateTS.order

end UpdateTarget

end PttaiCore
