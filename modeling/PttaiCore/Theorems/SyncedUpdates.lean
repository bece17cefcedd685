import PttaiCore.Lemmas.UpdateAcks
import PttaiCore.Lib.Trace

/-! # Whether a synced update of an object is lost -/

namespace PttaiCore

open Books KeyStore Trace

variable {δ : Type}

namespace SyncedUpdatesAux

open UpdateTarget

variable {t : UpdateTarget} {s : Books δ}

/-! ### The runs -/

theorem inv_exec {Γ : Ctx} (s : Books δ) (c : UpdateCall δ) (h : t.Inv s) (hc : t.Legal s c ∧ t.Fits Γ s c) : t.Inv (c.exec Γ s) := by
  obtain ⟨hlegal, hfits⟩ := hc
  cases c with
  | updateLog inp o => exact inv_updateLog h hlegal.1 hlegal.2 fun obj hobj => hfits obj hobj.1 hobj.2
  | pendingUpdateLog signer now inp o => exact inv_pendingUpdateLog h hlegal.1 hlegal.2 fun obj hobj => hfits obj hobj.1 hobj.2
  | pendingDeleteLog signer now getData myID o =>
    obtain ⟨hobj, hop, hsync, hne, hstored⟩ := hlegal
    exact inv_pendingDeleteLog getData myID h hobj hop hsync hne hstored hfits
  | failedUpdateLog o => exact inv_failedLog h hlegal hfits
  | failedDeleteLog o => exact inv_failedLog h hlegal hfits
  | createObjectAck ack => exact inv_createObjectAck h hlegal.1 hlegal.2 hfits
  | createBlockAck ack => exact inv_createBlockAck h hlegal.1 hlegal.2 hfits
  | updateObjectAck ack => exact inv_updateObjectAck h hlegal hfits
  | updateBlockAck ack => exact inv_updateBlockAck h hlegal hfits

theorem inv_start (h : t.Start s) : t.Inv s := by
  obtain ⟨⟨obj, hget, hopen, -⟩, hlogs⟩ := h
  exact inv_of_open (fun i o ho => (hlogs i o ho).1) ⟨hget, hopen⟩ fun i w hw => absurd hw.2.1.1 (hlogs i w hw.1).2

theorem right_of_inv (h : t.Inv s) : t.Right s := by
  intro obj hget halive hnone i o ho hvalid hs
  have hopen : ¬ .deleted ≤ obj.status := by
    rw [halive]
    decide
  rw [Timestamp.isLess_eq_false_iff]
  refine Covers.le_of_noneWaits (Inv.covers h ⟨hget, hopen⟩ ⟨ho, hvalid, hs⟩) fun sync u hsync => ?_
  rw [hnone] at hsync
  cases hsync

end SyncedUpdatesAux

/-- In a run of calls about an object that all fit, at no time a valid updating log that is stored as synced is newer than the object while
the object is alive and nothing waits. -/
theorem UpdateTarget.synced_updates_kept_of_fits (t : UpdateTarget) (Γ : Ctx) (s : Books δ) (calls : List (UpdateCall δ)) (hstart : t.Start s)
    (hlegal : Trace.Always (UpdateCall.exec Γ) s calls t.Legal) (hfits : Trace.Always (UpdateCall.exec Γ) s calls (t.Fits Γ)) :
    Trace.Everywhere (UpdateCall.exec Γ) s calls t.Right := by
  have hinv : Trace.Everywhere (UpdateCall.exec Γ) s calls t.Inv :=
    (Trace.always_and.2 ⟨hlegal, hfits⟩).invariant (SyncedUpdatesAux.inv_start hstart) SyncedUpdatesAux.inv_exec
  exact fun before rest heq => SyncedUpdatesAux.right_of_inv (hinv before rest heq)

namespace SyncedUpdatesWitness

open UpdateTarget

def idOf (b : UInt8) : PttID := ByteArrayOf.replicate 40 b

def ctx : Ctx where
  keccak256Hash _ := ByteArrayOf.replicate 32 0
  cryptoSign _ _ := []
  verifySignature _ _ _ := true
  isSamePubKey _ _ := true
  childPubKey _ _ _ := none
  expireOplogSeconds := 300

def own : OwnKeys where
  myID := idOf 1
  signKey := ⟨[], [], none⟩
  nodeSignID := idOf 1
  nodeSignKey := ⟨[], [], none⟩
  isMaster := false
  isValidInternalOplog _ := false
  isValidOplog _ := (none, 0, false)
  internalTS := .zero
  internalSalt := ByteArrayOf.replicate 32 0
  masterTS := .zero
  masterSalt := ByteArrayOf.replicate 32 0

def obj : Object Unit where
  createTS := ⟨5, 0⟩
  updateTS := ⟨5, 0⟩
  creatorID := idOf 2
  updaterID := idOf 2
  logID := some (idOf 3)
  updateLogID := none
  status := .alive
  isGood := true
  isAllGood := true
  blockInfo := none
  syncInfo := none
  data := ()

def books : Books Unit := ⟨KeyStore.empty.put (idOf 7) obj, KeyStore.empty⟩

def target : UpdateTarget := ⟨8, idOf 7⟩

def log (id : UInt8) (op : UInt32) (sec : Int64) : BaseOplog :=
  { BaseOplog.new (idOf id) (some (idOf 7)) ⟨sec, 0⟩ (idOf 2) op none with
    isSync := false, preLogID := some (idOf 3), updateTS := ⟨sec, 0⟩
    masterSigns := [⟨idOf 2, ⟨sec, 0⟩, [], ByteArrayOf.replicate 32 0, [], [], none⟩] }

def deletion : BaseOplog := log 4 9 10

def update : BaseOplog := { log 5 8 20 with masterLogID := some (idOf 6) }

def lost : List (UpdateCall Unit) :=
  [.pendingDeleteLog (PendingSigner.default ctx own) .zero (.ok ()) (idOf 1) deletion, .updateLog ⟨.ok (), .ok (none, true)⟩ update,
    .failedDeleteLog deletion]

theorem start : target.Start books := by
  have hobj : books.objs.get target.id = some obj := by rw [books, target, get_put, if_pos rfl]
  refine ⟨⟨obj, hobj, by decide, rfl⟩, fun i o h => ?_⟩
  rw [show books.logs = KeyStore.empty from rfl, get_empty] at h
  cases h

theorem lost_run :
    (UpdateCall.exec ctx books (.pendingDeleteLog (PendingSigner.default ctx own) .zero (.ok ()) (idOf 1) deletion)).logs.get update.id = none ∧
      (Trace.after (UpdateCall.exec ctx) books lost).objs.get target.id = some obj ∧
      (Trace.after (UpdateCall.exec ctx) books lost).logs.get update.id = some { update with isSync := true } := by
  decide +kernel

theorem lost_legal : Trace.Always (UpdateCall.exec ctx) books lost target.Legal := by
  refine always_cons.2 ⟨⟨rfl, by decide, rfl, by decide, fun v hv => ?_⟩,
    always_cons.2 ⟨⟨⟨⟨rfl, rfl⟩, rfl, rfl, ?_, ?_, fun v hv => ?_⟩, by decide⟩, always_cons.2 ⟨rfl, always_nil⟩⟩⟩
  · rw [show books.logs = KeyStore.empty from rfl, get_empty] at hv
    cases hv
  · simp
  · simp
  · rw [lost_run.1] at hv
    cases hv

def pendingUpdate : BaseOplog := log 9 8 15

variable (o : BaseOplog)

def unsigned : BaseOplog := o

theorem unsigned_id : (unsigned o).id = o.id := rfl

theorem unsigned_isSync : (unsigned o).isSync = o.isSync := rfl

theorem unsigned_of_alive (_ : o.toStatus = .alive) : unsigned o = o := rfl

def noSigner : InternalSigner := ⟨unsigned, unsigned_id, unsigned_isSync, unsigned_of_alive⟩

def pendingCall : UpdateCall Unit := .pendingUpdateLog (PendingSigner.default ctx own) .zero ⟨.ok (), .ok (none, false)⟩ pendingUpdate

def updateCall : UpdateCall Unit := .updateLog ⟨.ok (), .ok (none, false)⟩ update

def ackCall : UpdateCall Unit := .updateObjectAck ⟨noSigner, idOf 7, some (idOf 5), fun _ _ => .ok none⟩

def kept : List (UpdateCall Unit) := [pendingCall, updateCall, ackCall]

def waiting : Object Unit := { obj with syncInfo := some (syncInfoFromOplog o (none, false)) }

theorem kept_run :
    ((pendingCall.exec ctx books).objs.get target.id = some (waiting pendingUpdate) ∧
        (pendingCall.exec ctx books).logs.get pendingUpdate.id = some pendingUpdate ∧
        (pendingCall.exec ctx books).logs.get update.id = none) ∧
      ((updateCall.exec ctx (pendingCall.exec ctx books)).objs.get target.id = some (waiting update) ∧
        (updateCall.exec ctx (pendingCall.exec ctx books)).logs.get update.id = some update) ∧
      ((Trace.after (UpdateCall.exec ctx) books kept).objs.get target.id).map Object.updateTS = some update.updateTS := by
  decide +kernel

theorem kept_legal : Trace.Always (UpdateCall.exec ctx) books kept target.Legal := by
  refine always_cons.2 ⟨⟨⟨⟨rfl, rfl⟩, rfl, rfl, by simp, by simp, fun v hv => ?_⟩, by decide⟩,
    always_cons.2 ⟨⟨⟨⟨rfl, rfl⟩, rfl, rfl, by simp, by simp, fun v hv => ?_⟩, by decide⟩, always_cons.2 ⟨rfl, always_nil⟩⟩⟩
  · rw [show books.logs = KeyStore.empty from rfl, get_empty] at hv
    cases hv
  · rw [kept_run.1.2.2] at hv
    cases hv

theorem kept_fits : Trace.Always (UpdateCall.exec ctx) books kept (target.Fits ctx) := by
  obtain ⟨⟨hfirst, hpending, hnone⟩, ⟨hsecond, hupdate⟩, -⟩ := kept_run
  refine always_cons.2 ⟨fun obj' h _ => ?_, always_cons.2 ⟨fun obj' h _ => ?_,
    always_cons.2 ⟨fun obj' h sync u hsync _ hu => ?_, always_nil⟩⟩⟩
  · rw [books, target, get_put, if_pos rfl] at h
    cases h
    refine ⟨fun hl => (by cases hl), fun sync u hsync => (by cases hsync), fun v hv => ?_⟩
    rw [show books.logs = KeyStore.empty from rfl, get_empty] at hv
    cases hv
  · cases hfirst.symm.trans h
    refine ⟨fun hl => (by cases hl), fun sync hsync => ?_, fun sync u hsync hu hvalid => ?_, fun v hv => ?_⟩
    · cases hsync
      exact .inl (by decide)
    · -- the log that waits is pending
      cases hsync
      cases hpending.symm.trans hu
      exact absurd hvalid.2 (by decide)
    · rw [hnone] at hv
      cases hv
  · cases hsecond.symm.trans h
    cases hsync
    cases hupdate.symm.trans hu
    exact (Timestamp.isLess_eq_false_iff _ _).1 (by decide)

end SyncedUpdatesWitness

open SyncedUpdatesWitness in
/-- A pending update waits, a valid one takes its place and is applied when its content comes. -/
theorem synced_updates_kept_of_fits_three :
    target.Start books ∧ Trace.Always (UpdateCall.exec ctx) books kept target.Legal ∧
      Trace.Always (UpdateCall.exec ctx) books kept (target.Fits ctx) ∧
      Trace.Everywhere (UpdateCall.exec ctx) books kept target.Right ∧
      ((Trace.after (UpdateCall.exec ctx) books kept).objs.get target.id).map Object.updateTS = some update.updateTS :=
  ⟨start, kept_legal, kept_fits, target.synced_updates_kept_of_fits ctx books kept start kept_legal kept_fits, kept_run.2.2⟩

open SyncedUpdatesWitness UpdateTarget in
/-- An update that arrives while a pending deletion waits is stored as synced without being applied; the deletion fails, and the object is
alive, with nothing that waits, and older than the update. -/
theorem synced_update_is_lost :
    target.Start books ∧ Trace.Always (UpdateCall.exec ctx) books lost target.Legal ∧
      (Trace.after (UpdateCall.exec ctx) books lost).objs.get target.id = some obj ∧ obj.status = .alive ∧ obj.syncInfo = none ∧
      (Trace.after (UpdateCall.exec ctx) books lost).logs.get update.id = some { update with isSync := true } ∧ target.Valid update ∧
      obj.updateTS.isLess update.updateTS = true ∧ ¬ target.Right (Trace.after (UpdateCall.exec ctx) books lost) := by
  obtain ⟨-, hobj, hlog⟩ := lost_run
  have hvalid : target.Valid update := ⟨⟨rfl, rfl⟩, by decide⟩
  refine ⟨start, lost_legal, hobj, rfl, rfl, hlog, hvalid, by decide, fun hright => ?_⟩
  exact absurd (hright obj hobj rfl rfl update.id _ hlog hvalid rfl) (by decide)

end PttaiCore
