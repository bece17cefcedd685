import PttaiCore.Lib.Trace
import PttaiCore.Lemmas.ObjectLogs

/-! # Whether a deleted object stays so -/

namespace PttaiCore

open Books KeepsFrom KeyStore OnlyAt

variable {δ : Type}

inductive ObjectCall (δ : Type) where
  | createLog (inp : CreateInput δ) (oplog : BaseOplog)
  | updateLog (isRetainValid : Bool) (inp : UpdateInput) (oplog : BaseOplog)
  | deleteLog (getData : Except Err Unit) (myID : PttID) (oplog : BaseOplog)
  | pendingDeleteLog (oplog : BaseOplog)
  | deleteObject (inp : DeleteInput) (id : PttID)
  | createObjectAck (ack : CreateAck δ)
  | createBlockAck (ack : BlockAck)
  | updateObjectAck (ack : UpdateAck)
  | updateBlockAck (ack : BlockAck)
  | oplogs (logs : KeyStore PttID BaseOplog)

namespace ObjectCall

def exec (s : Books δ) : ObjectCall δ → Books δ
  | createLog inp oplog => (handleCreateObjectLogCore inp oplog s).2.2
  | updateLog isRetainValid inp oplog => (handleUpdateObjectCore isRetainValid inp oplog s).2.2
  | deleteLog getData myID oplog => (handleDeleteObjectLog getData myID oplog s).2.2
  | pendingDeleteLog oplog => (handlePendingDeleteObjectLog oplog s).2.2
  | deleteObject inp id => (PttaiCore.deleteObject inp id s).2
  | createObjectAck ack => (handleSyncCreateObjectAck ack s).2
  | createBlockAck ack => (handleSyncCreateBlockAck ack s).2
  | updateObjectAck ack => (handleSyncUpdateObjectAck ack s).2
  | updateBlockAck ack => (handleSyncUpdateBlockAck ack s).2
  | oplogs logs => { s with logs }

end ObjectCall

def RevivesByDeleteLog (oplog : BaseOplog) (obj : Object δ) : Prop :=
  .deleted < obj.status ∧ oplog.updateTS.isLess obj.updateTS = true

def CreateAck.Revives (ack : CreateAck δ) (oplog : BaseOplog) (obj : Object δ) : Prop :=
  .deleted ≤ obj.status ∧ oplog.isSync = false ∧ obj.isGood = false ∧
    if obj.updateLogID = none ∧ obj.logID = some oplog.id then ∃ obj', ack.received obj = .ok (true, obj')
    else obj.isAllGood = true ∧ (setOplogIsSync ack.signer { oplog with isSync := true }).toStatus = .alive

def BlockAck.RevivesObject (ack : BlockAck) (s : Books δ) (obj : Object δ) : Prop :=
  .deleted ≤ obj.status ∧ obj.isAllGood = false ∧
    (∃ b, ack.received obj.creatorID obj.blockInfo = .ok (some b) ∧ { obj with blockInfo := some b }.checkIsAllGood.1 = true) ∧
    ∃ logID, obj.logID = some logID ∧ s.logs.get logID ≠ none

def UpdateAck.Revives (ack : UpdateAck) (logID : PttID) (oplog : BaseOplog) (obj : Object δ) : Prop :=
  .deleted ≤ obj.status ∧ oplog.isSync = false ∧ obj.updateLogID ≠ some logID ∧
    (∃ sync blockInfo, obj.syncInfo = some sync ∧ sync.logID = logID ∧ sync.isGood = false ∧
      ack.updateSyncInfo sync oplog = .ok blockInfo ∧ { sync with blockInfo, isGood := true }.checkIsAllGood.1 = true) ∧
    (setOplogIsSync ack.signer oplog).toStatus = .alive

def BlockAck.RevivesSyncInfo (ack : BlockAck) (s : Books δ) (obj : Object δ) : Prop :=
  .deleted ≤ obj.status ∧ ∃ sync, obj.syncInfo = some sync ∧ sync.isAllGood = false ∧
    (∃ b, ack.received sync.updaterID sync.blockInfo = .ok (some b) ∧ { sync with blockInfo := some b }.checkIsAllGood.1 = true) ∧
    ∃ oplog, s.logs.get sync.logID = some oplog ∧ (setOplogIsSync ack.signer oplog).toStatus = .alive

def ObjectCall.Revives (s : Books δ) : ObjectCall δ → Prop
  | deleteLog getData _ oplog => getData = .ok () ∧ ∃ id, oplog.objID = some id ∧
      ∃ obj, s.objs.get id = some obj ∧ RevivesByDeleteLog oplog obj
  | createObjectAck ack => ∃ logID, ack.logID = some logID ∧ ∃ oplog, s.logs.get logID = some oplog ∧
      ∃ obj, s.objs.get ack.id = some obj ∧ ack.Revives oplog obj
  | createBlockAck ack => ∃ obj, s.objs.get ack.id = some obj ∧ ack.RevivesObject s obj
  | updateObjectAck ack => ∃ logID, ack.logID = some logID ∧ ∃ oplog, s.logs.get logID = some oplog ∧
      ∃ obj, s.objs.get ack.id = some obj ∧ ack.Revives logID oplog obj
  | updateBlockAck ack => ∃ obj, s.objs.get ack.id = some obj ∧ ack.RevivesSyncInfo s obj
  | _ => False

namespace ObjectFinalAux

variable {s s' : Books δ} {id : PttID} {obj obj' : Object δ} {o : BaseOplog}

theorem not_deleted_le_of_le_alive {status : Status} (h : status ≤ .alive) : ¬ .deleted ≤ status := by
  revert h
  cases status <;> decide

theorem keeps_of_open (honly : OnlyAt id s s') (hget : s.objs.get id = some obj) (hopen : ¬ .deleted ≤ obj.status) :
    KeepsFrom .deleted s s' := by
  refine (iff_of_onlyAt honly).2 fun p hp hle => ?_
  cases hget.symm.trans hp
  exact absurd hle hopen

theorem keeps_of_absent (honly : OnlyAt id s s') (hget : s.objs.get id = none) : KeepsFrom .deleted s s' :=
  (iff_of_onlyAt honly).2 fun p hp _ => by cases hget.symm.trans hp

theorem keeps_of_status (honly : OnlyAt id s s') (hget : s.objs.get id = some obj) (hget' : s'.objs.get id = some obj')
    (hstatus : obj'.status = obj.status) : KeepsFrom .deleted s s' := by
  refine (iff_of_onlyAt honly).2 fun p hp _ => ⟨obj', hget', ?_⟩
  cases hget.symm.trans hp
  rw [hstatus]
  exact Nat.le_refl _

theorem not_keeps (hget : s.objs.get id = some obj) (hdel : .deleted ≤ obj.status) (hget' : s'.objs.get id = some obj')
    (hstatus : obj'.status ≤ .alive) : ¬ KeepsFrom .deleted s s' := by
  intro hkeeps
  obtain ⟨p, hp, hle⟩ := hkeeps id obj hget hdel
  cases hget'.symm.trans hp
  exact not_deleted_le_of_le_alive hstatus (Nat.le_trans hdel hle)

/-! ## The handlers of oplogs -/

theorem handleCreateObjectNewLog_onlyAt (inp : CreateInput δ) : OnlyAt id s (handleCreateObjectNewLog inp id o s).2.2 := by
  unfold handleCreateObjectNewLog
  rcases inp.existsInInfo with e | b
  · exact of_objs_eq rfl
  · cases b with
    | true => exact of_objs_eq rfl
    | false =>
      cases inp.newObj with
      | none => exact of_objs_eq rfl
      | some data => exact of_put rfl

theorem keeps_createLog (inp : CreateInput δ) (o : BaseOplog) (s : Books δ) :
    KeepsFrom .deleted s (handleCreateObjectLogCore inp o s).2.2 := by
  unfold handleCreateObjectLogCore
  rcases inp.getData with e | u
  · exact KeepsFrom.refl _ s
  cases hobj : o.objID with
  | none => exact KeepsFrom.refl _ s
  | some id =>
    dsimp only
    cases hget : s.objs.get id with
    | none => exact keeps_of_absent (handleCreateObjectNewLog_onlyAt inp) hget
    | some obj =>
      dsimp only
      split_ifs with hfailed hsame
      · have honly : OnlyAt id s (handleCreateObjectNewLog inp id o (s.deleteObj id)).2.2 :=
          (of_delete rfl).trans (handleCreateObjectNewLog_onlyAt inp)
        exact keeps_of_open honly hget (by rw [hfailed.1]; decide)
      · unfold handleCreateObjectSameLog
        split_ifs with hsync hnewer
        · exact KeepsFrom.refl _ s
        · exact KeepsFrom.refl _ s
        · -- the object is not above the log, which is at most alive
          have hle : obj.status ≤ o.toStatus := Nat.not_lt.1 fun h => hnewer (.inl h)
          exact keeps_of_open (of_put (saveNewObjectWithOplog_objs s id obj o)) hget
            (not_deleted_le_of_le_alive (Nat.le_trans hle o.toStatus_le_alive))
      · exact KeepsFrom.refl _ s

theorem keeps_updateLog (b : Bool) (inp : UpdateInput) (o : BaseOplog) (s : Books δ) :
    KeepsFrom .deleted s (handleUpdateObjectCore b inp o s).2.2 := by
  unfold handleUpdateObjectCore
  cases hobj : o.objID with
  | none => exact KeepsFrom.refl _ s
  | some id =>
    dsimp only
    cases hget : s.objs.get id with
    | none => exact KeepsFrom.refl _ s
    | some obj =>
      dsimp only
      by_cases hdel : .deleted ≤ obj.status
      · rw [if_pos hdel]
        exact KeepsFrom.refl _ s
      refine keeps_of_open ?_ hget hdel
      split_ifs
      · exact of_objs_eq rfl
      · exact of_put rfl
      · exact of_objs_eq rfl
      · exact of_objs_eq rfl
      · rcases inp.getData with e | u
        · exact of_objs_eq rfl
        · rcases inp.content with e | content
          · exact of_objs_eq rfl
          · exact handleUpdateObjectWithNewSyncInfo_onlyAt b _

theorem keeps_pendingDeleteCore (hget : s.objs.get id = some obj) :
    KeepsFrom .deleted s (handlePendingDeleteObjectLogCore id obj o s).2.2 := by
  rcases handlePendingDeleteObjectLogCore_objs id obj o s with h | h
  · exact of_objs_eq h
  · have hget' : (handlePendingDeleteObjectLogCore id obj o s).2.2.objs.get id =
        some { obj with syncInfo := some (SyncInfo.initWithOplog (deleteStatus o) o) } := by
      rw [h, get_put, if_pos rfl]
    exact keeps_of_status (of_put h) hget hget' rfl

theorem keeps_pendingDeleteLog (o : BaseOplog) (s : Books δ) : KeepsFrom .deleted s (handlePendingDeleteObjectLog o s).2.2 := by
  unfold handlePendingDeleteObjectLog
  cases hobj : o.objID with
  | none => exact KeepsFrom.refl _ s
  | some id =>
    dsimp only
    cases hget : s.objs.get id with
    | none => exact KeepsFrom.refl _ s
    | some obj =>
      dsimp only
      split_ifs
      · exact KeepsFrom.refl _ s
      · exact keeps_pendingDeleteCore hget

theorem keeps_deleteObject (inp : DeleteInput) (id : PttID) (s : Books δ) : KeepsFrom .deleted s (deleteObject inp id s).2 := by
  unfold deleteObject
  split_ifs
  · exact KeepsFrom.refl _ s
  cases hget : s.objs.get id with
  | none => exact KeepsFrom.refl _ s
  | some obj =>
    dsimp only
    by_cases hdel : .deleted ≤ obj.status
    · rw [if_pos hdel]
      exact KeepsFrom.refl _ s
    rw [if_neg hdel]
    by_cases hmay : inp.myID ≠ obj.creatorID ∧ inp.isMaster = false
    · rw [if_pos hmay]
      exact KeepsFrom.refl _ s
    rw [if_neg hmay]
    refine keeps_of_open ?_ hget hdel
    -- making the log changes nothing
    generalize (inp.newOplog.bind fun oplog =>
      inp.signOplog (if obj.status = .alive then { oplog with preLogID := obj.logID } else oplog)) = signed
    rcases signed with e | oplog
    · exact of_objs_eq rfl
    dsimp only
    have honly : OnlyAt id s ((if .deleted ≤ deleteStatus oplog then handleDeleteObjectLogCore inp.myID id obj
        else handlePendingDeleteObjectLogCore id obj) oplog s).2.2 := by
      split_ifs
      · exact handleDeleteObjectLogCore_onlyAt inp.myID
      · rcases handlePendingDeleteObjectLogCore_objs id obj oplog s with h | h
        · exact of_objs_eq h
        · exact of_put h
    rcases hcore : (if .deleted ≤ deleteStatus oplog then handleDeleteObjectLogCore inp.myID id obj
      else handlePendingDeleteObjectLogCore id obj) oplog s with ⟨_ | e, oplog', s'⟩ <;> rw [hcore] at honly
    · dsimp only
      have hobjs := saveLog_objs s' oplog'
      rcases hsave : s'.saveLog oplog' with ⟨e | u, s''⟩ <;> rw [hsave] at hobjs
      · exact honly.trans (of_objs_eq hobjs)
      · exact honly.trans (of_objs_eq hobjs)
    · exact honly

theorem deleteLog_iff (getData : Except Err Unit) (myID : PttID) (o : BaseOplog) (s : Books δ) :
    KeepsFrom .deleted s (ObjectCall.exec s (.deleteLog getData myID o)) ↔ ¬ ObjectCall.Revives s (.deleteLog getData myID o) := by
  rw [ObjectCall.exec, ObjectCall.Revives]
  unfold handleDeleteObjectLog
  rcases getData with e | u
  · exact ⟨fun _ h => (by cases h.1), fun _ => KeepsFrom.refl _ s⟩
  cases o.objID with
  | none => exact ⟨fun _ ⟨_, _, h, _⟩ => (by cases h), fun _ => KeepsFrom.refl _ s⟩
  | some id =>
  cases hget : s.objs.get id with
  | none => simp [hget, KeepsFrom.refl]
  | some obj =>
  simp only [Option.some.injEq, exists_eq_left', hget, true_and]
  by_cases hdel : .deleted ≤ obj.status
  · rw [if_pos hdel]
    by_cases hold : o.updateTS.isLess obj.updateTS = true
    · -- the older log gives the status `deleted`
      rw [if_pos hold]
      have hget' : (s.saveDeleteObjectWithOplog id obj o .deleted).2.objs.get id = some (obj.setDeleteObjectWithOplog o .deleted) :=
        (get_put _ _ _ _).trans (if_pos rfl)
      rw [iff_of_onlyAt (of_put rfl)]
      constructor
      · rintro h ⟨hlt, -⟩
        obtain ⟨p, hp, hle⟩ := h obj hget hdel
        cases hget'.symm.trans hp
        exact Status.not_le_of_lt hlt hle
      · intro h p hp hle
        cases hget.symm.trans hp
        exact ⟨_, hget', Nat.not_lt.1 fun hlt => h ⟨hlt, hold⟩⟩
    · rw [if_neg hold]
      exact ⟨fun _ h => hold h.2, fun _ => KeepsFrom.refl _ s⟩
  · rw [if_neg hdel]
    exact ⟨fun _ h => hdel (Nat.le_of_lt h.1), fun _ => keeps_of_open (handleDeleteObjectLogCore_onlyAt myID) hget hdel⟩

/-! ## Acknowledgements -/

theorem saveNew_ack (signer : InternalSigner) (id : PttID) (obj : Object δ) (o : BaseOplog) (s : Books δ) (hgood : obj.isAllGood = true) :
    let r := s.saveNewObjectWithOplog id obj o
    let s' := (syncCreateAckSaveOplog signer id r.2.1 r.1 r.2.2).2
    OnlyAt id s s' ∧ ∃ obj', s'.objs.get id = some obj' ∧ obj'.status ≤ .alive := by
  intro r s'
  have hr : r.2.1 = obj.setNewObjectWithOplog o := (saveNewObjectWithOplog_obj s id obj o).trans (if_pos hgood)
  have honly : OnlyAt id s r.2.2 := of_put (saveNewObjectWithOplog_objs s id obj o)
  refine ⟨honly.trans (syncCreateAckSaveOplog_onlyAt signer), ?_⟩
  have hobjs := syncCreateAckSaveOplog_objs signer id r.2.1 r.1 r.2.2
  have hgood' : r.2.1.isAllGood = true := by
    rw [hr]
    exact hgood
  split_ifs at hobjs
  · exact ⟨_, by rw [hobjs, get_put, if_pos rfl], BaseOplog.toStatus_le_alive _⟩
  · refine ⟨r.2.1, ?_, ?_⟩
    · rw [hobjs, saveNewObjectWithOplog_objs, get_put, if_pos rfl]
    · rw [hr]
      exact o.toStatus_le_alive

theorem isAllGood_of_check {obj : Object δ} (h : obj.checkIsAllGood.1 = true) : obj.checkIsAllGood.2.isAllGood = true := by
  unfold Object.checkIsAllGood at h ⊢
  split_ifs at h ⊢ with hall
  · exact hall
  · rfl

theorem checkIsAllGood_status (obj : Object δ) : obj.checkIsAllGood.2.status = obj.status := by
  unfold Object.checkIsAllGood
  split_ifs <;> rfl

theorem keeps_iff_of_cases {P : Prop} (honly : OnlyAt id s s') (hget : s.objs.get id = some obj) (hP : P → .deleted ≤ obj.status)
    (hrevives : P → ∃ obj', s'.objs.get id = some obj' ∧ obj'.status ≤ .alive)
    (hkeeps : ¬ P → .deleted ≤ obj.status → ∃ obj', s'.objs.get id = some obj' ∧ obj'.status = obj.status) :
    KeepsFrom .deleted s s' ↔ ¬ P := by
  constructor
  · intro h hp
    obtain ⟨obj', hget', hstatus⟩ := hrevives hp
    exact not_keeps hget (hP hp) hget' hstatus h
  · intro hp
    by_cases hdel : .deleted ≤ obj.status
    · obtain ⟨obj', hget', hstatus⟩ := hkeeps hp hdel
      exact keeps_of_status honly hget hget' hstatus
    · exact keeps_of_open honly hget hdel

theorem createObjectAckCore_iff (ack : CreateAck δ) (oplog : BaseOplog) (hget : s.objs.get ack.id = some obj) :
    KeepsFrom .deleted s (handleSyncCreateObjectAckCore ack oplog obj s).2 ↔ ¬ ack.Revives oplog obj := by
  rw [handleSyncCreateObjectAckCore, CreateAck.Revives]
  by_cases hsync : oplog.isSync = true
  · rw [if_pos hsync]
    exact ⟨fun _ h => (by simp [hsync] at h), fun _ => KeepsFrom.refl _ s⟩
  rw [if_neg hsync]
  rw [Bool.not_eq_true] at hsync
  by_cases hgood : obj.isGood = true
  · -- what is here stays as it is
    refine ⟨fun _ h => (by simp [hgood] at h), fun _ => ?_⟩
    split_ifs
    · refine of_objs_eq ?_
      rw [syncCreateAckSaveOplog_objs, if_neg (by simp [hsync])]
    · exact KeepsFrom.refl _ s
  rw [if_neg hgood]
  rw [Bool.not_eq_true] at hgood
  by_cases hlog : obj.updateLogID = none ∧ obj.logID = some oplog.id
  · rw [if_pos hlog, if_pos hlog]
    rcases hrec : ack.received obj with e | ⟨isAllGood, obj'⟩
    · exact ⟨fun _ ⟨_, _, _, _, h⟩ => (by cases h), fun _ => KeepsFrom.refl _ s⟩
    have hstatus : obj'.status = obj.status ∧ (isAllGood = true → obj'.isAllGood = true) := by
      unfold CreateAck.received at hrec
      rcases hupdate : ack.updateCreateObject obj with e | r <;> rw [hupdate] at hrec
      · cases hrec
      · obtain ⟨rfl, rfl⟩ := Prod.mk.inj (Except.ok.inj hrec)
        exact ⟨checkIsAllGood_status _, isAllGood_of_check⟩
    cases isAllGood with
    | false =>
      refine ⟨fun _ ⟨_, _, _, _, h⟩ => (by cases h), fun _ => ?_⟩
      exact keeps_of_status (of_put rfl) hget ((get_put _ _ _ _).trans (if_pos rfl)) hstatus.1
    | true =>
      obtain ⟨honly, hrevived⟩ := saveNew_ack ack.signer ack.id obj' oplog s (hstatus.2 rfl)
      refine keeps_iff_of_cases honly hget (fun h => h.1) (fun _ => hrevived) fun h hdel => ?_
      exact absurd ⟨hdel, hsync, hgood, obj', rfl⟩ h
  · rw [if_neg hlog, if_neg hlog]
    have hobjs := syncCreateAckSaveOplog_objs ack.signer ack.id obj { oplog with isSync := true } s
    refine keeps_iff_of_cases (syncCreateAckSaveOplog_onlyAt ack.signer) hget (fun h => h.1) (fun h => ?_) fun h hdel => ?_
    · obtain ⟨hdel, -, -, hall, halive⟩ := h
      have hne : obj.status ≠ .alive := fun h => not_deleted_le_of_le_alive (h ▸ Nat.le_refl _) hdel
      rw [if_pos ⟨rfl, hne, halive⟩, if_pos hall] at hobjs
      exact ⟨_, by rw [hobjs, get_put, if_pos rfl], BaseOplog.toStatus_le_alive _⟩
    · split_ifs at hobjs with hcond hall
      · exact absurd ⟨hdel, hsync, hgood, hall, hcond.2.2⟩ h
      · exact ⟨obj, by rw [hobjs, get_put, if_pos rfl], rfl⟩
      · exact ⟨obj, by rw [hobjs, hget], rfl⟩

theorem createBlockAckCore_iff (ack : BlockAck) (hget : s.objs.get ack.id = some obj) :
    KeepsFrom .deleted s (handleSyncCreateBlockAckCore ack obj s).2 ↔ ¬ ack.RevivesObject s obj := by
  rw [handleSyncCreateBlockAckCore, BlockAck.RevivesObject]
  by_cases hall : obj.isAllGood = true
  · rw [if_pos hall]
    exact ⟨fun _ h => (by simp [hall] at h), fun _ => KeepsFrom.refl _ s⟩
  rw [if_neg hall]
  rw [Bool.not_eq_true] at hall
  rcases hrec : ack.received obj.creatorID obj.blockInfo with e | b
  · exact ⟨fun _ ⟨_, _, ⟨_, h, _⟩, _⟩ => (by cases h), fun _ => KeepsFrom.refl _ s⟩
  cases b with
  | none => exact ⟨fun _ ⟨_, _, ⟨_, h, _⟩, _⟩ => (by cases h), fun _ => KeepsFrom.refl _ s⟩
  | some b =>
  have hstatus := checkIsAllGood_status { obj with blockInfo := some b }
  have hlogID : ({ obj with blockInfo := some b } : Object δ).checkIsAllGood.2.logID = obj.logID := by
    unfold Object.checkIsAllGood
    split_ifs <;> rfl
  have hgood : ({ obj with blockInfo := some b } : Object δ).checkIsAllGood.1 = true → _ := isAllGood_of_check
  dsimp only
  rcases hcheck : ({ obj with blockInfo := some b } : Object δ).checkIsAllGood with ⟨isAllGood, obj'⟩
  rw [hcheck] at hstatus hlogID hgood
  cases isAllGood with
  | true =>
    rw [Bool.not_true, if_neg Bool.false_ne_true, hlogID]
    cases hlog : obj.logID with
    | none => exact ⟨fun _ ⟨_, _, _, _, h, _⟩ => (by cases h), fun _ => KeepsFrom.refl _ s⟩
    | some logID =>
    dsimp only
    cases hstored : s.logs.get logID with
    | none =>
      refine ⟨fun _ ⟨_, _, _, i, hi, h⟩ => ?_, fun _ => KeepsFrom.refl _ s⟩
      rw [← Option.some.inj hi] at h
      exact h hstored
    | some oplog =>
      obtain ⟨honly, hrevived⟩ := saveNew_ack ack.signer ack.id obj' oplog s (hgood rfl)
      refine keeps_iff_of_cases honly hget (fun h => h.1) (fun _ => hrevived) fun h hdel => ?_
      exact absurd ⟨hdel, hall, ⟨b, rfl, by rw [← hlog, hcheck]⟩, logID, rfl, by simp [hstored]⟩ h
  | false =>
    refine ⟨fun _ ⟨_, _, ⟨b', hb', h⟩, _⟩ => ?_, fun _ => ?_⟩
    · cases Except.ok.inj hb'
      simp [hcheck] at h
    · exact keeps_of_status (of_put rfl) hget ((get_put _ _ _ _).trans (if_pos rfl)) hstatus

theorem updateObjectAckCore_iff (ack : UpdateAck) (logID : PttID) (oplog : BaseOplog) (hget : s.objs.get ack.id = some obj) :
    KeepsFrom .deleted s (handleSyncUpdateObjectAckCore ack logID oplog obj s).2 ↔ ¬ ack.Revives logID oplog obj := by
  rw [handleSyncUpdateObjectAckCore, UpdateAck.Revives]
  by_cases hsync : oplog.isSync = true
  · rw [if_pos hsync]
    exact ⟨fun _ h => (by simp [hsync] at h), fun _ => KeepsFrom.refl _ s⟩
  rw [if_neg hsync]
  rw [Bool.not_eq_true] at hsync
  by_cases hupdated : obj.updateLogID = some logID
  · rw [if_pos hupdated]
    exact ⟨fun _ h => h.2.2.1 hupdated, fun _ => KeepsFrom.refl _ s⟩
  rw [if_neg hupdated]
  cases hinfo : obj.syncInfo with
  | none => exact ⟨fun _ ⟨_, _, _, ⟨_, _, h, _⟩, _⟩ => (by cases h), fun _ => KeepsFrom.refl _ s⟩
  | some sync =>
  simp only [Option.some.injEq, exists_and_left, exists_eq_left']
  by_cases hid : sync.logID ≠ logID
  · rw [if_pos hid]
    exact ⟨fun _ h => hid h.2.2.2.1.1, fun _ => KeepsFrom.refl _ s⟩
  rw [if_neg hid]
  rw [not_not] at hid
  by_cases hgood : sync.isGood = true
  · rw [if_pos hgood]
    exact ⟨fun _ h => (by simp [hgood] at h), fun _ => KeepsFrom.refl _ s⟩
  rw [if_neg hgood]
  rw [Bool.not_eq_true] at hgood
  rcases hupdate : ack.updateSyncInfo sync oplog with e | blockInfo
  · exact ⟨fun _ ⟨_, _, _, ⟨_, _, _, h, _⟩, _⟩ => (by cases h), fun _ => KeepsFrom.refl _ s⟩
  obtain ⟨honly, obj', hget', hstatus⟩ := ackSameLog_get ack.signer ack.id obj { sync with blockInfo, isGood := true } oplog s
  refine keeps_iff_of_cases honly hget (fun h => h.1) (fun h => ⟨obj', hget', ?_⟩) fun h hdel => ⟨obj', hget', ?_⟩
  · obtain ⟨-, -, -, ⟨-, -, b, hb, hcheck⟩, halive⟩ := h
    obtain rfl := Except.ok.inj hb
    rw [hstatus, if_pos ⟨hcheck, halive⟩]
    exact Nat.le_refl _
  · rw [hstatus, if_neg]
    rintro ⟨hcheck, halive⟩
    exact h ⟨hdel, hsync, hupdated, ⟨hid, hgood, blockInfo, rfl, hcheck⟩, halive⟩

theorem updateBlockAckCore_iff (ack : BlockAck) {sync : SyncInfo} (hinfo : obj.syncInfo = some sync)
    (hget : s.objs.get ack.id = some obj) :
    KeepsFrom .deleted s (handleSyncUpdateBlockAckCore ack obj sync s).2 ↔ ¬ ack.RevivesSyncInfo s obj := by
  rw [handleSyncUpdateBlockAckCore, BlockAck.RevivesSyncInfo]
  simp only [hinfo, Option.some.injEq, exists_eq_left']
  by_cases hall : sync.isAllGood = true
  · rw [if_pos hall]
    exact ⟨fun _ h => (by simp [hall] at h), fun _ => KeepsFrom.refl _ s⟩
  rw [if_neg hall]
  rw [Bool.not_eq_true] at hall
  rcases hrec : ack.received sync.updaterID sync.blockInfo with e | b
  · exact ⟨fun _ ⟨_, _, ⟨_, h, _⟩, _⟩ => (by cases h), fun _ => KeepsFrom.refl _ s⟩
  cases b with
  | none => exact ⟨fun _ ⟨_, _, ⟨_, h, _⟩, _⟩ => (by cases h), fun _ => KeepsFrom.refl _ s⟩
  | some b =>
  have hlogID : ({ sync with blockInfo := some b } : SyncInfo).checkIsAllGood.2.logID = sync.logID := by
    unfold SyncInfo.checkIsAllGood
    split_ifs <;> rfl
  dsimp only
  by_cases hcheck : ({ sync with blockInfo := some b } : SyncInfo).checkIsAllGood.1 = true
  · rw [hcheck, Bool.not_true, if_neg Bool.false_ne_true, hlogID]
    have hcheck' : ({ sync with blockInfo := some b } : SyncInfo).checkIsAllGood.2.checkIsAllGood.1 = true := by
      rw [SyncInfo.checkIsAllGood_of_isAllGood ((SyncInfo.checkIsAllGood_isAllGood _).trans hcheck)]
    cases hlog : s.logs.get sync.logID with
    | none => exact ⟨fun _ ⟨_, _, _, _, h, _⟩ => (by cases h), fun _ => KeepsFrom.refl _ s⟩
    | some oplog =>
      obtain ⟨honly, obj', hget', hstatus⟩ := ackSameLog_get ack.signer ack.id obj
        ({ sync with blockInfo := some b } : SyncInfo).checkIsAllGood.2 oplog s
      refine keeps_iff_of_cases honly hget (fun h => h.1) (fun h => ⟨obj', hget', ?_⟩) fun h hdel => ⟨obj', hget', ?_⟩
      · obtain ⟨-, -, -, oplog', hlog', halive⟩ := h
        cases hlog'
        rw [hstatus, if_pos ⟨hcheck', halive⟩]
        exact Nat.le_refl _
      · rw [hstatus, if_neg]
        rintro ⟨-, halive⟩
        exact h ⟨hdel, hall, ⟨b, rfl, hcheck⟩, oplog, rfl, halive⟩
  · rw [Bool.not_eq_true] at hcheck
    rw [hcheck, Bool.not_false, if_pos rfl]
    refine ⟨fun _ ⟨_, _, ⟨b', hb', h⟩, _⟩ => ?_, fun _ => ?_⟩
    · cases Except.ok.inj hb'
      simp [hcheck] at h
    · exact keeps_of_status (of_put rfl) hget ((get_put _ _ _ _).trans (if_pos rfl)) rfl

theorem exec_iff (s : Books δ) (c : ObjectCall δ) : KeepsFrom .deleted s (c.exec s) ↔ ¬ c.Revives s := by
  cases c with
  | createLog inp o => exact ⟨fun _ h => h, fun _ => keeps_createLog inp o s⟩
  | updateLog b inp o => exact ⟨fun _ h => h, fun _ => keeps_updateLog b inp o s⟩
  | deleteLog getData myID o => exact deleteLog_iff getData myID o s
  | pendingDeleteLog o => exact ⟨fun _ h => h, fun _ => keeps_pendingDeleteLog o s⟩
  | deleteObject inp id => exact ⟨fun _ h => h, fun _ => keeps_deleteObject inp id s⟩
  | createObjectAck ack =>
    rw [ObjectCall.exec, ObjectCall.Revives, handleSyncCreateObjectAck]
    cases ack.logID with
    | none => simp [KeepsFrom.refl]
    | some logID =>
    cases hlog : s.logs.get logID with
    | none => simp [hlog, KeepsFrom.refl]
    | some oplog =>
    cases hget : s.objs.get ack.id with
    | none => simp [hlog, KeepsFrom.refl]
    | some obj =>
      simp only [Option.some.injEq, exists_eq_left', hlog]
      exact createObjectAckCore_iff ack oplog hget
  | createBlockAck ack =>
    rw [ObjectCall.exec, ObjectCall.Revives, handleSyncCreateBlockAck]
    cases hget : s.objs.get ack.id with
    | none => simp [KeepsFrom.refl]
    | some obj =>
      simp only [Option.some.injEq, exists_eq_left']
      exact createBlockAckCore_iff ack hget
  | updateObjectAck ack =>
    rw [ObjectCall.exec, ObjectCall.Revives, handleSyncUpdateObjectAck]
    cases ack.logID with
    | none => simp [KeepsFrom.refl]
    | some logID =>
    cases hlog : s.logs.get logID with
    | none => simp [hlog, KeepsFrom.refl]
    | some oplog =>
    cases hget : s.objs.get ack.id with
    | none => simp [hlog, KeepsFrom.refl]
    | some obj =>
      simp only [Option.some.injEq, exists_eq_left', hlog]
      exact updateObjectAckCore_iff ack logID oplog hget
  | updateBlockAck ack =>
    rw [ObjectCall.exec, ObjectCall.Revives, handleSyncUpdateBlockAck]
    cases hget : s.objs.get ack.id with
    | none => simp [KeepsFrom.refl]
    | some obj =>
      simp only [Option.some.injEq, exists_eq_left']
      cases hinfo : obj.syncInfo with
      | none => simp [BlockAck.RevivesSyncInfo, hinfo, KeepsFrom.refl]
      | some sync => exact updateBlockAckCore_iff ack hinfo hget
  | oplogs logs => exact ⟨fun _ h => h, fun _ => of_objs_eq rfl⟩

end ObjectFinalAux

/-- Along a trace, no deleted object gets a smaller status exactly when no call of the trace revives one. -/
theorem objectStatusesFinal_iff (s : Books δ) (calls : List (ObjectCall δ)) :
    Trace.Between ObjectCall.exec s calls (KeepsFrom .deleted) ↔ Trace.Always ObjectCall.exec s calls fun s c => ¬ c.Revives s := by
  rw [Trace.between_iff_always (KeepsFrom.refl .deleted) KeepsFrom.trans]
  exact ⟨fun h => h.mono fun s c => (ObjectFinalAux.exec_iff s c).1, fun h => h.mono fun s c => (ObjectFinalAux.exec_iff s c).2⟩

namespace ObjectFinalWitness

def idOf (b : UInt8) : PttID := ByteArrayOf.replicate 40 b

def log (id : UInt8) (sec : Int64) : BaseOplog :=
  { BaseOplog.new (idOf id) (some (idOf 7)) ⟨sec, 0⟩ (idOf 1) 0 none with masterLogID := some (idOf 8), isSync := false }

def noSigner : InternalSigner := ⟨fun o => o, fun _ => rfl, fun _ => rfl, fun _ _ => rfl⟩

def blockInfo : BlockInfo := BlockInfo.new (idOf 5) [[[1], [2]]]

def subBlock (n : UInt8) : Block := { id := idOf 5, blockID := 0, subBlockID := n, buf := [], objID := idOf 7, hash := [n + 1] }

def createLogs : KeyStore PttID BaseOplog := KeyStore.empty.put (idOf 2) (log 2 10)

def allLogs : KeyStore PttID BaseOplog := createLogs.put (idOf 3) { log 3 20 with isSync := true }

def deleted : List (ObjectCall Unit) :=
  [.createLog ⟨.ok (), .ok false, some ()⟩ (log 2 10), .oplogs createLogs,
    .createObjectAck ⟨noSigner, idOf 7, some (idOf 2), fun _ => .ok (some blockInfo, ())⟩, .deleteLog (.ok ()) (idOf 1) (log 3 20),
    .oplogs allLogs]

def blocksArrive : ObjectCall Unit :=
  .createBlockAck ⟨noSigner, idOf 7, fun _ => some [subBlock 0, subBlock 1], fun _ _ _ => .ok ()⟩

def status (calls : List (ObjectCall Unit)) : Option Status :=
  ((Trace.after ObjectCall.exec ⟨KeyStore.empty, KeyStore.empty⟩ calls).objs.get (idOf 7)).map Object.status

end ObjectFinalWitness

open ObjectFinalWitness in
/-- An object that is deleted before its blocks have come is alive again when they come. -/
theorem deleted_object_is_revived : status deleted = some .deleted ∧ status (deleted ++ [blocksArrive]) = some .alive := by
  decide +kernel

end PttaiCore
