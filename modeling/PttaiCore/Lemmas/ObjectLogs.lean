import PttaiCore.Lemmas.Objects
import PttaiCore.ObjectAcks

/-! # What the handlers of an object's oplogs do to the objects -/

namespace PttaiCore

open Books BaseOplog OnlyAt

variable {δ : Type} {s : Books δ} {id : PttID} {obj : Object δ} {o : BaseOplog}

def Books.LogsKeyed (s : Books δ) : Prop := ∀ id o, s.logs.get id = some o → o.id = id

theorem BaseOplog.toStatus_le_alive (o : BaseOplog) : o.toStatus ≤ .alive := by
  unfold toStatus
  split_ifs <;> decide

theorem BaseOplog.toStatus_lt_alive_iff (o : BaseOplog) : o.toStatus < .alive ↔ o.toStatus ≠ .alive :=
  ⟨fun h heq => Status.lt_irrefl _ (heq ▸ h), Status.lt_of_le_of_ne o.toStatus_le_alive⟩

/-! ## Saving an object -/

theorem saveNewObjectWithOplog_obj (s : Books δ) (id : PttID) (obj : Object δ) (o : BaseOplog) :
    (s.saveNewObjectWithOplog id obj o).2.1 = if obj.isAllGood then obj.setNewObjectWithOplog o else obj := by
  unfold saveNewObjectWithOplog
  split_ifs <;> rfl

@[simp] theorem saveNewObjectWithOplog_objs (s : Books δ) (id : PttID) (obj : Object δ) (o : BaseOplog) :
    (s.saveNewObjectWithOplog id obj o).2.2.objs = s.objs.put id (s.saveNewObjectWithOplog id obj o).2.1 := by
  unfold saveNewObjectWithOplog
  split_ifs <;> rfl

@[simp] theorem saveNewObjectWithOplog_logs (s : Books δ) (id : PttID) (obj : Object δ) (o : BaseOplog) :
    (s.saveNewObjectWithOplog id obj o).2.2.logs = s.logs := by
  unfold saveNewObjectWithOplog
  split_ifs <;> rfl

/-! ## Updating -/

theorem handleUpdateObjectNewLog_books (id : PttID) (obj : Object δ) (sync : SyncInfo) (o : BaseOplog) (s : Books δ) :
    (handleUpdateObjectNewLog id obj sync o s).2.2.2 = s.saveObj id (handleUpdateObjectNewLog id obj sync o s).2.1 := by
  unfold handleUpdateObjectNewLog
  dsimp only
  by_cases h : (sync.checkIsAllGood.1 && o.toStatus == .alive) = true
  · rw [if_pos h]
    rfl
  · rw [if_neg h]

theorem handleUpdateObjectNewLog_status (id : PttID) (obj : Object δ) (sync : SyncInfo) (o : BaseOplog) (s : Books δ) :
    (handleUpdateObjectNewLog id obj sync o s).2.1.status =
      if sync.checkIsAllGood.1 = true ∧ o.toStatus = .alive then .alive else obj.status := by
  unfold handleUpdateObjectNewLog
  dsimp only
  by_cases h : sync.checkIsAllGood.1 = true ∧ o.toStatus = .alive
  · rw [if_pos h, if_pos (by simp [h])]
    rfl
  · rw [if_neg h, if_neg (by simpa using h)]

theorem handleUpdateObjectWithNewSyncInfo_onlyAt (b : Bool) (sync : SyncInfo) :
    OnlyAt id s (handleUpdateObjectWithNewSyncInfo b id obj sync o s).2.2 := by
  unfold handleUpdateObjectWithNewSyncInfo
  cases obj.syncInfo with
  | none =>
    rw [handleUpdateObjectNewLog_books]
    exact of_put rfl
  | some sync' =>
    dsimp only
    split_ifs
    · exact of_objs_eq rfl
    · rw [handleUpdateObjectSameLog, handleUpdateObjectNewLog_books]
      exact of_put rfl
    · have hobjs := removeBlockAndMediaInfoBySyncInfo_objs s sync' o b
      rcases hr : s.removeBlockAndMediaInfoBySyncInfo sync' o b with ⟨e | u, s'⟩ <;> rw [hr] at hobjs
      · exact of_objs_eq hobjs
      · dsimp only
        rw [handleUpdateObjectNewLog_books]
        exact (of_objs_eq hobjs).trans (of_put rfl)

/-! ## Deleting -/

theorem handleDeleteObjectLogCore_onlyAt (myID : PttID) : OnlyAt id s (handleDeleteObjectLogCore myID id obj o s).2.2 := by
  unfold handleDeleteObjectLogCore
  have hobjs := replaceSyncInfo_objs s isReplaceOrigSyncInfo obj o (deleteStatus o) true
  rcases hr : s.replaceSyncInfo isReplaceOrigSyncInfo obj o (deleteStatus o) true with ⟨e | u, s'⟩ <;> rw [hr] at hobjs
  · exact of_objs_eq hobjs
  · dsimp only
    refine (of_objs_eq hobjs).trans ?_
    split_ifs
    · exact of_delete rfl
    · exact of_put rfl

theorem handlePendingDeleteObjectLogCore_objs (id : PttID) (obj : Object δ) (o : BaseOplog) (s : Books δ) :
    (handlePendingDeleteObjectLogCore id obj o s).2.2.objs = s.objs ∨
      (handlePendingDeleteObjectLogCore id obj o s).2.2.objs =
        s.objs.put id { obj with syncInfo := some (SyncInfo.initWithOplog (deleteStatus o) o) } := by
  unfold handlePendingDeleteObjectLogCore
  split_ifs
  · exact .inl rfl
  cases obj.syncInfo with
  | none => exact .inr rfl
  | some sync =>
    dsimp only
    split_ifs
    · exact .inr rfl
    · have hobjs := removeBlockAndMediaInfoBySyncInfo_objs s sync o false
      rcases hr : s.removeBlockAndMediaInfoBySyncInfo sync o false with ⟨e | u, s'⟩ <;> rw [hr] at hobjs
      · exact .inl hobjs
      · exact .inr (congrArg (KeyStore.put · id _) hobjs)

/-! ## Acknowledgements -/

variable (signer : InternalSigner)

theorem setOplogIsSync_isSync (o : BaseOplog) : (setOplogIsSync signer o).isSync = true :=
  signer.sign_isSync { o with isSync := true }

theorem setOplogIsSync_of_alive (h : o.toStatus = .alive) : setOplogIsSync signer o = { o with isSync := true } :=
  signer.sign_of_alive _ h

theorem syncCreateAckSaveOplog_objs (id : PttID) (obj : Object δ) (o : BaseOplog) (s : Books δ) :
    (syncCreateAckSaveOplog signer id obj o s).2.objs =
      if o.isSync = true ∧ obj.status ≠ .alive ∧ (setOplogIsSync signer o).toStatus = .alive then
        s.objs.put id (if obj.isAllGood then obj.setNewObjectWithOplog (setOplogIsSync signer o) else obj)
      else s.objs := by
  unfold syncCreateAckSaveOplog
  dsimp only
  have hobjs := saveLog_objs s (if o.isSync = true then setOplogIsSync signer o else o)
  rcases hsave : s.saveLog (if o.isSync = true then setOplogIsSync signer o else o) with ⟨e | u, s'⟩ <;> rw [hsave] at hobjs
  · -- a valid log would have been saved
    have hnot : ¬ (o.isSync = true ∧ obj.status ≠ .alive ∧ (setOplogIsSync signer o).toStatus = .alive) := by
      rintro ⟨hsync, -, halive⟩
      rw [if_pos hsync, saveLog_of_alive halive] at hsave
      cases hsave
    rw [if_neg hnot]
    exact hobjs
  · by_cases hsync : o.isSync = true
    · simp only [hsync, if_true, setOplogIsSync_isSync, Bool.not_true, Bool.false_eq_true, if_false, true_and]
      by_cases hobj : obj.status = .alive
      · rw [if_pos hobj, if_neg fun h => h.1 hobj]
        exact hobjs
      rw [if_neg hobj]
      by_cases halive : (setOplogIsSync signer o).toStatus = .alive
      · rw [if_neg fun h => (toStatus_lt_alive_iff _).1 h halive, if_pos ⟨hobj, halive⟩]
        rw [saveNewObjectWithOplog_objs, saveNewObjectWithOplog_obj, hobjs]
      · rw [if_pos ((toStatus_lt_alive_iff _).2 halive), if_neg fun h => halive h.2]
        exact hobjs
    · rw [Bool.not_eq_true] at hsync
      simp only [hsync, Bool.false_eq_true, if_false, Bool.not_false, if_true, false_and]
      exact hobjs

theorem syncCreateAckSaveOplog_onlyAt : OnlyAt id s (syncCreateAckSaveOplog signer id obj o s).2 := by
  have h := syncCreateAckSaveOplog_objs signer id obj o s
  split_ifs at h
  · exact of_put h
  · exact of_put h
  · exact of_objs_eq h

namespace SyncInfo

theorem checkIsAllGood_isAllGood (sync : SyncInfo) : sync.checkIsAllGood.2.isAllGood = sync.checkIsAllGood.1 := by
  unfold checkIsAllGood
  split_ifs with h1 h2 h3
  · exact h1
  · simpa using h1
  · simpa using h1
  · rfl

theorem checkIsAllGood_of_not (sync : SyncInfo) (h : sync.checkIsAllGood.1 = false) : sync.checkIsAllGood.2 = sync := by
  unfold checkIsAllGood at h ⊢
  split_ifs at h ⊢ <;> rfl

theorem checkIsAllGood_of_isAllGood {sync : SyncInfo} (h : sync.isAllGood = true) : sync.checkIsAllGood = (true, sync) := if_pos h

end SyncInfo

theorem handleUpdateObjectNewLog_sync (id : PttID) (obj : Object δ) (sync : SyncInfo) (o : BaseOplog) (s : Books δ) :
    (handleUpdateObjectNewLog id obj sync o s).1.isAllGood = sync.checkIsAllGood.1 ∧
      (sync.checkIsAllGood.1 = false → (handleUpdateObjectNewLog id obj sync o s).1 = sync) := by
  unfold handleUpdateObjectNewLog
  dsimp only
  by_cases h : sync.checkIsAllGood.1 = true
  · have hgood := sync.checkIsAllGood_isAllGood.trans h
    refine ⟨?_, fun hnot => absurd h (by simp [hnot])⟩
    simp only [h, Bool.true_and, if_true]
    split_ifs
    · exact hgood
    · exact hgood
  · rw [Bool.not_eq_true] at h
    have hsame := sync.checkIsAllGood_of_not h
    rw [h, Bool.false_and, if_neg Bool.false_ne_true, if_neg Bool.false_ne_true]
    exact ⟨sync.checkIsAllGood_isAllGood.trans h, fun _ => hsame⟩

theorem handleUpdateObjectNewLog_oplog (id : PttID) (obj : Object δ) (sync : SyncInfo) (o : BaseOplog) (s : Books δ) :
    (handleUpdateObjectNewLog id obj sync o s).2.2.1 =
      if sync.checkIsAllGood.1 = true ∧ o.toStatus = .alive then { o with isSync := true } else o := by
  unfold handleUpdateObjectNewLog
  dsimp only
  by_cases h : sync.checkIsAllGood.1 = true ∧ o.toStatus = .alive
  · rw [if_pos h, if_pos (by simp [h])]
    rfl
  · rw [if_neg h, if_neg (by simpa using h)]

theorem syncUpdateAckSaveOplog_get (sync : SyncInfo) (o : BaseOplog) (hget : s.objs.get id = some obj) :
    OnlyAt id s (syncUpdateAckSaveOplog signer id obj sync o s).2 ∧
      ∃ obj', (syncUpdateAckSaveOplog signer id obj sync o s).2.objs.get id = some obj' ∧
        obj'.status = if sync.checkIsAllGood.1 = true ∧ (if sync.isAllGood then setOplogIsSync signer o else o).toStatus = .alive then .alive
          else obj.status := by
  unfold syncUpdateAckSaveOplog
  dsimp only
  generalize (if sync.isAllGood = true then setOplogIsSync signer o else o) = o'
  have hobjs := saveLog_objs s o'
  rcases hsave : s.saveLog o' with ⟨e | u, s'⟩ <;> rw [hsave] at hobjs
  · have hnot : ¬ o'.toStatus = .alive := by
      intro halive
      rw [saveLog_of_alive halive] at hsave
      cases hsave
    rw [if_neg fun h => hnot h.2]
    exact ⟨of_objs_eq hobjs, obj, by rw [hobjs, hget], rfl⟩
  · dsimp only
    by_cases halive : o'.toStatus = .alive
    · rw [if_neg fun h => (toStatus_lt_alive_iff _).1 h halive]
      rw [handleUpdateObjectSameLog, handleUpdateObjectNewLog_books]
      refine ⟨(of_objs_eq hobjs).trans (of_put rfl), _, (KeyStore.get_put _ _ _ _).trans (if_pos rfl), ?_⟩
      rw [handleUpdateObjectNewLog_status]
    · rw [if_pos ((toStatus_lt_alive_iff _).2 halive), if_neg fun h => halive h.2]
      exact ⟨of_objs_eq hobjs, obj, by rw [← hget, hobjs], rfl⟩

theorem ackSameLog_get (id : PttID) (obj : Object δ) (sync : SyncInfo) (o : BaseOplog) (s : Books δ) :
    let r := handleUpdateObjectSameLog id obj sync o s
    let s' := (syncUpdateAckSaveOplog signer id r.2.1 r.1 r.2.2.1 r.2.2.2).2
    OnlyAt id s s' ∧ ∃ obj', s'.objs.get id = some obj' ∧
      obj'.status = if sync.checkIsAllGood.1 = true ∧ (setOplogIsSync signer o).toStatus = .alive then .alive else obj.status := by
  intro r s'
  have hbooks : r.2.2.2 = s.saveObj id r.2.1 := handleUpdateObjectNewLog_books id _ sync o s
  have hstored : r.2.2.2.objs.get id = some r.2.1 := by
    rw [hbooks]
    exact (KeyStore.get_put _ _ _ _).trans (if_pos rfl)
  obtain ⟨honly, obj', hget, hstatus⟩ := syncUpdateAckSaveOplog_get signer r.1 r.2.2.1 hstored
  refine ⟨(of_put (congrArg Books.objs hbooks)).trans honly, obj', hget, hstatus.trans ?_⟩
  have hr1 : r.2.1.status = if sync.checkIsAllGood.1 = true ∧ o.toStatus = .alive then .alive else obj.status :=
    handleUpdateObjectNewLog_status id _ sync o s
  have hro : r.2.2.1 = if sync.checkIsAllGood.1 = true ∧ o.toStatus = .alive then { o with isSync := true } else o :=
    handleUpdateObjectNewLog_oplog id _ sync o s
  obtain ⟨hgood, hsame⟩ := handleUpdateObjectNewLog_sync id { obj with syncInfo := none } sync o s
  change r.1.isAllGood = _ at hgood
  change _ → r.1 = sync at hsame
  by_cases hcheck : sync.checkIsAllGood.1 = true
  · rw [hcheck] at hgood
    rw [SyncInfo.checkIsAllGood_of_isAllGood hgood, if_pos hgood]
    simp only [hcheck, true_and] at hr1 hro ⊢
    by_cases halive : o.toStatus = .alive
    · -- a valid log is not signed again
      rw [if_pos halive] at hro
      have hagain : (setOplogIsSync signer r.2.2.1).toStatus = .alive := by
        rw [hro, setOplogIsSync_of_alive signer (o := { o with isSync := true }) halive]
        exact halive
      have honce : (setOplogIsSync signer o).toStatus = .alive := by
        rw [setOplogIsSync_of_alive signer halive]
        exact halive
      rw [if_pos hagain, if_pos honce]
    · rw [if_neg halive] at hr1 hro
      rw [hro, hr1]
  · rw [hsame (by simpa using hcheck), if_neg fun h => hcheck h.1, if_neg fun h => hcheck h.1, hr1, if_neg fun h => hcheck h.1]

end PttaiCore
