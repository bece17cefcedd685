import PttaiCore.Lemmas.UpdateRuns

/-! # What the acknowledgements about an object keep covered -/

namespace PttaiCore

open Books BaseOplog

variable {δ : Type}

namespace SyncedUpdatesAux

open UpdateTarget

variable {t : UpdateTarget} {s s' : Books δ} {obj obj' : Object δ} {o u : BaseOplog}

/-! ### Acknowledgements of an update -/

theorem openAt_of_waiting {sync : SyncInfo} (h : t.Inv s) (hget : s.objs.get t.id = some obj) (hsync : obj.syncInfo = some sync) :
    t.OpenAt s obj := by
  refine ⟨hget, fun hdel => ?_⟩
  rw [(h.closed obj hget hdel).2] at hsync
  cases hsync

theorem inv_raise (h : t.Inv s) (hobj : t.OpenAt s obj) (hlogs : s'.logs = s.logs) (hobj' : t.OpenAt s' obj')
    (hts : obj.updateTS.order ≤ obj'.updateTS.order)
    (hsync : ∀ sync, obj.syncInfo = some sync → ∃ sync', obj'.syncInfo = some sync' ∧ sync'.logID = sync.logID) : t.Inv s' := by
  refine inv_of_open (fun i o => hlogs ▸ h.keyed i o) hobj' fun i w hw => ?_
  rw [SyncedAt, hlogs] at hw
  rw [hlogs]
  rcases Inv.covers h hobj hw with hle | ⟨sync, u, hsync', hu, hu', hle⟩
  · exact .inl (hle.trans hts)
  · obtain ⟨sync₂, hsync₂, hid⟩ := hsync sync hsync'
    exact .inr ⟨sync₂, u, hsync₂, hid ▸ hu, hu', hle⟩

variable {obj₁ : Object δ} {signer : InternalSigner} {logID : PttID}

theorem ackLog_cases (signer : InternalSigner) {id : PttID} {sync sync₁ : SyncInfo} {l₁ : BaseOplog}
    (hr : handleUpdateObjectSameLog id obj sync u s = (sync₁, obj₁, l₁, s')) :
    (u.toStatus = .alive → ∃ b, (if sync₁.isAllGood then setOplogIsSync signer l₁ else l₁) = { u with isSync := b }) ∧
      (u.toStatus ≠ .alive → (if sync₁.isAllGood then setOplogIsSync signer l₁ else l₁) = setOplogIsSync signer u ∨
        (if sync₁.isAllGood then setOplogIsSync signer l₁ else l₁) = u) := by
  have hgood := (handleUpdateObjectNewLog_sync id { obj with syncInfo := none } sync u s).1
  have hlog := handleUpdateObjectNewLog_oplog id { obj with syncInfo := none } sync u s
  rw [handleUpdateObjectSameLog] at hr
  rw [hr] at hgood hlog
  dsimp only at hgood hlog
  rw [hgood]
  refine ⟨fun halive => ?_, fun hne => ?_⟩
  · by_cases hcheck : sync.checkIsAllGood.1 = true
    · rw [if_pos hcheck, hlog, if_pos ⟨hcheck, halive⟩, setOplogIsSync_of_alive signer (o := { u with isSync := true }) halive]
      exact ⟨true, rfl⟩
    · rw [if_neg hcheck, hlog, if_neg fun h => hcheck h.1]
      exact ⟨u.isSync, rfl⟩
  · rw [if_neg fun h => hne h.2] at hlog
    rw [hlog]
    split_ifs
    · exact .inl rfl
    · exact .inr rfl

theorem sameLog_logID (id : PttID) (obj : Object δ) (sync : SyncInfo) (u : BaseOplog) (s : Books δ) :
    (handleUpdateObjectSameLog id obj sync u s).1.logID = sync.logID := by
  have hcheck : sync.checkIsAllGood.2.logID = sync.logID := by
    unfold SyncInfo.checkIsAllGood
    split_ifs <;> rfl
  unfold handleUpdateObjectSameLog handleUpdateObjectNewLog
  dsimp only
  split_ifs <;> exact hcheck

theorem inv_ackApplied {sync sync₁ : SyncInfo} {o₁ : BaseOplog} (h : t.Inv s) (hobj : t.OpenAt s obj)
    (hsync : obj.syncInfo = some sync) (hu : s.logs.get sync.logID = some u)
    (htaken : Taken u { obj with syncInfo := none } obj₁) (hid : sync₁.logID = o₁.id)
    (hts : obj.updateTS.order ≤ o₁.updateTS.order) (hsame : u.toStatus = .alive → o₁.updateTS = u.updateTS)
    (hvalid : t.Valid u → t.Valid o₁) :
    t.Inv (handleUpdateObjectSameLog t.id obj₁ sync₁ o₁
      { (s.saveObj t.id obj₁) with logs := (s.saveObj t.id obj₁).logs.put o₁.id o₁.notNewer }).2.2.2 := by
  rw [handleUpdateObjectSameLog, handleUpdateObjectNewLog_books]
  have htaken' := handleUpdateObjectNewLog_taken t.id { obj₁ with syncInfo := none } sync₁ o₁
    { (s.saveObj t.id obj₁) with logs := (s.saveObj t.id obj₁).logs.put o₁.id o₁.notNewer } hid
  generalize (handleUpdateObjectNewLog t.id { obj₁ with syncInfo := none } sync₁ o₁ _).2.1 = obj₂ at htaken' ⊢
  have hopen₁ : ¬ .deleted ≤ obj₁.status := taken_open htaken hobj.2
  have hobj₂ : t.OpenAt ((s.saveObj t.id obj₁).saveObj t.id obj₂) obj₂ := openAt_saveObj (taken_open htaken' hopen₁)
  -- what the object covered before is not later than the log
  have hle : ∀ ts : Timestamp, t.Covers s.logs.get obj ts → ts.order ≤ o₁.updateTS.order := by
    intro ts hc
    refine Covers.le_of_le hc hts fun sync₀ u₀ hsync₀ hu₀ hu₀' => ?_
    cases hsync.symm.trans hsync₀
    cases hu.symm.trans hu₀
    rw [hsame hu₀'.2]
  have hcovers : ∀ ts : Timestamp, t.Covers s.logs.get obj ts →
      t.Covers (seen o₁.notNewer ((s.saveObj t.id obj₁).saveObj t.id obj₂)) obj₂ ts := by
    intro ts hc
    rcases htaken' with ⟨-, hts₂, -⟩ | ⟨hts₂, -, sync₂, hsync₂, hid₂⟩
    · exact .inl (hts₂ ▸ hle ts hc)
    · rcases htaken with ⟨halive, hts₁, -⟩ | ⟨hts₁, -⟩
      · exact .inl (by rw [hts₂, hts₁, ← hsame halive]; exact hle ts hc)
      · rcases hc with hc | ⟨sync₀, u₀, hsync₀, hu₀, hu₀', hc⟩
        · exact .inl (by rw [hts₂, hts₁]; exact hc)
        · cases hsync.symm.trans hsync₀
          cases hu.symm.trans hu₀
          exact .inr ⟨sync₂, o₁.notNewer, hsync₂, hid₂ ▸ seen_self o₁.notNewer _, hvalid hu₀', by rw [← hsame hu₀'.2] at hc; exact hc⟩
  refine inv_put_of_open (v := o₁.notNewer) (s := (s.saveObj t.id obj₁).saveObj t.id obj₂) h.keyed hobj₂ (fun i w _ hw => ?_) fun ho₁ _ => ?_
  · exact hcovers _ (Inv.covers h hobj hw)
  · exact covers_of_taken (l := o₁.notNewer) ho₁ htaken' (le_refl _)

theorem inv_ackSameLog {sync sync' : SyncInfo} (h : t.Inv s) (hobj : t.OpenAt s obj)
    (hsync : obj.syncInfo = some sync) (hu : s.logs.get sync.logID = some u)
    (hid : sync'.logID = sync.logID) (hle : obj.updateTS.order ≤ (setOplogIsSync signer u).updateTS.order) :
    t.Inv (syncUpdateAckSaveOplog signer t.id (handleUpdateObjectSameLog t.id obj sync' u s).2.1
      (handleUpdateObjectSameLog t.id obj sync' u s).1 (handleUpdateObjectSameLog t.id obj sync' u s).2.2.1
      (handleUpdateObjectSameLog t.id obj sync' u s).2.2.2).2 := by
  have huid : u.id = sync.logID := h.keyed _ _ hu
  have hbooks : (handleUpdateObjectSameLog t.id obj sync' u s).2.2.2 =
      s.saveObj t.id (handleUpdateObjectSameLog t.id obj sync' u s).2.1 := handleUpdateObjectNewLog_books _ _ _ _ _
  have htaken : Taken u { obj with syncInfo := none } (handleUpdateObjectSameLog t.id obj sync' u s).2.1 :=
    handleUpdateObjectNewLog_taken _ _ _ _ _ (hid.trans huid.symm)
  have hlogID := (sameLog_logID t.id obj sync' u s).trans (hid.trans huid.symm)
  rcases hr : handleUpdateObjectSameLog t.id obj sync' u s with ⟨sync₁, obj₁, l₁, s₁⟩
  obtain ⟨halive, hpending⟩ := ackLog_cases signer hr
  rw [hr] at hbooks htaken hlogID
  dsimp only at hbooks htaken hlogID ⊢
  unfold syncUpdateAckSaveOplog
  dsimp only
  generalize (if sync₁.isAllGood = true then setOplogIsSync signer l₁ else l₁) = o₁ at halive hpending ⊢
  rw [hbooks]
  have hid₁ : o₁.id = u.id := by
    by_cases hu' : u.toStatus = .alive
    · obtain ⟨b, rfl⟩ := halive hu'
      rfl
    · rcases hpending hu' with rfl | rfl
      · exact signer.sign_id _
      · rfl
  by_cases ho : o₁.toStatus = .alive
  · -- the log is applied: it is as new as all that is covered
    have hts : obj.updateTS.order ≤ o₁.updateTS.order ∧ (u.toStatus = .alive → o₁.updateTS = u.updateTS) := by
      by_cases hu' : u.toStatus = .alive
      · obtain ⟨b, rfl⟩ := halive hu'
        rw [setOplogIsSync_of_alive signer hu'] at hle
        exact ⟨hle, fun _ => rfl⟩
      · rcases hpending hu' with rfl | rfl
        · exact ⟨hle, fun h => absurd h hu'⟩
        · exact absurd ho hu'
    have hvalid : t.Valid u → t.Valid o₁ := by
      intro hv
      obtain ⟨b, rfl⟩ := halive hv.2
      exact hv
    rw [saveLog_of_alive (s := s.saveObj t.id obj₁) ho]
    dsimp only
    rw [if_neg fun hlt => (toStatus_lt_alive_iff _).1 hlt ho]
    exact inv_ackApplied h hobj hsync hu htaken (hlogID.trans hid₁.symm) hts.1 hts.2 hvalid
  · have hu' : u.toStatus ≠ .alive := by
      intro hu'
      obtain ⟨b, rfl⟩ := halive hu'
      exact ho hu'
    have hinv : t.Inv (s.saveObj t.id obj₁) := by
      have hopen₁ : ¬ .deleted ≤ obj₁.status := taken_open htaken hobj.2
      obtain ⟨hts, -, sync₂, hsync₂, hid₂⟩ := htaken.resolve_left fun h' => hu' h'.1
      refine inv_raise h hobj rfl (openAt_saveObj hopen₁) (hts ▸ le_refl _) fun sync₀ hsync₀ => ?_
      cases hsync.symm.trans hsync₀
      exact ⟨sync₂, hsync₂, hid₂.trans huid⟩
    have hsaved := inv_saveLog_pending hinv ho
    rcases hsave : (s.saveObj t.id obj₁).saveLog o₁ with ⟨e | x, s'⟩ <;> rw [hsave] at hsaved
    · exact hsaved
    · dsimp only
      rw [if_pos ((toStatus_lt_alive_iff _).2 ho)]
      exact hsaved

theorem inv_updateObjectAck {ack : UpdateAck} (h : t.Inv s) (hid : ack.id = t.id)
    (hfits : ∀ obj, s.objs.get t.id = some obj → ∀ sync u, obj.syncInfo = some sync → ack.logID = some sync.logID →
      s.logs.get sync.logID = some u → obj.updateTS.order ≤ (setOplogIsSync ack.signer u).updateTS.order) :
    t.Inv (handleSyncUpdateObjectAck ack s).2 := by
  unfold handleSyncUpdateObjectAck
  cases hlogID : ack.logID with
  | none => exact h
  | some logID =>
    dsimp only
    rw [hid]
    cases hlog : s.logs.get logID with
    | none => exact h
    | some u =>
      cases hget : s.objs.get t.id with
      | none => exact h
      | some obj =>
        dsimp only
        unfold handleSyncUpdateObjectAckCore
        split_ifs
        · exact h
        · exact h
        cases hsync : obj.syncInfo with
        | none => exact h
        | some sync =>
          dsimp only
          split_ifs with hother hgood
          · exact h
          · exact h
          have hsame : sync.logID = logID := not_not.1 hother
          cases ack.updateSyncInfo sync u with
          | error e => exact h
          | ok blockInfo =>
            rw [hid]
            exact inv_ackSameLog h (openAt_of_waiting h hget hsync) hsync (hsame ▸ hlog) rfl
              (hfits obj hget sync u hsync (hsame ▸ hlogID) (hsame ▸ hlog))

theorem inv_updateBlockAck {ack : BlockAck} (h : t.Inv s) (hid : ack.id = t.id)
    (hfits : ∀ obj, s.objs.get t.id = some obj → ∀ sync u, obj.syncInfo = some sync → s.logs.get sync.logID = some u →
      obj.updateTS.order ≤ (setOplogIsSync ack.signer u).updateTS.order) :
    t.Inv (handleSyncUpdateBlockAck ack s).2 := by
  unfold handleSyncUpdateBlockAck
  rw [hid]
  cases hget : s.objs.get t.id with
  | none => exact h
  | some obj =>
    dsimp only
    cases hsync : obj.syncInfo with
    | none => exact h
    | some sync =>
      dsimp only
      unfold handleSyncUpdateBlockAckCore
      split_ifs
      · exact h
      have hobj := openAt_of_waiting h hget hsync
      rcases ack.received sync.updaterID sync.blockInfo with e | _ | b
      · exact h
      · exact h
      dsimp only
      have hlogID : ({ sync with blockInfo := some b } : SyncInfo).checkIsAllGood.2.logID = sync.logID := by
        unfold SyncInfo.checkIsAllGood
        split_ifs <;> rfl
      rw [hid]
      split_ifs
      · refine inv_raise h hobj rfl (openAt_saveObj hobj.2) (le_refl _) fun sync₀ hsync₀ => ?_
        cases hsync.symm.trans hsync₀
        exact ⟨_, rfl, hlogID⟩
      · rw [hlogID]
        cases hlog : s.logs.get sync.logID with
        | none => exact h
        | some u => exact inv_ackSameLog h hobj hsync hlog hlogID (hfits obj hget sync u hsync hlog)

/-! ### Acknowledgements of a creation -/

theorem inv_resave (h : t.Inv s) (hget : s.logs.get logID = some o) : t.Inv (s.saveLog o).2 := by
  have hid : o.id = logID := h.keyed logID o hget
  by_cases halive : o.toStatus = .alive
  · rw [saveLog_of_alive halive]
    refine Inv.put h (v := o.notNewer) (fun obj sync u _ _ _ hu hu' => ?_) fun obj hobj hvalid hs => ?_
    · cases hget.symm.trans (hid ▸ hu)
      exact ⟨hu', le_refl _⟩
    · have hcovers : t.Covers s.logs.get obj o.updateTS := Inv.covers h hobj ⟨hget, hvalid, hs⟩
      refine Covers.put (v := o.notNewer) hcovers fun sync u _ _ hu hu' => ?_
      cases hget.symm.trans (hid ▸ hu)
      exact ⟨hu', le_refl _⟩
  · exact inv_saveLog_pending h halive

theorem saveLog_logs_congr (hlogs : s'.logs = s.logs) (o : BaseOplog) : (s'.saveLog o).2.logs = (s.saveLog o).2.logs := by
  unfold saveLog
  rw [hlogs]
  split_ifs
  · exact hlogs
  · rfl

theorem syncCreateAckSaveOplog_final (signer : InternalSigner) (id : PttID) (o : BaseOplog) (hget : s.objs.get id = some obj) :
    (syncCreateAckSaveOplog signer id obj o s).2.logs = (s.saveLog (if o.isSync then setOplogIsSync signer o else o)).2.logs ∧
      ∃ obj', (syncCreateAckSaveOplog signer id obj o s).2.objs.get id = some obj' ∧
        (obj' = obj ∨ obj' = obj.setNewObjectWithOplog (if o.isSync then setOplogIsSync signer o else o)) := by
  unfold syncCreateAckSaveOplog
  dsimp only
  generalize (if o.isSync = true then setOplogIsSync signer o else o) = o₁
  have hobjs := saveLog_objs s o₁
  rcases hsave : s.saveLog o₁ with ⟨e | x, s'⟩ <;> rw [hsave] at hobjs
  · exact ⟨rfl, obj, by rw [hobjs, hget], Or.inl rfl⟩
  · dsimp only
    split_ifs
    · exact ⟨rfl, obj, by rw [hobjs, hget], Or.inl rfl⟩
    · exact ⟨rfl, obj, by rw [hobjs, hget], Or.inl rfl⟩
    · exact ⟨rfl, obj, by rw [hobjs, hget], Or.inl rfl⟩
    · refine ⟨saveNewObjectWithOplog_logs s' id obj o₁, _, by rw [saveNewObjectWithOplog_objs, KeyStore.get_put, if_pos rfl], ?_⟩
      rw [saveNewObjectWithOplog_obj]
      split_ifs
      · exact .inr rfl
      · exact .inl rfl

theorem inv_createSaved (h : t.Inv s) (hobj : t.OpenAt s obj) (hlog : s.logs.get logID = some u) (hsigner : t.LegalSigner signer)
    (hother : ¬ t.Updates u) (hle : KeepsTime signer obj u) (hlogs : s'.logs = s.logs) (hobj₁ : t.OpenAt s' obj₁)
    (hts₁ : obj.updateTS.order ≤ obj₁.updateTS.order) (hsync₁ : obj₁.syncInfo = obj.syncInfo) :
    t.Inv (syncCreateAckSaveOplog signer t.id obj₁ { u with isSync := true } s').2 := by
  have huid : u.id = logID := h.keyed logID u hlog
  obtain ⟨hlogs', obj₂, hget₂, hobj₂⟩ := syncCreateAckSaveOplog_final signer t.id { u with isSync := true } hobj₁.1
  rw [if_pos (show ({ u with isSync := true } : BaseOplog).isSync = true from rfl)] at hlogs' hobj₂
  have hsigned : ¬ t.Updates (setOplogIsSync signer u) := fun hu => hother (hsigner { u with isSync := true } hu)
  have hsaved : t.Inv (s.saveLog (setOplogIsSync signer u)).2 := by
    refine inv_saveLog_other h hsigned fun v hv hvalid => hother ?_
    rw [show (setOplogIsSync signer u).id = u.id from signer.sign_id _, huid, hlog] at hv
    cases hv
    exact hvalid.1
  have hobj' : t.OpenAt (s.saveLog (setOplogIsSync signer u)).2 obj := (openAt_congr (saveLog_objs _ _)).2 hobj
  refine inv_raise hsaved hobj' (hlogs'.trans (saveLog_logs_congr hlogs _)) ⟨hget₂, ?_⟩ ?_ fun sync hsync => ⟨sync, ?_, rfl⟩
  · rcases hobj₂ with rfl | rfl
    · exact hobj₁.2
    · exact fun hdel => absurd (Nat.le_trans hdel (toStatus_le_alive _)) (by decide)
  · rcases hobj₂ with rfl | rfl
    · exact hts₁
    · exact hle.2
  · rcases hobj₂ with rfl | rfl
    · exact hsync₁.trans hsync
    · exact hsync₁.trans hsync

theorem checkIsAllGood_fields (obj : Object δ) :
    obj.checkIsAllGood.2.updateTS = obj.updateTS ∧ obj.checkIsAllGood.2.status = obj.status ∧
      obj.checkIsAllGood.2.syncInfo = obj.syncInfo ∧ (obj.checkIsAllGood.1 = true → obj.checkIsAllGood.2.isAllGood = true) := by
  unfold Object.checkIsAllGood
  split_ifs with hall
  · exact ⟨rfl, rfl, rfl, fun _ => hall⟩
  · exact ⟨rfl, rfl, rfl, fun h => (by cases h)⟩
  · exact ⟨rfl, rfl, rfl, fun h => (by cases h)⟩
  · exact ⟨rfl, rfl, rfl, fun _ => rfl⟩

theorem inv_createNew (h : t.Inv s) (hobj : t.OpenAt s obj) (hlog : s.logs.get logID = some u) (hsigner : t.LegalSigner signer)
    (hother : ¬ t.Updates u) (hle : KeepsTime signer obj u) (hgood : obj₁.isAllGood = true) (hsync : obj₁.syncInfo = obj.syncInfo) :
    t.Inv (syncCreateAckSaveOplog signer t.id (s.saveNewObjectWithOplog t.id obj₁ u).2.1 (s.saveNewObjectWithOplog t.id obj₁ u).1
      (s.saveNewObjectWithOplog t.id obj₁ u).2.2).2 := by
  have hnew : s.saveNewObjectWithOplog t.id obj₁ u =
      ({ u with isSync := true }, obj₁.setNewObjectWithOplog u, s.saveObj t.id (obj₁.setNewObjectWithOplog u)) := if_pos hgood
  rw [hnew]
  refine inv_createSaved h hobj hlog hsigner hother hle rfl (openAt_saveObj ?_) hle.1 hsync
  exact fun hdel => absurd (Nat.le_trans hdel (toStatus_le_alive u)) (by decide)

theorem inv_createObjectAck {ack : CreateAck δ} (h : t.Inv s) (hid : ack.id = t.id) (hsigner : t.LegalSigner ack.signer)
    (hfits : ∀ obj, s.objs.get t.id = some obj → obj.isGood = false → ¬ .deleted ≤ obj.status ∧
      ∀ logID u, ack.logID = some logID → s.logs.get logID = some u → u.isSync = false → ¬ t.Updates u ∧ KeepsTime ack.signer obj u) :
    t.Inv (handleSyncCreateObjectAck ack s).2 := by
  unfold handleSyncCreateObjectAck
  cases hlogID : ack.logID with
  | none => exact h
  | some logID =>
    dsimp only
    rw [hid]
    cases hlog : s.logs.get logID with
    | none => exact h
    | some u =>
      cases hget : s.objs.get t.id with
      | none => exact h
      | some obj =>
        dsimp only
        unfold handleSyncCreateObjectAckCore
        rw [hid]
        split_ifs with hsync hgood hall hown
        · exact h
        · -- the log is not synced, it is only saved once more
          have hresave := inv_resave h hlog
          rw [Bool.not_eq_true] at hsync
          unfold syncCreateAckSaveOplog
          dsimp only
          rw [hsync, if_neg Bool.false_ne_true]
          rcases hsave : s.saveLog u with ⟨e | x, s'⟩ <;> rw [hsave] at hresave
          · exact hresave
          · dsimp only
            rw [hsync]
            exact hresave
        · exact h
        · obtain ⟨hopen, hlogs⟩ := hfits obj hget (Bool.eq_false_iff.2 hgood)
          obtain ⟨hother, hle⟩ := hlogs logID u hlogID hlog (Bool.eq_false_iff.2 hsync)
          unfold CreateAck.received
          rcases ack.updateCreateObject obj with e | ⟨blockInfo, data⟩
          · exact h
          · dsimp only [Except.map]
            obtain ⟨hts, hstatus, hsyncInfo, hall⟩ := checkIsAllGood_fields { obj with blockInfo := blockInfo, data := data, isGood := true }
            generalize ({ obj with blockInfo := blockInfo, data := data, isGood := true } : Object δ).checkIsAllGood = r
              at hts hstatus hsyncInfo hall
            obtain ⟨isAllGood, obj₁⟩ := r
            cases isAllGood with
            | false =>
              refine inv_raise h ⟨hget, hopen⟩ rfl (openAt_saveObj (hstatus ▸ hopen)) (hts ▸ le_refl _) ?_
              exact fun sync hs => ⟨sync, hsyncInfo.trans hs, rfl⟩
            | true => exact inv_createNew h ⟨hget, hopen⟩ hlog hsigner hother hle (hall rfl) hsyncInfo
        · obtain ⟨hopen, hlogs⟩ := hfits obj hget (Bool.eq_false_iff.2 hgood)
          obtain ⟨hother, hle⟩ := hlogs logID u hlogID hlog (Bool.eq_false_iff.2 hsync)
          exact inv_createSaved h ⟨hget, hopen⟩ hlog hsigner hother hle rfl ⟨hget, hopen⟩ (le_refl _) rfl

theorem inv_createBlockAck {ack : BlockAck} (h : t.Inv s) (hid : ack.id = t.id) (hsigner : t.LegalSigner ack.signer)
    (hfits : ∀ obj, s.objs.get t.id = some obj → obj.isAllGood = false → ¬ .deleted ≤ obj.status ∧
      ∀ logID u, obj.logID = some logID → s.logs.get logID = some u → ¬ t.Updates u ∧ KeepsTime ack.signer obj u) :
    t.Inv (handleSyncCreateBlockAck ack s).2 := by
  unfold handleSyncCreateBlockAck
  rw [hid]
  cases hget : s.objs.get t.id with
  | none => exact h
  | some obj =>
    dsimp only
    unfold handleSyncCreateBlockAckCore
    rw [hid]
    split_ifs with hgood
    · exact h
    obtain ⟨hopen, hlogs⟩ := hfits obj hget (Bool.eq_false_iff.2 hgood)
    rcases ack.received obj.creatorID obj.blockInfo with e | _ | b
    · exact h
    · exact h
    dsimp only
    obtain ⟨hts, hstatus, hsyncInfo, hall⟩ := checkIsAllGood_fields { obj with blockInfo := some b }
    have hlogID : ({ obj with blockInfo := some b } : Object δ).checkIsAllGood.2.logID = obj.logID := by
      unfold Object.checkIsAllGood
      split_ifs <;> rfl
    generalize ({ obj with blockInfo := some b } : Object δ).checkIsAllGood = r at hts hstatus hsyncInfo hall hlogID
    obtain ⟨isAllGood, obj₁⟩ := r
    cases isAllGood with
    | false =>
      refine inv_raise h ⟨hget, hopen⟩ rfl (openAt_saveObj (hstatus ▸ hopen)) (hts ▸ le_refl _) ?_
      exact fun sync hs => ⟨sync, hsyncInfo.trans hs, rfl⟩
    | true =>
      rw [hlogID, Bool.not_true, if_neg Bool.false_ne_true]
      cases hobjLog : obj.logID with
      | none => exact h
      | some logID =>
        dsimp only
        cases hlog : s.logs.get logID with
        | none => exact h
        | some u =>
          obtain ⟨hother, hle⟩ := hlogs logID u hobjLog hlog
          exact inv_createNew h ⟨hget, hopen⟩ hlog hsigner hother hle (hall rfl) hsyncInfo

end SyncedUpdatesAux

end PttaiCore
