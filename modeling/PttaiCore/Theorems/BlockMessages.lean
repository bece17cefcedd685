import PttaiCore.BlockMessages
import PttaiCore.Lib.Local
import PttaiCore.Theorems.ObjectFinal
import PttaiCore.Theorems.Signing

/-! # A message with blocks of several objects is like several messages -/

namespace PttaiCore

variable {δ : Type}

def BlockInfoFits (old b : Option BlockInfo) : Prop :=
  (b = none → old = none) ∧
    ∀ x y, old = some x → b = some y → (y.hashs = [] → x.hashs = []) ∧ (y.isGood = none ∨ y.isGood = some [] → x.isGood = none)

def SyncInfoFits (old sync : Option SyncInfo) : Prop :=
  (sync = none → old = none) ∧ ∀ x y, old = some x → sync = some y → BlockInfoFits x.blockInfo y.blockInfo

structure Object.Fits (C : DataJson δ) (old obj : Object δ) : Prop where
  logID : obj.logID = none → old.logID = none
  updateLogID : obj.updateLogID = none → old.updateLogID = none
  blockInfo : BlockInfoFits old.blockInfo obj.blockInfo
  syncInfo : SyncInfoFits old.syncInfo obj.syncInfo
  data : C.readInto old.data obj.data = obj.data

def createWaits (obj : Object δ) : Option BlockInfo := if obj.isAllGood then none else obj.blockInfo

def updateWaits (obj : Object δ) : Option BlockInfo := obj.syncInfo.bind fun sync => if sync.isAllGood then none else sync.blockInfo

def BlockAck.Idle (ack : BlockAck) (waits : Option BlockInfo) : Prop := ∀ b, waits = some b → ack.blocks b.id = none

def StepFits (C : DataJson δ) (waits : Object δ → Option BlockInfo) (ack : BlockAck) (old : Object δ) (s : Books δ) : Prop :=
  ∀ obj, s.objs.get ack.id = some obj → old.Fits C obj ∨
    ack.Idle (waits (old.readInto C obj)) ∧ ack.Idle (waits ((Object.empty C).readInto C obj))

def FitsAlong (C : DataJson δ) (step : AckStep δ) (waits : Object δ → Option BlockInfo) : Object δ → List BlockAck → Books δ → Prop
  | _, [], _ => True
  | old, ack :: acks, s =>
    StepFits C waits ack old s ∧
      FitsAlong C step waits (loadAndHandle C step ack old s).1.2 acks (loadAndHandle C step ack old s).2

def syncLogID (obj : Object δ) : Option PttID := obj.syncInfo.map SyncInfo.logID

def NoSharedLog (logOf : Object δ → Option PttID) (acks : List BlockAck) (s : Books δ) : Prop :=
  acks.Pairwise fun a b => ∀ x y l, s.objs.get a.id = some x → s.objs.get b.id = some y → logOf x = some l → logOf y ≠ some l

def handleSeparately (C : DataJson δ) (step : AckStep δ) (acks : List BlockAck) (s : Books δ) : Option Err × Books δ :=
  Local.runAll (fun ack s => handleBlockAcks C step (Object.empty C) [ack] s) acks s

namespace BlockMessagesAux

variable {C : DataJson δ} {step : AckStep δ} {waits : Object δ → Option BlockInfo} {ack : BlockAck} {acks : List BlockAck}
  {old obj : Object δ} {s : Books δ}

/-! ## Reading -/

theorem readMarks_eq_iff {old g : Option (List (List Bool))} :
    readMarks old g = readMarks none g ↔ (g = none ∨ g = some [] → old = none) := by
  rcases g with _ | _ | ⟨row, rows⟩
  · simp [readMarks]
  · simp [readMarks]
  · simp [readMarks]

theorem readBlockInfo_eq_iff {old b : Option BlockInfo} : readBlockInfo old b = readBlockInfo none b ↔ BlockInfoFits old b := by
  cases b with
  | none => simp [readBlockInfo, BlockInfoFits]
  | some b =>
    cases old with
    | none => simp [BlockInfoFits]
    | some old =>
      have hhashs : (if b.hashs = [] then old.hashs else b.hashs) = b.hashs ↔ (b.hashs = [] → old.hashs = []) := by
        split_ifs with h <;> simp [h]
      simp only [readBlockInfo, BlockInfo.readInto, BlockInfoFits, Option.some.injEq, BlockInfo.mk.injEq, true_and, and_true,
        reduceCtorEq, IsEmpty.forall_iff, readMarks_eq_iff, hhashs]
      constructor
      · rintro h x y rfl rfl
        exact h
      · exact fun h => h old b rfl rfl

theorem readSyncInfo_eq_iff {old sync : Option SyncInfo} : readSyncInfo old sync = readSyncInfo none sync ↔ SyncInfoFits old sync := by
  cases sync with
  | none => simp [readSyncInfo, SyncInfoFits]
  | some sync =>
    cases old with
    | none => simp [SyncInfoFits]
    | some old => simp [readSyncInfo, SyncInfoFits, readBlockInfo_eq_iff]

theorem orElse_eq_iff {α : Type} {a old : Option α} : (a <|> old) = (a <|> none) ↔ (a = none → old = none) := by
  cases a <;> simp

end BlockMessagesAux

open BlockMessagesAux in
theorem readInto_eq_iff (C : DataJson δ) (old obj : Object δ) :
    old.readInto C obj = (Object.empty C).readInto C obj ↔ old.Fits C obj := by
  simp only [Object.readInto, Object.empty, Object.mk.injEq, true_and, orElse_eq_iff, readBlockInfo_eq_iff, readSyncInfo_eq_iff,
    C.readInto_empty]
  constructor
  · rintro ⟨hlog, hupdate, hblock, hsync, hdata⟩
    exact ⟨hlog, hupdate, hblock, hsync, hdata⟩
  · intro h
    exact ⟨h.logID, h.updateLogID, h.blockInfo, h.syncInfo, h.data⟩

namespace BlockMessagesAux

variable {C : DataJson δ} {step : AckStep δ} {waits : Object δ → Option BlockInfo} {ack : BlockAck} {acks : List BlockAck}
  {old obj : Object δ} {s : Books δ}

/-! ## The handlers without the object in memory -/

theorem received_cases (ack : BlockAck) (creatorID : PttID) (blockInfo : Option BlockInfo) :
    (∃ e, ack.receivedInto creatorID blockInfo = .error e ∧ ack.received creatorID blockInfo = .error e) ∨
      (∃ b, ack.receivedInto creatorID blockInfo = .ok (b, false) ∧ ack.received creatorID blockInfo = .ok none) ∨
      ∃ b, ack.receivedInto creatorID blockInfo = .ok (some b, true) ∧ ack.received creatorID blockInfo = .ok (some b) := by
  cases blockInfo with
  | none => exact .inr (.inl ⟨none, rfl, rfl⟩)
  | some b =>
    rw [BlockAck.received, BlockAck.receivedInto]
    cases ack.blocks b.id with
    | none => exact .inr (.inl ⟨some b, rfl, rfl⟩)
    | some blocks =>
      dsimp only
      rw [receiveBlocks, receiveInto]
      rcases shrinkBlocks b blocks with e | ⟨b', _ | ⟨x, l⟩⟩
      · exact .inl ⟨e, rfl, rfl⟩
      · exact .inr (.inl ⟨some b', rfl, rfl⟩)
      · dsimp only
        cases verifyBlocks (ack.verify creatorID) b' (x :: l) with
        | error e => exact .inl ⟨e, rfl, rfl⟩
        | ok u =>
          cases saveBlocks b' (x :: l) with
          | error e => exact .inl ⟨e, rfl, rfl⟩
          | ok b'' => exact .inr (.inr ⟨b'', rfl, rfl⟩)

theorem createBlockAckStep_eq (ack : BlockAck) (obj : Object δ) (s : Books δ) :
    ((createBlockAckStep ack obj s).1.1, (createBlockAckStep ack obj s).2) = handleSyncCreateBlockAckCore ack obj s := by
  unfold createBlockAckStep handleSyncCreateBlockAckCore
  by_cases hall : obj.isAllGood = true
  · rw [if_pos hall, if_pos hall]
  · rw [if_neg hall, if_neg hall]
    rcases received_cases ack obj.creatorID obj.blockInfo with ⟨e, h1, h2⟩ | ⟨b, h1, h2⟩ | ⟨b, h1, h2⟩
    · rw [h1, h2]
    · rw [h1, h2]
    · rw [h1, h2]
      dsimp only
      rcases ({ obj with blockInfo := some b } : Object δ).checkIsAllGood with ⟨_ | _, obj'⟩
      · rfl
      · cases obj'.logID with
        | none => rfl
        | some logID =>
          dsimp only
          cases s.logs.get logID with
          | none => rfl
          | some oplog => rfl

theorem updateBlockAckStep_eq (ack : BlockAck) (obj : Object δ) (s : Books δ) :
    ((updateBlockAckStep ack obj s).1.1, (updateBlockAckStep ack obj s).2) =
      obj.syncInfo.elim (none, s) fun sync => handleSyncUpdateBlockAckCore ack obj sync s := by
  unfold updateBlockAckStep
  cases obj.syncInfo with
  | none => rfl
  | some sync =>
    dsimp only [Option.elim_some]
    unfold handleSyncUpdateBlockAckCore
    by_cases hall : sync.isAllGood = true
    · rw [if_pos hall, if_pos hall]
    · rw [if_neg hall, if_neg hall]
      rcases received_cases ack sync.updaterID sync.blockInfo with ⟨e, h1, h2⟩ | ⟨b, h1, h2⟩ | ⟨b, h1, h2⟩
      · rw [h1, h2]
      · rw [h1, h2]
      · rw [h1, h2]
        dsimp only
        rcases ({ sync with blockInfo := some b } : SyncInfo).checkIsAllGood with ⟨_ | _, sync'⟩
        · rfl
        · cases s.logs.get sync'.logID with
          | none => rfl
          | some oplog => rfl

/-! ## A run that fits -/

theorem receivedInto_of_idle {creatorID : PttID} {blockInfo : Option BlockInfo} (h : ack.Idle blockInfo) :
    ack.receivedInto creatorID blockInfo = .ok (blockInfo, false) := by
  cases blockInfo with
  | none => rfl
  | some b => rw [BlockAck.receivedInto, h b rfl]

theorem createBlockAckStep_of_idle (s : Books δ) (h : ack.Idle (createWaits obj)) :
    ∃ obj', createBlockAckStep ack obj s = ((none, obj'), s) := by
  unfold createBlockAckStep
  unfold createWaits at h
  split_ifs at h ⊢
  · exact ⟨obj, rfl⟩
  · rw [receivedInto_of_idle h]
    exact ⟨_, rfl⟩

theorem updateBlockAckStep_of_idle (s : Books δ) (h : ack.Idle (updateWaits obj)) :
    ∃ obj', updateBlockAckStep ack obj s = ((none, obj'), s) := by
  unfold updateBlockAckStep
  unfold updateWaits at h
  cases hsync : obj.syncInfo with
  | none => exact ⟨obj, rfl⟩
  | some sync =>
    rw [hsync, Option.bind_some] at h
    dsimp only
    split_ifs at h ⊢
    · exact ⟨obj, rfl⟩
    · rw [receivedInto_of_idle h]
      exact ⟨_, rfl⟩

theorem handleBlockAcks_single (C : DataJson δ) (step : AckStep δ) (ack : BlockAck) (s : Books δ) :
    handleBlockAcks C step (Object.empty C) [ack] s =
      ((loadAndHandle C step ack (Object.empty C) s).1.1, (loadAndHandle C step ack (Object.empty C) s).2) := by
  rw [handleBlockAcks]
  rcases loadAndHandle C step ack (Object.empty C) s with ⟨⟨_ | e, obj⟩, s'⟩ <;> rfl

theorem loadAndHandle_of_fits (hidle : ∀ obj s, ack.Idle (waits obj) → ∃ obj', step ack obj s = ((none, obj'), s))
    (h : StepFits C waits ack old s) :
    handleBlockAcks C step (Object.empty C) [ack] s = ((loadAndHandle C step ack old s).1.1, (loadAndHandle C step ack old s).2) := by
  rw [handleBlockAcks_single]
  unfold loadAndHandle
  cases hget : s.objs.get ack.id with
  | none => rfl
  | some obj =>
    dsimp only
    rcases h obj hget with hfits | ⟨hold, hnew⟩
    · rw [(readInto_eq_iff C old obj).2 hfits]
    · obtain ⟨_, heq⟩ := hidle _ s hold
      obtain ⟨_, heq'⟩ := hidle _ s hnew
      rw [heq, heq']

theorem handleBlockAcks_eq (hidle : ∀ ack obj s, ack.Idle (waits obj) → ∃ obj', step ack obj s = ((none, obj'), s))
    (h : FitsAlong C step waits old acks s) : handleBlockAcks C step old acks s = handleSeparately C step acks s := by
  induction acks generalizing old s with
  | nil => rfl
  | cons ack acks ih =>
    have hstep := loadAndHandle_of_fits (hidle ack) h.1
    have hrest := ih h.2
    rw [handleBlockAcks, handleSeparately, Local.runAll, hstep]
    rcases hr : loadAndHandle C step ack old s with ⟨⟨_ | e, obj⟩, s'⟩
    · rw [hr] at hrest
      exact hrest
    · rfl

/-! ## The order of separate messages -/

open Local

def lookAt (s : Books δ) : PttID ⊕ PttID → Option (Object δ) ⊕ Option BaseOplog
  | .inl id => .inl (s.objs.get id)
  | .inr id => .inr (s.logs.get id)

theorem eq_of_lookAt (s t : Books δ) (h : lookAt s = lookAt t) : s = t := by
  have hobjs : s.objs = t.objs := KeyStore.ext_get fun id => Sum.inl.inj (congrFun h (.inl id))
  have hlogs : s.logs = t.logs := KeyStore.ext_get fun id => Sum.inr.inj (congrFun h (.inr id))
  cases s
  cases t
  cases hobjs
  cases hlogs
  rfl

variable {F : Set (PttID ⊕ PttID)} {id l : PttID} {o : BaseOplog} {signer : InternalSigner} {sync : SyncInfo}

theorem local_saveObj {ρ : Type} (r : ρ) (obj : Object δ) (hF : .inl id ∈ F) : LocalTo lookAt Books.LogsKeyed F fun s => (r, s.saveObj id obj) where
  keeps _ h := h
  frame s _ i hi := by
    cases i with
    | inl i =>
      have hne : i ≠ id := fun h => hi (h ▸ hF)
      simp [lookAt, Books.saveObj, hne]
    | inr i => rfl
  depends s t _ _ h := by
    refine ⟨rfl, fun i hi => ?_⟩
    cases i with
    | inl i =>
      have hi' : s.objs.get i = t.objs.get i := Sum.inl.inj (h (.inl i) hi)
      simp [lookAt, Books.saveObj, hi']
    | inr i => exact h (.inr i) hi

theorem saveLog_cases (o : BaseOplog) (g : Option BaseOplog) :
    (∀ s : Books δ, s.logs.get o.id = g → s.saveLog o = (.error .invalidOplog, s)) ∨
      ∀ s : Books δ, s.logs.get o.id = g → s.saveLog o = (.ok (), { s with logs := s.logs.put o.id o.notNewer }) := by
  unfold Books.saveLog
  by_cases hc : (o.masterLogID.isNone && g.any fun orig => decide (o.toStatus < orig.toStatus)) = true
  · exact .inl fun s hg => by rw [hg, if_pos hc]
  · exact .inr fun s hg => by rw [hg, if_neg hc]

theorem local_saveLog (hF : .inr o.id ∈ F) : LocalTo lookAt Books.LogsKeyed F fun s : Books δ => s.saveLog o where
  keeps s h := by
    rcases saveLog_cases o (s.logs.get o.id) with heq | heq
    · rw [heq s rfl]
      exact h
    · rw [heq s rfl]
      intro id x hx
      rw [KeyStore.get_put] at hx
      split_ifs at hx with hid
      · cases hx
        exact hid.symm
      · exact h id x hx
  frame s _ i hi := by
    rcases saveLog_cases o (s.logs.get o.id) with heq | heq
    · rw [heq s rfl]
    · rw [heq s rfl]
      cases i with
      | inl i => rfl
      | inr i =>
        have hne : i ≠ o.id := fun h => hi (h ▸ hF)
        simp [lookAt, hne]
  depends s t _ _ h := by
    have hg : s.logs.get o.id = t.logs.get o.id := Sum.inr.inj (h (.inr o.id) hF)
    rcases saveLog_cases o (t.logs.get o.id) with heq | heq
    · rw [heq s hg, heq t rfl]
      exact ⟨rfl, h⟩
    · rw [heq s hg, heq t rfl]
      refine ⟨rfl, fun i hi => ?_⟩
      cases i with
      | inl i => exact h (.inl i) hi
      | inr i =>
        have hi' : s.logs.get i = t.logs.get i := Sum.inr.inj (h (.inr i) hi)
        simp [lookAt, hi']

theorem local_withLog {Q : BaseOplog → Books δ → Option Err × Books δ} (hF : .inr l ∈ F) (e : Err)
    (hQ : ∀ o, o.id = l → LocalTo lookAt Books.LogsKeyed F (Q o)) :
    LocalTo lookAt Books.LogsKeyed F fun s => (s.logs.get l).elim (some e, s) fun o => Q o s := by
  have hread : LocalTo lookAt Books.LogsKeyed F fun s : Books δ => (s.logs.get l, s) :=
    ⟨fun _ h => h, fun _ _ _ _ => rfl, fun s t _ _ h => ⟨Sum.inr.inj (h (.inr l) hF), h⟩⟩
  refine hread.bind (Q := fun g s => g.elim (some e, s) fun o => Q o s) fun s hs => ?_
  cases hg : s.logs.get l with
  | none => exact LocalTo.pure _
  | some o => exact hQ o (hs l o hg)

theorem saveNewObjectWithOplog_eq (id : PttID) (obj : Object δ) (o : BaseOplog) :
    ∃ o' obj', o'.id = o.id ∧ ∀ s : Books δ, s.saveNewObjectWithOplog id obj o = (o', obj', s.saveObj id obj') := by
  by_cases hall : obj.isAllGood = true
  · exact ⟨{ o with isSync := true }, obj.setNewObjectWithOplog o, rfl, fun s => by rw [Books.saveNewObjectWithOplog, if_pos hall]⟩
  · exact ⟨o, obj, rfl, fun s => by rw [Books.saveNewObjectWithOplog, if_neg hall]⟩

theorem handleUpdateObjectSameLog_eq (id : PttID) (obj : Object δ) (sync : SyncInfo) (o : BaseOplog) :
    ∃ sync' obj' o', o'.id = o.id ∧ ∀ s : Books δ, handleUpdateObjectSameLog id obj sync o s = (sync', obj', o', s.saveObj id obj') := by
  unfold handleUpdateObjectSameLog handleUpdateObjectNewLog
  by_cases hc : (sync.checkIsAllGood.1 && o.toStatus == .alive) = true
  · exact ⟨_, _, { o with isSync := true }, rfl, fun s => by dsimp only; rw [if_pos hc]; rfl⟩
  · exact ⟨_, _, o, rfl, fun s => by dsimp only; rw [if_neg hc]⟩

theorem setOplogIsSync_id (signer : InternalSigner) (o : BaseOplog) : (setOplogIsSync signer o).id = o.id := signer.sign_id _

theorem local_syncCreateAckSaveOplog (obj : Object δ) (hobj : .inl id ∈ F) (hlog : .inr o.id ∈ F) :
    LocalTo lookAt Books.LogsKeyed F fun s => syncCreateAckSaveOplog signer id obj o s := by
  have hid : (if o.isSync then setOplogIsSync signer o else o).id = o.id := by
    split_ifs
    · exact setOplogIsSync_id signer o
    · rfl
  unfold syncCreateAckSaveOplog
  dsimp only
  generalize (if o.isSync then setOplogIsSync signer o else o) = o₁ at hid
  obtain ⟨o₂, obj₂, -, hsave⟩ := saveNewObjectWithOplog_eq id obj o₁
  have hrest : LocalTo lookAt Books.LogsKeyed F fun s : Books δ =>
      if !o₁.isSync then ((none : Option Err), s)
      else if obj.status = .alive then (none, s)
      else if o₁.toStatus < .alive then (none, s)
      else (none, s.saveObj id obj₂) := by
    split_ifs
    · exact LocalTo.pure _
    · exact LocalTo.pure _
    · exact LocalTo.pure _
    · exact local_saveObj none obj₂ hobj
  refine ((local_saveLog (hid ▸ hlog)).andThen hrest).congr fun s => ?_
  rw [andThen]
  rcases s.saveLog o₁ with ⟨e | u, s'⟩
  · rfl
  · simp only [hsave]

theorem local_syncUpdateAckSaveOplog (obj : Object δ) (hobj : .inl id ∈ F) (hlog : .inr o.id ∈ F) :
    LocalTo lookAt Books.LogsKeyed F fun s => syncUpdateAckSaveOplog signer id obj sync o s := by
  have hid : (if sync.isAllGood then setOplogIsSync signer o else o).id = o.id := by
    split_ifs
    · exact setOplogIsSync_id signer o
    · rfl
  unfold syncUpdateAckSaveOplog
  dsimp only
  generalize (if sync.isAllGood then setOplogIsSync signer o else o) = o₁ at hid
  obtain ⟨sync₂, obj₂, o₂, -, hsave⟩ := handleUpdateObjectSameLog_eq id obj sync o₁
  have hrest : LocalTo lookAt Books.LogsKeyed F fun s : Books δ =>
      if o₁.toStatus < .alive then ((none : Option Err), s) else (none, s.saveObj id obj₂) := by
    split_ifs
    · exact LocalTo.pure _
    · exact local_saveObj none obj₂ hobj
  refine ((local_saveLog (hid ▸ hlog)).andThen hrest).congr fun s => ?_
  rw [andThen]
  rcases s.saveLog o₁ with ⟨e | u, s'⟩
  · rfl
  · simp only [hsave]

def footprint (logOf : Object δ → Option PttID) (ack : BlockAck) (obj : Object δ) : Set (PttID ⊕ PttID) :=
  fun i => i = .inl ack.id ∨ ∃ l, logOf obj = some l ∧ i = .inr l

theorem inl_mem_footprint (logOf : Object δ → Option PttID) (ack : BlockAck) (obj : Object δ) : .inl ack.id ∈ footprint logOf ack obj :=
  .inl rfl

theorem inr_mem_footprint {logOf : Object δ → Option PttID} (h : logOf obj = some l) : .inr l ∈ footprint logOf ack obj :=
  .inr ⟨l, h, rfl⟩

theorem local_create (ack : BlockAck) (obj : Object δ) :
    LocalTo lookAt Books.LogsKeyed (footprint Object.logID ack obj) fun s => handleSyncCreateBlockAckCore ack obj s := by
  unfold handleSyncCreateBlockAckCore
  by_cases hall : obj.isAllGood = true
  · simp only [if_pos hall]
    exact LocalTo.pure _
  · simp only [if_neg hall]
    rcases ack.received obj.creatorID obj.blockInfo with e | _ | b
    · exact LocalTo.pure _
    · exact LocalTo.pure _
    · dsimp only
      have hlogID : ({ obj with blockInfo := some b } : Object δ).checkIsAllGood.2.logID = obj.logID := by
        unfold Object.checkIsAllGood
        split_ifs <;> rfl
      generalize ({ obj with blockInfo := some b } : Object δ).checkIsAllGood = r at hlogID
      obtain ⟨_ | _, obj₁⟩ := r
      · exact local_saveObj none obj₁ (inl_mem_footprint _ _ _)
      · cases hl : obj₁.logID with
        | none => exact LocalTo.pure _
        | some l =>
          have hmem : .inr l ∈ footprint Object.logID ack obj := inr_mem_footprint (hlogID.symm.trans hl)
          refine LocalTo.congr (local_withLog hmem .notFound (Q := fun o s =>
            syncCreateAckSaveOplog ack.signer ack.id (s.saveNewObjectWithOplog ack.id obj₁ o).2.1 (s.saveNewObjectWithOplog ack.id obj₁ o).1
              (s.saveNewObjectWithOplog ack.id obj₁ o).2.2) fun o ho => ?_) fun s => ?_
          · obtain ⟨o₂, obj₂, hid, hsave⟩ := saveNewObjectWithOplog_eq ack.id obj₁ o
            simp only [hsave]
            refine (local_saveObj () obj₂ (inl_mem_footprint _ _ _)).bind
              (Q := fun _ s => syncCreateAckSaveOplog ack.signer ack.id obj₂ o₂ s) fun _ _ => ?_
            exact local_syncCreateAckSaveOplog obj₂ (inl_mem_footprint _ _ _) (by rwa [hid, ho])
          · simp only [Bool.not_true, Bool.false_eq_true, if_false]
            cases s.logs.get l <;> rfl

theorem local_update (ack : BlockAck) (obj : Object δ) :
    LocalTo lookAt Books.LogsKeyed (footprint syncLogID ack obj) fun s =>
      obj.syncInfo.elim (none, s) fun sync => handleSyncUpdateBlockAckCore ack obj sync s := by
  cases hsync : obj.syncInfo with
  | none => exact LocalTo.pure _
  | some sync =>
    simp only [Option.elim_some]
    unfold handleSyncUpdateBlockAckCore
    by_cases hall : sync.isAllGood = true
    · simp only [if_pos hall]
      exact LocalTo.pure _
    · simp only [if_neg hall]
      rcases ack.received sync.updaterID sync.blockInfo with e | _ | b
      · exact LocalTo.pure _
      · exact LocalTo.pure _
      · dsimp only
        have hlogID : ({ sync with blockInfo := some b } : SyncInfo).checkIsAllGood.2.logID = sync.logID := by
          unfold SyncInfo.checkIsAllGood
          split_ifs <;> rfl
        generalize ({ sync with blockInfo := some b } : SyncInfo).checkIsAllGood = r at hlogID
        obtain ⟨_ | _, sync₁⟩ := r
        · exact local_saveObj none _ (inl_mem_footprint _ _ _)
        · have hmem : .inr sync₁.logID ∈ footprint syncLogID ack obj := inr_mem_footprint (by rw [syncLogID, hsync]; exact congrArg some hlogID.symm)
          refine LocalTo.congr (local_withLog hmem .notFound (Q := fun o s =>
            syncUpdateAckSaveOplog ack.signer ack.id (handleUpdateObjectSameLog ack.id obj sync₁ o s).2.1
              (handleUpdateObjectSameLog ack.id obj sync₁ o s).1 (handleUpdateObjectSameLog ack.id obj sync₁ o s).2.2.1
              (handleUpdateObjectSameLog ack.id obj sync₁ o s).2.2.2) fun o ho => ?_) fun s => ?_
          · obtain ⟨sync₂, obj₂, o₂, hid, hsave⟩ := handleUpdateObjectSameLog_eq ack.id obj sync₁ o
            simp only [hsave]
            refine (local_saveObj () obj₂ (inl_mem_footprint _ _ _)).bind
              (Q := fun _ s => syncUpdateAckSaveOplog ack.signer ack.id obj₂ sync₂ o₂ s) fun _ _ => ?_
            exact local_syncUpdateAckSaveOplog obj₂ (inl_mem_footprint _ _ _) (by rwa [hid, ho])
          · simp only [Bool.not_true, Bool.false_eq_true, if_false]
            cases s.logs.get sync₁.logID <;> rfl

def onStored (C : DataJson δ) (core : BlockAck → Object δ → Books δ → Option Err × Books δ) (s₀ : Books δ) (ack : BlockAck) (s : Books δ) :
    Option Err × Books δ :=
  (s₀.objs.get ack.id).elim (some .notFound, s) fun obj => core ack ((Object.empty C).readInto C obj) s

def storedFootprint (logOf : Object δ → Option PttID) (s₀ : Books δ) (ack : BlockAck) : Set (PttID ⊕ PttID) :=
  fun i => i = .inl ack.id ∨ ∃ obj l, s₀.objs.get ack.id = some obj ∧ logOf obj = some l ∧ i = .inr l

section order

variable {core : BlockAck → Object δ → Books δ → Option Err × Books δ} {logOf : Object δ → Option PttID} {s₀ : Books δ}
  (hcore : ∀ ack obj s, ((step ack obj s).1.1, (step ack obj s).2) = core ack obj s)
  (hlocal : ∀ ack obj, LocalTo lookAt Books.LogsKeyed (footprint logOf ack obj) (core ack obj))
  (hlogOf : ∀ obj, logOf ((Object.empty C).readInto C obj) = logOf obj)

include hlocal hlogOf in
theorem local_onStored (ack : BlockAck) : LocalTo lookAt Books.LogsKeyed (storedFootprint logOf s₀ ack) (onStored C core s₀ ack) := by
  unfold onStored
  cases hget : s₀.objs.get ack.id with
  | none => exact LocalTo.pure _
  | some obj =>
    refine (hlocal ack ((Object.empty C).readInto C obj)).mono ?_
    rintro i (hi | ⟨l, hl, hi⟩)
    · exact .inl hi
    · exact .inr ⟨obj, l, hget, (hlogOf obj).symm.trans hl, hi⟩

include hcore hlocal hlogOf in
theorem handleSeparately_eq (hkeyed : s.LogsKeyed) (hids : (acks.map BlockAck.id).Nodup)
    (hsame : ∀ ack ∈ acks, s.objs.get ack.id = s₀.objs.get ack.id) :
    handleSeparately C step acks s = runAll (onStored C core s₀) acks s := by
  induction acks generalizing s with
  | nil => rfl
  | cons ack acks ih =>
    rw [List.map_cons, List.nodup_cons] at hids
    rw [List.forall_mem_cons] at hsame
    have hstep : handleBlockAcks C step (Object.empty C) [ack] s = onStored C core s₀ ack s := by
      rw [handleBlockAcks_single, loadAndHandle, onStored, hsame.1]
      cases s₀.objs.get ack.id with
      | none => rfl
      | some obj => exact hcore ack _ s
    have hlocalAck : LocalTo lookAt Books.LogsKeyed (storedFootprint logOf s₀ ack) (onStored C core s₀ ack) :=
      local_onStored hlocal hlogOf ack
    have hkeyed' := hlocalAck.keeps s hkeyed
    have hsame' : ∀ b ∈ acks, (onStored C core s₀ ack s).2.objs.get b.id = s₀.objs.get b.id := by
      intro b hb
      rw [← hsame.2 b hb]
      refine Sum.inl.inj (hlocalAck.frame s hkeyed (.inl b.id) ?_)
      rintro (hid | ⟨_, _, _, _, hid⟩)
      · exact hids.1 (Sum.inl.inj hid ▸ List.mem_map_of_mem hb)
      · cases hid
    have hrest := ih hkeyed' hids.2 hsame'
    rw [handleSeparately, runAll, hstep, runAll]
    rcases hr : onStored C core s₀ ack s with ⟨_ | e, s'⟩
    · rw [hr] at hrest
      exact hrest
    · rfl

theorem disjoint_storedFootprint {acks : List BlockAck} (hids : (acks.map BlockAck.id).Nodup) (hlogs : NoSharedLog logOf acks s₀) :
    acks.Pairwise fun a b => Disjoint (storedFootprint logOf s₀ a) (storedFootprint logOf s₀ b) := by
  refine (List.pairwise_map.1 hids).imp₂ (fun a b hid hlog => ?_) hlogs
  rw [Set.disjoint_left]
  rintro i (hi | ⟨x, l, hx, hl, hi⟩) (hi' | ⟨y, l', hy, hl', hi'⟩)
  · exact hid (Sum.inl.inj (hi.symm.trans hi'))
  · cases hi.symm.trans hi'
  · cases hi.symm.trans hi'
  · cases Sum.inr.inj (hi.symm.trans hi')
    exact hlog x y l hx hy hl hl'

include hcore hlocal hlogOf in
theorem handleSeparately_perm {acks acks' : List BlockAck} {s' : Books δ} (hkeyed : s.LogsKeyed) (hids : (acks.map BlockAck.id).Nodup)
    (hlogs : NoSharedLog logOf acks s) (hperm : acks.Perm acks') (h : handleSeparately C step acks s = (none, s')) :
    handleSeparately C step acks' s = (none, s') := by
  have hids' : (acks'.map BlockAck.id).Nodup := (hperm.map BlockAck.id).nodup_iff.1 hids
  rw [handleSeparately_eq hcore hlocal hlogOf hkeyed hids fun _ _ => rfl] at h
  rw [handleSeparately_eq hcore hlocal hlogOf hkeyed hids' fun _ _ => rfl]
  exact runAll_perm eq_of_lookAt (fun ack _ => local_onStored hlocal hlogOf ack) (disjoint_storedFootprint hids hlogs) hkeyed hperm h

end order

theorem syncLogID_readInto (C : DataJson δ) (obj : Object δ) : syncLogID ((Object.empty C).readInto C obj) = syncLogID obj := by
  unfold syncLogID Object.readInto Object.empty
  cases obj.syncInfo <;> rfl

theorem logID_readInto (C : DataJson δ) (obj : Object δ) : ((Object.empty C).readInto C obj).logID = obj.logID := by
  unfold Object.readInto Object.empty
  cases obj.logID <;> rfl

end BlockMessagesAux

namespace BlockMessagesWitness

open SigningWitness

def plain : DataJson Unit := ⟨(), fun _ d => d, fun _ => rfl⟩

def info (id : UInt8) (nBlock : Nat) : BlockInfo where
  id := idOf id
  nBlock := nBlock
  hashs := List.replicate nBlock [[1], [2]]
  isGood := some (BlockInfo.noneGood nBlock)
  isAllGood := false

def newObject (log : UInt8) (blocks : BlockInfo) : Object Unit :=
  { Object.empty plain with logID := some (idOf log), status := .internalSync, isGood := true
                            blockInfo := some blocks }

def change (log : UInt8) (blocks : BlockInfo) : SyncInfo :=
  { logID := idOf log, updateTS := ⟨5, 0⟩, updaterID := idOf 1, status := .internalSync, blockInfo := some blocks, isGood := true
    isAllGood := false }

def changing (log updateLog : UInt8) (blocks : BlockInfo) : Object Unit :=
  { Object.empty plain with logID := some (idOf log), status := .alive, isGood := true, isAllGood := true
                            syncInfo := some (change updateLog blocks) }

def ackOf (id blocksID : UInt8) (subBlockIDs : List UInt8) : BlockAck where
  signer := ObjectFinalWitness.noSigner
  id := idOf id
  blocks i := if i = idOf blocksID then
    some (subBlockIDs.map fun j => ⟨idOf blocksID, 0, j, [7], idOf id, []⟩) else none
  verify _ _ _ := .ok ()

def news : Books Unit where
  objs := (KeyStore.empty.put (idOf 1) (newObject 11 (info 21 2))).put (idOf 2) (newObject 12 (info 22 2))
  logs := KeyStore.empty

def changes : Books Unit where
  objs := (KeyStore.empty.put (idOf 1) (changing 11 13 (info 21 1))).put (idOf 2) (changing 12 14 (info 22 2))
  logs := KeyStore.empty.put (idOf 13)
    { BaseOplog.new (idOf 13) (some (idOf 1)) ⟨5, 0⟩ (idOf 1) 1 none with masterLogID := some (idOf 13) }

theorem stepFits_of {waits : Object Unit → Option BlockInfo} {ack : BlockAck} {old obj : Object Unit} {s : Books Unit}
    (hget : s.objs.get ack.id = some obj) (h : old.readInto plain obj = (Object.empty plain).readInto plain obj) :
    StepFits plain waits ack old s := by
  intro obj' hget'
  cases hget.symm.trans hget'
  exact .inl ((readInto_eq_iff plain old obj).1 h)

theorem fitsAlong_two {step : AckStep Unit} {waits : Object Unit → Option BlockInfo} {a b : BlockAck} {x y : Object Unit} {s : Books Unit}
    (hx : s.objs.get a.id = some x) (hy : (loadAndHandle plain step a (Object.empty plain) s).2.objs.get b.id = some y)
    (hload : (loadAndHandle plain step a (Object.empty plain) s).1.2.readInto plain y = (Object.empty plain).readInto plain y) :
    FitsAlong plain step waits (Object.empty plain) [a, b] s :=
  ⟨stepFits_of hx rfl, stepFits_of hy hload, trivial⟩

theorem noSharedLog_two {logOf : Object Unit → Option PttID} {a b : BlockAck} {x y : Object Unit} {s : Books Unit}
    (hx : s.objs.get a.id = some x) (hy : s.objs.get b.id = some y) (hne : logOf x ≠ logOf y) : NoSharedLog logOf [a, b] s := by
  refine List.pairwise_pair.2 fun x' y' l hx' hy' hl hl' => ?_
  cases hx.symm.trans hx'
  cases hy.symm.trans hy'
  exact hne (hl.trans hl'.symm)

end BlockMessagesWitness

end PttaiCore
