import PttaiCore.PendingLogs
import PttaiCore.Lemmas.ObjectLogs

/-! # What accepting an oplog does to the oplogs that are stored -/

namespace PttaiCore

open Books BaseOplog KeyStore Timestamp

variable {δ : Type} {s s' : Books δ} {id : PttID} {obj : Object δ} {o l : BaseOplog}

namespace BaseOplog

/-! ## Versions of one oplog -/

variable {o o' : BaseOplog}

theorem id_eq_of_content (h : o'.blankSigns = o.blankSigns) : o'.id = o.id :=
  show o'.blankSigns.id = o.blankSigns.id from congrArg BaseOplog.id h

theorem objID_eq_of_content (h : o'.blankSigns = o.blankSigns) : o'.objID = o.objID :=
  show o'.blankSigns.objID = o.blankSigns.objID from congrArg BaseOplog.objID h

theorem op_eq_of_content (h : o'.blankSigns = o.blankSigns) : o'.op = o.op :=
  show o'.blankSigns.op = o.blankSigns.op from congrArg BaseOplog.op h

theorem preLogID_eq_of_content (h : o'.blankSigns = o.blankSigns) : o'.preLogID = o.preLogID :=
  show o'.blankSigns.preLogID = o.blankSigns.preLogID from congrArg BaseOplog.preLogID h

theorem toStatus_ne_alive_iff : o.toStatus ≠ .alive ↔ o.masterLogID.isSome = false := by
  rw [ne_eq, toStatus_eq_alive_iff, Bool.not_eq_true]

end BaseOplog

namespace Books

/-! ## Saving and removing oplogs -/

theorem saveLog_cases (s : Books δ) (o : BaseOplog) :
    (s.saveLog o).2 = s ∧ o.toStatus ≠ .alive ∨
      (s.saveLog o).2 = { s with logs := s.logs.put o.id o.notNewer } ∧
        (o.toStatus ≠ .alive → ∀ orig, s.logs.get o.id = some orig → orig.toStatus ≠ .alive) := by
  unfold saveLog
  split_ifs with h
  · refine .inl ⟨rfl, fun halive => ?_⟩
    rw [toStatus_eq_alive_iff, ← Option.not_isNone] at halive
    rw [Bool.and_eq_true] at h
    rw [h.1] at halive
    cases halive
  · refine .inr ⟨rfl, fun hpending orig hget halive => h ?_⟩
    have hnone : o.masterLogID.isNone = true := by
      rw [← Option.not_isSome, toStatus_ne_alive_iff.1 hpending]
      rfl
    rw [hget, hnone, Option.any_some, Bool.true_and, decide_eq_true_eq, halive]
    exact (toStatus_lt_alive_iff o).2 hpending

structure LogsKept (isRetainValid : Bool) (l : BaseOplog) (s s' : Books δ) : Prop where
  objs : s'.objs = s.objs
  own : s'.logs.get l.id = s.logs.get l.id
  kept (i : PttID) (o' : BaseOplog) : s'.logs.get i = some o' → ∃ o, s.logs.get i = some o ∧
    (o' = o ∨ isRetainValid = true ∧ o' = { o with isSync := true }.notNewer ∧ o.updateTS.isLess l.updateTS = true)

theorem LogsKept.refl (b : Bool) (l : BaseOplog) (s : Books δ) : LogsKept b l s s :=
  ⟨rfl, rfl, fun _ o' h => ⟨o', h, .inl rfl⟩⟩

theorem removeBlockAndMediaInfoBySyncInfo_cases (b : Bool) (sync : SyncInfo) (hne : sync.logID ≠ l.id)
    (hkeyed : s.LogsKeyed) :
    (∃ s', s.removeBlockAndMediaInfoBySyncInfo sync l b = (.ok (), s') ∧ LogsKept b l s s') ∨
      s.logs.get sync.logID = none ∧ ∃ e, s.removeBlockAndMediaInfoBySyncInfo sync l b = (.error e, s) ∧ e ≠ .newerOplog := by
  unfold removeBlockAndMediaInfoBySyncInfo removeNonSyncOplog getLog
  rw [if_neg hne]
  cases hget : s.logs.get sync.logID with
  | none => exact .inr ⟨rfl, .notFound, rfl, by decide⟩
  | some q =>
    refine .inl ?_
    simp only [Option.elim_some]
    split_ifs with hsynced hretained
    · exact ⟨s, rfl, LogsKept.refl b l s⟩
    · rw [Bool.and_eq_true, Bool.and_eq_true, beq_iff_eq] at hretained
      have hid : q.id = sync.logID := hkeyed _ _ hget
      have halive : ({ q with isSync := true } : BaseOplog).toStatus = .alive := hretained.1.2
      refine ⟨_, rfl, ?_⟩
      rw [saveLog_of_alive halive]
      refine ⟨rfl, (get_put _ _ _ _).trans (if_neg ?_), fun i o' h => ?_⟩
      · rw [show ({ q with isSync := true } : BaseOplog).id = sync.logID from hid]
        exact Ne.symm hne
      · change (s.logs.put q.id _).get i = some o' at h
        rw [get_put] at h
        split_ifs at h with hi
        · cases h
          exact ⟨q, by rw [hi, hid, hget], Or.inr ⟨hretained.1.1, rfl, hretained.2⟩⟩
        · exact ⟨o', h, .inl rfl⟩
    · refine ⟨_, rfl, rfl, (get_delete _ _ _).trans (if_neg (Ne.symm hne)), fun i o' h => ?_⟩
      change (s.logs.delete sync.logID).get i = some o' at h
      rw [get_delete] at h
      split_ifs at h
      exact ⟨o', h, .inl rfl⟩

end Books

/-! ## Taking an updating log -/

def Taken (l : BaseOplog) (obj obj' : Object δ) : Prop :=
  l.toStatus = .alive ∧ obj'.updateTS = l.updateTS ∧ obj'.status = .alive ∧ obj'.syncInfo = none ∨
    obj'.updateTS = obj.updateTS ∧ obj'.status = obj.status ∧ ∃ sync, obj'.syncInfo = some sync ∧ sync.logID = l.id

theorem handleUpdateObjectNewLog_taken (id : PttID) (obj : Object δ) (sync : SyncInfo) (l : BaseOplog) (s : Books δ)
    (hid : sync.logID = l.id) : Taken l obj (handleUpdateObjectNewLog id obj sync l s).2.1 := by
  have hcheck : sync.checkIsAllGood.2.logID = l.id := by
    rw [← hid]
    unfold SyncInfo.checkIsAllGood
    split_ifs <;> rfl
  unfold handleUpdateObjectNewLog
  dsimp only
  by_cases h : (sync.checkIsAllGood.1 && l.toStatus == .alive) = true
  · rw [if_pos h]
    rw [Bool.and_eq_true, beq_iff_eq] at h
    exact .inl ⟨h.2, rfl, rfl, rfl⟩
  · rw [if_neg h]
    refine .inr ⟨rfl, rfl, _, rfl, ?_⟩
    split_ifs
    · exact hcheck
    · exact hcheck

theorem handleUpdateObjectNewLog_log (id : PttID) (obj : Object δ) (sync : SyncInfo) (l : BaseOplog) (s : Books δ) :
    ∃ b, (handleUpdateObjectNewLog id obj sync l s).2.2.1 = { l with isSync := b } ∧ (l.toStatus ≠ .alive → b = l.isSync) := by
  rw [handleUpdateObjectNewLog_oplog]
  split_ifs with h
  · exact ⟨true, rfl, fun hne => absurd h.2 hne⟩
  · exact ⟨l.isSync, rfl, fun _ => rfl⟩

theorem not_lt_alive_of_not_replaced {sync : SyncInfo} (halive : l.toStatus = .alive)
    (h : isReplaceOrigSyncInfo (some sync) l.toStatus l.updateTS l.id = false) : ¬ statusToStatusClass sync.status < .alive := by
  intro hlt
  have hlower : lowerTerminal (statusToStatusClass sync.status) < .alive := lt_of_le_of_lt (lowerTerminal_le _) hlt
  rw [halive, isReplaceOrigSyncInfo, SyncInfo.isReplaced] at h
  simp only [show statusToStatusClass .alive = .alive from rfl, not_lt_of_gt hlower, hlower, if_true, if_false] at h
  cases h

structure UpdateRefused (inp : UpdateInput) (l : BaseOplog) (obj : Object δ) (s : Books δ) (e : Err) : Prop where
  /-- It is older than the object, marked as newer, or another log waits that it does not replace; reading it could fail like this, too. -/
  newer : e = .newerOplog → l.updateTS.isLess obj.updateTS = true ∨ l.isNewer = true ∨
    (∃ sync, obj.syncInfo = some sync ∧ isReplaceOrigSyncInfo (some sync) l.toStatus l.updateTS l.id = false) ∨
    inp.getData = .error .newerOplog ∨ inp.content = .error .newerOplog
  /-- It does not follow the object's log, its data cannot be read, or the log that waits is missing. -/
  other : e ≠ .newerOplog → obj.logID = l.preLogID → inp.getData = .ok () → (∃ content, inp.content = .ok content) →
    ∃ sync, obj.syncInfo = some sync ∧ s.logs.get sync.logID = none

theorem handleUpdateObjectWithNewSyncInfo_cases (b : Bool) (id : PttID) (obj : Object δ) (newSync : SyncInfo) (l : BaseOplog)
    (s : Books δ) (hnew : newSync.logID = l.id) (hkeyed : s.LogsKeyed) :
    (∃ e sync, handleUpdateObjectWithNewSyncInfo b id obj newSync l s = (some e, l, s) ∧ obj.syncInfo = some sync ∧
        (e = .newerOplog → isReplaceOrigSyncInfo (some sync) l.toStatus l.updateTS l.id = false) ∧
        (e ≠ .newerOplog → s.logs.get sync.logID = none)) ∨
      ∃ s' obj' l', handleUpdateObjectWithNewSyncInfo b id obj newSync l s = (none, l', s'.saveObj id obj') ∧ LogsKept b l s s' ∧
        Taken l obj obj' ∧ ∃ m, l' = { l with isSync := m } ∧ (l.toStatus ≠ .alive → m = l.isSync) := by
  -- the new object is that of `handleUpdateObjectNewLog`, for an object without a sync info
  have htaken : ∀ (obj₀ : Object δ) (sync₀ : SyncInfo) (s₀ : Books δ), obj₀.updateTS = obj.updateTS → obj₀.status = obj.status →
      sync₀.logID = l.id → LogsKept b l s s₀ →
      ∃ s' obj' l', ((none : Option Err), (handleUpdateObjectNewLog id obj₀ sync₀ l s₀).2.2) = (none, l', s'.saveObj id obj') ∧
        LogsKept b l s s' ∧ Taken l obj obj' ∧ ∃ m, l' = { l with isSync := m } ∧ (l.toStatus ≠ .alive → m = l.isSync) := by
    intro obj₀ sync₀ s₀ hts hstatus hid hkept
    refine ⟨s₀, _, _, by rw [← handleUpdateObjectNewLog_books], hkept, ?_, handleUpdateObjectNewLog_log id obj₀ sync₀ l s₀⟩
    have h := handleUpdateObjectNewLog_taken id obj₀ sync₀ l s₀ hid
    rwa [Taken, hts, hstatus] at h
  unfold handleUpdateObjectWithNewSyncInfo
  cases hsync : obj.syncInfo with
  | none => exact .inr (htaken obj newSync s rfl rfl hnew (LogsKept.refl b l s))
  | some sync =>
    dsimp only
    split_ifs with hreplaced hsame
    · refine .inl ⟨.newerOplog, sync, rfl, rfl, fun _ => ?_, fun h => absurd rfl h⟩
      simpa using hreplaced
    · exact .inr (htaken { obj with syncInfo := none } sync s rfl rfl hsame (LogsKept.refl b l s))
    · rcases removeBlockAndMediaInfoBySyncInfo_cases b sync hsame hkeyed with ⟨s', hr, hkept⟩ | ⟨hnone, e, hr, hne⟩
      · rw [hr]
        exact .inr (htaken { obj with syncInfo := none } newSync s' rfl rfl hnew hkept)
      · rw [hr]
        exact .inl ⟨e, sync, rfl, rfl, fun h => absurd h hne, fun _ => hnone⟩

theorem handleUpdateObjectCore_cases (b : Bool) (inp : UpdateInput) (hobj : l.objID = some id) (hget : s.objs.get id = some obj)
    (hopen : ¬ .deleted ≤ obj.status) (hlast : obj.updateLogID ≠ some l.id) (hkeyed : s.LogsKeyed) :
    (∃ e, handleUpdateObjectCore b inp l s = (some e, l, s) ∧ UpdateRefused inp l obj s e) ∨
      l.updateTS.isLess obj.updateTS = false ∧ ∃ s' obj' l', handleUpdateObjectCore b inp l s = (none, l', s'.saveObj id obj') ∧
        LogsKept b l s s' ∧ Taken l obj obj' ∧ ∃ m, l' = { l with isSync := m } ∧ (l.toStatus ≠ .alive → m = l.isSync) := by
  generalize hr : handleUpdateObjectCore b inp l s = r
  unfold handleUpdateObjectCore at hr
  simp only [hobj, hget, if_neg hopen, if_neg hlast] at hr
  split_ifs at hr with hpre hold hnewer
  · exact .inl ⟨_, hr.symm, by simp, fun _ h => absurd h hpre⟩
  · exact .inl ⟨_, hr.symm, fun _ => .inl hold, fun h => absurd rfl h⟩
  · exact .inl ⟨_, hr.symm, fun _ => .inr (.inl hnewer), fun h => absurd rfl h⟩
  · rw [Bool.not_eq_true] at hold
    cases hdata : inp.getData with
    | error e =>
      rw [hdata] at hr
      refine .inl ⟨e, hr.symm, ?_, fun _ _ h => ?_⟩
      · rintro rfl
        exact .inr (.inr (.inr (.inl hdata)))
      · rw [hdata] at h
        cases h
    | ok u =>
      cases hcontent : inp.content with
      | error e =>
        rw [hdata, hcontent] at hr
        refine .inl ⟨e, hr.symm, ?_, fun _ _ _ h => ?_⟩
        · rintro rfl
          exact .inr (.inr (.inr (.inr hcontent)))
        · obtain ⟨content, h⟩ := h
          rw [hcontent] at h
          cases h
      | ok content =>
        rw [hdata, hcontent] at hr
        dsimp only at hr
        rcases handleUpdateObjectWithNewSyncInfo_cases b id obj (syncInfoFromOplog l content) l s rfl hkeyed with
          ⟨e, sync, hw, hsync, hreplaced, hmissing⟩ | h
        · exact .inl ⟨e, hr.symm.trans hw, fun h => .inr (.inr (.inl ⟨sync, hsync, hreplaced h⟩)),
            fun h _ _ _ => ⟨sync, hsync, hmissing h⟩⟩
        · rw [hr] at h
          exact .inr ⟨hold, h⟩

/-! ## Selecting a valid oplog -/

namespace Books

structure Chosen (s : Books δ) (o : BaseOplog) (sel : Selected δ) : Prop where
  content : sel.oplog.blankSigns = o.blankSigns
  alive : sel.oplog.toStatus = .alive
  isNewer : sel.oplog.isNewer = o.isNewer
  result : ∃ b b', sel.result = .ok (b, b') ∧ (b = true → ∃ orig, s.logs.get o.id = some orig ∧ orig.isSync = true)
  isSync : sel.oplog.isSync = true ↔ s.Synced o.id
  /-- The time is that of the oplog or that of a valid version that is stored. -/
  time : sel.oplog.updateTS = o.updateTS ∨ ∃ orig, s.logs.get o.id = some orig ∧ orig.toStatus = .alive ∧
    sel.oplog.updateTS = orig.updateTS ∧ orig.updateTS.order ≤ o.updateTS.order ∧ sel.books = s
  /-- The oplog replaces a pending version, or a valid one that is not older. -/
  stored : sel.books = s ∨ ∃ orig v, s.logs.get o.id = some orig ∧ sel.books = { s with logs := s.logs.put o.id v } ∧
    v.blankSigns = o.blankSigns ∧ v.toStatus = .alive ∧ v.updateTS = o.updateTS ∧ v.isSync = orig.isSync ∧
    sel.oplog.updateTS = o.updateTS ∧ (orig.toStatus = .alive → o.updateTS.order ≤ orig.updateTS.order)

theorem selectExisting_chosen (s : Books δ) (halive : o.toStatus = .alive) (hsync : o.isSync = false) :
    Chosen s o (s.selectExisting o) := by
  have hmaster : o.masterLogID.isNone = false := by
    rw [← Option.not_isSome, toStatus_eq_alive_iff.1 halive]
    rfl
  unfold selectExisting getLog
  cases hget : s.logs.get o.id with
  | none =>
    have hnot : ¬ s.Synced o.id := by
      rintro ⟨v, hv, -⟩
      rw [hget] at hv
      cases hv
    exact ⟨rfl, halive, rfl, ⟨_, _, rfl, fun h => (by cases h)⟩, by simp [hsync, hnot], Or.inl rfl, Or.inl rfl⟩
  | some orig =>
    have hsynced : (decide (o.toStatus ≤ orig.toStatus) && orig.isSync) = true ↔ s.Synced o.id := by
      rw [Bool.and_eq_true, decide_eq_true_eq, halive]
      constructor
      · rintro ⟨hle, hs⟩
        exact ⟨orig, hget, hs, Status.eq_of_not_lt (Nat.not_lt.2 hle) (Nat.not_lt.2 orig.toStatus_le_alive)⟩
      · rintro ⟨v, hv, hs, hv'⟩
        cases hget.symm.trans hv
        exact ⟨hv' ▸ Nat.le_refl _, hs⟩
    have hresult : ∀ b', ∃ b c, (Except.ok (orig.isSync, b') : Except Err (Bool × Bool)) = .ok (b, c) ∧
        (b = true → ∃ orig, s.logs.get o.id = some orig ∧ orig.isSync = true) := fun b' => ⟨_, _, rfl, fun h => ⟨orig, hget, h⟩⟩
    simp only [Option.elim_some, hsync, hmaster, Bool.false_or, Bool.false_eq_true, if_false]
    -- the version that is saved, if it is
    generalize hmark : (decide (o.toStatus ≤ orig.toStatus) && orig.isSync) = mark at hsynced
    have hmarks : (mark || orig.isSync) = orig.isSync := by
      rw [← hmark]
      cases orig.isSync <;> simp
    rw [hmarks]
    have hsave : s.saveLog { o with isNewer := false, extra := orig.extra, isSync := orig.isSync } =
        (.ok (), { s with logs := s.logs.put o.id { o with isNewer := false, extra := orig.extra, isSync := orig.isSync } }) :=
      saveLog_of_alive halive
    rw [hsave]
    have hforced : ∀ b' r, (orig.toStatus = .alive → o.updateTS.order ≤ orig.updateTS.order) → r = .ok (orig.isSync, b') →
        Chosen s o ⟨r, { o with isNewer := o.isNewer, extra := orig.extra, isSync := mark },
          { s with logs := s.logs.put o.id { o with isNewer := false, extra := orig.extra, isSync := orig.isSync } }⟩ := by
      rintro b' r hle rfl
      exact ⟨rfl, halive, rfl, hresult b', hsynced, .inl rfl, .inr ⟨orig, _, hget, rfl, rfl, halive, rfl, rfl, rfl, hle⟩⟩
    have hkept : orig.masterLogID.isNone = false → orig.updateTS.order ≤ o.updateTS.order →
        Chosen s o ⟨.ok (orig.isSync, false), { o.takeOver orig with isNewer := o.isNewer, extra := orig.extra, isSync := mark }, s⟩ := by
      intro horig hle
      have horig' : orig.toStatus = .alive := by
        rw [toStatus_eq_alive_iff, ← Option.not_isNone, horig]
        rfl
      have halive' : ({ o.takeOver orig with isNewer := o.isNewer, extra := orig.extra, isSync := mark } : BaseOplog).toStatus = .alive :=
        toStatus_eq_alive_iff.2 (toStatus_eq_alive_iff.1 horig')
      exact ⟨rfl, halive', rfl, hresult false, hsynced, .inr ⟨orig, hget, horig', rfl, hle, rfl⟩, .inl rfl⟩
    split_ifs with hhash hpending hless hless' hhash'
    · exact ⟨rfl, halive, rfl, hresult false, hsynced, .inl rfl, .inl rfl⟩
    · refine hforced true _ (fun horig => ?_) rfl
      rw [toStatus_eq_alive_iff, ← Option.not_isNone, hpending] at horig
      cases horig
    · exact hforced true _ (fun _ => le_of_lt ((isLess_iff _ _).1 hless)) rfl
    · exact hkept (Bool.not_eq_true _ ▸ hpending) (le_of_lt ((isLess_iff _ _).1 hless'))
    · exact hforced true _ (fun _ => (isLess_eq_false_iff _ _).1 (Bool.not_eq_true _ ▸ hless')) rfl
    · exact hkept (Bool.not_eq_true _ ▸ hpending) ((isLess_eq_false_iff _ _).1 (Bool.not_eq_true _ ▸ hless))

/-! ## Integrating a pending oplog -/

structure OplogIntegrated (s : Books δ) (o : BaseOplog) (r : Selected δ) : Prop where
  content : r.oplog.blankSigns = o.blankSigns
  isSync : r.oplog.isSync = true → ∃ orig, s.logs.get o.id = some orig ∧ orig.isSync = true
  synced : s.Synced o.id → r.oplog.isSync = true
  alive : r.oplog.toStatus = .alive → r.books = s → ∃ orig, s.logs.get o.id = some orig ∧ orig.toStatus = .alive ∧
    r.oplog.updateTS = orig.updateTS ∧ r.oplog.isSync = orig.isSync
  stored : r.books = s ∨ ∃ orig w, s.logs.get o.id = some orig ∧ orig.toStatus ≠ .alive ∧
    r.books = { s with logs := s.logs.put o.id w } ∧ w.blankSigns = o.blankSigns ∧ w.toStatus = r.oplog.toStatus ∧
    w.updateTS = r.oplog.updateTS ∧ (w.isSync = true → orig.isSync = true)

theorem not_synced_of_ne_alive {orig : BaseOplog} (hget : s.logs.get o.id = some orig) (h : orig.toStatus ≠ .alive) : ¬ s.Synced o.id := by
  rintro ⟨v, hv, -, halive⟩
  cases hget.symm.trans hv
  exact h halive

theorem integrateExisting_integrated (s : Books δ) (Γ : Ctx) (now : Timestamp) (hpending : o.toStatus ≠ .alive) (hsync : o.isSync = false) :
    OplogIntegrated s o (s.integrateExisting Γ now o) ∧
      ∀ b, (s.integrateExisting Γ now o).result = .ok (b, true) → (s.integrateExisting Γ now o).books = s ∧
        (s.integrateExisting Γ now o).oplog.toStatus ≠ .alive ∧
        ∃ orig, s.logs.get o.id = some orig ∧ orig.toStatus ≠ .alive ∧ b = orig.isSync := by
  have hmaster := toStatus_ne_alive_iff.1 hpending
  unfold integrateExisting getLog
  cases hget : s.logs.get o.id with
  | none =>
    have hnot : ¬ s.Synced o.id := by
      rintro ⟨v, hv, -⟩
      rw [hget] at hv
      cases hv
    refine ⟨⟨rfl, fun h => ?_, fun h => absurd h hnot, fun h => absurd h hpending, .inl rfl⟩, fun b h => by cases h⟩
    have h' : o.isSync = true := h
    rw [hsync] at h'
    cases h'
  | some orig =>
    simp only [Option.elim_some, hmaster, hsync, Bool.false_eq_true, if_false]
    have hmark : (if o.toStatus ≤ orig.toStatus then orig.isSync else false) = true → orig.isSync = true := by
      split_ifs
      · exact id
      · exact fun h => by cases h
    have hsynced : s.Synced o.id → (if o.toStatus ≤ orig.toStatus then orig.isSync else false) = true := by
      rintro ⟨v, hv, hs, halive⟩
      cases hget.symm.trans hv
      rw [if_pos (halive ▸ o.toStatus_le_alive)]
      exact hs
    generalize (if o.toStatus ≤ orig.toStatus then orig.isSync else false) = mark at hmark hsynced
    -- an oplog that stays pending, while nothing is saved
    have hplain : ∀ (m : BaseOplog) (r : Except Err (Bool × Bool)), m.blankSigns = o.blankSigns → m.isSync = mark → m.toStatus ≠ .alive →
        OplogIntegrated s o ⟨r, m, s⟩ := by
      intro m r hcontent hm hne
      exact ⟨hcontent, fun h => ⟨orig, hget, hmark (hm ▸ h)⟩, fun h => hm.trans (hsynced h), fun h => absurd h hne, .inl rfl⟩
    split_ifs with hhash horig hall hmine
    · exact ⟨hplain _ _ rfl rfl hpending, fun b h => by cases h⟩
    · refine ⟨⟨rfl, fun h => ⟨orig, hget, hmark h⟩, hsynced, fun _ _ => ⟨orig, hget, toStatus_eq_alive_iff.2 horig, rfl, ?_⟩,
        .inl rfl⟩, fun b h => by cases h⟩
      cases hs : orig.isSync with
      | false => exact Bool.eq_false_iff.2 fun h => by rw [hmark h] at hs; cases hs
      | true => exact hsynced ⟨orig, hget, hs, toStatus_eq_alive_iff.2 horig⟩
    · exact ⟨hplain _ _ rfl rfl (toStatus_ne_alive_iff.2 hmaster), fun b h => by cases h⟩
    · have horig' : orig.toStatus ≠ .alive := toStatus_ne_alive_iff.2 (Bool.eq_false_iff.2 horig)
      refine ⟨?_, fun b h => ?_⟩
      · have hm : (integrateSigns { o with isSync := mark, extra := orig.extra } orig).toStatus ≠ .alive :=
          toStatus_ne_alive_iff.2 hmaster
        rcases saveLog_cases s (integrateSigns { o with isSync := mark, extra := orig.extra } orig) with ⟨heq, -⟩ | ⟨heq, -⟩
        · rw [heq]
          exact hplain _ _ rfl rfl hm
        · rw [heq]
          exact ⟨rfl, fun h => ⟨orig, hget, hmark h⟩, hsynced, fun h => absurd h hm,
            .inr ⟨orig, _, hget, horig', rfl, rfl, rfl, rfl, hmark⟩⟩
      · dsimp only at h
        cases hsave : (s.saveLog (integrateSigns { o with isSync := mark, extra := orig.extra } orig)).1 with
        | error e =>
          rw [hsave] at h
          cases h
        | ok u =>
          rw [hsave] at h
          cases h
    · have horig' : orig.toStatus ≠ .alive := toStatus_ne_alive_iff.2 (Bool.eq_false_iff.2 horig)
      have hm : (newSigned Γ now { o with isSync := mark, extra := orig.extra } orig).toStatus ≠ .alive :=
        toStatus_ne_alive_iff.2 hmaster
      refine ⟨hplain _ _ rfl rfl hm, fun b h => ?_⟩
      cases h
      exact ⟨rfl, hm, orig, rfl, horig', rfl⟩

theorem integrateOplog_integrated (s : Books δ) (Γ : Ctx) (signer : PendingSigner) (now : Timestamp) (hpending : o.toStatus ≠ .alive)
    (hsync : o.isSync = false) : OplogIntegrated s o (s.integrateOplog Γ signer now o) := by
  obtain ⟨hr, hnew⟩ := integrateExisting_integrated s Γ now hpending hsync
  unfold integrateOplog
  dsimp only
  split
  · rename_i b hresult
    obtain ⟨hbooks, hne, orig, hget, horig, rfl⟩ := hnew b hresult
    cases hsign : signer.validateIntegrateSign (s.integrateExisting Γ now o).oplog with
    | error e => exact ⟨hr.content, hr.isSync, hr.synced, hr.alive, hr.stored⟩
    | ok m =>
      obtain ⟨hcontent, hm⟩ := signer.validateIntegrateSign_content _ _ hsign
      have hmark : m.isSync = true → orig.isSync = true := by
        intro h
        obtain ⟨orig', hget', hs⟩ := hr.isSync (hm ▸ h)
        cases hget.symm.trans hget'
        exact hs
      have hnot := not_synced_of_ne_alive hget horig
      dsimp only
      rw [hbooks]
      have hid : m.id = o.id := id_eq_of_content (hcontent.trans hr.content)
      have hsaved : (m.isSync || orig.isSync) = true → orig.isSync = true := by
        rw [Bool.or_eq_true]
        exact fun h => h.elim hmark fun h => h
      rcases saveLog_cases s { m with isSync := m.isSync || orig.isSync } with ⟨heq, hne'⟩ | ⟨heq, -⟩
      · rw [heq]
        exact ⟨hcontent.trans hr.content, fun h => ⟨orig, hget, hmark h⟩, fun h => absurd h hnot, fun h => absurd h hne', .inl rfl⟩
      · rw [heq]
        refine ⟨hcontent.trans hr.content, fun h => ⟨orig, hget, hmark h⟩, fun h => absurd h hnot, fun halive hsame => ?_,
          .inr ⟨orig, ({ m with isSync := m.isSync || orig.isSync } : BaseOplog).notNewer, hget, horig, by rw [← hid],
            hcontent.trans hr.content, rfl, rfl, hsaved⟩⟩
        -- a pending version was stored before
        have hput := congrArg (fun t : Books δ => t.logs.get o.id) hsame
        rw [get_put, if_pos hid.symm, hget] at hput
        have horig' := Option.some.inj hput
        rw [← horig'] at horig
        exact absurd halive horig
  · exact hr

theorem integrateOplog_newSign {Γ : Ctx} {signer : PendingSigner} {now : Timestamp} {b : Bool} (hpending : o.toStatus ≠ .alive)
    (hsync : o.isSync = false) (h : (s.integrateOplog Γ signer now o).result = .ok (b, true)) :
    ∃ orig, s.logs.get o.id = some orig ∧ orig.toStatus ≠ .alive := by
  obtain ⟨-, hnew⟩ := integrateExisting_integrated s Γ now hpending hsync
  unfold integrateOplog at h
  dsimp only at h
  split at h
  · rename_i b' hresult
    obtain ⟨-, -, orig, hget, horig, -⟩ := hnew b' hresult
    exact ⟨orig, hget, horig⟩
  · obtain ⟨-, -, orig, hget, horig, -⟩ := hnew b h
    exact ⟨orig, hget, horig⟩

/-! ## Accepting -/

variable {f : Handler δ} {g : PendingHandler δ} {Γ : Ctx} {signer : PendingSigner} {now : Timestamp}

theorem handleOplog_books_of_isSync {r : Bool × Bool} (hresult : (s.selectExisting o).result = .ok r)
    (hsync : (s.selectExisting o).oplog.isSync = true) : (s.handleOplog f o).2 = (s.selectExisting o).books := by
  rw [handleOplog, hresult]
  dsimp only
  rw [if_pos hsync]

theorem handleOplog_books {b b' : Bool} (hresult : (s.selectExisting o).result = .ok (b, b'))
    (hsync : (s.selectExisting o).oplog.isSync = false) {err : Option Err} {l' : BaseOplog}
    (hf : f (s.selectExisting o).oplog (s.selectExisting o).books = (err, l', s')) :
    (err = some .newerOplog → (s.handleOplog f o).2 = (s'.saveLog { l' with isSync := true }).2) ∧
      (∀ e, err = some e → e ≠ .newerOplog → (s.handleOplog f o).2 = s') ∧
      (err = none → (s.handleOplog f o).2 = (s'.saveLog { l' with isSync := l'.isSync || b }).2) := by
  rw [handleOplog]
  rw [hresult]
  dsimp only
  rw [hsync, if_neg Bool.false_ne_true, hf]
  refine ⟨?_, ?_, ?_⟩
  · rintro rfl
    rw [if_pos rfl]
    dsimp only
    rw [Bool.true_or]
    split <;> rfl
  · rintro e rfl hne
    rw [if_neg fun h => hne (Option.some.inj h)]
  · rintro rfl
    rw [if_neg (by simp)]
    dsimp only
    split <;> rfl

section pending

variable {r : Selected δ} (hr : s.integrateOplog Γ signer now o = r)

include hr

theorem handlePendingOplog_books_of_isSync (hsync : r.oplog.isSync = true) :
    (s.handlePendingOplog Γ signer now g f o).2 = r.books ∨
      (∃ b, r.result = .ok (b, true)) ∧ (s.handlePendingOplog Γ signer now g f o).2 = (r.books.saveLog r.oplog).2 := by
  unfold handlePendingOplog
  rw [hr]
  dsimp only
  split
  · exact .inl rfl
  · rename_i b isNewSign hresult
    rw [if_pos hsync]
    split_ifs with hnew
    · refine .inr ⟨⟨b, by rw [hresult, hnew]⟩, ?_⟩
      split
      · rename_i h
        rw [h]
      · rename_i h
        rw [h]
    · exact .inl rfl

theorem handlePendingOplog_books_of_alive (hsync : r.oplog.isSync = false) (halive : r.oplog.toStatus = .alive) :
    (s.handlePendingOplog Γ signer now g f o).2 = r.books ∨ (s.handlePendingOplog Γ signer now g f o).2 = (f r.oplog r.books).2.2 := by
  unfold handlePendingOplog
  rw [hr]
  dsimp only
  split
  · exact .inl rfl
  · rw [hsync, if_neg Bool.false_ne_true, if_pos (toStatus_eq_alive_iff.1 halive)]
    exact .inr rfl

theorem handlePendingOplog_books_of_pending (hsync : r.oplog.isSync = false) (hpending : r.oplog.toStatus ≠ .alive) :
    (s.handlePendingOplog Γ signer now g f o).2 = r.books ∨
      (s.handlePendingOplog Γ signer now g f o).2 = (g r.oplog r.books).2.2.2 ∨
      ∃ b isToSign l' s', g r.oplog r.books = (none, isToSign, l', s') ∧
        ∃ m, (if isToSign = true then signer.internalSign l' else .ok l') = .ok m ∧
          (s.handlePendingOplog Γ signer now g f o).2 = (s'.saveLog { m with isSync := m.isSync || b }).2 := by
  unfold handlePendingOplog
  rw [hr]
  dsimp only
  split
  · exact .inl rfl
  · rename_i b isNewSign hresult
    rw [hsync, if_neg Bool.false_ne_true, toStatus_ne_alive_iff.1 hpending, if_neg Bool.false_ne_true]
    refine .inr ?_
    unfold processAndSign
    rcases hg : g r.oplog r.books with ⟨_ | e, isToSign, l', s'⟩
    · dsimp only
      cases hsign : (if isToSign = true then signer.internalSign l' else .ok l') with
      | error e => exact .inl rfl
      | ok m =>
        refine .inr ⟨b, isToSign, l', s', rfl, m, hsign, ?_⟩
        dsimp only
        split <;> rfl
    · exact .inl rfl

end pending

end Books

end PttaiCore
