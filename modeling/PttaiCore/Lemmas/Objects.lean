import PttaiCore.Objects

/-! # What accepting an oplog does to the stores -/

namespace PttaiCore

theorem Status.not_le_of_lt {a b : Status} (h : a < b) : ¬ b ≤ a := Nat.not_le.2 h

namespace BaseOplog

variable {o : BaseOplog}

theorem toStatus_eq_alive_iff : o.toStatus = .alive ↔ o.masterLogID.isSome = true := by
  unfold toStatus
  by_cases h : o.masterLogID.isSome = true
  · simp [h]
  · rw [if_neg h]
    split_ifs <;> simp [h]

end BaseOplog

namespace Books

variable {δ : Type} {s : Books δ} {o : BaseOplog} {f : Handler δ}

def Synced (s : Books δ) (id : PttID) : Prop := ∃ o, s.logs.get id = some o ∧ o.isSync = true ∧ o.toStatus = .alive

theorem getObj_eq {id : PttID} {obj : Object δ} (h : s.objs.get id = some obj) : s.getObj id = .ok obj := by
  rw [getObj, h]
  rfl

theorem getObj_eq_error {id : PttID} (h : s.objs.get id = none) : s.getObj id = .error .notFound := by
  rw [getObj, h]
  rfl

/-! ## Saving an oplog -/

theorem saveLog_of_alive (h : o.toStatus = .alive) : s.saveLog o = (.ok (), { s with logs := s.logs.put o.id o.notNewer }) := by
  have hid : o.masterLogID.isNone = false := by
    rw [← Option.not_isSome, BaseOplog.toStatus_eq_alive_iff.1 h]
    rfl
  rw [saveLog, hid, Bool.false_and, if_neg Bool.false_ne_true]

@[simp] theorem saveLog_objs (s : Books δ) (o : BaseOplog) : (s.saveLog o).2.objs = s.objs := by
  unfold saveLog
  split_ifs <;> rfl

@[simp] theorem selectExisting_objs (s : Books δ) (o : BaseOplog) : (s.selectExisting o).books.objs = s.objs := by
  unfold selectExisting
  cases s.getLog o.id with
  | error e => cases e <;> rfl
  | ok orig =>
    dsimp only
    split_ifs <;> simp

/-! ## Removing the oplog of a sync info -/

@[simp] theorem removeNonSyncOplog_objs (s : Books δ) (logID : PttID) (b : Bool) (ts : Timestamp) :
    (s.removeNonSyncOplog logID b ts).2.objs = s.objs := by
  unfold removeNonSyncOplog
  cases s.getLog logID with
  | error e => rfl
  | ok oplog =>
    dsimp only
    split_ifs <;> simp [deleteLog]

@[simp] theorem removeBlockAndMediaInfoBySyncInfo_objs (s : Books δ) (sync : SyncInfo) (o : BaseOplog) (b : Bool) :
    (s.removeBlockAndMediaInfoBySyncInfo sync o b).2.objs = s.objs := by
  unfold removeBlockAndMediaInfoBySyncInfo
  split_ifs <;> simp

@[simp] theorem replaceSyncInfo_objs (s : Books δ) (isReplace : Option SyncInfo → Status → Timestamp → PttID → Bool) (obj : Object δ)
    (o : BaseOplog) (status : Status) (b : Bool) : (s.replaceSyncInfo isReplace obj o status b).2.objs = s.objs := by
  unfold replaceSyncInfo
  cases obj.syncInfo with
  | none => rfl
  | some sync =>
    dsimp only
    split_ifs <;> simp

/-! ## Accepting an oplog -/

theorem handleOplog_new (hget : s.logs.get o.id = none) (hsync : o.isSync = false) {err : Option Err} {o' : BaseOplog} {s' : Books δ}
    (hf : f o s = (err, o', s')) (herr : err = none ∧ o'.isSync = true ∨ err = some .newerOplog) (halive : o'.toStatus = .alive) :
    s.handleOplog f o = (none, { s' with logs := s'.logs.put o'.id { o'.notNewer with isSync := true } }) := by
  have hsel : s.selectExisting o = ⟨.ok (false, true), o, s⟩ := by
    rw [selectExisting, getLog, hget]
    rfl
  rw [handleOplog, hsel]
  dsimp only
  rw [hsync, if_neg Bool.false_ne_true, hf]
  have hsave : ∀ b, s'.saveLog { o' with isSync := b } = (.ok (), { s' with logs := s'.logs.put o'.id { o'.notNewer with isSync := b } }) :=
    fun b => saveLog_of_alive halive
  rcases herr with ⟨rfl, hsync'⟩ | rfl
  · dsimp only
    rw [if_neg (by simp)]
    rw [hsync', hsave]
    rfl
  · dsimp only
    rw [if_pos rfl]
    dsimp only
    rw [hsave]
    rfl

theorem handleOplog_synced (h : s.Synced o.id) (halive : o.toStatus = .alive) :
    (s.handleOplog f o).2.objs = s.objs ∧ (s.handleOplog f o).2.Synced o.id ∧
      ∀ id, id ≠ o.id → (s.handleOplog f o).2.logs.get id = s.logs.get id := by
  obtain ⟨orig, hget, hsync, horig⟩ := h
  have hid : o.masterLogID.isNone = false := by
    rw [← Option.not_isSome, BaseOplog.toStatus_eq_alive_iff.1 halive]
    rfl
  have hid' : orig.masterLogID.isNone = false := by
    rw [← Option.not_isSome, BaseOplog.toStatus_eq_alive_iff.1 horig]
    rfl
  have hle : decide (o.toStatus ≤ orig.toStatus) = true := by
    rw [halive, horig]
    rfl
  have hkept : s.Synced o.id := ⟨orig, hget, hsync, horig⟩
  -- the version that is saved, if it is
  let o' : BaseOplog := { o with isNewer := false, extra := orig.extra, isSync := true }
  have hsave : s.saveLog o' = (.ok (), { s with logs := s.logs.put o.id o'.notNewer }) := saveLog_of_alive halive
  have hsaved : ({ s with logs := s.logs.put o.id o'.notNewer } : Books δ).Synced o.id :=
    ⟨o'.notNewer, by simp, rfl, halive⟩
  have hsel : (∃ r, (s.selectExisting o).result = .ok r) ∧ (s.selectExisting o).oplog.isSync = true ∧
      ((s.selectExisting o).books = s ∨ (s.selectExisting o).books = { s with logs := s.logs.put o.id o'.notNewer }) := by
    rw [selectExisting, getLog, hget]
    simp only [Option.elim_some, hid, hid', hsync, hle, Bool.and_self, Bool.or_true, Bool.false_eq_true, if_false]
    simp only [show ({ o with isNewer := false, extra := orig.extra, isSync := true } : BaseOplog) = o' from rfl, hsave]
    split_ifs
    · exact ⟨⟨_, rfl⟩, rfl, .inl rfl⟩
    · exact ⟨⟨_, rfl⟩, rfl, .inr rfl⟩
    · exact ⟨⟨_, rfl⟩, rfl, .inl rfl⟩
    · exact ⟨⟨_, rfl⟩, rfl, .inr rfl⟩
    · exact ⟨⟨_, rfl⟩, rfl, .inl rfl⟩
  obtain ⟨⟨r, hr⟩, hsel, hbooks⟩ := hsel
  have hresult : (s.handleOplog f o).2 = (s.selectExisting o).books := by
    rw [handleOplog, hr]
    dsimp only
    rw [if_pos hsel]
  rw [hresult]
  rcases hbooks with hbooks | hbooks <;> rw [hbooks]
  · exact ⟨rfl, hkept, fun _ _ => rfl⟩
  · exact ⟨rfl, hsaved, fun id hne => by simp [hne]⟩

end Books

/-! ## Statuses that do not go down -/

variable {δ : Type}

def OnlyAt (id : PttID) (s s' : Books δ) : Prop := ∀ i, i ≠ id → s'.objs.get i = s.objs.get i

namespace OnlyAt

variable {s s' s'' : Books δ} {id : PttID}

theorem of_objs_eq (h : s'.objs = s.objs) : OnlyAt id s s' := fun i _ => by rw [h]

theorem of_put {obj : Object δ} (h : s'.objs = s.objs.put id obj) : OnlyAt id s s' := fun i hi => by rw [h, KeyStore.get_put, if_neg hi]

theorem of_delete (h : s'.objs = s.objs.delete id) : OnlyAt id s s' := fun i hi => by rw [h, KeyStore.get_delete, if_neg hi]

theorem trans (h : OnlyAt id s s') (h' : OnlyAt id s' s'') : OnlyAt id s s'' := fun i hi => (h' i hi).trans (h i hi)

end OnlyAt

def KeepsFrom (bound : Status) (s s' : Books δ) : Prop :=
  ∀ id obj, s.objs.get id = some obj → bound ≤ obj.status → ∃ obj', s'.objs.get id = some obj' ∧ obj.status ≤ obj'.status

namespace KeepsFrom

variable {bound : Status} {s s' : Books δ} {id : PttID}

theorem refl (bound : Status) (s : Books δ) : KeepsFrom bound s s := fun _ obj hget _ => ⟨obj, hget, Nat.le_refl _⟩

theorem trans (s t u : Books δ) (h : KeepsFrom bound s t) (h' : KeepsFrom bound t u) : KeepsFrom bound s u := by
  intro id obj hget hle
  obtain ⟨obj', hget', hle'⟩ := h id obj hget hle
  obtain ⟨obj'', hget'', hle''⟩ := h' id obj' hget' (Nat.le_trans hle hle')
  exact ⟨obj'', hget'', Nat.le_trans hle' hle''⟩

theorem of_objs_eq (h : s'.objs = s.objs) : KeepsFrom bound s s' := by
  intro id obj hget _
  exact ⟨obj, by rw [h, hget], Nat.le_refl _⟩

theorem iff_of_onlyAt (h : OnlyAt id s s') :
    KeepsFrom bound s s' ↔
      ∀ obj, s.objs.get id = some obj → bound ≤ obj.status → ∃ obj', s'.objs.get id = some obj' ∧ obj.status ≤ obj'.status := by
  refine ⟨fun hkeeps => hkeeps id, fun hid i obj hget hle => ?_⟩
  by_cases hi : i = id
  · subst hi
    exact hid obj hget hle
  · exact ⟨obj, by rw [h i hi, hget], Nat.le_refl _⟩

theorem of_put {obj' : Object δ} (h : s'.objs = s.objs.put id obj')
    (hopen : ∀ obj, s.objs.get id = some obj → ¬ bound ≤ obj.status) : KeepsFrom bound s s' :=
  (iff_of_onlyAt (OnlyAt.of_put h)).2 fun obj hget hle => absurd hle (hopen obj hget)

end KeepsFrom

end PttaiCore
