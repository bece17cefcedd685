import PttaiCore.Lib.Trace
import PttaiCore.Lemmas.Persons

/-! # Whether a migrated person stays so -/

namespace PttaiCore

open Books KeepsFrom

variable {δ : Type}

inductive PersonCall where
  | update (oplog : BaseOplog)
  | delete (status : Status) (oplog : BaseOplog)
  | transfer (kind : TransferKind) (toID : Option PttID) (oplog : BaseOplog)
  | posttransfer (toID : PttID) (oplog : BaseOplog)
  | oplogs (logs : KeyStore PttID BaseOplog)

namespace PersonCall

def exec (newPerson : PttID → Except Err (Object δ)) (s : Books δ) : PersonCall → Books δ
  | update oplog => (handleUpdatePersonLog oplog s).2.2
  | delete status oplog => (handleDeletePersonLog status oplog s).2.2
  | transfer kind toID oplog => (handleTransferPersonLog kind newPerson toID oplog s).2.2
  | posttransfer toID oplog => (posttransferPerson newPerson toID oplog s).2.2
  | oplogs logs => { s with logs }

variable (s : Books δ)

def SyncInfoStuck (person : Object δ) (status : Status) (oplog : BaseOplog) : Prop :=
  ∃ sync, person.syncInfo = some sync ∧ isReplaceOrigSyncPersonInfo (some sync) status oplog.updateTS oplog.id = true ∧
    (sync.logID = oplog.id ∨ s.logs.get sync.logID = none)

def Fits : PersonCall → Prop
  | transfer kind _ oplog => ∀ id person, oplog.objID = some id → s.objs.get id = some person → person.logID = oplog.preLogID →
      (person.status = kind.statusTransferred → oplog.updateTS.isLess person.updateTS = false) ∧
      (.migrated ≤ person.status → person.status = kind.statusTransferred ∨ SyncInfoStuck s person kind.statusTransferred oplog)
  | _ => True

def LeavesNoneAlive (newPerson : PttID → Except Err (Object δ)) (s : Books δ) : PersonCall → Prop
  | transfer kind toID oplog => ∀ id person, oplog.objID = some id →
      (exec newPerson s (transfer kind toID oplog)).objs.get id = some person → person.status = .alive → s.objs.get id = some person
  | _ => True

end PersonCall

namespace PersonFinalAux

variable {s s' : Books δ} {id : PttID} {person : Object δ} {o : BaseOplog}

theorem keepsFrom_of_effect (h : PersonEffect s s') : KeepsFrom .migrated s s' := by
  cases h with
  | none h => exact of_objs_eq h
  | put id person h hopen => exact of_put h hopen

/-! ## Transfers -/

theorem replaceSyncInfo_error_iff (s : Books δ) (person : Object δ) (status : Status) (o : BaseOplog) :
    (∃ e, (s.replaceSyncInfo isReplaceOrigSyncPersonInfo person o status false).1 = .error e) ↔ PersonCall.SyncInfoStuck s person status o := by
  unfold replaceSyncInfo PersonCall.SyncInfoStuck
  cases person.syncInfo with
  | none => simp
  | some sync =>
    simp only [Bool.false_and, Bool.not_false, Bool.and_true, Option.some.injEq, exists_eq_left']
    by_cases hreplace : isReplaceOrigSyncPersonInfo (some sync) status o.updateTS o.id = true
    · rw [if_pos hreplace, removeBlockAndMediaInfoBySyncInfo]
      by_cases hid : sync.logID = o.id
      · simp [hid, hreplace]
      · rw [if_neg hid, removeNonSyncOplog, getLog]
        cases s.logs.get sync.logID with
        | none => simp [hreplace]
        | some log =>
          simp only [Option.elim_some]
          split_ifs <;> simp [hid]
    · rw [if_neg hreplace]
      simp [hreplace]

theorem statusTransferred_ne_alive (kind : TransferKind) : kind.statusTransferred ≠ .alive := by cases kind <;> decide

theorem statusTransferred_lt {kind : TransferKind} {status : Status} (hle : .migrated ≤ status) (hne : status ≠ kind.statusTransferred) :
    ¬ status ≤ kind.statusTransferred := by
  revert hle hne
  cases kind <;> cases status <;> decide

variable (newPerson : PttID → Except Err (Object δ))

theorem handleTransferPersonLogCore_ok (kind : TransferKind) (toID : Option PttID)
    (hget : s.objs.get id = some person) (hstuck : ¬ PersonCall.SyncInfoStuck s person kind.statusTransferred o) :
    let s' := (handleTransferPersonLogCore kind newPerson toID id person o s).2.2
    s'.objs.get id = some (person.setDeleteObjectWithOplog o kind.statusTransferred) ∧
      (¬ .migrated ≤ person.status → KeepsFrom .migrated s s') := by
  have hobjs := replaceSyncInfo_objs s isReplaceOrigSyncPersonInfo person o kind.statusTransferred false
  rw [handleTransferPersonLogCore]
  rcases hr : s.replaceSyncInfo isReplaceOrigSyncPersonInfo person o kind.statusTransferred false with ⟨e | u, s'⟩
  · exact absurd ((replaceSyncInfo_error_iff s person kind.statusTransferred o).1 ⟨e, by rw [hr]⟩) hstuck
  rw [hr] at hobjs
  -- the save of the person that is left behind
  let mid : Books δ := s'.saveObj id (person.setDeleteObjectWithOplog o kind.statusTransferred)
  have hmid : mid.objs = s.objs.put id (person.setDeleteObjectWithOplog o kind.statusTransferred) :=
    congrArg (KeyStore.put · id _) hobjs
  have hmidget : mid.objs.get id = some (person.setDeleteObjectWithOplog o kind.statusTransferred) := by
    rw [hmid, KeyStore.get_put, if_pos rfl]
  have hmidkeeps : ¬ .migrated ≤ person.status → KeepsFrom .migrated s mid := by
    intro hopen
    refine of_put hmid fun p hp => ?_
    cases hget.symm.trans hp
    exact hopen
  cases toID with
  | none => exact ⟨hmidget, hmidkeeps⟩
  | some toID =>
    dsimp only
    split_ifs with hto
    · exact ⟨hmidget, hmidkeeps⟩
    · obtain ⟨heffect, hothers⟩ := posttransferPerson_effect newPerson toID { o with isSync := true } mid
      exact ⟨(hothers id fun h => hto h.symm).trans hmidget,
        fun hopen => KeepsFrom.trans _ _ _ (hmidkeeps hopen) (keepsFrom_of_effect heffect)⟩

theorem transfer_iff (s : Books δ) (kind : TransferKind) (toID : Option PttID)
    (o : BaseOplog) :
    (KeepsFrom .migrated s (PersonCall.exec newPerson s (.transfer kind toID o)) ∧
      PersonCall.LeavesNoneAlive newPerson s (.transfer kind toID o)) ↔ PersonCall.Fits s (.transfer kind toID o) := by
  simp only [PersonCall.LeavesNoneAlive, PersonCall.exec, PersonCall.Fits]
  -- nothing happens unless the person is stored and the log follows the person's
  cases hobj : o.objID with
  | none =>
    rw [handleTransferPersonLog, hobj]
    exact ⟨fun _ _ _ h => (by cases h), fun _ => ⟨KeepsFrom.refl .migrated s, fun _ _ h => (by cases h)⟩⟩
  | some id =>
  cases hget : s.objs.get id with
  | none =>
    rw [handleTransferPersonLog, hobj]
    dsimp only
    rw [getObj_eq_error hget]
    refine ⟨fun _ i person hi hp => ?_, fun _ => ⟨KeepsFrom.refl .migrated s, fun _ _ _ h _ => h⟩⟩
    rw [← Option.some.inj hi, hget] at hp
    cases hp
  | some person =>
  rw [handleTransferPersonLog_stored kind toID hobj hget]
  have hunique : ∀ {P : PttID → Object δ → Prop}, (∀ i p, some id = some i → s.objs.get i = some p → P i p) ↔ P id person := by
    intro P
    refine ⟨fun h => h id person rfl hget, fun h i p hi hp => ?_⟩
    cases hi
    cases hget.symm.trans hp
    exact h
  rw [hunique]
  by_cases hpre : person.logID ≠ o.preLogID
  · rw [if_pos hpre]
    exact ⟨fun _ h => absurd h hpre, fun _ => ⟨KeepsFrom.refl .migrated s, fun _ _ _ h _ => h⟩⟩
  rw [if_neg hpre]
  rw [not_not] at hpre
  by_cases hstatus : person.status = kind.statusTransferred
  · rw [if_pos hstatus]
    by_cases hold : o.updateTS.isLess person.updateTS = true
    · -- the older log makes the person alive
      rw [if_pos hold]
      refine ⟨fun h => ?_, fun h => absurd ((h hpre).1 hstatus) (by simp [hold])⟩
      have hput : (s.saveObj id (person.setUpdateObjectWithOplog o)).objs.get id = some (person.setUpdateObjectWithOplog o) :=
        (KeyStore.get_put _ _ _ _).trans (if_pos rfl)
      have hsame := Option.some.inj (hget.symm.trans (h.2 id _ rfl hput rfl))
      have halive : person.status = .alive := by
        rw [hsame]
        rfl
      exact absurd (hstatus.symm.trans halive) (statusTransferred_ne_alive kind)
    · rw [if_neg hold]
      exact ⟨fun _ _ => ⟨fun _ => by simpa using hold, fun _ => Or.inl hstatus⟩,
        fun _ => ⟨KeepsFrom.refl .migrated s, fun _ _ _ h _ => h⟩⟩
  · rw [if_neg hstatus]
    by_cases hstuck : PersonCall.SyncInfoStuck s person kind.statusTransferred o
    · obtain ⟨e, he⟩ := (replaceSyncInfo_error_iff s person kind.statusTransferred o).2 hstuck
      have hobjs := replaceSyncInfo_objs s isReplaceOrigSyncPersonInfo person o kind.statusTransferred false
      have hsame : (handleTransferPersonLogCore kind newPerson toID id person o s).2.2.objs = s.objs := by
        rw [handleTransferPersonLogCore]
        rcases hr : s.replaceSyncInfo isReplaceOrigSyncPersonInfo person o kind.statusTransferred false with ⟨e' | u, s'⟩ <;> rw [hr] at hobjs he
        · exact hobjs
        · cases he
      rw [hsame]
      exact ⟨fun _ _ => ⟨fun h => absurd h hstatus, fun _ => .inr hstuck⟩,
        fun _ => ⟨of_objs_eq hsame, fun _ _ _ h _ => h⟩⟩
    · -- the person gets the status of the transfer
      obtain ⟨hmarked, hkeeps⟩ := handleTransferPersonLogCore_ok newPerson kind toID hget hstuck
      constructor
      · rintro ⟨hterminal, -⟩ -
        refine ⟨fun h => absurd h hstatus, fun hle => ?_⟩
        obtain ⟨person', hget', hle'⟩ := hterminal id person hget hle
        cases hmarked.symm.trans hget'
        exact absurd hle' (statusTransferred_lt hle hstatus)
      · intro h
        refine ⟨hkeeps fun hle => ((h hpre).2 hle).elim hstatus hstuck, fun i p hi hp halive => ?_⟩
        cases hi
        cases hmarked.symm.trans hp
        exact absurd halive (statusTransferred_ne_alive kind)

theorem exec_iff (s : Books δ) (c : PersonCall) :
    (KeepsFrom .migrated s (c.exec newPerson s) ∧ c.LeavesNoneAlive newPerson s) ↔ c.Fits s := by
  cases c with
  | update o => exact ⟨fun _ => trivial, fun _ => ⟨keepsFrom_of_effect (handleUpdatePersonLog_effect o s), trivial⟩⟩
  | delete status o => exact ⟨fun _ => trivial, fun _ => ⟨keepsFrom_of_effect (handleDeletePersonLog_effect status o s), trivial⟩⟩
  | transfer kind toID o => exact transfer_iff newPerson s kind toID o
  | posttransfer toID o =>
    exact ⟨fun _ => trivial, fun _ => ⟨keepsFrom_of_effect (posttransferPerson_effect newPerson toID o s).1, trivial⟩⟩
  | oplogs logs => exact ⟨fun _ => trivial, fun _ => ⟨of_objs_eq rfl, trivial⟩⟩

end PersonFinalAux

open PersonFinalAux

/-- Along a trace, no migrated or terminated person gets a smaller status and no transfer leaves the person alive that it transfers away
from, exactly when every transfer of the trace fits. -/
theorem personStatusesFinal_iff (newPerson : PttID → Except Err (Object δ)) (s : Books δ) (calls : List PersonCall) :
    (Trace.Between (PersonCall.exec newPerson) s calls (KeepsFrom .migrated) ∧
      Trace.Always (PersonCall.exec newPerson) s calls (PersonCall.LeavesNoneAlive newPerson)) ↔
    Trace.Always (PersonCall.exec newPerson) s calls PersonCall.Fits := by
  rw [Trace.between_iff_always (KeepsFrom.refl .migrated) KeepsFrom.trans, ← Trace.always_and]
  exact ⟨fun h => h.mono fun s c => (exec_iff newPerson s c).1, fun h => h.mono fun s c => (exec_iff newPerson s c).2⟩

namespace PersonFinalWitness

def idOf (b : UInt8) : PttID := ByteArrayOf.replicate 40 b

def log (id pre : UInt8) (sec : Int64) : BaseOplog :=
  { BaseOplog.new (idOf 7) (some (idOf 7)) ⟨sec, 0⟩ (idOf 1) 0 none with
    id := idOf id, preLogID := some (idOf pre), masterLogID := some (idOf 8), isSync := false }

def migrated : Books Unit :=
  { objs := KeyStore.empty.put (idOf 7)
      ((Object.newObjectWithOplog (log 2 1 20) ()).setDeleteObjectWithOplog (log 2 1 20) .migrated)
    logs := KeyStore.empty }

def status (s : Books Unit) : Option Status := (s.objs.get (idOf 7)).map Object.status

def noPerson : PttID → Except Err (Object Unit) := fun _ => .error .invalidID

end PersonFinalWitness

open PersonFinalWitness in
/-- A migrated person becomes a transferred one by a later transfer, and alive by an older migration, if these name the log of the
person as the one before them. -/
theorem migrated_person_does_not_stay_so :
    status migrated = some .migrated ∧
      status (PersonCall.exec noPerson migrated (.transfer .transfer (some (idOf 9)) (log 3 2 30))) = some .transferred ∧
      status (PersonCall.exec noPerson migrated (.transfer .migrate (some (idOf 9)) (log 3 2 10))) = some .alive := by
  decide +kernel

end PttaiCore
