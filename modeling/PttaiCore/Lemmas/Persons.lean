import PttaiCore.Lemmas.Objects
import PttaiCore.Persons

/-! # What the handlers of a person's oplogs do -/

namespace PttaiCore

open Books

variable {δ : Type} {s : Books δ} {id : PttID} {person : Object δ} {o : BaseOplog} {newPerson : PttID → Except Err (Object δ)}

/-! ## A person that is stored -/

theorem handleUpdatePersonLog_stored (hobj : o.objID = some id) (hget : s.objs.get id = some person) :
    handleUpdatePersonLog o s =
      if o.updateTS.isLess person.updateTS then (some .newerOplog, o, s)
      else if person.status = .alive then
        if person.updateTS.isLess o.updateTS then (none, s.savePerson id person o) else (some .newerOplog, o, s)
      else if .migrated ≤ person.status then (some .newerOplog, o, s)
      else handleUpdatePersonLogCore id person o s := by
  rw [handleUpdatePersonLog, hobj]
  dsimp only
  rw [getObj_eq hget]

theorem handleDeletePersonLog_stored (status : Status) (hobj : o.objID = some id) (hget : s.objs.get id = some person) :
    handleDeletePersonLog status o s =
      if o.updateTS.isLess person.updateTS then (some .newerOplog, o, s)
      else if person.status = .deleted then (some .newerOplog, o, s)
      else if .migrated ≤ person.status then (some .newerOplog, o, s)
      else handleDeletePersonLogCore status id person o s := by
  rw [handleDeletePersonLog, hobj]
  dsimp only
  rw [getObj_eq hget]

theorem handleTransferPersonLog_stored (kind : TransferKind) (toID : Option PttID) (hobj : o.objID = some id)
    (hget : s.objs.get id = some person) :
    handleTransferPersonLog kind newPerson toID o s =
      if person.logID ≠ o.preLogID then (some .invalidPreLog, o, s)
      else if person.status = kind.statusTransferred then
        if o.updateTS.isLess person.updateTS then
          (some .newerOplog, (s.saveUpdateObjectWithOplog id person o).1, s.saveObj id (person.setUpdateObjectWithOplog o))
        else (some .newerOplog, o, s)
      else handleTransferPersonLogCore kind newPerson toID id person o s := by
  rw [handleTransferPersonLog, hobj]
  dsimp only
  rw [getObj_eq hget]
  rfl

/-! ## All the handlers can do to the persons -/

inductive PersonEffect (s s' : Books δ) : Prop where
  | none (h : s'.objs = s.objs)
  | put (id : PttID) (person : Object δ) (h : s'.objs = s.objs.put id person)
      (hopen : ∀ p, s.objs.get id = some p → ¬ .migrated ≤ p.status)

theorem handleUpdatePersonLog_effect (o : BaseOplog) (s : Books δ) : PersonEffect s (handleUpdatePersonLog o s).2.2 := by
  cases hobj : o.objID with
  | none =>
    rw [handleUpdatePersonLog, hobj]
    exact .none rfl
  | some id =>
    cases hget : s.objs.get id with
    | none =>
      rw [handleUpdatePersonLog, hobj]
      dsimp only
      rw [getObj_eq_error hget]
      exact .none rfl
    | some person =>
      rw [handleUpdatePersonLog_stored hobj hget]
      split_ifs with hold halive hlater hmigrated
      · exact .none rfl
      · refine .put id _ rfl fun p hp => ?_
        cases hget.symm.trans hp
        rw [halive]
        decide
      · exact .none rfl
      · exact .none rfl
      · rw [handleUpdatePersonLogCore]
        have hobjs := replaceSyncInfo_objs s isReplaceOrigSyncPersonInfo person o .alive false
        rcases hr : s.replaceSyncInfo isReplaceOrigSyncPersonInfo person o .alive false with ⟨e | u, s'⟩ <;> rw [hr] at hobjs
        · exact .none hobjs
        · refine .put id _ (congrArg (KeyStore.put · id _) hobjs) fun p hp => ?_
          cases hget.symm.trans hp
          exact hmigrated

theorem handleDeletePersonLog_effect (status : Status) (o : BaseOplog) (s : Books δ) :
    PersonEffect s (handleDeletePersonLog status o s).2.2 := by
  cases hobj : o.objID with
  | none =>
    rw [handleDeletePersonLog, hobj]
    exact .none rfl
  | some id =>
    cases hget : s.objs.get id with
    | none =>
      rw [handleDeletePersonLog, hobj]
      dsimp only
      rw [getObj_eq_error hget]
      exact .none rfl
    | some person =>
      rw [handleDeletePersonLog_stored status hobj hget]
      split_ifs with hold hdel hmigrated
      · exact .none rfl
      · exact .none rfl
      · exact .none rfl
      · rw [handleDeletePersonLogCore]
        have hobjs := replaceSyncInfo_objs s isReplaceOrigSyncPersonInfo person o status true
        rcases hr : s.replaceSyncInfo isReplaceOrigSyncPersonInfo person o status true with ⟨e | u, s'⟩ <;> rw [hr] at hobjs
        · exact .none hobjs
        · refine .put id _ (congrArg (KeyStore.put · id _) hobjs) fun p hp => ?_
          cases hget.symm.trans hp
          exact hmigrated

theorem posttransferPerson_effect (newPerson : PttID → Except Err (Object δ)) (toID : PttID) (o : BaseOplog) (s : Books δ) :
    PersonEffect s (posttransferPerson newPerson toID o s).2.2 ∧
      ∀ id, id ≠ toID → (posttransferPerson newPerson toID o s).2.2.objs.get id = s.objs.get id := by
  rw [posttransferPerson]
  cases hget : s.objs.get toID with
  | some person =>
    dsimp only [posttransferUpdatePerson]
    split_ifs with halive hmigrated
    · exact ⟨.none rfl, fun _ _ => rfl⟩
    · exact ⟨.none rfl, fun _ _ => rfl⟩
    · refine ⟨.put toID _ rfl fun p hp => ?_, fun id hne => (KeyStore.get_put _ _ _ _).trans (if_neg hne)⟩
      cases hget.symm.trans hp
      exact hmigrated
  | none =>
    cases newPerson toID with
    | error e => exact ⟨.none rfl, fun _ _ => rfl⟩
    | ok person =>
      refine ⟨.put toID _ rfl fun p hp => ?_, fun id hne => (KeyStore.get_put _ _ _ _).trans (if_neg hne)⟩
      cases hget.symm.trans hp

end PttaiCore
