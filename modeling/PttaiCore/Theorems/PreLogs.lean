import PttaiCore.PreLogs
import PttaiCore.Theorems.Convergence

/-! # Pre-logs -/

namespace PttaiCore

open List

section prelogs

variable (p : OplogDB) (db : LDBDatabase Value)

def PreLogged (oplogs : List BaseOplog) : Prop :=
  ∀ before o rest, oplogs = before ++ o :: rest → ∀ id, o.preLogID = some id →
    (∃ log ∈ before, log.id = id ∧ log.masterLogID ≠ none) ∨ ∃ log, BaseOplog.get p id db = .ok log ∧ log.masterLogID ≠ none

def lastWithID (before : List BaseOplog) (id : PttID) : Option BaseOplog := before.reverse.find? fun log => decide (log.id = id)

def AsksStore (before : List BaseOplog) (o : BaseOplog) (id : PttID) : Prop :=
  o.preLogID = some id ∧ ((lastWithID before id).any fun log => log.masterLogID.isSome) = false

def FindsPreLog (before : List BaseOplog) (o : BaseOplog) : Prop :=
  ∃ id, AsksStore before o id ∧ ∃ log, BaseOplog.get p id db = .ok log ∧ log.masterLogID ≠ none

def LacksMaster (before : List BaseOplog) (o : BaseOplog) : Prop :=
  ∃ id, AsksStore before o id ∧ ∃ log, BaseOplog.get p id db = .ok log ∧ log.masterLogID = none

def LacksPreLog (before : List BaseOplog) (o : BaseOplog) : Prop := ∃ id, AsksStore before o id ∧ ∃ e, BaseOplog.get p id db = .error e

def Earlier (P : List BaseOplog → BaseOplog → Prop) (oplogs : List BaseOplog) : Prop :=
  ∃ before o rest, oplogs = before ++ o :: rest ∧ P before o

def Refused (before : List BaseOplog) (o : BaseOplog) : Prop :=
  LacksPreLog p db before o ∨ LacksMaster p db before o ∧ ¬ Earlier (FindsPreLog p db) before

def Unfounded (before : List BaseOplog) (o : BaseOplog) : Prop :=
  ∃ id, o.preLogID = some id ∧ (∀ log ∈ before, log.id = id → log.masterLogID = none) ∧
    ∃ log, BaseOplog.get p id db = .ok log ∧ log.masterLogID = none

def NoStalePreLog (oplogs : List BaseOplog) : Prop :=
  ∀ before o rest, oplogs = before ++ o :: rest → Unfounded p db before o → Earlier (FindsPreLog p db) before →
    Earlier (Refused p db) before

namespace PreLogsAux

variable {p db} {before oplogs : List BaseOplog} {o : BaseOplog}

/-! ## Lists -/

variable {P : List BaseOplog → BaseOplog → Prop}

theorem earlier_snoc : Earlier P (before ++ [o]) ↔ Earlier P before ∨ P before o := by
  constructor
  · rintro ⟨l, x, rest, heq, hP⟩
    rcases rest.eq_nil_or_concat' with rfl | ⟨rest, y, rfl⟩
    · obtain ⟨rfl, hx⟩ := append_inj' heq rfl
      cases hx
      exact .inr hP
    · rw [← cons_append, ← append_assoc] at heq
      exact .inl ⟨l, x, rest, (append_inj' heq rfl).1, hP⟩
  · rintro (⟨l, x, rest, rfl, hP⟩ | hP)
    · exact ⟨l, x, rest ++ [o], by simp, hP⟩
    · exact ⟨before, o, [], rfl, hP⟩

theorem not_earlier_nil : ¬ Earlier P [] := by
  rintro ⟨l, x, rest, heq, -⟩
  simp at heq

theorem earlier_append (h : Earlier P before) (rest : List BaseOplog) :
    Earlier P (before ++ rest) := by
  obtain ⟨l, x, l', rfl, hP⟩ := h
  exact ⟨l, x, l' ++ rest, by simp, hP⟩

theorem lastWithID_snoc (id : PttID) : lastWithID (before ++ [o]) id = if o.id = id then some o else lastWithID before id := by
  rw [lastWithID, reverse_append, reverse_singleton, singleton_append, List.find?_cons]
  by_cases h : o.id = id
  · simp [h]
  · simp [h, lastWithID]

theorem asksStore_of_forall {id : PttID} (hpre : o.preLogID = some id) (h : ∀ log ∈ before, log.id = id → log.masterLogID = none) :
    AsksStore before o id := by
  refine ⟨hpre, ?_⟩
  cases hlast : lastWithID before id with
  | none => rfl
  | some log =>
    have hmem : log ∈ before := mem_reverse.1 (mem_of_find?_eq_some hlast)
    have hid : log.id = id := by simpa using List.find?_some hlast
    simp [h log hmem hid]

/-! ## The check -/

structure Passed (p : OplogDB) (db : LDBDatabase Value) (before : List BaseOplog) (prelog : Option PttID)
    (existIDs : KeyStore PttID BaseOplog) : Prop where
  get_existIDs : ∀ id, existIDs.get id = lastWithID before id
  prelog_iff : prelog.isSome = true ↔ Earlier (FindsPreLog p db) before

theorem passed_nil : Passed p db [] none KeyStore.empty :=
  ⟨fun _ => rfl, by simp [not_earlier_nil]⟩

variable {prelog : Option PttID} {existIDs : KeyStore PttID BaseOplog}

theorem Passed.snoc (h : Passed p db before prelog existIDs) {prelog' : Option PttID}
    (hiff : prelog'.isSome = true ↔ prelog.isSome = true ∨ FindsPreLog p db before o) :
    Passed p db (before ++ [o]) prelog' (existIDs.put o.id o) := by
  refine ⟨?_, ?_⟩
  · intro id
    rw [KeyStore.get_put, lastWithID_snoc, h.get_existIDs]
    by_cases hid : id = o.id
    · rw [if_pos hid, if_pos hid.symm]
    · rw [if_neg hid, if_neg fun h => hid h.symm]
  · rw [hiff, h.prelog_iff, earlier_snoc]

theorem checkPreOplog_cases (h : Passed p db before prelog existIDs) :
    (checkPreOplog p db o prelog existIDs = .error .invalidOplog ∧ Refused p db before o) ∨
      ∃ prelog', checkPreOplog p db o prelog existIDs = .ok (prelog', existIDs.put o.id o) ∧ ¬ Refused p db before o ∧
        Passed p db (before ++ [o]) prelog' (existIDs.put o.id o) := by
  -- what it does when it does not ask the store
  have hkeep : (∀ id, ¬ AsksStore before o id) → ¬ Refused p db before o ∧ Passed p db (before ++ [o]) prelog (existIDs.put o.id o) := by
    intro hno
    have hfinds : ¬ FindsPreLog p db before o := by
      rintro ⟨id, hasks, -⟩
      exact hno id hasks
    refine ⟨?_, h.snoc (by simp [hfinds])⟩
    rintro (⟨id, hasks, -⟩ | ⟨⟨id, hasks, -⟩, -⟩)
    · exact hno id hasks
    · exact hno id hasks
  cases hpre : o.preLogID with
  | none =>
    have hno : ∀ id, ¬ AsksStore before o id := by
      intro id hasks
      rw [AsksStore, hpre] at hasks
      exact absurd hasks.1 (by simp)
    exact .inr ⟨prelog, by rw [checkPreOplog, hpre], hkeep hno⟩
  | some id =>
    have huniq : ∀ id', AsksStore before o id' → id' = id := by
      intro id' hasks
      rw [AsksStore, hpre] at hasks
      exact (Option.some.inj hasks.1).symm
    rw [checkPreOplog, hpre]
    dsimp only
    rw [h.get_existIDs]
    by_cases hbatch : ((lastWithID before id).any fun log => log.masterLogID.isSome) = true
    · have hno : ∀ id', ¬ AsksStore before o id' := by
        intro id' hasks
        rw [huniq id' hasks] at hasks
        exact absurd hbatch (by rw [hasks.2]; exact Bool.false_ne_true)
      exact .inr ⟨prelog, by rw [if_pos hbatch], hkeep hno⟩
    · have hasks : AsksStore before o id := ⟨hpre, Bool.eq_false_iff.2 hbatch⟩
      rw [if_neg hbatch]
      cases hget : BaseOplog.get p id db with
      | error e => exact .inl ⟨rfl, .inl ⟨id, hasks, e, hget⟩⟩
      | ok log =>
        have hfinds : FindsPreLog p db before o ↔ log.masterLogID ≠ none := by
          constructor
          · rintro ⟨id', hasks', log', hget', hmaster⟩
            rw [huniq id' hasks', hget] at hget'
            cases hget'
            exact hmaster
          · exact fun hmaster => ⟨id, hasks, log, hget, hmaster⟩
        have hrefused : Refused p db before o ↔ log.masterLogID = none ∧ prelog.isSome = false := by
          rw [Refused, ← h.prelog_iff.not, Bool.not_eq_true]
          constructor
          · rintro (⟨id', hasks', e, hget'⟩ | ⟨⟨id', hasks', log', hget', hmaster⟩, hnone⟩)
            · rw [huniq id' hasks', hget] at hget'
              cases hget'
            · rw [huniq id' hasks', hget] at hget'
              cases hget'
              exact ⟨hmaster, hnone⟩
          · rintro ⟨hmaster, hnone⟩
            exact .inr ⟨⟨id, hasks, log, hget, hmaster⟩, hnone⟩
        dsimp only
        rw [hrefused]
        cases hmaster : log.masterLogID with
        | some master =>
          refine .inr ⟨some master, rfl, by simp, h.snoc ?_⟩
          rw [hfinds, hmaster]
          simp
        | none =>
          cases prelog with
          | none => exact .inl ⟨rfl, rfl, rfl⟩
          | some id' =>
            refine .inr ⟨some id', rfl, by simp, h.snoc ?_⟩
            rw [hfinds, hmaster]
            simp

theorem checkPreOplogs_spec (oplogs : List BaseOplog) (h : Passed p db before prelog existIDs) (hbefore : ¬ Earlier (Refused p db) before) :
    ∃ rest, oplogs = checkPreOplogs p db oplogs prelog existIDs ++ rest ∧
      ¬ Earlier (Refused p db) (before ++ checkPreOplogs p db oplogs prelog existIDs) ∧
      ∀ o rest', rest = o :: rest' → Refused p db (before ++ checkPreOplogs p db oplogs prelog existIDs) o := by
  induction oplogs generalizing before prelog existIDs with
  | nil => exact ⟨[], rfl, by simpa [checkPreOplogs] using hbefore, by simp⟩
  | cons o oplogs ih =>
    rcases checkPreOplog_cases (o := o) h with ⟨herr, hrefused⟩ | ⟨prelog', hok, hpass, hnext⟩
    · have hnil : checkPreOplogs p db (o :: oplogs) prelog existIDs = [] := by rw [checkPreOplogs, herr]
      rw [hnil, append_nil]
      refine ⟨o :: oplogs, rfl, hbefore, ?_⟩
      intro o' rest' heq
      cases heq
      exact hrefused
    · have hcons : checkPreOplogs p db (o :: oplogs) prelog existIDs =
          o :: checkPreOplogs p db oplogs prelog' (existIDs.put o.id o) := by rw [checkPreOplogs, hok]
      have hearlier : ¬ Earlier (Refused p db) (before ++ [o]) := by
        rw [earlier_snoc]
        exact not_or.2 ⟨hbefore, hpass⟩
      obtain ⟨rest, heq, hnone, hrest⟩ := ih hnext hearlier
      rw [append_assoc, singleton_append] at hnone hrest
      rw [hcons]
      exact ⟨rest, by rw [cons_append, ← heq], hnone, hrest⟩

theorem preLogged_iff {r rest : List BaseOplog} (hr : ¬ Earlier (Refused p db) r) (hrest : ∀ o rest', rest = o :: rest' → Refused p db r o) :
    PreLogged p db r ↔ NoStalePreLog p db (r ++ rest) := by
  constructor
  · intro h before o after heq hunfounded hfinds
    by_contra hnot
    obtain ⟨id, hpre, hlist, log, hget, hmaster⟩ := hunfounded
    -- the oplog is not the first that is refused, since an oplog before it found its pre-log
    have hfirst : before = r → rest ≠ o :: after := by
      rintro rfl hrest'
      rcases hrest o after hrest' with ⟨id', hasks, e, hget'⟩ | ⟨-, hno⟩
      · rw [AsksStore, hpre] at hasks
        cases hasks.1
        rw [hget] at hget'
        cases hget'
      · exact hno hfinds
    have hin : ∃ after', r = before ++ o :: after' := by
      rcases append_eq_append_iff.1 heq with ⟨l, hbefore, hl⟩ | ⟨l, hr', hl⟩
      · cases l with
        | nil => exact absurd hl (hfirst (by rw [hbefore, append_nil]))
        | cons x l => exact absurd ⟨r, x, l, hbefore, hrest x (l ++ o :: after) hl⟩ hnot
      · cases l with
        | nil => exact absurd hl.symm (hfirst (by rw [hr', append_nil]))
        | cons x l =>
          rw [cons_append] at hl
          cases hl
          exact ⟨l, hr'⟩
    obtain ⟨after', hr'⟩ := hin
    rcases h before o after' hr' id hpre with ⟨log', hmem, hid, hne⟩ | ⟨log', hget', hne⟩
    · exact hne (hlist log' hmem hid)
    · rw [hget] at hget'
      cases hget'
      exact hne hmaster
  · intro h before o after heq id hpre
    by_contra hnot
    obtain ⟨hlist, hstore⟩ := not_or.1 hnot
    have hnone : ∀ log ∈ before, log.id = id → log.masterLogID = none := by
      intro log hmem hid
      by_contra hne
      exact hlist ⟨log, hmem, hid, hne⟩
    have hasks := asksStore_of_forall hpre hnone
    have hpass : ¬ Refused p db before o := fun hrefused => hr ⟨before, o, after, heq, hrefused⟩
    cases hget : BaseOplog.get p id db with
    | error e => exact hpass (.inl ⟨id, hasks, e, hget⟩)
    | ok log =>
      have hmaster : log.masterLogID = none := by
        by_contra hne
        exact hstore ⟨log, hget, hne⟩
      have hfinds : Earlier (FindsPreLog p db) before := by
        by_contra hno
        exact hpass (.inr ⟨⟨id, hasks, log, hget, hmaster⟩, hno⟩)
      have hrefused := h before o (after ++ rest) (by rw [heq]; simp) ⟨id, hpre, hnone, log, hget, hmaster⟩ hfinds
      refine hr ?_
      rw [heq]
      exact earlier_append hrefused _

theorem checkPreOplogs_preLogged_iff (oplogs : List BaseOplog) :
    PreLogged p db (checkPreOplogs p db oplogs none KeyStore.empty) ↔ NoStalePreLog p db oplogs := by
  obtain ⟨rest, heq, hr, hrest⟩ := checkPreOplogs_spec oplogs (@passed_nil p db) not_earlier_nil
  rw [nil_append] at hr hrest
  rw [preLogged_iff hr hrest, ← heq]

end PreLogsAux

/-- What is returned of a list of oplogs has its pre-logs exactly if no oplog of the list has a stale one. -/
theorem preprocessOplogs_preLogged_iff (Γ : Ctx) (now : Timestamp) (merkle : Option Merkle) (isPending : Bool)
    (oplogs : List BaseOplog) :
    (∀ r, preprocessOplogs p db Γ now merkle isPending oplogs = .ok r → PreLogged p db r) ↔
      ∀ ts, expireTS db merkle = .ok ts → verifyOplogs Γ (timelyOplogs now ts isPending oplogs) = .ok () →
        NoStalePreLog p db (timelyOplogs now ts isPending oplogs) := by
  rw [preprocessOplogs]
  cases hts : expireTS db merkle with
  | error e => simp
  | ok ts =>
    dsimp only
    cases hverify : verifyOplogs Γ (timelyOplogs now ts isPending oplogs) with
    | error e => simp [hverify]
    | ok u => simp [hverify, PreLogsAux.checkPreOplogs_preLogged_iff]

end prelogs

namespace PreLogsWitness

open SigningWitness ConvergenceWitness

def withMaster : BaseOplog :=
  { BaseOplog.new (idOf 3) none ⟨1000, 0⟩ (idOf 1) 1 none with hash := List.replicate 32 7, masterLogID := some (idOf 8) }

def withoutMaster : BaseOplog :=
  { BaseOplog.new (idOf 4) none ⟨1000, 0⟩ (idOf 1) 1 none with
    hash := List.replicate 32 7, internalSigns := [⟨idOf 2, ⟨1000, 0⟩, [], saltOf 0, [], [], none⟩] }

def db : LDBDatabase Value := (withoutMaster.save oplogDB none (withMaster.save oplogDB none emptyState).2).2.db

def follows (id preLogID : UInt8) : BaseOplog :=
  { BaseOplog.new (idOf id) none ⟨1000, 0⟩ (signer 1).id 1 none with preLogID := some (idOf preLogID) }.sign ctx (signer 1).keyInfo
    (saltOf 5)

end PreLogsWitness

open PreLogsWitness SigningWitness ConvergenceWitness in
/-- An oplog whose pre-log has no master log is refused alone, and let through after one whose pre-log has one. -/
theorem stale_preLog_is_accepted :
    (preprocessOplogs oplogDB db ctx ⟨2000, 0⟩ none false [follows 6 4]).toOption.map (List.map BaseOplog.id) = some [] ∧
      (preprocessOplogs oplogDB db ctx ⟨2000, 0⟩ none false [follows 5 3, follows 6 4]).toOption.map (List.map BaseOplog.id) =
        some [idOf 5, idOf 6] ∧
      (follows 6 4).preLogID = some (idOf 4) ∧
      (BaseOplog.get oplogDB (idOf 4) db).toOption.map BaseOplog.masterLogID = some none := by
  refine ⟨by decide +kernel, by decide +kernel, rfl, by decide +kernel⟩

end PttaiCore
