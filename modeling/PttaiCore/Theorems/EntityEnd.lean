import PttaiCore.EntityLogs
import PttaiCore.Lib.Best

/-! # The end of an entity -/

namespace PttaiCore

inductive EndLog where
  | deleteMe (oplog : BaseOplog)
  | migrateMe (oplog : BaseOplog)
  deriving DecidableEq

namespace EndLog

def oplog : EndLog → BaseOplog
  | .deleteMe oplog | .migrateMe oplog => oplog

def status : EndLog → Status
  | .deleteMe _ => .deleted
  | .migrateMe _ => .migrated

variable {δ : Type} (getData : EndLog → Except Err Unit)

def handle (st : EntityRecord × Books δ) (log : EndLog) : EntityRecord × Books δ :=
  match log with
  | .deleteMe oplog => (handleDeleteMeLog (fun _ => getData log) oplog st.1 st.2).2.2
  | .migrateMe oplog => (handleMigrateMeLog (fun _ => getData log) oplog st.1 st.2).2.2

def readable (log : EndLog) : Bool := (getData log).toOption.isSome

end EndLog

def endOf {δ : Type} (getData : EndLog → Except Err Unit) (logs : List EndLog) (entity : EntityRecord) (s : Books δ) :
    Status × Timestamp × Option PttID :=
  let r := (logs.foldl (EndLog.handle getData) (entity, s)).1
  (r.status, r.updateTS, r.logID)

namespace EntityEndAux

variable {δ : Type} {getData : EndLog → Except Err Unit} {entity : EntityRecord} {s : Books δ} {log : EndLog} {logs : List EndLog}

theorem handle_eq (st : EntityRecord × Books δ) :
    EndLog.handle getData st log = (handleDeleteEntityLog (fun _ => getData log) log.status log.oplog st.1 st.2).2.2 := by
  cases log <;> rfl

theorem status_cases (log : EndLog) : log.status = .deleted ∨ log.status = .migrated := by
  cases log with
  | deleteMe oplog => exact .inl rfl
  | migrateMe oplog => exact .inr rfl

theorem handle_of_not_readable (st : EntityRecord × Books δ) (h : log.readable getData = false) : EndLog.handle getData st log = st := by
  rw [handle_eq, handleDeleteEntityLog]
  cases hdata : getData log with
  | error e => rfl
  | ok u => simp [EndLog.readable, hdata, Except.toOption] at h

theorem getData_of_readable (h : log.readable getData = true) : getData log = .ok () := by
  cases hdata : getData log with
  | error e => simp [EndLog.readable, hdata, Except.toOption] at h
  | ok u => rfl

theorem handle_alive (h : log.readable getData = true) (halive : entity.status = .alive) (hsync : entity.syncInfo = none) :
    EndLog.handle getData (entity, s) log = (setNewEntityWithOplog { entity with syncInfo := none } log.status log.oplog, s) := by
  have hne : statusToStatusClass entity.status ≠ statusToStatusClass log.status := by
    rw [halive]
    rcases status_cases log with h | h <;> rw [h] <;> decide
  have hlt : ¬ StatusClass.deleted ≤ statusToStatusClass entity.status := by
    rw [halive]
    decide
  have hdrop : s.dropSyncInfo entity log.oplog = (.ok (), s) := by rw [Books.dropSyncInfo, hsync]
  rw [handle_eq, handleDeleteEntityLog, getData_of_readable h]
  rw [if_neg hne, if_neg hlt, hdrop]

theorem statusToStatusClass_injective {log' : EndLog} (h : statusToStatusClass log.status = statusToStatusClass log'.status) :
    log.status = log'.status := by
  rcases status_cases log with h1 | h1 <;> rcases status_cases log' with h2 | h2 <;> rw [h1, h2] at h ⊢ <;> exact absurd h (by decide)

theorem handle_ended {log' : EndLog} (h : log'.readable getData = true) (hstatus : entity.status = log.status) :
    EndLog.handle getData (entity, s) log' =
      (if log'.status = log.status ∧ log'.oplog.updateTS.isLess entity.updateTS = true then
        setNewEntityWithOplog entity log'.status log'.oplog else entity, s) := by
  rw [handle_eq, handleDeleteEntityLog, getData_of_readable h]
  rw [hstatus]
  by_cases hsame : log'.status = log.status
  · rw [if_pos (by rw [hsame])]
    by_cases hless : log'.oplog.updateTS.isLess entity.updateTS = true
    · rw [if_pos hless, if_pos ⟨hsame, hless⟩]
    · rw [if_neg hless, if_neg fun h => hless h.2]
  · have hended : StatusClass.deleted ≤ statusToStatusClass log.status := by
      rcases status_cases log with h | h <;> rw [h] <;> decide
    rw [if_neg fun h => hsame (statusToStatusClass_injective h.symm), if_pos hended, if_neg fun h => hsame h.1]

/-! ## The first log decides the status -/

theorem status_foldl_ended (hstatus : entity.status = log.status) :
    (logs.foldl (EndLog.handle getData) (entity, s)).1.status = log.status := by
  induction logs generalizing entity s with
  | nil => exact hstatus
  | cons log' logs ih =>
    rw [List.foldl_cons]
    cases hread : log'.readable getData with
    | false =>
      rw [handle_of_not_readable _ hread]
      exact ih hstatus
    | true =>
      rw [handle_ended hread hstatus]
      refine ih ?_
      split_ifs with h
      · exact h.1
      · exact hstatus

theorem status_endOf_cons (h : log.readable getData = true) (halive : entity.status = .alive) (hsync : entity.syncInfo = none) :
    (endOf getData (log :: logs) entity s).1 = log.status := by
  rw [endOf, List.foldl_cons, handle_alive h halive hsync]
  exact status_foldl_ended rfl

/-! ## Of logs that do the same the earliest counts -/

def endedBy (entity : EntityRecord) : Option EndLog → EntityRecord
  | none => entity
  | some log => setNewEntityWithOplog { entity with syncInfo := none } log.status log.oplog

def endRank (log : EndLog) : Int ×ₗ Nat := log.oplog.updateTS.order

theorem handle_endedBy (halive : entity.status = .alive) (hsync : entity.syncInfo = none) {cur : Option EndLog}
    (hsame : ∀ log', cur = some log' → log.readable getData = true → log.status = log'.status) :
    EndLog.handle getData (endedBy entity cur, s) log =
      (endedBy entity (Best.better endRank (EndLog.readable getData) cur log), s) := by
  unfold Best.better
  cases hread : log.readable getData with
  | false =>
    rw [handle_of_not_readable _ hread]
    simp
  | true =>
    rw [if_pos rfl]
    cases cur with
    | none => exact handle_alive hread halive hsync
    | some log' =>
      have hst := hsame log' rfl hread
      have hended := @handle_ended δ getData (endedBy entity (some log')) s log' log hread rfl
      rw [hended]
      have hless : log.oplog.updateTS.isLess (endedBy entity (some log')).updateTS = true ↔ endRank log < endRank log' :=
        Timestamp.isLess_iff _ _
      dsimp only
      by_cases hlt : endRank log < endRank log'
      · rw [if_pos ⟨hst, hless.2 hlt⟩, if_pos hlt]
        rfl
      · rw [if_neg fun h => hlt (hless.1 h.2), if_neg hlt]

theorem foldl_handle_eq (halive : entity.status = .alive) (hsync : entity.syncInfo = none)
    (hsame : ∀ a ∈ logs, ∀ b ∈ logs, a.readable getData = true → b.readable getData = true → a.status = b.status) :
    logs.foldl (EndLog.handle getData) (entity, s) =
      (endedBy entity (logs.foldl (Best.better endRank (EndLog.readable getData)) none), s) := by
  induction logs using List.reverseRecOn with
  | nil => rfl
  | append_singleton logs log ih =>
    have hmem : ∀ a ∈ logs, a ∈ logs ++ [log] := fun a ha => List.mem_append_left _ ha
    rw [List.foldl_append, List.foldl_append, ih fun a ha b hb => hsame a (hmem a ha) b (hmem b hb)]
    refine handle_endedBy halive hsync ?_
    intro log' hcur hread
    have hbounds := Best.bounds_foldl endRank (EndLog.readable getData) logs
    rw [hcur] at hbounds
    cases hbounds with
    | some hc _ => exact hsame log (by simp) log' (hmem log' hc.1) hread hc.2

theorem best_eq_of_perm {l l' : List EndLog} (hperm : l.Perm l') (hdistinct : ∀ a ∈ l, ∀ b ∈ l, endRank a = endRank b → a = b) :
    l.foldl (Best.better endRank (EndLog.readable getData)) none = l'.foldl (Best.better endRank (EndLog.readable getData)) none := by
  have hl := Best.bounds_foldl endRank (EndLog.readable getData) l
  have hl' := Best.bounds_foldl endRank (EndLog.readable getData) l'
  revert hl hl'
  generalize l.foldl (Best.better endRank (EndLog.readable getData)) none = o
  generalize l'.foldl (Best.better endRank (EndLog.readable getData)) none = o'
  intro hl hl'
  cases hl with
  | none hnone =>
    cases hl' with
    | none _ => rfl
    | @some c hc _ => exact absurd ⟨hperm.mem_iff.2 hc.1, hc.2⟩ (hnone c)
  | @some c hc hle =>
    cases hl' with
    | none hnone => exact absurd ⟨hperm.mem_iff.1 hc.1, hc.2⟩ (hnone c)
    | @some c' hc' hle' =>
      have hmem : c' ∈ l := hperm.mem_iff.2 hc'.1
      rw [hdistinct c hc.1 c' hmem (le_antisymm (hle c' ⟨hmem, hc'.2⟩) (hle' c ⟨hperm.mem_iff.1 hc.1, hc.2⟩))]

end EntityEndAux

open EntityEndAux in
/-- The logs leave an alive entity the same in every order exactly if all that can be read do the same. -/
theorem endOf_perm_iff {δ : Type} (getData : EndLog → Except Err Unit) (logs : List EndLog) (entity : EntityRecord) (s : Books δ)
    (hdistinct : (logs.map fun log => log.oplog.updateTS).Nodup) (halive : entity.status = .alive)
    (hsync : entity.syncInfo = none) :
    (∀ l l', l.Perm logs → l'.Perm logs → endOf getData l entity s = endOf getData l' entity s) ↔
      ∀ a ∈ logs, ∀ b ∈ logs, a.readable getData = true → b.readable getData = true → a.status = b.status := by
  constructor
  · intro h a ha b hb hread hread'
    have hfirst := h (a :: logs.erase a) (b :: logs.erase b) (List.perm_cons_erase ha).symm (List.perm_cons_erase hb).symm
    have hstatus := congrArg Prod.fst hfirst
    rwa [status_endOf_cons hread halive hsync, status_endOf_cons hread' halive hsync] at hstatus
  · intro h l l' hl hl'
    have hrank : ∀ a ∈ l, ∀ b ∈ l, endRank a = endRank b → a = b := by
      intro a ha b hb hab
      exact List.inj_on_of_nodup_map hdistinct (hl.mem_iff.1 ha) (hl.mem_iff.1 hb) (Timestamp.order_injective hab)
    have hsame : ∀ m : List EndLog, m.Perm logs → ∀ a ∈ m, ∀ b ∈ m, a.readable getData = true → b.readable getData = true →
        a.status = b.status := by
      intro m hm a ha b hb
      exact h a (hm.mem_iff.1 ha) b (hm.mem_iff.1 hb)
    rw [endOf, endOf, foldl_handle_eq halive hsync (hsame l hl), foldl_handle_eq halive hsync (hsame l' hl'),
      best_eq_of_perm (hl.trans hl'.symm) hrank]

namespace EntityEndWitness

def oplog (id : UInt8) (sec : Int64) : BaseOplog := BaseOplog.new (ByteArrayOf.replicate 40 id) none ⟨sec, 0⟩ (ByteArrayOf.replicate 40 1) 1 none

def entity : EntityRecord := ⟨⟨1, 0⟩, ⟨1, 0⟩, .alive, none, ByteArrayOf.replicate 40 1, none⟩

def books : Books Unit := ⟨KeyStore.empty, KeyStore.empty⟩

def getData (_ : EndLog) : Except Err Unit := .ok ()

end EntityEndWitness

open EntityEndWitness in
theorem endOf_perm_iff_two : endOf getData [.deleteMe (oplog 2 10), .deleteMe (oplog 3 20)] entity books =
    endOf getData [.deleteMe (oplog 3 20), .deleteMe (oplog 2 10)] entity books := by
  refine (endOf_perm_iff getData [.deleteMe (oplog 2 10), .deleteMe (oplog 3 20)] entity books (by decide +kernel) rfl rfl).2 ?_ _ _
    (List.Perm.refl _) (List.Perm.swap _ _ _)
  intro a ha b hb _ _
  simp only [List.mem_cons, List.not_mem_nil, or_false] at ha hb
  rcases ha with rfl | rfl <;> rcases hb with rfl | rfl <;> rfl

open EntityEndWitness in
/-- A user that is deleted and migrated is the one or the other, as the logs arrive. -/
theorem deleted_or_migrated_by_arrival :
    (endOf getData [.deleteMe (oplog 2 10), .migrateMe (oplog 3 20)] entity books).1 = .deleted ∧
      (endOf getData [.migrateMe (oplog 3 20), .deleteMe (oplog 2 10)] entity books).1 = .migrated := by
  decide +kernel

end PttaiCore
