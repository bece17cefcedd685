import PttaiCore.Lib.LastWriter
import PttaiCore.Lemmas.Persons

/-! # Which log decides a person's status -/

namespace PttaiCore

open Books KeyStore Timestamp

variable {δ : Type}

inductive PersonOp where
  | add | delete
  deriving DecidableEq, Repr

namespace PersonOp

def status : PersonOp → Status
  | .add => .alive
  | .delete => .deleted

def handler : PersonOp → Handler δ
  | .add => handleUpdatePersonLog
  | .delete => handleDeletePersonLog .deleted

end PersonOp

structure PersonLog where
  op : PersonOp
  oplog : BaseOplog
  deriving DecidableEq

namespace PersonLog

def process (s : Books δ) (l : PersonLog) : Books δ := (s.handleOplog l.op.handler { l.oplog with isSync := false }).2

def Decides (l : PersonLog) (s : Books δ) (id : PttID) : Prop :=
  ∃ person, s.objs.get id = some person ∧ person.status = l.op.status ∧ person.updateTS = l.oplog.updateTS

instance (l : PersonLog) (s : Books δ) (id : PttID) : Decidable (l.Decides s id) :=
  decidable_of_iff ((s.objs.get id).any fun p => decide (p.status = l.op.status ∧ p.updateTS = l.oplog.updateTS)) (by
    simp only [Decides, Option.any_eq_true, decide_eq_true_eq])

end PersonLog

structure Created (s : Books δ) (id : PttID) (person : Object δ) : Prop where
  stored : s.objs.get id = some person
  notDeleted : person.status ≠ .deleted
  notMigrated : person.status < .migrated
  noSyncInfo : person.syncInfo = none

theorem Created.of_handleCreatePersonLog {s : Books δ} {id : PttID} {o : BaseOplog} (data : δ) (habsent : s.objs.get id = none)
    (hobj : o.objID = some id) (halive : o.toStatus = .alive) (hsync : o.isSync = false) (hnew : s.logs.get o.id = none) :
    ∃ person, Created (s.handleOplog (handleCreatePersonLog data) o).2 id person ∧ person.updateTS = o.updateTS := by
  have hf : handleCreatePersonLog data o s = (none, s.savePerson id (Object.newObjectWithOplog o data) o) := by
    rw [handleCreatePersonLog, hobj]
    dsimp only
    rw [habsent]
    rfl
  rw [handleOplog_new hnew hsync hf (Or.inl ⟨rfl, rfl⟩) halive]
  have hstatus : (Object.setNewObjectWithOplog { Object.newObjectWithOplog o data with isGood := true, isAllGood := true } o).status =
      .alive := halive
  refine ⟨_, ⟨(get_put _ _ _ _).trans (if_pos rfl), ?_, ?_, rfl⟩, rfl⟩
  · intro hdel
    cases hstatus.symm.trans hdel
  · exact (congrArg (· < Status.migrated) hstatus).mpr (by decide)

structure Later (s : Books δ) (id : PttID) (person : Object δ) (l : PersonLog) : Prop where
  about : l.oplog.objID = some id
  alive : l.oplog.toStatus = .alive
  unseen : s.logs.get l.oplog.id = none
  later : person.updateTS.isLess l.oplog.updateTS = true

namespace PersonConvergenceAux

def Refuses (a b : Status) : Prop := a = .deleted ∧ b = .deleted

instance : DecidableRel Refuses := fun a b => inferInstanceAs (Decidable (a = .deleted ∧ b = .deleted))

variable {s : Books δ} {id : PttID} {person : Object δ} {o : BaseOplog}

theorem savePerson_eq (s : Books δ) (id : PttID) (person : Object δ) (halive : o.toStatus = .alive) :
    ∃ person', s.savePerson id person o = ({ o with isSync := true }, s.saveObj id person') ∧ person'.updateTS = o.updateTS ∧
      person'.status = .alive ∧ person'.syncInfo = none :=
  ⟨_, rfl, rfl, halive, rfl⟩

theorem handler_cases (op : PersonOp) (hobj : o.objID = some id) (hget : s.objs.get id = some person) (hsync : person.syncInfo = none)
    (hopen : person.status < .migrated) (halive : o.toStatus = .alive) (hne : person.updateTS ≠ o.updateTS) :
    ((person.updateTS.order < o.updateTS.order ∧ ¬ Refuses person.status op.status) ∧
      ∃ person', op.handler o s = (none, { o with isSync := true }, s.saveObj id person') ∧
        person'.updateTS = o.updateTS ∧ person'.status = op.status ∧ person'.syncInfo = none) ∨
    (¬ (person.updateTS.order < o.updateTS.order ∧ ¬ Refuses person.status op.status) ∧
      op.handler o s = (some .newerOplog, o, s)) := by
  have hmigrated := Status.not_le_of_lt hopen
  rcases lt_or_ge o.updateTS.order person.updateTS.order with hlt | hge
  · -- the log is older
    have hless := (isLess_iff _ _).2 hlt
    refine .inr ⟨fun h => hlt.asymm h.1, ?_⟩
    cases op with
    | add => exact (handleUpdatePersonLog_stored hobj hget).trans (if_pos hless)
    | delete => exact (handleDeletePersonLog_stored .deleted hobj hget).trans (if_pos hless)
  · have hless : ¬ o.updateTS.isLess person.updateTS = true := by
      rw [(isLess_eq_false_iff _ _).2 hge]
      exact Bool.false_ne_true
    have hlater : person.updateTS.order < o.updateTS.order := lt_of_le_of_ne hge fun h => hne (order_injective h)
    cases op with
    | add =>
      obtain ⟨person', hsave, hrest⟩ := savePerson_eq s id person halive
      refine .inl ⟨⟨hlater, fun h => by cases h.2⟩, person', ?_, hrest⟩
      refine (handleUpdatePersonLog_stored hobj hget).trans ?_
      rw [if_neg hless, if_pos ((isLess_iff _ _).2 hlater), if_neg hmigrated, handleUpdatePersonLogCore, replaceSyncInfo, hsync,
        hsave]
      dsimp only
      rw [hsave, ite_self]
    | delete =>
      have hstored := handleDeletePersonLog_stored .deleted hobj hget
      rw [if_neg hless, if_neg hmigrated] at hstored
      by_cases hdel : person.status = .deleted
      · rw [if_pos hdel] at hstored
        exact .inr ⟨fun h => h.2 ⟨hdel, rfl⟩, hstored⟩
      · rw [if_neg hdel, handleDeletePersonLogCore, replaceSyncInfo, hsync] at hstored
        exact .inl ⟨⟨hlater, fun h => hdel h.1⟩, _, hstored, rfl, rfl, rfl⟩

/-! ## The person as a register -/

abbrev writeAll (r : Register PttID (Int ×ₗ Nat) Status) (logs : List PersonLog) : Register PttID (Int ×ₗ Nat) Status :=
  r.writeAll (fun l : PersonLog => l.oplog.id) (fun l => l.oplog.updateTS.order) (fun l => l.op.status) Refuses logs

structure Shows (s : Books δ) (id : PttID) (logs : List PersonLog) (r : Register PttID (Int ×ₗ Nat) Status) : Prop where
  person : ∃ person, s.objs.get id = some person ∧ person.updateTS.order = r.time ∧ person.status = r.value ∧ person.syncInfo = none
  notMigrated : r.value < .migrated
  seen : ∀ i ∈ r.seen, s.Synced i
  unseen : ∀ l ∈ logs, l.oplog.id ∉ r.seen → s.logs.get l.oplog.id = none

variable {logs : List PersonLog} {r : Register PttID (Int ×ₗ Nat) Status} {l : PersonLog}

theorem status_lt_migrated (op : PersonOp) : op.status < .migrated := by cases op <;> decide

theorem seen_put {i : PttID} {seen : List PttID} {objs : KeyStore PttID (Object δ)} (halive : o.toStatus = .alive)
    (hseen : ∀ j ∈ seen, s.Synced j) (hi : i ∈ o.id :: seen) :
    (⟨objs, s.logs.put o.id { o.notNewer with isSync := true }⟩ : Books δ).Synced i := by
  by_cases hio : i = o.id
  · exact ⟨{ o.notNewer with isSync := true }, by rw [hio, get_put, if_pos rfl], rfl, halive⟩
  · obtain ⟨o', hget, hrest⟩ := hseen i ((List.mem_cons.1 hi).resolve_left hio)
    exact ⟨o', by rw [get_put, if_neg hio, hget], hrest⟩

theorem Shows.process (h : Shows s id logs r) (hl : l ∈ logs) (hobj : l.oplog.objID = some id) (halive : l.oplog.toStatus = .alive)
    (hne : r.time ≠ l.oplog.updateTS.order) : Shows (l.process s) id logs (writeAll r [l]) := by
  obtain ⟨person, hget, htime, hvalue, hsync⟩ := h.person
  let o : BaseOplog := { l.oplog with isSync := false }
  change Shows (s.handleOplog l.op.handler o).2 id logs
    (r.write (fun l : PersonLog => l.oplog.id) (fun l => l.oplog.updateTS.order) (fun l => l.op.status) Refuses l)
  rcases Register.write_cases (fun l : PersonLog => l.oplog.id) (fun l => l.oplog.updateTS.order) (fun l => l.op.status) Refuses r l with
    ⟨hid, heq⟩ | ⟨hid, haccept, heq⟩ | ⟨hid, haccept, heq⟩
  · -- it has been handled before
    rw [heq]
    obtain ⟨hobjs, hsynced, hlogs⟩ := handleOplog_synced (f := l.op.handler) (o := o) (h.seen _ hid) halive
    refine ⟨⟨person, by rw [hobjs, hget], htime, hvalue, hsync⟩, h.notMigrated, fun i hi => ?_, fun v hv hvid => ?_⟩
    · by_cases hio : i = o.id
      · rw [hio]
        exact hsynced
      · obtain ⟨o', hget', hrest⟩ := h.seen i hi
        exact ⟨o', by rw [hlogs i hio, hget'], hrest⟩
    · have hvl : v.oplog.id ≠ o.id := fun heq => hvid (by rw [heq]; exact hid)
      rw [hlogs _ hvl]
      exact h.unseen v hv hvid
  all_goals
    rw [heq]
    have hunseen : s.logs.get o.id = none := h.unseen l hl hid
    have hother : ∀ v ∈ logs, v.oplog.id ∉ l.oplog.id :: r.seen →
        (s.logs.put o.id { o.notNewer with isSync := true }).get v.oplog.id = none := by
      intro v hv hvid
      rw [List.mem_cons, not_or] at hvid
      rw [get_put, if_neg hvid.1]
      exact h.unseen v hv hvid.2
    have hne' : person.updateTS ≠ o.updateTS := fun heq => hne (htime.symm.trans (congrArg Timestamp.order heq))
    have hcases := handler_cases (o := o) l.op hobj hget hsync (hvalue ▸ h.notMigrated) halive hne'
    rw [htime, hvalue] at hcases
  · obtain ⟨-, person', hf, hrest⟩ := hcases.resolve_right fun hrefused => hrefused.1 haccept
    rw [handleOplog_new hunseen rfl hf (Or.inl ⟨rfl, rfl⟩) halive]
    refine ⟨⟨person', ?_, congrArg Timestamp.order hrest.1, hrest.2⟩, status_lt_migrated l.op, fun i hi => ?_, hother⟩
    · exact (get_put _ _ _ _).trans (if_pos rfl)
    · exact seen_put (o := o) halive h.seen hi
  · obtain ⟨-, hf⟩ := hcases.resolve_left fun happlied => haccept happlied.1
    rw [handleOplog_new hunseen rfl hf (Or.inr rfl) halive]
    exact ⟨⟨person, hget, htime, hvalue, hsync⟩, h.notMigrated, fun i hi => seen_put (o := o) halive h.seen hi, hother⟩

theorem Shows.processAll {order : List PersonLog} (h : Shows s id logs r) (hmem : ∀ l ∈ order, l ∈ logs)
    (hlogs : ∀ l ∈ order, l.oplog.objID = some id ∧ l.oplog.toStatus = .alive)
    (hnodup : (order.map fun l => l.oplog.updateTS.order).Nodup) (hne : ∀ l ∈ order, r.time ≠ l.oplog.updateTS.order) :
    Shows (order.foldl PersonLog.process s) id logs (writeAll r order) := by
  induction order generalizing s r with
  | nil => exact h
  | cons l order ih =>
    obtain ⟨hl, hnodup⟩ := List.nodup_cons.1 hnodup
    have hin : ∀ v ∈ order, v ∈ l :: order := fun v => List.mem_cons_of_mem l
    have hstep := h.process (hmem l (.head _)) (hlogs l (.head _)).1 (hlogs l (.head _)).2
      (hne l (.head _))
    refine ih hstep (fun v hv => hmem v (hin v hv)) (fun v hv => hlogs v (hin v hv)) hnodup fun v hv => ?_
    have hne' : ∀ w ∈ [l], w.oplog.updateTS.order ≠ v.oplog.updateTS.order := by
      intro w hw heq
      obtain rfl := List.mem_singleton.1 hw
      exact hl (List.mem_map.2 ⟨v, hv, heq.symm⟩)
    exact (Register.time_writeAll_ne (hne v (hin v hv)) hne' : (writeAll r [l]).time ≠ _)

end PersonConvergenceAux

open PersonConvergenceAux

/-- The last of a set of later valid logs on a created person decides its status and update time, in whatever order they are handled,
exactly when no other log of the set has the same identifier and, if it is a deletion, no other one is. -/
theorem personConverges_iff {s : Books δ} {id : PttID} {person : Object δ} {logs : List PersonLog} {last : PersonLog}
    (hperson : Created s id person) (hlogs : ∀ l ∈ logs, Later s id person l)
    (htimes : (logs.map fun l => l.oplog.updateTS).Nodup) (hlast : last ∈ logs)
    (hmax : ∀ l ∈ logs, last.oplog.updateTS.isLess l.oplog.updateTS = false) :
    (∀ order : List PersonLog, order.Perm logs → last.Decides (order.foldl PersonLog.process s) id) ↔
      ∀ l ∈ logs, l ≠ last → l.oplog.id ≠ last.oplog.id ∧ ¬ (l.op = .delete ∧ last.op = .delete) := by
  let r : Register PttID (Int ×ₗ Nat) Status := ⟨person.updateTS.order, person.status, []⟩
  have hshows : Shows s id logs r :=
    ⟨⟨person, hperson.stored, rfl, rfl, hperson.noSyncInfo⟩, hperson.notMigrated, fun _ hi => absurd hi List.not_mem_nil,
      fun l hl _ => (hlogs l hl).unseen⟩
  have hafter : ∀ l ∈ logs, r.time < l.oplog.updateTS.order := fun l hl => (Timestamp.isLess_iff _ _).1 (hlogs l hl).later
  have hnodup : (logs.map fun l => l.oplog.updateTS.order).Nodup := by
    have := htimes.map fun _ _ => Timestamp.order_injective
    rwa [List.map_map] at this
  -- what the stores hold after an order is what the register holds
  have hdecides : ∀ order : List PersonLog, order.Perm logs → (last.Decides (order.foldl PersonLog.process s) id ↔
      (writeAll r order).time = last.oplog.updateTS.order ∧ (writeAll r order).value = last.op.status) := by
    intro order hperm
    have hmem : ∀ l ∈ order, l ∈ logs := fun l hl => hperm.mem_iff.1 hl
    have hvalid : ∀ l ∈ order, l.oplog.objID = some id ∧ l.oplog.toStatus = .alive := fun l hl =>
      ⟨(hlogs l (hmem l hl)).about, (hlogs l (hmem l hl)).alive⟩
    obtain ⟨person', hget, htime, hvalue, -⟩ := (hshows.processAll hmem hvalid ((hperm.map _).nodup_iff.2 hnodup)
      fun l hl => (hafter l (hmem l hl)).ne).person
    rw [← htime, ← hvalue]
    constructor
    · rintro ⟨person'', hget', hstatus, hts⟩
      obtain rfl := Option.some.inj (hget.symm.trans hget')
      exact ⟨congrArg Timestamp.order hts, hstatus⟩
    · rintro ⟨hts, hstatus⟩
      exact ⟨person', hget, hstatus, Timestamp.order_injective hts⟩
  have hrefuses : ∀ l : PersonLog, Refuses l.op.status last.op.status ↔ l.op = .delete ∧ last.op = .delete := by
    intro l
    have hdel : ∀ op : PersonOp, op.status = .deleted ↔ op = .delete := by
      intro op
      cases op <;> decide
    exact and_congr (hdel _) (hdel _)
  have hiff := Register.lastWriter_iff (fun l : PersonLog => l.oplog.id) (fun l => l.oplog.updateTS.order) (fun l => l.op.status)
    Refuses (r := r) hlast hnodup (fun l hl => (Timestamp.isLess_eq_false_iff _ _).1 (hmax l hl)) hafter (fun _ _ => List.not_mem_nil)
    fun l _ href => hperson.notDeleted href.1
  simp only [hrefuses] at hiff
  rw [← hiff]
  exact forall_congr' fun order => forall_congr' fun hperm => hdecides order hperm

namespace PersonConvergenceWitness

def idOf (b : UInt8) : PttID := ByteArrayOf.replicate 40 b

def log (id : UInt8) (sec : Int64) : BaseOplog :=
  { BaseOplog.new (idOf 7) (some (idOf 7)) ⟨sec, 0⟩ (idOf 1) 0 none with id := idOf id, masterLogID := some (idOf 8), isSync := false }

def created : Books Unit :=
  ((⟨KeyStore.empty, KeyStore.empty⟩ : Books Unit).handleOplog (handleCreatePersonLog ()) (log 1 1)).2

def firstDeleted : PersonLog := ⟨.delete, log 2 10⟩

def added : PersonLog := ⟨.add, log 3 20⟩

def lastDeleted : PersonLog := ⟨.delete, log 4 30⟩

end PersonConvergenceWitness

open PersonConvergenceWitness in
/-- An addition and a later deletion: the deletion decides, also when it comes first. -/
theorem personConverges_iff_two : lastDeleted.Decides ([lastDeleted, added].foldl PersonLog.process created) (idOf 7) := by
  obtain ⟨person, hcreated, hts⟩ := Created.of_handleCreatePersonLog (s := ⟨KeyStore.empty, KeyStore.empty⟩) (o := log 1 1) ()
    (KeyStore.get_empty (idOf 7)) rfl rfl rfl (KeyStore.get_empty (idOf 1))
  have hlater : ∀ l ∈ [added, lastDeleted], Later created (idOf 7) person l := by
    intro l hl
    have h : l.oplog.objID = some (idOf 7) ∧ l.oplog.toStatus = .alive ∧ created.logs.get l.oplog.id = none ∧
        (⟨1, 0⟩ : Timestamp).isLess l.oplog.updateTS = true := by
      revert l
      decide +kernel
    exact ⟨h.1, h.2.1, h.2.2.1, hts ▸ h.2.2.2⟩
  exact (personConverges_iff hcreated hlater (by decide +kernel) (by decide +kernel) (by decide +kernel)).2 (by decide +kernel) _
    (List.Perm.swap _ _ _)

open PersonConvergenceWitness in
/-- Two deletions with an addition between them. In the order of their times the last deletion decides; if the last deletion comes
before the addition, the person is left alive. -/
theorem addition_wins_over_later_deletion :
    lastDeleted.Decides ([firstDeleted, added, lastDeleted].foldl PersonLog.process created) (idOf 7) ∧
      added.Decides ([firstDeleted, lastDeleted, added].foldl PersonLog.process created) (idOf 7) := by
  decide +kernel

end PttaiCore
