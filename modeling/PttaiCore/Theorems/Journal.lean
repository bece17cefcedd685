import PttaiCore.Lib.Handover
import PttaiCore.Theorems.Convergence

/-! # No dirty hour is forgotten, as long as no round replaces the list of one that gave up -/

namespace PttaiCore

open MerkleState

inductive SaveOutcome (Γ : Ctx) (m : Merkle) (s : MerkleState) (ts : Timestamp) : Except Err Unit → MerkleState → Prop where
  | run : SaveOutcome Γ m s ts (saveMerkleTree Γ m s ts).1 (saveMerkleTree Γ m s ts).2
  | fault (e : Err) (s' : MerkleState) (h : SameJournal s s') : SaveOutcome Γ m s ts (.error e) s'

theorem SaveOutcome.sameJournal {Γ : Ctx} {m : Merkle} {s s' : MerkleState} {ts : Timestamp} {r : Except Err Unit}
    (h : SaveOutcome Γ m s ts r s') : SameJournal s s' := by
  cases h with
  | run => exact saveMerkleTree_sameJournal Γ m s ts
  | fault e s' h => exact h

structure JournalState where
  merkle : MerkleState
  round : Option (List Int64)
  dirty : Finset Int64

inductive JournalLabel where
  | setUpdateTS (ts : Timestamp)
  | setUpdateTS2 (ts ts2 : Timestamp)
  /-- A round that does not start. -/
  | skip (status : Status) (now : Timestamp)
  | start (now : Timestamp) (toUpdateTSList : List Int64)
  | saved (sec : Int64)
  | failed (sec : Int64) (e : Err)
  | finish
  deriving DecidableEq

def JournalLabel.marks : JournalLabel → List Int64
  | .setUpdateTS ts => [ts.toHRTimestamp.1.ts]
  | .setUpdateTS2 ts ts2 => [ts.toHRTimestamp.1.ts, ts2.toHRTimestamp.1.ts]
  | _ => []

def JournalStep (Γ : Ctx) (m : Merkle) (t : JournalState) : JournalLabel → JournalState → Prop
  | .setUpdateTS ts, t' => t' = { t with
      merkle := t.merkle.setUpdateTS m ts, dirty := t.dirty ∪ (JournalLabel.setUpdateTS ts).marks.toFinset }
  | .setUpdateTS2 ts ts2, t' => t' = { t with
      merkle := t.merkle.setUpdateTS2 m ts ts2, dirty := t.dirty ∪ (JournalLabel.setUpdateTS2 ts ts2).marks.toFinset }
  | .skip status now, t' => (status ≠ .alive ∨ (isBusy m t.merkle now).1 = true) ∧ t' = t
  | .start now l, t' =>
    t.round = none ∧ IsOrderOf l t.merkle.toUpdateTS ∧ ∃ s, isBusy m t.merkle now = (false, s) ∧
      t' = { t with merkle := { s with busyGenerateTS := now }.getAndResetToUpdateTSList m l, round := some l }
  | .saved sec, t' => ∃ l s, t.round = some (sec :: l) ∧ SaveOutcome Γ m t.merkle ⟨sec, 0⟩ (.ok ()) s ∧
      t' = ⟨s, some l, t.dirty.erase sec⟩
  | .failed sec e, t' => ∃ l s, t.round = some (sec :: l) ∧ SaveOutcome Γ m t.merkle ⟨sec, 0⟩ (.error e) s ∧
      t' = { t with merkle := { s with busyGenerateTS := .zero }, round := none }
  | .finish, t' => t.round = some [] ∧
      t' = { t with merkle := { t.merkle.resetUpdatingTSList m with busyGenerateTS := .zero }, round := none }

def JournalLabel.Safe (m : Merkle) (t : JournalState) : JournalLabel → Prop
  | .start _ _ => ∀ sec ∈ t.merkle.updatingTSList m, sec ∈ t.dirty → sec ∈ t.merkle.toUpdateTS
  | _ => True

namespace JournalAux

variable {Γ : Ctx} {m : Merkle}

def toHandover (m : Merkle) (t : JournalState) : Handover.State Int64 where
  dirty := {sec | sec ∈ t.dirty}
  queued := {sec | sec ∈ t.merkle.toUpdateTS}
  listed := {sec | sec ∈ t.merkle.updatingTSList m}
  todo := t.round

def toEvent : JournalLabel → Handover.Event Int64
  | .setUpdateTS ts => .mark (JournalLabel.setUpdateTS ts).marks
  | .setUpdateTS2 ts ts2 => .mark (JournalLabel.setUpdateTS2 ts ts2).marks
  | .skip _ _ => .idle
  | .start _ l => .take l
  | .saved sec => .done sec
  | .failed _ _ => .abort
  | .finish => .finish

theorem mark_step {t : JournalState} {s' : MerkleState} {hours : List Int64}
    (htoUpdate : s'.toUpdateTS = t.merkle.toUpdateTS ∪ hours.toFinset)
    (hsame : SameOff [.merkleToUpdate] t.merkle.db.db s'.db.db) :
    Handover.Step (toHandover m t) (.mark hours) (toHandover m ⟨s', t.round, t.dirty ∪ hours.toFinset⟩) := by
  have hlist : s'.updatingTSList m = t.merkle.updatingTSList m :=
    updatingTSList_congr (hsame _ (not_inPart_of (inPart_updatingKey m) (by decide)))
  have heq : toHandover m ⟨s', t.round, t.dirty ∪ hours.toFinset⟩ =
      { toHandover m t with
        dirty := (toHandover m t).dirty ∪ {x | x ∈ hours}, queued := (toHandover m t).queued ∪ {x | x ∈ hours} } := by
    simp only [toHandover, htoUpdate, hlist, Finset.mem_union, List.mem_toFinset]
    rfl
  rw [heq]
  exact .mark _ hours

theorem isBusy_toUpdateTS (s : MerkleState) (now : Timestamp) : (isBusy m s now).2.toUpdateTS = s.toUpdateTS := by
  unfold isBusy
  split_ifs <;> rfl

theorem isBusy_db (s : MerkleState) (now : Timestamp) : (isBusy m s now).2.db = s.db := by
  unfold isBusy
  split_ifs <;> rfl

theorem updatingTSList_of_sameJournal {s s' : MerkleState} (h : SameJournal s s') :
    s'.updatingTSList m = s.updatingTSList m :=
  updatingTSList_congr (h.entries _ (not_inPart_of (inPart_updatingKey m) (by decide)))

theorem handover_step {t t' : JournalState} {l : JournalLabel} (h : JournalStep Γ m t l t') :
    Handover.Step (toHandover m t) (toEvent l) (toHandover m t') := by
  cases l with
  | setUpdateTS ts =>
    have ht : t' = _ := h
    rw [ht]
    refine mark_step ?_ (setUpdateTS_sameOff m t.merkle ts)
    rw [Finset.union_comm]
    rfl
  | setUpdateTS2 ts ts2 =>
    have ht : t' = _ := h
    rw [ht]
    refine mark_step ?_ (setUpdateTS2_sameOff m t.merkle ts ts2)
    have hset : (t.merkle.setUpdateTS2 m ts ts2).toUpdateTS =
        insert ts2.toHRTimestamp.1.ts (insert ts.toHRTimestamp.1.ts t.merkle.toUpdateTS) := by
      rw [setUpdateTS2_eq]
      rfl
    ext x
    simp only [hset, JournalLabel.marks, Finset.mem_insert, Finset.mem_union, List.mem_toFinset, List.mem_cons,
      List.not_mem_nil, or_false]
    tauto
  | skip status now =>
    obtain ⟨-, rfl⟩ := h
    exact .idle _
  | start now l =>
    obtain ⟨hround, ⟨-, hset⟩, s, hbusy, rfl⟩ := h
    have heq : toHandover m
        { t with merkle := { s with busyGenerateTS := now }.getAndResetToUpdateTSList m l, round := some l } =
        { toHandover m t with queued := ∅, listed := {x | x ∈ l}, todo := some l } := by
      simp only [toHandover, updatingTSList_getAndReset]
      simp [getAndResetToUpdateTSList]
    rw [heq]
    refine .take _ l hround fun x => ?_
    change _ ↔ x ∈ t.merkle.toUpdateTS
    rw [← hset, List.mem_toFinset]
  | saved sec =>
    obtain ⟨l, s, hround, hsave, rfl⟩ := h
    have heq : toHandover m ⟨s, some l, t.dirty.erase sec⟩ =
        { toHandover m t with dirty := (toHandover m t).dirty \ {sec}, todo := some l } := by
      simp only [toHandover, hsave.sameJournal.toUpdateTS, updatingTSList_of_sameJournal hsave.sameJournal]
      congr 1
      ext x
      simp [and_comm]
    rw [heq]
    exact .done _ sec l hround
  | failed sec e =>
    obtain ⟨l, s, hround, hsave, rfl⟩ := h
    have hsame : SameJournal t.merkle { s with busyGenerateTS := .zero } :=
      ⟨hsave.sameJournal.toUpdateTS, hsave.sameJournal.entries⟩
    have heq : toHandover m { t with merkle := { s with busyGenerateTS := .zero }, round := none } =
        { toHandover m t with todo := none } := by
      simp only [toHandover, updatingTSList_of_sameJournal hsame]
      rw [hsave.sameJournal.toUpdateTS]
    rw [heq]
    exact .abort _ sec l hround
  | finish =>
    obtain ⟨hround, rfl⟩ := h
    have heq : toHandover m
        { t with merkle := { t.merkle.resetUpdatingTSList m with busyGenerateTS := .zero }, round := none } =
        { toHandover m t with listed := ∅, todo := none } := by
      simp [toHandover, updatingTSList, loadUpdatingTSList, resetUpdatingTSList, LDBDatabase.get, LDBDatabase.delete]
    rw [heq]
    exact .finish _ hround

end JournalAux

/-- In a run whose rounds all start safely, every hour that was marked and not rebuilt since is in memory or in the list that the
database has. -/
theorem dirty_hours_kept (Γ : Ctx) (m : Merkle) {t t' : JournalState} {ls : List JournalLabel}
    (hround : t.round = none) (hdirty : t.dirty = ∅)
    (hrun : Run (fun t l t' => JournalStep Γ m t l t' ∧ l.Safe m t) t ls t') :
    ∀ sec ∈ t'.dirty, sec ∈ t'.merkle.toUpdateTS ∨ sec ∈ t'.merkle.updatingTSList m := by
  have hinv : Handover.Inv (JournalAux.toHandover m t) := by
    refine ⟨fun x hx => ?_, fun l hl => ?_⟩
    · have hx' : x ∈ t.dirty := hx
      rw [hdirty] at hx'
      exact absurd hx' (Finset.notMem_empty x)
    · have hl' : t.round = some l := hl
      rw [hround] at hl'
      exact nomatch hl'
  refine Handover.dirty_subset_of_run (hrun.simulate (JournalAux.toHandover m) JournalAux.toEvent ?_) hinv
  rintro t l t' ⟨hstep, hsafe⟩
  refine ⟨JournalAux.handover_step hstep, ?_⟩
  cases l with
  | start now l => exact hsafe
  | _ => trivial

namespace JournalAux

variable {Γ : Ctx} {m : Merkle}

theorem saveMerkleTrees_run (l : List Int64) (s : MerkleState) (dirty : Finset Int64) :
    ∃ ls dirty', Run (JournalStep Γ m) ⟨s, some l, dirty⟩ ls
      (match saveMerkleTrees Γ m l s with
        | (.ok _, s') => ⟨s', some [], dirty'⟩
        | (.error _, s') => ⟨{ s' with busyGenerateTS := .zero }, none, dirty'⟩) := by
  induction l generalizing s dirty with
  | nil => exact ⟨[], dirty, Run.nil _⟩
  | cons sec l ih =>
    have hsave : SaveOutcome Γ m s ⟨sec, 0⟩ _ _ := .run
    rw [saveMerkleTrees]
    generalize saveMerkleTree Γ m s ⟨sec, 0⟩ = r at hsave
    obtain ⟨e | _, s'⟩ := r
    · exact ⟨[.failed sec e], dirty, Run.single ⟨l, s', rfl, hsave, rfl⟩⟩
    · have hstep : JournalStep Γ m ⟨s, some (sec :: l), dirty⟩ (.saved sec) ⟨s', some l, dirty.erase sec⟩ :=
        ⟨l, s', rfl, hsave, rfl⟩
      obtain ⟨ls, dirty', hrun⟩ := ih s' (dirty.erase sec)
      exact ⟨_, dirty', (Run.single hstep).append hrun⟩

end JournalAux

namespace JournalWitness

open SigningWitness ConvergenceWitness

def merkle : Merkle := oplogDB.merkle

def now : Timestamp := ⟨9000, 0⟩

def fresh : JournalState := ⟨emptyState, none, ∅⟩

def marked : JournalState := ⟨emptyState.setUpdateTS merkle ⟨4000, 0⟩, none, {3600}⟩

def taken : JournalState :=
  ⟨{ marked.merkle with busyGenerateTS := now }.getAndResetToUpdateTSList merkle [3600], some [3600], {3600}⟩

def lockedState : MerkleState := { emptyState with db := (emptyState.db.tryLockMap merkle.dbPrefix).2 }

def oneRound : MerkleState := (pmGenerateOplogMerkleTree ctx merkle .alive now [3600] (lockedState.setUpdateTS merkle ⟨4000, 0⟩)).2

def twoRounds : MerkleState := (pmGenerateOplogMerkleTree ctx merkle .alive now [] oneRound).2

end JournalWitness

open JournalWitness SigningWitness in
/-- An hour is marked and taken by a round: it is in the list. -/
theorem dirty_hours_kept_one : Run (fun t l t' => JournalStep ctx merkle t l t' ∧ l.Safe merkle t) fresh
      [.setUpdateTS ⟨4000, 0⟩, .start now [3600]] taken ∧
    ((3600 : Int64) ∈ taken.merkle.toUpdateTS ∨ (3600 : Int64) ∈ taken.merkle.updatingTSList merkle) := by
  have hmark : JournalStep ctx merkle fresh (.setUpdateTS ⟨4000, 0⟩) marked := by
    change marked = _
    simp only [marked, fresh, JournalLabel.marks]
    congr 1
  have htake : JournalStep ctx merkle marked (.start now [3600]) taken := ⟨rfl, by decide, marked.merkle, by rfl, rfl⟩
  have hsafe : (JournalLabel.start now [3600]).Safe merkle marked := by
    have hempty : marked.merkle.updatingTSList merkle = [] := by decide +kernel
    intro sec hsec _
    rw [hempty] at hsec
    exact absurd hsec (by simp)
  have hrun : Run (fun t l t' => JournalStep ctx merkle t l t' ∧ l.Safe merkle t) fresh
      [.setUpdateTS ⟨4000, 0⟩, .start now [3600]] taken := ((Run.nil fresh).snoc ⟨hmark, trivial⟩).snoc ⟨htake, hsafe⟩
  exact ⟨hrun, dirty_hours_kept ctx merkle rfl rfl hrun 3600 (by decide)⟩

set_option maxRecDepth 4000 in
open JournalWitness SigningWitness in
/-- A round gives up because the tree is locked; the next round replaces its list, and the hour is nowhere. -/
theorem dirty_hour_lost : ∃ ls t, Run (JournalStep ctx merkle) ⟨lockedState, none, ∅⟩ ls t ∧ t.merkle = twoRounds ∧
    (3600 : Int64) ∈ t.dirty ∧ (3600 : Int64) ∉ t.merkle.toUpdateTS ∧ (3600 : Int64) ∉ t.merkle.updatingTSList merkle := by
  have hmark : JournalStep ctx merkle ⟨lockedState, none, ∅⟩ (.setUpdateTS ⟨4000, 0⟩)
      ⟨lockedState.setUpdateTS merkle ⟨4000, 0⟩, none, {3600}⟩ := by
    change _ = _
    simp only [JournalLabel.marks]
    congr 1
  have htake : JournalStep ctx merkle ⟨lockedState.setUpdateTS merkle ⟨4000, 0⟩, none, {3600}⟩ (.start now [3600])
      ⟨{ lockedState.setUpdateTS merkle ⟨4000, 0⟩ with busyGenerateTS := now }.getAndResetToUpdateTSList merkle [3600],
        some [3600], {3600}⟩ := ⟨rfl, by decide, _, by rfl, rfl⟩
  have hfail : JournalStep ctx merkle
      ⟨{ lockedState.setUpdateTS merkle ⟨4000, 0⟩ with busyGenerateTS := now }.getAndResetToUpdateTSList merkle [3600],
        some [3600], {3600}⟩ (.failed 3600 .busy) ⟨oneRound, none, {3600}⟩ := ⟨[], _, rfl, .run, by rfl⟩
  have hnext : JournalStep ctx merkle ⟨oneRound, none, {3600}⟩ (.start now [])
      ⟨{ oneRound with busyGenerateTS := now }.getAndResetToUpdateTSList merkle [], some [], {3600}⟩ :=
    ⟨rfl, by decide, _, by rfl, rfl⟩
  have hfinish : JournalStep ctx merkle ⟨{ oneRound with busyGenerateTS := now }.getAndResetToUpdateTSList merkle [], some [],
      {3600}⟩ .finish ⟨twoRounds, none, {3600}⟩ := ⟨rfl, by rfl⟩
  exact ⟨_, _, ((((Run.single hmark).snoc htake).snoc hfail).snoc hnext).snoc hfinish, rfl, by decide, by decide +kernel,
    by decide +kernel⟩

end PttaiCore
