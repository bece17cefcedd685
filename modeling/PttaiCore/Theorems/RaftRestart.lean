import PttaiCore.Theorems.RaftLog

/-! # Opening the raft storage again -/

namespace PttaiCore

open KeyStore List

namespace RaftStorage

inductive StorageCall where
  | newRaftStorage
  | setHardState (st : HardState)
  | append (ents : List RaftEntry)
  | applySnapshot (snap : RaftSnapshot)

def storageCall (rs : RaftStorage) : StorageCall → RaftStorage
  | .newRaftStorage => newRaftStorageWithClean rs.myID rs.db
  | .setHardState st => rs.setHardState st
  | .append ents => (rs.append ents).2
  | .applySnapshot snap => (rs.applySnapshot snap).2

def StorageStep (rs : RaftStorage) (c : StorageCall) (rs' : RaftStorage) : Prop := rs' = rs.storageCall c

structure SameAnswers (rs rs' : RaftStorage) : Prop where
  initialState : rs'.initialState = rs.initialState
  snapshot : rs'.snapshot = rs.snapshot
  first : rs'.firstIndex = rs.firstIndex
  last : rs'.lastIndex = rs.lastIndex
  term : ∀ i, rs'.term i = rs.term i
  entries : ∀ lo hi maxSize, rs'.entries lo hi maxSize = rs.entries lo hi maxSize

def RestartFaithful (rs : RaftStorage) : Prop := ∃ rs', newRaftStorage false rs.myID rs.db = .ok rs' ∧ SameAnswers rs rs'

structure RestartSafe (rs : RaftStorage) : Prop where
  noSnapshot : rs.snapshot.metadata.index = 0
  noneStored : rs.db.get (marshalKeyRaftSnapshot rs.myID) = none ∨ rs.db.get (marshalKeyRaftSnapshot rs.myID) = some (.snapshot .zero)
  last_ne : rs.lastIdx ≠ maxUint64
  noStale : ∀ i, rs.lastIdx < i → i ≠ maxUint64 → rs.db.get (raftMarshalKey rs.myID i) = none

namespace RestartAux

variable {rs rs' : RaftStorage}

/-! ## The invariant -/

inductive Begins (rs : RaftStorage) : Prop where
  | atZero : rs.snapshot = .zero → rs.firstIdx = 1 → rs.db.get (raftMarshalKey rs.myID 0) ≠ none →
      rs.db.get (raftMarshalKey rs.myID rs.lastIdx) ≠ none → Begins rs
  | afterSnapshot : rs.snapshot.metadata.index ≠ 0 → rs.firstIdx = rs.snapshot.metadata.index + 1 →
      (rs.snapshot.metadata.index = maxUint64 ∨ rs.db.get (raftMarshalKey rs.myID 0) ≠ none) → Begins rs

structure Inv (rs : RaftStorage) : Prop where
  only : OnlyEntries rs.myID rs.db
  hardState : rs.db.get (marshalKeyRaftHardState rs.myID) = some (.hardState rs.hardState)
  begins : Begins rs

theorem inv_new (myID : PttID) (db : KeyStore Bytes RaftValue) : Inv (newRaftStorageWithClean myID db) := by
  have hzero : (newRaftStorageWithClean myID db).db.get (raftMarshalKey myID 0) ≠ none := by
    rw [newRaftStorageWithClean, fresh_eq]
    rw [get_put, if_neg raftMarshalKey_ne_hardState, get_put, if_pos rfl]
    exact Option.some_ne_none _
  refine ⟨(RaftLogAux.holds_new myID db).only, ?_, .atZero rfl rfl hzero hzero⟩
  rw [newRaftStorageWithClean, fresh_eq]
  dsimp only
  rw [get_put, if_pos rfl]

theorem Inv.setHardState (h : Inv rs) (st : HardState) : Inv (rs.setHardState st) := by
  have hget : ∀ i, (rs.setHardState st).db.get (raftMarshalKey rs.myID i) = rs.db.get (raftMarshalKey rs.myID i) := by
    intro i
    rw [RaftStorage.setHardState]
    rw [get_put, if_neg raftMarshalKey_ne_hardState]
  refine ⟨h.only.putOther rfl (by decide) _, ?_, ?_⟩
  · rw [RaftStorage.setHardState]
    dsimp only
    rw [get_put, if_pos rfl]
  · cases h.begins with
    | atZero hsnap hfirst hzero hlast => exact .atZero hsnap hfirst (by rwa [← hget] at hzero) (by rwa [← hget] at hlast)
    | afterSnapshot hne hfirst hzero => exact .afterSnapshot hne hfirst (hzero.imp_right fun hz => by rwa [← hget] at hz)

theorem Inv.append (h : Inv rs) (ents : List RaftEntry) : Inv (rs.append ents).2 := by
  rcases append_cases rs ents with heq | ⟨kept, last, hlast, heq⟩ <;> rw [heq]
  · exact h
  obtain ⟨-, hfirst', hhard', hsnap', hmyID⟩ := saveEntries_fields kept rs
  have hdb := saveEntries_db kept rs
  have hkeep : ∀ {k : Bytes}, rs.db.get k ≠ none → (kept.foldl saveEntry rs).db.get k ≠ none := by
    intro k hk
    rw [hdb]
    exact get_putAll_ne_none hk _
  refine ⟨?_, ?_, ?_⟩
  · rw [hmyID, hdb]
    exact h.only.putEntries kept
  · rw [hmyID, hhard', hdb, get_putAll_of_not_mem]
    · exact h.hardState
    · intro hmem
      obtain ⟨_, hmem', hkey⟩ := mem_map.1 hmem
      obtain ⟨e, -, rfl⟩ := mem_map.1 hmem'
      exact raftMarshalKey_ne_hardState hkey
  · have hmem : (kept.foldl saveEntry rs).db.get (raftMarshalKey (kept.foldl saveEntry rs).myID last.index) ≠ none := by
      rw [hmyID, hdb]
      refine get_putAll_of_mem (mem_map.2 ⟨_, mem_map.2 ⟨last, mem_of_getLast? hlast, rfl⟩, rfl⟩)
    cases h.begins with
    | atZero hsnap hfirst hzero _ =>
      exact .atZero (hsnap'.trans hsnap) (hfirst'.trans hfirst) (by rw [hmyID]; exact hkeep hzero) hmem
    | afterSnapshot hne hfirst hzero =>
      refine .afterSnapshot (by rw [hsnap']; exact hne) (by rw [hsnap', hfirst', hfirst]) ?_
      rw [hsnap', hmyID]
      exact hzero.imp_right hkeep

theorem Inv.applySnapshot (h : Inv rs) (snap : RaftSnapshot) : Inv (rs.applySnapshot snap).2 := by
  by_cases hnew : rs.snapshot.metadata.index < snap.metadata.index
  · have hne : snap.metadata.index ≠ 0 := fun hz => by
      rw [hz, UInt64.lt_iff_toNat_lt] at hnew
      exact absurd hnew (Nat.not_lt_zero _)
    have hzero : snap.metadata.index = maxUint64 ∨ (rs.applySnapshot snap).2.db.get (raftMarshalKey rs.myID 0) ≠ none := by
      by_cases hmax : snap.metadata.index = maxUint64
      · exact .inl hmax
      refine .inr ?_
      rw [applySnapshot_of_lt hnew hmax]
      rw [get_put, if_neg raftMarshalKey_ne_snapshot]
      cases h.begins with
      | atZero _ _ hzero _ => exact hzero
      | afterSnapshot _ _ hzero =>
        refine hzero.resolve_left fun hfull => ?_
        rw [hfull, UInt64.lt_iff_toNat_lt] at hnew
        have := snap.metadata.index.toNat_lt
        rw [toNat_maxUint64] at hnew
        omega
    rw [RaftStorage.applySnapshot, if_neg (UInt64.not_le.2 hnew)] at hzero ⊢
    obtain ⟨-, hfirst', hhard', hsnap', hmyID⟩ := compact_fields ({ rs with
      db := rs.db.put (marshalKeyRaftSnapshot rs.myID) (.snapshot snap), snapshot := snap
      firstIdx := snap.metadata.index + 1, lastIdx := snap.metadata.index } : RaftStorage) snap.metadata.index
    refine ⟨?_, ?_, .afterSnapshot ?_ ?_ ?_⟩
    · rw [hmyID]
      exact (h.only.putOther rfl (by decide) _).compact snap.metadata.index
    · rw [hmyID, hhard']
      refine (get_compact_other _ _ rfl (by decide)).trans ?_
      rw [get_put]
      exact (if_neg hardStateKey_ne_snapshotKey).trans h.hardState
    · rw [hsnap']
      exact hne
    · rw [hsnap', hfirst']
    · rw [hsnap', hmyID]
      exact hzero
  · rw [RaftStorage.applySnapshot, if_pos (UInt64.not_lt.1 hnew)]
    exact h

theorem inv_of_run {rs₀ : RaftStorage} {calls : List StorageCall} (h₀ : Inv rs₀) (hrun : Run StorageStep rs₀ calls rs) : Inv rs := by
  refine hrun.invariant (I := Inv) h₀ ?_
  rintro t c u h rfl
  cases c with
  | newRaftStorage => exact inv_new t.myID t.db
  | setHardState st => exact h.setHardState st
  | append ents => exact h.append ents
  | applySnapshot snap => exact h.applySnapshot snap

/-! ## Opening again -/

section reopen

variable {myID : PttID} {db : KeyStore Bytes RaftValue}

theorem raftIter_head (h : OnlyEntries myID db) {first : Bytes × RaftValue} {rest : List (Bytes × RaftValue)}
    (hiter : raftIter myID db 0 = first :: rest) : ∃ i : UInt64, first.1 = raftMarshalKey myID i ∧ i ≠ maxUint64 ∧
      (db.get (raftMarshalKey myID 0) ≠ none → i = 0) := by
  have hmem : first ∈ raftIter myID db 0 := hiter ▸ mem_cons_self
  obtain ⟨hget, hlo, hhi⟩ := mem_range.1 hmem
  obtain ⟨e, hkey, -⟩ := h first.1 first.2 hget hlo hhi
  refine ⟨e.index, hkey, fun hmax => ?_, fun hzero => ?_⟩
  · rw [hkey, hmax] at hhi
    exact absurd hhi (lt_irrefl _)
  · obtain ⟨v, hv⟩ := Option.ne_none_iff_exists'.1 hzero
    rw [raftIter_cons h (show (0 : UInt64).toNat < 2 ^ 64 - 1 by decide) hv] at hiter
    rw [← (List.cons.inj hiter).1] at hkey
    exact (raftMarshalKey_inj.1 hkey).symm

theorem raftPrevIter_head (h : OnlyEntries myID db) {last : Bytes × RaftValue} {rest : List (Bytes × RaftValue)}
    (hiter : raftPrevIter myID db maxUint64 = last :: rest) : ∃ i : UInt64, last.1 = raftMarshalKey myID i ∧ i ≠ maxUint64 ∧
      db.get (raftMarshalKey myID i) ≠ none ∧ ∀ j, j ≠ maxUint64 → db.get (raftMarshalKey myID j) ≠ none → j.toNat ≤ i.toNat := by
  have hrange : db.range (raftMarshalKey myID 0) (raftMarshalKey myID maxUint64) = rest.reverse ++ [last] := by
    rw [← reverse_reverse (db.range _ _), ← reverse_cons]
    exact congrArg List.reverse hiter
  have hsorted := range_sorted db (raftMarshalKey myID 0) (raftMarshalKey myID maxUint64)
  have hmem : last ∈ db.range (raftMarshalKey myID 0) (raftMarshalKey myID maxUint64) := by
    rw [hrange]
    exact mem_append_right _ mem_cons_self
  obtain ⟨hget, hlo, hhi⟩ := mem_range.1 hmem
  obtain ⟨e, hkey, -⟩ := h last.1 last.2 hget hlo hhi
  refine ⟨e.index, hkey, fun hmax => ?_, ?_, fun j hj hget' => ?_⟩
  · rw [hkey, hmax] at hhi
    exact absurd hhi (lt_irrefl _)
  · rw [← hkey, hget]
    exact Option.some_ne_none _
  · obtain ⟨v, hv⟩ := Option.ne_none_iff_exists'.1 hget'
    have hne : j.toNat ≠ 2 ^ 64 - 1 := fun heq => hj (UInt64.toNat_inj.1 heq)
    have hbound := j.toNat_lt
    have hj' : (raftMarshalKey myID j, v) ∈ db.range (raftMarshalKey myID 0) (raftMarshalKey myID maxUint64) :=
      mem_range.2 ⟨hv, raftMarshalKey_le_iff.2 (Nat.zero_le _), raftMarshalKey_lt_iff.2 (by rw [toNat_maxUint64]; omega)⟩
    rw [hrange] at hj' hsorted
    rcases mem_append.1 hj' with hj' | hj'
    · have hlt := (pairwise_append.1 hsorted).2.2 _ hj' last mem_cons_self
      rw [hkey] at hlt
      exact (raftMarshalKey_lt_iff.1 hlt).le
    · rw [← mem_singleton.1 hj'] at hkey
      rw [raftMarshalKey_inj.1 hkey]

theorem firstIdx_reopen (h : OnlyEntries myID db) (hopen : newRaftStorage false myID db = .ok rs') :
    rs'.firstIdx = 1 ∨ ∃ i, rs'.firstIdx = i + 1 ∧ i ≠ maxUint64 ∧ (db.get (raftMarshalKey myID 0) ≠ none → i = 0) := by
  rw [newRaftStorage, if_neg Bool.false_ne_true] at hopen
  cases hiter : raftIter myID db 0 with
  | nil =>
    rw [hiter] at hopen
    cases hopen
    exact .inl rfl
  | cons first rest =>
    obtain ⟨i, hkey, hmax, hzero⟩ := raftIter_head h hiter
    rw [hiter] at hopen
    simp only [hkey, getIdxByKey_raftMarshalKey, bind, Except.bind] at hopen
    refine .inr ⟨i, ?_, hmax, hzero⟩
    split at hopen
    · cases hopen
    · split at hopen
      · cases hopen
      · split at hopen
        · cases hopen
        · split at hopen
          · cases hopen
          · cases hopen
            rfl

theorem reopen_eq (h : OnlyEntries myID db) (hzero : db.get (raftMarshalKey myID 0) ≠ none) {hard : HardState}
    (hhard : db.get (marshalKeyRaftHardState myID) = some (.hardState hard)) : ∃ last : UInt64, last ≠ maxUint64 ∧
      db.get (raftMarshalKey myID last) ≠ none ∧ (∀ j, j ≠ maxUint64 → db.get (raftMarshalKey myID j) ≠ none → j.toNat ≤ last.toNat) ∧
      newRaftStorage false myID db = (orZero .zero (loadSnapshot myID db)).map fun snapshot => ⟨db, last, 1, hard, snapshot, myID⟩ := by
  obtain ⟨v, hv⟩ := Option.ne_none_iff_exists'.1 hzero
  have hiter := raftIter_cons h (show (0 : UInt64).toNat < 2 ^ 64 - 1 by decide) hv
  have hne : raftPrevIter myID db maxUint64 ≠ [] := by
    intro hnil
    have hrange := reverse_eq_nil_iff.1 hnil
    rw [raftIter] at hiter
    rw [hrange] at hiter
    cases hiter
  obtain ⟨last, rest, hprev⟩ := exists_cons_of_ne_nil hne
  obtain ⟨i, hkey, hmax, hget, hgreatest⟩ := raftPrevIter_head h hprev
  refine ⟨i, hmax, hget, hgreatest, ?_⟩
  rw [newRaftStorage, if_neg Bool.false_ne_true, hiter]
  simp only [hprev, hkey, getIdxByKey_raftMarshalKey, loadHardState, hhard, orZero, bind, Except.bind]
  cases orZero .zero (loadSnapshot myID db) <;> rfl

theorem loadSnapshot_zero_iff : orZero .zero (loadSnapshot myID db) = .ok .zero ↔
    db.get (marshalKeyRaftSnapshot myID) = none ∨ db.get (marshalKeyRaftSnapshot myID) = some (.snapshot .zero) := by
  rw [loadSnapshot]
  cases hget : db.get (marshalKeyRaftSnapshot myID) with
  | none => exact iff_of_true rfl (.inl rfl)
  | some v =>
    cases v with
    | snapshot s => simp [orZero]
    | entry e => simp [orZero]
    | hardState st => simp [orZero]

end reopen

/-! ## Faithful restarts -/

theorem faithful_iff_of_atZero (h : Inv rs) (hsnap : rs.snapshot = .zero) (hfirst : rs.firstIdx = 1)
    (hzero : rs.db.get (raftMarshalKey rs.myID 0) ≠ none) (hlast : rs.db.get (raftMarshalKey rs.myID rs.lastIdx) ≠ none) :
    RestartFaithful rs ↔ RestartSafe rs := by
  obtain ⟨last, hmax, hget, hgreatest, hopen⟩ := reopen_eq h.only hzero h.hardState
  rw [RestartFaithful, hopen]
  constructor
  · rintro ⟨rs', hrs', hsame⟩
    cases hload : orZero .zero (loadSnapshot rs.myID rs.db) with
    | error e =>
      rw [hload] at hrs'
      cases hrs'
    | ok snapshot =>
      rw [hload] at hrs'
      cases hrs'
      obtain rfl : snapshot = .zero := hsame.snapshot.trans hsnap
      have hlastIdx : last = rs.lastIdx := hsame.last
      refine ⟨by rw [hsnap]; rfl, loadSnapshot_zero_iff.1 hload, hlastIdx ▸ hmax, fun i hlt hi => ?_⟩
      by_contra hne
      have hle := hgreatest i hi hne
      rw [hlastIdx] at hle
      exact absurd (UInt64.lt_iff_toNat_lt.1 hlt) (not_lt.2 hle)
  · rintro ⟨-, hstored, hne, hstale⟩
    have hlastIdx : last = rs.lastIdx := by
      rcases (hgreatest rs.lastIdx hne hlast).lt_or_eq with hlt | heq
      · exact absurd (hstale last (UInt64.lt_iff_toNat_lt.2 hlt) hmax) hget
      · exact UInt64.toNat_inj.1 heq.symm
    rw [loadSnapshot_zero_iff.2 hstored]
    refine ⟨_, rfl, ⟨?_, hsnap.symm, hfirst.symm, hlastIdx, fun i => rfl, fun lo hi maxSize => rfl⟩⟩
    rw [initialState, initialState, hsnap]

theorem not_faithful_of_afterSnapshot (h : Inv rs) (hne : rs.snapshot.metadata.index ≠ 0)
    (hfirst : rs.firstIdx = rs.snapshot.metadata.index + 1)
    (hzero : rs.snapshot.metadata.index = maxUint64 ∨ rs.db.get (raftMarshalKey rs.myID 0) ≠ none) : ¬ RestartFaithful rs := by
  rintro ⟨rs', hopen, hsame⟩
  have hsameFirst : rs'.firstIdx = rs.snapshot.metadata.index + 1 := hsame.first.trans hfirst
  rcases firstIdx_reopen h.only hopen with hone | ⟨i, hi, hmax, hfirstKey⟩
  · rw [hone] at hsameFirst
    exact hne ((UInt64.add_left_inj 1).1 hsameFirst).symm
  · rw [hi] at hsameFirst
    have hindex : i = rs.snapshot.metadata.index := (UInt64.add_left_inj 1).1 hsameFirst
    rcases hzero with hfull | hzero
    · exact hmax (hindex.trans hfull)
    · exact hne (hindex.symm.trans (hfirstKey hzero))

end RestartAux

open RestartAux in
/-- In every state that calls lead to from a new storage, opening the database again gives the same answers if and only if no snapshot
was taken over or is left from before and no entry is left beyond the last index. -/
theorem restartFaithful_iff {myID : PttID} {db : KeyStore Bytes RaftValue} {rs₀ rs : RaftStorage} {calls : List StorageCall}
    (hnew : newRaftStorage true myID db = .ok rs₀) (hrun : Run StorageStep rs₀ calls rs) : RestartFaithful rs ↔ RestartSafe rs := by
  cases hnew
  have h := inv_of_run (inv_new myID db) hrun
  cases h.begins with
  | atZero hsnap hfirst hzero hlast => exact faithful_iff_of_atZero h hsnap hfirst hzero hlast
  | afterSnapshot hne hfirst hzero =>
    exact iff_of_false (not_faithful_of_afterSnapshot h hne hfirst hzero) fun hsafe => hne hsafe.noSnapshot

end RaftStorage

namespace RaftRestartWitness

open RaftLogWitness

def two : RaftStorage := created.storageCall (.append [entry 1 1, entry 2 1])

def one : RaftStorage := two.storageCall (.append [entry 1 2])

end RaftRestartWitness

open RaftRestartWitness RaftLogWitness RaftStorage in
/-- Two entries in a new storage. -/
theorem restartFaithful_iff_two : Run StorageStep created [.append [entry 1 1, entry 2 1]] two ∧ RestartFaithful two := by
  have hrun : Run StorageStep created [.append [entry 1 1, entry 2 1]] two := Run.single rfl
  have hnew : newRaftStorage true myID KeyStore.empty = .ok created := rfl
  refine ⟨hrun, (restartFaithful_iff hnew hrun).2 ⟨by decide +kernel, Or.inl (by decide +kernel), by decide +kernel, fun i hlt _ => ?_⟩⟩
  have hkeys : two.db.entries.map Prod.fst =
      [raftMarshalKey two.myID 0, raftMarshalKey two.myID 1, raftMarshalKey two.myID 2, marshalKeyRaftHardState two.myID] := by decide +kernel
  rw [KeyStore.get_eq_none_iff]
  intro v hv
  have hmem := List.mem_map_of_mem (f := Prod.fst) hv
  rw [hkeys] at hmem
  simp only [List.mem_cons, raftMarshalKey_inj, raftMarshalKey_ne_hardState, List.not_mem_nil, or_false] at hmem
  rcases hmem with rfl | rfl | rfl <;> exact absurd hlt (by decide +kernel)

open RaftRestartWitness RaftLogWitness RaftStorage in
/-- After two entries were replaced by one, the second is back when the database is opened again. -/
theorem discarded_entry_returns : Run StorageStep created [.append [entry 1 1, entry 2 1], .append [entry 1 2]] one ∧
    one.lastIndex = 1 ∧ (newRaftStorage false one.myID one.db).map RaftStorage.lastIndex = .ok 2 ∧ ¬ RestartFaithful one := by
  have hrun₁ : Run StorageStep created [.append [entry 1 1, entry 2 1]] two := Run.single rfl
  have hlast : one.lastIndex = 1 := by decide +kernel
  have hopen : (newRaftStorage false one.myID one.db).map RaftStorage.lastIndex = .ok 2 := by decide +kernel
  refine ⟨hrun₁.snoc rfl, hlast, hopen, ?_⟩
  rintro ⟨rs', hrs', hsame⟩
  rw [hrs', Except.map, hsame.last, hlast] at hopen
  exact absurd hopen (by decide)

end PttaiCore
