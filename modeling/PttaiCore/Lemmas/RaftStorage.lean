import PttaiCore.RaftStorage

/-! # What is in the database of raft -/

namespace PttaiCore

open Bytes KeyStore List

namespace RaftStorage

/-! ## Keys -/

theorem raftMarshalKey_lt_iff {myID : PttID} {i j : UInt64} : raftMarshalKey myID i < raftMarshalKey myID j ↔ i.toNat < j.toNat := by
  rw [raftMarshalKey, raftMarshalKey, append_lt_append_left, append_lt_append_left, be_lt_be]
  · exact i.toNat_lt
  · exact j.toNat_lt

theorem raftMarshalKey_le_iff {myID : PttID} {i j : UInt64} : raftMarshalKey myID i ≤ raftMarshalKey myID j ↔ i.toNat ≤ j.toNat := by
  rw [← not_lt, raftMarshalKey_lt_iff, not_lt]

theorem raftMarshalKey_inj {myID : PttID} {i j : UInt64} : raftMarshalKey myID i = raftMarshalKey myID j ↔ i = j := by
  refine ⟨fun h => ?_, fun h => h ▸ rfl⟩
  have hle := raftMarshalKey_le_iff.1 h.le
  have hge := raftMarshalKey_le_iff.1 h.ge
  exact UInt64.toNat_inj.1 (by omega)

theorem getIdxByKey_raftMarshalKey (myID : PttID) (idx : UInt64) : getIdxByKey (raftMarshalKey myID idx) = .ok idx := by
  have hdrop : (raftMarshalKey myID idx).drop 45 = Bytes.be 8 idx.toNat := by
    rw [raftMarshalKey, ← append_assoc]
    refine drop_left' ?_
    rw [length_append, myID.2]
    rfl
  have hlt : idx.toNat < 256 ^ 8 := idx.toNat_lt
  rw [getIdxByKey, hdrop, be_length, if_neg (by omega), take_of_length_le (by rw [be_length]),
    ofBE_be, Nat.mod_eq_of_lt hlt, UInt64.ofNat_toNat]

theorem kind_append_ne {a b x y : Bytes} (hlen : a.length = b.length) (hne : a ≠ b) : a ++ x ≠ b ++ y := fun h =>
  hne (append_inj h hlen).1

theorem raftMarshalKey_ne_hardState {myID : PttID} {idx : UInt64} : raftMarshalKey myID idx ≠ marshalKeyRaftHardState myID :=
  kind_append_ne rfl (by decide)

theorem raftMarshalKey_ne_snapshot {myID : PttID} {idx : UInt64} : raftMarshalKey myID idx ≠ marshalKeyRaftSnapshot myID :=
  kind_append_ne rfl (by decide)

theorem hardStateKey_ne_snapshotKey {myID : PttID} : marshalKeyRaftHardState myID ≠ marshalKeyRaftSnapshot myID :=
  kind_append_ne rfl (by decide)

theorem toNat_maxUint64 : maxUint64.toNat = 2 ^ 64 - 1 := rfl

theorem kind_of_between {myID : PttID} {k : Bytes} (hlo : raftMarshalKey myID 0 ≤ k) (hhi : k < raftMarshalKey myID maxUint64) :
    ∃ r, k = ascii ['.', 'r', 'f', 'd', 'b'] ++ r := by
  obtain ⟨r, hr⟩ := prefix_of_between hlo hhi
  exact ⟨r, hr.symm⟩

/-! ## Entries -/

section entries

variable {myID : PttID} {db : KeyStore Bytes RaftValue}

def OnlyEntries (myID : PttID) (db : KeyStore Bytes RaftValue) : Prop :=
  ∀ k v, db.get k = some v → raftMarshalKey myID 0 ≤ k → k < raftMarshalKey myID maxUint64 →
    ∃ e : RaftEntry, k = raftMarshalKey myID e.index ∧ v = .entry e

theorem raftIter_cons (h : OnlyEntries myID db) {i : UInt64} {v : RaftValue} (hi : i.toNat < 2 ^ 64 - 1)
    (hget : db.get (raftMarshalKey myID i) = some v) : raftIter myID db i = (raftMarshalKey myID i, v) :: raftIter myID db (i + 1) := by
  have hsucc : (i + 1).toNat = i.toNat + 1 := by
    rw [UInt64.toNat_add, Nat.mod_eq_of_lt] <;> rw [UInt64.toNat_one]
    omega
  refine range_cons hget (raftMarshalKey_lt_iff.2 (by omega)) (raftMarshalKey_le_iff.2 (by rw [toNat_maxUint64]; omega)) ?_
  intro k hlo hhi
  by_contra hne
  obtain ⟨v', hv'⟩ := Option.ne_none_iff_exists'.1 hne
  have hmax : raftMarshalKey myID (i + 1) ≤ raftMarshalKey myID maxUint64 := raftMarshalKey_le_iff.2 (by rw [toNat_maxUint64]; omega)
  have hzero : raftMarshalKey myID 0 ≤ raftMarshalKey myID i := raftMarshalKey_le_iff.2 (Nat.zero_le _)
  obtain ⟨e, rfl, -⟩ := h k v' hv' (hzero.trans hlo.le) (hhi.trans_le hmax)
  have h1 := raftMarshalKey_lt_iff.1 hlo
  have h2 := raftMarshalKey_lt_iff.1 hhi
  omega

theorem OnlyEntries.putEntry (h : OnlyEntries myID db) (e : RaftEntry) :
    OnlyEntries myID (db.put (raftMarshalKey myID e.index) (.entry e)) := by
  intro k v hget hlo hhi
  rw [get_put] at hget
  split_ifs at hget with hk
  · exact ⟨e, hk, (Option.some.inj hget).symm⟩
  · exact h k v hget hlo hhi

theorem OnlyEntries.putOther (h : OnlyEntries myID db) {kind x : Bytes} (hlen : kind.length = 5)
    (hne : kind ≠ ascii ['.', 'r', 'f', 'd', 'b']) (val : RaftValue) : OnlyEntries myID (db.put (kind ++ x) val) := by
  intro k v hget hlo hhi
  rw [get_put] at hget
  split_ifs at hget with hk
  · obtain ⟨r, hr⟩ := kind_of_between hlo hhi
    exact absurd (hk.symm.trans hr) (kind_append_ne hlen hne)
  · exact h k v hget hlo hhi

theorem get_cleanRaftStorage_between {k : Bytes} (hlo : raftMarshalKey myID 0 ≤ k) (hhi : k < raftMarshalKey myID maxUint64) :
    (cleanRaftStorage myID db).get k = none := by
  rw [cleanRaftStorage, get_deleteAll]
  split_ifs with hmem
  · rfl
  · by_contra hne
    obtain ⟨v, hv⟩ := Option.ne_none_iff_exists'.1 hne
    exact hmem (mem_map.2 ⟨(k, v), mem_range.2 ⟨hv, hlo, hhi⟩, rfl⟩)

theorem onlyEntries_clean : OnlyEntries myID (cleanRaftStorage myID db) := by
  intro k v hget hlo hhi
  rw [get_cleanRaftStorage_between hlo hhi] at hget
  cases hget

end entries

/-! ## What the calls do -/

section calls

variable {rs : RaftStorage}

theorem fresh_eq (myID : PttID) (db : KeyStore Bytes RaftValue) : fresh myID db =
    ⟨(db.put (raftMarshalKey myID 0) (.entry .zero)).put (marshalKeyRaftHardState myID) (.hardState .zero), 0, 1, .zero, .zero, myID⟩ := rfl

theorem compact_of_lt {idx : UInt64} (h : idx < rs.firstIdx) : rs.compact idx = rs := by
  unfold compact
  rw [if_pos h, ite_self]

theorem compact_fields (rs : RaftStorage) (idx : UInt64) : (rs.compact idx).lastIdx = rs.lastIdx ∧ (rs.compact idx).firstIdx = rs.firstIdx ∧
    (rs.compact idx).hardState = rs.hardState ∧ (rs.compact idx).snapshot = rs.snapshot ∧ (rs.compact idx).myID = rs.myID := by
  unfold compact
  split_ifs <;> exact ⟨rfl, rfl, rfl, rfl, rfl⟩

theorem compact_db (rs : RaftStorage) (idx : UInt64) : (rs.compact idx).db = rs.db ∨
    ∃ i, (rs.compact idx).db = rs.db.deleteAll ((raftPrevIter rs.myID rs.db i).map Prod.fst) := by
  unfold compact
  split_ifs
  · exact .inl rfl
  · exact .inl rfl
  · exact .inl rfl
  · exact .inr ⟨idx - 1, rfl⟩

theorem OnlyEntries.compact (h : OnlyEntries rs.myID rs.db) (idx : UInt64) : OnlyEntries rs.myID (rs.compact idx).db := by
  rcases compact_db rs idx with heq | ⟨i, heq⟩ <;> rw [heq]
  · exact h
  · intro k v hget
    rw [get_deleteAll] at hget
    split_ifs at hget
    exact h k v hget

theorem get_compact_other (rs : RaftStorage) (idx : UInt64) {kind x : Bytes} (hlen : kind.length = 5)
    (hne : kind ≠ ascii ['.', 'r', 'f', 'd', 'b']) : (rs.compact idx).db.get (kind ++ x) = rs.db.get (kind ++ x) := by
  rcases compact_db rs idx with heq | ⟨i, heq⟩ <;> rw [heq]
  rw [get_deleteAll, if_neg]
  intro hmem
  obtain ⟨e, he, hkey⟩ := mem_map.1 hmem
  obtain ⟨-, hlo, hhi⟩ := mem_range.1 (mem_reverse.1 he)
  obtain ⟨r, hr⟩ := prefix_of_between hlo hhi
  exact kind_append_ne hlen hne (hkey.symm.trans hr.symm)

theorem applySnapshot_firstIdx {snap : RaftSnapshot} (hnew : rs.snapshot.metadata.index < snap.metadata.index) :
    (rs.applySnapshot snap).2.firstIdx = snap.metadata.index + 1 := by
  rw [applySnapshot, if_neg (UInt64.not_le.2 hnew)]
  exact (compact_fields _ _).2.1

theorem applySnapshot_of_lt {snap : RaftSnapshot} (hnew : rs.snapshot.metadata.index < snap.metadata.index)
    (hmax : snap.metadata.index ≠ maxUint64) : rs.applySnapshot snap = (.ok (), { rs with
      db := rs.db.put (marshalKeyRaftSnapshot rs.myID) (.snapshot snap), snapshot := snap
      firstIdx := snap.metadata.index + 1, lastIdx := snap.metadata.index }) := by
  have hlt : snap.metadata.index < snap.metadata.index + 1 := by
    have hne : snap.metadata.index.toNat ≠ 2 ^ 64 - 1 := fun h => hmax (UInt64.toNat_inj.1 h)
    have hbound := snap.metadata.index.toNat_lt
    rw [UInt64.lt_iff_toNat_lt, UInt64.toNat_add, UInt64.toNat_one, Nat.mod_eq_of_lt] <;> omega
  rw [applySnapshot, if_neg (UInt64.not_le.2 hnew)]
  exact congrArg (Prod.mk _) (compact_of_lt hlt)

theorem saveEntries_fields (ents : List RaftEntry) (rs : RaftStorage) : (ents.foldl saveEntry rs).lastIdx = rs.lastIdx ∧
    (ents.foldl saveEntry rs).firstIdx = rs.firstIdx ∧ (ents.foldl saveEntry rs).hardState = rs.hardState ∧
    (ents.foldl saveEntry rs).snapshot = rs.snapshot ∧ (ents.foldl saveEntry rs).myID = rs.myID := by
  induction ents generalizing rs with
  | nil => exact ⟨rfl, rfl, rfl, rfl, rfl⟩
  | cons e ents ih => exact ih (rs.saveEntry e)

theorem saveEntries_db (ents : List RaftEntry) (rs : RaftStorage) :
    (ents.foldl saveEntry rs).db = rs.db.putAll (ents.map fun e => (raftMarshalKey rs.myID e.index, .entry e)) := by
  induction ents generalizing rs with
  | nil => rfl
  | cons e ents ih =>
    rw [foldl_cons, ih (rs.saveEntry e)]
    rfl

theorem append_cases (rs : RaftStorage) (ents : List RaftEntry) : (rs.append ents).2 = rs ∨
    ∃ (kept : List RaftEntry) (last : RaftEntry), kept.getLast? = some last ∧ (rs.append ents).2 = { kept.foldl saveEntry rs with lastIdx := last.index } := by
  cases ents with
  | nil => exact .inl rfl
  | cons e l =>
    by_cases hlt : ((e :: l).getLast (cons_ne_nil _ _)).index < rs.firstIdx
    · rw [append, if_pos hlt]
      exact .inl rfl
    · rw [append, if_neg hlt]
      dsimp only
      generalize (if rs.firstIdx > e.index then (e :: l).drop (rs.firstIdx - e.index).toNat else e :: l) = kept
      cases hlast : kept.getLast? with
      | none => exact .inl rfl
      | some last => exact .inr ⟨kept, last, hlast, rfl⟩

theorem OnlyEntries.putEntries {myID : PttID} {db : KeyStore Bytes RaftValue} (h : OnlyEntries myID db) (ents : List RaftEntry) :
    OnlyEntries myID (db.putAll (ents.map fun e => (raftMarshalKey myID e.index, .entry e))) := by
  induction ents generalizing db with
  | nil => exact h
  | cons e ents ih => exact ih (h.putEntry e)

end calls

end RaftStorage

end PttaiCore
