import PttaiCore.Pttdb

/-! # What puts and deletions of indexed records keep -/

namespace PttaiCore

open LDBDatabase KeyStore

variable {V : Type} [DBValue V]

namespace IndexedAux

/-! ## What writing and deleting do -/

inductive Removed (db : KeyStore Bytes V) (k : Bytes) (P : Index → Prop) : List Bytes → Prop where
  | fresh : db.get k = none → Removed db k P []
  | orig {i : Index} : indexAt db k = some i → P i → Removed db k P i.keys

structure IndexEffect (db db' : KeyStore Bytes V) (k : Bytes) (new : Option Index) (removed : List Bytes) : Prop where
  written : ∀ r ∈ new.elim [] Index.keys, db'.get r ≠ none
  index : k ∉ new.elim [] Index.keys → db'.get k = new.map DBValue.ofIndex
  gone : ∀ r ∈ removed, r ∉ new.elim [] Index.keys → r ≠ k → db'.get r = none
  frame : ∀ r ∉ new.elim [] Index.keys, r ≠ k → r ∉ removed → db'.get r = db.get r

theorem effect_put {idx : Index} {kvs : List (Bytes × V)} (hkvs : kvs.map Prod.fst = idx.keys) (db : KeyStore Bytes V) (k : Bytes)
    (removed : List Bytes) : IndexEffect db (putAllWithKeyIndex k idx kvs (db.deleteAll removed)) k (some idx) removed := by
  have hget : ∀ r ∉ idx.keys, (putAllWithKeyIndex k idx kvs (db.deleteAll removed)).get r =
      ((db.deleteAll removed).put k (DBValue.ofIndex idx)).get r := fun r hr => get_putAll_of_not_mem (hkvs ▸ hr)
  refine ⟨fun r hr => get_putAll_of_mem ?_, fun hk => ?_, fun r hr hnew hne => ?_, fun r hnew hne hr => ?_⟩
  · rw [hkvs]
    exact hr
  · rw [hget k hk, get_put, if_pos rfl]
    rfl
  · rw [hget r hnew, get_put, if_neg hne, get_deleteAll, if_pos hr]
  · rw [hget r hnew, get_put, if_neg hne, get_deleteAll, if_neg hr]

theorem effect_delete (db : KeyStore Bytes V) (k : Bytes) (removed : List Bytes) :
    IndexEffect db ((db.deleteAll removed).delete k) k none removed := by
  refine ⟨fun r hr => absurd hr List.not_mem_nil, fun _ => ?_, fun r hr _ hne => ?_, fun r _ hne hr => ?_⟩
  · rw [get_delete, if_pos rfl]
    rfl
  · rw [get_delete, if_neg hne, get_deleteAll, if_pos hr]
  · rw [get_delete, if_neg hne, get_deleteAll, if_neg hr]

def PutCases (db : KeyStore Bytes V) (k : Bytes) (idx : Index) (kvs : List (Bytes × V)) (P : Index → Prop) (db' : KeyStore Bytes V) : Prop :=
  db' = db ∨ ∃ removed, Removed db k P removed ∧ db' = putAllWithKeyIndex k idx kvs (db.deleteAll removed)

section cores

variable {db : KeyStore Bytes V} {k : Bytes} {idx : Index} {kvs : List (Bytes × V)}

theorem tryPutAllCore_cases (isGetOrig : Bool) :
    PutCases db k idx kvs (fun i => i.updateTS.order ≤ idx.updateTS.order) (tryPutAllCore k idx kvs true isGetOrig db).2 := by
  rw [tryPutAllCore]
  cases hget : db.get k with
  | none => exact .inr ⟨[], .fresh hget, rfl⟩
  | some v =>
    cases hindex : DBValue.toIndex v with
    | none =>
      simp only [hindex]
      exact .inl rfl
    | some i =>
      simp only [hindex]
      split
      · exact .inl rfl
      · split_ifs with hless
        · exact .inl rfl
        · have hle := (Timestamp.isLess_eq_false_iff _ _).1 (Bool.not_eq_true _ ▸ hless)
          exact .inr ⟨i.keys, .orig (indexAt_eq_some_iff.2 ⟨v, hget, hindex⟩) hle, rfl⟩

theorem tryPutAllSameUTCore_cases :
    PutCases db k idx kvs (fun i => i.updateTS.order ≤ idx.updateTS.order) (tryPutAllSameUTCore k idx kvs true db).2 := by
  rw [tryPutAllSameUTCore]
  cases hget : db.get k with
  | none => exact .inr ⟨[], .fresh hget, rfl⟩
  | some v =>
    cases hindex : DBValue.toIndex v with
    | none =>
      simp only [hindex]
      exact .inl rfl
    | some i =>
      simp only [hindex]
      split_ifs with hless hsame
      · exact .inl rfl
      · exact .inl rfl
      · have hle := (Timestamp.isLess_eq_false_iff _ _).1 (Bool.not_eq_true _ ▸ hless)
        exact .inr ⟨i.keys, .orig (indexAt_eq_some_iff.2 ⟨v, hget, hindex⟩) hle, rfl⟩

theorem forcePutAllCore_cases : PutCases db k idx kvs (fun _ => True) (forcePutAllCore k idx kvs db).2 := by
  rw [forcePutAllCore]
  cases hget : db.get k with
  | none => exact .inr ⟨[], .fresh hget, rfl⟩
  | some v =>
    cases hindex : DBValue.toIndex v with
    | none =>
      simp only [hindex]
      exact .inl rfl
    | some i =>
      simp only [hindex]
      exact .inr ⟨i.keys, .orig (indexAt_eq_some_iff.2 ⟨v, hget, hindex⟩) trivial, rfl⟩

theorem deleteAllCore_cases (db : KeyStore Bytes V) (k : Bytes) : (deleteAllCore k db).2 = db ∨
    ∃ i, indexAt db k = some i ∧ (deleteAllCore k db).2 = (db.deleteAll i.keys).delete k := by
  rw [deleteAllCore]
  cases hget : db.get k with
  | none => exact .inl rfl
  | some v =>
    cases hindex : DBValue.toIndex v with
    | none =>
      simp only [hindex]
      exact .inl trivial
    | some i =>
      simp only [hindex]
      exact .inr ⟨i, indexAt_eq_some_iff.2 ⟨v, hget, hindex⟩, rfl⟩

end cores

/-! ## The invariant -/

section invariant

variable {isIdx junk : Bytes → Prop} {owns : Bytes → Bytes → Prop} {db db' : KeyStore Bytes V}

structure IndexInv (isIdx : Bytes → Prop) (owns : Bytes → Bytes → Prop) (junk : Bytes → Prop) (db : KeyStore Bytes V) : Prop where
  decoded : ∀ k v, isIdx k → db.get k = some v → ∃ i, DBValue.toIndex v = some i
  owned : ∀ k i, isIdx k → indexAt db k = some i → ∀ r ∈ i.keys, owns k r ∨ junk r
  present : ∀ k i, isIdx k → indexAt db k = some i → ∀ r ∈ i.keys, owns k r → db.get r ≠ none
  listed : ∀ k r, isIdx k → owns k r → db.get r ≠ none → ∃ i, indexAt db k = some i ∧ r ∈ i.keys

structure Layout (isIdx : Bytes → Prop) (owns : Bytes → Bytes → Prop) (junk : Bytes → Prop) : Prop where
  unique : ∀ k k' r, owns k r → owns k' r → k = k'
  separate : ∀ k k' r, isIdx k → owns k' r → k ≠ r
  junk_idx : ∀ k, isIdx k → ¬ junk k
  junk_owned : ∀ k r, owns k r → ¬ junk r

theorem IndexInv.congr (h : IndexInv isIdx owns junk db) (hidx : ∀ k, isIdx k → db'.get k = db.get k)
    (howned : ∀ k r, owns k r → db'.get r = db.get r) : IndexInv isIdx owns junk db' := by
  have hindexAt : ∀ k, isIdx k → indexAt db' k = indexAt db k := fun k hk => by rw [indexAt, indexAt, hidx k hk]
  refine ⟨fun k v hk hget => ?_, fun k i hk hi => ?_, fun k i hk hi r hr hown => ?_, fun k r hk hown hget => ?_⟩
  · rw [hidx k hk] at hget
    exact h.decoded k v hk hget
  · rw [hindexAt k hk] at hi
    exact h.owned k i hk hi
  · rw [hindexAt k hk] at hi
    rw [howned k r hown]
    exact h.present k i hk hi r hr hown
  · rw [howned k r hown] at hget
    rw [hindexAt k hk]
    exact h.listed k r hk hown hget

theorem IndexInv.of_absent (hidx : ∀ k, isIdx k → db.get k = none) (howned : ∀ k r, owns k r → db.get r = none) :
    IndexInv isIdx owns junk db := by
  have hindexAt : ∀ k i, isIdx k → indexAt db k ≠ some i := by
    intro k i hk hi
    rw [indexAt, hidx k hk] at hi
    cases hi
  refine ⟨fun k v hk hget => ?_, fun k i hk hi => absurd hi (hindexAt k i hk), fun k i hk hi => absurd hi (hindexAt k i hk), ?_⟩
  · rw [hidx k hk] at hget
    cases hget
  · intro k r _ hown hget
    exact absurd (howned k r hown) hget

variable {k : Bytes} {new : Option Index} {removed : List Bytes} {P : Index → Prop}

theorem IndexInv.removed_owned (h : IndexInv isIdx owns junk db) (hk : isIdx k) (hremoved : Removed db k P removed) :
    ∀ r ∈ removed, owns k r ∨ junk r := by
  intro r hr
  cases hremoved with
  | fresh => cases hr
  | orig hi _ => exact h.owned k _ hk hi r hr

section step

variable (hlayout : Layout isIdx owns junk) (h : IndexInv isIdx owns junk db) (hk : isIdx k)
  (hnew : ∀ r ∈ new.elim [] Index.keys, owns k r ∨ junk r)
  (hremoved : Removed db k P removed) (heffect : IndexEffect db db' k new removed)
include hlayout h hk hnew hremoved heffect

omit h hk hnew hremoved heffect in
theorem not_listed_of_isIdx {k' r : Bytes} (hr : isIdx r) : ¬ (owns k' r ∨ junk r) := by
  rintro (hown | hjunk)
  · exact hlayout.separate r k' r hr hown rfl
  · exact hlayout.junk_idx r hr hjunk

omit h hk hnew hremoved heffect in
theorem owner_of_listed {k' r : Bytes} (hown : owns k' r) (hr : owns k r ∨ junk r) : k' = k := by
  rcases hr with hr | hjunk
  · exact hlayout.unique k' k r hown hr
  · exact absurd hjunk (hlayout.junk_owned k' r hown)

theorem frame_index {k' : Bytes} (hk' : isIdx k') (hne : k' ≠ k) : db'.get k' = db.get k' :=
  heffect.frame k' (fun hmem => not_listed_of_isIdx hlayout hk' (hnew k' hmem)) hne fun hmem =>
    not_listed_of_isIdx hlayout hk' (h.removed_owned hk hremoved k' hmem)

theorem frame_record {k' r : Bytes} (hr : owns k' r) (hne : k' ≠ k) : db'.get r = db.get r :=
  heffect.frame r (fun hmem => hne (owner_of_listed hlayout hr (hnew r hmem))) (hlayout.separate k k' r hk hr).symm fun hmem =>
    hne (owner_of_listed hlayout hr (h.removed_owned hk hremoved r hmem))

omit h hremoved in
theorem get_index : db'.get k = new.map DBValue.ofIndex := heffect.index fun hmem => not_listed_of_isIdx hlayout hk (hnew k hmem)

omit h hremoved in
theorem indexAt_new : indexAt db' k = new := by
  rw [indexAt, get_index hlayout hk hnew heffect]
  cases new with
  | none => rfl
  | some i => exact DBValue.toIndex_ofIndex i

theorem indexAt_frame {k' : Bytes} (hk' : isIdx k') (hne : k' ≠ k) : indexAt db' k' = indexAt db k' := by
  rw [indexAt, frame_index hlayout h hk hnew hremoved heffect hk' hne]
  rfl

theorem IndexInv.step : IndexInv isIdx owns junk db' := by
  have hindexAt := indexAt_new hlayout hk hnew heffect
  refine ⟨fun k' v hk' hget => ?_, fun k' i hk' hi r hr => ?_, fun k' i hk' hi r hr hown => ?_, fun k' r hk' hr hget => ?_⟩
  · by_cases hne : k' = k
    · subst hne
      rw [get_index hlayout hk hnew heffect] at hget
      obtain ⟨i, -, rfl⟩ := Option.map_eq_some_iff.1 hget
      exact ⟨i, DBValue.toIndex_ofIndex i⟩
    · rw [frame_index hlayout h hk hnew hremoved heffect hk' hne] at hget
      exact h.decoded k' v hk' hget
  · by_cases hne : k' = k
    · subst hne
      rw [hindexAt] at hi
      subst hi
      exact hnew r hr
    · rw [indexAt_frame hlayout h hk hnew hremoved heffect hk' hne] at hi
      exact h.owned k' i hk' hi r hr
  · by_cases hne : k' = k
    · subst hne
      rw [hindexAt] at hi
      subst hi
      exact heffect.written r hr
    · rw [indexAt_frame hlayout h hk hnew hremoved heffect hk' hne] at hi
      rw [frame_record hlayout h hk hnew hremoved heffect hown hne]
      exact h.present k' i hk' hi r hr hown
  · by_cases hne : k' = k
    · subst hne
      by_cases hmem : r ∈ new.elim [] Index.keys
      · rw [hindexAt]
        cases new with
        | none => cases hmem
        | some i => exact ⟨i, rfl, hmem⟩
      -- A record of the key that the call did not write was listed before, and was removed.
      · have hrk := (hlayout.separate k' k' r hk hr).symm
        by_cases hgone : r ∈ removed
        · exact absurd (heffect.gone r hgone hmem hrk) hget
        · rw [heffect.frame r hmem hrk hgone] at hget
          obtain ⟨i, hi, hri⟩ := h.listed k' r hk hr hget
          cases hremoved with
          | fresh hnone =>
            rw [indexAt, hnone] at hi
            cases hi
          | orig hi' _ =>
            rw [hi'] at hi
            cases hi
            exact absurd hri hgone
    · rw [frame_record hlayout h hk hnew hremoved heffect hr hne] at hget
      rw [indexAt_frame hlayout h hk hnew hremoved heffect hk' hne]
      exact h.listed k' r hk' hr hget

end step

end invariant

end IndexedAux

end PttaiCore
