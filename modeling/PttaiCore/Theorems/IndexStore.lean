import PttaiCore.Lemmas.Indexed
import PttaiCore.Lib.Run
import PttaiCore.Merkle

/-! # Records and their indexes -/

namespace PttaiCore

open LDBDatabase

variable {V : Type} [DBValue V]

inductive IndexCall (V : Type) where
  | tryPutAll (idxKey : Bytes) (idx : Index) (kvs : List (Bytes × V)) (isGetOrig : Bool)
  | tryPutAllSameUT (idxKey : Bytes) (idx : Index) (kvs : List (Bytes × V))
  | forcePutAll (idxKey : Bytes) (idx : Index) (kvs : List (Bytes × V))
  | deleteAll (idxKey : Bytes)

namespace IndexCall

def idxKey : IndexCall V → Bytes
  | .tryPutAll k _ _ _ | .tryPutAllSameUT k _ _ | .forcePutAll k _ _ | .deleteAll k => k

def idx : IndexCall V → Option Index
  | .tryPutAll _ i _ _ | .tryPutAllSameUT _ i _ | .forcePutAll _ i _ => some i
  | .deleteAll _ => none

def kvs : IndexCall V → List (Bytes × V)
  | .tryPutAll _ _ l _ | .tryPutAllSameUT _ _ l | .forcePutAll _ _ l => l
  | .deleteAll _ => []

def keys (c : IndexCall V) : List Bytes := c.idx.elim [] Index.keys

def isTry : IndexCall V → Bool
  | .tryPutAll _ _ _ _ | .tryPutAllSameUT _ _ _ => true
  | .forcePutAll _ _ _ | .deleteAll _ => false

end IndexCall

def LDBDatabase.indexCall (d : LDBDatabase V) : IndexCall V → LDBDatabase V
  | .tryPutAll k i l isGetOrig => (d.tryPutAll k i l true isGetOrig).2
  | .tryPutAllSameUT k i l => (d.tryPutAllSameUT k i l true).2
  | .forcePutAll k i l => (d.forcePutAll k i l).2
  | .deleteAll k => (d.deleteAll k).2

def IndexStep (d : LDBDatabase V) (c : IndexCall V) (d' : LDBDatabase V) : Prop := d' = d.indexCall c

structure IndexCalls (calls : List (IndexCall V)) : Prop where
  kvs : ∀ c ∈ calls, c.kvs.map Prod.fst = c.keys
  disjoint : ∀ c ∈ calls, ∀ c' ∈ calls, c.idxKey ≠ c'.idxKey → c.keys.Disjoint c'.keys

structure IndexSound (calls : List (IndexCall V)) (db : KeyStore Bytes V) : Prop where
  listed : ∀ c ∈ calls, ∀ i, indexAt db c.idxKey = some i → ∀ r ∈ i.keys, db.get r ≠ none
  owned : ∀ c ∈ calls, ∀ r ∈ c.keys, db.get r ≠ none →
    ∃! k, (∃ c' ∈ calls, c'.idxKey = k) ∧ ∃ i, indexAt db k = some i ∧ r ∈ i.keys

def IndexNotOlder (calls : List (IndexCall V)) (db db' : KeyStore Bytes V) : Prop :=
  ∀ c ∈ calls, ∀ i, indexAt db c.idxKey = some i → ∃ i', indexAt db' c.idxKey = some i' ∧ i.updateTS.order ≤ i'.updateTS.order

namespace IndexStoreAux

open IndexedAux

def Replaces (c : IndexCall V) (i : Index) : Prop := c.isTry = true → ∀ new ∈ c.idx, i.updateTS.order ≤ new.updateTS.order

theorem indexCall_cases (d : LDBDatabase V) (c : IndexCall V) (hkvs : c.kvs.map Prod.fst = c.keys) : (d.indexCall c).db = d.db ∨
    ∃ removed, Removed d.db c.idxKey (Replaces c) removed ∧ IndexEffect d.db (d.indexCall c).db c.idxKey c.idx removed := by
  have hput : ∀ {k idx kvs} {P Q : Index → Prop} {db' : KeyStore Bytes V}, kvs.map Prod.fst = idx.keys → (∀ i, P i → Q i) →
      PutCases d.db k idx kvs P db' → db' = d.db ∨ ∃ removed, Removed d.db k Q removed ∧ IndexEffect d.db db' k (some idx) removed := by
    rintro k idx kvs P Q db' hkvs hPQ (rfl | ⟨removed, hremoved, rfl⟩)
    · exact .inl rfl
    · refine .inr ⟨removed, ?_, effect_put hkvs d.db k removed⟩
      cases hremoved with
      | fresh hget => exact .fresh hget
      | orig hi hP => exact .orig hi (hPQ _ hP)
  have hreplaces : ∀ {idx i : Index} {isTry : Bool}, i.updateTS.order ≤ idx.updateTS.order →
      isTry = true → ∀ new ∈ some idx, i.updateTS.order ≤ new.updateTS.order := by
    intro idx i isTry hle _ new hnew
    cases hnew
    exact hle
  cases c with
  | tryPutAll k idx kvs isGetOrig =>
    rw [LDBDatabase.indexCall, LDBDatabase.tryPutAll, foundOrBusy_snd]
    rcases withLock_db_cases d k fun db => (.ok (tryPutAllCore k idx kvs true isGetOrig db).1, (tryPutAllCore k idx kvs true isGetOrig db).2)
      with h | h <;> rw [h]
    · exact hput hkvs (fun i => hreplaces) (tryPutAllCore_cases isGetOrig)
    · exact .inl rfl
  | tryPutAllSameUT k idx kvs =>
    rw [LDBDatabase.indexCall, LDBDatabase.tryPutAllSameUT, foundOrBusy_snd]
    rcases withLock_db_cases d k fun db => (.ok (tryPutAllSameUTCore k idx kvs true db).1, (tryPutAllSameUTCore k idx kvs true db).2)
      with h | h <;> rw [h]
    · exact hput hkvs (fun i => hreplaces) tryPutAllSameUTCore_cases
    · exact .inl rfl
  | forcePutAll k idx kvs =>
    rw [LDBDatabase.indexCall, LDBDatabase.forcePutAll]
    rcases withLock_db_cases d k (forcePutAllCore k idx kvs) with h | h <;> rw [h]
    · exact hput hkvs (fun i _ htry => absurd htry Bool.false_ne_true) forcePutAllCore_cases
    · exact .inl rfl
  | deleteAll k =>
    rw [LDBDatabase.indexCall, LDBDatabase.deleteAll]
    rcases withLock_db_cases d k (deleteAllCore k) with h | h <;> rw [h]
    · rcases deleteAllCore_cases d.db k with hsame | ⟨i, hi, hdel⟩
      · exact .inl hsame
      · rw [hdel]
        exact .inr ⟨i.keys, .orig hi fun htry => absurd htry Bool.false_ne_true, effect_delete d.db k i.keys⟩
    · exact .inl rfl

/-! ## Calls -/

section calls

variable {calls : List (IndexCall V)} {d₀ d : LDBDatabase V}

def IsIdx (calls : List (IndexCall V)) (k : Bytes) : Prop := ∃ c ∈ calls, c.idxKey = k

def Owns (calls : List (IndexCall V)) (k r : Bytes) : Prop := ∃ c ∈ calls, c.idxKey = k ∧ r ∈ c.keys

abbrev CallsInv (calls : List (IndexCall V)) (db : KeyStore Bytes V) : Prop := IndexInv (IsIdx calls) (Owns calls) (fun _ => False) db

omit [DBValue V] in
theorem layout_of_calls (hcalls : IndexCalls calls) (hsep : ∀ c ∈ calls, ∀ c' ∈ calls, c.idxKey ∉ c'.keys) :
    Layout (IsIdx calls) (Owns calls) fun _ => False := by
  refine ⟨?_, ?_, fun _ _ => id, fun _ _ _ => id⟩
  · rintro k k' r ⟨c, hc, rfl, hr⟩ ⟨c', hc', rfl, hr'⟩
    by_contra hne
    exact hcalls.disjoint c hc c' hc' hne hr hr'
  · rintro k k' r ⟨c, hc, rfl⟩ ⟨c', hc', -, hr⟩ heq
    exact hsep c hc c' hc' (heq ▸ hr)

theorem inv_start (hstart : ∀ c ∈ calls, d₀.db.get c.idxKey = none ∧ ∀ r ∈ c.keys, d₀.db.get r = none) : CallsInv calls d₀.db := by
  refine .of_absent ?_ ?_
  · rintro k ⟨c, hc, rfl⟩
    exact (hstart c hc).1
  · rintro k r ⟨c, hc, -, hr⟩
    exact (hstart c hc).2 r hr

variable (hcalls : IndexCalls calls) (hsep : ∀ c ∈ calls, ∀ c' ∈ calls, c.idxKey ∉ c'.keys)
include hcalls hsep

theorem inv_call (h : CallsInv calls d.db) {c : IndexCall V} (hc : c ∈ calls) :
    CallsInv calls (d.indexCall c).db := by
  rcases indexCall_cases d c (hcalls.kvs c hc) with hsame | ⟨removed, hremoved, heffect⟩
  · rw [hsame]
    exact h
  · exact IndexInv.step (layout_of_calls hcalls hsep) h ⟨c, hc, rfl⟩ (fun r hr => .inl ⟨c, hc, rfl, hr⟩) hremoved heffect

theorem inv_of_run (h₀ : CallsInv calls d₀.db) {pre : List (IndexCall V)} (hrun : Run IndexStep d₀ pre d)
    (hpre : ∀ c ∈ pre, c ∈ calls) : CallsInv calls d.db := by
  refine hrun.invariantTrace (I := fun as u => (∀ c ∈ as, c ∈ calls) → CallsInv calls u.db) (fun _ => h₀) ?_ hpre
  rintro as t c u ih rfl has
  exact inv_call hcalls hsep (ih fun c' hc' => has c' (List.mem_append_left _ hc')) (has c (List.mem_append_right _ (.head _)))

theorem sound_of_inv (h : CallsInv calls d.db) : IndexSound calls d.db := by
  refine ⟨fun c hc i hi r hr => ?_, fun c hc r hr hget => ?_⟩
  · exact h.present c.idxKey i ⟨c, hc, rfl⟩ hi r hr ((h.owned c.idxKey i ⟨c, hc, rfl⟩ hi r hr).resolve_right id)
  · refine ⟨c.idxKey, ⟨⟨c, hc, rfl⟩, h.listed c.idxKey r ⟨c, hc, rfl⟩ ⟨c, hc, rfl, hr⟩ hget⟩, ?_⟩
    rintro k ⟨hk, i, hi, hri⟩
    exact (layout_of_calls hcalls hsep).unique k c.idxKey r ((h.owned k i hk hi r hri).resolve_right id) ⟨c, hc, rfl, hr⟩

theorem notOlder_call (h : CallsInv calls d.db) {c : IndexCall V} (hc : c ∈ calls) (htry : c.isTry = true) :
    IndexNotOlder calls d.db (d.indexCall c).db := by
  intro c' hc' i hi
  rcases indexCall_cases d c (hcalls.kvs c hc) with hsame | ⟨removed, hremoved, heffect⟩
  · rw [hsame]
    exact ⟨i, hi, le_rfl⟩
  have hlayout := layout_of_calls hcalls hsep
  have hnew : ∀ r ∈ c.keys, Owns calls c.idxKey r ∨ False := fun r hr => .inl ⟨c, hc, rfl, hr⟩
  by_cases hne : c'.idxKey = c.idxKey
  · rw [hne] at hi ⊢
    rw [indexAt_new hlayout ⟨c, hc, rfl⟩ hnew heffect]
    have hidx : ∃ new, c.idx = some new := by
      cases c with
      | tryPutAll | tryPutAllSameUT | forcePutAll => exact ⟨_, rfl⟩
      | deleteAll => cases htry
    obtain ⟨new, hnew'⟩ := hidx
    refine ⟨new, hnew', ?_⟩
    cases hremoved with
    | fresh hnone =>
      rw [indexAt, hnone] at hi
      cases hi
    | orig hi' hreplaces =>
      rw [hi'] at hi
      cases hi
      exact hreplaces htry new hnew'
  · rw [indexAt_frame hlayout h ⟨c, hc, rfl⟩ hnew hremoved heffect ⟨c', hc', rfl⟩ hne]
    exact ⟨i, hi, le_rfl⟩

end calls

end IndexStoreAux

open IndexStoreAux in
/-- In every run of puts and deletions that keep their records apart, from a database without any of their keys, the indexes and the
records are in step, and no put that compares update times makes an index older. -/
theorem indexSound_of_run {d₀ d : LDBDatabase V} {calls : List (IndexCall V)} (hrun : Run IndexStep d₀ calls d) (hcalls : IndexCalls calls)
    (hsep : ∀ c ∈ calls, ∀ c' ∈ calls, c.idxKey ∉ c'.keys)
    (hstart : ∀ c ∈ calls, d₀.db.get c.idxKey = none ∧ ∀ r ∈ c.keys, d₀.db.get r = none) :
    IndexSound calls d.db ∧ ∀ pre c post d₁, calls = pre ++ c :: post → Run IndexStep d₀ pre d₁ → c.isTry = true →
      IndexNotOlder calls d₁.db (d₁.indexCall c).db := by
  have h₀ := inv_start hstart
  refine ⟨sound_of_inv hcalls hsep (inv_of_run hcalls hsep h₀ hrun fun c hc => hc), ?_⟩
  rintro pre c post d₁ hsplit hrun₁ htry
  have hpre : ∀ c' ∈ pre, c' ∈ calls := fun c' hc' => hsplit ▸ List.mem_append_left _ hc'
  have hc : c ∈ calls := hsplit ▸ List.mem_append_right _ List.mem_cons_self
  exact notOlder_call hcalls hsep (inv_of_run hcalls hsep h₀ hrun₁ hpre) hc htry

namespace IndexStoreWitness

def putTwo : IndexCall Value := .tryPutAll [1] ⟨[[2], [3]], ⟨5, 0⟩⟩ [([2], .valueTrue), ([3], .valueTrue)] true

def putOne : IndexCall Value := .tryPutAllSameUT [1] ⟨[[2]], ⟨6, 0⟩⟩ [([2], .valueTrue)]

def afterTwo : LDBDatabase Value := (ofDB KeyStore.empty).indexCall putTwo

def afterOne : LDBDatabase Value := afterTwo.indexCall putOne

def putSelf : IndexCall Value := .forcePutAll [1] ⟨[[1]], ⟨5, 0⟩⟩ [([1], .valueTrue)]

end IndexStoreWitness

open IndexStoreWitness in
/-- Two versions of a record. -/
theorem indexSound_of_run_versions : Run IndexStep (ofDB KeyStore.empty) [putTwo, putOne] afterOne ∧
    IndexSound [putTwo, putOne] afterOne.db ∧ IndexNotOlder [putTwo, putOne] afterTwo.db afterOne.db := by
  have hrun₁ : Run IndexStep (ofDB KeyStore.empty) [putTwo] afterTwo := Run.single rfl
  have hrun : Run IndexStep (ofDB KeyStore.empty) [putTwo, putOne] afterOne := hrun₁.snoc rfl
  have hall : ∀ {P : IndexCall Value → Prop}, P putTwo → P putOne → ∀ c ∈ [putTwo, putOne], P c := by
    intro P htwo hone c hc
    rcases List.mem_pair.1 hc with rfl | rfl
    · exact htwo
    · exact hone
  have hcalls : IndexCalls [putTwo, putOne] := by
    refine ⟨hall rfl rfl, hall (hall ?_ ?_) (hall ?_ ?_)⟩ <;> exact fun hne => absurd rfl hne
  have hsep : ∀ c ∈ [putTwo, putOne], ∀ c' ∈ [putTwo, putOne], c.idxKey ∉ c'.keys :=
    hall (hall (by decide) (by decide)) (hall (by decide) (by decide))
  have hsound := indexSound_of_run hrun hcalls hsep (hall ⟨rfl, fun _ _ => rfl⟩ ⟨rfl, fun _ _ => rfl⟩)
  exact ⟨hrun, hsound.1, hsound.2 [putTwo] putOne [] afterTwo rfl hrun₁ rfl⟩

open IndexStoreWitness in
/-- A record that is written under its own index key replaces the index: it is there, and no index lists it. -/
theorem record_replaces_index : IndexCalls [putSelf] ∧ Run IndexStep (ofDB KeyStore.empty) [putSelf] ((ofDB KeyStore.empty).indexCall putSelf) ∧
    ((ofDB KeyStore.empty).indexCall putSelf).db.get [1] = some .valueTrue ∧
    ¬ IndexSound [putSelf] ((ofDB KeyStore.empty).indexCall putSelf).db := by
  have hget : ((ofDB KeyStore.empty).indexCall putSelf).db.get [1] = some .valueTrue := by decide
  refine ⟨⟨?_, ?_⟩, Run.single rfl, hget, fun hsound => ?_⟩
  · intro c hc
    rw [List.mem_singleton.1 hc]
    rfl
  · intro c hc c' hc' hne
    rw [List.mem_singleton.1 hc, List.mem_singleton.1 hc'] at hne
    exact absurd rfl hne
  · have hmem : putSelf ∈ [putSelf] := List.mem_cons_self
    have hlisted := hsound.owned putSelf hmem [1] List.mem_cons_self (by rw [hget]; exact Option.some_ne_none _)
    obtain ⟨k, ⟨⟨c, hc, rfl⟩, i, hi, -⟩, -⟩ := hlisted
    rw [List.mem_singleton.1 hc] at hi
    obtain ⟨v, hv, hindex⟩ := indexAt_eq_some_iff.1 hi
    cases hget.symm.trans hv
    cases hindex

end PttaiCore
