import PttaiCore.Lemmas.Indexed
import PttaiCore.Theorems.Convergence

/-! # A saved oplog is loaded again -/

namespace PttaiCore

open LDBDatabase BaseOplog KeyStore List

inductive StoreCall where
  | save (p : OplogDB) (o : BaseOplog) (merkle : Option Merkle)
  | delete (p : OplogDB) (o : BaseOplog)

def MerkleState.storeCall (s : MerkleState) : StoreCall → MerkleState
  | .save p o merkle => (o.save p merkle s).2
  | .delete p o => (o.delete p s).2

def StoreStep (s : MerkleState) (c : StoreCall) (s' : MerkleState) : Prop := s' = s.storeCall c

def recordParts : List Part := [.oplog, .oplogInternal, .oplogMaster]

structure RoundTrip (p : OplogDB) (o : BaseOplog) (s s' : MerkleState) : Prop where
  get : ∃ o', BaseOplog.get p o.id s'.db = .ok o' ∧ o'.updateTS = o.updateTS ∧ o'.hash = o.hash ∧ o'.masterLogID = o.masterLogID ∧
    o'.masterSigns = o.masterSigns ∧ o'.internalSigns = o.internalSigns
  others : ∀ p' id', idxKey p' id' ≠ idxKey p o.id → s'.db.db.get (idxKey p' id') = s.db.db.get (idxKey p' id') ∧
    ∀ i, indexAt s.db.db (idxKey p' id') = some i → ∀ key ∈ i.keys, s'.db.db.get key = s.db.db.get key
  stale : ∀ o' : BaseOplog, o'.id = o.id → ∀ part ∈ recordParts, s'.db.db.get (o'.marshalKey p part) ≠ none →
    o'.marshalKey p part = o.storeKey p

def BaseOplog.IsSigned (o : BaseOplog) : Prop := o.masterLogID.isSome ∨ o.masterSigns ≠ [] ∨ o.internalSigns ≠ []

structure Loadable (o : BaseOplog) : Prop where
  signed : o.IsSigned
  stable : ∀ sign ∈ o.masterSigns ++ o.internalSigns, ∀ e ∈ sign.extra, e.data.Stable

namespace RoundTripAux

open IndexedAux

variable {p p' : OplogDB} {o o' : BaseOplog} {k r : Bytes}

/-! ## The layout of the database -/

def IsIdx (k : Bytes) : Prop := ∃ p id, k = idxKey p id

inductive Owns : Bytes → Bytes → Prop where
  | record (p : OplogDB) (o : BaseOplog) (part : Part) : part ∈ recordParts → Owns (idxKey p o.id) (o.marshalKey p part)
  | node (p : OplogDB) (o : BaseOplog) : Owns (idxKey p o.id) (o.marshalMerkleKey p)

theorem id_eq_of_keyTail (h : o.keyTail = o'.keyTail) : o.id = o'.id := by
  obtain ⟨-, hrest⟩ := append_inj h (by rw [Timestamp.marshal_length, Timestamp.marshal_length])
  exact Subtype.ext (append_inj hrest (by rw [o.id.2, o'.id.2])).1

theorem entity_eq_of_key {m m' : Merkle} {part part' : Part} {t t' : Bytes}
    (h : m.partPrefix part ++ (m.prefixID.1 ++ t) = m'.partPrefix part' ++ (m'.prefixID.1 ++ t')) :
    m.head = m'.head ∧ m.prefixID = m'.prefixID ∧ t = t' := by
  obtain ⟨hpart, hrest⟩ := append_inj h (by rw [Merkle.partPrefix_length, Merkle.partPrefix_length])
  obtain ⟨hhead, -⟩ := append_inj hpart (by rw [m.head.2, m'.head.2])
  obtain ⟨hid, htail⟩ := append_inj hrest (by rw [m.prefixID.2, m'.prefixID.2])
  exact ⟨Subtype.ext hhead, Subtype.ext hid, htail⟩

theorem idxKey_congr {id id' : PttID} (hhead : p.merkle.head = p'.merkle.head) (hentity : p.merkle.prefixID = p'.merkle.prefixID)
    (hid : id = id') : idxKey p id = idxKey p' id' := by
  rw [idxKey, idxKey, Merkle.partPrefix, Merkle.partPrefix, hhead, hentity, hid]

theorem not_merkle_of_recordPart {part : Part} (h : part ∈ recordParts) : part ≠ .merkle ∧ part ≠ .oplogIdx ∧ part ≠ .merkleToUpdate := by
  revert h
  cases part <;> decide

theorem Owns.inPart (h : Owns k r) : ∃ part, InPart part r ∧ part ≠ .oplogIdx ∧ part ≠ .merkleToUpdate := by
  cases h with
  | record p o part hpart => exact ⟨part, inPart_marshalKey part, (not_merkle_of_recordPart hpart).2⟩
  | node p o => exact ⟨.merkle, inPart_marshalMerkleKey, by decide, by decide⟩

theorem owns_unique {k' : Bytes} (h : Owns k r) (h' : Owns k' r) : k = k' := by
  cases h with
  | record p o part hpart =>
    generalize hr : o.marshalKey p part = r' at h'
    cases h' with
    | record p' o' part' _ =>
      obtain ⟨hhead, hentity, htail⟩ := entity_eq_of_key hr
      exact idxKey_congr hhead hentity (id_eq_of_keyTail htail)
    | node p' o' => exact absurd hr (ne_of_inPart (inPart_marshalKey part) inPart_marshalMerkleKey (not_merkle_of_recordPart hpart).1)
  | node p o =>
    generalize hr : o.marshalMerkleKey p = r' at h'
    cases h' with
    | record p' o' part' hpart =>
      exact absurd hr.symm (ne_of_inPart (inPart_marshalKey part') inPart_marshalMerkleKey (not_merkle_of_recordPart hpart).1)
    | node p' o' =>
      obtain ⟨hhead, hentity, htail⟩ := entity_eq_of_key hr
      exact idxKey_congr hhead hentity (id_eq_of_keyTail (List.cons.inj htail).2)

theorem layout : Layout IsIdx Owns (· = []) := by
  refine ⟨fun k k' r h h' => owns_unique h h', ?_, ?_, ?_⟩
  · rintro k k' r ⟨p, id, rfl⟩ hown
    obtain ⟨part, hpart, hne, -⟩ := hown.inPart
    exact (ne_of_inPart hpart (inPart_idxKey id) hne).symm
  · rintro k ⟨p, id, rfl⟩ hnil
    exact not_inPart_nil _ (hnil ▸ inPart_idxKey id)
  · rintro k r hown rfl
    obtain ⟨part, hpart, -⟩ := hown.inPart
    exact not_inPart_nil _ hpart

/-! ## What a save writes -/

section save

variable {kvs : List (Bytes × Value)} {db : KeyStore Bytes Value}

theorem storeKey_cases (p : OplogDB) (o : BaseOplog) :
    (o.IsSigned ∧ ∃ part ∈ recordParts, o.storeKey p = o.marshalKey p part) ∨ ¬ o.IsSigned ∧ o.storeKey p = [] := by
  unfold storeKey pendingKey toStatus IsSigned
  cases hid : o.masterLogID with
  | some id => exact .inl ⟨.inl rfl, .oplog, by decide, rfl⟩
  | none =>
    cases hinternal : o.internalSigns with
    | cons s l => exact .inl ⟨.inr (.inr (cons_ne_nil _ _)), .oplogInternal, by decide, rfl⟩
    | nil =>
      cases hmaster : o.masterSigns with
      | cons s l => exact .inl ⟨.inr (.inl (cons_ne_nil _ _)), .oplogMaster, by decide, rfl⟩
      | nil => exact .inr ⟨by simp, rfl⟩

theorem stored_rest (h : StoredKVs p o kvs) : ∃ rest, kvs = (o.storeKey p, .oplog o) :: rest ∧
    ∀ key ∈ rest.map Prod.fst, key = o.marshalMerkleKey p := by
  obtain ⟨rest, rfl, hrest⟩ := h
  refine ⟨rest, rfl, fun key hkey => ?_⟩
  split_ifs at hrest with hid
  · exact eq_of_mem_merkleKVs hrest hkey
  · rw [hrest] at hkey
    cases hkey

theorem storeKey_ne_node : o.storeKey p ≠ o.marshalMerkleKey p := by
  rcases storeKey_cases p o with ⟨-, part, hpart, hkey⟩ | ⟨-, hkey⟩
  · rw [hkey]
    exact ne_of_inPart (inPart_marshalKey part) inPart_marshalMerkleKey (not_merkle_of_recordPart hpart).1
  · rw [hkey]
    intro hnil
    exact not_inPart_nil .merkle (hnil ▸ inPart_marshalMerkleKey)

theorem stored_owned (h : StoredKVs p o kvs) : ∀ key ∈ kvs.map Prod.fst, Owns (idxKey p o.id) key ∨ key = [] := by
  obtain ⟨rest, rfl, hrest⟩ := stored_rest h
  intro key hkey
  rcases mem_cons.1 hkey with rfl | hkey
  · rcases storeKey_cases p o with ⟨-, part, hpart, hkey⟩ | ⟨-, hkey⟩
    · exact .inl (hkey ▸ .record p o part hpart)
    · exact .inr hkey
  · rw [hrest key hkey]
    exact .inl (.node p o)

theorem get_storeKey (h : StoredKVs p o kvs) (k : Bytes) (idx : Index) :
    (putAllWithKeyIndex k idx kvs db).get (o.storeKey p) = some (.oplog o) := by
  obtain ⟨rest, rfl, hrest⟩ := stored_rest h
  rw [putAllWithKeyIndex, putAll_cons, get_putAll_of_not_mem fun hmem => storeKey_ne_node (hrest _ hmem),
    get_put, if_pos rfl]

theorem effect_of_prior (idx : Index) {origKeys : Option (List Bytes)} {base : KeyStore Bytes Value}
    (hkvs : kvs.map Prod.fst = idx.keys) (hprior : Prior p o db origKeys base) :
    ∃ removed, Removed db (idxKey p o.id) (fun i => i.keys.head? ≠ some []) removed ∧
      IndexEffect db (putAllWithKeyIndex (idxKey p o.id) idx kvs base) (idxKey p o.id) (some idx) removed := by
  have horig : ∀ {i : Index} {key : Bytes}, db.get (idxKey p o.id) = some (.index i) → i.keys[0]? = some key → key ≠ [] →
      Removed db (idxKey p o.id) (fun i => i.keys.head? ≠ some []) i.keys := by
    intro i key hget hkey hne
    refine .orig (indexAt_eq_some_iff.2 ⟨_, hget, rfl⟩) fun hhead => ?_
    rw [List.head?_eq_getElem?, hkey] at hhead
    exact hne (Option.some.inj hhead)
  cases hprior with
  | absent hget => exact ⟨[], .fresh hget, effect_put hkvs db _ []⟩
  | replaced i key hget hkey hne _ => exact ⟨i.keys, horig hget hkey hne, effect_put hkvs db _ i.keys⟩
  | promoted i key status hget hkey hne _ _ =>
    refine ⟨i.keys, horig hget hkey hne, ?_⟩
    rw [putAllWithKeyIndex, put_delete]
    exact effect_put hkvs db _ i.keys

theorem save_effect (p : OplogDB) (o : BaseOplog) (merkle : Option Merkle) (s : MerkleState) :
    (∃ e, o.save p merkle s = (.error e, s)) ∨ s.db.lockMap.get (idxKey p o.id) = none ∧
      (o.save p merkle s).2.db.lockMap = s.db.lockMap ∧ ∃ kvs base removed, StoredKVs p o.notNewer kvs ∧
        Removed s.db.db (idxKey p o.id) (fun i => i.keys.head? ≠ some []) removed ∧
        IndexEffect s.db.db (putAllWithKeyIndex (idxKey p o.id) ⟨kvs.map Prod.fst, o.updateTS⟩ kvs base) (idxKey p o.id)
          (some ⟨kvs.map Prod.fst, o.updateTS⟩) removed ∧
        SameOff [.merkleToUpdate] (putAllWithKeyIndex (idxKey p o.id) ⟨kvs.map Prod.fst, o.updateTS⟩ kvs base)
          (o.save p merkle s).2.db.db := by
  rcases save_cases p o merkle s with herr | ⟨hfree, kvs, origKeys, base, hkvs, hprior⟩
  · exact .inl herr
  · obtain ⟨removed, hremoved, heffect⟩ := effect_of_prior ⟨kvs.map Prod.fst, o.updateTS⟩ rfl hprior
    have hframe := setMerkleUpdateTS_frame o.notNewer origKeys merkle
      (s.withEntries (putAllWithKeyIndex (idxKey p o.id) ⟨kvs.map Prod.fst, o.updateTS⟩ kvs base))
    rw [← save_of_prior hfree hkvs hprior] at hframe
    exact .inr ⟨hfree, hframe.2, kvs, base, removed, hkvs, hremoved, heffect, hframe.1⟩

end save

/-! ## The invariant of the store -/

section invariant

variable {db db' : KeyStore Bytes Value} {removed : List Bytes} {P : Index → Prop}

structure StoreInv (db : KeyStore Bytes Value) : Prop where
  index : IndexInv IsIdx Owns (· = []) db
  nilFirst : ∀ k i, IsIdx k → indexAt db k = some i → [] ∈ i.keys → i.keys.head? = some []

theorem storeInv_empty : StoreInv KeyStore.empty := by
  refine ⟨.of_absent (fun _ _ => rfl) fun _ _ _ => rfl, fun k i _ hi => ?_⟩
  cases hi

theorem StoreInv.sameOff (h : StoreInv db) (hsame : SameOff [.merkleToUpdate] db db') : StoreInv db' := by
  have hidx : ∀ k, IsIdx k → db'.get k = db.get k := by
    rintro k ⟨p, id, rfl⟩
    exact hsame _ (not_inPart_of (inPart_idxKey id) (by decide))
  refine ⟨h.index.congr hidx fun k r hown => ?_, fun k i hk hi => ?_⟩
  · obtain ⟨part, hpart, -, hne⟩ := hown.inPart
    exact hsame _ (not_inPart_of hpart (by simpa using hne))
  · rw [indexAt, hidx k hk] at hi
    exact h.nilFirst k i hk hi

theorem StoreInv.step (h : StoreInv db) (new : Option Index) (hk : IsIdx k) (hnew : ∀ r ∈ new.elim [] Index.keys, Owns k r ∨ r = [])
    (hfirst : ∀ i ∈ new, [] ∈ i.keys → i.keys.head? = some []) (hremoved : Removed db k P removed)
    (heffect : IndexEffect db db' k new removed) : StoreInv db' := by
  refine ⟨h.index.step layout hk hnew hremoved heffect, fun k' i hk' hi => ?_⟩
  by_cases hne : k' = k
  · subst hne
    rw [indexAt_new layout hk hnew heffect] at hi
    exact hfirst i hi
  · rw [indexAt_frame layout h.index hk hnew hremoved heffect hk' hne] at hi
    exact h.nilFirst k' i hk' hi

theorem stored_nilFirst {kvs : List (Bytes × Value)} (h : StoredKVs p o kvs) (hnil : [] ∈ kvs.map Prod.fst) :
    (kvs.map Prod.fst).head? = some [] := by
  obtain ⟨rest, rfl, hrest⟩ := stored_rest h
  rcases mem_cons.1 hnil with hkey | hmem
  · rw [map_cons, List.head?_cons, ← hkey]
  · exact absurd (hrest [] hmem) fun heq => not_inPart_nil .merkle (heq ▸ inPart_marshalMerkleKey)

theorem StoreInv.save {s : MerkleState} (h : StoreInv s.db.db) (p : OplogDB) (o : BaseOplog) (merkle : Option Merkle) :
    StoreInv (o.save p merkle s).2.db.db := by
  rcases save_effect p o merkle s with ⟨e, herr⟩ | ⟨-, -, kvs, base, removed, hkvs, hremoved, heffect, hsame⟩
  · rw [herr]
    exact h
  · refine (h.step (some ⟨kvs.map Prod.fst, o.updateTS⟩) ⟨p, o.id, rfl⟩ (stored_owned (o := o.notNewer) hkvs) (fun i hi => ?_) hremoved heffect).sameOff hsame
    cases hi
    exact stored_nilFirst hkvs

theorem StoreInv.delete {s : MerkleState} (h : StoreInv s.db.db) (p : OplogDB) (o : BaseOplog) :
    StoreInv (o.delete p s).2.db.db := by
  change StoreInv (s.db.withLock (idxKey p o.id) (deleteAllCore (idxKey p o.id))).2.db
  rcases withLock_db_cases s.db (idxKey p o.id) (deleteAllCore (idxKey p o.id)) with hcase | hcase <;> rw [hcase]
  · rcases deleteAllCore_cases s.db.db (idxKey p o.id) with hsame | ⟨i, hi, hdel⟩
    · rw [hsame]
      exact h
    · rw [hdel]
      exact h.step none ⟨p, o.id, rfl⟩ (fun r hr => absurd hr not_mem_nil) (fun _ hnone => by cases hnone)
        (.orig (P := fun _ => True) hi trivial) (effect_delete s.db.db _ i.keys)
  · exact h

theorem storeInv_of_run {s₀ s : MerkleState} {calls : List StoreCall} (hstart : s₀.db.db = KeyStore.empty)
    (hrun : Run StoreStep s₀ calls s) : StoreInv s.db.db := by
  refine hrun.invariant (I := fun u => StoreInv u.db.db) (hstart ▸ storeInv_empty) ?_
  rintro t c u h rfl
  cases c with
  | save p o merkle => exact h.save p o merkle
  | delete p o => exact h.delete p o

end invariant

/-! ## Loading what was saved -/

section load

variable {s : MerkleState} {merkle : Option Merkle}

structure Saved (p : OplogDB) (o : BaseOplog) (d : LDBDatabase Value) : Prop where
  free : d.lockMap.get (idxKey p o.id) = none
  index : ∃ i, d.db.get (idxKey p o.id) = some (.index i) ∧ ∃ rest, i.keys = o.storeKey p :: rest ∧ ∀ key ∈ rest, key = o.marshalMerkleKey p
  record : d.db.get (o.storeKey p) = some (.oplog o.notNewer)

theorem saved_of_save (hsave : (o.save p merkle s).1 = .ok ()) : Saved p o (o.save p merkle s).2.db := by
  rcases save_effect p o merkle s with ⟨e, herr⟩ | ⟨hfree, hlock, kvs, base, removed, hkvs, hremoved, heffect, hsame⟩
  · rw [herr] at hsave
    cases hsave
  have hidx : ∀ part ∈ ([.merkleToUpdate] : List Part), ¬ InPart part (idxKey p o.id) := not_inPart_of (inPart_idxKey o.id) (by decide)
  obtain ⟨rest, hkeys, hrest⟩ := stored_rest hkvs
  refine ⟨hlock ▸ hfree, ⟨⟨kvs.map Prod.fst, o.updateTS⟩, ?_, rest.map Prod.fst, ?_, hrest⟩, ?_⟩
  · rw [hsame _ hidx]
    exact heffect.index fun hmem => not_listed_of_isIdx layout ⟨p, o.id, rfl⟩ (stored_owned hkvs _ hmem)
  · rw [hkeys]
    rfl
  · have hkey : ∀ part ∈ ([.merkleToUpdate] : List Part), ¬ InPart part (o.storeKey p) := by
      rcases storeKey_cases p o with ⟨-, part, hpart, hkey⟩ | ⟨-, hkey⟩
      · rw [hkey]
        exact not_inPart_of (inPart_marshalKey part) (by simpa using (not_merkle_of_recordPart hpart).2.2)
      · rw [hkey]
        exact fun part _ => not_inPart_nil part
    rw [hsame _ hkey]
    exact get_storeKey hkvs _ _

theorem Saved.get_of_signed {d : LDBDatabase Value} (h : Saved p o d) (hsigned : o.IsSigned) :
    BaseOplog.get p o.id d = .ok o.notNewer.reload := by
  obtain ⟨i, hi, rest, hkeys, -⟩ := h.index
  have hne : o.storeKey p ≠ [] := by
    rcases storeKey_cases p o with ⟨-, part, -, hkey⟩ | ⟨hnot, -⟩
    · rw [hkey]
      exact marshalKey_ne_nil part
    · exact absurd hsigned hnot
  have hkey : i.keys[0]? = some (o.storeKey p) := by
    rw [hkeys]
    rfl
  rw [BaseOplog.get, getKeyByIdxKey_of_index h.free hi hkey hne]
  simp only [LDBDatabase.get, h.record]
  rfl

theorem Saved.get_of_not_signed {d : LDBDatabase Value} (h : Saved p o d) (hsigned : ¬ o.IsSigned) :
    BaseOplog.get p o.id d = .error .invalidKeys := by
  obtain ⟨i, hi, rest, hkeys, -⟩ := h.index
  have hnil : o.storeKey p = [] := by
    rcases storeKey_cases p o with ⟨hyes, -⟩ | ⟨-, hkey⟩
    · exact absurd hyes hsigned
    · exact hkey
  have hindex : DBValue.toIndex (Value.index i) = some i := rfl
  rw [BaseOplog.get, getKeyByIdxKey_of_free h.free, getKeyByIdxKeyCore, hi]
  simp only [hindex, hkeys, hnil, List.getElem?_cons_zero]

theorem sign_reload_eq_iff {sign : SignInfo} : sign.reload = sign ↔ ∀ e ∈ sign.extra, e.data.Stable := by
  obtain ⟨id, createTS, hash, salt, sig, pubkey, extra⟩ := sign
  simp only [SignInfo.reload, SignInfo.mk.injEq, true_and]
  cases extra with
  | none => exact iff_of_true rfl fun e he => by cases he
  | some e =>
    rw [Option.map_some, Option.some.injEq, KeyExtraInfo.reload]
    constructor
    · intro h e' he
      cases he
      exact (Json.generic_eq_self_iff _).1 (congrArg KeyExtraInfo.data h)
    · intro h
      rw [(Json.generic_eq_self_iff _).2 (h e rfl)]

theorem signs_reload_eq_iff {l : List SignInfo} : l.map SignInfo.reload = l ↔ ∀ sign ∈ l, ∀ e ∈ sign.extra, e.data.Stable := by
  have hself : l.map SignInfo.reload = l ↔ l.map SignInfo.reload = l.map fun sign => sign := by rw [map_id']
  rw [hself, map_inj_left]
  exact forall₂_congr fun sign _ => sign_reload_eq_iff

theorem others_of_save (h : StoreInv s.db.db) (hsave : (o.save p merkle s).1 = .ok ()) (hsigned : o.IsSigned) {p' : OplogDB} {id' : PttID}
    (hne : idxKey p' id' ≠ idxKey p o.id) : (o.save p merkle s).2.db.db.get (idxKey p' id') = s.db.db.get (idxKey p' id') ∧
      ∀ i, indexAt s.db.db (idxKey p' id') = some i → ∀ key ∈ i.keys, (o.save p merkle s).2.db.db.get key = s.db.db.get key := by
  rcases save_effect p o merkle s with ⟨e, herr⟩ | ⟨-, -, kvs, base, removed, hkvs, hremoved, heffect, hsame⟩
  · rw [herr] at hsave
    cases hsave
  have hk : IsIdx (idxKey p o.id) := ⟨p, o.id, rfl⟩
  have hk' : IsIdx (idxKey p' id') := ⟨p', id', rfl⟩
  have hnew : ∀ r ∈ (some (⟨kvs.map Prod.fst, o.updateTS⟩ : Index)).elim [] Index.keys, Owns (idxKey p o.id) r ∨ r = [] :=
    stored_owned (o := o.notNewer) hkvs
  refine ⟨?_, fun i hi key hkey => ?_⟩
  · rw [hsame _ (not_inPart_of (inPart_idxKey id') (by decide))]
    exact frame_index layout h.index hk hnew hremoved heffect hk' hne
  · rcases h.index.owned _ i hk' hi key hkey with hown | rfl
    · obtain ⟨part, hpart, -, hmark⟩ := hown.inPart
      rw [hsame _ (not_inPart_of hpart (by simpa using hmark))]
      exact frame_record layout h.index hk hnew hremoved heffect hown hne
    · -- The nil key is neither written, since the oplog is signed, nor removed, since the version before was found.
      rw [hsame _ fun part _ => not_inPart_nil part]
      refine heffect.frame [] (fun hmem => ?_) (fun hnil => not_inPart_nil .oplogIdx (hnil ▸ inPart_idxKey o.id)) fun hmem => ?_
      · have hfirst := stored_nilFirst hkvs hmem
        obtain ⟨rest, rfl, -⟩ := stored_rest hkvs
        rw [map_cons, List.head?_cons, Option.some.injEq] at hfirst
        rcases storeKey_cases p o with ⟨-, part, -, hkey'⟩ | ⟨hnot, -⟩
        · exact marshalKey_ne_nil part (hkey'.symm.trans hfirst)
        · exact hnot hsigned
      · cases hremoved with
        | fresh => cases hmem
        | orig hi' hhead => exact hhead (h.nilFirst _ _ hk hi' hmem)

theorem Saved.stale {d : LDBDatabase Value} (hsaved : Saved p o d) (h : StoreInv d.db) (hid : o'.id = o.id) {part : Part}
    (hpart : part ∈ recordParts) (hget : d.db.get (o'.marshalKey p part) ≠ none) : o'.marshalKey p part = o.storeKey p := by
  have hown : Owns (idxKey p o.id) (o'.marshalKey p part) := hid ▸ .record p o' part hpart
  obtain ⟨i, hi, hmem⟩ := h.index.listed _ _ ⟨p, o.id, rfl⟩ hown hget
  obtain ⟨i', hi', rest, hkeys, hrest⟩ := hsaved.index
  rw [indexAt, hi', Option.bind_some] at hi
  cases hi
  rw [hkeys] at hmem
  rcases mem_cons.1 hmem with heq | hmem
  · exact heq
  · exact absurd (hrest _ hmem) (ne_of_inPart (inPart_marshalKey part) inPart_marshalMerkleKey (not_merkle_of_recordPart hpart).1)

end load

end RoundTripAux

namespace RoundTripWitness

open SigningWitness

def created : BaseOplog := BaseOplog.new (idOf 9) none ⟨1000, 0⟩ (idOf 1) 1 none

def mastered : BaseOplog := { created with hash := List.replicate 32 7, masterLogID := some (idOf 3) }

end RoundTripWitness

end PttaiCore
