import PttaiCore.Lemmas.Merkle
import PttaiCore.OplogStore

/-! # What saving an oplog does to the database -/

namespace PttaiCore

open KeyStore LDBDatabase

namespace BaseOplog

variable {p : OplogDB} {o : BaseOplog}

/-! ## The keys of an oplog -/

variable (part : Part) {d : LDBDatabase Value} {key : Bytes} {base : KeyStore Bytes Value} {kvs : List (Bytes × Value)} {origKeys : Option (List Bytes)}

theorem inPart_marshalKey : InPart part (o.marshalKey p part) := inPart_partPrefix_append.2 rfl

theorem inPart_idxKey (id : PttID) : InPart .oplogIdx (idxKey p id) := inPart_partPrefix_append.2 rfl

theorem inPart_marshalMerkleKey : InPart .merkle (o.marshalMerkleKey p) := inPart_partPrefix_append.2 rfl

theorem bytesToStatus_partPrefix (m : Merkle) (part : Part) (r : Bytes) :
    bytesToStatus (m.partPrefix part ++ r) =
      bytesToStatus ([0, 0, 0] ++ part.bytes) := by
  obtain ⟨⟨h, hlen⟩, id, e⟩ := m
  match h, hlen with
  | [a, b, c], _ => cases part <;> rfl

@[simp] theorem bytesToStatus_marshalKey : bytesToStatus (o.marshalKey p .oplog) = some .alive := by
  rw [marshalKey, bytesToStatus_partPrefix]
  decide

theorem toStatus_of_masterLogID (h : o.masterLogID.isSome) : o.toStatus = .alive := if_pos h

def storeKey (p : OplogDB) (o : BaseOplog) : Bytes :=
  if o.masterLogID.isSome then o.marshalKey p .oplog else o.pendingKey p

def StoredKVs (p : OplogDB) (o : BaseOplog) (kvs : List (Bytes × Value)) : Prop :=
  ∃ merkleKVs, kvs = (o.storeKey p, .oplog o) :: merkleKVs ∧
    (if o.masterLogID.isSome then o.merkleKVs p (o.marshalKey p .oplog) = .ok merkleKVs else merkleKVs = [])

inductive Prior (p : OplogDB) (o : BaseOplog) (db : KeyStore Bytes Value) :
    Option (List Bytes) → KeyStore Bytes Value → Prop where
  | absent (h : db.get (idxKey p o.id) = none) : Prior p o db none db
  | replaced (i : Index) (key : Bytes) (h : db.get (idxKey p o.id) = some (.index i)) (hkey : i.keys[0]? = some key)
      (hne : key ≠ []) (hstatus : bytesToStatus key = some o.toStatus) : Prior p o db (some i.keys) (db.deleteAll i.keys)
  | promoted (i : Index) (key : Bytes) (status : Status) (h : db.get (idxKey p o.id) = some (.index i))
      (hkey : i.keys[0]? = some key) (hne : key ≠ []) (hstatus : bytesToStatus key = some status) (hlt : status < o.toStatus) :
      Prior p o db none ((db.deleteAll i.keys).delete (idxKey p o.id))

theorem getKeyByIdxKey_of_index {id : PttID} {i : Index}
    (hfree : d.lockMap.get (idxKey p id) = none) (h : d.db.get (idxKey p id) = some (.index i)) (hkey : i.keys[0]? = some key)
    (hne : key ≠ []) : d.getKeyByIdxKey (idxKey p id) 0 = (.ok key, d) := by
  rw [getKeyByIdxKey_of_free hfree, getKeyByIdxKeyCore_ok_iff.2 ⟨.index i, i, h, rfl, hkey, hne⟩]

theorem getKeyByIdxKey_of_absent {id : PttID} (hfree : d.lockMap.get (idxKey p id) = none)
    (h : d.db.get (idxKey p id) = none) : d.getKeyByIdxKey (idxKey p id) 0 = (.error .notFound, d) := by
  rw [getKeyByIdxKey_of_free hfree, getKeyByIdxKeyCore_notFound_iff.2 h]

theorem deleteAll_of_index {id : PttID} {i : Index} (hfree : d.lockMap.get (idxKey p id) = none)
    (h : d.db.get (idxKey p id) = some (.index i)) :
    d.deleteAll (idxKey p id) = (.ok (), d.withDB ((d.db.deleteAll i.keys).delete (idxKey p id))) := by
  rw [deleteAll_of_free hfree, LDBDatabase.deleteAllCore, h]
  rfl

theorem bytesToStatus_le_alive {status : Status} (h : bytesToStatus key = some status) : status ≤ .alive := by
  unfold bytesToStatus at h
  cases hb : key[4]? with
  | none => simp [hb] at h
  | some b =>
    rw [hb, Option.map_some, Option.some.injEq] at h
    rw [← h]
    split_ifs <;> decide

theorem saveCore_of_prior (hfree : d.lockMap.get (idxKey p o.id) = none) (hkvs : StoredKVs p o kvs)
    (hprior : Prior p o d.db origKeys base) :
    ∃ db', o.saveCore p d = (.ok ⟨⟨kvs.map Prod.fst, o.updateTS⟩, kvs⟩, d.withDB db') ∧
      ∀ idx kvs, LDBDatabase.forcePutAllCore (idxKey p o.id) idx kvs db' =
        (.ok origKeys, LDBDatabase.putAllWithKeyIndex (idxKey p o.id) idx kvs base) := by
  obtain ⟨merkleKVs, rfl, hmerkle⟩ := hkvs
  cases hid : o.masterLogID with
  | some id =>
    have halive : o.toStatus = .alive := toStatus_of_masterLogID (by rw [hid]; rfl)
    simp only [hid, Option.isSome_some, if_true] at hmerkle
    simp only [saveCore, storeKey, hid, Option.isSome_some, Option.isNone_some, Bool.false_eq_true, if_false, if_true, hmerkle]
    cases hprior with
    | absent h =>
      refine ⟨d.db, by rw [getKeyByIdxKey_of_absent hfree h]; rfl, fun idx kvs => ?_⟩
      rw [LDBDatabase.forcePutAllCore, h]
    | replaced i key h hkey hne hstatus =>
      refine ⟨d.db, ?_, fun idx kvs => ?_⟩
      · rw [getKeyByIdxKey_of_index hfree h hkey hne]
        simp [hstatus, halive]
      · rw [LDBDatabase.forcePutAllCore, h]
        rfl
    | promoted i key status h hkey hne hstatus hlt =>
      refine ⟨(d.db.deleteAll i.keys).delete (idxKey p o.id), ?_, fun idx kvs => ?_⟩
      · rw [getKeyByIdxKey_of_index hfree h hkey hne]
        have hlower : status ≠ .alive := by
          rintro rfl
          rw [halive] at hlt
          exact absurd hlt (by decide)
        simp only [hstatus, ne_eq, hlower, not_false_eq_true, if_true, deleteAll_of_index hfree h]
      · rw [LDBDatabase.forcePutAllCore, get_delete, if_pos rfl]
  | none =>
    rw [hid] at hmerkle
    simp only [Option.isSome_none, Bool.false_eq_true, if_false] at hmerkle
    subst hmerkle
    simp only [saveCore, saveCorePending, storeKey, hid, Option.isNone_none, Option.isSome_none, Bool.false_eq_true, if_true,
      if_false]
    cases hprior with
    | absent h =>
      refine ⟨d.db, by rw [getKeyByIdxKey_of_absent hfree h]; rfl, fun idx kvs => ?_⟩
      rw [LDBDatabase.forcePutAllCore, h]
    | replaced i key h hkey hne hstatus =>
      refine ⟨d.db, ?_, fun idx kvs => ?_⟩
      · rw [getKeyByIdxKey_of_index hfree h hkey hne]
        simp only [hstatus]
        rw [if_neg (Status.lt_irrefl _), if_neg (Status.lt_irrefl _)]
        rfl
      · rw [LDBDatabase.forcePutAllCore, h]
        rfl
    | promoted i key status h hkey hne hstatus hlt =>
      refine ⟨(d.db.deleteAll i.keys).delete (idxKey p o.id), ?_, fun idx kvs => ?_⟩
      · rw [getKeyByIdxKey_of_index hfree h hkey hne]
        simp only [hstatus]
        rw [if_neg (Status.lt_asymm hlt), if_pos hlt, deleteAll_of_index hfree h]
        rfl
      · rw [LDBDatabase.forcePutAllCore, get_delete, if_pos rfl]

theorem save_of_prior {s : MerkleState} {merkle : Option Merkle} (hfree : s.db.lockMap.get (idxKey p o.id) = none)
    (hkvs : StoredKVs p o.notNewer kvs) (hprior : Prior p o.notNewer s.db.db origKeys base) :
    o.save p merkle s = o.notNewer.setMerkleUpdateTS origKeys merkle
      (s.withEntries (LDBDatabase.putAllWithKeyIndex (idxKey p o.id) ⟨kvs.map Prod.fst, o.updateTS⟩ kvs base)) := by
  obtain ⟨db', hcore, hput⟩ := saveCore_of_prior (o := o.notNewer) hfree hkvs hprior
  simp only [notNewer_id, notNewer_updateTS] at hcore hput
  have hfree' : (s.db.withDB db').lockMap.get (idxKey p o.id) = none := hfree
  have hforce := forcePutAll_of_free hfree' ⟨kvs.map Prod.fst, o.updateTS⟩ kvs
  rw [withDB_db, hput] at hforce
  simp only [save, hcore, hforce]
  rfl

theorem saveCore_of_taken (htaken : d.lockMap.get (idxKey p o.id) ≠ none) : (o.saveCore p d).2 = d := by
  have hdelete := deleteAll_of_taken htaken
  have hget : ∀ {r d'}, d.getKeyByIdxKey (idxKey p o.id) 0 = (r, d') → d' = d := by
    intro r d' h
    rw [← getKeyByIdxKey_snd d (idxKey p o.id) 0, h]
  unfold saveCore saveCorePending
  split_ifs
  · dsimp only
    split
    · exact hget ‹_›
    · exact hget ‹_›
    · obtain rfl := hget ‹_›
      split
      · rfl
      · split_ifs
        · rfl
        · rw [hdelete]
        · rfl
  · dsimp only
    split
    · rfl
    · split
      · exact hget ‹_›
      · exact hget ‹_›
      · obtain rfl := hget ‹_›
        split
        · rfl
        · split_ifs
          · rw [hdelete]
          · rfl

theorem saveCore_cases (hfree : d.lockMap.get (idxKey p o.id) = none) :
    (∃ e, o.saveCore p d = (.error e, d)) ∨
      ∃ kvs origKeys base, StoredKVs p o kvs ∧ Prior p o d.db origKeys base := by
  have hkey := getKeyByIdxKey_of_free hfree 0
  have hfound : ∀ {key}, LDBDatabase.getKeyByIdxKeyCore (idxKey p o.id) 0 d.db = .ok key →
      ∃ i, d.db.get (idxKey p o.id) = some (.index i) ∧ i.keys[0]? = some key ∧ key ≠ [] := by
    intro key h
    obtain ⟨v, i, hv, hi, hkey, hne⟩ := getKeyByIdxKeyCore_ok_iff.1 h
    cases v with
    | index i' =>
      obtain rfl : i' = i := Option.some.inj hi
      exact ⟨i', hv, hkey, hne⟩
    | _ => exact nomatch hi
  cases hid : o.masterLogID with
  | none =>
    have hstored : StoredKVs p o [(o.storeKey p, .oplog o)] := ⟨[], rfl, by simp [hid]⟩
    simp only [saveCore, saveCorePending, hid, Option.isNone_none, if_true, hkey]
    split
    · exact .inr ⟨_, _, _, hstored, .absent (getKeyByIdxKeyCore_notFound_iff.1 (Prod.mk.inj ‹_›).1)⟩
    · obtain ⟨-, rfl⟩ := Prod.mk.inj ‹_ = (Except.error _, _)›
      exact .inl ⟨_, rfl⟩
    · obtain ⟨hok, rfl⟩ := Prod.mk.inj ‹_ = (Except.ok _, _)›
      obtain ⟨i, hi, hkey, hne⟩ := hfound hok
      split
      · exact .inl ⟨_, rfl⟩
      · rename_i status hstatus
        split_ifs with hlt hgt
        · exact .inl ⟨_, rfl⟩
        · exact .inr ⟨_, _, _, hstored, .promoted i _ status hi hkey hne hstatus hgt⟩
        · have heq : status = o.toStatus := Status.eq_of_not_lt hgt hlt
          exact .inr ⟨_, _, _, hstored, .replaced i _ hi hkey hne (heq ▸ hstatus)⟩
  | some id =>
    have halive : o.toStatus = .alive := toStatus_of_masterLogID (by rw [hid]; rfl)
    simp only [saveCore, hid, Option.isNone_some, Bool.false_eq_true, if_false, hkey]
    split
    · exact .inl ⟨_, rfl⟩
    · rename_i merkleKVs hmerkle
      have hstored : StoredKVs p o ((o.storeKey p, .oplog o) :: merkleKVs) := ⟨merkleKVs, rfl, by simpa [hid] using hmerkle⟩
      split
      · exact .inr ⟨_, _, _, hstored, .absent (getKeyByIdxKeyCore_notFound_iff.1 (Prod.mk.inj ‹_›).1)⟩
      · obtain ⟨-, rfl⟩ := Prod.mk.inj ‹_ = (Except.error _, _)›
        exact .inl ⟨_, rfl⟩
      · obtain ⟨hok, rfl⟩ := Prod.mk.inj ‹_ = (Except.ok _, _)›
        obtain ⟨i, hi, hkey, hne⟩ := hfound hok
        split
        · exact .inl ⟨_, rfl⟩
        · rename_i status hstatus
          by_cases hlower : status = .alive
          · exact .inr ⟨_, _, _, hstored, .replaced i _ hi hkey hne (by rw [hstatus, hlower, halive])⟩
          · have hlt : status < o.toStatus := halive ▸ Status.lt_of_le_of_ne (bytesToStatus_le_alive hstatus) hlower
            exact .inr ⟨_, _, _, hstored, .promoted i _ status hi hkey hne hstatus hlt⟩

theorem save_cases (p : OplogDB) (o : BaseOplog) (merkle : Option Merkle) (s : MerkleState) :
    (∃ e, o.save p merkle s = (.error e, s)) ∨ s.db.lockMap.get (idxKey p o.id) = none ∧
      ∃ kvs origKeys base, StoredKVs p o.notNewer kvs ∧ Prior p o.notNewer s.db.db origKeys base := by
  by_cases hfree : s.db.lockMap.get (idxKey p o.id) = none
  · rcases saveCore_cases (p := p) (o := o.notNewer) hfree with ⟨e, he⟩ | hprior
    · exact .inl ⟨e, by simp only [save, he]⟩
    · exact .inr ⟨hfree, hprior⟩
  · left
    have hcore := saveCore_of_taken (p := p) (o := o.notNewer) hfree
    unfold save
    generalize o.notNewer.saveCore p s.db = r at hcore
    obtain ⟨e | item, d⟩ := r
    · obtain rfl : d = s.db := hcore
      exact ⟨e, rfl⟩
    · obtain rfl : d = s.db := hcore
      exact ⟨.busy, by simp only [forcePutAll_of_taken hfree]⟩

theorem setMerkleUpdateTS_frame (o : BaseOplog) (origKeys : Option (List Bytes)) (merkle : Option Merkle) (s : MerkleState) :
    SameOff [.merkleToUpdate] s.db.db (o.setMerkleUpdateTS origKeys merkle s).2.db.db ∧
      (o.setMerkleUpdateTS origKeys merkle s).2.db.lockMap = s.db.lockMap := by
  unfold setMerkleUpdateTS
  cases merkle with
  | none => exact ⟨SameOff.refl _ _, rfl⟩
  | some m =>
    split_ifs
    · exact ⟨SameOff.refl _ _, rfl⟩
    · match origKeys with
      | none => exact ⟨MerkleState.setUpdateTS_sameOff m s _, rfl⟩
      | some [] => exact ⟨SameOff.refl _ _, rfl⟩
      | some (key :: _) =>
        dsimp only
        cases keyToUpdateTS key with
        | error e => exact ⟨SameOff.refl _ _, rfl⟩
        | ok t => exact ⟨MerkleState.setUpdateTS2_sameOff m s _ t, MerkleState.setUpdateTS2_lockMap m s _ t⟩

/-! ## A stored oplog -/

structure Stored (p : OplogDB) (d : LDBDatabase Value) (o : BaseOplog) : Prop where
  free : d.lockMap.get (idxKey p o.id) = none
  index : ∃ i rest, d.db.get (idxKey p o.id) = some (.index i) ∧ i.keys = o.marshalKey p .oplog :: rest
  entry : d.db.get (o.marshalKey p .oplog) = some (.oplog o)

theorem marshalKey_ne_nil : o.marshalKey p part ≠ [] := by
  intro h
  exact not_inPart_nil part (h ▸ inPart_marshalKey part)

theorem Stored.get (h : Stored p d o) : BaseOplog.get p o.id d = .ok o.reload := by
  obtain ⟨i, rest, hi, hkeys⟩ := h.index
  have hkey : i.keys[0]? = some (o.marshalKey p .oplog) := by rw [hkeys]; rfl
  rw [BaseOplog.get, getKeyByIdxKey_of_index h.free hi hkey (marshalKey_ne_nil .oplog)]
  simp only [LDBDatabase.get, h.entry]
  rfl

theorem get_of_absent {id : PttID} (hfree : d.lockMap.get (idxKey p id) = none)
    (h : d.db.get (idxKey p id) = none) : BaseOplog.get p id d = .error .notFound := by
  rw [BaseOplog.get, getKeyByIdxKey_of_absent hfree h]

theorem Stored.prior (h : Stored p d o) (o' : BaseOplog) (hid : o'.id = o.id)
    (halive : o'.masterLogID.isSome) : ∃ keys base, Prior p o' d.db (some keys) base := by
  obtain ⟨i, rest, hi, hkeys⟩ := h.index
  refine ⟨i.keys, _, .replaced i (o.marshalKey p .oplog) (hid ▸ hi) ?_ (marshalKey_ne_nil .oplog) ?_⟩
  · rw [hkeys]
    rfl
  · rw [bytesToStatus_marshalKey, toStatus_of_masterLogID halive]

theorem merkleKVs_cases (h : o.merkleKVs p key = .ok kvs) :
    kvs = [] ∨ o.isSync = true ∧ ∃ addr, kvs = [(o.marshalMerkleKey p, .node ⟨.now, addr, o.updateTS, 0, key⟩)] := by
  unfold merkleKVs at h
  split_ifs at h with hsync
  · cases haddr : hashToAddr o.hash with
    | none => simp [haddr] at h
    | some addr =>
      simp only [haddr, Except.ok.injEq] at h
      exact .inr ⟨(Bool.and_eq_true_iff.1 hsync).1, addr, h.symm⟩
  · rw [Except.ok.injEq] at h
    exact .inl h.symm

theorem eq_of_mem_merkleKVs (h : o.merkleKVs p key = .ok kvs) {k : Bytes}
    (hk : k ∈ kvs.map Prod.fst) : k = o.marshalMerkleKey p := by
  rcases merkleKVs_cases h with rfl | ⟨-, addr, rfl⟩
  · exact absurd hk (by simp)
  · simpa using hk

theorem exists_merkleKVs (key : Bytes) (hhash : 32 ≤ o.hash.length) : ∃ kvs, o.merkleKVs p key = .ok kvs := by
  unfold merkleKVs
  split_ifs
  · simp [hashToAddr, hhash]
  · exact ⟨[], rfl⟩

theorem save_stored {s : MerkleState} (merkle : Option Merkle)
    (hfree : s.db.lockMap.get (idxKey p o.id) = none) (halive : o.masterLogID.isSome) (hhash : 32 ≤ o.hash.length)
    (hprior : Prior p o.notNewer s.db.db origKeys base) : Stored p (o.save p merkle s).2.db o.notNewer := by
  obtain ⟨merkleKVs, hkvs⟩ := exists_merkleKVs (p := p) (o := o.notNewer) (o.notNewer.marshalKey p .oplog) hhash
  have halive' : o.notNewer.masterLogID.isSome = true := halive
  have hstored : StoredKVs p o.notNewer ((o.notNewer.marshalKey p .oplog, .oplog o.notNewer) :: merkleKVs) := by
    refine ⟨merkleKVs, ?_, ?_⟩
    · rw [storeKey, if_pos halive']
    · rw [if_pos halive']
      exact hkvs
  rw [save_of_prior hfree hstored hprior]
  obtain ⟨hsame, hlock⟩ := setMerkleUpdateTS_frame o.notNewer origKeys merkle (s.withEntries
    (LDBDatabase.putAllWithKeyIndex (idxKey p o.id)
      ⟨((o.notNewer.marshalKey p .oplog, Value.oplog o.notNewer) :: merkleKVs).map Prod.fst, o.updateTS⟩
      ((o.notNewer.marshalKey p .oplog, .oplog o.notNewer) :: merkleKVs) base))
  have hmerkle : ∀ k ∈ merkleKVs.map Prod.fst, InPart .merkle k := fun k hk =>
    eq_of_mem_merkleKVs hkvs hk ▸ inPart_marshalMerkleKey
  have hidx := inPart_idxKey (p := p) o.id
  have hkey := inPart_marshalKey (p := p) (o := o.notNewer) .oplog
  have hidx_not : idxKey p o.id ∉ merkleKVs.map Prod.fst := fun h => ne_of_inPart hidx (hmerkle _ h) (by decide) rfl
  have hkey_not : o.notNewer.marshalKey p .oplog ∉ merkleKVs.map Prod.fst := fun h =>
    ne_of_inPart hkey (hmerkle _ h) (by decide) rfl
  refine ⟨?_, ⟨⟨o.notNewer.marshalKey p .oplog :: merkleKVs.map Prod.fst, o.updateTS⟩, merkleKVs.map Prod.fst, ?_, rfl⟩, ?_⟩
  · rw [hlock]
    exact hfree
  · rw [notNewer_id, hsame _ (not_inPart_of hidx (by decide))]
    simp only [MerkleState.withEntries, withDB_db, LDBDatabase.putAllWithKeyIndex, putAll_cons]
    rw [get_putAll_of_not_mem hidx_not, get_put, if_neg (ne_of_inPart hidx hkey (by decide)),
      get_put, if_pos rfl]
    rfl
  · rw [hsame _ (not_inPart_of hkey (by decide))]
    simp only [MerkleState.withEntries, withDB_db, LDBDatabase.putAllWithKeyIndex, putAll_cons]
    rw [get_putAll_of_not_mem hkey_not, get_put, if_pos rfl]

end BaseOplog

end PttaiCore
