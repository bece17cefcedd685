import PttaiCore.Theorems.Journal

/-! # Changes of the leaves and the marked hours -/

namespace PttaiCore

open MerkleState BaseOplog KeyStore LDBDatabase List

variable (m : Merkle)

def IsLeafKey (k : Bytes) : Prop := m.dbPrefix ++ [MerkleTreeLevel.now.toUInt8] <+: k

instance (m : Merkle) (k : Bytes) : Decidable (IsLeafKey m k) := inferInstanceAs (Decidable (_ <+: _))

def leafHour (k : Bytes) : Int64 :=
  (⟨(UInt64.ofNat (Bytes.ofBE ((k.drop 46).take 8))).toInt64, 0⟩ : Timestamp).toHRTimestamp.1.ts

def LeavesDiffer (hour : Int64) (db db' : KeyStore Bytes Value) : Prop :=
  ∃ k, IsLeafKey m k ∧ leafHour k = hour ∧ db'.get k ≠ db.get k

def IndexOK (i : Index) : Prop :=
  (∀ k ∈ i.keys, ¬ IsLeafKey m k) ∨
    ∃ (p : OplogDB) (o : BaseOplog), p.merkle = m ∧ i.keys = [o.marshalKey p .oplog, o.marshalMerkleKey p]

structure StoreOK (m : Merkle) (db : KeyStore Bytes Value) : Prop where
  index : ∀ b id i, db.get (idxKey ⟨m, b⟩ id) = some (.index i) → IndexOK m i

def LeavesMarked (p : OplogDB) (s : MerkleState) (id : PttID) : Prop :=
  ∀ i, s.db.db.get (idxKey p id) = some (.index i) → ∀ k ∈ i.keys, IsLeafKey p.merkle k → leafHour k ∈ s.toUpdateTS

def KeyReadable (p : OplogDB) (s : MerkleState) (id : PttID) : Prop :=
  ∀ i key, s.db.db.get (idxKey p id) = some (.index i) → i.keys[0]? = some key → bytesToStatus key = some .alive →
    ∃ t, keyToUpdateTS key = .ok t

inductive LeafLabel where
  | save (hasMerklePrefix : Bool) (o : BaseOplog)
  | delete (hasMerklePrefix : Bool) (o : BaseOplog)

def LeafStep (s : MerkleState) : LeafLabel → MerkleState → Prop
  | .save b o, s' => s' = (o.save ⟨m, b⟩ (some m) s).2
  | .delete b o, s' => s' = (o.delete ⟨m, b⟩ s).2

def LeafLabel.Safe (s : MerkleState) : LeafLabel → Prop
  | .save b o => o.masterLogID.isSome → if o.isSync then KeyReadable ⟨m, b⟩ s o.id else LeavesMarked ⟨m, b⟩ s o.id
  | .delete b o => LeavesMarked ⟨m, b⟩ s o.id

namespace LeavesAux

variable {p : OplogDB} {o : BaseOplog} {s : MerkleState} {k : Bytes}

/-! ## The keys of leaves -/

variable {m : Merkle} {kvs : List (Bytes × Value)}

theorem inPart_of_isLeafKey (h : IsLeafKey m k) : InPart .merkle k := by
  obtain ⟨r, rfl⟩ := h
  rw [Merkle.dbPrefix, append_assoc, append_assoc]
  exact inPart_partPrefix_append.2 rfl

theorem not_isLeafKey_of_inPart {part : Part} (h : InPart part k) (hp : part ≠ .merkle) : ¬ IsLeafKey m k :=
  fun hk => ne_of_inPart h (inPart_of_isLeafKey hk) hp rfl

theorem not_isLeafKey_storeKey (m : Merkle) : ¬ IsLeafKey m (o.storeKey p) := by
  unfold storeKey pendingKey
  split_ifs
  · exact not_isLeafKey_of_inPart (inPart_marshalKey .oplog) (by decide)
  · split
    · exact not_isLeafKey_of_inPart (inPart_marshalKey .oplogInternal) (by decide)
    · exact not_isLeafKey_of_inPart (inPart_marshalKey .oplogMaster) (by decide)
    · exact fun h => not_inPart_nil .merkle (inPart_of_isLeafKey h)

theorem marshalMerkleKey_eq : o.marshalMerkleKey p =
    (p.merkle.dbPrefix ++ [MerkleTreeLevel.now.toUInt8]) ++ (o.updateTS.marshal ++ (o.id.1 ++ Bytes.be 4 o.op.toNat)) := by
  simp [marshalMerkleKey, Merkle.dbPrefix, keyTail]

theorem leafHour_marshalMerkleKey : leafHour (o.marshalMerkleKey p) = o.updateTS.toHRTimestamp.1.ts := by
  have hlen : (p.merkle.dbPrefix ++ [MerkleTreeLevel.now.toUInt8]).length = 46 := by
    simp [Merkle.dbPrefix, p.merkle.prefixID.2]
  have htake : (((o.updateTS.marshal ++ (o.id.1 ++ Bytes.be 4 o.op.toNat)).take 8)) = Bytes.be 8 o.updateTS.ts.toUInt64.toNat := by
    rw [Timestamp.marshal, append_assoc]
    exact take_left' (Bytes.be_length _ _)
  have hsec : (UInt64.ofNat (Bytes.ofBE (Bytes.be 8 o.updateTS.ts.toUInt64.toNat))).toInt64 = o.updateTS.ts := by
    have hmod : o.updateTS.ts.toUInt64.toNat % 256 ^ 8 = o.updateTS.ts.toUInt64.toNat :=
      Nat.mod_eq_of_lt o.updateTS.ts.toUInt64.toNat_lt
    rw [Bytes.ofBE_be, hmod, UInt64.ofNat_toNat, Int64.toInt64_toUInt64]
  rw [leafHour, marshalMerkleKey_eq, drop_left' hlen, htake, hsec]
  rfl

theorem keyToUpdateTS_marshalKey_eq (p : OplogDB) (o : BaseOplog) : keyToUpdateTS (o.marshalKey p .oplog) =
    if Timestamp.billion ≤ o.updateTS.nanoTs then .error .invalidTimestamp else .ok o.updateTS := by
  have hlen : (p.merkle.partPrefix .oplog ++ p.merkle.prefixID.1).length = 45 := by simp [p.merkle.prefixID.2]
  have hkey : o.marshalKey p .oplog = (p.merkle.partPrefix .oplog ++ p.merkle.prefixID.1) ++ o.keyTail :=
    (append_assoc _ _ _).symm
  have htake : o.keyTail.take 12 = o.updateTS.marshal := take_left' (Timestamp.marshal_length _)
  have hlong : 12 ≤ o.keyTail.length := by simp [keyTail, Timestamp.marshal_length]
  rw [keyToUpdateTS, hkey, if_neg (by rw [length_append, hlen]; omega), drop_left' hlen, htake,
    Timestamp.unmarshal_marshal]

theorem keyToUpdateTS_marshalKey {t : Timestamp} (h : keyToUpdateTS (o.marshalKey p .oplog) = .ok t) : t = o.updateTS := by
  rw [keyToUpdateTS_marshalKey_eq] at h
  split_ifs at h
  exact (Except.ok.inj h).symm

/-! ## What a save changes -/

theorem storedKVs_cases (h : StoredKVs p o kvs) :
    kvs = [(o.storeKey p, .oplog o)] ∨ o.masterLogID.isSome ∧ o.isSync = true ∧
      ∃ n, kvs = [(o.marshalKey p .oplog, .oplog o), (o.marshalMerkleKey p, .node n)] := by
  obtain ⟨merkleKVs, rfl, hmerkle⟩ := h
  split_ifs at hmerkle with hid
  · rcases merkleKVs_cases hmerkle with rfl | ⟨hsync, addr, rfl⟩
    · exact .inl rfl
    · exact .inr ⟨hid, hsync, _, by rw [storeKey, if_pos hid]⟩
  · exact .inl (by rw [hmerkle])

theorem leaf_of_storedKVs (h : StoredKVs p o kvs) (hk : IsLeafKey p.merkle k)
    (hmem : k ∈ kvs.map Prod.fst) : o.masterLogID.isSome ∧ o.isSync = true ∧ k = o.marshalMerkleKey p := by
  rcases storedKVs_cases h with rfl | ⟨hid, hsync, n, rfl⟩
  · rw [map_singleton, mem_singleton] at hmem
    exact absurd (hmem ▸ hk) (not_isLeafKey_storeKey _)
  · refine ⟨hid, hsync, (mem_pair.1 hmem).resolve_left fun heq => ?_⟩
    exact not_isLeafKey_of_inPart (inPart_marshalKey .oplog) (by decide) (heq ▸ hk)

theorem leaf_cases_of_prior {db base : KeyStore Bytes Value} {origKeys : Option (List Bytes)}
    (hkvs : StoredKVs p o kvs) (hprior : Prior p o db origKeys base) (hk : IsLeafKey p.merkle k) (idx : Index)
    (hne : (LDBDatabase.putAllWithKeyIndex (idxKey p o.id) idx kvs base).get k ≠ db.get k) :
    (o.masterLogID.isSome ∧ o.isSync = true ∧ k = o.marshalMerkleKey p) ∨
      ∃ i, db.get (idxKey p o.id) = some (.index i) ∧ k ∈ i.keys := by
  by_cases hmem : k ∈ kvs.map Prod.fst
  · exact .inl (leaf_of_storedKVs hkvs hk hmem)
  · have hidx : k ≠ idxKey p o.id := (ne_of_inPart (inPart_idxKey o.id) (inPart_of_isLeafKey hk) (by decide)).symm
    rw [LDBDatabase.putAllWithKeyIndex, get_putAll_of_not_mem hmem, get_put, if_neg hidx] at hne
    cases hprior with
    | absent h => exact absurd rfl hne
    | replaced i key h _ _ _ =>
      refine .inr ⟨i, h, by_contra fun hnot => hne ?_⟩
      rw [get_deleteAll, if_neg hnot]
    | promoted i key status h _ _ _ _ =>
      refine .inr ⟨i, h, by_contra fun hnot => hne ?_⟩
      rw [get_delete, if_neg hidx, get_deleteAll, if_neg hnot]

theorem setMerkleUpdateTS_subset (o : BaseOplog) (origKeys : Option (List Bytes)) (merkle : Option Merkle) (s : MerkleState) :
    s.toUpdateTS ⊆ (o.setMerkleUpdateTS origKeys merkle s).2.toUpdateTS := by
  unfold setMerkleUpdateTS
  cases merkle with
  | none => exact Finset.Subset.refl _
  | some m =>
    split_ifs
    · exact Finset.Subset.refl _
    · match origKeys with
      | none => exact Finset.subset_insert _ _
      | some [] => exact Finset.Subset.refl _
      | some (key :: _) =>
        dsimp only
        cases keyToUpdateTS key with
        | error e => exact Finset.Subset.refl _
        | ok t =>
          dsimp only
          rw [setUpdateTS2_eq]
          exact (Finset.subset_insert _ _).trans (Finset.subset_insert _ _)

theorem mem_setMerkleUpdateTS (m : Merkle) (hid : o.masterLogID.isSome) (hsync : o.isSync = true) (s : MerkleState) :
    o.updateTS.toHRTimestamp.1.ts ∈ (o.setMerkleUpdateTS none (some m) s).2.toUpdateTS ∧
      ∀ {key keys t}, keyToUpdateTS key = .ok t →
        o.updateTS.toHRTimestamp.1.ts ∈ (o.setMerkleUpdateTS (some (key :: keys)) (some m) s).2.toUpdateTS ∧
          t.toHRTimestamp.1.ts ∈ (o.setMerkleUpdateTS (some (key :: keys)) (some m) s).2.toUpdateTS := by
  have hcond : ¬ (o.masterLogID.isNone || !o.isSync) = true := by
    rw [hsync]
    cases hm : o.masterLogID with
    | none => simp [hm] at hid
    | some _ => simp
  constructor
  · simp only [setMerkleUpdateTS, if_neg hcond]
    exact Finset.mem_insert_self _ _
  · intro key keys t hkey
    simp only [setMerkleUpdateTS, if_neg hcond, hkey, setUpdateTS2_eq]
    exact ⟨Finset.mem_insert_of_mem (Finset.mem_insert_self _ _), Finset.mem_insert_self _ _⟩

theorem masterLogID_of_toStatus (h : o.toStatus = .alive) : o.masterLogID.isSome := by
  unfold toStatus at h
  split_ifs at h with hid
  exact hid

theorem not_alive_lt_toStatus (o : BaseOplog) : ¬ .alive < o.toStatus := by
  unfold toStatus
  split_ifs <;> decide

theorem hour_of_replaced {b : Bool} {i : Index} {base : KeyStore Bytes Value} {origKeys : Option (List Bytes)}
    {s' : MerkleState} (hset : s'.toUpdateTS = s.toUpdateTS) (hstore : StoreOK m s.db.db)
    (hsafe : (LeafLabel.save b o).Safe m s) (hprior : Prior ⟨m, b⟩ o s.db.db origKeys base)
    (hi : s.db.db.get (idxKey ⟨m, b⟩ o.id) = some (.index i)) (hmem : k ∈ i.keys) (hk : IsLeafKey m k) :
    leafHour k ∈ (o.setMerkleUpdateTS origKeys (some m) s').2.toUpdateTS := by
  rcases hstore.index b o.id i hi with hnone | ⟨p, o', rfl, hkeys⟩
  · exact absurd hk (hnone k hmem)
  have hleaf : k = o'.marshalMerkleKey p := by
    rw [hkeys, mem_pair] at hmem
    exact hmem.resolve_left fun heq => not_isLeafKey_of_inPart (inPart_marshalKey .oplog) (by decide) (heq ▸ hk)
  have hhead : i.keys[0]? = some (o'.marshalKey p .oplog) := by rw [hkeys]; rfl
  cases hprior with
  | absent h => exact nomatch h.symm.trans hi
  | promoted i' key status h hkey _ hstatus hlt =>
    obtain rfl : i' = i := by simpa using h.symm.trans hi
    obtain rfl : key = o'.marshalKey p .oplog := Option.some.inj (hkey.symm.trans hhead)
    rw [bytesToStatus_marshalKey, Option.some.injEq] at hstatus
    exact absurd (hstatus ▸ hlt) (not_alive_lt_toStatus o)
  | replaced i' key h hkey _ hstatus =>
    obtain rfl : i' = i := by simpa using h.symm.trans hi
    obtain rfl : key = o'.marshalKey p .oplog := Option.some.inj (hkey.symm.trans hhead)
    rw [bytesToStatus_marshalKey, Option.some.injEq] at hstatus
    have hid := masterLogID_of_toStatus hstatus.symm
    have hsafe := hsafe hid
    split_ifs at hsafe with hsync
    · obtain ⟨t, ht⟩ := hsafe i' _ hi hhead bytesToStatus_marshalKey
      rw [hleaf, leafHour_marshalMerkleKey, ← keyToUpdateTS_marshalKey ht, hkeys]
      exact ((mem_setMerkleUpdateTS p.merkle hid hsync s').2 ht).2
    · exact setMerkleUpdateTS_subset o _ _ s' (hset ▸ hsafe i' hi k hmem hk)

theorem save_marks {b : Bool} (hstore : StoreOK m s.db.db) (hsafe : (LeafLabel.save b o).Safe m s)
    (hk : IsLeafKey m k) (hne : (o.save ⟨m, b⟩ (some m) s).2.db.db.get k ≠ s.db.db.get k) :
    leafHour k ∈ (o.save ⟨m, b⟩ (some m) s).2.toUpdateTS := by
  rcases save_cases ⟨m, b⟩ o (some m) s with ⟨e, he⟩ | ⟨hfree, kvs, origKeys, base, hkvs, hprior⟩
  · rw [he] at hne
    exact absurd rfl hne
  · rw [save_of_prior hfree hkvs hprior] at hne ⊢
    rw [(setMerkleUpdateTS_frame o.notNewer origKeys (some m) _).1 k
      (not_inPart_of (inPart_of_isLeafKey hk) (by decide))] at hne
    rcases leaf_cases_of_prior hkvs hprior hk _ hne with ⟨hid, hsync, rfl⟩ | ⟨i, hi, hmem⟩
    · rw [leafHour_marshalMerkleKey]
      cases hprior with
      | absent _ => exact (mem_setMerkleUpdateTS m hid hsync _).1
      | promoted _ _ _ _ _ _ _ _ => exact (mem_setMerkleUpdateTS m hid hsync _).1
      | replaced i key h hkey _ hstatus =>
        have hread := hsafe hid
        rw [if_pos (show o.isSync = true from hsync)] at hread
        obtain ⟨t, ht⟩ := hread i key h hkey (by rw [hstatus, toStatus_of_masterLogID hid])
        obtain ⟨keys, hkeys⟩ : ∃ keys, i.keys = key :: keys := by
          cases hks : i.keys with
          | nil => simp [hks] at hkey
          | cons a keys => exact ⟨keys, by simpa [hks] using hkey⟩
        rw [hkeys]
        exact ((mem_setMerkleUpdateTS m hid hsync _).2 ht).1
    · exact hour_of_replaced (s := s) (o := o.notNewer) rfl hstore hsafe hprior hi hmem hk

theorem save_subset (p : OplogDB) (o : BaseOplog) (merkle : Option Merkle) (s : MerkleState) :
    s.toUpdateTS ⊆ (o.save p merkle s).2.toUpdateTS := by
  rcases save_cases p o merkle s with ⟨e, he⟩ | ⟨hfree, kvs, origKeys, base, hkvs, hprior⟩
  · rw [he]
  · rw [save_of_prior hfree hkvs hprior]
    intro sec hsec
    exact setMerkleUpdateTS_subset o.notNewer origKeys merkle _ hsec

/-! ## The indexes -/

theorem indexOK_of_storedKVs (h : StoredKVs p o kvs) (ts : Timestamp) :
    IndexOK p.merkle ⟨kvs.map Prod.fst, ts⟩ := by
  rcases storedKVs_cases h with rfl | ⟨-, -, n, rfl⟩
  · refine .inl fun k hk => ?_
    rw [map_singleton, mem_singleton] at hk
    exact hk ▸ not_isLeafKey_storeKey _
  · exact .inr ⟨p, o, rfl, rfl⟩

theorem storeOK_of_sameOff {db db' : KeyStore Bytes Value} {parts : List Part} (h : StoreOK m db) (hsame : SameOff parts db db')
    (hp : .oplogIdx ∉ parts) : StoreOK m db' := by
  refine ⟨fun b id i hi => h.index b id i ?_⟩
  rwa [hsame _ (not_inPart_of (inPart_idxKey id) hp)] at hi

theorem storeOK_of_removed {db db' : KeyStore Bytes Value} (h : StoreOK m db)
    (hget : ∀ k, db'.get k = none ∨ db'.get k = db.get k) : StoreOK m db' := by
  refine ⟨fun b id i hi => ?_⟩
  rcases hget (idxKey ⟨m, b⟩ id) with hnone | hsame
  · exact nomatch hnone.symm.trans hi
  · exact h.index b id i (hsame.symm.trans hi)

theorem storeOK_putAll {db : KeyStore Bytes Value} (h : StoreOK m db)
    (hkvs : ∀ e ∈ kvs, ∀ i, e.2 ≠ .index i) : StoreOK m (db.putAll kvs) := by
  induction kvs generalizing db with
  | nil => exact h
  | cons e kvs ih =>
    refine ih ⟨fun b id i hi => ?_⟩ fun e' he' => hkvs e' (mem_cons_of_mem e he')
    rw [get_put] at hi
    split_ifs at hi
    · exact absurd (Option.some.inj hi) (hkvs e (.head _) i)
    · exact h.index b id i hi

theorem storedKVs_ne_index (h : StoredKVs p o kvs) : ∀ e ∈ kvs, ∀ i, e.2 ≠ .index i := by
  intro e he i hei
  rcases storedKVs_cases h with rfl | ⟨-, -, n, rfl⟩
  · rw [mem_singleton.1 he] at hei
    exact nomatch hei
  · rcases mem_pair.1 he with rfl | rfl <;> exact nomatch hei

theorem storeOK_save (h : StoreOK p.merkle s.db.db) (merkle : Option Merkle) : StoreOK p.merkle (o.save p merkle s).2.db.db := by
  rcases save_cases p o merkle s with ⟨e, he⟩ | ⟨hfree, kvs, origKeys, base, hkvs, hprior⟩
  · rw [he]
    exact h
  · have hbase : StoreOK p.merkle base := by
      cases hprior with
      | absent _ => exact h
      | replaced i _ _ _ _ _ =>
        refine storeOK_of_removed h fun k => ?_
        rw [get_deleteAll]
        split_ifs <;> simp
      | promoted i _ _ _ _ _ _ _ =>
        refine storeOK_of_removed h fun k => ?_
        rw [get_delete, get_deleteAll]
        split_ifs <;> simp
    rw [save_of_prior hfree hkvs hprior]
    refine storeOK_of_sameOff ?_ (setMerkleUpdateTS_frame o.notNewer origKeys merkle _).1 (by decide)
    refine storeOK_putAll ⟨fun b id i hi => ?_⟩ (storedKVs_ne_index hkvs)
    rw [get_put] at hi
    split_ifs at hi
    · obtain rfl : _ = i := by simpa [DBValue.ofIndex] using hi
      exact indexOK_of_storedKVs hkvs o.updateTS
    · exact hbase.index b id i hi

theorem delete_cases (p : OplogDB) (o : BaseOplog) (s : MerkleState) : (o.delete p s).2.db.db = s.db.db ∨
    ∃ i, s.db.db.get (idxKey p o.id) = some (.index i) ∧
      (o.delete p s).2.db.db = (s.db.db.deleteAll i.keys).delete (idxKey p o.id) := by
  change (s.db.deleteAll (idxKey p o.id)).2.db = _ ∨ ∃ i, _ ∧ (s.db.deleteAll (idxKey p o.id)).2.db = _
  by_cases hfree : s.db.lockMap.get (idxKey p o.id) = none
  · rw [deleteAll_of_free hfree, withDB_db, LDBDatabase.deleteAllCore]
    cases hget : s.db.db.get (idxKey p o.id) with
    | none => exact .inl rfl
    | some v =>
      cases v with
      | index i => exact .inr ⟨i, rfl, rfl⟩
      | _ => exact .inl rfl
  · rw [deleteAll_of_taken hfree]
    exact .inl rfl

theorem storeOK_delete (h : StoreOK p.merkle s.db.db) : StoreOK p.merkle (o.delete p s).2.db.db := by
  rcases delete_cases p o s with hsame | ⟨i, -, hdb⟩
  · rw [hsame]
    exact h
  · refine storeOK_of_removed h fun k => ?_
    rw [hdb, get_delete, get_deleteAll]
    split_ifs <;> simp

theorem delete_marks (hsafe : LeavesMarked p s o.id) (hk : IsLeafKey p.merkle k)
    (hne : (o.delete p s).2.db.db.get k ≠ s.db.db.get k) : leafHour k ∈ s.toUpdateTS := by
  rcases delete_cases p o s with hsame | ⟨i, hi, hdb⟩
  · rw [hsame] at hne
    exact absurd rfl hne
  · have hidx : k ≠ idxKey p o.id := (ne_of_inPart (inPart_idxKey o.id) (inPart_of_isLeafKey hk) (by decide)).symm
    rw [hdb, get_delete, if_neg hidx, get_deleteAll] at hne
    split_ifs at hne with hmem
    · exact hsafe i hi k hmem hk
    · exact absurd rfl hne

theorem leafStep_marks {s' : MerkleState} {l : LeafLabel} (hstore : StoreOK m s.db.db)
    (hstep : LeafStep m s l s') (hsafe : l.Safe m s) :
    StoreOK m s'.db.db ∧ s.toUpdateTS ⊆ s'.toUpdateTS ∧
      ∀ k, IsLeafKey m k → s'.db.db.get k ≠ s.db.db.get k → leafHour k ∈ s'.toUpdateTS := by
  cases l with
  | save b o =>
    obtain rfl : s' = _ := hstep
    exact ⟨storeOK_save (p := ⟨m, b⟩) hstore _, save_subset _ o _ s, fun k hk => save_marks (b := b) hstore hsafe hk⟩
  | delete b o =>
    obtain rfl : s' = _ := hstep
    exact ⟨storeOK_delete (p := ⟨m, b⟩) hstore, Finset.Subset.refl _, fun k hk => delete_marks hsafe hk⟩

end LeavesAux

/-- In a run of saves and deletions that are all safe, every hour whose leaves differ from those at the start is marked. -/
theorem changed_hours_marked (m : Merkle) {s s' : MerkleState} {ls : List LeafLabel} (hstore : StoreOK m s.db.db)
    (hrun : Run (fun s l s' => LeafStep m s l s' ∧ l.Safe m s) s ls s') :
    ∀ hour, LeavesDiffer m hour s.db.db s'.db.db → hour ∈ s'.toUpdateTS := by
  have hinv : StoreOK m s'.db.db ∧
      ∀ k, IsLeafKey m k → s'.db.db.get k ≠ s.db.db.get k → leafHour k ∈ s'.toUpdateTS := by
    refine hrun.invariant (I := fun t => StoreOK m t.db.db ∧
      ∀ k, IsLeafKey m k → t.db.db.get k ≠ s.db.db.get k → leafHour k ∈ t.toUpdateTS) ?_ ?_
    · exact ⟨hstore, fun k _ hne => absurd rfl hne⟩
    · rintro t l u ⟨hok, hmarked⟩ ⟨hstep, hsafe⟩
      obtain ⟨hok', hsub, hchanged⟩ := LeavesAux.leafStep_marks hok hstep hsafe
      refine ⟨hok', fun k hk hne => ?_⟩
      by_cases hsame : u.db.db.get k = t.db.db.get k
      · exact hsub (hmarked k hk fun heq => hne (hsame.trans heq))
      · exact hchanged k hk hsame
  rintro hour ⟨k, hk, rfl, hne⟩
  exact hinv.2 k hk hne

theorem storeOK_round (Γ : Ctx) (m : Merkle) {s : MerkleState} (h : StoreOK m s.db.db) (status : Status)
    (now : Timestamp) (order : List Int64) : StoreOK m (pmGenerateOplogMerkleTree Γ m status now order s).2.db.db :=
  LeavesAux.storeOK_of_sameOff h (pmGenerateOplogMerkleTree_sameOff Γ m status now order s) (by decide)

namespace LeavesWitness

open SigningWitness ConvergenceWitness JournalWitness

abbrev store : OplogDB := ⟨merkle, true⟩

variable (ts : Timestamp)

def version : BaseOplog :=
  { BaseOplog.new (idOf 9) none ts (idOf 1) 1 none with
    masterLogID := some (idOf 8), hash := List.replicate 32 3, isSync := false }

def synced : BaseOplog := { version ts with isSync := true }

def leafKey : Bytes := (synced ts).marshalMerkleKey store

def saved : MerkleState := ((synced ts).save store (some merkle) emptyState).2

def moved : MerkleState := ((synced ⟨8000, 0⟩).save store (some merkle) (saved ⟨4000, 0⟩)).2

def regenerated : MerkleState := (pmGenerateOplogMerkleTree ctx merkle .alive now [3600] (saved ts)).2

def deleted : MerkleState := ((synced ⟨4000, 0⟩).delete store (regenerated ⟨4000, 0⟩)).2

def unsynced : MerkleState := ((version ⟨4000, 0⟩).save store (some merkle) (regenerated ⟨4000, 0⟩)).2

def unreadable : MerkleState := ((synced ⟨8000, 0⟩).save store (some merkle) (regenerated ⟨4000, 1000000000⟩)).2

theorem emptyState_storeOK : StoreOK merkle emptyState.db.db := ⟨fun _ _ _ hi => nomatch hi⟩

theorem regenerated_storeOK : StoreOK merkle (regenerated ts).db.db := by
  rw [regenerated, saved]
  exact storeOK_round ctx merkle (LeavesAux.storeOK_save (p := store) emptyState_storeOK _) .alive now [3600]

end LeavesWitness

set_option maxRecDepth 4000 in
open LeavesWitness ConvergenceWitness JournalWitness in
/-- An oplog is saved, then moved to another hour: the new hour is marked. -/
theorem changed_hours_marked_two :
    Run (fun s l s' => LeafStep merkle s l s' ∧ l.Safe merkle s) emptyState
      [.save true (synced ⟨4000, 0⟩), .save true (synced ⟨8000, 0⟩)]
      moved ∧
    (7200 : Int64) ∈ moved.toUpdateTS := by
  have hfirst : KeyReadable store emptyState (synced ⟨4000, 0⟩).id := fun i key hi => nomatch hi
  have hindex : (saved ⟨4000, 0⟩).db.db.get (idxKey store (synced ⟨8000, 0⟩).id) =
      some (.index ⟨[(synced ⟨4000, 0⟩).marshalKey store .oplog, leafKey ⟨4000, 0⟩], ⟨4000, 0⟩⟩) := by decide +kernel
  have hsecond : KeyReadable store (saved ⟨4000, 0⟩) (synced ⟨8000, 0⟩).id := by
    intro i key hi hkey _
    rw [hindex] at hi
    cases hi
    cases hkey
    exact ⟨⟨4000, 0⟩, by decide +kernel⟩
  have hrun : Run (fun s l s' => LeafStep merkle s l s' ∧ l.Safe merkle s) emptyState
      [.save true (synced ⟨4000, 0⟩), .save true (synced ⟨8000, 0⟩)]
      moved :=
    ((Run.nil emptyState).snoc (t := emptyState) ⟨rfl, fun _ => hfirst⟩).snoc (t := saved ⟨4000, 0⟩)
      ⟨rfl, fun _ => hsecond⟩
  refine ⟨hrun, changed_hours_marked merkle emptyState_storeOK hrun 7200 ?_⟩
  exact ⟨leafKey ⟨8000, 0⟩, by decide +kernel, by decide +kernel, by decide +kernel⟩

open LeavesWitness ConvergenceWitness JournalWitness in
/-- A leaf that is deleted, one that is removed by a version that is not synced, and one that is moved from a time that cannot be
read: the hour is not marked. -/
theorem changed_hour_not_marked :
    (StoreOK merkle (regenerated ⟨4000, 0⟩).db.db ∧ StoreOK merkle (regenerated ⟨4000, 1000000000⟩).db.db) ∧
    (LeafStep merkle (regenerated ⟨4000, 0⟩) (.delete true (synced ⟨4000, 0⟩)) deleted ∧
      LeavesDiffer merkle 3600 (regenerated ⟨4000, 0⟩).db.db deleted.db.db ∧ (3600 : Int64) ∉ deleted.toUpdateTS) ∧
    (LeafStep merkle (regenerated ⟨4000, 0⟩) (.save true (version ⟨4000, 0⟩)) unsynced ∧
      LeavesDiffer merkle 3600 (regenerated ⟨4000, 0⟩).db.db unsynced.db.db ∧ (3600 : Int64) ∉ unsynced.toUpdateTS) ∧
    (LeafStep merkle (regenerated ⟨4000, 1000000000⟩) (.save true (synced ⟨8000, 0⟩)) unreadable ∧
      LeavesDiffer merkle 7200 (regenerated ⟨4000, 1000000000⟩).db.db unreadable.db.db ∧
      (7200 : Int64) ∉ unreadable.toUpdateTS) := by
  refine ⟨⟨regenerated_storeOK _, regenerated_storeOK _⟩, ⟨rfl, ?_, by decide +kernel⟩, ⟨rfl, ?_, by decide +kernel⟩,
    rfl, ?_, by decide +kernel⟩
  · exact ⟨leafKey ⟨4000, 0⟩, by decide +kernel, by decide +kernel, by decide +kernel⟩
  · exact ⟨leafKey ⟨4000, 0⟩, by decide +kernel, by decide +kernel, by decide +kernel⟩
  · exact ⟨leafKey ⟨8000, 0⟩, by decide +kernel, by decide +kernel, by decide +kernel⟩

end PttaiCore
