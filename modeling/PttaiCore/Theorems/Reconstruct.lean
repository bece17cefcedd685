import PttaiCore.Reconstruct
import PttaiCore.Theorems.Leaves

/-! # Reconstructing leaves changes oplogs -/

namespace PttaiCore

open MerkleState BaseOplog KeyStore LDBDatabase LeavesAux List

structure OplogsOK (p : OplogDB) (d : LDBDatabase Value) : Prop where
  free : ∀ id, d.lockMap.get (idxKey p id) = none
  alive : ∀ k v, alivePrefix p <+: k → d.db.get k = some v → ∃ o, v = .oplog o ∧ k = o.marshalKey p .oplog ∧
    o.masterLogID.isSome ∧ ∃ i, d.db.get (idxKey p o.id) = some (.index i) ∧
      (i.keys = [o.marshalKey p .oplog] ∨ i.keys = [o.marshalKey p .oplog, o.marshalMerkleKey p])
  index : ∀ id i, d.db.get (idxKey p id) = some (.index i) → ∃ o : BaseOplog, o.id = id ∧ i.keys[0]? = some (o.storeKey p)

def BaseOplog.hour (o : BaseOplog) : Int64 := o.updateTS.toHRTimestamp.1.ts

def ReusedOplog.readAll : ReusedOplog → List BaseOplog → List (BaseOplog × BaseOplog)
  | _, [] => []
  | r, o :: records =>
    let r' := if o.isSync then (r.unmarshal o).saved else r.unmarshal o
    (o, r'.oplog) :: r'.readAll records

structure Reconstructed (p : OplogDB) (s s' : MerkleTimes) : Prop where
  values : ∀ id, BaseOplog.get p id s'.state.db = BaseOplog.get p id s.state.db
  leaves : ∀ k v, IsLeafKey p.merkle k → (s'.state.db.db.get k = some v ↔
    ∃ o ∈ aliveRecords p s.state.db.db, o.isSync = true ∧ k = o.marshalMerkleKey p ∧
      ∃ addr, hashToAddr o.hash = some addr ∧ v = .node ⟨.now, addr, o.updateTS, 0, o.marshalKey p .oplog⟩)
  distinct : ∀ o ∈ aliveRecords p s.state.db.db, ∀ o' ∈ aliveRecords p s.state.db.db,
    o.marshalMerkleKey p = o'.marshalMerkleKey p → o = o'
  marked : ∀ o ∈ aliveRecords p s.state.db.db, o.isSync = true → o.hour ∈ s'.state.toUpdateTS

structure Reconstructible (p : OplogDB) (s : MerkleTimes) : Prop where
  read : ∀ q ∈ ReusedOplog.fresh.readAll (aliveRecords p s.state.db.db), q.1.isSync = true → q.2.reload = q.1.reload
  hash : ∀ o ∈ aliveRecords p s.state.db.db, o.isSync = true → 32 ≤ o.hash.length
  hour : ∀ o ∈ aliveRecords p s.state.db.db, o.isSync = true → o.hour ∈ s.state.toUpdateTS ∨
    ∃ o' ∈ aliveRecords p s.state.db.db, o'.isSync = true ∧ ¬ Timestamp.billion ≤ o'.updateTS.nanoTs ∧ o'.hour = o.hour
  cleaned : ∀ k, IsLeafKey p.merkle k → (s.clean p.merkle).state.db.db.get k ≠ none →
    ∃ o ∈ aliveRecords p s.state.db.db, o.isSync = true ∧ k = o.marshalMerkleKey p

namespace ReconstructAux

variable {m : Merkle} {p : OplogDB} {o r : BaseOplog} {k : Bytes} {s : MerkleState}

/-! ## The keys of an oplog -/

def OwnKey (p : OplogDB) (o : BaseOplog) (k : Bytes) : Prop :=
  k = idxKey p o.id ∨ k = o.marshalKey p .oplog ∨ k = o.marshalMerkleKey p

theorem id_of_keyTail {a b : Bytes} {o o' : BaseOplog} (h : a ++ o.keyTail = b ++ o'.keyTail) : o.id = o'.id := by
  have hlen : ∀ o : BaseOplog, (o.id.1 ++ Bytes.be 4 o.op.toNat).length = 44 := fun o => by simp [o.id.2]
  have htail : o.id.1 ++ Bytes.be 4 o.op.toNat = o'.id.1 ++ Bytes.be 4 o'.op.toNat := by
    rw [keyTail, keyTail, ← append_assoc, ← append_assoc b] at h
    exact (append_inj' h ((hlen o).trans (hlen o').symm)).2
  exact Subtype.ext (append_inj htail (o.id.2.trans o'.id.2.symm)).1

variable {o' : BaseOplog} {l : List BaseOplog}

theorem id_of_marshalKey (h : o.marshalKey p .oplog = o'.marshalKey p .oplog) : o.id = o'.id := by
  rw [marshalKey, marshalKey, ← append_assoc, ← append_assoc] at h
  exact id_of_keyTail h

theorem id_of_marshalMerkleKey (h : o.marshalMerkleKey p = o'.marshalMerkleKey p) : o.id = o'.id := by
  rw [marshalMerkleKey_eq, marshalMerkleKey_eq] at h
  exact id_of_keyTail h

theorem id_of_idxKey {id id' : PttID} (h : idxKey p id = idxKey p id') : id = id' :=
  Subtype.ext (append_cancel_left (append_cancel_left h))

theorem OwnKey.id_eq (h : OwnKey p o k) (h' : OwnKey p o' k) : o.id = o'.id := by
  have hidx := inPart_idxKey (p := p)
  have hkey := fun o : BaseOplog => inPart_marshalKey (p := p) (o := o) .oplog
  have hleaf := fun o : BaseOplog => inPart_marshalMerkleKey (p := p) (o := o)
  rcases h with rfl | rfl | rfl <;> rcases h' with h' | h' | h'
  · exact id_of_idxKey h'
  · exact absurd h' (ne_of_inPart (hidx _) (hkey o') (by decide))
  · exact absurd h' (ne_of_inPart (hidx _) (hleaf o') (by decide))
  · exact absurd h' (ne_of_inPart (hkey o) (hidx _) (by decide))
  · exact id_of_marshalKey h'
  · exact absurd h' (ne_of_inPart (hkey o) (hleaf o') (by decide))
  · exact absurd h' (ne_of_inPart (hleaf o) (hidx _) (by decide))
  · exact absurd h' (ne_of_inPart (hleaf o) (hkey o') (by decide))
  · exact id_of_marshalMerkleKey h'

theorem OwnKey.not_toUpdate (h : OwnKey p o k) : ∀ q ∈ [Part.merkleToUpdate], ¬ InPart q k := by
  rcases h with rfl | rfl | rfl
  · exact not_inPart_of (inPart_idxKey o.id) (by decide)
  · exact not_inPart_of (inPart_marshalKey .oplog) (by decide)
  · exact not_inPart_of inPart_marshalMerkleKey (by decide)

/-! ## One save -/

def Indexed (p : OplogDB) (db : KeyStore Bytes Value) (o : BaseOplog) : Prop :=
  ∃ i, db.get (idxKey p o.id) = some (.index i) ∧
    (i.keys = [o.marshalKey p .oplog] ∨ i.keys = [o.marshalKey p .oplog, o.marshalMerkleKey p])

structure SavedAs (p : OplogDB) (db : KeyStore Bytes Value) (o : BaseOplog) : Prop where
  index : ∃ i, db.get (idxKey p o.id) = some (.index i) ∧ i.keys = [o.marshalKey p .oplog, o.marshalMerkleKey p]
  entry : db.get (o.marshalKey p .oplog) = some (.oplog o)
  leaf : ∃ addr, hashToAddr o.hash = some addr ∧
    db.get (o.marshalMerkleKey p) = some (.node ⟨.now, addr, o.updateTS, 0, o.marshalKey p .oplog⟩)

theorem save_panics (hp : p.hasMerklePrefix = true) (halive : o.masterLogID.isSome) (hsync : o.isSync = true)
    (hhash : ¬ 32 ≤ o.hash.length) (merkle : Option Merkle) : (o.save p merkle s).1 = .error .panic := by
  have hkvs : o.notNewer.merkleKVs p (o.notNewer.marshalKey p .oplog) = .error .panic := by
    simp [merkleKVs, notNewer, hsync, hp, hashToAddr, hhash]
  have hnone : o.notNewer.masterLogID.isNone = false := by
    rw [← Option.not_isSome, show o.notNewer.masterLogID.isSome = true from halive]
    rfl
  simp [save, saveCore, hnone, hkvs]

theorem save_entries (hp : p.hasMerklePrefix = true) (hfree : s.db.lockMap.get (idxKey p o.id) = none)
    (halive : o.masterLogID.isSome) (hsync : o.isSync = true) {addr : ByteArrayOf 20} (haddr : hashToAddr o.hash = some addr)
    (hindex : Indexed p s.db.db o) :
    ∃ db rest, o.save p (some m) s =
        o.notNewer.setMerkleUpdateTS (some (o.marshalKey p .oplog :: rest)) (some m) (s.withEntries db) ∧
      ∀ k, db.get k =
        if k = o.marshalMerkleKey p then some (.node ⟨.now, addr, o.updateTS, 0, o.marshalKey p .oplog⟩)
        else if k = o.marshalKey p .oplog then some (.oplog o.notNewer)
        else if k = idxKey p o.id then some (.index ⟨[o.marshalKey p .oplog, o.marshalMerkleKey p], o.updateTS⟩)
        else s.db.db.get k := by
  obtain ⟨i, hi, hkeys⟩ := hindex
  have halive' : o.notNewer.masterLogID.isSome = true := halive
  have hkvs : StoredKVs p o.notNewer [(o.marshalKey p .oplog, .oplog o.notNewer),
      (o.marshalMerkleKey p, .node ⟨.now, addr, o.updateTS, 0, o.marshalKey p .oplog⟩)] := by
    refine ⟨_, by rw [storeKey, if_pos halive']; rfl, ?_⟩
    rw [if_pos halive', merkleKVs, if_pos (by rw [hp, Bool.and_true]; exact hsync), show o.notNewer.hash = o.hash from rfl, haddr]
    rfl
  obtain ⟨rest, hcons, hlisted⟩ : ∃ rest, i.keys = o.marshalKey p .oplog :: rest ∧
      ∀ k ∈ i.keys, k = o.marshalKey p .oplog ∨ k = o.marshalMerkleKey p := by
    rcases hkeys with h | h
    · exact ⟨[], h, by rw [h]; simp⟩
    · exact ⟨[_], h, by rw [h]; simp⟩
  have hprior : Prior p o.notNewer s.db.db (some i.keys) (s.db.db.deleteAll i.keys) := by
    refine .replaced i _ hi (by rw [hcons]; rfl) (marshalKey_ne_nil .oplog) ?_
    rw [bytesToStatus_marshalKey, toStatus_of_masterLogID halive']
  refine ⟨_, rest, by rw [save_of_prior hfree hkvs hprior, hcons], fun k => ?_⟩
  simp only [LDBDatabase.putAllWithKeyIndex, putAll_cons, putAll_nil, get_put, map_cons,
    map_nil]
  split_ifs with hleaf hkey
  · rfl
  · rfl
  · rfl
  · rw [← hcons, get_deleteAll, if_neg fun hmem => (hlisted k hmem).elim hkey hleaf]

theorem setMerkleUpdateTS_again (halive : o.masterLogID.isSome) (hsync : o.isSync = true) (rest : List Bytes) (s : MerkleState) :
    (o.setMerkleUpdateTS (some (o.marshalKey p .oplog :: rest)) (some m) s).1 ≠ .error .panic ∧
      ∀ h, h ∈ (o.setMerkleUpdateTS (some (o.marshalKey p .oplog :: rest)) (some m) s).2.toUpdateTS ↔
        h ∈ s.toUpdateTS ∨ ¬ Timestamp.billion ≤ o.updateTS.nanoTs ∧ o.hour = h := by
  have hcond : ¬ (o.masterLogID.isNone || !o.isSync) = true := by
    rw [hsync, Bool.not_true, Bool.or_false, Option.isNone_iff_eq_none, ← Option.not_isSome_iff_eq_none, not_not]
    exact halive
  simp only [setMerkleUpdateTS, if_neg hcond, keyToUpdateTS_marshalKey_eq]
  split_ifs with hnano
  · exact ⟨by simp, fun h => by simp [hnano]⟩
  · refine ⟨by simp, fun h => ?_⟩
    simp only [setUpdateTS2_eq, setUpdateTS, Finset.mem_insert, not_false_eq_true, hnano, true_and, hour, eq_comm (a := h)]
    tauto

theorem save_again (hp : p.hasMerklePrefix = true) (hfree : s.db.lockMap.get (idxKey p o.id) = none) (halive : o.masterLogID.isSome)
    (hsync : o.isSync = true) (hhash : 32 ≤ o.hash.length) (hindex : Indexed p s.db.db o) :
    (o.save p (some m) s).1 ≠ .error .panic ∧ (o.save p (some m) s).2.db.lockMap = s.db.lockMap ∧
      SavedAs p (o.save p (some m) s).2.db.db o.notNewer ∧
      (∀ k, ¬ InPart .merkleToUpdate k → ¬ OwnKey p o k → (o.save p (some m) s).2.db.db.get k = s.db.db.get k) ∧
      ∀ h, h ∈ (o.save p (some m) s).2.toUpdateTS ↔
        h ∈ s.toUpdateTS ∨ ¬ Timestamp.billion ≤ o.updateTS.nanoTs ∧ o.hour = h := by
  obtain ⟨addr, haddr⟩ : ∃ addr, hashToAddr o.hash = some addr := by simp [hashToAddr, hhash]
  obtain ⟨db, rest, heq, hget⟩ := save_entries (m := m) hp hfree halive hsync haddr hindex
  rw [heq]
  obtain ⟨hsame, hlock⟩ := setMerkleUpdateTS_frame o.notNewer (some (o.marshalKey p .oplog :: rest)) (some m) (s.withEntries db)
  obtain ⟨hok, hmarks⟩ := setMerkleUpdateTS_again (p := p) (m := m) (o := o.notNewer) halive hsync rest (s.withEntries db)
  have hown : ∀ {k}, OwnKey p o k → _ = db.get k := fun h => hsame _ h.not_toUpdate
  have hidx_key : idxKey p o.id ≠ o.marshalKey p .oplog := ne_of_inPart (inPart_idxKey _) (inPart_marshalKey .oplog) (by decide)
  have hidx_leaf : idxKey p o.id ≠ o.marshalMerkleKey p := ne_of_inPart (inPart_idxKey _) inPart_marshalMerkleKey (by decide)
  have hkey_leaf : o.marshalKey p .oplog ≠ o.marshalMerkleKey p :=
    ne_of_inPart (inPart_marshalKey .oplog) inPart_marshalMerkleKey (by decide)
  refine ⟨hok, hlock, ⟨⟨⟨[o.marshalKey p .oplog, o.marshalMerkleKey p], o.updateTS⟩, ?_, rfl⟩, ?_, addr, haddr, ?_⟩,
    fun k hk hnot => ?_, hmarks⟩
  · exact (hown (.inl rfl)).trans (by rw [hget, if_neg hidx_leaf, if_neg hidx_key, if_pos rfl])
  · exact (hown (.inr (.inl rfl))).trans (by rw [hget, if_neg hkey_leaf, if_pos rfl])
  · exact (hown (.inr (.inr rfl))).trans (by rw [hget, if_pos rfl]; rfl)
  · rw [hsame k (by simpa using hk)]
    exact (hget k).trans (by rw [if_neg fun h => hnot (.inr (.inr h)), if_neg fun h => hnot (.inr (.inl h)),
      if_neg fun h => hnot (.inl h)])

/-! ## The loop -/

theorem Indexed.congr {db db' : KeyStore Bytes Value} (h : Indexed p db o) (hsame : ∀ k, OwnKey p o k → db'.get k = db.get k) :
    Indexed p db' o := by
  obtain ⟨i, hi, hkeys⟩ := h
  exact ⟨i, (hsame _ (.inl rfl)).trans hi, hkeys⟩

theorem SavedAs.congr {db db' : KeyStore Bytes Value} (h : SavedAs p db o) (hsame : ∀ k, OwnKey p o k → db'.get k = db.get k) :
    SavedAs p db' o := by
  obtain ⟨⟨i, hi, hkeys⟩, hentry, addr, haddr, hleaf⟩ := h
  exact ⟨⟨i, (hsame _ (.inl rfl)).trans hi, hkeys⟩, (hsame _ (.inr (.inl rfl))).trans hentry, addr, haddr,
    (hsame _ (.inr (.inr rfl))).trans hleaf⟩

theorem mem_readAll {q : BaseOplog × BaseOplog} {r : ReusedOplog} (h : q ∈ r.readAll l) :
    q.1 ∈ l ∧ q.2.id = q.1.id ∧ q.2.updateTS = q.1.updateTS ∧ q.2.op = q.1.op := by
  induction l generalizing r with
  | nil => cases h
  | cons o l ih =>
    rcases mem_cons.1 h with rfl | h
    · refine ⟨(.head _), ?_⟩
      split_ifs <;> exact ⟨rfl, rfl, rfl⟩
    · exact (ih h).imp_left (mem_cons_of_mem o)

theorem exists_mem_readAll (r : ReusedOplog) (h : o ∈ l) : ∃ o', (o, o') ∈ r.readAll l := by
  induction l generalizing r with
  | nil => cases h
  | cons a l ih =>
    rcases mem_cons.1 h with rfl | h
    · exact ⟨_, (.head _)⟩
    · obtain ⟨o', ho'⟩ := ih (if a.isSync then (r.unmarshal a).saved else r.unmarshal a) h
      exact ⟨o', .tail _ ho'⟩

theorem masterLogID_unmarshal {r : ReusedOplog} (h : o.masterLogID.isSome) : (r.unmarshal o).oplog.masterLogID.isSome := by
  obtain ⟨id, hid⟩ := Option.isSome_iff_exists.1 h
  simp [ReusedOplog.unmarshal, hid]

structure SavedAll (p : OplogDB) (l : List (BaseOplog × BaseOplog)) (s s' : MerkleState) : Prop where
  lockMap : s'.db.lockMap = s.db.lockMap
  saved : ∀ q ∈ l, q.1.isSync = true → SavedAs p s'.db.db q.2
  kept : ∀ k, ¬ InPart .merkleToUpdate k → (∀ q ∈ l, q.1.isSync = true → ¬ OwnKey p q.1 k) → s'.db.db.get k = s.db.db.get k
  marked : ∀ h, h ∈ s'.toUpdateTS ↔
    h ∈ s.toUpdateTS ∨ ∃ q ∈ l, q.1.isSync = true ∧ ¬ Timestamp.billion ≤ q.1.updateTS.nanoTs ∧ q.1.hour = h

theorem loop_savedAll (hp : p.hasMerklePrefix = true) {r : ReusedOplog}
    (hfree : ∀ id, s.db.lockMap.get (idxKey p id) = none) (hids : l.Pairwise fun o o' => o.id ≠ o'.id)
    (hl : ∀ o ∈ l, o.masterLogID.isSome ∧ Indexed p s.db.db o)
    (hlong : ∀ q ∈ r.readAll l, q.1.isSync = true → 32 ≤ q.2.hash.length) :
    ∃ s', forceReconstructMerkleLoop p m l r s = some s' ∧ SavedAll p (r.readAll l) s s' := by
  induction l generalizing r s with
  | nil => exact ⟨s, rfl, ⟨rfl, fun q hq => absurd hq not_mem_nil, fun _ _ _ => rfl, by simp [ReusedOplog.readAll]⟩⟩
  | cons o l ih =>
    obtain ⟨hne, hids⟩ := pairwise_cons.1 hids
    rw [ReusedOplog.readAll] at hlong ⊢
    rw [forceReconstructMerkleLoop]
    cases hsync : o.isSync with
    | false =>
      rw [hsync] at hlong
      have hskip : (r.unmarshal o).oplog.isSync = false := hsync
      obtain ⟨s', hs', hall⟩ := ih hfree hids (fun a ha => hl a (mem_cons_of_mem o ha))
        fun q hq => hlong q (.tail _ hq)
      refine ⟨s', by rw [hskip]; exact hs', hall.lockMap, fun q hq hq1 => ?_, fun k hk hnot => ?_, fun h => ?_⟩
      · rcases mem_cons.1 hq with rfl | hq
        · exact absurd (hsync.symm.trans hq1) (by decide)
        · exact hall.saved q hq hq1
      · exact hall.kept k hk fun q hq => hnot q (.tail _ hq)
      · rw [hall.marked h]
        simp [hsync]
    | true =>
      rw [hsync] at hlong
      have hsync' : (r.unmarshal o).oplog.isSync = true := hsync
      obtain ⟨halive, hindex⟩ := hl o mem_cons_self
      obtain ⟨hok, hlock, hsaved, hkept, hmarks⟩ := save_again (m := m) (o := (r.unmarshal o).oplog) hp (hfree o.id)
        (masterLogID_unmarshal halive) hsync' (hlong _ (.head _) hsync) hindex
      have hothers : ∀ a ∈ l, ∀ k, OwnKey p a k → _ = s.db.db.get k := fun a ha k hk =>
        hkept k (by simpa using hk.not_toUpdate) fun hown => hne a ha (hown.id_eq hk)
      obtain ⟨s', hs', hall⟩ := ih (s := ((r.unmarshal o).oplog.save p (some m) s).2) (r := (r.unmarshal o).saved)
        (fun id => by rw [hlock]; exact hfree id) hids
        (fun a ha => ⟨(hl a (mem_cons_of_mem o ha)).1, (hl a (mem_cons_of_mem o ha)).2.congr (hothers a ha)⟩)
        fun q hq => hlong q (.tail _ hq)
      refine ⟨s', by rw [hsync', if_neg (by decide), if_neg hok]; exact hs', hall.lockMap.trans hlock, fun q hq hq1 => ?_,
        fun k hk hnot => ?_, fun h => ?_⟩
      · rcases mem_cons.1 hq with rfl | hq
        · refine hsaved.congr fun k hk => hall.kept k (by simpa using hk.not_toUpdate) fun q hq _ hown => ?_
          exact hne q.1 (mem_readAll hq).1 (hk.id_eq hown)
        · exact hall.saved q hq hq1
      · rw [hall.kept k hk fun q hq => hnot q (mem_cons_of_mem _ hq)]
        exact hkept k hk (hnot _ (.head _) hsync)
      · rw [hall.marked h, hmarks h, exists_mem_cons_iff, or_assoc]
        simp only [hsync, true_and]
        rfl

theorem loop_long (hp : p.hasMerklePrefix = true) {r : ReusedOplog} {s' : MerkleState}
    (hl : ∀ o ∈ l, o.masterLogID.isSome) (h : forceReconstructMerkleLoop p m l r s = some s') :
    ∀ q ∈ r.readAll l, q.1.isSync = true → 32 ≤ q.2.hash.length := by
  induction l generalizing r s with
  | nil =>
    intro q hq
    cases hq
  | cons o l ih =>
    rw [forceReconstructMerkleLoop] at h
    rw [ReusedOplog.readAll]
    dsimp only at h ⊢
    have hl' := fun a ha => hl a (mem_cons_of_mem o ha)
    intro q hq hq1
    cases hsync : o.isSync with
    | false =>
      rw [hsync] at hq
      rw [show (r.unmarshal o).oplog.isSync = false from hsync] at h
      rcases mem_cons.1 hq with rfl | hq
      · exact absurd (hsync.symm.trans hq1) (by decide)
      · exact ih hl' h q hq hq1
    | true =>
      rw [hsync] at hq
      rw [show (r.unmarshal o).oplog.isSync = true from hsync, if_neg (by decide)] at h
      split_ifs at h with hpanic
      rcases mem_cons.1 hq with rfl | hq
      · exact by_contra fun hshort => hpanic (save_panics hp (masterLogID_unmarshal (hl o (.head _))) hsync hshort (some m))
      · exact ih hl' h q hq hq1

/-! ## Cleaning -/

theorem cleanLevel_sameOff (m : Merkle) (level : MerkleTreeLevel) (db : KeyStore Bytes Value) :
    SameOff [.merkle, .merkleMeta] db (MerkleTimes.cleanLevel m level db) := by
  intro k hk
  rw [MerkleTimes.cleanLevel, get_deleteAll, if_neg]
  intro hmem
  obtain ⟨e, he, rfl⟩ := mem_map.1 hmem
  obtain ⟨-, hlo, hhi⟩ := mem_range.1 he
  obtain ⟨rest, hrest⟩ := Bytes.prefix_of_between hlo hhi
  exact hk .merkle (by simp) (hrest ▸ inPart_partPrefix_append.2 rfl)

theorem clean_sameOff (m : Merkle) (s : MerkleTimes) :
    SameOff [.merkle, .merkleMeta] s.state.db.db (s.clean m).state.db.db := by
  have hlevels : ∀ (levels : List MerkleTreeLevel) db, SameOff [.merkle, .merkleMeta] s.state.db.db db →
      SameOff [.merkle, .merkleMeta] s.state.db.db (levels.foldl (fun db level => MerkleTimes.cleanLevel m level db) db) := by
    intro levels
    induction levels with
    | nil => exact fun db h => h
    | cons level levels ih => exact fun db h => ih _ (h.trans (cleanLevel_sameOff m level db))
  have hmeta : ∀ r, InPart .merkleMeta (m.partPrefix .merkleMeta ++ r) := fun r => inPart_partPrefix_append.2 rfl
  exact (((hlevels _ _ (SameOff.refl _ _)).delete (hmeta _) (by simp)).delete (hmeta _) (by simp)).delete (hmeta _) (by simp)

theorem clean_lockMap (m : Merkle) (s : MerkleTimes) : (s.clean m).state.db.lockMap = s.state.db.lockMap := by
  simp only [MerkleTimes.clean, MerkleTimes.withDatabase, withDB_lockMap]

theorem clean_toUpdateTS (m : Merkle) (s : MerkleTimes) : (s.clean m).state.toUpdateTS = s.state.toUpdateTS := by
  simp only [MerkleTimes.clean, MerkleTimes.withDatabase]

/-! ## The records of a store -/

theorem inPart_of_alive (h : alivePrefix p <+: k) : InPart .oplog k := by
  obtain ⟨rest, rfl⟩ := h
  rw [alivePrefix, append_assoc]
  exact inPart_partPrefix_append.2 rfl

theorem mem_aliveRecords {db : KeyStore Bytes Value} :
    o ∈ aliveRecords p db ↔ ∃ k, db.get k = some (.oplog o) ∧ alivePrefix p <+: k := by
  rw [aliveRecords, mem_filterMap]
  constructor
  · rintro ⟨⟨k, v⟩, he, ho⟩
    obtain ⟨hget, hk⟩ := mem_select.1 he
    cases v with
    | oplog o' =>
      cases ho
      exact ⟨k, hget, List.isPrefixOf_iff_prefix.1 hk⟩
    | _ => cases ho
  · rintro ⟨k, hget, hk⟩
    exact ⟨(k, .oplog o), mem_select.2 ⟨hget, List.isPrefixOf_iff_prefix.2 hk⟩, rfl⟩

variable {d : LDBDatabase Value}

theorem record_ok (h : OplogsOK p d) (ho : o ∈ aliveRecords p d.db) :
    d.db.get (o.marshalKey p .oplog) = some (.oplog o) ∧ o.masterLogID.isSome ∧ Indexed p d.db o := by
  obtain ⟨k, hget, hk⟩ := mem_aliveRecords.1 ho
  obtain ⟨o', ho', rfl, halive, hindex⟩ := h.alive k _ hk hget
  cases ho'
  exact ⟨hget, halive, hindex⟩

theorem record_stored (h : OplogsOK p d) (ho : o ∈ aliveRecords p d.db) : Stored p d o := by
  obtain ⟨hget, -, i, hi, hkeys⟩ := record_ok h ho
  rcases hkeys with hkeys | hkeys
  · exact ⟨h.free o.id, ⟨i, _, hi, hkeys⟩, hget⟩
  · exact ⟨h.free o.id, ⟨i, _, hi, hkeys⟩, hget⟩

theorem marshalKey_eq_of_id (h : OplogsOK p d) (ho : o ∈ aliveRecords p d.db) (ho' : o' ∈ aliveRecords p d.db)
    (hid : o.id = o'.id) : o.marshalKey p .oplog = o'.marshalKey p .oplog := by
  obtain ⟨i, rest, hi, hkeys⟩ := (record_stored h ho).index
  obtain ⟨i', rest', hi', hkeys'⟩ := (record_stored h ho').index
  cases hi.symm.trans (hid ▸ hi')
  exact (List.cons.inj (hkeys.symm.trans hkeys')).1

theorem eq_of_id (h : OplogsOK p d) (ho : o ∈ aliveRecords p d.db) (ho' : o' ∈ aliveRecords p d.db)
    (hid : o.id = o'.id) : o = o' := by
  have hget := (record_ok h ho).1
  rw [marshalKey_eq_of_id h ho ho' hid, (record_ok h ho').1] at hget
  cases hget
  rfl

theorem records_ids (h : OplogsOK p d) : (aliveRecords p d.db).Pairwise fun o o' => o.id ≠ o'.id := by
  rw [aliveRecords, pairwise_filterMap]
  refine (select_sorted d.db _).imp_of_mem fun {e e'} he he' hlt o ho o' ho' hid => ?_
  have hkey : ∀ {e : Bytes × Value} {o : BaseOplog}, e ∈ d.db.select (fun k => (alivePrefix p).isPrefixOf k) →
      e.2.record = some o → o ∈ aliveRecords p d.db ∧ e.1 = o.marshalKey p .oplog := by
    rintro ⟨k, v⟩ o he ho
    refine ⟨mem_filterMap.2 ⟨(k, v), he, ho⟩, ?_⟩
    obtain ⟨hget, hk⟩ := mem_select.1 he
    obtain ⟨o', rfl, hk', -⟩ := h.alive k v (List.isPrefixOf_iff_prefix.1 hk) hget
    cases ho
    exact hk'
  obtain ⟨hmem, heq⟩ := hkey he ho
  obtain ⟨hmem', heq'⟩ := hkey he' ho'
  rw [heq, heq', marshalKey_eq_of_id h hmem hmem' hid] at hlt
  exact lt_irrefl _ hlt

theorem aliveRecords_congr {db' : KeyStore Bytes Value} {parts : List Part} (hsame : SameOff parts d.db db') (hp : .oplog ∉ parts) :
    aliveRecords p db' = aliveRecords p d.db := by
  rw [aliveRecords, select_congr fun k hk => hsame k
    (not_inPart_of (inPart_of_alive (List.isPrefixOf_iff_prefix.1 hk)) hp)]
  rfl

/-! ## What an identifier gives -/

theorem get_congr {d' : LDBDatabase Value} {id : PttID} (hfree : d.lockMap.get (idxKey p id) = none)
    (hfree' : d'.lockMap.get (idxKey p id) = none) (hidx : d'.db.get (idxKey p id) = d.db.get (idxKey p id))
    (hkey : ∀ i key, d.db.get (idxKey p id) = some (.index i) → i.keys[0]? = some key → d'.db.get key = d.db.get key) :
    BaseOplog.get p id d' = BaseOplog.get p id d := by
  have hcore : LDBDatabase.getKeyByIdxKeyCore (idxKey p id) 0 d'.db = LDBDatabase.getKeyByIdxKeyCore (idxKey p id) 0 d.db := by
    rw [LDBDatabase.getKeyByIdxKeyCore, hidx]
    rfl
  simp only [BaseOplog.get, getKeyByIdxKey_of_free hfree, getKeyByIdxKey_of_free hfree', hcore]
  cases hres : LDBDatabase.getKeyByIdxKeyCore (idxKey p id) 0 d.db with
  | error e => rfl
  | ok key =>
    obtain ⟨v, i, hv, hi, hk, -⟩ := getKeyByIdxKeyCore_ok_iff.1 hres
    cases v with
    | index j =>
      cases hi
      simp only [LDBDatabase.get, hkey i key hv hk]
    | _ => cases hi

theorem not_ownKey_storeKey (hid : o'.id ≠ o.id) : ¬ OwnKey p o' (o.storeKey p) := by
  intro h
  have hpending : ∀ {k}, OwnKey p o' k → InPart .oplogInternal k ∨ InPart .oplogMaster k ∨ k = [] → False := by
    intro k h hk
    have hparts : ∃ q, InPart q k ∧ (q = .oplogIdx ∨ q = .oplog ∨ q = .merkle) := by
      rcases h with rfl | rfl | rfl
      · exact ⟨_, inPart_idxKey o'.id, .inl rfl⟩
      · exact ⟨_, inPart_marshalKey .oplog, .inr (.inl rfl)⟩
      · exact ⟨_, inPart_marshalMerkleKey, .inr (.inr rfl)⟩
    obtain ⟨q, hq, hcases⟩ := hparts
    rcases hk with hk | hk | rfl
    · exact ne_of_inPart hk hq (by rintro rfl; simp at hcases) rfl
    · exact ne_of_inPart hk hq (by rintro rfl; simp at hcases) rfl
    · exact not_inPart_nil q hq
  unfold storeKey pendingKey at h
  split_ifs at h
  · exact hid (h.id_eq (.inr (.inl rfl)))
  · split at h
    · exact hpending h (.inl (inPart_marshalKey .oplogInternal))
    · exact hpending h (.inr (.inl (inPart_marshalKey .oplogMaster)))
    · exact hpending h (.inr (.inr rfl))

theorem not_inPart_storeKey {part : Part} (h : part ∉ [Part.oplog, .oplogInternal, .oplogMaster]) : ¬ InPart part (o.storeKey p) := by
  have hne : ∀ q ∈ [Part.oplog, .oplogInternal, .oplogMaster], ∀ {k}, InPart q k → ¬ InPart part k := fun q hq k hk hk' =>
    ne_of_inPart hk hk' (fun heq => h (heq ▸ hq)) rfl
  unfold storeKey pendingKey
  split_ifs
  · exact hne _ (by simp) (inPart_marshalKey .oplog)
  · split
    · exact hne _ (by simp) (inPart_marshalKey .oplogInternal)
    · exact hne _ (by simp) (inPart_marshalKey .oplogMaster)
    · exact not_inPart_nil part

/-! ## The whole reconstruction -/

section reconstruction

variable {t t' : MerkleTimes}

abbrev reads (p : OplogDB) (t : MerkleTimes) : List (BaseOplog × BaseOplog) :=
  ReusedOplog.fresh.readAll (aliveRecords p t.state.db.db)

theorem core_eq (t : MerkleTimes) : forceReconstructMerkleCore p (some p.merkle) t =
    (forceReconstructMerkleLoop p p.merkle (aliveRecords p t.state.db.db) .fresh (t.clean p.merkle).state).map
      fun state => { t.clean p.merkle with state } := by
  rw [forceReconstructMerkleCore, aliveRecords_congr (clean_sameOff p.merkle t) (by decide)]

theorem core_savedAll (hp : p.hasMerklePrefix = true) (h : OplogsOK p t.state.db)
    (hlong : ∀ q ∈ reads p t, q.1.isSync = true → 32 ≤ q.2.hash.length) :
    ∃ t', forceReconstructMerkleCore p (some p.merkle) t = some t' ∧
      SavedAll p (reads p t) (t.clean p.merkle).state t'.state := by
  have hl : ∀ o ∈ aliveRecords p t.state.db.db, o.masterLogID.isSome ∧ Indexed p (t.clean p.merkle).state.db.db o := by
    intro o ho
    obtain ⟨-, halive, i, hi, hkeys⟩ := record_ok h ho
    refine ⟨halive, i, ?_, hkeys⟩
    rw [clean_sameOff p.merkle t _ (not_inPart_of (inPart_idxKey o.id) (by decide)), hi]
  obtain ⟨state, hstate, hall⟩ := loop_savedAll (m := p.merkle) (s := (t.clean p.merkle).state) hp
    (fun id => by rw [clean_lockMap, h.free id]) (records_ids h) hl hlong
  exact ⟨{ t.clean p.merkle with state }, by rw [core_eq, hstate, Option.map_some], hall⟩

theorem values_iff (h : OplogsOK p t.state.db) (hall : SavedAll p (reads p t) (t.clean p.merkle).state t'.state) :
    (∀ id, BaseOplog.get p id t'.state.db = BaseOplog.get p id t.state.db) ↔
      ∀ q ∈ reads p t, q.1.isSync = true → q.2.reload = q.1.reload := by
  have hfree : ∀ id, t'.state.db.lockMap.get (idxKey p id) = none := fun id => by
    rw [hall.lockMap, clean_lockMap, h.free id]
  have hnew : ∀ q ∈ reads p t, q.1.isSync = true → BaseOplog.get p q.1.id t'.state.db = .ok q.2.reload := by
    intro q hq hsync
    obtain ⟨⟨i, hi, hkeys⟩, hentry, -⟩ := hall.saved q hq hsync
    rw [← (mem_readAll hq).2.1]
    exact Stored.get ⟨hfree _, ⟨i, _, hi, hkeys⟩, hentry⟩
  have hold : ∀ q ∈ reads p t, BaseOplog.get p q.1.id t.state.db = .ok q.1.reload := fun q hq =>
    (record_stored h (mem_readAll hq).1).get
  constructor
  · intro hvalues q hq hsync
    have heq := hvalues q.1.id
    rw [hnew q hq hsync, hold q hq] at heq
    exact Except.ok.inj heq
  · intro hread id
    by_cases hid : ∃ q ∈ reads p t, q.1.isSync = true ∧ q.1.id = id
    · obtain ⟨q, hq, hsync, rfl⟩ := hid
      rw [hnew q hq hsync, hold q hq, hread q hq hsync]
    · have hkept : ∀ o : BaseOplog, o.id = id → ∀ k, ¬ InPart .merkleToUpdate k → ¬ InPart .merkle k → ¬ InPart .merkleMeta k →
          (∀ o' : BaseOplog, o'.id ≠ o.id → ¬ OwnKey p o' k) → t'.state.db.db.get k = t.state.db.db.get k := by
        rintro o rfl k h1 h2 h3 hown
        rw [hall.kept k h1 fun q hq hsync => hown q.1 fun heq => hid ⟨q, hq, hsync, heq⟩]
        exact clean_sameOff p.merkle t k (by simp [h2, h3])
      have hidx : t'.state.db.db.get (idxKey p id) = t.state.db.db.get (idxKey p id) := by
        have hnot := fun part (hpart : Part.oplogIdx ∉ [part]) => not_inPart_of (inPart_idxKey (p := p) id) hpart part (by simp)
        refine hkept { ReusedOplog.fresh.oplog with id } rfl _ (hnot _ (by decide)) (hnot _ (by decide)) (hnot _ (by decide))
          fun o' hne hown => hne (hown.id_eq (.inl rfl))
      refine get_congr (h.free id) (hfree id) hidx fun i key hi hkey => ?_
      obtain ⟨o, rfl, hstore⟩ := h.index id i hi
      cases hkey.symm.trans hstore
      exact hkept o rfl _ (not_inPart_storeKey (by decide)) (not_inPart_storeKey (by decide)) (not_inPart_storeKey (by decide))
        fun o' hne => not_ownKey_storeKey hne

theorem eq_leaf_of_ownKey (hk : IsLeafKey p.merkle k) (h : OwnKey p o k) : k = o.marshalMerkleKey p := by
  rcases h with rfl | rfl | h
  · exact absurd hk (not_isLeafKey_of_inPart (inPart_idxKey o.id) (by decide))
  · exact absurd hk (not_isLeafKey_of_inPart (inPart_marshalKey .oplog) (by decide))
  · exact h

theorem marshalMerkleKey_congr {o' : BaseOplog} (hid : o'.id = o.id) (hts : o'.updateTS = o.updateTS) (hop : o'.op = o.op) :
    o'.marshalMerkleKey p = o.marshalMerkleKey p ∧ o'.marshalKey p .oplog = o.marshalKey p .oplog := by
  rw [marshalMerkleKey, marshalMerkleKey, marshalKey, marshalKey, keyTail, keyTail, hid, hts, hop]
  exact ⟨rfl, rfl⟩

theorem hash_of_reload {o' : BaseOplog} (h : o'.reload = o.reload) : o'.hash = o.hash := by
  have hhash := congrArg BaseOplog.hash h
  exact hhash

theorem leaf_of_read (hall : SavedAll p (reads p t) (t.clean p.merkle).state t'.state)
    (hread : ∀ q ∈ reads p t, q.1.isSync = true → q.2.reload = q.1.reload) (ho : o ∈ aliveRecords p t.state.db.db)
    (hsync : o.isSync = true) : ∃ addr, hashToAddr o.hash = some addr ∧
      t'.state.db.db.get (o.marshalMerkleKey p) = some (.node ⟨.now, addr, o.updateTS, 0, o.marshalKey p .oplog⟩) := by
  obtain ⟨o', ho'⟩ := exists_mem_readAll .fresh ho
  obtain ⟨-, hid, hts, hop⟩ := mem_readAll ho'
  obtain ⟨hleaf, hkey⟩ := marshalMerkleKey_congr (p := p) hid hts hop
  obtain ⟨addr, haddr, hget⟩ := (hall.saved _ ho' hsync).leaf
  have hhash : o'.hash = o.hash := hash_of_reload (hread _ ho' hsync)
  exact ⟨addr, hhash ▸ haddr, by rw [← hleaf, hget, hkey, hts]⟩

theorem leaves_iff (hall : SavedAll p (reads p t) (t.clean p.merkle).state t'.state)
    (hread : ∀ q ∈ reads p t, q.1.isSync = true → q.2.reload = q.1.reload) :
    (∀ k v, IsLeafKey p.merkle k → (t'.state.db.db.get k = some v ↔
      ∃ o ∈ aliveRecords p t.state.db.db, o.isSync = true ∧ k = o.marshalMerkleKey p ∧
        ∃ addr, hashToAddr o.hash = some addr ∧ v = .node ⟨.now, addr, o.updateTS, 0, o.marshalKey p .oplog⟩)) ↔
    ∀ k, IsLeafKey p.merkle k → (t.clean p.merkle).state.db.db.get k ≠ none →
      ∃ o ∈ aliveRecords p t.state.db.db, o.isSync = true ∧ k = o.marshalMerkleKey p := by
  have hother : ∀ k, IsLeafKey p.merkle k →
      (¬ ∃ o ∈ aliveRecords p t.state.db.db, o.isSync = true ∧ k = o.marshalMerkleKey p) →
      t'.state.db.db.get k = (t.clean p.merkle).state.db.db.get k := by
    intro k hk hnot
    refine hall.kept k (fun hpart => ?_) fun q hq hsync hown => ?_
    · exact not_isLeafKey_of_inPart hpart (by decide) hk
    · exact hnot ⟨q.1, (mem_readAll hq).1, hsync, eq_leaf_of_ownKey hk hown⟩
  constructor
  · intro hleaves k hk hne
    by_contra hnot
    obtain ⟨v, hv⟩ := Option.ne_none_iff_exists'.1 hne
    obtain ⟨o, ho, hsync, hkey, -⟩ := (hleaves k v hk).1 ((hother k hk hnot).trans hv)
    exact hnot ⟨o, ho, hsync, hkey⟩
  · intro hcleaned k v hk
    constructor
    · intro hv
      obtain ⟨o, ho, hsync, rfl⟩ : ∃ o ∈ aliveRecords p t.state.db.db, o.isSync = true ∧ k = o.marshalMerkleKey p := by
        by_contra hnot
        exact hnot (hcleaned k hk (by rw [← hother k hk hnot, hv]; exact Option.some_ne_none v))
      obtain ⟨addr, haddr, hget⟩ := leaf_of_read hall hread ho hsync
      exact ⟨o, ho, hsync, rfl, addr, haddr, Option.some.inj (hv.symm.trans hget)⟩
    · rintro ⟨o, ho, hsync, rfl, addr, haddr, rfl⟩
      obtain ⟨addr', haddr', hget⟩ := leaf_of_read hall hread ho hsync
      cases haddr.symm.trans haddr'
      exact hget

theorem marks_iff (hall : SavedAll p (reads p t) (t.clean p.merkle).state t'.state) (h : Int64) : h ∈ t'.state.toUpdateTS ↔
    h ∈ t.state.toUpdateTS ∨
      ∃ o ∈ aliveRecords p t.state.db.db, o.isSync = true ∧ ¬ Timestamp.billion ≤ o.updateTS.nanoTs ∧ o.hour = h := by
  rw [hall.marked h, clean_toUpdateTS]
  refine or_congr Iff.rfl ⟨fun ⟨q, hq, hrest⟩ => ⟨q.1, (mem_readAll hq).1, hrest⟩, fun ⟨o, ho, hrest⟩ => ?_⟩
  obtain ⟨o', ho'⟩ := exists_mem_readAll .fresh ho
  exact ⟨_, ho', hrest⟩

end reconstruction

end ReconstructAux

namespace ReconstructWitness

open SigningWitness ConvergenceWitness JournalWitness LeavesWitness ReconstructAux

theorem oplogsOK_of_entries {p : OplogDB} {d : LDBDatabase Value} (l : List BaseOplog) (hfree : d.lockMap.entries = [])
    (halive : ∀ e ∈ d.db.entries, alivePrefix p <+: e.1 → ∃ o ∈ l, e = (o.marshalKey p .oplog, .oplog o))
    (hidx : ∀ e ∈ d.db.entries, InPart .oplogIdx e.1 → ∃ o ∈ l, e.1 = idxKey p o.id)
    (hl : ∀ o ∈ l, o.masterLogID.isSome ∧
      d.db.get (idxKey p o.id) = some (.index ⟨[o.marshalKey p .oplog, o.marshalMerkleKey p], o.updateTS⟩)) : OplogsOK p d := by
  refine ⟨fun id => ?_, fun k v hk hget => ?_, fun id i hi => ?_⟩
  · rw [KeyStore.get, hfree]
    rfl
  · obtain ⟨o, ho, heq⟩ := halive _ (get_eq_some_iff.1 hget) hk
    cases heq
    exact ⟨o, rfl, rfl, (hl o ho).1, _, (hl o ho).2, .inr rfl⟩
  · obtain ⟨o, ho, heq⟩ := hidx _ (get_eq_some_iff.1 hi) (inPart_idxKey id)
    cases id_of_idxKey heq
    cases hi.symm.trans (hl o ho).2
    exact ⟨o, rfl, by rw [storeKey, if_pos (hl o ho).1]; rfl⟩

def single : MerkleTimes := ⟨saved ⟨4000, 0⟩, .zero, .zero⟩

def following : BaseOplog := { synced ⟨4000, 0⟩ with preLogID := some (idOf 5) }

def first : BaseOplog := { synced ⟨4001, 0⟩ with id := idOf 6 }

def both : MerkleTimes :=
  ⟨(first.save store (some merkle) (following.save store (some merkle) emptyState).2).2, .zero, .zero⟩

end ReconstructWitness

end PttaiCore
