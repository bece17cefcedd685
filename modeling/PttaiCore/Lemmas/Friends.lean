import PttaiCore.Friends
import PttaiCore.Lemmas.Span

/-! # What the friend database holds -/

namespace PttaiCore

open Bytes KeyStore LDBDatabase Timestamp List

namespace Friend

section keys

variable {id id' : PttID} {ts ts' : Timestamp}

theorem marshalMessageCreateTSKey_inj : marshalMessageCreateTSKey id = marshalMessageCreateTSKey id' ↔ id = id' := by
  simp [marshalMessageCreateTSKey, Subtype.ext_iff]

theorem marshalMessageCreateTSIdxKey_inj : marshalMessageCreateTSIdxKey id = marshalMessageCreateTSIdxKey id' ↔ id = id' := by
  simp [marshalMessageCreateTSIdxKey, Subtype.ext_iff]

theorem marshalMessageCreateTSKey2_inj :
    marshalMessageCreateTSKey2 ts id = marshalMessageCreateTSKey2 ts' id' ↔ ts = ts' ∧ id = id' := by
  constructor
  · intro h
    rw [marshalMessageCreateTSKey2, marshalMessageCreateTSKey2, append_cancel_left_eq] at h
    have hlen : ts.marshal.length = ts'.marshal.length := by rw [marshal_length, marshal_length]
    obtain ⟨hts, hid⟩ := append_inj h hlen
    exact ⟨marshal_injective hts, Subtype.ext hid⟩
  · rintro ⟨rfl, rfl⟩
    rfl

theorem prefix_marshalMessageCreateTSKey2 : dbMessageCreateTS2Prefix <+: marshalMessageCreateTSKey2 ts id := prefix_append _ _

theorem not_prefix_marshalMessageCreateTSKey : ¬ dbMessageCreateTS2Prefix <+: marshalMessageCreateTSKey id := by
  rintro ⟨rest, h⟩
  exact absurd (append_inj h rfl).1 (by decide)

theorem not_prefix_marshalMessageCreateTSIdxKey : ¬ dbMessageCreateTS2Prefix <+: marshalMessageCreateTSIdxKey id := by
  rintro ⟨rest, h⟩
  exact absurd (append_inj h rfl).1 (by decide)

theorem marshalMessageCreateTSKey_ne_idxKey : marshalMessageCreateTSKey id ≠ marshalMessageCreateTSIdxKey id' :=
  fun h => absurd (append_inj h rfl).1 (by decide)

theorem toEntityID_marshalMessageCreateTSKey2 : msgCreateTSKeyToEntityID (marshalMessageCreateTSKey2 ts id) = id := by
  apply Subtype.ext
  have hpre : (dbMessageCreateTS2Prefix ++ ts.marshal).length = 17 := by
    rw [length_append, marshal_length]
    rfl
  have hdrop : (marshalMessageCreateTSKey2 ts id).drop 17 = id.1 := by
    rw [marshalMessageCreateTSKey2, ← append_assoc]
    exact drop_left' hpre
  change (((marshalMessageCreateTSKey2 ts id).drop 17) ++ List.replicate 40 0).take 40 = id.1
  rw [hdrop]
  exact take_left' id.2

theorem marshalMessageCreateTSKey2_lt_iff :
    marshalMessageCreateTSKey2 ts id < marshalMessageCreateTSKey2 ts' id' ↔ ts.keyOrder < ts'.keyOrder ∨ ts = ts' ∧ id.1 < id'.1 := by
  have hlen : ts.marshal.length = ts'.marshal.length := by rw [marshal_length, marshal_length]
  rw [marshalMessageCreateTSKey2, marshalMessageCreateTSKey2, append_lt_append_left, append_lt_append_iff hlen,
    marshal_lt_marshal]
  exact or_congr_right (and_congr_left fun _ => ⟨marshal_injective, congrArg _⟩)

theorem keyOrder_le_of_lt (h : marshalMessageCreateTSKey2 ts id < marshalMessageCreateTSKey2 ts' id') : ts.keyOrder ≤ ts'.keyOrder := by
  rcases marshalMessageCreateTSKey2_lt_iff.1 h with hlt | ⟨rfl, -⟩
  · exact hlt.le
  · exact le_rfl

end keys

/-! ## The entries -/

structure Stored (db : KeyStore Bytes Value) (greatest : KeyStore PttID Timestamp) : Prop where
  index (id : PttID) : db.get (marshalMessageCreateTSIdxKey id) =
    (greatest.get id).map fun ts => .index ⟨[marshalMessageCreateTSKey2 ts id], ts⟩
  own (id : PttID) : db.get (marshalMessageCreateTSKey id) = (greatest.get id).map .dbable
  list (key : Bytes) (v : Value) : dbMessageCreateTS2Prefix <+: key → (db.get key = some v ↔
    ∃ id ts, greatest.get id = some ts ∧ key = marshalMessageCreateTSKey2 ts id ∧ v = .dbable ts)
  nonneg (id : PttID) (ts : Timestamp) : greatest.get id = some ts → 0 ≤ ts.ts.toInt

def later (old : Option Timestamp) (ts : Timestamp) : Timestamp :=
  match old with
  | none => ts
  | some old => if ts.isLess old then old else ts

def written (db : KeyStore Bytes Value) (id : PttID) (old : Option Timestamp) (ts : Timestamp) : KeyStore Bytes Value :=
  LDBDatabase.putAllWithKeyIndex (marshalMessageCreateTSIdxKey id) ⟨[marshalMessageCreateTSKey2 ts id], ts⟩
    [(marshalMessageCreateTSKey2 ts id, .dbable ts)]
    ((db.put (marshalMessageCreateTSKey id) (.dbable ts)).deleteAll (old.toList.map fun t => marshalMessageCreateTSKey2 t id))

section save

variable {db : KeyStore Bytes Value} {greatest : KeyStore PttID Timestamp} {s : Service} {id : PttID} {ts : Timestamp}

theorem get_written (old : Option Timestamp) (key : Bytes) : (written db id old ts).get key =
    if key = marshalMessageCreateTSKey2 ts id then some (.dbable ts)
    else if key = marshalMessageCreateTSIdxKey id then some (.index ⟨[marshalMessageCreateTSKey2 ts id], ts⟩)
    else if key ∈ old.toList.map fun t => marshalMessageCreateTSKey2 t id then none
    else if key = marshalMessageCreateTSKey id then some (.dbable ts) else db.get key := by
  simp only [written, LDBDatabase.putAllWithKeyIndex, putAll_cons, putAll_nil, get_put,
    get_deleteAll]
  split_ifs <;> rfl

theorem not_mem_removed {key : Bytes} (hkey : ¬ dbMessageCreateTS2Prefix <+: key) (old : Option Timestamp) :
    key ∉ old.toList.map fun t => marshalMessageCreateTSKey2 t id := by
  intro hmem
  obtain ⟨t, -, rfl⟩ := mem_map.1 hmem
  exact hkey prefix_marshalMessageCreateTSKey2

theorem get_written_index (id' : PttID) (old : Option Timestamp) : (written db id old ts).get (marshalMessageCreateTSIdxKey id') =
    if id' = id then some (.index ⟨[marshalMessageCreateTSKey2 ts id], ts⟩) else db.get (marshalMessageCreateTSIdxKey id') := by
  have hkey2 : marshalMessageCreateTSIdxKey id' ≠ marshalMessageCreateTSKey2 ts id :=
    fun h => not_prefix_marshalMessageCreateTSIdxKey (h ▸ prefix_marshalMessageCreateTSKey2)
  rw [get_written, if_neg hkey2, if_neg (not_mem_removed not_prefix_marshalMessageCreateTSIdxKey old),
    if_neg marshalMessageCreateTSKey_ne_idxKey.symm]
  simp only [marshalMessageCreateTSIdxKey_inj]

theorem get_written_own (id' : PttID) (old : Option Timestamp) : (written db id old ts).get (marshalMessageCreateTSKey id') =
    if id' = id then some (.dbable ts) else db.get (marshalMessageCreateTSKey id') := by
  have hkey2 : marshalMessageCreateTSKey id' ≠ marshalMessageCreateTSKey2 ts id :=
    fun h => not_prefix_marshalMessageCreateTSKey (h ▸ prefix_marshalMessageCreateTSKey2)
  rw [get_written, if_neg hkey2, if_neg marshalMessageCreateTSKey_ne_idxKey,
    if_neg (not_mem_removed not_prefix_marshalMessageCreateTSKey old)]
  simp only [marshalMessageCreateTSKey_inj]

theorem get_written_list {key : Bytes} (hkey : dbMessageCreateTS2Prefix <+: key) (old : Option Timestamp) :
    (written db id old ts).get key = if key = marshalMessageCreateTSKey2 ts id then some (.dbable ts)
      else if key ∈ old.toList.map fun t => marshalMessageCreateTSKey2 t id then none else db.get key := by
  have hidx : key ≠ marshalMessageCreateTSIdxKey id := fun h => not_prefix_marshalMessageCreateTSIdxKey (h ▸ hkey)
  have hown : key ≠ marshalMessageCreateTSKey id := fun h => not_prefix_marshalMessageCreateTSKey (h ▸ hkey)
  rw [get_written, if_neg hidx, if_neg hown]

theorem Stored.of_written (h : Stored db greatest) (h0 : 0 ≤ ts.ts.toInt) :
    Stored (written db id (greatest.get id) ts) (greatest.put id ts) where
  index id' := by
    rw [get_written_index, get_put, h.index]
    split_ifs with hid
    · rw [hid]
      rfl
    · rfl
  own id' := by
    rw [get_written_own, get_put, h.own]
    split_ifs <;> rfl
  list key v hkey := by
    rw [get_written_list hkey]
    split_ifs with hnew hold
    · subst hnew
      constructor
      · rintro ⟨⟩
        exact ⟨id, ts, by simp, rfl, rfl⟩
      · rintro ⟨id', ts', -, hkeys, rfl⟩
        rw [(marshalMessageCreateTSKey2_inj.1 hkeys).1]
    · obtain ⟨t, ht, rfl⟩ := mem_map.1 hold
      refine iff_of_false (by simp) ?_
      rintro ⟨id', ts', hget, hkeys, -⟩
      obtain ⟨rfl, rfl⟩ := marshalMessageCreateTSKey2_inj.1 hkeys
      rw [get_put, if_pos rfl] at hget
      exact hnew (by rw [Option.some.inj hget])
    · rw [h.list key v hkey]
      -- an entry of the friend itself would be the new one or the removed one
      constructor
      · rintro ⟨id', ts', hget, rfl, rfl⟩
        refine ⟨id', ts', ?_, rfl, rfl⟩
        rw [get_put, if_neg]
        · exact hget
        · rintro rfl
          exact hold (mem_map.2 ⟨ts', by simp [hget], rfl⟩)
      · rintro ⟨id', ts', hget, rfl, rfl⟩
        refine ⟨id', ts', ?_, rfl, rfl⟩
        rw [get_put] at hget
        split_ifs at hget with hid
        · rw [hid, ← Option.some.inj hget] at hnew
          exact absurd rfl hnew
        · exact hget
  nonneg id' ts' hget := by
    rw [get_put] at hget
    split_ifs at hget with hid
    · exact Option.some.inj hget ▸ h0
    · exact h.nonneg id' ts' hget

theorem later_of_isLess {old : Timestamp} (hless : ts.isLess old = true) : later (some old) ts ≠ ts := by
  rw [later, if_pos hless]
  rintro rfl
  rw [isLess_self] at hless
  cases hless

theorem later_of_not_isLess {old : Timestamp} (hless : ts.isLess old = false) : later (some old) ts = ts := by
  simp [later, hless]

section puts

variable {d : LDBDatabase Value} {old : Option Timestamp}

theorem tryPut_own (hfree : d.lockMap = KeyStore.empty) (hget : d.db.get (marshalMessageCreateTSKey id) = old.map .dbable) (ts : Timestamp) :
    Service.putErr (d.tryPut (marshalMessageCreateTSKey id) (.dbable ts) ts).1 = .ok () ∧
    (d.tryPut (marshalMessageCreateTSKey id) (.dbable ts) ts).2 =
      d.withDB (if later old ts = ts then d.db.put (marshalMessageCreateTSKey id) (.dbable ts) else d.db) := by
  rw [LDBDatabase.tryPut, withLock_of_free (by rw [hfree]; rfl), LDBDatabase.tryPutCore, hget]
  cases old with
  | none => simp [Service.putErr, later]
  | some old =>
    cases hless : ts.isLess old with
    | false => simp [Service.putErr, DBValue.toDBable, hless, later_of_not_isLess hless]
    | true => simp [Service.putErr, DBValue.toDBable, hless, later_of_isLess hless]

theorem tryPutAll_index (hfree : d.lockMap = KeyStore.empty)
    (hget : d.db.get (marshalMessageCreateTSIdxKey id) = old.map fun t => .index ⟨[marshalMessageCreateTSKey2 t id], t⟩) (ts : Timestamp) :
    let idx : Index := ⟨[marshalMessageCreateTSKey2 ts id], ts⟩
    let kvs := [(marshalMessageCreateTSKey2 ts id, Value.dbable ts)]
    let r := d.tryPutAll (marshalMessageCreateTSIdxKey id) idx kvs true false
    Service.putErr r.1.2 = .ok () ∧ r.2 = d.withDB (if later old ts = ts then
      LDBDatabase.putAllWithKeyIndex (marshalMessageCreateTSIdxKey id) idx kvs
        (d.db.deleteAll (old.toList.map fun t => marshalMessageCreateTSKey2 t id)) else d.db) := by
  intro idx kvs r
  have hr : r = ((LDBDatabase.tryPutAllCore (marshalMessageCreateTSIdxKey id) idx kvs true false d.db).1,
      d.withDB (LDBDatabase.tryPutAllCore (marshalMessageCreateTSIdxKey id) idx kvs true false d.db).2) := by
    simp only [r, LDBDatabase.tryPutAll]
    rw [withLock_of_free (by rw [hfree]; rfl), LDBDatabase.foundOrBusy]
  rw [hr, LDBDatabase.tryPutAllCore, hget]
  cases old with
  | none => simp [Service.putErr, later, KeyStore.deleteAll]
  | some old =>
    cases hless : ts.isLess old with
    | false => simp [Service.putErr, DBValue.toIndex, idx, hless, later_of_not_isLess hless]
    | true => simp [Service.putErr, DBValue.toIndex, idx, hless, later_of_isLess hless]

end puts

theorem Stored.saveMessageCreateTS_eq (h : Stored s.dbFriend.db greatest) (hfree : s.dbFriend.lockMap = KeyStore.empty) (id : PttID)
    (ts : Timestamp) : s.saveMessageCreateTS id ts = (.ok (), { s with
      dbFriend := s.dbFriend.withDB
        (if later (greatest.get id) ts = ts then written s.dbFriend.db id (greatest.get id) ts else s.dbFriend.db)
      messageCreateTS := Function.update s.messageCreateTS id ts }) := by
  obtain ⟨hok, hdb⟩ := tryPut_own hfree (h.own id) ts
  rw [Service.saveMessageCreateTS, hok, hdb]
  set d := s.dbFriend.withDB (if later (greatest.get id) ts = ts then s.dbFriend.db.put (marshalMessageCreateTSKey id) (.dbable ts)
    else s.dbFriend.db) with hd
  have hget : d.db.get (marshalMessageCreateTSIdxKey id) =
      (greatest.get id).map fun t => .index ⟨[marshalMessageCreateTSKey2 t id], t⟩ := by
    rw [hd, withDB_db, ← h.index]
    split_ifs
    · rw [get_put, if_neg marshalMessageCreateTSKey_ne_idxKey.symm]
    · rfl
  obtain ⟨hok', hdb'⟩ := tryPutAll_index (show d.lockMap = KeyStore.empty from hfree) hget ts
  rw [Service.saveMessageCreateTS2]
  rw [hok', hdb', Function.update_idem, hd]
  split_ifs <;> rfl

theorem Stored.save (h : Stored s.dbFriend.db greatest) (hfree : s.dbFriend.lockMap = KeyStore.empty) (h0 : 0 ≤ ts.ts.toInt) :
    Stored (s.saveMessageCreateTS id ts).2.dbFriend.db (greatest.put id (later (greatest.get id) ts)) := by
  rw [h.saveMessageCreateTS_eq hfree]
  rw [withDB_db]
  split_ifs with hlater
  · rw [hlater]
    exact h.of_written h0
  · have hput : greatest.put id (later (greatest.get id) ts) = greatest := by
      refine ext_get fun id' => ?_
      rw [get_put]
      split_ifs with hid
      · rw [hid]
        cases hget : greatest.get id with
        | none => simp [hget, later] at hlater
        | some old =>
          rw [later]
          split_ifs with hless
          · rfl
          · simp [hget, later, hless] at hlater
      · rfl
    rw [hput]
    exact h

end save

/-! ## The list -/

def Visited (start : Timestamp) (o : ListOrder) (ts : Timestamp) : Prop :=
  start = .zero ∨ match o with
    | .next => start.keyOrder ≤ ts.keyOrder
    | .prev => ts.keyOrder ≤ start.keyOrder

section list

variable {s : Service} {greatest : KeyStore PttID Timestamp} {start ts : Timestamp} {id : PttID} {o : ListOrder}

theorem prefixLimit_ne_none_of_begins {key : Bytes} (h : dbMessageCreateTS2Prefix <+: key) : Bytes.prefixLimit key ≠ none :=
  prefixLimit_ne_none ⟨46, h.subset (by decide), by decide⟩

theorem from_next_iff {key : Bytes} :
    (marshalMessageCreateTSKey2 start (ByteArrayOf.replicate 40 0) ≤ key ∧ Bytes.below (Bytes.prefixLimit dbMessageCreateTS2Prefix) key = true)
      ↔ dbMessageCreateTS2Prefix <+: key ∧ marshalMessageCreateTSKey2 start (ByteArrayOf.replicate 40 0) ≤ key := by
  rw [← between_prefixLimit_iff]
  have hle : dbMessageCreateTS2Prefix ≤ marshalMessageCreateTSKey2 start (ByteArrayOf.replicate 40 0) :=
    le_of_begins prefix_marshalMessageCreateTSKey2
  exact ⟨fun h => ⟨⟨hle.trans h.1, h.2⟩, h.1⟩, fun h => ⟨h.2, h.1.2⟩⟩

theorem from_prev_iff {key last : Bytes} (hlast : dbMessageCreateTS2Prefix <+: last) :
    (dbMessageCreateTS2Prefix ≤ key ∧ Bytes.below (Bytes.prefixLimit last) key = true)
      ↔ dbMessageCreateTS2Prefix <+: key ∧ (key < last ∨ last <+: key) := by
  rw [below_prefixLimit_iff]
  constructor
  · rintro ⟨hle, hlt | hpre⟩
    · obtain ⟨rest, rfl⟩ := hlast
      exact ⟨prefix_of_between (by rwa [append_nil]) hlt, Or.inl hlt⟩
    · exact ⟨hlast.trans hpre, .inr hpre⟩
  · rintro ⟨hpre, h⟩
    exact ⟨le_of_begins hpre, h⟩

theorem next_key_iff : marshalMessageCreateTSKey2 start (ByteArrayOf.replicate 40 0) ≤ marshalMessageCreateTSKey2 ts id
    ↔ start.keyOrder ≤ ts.keyOrder := by
  have hid : ¬ id.1 < List.replicate 40 0 := not_lt.2 (replicate_zero_le id.2)
  rw [← not_lt, marshalMessageCreateTSKey2_lt_iff, ← not_lt]
  exact not_congr (or_iff_left fun h => hid h.2)

theorem prev_key_iff : (marshalMessageCreateTSKey2 ts id < marshalMessageCreateTSKey2 start (ByteArrayOf.replicate 40 255) ∨
    marshalMessageCreateTSKey2 start (ByteArrayOf.replicate 40 255) <+: marshalMessageCreateTSKey2 ts id)
    ↔ ts.keyOrder ≤ start.keyOrder := by
  constructor
  · rintro (hlt | hpre)
    · rcases marshalMessageCreateTSKey2_lt_iff.1 hlt with h | ⟨rfl, -⟩
      · exact h.le
      · exact le_rfl
    · have hlen : (marshalMessageCreateTSKey2 start (ByteArrayOf.replicate 40 255)).length = (marshalMessageCreateTSKey2 ts id).length := by
        simp [marshalMessageCreateTSKey2, marshal_length, id.2, ByteArrayOf.replicate]
      rw [(marshalMessageCreateTSKey2_inj.1 (hpre.eq_of_length hlen)).1]
  · intro hle
    rcases hle.lt_or_eq with hlt | heq
    · exact .inl (marshalMessageCreateTSKey2_lt_iff.2 (.inl hlt))
    · rw [keyOrder_injective heq]
      rcases (le_replicate_max id.2).lt_or_eq with hid | hid
      · exact .inl (marshalMessageCreateTSKey2_lt_iff.2 (.inr ⟨rfl, hid⟩))
      · have hmax : id = ByteArrayOf.replicate 40 255 := Subtype.ext hid
        rw [hmax]
        exact .inr (prefix_refl _)

theorem getFriendByMsgCreateTSIter_of_ne_zero (s : Service) (hzero : start ≠ .zero) (o : ListOrder) :
    s.getFriendByMsgCreateTSIter start o = .ok (match o with
      | .prev => s.dbFriend.db.iterate dbMessageCreateTS2Prefix
          (Bytes.prefixLimit (marshalMessageCreateTSKey2 start (ByteArrayOf.replicate 40 255))) .prev
      | .next => s.dbFriend.db.iterate (marshalMessageCreateTSKey2 start (ByteArrayOf.replicate 40 0))
          (Bytes.prefixLimit dbMessageCreateTS2Prefix) .next) := by
  have hne (b : UInt8) : marshalMessageCreateTSKey2 start (ByteArrayOf.replicate 40 b) ≠ [] := by
    simp [marshalMessageCreateTSKey2, dbMessageCreateTS2Prefix, ascii]
  have hpre (b : UInt8) : dbMessageCreateTS2Prefix.isPrefixOf (marshalMessageCreateTSKey2 start (ByteArrayOf.replicate 40 b)) = true :=
    List.isPrefixOf_iff_prefix.2 prefix_marshalMessageCreateTSKey2
  unfold Service.getFriendByMsgCreateTSIter Service.newIteratorWithPrefix Service.getFriendIterMarshalKey
  rw [if_neg hzero, if_neg (hne _), hpre]
  cases o <;> rfl

theorem getFriendByMsgCreateTSIter_eq (s : Service) (start : Timestamp) (o : ListOrder) :
    ∃ lo limit, s.getFriendByMsgCreateTSIter start o = .ok (s.dbFriend.db.iterate lo limit o) ∧ limit ≠ none ∧
      (∀ key, lo ≤ key ∧ Bytes.below limit key = true → dbMessageCreateTS2Prefix <+: key) ∧
      ∀ id ts, (lo ≤ marshalMessageCreateTSKey2 ts id ∧ Bytes.below limit (marshalMessageCreateTSKey2 ts id) = true) ↔ Visited start o ts := by
  by_cases hzero : start = .zero
  · refine ⟨_, _, if_pos hzero, prefixLimit_ne_none_of_begins (prefix_refl _),
      fun key h => (between_prefixLimit_iff _ _).1 h, fun id ts => ?_⟩
    rw [between_prefixLimit_iff]
    exact iff_of_true prefix_marshalMessageCreateTSKey2 (.inl hzero)
  · have hiter := getFriendByMsgCreateTSIter_of_ne_zero s hzero o
    have hlast := @prefix_marshalMessageCreateTSKey2 (ByteArrayOf.replicate 40 255) start
    cases o with
    | next =>
      refine ⟨_, _, hiter, prefixLimit_ne_none_of_begins (prefix_refl _), fun key h => (from_next_iff.1 h).1, fun id ts => ?_⟩
      rw [from_next_iff, and_iff_right prefix_marshalMessageCreateTSKey2, next_key_iff]
      exact (or_iff_right hzero).symm
    | prev =>
      refine ⟨_, _, hiter, prefixLimit_ne_none_of_begins hlast, fun key h => ((from_prev_iff hlast).1 h).1, fun id ts => ?_⟩
      rw [from_prev_iff hlast, and_iff_right prefix_marshalMessageCreateTSKey2, prev_key_iff]
      exact (or_iff_right hzero).symm

theorem Stored.mem_iter (h : Stored s.dbFriend.db greatest) (start : Timestamp) (o : ListOrder) :
    ∃ es, s.getFriendByMsgCreateTSIter start o = .ok es ∧ (es.Pairwise fun a b => o.Before a.1 b.1) ∧
      ∀ e, e ∈ es ↔ ∃ id ts, greatest.get id = some ts ∧ e = (marshalMessageCreateTSKey2 ts id, .dbable ts) ∧ Visited start o ts := by
  obtain ⟨lo, limit, heq, hlimit, hlist, hvisited⟩ := getFriendByMsgCreateTSIter_eq s start o
  refine ⟨_, heq, iterate_sorted lo limit o, fun e => ?_⟩
  obtain ⟨key, v⟩ := e
  rw [mem_iterate hlimit]
  constructor
  · rintro ⟨hget, hrange⟩
    obtain ⟨id, ts, hts, rfl, rfl⟩ := (h.list key v (hlist key hrange)).1 hget
    exact ⟨id, ts, hts, rfl, (hvisited id ts).1 hrange⟩
  · rintro ⟨id, ts, hts, heq, hv⟩
    obtain ⟨rfl, rfl⟩ := Prod.mk.inj heq
    exact ⟨(h.list _ _ prefix_marshalMessageCreateTSKey2).2 ⟨id, ts, hts, rfl, rfl⟩, (hvisited id ts).2 hv⟩

/-! ## The loop -/

theorem collect_of_registered {es : List (Bytes × Value)} (h : ∀ e ∈ es, s.entities.get (msgCreateTSKeyToEntityID e.1) ≠ none)
    (limit : Int) (i : Nat) : s.collect limit es i = .ok (if 0 < limit
      then (es.map fun e => msgCreateTSKeyToEntityID e.1).take (limit - i).toNat
      else es.map fun e => msgCreateTSKeyToEntityID e.1) := by
  induction es generalizing i with
  | nil => simp [Service.collect]
  | cons e es ih =>
    obtain ⟨u, hu⟩ := Option.ne_none_iff_exists'.1 (h e (.head _))
    have hrest := ih (fun e' he' => h e' (.tail _ he')) (i + 1)
    rw [Service.collect]
    by_cases hlimit : 0 < limit
    · by_cases hi : limit ≤ i
      · have hzero : (limit - i).toNat = 0 := by omega
        simp [hlimit, hi, hzero]
      · have hsucc : (limit - i).toNat = (limit - (i + 1 : Nat)).toNat + 1 := by omega
        simp only [hlimit, hi, and_false, if_false, if_true, hu, hrest, map_cons, hsucc, take_succ_cons]
    · simp only [hlimit, false_and, if_false, hu, hrest, map_cons]

theorem collect_panic {es : List (Bytes × Value)} {limit : Int} (hlimit : limit ≤ 0)
    (h : ∃ e ∈ es, s.entities.get (msgCreateTSKeyToEntityID e.1) = none) (i : Nat) : s.collect limit es i = .error .panic := by
  have hlimit' : ¬ (0 < limit ∧ limit ≤ i) := fun hl => absurd hl.1 (not_lt.2 hlimit)
  induction es generalizing i with
  | nil =>
    obtain ⟨e, he, -⟩ := h
    cases he
  | cons e es ih =>
    rw [Service.collect, if_neg hlimit']
    cases hget : s.entities.get (msgCreateTSKeyToEntityID e.1) with
    | none => simp [hget]
    | some u =>
      obtain ⟨e', he', hnone⟩ := h
      have hrest : ∃ e ∈ es, s.entities.get (msgCreateTSKeyToEntityID e.1) = none := by
        rcases mem_cons.1 he' with rfl | he'
        · rw [hget] at hnone
          cases hnone
        · exact ⟨e', he', hnone⟩
      have htail := ih hrest (i + 1) fun hl => absurd hl.1 (not_lt.2 hlimit)
      simp only [hget, htail]

end list

end Friend

end PttaiCore
