import PttaiCore.Lemmas.Tree

/-! # Rebuilding an hour recalculates the nodes above it -/

namespace PttaiCore

open MerkleTreeLevel KeyStore LDBDatabase List

structure TreeOK (m : Merkle) (db : KeyStore Bytes Value) : Prop where
  nodes : ∀ k v, db.get k = some v → m.dbPrefix <+: k → ∃ n, v = .node n
  upper : ∀ level ∈ uppers, ∀ r v, db.get (m.dbPrefix ++ (level.toUInt8 :: r)) = some v →
    ∃ sec : Int64, r = (⟨sec, 0⟩ : Timestamp).marshal ∧ ∃ addr nChildren, v = .node ⟨level, addr, ⟨sec, 0⟩, nChildren, []⟩

namespace Cell

variable {Γ : Ctx} {m : Merkle} {db : KeyStore Bytes Value} {c : Cell}

def entries (m : Merkle) (c : Cell) (db : KeyStore Bytes Value) : List (Bytes × Value) :=
  db.range (m.marshalKey c.level.child (.ofSec c.start)) (m.marshalKey c.level.child (.ofSec c.next))

theorem prefix_of_mem_entries {e : Bytes × Value} (h : e ∈ c.entries m db) :
    m.dbPrefix ++ [c.level.child.toUInt8] <+: e.1 := by
  obtain ⟨-, hlo, hhi⟩ := mem_range.1 h
  have hcons : ∀ ts, m.marshalKey c.level.child ts = m.dbPrefix ++ [c.level.child.toUInt8] ++ ts.marshal := by
    intro ts
    rw [marshalKey_eq, append_assoc]
    rfl
  rw [hcons] at hlo hhi
  exact Bytes.prefix_of_between hlo hhi

theorem toNode_ne_none (h : TreeOK m db) {e : Bytes × Value} (he : e ∈ c.entries m db) : e.2.toNode ≠ none := by
  obtain ⟨n, hn⟩ := h.nodes e.1 e.2 (mem_range.1 he).1 ((prefix_append _ _).trans (prefix_of_mem_entries he))
  rw [hn]
  exact Option.some_ne_none n

theorem mapM_entries (h : TreeOK m db) : (c.entries m db).mapM (fun e => e.2.toNode) = some (c.children m db) :=
  mapM_eq_filterMap fun _ he => toNode_ne_none h he

theorem length_children (h : TreeOK m db) : (c.children m db).length = (c.entries m db).length :=
  filterMap_length_eq_length.2 fun _ he => Option.isSome_iff_ne_none.2 (toNode_ne_none h he)

theorem exists_sec_of_mem_entries (h : TreeOK m db) (hhr : c.level ≠ .hr) {e : Bytes × Value} (he : e ∈ c.entries m db) :
    ∃ sec : Int64, e.1 = m.marshalKey c.level.child ⟨sec, 0⟩ ∧ ∃ addr nChildren,
      e.2 = .node ⟨c.level.child, addr, ⟨sec, 0⟩, nChildren, []⟩ := by
  have hchild : c.level.child ∈ uppers := by
    have hupper := c.upper
    cases hl : c.level <;> rw [hl] at hupper hhr <;> first | decide | exact absurd rfl hhr | exact absurd hupper (by decide)
  obtain ⟨r, hr⟩ := prefix_of_mem_entries he
  have hkey : e.1 = m.dbPrefix ++ (c.level.child.toUInt8 :: r) := by
    rw [← hr, append_assoc]
    rfl
  have hget := (mem_range.1 he).1
  rw [hkey] at hget
  obtain ⟨sec, hr', hn⟩ := h.upper _ hchild r e.2 hget
  exact ⟨sec, by rw [hkey, hr', marshalKey_eq], hn⟩

theorem mem_bucket_of_key {t : Timestamp} (hlo : m.marshalKey c.level.child (.ofSec c.start) ≤ m.marshalKey c.level.child t)
    (hhi : m.marshalKey c.level.child t < m.marshalKey c.level.child (.ofSec c.next)) :
    c.start.toNat ≤ t.ts.toUInt64.toNat ∧ t.ts.toUInt64.toNat < c.next.toNat := by
  have hord : ∀ a b : Timestamp, m.marshalKey c.level.child a < m.marshalKey c.level.child b ↔ a.marshal < b.marshal := by
    intro a b
    rw [marshalKey_eq, marshalKey_eq, Bytes.append_lt_append_left, cons_lt_cons_iff]
    simp
  have hnano : (Timestamp.ofSec c.next).nanoTs.toNat = 0 := rfl
  rw [← not_lt, hord, marshal_lt_iff, unsigned_ofSec c.start_bounds.1 c.start_bounds.2] at hlo
  rw [hord, marshal_lt_iff, unsigned_ofSec c.next_bounds.1 c.next_bounds.2, hnano] at hhi
  omega

theorem length_children_lt (h : TreeOK m db) (hhr : c.level ≠ .hr) : (c.children m db).length < 2 ^ 32 := by
  let keyOf : Nat → Bytes := fun n => m.marshalKey c.level.child (.ofSec n)
  have hsub : ((c.entries m db).map Prod.fst).toFinset ⊆ (Finset.Ico c.start.toNat c.next.toNat).image keyOf := by
    intro k hk
    obtain ⟨e, he, rfl⟩ := mem_map.1 (mem_toFinset.1 hk)
    obtain ⟨sec, hkey, -⟩ := exists_sec_of_mem_entries h hhr he
    obtain ⟨-, hlo, hhi⟩ := mem_range.1 he
    rw [hkey] at hlo hhi
    obtain ⟨hge, hlt⟩ := mem_bucket_of_key hlo hhi
    dsimp only at hge hlt
    have hnext := c.next_bounds.2
    refine Finset.mem_image.2 ⟨sec.toUInt64.toNat, Finset.mem_Ico.2 ⟨hge, hlt⟩, ?_⟩
    change m.marshalKey c.level.child (.ofSec sec.toUInt64.toNat) = e.1
    rw [ofSec_unsigned (by omega), hkey]
  have hnodup : ((c.entries m db).map Prod.fst).Nodup := db.nodup_keys_range _ _
  have hlength : c.next - c.start ≤ 366 * 86400 := by
    have hle := next_sub_floor_le c.level c.start
    rwa [c.isStart] at hle
  calc (c.children m db).length = ((c.entries m db).map Prod.fst).toFinset.card := by
        rw [length_children h, toFinset_card_of_nodup hnodup, length_map]
    _ ≤ ((Finset.Ico c.start.toNat c.next.toNat).image keyOf).card := Finset.card_le_card hsub
    _ ≤ (Finset.Ico c.start.toNat c.next.toNat).card := Finset.card_image_le
    _ < 2 ^ 32 := by
        rw [Nat.card_Ico]
        omega

theorem nanoTs_of_mem_children (h : TreeOK m db) (hhr : c.level ≠ .hr) {n : MerkleNode} (hn : n ∈ c.children m db) :
    n.updateTS.nanoTs = 0 := by
  obtain ⟨e, he, hnode⟩ := mem_filterMap.1 hn
  obtain ⟨sec, -, addr, nChildren, hval⟩ := exists_sec_of_mem_entries h hhr he
  rw [hval] at hnode
  rw [← Option.some.inj hnode]

structure Readable (m : Merkle) (db : KeyStore Bytes Value) (c : Cell) : Prop where
  length_lt : (c.children m db).length < 2 ^ 32
  last_nanoTs : ∀ n, (c.children m db).getLast? = some n → n.updateTS.nanoTs < Timestamp.billion

theorem readable_of_ne_hr (h : TreeOK m db) (hhr : c.level ≠ .hr) : Readable m db c := by
  refine ⟨length_children_lt h hhr, fun n hn => ?_⟩
  rw [nanoTs_of_mem_children h hhr (mem_of_getLast? hn)]
  decide

def newestTS (m : Merkle) (c : Cell) (db : KeyStore Bytes Value) : Except Err Timestamp :=
  (c.children m db).getLast?.elim (.ok .zero) fun n =>
    if Timestamp.billion ≤ n.updateTS.nanoTs then .error .invalidTimestamp else .ok n.updateTS

theorem newestTS_of_readable (h : Readable m db c) : ∃ t, c.newestTS m db = .ok t := by
  rw [newestTS]
  cases hlast : (c.children m db).getLast? with
  | none => exact ⟨.zero, rfl⟩
  | some n => exact ⟨n.updateTS, if_neg (UInt32.not_le.2 (h.last_nanoTs n hlast))⟩

theorem saveMerkleTreeCore_eq (h : TreeOK m db) (hlen : (c.children m db).length < 2 ^ 32) :
    saveMerkleTreeCore Γ m c.level (.ofSec c.start) (.ofSec c.next) db = (c.newestTS m db, (sheet Γ m).recalc db c) := by
  have hmapM := mapM_entries (c := c) h
  rw [entries] at hmapM
  have hrecalc : (sheet Γ m).recalc db c = db.set (c.key m) (c.value Γ m db) := rfl
  rw [saveMerkleTreeCore, hmapM, hrecalc, newestTS, value]
  cases hc : c.children m db with
  | nil => rfl
  | cons n ns =>
    rw [hc] at hlen
    have hne : UInt32.ofNat (n :: ns).length ≠ 0 := by
      intro heq
      have hzero := congrArg UInt32.toNat heq
      rw [UInt32.toNat_ofNat_of_lt' hlen] at hzero
      exact absurd hzero (by simp)
    obtain ⟨last, hlast⟩ := Option.ne_none_iff_exists'.1 (mt List.getLast?_eq_none_iff.1 (cons_ne_nil n ns))
    simp only [if_neg hne, hlast, Option.elim_some, Timestamp.unmarshal_marshal]
    rfl

end Cell

theorem TreeOK.recalc {Γ : Ctx} {m : Merkle} {db : KeyStore Bytes Value} (h : TreeOK m db) (c : Cell) :
    TreeOK m ((Cell.sheet Γ m).recalc db c) := by
  have hvalue : ∀ v, c.value Γ m db = some v → ∃ addr nChildren, v = .node ⟨c.level, addr, .ofSec c.start, nChildren, []⟩ := by
    intro v hv
    unfold Cell.value at hv
    split at hv
    · exact absurd hv (by simp)
    · exact ⟨_, _, (Option.some.inj hv).symm⟩
  have hget : ∀ k v, ((Cell.sheet Γ m).recalc db c).get k = some v →
      k = c.key m ∧ c.value Γ m db = some v ∨ db.get k = some v := by
    intro k v hk
    rw [Sheet.recalc, get_set] at hk
    split_ifs at hk with heq
    · exact .inl ⟨heq, hk⟩
    · exact .inr hk
  constructor
  · intro k v hk hp
    rcases hget k v hk with ⟨-, hv⟩ | hold
    · obtain ⟨addr, nChildren, hn⟩ := hvalue v hv
      exact ⟨_, hn⟩
    · exact h.nodes k v hold hp
  · intro level hl r v hk
    rcases hget _ v hk with ⟨heq, hv⟩ | hold
    · rw [Cell.key, marshalKey_eq, append_cancel_left_eq, List.cons.injEq] at heq
      rw [toUInt8_injective heq.1]
      exact ⟨Int64.ofInt c.start, heq.2, hvalue v hv⟩
    · exact h.upper level hl r v hold

namespace Cell

variable {Γ : Ctx} {m : Merkle} {db : KeyStore Bytes Value} {sec : Int64}

theorem saveMerkleTreeCore_above (h : TreeOK m db) (hsec : InRange sec.toInt) (level : MerkleTreeLevel) (hl : level ∈ uppers)
    (hlen : ((above hsec level hl).children m db).length < 2 ^ 32) :
    saveMerkleTreeCore Γ m level (level.bounds ⟨sec, 0⟩).1 (level.bounds ⟨sec, 0⟩).2 db =
      ((above hsec level hl).newestTS m db, (sheet Γ m).recalc db (above hsec level hl)) := by
  have hnext : (above hsec level hl).next = level.buckets.next sec.toInt :=
    level.buckets.next_floor _
  have hcore := saveMerkleTreeCore_eq (Γ := Γ) h hlen
  rw [hnext] at hcore
  rw [bounds_eq hsec hl]
  exact hcore

theorem saveMerkleTreeCore_above_ok (h : TreeOK m db) (hsec : InRange sec.toInt) (level : MerkleTreeLevel) (hl : level ∈ uppers)
    (hhr : level ≠ .hr) :
    ∃ t, saveMerkleTreeCore Γ m level (level.bounds ⟨sec, 0⟩).1 (level.bounds ⟨sec, 0⟩).2 db =
      (.ok t, (sheet Γ m).recalc db (above hsec level hl)) := by
  have hread : Readable m db (above hsec level hl) := readable_of_ne_hr h hhr
  obtain ⟨t, ht⟩ := newestTS_of_readable hread
  exact ⟨t, by rw [saveMerkleTreeCore_above h hsec level hl hread.length_lt, ht]⟩

theorem saveMerkleTreeLevels_eq (h : TreeOK m db) (hsec : InRange sec.toInt)
    (hread : Readable m db (above hsec .hr (by decide))) :
    ∃ t, saveMerkleTreeLevels Γ m ⟨sec, 0⟩ db = (.ok t, (sheet Γ m).recalcAll db (path hsec)) := by
  obtain ⟨t, ht⟩ := newestTS_of_readable hread
  have hhr := saveMerkleTreeCore_above (Γ := Γ) h hsec .hr _ hread.length_lt
  have h1 := h.recalc (Γ := Γ) (above hsec .hr (by decide))
  obtain ⟨_, hday⟩ := saveMerkleTreeCore_above_ok (Γ := Γ) h1 hsec .day (by decide) nofun
  have h2 := h1.recalc (Γ := Γ) (above hsec .day (by decide))
  obtain ⟨_, hmonth⟩ := saveMerkleTreeCore_above_ok (Γ := Γ) h2 hsec .month (by decide) nofun
  have h3 := h2.recalc (Γ := Γ) (above hsec .month (by decide))
  obtain ⟨_, hyear⟩ := saveMerkleTreeCore_above_ok (Γ := Γ) h3 hsec .year (by decide) nofun
  refine ⟨t, ?_⟩
  simp only [saveMerkleTreeLevels, saveMerkleTreeUp, hhr, ht, hday, hmonth, hyear]
  rfl

theorem saveMerkleTreeLevels_of_unreadable (h : TreeOK m db) (hsec : InRange sec.toInt)
    (hlen : ((above hsec .hr (by decide)).children m db).length < 2 ^ 32) {n : MerkleNode}
    (hlast : ((above hsec .hr (by decide)).children m db).getLast? = some n) (hnano : Timestamp.billion ≤ n.updateTS.nanoTs) :
    saveMerkleTreeLevels Γ m ⟨sec, 0⟩ db =
      (.error .invalidTimestamp, (sheet Γ m).recalc db (above hsec .hr (by decide))) := by
  have hhr := saveMerkleTreeCore_above (Γ := Γ) h hsec .hr _ hlen
  have herror : (above hsec .hr (by decide)).newestTS m db = .error .invalidTimestamp := by
    rw [newestTS, hlast]
    exact if_pos hnano
  simp only [saveMerkleTreeLevels, hhr, herror]

end Cell

theorem TreeOK.recalcAll {Γ : Ctx} {m : Merkle} {db : KeyStore Bytes Value} (h : TreeOK m db) (l : List Cell) :
    TreeOK m ((Cell.sheet Γ m).recalcAll db l) := by
  induction l generalizing db with
  | nil => exact h
  | cons c l ih => exact ih (h.recalc c)

/-! ## Rebuilding an hour in the database -/

namespace MerkleState

variable {Γ : Ctx} {m : Merkle} {s : MerkleState} {ts t : Timestamp} {db : KeyStore Bytes Value}

structure Ready (m : Merkle) (s : MerkleState) : Prop where
  treeLock : s.db.lockMap.get m.dbPrefix = none
  timeLock : s.db.lockMap.get m.marshalGenerateTimeKey = none
  generateTime : ∀ v, s.db.db.get m.marshalGenerateTimeKey = some v → DBValue.toDBable v ≠ none

theorem Ready.congr {s' : MerkleState} (h : Ready m s) (hlock : s'.db.lockMap = s.db.lockMap)
    (hget : s'.db.db.get m.marshalGenerateTimeKey = s.db.db.get m.marshalGenerateTimeKey) : Ready m s' where
  treeLock := hlock ▸ h.treeLock
  timeLock := hlock ▸ h.timeLock
  generateTime := hget ▸ h.generateTime

theorem saveGenerateTime_of_free (hlock : s.db.lockMap.get m.marshalGenerateTimeKey = none)
    (htime : ∀ v, s.db.db.get m.marshalGenerateTimeKey = some v → DBValue.toDBable v ≠ none) :
    ∃ s', s.saveGenerateTime m t = (.ok (), s') ∧ s'.db.lockMap = s.db.lockMap ∧ s'.toUpdateTS = s.toUpdateTS ∧
      SameOff [.merkleMeta] s.db.db s'.db.db ∧
      ∀ v, s'.db.db.get m.marshalGenerateTimeKey = some v → DBValue.toDBable v ≠ none := by
  have hsame := (SameOff.refl [.merkleMeta] s.db.db).put (inPart_generateTimeKey m) (by simp) (.dbable t)
  have hput : ∀ v, (s.db.db.put m.marshalGenerateTimeKey (.dbable t)).get m.marshalGenerateTimeKey = some v →
      DBValue.toDBable v ≠ none := by
    intro v hv
    rw [get_put, if_pos rfl] at hv
    rw [← Option.some.inj hv]
    exact Option.some_ne_none t
  rw [saveGenerateTime, LDBDatabase.tryPut, withLock_of_free hlock, LDBDatabase.tryPutCore]
  cases hget : s.db.db.get m.marshalGenerateTimeKey with
  | none => exact ⟨_, rfl, rfl, rfl, hsame, hput⟩
  | some v =>
    obtain ⟨old, hold⟩ := Option.ne_none_iff_exists'.1 (htime v hget)
    simp only [hold]
    split_ifs
    · exact ⟨_, rfl, rfl, rfl, SameOff.refl _ _, fun w hw => htime w hw⟩
    · exact ⟨_, rfl, rfl, rfl, hsame, hput⟩

theorem dbPrefix_ne_generateTimeKey (m : Merkle) : m.dbPrefix ≠ m.marshalGenerateTimeKey :=
  ne_of_inPart (inPart_dbPrefix m) (inPart_generateTimeKey m) (by decide)

theorem saveMerkleTree_of_free (Γ : Ctx) (ts : Timestamp) (hlock : s.db.lockMap.get m.dbPrefix = none) :
    ∃ locked : LDBDatabase Value, locked.db = s.db.db ∧ locked.lockMap = s.db.lockMap.put m.dbPrefix (-1) ∧
      ∀ {e s'}, saveMerkleTreeLocked Γ m { s with db := locked } ts = (e, s') → s'.db.lockMap = locked.lockMap →
        ∃ s'', saveMerkleTree Γ m s ts = (e, s'') ∧ s''.db.db = s'.db.db ∧ s''.db.lockMap = s.db.lockMap ∧
          s''.toUpdateTS = s'.toUpdateTS := by
  have hfst : (s.db.tryLockMap m.dbPrefix).1 = .ok () := by simp [LDBDatabase.tryLockMap, hlock]
  have hmap : (s.db.tryLockMap m.dbPrefix).2.lockMap = s.db.lockMap.put m.dbPrefix (-1) := by
    simp [LDBDatabase.tryLockMap, hlock]
  refine ⟨(s.db.tryLockMap m.dbPrefix).2, tryLockMap_db _ _, hmap, fun {e s'} hbody hkeep => ?_⟩
  have hunlock : (s'.db.unlockMap m.dbPrefix).2.lockMap = s.db.lockMap := by
    have hheld : s'.db.lockMap.get m.dbPrefix = some (-1) := by rw [hkeep, hmap, get_put, if_pos rfl]
    simp only [LDBDatabase.unlockMap, hheld]
    rw [hkeep, hmap, delete_put_of_get_eq_none hlock]
  refine ⟨{ s' with db := (s'.db.unlockMap m.dbPrefix).2 }, ?_, unlockMap_db _ _, hunlock, rfl⟩
  have hlocked : s.db.tryLockMap m.dbPrefix = (.ok (), (s.db.tryLockMap m.dbPrefix).2) := Prod.ext hfst rfl
  rw [saveMerkleTree, hlocked]
  simp only [hbody]

theorem saveMerkleTree_of_ok (hready : Ready m s) (hlevels : saveMerkleTreeLevels Γ m ts s.db.db = (.ok t, db)) :
    ∃ s', saveMerkleTree Γ m s ts = (.ok (), s') ∧ Ready m s' ∧ SameOff [.merkleMeta] db s'.db.db := by
  obtain ⟨locked, hdb, hmap, hspec⟩ := saveMerkleTree_of_free Γ ts hready.treeLock
  have htimeLock : locked.lockMap.get m.marshalGenerateTimeKey = none := by
    rw [hmap, get_put, if_neg (dbPrefix_ne_generateTimeKey m).symm, hready.timeLock]
  have hsameLevels : SameOff [.merkle] s.db.db db := by
    have hsame := saveMerkleTreeLevels_sameOff Γ m ts s.db.db
    rwa [hlevels] at hsame
  have hkey : db.get m.marshalGenerateTimeKey = s.db.db.get m.marshalGenerateTimeKey :=
    hsameLevels _ (not_inPart_of (inPart_generateTimeKey m) (by decide))
  obtain ⟨s', hs', hlock, -, hsame, htime⟩ := saveGenerateTime_of_free (t := t)
    (s := ({ s with db := locked } : MerkleState).withEntries db) htimeLock fun v hv => hready.generateTime v (hkey ▸ hv)
  have hbody : saveMerkleTreeLocked Γ m { s with db := locked } ts = (.ok (), s') := by
    rw [saveMerkleTreeLocked]
    simp only [hdb, hlevels]
    exact hs'
  obtain ⟨s'', hsave, hdb', hlock', -⟩ := hspec hbody hlock
  refine ⟨s'', hsave, ⟨?_, ?_, ?_⟩, ?_⟩
  · rw [hlock', hready.treeLock]
  · rw [hlock', hready.timeLock]
  · rw [hdb']
    exact htime
  · rw [hdb']
    exact hsame

theorem saveMerkleTree_of_error {e : Err} (hready : Ready m s) (hlevels : saveMerkleTreeLevels Γ m ts s.db.db = (.error e, db)) :
    ∃ s', saveMerkleTree Γ m s ts = (.error e, s') ∧ s'.db.db = db := by
  obtain ⟨locked, hdb, -, hspec⟩ := saveMerkleTree_of_free Γ ts hready.treeLock
  have hbody : saveMerkleTreeLocked Γ m { s with db := locked } ts =
      (.error e, ({ s with db := locked } : MerkleState).withEntries db) := by
    rw [saveMerkleTreeLocked]
    simp only [hdb, hlevels]
  obtain ⟨s', hsave, hdb', -⟩ := hspec hbody rfl
  exact ⟨s', hsave, hdb'⟩

end MerkleState

end PttaiCore
