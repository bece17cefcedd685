import PttaiCore.Lemmas.Store
import PttaiCore.Lib.Select
import PttaiCore.Theorems.Signing

/-! # Which version of an oplog is kept -/

namespace PttaiCore

structure Version (Γ : Ctx) (id : PttID) where
  oplog : BaseOplog
  id_eq : oplog.id = id
  hasMasterLogID : oplog.masterLogID.isSome
  verified : (oplog.verify Γ).1 = .ok ()
  notSync : oplog.isSync = false
  decoded : oplog.reload = oplog

structure Kept where
  updateTS : Timestamp
  hash : Bytes
  masterSigns : List SignInfo

def BaseOplog.kept (o : BaseOplog) : Kept := ⟨o.updateTS, o.hash, o.masterSigns⟩

def BaseOplog.rank (o : BaseOplog) : (Int ×ₗ Nat) ×ₗ Bytes := toLex (o.updateTS.order, o.hash)

def ProcessSyncs (processLog : BaseOplog → BaseOplog.Processed) : Prop :=
  ∀ o, (processLog o).err = none ∧ (processLog o).oplog = { o with isSync := true }

def handleAll {Γ : Ctx} {id : PttID} (p : OplogDB) (processLog : BaseOplog → BaseOplog.Processed) (merkle : Option Merkle)
    (vs : List (Version Γ id)) (s : MerkleState) : MerkleState :=
  vs.foldl (fun s v => (v.oplog.handleOplog p processLog merkle s).2) s

namespace ConvergenceAux

open BaseOplog

variable {Γ : Ctx} {id : PttID} {p : OplogDB} {processLog : BaseOplog → Processed} {merkle : Option Merkle} {s : MerkleState}

theorem hash_length {o : BaseOplog} (h : (o.verify Γ).1 = .ok ()) : 32 ≤ o.hash.length := by
  rw [((VerifyAux.verify_ok_iff Γ o).1 h).2.1]
  exact (Γ.keccak256Hash _).2.ge

def Holds (p : OplogDB) (id : PttID) (s : MerkleState) (k : Kept) : Prop :=
  ∃ o, Stored p s.db o ∧ o.id = id ∧ o.masterLogID.isSome ∧ o.isSync = true ∧
    o.masterSigns.map SignInfo.reload = o.masterSigns ∧ o.kept = k

theorem Holds.get {k : Kept} (h : Holds p id s k) : ∃ o, BaseOplog.get p id s.db = .ok o ∧ o.kept = k := by
  obtain ⟨o, hstored, rfl, -, -, hsigns, rfl⟩ := h
  refine ⟨o.reload, hstored.get, ?_⟩
  simp [kept, reload, hsigns]

theorem masterSigns_reload {o : BaseOplog} (h : o.reload = o) : o.masterSigns.map SignInfo.reload = o.masterSigns :=
  congrArg BaseOplog.masterSigns h

theorem handleOplog_of_isSync {o : BaseOplog} (h : (o.selectExisting p merkle s).oplog.isSync = true) :
    (o.handleOplog p processLog merkle s).2 = (o.selectExisting p merkle s).state := by
  unfold handleOplog
  cases hr : (o.selectExisting p merkle s).result with
  | error e => simp only [hr]
  | ok r => simp only [hr, h, if_true]

theorem handle_first (hprocess : ProcessSyncs processLog) (hfree : s.db.lockMap.get (idxKey p id) = none)
    (habsent : s.db.db.get (idxKey p id) = none) (v : Version Γ id) :
    Holds p id (v.oplog.handleOplog p processLog merkle s).2 v.oplog.kept := by
  obtain ⟨o, rfl, halive, hverified, hsync, hdecoded⟩ := v
  have hsel : o.selectExisting p merkle s = ⟨.ok (false, true), o, s⟩ := by
    rw [selectExisting, get_of_absent hfree habsent]
  obtain ⟨herr, hdone⟩ := hprocess o
  have hsave : (processLog o).toSave = .ok { o with isSync := true } := by rw [Processed.toSave, herr, hdone]
  have hhash : 32 ≤ o.hash.length := hash_length hverified
  have hstored : Stored p ({ o with isSync := true }.save p merkle s).2.db { o with isSync := true }.notNewer :=
    save_stored (o := { o with isSync := true }) merkle hfree halive hhash (.absent habsent)
  have hstate : (o.handleOplog p processLog merkle s).2 = ({ o with isSync := true }.save p merkle s).2 := by
    unfold handleOplog
    simp only [hsel, hsync, hsave, Bool.or_false, Bool.false_eq_true, if_false]
    split <;> rename_i h <;> rw [h]
  rw [hstate]
  have hsigns := masterSigns_reload hdecoded
  exact ⟨_, hstored, rfl, halive, rfl, hsigns, rfl⟩

theorem rank_lt_iff (o o' : BaseOplog) : o.rank < o'.rank ↔
    o.updateTS.isLess o'.updateTS = true ∨ (o'.updateTS.isLess o.updateTS = false ∧ o.hash < o'.hash) := by
  rw [rank, rank, Prod.Lex.toLex_lt_toLex, Timestamp.isLess_iff, Timestamp.isLess_eq_false_iff]
  constructor
  · rintro (h | ⟨h, h'⟩)
    · exact .inl h
    · exact .inr ⟨h.le, h'⟩
  · rintro (h | ⟨h, h'⟩)
    · exact .inl h
    · exact (lt_or_eq_of_le h).imp_right fun h => ⟨h, h'⟩

def preferred (v orig : BaseOplog) : BaseOplog := { v with isNewer := false, extra := orig.extra, isSync := true }

theorem selectExisting_of_stored (merkle : Option Merkle) {v o : BaseOplog} (hstored : Stored p s.db o) (hid : v.id = o.id)
    (hv : v.masterLogID.isSome) (ho : o.masterLogID.isSome) (hsync : o.isSync = true) :
    (v.selectExisting p merkle s).oplog.isSync = true ∧
      (v.selectExisting p merkle s).state =
        if v.hash = o.hash then s else if v.rank < o.rank then ((preferred v o.reload).save p merkle s).2 else s := by
  have hget : BaseOplog.get p v.id s.db = .ok o.reload := hid ▸ hstored.get
  have hstatus : v.toStatus ≤ o.reload.toStatus := by
    rw [toStatus_of_masterLogID hv, toStatus_of_masterLogID (o := o.reload) ho]
    decide
  have hsync' : o.reload.isSync = true := hsync
  have hv' : v.masterLogID.isNone = false := by simpa using hv
  have ho' : o.reload.masterLogID.isNone = false := by
    change o.masterLogID.isNone = false
    simpa using ho
  have hhash : o.reload.hash = o.hash := rfl
  have hts : o.reload.updateTS = o.updateTS := rfl
  simp only [selectExisting, hget, hstatus, hsync', hv', ho', hhash, hts, rank_lt_iff, decide_true, Bool.and_self,
    Bool.or_true, Bool.false_eq_true, if_false]
  by_cases h1 : v.hash = o.hash
  · simp [h1]
  · by_cases h2 : v.updateTS.isLess o.updateTS = true
    · simp [h1, h2, preferred]
    · by_cases h3 : o.updateTS.isLess v.updateTS = true
      · simp [h1, h2, h3]
      · by_cases h4 : v.hash < o.hash
        · simp [h1, h2, h3, h4, preferred]
        · simp [h1, h2, h3, h4]

theorem handle_next {cur v : Version Γ id} (h : Holds p id s cur.oplog.kept) :
    Holds p id (v.oplog.handleOplog p processLog merkle s).2
      (Select.select (fun v : Version Γ id => v.oplog.rank) (fun v => v.oplog.hash) cur v).oplog.kept := by
  obtain ⟨o, hstored, hid, ho, hsync, hsigns, hkept⟩ := h
  obtain ⟨hts, hhash, -⟩ := Kept.mk.inj hkept
  have hrank : cur.oplog.rank = o.rank := by rw [rank, rank, ← hts, ← hhash]
  obtain ⟨hselSync, hstate⟩ := selectExisting_of_stored merkle hstored (v.id_eq.trans hid.symm)
    v.hasMasterLogID ho hsync
  rw [handleOplog_of_isSync hselSync, hstate, Select.select, hrank, ← hhash]
  have hkeep : Holds p id s cur.oplog.kept := ⟨o, hstored, hid, ho, hsync, hsigns, hkept⟩
  split_ifs with h1 h2
  · exact hkeep
  · have hfree : s.db.lockMap.get (idxKey p v.oplog.id) = none := by
      rw [v.id_eq, ← hid]
      exact hstored.free
    have hsigns := masterSigns_reload v.decoded
    have hlen : 32 ≤ v.oplog.hash.length := hash_length v.verified
    obtain ⟨keys, base, hprior⟩ := hstored.prior (preferred v.oplog o.reload).notNewer (v.id_eq.trans hid.symm)
      v.hasMasterLogID
    exact ⟨_, save_stored (o := preferred v.oplog o.reload) merkle hfree v.hasMasterLogID hlen hprior, v.id_eq,
      v.hasMasterLogID, rfl, hsigns, rfl⟩
  · exact hkeep

theorem handleAll_holds (merkle : Option Merkle) (hprocess : ProcessSyncs processLog) (hfree : s.db.lockMap.get (idxKey p id) = none)
    (habsent : s.db.db.get (idxKey p id) = none) (v : Version Γ id) (l : List (Version Γ id)) :
    Holds p id (handleAll p processLog merkle (v :: l) s)
      (Select.selectAll (fun v : Version Γ id => v.oplog.rank) (fun v => v.oplog.hash) v l).oplog.kept := by
  have hrun : ∀ (l : List (Version Γ id)) (cur : Version Γ id) (s : MerkleState), Holds p id s cur.oplog.kept →
      Holds p id (handleAll p processLog merkle l s)
        (Select.selectAll (fun v : Version Γ id => v.oplog.rank) (fun v => v.oplog.hash) cur l).oplog.kept := by
    intro l
    induction l with
    | nil => exact fun cur s h => h
    | cons a l ih => exact fun cur s h => ih _ _ (handle_next h)
  exact hrun l v _ (handle_first hprocess hfree habsent v)

end ConvergenceAux

/-- Versions of one oplog that arrive at a store without it leave the update time, the hash and the master signatures of the least
version (by update time, then hash) in whatever order they arrive, exactly when the versions that share its hash have its update
time and its master signatures. -/
theorem handleOplogs_converge_iff {Γ : Ctx} {id : PttID} {p : OplogDB} {processLog : BaseOplog → BaseOplog.Processed}
    {merkle : Option Merkle} {s : MerkleState} (hprocess : ProcessSyncs processLog)
    (hfree : s.db.lockMap.get (BaseOplog.idxKey p id) = none) (habsent : s.db.db.get (BaseOplog.idxKey p id) = none)
    {vs : List (Version Γ id)} {m : Version Γ id} (hm : m ∈ vs) (hleast : ∀ v ∈ vs, m.oplog.rank ≤ v.oplog.rank) :
    (∀ order, order.Perm vs →
      ∃ o, BaseOplog.get p id (handleAll p processLog merkle order s).db = .ok o ∧ o.kept = m.oplog.kept) ↔
    ∀ v ∈ vs, v.oplog.hash = m.oplog.hash →
      v.oplog.updateTS = m.oplog.updateTS ∧ v.oplog.masterSigns = m.oplog.masterSigns := by
  -- what the store holds is what the selection leaves, so both sides are about the selection
  have hselect := Select.selectAll_eq_iff (fun v : Version Γ id => v.oplog.rank) (fun v => v.oplog.hash)
    (fun v => v.oplog.kept) ?_ ?_ hm hleast
  · have hkept : ∀ v : Version Γ id, v.oplog.hash = m.oplog.hash → (v.oplog.kept = m.oplog.kept ↔
        v.oplog.updateTS = m.oplog.updateTS ∧ v.oplog.masterSigns = m.oplog.masterSigns) := by
      intro v hv
      simp [BaseOplog.kept, hv]
    rw [← forall₃_congr fun v _ hv => hkept v hv, ← hselect]
    constructor
    · intro h v l hperm
      obtain ⟨o, hget, ho⟩ := h (v :: l) hperm
      obtain ⟨o', hget', ho'⟩ := (ConvergenceAux.handleAll_holds merkle hprocess hfree habsent v l).get
      rw [hget'] at hget
      cases hget
      exact ho'.symm.trans ho
    · intro h order hperm
      cases order with
      | nil => exact absurd (hperm.mem_iff.2 hm) (by simp)
      | cons v l =>
        obtain ⟨o, hget, ho⟩ := (ConvergenceAux.handleAll_holds merkle hprocess hfree habsent v l).get
        exact ⟨o, hget, ho.trans (h v l hperm)⟩
  · intro a b hab
    obtain ⟨hts, hhash, -⟩ := Kept.mk.inj hab
    simp only [BaseOplog.rank, hts, hhash]
  · intro a b hab
    exact congrArg (fun r => (ofLex r).2) hab

namespace ConvergenceWitness

open SigningWitness

def oplogDB : OplogDB := ⟨⟨⟨ascii ['.', 'M', 'A'], by decide⟩, idOf 7, 450⟩, true⟩

def emptyState : MerkleState := ⟨.ofDB KeyStore.empty, ∅, .zero, .zero⟩

def processLog (o : BaseOplog) : BaseOplog.Processed := ⟨[], none, { o with isSync := true }⟩

def arrived (s : SignState) (ts : Timestamp) : BaseOplog := { s.oplog with updateTS := ts, isSync := false }

def signed : SignState := next (next start masterLabel) logLast

def signedByOther : SignState := next (next start (.masterSign (signer 4) ⟨1004, 0⟩ (saltOf 6))) logLast

def early : Version ctx (idOf 9) := ⟨arrived signed ⟨1001, 0⟩, rfl, rfl, by decide +kernel, rfl, rfl⟩

def late : Version ctx (idOf 9) := ⟨arrived signed ⟨1005, 0⟩, rfl, rfl, by decide +kernel, rfl, rfl⟩

def other : Version ctx (idOf 9) := ⟨arrived signedByOther ⟨1004, 0⟩, rfl, rfl, by decide +kernel, rfl, rfl⟩

def storedTS (vs : List (Version ctx (idOf 9))) : Option Timestamp :=
  (BaseOplog.get oplogDB (idOf 9) (handleAll oplogDB processLog (some oplogDB.merkle) vs emptyState).db).toOption.map
    BaseOplog.updateTS

end ConvergenceWitness

open ConvergenceWitness SigningWitness in
/-- Of two versions with different hashes the least one is kept, though it arrives last. -/
theorem handleOplogs_converge_iff_two :
    ∃ o, BaseOplog.get oplogDB (idOf 9)
        (handleAll oplogDB processLog (some oplogDB.merkle) [other, early] emptyState).db = .ok o ∧
      o.kept = early.oplog.kept := by
  have hne : other.oplog.hash ≠ early.oplog.hash := by decide +kernel
  refine (handleOplogs_converge_iff (m := early) (fun _ => ⟨rfl, rfl⟩) rfl rfl (by simp) ?_).2 ?_
    [other, early] (List.Perm.swap early other [])
  · intro v hv
    rcases List.mem_pair.1 hv with rfl | rfl <;> decide +kernel
  · intro v hv hhash
    rcases List.mem_pair.1 hv with rfl | rfl
    · exact ⟨rfl, rfl⟩
    · exact absurd hhash hne

open ConvergenceWitness SigningWitness in
/-- Two versions with one hash: the least one is kept only if it arrives first. -/
theorem handleOplogs_order_matters :
    early.oplog.hash = late.oplog.hash ∧ early.oplog.rank < late.oplog.rank ∧
      storedTS [early, late] = some ⟨1001, 0⟩ ∧ storedTS [late, early] = some ⟨1005, 0⟩ := by
  refine ⟨rfl, by decide +kernel, by decide +kernel, by decide +kernel⟩

end PttaiCore
