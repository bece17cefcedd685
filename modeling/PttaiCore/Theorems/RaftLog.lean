import PttaiCore.Lemmas.RaftStorage
import PttaiCore.Lib.Run

/-! # The raft storage as a log -/

namespace PttaiCore

open KeyStore List

def ContiguousFrom : Nat → List RaftEntry → Prop
  | _, [] => True
  | i, e :: l => e.index.toNat = i ∧ ContiguousFrom (i + 1) l

structure RaftLog where
  offset : Nat
  term : UInt64
  ents : List RaftEntry

namespace RaftLog

def empty : RaftLog := ⟨0, 0, []⟩

variable (log : RaftLog)

def firstIndex : Nat := log.offset + 1

def lastIndex : Nat := log.offset + log.ents.length

def termAt (i : Nat) : Option UInt64 :=
  if i = log.offset then some log.term else log.ents[i - log.firstIndex]?.map RaftEntry.term

def slice (lo hi : Nat) : List RaftEntry := (log.ents.drop (lo - log.firstIndex)).take (hi - lo)

def append (new : List RaftEntry) : RaftLog :=
  match new with
  | [] => log
  | e :: l => { log with ents := log.ents.take (e.index.toNat - log.firstIndex) ++ e :: l }

def applySnapshot (snap : RaftSnapshot) : RaftLog := ⟨snap.metadata.index.toNat, snap.metadata.term, []⟩

end RaftLog

inductive RaftCall where
  | append (ents : List RaftEntry)
  | applySnapshot (snap : RaftSnapshot)

def RaftStorage.raftCall (rs : RaftStorage) : RaftCall → RaftStorage
  | .append ents => (rs.append ents).2
  | .applySnapshot snap => (rs.applySnapshot snap).2

def RaftLog.raftCall (log : RaftLog) : RaftCall → RaftLog
  | .append ents => log.append ents
  | .applySnapshot snap => RaftLog.applySnapshot snap

def RaftLog.after (calls : List RaftCall) : RaftLog := calls.foldl RaftLog.raftCall .empty

def RaftCall.Proper (rs : RaftStorage) : RaftCall → Prop
  | .append ents => ∀ e ∈ ents.head?, ContiguousFrom e.index.toNat ents ∧
      rs.firstIndex.toNat ≤ e.index.toNat ∧ e.index.toNat ≤ rs.lastIndex.toNat + 1
  | .applySnapshot snap => rs.snapshot.metadata.index < snap.metadata.index

def RaftCall.Backed (rs : RaftStorage) : RaftCall → Prop
  | .append _ => True
  | .applySnapshot snap => rs.term snap.metadata.index = .ok snap.metadata.term ∧ snap.metadata.index ≠ maxUint64

structure RaftLog.Agrees (log : RaftLog) (rs : RaftStorage) : Prop where
  first : rs.firstIndex.toNat = log.firstIndex
  last : rs.lastIndex.toNat = log.lastIndex
  term : ∀ i : UInt64, log.firstIndex - 1 ≤ i.toNat → i.toNat ≤ log.lastIndex →
    ∃ t, rs.term i = .ok t ∧ log.termAt i.toNat = some t
  entries : ∀ lo hi maxSize : UInt64, log.firstIndex ≤ lo.toNat → lo < hi → hi.toNat ≤ log.lastIndex + 1 →
    rs.entries lo hi maxSize = .ok (log.slice lo.toNat hi.toNat)

def RaftStep (rs : RaftStorage) (c : RaftCall) (rs' : RaftStorage) : Prop := c.Proper rs ∧ c.Backed rs ∧ rs' = rs.raftCall c

namespace RaftLogAux

open RaftStorage

/-! ## Consecutive entries -/

section contiguous

variable {i j : Nat} {l l' : List RaftEntry} {e : RaftEntry}

theorem contiguous_append : ContiguousFrom i (l ++ l') ↔ ContiguousFrom i l ∧ ContiguousFrom (i + l.length) l' := by
  induction l generalizing i with
  | nil => simp [ContiguousFrom]
  | cons a l ih =>
    rw [cons_append, ContiguousFrom, ih, ContiguousFrom, and_assoc, length_cons]
    rw [show i + 1 + l.length = i + (l.length + 1) by omega]

theorem contiguous_take (h : ContiguousFrom i l) (n : Nat) : ContiguousFrom i (l.take n) := by
  rw [← take_append_drop n l, contiguous_append] at h
  exact h.1

theorem contiguous_drop (h : ContiguousFrom i l) {n : Nat} (hn : n ≤ l.length) : ContiguousFrom (i + n) (l.drop n) := by
  rw [← take_append_drop n l, contiguous_append, length_take, min_eq_left hn] at h
  exact h.2

theorem index_of_contiguous (h : ContiguousFrom i l) (he : l[j]? = some e) : e.index.toNat = i + j := by
  induction l generalizing i j with
  | nil => simp at he
  | cons a l ih =>
    cases j with
    | zero =>
      cases he
      exact h.1
    | succ j =>
      have := ih h.2 he
      omega

theorem index_mem_contiguous (h : ContiguousFrom i l) (he : e ∈ l) : i ≤ e.index.toNat ∧ e.index.toNat < i + l.length := by
  obtain ⟨j, hj⟩ := mem_iff_getElem?.1 he
  have hidx := index_of_contiguous h hj
  obtain ⟨hlt, -⟩ := List.getElem?_eq_some_iff.1 hj
  omega

theorem index_getLast (h : ContiguousFrom i l) (hne : l ≠ []) : (l.getLast hne).index.toNat + 1 = i + l.length := by
  have hget : l[l.length - 1]? = some (l.getLast hne) := by rw [← List.getLast?_eq_getElem?, List.getLast?_eq_some_getLast hne]
  have hidx := index_of_contiguous h hget
  have hpos := length_pos_iff.2 hne
  omega

end contiguous

/-! ## What the storage holds -/

structure Holds (log : RaftLog) (rs : RaftStorage) : Prop where
  first : rs.firstIdx.toNat = log.firstIndex
  last : rs.lastIdx.toNat = log.lastIndex
  only : OnlyEntries rs.myID rs.db
  below : ∀ i : UInt64, i.toNat = log.offset → rs.term i = .ok log.term
  contiguous : ContiguousFrom log.firstIndex log.ents
  stored : ∀ e ∈ log.ents, rs.db.get (raftMarshalKey rs.myID e.index) = some (.entry e)

section answers

variable {log : RaftLog} {rs : RaftStorage}

theorem entriesLoop_eq {myID : PttID} {db : KeyStore Bytes RaftValue} (hdb : OnlyEntries myID db) {l : List RaftEntry} {lo hi : UInt64}
    (hl : ContiguousFrom lo.toNat l) (hstored : ∀ e ∈ l, db.get (raftMarshalKey myID e.index) = some (.entry e))
    (hhi : hi.toNat = lo.toNat + l.length) : entriesLoop hi lo (raftIter myID db lo) = .ok l := by
  induction l generalizing lo with
  | nil =>
    obtain rfl : lo = hi := UInt64.toNat_inj.1 (by rw [hhi]; rfl)
    cases raftIter myID db lo with
    | nil => rw [entriesLoop, if_neg (not_not.2 rfl)]
    | cons a rest =>
      obtain ⟨k, v⟩ := a
      unfold entriesLoop
      rw [if_pos rfl]
  | cons e l ih =>
    have hindex : e.index = lo := UInt64.toNat_inj.1 hl.1
    have hbound := hi.toNat_lt
    rw [length_cons] at hhi
    have hsucc : (lo + 1).toNat = lo.toNat + 1 := by
      rw [UInt64.toNat_add, UInt64.toNat_one, Nat.mod_eq_of_lt]
      omega
    have hne : lo ≠ hi := fun heq => by
      rw [heq] at hhi
      omega
    have hget := hstored e mem_cons_self
    rw [hindex] at hget
    rw [raftIter_cons hdb (by omega) hget, entriesLoop, if_neg hne]
    simp only [hindex, ne_eq, not_true_eq_false, if_false]
    rw [ih (by rw [hsucc]; exact hl.2) (fun e' he' => hstored e' (mem_cons_of_mem e he')) (by omega)]
    rfl

theorem Holds.term_eq (h : Holds log rs) {e : RaftEntry} (he : e ∈ log.ents) : rs.term e.index = .ok e.term := by
  rw [RaftStorage.term, h.stored e he]

theorem Holds.agrees (h : Holds log rs) : log.Agrees rs := by
  refine ⟨h.first, h.last, fun i hlo hhi => ?_, fun lo hi maxSize hlo hlt hhi => ?_⟩
  · have hfirst : log.firstIndex = log.offset + 1 := rfl
    have hlast : log.lastIndex = log.offset + log.ents.length := rfl
    by_cases hi : i.toNat = log.offset
    · exact ⟨log.term, h.below i hi, by rw [RaftLog.termAt, if_pos hi]⟩
    · obtain ⟨e, he⟩ : ∃ e, log.ents[i.toNat - log.firstIndex]? = some e :=
        ⟨_, List.getElem?_eq_getElem (show i.toNat - log.firstIndex < log.ents.length by omega)⟩
      have hindex : e.index = i := UInt64.toNat_inj.1 (by
        rw [index_of_contiguous h.contiguous he]
        omega)
      refine ⟨e.term, ?_, ?_⟩
      · rw [← hindex]
        exact h.term_eq (mem_of_getElem? he)
      · rw [RaftLog.termAt, if_neg hi, he]
        rfl
  · have hfirst : log.firstIndex = log.offset + 1 := rfl
    have hlast : log.lastIndex = log.offset + log.ents.length := rfl
    have hlt' := UInt64.lt_iff_toNat_lt.1 hlt
    rw [RaftStorage.entries, if_neg (UInt64.not_le.2 hlt)]
    refine entriesLoop_eq h.only ?_ (fun e he => h.stored e (drop_subset _ _ (take_subset _ _ he))) ?_
    · have hdrop := contiguous_drop h.contiguous (n := lo.toNat - log.firstIndex) (by omega)
      rw [show log.firstIndex + (lo.toNat - log.firstIndex) = lo.toNat by omega] at hdrop
      exact contiguous_take hdrop _
    · rw [RaftLog.slice, length_take, length_drop]
      omega

end answers

/-! ## What the calls keep -/

section calls

variable {log : RaftLog} {rs : RaftStorage}

theorem holds_new (myID : PttID) (db : KeyStore Bytes RaftValue) : Holds .empty (newRaftStorageWithClean myID db) := by
  have hzero : ∀ {i : UInt64}, i.toNat = 0 → i = 0 := fun hi => UInt64.toNat_inj.1 hi
  rw [newRaftStorageWithClean, fresh_eq]
  refine ⟨rfl, rfl, ?_, fun i hi => ?_, trivial, fun e he => absurd he not_mem_nil⟩
  · exact (onlyEntries_clean.putEntry .zero).putOther rfl (by decide) _
  · rw [hzero hi, RaftStorage.term]
    rw [get_put, if_neg raftMarshalKey_ne_hardState, get_put, if_pos rfl]
    rfl

variable {l : List RaftEntry}

theorem get_putEntries {myID : PttID} {i : Nat} (hl : ContiguousFrom i l) (db : KeyStore Bytes RaftValue)
    {e : RaftEntry} (he : e ∈ l) :
    (db.putAll (l.map fun e => (raftMarshalKey myID e.index, .entry e))).get (raftMarshalKey myID e.index) = some (.entry e) := by
  induction l generalizing i db with
  | nil => cases he
  | cons a l ih =>
    rw [map_cons, putAll_cons]
    rcases mem_cons.1 he with rfl | he
    · rw [get_putAll_of_not_mem, get_put, if_pos rfl]
      intro hmem
      obtain ⟨_, hmem', hkey⟩ := mem_map.1 hmem
      obtain ⟨e', he', rfl⟩ := mem_map.1 hmem'
      have hidx := (index_mem_contiguous hl.2 he').1
      rw [raftMarshalKey_inj.1 hkey, hl.1] at hidx
      omega
    · exact ih hl.2 _ he

theorem get_putEntries_of_lt {myID : PttID} {i : Nat} (hl : ContiguousFrom i l) (db : KeyStore Bytes RaftValue)
    {j : UInt64} (hj : j.toNat < i) :
    (db.putAll (l.map fun e => (raftMarshalKey myID e.index, .entry e))).get (raftMarshalKey myID j) = db.get (raftMarshalKey myID j) := by
  refine get_putAll_of_not_mem fun hmem => ?_
  obtain ⟨_, hmem', hkey⟩ := mem_map.1 hmem
  obtain ⟨e', he', rfl⟩ := mem_map.1 hmem'
  have hidx := (index_mem_contiguous hl he').1
  rw [raftMarshalKey_inj.1 hkey] at hidx
  omega

theorem append_eq {e : RaftEntry} (hl : ContiguousFrom e.index.toNat (e :: l))
    (hfirst : rs.firstIdx.toNat ≤ e.index.toNat) : (rs.append (e :: l)).2 =
      { (e :: l).foldl saveEntry rs with lastIdx := ((e :: l).getLast (cons_ne_nil e l)).index } := by
  have hlast := (index_mem_contiguous hl (getLast_mem (cons_ne_nil e l))).1
  have hge : ¬ ((e :: l).getLast (cons_ne_nil e l)).index < rs.firstIdx := by
    rw [UInt64.lt_iff_toNat_lt]
    omega
  have hkept : ¬ rs.firstIdx > e.index := by
    rw [gt_iff_lt, UInt64.lt_iff_toNat_lt]
    omega
  simp only [RaftStorage.append, if_neg hge, if_neg hkept, List.getLast?_eq_some_getLast (cons_ne_nil e l)]

theorem Holds.append (h : Holds log rs) {ents : List RaftEntry} (hproper : (RaftCall.append ents).Proper rs) :
    Holds (log.append ents) (rs.append ents).2 := by
  cases ents with
  | nil => exact h
  | cons e l =>
    obtain ⟨hl, hlo, hhi⟩ := hproper e rfl
    have hfirst : rs.firstIdx.toNat = log.offset + 1 := h.first
    have hlast : rs.lastIdx.toNat = log.offset + log.ents.length := h.last
    have hlo' : rs.firstIdx.toNat ≤ e.index.toNat := hlo
    have hhi' : e.index.toNat ≤ rs.lastIdx.toNat + 1 := hhi
    have hoff : log.firstIndex = log.offset + 1 := rfl
    obtain ⟨-, hfirst', -, -, hmyID⟩ := saveEntries_fields (e :: l) rs
    have hdb := saveEntries_db (e :: l) rs
    have hlen : (log.ents.take (e.index.toNat - log.firstIndex)).length = e.index.toNat - log.firstIndex := by
      rw [length_take, min_eq_left]
      omega
    rw [append_eq hl hlo', RaftLog.append]
    refine ⟨?_, ?_, ?_, fun i hi => ?_, ?_, fun e' he' => ?_⟩
    · exact (congrArg UInt64.toNat hfirst').trans h.first
    · have hidx := index_getLast hl (cons_ne_nil e l)
      change ((e :: l).getLast _).index.toNat = log.offset + (log.ents.take (e.index.toNat - log.firstIndex) ++ e :: l).length
      rw [length_append, hlen]
      omega
    · rw [hmyID, hdb]
      exact h.only.putEntries (e :: l)
    · have hbelow := h.below i hi
      rw [RaftStorage.term] at hbelow ⊢
      have hi' : i.toNat = log.offset := hi
      rw [hmyID, hdb, get_putEntries_of_lt hl rs.db (by omega)]
      exact hbelow
    · refine contiguous_append.2 ⟨contiguous_take h.contiguous _, ?_⟩
      change ContiguousFrom (log.firstIndex + (log.ents.take (e.index.toNat - log.firstIndex)).length) (e :: l)
      rw [hlen, show log.firstIndex + (e.index.toNat - log.firstIndex) = e.index.toNat by omega]
      exact hl
    · rw [hmyID, hdb]
      rcases mem_append.1 he' with he' | he'
      · have hidx := (index_mem_contiguous (contiguous_take h.contiguous _) he').2
        rw [hlen] at hidx
        rw [get_putEntries_of_lt hl rs.db (by omega)]
        exact h.stored e' (take_subset _ _ he')
      · exact get_putEntries hl rs.db he'

theorem Holds.applySnapshot (h : Holds log rs) {snap : RaftSnapshot} (hproper : (RaftCall.applySnapshot snap).Proper rs)
    (hbacked : (RaftCall.applySnapshot snap).Backed rs) : Holds (.applySnapshot snap) (rs.applySnapshot snap).2 := by
  obtain ⟨hterm, hmax⟩ := hbacked
  have hne : snap.metadata.index.toNat ≠ 2 ^ 64 - 1 := fun heq => hmax (UInt64.toNat_inj.1 heq)
  have hbound := snap.metadata.index.toNat_lt
  rw [applySnapshot_of_lt hproper hmax]
  refine ⟨?_, rfl, ?_, fun i hi => ?_, trivial, fun e he => absurd he not_mem_nil⟩
  · change (snap.metadata.index + 1).toNat = snap.metadata.index.toNat + 1
    rw [UInt64.toNat_add, UInt64.toNat_one, Nat.mod_eq_of_lt]
    omega
  · exact h.only.putOther rfl (by decide) _
  · rw [UInt64.toNat_inj.1 hi]
    rw [RaftStorage.term] at hterm ⊢
    rw [get_put, if_neg raftMarshalKey_ne_snapshot]
    exact hterm

theorem Holds.raftCall (h : Holds log rs) {c : RaftCall} (hproper : c.Proper rs) (hbacked : c.Backed rs) :
    Holds (log.raftCall c) (rs.raftCall c) := by
  cases c with
  | append ents => exact h.append hproper
  | applySnapshot snap => exact h.applySnapshot hproper hbacked

theorem after_append (calls : List RaftCall) (c : RaftCall) : RaftLog.after (calls ++ [c]) = (RaftLog.after calls).raftCall c := by
  rw [RaftLog.after, RaftLog.after, foldl_append]
  rfl

theorem holds_of_run {rs₀ : RaftStorage} {calls : List RaftCall} (h₀ : Holds .empty rs₀) (hrun : Run RaftStep rs₀ calls rs) :
    Holds (.after calls) rs := by
  refine hrun.invariantTrace (I := fun as t => Holds (.after as) t) h₀ ?_
  rintro as t c u h ⟨hproper, hbacked, rfl⟩
  rw [after_append]
  exact h.raftCall hproper hbacked

theorem backed_of_agrees {c : RaftCall} (hproper : c.Proper rs) (hagrees : (log.raftCall c).Agrees (rs.raftCall c)) : c.Backed rs := by
  cases c with
  | append ents => trivial
  | applySnapshot snap =>
    have hmax : snap.metadata.index ≠ maxUint64 := by
      intro hmax
      have hfirst : (snap.metadata.index + 1).toNat = snap.metadata.index.toNat + 1 := by
        rw [← applySnapshot_firstIdx hproper]
        exact hagrees.first
      rw [hmax] at hfirst
      exact absurd hfirst (by decide)
    refine ⟨?_, hmax⟩
    obtain ⟨t, ht, hlog⟩ := hagrees.term snap.metadata.index le_rfl le_rfl
    rw [RaftLog.raftCall, RaftLog.applySnapshot, RaftLog.termAt, if_pos rfl] at hlog
    cases hlog
    rw [RaftStorage.raftCall, applySnapshot_of_lt hproper hmax, RaftStorage.term] at ht
    rw [get_put, if_neg raftMarshalKey_ne_snapshot] at ht
    rw [RaftStorage.term]
    exact ht

end calls

end RaftLogAux

open RaftLogAux in
/-- In every run from a new storage in which every snapshot is backed, the storage answers as the log; and the next call keeps it so if
and only if it is backed too. -/
theorem raftLog_agrees_of_run {myID : PttID} {db : KeyStore Bytes RaftValue} {rs₀ rs : RaftStorage} {calls : List RaftCall}
    (hnew : RaftStorage.newRaftStorage true myID db = .ok rs₀) (hrun : Run RaftStep rs₀ calls rs) :
    (RaftLog.after calls).Agrees rs ∧
      ∀ c, c.Proper rs → ((RaftLog.after (calls ++ [c])).Agrees (rs.raftCall c) ↔ c.Backed rs) := by
  cases hnew
  have hholds := holds_of_run (holds_new myID db) hrun
  refine ⟨hholds.agrees, fun c hproper => ?_⟩
  rw [after_append]
  exact ⟨backed_of_agrees hproper, fun hbacked => (hholds.raftCall hproper hbacked).agrees⟩

namespace RaftLogWitness

def myID : PttID := ByteArrayOf.replicate 40 1

def created : RaftStorage := RaftStorage.newRaftStorageWithClean myID KeyStore.empty

def entry (index term : UInt64) : RaftEntry := ⟨term, index, .normal, []⟩

def snapshotAt (index term : UInt64) : RaftSnapshot := ⟨[], ⟨⟨[1], [], []⟩, index, term⟩⟩

def appended : RaftStorage := created.raftCall (.append [entry 1 1, entry 2 1])

def snapped : RaftStorage := appended.raftCall (.applySnapshot (snapshotAt 2 1))

end RaftLogWitness

open RaftLogWitness in
/-- Two entries and a snapshot at the second. -/
theorem raftLog_agrees_of_run_snapped :
    Run RaftStep created [.append [entry 1 1, entry 2 1], .applySnapshot (snapshotAt 2 1)] snapped ∧
      (RaftLog.after [.append [entry 1 1, entry 2 1], .applySnapshot (snapshotAt 2 1)]).Agrees snapped := by
  have happend : RaftStep created (.append [entry 1 1, entry 2 1]) appended := by
    refine ⟨fun e he => ?_, trivial, rfl⟩
    cases he
    exact ⟨⟨rfl, rfl, trivial⟩, by decide, by decide⟩
  have hsnap : RaftStep appended (.applySnapshot (snapshotAt 2 1)) snapped :=
    ⟨show appended.snapshot.metadata.index < 2 by decide +kernel, ⟨by decide +kernel, by decide⟩, rfl⟩
  have hrun : Run RaftStep created [.append [entry 1 1, entry 2 1], .applySnapshot (snapshotAt 2 1)] snapped :=
    (Run.single happend).snoc hsnap
  exact ⟨hrun, (raftLog_agrees_of_run rfl hrun).1⟩

open RaftLogWitness in
/-- A snapshot beyond the log of a new storage: the term at its index is not found. -/
theorem snapshot_term_not_found : RaftStorage.newRaftStorage true myID KeyStore.empty = .ok created ∧
    (RaftCall.applySnapshot (snapshotAt 5 2)).Proper created ∧
    (created.raftCall (.applySnapshot (snapshotAt 5 2))).firstIndex = 6 ∧
    (created.raftCall (.applySnapshot (snapshotAt 5 2))).term 5 = .error .notFound ∧
    ¬ (RaftLog.after [.applySnapshot (snapshotAt 5 2)]).Agrees (created.raftCall (.applySnapshot (snapshotAt 5 2))) := by
  have hterm : (created.raftCall (.applySnapshot (snapshotAt 5 2))).term 5 = .error .notFound := by decide +kernel
  refine ⟨rfl, show created.snapshot.metadata.index < 5 by decide +kernel, by decide +kernel, hterm, fun hagrees => ?_⟩
  obtain ⟨t, ht, -⟩ := hagrees.term 5 le_rfl le_rfl
  rw [hterm] at ht
  cases ht

end PttaiCore
