import Mathlib.Data.List.Induction
import PttaiCore.LockMap

/-! # The two lock maps -/

namespace PttaiCore

open RWLock KeyStore

def grantedAt (id : Option PttID) (trace : List (LockRequest × Except Err Unit)) : List Op :=
  trace.filterMap fun a => if a.1.id = id ∧ a.2 = .ok () then some a.1.op else none

structure HeldRight (entry : Option Int) (ops : List Op) : Prop where
  writer : entry = some (-1) ↔ writers ops = 1
  readers : ∀ n, 0 < n → (entry = some n ↔ readers ops = n)
  exclusive : ¬ (0 < writers ops ∧ 0 < RWLock.readers ops)

def lockTrace (reqs : List LockRequest) : List (LockRequest × Except Err Unit) × LockMap := serve LockMap.answer LockMap.new reqs

def dbTrace {V : Type} (db : KeyStore Bytes V) (reqs : List LockRequest) : List (LockRequest × Except Err Unit) × LDBDatabase V :=
  serve LDBDatabase.answer (LDBDatabase.ofDB db) reqs

structure LocksAgree {V : Type} (db : KeyStore Bytes V) (reqs : List LockRequest) : Prop where
  answers : (lockTrace reqs).1 = (dbTrace db reqs).1
  held : ∀ p, p <+: reqs → ∀ id, HeldRight ((lockTrace p).2.entry id) (grantedAt id (lockTrace p).1) ∧
    HeldRight ((dbTrace db p).2.entry id) (grantedAt id (dbTrace db p).1)

def Matched (l : LockMap) (r : LockRequest) : Prop :=
  r.id ≠ none ∧ (r.op = .unlock → ∀ n, l.entry r.id = some n → n ≤ 0) ∧ (r.op = .rUnlock → ∃ n, l.entry r.id = some n ∧ 0 < n)

namespace LockMapsAux

variable {V : Type}

def refusal : Op → Err
  | .tryLock | .tryRLock => .busy
  | .unlock | .rUnlock => .invalidLock

/-! ## One request -/

variable (l : LockMap) (d : LDBDatabase V) {key : Bytes} (op : Op) {trace : List (LockRequest × Except Err Unit)}

def number (id : PttID) : Int := (l.lockMap.get id).getD 0

def numberOf (key : Bytes) : Int := (d.lockMap.get key).getD 0

theorem get_eq_some_iff {id : PttID} {n : Int} (hn : n ≠ 0) : l.lockMap.get id = some n ↔ number l id = n := by
  rw [number]
  cases hget : l.lockMap.get id with
  | none => simp [hn.symm]
  | some i => simp

theorem get_eq_some_iff' {n : Int} (hn : n ≠ 0) : d.lockMap.get key = some n ↔ numberOf d key = n := by
  rw [numberOf]
  cases hget : d.lockMap.get key with
  | none => simp [hn.symm]
  | some i => simp

theorem number_set (id k : PttID) (i : Int) (hi : i ≠ 0) : number (l.set id i hi) k = if k = id then i else number l k := by
  rw [number, LockMap.set, get_put]
  split_ifs <;> rfl

theorem number_delete (id k : PttID) : number (l.delete id) k = if k = id then 0 else number l k := by
  rw [number, LockMap.delete, get_delete]
  split_ifs <;> rfl

theorem answer_some (id : PttID) :
    (∃ j, next op (number l id) = some j ∧ (l.answer ⟨op, some id⟩).1 = .ok () ∧
      ∀ k, number (l.answer ⟨op, some id⟩).2 k = if k = id then j else number l k) ∨
    (next op (number l id) = none ∧ l.answer ⟨op, some id⟩ = (.error (refusal op), l)) := by
  have hzero := l.lockMap_ne_zero id
  cases op with
  | tryLock =>
    rw [LockMap.answer]
    dsimp only [LockMap.tryLock]
    rw [number]
    cases hget : l.lockMap.get id with
    | none => exact .inl ⟨-1, rfl, rfl, fun k => number_set l id k _ (Int.neg_ne_zero.2 Int.one_ne_zero)⟩
    | some i =>
      have hi : i ≠ 0 := fun h => hzero (by rw [hget, h])
      exact .inr ⟨if_neg hi, rfl⟩
  | unlock =>
    rw [LockMap.answer]
    dsimp only [LockMap.unlock]
    rw [number]
    cases hget : l.lockMap.get id with
    | none => exact .inr ⟨rfl, rfl⟩
    | some i =>
      dsimp only
      split_ifs with hi
      · exact .inr ⟨if_neg (by simpa using hi), rfl⟩
      · exact .inl ⟨0, if_pos (by simpa using hi), rfl, fun k => number_delete l id k⟩
  | tryRLock =>
    rw [LockMap.answer]
    dsimp only [LockMap.tryRLock]
    rw [number]
    split_ifs with hi
    · exact .inr ⟨if_pos hi, rfl⟩
    · exact .inl ⟨_, if_neg hi, rfl, fun k => number_set l id k _ (by omega)⟩
  | rUnlock =>
    rw [LockMap.answer]
    dsimp only [LockMap.rUnlock]
    rw [number]
    cases hget : l.lockMap.get id with
    | none => exact .inr ⟨rfl, rfl⟩
    | some i =>
      dsimp only
      split_ifs with hi h1
      · exact .inr ⟨if_neg (by simpa using hi), rfl⟩
      · subst h1
        exact .inl ⟨0, rfl, rfl, fun k => number_delete l id k⟩
      · exact .inl ⟨i - 1, if_pos (by simpa using hi), rfl, fun k => number_set l id k _ (by omega)⟩

theorem numberOf_put {d d' : LDBDatabase V} {i : Int} (h : d'.lockMap = d.lockMap.put key i) (k : Bytes) :
    numberOf d' k = if k = key then i else numberOf d k := by
  rw [numberOf, h, get_put]
  split_ifs <;> rfl

theorem numberOf_delete {d d' : LDBDatabase V} (h : d'.lockMap = d.lockMap.delete key) (k : Bytes) :
    numberOf d' k = if k = key then 0 else numberOf d k := by
  rw [numberOf, h, get_delete]
  split_ifs <;> rfl

theorem dbAnswer_matched (id : Option PttID) (hunlock : op = .unlock → numberOf d (lockKey id) ≤ 0)
    (hrUnlock : op = .rUnlock → 0 < numberOf d (lockKey id)) :
    (∃ j, next op (numberOf d (lockKey id)) = some j ∧ (d.answer ⟨op, id⟩).1 = .ok () ∧
      ∀ k, numberOf (d.answer ⟨op, id⟩).2 k = if k = lockKey id then j else numberOf d k) ∨
    (next op (numberOf d (lockKey id)) = none ∧ d.answer ⟨op, id⟩ = (.error (refusal op), d)) := by
  have hzero := d.lockMap_ne_zero (lockKey id)
  rw [LDBDatabase.answer]
  generalize lockKey id = key at hunlock hrUnlock hzero
  cases op with
  | tryLock =>
    dsimp only [LDBDatabase.tryLockMap]
    rw [numberOf]
    cases hget : d.lockMap.get key with
    | none => exact .inl ⟨-1, rfl, rfl, fun k => numberOf_put rfl k⟩
    | some i =>
      have hi : i ≠ 0 := fun h => hzero (by rw [hget, h])
      exact .inr ⟨if_neg hi, rfl⟩
  | unlock =>
    have hle := hunlock rfl
    dsimp only [LDBDatabase.unlockMap]
    rw [numberOf] at hle ⊢
    cases hget : d.lockMap.get key with
    | none => exact .inr ⟨rfl, rfl⟩
    | some i =>
      rw [hget, Option.getD_some] at hle
      have hi : i ≠ 0 := fun h => hzero (by rw [hget, h])
      exact .inl ⟨0, if_pos (lt_of_le_of_ne hle hi), rfl, fun k => numberOf_delete rfl k⟩
  | tryRLock =>
    dsimp only [LDBDatabase.tryRLockMap]
    rw [numberOf]
    split_ifs with hi
    · exact .inr ⟨if_pos hi, rfl⟩
    · exact .inl ⟨_, if_neg hi, rfl, fun k => numberOf_put rfl k⟩
  | rUnlock =>
    have hlt := hrUnlock rfl
    dsimp only [LDBDatabase.rUnlockMap]
    rw [numberOf] at hlt ⊢
    cases hget : d.lockMap.get key with
    | none =>
      rw [hget] at hlt
      exact absurd hlt (lt_irrefl _)
    | some i =>
      rw [hget, Option.getD_some] at hlt
      dsimp only
      split_ifs with h1
      · subst h1
        exact .inl ⟨0, rfl, rfl, fun k => numberOf_delete rfl k⟩
      · exact .inl ⟨i - 1, if_pos hlt, rfl, fun k => numberOf_put rfl k⟩

theorem dbAnswer_unmatched (id : Option PttID)
    (h : op = .unlock ∧ 0 < numberOf d (lockKey id) ∨ op = .rUnlock ∧ numberOf d (lockKey id) ≤ 0) :
    (d.answer ⟨op, id⟩).1 ≠ .error (refusal op) := by
  have hzero := d.lockMap_ne_zero (lockKey id)
  rcases h with ⟨rfl, hn⟩ | ⟨rfl, hn⟩
  · dsimp only [LDBDatabase.answer, LDBDatabase.unlockMap]
    rw [numberOf] at hn
    cases hget : d.lockMap.get (lockKey id) with
    | none =>
      rw [hget] at hn
      exact absurd hn (lt_irrefl _)
    | some i => simp
  · dsimp only [LDBDatabase.answer, LDBDatabase.rUnlockMap]
    cases hget : d.lockMap.get (lockKey id) with
    | none => simp [refusal]
    | some i =>
      dsimp only
      split_ifs <;> simp

/-! ## Sequences -/

structure Synced (l : LockMap) (d : LDBDatabase V) (trace : List (LockRequest × Except Err Unit)) : Prop where
  same : ∀ id : PttID, numberOf d id.1 = number l id
  balanced : ∀ id : PttID, Balanced (number l id) (grantedAt (some id) trace)
  nil : numberOf d [] = 0
  nilTrace : grantedAt none trace = []

theorem grantedAt_snoc (id : Option PttID) (trace : List (LockRequest × Except Err Unit)) (r : LockRequest) (a : Except Err Unit) :
    grantedAt id (trace ++ [(r, a)]) = grantedAt id trace ++ (if r.id = id ∧ a = .ok () then [r.op] else []) := by
  rw [grantedAt, List.filterMap_append]
  congr 1
  simp only [List.filterMap_cons, List.filterMap_nil]
  split_ifs <;> rfl

theorem heldRight_of_balanced {entry : Option Int} {i : Int} {ops : List Op} (hentry : ∀ n, n ≠ 0 → (entry = some n ↔ i = n))
    (h : Balanced i ops) : HeldRight entry ops :=
  ⟨(hentry _ (Int.neg_ne_zero.2 Int.one_ne_zero)).trans h.eq_neg_one_iff,
    fun n hn => (hentry n hn.ne').trans (h.eq_readers_iff hn), h.exclusive⟩

theorem Synced.held {l : LockMap} {d : LDBDatabase V} (h : Synced l d trace)
    (id : Option PttID) : HeldRight (l.entry id) (grantedAt id trace) ∧ HeldRight (d.entry id) (grantedAt id trace) := by
  cases id with
  | none =>
    rw [h.nilTrace]
    refine ⟨heldRight_of_balanced (i := 0) (fun n hn => ?_) Balanced.nil, heldRight_of_balanced (i := 0) (fun n hn => ?_) Balanced.nil⟩
    · simp [LockMap.entry, hn.symm]
    · rw [← h.nil]
      exact get_eq_some_iff' d hn
  | some id =>
    refine ⟨heldRight_of_balanced (fun n hn => get_eq_some_iff l hn) (h.balanced id),
      heldRight_of_balanced (fun n hn => ?_) (h.balanced id)⟩
    rw [← h.same id]
    exact get_eq_some_iff' d hn

theorem matched_iff (id : PttID) :
    Matched l ⟨op, some id⟩ ↔ (op = .unlock → number l id ≤ 0) ∧ (op = .rUnlock → 0 < number l id) := by
  have hentry : l.entry (some id) = l.lockMap.get id := rfl
  simp only [Matched, ne_eq, reduceCtorEq, not_false_eq_true, true_and, hentry, number]
  refine and_congr (imp_congr_right fun _ => ?_) (imp_congr_right fun _ => ?_) <;> cases l.lockMap.get id <;> simp

theorem Synced.step {l : LockMap} {d : LDBDatabase V} (h : Synced l d trace)
    {r : LockRequest} (hm : Matched l r) : (l.answer r).1 = (d.answer r).1 ∧
      Synced (l.answer r).2 (d.answer r).2 (trace ++ [(r, (l.answer r).1)]) := by
  obtain ⟨op, id⟩ := r
  cases id with
  | none => exact absurd rfl hm.1
  | some id =>
    obtain ⟨hunlock, hrUnlock⟩ := (matched_iff l op id).1 hm
    have hsame : numberOf d (lockKey (some id)) = number l id := h.same id
    have hkey : ∀ k : PttID, k.1 = lockKey (some id) ↔ k = id := fun k => Subtype.ext_iff.symm
    have hnil : ([] : Bytes) ≠ lockKey (some id) := fun heq => by
      have := congrArg List.length heq
      rw [show (lockKey (some id)).length = 40 from id.2] at this
      cases this
    have hne : ¬ some id = (none : Option PttID) := Option.some_ne_none id
    rcases answer_some l op id with ⟨j, hj, hok, hnum⟩ | ⟨hj, hl⟩ <;>
      rcases dbAnswer_matched d op (some id) (hsame ▸ hunlock) (hsame ▸ hrUnlock) with ⟨j', hj', hok', hnum'⟩ | ⟨hj', hd⟩
    · rw [hsame, hj] at hj'
      cases hj'
      rw [hok, hok']
      refine ⟨rfl, fun k => ?_, fun k => ?_, ?_, ?_⟩
      · rw [hnum, hnum', h.same]
        simp only [hkey]
      · rw [hnum, grantedAt_snoc]
        by_cases hk : k = id
        · subst hk
          rw [if_pos rfl, if_pos ⟨rfl, rfl⟩]
          exact (h.balanced k).snoc hj
        · rw [if_neg hk, if_neg fun heq => hk (Option.some.inj heq.1).symm, List.append_nil]
          exact h.balanced k
      · rw [hnum', if_neg hnil, h.nil]
      · rw [grantedAt_snoc, if_neg fun heq => hne heq.1, List.append_nil, h.nilTrace]
    · rw [hsame, hj] at hj'
      cases hj'
    · rw [hsame, hj] at hj'
      cases hj'
    · rw [hl, hd]
      refine ⟨rfl, h.same, fun k => ?_, h.nil, ?_⟩
      · rw [grantedAt_snoc, if_neg (by rintro ⟨-, ⟨⟩⟩), List.append_nil]
        exact h.balanced k
      · rw [grantedAt_snoc, if_neg fun heq => hne heq.1, List.append_nil, h.nilTrace]

theorem synced_of_matched (db : KeyStore Bytes V) {reqs : List LockRequest}
    (h : ∀ p r, p ++ [r] <+: reqs → Matched (lockTrace p).2 r) :
    (lockTrace reqs).1 = (dbTrace db reqs).1 ∧ Synced (lockTrace reqs).2 (dbTrace db reqs).2 (lockTrace reqs).1 := by
  induction reqs using List.reverseRecOn with
  | nil => exact ⟨rfl, fun id => rfl, fun id => Balanced.nil, rfl, rfl⟩
  | append_singleton reqs r ih =>
    obtain ⟨hsame, hsync⟩ := ih fun p r' hp => h p r' (hp.trans (List.prefix_append _ _))
    obtain ⟨hans, hnext⟩ := hsync.step (h reqs r (List.prefix_refl _))
    simp only [lockTrace, dbTrace] at hsame hsync hans hnext ⊢
    rw [serve_snoc, serve_snoc]
    exact ⟨by rw [hsame, hans], hnext⟩

theorem matched_of_alike {l : LockMap} {d : LDBDatabase V} (h : Synced l d trace)
    {r : LockRequest} (hans : (l.answer r).1 = (d.answer r).1)
    (hheld : HeldRight ((l.answer r).2.entry none) (grantedAt none (trace ++ [(r, (l.answer r).1)]))) : Matched l r := by
  obtain ⟨op, id⟩ := r
  cases id with
  | none =>
    rw [grantedAt_snoc, h.nilTrace, List.nil_append] at hheld
    have hnone : d.lockMap.get (lockKey none) = none := by
      have hnil := h.nil
      rw [numberOf] at hnil
      cases hget : d.lockMap.get [] with
      | none => exact hget
      | some i =>
        rw [hget, Option.getD_some] at hnil
        exact absurd (hnil ▸ hget) (d.lockMap_ne_zero [])
    -- a lock that is granted for nil is not in the map, and one that is released for nil is refused by the database
    cases op with
    | tryLock => exact absurd (hheld.writer.2 rfl) (Option.some_ne_none _ |>.symm)
    | tryRLock => exact absurd ((hheld.readers 1 Int.one_pos).2 rfl) (Option.some_ne_none _ |>.symm)
    | unlock =>
      dsimp only [LDBDatabase.answer, LDBDatabase.unlockMap] at hans
      rw [hnone] at hans
      cases hans
    | rUnlock =>
      dsimp only [LDBDatabase.answer, LDBDatabase.rUnlockMap] at hans
      rw [hnone] at hans
      cases hans
  | some id =>
    refine (matched_iff l op id).2 ⟨?_, ?_⟩
    · rintro rfl
      by_contra hlt
      rcases answer_some l .unlock id with ⟨j, hj, -, -⟩ | ⟨-, hl⟩
      · rw [next, if_neg (by omega)] at hj
        cases hj
      · refine dbAnswer_unmatched d .unlock (some id) (.inl ⟨rfl, ?_⟩) (hans.symm.trans (congrArg Prod.fst hl))
        exact (h.same id).symm ▸ not_le.1 hlt
    · rintro rfl
      by_contra hle
      rcases answer_some l .rUnlock id with ⟨j, hj, -, -⟩ | ⟨-, hl⟩
      · rw [next, if_neg hle] at hj
        cases hj
      · refine dbAnswer_unmatched d .rUnlock (some id) (.inr ⟨rfl, ?_⟩) (hans.symm.trans (congrArg Prod.fst hl))
        exact (h.same id).symm ▸ not_lt.1 hle

theorem matched_of_agree (db : KeyStore Bytes V) {reqs : List LockRequest} (h : LocksAgree db reqs) :
    ∀ p r, p ++ [r] <+: reqs → Matched (lockTrace p).2 r := by
  induction reqs using List.reverseRecOn with
  | nil =>
    intro p r hp
    have := List.prefix_nil.1 hp
    simp at this
  | append_singleton reqs r ih =>
    have hbefore : LocksAgree db reqs := by
      refine ⟨?_, fun p hp => h.held p (hp.trans (List.prefix_append _ _))⟩
      have hans := h.answers
      simp only [lockTrace, dbTrace, serve_snoc] at hans ⊢
      exact (List.append_inj' hans rfl).1
    intro p r' hp
    rcases List.prefix_concat_iff.1 hp with heq | hp
    · obtain ⟨rfl, hr⟩ := List.append_inj' heq rfl
      obtain rfl := List.singleton_inj.1 hr
      obtain ⟨-, hsync⟩ := synced_of_matched db (ih hbefore)
      have hans := h.answers
      have hheld := (h.held _ (List.prefix_refl _) none).1
      simp only [lockTrace, dbTrace, serve_snoc] at hans hheld hsync ⊢
      have hlast := (List.append_inj' hans rfl).2
      exact matched_of_alike hsync (Prod.ext_iff.1 (List.singleton_inj.1 hlast)).2 hheld
    · exact ih hbefore p r' hp

end LockMapsAux

open LockMapsAux in
/-- The two lock maps agree on a sequence of requests if and only if each of the requests is matched when it is made. -/
theorem locksAgree_iff {V : Type} (db : KeyStore Bytes V) (reqs : List LockRequest) :
    LocksAgree db reqs ↔ ∀ p r, p ++ [r] <+: reqs → Matched (lockTrace p).2 r := by
  refine ⟨matched_of_agree db, fun h => ⟨(synced_of_matched db h).1, fun p hp id => ?_⟩⟩
  obtain ⟨hsame, hsync⟩ := synced_of_matched db fun q r hq => h q r (hq.trans hp)
  rw [← hsame]
  exact hsync.held id

namespace LockMapsWitness

theorem length_forty : (List.replicate 40 (3 : UInt8)).length = 40 := List.length_replicate

def key : PttID := ⟨List.replicate 40 3, length_forty⟩

def unmatched : List LockRequest := [⟨.tryRLock, some key⟩, ⟨.unlock, some key⟩, ⟨.tryLock, some key⟩]

end LockMapsWitness

open LockMapsWitness in
/-- The lock map refuses to release a write lock that is a reader's; the database releases it, and lets a writer in beside the reader. -/
theorem reader_released_by_unlock : (lockTrace unmatched).1.map Prod.snd = [.ok (), .error .invalidLock, .error .busy] ∧
    (dbTrace (KeyStore.empty : KeyStore Bytes Unit) unmatched).1.map Prod.snd = [.ok (), .ok (), .ok ()] ∧
    ¬ LocksAgree (KeyStore.empty : KeyStore Bytes Unit) unmatched := by
  have hlock : (lockTrace unmatched).1.map Prod.snd = [.ok (), .error .invalidLock, .error .busy] := by decide +kernel
  have hdb : (dbTrace (KeyStore.empty : KeyStore Bytes Unit) unmatched).1.map Prod.snd = [.ok (), .ok (), .ok ()] := by decide +kernel
  refine ⟨hlock, hdb, fun h => ?_⟩
  rw [h.answers, hdb] at hlock
  cases hlock

end PttaiCore
