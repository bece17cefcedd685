import PttaiCore.Theorems.PreLogs

/-! # Which received oplogs are let in -/

namespace PttaiCore

open List

def BaseOplog.unsynced (o : BaseOplog) : BaseOplog := { o with isSync := false }

structure Admitted (Γ : Ctx) (now : Timestamp) (oplogs r : List BaseOplog) : Prop where
  past : ∀ o ∈ r, o.updateTS.isLess now = true
  verified : ∀ o ∈ r, (o.verify Γ).1 = .ok ()
  notSynced : ∀ o ∈ r, o.isSync = false
  segment : ∃ s, s <:+: oplogs ∧ r = s.map BaseOplog.unsynced

structure CutByTime (now expireTS : Timestamp) (isPending : Bool) (oplogs old kept future : List BaseOplog) : Prop where
  eq : oplogs = old ++ kept ++ future
  old_expired : ∀ o ∈ old, isPending = true ∧ expireTS.isLess o.updateTS = false
  first_valid : isPending = true → ∀ o rest, kept ++ future = o :: rest → expireTS.isLess o.updateTS = true
  last_past : ∀ init o, kept = init ++ [o] → o.updateTS.isLess now = true
  future_not_past : ∀ o ∈ future, o.updateTS.isLess now = false

namespace AdmissionAux

open PreLogsAux

variable {now ts : Timestamp} {isPending : Bool} {oplogs old kept future : List BaseOplog}

/-! ## The cuts -/

theorem dropWhile_of_cut {α : Type*} {p : α → Bool} {l r : List α} (hl : ∀ x ∈ l, p x = true) (hr : ∀ x r', r = x :: r' → p x = false) :
    (l ++ r).dropWhile p = r := by
  rw [dropWhile_append_of_pos hl]
  cases r with
  | nil => rfl
  | cons x r' => exact dropWhile_cons_of_neg (by simp [hr x r' rfl])

theorem rdropWhile_of_cut {α : Type*} {p : α → Bool} {l r : List α} (hr : ∀ x ∈ r, p x = true)
    (hl : ∀ l' x, l = l' ++ [x] → p x = false) : (l ++ r).rdropWhile p = l := by
  rw [List.rdropWhile, reverse_append, dropWhile_of_cut, reverse_reverse]
  · exact fun x hx => hr x (mem_reverse.1 hx)
  · intro x r' heq
    refine hl r'.reverse x ?_
    rw [← reverse_reverse l, heq, reverse_cons]

theorem timelyOplogs_of_cut (h : CutByTime now ts isPending oplogs old kept future) :
    timelyOplogs now ts isPending oplogs = kept.map BaseOplog.unsynced := by
  have hold : (if isPending then oplogs.dropWhile fun o => !ts.isLess o.updateTS else oplogs) = kept ++ future := by
    rw [h.eq, append_assoc]
    split_ifs with hp
    · refine dropWhile_of_cut (fun o ho => by simp [(h.old_expired o ho).2]) fun o rest heq => ?_
      simp [h.first_valid hp o rest heq]
    · cases old with
      | nil => rfl
      | cons o old => exact absurd (h.old_expired o ((.head _) ..)).1 hp
  have hfuture : (kept ++ future).rdropWhile (fun o => !o.updateTS.isLess now) = kept :=
    rdropWhile_of_cut (fun o ho => by simp [h.future_not_past o ho]) fun init o heq => by simp [h.last_past init o heq]
  rw [timelyOplogs, hold, hfuture]
  rfl

theorem exists_cut (now ts : Timestamp) (isPending : Bool) (oplogs : List BaseOplog) :
    ∃ old kept future, CutByTime now ts isPending oplogs old kept future := by
  -- first the expired oplogs
  obtain ⟨old, rest, heq, hold, hfirst⟩ : ∃ old rest, oplogs = old ++ rest ∧
      (∀ o ∈ old, isPending = true ∧ ts.isLess o.updateTS = false) ∧
      (isPending = true → ∀ o l, rest = o :: l → ts.isLess o.updateTS = true) := by
    cases isPending with
    | false => exact ⟨[], oplogs, rfl, by simp, by simp⟩
    | true =>
      refine ⟨oplogs.takeWhile fun o => !ts.isLess o.updateTS, oplogs.dropWhile fun o => !ts.isLess o.updateTS,
        takeWhile_append_dropWhile.symm, fun o ho => ?_, fun _ o l hl => ?_⟩
      · exact ⟨rfl, by simpa using mem_takeWhile_imp ho⟩
      · have hne : oplogs.dropWhile (fun o => !ts.isLess o.updateTS) ≠ [] := by simp [hl]
        have hhead := head_dropWhile_not (fun o : BaseOplog => !ts.isLess o.updateTS) hne
        simpa [hl] using hhead
  -- then those from the future
  have hcut : rest.rdropWhile (fun o => !o.updateTS.isLess now) ++ rest.rtakeWhile (fun o => !o.updateTS.isLess now) = rest :=
    rdropWhile_append_rtakeWhile
  refine ⟨old, rest.rdropWhile fun o => !o.updateTS.isLess now, rest.rtakeWhile fun o => !o.updateTS.isLess now,
    ⟨by rw [append_assoc, hcut, heq], hold, by rwa [hcut], fun init o hinit => ?_, fun o ho => ?_⟩⟩
  · have hne : rest.rdropWhile (fun o => !o.updateTS.isLess now) ≠ [] := by simp [hinit]
    have hlast := rdropWhile_last_not (fun o : BaseOplog => !o.updateTS.isLess now) rest hne
    simpa [hinit] using hlast
  · simpa using mem_rtakeWhile_imp ho

/-! ## The checks -/

theorem verifyOplogs_ok_iff {Γ : Ctx} {oplogs : List BaseOplog} :
    verifyOplogs Γ oplogs = .ok () ↔ ∀ o ∈ oplogs, (o.verify Γ).1 = .ok () := by
  induction oplogs with
  | nil => simp [verifyOplogs]
  | cons o oplogs ih =>
    rw [verifyOplogs, forall_mem_cons, ← ih]
    cases (o.verify Γ).1 with
    | error e => simp
    | ok u => simp

theorem verify_unsynced_iff (Γ : Ctx) (o : BaseOplog) : (o.unsynced.verify Γ).1 = .ok () ↔ (o.verify Γ).1 = .ok () := by
  rw [VerifyAux.verify_ok_iff, VerifyAux.verify_ok_iff]
  rfl

section check

variable {p : OplogDB} {db : LDBDatabase Value} {before : List BaseOplog} {o : BaseOplog}

theorem lastWithID_map_unsynced (before : List BaseOplog) (id : PttID) :
    lastWithID (before.map BaseOplog.unsynced) id = (lastWithID before id).map BaseOplog.unsynced := by
  rw [lastWithID, lastWithID, ← map_reverse, List.find?_map]
  rfl

theorem asksStore_map_unsynced (id : PttID) : AsksStore (before.map BaseOplog.unsynced) o.unsynced id ↔ AsksStore before o id := by
  rw [AsksStore, AsksStore, lastWithID_map_unsynced, Option.any_map]
  rfl

theorem earlier_map_unsynced {P : List BaseOplog → BaseOplog → Prop}
    (hP : ∀ before o, P (before.map BaseOplog.unsynced) o.unsynced ↔ P before o) (l : List BaseOplog) :
    Earlier P (l.map BaseOplog.unsynced) ↔ Earlier P l := by
  induction l using List.reverseRecOn with
  | nil => rfl
  | append_singleton l o ih => rw [map_append, map_singleton, earlier_snoc, earlier_snoc, ih, hP]

theorem refused_map_unsynced (before : List BaseOplog) (o : BaseOplog) :
    Refused p db (before.map BaseOplog.unsynced) o.unsynced ↔ Refused p db before o := by
  have hfinds : Earlier (FindsPreLog p db) (before.map BaseOplog.unsynced) ↔ Earlier (FindsPreLog p db) before := by
    refine earlier_map_unsynced (fun before o => ?_) before
    simp only [FindsPreLog, asksStore_map_unsynced]
  simp only [Refused, LacksPreLog, LacksMaster, asksStore_map_unsynced, hfinds]

theorem past_iff {R : List BaseOplog → BaseOplog → Prop} {r rest : List BaseOplog} (hr : ¬ Earlier R r)
    (hrest : ∀ o rest', rest = o :: rest' → R r o) :
    (∀ o ∈ r, o.updateTS.isLess now = true) ↔
      ∀ before o after, r ++ rest = before ++ o :: after → o.updateTS.isLess now = false → Earlier R (before ++ [o]) := by
  constructor
  · intro hpast before o after heq hfuture
    have hnot : o ∉ r := by
      intro ho
      rw [hpast o ho] at hfuture
      cases hfuture
    obtain ⟨l, hbefore, hl⟩ : ∃ l, before = r ++ l ∧ rest = l ++ o :: after := by
      rcases append_eq_append_iff.1 heq with hsplit | ⟨l, hr', hl⟩
      · exact hsplit
      · cases l with
        | nil => exact ⟨[], by simpa using hr'.symm, hl.symm⟩
        | cons x l =>
          rw [cons_append] at hl
          cases hl
          exact absurd (by simp [hr']) hnot
    -- the first oplog that is not let in is refused
    obtain ⟨x, l', hx⟩ : ∃ x l', l ++ [o] = x :: l' := by
      cases l with
      | nil => exact ⟨o, [], rfl⟩
      | cons x l => exact ⟨x, l ++ [o], rfl⟩
    have hfirst : R r x := hrest x (l' ++ after) (by rw [hl, ← singleton_append, ← append_assoc, hx, cons_append])
    have hearlier : Earlier R (r ++ [x]) := earlier_snoc.2 (.inr hfirst)
    have hsplit : before ++ [o] = r ++ [x] ++ l' := by rw [hbefore, append_assoc, hx, append_assoc, singleton_append]
    rw [hsplit]
    exact earlier_append hearlier l'
  · intro h o ho
    obtain ⟨before, after, heq⟩ := append_of_mem ho
    by_contra hfuture
    have hearlier := h before o (after ++ rest) (by rw [heq]; simp) (Bool.eq_false_iff.2 hfuture)
    refine hr ?_
    rw [heq, ← singleton_append, ← append_assoc]
    exact earlier_append hearlier after

theorem checkPreOplogs_past_iff (kept : List BaseOplog) :
    (∀ o ∈ checkPreOplogs p db (kept.map BaseOplog.unsynced) none KeyStore.empty, o.updateTS.isLess now = true) ↔
      ∀ before o after, kept = before ++ o :: after → o.updateTS.isLess now = false → Earlier (Refused p db) (before ++ [o]) := by
  obtain ⟨rest, heq, hr, hrest⟩ := checkPreOplogs_spec (kept.map BaseOplog.unsynced) (@passed_nil p db) not_earlier_nil
  rw [nil_append] at hr hrest
  rw [past_iff hr hrest, ← heq]
  have hmap : ∀ before o, Earlier (Refused p db) (before.map BaseOplog.unsynced ++ [o.unsynced]) ↔ Earlier (Refused p db) (before ++ [o]) := by
    intro before o
    rw [← earlier_map_unsynced refused_map_unsynced (before ++ [o]), map_append, map_singleton]
  constructor
  · intro h before o after hkept hfuture
    exact (hmap before o).1 (h _ o.unsynced (after.map BaseOplog.unsynced) (by rw [hkept, map_append, map_cons]) hfuture)
  · intro h before o after hkept hfuture
    obtain ⟨before', tail, rfl, rfl, htail⟩ := map_eq_append_iff.1 hkept
    obtain ⟨o', after', rfl, rfl, -⟩ := map_eq_cons_iff.1 htail
    exact (hmap before' o').2 (h before' o' after' rfl hfuture)

theorem segment_of_cut (h : CutByTime now ts isPending oplogs old kept future) :
    ∃ s, s <:+: oplogs ∧ checkPreOplogs p db (kept.map BaseOplog.unsynced) none KeyStore.empty = s.map BaseOplog.unsynced := by
  obtain ⟨rest, heq, -⟩ := checkPreOplogs_spec (kept.map BaseOplog.unsynced) (@passed_nil p db) not_earlier_nil
  obtain ⟨s, rest', hkept, hs, -⟩ := map_eq_append_iff.1 heq
  refine ⟨s, ⟨old, rest' ++ future, ?_⟩, hs.symm⟩
  rw [h.eq, hkept]
  simp

theorem admitted_iff {Γ : Ctx} (h : CutByTime now ts isPending oplogs old kept future) (hverified : ∀ o ∈ kept, (o.verify Γ).1 = .ok ()) :
    Admitted Γ now oplogs (checkPreOplogs p db (kept.map BaseOplog.unsynced) none KeyStore.empty) ↔
      ∀ before o after, kept = before ++ o :: after → o.updateTS.isLess now = false → Earlier (Refused p db) (before ++ [o]) := by
  rw [← checkPreOplogs_past_iff]
  refine ⟨Admitted.past, fun hpast => ?_⟩
  obtain ⟨rest, heq, -⟩ := checkPreOplogs_spec (kept.map BaseOplog.unsynced) (@passed_nil p db) not_earlier_nil
  have hmem : ∀ o ∈ checkPreOplogs p db (kept.map BaseOplog.unsynced) none KeyStore.empty, ∃ o' ∈ kept, o'.unsynced = o := by
    intro o ho
    refine mem_map.1 ?_
    rw [heq]
    exact mem_append_left rest ho
  refine ⟨hpast, fun o ho => ?_, fun o ho => ?_, segment_of_cut h⟩
  · obtain ⟨o', ho', rfl⟩ := hmem o ho
    exact (verify_unsynced_iff Γ o').2 (hverified o' ho')
  · obtain ⟨o', -, rfl⟩ := hmem o ho
    rfl

end check

end AdmissionAux

open AdmissionAux in
/-- What is returned is let in rightly just if, in every list that passes verification once it is cut by time, an oplog from the future is
refused for its pre-log or comes after one that is. -/
theorem preprocessOplogs_admits_iff (p : OplogDB) (db : LDBDatabase Value) (Γ : Ctx) (now : Timestamp) (merkle : Option Merkle)
    (isPending : Bool) (oplogs : List BaseOplog) :
    (∀ r, preprocessOplogs p db Γ now merkle isPending oplogs = .ok r → Admitted Γ now oplogs r) ↔
      ∀ ts old kept future, expireTS db merkle = .ok ts → CutByTime now ts isPending oplogs old kept future →
        (∀ o ∈ kept, (o.verify Γ).1 = .ok ()) →
          ∀ before o after, kept = before ++ o :: after → o.updateTS.isLess now = false → Earlier (Refused p db) (before ++ [o]) := by
  have hverify : ∀ kept : List BaseOplog,
      verifyOplogs Γ (kept.map BaseOplog.unsynced) = .ok () ↔ ∀ o ∈ kept, (o.verify Γ).1 = .ok () := by
    intro kept
    rw [verifyOplogs_ok_iff, List.forall_mem_map]
    simp only [verify_unsynced_iff]
  constructor
  · intro h ts old kept future hts hcut hverified
    refine (admitted_iff hcut hverified).1 (h _ ?_)
    rw [preprocessOplogs, hts]
    dsimp only
    rw [timelyOplogs_of_cut hcut, (hverify kept).2 hverified]
  · intro h r hr
    rw [preprocessOplogs] at hr
    cases hts : expireTS db merkle with
    | error e => simp [hts] at hr
    | ok ts =>
      obtain ⟨old, kept, future, hcut⟩ := exists_cut now ts isPending oplogs
      rw [hts] at hr
      dsimp only at hr
      rw [timelyOplogs_of_cut hcut] at hr
      cases hv : verifyOplogs Γ (kept.map BaseOplog.unsynced) with
      | error e => simp [hv] at hr
      | ok u =>
        rw [hv] at hr
        cases hr
        have hverified := (hverify kept).1 hv
        exact (admitted_iff hcut hverified).2 (h ts old kept future hts hcut hverified)

namespace AdmissionWitness

open SigningWitness

def madeAt (id : UInt8) (ts : Int64) : BaseOplog :=
  (BaseOplog.new (idOf id) none ⟨ts, 0⟩ (signer 1).id 1 none).sign ctx (signer 1).keyInfo (saltOf 5)

end AdmissionWitness

open AdmissionWitness SigningWitness ConvergenceWitness in
/-- At second 2000 an oplog of second 3000 is cut off at the end of the list and let in before one of second 1000. -/
theorem future_oplog_is_admitted :
    (preprocessOplogs oplogDB emptyState.db ctx ⟨2000, 0⟩ none false [madeAt 6 1000, madeAt 5 3000]).toOption.map
        (List.map BaseOplog.id) = some [idOf 6] ∧
      (preprocessOplogs oplogDB emptyState.db ctx ⟨2000, 0⟩ none false [madeAt 5 3000, madeAt 6 1000]).toOption.map
        (List.map BaseOplog.updateTS) = some [⟨3000, 0⟩, ⟨1000, 0⟩] := by
  decide +kernel

end PttaiCore
