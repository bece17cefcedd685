import PttaiCore.Lib.Best
import PttaiCore.Lib.Run
import PttaiCore.OpKeys

/-! # The remembered operation keys -/

namespace PttaiCore

open Best Timestamp

def OpKeyInfo.Usable (expireRenewTS : Timestamp) (k : OpKeyInfo) : Bool := !k.updateTS.isLess expireRenewTS && k.status == .alive

inductive KeyAnswer (before : Timestamp → Timestamp → Prop) (keys : List OpKeyInfo) (expireRenewTS : Timestamp) :
    Except Err OpKeyInfo → Prop where
  | found {k : OpKeyInfo} : k ∈ keys → k.Usable expireRenewTS = true →
      (∀ k' ∈ keys, k'.Usable expireRenewTS = true → before k.updateTS k'.updateTS) → KeyAnswer before keys expireRenewTS (.ok k)
  | noKey : (∀ k ∈ keys, k.Usable expireRenewTS = false) → KeyAnswer before keys expireRenewTS (.error .invalidKey)

def NewestAnswer : List OpKeyInfo → Timestamp → Except Err OpKeyInfo → Prop := KeyAnswer fun t t' => t'.order ≤ t.order

def OldestAnswer : List OpKeyInfo → Timestamp → Except Err OpKeyInfo → Prop := KeyAnswer fun t t' => t.order ≤ t'.order

namespace OpKeyManager

inductive KeyCall where
  | registerOpKey (now : Timestamp) (keyInfo : OpKeyInfo)
  | removeOpKey (now now' : Timestamp) (keyInfo : OpKeyInfo)
  | removeOpKeyFromHash (now now' : Timestamp) (hash : Option Address)
  | getNewestOpKey (now : Timestamp)
  | getOldestOpKey (now : Timestamp)

def keyCall (m : OpKeyManager) : KeyCall → OpKeyManager
  | .registerOpKey now keyInfo => (m.registerOpKey now keyInfo).2
  | .removeOpKey now now' keyInfo => m.removeOpKey now now' keyInfo
  | .removeOpKeyFromHash now now' hash => m.removeOpKeyFromHash now now' hash
  | .getNewestOpKey now => (m.getNewestOpKey now).2
  | .getOldestOpKey now => (m.getOldestOpKey now).2

def KeyCall.times : KeyCall → Timestamp × Timestamp
  | .removeOpKey now now' _ | .removeOpKeyFromHash now now' _ => (now, now')
  | .registerOpKey now _ | .getNewestOpKey now | .getOldestOpKey now => (now, now)

def NoOverflow (m : OpKeyManager) (now : Timestamp) : Prop :=
  let expired := now.ts.toInt - m.expireOpKeySeconds.toInt
  (-2 ^ 63 ≤ expired ∧ expired < 2 ^ 63) ∧
    (¬ m.expireOpKeySeconds < m.renewOpKeySeconds →
      -2 ^ 63 ≤ expired + m.renewOpKeySeconds.toInt ∧ expired + m.renewOpKeySeconds.toInt < 2 ^ 63)

def CallSafe (m : OpKeyManager) : KeyCall → Prop
  | .registerOpKey now k => (∀ o ∈ m.opKeyInfos, o.hash = k.hash → o = k) ∧
      ∀ o, m.oldestOpKeyInfo = some o → k.updateTS.isLess (m.getExpireRenewOpKeyTS now) = true ∨ k.updateTS.isLess o.updateTS = false
  | _ => True

structure Timed where
  manager : OpKeyManager
  clock : Timestamp

def KeyStep (s : Timed) (c : KeyCall) (s' : Timed) : Prop :=
  (s.clock.order ≤ c.times.1.order ∧ c.times.1.order ≤ c.times.2.order ∧ s.manager.NoOverflow c.times.1 ∧ s.manager.NoOverflow c.times.2) ∧
    CallSafe s.manager c ∧ s' = ⟨s.manager.keyCall c, c.times.2⟩

namespace OpKeyCacheAux

variable {m m' : OpKeyManager} {now now' : Timestamp}

/-! ## The scans -/

def newestRank (k : OpKeyInfo) : (Int ×ₗ Nat)ᵒᵈ := OrderDual.toDual k.updateTS.order

def oldestRank (k : OpKeyInfo) : Int ×ₗ Nat := k.updateTS.order

theorem usable_iff {ts : Timestamp} {k : OpKeyInfo} : k.Usable ts = true ↔ ts.order ≤ k.updateTS.order ∧ k.status = .alive := by
  rw [OpKeyInfo.Usable, Bool.and_eq_true, Bool.not_eq_true', isLess_eq_false_iff, beq_iff_eq]

theorem checkNewest_eq (ts : Timestamp) : checkNewestOpKeyInfo ts = better newestRank (OpKeyInfo.Usable ts) := by
  funext o k
  unfold checkNewestOpKeyInfo better OpKeyInfo.Usable
  cases hless : k.updateTS.isLess ts with
  | true => rfl
  | false =>
    by_cases hst : k.status = .alive
    · simp only [hst, Bool.false_eq_true, if_false, ne_eq, not_true_eq_false, Bool.not_false, Bool.true_and, beq_self_eq_true, if_true]
      cases o with
      | none => rfl
      | some n => simp only [isLess_iff, newestRank, OrderDual.toDual_lt_toDual]
    · simp [hst]

theorem checkOldest_eq (ts : Timestamp) : Entity.checkOldestOpKeyInfo ts = better oldestRank (OpKeyInfo.Usable ts) := by
  funext o k
  unfold Entity.checkOldestOpKeyInfo better OpKeyInfo.Usable
  cases hless : k.updateTS.isLess ts with
  | true => rfl
  | false =>
    by_cases hst : k.status = .alive
    · simp only [hst, Bool.false_eq_true, if_false, ne_eq, not_true_eq_false, Bool.not_false, Bool.true_and, beq_self_eq_true, if_true]
      cases o with
      | none => rfl
      | some n =>
        simp only [isLess_iff, oldestRank]
        congr
    · simp [hst]

/-! ## The time of renewal -/

theorem getExpireRenewOpKeyTS_mono (h : m.NoOverflow now) (h' : m.NoOverflow now') (hle : now.order ≤ now'.order) :
    (m.getExpireRenewOpKeyTS now).order ≤ (m.getExpireRenewOpKeyTS now').order := by
  have hsub : ∀ t : Timestamp, m.NoOverflow t → (t.ts - m.expireOpKeySeconds).toInt = t.ts.toInt - m.expireOpKeySeconds.toInt := by
    intro t ht
    rw [Int64.toInt_sub]
    exact Int.bmod_eq_of_le (by have := ht.1.1; omega) (by have := ht.1.2; omega)
  have hadd : ∀ t : Timestamp, m.NoOverflow t → ¬ m.expireOpKeySeconds < m.renewOpKeySeconds →
      (t.ts - m.expireOpKeySeconds + m.renewOpKeySeconds).toInt =
        t.ts.toInt - m.expireOpKeySeconds.toInt + m.renewOpKeySeconds.toInt := by
    intro t ht hnot
    rw [Int64.toInt_add, hsub t ht]
    exact Int.bmod_eq_of_le (by have := (ht.2 hnot).1; omega) (by have := (ht.2 hnot).2; omega)
  simp only [Timestamp.order, Prod.Lex.le_iff, ofLex_toLex] at hle
  simp only [Entity.getExpireRenewOpKeyTS]
  split_ifs with hlt
  · simp only [Timestamp.order, Prod.Lex.le_iff, ofLex_toLex, hsub now h, hsub now' h']
    omega
  · simp only [Timestamp.order, Prod.Lex.le_iff, ofLex_toLex, hadd now h hlt, hadd now' h' hlt]
    omega

theorem usable_mono {k : OpKeyInfo} (h : m.NoOverflow now) (h' : m.NoOverflow now') (hle : now.order ≤ now'.order)
    (hk : k.Usable (m.getExpireRenewOpKeyTS now') = true) : k.Usable (m.getExpireRenewOpKeyTS now) = true := by
  rw [usable_iff] at hk ⊢
  exact ⟨(getExpireRenewOpKeyTS_mono h h' hle).trans hk.1, hk.2⟩

/-! ## What is remembered -/

def usableAt (m : OpKeyManager) (now : Timestamp) (k : OpKeyInfo) : Prop :=
  k ∈ m.opKeyInfos ∧ k.Usable (m.getExpireRenewOpKeyTS now) = true

def aliveIn (m : OpKeyManager) (k : OpKeyInfo) : Prop := k ∈ m.opKeyInfos ∧ k.status = .alive

def Cached (s : Timed) : Prop := ∀ now, s.clock.order ≤ now.order → s.manager.NoOverflow now →
  Bounds newestRank (usableAt s.manager now) (aliveIn s.manager) s.manager.newestOpKeyInfo ∧
  Bounds oldestRank (usableAt s.manager now) (aliveIn s.manager) s.manager.oldestOpKeyInfo

theorem bounds_scan {β : Type} [LinearOrder β] (rank : OpKeyInfo → β) (h : m.NoOverflow now) (h' : m.NoOverflow now')
    (hle : now.order ≤ now'.order) : Bounds rank (usableAt m now') (aliveIn m)
      (m.opKeyInfos.foldl (better rank (OpKeyInfo.Usable (m.getExpireRenewOpKeyTS now))) none) := by
  refine (bounds_foldl rank _ m.opKeyInfos).mono (fun k hk => ⟨hk.1, usable_mono h h' hle hk.2⟩) fun k hk => ⟨hk.1, ?_⟩
  exact (usable_iff.1 hk.2).2

theorem newest_fullScan (m : OpKeyManager) (now : Timestamp) : (m.getNewestOpKeyFullScan now).2 =
    { m with newestOpKeyInfo := m.opKeyInfos.foldl (better newestRank (OpKeyInfo.Usable (m.getExpireRenewOpKeyTS now))) none } := by
  rw [getNewestOpKeyFullScan, ← checkNewest_eq]
  cases m.opKeyInfos.foldl (checkNewestOpKeyInfo (m.getExpireRenewOpKeyTS now)) none <;> rfl

theorem oldest_fullScan (m : OpKeyManager) (now : Timestamp) : (m.getOldestOpKeyFullScan now).2 =
    { m with oldestOpKeyInfo := m.opKeyInfos.foldl (better oldestRank (OpKeyInfo.Usable (m.getExpireRenewOpKeyTS now))) none } := by
  rw [getOldestOpKeyFullScan, Entity.getOldestOpKeyFullScan, ← checkOldest_eq]
  cases m.opKeyInfos.foldl (Entity.checkOldestOpKeyInfo (m.getExpireRenewOpKeyTS now)) none <;> rfl

section steps

variable {s : Timed}

theorem Cached.later (h : Cached s) (hle : s.clock.order ≤ now.order) : Cached ⟨s.manager, now⟩ :=
  fun t ht hover => h t (hle.trans ht) hover

theorem Cached.getNewestFullScan (h : Cached s) (hle : s.clock.order ≤ now.order) (hover : s.manager.NoOverflow now) :
    Cached ⟨(s.manager.getNewestOpKeyFullScan now).2, now⟩ := by
  rw [newest_fullScan]
  intro t ht hover'
  exact ⟨bounds_scan newestRank hover hover' ht, (h t (hle.trans ht) hover').2⟩

theorem Cached.getOldestFullScan (h : Cached s) (hle : s.clock.order ≤ now.order) (hover : s.manager.NoOverflow now) :
    Cached ⟨(s.manager.getOldestOpKeyFullScan now).2, now⟩ := by
  rw [oldest_fullScan]
  intro t ht hover'
  exact ⟨(h t (hle.trans ht) hover').1, bounds_scan oldestRank hover hover' ht⟩

theorem Cached.remove (hle : now.order ≤ now'.order) (hover : m.NoOverflow now) (hover' : m.NoOverflow now') (k : OpKeyInfo) :
    Cached ⟨m.removeOpKey now now' k, now'⟩ := by
  rw [removeOpKey, oldest_fullScan, newest_fullScan]
  intro t ht ht'
  exact ⟨bounds_scan newestRank hover ht' (hle.trans ht), bounds_scan oldestRank hover' ht' ht⟩

theorem Cached.register (h : Cached s) (hle : s.clock.order ≤ now.order) (hover : s.manager.NoOverflow now) {k : OpKeyInfo}
    (hsafe : CallSafe s.manager (.registerOpKey now k)) : Cached ⟨(s.manager.registerOpKey now k).2, now⟩ := by
  rw [registerOpKey]
  split_ifs with hst hbytes
  · exact h.later hle
  · exact h.later hle
  obtain ⟨hhash, horder⟩ := hsafe
  rw [ne_eq, not_not] at hst
  generalize hm : s.manager = m at h hover hhash horder ⊢
  obtain ⟨hnewest, holdest⟩ := h now hle (hm ▸ hover)
  rw [hm] at hnewest holdest
  dsimp only
  intro t ht ht'
  -- the keys are those of before and the new one
  have hmem : ∀ a, a ∈ (k :: m.opKeyInfos.filter fun k' => k'.hash != k.hash) ↔ a = k ∨ a ∈ m.opKeyInfos := by
    intro a
    rw [List.mem_cons, List.mem_filter, bne_iff_ne]
    constructor
    · rintro (rfl | ⟨ha, -⟩)
      · exact .inl rfl
      · exact .inr ha
    · rintro (rfl | ha)
      · exact .inl rfl
      · by_cases heq : a.hash = k.hash
        · exact .inl (hhash a ha heq)
        · exact .inr ⟨ha, heq⟩
  have hs : ∀ a, a ∈ (k :: m.opKeyInfos.filter fun k' => k'.hash != k.hash) ∧ a.Usable (m.getExpireRenewOpKeyTS t) = true →
      usableAt m now a ∨ a = k ∧ k.Usable (m.getExpireRenewOpKeyTS now) = true := by
    rintro a ⟨ha, hu⟩
    have hu' := usable_mono hover ht' ht hu
    rcases (hmem a).1 ha with rfl | ha
    · exact .inr ⟨rfl, hu'⟩
    · exact .inl ⟨ha, hu'⟩
  have htt : ∀ a, aliveIn m a → a ∈ (k :: m.opKeyInfos.filter fun k' => k'.hash != k.hash) ∧ a.status = .alive :=
    fun a ha => ⟨(hmem a).2 (.inr ha.1), ha.2⟩
  have hk : k ∈ (k :: m.opKeyInfos.filter fun k' => k'.hash != k.hash) ∧ k.status = .alive := ⟨(.head _), hst⟩
  refine ⟨?_, ?_⟩
  · rw [checkNewest_eq]
    exact ((hnewest.mono (fun _ => id) htt).look k fun _ => hk).mono hs fun _ => id
  · rw [checkOldest_eq]
    cases ho : m.oldestOpKeyInfo with
    | none =>
      rw [ho] at holdest
      exact ((holdest.mono (fun _ => id) htt).look k fun _ => hk).mono hs fun _ => id
    | some o =>
      rw [ho] at holdest
      cases holdest with
      | some hin hbound =>
        refine .some (htt o hin) fun a ha => ?_
        rcases hs a ha with ha | ⟨rfl, hu⟩
        · exact hbound a ha
        · -- the new key is not older than the one remembered
          rcases horder o ho with hless | hless
          · exact absurd ((usable_iff.1 hu).1) (not_le.2 ((isLess_iff _ _).1 hless))
          · exact (isLess_eq_false_iff _ _).1 hless

theorem Cached.step (h : Cached s) {c : KeyCall} {s' : Timed} (hstep : KeyStep s c s') : Cached s' := by
  obtain ⟨⟨hle, hle', hover, hover'⟩, hsafe, rfl⟩ := hstep
  cases c with
  | registerOpKey now k => exact h.register hle hover hsafe
  | removeOpKey now now' k => exact Cached.remove hle' hover hover' k
  | removeOpKeyFromHash now now' hash =>
    cases hash with
    | none => exact h.later (hle.trans hle')
    | some hash =>
      dsimp only [keyCall, OpKeyManager.removeOpKeyFromHash]
      split
      · exact h.later (hle.trans hle')
      · exact Cached.remove hle' hover hover' _
  | getNewestOpKey now =>
    rw [keyCall, OpKeyManager.getNewestOpKey]
    split
    · exact h.getNewestFullScan hle hover
    · split <;> exact h.later hle
  | getOldestOpKey now =>
    have hscan := h.getOldestFullScan hle hover
    rw [keyCall, OpKeyManager.getOldestOpKey, Entity.getOldestOpKey]
    split_ifs
    · exact h.later hle
    · split
      · exact h.later hle
      · exact hscan

end steps

/-! ## Answers -/

theorem keyAnswer_of_bounds {β : Type} [LinearOrder β] (rank : OpKeyInfo → β) (before : Timestamp → Timestamp → Prop)
    (hrank : ∀ a b, rank a ≤ rank b → before a.updateTS b.updateTS) {keys : List OpKeyInfo} {ts : Timestamp} {o : Option OpKeyInfo}
    (h : Bounds rank (fun k => k ∈ keys ∧ k.Usable ts = true) (fun k => k ∈ keys ∧ k.Usable ts = true) o) :
    KeyAnswer before keys ts (o.elim (.error .invalidKey) .ok) := by
  cases h with
  | none hnone => exact .noKey fun k hk => Bool.eq_false_iff.2 fun hu => hnone k ⟨hk, hu⟩
  | some hin hbound => exact .found hin.1 hin.2 fun k hk hu => hrank _ _ (hbound k ⟨hk, hu⟩)

theorem newestAnswer_fullScan (m : OpKeyManager) (now : Timestamp) :
    NewestAnswer m.opKeyInfos (m.getExpireRenewOpKeyTS now) (m.getNewestOpKeyFullScan now).1 := by
  have h := keyAnswer_of_bounds newestRank (fun t t' => t'.order ≤ t.order) (fun a b hab => hab)
    (bounds_foldl newestRank (OpKeyInfo.Usable (m.getExpireRenewOpKeyTS now)) m.opKeyInfos)
  rw [← checkNewest_eq] at h
  rw [getNewestOpKeyFullScan]
  cases hscan : m.opKeyInfos.foldl (checkNewestOpKeyInfo (m.getExpireRenewOpKeyTS now)) none with
  | none =>
    rw [hscan] at h
    exact h
  | some k =>
    rw [hscan] at h
    exact h

theorem oldestAnswer_fullScan (m : OpKeyManager) (now : Timestamp) :
    OldestAnswer m.opKeyInfos (m.getExpireRenewOpKeyTS now) (m.getOldestOpKeyFullScan now).1 := by
  have h := keyAnswer_of_bounds oldestRank (fun t t' => t.order ≤ t'.order) (fun a b hab => hab)
    (bounds_foldl oldestRank (OpKeyInfo.Usable (m.getExpireRenewOpKeyTS now)) m.opKeyInfos)
  rw [← checkOldest_eq] at h
  rw [getOldestOpKeyFullScan, Entity.getOldestOpKeyFullScan]
  cases hscan : m.opKeyInfos.foldl (Entity.checkOldestOpKeyInfo (m.getExpireRenewOpKeyTS now)) none with
  | none =>
    rw [hscan] at h
    exact h
  | some k =>
    rw [hscan] at h
    exact h

theorem newestAnswer_of_bounds (h : Bounds newestRank (usableAt m now) (aliveIn m) m.newestOpKeyInfo) :
    NewestAnswer m.opKeyInfos (m.getExpireRenewOpKeyTS now) (m.getNewestOpKey now).1 := by
  rw [getNewestOpKey]
  cases hn : m.newestOpKeyInfo with
  | none => exact newestAnswer_fullScan m now
  | some n =>
    rw [hn] at h
    cases h with
    | some hin hbound =>
      dsimp only
      split_ifs with hless
      · -- all others are older than the newest one, which has expired
        refine .noKey fun k hk => Bool.eq_false_iff.2 fun hu => ?_
        have hle : k.updateTS.order ≤ n.updateTS.order := hbound k ⟨hk, hu⟩
        exact absurd ((usable_iff.1 hu).1.trans hle) (not_le.2 ((isLess_iff _ _).1 hless))
      · refine .found hin.1 (usable_iff.2 ⟨?_, hin.2⟩) fun k hk hu => hbound k ⟨hk, hu⟩
        exact (isLess_eq_false_iff _ _).1 (Bool.not_eq_true _ ▸ hless)

theorem oldestAnswer_iff (h : Bounds oldestRank (usableAt m now) (aliveIn m) m.oldestOpKeyInfo) :
    OldestAnswer m.opKeyInfos (m.getExpireRenewOpKeyTS now) (m.getOldestOpKey now).1 ↔
      ∀ o, m.oldestOpKeyInfo = some o → o.updateTS.isLess (m.getExpireRenewOpKeyTS now) = false := by
  have hscan := oldestAnswer_fullScan m now
  rw [getOldestOpKey, Entity.getOldestOpKey]
  cases ho : m.oldestOpKeyInfo with
  | none =>
    refine iff_of_true ?_ fun o hnone => by cases hnone
    split_ifs with hempty
    · exact .noKey fun k hk => absurd hk (by rw [List.isEmpty_iff.1 hempty]; exact List.not_mem_nil)
    · exact hscan
  | some o =>
    rw [ho] at h
    cases h with
    | some hin hbound =>
      rw [if_neg fun hempty => List.not_mem_nil (List.isEmpty_iff.1 hempty ▸ hin.1)]
      constructor
      · intro hans o' ho'
        cases ho'
        cases hans with
        | found _ hu _ => exact (isLess_eq_false_iff _ _).2 (usable_iff.1 hu).1
      · intro hlive
        refine .found hin.1 (usable_iff.2 ⟨?_, hin.2⟩) fun k hk hu => hbound k ⟨hk, hu⟩
        exact (isLess_eq_false_iff _ _).1 (hlive o rfl)

end OpKeyCacheAux

open OpKeyCacheAux in
/-- After any safe calls, the newest key that is returned is that of a full scan; the oldest one is if and only if the key that is
remembered, if any, has not expired. -/
theorem opKeyAnswers_of_run {m₀ : OpKeyManager} {t₀ : Timestamp} (now : Timestamp) {s : Timed} {calls : List KeyCall}
    (hkeys : m₀.opKeyInfos = []) (hnewest : m₀.newestOpKeyInfo = none) (holdest : m₀.oldestOpKeyInfo = none)
    (hrun : Run KeyStep ⟨m₀, t₀⟩ calls s) (hclock : s.clock.order ≤ now.order) (hover : s.manager.NoOverflow now) :
    (NewestAnswer s.manager.opKeyInfos (s.manager.getExpireRenewOpKeyTS now) (s.manager.getNewestOpKey now).1 ∧
      NewestAnswer s.manager.opKeyInfos (s.manager.getExpireRenewOpKeyTS now) (s.manager.getNewestOpKeyFullScan now).1) ∧
    OldestAnswer s.manager.opKeyInfos (s.manager.getExpireRenewOpKeyTS now) (s.manager.getOldestOpKeyFullScan now).1 ∧
    (OldestAnswer s.manager.opKeyInfos (s.manager.getExpireRenewOpKeyTS now) (s.manager.getOldestOpKey now).1 ↔
      ∀ o, s.manager.oldestOpKeyInfo = some o → o.updateTS.isLess (s.manager.getExpireRenewOpKeyTS now) = false) := by
  have h₀ : Cached ⟨m₀, t₀⟩ := by
    intro t _ _
    dsimp only
    rw [hnewest, holdest]
    have hnone : ∀ k, ¬ usableAt m₀ t k := by
      intro k hk
      rw [usableAt, hkeys] at hk
      exact List.not_mem_nil hk.1
    exact ⟨.none hnone, .none hnone⟩
  have h := hrun.invariant (I := Cached) h₀ fun t c u ht hstep => ht.step hstep
  obtain ⟨hbn, hbo⟩ := h now hclock hover
  exact ⟨⟨newestAnswer_of_bounds hbn, newestAnswer_fullScan _ now⟩, oldestAnswer_fullScan _ now, oldestAnswer_iff hbo⟩

end OpKeyManager

namespace OpKeyCacheWitness

theorem length_twenty (b : UInt8) : (List.replicate 20 b).length = 20 := List.length_replicate

theorem length_entityID : (List.replicate 40 (5 : UInt8)).length = 40 := List.length_replicate

def keyOf (b : UInt8) (ts : Int64) : OpKeyInfo := ⟨⟨List.replicate 20 b, length_twenty b⟩, [b], ⟨ts, 0⟩, .alive⟩

def noKeys : OpKeyManager where
  id := ⟨List.replicate 40 5, length_entityID⟩
  kind := .base
  status := .alive
  masters := fun _ => none
  members := fun _ => none
  pendingPeers := []
  myNodes := fun _ => none
  ownerIDs := []
  opKeyInfos := []
  oldestOpKeyInfo := none
  expireOpKeySeconds := 100
  renewOpKeySeconds := 10
  opKeyOplogList := .ok []
  newestOpKeyInfo := none

def inOrder : List OpKeyManager.KeyCall := [.registerOpKey ⟨1010, 0⟩ (keyOf 1 1000), .registerOpKey ⟨1010, 0⟩ (keyOf 2 1005)]

def outOfOrder : List OpKeyManager.KeyCall := [.registerOpKey ⟨1010, 0⟩ (keyOf 2 1005), .registerOpKey ⟨1010, 0⟩ (keyOf 1 1000)]

def after (calls : List OpKeyManager.KeyCall) : OpKeyManager := calls.foldl OpKeyManager.keyCall noKeys

end OpKeyCacheWitness

open OpKeyManager OpKeyCacheWitness in
/-- Two keys that are registered in order. -/
theorem opKeyAnswers_of_run_inOrder : Run KeyStep ⟨noKeys, ⟨1000, 0⟩⟩ inOrder ⟨after inOrder, ⟨1010, 0⟩⟩ ∧
    NewestAnswer (after inOrder).opKeyInfos ⟨930, 0⟩ ((after inOrder).getNewestOpKey ⟨1020, 0⟩).1 ∧
    OldestAnswer (after inOrder).opKeyInfos ⟨930, 0⟩ ((after inOrder).getOldestOpKey ⟨1020, 0⟩).1 := by
  have hfirst : KeyStep ⟨noKeys, ⟨1000, 0⟩⟩ (.registerOpKey ⟨1010, 0⟩ (keyOf 1 1000))
      ⟨noKeys.keyCall (.registerOpKey ⟨1010, 0⟩ (keyOf 1 1000)), ⟨1010, 0⟩⟩ := by
    refine ⟨⟨(Timestamp.isLess_eq_false_iff _ _).1 (by decide), le_rfl, ?_, ?_⟩, ⟨fun o ho => absurd ho List.not_mem_nil, fun o ho => by cases ho⟩, rfl⟩ <;>
      exact ⟨by decide, fun _ => by decide⟩
  have hsecond : KeyStep ⟨noKeys.keyCall (.registerOpKey ⟨1010, 0⟩ (keyOf 1 1000)), ⟨1010, 0⟩⟩
      (.registerOpKey ⟨1010, 0⟩ (keyOf 2 1005)) ⟨after inOrder, ⟨1010, 0⟩⟩ := by
    refine ⟨⟨le_rfl, le_rfl, ?_, ?_⟩, ⟨by decide +kernel, fun o ho => ?_⟩, rfl⟩
    · exact ⟨by decide, fun _ => by decide⟩
    · exact ⟨by decide, fun _ => by decide⟩
    · obtain rfl : keyOf 1 1000 = o := Option.some.inj ho
      exact Or.inr (by decide)
  have hrun : Run KeyStep ⟨noKeys, ⟨1000, 0⟩⟩ inOrder ⟨after inOrder, ⟨1010, 0⟩⟩ := (Run.single hfirst).snoc hsecond
  have hlimit : (after inOrder).getExpireRenewOpKeyTS ⟨1020, 0⟩ = ⟨930, 0⟩ := by decide +kernel
  have h := opKeyAnswers_of_run ⟨1020, 0⟩ rfl rfl rfl hrun ((Timestamp.isLess_eq_false_iff _ _).1 (by decide)) ⟨by decide, fun _ => by decide⟩
  dsimp only at h
  rw [hlimit] at h
  refine ⟨hrun, h.1.1, h.2.2.2 fun o ho => ?_⟩
  obtain rfl : keyOf 1 1000 = o := Option.some.inj ho
  decide

open OpKeyManager OpKeyCacheWitness in
/-- The oldest key is registered last, and is not found. -/
theorem older_key_not_found : keyOf 1 1000 ∈ (after outOfOrder).opKeyInfos ∧
    ((after outOfOrder).getOldestOpKey ⟨1020, 0⟩).1 = .ok (keyOf 2 1005) ∧
    ((after outOfOrder).getOldestOpKeyFullScan ⟨1020, 0⟩).1 = .ok (keyOf 1 1000) ∧
    ¬ OldestAnswer (after outOfOrder).opKeyInfos ((after outOfOrder).getExpireRenewOpKeyTS ⟨1020, 0⟩)
      ((after outOfOrder).getOldestOpKey ⟨1020, 0⟩).1 := by
  have hmem : keyOf 1 1000 ∈ (after outOfOrder).opKeyInfos := by decide +kernel
  have hget : ((after outOfOrder).getOldestOpKey ⟨1020, 0⟩).1 = .ok (keyOf 2 1005) := by decide +kernel
  refine ⟨hmem, hget, by decide +kernel, fun h => ?_⟩
  rw [hget] at h
  cases h with
  | found _ _ hbefore =>
    have hle := hbefore (keyOf 1 1000) hmem (by decide +kernel)
    exact absurd hle (not_le.2 ((Timestamp.isLess_iff _ _).1 (by decide)))

end PttaiCore
