import PttaiCore.Lemmas.Span
import PttaiCore.MerkleTime
import PttaiCore.Theorems.Journal

/-! # The times in memory and in the database -/

namespace PttaiCore

structure TimesAgree (m : Merkle) (s : MerkleTimes) : Prop where
  generate : Merkle.orZero (m.getGenerateTime s.state.db) = .ok s.state.lastGenerateTS
  sync : m.getSyncTime s.state.db = .ok s.lastSyncTS
  failSync : m.getFailSyncTime s.state.db = .ok s.lastFailSyncTS

inductive TimeCall where
  | saveGenerateTime (ts : Timestamp)
  | saveSyncTime (ts : Timestamp)
  | forceSaveSyncTime (ts : Timestamp)
  | saveFailSyncTime (ts : Timestamp)
  | saveMerkleTree (ts : Timestamp)
  | clean

def MerkleTimes.call (Γ : Ctx) (m : Merkle) (s : MerkleTimes) : TimeCall → MerkleTimes
  | .saveGenerateTime ts => (s.saveGenerateTime m ts).2
  | .saveSyncTime ts => (s.saveSyncTime m ts).2
  | .forceSaveSyncTime ts => s.forceSaveSyncTime m ts
  | .saveFailSyncTime ts => (s.saveFailSyncTime m ts).2
  | .saveMerkleTree ts => (s.saveMerkleTree Γ m ts).2
  | .clean => s.clean m

def NotOlder (m : Merkle) (s : MerkleState) (ts : Timestamp) : Prop := ∀ t, m.getGenerateTime s.db = .ok t → ts.isLess t = false

def hourNewest (m : Merkle) (db : KeyStore Bytes Value) (ts : Timestamp) : Timestamp :=
  let nodes := m.nodesBetween db .now ts.toHRTimestamp.1 ts.toHRTimestamp.2
  if UInt32.ofNat nodes.length = 0 then .zero else nodes.getLast?.elim .zero fun n => n.updateTS

def TimeCall.Keeps (m : Merkle) (s : MerkleTimes) : TimeCall → Prop
  | .saveGenerateTime ts => NotOlder m s.state ts
  | .saveMerkleTree ts => NotOlder m s.state (hourNewest m s.state.db.db ts)
  | .clean => s.state.lastGenerateTS = .zero ∧ s.lastSyncTS = .zero ∧ s.lastFailSyncTS = .zero
  | .saveSyncTime _ | .forceSaveSyncTime _ | .saveFailSyncTime _ => True

def TimeStep (Γ : Ctx) (m : Merkle) (s : MerkleTimes) (c : TimeCall) (s' : MerkleTimes) : Prop := c.Keeps m s ∧ s' = s.call Γ m c

namespace TimesAux

variable {Γ : Ctx} {m : Merkle} {key : Bytes} {db db' : KeyStore Bytes Value} {t t' ts : Timestamp}

/-! ## One time -/

def readTime : Option Value → Except Err Timestamp
  | none => .ok .zero
  | some v =>
    match DBValue.toDBable v with
    | none => .error .json
    | some t => .ok t

theorem orZero_getTime (d : LDBDatabase Value) (key : Bytes) : Merkle.orZero (Merkle.getTime d key) = readTime (d.db.get key) := by
  unfold Merkle.getTime LDBDatabase.get readTime
  cases d.db.get key with
  | none => rfl
  | some v => cases hv : DBValue.toDBable v <;> simp [hv, Merkle.orZero]

theorem getTime_eq_ok {d : LDBDatabase Value} : Merkle.getTime d key = .ok t ↔
    ∃ v, d.db.get key = some v ∧ DBValue.toDBable v = some t := by
  unfold Merkle.getTime LDBDatabase.get
  cases d.db.get key with
  | none => simp
  | some v => cases hv : DBValue.toDBable v <;> simp [hv]

inductive Effect (key : Bytes) (db db' : KeyStore Bytes Value) (t t' : Timestamp) : Prop where
  | same (hget : db'.get key = db.get key) (ht : t' = t)
  | saved (hget : db'.get key = some (.dbable t'))
  | cleared (hget : db'.get key = none) (ht : t' = .zero)

theorem Effect.agree (h : Effect key db db' t t') (hagree : readTime (db.get key) = .ok t) : readTime (db'.get key) = .ok t' := by
  rcases h with ⟨hget, rfl⟩ | hget | ⟨hget, rfl⟩
  · rw [hget, hagree]
  · rw [hget]
    rfl
  · rw [hget]
    rfl

structure Effects (m : Merkle) (s s' : MerkleTimes) : Prop where
  generate : Effect m.marshalGenerateTimeKey s.state.db.db s'.state.db.db s.state.lastGenerateTS s'.state.lastGenerateTS
  sync : Effect m.marshalSyncTimeKey s.state.db.db s'.state.db.db s.lastSyncTS s'.lastSyncTS
  failSync : Effect m.marshalFailSyncTimeKey s.state.db.db s'.state.db.db s.lastFailSyncTS s'.lastFailSyncTS

theorem Effects.agree {s s' : MerkleTimes} (h : Effects m s s') (hagree : TimesAgree m s) : TimesAgree m s' := by
  obtain ⟨hgen, hsync, hfail⟩ := hagree
  refine ⟨?_, ?_, ?_⟩
  · exact (orZero_getTime _ _).trans (h.generate.agree ((orZero_getTime _ _).symm.trans hgen))
  · exact (orZero_getTime _ _).trans (h.sync.agree ((orZero_getTime _ _).symm.trans hsync))
  · exact (orZero_getTime _ _).trans (h.failSync.agree ((orZero_getTime _ _).symm.trans hfail))

theorem Effects.refl (s : MerkleTimes) : Effects m s s := ⟨.same rfl rfl, .same rfl rfl, .same rfl rfl⟩

/-! ## The keys -/

theorem key_ne {a b : List Char} (ha : a.length = b.length) (hab : ascii a ≠ ascii b) :
    m.partPrefix .merkleMeta ++ (ascii a ++ m.prefixID.1) ≠ m.partPrefix .merkleMeta ++ (ascii b ++ m.prefixID.1) := by
  intro h
  exact hab (List.append_inj_left (List.append_cancel_left h) (by simp [ascii, ha]))

theorem generate_ne_sync (m : Merkle) : m.marshalGenerateTimeKey ≠ m.marshalSyncTimeKey := key_ne rfl (by decide)

theorem generate_ne_failSync (m : Merkle) : m.marshalGenerateTimeKey ≠ m.marshalFailSyncTimeKey := key_ne rfl (by decide)

theorem sync_ne_failSync (m : Merkle) : m.marshalSyncTimeKey ≠ m.marshalFailSyncTimeKey := key_ne rfl (by decide)

/-! ## Saving the generate time -/

structure GenerateEffect (m : Merkle) (s s' : MerkleState) : Prop where
  generate : Effect m.marshalGenerateTimeKey s.db.db s'.db.db s.lastGenerateTS s'.lastGenerateTS
  others : ∀ k, InPart .merkleMeta k → k ≠ m.marshalGenerateTimeKey → s'.db.db.get k = s.db.db.get k

theorem GenerateEffect.congr {s₀ s s' : MerkleState} (h : GenerateEffect m s s') (hget : ∀ k, InPart .merkleMeta k → s.db.db.get k = s₀.db.db.get k)
    (hlast : s.lastGenerateTS = s₀.lastGenerateTS) : GenerateEffect m s₀ s' := by
  refine ⟨?_, fun k hk hne => (h.others k hk hne).trans (hget k hk)⟩
  rcases h.generate with ⟨hsame, ht⟩ | hsaved | ⟨hcleared, ht⟩
  · exact .same (hsame.trans (hget _ (inPart_generateTimeKey m))) (ht.trans hlast)
  · exact .saved hsaved
  · exact .cleared hcleared ht

theorem GenerateEffect.of_entries {s s' s'' : MerkleState} (h : GenerateEffect m s s') (hdb : s''.db.db = s'.db.db)
    (hlast : s''.lastGenerateTS = s'.lastGenerateTS) : GenerateEffect m s s'' := by
  refine ⟨?_, fun k hk hne => ?_⟩
  · rw [hdb, hlast]
    exact h.generate
  · rw [hdb]
    exact h.others k hk hne

theorem GenerateEffect.refl (s : MerkleState) : GenerateEffect m s s := ⟨.same rfl rfl, fun _ _ _ => rfl⟩

theorem generate_effect {s : MerkleState} (h : NotOlder m s ts) : GenerateEffect m s (s.saveGenerateTime m ts).2 := by
  rcases s.db.tryPut_cases m.marshalGenerateTimeKey (.dbable ts) ts with ⟨r, heq⟩ | ⟨e, heq, hnewer⟩
  · rw [MerkleState.saveGenerateTime, heq]
    exact ⟨.saved (by simp), fun k _ hk => by simp [hk]⟩
  · have hne : e ≠ .invalidUpdateTS := by
      intro he
      obtain ⟨v, t, hget, hv, hless⟩ := hnewer he
      rw [h t (getTime_eq_ok.2 ⟨v, hget, hv⟩)] at hless
      cases hless
    have hsame : (s.saveGenerateTime m ts).2 = s := by
      rw [MerkleState.saveGenerateTime, heq]
      cases e with
      | invalidUpdateTS => exact absurd rfl hne
      | _ => rfl
    rw [hsame]
    exact .refl s

theorem eq_hourNewest (h : (saveMerkleTreeLevels Γ m ts db).1 = .ok t) : t = hourNewest m db ts := by
  have hcore : (saveMerkleTreeCore Γ m .hr (MerkleTreeLevel.hr.bounds ts).1 (MerkleTreeLevel.hr.bounds ts).2 db).1 = .ok t := by
    unfold saveMerkleTreeLevels at h
    generalize saveMerkleTreeCore Γ m .hr (MerkleTreeLevel.hr.bounds ts).1 (MerkleTreeLevel.hr.bounds ts).2 db = r at h
    obtain ⟨e | newestTS, db'⟩ := r
    · cases h
    · dsimp only at h
      generalize saveMerkleTreeUp Γ m ts [.day, .month, .year] db' = r at h
      obtain ⟨e | _, db''⟩ := r
      · cases h
      · exact h
  unfold saveMerkleTreeCore at hcore
  cases hnodes : (db.range (m.marshalKey MerkleTreeLevel.hr.child (MerkleTreeLevel.hr.bounds ts).1)
      (m.marshalKey MerkleTreeLevel.hr.child (MerkleTreeLevel.hr.bounds ts).2)).mapM (fun e => e.2.toNode) with
  | none =>
    rw [hnodes] at hcore
    cases hcore
  | some children =>
    have hchildren : m.nodesBetween db .now ts.toHRTimestamp.1 ts.toHRTimestamp.2 = children := KeyStore.filterMap_of_mapM hnodes
    rw [hnodes] at hcore
    rw [hourNewest, hchildren]
    dsimp only at hcore ⊢
    split_ifs at hcore ⊢ with hzero
    · exact (Except.ok.inj hcore).symm
    · cases hlast : children.getLast? with
      | none =>
        rw [List.getLast?_eq_none_iff.1 hlast] at hzero
        exact absurd rfl hzero
      | some n =>
        rw [hlast] at hcore
        dsimp only [Option.elim_some] at hcore ⊢
        rw [Timestamp.unmarshal_marshal] at hcore
        split_ifs at hcore
        exact (Except.ok.inj hcore).symm

theorem notOlder_congr {s s' : MerkleState} (hget : s'.db.db.get m.marshalGenerateTimeKey = s.db.db.get m.marshalGenerateTimeKey)
    (h : NotOlder m s ts) : NotOlder m s' ts := by
  intro t ht
  obtain ⟨v, hv, hread⟩ := getTime_eq_ok.1 ht
  exact h t (getTime_eq_ok.2 ⟨v, hget.symm.trans hv, hread⟩)

theorem locked_effect {s : MerkleState} (h : NotOlder m s (hourNewest m s.db.db ts)) :
    GenerateEffect m s (MerkleState.saveMerkleTreeLocked Γ m s ts).2 := by
  have hlevels := saveMerkleTreeLevels_sameOff Γ m ts s.db.db
  have hnewest : ∀ t, (saveMerkleTreeLevels Γ m ts s.db.db).1 = .ok t → t = hourNewest m s.db.db ts := fun t => eq_hourNewest
  unfold MerkleState.saveMerkleTreeLocked
  generalize saveMerkleTreeLevels Γ m ts s.db.db = r at hlevels hnewest
  obtain ⟨e | t, db⟩ := r
  all_goals have hmeta : ∀ k, InPart .merkleMeta k → (s.withEntries db).db.db.get k = s.db.db.get k :=
    fun k hk => hlevels k (not_inPart_of hk (by decide))
  · exact (GenerateEffect.refl (s.withEntries db)).congr hmeta rfl
  · rw [← hnewest t rfl] at h
    exact (generate_effect (notOlder_congr (hmeta _ (inPart_generateTimeKey m)) h)).congr hmeta rfl

theorem rebuild_effect {s : MerkleState} (h : NotOlder m s (hourNewest m s.db.db ts)) :
    GenerateEffect m s (MerkleState.saveMerkleTree Γ m s ts).2 := by
  have hdb := s.db.tryLockMap_db m.dbPrefix
  unfold MerkleState.saveMerkleTree
  generalize s.db.tryLockMap m.dbPrefix = r at hdb
  obtain ⟨e | _, d⟩ := r
  all_goals
    have hentries : ({ s with db := d } : MerkleState).db.db = s.db.db := hdb
  · exact (GenerateEffect.refl { s with db := d }).congr (fun k _ => by rw [hentries]) rfl
  · have hlocked : GenerateEffect m { s with db := d } (MerkleState.saveMerkleTreeLocked Γ m { s with db := d } ts).2 :=
      locked_effect (by
        rw [hentries]
        exact notOlder_congr (by rw [hentries]) h)
    have hunlock := LDBDatabase.unlockMap_db (MerkleState.saveMerkleTreeLocked Γ m { s with db := d } ts).2.db m.dbPrefix
    refine GenerateEffect.congr (hlocked.of_entries ?_ rfl) (fun k _ => by rw [hentries]) rfl
    exact hunlock

/-! ## The calls -/

theorem inPart_syncTimeKey (m : Merkle) : InPart .merkleMeta m.marshalSyncTimeKey := inPart_partPrefix_append.2 rfl

theorem inPart_failSyncTimeKey (m : Merkle) : InPart .merkleMeta m.marshalFailSyncTimeKey := inPart_partPrefix_append.2 rfl

theorem GenerateEffect.effects {s : MerkleTimes} {s' : MerkleState} (h : GenerateEffect m s.state s') : Effects m s { s with state := s' } :=
  ⟨h.generate, .same (h.others _ (inPart_syncTimeKey m) (generate_ne_sync m).symm) rfl,
    .same (h.others _ (inPart_failSyncTimeKey m) (generate_ne_failSync m).symm) rfl⟩

theorem get_clean (s : MerkleTimes) {k : Bytes}
    (hk : k = m.marshalGenerateTimeKey ∨ k = m.marshalSyncTimeKey ∨ k = m.marshalFailSyncTimeKey) :
    (s.clean m).state.db.db.get k = none := by
  unfold MerkleTimes.clean
  generalize [MerkleTreeLevel.now, .hr, .day, .month, .year].foldl (fun db level => MerkleTimes.cleanLevel m level db) s.state.db.db = db
  change (((db.delete m.marshalGenerateTimeKey).delete m.marshalSyncTimeKey).delete m.marshalFailSyncTimeKey).get k = none
  simp only [KeyStore.get_delete]
  rcases hk with rfl | rfl | rfl <;> simp

theorem times_clean (s : MerkleTimes) : (s.clean m).state.lastGenerateTS = s.state.lastGenerateTS ∧
    (s.clean m).lastSyncTS = s.lastSyncTS ∧ (s.clean m).lastFailSyncTS = s.lastFailSyncTS := by
  unfold MerkleTimes.clean MerkleTimes.withDatabase
  exact ⟨rfl, rfl, rfl⟩

theorem call_effects {s : MerkleTimes} {c : TimeCall} (h : c.Keeps m s) : Effects m s (s.call Γ m c) := by
  cases c with
  | saveGenerateTime ts => exact (generate_effect h).effects
  | saveMerkleTree ts => exact (rebuild_effect h).effects
  | saveSyncTime ts =>
    change Effects m s (s.saveSyncTime m ts).2
    unfold MerkleTimes.saveSyncTime
    split_ifs
    · exact .refl s
    · exact .refl s
    · rcases s.state.db.tryPut_cases m.marshalSyncTimeKey (.dbable ts) ts with ⟨r, heq⟩ | ⟨e, heq, -⟩
      · rw [heq]
        exact ⟨.same (by simp [MerkleTimes.withDatabase, generate_ne_sync]) rfl, .saved (by simp [MerkleTimes.withDatabase]),
          .same (by simp [MerkleTimes.withDatabase, (sync_ne_failSync m).symm]) rfl⟩
      · rw [heq]
        exact .refl s
  | forceSaveSyncTime ts =>
    exact ⟨.same (by simp [MerkleTimes.call, MerkleTimes.forceSaveSyncTime, MerkleTimes.withDatabase, LDBDatabase.put, generate_ne_sync]) rfl,
      .saved (by simp [MerkleTimes.call, MerkleTimes.forceSaveSyncTime, MerkleTimes.withDatabase, LDBDatabase.put]),
      .same (by simp [MerkleTimes.call, MerkleTimes.forceSaveSyncTime, MerkleTimes.withDatabase, LDBDatabase.put,
        (sync_ne_failSync m).symm]) rfl⟩
  | saveFailSyncTime ts =>
    change Effects m s (s.saveFailSyncTime m ts).2
    unfold MerkleTimes.saveFailSyncTime
    rcases s.state.db.tryPut_cases m.marshalFailSyncTimeKey (.dbable ts) ts with ⟨r, heq⟩ | ⟨e, heq, -⟩
    · rw [heq]
      exact ⟨.same (by simp [MerkleTimes.withDatabase, generate_ne_failSync]) rfl,
        .same (by simp [MerkleTimes.withDatabase, sync_ne_failSync]) rfl, .saved (by simp [MerkleTimes.withDatabase])⟩
    · rw [heq]
      exact .refl s
  | clean =>
    obtain ⟨hgen, hsync, hfail⟩ := h
    obtain ⟨hgen', hsync', hfail'⟩ := times_clean (m := m) s
    exact ⟨.cleared (get_clean s (.inl rfl)) (hgen'.trans hgen), .cleared (get_clean s (.inr (.inl rfl))) (hsync'.trans hsync),
      .cleared (get_clean s (.inr (.inr rfl))) (hfail'.trans hfail)⟩

theorem agree_newMerkle {d : LDBDatabase Value} {s : MerkleTimes} (h : MerkleTimes.newMerkle m d = .ok s) : TimesAgree m s := by
  unfold MerkleTimes.newMerkle at h
  split at h
  next generate sync failSync hgen hsync hfail =>
    cases h
    exact ⟨hgen, hsync, hfail⟩
  all_goals cases h

end TimesAux

/-- In every run from a merkle just made, in which no time is generated that is before the stored generate time and nothing but empty
trees is cleaned, the times in memory are those in the database. -/
theorem times_agree_of_run {Γ : Ctx} {m : Merkle} {d : LDBDatabase Value} {s₀ s : MerkleTimes} {cs : List TimeCall}
    (h0 : MerkleTimes.newMerkle m d = .ok s₀) (hrun : Run (TimeStep Γ m) s₀ cs s) : TimesAgree m s := by
  refine hrun.invariant (TimesAux.agree_newMerkle h0) fun s c s' hagree hstep => ?_
  rw [hstep.2]
  exact (TimesAux.call_effects hstep.1).agree hagree

namespace TimesWitness

open SigningWitness JournalWitness

def made : MerkleTimes := ⟨⟨.ofDB .empty, ∅, .zero, .zero⟩, .zero, .zero⟩

theorem newMerkle_made : MerkleTimes.newMerkle merkle (.ofDB .empty) = .ok made := rfl

def rebuilt : MerkleTimes := made.call ctx merkle (.saveMerkleTree ⟨5000, 0⟩)

def generated : MerkleTimes := rebuilt.call ctx merkle (.saveGenerateTime ⟨10, 0⟩)

theorem run_generated : Run (TimeStep ctx merkle) made [.saveMerkleTree ⟨5000, 0⟩, .saveGenerateTime ⟨10, 0⟩, .saveSyncTime ⟨20, 0⟩]
    (generated.call ctx merkle (.saveSyncTime ⟨20, 0⟩)) := by
  have hnone : merkle.getGenerateTime made.state.db = .error .notFound := rfl
  have hzero : merkle.getGenerateTime rebuilt.state.db = .ok .zero := by decide +kernel
  have hfirst : TimeStep ctx merkle made (.saveMerkleTree ⟨5000, 0⟩) rebuilt := by
    refine ⟨fun t ht => ?_, rfl⟩
    rw [hnone] at ht
    cases ht
  have hsecond : TimeStep ctx merkle rebuilt (.saveGenerateTime ⟨10, 0⟩) generated := by
    refine ⟨fun t ht => ?_, rfl⟩
    rw [hzero] at ht
    cases ht
    decide
  exact (((Run.nil made).snoc hfirst).snoc hsecond).snoc ⟨trivial, rfl⟩

def late : MerkleTimes := made.call ctx merkle (.saveGenerateTime ⟨10, 0⟩)

def early : MerkleTimes := late.call ctx merkle (.saveGenerateTime ⟨5, 0⟩)

end TimesWitness

open TimesWitness SigningWitness JournalWitness in
/-- A rebuild, a generate time and a sync time. -/
theorem times_agree_generated : TimesAgree merkle (generated.call ctx merkle (.saveSyncTime ⟨20, 0⟩)) :=
  times_agree_of_run newMerkle_made run_generated

open TimesWitness SigningWitness JournalWitness in
/-- An older generate time is taken over in memory, and not in the database. -/
theorem generate_time_goes_back :
    MerkleTimes.newMerkle merkle (.ofDB .empty) = .ok made ∧
    Run (fun s c s' => s' = s.call ctx merkle c) made [.saveGenerateTime ⟨10, 0⟩, .saveGenerateTime ⟨5, 0⟩] early ∧
    merkle.getGenerateTime early.state.db = .ok ⟨10, 0⟩ ∧ early.state.lastGenerateTS = ⟨5, 0⟩ ∧ ¬ TimesAgree merkle early := by
  have hstored : merkle.getGenerateTime early.state.db = .ok ⟨10, 0⟩ := by decide +kernel
  have hlast : early.state.lastGenerateTS = ⟨5, 0⟩ := by decide +kernel
  have hlate : Run (fun s c s' => s' = s.call ctx merkle c) made [.saveGenerateTime ⟨10, 0⟩] late := .single rfl
  have hearly : Run (fun s c s' => s' = s.call ctx merkle c) made [.saveGenerateTime ⟨10, 0⟩, .saveGenerateTime ⟨5, 0⟩] early :=
    hlate.snoc rfl
  refine ⟨newMerkle_made, hearly, hstored, hlast, fun h => ?_⟩
  have hagree := h.generate
  rw [hstored, hlast] at hagree
  exact absurd hagree (by decide)

end PttaiCore
