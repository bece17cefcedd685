import PttaiCore.Lemmas.ObjectLogs
import PttaiCore.Lib.Trace
import PttaiCore.OpKeySync
import PttaiCore.Theorems.DerivedKeys

/-! # What the registered operation keys are -/

namespace PttaiCore

open Books Heap KeyStore

def OpKey.Sound (K : KeyScheme) (hash : Address) (k : OpKey) : Prop :=
  k.obj.data.hash = some hash ∧ K.addressOf k.obj.data.keyBytes = some hash ∧ keyInfoIDToHash k.id = hash

def OpKeyObj.Sound (K : KeyScheme) (o : OpKeyObj) : Prop :=
  ∀ hash, K.addressOf o.keyBytes = some hash → o.hash = some hash ∧ keyInfoIDToHash o.id = hash

namespace OpKeyStore

def Right (K : KeyScheme) (s : OpKeyStore) : Prop := ∀ hash p, s.opKeyInfos.get hash = some p → (s.heap.get p).Sound K hash

structure Intact (K : KeyScheme) (s : OpKeyStore) : Prop where
  lt_next : ∀ hash p, s.opKeyInfos.get hash = some p → p < s.heap.next
  right : s.Right K
  stored : ∀ id obj, s.books.objs.get id = some obj → obj.data.keyBytes = [] ∨ ∃ hash, (⟨id, obj⟩ : OpKey).Sound K hash

end OpKeyStore

namespace OpKeyRouter

def Right (K : KeyScheme) (r : Except Err OpKeyRouter) : Prop :=
  ∀ router, r = .ok router → ∀ id e, router.entities id = some e → e.store.Right K

end OpKeyRouter

def OpKeyCall.Fits (K : KeyScheme) : OpKeyCall → Prop
  | .requestOpKey _ _ _ opKeys | .requestOpKeyAck _ _ _ opKeys => ∀ o ∈ opKeys, o.Sound K
  | .syncCreateOpKeyAck _ objs => (∀ o ∈ objs, o.Sound K) ∧ ∀ o ∈ objs, ∀ o' ∈ objs, o.id = o'.id
  | .createOpKey _ key _ => ∃ hash, key.Sound K hash

namespace OpKeyStore

variable {K : KeyScheme} {env : OpKeyEnv} {s s' : OpKeyStore} {p : Nat} {id : PttID} {oplog : BaseOplog}

theorem exists_of_map_eq_ok {α β : Type} {x : Except Err α} {f : α → β} {b : β} (h : x.map f = .ok b) : ∃ a, x = .ok a ∧ f a = b := by
  cases x with
  | error e => cases h
  | ok a => exact ⟨a, rfl, Except.ok.inj h⟩

theorem addressOf_nil (K : KeyScheme) : K.addressOf [] = none := rfl

variable {hash : Address} {books : Books OpKeyData} {obj : Object OpKeyData} {deleteInfo : List PttID} {r : Handled}

theorem keyBytes_ne_nil {k : OpKey} (h : k.Sound K hash) : k.obj.data.keyBytes ≠ [] := by
  intro hnil
  have haddr := h.2.1
  rw [hnil, addressOf_nil] at haddr
  cases haddr

theorem sound_congr {k k' : OpKey} (hid : k'.id = k.id) (hdata : k'.obj.data = k.obj.data) :
    k'.Sound K hash ↔ k.Sound K hash := by
  rw [OpKey.Sound, OpKey.Sound, hid, hdata]

/-! ## Changes of the state -/

theorem Intact.alloc (h : Intact K s) (k : OpKey) : Intact K (s.alloc k) := by
  refine ⟨fun hash p hp => ?_, fun hash p hp => ?_, h.stored⟩
  · have := h.lt_next hash p hp
    simp only [OpKeyStore.alloc, next_alloc]
    omega
  · rw [OpKeyStore.alloc, get_alloc_of_lt (h.lt_next hash p hp)]
    exact h.right hash p hp

theorem Intact.set (h : Intact K s) {k : OpKey} (hk : ∀ hash, s.opKeyInfos.get hash = some p → k.Sound K hash) :
    Intact K { s with heap := s.heap.set p k } := by
  refine ⟨fun hash q hq => ?_, fun hash q hq => ?_, h.stored⟩
  · rw [next_set]
    exact h.lt_next hash q hq
  · by_cases hqp : q = p
    · subst hqp
      rw [get_set_self (h.lt_next hash q hq)]
      exact hk hash hq
    · rw [get_set_of_ne hqp]
      exact h.right hash q hq

theorem Intact.setBooks (h : Intact K s)
    (hbooks : ∀ id obj, books.objs.get id = some obj → s.books.objs.get id = some obj ∨ obj.data.keyBytes = [] ∨
      ∃ hash, (⟨id, obj⟩ : OpKey).Sound K hash) : Intact K { s with books } :=
  ⟨h.lt_next, h.right, fun id obj hget => (hbooks id obj hget).elim (h.stored id obj) fun hobj => hobj⟩

theorem Intact.setLogs (h : Intact K s) (hobjs : books.objs = s.books.objs) : Intact K { s with books } :=
  h.setBooks fun id obj hget => .inl (by rwa [hobjs] at hget)

theorem Intact.removeOpKeyFromHash (h : Intact K s) (hash : Address) : Intact K (s.removeOpKeyFromHash hash) := by
  unfold OpKeyStore.removeOpKeyFromHash
  split
  · exact h
  · split
    · exact h
    · have hsub : ∀ {hash' hash'' : Address} {q : Nat}, (s.opKeyInfos.delete hash').get hash'' = some q → s.opKeyInfos.get hash'' = some q := by
        intro hash' hash'' q hq
        rw [get_delete] at hq
        split_ifs at hq
        exact hq
      exact ⟨fun hash' q hq => h.lt_next hash' q (hsub hq), fun hash' q hq => h.right hash' q (hsub hq), h.stored⟩

/-! ## A record on its way -/

structure Ready (K : KeyScheme) (p : Nat) (id : PttID) (s : OpKeyStore) : Prop where
  intact : Intact K s
  lt : p < s.heap.next
  id_eq : ∀ hash, s.opKeyInfos.get hash = some p → (s.heap.get p).id = id
  linked : ∀ hash, s.opKeyInfos.get hash = some p → ∃ obj, s.books.objs.get id = some obj ∧ obj.data.keyBytes ≠ []

structure At (K : KeyScheme) (p : Nat) (id : PttID) (s : OpKeyStore) : Prop extends Ready K p id s where
  id_cell : (s.heap.get p).id = id
  sound : (s.heap.get p).obj.data.keyBytes = [] ∨ ∃ hash, (s.heap.get p).Sound K hash

theorem ready_alloc (h : Intact K s) (k : OpKey) (id : PttID) : Ready K s.heap.next id (s.alloc k) := by
  have hnew : ∀ hash, (s.alloc k).opKeyInfos.get hash ≠ some s.heap.next := fun hash hget =>
    absurd (h.lt_next hash _ hget) (Nat.lt_irrefl _)
  refine ⟨h.alloc k, ?_, fun hash hget => absurd hget (hnew hash), fun hash hget => absurd hget (hnew hash)⟩
  rw [OpKeyStore.alloc, next_alloc]
  exact Nat.lt_succ_self _

theorem Ready.getByID (h : Ready K p id s) : Ready K p id (s.getByID p id).2 ∧ ((s.getByID p id).1 = none → At K p id (s.getByID p id).2) := by
  unfold OpKeyStore.getByID
  cases hobj : s.books.objs.get id with
  | none =>
    -- a registered record has its key stored
    have hnot : ∀ hash, s.opKeyInfos.get hash ≠ some p := by
      intro hash hget
      obtain ⟨obj, hget', -⟩ := h.linked hash hget
      rw [hobj] at hget'
      cases hget'
    refine ⟨⟨h.intact.set fun hash hget => absurd hget (hnot hash), ?_, ?_, ?_⟩, fun herr => by cases herr⟩
    · rw [next_set]
      exact h.lt
    · exact fun hash hget => absurd hget (hnot hash)
    · exact fun hash hget => absurd hget (hnot hash)
  | some obj =>
    have hsound := h.intact.stored id obj hobj
    have hreg : ∀ hash, s.opKeyInfos.get hash = some p → (⟨id, obj⟩ : OpKey).Sound K hash := by
      intro hash hget
      obtain ⟨obj', hget', hne⟩ := h.linked hash hget
      obtain rfl : obj = obj' := Option.some.inj (hobj.symm.trans hget')
      obtain ⟨hash', hs⟩ := hsound.resolve_left hne
      have hhash : hash' = hash := by
        rw [← hs.2.2, ← (h.intact.right hash p hget).2.2, h.id_eq hash hget]
      rwa [hhash] at hs
    have hat : At K p id { s with heap := s.heap.set p ⟨id, obj⟩ } := by
      refine ⟨⟨h.intact.set hreg, ?_, ?_, h.linked⟩, ?_, ?_⟩
      · rw [next_set]
        exact h.lt
      · intro hash _
        rw [get_set_self h.lt]
      · rw [get_set_self h.lt]
      · rw [get_set_self h.lt]
        exact hsound
    dsimp only
    split_ifs
    · exact ⟨hat.toReady, fun herr => by cases herr⟩
    · exact ⟨hat.toReady, fun _ => hat⟩

theorem At.postcreateOpKey (h : At K p id s) (hstored : ∃ obj, s.books.objs.get id = some obj ∧ obj.data = (s.heap.get p).obj.data)
    (heq : s.postcreateOpKey p = .ok s') : At K p id s' := by
  unfold OpKeyStore.postcreateOpKey OpKeyStore.registerOpKey at heq
  by_cases halive : (s.heap.get p).obj.status ≠ .alive
  · rw [if_pos halive] at heq
    cases heq
    exact h
  rw [if_neg halive] at heq
  by_cases hnil : (s.heap.get p).obj.data.keyBytes = []
  · rw [if_pos hnil] at heq
    cases heq
    exact h
  rw [if_neg hnil] at heq
  obtain ⟨hash, hsound⟩ := h.sound.resolve_left hnil
  rw [hsound.1] at heq
  cases heq
  have hreg : ∀ {hash' : Address} {q : Nat}, (s.opKeyInfos.put hash p).get hash' = some q →
      s.opKeyInfos.get hash' = some q ∨ hash' = hash ∧ q = p := by
    intro hash' q hget
    rw [get_put] at hget
    split_ifs at hget with hh
    · exact .inr ⟨hh, (Option.some.inj hget).symm⟩
    · exact .inl hget
  refine ⟨⟨⟨fun hash' q hget => ?_, fun hash' q hget => ?_, h.intact.stored⟩, h.lt, fun _ _ => h.id_cell, fun _ _ => ?_⟩, h.id_cell, h.sound⟩
  · rcases hreg hget with hold | ⟨-, rfl⟩
    · exact h.intact.lt_next hash' q hold
    · exact h.lt
  · rcases hreg hget with hold | ⟨rfl, rfl⟩
    · exact h.intact.right hash' q hold
    · exact hsound
  · obtain ⟨obj, hget, hdata⟩ := hstored
    exact ⟨obj, hget, by rwa [hdata]⟩

theorem At.write (h : At K p id s) (hsound : obj.data.keyBytes = [] ∨ ∃ hash, (⟨id, obj⟩ : OpKey).Sound K hash)
    (hreg : ∀ hash, s.opKeyInfos.get hash = some p → (⟨id, obj⟩ : OpKey).Sound K hash) :
    At K p id { s with heap := s.heap.set p ⟨id, obj⟩ } := by
  refine ⟨⟨h.intact.set hreg, ?_, fun _ _ => ?_, h.linked⟩, ?_, ?_⟩
  · rw [next_set]
    exact h.lt
  · rw [get_set_self h.lt]
  · rw [get_set_self h.lt]
  · rw [get_set_self h.lt]
    exact hsound

theorem At.save (h : At K p id s) (hobjs : books.objs = s.books.objs.put id obj)
    (hsound : obj.data.keyBytes = [] ∨ ∃ hash, (⟨id, obj⟩ : OpKey).Sound K hash)
    (hreg : ∀ hash, s.opKeyInfos.get hash = some p → (⟨id, obj⟩ : OpKey).Sound K hash) :
    At K p id { s with books, heap := s.heap.set p ⟨id, obj⟩ } := by
  have hget : books.objs.get id = some obj := by rw [hobjs, get_put, if_pos rfl]
  have hintact : Intact K { s with books } := by
    refine h.intact.setBooks fun id' obj' hget' => ?_
    rw [hobjs, get_put] at hget'
    split_ifs at hget' with hid
    · cases hget'
      rw [hid]
      exact .inr hsound
    · exact .inl hget'
  have hbooks : At K p id { s with books } :=
    ⟨⟨hintact, h.lt, h.id_eq, fun hash hp => ⟨obj, hget, keyBytes_ne_nil (hreg hash hp)⟩⟩, h.id_cell, h.sound⟩
  exact hbooks.write hsound hreg

theorem At.save_of_data (h : At K p id s) (hobjs : books.objs = s.books.objs.put id obj)
    (hdata : obj.data = (s.heap.get p).obj.data) : At K p id { s with books, heap := s.heap.set p ⟨id, obj⟩ } := by
  have hcongr : ∀ hash, (⟨id, obj⟩ : OpKey).Sound K hash ↔ (s.heap.get p).Sound K hash := fun hash => sound_congr h.id_cell.symm hdata
  refine h.save hobjs ?_ fun hash hget => (hcongr hash).2 (h.intact.right hash p hget)
  rw [hdata]
  exact h.sound.imp_right fun hs => hs.imp fun hash => (hcongr hash).2

theorem At.saveNewObjectWithOplog (h : At K p id s) {isForceNot : Bool} {r : BaseOplog × OpKeyStore}
    (heq : s.saveNewObjectWithOplog isForceNot p oplog = .ok r) : At K p id r.2 := by
  have hdata : (s.books.saveNewObjectWithOplog id (s.heap.get p).obj oplog).2.1.data = (s.heap.get p).obj.data := by
    unfold Books.saveNewObjectWithOplog
    split_ifs <;> rfl
  have hobjs := saveNewObjectWithOplog_objs s.books id (s.heap.get p).obj oplog
  have hsave := h.save_of_data hobjs hdata
  unfold OpKeyStore.saveNewObjectWithOplog at heq
  dsimp only at heq
  rw [h.id_cell] at heq
  split_ifs at heq
  · cases heq
    exact hsave
  · obtain ⟨s', hs', rfl⟩ := exists_of_map_eq_ok heq
    refine hsave.postcreateOpKey ⟨_, by rw [hobjs, get_put, if_pos rfl], ?_⟩ hs'
    rw [get_set_self h.lt]

/-! ## Acknowledgements -/

theorem At.setLogs (h : At K p id s) (hobjs : books.objs = s.books.objs) : At K p id { s with books } :=
  ⟨⟨h.intact.setLogs hobjs, h.lt, h.id_eq, fun hash hget => by rw [hobjs]; exact h.linked hash hget⟩, h.id_cell, h.sound⟩

theorem At.syncCreateAckSaveOplog (h : At K p id s) (heq : s.syncCreateAckSaveOplog env p oplog = .ok s') : At K p id s' := by
  unfold OpKeyStore.syncCreateAckSaveOplog at heq
  dsimp only at heq
  generalize (if oplog.isSync = true then setOplogIsSync env.signer oplog else oplog) = oplog at heq
  have hlog : At K p id { s with books := (s.books.saveLog oplog).2 } := h.setLogs (saveLog_objs s.books oplog)
  cases hsave : s.books.saveLog oplog with
  | mk res books =>
    rw [hsave] at heq hlog
    cases res with
    | error e =>
      cases heq
      exact hlog
    | ok _ =>
      split_ifs at heq
      · cases heq
        exact hlog
      · cases heq
        exact hlog
      · cases heq
        exact hlog
      · obtain ⟨r, hr, rfl⟩ := exists_of_map_eq_ok heq
        exact hlog.saveNewObjectWithOplog hr

theorem At.receiveOpKey (h : At K p id s) {obj : OpKeyObj} (hobj : obj.Sound K) (hid : obj.id = id)
    (heq : s.receiveOpKey env p obj oplog = .ok s') : At K p id s' := by
  unfold OpKeyStore.receiveOpKey updateCreateOpKey at heq
  cases hkey : KeyScheme.toECDSA obj.keyBytes with
  | none =>
    rw [hkey] at heq
    cases heq
    exact h
  | some key =>
    rw [hkey] at heq
    dsimp only at heq
    rw [h.id_cell] at heq
    have hdata : ∀ o : Object OpKeyData, o.checkIsAllGood.2.data = o.data := by
      intro o
      unfold Object.checkIsAllGood
      split_ifs <;> rfl
    generalize hr : Object.checkIsAllGood _ = r at heq
    have hr' := congrArg (fun r : Bool × Object OpKeyData => r.2.data) hr
    rw [hdata] at hr'
    obtain ⟨hhash, haddr⟩ := hobj (K.pubkeyBytesToAddress (K.fromECDSAPub (K.publicKey key))) (by rw [KeyScheme.addressOf, hkey]; rfl)
    have hsound : (⟨id, r.2⟩ : OpKey).Sound K (K.pubkeyBytesToAddress (K.fromECDSAPub (K.publicKey key))) := by
      refine ⟨?_, ?_, hid ▸ haddr⟩
      · rw [← hr']
        exact hhash
      · rw [← hr', KeyScheme.addressOf, hkey]
        rfl
    have hreg : ∀ hash, s.opKeyInfos.get hash = some p → (⟨id, r.2⟩ : OpKey).Sound K hash := by
      intro hash hget
      have hold := (h.intact.right hash p hget).2.2
      rw [h.id_cell, ← hid, haddr] at hold
      rwa [← hold]
    split_ifs at heq
    · cases heq
      exact h.save rfl (.inr ⟨_, hsound⟩) hreg
    · have hwrite := h.write (.inr ⟨_, hsound⟩) hreg
      cases hsave : OpKeyStore.saveNewObjectWithOplog { s with heap := s.heap.set p ⟨id, r.2⟩ } false p oplog with
      | error e =>
        rw [hsave] at heq
        cases heq
      | ok res =>
        rw [hsave] at heq
        exact (hwrite.saveNewObjectWithOplog hsave).syncCreateAckSaveOplog heq

theorem Ready.handleSyncCreateObjectAck {obj : OpKeyObj} (h : Ready K p obj.id s) (hobj : obj.Sound K)
    (heq : s.handleSyncCreateObjectAck env p obj = .ok s') : Ready K p obj.id s' := by
  unfold OpKeyStore.handleSyncCreateObjectAck at heq
  obtain ⟨hready, hat⟩ := h.getByID
  split at heq
  · cases heq
  split at heq
  · cases heq
    exact h
  split at heq <;> rename_i hload <;> rw [hload] at hready hat
  · cases heq
    exact hready
  · specialize hat rfl
    dsimp only at heq
    split_ifs at heq
    · cases heq
      exact hready
    · exact (hat.syncCreateAckSaveOplog heq).toReady
    · cases heq
      exact hready
    · exact (hat.receiveOpKey hobj rfl heq).toReady
    · exact (hat.syncCreateAckSaveOplog heq).toReady

theorem Ready.handleSyncCreateOpKeyAcks {objs : List OpKeyObj} (h : Ready K p id s) (hobjs : ∀ o ∈ objs, o.Sound K) (hid : ∀ o ∈ objs, o.id = id)
    (heq : OpKeyStore.handleSyncCreateOpKeyAcks env p objs s = .ok s') : Ready K p id s' := by
  induction objs generalizing s with
  | nil =>
    cases heq
    exact h
  | cons o objs ih =>
    rw [List.forall_mem_cons] at hobjs hid
    rw [OpKeyStore.handleSyncCreateOpKeyAcks] at heq
    split at heq
    · cases heq
    · rename_i hack
      obtain ⟨rfl, hid⟩ := hid
      exact ih (h.handleSyncCreateObjectAck hobjs.1 hack) hobjs.2 hid heq

theorem Intact.handleSyncCreateOpKeyAck (h : Intact K s) {objs : List OpKeyObj} (hobjs : ∀ o ∈ objs, o.Sound K)
    (hone : ∀ o ∈ objs, ∀ o' ∈ objs, o.id = o'.id) (heq : s.handleSyncCreateOpKeyAck env objs = .ok s') : Intact K s' := by
  unfold OpKeyStore.handleSyncCreateOpKeyAck at heq
  cases objs with
  | nil =>
    cases heq
    exact h.alloc _
  | cons o objs =>
    exact ((ready_alloc h _ o.id).handleSyncCreateOpKeyAcks hobjs (fun o' ho' => hone o' ho' o (by simp)) heq).intact

theorem Intact.handleOpKeys (h : Intact K s) {opKeys : List OpKeyObj} (hobjs : ∀ o ∈ opKeys, o.Sound K)
    (heq : OpKeyStore.handleOpKeys env opKeys s = .ok s') : Intact K s' := by
  induction opKeys generalizing s with
  | nil =>
    cases heq
    exact h
  | cons o opKeys ih =>
    rw [List.forall_mem_cons] at hobjs
    rw [OpKeyStore.handleOpKeys] at heq
    split at heq
    · cases heq
    · rename_i hack
      exact ih ((ready_alloc h _ o.id).handleSyncCreateObjectAck hobjs.1 hack).intact hobjs.2 heq

/-! ## Logs -/

theorem Intact.handleCreateObjectNewLog (h : Intact K s) (deleteInfo : List PttID) (id : PttID) (oplog : BaseOplog) :
    Intact K (OpKeyStore.handleCreateObjectNewLog deleteInfo id oplog s).store := by
  unfold OpKeyStore.handleCreateObjectNewLog PttaiCore.handleCreateObjectNewLog
  refine h.setBooks fun id' obj hget => ?_
  cases hdel : deleteInfo.contains id with
  | true =>
    rw [hdel] at hget
    exact .inl hget
  | false =>
    rw [hdel] at hget
    have hget : (s.books.objs.put id (Object.newObjectWithOplog oplog OpKeyData.empty)).get id' = some obj := hget
    rw [get_put] at hget
    split_ifs at hget
    · cases hget
      exact .inr (.inl rfl)
    · exact .inl hget

theorem Intact.deleteObj (h : Intact K s) (id : PttID) : Intact K { s with books := s.books.deleteObj id } := by
  refine h.setBooks fun id' obj hget => ?_
  have hget : (s.books.objs.delete id).get id' = some obj := hget
  rw [get_delete] at hget
  split_ifs at hget
  exact .inl hget

theorem At.handleCreateObjectSameLog (h : At K p id s)
    (heq : OpKeyStore.handleCreateObjectSameLog deleteInfo p oplog s = .ok r) : Intact K r.store := by
  unfold OpKeyStore.handleCreateObjectSameLog at heq
  dsimp only at heq
  split_ifs at heq
  · cases heq
    exact h.intact
  · cases heq
    exact h.intact
  · obtain ⟨r', hr', rfl⟩ := exists_of_map_eq_ok heq
    exact (h.saveNewObjectWithOplog hr').intact

theorem Intact.handleCreateOpKeyLog (h : Intact K s)
    (heq : s.handleCreateOpKeyLog env deleteInfo oplog = .ok r) : Intact K r.store := by
  unfold OpKeyStore.handleCreateOpKeyLog at heq
  split at heq
  · cases heq
    exact h
  · cases heq
  rename_i id _ _
  obtain ⟨hready, hat⟩ := (ready_alloc h newEmptyOpKey id).getByID
  split at heq <;> rename_i hload <;> rw [hload] at hready hat
  · cases heq
    split_ifs
    · exact hready.intact.handleCreateObjectNewLog deleteInfo id oplog
    · exact hready.intact
  · dsimp only at heq
    split_ifs at heq
    · cases heq
      exact (hready.intact.deleteObj id).handleCreateObjectNewLog deleteInfo id oplog
    · exact (hat rfl).handleCreateObjectSameLog heq
    · cases heq
      exact hready.intact

theorem get_handleDeleteObjectLogCore {δ : Type} {myID id id' : PttID} {obj obj' : Object δ} {books : Books δ}
    (hget : (handleDeleteObjectLogCore myID id obj oplog books).2.2.objs.get id' = some obj') :
    books.objs.get id' = some obj' ∨ obj'.data = obj.data := by
  unfold handleDeleteObjectLogCore at hget
  have hobjs := replaceSyncInfo_objs books isReplaceOrigSyncInfo obj oplog (deleteStatus oplog) true
  cases hrep : books.replaceSyncInfo isReplaceOrigSyncInfo obj oplog (deleteStatus oplog) true with
  | mk res books₁ =>
    rw [hrep] at hget hobjs
    cases res with
    | error e =>
      rw [← hobjs]
      exact .inl hget
    | ok _ =>
      split_ifs at hget
      · have hget : (books₁.objs.delete id).get id' = some obj' := hget
        rw [get_delete, hobjs] at hget
        split_ifs at hget
        exact .inl hget
      · have hget : (books₁.objs.put id (obj.setDeleteObjectWithOplog oplog .deleted)).get id' = some obj' := hget
        rw [get_put, hobjs] at hget
        split_ifs at hget
        · cases hget
          exact .inr rfl
        · exact .inl hget

theorem Intact.handleRevokeOpKeyLog (h : Intact K s)
    (heq : s.handleRevokeOpKeyLog env deleteInfo oplog = .ok r) : Intact K r.store := by
  unfold OpKeyStore.handleRevokeOpKeyLog at heq
  split at heq
  · cases heq
    exact h
  · cases heq
  rename_i id _ _
  obtain ⟨hready, -⟩ := (ready_alloc h newEmptyOpKey id).getByID
  have hs₁ := hready.intact
  split at heq <;> rename_i s₁ hload <;> rw [hload] at hs₁
  · cases heq
    exact hs₁
  dsimp only at heq
  split_ifs at heq
  · cases heq
    refine hs₁.setBooks fun id' obj hget => ?_
    change (s₁.books.objs.put id _).get id' = some obj at hget
    rw [get_put] at hget
    split_ifs at hget
    · cases hget
      exact .inr (.inl rfl)
    · exact .inl hget
  · cases heq
    exact hs₁
  · generalize hobj : deletedOpKey (s₁.heap.get s.heap.next).obj oplog = obj at heq
    have hempty : obj.data.keyBytes = [] := by
      rw [← hobj]
      rfl
    have hs₂ : Intact K { s₁ with books := (handleDeleteObjectLogCore env.myID id obj oplog s₁.books).2.2 } := by
      refine hs₁.setBooks fun id' obj' hget => (get_handleDeleteObjectLogCore hget).imp_right fun hdata => .inl ?_
      rw [hdata, hempty]
    split at heq
    · cases heq
      exact hs₂
    · cases heq
      exact hs₂.removeOpKeyFromHash (keyInfoIDToHash id)

theorem Intact.processOpKeyLog (h : Intact K s)
    (heq : s.processOpKeyLog env deleteInfo oplog = .ok r) : Intact K r.store := by
  unfold OpKeyStore.processOpKeyLog at heq
  split_ifs at heq
  · exact h.handleCreateOpKeyLog heq
  · exact h.handleRevokeOpKeyLog heq
  · cases heq
    exact h

theorem intact_saveHandled {origIsSync : Bool} (h : Intact K r.store) : Intact K (saveHandled origIsSync r).store := by
  unfold saveHandled
  split
  · exact h
  · dsimp only
    split
    · exact h.setLogs (saveLog_objs ..)
    · exact h.setLogs (saveLog_objs ..)

theorem Intact.handleOplog (h : Intact K s)
    (heq : s.handleOplog env deleteInfo oplog = .ok r) : Intact K r.store := by
  have hsel : Intact K { s with books := (s.books.selectExisting oplog).books } := h.setLogs (selectExisting_objs ..)
  unfold OpKeyStore.handleOplog at heq
  dsimp only at heq
  split at heq
  · cases heq
    exact hsel
  · split_ifs at heq
    · cases heq
      exact hsel
    · obtain ⟨r', hr', rfl⟩ := exists_of_map_eq_ok heq
      exact intact_saveHandled (hsel.processOpKeyLog hr')

theorem Intact.handleOplogs (h : Intact K s) {oplogs : List BaseOplog}
    (heq : OpKeyStore.handleOplogs env oplogs deleteInfo s = .ok s') : Intact K s' := by
  induction oplogs generalizing s deleteInfo with
  | nil =>
    cases heq
    exact h
  | cons oplog oplogs ih =>
    rw [OpKeyStore.handleOplogs] at heq
    split at heq
    · cases heq
    · rename_i hlog
      split_ifs at heq
      · exact ih (h.handleOplog hlog) heq
      · cases heq
        exact h.handleOplog hlog

/-! ## Keys of one's own -/

theorem Intact.createOpKey (h : Intact K s) {k : OpKey} (hk : k.Sound K hash) (heq : s.createOpKey k oplog = .ok s') :
    Intact K s' := by
  have hat : At K s.heap.next k.id (s.alloc ⟨k.id, { k.obj with isGood := true, isAllGood := true }⟩) := by
    refine ⟨ready_alloc h _ k.id, ?_, ?_⟩
    · rw [OpKeyStore.alloc, get_alloc_next]
    · rw [OpKeyStore.alloc, get_alloc_next]
      exact .inr ⟨hash, hk⟩
  unfold OpKeyStore.createOpKey at heq
  dsimp only at heq
  split at heq
  · cases heq
  · rename_i hsave
    cases heq
    exact (hat.saveNewObjectWithOplog hsave).intact.setLogs (saveLog_objs ..)

end OpKeyStore

namespace OpKeyRouter

variable {K : KeyScheme} {env : OpKeyEnv} {r r' : OpKeyRouter}

def Intact (K : KeyScheme) (r : OpKeyRouter) : Prop := ∀ id e, r.entities id = some e → e.store.Intact K

theorem Intact.setStore (h : Intact K r) (id : PttID) (e : OpKeyEntity) {store : OpKeyStore} (hstore : store.Intact K) :
    Intact K (r.setStore id e store) := by
  intro id' e' hget
  by_cases hid : id' = id
  · subst hid
    simp only [OpKeyRouter.setStore, Function.update_self] at hget
    cases hget
    exact hstore
  · simp only [OpKeyRouter.setStore, Function.update_of_ne hid] at hget
    exact h id' e' hget

variable {logs : List BaseOplog} {opKeys : List OpKeyObj}

theorem Intact.handleLogsAndOpKeys (h : Intact K r) {id : PttID} {e : OpKeyEntity} (he : r.entities id = some e) (hkeys : ∀ o ∈ opKeys, o.Sound K) (heq : r.handleLogsAndOpKeys env id e logs opKeys = .ok r') : Intact K r' := by
  unfold OpKeyRouter.handleLogsAndOpKeys at heq
  split at heq
  · cases heq
  · rename_i hlogs
    obtain ⟨store', hstore', rfl⟩ := OpKeyStore.exists_of_map_eq_ok heq
    exact h.setStore id e (((h id e he).handleOplogs hlogs).handleOpKeys hkeys hstore')

theorem Intact.handleEntityMessage (h : Intact K r) {id : PttID} {handle : OpKeyStore → Except Err OpKeyStore}
    (hhandle : ∀ s s', s.Intact K → handle s = .ok s' → s'.Intact K) (heq : r.handleEntityMessage id handle = .ok r') : Intact K r' := by
  unfold OpKeyRouter.handleEntityMessage at heq
  split at heq
  · cases heq
    exact h
  · rename_i e he
    obtain ⟨store, hstore, rfl⟩ := OpKeyStore.exists_of_map_eq_ok heq
    exact h.setStore id e (hhandle _ _ (h id e he) hstore)

theorem Intact.handleRequestOpKeyAck (h : Intact K r) {userID entityID : Option PttID}
    (hkeys : ∀ o ∈ opKeys, o.Sound K) (heq : r.handleRequestOpKeyAck env userID entityID logs opKeys = .ok r') : Intact K r' := by
  unfold OpKeyRouter.handleRequestOpKeyAck at heq
  split at heq
  · cases heq
    exact h
  · cases heq
  · split at heq
    · cases heq
      exact h
    · rename_i he
      exact h.handleLogsAndOpKeys he hkeys heq

theorem Intact.handleRequestOpKey (h : Intact K r) {userID entityID : Option PttID}
    (hkeys : ∀ o ∈ opKeys, o.Sound K) (heq : r.handleRequestOpKey env userID entityID logs opKeys = .ok r') : Intact K r' := by
  unfold OpKeyRouter.handleRequestOpKey at heq
  split at heq
  · cases heq
    exact h
  · cases heq
  · split at heq
    · cases heq
      exact h
    · rename_i he
      split_ifs at heq
      · cases heq
        exact h
      · exact h.handleLogsAndOpKeys he hkeys heq

theorem Intact.call (h : Intact K r) {c : OpKeyCall} (hc : c.Fits K) (heq : r.call env c = .ok r') : Intact K r' := by
  cases c with
  | requestOpKey userID entityID opKeyLogs opKeys => exact h.handleRequestOpKey hc heq
  | requestOpKeyAck userID entityID logs opKeys => exact h.handleRequestOpKeyAck hc heq
  | syncCreateOpKeyAck entityID objs => exact h.handleEntityMessage (fun _ _ hs hs' => hs.handleSyncCreateOpKeyAck hc.1 hc.2 hs') heq
  | createOpKey entityID key oplog =>
    obtain ⟨hash, hkey⟩ := hc
    exact h.handleEntityMessage (fun _ _ hs hs' => hs.createOpKey hkey hs') heq

/-- In every run whose messages fit, the keys registered are right after every call. -/
theorem opKeys_right_of_fits (K : KeyScheme) (env : OpKeyEnv) (r : OpKeyRouter) (hr : r.Intact K) (calls : List OpKeyCall)
    (hcalls : ∀ c ∈ calls, c.Fits K) : Trace.Everywhere (step env) (.ok r) calls (Right K) := by
  have hfits : Trace.Always (step env) (.ok r) calls fun _ c => c.Fits K := by
    intro before c rest heq
    exact hcalls c (by simp [heq])
  have hinv := hfits.invariant (I := fun s => ∀ router, s = .ok router → router.Intact K) (fun router heq => Except.ok.inj heq ▸ hr) ?_
  · intro before rest heq router hrouter id e he
    exact (hinv before rest heq router hrouter id e he).right
  · intro s c hs hc router heq
    cases s with
    | error e => cases heq
    | ok s => exact (hs s rfl).call hc heq

def registered (r : Except Err OpKeyRouter) (id : PttID) (hash : Address) : Option OpKey :=
  match r with
  | .error _ => none
  | .ok r => (r.entities id).bind fun e => (e.store.opKeyInfos.get hash).map e.store.heap.get

theorem Right.sound {r : Except Err OpKeyRouter} (h : Right K r) {id : PttID} {hash : Address} {k : OpKey}
    (hk : registered r id hash = some k) : k.Sound K hash := by
  cases r with
  | error e => cases hk
  | ok r =>
    obtain ⟨e, he, hp⟩ := Option.bind_eq_some_iff.1 hk
    obtain ⟨p, hget, rfl⟩ := Option.map_eq_some_iff.1 hp
    exact h r rfl id e he hash p hget

end OpKeyRouter

namespace OpKeyIntegrityWitness

open DerivedKeysWitness

def idOf (b : UInt8) : PttID := ByteArrayOf.replicate 40 b

def hashOf (b : UInt8) : Address := ByteArrayOf.replicate 20 b

def createLog : BaseOplog where
  v := 1
  id := idOf 3
  creatorID := idOf 2
  createTS := ⟨5, 0⟩
  objID := some (idOf 0)
  op := 1
  preLogID := none
  data := none
  creatorHash := []
  salt := Salt.zero
  sig := []
  pubkey := []
  keyExtra := none
  updateTS := ⟨5, 0⟩
  hash := []
  masterLogID := some (idOf 4)
  masterSigns := []
  internalSigns := []
  isSync := false
  isNewer := false
  extra := none

variable (o : BaseOplog)

theorem id_sign : (id o).id = o.id := rfl

theorem isSync_sign : (id o).isSync = o.isSync := rfl

theorem sign_of_alive (_ : o.toStatus = .alive) : id o = o := rfl

def env : OpKeyEnv := ⟨⟨id, id_sign, isSync_sign, sign_of_alive⟩, fun _ => .ok (), idOf 2⟩

def store : OpKeyStore where
  books := ⟨KeyStore.empty.put (idOf 0) (Object.newObjectWithOplog createLog .empty), KeyStore.empty.put (idOf 3) createLog⟩
  heap := .empty
  opKeyInfos := .empty

def router : OpKeyRouter := ⟨fun id => if id = idOf 1 then some ⟨.alive, store⟩ else none⟩

def sent (hash : Address) : OpKeyObj := ⟨idOf 0, some (idOf 3), some hash, Bytes.be 32 1, none⟩

def unknown : OpKeyObj := ⟨idOf 9, some (idOf 3), none, [], none⟩

theorem addressOf_eq {b : Bytes} {hash : Address} (h : scheme.addressOf b = some hash) : hash = hashOf 0 := by
  obtain ⟨key, -, rfl⟩ := Option.map_eq_some_iff.1 h
  rfl

theorem sound_sent : (sent (hashOf 0)).Sound scheme := by
  intro hash h
  rw [addressOf_eq h]
  exact ⟨rfl, rfl⟩

theorem sound_unknown : unknown.Sound scheme := fun _ h => by cases h

theorem intact_router : router.Intact scheme := by
  intro id e he
  simp only [router] at he
  split_ifs at he
  cases he
  refine ⟨fun hash p hget => ?_, fun hash p hget => ?_, fun id' obj hget => ?_⟩
  · cases hget
  · cases hget
  · simp only [store, get_put, get_empty] at hget
    split_ifs at hget
    cases hget
    exact .inl rfl

end OpKeyIntegrityWitness

open OpKeyRouter OpKeyIntegrityWitness DerivedKeysWitness in
/-- A key with its own hash, as the only one of its message, is registered as it should be. -/
theorem opKeys_right_of_fits_one :
    Trace.Everywhere (step env) (.ok router) [.syncCreateOpKeyAck (idOf 1) [sent (hashOf 0)]] (Right scheme) ∧
      (registered (step env (.ok router) (.syncCreateOpKeyAck (idOf 1) [sent (hashOf 0)])) (idOf 1) (hashOf 0)).isSome := by
  refine ⟨opKeys_right_of_fits scheme env router intact_router _ fun c hc => ?_, by decide +kernel⟩
  rw [List.mem_singleton.1 hc]
  refine ⟨fun o ho => ?_, fun o ho o' ho' => ?_⟩
  · rw [List.mem_singleton.1 ho]
    exact sound_sent
  · rw [List.mem_singleton.1 ho, List.mem_singleton.1 ho']

open OpKeyRouter OpKeyIntegrityWitness DerivedKeysWitness in
/-- A key that comes with the hash of another is registered under that hash. And where another key follows in the message, the record that
is registered gets the identifier of the other one, though there is nothing wrong with the first and no key in the second. -/
theorem opKeys_go_wrong : router.Intact scheme ∧
    ¬ Right scheme (step env (.ok router) (.syncCreateOpKeyAck (idOf 1) [sent (hashOf 7)])) ∧
    (sent (hashOf 0)).Sound scheme ∧ unknown.Sound scheme ∧
    ¬ Right scheme (step env (.ok router) (.syncCreateOpKeyAck (idOf 1) [sent (hashOf 0), unknown])) := by
  refine ⟨intact_router, fun h => ?_, sound_sent, sound_unknown, fun h => ?_⟩
  · have hsome : (registered (step env (.ok router) (.syncCreateOpKeyAck (idOf 1) [sent (hashOf 7)])) (idOf 1) (hashOf 7)).isSome = true := by
      decide +kernel
    obtain ⟨k, hk⟩ := Option.isSome_iff_exists.1 hsome
    exact absurd (addressOf_eq (h.sound hk).2.1) (by decide)
  · have hid : (registered (step env (.ok router) (.syncCreateOpKeyAck (idOf 1) [sent (hashOf 0), unknown])) (idOf 1) (hashOf 0)).map OpKey.id =
        some (idOf 9) := by decide +kernel
    obtain ⟨k, hk, hid⟩ := Option.map_eq_some_iff.1 hid
    have hpart := (h.sound hk).2.2
    rw [hid] at hpart
    exact absurd hpart (by decide)

end PttaiCore
