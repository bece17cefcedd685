import PttaiCore.OpKeyProtocol
import PttaiCore.Theorems.Signing

/-! # Who gets the operation keys -/

namespace PttaiCore

structure SentOpKeyMsg where
  router : Router
  peer : PttPeer
  msg : OpKeyMsg

def SentOpKeyMsg.Secret (s : SentOpKeyMsg) : Prop :=
  s.msg.opKeys ≠ [] → ∃ id e, s.msg.entityID = some id ∧ s.router.entities id = some e ∧ .member ≤ e.getPeerType s.peer

inductive OpKeyEvent where
  | opFail (c : Nat) (hash : Option Address)
  | requestOpKey (c : Nat) (entityID : Option PttID) (absorb : Router → Router)
  | requestOpKeyAck (c : Nat) (entityID : Option PttID) (absorb : Router → Router)
  | sync (c : Nat) (entityID : PttID) (now : Timestamp) (sync : Except Err Unit)
  | other (router : Router) (peers : Nat → PttPeer)

structure OpKeyNode where
  router : Router
  peers : Nat → PttPeer
  sent : List SentOpKeyMsg

namespace OpKeyNode

def start (router : Router) (peers : Nat → PttPeer) : OpKeyNode := ⟨router, peers, []⟩

variable (n : OpKeyNode)

def record (c : Nat) (o : OpKeyOutcome) : OpKeyNode :=
  { n with router := o.router, sent := n.sent ++ o.sent.map fun m => ⟨o.router, n.peers c, m⟩ }

def step : OpKeyEvent → OpKeyNode
  | .opFail c hash => n.record c (n.router.handleOpFail hash (n.peers c))
  | .requestOpKey c entityID absorb => n.record c (n.router.handleRequestOpKey entityID absorb (n.peers c))
  | .requestOpKeyAck c entityID absorb => n.record c (n.router.handleRequestOpKeyAck entityID absorb (n.peers c))
  | .sync c entityID now sync =>
    match n.router.entities entityID with
    | none => n
    | some e => n.record c (n.router.syncOplog e now (n.peers c) sync)
  | .other router peers => { n with router := router, peers := peers }

def run (evs : List OpKeyEvent) : OpKeyNode := evs.foldl step n

end OpKeyNode

def Entity.HasKeys (e : Entity) : Prop := e.opKeyInfos ≠ [] ∧ ∃ logs, e.opKeyOplogList = .ok logs

def Entity.NoUsableKey (e : Entity) (now : Timestamp) : Prop :=
  e.oldestOpKeyInfo = none ∧ ∀ k ∈ e.opKeyInfos, k.updateTS.isLess (e.getExpireRenewOpKeyTS now) = true ∨ k.status ≠ .alive

def OpKeyNode.AsksMember (n : OpKeyNode) : OpKeyEvent → Prop
  | .opFail c hash => ∀ e, (n.peers c).userID ≠ none → n.router.getEntityFromHash hash = .ok e → e.HasKeys →
      .member ≤ e.getPeerType (n.peers c)
  | .sync c entityID now _ => ∀ e me, n.router.entities entityID = some e → n.router.myEntity = some me →
      (n.peers c).isRegistered = true → me.status = .alive → e.status = .alive → e.NoUsableKey now → e.HasKeys →
      .member ≤ e.getPeerType (n.peers c)
  | .requestOpKey _ _ _ | .requestOpKeyAck _ _ _ | .other _ _ => True

def OpKeyNode.AllAskMembers (n : OpKeyNode) : List OpKeyEvent → Prop
  | [] => True
  | ev :: evs => n.AsksMember ev ∧ (n.step ev).AllAskMembers evs

namespace SecrecyAux

def Secret (o : OpKeyOutcome) (p : PttPeer) : Prop := ∀ m ∈ o.sent, SentOpKeyMsg.Secret ⟨o.router, p, m⟩

variable (p : PttPeer) (r : Router) {e : Entity}

theorem secret_give (x : Except Err Unit) (p : PttPeer) : Secret (r.give x) p := by
  intro m hm
  cases hm

theorem secret_sendDataToPeer_iff (m : OpKeyMsg) (p : PttPeer) :
    Secret (r.sendDataToPeer m) p ↔ SentOpKeyMsg.Secret ⟨r, p, m⟩ := by
  simp [Secret, Router.sendDataToPeer]

theorem secret_of_opKeys_eq_nil {m : OpKeyMsg} (p : PttPeer) (h : m.opKeys = []) :
    Secret (r.sendDataToPeer m) p := by
  rw [secret_sendDataToPeer_iff]
  intro hne
  exact absurd h hne

theorem secret_of_keys_iff {r : Router} {m : OpKeyMsg} (hid : m.entityID = some e.id)
    (hks : m.opKeys = e.opKeyInfos) (he : r.entities e.id = some e) :
    Secret (r.sendDataToPeer m) p ↔ (e.opKeyInfos ≠ [] → .member ≤ e.getPeerType p) := by
  rw [secret_sendDataToPeer_iff]
  constructor
  · intro h hne
    obtain ⟨id, e', hid', he', hp⟩ := h (hks ▸ hne)
    have : e' = e := by
      obtain rfl : e.id = id := Option.some.inj (hid.symm.trans hid')
      exact Option.some.inj (he'.symm.trans he)
    exact this ▸ hp
  · intro h hne
    exact ⟨e.id, e, hid, he, h (hks ▸ hne)⟩

/-! ## Answering -/

theorem secret_requestOpKeyAck (id : PttID) (p : PttPeer) : Secret (r.requestOpKeyAck id p) p := by
  unfold Router.requestOpKeyAck
  cases he : r.entities id with
  | none => exact secret_give r _ p
  | some e =>
    have hid := r.id_entities id e he
    by_cases hp : e.getPeerType p < .member
    · simp only [hp, if_true]
      exact secret_of_opKeys_eq_nil r p rfl
    · simp only [hp, if_false]
      cases e.opKeyOplogList with
      | error err => exact secret_give r _ p
      | ok logs =>
        refine (secret_of_keys_iff p (by rw [hid]; rfl) rfl (hid.symm ▸ he)).2 ?_
        intro _
        exact PeerType.not_lt.1 hp

theorem secret_handleRequestOpKey (entityID : Option PttID) (absorb : Router → Router) (p : PttPeer) :
    Secret (r.handleRequestOpKey entityID absorb p) p := by
  unfold Router.handleRequestOpKey
  split
  · exact secret_give r _ p
  · exact secret_give r _ p
  · split
    · exact secret_give r _ p
    · split
      · exact secret_of_opKeys_eq_nil r p rfl
      · exact secret_requestOpKeyAck _ _ p

theorem secret_handleRequestOpKeyAck (entityID : Option PttID) (absorb : Router → Router) (p : PttPeer) :
    Secret (r.handleRequestOpKeyAck entityID absorb p) p := by
  unfold Router.handleRequestOpKeyAck
  split
  · exact secret_give r _ p
  · exact secret_give r _ p
  · split
    · exact secret_give r _ p
    · exact secret_give _ _ p

/-! ## Asking -/

theorem secret_requestOpKeyByEntity_iff {r : Router} (he : r.entities e.id = some e) :
    Secret (r.requestOpKeyByEntity e) p ↔ (e.HasKeys → .member ≤ e.getPeerType p) := by
  unfold Router.requestOpKeyByEntity Entity.HasKeys
  cases e.opKeyOplogList with
  | error err => exact iff_of_true (secret_give r _ p) fun h => by simp at h
  | ok logs =>
    simp only [secret_of_keys_iff (m := .requestOpKey (some e.id) e.opKeyList logs) p rfl rfl he, Except.ok.injEq, exists_eq',
      and_true]

theorem entities_of_getEntityFromHash {r : Router} {hash : Option Address} (h : r.getEntityFromHash hash = .ok e) :
    r.entities e.id = some e := by
  cases hash with
  | none => cases h
  | some a =>
    rw [Router.getEntityFromHash] at h
    cases hb : (r.ops a).bind r.entities with
    | none => rw [hb] at h; cases h
    | some e' =>
      rw [hb] at h
      obtain rfl : e' = e := Except.ok.inj h
      obtain ⟨id, -, he⟩ := Option.bind_eq_some_iff.1 hb
      exact (r.id_entities id e' he).symm ▸ he

theorem secret_handleOpFail_iff (hash : Option Address) (p : PttPeer) : Secret (r.handleOpFail hash p) p ↔
    ∀ e, p.userID ≠ none → r.getEntityFromHash hash = .ok e → e.HasKeys → .member ≤ e.getPeerType p := by
  unfold Router.handleOpFail Router.requestOpKey
  cases p.userID with
  | none => exact iff_of_true (secret_give r _ p) fun e h => absurd rfl h
  | some u =>
    cases he : r.getEntityFromHash hash with
    | error err =>
      refine iff_of_true (secret_give r _ p) ?_
      intro e _ h
      cases h
    | ok e =>
      rw [secret_requestOpKeyByEntity_iff p (entities_of_getEntityFromHash he)]
      constructor
      · intro h e' _ heq
        cases heq
        exact h
      · intro h
        exact h e (by simp) rfl

/-! ## Keys to send with -/

theorem foldl_checkOldest_eq_none_iff (ts : Timestamp) (l : List OpKeyInfo) (o : Option OpKeyInfo) :
    l.foldl (Entity.checkOldestOpKeyInfo ts) o = none ↔ o = none ∧ ∀ k ∈ l, k.updateTS.isLess ts = true ∨ k.status ≠ .alive := by
  induction l generalizing o with
  | nil => simp
  | cons k l ih =>
    have hk : Entity.checkOldestOpKeyInfo ts o k = none ↔ o = none ∧ (k.updateTS.isLess ts = true ∨ k.status ≠ .alive) := by
      unfold Entity.checkOldestOpKeyInfo
      cases hts : k.updateTS.isLess ts with
      | true => simp
      | false =>
        by_cases hst : k.status = .alive
        · cases o with
          | none => simp [hst]
          | some o => by_cases hlt : k.updateTS.isLess o.updateTS = true <;> simp [hst, hlt]
        · simp [hst]
    rw [List.foldl_cons, ih, hk, List.forall_mem_cons, and_assoc]

theorem getOldestOpKey_cases (now : Timestamp) (hne : e.opKeyInfos ≠ []) :
    (e.NoUsableKey now ∧ e.getOldestOpKey now = (.error .invalidKey, { e with oldestOpKeyInfo := none })) ∨
      ¬ e.NoUsableKey now ∧ ∃ k e', e.getOldestOpKey now = (.ok k, e') := by
  unfold Entity.getOldestOpKey Entity.getOldestOpKeyFullScan Entity.NoUsableKey
  rw [if_neg (by simpa using hne)]
  cases ho : e.oldestOpKeyInfo with
  | some k => exact .inr ⟨by simp, k, e, rfl⟩
  | none =>
    have hscan := foldl_checkOldest_eq_none_iff (e.getExpireRenewOpKeyTS now) e.opKeyInfos none
    cases hf : e.opKeyInfos.foldl (Entity.checkOldestOpKeyInfo (e.getExpireRenewOpKeyTS now)) none with
    | none => exact .inl ⟨⟨rfl, (hscan.1 hf).2⟩, rfl⟩
    | some k =>
      refine .inr ⟨?_, k, _, rfl⟩
      rintro ⟨-, hun⟩
      rw [hscan.2 ⟨rfl, hun⟩] at hf
      cases hf

theorem entities_setEntity (e : Entity) : (r.setEntity e).entities e.id = some e := if_pos rfl

theorem syncOplog_cases (e : Entity) (now : Timestamp) (p : PttPeer) (sync : Except Err Unit) :
    (∃ me, r.myEntity = some me ∧ p.isRegistered = true ∧ me.status = .alive ∧ e.status = .alive) ∧
        (∀ x e', e.getOldestOpKey now = (.error x, e') →
          r.syncOplog e now p sync = (r.setEntity e').requestOpKeyByEntity e') ∧
        (∀ k e', e.getOldestOpKey now = (.ok k, e') → r.syncOplog e now p sync = (r.setEntity e').give sync) ∨
      (∀ me, r.myEntity = some me → p.isRegistered = true → me.status = .alive → e.status ≠ .alive) ∧
        ∃ x, r.syncOplog e now p sync = r.give x := by
  unfold Router.syncOplog
  cases p.isRegistered with
  | false => exact .inr ⟨by simp, _, rfl⟩
  | true =>
    cases r.myEntity with
    | none => exact .inr ⟨by simp, _, rfl⟩
    | some me =>
      by_cases hme : me.status = .alive
      · by_cases hst : e.status = .alive
        · refine .inl ⟨⟨me, rfl, rfl, hme, hst⟩, ?_, ?_⟩
          · intro x e' hkey
            simp [hme, hst, hkey]
          · intro k e' hkey
            simp [hme, hst, hkey]
        · exact .inr ⟨by simp [hst], _, by simp [hme, hst]; rfl⟩
      · exact .inr ⟨by simp [hme], _, by simp [hme]; rfl⟩

theorem secret_syncOplog_iff (e : Entity) (now : Timestamp) (p : PttPeer) (sync : Except Err Unit) :
    Secret (r.syncOplog e now p sync) p ↔ ∀ me, r.myEntity = some me → p.isRegistered = true → me.status = .alive →
      e.status = .alive → e.NoUsableKey now → e.HasKeys → .member ≤ e.getPeerType p := by
  rcases syncOplog_cases r e now p sync with ⟨⟨me, hme, hreg, hal, hst⟩, herr, hok⟩ | ⟨hnot, x, hgive⟩
  · by_cases hne : e.opKeyInfos = []
    · -- without keys the request is sent, and there are none in it
      have hkey : e.getOldestOpKey now = (.error .invalidKey, e) := by simp [Entity.getOldestOpKey, hne]
      rw [herr _ _ hkey, secret_requestOpKeyByEntity_iff p (entities_setEntity r e)]
      exact iff_of_true (fun h => absurd hne h.1) fun _ _ _ _ _ _ h => absurd hne h.1
    · rcases getOldestOpKey_cases now hne with ⟨hno, hkey⟩ | ⟨hno, k, e', hkey⟩
      · rw [herr _ _ hkey, secret_requestOpKeyByEntity_iff p (entities_setEntity r _)]
        constructor
        · intro h _ _ _ _ _ _ hk
          exact h hk
        · intro h hk
          exact h me hme hreg hal hst hno hk
      · rw [hok _ _ hkey]
        exact iff_of_true (secret_give _ _ p) fun _ _ _ _ _ h => absurd h hno
  · rw [hgive]
    exact iff_of_true (secret_give r x p) fun me h1 h2 h3 h4 => absurd h4 (hnot me h1 h2 h3)

/-! ## Runs -/

theorem secret_record_iff (n : OpKeyNode) (c : Nat) (o : OpKeyOutcome) :
    (∀ s ∈ (n.record c o).sent, s.Secret) ↔ (∀ s ∈ n.sent, s.Secret) ∧ Secret o (n.peers c) := by
  simp only [OpKeyNode.record, List.forall_mem_append, List.forall_mem_map, Secret]

theorem secret_step_iff (n : OpKeyNode) (ev : OpKeyEvent) :
    (∀ s ∈ (n.step ev).sent, s.Secret) ↔ (∀ s ∈ n.sent, s.Secret) ∧ n.AsksMember ev := by
  cases ev with
  | opFail c hash => rw [OpKeyNode.step, secret_record_iff, secret_handleOpFail_iff]; rfl
  | requestOpKey c id absorb =>
    rw [OpKeyNode.step, secret_record_iff]
    exact and_congr_right fun _ => iff_of_true (secret_handleRequestOpKey _ _ _ _) trivial
  | requestOpKeyAck c id absorb =>
    rw [OpKeyNode.step, secret_record_iff]
    exact and_congr_right fun _ => iff_of_true (secret_handleRequestOpKeyAck _ _ _ _) trivial
  | other router peers => exact (and_iff_left trivial).symm
  | sync c id now sync =>
    rw [OpKeyNode.step, OpKeyNode.AsksMember]
    cases he : n.router.entities id with
    | none => simp
    | some e =>
      simp only [secret_record_iff, secret_syncOplog_iff, Option.some.injEq]
      refine and_congr_right fun _ => ⟨?_, ?_⟩
      · rintro h e' me rfl
        exact h me
      · intro h me
        exact h e me rfl

end SecrecyAux

open SecrecyAux

/-- In a run of a node, whatever messages arrive and whatever else happens, the keys of every entity go only to peers that are at
least members of it at that moment, if and only if every event that makes the node ask for keys concerns such a peer. -/
theorem opKeys_secret_iff (router : Router) (peers : Nat → PttPeer) (evs : List OpKeyEvent) :
    (∀ s ∈ ((OpKeyNode.start router peers).run evs).sent, s.Secret) ↔ (OpKeyNode.start router peers).AllAskMembers evs := by
  have hrun : ∀ (evs : List OpKeyEvent) (n : OpKeyNode),
      (∀ s ∈ (n.run evs).sent, s.Secret) ↔ (∀ s ∈ n.sent, s.Secret) ∧ n.AllAskMembers evs := by
    intro evs
    induction evs with
    | nil =>
      intro n
      exact (and_iff_left trivial).symm
    | cons ev evs ih =>
      intro n
      calc (∀ s ∈ (n.run (ev :: evs)).sent, s.Secret)
          ↔ (∀ s ∈ (n.step ev).sent, s.Secret) ∧ (n.step ev).AllAskMembers evs := ih (n.step ev)
        _ ↔ (∀ s ∈ n.sent, s.Secret) ∧ n.AsksMember ev ∧ (n.step ev).AllAskMembers evs := by
          rw [secret_step_iff, and_assoc]
  rw [hrun]
  refine and_iff_right ?_
  intro s hs
  exact absurd hs List.not_mem_nil

namespace SecrecyWitness

open SigningWitness

def hash : Address := ByteArrayOf.replicate 20 7

def key : OpKeyInfo := ⟨hash, [1, 2, 3], ⟨1000, 0⟩, .alive⟩

def entity : Entity where
  id := idOf 1
  kind := .base
  status := .alive
  masters := fun _ => none
  members := fun id => if id = idOf 2 then some .alive else none
  pendingPeers := []
  myNodes := fun _ => none
  ownerIDs := [idOf 9]
  opKeyInfos := [key]
  oldestOpKeyInfo := some key
  expireOpKeySeconds := 100
  renewOpKeySeconds := 10
  opKeyOplogList := .ok []

def router : Router where
  myEntity := some ⟨idOf 9, .alive, none⟩
  ops := fun h => if h = hash then some (idOf 1) else none
  entities := fun id => if id = idOf 1 then some entity else none
  id_entities := by
    intro id e h
    split at h
    next heq =>
      cases h
      exact heq.symm
    next => cases h

def stranger : PttPeer := { PttPeer.new ⟨ByteArrayOf.replicate 64 5⟩ with peerType := .random, userID := some (idOf 3) }

end SecrecyWitness

open SecrecyWitness SigningWitness in
/-- An op-failure notice from a user who is no member is answered with the key. -/
theorem opKeys_sent_to_stranger : ∃ s ∈ ((OpKeyNode.start router fun _ => stranger).run [.opFail 0 (some hash)]).sent,
    s.msg.opKeys = [key] ∧ s.msg.entityID = some entity.id ∧ s.router.entities entity.id = some entity ∧
      entity.getPeerType s.peer = .random ∧ ¬ s.Secret := by
  refine ⟨⟨router, stranger, .requestOpKey (some (idOf 1)) [key] []⟩, List.mem_singleton.2 rfl, rfl, rfl, rfl, rfl, ?_⟩
  intro h
  obtain ⟨id, e, hid, he, hp⟩ := h (List.cons_ne_nil _ _)
  obtain rfl : idOf 1 = id := Option.some.inj hid
  obtain rfl : entity = e := Option.some.inj he
  exact absurd hp (by decide)

end PttaiCore
