import PttaiCore.Join
import PttaiCore.Lemmas.Identify
import PttaiCore.Theorems.Signing

/-! # Whether the user of a connection was authenticated -/

namespace PttaiCore

structure Session where
  peer : PttPeer
  generated : List Salt
  received : List IdentifyPeerAck

inductive SessionEvent where
  | connect (nodeID : NodeID)
  | message (m : IdentifyMsg) (i : IdentifyInput)
  | identifyPeer (e : Entity) (i : IdentifyInput)
  | identifyPeerWithMyID (i : IdentifyInput)
  | timeout (entityID : Option PttID)
  | approveJoin (e : Entity) (joinID : PttID) (a : ApproveJoinInput) (i : IdentifyInput)
  | approveJoinFriend (joinID : PttID) (createFriend : Except Err Unit) (i : IdentifyInput)
  | handleApproveJoinFriend (friend0ID friend1ID : PttID) (saveFriend : Except Err Unit) (i : IdentifyInput)
  | approveJoinMe (myID : PttID) (addMyNode opKey : Except Err Unit)
  | handleApproveJoinMe (newMyID : PttID) (saveMyInfo registerEntity : Except Err Unit)
  | register (peerType : PeerType) (isRegistered : Bool)

namespace Session

def new (nodeID : NodeID) : Session := ⟨PttPeer.new nodeID, [], []⟩

def record (s : Session) (o : IdentifyOutcome) (data : Option IdentifyPeerAck) : Session :=
  ⟨o.peer, s.generated ++ o.generated, s.received ++ data.toList⟩

def step (Γ : Ctx) (r : Router) (s : Session) : SessionEvent → Session
  | .connect nodeID => new nodeID
  | .message m i => s.record (r.handleIdentifyMsg Γ s.peer i m) m.ackData
  | .identifyPeer e i => s.record (Router.pmIdentifyPeer e s.peer i) none
  | .identifyPeerWithMyID i => s.record (r.identifyPeerWithMyID s.peer i) none
  | .timeout entityID => { s with peer := s.peer.finishID entityID }
  | .approveJoin e joinID a i => { s with peer := (r.approveJoin e joinID a s.peer i).2 }
  | .approveJoinFriend joinID createFriend i => { s with peer := (Router.approveJoinFriend joinID createFriend s.peer i).2 }
  | .handleApproveJoinFriend friend0ID friend1ID saveFriend i =>
    { s with peer := (r.handleApproveJoinFriend friend0ID friend1ID saveFriend s.peer i).2 }
  | .approveJoinMe myID addMyNode opKey => { s with peer := (Router.approveJoinMe myID addMyNode opKey s.peer).2 }
  | .handleApproveJoinMe newMyID saveMyInfo registerEntity =>
    { s with peer := (Router.handleApproveJoinMe newMyID saveMyInfo registerEntity s.peer).2 }
  | .register peerType isRegistered => { s with peer := { s.peer with peerType := peerType, isRegistered := isRegistered } }

def Authenticated (Γ : Ctx) (s : Session) (userID : PttID) : Prop :=
  ∃ data ∈ s.received, ∃ challenge ∈ s.generated, ∃ bytes, data.myID = some userID ∧ data.ackChallenge = some bytes ∧
    challenge.1 <+: bytes ∧ verifyData Γ bytes data.hash data.sig data.pubBytes userID data.extra = .ok ()

end Session

def Router.IsMe (r : Router) (userID : PttID) : Prop := ∃ me, r.myEntity = some me ∧ me.id = userID

def Session.Sound (r : Router) (s : Session) : SessionEvent → Prop
  | .message m _ => ∀ data bytes, m.ackData = some data → data.ackChallenge = some bytes → 32 ≤ bytes.length
  | .approveJoin _ joinID _ _ | .approveJoinFriend joinID _ _ => s.peer.userID = none → r.IsMe joinID
  | .handleApproveJoinFriend friend0ID friend1ID _ _ => s.peer.userID = none → r.IsMe friend0ID ∧ r.IsMe friend1ID
  | .approveJoinMe userID _ _ | .handleApproveJoinMe userID _ _ => r.IsMe userID ∨ s.peer.userID = some userID
  | .connect _ | .identifyPeer _ _ | .identifyPeerWithMyID _ | .timeout _ | .register _ _ => True

structure IdentityNode where
  router : Router
  sessions : Nat → Session

inductive IdentityEvent where
  | on (c : Nat) (ev : SessionEvent)
  | router (r : Router)

namespace IdentityNode

def start (router : Router) (nodeIDs : Nat → NodeID) : IdentityNode := ⟨router, fun c => .new (nodeIDs c)⟩

def step (Γ : Ctx) (n : IdentityNode) : IdentityEvent → IdentityNode
  | .on c ev => { n with sessions := Function.update n.sessions c ((n.sessions c).step Γ n.router ev) }
  | .router r => { n with router := r }

variable (n : IdentityNode)

def userID (c : Nat) : Option PttID := (n.sessions c).peer.userID

def Sound : IdentityEvent → Prop
  | .on c ev => (n.sessions c).Sound n.router ev
  | .router _ => True

def SoundStep (Γ : Ctx) (n : IdentityNode) (ev : IdentityEvent) (n' : IdentityNode) : Prop := n.Sound ev ∧ n' = n.step Γ ev

end IdentityNode

namespace IdentityAux

variable {Γ : Ctx} {r : Router}

def Awaits (s : Session) : Prop := ∀ c, s.peer.idChallenge = some c → c ∈ s.generated

def Learned (Γ : Ctx) (r : Router) (s s' : Session) : Prop :=
  ∀ userID, s'.peer.userID = some userID → s.peer.userID = some userID ∨ r.IsMe userID ∨ s'.Authenticated Γ userID

variable {s : Session} (p : PttPeer)

theorem record_sound {i : IdentifyInput} {m : Option IdentifyMsg} {o : IdentifyOutcome}
    (h : IdentifyAux.Effect Γ r s.peer i m o) (hs : Awaits s)
    (hlen : ∀ msg data bytes, m = some msg → msg.ackData = some data → data.ackChallenge = some bytes → 32 ≤ bytes.length) :
    Awaits (s.record o (m.bind IdentifyMsg.ackData)) ∧ Learned Γ r s (s.record o (m.bind IdentifyMsg.ackData)) := by
  constructor
  · intro c hc
    rcases h.awaits with ⟨-, hold | hnone⟩ | ⟨hgen, hnew⟩
    · exact List.mem_append_left _ (hs c (hold ▸ hc))
    · cases hnone.symm.trans hc
    · have : i.challengeSalt = c := Option.some.inj (hnew.symm.trans hc)
      exact List.mem_append_right _ (by simp [hgen, this])
  · intro userID hu
    rcases h.learns with hold | ⟨-, msg, data, c, userID', bytes, rfl, hd, hc, hans, hq⟩
    · exact .inl (hold ▸ hu)
    · obtain rfl : userID' = userID := Option.some.inj (hq.symm.trans hu)
      refine .inr (.inr ⟨data, ?_, c, List.mem_append_left _ (hs c hc), bytes, hans.myID, hans.ackChallenge, ?_, hans.verified⟩)
      · exact List.mem_append_right _ (by simp [hd])
      · exact hans.isPrefix (hlen msg data bytes rfl hd hans.ackChallenge)

theorem userID_assumeUserID (id : PttID) (i : IdentifyInput) :
    (p.assumeUserID id i).userID = p.userID ∨ p.userID = none ∧ (p.assumeUserID id i).userID = some id := by
  unfold PttPeer.assumeUserID
  cases hu : p.userID with
  | some u => exact .inl hu
  | none => exact .inr ⟨rfl, PttPeer.userID_finishIdentifyPeer _ i⟩

theorem idChallenge_assumeUserID (id : PttID) (i : IdentifyInput) :
    (p.assumeUserID id i).idChallenge = p.idChallenge := by
  unfold PttPeer.assumeUserID
  cases p.userID with
  | some u => rfl
  | none => exact PttPeer.idChallenge_finishIdentifyPeer _ i

theorem sound_of_peer (hs : Awaits s) {q : PttPeer} (hc : q.idChallenge = s.peer.idChallenge ∨ q.idChallenge = none)
    (hu : ∀ userID, q.userID = some userID → s.peer.userID = some userID ∨ r.IsMe userID) :
    Awaits { s with peer := q } ∧ Learned Γ r s { s with peer := q } := by
  constructor
  · intro c h
    rcases hc with hold | hnone
    · exact hs c (hold ▸ h)
    · cases hnone.symm.trans h
  · intro userID h
    rcases hu userID h with h | h
    · exact .inl h
    · exact .inr (.inl h)

theorem sound_assumeUserID (hs : Awaits s) {id : PttID} {i : IdentifyInput} {q : PttPeer}
    (hid : s.peer.userID = none → r.IsMe id)
    (hq : q = s.peer ∨ q.userID = (s.peer.assumeUserID id i).userID ∧ q.idChallenge = (s.peer.assumeUserID id i).idChallenge) :
    Awaits { s with peer := q } ∧ Learned Γ r s { s with peer := q } := by
  rcases hq with rfl | ⟨hu, hc⟩
  · exact sound_of_peer hs (.inl rfl) fun userID h => .inl h
  · refine sound_of_peer hs (.inl (hc.trans (idChallenge_assumeUserID _ _ _))) ?_
    intro userID h
    rw [hu] at h
    rcases userID_assumeUserID s.peer id i with hold | ⟨hnone, hnew⟩
    · exact .inl (hold ▸ h)
    · obtain rfl : id = userID := Option.some.inj (hnew.symm.trans h)
      exact .inr (hid hnone)

theorem approveJoin_cases (r : Router) (e : Entity) (joinID : PttID) (a : ApproveJoinInput) (p : PttPeer) (i : IdentifyInput) :
    (r.approveJoin e joinID a p i).2 = p ∨ (r.approveJoin e joinID a p i).2.userID = (p.assumeUserID joinID i).userID ∧
      (r.approveJoin e joinID a p i).2.idChallenge = (p.assumeUserID joinID i).idChallenge := by
  unfold Router.approveJoin
  split
  · exact .inl rfl
  · split
    · exact .inl rfl
    · split
      · exact .inl rfl
      · split
        · exact .inl rfl
        · split
          · exact .inl rfl
          · split
            · exact .inl rfl
            · exact .inl rfl
            · right
              dsimp only
              split <;> exact ⟨rfl, rfl⟩

theorem session_step {ev : SessionEvent} (hs : Awaits s) (h : s.Sound r ev) :
    Awaits (s.step Γ r ev) ∧ Learned Γ r s (s.step Γ r ev) := by
  cases ev with
  | connect nodeID => exact ⟨nofun, nofun⟩
  | message m i =>
    refine record_sound (m := some m) (IdentifyAux.effect_handleIdentifyMsg Γ r s.peer i m) hs ?_
    rintro msg data bytes ⟨⟩ hd hb
    exact h data bytes hd hb
  | identifyPeer e i => exact record_sound (m := none) (r := r) (IdentifyAux.effect_pmIdentifyPeer e) hs nofun
  | identifyPeerWithMyID i => exact record_sound (m := none) (IdentifyAux.effect_identifyPeerWithMyID r) hs nofun
  | timeout entityID =>
    refine sound_of_peer hs (PttPeer.idChallenge_finishID s.peer entityID) ?_
    intro userID hu
    exact .inl ((PttPeer.userID_finishID s.peer entityID).symm.trans hu)
  | approveJoin e joinID a i => exact sound_assumeUserID hs h (approveJoin_cases r e joinID a s.peer i)
  | approveJoinFriend joinID createFriend i =>
    refine sound_assumeUserID (i := i) hs h ?_
    cases createFriend with
    | error err => exact .inl rfl
    | ok u => exact .inr ⟨rfl, rfl⟩
  | handleApproveJoinFriend friend0ID friend1ID saveFriend i =>
    dsimp only [Session.step]
    unfold Router.handleApproveJoinFriend
    cases r.myEntity with
    | none => exact sound_assumeUserID (i := i) hs (fun hn => (h hn).1) (.inl rfl)
    | some me =>
      cases saveFriend with
      | error err => exact sound_assumeUserID (i := i) hs (fun hn => (h hn).1) (.inl rfl)
      | ok u =>
        refine sound_assumeUserID (i := i) hs ?_ (.inr ⟨rfl, rfl⟩)
        intro hn
        split
        · exact (h hn).2
        · exact (h hn).1
  | approveJoinMe myID addMyNode opKey =>
    cases addMyNode with
    | error err => exact sound_of_peer hs (.inl rfl) fun userID hu => .inl hu
    | ok u =>
      refine sound_of_peer hs (.inl rfl) ?_
      intro userID hu
      obtain rfl : myID = userID := Option.some.inj hu
      exact h.symm
  | handleApproveJoinMe newMyID saveMyInfo registerEntity =>
    dsimp only [Session.step]
    cases saveMyInfo with
    | error err => exact sound_of_peer hs (.inl rfl) fun userID hu => .inl hu
    | ok u =>
      refine sound_of_peer hs (.inl rfl) ?_
      intro userID hu
      obtain rfl : newMyID = userID := Option.some.inj hu
      exact h.symm
  | register peerType isRegistered => exact sound_of_peer hs (.inl rfl) fun userID hu => .inl hu

theorem awaits_run {router : Router} {nodeIDs : Nat → NodeID} {evs : List IdentityEvent} {n : IdentityNode}
    (h : Run (IdentityNode.SoundStep Γ) (.start router nodeIDs) evs n) (c : Nat) : Awaits (n.sessions c) := by
  refine h.invariant (I := fun n => ∀ c, Awaits (n.sessions c)) (fun _ => nofun) ?_ c
  rintro n ev n' hn ⟨hev, rfl⟩ c
  cases ev with
  | router r => exact hn c
  | on d ev =>
    by_cases hcd : c = d
    · subst hcd
      simpa [IdentityNode.step] using (session_step (hn c) hev).1
    · simpa [IdentityNode.step, hcd] using hn c

end IdentityAux

open IdentityAux

/-- In every run whose events meet the condition, a step that gives a connection a user other than the node's own gives it one that
was authenticated on that connection. -/
theorem userID_authenticated (Γ : Ctx) (router : Router) (nodeIDs : Nat → NodeID) (evs : List IdentityEvent) (n n' : IdentityNode)
    (hrun : Run (IdentityNode.SoundStep Γ) (.start router nodeIDs) evs n) (ev : IdentityEvent)
    (hstep : IdentityNode.SoundStep Γ n ev n') (c : Nat) (userID : PttID) (hnew : n'.userID c = some userID)
    (hold : n.userID c ≠ some userID) (hother : ¬ n.router.IsMe userID) : (n'.sessions c).Authenticated Γ userID := by
  obtain ⟨hev, rfl⟩ := hstep
  cases ev with
  | router r => exact absurd hnew hold
  | on d ev =>
    by_cases hcd : c = d
    · subst hcd
      have hs : ((n.step Γ (.on c ev)).sessions c) = (n.sessions c).step Γ n.router ev := by simp [IdentityNode.step]
      unfold IdentityNode.userID at hnew
      rw [hs] at hnew ⊢
      rcases (session_step (awaits_run hrun c) hev).2 userID hnew with h | h | h
      · exact absurd h hold
      · exact absurd h hother
      · exact h
    · refine absurd ?_ hold
      simpa [IdentityNode.userID, IdentityNode.step, hcd] using hnew

namespace IdentityWitness

open SigningWitness

def entity : Entity where
  id := idOf 20
  kind := .base
  status := .alive
  masters := fun id => if id = idOf 9 then some .alive else none
  members := fun _ => none
  pendingPeers := []
  myNodes := fun _ => none
  ownerIDs := [idOf 9]
  opKeyInfos := []
  oldestOpKeyInfo := none
  expireOpKeySeconds := 100
  renewOpKeySeconds := 10
  opKeyOplogList := .ok []

variable (b : UInt8)

def routerOf : Router where
  myEntity := some ⟨idOf b, .alive, some (signer b).keyInfo⟩
  ops := fun _ => none
  entities := fun _ => none
  id_entities := by
    intro id e h
    cases h

def router : Router := routerOf 9

def input : IdentifyInput := ⟨saltOf b, saltOf 99, none, .ok (), .random, true⟩

def nodeID : NodeID := ⟨ByteArrayOf.replicate 64 0⟩

def answer (challenge salt : Salt) : IdentifyPeerAck :=
  let s := signData ctx challenge.1 (signer b).keyInfo salt
  ⟨some (challenge.1 ++ salt.1), 0, s.hash, s.sig, s.pubBytes, none, some (idOf b)⟩

theorem answer_verified (challenge salt : Salt) : verifyData ctx (challenge.1 ++ salt.1) (answer b challenge salt).hash
    (answer b challenge salt).sig (answer b challenge salt).pubBytes (idOf b) none = .ok () := (signer b).accepted challenge.1 salt

def challenged : IdentityNode := (IdentityNode.start router fun _ => nodeID).step ctx (.on 0 (.identifyPeerWithMyID (input 3)))

def answered : IdentityEvent := .on 0 (.message (.identifyPeerWithMyIDAck (answer 1 (saltOf 3) (saltOf 4))) (input 5))

theorem userID_answered : (challenged.step ctx answered).userID 0 = some (idOf 1) := by
  have hv := answer_verified 1 (saltOf 3) (saltOf 4)
  have hpre : (saltOf 3).1 = ((saltOf 3).1 ++ (saltOf 4).1 ++ List.replicate 0 0).take 32 := by decide
  simp [IdentityNode.userID, IdentityNode.step, answered, Session.step, Session.record, Router.handleIdentifyMsg,
    Router.handleIdentifyPeerWithMyIDAck, challenged, IdentityNode.start, Router.identifyPeerWithMyID, router, routerOf, PttPeer.initID,
    Session.new, PttPeer.new, PttPeer.give, Router.handleIdentifyPeerAck, input, answer] at hv hpre ⊢
  rw [if_neg (by decide), if_pos hpre]
  simp [hv]

def approved : IdentityEvent := .on 0 (.approveJoin entity (idOf 3) ⟨true, .ok (), .ok (), .ok (), .member⟩ (input 5))

end IdentityWitness

open IdentityWitness SigningWitness

/-- User 1 answers the challenge of the node and is authenticated. -/
theorem userID_authenticated_answer : ((challenged.step ctx answered).sessions 0).Authenticated ctx (idOf 1) := by
  refine userID_authenticated ctx router (fun _ => nodeID) [.on 0 (.identifyPeerWithMyID (input 3))] challenged _
    (Run.single ⟨trivial, rfl⟩) answered ⟨?_, rfl⟩ 0 (idOf 1) userID_answered ?_ ?_
  · rintro data bytes ⟨⟩ ⟨⟩
    decide
  · intro h
    cases h
  · rintro ⟨me, hme, hid⟩
    obtain rfl := Option.some.inj hme
    exact absurd hid (by decide)

/-- A user that asks to join an entity is taken to be who the request says, though nothing was received on the connection that could
authenticate it. -/
theorem userID_of_joinEntity : (IdentityNode.start router fun _ => nodeID).userID 0 = none ∧
    ((IdentityNode.start router fun _ => nodeID).step ctx approved).userID 0 = some (idOf 3) ∧ ¬ router.IsMe (idOf 3) ∧
      ¬ (((IdentityNode.start router fun _ => nodeID).step ctx approved).sessions 0).Authenticated ctx (idOf 3) := by
  refine ⟨rfl, by decide +kernel, ?_, ?_⟩
  · rintro ⟨me, hme, hid⟩
    obtain rfl := Option.some.inj hme
    exact absurd hid (by decide)
  · rintro ⟨data, hdata, -⟩
    exact absurd hdata List.not_mem_nil

end PttaiCore
