import PttaiCore.Identify

/-! # What a step of the identification can do -/

namespace PttaiCore

open List

structure IdentifyPeerAck.Answers (Γ : Ctx) (data : IdentifyPeerAck) (challenge : Salt) (userID : PttID) (bytes : Bytes) : Prop where
  myID : data.myID = some userID
  ackChallenge : data.ackChallenge = some bytes
  challenge : challenge.1 = (bytes ++ List.replicate data.spare 0).take 32
  verified : verifyData Γ bytes data.hash data.sig data.pubBytes userID data.extra = .ok ()

theorem IdentifyPeerAck.Answers.isPrefix {Γ : Ctx} {data : IdentifyPeerAck} {challenge : Salt} {userID : PttID} {bytes : Bytes}
    (h : data.Answers Γ challenge userID bytes) (hlen : 32 ≤ bytes.length) : challenge.1 <+: bytes := by
  rw [h.challenge, take_append_of_le_length hlen]
  exact List.take_prefix 32 bytes

namespace IdentifyAux

variable {Γ : Ctx} {r : Router} {p : PttPeer} {i : IdentifyInput} {m : Option IdentifyMsg}

structure Sendable (Γ : Ctx) (r : Router) (p : PttPeer) (i : IdentifyInput) (m : Option IdentifyMsg) (generated : List Salt)
    (msg : IdentifyMsg) : Prop where
  challenge : ∀ c, msg.challenge = some c → c ∈ generated ∨ p.idChallenge = some c
  answer : ∀ data, msg.ackData = some data →
    ∃ q c, m = some q ∧ q.challenge = some c ∧ r.identifyPeerAck Γ (some c) i = .ok data

def Learns (Γ : Ctx) (p : PttPeer) (m : Option IdentifyMsg) (q : PttPeer) : Prop :=
  q.userID = p.userID ∨ p.userID = none ∧ ∃ msg data c userID bytes, m = some msg ∧ msg.ackData = some data ∧
    p.idChallenge = some c ∧ data.Answers Γ c userID bytes ∧ q.userID = some userID

structure Effect (Γ : Ctx) (r : Router) (p : PttPeer) (i : IdentifyInput) (m : Option IdentifyMsg) (o : IdentifyOutcome) :
    Prop where
  awaits : o.generated = [] ∧ (o.peer.idChallenge = p.idChallenge ∨ o.peer.idChallenge = none) ∨
    o.generated = [i.challengeSalt] ∧ o.peer.idChallenge = some i.challengeSalt
  learns : Learns Γ p m o.peer
  sends : ∀ msg ∈ o.sent, Sendable Γ r p i m o.generated msg

theorem effect_give (x : Except Err Unit) : Effect Γ r p i m (p.give x) where
  awaits := .inl ⟨rfl, .inl rfl⟩
  learns := .inl rfl
  sends := by
    intro msg h
    cases h

theorem Effect.send {o : IdentifyOutcome} (h : Effect Γ r p i m o) {sent : List IdentifyMsg} {x : Except Err Unit}
    (hs : ∀ msg ∈ sent, msg ∈ o.sent ∨ Sendable Γ r p i m o.generated msg) : Effect Γ r p i m ⟨x, o.peer, o.generated, sent⟩ where
  awaits := h.awaits
  learns := h.learns
  sends := by
    intro msg hmsg
    rcases hs msg hmsg with hold | hnew
    · exact h.sends msg hold
    · exact hnew

/-! ## Challenges -/

variable (entityID : Option PttID) {challenge : Option Salt} {data : IdentifyPeerAck}

theorem effect_identifyPeer (isForce : Bool) {mk : Salt → List IdentifyMsg}
    (hmk : ∀ salt, ∀ msg ∈ mk salt, msg.challenge = some salt ∧ msg.ackData = none) :
    Effect Γ r p i m (Router.identifyPeer entityID p isForce i mk) := by
  unfold Router.identifyPeer
  rcases p.initID_cases entityID isForce i.challengeSalt with h | ⟨h, hu⟩
  · rw [h]
    exact effect_give _
  · rw [h]
    refine ⟨.inr ⟨rfl, rfl⟩, .inl rfl, ?_⟩
    intro msg hmsg
    obtain ⟨hc, hd⟩ := hmk _ msg hmsg
    constructor
    · intro c hc'
      rw [hc] at hc'
      exact .inl (mem_singleton.2 (Option.some.inj hc').symm)
    · intro data hd'
      rw [hd] at hd'
      cases hd'

theorem effect_identifyPeerWithMyID (r : Router) : Effect Γ r p i m (r.identifyPeerWithMyID p i) := by
  unfold Router.identifyPeerWithMyID
  cases r.myEntity with
  | none => exact effect_give _
  | some me =>
    rcases p.initID_cases (some me.id) true i.challengeSalt with h | ⟨h, hu⟩
    · simp only [h]
      exact effect_give _
    · simp only [h]
      refine ⟨.inr ⟨rfl, rfl⟩, .inl rfl, ?_⟩
      intro msg hmsg
      obtain rfl := mem_singleton.1 hmsg
      constructor
      · intro c hc
        exact .inl (mem_singleton.2 (Option.some.inj hc).symm)
      · intro data hd
        cases hd

theorem effect_pmIdentifyPeer (e : Entity) : Effect Γ r p i m (Router.pmIdentifyPeer e p i) := by
  unfold Router.pmIdentifyPeer
  split
  · exact effect_give _
  · refine Effect.send (effect_identifyPeer (some e.id) false ?_) fun msg hmsg => .inl hmsg
    intro salt msg hmsg
    obtain ⟨hash, -, rfl⟩ := Option.map_eq_some_iff.1 (Option.mem_toList.1 hmsg)
    exact ⟨rfl, rfl⟩

/-! ## Answers -/

theorem identifyPeerAck_ok (h : r.identifyPeerAck Γ challenge i = .ok data) :
    ∃ me key c, r.myEntity = some me ∧ me.signKey = some key ∧ challenge = some c ∧
      data.ackChallenge = some (c.1 ++ i.signSalt.1) ∧ data.spare = 0 ∧ data.myID = some me.id := by
  unfold Router.identifyPeerAck at h
  cases hme : r.myEntity with
  | none => rw [hme] at h; cases h
  | some me =>
    rw [hme] at h
    cases hkey : me.signKey with
    | none => simp [hkey] at h
    | some key =>
      cases challenge with
      | none => simp [hkey] at h
      | some c =>
        simp only [hkey, Except.ok.injEq] at h
        exact ⟨me, key, c, rfl, hkey, rfl, h ▸ rfl, h ▸ rfl, h ▸ rfl⟩

theorem sendable_answer {q msg : IdentifyMsg} {generated : List Salt}
    (hq : q.challenge = challenge) (hack : r.identifyPeerAck Γ challenge i = .ok data) (hd : msg.ackData = some data)
    (hc : ∀ c, msg.challenge = some c → p.idChallenge = some c) : Sendable Γ r p i (some q) generated msg := by
  constructor
  · intro c h
    exact .inr (hc c h)
  · intro data' h
    obtain rfl : data = data' := Option.some.inj (hd.symm.trans h)
    obtain ⟨-, -, c, -, -, rfl, -⟩ := identifyPeerAck_ok hack
    exact ⟨q, c, rfl, hq, hack⟩

theorem handleIdentifyPeerAck_cases (Γ : Ctx) (entityID : Option PttID) (data : IdentifyPeerAck) (p : PttPeer) (i : IdentifyInput) :
    (Router.handleIdentifyPeerAck Γ entityID data p i).2 = p ∨
      p.userID = none ∧ ∃ c userID bytes, p.idChallenge = some c ∧ data.Answers Γ c userID bytes ∧
        (Router.handleIdentifyPeerAck Γ entityID data p i).2.userID = some userID ∧
        ((Router.handleIdentifyPeerAck Γ entityID data p i).2.idChallenge = p.idChallenge ∨
          (Router.handleIdentifyPeerAck Γ entityID data p i).2.idChallenge = none) := by
  unfold Router.handleIdentifyPeerAck
  split
  next c bytes hc hb =>
    split
    next => exact .inl rfl
    next hlen =>
      split
      next => exact .inl rfl
      next hpre =>
        split
        next => exact .inl rfl
        next myID hid =>
          split
          next => exact .inl rfl
          next hver =>
            split
            next => exact .inl rfl
            next hu =>
              refine .inr ⟨by simpa using hu, c, myID, bytes, hc, ⟨hid, hb, not_not.1 hpre, hver⟩, ?_, ?_⟩
              · rw [PttPeer.userID_finishIdentifyPeer, PttPeer.userID_finishID]
              · rw [PttPeer.idChallenge_finishIdentifyPeer]
                exact PttPeer.idChallenge_finishID { p with userID := some myID } entityID
  next => exact .inl rfl

theorem effect_handleIdentifyPeerAck {msg : IdentifyMsg} (hd : msg.ackData = some data)
    (x : Except Err Unit) : Effect Γ r p i (some msg) ((Router.handleIdentifyPeerAck Γ entityID data p i).2.give x) := by
  rcases handleIdentifyPeerAck_cases Γ entityID data p i with h | ⟨hu, c, userID, bytes, hc, hans, hq, hch⟩
  · rw [h]
    exact effect_give _
  · refine ⟨.inl ⟨rfl, hch⟩, .inr ⟨hu, msg, data, c, userID, bytes, rfl, hd, hc, hans, hq⟩, ?_⟩
    intro msg' h
    cases h

theorem effect_identifyPeerWithMyIDAck {q : IdentifyMsg} {p' : PttPeer} (hq : q.challenge = challenge)
    (h : Effect Γ r p i (some q) (p'.give (.ok ()))) : Effect Γ r p i (some q) (r.identifyPeerWithMyIDAck Γ challenge p' i) := by
  unfold Router.identifyPeerWithMyIDAck
  cases hack : r.identifyPeerAck Γ challenge i with
  | error err => exact h.send fun msg hmsg => .inl hmsg
  | ok data =>
    refine h.send fun msg hmsg => .inr ?_
    obtain rfl := mem_singleton.1 hmsg
    exact sendable_answer hq hack rfl fun c hc => nomatch hc

/-! ## Messages -/

theorem effect_handleCodeIdentifyPeer (r : Router) (hash : Address) (challenge : Option Salt) :
    Effect Γ r p i (some (.identifyPeer hash challenge)) (r.handleCodeIdentifyPeer Γ hash challenge p i) := by
  -- the notice of a failure holds neither a challenge nor an answer
  have hfail : ∀ o, Effect Γ r p i (some (.identifyPeer hash challenge)) o →
      Effect Γ r p i (some (.identifyPeer hash challenge)) (Router.identifyPeerFail hash o) := by
    intro o h
    refine h.send fun msg hmsg => ?_
    rcases mem_append.1 hmsg with hold | hnew
    · exact .inl hold
    · obtain rfl := mem_singleton.1 hnew
      exact .inr ⟨nofun, nofun⟩
  have hpm : ∀ e : Entity, Effect Γ r p i (some (.identifyPeer hash challenge)) (r.pmHandleIdentifyPeer Γ e challenge p i) := by
    intro e
    unfold Router.pmHandleIdentifyPeer Router.pmIdentifyPeerAck
    split
    · exact effect_give _
    · split
      next => exact effect_give _
      next data hack =>
        refine (effect_pmIdentifyPeer e).send fun msg hmsg => ?_
        rcases mem_append.1 hmsg with hnew | hold
        · obtain ⟨hash', -, rfl⟩ := Option.map_eq_some_iff.1 (Option.mem_toList.1 hnew)
          exact .inr (sendable_answer rfl hack rfl nofun)
        · exact .inl hold
  unfold Router.handleCodeIdentifyPeer
  split
  · exact hfail _ (effect_give _)
  · split
    · exact hfail _ (effect_give _)
    · dsimp only
      split
      · exact hpm _
      · exact hfail _ (hpm _)

theorem effect_handleIdentifyMsg (Γ : Ctx) (r : Router) (p : PttPeer) (i : IdentifyInput) (msg : IdentifyMsg) :
    Effect Γ r p i (some msg) (r.handleIdentifyMsg Γ p i msg) := by
  cases msg with
  | identifyPeer hash challenge => exact effect_handleCodeIdentifyPeer r hash challenge
  | identifyPeerAck hash data =>
    simp only [Router.handleIdentifyMsg, Router.handleCodeOp]
    split
    · exact effect_give _
    · split
      · exact effect_give _
      · exact effect_handleIdentifyPeerAck _ rfl _
  | identifyPeerFail hash => exact effect_identifyPeerWithMyID r
  | identifyPeerWithMyID id challenge =>
    simp only [Router.handleIdentifyMsg, Router.handleIdentifyPeerWithMyID]
    split
    · split
      · exact effect_give _
      · exact effect_identifyPeerWithMyIDAck rfl (effect_give _)
    · refine effect_identifyPeer id true ?_
      intro salt msg hmsg
      obtain rfl := mem_singleton.1 hmsg
      exact ⟨rfl, rfl⟩
  | identifyPeerWithMyIDChallenge challenge =>
    simp only [Router.handleIdentifyMsg, Router.handleIdentifyPeerWithMyIDChallenge]
    split
    next => exact effect_give _
    next data hack =>
      refine (effect_give (.ok ())).send fun msg hmsg => .inr ?_
      obtain rfl := mem_singleton.1 hmsg
      exact sendable_answer rfl hack rfl fun c hc => hc
  | identifyPeerWithMyIDChallengeAck challenge ackData =>
    simp only [Router.handleIdentifyMsg, Router.handleIdentifyPeerWithMyIDChallengeAck]
    split
    next => exact effect_give _
    next => exact effect_give _
    next me data _ =>
      have hack : Effect Γ r p i (some (.identifyPeerWithMyIDChallengeAck challenge (some data)))
          ((Router.handleIdentifyPeerAck Γ (some me.id) data p i).2.give (.ok ())) :=
        effect_handleIdentifyPeerAck (some me.id) rfl (.ok ())
      generalize hx : Router.handleIdentifyPeerAck Γ (some me.id) data p i = x at hack
      obtain ⟨e | _, p'⟩ := x
      · exact hack.send fun msg hmsg => .inl hmsg
      · dsimp only
        split
        · exact hack
        · exact effect_identifyPeerWithMyIDAck rfl hack
  | identifyPeerWithMyIDAck data =>
    simp only [Router.handleIdentifyMsg, Router.handleIdentifyPeerWithMyIDAck]
    split
    · exact effect_give _
    · exact effect_handleIdentifyPeerAck _ rfl _

end IdentifyAux

end PttaiCore
