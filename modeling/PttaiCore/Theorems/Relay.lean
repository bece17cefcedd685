import PttaiCore.Theorems.Identity

/-! # Identification among nodes and an adversary -/

namespace PttaiCore

open List

structure Topology (N : Type) where
  user : N → PttID
  other : N → Nat → Option (N × Nat)
  symm : ∀ n c m d, other n c = some (m, d) → other m d = some (n, c)

variable {N : Type} {T : Topology N}

structure Net (T : Topology N) where
  router : N → Router
  peer : N → Nat → PttPeer
  sent : N → Nat → List IdentifyMsg
  generated : List Salt
  asked : List Salt
  user_router : ∀ n me, (router n).myEntity = some me → me.id = T.user n

inductive NetEvent (T : Topology N) where
  | receive (n : N) (c : Nat) (m : IdentifyMsg) (i : IdentifyInput)
  | identifyPeer (n : N) (c : Nat) (e : Entity) (i : IdentifyInput)
  | identifyPeerWithMyID (n : N) (c : Nat) (i : IdentifyInput)
  | timeout (n : N) (c : Nat) (entityID : Option PttID)
  | register (n : N) (c : Nat) (peerType : PeerType) (isRegistered : Bool)
  | router (n : N) (r : Router) (user_router : ∀ me, r.myEntity = some me → me.id = T.user n)

namespace Net

def start (router : N → Router) (nodeIDs : N → Nat → NodeID) (h : ∀ n me, (router n).myEntity = some me → me.id = T.user n) :
    Net T := ⟨router, fun n c => PttPeer.new (nodeIDs n c), fun _ _ => [], [], [], h⟩

variable [DecidableEq N]

def setPeer (s : Net T) (n : N) (c : Nat) (p : PttPeer) : Net T :=
  { s with peer := Function.update s.peer n (Function.update (s.peer n) c p) }

def record (s : Net T) (n : N) (c : Nat) (o : IdentifyOutcome) (asked : Option Salt) : Net T :=
  { s.setPeer n c o.peer with
    sent := Function.update s.sent n (Function.update (s.sent n) c (s.sent n c ++ o.sent))
    generated := s.generated ++ o.generated
    asked := s.asked ++ asked.toList }

def step (Γ : Ctx) (s : Net T) : NetEvent T → Net T
  | .receive n c m i => s.record n c ((s.router n).handleIdentifyMsg Γ (s.peer n c) i m) m.challenge
  | .identifyPeer n c e i => s.record n c (Router.pmIdentifyPeer e (s.peer n c) i) none
  | .identifyPeerWithMyID n c i => s.record n c ((s.router n).identifyPeerWithMyID (s.peer n c) i) none
  | .timeout n c entityID => s.setPeer n c ((s.peer n c).finishID entityID)
  | .register n c peerType isRegistered =>
    s.setPeer n c { s.peer n c with peerType := peerType, isRegistered := isRegistered }
  | .router n r h =>
    { s with
      router := Function.update s.router n r
      user_router := by
        intro n' me hme
        by_cases hn : n' = n
        · subst hn
          rw [Function.update_self] at hme
          exact h me hme
        · rw [Function.update_of_ne hn] at hme
          exact s.user_router n' me hme }

end Net

namespace Net

variable (Γ : Ctx)

def AdversaryCanSend (s : Net T) (m : IdentifyMsg) : Prop :=
  ∀ data bytes n, m.ackData = some data → data.ackChallenge = some bytes → data.myID = some (T.user n) →
    verifyData Γ bytes data.hash data.sig data.pubBytes (T.user n) data.extra = .ok () →
    ∃ n' d msg data', T.user n' = T.user n ∧ T.other n' d = none ∧ msg ∈ s.sent n' d ∧ msg.ackData = some data' ∧
      data'.ackChallenge = some bytes

def Deliverable (s : Net T) (n : N) (c : Nat) (m : IdentifyMsg) : Prop :=
  match T.other n c with
  | some (n', d) => m ∈ s.sent n' d
  | none => s.AdversaryCanSend Γ m

def Fresh (s : Net T) (salt : Salt) (asked : Option Salt) : Prop := salt ∉ s.generated ∧ salt ∉ s.asked ∧ asked ≠ some salt

def Possible (s : Net T) : NetEvent T → Prop
  | .receive n c m i => s.Deliverable Γ n c m ∧ s.Fresh i.challengeSalt m.challenge
  | .identifyPeer _ _ _ i | .identifyPeerWithMyID _ _ i => s.Fresh i.challengeSalt none
  | .timeout _ _ _ | .register _ _ _ _ | .router _ _ _ => True

def NoRelay (s : Net T) : NetEvent T → Prop
  | .receive n c m _ => T.other n c = none → ∀ challenge, m.challenge = some challenge → challenge ∉ s.generated
  | .identifyPeer _ _ _ _ | .identifyPeerWithMyID _ _ _ | .timeout _ _ _ | .register _ _ _ _ | .router _ _ _ => True

variable [DecidableEq N]

def Step (s : Net T) (ev : NetEvent T) (s' : Net T) : Prop := s.Possible Γ ev ∧ s' = s.step Γ ev

def NoRelayStep (s : Net T) (ev : NetEvent T) (s' : Net T) : Prop := s.NoRelay ev ∧ s.Step Γ ev s'

end Net

namespace RelayAux

open IdentifyAux

structure AnswerOK (s : Net T) (n : N) (d : Nat) (data : IdentifyPeerAck) (challenge salt : Salt) : Prop where
  ackChallenge : data.ackChallenge = some (challenge.1 ++ salt.1)
  myID : data.myID = some (T.user n)
  asked : challenge ∈ s.asked
  notGenerated : T.other n d = none → challenge ∉ s.generated

structure Inv (s : Net T) : Prop where
  awaited : ∀ n c challenge, (s.peer n c).idChallenge = some challenge → challenge ∈ s.generated
  answers : ∀ n d msg data, msg ∈ s.sent n d → msg.ackData = some data → ∃ challenge salt, AnswerOK s n d data challenge salt

theorem inv_start (router : N → Router) (nodeIDs : N → Nat → NodeID)
    (h : ∀ n me, (router n).myEntity = some me → me.id = T.user n) : Inv (Net.start (T := T) router nodeIDs h) where
  awaited := nofun
  answers := by
    intro n d msg data hmsg
    cases hmsg

variable [DecidableEq N]

theorem peer_setPeer (s : Net T) (n : N) (c : Nat) (p : PttPeer) (n' : N) (c' : Nat) :
    (s.setPeer n c p).peer n' c' = if n' = n ∧ c' = c then p else s.peer n' c' := by
  by_cases hn : n' = n
  · subst hn
    by_cases hc : c' = c
    · simp [Net.setPeer, hc]
    · simp [Net.setPeer, hc]
  · simp [Net.setPeer, hn]

theorem inv_setPeer {s : Net T} (hs : Inv s) {n : N} {c : Nat} {p : PttPeer}
    (hp : p.idChallenge = (s.peer n c).idChallenge ∨ p.idChallenge = none) : Inv (s.setPeer n c p) where
  awaited := by
    intro n' c' challenge h
    rw [peer_setPeer] at h
    split at h
    · rcases hp with hold | hnone
      · exact hs.awaited n c challenge (hold ▸ h)
      · cases hnone.symm.trans h
    · exact hs.awaited n' c' challenge h
  answers := by
    intro n' d msg data hmsg hd
    obtain ⟨challenge, salt, h⟩ := hs.answers n' d msg data hmsg hd
    exact ⟨challenge, salt, h.ackChallenge, h.myID, h.asked, h.notGenerated⟩

variable {Γ : Ctx}

theorem inv_record {s : Net T} (hs : Inv s) {n : N} {c : Nat} {i : IdentifyInput} {m : Option IdentifyMsg}
    {o : IdentifyOutcome} (h : Effect Γ (s.router n) (s.peer n c) i m o)
    (hfresh : s.Fresh i.challengeSalt (m.bind IdentifyMsg.challenge))
    (hrelay : T.other n c = none → ∀ challenge, m.bind IdentifyMsg.challenge = some challenge → challenge ∉ s.generated) :
    Inv (s.record n c o (m.bind IdentifyMsg.challenge)) := by
  have hgen : ∀ x ∈ o.generated, x = i.challengeSalt := by
    intro x hx
    rcases h.awaits with ⟨hnil, -⟩ | ⟨hone, -⟩
    · rw [hnil] at hx
      cases hx
    · rw [hone] at hx
      exact mem_singleton.1 hx
  constructor
  · intro n' c' challenge hc
    change ((s.setPeer n c o.peer).peer n' c').idChallenge = some challenge at hc
    rw [peer_setPeer] at hc
    split at hc
    · rcases h.awaits with ⟨-, hold | hnone⟩ | ⟨hone, hnew⟩
      · exact mem_append_left _ (hs.awaited n c challenge (hold ▸ hc))
      · cases hnone.symm.trans hc
      · have : i.challengeSalt = challenge := Option.some.inj (hnew.symm.trans hc)
        exact mem_append_right _ (by simp [hone, this])
    · exact mem_append_left _ (hs.awaited n' c' challenge hc)
  · -- an answer that was sent before was asked before, so a fresh challenge is not the one it is to
    have hkeep : ∀ n' d data challenge salt, AnswerOK s n' d data challenge salt →
        AnswerOK (s.record n c o (m.bind IdentifyMsg.challenge)) n' d data challenge salt := by
      intro n' d data challenge salt hok
      refine ⟨hok.ackChallenge, hok.myID, mem_append_left _ hok.asked, ?_⟩
      intro hadv hmem
      rcases mem_append.1 hmem with hold | hnew
      · exact hok.notGenerated hadv hold
      · exact hfresh.2.1 (hgen _ hnew ▸ hok.asked)
    intro n' d msg data hmsg hd
    by_cases hnd : n' = n ∧ d = c
    · obtain ⟨rfl, rfl⟩ := hnd
      have hmsg' : msg ∈ s.sent n' d ++ o.sent := by simpa [Net.record] using hmsg
      rcases mem_append.1 hmsg' with hold | hnew
      · obtain ⟨challenge, salt, hok⟩ := hs.answers n' d msg data hold hd
        exact ⟨challenge, salt, hkeep _ _ _ _ _ hok⟩
      · obtain ⟨q, challenge, rfl, hq, hack⟩ := (h.sends msg hnew).answer data hd
        obtain ⟨me, key, c', hme, -, hc', hbytes, -, hid⟩ := identifyPeerAck_ok hack
        obtain rfl : challenge = c' := Option.some.inj hc'
        refine ⟨challenge, i.signSalt, hbytes, by rw [hid, s.user_router n' me hme], ?_, ?_⟩
        · exact mem_append_right _ (by simp [hq])
        · intro hadv hmem
          rcases mem_append.1 hmem with hold | hnew
          · exact hrelay hadv challenge hq hold
          · exact hfresh.2.2 (by rw [← hgen _ hnew]; exact hq)
    · have hmsg' : msg ∈ s.sent n' d := by
        by_cases hn : n' = n
        · subst hn
          have hd' : d ≠ c := fun hdc => hnd ⟨rfl, hdc⟩
          simpa [Net.record, hd'] using hmsg
        · simpa [Net.record, hn] using hmsg
      obtain ⟨challenge, salt, hok⟩ := hs.answers n' d msg data hmsg' hd
      exact ⟨challenge, salt, hkeep _ _ _ _ _ hok⟩

theorem inv_step {s s' : Net T} {ev : NetEvent T} (hs : Inv s) (h : s.NoRelayStep Γ ev s') : Inv s' := by
  obtain ⟨hrelay, hpos, rfl⟩ := h
  cases ev with
  | receive n c m i => exact inv_record (m := some m) hs (effect_handleIdentifyMsg Γ _ _ i m) hpos.2 hrelay
  | identifyPeer n c e i => exact inv_record (Γ := Γ) (m := none) hs (effect_pmIdentifyPeer e) hpos nofun
  | identifyPeerWithMyID n c i => exact inv_record (Γ := Γ) (m := none) hs (effect_identifyPeerWithMyID _) hpos nofun
  | timeout n c entityID => exact inv_setPeer hs (PttPeer.idChallenge_finishID _ entityID)
  | register n c peerType isRegistered => exact inv_setPeer hs (.inl rfl)
  | router n r hr =>
    refine ⟨hs.awaited, ?_⟩
    intro n' d msg data hmsg hd
    obtain ⟨challenge, salt, h⟩ := hs.answers n' d msg data hmsg hd
    exact ⟨challenge, salt, h.ackChallenge, h.myID, h.asked, h.notGenerated⟩

theorem challenge_of_answers {data : IdentifyPeerAck} {challenge c salt : Salt} {userID : PttID}
    (h : data.Answers Γ challenge userID (c.1 ++ salt.1)) : challenge = c := by
  apply Subtype.ext
  have hlen : c.1.length = 32 := c.2
  rw [h.challenge, append_assoc, take_append_of_le_length hlen.ge, take_of_length_le hlen.le]

theorem answers_of_step {s : Net T} {ev : NetEvent T} {n : N} {c : Nat} {userID : PttID}
    (hnew : ((s.step Γ ev).peer n c).userID = some userID) (hold : (s.peer n c).userID ≠ some userID) :
    ∃ m i data challenge bytes, ev = .receive n c m i ∧ m.ackData = some data ∧ (s.peer n c).idChallenge = some challenge ∧
      data.Answers Γ challenge userID bytes := by
  -- the connection is the one the event is about, and its handler has learned the user
  have hlearn : ∀ (n' : N) (c' : Nat) (m : Option IdentifyMsg) (q : PttPeer), Learns Γ (s.peer n' c') m q →
      ((s.setPeer n' c' q).peer n c).userID = some userID → n' = n ∧ c' = c ∧ ∃ msg data challenge bytes, m = some msg ∧
        msg.ackData = some data ∧ (s.peer n c).idChallenge = some challenge ∧ data.Answers Γ challenge userID bytes := by
    intro n' c' m q hq h
    rw [peer_setPeer] at h
    split at h
    next heq =>
      obtain ⟨rfl, rfl⟩ := heq
      rcases hq with hsame | ⟨-, msg, data, challenge, userID', bytes, hm, hd, hc, hans, hu⟩
      · exact absurd (hsame ▸ h) hold
      · obtain rfl : userID' = userID := Option.some.inj (hu.symm.trans h)
        exact ⟨rfl, rfl, msg, data, challenge, bytes, hm, hd, hc, hans⟩
    next => exact absurd h hold
  cases ev with
  | receive n' c' m i =>
    obtain ⟨rfl, rfl, msg, data, challenge, bytes, hm, hd, hc, hans⟩ :=
      hlearn n' c' (some m) _ (effect_handleIdentifyMsg Γ _ _ i m).learns hnew
    obtain rfl : m = msg := Option.some.inj hm
    exact ⟨m, i, data, challenge, bytes, rfl, hd, hc, hans⟩
  | identifyPeer n' c' e i =>
    obtain ⟨-, -, msg, data, challenge, bytes, hm, -⟩ :=
      hlearn n' c' none _ (effect_pmIdentifyPeer (Γ := Γ) (r := s.router n') (m := none) e).learns hnew
    cases hm
  | identifyPeerWithMyID n' c' i =>
    obtain ⟨-, -, msg, data, challenge, bytes, hm, -⟩ :=
      hlearn n' c' none _ (effect_identifyPeerWithMyID (Γ := Γ) (m := none) (s.router n')).learns hnew
    cases hm
  | timeout n' c' entityID =>
    obtain ⟨-, -, msg, data, challenge, bytes, hm, -⟩ :=
      hlearn n' c' none _ (.inl (PttPeer.userID_finishID _ entityID)) hnew
    cases hm
  | register n' c' peerType isRegistered =>
    obtain ⟨-, -, msg, data, challenge, bytes, hm, -⟩ :=
      hlearn n' c' none { s.peer n' c' with peerType := peerType, isRegistered := isRegistered } (.inl rfl) hnew
    cases hm
  | router n' r hr => exact absurd hnew hold

end RelayAux

open RelayAux

/-- In every run in which the adversary passes on no challenge that an honest node generated, a connection gets the user of an honest
node only if a node of that user is at its other end. -/
theorem userID_of_other_end {N : Type} [DecidableEq N] {T : Topology N} (Γ : Ctx) (router : N → Router)
    (nodeIDs : N → Nat → NodeID) (huser : ∀ n me, (router n).myEntity = some me → me.id = T.user n) (evs : List (NetEvent T))
    (s s' : Net T) (hrun : Run (Net.NoRelayStep Γ) (Net.start router nodeIDs huser) evs s) (ev : NetEvent T)
    (hstep : s.NoRelayStep Γ ev s') (n : N) (c : Nat) (userID : PttID) (hnew : (s'.peer n c).userID = some userID)
    (hold : (s.peer n c).userID ≠ some userID) (hhonest : ∃ m, T.user m = userID) :
    ∃ n' d, T.other n c = some (n', d) ∧ T.user n' = userID := by
  have hs : Inv s := hrun.invariant (inv_start router nodeIDs huser) fun _ _ _ => inv_step
  obtain ⟨-, hpos, rfl⟩ := hstep
  obtain ⟨m, i, data, challenge, bytes, rfl, hd, hc, hans⟩ := answers_of_step hnew hold
  have hdel := hpos.1
  unfold Net.Deliverable at hdel
  cases hother : T.other n c with
  | some nd =>
    -- an honest node answers for its own user
    obtain ⟨n', d⟩ := nd
    rw [hother] at hdel
    obtain ⟨c', salt, hok⟩ := hs.answers n' d m data hdel hd
    exact ⟨n', d, rfl, Option.some.inj (hok.myID.symm.trans hans.myID)⟩
  | none =>
    -- the adversary can only repeat an answer to the challenge, which no honest node was asked by it
    rw [hother] at hdel
    obtain ⟨u, rfl⟩ := hhonest
    obtain ⟨n', d, msg, data', -, hadv, hmsg, hd', hbytes⟩ := hdel data bytes u hd hans.ackChallenge hans.myID hans.verified
    obtain ⟨c', salt, hok⟩ := hs.answers n' d msg data' hmsg hd'
    obtain rfl : bytes = c'.1 ++ salt.1 := Option.some.inj (hbytes.symm.trans hok.ackChallenge)
    exact absurd (challenge_of_answers hans ▸ hs.awaited n c challenge hc) (hok.notGenerated hadv)

namespace RelayWitness

open SigningWitness IdentityWitness

def userOf (n : Bool) : UInt8 := if n then 1 else 9

def apart : Topology Bool where
  user := fun n => idOf (userOf n)
  other := fun _ _ => none
  symm := nofun

def together : Topology Bool where
  user := fun n => idOf (userOf n)
  other := fun n c => if c = 0 then some (!n, 0) else none
  symm := by
    intro n c m d h
    split at h
    next hc =>
      cases h
      simp [hc]
    next => cases h

theorem user_routerOf (n : Bool) (me : MyEntity) (h : (routerOf (userOf n)).myEntity = some me) : me.id = idOf (userOf n) := by
  cases h
  rfl

def idle (T : Topology Bool) (h : ∀ n, T.user n = idOf (userOf n)) : Net T :=
  .start (fun n => routerOf (userOf n)) (fun _ _ => nodeID) fun n me hme => (user_routerOf n me hme).trans (h n).symm

def claims : NetEvent apart := .receive false 0 (.identifyPeerWithMyID (some (idOf 1)) none) (input 3)

def passes : NetEvent apart := .receive true 0 (.identifyPeerWithMyIDChallenge (some (saltOf 3))) (input 7)

def returns : NetEvent apart :=
  .receive false 0 (.identifyPeerWithMyIDChallengeAck none (some (answer 1 (saltOf 3) (saltOf 99)))) (input 8)

def claimed : Net apart := (idle apart fun _ => rfl).step ctx claims

def passed : Net apart := claimed.step ctx passes

def returned : Net apart := passed.step ctx returns

def begins : NetEvent together := .identifyPeerWithMyID false 0 (input 3)

def challenges : NetEvent together := .receive true 0 (.identifyPeerWithMyID (some (idOf 9)) (some (saltOf 3))) (input 7)

def answers : NetEvent together := .receive false 0 (.identifyPeerWithMyIDChallenge (some (saltOf 7))) (input 11)

def accepts : NetEvent together :=
  .receive true 0 (.identifyPeerWithMyIDChallengeAck (some (saltOf 3)) (some (answer 9 (saltOf 7) (saltOf 99)))) (input 12)

def begun : Net together := (idle together fun _ => rfl).step ctx begins

def challenged : Net together := begun.step ctx challenges

def answered : Net together := challenged.step ctx answers

theorem fresh_of {T : Topology Bool} {s : Net T} {salt : Salt} {asked : Option Salt} (hg : s.generated.contains salt = false)
    (ha : s.asked.contains salt = false) (hm : asked ≠ some salt) : s.Fresh salt asked :=
  ⟨by simpa using hg, by simpa using ha, hm⟩

theorem deliverable_of {s : Net together} {n : Bool} {m : IdentifyMsg} (h : (s.sent (!n) 0).contains m = true) :
    s.Deliverable ctx n 0 m := contains_iff_mem.1 h

end RelayWitness

open RelayWitness SigningWitness IdentityWitness in
/-- The adversary, which holds both connections, is taken for user 1 by the node of user 9. -/
theorem challenge_relayed : Run (Net.Step ctx) (idle apart fun _ => rfl) [claims, passes, returns] returned ∧
    (returned.peer false 0).userID = some (apart.user true) ∧ apart.other false 0 = none := by
  refine ⟨?_, by decide +kernel, rfl⟩
  have h1 : Net.Step ctx (idle apart fun _ => rfl) claims claimed := ⟨⟨nofun, fresh_of rfl rfl nofun⟩, rfl⟩
  have h2 : claimed.Step ctx passes passed :=
    ⟨⟨nofun, fresh_of (by decide +kernel) (by decide +kernel) (by decide)⟩, rfl⟩
  refine (((Run.nil _).snoc h1).snoc h2).snoc ⟨⟨?_, fresh_of (by decide +kernel) (by decide +kernel) nofun⟩, rfl⟩
  -- the node of user 1 has sent the adversary the answer
  intro data bytes n hd hb hid _
  cases hd
  exact ⟨true, 0, .identifyPeerWithMyIDChallengeAck none (some (answer 1 (saltOf 3) (saltOf 99))), _, Option.some.inj hid, rfl,
    by decide +kernel, rfl, hb⟩

open RelayWitness SigningWitness IdentityWitness in
/-- The node of user 1 identifies user 9 at the other end of its connection. -/
theorem userID_of_other_end_two : ∃ n' d, together.other true 0 = some (n', d) ∧ together.user n' = idOf 9 := by
  have h1 : Net.NoRelayStep ctx (idle together fun _ => rfl) begins begun := ⟨trivial, fresh_of rfl rfl nofun, rfl⟩
  have h2 : begun.NoRelayStep ctx challenges challenged :=
    ⟨nofun, ⟨deliverable_of (by decide +kernel), fresh_of (by decide +kernel) (by decide +kernel) (by decide)⟩, rfl⟩
  have h3 : challenged.NoRelayStep ctx answers answered :=
    ⟨nofun, ⟨deliverable_of (by decide +kernel), fresh_of (by decide +kernel) (by decide +kernel) (by decide)⟩, rfl⟩
  refine userID_of_other_end ctx _ _ _ [begins, challenges, answers] answered (answered.step ctx accepts)
    ((((Run.nil _).snoc h1).snoc h2).snoc h3) accepts
    ⟨nofun, ⟨deliverable_of (by decide +kernel), fresh_of (by decide +kernel) (by decide +kernel) (by decide)⟩, rfl⟩ true 0 (idOf 9)
    (by decide +kernel) (by decide +kernel) ⟨false, rfl⟩

end PttaiCore
