import PttaiCore.PeerSet

/-! # What a peer set represents -/

namespace PttaiCore

open KeyStore

namespace PttPeerSet

variable {P : Type}

structure Represented (ps : PttPeerSet P) : Prop where
  exactly : ∀ id t c, ps.peerTypes.get id = some t → t.peerClass = some c →
    ∀ d, (∃ p, (ps.stores d).peers.get id = some p) ↔ d = c
  lists : ∀ c, (ps.stores c).peerList.Perm ((ps.stores c).peers.entries.map Prod.snd)
  peerList : ps.peerList = (ps.stores .me).peerList ++ (ps.stores .important).peerList ++ (ps.stores .member).peerList

inductive PeerCall (P : Type) where
  | register (order : MapOrder P) (peer : P) (peerType : PeerType)
  | unregister (order : MapOrder P) (peer : P)
  | unregisterPeerByOtherUserID (order : MapOrder P) (userID : P → Option PttID) (id : Option PttID)
  | close

def peerCall [DecidableEq P] (nodeID : P → NodeID) (ps : PttPeerSet P) : PeerCall P → Except PeerSetErr Unit × PttPeerSet P
  | .register order peer peerType => ps.register nodeID order peer peerType
  | .unregister order peer => ps.unregister nodeID order peer
  | .unregisterPeerByOtherUserID order userID id => (.ok (), (ps.unregisterPeerByOtherUserID nodeID order userID id).2)
  | .close => (.ok (), ps.close)

def afterCalls [DecidableEq P] (nodeID : P → NodeID) (calls : List (PeerCall P)) : PttPeerSet P :=
  calls.foldl (fun ps c => (ps.peerCall nodeID c).2) newPttPeerSet

namespace PeerSetAux

variable {nodeID : P → NodeID} {ps : PttPeerSet P} {t t' : PeerType} {c d : PeerClass}

/-! ## Changing one store -/

theorem stores_setPeers (ps : PttPeerSet P) (t : PeerType) (f : KeyStore NodeID P → KeyStore NodeID P) (d : PeerClass) :
    (ps.setPeers t f).stores d =
      if t.peerClass = some d then { ps.stores d with peers := f (ps.stores d).peers } else ps.stores d := by
  rw [setPeers]
  cases ht : t.peerClass with
  | none => rw [if_neg (by simp)]
  | some c =>
    dsimp only
    by_cases hd : d = c
    · subst hd
      rw [Function.update_self, if_pos rfl]
    · rw [Function.update_of_ne hd, if_neg fun h => hd (Option.some.inj h).symm]

theorem stores_relist (ps : PttPeerSet P) (order : MapOrder P) (t : PeerType) (d : PeerClass) :
    (ps.relist order t).stores d =
      if t.peerClass = some d then { ps.stores d with peerList := peersToPeerList order (ps.stores d).peers } else ps.stores d := by
  rw [relist]
  cases ht : t.peerClass with
  | none => rw [if_neg (by simp)]
  | some c =>
    dsimp only
    by_cases hd : d = c
    · subst hd
      rw [Function.update_self, if_pos rfl]
    · rw [Function.update_of_ne hd, if_neg fun h => hd (Option.some.inj h).symm]

@[simp] theorem peerTypes_setPeers (ps : PttPeerSet P) (t : PeerType) (f : KeyStore NodeID P → KeyStore NodeID P) :
    (ps.setPeers t f).peerTypes = ps.peerTypes := by
  rw [setPeers]
  split <;> rfl

@[simp] theorem peerTypes_relist (ps : PttPeerSet P) (order : MapOrder P) (t : PeerType) :
    (ps.relist order t).peerTypes = ps.peerTypes := by
  rw [relist]
  split <;> rfl

/-! ## The invariant -/

structure Inv (nodeID : P → NodeID) (ps : PttPeerSet P) : Prop where
  classed : ∀ id c, (∃ p, (ps.stores c).peers.get id = some p) ↔ (ps.peerTypes.get id).bind PeerType.peerClass = some c
  keyed : ∀ id c p, (ps.stores c).peers.get id = some p → nodeID p = id
  lists : ∀ c, (ps.stores c).peerList.Perm ((ps.stores c).peers.entries.map Prod.snd)
  peerList : ps.peerList = (ps.stores .me).peerList ++ (ps.stores .important).peerList ++ (ps.stores .member).peerList

theorem Inv.represented (h : Inv nodeID ps) : Represented ps := by
  refine ⟨fun id t c ht hc d => ?_, h.lists, h.peerList⟩
  rw [h.classed, ht, Option.bind_some, hc]
  exact ⟨fun heq => (Option.some.inj heq).symm, fun heq => by rw [heq]⟩

theorem inv_empty (closed : Bool) : Inv nodeID (empty closed : PttPeerSet P) := by
  refine ⟨fun id c => ?_, fun id c p hp => ?_, fun c => List.Perm.refl _, rfl⟩
  · simp [empty]
  · simp [empty] at hp

theorem inv_of_maps (t t' : PeerType) {order : MapOrder P} (hinv : Inv nodeID ps) {ps' : PttPeerSet P}
    (hlists : ∀ d, (ps'.stores d).peerList = (ps.stores d).peerList)
    (hsame : ∀ d, t.peerClass ≠ some d → t'.peerClass ≠ some d → (ps'.stores d).peers = (ps.stores d).peers)
    (hclassed : ∀ id d, (∃ p, (ps'.stores d).peers.get id = some p) ↔ (ps'.peerTypes.get id).bind PeerType.peerClass = some d)
    (hkeyed : ∀ id d p, (ps'.stores d).peers.get id = some p → nodeID p = id) :
    Inv nodeID ((ps'.relist order t).relist order t').setPeerList := by
  have hstores : ∀ d, (((ps'.relist order t).relist order t').setPeerList).stores d =
      if t'.peerClass = some d ∨ t.peerClass = some d then
        { ps'.stores d with peerList := peersToPeerList order (ps'.stores d).peers } else ps'.stores d := by
    intro d
    change ((ps'.relist order t).relist order t').stores d = _
    rw [stores_relist, stores_relist]
    by_cases h' : t'.peerClass = some d <;> by_cases h : t.peerClass = some d <;> simp only [h, h', if_true, if_false, or_self, or_true, true_or]
  have hpeers : ∀ d, ((((ps'.relist order t).relist order t').setPeerList).stores d).peers = (ps'.stores d).peers := by
    intro d
    rw [hstores]
    split_ifs <;> rfl
  refine ⟨fun id d => ?_, fun id d p hp => ?_, fun d => ?_, rfl⟩
  · rw [hpeers, hclassed]
    change _ ↔ (((ps'.relist order t).relist order t').peerTypes.get id).bind PeerType.peerClass = some d
    rw [peerTypes_relist, peerTypes_relist]
  · rw [hpeers] at hp
    exact hkeyed id d p hp
  · rw [hstores]
    split_ifs with hd
    · exact order.2 _
    · rw [not_or] at hd
      rw [hlists, hsame d hd.2 hd.1]
      exact hinv.lists d

theorem peers_moved (ps : PttPeerSet P) (t t' : PeerType) (id : NodeID) (peer : P) (d : PeerClass) :
    (((ps.setPeers t fun peers => peers.delete id).setPeers t' fun peers => peers.put id peer).stores d).peers =
      if t'.peerClass = some d then
        (if t.peerClass = some d then (ps.stores d).peers.delete id else (ps.stores d).peers).put id peer
      else if t.peerClass = some d then (ps.stores d).peers.delete id else (ps.stores d).peers := by
  rw [stores_setPeers, stores_setPeers]
  split_ifs <;> rfl

theorem Inv.move (h : Inv nodeID ps) (order : MapOrder P) {peer : P} (t' : PeerType)
    (ht : ps.peerTypes.get (nodeID peer) = some t ∨ ps.peerTypes.get (nodeID peer) = none ∧ t = .err) :
    Inv nodeID (ps.move nodeID order peer t t') := by
  have hbind : (ps.peerTypes.get (nodeID peer)).bind PeerType.peerClass = t.peerClass := by
    rcases ht with ht | ⟨ht, rfl⟩ <;> rw [ht] <;> rfl
  have hget : ∀ id d, ((({ ps with peerTypes := ps.peerTypes.put (nodeID peer) t' }.setPeers t fun peers =>
      peers.delete (nodeID peer)).setPeers t' fun peers => peers.put (nodeID peer) peer).stores d).peers.get id =
        if id = nodeID peer then (if t'.peerClass = some d then some peer else none) else (ps.stores d).peers.get id := by
    intro id d
    rw [peers_moved]
    by_cases hid : id = nodeID peer
    · subst hid
      rw [if_pos rfl]
      by_cases hd' : t'.peerClass = some d
      · rw [if_pos hd', if_pos hd', get_put, if_pos rfl]
      · rw [if_neg hd', if_neg hd']
        by_cases hd : t.peerClass = some d
        · rw [if_pos hd, get_delete, if_pos rfl]
        · rw [if_neg hd]
          cases hp : (ps.stores d).peers.get (nodeID peer) with
          | none => rfl
          | some p => exact absurd (hbind.symm.trans ((h.classed _ d).1 ⟨p, hp⟩)) hd
    · rw [if_neg hid]
      split_ifs <;> simp [hid]
  refine inv_of_maps t t' h (fun d => ?_) (fun d hd hd' => ?_) (fun id d => ?_) (fun id d p hp => ?_)
  · rw [stores_setPeers, stores_setPeers]
    split_ifs <;> rfl
  · rw [peers_moved, if_neg hd', if_neg hd]
  · rw [peerTypes_setPeers, peerTypes_setPeers, hget]
    rw [get_put]
    by_cases hid : id = nodeID peer
    · rw [if_pos hid, if_pos hid, Option.bind_some]
      split_ifs with hd'
      · exact iff_of_true ⟨peer, rfl⟩ hd'
      · exact iff_of_false (fun ⟨p, hp⟩ => by cases hp) hd'
    · rw [if_neg hid, if_neg hid]
      exact h.classed id d
  · rw [hget] at hp
    split_ifs at hp with hid hd'
    · rw [← Option.some.inj hp, hid]
    · exact h.keyed id d p hp

theorem peers_deleted (ps : PttPeerSet P) (t : PeerType) (id : NodeID) (d : PeerClass) :
    ((ps.setPeers t fun peers => peers.delete id).stores d).peers =
      if t.peerClass = some d then (ps.stores d).peers.delete id else (ps.stores d).peers := by
  rw [stores_setPeers]
  split_ifs <;> rfl

theorem Inv.get_deleted (h : Inv nodeID ps) {i : NodeID} (ht : ps.peerTypes.get i = some t) (id : NodeID) (d : PeerClass) :
    ((ps.setPeers t fun peers => peers.delete i).stores d).peers.get id = if id = i then none else (ps.stores d).peers.get id := by
  rw [peers_deleted]
  by_cases hid : id = i
  · subst hid
    rw [if_pos rfl]
    split_ifs with hd
    · rw [get_delete, if_pos rfl]
    · cases hp : (ps.stores d).peers.get id with
      | none => rfl
      | some p =>
        have hclass := (h.classed _ d).1 ⟨p, hp⟩
        rw [ht, Option.bind_some] at hclass
        exact absurd hclass hd
  · rw [if_neg hid]
    split_ifs <;> simp [hid]

theorem Inv.get_of_mem (h : Inv nodeID ps) {peer : P} (hp : peer ∈ (ps.stores c).peerList) :
    (ps.stores c).peers.get (nodeID peer) = some peer := by
  obtain ⟨⟨id, p⟩, he, rfl⟩ := List.mem_map.mp ((h.lists c).mem_iff.mp hp)
  have hget := get_eq_some_iff.mpr he
  rwa [h.keyed id c p hget]

variable [DecidableEq P]

theorem Inv.register (h : Inv nodeID ps) (order : MapOrder P) (peer : P) (t : PeerType) :
    Inv nodeID (ps.register nodeID order peer t).2 := by
  rw [PttPeerSet.register]
  split_ifs with hclosed
  · exact h
  cases ht : ps.peerTypes.get (nodeID peer) with
  | none => exact h.move order t (.inr ⟨ht, rfl⟩)
  | some orig =>
    dsimp only
    split_ifs with hother heq
    · exact h
    · exact h
    · exact h.move order t (.inl ht)

theorem Inv.unregister (h : Inv nodeID ps) (order : MapOrder P) (peer : P) : Inv nodeID (ps.unregister nodeID order peer).2 := by
  rw [PttPeerSet.unregister]
  cases ht : ps.peerTypes.get (nodeID peer) with
  | none => exact h
  | some orig =>
    dsimp only
    split_ifs with hother
    · exact h
    -- one class is listed anew; listing the class of `err`, which is none, is no further change
    refine inv_of_maps orig .err h (fun d => ?_) (fun d hd _ => ?_) (fun id d => ?_) (fun id d p hp => ?_)
    · dsimp only
      rw [stores_setPeers]
      split_ifs <;> rfl
    · dsimp only
      rw [peers_deleted, if_neg hd]
    · dsimp only
      rw [peerTypes_setPeers, h.get_deleted ht, get_delete]
      split_ifs with hid
      · simp
      · exact h.classed id d
    · dsimp only at hp
      rw [h.get_deleted ht] at hp
      split_ifs at hp with hid
      exact h.keyed id d p hp

theorem Inv.get_unregister (h : Inv nodeID ps) (order : MapOrder P) {peer : P} (hp : peer ∈ (ps.stores c).peerList) (id : NodeID)
    (d : PeerClass) : (((ps.unregister nodeID order peer).2).stores d).peers.get id =
      if id = nodeID peer then none else (ps.stores d).peers.get id := by
  have hget := h.get_of_mem hp
  have hclass := (h.classed _ c).mp ⟨peer, hget⟩
  obtain ⟨t, ht, htc⟩ := Option.bind_eq_some_iff.mp hclass
  rw [PttPeerSet.unregister, ht]
  dsimp only
  rw [if_neg (by simp [getPeerWithPeerType, htc, hget])]
  change ((PttPeerSet.relist _ order t).stores d).peers.get id = _
  rw [stores_relist, ← h.get_deleted ht]
  split_ifs <;> rfl

theorem unregisterPeerByOtherUserID_cases (nodeID : P → NodeID) (ps : PttPeerSet P) (order : MapOrder P) (userID : P → Option PttID) (id : Option PttID) :
    (ps.unregisterPeerByOtherUserID nodeID order userID id).2 = ps ∧ (∀ c ≠ .me, ∀ p ∈ (ps.stores c).peerList, userID p ≠ id) ∨
      ∃ c ≠ PeerClass.me, ∃ p ∈ (ps.stores c).peerList, userID p = id ∧
        (ps.unregisterPeerByOtherUserID nodeID order userID id).2 = (ps.unregister nodeID order p).2 := by
  have hfrom : ∀ {c q}, ps.unregisterFrom nodeID order userID id c = some q →
      q.1 ∈ (ps.stores c).peerList ∧ userID q.1 = id ∧ q.2 = (ps.unregister nodeID order q.1).2 := by
    intro c q hq
    obtain ⟨peer, hfind, rfl⟩ := Option.map_eq_some_iff.1 hq
    exact ⟨List.mem_of_find?_eq_some hfind, of_decide_eq_true (List.find?_some hfind :), rfl⟩
  have hnone : ∀ {c}, ps.unregisterFrom nodeID order userID id c = none → ∀ p ∈ (ps.stores c).peerList, userID p ≠ id := by
    intro c hc p hp
    simpa using List.find?_eq_none.mp (Option.map_eq_none_iff.mp hc) p hp
  rw [PttPeerSet.unregisterPeerByOtherUserID]
  split
  next hq => exact .inr ⟨.important, by decide, _, hfrom hq⟩
  next himp =>
    split
    next hq => exact .inr ⟨.member, by decide, _, hfrom hq⟩
    next hmem =>
      split
      next hq => exact .inr ⟨.pending, by decide, _, hfrom hq⟩
      next hpen =>
        refine .inl ⟨rfl, fun c hc => ?_⟩
        cases c with
        | me => exact absurd rfl hc
        | important => exact hnone himp
        | member => exact hnone hmem
        | pending => exact hnone hpen

theorem Inv.unregisterPeerByOtherUserID (h : Inv nodeID ps) (order : MapOrder P) (userID : P → Option PttID) (id : Option PttID) :
    Inv nodeID (ps.unregisterPeerByOtherUserID nodeID order userID id).2 := by
  rcases unregisterPeerByOtherUserID_cases nodeID ps order userID id with ⟨hsame, -⟩ | ⟨_, -, p, -, -, hr⟩
  · rwa [hsame]
  · rw [hr]
    exact h.unregister order p

theorem Inv.peerCall (h : Inv nodeID ps) (c : PeerCall P) : Inv nodeID (ps.peerCall nodeID c).2 := by
  cases c with
  | register order peer t => exact h.register order peer t
  | unregister order peer => exact h.unregister order peer
  | unregisterPeerByOtherUserID order userID id => exact h.unregisterPeerByOtherUserID order userID id
  | close => exact inv_empty true

theorem unchanged_of_error (c : PeerCall P) {e : PeerSetErr} (he : (ps.peerCall nodeID c).1 = .error e) :
    (ps.peerCall nodeID c).2 = ps := by
  cases c with
  | register order peer t =>
    rw [PttPeerSet.peerCall, PttPeerSet.register] at he ⊢
    split_ifs at he ⊢ with hclosed
    · rfl
    cases ht : ps.peerTypes.get (nodeID peer) with
    | none =>
      rw [ht] at he
      cases he
    | some orig =>
      rw [ht] at he
      dsimp only at he ⊢
      split_ifs at he ⊢
      rfl
  | unregister order peer =>
    rw [PttPeerSet.peerCall, PttPeerSet.unregister] at he ⊢
    cases ht : ps.peerTypes.get (nodeID peer) with
    | none => rfl
    | some orig =>
      rw [ht] at he
      dsimp only at he ⊢
      split_ifs at he ⊢
      rfl
  | unregisterPeerByOtherUserID order userID id => cases he
  | close => cases he

theorem inv_afterCalls (nodeID : P → NodeID) (calls : List (PeerCall P)) : Inv nodeID (afterCalls nodeID calls) := by
  have hrun : ∀ (ps : PttPeerSet P), Inv nodeID ps → Inv nodeID (calls.foldl (fun ps c => (ps.peerCall nodeID c).2) ps) := by
    induction calls with
    | nil => exact fun ps h => h
    | cons c calls ih => exact fun ps h => ih _ (h.peerCall c)
  exact hrun _ (inv_empty false)

end PeerSetAux

open PeerSetAux

/-- After any calls a new set is what it is meant to represent, and a call that fails leaves it as it is. -/
theorem represented_afterCalls [DecidableEq P] (nodeID : P → NodeID) (calls : List (PeerCall P)) :
    Represented (afterCalls nodeID calls) ∧
      ∀ c e, ((afterCalls nodeID calls).peerCall nodeID c).1 = .error e →
        ((afterCalls nodeID calls).peerCall nodeID c).2 = afterCalls nodeID calls := by
  exact ⟨(inv_afterCalls nodeID calls).represented, fun c e he => unchanged_of_error c he⟩

/-- Unregistering a user leaves none of their connections among the important, member and pending ones where there was one at most: the search
returns at the first. -/
theorem unregisterPeerByOtherUserID_clears_iff [DecidableEq P] (nodeID : P → NodeID) (calls : List (PeerCall P)) (order : MapOrder P)
    (userID : P → Option PttID) (id : Option PttID) :
    let ps := afterCalls nodeID calls
    let ps' := (ps.unregisterPeerByOtherUserID nodeID order userID id).2
    ((∀ c ≠ .me, ∀ n p, (ps'.stores c).peers.get n = some p → userID p ≠ id) ∧
      ∀ p ∈ ps'.peerList, userID p = id → p ∈ (ps'.stores .me).peerList) ↔
    ∀ c ≠ .me, ∀ d ≠ .me, ∀ n m p q, (ps.stores c).peers.get n = some p → (ps.stores d).peers.get m = some q →
      userID p = id → userID q = id → p = q := by
  intro ps ps'
  have h : Inv nodeID ps := inv_afterCalls nodeID calls
  have h' : Inv nodeID ps' := h.unregisterPeerByOtherUserID order userID id
  have hlist : (∀ c ≠ .me, ∀ n p, (ps'.stores c).peers.get n = some p → userID p ≠ id) →
      ∀ p ∈ ps'.peerList, userID p = id → p ∈ (ps'.stores .me).peerList := by
    intro hclear p hp hid
    rw [h'.peerList, List.mem_append, List.mem_append] at hp
    rcases hp with (hp | hp) | hp
    · exact hp
    · exact absurd hid (hclear .important (by decide) _ p (h'.get_of_mem hp))
    · exact absurd hid (hclear .member (by decide) _ p (h'.get_of_mem hp))
  rw [and_iff_left_of_imp hlist]
  rcases unregisterPeerByOtherUserID_cases nodeID ps order userID id with ⟨hsame, hnone⟩ | ⟨e, he, r, hr, hrid, hrem⟩
  · have hclear : ∀ c ≠ .me, ∀ n p, (ps.stores c).peers.get n = some p → userID p ≠ id := by
      intro c hc n p hp
      exact hnone c hc p ((h.lists c).mem_iff.mpr (List.mem_map.mpr ⟨_, KeyStore.get_eq_some_iff.mp hp, rfl⟩))
    rw [show ps' = ps from hsame]
    exact iff_of_true hclear fun c hc d _ n m p q hp _ hpid _ => absurd hpid (hclear c hc n p hp)
  · have hget : ∀ n d, (ps'.stores d).peers.get n = if n = nodeID r then none else (ps.stores d).peers.get n := by
      intro n d
      rw [show ps' = _ from hrem]
      exact h.get_unregister order hr n d
    constructor
    · intro hclear
      -- whoever stays is not of the user, so every connection of the user is the one found
      have hall : ∀ c ≠ .me, ∀ n p, (ps.stores c).peers.get n = some p → userID p = id → p = r := by
        intro c hc n p hp hpid
        by_cases hn : n = nodeID r
        · subst hn
          have hce : some c = some e := ((h.classed _ c).mp ⟨p, hp⟩).symm.trans ((h.classed _ e).mp ⟨r, h.get_of_mem hr⟩)
          cases hce
          exact Option.some.inj (hp.symm.trans (h.get_of_mem hr))
        · exact absurd hpid (hclear c hc n p (by rw [hget, if_neg hn, hp]))
      exact fun c hc d hd n m p q hp hq hpid hqid => (hall c hc n p hp hpid).trans (hall d hd m q hq hqid).symm
    · intro hone c hc n p hp hpid
      rw [hget] at hp
      split_ifs at hp with hn
      have hpr := hone c hc e he n _ p r hp (h.get_of_mem hr) hpid hrid
      exact hn (hpr ▸ (h.keyed n c p hp).symm)

namespace PeerSetWitness

def node (n : Nat) : NodeID := ⟨ByteArrayOf.replicate 64 (UInt8.ofNat n)⟩

def user : PttID := ByteArrayOf.replicate 40 7

def order : MapOrder Nat := ⟨id, fun _ => List.Perm.refl _⟩

end PeerSetWitness

open PeerSetWitness in
/-- A member connected from two nodes keeps one connection. -/
theorem second_connection_stays :
    ((((afterCalls node [.register order 1 .member, .register order 2 .member]).unregisterPeerByOtherUserID node order
      (fun _ => some user) (some user)).2.stores .member).peers.entries.map Prod.snd) = [2] := by
  decide +kernel

end PttPeerSet

end PttaiCore
