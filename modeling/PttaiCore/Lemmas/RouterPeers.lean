import PttaiCore.RouterPeers

/-! # What the calls do to the tables -/

namespace PttaiCore

open KeyStore List

namespace RouterPeers

variable {r : RouterPeers} {c c' : Nat} {T : PeerType} {isForce : Bool} {P M : Nat → Prop}

/-! ## Fields -/

theorem tables_setTable (r : RouterPeers) (T : PeerType) (f : KeyStore NodeID Nat → KeyStore NodeID Nat) (t : PeerTable) :
    (r.setTable T f).tables t = if T.table = some t then f (r.tables t) else r.tables t := by
  unfold setTable
  cases hT : T.table with
  | none => simp
  | some u =>
    by_cases hu : t = u
    · subst hu
      simp
    · simp [Function.update_of_ne hu, Ne.symm hu]

@[simp] theorem peers_setTable (r : RouterPeers) (T : PeerType) (f : KeyStore NodeID Nat → KeyStore NodeID Nat) :
    (r.setTable T f).peers = r.peers := by
  unfold setTable
  split <;> rfl

@[simp] theorem userPeerMap_setTable (r : RouterPeers) (T : PeerType) (f : KeyStore NodeID Nat → KeyStore NodeID Nat) :
    (r.setTable T f).userPeerMap = r.userPeerMap := by
  unfold setTable
  split <;> rfl

def Sets (r : RouterPeers) (c : Nat) (T : PeerType) (isForce : Bool) : Prop :=
  (r.peers c).isToClose = false ∧ (isForce = true ∨ (r.peers c).peerType < T)

theorem setPeerType_of_not_sets (h : ¬ r.Sets c T isForce) : (r.setPeerType c T isForce).2 = r := by
  unfold setPeerType
  by_cases hclose : (r.peers c).isToClose = true
  · simp [hclose]
  · have hcond : (!isForce && decide (T ≤ (r.peers c).peerType)) = true := by
      rw [Sets, not_and_or, not_or] at h
      obtain ⟨hforce, hle⟩ := h.resolve_left (by simpa using hclose)
      simp [hforce, PeerType.not_lt.1 hle]
    simp [hclose, hcond]

section sets

variable (h : r.Sets c T isForce)
include h

theorem not_skipped : (!isForce && decide (T ≤ (r.peers c).peerType)) = false := by
  rcases h.2 with hforce | hlt
  · simp [hforce]
  · simp [show ¬ T ≤ (r.peers c).peerType from Nat.not_le.2 hlt]

theorem peers_of_sets : (r.setPeerType c T isForce).2.peers = Function.update r.peers c { r.peers c with peerType := T } := by
  unfold setPeerType
  simp only [h.1, not_skipped h, Bool.false_eq_true, if_false]
  cases (r.peers c).userID <;> simp [setPeer]

theorem userPeerMap_of_sets : (r.setPeerType c T isForce).2.userPeerMap =
    (r.peers c).userID.elim r.userPeerMap fun userID => r.userPeerMap.put userID (r.peers c).id := by
  unfold setPeerType
  simp only [h.1, not_skipped h, Bool.false_eq_true, if_false]
  cases (r.peers c).userID <;> simp [setPeer]

theorem setPeerType_of_sets : r.setPeerType c T isForce = (.ok (), (r.setPeerType c T isForce).2) := by
  unfold setPeerType
  simp only [h.1, not_skipped h, Bool.false_eq_true, if_false]
  cases (r.peers c).userID <;> rfl

theorem get_tables_of_sets (t : PeerTable) (n : NodeID) : ((r.setPeerType c T isForce).2.tables t).get n =
    if T.table = some t ∧ n = (r.peers c).id then some c
    else if (r.peers c).peerType.table = some t ∧ n = (r.peers c).id then none
    else (r.tables t).get n := by
  have htables : (r.setPeerType c T isForce).2.tables t =
      (((r.setPeer c { r.peers c with peerType := T }).setTable (r.peers c).peerType fun peers => peers.delete (r.peers c).id).setTable T
        fun peers => peers.put (r.peers c).id c).tables t := by
    unfold setPeerType
    simp only [h.1, not_skipped h, Bool.false_eq_true, if_false]
    cases (r.peers c).userID <;> rfl
  rw [htables, tables_setTable, tables_setTable]
  by_cases hnew : T.table = some t <;> by_cases hold : (r.peers c).peerType.table = some t <;> by_cases hn : n = (r.peers c).id <;>
    simp [hnew, hold, hn, setPeer]

end sets

/-! ## The connections in the tables -/

def Tabled (P M : Nat → Prop) (r : RouterPeers) : Prop := ∀ t n c, (r.tables t).get n = some c ↔
  P c ∧ ¬ M c ∧ (r.peers c).id = n ∧ (r.peers c).peerType.table = some t

structure Placed (P M : Nat → Prop) (r : RouterPeers) : Prop where
  tabled : Tabled P M r
  eq_of_id : ∀ c c', P c → P c' → (r.peers c).id = (r.peers c').id → c = c'
  isOpen : ∀ c, P c → (r.peers c).isToClose = false
  typed : ∀ c, P c → ¬ M c → (r.peers c).peerType.table ≠ none

theorem tabled_of_sets (hr : Placed P M r) (hc : P c) (h : r.Sets c T isForce) :
    Tabled P (fun c' => M c' ∧ c' ≠ c) (r.setPeerType c T isForce).2 := by
  intro t n c'
  rw [get_tables_of_sets h, peers_of_sets h]
  by_cases hcc : c' = c
  · subst hcc
    rw [Function.update_self]
    by_cases hnew : T.table = some t ∧ n = (r.peers c').id
    · rw [if_pos hnew]
      simp [hc, hnew.1, hnew.2]
    · rw [if_neg hnew]
      refine iff_of_false ?_ fun hr => hnew ⟨hr.2.2.2, hr.2.2.1.symm⟩
      split_ifs with hold
      · simp
      · intro hget
        obtain ⟨-, -, hid, htable⟩ := (hr.tabled t n c').1 hget
        exact hold ⟨htable, hid.symm⟩
  · rw [Function.update_of_ne hcc]
    have hother : n = (r.peers c).id → ¬ (P c' ∧ ¬ (M c' ∧ c' ≠ c) ∧ (r.peers c').id = n ∧ (r.peers c').peerType.table = some t) := by
      rintro rfl ⟨hc', -, hid, -⟩
      exact hcc (hr.eq_of_id c' c hc' hc hid)
    split_ifs with hnew hold
    · exact iff_of_false (fun heq => hcc (Option.some.inj heq).symm) (hother hnew.2)
    · exact iff_of_false (by simp) (hother hold.2)
    · simp only [hr.tabled t n c', and_iff_left hcc, ne_eq]

def SamePeers (r r' : RouterPeers) : Prop := ∀ c, (r'.peers c).id = (r.peers c).id ∧ (r'.peers c).userID = (r.peers c).userID ∧
  (r'.peers c).isToClose = (r.peers c).isToClose

theorem samePeers_of_eq {r' : RouterPeers} (h : r'.peers = r.peers) : SamePeers r r' := fun c => by simp [h]

theorem SamePeers.trans {r₁ r₂ r₃ : RouterPeers} (h : SamePeers r₁ r₂) (h' : SamePeers r₂ r₃) : SamePeers r₁ r₃ :=
  fun c => ⟨(h' c).1.trans (h c).1, (h' c).2.1.trans (h c).2.1, (h' c).2.2.trans (h c).2.2⟩

theorem peers_setPeerType (r : RouterPeers) (c : Nat) (T : PeerType) (isForce : Bool) (c' : Nat) :
    ∃ peerType, (r.setPeerType c T isForce).2.peers c' = { r.peers c' with peerType } ∧
      (peerType = (r.peers c').peerType ∨ c' = c ∧ peerType = T) := by
  by_cases h : r.Sets c T isForce
  · rw [peers_of_sets h]
    by_cases hc : c' = c
    · subst hc
      exact ⟨T, by rw [Function.update_self], Or.inr ⟨rfl, rfl⟩⟩
    · exact ⟨_, by rw [Function.update_of_ne hc], Or.inl rfl⟩
  · rw [setPeerType_of_not_sets h]
    exact ⟨_, rfl, .inl rfl⟩

theorem samePeers_setPeerType (r : RouterPeers) (c : Nat) (T : PeerType) (isForce : Bool) : SamePeers r (r.setPeerType c T isForce).2 := by
  intro c'
  obtain ⟨_, hpeer, -⟩ := peers_setPeerType r c T isForce c'
  rw [hpeer]
  exact ⟨rfl, rfl, rfl⟩

theorem Placed.of_tabled {r' : RouterPeers} {M' : Nat → Prop} (hr : Placed P M r) (htab : Tabled P M' r') (hpeers : SamePeers r r')
    (htyped : ∀ c, P c → ¬ M' c → (r'.peers c).peerType.table ≠ none) : Placed P M' r' := by
  refine ⟨htab, fun c c' hc hc' hid => hr.eq_of_id c c' hc hc' ?_, fun c hc => ?_, htyped⟩
  · rwa [(hpeers c).1, (hpeers c').1] at hid
  · rw [(hpeers c).2.2]
    exact hr.isOpen c hc

theorem Placed.setPeerType_of_sets (hr : Placed P M r) (hc : P c) (hT : T.table ≠ none) (h : r.Sets c T isForce) :
    Placed P (fun c' => M c' ∧ c' ≠ c) (r.setPeerType c T isForce).2 := by
  refine hr.of_tabled (tabled_of_sets hr hc h) (samePeers_setPeerType r c T isForce) fun c' hc' hm => ?_
  rw [peers_of_sets h]
  by_cases heq : c' = c
  · rw [heq, Function.update_self]
    exact hT
  · rw [Function.update_of_ne heq]
    exact hr.typed c' hc' fun h => hm ⟨h, heq⟩

theorem Placed.congr {M' : Nat → Prop} (hr : Placed P M r) (h : ∀ c, P c → (M c ↔ M' c)) : Placed P M' r := by
  refine ⟨fun t n c => ?_, hr.eq_of_id, hr.isOpen, fun c hc hm => hr.typed c hc fun hM => hm ((h c hc).1 hM)⟩
  rw [hr.tabled t n c]
  exact and_congr_right fun hc => by rw [h c hc]

theorem Placed.setPeerType (hr : Placed P M r) (hc : P c) (hmiss : ¬ M c) (hT : T.table ≠ none) : Placed P M (r.setPeerType c T isForce).2 := by
  by_cases h : r.Sets c T isForce
  · refine (hr.setPeerType_of_sets hc hT h).congr fun c' _ => ?_
    exact and_iff_left_of_imp fun hm heq => hmiss (heq ▸ hm)
  · rwa [setPeerType_of_not_sets h]

/-! ## Registering an entity -/

theorem mem_promoted (e : Entity) (order : PeerTable → MapOrder Nat) (t : PeerTable) (htab : Tabled P M r) :
    c ∈ r.promoted e order t ↔ P c ∧ ¬ M c ∧ (r.peers c).peerType.table = some t ∧ t.peerType < r.fit e c := by
  rw [promoted, mem_filter, ((order t).2 _).mem_iff, mem_map, decide_eq_true_eq]
  constructor
  · rintro ⟨⟨⟨n, c⟩, hmem, rfl⟩, hlt⟩
    obtain ⟨hc, hm, -, htable⟩ := (htab t n c).1 (get_eq_some_iff.2 hmem)
    exact ⟨hc, hm, htable, hlt⟩
  · rintro ⟨hc, hm, htable, hlt⟩
    exact ⟨⟨_, get_eq_some_iff.1 ((htab t _ c).2 ⟨hc, hm, rfl, htable⟩), rfl⟩, hlt⟩

variable (t : PeerTable) (cs : List Nat) {e : Entity}

@[simp] theorem peers_deletePeers : (r.deletePeers t cs).peers = r.peers := peers_setTable ..

@[simp] theorem userPeerMap_deletePeers : (r.deletePeers t cs).userPeerMap = r.userPeerMap :=
  userPeerMap_setTable ..

theorem Placed.deletePeers (hr : Placed P M r) (t : PeerTable) {cs : List Nat} (hcs : ∀ c ∈ cs, P c) :
    Placed P (fun c => M c ∨ c ∈ cs ∧ (r.peers c).peerType.table = some t) (r.deletePeers t cs) := by
  have htyped : ∀ c, P c → ¬ (M c ∨ c ∈ cs ∧ (r.peers c).peerType.table = some t) → ((r.deletePeers t cs).peers c).peerType.table ≠ none := by
    intro c hc hm
    rw [peers_deletePeers]
    exact hr.typed c hc fun h => hm (.inl h)
  refine hr.of_tabled (fun u n c => ?_) (samePeers_of_eq (peers_deletePeers t cs)) htyped
  rw [peers_deletePeers, RouterPeers.deletePeers, tables_setTable, PeerTable.table_peerType]
  have hmem : P c → ((r.peers c).id ∈ cs.map (fun c => (r.peers c).id) ↔ c ∈ cs) := by
    intro hc
    rw [mem_map]
    refine ⟨?_, fun h => ⟨c, h, rfl⟩⟩
    rintro ⟨c', hc', hid⟩
    exact hr.eq_of_id c' c (hcs c' hc') hc hid ▸ hc'
  by_cases hu : t = u
  · subst hu
    rw [if_pos rfl, get_deleteAll]
    have := hr.tabled t n c
    by_cases hn : n ∈ cs.map fun c => (r.peers c).id
    · rw [if_pos hn]
      refine iff_of_false (by simp) ?_
      rintro ⟨hc, hm, rfl, htable⟩
      exact hm (.inr ⟨(hmem hc).1 hn, htable⟩)
    · rw [if_neg hn, this]
      refine and_congr_right fun hc => ⟨?_, ?_⟩
      · rintro ⟨hm, rfl, htable⟩
        exact ⟨fun h => h.elim hm fun h => hn ((hmem hc).2 h.1), rfl, htable⟩
      · rintro ⟨hm, hid, htable⟩
        exact ⟨fun h => hm (.inl h), hid, htable⟩
  · rw [if_neg (by simpa using hu), hr.tabled u n c]
    refine and_congr_right fun hc => ⟨?_, ?_⟩
    · rintro ⟨hm, hid, htable⟩
      refine ⟨fun h => h.elim hm fun h => hu ?_, hid, htable⟩
      exact Option.some.inj (h.2.symm.trans htable)
    · rintro ⟨hm, hid, htable⟩
      exact ⟨fun h => hm (.inl h), hid, htable⟩

@[simp] theorem setPeerTypes_cons : r.setPeerTypes T (c :: cs) = (r.setPeerType c T false).2.setPeerTypes T cs := rfl

theorem peers_setPeerTypes_of_not_mem {cs : List Nat} (h : c ∉ cs) : (r.setPeerTypes T cs).peers c = r.peers c := by
  induction cs generalizing r with
  | nil => rfl
  | cons c' cs ih =>
    rw [mem_cons, not_or] at h
    rw [setPeerTypes_cons, ih h.2]
    obtain ⟨peerType, hpeer, rfl | ⟨heq, -⟩⟩ := peers_setPeerType r c' T false c
    · exact hpeer
    · exact absurd heq h.1

theorem Placed.setPeerTypes (hr : Placed P M r) (hT : T.table ≠ none) {cs : List Nat} (hcs : ∀ c ∈ cs, P c)
    (hless : ∀ c ∈ cs, M c → (r.peers c).peerType < T) : Placed P (fun c => M c ∧ c ∉ cs) (r.setPeerTypes T cs) := by
  induction cs generalizing r M with
  | nil => exact hr.congr fun c _ => by simp
  | cons c cs ih =>
    rw [forall_mem_cons] at hcs hless
    have hplaced : Placed P (fun c' => M c' ∧ c' ≠ c) (r.setPeerType c T false).2 := by
      by_cases hsets : r.Sets c T false
      · exact hr.setPeerType_of_sets hcs.1 hT hsets
      · rw [setPeerType_of_not_sets hsets]
        refine hr.congr fun c' _ => (and_iff_left_of_imp fun hm heq => ?_).symm
        subst heq
        exact hsets ⟨hr.isOpen c' hcs.1, .inr (hless.1 hm)⟩
    refine (ih hplaced hcs.2 fun c' hc' hm => ?_).congr fun c' _ => ?_
    · obtain ⟨peerType, hpeer, rfl | ⟨heq, -⟩⟩ := peers_setPeerType r c T false c'
      · rw [hpeer]
        exact hless.2 c' hc' hm.1
      · exact absurd heq hm.2
    · rw [mem_cons, not_or, and_assoc]

def Promotes (fit : Nat → PeerType) (M : Nat → Prop) (r : RouterPeers) : Prop := ∀ c, M c → (r.peers c).peerType < fit c

theorem Placed.setPeerTypes_fit {fit : Nat → PeerType} {cs : List Nat} (hr : Placed P M r) (hpro : Promotes fit M r) (hT : T.table ≠ none)
    (hcs : ∀ c ∈ cs, P c) :
    Placed P (fun c => M c ∧ c ∉ cs.filter fun c => decide (fit c = T)) (r.setPeerTypes T (cs.filter fun c => decide (fit c = T))) ∧
      Promotes fit (fun c => M c ∧ c ∉ cs.filter fun c => decide (fit c = T)) (r.setPeerTypes T (cs.filter fun c => decide (fit c = T))) := by
  constructor
  · refine hr.setPeerTypes hT (fun c hc => hcs c (mem_of_mem_filter hc)) fun c hc hm => ?_
    rw [← of_decide_eq_true (mem_filter.1 hc).2]
    exact hpro c hm
  · rintro c ⟨hm, hc⟩
    rw [peers_setPeerTypes_of_not_mem hc]
    exact hpro c hm

theorem fit_cases {p : PttPeer} {t : PeerTable} (h : t.peerType < e.getPeerType p) :
    e.getPeerType p = .me ∨ e.getPeerType p = .important ∨ e.getPeerType p = .member ∨ e.getPeerType p = .pending := by
  unfold Entity.getPeerType at h ⊢
  split_ifs at h ⊢
  · simp
  · simp
  · simp
  · simp
  · revert h
    cases t <;> decide

theorem eq_peerType_of_table {t : PeerTable} (h : T.table = some t) : T = t.peerType := by
  cases T <;> cases h <;> rfl

def setFit (r : RouterPeers) (fit : Nat → PeerType) (cs : List Nat) : RouterPeers :=
  let toPeers := fun peerType => cs.filter fun c => decide (fit c = peerType)
  (((r.setPeerTypes .me (toPeers .me)).setPeerTypes .important (toPeers .important)).setPeerTypes .member (toPeers .member)).setPeerTypes .pending
    (toPeers .pending)

structure Collected (P : Nat → Prop) (e : Entity) (r : RouterPeers) (cs : List Nat) (r' : RouterPeers) : Prop where
  peers : r'.peers = r.peers
  userPeerMap : r'.userPeerMap = r.userPeerMap
  placed : ∃ M, Placed P M r' ∧ ∀ c, M c → c ∈ cs
  isPromoted : ∀ c ∈ cs, P c ∧ (r.peers c).peerType < r.fit e c ∧
    (r.fit e c = .me ∨ r.fit e c = .important ∨ r.fit e c = .member ∨ r.fit e c = .pending)

theorem Collected.collect {cs : List Nat} {r' : RouterPeers} (h : Collected P e r cs r') (order : PeerTable → MapOrder Nat)
    (t t' : PeerTable) : Collected P e r (cs ++ r'.promoted e order t) (r'.deletePeers t' (r'.promoted e order t)) := by
  obtain ⟨M, hr, hM⟩ := h.placed
  have hnew : ∀ c ∈ r'.promoted e order t, P c ∧ (r.peers c).peerType < r.fit e c ∧
      (r.fit e c = .me ∨ r.fit e c = .important ∨ r.fit e c = .member ∨ r.fit e c = .pending) := by
    intro c hc
    obtain ⟨hP, -, htable, hlt⟩ := (mem_promoted e order t hr.tabled).1 hc
    rw [h.peers] at htable
    rw [fit, h.peers] at hlt
    rw [eq_peerType_of_table htable]
    exact ⟨hP, hlt, fit_cases hlt⟩
  refine ⟨by rw [peers_deletePeers, h.peers], by rw [userPeerMap_deletePeers, h.userPeerMap], ⟨_, hr.deletePeers t' fun c hc => (hnew c hc).1, fun c hc => ?_⟩, fun c hc => ?_⟩
  · exact mem_append.2 (hc.imp (hM c) And.left)
  · exact (mem_append.1 hc).elim (h.isPromoted c) (hnew c)

theorem Collected.placed_setPeerTypes {cs : List Nat} {r' : RouterPeers} (h : Collected P e r cs r') :
    Placed P (fun _ => False) (r'.setFit (r.fit e) cs) := by
  obtain ⟨M, hr, hM⟩ := h.placed
  have hcs : ∀ c ∈ cs, P c := fun c hc => (h.isPromoted c hc).1
  have hpro : Promotes (r.fit e) M r' := by
    intro c hc
    rw [h.peers]
    exact (h.isPromoted c (hM c hc)).2.1
  obtain ⟨hme, hpro⟩ := hr.setPeerTypes_fit (T := .me) hpro (by decide) hcs
  obtain ⟨himportant, hpro⟩ := hme.setPeerTypes_fit (T := .important) hpro (by decide) hcs
  obtain ⟨hmember, hpro⟩ := himportant.setPeerTypes_fit (T := .member) hpro (by decide) hcs
  obtain ⟨hpending, -⟩ := hmember.setPeerTypes_fit (T := .pending) hpro (by decide) hcs
  refine hpending.congr fun c _ => iff_of_false ?_ id
  rintro ⟨⟨⟨⟨hm, hne⟩, hne₁⟩, hne₂⟩, hne₃⟩
  have hc := hM c hm
  rcases (h.isPromoted c hc).2.2 with hfit | hfit | hfit | hfit
  · exact hne (mem_filter.2 ⟨hc, decide_eq_true hfit⟩)
  · exact hne₁ (mem_filter.2 ⟨hc, decide_eq_true hfit⟩)
  · exact hne₂ (mem_filter.2 ⟨hc, decide_eq_true hfit⟩)
  · exact hne₃ (mem_filter.2 ⟨hc, decide_eq_true hfit⟩)

/-! ## The users -/

structure Users (P : Nat → Prop) (r : RouterPeers) : Prop where
  get_ne_none : ∀ c userID, P c → (r.peers c).userID = some userID → r.userPeerMap.get userID ≠ none
  exists_of_get : ∀ userID n, r.userPeerMap.get userID = some n → ∃ c, P c ∧ (r.peers c).userID = some userID ∧ (r.peers c).id = n

theorem Users.congr {r' : RouterPeers} (hr : Users P r) (hpeers : SamePeers r r')
    (hmap : r'.userPeerMap = r.userPeerMap) : Users P r' := by
  constructor
  · intro c userID hc huser
    rw [(hpeers c).2.1] at huser
    rw [hmap]
    exact hr.get_ne_none c userID hc huser
  · intro userID n hget
    rw [hmap] at hget
    obtain ⟨c, hc, huser, hid⟩ := hr.exists_of_get userID n hget
    exact ⟨c, hc, (hpeers c).2.1.trans huser, (hpeers c).1.trans hid⟩

theorem Users.put (hr : Users P r) (hc : P c) {userID : PttID} (huser : (r.peers c).userID = some userID) :
    Users P { r with userPeerMap := r.userPeerMap.put userID (r.peers c).id } := by
  constructor
  · intro c' userID' hc' huser'
    rw [get_put]
    split_ifs
    · simp
    · exact hr.get_ne_none c' userID' hc' huser'
  · intro userID' n hget
    rw [get_put] at hget
    split_ifs at hget with heq
    · subst heq
      cases hget
      exact ⟨c, hc, huser, rfl⟩
    · exact hr.exists_of_get userID' n hget

theorem Users.setPeerType (hr : Users P r) (hc : P c) : Users P (r.setPeerType c T isForce).2 := by
  by_cases h : r.Sets c T isForce
  · have hmap := userPeerMap_of_sets h
    cases huser : (r.peers c).userID with
    | none =>
      rw [huser] at hmap
      exact hr.congr (samePeers_setPeerType r c T isForce) hmap
    | some userID =>
      rw [huser] at hmap
      exact (hr.put hc huser).congr (samePeers_setPeerType r c T isForce) hmap
  · rwa [setPeerType_of_not_sets h]

theorem Users.setPeerTypes (hr : Users P r) {cs : List Nat} (hcs : ∀ c ∈ cs, P c) : Users P (r.setPeerTypes T cs) := by
  induction cs generalizing r with
  | nil => exact hr
  | cons c cs ih =>
    rw [forall_mem_cons] at hcs
    exact ih (hr.setPeerType hcs.1) hcs.2

theorem samePeers_setPeerTypes (r : RouterPeers) (T : PeerType) (cs : List Nat) : SamePeers r (r.setPeerTypes T cs) := by
  induction cs generalizing r with
  | nil => exact samePeers_of_eq rfl
  | cons c cs ih => exact (samePeers_setPeerType r c T false).trans (ih _)

theorem Collected.users_setPeerTypes {cs : List Nat} {r' : RouterPeers} (h : Collected P e r cs r') (hu : Users P r) :
    Users P (r'.setFit (r.fit e) cs) := by
  have hcs : ∀ T, ∀ c ∈ cs.filter (fun c => decide (r.fit e c = T)), P c := fun T c hc => (h.isPromoted c (mem_of_mem_filter hc)).1
  have hu' : Users P r' := hu.congr (samePeers_of_eq h.peers) h.userPeerMap
  exact (((hu'.setPeerTypes (hcs .me)).setPeerTypes (hcs .important)).setPeerTypes (hcs .member)).setPeerTypes (hcs .pending)

theorem samePeers_setFit (r : RouterPeers) (fit : Nat → PeerType) (cs : List Nat) : SamePeers r (r.setFit fit cs) :=
  (((samePeers_setPeerTypes r .me _).trans (samePeers_setPeerTypes _ .important _)).trans (samePeers_setPeerTypes _ .member _)).trans
    (samePeers_setPeerTypes _ .pending _)

theorem registerEntityPeers_spec (hr : Placed P (fun _ => False) r) (hu : Users P r) (e : Entity) (order : PeerTable → MapOrder Nat) :
    Placed P (fun _ => False) (r.registerEntityPeers e order) ∧ Users P (r.registerEntityPeers e order) ∧
      SamePeers r (r.registerEntityPeers e order) := by
  have hnil : Collected P e r [] r := ⟨rfl, rfl, ⟨_, hr, fun _ h => h.elim⟩, fun _ h => absurd h not_mem_nil⟩
  have hall := (((hnil.collect order .important .important).collect order .member .member).collect order .pending .member).collect order
    .random .random
  exact ⟨hall.placed_setPeerTypes, hall.users_setPeerTypes hu, (samePeers_of_eq hall.peers).trans (samePeers_setFit _ _ _)⟩

/-! ## Records -/

@[simp] theorem peers_setPeer_self (r : RouterPeers) (c : Nat) (p : RouterPeer) : (r.setPeer c p).peers c = p := Function.update_self ..

theorem peers_setPeer_of_ne (h : c' ≠ c) (p : RouterPeer) : (r.setPeer c p).peers c' = r.peers c' := by simp [setPeer, h]

@[simp] theorem tables_setPeer (r : RouterPeers) (c : Nat) (p : RouterPeer) : (r.setPeer c p).tables = r.tables := rfl

theorem Placed.of_tables_eq {r' : RouterPeers} (hr : Placed P M r) (htables : r'.tables = r.tables)
    (hpeers : ∀ c, P c → (r'.peers c).id = (r.peers c).id ∧ (r'.peers c).peerType = (r.peers c).peerType ∧
      (r'.peers c).isToClose = (r.peers c).isToClose) : Placed P M r' := by
  refine ⟨fun t n c => ?_, fun c₁ c₂ h₁ h₂ h => ?_, fun c hc => ?_, fun c hc hm => ?_⟩
  · rw [htables]
    refine (hr.tabled t n c).trans (and_congr_right fun hc => ?_)
    rw [(hpeers c hc).1, (hpeers c hc).2.1]
  · rw [(hpeers c₁ h₁).1, (hpeers c₂ h₂).1] at h
    exact hr.eq_of_id c₁ c₂ h₁ h₂ h
  · rw [(hpeers c hc).2.2]
    exact hr.isOpen c hc
  · rw [(hpeers c hc).2.1]
    exact hr.typed c hc hm

theorem Placed.setPeer (hr : Placed P M r) {p : RouterPeer} (hp : P c → p.id = (r.peers c).id ∧ p.peerType = (r.peers c).peerType ∧
    p.isToClose = (r.peers c).isToClose) : Placed P M (r.setPeer c p) := by
  refine hr.of_tables_eq rfl fun c' hc' => ?_
  by_cases hc : c' = c
  · subst hc
    rw [peers_setPeer_self]
    exact hp hc'
  · rw [peers_setPeer_of_ne hc]
    exact ⟨rfl, rfl, rfl⟩

theorem Users.setPeer (hr : Users P r) {p : RouterPeer} (hp : P c → p.id = (r.peers c).id ∧ p.userID = (r.peers c).userID) :
    Users P (r.setPeer c p) := by
  have hpeers : ∀ c', P c' → ((r.setPeer c p).peers c').id = (r.peers c').id ∧ ((r.setPeer c p).peers c').userID = (r.peers c').userID := by
    intro c' hc'
    by_cases hc : c' = c
    · subst hc
      rw [peers_setPeer_self]
      exact hp hc'
    · rw [peers_setPeer_of_ne hc]
      exact ⟨rfl, rfl⟩
  constructor
  · intro c' userID hc' huser
    rw [(hpeers c' hc').2] at huser
    exact hr.get_ne_none c' userID hc' huser
  · intro userID n hget
    obtain ⟨c', hc', huser, hid⟩ := hr.exists_of_get userID n hget
    exact ⟨c', hc', (hpeers c' hc').2.trans huser, (hpeers c' hc').1.trans hid⟩

theorem samePeers_setPeer (r : RouterPeers) (c : Nat) {p : RouterPeer} (h : p.id = (r.peers c).id ∧ p.userID = (r.peers c).userID ∧
    p.isToClose = (r.peers c).isToClose) : SamePeers r (r.setPeer c p) := by
  intro c'
  by_cases hc : c' = c
  · subst hc
    rwa [peers_setPeer_self]
  · rw [peers_setPeer_of_ne hc]
    exact ⟨rfl, rfl, rfl⟩

/-! ## Working out the part -/

theorem table_determinePeerType (es : PeerEntities) (p : PttPeer) : (es.determinePeerTypeFromAllEntities p).table ≠ none := by
  unfold PeerEntities.determinePeerTypeFromAllEntities
  split_ifs <;> decide

inductive Moves (c : Nat) (r : RouterPeers) : RouterPeers → Prop
  | refl : Moves c r r
  | setPeerType {r' : RouterPeers} {T : PeerType} (h : Moves c r r') (isForce : Bool) (hT : T.table ≠ none) :
      Moves c r (r'.setPeerType c T isForce).2
  | setRegistered {r' : RouterPeers} (h : Moves c r r') (isRegistered : Bool) : Moves c r (r'.setPeer c { r'.peers c with isRegistered })

section moves

variable {r' : RouterPeers}

theorem Moves.samePeers (h : Moves c r r') : SamePeers r r' := by
  induction h with
  | refl => exact samePeers_of_eq rfl
  | setPeerType _ isForce _ ih => exact ih.trans (samePeers_setPeerType _ c _ isForce)
  | setRegistered _ _ ih => exact ih.trans (samePeers_setPeer _ c ⟨rfl, rfl, rfl⟩)

theorem Placed.moves (hr : Placed P M r) (hc : P c) (hm : ¬ M c) (h : Moves c r r') : Placed P M r' := by
  induction h with
  | refl => exact hr
  | setPeerType _ _ hT ih => exact ih.setPeerType hc hm hT
  | setRegistered _ _ ih => exact ih.setPeer fun _ => ⟨rfl, rfl, rfl⟩

theorem Users.moves (hr : Users P r) (hc : P c) (h : Moves c r r') : Users P r' := by
  induction h with
  | refl => exact hr
  | setPeerType _ _ _ ih => exact ih.setPeerType hc
  | setRegistered _ _ ih => exact ih.setPeer fun _ => ⟨rfl, rfl⟩

theorem Moves.addPeerKnownUserID (h : Moves c r r') (hT : T.table ≠ none) : Moves c r (r'.addPeerKnownUserID c T).2 := by
  unfold RouterPeers.addPeerKnownUserID
  split
  · exact h
  · exact h.setPeerType false hT

theorem moves_resetPeerType (r : RouterPeers) (es : PeerEntities) (c : Nat) (isForceReset : Bool) :
    Moves c r (r.resetPeerType es c isForceReset).2 := by
  unfold resetPeerType
  split_ifs
  · exact .refl
  · exact .refl
  · exact (Moves.refl.setPeerType true (by decide)).addPeerKnownUserID (table_determinePeerType es _)
  · exact Moves.refl.addPeerKnownUserID (table_determinePeerType es _)

end moves

def unregister (r : RouterPeers) (c : Nat) : RouterPeers := ((r.setPeer c { r.peers c with isRegistered := false }).setPeerType c .random true).2

def setupUnregistered (r : RouterPeers) (es : PeerEntities) (c : Nat) : RouterPeers :=
  if (r.peers c).isRegistered then r else (r.setupPeer c (es.determinePeerTypeFromAllEntities (r.peers c).toPttPeer)).2

theorem finishIdentifyPeer_eq (h : (r.peers c).userID ≠ none) (es : PeerEntities) (isResetPeerType : Bool) :
    (r.finishIdentifyPeer es c isResetPeerType).2 = (if isResetPeerType then r.unregister c else r).setupUnregistered es c := by
  rw [finishIdentifyPeer, if_neg h]
  exact apply_ite Prod.snd _ _ _

theorem moves_unregister (r : RouterPeers) (c : Nat) : Moves c r (r.unregister c) := (Moves.refl.setRegistered false).setPeerType true (by decide)

theorem Moves.setupUnregistered {r' : RouterPeers} (h : Moves c r r') (es : PeerEntities) : Moves c r (r'.setupUnregistered es c) := by
  have hadd := h.addPeerKnownUserID (table_determinePeerType es (r'.peers c).toPttPeer)
  unfold RouterPeers.setupUnregistered RouterPeers.setupPeer
  split_ifs
  · exact h
  · exact h
  · revert hadd
    cases r'.addPeerKnownUserID c (es.determinePeerTypeFromAllEntities (r'.peers c).toPttPeer) with
    | mk res r₂ =>
      intro hadd
      cases res with
      | error e => exact hadd
      | ok _ => exact hadd.setRegistered true

theorem moves_finishIdentifyPeer (huser : (r.peers c).userID ≠ none) (es : PeerEntities) (isResetPeerType : Bool) :
    Moves c r (r.finishIdentifyPeer es c isResetPeerType).2 := by
  rw [finishIdentifyPeer_eq huser]
  split_ifs
  · exact (moves_unregister r c).setupUnregistered es
  · exact Moves.refl.setupUnregistered es

theorem finishIdentifyPeer_of_isToClose (h : (r.peers c).isToClose = true) (huser : (r.peers c).userID ≠ none) (es : PeerEntities)
    (isResetPeerType : Bool) : ∃ p, (r.finishIdentifyPeer es c isResetPeerType).2 = r.setPeer c p := by
  have hset : ∀ {r : RouterPeers}, (r.peers c).isToClose = true → ∀ T isForce, r.setPeerType c T isForce = (.error .toClose, r) := by
    intro r h T isForce
    simp [RouterPeers.setPeerType, h]
  have hsetup : ∀ {r : RouterPeers}, (r.peers c).isToClose = true → r.setupUnregistered es c = r := by
    intro r h
    unfold RouterPeers.setupUnregistered RouterPeers.setupPeer RouterPeers.addPeerKnownUserID
    rw [hset h]
    split_ifs
    · rfl
    · rfl
    · cases r.validatePeer (r.peers c).id (r.peers c).userID (es.determinePeerTypeFromAllEntities (r.peers c).toPttPeer) <;> rfl
  rw [finishIdentifyPeer_eq huser]
  cases isResetPeerType with
  | false =>
    refine ⟨r.peers c, ?_⟩
    rw [if_neg Bool.false_ne_true, hsetup h, RouterPeers.setPeer, Function.update_eq_self]
  | true =>
    have hclosed : ((r.setPeer c { r.peers c with isRegistered := false }).peers c).isToClose = true := by simpa using h
    refine ⟨{ r.peers c with isRegistered := false }, ?_⟩
    rw [if_pos rfl, RouterPeers.unregister, hset hclosed, hsetup hclosed]

/-! ## What identifying does to the users -/

section identify

variable {userID : PttID} (hopen : (r.peers c).isToClose = false) (huser : (r.peers c).userID = some userID)
include hopen huser

theorem get_userPeerMap_setPeerType (T : PeerType) (isForce : Bool) (u : PttID) : (r.setPeerType c T isForce).2.userPeerMap.get u =
    if (isForce = true ∨ (r.peers c).peerType < T) ∧ u = userID then some (r.peers c).id else r.userPeerMap.get u := by
  by_cases h : isForce = true ∨ (r.peers c).peerType < T
  · rw [userPeerMap_of_sets ⟨hopen, h⟩, huser, Option.elim_some, get_put]
    simp only [h, true_and]
    split_ifs <;> rfl
  · rw [setPeerType_of_not_sets fun hsets => h hsets.2]
    simp only [h, false_and, if_false]

theorem get_userPeerMap_addPeerKnownUserID (u : PttID) : (r.addPeerKnownUserID c T).2.userPeerMap.get u =
    if (r.validatePeer (r.peers c).id (some userID) T = .ok () ∧ (r.peers c).peerType < T) ∧ u = userID then some (r.peers c).id
    else r.userPeerMap.get u := by
  unfold addPeerKnownUserID
  rw [huser]
  cases hvalid : r.validatePeer (r.peers c).id (some userID) T with
  | error e => simp
  | ok _ =>
    have := get_userPeerMap_setPeerType hopen huser T false u
    simpa using this

theorem get_userPeerMap_setupUnregistered (es : PeerEntities) (u : PttID) : (r.setupUnregistered es c).userPeerMap.get u =
    if ((r.peers c).isRegistered = false ∧ r.validatePeer (r.peers c).id (some userID) (es.determinePeerTypeFromAllEntities (r.peers c).toPttPeer) =
        .ok () ∧ (r.peers c).peerType < es.determinePeerTypeFromAllEntities (r.peers c).toPttPeer) ∧ u = userID then some (r.peers c).id
    else r.userPeerMap.get u := by
  unfold setupUnregistered
  cases hreg : (r.peers c).isRegistered with
  | true => simp
  | false =>
    have hadd := get_userPeerMap_addPeerKnownUserID (T := es.determinePeerTypeFromAllEntities (r.peers c).toPttPeer) hopen huser u
    unfold setupPeer
    rw [if_neg Bool.false_ne_true, if_neg (by rw [huser]; simp)]
    simp only [true_and]
    rw [← hadd]
    cases r.addPeerKnownUserID c (es.determinePeerTypeFromAllEntities (r.peers c).toPttPeer) with
    | mk res r' => cases res <;> rfl

theorem get_userPeerMap_finishIdentifyPeer (es : PeerEntities) (isResetPeerType : Bool) (u : PttID) :
    (r.finishIdentifyPeer es c isResetPeerType).2.userPeerMap.get u =
      if (isResetPeerType = true ∨ (r.peers c).isRegistered = false ∧
        r.validatePeer (r.peers c).id (some userID) (es.determinePeerTypeFromAllEntities (r.peers c).toPttPeer) = .ok () ∧
        (r.peers c).peerType < es.determinePeerTypeFromAllEntities (r.peers c).toPttPeer) ∧ u = userID then some (r.peers c).id
      else r.userPeerMap.get u := by
  rw [finishIdentifyPeer_eq (by simp [huser])]
  cases isResetPeerType with
  | false => simpa using get_userPeerMap_setupUnregistered hopen huser es u
  | true =>
    have hsame : SamePeers r (r.unregister c) := (moves_unregister r c).samePeers
    have hget : (r.unregister c).userPeerMap.get u = if u = userID then some (r.peers c).id else r.userPeerMap.get u := by
      have := get_userPeerMap_setPeerType (r := r.setPeer c { r.peers c with isRegistered := false }) (c := c) (by simpa using hopen)
        (by simpa using huser) .random true u
      simpa [unregister, setPeer] using this
    rw [if_pos rfl, get_userPeerMap_setupUnregistered ((hsame c).2.2.trans hopen) ((hsame c).2.1.trans huser), hget, (hsame c).1]
    by_cases hu : u = userID
    · simp [hu]
    · simp [hu]

end identify

theorem users_identify_iff {r' : RouterPeers} {W : Prop} [Decidable W] {userID : PttID} (hr : Users P r) (hone : Placed P M r) (hc : P c)
    (hid : ∀ c', (r'.peers c').id = (r.peers c').id) (huser : (r'.peers c).userID = some userID)
    (hother : ∀ c' ≠ c, (r'.peers c').userID = (r.peers c').userID)
    (hget : ∀ u, r'.userPeerMap.get u = if W ∧ u = userID then some (r.peers c).id else r.userPeerMap.get u) :
    Users P r' ↔ (∀ u, (r.peers c).userID = some u → u ≠ userID → r.userPeerMap.get u ≠ some (r.peers c).id) ∧
      (W ∨ ∃ c', P c' ∧ (r.peers c').userID = some userID) := by
  constructor
  · intro h
    constructor
    · intro u hold hne hentry
      -- the entry stays, and no other connection leads to the node
      have hentry' : r'.userPeerMap.get u = some (r.peers c).id := by rw [hget, if_neg fun h => hne h.2, hentry]
      obtain ⟨c', hc', huser', hid'⟩ := h.exists_of_get u _ hentry'
      rw [hid c'] at hid'
      rw [hone.eq_of_id c' c hc' hc hid', huser] at huser'
      exact hne (Option.some.inj huser').symm
    · by_cases hW : W
      · exact .inl hW
      · have hentry := h.get_ne_none c userID hc huser
        rw [hget, if_neg fun h => hW h.1] at hentry
        obtain ⟨n, hn⟩ := Option.ne_none_iff_exists'.1 hentry
        obtain ⟨c', hc', huser', -⟩ := hr.exists_of_get userID n hn
        exact .inr ⟨c', hc', huser'⟩
  · rintro ⟨hold, hnew⟩
    constructor
    · intro c' u hc' huser'
      rw [hget]
      split_ifs with hW
      · simp
      · by_cases hcc : c' = c
        · subst hcc
          cases huser.symm.trans huser'
          obtain ⟨c', hc', huser'⟩ := hnew.resolve_left fun h => hW ⟨h, rfl⟩
          exact hr.get_ne_none c' _ hc' huser'
        · rw [hother c' hcc] at huser'
          exact hr.get_ne_none c' u hc' huser'
    · intro u n hentry
      rw [hget] at hentry
      split_ifs at hentry with hW
      · rw [hW.2]
        exact ⟨c, hc, huser, (hid c).trans (Option.some.inj hentry)⟩
      · obtain ⟨c', hc', huser', rfl⟩ := hr.exists_of_get u n hentry
        by_cases hcc : c' = c
        · subst hcc
          by_cases hu : u = userID
          · exact ⟨c', hc', hu ▸ huser, hid c'⟩
          · exact absurd hentry (hold u huser' hu)
        · exact ⟨c', hc', (hother c' hcc).trans huser', hid c'⟩

/-! ## Adding and removing -/

theorem Placed.setPeerType_new (hr : Placed P (fun _ => False) r) (hc : ¬ P c) (hclose : (r.peers c).isToClose = false)
    (hnew : ∀ c', P c' → (r.peers c').id ≠ (r.peers c).id) (hT : T.table ≠ none) (hsets : r.Sets c T isForce) :
    Placed (fun c' => P c' ∨ c' = c) (fun _ => False) (r.setPeerType c T isForce).2 := by
  have hmissing : Placed (fun c' => P c' ∨ c' = c) (fun c' => c' = c) r := by
    refine ⟨fun t n c' => ?_, ?_, ?_, ?_⟩
    · rw [hr.tabled t n c']
      constructor
      · rintro ⟨hc', -, h⟩
        exact ⟨.inl hc', fun heq => hc (heq ▸ hc'), h⟩
      · rintro ⟨hc', hne, h⟩
        exact ⟨hc'.resolve_right hne, not_false, h⟩
    · rintro c₁ c₂ (h₁ | rfl) (h₂ | rfl) hid
      · exact hr.eq_of_id c₁ c₂ h₁ h₂ hid
      · exact absurd hid (hnew c₁ h₁)
      · exact absurd hid.symm (hnew c₂ h₂)
      · rfl
    · rintro c' (hc' | rfl)
      · exact hr.isOpen c' hc'
      · exact hclose
    · rintro c' (hc' | rfl) hne
      · exact hr.typed c' hc' not_false
      · exact absurd rfl hne
  exact (hmissing.setPeerType_of_sets (.inr rfl) hT hsets).congr fun c' _ => iff_of_false (fun h => h.2 h.1) not_false

theorem Users.insert (hr : Users P r) (huser : (r.peers c).userID = none) : Users (fun c' => P c' ∨ c' = c) r := by
  constructor
  · rintro c' userID (hc' | rfl) huser'
    · exact hr.get_ne_none c' userID hc' huser'
    · simp [huser] at huser'
  · intro userID n hget
    obtain ⟨c', hc', h⟩ := hr.exists_of_get userID n hget
    exact ⟨c', .inl hc', h⟩

theorem removePeer_cases (r : RouterPeers) (c : Nat) : r.removePeer c = r.setPeer c { r.peers c with isToClose := true } ∨
    r.removePeer c = (r.setPeer c { r.peers c with isToClose := true }).setTable (r.peers c).peerType
      fun peers => peers.delete (r.peers c).id := by
  cases ht : (r.peers c).peerType.table with
  | none => simp [removePeer, unsetPeerType, ht]
  | some t =>
    by_cases hget : (r.tables t).get (r.peers c).id = some c
    · simp [removePeer, unsetPeerType, ht, hget]
    · simp [removePeer, unsetPeerType, ht, hget]

theorem peers_removePeer (r : RouterPeers) (c : Nat) : (r.removePeer c).peers = (r.setPeer c { r.peers c with isToClose := true }).peers := by
  rcases removePeer_cases r c with h | h
  · rw [h]
  · rw [h, peers_setTable]

theorem userPeerMap_removePeer (r : RouterPeers) (c : Nat) : (r.removePeer c).userPeerMap = r.userPeerMap := by
  rcases removePeer_cases r c with h | h
  · rw [h]
    rfl
  · rw [h, userPeerMap_setTable]
    rfl

theorem removePeer_of_not (hr : Placed P M r) (hc : ¬ P c) : r.removePeer c = r.setPeer c { r.peers c with isToClose := true } := by
  cases ht : (r.peers c).peerType.table with
  | none => simp [RouterPeers.removePeer, unsetPeerType, ht]
  | some t =>
    have hget : (r.tables t).get (r.peers c).id ≠ some c := fun hget => hc ((hr.tabled t _ c).1 hget).1
    simp [RouterPeers.removePeer, unsetPeerType, ht, hget]

theorem Placed.removePeer (hr : Placed P (fun _ => False) r) (hc : P c) :
    Placed (fun c' => P c' ∧ c' ≠ c) (fun _ => False) (r.removePeer c) := by
  obtain ⟨t, ht⟩ := Option.ne_none_iff_exists'.1 (hr.typed c hc not_false)
  have hget : (r.tables t).get (r.peers c).id = some c := (hr.tabled t _ c).2 ⟨hc, not_false, rfl, ht⟩
  have hremove : r.removePeer c = (r.setPeer c { r.peers c with isToClose := true }).setTable (r.peers c).peerType
      fun peers => peers.delete (r.peers c).id := by
    simp [RouterPeers.removePeer, unsetPeerType, ht, hget]
  have hpeers : ∀ c' ≠ c, (r.removePeer c).peers c' = r.peers c' := by
    intro c' hne
    rw [peers_removePeer, peers_setPeer_of_ne hne]
  refine ⟨fun u n c' => ?_, ?_, ?_, ?_⟩
  · rw [hremove, tables_setTable, ht, peers_setTable]
    by_cases hcc : c' = c
    · subst hcc
      refine iff_of_false ?_ fun h => h.1.2 rfl
      split_ifs with hu
      · cases hu
        rw [get_delete]
        split_ifs with hn
        · simp
        · exact fun h => hn ((hr.tabled t n c').1 h).2.2.1.symm
      · exact fun h => hu (ht.symm.trans ((hr.tabled u n c').1 h).2.2.2)
    · rw [peers_setPeer_of_ne hcc]
      have hold : (r.tables u).get n = some c' ↔ (P c' ∧ c' ≠ c) ∧ ¬ False ∧ (r.peers c').id = n ∧ (r.peers c').peerType.table = some u := by
        rw [hr.tabled u n c', and_iff_left hcc]
      split_ifs with hu
      · rw [get_delete]
        split_ifs with hn
        · refine iff_of_false (by simp) ?_
          rintro ⟨⟨hc', -⟩, -, hid, -⟩
          exact hcc (hr.eq_of_id c' c hc' hc (hid.trans hn))
        · exact hold
      · exact hold
  · rintro c₁ c₂ ⟨h₁, hne₁⟩ ⟨h₂, hne₂⟩ hid
    rw [hpeers c₁ hne₁, hpeers c₂ hne₂] at hid
    exact hr.eq_of_id c₁ c₂ h₁ h₂ hid
  · rintro c' ⟨hc', hne⟩
    rw [hpeers c' hne]
    exact hr.isOpen c' hc'
  · rintro c' ⟨hc', hne⟩ -
    rw [hpeers c' hne]
    exact hr.typed c' hc' not_false

theorem users_removePeer_iff (hr : Users P r) (hone : Placed P M r) (hc : P c) : Users (fun c' => P c' ∧ c' ≠ c) (r.removePeer c) ↔
    ∀ u, (r.peers c).userID = some u → r.userPeerMap.get u ≠ some (r.peers c).id := by
  have hpeers : ∀ c' ≠ c, (r.removePeer c).peers c' = r.peers c' := by
    intro c' hne
    rw [peers_removePeer, peers_setPeer_of_ne hne]
  have hmap := userPeerMap_removePeer r c
  constructor
  · intro h u _ hentry
    obtain ⟨c', ⟨hc', hne⟩, -, hid⟩ := h.exists_of_get u _ (by rwa [hmap])
    rw [hpeers c' hne] at hid
    exact hne (hone.eq_of_id c' c hc' hc hid)
  · intro h
    constructor
    · rintro c' u ⟨hc', hne⟩ huser
      rw [hpeers c' hne] at huser
      rw [hmap]
      exact hr.get_ne_none c' u hc' huser
    · intro u n hentry
      rw [hmap] at hentry
      obtain ⟨c', hc', huser, rfl⟩ := hr.exists_of_get u n hentry
      have hne : c' ≠ c := by
        rintro rfl
        exact h u huser hentry
      exact ⟨c', ⟨hc', hne⟩, by rwa [hpeers c' hne], by rw [hpeers c' hne]⟩

end RouterPeers

end PttaiCore
