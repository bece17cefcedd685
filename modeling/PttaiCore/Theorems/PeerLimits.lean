import PttaiCore.Lib.Tally
import PttaiCore.Theorems.PeerSet
import PttaiCore.Theorems.PeerTables

/-! # The limits of the tables of peers over a run -/

namespace PttaiCore

open KeyStore

def PeerConfig.limit (config : PeerConfig) : PeerTable → Int
  | .me => 0
  | .hub => config.maxHubPeers
  | .important => config.maxImportantPeers
  | .member => config.maxMemberPeers
  | .pending => config.maxPendingPeers
  | .random => config.maxRandomPeers

namespace RouterPeers

variable (r : RouterPeers)

def Limited : Prop := ∀ t ≠ .me, r.len t ≤ r.config.limit t

def RoomForReset (c : Nat) : Prop :=
  (r.peers c).isToClose = true ∨ (r.tables .random).get (r.peers c).id ≠ none ∨ r.len .random < r.config.limit .random

def raised (e : Entity) (order : PeerTable → MapOrder Nat) : List Nat :=
  r.promoted e order .important ++ r.promoted e order .member ++ r.promoted e order .pending ++ r.promoted e order .random

def RoomForEntity (e : Entity) (order : PeerTable → MapOrder Nat) : Prop :=
  ∀ t ≠ .me, r.len t + ((r.raised e order).filter fun c => decide (r.fit e c = t.peerType)).length ≤ r.config.limit t

end RouterPeers

def RouterRun.HasRoom (s : RouterRun) : RouterCall → Prop
  | .identify c _ isResetPeerType _ => isResetPeerType = true → s.router.RoomForReset c
  | .resetPeerType c isForceReset _ => isForceReset = true → s.router.RoomForReset c
  | .registerEntity e order => s.router.RoomForEntity e order
  | .addNewPeer .. | .removePeer .. => True

namespace PeerLimitsAux

open RouterPeers

variable {r r' r'' : RouterPeers} {c : Nat} {T : PeerType} {n n' : PeerTable → Nat}

structure Grows (n : PeerTable → Nat) (r r' : RouterPeers) : Prop where
  config : r'.config = r.config
  len : ∀ t, r'.len t ≤ r.len t + n t

theorem Grows.refl (r : RouterPeers) : Grows 0 r r := ⟨rfl, fun _ => by simp⟩

theorem Grows.trans (h : Grows n r r') (h' : Grows n' r' r'') : Grows (n + n') r r'' := by
  refine ⟨h'.config.trans h.config, fun t => ?_⟩
  have h1 := h.len t
  have h2 := h'.len t
  rw [Pi.add_apply, Nat.cast_add]
  omega

theorem Grows.limited (h : Grows n r r') (hroom : ∀ t ≠ .me, r.len t + n t ≤ r.config.limit t) : r'.Limited := by
  intro t ht
  rw [h.config]
  exact (h.len t).trans (hroom t ht)

theorem Grows.limited_of_zero (h : Grows 0 r r') (hr : r.Limited) : r'.Limited := h.limited fun t ht => by simpa using hr t ht

theorem len_le {s s' : KeyStore NodeID Nat} {k : NodeID} (h : ∀ n, s'.get n ≠ none → n = k ∨ s.get n ≠ none) :
    s'.entries.length ≤ s.entries.length + 1 := by
  rw [← card_keySet, ← card_keySet]
  refine (Finset.card_le_card (t := insert k s.keySet) fun n hn => ?_).trans (Finset.card_insert_le _ _)
  exact Finset.mem_insert.mpr ((h n (mem_keySet.mp hn)).imp_right mem_keySet.mpr)

theorem len_le_of_subset {s s' : KeyStore NodeID Nat} (h : ∀ n, s'.get n ≠ none → s.get n ≠ none) : s'.entries.length ≤ s.entries.length := by
  rw [← card_keySet, ← card_keySet]
  exact Finset.card_le_card fun n hn => mem_keySet.mpr (h n (mem_keySet.mp hn))

theorem grows_of_subset (hc : r'.config = r.config) (h : ∀ t n, (r'.tables t).get n ≠ none → (r.tables t).get n ≠ none) : Grows 0 r r' :=
  ⟨hc, fun t => by simpa [RouterPeers.len] using len_le_of_subset (h t)⟩

theorem config_setTable (r : RouterPeers) (T : PeerType) (f : KeyStore NodeID Nat → KeyStore NodeID Nat) : (r.setTable T f).config = r.config := by
  unfold setTable
  split <;> rfl

theorem grows_setPeer (r : RouterPeers) (c : Nat) (p : RouterPeer) : Grows 0 r (r.setPeer c p) := grows_of_subset rfl fun _ _ h => h

theorem config_setPeerType (r : RouterPeers) (c : Nat) (T : PeerType) (isForce : Bool) : (r.setPeerType c T isForce).2.config = r.config := by
  unfold setPeerType
  dsimp only
  split_ifs
  · rfl
  · rfl
  · cases (r.peers c).userID <;> simp [config_setTable, setPeer]

def oneMore (T : PeerType) (t : PeerTable) : Nat := if T.table = some t then 1 else 0

theorem grows_setPeerType (r : RouterPeers) (c : Nat) (T : PeerType) (isForce : Bool) : Grows (oneMore T) r (r.setPeerType c T isForce).2 := by
  by_cases h : r.Sets c T isForce
  · refine ⟨config_setPeerType r c T isForce, fun t => ?_⟩
    have hget := get_tables_of_sets h t
    unfold oneMore RouterPeers.len
    split_ifs with ht
    · refine Int.ofNat_le.mpr (len_le (k := (r.peers c).id) fun n hn => ?_)
      rw [hget] at hn
      split_ifs at hn with h1 h2
      · exact .inl h1.2
      · exact absurd rfl hn
      · exact .inr hn
    · refine Int.ofNat_le.mpr (len_le_of_subset fun n hn => ?_)
      rw [hget, if_neg (by simp [ht])] at hn
      split_ifs at hn
      · exact absurd rfl hn
      · exact hn
  · rw [setPeerType_of_not_sets h]
    exact ⟨rfl, fun t => by omega⟩

theorem grows_setPeerType_of_get {t : PeerTable} (hT : T.table = some t) (hn : (r.tables t).get (r.peers c).id ≠ none) (isForce : Bool) :
    Grows 0 r (r.setPeerType c T isForce).2 := by
  by_cases h : r.Sets c T isForce
  · refine grows_of_subset (config_setPeerType r c T isForce) fun t' n hget => ?_
    rw [get_tables_of_sets h] at hget
    split_ifs at hget with h1 h2
    · rw [hT, Option.some.injEq] at h1
      rw [← h1.1, h1.2]
      exact hn
    · exact absurd rfl hget
    · exact hget
  · rw [setPeerType_of_not_sets h]
    exact .refl r

/-! ## Calls that check -/

theorem len_lt_of_validatePeer {nodeID : NodeID} {userID : Option PttID} (h : r.validatePeer nodeID userID T = .ok ()) {t : PeerTable}
    (ht : T.table = some t) (hme : t ≠ .me) : r.len t < r.config.limit t := by
  obtain rfl := eq_peerType_of_table ht
  unfold validatePeer at h
  cases t with
  | me => exact absurd rfl hme
  | _ =>
    simp only [PeerTable.peerType, reduceCtorEq, if_false, false_and, true_and] at h
    split_ifs at h
    all_goals simp only [PeerConfig.limit]; omega

theorem Limited.checked (h : r.Limited) {nodeID : NodeID} {userID : Option PttID} (hv : r.validatePeer nodeID userID T = .ok ()) :
    (r.setPeerType c T false).2.Limited := by
  refine (grows_setPeerType r c T false).limited fun t ht => ?_
  have hle := h t ht
  unfold oneMore
  split_ifs with hT
  · exact len_lt_of_validatePeer hv hT ht
  · simpa using hle

theorem Limited.addPeerKnownUserID (h : r.Limited) (c : Nat) (T : PeerType) : (r.addPeerKnownUserID c T).2.Limited := by
  unfold RouterPeers.addPeerKnownUserID
  cases hv : r.validatePeer (r.peers c).id (r.peers c).userID T with
  | error e => exact h
  | ok _ => exact Limited.checked h hv

theorem Limited.setPeer (h : r.Limited) (c : Nat) (p : RouterPeer) : (r.setPeer c p).Limited := (grows_setPeer r c p).limited_of_zero h

theorem Limited.addNewPeer (h : r.Limited) (c : Nat) : (r.addNewPeer c).2.Limited := Limited.addPeerKnownUserID h c .random

theorem Limited.setupPeer (h : r.Limited) (c : Nat) (T : PeerType) : (r.setupPeer c T).2.Limited := by
  unfold RouterPeers.setupPeer
  have hadd := Limited.addPeerKnownUserID h c T
  split_ifs
  · exact h
  · cases hr : r.addPeerKnownUserID c T with
    | mk res r' =>
      rw [hr] at hadd
      cases res with
      | error e => exact hadd
      | ok _ => exact Limited.setPeer hadd c _

theorem Limited.reset (h : r.Limited) (hroom : r.RoomForReset c) : (r.setPeerType c .random true).2.Limited := by
  rcases hroom with hclose | hn | hlt
  · rw [setPeerType_of_not_sets fun hs => by simp [hs.1] at hclose]
    exact h
  · exact (grows_setPeerType_of_get rfl hn true).limited_of_zero h
  · refine (grows_setPeerType r c .random true).limited fun t ht => ?_
    have hle := h t ht
    unfold oneMore
    split_ifs with hT
    · cases hT
      exact hlt
    · simpa using hle

theorem roomForReset_setPeer (h : r.RoomForReset c) {p : RouterPeer} (hid : p.id = (r.peers c).id)
    (hclose : p.isToClose = (r.peers c).isToClose) : (r.setPeer c p).RoomForReset c := by
  rw [RoomForReset, peers_setPeer_self, hid, hclose]
  exact h

theorem Limited.finishIdentifyPeer (h : r.Limited) (es : PeerEntities) {isResetPeerType : Bool} (hroom : isResetPeerType = true → r.RoomForReset c) :
    (r.finishIdentifyPeer es c isResetPeerType).2.Limited := by
  by_cases huser : (r.peers c).userID = none
  · rw [RouterPeers.finishIdentifyPeer, if_pos huser]
    exact h
  have hr : (if isResetPeerType then r.unregister c else r).Limited := by
    split_ifs with hreset
    · exact Limited.reset (Limited.setPeer h c _) (roomForReset_setPeer (hroom hreset) rfl rfl)
    · exact h
  rw [finishIdentifyPeer_eq huser, setupUnregistered]
  split_ifs with hreset hreg hreg
  all_goals simp only [hreset] at hr
  · exact hr
  · exact Limited.setupPeer hr c _
  · exact hr
  · exact Limited.setupPeer hr c _

theorem Limited.resetPeerType (h : r.Limited) (es : PeerEntities) {isForceReset : Bool} (hroom : isForceReset = true → r.RoomForReset c) :
    (r.resetPeerType es c isForceReset).2.Limited := by
  unfold RouterPeers.resetPeerType
  split_ifs with hclose huser hforce
  · exact h
  · exact h
  · exact Limited.addPeerKnownUserID (Limited.reset h (hroom hforce)) c _
  · exact Limited.addPeerKnownUserID h c _

theorem Limited.removePeer (h : r.Limited) (c : Nat) : (r.removePeer c).Limited := by
  have hset := Limited.setPeer h c { r.peers c with isToClose := true }
  rcases removePeer_cases r c with heq | heq
  · rwa [heq]
  · rw [heq]
    refine (grows_of_subset (config_setTable _ _ _) fun t n hn => ?_).limited_of_zero hset
    rw [tables_setTable] at hn
    split_ifs at hn
    · rw [get_delete] at hn
      split_ifs at hn
      · exact absurd rfl hn
      · exact hn
    · exact hn

/-! ## Registering an entity -/

theorem grows_deletePeers (r : RouterPeers) (t : PeerTable) (cs : List Nat) : Grows 0 r (r.deletePeers t cs) := by
  refine grows_of_subset (config_setTable _ _ _) fun t' n hn => ?_
  rw [deletePeers, tables_setTable] at hn
  split_ifs at hn
  · rw [get_deleteAll] at hn
    split_ifs at hn
    · exact absurd rfl hn
    · exact hn
  · exact hn

theorem grows_setPeerTypes (r : RouterPeers) (T : PeerType) (cs : List Nat) : Grows (fun t => cs.length * oneMore T t) r (r.setPeerTypes T cs) := by
  induction cs generalizing r with
  | nil => exact ⟨rfl, fun t => by simp [setPeerTypes]⟩
  | cons c cs ih =>
    have h := (grows_setPeerType r c T false).trans (ih (r.setPeerType c T false).2)
    refine ⟨h.config, fun t => (h.len t).trans_eq ?_⟩
    simp only [Pi.add_apply, List.length_cons]
    push_cast
    ring

theorem promoted_deletePeers (e : Entity) (order : PeerTable → MapOrder Nat) {t t' : PeerTable} (h : t ≠ t') (cs : List Nat) :
    (r.deletePeers t cs).promoted e order t' = r.promoted e order t' := by
  have hp : (r.deletePeers t cs).tables t' = r.tables t' := by
    rw [deletePeers, tables_setTable, if_neg (by simp [h])]
  unfold promoted fit
  rw [hp, peers_deletePeers]

theorem Limited.registerEntityPeers {e : Entity} {order : PeerTable → MapOrder Nat} (hroom : r.RoomForEntity e order) :
    (r.registerEntityPeers e order).Limited := by
  have hdel := (((grows_deletePeers r .important (r.promoted e order .important)).trans (grows_deletePeers _ .member (r.promoted e order .member))).trans
    (grows_deletePeers _ .member (r.promoted e order .pending))).trans (grows_deletePeers _ .random (r.promoted e order .random))
  have hset := (((hdel.trans (grows_setPeerTypes _ .me ((r.raised e order).filter fun c => decide (r.fit e c = .me)))).trans
    (grows_setPeerTypes _ .important ((r.raised e order).filter fun c => decide (r.fit e c = .important)))).trans
    (grows_setPeerTypes _ .member ((r.raised e order).filter fun c => decide (r.fit e c = .member)))).trans
    (grows_setPeerTypes _ .pending ((r.raised e order).filter fun c => decide (r.fit e c = .pending)))
  have hlim := hset.limited fun t ht => by
    refine le_trans ?_ (hroom t ht)
    cases t with
    | me => exact absurd rfl ht
    | _ =>
      simp only [Pi.add_apply, Pi.zero_apply, oneMore, PeerType.table, reduceCtorEq, Option.some.injEq, if_true, if_false, Nat.mul_one,
        Nat.mul_zero, Nat.zero_add, Nat.add_zero]
      first
        | exact le_rfl
        | omega
  -- no map is read after connections were deleted from it
  have hread : ∀ {r : RouterPeers} {t t' : PeerTable} (cs : List Nat), t ≠ t' → (r.deletePeers t cs).promoted e order t' = r.promoted e order t' :=
    fun cs h => promoted_deletePeers e order h cs
  unfold RouterPeers.registerEntityPeers
  simp only [hread _ (show PeerTable.important ≠ .member by decide), hread _ (show PeerTable.important ≠ .pending by decide),
    hread _ (show PeerTable.important ≠ .random by decide), hread _ (show PeerTable.member ≠ .pending by decide),
    hread _ (show PeerTable.member ≠ .random by decide)]
  exact hlim

theorem Limited.step {s : RouterRun} (h : s.router.Limited) (call : RouterCall) (hroom : s.HasRoom call) : (s.step call).router.Limited := by
  cases call with
  | addNewPeer c id =>
    have hadd := Limited.addNewPeer (Limited.setPeer h c (.new id)) c
    simp only [RouterRun.step]
    split
    all_goals simp_all only
  | identify c userID isReset es =>
    exact Limited.finishIdentifyPeer (Limited.setPeer h c _) es fun hreset => roomForReset_setPeer (hroom hreset) rfl rfl
  | resetPeerType c isForce es => exact Limited.resetPeerType h es hroom
  | registerEntity e order => exact Limited.registerEntityPeers hroom
  | removePeer c => exact Limited.removePeer h c

end PeerLimitsAux

open RouterRun PeerLimitsAux in
/-- In a run from empty tables no map has more connections than it may have, where every call that moves connections without a check finds
room for them. -/
theorem peerTables_limited (peers : Nat → RouterPeer) (config : PeerConfig) (calls : List RouterCall) (h0 : ∀ t ≠ .me, 0 ≤ config.limit t)
    (hroom : Trace.Always step (.new peers config) calls HasRoom) :
    Trace.Everywhere step (.new peers config) calls fun s => s.router.Limited :=
  hroom.invariant h0 fun _ call h hc => Limited.step h call hc

namespace PeerLimitsWitness

open PeerTablesWitness

def oneMember : PeerConfig := { config with maxMemberPeers := 1 }

def order : PeerTable → MapOrder Nat := fun _ => PttPeerSet.PeerSetWitness.order

def registered : List RouterCall :=
  [.addNewPeer 0 (node 1), .addNewPeer 1 (node 2), .identify 0 (user 2) false ⟨none, []⟩, .identify 1 (user 3) false ⟨none, []⟩,
    .registerEntity { entity with members := fun _ => some .alive } order]

end PeerLimitsWitness

open RouterRun PeerTablesWitness PeerLimitsWitness in
/-- Registering the entity leaves two members where one is the limit. -/
theorem two_members_of_one :
    (Trace.after step (.new peers oneMember) registered).router.len .member = 2 ∧ oneMember.limit .member = 1 := by
  decide +kernel

open RouterRun PeerTablesWitness in
theorem peerTables_limited_calls : Trace.Everywhere step (.new peers config) calls fun s => s.router.Limited := by
  refine peerTables_limited peers config calls (fun t _ => by cases t <;> decide) ?_
  exact Trace.always_cons.2 ⟨trivial, Trace.always_cons.2 ⟨fun h => absurd h (by decide), Trace.always_nil⟩⟩

end PttaiCore
