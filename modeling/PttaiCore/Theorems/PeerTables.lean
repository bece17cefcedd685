import PttaiCore.Lib.Trace
import PttaiCore.Lemmas.RouterPeers

/-! # The tables of peers over a run -/

namespace PttaiCore

open Trace

inductive ConnStatus where
  | unused | refused | present | removed
  deriving DecidableEq, Repr

structure RouterRun where
  router : RouterPeers
  status : Nat → ConnStatus

inductive RouterCall where
  | addNewPeer (c : Nat) (id : NodeID)
  /-- The user of a connection becomes known. -/
  | identify (c : Nat) (userID : PttID) (isResetPeerType : Bool) (es : PeerEntities)
  | resetPeerType (c : Nat) (isForceReset : Bool) (es : PeerEntities)
  | registerEntity (e : Entity) (order : PeerTable → MapOrder Nat)
  | removePeer (c : Nat)

namespace RouterRun

def new (peers : Nat → RouterPeer) (config : PeerConfig) : RouterRun := ⟨⟨peers, fun _ => .empty, .empty, config⟩, fun _ => .unused⟩

variable (s : RouterRun)

variable (c : Nat) (userID : PttID)

def Present : Prop := s.status c = .present

instance (c : Nat) : Decidable (s.Present c) := inferInstanceAs (Decidable (_ = _))

def setUserID : RouterPeers := s.router.setPeer c { s.router.peers c with userID := some userID }

def step (s : RouterRun) : RouterCall → RouterRun
  | .addNewPeer c id =>
    match (s.router.setPeer c (.new id)).addNewPeer c with
    | (.error _, r) => ⟨r, Function.update s.status c .refused⟩
    | (.ok (), r) => ⟨r, Function.update s.status c .present⟩
  | .identify c userID isResetPeerType es => { s with router := ((s.setUserID c userID).finishIdentifyPeer es c isResetPeerType).2 }
  | .resetPeerType c isForceReset es => { s with router := (s.router.resetPeerType es c isForceReset).2 }
  | .registerEntity e order => { s with router := s.router.registerEntityPeers e order }
  | .removePeer c => ⟨s.router.removePeer c, Function.update s.status c .removed⟩

def Legal (s : RouterRun) : RouterCall → Prop
  | .addNewPeer c id => s.status c = .unused ∧ ∀ c', s.Present c' → (s.router.peers c').id ≠ id
  | .identify c .. | .resetPeerType c .. | .removePeer c => s.Present c ∨ s.status c = .removed
  | .registerEntity .. => True

structure Right : Prop where
  /-- The present connections are in the map of their part, and no others are in the maps. -/
  tabled : ∀ t c, (∃ n, (s.router.tables t).get n = some c) ↔ s.Present c ∧ (s.router.peers c).peerType.table = some t
  typed : ∀ c, s.Present c → ∃ t, (s.router.peers c).peerType.table = some t
  /-- The users in the map are those of the present connections. -/
  known : ∀ userID, s.router.userPeerMap.get userID ≠ none ↔ ∃ c, s.Present c ∧ (s.router.peers c).userID = some userID
  /-- Each with the node of a connection of the user. -/
  node : ∀ userID n, s.router.userPeerMap.get userID = some n →
    ∃ c, s.Present c ∧ (s.router.peers c).userID = some userID ∧ (s.router.peers c).id = n

def newType (es : PeerEntities) : PeerType :=
  es.determinePeerTypeFromAllEntities { (s.router.peers c).toPttPeer with userID := some userID }

def Enters (isResetPeerType : Bool) (es : PeerEntities) : Prop :=
  isResetPeerType = true ∨ (s.router.peers c).isRegistered = false ∧
    s.router.validatePeer (s.router.peers c).id (some userID) (s.newType c userID es) = .ok () ∧
    (s.router.peers c).peerType < s.newType c userID es

def Fits (s : RouterRun) : RouterCall → Prop
  | .identify c userID isResetPeerType es => s.Present c →
    (∀ u, (s.router.peers c).userID = some u → u ≠ userID → s.router.userPeerMap.get u ≠ some (s.router.peers c).id) ∧
      (s.Enters c userID isResetPeerType es ∨ ∃ c', s.Present c' ∧ (s.router.peers c').userID = some userID)
  | .removePeer c => s.Present c → ∀ u, (s.router.peers c).userID = some u → s.router.userPeerMap.get u ≠ some (s.router.peers c).id
  | .addNewPeer .. | .resetPeerType .. | .registerEntity .. => True

end RouterRun

namespace PeerTablesAux

open RouterPeers RouterRun

structure Inv (s : RouterRun) : Prop where
  placed : Placed s.Present (fun _ => False) s.router
  users : Users s.Present s.router
  isToClose : ∀ c, s.status c = .removed → (s.router.peers c).isToClose = true

variable {s : RouterRun} {c : Nat}

theorem right_iff (h : Placed s.Present (fun _ => False) s.router) : s.Right ↔ Users s.Present s.router := by
  constructor
  · intro hright
    exact ⟨fun c userID hc huser => (hright.known userID).2 ⟨c, hc, huser⟩, hright.node⟩
  · intro husers
    refine ⟨fun t c => ?_, fun c hc => Option.ne_none_iff_exists'.1 (h.typed c hc not_false), fun userID => ?_, husers.exists_of_get⟩
    · constructor
      · rintro ⟨n, hn⟩
        obtain ⟨hc, -, -, ht⟩ := (h.tabled t n c).1 hn
        exact ⟨hc, ht⟩
      · rintro ⟨hc, ht⟩
        exact ⟨_, (h.tabled t _ c).2 ⟨hc, not_false, rfl, ht⟩⟩
    · constructor
      · intro hne
        obtain ⟨n, hn⟩ := Option.ne_none_iff_exists'.1 hne
        obtain ⟨c, hc, huser, -⟩ := husers.exists_of_get userID n hn
        exact ⟨c, hc, huser⟩
      · rintro ⟨c, hc, huser⟩
        exact husers.get_ne_none c userID hc huser

structure StepSpec (s : RouterRun) (call : RouterCall) : Prop where
  placed : Placed (s.step call).Present (fun _ => False) (s.step call).router
  isToClose : ∀ c, (s.step call).status c = .removed → ((s.step call).router.peers c).isToClose = true
  users_iff : Users (s.step call).Present (s.step call).router ↔ s.Fits call

theorem stepSpec_of_samePeers (h : Inv s) {call : RouterCall} (hstatus : (s.step call).status = s.status)
    (hpeers : SamePeers s.router (s.step call).router) (hplaced : Placed s.Present (fun _ => False) (s.step call).router)
    (husers : Users s.Present (s.step call).router) (hfits : s.Fits call) : StepSpec s call := by
  have hpresent : (s.step call).Present = s.Present := by
    funext c
    rw [Present, Present, hstatus]
  refine ⟨by rwa [hpresent], fun c hc => ?_, iff_of_true (by rwa [hpresent]) hfits⟩
  rw [(hpeers c).2.2]
  exact h.isToClose c (hstatus ▸ hc)

theorem stepSpec_registerEntity (h : Inv s) (e : Entity) (order : PeerTable → MapOrder Nat) : StepSpec s (.registerEntity e order) := by
  obtain ⟨hplaced, husers, hsame⟩ := registerEntityPeers_spec h.placed h.users e order
  exact stepSpec_of_samePeers h rfl hsame hplaced husers trivial

theorem stepSpec_resetPeerType (h : Inv s) (isForceReset : Bool) (es : PeerEntities) (hlegal : s.Legal (.resetPeerType c isForceReset es)) :
    StepSpec s (.resetPeerType c isForceReset es) := by
  rcases hlegal with hc | hremoved
  · exact stepSpec_of_samePeers h rfl ((moves_resetPeerType s.router es c isForceReset).samePeers)
      (h.placed.moves hc not_false (moves_resetPeerType ..)) (h.users.moves hc (moves_resetPeerType ..)) trivial
  · have hsame : (s.step (.resetPeerType c isForceReset es)).router = s.router := by
      simp [step, RouterPeers.resetPeerType, h.isToClose c hremoved]
    refine stepSpec_of_samePeers h rfl (samePeers_of_eq (by rw [hsame])) ?_ ?_ trivial
    · rw [hsame]
      exact h.placed
    · rw [hsame]
      exact h.users

theorem stepSpec_removePeer (h : Inv s) (c : Nat) : StepSpec s (.removePeer c) := by
  have hclose : ∀ c', (s.step (.removePeer c)).status c' = .removed → ((s.step (.removePeer c)).router.peers c').isToClose = true := by
    intro c' hc'
    change ((s.router.removePeer c).peers c').isToClose = true
    rw [peers_removePeer]
    by_cases hcc : c' = c
    · rw [hcc, peers_setPeer_self]
    · rw [peers_setPeer_of_ne hcc]
      refine h.isToClose c' ?_
      simpa [step, hcc] using hc'
  have hpresent : (s.step (.removePeer c)).Present = fun c' => s.Present c' ∧ c' ≠ c := by
    funext c'
    by_cases hcc : c' = c
    · simp [Present, step, hcc]
    · simp [Present, step, hcc]
  by_cases hc : s.Present c
  · refine ⟨?_, hclose, ?_⟩
    · rw [hpresent]
      exact h.placed.removePeer hc
    · rw [hpresent]
      exact (users_removePeer_iff h.users h.placed hc).trans ⟨fun hfits _ => hfits, fun hfits => hfits hc⟩
  · have hsame : (fun c' => s.Present c' ∧ c' ≠ c) = s.Present := by
      funext c'
      exact propext (and_iff_left_of_imp fun hc' heq => hc (heq ▸ hc'))
    have hrouter : (s.step (.removePeer c)).router = s.router.setPeer c { s.router.peers c with isToClose := true } :=
      removePeer_of_not h.placed hc
    refine ⟨?_, hclose, iff_of_true ?_ fun hc' => absurd hc' hc⟩
    · rw [hpresent, hsame, hrouter]
      exact h.placed.setPeer fun hc' => absurd hc' hc
    · rw [hpresent, hsame, hrouter]
      exact h.users.setPeer fun hc' => absurd hc' hc

theorem get_userPeerMap_identify (h : Inv s) (hc : s.Present c) {userID : PttID} {isResetPeerType : Bool} {es : PeerEntities} (u : PttID)
    [Decidable (s.Enters c userID isResetPeerType es)] : (s.step (.identify c userID isResetPeerType es)).router.userPeerMap.get u =
      if s.Enters c userID isResetPeerType es ∧ u = userID then some (s.router.peers c).id else s.router.userPeerMap.get u := by
  have hpeer : (s.setUserID c userID).peers c = { s.router.peers c with userID := some userID } := peers_setPeer_self ..
  have hopen : ((s.setUserID c userID).peers c).isToClose = false := by
    rw [hpeer]
    exact h.placed.isOpen c hc
  have hget := get_userPeerMap_finishIdentifyPeer hopen (by rw [hpeer]) es isResetPeerType u
  rw [hpeer] at hget
  refine Eq.trans hget ?_
  by_cases hu : s.Enters c userID isResetPeerType es ∧ u = userID
  · rw [if_pos hu]
    exact if_pos hu
  · rw [if_neg hu]
    exact if_neg hu

theorem stepSpec_identify (h : Inv s) {userID : PttID} {isResetPeerType : Bool} {es : PeerEntities}
    (hlegal : s.Legal (.identify c userID isResetPeerType es)) : StepSpec s (.identify c userID isResetPeerType es) := by
  have hpeer : (s.setUserID c userID).peers c = { s.router.peers c with userID := some userID } := peers_setPeer_self ..
  have hother : ∀ c' ≠ c, (s.setUserID c userID).peers c' = s.router.peers c' := fun c' hne => peers_setPeer_of_ne hne _
  have huser : ((s.setUserID c userID).peers c).userID ≠ none := by
    rw [hpeer]
    simp
  have hsame := (moves_finishIdentifyPeer huser es isResetPeerType).samePeers
  have hclose : ∀ c', ((s.step (.identify c userID isResetPeerType es)).router.peers c').isToClose = (s.router.peers c').isToClose := by
    intro c'
    refine (hsame c').2.2.trans ?_
    by_cases hcc : c' = c
    · rw [hcc, hpeer]
    · rw [hother c' hcc]
  have hclosed : ∀ c', s.status c' = .removed → ((s.step (.identify c userID isResetPeerType es)).router.peers c').isToClose = true :=
    fun c' hc' => (hclose c').trans (h.isToClose c' hc')
  by_cases hc : s.Present c
  · refine ⟨?_, hclosed, ?_⟩
    · have hplaced : Placed s.Present (fun _ => False) (s.setUserID c userID) := h.placed.setPeer fun _ => ⟨rfl, rfl, rfl⟩
      exact hplaced.moves hc not_false (moves_finishIdentifyPeer huser es isResetPeerType)
    · classical
      have hget : ∀ u, (s.step (.identify c userID isResetPeerType es)).router.userPeerMap.get u =
          if s.Enters c userID isResetPeerType es ∧ u = userID then some (s.router.peers c).id else s.router.userPeerMap.get u :=
        fun u => get_userPeerMap_identify h hc u
      refine (users_identify_iff h.users h.placed hc (fun c' => ?_) ?_ (fun c' hne => ?_) hget).trans
        ⟨fun hfits _ => hfits, fun hfits => hfits hc⟩
      · refine (hsame c').1.trans ?_
        by_cases hcc : c' = c
        · rw [hcc, hpeer]
        · rw [hother c' hcc]
      · refine (hsame c).2.1.trans ?_
        rw [hpeer]
      · exact (hsame c').2.1.trans (by rw [hother c' hne])
  · -- only the record of a removed connection changes
    have hremoved : ((s.setUserID c userID).peers c).isToClose = true := by
      rw [hpeer]
      exact h.isToClose c (hlegal.resolve_left hc)
    obtain ⟨p, hp⟩ := finishIdentifyPeer_of_isToClose hremoved huser es isResetPeerType
    have hrouter : (s.step (.identify c userID isResetPeerType es)).router = s.router.setPeer c p := by
      refine hp.trans ?_
      simp [setUserID, setPeer]
    refine ⟨?_, hclosed, iff_of_true ?_ fun hc' => absurd hc' hc⟩
    · rw [hrouter]
      exact h.placed.setPeer fun hc' => absurd hc' hc
    · rw [hrouter]
      exact h.users.setPeer fun hc' => absurd hc' hc

theorem stepSpec_addNewPeer (h : Inv s) {id : NodeID} (hlegal : s.Legal (.addNewPeer c id)) : StepSpec s (.addNewPeer c id) := by
  obtain ⟨hunused, hnew⟩ := hlegal
  have hc : ¬ s.Present c := by
    rw [Present, hunused]
    decide
  obtain ⟨r, hr⟩ : ∃ r, r = s.router.setPeer c (.new id) := ⟨_, rfl⟩
  have hpeer : r.peers c = .new id := by rw [hr, peers_setPeer_self]
  have hother : ∀ c' ≠ c, r.peers c' = s.router.peers c' := fun c' hne => by rw [hr, peers_setPeer_of_ne hne]
  have hplaced : Placed s.Present (fun _ => False) r := hr ▸ h.placed.setPeer fun hc' => absurd hc' hc
  have husers : Users s.Present r := hr ▸ h.users.setPeer fun hc' => absurd hc' hc
  have hclosed : ∀ c', c' ≠ c → s.status c' = .removed → (r.peers c').isToClose = true := by
    intro c' hne hc'
    rw [hother c' hne]
    exact h.isToClose c' hc'
  cases hvalid : r.validatePeer id none .random with
  | error e =>
    have hstep : s.step (.addNewPeer c id) = ⟨r, Function.update s.status c .refused⟩ := by
      have hadd : r.addNewPeer c = (.error e, r) := by
        rw [addNewPeer, hpeer]
        simp only [RouterPeer.new, PttPeer.new, hvalid]
      simp only [step, ← hr, hadd]
    have hpresent : (s.step (.addNewPeer c id)).Present = s.Present := by
      funext c'
      by_cases hcc : c' = c
      · simp [Present, hstep, hcc, hunused]
      · simp [Present, hstep, hcc]
    refine ⟨?_, fun c' hc' => ?_, iff_of_true ?_ trivial⟩
    · rw [hpresent, hstep]
      exact hplaced
    · rw [hstep] at hc' ⊢
      have hne : c' ≠ c := by
        rintro rfl
        simp at hc'
      exact hclosed c' hne (by simpa [hne] using hc')
    · rw [hpresent, hstep]
      exact husers
  | ok _ =>
    have hsets : r.Sets c .random false := by
      rw [Sets, hpeer]
      exact ⟨rfl, .inr (show PeerType.err < .random by decide)⟩
    have hstep : s.step (.addNewPeer c id) = ⟨(r.setPeerType c .random false).2, Function.update s.status c .present⟩ := by
      have hadd : r.addNewPeer c = (.ok (), (r.setPeerType c .random false).2) := by
        rw [addNewPeer, hpeer]
        simp only [RouterPeer.new, PttPeer.new, hvalid]
        exact setPeerType_of_sets hsets
      simp only [step, ← hr, hadd]
    have hpresent : (s.step (.addNewPeer c id)).Present = fun c' => s.Present c' ∨ c' = c := by
      funext c'
      by_cases hcc : c' = c
      · simp [Present, hstep, hcc]
      · simp [Present, hstep, hcc]
    refine ⟨?_, fun c' hc' => ?_, iff_of_true ?_ trivial⟩
    · rw [hpresent, hstep]
      refine hplaced.setPeerType_new hc (by rw [hpeer]; rfl) (fun c' hc' => ?_) (by decide) hsets
      have hne : c' ≠ c := fun heq => hc (heq ▸ hc')
      rw [hpeer, hother c' hne]
      exact hnew c' hc'
    · rw [hstep] at hc' ⊢
      have hne : c' ≠ c := by
        rintro rfl
        simp at hc'
      rw [(samePeers_setPeerType r c .random false c').2.2]
      exact hclosed c' hne (by simpa [hne] using hc')
    · rw [hpresent, hstep]
      have hmap : (r.setPeerType c .random false).2.userPeerMap = r.userPeerMap := by
        rw [userPeerMap_of_sets hsets, hpeer]
        rfl
      exact (husers.insert (by rw [hpeer]; rfl)).congr (samePeers_setPeerType r c .random false) hmap

theorem stepSpec (h : Inv s) (call : RouterCall) (hlegal : s.Legal call) : StepSpec s call := by
  cases call with
  | addNewPeer c id => exact stepSpec_addNewPeer h hlegal
  | identify c userID isResetPeerType es => exact stepSpec_identify h hlegal
  | resetPeerType c isForceReset es => exact stepSpec_resetPeerType h isForceReset es hlegal
  | registerEntity e order => exact stepSpec_registerEntity h e order
  | removePeer c => exact stepSpec_removePeer h c

theorem inv_new (peers : Nat → RouterPeer) (config : PeerConfig) : Inv (.new peers config) := by
  have hpresent : ∀ c, ¬ (RouterRun.new peers config).Present c := by
    intro c
    simp [Present, RouterRun.new]
  refine ⟨⟨fun t n c => ?_, fun c _ hc => absurd hc (hpresent c), fun c hc => absurd hc (hpresent c), fun c hc => absurd hc (hpresent c)⟩,
    ⟨fun c _ hc => absurd hc (hpresent c), fun _ _ hget => ?_⟩, fun c hc => ?_⟩
  · exact iff_of_false (by simp [RouterRun.new]) fun h => hpresent c h.1
  · simp [RouterRun.new] at hget
  · simp [RouterRun.new] at hc

end PeerTablesAux

open RouterRun PeerTablesAux in
/-- The tables are right in every state of a run exactly if every removal and every identification fits. -/
theorem peerTables_right_iff (peers : Nat → RouterPeer) (config : PeerConfig) (calls : List RouterCall)
    (hlegal : Trace.Always step (.new peers config) calls Legal) :
    Trace.Everywhere step (.new peers config) calls Right ↔ Trace.Always step (.new peers config) calls Fits := by
  have hinv := inv_new peers config
  refine Trace.everywhere_iff_always_of_legal hlegal hinv ((right_iff hinv.placed).2 hinv.users) ?_ ?_
  · intro s call h hcall
    have hspec := stepSpec h call hcall
    exact (right_iff hspec.placed).trans hspec.users_iff
  · intro s call h hcall hfits
    have hspec := stepSpec h call hcall
    exact ⟨hspec.placed, hspec.users_iff.2 hfits, hspec.isToClose⟩

namespace PeerTablesWitness

open RouterRun

def node (b : UInt8) : NodeID := ⟨ByteArrayOf.replicate 64 b⟩

def user (b : UInt8) : PttID := ByteArrayOf.replicate 40 b

def entity : Entity where
  id := user 1
  kind := .base
  status := .alive
  masters := fun _ => none
  members := fun id => if id = user 2 then some .alive else none
  pendingPeers := []
  myNodes := fun _ => none
  ownerIDs := [user 9]
  opKeyInfos := []
  oldestOpKeyInfo := none
  expireOpKeySeconds := 100
  renewOpKeySeconds := 10
  opKeyOplogList := .ok []

def es : PeerEntities := ⟨none, [entity]⟩

def peers : Nat → RouterPeer := fun _ => .new (node 0)

def config : PeerConfig := ⟨350, 5, 100, 200, 50, 50⟩

def calls : List RouterCall := [.addNewPeer 0 (node 1), .identify 0 (user 2) false es]

theorem legal_calls : Trace.Always step (.new peers config) calls Legal := by
  refine always_cons.2 ⟨⟨rfl, fun c hc => ?_⟩, always_cons.2 ⟨.inl (by decide +kernel), always_nil⟩⟩
  simp [Present, RouterRun.new] at hc

theorem legal_calls_removed : Trace.Always step (.new peers config) (calls ++ [.removePeer 0]) Legal := by
  refine always_cons.2 ⟨⟨rfl, fun c hc => ?_⟩, always_cons.2 ⟨.inl (by decide +kernel), always_cons.2
    ⟨.inl (by decide +kernel), always_nil⟩⟩⟩
  simp [Present, RouterRun.new] at hc

end PeerTablesWitness

open RouterRun PeerTablesWitness in
/-- The tables are right while the connection of the member is there. -/
theorem peerTables_right_iff_two : Trace.Always step (.new peers config) calls Legal ∧ Trace.Everywhere step (.new peers config) calls Right := by
  refine ⟨legal_calls, (peerTables_right_iff peers config calls legal_calls).2 ?_⟩
  refine Trace.always_cons.2 ⟨trivial, Trace.always_cons.2 ⟨fun _ => ⟨fun u hu => ?_, ?_⟩, Trace.always_nil⟩⟩
  · have hnone : ((step (.new peers config) (.addNewPeer 0 (node 1))).router.peers 0).userID = none := by decide +kernel
    exact absurd (hnone.symm.trans hu) (Option.some_ne_none u).symm
  · exact Or.inl (Or.inr ⟨by decide +kernel, by decide +kernel, by decide +kernel⟩)

open RouterRun PeerTablesWitness in
/-- Once the connection is removed, the map of the users still has its user, though no connection is there. The user is then not taken from
another node. -/
theorem peer_tables_go_wrong : Trace.Always step (.new peers config) (calls ++ [.removePeer 0]) Legal ∧
    ¬ Trace.Everywhere step (.new peers config) (calls ++ [.removePeer 0]) Right ∧
    (Trace.after step (.new peers config) (calls ++ [.removePeer 0])).router.userPeerMap.get (user 2) = some (node 1) ∧
    (Trace.after step (.new peers config) (calls ++ [.removePeer 0])).router.validatePeer (node 3) (some (user 2)) .member =
      .error .alreadyRegistered := by
  have hentry : (Trace.after step (.new peers config) (calls ++ [.removePeer 0])).router.userPeerMap.get (user 2) = some (node 1) := by
    decide +kernel
  refine ⟨legal_calls_removed, fun h => ?_, hentry, by decide +kernel⟩
  have hempty : ∀ t, ((Trace.after step (.new peers config) (calls ++ [.removePeer 0])).router.tables t).entries = [] := by
    intro t
    cases t <;> decide +kernel
  have hright := h (calls ++ [.removePeer 0]) [] (by rw [List.append_nil])
  generalize Trace.after step (.new peers config) (calls ++ [.removePeer 0]) = s at hentry hempty hright
  obtain ⟨c, hc, -⟩ := hright.node (user 2) (node 1) hentry
  obtain ⟨t, ht⟩ := hright.typed c hc
  obtain ⟨n, hn⟩ := (hright.tabled t c).2 ⟨hc, ht⟩
  rw [KeyStore.get_eq_some_iff, hempty t] at hn
  exact List.not_mem_nil hn

end PttaiCore
