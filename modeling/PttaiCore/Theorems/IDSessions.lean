import PttaiCore.Lib.Trace
import PttaiCore.Theorems.Identity

/-! # How long an identification lasts -/

namespace PttaiCore

structure IDIssue where
  salt : Salt
  issuedAt : Nat
  isOpen : Bool
  deriving DecidableEq

structure IDRun where
  peer : PttPeer
  now : Nat
  timers : List (Option PttID × Nat)
  issues : List IDIssue

inductive IDEvent where
  | initID (entityID : Option PttID) (isForce : Bool) (salt : Salt)
  | identifyPeerWithMyID (i : IdentifyInput)
  | identifyPeerAck (entityID : Option PttID) (data : IdentifyPeerAck) (i : IdentifyInput)
  | resetInitID
  /-- A timer that is due ends. -/
  | expire (entityID : Option PttID) (due : Nat)
  /-- Time passes. -/
  | tick (d : Nat)

def identifyPeerTimeout : Nat := 10 * 10 ^ 9

namespace IDRun

def new (nodeID : NodeID) : IDRun := ⟨.new nodeID, 0, [], []⟩

def closeIssues (s : IDRun) : List IDIssue := s.issues.map fun i => { i with isOpen := false }

def issue (s : IDRun) (entityID : Option PttID) (isForce : Bool) (peer : PttPeer) : Option Salt → IDRun
  | none => { s with peer }
  | some salt => ⟨peer, s.now, (entityID, s.now + identifyPeerTimeout) :: s.timers,
      ⟨salt, s.now, true⟩ :: if isForce then s.closeIssues else s.issues⟩

variable (Γ : Ctx) (r : Router)

def step (s : IDRun) : IDEvent → IDRun
  | .initID entityID isForce salt =>
    let x := s.peer.initID entityID isForce salt
    s.issue entityID isForce x.2 x.1.toOption
  | .identifyPeerWithMyID i =>
    let o := r.identifyPeerWithMyID s.peer i
    s.issue (r.myEntity.map MyEntity.id) true o.peer o.generated.head?
  | .identifyPeerAck entityID data i => { s with peer := (Router.handleIdentifyPeerAck Γ entityID data s.peer i).2 }
  | .resetInitID => { s with peer := s.peer.resetInitID, issues := s.closeIssues }
  | .expire entityID due =>
    if (entityID, due) ∈ s.timers ∧ due ≤ s.now then
      { s with peer := s.peer.finishID entityID, timers := s.timers.erase (entityID, due) }
    else s
  | .tick d => if s.timers.all fun t => decide (s.now + d ≤ t.2) then { s with now := s.now + d } else s

def Right (s : IDRun) : Prop := s.peer.userID = none → ∀ i rest, s.issues = i :: rest →
  (i.isOpen = true → s.now < i.issuedAt + identifyPeerTimeout → s.peer.idChallenge = some i.salt) ∧
    (i.issuedAt + identifyPeerTimeout < s.now → s.peer.idChallenge = none) ∧
    ∀ j ∈ rest, j.isOpen = true → j.issuedAt + identifyPeerTimeout ≤ s.now

def Fits (s : IDRun) : IDEvent → Prop
  | .initID entityID isForce _ => s.peer.userID = none → (isForce = true ∨ s.peer.idEntityID = none) →
    entityID ≠ none ∧ ∀ due, (entityID, due) ∉ s.timers
  | .identifyPeerWithMyID _ => s.peer.userID ≠ none ∨ r.myEntity = none
  | .identifyPeerAck .. | .resetInitID | .expire .. | .tick _ => True

end IDRun

namespace IDSessionsAux

open IDRun

variable {Γ : Ctx} {r : Router} {s : IDRun}

def Ended (s : IDRun) (i : IDIssue) : Prop := i.isOpen = true → i.issuedAt + identifyPeerTimeout ≤ s.now

structure Inv (s : IDRun) : Prop where
  due : ∀ t ∈ s.timers, s.now ≤ t.2
  single : (s.timers.map Prod.fst).Nodup
  session : (s.peer.idEntityID = none ∧ s.peer.idChallenge = none ∧ ∀ i ∈ s.issues, Ended s i) ∨
    ∃ i rest, s.issues = i :: rest ∧ s.peer.idChallenge = some i.salt ∧ s.peer.idEntityID ≠ none ∧
      (s.peer.idEntityID, i.issuedAt + identifyPeerTimeout) ∈ s.timers ∧ ∀ j ∈ rest, Ended s j

theorem Inv.right (h : s.peer.userID = none → Inv s) : s.Right := by
  intro hu i rest hi
  rcases (h hu).session with ⟨-, hc, hall⟩ | ⟨i', rest', hi', hc, -, ht, hall⟩
  · refine ⟨fun hopen hlt => ?_, fun _ => hc, fun j hj => hall j (hi ▸ List.mem_cons_of_mem i hj)⟩
    have := hall i (hi ▸ (.head _)) hopen
    omega
  · obtain ⟨rfl, rfl⟩ := List.cons.inj (hi.symm.trans hi')
    refine ⟨fun _ _ => hc, fun hlt => ?_, hall⟩
    have := (h hu).due _ ht
    omega

theorem ended_closeIssues (s s' : IDRun) : ∀ i ∈ s.closeIssues, Ended s' i := by
  intro i hi hopen
  obtain ⟨j, -, rfl⟩ := List.mem_map.mp hi
  cases hopen

theorem inv_issue (h : Inv s) {entityID : Option PttID} (hne : entityID ≠ none) (hfree : ∀ due, (entityID, due) ∉ s.timers) {salt : Salt}
    {isForce : Bool} (hold : isForce = true ∨ s.peer.idEntityID = none) :
    Inv (s.issue entityID isForce { s.peer with idEntityID := entityID, idChallenge := some salt } (some salt)) := by
  refine ⟨?_, ?_, .inr ⟨⟨salt, s.now, true⟩, if isForce then s.closeIssues else s.issues, rfl, rfl, hne, (.head _), ?_⟩⟩
  · rintro t (_ | ⟨_, ht⟩)
    · exact Nat.le_add_right _ _
    · exact h.due t ht
  · refine List.nodup_cons.mpr ⟨fun hmem => ?_, h.single⟩
    obtain ⟨t, ht, rfl⟩ := List.mem_map.mp hmem
    exact hfree t.2 ht
  · cases isForce with
    | true => exact ended_closeIssues s _
    | false =>
      rcases h.session with ⟨-, -, hall⟩ | ⟨_, _, -, -, hsome, -⟩
      · exact hall
      · exact absurd (hold.resolve_left Bool.false_ne_true) hsome

theorem inv_expire (h : Inv s) {e : Option PttID} {due : Nat} (ht : (e, due) ∈ s.timers) (hdue : due ≤ s.now) :
    Inv { s with peer := s.peer.finishID e, timers := s.timers.erase (e, due) } := by
  refine ⟨fun t ht' => h.due t (List.mem_of_mem_erase ht'), h.single.sublist (List.erase_sublist.map _), ?_⟩
  rw [PttPeer.finishID]
  rcases h.session with ⟨he, hc, hall⟩ | ⟨i, rest, hi, hc, hne, hmem, hall⟩
  · left
    split_ifs
    · exact ⟨rfl, rfl, hall⟩
    · exact ⟨he, hc, hall⟩
  · split_ifs with heq
    · -- the one timer of the entity is that of the challenge
      have hsame : due = i.issuedAt + identifyPeerTimeout :=
        (Prod.mk.inj (List.inj_on_of_nodup_map h.single ht hmem heq)).2
      refine .inl ⟨rfl, rfl, fun j hj => ?_⟩
      rw [hi] at hj
      rcases List.mem_cons.mp hj with rfl | hj
      · exact fun _ => hsame ▸ hdue
      · exact hall j hj
    · refine .inr ⟨i, rest, hi, hc, hne, ?_, hall⟩
      exact (List.mem_erase_of_ne fun hpair => heq (Prod.mk.inj hpair).1.symm).mpr hmem

theorem inv_tick (h : Inv s) {d : Nat} (hd : ∀ t ∈ s.timers, s.now + d ≤ t.2) : Inv { s with now := s.now + d } := by
  have hlater : ∀ i, Ended s i → Ended { s with now := s.now + d } i := fun i hi hopen => (hi hopen).trans (Nat.le_add_right _ _)
  refine ⟨hd, h.single, ?_⟩
  rcases h.session with ⟨he, hc, hall⟩ | ⟨i, rest, hi, hc, hne, hmem, hall⟩
  · exact .inl ⟨he, hc, fun i hi => hlater i (hall i hi)⟩
  · exact .inr ⟨i, rest, hi, hc, hne, hmem, fun j hj => hlater j (hall j hj)⟩

theorem handleIdentifyPeerAck_cases (Γ : Ctx) (entityID : Option PttID) (data : IdentifyPeerAck) (p : PttPeer) (i : IdentifyInput) :
    (Router.handleIdentifyPeerAck Γ entityID data p i).2 = p ∨ (Router.handleIdentifyPeerAck Γ entityID data p i).2.userID ≠ none := by
  unfold Router.handleIdentifyPeerAck
  repeat' split
  all_goals first
    | exact .inl rfl
    | (right; simp)

theorem step_inv (h : s.peer.userID = none → Inv s) (ev : IDEvent) (hfits : s.Fits r ev) :
    (s.step Γ r ev).peer.userID = none → Inv (s.step Γ r ev) := by
  cases ev with
  | initID entityID isForce salt =>
    simp only [step]
    rcases PttPeer.initID_cases s.peer entityID isForce salt with heq | ⟨heq, hu⟩
    · rw [heq]
      exact h
    · rw [heq]
      have hbegin : isForce = true ∨ s.peer.idEntityID = none := by
        by_contra hno
        rw [not_or] at hno
        obtain ⟨e, he⟩ := Option.ne_none_iff_exists'.mp hno.2
        rw [PttPeer.initID] at heq
        simp [hu, hno.1, he] at heq
      obtain ⟨hne, hfree⟩ := hfits hu hbegin
      exact fun _ => inv_issue (h hu) hne hfree hbegin
  | identifyPeerWithMyID i =>
    have hsame : s.step Γ r (.identifyPeerWithMyID i) = s := by
      simp only [step, Router.identifyPeerWithMyID]
      cases hme : r.myEntity with
      | none => rfl
      | some me =>
        have hu := hfits.resolve_right (by simp [hme])
        rcases PttPeer.initID_cases s.peer (some me.id) true i.challengeSalt with heq | ⟨-, hnone⟩
        · simp only [heq]
          rfl
        · exact absurd hnone hu
    rw [hsame]
    exact h
  | identifyPeerAck entityID data i =>
    simp only [step]
    rcases handleIdentifyPeerAck_cases Γ entityID data s.peer i with heq | hne
    · rw [heq]
      exact h
    · exact fun hu => absurd hu hne
  | resetInitID =>
    intro hu
    have hs := h hu
    exact ⟨hs.due, hs.single, .inl ⟨rfl, rfl, ended_closeIssues s _⟩⟩
  | expire e due =>
    simp only [step]
    split_ifs with hexp
    · exact fun hu => inv_expire (h (by simpa using hu)) hexp.1 hexp.2
    · exact h
  | tick d =>
    simp only [step]
    split_ifs with hd
    · exact fun hu => inv_tick (h hu) (by simpa using hd)
    · exact h

end IDSessionsAux

open IDRun IDSessionsAux in
/-- In a run on a connection every challenge is there as long as it should be and no longer, where every identification is begun for an entity of
which no timer runs, and none with the node's own identifier. -/
theorem idSessions_right (Γ : Ctx) (r : Router) (nodeID : NodeID) (evs : List IDEvent)
    (hfits : Trace.Always (step Γ r) (.new nodeID) evs (Fits r)) : Trace.Everywhere (step Γ r) (.new nodeID) evs Right := by
  have hnew : (IDRun.new nodeID).peer.userID = none → Inv (.new nodeID) :=
    fun _ => ⟨fun _ ht => absurd ht List.not_mem_nil, List.nodup_nil, .inl ⟨rfl, rfl, fun _ hi => absurd hi List.not_mem_nil⟩⟩
  intro before rest heq
  exact Inv.right (hfits.invariant hnew (fun _ ev h hc => step_inv h ev hc) before rest heq)

namespace IDSessionsWitness

open SigningWitness IdentityWitness

def withMyID : List IDEvent := [.identifyPeerWithMyID (input 3), .tick identifyPeerTimeout, .expire (some (idOf 9)) identifyPeerTimeout, .tick 1]

def restarted : List IDEvent :=
  [.initID (some (idOf 20)) false (saltOf 1), .tick 1, .resetInitID, .initID (some (idOf 20)) false (saltOf 2), .tick (identifyPeerTimeout - 1),
    .expire (some (idOf 20)) identifyPeerTimeout]

def once : List IDEvent := [.initID (some (idOf 20)) false (saltOf 1), .tick identifyPeerTimeout, .expire (some (idOf 20)) identifyPeerTimeout]

end IDSessionsWitness

open IDRun SigningWitness IdentityWitness IDSessionsWitness in
/-- The first challenge is still there after its time, the second one is gone before. -/
theorem idSessions_go_wrong : ¬ (Trace.after (step ctx router) (.new nodeID) withMyID).Right ∧
    ¬ (Trace.after (step ctx router) (.new nodeID) restarted).Right := by
  have hlate : (Trace.after (step ctx router) (.new nodeID) withMyID).peer.userID = none ∧
      (Trace.after (step ctx router) (.new nodeID) withMyID).issues = [⟨saltOf 3, 0, true⟩] ∧
      (Trace.after (step ctx router) (.new nodeID) withMyID).now = identifyPeerTimeout + 1 ∧
      (Trace.after (step ctx router) (.new nodeID) withMyID).peer.idChallenge = some (saltOf 3) := by decide +kernel
  have hearly : (Trace.after (step ctx router) (.new nodeID) restarted).peer.userID = none ∧
      (Trace.after (step ctx router) (.new nodeID) restarted).issues = [⟨saltOf 2, 1, true⟩, ⟨saltOf 1, 0, false⟩] ∧
      (Trace.after (step ctx router) (.new nodeID) restarted).now = identifyPeerTimeout ∧
      (Trace.after (step ctx router) (.new nodeID) restarted).peer.idChallenge = none := by decide +kernel
  refine ⟨fun h => ?_, fun h => ?_⟩
  · have hgone := (h hlate.1 _ _ hlate.2.1).2.1 (by rw [hlate.2.2.1]; decide)
    rw [hlate.2.2.2] at hgone
    cases hgone
  · have hthere := (h hearly.1 _ _ hearly.2.1).1 rfl (by rw [hearly.2.2.1]; decide)
    rw [hearly.2.2.2] at hthere
    cases hthere

open IDRun SigningWitness IdentityWitness IDSessionsWitness in
theorem idSessions_right_once : Trace.Everywhere (step ctx router) (.new nodeID) once Right := by
  refine idSessions_right ctx router nodeID once (Trace.always_cons.2 ⟨fun _ _ => ⟨by simp, fun _ => List.not_mem_nil⟩, ?_⟩)
  exact Trace.always_cons.2 ⟨trivial, Trace.always_cons.2 ⟨trivial, Trace.always_nil⟩⟩

end PttaiCore
