import PttaiCore.Lib.Trace
import PttaiCore.UserNodes

/-! # The summary of a profile's nodes -/

namespace PttaiCore

open KeyStore List

namespace Account

inductive NodeCall where
  /-- A node becomes alive. -/
  | alive (id : PttID) (rand : Nat)
  /-- A node is saved as deleted. -/
  | deleted (id : PttID) (rand : Nat)
  | clean
  | restart

namespace UserNodes

variable (s : UserNodes)

def call : NodeCall → Except Err UserNodes
  | .alive id rand =>
    if s.nodes.get id = some .alive then .ok s else .ok ({ s with nodes := s.nodes.put id .alive }.postcreateUserNode id rand)
  | .deleted id rand => { s with nodes := s.nodes.put id .deleted }.postdeleteUserNode id rand
  | .clean => .ok s.cleanUserNode
  | .restart => .ok s.initUserNode

def step : Except Err UserNodes → NodeCall → Except Err UserNodes
  | .error e, _ => .error e
  | .ok s, c => s.call c

def info : UserNodeInfo := s.userNodeInfo.getD ⟨none, 0⟩

structure Summed (s : UserNodes) : Prop where
  count : s.info.nUserNode = s.aliveIDs.length
  none_of_nil : s.aliveIDs = [] → s.info.userNodeID = none
  exists_of_ne_nil : s.aliveIDs ≠ [] → ∃ id, s.info.userNodeID = some id ∧ s.nodes.get id = some .alive

def Right (r : Except Err UserNodes) : Prop := ∃ s, r = .ok s ∧ s.Summed

def Stored : Prop := s.dbUserNodeInfo.getD ⟨none, 0⟩ = s.info

def Fits (r : Except Err UserNodes) (c : NodeCall) : Prop :=
  ∀ s, r = .ok s → ∀ id rand, c = .deleted id rand →
    s.userNodeInfo ≠ none ∧ (s.info.userNodeID = some id ∨ ∀ id', s.nodes.get id' = some .alive → id' = id)

end UserNodes

namespace UserNodesAux

open UserNodes

variable {s : UserNodes} {id : PttID} {rand : Nat}

theorem mem_aliveIDs : id ∈ s.aliveIDs ↔ s.nodes.get id = some .alive := by
  rw [aliveIDs, mem_map]
  constructor
  · rintro ⟨e, he, rfl⟩
    obtain ⟨hmem, halive⟩ := mem_filter.1 he
    rw [get_eq_some_iff, ← beq_iff_eq.1 halive]
    exact hmem
  · intro h
    exact ⟨(id, .alive), mem_filter.2 ⟨get_eq_some_iff.1 h, rfl⟩, rfl⟩

theorem nodup_aliveIDs (s : UserNodes) : s.aliveIDs.Nodup :=
  (filter_sublist.map Prod.fst).nodup s.nodes.nodup_keys

theorem aliveIDs_eq_nil_iff : s.aliveIDs = [] ↔ ∀ id, s.nodes.get id ≠ some .alive := by
  rw [eq_nil_iff_forall_not_mem]
  exact forall_congr' fun id => not_congr mem_aliveIDs

variable (info : UserNodeInfo) (r : Except Err UserNodes)

@[simp] theorem saveInfo_aliveIDs : (s.saveInfo info).aliveIDs = s.aliveIDs := rfl

@[simp] theorem saveInfo_info : (s.saveInfo info).info = info := rfl

@[simp] theorem saveInfo_nodes : (s.saveInfo info).nodes = s.nodes := rfl

theorem stored_saveInfo : (s.saveInfo info).Stored := rfl

theorem length_aliveIDs_put (h : s.nodes.get id ≠ some .alive) :
    ({ s with nodes := s.nodes.put id .alive } : UserNodes).aliveIDs.length = s.aliveIDs.length + 1 := by
  have hperm : ({ s with nodes := s.nodes.put id .alive } : UserNodes).aliveIDs.Perm (id :: s.aliveIDs) := by
    refine (perm_ext_iff_of_nodup (nodup_aliveIDs _) ?_).2 ?_
    · exact nodup_cons.2 ⟨fun hmem => h (mem_aliveIDs.1 hmem), nodup_aliveIDs s⟩
    · intro id'
      rw [mem_aliveIDs, mem_cons, mem_aliveIDs, get_put]
      by_cases hid : id' = id
      · simp [hid]
      · simp [hid]
  rw [hperm.length_eq, length_cons]

/-! ## Creating -/

theorem info_postcreate (hstored : s.Stored) : s.postcreateUserNode id rand =
    { s with userNodeInfo := s.userNodeInfo.or (some s.info) }.saveInfo
      ⟨if rand % (s.info.nUserNode + 1) = 0 then some id else s.info.userNodeID, s.info.nUserNode + 1⟩ := by
  rw [postcreateUserNode]
  cases hinfo : s.userNodeInfo with
  | none =>
    have hdb : s.dbUserNodeInfo.getD ⟨none, 0⟩ = s.info := hstored
    simp [initUserNode, hdb, saveInfo]
  | some i => simp [hinfo, UserNodes.info, saveInfo]

theorem summed_alive (h : s.Summed) (hstored : s.Stored) (hnot : s.nodes.get id ≠ some .alive) :
    ({ s with nodes := s.nodes.put id .alive }.postcreateUserNode id rand).Summed := by
  have hlen := length_aliveIDs_put hnot
  rw [info_postcreate (s := { s with nodes := s.nodes.put id .alive }) hstored]
  refine ⟨?_, ?_, ?_⟩
  · rw [saveInfo_info, saveInfo_aliveIDs]
    exact (congrArg (· + 1) h.count).trans hlen.symm
  · intro hnil
    rw [saveInfo_aliveIDs] at hnil
    have : ({ s with nodes := s.nodes.put id .alive } : UserNodes).aliveIDs.length = 0 := by
      rw [show ({ s with nodes := s.nodes.put id .alive } : UserNodes).aliveIDs = [] from hnil, length_nil]
    omega
  · intro _
    rw [saveInfo_info, saveInfo_nodes]
    split_ifs with hrand
    · exact ⟨id, rfl, by rw [get_put, if_pos rfl]⟩
    · -- the choice is among more than one node, so there was one to turn to
      have hne : s.aliveIDs ≠ [] := by
        intro hnil
        have hzero : s.info.nUserNode = 0 := by rw [h.count, hnil, length_nil]
        refine hrand ?_
        change rand % (s.info.nUserNode + 1) = 0
        rw [hzero, Nat.mod_one]
      obtain ⟨id', hid', halive⟩ := h.exists_of_ne_nil hne
      refine ⟨id', hid', ?_⟩
      rw [get_put]
      split_ifs
      · rfl
      · exact halive

theorem stored_alive (hstored : s.Stored) : ({ s with nodes := s.nodes.put id .alive }.postcreateUserNode id rand).Stored := by
  rw [info_postcreate (s := { s with nodes := s.nodes.put id .alive }) hstored]
  exact stored_saveInfo _

/-! ## Deleting -/

theorem get_put_deleted {id' : PttID} :
    (s.nodes.put id .deleted).get id' = some .alive ↔ id' ≠ id ∧ s.nodes.get id' = some .alive := by
  rw [get_put]
  by_cases hid : id' = id
  · simp [hid]
  · simp [hid]

theorem aliveIDs_deleted_eq_nil_iff :
    ({ s with nodes := s.nodes.put id .deleted } : UserNodes).aliveIDs = [] ↔ ∀ id', s.nodes.get id' = some .alive → id' = id := by
  rw [aliveIDs_eq_nil_iff]
  refine forall_congr' fun id' => ?_
  change ¬ (s.nodes.put id .deleted).get id' = some .alive ↔ _
  rw [get_put_deleted, not_and', not_not]

theorem summed_empty (h : s.aliveIDs = []) : (s.saveInfo ⟨none, s.aliveIDs.length⟩).Summed :=
  ⟨rfl, fun _ => rfl, fun hne => absurd h hne⟩

theorem summed_chosen (h : s.aliveIDs ≠ []) :
    (s.saveInfo ⟨s.aliveIDs[rand % s.aliveIDs.length]?, s.aliveIDs.length⟩).Summed := by
  refine ⟨rfl, fun hnil => absurd hnil h, fun _ => ?_⟩
  have hlt : rand % s.aliveIDs.length < s.aliveIDs.length := Nat.mod_lt _ (length_pos_of_ne_nil h)
  obtain ⟨id', hid'⟩ : ∃ id', s.aliveIDs[rand % s.aliveIDs.length]? = some id' := ⟨_, List.getElem?_eq_getElem hlt⟩
  exact ⟨id', hid', mem_aliveIDs.1 (mem_of_getElem? hid')⟩

theorem postdelete_right_iff (i : UserNodeInfo) (hinfo : s.userNodeInfo = some i) :
    Right (s.postdeleteUserNode id rand) ↔ i.userNodeID = some id ∨ s.aliveIDs = [] := by
  rw [postdeleteUserNode, hinfo]
  dsimp only
  by_cases hnil : s.aliveIDs = []
  · rw [if_pos (by rw [hnil, length_nil])]
    exact iff_of_true ⟨_, rfl, summed_empty hnil⟩ (.inr hnil)
  · rw [if_neg fun hzero => hnil (eq_nil_of_length_eq_zero hzero)]
    by_cases hid : i.userNodeID = some id
    · rw [if_neg (not_not.2 hid)]
      exact iff_of_true ⟨_, rfl, summed_chosen hnil⟩ (.inl hid)
    · rw [if_pos hid]
      refine iff_of_false ?_ (not_or.2 ⟨hid, hnil⟩)
      rintro ⟨s', heq, hsum⟩
      cases heq
      obtain ⟨id', hnone, -⟩ := hsum.exists_of_ne_nil hnil
      cases hnone

theorem stored_postdelete {s' : UserNodes} (h : s.postdeleteUserNode id rand = .ok s') : s'.Stored := by
  rw [postdeleteUserNode] at h
  cases hinfo : s.userNodeInfo with
  | none =>
    rw [hinfo] at h
    cases h
  | some i =>
    rw [hinfo] at h
    dsimp only at h
    split_ifs at h <;> cases h <;> exact stored_saveInfo _

/-! ## All calls -/

def Kept : Prop := ∃ s, r = .ok s ∧ s.Summed ∧ s.Stored

theorem summed_clean (s : UserNodes) : s.cleanUserNode.Summed :=
  ⟨rfl, fun _ => rfl, fun hne => absurd rfl hne⟩

theorem stored_clean (hstored : s.Stored) : s.cleanUserNode.Stored := by
  cases hinfo : s.userNodeInfo with
  | none =>
    have hdb : s.dbUserNodeInfo.getD ⟨none, 0⟩ = s.info := hstored
    rw [Stored, cleanUserNode, hinfo]
    rw [UserNodes.info, hinfo] at hdb
    exact hdb
  | some i =>
    rw [Stored, cleanUserNode, hinfo]
    rfl

theorem info_initUserNode (hstored : s.Stored) : s.initUserNode.info = s.info := hstored

theorem summed_restart (h : s.Summed) (hstored : s.Stored) : s.initUserNode.Summed := by
  have hinfo := info_initUserNode hstored
  refine ⟨?_, ?_, ?_⟩
  · rw [hinfo]
    exact h.count
  · rw [hinfo]
    exact h.none_of_nil
  · rw [hinfo]
    exact h.exists_of_ne_nil

theorem right_step_iff (c : NodeCall) (h : Kept r) : Right (UserNodes.step r c) ↔ Fits r c := by
  obtain ⟨s, rfl, hsum, hstored⟩ := h
  have hfits : (∀ id rand, c ≠ .deleted id rand) → Fits (.ok s) c := fun hne _ _ id rand heq => absurd heq (hne id rand)
  cases c with
  | alive id rand =>
    refine iff_of_true ?_ (hfits fun _ _ heq => by cases heq)
    rw [UserNodes.step, call]
    split_ifs with halive
    · exact ⟨s, rfl, hsum⟩
    · exact ⟨_, rfl, summed_alive hsum hstored halive⟩
  | clean => exact iff_of_true ⟨_, rfl, summed_clean s⟩ (hfits fun _ _ heq => by cases heq)
  | restart => exact iff_of_true ⟨_, rfl, summed_restart hsum hstored⟩ (hfits fun _ _ heq => by cases heq)
  | deleted id rand =>
    have hiff : Fits (.ok s) (.deleted id rand) ↔
        s.userNodeInfo ≠ none ∧ (s.info.userNodeID = some id ∨ ∀ id', s.nodes.get id' = some .alive → id' = id) := by
      constructor
      · intro h
        exact h s rfl id rand rfl
      · intro h s' hs' id' rand' heq
        cases hs'
        cases heq
        exact h
    rw [hiff, UserNodes.step, call, ← aliveIDs_deleted_eq_nil_iff]
    cases hinfo : s.userNodeInfo with
    | none =>
      refine iff_of_false ?_ fun h => h.1 rfl
      rintro ⟨s', heq, -⟩
      rw [postdeleteUserNode] at heq
      cases heq
    | some i =>
      have hi : s.info = i := by rw [UserNodes.info, hinfo, Option.getD_some]
      rw [postdelete_right_iff (s := { s with nodes := s.nodes.put id .deleted, userNodeInfo := some i }) i rfl, hi]
      exact (and_iff_right (by simp)).symm

theorem kept_step (c : NodeCall) (h : Kept r) (hfit : Fits r c) : Kept (UserNodes.step r c) := by
  obtain ⟨s', hs', hsum'⟩ := (right_step_iff r c h).2 hfit
  refine ⟨s', hs', hsum', ?_⟩
  obtain ⟨s, rfl, hsum, hstored⟩ := h
  rw [UserNodes.step] at hs'
  cases c with
  | alive id rand =>
    rw [call] at hs'
    split_ifs at hs' with halive
    · cases hs'
      exact hstored
    · cases hs'
      exact stored_alive hstored
  | deleted id rand => exact stored_postdelete hs'
  | clean =>
    cases hs'
    exact stored_clean hstored
  | restart =>
    cases hs'
    rw [Stored, info_initUserNode hstored]
    exact hstored

end UserNodesAux

open UserNodes UserNodesAux in
/-- From a right summary that is stored, all calls of a sequence leave a right one exactly if each deletes no node or one that fits. -/
theorem userNodeInfo_right_iff (s : UserNodes) (hsum : s.Summed) (hstored : s.Stored) (calls : List NodeCall) :
    Trace.Everywhere UserNodes.step (.ok s) calls Right ↔ Trace.Always UserNodes.step (.ok s) calls Fits :=
  Trace.everywhere_iff_always (I := UserNodesAux.Kept) ⟨s, rfl, hsum, hstored⟩ ⟨s, rfl, hsum⟩ right_step_iff kept_step

namespace UserNodesWitness

def start : UserNodes := ⟨KeyStore.empty, some ⟨none, 0⟩, none⟩

theorem summed_start : start.Summed := ⟨rfl, fun _ => rfl, fun hne => absurd rfl hne⟩

def node (b : UInt8) : PttID := ByteArrayOf.replicate 40 b

end UserNodesWitness

open UserNodes UserNodesWitness in
/-- A node is created, and the profile restarted. -/
theorem userNodeInfo_right_iff_two : Trace.Everywhere UserNodes.step (.ok start) [.alive (node 1) 0, .restart] Right := by
  refine (userNodeInfo_right_iff start summed_start rfl _).2 ?_
  intro before c rest heq s _ id rand hc
  subst hc
  have hmem : NodeCall.deleted id rand ∈ [NodeCall.alive (node 1) 0, .restart] := by
    rw [heq]
    exact List.mem_append_right before List.mem_cons_self
  simp at hmem

open UserNodes UserNodesWitness in
/-- Of two nodes the one that is not turned to is deleted, and the other is forgotten; and a node that is deleted after cleaning panics. -/
theorem node_alive_is_forgotten : start.Summed ∧ start.Stored ∧
    (Trace.after UserNodes.step (.ok start) [.alive (node 1) 0, .alive (node 2) 1, .deleted (node 2) 0]).toOption.map
      (fun s => (s.nodes.get (node 1), s.info)) = some (some .alive, ⟨none, 1⟩) ∧
    Trace.after UserNodes.step (.ok start) [.clean, .deleted (node 1) 0] = .error .panic := by
  refine ⟨summed_start, rfl, by decide +kernel, by decide +kernel⟩

end Account

end PttaiCore
