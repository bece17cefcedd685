import PttaiCore.Lemmas.Span

/-! # The trees of no oplog and of one -/

namespace PttaiCore

open MerkleTreeLevel List

theorem consistent_empty (Γ : Ctx) (m : Merkle) : Consistent Γ m .empty where
  tree := ⟨fun k v h => absurd h (by simp), fun level _ r v h => absurd h (by simp)⟩
  leaf r n h := absurd h (by simp)
  isStart level _ sec _ h := absurd (KeyStore.get_empty _) h
  node c := ⟨⟨fun _ => rfl, fun _ => rfl⟩, fun n h => absurd h (by simp)⟩

def leafNode (m : Merkle) (addr : ByteArrayOf 20) (t : Timestamp) (s : Bytes) : MerkleNode :=
  ⟨.now, addr, t, 0, m.partPrefix .oplog ++ (m.prefixID.1 ++ (t.marshal ++ s))⟩

theorem isLeaf_leafNode (m : Merkle) (addr : ByteArrayOf 20) (t : Timestamp) (s : Bytes) :
    IsLeaf m (leafNode m addr t s) (t.marshal ++ s) := ⟨rfl, rfl, prefix_append _ _, rfl⟩

section solo

variable (Γ : Ctx) (m : Merkle) (n : MerkleNode) (r : Bytes)

def soloAddr : MerkleTreeLevel → ByteArrayOf 20
  | .now | .invalid => n.addr
  | .hr => Γ.addr n.addr.1
  | .day => Γ.addr (Γ.addr n.addr.1).1
  | .month => Γ.addr (Γ.addr (Γ.addr n.addr.1).1).1
  | .year => Γ.addr (Γ.addr (Γ.addr (Γ.addr n.addr.1).1).1).1

def soloNode (level : MerkleTreeLevel) : MerkleNode :=
  if level = .now then n else ⟨level, soloAddr Γ n level, .ofSec (level.buckets.floor n.updateTS.ts.toInt), 1, []⟩

def soloRest (level : MerkleTreeLevel) : Bytes :=
  if level = .now then r else (Timestamp.ofSec (level.buckets.floor n.updateTS.ts.toInt)).marshal

def soloEntries : List (Bytes × Value) :=
  (now :: uppers).map fun level => (m.dbPrefix ++ (level.toUInt8 :: soloRest n r level), .node (soloNode Γ n level))

def soloTree : KeyStore Bytes Value := KeyStore.empty.putAll (soloEntries Γ m n r)

end solo

namespace SoloAux

variable {Γ : Ctx} {m : Merkle} {n u : MerkleNode} {r : Bytes} {level : MerkleTreeLevel}

theorem entries_soloTree : (soloTree Γ m n r).entries = soloEntries Γ m n r := by
  refine KeyStore.putAll_entries _ _ ?_
  have hlevels : (now :: uppers).Pairwise fun a b => a.toUInt8 < b.toUInt8 := by decide
  refine pairwise_map.2 (hlevels.imp fun hlt => ?_)
  rw [Bytes.append_lt_append_left, cons_lt_cons_iff]
  exact .inl hlt

theorem get_soloTree {k : Bytes} {v : Value} : (soloTree Γ m n r).get k = some v ↔
    ∃ level ∈ now :: uppers, k = m.dbPrefix ++ (level.toUInt8 :: soloRest n r level) ∧ v = .node (soloNode Γ n level) := by
  rw [KeyStore.get_eq_some_iff, entries_soloTree, soloEntries, mem_map]
  refine exists_congr fun level => and_congr_right fun _ => ?_
  rw [Prod.mk.injEq, eq_comm, @eq_comm _ v]

theorem get_level {s : Bytes} {v : Value} (hl : level ∈ now :: uppers) :
    (soloTree Γ m n r).get (m.dbPrefix ++ (level.toUInt8 :: s)) = some v ↔ s = soloRest n r level ∧ v = .node (soloNode Γ n level) := by
  rw [get_soloTree]
  constructor
  · rintro ⟨level', -, hkey, hv⟩
    obtain ⟨hlevel, hs⟩ := List.cons.inj (append_cancel_left hkey)
    rw [← toUInt8_injective hlevel] at hs hv
    exact ⟨hs, hv⟩
  · rintro ⟨rfl, rfl⟩
    exact ⟨level, hl, rfl, rfl⟩

theorem hasNode_iff (hl : level ∈ now :: uppers) : m.HasNode (soloTree Γ m n r) level u ↔ u = soloNode Γ n level := by
  constructor
  · rintro ⟨s, hget⟩
    exact Value.node.inj ((get_level hl).1 hget).2
  · rintro rfl
    exact ⟨_, (get_level hl).2 ⟨rfl, rfl⟩⟩

theorem soloNode_upper (hl : level ∈ uppers) :
    soloNode Γ n level = ⟨level, soloAddr Γ n level, .ofSec (level.buckets.floor n.updateTS.ts.toInt), 1, []⟩ := by
  refine if_neg ?_
  rintro rfl
  exact absurd hl (by decide)

theorem soloRest_upper (hl : level ∈ uppers) : soloRest n r level = (Timestamp.ofSec (level.buckets.floor n.updateTS.ts.toInt)).marshal := by
  refine if_neg ?_
  rintro rfl
  exact absurd hl (by decide)

theorem floor_toInt (level : MerkleTreeLevel) (h0 : 0 ≤ n.updateTS.ts.toInt) :
    (Int64.ofInt (level.buckets.floor n.updateTS.ts.toInt)).toInt = level.buckets.floor n.updateTS.ts.toInt :=
  toInt_ofInt (floor_nonneg level h0) ((level.buckets.floor_le _).trans_lt n.updateTS.ts.toInt_lt)

theorem shape_soloTree (h0 : 0 ≤ n.updateTS.ts.toInt) (hleaf : IsLeaf m n r) : TreeShape m (soloTree Γ m n r) where
  tree := by
    refine ⟨fun k v hget _ => ?_, fun level hl s v hget => ?_⟩
    · obtain ⟨level, -, -, rfl⟩ := get_soloTree.1 hget
      exact ⟨_, rfl⟩
    · obtain ⟨rfl, rfl⟩ := (get_level (.tail _ hl)).1 hget
      rw [soloNode_upper hl, soloRest_upper hl]
      exact ⟨_, rfl, _, _, rfl⟩
  leaf s u hget := by
    obtain ⟨rfl, hu⟩ := (get_level (.head _)).1 hget
    cases hu
    exact hleaf
  isStart level hl sec _ hget := by
    obtain ⟨v, hv⟩ := Option.ne_none_iff_exists'.1 hget
    rw [marshalKey_eq] at hv
    obtain ⟨hrest, -⟩ := (get_level (.tail _ hl)).1 hv
    rw [soloRest_upper hl] at hrest
    rw [marshal_sec_injective hrest, floor_toInt level h0, Buckets.floor_floor]

theorem floor_child (h0 : 0 ≤ n.updateTS.ts.toInt) (c : Span) :
    c.level.buckets.floor (soloNode Γ n c.level.child).updateTS.ts.toInt = c.level.buckets.floor n.updateTS.ts.toInt := by
  by_cases hhr : c.level = .hr
  · rw [hhr]
    rfl
  · rw [soloNode_upper (child_mem_uppers c.upper hhr)]
    exact (congrArg _ (floor_toInt c.level.child h0)).trans ((child_refines c.upper hhr).floor_floor _)

theorem children_soloTree (h0 : 0 ≤ n.updateTS.ts.toInt) (hleaf : IsLeaf m n r) (c : Span) :
    c.children m (soloTree Γ m n r) =
      if c.level.buckets.floor n.updateTS.ts.toInt = c.start then [soloNode Γ n c.level.child] else [] := by
  have hshape := shape_soloTree (Γ := Γ) h0 hleaf
  have hmem : ∀ u, u ∈ c.children m (soloTree Γ m n r) ↔
      u = soloNode Γ n c.level.child ∧ c.level.buckets.floor n.updateTS.ts.toInt = c.start := by
    intro u
    rw [hshape.mem_children, c.mem_bucket_iff, hasNode_iff c.child_mem]
    constructor
    · rintro ⟨rfl, hfloor⟩
      exact ⟨rfl, (floor_child h0 c).symm.trans hfloor⟩
    · rintro ⟨rfl, hfloor⟩
      exact ⟨rfl, (floor_child h0 c).trans hfloor⟩
  split_ifs with hfloor
  · refine perm_singleton.1 ((perm_ext_iff_of_nodup ?_ (nodup_singleton _)).2 fun u => ?_)
    · exact (hshape.pairwise_nodesBetween c.child_mem).imp And.right
    · rw [hmem, mem_singleton]
      exact and_iff_left hfloor
  · exact eq_nil_iff_forall_not_mem.2 fun u hu => hfloor ((hmem u).1 hu).2

theorem addr_child (c : Span) : soloAddr Γ n c.level = Γ.addr ((soloNode Γ n c.level.child).addr.1) := by
  have hupper := c.upper
  cases hl : c.level with
  | now => exact absurd (hl ▸ hupper) (by decide)
  | invalid => exact absurd (hl ▸ hupper) (by decide)
  | _ => rfl

end SoloAux

open SoloAux in
theorem consistent_soloTree (Γ : Ctx) {m : Merkle} {n : MerkleNode} {r : Bytes} (h0 : 0 ≤ n.updateTS.ts.toInt) (hleaf : IsLeaf m n r) :
    Consistent Γ m (soloTree Γ m n r) where
  toTreeShape := shape_soloTree h0 hleaf
  node c := by
    have hget : ∀ v, (soloTree Γ m n r).get (c.key m) = some v ↔
        c.level.buckets.floor n.updateTS.ts.toInt = c.start ∧ v = .node (soloNode Γ n c.level) := by
      intro v
      rw [Span.key, marshalKey_eq, get_level (mem_cons_of_mem _ c.upper), soloRest_upper c.upper]
      refine and_congr_left fun _ => ⟨fun hrest => ?_, fun hfloor => by rw [hfloor]⟩
      have hsec := congrArg Int64.toInt (marshal_sec_injective hrest)
      rw [floor_toInt c.level h0, toInt_ofInt c.nonneg c.start_lt] at hsec
      exact hsec.symm
    refine ⟨?_, fun u hu => ?_⟩
    · rw [children_soloTree h0 hleaf]
      split_ifs with hfloor
      · simp [(hget _).2 ⟨hfloor, rfl⟩]
      · simp only [iff_true]
        exact Option.eq_none_iff_forall_ne_some.2 fun v hv => hfloor ((hget v).1 hv).1
    · obtain ⟨hfloor, hnode⟩ := (hget _).1 hu
      cases hnode
      rw [Span.preimage, children_soloTree h0 hleaf, if_pos hfloor, soloNode_upper c.upper]
      refine ⟨rfl, (addr_child c).trans ?_⟩
      simp

end PttaiCore
