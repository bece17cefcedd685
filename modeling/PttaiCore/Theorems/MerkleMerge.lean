import PttaiCore.MerkleMerge

/-! # The walks through the nodes of two sides are right -/

namespace PttaiCore

open Timestamp List

namespace WireNode

variable (nodes : List WireNode)

def InOrder : Prop :=
  nodes.Pairwise fun a b => a.updateTS.isLess b.updateTS = true ∨ a.updateTS = b.updateTS ∧ b.level ≤ a.level

def SamePlace (x y : WireNode) : Prop := x.updateTS = y.updateTS ∧ x.level = y.level

def Agrees (x y : WireNode) : Prop := SamePlace x y ∧ x.nChildren = y.nChildren ∧ x.addr = y.addr

def cutAt (ts : Timestamp) : List WireNode :=
  if ts = .zero then nodes else nodes.takeWhile fun n => n.updateTS.isLess ts

def UniquePlaces : Prop := nodes.Pairwise fun a b => ¬ SamePlace a b

end WireNode

namespace MerkleMergeAux

open WireNode

variable {x y : WireNode} {my their nodes : List WireNode} {ts : Timestamp}

/-! ## The loop as a merge -/

def wireVerdict (x y : WireNode) : MergeVerdict :=
  if x.updateTS.isLess y.updateTS then .left
  else if y.updateTS.isLess x.updateTS then .right
  else if x.level > y.level then .left
  else if x.level < y.level then .right
  else if x.nChildren > y.nChildren then .both true false
  else if x.nChildren < y.nChildren then .both false true
  else if x.addr ≠ y.addr then .both true true
  else .both false false

variable (rounds : Nat)

theorem diffLoop_nil_left (myNew theirNew : List WireNode) :
    diffLoop rounds [] their myNew theirNew = (myNew ++ their, theirNew) := by
  cases rounds <;> simp [diffLoop]

theorem diffLoop_nil_right (myNew theirNew : List WireNode) :
    diffLoop rounds my [] myNew theirNew = (myNew, theirNew ++ my) := by
  cases rounds <;> cases my <;> simp [diffLoop]

theorem diffLoop_eq (my their myNew theirNew : List WireNode) (h : my.length + their.length ≤ rounds) :
    diffLoop rounds my their myNew theirNew =
      (myNew ++ (mergeDiff wireVerdict my their).1, theirNew ++ (mergeDiff wireVerdict my their).2) := by
  induction rounds generalizing my their myNew theirNew with
  | zero =>
    obtain ⟨hmy, htheir⟩ : my.length = 0 ∧ their.length = 0 := by omega
    rw [length_eq_zero_iff.1 hmy, length_eq_zero_iff.1 htheir]
    rfl
  | succ rounds ih =>
    cases my with
    | nil => rw [diffLoop_nil_left, mergeDiff_nil_left, append_nil]
    | cons x my =>
      cases their with
      | nil => rw [diffLoop_nil_right, mergeDiff_nil_right, append_nil]
      | cons y their =>
        rw [length_cons, length_cons] at h
        have hleft := ih my (y :: their) myNew (theirNew ++ [x]) (by rw [length_cons]; omega)
        have hright := ih (x :: my) their (myNew ++ [y]) theirNew (by rw [length_cons]; omega)
        have hboth := fun myNew theirNew => ih my their myNew theirNew (by omega)
        rw [diffLoop, mergeDiff_cons_cons, wireVerdict]
        split_ifs <;> simp only [hleft, hright, hboth] <;> simp

/-! ## The verdict -/

def place (n : WireNode) : (Int ×ₗ Nat) ×ₗ Natᵒᵈ := toLex (n.updateTS.order, OrderDual.toDual n.level.toNat)

theorem order_inj {t u : Timestamp} : t.order = u.order ↔ t = u := ⟨order_injective, fun h => by rw [h]⟩

theorem place_lt_iff : place x < place y ↔ x.updateTS.isLess y.updateTS = true ∨ x.updateTS = y.updateTS ∧ y.level < x.level := by
  rw [place, place, Prod.Lex.toLex_lt_toLex, isLess_iff, order_inj, OrderDual.toDual_lt_toDual, UInt8.lt_iff_toNat_lt]

theorem place_eq_iff : place x = place y ↔ SamePlace x y := by
  rw [place, place, EmbeddingLike.apply_eq_iff_eq, Prod.mk.injEq, order_inj, OrderDual.toDual_inj, UInt8.toNat_inj]
  rfl

theorem updateTS_eq_of_not (h1 : ¬ x.updateTS.isLess y.updateTS = true) (h2 : ¬ y.updateTS.isLess x.updateTS = true) :
    x.updateTS = y.updateTS :=
  eq_of_not_isLess (Bool.not_eq_true _ ▸ h1) (Bool.not_eq_true _ ▸ h2)

theorem wireVerdict_follows : MergeVerdict.Follows wireVerdict place := by
  refine ⟨fun x y h => ?_, fun x y h => ?_, fun x y a b h => ?_⟩ <;> unfold wireVerdict at h <;>
    split_ifs at h with h1 h2 h3 h4
  · exact place_lt_iff.2 (.inl h1)
  · exact place_lt_iff.2 (.inr ⟨updateTS_eq_of_not h1 h2, h3⟩)
  · exact place_lt_iff.2 (.inl h2)
  · exact place_lt_iff.2 (.inr ⟨(updateTS_eq_of_not h1 h2).symm, h4⟩)
  all_goals exact place_eq_iff.2 ⟨updateTS_eq_of_not h1 h2, le_antisymm (not_lt.1 h3) (not_lt.1 h4)⟩

theorem wireVerdict_of_lt (h : place x < place y) : wireVerdict x y = .left := by
  cases hv : wireVerdict x y with
  | left => rfl
  | right => exact absurd (wireVerdict_follows.right x y hv) h.not_gt
  | both a b => exact absurd (wireVerdict_follows.both x y a b hv) h.ne

theorem wireVerdict_of_gt (h : place y < place x) : wireVerdict x y = .right := by
  cases hv : wireVerdict x y with
  | left => exact absurd (wireVerdict_follows.left x y hv) h.not_gt
  | right => rfl
  | both a b => exact absurd (wireVerdict_follows.both x y a b hv) h.ne'

theorem wireVerdict_of_samePlace (h : SamePlace x y) : wireVerdict x y =
    if x.nChildren > y.nChildren then .both true false
    else if x.nChildren < y.nChildren then .both false true
    else if x.addr ≠ y.addr then .both true true else .both false false := by
  simp [wireVerdict, h.1, h.2]

theorem wireVerdict_swap (x y : WireNode) : wireVerdict y x = (wireVerdict x y).swap := by
  rcases lt_trichotomy (place x) (place y) with h | h | h
  · rw [wireVerdict_of_lt h, wireVerdict_of_gt h]
    rfl
  · have hplace := place_eq_iff.1 h
    rw [wireVerdict_of_samePlace hplace, wireVerdict_of_samePlace ⟨hplace.1.symm, hplace.2.symm⟩]
    by_cases hgt : y.nChildren < x.nChildren
    · simp [hgt, UInt32.not_lt.2 (UInt32.le_of_lt hgt), MergeVerdict.swap]
    · by_cases hlt : x.nChildren < y.nChildren
      · simp [hgt, hlt, MergeVerdict.swap]
      · by_cases haddr : x.addr = y.addr
        · simp [hgt, hlt, haddr, MergeVerdict.swap]
        · simp [hgt, hlt, haddr, Ne.symm haddr, MergeVerdict.swap]
  · rw [wireVerdict_of_gt h, wireVerdict_of_lt h]
    rfl

theorem wireVerdict_eq_both_false_iff : wireVerdict x y = .both false false ↔ Agrees x y := by
  constructor
  · intro h
    have hplace := place_eq_iff.1 (wireVerdict_follows.both x y _ _ h)
    rw [wireVerdict_of_samePlace hplace] at h
    split_ifs at h with h1 h2 h3
    · cases h
    · cases h
    · cases h
    · exact ⟨hplace, UInt32.le_antisymm (UInt32.not_lt.1 h1) (UInt32.not_lt.1 h2), not_not.1 h3⟩
  · rintro ⟨hplace, hn, haddr⟩
    rw [wireVerdict_of_samePlace hplace]
    simp [hn, haddr]

/-! ## The cut -/

theorem trim_eq (h : InOrder nodes) : WireNode.validateMerkleTreeTrimNodes nodes ts = nodes.takeWhile fun n => n.updateTS.isLess ts := by
  have hmono : nodes.Pairwise fun a b => ts.isLessEqual a.updateTS = true → ts.isLessEqual b.updateTS = true := by
    refine h.imp fun {a b} hab hle => ?_
    rw [isLessEqual_iff] at hle ⊢
    rcases hab with hlt | ⟨heq, -⟩
    · exact hle.trans ((isLess_iff _ _).1 hlt).le
    · rwa [← heq]
  rw [WireNode.validateMerkleTreeTrimNodes, take_bisect hmono]
  congr 1
  funext n
  rw [isLessEqual_eq, Bool.not_not]

theorem diffMerkleTree_eq_merge (hmy : InOrder my) (htheir : InOrder their) :
    WireNode.diffMerkleTree my their ts = mergeDiff wireVerdict (cutAt my ts) (cutAt their ts) := by
  have hzero : ts.isEqual .zero = true ↔ ts = .zero := by
    rw [Timestamp.isEqual, Bool.and_eq_true, beq_iff_eq, beq_iff_eq, ← Timestamp.mk.injEq]
  rw [WireNode.diffMerkleTree, trim_eq hmy, trim_eq htheir, diffLoop_eq _ _ _ _ _ le_rfl, nil_append, nil_append]
  simp only [hzero]
  rfl

theorem cutAt_sublist : (cutAt nodes ts).Sublist nodes := by
  unfold cutAt
  split_ifs
  · exact List.Sublist.refl _
  · exact takeWhile_sublist _

theorem strict_of_inOrder (h : InOrder nodes) (hunique : UniquePlaces nodes) : nodes.Pairwise fun a b => place a < place b := by
  refine (h.and hunique).imp fun {a b} hab => place_lt_iff.2 ?_
  rcases hab.1 with hlt | ⟨hts, hle⟩
  · exact .inl hlt
  · exact .inr ⟨hts, lt_of_le_of_ne hle fun heq => hab.2 ⟨hts, heq.symm⟩⟩

/-! ## The nodes of own trees -/

theorem wireVerdict_toWire (x y : MerkleNode) : wireVerdict x.toWire y.toWire = diffVerdict x y := by
  have haddr : (x.toWire.addr ≠ y.toWire.addr) ↔ x.addr ≠ y.addr := not_congr (Option.some_inj.trans Subtype.ext_iff.symm)
  unfold wireVerdict diffVerdict
  simp only [haddr]
  split_ifs <;> simp_all [MerkleNode.toWire]

theorem trim_toWire (nodes : List MerkleNode) (ts : Timestamp) :
    WireNode.validateMerkleTreeTrimNodes (nodes.map MerkleNode.toWire) ts = (PttaiCore.validateMerkleTreeTrimNodes nodes ts).map MerkleNode.toWire := by
  rw [WireNode.validateMerkleTreeTrimNodes, PttaiCore.validateMerkleTreeTrimNodes, length_map, ← map_take]
  congr 3
  funext i
  rw [List.getElem?_map]
  cases nodes[i]? <;> rfl

end MerkleMergeAux

open MerkleMergeAux

/-- The loop of `DiffMerkleTree` computes the difference of the model of the synchronisation. -/
theorem diffMerkleTree_toWire (my their : List MerkleNode) (ts : Timestamp) :
    WireNode.diffMerkleTree (my.map MerkleNode.toWire) (their.map MerkleNode.toWire) ts =
      (diffMerkleTree my their ts).map (List.map MerkleNode.toWire) (List.map MerkleNode.toWire) := by
  rw [WireNode.diffMerkleTree, diffLoop_eq _ _ _ _ _ le_rfl, trim_toWire, trim_toWire, diffMerkleTree]
  simp only [nil_append, Prod.mk.eta]
  split_ifs <;> rw [mergeDiff_map] <;> simp only [wireVerdict_toWire]

open WireNode in
/-- For lists in order: nothing is reported exactly if the lists agree up to the cut; a node without a counterpart is reported; where the
counterparts are unique, none that agrees is reported; and exchanging the sides exchanges the results. -/
theorem diffMerkleTree_right {my their : List WireNode} (hmy : InOrder my) (htheir : InOrder their) (ts : Timestamp) :
    (((WireNode.diffMerkleTree my their ts).1 = [] ∧ (WireNode.diffMerkleTree my their ts).2 = []) ↔
      List.Forall₂ Agrees (cutAt my ts) (cutAt their ts)) ∧
    (∀ x ∈ cutAt my ts, (∀ y ∈ cutAt their ts, ¬ SamePlace x y) → x ∈ (WireNode.diffMerkleTree my their ts).2) ∧
    (∀ y ∈ cutAt their ts, (∀ x ∈ cutAt my ts, ¬ SamePlace x y) → y ∈ (WireNode.diffMerkleTree my their ts).1) ∧
    (UniquePlaces (cutAt my ts) → UniquePlaces (cutAt their ts) → ∀ x ∈ cutAt my ts, ∀ y ∈ cutAt their ts, Agrees x y →
      x ∉ (WireNode.diffMerkleTree my their ts).2 ∧ y ∉ (WireNode.diffMerkleTree my their ts).1) ∧
    WireNode.diffMerkleTree their my ts = (WireNode.diffMerkleTree my their ts).swap := by
  rw [diffMerkleTree_eq_merge hmy htheir, diffMerkleTree_eq_merge htheir hmy]
  refine ⟨?_, fun x hx hnone => ?_, fun y hy hnone => ?_, fun hunique hunique' x hx y hy hagree => ?_, mergeDiff_swap wireVerdict_swap _ _⟩
  · rw [mergeDiff_eq_nil_iff]
    simp only [wireVerdict_eq_both_false_iff]
  · exact mem_snd_of_forall _ _ hx fun y hy b hv => hnone y hy (place_eq_iff.1 (wireVerdict_follows.both x y _ _ hv))
  · exact mem_fst_of_forall _ _ hy fun x hx a hv => hnone x hx (place_eq_iff.1 (wireVerdict_follows.both x y _ _ hv))
  · have hmy' := strict_of_inOrder (hmy.sublist cutAt_sublist) hunique
    have htheir' := strict_of_inOrder (htheir.sublist cutAt_sublist) hunique'
    have hknown := wireVerdict_eq_both_false_iff.2 hagree
    exact ⟨not_mem_snd_of_known wireVerdict_follows hmy' htheir' hx hy hknown,
      not_mem_fst_of_known wireVerdict_follows wireVerdict_swap hmy' htheir' hx hy hknown⟩

/-! ## Keys -/

def WireNode.KeysIncrease (nodes : List WireNode) : Prop := (nodes.map WireNode.key).Pairwise (· < ·)

namespace MergeKeysAux

variable {len lenMy lenTheir : Nat} {c : KeyCursor} {s : MergeKeys} {k : Bytes} {ks ks' : List Bytes}

def Holds (len : Nat) (c : KeyCursor) : List Bytes → Prop
  | [] => c.idx = len
  | k :: ks => c.idx + (ks.length + 1) = len ∧ c.key = k ∧ c.nodes.map WireNode.key = k :: ks

theorem holds_next {k' : Bytes} (h : Holds len c (k :: k' :: ks)) :
    c.incr.idx < len ∧ ∃ c', c.incr.next = some c' ∧ Holds len c' (k' :: ks) := by
  obtain ⟨hidx, -, hnodes⟩ := h
  rw [length_cons] at hidx
  obtain ⟨n, rest, hrest, -, hmap⟩ := map_eq_cons_iff.1 hnodes
  obtain ⟨n', rest', rfl, hkey, hmap'⟩ := map_eq_cons_iff.1 hmap
  have hlt : c.idx + 1 < len := by omega
  refine ⟨hlt, { c.incr with nodes := n' :: rest', key := n'.key }, ?_, ?_, hkey, ?_⟩
  · rw [KeyCursor.next, KeyCursor.incr, hrest]
  · change c.idx + 1 + _ = len
    omega
  · rw [map_cons, hkey, hmap']

theorem holds_advance (h : Holds len c (k :: ks)) :
    (ks = [] ∧ c.incr.idx = len ∧ Holds len c.incr []) ∨ (c.incr.idx < len ∧ ∃ c', c.incr.next = some c' ∧ Holds len c' ks) := by
  cases ks with
  | nil => exact .inl ⟨rfl, h.1, h.1⟩
  | cons k' ks => exact .inr (holds_next h)

theorem holds_step (h : Holds len c (k :: ks)) :
    ∃ c', c.incr.nextWithin len = some c' ∧ Holds len c' ks := by
  rw [KeyCursor.nextWithin]
  rcases holds_advance h with ⟨rfl, hend, hholds⟩ | ⟨hlt, c', hc', hholds⟩
  · exact ⟨c.incr, if_neg hend.not_lt, hholds⟩
  · exact ⟨c', by rw [if_pos hlt, hc'], hholds⟩

theorem drain_eq (rounds : Nat) (newKeys : List Bytes) (h : Holds len c ks) (hrounds : ks.length ≤ rounds) :
    c.drain len rounds newKeys = some (newKeys ++ ks) := by
  induction rounds generalizing c ks newKeys with
  | zero =>
    rw [length_eq_zero_iff.1 (Nat.le_zero.1 hrounds), append_nil]
    rfl
  | succ rounds ih =>
    rw [KeyCursor.drain]
    cases ks with
    | nil => rw [if_neg (by rw [show c.idx = len from h]; exact lt_irrefl _), append_nil]
    | cons k ks =>
      have hidx := h.1
      rw [if_pos (by omega), h.2.1]
      cases ks with
      | nil => rw [if_pos (show c.idx + 1 = len from h.1)]
      | cons k' ks =>
        obtain ⟨hlt, c', hc', hholds⟩ := holds_next h
        rw [if_neg (show c.idx + 1 ≠ len from hlt.ne), hc', Option.bind_eq_bind, Option.bind_some, ih _ hholds (by simpa using hrounds),
          append_assoc, singleton_append]

theorem loop_eq (rounds : Nat) (hmy : Holds lenMy s.my ks) (htheir : Holds lenTheir s.their ks') (hrounds : ks.length + ks'.length ≤ rounds) :
    ∃ s' rs rs', MergeKeys.loop lenMy lenTheir rounds s = some s' ∧ Holds lenMy s'.my rs ∧ Holds lenTheir s'.their rs' ∧
      rs.length ≤ ks.length ∧ rs'.length ≤ ks'.length ∧
      s'.myNewKeys ++ rs' = s.myNewKeys ++ (mergeDiff keyVerdict ks ks').1 ∧
      s'.theirNewKeys ++ rs = s.theirNewKeys ++ (mergeDiff keyVerdict ks ks').2 := by
  induction rounds generalizing s ks ks' with
  | zero =>
    obtain ⟨h1, h2⟩ : ks.length = 0 ∧ ks'.length = 0 := by omega
    rw [length_eq_zero_iff.1 h1] at hmy ⊢
    rw [length_eq_zero_iff.1 h2] at htheir ⊢
    exact ⟨s, [], [], rfl, hmy, htheir, le_rfl, le_rfl, rfl, rfl⟩
  | succ rounds ih =>
    rw [MergeKeys.loop]
    cases ks with
    | nil =>
      have hend : ¬ (s.my.idx < lenMy ∧ s.their.idx < lenTheir) := fun h => absurd (show s.my.idx = lenMy from hmy) h.1.ne
      rw [if_neg hend]
      exact ⟨s, [], ks', rfl, hmy, htheir, le_rfl, le_rfl, rfl, rfl⟩
    | cons k ks =>
      cases ks' with
      | nil =>
        have hend : ¬ (s.my.idx < lenMy ∧ s.their.idx < lenTheir) := fun h => absurd (show s.their.idx = lenTheir from htheir) h.2.ne
        rw [if_neg hend]
        exact ⟨s, k :: ks, [], rfl, hmy, htheir, le_rfl, le_rfl, rfl, rfl⟩
      | cons k' ks' =>
        have hidx := hmy.1
        have hidx' := htheir.1
        rw [length_cons, length_cons] at hrounds
        rw [if_pos ⟨by omega, by omega⟩, hmy.2.1, htheir.2.1, mergeDiff_cons_cons, keyVerdict]
        split_ifs with hlt hgt
        · rcases holds_advance hmy with ⟨rfl, hend, hholds⟩ | ⟨hmore, c', hc', hholds⟩
          · dsimp only
            rw [if_pos hend]
            exact ⟨_, [], k' :: ks', rfl, hholds, htheir, Nat.zero_le _, le_rfl, rfl, by simp⟩
          · dsimp only
            rw [if_neg hmore.ne, hc']
            obtain ⟨s', rs, rs', hloop, hrs, hrs', hle, hle', h1, h2⟩ :=
              ih (s := { s with theirNewKeys := s.theirNewKeys ++ [k], my := c' }) hholds htheir (by rw [length_cons]; omega)
            exact ⟨s', rs, rs', hloop, hrs, hrs', hle.trans (Nat.le_succ _), hle', h1, by rw [h2]; simp⟩
        · rcases holds_advance htheir with ⟨rfl, hend, hholds⟩ | ⟨hmore, c', hc', hholds⟩
          · dsimp only
            rw [if_pos hend]
            exact ⟨_, k :: ks, [], rfl, hmy, hholds, le_rfl, Nat.zero_le _, by simp, by simp⟩
          · dsimp only
            rw [if_neg hmore.ne, hc']
            obtain ⟨s', rs, rs', hloop, hrs, hrs', hle, hle', h1, h2⟩ :=
              ih (s := { s with myNewKeys := s.myNewKeys ++ [k'], their := c' }) hmy hholds (by rw [length_cons]; omega)
            exact ⟨s', rs, rs', hloop, hrs, hrs', hle, hle'.trans (Nat.le_succ _), by rw [h1]; simp, h2⟩
        · obtain ⟨my', hmy', hholds⟩ := holds_step hmy
          obtain ⟨their', htheir', hholds'⟩ := holds_step htheir
          rw [hmy', htheir']
          obtain ⟨s', rs, rs', hloop, hrs, hrs', hle, hle', h1, h2⟩ :=
            ih (s := { s with my := my', their := their' }) hholds hholds' (by omega)
          exact ⟨s', rs, rs', hloop, hrs, hrs', hle.trans (Nat.le_succ _), hle'.trans (Nat.le_succ _), h1, h2⟩

theorem start_eq {nodes : List WireNode} (h : nodes ≠ []) :
    ∃ c, KeyCursor.start nodes = some c ∧ Holds nodes.length c (nodes.map WireNode.key) := by
  cases nodes with
  | nil => exact absurd rfl h
  | cons n nodes =>
    refine ⟨⟨n :: nodes, 0, n.key⟩, rfl, ?_, rfl, rfl⟩
    rw [length_map, Nat.zero_add, length_cons]

theorem mergeKeys_eq (my their : List WireNode) :
    WireNode.mergeKeysInMerkleNodes my their = some (mergeDiff keyVerdict (my.map WireNode.key) (their.map WireNode.key)) := by
  rw [WireNode.mergeKeysInMerkleNodes]
  by_cases hmy : my = []
  · subst hmy
    cases their <;> rfl
  · by_cases htheir : their = []
    · subst htheir
      cases my
      · rfl
      · rfl
    · have hlen : my.length ≠ 0 := fun h => hmy (length_eq_zero_iff.1 h)
      have hlen' : their.length ≠ 0 := fun h => htheir (length_eq_zero_iff.1 h)
      obtain ⟨c, hc, hholds⟩ := start_eq hmy
      obtain ⟨c', hc', hholds'⟩ := start_eq htheir
      obtain ⟨s', rs, rs', hloop, hrs, hrs', hle, hle', h1, h2⟩ :=
        loop_eq (s := ⟨c, c', [], []⟩) (my.length + their.length) hholds hholds' (by rw [length_map, length_map])
      rw [length_map] at hle hle'
      rw [if_neg (fun h => hlen h.1), if_neg hlen', if_neg hlen, hc, hc']
      simp only [Option.bind_eq_bind, Option.bind_some, hloop, drain_eq _ _ hrs hle, drain_eq _ _ hrs' hle', h1, h2, nil_append]

theorem get_keyMapOf (keys : List Bytes) (key : Bytes) : (keyMapOf keys).get key = if key ∈ keys then some true else none := by
  have hfold : ∀ m : KeyStore Bytes Bool,
      (keys.foldl (fun keyMap key => keyMap.put key true) m).get key = if key ∈ keys then some true else m.get key := by
    induction keys with
    | nil => exact fun m => rfl
    | cons k keys ih =>
      intro m
      rw [foldl_cons, ih, KeyStore.get_put]
      by_cases hkey : key = k
      · simp [hkey]
      · simp [hkey]
  exact hfold KeyStore.empty

theorem diffOplogKeys_eq (myKeys theirKeys : List Bytes) : diffOplogKeys myKeys theirKeys =
    (myKeys.filter fun key => decide (key ∉ theirKeys), theirKeys.filter fun key => decide (key ∉ myKeys)) := by
  have hbool : ∀ (keys : List Bytes) (key : Bytes), (!((keyMapOf keys).get key).getD false) = decide (key ∉ keys) := by
    intro keys key
    rw [get_keyMapOf]
    by_cases h : key ∈ keys <;> simp [h]
  simp only [diffOplogKeys, hbool]

end MergeKeysAux

open MergeKeysAux

theorem mergeKeysInMerkleNodes_toWire (my their : List MerkleNode) :
    WireNode.mergeKeysInMerkleNodes (my.map MerkleNode.toWire) (their.map MerkleNode.toWire) = some (mergeKeysInMerkleNodes my their) := by
  rw [mergeKeys_eq, map_map, map_map]
  rfl

/-- For keys in byte order the merge ends with the keys of the other side that are not on the own one, in order, for both sides, which is
what the hash maps find. -/
theorem mergeKeysInMerkleNodes_right {my their : List WireNode} (hmy : WireNode.KeysIncrease my) (htheir : WireNode.KeysIncrease their) :
    WireNode.mergeKeysInMerkleNodes my their =
        some ((their.map WireNode.key).filter fun key => decide (key ∉ my.map WireNode.key),
          (my.map WireNode.key).filter fun key => decide (key ∉ their.map WireNode.key)) ∧
      WireNode.mergeKeysInMerkleNodes my their = some (diffOplogKeys (my.map WireNode.key) (their.map WireNode.key)).swap := by
  rw [mergeKeys_eq, diffOplogKeys_eq, mergeDiff_keys_eq_filter hmy htheir (fun _ => decide_eq_true_iff) fun _ => decide_eq_true_iff]
  exact ⟨rfl, rfl⟩

namespace MerkleMergeWitness

def leaf (sec : Int64) (addr key : UInt8) : WireNode := ⟨1, some [addr], ⟨sec, 0⟩, 0, [key]⟩

def mine : List WireNode := [leaf 1 1 1, leaf 2 2 2, leaf 2 3 3]

def theirs : List WireNode := [leaf 1 1 1, leaf 2 4 4]

theorem mine_inOrder : WireNode.InOrder mine := by
  unfold WireNode.InOrder
  decide

theorem theirs_inOrder : WireNode.InOrder theirs := by
  unfold WireNode.InOrder
  decide

end MerkleMergeWitness

open MerkleMergeWitness in
/-- Two nodes of the same second against one of another address. -/
theorem diffMerkleTree_right_three : WireNode.InOrder mine ∧ WireNode.InOrder theirs ∧
    ¬ List.Forall₂ WireNode.Agrees (WireNode.cutAt mine .zero) (WireNode.cutAt theirs .zero) ∧
    WireNode.diffMerkleTree mine theirs .zero = ([leaf 2 4 4], [leaf 2 2 2, leaf 2 3 3]) ∧
    WireNode.diffMerkleTree theirs mine .zero = ([leaf 2 2 2, leaf 2 3 3], [leaf 2 4 4]) := by
  have heq : WireNode.diffMerkleTree mine theirs .zero = ([leaf 2 4 4], [leaf 2 2 2, leaf 2 3 3]) := by decide +kernel
  obtain ⟨hnil, -, -, -, hswap⟩ := diffMerkleTree_right mine_inOrder theirs_inOrder .zero
  rw [heq] at hnil hswap
  exact ⟨mine_inOrder, theirs_inOrder, fun h => absurd (hnil.2 h).1 (List.cons_ne_nil _ _), heq, hswap⟩

open MerkleMergeWitness in
/-- One key on both sides, and others on each. -/
theorem mergeKeysInMerkleNodes_right_three : WireNode.KeysIncrease mine ∧ WireNode.KeysIncrease theirs ∧
    WireNode.mergeKeysInMerkleNodes mine theirs = some ([[4]], [[2], [3]]) := by
  have hmine : WireNode.KeysIncrease mine := by
    unfold WireNode.KeysIncrease
    decide
  have htheirs : WireNode.KeysIncrease theirs := by
    unfold WireNode.KeysIncrease
    decide
  exact ⟨hmine, htheirs, (mergeKeysInMerkleNodes_right hmine htheirs).1⟩

end PttaiCore
