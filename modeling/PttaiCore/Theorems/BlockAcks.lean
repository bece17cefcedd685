import PttaiCore.BlockAcks
import PttaiCore.Theorems.Signing

/-! # Blocks that a peer sends -/

namespace PttaiCore

open BlockInfo List

namespace BlockInfo

variable (b : BlockInfo) (x : SignedBlock) (blocks : List SignedBlock)

def Shaped : Prop := b.hashs.length = b.nBlock ∧ ∀ row ∈ b.hashs, row.length = nSubBlock

def InTable : Prop := x.blockID.toNat < b.nBlock ∧ x.subBlockID.toNat < nSubBlock

def Asked : Prop := x.blockID < UInt32.ofNat b.nBlock ∧ x.subBlockID.toNat < nSubBlock

instance decidableAsked (b : BlockInfo) (x : SignedBlock) : Decidable (b.Asked x) := inferInstanceAs (Decidable (_ ∧ _))

def hasTable : Bool := b.isGood.any fun good => decide (b.nBlock ≤ good.length)

def isHere : Bool :=
  decide (b.Asked x) && b.hasTable && b.isGood.any fun good => decide (mark good x.blockID x.subBlockID = some true)

def missing : List SignedBlock := blocks.filter fun x => !b.isHere x

def Marked (blockID : UInt32) (subBlockID : UInt8) : Prop :=
  ∃ good, b.isGood = some good ∧ mark good blockID subBlockID = some true

def Verified (Γ : Ctx) (b : BlockInfo) (creatorID : PttID) (x : SignedBlock) : Prop :=
  ∃ hash, b.hashAt x.blockID x.subBlockID = some hash ∧ x.verify Γ hash creatorID = .ok ()

def MarksFit : Prop :=
  ∀ good, b.isGood = some good → b.nBlock ≤ good.length → ∀ x ∈ blocks, b.Asked x → mark good x.blockID x.subBlockID ≠ none

def StoredFit (saves : Nat → Bool) (b : BlockInfo) (blocks : List SignedBlock) : Prop :=
  ∀ good, b.isGood = some good → (b.nBlock ≤ good.length ∨ ∀ x ∈ blocks, ¬ b.Asked x) →
    ∀ n x, (b.missing blocks)[n]? = some x → saves n = true → mark good x.blockID x.subBlockID ≠ none

end BlockInfo

structure BlocksSafe (Γ : Ctx) (saves : Nat → Bool) (b : BlockInfo) (creatorID : PttID) (blocks : List SignedBlock) : Prop where
  inRange : SignedBlock.receiveBlocks Γ saves b creatorID blocks ≠ .outOfRange
  verified : ∀ b' isSet, SignedBlock.receiveBlocks Γ saves b creatorID blocks = .received b' isSet → ∀ i j, b'.Marked i j →
    b.Marked i j ∨ ∃ x ∈ blocks, x.blockID = i ∧ x.subBlockID = j ∧ b.Verified Γ creatorID x

structure StaysInRange (Γ : Ctx) (saves : Nat → Bool) (b : BlockInfo) (creatorID : PttID) (blocks : List SignedBlock) : Prop where
  marks : b.MarksFit blocks
  hashes : ∀ before x after, b.missing blocks = before ++ x :: after → (∀ y ∈ before, b.Verified Γ creatorID y) → b.InTable x
  stored : b.nBlock < 2 ^ 32 ∨ ((∀ x ∈ b.missing blocks, b.Verified Γ creatorID x) → b.StoredFit saves blocks)

namespace BlockAcksAux

variable {Γ : Ctx} {saves : Nat → Bool} {b : BlockInfo} {creatorID : PttID} {blocks : List SignedBlock} {x : SignedBlock}
  {good : List (List Bool)}

/-! ## Marks -/

variable {i : UInt32} {j : UInt8} (l : List SignedBlock) {b' : BlockInfo} {isSet : Bool}

theorem mark_noneGood {n : Nat} (hi : i.toNat < n) (hj : j.toNat < nSubBlock) :
    mark (noneGood n) i j = some false := by
  simp [mark, noneGood, hi, hj]

theorem mark_noneGood_ne_true (n : Nat) (i : UInt32) (j : UInt8) : mark (noneGood n) i j ≠ some true := by
  unfold mark noneGood
  rw [List.getElem?_replicate]
  split_ifs
  · rw [Option.bind_some, List.getElem?_replicate]
    split_ifs <;> simp
  · simp

theorem mark_set (good : List (List Bool)) (i i' : UInt32) (j j' : UInt8) :
    mark (good.modify i.toNat fun row => row.set j.toNat true) i' j' =
      if i' = i ∧ j' = j then (mark good i' j').map fun _ => true else mark good i' j' := by
  unfold mark
  rw [List.getElem?_modify]
  by_cases hi : i' = i
  · subst hi
    cases hrow : good[i'.toNat]? with
    | none => simp
    | some row =>
      by_cases hj : j' = j
      · subst hj
        simp only [if_true, Option.bind_some, and_self]
        by_cases hlen : j'.toNat < row.length
        · simp [hlen]
        · simp [hlen]
      · have hne : j.toNat ≠ j'.toNat := fun h => hj (UInt8.toNat_inj.1 h).symm
        simp [hj, hne]
  · have hne : i.toNat ≠ i'.toNat := fun h => hi (UInt32.toNat_inj.1 h).symm
    simp [hi, hne]

def table (b : BlockInfo) : List (List Bool) := b.isGood.getD (noneGood b.nBlock)

theorem marked_iff : b.Marked i j ↔ mark (table b) i j = some true := by
  unfold Marked table
  cases b.isGood with
  | none => simp [mark_noneGood_ne_true]
  | some good => simp

/-! ## Dropping what is here -/

theorem lt_of_asked (h : b.Asked x) : x.blockID.toNat < b.nBlock := by
  have hlt : x.blockID.toNat < (UInt32.ofNat b.nBlock).toNat := h.1
  rw [UInt32.toNat_ofNat'] at hlt
  exact hlt.trans_le (Nat.mod_le _ _)

theorem getIsGood_of_not_asked (h : ¬ b.Asked x) : b.getIsGood x.blockID x.subBlockID = .ok (false, b) := by
  unfold getIsGood
  by_cases h1 : UInt32.ofNat b.nBlock ≤ x.blockID
  · rw [if_pos h1]
  · rw [if_neg h1, if_pos]
    by_contra h2
    exact h ⟨UInt32.not_le.1 h1, not_le.1 h2⟩

theorem getIsGood_of_asked (h : b.Asked x) : b.getIsGood x.blockID x.subBlockID =
    if b.hasTable then (mark (table b) x.blockID x.subBlockID).elim (.error .panic) fun m => .ok (m, b) else .ok (false, b.initIsGood) := by
  unfold getIsGood hasTable table
  rw [if_neg (UInt32.not_le.2 h.1), if_neg (not_le.2 h.2)]
  cases b.isGood with
  | none => rfl
  | some good =>
    by_cases hlen : good.length < b.nBlock
    · simp [hlen, not_le.2 hlen]
    · simp [hlen, not_lt.1 hlen]

theorem isHere_eq (b : BlockInfo) (x : SignedBlock) :
    b.isHere x = (decide (b.Asked x) && b.hasTable && decide (mark (table b) x.blockID x.subBlockID = some true)) := by
  unfold isHere hasTable table
  cases b.isGood with
  | none => simp
  | some good => simp

theorem shrinkBlocks_of_hasTable (htable : b.hasTable = true) (blocks : List SignedBlock) :
    ((∀ x ∈ blocks, b.Asked x → mark (table b) x.blockID x.subBlockID ≠ none) ∧
        SignedBlock.shrinkBlocks b blocks = some (b, b.missing blocks)) ∨
      (¬ (∀ x ∈ blocks, b.Asked x → mark (table b) x.blockID x.subBlockID ≠ none) ∧ SignedBlock.shrinkBlocks b blocks = none) := by
  induction blocks with
  | nil => exact .inl ⟨by simp, rfl⟩
  | cons x blocks ih =>
    rw [SignedBlock.shrinkBlocks, forall_mem_cons, missing, filter_cons, isHere_eq, htable]
    by_cases hask : b.Asked x
    · rw [getIsGood_of_asked hask, if_pos htable]
      cases hmark : mark (table b) x.blockID x.subBlockID with
      | none => exact .inr ⟨fun h => h.1 hask rfl, rfl⟩
      | some m =>
        rcases ih with ⟨hall, heq⟩ | ⟨hnot, heq⟩
        · refine .inl ⟨⟨fun _ => by simp, hall⟩, ?_⟩
          simp only [Option.elim_some, heq]
          cases m <;> simp [hask, missing]
        · exact .inr ⟨fun h => hnot h.2, by simp [heq]⟩
    · rw [getIsGood_of_not_asked hask]
      rcases ih with ⟨hall, heq⟩ | ⟨hnot, heq⟩
      · exact .inl ⟨⟨fun h => absurd h hask, hall⟩, by simp [heq, hask, missing]⟩
      · exact .inr ⟨fun h => hnot h.2, by simp [heq]⟩

theorem hasTable_initIsGood (b : BlockInfo) : b.initIsGood.hasTable = true := by
  simp [hasTable, initIsGood, noneGood]

theorem shrinkBlocks_initIsGood (b : BlockInfo) (blocks : List SignedBlock) :
    SignedBlock.shrinkBlocks b.initIsGood blocks = some (b.initIsGood, blocks) := by
  have hmark : ∀ x, b.initIsGood.Asked x → mark (table b.initIsGood) x.blockID x.subBlockID = some false :=
    fun x hask => mark_noneGood (lt_of_asked hask) hask.2
  have hmissing : b.initIsGood.missing blocks = blocks := by
    refine filter_eq_self.2 fun x _ => ?_
    rw [isHere_eq]
    by_cases hask : b.initIsGood.Asked x
    · simp [hmark x hask]
    · simp [hask]
  rcases shrinkBlocks_of_hasTable (hasTable_initIsGood b) blocks with ⟨-, heq⟩ | ⟨hnot, -⟩
  · rw [heq, hmissing]
  · exact absurd (fun x _ hask => by rw [hmark x hask]; simp) hnot

theorem missing_of_no_table (h : b.hasTable = false) (blocks : List SignedBlock) : b.missing blocks = blocks :=
  filter_eq_self.2 fun x _ => by simp [isHere, h]

theorem shrinkBlocks_of_no_table (h : b.hasTable = false) (blocks : List SignedBlock) :
    SignedBlock.shrinkBlocks b blocks = some (if ∃ x ∈ blocks, b.Asked x then b.initIsGood else b, blocks) := by
  induction blocks with
  | nil => simp [SignedBlock.shrinkBlocks]
  | cons x blocks ih =>
    rw [SignedBlock.shrinkBlocks]
    by_cases hask : b.Asked x
    · rw [getIsGood_of_asked hask, if_neg (by simp [h])]
      simp [shrinkBlocks_initIsGood, hask]
    · rw [getIsGood_of_not_asked hask]
      simp [ih, hask]

theorem shrinkBlocks_cases (b : BlockInfo) (blocks : List SignedBlock) :
    (¬ b.MarksFit blocks ∧ SignedBlock.shrinkBlocks b blocks = none) ∨
      b.MarksFit blocks ∧
        ∃ b', SignedBlock.shrinkBlocks b blocks = some (b', b.missing blocks) ∧
          (b' = b ∧ (b.hasTable = true ∨ ∀ x ∈ blocks, ¬ b.Asked x) ∨ b' = b.initIsGood ∧ b.hasTable = false ∧ ∃ x ∈ blocks, b.Asked x) := by
  have hmarks : b.MarksFit blocks ↔
      (b.hasTable = true → ∀ x ∈ blocks, b.Asked x → mark (table b) x.blockID x.subBlockID ≠ none) := by
    unfold MarksFit hasTable table
    cases b.isGood with
    | none => simp
    | some good => simp
  rw [hmarks]
  cases htable : b.hasTable with
  | true =>
    rcases shrinkBlocks_of_hasTable htable blocks with ⟨hall, heq⟩ | ⟨hnot, heq⟩
    · exact .inr ⟨fun _ => hall, b, heq, .inl ⟨rfl, .inl rfl⟩⟩
    · exact .inl ⟨fun h => hnot (h rfl), heq⟩
  | false =>
    refine .inr ⟨fun h => (by cases h), ?_⟩
    rw [shrinkBlocks_of_no_table htable, missing_of_no_table htable]
    by_cases hask : ∃ x ∈ blocks, b.Asked x
    · exact ⟨b.initIsGood, by rw [if_pos hask], Or.inr ⟨rfl, rfl, hask⟩⟩
    · rw [if_neg hask]
      push Not at hask
      exact ⟨b, rfl, .inl ⟨rfl, .inr hask⟩⟩

/-! ## Verifying -/

theorem hashAt_isSome_iff (h : b.Shaped) (x : SignedBlock) : b.hashAt x.blockID x.subBlockID ≠ none ↔ b.InTable x := by
  unfold hashAt InTable
  rw [← h.1]
  by_cases hi : x.blockID.toNat < b.hashs.length
  · have hrow := h.2 _ (getElem_mem hi)
    simp [← hrow, hi]
  · simp [hi]

theorem verifyBlocks_eq_none_iff : SignedBlock.verifyBlocks Γ b creatorID l = none ↔
    ∃ before x after, l = before ++ x :: after ∧ (∀ y ∈ before, b.Verified Γ creatorID y) ∧ b.hashAt x.blockID x.subBlockID = none := by
  induction l with
  | nil => simp [SignedBlock.verifyBlocks]
  | cons x l ih =>
    rw [SignedBlock.verifyBlocks]
    cases hhash : b.hashAt x.blockID x.subBlockID with
    | none => exact ⟨fun _ => ⟨[], x, l, rfl, by simp, hhash⟩, fun _ => rfl⟩
    | some hash =>
      -- a block without a hash is among the others
      have hrest : (∃ before y after, x :: l = before ++ y :: after ∧ (∀ z ∈ before, b.Verified Γ creatorID z) ∧
          b.hashAt y.blockID y.subBlockID = none) ↔ b.Verified Γ creatorID x ∧ ∃ before y after, l = before ++ y :: after ∧
            (∀ z ∈ before, b.Verified Γ creatorID z) ∧ b.hashAt y.blockID y.subBlockID = none := by
        constructor
        · rintro ⟨before, y, after, heq, hbefore, hnone⟩
          cases before with
          | nil =>
            cases heq
            rw [hhash] at hnone
            cases hnone
          | cons z before =>
            cases heq
            rw [forall_mem_cons] at hbefore
            exact ⟨hbefore.1, before, y, after, rfl, hbefore.2, hnone⟩
        · rintro ⟨hx, before, y, after, rfl, hbefore, hnone⟩
          exact ⟨x :: before, y, after, rfl, forall_mem_cons.2 ⟨hx, hbefore⟩, hnone⟩
      rw [hrest, ← ih, Verified, hhash]
      cases hverify : x.verify Γ hash creatorID with
      | error e => simp [hverify]
      | ok u => simp [hverify]

theorem verifyBlocks_eq_ok_iff :
    SignedBlock.verifyBlocks Γ b creatorID l = some (.ok ()) ↔ ∀ x ∈ l, b.Verified Γ creatorID x := by
  induction l with
  | nil => simp [SignedBlock.verifyBlocks]
  | cons x l ih =>
    rw [SignedBlock.verifyBlocks, forall_mem_cons, ← ih, Verified]
    cases b.hashAt x.blockID x.subBlockID with
    | none => simp
    | some hash => cases hverify : x.verify Γ hash creatorID <;> simp [hverify]

/-! ## Storing -/

theorem setIsGood_cases (b : BlockInfo) (i : UInt32) (j : UInt8) :
    (mark (table b) i j = none ∧ b.setIsGood i j = .error .panic) ∨
      mark (table b) i j ≠ none ∧ ∃ b', b.setIsGood i j = .ok b' ∧
        ∀ i' j', mark (table b') i' j' = if i' = i ∧ j' = j then (mark (table b) i' j').map fun _ => true else mark (table b) i' j' := by
  have heq : b.setIsGood i j = if (mark (table b) i j).isNone then .error .panic else
      .ok { b with
        isGood := some ((table b).modify i.toNat fun row => row.set j.toNat true)
        isAllGood := b.isGood.isSome && b.isAllGood } := rfl
  rw [heq]
  cases hmark : mark (table b) i j with
  | none => exact .inl ⟨rfl, rfl⟩
  | some m => exact .inr ⟨by simp, _, rfl, fun i' j' => mark_set (table b) i i' j j'⟩

theorem saveBlocks_eq_none_iff (n : Nat) (l : List SignedBlock) : SignedBlock.saveBlocks saves b n l = none ↔
    ∃ k x, l[k]? = some x ∧ saves (n + k) = true ∧ mark (table b) x.blockID x.subBlockID = none := by
  induction l generalizing b n with
  | nil => simp [SignedBlock.saveBlocks]
  | cons x l ih =>
    have hrest : ∀ b : BlockInfo, (∃ k y, (x :: l)[k]? = some y ∧ saves (n + k) = true ∧ mark (table b) y.blockID y.subBlockID = none) ↔
        (saves n = true ∧ mark (table b) x.blockID x.subBlockID = none) ∨
          ∃ k y, l[k]? = some y ∧ saves (n + 1 + k) = true ∧ mark (table b) y.blockID y.subBlockID = none := by
      intro b
      rw [← Nat.or_exists_add_one]
      simp only [List.getElem?_cons_zero, List.getElem?_cons_succ, Option.some.injEq, exists_eq_left', Nat.add_zero, Nat.add_assoc,
        Nat.add_comm 1]
    rw [hrest, SignedBlock.saveBlocks]
    cases hsave : saves n with
    | false => simp [ih]
    | true =>
      rcases setIsGood_cases b x.blockID x.subBlockID with ⟨hmark, heq⟩ | ⟨hmark, b', heq, htable⟩
      · simp [heq, hmark]
      · -- the marks that exist stay the same
        have hsame : ∀ y : SignedBlock, mark (table b') y.blockID y.subBlockID = none ↔ mark (table b) y.blockID y.subBlockID = none := by
          intro y
          rw [htable]
          split_ifs <;> simp
        simp only [heq, if_true, Option.map_eq_none_iff, ih, hsame, hmark, and_false, false_or]

theorem marked_of_saveBlocks {n : Nat} {l : List SignedBlock}
    (h : SignedBlock.saveBlocks saves b n l = some (b', isSet)) (hmarked : b'.Marked i j) :
    b.Marked i j ∨ ∃ x ∈ l, x.blockID = i ∧ x.subBlockID = j := by
  induction l generalizing b n isSet with
  | nil =>
    cases h
    exact .inl hmarked
  | cons x l ih =>
    rw [SignedBlock.saveBlocks] at h
    split_ifs at h with hsave
    · rcases setIsGood_cases b x.blockID x.subBlockID with ⟨-, heq⟩ | ⟨-, b₁, heq, htable⟩
      · simp [heq] at h
      · rw [heq] at h
        obtain ⟨⟨b₂, set₂⟩, hrest, hpair⟩ := Option.map_eq_some_iff.1 h
        cases hpair
        rcases ih hrest with hb | ⟨y, hy, hpos⟩
        · rw [marked_iff, htable] at hb
          split_ifs at hb with hx
          · exact .inr ⟨x, (.head _) .., hx.1.symm, hx.2.symm⟩
          · exact .inl (marked_iff.2 hb)
        · exact .inr ⟨y, mem_cons_of_mem x hy, hpos⟩
    · rcases ih h with hb | ⟨y, hy, hpos⟩
      · exact .inl hb
      · exact .inr ⟨y, mem_cons_of_mem x hy, hpos⟩

/-! ## Without signatures -/

theorem getIsGood_error {e : Err} (h : b.getIsGood i j = .error e) : e = .panic := by
  unfold getIsGood at h
  split_ifs at h
  cases hgood : b.isGood with
  | none => simp [hgood] at h
  | some good =>
    simp only [hgood] at h
    split_ifs at h
    cases hmark : mark good i j with
    | none =>
      rw [hmark] at h
      cases h
      rfl
    | some m => simp [hmark] at h

theorem shrinkBlocks_toBlock (b : BlockInfo) (blocks : List SignedBlock) : shrinkBlocks b (blocks.map SignedBlock.toBlock) =
    (SignedBlock.shrinkBlocks b blocks).elim (.error .panic) fun r => .ok (r.1, r.2.map SignedBlock.toBlock) := by
  induction blocks generalizing b with
  | nil => rfl
  | cons x blocks ih =>
    rw [map_cons, shrinkBlocks, SignedBlock.shrinkBlocks]
    rcases hgood : b.getIsGood x.blockID x.subBlockID with e | ⟨isGood, b'⟩
    · cases getIsGood_error hgood
      rfl
    · dsimp only
      rw [ih]
      rcases SignedBlock.shrinkBlocks b' blocks with _ | ⟨b₁, rest⟩
      · rfl
      · cases isGood <;> rfl

theorem verifyBlocks_toBlock {verify : Block → Bytes → Except Err Unit} {l : List SignedBlock}
    (h : ∀ x ∈ l, ∀ hash, verify x.toBlock hash = x.verify Γ hash creatorID) :
    verifyBlocks verify b (l.map SignedBlock.toBlock) = (SignedBlock.verifyBlocks Γ b creatorID l).elim (.error .panic) id := by
  induction l with
  | nil => rfl
  | cons x l ih =>
    rw [forall_mem_cons] at h
    rw [map_cons, verifyBlocks, SignedBlock.verifyBlocks, ← hashAt]
    cases b.hashAt x.blockID x.subBlockID with
    | none => rfl
    | some hash =>
      dsimp only
      rw [h.1 hash]
      cases x.verify Γ hash creatorID with
      | error e => rfl
      | ok u => exact ih h.2

theorem saveBlocks_toBlock (b : BlockInfo) (n : Nat) (l : List SignedBlock) : saveBlocks b (l.map SignedBlock.toBlock) =
    (SignedBlock.saveBlocks (fun _ => true) b n l).elim (.error .panic) fun r => .ok r.1 := by
  induction l generalizing b n with
  | nil => rfl
  | cons x l ih =>
    rw [map_cons, saveBlocks, SignedBlock.saveBlocks, if_pos rfl]
    rcases setIsGood_cases b x.blockID x.subBlockID with ⟨-, heq⟩ | ⟨-, b', heq, -⟩
    · rw [heq]
      rfl
    · rw [heq]
      dsimp only
      rw [ih b' (n + 1)]
      cases SignedBlock.saveBlocks (fun _ => true) b' (n + 1) l <;> rfl

/-! ## Receiving -/

theorem mem_missing (h : x ∈ b.missing blocks) : x ∈ blocks := mem_of_mem_filter h

theorem inTable_of_verified (hshape : b.Shaped) (h : b.Verified Γ creatorID x) : b.InTable x := by
  obtain ⟨hash, hhash, -⟩ := h
  refine (hashAt_isSome_iff hshape x).1 ?_
  rw [hhash]
  simp

theorem asked_of_inTable (hn : b.nBlock < 2 ^ 32) (h : b.InTable x) : b.Asked x := by
  refine ⟨?_, h.2⟩
  rw [UInt32.lt_iff_toNat_lt, UInt32.toNat_ofNat', Nat.mod_eq_of_lt hn]
  exact h.1

theorem saveBlocks_inRange_iff (hshape : b.Shaped) (hmarks : b.MarksFit blocks) (hverified : ∀ x ∈ b.missing blocks, b.Verified Γ creatorID x)
    (hb' : b' = b ∧ (b.hasTable = true ∨ ∀ x ∈ blocks, ¬ b.Asked x) ∨ b' = b.initIsGood ∧ b.hasTable = false ∧ ∃ x ∈ blocks, b.Asked x) :
    SignedBlock.saveBlocks saves b' 0 (b.missing blocks) ≠ none ↔ b.nBlock < 2 ^ 32 ∨ b.StoredFit saves blocks := by
  have hin : ∀ {n : Nat} {x : SignedBlock}, (b.missing blocks)[n]? = some x → b.InTable x :=
    fun hx => inTable_of_verified hshape (hverified _ (mem_of_getElem? hx))
  have hnone : ∀ {n : Nat} {x : SignedBlock}, (b.missing blocks)[n]? = some x →
      mark (noneGood b.nBlock) x.blockID x.subBlockID ≠ none := by
    intro n x hx
    rw [mark_noneGood (hin hx).1 (hin hx).2]
    simp
  rw [Ne, saveBlocks_eq_none_iff]
  simp only [Nat.zero_add]
  rcases hb' with ⟨rfl, htable⟩ | ⟨rfl, htable, hask⟩
  · cases hgood : b'.isGood with
    | none =>
      have htab : table b' = noneGood b'.nBlock := by rw [table, hgood]; rfl
      refine ⟨fun _ => .inr fun good h => (by rw [hgood] at h; cases h), fun _ => ?_⟩
      rintro ⟨n, x, hx, -, hmark⟩
      exact hnone hx (htab ▸ hmark)
    | some good =>
      have htab : table b' = good := by rw [table, hgood]; rfl
      have hlen : b'.nBlock ≤ good.length ∨ ∀ x ∈ blocks, ¬ b'.Asked x := by simpa [hasTable, hgood] using htable
      rw [htab]
      constructor
      · intro h
        refine .inr fun good' hgood' _ n x hx hsave hmark => h ⟨n, x, hx, hsave, ?_⟩
        rw [hgood] at hgood'
        cases hgood'
        exact hmark
      · rintro hfit ⟨n, x, hx, hsave, hmark⟩
        rcases hfit with hn | hfit
        · -- the mark was looked up
          have hask := asked_of_inTable hn (hin hx)
          have hmem := mem_missing (mem_of_getElem? hx)
          rcases hlen with hlen | hno
          · exact hmarks good hgood hlen x hmem hask hmark
          · exact hno x hmem hask
        · exact hfit good hgood hlen n x hx hsave hmark
  · refine ⟨fun _ => .inr fun good hgood hlen => ?_, fun _ => ?_⟩
    · obtain ⟨y, hy, hasky⟩ := hask
      rcases hlen with hlen | hno
      · simp [hasTable, hgood, hlen] at htable
      · exact absurd hasky (hno y hy)
    · rintro ⟨n, x, hx, -, hmark⟩
      exact hnone hx hmark

theorem verifyBlocks_initIsGood :
    SignedBlock.verifyBlocks Γ b.initIsGood creatorID l = SignedBlock.verifyBlocks Γ b creatorID l := by
  induction l with
  | nil => rfl
  | cons x l ih =>
    rw [SignedBlock.verifyBlocks, SignedBlock.verifyBlocks, ih]
    rfl

theorem receiveMissing_eq_outOfRange_iff : SignedBlock.receiveMissing Γ saves b creatorID l = .outOfRange ↔
    SignedBlock.verifyBlocks Γ b creatorID l = none ∨
      SignedBlock.verifyBlocks Γ b creatorID l = some (.ok ()) ∧ SignedBlock.saveBlocks saves b 0 l = none := by
  unfold SignedBlock.receiveMissing
  split_ifs with hnil
  · simp [hnil, SignedBlock.verifyBlocks, SignedBlock.saveBlocks]
  · rcases SignedBlock.verifyBlocks Γ b creatorID l with _ | e | u
    · simp
    · simp
    · rcases SignedBlock.saveBlocks saves b 0 l with _ | r <;> simp

theorem receiveMissing_eq_received {l : List SignedBlock}
    (h : SignedBlock.receiveMissing Γ saves b creatorID l = .received b' isSet) :
    (∀ x ∈ l, b.Verified Γ creatorID x) ∧ SignedBlock.saveBlocks saves b 0 l = some (b', isSet) := by
  unfold SignedBlock.receiveMissing at h
  split_ifs at h
  rw [← verifyBlocks_eq_ok_iff]
  rcases hverify : SignedBlock.verifyBlocks Γ b creatorID l with _ | e | u
  · simp [hverify] at h
  · simp [hverify] at h
  · rcases hsave : SignedBlock.saveBlocks saves b 0 l with _ | ⟨b₁, set₁⟩
    · simp [hverify, hsave] at h
    · simp only [hverify, hsave, BlocksOutcome.received.injEq] at h
      simp [h]

theorem receiveBlocks_inRange_iff (hshape : b.Shaped) :
    SignedBlock.receiveBlocks Γ saves b creatorID blocks ≠ .outOfRange ↔ StaysInRange Γ saves b creatorID blocks := by
  rw [SignedBlock.receiveBlocks]
  rcases shrinkBlocks_cases b blocks with ⟨hmarks, heq⟩ | ⟨hmarks, b', heq, hb'⟩
  · rw [heq]
    exact ⟨fun h => absurd rfl h, fun h => absurd h.marks hmarks⟩
  · have hverify : SignedBlock.verifyBlocks Γ b' creatorID (b.missing blocks) = SignedBlock.verifyBlocks Γ b creatorID (b.missing blocks) := by
      rcases hb' with ⟨rfl, -⟩ | ⟨rfl, -⟩
      · rfl
      · exact verifyBlocks_initIsGood _
    have hhashes : (∀ before x after, b.missing blocks = before ++ x :: after → (∀ y ∈ before, b.Verified Γ creatorID y) → b.InTable x) ↔
        SignedBlock.verifyBlocks Γ b creatorID (b.missing blocks) ≠ none := by
      rw [Ne, verifyBlocks_eq_none_iff]
      push Not
      simp only [← hashAt_isSome_iff hshape]
    rw [heq, Ne, receiveMissing_eq_outOfRange_iff, hverify, verifyBlocks_eq_ok_iff, not_or, not_and, ← Ne, ← hhashes]
    constructor
    · rintro ⟨hin, hsave⟩
      refine ⟨hmarks, hin, ?_⟩
      by_cases hn : b.nBlock < 2 ^ 32
      · exact .inl hn
      · exact .inr fun hall => ((saveBlocks_inRange_iff hshape hmarks hall hb').1 (hsave hall)).resolve_left hn
    · intro h
      refine ⟨h.hashes, fun hall => (saveBlocks_inRange_iff hshape hmarks hall hb').2 ?_⟩
      exact h.stored.imp_right fun hstored => hstored hall

theorem marked_of_receiveBlocks
    (h : SignedBlock.receiveBlocks Γ saves b creatorID blocks = .received b' isSet) (hmarked : b'.Marked i j) :
    b.Marked i j ∨ ∃ x ∈ blocks, x.blockID = i ∧ x.subBlockID = j ∧ b.Verified Γ creatorID x := by
  rw [SignedBlock.receiveBlocks] at h
  rcases shrinkBlocks_cases b blocks with ⟨-, heq⟩ | ⟨-, b₁, heq, hb₁⟩
  · rw [heq] at h
    cases h
  · rw [heq] at h
    obtain ⟨hverified, hsave⟩ := receiveMissing_eq_received h
    rcases marked_of_saveBlocks hsave hmarked with hold | ⟨x, hx, hi, hj⟩
    · rcases hb₁ with ⟨rfl, -⟩ | ⟨rfl, -⟩
      · exact .inl hold
      · exact absurd (marked_iff.1 hold) (mark_noneGood_ne_true _ _ _)
    · refine .inr ⟨x, mem_missing hx, hi, hj, ?_⟩
      rcases hb₁ with ⟨rfl, -⟩ | ⟨rfl, -⟩
      · exact hverified x hx
      · exact hverified x hx

end BlockAcksAux

def BlocksOutcome.toExcept : BlocksOutcome → Except Err (Option BlockInfo)
  | .outOfRange => .error .panic
  | .failed e => .error e
  | .nothingNew => .ok none
  | .received b _ => .ok (some b)

open BlockAcksAux in
theorem receiveBlocks_toBlock (Γ : Ctx) (b : BlockInfo) (creatorID : PttID) (blocks : List SignedBlock)
    {verify : Block → Bytes → Except Err Unit} (h : ∀ x ∈ blocks, ∀ hash, verify x.toBlock hash = x.verify Γ hash creatorID) :
    receiveBlocks verify b (blocks.map SignedBlock.toBlock) = (SignedBlock.receiveBlocks Γ (fun _ => true) b creatorID blocks).toExcept := by
  rw [receiveBlocks, SignedBlock.receiveBlocks, shrinkBlocks_toBlock]
  rcases shrinkBlocks_cases b blocks with ⟨-, heq⟩ | ⟨-, b', heq, -⟩
  · rw [heq]
    rfl
  · rw [heq]
    have hverify : verifyBlocks verify b' ((b.missing blocks).map SignedBlock.toBlock) =
        (SignedBlock.verifyBlocks Γ b' creatorID (b.missing blocks)).elim (.error .panic) id :=
      verifyBlocks_toBlock fun x hx => h x (mem_missing hx)
    have hsave := saveBlocks_toBlock b' 0 (b.missing blocks)
    dsimp only
    rw [SignedBlock.receiveMissing]
    cases hmissing : b.missing blocks with
    | nil => rfl
    | cons x l =>
      rw [hmissing] at hverify hsave
      simp only [Option.elim_some, map_cons] at hverify hsave ⊢
      rw [hverify, hsave, if_neg (cons_ne_nil x l)]
      rcases SignedBlock.verifyBlocks Γ b' creatorID (x :: l) with _ | e | u
      · rfl
      · rfl
      · rcases SignedBlock.saveBlocks (fun _ => true) b' 0 (x :: l) with _ | r <;> rfl

open BlockAcksAux in
/-- Blocks that arrive for a block info with the right number of hashes are handled safely just if the indices stay in range. -/
theorem receiveBlocks_safe_iff (Γ : Ctx) (saves : Nat → Bool) (b : BlockInfo) (creatorID : PttID) (blocks : List SignedBlock)
    (hshape : b.Shaped) : BlocksSafe Γ saves b creatorID blocks ↔ StaysInRange Γ saves b creatorID blocks := by
  rw [← receiveBlocks_inRange_iff hshape]
  exact ⟨BlocksSafe.inRange, fun h => ⟨h, fun _ _ heq _ _ hmarked => marked_of_receiveBlocks heq hmarked⟩⟩

namespace BlockAcksWitness

open SigningWitness

def unsigned (blockID : UInt32) : SignedBlock where
  id := idOf 3
  blockID := blockID
  subBlockID := 0
  buf := [1, 2]
  objID := idOf 9
  hash := []
  v := 2
  salt := Salt.zero
  sig := []
  pub := []
  keyExtra := none

def signed (blockID : UInt32) : SignedBlock :=
  let s := signData ctx (unsigned blockID).marshal (signer 1).keyInfo (saltOf 5)
  { unsigned blockID with hash := s.hash, salt := s.salt, sig := s.sig, pub := s.pubBytes }

def info : BlockInfo where
  id := idOf 3
  nBlock := 1
  hashs := [[(signed 0).hash, []]]
  isGood := none
  isAllGood := false

theorem info_shaped : info.Shaped := ⟨rfl, by decide⟩

end BlockAcksWitness

open BlockAcksWitness SigningWitness in
/-- The first sub-block of that block: it is stored and marked. -/
theorem receiveBlocks_safe_one : info.Shaped ∧ BlocksSafe ctx (fun _ => true) info (idOf 1) [signed 0] ∧
    SignedBlock.receiveBlocks ctx (fun _ => true) info (idOf 1) [signed 0] =
      .received { info with isGood := some [[true, false]] } true := by
  refine ⟨info_shaped, (receiveBlocks_safe_iff ctx _ info (idOf 1) [signed 0] info_shaped).2 ⟨?_, ?_, Or.inl (by decide)⟩, by decide +kernel⟩
  · intro good hgood
    cases hgood
  · intro before x after heq _
    have hx : x ∈ [signed 0] := BlockAcksAux.mem_missing (by rw [heq]; simp)
    rw [List.mem_singleton.1 hx]
    exact ⟨by decide, by decide⟩

open BlockAcksWitness SigningWitness in
/-- A block with the number 1 for a block info of one block: its hash is looked up outside the table. -/
theorem receiveBlocks_outside_panics : info.Shaped ∧
    SignedBlock.receiveBlocks ctx (fun _ => true) info (idOf 1) [signed 1] = .outOfRange := ⟨info_shaped, by decide +kernel⟩

end PttaiCore
