import PttaiCore.Lemmas.Blocks

/-! # Lemmas about reading blocks -/

namespace PttaiCore

open KeyStore List

namespace BlocksAux

/-! ## The table -/


variable (limit : Nat)

def rowsOf (f : Nat → Nat → Option Bytes) : List (List (Option Bytes)) :=
  (List.range limit).map fun i => (List.range nSubBlock).map (f i)

theorem rowsOf_none : List.replicate limit (List.replicate nSubBlock none) = rowsOf limit fun _ _ => none := by
  simp [rowsOf, map_const']

def update (f : Nat → Nat → Option Bytes) (b : Block) : Nat → Nat → Option Bytes :=
  fun i j => if i = b.blockID.toNat ∧ j = b.subBlockID.toNat then readBytes b.buf else f i j

theorem modify_rowsOf (f : Nat → Nat → Option Bytes) (b : Block) :
    ((rowsOf limit f).modify b.blockID.toNat fun row => row.set b.subBlockID.toNat (readBytes b.buf)) = rowsOf limit (update f b) := by
  apply ext_getElem?
  intro i
  simp only [rowsOf, List.getElem?_modify, List.getElem?_map]
  by_cases hi : i < limit
  · rw [List.getElem?_range hi, Option.map_some, Option.map_some, Option.map_eq_map, Option.map_some]
    congr 1
    apply ext_getElem?
    intro j
    by_cases hj : j < nSubBlock
    · by_cases hb : b.blockID.toNat = i
      · by_cases hs : b.subBlockID.toNat = j
        · simp [hb, hs, hj, update]
        · simp [hb, hs, hj, update, Ne.symm hs]
      · simp [hb, hj, update, Ne.symm hb]
    · by_cases hb : b.blockID.toNat = i <;> simp [hb, hj]
  · simp [hi]

theorem rows_of_readBlocks {limit : Nat} {l : List Block} {f₀ : Nat → Nat → Option Bytes} {rows : List (List (Option Bytes))}
    (h : readBlocks limit l (rowsOf limit f₀) = .ok rows) :
    ∃ f, rows = rowsOf limit f ∧
      (∀ i j, f i j = f₀ i j ∨ ∃ b ∈ l, b.blockID.toNat = i ∧ b.subBlockID.toNat = j ∧ f i j = readBytes b.buf) ∧
      (l.Pairwise (fun a b => a.blockID ≤ b.blockID) → ∀ b ∈ l, b.blockID.toNat < limit →
        ∃ b' ∈ l, b'.blockID = b.blockID ∧ b'.subBlockID = b.subBlockID ∧ f b.blockID.toNat b.subBlockID.toNat = readBytes b'.buf) := by
  induction l generalizing f₀ with
  | nil =>
    cases h
    exact ⟨f₀, rfl, fun i j => .inl rfl, fun _ b hb => absurd hb not_mem_nil⟩
  | cons c l ih =>
    rw [readBlocks] at h
    split_ifs at h with hlimit hsub
    · cases h
      refine ⟨f₀, rfl, fun i j => .inl rfl, fun hsorted b hb hlt => ?_⟩
      -- the rest have larger numbers still
      rcases mem_cons.1 hb with rfl | hb
      · omega
      · have hle := UInt32.le_iff_toNat_le.1 (rel_of_pairwise_cons hsorted hb)
        omega
    · rw [modify_rowsOf] at h
      obtain ⟨f, hrows, hentries, hall⟩ := ih h
      refine ⟨f, hrows, fun i j => ?_, fun hsorted b hb hlt => ?_⟩
      · rcases hentries i j with hij | ⟨b, hb, hbi, hbj, hf⟩
        · rw [hij, update]
          split_ifs with hc
          · exact .inr ⟨c, (.head _), hc.1.symm, hc.2.symm, rfl⟩
          · exact .inl rfl
        · exact .inr ⟨b, mem_cons_of_mem c hb, hbi, hbj, hf⟩
      · -- a block read later has the last word
        rcases hentries b.blockID.toNat b.subBlockID.toNat with hij | ⟨b', hb', hbi, hbj, hf⟩
        · rcases mem_cons.1 hb with rfl | hb
          · refine ⟨b, (.head _), rfl, rfl, ?_⟩
            rw [hij, update, if_pos ⟨rfl, rfl⟩]
          · obtain ⟨b', hb', hbi, hbj, hf⟩ := hall hsorted.of_cons b hb hlt
            exact ⟨b', mem_cons_of_mem c hb', hbi, hbj, hf⟩
        · exact ⟨b', mem_cons_of_mem c hb', UInt32.toNat_inj.1 hbi, UInt8.toNat_inj.1 hbj, hf⟩

theorem readBlocks_isOk {limit : Nat} {l : List Block} (h : ∀ b ∈ l, b.subBlockID.toNat < nSubBlock)
    (rows : List (List (Option Bytes))) : ∃ rows', readBlocks limit l rows = .ok rows' := by
  induction l generalizing rows with
  | nil => exact ⟨rows, rfl⟩
  | cons c l ih =>
    rw [readBlocks, if_neg (Nat.not_le.2 (h c mem_cons_self))]
    split_ifs
    · exact ⟨rows, rfl⟩
    · exact ih (fun b hb => h b (mem_cons_of_mem c hb)) _

theorem mapM_eq_some_iff {α β : Type} {f : α → Option β} {g : β → α} (hfg : ∀ a b, f a = some b ↔ a = g b) {l : List α}
    {r : List β} : l.mapM f = some r ↔ l = r.map g := by
  induction l generalizing r with
  | nil => cases r <;> simp
  | cons a l ih => cases r <;> simp [mapM_cons, Option.bind_eq_some_iff, hfg, ih]

theorem table_eq_some_iff {rows : List (List (Option Bytes))} {r : List (List Bytes)} :
    (rows.mapM fun row => row.mapM id) = some r ↔ rows = r.map (List.map some) :=
  mapM_eq_some_iff fun _ _ => mapM_eq_some_iff fun _ _ => Iff.rfl

/-! ## The records -/

section stored

variable {L : BlockLib} {p : BlockPlace} {done : List (List Bytes)} {db : KeyStore Bytes Block}

theorem mem_blocks {b : Block} : b ∈ p.blocks db ↔ ∃ k, p.keyStart <+: k ∧ db.get k = some b := by
  simp only [BlockPlace.blocks, mem_map, mem_select, List.isPrefixOf_iff_prefix]
  constructor
  · rintro ⟨⟨k, b'⟩, ⟨hget, hpre⟩, rfl⟩
    exact ⟨k, hpre, hget⟩
  · rintro ⟨k, hpre, hget⟩
    exact ⟨(k, b), ⟨hget, hpre⟩, rfl⟩

theorem of_mem_blocks (hstored : StoredBlocks L p done db) {b : Block} (hb : b ∈ p.blocks db) :
    ∃ m h, lastBlock done.length b.blockID = some m ∧ done[m]? = some h ∧ (scrambleBuf L h)[b.subBlockID.toNat]? = some b.buf := by
  obtain ⟨k, hpre, hget⟩ := mem_blocks.1 hb
  obtain ⟨i, j, rfl⟩ := hstored.keyed k hpre (by simp [hget])
  obtain ⟨rfl, rfl, m, h, hm, hh, hbuf⟩ := hstored.found i j b hget
  exact ⟨m, h, hm, hh, hbuf⟩

theorem marshalKey_le {i i' : UInt32} {j j' : UInt8} (h : p.marshalKey i j < p.marshalKey i' j') : i ≤ i' := by
  rw [BlockPlace.marshalKey, BlockPlace.marshalKey, Bytes.append_lt_append_left, Bytes.append_lt_append_iff (by simp),
    Bytes.be_lt_be i.toNat_lt i'.toNat_lt] at h
  rw [UInt32.le_iff_toNat_le]
  rcases h with h | ⟨h, -⟩
  · exact h.le
  · exact (Bytes.be_injective i.toNat_lt i'.toNat_lt h).le

theorem sorted_blocks (hstored : StoredBlocks L p done db) : (p.blocks db).Pairwise fun a b => a.blockID ≤ b.blockID := by
  rw [BlockPlace.blocks, pairwise_map]
  refine (select_sorted db _).imp_of_mem ?_
  rintro ⟨k, b⟩ ⟨k', b'⟩ hk hk' hlt
  obtain ⟨hget, hpre⟩ := mem_select.1 hk
  obtain ⟨hget', hpre'⟩ := mem_select.1 hk'
  obtain ⟨i, j, hkey⟩ := hstored.keyed k (List.isPrefixOf_iff_prefix.1 hpre) (by simp [hget])
  obtain ⟨i', j', hkey'⟩ := hstored.keyed k' (List.isPrefixOf_iff_prefix.1 hpre') (by simp [hget'])
  rw [hkey] at hget hlt
  rw [hkey'] at hget' hlt
  rw [(hstored.found i j b hget).1, (hstored.found i' j' b' hget').1]
  exact marshalKey_le hlt

theorem readBytes_eq_some {b c : Bytes} (h : readBytes b = some c) : b = c := by
  unfold readBytes at h
  split_ifs at h
  exact Option.some.inj h

theorem readBytes_subBlock {h : List Bytes} {j : Nat} {b : Bytes} (hb : (scrambleBuf L h)[j]? = some b) : readBytes b = some b :=
  if_neg (ne_nil_of_mem_scrambleBuf (mem_of_getElem? hb))

theorem row_of_table (hstored : StoredBlocks L p done db) {limit : Nat} {f : Nat → Nat → Option Bytes} {bufs : List (List Bytes)}
    (hentries : ∀ i j, f i j = none ∨ ∃ b ∈ p.blocks db, b.blockID.toNat = i ∧ b.subBlockID.toNat = j ∧ f i j = readBytes b.buf)
    (htable : rowsOf limit f = bufs.map (List.map some)) : ∀ x ∈ bufs, ∃ h ∈ done, x = scrambleBuf L h := by
  intro x hx
  obtain ⟨i, hi⟩ := List.getElem?_of_mem hx
  have hrow : (rowsOf limit f)[i]? = some (x.map some) := by rw [htable, List.getElem?_map, hi, Option.map_some]
  have hrange : (List.range nSubBlock).map (f i) = x.map some := by
    simp only [rowsOf, List.getElem?_map] at hrow
    by_cases hlimit : i < limit
    · rw [List.getElem?_range hlimit] at hrow
      exact Option.some.inj hrow
    · simp [hlimit] at hrow
  -- both entries of the row are sub-blocks of the one block that has this number
  have hlen : x.length = 2 := by simpa [nSubBlock] using (congrArg List.length hrange).symm
  obtain ⟨x0, x1, rfl⟩ := length_eq_two.1 hlen
  have h01 : f i 0 = some x0 ∧ f i 1 = some x1 := by simpa [nSubBlock, range_succ] using hrange
  have hentry : ∀ j c, f i j = some c → ∃ m h, lastBlock done.length (UInt32.ofNat i) = some m ∧ done[m]? = some h ∧
      (scrambleBuf L h)[j]? = some c := by
    intro j c hc
    rcases hentries i j with hnone | ⟨b, hb, hbi, hbj, hf⟩
    · rw [hc] at hnone
      cases hnone
    · obtain ⟨m, h, hm, hh, hbuf⟩ := of_mem_blocks hstored hb
      rw [hc] at hf
      rw [hbj, readBytes_eq_some hf.symm] at hbuf
      refine ⟨m, h, ?_, hh, hbuf⟩
      rw [← hbi, UInt32.ofNat_toNat, hm]
  obtain ⟨m, h, hm, hh, h0⟩ := hentry 0 x0 h01.1
  obtain ⟨m', h', hm', hh', h1⟩ := hentry 1 x1 h01.2
  rw [hm] at hm'
  cases hm'
  rw [hh] at hh'
  cases hh'
  refine ⟨h, mem_of_getElem? hh, ?_⟩
  simp only [scrambleBuf, List.getElem?_cons_zero, List.getElem?_cons_succ, Option.some.injEq] at h0 h1
  rw [scrambleBuf, h0, h1]

theorem table_of_fits (hstored : StoredBlocks L p done db) (hfits : done.length < 2 ^ 32) {limit : Nat} (hlimit : limit ≤ done.length)
    {f : Nat → Nat → Option Bytes}
    (hall : ∀ b ∈ p.blocks db, b.blockID.toNat < limit → ∃ b' ∈ p.blocks db, b'.blockID = b.blockID ∧ b'.subBlockID = b.subBlockID ∧
      f b.blockID.toNat b.subBlockID.toNat = readBytes b'.buf) :
    rowsOf limit f = ((done.take limit).map (scrambleBuf L)).map (List.map some) := by
  have hentry : ∀ i h j, i < limit → done[i]? = some h → j < nSubBlock → f i j = (scrambleBuf L h)[j]? := by
    intro i h j hi hh hj
    have hlast := lastBlock_of_lt hfits.le (hi.trans_le hlimit)
    have hto : (UInt32.ofNat i).toNat = i := by
      rw [UInt32.toNat_ofNat']
      omega
    have hjto : (UInt8.ofNat j).toNat = j := by
      unfold nSubBlock at hj
      rw [UInt8.toNat_ofNat']
      omega
    obtain ⟨b, hget⟩ := Option.ne_none_iff_exists'.1
      (hstored.present (UInt32.ofNat i) i (UInt8.ofNat j) hlast (by rw [hjto]; exact hj))
    obtain ⟨hbi, hbj, -⟩ := hstored.found _ _ b hget
    obtain ⟨b', hb', hbi', hbj', hf⟩ := hall b (mem_blocks.2 ⟨_, keyStart_marshalKey _ _, hget⟩) (by rwa [hbi, hto])
    obtain ⟨m, h', hm, hh', hbuf⟩ := of_mem_blocks hstored hb'
    rw [hbi', hbi, hlast] at hm
    cases hm
    rw [hh] at hh'
    cases hh'
    rw [hbi, hbj, hto, hjto] at hf
    rw [hbj', hbj, hjto] at hbuf
    rw [hf, readBytes_subBlock hbuf, hbuf]
  apply ext_getElem?
  intro i
  by_cases hi : i < limit
  · have hdone : i < done.length := hi.trans_le hlimit
    simp only [rowsOf, List.getElem?_map, List.getElem?_range hi, Option.map_some, List.getElem?_take_of_lt hi,
      List.getElem?_eq_getElem hdone]
    congr 1
    apply ext_getElem?
    intro j
    by_cases hj : j < nSubBlock
    · rw [List.getElem?_map, List.getElem?_range hj, Option.map_some, List.getElem?_map,
        hentry i _ j hi (List.getElem?_eq_getElem hdone) hj]
      have hlen : j < (scrambleBuf L done[i]).length := hj
      rw [List.getElem?_eq_getElem hlen, Option.map_some]
    · have hlen : ¬ j < (scrambleBuf L done[i]).length := hj
      simp [hj, hlen]
  · simp [rowsOf, hi]

/-! ## The contents -/

theorem mapM_unscramble (hs : List (List Bytes)) : (hs.map (scrambleBuf L)).mapM (unscrambleBuf L) = .ok hs := by
  induction hs with
  | nil => rfl
  | cons h hs ih =>
    rw [map_cons, mapM_cons, unscrambleBuf_scrambleBuf, ih]
    rfl

theorem exists_lines {bufs : List (List Bytes)} (h : ∀ x ∈ bufs, ∃ h ∈ done, x = scrambleBuf L h) :
    ∃ hs : List (List Bytes), bufs = hs.map (scrambleBuf L) ∧ ∀ h ∈ hs, h ∈ done := by
  induction bufs with
  | nil => exact ⟨[], rfl, fun h hh => absurd hh not_mem_nil⟩
  | cons x bufs ih =>
    obtain ⟨h', hmem, rfl⟩ := h x mem_cons_self
    obtain ⟨hs, rfl, hall⟩ := ih fun y hy => h y (.tail _ hy)
    refine ⟨h' :: hs, rfl, fun k hk => ?_⟩
    rcases mem_cons.1 hk with rfl | hk
    · exact hmem
    · exact hall k hk

variable (limit : UInt32) (n : Nat)

def expected : Nat := if limit = 0 ∨ UInt32.ofNat n < limit then (UInt32.ofNat n).toNat else limit.toNat

theorem limit_eq :
    (if (if limit = 0 then UInt32.ofNat n else limit) > UInt32.ofNat n then UInt32.ofNat n
      else if limit = 0 then UInt32.ofNat n else limit).toNat = expected limit n := by
  unfold expected
  by_cases hzero : limit = 0
  · rw [if_pos hzero, ite_self, if_pos (Or.inl hzero)]
  · rw [if_neg hzero]
    by_cases hlt : UInt32.ofNat n < limit
    · rw [if_pos hlt, if_pos (Or.inr hlt)]
    · rw [if_neg hlt, if_neg (by simp [hzero, hlt])]

theorem expected_lt : expected limit n < 2 ^ 32 := by
  unfold expected
  split_ifs
  · exact (UInt32.ofNat n).toNat_lt
  · exact limit.toNat_lt

theorem expected_zero : expected 0 n = n % 2 ^ 32 := by
  rw [expected, if_pos (Or.inl rfl), UInt32.toNat_ofNat']

theorem expected_of_fits {limit : UInt32} {n : Nat} (hn : n < 2 ^ 32) : expected limit n = if limit = 0 then n else min limit.toNat n := by
  have hto : (UInt32.ofNat n).toNat = n := by rw [UInt32.toNat_ofNat', Nat.mod_eq_of_lt hn]
  simp only [expected, UInt32.lt_iff_toNat_lt, hto]
  by_cases hzero : limit = 0
  · simp [hzero]
  · simp only [hzero, false_or, if_false]
    split_ifs <;> omega

theorem getContentBlockList_cases (hstored : StoredBlocks L p done db) (info : BlockInfo) (limit : UInt32) :
    (∃ e, getContentBlockList L p info limit db = .error e) ∨ ∃ hs : List (List Bytes), hs.length = expected limit info.nBlock ∧
      (∀ h ∈ hs, h ∈ done) ∧ getContentBlockList L p info limit db = .ok hs := by
  unfold getContentBlockList
  by_cases hall : info.getIsAllGood = false
  · exact .inl ⟨_, if_pos hall⟩
  rw [if_neg hall]
  dsimp only
  rw [limit_eq, rowsOf_none]
  cases hread : readBlocks (expected limit info.nBlock) (p.blocks db) (rowsOf (expected limit info.nBlock) fun _ _ => none) with
  | error e => exact .inl ⟨e, rfl⟩
  | ok rows =>
    obtain ⟨f, rfl, hentries, -⟩ := rows_of_readBlocks hread
    dsimp only
    cases htable : (rowsOf (expected limit info.nBlock) f).mapM fun row => row.mapM id with
    | none => exact .inl ⟨_, rfl⟩
    | some bufs =>
      have htable := table_eq_some_iff.1 htable
      obtain ⟨hs, rfl, hmem⟩ := exists_lines (row_of_table hstored hentries htable)
      refine .inr ⟨hs, ?_, hmem, ?_⟩
      · have := congrArg List.length htable
        simpa [rowsOf] using this.symm
      · dsimp only
        rw [mapM_unscramble]

theorem getContentBlockList_of_fits (hstored : StoredBlocks L p done db) (hfits : done.length < 2 ^ 32) {info : BlockInfo}
    (hgood : info.getIsAllGood = true) (hn : info.nBlock = done.length) (limit : UInt32) :
    getContentBlockList L p info limit db = .ok (done.take (expected limit done.length)) := by
  have hle : expected limit done.length ≤ done.length := by
    rw [expected_of_fits hfits]
    split_ifs <;> omega
  have hsub : ∀ b ∈ p.blocks db, b.subBlockID.toNat < nSubBlock := by
    intro b hb
    obtain ⟨m, h, -, -, hbuf⟩ := of_mem_blocks hstored hb
    exact (List.getElem?_eq_some_iff.1 hbuf).1
  unfold getContentBlockList
  rw [if_neg (by simp [hgood])]
  dsimp only
  rw [limit_eq, rowsOf_none, hn]
  obtain ⟨rows, hread⟩ := readBlocks_isOk hsub (rowsOf (expected limit done.length) fun _ _ => none)
  rw [hread]
  obtain ⟨f, rfl, -, hentered⟩ := rows_of_readBlocks hread
  dsimp only
  rw [table_eq_some_iff.2 (table_of_fits hstored hfits hle (hentered (sorted_blocks hstored)))]
  dsimp only
  rw [mapM_unscramble]

end stored

end BlocksAux

end PttaiCore
