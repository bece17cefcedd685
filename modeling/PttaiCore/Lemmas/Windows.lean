import PttaiCore.Lib.Tiling
import PttaiCore.SyncOplog

/-! # The windows of a list of hours -/

namespace PttaiCore

open SyncPeer List

def SyncOplogAck.window (a : SyncOplogAck) : (Int ×ₗ Nat) × (Int ×ₗ Nat) := (a.startTS.order, a.endTS.order)

structure AckHour where
  cur : Timestamp
  next : Timestamp
  nodes : List MerkleNode

namespace AckHour

def count (g : AckHour) : Nat := g.nodes.length

structure Ordered (g : AckHour) : Prop where
  lt : g.cur.order < g.next.order
  mem : ∀ n ∈ g.nodes, n.updateTS.order ∈ Set.Ico g.cur.order g.next.order
  sorted : g.nodes.Pairwise fun a b => a.updateTS.order ≤ b.updateTS.order

def waitingMsg (offset end_ : Timestamp) (s : AckState) : List SyncOplogAck :=
  if s.nodes.isEmpty then [] else [⟨offset, s.nodes, s.startHourTS, end_, s.startHourTS, end_⟩]

def blocks (offset : Timestamp) (g : AckHour) : List SyncOplogAck :=
  syncOplogAckBlocks offset g.cur g.next g.nodes.length g.cur g.nodes

def step (offset : Timestamp) (g : AckHour) (s : AckState) : List SyncOplogAck × AckState :=
  if s.nodes.length + g.count < maxSyncOplogAck then ([], ⟨s.nodes ++ g.nodes, s.startHourTS⟩)
  else if g.count < maxSyncObjectAck then (waitingMsg offset g.cur s, ⟨g.nodes, g.cur⟩)
  else (waitingMsg offset g.cur s ++ g.blocks offset, ⟨[], g.next⟩)

end AckHour

def ackHours (offset now : Timestamp) : List AckHour → AckState → List SyncOplogAck
  | [], s => AckHour.waitingMsg offset now s
  | g :: gs, s => (g.step offset s).1 ++ ackHours offset now gs (g.step offset s).2

inductive HourChain : Timestamp → Timestamp → List AckHour → Prop where
  | nil (a : Timestamp) : HourChain a a []
  | cons {b : Timestamp} {g : AckHour} {gs : List AckHour} : g.Ordered → HourChain g.next b gs → HourChain g.cur b (g :: gs)

theorem HourChain.le {a b : Timestamp} {gs : List AckHour} (h : HourChain a b gs) : a.order ≤ b.order := by
  induction h with
  | nil => exact le_rfl
  | cons hg _ ih => exact hg.lt.le.trans ih

theorem HourChain.mem {a b : Timestamp} {gs : List AckHour} (h : HourChain a b gs) {g : AckHour} (hg : g ∈ gs) :
    a.order ≤ g.cur.order ∧ g.Ordered := by
  induction h with
  | nil => cases hg
  | cons hg' _ ih =>
    rcases mem_cons.1 hg with rfl | hg
    · exact ⟨le_rfl, hg'⟩
    · exact ⟨hg'.lt.le.trans (ih hg).1, (ih hg).2⟩

theorem HourChain.next_le {a b : Timestamp} {gs : List AckHour} (h : HourChain a b gs) {g : AckHour} (hg : g ∈ gs) :
    g.next.order ≤ b.order := by
  induction h with
  | nil => cases hg
  | cons _ hchain ih =>
    rcases mem_cons.1 hg with rfl | hg
    · exact hchain.le
    · exact ih hg

def carry (waiting count : Nat) : Nat :=
  if waiting + count < maxSyncOplogAck then waiting + count else if count < maxSyncObjectAck then count else 0

def NextSmall (counts : List Nat) : Prop := ∃ n, (counts.dropWhile (· == 0)).head? = some n ∧ n < maxSyncOplogAck

def NoGap (waiting : Nat) (counts : List Nat) : Prop :=
  ∀ pre post, counts = pre ++ 0 :: post → pre.foldl carry waiting = 0 → NextSmall post

def BlockEnds (nodes : List MerkleNode) : Prop :=
  ∀ q x y, nodes[maxSyncOplogAck * q + (maxSyncOplogAck - 1)]? = some x → nodes[maxSyncOplogAck * q + maxSyncOplogAck]? = some y →
    x.updateTS ≠ y.updateTS

def BlocksEnd (waiting : Nat) (gs : List AckHour) : Prop :=
  ∀ pre g post, gs = pre ++ g :: post → maxSyncOplogAck ≤ (pre.map AckHour.count).foldl carry waiting + g.count →
    maxSyncObjectAck ≤ g.count → BlockEnds g.nodes

def SyncOplogAck.Exact (S : MerkleNode → Prop) (a : SyncOplogAck) : Prop :=
  ∀ n, n ∈ a.nodes ↔ S n ∧ n.updateTS.order ∈ Set.Ico a.window.1 a.window.2

namespace WindowsAux

/-! ## Blocks -/

section blocks

variable {offset cur next start : Timestamp} {nodes : List MerkleNode} {fuel : Nat}

def blockEnd (next : Timestamp) (nodes : List MerkleNode) : Timestamp :=
  (nodes.drop maxSyncOplogAck).head?.elim next MerkleNode.updateTS

theorem blocks_nil : syncOplogAckBlocks offset cur next fuel start [] = [] := by cases fuel <;> rfl

theorem blocks_cons (hne : nodes ≠ []) : syncOplogAckBlocks offset cur next (fuel + 1) start nodes =
    ⟨offset, nodes.take maxSyncOplogAck, cur, next, start, blockEnd next nodes⟩ ::
      syncOplogAckBlocks offset cur next fuel (blockEnd next nodes) (nodes.drop maxSyncOplogAck) := by
  rw [syncOplogAckBlocks, if_neg]
  · rfl
  · rwa [List.isEmpty_iff]

structure Between (start next : Timestamp) (nodes : List MerkleNode) : Prop where
  le : start.order ≤ next.order
  mem : ∀ n ∈ nodes, n.updateTS.order ∈ Set.Ico start.order next.order
  sorted : nodes.Pairwise fun a b => a.updateTS.order ≤ b.updateTS.order

theorem Between.drop (h : Between start next nodes) :
    start.order ≤ (blockEnd next nodes).order ∧ Between (blockEnd next nodes) next (nodes.drop maxSyncOplogAck) := by
  have hmem : ∀ n ∈ nodes.drop maxSyncOplogAck, n ∈ nodes := fun n hn => drop_subset _ _ hn
  have hsorted := h.sorted.sublist (drop_sublist maxSyncOplogAck nodes)
  unfold blockEnd
  cases hdrop : nodes.drop maxSyncOplogAck with
  | nil => exact ⟨h.le, le_rfl, fun n hn => absurd hn not_mem_nil, .nil⟩
  | cons x rest =>
    rw [hdrop] at hmem hsorted
    have hx := h.mem x (hmem x (.head _))
    refine ⟨hx.1, hx.2.le, fun n hn => ⟨?_, (h.mem n (hmem n hn)).2⟩, hsorted⟩
    rcases mem_cons.1 hn with rfl | hn
    · exact le_rfl
    · exact rel_of_pairwise_cons hsorted hn

theorem length_drop_le {n : Nat} (hlen : nodes.length ≤ n + 1) : (nodes.drop maxSyncOplogAck).length ≤ n := by
  rw [length_drop]
  have : maxSyncOplogAck = 200 := rfl
  omega

theorem blocks_within (h : Between start next nodes) (hfuel : nodes.length ≤ fuel) :
    Within start.order next.order ((syncOplogAckBlocks offset cur next fuel start nodes).map SyncOplogAck.window) := by
  induction fuel generalizing start nodes with
  | zero =>
    rw [length_eq_zero_iff.1 (Nat.le_zero.1 hfuel), blocks_nil]
    exact .nil h.le
  | succ fuel ih =>
    by_cases hne : nodes = []
    · rw [hne, blocks_nil]
      exact .nil h.le
    · rw [blocks_cons hne]
      exact .cons le_rfl h.drop.1 (ih h.drop.2 (length_drop_le hfuel))

theorem blocks_covers (h : Between start next nodes) (hne : nodes ≠ []) (hfuel : nodes.length ≤ fuel) :
    Covers start.order next.order ((syncOplogAckBlocks offset cur next fuel start nodes).map SyncOplogAck.window) := by
  induction fuel generalizing start nodes with
  | zero => exact absurd (length_eq_zero_iff.1 (Nat.le_zero.1 hfuel)) hne
  | succ fuel ih =>
    rw [blocks_cons hne, map_cons, ← singleton_append]
    refine (covers_append_iff (.single h.drop.1) (covers_single _ _)).2 ?_
    by_cases hrest : nodes.drop maxSyncOplogAck = []
    · have hend : blockEnd next nodes = next := by rw [blockEnd, hrest]; rfl
      rw [hrest, blocks_nil, hend]
      exact covers_nil
    · exact ih h.drop.2 hrest (length_drop_le hfuel)

theorem mem_blocks {a : SyncOplogAck} (h : Between start next nodes) (ha : a ∈ syncOplogAckBlocks offset cur next fuel start nodes) :
    a.nodes ≠ [] ∧ a.nodes.Sublist nodes ∧ a.startHourTS = cur ∧ a.endHourTS = next ∧ start.order ≤ a.startTS.order ∧
      a.endTS.order ≤ next.order := by
  induction fuel generalizing start nodes with
  | zero => cases ha
  | succ fuel ih =>
    by_cases hne : nodes = []
    · rw [hne, blocks_nil] at ha
      cases ha
    · rw [blocks_cons hne] at ha
      rcases mem_cons.1 ha with rfl | ha
      · refine ⟨?_, take_sublist _ _, rfl, rfl, le_rfl, h.drop.2.le⟩
        rw [ne_eq, take_eq_nil_iff, not_or]
        exact ⟨by decide, hne⟩
      · obtain ⟨h1, h2, h3, h4, h5, h6⟩ := ih h.drop.2 ha
        exact ⟨h1, h2.trans (drop_sublist _ _), h3, h4, h.drop.1.trans h5, h6⟩

def FirstEnd (nodes : List MerkleNode) : Prop :=
  ∀ x y, nodes[maxSyncOplogAck - 1]? = some x → nodes[maxSyncOplogAck]? = some y → x.updateTS ≠ y.updateTS

theorem blockEnds_iff : BlockEnds nodes ↔ FirstEnd nodes ∧ BlockEnds (nodes.drop maxSyncOplogAck) := by
  unfold BlockEnds FirstEnd
  simp only [List.getElem?_drop]
  constructor
  · intro h
    refine ⟨fun x y => ?_, fun q x y => ?_⟩
    · have h0 := h 0 x y
      rwa [Nat.mul_zero, Nat.zero_add, Nat.zero_add] at h0
    · have hq := h (q + 1) x y
      rwa [Nat.mul_succ, Nat.add_comm (maxSyncOplogAck * q), Nat.add_assoc, Nat.add_assoc] at hq
  · rintro ⟨h0, h1⟩ q x y
    cases q with
    | zero =>
      rw [Nat.mul_zero, Nat.zero_add, Nat.zero_add]
      exact h0 x y
    | succ q =>
      rw [Nat.mul_succ, Nat.add_comm (maxSyncOplogAck * q), Nat.add_assoc, Nat.add_assoc]
      exact h1 q x y

theorem mem_take_or_drop {n : MerkleNode} : n ∈ nodes ↔ n ∈ nodes.take maxSyncOplogAck ∨ n ∈ nodes.drop maxSyncOplogAck := by
  rw [← mem_append, take_append_drop]

theorem FirstEnd.lt_blockEnd (hend : FirstEnd nodes) (h : Between start next nodes) {n : MerkleNode}
    (hn : n ∈ nodes.take maxSyncOplogAck) : n.updateTS.order < (blockEnd next nodes).order := by
  unfold blockEnd
  cases hdrop : nodes.drop maxSyncOplogAck with
  | nil => exact (h.mem n (take_subset _ _ hn)).2
  | cons y rest =>
    have hy : nodes[maxSyncOplogAck]? = some y := by
      rw [← List.head?_drop, hdrop]
      rfl
    obtain ⟨hlen, hy'⟩ := List.getElem?_eq_some_iff.1 hy
    have hpred : maxSyncOplogAck - 1 < maxSyncOplogAck := by decide
    have hlen' : maxSyncOplogAck - 1 < nodes.length := hpred.trans hlen
    have hx : nodes[maxSyncOplogAck - 1]? = some nodes[maxSyncOplogAck - 1] := List.getElem?_eq_getElem hlen'
    obtain ⟨i, hi, rfl⟩ := mem_take_iff_getElem.1 hn
    have hsorted := pairwise_iff_getElem.1 h.sorted
    have hxy := hsorted (maxSyncOplogAck - 1) maxSyncOplogAck hlen' hlen hpred
    rw [hy'] at hxy
    have hlt := lt_of_le_of_ne hxy fun heq => hend _ y hx hy (Timestamp.order_injective heq)
    refine lt_of_le_of_lt ?_ hlt
    have hi' : i < maxSyncOplogAck := (lt_min_iff.1 hi).1
    rcases Nat.lt_or_ge i (maxSyncOplogAck - 1) with hlt' | hge
    · exact hsorted i (maxSyncOplogAck - 1) _ _ hlt'
    · have heq : i = maxSyncOplogAck - 1 := Nat.le_antisymm (Nat.le_sub_one_of_lt hi') hge
      subst heq
      exact le_rfl

variable {S : MerkleNode → Prop}

theorem firstBlock_exact_iff (offset cur : Timestamp) (h : Between start next nodes)
    (hS : ∀ n, n ∈ nodes ↔ S n ∧ n.updateTS.order ∈ Set.Ico start.order next.order) :
    (SyncOplogAck.Exact S ⟨offset, nodes.take maxSyncOplogAck, cur, next, start, blockEnd next nodes⟩ ↔ FirstEnd nodes) ∧
    (FirstEnd nodes → ∀ n, n ∈ nodes.drop maxSyncOplogAck ↔ S n ∧ n.updateTS.order ∈ Set.Ico (blockEnd next nodes).order next.order) := by
  have hrest : ∀ n ∈ nodes.drop maxSyncOplogAck, (blockEnd next nodes).order ≤ n.updateTS.order := fun n hn => (h.drop.2.mem n hn).1
  refine ⟨⟨fun hexact x y hx hy => ?_, fun hend n => ⟨fun hn => ?_, ?_⟩⟩, fun hend n => ⟨fun hn => ?_, ?_⟩⟩
  · have hmem : x ∈ nodes.take maxSyncOplogAck := by
      obtain ⟨hlen, rfl⟩ := List.getElem?_eq_some_iff.1 hx
      exact mem_take_iff_getElem.2 ⟨_, lt_min (by decide) hlen, rfl⟩
    have hlt := ((hexact x).1 hmem).2.2
    have hend : blockEnd next nodes = y.updateTS := by
      rw [blockEnd, List.head?_drop, hy]
      rfl
    intro heq
    rw [hend, heq] at hlt
    exact lt_irrefl _ hlt
  · have hn' := (hS n).1 (take_subset _ _ hn)
    exact ⟨hn'.1, hn'.2.1, hend.lt_blockEnd h hn⟩
  · rintro ⟨hn, hlo, hhi⟩
    rcases mem_take_or_drop.1 ((hS n).2 ⟨hn, hlo, hhi.trans_le h.drop.2.le⟩) with hmem | hmem
    · exact hmem
    · exact absurd (hrest n hmem) (not_le.2 hhi)
  · exact ⟨((hS n).1 (drop_subset _ _ hn)).1, h.drop.2.mem n hn⟩
  · rintro ⟨hn, hlo, hhi⟩
    rcases mem_take_or_drop.1 ((hS n).2 ⟨hn, h.drop.1.trans hlo, hhi⟩) with hmem | hmem
    · exact absurd (hend.lt_blockEnd h hmem) (not_lt.2 hlo)
    · exact hmem

theorem blocks_exact_iff (h : Between start next nodes)
    (hS : ∀ n, n ∈ nodes ↔ S n ∧ n.updateTS.order ∈ Set.Ico start.order next.order) (hfuel : nodes.length ≤ fuel) :
    (∀ a ∈ syncOplogAckBlocks offset cur next fuel start nodes, a.Exact S) ↔ BlockEnds nodes := by
  have hnil : nodes = [] → ((∀ a ∈ syncOplogAckBlocks offset cur next fuel start nodes, a.Exact S) ↔ BlockEnds nodes) := by
    rintro rfl
    rw [blocks_nil]
    exact iff_of_true (fun a ha => absurd ha not_mem_nil) fun q x y hx => absurd hx (by simp)
  induction fuel generalizing start nodes with
  | zero => exact hnil (length_eq_zero_iff.1 (Nat.le_zero.1 hfuel))
  | succ fuel ih =>
    by_cases hne : nodes = []
    · exact hnil hne
    · obtain ⟨hfirst, hrest⟩ := firstBlock_exact_iff offset cur h hS
      rw [blocks_cons hne, forall_mem_cons, hfirst, blockEnds_iff]
      refine and_congr_right fun hend => ih h.drop.2 (hrest hend) (length_drop_le hfuel) ?_
      intro hdrop
      rw [hdrop, blocks_nil]
      exact iff_of_true (fun a ha => absurd ha not_mem_nil) fun q x y hx => absurd hx (by simp)

end blocks

/-! ## Hours -/

section hours

variable {offset now c : Timestamp} {g : AckHour} {gs : List AckHour} {s : AckState}

theorem waitingMsg_nil (offset end_ : Timestamp) (h : s.nodes = []) : AckHour.waitingMsg offset end_ s = [] := by
  rw [AckHour.waitingMsg, h]
  rfl

theorem waitingMsg_of_ne (offset end_ : Timestamp) (h : s.nodes ≠ []) :
    AckHour.waitingMsg offset end_ s = [⟨offset, s.nodes, s.startHourTS, end_, s.startHourTS, end_⟩] := by
  rw [AckHour.waitingMsg, if_neg]
  rwa [List.isEmpty_iff]

theorem ackHours_cons (offset now : Timestamp) (g : AckHour) (gs : List AckHour) (s : AckState) :
    (s.nodes.length + g.count < maxSyncOplogAck ∧ carry s.nodes.length g.count = s.nodes.length + g.count ∧
      ackHours offset now (g :: gs) s = ackHours offset now gs ⟨s.nodes ++ g.nodes, s.startHourTS⟩) ∨
    (maxSyncOplogAck ≤ s.nodes.length + g.count ∧ g.count < maxSyncObjectAck ∧ carry s.nodes.length g.count = g.count ∧
      ackHours offset now (g :: gs) s = AckHour.waitingMsg offset g.cur s ++ ackHours offset now gs ⟨g.nodes, g.cur⟩) ∨
    (maxSyncOplogAck ≤ s.nodes.length + g.count ∧ maxSyncObjectAck ≤ g.count ∧ carry s.nodes.length g.count = 0 ∧
      ackHours offset now (g :: gs) s =
        AckHour.waitingMsg offset g.cur s ++ (g.blocks offset ++ ackHours offset now gs ⟨[], g.next⟩)) := by
  rw [ackHours, AckHour.step, carry]
  rcases Nat.lt_or_ge (s.nodes.length + g.count) maxSyncOplogAck with hlt | hge
  · rw [if_pos hlt, if_pos hlt]
    exact .inl ⟨hlt, rfl, rfl⟩
  · rw [if_neg (not_lt.2 hge), if_neg (not_lt.2 hge)]
    rcases Nat.lt_or_ge g.count maxSyncObjectAck with hlt' | hge'
    · rw [if_pos hlt', if_pos hlt']
      exact .inr (.inl ⟨hge, hlt', rfl, rfl⟩)
    · rw [if_neg (not_lt.2 hge'), if_neg (not_lt.2 hge'), append_assoc]
      exact .inr (.inr ⟨hge, hge', rfl, rfl⟩)

variable {e : Timestamp} {counts : List Nat} {a : SyncOplogAck}

theorem waitingMsg_within (offset : Timestamp) (h : s.startHourTS.order ≤ e.order) :
    Within s.startHourTS.order e.order ((AckHour.waitingMsg offset e s).map SyncOplogAck.window) := by
  by_cases hne : s.nodes = []
  · rw [waitingMsg_nil offset e hne]
    exact .nil h
  · rw [waitingMsg_of_ne offset e hne]
    exact .single h

theorem between_hour (hg : g.Ordered) : Between g.cur g.next g.nodes := ⟨hg.lt.le, hg.mem, hg.sorted⟩

theorem hour_blocks_within (hg : g.Ordered) : Within g.cur.order g.next.order ((g.blocks offset).map SyncOplogAck.window) :=
  blocks_within (between_hour hg) le_rfl

theorem hours_within (h : HourChain c now gs) (hs : s.startHourTS.order ≤ c.order) :
    Within s.startHourTS.order now.order ((ackHours offset now gs s).map SyncOplogAck.window) := by
  induction h generalizing s with
  | nil => exact waitingMsg_within offset hs
  | @cons b g gs hg _ ih =>
    rcases ackHours_cons offset b g gs s with ⟨-, -, heq⟩ | ⟨-, -, -, heq⟩ | ⟨-, -, -, heq⟩
    · rw [heq]
      exact ih (s := ⟨s.nodes ++ g.nodes, s.startHourTS⟩) (hs.trans hg.lt.le)
    · rw [heq, map_append]
      exact (waitingMsg_within offset hs).append (ih (s := ⟨g.nodes, g.cur⟩) hg.lt.le)
    · rw [heq, map_append, map_append]
      exact (waitingMsg_within offset hs).append ((hour_blocks_within hg).append (ih (s := ⟨[], g.next⟩) le_rfl))

/-! ## Gaps -/

theorem nextSmall_zero : NextSmall (0 :: counts) ↔ NextSmall counts := by
  rw [NextSmall, NextSmall, dropWhile_cons_of_pos (by rfl)]

theorem nextSmall_cons {n : Nat} (hn : n ≠ 0) : NextSmall (n :: counts) ↔ n < maxSyncOplogAck := by
  rw [NextSmall, dropWhile_cons_of_neg (by simpa using hn)]
  simp

theorem noGap_cons {waiting n : Nat} :
    NoGap waiting (n :: counts) ↔ (n = 0 → waiting = 0 → NextSmall counts) ∧ NoGap (carry waiting n) counts := by
  constructor
  · refine fun h => ⟨fun hn hw => h [] counts (by rw [hn]; rfl) hw, fun pre post hpre hw => h (n :: pre) post ?_ hw⟩
    rw [hpre]
    rfl
  · rintro ⟨h0, h1⟩ pre post hpre hw
    cases pre with
    | nil =>
      obtain ⟨rfl, rfl⟩ := List.cons.inj hpre
      exact h0 rfl hw
    | cons k pre =>
      obtain ⟨rfl, rfl⟩ := List.cons.inj hpre
      exact h1 pre post rfl hw

theorem covers_waitingMsg {e b : Timestamp} (hs : s.startHourTS.order ≤ e.order) (hne : s.nodes ≠ [])
    {l : List ((Int ×ₗ Nat) × (Int ×ₗ Nat))} :
    Covers s.startHourTS.order b.order ((AckHour.waitingMsg offset e s).map SyncOplogAck.window ++ l) ↔ Covers e.order b.order l := by
  rw [waitingMsg_of_ne offset e hne]
  exact covers_append_iff (.single hs) (covers_single _ _)

theorem hours_covers_iff (h : HourChain c now gs) (hs : s.startHourTS.order ≤ c.order) (hlen : s.nodes.length < maxSyncOplogAck) :
    Covers s.startHourTS.order now.order ((ackHours offset now gs s).map SyncOplogAck.window) ↔
      NoGap s.nodes.length (gs.map AckHour.count) ∧
        (s.nodes = [] → s.startHourTS.order < c.order → NextSmall (gs.map AckHour.count)) := by
  induction h generalizing s with
  | nil a =>
    have hgap : NoGap s.nodes.length ([].map AckHour.count) := fun pre post hpre => absurd hpre (by simp)
    have hsmall : ¬ NextSmall ([].map AckHour.count) := fun ⟨n, hn, _⟩ => absurd hn (by simp)
    rw [and_iff_right hgap, ackHours]
    by_cases hne : s.nodes = []
    · rw [waitingMsg_nil offset a hne]
      constructor
      · exact fun hcov _ hlt => absurd hcov (not_covers_nil hlt)
      · intro hopen
        rw [le_antisymm hs (not_lt.1 fun hlt => hsmall (hopen hne hlt))]
        exact covers_nil
    · rw [waitingMsg_of_ne offset a hne]
      exact iff_of_true (covers_single _ _) fun hnil => absurd hnil hne
  | @cons b g gs hg hchain ih =>
    have hobj : maxSyncObjectAck = 50 := rfl
    have hmax : maxSyncOplogAck = 200 := rfl
    rw [map_cons, noGap_cons]
    rcases ackHours_cons offset b g gs s with ⟨hlt, hcarry, heq⟩ | ⟨hge, hfew, hcarry, heq⟩ | ⟨hge, hmany, hcarry, heq⟩
    · -- The hour is added to what waits.
      have hnil : s.nodes ++ g.nodes = [] ↔ s.nodes.length = 0 ∧ g.count = 0 := by
        rw [append_eq_nil_iff, ← length_eq_zero_iff, ← length_eq_zero_iff]
        rfl
      rw [heq, hcarry, ih (s := ⟨s.nodes ++ g.nodes, s.startHourTS⟩) (hs.trans hg.lt.le) (by rwa [length_append]),
        length_append]
      rw [hnil]
      constructor
      · rintro ⟨hgap, hopen⟩
        refine ⟨⟨fun hg0 hs0 => hopen ⟨hs0, hg0⟩ (hs.trans_lt hg.lt), hgap⟩, fun hs0 _ => ?_⟩
        by_cases hg0 : g.count = 0
        · rw [hg0, nextSmall_zero]
          exact hopen ⟨by rw [hs0]; rfl, hg0⟩ (hs.trans_lt hg.lt)
        · exact (nextSmall_cons hg0).2 (by omega)
      · rintro ⟨⟨hfirst, hgap⟩, -⟩
        exact ⟨hgap, fun ⟨hs0, hg0⟩ _ => hfirst hg0 hs0⟩
    · -- What waits is sent, and the hour waits.
      have hne : s.nodes ≠ [] := by
        rintro hnil
        rw [hnil, length_nil] at hge
        omega
      have hg0 : g.nodes ≠ [] := by
        intro hnil
        rw [AckHour.count, hnil, length_nil] at hge
        omega
      rw [heq, hcarry, map_append, covers_waitingMsg hs hne, ih (s := ⟨g.nodes, g.cur⟩) hg.lt.le (by change g.count < _; omega)]
      constructor
      · rintro ⟨hgap, -⟩
        refine ⟨⟨fun hz => absurd (length_eq_zero_iff.1 hz) hg0, hgap⟩, fun hnil => absurd hnil hne⟩
      · rintro ⟨⟨-, hgap⟩, -⟩
        exact ⟨hgap, fun hnil => absurd hnil hg0⟩
    · -- What waits is sent, and the hour is sent in blocks.
      have hg0 : g.count ≠ 0 := by omega
      have hgne : g.nodes ≠ [] := fun hnil => hg0 (by rw [AckHour.count, hnil]; rfl)
      have hrest : Covers g.cur.order b.order ((g.blocks offset ++ ackHours offset b gs ⟨[], g.next⟩).map SyncOplogAck.window) ↔
          NoGap 0 (gs.map AckHour.count) := by
        rw [map_append, covers_append_iff (hour_blocks_within hg) (blocks_covers (between_hour hg) hgne le_rfl),
          ih (s := ⟨[], g.next⟩) le_rfl (Nat.zero_lt_succ _)]
        exact ⟨And.left, fun hgap => ⟨hgap, fun _ hlt => absurd hlt (lt_irrefl _)⟩⟩
      rw [heq, hcarry]
      by_cases hne : s.nodes = []
      · have hfull : ¬ NextSmall (g.count :: gs.map AckHour.count) := by
          rw [nextSmall_cons hg0, not_lt]
          rwa [hne, length_nil, Nat.zero_add] at hge
        rw [waitingMsg_nil offset _ hne, nil_append]
        rcases hs.lt_or_eq with hlt | heq'
        · have hwithin : Within g.cur.order b.order
              ((g.blocks offset ++ ackHours offset b gs ⟨[], g.next⟩).map SyncOplogAck.window) := by
            rw [map_append]
            exact (hour_blocks_within hg).append (hours_within (s := ⟨[], g.next⟩) hchain le_rfl)
          exact iff_of_false (not_covers_of_lt hwithin hlt) fun hopen => hfull (hopen.2 hne hlt)
        · rw [heq', hrest]
          exact ⟨fun hgap => ⟨⟨fun hz => absurd hz hg0, hgap⟩, fun _ hlt => absurd hlt (lt_irrefl _)⟩, fun hgap => hgap.1.2⟩
      · rw [map_append, covers_waitingMsg hs hne, hrest]
        exact ⟨fun hgap => ⟨⟨fun hz => absurd hz hg0, hgap⟩, fun hnil => absurd hnil hne⟩, fun hgap => hgap.1.2⟩

/-! ## Nodes -/

theorem blocksEnd_cons {waiting : Nat} : BlocksEnd waiting (g :: gs) ↔
    (maxSyncOplogAck ≤ waiting + g.count → maxSyncObjectAck ≤ g.count → BlockEnds g.nodes) ∧ BlocksEnd (carry waiting g.count) gs := by
  constructor
  · refine fun h => ⟨h [] g gs rfl, fun pre g' post hpre => h (g :: pre) g' post ?_⟩
    rw [hpre]
    rfl
  · rintro ⟨h0, h1⟩ pre g' post hpre
    cases pre with
    | nil =>
      obtain ⟨rfl, rfl⟩ := List.cons.inj hpre
      exact h0
    | cons k pre =>
      obtain ⟨rfl, rfl⟩ := List.cons.inj hpre
      exact h1 pre g' post rfl

variable {S : MerkleNode → Prop}

theorem waitingMsg_exact (hs : ∀ n, n ∈ s.nodes ↔ S n ∧ n.updateTS.order ∈ Set.Ico s.startHourTS.order e.order) :
    ∀ a ∈ AckHour.waitingMsg offset e s, a.Exact S := by
  by_cases hne : s.nodes = []
  · rw [waitingMsg_nil offset e hne]
    exact fun a ha => absurd ha not_mem_nil
  · rw [waitingMsg_of_ne offset e hne]
    intro a ha
    rw [mem_singleton.1 ha]
    exact hs

theorem hours_exact_iff (h : HourChain c now gs) (hstart : s.startHourTS.order ≤ c.order)
    (hgs : ∀ g ∈ gs, ∀ n, n ∈ g.nodes ↔ S n ∧ n.updateTS.order ∈ Set.Ico g.cur.order g.next.order)
    (hs : ∀ n, n ∈ s.nodes ↔ S n ∧ n.updateTS.order ∈ Set.Ico s.startHourTS.order c.order) :
    (∀ a ∈ ackHours offset now gs s, a.Exact S) ↔ BlocksEnd s.nodes.length gs := by
  induction h generalizing s with
  | nil a =>
    exact iff_of_true (waitingMsg_exact hs) fun pre g post hpre => absurd hpre (by simp)
  | @cons b g gs hg hchain ih =>
    have hgs' := fun g' hg' => hgs g' (mem_cons_of_mem g hg')
    have hexact := hgs g mem_cons_self
    rw [blocksEnd_cons]
    rcases ackHours_cons offset b g gs s with ⟨hlt, hcarry, heq⟩ | ⟨-, hfew, hcarry, heq⟩ | ⟨hge, hmany, hcarry, heq⟩
    · rw [heq, hcarry, ih (s := ⟨s.nodes ++ g.nodes, s.startHourTS⟩) (hstart.trans hg.lt.le) hgs', length_append]
      · exact ⟨fun hrest => ⟨fun hge => absurd hge (not_le.2 hlt), hrest⟩, And.right⟩
      · intro n
        rw [mem_append, hs, hexact, ← and_or_left]
        refine and_congr_right fun _ => ⟨?_, fun ht => ?_⟩
        · rintro (ht | ht)
          · exact ⟨ht.1, ht.2.trans hg.lt⟩
          · exact ⟨hstart.trans ht.1, ht.2⟩
        · rcases lt_or_ge n.updateTS.order g.cur.order with hlt' | hge'
          · exact .inl ⟨ht.1, hlt'⟩
          · exact .inr ⟨hge', ht.2⟩
    · rw [heq, hcarry, forall_mem_append, and_iff_right (waitingMsg_exact hs), ih (s := ⟨g.nodes, g.cur⟩) hg.lt.le hgs' hexact]
      exact ⟨fun hrest => ⟨fun _ hmany => absurd hmany (not_le.2 hfew), hrest⟩, And.right⟩
    · rw [heq, hcarry, forall_mem_append, forall_mem_append, and_iff_right (waitingMsg_exact hs),
        ih (s := ⟨[], g.next⟩) le_rfl hgs' fun n => iff_of_false not_mem_nil fun ht => absurd ht.2.2 (not_lt.2 ht.2.1)]
      refine and_congr ?_ Iff.rfl
      rw [AckHour.blocks, blocks_exact_iff (between_hour hg) hexact le_rfl]
      exact ⟨fun hend _ _ => hend, fun hend => hend hge hmany⟩

/-! ## Messages -/

inductive Kind (start now : Timestamp) (gs : List AckHour) (a : SyncOplogAck) : Prop where
  | waiting : a.startHourTS = a.startTS → a.endHourTS = a.endTS → (a.startTS = start ∨ ∃ g ∈ gs, a.startTS = g.cur ∨ a.startTS = g.next) →
      (a.endTS = now ∨ ∃ g ∈ gs, a.endTS = g.cur) → Kind start now gs a
  | block (g : AckHour) : g ∈ gs → a.nodes.Sublist g.nodes → a.startHourTS = g.cur → a.endHourTS = g.next →
      g.cur.order ≤ a.startTS.order → a.endTS.order ≤ g.next.order → Kind start now gs a

theorem Kind.cons {start : Timestamp} (h : Kind start now gs a)
    (hstart : start = s.startHourTS ∨ start = g.cur ∨ start = g.next) : Kind s.startHourTS now (g :: gs) a := by
  cases h with
  | waiting h1 h2 h3 h4 =>
    refine .waiting h1 h2 ?_ (h4.imp_right fun ⟨g', hg', he⟩ => ⟨g', mem_cons_of_mem g hg', he⟩)
    rcases h3 with h3 | ⟨g', hg', he⟩
    · rw [h3]
      exact hstart.imp_right fun he => ⟨g, (.head _), he⟩
    · exact .inr ⟨g', mem_cons_of_mem g hg', he⟩
  | block g' h1 h2 h3 h4 h5 h6 => exact .block g' (mem_cons_of_mem g h1) h2 h3 h4 h5 h6

structure MsgOK (s : AckState) (now : Timestamp) (gs : List AckHour) (a : SyncOplogAck) : Prop where
  ne_nil : a.nodes ≠ []
  sublist : a.nodes.Sublist (s.nodes ++ gs.flatMap AckHour.nodes)
  kind : Kind s.startHourTS now gs a

theorem msgOK_waiting (he : e = now ∨ ∃ g ∈ gs, e = g.cur) (ha : a ∈ AckHour.waitingMsg offset e s) :
    MsgOK s now gs a := by
  by_cases hne : s.nodes = []
  · rw [waitingMsg_nil offset e hne] at ha
    cases ha
  · rw [waitingMsg_of_ne offset e hne] at ha
    rw [mem_singleton.1 ha]
    exact ⟨hne, sublist_append_left _ _, .waiting rfl rfl (.inl rfl) he⟩

theorem mem_hours (h : HourChain c now gs) (ha : a ∈ ackHours offset now gs s) : MsgOK s now gs a := by
  induction h generalizing s with
  | nil => exact msgOK_waiting (.inl rfl) ha
  | @cons b g gs hg hchain ih =>
    have hcur : g.cur = b ∨ ∃ g' ∈ g :: gs, g.cur = g'.cur := .inr ⟨g, (.head _), rfl⟩
    rcases ackHours_cons offset b g gs s with ⟨-, -, heq⟩ | ⟨-, -, -, heq⟩ | ⟨-, -, -, heq⟩ <;> rw [heq] at ha
    · have hok := ih ha
      refine ⟨hok.ne_nil, ?_, hok.kind.cons (.inl rfl)⟩
      rw [flatMap_cons, ← append_assoc]
      exact hok.sublist
    · rcases mem_append.1 ha with ha | ha
      · exact msgOK_waiting hcur ha
      · have hok := ih ha
        exact ⟨hok.ne_nil, hok.sublist.trans (sublist_append_right _ _), hok.kind.cons (.inr (.inl rfl))⟩
    · rcases mem_append.1 ha with ha | ha
      · exact msgOK_waiting hcur ha
      rcases mem_append.1 ha with ha | ha
      · obtain ⟨h1, h2, h3, h4, h5, h6⟩ := mem_blocks (between_hour hg) ha
        refine ⟨h1, h2.trans ?_, .block g (.head _) h2 h3 h4 h5 h6⟩
        rw [flatMap_cons]
        exact (sublist_append_left _ _).trans (sublist_append_right _ _)
      · have hok := ih ha
        refine ⟨hok.ne_nil, hok.sublist.trans ?_, hok.kind.cons (.inr (.inr rfl))⟩
        rw [flatMap_cons, nil_append]
        exact (sublist_append_right _ _).trans (sublist_append_right _ _)

end hours

end WindowsAux

end PttaiCore
