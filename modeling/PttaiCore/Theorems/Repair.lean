import PttaiCore.Lemmas.Descent
import PttaiCore.Lib.Exchange
import PttaiCore.Theorems.Cover

/-! # The exchange down the tree makes progress -/

namespace PttaiCore

open MerkleTreeLevel Exchange Buckets CoverAux KeyStore PttaiCore.Span List

def SyncPeer.SendsKey (p : SyncPeer) (key : Bytes) (msg : SyncMsg) : Prop :=
  ∃ oplogs o o', msg = .forceSyncOplogByOplogAck oplogs ∧ o' ∈ oplogs ∧ BaseOplog.load p.db key = .ok o ∧ o'.notNewer = o.notNewer

structure Repairable (Γ : Ctx) (m : Merkle) (peers : Bool → SyncPeer) : Prop where
  alive : ∀ b, (peers b).myStatus = .alive ∧ (peers b).status = .alive
  consistent : ∀ b, Consistent Γ m (peers b).db.db
  readable : ∀ b, m.LeavesReadable (peers b).db.db
  stored : ∀ b, ∀ n ∈ m.leaves (peers b).db.db, ∃ o, BaseOplog.load (peers b).db n.key = .ok o
  /-- Nodes of one level above `now` that have one address have the same addresses below. -/
  preimage : ∀ b (c c' : Span), c.level = c'.level →
    Γ.addr (c.preimage m (peers b).db.db) = Γ.addr (c'.preimage m (peers !b).db.db) →
    c.preimage m (peers b).db.db = c'.preimage m (peers !b).db.db
  /-- Nodes of oplogs that have one address are of one oplog. -/
  leaf : ∀ b, ∀ x ∈ m.leaves (peers b).db.db, ∀ y ∈ m.leaves (peers !b).db.db, x.addr = y.addr → x.key = y.key

def syncReply (m : Merkle) (peers : Bool → SyncPeer) (now : Timestamp) (msg : Bool × SyncMsg) : List (Bool × SyncMsg) :=
  ((peers msg.1).handle m now msg.2).sent.map fun x => (!msg.1, x)

def syncStart (m : Merkle) (peers : Bool → SyncPeer) (toSyncTime : Timestamp) : List (Bool × SyncMsg) :=
  [(true, .syncOplog toSyncTime (m.getMerkleTreeList (peers false).db.db toSyncTime false).1)]

namespace RepairAux

structure Identifies {κ : Type} (m : Merkle) (peers : Bool → SyncPeer) (f : MerkleNode → κ) : Prop where
  inj : ∀ b, ∀ x ∈ m.leaves (peers b).db.db, ∀ y ∈ m.leaves (peers b).db.db, f x = f y → x = y
  time : ∀ b, ∀ x ∈ m.leaves (peers b).db.db, ∀ y ∈ m.leaves (peers !b).db.db, f x = f y → x.updateTS = y.updateTS
  addr : ∀ b, ∀ x ∈ m.leaves (peers b).db.db, ∀ y ∈ m.leaves (peers !b).db.db, x.addr = y.addr → f x = f y

variable {Γ : Ctx} {m : Merkle} {peers : Bool → SyncPeer} {now : Timestamp} {l : List (Bool × SyncMsg)} {b : Bool} {c c' : Span}
  {u v x : MerkleNode} {κ : Type} {f : MerkleNode → κ}

/-! ## Asking and answering -/

def Asked (m : Merkle) (peers : Bool → SyncPeer) (now : Timestamp) (l : List (Bool × SyncMsg)) (b : Bool) (c : Span) : Prop :=
  Derived (syncReply m peers now) l (!b, askMsg m (peers b).db.db c)

def Progress (m : Merkle) (peers : Bool → SyncPeer) (now : Timestamp) (l : List (Bool × SyncMsg)) (f : MerkleNode → κ) : Prop :=
  ∃ b, ∃ x ∈ m.leaves (peers b).db.db, (∀ y ∈ m.leaves (peers !b).db.db, f x ≠ f y) ∧
    ∃ msg, Derived (syncReply m peers now) l (!b, msg) ∧ (peers b).SendsKey x.key msg

theorem reply_of_sent (msg' : SyncMsg) {msg : SyncMsg} (h : Derived (syncReply m peers now) l (b, msg))
    (hsent : msg' ∈ ((peers b).handle m now msg).sent) : Derived (syncReply m peers now) l (!b, msg') :=
  h.reply (mem_map_of_mem hsent)

theorem asked_of_told (h : Repairable Γ m peers) {nodes : List MerkleNode}
    (htold : Derived (syncReply m peers now) l (b, .forceSyncOplogByMerkleAck nodes)) (hu : u ∈ nodes) (hlevel : u.level = c.level)
    (hts : u.updateTS = .ofSec c.start) : Asked m peers now l b c := by
  refine reply_of_sent _ htold ?_
  rw [SyncPeer.handle, SyncPeer.handleForceSyncOplogByMerkleAck, if_neg (not_not.2 (h.alive b).1), if_neg (not_not.2 (h.alive b).2),
    mem_flatMap]
  refine ⟨u, hu, ?_⟩
  rw [forceSyncOplogByMerkle_span (h.consistent b) (h.readable b) hlevel hts]
  exact .head _

theorem answer (h : Repairable Γ m peers) (hasked : Asked m peers now l b c) (hu : u ∈ c.children m (peers !b).db.db)
    (hnew : ∀ y ∈ c.children m (peers b).db.db, ¬ u.KnownBy y) : ∃ nodes, u ∈ nodes ∧ nodes ⊆ c.children m (peers !b).db.db ∧
      (c.level ≠ .hr → Derived (syncReply m peers now) l (b, .forceSyncOplogByMerkleAck nodes)) ∧
      (c.level = .hr → ∀ msg ∈ ((peers !b).forceSyncOplogByOplogAck nodes).sent, Derived (syncReply m peers now) l (b, msg)) := by
  have hmem := mem_diff_snd hu hnew
  have hhandle : (peers !b).handle m now (askMsg m (peers b).db.db c) =
      if c.level = .hr then (peers !b).forceSyncOplogByOplogAck
        (mergeDiff diffVerdict (c.children m (peers !b).db.db) (c.children m (peers b).db.db)).2
      else SyncPeer.forceSyncOplogByMerkleAck
        (mergeDiff diffVerdict (c.children m (peers !b).db.db) (c.children m (peers b).db.db)).2 := by
    rw [askMsg, SyncPeer.handle, SyncPeer.handleForceSyncOplogByMerkle, if_neg (not_not.2 (h.alive !b).1),
      if_neg (not_not.2 (h.alive !b).2), getChildNodes_eq (h.consistent !b).toTreeShape (h.readable !b)]
    dsimp only
    rw [diffMerkleTree_zero, if_neg]
    rw [List.isEmpty_iff]
    exact ne_nil_of_mem hmem
  refine ⟨_, hmem, (mergeDiff_subset _ _).2, fun hhr => ?_, fun hhr msg hmsg => ?_⟩
  · have hsent := reply_of_sent (.forceSyncOplogByMerkleAck _) hasked (by
      rw [hhandle, if_neg hhr]
      exact .head _)
    rwa [Bool.not_not] at hsent
  · have hsent := reply_of_sent msg hasked (by
      rw [hhandle, if_pos hhr]
      exact hmsg)
    rwa [Bool.not_not] at hsent

theorem asked_of_child (h : Repairable Γ m peers) (hasked : Asked m peers now l b c) (hc : c'.IsChild c)
    (hget : (peers !b).db.db.get (c'.key m) = some (.node u)) (hnew : ∀ y ∈ c.children m (peers b).db.db, ¬ u.KnownBy y) :
    Asked m peers now l b c' := by
  have hshape := (h.consistent !b).toTreeShape
  obtain ⟨nodes, hu, -, htold, -⟩ := answer h hasked (hc.mem_children hshape hget) hnew
  exact asked_of_told h (htold hc.ne_hr) hu (hshape.span_node hget).1 (hshape.span_node hget).2

theorem mem_markNewest {p : SyncPeer} {oplogs : List BaseOplog} {o : BaseOplog} (ho : o ∈ oplogs) :
    ∃ o' ∈ p.markNewest oplogs, o'.notNewer = o.notNewer := by
  unfold SyncPeer.markNewest
  cases p.setNewestOplog with
  | none => exact ⟨o, ho, rfl⟩
  | some g => exact ⟨_, mem_map_of_mem ho, rfl⟩

theorem sent_of_leaf (h : Repairable Γ m peers) (hasked : Asked m peers now l b c) (hhr : c.level = .hr)
    (hx : x ∈ c.children m (peers !b).db.db) (hnew : ∀ y ∈ c.children m (peers b).db.db, ¬ x.KnownBy y) :
    ∃ msg, Derived (syncReply m peers now) l (b, msg) ∧ (peers !b).SendsKey x.key msg := by
  obtain ⟨nodes, hmem, -, -, hsent⟩ := answer h hasked hx hnew
  obtain ⟨o, ho⟩ := h.stored (!b) x ((mem_children_hr (h.consistent !b).toTreeShape hhr).1 hx).1
  have hlogs : o ∈ getOplogsFromKeys (peers !b).db (nodes.map MerkleNode.key) := by
    refine mem_filterMap.2 ⟨x.key, mem_map_of_mem hmem, ?_⟩
    rw [ho]
    rfl
  obtain ⟨o', ho', hmark⟩ := mem_markNewest (p := peers !b) hlogs
  refine ⟨.forceSyncOplogByOplogAck _, hsent hhr _ ?_, _, o, o', rfl, ho', ho, hmark⟩
  rw [SyncPeer.forceSyncOplogByOplogAck, if_neg]
  · exact .head _
  · rw [List.isEmpty_iff]
    exact ne_nil_of_mem hlogs

/-! ## More children -/

theorem exists_of_length_lt {α β : Type} {g : α → β} {xs ys : List α} (hnodup : xs.Nodup) (hinj : ∀ x ∈ xs, ∀ y ∈ xs, g x = g y → x = y)
    (hlt : ys.length < xs.length) : ∃ x ∈ xs, ∀ y ∈ ys, g x ≠ g y := by
  by_contra hall
  push Not at hall
  have hsub : xs.map g ⊆ ys.map g := by
    intro z hz
    obtain ⟨x, hx, rfl⟩ := mem_map.1 hz
    obtain ⟨y, hy, heq⟩ := hall x hx
    exact heq ▸ mem_map_of_mem hy
  have hle := (subperm_of_subset (hnodup.map_on hinj) hsub).length_le
  rw [length_map, length_map] at hle
  omega

theorem leaf_of_mem (h : TreeShape m (peers b).db.db) (hx : x ∈ m.leaves (peers b).db.db) : ∃ r, IsLeaf m x r := by
  obtain ⟨r, hget⟩ := mem_leaves.1 hx
  exact ⟨r, h.leaf r x hget⟩

theorem not_knownBy_leaf (h : Repairable Γ m peers) (hf : Identifies m peers f) (hx : x ∈ m.leaves (peers b).db.db)
    {y : MerkleNode} (hy : y ∈ m.leaves (peers !b).db.db) (hne : f x ≠ f y) : ¬ x.KnownBy y := by
  rintro ⟨-, -, hknown⟩
  obtain ⟨r, hleaf⟩ := leaf_of_mem (h.consistent b).toTreeShape hx
  obtain ⟨r', hleaf'⟩ := leaf_of_mem (h.consistent !b).toTreeShape hy
  rw [hleaf.nChildren, hleaf'.nChildren] at hknown
  rcases hknown with hlt | ⟨-, haddr⟩
  · exact absurd hlt (by decide)
  · exact hne (hf.addr b x hx y hy haddr)

theorem get_of_mem_children {db : KeyStore Bytes Value} (h : TreeShape m db) (hc : c'.IsChild c) {y : MerkleNode}
    (hy : y ∈ c.children m db) (hts : y.updateTS = .ofSec c'.start) : db.get (c'.key m) = some (.node y) := by
  obtain ⟨d, hd, hget⟩ := exists_isChild h hc.ne_hr hy
  have hstart : d.start = c'.start := by
    have heq := congrArg (fun t : Timestamp => t.ts.toInt) ((h.span_node hget).2.symm.trans hts)
    rwa [toInt_ofSec d.nonneg d.start_lt, toInt_ofSec c'.nonneg c'.start_lt] at heq
  have heq : d = c' := Span.ext (hd.level.trans hc.level.symm) hstart
  rwa [heq] at hget

theorem children_ne_nil (h : Repairable Γ m peers) (hget : (peers b).db.db.get (c.key m) = some (.node u)) :
    c.children m (peers b).db.db ≠ [] := by
  intro hnil
  rw [((h.consistent b).node c).missing.2 hnil] at hget
  cases hget

theorem progress_of_more (h : Repairable Γ m peers) (hf : Identifies m peers f) : ∀ level ∈ uppers, ∀ c : Span, c.level = level →
    ∀ b, Asked m peers now l b c → (c.children m (peers b).db.db).length < (c.children m (peers !b).db.db).length →
      Progress m peers now l f := by
  refine upper_induction ?_ ?_
  · intro c hhr b hasked hlt
    have hshape := (h.consistent b).toTreeShape
    have hshape' := (h.consistent !b).toTreeShape
    have hleaf : ∀ {x}, x ∈ c.children m (peers !b).db.db → x ∈ m.leaves (peers !b).db.db :=
      fun hx => ((mem_children_hr hshape' hhr).1 hx).1
    obtain ⟨x, hx, hne⟩ := exists_of_length_lt (g := f) (children_nodup hshape' c)
      (fun x hx y hy => hf.inj (!b) x (hleaf hx) y (hleaf hy)) hlt
    obtain ⟨hx', hlo, hhi⟩ := (mem_children_hr hshape' hhr).1 hx
    have hfresh : ∀ y ∈ m.leaves (peers b).db.db, f x ≠ f y := by
      intro y hy heq
      have hts := hf.time (!b) x hx' y (by rwa [Bool.not_not]) heq
      rw [hts] at hlo hhi
      exact hne y ((mem_children_hr hshape hhr).2 ⟨hy, hlo, hhi⟩) heq
    refine ⟨!b, x, hx', ?_, ?_⟩
    · rwa [Bool.not_not]
    · rw [Bool.not_not]
      refine sent_of_leaf h hasked hhr hx fun y hy => ?_
      have hy' := ((mem_children_hr hshape hhr).1 hy).1
      exact not_knownBy_leaf h hf hx' (by rwa [Bool.not_not]) (hfresh y hy')
  · intro level _ hhr ih c hlevel b hasked hlt
    have hshape' := (h.consistent !b).toTreeShape
    rw [← hlevel] at hhr ih
    have hinj : ∀ u ∈ c.children m (peers !b).db.db, ∀ v ∈ c.children m (peers !b).db.db, u.updateTS = v.updateTS → u = v := by
      intro u hu v hv hts
      obtain ⟨d, hd, hget⟩ := exists_isChild hshape' hhr hu
      have hget' := get_of_mem_children hshape' hd hv (hts ▸ (hshape'.span_node hget).2)
      exact Value.node.inj (Option.some.inj (hget.symm.trans hget'))
    obtain ⟨u, hu, hne⟩ := exists_of_length_lt (g := MerkleNode.updateTS) (children_nodup hshape' c) hinj hlt
    obtain ⟨d, hd, hget⟩ := exists_isChild hshape' hhr hu
    -- The node which asked has nothing at the place of `u`.
    have hmissing : (peers b).db.db.get (d.key m) = none := by
      by_contra hsome
      obtain ⟨v, hv⟩ := Option.ne_none_iff_exists'.1 hsome
      obtain ⟨w, rfl, -⟩ : ∃ w, v = .node w ∧ _ := by
        rw [Span.key, marshalKey_eq] at hv
        exact (h.consistent b).entry (.tail _ d.upper) hv
      refine hne w (hd.mem_children (h.consistent b).toTreeShape hv) ?_
      rw [(hshape'.span_node hget).2, ((h.consistent b).span_node hv).2]
    refine ih d hd.level b (asked_of_child h hasked hd hget fun y hy hknown => hne y hy hknown.1) ?_
    rw [((h.consistent b).node d).missing.1 hmissing]
    exact length_pos_of_ne_nil (children_ne_nil h hget)

/-! ## As many children -/

theorem flatMap_addr_injective {as bs : List (ByteArrayOf 20)} (h : as.flatMap Subtype.val = bs.flatMap Subtype.val) : as = bs := by
  induction as generalizing bs with
  | nil =>
    cases bs with
    | nil => rfl
    | cons b bs =>
      have hlen := congrArg List.length h
      rw [flatMap_cons, length_append, b.2, flatMap_nil, length_nil] at hlen
      omega
  | cons a as ih =>
    cases bs with
    | nil =>
      have hlen := congrArg List.length h
      rw [flatMap_cons, length_append, a.2, flatMap_nil, length_nil] at hlen
      omega
    | cons b bs =>
      rw [flatMap_cons, flatMap_cons] at h
      obtain ⟨hab, hrest⟩ := append_inj h (a.2.trans b.2.symm)
      rw [Subtype.ext hab, ih hrest]

theorem exists_child_of_preimage {db db' : KeyStore Bytes Value} (hpre : c.preimage m db = c'.preimage m db')
    (hu : u ∈ c.children m db) : ∃ v ∈ c'.children m db', u.addr = v.addr := by
  have hmap : ∀ (d : Span) (db : KeyStore Bytes Value),
      d.preimage m db = ((d.children m db).map MerkleNode.addr).flatMap Subtype.val := by
    intro d db
    rw [flatMap_map]
    rfl
  rw [hmap, hmap] at hpre
  have haddr : u.addr ∈ (c'.children m db').map MerkleNode.addr := by
    rw [← flatMap_addr_injective hpre]
    exact mem_map_of_mem hu
  obtain ⟨v, hv, heq⟩ := mem_map.1 haddr
  exact ⟨v, hv, heq.symm⟩

theorem exists_node (h : Repairable Γ m peers) (hx : x ∈ m.leaves (peers b).db.db) (hlo : c.start ≤ x.updateTS.ts.toInt)
    (hhi : x.updateTS.ts.toInt < c.next) : ∃ u, (peers b).db.db.get (c.key m) = some (.node u) := by
  have hfloor := c.mem_bucket_iff.1 ⟨hlo, hhi⟩
  have hnext : c.level.buckets.next x.updateTS.ts.toInt < 2 ^ 63 := by
    rw [← next_floor, hfloor]
    exact c.next_lt
  have hc : c = Span.above c.upper (c.nonneg.trans hlo) hnext := Span.ext rfl hfloor.symm
  rw [hc]
  exact (h.consistent b).exists_above c.upper (mem_leaves.1 hx) (c.nonneg.trans hlo) hnext

theorem addr_eq_of_preimage (h : Repairable Γ m peers) (hget : (peers b).db.db.get (c.key m) = some (.node u)) :
    u.addr = Γ.addr (c.preimage m (peers b).db.db) := (((h.consistent b).node c).node u hget).2

theorem exists_leaf_of_preimage (h : Repairable Γ m peers) (hf : Identifies m peers f) : ∀ level ∈ uppers, ∀ c c' : Span,
    c.level = level → c'.level = level → ∀ b, c.preimage m (peers b).db.db = c'.preimage m (peers !b).db.db →
    ∀ x ∈ m.leaves (peers b).db.db, c.start ≤ x.updateTS.ts.toInt → x.updateTS.ts.toInt < c.next →
      ∃ y ∈ m.leaves (peers !b).db.db, f x = f y := by
  refine upper_induction ?_ ?_
  · intro c c' hc hc' b hpre x hx hlo hhi
    obtain ⟨y, hy, haddr⟩ := exists_child_of_preimage hpre ((mem_children_hr (h.consistent b).toTreeShape hc).2 ⟨hx, hlo, hhi⟩)
    have hy' := ((mem_children_hr (h.consistent !b).toTreeShape hc').1 hy).1
    exact ⟨y, hy', hf.addr b x hx y hy' haddr⟩
  · intro level _ hhr ih c c' hc hc' b hpre x hx hlo hhi
    obtain ⟨d, hd, hdlo, hdhi⟩ := exists_isChild_of_mem (c := c) (hc ▸ hhr) hlo hhi
    obtain ⟨u, hu⟩ := exists_node h hx hdlo hdhi
    obtain ⟨v, hv, haddr⟩ := exists_child_of_preimage hpre (hd.mem_children (h.consistent b).toTreeShape hu)
    obtain ⟨d', hd', hget'⟩ := exists_isChild (h.consistent !b).toTreeShape (hc' ▸ hhr) hv
    rw [addr_eq_of_preimage h hu, addr_eq_of_preimage h hget'] at haddr
    have hlevel : d.level = level.child := hc ▸ hd.level
    have hlevel' : d'.level = level.child := hc' ▸ hd'.level
    exact ih d d' hlevel hlevel' b (h.preimage b d d' (hlevel.trans hlevel'.symm) haddr) x hx hdlo hdhi

theorem progress_of_node (h : Repairable Γ m peers) (hf : Identifies m peers f) (hx : x ∈ m.leaves (peers b).db.db)
    (hfresh : ∀ y ∈ m.leaves (peers !b).db.db, f x ≠ f y) (hlo : c.start ≤ x.updateTS.ts.toInt) (hhi : x.updateTS.ts.toInt < c.next)
    (hget : (peers b).db.db.get (c.key m) = some (.node u))
    (htheir : (∀ v, (peers !b).db.db.get (c.key m) = some (.node v) → ¬ u.KnownBy v) → Asked m peers now l (!b) c)
    (hmy : ∀ v, (peers !b).db.db.get (c.key m) = some (.node v) → ¬ v.KnownBy u → Asked m peers now l b c)
    (hboth : Asked m peers now l b c → Asked m peers now l (!b) c → Progress m peers now l f) : Progress m peers now l f := by
  have hmore : ∀ b, Asked m peers now l b c → (c.children m (peers b).db.db).length < (c.children m (peers !b).db.db).length →
      Progress m peers now l f := progress_of_more h hf c.level c.upper c rfl
  have hcount := (((h.consistent b).node c).node u hget).1
  cases hget' : (peers !b).db.db.get (c.key m) with
  | none =>
    refine hmore (!b) (htheir fun v hv => ?_) ?_
    · rw [hget'] at hv
      cases hv
    · rw [((h.consistent !b).node c).missing.1 hget', Bool.not_not]
      exact length_pos_of_ne_nil (children_ne_nil h hget)
  | some w =>
    obtain ⟨v, rfl, -⟩ : ∃ v, w = .node v ∧ _ := by
      rw [Span.key, marshalKey_eq] at hget'
      exact (h.consistent !b).entry (.tail _ c.upper) hget'
    have hcount' := (((h.consistent !b).node c).node v hget').1
    have hv : ∀ {v'}, (peers !b).db.db.get (c.key m) = some (.node v') → v' = v :=
      fun hv' => Value.node.inj (Option.some.inj (hv'.symm.trans hget'))
    rcases lt_trichotomy u.nChildren.toNat v.nChildren.toNat with hlt | heq | hgt
    · refine hmore b (hmy v hget' fun hknown => absurd hknown.nChildren_le (not_le.2 hlt)) ?_
      rwa [← hcount, ← hcount']
    · have haddr : u.addr ≠ v.addr := by
        intro haddr
        rw [addr_eq_of_preimage h hget, addr_eq_of_preimage h hget'] at haddr
        obtain ⟨y, hy, hxy⟩ := exists_leaf_of_preimage h hf c.level c.upper c c rfl rfl b (h.preimage b c c rfl haddr) x hx hlo hhi
        exact hfresh y hy hxy
      exact hboth (hmy v hget' fun hknown => haddr (hknown.addr_eq heq.symm).symm)
        (htheir fun v' hv' hknown => haddr ((hv hv' ▸ hknown).addr_eq heq))
    · refine hmore (!b) (htheir fun v' hv' hknown => absurd (hv hv' ▸ hknown).nChildren_le (not_le.2 hgt)) ?_
      rwa [Bool.not_not, ← hcount, ← hcount']

theorem progress_of_both (h : Repairable Γ m peers) (hf : Identifies m peers f) : ∀ level ∈ uppers, ∀ c : Span, c.level = level →
    ∀ b, ∀ x ∈ m.leaves (peers b).db.db, (∀ y ∈ m.leaves (peers !b).db.db, f x ≠ f y) → c.start ≤ x.updateTS.ts.toInt →
    x.updateTS.ts.toInt < c.next → Asked m peers now l b c → Asked m peers now l (!b) c → Progress m peers now l f := by
  refine upper_induction ?_ ?_
  · intro c hhr b x hx hfresh hlo hhi _ hasked
    have hmem := (mem_children_hr (h.consistent b).toTreeShape hhr).2 ⟨hx, hlo, hhi⟩
    have hsent := sent_of_leaf (x := x) h hasked hhr (by rwa [Bool.not_not]) fun y hy =>
      not_knownBy_leaf h hf hx ((mem_children_hr (h.consistent !b).toTreeShape hhr).1 hy).1
        (hfresh y ((mem_children_hr (h.consistent !b).toTreeShape hhr).1 hy).1)
    rw [Bool.not_not] at hsent
    exact ⟨b, x, hx, hfresh, hsent⟩
  · intro level _ hhr ih c hc b x hx hfresh hlo hhi hasked hasked'
    obtain ⟨d, hd, hdlo, hdhi⟩ := exists_isChild_of_mem (c := c) (hc ▸ hhr) hlo hhi
    obtain ⟨u, hu⟩ := exists_node h hx hdlo hdhi
    refine progress_of_node h hf hx hfresh hdlo hdhi hu (fun hnew => ?_) (fun v hv hnew => ?_)
      (ih d (hc ▸ hd.level) b x hx hfresh hdlo hdhi)
    · refine asked_of_child h hasked' hd (by rwa [Bool.not_not]) fun y hy hknown => ?_
      exact hnew y (get_of_mem_children (h.consistent !b).toTreeShape hd hy
        (hknown.1.symm.trans ((h.consistent b).span_node hu).2)) hknown
    · refine asked_of_child h hasked hd hv fun y hy hknown => ?_
      have hy' := get_of_mem_children (h.consistent b).toTreeShape hd hy (hknown.1.symm.trans ((h.consistent !b).span_node hv).2)
      rw [Value.node.inj (Option.some.inj (hy'.symm.trans hu))] at hknown
      exact hnew hknown

/-! ## The first lists -/

section lists

variable {t : Timestamp} {db : KeyStore Bytes Value}

def Listed (t : Timestamp) (c : Span) : Prop :=
  (c.level = .year ∧ 0 ≤ c.start ∧ c.next ≤ Timestamp.years.floor t.unixSeconds) ∨
  (c.level = .month ∧ Timestamp.years.floor t.unixSeconds ≤ c.start ∧ c.next ≤ Timestamp.months.floor t.unixSeconds) ∨
  (c.level = .day ∧ Timestamp.months.floor t.unixSeconds ≤ c.start ∧ c.next ≤ Timestamp.days.floor t.ts.toInt) ∨
  (c.level = .hr ∧ Timestamp.days.floor t.ts.toInt ≤ c.start ∧ c.next ≤ Timestamp.hours.floor t.ts.toInt)

theorem toSyncNodes_eq (m : Merkle) (db : KeyStore Bytes Value) (ht : 0 ≤ t.ts.toInt) : (m.getMerkleTreeList db t false).1 =
    m.getMerkleTreeListCore db .year (.ofSec 0) (.ofSec (Timestamp.years.floor t.unixSeconds)) ++
      (m.getMerkleTreeListCore db .month (.ofSec (Timestamp.years.floor t.unixSeconds))
        (.ofSec (Timestamp.months.floor t.unixSeconds)) ++
      (m.getMerkleTreeListCore db .day (.ofSec (Timestamp.months.floor t.unixSeconds)) (.ofSec (Timestamp.days.floor t.ts.toInt)) ++
      m.getMerkleTreeListCore db .hr (.ofSec (Timestamp.days.floor t.ts.toInt)) (.ofSec (Timestamp.hours.floor t.ts.toInt)))) := by
  rw [Merkle.getMerkleTreeList, toDayTimestamp_eq ht, toHRTimestamp_eq ht]
  rfl

theorem mem_toSyncNodes (h : TreeShape m db) (ht : 0 ≤ t.ts.toInt) :
    u ∈ (m.getMerkleTreeList db t false).1 ↔ ∃ c, Listed t c ∧ db.get (c.key m) = some (.node u) := by
  obtain ⟨hY, hM, hD, hH⟩ := CoverAux.boundaries ht
  rw [toSyncNodes_eq m db ht, mem_append, mem_append, mem_append,
    h.mem_list_upper year_mem_uppers ⟨le_rfl, by decide⟩ hY (floor_floor _ _),
    h.mem_list_upper month_mem_uppers hY hM (floor_floor _ _), h.mem_list_upper day_mem_uppers hM hD (floor_floor _ _),
    h.mem_list_upper hr_mem_uppers hD hH (floor_floor _ _)]
  simp only [Listed, or_and_right, exists_or, and_assoc]

theorem exists_span_between {level : MerkleTreeLevel} (hl : level ∈ uppers) {a b x : Int} (h0 : 0 ≤ x) (hfa : level.buckets.floor a = a)
    (hfb : level.buckets.floor b = b) (hb : b < 2 ^ 63) (hlo : a ≤ x) (hhi : x < b) :
    ∃ c : Span, (c.level = level ∧ a ≤ c.start ∧ c.next ≤ b) ∧ c.start ≤ x ∧ x < c.next := by
  have hnext : level.buckets.next x ≤ b := by
    rw [← level.buckets.next_floor]
    exact level.buckets.next_le_of_lt (level.buckets.floor_floor _) hfb ((level.buckets.floor_le _).trans_lt hhi)
  refine ⟨Span.above hl h0 (hnext.trans_lt hb), ⟨rfl, hfa.ge.trans (level.buckets.floor_mono hlo), ?_⟩, level.buckets.floor_le x, ?_⟩
  · exact (level.buckets.next_floor x).trans_le hnext
  · exact (level.buckets.lt_next x).trans_eq (level.buckets.next_floor x).symm

theorem exists_listed (ht : 0 ≤ t.ts.toInt) {x : Int} (h0 : 0 ≤ x) (hx : x < Timestamp.hours.floor t.ts.toInt) :
    ∃ c, Listed t c ∧ c.start ≤ x ∧ x < c.next := by
  obtain ⟨hY, hM, hD, hH⟩ := CoverAux.boundaries ht
  rcases lt_or_ge x (Timestamp.years.floor t.unixSeconds) with hlt | hge
  · obtain ⟨c, hc, hmem⟩ := exists_span_between year_mem_uppers h0 (by decide) (floor_floor _ _) hY.2 h0 hlt
    exact ⟨c, .inl hc, hmem⟩
  rcases lt_or_ge x (Timestamp.months.floor t.unixSeconds) with hlt | hge'
  · obtain ⟨c, hc, hmem⟩ := exists_span_between month_mem_uppers h0 (months_refines_years.floor_of_floor _) (floor_floor _ _)
      hM.2 hge hlt
    exact ⟨c, .inr (.inl hc), hmem⟩
  rcases lt_or_ge x (Timestamp.days.floor t.ts.toInt) with hlt | hge''
  · obtain ⟨c, hc, hmem⟩ := exists_span_between day_mem_uppers h0 (days_refines_months.floor_of_floor _) (floor_floor _ _)
      hD.2 hge' hlt
    exact ⟨c, .inr (.inr (.inl hc)), hmem⟩
  · obtain ⟨c, hc, hmem⟩ := exists_span_between hr_mem_uppers h0 (hours_refines_days.floor_of_floor _) (floor_floor _ _)
      hH.2 hge'' hx
    exact ⟨c, .inr (.inr (.inr hc)), hmem⟩

theorem Listed.isLess (hc : Listed t c) : (Timestamp.ofSec c.start).isLess t = true := by
  have hlt := c.start_lt_next
  have hunix := unixSeconds_bounds t
  suffices hstart : c.start < t.ts.toInt ∨ c.start = t.ts.toInt ∧ 0 < t.nanoTs.toNat by
    rw [Timestamp.isLess_iff, Timestamp.order, Timestamp.order, Prod.Lex.lt_iff]
    simp only [ofLex_toLex, toInt_ofSec c.nonneg c.start_lt]
    exact hstart
  have hcarried : ∀ b, CoverAux.IsDay c.start → CoverAux.IsDay b → b ≤ t.unixSeconds → c.next ≤ b →
      c.start < t.ts.toInt ∨ c.start = t.ts.toInt ∧ 0 < t.nanoTs.toNat := by
    intro b hday hb hle hnext
    have hfloor := le_floor_of_lt hday hb hle (hlt.trans_le hnext)
    have hday' := Timestamp.days.floor_le t.ts.toInt
    have hdiv : (t.nanoTs / Timestamp.billion).toNat = t.nanoTs.toNat / 1000000000 := rfl
    rw [Timestamp.unixSeconds, hdiv] at hle
    omega
  have hisStart := c.isStart
  rcases hc with ⟨hl, -, hnext⟩ | ⟨hl, -, hnext⟩ | ⟨hl, -, hnext⟩ | ⟨hl, -, hnext⟩
  · rw [hl] at hisStart
    exact hcarried _ (hisStart ▸ isDay_floor_years _) (isDay_floor_years _) (floor_le _ _) hnext
  · rw [hl] at hisStart
    exact hcarried _ (hisStart ▸ isDay_floor_months _) (isDay_floor_months _) (floor_le _ _) hnext
  · exact .inl (hlt.trans_le (hnext.trans (floor_le _ _)))
  · exact .inl (hlt.trans_le (hnext.trans (floor_le _ _)))

end lists

/-! ## The beginning -/

section beginning

variable {t t' : Timestamp}

theorem toSyncTime_nonneg {db : LDBDatabase Value} (ht : m.toSyncTime db = .ok t) : 0 ≤ t.ts.toInt := by
  unfold Merkle.toSyncTime at ht
  split at ht
  · cases ht
  · next ts _ =>
    split_ifs at ht with hlt
    · cases ht
      decide
    · cases ht
      rw [Int64.not_lt, Int64.le_iff_toInt_le] at hlt
      have h3 : (offsetMerkleSyncTime * 3).toInt = 10800 := by decide
      have h1 : offsetMerkleSyncTime.toInt = 3600 := by decide
      have hle := ts.ts.toInt_lt
      rw [Int64.toInt_sub, h1, Int.bmod_eq_of_le] <;> omega

theorem get_of_listed {db : KeyStore Bytes Value} (h : TreeShape m db) (ht : 0 ≤ t.ts.toInt)
    (hu : u ∈ (m.getMerkleTreeList db t false).1) (hlevel : u.level = c.level) (hts : u.updateTS = .ofSec c.start) :
    db.get (c.key m) = some (.node u) := by
  obtain ⟨d, -, hget⟩ := (mem_toSyncNodes h ht).1 hu
  obtain ⟨hlevel', hts'⟩ := h.span_node hget
  have hstart := congrArg (fun t : Timestamp => t.ts.toInt) (hts'.symm.trans hts)
  rw [toInt_ofSec d.nonneg d.start_lt, toInt_ofSec c.nonneg c.start_lt] at hstart
  rwa [← Span.ext (hlevel'.symm.trans hlevel) hstart]

theorem handle_syncOplog (h : Repairable Γ m peers) (ht : 0 ≤ t.ts.toInt) (hmy : m.toSyncTime (peers true).db = .ok t')
    (hle : t'.isLess t = false) {diff : List MerkleNode × List MerkleNode}
    (hdiff : mergeDiff diffVerdict (m.getMerkleTreeList (peers true).db.db t false).1
      (m.getMerkleTreeList (peers false).db.db t false).1 = diff) (hne : diff.1 ≠ [] ∨ diff.2 ≠ []) :
    (peers true).handle m now (.syncOplog t (m.getMerkleTreeList (peers false).db.db t false).1) =
      (peers true).syncOplogInvalidByMerkle m diff.2 diff.1 := by
  have htime : (if t.isLess t' then t else t') = t := by
    split_ifs with hlt
    · rfl
    · exact Timestamp.eq_of_not_isLess hle (Bool.not_eq_true _ ▸ hlt)
  have hless : ∀ b, ∀ u ∈ (m.getMerkleTreeList (peers b).db.db t false).1, u.updateTS.isLess t = true := by
    intro b u hu
    obtain ⟨c, hc, hget⟩ := (mem_toSyncNodes (h.consistent b).toTreeShape ht).1 hu
    rw [((h.consistent b).span_node hget).2]
    exact hc.isLess
  rw [SyncPeer.handle, SyncPeer.handleSyncOplog, if_neg (not_not.2 (h.alive true).1), if_neg (not_not.2 (h.alive true).2), hmy]
  dsimp only
  rw [hle, if_neg Bool.false_ne_true, htime, diffMerkleTree_eq (hless true) (hless false), hdiff, if_neg]
  rw [Bool.and_eq_true, List.isEmpty_iff, List.isEmpty_iff, not_and_or]
  exact hne

theorem asked_of_listed (h : Repairable Γ m peers) (ht : 0 ≤ t.ts.toInt) (hmy : m.toSyncTime (peers true).db = .ok t')
    (hle : t'.isLess t = false) (hc : Listed t c) (hget : (peers b).db.db.get (c.key m) = some (.node u))
    (hnew : ∀ v, (peers !b).db.db.get (c.key m) = some (.node v) → ¬ u.KnownBy v) :
    Asked m peers now (syncStart m peers t) (!b) c := by
  have hshape := (h.consistent b).toTreeShape
  obtain ⟨hlevel, hts⟩ := hshape.span_node hget
  have hmem : u ∈ (m.getMerkleTreeList (peers b).db.db t false).1 := (mem_toSyncNodes hshape ht).2 ⟨c, hc, hget⟩
  have hunknown : ∀ v ∈ (m.getMerkleTreeList (peers !b).db.db t false).1, ¬ u.KnownBy v := fun v hv hknown =>
    hnew v (get_of_listed (h.consistent !b).toTreeShape ht hv (hknown.2.1.symm.trans hlevel) (hknown.1.symm.trans hts)) hknown
  have hstart : Derived (syncReply m peers now) (syncStart m peers t)
      (true, .syncOplog t (m.getMerkleTreeList (peers false).db.db t false).1) := .start mem_cons_self
  generalize hdiff : mergeDiff diffVerdict (m.getMerkleTreeList (peers true).db.db t false).1
    (m.getMerkleTreeList (peers false).db.db t false).1 = diff
  have hspan : ∀ v ∈ diff.1, ∃ d : Span, v.level = d.level ∧ v.updateTS = .ofSec d.start := by
    intro v hv
    obtain ⟨d, -, hd⟩ := (mem_toSyncNodes (h.consistent false).toTreeShape ht).1 ((mergeDiff_subset _ _).1 (hdiff ▸ hv))
    exact ⟨d, (h.consistent false).span_node hd⟩
  obtain ⟨hask, htell⟩ := syncOplogInvalidByMerkle_span (h.consistent true) (h.readable true) diff.2 hspan
  cases b with
  | false =>
    have hfst : u ∈ diff.1 := hdiff ▸ mem_diff_fst hmem hunknown
    refine reply_of_sent (b := true) _ hstart ?_
    rw [handle_syncOplog h ht hmy hle hdiff (Or.inl (ne_nil_of_mem hfst))]
    exact hask u hfst c hlevel hts
  | true =>
    have hsnd : u ∈ diff.2 := hdiff ▸ mem_diff_snd hmem hunknown
    have htold := reply_of_sent (.forceSyncOplogByMerkleAck diff.2) hstart (by
      rw [handle_syncOplog h ht hmy hle hdiff (Or.inr (ne_nil_of_mem hsnd))]
      exact htell (ne_nil_of_mem hsnd))
    exact asked_of_told h htold hsnd hlevel hts

theorem progress_of_leaf (h : Repairable Γ m peers) (hf : Identifies m peers f) (ht : 0 ≤ t.ts.toInt)
    (hmy : m.toSyncTime (peers true).db = .ok t') (hle : t'.isLess t = false) (hx : x ∈ m.leaves (peers b).db.db)
    (hfresh : ∀ y ∈ m.leaves (peers !b).db.db, f x ≠ f y) (h0 : 0 ≤ x.updateTS.ts.toInt)
    (hlt : x.updateTS.ts.toInt < Timestamp.hours.floor t.ts.toInt) : Progress m peers now (syncStart m peers t) f := by
  obtain ⟨c, hc, hlo, hhi⟩ := exists_listed ht h0 hlt
  obtain ⟨u, hu⟩ := exists_node h hx hlo hhi
  refine progress_of_node h hf hx hfresh hlo hhi hu (asked_of_listed h ht hmy hle hc hu) (fun v hv hnew => ?_)
    (progress_of_both h hf c.level c.upper c rfl b x hx hfresh hlo hhi)
  rw [← Bool.not_not b]
  refine asked_of_listed h ht hmy hle hc hv fun w hw hknown => ?_
  rw [Bool.not_not] at hw
  rw [Value.node.inj (Option.some.inj (hw.symm.trans hu))] at hknown
  exact hnew hknown

end beginning

/-! ## The keys of oplogs -/

theorem identifies_key (h : Repairable Γ m peers) : Identifies m peers MerkleNode.key where
  inj b x hx y hy hkey := by
    obtain ⟨r, hget⟩ := mem_leaves.1 hx
    obtain ⟨r', hget'⟩ := mem_leaves.1 hy
    rw [← ((h.consistent b).leaf r x hget).rest_eq ((h.consistent b).leaf r' y hget') hkey, hget] at hget'
    exact Value.node.inj (Option.some.inj hget')
  time b x hx y hy hkey := by
    obtain ⟨r, hleaf⟩ := leaf_of_mem (h.consistent b).toTreeShape hx
    obtain ⟨r', hleaf'⟩ := leaf_of_mem (h.consistent !b).toTreeShape hy
    exact hleaf.updateTS_eq hleaf' hkey
  addr := h.leaf

theorem identifies_node (h : Repairable Γ m peers) : Identifies m peers id where
  inj b x _ y _ heq := heq
  time b x _ y _ heq := congrArg MerkleNode.updateTS heq
  addr b x hx y hy haddr := by
    have hkey := h.leaf b x hx y hy haddr
    obtain ⟨r, hleaf⟩ := leaf_of_mem (h.consistent b).toTreeShape hx
    obtain ⟨r', hleaf'⟩ := leaf_of_mem (h.consistent !b).toTreeShape hy
    have hts := hleaf.updateTS_eq hleaf' hkey
    have hlevel := hleaf.level.trans hleaf'.level.symm
    have hn := hleaf.nChildren.trans hleaf'.nChildren.symm
    obtain ⟨level, addr, updateTS, nChildren, key⟩ := x
    obtain ⟨level', addr', updateTS', nChildren', key'⟩ := y
    exact MerkleNode.mk.injEq .. ▸ ⟨hlevel, haddr, hts, hn, hkey⟩

end RepairAux

/-! ## The end of the exchange -/

namespace RepairAux

variable {m : Merkle} {peers : Bool → SyncPeer} {now : Timestamp}

def Descends : SyncMsg → Prop
  | .syncOplog _ nodes | .forceSyncOplogByMerkleAck nodes => ∀ u ∈ nodes, u.level ∈ uppers
  | .forceSyncOplogByMerkle _ level _ => level ∈ uppers
  | .forceSyncOplogByOplogAck _ | .syncOplogAck _ | .syncOplogNewOplogs _ _ _ => True

def rank : SyncMsg → Nat
  | .syncOplog _ _ => 20
  | .forceSyncOplogByMerkle _ level _ => 2 * level.toUInt8.toNat
  | .forceSyncOplogByMerkleAck nodes => 2 * nodes.foldr (fun u n => max u.level.toUInt8.toNat n) 0 + 1
  | .syncOplogAck _ => 1
  | .forceSyncOplogByOplogAck _ | .syncOplogNewOplogs _ _ _ => 0

theorem toNat_bounds {level : MerkleTreeLevel} (hl : level ∈ uppers) : level.toUInt8.toNat ≤ 5 ∧ 1 ≤ level.toUInt8.toNat := by
  revert hl
  cases level <;> decide

theorem child_lt {level : MerkleTreeLevel} (hl : level ∈ uppers) : level.child.toUInt8.toNat < level.toUInt8.toNat := by
  revert hl
  cases level <;> decide

theorem sent_forceSyncOplogByMerkle {p : SyncPeer} {u : MerkleNode} {msg : SyncMsg} (h : msg ∈ (p.forceSyncOplogByMerkle m u).sent) :
    msg = .forceSyncOplogByMerkle u.updateTS u.level (m.getChildNodes p.db.db u.level u.updateTS) := by
  unfold SyncPeer.forceSyncOplogByMerkle at h
  dsimp only at h
  split at h <;> split_ifs at h <;> first | exact mem_singleton.1 h | cases h

theorem sent_syncOplogInvalidByMerkle {p : SyncPeer} {theirNewNodes myNewNodes : List MerkleNode} {msg : SyncMsg}
    (h : msg ∈ (p.syncOplogInvalidByMerkle m theirNewNodes myNewNodes).sent) :
    msg = .forceSyncOplogByMerkleAck theirNewNodes ∨ ∃ u ∈ myNewNodes, msg ∈ (p.forceSyncOplogByMerkle m u).sent := by
  induction myNewNodes with
  | nil =>
    rw [SyncPeer.syncOplogInvalidByMerkle] at h
    split_ifs at h
    · cases h
    · exact .inl (mem_singleton.1 h)
  | cons u l ih =>
    rw [SyncPeer.syncOplogInvalidByMerkle, SyncOutcome.andThen] at h
    split at h
    · exact .inr ⟨u, (.head _), h⟩
    · rcases mem_append.1 h with h | h
      · exact .inr ⟨u, (.head _), h⟩
      · refine (ih h).imp_right ?_
        rintro ⟨v, hv, hmsg⟩
        exact ⟨v, mem_cons_of_mem u hv, hmsg⟩

theorem level_of_mem_list {db : KeyStore Bytes Value} (h : TreeShape m db) {level : MerkleTreeLevel} (hl : level ∈ MerkleTreeLevel.now :: uppers)
    {t t' : Timestamp} {u : MerkleNode} (hu : u ∈ m.getMerkleTreeListCore db level t t') : u.level = level := by
  rw [getMerkleTreeListCore_eq, mem_filter, h.mem_nodesBetween hl] at hu
  obtain ⟨⟨⟨r, hget⟩, -⟩, -⟩ := hu
  obtain ⟨n, hn, hlevel, -⟩ := h.entry hl hget
  cases hn
  exact hlevel

theorem level_of_mem_toSyncNodes {db : KeyStore Bytes Value} (h : TreeShape m db) {t : Timestamp} {u : MerkleNode}
    (hu : u ∈ (m.getMerkleTreeList db t false).1) : u.level ∈ uppers := by
  have hlevel : ∀ {level}, level ∈ uppers → ∀ {t t'}, u ∈ m.getMerkleTreeListCore db level t t' → u.level ∈ uppers := by
    intro level hl t t' hu
    rw [level_of_mem_list h (mem_cons_of_mem _ hl) hu]
    exact hl
  simp only [Merkle.getMerkleTreeList, mem_append] at hu
  rcases hu with hu | hu | hu | hu
  · exact hlevel year_mem_uppers hu
  · exact hlevel month_mem_uppers hu
  · exact hlevel day_mem_uppers hu
  · exact hlevel hr_mem_uppers hu

theorem diffMerkleTree_subset (myNodes theirNodes : List MerkleNode) (ts : Timestamp) :
    (diffMerkleTree myNodes theirNodes ts).1 ⊆ theirNodes ∧ (diffMerkleTree myNodes theirNodes ts).2 ⊆ myNodes := by
  unfold diffMerkleTree
  split_ifs
  · exact mergeDiff_subset _ _
  · have htrim : ∀ nodes, validateMerkleTreeTrimNodes nodes ts ⊆ nodes := fun nodes => take_subset _ _
    exact ⟨List.Subset.trans (mergeDiff_subset _ _).1 (htrim _), List.Subset.trans (mergeDiff_subset _ _).2 (htrim _)⟩

theorem rank_ack {nodes : List MerkleNode} {n : Nat} (h : ∀ u ∈ nodes, u.level.toUInt8.toNat < n) (hn : 0 < n) :
    rank (.forceSyncOplogByMerkleAck nodes) < 2 * n := by
  have hle := foldr_max_le (fun u : MerkleNode => u.level.toUInt8.toNat) (n := n - 1) fun u hu => Nat.le_sub_one_of_lt (h u hu)
  rw [rank]
  omega

theorem sent_handleSyncOplog {p : SyncPeer} {t : Timestamp} {nodes : List MerkleNode} {msg : SyncMsg}
    (h : msg ∈ (p.handleSyncOplog m t nodes now).sent) : (∃ ack, msg = .syncOplogAck ack) ∨
      (∃ u ∈ nodes, msg ∈ (p.forceSyncOplogByMerkle m u).sent) ∨
      ∃ t' theirNew, msg = .forceSyncOplogByMerkleAck theirNew ∧ theirNew ⊆ (m.getMerkleTreeList p.db.db t' false).1 := by
  unfold SyncPeer.handleSyncOplog at h
  split_ifs at h
  · cases h
  · cases h
  · split at h
    · cases h
    · next myToSyncTime _ =>
      dsimp only at h
      generalize (if t.isLess myToSyncTime then t else myToSyncTime) = toSyncTime at h
      split_ifs at h
      · cases h
      · obtain ⟨ack, -, rfl⟩ := mem_map.1 h
        exact .inl ⟨ack, rfl⟩
      · rcases sent_syncOplogInvalidByMerkle h with rfl | ⟨u, hu, hsent⟩
        · exact .inr (.inr ⟨_, _, rfl, (diffMerkleTree_subset _ _ _).2⟩)
        · exact .inr (.inl ⟨u, (diffMerkleTree_subset _ _ _).1 hu, hsent⟩)

theorem sent_handleForceSyncOplogByMerkle {p : SyncPeer} {t : Timestamp} {level : MerkleTreeLevel} {nodes : List MerkleNode}
    {msg : SyncMsg} (h : msg ∈ (p.handleForceSyncOplogByMerkle m t level nodes).sent) :
    (∃ oplogs, msg = .forceSyncOplogByOplogAck oplogs) ∨
      ∃ theirNew, msg = .forceSyncOplogByMerkleAck theirNew ∧ level ≠ .hr ∧ theirNew ⊆ m.getChildNodes p.db.db level t := by
  unfold SyncPeer.handleForceSyncOplogByMerkle at h
  dsimp only at h
  split_ifs at h with h1 h2 h3 h4
  · cases h
  · cases h
  · cases h
  · unfold SyncPeer.forceSyncOplogByOplogAck at h
    dsimp only at h
    split_ifs at h
    · cases h
    · exact .inl ⟨_, mem_singleton.1 h⟩
  · exact .inr ⟨_, mem_singleton.1 h, h4, (diffMerkleTree_subset _ _ _).2⟩

theorem rank_lt (h : ∀ b, TreeShape m (peers b).db.db) {b : Bool} {msg : SyncMsg} (hgood : Descends msg) {y : Bool × SyncMsg}
    (hy : y ∈ syncReply m peers now (b, msg)) : Descends y.2 ∧ rank y.2 < rank msg := by
  obtain ⟨msg', hmsg', rfl⟩ := mem_map.1 hy
  have hask : ∀ {u : MerkleNode}, u.level ∈ uppers → msg' ∈ ((peers b).forceSyncOplogByMerkle m u).sent →
      Descends msg' ∧ rank msg' = 2 * u.level.toUInt8.toNat := by
    intro u hu hsent
    rw [sent_forceSyncOplogByMerkle hsent]
    exact ⟨hu, rfl⟩
  cases msg with
  | syncOplog t nodes =>
    rcases sent_handleSyncOplog hmsg' with ⟨ack, rfl⟩ | ⟨u, hu, hsent⟩ | ⟨t', theirNew, rfl, hsub⟩
    · rw [rank, rank]
      exact ⟨trivial, by decide⟩
    · obtain ⟨hdesc, hrank⟩ := hask (hgood u hu) hsent
      have hbounds := toNat_bounds (hgood u hu)
      rw [hrank, rank]
      exact ⟨hdesc, by omega⟩
    · have hlevel : ∀ u ∈ theirNew, u.level ∈ uppers := fun u hu => level_of_mem_toSyncNodes (h b) (hsub hu)
      refine ⟨hlevel, (rank_ack (n := 6) (fun u hu => ?_) (by decide)).trans (by rw [rank]; decide)⟩
      exact Nat.lt_succ_of_le (toNat_bounds (hlevel u hu)).1
  | forceSyncOplogByMerkle t level nodes =>
    have hbounds := toNat_bounds hgood
    rcases sent_handleForceSyncOplogByMerkle hmsg' with ⟨oplogs, rfl⟩ | ⟨theirNew, rfl, hhr, hsub⟩
    · rw [rank, rank]
      exact ⟨trivial, by omega⟩
    · have hchild := child_mem_uppers hgood hhr
      have hlevel : ∀ u ∈ theirNew, u.level = level.child :=
        fun u hu => level_of_mem_list (h b) (.tail _ hchild) (hsub hu)
      refine ⟨fun u hu => (hlevel u hu).symm ▸ hchild, rank_ack (fun u hu => ?_) (by omega)⟩
      rw [hlevel u hu]
      exact child_lt hgood
  | forceSyncOplogByMerkleAck nodes =>
    rw [SyncPeer.handle, SyncPeer.handleForceSyncOplogByMerkleAck] at hmsg'
    split_ifs at hmsg'
    · cases hmsg'
    · cases hmsg'
    · obtain ⟨u, hu, hsent⟩ := mem_flatMap.1 hmsg'
      obtain ⟨hdesc, hrank⟩ := hask (hgood u hu) hsent
      have hle := le_foldr_max (fun u : MerkleNode => u.level.toUInt8.toNat) hu
      rw [hrank, rank]
      exact ⟨hdesc, by omega⟩
  | syncOplogAck ack =>
    rw [SyncPeer.handle, SyncPeer.handleSyncOplogAck] at hmsg'
    unfold SyncPeer.syncOplogNewOplogs at hmsg'
    dsimp only at hmsg'
    split_ifs at hmsg'
    · cases hmsg'
    · cases hmsg'
    · cases hmsg'
    · rw [mem_singleton.1 hmsg']
      exact ⟨trivial, Nat.zero_lt_one⟩
  | forceSyncOplogByOplogAck oplogs => cases hmsg'
  | syncOplogNewOplogs ts oplogs keys => cases hmsg'

end RepairAux

def Differ {κ : Type} (m : Merkle) (peers : Bool → SyncPeer) (t : Timestamp) (f : MerkleNode → κ) : Prop :=
  ∃ b, ∃ x ∈ m.leaves (peers b).db.db, (0 ≤ x.updateTS.ts.toInt ∧ x.updateTS.ts.toInt < Timestamp.hours.floor t.ts.toInt) ∧
    ∀ y ∈ m.leaves (peers !b).db.db, f x ≠ f y

def SentNew {κ : Type} (m : Merkle) (peers : Bool → SyncPeer) (f : MerkleNode → κ) (sent : List (Bool × SyncMsg)) : Prop :=
  ∃ b, ∃ x ∈ m.leaves (peers b).db.db, (∀ y ∈ m.leaves (peers !b).db.db, f x ≠ f y) ∧
    ∃ msg, (!b, msg) ∈ sent ∧ (peers b).SendsKey x.key msg

open RepairAux in
theorem exchange_ends {m : Merkle} {peers : Bool → SyncPeer} (h : ∀ b, TreeShape m (peers b).db.db) (t now : Timestamp) :
    ∃ as s, Run (Deliver (syncReply m peers now)) (start (syncStart m peers t)) as s ∧ s.pending = [] := by
  refine exists_run (fun x => Descends x.2) (fun x => rank x.2) (fun x hx y hy => rank_lt h hx hy) fun x hx => ?_
  rw [mem_singleton.1 hx]
  exact fun u hu => level_of_mem_toSyncNodes (h false) hu

namespace RepairWitness

open SigningWitness JournalWitness CoverWitness

def peerWith (db : KeyStore Bytes Value) (sec : Int64) : SyncPeer :=
  ⟨.alive, .alive, .zero, .ofDB (db.put merkle.marshalSyncTimeKey (.dbable ⟨sec, 0⟩)), false, none⟩

def peersAt (sec theirSec mySec : Int64) (b : Bool) : SyncPeer :=
  if b then peerWith .empty mySec else peerWith ((treeAt sec).put (leafAt sec).key (.oplog SigningWitness.start.oplog)) theirSec

theorem not_prefix_of_part {part : Part} {r : Bytes} (hne : part ≠ .merkle) : ¬ merkle.dbPrefix <+: merkle.partPrefix part ++ r := by
  rintro ⟨s, hs⟩
  have hpart : InPart .merkle (merkle.partPrefix part ++ r) := by
    rw [← hs, Merkle.dbPrefix, append_assoc]
    exact inPart_partPrefix_append.2 rfl
  exact hne (inPart_partPrefix_append.1 hpart)

theorem ne_partPrefix {part : Part} {r k : Bytes} (hne : part ≠ .merkle) (hk : merkle.dbPrefix <+: k) : k ≠ merkle.partPrefix part ++ r := by
  rintro rfl
  exact not_prefix_of_part hne hk

theorem get_peerWith {db : KeyStore Bytes Value} {sec : Int64} {k : Bytes} (hk : merkle.dbPrefix <+: k) :
    (peerWith db sec).db.db.get k = db.get k := by
  rw [peerWith, LDBDatabase.ofDB, get_put]
  exact if_neg (ne_partPrefix (by decide) hk)

variable {sec theirSec mySec : Int64}

theorem get_false {k : Bytes} (hk : merkle.dbPrefix <+: k) : (peersAt sec theirSec mySec false).db.db.get k = (treeAt sec).get k := by
  refine (get_peerWith hk).trans ?_
  rw [get_put]
  exact if_neg (ne_partPrefix (by decide) hk)

theorem get_true {k : Bytes} (hk : merkle.dbPrefix <+: k) :
    (peersAt sec theirSec mySec true).db.db.get k = (KeyStore.empty : KeyStore Bytes Value).get k := get_peerWith hk

theorem mem_leaves_false {n : MerkleNode} : n ∈ merkle.leaves (peersAt sec theirSec mySec false).db.db ↔ n = leafAt sec := by
  rw [leaves_congr fun _ => get_false, mem_leaves_treeAt]

theorem leaves_true : merkle.leaves (peersAt sec theirSec mySec true).db.db = [] := by
  rw [leaves_congr fun _ => get_true]
  rfl

theorem preimage_true (c : Span) : c.preimage merkle (peersAt sec theirSec mySec true).db.db = [] := by
  rw [Span.preimage, children_congr fun _ => get_true]
  rfl

theorem soloAddr_ne {level : MerkleTreeLevel} (hl : level ∈ uppers) : soloAddr ctx (leafAt sec) level ≠ ctx.addr [] := by
  have hne : ∀ level ∈ uppers, soloAddr ctx (leafAt 0) level ≠ ctx.addr [] := by decide +kernel
  have heq : soloAddr ctx (leafAt sec) level = soloAddr ctx (leafAt 0) level := by cases level <;> rfl
  rw [heq]
  exact hne level hl

theorem preimage_false (h : 0 ≤ sec.toInt) (c : Span)
    (haddr : ctx.addr (c.preimage merkle (peersAt sec theirSec mySec false).db.db) = ctx.addr []) :
    c.preimage merkle (peersAt sec theirSec mySec false).db.db = [] := by
  rw [Span.preimage, children_congr fun _ => get_false, treeAt,
    SoloAux.children_soloTree (n := leafAt sec) h (isLeaf_leafNode _ _ _ _)] at haddr ⊢
  split_ifs at haddr ⊢
  · rw [flatMap_singleton, ← SoloAux.addr_child] at haddr
    exact absurd haddr (soloAddr_ne c.upper)
  · rfl

theorem repairable_peersAt (h : 0 ≤ sec.toInt) : Repairable ctx merkle (peersAt sec theirSec mySec) where
  alive b := by cases b <;> exact ⟨rfl, rfl⟩
  consistent b := by
    cases b with
    | false => exact (consistent_treeAt h).congr fun _ => get_false
    | true => exact (consistent_empty _ _).congr fun _ => get_true
  readable b n hn := by
    cases b with
    | false =>
      rw [mem_leaves_false.1 hn]
      rfl
    | true =>
      rw [leaves_true] at hn
      cases hn
  stored b n hn := by
    cases b with
    | false =>
      refine ⟨SigningWitness.start.oplog.reload, ?_⟩
      have hne : (leafAt sec).key ≠ merkle.marshalSyncTimeKey := by
        intro heq
        have hpart : InPart .oplog merkle.marshalSyncTimeKey := heq ▸ inPart_partPrefix_append.2 rfl
        exact absurd (inPart_partPrefix_append.1 hpart) (by decide)
      have hget : (peersAt sec theirSec mySec false).db.db.get (leafAt sec).key = some (.oplog SigningWitness.start.oplog) := by
        rw [peersAt, if_neg Bool.false_ne_true, peerWith, LDBDatabase.ofDB, get_put, if_neg hne, get_put, if_pos rfl]
      rw [mem_leaves_false.1 hn, BaseOplog.load, LDBDatabase.get, hget]
      rfl
    | true =>
      rw [leaves_true] at hn
      cases hn
  preimage b c c' _ haddr := by
    cases b with
    | false =>
      rw [Bool.not_false, preimage_true] at haddr ⊢
      exact preimage_false h c haddr
    | true =>
      rw [Bool.not_true, preimage_true] at haddr ⊢
      exact (preimage_false h c' haddr.symm).symm
  leaf b x hx y hy _ := by
    cases b with
    | false =>
      rw [Bool.not_false, leaves_true] at hy
      cases hy
    | true =>
      rw [leaves_true] at hx
      cases hx

end RepairWitness

end PttaiCore
