import PttaiCore.Lemmas.Friends
import PttaiCore.Lib.Trace

/-! # The list of friends by their last message -/

namespace PttaiCore

open Timestamp

namespace Friend

def InRange (start : Timestamp) (o : ListOrder) (ts : Timestamp) : Prop :=
  start = .zero ∨ match o with
    | .next => ts.isLess start = false
    | .prev => start.isLess ts = false

def Service.Fresh (s : Service) : Prop :=
  (∀ key, dbMessageCreateTSPrefix <+: key ∨ dbMessageCreateTSIdxPrefix <+: key ∨ dbMessageCreateTS2Prefix <+: key →
    s.dbFriend.db.get key = none) ∧ s.dbFriend.lockMap = KeyStore.empty

structure Run where
  service : Service
  greatest : KeyStore PttID Timestamp

inductive Call where
  | save (id : PttID) (ts : { ts : Timestamp // 0 ≤ ts.ts.toInt })
  | unregister (id : PttID)

namespace Run

def step (r : Run) : Call → Run
  | .save id ts =>
    { service := (r.service.saveMessageCreateTS id ts.1).2, greatest := r.greatest.put id (later (r.greatest.get id) ts.1) }
  | .unregister id => { r with service := r.service.unregisterEntity id }

section defs

variable (r : Run)

def Ordered (o : ListOrder) (id id' : PttID) : Prop := ∀ ts ts', r.greatest.get id = some ts → r.greatest.get id' = some ts' →
  match o with
  | .next => ts'.isLess ts = false
  | .prev => ts.isLess ts' = false

def ListRight (start : Timestamp) (limit : Int) (o : ListOrder) : Prop := ∃ friends : List PttID,
  r.service.getFriendListByMsgCreateTS start limit o = .ok (if 0 < limit then friends.take limit.toNat else friends) ∧ friends.Nodup ∧
  (∀ id, id ∈ friends ↔ r.service.entities.get id ≠ none ∧ ∃ ts, r.greatest.get id = some ts ∧ InRange start o ts) ∧
  friends.Pairwise (r.Ordered o)

def Right (start : Timestamp) : Prop :=
  (∀ id ts, r.greatest.get id = some ts → r.service.messageCreateTS id = ts) ∧ ∀ limit o, r.ListRight start limit o

def Fits (start : Timestamp) : Call → Prop
  | .save id ts => r.service.entities.get id ≠ none ∧ (∀ old, r.greatest.get id = some old → ts.1.isLess old = false) ∧ 0 ≤ start.ts.toInt
  | .unregister id => r.greatest.get id = none

def ofService (s : Service) : Run := ⟨s, KeyStore.empty⟩

structure Sound (r : Run) : Prop where
  stored : Stored r.service.dbFriend.db r.greatest
  free : r.service.dbFriend.lockMap = KeyStore.empty

structure Complete (r : Run) (start : Timestamp) : Prop where
  record (id : PttID) (ts : Timestamp) : r.greatest.get id = some ts → r.service.messageCreateTS id = ts
  registered (id : PttID) : r.greatest.get id ≠ none → r.service.entities.get id ≠ none
  nonneg (id : PttID) : r.greatest.get id ≠ none → 0 ≤ start.ts.toInt

end defs

variable {r : Run} {start : Timestamp}

/-! ## The list of a sound run -/

theorem visited_iff (h0 : 0 ≤ start.ts.toInt) {ts : Timestamp} (hts : 0 ≤ ts.ts.toInt) (o : ListOrder) :
    Visited start o ts ↔ InRange start o ts := by
  refine or_congr_right ?_
  cases o with
  | next => simp only [keyOrder_le_iff h0 hts, isLess_eq_false_iff]
  | prev => simp only [keyOrder_le_iff hts h0, isLess_eq_false_iff]

theorem listRight_of_complete (hsound : r.Sound) (h : r.Complete start) (limit : Int) (o : ListOrder) : r.ListRight start limit o := by
  obtain ⟨es, hiter, hsorted, hmem⟩ := hsound.stored.mem_iter start o
  refine ⟨es.map fun e => msgCreateTSKeyToEntityID e.1, ?_, ?_, ?_, ?_⟩
  · have hreg : ∀ e ∈ es, r.service.entities.get (msgCreateTSKeyToEntityID e.1) ≠ none := by
      intro e he
      obtain ⟨id, ts, hget, rfl, -⟩ := (hmem e).1 he
      rw [toEntityID_marshalMessageCreateTSKey2]
      exact h.registered id (by simp [hget])
    rw [Service.getFriendListByMsgCreateTS, hiter]
    have := collect_of_registered hreg limit 0
    simpa using this
  · -- two entries of one friend would have the same key
    refine List.pairwise_map.2 (hsorted.imp_of_mem fun {a b} ha hb hlt heq => ?_)
    obtain ⟨id, ts, hget, rfl, -⟩ := (hmem a).1 ha
    obtain ⟨id', ts', hget', rfl, -⟩ := (hmem b).1 hb
    rw [toEntityID_marshalMessageCreateTSKey2, toEntityID_marshalMessageCreateTSKey2] at heq
    subst heq
    rw [hget] at hget'
    cases hget'
    cases o <;> exact lt_irrefl _ hlt
  · intro id
    rw [List.mem_map]
    constructor
    · rintro ⟨e, he, rfl⟩
      obtain ⟨id, ts, hget, rfl, hv⟩ := (hmem e).1 he
      rw [toEntityID_marshalMessageCreateTSKey2]
      have hne : r.greatest.get id ≠ none := by simp [hget]
      exact ⟨h.registered id hne, ts, hget, (visited_iff (h.nonneg id hne) (hsound.stored.nonneg id ts hget) o).1 hv⟩
    · rintro ⟨-, ts, hget, hrange⟩
      have hne : r.greatest.get id ≠ none := by simp [hget]
      have hv := (visited_iff (h.nonneg id hne) (hsound.stored.nonneg id ts hget) o).2 hrange
      exact ⟨_, (hmem _).2 ⟨id, ts, hget, rfl, hv⟩, toEntityID_marshalMessageCreateTSKey2⟩
  · refine List.pairwise_map.2 (hsorted.imp_of_mem fun {a b} ha hb hlt => ?_)
    obtain ⟨id, t, hget, rfl, -⟩ := (hmem a).1 ha
    obtain ⟨id', t', hget', rfl, -⟩ := (hmem b).1 hb
    rw [toEntityID_marshalMessageCreateTSKey2, toEntityID_marshalMessageCreateTSKey2]
    intro ts ts' hts hts'
    rw [hget] at hts
    rw [hget'] at hts'
    cases hts
    cases hts'
    have ht := hsound.stored.nonneg id t hget
    have ht' := hsound.stored.nonneg id' t' hget'
    cases o with
    | next => exact (isLess_eq_false_iff _ _).2 ((keyOrder_le_iff ht ht').1 (keyOrder_le_of_lt hlt))
    | prev => exact (isLess_eq_false_iff _ _).2 ((keyOrder_le_iff ht' ht).1 (keyOrder_le_of_lt hlt))

theorem registered_of_right (hsound : r.Sound) (h : r.Right start) {id : PttID} {ts : Timestamp} (hget : r.greatest.get id = some ts) :
    r.service.entities.get id ≠ none := by
  intro hnone
  -- one of the two orders visits the friend
  obtain ⟨o, hv⟩ : ∃ o, Visited start o ts := by
    rcases le_total start.keyOrder ts.keyOrder with hle | hle
    · exact ⟨.next, .inr hle⟩
    · exact ⟨.prev, .inr hle⟩
  obtain ⟨es, hiter, -, hmem⟩ := hsound.stored.mem_iter start o
  obtain ⟨friends, hok, -⟩ := h.2 0 o
  have hunregistered : ∃ e ∈ es, r.service.entities.get (msgCreateTSKeyToEntityID e.1) = none :=
    ⟨_, (hmem _).2 ⟨id, ts, hget, rfl, hv⟩, by rw [toEntityID_marshalMessageCreateTSKey2, hnone]⟩
  rw [Service.getFriendListByMsgCreateTS, hiter] at hok
  dsimp only at hok
  rw [collect_panic le_rfl hunregistered] at hok
  cases hok

theorem nonneg_of_right (hsound : r.Sound) (h : r.Right start) {id : PttID} {ts : Timestamp} (hget : r.greatest.get id = some ts) :
    0 ≤ start.ts.toInt := by
  by_contra hneg
  rw [not_le] at hneg
  have hne : start ≠ .zero := by
    rintro rfl
    exact absurd hneg (by decide)
  obtain ⟨es, hiter, -, hmem⟩ := hsound.stored.mem_iter start .next
  have hnil : es = [] := by
    refine List.eq_nil_iff_forall_not_mem.2 fun e he => ?_
    obtain ⟨id', ts', hget', -, hzero | hle⟩ := (hmem e).1 he
    · exact hne hzero
    · exact absurd hle (not_le.2 (keyOrder_lt_of_neg (hsound.stored.nonneg id' ts' hget') hneg))
  obtain ⟨friends, hok, -, hfriends, -⟩ := h.2 0 .next
  have hless : ts.isLess start = false := by
    have hts := hsound.stored.nonneg id ts hget
    rw [isLess_eq_false_iff, Timestamp.order, Timestamp.order, Prod.Lex.toLex_le_toLex]
    exact .inl (lt_of_lt_of_le hneg hts)
  have hin : id ∈ friends := (hfriends id).2 ⟨registered_of_right hsound h hget, ts, hget, .inr hless⟩
  rw [Service.getFriendListByMsgCreateTS, hiter, hnil] at hok
  have hempty : friends = [] := by simpa [Service.collect] using hok.symm
  rw [hempty] at hin
  cases hin

theorem right_iff_complete (hsound : r.Sound) (start : Timestamp) : r.Right start ↔ r.Complete start := by
  constructor
  · intro h
    refine ⟨h.1, fun id hne => ?_, fun id hne => ?_⟩
    · obtain ⟨ts, hget⟩ := Option.ne_none_iff_exists'.1 hne
      exact registered_of_right hsound h hget
    · obtain ⟨ts, hget⟩ := Option.ne_none_iff_exists'.1 hne
      exact nonneg_of_right hsound h hget
  · exact fun h => ⟨h.record, listRight_of_complete hsound h⟩

/-! ## One call -/

theorem Sound.step (h : r.Sound) (c : Call) : (r.step c).Sound := by
  cases c with
  | save id ts =>
    refine ⟨h.stored.save h.free ts.2, ?_⟩
    simp only [Run.step, h.stored.saveMessageCreateTS_eq h.free]
    exact h.free
  | unregister id => exact ⟨h.stored, h.free⟩

theorem complete_save_iff (hsound : r.Sound) (h : r.Complete start) (id : PttID) (ts : { ts : Timestamp // 0 ≤ ts.ts.toInt }) :
    (r.step (.save id ts)).Complete start ↔ r.Fits start (.save id ts) := by
  have hget (id' : PttID) : (r.step (.save id ts)).greatest.get id' =
      if id' = id then some (later (r.greatest.get id) ts.1) else r.greatest.get id' := by simp [step]
  have hrecord : (r.step (.save id ts)).service.messageCreateTS = Function.update r.service.messageCreateTS id ts.1 := by
    simp only [step, hsound.stored.saveMessageCreateTS_eq hsound.free]
  have hentities : (r.step (.save id ts)).service.entities = r.service.entities := by
    simp only [step, hsound.stored.saveMessageCreateTS_eq hsound.free]
  constructor
  · intro h'
    have hself : (r.step (.save id ts)).greatest.get id ≠ none := by simp [hget]
    refine ⟨hentities ▸ h'.registered id hself, fun old hold => ?_, h'.nonneg id hself⟩
    have hts := h'.record id (later (r.greatest.get id) ts.1) (by rw [hget, if_pos rfl])
    rw [hrecord, Function.update_self, hold] at hts
    by_contra hless
    exact later_of_isLess (Bool.not_eq_false _ ▸ hless) hts.symm
  · rintro ⟨hreg, hlater, hnonneg⟩
    refine ⟨fun id' ts' hget' => ?_, fun id' hne => ?_, fun _ _ => hnonneg⟩
    · rw [hget] at hget'
      rw [hrecord]
      split_ifs at hget' with hid
      · rw [hid, Function.update_self, ← Option.some.inj hget']
        cases hold : r.greatest.get id with
        | none => rfl
        | some old => rw [later_of_not_isLess (hlater old hold)]
      · rw [Function.update_of_ne hid]
        exact h.record id' ts' hget'
    · rw [hentities]
      rw [hget] at hne
      split_ifs at hne with hid
      · exact hid ▸ hreg
      · exact h.registered id' hne

theorem complete_unregister_iff (h : r.Complete start) (id : PttID) :
    (r.step (.unregister id)).Complete start ↔ r.Fits start (.unregister id) := by
  have hget (id' : PttID) : (r.step (.unregister id)).service.entities.get id' = if id' = id then none else r.service.entities.get id' := by
    simp [step, Service.unregisterEntity]
  constructor
  · intro h'
    by_contra hne
    exact h'.registered id hne (by rw [hget, if_pos rfl])
  · intro hnone
    refine ⟨h.record, fun id' hne => ?_, h.nonneg⟩
    rw [hget, if_neg]
    · exact h.registered id' hne
    · rintro rfl
      exact hne hnone

theorem complete_step_iff (hsound : r.Sound) (h : r.Complete start) (c : Call) : (r.step c).Complete start ↔ r.Fits start c := by
  cases c with
  | save id ts => exact complete_save_iff hsound h id ts
  | unregister id => exact complete_unregister_iff h id

theorem sound_ofService {s : Service} (h : s.Fresh) : (ofService s).Sound where
  stored :=
    { index := fun id => h.1 _ (.inr (.inl (List.prefix_append _ _)))
      own := fun id => h.1 _ (.inl (List.prefix_append _ _))
      list := fun key v hkey => by
        have hnone := h.1 key (.inr (.inr hkey))
        simp [ofService, hnone]
      nonneg := fun id ts hget => by cases hget }
  free := h.2

theorem complete_ofService (s : Service) (start : Timestamp) : (ofService s).Complete start where
  record _ _ hget := by cases hget
  registered _ hne := absurd rfl hne
  nonneg _ hne := absurd rfl hne

end Run

/-- In every run of saved times and unregistered friends, the records and the lists from a start on are right throughout exactly if every
time is saved for a registered friend and is not before those saved for it, no friend with a message is unregistered, and, once there is a
message, the start is not negative. -/
theorem friendList_right_iff (s : Service) (hfresh : s.Fresh) (calls : List Call) (start : Timestamp) :
    Trace.Everywhere Run.step (Run.ofService s) calls (fun r => r.Right start) ↔
      Trace.Always Run.step (Run.ofService s) calls fun r c => r.Fits start c := by
  have h0 : (Run.ofService s).Sound ∧ (Run.ofService s).Complete start := ⟨Run.sound_ofService hfresh, Run.complete_ofService s start⟩
  refine Trace.everywhere_iff_always (I := fun r => r.Sound ∧ r.Complete start) h0 ((Run.right_iff_complete h0.1 start).2 h0.2) ?_ ?_
  · rintro r c ⟨hsound, hcomplete⟩
    rw [Run.right_iff_complete (hsound.step c), Run.complete_step_iff hsound hcomplete]
  · rintro r c ⟨hsound, hcomplete⟩ hfits
    exact ⟨hsound.step c, (Run.complete_step_iff hsound hcomplete c).2 hfits⟩

namespace FriendListWitness

def friend (b : UInt8) : PttID := ByteArrayOf.replicate 40 b

def service : Service := ⟨LDBDatabase.ofDB KeyStore.empty, (KeyStore.empty.put (friend 1) ()).put (friend 2) (), fun _ => .zero⟩

theorem fresh_service : service.Fresh := ⟨fun _ _ => rfl, rfl⟩

theorem nonneg_sec (sec : UInt8) : 0 ≤ (Timestamp.ofSec sec.toNat).ts.toInt := by
  have hlt := sec.toNat_lt
  rw [toInt_ofSec (Int.natCast_nonneg _) (by omega)]
  exact Int.natCast_nonneg _

def message (b sec : UInt8) : Call := .save (friend b) ⟨.ofSec sec.toNat, nonneg_sec sec⟩

end FriendListWitness

open FriendListWitness in
/-- Two friends, the first with two messages. -/
theorem friendList_right_iff_three :
    Trace.Everywhere Run.step (Run.ofService service) [message 1 5, message 2 7, message 1 9] (fun r => r.Right .zero) := by
  refine (friendList_right_iff service fresh_service _ .zero).2 ?_
  have hsecond : ((Run.ofService service).step (message 1 5)).greatest.get (friend 2) = none := by decide +kernel
  have hthird : (((Run.ofService service).step (message 1 5)).step (message 2 7)).greatest.get (friend 1) = some (.ofSec 5) := by
    decide +kernel
  refine Trace.always_cons.2 ⟨⟨by decide, fun _ h => (by cases h), by decide⟩, ?_⟩
  refine Trace.always_cons.2 ⟨⟨by decide +kernel, fun old h => ?_, by decide⟩, ?_⟩
  · rw [hsecond] at h
    cases h
  · refine Trace.always_cons.2 ⟨⟨by decide +kernel, fun old h => ?_, by decide⟩, Trace.always_nil⟩
    rw [hthird] at h
    rw [← Option.some.inj h]
    decide

open FriendListWitness in
/-- An earlier message changes the record, the list panics at a friend that is gone, and from a negative time on it is empty. -/
theorem friend_list_goes_wrong : service.Fresh ∧
    (Trace.after Run.step (Run.ofService service) [message 1 7, message 1 5]).service.messageCreateTS (friend 1) = .ofSec 5 ∧
    (Trace.after Run.step (Run.ofService service) [message 1 7, message 1 5]).greatest.get (friend 1) = some (.ofSec 7) ∧
    (Trace.after Run.step (Run.ofService service) [message 1 7, .unregister (friend 1)]).service.getFriendListByMsgCreateTS .zero 0 .next =
      .error .panic ∧
    (Trace.after Run.step (Run.ofService service) [message 1 7]).service.getFriendListByMsgCreateTS ⟨-1, 0⟩ 0 .next = .ok [] := by
  refine ⟨fresh_service, by decide +kernel, by decide +kernel, by decide +kernel, by decide +kernel⟩

end Friend

end PttaiCore
