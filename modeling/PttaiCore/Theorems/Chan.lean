import PttaiCore.Chan

/-!
# Threads on one channel

The check of the flag and the use of the channel are not one step: what goes through the channel is in order, but a call that has
passed its check when the channel is closed panics.
-/

namespace PttaiCore

variable {T D : Type}

def ChanEvent.sends : ChanEvent T D → Option D
  | .sent _ d => some d
  | _ => none

def ChanEvent.receipts : ChanEvent T D → Option D
  | .received d => some d
  | _ => none

/-- The event shows that the channel is closed. -/
def ChanEvent.Closes (a : ChanEvent T D) : Prop := ∃ t, a = .closed t ∨ a = .panicked t

/-- The event uses the channel, which is open. -/
def ChanEvent.Uses (a : ChanEvent T D) : Prop := ∃ t, a = .closed t ∨ ∃ d, a = .sent t d

def ChanAt.Inside : ChanAt D → Prop
  | .locked _ | .toUnlock => True
  | _ => False

/-- The call has passed its check and has not used the channel yet. -/
def ChanAt.InFlight : ChanAt D → Prop
  | .outside | .toUnlock => False
  | _ => True

end PttaiCore

namespace PttaiCore.ChanAux

open Chan ChanAt ChanEvent

variable {T D : Type} [DecidableEq T] {c c' : Chan T D} {as as' : List (ChanEvent T D)} {a : ChanEvent T D} {t : T}

structure Inv (c : Chan T D) : Prop where
  room : c.theChan.length ≤ c.n
  inside : ∀ t, Inside (c.threads t) → c.lock = true ∧ ∀ u, Inside (c.threads u) → t = u
  held : c.lock = true → ∃ t, Inside (c.threads t)
  flag : c.chanClosed = true ∨ (∃ t, c.threads t = .toLock .close ∨ c.threads t = .locked .close) → c.isClose = true

structure History (as : List (ChanEvent T D)) (c : Chan T D) : Prop where
  fifo : as.filterMap sends = as.filterMap receipts ++ c.theChan
  closed : ∀ a ∈ as, Closes a → c.chanClosed = true
  last : as.Pairwise fun a b => Closes a → ¬ Uses b

theorem threads_move (a : ChanAt D) (u : T) : (c.move t a).threads u = if u = t then a else c.threads u := Function.update_apply ..

theorem threads_move_self (a : ChanAt D) : (c.move t a).threads t = a := Function.update_self ..

theorem inv_step (h : Inv c) (hs : Step c a c') : Inv c' := by
  obtain ⟨hr, hi, hh, hf⟩ := h
  cases hs with
  | refused => exact ⟨hr, hi, hh, hf⟩
  | received hd =>
    rw [hd, List.length_cons] at hr
    exact ⟨Nat.le_of_succ_le hr, hi, hh, hf⟩
  | sent ho hc hb => refine ⟨by grind [move, isBusy], ?_, ?_, ?_⟩ <;> simp only [threads_move] <;> grind [Inside, move]
  | _ => refine ⟨hr, ?_, ?_, ?_⟩ <;> simp only [threads_move] <;> grind [Inside, move]

theorem closed_step (hs : Step c a c') :
    (c.chanClosed = true ∨ Closes a → c'.chanClosed = true) ∧ (Uses a → c.chanClosed = false) ∧ c'.n = c.n := by
  cases hs <;> simp_all [Closes, Uses, move]

theorem history_step (h : History as c) (hs : Step c a c') : History (as ++ [a]) c' := by
  obtain ⟨hclosed, huses, -⟩ := closed_step hs
  refine ⟨?_, ?_, ?_⟩
  · rw [List.filterMap_append, List.filterMap_append, h.fifo]
    cases hs with
    | received hd => simp [List.filterMap_cons, sends, receipts, hd]
    | _ => simp [List.filterMap_cons, sends, receipts, move]
  · simp only [List.mem_append, List.mem_singleton]
    rintro b (hb | rfl) hc
    · exact hclosed (.inl (h.closed b hb hc))
    · exact hclosed (.inr hc)
  · rw [List.pairwise_append]
    refine ⟨h.last, List.pairwise_singleton _ _, ?_⟩
    intro b hb b' hb' hc hu
    rw [List.mem_singleton.1 hb'] at hu
    exact absurd (h.closed b hb hc) (by simp [huses hu])

theorem reached {n : Int} (hrun : Run Step (newChan n) as c) : Inv c ∧ History as c ∧ c.n = (if n < 1 then 1 else n).toNat := by
  refine hrun.invariantTrace (I := fun as c => Inv c ∧ History as c ∧ c.n = (if n < 1 then 1 else n).toNat) ?_ ?_
  · exact ⟨by constructor <;> simp [newChan, Inside], by constructor <;> simp [newChan], rfl⟩
  · intro as c a c' ⟨hi, hh, hn⟩ hs
    exact ⟨inv_step hi hs, history_step hh hs, (closed_step hs).2.2.trans hn⟩

/-! ## Calls in flight -/

theorem not_panicked (hc : c.isClose = true) (ht : ¬ InFlight (c.threads t)) (hrun : Run Step c as c') : .panicked t ∉ as := by
  refine (hrun.invariantTrace (I := fun as c => c.isClose = true ∧ ¬ InFlight (c.threads t) ∧ .panicked t ∉ as) ?_ ?_).2.2
  · exact ⟨hc, ht, List.not_mem_nil⟩
  · rintro as c a c' ⟨hc, ht, hp⟩ hs
    cases hs <;> grind [InFlight, move, threads_move]

/-- Whoever is inside leaves. -/
theorem run_free (h : Inv c) (hc : c.chanClosed = true) (ht : ¬ Inside (c.threads t)) :
    ∃ as c', Run Step c as c' ∧ c'.lock = false ∧ c'.chanClosed = true ∧ c'.threads t = c.threads t := by
  cases hl : c.lock with
  | false => exact ⟨[], c, .nil c, hl, hc, rfl⟩
  | true =>
    obtain ⟨u, hu⟩ := h.held hl
    have hne : t ≠ u := fun he => ht (he ▸ hu)
    cases ha : c.threads u with
    | toUnlock => exact ⟨_, _, .single (.unlocked ha), rfl, hc, by simp [threads_move, hne]⟩
    | locked op =>
      have h1 : Step c (.panicked u) _ := .panicked ha hc
      have h2 : Step _ (.unlocked u) _ := .unlocked (threads_move_self (c := c) _)
      exact ⟨_, _, (Run.single h1).snoc h2, rfl, hc, by simp [threads_move, hne]⟩
    | _ => exact absurd hu (by simp [ha, Inside])

theorem run_panicked_of_free {op : ChanOp D} (hl : c.lock = false) (hc : c.chanClosed = true) (ht : c.threads t = .toLock op) :
    ∃ as c', Run Step c as c' ∧ .panicked t ∈ as := by
  have h1 : Step c (.locked t) _ := .locked ht hl
  have h2 : Step _ (.panicked t) _ := .panicked (threads_move_self (c := { c with lock := true }) (.locked op)) hc
  exact ⟨_, _, (Run.single h1).snoc h2, by simp⟩

theorem run_panicked (h : Inv c) (hc : c.chanClosed = true) (ht : InFlight (c.threads t)) :
    ∃ as c', Run Step c as c' ∧ .panicked t ∈ as := by
  cases ha : c.threads t with
  | locked op => exact ⟨_, _, .single (.panicked ha hc), by simp⟩
  | toLock op =>
    obtain ⟨as, c₁, hrun, hl, hc₁, ht₁⟩ := run_free (t := t) h hc (by simp [ha, Inside])
    obtain ⟨as', c₂, hrun', hmem⟩ := run_panicked_of_free hl hc₁ (ht₁.trans ha)
    exact ⟨_, c₂, hrun.append hrun', List.mem_append_right _ hmem⟩
  | toFlag =>
    obtain ⟨as, c₁, hrun, hl, hc₁, ht₁⟩ := run_free (t := t) h hc (by simp [ha, Inside])
    have hf : Step c₁ (.flagged t) _ := .flagged (ht₁.trans ha)
    obtain ⟨as', c₂, hrun', hmem⟩ := run_panicked_of_free (c := move { c₁ with isClose := true } t _) hl hc₁ (threads_move_self _)
    exact ⟨_, c₂, (hrun.snoc hf).append hrun', List.mem_append_right _ hmem⟩
  | _ => exact absurd ht (by simp [ha, InFlight])

/-- A thread that sends on a full channel stays where it is. -/
structure Blocked (t : T) (d : D) (c : Chan T D) : Prop where
  inv : Inv c
  inLock : c.threads t = .locked (.passChan d)
  isBusy : c.isBusy = true
  chanClosed : c.chanClosed = false

theorem blocked_step {d : D} (h : Blocked t d c) (hs : Step c a c') (ha : ∀ e, a ≠ .received e) :
    Blocked t d c' ∧ ¬ Uses a ∧ ∀ u, a ≠ .locked u := by
  have hl := h.inv.inside t (by simp [h.inLock, Inside])
  have hi := inv_step h.inv hs
  obtain ⟨-, ht, hb, hc⟩ := h
  refine ⟨⟨hi, ?_, ?_, ?_⟩, ?_, ?_⟩ <;> cases hs <;> grind [Inside, move, isBusy, threads_move, Uses]

theorem blocked_run {d : D} (h : Blocked t d c) (hrun : Run Step c as c') :
    (∀ e, .received e ∉ as) → Blocked t d c' ∧ ∀ u, .locked u ∉ as ∧ .closed u ∉ as := by
  refine hrun.invariantTrace (I := fun as c' => (∀ e, .received e ∉ as) → Blocked t d c' ∧ ∀ u, .locked u ∉ as ∧ .closed u ∉ as) ?_ ?_
  · exact fun _ => ⟨h, fun u => by simp⟩
  · intro as c a c' ih hs hno
    obtain ⟨hb, hu⟩ := ih fun e he => hno e (List.mem_append_left _ he)
    obtain ⟨hb', huses, hl⟩ := blocked_step hb hs fun e he => hno e (by simp [he])
    refine ⟨hb', fun u => ⟨?_, ?_⟩⟩ <;> grind [Uses]

end PttaiCore.ChanAux

namespace PttaiCore

open Chan ChanAux

variable {T D : Type} [DecidableEq T] {n : Int} {c : Chan T D} {as : List (ChanEvent T D)}

/-- No call panics while the channel is open. Once it is closed, the threads whose call may still panic are those that had passed the check
of the flag and had not used the channel: `PassChan` is not free of panics. -/
theorem panics_iff_inFlight (hrun : Run Step (newChan n) as c) :
    (c.chanClosed = false → ∀ t, .panicked t ∉ as) ∧
      (c.chanClosed = true → ∀ t, (∃ as' c', Run Step c as' c' ∧ .panicked t ∈ as') ↔ (c.threads t).InFlight) := by
  obtain ⟨hi, hh, -⟩ := reached hrun
  refine ⟨fun hc t ht => ?_, fun hc t => ⟨?_, run_panicked hi hc⟩⟩
  · have := hh.closed _ ht ⟨t, .inr rfl⟩
    simp [hc] at this
  · rintro ⟨as', c', hrun', hp⟩
    by_contra ht
    exact not_panicked (hi.flag (.inl hc)) ht hrun' hp

/-- A sender at a full channel holds the lock: until something is received no other call gets in, and so no `Close` closes the channel. One
receipt lets it go on. -/
theorem sender_blocks_close {t : T} {d : D} (hrun : Run Step (newChan n) as c) (ht : c.threads t = .locked (.passChan d))
    (hbusy : c.isBusy = true) (hopen : c.chanClosed = false) :
    (∀ as' c', Run Step c as' c' → (∀ e, .received e ∉ as') →
      c'.threads t = .locked (.passChan d) ∧ ∀ u, .locked u ∉ as' ∧ .closed u ∉ as') ∧
      ∃ e c', Run Step c [.received e, .sent t d] c' := by
  obtain ⟨hi, -, hn⟩ := reached hrun
  refine ⟨fun as' c' hrun' hno => ?_, ?_⟩
  · obtain ⟨hb, hu⟩ := blocked_run ⟨hi, ht, hbusy, hopen⟩ hrun' hno
    exact ⟨hb.inLock, hu⟩
  · have hlen : c.theChan.length = c.n := by simpa [isBusy] using hbusy
    cases hd : c.theChan with
    | nil =>
      rw [hd, hn, List.length_nil] at hlen
      split_ifs at hlen <;> omega
    | cons e rest =>
      have h1 : Step c (.received e) _ := .received hd
      have h2 : Step { c with theChan := rest } (.sent t d) _ := .sent ht hopen (by simp [isBusy, ← hlen, hd])
      exact ⟨e, _, (Run.single h1).snoc h2⟩

namespace ChanWitness

/-- One thread sends 7 and is about to send 8. -/
theorem run_full : ∃ c : Chan Bool Nat, Run Step (newChan 1) [.passed true (.passChan 7), .locked true, .sent true 7, .unlocked true,
    .passed true (.passChan 8), .locked true] c ∧ c.threads true = .locked (.passChan 8) ∧ c.isBusy = true ∧ c.chanClosed = false :=
  ⟨_, (((((Run.single (.passedPass 7 rfl rfl)).snoc (.locked rfl rfl)).snoc (.sent rfl rfl rfl)).snoc (.unlocked rfl)).snoc
    (.passedPass 8 rfl rfl)).snoc (.locked rfl rfl), rfl, rfl, rfl⟩

/-- The other thread closes the channel between the check and the lock. -/
theorem run_closed : ∃ c : Chan Bool Nat, Run Step (newChan 1) [.passed true (.passChan 7), .passed false .close, .flagged false,
    .locked false, .closed false] c ∧ c.threads true = .toLock (.passChan 7) ∧ c.chanClosed = true :=
  ⟨_, ((((Run.single (.passedPass 7 rfl rfl)).snoc (.passedClose rfl rfl)).snoc (.flagged rfl)).snoc (.locked rfl rfl)).snoc
    (.closed rfl rfl), rfl, rfl⟩

end ChanWitness

open ChanWitness

theorem panics_iff_inFlight_closed : ∃ as, ∃ c : Chan Bool Nat, Run Step (newChan 1) as c ∧ .panicked true ∈ as := by
  obtain ⟨c, hrun, ht, hc⟩ := run_closed
  obtain ⟨as', c', hrun', hp⟩ := ((panics_iff_inFlight hrun).2 hc true).2 (by simp [ht, ChanAt.InFlight])
  exact ⟨_, c', hrun.append hrun', List.mem_append_right _ hp⟩

theorem sender_blocks_close_full : ∃ as, ∃ c : Chan Bool Nat, Run Step (newChan 1) as c ∧ ∃ e c', Run Step c [.received e, .sent true 8] c' := by
  obtain ⟨c, hrun, ht, hbusy, hopen⟩ := run_full
  exact ⟨_, c, hrun, (sender_blocks_close hrun ht hbusy hopen).2⟩

end PttaiCore
