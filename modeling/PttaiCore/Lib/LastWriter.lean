import Mathlib.Order.Lattice
import Mathlib.Order.Basic
import Mathlib.Data.List.Perm.Basic
import Mathlib.Data.List.Nodup

/-! # A register of the last writer -/

structure Register (I T V : Type*) where
  time : T
  value : V
  seen : List I

namespace Register

open List

variable {α I T V : Type*} [DecidableEq I] [LinearOrder T] (id : α → I) (time : α → T) (value : α → V)
  (refuses : V → V → Prop) [DecidableRel refuses]

def write (r : Register I T V) (w : α) : Register I T V :=
  if id w ∈ r.seen then r
  else if r.time < time w ∧ ¬ refuses r.value (value w) then ⟨time w, value w, id w :: r.seen⟩
  else { r with seen := id w :: r.seen }

theorem write_cases (r : Register I T V) (w : α) :
    (id w ∈ r.seen ∧ r.write id time value refuses w = r) ∨
    (id w ∉ r.seen ∧ (r.time < time w ∧ ¬ refuses r.value (value w)) ∧
      r.write id time value refuses w = ⟨time w, value w, id w :: r.seen⟩) ∨
    (id w ∉ r.seen ∧ ¬ (r.time < time w ∧ ¬ refuses r.value (value w)) ∧
      r.write id time value refuses w = { r with seen := id w :: r.seen }) := by
  by_cases hid : id w ∈ r.seen
  · exact .inl ⟨hid, if_pos hid⟩
  by_cases h : r.time < time w ∧ ¬ refuses r.value (value w)
  · exact .inr (.inl ⟨hid, h, by rw [write, if_neg hid, if_pos h]⟩)
  · exact .inr (.inr ⟨hid, h, by rw [write, if_neg hid, if_neg h]⟩)

def writeAll (r : Register I T V) (ws : List α) : Register I T V := ws.foldl (write id time value refuses) r

variable {id time value refuses} {r : Register I T V} {w m : α} {ws : List α}

@[simp] theorem writeAll_cons :
    r.writeAll id time value refuses (w :: ws) = (r.write id time value refuses w).writeAll id time value refuses ws := rfl

theorem write_of_accepted (hid : id w ∉ r.seen) (h : r.time < time w ∧ ¬ refuses r.value (value w)) :
    r.write id time value refuses w = ⟨time w, value w, id w :: r.seen⟩ := by
  rw [write, if_neg hid, if_pos h]

theorem time_writeAll_ne {t : T} (hr : r.time ≠ t) (hws : ∀ w ∈ ws, time w ≠ t) : (r.writeAll id time value refuses ws).time ≠ t := by
  induction ws generalizing r with
  | nil => exact hr
  | cons w ws ih =>
    rw [writeAll_cons]
    refine ih ?_ fun v hv => hws v (mem_cons_of_mem w hv)
    rcases write_cases id time value refuses r w with ⟨-, heq⟩ | ⟨-, -, heq⟩ | ⟨-, -, heq⟩ <;> rw [heq]
    · exact hr
    · exact hws w mem_cons_self
    · exact hr

theorem writeAll_of_latest (hws : ∀ w ∈ ws, time w ≤ r.time) :
    (r.writeAll id time value refuses ws).time = r.time ∧ (r.writeAll id time value refuses ws).value = r.value := by
  induction ws generalizing r with
  | nil => exact ⟨rfl, rfl⟩
  | cons w ws ih =>
    have hws' : ∀ v ∈ ws, time v ≤ r.time := fun v hv => hws v (mem_cons_of_mem w hv)
    rw [writeAll_cons]
    rcases write_cases id time value refuses r w with ⟨-, heq⟩ | ⟨-, ⟨hlt, -⟩, -⟩ | ⟨-, -, heq⟩
    · rw [heq]
      exact ih hws'
    · exact absurd (hws w (.head _)) hlt.not_ge
    · rw [heq]
      exact ih hws'

theorem writeAll_of_unrefused (hm : m ∈ ws) (hnodup : ws.Nodup) (hmax : ∀ w ∈ ws, w ≠ m → time w < time m) (hr : r.time < time m)
    (hseen : id m ∉ r.seen) (hvalue : ¬ refuses r.value (value m))
    (hothers : ∀ w ∈ ws, w ≠ m → id w ≠ id m ∧ ¬ refuses (value w) (value m)) :
    (r.writeAll id time value refuses ws).time = time m ∧ (r.writeAll id time value refuses ws).value = value m := by
  -- until `m` comes the register is before it, has not seen it and does not refuse it
  induction ws generalizing r with
  | nil => cases hm
  | cons w ws ih =>
    obtain ⟨hw, hnodup⟩ := nodup_cons.1 hnodup
    rw [writeAll_cons]
    by_cases hwm : w = m
    · subst hwm
      rw [write_of_accepted hseen ⟨hr, hvalue⟩]
      exact writeAll_of_latest fun v hv => (hmax v (mem_cons_of_mem w hv) fun h => hw (h ▸ hv)).le
    · obtain ⟨hidw, hrefw⟩ := hothers w (.head _) hwm
      have hm' : m ∈ ws := (mem_cons.1 hm).resolve_left fun h => hwm h.symm
      have hltw := hmax w (.head _) hwm
      have ih' : ∀ {r : Register I T V}, r.time < time m → id m ∉ r.seen → ¬ refuses r.value (value m) → _ := fun {r} h1 h2 h3 =>
        ih (r := r) hm' hnodup (fun v hv => hmax v (mem_cons_of_mem w hv)) h1 h2 h3
          fun v hv => hothers v (mem_cons_of_mem w hv)
      have hseen' : id m ∉ id w :: r.seen := by
        rw [mem_cons, not_or]
        exact ⟨fun h => hidw h.symm, hseen⟩
      rcases write_cases id time value refuses r w with ⟨-, heq⟩ | ⟨-, -, heq⟩ | ⟨-, -, heq⟩ <;> rw [heq]
      · exact ih' hr hseen hvalue
      · exact ih' hltw hseen' hrefw
      · exact ih' hr hseen' hvalue

variable (id time value refuses) in
theorem lastWriter_iff (hm : m ∈ ws) (hnodup : (ws.map time).Nodup) (hmax : ∀ w ∈ ws, time w ≤ time m)
    (hafter : ∀ w ∈ ws, r.time < time w) (hseen : ∀ w ∈ ws, id w ∉ r.seen) (hvalue : ∀ w ∈ ws, ¬ refuses r.value (value w)) :
    (∀ order, order.Perm ws → (r.writeAll id time value refuses order).time = time m ∧
      (r.writeAll id time value refuses order).value = value m) ↔
    ∀ w ∈ ws, w ≠ m → id w ≠ id m ∧ ¬ refuses (value w) (value m) := by
  have hne : ∀ w ∈ ws, w ≠ m → time w ≠ time m := fun w hw hwm heq => hwm (inj_on_of_nodup_map hnodup hw hm heq)
  constructor
  · intro h w hw hwm
    classical
    by_contra hbad
    -- `w` comes first, then `m`, which is dropped
    have hmw : m ∈ ws.erase w := (mem_erase_of_ne fun h => hwm h.symm).2 hm
    have hperm : (w :: m :: (ws.erase w).erase m).Perm ws :=
      ((perm_cons_erase hmw).symm.cons w).trans (perm_cons_erase hw).symm
    refine absurd (h _ hperm).1 ?_
    rw [writeAll_cons, writeAll_cons, write_of_accepted (hseen w hw) ⟨hafter w hw, hvalue w hw⟩]
    have hdrop : (write id time value refuses ⟨time w, value w, id w :: r.seen⟩ m).time = time w := by
      rcases write_cases id time value refuses ⟨time w, value w, id w :: r.seen⟩ m with ⟨-, heq⟩ | ⟨hid, ⟨-, href⟩, -⟩ | ⟨-, -, heq⟩
      · rw [heq]
      · exact absurd ⟨fun heq => hid (heq ▸ (.head _)), href⟩ hbad
      · rw [heq]
    refine time_writeAll_ne ?_ fun v hv => ?_
    · rw [hdrop]
      exact hne w hw hwm
    · have hnd : (ws.erase w).Nodup := hnodup.of_map.erase w
      obtain ⟨hvm, hv⟩ := (hnd.mem_erase_iff).1 hv
      exact hne v (mem_of_mem_erase hv) hvm
  · intro h order hperm
    have hmem : ∀ w ∈ order, w ∈ ws := fun w hw => hperm.mem_iff.1 hw
    exact writeAll_of_unrefused (hperm.mem_iff.2 hm) (hperm.nodup_iff.2 hnodup.of_map)
      (fun w hw hwm => lt_of_le_of_ne (hmax w (hmem w hw)) (hne w (hmem w hw) hwm)) (hafter m hm) (hseen m hm) (hvalue m hm)
      fun w hw => h w (hmem w hw)

end Register
