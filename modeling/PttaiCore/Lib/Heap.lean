import Mathlib.Data.List.GetD

/-! # A heap of shared cells -/

structure Heap (α : Type*) where
  cells : List α

namespace Heap

variable {α : Type*} [Inhabited α] {h : Heap α} {p q : Nat} {a : α}

def empty : Heap α := ⟨[]⟩

def next (h : Heap α) : Nat := h.cells.length

def get (h : Heap α) (p : Nat) : α := h.cells.getD p default

def alloc (h : Heap α) (a : α) : Heap α := ⟨h.cells ++ [a]⟩

def set (h : Heap α) (p : Nat) (a : α) : Heap α := ⟨h.cells.set p a⟩

omit [Inhabited α] in
@[simp] theorem next_alloc (h : Heap α) (a : α) : (h.alloc a).next = h.next + 1 := by simp [next, alloc]

omit [Inhabited α] in
@[simp] theorem next_set (h : Heap α) (p : Nat) (a : α) : (h.set p a).next = h.next := by simp [next, set]

@[simp] theorem get_alloc_next (h : Heap α) (a : α) : (h.alloc a).get h.next = a := by simp [get, alloc, next, List.getD_eq_getElem?_getD]

theorem get_alloc_of_lt (hp : p < h.next) : (h.alloc a).get p = h.get p := by
  rw [get, get, alloc, List.getD_append _ _ _ _ hp]

theorem get_set_self (hp : p < h.next) : (h.set p a).get p = a := by
  simp [get, set, List.getD_eq_getElem?_getD, show p < h.cells.length from hp]

theorem get_set_of_ne (hne : q ≠ p) : (h.set p a).get q = h.get q := by
  simp [get, set, List.getD_eq_getElem?_getD, List.getElem?_set_ne hne.symm]

end Heap
