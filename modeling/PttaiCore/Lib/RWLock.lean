import Mathlib.Data.List.Basic

/-! # Reader-writer locks that never wait -/

def serve {σ ρ α : Type*} (f : σ → ρ → α × σ) (s : σ) (rs : List ρ) : List (ρ × α) × σ :=
  rs.foldl (fun t r => (t.1 ++ [(r, (f t.2 r).1)], (f t.2 r).2)) ([], s)

theorem serve_snoc {σ ρ α : Type*} (f : σ → ρ → α × σ) (s : σ) (rs : List ρ) (r : ρ) : serve f s (rs ++ [r]) =
    ((serve f s rs).1 ++ [(r, (f (serve f s rs).2 r).1)], (f (serve f s rs).2 r).2) := by
  rw [serve, List.foldl_append]
  rfl

namespace RWLock

inductive Op where
  | tryLock | unlock | tryRLock | rUnlock
  deriving DecidableEq, Repr

def next : Op → Int → Option Int
  | .tryLock, i => if i = 0 then some (-1) else none
  | .unlock, i => if i < 0 then some 0 else none
  | .tryRLock, i => if i < 0 then none else some (i + 1)
  | .rUnlock, i => if 0 < i then some (i - 1) else none

def writers (ops : List Op) : Int := ops.count .tryLock - ops.count .unlock

def readers (ops : List Op) : Int := ops.count .tryRLock - ops.count .rUnlock

inductive Balanced (i : Int) (ops : List Op) : Prop where
  | written : i = -1 → writers ops = 1 → readers ops = 0 → Balanced i ops
  | read : 0 ≤ i → writers ops = 0 → readers ops = i → Balanced i ops

variable {i j : Int} {ops : List Op} {op : Op}

theorem Balanced.nil : Balanced 0 [] := .read (Int.le_refl 0) rfl rfl

theorem writers_snoc (ops : List Op) (op : Op) : writers (ops ++ [op]) = writers ops + writers [op] := by
  simp only [writers, List.count_append, Int.natCast_add]
  omega

theorem readers_snoc (ops : List Op) (op : Op) : readers (ops ++ [op]) = readers ops + readers [op] := by
  simp only [readers, List.count_append, Int.natCast_add]
  omega

theorem Balanced.snoc (h : Balanced i ops) (hnext : next op i = some j) : Balanced j (ops ++ [op]) := by
  cases op with
  | tryLock =>
    have hw : writers (ops ++ [.tryLock]) = writers ops + 1 := writers_snoc ops .tryLock
    have hr : readers (ops ++ [.tryLock]) = readers ops + 0 := readers_snoc ops .tryLock
    simp only [next] at hnext
    split_ifs at hnext with hi
    cases hnext
    cases h with
    | written hi' _ _ => omega
    | read _ hw' hr' => exact .written rfl (by omega) (by omega)
  | unlock =>
    have hw : writers (ops ++ [.unlock]) = writers ops + -1 := writers_snoc ops .unlock
    have hr : readers (ops ++ [.unlock]) = readers ops + 0 := readers_snoc ops .unlock
    simp only [next] at hnext
    split_ifs at hnext with hi
    cases hnext
    cases h with
    | written _ hw' hr' => exact .read (Int.le_refl 0) (by omega) (by omega)
    | read hi' _ _ => omega
  | tryRLock =>
    have hw : writers (ops ++ [.tryRLock]) = writers ops + 0 := writers_snoc ops .tryRLock
    have hr : readers (ops ++ [.tryRLock]) = readers ops + 1 := readers_snoc ops .tryRLock
    simp only [next] at hnext
    split_ifs at hnext with hi
    cases hnext
    cases h with
    | written hi' _ _ => omega
    | read hi' hw' hr' => exact .read (by omega) (by omega) (by omega)
  | rUnlock =>
    have hw : writers (ops ++ [.rUnlock]) = writers ops + 0 := writers_snoc ops .rUnlock
    have hr : readers (ops ++ [.rUnlock]) = readers ops + -1 := readers_snoc ops .rUnlock
    simp only [next] at hnext
    split_ifs at hnext with hi
    cases hnext
    cases h with
    | written hi' _ _ => omega
    | read hi' hw' hr' => exact .read (by omega) (by omega) (by omega)

theorem Balanced.eq_neg_one_iff (h : Balanced i ops) : i = -1 ↔ writers ops = 1 := by
  cases h with
  | written hi hw _ => exact iff_of_true hi hw
  | read hi hw _ => exact iff_of_false (by omega) (by omega)

theorem Balanced.eq_readers_iff (h : Balanced i ops) {n : Int} (hn : 0 < n) : i = n ↔ readers ops = n := by
  cases h with
  | written hi _ hr => exact iff_of_false (by omega) (by omega)
  | read _ _ hr => rw [hr]

theorem Balanced.exclusive (h : Balanced i ops) : ¬ (0 < writers ops ∧ 0 < readers ops) := by
  cases h with
  | written _ _ hr => omega
  | read _ hw _ => omega

end RWLock
