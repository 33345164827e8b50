import Mathlib.Tactic

/-!
# Nested loops in row-major order

Loops over the indices of a shape, each inside the one before, append one value in every innermost
turn. The value at place `k` is that of the index whose digits are `k` divided by the sizes.
-/

namespace RowMajor
variable {α E : Type*}

/-- The loops for the sizes of `shape`, the first outermost. -/
def loops : List Nat → (List Nat → Except E α) → List α → Except E (List α)
  | [], value, array => (value []).map fun x => array ++ [x]
  | n :: shape, value, array =>
      (List.range n).foldlM (fun array i => loops shape (fun rest => value (i :: rest)) array) array

def index : List Nat → Nat → List Nat
  | [], _ => []
  | _ :: shape, k => k / shape.prod :: index shape (k % shape.prod)

def Inside (shape : List Nat) (idx : List Nat) : Prop := List.Forall₂ (· < ·) idx shape

theorem range_mul (n p : Nat) :
    List.range (n * p) = (List.range n).flatMap fun i => (List.range p).map fun k => i * p + k := by
  induction n with
  | zero => simp
  | succ n ih => rw [Nat.succ_mul, List.range_add, ih, List.range_succ, List.flatMap_append]; simp

theorem foldlM_append {β : Type*} {body : List α → β → Except E (List α)} {out : β → List α}
    {xs : List β} (appends : ∀ x ∈ xs, ∀ array, body array x = .ok (array ++ out x))
    (array : List α) : xs.foldlM body array = .ok (array ++ xs.flatMap out) := by
  induction xs generalizing array with
  | nil => simp; rfl
  | cons x rest ih =>
      rw [List.foldlM_cons, appends x List.mem_cons_self]
      exact (ih (fun y mem => appends y (List.mem_cons_of_mem x mem)) _).trans (by simp)

theorem loops_eq {shape : List Nat} {value : List Nat → Except E α} {f : List Nat → α}
    (ok : ∀ idx, Inside shape idx → value idx = .ok (f idx)) (array : List α) :
    loops shape value array = .ok (array ++ (List.range shape.prod).map fun k => f (index shape k)) := by
  induction shape generalizing value f array with
  | nil =>
      rw [loops, ok [] .nil]
      rfl
  | cons n shape ih =>
      have turn : ∀ i ∈ List.range n, ∀ array,
          loops shape (fun rest => value (i :: rest)) array =
            .ok (array ++ (List.range shape.prod).map fun k => f (i :: index shape k)) := by
        intro i mem array
        exact ih (fun idx inside => ok (i :: idx) (.cons (List.mem_range.mp mem) inside)) array
      rw [loops, foldlM_append turn, List.prod_cons, range_mul, List.map_flatMap]
      congr 2
      apply List.flatMap_congr
      intro i _
      rw [List.map_map]
      apply List.map_congr_left
      intro k mem
      have bound : k < shape.prod := List.mem_range.mp mem
      simp only [Function.comp_apply, index]
      rw [Nat.mul_comm i, Nat.mul_add_div (Nat.zero_lt_of_lt bound), Nat.div_eq_of_lt bound,
        Nat.mul_add_mod, Nat.mod_eq_of_lt bound, Nat.add_zero]

end RowMajor
