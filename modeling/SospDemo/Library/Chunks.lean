import Mathlib.Tactic

/-!
# Cutting a list into chunks

Chunks of a fixed size with a shorter last one, and what a prefix of them still says about the
list they were cut from.
-/

namespace Chunks
variable {α : Type*}

def chunksOf (size : Nat) : List α → List (List α)
  | [] => []
  | x :: xs => (x :: xs.take (size - 1)) :: chunksOf size (xs.drop (size - 1))
termination_by l => l.length
decreasing_by simp

@[simp] theorem chunksOf_nil (size : Nat) : chunksOf size ([] : List α) = [] := by
  rw [chunksOf]

theorem chunksOf_of_ne_nil {size : Nat} (positive : 0 < size) {l : List α} (nonempty : l ≠ []) :
    chunksOf size l = l.take size :: chunksOf size (l.drop size) := by
  obtain ⟨x, xs, rfl⟩ := List.exists_cons_of_ne_nil nonempty
  obtain ⟨n, rfl⟩ := Nat.exists_eq_succ_of_ne_zero positive.ne'
  rw [chunksOf]
  simp

@[simp] theorem flatten_chunksOf (size : Nat) (l : List α) : (chunksOf size l).flatten = l := by
  fun_induction chunksOf size l with
  | case1 => rfl
  | case2 x xs ih => simp [ih]

theorem chunksOf_ne_nil (size : Nat) {l chunk : List α} (mem : chunk ∈ chunksOf size l) :
    chunk ≠ [] := by
  fun_induction chunksOf size l with
  | case1 => simp at mem
  | case2 x xs ih =>
      rcases List.mem_cons.mp mem with rfl | later
      · exact List.cons_ne_nil _ _
      · exact ih later

theorem length_le_of_mem_chunksOf {size : Nat} (positive : 0 < size) {l chunk : List α}
    (mem : chunk ∈ chunksOf size l) : chunk.length ≤ size := by
  fun_induction chunksOf size l with
  | case1 => simp at mem
  | case2 x xs ih =>
      rcases List.mem_cons.mp mem with rfl | later
      · simp only [List.length_cons, List.length_take]
        omega
      · exact ih later

theorem length_chunksOf {size : Nat} (positive : 0 < size) (l : List α) :
    (chunksOf size l).length = (l.length + (size - 1)) / size := by
  fun_induction chunksOf size l with
  | case1 =>
      rw [List.length_nil, List.length_nil, Nat.zero_add,
        Nat.div_eq_of_lt (Nat.sub_lt positive Nat.one_pos)]
  | case2 x xs ih =>
      rw [List.length_cons, List.length_cons, ih, List.length_drop]
      by_cases short : xs.length < size
      · have none_left : xs.length - (size - 1) = 0 := by omega
        rw [none_left, Nat.zero_add, Nat.div_eq_of_lt (Nat.sub_lt positive Nat.one_pos)]
        exact (Nat.div_eq_of_lt_le (by omega) (by omega)).symm
      · have taken : xs.length + 1 + (size - 1) = xs.length - (size - 1) + (size - 1) + size := by
          omega
        rw [taken, Nat.add_div_right _ positive]

theorem eq_of_prefix {received chunks : List (List α)} (isPrefix : received <+: chunks)
    (nonempty : ∀ chunk ∈ chunks, chunk ≠ [])
    (total : received.flatten.length = chunks.flatten.length) : received = chunks := by
  obtain ⟨missing, rfl⟩ := isPrefix
  have nothing : missing.flatten = [] := by
    rw [List.flatten_append, List.length_append] at total
    exact List.eq_nil_of_length_eq_zero (by omega)
  cases missing with
  | nil => rw [List.append_nil]
  | cons chunk rest =>
      have empty : chunk = [] := List.flatten_eq_nil_iff.mp nothing chunk (List.mem_cons_self ..)
      exact absurd empty (nonempty chunk (by simp))

end Chunks
