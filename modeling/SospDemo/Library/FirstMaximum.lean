import Mathlib.Tactic

/-!
# Scanning for the first maximum

A scan keeps the best score so far and where it was found, and gives way to a later score only if
that is strictly greater. It starts from a score of its own.
-/

namespace FirstMaximum
variable {α : Type*} [LinearOrder α]

def better (best : α × Option Nat) (entry : α × Nat) : α × Option Nat :=
  if best.1 < entry.1 then (entry.1, some entry.2) else best

def scan (start : α) (row : List α) : α × Option Nat := row.zipIdx.foldl better (start, none)

structure IsFirstMax (row : List α) (k : Nat) (score : α) : Prop where
  attained : row[k]? = some score
  bound : ∀ s ∈ row, s ≤ score
  first : ∀ j s, j < k → row[j]? = some s → s < score

theorem scan_concat (start : α) (row : List α) (x : α) :
    scan start (row ++ [x]) = better (scan start row) (x, row.length) := by
  simp [scan, List.zipIdx_append]

theorem IsFirstMax.concat {row : List α} {k : Nat} {score x : α} (max : IsFirstMax row k score)
    (le : x ≤ score) : IsFirstMax (row ++ [x]) k score := by
  obtain ⟨inside, -⟩ := List.getElem?_eq_some_iff.mp max.attained
  constructor
  · rw [List.getElem?_append_left inside, max.attained]
  · intro s mem
    rcases List.mem_append.mp mem with mem | mem
    · exact max.bound s mem
    · exact List.mem_singleton.mp mem ▸ le
  · intro j s before found
    rw [List.getElem?_append_left (before.trans inside)] at found
    exact max.first j s before found

theorem isFirstMax_last {row : List α} {x : α} (greater : ∀ s ∈ row, s < x) :
    IsFirstMax (row ++ [x]) row.length x := by
  constructor
  · simp
  · intro s mem
    rcases List.mem_append.mp mem with mem | mem
    · exact (greater s mem).le
    · exact (List.mem_singleton.mp mem).le
  · intro j s before found
    rw [List.getElem?_append_left before] at found
    exact greater s (List.mem_of_getElem? found)

theorem scan_cases (start : α) (row : List α) :
    (scan start row = (start, none) ∧ ∀ s ∈ row, s ≤ start) ∨
      ∃ k score, scan start row = (score, some k) ∧ start < score ∧ IsFirstMax row k score := by
  induction row using List.reverseRecOn with
  | nil => exact .inl ⟨rfl, nofun⟩
  | append_singleton row x ih =>
      rw [scan_concat]
      rcases ih with ⟨none, below⟩ | ⟨k, score, found, above, max⟩
      · rw [none]
        by_cases beats : start < x
        · refine .inr ⟨row.length, x, if_pos beats, beats, isFirstMax_last fun s mem => ?_⟩
          exact (below s mem).trans_lt beats
        · refine .inl ⟨if_neg beats, fun s mem => ?_⟩
          rcases List.mem_append.mp mem with mem | mem
          · exact below s mem
          · exact List.mem_singleton.mp mem ▸ not_lt.mp beats
      · rw [found]
        by_cases beats : score < x
        · refine .inr ⟨row.length, x, if_pos beats, above.trans beats,
            isFirstMax_last fun s mem => ?_⟩
          exact (max.bound s mem).trans_lt beats
        · exact .inr ⟨k, score, if_neg beats, above, max.concat (not_lt.mp beats)⟩

end FirstMaximum
