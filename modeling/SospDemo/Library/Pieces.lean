import Mathlib.Tactic

/-!
# Separated texts

The pieces of a text between its separators. A separator at the very end closes the last piece
and does not open an empty one.
-/

namespace Pieces
variable {α : Type*} [DecidableEq α]

def pieces (sep : α) (text : List α) : List (List α) :=
  let parts := text.splitOn sep
  if parts.length > 1 ∧ parts.getLast? = some [] then parts.dropLast else parts

/-- The pieces where a text that is empty has none. -/
def lines (sep : α) (text : List α) : List (List α) :=
  if text = [] then [] else pieces sep text

variable {sep : α} {piece rest : List α}

@[elab_as_elim] theorem separated_induction (sep : α) {motive : List α → Prop}
    (last : ∀ text, sep ∉ text → motive text)
    (piece : ∀ piece rest, sep ∉ piece → motive rest → motive (piece ++ sep :: rest))
    (text : List α) : motive text := by
  induction length : text.length using Nat.strong_induction_on generalizing text with
  | _ n ih =>
      by_cases separated : sep ∈ text
      · obtain ⟨first, rest, rfl, unseparated⟩ := List.eq_append_cons_of_mem separated
        have shorter : rest.length < n := by
          rw [← length, List.length_append, List.length_cons]
          omega
        exact piece first rest unseparated (ih _ shorter rest rfl)
      · exact last text separated

theorem pieces_of_not_mem (unseparated : sep ∉ piece) : pieces sep piece = [piece] := by
  simp [pieces, List.splitOn_eq_singleton unseparated]

theorem pieces_closed (unseparated : sep ∉ piece) : pieces sep (piece ++ [sep]) = [piece] := by
  simp [pieces, List.splitOn_append_cons_self_of_not_mem unseparated]

theorem pieces_cons (unseparated : sep ∉ piece) (more : rest ≠ []) :
    pieces sep (piece ++ sep :: rest) = piece :: pieces sep rest := by
  rw [pieces, pieces, List.splitOn_append_cons_self_of_not_mem unseparated]
  cases parts : rest.splitOn sep with
  | nil => exact absurd parts (List.splitOn_ne_nil sep rest)
  | cons first others =>
      cases others with
      | nil =>
          -- the one part is the rest itself
          have whole : [sep].intercalate (rest.splitOn sep) = rest := List.intercalate_splitOn sep
          rw [parts] at whole
          obtain rfl : first = rest := by simpa using whole
          simp [more]
      | cons second others =>
          by_cases closed : (second :: others).getLast? = some [] <;> simp [closed]

theorem pieces_ne_nil (sep : α) (text : List α) : pieces sep text ≠ [] := by
  unfold pieces
  dsimp only
  split
  · rename_i several
    intro none
    have length := congrArg List.length none
    simp only [List.length_dropLast, List.length_nil] at length
    omega
  · exact List.splitOn_ne_nil sep text

theorem pieces_intercalate {texts : List (List α)} (unseparated : ∀ text ∈ texts, sep ∉ text)
    (some_text : texts ≠ []) (open_end : texts.getLast? ≠ some []) :
    pieces sep ([sep].intercalate texts) = texts := by
  rw [pieces, List.splitOn_intercalate sep unseparated some_text]
  simp [open_end]

@[simp] theorem lines_nil : lines sep ([] : List α) = [] := by
  simp [lines]

theorem lines_of_not_mem (unterminated : sep ∉ piece) (nonempty : piece ≠ []) :
    lines sep piece = [piece] := by
  rw [lines, if_neg nonempty, pieces_of_not_mem unterminated]

theorem lines_cons (unseparated : sep ∉ piece) :
    lines sep (piece ++ sep :: rest) = piece :: lines sep rest := by
  rw [lines, if_neg (List.append_ne_nil_of_right_ne_nil _ (List.cons_ne_nil _ _))]
  by_cases last : rest = []
  · subst last
    rw [pieces_closed unseparated, lines_nil]
  · rw [pieces_cons unseparated last, lines, if_neg last]

theorem mem_of_mem_lines {text line : List α} (mem : line ∈ lines sep text) {c : α}
    (inside : c ∈ line) : c ∈ text := by
  induction text using separated_induction sep with
  | last text unseparated =>
      by_cases empty : text = []
      · subst empty
        cases mem
      · rw [lines_of_not_mem unseparated empty] at mem
        exact List.mem_singleton.mp mem ▸ inside
  | piece piece rest unseparated ih =>
      rw [lines_cons unseparated] at mem
      rcases List.mem_cons.mp mem with rfl | later
      · exact List.mem_append_left _ inside
      · exact List.mem_append_right _ (List.mem_cons_of_mem _ (ih later))

end Pieces
