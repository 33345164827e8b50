import Mathlib.Data.List.TakeWhile
import SospDemo.Library.Pieces
import SospDemo.Model.InferenceEngine

/-!
# The lines of a synset

A line that fits the buffer is read and appended. The first line of more than 255 bytes sets
`failbit`, so the loop ends there: the line and all lines behind it are missing.
-/

namespace SospDemo
open Pieces

namespace IStringStream

theorem extract_line {line : Bytes} (one : 10 ∉ line) (rest : Bytes) {room : Nat}
    (fits : line.length ≤ room) :
    extract (line ++ 10 :: rest) room = (line, ⟨rest, false, false⟩) := by
  induction line generalizing room with
  | nil => cases room <;> rfl
  | cons c line ih =>
      obtain ⟨different, one⟩ := not_or.mp (List.mem_cons.not.mp one)
      cases room with
      | zero => cases fits
      | succ room =>
          have stored := ih one (Nat.le_of_succ_le_succ fits)
          simp [extract, Ne.symm different, stored]

theorem extract_last {line : Bytes} (one : 10 ∉ line) {room : Nat} (fits : line.length ≤ room) :
    extract line room = (line, ⟨[], true, false⟩) := by
  induction line generalizing room with
  | nil => cases room <;> rfl
  | cons c line ih =>
      obtain ⟨different, one⟩ := not_or.mp (List.mem_cons.not.mp one)
      cases room with
      | zero => cases fits
      | succ room =>
          have stored := ih one (Nat.le_of_succ_le_succ fits)
          simp [extract, Ne.symm different, stored]

theorem extract_long {line : Bytes} (one : 10 ∉ line) (rest : Bytes) {room : Nat}
    (long : room < line.length) : (extract (line ++ rest) room).2.failbit = true := by
  induction line generalizing room with
  | nil => cases long
  | cons c line ih =>
      obtain ⟨different, one⟩ := not_or.mp (List.mem_cons.not.mp one)
      cases room with
      | zero => simp [extract, Ne.symm different]
      | succ room =>
          have fails := ih one (Nat.lt_of_succ_lt_succ long)
          simp [extract, Ne.symm different, fails]

theorem getline_line {line : Bytes} (one : 10 ∉ line) (rest : Bytes) (fits : line.length ≤ 255) :
    (⟨line ++ 10 :: rest, false, false⟩ : IStringStream).getline 256 =
      (line, ⟨rest, false, false⟩) := by
  simp only [getline, extract_line one rest fits]
  rw [if_neg (by decide), if_neg]
  simp only [List.length_append, List.length_cons]
  omega

theorem getline_last {line : Bytes} (one : 10 ∉ line) (nonempty : line ≠ [])
    (fits : line.length ≤ 255) :
    (⟨line, false, false⟩ : IStringStream).getline 256 = (line, ⟨[], true, false⟩) := by
  have some_left := List.length_pos_iff.mpr nonempty
  simp only [getline, extract_last one fits]
  rw [if_neg (by decide), if_neg]
  simp only [List.length_nil]
  omega

theorem getline_long {line : Bytes} (one : 10 ∉ line) (rest : Bytes) (long : 255 < line.length) :
    ((⟨line ++ rest, false, false⟩ : IStringStream).getline 256).2.failbit = true := by
  have fails := extract_long one rest long
  simp only [getline, Bool.or_self, Bool.false_eq_true, if_false]
  split
  · rfl
  · exact fails

end IStringStream

namespace Model

theorem synsetLoop_failed {iss : IStringStream} (fails : (iss.getline 256).2.failbit = true)
    (synsetVector : List Bytes) : synsetLoop iss synsetVector = synsetVector := by
  rw [synsetLoop, if_neg (by simp [fails])]

theorem synsetLoop_line {line : Bytes} (one : 10 ∉ line) (rest : Bytes) (fits : line.length ≤ 255)
    (synsetVector : List Bytes) :
    synsetLoop ⟨line ++ 10 :: rest, false, false⟩ synsetVector =
      synsetLoop ⟨rest, false, false⟩ (synsetVector ++ [cString line]) := by
  rw [synsetLoop, IStringStream.getline_line one rest fits, if_pos rfl]

theorem synsetLoop_last {line : Bytes} (one : 10 ∉ line) (nonempty : line ≠ [])
    (fits : line.length ≤ 255) (synsetVector : List Bytes) :
    synsetLoop ⟨line, false, false⟩ synsetVector = synsetVector ++ [cString line] := by
  rw [synsetLoop, IStringStream.getline_last one nonempty fits, if_pos rfl]
  exact synsetLoop_failed rfl _

def fitsBuffer (line : Bytes) : Bool := line.length ≤ 255

theorem fitsBuffer_iff {line : Bytes} : fitsBuffer line ↔ line.length ≤ 255 := decide_eq_true_iff

theorem synsetLoop_eq (text : Bytes) (synsetVector : List Bytes) :
    synsetLoop ⟨text, false, false⟩ synsetVector =
      synsetVector ++ ((lines 10 text).takeWhile fitsBuffer).map cString := by
  induction text using separated_induction (10 : UInt8) generalizing synsetVector with
  | last text one =>
      by_cases empty : text = []
      · subst empty
        rw [synsetLoop_failed rfl]
        simp
      · rw [lines_of_not_mem one empty]
        by_cases fits : text.length ≤ 255
        · rw [synsetLoop_last one empty fits,
            List.takeWhile_cons_of_pos (fitsBuffer_iff.mpr fits)]
          rfl
        · have fails := IStringStream.getline_long one [] (Nat.not_le.mp fits)
          rw [List.append_nil] at fails
          rw [synsetLoop_failed fails,
            List.takeWhile_cons_of_neg (fitsBuffer_iff.not.mpr fits)]
          simp
  | piece line rest one ih =>
      rw [lines_cons one]
      by_cases fits : line.length ≤ 255
      · rw [synsetLoop_line one rest fits, ih,
          List.takeWhile_cons_of_pos (fitsBuffer_iff.mpr fits), List.map_cons, List.append_assoc]
        rfl
      · rw [synsetLoop_failed (IStringStream.getline_long one _ (Nat.not_le.mp fits)),
          List.takeWhile_cons_of_neg (fitsBuffer_iff.not.mpr fits)]
        simp

theorem getSynsetVector_eq (m : Model) (synsetVector : List Bytes) :
    m.getSynsetVector synsetVector =
      ((lines 10 m.synsetString).takeWhile fitsBuffer).map cString :=
  synsetLoop_eq m.synsetString []

theorem cString_of_not_mem {text : Bytes} (noNul : 0 ∉ text) : cString text = text := by
  refine List.takeWhile_eq_self_iff.mpr fun c mem => decide_eq_true fun zero => ?_
  exact noNul (zero ▸ mem)

theorem getSynsetVector_of_noNul {m : Model} (noNul : 0 ∉ m.synsetString)
    (synsetVector : List Bytes) :
    m.getSynsetVector synsetVector = (lines 10 m.synsetString).takeWhile fitsBuffer := by
  rw [getSynsetVector_eq]
  refine (List.map_congr_left fun line mem => ?_).trans (List.map_id _)
  have isLine := (List.takeWhile_prefix _).subset mem
  exact cString_of_not_mem fun zero => noNul (mem_of_mem_lines isLine zero)

theorem synset_complete_iff (m : Model) (noNul : 0 ∉ m.synsetString) (synsetVector : List Bytes) :
    m.getSynsetVector synsetVector = lines 10 m.synsetString ↔
      ∀ line ∈ lines 10 m.synsetString, line.length ≤ 255 := by
  rw [getSynsetVector_of_noNul noNul, List.takeWhile_eq_self_iff]
  exact forall₂_congr fun line _ => fitsBuffer_iff

def longLine (n : Nat) : Model := ⟨n + 2, 0, 0, ⟨List.replicate n 97 ++ [10, 98]⟩⟩

theorem synsetString_longLine (n : Nat) :
    (longLine n).synsetString = List.replicate n 97 ++ 10 :: [98] := by
  refine List.take_of_length_le ?_
  simp only [longLine, List.length_append, List.length_replicate, List.length_cons, List.length_nil]
  omega

theorem lines_longLine (n : Nat) :
    lines 10 (longLine n).synsetString = [List.replicate n 97, [98]] := by
  rw [synsetString_longLine, lines_cons (by simp), lines_of_not_mem (by decide) (by decide)]

theorem getSynsetVector_longLine {n : Nat} (long : 255 < n) :
    (longLine n).getSynsetVector [] = [] := by
  rw [getSynsetVector_eq, lines_longLine, List.takeWhile_cons_of_neg]
  · rfl
  · rw [fitsBuffer_iff, List.length_replicate]
    omega

theorem longLine_loses_labels :
    0 ∉ (longLine 256).synsetString ∧ (longLine 256).getSynsetVector [] = [] ∧
      lines 10 (longLine 256).synsetString = [List.replicate 256 97, [98]] := by
  refine ⟨?_, getSynsetVector_longLine (by decide), lines_longLine 256⟩
  rw [synsetString_longLine, List.mem_append, not_or]
  exact ⟨fun zero => absurd (List.eq_of_mem_replicate zero) (by decide), by decide⟩

theorem shortLines_complete :
    let m : Model := ⟨4, 0, 0, ⟨[97, 10, 10, 98]⟩⟩
    m.getSynsetVector [[99]] = [[97], [], [98]] :=
  (synset_complete_iff ⟨4, 0, 0, ⟨[97, 10, 10, 98]⟩⟩ (by decide) [[99]]).mpr (by decide)

end Model
end SospDemo
