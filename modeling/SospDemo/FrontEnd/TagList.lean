import Mathlib.Data.List.TakeWhile
import SospDemo.Library.Pieces
import SospDemo.Upload.Client

namespace SospDemo
open Pieces

theorem takeWhile_stop {α : Type*} {p : α → Bool} {x : α} (stops : p x = false) (xs rest : List α) :
    (xs ++ x :: rest).takeWhile p = xs.takeWhile p := by
  induction xs with
  | nil => simp [stops]
  | cons y ys ih => by_cases goes : p y <;> simp [goes, ih]

theorem dropWhile_stop {α : Type*} {p : α → Bool} {x : α} (stops : p x = false) (xs rest : List α) :
    (xs ++ x :: rest).dropWhile p = xs.dropWhile p ++ x :: rest := by
  induction xs with
  | nil => simp [stops]
  | cons y ys ih => by_cases goes : p y <;> simp [goes, ih]

/-! ## `atoi` in its three parts -/

def sign : Bytes → Bool × Bytes
  | 45 :: rest => (true, rest)
  | 43 :: rest => (false, rest)
  | text => (false, text)

def digitValue (text : Bytes) : Nat :=
  (text.takeWhile isDigit).foldl (fun n c => 10 * n + (c.toNat - 48)) 0

def saturate (negative : Bool) (value : Nat) : Int :=
  if negative then max (-2 ^ 63) (-value) else min (2 ^ 63 - 1) value

theorem atoi_eq (text : Bytes) :
    atoi text = (saturate (sign (text.dropWhile isSpace)).1
      (digitValue (sign (text.dropWhile isSpace)).2)).bmod (2 ^ 32) := by
  unfold atoi
  generalize text.dropWhile isSpace = unspaced
  dsimp only
  split
  · rfl
  · rfl
  · rename_i minus plus
    have unsigned : sign unspaced = (false, unspaced) := sign.eq_3 unspaced minus plus
    rw [unsigned]
    rfl

theorem sign_comma (text rest : Bytes) :
    sign (text ++ 44 :: rest) = ((sign text).1, (sign text).2 ++ 44 :: rest) := by
  cases text with
  | nil => rfl
  | cons first text =>
      by_cases minus : first = 45
      · subst minus
        rfl
      · by_cases plus : first = 43
        · subst plus
          rfl
        · simp [sign, minus, plus]

theorem atoi_comma (piece rest : Bytes) : atoi (piece ++ 44 :: rest) = atoi piece := by
  rw [atoi_eq, atoi_eq, dropWhile_stop (by decide), sign_comma, digitValue, digitValue,
    takeWhile_stop (by decide)]

/-! ## The loop over the pieces -/

def tagOf (piece : Bytes) : UInt32 := UInt32.ofInt (atoi piece)

theorem addTags_of_not_mem {text : Bytes} (last : 44 ∉ text) : addTags text = [tagOf text] := by
  have none : text.findIdx? (· = 44) = none := by
    rw [List.findIdx?_eq_none_iff]
    intro c mem
    exact decide_eq_false fun same => last (same ▸ mem)
  rw [addTags, none]
  rfl

theorem addTags_comma {piece rest : Bytes} (unseparated : 44 ∉ piece) :
    addTags (piece ++ 44 :: rest) =
      if rest = [] then [tagOf piece] else tagOf piece :: addTags rest := by
  have found : (piece ++ 44 :: rest).findIdx? (· = 44) = some piece.length := by
    have before : piece.findIdx? (· = 44) = none := by
      rw [List.findIdx?_eq_none_iff]
      intro c mem
      exact decide_eq_false fun same => unseparated (same ▸ mem)
    simp [List.findIdx?_append, before, List.findIdx?_cons]
  have erased : (piece ++ 44 :: rest).drop (piece.length + 1) = rest := by
    rw [← List.drop_drop, List.drop_left]
    rfl
  rw [addTags, found]
  simp only [erased, atoi_comma, tagOf]

theorem addTags_eq (tagsString : Bytes) :
    addTags tagsString = (pieces 44 tagsString).map tagOf := by
  induction tagsString using separated_induction (44 : UInt8) with
  | last text unseparated =>
      rw [addTags_of_not_mem unseparated, pieces_of_not_mem unseparated]
      rfl
  | piece piece rest unseparated ih =>
      rw [addTags_comma unseparated]
      by_cases last : rest = []
      · subst last
        rw [if_pos rfl, pieces_closed unseparated]
        rfl
      · rw [if_neg last, pieces_cons unseparated last, ih]
        rfl

/-! ## Rendered lists -/

def decimal (tag : UInt32) : Bytes := (Nat.toDigits 10 tag.toNat).map fun c => c.toNat.toUInt8

theorem toNat_digit {c : Char} (digit : c.isDigit) :
    c.toNat.toUInt8.toNat = c.toNat ∧ 48 ≤ c.toNat ∧ c.toNat ≤ 57 := by
  obtain ⟨low, high⟩ := Char.isDigit_iff_toNat.mp digit
  have low : 48 ≤ c.toNat := low
  have high : c.toNat ≤ 57 := high
  refine ⟨?_, low, high⟩
  rw [Nat.toUInt8_eq, UInt8.toNat_ofNat']
  omega

theorem isDigit_decimal {tag : UInt32} {c : UInt8} (mem : c ∈ decimal tag) : isDigit c := by
  obtain ⟨char, charMem, rfl⟩ := List.mem_map.mp mem
  obtain ⟨value, low, high⟩ :=
    toNat_digit (Nat.isDigit_of_mem_toDigits (by decide) (by decide) charMem)
  simp only [isDigit, Bool.and_eq_true, decide_eq_true_eq, UInt8.le_iff_toNat_le, value]
  exact ⟨low, high⟩

theorem digitValue_decimal (tag : UInt32) : digitValue (decimal tag) = tag.toNat := by
  rw [digitValue, List.takeWhile_eq_self_iff.mpr fun c mem => isDigit_decimal mem, decimal,
    List.foldl_map]
  calc (Nat.toDigits 10 tag.toNat).foldl (fun n c => 10 * n + (c.toNat.toUInt8.toNat - 48)) 0
      = Nat.ofDigitChars 10 (Nat.toDigits 10 tag.toNat) 0 := by
        refine List.foldl_ext _ _ _ fun n c mem => ?_
        rw [(toNat_digit (Nat.isDigit_of_mem_toDigits (by decide) (by decide) mem)).1]
        rfl
    _ = tag.toNat := Nat.ofDigitChars_ten_toDigits

theorem sign_decimal (tag : UInt32) :
    sign ((decimal tag).dropWhile isSpace) = (false, decimal tag) := by
  cases text : decimal tag with
  | nil => exact absurd (List.map_eq_nil_iff.mp text) Nat.toDigits_ne_nil
  | cons first rest =>
      have digit : isDigit first := isDigit_decimal (text ▸ List.mem_cons_self ..)
      simp only [isDigit, Bool.and_eq_true, decide_eq_true_eq, UInt8.le_iff_toNat_le] at digit
      have solid : isSpace first = false := by
        simp only [isSpace, Bool.or_eq_false_iff, Bool.and_eq_false_iff, decide_eq_false_iff_not,
          UInt8.le_iff_toNat_le, ← UInt8.toNat_inj]
        have low : 48 ≤ first.toNat := digit.1
        exact ⟨by rintro (same : _ = 32); omega, .inr fun (high : _ ≤ 13) => by omega⟩
      rw [List.dropWhile_cons_of_neg (by simp [solid])]
      refine sign.eq_3 _ ?_ ?_
      · rintro _ same
        obtain ⟨rfl, -⟩ := List.cons.inj same
        exact absurd digit (by decide)
      · rintro _ same
        obtain ⟨rfl, -⟩ := List.cons.inj same
        exact absurd digit (by decide)

theorem tagOf_decimal (tag : UInt32) : tagOf (decimal tag) = tag := by
  have bound := tag.toNat_lt
  have long : saturate false tag.toNat = tag.toNat := by
    simp only [saturate, Bool.false_eq_true, if_false]
    omega
  have residue : (tag.toNat : Int).bmod (2 ^ 32) % 2 ^ 32 = tag.toNat := by
    show _ % ((2 ^ 32 : Nat) : Int) = _
    rw [Int.bmod_emod]
    omega
  rw [tagOf, atoi_eq, sign_decimal, digitValue_decimal, long, UInt32.ofInt, residue,
    Int.toNat_natCast, UInt32.ofNat_toNat]

theorem tags_of_mem_written {tagsString : Bytes} {photoFile : File} {writes : Nat → Bool}
    {m : PhotoMetadata} (mem : .metadata m ∈ (clientInference tagsString photoFile writes).1) :
    m.tags = addTags tagsString := by
  by_cases readable : photoFile.Readable
  · rw [clientInference_readable readable] at mem
    have sent := (sendUpload_written _ _ _).1.subset mem
    rcases List.mem_cons.mp sent with same | chunk
    · rw [Request.metadata.inj same]
      rfl
    · obtain ⟨data, -, impossible⟩ := List.mem_map.mp chunk
      cases impossible
  · have invalid := Int.not_le.mp (validateReadableFile_nonneg.not.mpr readable)
    rw [clientInference] at mem
    simp [invalid] at mem

theorem tags_parsed_as_written :
    (∀ tagsString : Bytes,
      addTags tagsString = (pieces 44 tagsString).map (fun piece => UInt32.ofInt (atoi piece)) ∧
      addTags tagsString ≠ []) ∧
    (∀ (tagsString : Bytes) (photoFile : File) (writes : Nat → Bool) (m : PhotoMetadata),
      .metadata m ∈ (clientInference tagsString photoFile writes).1 → m.tags = addTags tagsString) ∧
    ∀ tags : List UInt32, tags ≠ [] → addTags ([44].intercalate (tags.map decimal)) = tags := by
  refine ⟨fun tagsString => ⟨addTags_eq tagsString, ?_⟩, fun _ _ _ _ => tags_of_mem_written, ?_⟩
  · rw [addTags_eq, ne_eq, List.map_eq_nil_iff]
    exact pieces_ne_nil 44 tagsString
  · intro tags some_tag
    have unseparated : ∀ text ∈ tags.map decimal, 44 ∉ text := by
      intro text mem comma
      obtain ⟨tag, -, rfl⟩ := List.mem_map.mp mem
      exact absurd (isDigit_decimal comma) (by decide)
    have open_end : (tags.map decimal).getLast? ≠ some [] := by
      intro closed
      obtain ⟨tag, -, empty⟩ := List.mem_map.mp (List.mem_of_getLast? closed)
      exact Nat.toDigits_ne_nil (List.map_eq_nil_iff.mp empty)
    rw [addTags_eq, pieces_intercalate unseparated (by simpa using some_tag) open_end, List.map_map]
    exact (List.map_congr_left fun tag _ => tagOf_decimal tag).trans tags.map_id

end SospDemo
