import SospDemo.Library.FirstMaximum
import SospDemo.Engine.Synset

/-!
# The label of a photo

The scan ends at the first maximum of the output row, if that is above `-1e10`; otherwise `idx`
stays `-1`. Nothing ties the width of the row to the number of labels.
-/

namespace SospDemo
namespace EngineState
open FirstMaximum
variable {Net Exn : Type}

def index : Option Nat → Int
  | none => -1
  | some k => castInt k

theorem scanRow_eq (row : List ℚ) :
    scanRow row = ((scan (-10 ^ 10) row).1, index (scan (-10 ^ 10) row).2) := by
  induction row using List.reverseRecOn with
  | nil => rfl
  | append_singleton row x ih =>
      have last : scanRow (row ++ [x]) =
          if (scanRow row).1 < x then (x, castInt row.length) else scanRow row := by
        rw [scanRow, List.zipIdx_append, List.foldl_append, Nat.zero_add]
        rfl
      rw [last, scan_concat, ih, better]
      by_cases beats : (scan (-10 ^ 10) row).1 < x <;> simp only [beats, if_true, if_false, index]

theorem castInt_of_lt {k : Nat} (small : k < 2 ^ 31) : castInt k = k := by
  unfold castInt
  rw [Int.bmod_def]
  split <;> omega

theorem castInt_neg {k : Nat} (large : 2 ^ 31 ≤ k) (bound : k < 2 ^ 32) : castInt k < 0 := by
  unfold castInt
  rw [Int.bmod_def]
  split <;> omega

def MaximumLabelled (synsetVector : List Bytes) (row : OutputRow) : Prop :=
  ∃ k score, k < synsetVector.length ∧ k < 2 ^ 31 ∧ row.scores[k]? = some score ∧
    -10 ^ 10 < score ∧ ∀ s ∈ row.scores, s ≤ score

theorem castInt_le_of_nonneg {k : Nat} (bound : k < 2 ^ 32) (nonneg : 0 ≤ castInt k) :
    k < 2 ^ 31 ∧ castInt k = k := by
  have small : k < 2 ^ 31 := by
    by_contra large
    exact absurd nonneg (Int.not_le.mpr (castInt_neg (Nat.not_lt.mp large) bound))
  exact ⟨small, castInt_of_lt small⟩

theorem maximumLabelled_iff_first {synsetVector : List Bytes} {row : OutputRow} {k : Nat}
    {score : ℚ} (max : IsFirstMax row.scores k score) (above : -10 ^ 10 < score) :
    MaximumLabelled synsetVector row ↔ k < synsetVector.length ∧ k < 2 ^ 31 := by
  constructor
  · rintro ⟨k', score', labelled, small, attained, -, bound⟩
    -- the first maximum is not behind any other
    have le : k ≤ k' := by
      by_contra behind
      have less := max.first k' score' (Nat.not_le.mp behind) attained
      exact absurd (bound _ (List.mem_of_getElem? max.attained)) (not_le.mpr less)
    exact ⟨le.trans_lt labelled, le.trans_lt small⟩
  · rintro ⟨labelled, small⟩
    exact ⟨k, score, labelled, small, max.attained, above, max.bound⟩

theorem in_range_iff (synsetVector : List Bytes) (row : OutputRow) :
    (0 ≤ (scanRow row.scores).2 ∧ (scanRow row.scores).2 < synsetVector.length) ↔
      MaximumLabelled synsetVector row := by
  rw [scanRow_eq]
  rcases scan_cases (-10 ^ 10) row.scores with ⟨none, below⟩ | ⟨k, score, found, above, max⟩
  · rw [none]
    constructor
    · rintro ⟨nonneg, -⟩
      cases nonneg
    · rintro ⟨k, score, -, -, attained, above, -⟩
      exact absurd (below score (List.mem_of_getElem? attained)) (not_le.mpr above)
  · obtain ⟨inside, -⟩ := List.getElem?_eq_some_iff.mp max.attained
    rw [found, maximumLabelled_iff_first max above]
    dsimp only [index]
    constructor
    · rintro ⟨nonneg, labelled⟩
      obtain ⟨small, same⟩ := castInt_le_of_nonneg (inside.trans row.width_lt) nonneg
      rw [same] at labelled
      exact ⟨Int.ofNat_lt.mp labelled, small⟩
    · rintro ⟨labelled, small⟩
      rw [castInt_of_lt small]
      exact ⟨Int.natCast_nonneg k, Int.ofNat_lt.mpr labelled⟩

theorem first_of_nonneg {row : OutputRow} (nonneg : 0 ≤ (scanRow row.scores).2) :
    IsFirstMax row.scores (scanRow row.scores).2.toNat (scanRow row.scores).1 := by
  rw [scanRow_eq] at nonneg ⊢
  rcases scan_cases (-10 ^ 10) row.scores with ⟨none, -⟩ | ⟨k, score, found, -, max⟩
  · rw [none] at nonneg
    cases nonneg
  · obtain ⟨inside, -⟩ := List.getElem?_eq_some_iff.mp max.attained
    rw [found] at nonneg ⊢
    dsimp only [index] at nonneg ⊢
    have position : (castInt k).toNat = k := by
      rw [(castInt_le_of_nonneg (inside.trans row.width_lt) nonneg).2, Int.toNat_natCast]
    rwa [position]

theorem loadModel_eq_zero {mx : MxNet Net Exn} {before after : EngineState Net} {model : Model}
    (loads : loadModel mx before model = (0, after)) :
    after.synsetVector = model.getSynsetVector before.synsetVector := by
  unfold loadModel at loads
  split at loads
  · exact (congrArg (fun result => result.2.synsetVector) loads).symm
  · cases loads

theorem label_real_iff (mx : MxNet Net Exn) (before after : EngineState Net) (model : Model)
    (loads : loadModel mx before model = (0, after)) (row : OutputRow) :
    (0 ≤ (scanRow row.scores).2 ∧ (scanRow row.scores).2 < after.synsetVector.length ∧
        ∃ score, IsFirstMax row.scores (scanRow row.scores).2.toNat score) ↔
      MaximumLabelled (model.getSynsetVector []) row := by
  have synset : after.synsetVector = model.getSynsetVector [] := loadModel_eq_zero loads
  rw [synset, ← in_range_iff]
  constructor
  · rintro ⟨nonneg, labelled, -⟩
    exact ⟨nonneg, labelled⟩
  · rintro ⟨nonneg, labelled⟩
    exact ⟨nonneg, labelled, _, first_of_nonneg nonneg⟩

theorem construct_eq_ok {mx : MxNet Net Exn} {e : EngineState Net} {model : Model}
    (built : construct mx model = .ok e) : e.synsetVector = model.getSynsetVector [] := by
  unfold construct at built
  cases loads : loadModel mx ⟨[], none⟩ model with
  | mk ret after =>
      rw [loads] at built
      by_cases zero : ret = 0
      · subst zero
        cases built
        exact loadModel_eq_zero loads
      · simp only [ne_eq, zero, not_false_eq_true, if_true] at built
        cases built

def sampleMxNet (row : OutputRow) : MxNet Unit Unit := ⟨fun _ _ => .ok (), fun _ _ => .ok row⟩

def twoLabels : Model := ⟨4, 0, 0, ⟨[97, 10, 98, 10]⟩⟩

theorem getSynsetVector_twoLabels : twoLabels.getSynsetVector [] = [[97], [98]] := by
  rw [Model.getSynsetVector_eq]
  decide

def twoClasses : OutputRow := ⟨[1 / 2, 2], by decide⟩

def threeClasses : OutputRow := ⟨[1, 1 / 2, 2], by decide⟩

theorem scanRow_threeClasses : scanRow threeClasses.scores = (2, 2) := by
  decide +kernel

theorem missing_label_subscripted :
    ∃ after, loadModel (sampleMxNet threeClasses) ⟨[], none⟩ twoLabels = (0, after) ∧
      (scanRow threeClasses.scores).2 = 2 ∧ after.synsetVector.length = 2 ∧
      inference (sampleMxNet threeClasses) after ⟨7, ⟨[9]⟩⟩ = .error .undefined := by
  refine ⟨⟨twoLabels.getSynsetVector [], some ()⟩, rfl, by rw [scanRow_threeClasses], ?_, ?_⟩
  · simp only [getSynsetVector_twoLabels, List.length_cons, List.length_nil]
  · simp only [inference, sampleMxNet, scanRow_threeClasses, getSynsetVector_twoLabels]
    rfl

theorem twoClasses_labelled :
    0 ≤ (scanRow twoClasses.scores).2 ∧
      (scanRow twoClasses.scores).2 < (twoLabels.getSynsetVector []).length := by
  have labelled : MaximumLabelled (twoLabels.getSynsetVector []) twoClasses := by
    rw [getSynsetVector_twoLabels]
    exact ⟨1, 2, by decide, by decide, rfl, by norm_num, by norm_num [twoClasses]⟩
  obtain ⟨nonneg, inside, -⟩ := (label_real_iff (sampleMxNet twoClasses) ⟨[], none⟩ _ twoLabels rfl
    twoClasses).mpr labelled
  exact ⟨nonneg, inside⟩

end EngineState
end SospDemo
