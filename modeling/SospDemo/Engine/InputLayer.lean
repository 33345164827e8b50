import SospDemo.Model.MxNetEngine

namespace SospDemo

def Mat.channel (mat : Mat) (row col c : Nat) : UInt8 :=
  mat.data.getD ((row * mat.cols + col) * 3 + c) 0

theorem Mat.getElem?_channel (mat : Mat) (row col c : Nat) (inRows : row < mat.rows)
    (inCols : col < mat.cols) (colour : c < 3) :
    mat.data[(row * mat.cols + col) * 3 + c]? = some (mat.channel row col c) := by
  have pixelInside : row * mat.cols + col < mat.rows * mat.cols := by
    have rowEnd := Nat.mul_le_mul_right mat.cols (Nat.succ_le_of_lt inRows)
    rw [Nat.succ_mul] at rowEnd
    omega
  have inside : (row * mat.cols + col) * 3 + c < mat.data.length := by
    rw [mat.length_data]
    omega
  rw [Mat.channel, List.getD_eq_getElem?_getD, List.getElem?_eq_getElem inside, Option.getD_some]

namespace MxNetEngine
variable {Exn : Type}

/-- Red, green, blue for `c = 0, 1, 2`. -/
def cropped (mat : Mat) : List Nat → ℚ
  | [c, i, j] => ((mat.channel (i + 16) (j + 16) (2 - c)).toNat : ℚ) / 256
  | _ => 0

def crop (mat : Mat) : List ℚ :=
  (List.range inputShape.prod).map fun k => cropped mat (RowMajor.index [3, 224, 224] k)

def pushed (mat : Mat) : List Nat → Except (EngineException Exn) ℚ
  | [c, i, j] => do
      let b ← pixel mat (((i + 16) * 256 + (j + 16)) * 3 + (2 - c))
      return (b.toNat : ℚ) / 256
  | _ => .error .undefined

theorem inputArray_eq_loops (mat : Mat) :
    (inputArray mat : Except (EngineException Exn) _) =
      RowMajor.loops [3, 224, 224] (pushed mat) [] := by
  unfold inputArray
  simp only [RowMajor.loops]
  congr 1
  funext array c
  congr 1
  funext array i
  congr 1
  funext array j
  simp only [pushed]
  cases (pixel mat _ : Except (EngineException Exn) UInt8) <;> rfl

theorem pushed_eq {mat : Mat} (size : mat.rows = 256 ∧ mat.cols = 256) {idx : List Nat}
    (inside : RowMajor.Inside [3, 224, 224] idx) :
    (pushed mat idx : Except (EngineException Exn) ℚ) = .ok (cropped mat idx) := by
  obtain _ | ⟨colour, _ | ⟨inRows, _ | ⟨inCols, _ | _⟩⟩⟩ := inside
  rename_i c i j
  have found := mat.getElem?_channel (i + 16) (j + 16) (2 - c) (by omega) (by omega)
    (by omega)
  rw [size.2] at found
  simp only [pushed, pixel, found]
  rfl

theorem inputArray_eq_crop (mat : Mat.Sized 256 256) :
    (inputArray mat.val : Except (EngineException Exn) _) = .ok (crop mat.val) := by
  have volume : [3, 224, 224].prod = inputShape.prod := by simp [inputShape]
  rw [inputArray_eq_loops, RowMajor.loops_eq fun idx => pushed_eq mat.property, volume, crop,
    List.nil_append]

@[simp] theorem length_crop (mat : Mat) : (crop mat).length = inputShape.prod := by
  rw [crop, List.length_map, List.length_range]

theorem getElem?_crop (mat : Mat) (c : Fin 3) (i j : Fin 224) :
    (crop mat)[(c.val * 224 + i.val) * 224 + j.val]? = some (cropped mat [c.val, i.val, j.val]) := by
  have inside : (c.val * 224 + i.val) * 224 + j.val < inputShape.prod := by
    have volume : inputShape.prod = 150528 := by simp [inputShape]
    omega
  have place : RowMajor.index [3, 224, 224] ((c.val * 224 + i.val) * 224 + j.val) =
      [c.val, i.val, j.val] := by
    simp only [RowMajor.index, List.prod_cons, List.prod_nil, List.cons.injEq, and_true]
    omega
  rw [crop, List.getElem?_map, List.getElem?_range inside, Option.map_some, place]

theorem input_layer_filled (mat : Mat.Sized 256 256) :
    ∃ array, (inputArray mat.val : Except (EngineException Exn) (List ℚ)) = .ok array ∧
      array.length = inputShape.prod ∧
      (∀ (c : Fin 3) (i j : Fin 224), array[(c.val * 224 + i.val) * 224 + j.val]? =
        some (((mat.val.channel (i.val + 16) (j.val + 16) (2 - c.val)).toNat : ℚ) / 256)) ∧
      ∀ x ∈ array, 0 ≤ x ∧ x < 1 := by
  refine ⟨crop mat.val, inputArray_eq_crop mat, length_crop _, getElem?_crop mat.val, ?_⟩
  intro x mem
  obtain ⟨k, -, rfl⟩ := List.mem_map.mp mem
  unfold cropped
  split
  · rename_i c i j _
    have byte : ((mat.val.channel (i + 16) (j + 16) (2 - c)).toNat : ℚ) < 256 := by
      exact_mod_cast UInt8.toNat_lt _
    exact ⟨by positivity, (div_lt_one (by norm_num)).mpr byte⟩
  · norm_num

end MxNetEngine
end SospDemo
