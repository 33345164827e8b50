import SospDemo.Model.CategorizerTier

/-!
# The inference engine

`Model::get_synset_vector` of `inference_engine.hpp`, and `inference_engine.cpp` around what MXNet
and OpenCV compute. Scores are exact rationals.
-/

namespace SospDemo

structure IStringStream where
  rest : Bytes
  eofbit : Bool
  failbit : Bool
  deriving DecidableEq

namespace IStringStream

def ofString (s : Bytes) : IStringStream := ⟨s, false, false⟩

/-- The characters `getline` stores, with room for `room` of them. The end of the input is tested
first, then the delimiter, then the room. -/
def extract : Bytes → Nat → Bytes × IStringStream
  | [], _ => ([], ⟨[], true, false⟩)
  | c :: rest, room =>
      if c = 10 then ([], ⟨rest, false, false⟩)
      else
        match room with
        | 0 => ([], ⟨c :: rest, false, true⟩)
        | room + 1 =>
            let (stored, iss) := extract rest room
            (c :: stored, iss)

/-- `getline(buf, n)`. It fails on a stream that is not good, and where it extracts nothing. -/
def getline (iss : IStringStream) (n : Nat) : Bytes × IStringStream :=
  if iss.eofbit || iss.failbit then ([], { iss with failbit := true })
  else
    let (stored, next) := extract iss.rest (n - 1)
    if next.rest.length = iss.rest.length then (stored, { next with failbit := true })
    else (stored, next)

theorem extract_length_le (text : Bytes) (room : Nat) :
    (extract text room).2.rest.length ≤ text.length := by
  fun_induction extract text room with
  | case1 => simp
  | case2 => simp
  | case3 => simp
  | case4 c rest delimiter room stored iss found ih =>
      rw [found] at ih
      exact ih.trans (Nat.le_succ _)

theorem getline_shorter {iss : IStringStream} {n : Nat}
    (reads : (iss.getline n).2.failbit = false) : (iss.getline n).2.rest.length < iss.rest.length := by
  unfold getline at reads ⊢
  split at reads
  · cases reads
  · dsimp only at reads ⊢
    split at reads
    · cases reads
    · rename_i good advanced
      rw [if_neg good, if_neg advanced]
      exact Nat.lt_of_le_of_ne (extract_length_le _ _) advanced

end IStringStream

def cString (buf : Bytes) : Bytes := buf.takeWhile (· ≠ 0)

namespace Model

def synsetLoop (iss : IStringStream) (synsetVector : List Bytes) : List Bytes :=
  if (iss.getline 256).2.failbit = false then
    synsetLoop (iss.getline 256).2 (synsetVector ++ [cString (iss.getline 256).1])
  else synsetVector
termination_by iss.rest.length
decreasing_by
  rename_i reads
  exact IStringStream.getline_shorter reads

/-- `get_synset_vector`, which clears the vector it is given. -/
def getSynsetVector (m : Model) (_synsetVector : List Bytes) : List Bytes :=
  synsetLoop (.ofString m.synsetString) []

end Model

/-- The scores `outputs[0].At(0, jj)`; their number is an `unsigned int`. -/
structure OutputRow where
  scores : List ℚ
  width_lt : scores.length < 2 ^ 32

/-- What the engine takes from MXNet and OpenCV: all of `load_model` behind the synset, and all of
`inference` before the scan of the output. Either may throw. -/
structure MxNet (Net Exn : Type) where
  bind : Bytes → Bytes → Except Exn Net
  forward : Net → Photo → Except Exn OutputRow

variable {Net Exn : Type}

structure EngineState (Net : Type) where
  synsetVector : List Bytes
  net : Option Net

inductive EngineException (Exn : Type)
  | thrown (e : Exn)
  | modelLoadException
  | undefined

namespace EngineState

def loadModel (mx : MxNet Net Exn) (e : EngineState Net) (model : Model) : Int × EngineState Net :=
  let synsetVector := model.getSynsetVector e.synsetVector
  match mx.bind model.getSymbolJson model.parametersBuffer with
  | .ok net => (0, ⟨synsetVector, some net⟩)
  | .error _ => (-1, ⟨synsetVector, e.net⟩)

def construct (mx : MxNet Net Exn) (model : Model) :
    Except (EngineException Exn) (EngineState Net) :=
  let (ret, e) := loadModel mx ⟨[], none⟩ model
  if ret ≠ 0 then .error .modelLoadException else .ok e

/-- `static_cast<int>` of an `unsigned int`. -/
def castInt (jj : Nat) : Int := (jj : Int).bmod (2 ^ 32)

def scanRow (row : List ℚ) : ℚ × Int :=
  row.zipIdx.foldl
    (fun best entry => if best.1 < entry.1 then (entry.1, castInt entry.2) else best)
    (-10 ^ 10, -1)

def subscript (vector : List Bytes) (idx : Int) : Option Bytes :=
  if 0 ≤ idx then vector[idx.toNat]? else none

def text (bytes : Bytes) : String := String.ofList (bytes.map fun b => Char.ofNat b.toNat)

def inference (mx : MxNet Net Exn) (e : EngineState Net) (photo : Photo) :
    Except (EngineException Exn) Guess :=
  match e.net with
  | none => .error .undefined
  | some net =>
      match mx.forward net photo with
      | .error x => .error (.thrown x)
      | .ok row =>
          let (max, idx) := scanRow row.scores
          match subscript e.synsetVector idx with
          | none => .error .undefined
          | some label => .ok ⟨text label, some max⟩

end EngineState

end SospDemo
