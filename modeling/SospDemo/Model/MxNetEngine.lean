import SospDemo.Library.Buffers
import SospDemo.Library.RowMajor
import SospDemo.Model.InferenceEngine

/-!
# The engine object

`load_model` and `inference` of `inference_engine.cpp` on the members of an `InferenceEngine`. An
`NDArray` is a handle: copies of it refer to one chunk of memory.
-/

namespace SospDemo
open Buffers

/-- A `cv::Mat` in colour: row by row, the blue, green and red of each pixel. -/
structure Mat where
  rows : Nat
  cols : Nat
  data : Bytes
  length_data : data.length = rows * cols * 3

abbrev Mat.Sized (rows cols : Nat) : Type := { mat : Mat // mat.rows = rows ∧ mat.cols = cols }

structure NDArray where
  shape : List Nat
  chunk : Nat
  deriving DecidableEq

structure Tensor where
  shape : List Nat
  values : List ℚ
  length_values : values.length = shape.prod

/-- The map `get_parameters_map` fills, as the list the loop of `load_model` goes through. -/
structure Parameters where
  entries : List (Bytes × Tensor)
  nodup : (entries.map Prod.fst).Nodup

structure ArrayAllocator where
  alloc : Bytes → List Nat → List ℚ
  length_alloc : ∀ name shape, (alloc name shape).length = shape.prod

def ArrayAllocator.tensor (heap : ArrayAllocator) (name : Bytes) (shape : List Nat) : Tensor :=
  ⟨shape, heap.alloc name shape, heap.length_alloc name shape⟩

/-- The functions of MXNet and OpenCV. `inferShape` gives the shape of every argument and auxiliary
state of a symbol from the shapes of the arguments that are there; `makeExecutor` may find that the
arrays do not fit. `forward` is a pass that does not train. -/
structure Frameworks (Symbol Exn : Type) where
  loadJson : Bytes → Except Exn Symbol
  loadFromBuffer : Bytes → Except Exn Parameters
  listArguments : Symbol → List Bytes
  listAuxiliaryStates : Symbol → List Bytes
  inferShape : Symbol → (Bytes → Option (List Nat)) → Except Exn (Bytes → List Nat)
  makeExecutor : Symbol → List (List Nat) → List (List Nat) → Except Exn Unit
  forward : Symbol → List (List ℚ) → List (List ℚ) → Except Exn OutputRow
  imdecode : Bytes → Except Exn Mat
  resize (rows cols : Nat) : Mat → Except Exn (Mat.Sized rows cols)
  /-- `SyncCopyFromCPU` of another number of values than the array has. -/
  sizeMismatch : Exn

/-- An array of an executor: one of the engine's maps, or its own where the map had none. -/
inductive BoundArray
  | shared (array : NDArray)
  | own (tensor : Tensor)

namespace BoundArray

def shape : BoundArray → List Nat
  | .shared array => array.shape
  | .own tensor => tensor.shape

def values {Exn : Type} (memory : Memory ℚ) : BoundArray → Except (EngineException Exn) (List ℚ)
  | .shared array =>
      match memory.buffer array.chunk with
      | some values => .ok values
      | none => .error .undefined
  | .own tensor => .ok tensor.values

end BoundArray

structure Executor (Symbol : Type) where
  net : Symbol
  argArrays : List BoundArray
  auxArrays : List BoundArray

structure MxNetEngine (Symbol : Type) where
  synsetVector : List Bytes
  argsMap : StdMap Bytes NDArray
  auxMap : StdMap Bytes NDArray
  executorPointer : Option (Executor Symbol)
  memory : Memory ℚ

namespace MxNetEngine
variable {Symbol Exn : Type}

def inputShape : List Nat := [1, 3, 224, 224]

def empty : MxNetEngine Symbol := ⟨[], .empty, .empty, none, []⟩

/-! ## Loading a model -/

def newArray (e : MxNetEngine Symbol) (t : Tensor) : NDArray × MxNetEngine Symbol :=
  (⟨t.shape, e.memory.length⟩, { e with memory := e.memory.alloc t.values })

def setArg (e : MxNetEngine Symbol) (name : Bytes) (t : Tensor) : MxNetEngine Symbol :=
  let (array, e) := e.newArray t
  { e with argsMap := e.argsMap.assign name array }

def setAux (e : MxNetEngine Symbol) (name : Bytes) (t : Tensor) : MxNetEngine Symbol :=
  let (array, e) := e.newArray t
  { e with auxMap := e.auxMap.assign name array }

def sortParameter (e : MxNetEngine Symbol) (k : Bytes × Tensor) : MxNetEngine Symbol :=
  if k.1.take 4 = ascii "aux:" then e.setAux (k.1.drop 4) k.2
  else if k.1.take 4 = ascii "arg:" then e.setArg (k.1.drop 4) k.2
  else e

def setInputs (heap : ArrayAllocator) (e : MxNetEngine Symbol) : MxNetEngine Symbol :=
  let e := e.setArg (ascii "data") (heap.tensor (ascii "data") inputShape)
  e.setArg (ascii "softmax_label") (heap.tensor (ascii "softmax_label") [1])

def boundArray (heap : ArrayAllocator) (shapes : Bytes → List Nat) (map : StdMap Bytes NDArray)
    (name : Bytes) : BoundArray :=
  match map.find name with
  | some array => .shared array
  | none => .own (heap.tensor name (shapes name))

/-- `InferExecutorArrays` and the constructor of the executor. -/
def bindExecutor (f : Frameworks Symbol Exn) (heap : ArrayAllocator) (e : MxNetEngine Symbol)
    (net : Symbol) : Except Exn (Executor Symbol) := do
  let shapes ← f.inferShape net fun name => (e.argsMap.find name).map NDArray.shape
  let argArrays := (f.listArguments net).map (boundArray heap shapes e.argsMap)
  let auxArrays := (f.listAuxiliaryStates net).map (boundArray heap shapes e.auxMap)
  f.makeExecutor net (argArrays.map BoundArray.shape) (auxArrays.map BoundArray.shape)
  return ⟨net, argArrays, auxArrays⟩

def loadModel (f : Frameworks Symbol Exn) (heap : ArrayAllocator) (e : MxNetEngine Symbol)
    (model : Model) : Int × MxNetEngine Symbol :=
  let e := { e with synsetVector := model.getSynsetVector e.synsetVector }
  match f.loadJson model.getSymbolJson with
  | .error _ => (-1, e)
  | .ok net =>
      match f.loadFromBuffer model.parametersBuffer with
      | .error _ => (-1, e)
      | .ok parameters =>
          let e := setInputs heap (parameters.entries.foldl sortParameter e)
          match e.bindExecutor f heap net with
          | .error _ => (-1, e)
          | .ok executor => (0, { e with executorPointer := some executor })

def construct (f : Frameworks Symbol Exn) (heap : ArrayAllocator) (model : Model) :
    Except (EngineException Exn) (MxNetEngine Symbol) :=
  let (ret, e) := loadModel f heap empty model
  if ret ≠ 0 then .error .modelLoadException else .ok e

/-! ## Classifying a photo -/

def pixel (mat : Mat) (k : Nat) : Except (EngineException Exn) UInt8 :=
  match mat.data[k]? with
  | some b => .ok b
  | none => .error .undefined

/-- The three loops that fill `array`. A byte over 256 is exact as a `float`. -/
def inputArray (mat : Mat) : Except (EngineException Exn) (List ℚ) :=
  (List.range 3).foldlM (fun array c =>
    (List.range 224).foldlM (fun array i =>
      (List.range 224).foldlM (fun array j => do
        let _i := i + 16
        let _j := j + 16
        let b ← pixel mat ((_i * 256 + _j) * 3 + (2 - c))
        return array ++ [(b.toNat : ℚ) / 256]) array) array) []

def syncCopyFromCpu (f : Frameworks Symbol Exn) (memory : Memory ℚ) (target : NDArray)
    (array : List ℚ) (size : Nat) : Except (EngineException Exn) (Memory ℚ) :=
  if target.shape.prod ≠ size then .error (.thrown f.sizeMismatch)
  else if array.length < size then .error .undefined
  else .ok (memory.write target.chunk (array.take size))

def decode (f : Frameworks Symbol Exn) (photo : Photo) :
    Except (EngineException Exn) (Mat.Sized 256 256) :=
  (f.imdecode photo.photoData.bytes >>= f.resize 256 256).mapError .thrown

/-- `inference` up to the copy into the input layer. -/
def copyInput (f : Frameworks Symbol Exn) (e : MxNetEngine Symbol) (photo : Photo) :
    Except (EngineException Exn) (MxNetEngine Symbol) := do
  let mat ← decode f photo
  let array ← inputArray mat.val
  match e.argsMap.find (ascii "data") with
  | none => .error .undefined
  | some data =>
      let memory ← syncCopyFromCpu f e.memory data array inputShape.prod
      return { e with memory := memory }

def forward (f : Frameworks Symbol Exn) (e : MxNetEngine Symbol) :
    Except (EngineException Exn) OutputRow := do
  match e.executorPointer with
  | none => .error .undefined
  | some executor =>
      let args ← executor.argArrays.mapM (BoundArray.values e.memory)
      let aux ← executor.auxArrays.mapM (BoundArray.values e.memory)
      (f.forward executor.net args aux).mapError .thrown

/-- `inference` from the call of `Forward` on. -/
def readGuess (f : Frameworks Symbol Exn) (e : MxNetEngine Symbol) :
    Except (EngineException Exn) Guess := do
  let row ← e.forward f
  let (max, idx) := EngineState.scanRow row.scores
  match EngineState.subscript e.synsetVector idx with
  | none => .error .undefined
  | some label => return ⟨EngineState.text label, some max⟩

/-- The answer, and the engine after it. An exception leaves what was written before it. -/
def inference (f : Frameworks Symbol Exn) (e : MxNetEngine Symbol) (photo : Photo) :
    Except (EngineException Exn) Guess × MxNetEngine Symbol :=
  match e.copyInput f photo with
  | .error x => (.error x, e)
  | .ok e => (e.readGuess f, e)

@[simps] def serving (f : Frameworks Symbol Exn) (e : MxNetEngine Symbol) :
    SequentialObject (MxNetEngine Symbol) Photo (Except (EngineException Exn) Guess) where
  init := e
  apply e photo := e.inference f photo

end MxNetEngine
end SospDemo
