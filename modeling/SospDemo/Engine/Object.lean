import SospDemo.Engine.InputLayer
import SospDemo.Engine.Label
import SospDemo.Engine.Parameters
import SospDemo.Locks.Steps

/-!
# The engine object answers as the engine

Between two photos an engine differs in its input array alone, and a photo fills that whole array.
So whatever an engine has classified before, it answers like the engine without memory that the
tiers are modelled with.
-/

namespace SospDemo
open Buffers
variable {Symbol Exn : Type}

/-- What a loaded model comes to: the fixed arrays of its net, `none` where the photo goes. -/
structure BoundNet (Symbol : Type) where
  net : Symbol
  args : List (Option (List ℚ))
  aux : List (List ℚ)

namespace Frameworks
open MxNetEngine

def tensor (heap : ArrayAllocator) (p : Parameters) (shapes : Bytes → List Nat)
    (slot : Bytes → Slot) (name : Bytes) : Tensor :=
  (loaded heap p (slot name)).getD (heap.tensor name (shapes name))

def fittedShapes (f : Frameworks Symbol Exn) (heap : ArrayAllocator) (p : Parameters)
    (net : Symbol) : Except Exn (Bytes → List Nat) := do
  let shapes ← f.inferShape net fun name => (loaded heap p (.arg name)).map Tensor.shape
  f.makeExecutor net
    ((f.listArguments net).map fun name => (tensor heap p shapes .arg name).shape)
    ((f.listAuxiliaryStates net).map fun name => (tensor heap p shapes .aux name).shape)
  return shapes

def boundNet (f : Frameworks Symbol Exn) (heap : ArrayAllocator) (p : Parameters) (net : Symbol)
    (shapes : Bytes → List Nat) : BoundNet Symbol where
  net := net
  args := (f.listArguments net).map fun name =>
    if name = ascii "data" then none else some (tensor heap p shapes .arg name).values
  aux := (f.listAuxiliaryStates net).map fun name => (tensor heap p shapes .aux name).values

def bind (f : Frameworks Symbol Exn) (heap : ArrayAllocator) (symbolJson parameters : Bytes) :
    Except Exn (BoundNet Symbol) := do
  let net ← f.loadJson symbolJson
  let p ← f.loadFromBuffer parameters
  let shapes ← f.fittedShapes heap p net
  return f.boundNet heap p net shapes

def classify (f : Frameworks Symbol Exn) (net : BoundNet Symbol) (photo : Photo) :
    Except Exn OutputRow := do
  let mat ← f.imdecode photo.photoData.bytes >>= f.resize 256 256
  f.forward net.net (net.args.map fun arg => arg.getD (crop mat.val)) net.aux

def mxNet (f : Frameworks Symbol Exn) (heap : ArrayAllocator) : MxNet (BoundNet Symbol) Exn where
  bind := f.bind heap
  forward := f.classify

end Frameworks

namespace MxNetEngine
variable {f : Frameworks Symbol Exn} {heap : ArrayAllocator} {e : MxNetEngine Symbol}

/-- With `x` in the input array, whatever is in it now, the executor sees the arrays of `net`. -/
structure Executes (Exn : Type) (e : MxNetEngine Symbol) (executor : Executor Symbol) (data : NDArray)
    (net : BoundNet Symbol) : Prop where
  pointed : e.executorPointer = some executor
  same_net : executor.net = net.net
  input : e.argsMap.find (ascii "data") = some data
  input_shape : data.shape = inputShape
  args (x : List ℚ) : executor.argArrays.mapM (BoundArray.values (e.memory.write data.chunk x)) =
    (.ok (net.args.map fun arg => arg.getD x) : Except (EngineException Exn) _)
  aux (x : List ℚ) : executor.auxArrays.mapM (BoundArray.values (e.memory.write data.chunk x)) =
    (.ok net.aux : Except (EngineException Exn) _)

theorem mapM_ok {α β ε : Type} {read : α → Except ε β} {g : α → β} {xs : List α}
    (ok : ∀ x ∈ xs, read x = .ok (g x)) : xs.mapM read = .ok (xs.map g) := by
  induction xs with
  | nil => rfl
  | cons x rest ih =>
      rw [List.mapM_cons, ok x List.mem_cons_self,
        ih fun other mem => ok other (List.mem_cons_of_mem x mem)]
      rfl

/-! ## Loading -/

section Loading
variable {p : Parameters} {map : StdMap Bytes NDArray}

theorem Holds.shape_boundArray (holds : e.Holds (loaded heap p)) (slot : Bytes → Slot)
    (shapes : Bytes → List Nat) {name : Bytes} (found : e.array (slot name) = map.find name) :
    (boundArray heap shapes map name).shape = (Frameworks.tensor heap p shapes slot name).shape := by
  have same := holds.shape (slot name)
  rw [found] at same
  unfold boundArray Frameworks.tensor
  cases present : map.find name with
  | none =>
      rw [present, Option.map_none] at same
      rw [Option.map_eq_none_iff.mp same.symm]
      rfl
  | some array =>
      rw [present, Option.map_some] at same
      obtain ⟨t, holdsTensor, sameShape⟩ := Option.map_eq_some_iff.mp same.symm
      rw [holdsTensor]
      exact sameShape.symm

theorem Holds.values_boundArray (holds : e.Holds (loaded heap p)) (slot : Bytes → Slot)
    (shapes : Bytes → List Nat) {name : Bytes} (found : e.array (slot name) = map.find name)
    {data : NDArray} (input : e.array (.arg (ascii "data")) = some data) (other : slot name ≠ .arg (ascii "data"))
    (x : List ℚ) : (boundArray heap shapes map name).values (e.memory.write data.chunk x) =
      (.ok (Frameworks.tensor heap p shapes slot name).values :
        Except (EngineException Exn) (List ℚ)) := by
  have same := holds.shape (slot name)
  have heldEq : e.held (slot name) = (map.find name).map NDArray.chunk := by rw [held, found]
  rw [found] at same
  unfold boundArray Frameworks.tensor
  cases present : map.find name with
  | none =>
      rw [present, Option.map_none] at same
      rw [Option.map_eq_none_iff.mp same.symm]
      rfl
  | some array =>
      rw [present, Option.map_some] at same heldEq
      obtain ⟨t, holdsTensor, -⟩ := Option.map_eq_some_iff.mp same.symm
      -- the input array is another one
      have apart : array.chunk ≠ data.chunk := by
        intro shared
        refine other (holds.owned.unshared _ _ array.chunk heldEq ?_)
        rw [held, input, Option.map_some, shared]
      have content := holds.owned.buffer_value heldEq
      rw [holds.values _ t holdsTensor] at content
      rw [holdsTensor]
      simp only [BoundArray.values, Memory.buffer_write_of_ne x apart, content, Option.getD_some]

def executor (f : Frameworks Symbol Exn) (heap : ArrayAllocator) (e : MxNetEngine Symbol)
    (net : Symbol) (shapes : Bytes → List Nat) : Executor Symbol where
  net := net
  argArrays := (f.listArguments net).map (boundArray heap shapes e.argsMap)
  auxArrays := (f.listAuxiliaryStates net).map (boundArray heap shapes e.auxMap)

theorem Holds.bindExecutor_eq (holds : e.Holds (loaded heap p)) (net : Symbol) :
    e.bindExecutor f heap net = (f.fittedShapes heap p net).map (executor f heap e net) := by
  have given : (fun name => (e.argsMap.find name).map NDArray.shape) =
      fun name => (loaded heap p (.arg name)).map Tensor.shape := by
    funext name
    exact holds.shape (.arg name)
  unfold bindExecutor Frameworks.fittedShapes
  rw [given]
  cases f.inferShape net fun name => (loaded heap p (.arg name)).map Tensor.shape with
  | error x => rfl
  | ok shapes =>
      have argShapes : ((f.listArguments net).map (boundArray heap shapes e.argsMap)).map
          BoundArray.shape =
          (f.listArguments net).map fun name => (Frameworks.tensor heap p shapes .arg name).shape := by
        rw [List.map_map]
        exact List.map_congr_left fun name _ => holds.shape_boundArray .arg shapes rfl
      have auxShapes : ((f.listAuxiliaryStates net).map (boundArray heap shapes e.auxMap)).map
          BoundArray.shape = (f.listAuxiliaryStates net).map fun name =>
            (Frameworks.tensor heap p shapes .aux name).shape := by
        rw [List.map_map]
        exact List.map_congr_left fun name _ => holds.shape_boundArray .aux shapes rfl
      simp only [bind, Except.bind, argShapes, auxShapes]
      cases f.makeExecutor net _ _ <;> rfl

theorem Holds.executes (holds : e.Holds (loaded heap p)) (net : Symbol)
    (shapes : Bytes → List Nat) : ∃ data,
      Executes Exn { e with executorPointer := some (executor f heap e net shapes) }
        (executor f heap e net shapes) data (f.boundNet heap p net shapes) := by
  have notLabel : Slot.arg (ascii "data") ≠ .arg (ascii "softmax_label") := by decide
  have there := holds.shape (.arg (ascii "data"))
  rw [loaded, if_neg notLabel, if_pos rfl, Option.map_some] at there
  obtain ⟨data, input, shape⟩ := Option.map_eq_some_iff.mp there
  have live := holds.owned.buffer_value
    (v := .arg (ascii "data")) (p := data.chunk) (by rw [held, input, Option.map_some])
  refine ⟨data, rfl, rfl, input, shape, fun x => ?_, fun x => ?_⟩
  · rw [executor, Frameworks.boundNet, List.mapM_map, List.map_map]
    refine mapM_ok fun name _ => ?_
    by_cases isInput : name = ascii "data"
    · subst isInput
      have found : e.argsMap.find (ascii "data") = some data := input
      simp only [Function.comp_apply, boundArray, found, BoundArray.values,
        Memory.buffer_write_self live x, if_true, Option.getD_none]
    · have other : Slot.arg name ≠ .arg (ascii "data") := by simpa using isInput
      rw [Function.comp_apply, holds.values_boundArray .arg shapes rfl input other x]
      simp only [Function.comp_apply, isInput, if_false, Option.getD_some]
  · rw [executor, Frameworks.boundNet, List.mapM_map]
    refine mapM_ok fun name _ => ?_
    have other : Slot.aux name ≠ .arg (ascii "data") := by simp
    exact holds.values_boundArray .aux shapes rfl input other x

end Loading

theorem synsetVector_setInputs (heap : ArrayAllocator) (entries : List (Bytes × Tensor))
    (e : MxNetEngine Symbol) :
    (setInputs heap (entries.foldl MxNetEngine.sortParameter e)).synsetVector = e.synsetVector := by
  change (entries.foldl MxNetEngine.sortParameter e).synsetVector = e.synsetVector
  induction entries generalizing e with
  | nil => rfl
  | cons k rest ih =>
      rw [List.foldl_cons, ih]
      unfold MxNetEngine.sortParameter
      split
      · rfl
      · split <;> rfl

theorem loadModel_cases (f : Frameworks Symbol Exn) (heap : ArrayAllocator) (model : Model) :
    (∃ x, f.bind heap model.getSymbolJson model.parametersBuffer = .error x ∧
      (loadModel f heap empty model).1 = -1) ∨
    ∃ net e executor data, f.bind heap model.getSymbolJson model.parametersBuffer = .ok net ∧
      loadModel f heap empty model = (0, e) ∧ e.synsetVector = model.getSynsetVector [] ∧
      Executes Exn e executor data net := by
  unfold loadModel Frameworks.bind
  cases json : f.loadJson model.getSymbolJson with
  | error x => exact Or.inl ⟨x, rfl, rfl⟩
  | ok net =>
      simp only [bind, Except.bind]
      cases parsed : f.loadFromBuffer model.parametersBuffer with
      | error x => exact Or.inl ⟨x, rfl, rfl⟩
      | ok p =>
          have holds : (setInputs heap (p.entries.foldl MxNetEngine.sortParameter
              (named (model.getSynsetVector []) : MxNetEngine Symbol))).Holds (loaded heap p) :=
            holds_loaded heap p _
          have bound := holds.bindExecutor_eq (f := f) net
          simp only [named, empty] at bound ⊢
          cases fitted : f.fittedShapes heap p net with
          | error x =>
              rw [fitted] at bound
              refine Or.inl ⟨x, rfl, ?_⟩
              rw [bound]
              rfl
          | ok shapes =>
              rw [fitted] at bound
              obtain ⟨data, executes⟩ := holds.executes (f := f) net shapes
              refine Or.inr ⟨_, _, _, data, rfl, ?_, ?_, executes⟩
              · rw [bound]
                rfl
              · exact synsetVector_setInputs heap ..

/-! ## Serving photos -/

structure Serves (Exn : Type) (e : MxNetEngine Symbol) (engine : EngineState (BoundNet Symbol)) :
    Prop where
  synset : e.synsetVector = engine.synsetVector
  executes : ∃ executor data net, Executes Exn e executor data net ∧ engine.net = some net

theorem construct_cases (f : Frameworks Symbol Exn) (heap : ArrayAllocator) (model : Model) :
    (construct f heap model = .error .modelLoadException ∧
      EngineState.construct (f.mxNet heap) model = .error .modelLoadException) ∨
    ∃ e engine, construct f heap model = .ok e ∧
      EngineState.construct (f.mxNet heap) model = .ok engine ∧ Serves Exn e engine := by
  rcases loadModel_cases f heap model with
    ⟨x, fails, code⟩ | ⟨net, e, executor, data, binds, loads, synset, executes⟩
  · refine Or.inl ⟨?_, ?_⟩
    · simp [construct, code]
    · simp [EngineState.construct, EngineState.loadModel, Frameworks.mxNet, fails]
  · refine Or.inr ⟨e, ⟨model.getSynsetVector [], some net⟩, ?_, ?_, synset, ?_⟩
    · simp [construct, loads]
    · simp [EngineState.construct, EngineState.loadModel, Frameworks.mxNet, binds]
    · exact ⟨executor, data, net, executes, rfl⟩

section Executes
variable {executor : Executor Symbol} {data : NDArray} {net : BoundNet Symbol}

theorem Executes.fill (executes : Executes Exn e executor data net) (x : List ℚ) :
    Executes Exn { e with memory := e.memory.write data.chunk x } executor data net := by
  refine { executes with args := fun y => ?_, aux := fun y => ?_ }
  · rw [Memory.write_write, executes.args]
  · rw [Memory.write_write, executes.aux]

theorem Executes.copyInput (executes : Executes Exn e executor data net) (photo : Photo) :
    e.copyInput f photo = (decode f photo).map fun mat =>
      { e with memory := e.memory.write data.chunk (crop mat.val) } := by
  unfold MxNetEngine.copyInput
  cases decode f photo with
  | error x => rfl
  | ok mat =>
      have whole : (crop mat.val).take inputShape.prod = crop mat.val :=
        List.take_of_length_le (length_crop mat.val).le
      have copied : syncCopyFromCpu f e.memory data (crop mat.val) inputShape.prod =
          .ok (e.memory.write data.chunk (crop mat.val)) := by
        simp only [syncCopyFromCpu, executes.input_shape, length_crop, lt_irrefl, ne_eq,
          not_true_eq_false, if_false, whole]
      simp only [bind, Except.bind, inputArray_eq_crop, executes.input, copied]
      rfl

theorem Executes.forward (executes : Executes Exn e executor data net) (x : List ℚ) :
    ({ e with memory := e.memory.write data.chunk x } : MxNetEngine Symbol).forward f =
      (f.forward net.net (net.args.map fun arg => arg.getD x) net.aux).mapError .thrown := by
  simp only [MxNetEngine.forward, executes.pointed, executes.args, executes.aux,
    executes.same_net]
  rfl

end Executes

theorem Serves.inference {engine : EngineState (BoundNet Symbol)} (serves : Serves Exn e engine)
    (f : Frameworks Symbol Exn) (heap : ArrayAllocator) (photo : Photo) :
    (e.inference f photo).1 = EngineState.inference (f.mxNet heap) engine photo ∧
      Serves Exn (e.inference f photo).2 engine := by
  obtain ⟨executor, data, net, executes, found⟩ := serves.executes
  have output : (f.mxNet heap).forward net photo = f.classify net photo := rfl
  unfold MxNetEngine.inference EngineState.inference
  rw [executes.copyInput photo, found, decode]
  simp only [output, Frameworks.classify]
  cases f.imdecode photo.photoData.bytes >>= f.resize 256 256 with
  | error x => exact ⟨rfl, serves⟩
  | ok mat =>
      refine ⟨?_, serves.synset, executor, data, net, executes.fill (crop mat.val), found⟩
      simp only [Except.mapError, Except.map, readGuess, executes.forward]
      simp only [serves.synset, bind, Except.bind]
      cases f.forward net.net (net.args.map fun arg => arg.getD (crop mat.val)) net.aux with
      | error x => rfl
      | ok row => rfl

theorem Serves.after {engine : EngineState (BoundNet Symbol)} (serves : Serves Exn e engine)
    (f : Frameworks Symbol Exn) (heap : ArrayAllocator) (before : List Photo) :
    Serves Exn ((e.serving f).after before) engine := by
  induction before using List.reverseRecOn with
  | nil => exact serves
  | append_singleton before photo ih =>
      rw [SequentialObject.after_concat]
      exact (ih.inference f heap photo).2

theorem history_forgotten (f : Frameworks Symbol Exn) (heap : ArrayAllocator) (model : Model)
    (laidOut : model.LaidOut) (before : List Photo) (photo : Photo) :
    model.synsetString ++ model.getSymbolJson ++ model.parametersBuffer = model.modelData.bytes ∧
      (construct f heap model).map (fun e => (e.serving f).answer before photo) =
        (EngineState.construct (f.mxNet heap) model).map fun engine =>
          EngineState.inference (f.mxNet heap) engine photo := by
  refine ⟨laidOut.slices, ?_⟩
  rcases construct_cases f heap model with ⟨fails, alike⟩ | ⟨e, engine, built, alike, serves⟩
  · rw [fails, alike]
    rfl
  · rw [built, alike]
    exact congrArg Except.ok ((serves.after f heap before).inference f heap photo).1

end MxNetEngine

namespace Frameworks

/-- One argument, the photo, and one class. -/
def sample : Frameworks Unit Unit where
  loadJson _ := .ok ()
  loadFromBuffer _ := .ok ⟨[], List.nodup_nil⟩
  listArguments _ := [ascii "data"]
  listAuxiliaryStates _ := []
  inferShape _ _ := .ok fun _ => MxNetEngine.inputShape
  makeExecutor _ _ _ := .ok ()
  forward _ _ _ := .ok ⟨[1 / 2], by decide⟩
  imdecode bytes := if bytes = [] then .error () else .ok ⟨0, 0, [], rfl⟩
  resize rows cols _ :=
    .ok ⟨⟨rows, cols, .replicate (rows * cols * 3) 0, List.length_replicate⟩, rfl, rfl⟩
  sizeMismatch := ()

end Frameworks

def ArrayAllocator.zeros : ArrayAllocator :=
  ⟨fun _ shape => .replicate shape.prod 0, fun _ _ => List.length_replicate⟩

def roseModel : Model := ⟨2, 1, 1, ⟨[114, 10, 1, 1]⟩⟩

def rosePhoto : Photo := ⟨7, ⟨[1]⟩⟩

theorem getSynsetVector_rose : roseModel.getSynsetVector [] = [[114]] := by
  rw [Model.getSynsetVector_eq]
  decide

theorem scanRow_half : EngineState.scanRow [1 / 2] = (1 / 2, 0) := by decide +kernel

namespace MxNetEngine

/-- The photo before could not be decoded. -/
theorem rose_after_failure :
    (construct Frameworks.sample .zeros roseModel).map
        (fun e => (e.serving Frameworks.sample).answer [⟨7, ⟨[]⟩⟩] rosePhoto) =
      .ok (.ok ⟨"r", some (1 / 2)⟩) := by
  rw [(history_forgotten Frameworks.sample .zeros roseModel (by decide) [⟨7, ⟨[]⟩⟩] rosePhoto).2]
  have loaded : EngineState.construct (Frameworks.sample.mxNet .zeros) roseModel =
      .ok ⟨[[114]], some ⟨(), [none], []⟩⟩ := by
    rw [← getSynsetVector_rose]
    rfl
  have classified : (Frameworks.sample.mxNet .zeros).forward ⟨(), [none], []⟩ rosePhoto =
      .ok ⟨[1 / 2], by decide⟩ := rfl
  rw [loaded]
  simp only [Except.map, EngineState.inference, classified, scanRow_half]
  rfl

end MxNetEngine

/-! ## The engine in parts -/

namespace Frameworks
open MxNetEngine

/-- The engine cut where calls that share it see what the others leave. -/
def parts (f : Frameworks Symbol Exn) (heap : ArrayAllocator) :
    EngineParts (EngineState (BoundNet Symbol)) (List ℚ) OutputRow (EngineException Exn) where
  loadModel := EngineState.construct (f.mxNet heap)
  decode photo := (decode f photo).map fun mat => crop mat.val
  forward engine input :=
    match engine.net with
    | none => .error .undefined
    | some net =>
        (f.forward net.net (net.args.map fun arg => arg.getD input) net.aux).mapError .thrown
  describe engine row :=
    let (max, idx) := EngineState.scanRow row.scores
    match EngineState.subscript engine.synsetVector idx with
    | none => .error .undefined
    | some label => .ok ⟨EngineState.text label, some max⟩

end Frameworks
end SospDemo
