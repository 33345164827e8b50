import SospDemo.Library.Buffers
import SospDemo.Library.SharedMutex
import SospDemo.Replica.Steps

/-!
# The categorizer tier under its mutex

`inference`, `ordered_install_model` and `ordered_remove_model` of `categorizer_tier.cpp`, cut at
every access to `inference_engines_mutex` and `inference_engines`, and between the search in
`raw_models` of an ordered call and its change there. These are one step each: `raw_models[tag]`
with the constructor of the engine, the copy to the input layer, `Forward` with the wait for it,
and the scan of the output. Any number of inferences run at a time; the ordered calls run in turn,
as they are delivered.
-/

namespace SospDemo
open Buffers

/-- What an engine takes from MXNet and OpenCV, cut where other calls see what it leaves. -/
structure EngineParts (Engine Input Output Exn : Type) where
  loadModel : Model → Except Exn Engine
  decode : Photo → Except Exn Input
  forward : Engine → Input → Except Exn Output
  describe : Engine → Output → Except Exn Guess

variable {Engine Input Output Exn : Type}

namespace EngineParts

def classify (parts : EngineParts Engine Input Output Exn) (engine : Engine) (photo : Photo) :
    Except Exn Guess := do
  let input ← parts.decode photo
  let output ← parts.forward engine input
  parts.describe engine output

def api (parts : EngineParts Engine Input Output Exn) : EngineApi Engine Exn where
  loadModel := parts.loadModel
  classify := parts.classify

variable {parts : EngineParts Engine Input Output Exn} {engine : Engine} {photo : Photo} {e : Exn}
  {input : Input} {output : Output}

theorem classify_of_decode_error (failed : parts.decode photo = .error e) :
    parts.classify engine photo = .error e := by
  rw [classify, failed]
  rfl

theorem classify_of_forward_error (decoded : parts.decode photo = .ok input)
    (failed : parts.forward engine input = .error e) : parts.classify engine photo = .error e := by
  rw [classify, decoded]
  exact congrArg (· >>= parts.describe engine) failed

theorem classify_of_forward (decoded : parts.decode photo = .ok input)
    (computed : parts.forward engine input = .ok output) :
    parts.classify engine photo = parts.describe engine output := by
  rw [classify, decoded]
  exact congrArg (· >>= parts.describe engine) computed

end EngineParts

/-- `args_map["data"]` and `executor_pointer->outputs` are none until first written. -/
structure EngineObject (parts : EngineParts Engine Input Output Exn) where
  engine : InferenceEngine parts.api
  data : Option Input
  outputs : Option Output

inductive Task
  | inference (call : InferenceCall)
  | ordered (call : OrderedCall)
  deriving DecidableEq

abbrev Task.tag : Task → UInt32
  | .inference call => call.tag
  | .ordered call => call.tag

/-- Which of its two calls of `InferenceEngine::inference` a call has come to. -/
inductive Path
  | hit
  | miss
  deriving DecidableEq

namespace Path

def hold : Path → Hold
  | .hit => .shared
  | .miss => .exclusive

def outcome : Path → Outcome Exn → Outcome Exn
  | .hit, outcome => outcome
  | .miss, outcome => CategorizerTier.catchAll outcome

end Path

/-- Where an inference is. An engine is a pointer. -/
inductive InferencePc (Exn : Type)
  | outside
  | lockShared
  | findEngine
  | findModel
  | unlockMissed
  | build
  | lock (engine : Nat)
  | assign (engine : Nat)
  | subscript (path : Path)
  | copy (path : Path) (engine : Nat)
  | forward (path : Path) (engine : Nat)
  | read (path : Path) (engine : Nat)
  | unlock (path : Path) (outcome : Outcome Exn)
  | answered (outcome : Outcome Exn)
  | undefined

namespace InferencePc

def holds : InferencePc Exn → Hold
  | .findEngine | .findModel | .unlockMissed => .shared
  | .assign _ => .exclusive
  | .subscript path | .copy path _ | .forward path _ | .read path _ | .unlock path _ => path.hold
  | .outside | .lockShared | .build | .lock _ | .answered _ | .undefined => .free

def unstored : InferencePc Exn → Option Nat
  | .lock engine | .assign engine => some engine
  | _ => none

/-- The engine that has the call's photo before it, and not yet its answer. -/
def running : InferencePc Exn → Option Nat
  | .forward _ engine | .read _ engine => some engine
  | _ => none

def inEngines : InferencePc Exn → Bool
  | .findEngine | .assign _ | .subscript _ | .copy _ _ | .forward _ _ | .read _ _ => true
  | _ => false

end InferencePc

/-- Where an ordered call is. To erase the entry of an iterator twice is undefined. -/
inductive OrderedPc
  | outside
  | search
  | change
  | lock
  | erase
  | unlock
  | returned (code : Int)
  | undefined
  deriving DecidableEq

namespace OrderedPc

def holds : OrderedPc → Hold
  | .erase | .unlock => .exclusive
  | .outside | .search | .change | .lock | .returned _ | .undefined => .free

def underWay : OrderedPc → Bool
  | .search | .change | .lock | .erase | .unlock => true
  | .outside | .returned _ | .undefined => false

end OrderedPc

structure LockedTier (parts : EngineParts Engine Input Output Exn) where
  mutex : SharedMutex Task
  rawModels : StdMap UInt32 Model
  inferenceEngines : StdMap UInt32 Nat
  memory : Memory (EngineObject parts)
  inferences : InferenceCall → InferencePc Exn
  ordered : OrderedCall → OrderedPc
  delivering : Option OrderedCall

namespace LockedTier
variable {parts : EngineParts Engine Input Output Exn}

def constructed (rawModels : StdMap UInt32 Model) : LockedTier parts :=
  ⟨.unlocked, rawModels, .empty, [], fun _ => .outside, fun _ => .outside, none⟩

def object (s : LockedTier parts) (engine : Nat) : Option (EngineObject parts) :=
  (s.memory.buffer engine).bind List.head?

def goto (s : LockedTier parts) (call : InferenceCall) (pc : InferencePc Exn) : LockedTier parts :=
  { s with inferences := Function.update s.inferences call pc }

def gotoOrdered (s : LockedTier parts) (call : OrderedCall) (pc : OrderedPc) : LockedTier parts :=
  { s with
    ordered := Function.update s.ordered call pc
    delivering := if pc.underWay then some call else none }

/-! ## `InferenceEngine::inference` -/

/-- Decoding and resizing the photo touches nothing shared; the copy to the input layer does. -/
def copy (s : LockedTier parts) (call : InferenceCall) (path : Path) (engine : Nat) :
    LockedTier parts :=
  match s.object engine with
  | none => s.goto call .undefined
  | some object =>
      match parts.decode call.photo with
      | .error e => s.goto call (.unlock path (.error e))
      | .ok input =>
          { s.goto call (.forward path engine) with
            memory := s.memory.write engine [{ object with data := some input }] }

def forward (s : LockedTier parts) (call : InferenceCall) (path : Path) (engine : Nat) :
    LockedTier parts :=
  match s.object engine with
  | some ⟨built, some input, _⟩ =>
      match parts.forward built.engine input with
      | .error e => s.goto call (.unlock path (.error e))
      | .ok output =>
          { s.goto call (.read path engine) with
            memory := s.memory.write engine [⟨built, some input, some output⟩] }
  | _ => s.goto call .undefined

def read (s : LockedTier parts) (call : InferenceCall) (path : Path) (engine : Nat) :
    LockedTier parts :=
  match s.object engine with
  | some ⟨built, _, some output⟩ => s.goto call (.unlock path (parts.describe built.engine output))
  | _ => s.goto call .undefined

/-! ## `CategorizerTier::inference` -/

/-- `inference_engines[photo.tag] = std::move(engine)` destroys the engine it replaces. -/
def assign (s : LockedTier parts) (call : InferenceCall) (engine : Nat) : LockedTier parts :=
  { s.goto call (.subscript .miss) with
    inferenceEngines := s.inferenceEngines.assign call.tag engine
    memory := match s.inferenceEngines.find call.tag with
      | some old => s.memory.free old
      | none => s.memory }

def build (s : LockedTier parts) (call : InferenceCall) : LockedTier parts :=
  let (rawModels, model) := s.rawModels.subscript call.tag
  match InferenceEngine.construct parts.api model with
  | .error e => { s.goto call (.answered (CategorizerTier.catchAll (.error e))) with rawModels }
  | .ok engine =>
      { s.goto call (.lock s.memory.length) with
        rawModels
        memory := s.memory.alloc [⟨engine, none, none⟩] }

def unlock (s : LockedTier parts) (call : InferenceCall) (path : Path) (outcome : Outcome Exn) :
    LockedTier parts :=
  { s.goto call (.answered (path.outcome outcome)) with
    mutex := match path with
      | .hit => s.mutex.unlockShared (.inference call)
      | .miss => s.mutex.unlock }

def advance (s : LockedTier parts) (call : InferenceCall) : Option (LockedTier parts) :=
  match s.inferences call with
  | .outside => some (s.goto call .lockShared)
  | .lockShared =>
      (s.mutex.lockShared (.inference call)).map fun mutex => { s.goto call .findEngine with mutex }
  | .findEngine =>
      match s.inferenceEngines.find call.tag with
      | some _ => some (s.goto call (.subscript .hit))
      | none => some (s.goto call .findModel)
  | .findModel =>
      match s.rawModels.find call.tag with
      | none => some (s.goto call (.unlock .hit (.ok CategorizerTier.notFound)))
      | some _ => some (s.goto call .unlockMissed)
  | .unlockMissed =>
      some { s.goto call .build with mutex := s.mutex.unlockShared (.inference call) }
  | .build => some (s.build call)
  | .lock engine =>
      (s.mutex.lock (.inference call)).map fun mutex =>
        { s.goto call (.assign engine) with mutex }
  | .assign engine => some (s.assign call engine)
  | .subscript path =>
      -- an absent entry would be a null pointer
      match s.inferenceEngines.find call.tag with
      | some engine => some (s.goto call (.copy path engine))
      | none => some (s.goto call .undefined)
  | .copy path engine => some (s.copy call path engine)
  | .forward path engine => some (s.forward call path engine)
  | .read path engine => some (s.read call path engine)
  | .unlock path outcome => some (s.unlock call path outcome)
  | .answered _ | .undefined => none

/-! ## The ordered calls -/

def search (s : LockedTier parts) (call : OrderedCall) : LockedTier parts :=
  match call.op, s.rawModels.find call.tag with
  | .orderedInstallModel .., some _ => s.gotoOrdered call (.returned (-1))
  | .orderedInstallModel .., none => s.gotoOrdered call .change
  | .orderedRemoveModel _, none => s.gotoOrdered call (.returned (-1))
  | .orderedRemoveModel _, some _ => s.gotoOrdered call .change

def change (s : LockedTier parts) (call : OrderedCall) : LockedTier parts :=
  match call.op with
  | .orderedInstallModel tag synsetSize symbolSize paramsSize modelData =>
      let model : Model :=
        ⟨synsetSize, symbolSize, paramsSize, .ofBuffer modelData.bytes modelData.size⟩
      { s.gotoOrdered call (.returned 0) with rawModels := s.rawModels.emplace tag model }
  | .orderedRemoveModel tag =>
      match s.rawModels.find tag with
      | none => s.gotoOrdered call .undefined
      | some _ => { s.gotoOrdered call .lock with rawModels := s.rawModels.erase tag }

def erase (s : LockedTier parts) (call : OrderedCall) : LockedTier parts :=
  match s.inferenceEngines.find call.tag with
  | some engine =>
      { s.gotoOrdered call .unlock with
        inferenceEngines := s.inferenceEngines.erase call.tag
        memory := s.memory.free engine }
  | none => s.gotoOrdered call .unlock

def advanceOrdered (s : LockedTier parts) (call : OrderedCall) : Option (LockedTier parts) :=
  match s.ordered call with
  | .outside =>
      match s.delivering with
      | none => some (s.gotoOrdered call .search)
      | some _ => none
  | .search => some (s.search call)
  | .change => some (s.change call)
  | .lock =>
      (s.mutex.lock (.ordered call)).map fun mutex => { s.gotoOrdered call .erase with mutex }
  | .erase => some (s.erase call)
  | .unlock => some { s.gotoOrdered call (.returned 0) with mutex := s.mutex.unlock }
  | .returned _ | .undefined => none

/-- The first step of a call is the call. -/
def step (s : LockedTier parts) : Task → Option (LockedTier parts)
  | .inference call => s.advance call
  | .ordered call => s.advanceOrdered call

def holds (s : LockedTier parts) : Task → Hold
  | .inference call => (s.inferences call).holds
  | .ordered call => (s.ordered call).holds

end LockedTier
end SospDemo
