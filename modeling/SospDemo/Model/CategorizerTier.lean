import SospDemo.Model.Data
import SospDemo.Library.SequentialObject

/-!
# The categorizer tier

`categorizer_tier.cpp`. `inference` is cut where the code drops and retakes
`inference_engines_mutex`; `inference` itself is the composition of the pieces.
-/

namespace SospDemo

/-- What the categorizer tier takes from MXNet and OpenCV: the constructor of an engine, which
throws when `load_model` fails, and the classification of a photo, which may throw too. -/
structure EngineApi (Engine Exn : Type) where
  loadModel : Model → Except Exn Engine
  classify : Engine → Photo → Except Exn Guess

/-- An interface for runs on fixed inputs. As with MXNet a model without data does not load, and as
with OpenCV a photo without data cannot be resized. -/
def sampleApi : EngineApi Model Unit where
  loadModel model := if model.modelData.bytes = [] then .error () else .ok model
  classify model photo :=
    if photo.photoData.bytes = [] then .error ()
    else .ok ⟨if model.modelData.bytes.head? = some 114 then "rose" else "tulip", some 1⟩

variable {Engine Exn : Type}

structure InferenceEngine (api : EngineApi Engine Exn) where
  model : Model
  engine : Engine
  loaded : api.loadModel model = .ok engine

abbrev Outcome (Exn : Type) := Except Exn Guess

namespace InferenceEngine
variable {api : EngineApi Engine Exn}

def construct (api : EngineApi Engine Exn) (model : Model) : Except Exn (InferenceEngine api) :=
  match loaded : api.loadModel model with
  | .ok engine => .ok ⟨model, engine, loaded⟩
  | .error e => .error e

def inference (e : InferenceEngine api) (photo : Photo) : Outcome Exn := api.classify e.engine photo

@[ext] theorem ext_model {e f : InferenceEngine api} (same : e.model = f.model) : e = f := by
  obtain ⟨model, engine, loaded⟩ := e
  obtain ⟨model', engine', loaded'⟩ := f
  obtain rfl : model = model' := same
  obtain rfl : engine = engine' := Except.ok.inj (loaded.symm.trans loaded')
  rfl

theorem construct_eq_ok {model : Model} {e : InferenceEngine api} :
    construct api model = .ok e ↔ e.model = model := by
  unfold construct
  constructor
  · intro built
    split at built
    · exact congrArg InferenceEngine.model (Except.ok.inj built).symm
    · cases built
  · rintro rfl
    split
    · exact congrArg Except.ok (ext_model rfl)
    · rename_i failed
      cases e.loaded.symm.trans failed

theorem construct_eq_error {model : Model} {x : Exn} :
    construct api model = .error x ↔ api.loadModel model = .error x := by
  unfold construct
  split <;> rename_i loaded <;> simp [loaded]

end InferenceEngine

@[ext] structure CategorizerTier (api : EngineApi Engine Exn) where
  rawModels : StdMap UInt32 Model
  inferenceEngines : StdMap UInt32 (InferenceEngine api)

inductive OrderedOp
  | orderedInstallModel (tag : UInt32) (synsetSize symbolSize paramsSize : Int)
      (modelData : BlobWrapper)
  | orderedRemoveModel (tag : UInt32)
  deriving DecidableEq

def OrderedOp.tag : OrderedOp → UInt32
  | .orderedInstallModel tag .. => tag
  | .orderedRemoveModel tag => tag

namespace CategorizerTier
variable {api : EngineApi Engine Exn}

def empty : CategorizerTier api := ⟨.empty, .empty⟩

def notFound : Guess := ⟨"Cannot find model for photo tag.", none⟩

def cannotLoad : Guess := ⟨"Cannot load model for photo tag.  Something is wrong.", none⟩

/-! ## The ordered calls -/

def orderedInstallModel (t : CategorizerTier api) (tag : UInt32)
    (synsetSize symbolSize paramsSize : Int) (modelData : BlobWrapper) : Int × CategorizerTier api :=
  match t.rawModels.find tag with
  | some _ => (-1, t)
  | none =>
      let model : Model :=
        ⟨synsetSize, symbolSize, paramsSize, .ofBuffer modelData.bytes modelData.size⟩
      (0, { t with rawModels := t.rawModels.emplace tag model })

def orderedRemoveModel (t : CategorizerTier api) (tag : UInt32) : Int × CategorizerTier api :=
  match t.rawModels.find tag with
  | none => (-1, t)
  | some _ =>
      let rawModels := t.rawModels.erase tag
      match t.inferenceEngines.find tag with
      | some _ => (0, ⟨rawModels, t.inferenceEngines.erase tag⟩)
      | none => (0, ⟨rawModels, t.inferenceEngines⟩)

def perform (t : CategorizerTier api) : OrderedOp → Int × CategorizerTier api
  | .orderedInstallModel tag synsetSize symbolSize paramsSize modelData =>
      t.orderedInstallModel tag synsetSize symbolSize paramsSize modelData
  | .orderedRemoveModel tag => t.orderedRemoveModel tag

def installModel (tag : UInt32) (synsetSize symbolSize paramsSize : Int)
    (modelData : BlobWrapper) : OrderedOp :=
  .orderedInstallModel tag synsetSize symbolSize paramsSize modelData

def removeModel (tag : UInt32) : OrderedOp := .orderedRemoveModel tag

/-- The loop of `install_model` and `remove_model` over the reply map: the last non-zero reply,
in the order of the nodes, wins. -/
def collectReplies (replies : List Int) : Int :=
  replies.foldl (fun ret oneRet => if oneRet ≠ 0 then oneRet else ret) 0

/-! ## The pieces of `inference` -/

inductive Lookup (Exn : Type)
  | answered (outcome : Outcome Exn)
  | missed

/-- Up to where the read lock is dropped, or to the end if an engine is cached or no model is
installed. An exception of the cached engine is not caught. -/
def lookup (t : CategorizerTier api) (photo : Photo) : Lookup Exn :=
  match t.inferenceEngines.find photo.tag with
  | some engine => .answered (engine.inference photo)
  | none =>
      match t.rawModels.find photo.tag with
      | none => .answered (.ok notFound)
      | some _ => .missed

/-- `std::make_unique<InferenceEngine>(raw_models[photo.tag])`, with no lock held. -/
def build (t : CategorizerTier api) (photo : Photo) :
    CategorizerTier api × Except Exn (InferenceEngine api) :=
  let (rawModels, model) := t.rawModels.subscript photo.tag
  ({ t with rawModels }, InferenceEngine.construct api model)

/-- The `catch(...)` around building, storing and using an engine. -/
def catchAll : Outcome Exn → Outcome Exn
  | .ok guess => .ok guess
  | .error _ => .ok cannotLoad

def store (t : CategorizerTier api) (engine : InferenceEngine api) (photo : Photo) :
    CategorizerTier api × Outcome Exn :=
  ({ t with inferenceEngines := t.inferenceEngines.assign photo.tag engine },
    catchAll (engine.inference photo))

def inference (t : CategorizerTier api) (photo : Photo) : CategorizerTier api × Outcome Exn :=
  match t.lookup photo with
  | .answered outcome => (t, outcome)
  | .missed =>
      match t.build photo with
      | (t, .ok engine) => t.store engine photo
      | (t, .error e) => (t, catchAll (.error e))

def Coherent (t : CategorizerTier api) : Prop :=
  ∀ tag engine, t.inferenceEngines.find tag = some engine →
    t.rawModels.find tag = some engine.model

theorem coherent_empty : (empty : CategorizerTier api).Coherent := by
  intro tag engine cached
  cases cached

theorem Coherent.engine_absent {t : CategorizerTier api} (coherent : t.Coherent) {tag : UInt32}
    (absent : t.rawModels.find tag = none) : t.inferenceEngines.find tag = none := by
  cases cached : t.inferenceEngines.find tag with
  | none => rfl
  | some engine => cases absent.symm.trans (coherent tag engine cached)

end CategorizerTier

/-! ## The store as a keyed machine -/

def OrderedOp.act : OrderedOp → Option Model → Int × Option Model
  | .orderedInstallModel .., some model => (-1, some model)
  | .orderedInstallModel _ synsetSize symbolSize paramsSize modelData, none =>
      (0, some ⟨synsetSize, symbolSize, paramsSize, ⟨modelData.bytes⟩⟩)
  | .orderedRemoveModel _, some _ => (0, none)
  | .orderedRemoveModel _, none => (-1, none)

def OrderedOp.dropsEngine : OrderedOp → Option Model → Bool
  | .orderedRemoveModel _, some _ => true
  | _, _ => false

theorem OrderedOp.act_cases (op : OrderedOp) (entry : Option Model) :
    entry = none ∧ op.dropsEngine entry = false ∨
      (op.act entry).2 = entry ∧ op.dropsEngine entry = false ∨
      op = .orderedRemoveModel op.tag ∧ (op.act entry).2 = none ∧ op.dropsEngine entry = true := by
  cases op <;> cases entry <;> simp [act, dropsEngine, OrderedOp.tag]

structure OrderedCall where
  id : Nat
  op : OrderedOp
  deriving DecidableEq

abbrev OrderedCall.tag (c : OrderedCall) : UInt32 := c.op.tag

@[simps] def modelStore : KeyedMachine UInt32 Model OrderedCall Int where
  key c := c.tag
  act c := c.op.act

namespace CategorizerTier
variable {api : EngineApi Engine Exn}

theorem perform_eq (t : CategorizerTier api) (op : OrderedOp) :
    t.perform op = ((op.act (t.rawModels.find op.tag)).1,
      ⟨t.rawModels.put op.tag (op.act (t.rawModels.find op.tag)).2,
        if op.dropsEngine (t.rawModels.find op.tag) then t.inferenceEngines.erase op.tag
        else t.inferenceEngines⟩) := by
  cases op with
  | orderedInstallModel tag synsetSize symbolSize paramsSize modelData =>
      cases bound : t.rawModels.find tag with
      | none =>
          simp [perform, orderedInstallModel, OrderedOp.act, OrderedOp.dropsEngine, OrderedOp.tag,
            bound, StdMap.emplace_of_absent]
      | some model =>
          simp [perform, orderedInstallModel, OrderedOp.act, OrderedOp.dropsEngine, OrderedOp.tag,
            bound, StdMap.assign_of_present bound]
  | orderedRemoveModel tag =>
      cases bound : t.rawModels.find tag with
      | none =>
          simp [perform, orderedRemoveModel, OrderedOp.act, OrderedOp.dropsEngine, OrderedOp.tag,
            bound, StdMap.erase_of_absent bound]
      | some model =>
          cases cached : t.inferenceEngines.find tag with
          | none =>
              simp [perform, orderedRemoveModel, OrderedOp.act, OrderedOp.dropsEngine,
                OrderedOp.tag, bound, cached, StdMap.erase_of_absent cached]
          | some engine =>
              simp [perform, orderedRemoveModel, OrderedOp.act, OrderedOp.dropsEngine,
                OrderedOp.tag, bound, cached]

@[simp] theorem perform_code (t : CategorizerTier api) (op : OrderedOp) :
    (t.perform op).1 = (op.act (t.rawModels.find op.tag)).1 := by
  rw [perform_eq]

@[simp] theorem perform_rawModels (t : CategorizerTier api) (op : OrderedOp) :
    (t.perform op).2.rawModels = t.rawModels.put op.tag (op.act (t.rawModels.find op.tag)).2 := by
  rw [perform_eq]

theorem perform_inferenceEngines (t : CategorizerTier api) (op : OrderedOp) :
    (t.perform op).2.inferenceEngines =
      if op.dropsEngine (t.rawModels.find op.tag) then t.inferenceEngines.erase op.tag
      else t.inferenceEngines := by
  rw [perform_eq]

theorem perform_find_of_ne (t : CategorizerTier api) (op : OrderedOp) {tag : UInt32}
    (other : tag ≠ op.tag) : (t.perform op).2.rawModels.find tag = t.rawModels.find tag := by
  rw [perform_rawModels, StdMap.find_put_of_ne _ _ other]

theorem Coherent.perform {t : CategorizerTier api} (coherent : t.Coherent) (op : OrderedOp) :
    (t.perform op).2.Coherent := by
  intro tag engine cached
  rw [perform_inferenceEngines] at cached
  by_cases same : tag = op.tag
  · subst same
    rw [perform_rawModels, StdMap.find_put_self]
    rcases op.act_cases (t.rawModels.find op.tag) with
      ⟨free, keeps⟩ | ⟨unchanged, keeps⟩ | ⟨-, -, drops⟩
    · simp only [keeps, Bool.false_eq_true, if_false] at cached
      cases free.symm.trans (coherent _ _ cached)
    · simp only [keeps, Bool.false_eq_true, if_false] at cached
      rw [unchanged]
      exact coherent _ _ cached
    · simp [drops] at cached
  · rw [perform_find_of_ne t op same]
    split at cached
    · rw [StdMap.find_erase, if_neg same] at cached
      exact coherent _ _ cached
    · exact coherent _ _ cached

theorem build_eq (t : CategorizerTier api) (photo : Photo) :
    t.build photo =
      (⟨t.rawModels.assign photo.tag ((t.rawModels.find photo.tag).getD default),
        t.inferenceEngines⟩,
      InferenceEngine.construct api ((t.rawModels.find photo.tag).getD default)) := by
  cases bound : t.rawModels.find photo.tag with
  | none => simp [build, StdMap.subscript_of_absent bound]
  | some model => simp [build, StdMap.subscript_of_present bound, StdMap.assign_of_present bound]

theorem build_of_bound {t : CategorizerTier api} {photo : Photo} {model : Model}
    (bound : t.rawModels.find photo.tag = some model) :
    t.build photo = (t, InferenceEngine.construct api model) := by
  simp [build, StdMap.subscript_of_present bound]

theorem lookup_of_cached {t : CategorizerTier api} {photo : Photo} {engine : InferenceEngine api}
    (cached : t.inferenceEngines.find photo.tag = some engine) :
    t.lookup photo = .answered (engine.inference photo) := by
  simp [lookup, cached]

theorem lookup_of_unbound {t : CategorizerTier api} {photo : Photo}
    (uncached : t.inferenceEngines.find photo.tag = none)
    (unbound : t.rawModels.find photo.tag = none) :
    t.lookup photo = .answered (.ok notFound) := by
  simp [lookup, uncached, unbound]

theorem lookup_of_uncached {t : CategorizerTier api} {photo : Photo} {model : Model}
    (uncached : t.inferenceEngines.find photo.tag = none)
    (bound : t.rawModels.find photo.tag = some model) : t.lookup photo = .missed := by
  simp [lookup, uncached, bound]

/-! ## `inference` run alone, in a coherent tier -/

theorem inference_of_unbound {t : CategorizerTier api} (coherent : t.Coherent) {photo : Photo}
    (unbound : t.rawModels.find photo.tag = none) : t.inference photo = (t, .ok notFound) := by
  rw [inference, lookup_of_unbound (coherent.engine_absent unbound) unbound]

theorem inference_of_cached {t : CategorizerTier api} (coherent : t.Coherent) {photo : Photo}
    {engine cached : InferenceEngine api} (found : t.inferenceEngines.find photo.tag = some cached)
    (bound : t.rawModels.find photo.tag = some engine.model) :
    t.inference photo = (t, engine.inference photo) := by
  have same : cached = engine :=
    InferenceEngine.ext_model (Option.some.inj ((coherent _ _ found).symm.trans bound))
  rw [inference, lookup_of_cached found, same]

theorem inference_of_uncached {t : CategorizerTier api} {photo : Photo}
    {engine : InferenceEngine api} (uncached : t.inferenceEngines.find photo.tag = none)
    (bound : t.rawModels.find photo.tag = some engine.model) :
    t.inference photo =
      ({ t with inferenceEngines := t.inferenceEngines.assign photo.tag engine },
        catchAll (engine.inference photo)) := by
  have built : InferenceEngine.construct api engine.model = .ok engine :=
    InferenceEngine.construct_eq_ok.mpr rfl
  rw [inference, lookup_of_uncached uncached bound, build_of_bound bound, built]
  rfl

theorem inference_of_unloadable {t : CategorizerTier api} (coherent : t.Coherent) {photo : Photo}
    {model : Model} {x : Exn} (bound : t.rawModels.find photo.tag = some model)
    (fails : api.loadModel model = .error x) : t.inference photo = (t, .ok cannotLoad) := by
  have uncached : t.inferenceEngines.find photo.tag = none := by
    cases cached : t.inferenceEngines.find photo.tag with
    | none => rfl
    | some engine =>
        have same : engine.model = model :=
          Option.some.inj ((coherent _ _ cached).symm.trans bound)
        cases (same ▸ engine.loaded).symm.trans fails
  have broken : InferenceEngine.construct api model = .error x :=
    InferenceEngine.construct_eq_error.mpr fails
  rw [inference, lookup_of_uncached uncached bound, build_of_bound bound, broken]
  rfl

theorem Coherent.assign {t : CategorizerTier api} (coherent : t.Coherent) {tag : UInt32}
    {engine : InferenceEngine api} (bound : t.rawModels.find tag = some engine.model) :
    ({ t with inferenceEngines := t.inferenceEngines.assign tag engine } :
      CategorizerTier api).Coherent := by
  intro other cached found
  rw [StdMap.find_assign] at found
  split at found
  · rename_i same
    obtain rfl := Option.some.inj found
    exact same ▸ bound
  · exact coherent other cached found

theorem collectReplies_replicate (code : Int) {n : Nat} (pos : 0 < n) :
    collectReplies (List.replicate n code) = code := by
  have loop : ∀ (m : Nat) (ret : Int), ret = 0 ∨ ret = code →
      (List.replicate m code).foldl (fun ret oneRet => if oneRet ≠ 0 then oneRet else ret) ret =
        if m = 0 then ret else code := by
    intro m
    induction m with
    | zero => intro ret _; rfl
    | succ m ih =>
        intro ret start
        rw [List.replicate_succ, List.foldl_cons, ih]
        · by_cases last : m = 0 <;> by_cases ok : code = 0 <;> simp_all
        · by_cases ok : code = 0 <;> simp_all
  rw [collectReplies, loop n 0 (Or.inl rfl), if_neg (Nat.pos_iff_ne_zero.mp pos)]

end CategorizerTier

end SospDemo
