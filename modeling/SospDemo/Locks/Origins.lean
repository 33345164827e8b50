import SospDemo.Locks.Photos
import SospDemo.Replica.Sources

namespace SospDemo
open Buffers
variable {Engine Input Output Exn : Type}

/-- One of the two fixed texts, or what an engine of a good model makes of one of these photos. -/
def AnsweredFrom (api : EngineApi Engine Exn) (good : Model → Prop) (photos : Photo → Prop)
    (outcome : Outcome Exn) : Prop :=
  outcome = .ok CategorizerTier.notFound ∨ outcome = .ok CategorizerTier.cannotLoad ∨
    ∃ (engine : InferenceEngine api) (photo : Photo), good engine.model ∧ photos photo ∧
      (outcome = engine.inference photo ∨
        outcome = CategorizerTier.catchAll (engine.inference photo))

variable {parts : EngineParts Engine Input Output Exn}

structure EngineObject.From (object : EngineObject parts) (good : Model → Prop)
    (photos : Photo → Prop) : Prop where
  model : good object.engine.model
  data : ∀ input, object.data = some input →
    ∃ photo, photos photo ∧ parts.decode photo = .ok input
  outputs : ∀ output, object.outputs = some output →
    ∃ photo input, photos photo ∧ parts.decode photo = .ok input ∧
      parts.forward object.engine.engine input = .ok output

def InferencePc.answer : InferencePc Exn → Option (Outcome Exn)
  | .unlock path outcome => some (path.outcome outcome)
  | .answered outcome => some outcome
  | _ => none

def EngineOwner.tag : EngineOwner → UInt32
  | .cached tag => tag
  | .building call => call.tag

namespace LockedTier
variable {s next : LockedTier parts} {call : InferenceCall} {good : UInt32 → Model → Prop}
  {asked : InferenceCall → Prop}

def AskedUnder (asked : InferenceCall → Prop) (tag : UInt32) (photo : Photo) : Prop :=
  photo.tag = tag ∧ ∃ id, asked ⟨id, photo⟩

def Brings (good : UInt32 → Model → Prop) (asked : InferenceCall → Prop) : Task → Prop
  | .inference call => asked call
  | .ordered call => call.op.Good good

structure Traced (s : LockedTier parts) (good : UInt32 → Model → Prop)
    (asked : InferenceCall → Prop) : Prop where
  models : s.rawModels.All good
  engines : ∀ v engine object, s.owns v = some engine → s.object engine = some object →
    object.From (good v.tag) (AskedUnder asked v.tag)

theorem traced_constructed {rawModels : StdMap UInt32 Model} (models : rawModels.All good) :
    (constructed rawModels : LockedTier parts).Traced good asked := by
  refine ⟨models, fun v engine object owned => ?_⟩
  cases v <;> cases owned

/-! ## Models -/

theorem Reads.all {rawModels : StdMap UInt32 Model} (reads : s.Reads call rawModels)
    (models : s.rawModels.All good) (empty : ∀ tag, good tag default) : rawModels.All good := by
  rcases reads with rfl | ⟨-, rfl⟩
  · exact models
  · exact (models.subscript (empty call.tag)).1

theorem change_all (models : s.rawModels.All good) {call : OrderedCall}
    (installs : call.op.Good good) : (s.change call).rawModels.All good := by
  obtain ⟨id, op⟩ := call
  cases op with
  | orderedInstallModel tag synsetSize symbolSize paramsSize modelData =>
      exact models.emplace (installs _ (by simp [OrderedOp.act]))
  | orderedRemoveModel tag =>
      unfold change
      dsimp only
      split
      · exact models
      · refine models.put fun model gone => ?_
        cases gone

theorem advanceOrdered_all (models : s.rawModels.All good) {call : OrderedCall}
    (installs : call.op.Good good) (taken : s.advanceOrdered call = some next) :
    next.rawModels.All good := by
  cases place : s.ordered call with
  | change =>
      simp only [advanceOrdered, place, Option.some.injEq] at taken
      exact taken ▸ change_all models installs
  | outside =>
      simp only [advanceOrdered, place] at taken
      split at taken <;> cases taken
      exact models
  | search =>
      simp only [advanceOrdered, place, search, Option.some.injEq] at taken
      subst taken
      split <;> exact models
  | lock =>
      simp only [advanceOrdered, place, Option.map_eq_some_iff] at taken
      obtain ⟨mutex, -, rfl⟩ := taken
      exact models
  | erase =>
      simp only [advanceOrdered, place, erase, Option.some.injEq] at taken
      subst taken
      split <;> exact models
  | unlock =>
      simp only [advanceOrdered, place, Option.some.injEq] at taken
      exact taken ▸ models
  | returned code => simp [advanceOrdered, place] at taken
  | undefined => simp [advanceOrdered, place] at taken

/-! ## Engines -/

theorem Traced.cached (traced : s.Traced good asked) {tag : UInt32} {engine : Nat}
    {object : EngineObject parts} (cached : s.inferenceEngines.find tag = some engine)
    (found : s.object engine = some object) : object.From (good tag) (AskedUnder asked tag) :=
  traced.engines (.cached tag) engine object cached found

theorem Traced.engines_frame (traced : s.Traced good asked) {v : EngineOwner} {engine : Nat}
    {object : EngineObject parts} (owned : s.owns v = some engine)
    (same : next.object engine = s.object engine) (found : next.object engine = some object) :
    object.From (good v.tag) (AskedUnder asked v.tag) :=
  traced.engines v engine object owned (same.symm.trans found)

theorem Traced.builds (traced : s.Traced good asked) (safe : s.Safe)
    (empty : ∀ tag, good tag default) {engine : InferenceEngine parts.api}
    (built : InferenceEngine.construct parts.api (s.rawModels.subscript call.tag).2 = .ok engine)
    (inferences : next.owns = Function.update s.owns (.building call) (some s.memory.length))
    (memory : next.memory = s.memory.alloc [⟨engine, none, none⟩])
    (v : EngineOwner) (p : Nat) (object : EngineObject parts) (owned : next.owns v = some p)
    (found : next.object p = some object) :
    object.From (good v.tag) (AskedUnder asked v.tag) := by
  rw [inferences] at owned
  rcases eq_or_ne v (.building call) with rfl | apart
  · rw [Function.update_self] at owned
    obtain rfl := Option.some.inj owned
    have fresh : next.memory.buffer s.memory.length = some [⟨engine, none, none⟩] := by
      rw [memory, Memory.buffer_alloc_self]
    obtain rfl := Option.some.inj ((object_eq_some fresh).symm.trans found)
    refine ⟨?_, nofun, nofun⟩
    rw [InferenceEngine.construct_eq_ok.mp built]
    exact (traced.models.subscript (empty call.tag)).2
  · rw [Function.update_of_ne apart] at owned
    obtain ⟨old, live, here⟩ := safe.object_of_owns owned
    have same : next.object p = s.object p := by
      rw [here]
      exact object_eq_some (memory ▸ Memory.buffer_alloc_of_live live)
    exact traced.engines_frame owned same found

theorem Traced.assigns (traced : s.Traced good asked) (safe : s.Safe) {engine : Nat}
    (place : s.inferences call = .assign engine) (v : EngineOwner) (p : Nat)
    (object : EngineObject parts) (owned : (s.assign call engine).owns v = some p)
    (found : (s.assign call engine).object p = some object) :
    object.From (good v.tag) (AskedUnder asked v.tag) := by
  -- the engine passes from the call to the map, under the same tag
  obtain ⟨w, same, stays, owned⟩ : ∃ w : EngineOwner, w.tag = v.tag ∧ w ≠ .cached call.tag ∧
      s.owns w = some p := by
    rw [owns_assign s place, Function.comp_apply, Function.update_apply] at owned
    split at owned
    · cases owned
    · rename_i stays
      refine ⟨_, ?_, stays, owned⟩
      rcases eq_or_ne v (.cached call.tag) with rfl | apart
      · rw [Equiv.swap_apply_left]
        rfl
      · rcases eq_or_ne v (.building call) with rfl | other
        · exact absurd (Equiv.swap_apply_right _ _) stays
        · rw [Equiv.swap_apply_of_ne_of_ne apart other]
  have kept : (s.assign call engine).object p = s.object p := by
    cases cached : s.inferenceEngines.find call.tag with
    | none => simp only [LockedTier.object, assign, cached]
    | some old => exact safe.object_of_free owned cached stays (by simp only [assign, cached])
  exact same ▸ traced.engines_frame owned kept found

theorem Traced.writes (traced : s.Traced good asked) (safe : s.Safe) {engine : Nat}
    {new : EngineObject parts} (cached : s.inferenceEngines.find call.tag = some engine)
    (origin : new.From (good call.tag) (AskedUnder asked call.tag)) (owns : next.owns = s.owns)
    (memory : next.memory = s.memory.write engine [new]) (v : EngineOwner) (p : Nat)
    (object : EngineObject parts) (owned : next.owns v = some p)
    (found : next.object p = some object) :
    object.From (good v.tag) (AskedUnder asked v.tag) := by
  rw [owns] at owned
  by_cases here : p = engine
  · subst here
    obtain rfl := safe.owned.unshared v (.cached call.tag) p owned cached
    obtain ⟨old, live, -⟩ := safe.object_of_cached cached
    have written : next.memory.buffer p = some [new] := by
      rw [memory, Memory.buffer_write_self live]
    obtain rfl := Option.some.inj ((object_eq_some written).symm.trans found)
    exact origin
  · have same : next.object p = s.object p := by
      rw [LockedTier.object, LockedTier.object, memory, Memory.buffer_write_of_ne _ here]
    exact traced.engines_frame owned same found

theorem Traced.kept (traced : s.Traced good asked) (safe : s.Safe)
    (empty : ∀ tag, good tag default) {t : Task} (brings : Brings good asked t)
    (taken : s.step t = some next) : next.Traced good asked := by
  cases safe.effect taken with
  | moves pc mutex rawModels held unstored idle fits reads =>
      refine ⟨reads.all traced.models empty, fun v engine object owned found => ?_⟩
      exact traced.engines v engine object (owns_goto_same s unstored ▸ owned) found
  | builds engine rawModels place reads built =>
      exact ⟨reads.all traced.models empty,
        traced.builds safe empty built (owns_goto s _ (.lock s.memory.length)) rfl⟩
  | assigns engine place => exact ⟨traced.models, traced.assigns safe place⟩
  | @copies call path engine object input place cached found decoded =>
      have before := traced.cached cached found
      have origin : EngineObject.From { object with data := some input } (good call.tag)
          (AskedUnder asked call.tag) := by
        refine ⟨before.model, ?_, before.outputs⟩
        rintro _ ⟨⟩
        exact ⟨call.photo, ⟨rfl, call.id, brings⟩, decoded⟩
      exact ⟨traced.models,
        traced.writes safe cached origin (owns_goto_same s (by rw [place]; rfl)) rfl⟩
  | @computes call path engine built input outputs output place cached found computed =>
      have before := traced.cached cached found
      have origin : (⟨built, some input, some output⟩ : EngineObject parts).From (good call.tag)
          (AskedUnder asked call.tag) := by
        obtain ⟨photo, seen, decoded⟩ := before.data input rfl
        refine ⟨before.model, before.data, ?_⟩
        rintro _ ⟨⟩
        exact ⟨photo, input, seen, decoded, computed⟩
      exact ⟨traced.models,
        traced.writes safe cached origin (owns_goto_same s (by rw [place]; rfl)) rfl⟩
  | movesOrdered pc mutex rawModels held own fits =>
      exact ⟨advanceOrdered_all traced.models brings taken, traced.engines⟩
  | @erases call engine place cached =>
      refine ⟨traced.models, fun v p object owned found => ?_⟩
      rw [owns_erases, Function.update_apply] at owned
      split at owned
      · cases owned
      · rename_i stays
        exact traced.engines_frame owned (safe.object_of_free owned cached stays rfl) found

/-! ## Answers -/

def Shows (s : LockedTier parts) (photos : Photo → Prop) : InferencePc Exn → Prop
  | .forward _ engine => ∀ object input, s.object engine = some object →
      object.data = some input → ∃ photo, photos photo ∧ parts.decode photo = .ok input
  | .read _ engine => ∀ object output, s.object engine = some object →
      object.outputs = some output → ∃ photo input, photos photo ∧
        parts.decode photo = .ok input ∧ parts.forward object.engine.engine input = .ok output
  | _ => True

theorem answeredFrom_engine {api : EngineApi Engine Exn} {fine : Model → Prop}
    {photos : Photo → Prop} {engine : InferenceEngine api} {photo : Photo}
    (model : fine engine.model) (seen : photos photo) (path : Path) :
    AnsweredFrom api fine photos (path.outcome (engine.inference photo)) := by
  refine .inr (.inr ⟨engine, photo, model, seen, ?_⟩)
  cases path with
  | hit => exact .inl rfl
  | miss => exact .inr rfl

section Engines
variable {path : Path} {engine : Nat} {outcome : Outcome Exn}

theorem Safe.copy_answer (safe : s.Safe) (place : s.inferences call = .copy path engine)
    (taken : s.advance call = some next) (answer : (next.inferences call).answer = some outcome) :
    ∃ object, s.inferenceEngines.find call.tag = some engine ∧ s.object engine = some object ∧
      outcome = path.outcome (object.engine.inference call.photo) := by
  have fits := safe.fits call
  rw [place] at fits
  obtain ⟨object, -, found⟩ := safe.object_of_cached fits
  simp only [advance, place, copy, found, Option.some.injEq] at taken
  subst taken
  cases decoded : parts.decode call.photo with
  | ok input => simp [decoded, goto, InferencePc.answer] at answer
  | error e =>
      have thrown : object.engine.inference call.photo = .error e :=
        EngineParts.classify_of_decode_error decoded
      simp only [decoded, goto, Function.update_self, InferencePc.answer,
        Option.some.injEq] at answer
      exact ⟨object, fits, found, by rw [thrown, answer]⟩

theorem Safe.forward_answer (safe : s.Safe) (place : s.inferences call = .forward path engine)
    (taken : s.advance call = some next) (answer : (next.inferences call).answer = some outcome) :
    ∃ object input, s.inferenceEngines.find call.tag = some engine ∧
      s.object engine = some object ∧ object.data = some input ∧
      ∀ photo, parts.decode photo = .ok input →
        outcome = path.outcome (object.engine.inference photo) := by
  have fits := safe.fits call
  rw [place] at fits
  obtain ⟨cached, ⟨built, data, outputs⟩, found, hasData⟩ := fits
  obtain ⟨input, rfl⟩ := Option.ne_none_iff_exists'.mp hasData
  simp only [advance, place, forward, found, Option.some.injEq] at taken
  subst taken
  refine ⟨_, input, cached, found, rfl, fun photo decoded => ?_⟩
  cases computed : parts.forward built.engine input with
  | ok output => simp [computed, goto, InferencePc.answer] at answer
  | error e =>
      have thrown : built.inference photo = .error e :=
        EngineParts.classify_of_forward_error decoded computed
      simp only [computed, goto, Function.update_self, InferencePc.answer,
        Option.some.injEq] at answer
      rw [thrown, answer]

theorem Safe.read_answer (safe : s.Safe) (place : s.inferences call = .read path engine)
    (taken : s.advance call = some next) (answer : (next.inferences call).answer = some outcome) :
    ∃ object output, s.inferenceEngines.find call.tag = some engine ∧
      s.object engine = some object ∧ object.outputs = some output ∧
      ∀ photo input, parts.decode photo = .ok input →
        parts.forward object.engine.engine input = .ok output →
        outcome = path.outcome (object.engine.inference photo) := by
  have fits := safe.fits call
  rw [place] at fits
  obtain ⟨cached, ⟨built, data, outputs⟩, found, hasOutputs⟩ := fits
  obtain ⟨output, rfl⟩ := Option.ne_none_iff_exists'.mp hasOutputs
  simp only [advance, place, read, found, Option.some.injEq] at taken
  subst taken
  refine ⟨_, output, cached, found, rfl, fun photo input decoded computed => ?_⟩
  have described : built.inference photo = parts.describe built.engine output :=
    EngineParts.classify_of_forward decoded computed
  simp only [goto, Function.update_self, InferencePc.answer, Option.some.injEq] at answer
  rw [described, answer]

end Engines

theorem Safe.answer_step (safe : s.Safe) {fine : Model → Prop} {photos : Photo → Prop}
    (models : ∀ engine object, s.inferenceEngines.find call.tag = some engine →
      s.object engine = some object → fine object.engine.model)
    (own : photos call.photo) (seen : s.Shows photos (s.inferences call))
    (taken : s.advance call = some next) {outcome : Outcome Exn}
    (answer : (next.inferences call).answer = some outcome) :
    (s.inferences call).answer = some outcome ∨ AnsweredFrom parts.api fine photos outcome := by
  cases place : s.inferences call with
  | outside | unlockMissed | assign engine =>
      simp only [advance, place, Option.some.injEq] at taken
      subst taken
      simp [goto, assign, InferencePc.answer] at answer
  | lockShared | lock engine =>
      simp only [advance, place, Option.map_eq_some_iff] at taken
      obtain ⟨mutex, -, rfl⟩ := taken
      simp [goto, InferencePc.answer] at answer
  | findEngine | subscript path =>
      simp only [advance, place] at taken
      split at taken <;> cases taken <;> simp [goto, InferencePc.answer] at answer
  | findModel =>
      simp only [advance, place] at taken
      split at taken <;> cases taken <;> simp [goto, InferencePc.answer, Path.outcome] at answer
      exact .inr (.inl answer.symm)
  | build =>
      simp only [advance, place, Option.some.injEq] at taken
      subst taken
      unfold LockedTier.build at answer
      dsimp only at answer
      split at answer
      · simp only [goto, Function.update_self, InferencePc.answer, Option.some.injEq] at answer
        exact .inr (.inr (.inl answer.symm))
      · simp [goto, InferencePc.answer] at answer
  | copy path engine =>
      obtain ⟨object, cached, found, rfl⟩ := safe.copy_answer place taken answer
      exact .inr (answeredFrom_engine (models engine object cached found) own path)
  | forward path engine =>
      obtain ⟨object, input, cached, found, data, outcome_eq⟩ :=
        safe.forward_answer place taken answer
      rw [place] at seen
      obtain ⟨photo, shown, decoded⟩ := seen object input found data
      obtain rfl := outcome_eq photo decoded
      exact .inr (answeredFrom_engine (models engine object cached found) shown path)
  | read path engine =>
      obtain ⟨object, output, cached, found, outputs, outcome_eq⟩ :=
        safe.read_answer place taken answer
      rw [place] at seen
      obtain ⟨photo, input, shown, decoded, computed⟩ := seen object output found outputs
      obtain rfl := outcome_eq photo input decoded computed
      exact .inr (answeredFrom_engine (models engine object cached found) shown path)
  | unlock path given =>
      simp only [advance, place, unlock, Option.some.injEq] at taken
      subst taken
      simpa [goto, InferencePc.answer] using Or.inl answer
  | answered given => simp [advance, place] at taken
  | undefined => simp [advance, place] at taken

def Answers (s : LockedTier parts) (good : UInt32 → Model → Prop)
    (photos : InferenceCall → Photo → Prop) : Prop :=
  ∀ call outcome, (s.inferences call).answer = some outcome →
    AnsweredFrom parts.api (good call.tag) (photos call) outcome

theorem Answers.kept {photos : InferenceCall → Photo → Prop} (answers : s.Answers good photos)
    (safe : s.Safe) (traced : s.Traced good asked) {t : Task}
    (own : ∀ call, t = .inference call → photos call call.photo)
    (seen : ∀ call, s.Shows (photos call) (s.inferences call)) (taken : s.step t = some next) :
    next.Answers good photos := by
  intro call outcome answer
  by_cases same : .inference call = t
  · subst same
    have models (engine : Nat) (object : EngineObject parts)
        (cached : s.inferenceEngines.find call.tag = some engine)
        (found : s.object engine = some object) : good call.tag object.engine.model :=
      (traced.cached cached found).model
    exact (safe.answer_step models (own call rfl) (seen call) taken answer).elim
      (answers call outcome) id
  · rw [safe.inferences_kept taken same] at answer
    exact answers call outcome answer

end LockedTier
end SospDemo
