import SospDemo.Model.CategorizerTier

/-!
# The cached path and the loading path

With an engine cached, `inference` calls it directly and lets its exceptions out to the RPC layer.
With none, the call stands inside the `catch(...)` meant for loading, which turns an exception of
the photo into the text for a model that cannot be loaded.
-/

namespace SospDemo
namespace CategorizerTier
variable {Engine Exn : Type} {api : EngineApi Engine Exn}

def afterAsking (t : CategorizerTier api) (photo : Photo) : Nat → CategorizerTier api
  | 0 => t
  | n + 1 => ((t.afterAsking photo n).inference photo).1

def nthOutcome (t : CategorizerTier api) (photo : Photo) (n : Nat) : Outcome Exn :=
  ((t.afterAsking photo n).inference photo).2

theorem afterAsking_keeps {t : CategorizerTier api} (coherent : t.Coherent) {photo : Photo}
    {engine : InferenceEngine api} (bound : t.rawModels.find photo.tag = some engine.model)
    (n : Nat) :
    (t.afterAsking photo n).Coherent ∧ (t.afterAsking photo n).rawModels = t.rawModels := by
  induction n with
  | zero => exact ⟨coherent, rfl⟩
  | succ n ih =>
      obtain ⟨stillCoherent, same⟩ := ih
      have stillBound : (t.afterAsking photo n).rawModels.find photo.tag = some engine.model :=
        same ▸ bound
      cases cached : (t.afterAsking photo n).inferenceEngines.find photo.tag with
      | some other =>
          rw [afterAsking, inference_of_cached stillCoherent cached stillBound]
          exact ⟨stillCoherent, same⟩
      | none =>
          rw [afterAsking, inference_of_uncached cached stillBound]
          exact ⟨stillCoherent.assign stillBound, same⟩

theorem nthOutcome_eq {t : CategorizerTier api} (coherent : t.Coherent) {photo : Photo}
    {engine : InferenceEngine api} (bound : t.rawModels.find photo.tag = some engine.model)
    (n : Nat) :
    t.nthOutcome photo n =
      if (t.afterAsking photo n).inferenceEngines.find photo.tag = none
      then catchAll (engine.inference photo) else engine.inference photo := by
  obtain ⟨stillCoherent, same⟩ := afterAsking_keeps coherent bound n
  have stillBound : (t.afterAsking photo n).rawModels.find photo.tag = some engine.model :=
    same ▸ bound
  cases cached : (t.afterAsking photo n).inferenceEngines.find photo.tag with
  | some other => simp [nthOutcome, inference_of_cached stillCoherent cached stillBound]
  | none => simp [nthOutcome, inference_of_uncached cached stillBound]

def holding (tag : UInt32) (model : Model) : CategorizerTier api :=
  ⟨StdMap.empty.assign tag model, .empty⟩

theorem same_outcome_iff_classifies (photo : Photo) (engine : InferenceEngine api) :
    (∀ (t t' : CategorizerTier api) (n n' : Nat), t.Coherent → t'.Coherent →
      t.rawModels.find photo.tag = some engine.model →
      t'.rawModels.find photo.tag = some engine.model →
      t.nthOutcome photo n = t'.nthOutcome photo n') ↔
    ∃ guess, engine.inference photo = .ok guess := by
  constructor
  · intro agree
    let t : CategorizerTier api := holding photo.tag engine.model
    have coherent : t.Coherent := by
      intro tag cached found
      cases found
    have bound : t.rawModels.find photo.tag = some engine.model := StdMap.find_assign_self ..
    have uncached : t.inferenceEngines.find photo.tag = none := rfl
    -- the first question loads the model, the second finds the engine cached
    have first : t.nthOutcome photo 0 = catchAll (engine.inference photo) := by
      rw [nthOutcome_eq coherent bound, afterAsking, if_pos uncached]
    have second : t.nthOutcome photo 1 = engine.inference photo := by
      simp [nthOutcome_eq coherent bound, afterAsking, inference_of_uncached uncached bound]
    have same := first.symm.trans ((agree t t 0 1 coherent coherent bound bound).trans second)
    cases result : engine.inference photo with
    | ok guess => exact ⟨guess, rfl⟩
    | error x => simp [result, catchAll] at same
  · rintro ⟨guess, classifies⟩ t t' n n' coherent coherent' bound bound'
    rw [nthOutcome_eq coherent bound, nthOutcome_eq coherent' bound', classifies]
    simp [catchAll]

theorem empty_photo_outcomes :
    ∃ t : CategorizerTier sampleApi, t.Coherent ∧
      t.rawModels.find 7 = some ⟨1, 1, 1, ⟨[114, 1, 2]⟩⟩ ∧
      t.nthOutcome ⟨7, ⟨[]⟩⟩ 0 = .ok cannotLoad ∧ t.nthOutcome ⟨7, ⟨[]⟩⟩ 1 = .error () := by
  refine ⟨holding 7 ⟨1, 1, 1, ⟨[114, 1, 2]⟩⟩, ?_, rfl, rfl, rfl⟩
  intro tag cached found
  cases found

end CategorizerTier
end SospDemo
