import SospDemo.Replica.Coherence
import SospDemo.Tier.Agreement

/-!
# What a replica answers

Between its lookup and its store an inference loads a model. If no removal of the tag is delivered
meanwhile, the answer is the one of a replica that has cached nothing and delivered some of the
calls that this one has, namely those delivered when the lookup or the build read the maps. Only
an exception of a cached engine gets through where that replica would catch it.
-/

namespace SospDemo
variable {Engine Exn : Type} {api : EngineApi Engine Exn}

namespace Phase

def loading : Phase api → Bool
  | .missed | .built _ => true
  | .returned _ => false

@[simp] theorem afterBuild_ne_missed (result : Except Exn (InferenceEngine api)) :
    afterBuild result ≠ .missed := by
  cases result <;> simp [afterBuild]

theorem afterLookup_eq_missed {found : CategorizerTier.Lookup Exn} :
    (afterLookup found : Phase api) = .missed ↔ found = .missed := by
  cases found <;> simp [afterLookup]

end Phase

namespace CategorizerTier

theorem lookup_eq_missed {t : CategorizerTier api} {photo : Photo} :
    t.lookup photo = .missed ↔
      t.inferenceEngines.find photo.tag = none ∧ t.rawModels.find photo.tag ≠ none := by
  cases cached : t.inferenceEngines.find photo.tag with
  | some engine => simp [lookup, cached]
  | none => cases bound : t.rawModels.find photo.tag <;> simp [lookup, cached, bound]

def answerAfter (api : EngineApi Engine Exn) (seen : List OrderedCall) (photo : Photo) :
    Outcome Exn :=
  ((⟨modelStore.toObject.after seen, .empty⟩ : CategorizerTier api).inference photo).2

variable {seen : List OrderedCall} {photo : Photo}

theorem answerAfter_of_unbound (unbound : (modelStore.toObject.after seen).find photo.tag = none) :
    answerAfter api seen photo = .ok notFound := by
  rw [answerAfter, inference_of_unbound (fun _ _ cached => by cases cached) unbound]

theorem answerAfter_of_bound {engine : InferenceEngine api}
    (bound : (modelStore.toObject.after seen).find photo.tag = some engine.model) :
    answerAfter api seen photo = catchAll (engine.inference photo) := by
  rw [answerAfter, inference_of_uncached rfl bound]

theorem answerAfter_of_unloadable {model : Model} {x : Exn}
    (bound : (modelStore.toObject.after seen).find photo.tag = some model)
    (fails : api.loadModel model = .error x) : answerAfter api seen photo = .ok cannotLoad := by
  rw [answerAfter, inference_of_unloadable (fun _ _ cached => by cases cached) bound fails]

def AnswersAfter (api : EngineApi Engine Exn) (seen : List OrderedCall) (photo : Photo) :
    Outcome Exn → Prop
  | .ok guess => answerAfter api seen photo = .ok guess
  | .error e => ∃ engine : InferenceEngine api,
      (modelStore.toObject.after seen).find photo.tag = some engine.model ∧
        engine.inference photo = .error e

variable {engine : InferenceEngine api}

theorem answersAfter_cached
    (bound : (modelStore.toObject.after seen).find photo.tag = some engine.model) :
    AnswersAfter api seen photo (engine.inference photo) := by
  cases answered : engine.inference photo with
  | ok guess => exact (answerAfter_of_bound bound).trans (congrArg catchAll answered)
  | error e => exact ⟨engine, bound, answered⟩

theorem answersAfter_stored
    (bound : (modelStore.toObject.after seen).find photo.tag = some engine.model) :
    AnswersAfter api seen photo (catchAll (engine.inference photo)) := by
  have caught := answerAfter_of_bound bound
  cases answered : engine.inference photo <;> rw [answered] at caught <;> exact caught

end CategorizerTier

namespace Replica

def LoadsUndisturbed (r : Replica api) : ReplicaAction → Prop
  | .deliver ⟨_, .orderedRemoveModel tag⟩ =>
      ∀ call phase, call.tag = tag → r.calls.find call = some phase → phase.loading = false
  | _ => True

structure Serves (r : Replica api) : Prop where
  current : r.EnginesCurrent
  follows : r.Follows
  loads : ∀ call, r.calls.find call = some .missed → r.tier.rawModels.find call.tag ≠ none

theorem serves_empty : (empty : Replica api).Serves :=
  ⟨enginesCurrent_empty, follows_empty, fun _ missed => by cases missed⟩

variable {r r' : Replica api} {a : ReplicaAction}

theorem Serves.readsInstalled (serves : r.Serves) (taken : r.step a = some r') :
    r.ReadsInstalled a := by
  cases a with
  | build call =>
      obtain ⟨missed, -⟩ := step_build.mp taken
      exact serves.loads call missed
  | deliver | lookup | store => trivial

theorem LoadsUndisturbed.removalWaits (undisturbed : r.LoadsUndisturbed a) : r.RemovalWaits a := by
  cases a with
  | deliver ordered =>
      obtain ⟨id, op⟩ := ordered
      cases op with
      | orderedInstallModel => trivial
      | orderedRemoveModel tag =>
          intro call engine same held
          cases undisturbed call _ same held
  | lookup | build | store => trivial

theorem Serves.loads_deliver (serves : r.Serves) {call : OrderedCall}
    (undisturbed : r.LoadsUndisturbed (.deliver call)) {other : InferenceCall}
    (missed : r.calls.find other = some .missed) :
    (r.tier.perform call.op).2.rawModels.find other.tag ≠ none := by
  obtain ⟨id, op⟩ := call
  have bound := serves.loads other missed
  by_cases same : other.tag = op.tag
  · rw [same] at bound ⊢
    rw [CategorizerTier.perform_rawModels, StdMap.find_put_self]
    rcases op.act_cases (r.tier.rawModels.find op.tag) with
      ⟨free, -⟩ | ⟨unchanged, -⟩ | ⟨removal, -, -⟩
    · exact absurd free bound
    · rwa [unchanged]
    · rw [removal] at undisturbed
      cases undisturbed other _ same missed
  · rwa [CategorizerTier.perform_find_of_ne _ _ same]

theorem Serves.step (serves : r.Serves) (undisturbed : r.LoadsUndisturbed a)
    (taken : r.step a = some r') : r'.Serves := by
  have reads := serves.readsInstalled taken
  refine ⟨serves.current.step undisturbed.removalWaits taken, serves.follows.step reads taken, ?_⟩
  intro other missed
  cases a with
  | deliver call =>
      obtain rfl := step_deliver.mp taken
      exact serves.loads_deliver undisturbed missed
  | lookup call =>
      obtain ⟨-, rfl⟩ := step_lookup.mp taken
      dsimp only at missed
      rw [StdMap.find_assign] at missed
      split at missed
      · rename_i same
        have missing := Phase.afterLookup_eq_missed.mp (Option.some.inj missed)
        rw [same]
        exact (CategorizerTier.lookup_eq_missed.mp missing).2
      · exact serves.loads other missed
  | build call =>
      obtain ⟨-, rfl⟩ := step_build.mp taken
      dsimp only at missed ⊢
      rw [StdMap.find_assign] at missed
      split at missed
      · exact absurd (Option.some.inj missed) (Phase.afterBuild_ne_missed _)
      · rw [(build_rawModels_eq_iff r.tier call.photo).mpr reads]
        exact serves.loads other missed
  | store call =>
      obtain ⟨engine, -, rfl⟩ := step_store.mp taken
      dsimp only at missed
      rw [StdMap.find_assign] at missed
      split at missed
      · cases missed
      · exact serves.loads other missed

/-! ## One inference -/

/-- The calls `known` have been delivered, and what the inference has read so far is the state
after some of the delivered calls, among them all of `known`. -/
structure Explains (r : Replica api) (known : List OrderedCall) (call : InferenceCall) : Prop where
  delivered : known ⊆ r.delivered.map Prod.fst
  built : ∀ engine, r.calls.find call = some (.built engine) →
    ∃ seen, seen <+: r.delivered.map Prod.fst ∧ known ⊆ seen ∧
      (modelStore.toObject.after seen).find call.tag = some engine.model
  returned : ∀ outcome, r.calls.find call = some (.returned outcome) →
    ∃ seen, seen <+: r.delivered.map Prod.fst ∧ known ⊆ seen ∧
      CategorizerTier.AnswersAfter api seen call.photo outcome

variable {known : List OrderedCall} {call : InferenceCall}

theorem Explains.of_same (explains : r.Explains known call)
    (grows : r.delivered.map Prod.fst <+: r'.delivered.map Prod.fst)
    (same : r'.calls.find call = r.calls.find call) : r'.Explains known call := by
  refine ⟨fun op mem => grows.subset (explains.delivered mem), ?_, ?_⟩
  · intro engine held
    obtain ⟨seen, isPrefix, covers, bound⟩ := explains.built engine (same ▸ held)
    exact ⟨seen, isPrefix.trans grows, covers, bound⟩
  · intro outcome done
    obtain ⟨seen, isPrefix, covers, answered⟩ := explains.returned outcome (same ▸ done)
    exact ⟨seen, isPrefix.trans grows, covers, answered⟩

theorem Serves.answer_lookup (serves : r.Serves) {photo : Photo} {outcome : Outcome Exn}
    (answered : r.tier.lookup photo = .answered outcome) :
    CategorizerTier.AnswersAfter api (r.delivered.map Prod.fst) photo outcome := by
  have rawModels := serves.follows.rawModels_eq
  cases cached : r.tier.inferenceEngines.find photo.tag with
  | some engine =>
      have bound := serves.current.coherent photo.tag engine cached
      rw [rawModels] at bound
      rw [CategorizerTier.lookup_of_cached cached] at answered
      cases answered
      exact CategorizerTier.answersAfter_cached bound
  | none =>
      cases bound : r.tier.rawModels.find photo.tag with
      | some model =>
          rw [CategorizerTier.lookup_of_uncached cached bound] at answered
          cases answered
      | none =>
          rw [CategorizerTier.lookup_of_unbound cached bound] at answered
          cases answered
          rw [rawModels] at bound
          exact CategorizerTier.answerAfter_of_unbound bound

theorem Explains.lookup (serves : r.Serves) (explains : r.Explains known call)
    (taken : r.step (.lookup call) = some r') : r'.Explains known call := by
  obtain ⟨-, rfl⟩ := step_lookup.mp taken
  refine ⟨explains.delivered, ?_, ?_⟩
  · intro engine held
    simp at held
  · intro outcome done
    cases found : r.tier.lookup call.photo with
    | missed => simp [found, Phase.afterLookup] at done
    | answered answer =>
        simp only [found, Phase.afterLookup, StdMap.find_assign_self, Option.some.injEq,
          Phase.returned.injEq] at done
        subst done
        exact ⟨_, List.prefix_rfl, explains.delivered, serves.answer_lookup found⟩

theorem Explains.build (serves : r.Serves) (explains : r.Explains known call)
    (taken : r.step (.build call) = some r') : r'.Explains known call := by
  have reads := serves.readsInstalled taken
  obtain ⟨-, rfl⟩ := step_build.mp taken
  obtain ⟨model, bound⟩ := Option.ne_none_iff_exists'.mp reads
  have after := serves.follows.rawModels_eq ▸ bound
  rw [CategorizerTier.build_of_bound bound]
  cases built : InferenceEngine.construct api model with
  | ok engine =>
      obtain rfl := InferenceEngine.construct_eq_ok.mp built
      refine ⟨explains.delivered, ?_, ?_⟩
      · intro other held
        simp only [Phase.afterBuild, StdMap.find_assign_self, Option.some.injEq,
          Phase.built.injEq] at held
        subst held
        exact ⟨_, List.prefix_rfl, explains.delivered, after⟩
      · intro outcome done
        simp [Phase.afterBuild] at done
  | error x =>
      have fails := InferenceEngine.construct_eq_error.mp built
      refine ⟨explains.delivered, ?_, ?_⟩
      · intro other held
        simp [Phase.afterBuild] at held
      · intro outcome done
        simp only [Phase.afterBuild, StdMap.find_assign_self, Option.some.injEq,
          Phase.returned.injEq] at done
        subst done
        exact ⟨_, List.prefix_rfl, explains.delivered,
          CategorizerTier.answerAfter_of_unloadable after fails⟩

theorem Explains.store (explains : r.Explains known call)
    (taken : r.step (.store call) = some r') : r'.Explains known call := by
  obtain ⟨engine, held, rfl⟩ := step_store.mp taken
  obtain ⟨seen, isPrefix, covers, bound⟩ := explains.built engine held
  refine ⟨explains.delivered, ?_, ?_⟩
  · intro other built
    simp at built
  · intro outcome done
    simp only [StdMap.find_assign_self, Option.some.injEq, Phase.returned.injEq] at done
    subst done
    exact ⟨seen, isPrefix, covers, CategorizerTier.answersAfter_stored bound⟩

def Concerns : ReplicaAction → InferenceCall → Prop
  | .lookup other, call | .build other, call | .store other, call => call = other
  | .deliver _, _ => False

theorem calls_step_of_not_concerns (other : ¬ Concerns a call) (taken : r.step a = some r') :
    r'.calls.find call = r.calls.find call := by
  cases a with
  | deliver ordered =>
      obtain rfl := step_deliver.mp taken
      rfl
  | lookup concerned =>
      obtain ⟨-, rfl⟩ := step_lookup.mp taken
      exact StdMap.find_put_of_ne _ _ other
  | build concerned =>
      obtain ⟨-, rfl⟩ := step_build.mp taken
      exact StdMap.find_put_of_ne _ _ other
  | store concerned =>
      obtain ⟨engine, -, rfl⟩ := step_store.mp taken
      exact StdMap.find_put_of_ne _ _ other

theorem Explains.step (serves : r.Serves) (explains : r.Explains known call)
    (taken : r.step a = some r') : r'.Explains known call := by
  by_cases concerns : Concerns a call
  · cases a with
    | deliver ordered => exact concerns.elim
    | lookup other =>
        obtain rfl : call = other := concerns
        exact explains.lookup serves taken
    | build other =>
        obtain rfl : call = other := concerns
        exact explains.build serves taken
    | store other =>
        obtain rfl : call = other := concerns
        exact explains.store taken
  · refine explains.of_same ?_ (calls_step_of_not_concerns concerns taken)
    rw [delivered_step taken]
    exact List.prefix_append _ _

end Replica
end SospDemo
