import SospDemo.Replica.Steps

/-!
# Coherence of the engine cache

A call drops its read lock before it builds an engine and takes the write lock only to store it,
and `store` does not look at `raw_models` again. The cache stays coherent exactly as long as no
model is removed while a call holds an engine it has built from it.
-/

namespace SospDemo
namespace Replica
variable {Engine Exn : Type} {api : EngineApi Engine Exn}

/-- A delivered removal finds no call that holds an engine for its tag, built and not stored. -/
def RemovalWaits (r : Replica api) : ReplicaAction → Prop
  | .deliver ⟨_, .orderedRemoveModel tag⟩ =>
      ∀ call engine, call.tag = tag → r.calls.find call ≠ some (.built engine)
  | _ => True

def AnswersFromInstalled (r : Replica api) : ReplicaAction → Prop
  | .lookup call => ∀ engine, r.tier.inferenceEngines.find call.tag = some engine →
      r.tier.rawModels.find call.tag = some engine.model
  | .store call => ∀ engine, r.calls.find call = some (.built engine) →
      r.tier.rawModels.find call.tag = some engine.model
  | _ => True

structure EnginesCurrent (r : Replica api) : Prop where
  coherent : r.tier.Coherent
  pending : ∀ call engine, r.calls.find call = some (.built engine) →
    r.tier.rawModels.find call.tag = some engine.model

theorem enginesCurrent_empty : (empty : Replica api).EnginesCurrent :=
  ⟨CategorizerTier.coherent_empty, by intro call engine found; cases found⟩

theorem EnginesCurrent.answersFromInstalled {r : Replica api} (current : r.EnginesCurrent)
    (a : ReplicaAction) : r.AnswersFromInstalled a := by
  cases a with
  | deliver call => trivial
  | lookup call => exact fun engine => current.coherent call.tag engine
  | build call => trivial
  | store call => exact fun engine => current.pending call engine

theorem EnginesCurrent.deliver {r r' : Replica api} (current : r.EnginesCurrent)
    {call : OrderedCall} (waits : r.RemovalWaits (.deliver call))
    (taken : r.step (.deliver call) = some r') : r'.EnginesCurrent := by
  obtain rfl := step_deliver.mp taken
  obtain ⟨id, op⟩ := call
  refine ⟨current.coherent.perform op, ?_⟩
  intro other engine held
  by_cases same : other.tag = op.tag
  · have found := current.pending other engine held
    rw [same] at found ⊢
    rw [CategorizerTier.perform_rawModels, StdMap.find_put_self]
    rcases op.act_cases (r.tier.rawModels.find op.tag) with
      ⟨free, -⟩ | ⟨unchanged, -⟩ | ⟨removal, -, -⟩
    · cases free.symm.trans found
    · exact unchanged.trans found
    · -- the removal would have waited for this call
      rw [removal] at waits
      exact absurd held (waits other engine same)
  · rw [CategorizerTier.perform_find_of_ne _ _ same]
    exact current.pending other engine held

theorem EnginesCurrent.build {r r' : Replica api} (current : r.EnginesCurrent)
    {call : InferenceCall} (taken : r.step (.build call) = some r') : r'.EnginesCurrent := by
  obtain ⟨-, rfl⟩ := step_build.mp taken
  rw [CategorizerTier.build_eq]
  -- an entry that is there stays, so only engines of a missing entry could be affected
  have kept : ∀ tag model, r.tier.rawModels.find tag = some model →
      (r.tier.rawModels.assign call.tag
        ((r.tier.rawModels.find call.tag).getD default)).find tag = some model := by
    intro tag model found
    rw [StdMap.find_assign]
    split
    · rename_i same
      rw [← same, found]
      rfl
    · exact found
  constructor
  · intro tag engine cached
    exact kept tag _ (current.coherent tag engine cached)
  · intro other engine held
    dsimp only at held
    rw [StdMap.find_assign] at held
    split at held
    · rename_i same
      have built := Phase.afterBuild_eq_built.mp (Option.some.inj held)
      rw [InferenceEngine.construct_eq_ok] at built
      rw [same, built]
      exact StdMap.find_assign_self ..
    · exact kept _ _ (current.pending other engine held)

theorem EnginesCurrent.store {r r' : Replica api} (current : r.EnginesCurrent)
    {call : InferenceCall} (taken : r.step (.store call) = some r') : r'.EnginesCurrent := by
  obtain ⟨engine, held, rfl⟩ := step_store.mp taken
  constructor
  · exact current.coherent.assign (current.pending call engine held)
  · intro other otherEngine otherHeld
    dsimp only at otherHeld
    rw [StdMap.find_assign] at otherHeld
    split at otherHeld
    · cases otherHeld
    · exact current.pending other otherEngine otherHeld

theorem EnginesCurrent.step {r r' : Replica api} (current : r.EnginesCurrent) {a : ReplicaAction}
    (waits : r.RemovalWaits a) (taken : r.step a = some r') : r'.EnginesCurrent := by
  cases a with
  | deliver call => exact current.deliver waits taken
  | lookup call =>
      obtain ⟨-, rfl⟩ := step_lookup.mp taken
      refine ⟨current.coherent, ?_⟩
      intro other engine held
      dsimp only at held
      rw [StdMap.find_assign] at held
      split at held
      · exact absurd (Option.some.inj held) (Phase.afterLookup_ne_built _ _)
      · exact current.pending other engine held
  | build call => exact current.build taken
  | store call => exact current.store taken

theorem stale_store {r r' : Replica api} {a : ReplicaAction} (early : ¬ r.RemovalWaits a)
    (taken : r.step a = some r') :
    ∃ call r'', r'.step (.store call) = some r'' ∧ ¬ r''.tier.Coherent := by
  cases a with
  | deliver ordered =>
      obtain ⟨id, op⟩ := ordered
      cases op with
      | orderedInstallModel => exact absurd trivial early
      | orderedRemoveModel tag =>
          simp only [RemovalWaits, not_forall, not_not] at early
          obtain ⟨call, engine, rfl, held⟩ := early
          obtain rfl := step_deliver.mp taken
          refine ⟨call, _, step_store.mpr ⟨engine, held, rfl⟩, ?_⟩
          intro coherent
          have found := coherent call.tag engine (by simp [CategorizerTier.store])
          have absent : (r.tier.perform (.orderedRemoveModel call.tag)).2.rawModels.find call.tag =
              none := by
            rw [CategorizerTier.perform_rawModels]
            cases bound : r.tier.rawModels.find call.tag <;>
              simp [OrderedOp.tag, OrderedOp.act, bound]
          cases absent.symm.trans found
  | lookup => exact absurd trivial early
  | build => exact absurd trivial early
  | store => exact absurd trivial early

theorem coherent_when_removals_wait (api : EngineApi Engine Exn) (actions : List ReplicaAction) :
    (Runs.EveryStep step (empty : Replica api) actions RemovalWaits →
      Runs.EveryState step (empty : Replica api) actions (fun r => r.tier.Coherent) ∧
      Runs.EveryStep step (empty : Replica api) actions AnswersFromInstalled) ∧
    ∀ (r r' : Replica api) (a : ReplicaAction), Runs.exec step empty actions = some r →
      r.step a = some r' → ¬ r.RemovalWaits a →
      ∃ call r'', Runs.exec step (empty : Replica api) (actions ++ [a, .store call]) = some r'' ∧
        ¬ r''.tier.Coherent := by
  constructor
  · intro wait
    have current : Runs.EveryState step (empty : Replica api) actions EnginesCurrent :=
      Runs.invariant (fun r a r' current waits taken => current.step waits taken)
        enginesCurrent_empty wait
    refine ⟨current.mono fun r current => current.coherent, ?_⟩
    intro before a r isPrefix reached
    exact (current before r ((List.prefix_append before [a]).trans isPrefix)
      reached).answersFromInstalled a
  · intro r r' a reached taken early
    obtain ⟨call, r'', stored, incoherent⟩ := stale_store early taken
    exact ⟨call, r'', by simp [Runs.exec_append, reached, taken, stored], incoherent⟩

def staleSchedule : List ReplicaAction :=
  let call : InferenceCall := ⟨0, 7, ⟨[1]⟩⟩
  [.deliver ⟨0, .orderedInstallModel 7 1 1 1 ⟨[114, 1, 2]⟩⟩, .lookup call, .build call,
    .deliver ⟨1, .orderedRemoveModel 7⟩, .store call]

theorem staleSchedule_incoherent :
    ∃ r, Runs.exec step (empty : Replica sampleApi) staleSchedule = some r ∧
      ¬ r.tier.Coherent := by
  refine ⟨_, rfl, ?_⟩
  intro coherent
  cases coherent 7 ⟨⟨1, 1, 1, ⟨[114, 1, 2]⟩⟩, _, rfl⟩ rfl

def patientSchedule : List ReplicaAction :=
  let call : InferenceCall := ⟨0, 7, ⟨[1]⟩⟩
  [.deliver ⟨0, .orderedInstallModel 7 1 1 1 ⟨[114, 1, 2]⟩⟩, .lookup call, .build call,
    .store call, .deliver ⟨1, .orderedRemoveModel 7⟩]

theorem patientSchedule_coherent :
    Runs.EveryState step (empty : Replica sampleApi) patientSchedule fun r => r.tier.Coherent := by
  refine ((coherent_when_removals_wait sampleApi patientSchedule).1 ?_).1
  simp only [patientSchedule, Runs.everyStep_cons]
  refine ⟨trivial, fun r₁ taken₁ => ⟨trivial, fun r₂ taken₂ => ⟨trivial, fun r₃ taken₃ =>
    ⟨trivial, fun r₄ taken₄ => ⟨?_, fun _ _ => Runs.everyStep_nil _⟩⟩⟩⟩⟩
  cases taken₁; cases taken₂; cases taken₃; cases taken₄
  -- the one call has returned when the removal is delivered
  intro call engine _ held
  simp only [StdMap.find_assign] at held
  split at held <;> cases held

end Replica
end SospDemo
