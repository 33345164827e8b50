import SospDemo.Replica.Steps

namespace SospDemo
variable {Engine Exn : Type} {api : EngineApi Engine Exn}

def OrderedOp.Good (good : UInt32 → Model → Prop) (op : OrderedOp) : Prop :=
  ∀ model, (op.act none).2 = some model → good op.tag model

variable {good : UInt32 → Model → Prop}

theorem OrderedOp.good_remove (tag : UInt32) : (OrderedOp.orderedRemoveModel tag).Good good := by
  intro model stored
  cases stored

theorem OrderedOp.Good.act {op : OrderedOp} (installs : op.Good good) {entry : Option Model}
    (before : ∀ model, entry = some model → good op.tag model) :
    ∀ model, (op.act entry).2 = some model → good op.tag model := by
  rcases op.act_cases entry with ⟨rfl, -⟩ | ⟨same, -⟩ | ⟨-, gone, -⟩
  · exact installs
  · rwa [same]
  · intro model stored
    cases gone.symm.trans stored

theorem OrderedOp.Good.put {op : OrderedOp} (installs : op.Good good) {m : StdMap UInt32 Model}
    (sourced : m.All good) : (m.put op.tag (op.act (m.find op.tag)).2).All good :=
  sourced.put (installs.act fun model bound => sourced _ model bound)

namespace Replica

theorem sourced_step {r r' : Replica api} (sourced : r.tier.rawModels.All good)
    (empty : ∀ tag, good tag default) {a : ReplicaAction}
    (installs : ∀ call ∈ a.delivers, call.op.Good good) (taken : r.step a = some r') :
    r'.tier.rawModels.All good := by
  cases a with
  | deliver call =>
      obtain rfl := step_deliver.mp taken
      dsimp only
      rw [CategorizerTier.perform_rawModels]
      exact (installs call (List.mem_singleton_self _)).put sourced
  | lookup call =>
      obtain ⟨-, rfl⟩ := step_lookup.mp taken
      exact sourced
  | build call =>
      obtain ⟨-, rfl⟩ := step_build.mp taken
      exact (sourced.subscript (empty call.tag)).1
  | store call =>
      obtain ⟨engine, -, rfl⟩ := step_store.mp taken
      exact sourced

end Replica
end SospDemo
