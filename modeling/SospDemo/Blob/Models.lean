import SospDemo.Blob.WireFormat
import SospDemo.Model.ModelObjects
import SospDemo.Replica.Steps

namespace SospDemo
open Buffers Runs

/-! ## No operation of a blob loses a buffer -/

namespace BlobStore
variable {Var : Type} {s : BlobStore Var}

structure Tidy (s : BlobStore Var) : Prop where
  owns : s.Owns
  noneLost : NoneLost s.memory s.held

theorem tidy_empty : (empty : BlobStore Var).Tidy := by
  refine ⟨owns_empty, ?_⟩
  intro p content live
  cases live

theorem held_of_dead {v : Var} (dead : s.contents v = none) : s.held v = none := by
  rw [held, Option.map_eq_none_iff.mp dead, Option.bind_none]

variable [DecidableEq Var]

theorem Tidy.give (tidy : s.Tidy) {v : Var} (nothing : s.held v = none) (d : Bytes) :
    (s.give v d).Tidy := by
  refine ⟨tidy.owns.give v d, ?_⟩
  by_cases empty : d = []
  · subst empty
    rw [give_nil, setObject, held_update, Option.bind_some, ← nothing, Function.update_eq_self]
    exact tidy.noneLost
  · rw [give_of_ne_nil empty, held_update, Option.bind_some]
    exact tidy.noneLost.give nothing d

theorem Tidy.release (tidy : s.Tidy) (v : Var) : (s.release v).Tidy := by
  refine ⟨tidy.owns.release v, ?_⟩
  have held_eq : (s.release v).held = Function.update s.held v none := held_update
  rw [held_eq]
  cases holds : s.held v with
  | none =>
      rw [← holds, Function.update_eq_self]
      simpa only [BlobStore.release, holds] using tidy.noneLost
  | some p => simpa only [BlobStore.release, holds] using tidy.noneLost.free holds

/-! The operations that the ordered calls use, each with what it makes of the contents. -/

theorem Tidy.construct (tidy : s.Tidy) (this : Var) (dead : s.contents this = none) (b : Bytes)
    (junk : Nat → UInt8) : ∃ t, s.construct this b junk = .ok t ∧ t.Tidy ∧
      t.contents = Function.update s.contents this (some b) :=
  ⟨_, construct_eq this b junk, tidy.give (held_of_dead dead) b, tidy.owns.contents_give this b⟩

theorem Tidy.constructDefault (tidy : s.Tidy) (this : Var) (dead : s.contents this = none) :
    (s.constructDefault this).Tidy ∧
      (s.constructDefault this).contents = Function.update s.contents this (some []) :=
  ⟨tidy.give (held_of_dead dead) [], tidy.owns.contents_give this []⟩

theorem Tidy.copyConstruct (tidy : s.Tidy) (this other : Var) {d : Bytes}
    (dead : s.contents this = none) (found : s.contents other = some d) (junk : Nat → UInt8) :
    ∃ t, s.copyConstruct this other junk = .ok t ∧ t.Tidy ∧
      t.contents = Function.update s.contents this (some d) := by
  obtain ⟨o, object, rfl⟩ := Option.map_eq_some_iff.mp found
  have apart : other ≠ this := by
    rintro rfl
    cases dead.symm.trans found
  exact ⟨_, tidy.owns.copyConstruct_eq apart object junk, tidy.give (held_of_dead dead) _,
    tidy.owns.contents_give this _⟩

theorem Tidy.moveAssign (tidy : s.Tidy) (this other : Var) {d e : Bytes}
    (live : s.contents this = some d) (found : s.contents other = some e) :
    ∃ t, s.moveAssign this other = .ok t ∧ t.Tidy ∧
      t.contents = s.contents ∘ Equiv.swap this other := by
  obtain ⟨old, objectThis, -⟩ := Option.map_eq_some_iff.mp live
  obtain ⟨o, object, -⟩ := Option.map_eq_some_iff.mp found
  exact ⟨_, moveAssign_eq objectThis object, ⟨tidy.owns.exchange this other,
    tidy.noneLost.exchange this other⟩, contents_exchange this other⟩

theorem Tidy.destroy (tidy : s.Tidy) (this : Var) {d : Bytes} (live : s.contents this = some d) :
    ∃ t, s.destroy this = .ok t ∧ t.Tidy ∧ t.contents = Function.update s.contents this none := by
  obtain ⟨old, object, -⟩ := Option.map_eq_some_iff.mp live
  exact ⟨_, tidy.owns.destroy_eq object, tidy.release this, tidy.owns.contents_release this⟩

end BlobStore

/-! ## One access to the stored models -/

namespace ModelObjects

structure Stores (s : ModelObjects) (rawModels : StdMap UInt32 Model) : Prop where
  tidy : s.blobs.Tidy
  model : s.blobs.contents .model = none
  temporary : s.blobs.contents .temporary = none
  entry : ∀ tag, s.blobs.contents (.entry tag) =
    (rawModels.find tag).map fun model => model.modelData.bytes
  sizes : ∀ tag, s.sizes.find tag =
    (rawModels.find tag).map fun model => ⟨model.synsetSize, model.symbolSize, model.paramsSize⟩

variable {s : ModelObjects} {rawModels : StdMap UInt32 Model}

theorem stores_empty : empty.Stores .empty :=
  ⟨BlobStore.tidy_empty, rfl, rfl, fun _ => rfl, fun _ => rfl⟩

theorem Stores.put (stores : s.Stores rawModels) {blobs : BlobStore ModelVar} (tidy : blobs.Tidy)
    (tag : UInt32) (model : Option Model)
    (contents : blobs.contents = Function.update s.blobs.contents (.entry tag)
      (model.map fun model => model.modelData.bytes)) (returned : List Int) :
    (⟨s.sizes.put tag (model.map fun model =>
        ⟨model.synsetSize, model.symbolSize, model.paramsSize⟩), blobs, returned⟩ :
      ModelObjects).Stores (rawModels.put tag model) := by
  refine ⟨tidy, ?_, ?_, ?_, ?_⟩
  · rw [contents, Function.update_of_ne (by simp)]
    exact stores.model
  · rw [contents, Function.update_of_ne (by simp)]
    exact stores.temporary
  · intro other
    rw [contents, StdMap.find_put]
    by_cases same : other = tag
    · subst same
      simp
    · rw [Function.update_of_ne (by simpa using same), if_neg same]
      exact stores.entry other
  · intro other
    rw [StdMap.find_put, StdMap.find_put]
    by_cases same : other = tag
    · rw [if_pos same, if_pos same]
    · rw [if_neg same, if_neg same]
      exact stores.sizes other

theorem Stores.sizes_none (stores : s.Stores rawModels) {tag : UInt32}
    (unbound : rawModels.find tag = none) : s.sizes.find tag = none := by
  rw [stores.sizes, unbound, Option.map_none]

theorem Stores.sizes_some (stores : s.Stores rawModels) {tag : UInt32} {model : Model}
    (bound : rawModels.find tag = some model) :
    s.sizes.find tag = some ⟨model.synsetSize, model.symbolSize, model.paramsSize⟩ := by
  rw [stores.sizes, bound, Option.map_some]

theorem Stores.assign_model (stores : s.Stores rawModels) (heap : Nat → Nat → UInt8) (b : Bytes) :
    ∃ constructed assigned destroyed,
      (s.blobs.constructDefault .model).construct .temporary b
        (heap (s.blobs.constructDefault .model).memory.length) = .ok constructed ∧
      constructed.moveAssign .model .temporary = .ok assigned ∧
      assigned.destroy .temporary = .ok destroyed ∧ destroyed.Tidy ∧
      destroyed.contents = Function.update s.blobs.contents .model (some b) := by
  obtain ⟨tidy₁, contents₁⟩ := stores.tidy.constructDefault .model stores.model
  have dead : (s.blobs.constructDefault .model).contents .temporary = none := by
    rw [contents₁, Function.update_of_ne (by simp)]
    exact stores.temporary
  obtain ⟨constructed, done₂, tidy₂, contents₂⟩ := tidy₁.construct .temporary dead b
    (heap (s.blobs.constructDefault .model).memory.length)
  have default : constructed.contents .model = some [] := by simp [contents₂, contents₁]
  have source : constructed.contents .temporary = some b := by simp [contents₂]
  obtain ⟨assigned, done₃, tidy₃, contents₃⟩ := tidy₂.moveAssign .model .temporary default source
  have swapped : assigned.contents .temporary = some [] := by simp [contents₃, default]
  obtain ⟨destroyed, done₄, tidy₄, contents₄⟩ := tidy₃.destroy .temporary swapped
  refine ⟨constructed, assigned, destroyed, done₂, done₃, done₄, tidy₄, ?_⟩
  funext v
  rw [contents₄]
  cases v with
  | model => simp [contents₃, source]
  | temporary => simp [stores.temporary]
  | entry tag =>
      have fixed : Equiv.swap ModelVar.model .temporary (.entry tag) = .entry tag :=
        Equiv.swap_apply_of_ne_of_ne (by simp) (by simp)
      simp [contents₃, contents₂, contents₁, fixed]

theorem Stores.install (stores : s.Stores rawModels) (heap : Nat → Nat → UInt8) {tag : UInt32}
    (synsetSize symbolSize paramsSize : Int) (modelData : BlobWrapper)
    (unbound : rawModels.find tag = none) :
    ∃ blobs, s.orderedInstallModel heap tag synsetSize symbolSize paramsSize modelData =
        .ok (0, ⟨s.sizes.assign tag ⟨synsetSize, symbolSize, paramsSize⟩, blobs, s.returned⟩) ∧
      blobs.Tidy ∧
      blobs.contents = Function.update s.blobs.contents (.entry tag) (some modelData.bytes) := by
  have free := stores.sizes_none unbound
  obtain ⟨constructed, assigned, destroyed, done₂, done₃, done₄, tidy, contents⟩ :=
    stores.assign_model heap modelData.bytes
  have entry : destroyed.contents (.entry tag) = none := by
    rw [contents, Function.update_of_ne (by simp), stores.entry, unbound, Option.map_none]
  have source : destroyed.contents .model = some modelData.bytes := by simp [contents]
  obtain ⟨copied, done₅, tidy₅, contents₅⟩ :=
    tidy.copyConstruct (.entry tag) .model entry source (heap destroyed.memory.length)
  have live : copied.contents .model = some modelData.bytes := by simp [contents₅, source]
  obtain ⟨blobs, done₆, tidy₆, contents₆⟩ := tidy₅.destroy .model live
  refine ⟨blobs, ?_, tidy₆, ?_⟩
  · simp only [orderedInstallModel, free, done₂, done₃, done₄, done₅, done₆, bind, Except.bind,
      pure, Except.pure, StdMap.emplace_of_absent _ free]
  · rw [contents₆, contents₅, contents]
    funext v
    cases v with
    | model => simp [stores.model]
    | temporary => simp
    | entry other => simp [Function.update_apply]

theorem Stores.remove (stores : s.Stores rawModels) {tag : UInt32} {model : Model}
    (bound : rawModels.find tag = some model) :
    ∃ blobs, s.orderedRemoveModel tag = .ok (0, ⟨s.sizes.erase tag, blobs, s.returned⟩) ∧
      blobs.Tidy ∧ blobs.contents = Function.update s.blobs.contents (.entry tag) none := by
  have live : s.blobs.contents (.entry tag) = some model.modelData.bytes := by
    rw [stores.entry, bound, Option.map_some]
  obtain ⟨blobs, done, tidy, contents⟩ := stores.tidy.destroy (.entry tag) live
  refine ⟨blobs, ?_, tidy, contents⟩
  simp only [orderedRemoveModel, stores.sizes_some bound, done, bind, Except.bind, pure,
    Except.pure]

theorem Stores.returns (stores : s.Stores rawModels) (returned : List Int) :
    ({ s with returned := returned } : ModelObjects).Stores rawModels :=
  ⟨stores.tidy, stores.model, stores.temporary, stores.entry, stores.sizes⟩

theorem put_of_present {tag : UInt32} {model : Model} (bound : rawModels.find tag = some model) :
    rawModels.put tag (some model) = rawModels := by
  rw [← bound, StdMap.put_find]

theorem put_of_absent {tag : UInt32} (unbound : rawModels.find tag = none) :
    rawModels.put tag none = rawModels := by
  rw [← unbound, StdMap.put_find]

theorem Stores.perform (stores : s.Stores rawModels) (heap : Nat → Nat → UInt8) (op : OrderedOp) :
    ∃ next, s.act heap (.perform op) = .ok next ∧
      next.Stores (rawModels.put op.tag (op.act (rawModels.find op.tag)).2) ∧
      next.returned = s.returned ++ [(op.act (rawModels.find op.tag)).1] := by
  cases op with
  | orderedInstallModel tag synsetSize symbolSize paramsSize modelData =>
      simp only [OrderedOp.tag]
      cases bound : rawModels.find tag with
      | some model =>
          have taken := stores.sizes_some bound
          refine ⟨{ s with returned := s.returned ++ [-1] }, ?_, ?_, rfl⟩
          · simp only [act, orderedInstallModel, taken, Except.map]
          · simpa only [OrderedOp.act, put_of_present bound] using stores.returns _
      | none =>
          obtain ⟨blobs, done, tidy, contents⟩ :=
            stores.install heap synsetSize symbolSize paramsSize modelData bound
          have stored := stores.put tidy tag
            (some ⟨synsetSize, symbolSize, paramsSize, ⟨modelData.bytes⟩⟩) contents
            (s.returned ++ [0])
          refine ⟨_, ?_, stored, rfl⟩
          simp only [act, done, Except.map, Option.map_some, StdMap.put_some]
  | orderedRemoveModel tag =>
      simp only [OrderedOp.tag]
      cases bound : rawModels.find tag with
      | none =>
          have free := stores.sizes_none bound
          refine ⟨{ s with returned := s.returned ++ [-1] }, ?_, ?_, rfl⟩
          · simp only [act, orderedRemoveModel, free, Except.map]
          · simpa only [OrderedOp.act, put_of_absent bound] using stores.returns _
      | some model =>
          obtain ⟨blobs, done, tidy, contents⟩ := stores.remove bound
          have stored := stores.put tidy tag none contents (s.returned ++ [0])
          refine ⟨_, ?_, stored, rfl⟩
          simp only [act, done, Except.map, Option.map_none, StdMap.put_none]

theorem Stores.subscript (stores : s.Stores rawModels) (tag : UInt32) :
    (s.subscript tag).Stores (rawModels.assign tag ((rawModels.find tag).getD default)) ∧
      (s.subscript tag).returned = s.returned := by
  cases bound : rawModels.find tag with
  | some model =>
      have same : s.subscript tag = s := by
        simp only [ModelObjects.subscript, stores.sizes_some bound]
      rw [same, Option.getD_some, StdMap.assign_of_present bound]
      exact ⟨stores, rfl⟩
  | none =>
      have free := stores.sizes_none bound
      have dead : s.blobs.contents (.entry tag) = none := by
        rw [stores.entry, bound, Option.map_none]
      obtain ⟨tidy, contents⟩ := stores.tidy.constructDefault (.entry tag) dead
      have stored := stores.put tidy tag (some default) contents s.returned
      refine ⟨?_, ?_⟩
      · simp only [ModelObjects.subscript, free]
        exact stored
      · simp only [ModelObjects.subscript, free]

theorem Stores.owner (stores : s.Stores rawModels) {p : Nat} {content : Bytes}
    (live : s.blobs.memory.buffer p = some content) :
    ∃! tag, s.blobs.held (.entry tag) = some p := by
  obtain ⟨v, holds⟩ := stores.tidy.noneLost p content live
  cases v with
  | model => cases (BlobStore.held_of_dead stores.model).symm.trans holds
  | temporary => cases (BlobStore.held_of_dead stores.temporary).symm.trans holds
  | entry tag =>
      refine ⟨tag, holds, fun other holds' => ?_⟩
      exact ModelVar.entry.inj (stores.tidy.owns.owned.unshared _ _ p holds' holds)

theorem Stores.sends (stores : s.Stores rawModels) {tag : UInt32} {model : Model} {o : BlobObject}
    (bound : rawModels.find tag = some model) (found : s.blobs.vars (.entry tag) = some o) :
    (∀ buffer, s.blobs.toBytes o buffer = .ok (model.modelData.toBytes buffer)) ∧
      s.blobs.postObject o = .ok model.modelData.postObject := by
  have represents : s.blobs.Represents s.blobs.contents :=
    stores.tidy.owns.represents_iff.mpr rfl
  have holds : s.blobs.contents (.entry tag) = some model.modelData.bytes := by
    rw [stores.entry, bound, Option.map_some]
  exact ⟨represents.toBytes_eq found holds, represents.postObject_eq found holds⟩

end ModelObjects

/-! ## Runs of a replica -/

namespace Replica
variable {Engine Exn : Type} {api : EngineApi Engine Exn}

/-- How a step of a replica accesses the stored models, other than by looking at them. -/
def accesses (_ : Replica api) : ReplicaAction → List ModelAction
  | .deliver call => [.perform call.op]
  | .build call => [.subscript call.tag]
  | .lookup _ | .store _ => []

def Keeps (r : Replica api) (state : Except Undefined ModelObjects) : Prop :=
  ∃ s, state = .ok s ∧ s.Stores r.tier.rawModels ∧ s.returned = r.delivered.map Prod.snd

theorem Keeps.step {heap : Nat → Nat → UInt8} {r r' : Replica api}
    {state : Except Undefined ModelObjects} (keeps : r.Keeps state) {a : ReplicaAction}
    (taken : r.step a = some r') :
    ∃ next, exec (ModelObjects.step heap) state (r.accesses a) = some next ∧ r'.Keeps next := by
  obtain ⟨s, rfl, stores, returned⟩ := keeps
  cases a with
  | deliver call =>
      obtain rfl := step_deliver.mp taken
      obtain ⟨next, done, stores', returned'⟩ := stores.perform heap call.op
      refine ⟨.ok next, ?_, next, rfl, ?_, ?_⟩
      · rw [accesses, exec_singleton, ModelObjects.step, done]
      · simpa only [CategorizerTier.perform_rawModels] using stores'
      · rw [returned', returned, List.map_append, CategorizerTier.perform_code]
        rfl
  | build call =>
      obtain ⟨-, rfl⟩ := step_build.mp taken
      obtain ⟨stores', returned'⟩ := stores.subscript call.tag
      refine ⟨.ok (s.subscript call.tag), ?_, _, rfl, ?_, returned'.trans returned⟩
      · rw [accesses, exec_singleton]
        rfl
      · simpa only [CategorizerTier.build_eq] using stores'
  | lookup call =>
      obtain ⟨-, rfl⟩ := step_lookup.mp taken
      exact ⟨.ok s, rfl, s, rfl, stores, returned⟩
  | store call =>
      obtain ⟨engine, -, rfl⟩ := step_store.mp taken
      exact ⟨.ok s, rfl, s, rfl, stores, returned⟩

theorem models_kept_in_memory (heap : Nat → Nat → UInt8) (actions : List ReplicaAction)
    (r : Replica api) (run : exec Replica.step (Replica.empty : Replica api) actions = some r) :
    ∃ s, exec (ModelObjects.step heap) (.ok .empty)
        (emitted Replica.step accesses (Replica.empty : Replica api) actions) = some (.ok s) ∧
      s.returned = r.delivered.map Prod.snd ∧
      (∀ tag, s.blobs.contents (.entry tag) =
        (r.tier.rawModels.find tag).map fun model => model.modelData.bytes) ∧
      (∀ tag model o, r.tier.rawModels.find tag = some model → s.blobs.vars (.entry tag) = some o →
        (∀ buffer, s.blobs.toBytes o buffer = .ok (model.modelData.toBytes buffer)) ∧
          s.blobs.postObject o = .ok model.modelData.postObject) ∧
      ∀ p content, s.blobs.memory.buffer p = some content →
        ∃! tag, s.blobs.held (.entry tag) = some p := by
  obtain ⟨state, runs, s, rfl, stores, returned⟩ :=
    exec_refines (C := fun _ _ => True) accesses Keeps
      (fun r state a r' keeps _ taken => keeps.step taken)
      ⟨.empty, rfl, ModelObjects.stores_empty, rfl⟩ (fun _ _ _ _ _ => trivial) run
  exact ⟨s, runs, returned, stores.entry, fun tag model o bound found => stores.sends bound found,
    fun p content live => stores.owner live⟩

/-- A model is removed under an inference that is about to load it, which leaves an empty entry in
its place; it cannot be installed again. -/
def revivedRun : List ReplicaAction :=
  let call : InferenceCall := ⟨0, ⟨7, ⟨[9]⟩⟩⟩
  let install : OrderedOp := .orderedInstallModel 7 1 1 0 ⟨[114, 98]⟩
  [.deliver ⟨0, install⟩, .lookup call, .deliver ⟨1, .orderedRemoveModel 7⟩, .build call,
    .deliver ⟨2, install⟩]

theorem revivedRun_kept :
    ∃ s, exec (ModelObjects.step fun _ _ => 0) (.ok .empty)
        (emitted Replica.step accesses (Replica.empty : Replica sampleApi) revivedRun) =
          some (.ok s) ∧
      s.returned = [0, 0, -1] ∧ s.blobs.contents (.entry 7) = some [] ∧
      ∀ p content, s.blobs.memory.buffer p = some content →
        ∃! tag, s.blobs.held (.entry tag) = some p := by
  obtain ⟨s, runs, returned, entry, -, owned⟩ := models_kept_in_memory (fun _ _ => 0) revivedRun _
    (show exec Replica.step (Replica.empty : Replica sampleApi) revivedRun = some _ from rfl)
  exact ⟨s, runs, returned, entry 7, owned⟩

end Replica
end SospDemo
