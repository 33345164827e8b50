import SospDemo.Service.Linearizable

namespace SospDemo
open Linearizability
variable {Engine Exn : Type} {api : EngineApi Engine Exn} {L : ShardLayout}

namespace Replica

def withoutInferences (r : Replica api) : Replica api :=
  ⟨⟨r.tier.rawModels, .empty⟩, .empty, r.delivered⟩

variable {r r' : Replica api}

theorem withoutInferences_deliver {call : OrderedCall} (taken : r.step (.deliver call) = some r') :
    r.withoutInferences.step (.deliver call) = some r'.withoutInferences := by
  obtain rfl := step_deliver.mp taken
  refine step_deliver.mpr ?_
  have noEngine : ((⟨r.tier.rawModels, .empty⟩ : CategorizerTier api).perform
      call.op).2.inferenceEngines = .empty := by
    rw [CategorizerTier.perform_inferenceEngines]
    split
    · exact StdMap.erase_of_absent rfl
    · rfl
  ext1
  · refine CategorizerTier.ext ?_ noEngine.symm
    simp [withoutInferences]
  · rfl
  · simp [withoutInferences]

theorem withoutInferences_inference {a : ReplicaAction} (inference : a.delivers = [])
    (reads : r.ReadsInstalled a) (taken : r.step a = some r') :
    r'.withoutInferences = r.withoutInferences := by
  cases a with
  | deliver call => cases inference
  | lookup call =>
      obtain ⟨-, rfl⟩ := step_lookup.mp taken
      rfl
  | build call =>
      obtain ⟨-, rfl⟩ := step_build.mp taken
      have same := (build_rawModels_eq_iff r.tier call.photo).mpr reads
      simp only [withoutInferences, same]
  | store call =>
      obtain ⟨engine, -, rfl⟩ := step_store.mp taken
      rfl

end Replica

namespace Tier

def withoutInferences (t : Tier L api) : Tier L api :=
  { t with replica := fun node => (t.replica node).withoutInferences }

theorem withoutInferences_update (t : Tier L api) (node : L.Node) (r : Replica api) :
    ({ t with replica := Function.update t.replica node r } : Tier L api).withoutInferences =
      { t.withoutInferences with
        replica := Function.update t.withoutInferences.replica node r.withoutInferences } := by
  ext1
  · rfl
  · funext other
    rcases eq_or_ne other node with rfl | apart
    · simp [withoutInferences]
    · simp [withoutInferences, apart]
  · rfl

end Tier

def ServiceAction.orders : ServiceAction L → Bool
  | .whatsthis .. => false
  | .serve _ action => action.delivers ≠ []
  | _ => true

theorem ServiceAction.not_asks_of_orders {a : ServiceAction L} (orders : a.orders) : ¬ a.Asks := by
  cases a with
  | whatsthis => cases orders
  | _ => exact id

instance (r : Replica api) : (a : ReplicaAction) → Decidable (r.ReadsInstalled a)
  | .build call => inferInstanceAs (Decidable (r.tier.rawModels.find call.tag ≠ none))
  | .deliver _ | .lookup _ | .store _ => isTrue trivial

namespace Service

def ReadsInstalled (s : Service L api) : ServiceAction L → Prop
  | .serve node action => (s.tier.replica node).ReadsInstalled action
  | _ => True

instance (s : Service L api) : (a : ServiceAction L) → Decidable (s.ReadsInstalled a)
  | .serve node action => inferInstanceAs (Decidable ((s.tier.replica node).ReadsInstalled action))
  | .installModel .. | .removeModel .. | .whatsthis .. | .order .. | .collect .. | .respond .. =>
      isTrue trivial

def withoutInferences (s : Service L api) : Service L api :=
  { s with tier := s.tier.withoutInferences, asked := [] }

variable {heap : Allocator} {s s' : Service L api}

theorem withoutInferences_send {node : L.Node} {call : OrderedCall}
    (sent : s.send node call = some s') :
    s.withoutInferences.send node call = some s'.withoutInferences := by
  obtain ⟨fresh, rfl⟩ := send_eq_some.mp sent
  exact send_eq_some.mpr ⟨fresh, rfl⟩

theorem withoutInferences_visible {a : ServiceAction L} (orders : a.orders)
    (taken : s.step heap a = some s') :
    s.withoutInferences.step heap a = some s'.withoutInferences := by
  cases a with
  | installModel id pick stream =>
      simp only [step] at taken ⊢
      split at taken
      · exact withoutInferences_send taken
      · exact congrArg _ (congrArg _ (Option.some.inj taken))
  | removeModel id pick tag =>
      simp only [step] at taken ⊢
      split at taken
      · exact withoutInferences_send taken
      · exact congrArg _ (congrArg _ (Option.some.inj taken))
  | whatsthis => cases orders
  | order node call =>
      obtain ⟨sent, tier, stepped, rfl⟩ := step_order.mp taken
      obtain ⟨fresh, rfl⟩ := Tier.step_order.mp stepped
      exact step_order.mpr ⟨sent, _, Tier.step_order.mpr ⟨fresh, rfl⟩, rfl⟩
  | serve node action =>
      obtain ⟨-, tier, stepped, rfl⟩ := step_serve.mp taken
      obtain ⟨allowed, r, delivered, rfl⟩ := Tier.step_serve.mp stepped
      cases action with
      | deliver call =>
          have delivers := Replica.withoutInferences_deliver delivered
          refine step_serve.mpr ⟨rfl, _, Tier.step_serve.mpr ⟨allowed, _, delivers, rfl⟩, ?_⟩
          unfold withoutInferences
          rw [Tier.withoutInferences_update]
      | lookup | build | store => cases orders
  | collect shard call =>
      obtain ⟨tier, stepped, rfl⟩ := step_collect.mp taken
      obtain ⟨replies, replied, rfl⟩ := Tier.step_collect.mp stepped
      exact step_collect.mpr ⟨_, Tier.step_collect.mpr ⟨replies, replied, rfl⟩, rfl⟩
  | respond node call =>
      obtain ⟨awaited, ret, found, rfl⟩ := step_respond.mp taken
      exact step_respond.mpr ⟨awaited, ret, found, rfl⟩

theorem withoutInferences_invisible {a : ServiceAction L} (inference : ¬ a.orders)
    (reads : s.ReadsInstalled a) (taken : s.step heap a = some s') :
    s'.withoutInferences = s.withoutInferences := by
  cases a with
  | whatsthis id pick stream =>
      rcases step_whatsthis taken with rfl | ⟨node, m, chunks, tag, -, -, -, rfl⟩ <;> rfl
  | serve node action =>
      obtain ⟨-, tier, stepped, rfl⟩ := step_serve.mp taken
      obtain ⟨-, r, served, rfl⟩ := Tier.step_serve.mp stepped
      have quiet : action.delivers = [] := by simpa [ServiceAction.orders] using inference
      have same := Replica.withoutInferences_inference quiet reads served
      unfold withoutInferences
      rw [Tier.withoutInferences_update, same]
      simp [Tier.withoutInferences]
  | installModel | removeModel | order | collect | respond => exact absurd rfl inference

theorem tracks_withoutInferences {actions : List (ServiceAction L)}
    (reads : Runs.EveryStep (step heap) (empty : Service L api) actions ReadsInstalled)
    (run : Runs.exec (step heap) empty actions = some s) :
    ∃ order, s.withoutInferences.Tracks order := by
  have erased : Runs.exec (step heap) (empty : Service L api)
      (actions.filter ServiceAction.orders) = some s.withoutInferences :=
    Runs.exec_erase withoutInferences ServiceAction.orders
      (fun s a s' orders taken => withoutInferences_visible orders taken)
      (fun s a s' inference reads taken => withoutInferences_invisible inference reads taken)
      reads run
  have tracked : Runs.EveryState (step heap) (empty : Service L api)
      (actions.filter ServiceAction.orders) fun s => ∃ order, s.Tracks order :=
    Runs.invariant (C := fun _ a => ¬ a.Asks)
      (fun s a s' ⟨order, tracks⟩ quiet taken => tracks.step quiet taken) ⟨[], tracks_empty⟩
      (fun before a s isPrefix _ => ServiceAction.not_asks_of_orders
        (List.mem_filter.mp (isPrefix.subset (by simp))).2)
  exact tracked.last erased

theorem linearizable_beside_inferences (heap : Allocator) (actions : List (ServiceAction L))
    (reads : Runs.EveryStep (step heap) (empty : Service L api) actions ReadsInstalled)
    (s : Service L api) (run : Runs.exec (step heap) empty actions = some s) :
    ∃ order, IsLinearization modelStore.toObject s.history order ∧
      (∀ shard, s.tier.log shard = order.filter fun call => L.shardOf call.tag = shard) ∧
      (∀ node, (s.tier.replica node).delivered.map Prod.fst <+: s.tier.log node.1 ∧
        (s.tier.replica node).tier.rawModels =
          modelStore.toObject.after ((s.tier.replica node).delivered.map Prod.fst)) ∧
      ((∀ call, .invoke call ∈ s.history → ∃ ret, .respond call ret ∈ s.history) →
        ∀ tag, Alternates
          (order.filter fun call => call.tag = tag ∧ .respond call 0 ∈ s.history)) := by
  obtain ⟨order, tracks⟩ := tracks_withoutInferences reads run
  have linearization : IsLinearization modelStore.toObject s.history order :=
    tracks.commits.isLinearization
  refine ⟨order, linearization, tracks.logs, fun node => ?_, fun complete tag => ?_⟩
  · exact ⟨tracks.follow.ordered node, (tracks.follow.follows node).rawModels_eq⟩
  · rw [successes_of_complete linearization complete]
    exact (successes_alternate tag order).1

open ShardLayout in
/-- A photo is asked about and looked up while the answer to the upload is still outstanding. -/
def besideRun : List (ServiceAction pair) :=
  let install : OrderedCall := ⟨0, .orderedInstallModel 7 1 1 0 ⟨[114, 98]⟩⟩
  let ask : InferenceCall := ⟨0, 7, ⟨[9]⟩⟩
  [.installModel 0 0 [.metadata ⟨7, 1, 1, 0⟩, .fileData [114, 98]], .order firstNode install,
    .serve secondNode (.deliver install), .whatsthis 0 1 [.metadata ⟨1, [7]⟩, .fileData [9]],
    .serve secondNode (.lookup ask), .serve secondNode (.build ask),
    .serve firstNode (.deliver install), .collect pairShard install, .respond firstNode install,
    .serve secondNode (.store ask)]

theorem besideRun_linearizable :
    ∃ (s : Service ShardLayout.pair sampleApi) (order : List OrderedCall),
      Runs.exec (step .zeros) empty besideRun = some s ∧
      IsLinearization modelStore.toObject s.history order := by
  obtain ⟨order, linearization, -⟩ := linearizable_beside_inferences .zeros besideRun (by decide)
    (_ : Service ShardLayout.pair sampleApi) rfl
  exact ⟨_, order, rfl, linearization⟩

end Service
end SospDemo
