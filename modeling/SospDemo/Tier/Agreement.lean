import SospDemo.Tier.Steps

/-!
# Agreement of the replicas

Each replica applies the calls of its shard in the shard's order, so `raw_models` is the fold of
the calls delivered so far, unless an inference call evaluates `raw_models[photo.tag]` after the
model has been removed: `operator[]` then installs an empty model at that replica alone.
-/

namespace SospDemo
variable {Engine Exn : Type} {api : EngineApi Engine Exn}

namespace Replica

structure Follows (r : Replica api) : Prop where
  rawModels_eq : r.tier.rawModels = modelStore.toObject.after (r.delivered.map Prod.fst)
  delivered_eq : r.delivered = modelStore.toObject.transcript (r.delivered.map Prod.fst)

def ReadsInstalled (r : Replica api) : ReplicaAction → Prop
  | .build call => r.tier.rawModels.find call.tag ≠ none
  | _ => True

theorem follows_empty : (empty : Replica api).Follows := ⟨rfl, rfl⟩

variable {r r' : Replica api}

theorem build_rawModels_eq_iff (t : CategorizerTier api) (photo : Photo) :
    (t.build photo).1.rawModels = t.rawModels ↔ t.rawModels.find photo.tag ≠ none := by
  rw [CategorizerTier.build_eq]
  constructor
  · intro same absent
    have found := congrArg (fun m => m.find photo.tag) same
    simp [absent] at found
  · intro present
    obtain ⟨model, found⟩ := Option.ne_none_iff_exists'.mp present
    simp [found, StdMap.assign_of_present found]

theorem Follows.step (follows : r.Follows) {a : ReplicaAction} (reads : r.ReadsInstalled a)
    (taken : r.step a = some r') : r'.Follows := by
  obtain ⟨rawModels_eq, delivered_eq⟩ := follows
  cases a with
  | deliver call =>
      obtain rfl := step_deliver.mp taken
      constructor
      · simp [rawModels_eq]
      · simp only [List.map_append, List.map_cons, List.map_nil,
          SequentialObject.transcript_concat, ← delivered_eq, CategorizerTier.perform_code]
        rw [rawModels_eq]
        rfl
  | lookup call =>
      obtain ⟨-, rfl⟩ := step_lookup.mp taken
      exact ⟨rawModels_eq, delivered_eq⟩
  | build call =>
      obtain ⟨-, rfl⟩ := step_build.mp taken
      exact ⟨((build_rawModels_eq_iff r.tier call.photo).mpr reads).trans rawModels_eq, delivered_eq⟩
  | store call =>
      obtain ⟨engine, -, rfl⟩ := step_store.mp taken
      exact ⟨rawModels_eq, delivered_eq⟩

end Replica

namespace Tier
variable {L : ShardLayout} {t t' : Tier L api}

def ReadsInstalled (t : Tier L api) : TierAction L → Prop
  | .serve node action => (t.replica node).ReadsInstalled action
  | _ => True

structure ReplicasAgree (t : Tier L api) : Prop where
  ordered : ∀ node, (t.replica node).delivered.map Prod.fst <+: t.log node.1
  folded : ∀ node, (t.replica node).tier.rawModels =
    modelStore.toObject.after ((t.replica node).delivered.map Prod.fst)
  codes : ∀ node node' : L.Node, node.1 = node'.1 → ∀ (i : Nat) (entry entry' : OrderedCall × Int),
    (t.replica node).delivered[i]? = some entry → (t.replica node').delivered[i]? = some entry' →
    entry = entry'

structure AllFollow (t : Tier L api) : Prop where
  ordered : ∀ node, (t.replica node).delivered.map Prod.fst <+: t.log node.1
  follows : ∀ node, (t.replica node).Follows

theorem allFollow_empty : (empty : Tier L api).AllFollow :=
  ⟨fun _ => List.nil_prefix, fun _ => Replica.follows_empty⟩

theorem AllFollow.delivered_prefix (all : t.AllFollow) (node : L.Node) :
    (t.replica node).delivered <+: modelStore.toObject.transcript (t.log node.1) := by
  rw [(all.follows node).delivered_eq]
  exact SequentialObject.transcript_prefix _ (all.ordered node)

theorem getElem?_of_prefix {α : Type*} {xs ys : List α} (isPrefix : xs <+: ys) {i : Nat} {x : α}
    (found : xs[i]? = some x) : ys[i]? = some x := by
  obtain ⟨bound, rfl⟩ := List.getElem?_eq_some_iff.mp found
  exact List.prefix_iff_getElem?.mp isPrefix i bound

theorem AllFollow.replicasAgree (all : t.AllFollow) : t.ReplicasAgree := by
  refine ⟨all.ordered, fun node => (all.follows node).rawModels_eq, ?_⟩
  intro node node' same i entry entry' found found'
  have inTranscript := getElem?_of_prefix (all.delivered_prefix node) found
  have inTranscript' := getElem?_of_prefix (all.delivered_prefix node') found'
  rw [← same] at inTranscript'
  exact Option.some.inj (inTranscript.symm.trans inTranscript')

theorem ordered_step (ordered : ∀ node, (t.replica node).delivered.map Prod.fst <+: t.log node.1)
    {a : TierAction L} (taken : t.step a = some t') :
    ∀ node, (t'.replica node).delivered.map Prod.fst <+: t'.log node.1 := by
  intro node
  cases a with
  | order shard call =>
      obtain ⟨-, rfl⟩ := step_order.mp taken
      refine (ordered node).trans ?_
      simp only [Function.update_apply]
      split
      · rename_i same
        exact same ▸ List.prefix_append _ _
      · exact List.prefix_rfl
  | serve other action =>
      obtain ⟨allowed, r, stepped, rfl⟩ := step_serve.mp taken
      simp only [Function.update_apply]
      split
      · rename_i same
        subst same
        rw [Replica.delivered_step stepped]
        cases action with
        | deliver call => exact List.isPrefixOf_iff_prefix.mp allowed
        | _ => simpa [ReplicaAction.delivers] using ordered node
      · exact ordered node
  | collect shard call =>
      obtain ⟨replies, -, rfl⟩ := step_collect.mp taken
      exact ordered node

theorem AllFollow.step (all : t.AllFollow) {a : TierAction L} (reads : t.ReadsInstalled a)
    (taken : t.step a = some t') : t'.AllFollow := by
  refine ⟨ordered_step all.ordered taken, ?_⟩
  intro node
  cases a with
  | order shard call =>
      obtain ⟨-, rfl⟩ := step_order.mp taken
      exact all.follows node
  | serve other action =>
      obtain ⟨-, r, stepped, rfl⟩ := step_serve.mp taken
      simp only [Function.update_apply]
      split
      · rename_i same
        subst same
        exact (all.follows node).step reads stepped
      · exact all.follows node
  | collect shard call =>
      obtain ⟨replies, -, rfl⟩ := step_collect.mp taken
      exact all.follows node

theorem ReplicasAgree.readsInstalled (before : t.ReplicasAgree) (after : t'.ReplicasAgree)
    {a : TierAction L} (taken : t.step a = some t') : t.ReadsInstalled a := by
  cases a with
  | order => trivial
  | collect => trivial
  | serve node action =>
      cases action with
      | deliver => trivial
      | lookup => trivial
      | store => trivial
      | build call =>
          obtain ⟨-, r, stepped, rfl⟩ := step_serve.mp taken
          obtain ⟨-, rfl⟩ := Replica.step_build.mp stepped
          have folded := after.folded node
          simp only [Function.update_self, ← before.folded node] at folded
          exact (Replica.build_rawModels_eq_iff _ _).mp folded

theorem replicas_agree_iff (actions : List (TierAction L)) (t : Tier L api)
    (run : Runs.exec step (empty : Tier L api) actions = some t) :
    Runs.EveryState step (empty : Tier L api) actions ReplicasAgree ↔
      Runs.EveryStep step (empty : Tier L api) actions ReadsInstalled := by
  constructor
  · exact Runs.everyStep_of_everyState
      (fun t a t' before taken after => before.readsInstalled after taken) run
  · intro reads
    have all : Runs.EveryState step (empty : Tier L api) actions AllFollow :=
      Runs.invariant (fun t a t' all reads taken => all.step reads taken) allFollow_empty reads
    exact all.mono fun t all => all.replicasAgree

open ShardLayout in
/-- An inference at replica 0 finds tag 7 installed; both replicas deliver its removal; the
inference then evaluates `raw_models[7]`, and tag 7 is installed again. -/
def resurrectSchedule : List (TierAction pair) :=
  let call : InferenceCall := ⟨0, 7, ⟨[1]⟩⟩
  let install (id : Nat) : OrderedCall := ⟨id, .orderedInstallModel 7 1 1 1 ⟨[114, 1, 2]⟩⟩
  let remove : OrderedCall := ⟨1, .orderedRemoveModel 7⟩
  let deliver (call : OrderedCall) : List (TierAction pair) :=
    [.order pairShard call, .serve firstNode (.deliver call),
      .serve secondNode (.deliver call)]
  deliver (install 0) ++ [.serve firstNode (.lookup call)] ++ deliver remove ++
    [.serve firstNode (.build call)] ++ deliver (install 2)

open ShardLayout in
theorem resurrectSchedule_diverges :
    ∃ t : Tier pair sampleApi, Runs.exec step empty resurrectSchedule = some t ∧
      (t.replica firstNode).delivered.map Prod.snd = [0, 0, -1] ∧
      (t.replica secondNode).delivered.map Prod.snd = [0, 0, 0] ∧
      (t.replica firstNode).tier.rawModels.find 7 ≠
        (t.replica secondNode).tier.rawModels.find 7 := by
  refine ⟨_, rfl, rfl, rfl, ?_⟩
  decide

theorem resurrectSchedule_agrees_iff :
    Runs.EveryState step (empty : Tier ShardLayout.pair sampleApi) resurrectSchedule ReplicasAgree ↔
      Runs.EveryStep step (empty : Tier ShardLayout.pair sampleApi) resurrectSchedule
        ReadsInstalled :=
  replicas_agree_iff resurrectSchedule _ rfl

end Tier
end SospDemo
