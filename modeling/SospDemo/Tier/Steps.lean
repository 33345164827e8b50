import SospDemo.Replica.Steps

/-!
# The shards and replicas of the categorizer tier

`ordered_send` puts a call into the one order of its shard. Each replica delivers the calls of its
shard in that order, at its own pace, and serves inference calls in between. `install_model` and
`remove_model` return once all replicas of the shard have replied.
-/

namespace SospDemo

structure ShardLayout where
  shards : Nat
  replicas : Fin shards → Nat
  shards_pos : 0 < shards
  replicas_pos : ∀ s, 0 < replicas s

namespace ShardLayout

abbrev Shard (L : ShardLayout) := Fin L.shards

abbrev Node (L : ShardLayout) := (s : L.Shard) × Fin (L.replicas s)

def members (L : ShardLayout) (s : L.Shard) : List L.Node :=
  (List.finRange (L.replicas s)).map fun i => ⟨s, i⟩

theorem mem_members {L : ShardLayout} {s : L.Shard} {node : L.Node} :
    node ∈ L.members s ↔ node.1 = s := by
  obtain ⟨shard, index⟩ := node
  simp only [members, List.mem_map, List.mem_finRange, true_and]
  constructor
  · rintro ⟨i, eq⟩
    exact (congrArg Sigma.fst eq).symm
  · rintro rfl
    exact ⟨index, rfl⟩

@[simp] theorem length_members (L : ShardLayout) (s : L.Shard) :
    (L.members s).length = L.replicas s := by
  simp [members]

def pair : ShardLayout := ⟨1, fun _ => 2, by decide, by decide⟩

def pairShard : pair.Shard := ⟨0, by decide⟩

def firstNode : pair.Node := ⟨pairShard, ⟨0, by decide⟩⟩

def secondNode : pair.Node := ⟨pairShard, ⟨1, by decide⟩⟩

end ShardLayout

variable {Engine Exn : Type}

inductive TierAction (L : ShardLayout)
  | order (shard : L.Shard) (call : OrderedCall)
  | serve (node : L.Node) (action : ReplicaAction)
  | collect (shard : L.Shard) (call : OrderedCall)

def TierAction.tag {L : ShardLayout} : TierAction L → UInt32
  | .order _ call | .collect _ call => call.tag
  | .serve _ action => action.tag

/-- `returned` holds what `install_model` or `remove_model` returned for a call. -/
@[ext] structure Tier (L : ShardLayout) (api : EngineApi Engine Exn) where
  log : L.Shard → List OrderedCall
  replica : L.Node → Replica api
  returned : L.Shard → StdMap OrderedCall Int

namespace Tier
variable {L : ShardLayout} {api : EngineApi Engine Exn}

def empty : Tier L api := ⟨fun _ => [], fun _ => .empty, fun _ => .empty⟩

def allows (log : List OrderedCall) (r : Replica api) : ReplicaAction → Bool
  | .deliver call => (r.delivered.map Prod.fst ++ [call]).isPrefixOf log
  | _ => true

def replies (t : Tier L api) (shard : L.Shard) (call : OrderedCall) : Option (List Int) :=
  (L.members shard).mapM fun node => (t.replica node).delivered.lookup call

def step (t : Tier L api) : TierAction L → Option (Tier L api)
  | .order shard call =>
      if call ∈ t.log shard then none
      else some { t with log := Function.update t.log shard (t.log shard ++ [call]) }
  | .serve node action =>
      if allows (t.log node.1) (t.replica node) action then
        ((t.replica node).step action).map fun r =>
          { t with replica := Function.update t.replica node r }
      else none
  | .collect shard call =>
      (t.replies shard call).map fun replies =>
        { t with
          returned := Function.update t.returned shard
            ((t.returned shard).assign call (CategorizerTier.collectReplies replies)) }

variable {t t' : Tier L api}

theorem step_order {shard : L.Shard} {call : OrderedCall} :
    t.step (.order shard call) = some t' ↔ call ∉ t.log shard ∧
      t' = { t with log := Function.update t.log shard (t.log shard ++ [call]) } := by
  by_cases mem : call ∈ t.log shard <;> simp [step, mem, eq_comm]

theorem step_serve {node : L.Node} {action : ReplicaAction} :
    t.step (.serve node action) = some t' ↔
      allows (t.log node.1) (t.replica node) action ∧
      ∃ r, (t.replica node).step action = some r ∧
        t' = { t with replica := Function.update t.replica node r } := by
  by_cases allowed : allows (t.log node.1) (t.replica node) action <;>
    simp [step, allowed, eq_comm]

theorem step_collect {shard : L.Shard} {call : OrderedCall} :
    t.step (.collect shard call) = some t' ↔ ∃ replies, t.replies shard call = some replies ∧
      t' = { t with
        returned := Function.update t.returned shard
          ((t.returned shard).assign call (CategorizerTier.collectReplies replies)) } := by
  simp [step, eq_comm]

end Tier
end SospDemo
