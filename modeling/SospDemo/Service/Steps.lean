import SospDemo.Library.Linearizability
import SospDemo.Tier.Agreement
import SospDemo.Upload.Accepted

/-!
# The whole service

Clients send requests to nodes of the function tier, which contact a member of the shard of the
tag. The contacted member orders the call in its shard and returns when all members have replied.
The history holds what the clients see of installs and removes.
-/

namespace SospDemo
open Linearizability

namespace ShardLayout

def table (L : ShardLayout) : List (List L.Node) := (List.finRange L.shards).map L.members

def shardOf (L : ShardLayout) (tag : UInt32) : L.Shard :=
  ⟨tag.toNat % L.shards, Nat.mod_lt _ L.shards_pos⟩

theorem target_table {L : ShardLayout} {tag : UInt32} {pick : Nat} {node : L.Node} :
    FunctionTier.target L.table tag pick = some node ↔
      ∃ index : Fin (L.replicas (L.shardOf tag)), index.val = pick ∧
        node = ⟨L.shardOf tag, index⟩ := by
  have shard : L.table[tag.toNat % L.table.length]? = some (L.members (L.shardOf tag)) := by
    simp [table, shardOf, Nat.mod_lt _ L.shards_pos]
  rw [FunctionTier.target, shard, Option.bind_some, members, List.getElem?_map,
    Option.map_eq_some_iff]
  constructor
  · rintro ⟨index, found, rfl⟩
    obtain ⟨bound, rfl⟩ := List.getElem?_eq_some_iff.mp found
    exact ⟨_, by simp, rfl⟩
  · rintro ⟨index, rfl, rfl⟩
    exact ⟨index, by simp, rfl⟩

end ShardLayout

def OrderedOp.reply : OrderedOp → Int → Status × ModelReply
  | .orderedInstallModel .. => FunctionTier.installReply
  | .orderedRemoveModel _ => FunctionTier.removeReply

@[simp] theorem OrderedOp.errorCode_reply (op : OrderedOp) (ret : Int) :
    (op.reply ret).2.errorCode = ret := by
  cases op <;> rfl

inductive ServiceAction (L : ShardLayout)
  | installModel (id pick : Nat) (stream : List InstallModelRequest)
  | removeModel (id pick : Nat) (tag : UInt32)
  | whatsthis (id pick : Nat) (stream : List PhotoRequest)
  | order (node : L.Node) (call : OrderedCall)
  | serve (node : L.Node) (action : ReplicaAction)
  | collect (shard : L.Shard) (call : OrderedCall)
  | respond (node : L.Node) (call : OrderedCall)

variable {Engine Exn : Type}

/-- `inFlight` are the calls sent to a node that it has not ordered yet, `awaiting` those it has
not answered yet, and `asked` the inference calls sent to a node. -/
structure Service (L : ShardLayout) (api : EngineApi Engine Exn) where
  tier : Tier L api
  inFlight : List (L.Node × OrderedCall)
  awaiting : List (L.Node × OrderedCall)
  asked : List (L.Node × InferenceCall)
  history : History OrderedCall Int

namespace Service
variable {L : ShardLayout} {api : EngineApi Engine Exn}

def empty : Service L api := ⟨.empty, [], [], [], []⟩

def send (s : Service L api) (node : L.Node) (call : OrderedCall) : Option (Service L api) :=
  if .invoke call ∈ s.history then none
  else some { s with
    inFlight := s.inFlight ++ [(node, call)]
    history := s.history ++ [.invoke call] }

def serves (s : Service L api) (node : L.Node) : ReplicaAction → Bool
  | .lookup call => (node, call) ∈ s.asked
  | _ => true

def step (heap : Allocator) (s : Service L api) : ServiceAction L → Option (Service L api)
  | .installModel id pick stream =>
      match FunctionTier.installModel Exn heap L.table pick stream ⟨0, ""⟩ with
      | .p2pSend node op _ => s.send node ⟨id, op⟩
      | _ => some s
  | .removeModel id pick tag =>
      match FunctionTier.removeModel Exn L.table pick tag with
      | .p2pSend node op _ => s.send node ⟨id, op⟩
      | _ => some s
  | .whatsthis id pick stream =>
      match FunctionTier.whatsthis Exn heap L.table pick stream ⟨""⟩ with
      | .p2pSend node photo _ => some { s with asked := s.asked ++ [(node, ⟨id, photo⟩)] }
      | _ => some s
  | .order node call =>
      if (node, call) ∈ s.inFlight then
        (s.tier.step (.order node.1 call)).map fun tier =>
          { s with
            tier
            inFlight := s.inFlight.erase (node, call)
            awaiting := s.awaiting ++ [(node, call)] }
      else none
  | .serve node action =>
      if s.serves node action then
        (s.tier.step (.serve node action)).map fun tier => { s with tier }
      else none
  | .collect shard call => (s.tier.step (.collect shard call)).map fun tier => { s with tier }
  | .respond node call =>
      if (node, call) ∈ s.awaiting then
        ((s.tier.returned node.1).find call).map fun ret =>
          { s with
            awaiting := s.awaiting.erase (node, call)
            history := s.history ++ [.respond call (call.op.reply ret).2.errorCode] }
      else none

variable {heap : Allocator} {s s' : Service L api}

theorem send_eq_some {node : L.Node} {call : OrderedCall} :
    s.send node call = some s' ↔ .invoke call ∉ s.history ∧ s' = { s with
      inFlight := s.inFlight ++ [(node, call)]
      history := s.history ++ [.invoke call] } := by
  by_cases known : Event.invoke call ∈ s.history <;> simp [send, known, eq_comm]

theorem step_installModel {id pick : Nat} {stream : List InstallModelRequest}
    (taken : s.step heap (.installModel id pick stream) = some s') :
    s' = s ∨ ∃ m chunks node, Uploads ModelMetadata.dataSize stream m chunks ∧
      node.1 = L.shardOf m.tag ∧ s.send node ⟨id, m.installCall chunks.flatten⟩ = some s' := by
  simp only [step] at taken
  split at taken
  · rename_i node op resume contacted
    obtain ⟨m, chunks, uploads, found, rfl, -⟩ :=
      FunctionTier.installModel_eq_p2pSend.mp contacted
    obtain ⟨index, -, rfl⟩ := ShardLayout.target_table.mp found
    exact .inr ⟨m, chunks, _, uploads, rfl, taken⟩
  · exact .inl (Option.some.inj taken).symm

theorem step_removeModel {id pick : Nat} {tag : UInt32}
    (taken : s.step heap (.removeModel id pick tag) = some s') :
    s' = s ∨ ∃ node : L.Node, node.1 = L.shardOf tag ∧
      s.send node ⟨id, .orderedRemoveModel tag⟩ = some s' := by
  simp only [step] at taken
  split at taken
  · rename_i node op resume contacted
    unfold FunctionTier.removeModel at contacted
    split at contacted <;> cases contacted
    rename_i found
    obtain ⟨index, -, rfl⟩ := ShardLayout.target_table.mp found
    exact .inr ⟨_, rfl, taken⟩
  · exact .inl (Option.some.inj taken).symm

theorem step_whatsthis {id pick : Nat} {stream : List PhotoRequest}
    (taken : s.step heap (.whatsthis id pick stream) = some s') :
    s' = s ∨ ∃ (node : L.Node) (m : PhotoMetadata) (chunks : List Bytes) (tag : UInt32),
      Uploads PhotoMetadata.dataSize stream m chunks ∧ m.tags = [tag] ∧
      node.1 = L.shardOf tag ∧
      s' = { s with asked := s.asked ++ [(node, ⟨id, tag, ⟨chunks.flatten⟩⟩)] } := by
  simp only [step] at taken
  split at taken
  · rename_i node photo resume contacted
    obtain ⟨m, chunks, tag, uploads, tags, found, rfl, -⟩ :=
      FunctionTier.whatsthis_eq_p2pSend.mp contacted
    obtain ⟨index, -, rfl⟩ := ShardLayout.target_table.mp found
    exact .inr ⟨_, m, chunks, tag, uploads, tags, rfl, (Option.some.inj taken).symm⟩
  · exact .inl (Option.some.inj taken).symm

theorem step_order {node : L.Node} {call : OrderedCall} :
    s.step heap (.order node call) = some s' ↔ (node, call) ∈ s.inFlight ∧
      ∃ tier, s.tier.step (.order node.1 call) = some tier ∧ s' = { s with
        tier
        inFlight := s.inFlight.erase (node, call)
        awaiting := s.awaiting ++ [(node, call)] } := by
  by_cases sent : (node, call) ∈ s.inFlight <;> simp [step, sent, eq_comm]

theorem step_serve {node : L.Node} {action : ReplicaAction} :
    s.step heap (.serve node action) = some s' ↔ s.serves node action ∧
      ∃ tier, s.tier.step (.serve node action) = some tier ∧ s' = { s with tier } := by
  by_cases served : s.serves node action <;> simp [step, served, eq_comm]

theorem step_collect {shard : L.Shard} {call : OrderedCall} :
    s.step heap (.collect shard call) = some s' ↔
      ∃ tier, s.tier.step (.collect shard call) = some tier ∧ s' = { s with tier } := by
  simp [step, eq_comm]

theorem step_respond {node : L.Node} {call : OrderedCall} :
    s.step heap (.respond node call) = some s' ↔ (node, call) ∈ s.awaiting ∧
      ∃ ret, (s.tier.returned node.1).find call = some ret ∧ s' = { s with
        awaiting := s.awaiting.erase (node, call)
        history := s.history ++ [.respond call ret] } := by
  by_cases sent : (node, call) ∈ s.awaiting <;> simp [step, sent, eq_comm]

theorem tier_step {a : ServiceAction L} (taken : s.step heap a = some s') :
    s'.tier = s.tier ∨ ∃ action, s.tier.step action = some s'.tier := by
  cases a with
  | installModel id pick stream =>
      rcases step_installModel taken with rfl | ⟨m, chunks, node, -, -, sent⟩
      · exact .inl rfl
      · obtain ⟨-, rfl⟩ := send_eq_some.mp sent
        exact .inl rfl
  | removeModel id pick tag =>
      rcases step_removeModel taken with rfl | ⟨node, -, sent⟩
      · exact .inl rfl
      · obtain ⟨-, rfl⟩ := send_eq_some.mp sent
        exact .inl rfl
  | whatsthis id pick stream =>
      rcases step_whatsthis taken with rfl | ⟨node, m, chunks, tag, -, -, -, rfl⟩ <;> exact .inl rfl
  | order node call =>
      obtain ⟨-, tier, stepped, rfl⟩ := step_order.mp taken
      exact .inr ⟨_, stepped⟩
  | serve node action =>
      obtain ⟨-, tier, stepped, rfl⟩ := step_serve.mp taken
      exact .inr ⟨_, stepped⟩
  | collect shard call =>
      obtain ⟨tier, stepped, rfl⟩ := step_collect.mp taken
      exact .inr ⟨_, stepped⟩
  | respond node call =>
      obtain ⟨-, ret, -, rfl⟩ := step_respond.mp taken
      exact .inl rfl

theorem replica_step {a : ServiceAction L} (taken : s.step heap a = some s') (node : L.Node) :
    s'.tier.replica node = s.tier.replica node ∨
      ∃ action, a = .serve node action ∧
        (s.tier.replica node).step action = some (s'.tier.replica node) := by
  cases a with
  | serve other action =>
      obtain ⟨-, tier, stepped, rfl⟩ := step_serve.mp taken
      obtain ⟨-, r, served, rfl⟩ := Tier.step_serve.mp stepped
      by_cases same : node = other
      · subst same
        exact .inr ⟨action, rfl, by simpa using served⟩
      · exact .inl (Function.update_of_ne same _ _)
  | order other call =>
      obtain ⟨-, tier, stepped, rfl⟩ := step_order.mp taken
      obtain ⟨-, rfl⟩ := Tier.step_order.mp stepped
      exact .inl rfl
  | collect shard call =>
      obtain ⟨tier, stepped, rfl⟩ := step_collect.mp taken
      obtain ⟨replies, -, rfl⟩ := Tier.step_collect.mp stepped
      exact .inl rfl
  | respond other call =>
      obtain ⟨-, ret, -, rfl⟩ := step_respond.mp taken
      exact .inl rfl
  | installModel id pick stream =>
      rcases step_installModel taken with rfl | ⟨m, chunks, other, -, -, sent⟩
      · exact .inl rfl
      · obtain ⟨-, rfl⟩ := send_eq_some.mp sent
        exact .inl rfl
  | removeModel id pick tag =>
      rcases step_removeModel taken with rfl | ⟨other, -, sent⟩
      · exact .inl rfl
      · obtain ⟨-, rfl⟩ := send_eq_some.mp sent
        exact .inl rfl
  | whatsthis id pick stream =>
      rcases step_whatsthis taken with rfl | ⟨other, m, chunks, tag, -, -, -, rfl⟩ <;> exact .inl rfl

theorem ordered_step {a : ServiceAction L}
    (ordered : ∀ node, (s.tier.replica node).delivered.map Prod.fst <+: s.tier.log node.1)
    (taken : s.step heap a = some s') (node : L.Node) :
    (s'.tier.replica node).delivered.map Prod.fst <+: s'.tier.log node.1 := by
  rcases tier_step taken with same | ⟨action, stepped⟩
  · rw [same]
    exact ordered node
  · exact Tier.ordered_step ordered stepped node

end Service
end SospDemo
