import SospDemo.Library.Simulation
import SospDemo.Service.Steps

namespace SospDemo
variable {Engine Exn : Type}

abbrev Cluster (L : ShardLayout) (api : EngineApi Engine Exn) := L.Node → CategorizerTier api

namespace Cluster
variable {L : ShardLayout} {api : EngineApi Engine Exn}

inductive ClientRequest
  | installModel (pick : Nat) (stream : List InstallModelRequest)
  | removeModel (pick : Nat) (tag : UInt32)
  | whatsthis (pick : Nat) (stream : List PhotoRequest)

inductive ClientReply (Exn : Type)
  | model (reply : Except (HandlerException Exn) (Status × ModelReply))
  | photo (reply : Except (HandlerException Exn) (Status × PhotoReply))
  | outOfRange

def empty : Cluster L api := fun _ => .empty

def orderedSend (c : Cluster L api) (shard : L.Shard) (op : OrderedOp) : Int × Cluster L api :=
  (CategorizerTier.collectReplies ((L.members shard).map fun node => ((c node).perform op).1),
    fun node => if node.1 = shard then ((c node).perform op).2 else c node)

def execute (heap : Allocator) (c : Cluster L api) : ClientRequest → ClientReply Exn × Cluster L api
  | .installModel pick stream =>
      match FunctionTier.installModel Exn heap L.table pick stream ⟨0, ""⟩ with
      | .finished reply => (.model reply, c)
      | .outOfRange => (.outOfRange, c)
      | .p2pSend node op resume =>
          let (ret, c) := c.orderedSend node.1 op
          (.model (resume (.ok ret)), c)
  | .removeModel pick tag =>
      match FunctionTier.removeModel Exn L.table pick tag with
      | .finished reply => (.model reply, c)
      | .outOfRange => (.outOfRange, c)
      | .p2pSend node op resume =>
          let (ret, c) := c.orderedSend node.1 op
          (.model (resume (.ok ret)), c)
  | .whatsthis pick stream =>
      match FunctionTier.whatsthis Exn heap L.table pick stream ⟨""⟩ with
      | .finished reply => (.photo reply, c)
      | .outOfRange => (.outOfRange, c)
      | .p2pSend node photo resume =>
          let (tier, outcome) := (c node).inference photo
          (.photo (resume outcome), Function.update c node tier)

@[simps] def service (heap : Allocator) (L : ShardLayout) (api : EngineApi Engine Exn) :
    SequentialObject (Cluster L api) ClientRequest (ClientReply Exn) where
  init := empty
  apply := execute heap

end Cluster
end SospDemo
