import SospDemo.Replica.Sources
import SospDemo.Service.Steps

namespace SospDemo
open Linearizability Runs
variable {Engine Exn : Type} {api : EngineApi Engine Exn} {L : ShardLayout}

def ServiceAction.Brings (good : UInt32 → Model → Prop) (asked : InferenceCall → Prop) :
    ServiceAction L → Prop
  | .installModel _ _ stream =>
      ∀ m chunks, Uploads ModelMetadata.dataSize stream m chunks →
        good m.tag (m.model chunks.flatten)
  | .whatsthis id _ stream =>
      ∀ m chunks tag, Uploads PhotoMetadata.dataSize stream m chunks → m.tags = [tag] →
        asked ⟨id, tag, ⟨chunks.flatten⟩⟩
  | _ => True

theorem ServiceAction.brings_of_installs {good : UInt32 → Model → Prop} {a : ServiceAction L}
    (installs : ∀ id pick stream, a = .installModel id pick stream → ∀ m chunks,
      Uploads ModelMetadata.dataSize stream m chunks → good m.tag (m.model chunks.flatten)) :
    a.Brings good fun _ => True := by
  cases a with
  | installModel id pick stream => exact installs id pick stream rfl
  | whatsthis => exact fun _ _ _ _ _ => trivial
  | removeModel | order | serve | collect | respond => trivial

namespace Service

structure Requested (s : Service L api) (good : UInt32 → Model → Prop)
    (asked : InferenceCall → Prop) : Prop where
  sent : ∀ entry ∈ s.inFlight, entry.2.op.Good good
  logged : ∀ shard, ∀ call ∈ s.tier.log shard, call.op.Good good
  asked : ∀ entry ∈ s.asked, asked entry.2

variable {good : UInt32 → Model → Prop} {asked : InferenceCall → Prop} {heap : Allocator}
  {s s' : Service L api}

theorem requested_empty : (empty : Service L api).Requested good asked where
  sent _ sent := nomatch sent
  logged _ _ logged := nomatch logged
  asked _ asked := nomatch asked

theorem Requested.send (requested : s.Requested good asked) {node : L.Node} {call : OrderedCall}
    (installs : call.op.Good good) (sent : s.send node call = some s') :
    s'.Requested good asked := by
  obtain ⟨-, rfl⟩ := send_eq_some.mp sent
  refine { requested with sent := fun entry mem => ?_ }
  rcases List.mem_append.mp mem with mem | mem
  · exact requested.sent entry mem
  · exact List.mem_singleton.mp mem ▸ installs

theorem Requested.order (requested : s.Requested good asked) {node : L.Node} {call : OrderedCall}
    (taken : s.step heap (.order node call) = some s') : s'.Requested good asked := by
  obtain ⟨sent, tier, stepped, rfl⟩ := step_order.mp taken
  obtain ⟨-, rfl⟩ := Tier.step_order.mp stepped
  refine { requested with
    sent := fun entry mem => requested.sent entry (List.mem_of_mem_erase mem)
    logged := fun shard other logged => ?_ }
  simp only [Function.update_apply] at logged
  split at logged
  · rcases List.mem_append.mp logged with logged | logged
    · exact requested.logged node.1 other logged
    · exact List.mem_singleton.mp logged ▸ requested.sent _ sent
  · exact requested.logged shard other logged

theorem Requested.step (requested : s.Requested good asked) {a : ServiceAction L}
    (brings : a.Brings good asked) (taken : s.step heap a = some s') :
    s'.Requested good asked := by
  cases a with
  | installModel id pick stream =>
      rcases step_installModel taken with rfl | ⟨m, chunks, node, uploads, -, sent⟩
      · exact requested
      · refine requested.send (fun model stored => ?_) sent
        obtain rfl := Option.some.inj stored
        exact brings m chunks uploads
  | removeModel id pick tag =>
      rcases step_removeModel taken with rfl | ⟨node, -, sent⟩
      · exact requested
      · exact requested.send (OrderedOp.good_remove tag) sent
  | whatsthis id pick stream =>
      rcases step_whatsthis taken with rfl | ⟨node, m, chunks, tag, uploads, tags, -, rfl⟩
      · exact requested
      · refine { requested with asked := fun entry mem => ?_ }
        rcases List.mem_append.mp mem with mem | mem
        · exact requested.asked entry mem
        · exact List.mem_singleton.mp mem ▸ brings m chunks tag uploads tags
  | order node call => exact requested.order taken
  | serve node action =>
      obtain ⟨-, tier, stepped, rfl⟩ := step_serve.mp taken
      obtain ⟨-, r, -, rfl⟩ := Tier.step_serve.mp stepped
      exact { requested with }
  | collect shard call =>
      obtain ⟨tier, stepped, rfl⟩ := step_collect.mp taken
      obtain ⟨replies, -, rfl⟩ := Tier.step_collect.mp stepped
      exact { requested with }
  | respond node call =>
      obtain ⟨-, ret, -, rfl⟩ := step_respond.mp taken
      exact { requested with }

/-! ## Atomic replicas -/

structure Sourced (s : Service L api) (good : UInt32 → Model → Prop) : Prop where
  requested : s.Requested good fun _ => True
  replicas : ∀ node, (s.tier.replica node).tier.rawModels.All good
  ordered : ∀ node, (s.tier.replica node).delivered.map Prod.fst <+: s.tier.log node.1

theorem sourced_empty (good : UInt32 → Model → Prop) : (empty : Service L api).Sourced good :=
  ⟨requested_empty, fun _ => StdMap.all_empty good, fun _ => List.nil_prefix⟩

theorem Sourced.step (sourced : s.Sourced good) (empty : ∀ tag, good tag default)
    {a : ServiceAction L} (brings : a.Brings good fun _ => True) (taken : s.step heap a = some s') :
    s'.Sourced good := by
  refine ⟨sourced.requested.step brings taken, fun node => ?_, ordered_step sourced.ordered taken⟩
  rcases replica_step taken node with same | ⟨action, rfl, served⟩
  · rw [same]
    exact sourced.replicas node
  refine Replica.sourced_step (sourced.replicas node) empty (fun call mem => ?_) served
  obtain ⟨-, tier, stepped, -⟩ := step_serve.mp taken
  obtain ⟨allowed, -⟩ := Tier.step_serve.mp stepped
  cases action with
  | deliver next =>
      obtain rfl := List.mem_singleton.mp mem
      exact sourced.requested.logged node.1 call
        ((List.isPrefixOf_iff_prefix.mp allowed).subset (by simp))
  | lookup | build | store => cases mem

end Service
end SospDemo
