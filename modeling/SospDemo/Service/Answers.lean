import SospDemo.Tier.Answers
import SospDemo.Service.Replies

namespace SospDemo
open Linearizability Runs
variable {Engine Exn : Type} {api : EngineApi Engine Exn} {L : ShardLayout}

namespace Service
variable {heap : Allocator} {s s' : Service L api}

def LoadsUndisturbed (s : Service L api) : ServiceAction L → Prop
  | .serve node action => (s.tier.replica node).LoadsUndisturbed action
  | _ => True

theorem serves_step {a : ServiceAction L} {node : L.Node}
    (serves : (s.tier.replica node).Serves) (undisturbed : s.LoadsUndisturbed a)
    (taken : s.step heap a = some s') : (s'.tier.replica node).Serves := by
  rcases replica_step taken node with same | ⟨action, rfl, stepped⟩
  · rwa [same]
  · exact serves.step undisturbed stepped

theorem explains_step {a : ServiceAction L} {node : L.Node} {known : List OrderedCall}
    {call : InferenceCall} (serves : (s.tier.replica node).Serves)
    (explains : (s.tier.replica node).Explains known call)
    (taken : s.step heap a = some s') : (s'.tier.replica node).Explains known call := by
  rcases replica_step taken node with same | ⟨action, rfl, stepped⟩
  · rwa [same]
  · exact explains.step serves stepped

theorem asked_step {a : ServiceAction L} (taken : s.step heap a = some s')
    {entry : L.Node × InferenceCall} (asked : entry ∈ s'.asked) :
    entry ∈ s.asked ∨ ∃ id pick stream m chunks tag, a = .whatsthis id pick stream ∧
      Uploads PhotoMetadata.dataSize stream m chunks ∧ m.tags = [tag] ∧
      entry.1.1 = L.shardOf tag ∧ entry.2 = ⟨id, tag, ⟨chunks.flatten⟩⟩ := by
  cases a with
  | whatsthis id pick stream =>
      rcases step_whatsthis taken with rfl | ⟨node, m, chunks, tag, uploads, tags, route, rfl⟩
      · exact .inl asked
      · rcases List.mem_append.mp asked with asked | asked
        · exact .inl asked
        · obtain rfl := List.mem_singleton.mp asked
          exact .inr ⟨id, pick, stream, m, chunks, tag, rfl, uploads, tags, route, rfl⟩
  | installModel id pick stream =>
      rcases step_installModel taken with rfl | ⟨m, chunks, other, -, -, sent⟩
      · exact .inl asked
      · obtain ⟨-, rfl⟩ := send_eq_some.mp sent
        exact .inl asked
  | removeModel id pick tag =>
      rcases step_removeModel taken with rfl | ⟨other, -, sent⟩
      · exact .inl asked
      · obtain ⟨-, rfl⟩ := send_eq_some.mp sent
        exact .inl asked
  | order node call =>
      obtain ⟨-, tier, -, rfl⟩ := step_order.mp taken
      exact .inl asked
  | serve node action =>
      obtain ⟨-, tier, -, rfl⟩ := step_serve.mp taken
      exact .inl asked
  | collect shard call =>
      obtain ⟨tier, -, rfl⟩ := step_collect.mp taken
      exact .inl asked
  | respond node call =>
      obtain ⟨-, ret, -, rfl⟩ := step_respond.mp taken
      exact .inl asked

theorem started_step {a : ServiceAction L} (taken : s.step heap a = some s') {node : L.Node}
    {call : InferenceCall} (started : (s'.tier.replica node).calls.find call ≠ none) :
    (s.tier.replica node).calls.find call ≠ none ∨ (node, call) ∈ s.asked := by
  rcases replica_step taken node with same | ⟨action, rfl, stepped⟩
  · exact .inl (same ▸ started)
  by_cases concerns : Replica.Concerns action call
  · cases action with
    | deliver ordered => exact concerns.elim
    | lookup other =>
        obtain rfl : call = other := concerns
        exact .inr (of_decide_eq_true (step_serve.mp taken).1)
    | build other =>
        obtain rfl : call = other := concerns
        exact .inl (by simp [(Replica.step_build.mp stepped).1])
    | store other =>
        obtain rfl : call = other := concerns
        obtain ⟨engine, held, -⟩ := Replica.step_store.mp stepped
        exact .inl (by simp [held])
  · rw [Replica.calls_step_of_not_concerns concerns stepped] at started
    exact .inl started

structure Routed (s : Service L api) : Prop where
  asked : ∀ entry ∈ s.asked, entry.1.1 = L.shardOf entry.2.tag
  started : ∀ node call, (s.tier.replica node).calls.find call ≠ none →
    node.1 = L.shardOf call.tag

theorem routed_empty : (empty : Service L api).Routed := by
  refine ⟨?_, ?_⟩
  · intro entry asked
    cases asked
  · intro node call started
    exact absurd rfl started

theorem Routed.step (routed : s.Routed) {a : ServiceAction L} (taken : s.step heap a = some s') :
    s'.Routed := by
  refine ⟨?_, ?_⟩
  · intro entry asked
    rcases asked_step taken asked with earlier | ⟨_, _, _, _, _, tag, _, _, _, route, same⟩
    · exact routed.asked entry earlier
    · rw [same]
      exact route
  · intro node call started
    rcases started_step taken started with earlier | asked
    · exact routed.started node call earlier
    · exact routed.asked _ asked

theorem ordered_everywhere (heap : Allocator) (actions : List (ServiceAction L)) :
    EveryState (step heap) (empty : Service L api) actions fun s =>
      ∀ node, (s.tier.replica node).delivered.map Prod.fst <+: s.tier.log node.1   :=
  always (fun _ _ _ ordered taken => ordered_step ordered taken) fun _ => List.nil_prefix

theorem answers_from_order (heap : Allocator) (before after : List (ServiceAction L))
    (s₀ s : Service L api)
    (undisturbed : EveryStep (step heap) (empty : Service L api) (before ++ after)
      LoadsUndisturbed)
    (run₀ : exec (step heap) empty before = some s₀) (run : exec (step heap) s₀ after = some s)
    (node : L.Node) (call : InferenceCall) (outcome : Outcome Exn)
    (starts : (s₀.tier.replica node).calls.find call = none)
    (returned : (s.tier.replica node).calls.find call = some (.returned outcome)) :
    ∃ seen, seen <+: s.tier.log (L.shardOf call.tag) ∧
      (∀ op ret, .respond op ret ∈ s₀.history → op.tag = call.tag → op ∈ seen) ∧
      CategorizerTier.AnswersAfter api seen call.photo outcome := by
  have whole : exec (step heap) (empty : Service L api) (before ++ after) = some s := by
    rw [exec_append, run₀, Option.bind_some, run]
  have ordered := (ordered_everywhere heap (before ++ after)).last whole
  have routed : s.Routed :=
    (always (fun _ _ _ routed taken => routed.step taken) routed_empty).last whole
  have reported := (reported_everywhere heap before).last run₀
  have route : node.1 = L.shardOf call.tag := routed.started node call (by simp [returned])
  let known := (s₀.tier.replica node).delivered.map Prod.fst
  have serves : (s₀.tier.replica node).Serves :=
    (invariant (fun _ _ _ serves undisturbed taken => serves_step serves undisturbed taken)
      Replica.serves_empty (undisturbed.of_prefix (List.prefix_append _ _))).last run₀
  have starts : (s₀.tier.replica node).Explains known call := by
    refine ⟨List.Subset.refl _, ?_, ?_⟩
    · intro engine held
      cases starts.symm.trans held
    · intro outcome done
      cases starts.symm.trans done
  have explains : (s.tier.replica node).Serves ∧ (s.tier.replica node).Explains known call :=
    (invariant
      (P := fun s => (s.tier.replica node).Serves ∧ (s.tier.replica node).Explains known call)
      (fun _ _ _ ⟨serves, explains⟩ undisturbed taken =>
        ⟨serves_step serves undisturbed taken, explains_step serves explains taken⟩)
      ⟨serves, starts⟩ (undisturbed.of_append run₀)).last run
  obtain ⟨seen, isPrefix, covers, answered⟩ := explains.2.returned outcome returned
  refine ⟨seen, ?_, ?_, answered⟩
  · rw [← route]
    exact isPrefix.trans (ordered node)
  · intro op ret responded same
    obtain ⟨code, replied, -⟩ := reported.responded op ret responded
    exact covers (mem_map_fst_of_lookup (replied node (by rw [route, same])))

end Service
end SospDemo
