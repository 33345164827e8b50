import SospDemo.Service.Inferences

namespace SospDemo
open Linearizability Runs
variable {Engine Exn : Type} {api : EngineApi Engine Exn} {L : ShardLayout}

theorem mem_map_fst_of_lookup {α β : Type*} [BEq α] [LawfulBEq α] {entries : List (α × β)} {x : α}
    {y : β} (found : entries.lookup x = some y) : x ∈ entries.map Prod.fst := by
  obtain ⟨before, after, rfl, -⟩ := List.lookup_eq_some_iff.mp found
  simp

theorem lookup_isSome {α β : Type*} [BEq α] [LawfulBEq α] {entries : List (α × β)} {x : α}
    (mem : x ∈ entries.map Prod.fst) : ∃ y, entries.lookup x = some y := by
  induction entries with
  | nil => cases mem
  | cons entry rest ih =>
      obtain ⟨k, v⟩ := entry
      by_cases same : x = k
      · exact ⟨v, by simp [same]⟩
      · rw [List.map_cons, List.mem_cons] at mem
        obtain ⟨y, found⟩ := ih (mem.resolve_left same)
        exact ⟨y, by rw [List.lookup_cons, beq_false_of_ne same]; exact found⟩

namespace CategorizerTier

theorem collectReplies_concat (replies : List Int) (reply : Int) :
    collectReplies (replies ++ [reply]) = if reply ≠ 0 then reply else collectReplies replies := by
  simp only [collectReplies, List.foldl_append, List.foldl_cons, List.foldl_nil]

theorem collectReplies_eq_zero {replies : List Int} :
    collectReplies replies = 0 ↔ ∀ reply ∈ replies, reply = 0 := by
  induction replies using List.reverseRecOn with
  | nil => simp [collectReplies]
  | append_singleton replies reply ih =>
      rw [collectReplies_concat, List.forall_mem_append, ← ih]
      by_cases zero : reply = 0 <;> simp [zero]

theorem collectReplies_mem {replies : List Int} (failed : collectReplies replies ≠ 0) :
    collectReplies replies ∈ replies := by
  induction replies using List.reverseRecOn with
  | nil => exact absurd rfl failed
  | append_singleton replies reply ih =>
      rw [collectReplies_concat] at failed ⊢
      split
      · exact List.mem_append_right _ (List.mem_singleton_self _)
      · rename_i zero
        rw [if_neg zero] at failed
        exact List.mem_append_left _ (ih failed)

end CategorizerTier

theorem mem_of_mapM {α β : Type} {f : α → Option β} {xs : List α} {ys : List β}
    (mapped : xs.mapM f = some ys) : ∀ x ∈ xs, ∃ y ∈ ys, f x = some y := by
  induction xs generalizing ys with
  | nil => exact fun x mem => absurd mem List.not_mem_nil
  | cons x xs ih =>
      rw [List.mapM_cons] at mapped
      obtain ⟨y, first, rest⟩ := Option.bind_eq_some_iff.mp mapped
      obtain ⟨ys', later, same⟩ := Option.bind_eq_some_iff.mp rest
      obtain rfl := Option.some.inj same
      refine List.forall_mem_cons.mpr ⟨⟨y, List.mem_cons_self, first⟩, fun other mem => ?_⟩
      obtain ⟨z, found, answer⟩ := ih later other mem
      exact ⟨z, List.mem_cons_of_mem _ found, answer⟩

namespace Tier

def Reported (t : Tier L api) (shard : L.Shard) (call : OrderedCall) (ret : Int) : Prop :=
  ∃ code : L.Node → Int,
    (∀ node, node.1 = shard → (t.replica node).delivered.lookup call = some (code node)) ∧
    (ret = 0 ↔ ∀ node, node.1 = shard → code node = 0) ∧
    (ret ≠ 0 → ∃ node, node.1 = shard ∧ code node = ret)

variable {t t' : Tier L api} {a : TierAction L}

theorem reported_of_replies {shard : L.Shard} {call : OrderedCall} {replies : List Int}
    (replied : t.replies shard call = some replies) :
    t.Reported shard call (CategorizerTier.collectReplies replies) := by
  have answers := mem_of_mapM replied
  obtain ⟨-, sources⟩ := mapM_eq_some replied
  let code (node : L.Node) : Int := ((t.replica node).delivered.lookup call).getD 0
  have codes : ∀ node, node.1 = shard →
      (t.replica node).delivered.lookup call = some (code node) ∧ code node ∈ replies := by
    intro node member
    obtain ⟨reply, mem, found⟩ := answers node (ShardLayout.mem_members.mpr member)
    have same : code node = reply := by simp [code, found]
    exact ⟨by rw [found, same], same ▸ mem⟩
  have source : ∀ reply ∈ replies, ∃ node, node.1 = shard ∧ code node = reply := by
    intro reply mem
    obtain ⟨node, member, found⟩ := sources reply mem
    exact ⟨node, ShardLayout.mem_members.mp member, by simp [code, found]⟩
  refine ⟨code, fun node member => (codes node member).1, ?_, ?_⟩
  · rw [CategorizerTier.collectReplies_eq_zero]
    constructor
    · exact fun zero node member => zero _ (codes node member).2
    · intro zero reply mem
      obtain ⟨node, member, rfl⟩ := source reply mem
      exact zero node member
  · exact fun failed => source _ (CategorizerTier.collectReplies_mem failed)

theorem lookup_append {α β : Type*} [BEq α] {xs : List (α × β)} (ys : List (α × β)) {x : α} {y : β}
    (found : xs.lookup x = some y) : (xs ++ ys).lookup x = some y := by
  rw [List.lookup_append, found]
  rfl

theorem lookup_step (taken : t.step a = some t') {node : L.Node} {call : OrderedCall} {code : Int}
    (found : (t.replica node).delivered.lookup call = some code) :
    (t'.replica node).delivered.lookup call = some code := by
  cases a with
  | order shard other =>
      obtain ⟨-, rfl⟩ := step_order.mp taken
      exact found
  | serve other action =>
      obtain ⟨-, r, stepped, rfl⟩ := step_serve.mp taken
      by_cases here : node = other
      · subst here
        simp only [Function.update_self]
        cases action with
        | deliver ordered =>
            obtain rfl := Replica.step_deliver.mp stepped
            exact lookup_append _ found
        | lookup asked =>
            obtain ⟨-, rfl⟩ := Replica.step_lookup.mp stepped
            exact found
        | build asked =>
            obtain ⟨-, rfl⟩ := Replica.step_build.mp stepped
            exact found
        | store asked =>
            obtain ⟨engine, -, rfl⟩ := Replica.step_store.mp stepped
            exact found
      · simpa only [Function.update_of_ne here] using found
  | collect shard other =>
      obtain ⟨replies, -, rfl⟩ := step_collect.mp taken
      exact found

theorem Reported.step {shard : L.Shard} {call : OrderedCall} {ret : Int}
    (reported : t.Reported shard call ret) (taken : t.step a = some t') :
    t'.Reported shard call ret := by
  obtain ⟨code, replied, sum⟩ := reported
  exact ⟨code, fun node member => lookup_step taken (replied node member), sum⟩

def Collected (t : Tier L api) : Prop :=
  ∀ shard call ret, (t.returned shard).find call = some ret → t.Reported shard call ret

theorem Collected.step (collected : t.Collected) (taken : t.step a = some t') :
    t'.Collected := by
  intro shard call ret found
  refine Reported.step (a := a) ?_ taken
  cases a with
  | order other ordered =>
      obtain ⟨-, rfl⟩ := step_order.mp taken
      exact collected shard call ret found
  | serve other action =>
      obtain ⟨-, r, -, rfl⟩ := step_serve.mp taken
      exact collected shard call ret found
  | collect other now =>
      obtain ⟨replies, replied, rfl⟩ := step_collect.mp taken
      simp only [Function.update_apply] at found
      split at found
      · rename_i same
        subst same
        rw [StdMap.find_assign] at found
        split at found
        · rename_i same
          subst same
          obtain rfl := Option.some.inj found
          exact reported_of_replies replied
        · exact collected shard call ret found
      · exact collected shard call ret found

end Tier

namespace Service
variable {heap : Allocator} {s s' : Service L api}

structure ReportedEverywhere (s : Service L api) : Prop where
  routed : ∀ node call, (node, call) ∈ s.inFlight ∨ (node, call) ∈ s.awaiting →
    node.1 = L.shardOf call.tag
  collected : s.tier.Collected
  responded : ∀ call ret, .respond call ret ∈ s.history →
    s.tier.Reported (L.shardOf call.tag) call ret

theorem reportedEverywhere_empty : (empty : Service L api).ReportedEverywhere := by
  refine ⟨?_, ?_, ?_⟩
  · rintro node call (sent | awaited)
    · cases sent
    · cases awaited
  · intro shard call ret found
    cases found
  · intro call ret responded
    cases responded

theorem routed_send {node : L.Node} {call : OrderedCall} (route : node.1 = L.shardOf call.tag)
    (sent : s.send node call = some s')
    (routed : ∀ node call, (node, call) ∈ s.inFlight ∨ (node, call) ∈ s.awaiting →
      node.1 = L.shardOf call.tag) (other : L.Node) (later : OrderedCall)
    (mem : (other, later) ∈ s'.inFlight ∨ (other, later) ∈ s'.awaiting) :
    other.1 = L.shardOf later.tag := by
  obtain ⟨-, rfl⟩ := send_eq_some.mp sent
  rcases mem with mem | mem
  · rcases List.mem_append.mp mem with mem | mem
    · exact routed other later (.inl mem)
    · obtain ⟨rfl, rfl⟩ := Prod.mk.inj (List.mem_singleton.mp mem)
      exact route
  · exact routed other later (.inr mem)

theorem routed_step {a : ServiceAction L} (taken : s.step heap a = some s')
    (routed : ∀ node call, (node, call) ∈ s.inFlight ∨ (node, call) ∈ s.awaiting →
      node.1 = L.shardOf call.tag) :
    ∀ node call, (node, call) ∈ s'.inFlight ∨ (node, call) ∈ s'.awaiting →
      node.1 = L.shardOf call.tag := by
  cases a with
  | installModel id pick stream =>
      rcases step_installModel taken with rfl | ⟨m, chunks, node, -, route, sent⟩
      · exact routed
      · exact routed_send route sent routed
  | removeModel id pick tag =>
      rcases step_removeModel taken with rfl | ⟨node, route, sent⟩
      · exact routed
      · exact routed_send route sent routed
  | whatsthis id pick stream =>
      rcases step_whatsthis taken with rfl | ⟨node, m, chunks, tag, -, -, -, rfl⟩ <;> exact routed
  | order node call =>
      obtain ⟨sent, tier, -, rfl⟩ := step_order.mp taken
      rintro other later (mem | mem)
      · exact routed other later (.inl (List.mem_of_mem_erase mem))
      · rcases List.mem_append.mp mem with mem | mem
        · exact routed other later (.inr mem)
        · obtain ⟨rfl, rfl⟩ := Prod.mk.inj (List.mem_singleton.mp mem)
          exact routed other later (.inl sent)
  | serve node action =>
      obtain ⟨-, tier, -, rfl⟩ := step_serve.mp taken
      exact routed
  | collect shard call =>
      obtain ⟨tier, -, rfl⟩ := step_collect.mp taken
      exact routed
  | respond node call =>
      obtain ⟨-, ret, -, rfl⟩ := step_respond.mp taken
      exact fun other later mem => routed other later (mem.imp_right List.mem_of_mem_erase)

theorem respond_step {a : ServiceAction L} (taken : s.step heap a = some s') {call : OrderedCall}
    {ret : Int} (responded : .respond call ret ∈ s'.history) :
    .respond call ret ∈ s.history ∨
      ∃ node, (node, call) ∈ s.awaiting ∧ (s.tier.returned node.1).find call = some ret := by
  have kept : ∀ {node : L.Node} {sent : OrderedCall}, s.send node sent = some s' →
      .respond call ret ∈ s.history := by
    intro node sent invoked
    obtain ⟨-, rfl⟩ := send_eq_some.mp invoked
    simpa using responded
  cases a with
  | installModel id pick stream =>
      rcases step_installModel taken with rfl | ⟨m, chunks, node, -, -, sent⟩
      · exact .inl responded
      · exact .inl (kept sent)
  | removeModel id pick tag =>
      rcases step_removeModel taken with rfl | ⟨node, -, sent⟩
      · exact .inl responded
      · exact .inl (kept sent)
  | whatsthis id pick stream =>
      rcases step_whatsthis taken with rfl | ⟨node, m, chunks, tag, -, -, -, rfl⟩ <;> exact .inl responded
  | order node ordered =>
      obtain ⟨-, tier, -, rfl⟩ := step_order.mp taken
      exact .inl responded
  | serve node action =>
      obtain ⟨-, tier, -, rfl⟩ := step_serve.mp taken
      exact .inl responded
  | collect shard now =>
      obtain ⟨tier, -, rfl⟩ := step_collect.mp taken
      exact .inl responded
  | respond node now =>
      obtain ⟨awaited, code, found, rfl⟩ := step_respond.mp taken
      rcases List.mem_append.mp responded with responded | responded
      · exact .inl responded
      · obtain ⟨rfl, rfl⟩ := Event.respond.inj (List.mem_singleton.mp responded)
        exact .inr ⟨node, awaited, found⟩

theorem reported_step {a : ServiceAction L} (taken : s.step heap a = some s') {shard : L.Shard}
    {call : OrderedCall} {ret : Int} (reported : s.tier.Reported shard call ret) :
    s'.tier.Reported shard call ret := by
  rcases tier_step taken with same | ⟨action, stepped⟩
  · rwa [same]
  · exact reported.step stepped

theorem ReportedEverywhere.step (reported : s.ReportedEverywhere) {a : ServiceAction L}
    (taken : s.step heap a = some s') : s'.ReportedEverywhere := by
  obtain ⟨routed, collected, responded⟩ := reported
  refine ⟨routed_step taken routed, ?_, ?_⟩
  · rcases tier_step taken with same | ⟨action, stepped⟩
    · rwa [same]
    · exact collected.step stepped
  · intro call ret answered
    apply reported_step taken
    rcases respond_step taken answered with earlier | ⟨contacted, awaited, found⟩
    · exact responded call ret earlier
    · rw [← routed contacted call (.inr awaited)]
      exact collected contacted.1 call ret found

theorem reported_everywhere (heap : Allocator) (actions : List (ServiceAction L)) :
    EveryState (step heap) (empty : Service L api) actions ReportedEverywhere :=
  always (fun _ _ _ reported taken => reported.step taken) reportedEverywhere_empty

theorem replies_report_all_replicas (heap : Allocator) (actions : List (ServiceAction L)) :
    EveryState (step heap) (empty : Service L api) actions fun s =>
      ∀ call ret, .respond call ret ∈ s.history →
        s.tier.Reported (L.shardOf call.tag) call ret :=
  (reported_everywhere heap actions).mono fun _ reported => reported.responded

end Service
end SospDemo
