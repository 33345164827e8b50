import SospDemo.Service.Steps

/-!
# Installs and removes are linearizable

The orders of the shards are one order cut by shard: the order of the `ordered_send`s. A call
takes effect where it enters it, and what the replicas reply, each at its own pace, is what a
single map answers in that order.
-/

namespace SospDemo
open Linearizability
variable {Engine Exn : Type} {api : EngineApi Engine Exn} {L : ShardLayout}

theorem mem_transcript_of_shard {order : List OrderedCall} {call : OrderedCall} {code : Int}
    (mem : (call, code) ∈ modelStore.toObject.transcript
      (order.filter fun other => L.shardOf other.tag = L.shardOf call.tag)) :
    (call, code) ∈ modelStore.toObject.transcript order := by
  obtain ⟨before, later, split, answered⟩ := SequentialObject.mem_transcript _ |>.mp mem
  obtain ⟨front, back, rfl, rfl, filtered⟩ := List.filter_eq_append_iff.mp split
  obtain ⟨skipped, rest, rfl, none_kept, -, rfl⟩ := List.filter_eq_cons_iff.mp filtered
  refine SequentialObject.mem_transcript _ |>.mpr ⟨front ++ skipped, rest, by simp, ?_⟩
  have same : (front ++ skipped).filter (fun other => L.shardOf other.tag = L.shardOf call.tag) =
      front.filter fun other => L.shardOf other.tag = L.shardOf call.tag := by
    rw [List.filter_append, List.filter_eq_nil_iff.mpr none_kept, List.append_nil]
  rw [← answered, ← same]
  refine (KeyedMachine.answer_filter modelStore _ _ call fun other eq => ?_).symm
  rw [modelStore_key, modelStore_key] at eq
  simp [eq]

theorem mapM_eq_some {α β : Type} {f : α → Option β} {xs : List α} {ys : List β}
    (mapped : xs.mapM f = some ys) :
    ys.length = xs.length ∧ ∀ y ∈ ys, ∃ x ∈ xs, f x = some y := by
  induction xs generalizing ys with
  | nil =>
      obtain rfl := Option.some.inj mapped
      simp
  | cons x xs ih =>
      rw [List.mapM_cons] at mapped
      obtain ⟨y, first, rest⟩ := Option.bind_eq_some_iff.mp mapped
      obtain ⟨ys', later, same⟩ := Option.bind_eq_some_iff.mp rest
      obtain rfl := Option.some.inj same
      obtain ⟨length, all⟩ := ih later
      refine ⟨congrArg Nat.succ length, fun other mem => ?_⟩
      rcases List.mem_cons.mp mem with rfl | mem
      · exact ⟨x, List.mem_cons_self .., first⟩
      · obtain ⟨x', mem', found⟩ := all other mem
        exact ⟨x', List.mem_cons_of_mem _ mem', found⟩

theorem Tier.AllFollow.collected {t : Tier L api} (all : t.AllFollow) {shard : L.Shard}
    (nodup : (t.log shard).Nodup) {call : OrderedCall} {replies : List Int}
    (replied : t.replies shard call = some replies) :
    (call, CategorizerTier.collectReplies replies) ∈
      modelStore.toObject.transcript (t.log shard) := by
  obtain ⟨length, answered⟩ := mapM_eq_some replied
  have inTranscript : ∀ reply ∈ replies,
      (call, reply) ∈ modelStore.toObject.transcript (t.log shard) := by
    intro reply mem
    obtain ⟨node, member, found⟩ := answered reply mem
    obtain ⟨before, after, split, -⟩ := List.lookup_eq_some_iff.mp found
    have delivered : (call, reply) ∈ (t.replica node).delivered := by simp [split]
    rw [← ShardLayout.mem_members.mp member]
    exact (all.delivered_prefix node).subset delivered
  rw [ShardLayout.length_members] at length
  obtain ⟨code, some_reply⟩ := List.exists_mem_of_length_pos (length ▸ L.replicas_pos shard)
  have same : replies = List.replicate (L.replicas shard) code := by
    refine List.eq_replicate_iff.mpr ⟨length, fun reply mem => ?_⟩
    exact SequentialObject.transcript_unique _ nodup (inTranscript reply mem)
      (inTranscript code some_reply)
  rw [same, CategorizerTier.collectReplies_replicate code (L.replicas_pos shard)]
  exact inTranscript code some_reply

def ServiceAction.Asks : ServiceAction L → Prop
  | .whatsthis .. => True
  | _ => False

namespace Service

structure Tracks (s : Service L api) (order : List OrderedCall) : Prop where
  commits : Commits modelStore.toObject s.history order
  follow : s.tier.AllFollow
  logs : ∀ shard, s.tier.log shard = order.filter fun call => L.shardOf call.tag = shard
  sent : ∀ node call, (node, call) ∈ s.inFlight →
    node.1 = L.shardOf call.tag ∧ .invoke call ∈ s.history ∧ call ∉ order
  distinct : (s.inFlight.map Prod.snd).Nodup
  awaited : ∀ node call, (node, call) ∈ s.awaiting → node.1 = L.shardOf call.tag
  returned : ∀ shard call ret, (s.tier.returned shard).find call = some ret →
    (call, ret) ∈ modelStore.toObject.transcript (s.tier.log shard)
  unasked : s.asked = []
  idle : ∀ node, (s.tier.replica node).calls = .empty

theorem tracks_empty : (empty : Service L api).Tracks [] where
  commits := .nil
  follow := Tier.allFollow_empty
  logs _ := rfl
  sent := nofun
  distinct := List.nodup_nil
  awaited := nofun
  returned := nofun
  unasked := rfl
  idle _ := rfl

variable {heap : Allocator} {s s' : Service L api} {order : List OrderedCall}

theorem Tracks.send (tracks : s.Tracks order) {node : L.Node} {call : OrderedCall}
    (routed : node.1 = L.shardOf call.tag) (sent : s.send node call = some s') :
    s'.Tracks order := by
  obtain ⟨fresh, rfl⟩ := send_eq_some.mp sent
  have new : call ∉ order := fun mem =>
    fresh (tracks.commits.isLinearization.invoked call mem)
  refine { tracks with commits := .invoke call tracks.commits fresh, sent := ?_, distinct := ?_ }
  · intro other sentCall mem
    rcases List.mem_append.mp mem with mem | mem
    · obtain ⟨shard, invoked, pending⟩ := tracks.sent other sentCall mem
      exact ⟨shard, List.mem_append_left _ invoked, pending⟩
    · obtain ⟨rfl, rfl⟩ := Prod.mk.inj (List.mem_singleton.mp mem)
      exact ⟨routed, by simp, new⟩
  · rw [List.map_append]
    refine tracks.distinct.append (List.nodup_singleton _) ?_
    simp only [List.map_cons, List.map_nil, List.disjoint_singleton, List.mem_map, Prod.exists,
      exists_eq_right, not_exists]
    exact fun other mem => fresh (tracks.sent other call mem).2.1

theorem Tracks.commit (tracks : s.Tracks order) {node : L.Node} {call : OrderedCall}
    (taken : s.step heap (.order node call) = some s') : s'.Tracks (order ++ [call]) := by
  obtain ⟨sent, tier, stepped, rfl⟩ := step_order.mp taken
  have follow := tracks.follow.step (a := .order node.1 call) trivial stepped
  obtain ⟨-, rfl⟩ := Tier.step_order.mp stepped
  obtain ⟨routed, invoked, pending⟩ := tracks.sent node call sent
  refine { tracks with
    commits := .commit call tracks.commits invoked pending
    follow, logs := ?_, sent := ?_, distinct := ?_, awaited := ?_, returned := ?_ }
  · intro shard
    rw [List.filter_append, ← tracks.logs shard]
    by_cases same : node.1 = shard
    · subst same
      simp [routed]
    · have other : ¬ L.shardOf call.tag = shard := fun eq => same (routed.trans eq)
      simp [Function.update_of_ne (Ne.symm same), other]
  · intro other later mem
    obtain ⟨shard, known, unordered⟩ := tracks.sent other later (List.mem_of_mem_erase mem)
    refine ⟨shard, known, ?_⟩
    rw [List.mem_append, List.mem_singleton, not_or]
    refine ⟨unordered, ?_⟩
    rintro rfl
    -- a call is sent once, so no second copy of it is left
    have only := List.inj_on_of_nodup_map tracks.distinct (List.mem_of_mem_erase mem) sent rfl
    exact (tracks.distinct.of_map _).not_mem_erase (only ▸ mem)
  · exact tracks.distinct.sublist (List.erase_sublist.map _)
  · intro other awaited mem
    rcases List.mem_append.mp mem with mem | mem
    · exact tracks.awaited other awaited mem
    · obtain ⟨rfl, rfl⟩ := Prod.mk.inj (List.mem_singleton.mp mem)
      exact routed
  · intro shard other ret found
    refine (SequentialObject.transcript_prefix _ ?_).subset (tracks.returned shard other ret found)
    simp only [Function.update_apply]
    split
    · rename_i same
      exact same ▸ List.prefix_append _ _
    · exact List.prefix_rfl

theorem Tracks.serve (tracks : s.Tracks order) {node : L.Node} {action : ReplicaAction}
    (taken : s.step heap (.serve node action) = some s') : s'.Tracks order := by
  obtain ⟨served, tier, stepped, rfl⟩ := step_serve.mp taken
  cases action with
  | deliver call =>
      have follow := tracks.follow.step (a := .serve node (.deliver call)) trivial stepped
      obtain ⟨-, r, delivered, rfl⟩ := Tier.step_serve.mp stepped
      refine { tracks with follow, idle := fun other => ?_ }
      simp only [Function.update_apply]
      split
      · obtain rfl := Replica.step_deliver.mp delivered
        exact tracks.idle node
      · exact tracks.idle other
  | lookup call =>
      have asked : (node, call) ∈ s.asked := of_decide_eq_true served
      rw [tracks.unasked] at asked
      cases asked
  | build call =>
      obtain ⟨-, r, built, -⟩ := Tier.step_serve.mp stepped
      obtain ⟨missed, -⟩ := Replica.step_build.mp built
      rw [tracks.idle node] at missed
      cases missed
  | store call =>
      obtain ⟨-, r, stored, -⟩ := Tier.step_serve.mp stepped
      obtain ⟨engine, holds, -⟩ := Replica.step_store.mp stored
      rw [tracks.idle node] at holds
      cases holds

theorem Tracks.collect (tracks : s.Tracks order) {shard : L.Shard} {call : OrderedCall}
    (taken : s.step heap (.collect shard call) = some s') : s'.Tracks order := by
  obtain ⟨tier, stepped, rfl⟩ := step_collect.mp taken
  have follow := tracks.follow.step (a := .collect shard call) trivial stepped
  obtain ⟨replies, replied, rfl⟩ := Tier.step_collect.mp stepped
  refine { tracks with follow, returned := fun other earlier ret found => ?_ }
  have nodup : (s.tier.log shard).Nodup := by
    rw [tracks.logs shard]
    exact tracks.commits.isLinearization.nodup.filter _
  simp only [Function.update_apply] at found
  split at found
  · rename_i same
    subst same
    rw [StdMap.find_assign] at found
    split at found
    · rename_i same
      subst same
      obtain rfl := Option.some.inj found
      exact tracks.follow.collected nodup replied
    · exact tracks.returned other earlier ret found
  · exact tracks.returned other earlier ret found

theorem Tracks.respond (tracks : s.Tracks order) {node : L.Node} {call : OrderedCall}
    (taken : s.step heap (.respond node call) = some s') : s'.Tracks order := by
  obtain ⟨awaited, ret, found, rfl⟩ := step_respond.mp taken
  have answered := tracks.returned node.1 call ret found
  rw [tracks.logs, tracks.awaited node call awaited] at answered
  refine { tracks with
    commits := .respond call ret tracks.commits (mem_transcript_of_shard answered)
    sent := fun other later mem => ?_
    awaited := fun other later mem => tracks.awaited other later (List.mem_of_mem_erase mem) }
  obtain ⟨shard, invoked, pending⟩ := tracks.sent other later mem
  exact ⟨shard, List.mem_append_left _ invoked, pending⟩

theorem Tracks.step (tracks : s.Tracks order) {a : ServiceAction L} (quiet : ¬ a.Asks)
    (taken : s.step heap a = some s') : ∃ order, s'.Tracks order := by
  cases a with
  | installModel id pick stream =>
      rcases step_installModel taken with rfl | ⟨m, chunks, node, -, routed, sent⟩
      · exact ⟨order, tracks⟩
      · exact ⟨order, tracks.send routed sent⟩
  | removeModel id pick tag =>
      rcases step_removeModel taken with rfl | ⟨node, routed, sent⟩
      · exact ⟨order, tracks⟩
      · exact ⟨order, tracks.send routed sent⟩
  | whatsthis => exact absurd trivial quiet
  | order node call => exact ⟨_, tracks.commit taken⟩
  | serve node action => exact ⟨order, tracks.serve taken⟩
  | collect shard call => exact ⟨order, tracks.collect taken⟩
  | respond node call => exact ⟨order, tracks.respond taken⟩

end Service

/-! ## Successful calls on one tag take turns -/

def OrderedOp.installs : OrderedOp → Bool
  | .orderedInstallModel .. => true
  | .orderedRemoveModel _ => false

theorem OrderedOp.act_code (op : OrderedOp) (entry : Option Model) :
    (op.act entry).1 = 0 ↔ op.installs ≠ entry.isSome := by
  cases op <;> cases entry <;> simp [act, installs]

theorem OrderedOp.act_entry (op : OrderedOp) (entry : Option Model) :
    (op.act entry).2.isSome = if (op.act entry).1 = 0 then op.installs else entry.isSome := by
  cases op <;> cases entry <;> simp [act, installs]

structure Alternates (calls : List OrderedCall) : Prop where
  turns : calls.IsChain fun call next => call.op.installs ≠ next.op.installs
  first : ∀ call ∈ calls.head?, call.op.installs

def lastInstalls (calls : List OrderedCall) : Bool := calls.getLast?.any fun call => call.op.installs

theorem Alternates.concat {calls : List OrderedCall} (alternates : Alternates calls)
    {call : OrderedCall} (turn : call.op.installs ≠ lastInstalls calls) :
    Alternates (calls ++ [call]) := by
  obtain ⟨turns, first⟩ := alternates
  refine ⟨List.isChain_append.mpr ⟨turns, List.isChain_singleton _, ?_⟩, ?_⟩
  · intro last isLast next isNext
    obtain rfl := Option.some.inj isNext
    rw [lastInstalls, isLast] at turn
    exact turn.symm
  · cases calls with
    | nil =>
        intro other isFirst
        obtain rfl := Option.some.inj isFirst
        exact Bool.eq_true_of_not_eq_false turn
    | cons other rest => exact first

def successes (tag : UInt32) (order : List OrderedCall) : List OrderedCall :=
  ((modelStore.toObject.transcript order).filter fun entry =>
    entry.1.tag = tag ∧ entry.2 = 0).map Prod.fst

theorem successes_concat (tag : UInt32) (order : List OrderedCall) (call : OrderedCall) :
    successes tag (order ++ [call]) = successes tag order ++
      if call.tag = tag ∧ modelStore.toObject.answer order call = 0 then [call] else [] := by
  rw [successes, SequentialObject.transcript_concat, List.filter_append, List.map_append, successes]
  congr 1
  by_cases succeeds : call.tag = tag ∧ modelStore.toObject.answer order call = 0
  · rw [if_pos succeeds, List.filter_cons_of_pos (by simpa using succeeds)]
    rfl
  · rw [if_neg succeeds, List.filter_cons_of_neg (by simpa using succeeds)]
    rfl

theorem successes_alternate (tag : UInt32) (order : List OrderedCall) :
    Alternates (successes tag order) ∧
      ((modelStore.toObject.after order).find tag).isSome = lastInstalls (successes tag order) := by
  induction order using List.reverseRecOn with
  | nil => exact ⟨⟨List.isChain_nil, by simp [successes]⟩, rfl⟩
  | append_singleton order call ih =>
      obtain ⟨alternates, last⟩ := ih
      have answer : modelStore.toObject.answer order call =
          (call.op.act ((modelStore.toObject.after order).find call.tag)).1 := rfl
      rw [successes_concat, SequentialObject.after_concat, KeyedMachine.toObject_apply,
        StdMap.find_put, modelStore_key, modelStore_act, answer]
      by_cases same : call.tag = tag
      · subst same
        rw [if_pos rfl, OrderedOp.act_entry]
        by_cases ok : (call.op.act ((modelStore.toObject.after order).find call.tag)).1 = 0
        · rw [if_pos ok, if_pos ⟨rfl, ok⟩]
          have turn := (OrderedOp.act_code _ _).mp ok
          rw [last] at turn
          exact ⟨alternates.concat turn, by simp [lastInstalls]⟩
        · rw [if_neg ok, if_neg fun both => ok both.2, List.append_nil]
          exact ⟨alternates, last⟩
      · rw [if_neg (Ne.symm same), if_neg fun both => same both.1, List.append_nil]
        exact ⟨alternates, last⟩

theorem successes_of_complete {history : History OrderedCall Int} {order : List OrderedCall}
    (linearization : IsLinearization modelStore.toObject history order)
    (complete : ∀ call, .invoke call ∈ history → ∃ ret, .respond call ret ∈ history)
    (tag : UInt32) :
    (order.filter fun call => call.tag = tag ∧ .respond call 0 ∈ history) =
      successes tag order := by
  rw [successes]
  conv_lhs => rw [← modelStore.toObject.map_fst_transcript order]
  rw [List.filter_map]
  congr 1
  refine List.filter_congr fun entry mem => ?_
  obtain ⟨call, code⟩ := entry
  have seen : .respond call 0 ∈ history ↔ code = 0 := by
    constructor
    · intro responded
      exact SequentialObject.transcript_unique _ linearization.nodup mem
        (linearization.answered call 0 responded)
    · rintro rfl
      obtain ⟨ret, responded⟩ :=
        complete call (linearization.invoked call (fst_mem_of_mem_transcript mem))
      have same := SequentialObject.transcript_unique _ linearization.nodup mem
        (linearization.answered call ret responded)
      rwa [same]
  simp [seen]

namespace Service

theorem installs_and_removes_linearizable (heap : Allocator) (actions : List (ServiceAction L))
    (quiet : ∀ a ∈ actions, ¬ a.Asks) (s : Service L api)
    (run : Runs.exec (step heap) empty actions = some s) :
    ∃ order, IsLinearization modelStore.toObject s.history order ∧
      ((∀ call, .invoke call ∈ s.history → ∃ ret, .respond call ret ∈ s.history) →
        ∀ tag, Alternates
          (order.filter fun call => call.tag = tag ∧ .respond call 0 ∈ s.history)) := by
  have tracked : Runs.EveryState (step heap) (empty : Service L api) actions
      fun s => ∃ order, s.Tracks order :=
    Runs.invariant (C := fun _ a => ¬ a.Asks)
      (fun s a s' ⟨order, tracks⟩ quiet taken => tracks.step quiet taken) ⟨[], tracks_empty⟩
      (fun before a s isPrefix _ => quiet a (isPrefix.subset (by simp)))
  obtain ⟨order, tracks⟩ := tracked.last run
  have linearization := tracks.commits.isLinearization
  refine ⟨order, linearization, fun complete tag => ?_⟩
  rw [successes_of_complete linearization complete]
  exact (successes_alternate tag order).1

open ShardLayout in
def raceRun : List (ServiceAction pair) :=
  let call (id : Nat) : OrderedCall := ⟨id, .orderedInstallModel 7 1 1 0 ⟨[97, 98]⟩⟩
  let upload (id pick : Nat) : ServiceAction pair :=
    .installModel id pick [.metadata ⟨7, 1, 1, 0⟩, .fileData [97, 98]]
  [upload 0 0, upload 1 1, .order secondNode (call 1), .order firstNode (call 0),
    .serve firstNode (.deliver (call 1)), .serve firstNode (.deliver (call 0)),
    .serve secondNode (.deliver (call 1)), .collect pairShard (call 1),
    .serve secondNode (.deliver (call 0)), .collect pairShard (call 0),
    .respond firstNode (call 0), .respond secondNode (call 1)]

theorem raceRun_linearizable : ∃ (s : Service ShardLayout.pair sampleApi) (order : List OrderedCall),
    Runs.exec (step .zeros) empty raceRun = some s ∧
      s.history.filterMap (fun
        | .respond call ret => some (call.id, ret)
        | .invoke _ => none) = [(0, -1), (1, 0)] ∧
      IsLinearization modelStore.toObject s.history order := by
  obtain ⟨order, linearization, -⟩ := installs_and_removes_linearizable .zeros raceRun
    (by simp [raceRun, ServiceAction.Asks]) (_ : Service ShardLayout.pair sampleApi) rfl
  exact ⟨_, order, rfl, rfl, linearization⟩

end Service
end SospDemo
