import SospDemo.Tier.Steps

namespace SospDemo
variable {Engine Exn : Type} {api : EngineApi Engine Exn}

namespace CategorizerTier

def only (tag : UInt32) (t : CategorizerTier api) : CategorizerTier api :=
  ⟨t.rawModels.restrict (· = tag), t.inferenceEngines.restrict (· = tag)⟩

variable (t : CategorizerTier api) (tag : UInt32)

@[simp] theorem only_rawModels_find : (t.only tag).rawModels.find tag = t.rawModels.find tag := by
  simp [only]

@[simp] theorem only_inferenceEngines_find :
    (t.only tag).inferenceEngines.find tag = t.inferenceEngines.find tag := by
  simp [only]

theorem only_perform (op : OrderedOp) (same : op.tag = tag) :
    (t.only tag).perform op = ((t.perform op).1, (t.perform op).2.only tag) := by
  subst same
  rw [perform_eq, perform_eq]
  simp only [only_rawModels_find]
  congr 1
  ext1
  · simp [only, StdMap.restrict_put]
  · split <;> simp [only, StdMap.restrict_erase]

theorem perform_only_of_ne (op : OrderedOp) (other : op.tag ≠ tag) :
    (t.perform op).2.only tag = t.only tag := by
  rw [perform_eq]
  ext1
  · simp [only, StdMap.restrict_put, other]
  · dsimp only [only]
    split <;> simp [StdMap.restrict_erase, other]

variable (photo : Photo)

theorem only_lookup (same : photo.tag = tag) : (t.only tag).lookup photo = t.lookup photo := by
  subst same
  simp [lookup]

theorem only_build (same : photo.tag = tag) :
    (t.only tag).build photo = ((t.build photo).1.only tag, (t.build photo).2) := by
  subst same
  rw [build_eq, build_eq]
  simp [only, StdMap.restrict_assign]

theorem build_only_of_ne (other : photo.tag ≠ tag) :
    (t.build photo).1.only tag = t.only tag := by
  rw [build_eq]
  simp [only, StdMap.restrict_assign, other]

theorem only_store (engine : InferenceEngine api) (same : photo.tag = tag) :
    (t.only tag).store engine photo =
      ((t.store engine photo).1.only tag, (t.store engine photo).2) := by
  subst same
  simp [store, only, StdMap.restrict_assign]

theorem store_only_of_ne (engine : InferenceEngine api) (other : photo.tag ≠ tag) :
    (t.store engine photo).1.only tag = t.only tag := by
  simp [store, only, StdMap.restrict_assign, other]

end CategorizerTier

namespace Replica

def only (tag : UInt32) (r : Replica api) : Replica api :=
  ⟨r.tier.only tag, r.calls.restrict (·.tag = tag), r.delivered.filter (·.1.tag = tag)⟩

variable {r r' : Replica api} {a : ReplicaAction} {tag : UInt32}

theorem only_step (same : a.tag = tag) (taken : r.step a = some r') :
    (r.only tag).step a = some (r'.only tag) := by
  cases a with
  | deliver call =>
      obtain rfl := step_deliver.mp taken
      rw [step_deliver]
      simp [only, CategorizerTier.only_perform _ _ _ same, List.filter_append, same]
  | lookup call =>
      obtain ⟨fresh, rfl⟩ := step_lookup.mp taken
      refine step_lookup.mpr ⟨by simp [only, same, fresh], ?_⟩
      simp [only, StdMap.restrict_assign, same, CategorizerTier.only_lookup _ _ _ same]
  | build call =>
      obtain ⟨missed, rfl⟩ := step_build.mp taken
      refine step_build.mpr ⟨by simp [only, same, missed], ?_⟩
      simp [only, StdMap.restrict_assign, same, CategorizerTier.only_build _ _ _ same]
  | store call =>
      obtain ⟨engine, held, rfl⟩ := step_store.mp taken
      refine step_store.mpr ⟨engine, by simp [only, same, held], ?_⟩
      simp [only, StdMap.restrict_assign, same, CategorizerTier.only_store _ _ _ _ same]

theorem step_only_of_ne (other : a.tag ≠ tag) (taken : r.step a = some r') :
    r'.only tag = r.only tag := by
  cases a with
  | deliver call =>
      obtain rfl := step_deliver.mp taken
      simp [only, CategorizerTier.perform_only_of_ne _ _ _ other, List.filter_append, other]
  | lookup call =>
      obtain ⟨-, rfl⟩ := step_lookup.mp taken
      simp [only, StdMap.restrict_assign, other]
  | build call =>
      obtain ⟨-, rfl⟩ := step_build.mp taken
      simp [only, StdMap.restrict_assign, other, CategorizerTier.build_only_of_ne _ _ _ other]
  | store call =>
      obtain ⟨engine, -, rfl⟩ := step_store.mp taken
      simp [only, StdMap.restrict_assign, other, CategorizerTier.store_only_of_ne _ _ _ _ other]

theorem lookup_filter {α β : Type*} [DecidableEq α] (p : α → Bool) (x : α) (keeps : p x)
    (entries : List (α × β)) : (entries.filter fun e => p e.1).lookup x = entries.lookup x := by
  induction entries with
  | nil => rfl
  | cons entry rest ih =>
      obtain ⟨y, v⟩ := entry
      by_cases same : x = y
      · subst same
        simp [keeps]
      · have skips : (x == y) = false := by simpa using same
        by_cases kept : p y <;> simp [kept, List.lookup_cons, skips, ih]

end Replica

namespace Tier
variable {L : ShardLayout}

def only (tag : UInt32) (t : Tier L api) : Tier L api :=
  ⟨fun shard => (t.log shard).filter (·.tag = tag), fun node => (t.replica node).only tag,
    fun shard => (t.returned shard).restrict (·.tag = tag)⟩

theorem only_empty (tag : UInt32) : (empty : Tier L api).only tag = empty := by
  simp [only, empty, Replica.only, Replica.empty, CategorizerTier.only, CategorizerTier.empty]

variable {t t' : Tier L api} {a : TierAction L} {tag : UInt32}

theorem allows_only {log : List OrderedCall} {r : Replica api} {action : ReplicaAction}
    (same : action.tag = tag) (allowed : allows log r action) :
    allows (log.filter (·.tag = tag)) (r.only tag) action := by
  cases action with
  | deliver call =>
      have isPrefix := (List.isPrefixOf_iff_prefix.mp allowed).filter (·.tag = tag)
      rw [List.filter_append, List.filter_map] at isPrefix
      refine List.isPrefixOf_iff_prefix.mpr ?_
      simpa [Replica.only, same, Function.comp_def] using isPrefix
  | _ => rfl

theorem replies_only (shard : L.Shard) {call : OrderedCall} (same : call.tag = tag) :
    (t.only tag).replies shard call = t.replies shard call := by
  unfold replies
  congr 1
  funext node
  exact Replica.lookup_filter (·.tag = tag) call (by simpa using same) _

theorem only_step (same : a.tag = tag) (taken : t.step a = some t') :
    (t.only tag).step a = some (t'.only tag) := by
  cases a with
  | order shard call =>
      obtain ⟨fresh, rfl⟩ := step_order.mp taken
      refine step_order.mpr ⟨fun mem => fresh (List.mem_of_mem_filter mem), ?_⟩
      ext1
      · funext other
        by_cases here : other = shard
        · subst here
          simp [only, List.filter_append, show call.tag = tag from same]
        · simp [only, here]
      · rfl
      · rfl
  | serve node action =>
      obtain ⟨allowed, r, stepped, rfl⟩ := step_serve.mp taken
      refine step_serve.mpr ⟨allows_only same allowed, r.only tag,
        Replica.only_step same stepped, ?_⟩
      ext1
      · rfl
      · funext other
        by_cases here : other = node
        · subst here
          simp [only]
        · simp [only, here]
      · rfl
  | collect shard call =>
      obtain ⟨replies, complete, rfl⟩ := step_collect.mp taken
      refine step_collect.mpr ⟨replies, (replies_only shard same).trans complete, ?_⟩
      ext1
      · rfl
      · rfl
      · funext other
        by_cases here : other = shard
        · subst here
          simp [only, StdMap.restrict_assign, show call.tag = tag from same]
        · simp [only, here]

theorem step_only_of_ne (other : a.tag ≠ tag) (taken : t.step a = some t') :
    t'.only tag = t.only tag := by
  cases a with
  | order shard call =>
      obtain ⟨-, rfl⟩ := step_order.mp taken
      ext1
      · funext s
        by_cases here : s = shard
        · subst here
          simp [only, List.filter_append, show call.tag ≠ tag from other]
        · simp [only, here]
      · rfl
      · rfl
  | serve node action =>
      obtain ⟨-, r, stepped, rfl⟩ := step_serve.mp taken
      ext1
      · rfl
      · funext n
        by_cases here : n = node
        · subst here
          simpa [only] using Replica.step_only_of_ne other stepped
        · simp [only, here]
      · rfl
  | collect shard call =>
      obtain ⟨replies, -, rfl⟩ := step_collect.mp taken
      ext1
      · rfl
      · rfl
      · funext s
        by_cases here : s = shard
        · subst here
          simp [only, StdMap.restrict_assign, show call.tag ≠ tag from other]
        · simp [only, here]

theorem tags_do_not_interfere (tag : UInt32) (actions : List (TierAction L)) (t : Tier L api)
    (run : Runs.exec step (empty : Tier L api) actions = some t) :
    ∃ t', Runs.exec step (empty : Tier L api) (actions.filter (·.tag = tag)) = some t' ∧
      (∀ node,
        (t'.replica node).tier.rawModels.restrict (· = tag) =
          (t.replica node).tier.rawModels.restrict (· = tag) ∧
        (t'.replica node).tier.inferenceEngines.restrict (· = tag) =
          (t.replica node).tier.inferenceEngines.restrict (· = tag) ∧
        (∀ call : InferenceCall, call.tag = tag →
          (t'.replica node).calls.find call = (t.replica node).calls.find call) ∧
        ∀ call : OrderedCall, call.tag = tag →
          (t'.replica node).delivered.lookup call = (t.replica node).delivered.lookup call) ∧
      ∀ shard, ∀ call : OrderedCall, call.tag = tag →
        (t'.returned shard).find call = (t.returned shard).find call := by
  have projected : Runs.exec step ((empty : Tier L api).only tag) _ = some (t.only tag) :=
    Runs.exec_filter (only tag) (·.tag = tag)
      (fun s a s' same taken => only_step (by simpa using same) taken)
      (fun s a s' other taken => step_only_of_ne (by simpa using other) taken) run
  rw [only_empty] at projected
  refine ⟨t.only tag, projected, ?_, ?_⟩
  · intro node
    refine ⟨?_, ?_, ?_, ?_⟩
    · simp [only, Replica.only, CategorizerTier.only]
    · simp [only, Replica.only, CategorizerTier.only]
    · intro call same
      simp [only, Replica.only, same]
    · intro call same
      exact Replica.lookup_filter (·.tag = tag) call (by simpa using same) _
  · intro shard call same
    simp [only, same]

def mixedSchedule : List (TierAction ShardLayout.pair) :=
  let node := ShardLayout.firstNode
  let failing : InferenceCall := ⟨0, 8, ⟨[1]⟩⟩
  let install : OrderedCall := ⟨0, .orderedInstallModel 7 1 1 1 ⟨[114, 1, 2]⟩⟩
  let other : OrderedCall := ⟨1, .orderedInstallModel 8 0 0 0 ⟨[]⟩⟩
  let remove : OrderedCall := ⟨2, .orderedRemoveModel 7⟩
  [.order ShardLayout.pairShard install, .order ShardLayout.pairShard other,
    .serve node (.deliver install), .serve node (.deliver other), .serve node (.lookup failing),
    .order ShardLayout.pairShard remove, .serve node (.build failing),
    .serve node (.deliver remove)]

theorem mixedSchedule_isolated :
    ∃ t : Tier ShardLayout.pair sampleApi,
      Runs.exec step empty (mixedSchedule.filter (·.tag = 7)) = some t ∧
      (t.replica ShardLayout.firstNode).delivered.lookup ⟨2, .orderedRemoveModel 7⟩ = some 0 := by
  obtain ⟨t, run, nodes, -⟩ :=
    tags_do_not_interfere 7 mixedSchedule (_ : Tier ShardLayout.pair sampleApi) rfl
  exact ⟨t, run, (nodes ShardLayout.firstNode).2.2.2 _ rfl⟩

end Tier
end SospDemo
