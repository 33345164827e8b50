import SospDemo.Locks.Progress
import SospDemo.Locks.Refinement
import SospDemo.Service.Replies

namespace SospDemo
open Linearizability Runs
variable {Engine Input Output Exn : Type} {L : ShardLayout}

inductive LockedAction (L : ShardLayout)
  | service (action : ServiceAction L)
  | advance (node : L.Node) (task : Task)

/-- `Service` with a `LockedTier` in place of each replica. -/
structure LockedService (L : ShardLayout) (parts : EngineParts Engine Input Output Exn) where
  log : L.Shard → List OrderedCall
  node : L.Node → LockedTier parts
  returned : L.Shard → StdMap OrderedCall Int
  inFlight : List (L.Node × OrderedCall)
  awaiting : List (L.Node × OrderedCall)
  asked : List (L.Node × InferenceCall)
  history : History OrderedCall Int

def InferencePc.begun : InferencePc Exn → Bool
  | .outside => false
  | _ => true

def InferencePc.builds : InferencePc Exn → Bool
  | .build => true
  | _ => false

def OrderedPc.reply : OrderedPc → Option Int
  | .returned code => some code
  | _ => none

namespace LockedService
variable {parts : EngineParts Engine Input Output Exn}

def empty : LockedService L parts :=
  ⟨fun _ => [], fun _ => .constructed .empty, fun _ => .empty, [], [], [], []⟩

def send (s : LockedService L parts) (node : L.Node) (call : OrderedCall) :
    Option (LockedService L parts) :=
  if s.history.contains (.invoke call) then none
  else some { s with
    inFlight := s.inFlight ++ [(node, call)]
    history := s.history ++ [.invoke call] }

def setNode (s : LockedService L parts) (node : L.Node) (n : LockedTier parts) :
    LockedService L parts :=
  { s with node := Function.update s.node node n }

/-- An inference begins when it has been asked for, an ordered call when all calls ordered before
it have returned. -/
def allows (s : LockedService L parts) (node : L.Node) : Task → Bool
  | .inference call => ((s.node node).inferences call).begun || s.asked.contains (node, call)
  | .ordered call =>
      (s.node node).ordered call ≠ .outside || ((s.log node.1).contains call &&
        ((s.log node.1).takeWhile (· ≠ call)).all fun earlier =>
          ((s.node node).ordered earlier).reply.isSome)

def replies (s : LockedService L parts) (shard : L.Shard) (call : OrderedCall) :
    Option (List Int) :=
  (L.members shard).mapM fun node => ((s.node node).ordered call).reply

def step (heap : Allocator) (s : LockedService L parts) :
    LockedAction L → Option (LockedService L parts)
  | .service (.installModel id pick stream) =>
      match FunctionTier.installModel Exn heap L.table pick stream ⟨0, ""⟩ with
      | .p2pSend node op _ => s.send node ⟨id, op⟩
      | _ => some s
  | .service (.removeModel id pick tag) =>
      match FunctionTier.removeModel Exn L.table pick tag with
      | .p2pSend node op _ => s.send node ⟨id, op⟩
      | _ => some s
  | .service (.whatsthis id pick stream) =>
      match FunctionTier.whatsthis Exn heap L.table pick stream ⟨""⟩ with
      | .p2pSend node photo _ => some { s with asked := s.asked ++ [(node, ⟨id, photo⟩)] }
      | _ => some s
  | .service (.order node call) =>
      if s.inFlight.contains (node, call) ∧ ¬(s.log node.1).contains call then
        some { s with
          log := Function.update s.log node.1 (s.log node.1 ++ [call])
          inFlight := s.inFlight.erase (node, call)
          awaiting := s.awaiting ++ [(node, call)] }
      else none
  | .service (.serve ..) => none
  | .service (.collect shard call) =>
      (s.replies shard call).map fun replies =>
        { s with
          returned := Function.update s.returned shard
            ((s.returned shard).assign call (CategorizerTier.collectReplies replies)) }
  | .service (.respond node call) =>
      if s.awaiting.contains (node, call) then
        ((s.returned node.1).find call).map fun ret =>
          { s with
            awaiting := s.awaiting.erase (node, call)
            history := s.history ++ [.respond call (call.op.reply ret).2.errorCode] }
      else none
  | .advance node task =>
      if s.allows node task then
        ((s.node node).step task).map (s.setNode node)
      else none

def ReadsInstalled (s : LockedService L parts) : LockedAction L → Prop
  | .advance node (.inference call) =>
      ((s.node node).inferences call).builds → (s.node node).rawModels.find call.tag ≠ none
  | _ => True

/-! ## The order of a shard and its nodes -/

def around (s : LockedService L parts) (replica : L.Node → Replica parts.api) :
    Service L parts.api :=
  ⟨⟨s.log, replica, s.returned⟩, s.inFlight, s.awaiting, s.asked, s.history⟩

def delivers (s : LockedService L parts) : LockedAction L → List (ServiceAction L)
  | .service action => [action]
  | .advance node (.ordered call) =>
      if (s.node node).takesEffect call then [.serve node (.deliver call)] else []
  | .advance _ (.inference _) => []

/-- The node has the models of the replica, which has been delivered the calls that have taken
effect; and a call that is about to is the next one. -/
structure Keeps (log : List OrderedCall) (n : LockedTier parts) (r : Replica parts.api) :
    Prop where
  safe : n.Safe
  found : n.Found
  rawModels : r.tier.rawModels = n.rawModels
  delivered : ∀ call code, (call, code) ∈ r.delivered ↔ n.code call = some code
  ordered : r.delivered.map Prod.fst <+: log
  turn : ∀ call, (n.ordered call).pending → r.delivered.map Prod.fst ++ [call] <+: log

structure KeepsOrder (s : LockedService L parts) (replica : L.Node → Replica parts.api) :
    Prop where
  nodes : ∀ node, Keeps (s.log node.1) (s.node node) (replica node)
  distinct : ∀ shard, (s.log shard).Nodup

variable {s next : LockedService L parts} {replica : L.Node → Replica parts.api} {heap : Allocator}

theorem keepsOrder_empty : (empty : LockedService L parts).KeepsOrder fun _ => .empty where
  nodes _ :=
    { safe := LockedTier.safe_constructed _
      found := LockedTier.found_constructed _
      rawModels := rfl
      delivered := (LockedTier.standsFor_constructed _).delivered
      ordered := List.nil_prefix
      turn := fun _ begun => nomatch begun }
  distinct _ := List.nodup_nil

theorem KeepsOrder.setNode (keeps : s.KeepsOrder replica) {node : L.Node} {n : LockedTier parts}
    {r : Replica parts.api} (here : Keeps (s.log node.1) n r) :
    (s.setNode node n).KeepsOrder (Function.update replica node r) := by
  refine ⟨fun other => ?_, keeps.distinct⟩
  simp only [LockedService.setNode]
  rcases eq_or_ne other node with rfl | apart
  · rwa [Function.update_self, Function.update_self]
  · rw [Function.update_of_ne apart, Function.update_of_ne apart]
    exact keeps.nodes other

/-! ## Requests, orders and replies -/

structure Elsewhere (s next : LockedService L parts) : Prop where
  nodes : next.node = s.node
  log : ∀ shard, s.log shard <+: next.log shard
  distinct : (∀ shard, (s.log shard).Nodup) → ∀ shard, (next.log shard).Nodup
  asked : s.asked ⊆ next.asked

theorem elsewhere_of_send {node : L.Node} {call : OrderedCall}
    (sent : s.send node call = some next) : Elsewhere s next := by
  unfold send at sent
  split at sent <;> cases sent
  exact ⟨rfl, fun _ => List.prefix_rfl, id, List.Subset.refl _⟩

theorem elsewhere_of_service {a : ServiceAction L} (taken : s.step heap (.service a) = some next) :
    Elsewhere s next := by
  have here : Elsewhere s s := ⟨rfl, fun _ => List.prefix_rfl, id, List.Subset.refl _⟩
  cases a with
  | installModel | removeModel =>
      simp only [step] at taken
      split at taken
      · exact elsewhere_of_send taken
      · exact Option.some.inj taken ▸ here
  | whatsthis =>
      simp only [step] at taken
      split at taken
      · obtain rfl := Option.some.inj taken
        exact { here with asked := List.subset_append_left _ _ }
      · exact Option.some.inj taken ▸ here
  | order node call =>
      simp only [step] at taken
      split at taken
      · rename_i pending
        rw [List.contains_iff_mem, List.contains_iff_mem] at pending
        obtain rfl := Option.some.inj taken
        refine { here with log := fun shard => ?_, distinct := fun distinct shard => ?_ }
        · simp only [Function.update_apply]
          split
          · rename_i same
            exact same ▸ List.prefix_append _ _
          · exact List.prefix_rfl
        · simp only [Function.update_apply]
          split
          · exact List.nodup_append'.mpr ⟨distinct node.1, List.nodup_singleton call,
              List.disjoint_singleton.mpr pending.2⟩
          · exact distinct shard
      · cases taken
  | serve => cases taken
  | collect =>
      obtain ⟨replies, -, rfl⟩ := Option.map_eq_some_iff.mp taken
      exact { here with }
  | respond =>
      simp only [step] at taken
      split at taken
      · obtain ⟨ret, -, rfl⟩ := Option.map_eq_some_iff.mp taken
        exact { here with }
      · cases taken

theorem KeepsOrder.elsewhere (keeps : s.KeepsOrder replica) (elsewhere : Elsewhere s next) :
    next.KeepsOrder replica := by
  refine ⟨fun node => ?_, elsewhere.distinct keeps.distinct⟩
  have before := keeps.nodes node
  rw [elsewhere.nodes]
  exact { before with
    ordered := before.ordered.trans (elsewhere.log node.1)
    turn := fun call pending => (before.turn call pending).trans (elsewhere.log node.1) }

theorem Keeps.lookup_of_reply {log : List OrderedCall} {n : LockedTier parts}
    {r : Replica parts.api} (keeps : Keeps log n r) {call : OrderedCall} {code : Int}
    (replied : (n.ordered call).reply = some code) : r.delivered.lookup call = some code := by
  have returned : n.code call = some code := by
    unfold LockedTier.code
    cases place : n.ordered call with
    | returned other => simpa [place, OrderedPc.reply] using replied
    | _ => simp [place, OrderedPc.reply] at replied
  have mem := (keeps.delivered call code).mpr returned
  obtain ⟨other, found⟩ := lookup_isSome (List.mem_map_of_mem (f := Prod.fst) mem)
  obtain ⟨before, after, split, -⟩ := List.lookup_eq_some_iff.mp found
  have delivered := (keeps.delivered call other).mp (by simp [split])
  rw [found, ← delivered, returned]

theorem mapM_of_mapM {α β : Type} {f g : α → Option β} (same : ∀ x y, f x = some y → g x = some y)
    {xs : List α} {ys : List β} (mapped : xs.mapM f = some ys) : xs.mapM g = some ys := by
  induction xs generalizing ys with
  | nil => exact mapped
  | cons x xs ih =>
      rw [List.mapM_cons] at mapped ⊢
      obtain ⟨y, first, rest⟩ := Option.bind_eq_some_iff.mp mapped
      obtain ⟨ys', later, whole⟩ := Option.bind_eq_some_iff.mp rest
      rw [same x y first, ih later]
      exact whole

theorem around_send {node : L.Node} {call : OrderedCall} (sent : s.send node call = some next) :
    (s.around replica).send node call = some (next.around replica) := by
  unfold send at sent
  split at sent
  · cases sent
  · rename_i fresh
    rw [List.contains_iff_mem] at fresh
    obtain rfl := Option.some.inj sent
    exact Service.send_eq_some.mpr ⟨fresh, rfl⟩

theorem around_service (replica : L.Node → Replica parts.api) {a : ServiceAction L}
    (requests : ∀ shard call, a ≠ .collect shard call)
    (taken : s.step heap (.service a) = some next) :
    (s.around replica).step heap a = some (next.around replica) := by
  cases a with
  | installModel id pick stream =>
      cases handled : FunctionTier.installModel Exn heap L.table pick stream ⟨0, ""⟩ with
      | p2pSend node op resume =>
          simp only [step, handled] at taken
          simpa only [Service.step, handled] using around_send taken
      | finished | outOfRange =>
          simp only [step, handled, Option.some.injEq] at taken
          simp only [Service.step, handled, taken]
  | removeModel id pick tag =>
      cases handled : FunctionTier.removeModel Exn L.table pick tag with
      | p2pSend node op resume =>
          simp only [step, handled] at taken
          simpa only [Service.step, handled] using around_send taken
      | finished | outOfRange =>
          simp only [step, handled, Option.some.injEq] at taken
          simp only [Service.step, handled, taken]
  | whatsthis id pick stream =>
      cases handled : FunctionTier.whatsthis Exn heap L.table pick stream ⟨""⟩ with
      | p2pSend node photo resume =>
          simp only [step, handled, Option.some.injEq] at taken
          subst taken
          simp only [Service.step, handled, around]
      | finished | outOfRange =>
          simp only [step, handled, Option.some.injEq] at taken
          simp only [Service.step, handled, taken]
  | order node call =>
      simp only [step] at taken
      split at taken
      · rename_i pending
        rw [List.contains_iff_mem, List.contains_iff_mem] at pending
        obtain rfl := Option.some.inj taken
        exact Service.step_order.mpr ⟨pending.1, _, Tier.step_order.mpr ⟨pending.2, rfl⟩, rfl⟩
      · cases taken
  | serve node action => cases taken
  | collect shard call => exact absurd rfl (requests shard call)
  | respond node call =>
      simp only [step] at taken
      split at taken
      · rename_i awaited
        rw [List.contains_iff_mem] at awaited
        obtain ⟨ret, found, rfl⟩ := Option.map_eq_some_iff.mp taken
        refine Service.step_respond.mpr ⟨awaited, ret, found, ?_⟩
        rw [OrderedOp.errorCode_reply]
        rfl
      · cases taken

theorem KeepsOrder.service (keeps : s.KeepsOrder replica) {a : ServiceAction L}
    (taken : s.step heap (.service a) = some next) :
    (s.around replica).step heap a = some (next.around replica) := by
  by_cases collects : ∃ shard call, a = .collect shard call
  · obtain ⟨shard, call, rfl⟩ := collects
    obtain ⟨replies, replied, rfl⟩ := Option.map_eq_some_iff.mp taken
    have collected : (s.around replica).tier.replies shard call = some replies :=
      mapM_of_mapM (fun node code found => (keeps.nodes node).lookup_of_reply found) replied
    exact Service.step_collect.mpr ⟨_, Tier.step_collect.mpr ⟨replies, collected, rfl⟩, rfl⟩
  · exact around_service replica (fun shard call same => collects ⟨shard, call, same⟩) taken

/-! ## Whose turn it is -/

theorem concat_prefix {α : Type*} [DecidableEq α] {done log : List α} {x : α}
    (isPrefix : done <+: log) (distinct : log.Nodup) (logged : x ∈ log) (fresh : x ∉ done)
    (earlier : ∀ y ∈ log.takeWhile (· ≠ x), y ∈ done) : done ++ [x] <+: log := by
  obtain ⟨before, after, rfl, absent⟩ := List.eq_append_cons_of_mem logged
  have before_eq : (before ++ x :: after).takeWhile (· ≠ x) = before := by
    rw [List.takeWhile_append_of_pos, List.takeWhile_cons_of_neg (by simp), List.append_nil]
    intro y mem
    exact decide_eq_true fun same => absent (same ▸ mem)
  rw [before_eq] at earlier
  have same : done = before := by
    rcases List.prefix_or_prefix_of_prefix isPrefix (List.prefix_append before (x :: after)) with
      ⟨rest, split⟩ | ⟨rest, split⟩
    · cases rest with
      | nil => rwa [List.append_nil] at split
      | cons y rest =>
          have again : y ∈ done := earlier y (by simp [← split])
          have twice := (List.nodup_append'.mp (split ▸ (List.nodup_append'.mp distinct).1)).2.2
          exact absurd List.mem_cons_self (twice again)
    · cases rest with
      | nil => rw [← split, List.append_nil]
      | cons y rest =>
          obtain ⟨later, whole⟩ := isPrefix
          rw [← split, List.append_assoc, List.append_cancel_left_eq, List.cons_append,
            List.cons.injEq] at whole
          exact absurd (by simp [← split, whole.1]) fresh
  rw [same]
  exact ⟨after, by simp⟩

theorem turn_of_allowed (keeps : s.KeepsOrder replica) {node : L.Node} {call : OrderedCall}
    (allowed : s.allows node (.ordered call)) (outside : (s.node node).ordered call = .outside) :
    (replica node).delivered.map Prod.fst ++ [call] <+: s.log node.1 := by
  have here := keeps.nodes node
  simp only [allows, outside, ne_eq, not_true_eq_false, decide_false, Bool.false_or,
    Bool.and_eq_true, List.contains_iff_mem, List.all_eq_true] at allowed
  refine concat_prefix here.ordered (keeps.distinct node.1) allowed.1 (fun done => ?_)
    fun earlier mem => ?_
  · obtain ⟨⟨other, code⟩, delivered, rfl⟩ := List.mem_map.mp done
    rw [here.delivered, LockedTier.code, outside] at delivered
    cases delivered
  · obtain ⟨code, replied⟩ := Option.isSome_iff_exists.mp (allowed.2 earlier (by simpa using mem))
    have found := here.lookup_of_reply replied
    obtain ⟨before, after, split, -⟩ := List.lookup_eq_some_iff.mp found
    exact List.mem_map.mpr ⟨(earlier, code), by simp [split], rfl⟩

theorem pending_before {n next : LockedTier parts} {call : OrderedCall}
    (stepped : n.step (.ordered call) = some next) (pending : (next.ordered call).pending) :
    n.ordered call = .outside ∨ (n.ordered call).pending := by
  have fewer : (next.ordered call).left < (n.ordered call).left :=
    LockedTier.advanceOrdered_left stepped
  have some_left : 4 ≤ (next.ordered call).left := by
    rcases OrderedPc.pending_iff.mp pending with place | place <;> simp [place, OrderedPc.left]
  cases place : n.ordered call with
  | outside => exact .inl rfl
  | search | change => exact .inr rfl
  | _ =>
      rw [place] at fewer
      exact absurd (some_left.trans_lt fewer) (by simp [OrderedPc.left])

section Turn
variable {node : L.Node} {n : LockedTier parts} {r : Replica parts.api} {t : Task}

theorem KeepsOrder.turn_kept (keeps : s.KeepsOrder replica) (allowed : s.allows node t)
    (stepped : (s.node node).step t = some n)
    (quiet : r.delivered.map Prod.fst = (replica node).delivered.map Prod.fst)
    (call : OrderedCall) (pending : (n.ordered call).pending) :
    r.delivered.map Prod.fst ++ [call] <+: s.log node.1 := by
  have here := keeps.nodes node
  rw [quiet]
  by_cases same : .ordered call = t
  · subst same
    rcases pending_before stepped pending with outside | before
    · exact turn_of_allowed keeps allowed outside
    · exact here.turn call before
  · rw [here.safe.ordered_kept stepped same] at pending
    exact here.turn call pending

theorem no_turn {n : LockedTier parts} {call : OrderedCall} (safe : (n.effected call).Safe)
    (other : OrderedCall) : ¬ ((n.effected call).ordered other).pending := by
  intro pending
  have idle : ((n.effected call).ordered call).pending = false := by
    rw [LockedTier.effected_ordered, Function.update_self]
    split <;> rfl
  have busy : ((n.effected call).ordered other).underWay := by
    rcases OrderedPc.pending_iff.mp pending with place | place <;> rw [place] <;> rfl
  have turn := (safe.inTurn.delivering other).mp busy
  simp only [LockedTier.effected, LockedTier.gotoOrdered] at turn
  split at turn
  · obtain rfl := Option.some.inj turn
    cases pending.symm.trans idle
  · cases turn

end Turn

/-! ## Steps of the nodes -/

theorem advance_rawModels {n next : LockedTier parts} {call : InferenceCall}
    (installed : (n.inferences call).builds → n.rawModels.find call.tag ≠ none)
    (taken : n.advance call = some next) : next.rawModels = n.rawModels := by
  cases place : n.inferences call with
  | build =>
      obtain ⟨model, found⟩ :=
        Option.ne_none_iff_exists'.mp (installed (by rw [place]; rfl))
      simp only [LockedTier.advance, place, LockedTier.build,
        StdMap.subscript_of_present found, Option.some.injEq] at taken
      subst taken
      split <;> rfl
  | lockShared | lock engine =>
      simp only [LockedTier.advance, place, Option.map_eq_some_iff] at taken
      obtain ⟨mutex, -, rfl⟩ := taken
      rfl
  | findEngine | findModel | subscript path =>
      simp only [LockedTier.advance, place] at taken
      split at taken <;> cases taken <;> rfl
  | outside | unlockMissed | assign engine | unlock path outcome =>
      simp only [LockedTier.advance, place, Option.some.injEq] at taken
      subst taken
      rfl
  | copy path engine =>
      simp only [LockedTier.advance, place, LockedTier.copy, Option.some.injEq] at taken
      subst taken
      split
      · rfl
      · split <;> rfl
  | forward path engine =>
      simp only [LockedTier.advance, place, LockedTier.forward, Option.some.injEq] at taken
      subst taken
      split
      · split <;> rfl
      · rfl
  | read path engine =>
      simp only [LockedTier.advance, place, LockedTier.read, Option.some.injEq] at taken
      subst taken
      split <;> rfl
  | answered | undefined => simp [LockedTier.advance, place] at taken

section Advance
variable {node : L.Node} {n : LockedTier parts} {t : Task}

theorem KeepsOrder.quiet (keeps : s.KeepsOrder replica) (allowed : s.allows node t)
    (stepped : (s.node node).step t = some n) (found : n.Found)
    (rawModels : n.rawModels = (s.node node).rawModels)
    (code : ∀ call, n.code call = (s.node node).code call) :
    (s.setNode node n).KeepsOrder replica := by
  have here := keeps.nodes node
  have next : Keeps (s.log node.1) n (replica node) :=
    { safe := here.safe.kept stepped
      found
      rawModels := here.rawModels.trans rawModels.symm
      delivered := fun call ret => by rw [here.delivered, code]
      ordered := here.ordered
      turn := keeps.turn_kept (r := replica node) allowed stepped rfl }
  simpa using keeps.setNode next

variable (heap) in
theorem KeepsOrder.effected (keeps : s.KeepsOrder replica) {call : OrderedCall}
    (pending : ((s.node node).ordered call).pending)
    (stepped : (s.node node).step (.ordered call) = some ((s.node node).effected call)) :
    ∃ r, (s.around replica).step heap (.serve node (.deliver call)) =
        some ((s.setNode node ((s.node node).effected call)).around
          (Function.update replica node r)) ∧
      (s.setNode node ((s.node node).effected call)).KeepsOrder
        (Function.update replica node r) := by
  have here := keeps.nodes node
  have turn := here.turn call pending
  have safe := here.safe.kept stepped
  obtain ⟨r, delivers⟩ : ∃ r, (replica node).step (.deliver call) = some r := ⟨_, rfl⟩
  obtain rfl := Replica.step_deliver.mp delivers
  refine ⟨_, Service.step_serve.mpr ⟨rfl, _, Tier.step_serve.mpr
    ⟨List.isPrefixOf_iff_prefix.mpr turn, _, delivers, rfl⟩, rfl⟩, keeps.setNode
      { safe, found := here.safe.found_ordered here.found stepped, rawModels := ?_, delivered := ?_
        ordered := ?_, turn := fun other pending => absurd pending (no_turn safe other) }⟩
  · rw [CategorizerTier.perform_rawModels, here.rawModels]
    rfl
  · intro other answer
    rw [CategorizerTier.perform_code, here.rawModels]
    exact LockedTier.delivered_effected here.delivered pending other answer
  · rw [List.map_append]
    exact turn

theorem KeepsOrder.advance (keeps : s.KeepsOrder replica) (allowed : s.allows node t)
    (installed : s.ReadsInstalled (.advance node t)) (stepped : (s.node node).step t = some n) :
    ∃ replica', exec (Service.step heap) (s.around replica) (s.delivers (.advance node t)) =
        some ((s.setNode node n).around replica') ∧ (s.setNode node n).KeepsOrder replica' := by
  have here := keeps.nodes node
  cases t with
  | inference call =>
      have code (other : OrderedCall) : n.code other = (s.node node).code other := by
        rw [LockedTier.code, LockedTier.code, here.safe.ordered_kept stepped (by simp)]
      have found := here.safe.found_inference here.found
        (fun building none => absurd none (installed (by rw [building]; rfl))) stepped
      exact ⟨replica, rfl,
        keeps.quiet allowed stepped found (advance_rawModels installed stepped) code⟩
  | ordered call =>
      rcases here.found.advance_cases stepped with ⟨takes, rfl⟩ | ⟨waits, rawModels, same, -⟩
      · obtain ⟨r, serves, keeps'⟩ :=
          keeps.effected heap (LockedTier.pending_of_takesEffect takes) stepped
        exact ⟨_, by rw [delivers, if_pos takes, exec_singleton, serves], keeps'⟩
      · have code (other : OrderedCall) : n.code other = (s.node node).code other := by
          rcases eq_or_ne other call with rfl | apart
          · exact same
          · rw [LockedTier.code, LockedTier.code, here.safe.ordered_kept stepped (by simpa)]
        exact ⟨replica, by rw [delivers, waits]; rfl, keeps.quiet allowed stepped
          (here.safe.found_ordered here.found stepped) rawModels code⟩

end Advance

/-! ## Runs -/

theorem KeepsOrder.step (keeps : s.KeepsOrder replica) {a : LockedAction L}
    (installed : s.ReadsInstalled a) (taken : s.step heap a = some next) :
    ∃ replica', exec (Service.step heap) (s.around replica) (s.delivers a) =
        some (next.around replica') ∧ next.KeepsOrder replica' := by
  cases a with
  | service action =>
      exact ⟨replica, by rw [delivers, exec_singleton, keeps.service taken],
        keeps.elsewhere (elsewhere_of_service taken)⟩
  | advance node t =>
      simp only [LockedService.step] at taken
      split at taken
      · rename_i allowed
        obtain ⟨n, stepped, rfl⟩ := Option.map_eq_some_iff.mp taken
        exact keeps.advance allowed installed stepped
      · cases taken

theorem delivers_readsInstalled {a : LockedAction L} (taken : s.step heap a = some next)
    (u : Service L parts.api) :
    EveryStep (Service.step heap) u (s.delivers a) Service.ReadsInstalled := by
  have once {action : ServiceAction L} (reads : u.ReadsInstalled action) :
      EveryStep (Service.step heap) u [action] Service.ReadsInstalled :=
    (everyStep_cons _ _ _).mpr ⟨reads, fun _ _ => everyStep_nil _⟩
  cases a with
  | service action =>
      cases action with
      | serve => cases taken
      | installModel | removeModel | whatsthis | order | collect | respond => exact once trivial
  | advance node t =>
      cases t with
      | inference call => exact everyStep_nil _
      | ordered call =>
          rw [delivers]
          split
          · exact once trivial
          · exact everyStep_nil _

theorem linearizable_under_locks (heap : Allocator) (actions : List (LockedAction L))
    (s : LockedService L parts) (run : exec (step heap) empty actions = some s)
    (reads : EveryStep (step heap) (empty : LockedService L parts) actions ReadsInstalled) :
    ∃ order, IsLinearization modelStore.toObject s.history order ∧
      (∀ shard, s.log shard = order.filter fun call => L.shardOf call.tag = shard) ∧
      ∀ node, ∃ done, done <+: s.log node.1 ∧
        (∀ call, call ∈ done ↔ (s.node node).code call ≠ none) ∧
        (s.node node).rawModels = modelStore.toObject.after done := by
  obtain ⟨_, runs, readsThere, replica, rfl, keeps⟩ :=
    exec_refines_meeting (u := Service.empty) (D := Service.ReadsInstalled) delivers
      (fun s u => ∃ replica, u = s.around replica ∧ s.KeepsOrder replica)
      (fun s u a next ⟨replica, same, keeps⟩ installed taken => by
        subst same
        obtain ⟨replica', runs, keeps'⟩ := keeps.step installed taken
        exact ⟨_, runs, delivers_readsInstalled taken _, replica', rfl, keeps'⟩)
      ⟨fun _ => .empty, rfl, keepsOrder_empty⟩ reads run
  obtain ⟨order, tracks⟩ := Service.tracks_withoutInferences readsThere runs
  refine ⟨order, tracks.commits.isLinearization, tracks.logs, fun node => ?_⟩
  have here := keeps.nodes node
  refine ⟨(replica node).delivered.map Prod.fst, here.ordered, fun call => ?_,
    here.rawModels.symm.trans (tracks.follow.follows node).rawModels_eq⟩
  rw [List.mem_map, Option.ne_none_iff_exists']
  constructor
  · rintro ⟨⟨other, code⟩, mem, rfl⟩
    exact ⟨code, (here.delivered _ _).mp mem⟩
  · rintro ⟨code, returned⟩
    exact ⟨(call, code), (here.delivered _ _).mpr returned, rfl⟩

instance (s : LockedService L parts) : (a : LockedAction L) → Decidable (s.ReadsInstalled a)
  | .advance node (.inference call) =>
      inferInstanceAs (Decidable (((s.node node).inferences call).builds →
        (s.node node).rawModels.find call.tag ≠ none))
  | .advance _ (.ordered _) | .service _ => isTrue trivial

section Mixed
open ShardLayout

def install : OrderedCall := ⟨0, .orderedInstallModel 7 1 0 0 ⟨[114]⟩⟩

def firstAsk : InferenceCall := ⟨0, ⟨7, ⟨[1]⟩⟩⟩

def secondAsk : InferenceCall := ⟨1, ⟨7, ⟨[2]⟩⟩⟩

def thirdAsk : InferenceCall := ⟨2, ⟨7, ⟨[1]⟩⟩⟩

def askTwice : List (LockedAction pair) :=
  [.service (.installModel 0 0 [.metadata ⟨7, 1, 0, 0⟩, .fileData [114]]),
    .service (.order firstNode install)] ++
  .replicate 3 (.advance secondNode (.ordered install)) ++
  [.service (.whatsthis 0 1 [.metadata ⟨1, [7]⟩, .fileData [1]]),
    .service (.whatsthis 1 1 [.metadata ⟨1, [7]⟩, .fileData [2]])] ++
  .replicate 13 (.advance secondNode (.inference firstAsk)) ++
  .replicate 3 (.advance firstNode (.ordered install))

def answerUpload : List (LockedAction pair) :=
  [.service (.collect pairShard install), .service (.respond firstNode install)]

/-- The second photo is put before the engine in place of the third. -/
def mixedRun : List (LockedAction pair) :=
  askTwice ++ [.service (.whatsthis 2 1 [.metadata ⟨1, [7]⟩, .fileData [1]])] ++
  .replicate 5 (.advance secondNode (.inference thirdAsk)) ++
  .replicate 5 (.advance secondNode (.inference secondAsk)) ++ answerUpload ++
  .replicate 3 (.advance secondNode (.inference thirdAsk))

theorem mixedRun_linearizable :
    ∃ (s : LockedService pair LockedTier.sampleParts) (order : List OrderedCall),
      exec (step .zeros) empty mixedRun = some s ∧
      (s.node secondNode).inferences thirdAsk = .answered (.ok ⟨"tulip", some 1⟩) ∧
      s.history = [.invoke install, .respond install 0] ∧
      IsLinearization modelStore.toObject s.history order := by
  obtain ⟨order, linearization, -⟩ :=
    linearizable_under_locks .zeros mixedRun (_ : LockedService pair LockedTier.sampleParts) rfl
      (by decide +kernel)
  exact ⟨_, order, rfl, rfl, rfl, linearization⟩

end Mixed

end LockedService
end SospDemo
