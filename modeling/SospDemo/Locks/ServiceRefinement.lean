import SospDemo.Locks.Service

namespace SospDemo
open Runs
variable {Engine Input Output Exn : Type} {L : ShardLayout}

namespace LockedService
variable {parts : EngineParts Engine Input Output Exn}

def Orderly (s : LockedService L parts) : LockedAction L → Prop
  | .advance node task => (s.node node).Orderly task
  | .service _ => True

def countsAs (s : LockedService L parts) : LockedAction L → List (ServiceAction L)
  | .service action => [action]
  | .advance node task => ((s.node node).countsAs task).map (.serve node)

structure StandsFor (s : LockedService L parts) (replica : L.Node → Replica parts.api) : Prop where
  keeps : s.KeepsOrder replica
  tracked : ∀ node, (s.node node).Tracked
  nodes : ∀ node, (s.node node).StandsFor (replica node)
  asked : ∀ node call, ((s.node node).inferences call).begun → (node, call) ∈ s.asked

variable {s next : LockedService L parts} {replica : L.Node → Replica parts.api} {heap : Allocator}

theorem standsFor_empty : (empty : LockedService L parts).StandsFor fun _ => .empty where
  keeps := keepsOrder_empty
  tracked _ := LockedTier.tracked_constructed _
  nodes _ := LockedTier.standsFor_constructed _
  asked _ _ begun := nomatch begun

theorem StandsFor.elsewhere (stands : s.StandsFor replica) (elsewhere : Elsewhere s next) :
    next.StandsFor replica := by
  refine ⟨stands.keeps.elsewhere elsewhere, ?_, ?_, ?_⟩
  · rw [elsewhere.nodes]
    exact stands.tracked
  · rw [elsewhere.nodes]
    exact stands.nodes
  · rw [elsewhere.nodes]
    exact fun node call begun => elsewhere.asked (stands.asked node call begun)

theorem countsAs_cases (n : LockedTier parts) (t : Task) :
    n.countsAs t = [] ∨
      (∃ call a, t = .inference call ∧ (n.inferences call).begun ∧ n.countsAs t = [a] ∧
        (a = .lookup call ∨ a = .build call ∨ a = .store call)) ∨
      ∃ call, t = .ordered call ∧ n.takesEffect call ∧ n.countsAs t = [.deliver call] := by
  cases t with
  | inference call =>
      cases place : n.inferences call with
      | findEngine =>
          cases cached : n.inferenceEngines.find call.tag with
          | none => exact .inl (by simp [LockedTier.countsAs, place, cached])
          | some engine =>
              exact .inr (.inl ⟨call, .lookup call, rfl, by rw [place]; rfl,
                by simp [LockedTier.countsAs, place, cached], .inl rfl⟩)
      | findModel =>
          exact .inr (.inl ⟨call, .lookup call, rfl, by rw [place]; rfl,
            by simp [LockedTier.countsAs, place], .inl rfl⟩)
      | build =>
          exact .inr (.inl ⟨call, .build call, rfl, by rw [place]; rfl,
            by simp [LockedTier.countsAs, place], .inr (.inl rfl)⟩)
      | assign engine =>
          exact .inr (.inl ⟨call, .store call, rfl, by rw [place]; rfl,
            by simp [LockedTier.countsAs, place], .inr (.inr rfl)⟩)
      | _ => exact .inl (by simp [LockedTier.countsAs, place])
  | ordered call =>
      by_cases takes : n.takesEffect call
      · exact .inr (.inr ⟨call, rfl, takes, if_pos takes⟩)
      · exact .inl (if_neg takes)

section Advance
variable {node : L.Node} {n : LockedTier parts} {r : Replica parts.api} {t : Task}

theorem StandsFor.asked_kept (stands : s.StandsFor replica) (allowed : s.allows node t)
    (stepped : (s.node node).step t = some n) (call : InferenceCall)
    (begun : (n.inferences call).begun) : (node, call) ∈ s.asked := by
  by_cases same : .inference call = t
  · subst same
    simp only [allows, Bool.or_eq_true, List.contains_iff_mem] at allowed
    exact allowed.elim (stands.asked node call) id
  · rw [(stands.keeps.nodes node).safe.inferences_kept stepped same] at begun
    exact stands.asked node call begun

theorem StandsFor.setNode (stands : s.StandsFor replica) (safe : n.Safe) (found : n.Found)
    (tracked : n.Tracked) (here : n.StandsFor r) (ordered : r.delivered.map Prod.fst <+: s.log node.1)
    (turn : ∀ call, (n.ordered call).pending →
      r.delivered.map Prod.fst ++ [call] <+: s.log node.1)
    (asked : ∀ call, (n.inferences call).begun → (node, call) ∈ s.asked) :
    (s.setNode node n).StandsFor (Function.update replica node r) := by
  refine ⟨stands.keeps.setNode ⟨safe, found, here.rawModels, here.delivered, ordered, turn⟩,
    fun other => ?_, fun other => ?_, fun other => ?_⟩ <;>
    simp only [LockedService.setNode] <;> rcases eq_or_ne other node with rfl | apart
  · rwa [Function.update_self]
  · rw [Function.update_of_ne apart]
    exact stands.tracked other
  · rwa [Function.update_self, Function.update_self]
  · rw [Function.update_of_ne apart, Function.update_of_ne apart]
    exact stands.nodes other
  · rwa [Function.update_self]
  · rw [Function.update_of_ne apart]
    exact stands.asked other

theorem StandsFor.advance (stands : s.StandsFor replica) (orderly : (s.node node).Orderly t)
    (allowed : s.allows node t) (stepped : (s.node node).step t = some n) :
    ∃ replica', exec (Service.step heap) (s.around replica)
        (((s.node node).countsAs t).map (.serve node)) =
          some ((s.setNode node n).around replica') ∧
      (s.setNode node n).StandsFor replica' := by
  have here := stands.keeps.nodes node
  obtain ⟨r, runs, still⟩ :=
    (stands.nodes node).step here.safe here.found (stands.tracked node) orderly stepped
  have safe := here.safe.kept stepped
  have found := here.safe.found_kept here.found orderly.models stepped
  have tracked := (stands.tracked node).kept here.safe orderly.photos stepped
  have asked := stands.asked_kept allowed stepped
  refine ⟨Function.update replica node r, ?_⟩
  rcases countsAs_cases (s.node node) t with
    nothing | ⟨call, a, rfl, begun, one, kind⟩ | ⟨call, rfl, takes, one⟩
  · rw [nothing] at runs ⊢
    obtain rfl := Option.some.inj runs
    have turn := stands.keeps.turn_kept (r := replica node) allowed stepped rfl
    refine ⟨?_, stands.setNode safe found tracked still here.ordered turn asked⟩
    rw [Function.update_eq_self]
    rfl
  · rw [one, exec_singleton] at runs
    have quiet : r.delivered.map Prod.fst = (replica node).delivered.map Prod.fst := by
      rw [Replica.delivered_step runs]
      rcases kind with rfl | rfl | rfl <;> simp [ReplicaAction.delivers]
    have turn := stands.keeps.turn_kept allowed stepped quiet
    refine ⟨?_, stands.setNode safe found tracked still (quiet ▸ here.ordered) turn asked⟩
    rw [one, List.map_singleton, exec_singleton, Service.step_serve]
    refine ⟨?_, _, Tier.step_serve.mpr ⟨?_, r, runs, rfl⟩, rfl⟩
    · rcases kind with rfl | rfl | rfl
      · exact decide_eq_true (stands.asked node call begun)
      · rfl
      · rfl
    · rcases kind with rfl | rfl | rfl <;> rfl
  · rw [one, exec_singleton] at runs
    have turn := here.turn call (LockedTier.pending_of_takesEffect takes)
    obtain rfl : n = (s.node node).effected call := by
      rcases here.found.advance_cases stepped with ⟨-, same⟩ | ⟨waits, -⟩
      · exact same
      · cases takes.symm.trans waits
    have delivered : r.delivered.map Prod.fst = (replica node).delivered.map Prod.fst ++ [call] :=
      Replica.delivered_step runs
    refine ⟨?_, stands.setNode safe found tracked still (delivered ▸ turn)
      (fun other pending => absurd pending (no_turn safe other)) asked⟩
    rw [one, List.map_singleton, exec_singleton, Service.step_serve]
    exact ⟨rfl, _, Tier.step_serve.mpr ⟨List.isPrefixOf_iff_prefix.mpr turn, r, runs, rfl⟩, rfl⟩

end Advance

/-! ## Runs -/

theorem StandsFor.step (stands : s.StandsFor replica) {a : LockedAction L} (orderly : s.Orderly a)
    (taken : s.step heap a = some next) :
    ∃ replica', exec (Service.step heap) (s.around replica) (s.countsAs a) =
        some (next.around replica') ∧ next.StandsFor replica' := by
  cases a with
  | service action =>
      exact ⟨replica, by rw [countsAs, exec_singleton, stands.keeps.service taken],
        stands.elsewhere (elsewhere_of_service taken)⟩
  | advance node t =>
      simp only [LockedService.step] at taken
      split at taken
      · rename_i allowed
        obtain ⟨n, stepped, rfl⟩ := Option.map_eq_some_iff.mp taken
        exact stands.advance orderly allowed stepped
      · cases taken

theorem orderly_service_refines (heap : Allocator) (actions : List (LockedAction L))
    (s : LockedService L parts) (run : exec (step heap) empty actions = some s)
    (orderly : EveryStep (step heap) (empty : LockedService L parts) actions Orderly) :
    ∃ replica : L.Node → Replica parts.api,
      exec (Service.step heap) Service.empty
        (emitted (step heap) countsAs (empty : LockedService L parts) actions) =
          some (s.around replica) ∧
      ∀ node, (replica node).tier.rawModels = (s.node node).rawModels ∧
        (∀ call outcome, (s.node node).inferences call = .answered outcome →
          (replica node).calls.find call = some (.returned outcome)) ∧
        ∀ call code, (s.node node).ordered call = .returned code →
          (call, code) ∈ (replica node).delivered := by
  obtain ⟨_, runs, replica, rfl, stands⟩ :=
    exec_refines (u := Service.empty) countsAs
      (fun s u => ∃ replica, u = s.around replica ∧ s.StandsFor replica)
      (fun s u a next ⟨replica, same, stands⟩ orderly taken => by
        subst same
        obtain ⟨replica', runs, stands'⟩ := stands.step orderly taken
        exact ⟨_, runs, replica', rfl, stands'⟩)
      ⟨fun _ => .empty, rfl, standsFor_empty⟩ orderly run
  refine ⟨replica, runs, fun node => ?_⟩
  have here := stands.nodes node
  refine ⟨here.rawModels, fun call outcome answered => ?_, fun call code returned => ?_⟩
  · rw [here.calls, LockedTier.phase, answered]
  · rw [here.delivered, LockedTier.code, returned]

/-! ## A run on fixed inputs -/

def orderlyAmong (calls : List InferenceCall) (ordered : List OrderedCall)
    (s : LockedService L parts) : LockedAction L → Bool
  | .advance node task => LockedTier.orderlyAmong calls ordered (s.node node) task
  | .service _ => true

def scheduledAmong (calls : List InferenceCall) (ordered : List OrderedCall) :
    LockedAction L → Bool
  | .advance _ task => LockedTier.scheduledAmong calls ordered task
  | .service _ => true

theorem orderly_of_among {calls : List InferenceCall} {ordered : List OrderedCall}
    {actions : List (LockedAction L)} (scheduled : ∀ a ∈ actions, scheduledAmong calls ordered a)
    (among : EveryStep (step heap) (empty : LockedService L parts) actions fun s a =>
      orderlyAmong calls ordered s a = true) :
    EveryStep (step heap) (empty : LockedService L parts) actions Orderly := by
  have begun : EveryState (step heap) (empty : LockedService L parts) actions fun s =>
      ∀ node, (s.node node).Safe ∧ LockedTier.BegunAmong calls ordered (s.node node) := by
    refine invariant (C := fun _ a => scheduledAmong calls ordered a) ?_
      (fun _ => ⟨LockedTier.safe_constructed _, fun _ _ => rfl, fun _ _ => rfl⟩)
      fun before a _ isPrefix _ => scheduled a (isPrefix.subset (by simp))
    intro s a next begun scheduled taken node
    cases a with
    | service action =>
        rw [(elsewhere_of_service taken).nodes]
        exact begun node
    | advance other task =>
        simp only [step] at taken
        split at taken
        · obtain ⟨n, stepped, rfl⟩ := Option.map_eq_some_iff.mp taken
          simp only [LockedService.setNode]
          rcases eq_or_ne node other with rfl | apart
          · rw [Function.update_self]
            exact ⟨(begun node).1.kept stepped,
              (begun node).2.kept (begun node).1 scheduled stepped⟩
          · rw [Function.update_of_ne apart]
            exact begun node
        · cases taken
  intro before a state isPrefix reached
  have isPrefix' : before <+: actions := (List.prefix_append before [a]).trans isPrefix
  have meets := among before a state isPrefix reached
  cases a with
  | service action => trivial
  | advance node task => exact (begun before state isPrefix' reached node).2.orderly meets

section Turns
open ShardLayout

def turnsRun : List (LockedAction pair) :=
  askTwice ++ .replicate 8 (.advance secondNode (.inference secondAsk)) ++ answerUpload

theorem turnsRun_orderly : EveryStep (step .zeros)
    (empty : LockedService pair LockedTier.sampleParts) turnsRun Orderly :=
  have scheduled : ∀ a ∈ turnsRun, scheduledAmong [firstAsk, secondAsk] [install] a := by decide
  orderly_of_among scheduled (by decide +kernel)

theorem turnsRun_refines :
    ∃ (s : LockedService pair LockedTier.sampleParts) (replica : pair.Node → Replica _),
      exec (step .zeros) empty turnsRun = some s ∧
      exec (Service.step .zeros) Service.empty (emitted (step .zeros) countsAs
        (empty : LockedService pair LockedTier.sampleParts) turnsRun) =
          some (s.around replica) ∧
      (replica secondNode).calls.find firstAsk = some (.returned (.ok ⟨"rose", some 1⟩)) ∧
      (replica secondNode).calls.find secondAsk = some (.returned (.ok ⟨"tulip", some 1⟩)) := by
  obtain ⟨replica, runs, nodes⟩ :=
    orderly_service_refines .zeros turnsRun _ rfl turnsRun_orderly
  obtain ⟨-, answers, -⟩ := nodes secondNode
  exact ⟨_, replica, rfl, runs, answers firstAsk _ rfl, answers secondAsk _ rfl⟩

end Turns

end LockedService
end SospDemo
