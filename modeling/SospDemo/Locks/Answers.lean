import SospDemo.Locks.ServiceRefinement
import SospDemo.Service.Answers

namespace SospDemo
open Linearizability Runs
variable {Engine Input Output Exn : Type} {L : ShardLayout}

def InferencePc.loading : InferencePc Exn → Bool
  | .unlockMissed | .build | .lock _ | .assign _ => true
  | _ => false

namespace LockedTier
variable {parts : EngineParts Engine Input Output Exn} {s : LockedTier parts}

def LoadsUndisturbed (s : LockedTier parts) : Task → Prop
  | .ordered ⟨id, .orderedRemoveModel tag⟩ =>
      s.takesEffect ⟨id, .orderedRemoveModel tag⟩ →
        ∀ call : InferenceCall, call.tag = tag → (s.inferences call).loading = false
  | _ => True

theorem loading_phase {call : InferenceCall} {phase : Phase parts.api}
    (stage : s.phase call = some phase) (idle : (s.inferences call).loading = false) :
    phase.loading = false := by
  unfold LockedTier.phase at stage
  cases place : s.inferences call with
  | unlockMissed | build | lock engine | assign engine => simp [place, InferencePc.loading] at idle
  | subscript path | copy path engine | forward path engine | read path engine =>
      simp only [place, Option.map_eq_some_iff] at stage
      obtain ⟨object, -, rfl⟩ := stage
      rfl
  | unlock path outcome | answered outcome =>
      simp only [place, Option.some.injEq] at stage
      exact stage ▸ rfl
  | outside | lockShared | findEngine | findModel | undefined => simp [place] at stage

theorem StandsFor.undisturbed {r : Replica parts.api} (stands : s.StandsFor r) {call : OrderedCall}
    (takes : s.takesEffect call) (undisturbed : s.LoadsUndisturbed (.ordered call)) :
    r.LoadsUndisturbed (.deliver call) := by
  obtain ⟨id, op⟩ := call
  cases op with
  | orderedInstallModel => trivial
  | orderedRemoveModel tag =>
      intro call phase same found
      rw [stands.calls] at found
      exact loading_phase found (undisturbed takes call same)

end LockedTier

namespace LockedService
variable {parts : EngineParts Engine Input Output Exn} {s next : LockedService L parts}
  {replica : L.Node → Replica parts.api} {heap : Allocator}

def LoadsUndisturbed (s : LockedService L parts) : LockedAction L → Prop
  | .advance node task => (s.node node).LoadsUndisturbed task
  | .service _ => True

theorem StandsFor.undisturbed (stands : s.StandsFor replica) {a : LockedAction L}
    (undisturbed : s.LoadsUndisturbed a) (taken : s.step heap a = some next) :
    EveryStep (Service.step heap) (s.around replica) (s.countsAs a) Service.LoadsUndisturbed := by
  have once {action : ServiceAction L} (waits : (s.around replica).LoadsUndisturbed action) :
      EveryStep (Service.step heap) (s.around replica) [action] Service.LoadsUndisturbed :=
    (everyStep_cons _ _ _).mpr ⟨waits, fun _ _ => everyStep_nil _⟩
  cases a with
  | service action =>
      cases action with
      | serve => cases taken
      | installModel | removeModel | whatsthis | order | collect | respond => exact once trivial
  | advance node t =>
      rw [countsAs]
      rcases countsAs_cases (s.node node) t with
        nothing | ⟨call, action, -, -, one, kind⟩ | ⟨call, rfl, takes, one⟩
      · rw [nothing]
        exact everyStep_nil _
      · rw [one]
        rcases kind with rfl | rfl | rfl <;> exact once trivial
      · rw [one]
        exact once ((stands.nodes node).undisturbed takes undisturbed)

theorem undisturbed_refines (stands : s.StandsFor replica) {actions : List (LockedAction L)}
    (orderly : EveryStep (step heap) s actions Orderly)
    (undisturbed : EveryStep (step heap) s actions LoadsUndisturbed)
    (run : exec (step heap) s actions = some next) :
    ∃ replica', exec (Service.step heap) (s.around replica)
        (emitted (step heap) countsAs s actions) = some (next.around replica') ∧
      EveryStep (Service.step heap) (s.around replica) (emitted (step heap) countsAs s actions)
        Service.LoadsUndisturbed ∧ next.StandsFor replica' := by
  obtain ⟨_, runs, undisturbedThere, replica', rfl, stands'⟩ :=
    exec_refines_meeting (D := Service.LoadsUndisturbed) countsAs
      (fun s u => ∃ replica, u = s.around replica ∧ s.StandsFor replica)
      (fun s u a next ⟨replica, same, stands⟩ ⟨orderly, undisturbed⟩ taken => by
        subst same
        obtain ⟨replica', runs, stands'⟩ := stands.step orderly taken
        exact ⟨_, runs, stands.undisturbed undisturbed taken, replica', rfl, stands'⟩)
      ⟨replica, rfl, stands⟩ (orderly.and undisturbed) run
  exact ⟨replica', runs, undisturbedThere, stands'⟩

theorem inferences_answer_from_order (heap : Allocator) (before after : List (LockedAction L))
    (s₀ s : LockedService L parts) (run₀ : exec (step heap) empty before = some s₀)
    (run : exec (step heap) s₀ after = some s)
    (orderly : EveryStep (step heap) (empty : LockedService L parts) (before ++ after) Orderly)
    (undisturbed : EveryStep (step heap) (empty : LockedService L parts) (before ++ after)
      LoadsUndisturbed)
    (node : L.Node) (call : InferenceCall) (outcome : Outcome Exn)
    (starts : (s₀.node node).inferences call = .outside)
    (answered : (s.node node).inferences call = .answered outcome) :
    ∃ seen, seen <+: s.log (L.shardOf call.tag) ∧
      (∀ op ret, .respond op ret ∈ s₀.history → op.tag = call.tag → op ∈ seen) ∧
      CategorizerTier.AnswersAfter parts.api seen call.photo outcome := by
  obtain ⟨replica₀, runs₀, undisturbed₀, stands₀⟩ :=
    undisturbed_refines standsFor_empty (orderly.of_prefix (List.prefix_append _ _))
      (undisturbed.of_prefix (List.prefix_append _ _)) run₀
  obtain ⟨replica, runs, undisturbedAfter, stands⟩ :=
    undisturbed_refines stands₀ (orderly.of_append run₀) (undisturbed.of_append run₀) run
  refine Service.answers_from_order heap _ _ _ _ (undisturbed₀.append runs₀ undisturbedAfter) runs₀
    runs node call outcome ?_ ?_
  · exact ((stands₀.nodes node).calls call).trans (by rw [LockedTier.phase, starts])
  · exact ((stands.nodes node).calls call).trans (by rw [LockedTier.phase, answered])

/-! ## A run on fixed inputs -/

def removes : LockedAction L → Bool
  | .advance _ (.ordered ⟨_, .orderedRemoveModel _⟩) => true
  | _ => false

theorem undisturbed_of_no_removal {a : LockedAction L} (none : removes a = false)
    (s : LockedService L parts) : s.LoadsUndisturbed a := by
  unfold removes at none
  split at none
  · cases none
  · rename_i other
    cases a with
    | service action => trivial
    | advance node t =>
        cases t with
        | inference call => trivial
        | ordered call =>
            obtain ⟨id, op⟩ := call
            cases op with
            | orderedInstallModel => trivial
            | orderedRemoveModel tag => exact absurd rfl (other node id tag)

section Told
open ShardLayout

def toldRun : List (LockedAction pair) :=
  [.service (.installModel 0 0 [.metadata ⟨7, 1, 0, 0⟩, .fileData [114]]),
    .service (.order firstNode install)] ++
  .replicate 3 (.advance secondNode (.ordered install)) ++
  .replicate 3 (.advance firstNode (.ordered install)) ++ answerUpload

def askAfterwards : List (LockedAction pair) :=
  .service (.whatsthis 0 1 [.metadata ⟨1, [7]⟩, .fileData [1]]) ::
    .replicate 13 (.advance secondNode (.inference firstAsk))

theorem askAfterwards_answered :
    ∃ (s₀ s : LockedService pair LockedTier.sampleParts) (seen : List OrderedCall),
      exec (step .zeros) empty toldRun = some s₀ ∧ exec (step .zeros) s₀ askAfterwards = some s ∧
      (s.node secondNode).inferences firstAsk = .answered (.ok ⟨"rose", some 1⟩) ∧
      install ∈ seen ∧
      CategorizerTier.AnswersAfter LockedTier.sampleParts.api seen firstAsk.photo
        (.ok ⟨"rose", some 1⟩) := by
  have scheduled : ∀ a ∈ toldRun ++ askAfterwards, scheduledAmong [firstAsk] [install] a := by
    decide
  have noRemoval : ∀ a ∈ toldRun ++ askAfterwards, removes a = false := by decide
  obtain ⟨seen, -, told, answers⟩ :=
    inferences_answer_from_order .zeros toldRun askAfterwards
      (_ : LockedService pair LockedTier.sampleParts) _ rfl rfl
      (orderly_of_among scheduled (by decide +kernel))
      (fun before a s isPrefix _ =>
        undisturbed_of_no_removal (noRemoval a (isPrefix.subset (by simp))) s)
      secondNode firstAsk (.ok ⟨"rose", some 1⟩) rfl rfl
  exact ⟨_, _, seen, rfl, rfl, rfl, told install 0 (by decide +kernel) rfl, answers⟩

end Told

end LockedService
end SospDemo
