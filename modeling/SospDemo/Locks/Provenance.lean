import SospDemo.Locks.Origins
import SospDemo.Locks.ServiceRefinement
import SospDemo.Service.Sources

namespace SospDemo
open Runs
variable {Engine Input Output Exn : Type} {L : ShardLayout}

namespace LockedTier
variable {parts : EngineParts Engine Input Output Exn} {s next : LockedTier parts}

theorem Safe.called_before (safe : s.Safe) {t u : Task} (taken : s.step t = some next)
    (called : next.Called u) : u = t ∨ s.Called u := by
  refine or_iff_not_imp_left.mpr fun apart => ?_
  cases u with
  | inference call => rwa [Called, safe.inferences_kept taken apart] at called
  | ordered call => rwa [Called, safe.ordered_kept taken apart] at called

end LockedTier

namespace LockedService
variable {parts : EngineParts Engine Input Output Exn} {s next : LockedService L parts}
  {good : UInt32 → Model → Prop} {asked : InferenceCall → Prop} {heap : Allocator}

structure Sourced (s : LockedService L parts) (good : UInt32 → Model → Prop)
    (asked : InferenceCall → Prop) : Prop where
  requested : (s.around fun _ => .empty).Requested good asked
  called : ∀ node t, (s.node node).Called t → LockedTier.Brings good asked t
  safe : ∀ node, (s.node node).Safe
  traced : ∀ node, (s.node node).Traced good asked

theorem sourced_empty : (empty : LockedService L parts).Sourced good asked where
  requested := Service.requested_empty
  called node t called := by cases t <;> exact absurd rfl called
  safe _ := LockedTier.safe_constructed _
  traced _ := LockedTier.traced_constructed (StdMap.all_empty good)

theorem Sourced.brings (sourced : s.Sourced good asked) {node : L.Node} {t : Task}
    (allowed : s.allows node t) : LockedTier.Brings good asked t := by
  cases t with
  | inference call =>
      simp only [allows, Bool.or_eq_true, List.contains_iff_mem] at allowed
      rcases allowed with begun | mem
      · refine sourced.called node (.inference call) fun outside => ?_
        simp [outside, InferencePc.begun] at begun
      · exact sourced.requested.asked _ mem
  | ordered call =>
      simp only [allows, ne_eq, Bool.or_eq_true, decide_eq_true_eq, Bool.and_eq_true,
        List.contains_iff_mem] at allowed
      rcases allowed with begun | ⟨mem, -⟩
      · exact sourced.called node (.ordered call) begun
      · exact sourced.requested.logged node.1 call mem

theorem Requested.service (requested : (s.around fun _ => .empty).Requested good asked)
    {a : ServiceAction L} (brings : a.Brings good asked)
    (taken : s.step heap (.service a) = some next) :
    (next.around fun _ => .empty).Requested good asked := by
  by_cases collects : ∃ shard call, a = .collect shard call
  · obtain ⟨shard, call, rfl⟩ := collects
    obtain ⟨replies, -, rfl⟩ := Option.map_eq_some_iff.mp taken
    exact { requested with }
  · exact requested.step brings
      (around_service _ (fun shard call same => collects ⟨shard, call, same⟩) taken)

def Brings (good : UInt32 → Model → Prop) (asked : InferenceCall → Prop) : LockedAction L → Prop
  | .service action => action.Brings good asked
  | .advance .. => True

theorem Sourced.step (sourced : s.Sourced good asked) (empty : ∀ tag, good tag default)
    {a : LockedAction L} (brings : Brings good asked a) (taken : s.step heap a = some next) :
    next.Sourced good asked := by
  cases a with
  | service action =>
      have nodes := (elsewhere_of_service taken).nodes
      refine ⟨Requested.service sourced.requested brings taken, ?_, ?_, ?_⟩ <;> rw [nodes]
      · exact sourced.called
      · exact sourced.safe
      · exact sourced.traced
  | advance node t =>
      simp only [LockedService.step] at taken
      split at taken
      · rename_i allowed
        obtain ⟨n, stepped, rfl⟩ := Option.map_eq_some_iff.mp taken
        have bring := sourced.brings allowed
        have safe := sourced.safe node
        refine ⟨{ sourced.requested with }, fun other u => ?_, fun other => ?_, fun other => ?_⟩ <;>
          simp only [setNode] <;> rcases eq_or_ne other node with rfl | apart
        · rw [Function.update_self]
          intro called
          rcases safe.called_before stepped called with rfl | before
          · exact bring
          · exact sourced.called _ u before
        · rw [Function.update_of_ne apart]
          exact sourced.called other u
        · rw [Function.update_self]
          exact safe.kept stepped
        · rw [Function.update_of_ne apart]
          exact sourced.safe other
        · rw [Function.update_self]
          exact (sourced.traced _).kept safe empty bring stepped
        · rw [Function.update_of_ne apart]
          exact sourced.traced other
      · cases taken

/-! ## Answers -/

def Answers (s : LockedService L parts) (good : UInt32 → Model → Prop)
    (photos : InferenceCall → Photo → Prop) : Prop :=
  ∀ node, (s.node node).Answers good photos

theorem Answers.step {photos : InferenceCall → Photo → Prop} (answers : s.Answers good photos)
    (sourced : s.Sourced good asked) (own : ∀ call, asked call → photos call call.photo)
    (seen : ∀ node call, (s.node node).Shows (photos call) ((s.node node).inferences call))
    {a : LockedAction L} (taken : s.step heap a = some next) : next.Answers good photos := by
  intro node
  cases a with
  | service action =>
      rw [(elsewhere_of_service taken).nodes]
      exact answers node
  | advance other t =>
      simp only [LockedService.step] at taken
      split at taken
      · rename_i allowed
        obtain ⟨n, stepped, rfl⟩ := Option.map_eq_some_iff.mp taken
        have bring := sourced.brings allowed
        simp only [setNode]
        rcases eq_or_ne node other with rfl | apart
        · rw [Function.update_self]
          refine (answers node).kept (sourced.safe node) (sourced.traced node) ?_ (seen node) stepped
          rintro call rfl
          exact own call bring
        · rw [Function.update_of_ne apart]
          exact answers node
      · cases taken

def PhotosAlone (s : LockedService L parts) : LockedAction L → Prop
  | .advance node task => (s.node node).PhotosAlone task
  | .service _ => True

variable {actions : List (LockedAction L)}

theorem Orderly.photosAlone {a : LockedAction L} (orderly : s.Orderly a) : s.PhotosAlone a := by
  cases a with
  | service action => trivial
  | advance node t => exact LockedTier.Orderly.photos orderly

end LockedService
end SospDemo
