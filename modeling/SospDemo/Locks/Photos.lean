import SospDemo.Locks.Exclusion

namespace SospDemo
open Buffers
variable {Engine Input Output Exn : Type} {parts : EngineParts Engine Input Output Exn}

namespace LockedTier
variable {s next : LockedTier parts} {call : InferenceCall}

/-- No photo is put before an engine that still has the photo of another call before it. -/
def PhotosAlone (s : LockedTier parts) : Task → Prop
  | .inference call =>
      match s.inferences call with
      | .copy _ engine => ∀ other, other ≠ call → (s.inferences other).running ≠ some engine
      | _ => True
  | .ordered _ => True

def Own (s : LockedTier parts) (photo : Photo) : InferencePc Exn → Prop
  | .forward _ engine => ∃ object input, s.object engine = some object ∧
      parts.decode photo = .ok input ∧ object.data = some input
  | .read _ engine => ∃ object input output, s.object engine = some object ∧
      parts.decode photo = .ok input ∧ parts.forward object.engine.engine input = .ok output ∧
      object.outputs = some output
  | _ => True

structure Tracked (s : LockedTier parts) : Prop where
  own : ∀ call, s.Own call.photo (s.inferences call)
  alone : ∀ call other engine, (s.inferences call).running = some engine →
    (s.inferences other).running = some engine → other = call

theorem own_of_idle {photo : Photo} {pc : InferencePc Exn} (idle : pc.running = none) :
    s.Own photo pc := by
  cases pc with
  | forward path engine => cases idle
  | read path engine => cases idle
  | _ => trivial

theorem Own.frame {photo : Photo} {pc : InferencePc Exn} (own : s.Own photo pc)
    (same : ∀ engine, pc.running = some engine → next.object engine = s.object engine) :
    next.Own photo pc := by
  cases pc with
  | forward path engine => simpa only [Own, same engine rfl] using own
  | read path engine => simpa only [Own, same engine rfl] using own
  | _ => trivial

theorem Safe.cached_of_running (safe : s.Safe) {engine : Nat}
    (running : (s.inferences call).running = some engine) :
    s.inferenceEngines.find call.tag = some engine ∧ s.holds (.inference call) ≠ .free := by
  have fits := safe.fits call
  cases place : s.inferences call with
  | forward path p | read path p =>
      rw [place] at running fits
      cases running
      refine ⟨fits.1, ?_⟩
      rw [holds, place]
      cases path <;> simp [InferencePc.holds, Path.hold]
  | _ => simp [place, InferencePc.running] at running

theorem tracked_goto (tracked : s.Tracked) {t : InferenceCall} {pc : InferencePc Exn}
    (moved : next.inferences = Function.update s.inferences t pc) (own : next.Own t.photo pc)
    (frame : ∀ u engine, u ≠ t → (s.inferences u).running = some engine →
      next.object engine = s.object engine ∧ pc.running ≠ some engine) : next.Tracked := by
  refine ⟨fun u => ?_, fun u v engine runs runs' => ?_⟩
  · rw [moved]
    rcases eq_or_ne u t with rfl | apart
    · rwa [Function.update_self]
    · rw [Function.update_of_ne apart]
      exact (tracked.own u).frame fun engine runs => (frame u engine apart runs).1
  · rw [moved] at runs runs'
    rcases eq_or_ne u t with rfl | apart <;> rcases eq_or_ne v u with rfl | apart'
    · rfl
    · rw [Function.update_self] at runs
      rw [Function.update_of_ne apart'] at runs'
      exact absurd runs (frame v engine apart' runs').2
    · rfl
    · rw [Function.update_of_ne apart] at runs
      rcases eq_or_ne v t with rfl | apart''
      · rw [Function.update_self] at runs'
        exact absurd runs' (frame u engine apart runs).2
      · rw [Function.update_of_ne apart''] at runs'
        exact tracked.alone u v engine runs runs'

theorem Tracked.kept_writes (tracked : s.Tracked) (safe : s.Safe) {pc : InferencePc Exn}
    {engine : Nat} {object : EngineObject parts}
    (cached : s.inferenceEngines.find call.tag = some engine) (runs : pc.running = some engine)
    (own : ∀ next : LockedTier parts, next.object engine = some object → next.Own call.photo pc)
    (free : ∀ u, u ≠ call → (s.inferences u).running ≠ some engine) :
    Tracked { s.goto call pc with memory := s.memory.write engine [object] } := by
  obtain ⟨old, live, -⟩ := safe.object_of_cached cached
  refine tracked_goto tracked rfl (own _ (object_eq_some (Memory.buffer_write_self live _)))
    fun u p apart running => ?_
  have other : p ≠ engine := by
    rintro rfl
    exact free u apart running
  refine ⟨?_, fun same => other (Option.some.inj (same.symm.trans runs))⟩
  rw [LockedTier.object, LockedTier.object, Memory.buffer_write_of_ne _ other]

theorem Tracked.kept (tracked : s.Tracked) (safe : s.Safe) {t : Task} (alone : s.PhotosAlone t)
    (taken : s.step t = some next) : next.Tracked := by
  cases safe.effect taken with
  | moves pc mutex rawModels held unstored idle fits reads =>
      refine tracked_goto tracked rfl (own_of_idle idle) fun u engine _ _ => ⟨rfl, ?_⟩
      simp [idle]
  | builds engine rawModels place reads =>
      refine tracked_goto tracked rfl trivial fun u p _ runs => ⟨?_, by simp [InferencePc.running]⟩
      obtain ⟨object, live, found⟩ := safe.object_of_cached (safe.cached_of_running runs).1
      rw [found]
      exact object_eq_some (Memory.buffer_alloc_of_live live)
  | @assigns call engine place =>
      have exclusive : s.holds (.inference call) = .exclusive := by rw [holds, place]; rfl
      refine tracked_goto tracked rfl trivial fun u p apart runs => ?_
      have same := safe.mutex.alone exclusive (u := .inference u) (safe.cached_of_running runs).2
      exact absurd (Task.inference.inj same) apart
  | @copies call path engine object input place cached found decoded =>
      simp only [PhotosAlone, place] at alone
      exact tracked.kept_writes safe cached rfl
        (fun next written => ⟨_, input, written, decoded, rfl⟩) alone
  | @computes call path engine built input outputs output place cached found computed =>
      have own := tracked.own call
      rw [place] at own
      obtain ⟨object, input', found', decoded, data⟩ := own
      obtain rfl := Option.some.inj (found.symm.trans found')
      obtain rfl : input = input' := Option.some.inj data
      have runs : (s.inferences call).running = some engine := by rw [place]; rfl
      exact tracked.kept_writes safe cached rfl
        (fun next written => ⟨_, input, output, written, decoded, computed, rfl⟩)
        fun u apart runs' => apart (tracked.alone call u engine runs runs')
  | movesOrdered pc mutex rawModels held own fits =>
      exact ⟨fun u => (tracked.own u).frame fun _ _ => rfl, tracked.alone⟩
  | @erases call engine place cached =>
      have exclusive : s.holds (.ordered call) = .exclusive := by rw [holds, place]; rfl
      refine ⟨fun u => (tracked.own u).frame fun p runs => ?_, tracked.alone⟩
      have same := safe.mutex.alone exclusive (u := .inference u) (safe.cached_of_running runs).2
      cases same

theorem tracked_constructed (rawModels : StdMap UInt32 Model) :
    (constructed rawModels : LockedTier parts).Tracked := by
  refine ⟨fun _ => trivial, ?_⟩
  intro call other engine runs
  cases runs

end LockedTier
end SospDemo
