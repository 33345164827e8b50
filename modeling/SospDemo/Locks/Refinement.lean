import SospDemo.Locks.OrderedCalls
import SospDemo.Locks.Photos

/-!
# What the mutex makes atomic

A replica takes a whole ordered call for one step, and an inference for the few between which it
holds no lock. The mutex alone does not give that: two calls that find an engine run it at the
same time, a removal takes the model away before the engine, and `raw_models[tag]` may come between
the search of an ordered call and its change. A run in which none of these happens is a run of the
replica.
-/

namespace SospDemo
open Buffers Runs
variable {Engine Input Output Exn : Type} {parts : EngineParts Engine Input Output Exn}

namespace LockedTier
variable {s next : LockedTier parts} {call : InferenceCall}

/-- A removal has taken the model away and not yet the engine. -/
def Removing (s : LockedTier parts) (tag : UInt32) : Prop :=
  ∃ call : OrderedCall, call.tag = tag ∧ (s.ordered call = .lock ∨ s.ordered call = .erase)

/-- No engine is taken from or put into `inference_engines` while its model is being removed, and no
empty model is put into `raw_models` where an ordered call has found none and not yet changed it. -/
def ModelsWhole (s : LockedTier parts) : Task → Prop
  | .inference call =>
      match s.inferences call with
      | .findEngine => s.Removing call.tag → s.inferenceEngines.find call.tag = none
      | .assign _ => ¬ s.Removing call.tag
      | .build => s.rawModels.find call.tag = none →
          ∀ other : OrderedCall, other.tag = call.tag → s.ordered other ≠ .change
      | _ => True
  | .ordered _ => True

structure Orderly (s : LockedTier parts) (t : Task) : Prop where
  photos : s.PhotosAlone t
  models : s.ModelsWhole t

/-! ## The replica a state stands for -/

def engineAt (s : LockedTier parts) (engine : Nat) : Option (InferenceEngine parts.api) :=
  (s.object engine).map EngineObject.engine

def cachedEngine (s : LockedTier parts) (tag : UInt32) : Option (InferenceEngine parts.api) :=
  (s.inferenceEngines.find tag).bind s.engineAt

/-- An inference counts as answered once it has its engine. -/
def phase (s : LockedTier parts) (call : InferenceCall) : Option (Phase parts.api) :=
  match s.inferences call with
  | .outside | .lockShared | .findEngine | .findModel | .undefined => none
  | .unlockMissed | .build => some .missed
  | .lock engine | .assign engine => (s.engineAt engine).map .built
  | .subscript path =>
      (s.cachedEngine call.tag).map fun e => .returned (path.outcome (e.inference call.photo))
  | .copy path engine | .forward path engine | .read path engine =>
      (s.engineAt engine).map fun e => .returned (path.outcome (e.inference call.photo))
  | .unlock path outcome => some (.returned (path.outcome outcome))
  | .answered outcome => some (.returned outcome)

structure StandsFor (s : LockedTier parts) (r : Replica parts.api) : Prop where
  rawModels : r.tier.rawModels = s.rawModels
  removed : ∀ tag, s.Removing tag → r.tier.inferenceEngines.find tag = none
  engines : ∀ tag, ¬ s.Removing tag → r.tier.inferenceEngines.find tag = s.cachedEngine tag
  calls : ∀ call, r.calls.find call = s.phase call
  delivered : ∀ call code, (call, code) ∈ r.delivered ↔ s.code call = some code

def countsAs (s : LockedTier parts) : Task → List ReplicaAction
  | .inference call =>
      match s.inferences call with
      | .findEngine =>
          match s.inferenceEngines.find call.tag with
          | some _ => [.lookup call]
          | none => []
      | .findModel => [.lookup call]
      | .build => [.build call]
      | .assign _ => [.store call]
      | _ => []
  | .ordered call => if s.takesEffect call then [.deliver call] else []

/-! ## Frames -/

@[simp] theorem inferences_goto (s : LockedTier parts) (call : InferenceCall)
    (pc : InferencePc Exn) : (s.goto call pc).inferences call = pc := by
  simp [goto]

theorem Safe.engines_kept (safe : s.Safe) {t : Task} (taken : s.step t = some next)
    (quiet : ¬ s.Changes t) : next.inferenceEngines = s.inferenceEngines := by
  cases safe.effect taken with
  | assigns engine place => exact absurd ⟨engine, place⟩ quiet
  | erases engine place cached => exact absurd place quiet
  | moves | builds | copies | computes | movesOrdered => rfl

theorem engineAt_of_object {engine : Nat} (same : next.object engine = s.object engine) :
    next.engineAt engine = s.engineAt engine := by
  rw [engineAt, same, engineAt]

theorem engineAt_of_write {engine other : Nat} {old new : EngineObject parts} (safe : s.Safe)
    (cached : s.inferenceEngines.find call.tag = some engine) (found : s.object engine = some old)
    (written : next.memory = s.memory.write engine [new]) (same : new.engine = old.engine) :
    next.engineAt other = s.engineAt other := by
  by_cases here : other = engine
  · subst here
    obtain ⟨object, live, -⟩ := safe.object_of_cached cached
    rw [engineAt, engineAt, found, LockedTier.object, written, Memory.buffer_write_self live]
    exact congrArg some same
  · refine engineAt_of_object ?_
    rw [LockedTier.object, written, Memory.buffer_write_of_ne _ here]
    rfl

theorem Safe.engineAt_kept (safe : s.Safe) {t : Task} (taken : s.step t = some next)
    {v : EngineOwner} {engine : Nat} (owned : s.owns v = some engine)
    (stays : s.Changes t → v ≠ .cached t.tag) : next.engineAt engine = s.engineAt engine := by
  cases safe.effect taken with
  | moves | movesOrdered => rfl
  | builds built rawModels place reads =>
      obtain ⟨object, live, found⟩ := safe.object_of_owns owned
      refine engineAt_of_object ?_
      rw [found]
      exact object_eq_some (Memory.buffer_alloc_of_live live)
  | @assigns call built place =>
      cases cached : s.inferenceEngines.find call.tag with
      | none =>
          refine engineAt_of_object ?_
          simp only [LockedTier.object, assign, cached]
      | some old =>
          refine engineAt_of_object (safe.object_of_free owned cached (stays ⟨built, place⟩) ?_)
          simp only [assign, cached]
  | copies path p object input place cached found decoded =>
      exact engineAt_of_write safe cached found rfl rfl
  | computes path p built input outputs output place cached found computed =>
      exact engineAt_of_write safe cached found rfl rfl
  | erases old place cached =>
      exact engineAt_of_object (safe.object_of_free owned cached (stays place) rfl)

theorem Safe.cachedEngine_kept (safe : s.Safe) {t : Task} (taken : s.step t = some next)
    (quiet : ¬ s.Changes t) (tag : UInt32) : next.cachedEngine tag = s.cachedEngine tag := by
  rw [cachedEngine, cachedEngine, safe.engines_kept taken quiet]
  cases cached : s.inferenceEngines.find tag with
  | none => rfl
  | some engine =>
      exact safe.engineAt_kept taken (v := .cached tag) cached fun changes => absurd changes quiet

theorem Safe.phase_kept (safe : s.Safe) {t : Task} (taken : s.step t = some next)
    (apart : .inference call ≠ t) : next.phase call = s.phase call := by
  have inEngines (inside : (s.inferences call).inEngines) : ¬ s.Changes t := fun changes =>
    apart (safe.mutex.alone (holds_of_changes changes) (holds_of_inEngines inside))
  have fits := safe.fits call
  unfold phase
  rw [safe.inferences_kept taken apart]
  cases place : s.inferences call with
  | lock engine | assign engine =>
      have owned : s.owns (.building call) = some engine := by rw [owns, place]; rfl
      simp only [safe.engineAt_kept taken owned (by simp)]
  | subscript path =>
      have still := inEngines (by rw [place]; rfl)
      simp only [safe.cachedEngine_kept taken still]
  | copy path engine =>
      rw [place] at fits
      have still := inEngines (by rw [place]; rfl)
      have owned : s.owns (.cached call.tag) = some engine := fits
      simp only [safe.engineAt_kept taken owned fun changes => absurd changes still]
  | forward path engine | read path engine =>
      rw [place] at fits
      have still := inEngines (by rw [place]; rfl)
      have owned : s.owns (.cached call.tag) = some engine := fits.1
      simp only [safe.engineAt_kept taken owned fun changes => absurd changes still]
  | _ => rfl

/-! ## Inferences -/

variable {r r' : Replica parts.api}

theorem StandsFor.quiet (stands : StandsFor s r) (safe : s.Safe)
    (taken : s.advance call = some next) (quiet : ¬ s.Changes (.inference call))
    (rawModels : r'.tier.rawModels = next.rawModels)
    (engines : r'.tier.inferenceEngines = r.tier.inferenceEngines)
    (calls : r'.calls = r.calls.put call (next.phase call))
    (delivered : r'.delivered = r.delivered) : StandsFor next r' := by
  have ordered : next.ordered = s.ordered :=
    funext fun other => safe.ordered_kept (t := .inference call) taken (by simp)
  have removing (tag : UInt32) : next.Removing tag ↔ s.Removing tag := by
    rw [Removing, Removing, ordered]
  refine ⟨rawModels, fun tag gone => ?_, fun tag stays => ?_, fun other => ?_, fun other _ => ?_⟩
  · rw [engines]
    exact stands.removed tag ((removing tag).mp gone)
  · rw [engines, safe.cachedEngine_kept (t := .inference call) taken quiet]
    exact stands.engines tag fun gone => stays ((removing tag).mpr gone)
  · rw [calls, StdMap.find_put]
    split
    · rename_i same
      rw [same]
    · rename_i apart
      rw [stands.calls, safe.phase_kept (t := .inference call) taken (by simp [apart])]
  · rw [delivered, stands.delivered, code, code, ordered]

theorem StandsFor.silent (stands : StandsFor s r) (safe : s.Safe)
    (taken : s.advance call = some next) (quiet : ¬ s.Changes (.inference call))
    (nothing : s.countsAs (.inference call) = []) (rawModels : next.rawModels = s.rawModels)
    (same : next.phase call = s.phase call) :
    ∃ r', exec Replica.step r (s.countsAs (.inference call)) = some r' ∧ StandsFor next r' := by
  refine ⟨r, by rw [nothing, exec_nil], stands.quiet safe taken quiet ?_ rfl ?_ rfl⟩
  · rw [stands.rawModels, rawModels]
  · rw [same, ← stands.calls, StdMap.put_find]

theorem StandsFor.found (stands : StandsFor s r) {tag : UInt32}
    (orderly : s.Removing tag → s.inferenceEngines.find tag = none) :
    r.tier.inferenceEngines.find tag = s.cachedEngine tag := by
  by_cases gone : s.Removing tag
  · rw [stands.removed tag gone, cachedEngine, orderly gone]
    rfl
  · exact stands.engines tag gone

theorem StandsFor.lookup (stands : StandsFor s r) (safe : s.Safe)
    (taken : s.advance call = some next) (quiet : ¬ s.Changes (.inference call))
    (counts : s.countsAs (.inference call) = [.lookup call]) (rawModels : next.rawModels = s.rawModels)
    (before : s.phase call = none)
    (after : next.phase call = some (.afterLookup (r.tier.lookup call.photo))) :
    ∃ r', exec Replica.step r (s.countsAs (.inference call)) = some r' ∧ StandsFor next r' := by
  refine ⟨{ r with calls := r.calls.assign call (.afterLookup (r.tier.lookup call.photo)) }, ?_,
    stands.quiet safe taken quiet ?_ rfl ?_ rfl⟩
  · rw [counts, exec_singleton, Replica.step_lookup, stands.calls]
    exact ⟨before, rfl⟩
  · rw [rawModels]
    exact stands.rawModels
  · rw [after, StdMap.put_some]

theorem StandsFor.lookup_hit (stands : StandsFor s r) (safe : s.Safe)
    (place : s.inferences call = .findEngine) (whole : s.ModelsWhole (.inference call))
    {engine : Nat} (cached : s.inferenceEngines.find call.tag = some engine) :
    ∃ r', exec Replica.step r (s.countsAs (.inference call)) = some r' ∧
      StandsFor (s.goto call (.subscript .hit)) r' := by
  have taken : s.advance call = some (s.goto call (.subscript .hit)) := by
    simp [advance, place, cached]
  obtain ⟨object, -, found⟩ := safe.object_of_cached cached
  have holds : s.cachedEngine call.tag = some object.engine := by
    simp [cachedEngine, cached, engineAt, found]
  simp only [ModelsWhole, place] at whole
  have inReplica := (stands.found whole).trans holds
  refine stands.lookup safe taken (by simp [Changes, place]) (by simp [countsAs, place, cached]) rfl
    (by simp [phase, place]) ?_
  have here : (s.goto call (.subscript .hit)).cachedEngine call.tag = some object.engine := holds
  rw [CategorizerTier.lookup_of_cached inReplica]
  simp only [phase, inferences_goto, here, Option.map_some]
  rfl

theorem StandsFor.lookup_miss (stands : StandsFor s r) (safe : s.Safe)
    (place : s.inferences call = .findModel) (taken : s.advance call = some next) :
    ∃ r', exec Replica.step r (s.countsAs (.inference call)) = some r' ∧ StandsFor next r' := by
  have uncached : s.inferenceEngines.find call.tag = none := by
    simpa [place, Fits] using safe.fits call
  have inReplica : r.tier.inferenceEngines.find call.tag = none := by
    rw [stands.found fun _ => uncached, cachedEngine, uncached]
    rfl
  have nothing : s.phase call = none := by simp [phase, place]
  have quiet : ¬ s.Changes (.inference call) := by simp [Changes, place]
  have counts : s.countsAs (.inference call) = [.lookup call] := by simp [countsAs, place]
  have moved := taken
  simp only [advance, place] at taken
  cases installed : s.rawModels.find call.tag with
  | none =>
      simp only [installed, Option.some.injEq] at taken
      subst taken
      refine stands.lookup safe moved quiet counts rfl nothing ?_
      rw [CategorizerTier.lookup_of_unbound inReplica (stands.rawModels ▸ installed)]
      simp [phase, goto, Phase.afterLookup, Path.outcome]
  | some model =>
      simp only [installed, Option.some.injEq] at taken
      subst taken
      refine stands.lookup safe moved quiet counts rfl nothing ?_
      rw [CategorizerTier.lookup_of_uncached inReplica (stands.rawModels ▸ installed)]
      simp [phase, goto, Phase.afterLookup]

theorem StandsFor.build (stands : StandsFor s r) (safe : s.Safe)
    (place : s.inferences call = .build) :
    ∃ r', exec Replica.step r (s.countsAs (.inference call)) = some r' ∧
      StandsFor (s.build call) r' := by
  have taken : s.advance call = some (s.build call) := by simp [advance, place]
  have missed : r.calls.find call = some .missed := by rw [stands.calls, phase, place]
  refine ⟨⟨(r.tier.build call.photo).1,
      r.calls.assign call (.afterBuild (r.tier.build call.photo).2), r.delivered⟩, ?_,
    stands.quiet safe taken (by simp [Changes, place]) ?_ ?_ ?_ rfl⟩
  · have counts : s.countsAs (.inference call) = [.build call] := by simp [countsAs, place]
    rw [counts, exec_singleton, Replica.step_build]
    exact ⟨missed, rfl⟩
  · simp only [CategorizerTier.build, LockedTier.build, stands.rawModels]
    split <;> rfl
  · rfl
  · rw [← StdMap.put_some]
    simp only [CategorizerTier.build, LockedTier.build, stands.rawModels]
    cases built : InferenceEngine.construct parts.api (s.rawModels.subscript call.tag).2 with
    | error e => simp [phase, goto, Phase.afterBuild]
    | ok engine => simp [phase, goto, Phase.afterBuild, engineAt, LockedTier.object]

theorem StandsFor.assign (stands : StandsFor s r) (safe : s.Safe) {engine : Nat}
    (place : s.inferences call = .assign engine) (whole : s.ModelsWhole (.inference call)) :
    ∃ r', exec Replica.step r (s.countsAs (.inference call)) = some r' ∧
      StandsFor (s.assign call engine) r' := by
  have taken : s.step (.inference call) = some (s.assign call engine) := by
    simp [step, advance, place]
  have owned : s.owns (.building call) = some engine := by rw [owns, place]; rfl
  obtain ⟨object, -, found⟩ := safe.object_of_owns owned
  have engineAt : s.engineAt engine = some object.engine := by rw [LockedTier.engineAt, found]; rfl
  have built : r.calls.find call = some (.built object.engine) := by
    rw [stands.calls, phase, place]
    simp [engineAt]
  have stays : ¬ s.Removing call.tag := by simpa [ModelsWhole, place] using whole
  have cachedEngine : (s.assign call engine).cachedEngine call.tag = some object.engine := by
    rw [LockedTier.cachedEngine]
    simp only [LockedTier.assign, StdMap.find_assign_self, Option.bind_some]
    exact (safe.engineAt_kept taken owned (by simp)).trans engineAt
  have answered : (s.assign call engine).phase call =
      some (.returned (r.tier.store object.engine call.photo).2) := by
    have here : (s.assign call engine).inferences call = .subscript .miss := inferences_goto ..
    simp only [phase, here, cachedEngine]
    rfl
  refine ⟨⟨(r.tier.store object.engine call.photo).1,
      r.calls.assign call (.returned (r.tier.store object.engine call.photo).2), r.delivered⟩, ?_,
    stands.rawModels, fun tag gone => ?_, fun tag stays' => ?_, fun other => ?_, stands.delivered⟩
  · have counts : s.countsAs (.inference call) = [.store call] := by simp [countsAs, place]
    rw [counts, exec_singleton, Replica.step_store]
    exact ⟨object.engine, built, rfl⟩
  · have apart : tag ≠ call.tag := by
      rintro rfl
      exact stays gone
    exact (StdMap.find_assign ..).trans ((if_neg apart).trans (stands.removed tag gone))
  · by_cases same : tag = call.tag
    · subst same
      rw [cachedEngine]
      exact StdMap.find_assign_self ..
    · refine (StdMap.find_assign ..).trans ((if_neg same).trans ?_)
      rw [stands.engines tag stays', LockedTier.cachedEngine, LockedTier.cachedEngine]
      simp only [LockedTier.assign, StdMap.find_assign, if_neg same]
      cases cached : s.inferenceEngines.find tag with
      | none => rfl
      | some other =>
          exact (safe.engineAt_kept taken (v := .cached tag) cached fun _ => by
            simpa using same).symm
  · rw [StdMap.find_assign]
    split
    · rename_i same
      subst same
      exact answered.symm
    · rename_i apart
      rw [stands.calls, safe.phase_kept taken (by simp [apart])]

theorem StandsFor.copy (stands : StandsFor s r) (safe : s.Safe) {path : Path} {engine : Nat}
    (place : s.inferences call = .copy path engine) :
    ∃ r', exec Replica.step r (s.countsAs (.inference call)) = some r' ∧
      StandsFor (s.copy call path engine) r' := by
  have taken : s.step (.inference call) = some (s.copy call path engine) := by
    simp [step, advance, place]
  have fits := safe.fits call
  rw [place] at fits
  have cached : s.owns (.cached call.tag) = some engine := fits
  obtain ⟨object, -, found⟩ := safe.object_of_owns cached
  have engineAt : s.engineAt engine = some object.engine := by rw [LockedTier.engineAt, found]; rfl
  have quiet : ¬ s.Changes (.inference call) := by simp [Changes, place]
  have kept := safe.engineAt_kept taken cached fun changes => absurd changes quiet
  have before : s.phase call = some (.returned (path.outcome (object.engine.inference call.photo))) := by
    simp only [phase, place, engineAt, Option.map_some]
  refine stands.silent safe taken quiet (by simp [countsAs, place]) ?_ ?_
  · unfold LockedTier.copy
    split
    · rfl
    · split <;> rfl
  · rw [before]
    simp only [LockedTier.copy, found] at kept ⊢
    cases decoded : parts.decode call.photo with
    | error e =>
        have failed : object.engine.inference call.photo = .error e :=
          EngineParts.classify_of_decode_error decoded
        simp only [phase, inferences_goto, failed]
    | ok input =>
        simp only [decoded] at kept
        simp only [phase, inferences_goto, kept, engineAt, Option.map_some]

theorem StandsFor.forward (stands : StandsFor s r) (safe : s.Safe) (tracked : s.Tracked)
    {path : Path} {engine : Nat} (place : s.inferences call = .forward path engine) :
    ∃ r', exec Replica.step r (s.countsAs (.inference call)) = some r' ∧
      StandsFor (s.forward call path engine) r' := by
  have taken : s.step (.inference call) = some (s.forward call path engine) := by
    simp [step, advance, place]
  have fits := safe.fits call
  have own := tracked.own call
  rw [place] at fits own
  have cached : s.owns (.cached call.tag) = some engine := fits.1
  obtain ⟨⟨built, data, outputs⟩, input, found, decoded, hasData⟩ := own
  obtain rfl : data = some input := hasData
  have engineAt : s.engineAt engine = some built := by rw [LockedTier.engineAt, found]; rfl
  have quiet : ¬ s.Changes (.inference call) := by simp [Changes, place]
  have kept := safe.engineAt_kept taken cached fun changes => absurd changes quiet
  have before : s.phase call = some (.returned (path.outcome (built.inference call.photo))) := by
    simp only [phase, place, engineAt, Option.map_some]
  refine stands.silent safe taken quiet (by simp [countsAs, place]) ?_ ?_
  · simp only [LockedTier.forward, found]
    split <;> rfl
  · rw [before]
    simp only [LockedTier.forward, found] at kept ⊢
    cases computed : parts.forward built.engine input with
    | error e =>
        have failed : built.inference call.photo = .error e :=
          EngineParts.classify_of_forward_error decoded computed
        simp only [phase, inferences_goto, failed]
    | ok output =>
        simp only [computed] at kept
        simp only [phase, inferences_goto, kept, engineAt, Option.map_some]

theorem StandsFor.read (stands : StandsFor s r) (safe : s.Safe) (tracked : s.Tracked)
    {path : Path} {engine : Nat} (place : s.inferences call = .read path engine) :
    ∃ r', exec Replica.step r (s.countsAs (.inference call)) = some r' ∧
      StandsFor (s.read call path engine) r' := by
  have taken : s.advance call = some (s.read call path engine) := by simp [advance, place]
  have own := tracked.own call
  rw [place] at own
  obtain ⟨⟨built, data, outputs⟩, input, output, found, decoded, computed, hasOutputs⟩ := own
  obtain rfl : outputs = some output := hasOutputs
  have engineAt : s.engineAt engine = some built := by rw [LockedTier.engineAt, found]; rfl
  have answer : built.inference call.photo = parts.describe built.engine output :=
    EngineParts.classify_of_forward decoded computed
  refine stands.silent safe taken (by simp [Changes, place]) (by simp [countsAs, place]) ?_ ?_
  · simp only [LockedTier.read, found]
    rfl
  · simp only [LockedTier.read, found, phase, place, inferences_goto, engineAt, Option.map_some,
      answer]

theorem StandsFor.advance (stands : StandsFor s r) (safe : s.Safe) (tracked : s.Tracked)
    (whole : s.ModelsWhole (.inference call)) (taken : s.advance call = some next) :
    ∃ r', exec Replica.step r (s.countsAs (.inference call)) = some r' ∧ StandsFor next r' := by
  have moved := taken
  cases place : s.inferences call with
  | outside | unlockMissed | unlock path outcome =>
      simp only [LockedTier.advance, place, LockedTier.unlock, Option.some.injEq] at taken
      subst taken
      refine stands.silent safe moved (by simp [Changes, place]) (by simp [countsAs, place]) rfl ?_
      simp only [phase, place, inferences_goto]
  | lockShared =>
      simp only [LockedTier.advance, place, Option.map_eq_some_iff] at taken
      obtain ⟨mutex, -, rfl⟩ := taken
      refine stands.silent safe moved (by simp [Changes, place]) (by simp [countsAs, place]) rfl ?_
      simp only [phase, place, inferences_goto]
  | findEngine =>
      simp only [LockedTier.advance, place] at taken
      cases cached : s.inferenceEngines.find call.tag with
      | some engine =>
          simp only [cached, Option.some.injEq] at taken
          subst taken
          exact stands.lookup_hit safe place whole cached
      | none =>
          simp only [cached, Option.some.injEq] at taken
          subst taken
          refine stands.silent safe moved (by simp [Changes, place])
            (by simp [countsAs, place, cached]) rfl ?_
          simp only [phase, place, inferences_goto]
  | findModel => exact stands.lookup_miss safe place taken
  | build =>
      simp only [LockedTier.advance, place, Option.some.injEq] at taken
      subst taken
      exact stands.build safe place
  | lock engine =>
      simp only [LockedTier.advance, place, Option.map_eq_some_iff] at taken
      obtain ⟨mutex, -, rfl⟩ := taken
      refine stands.silent safe moved (by simp [Changes, place]) (by simp [countsAs, place]) rfl ?_
      simp only [phase, place, inferences_goto]
      rfl
  | assign engine =>
      simp only [LockedTier.advance, place, Option.some.injEq] at taken
      subst taken
      exact stands.assign safe place whole
  | subscript path =>
      have fits := safe.fits call
      rw [place] at fits
      obtain ⟨engine, cached⟩ := fits
      simp only [LockedTier.advance, place, cached, Option.some.injEq] at taken
      subst taken
      refine stands.silent safe moved (by simp [Changes, place]) (by simp [countsAs, place]) rfl ?_
      simp only [phase, place, inferences_goto, cachedEngine, cached, Option.bind_some]
      rfl
  | copy path engine =>
      simp only [LockedTier.advance, place, Option.some.injEq] at taken
      subst taken
      exact stands.copy safe place
  | forward path engine =>
      simp only [LockedTier.advance, place, Option.some.injEq] at taken
      subst taken
      exact stands.forward safe tracked place
  | read path engine =>
      simp only [LockedTier.advance, place, Option.some.injEq] at taken
      subst taken
      exact stands.read safe tracked place
  | answered outcome => simp [LockedTier.advance, place] at taken
  | undefined => simp [LockedTier.advance, place] at taken

/-! ## Ordered calls -/

section Ordered
variable {call : OrderedCall} {pc : OrderedPc}

theorem removing_of_update (moved : next.ordered = Function.update s.ordered call pc)
    {tag : UInt32} (apart : tag ≠ call.tag) : next.Removing tag ↔ s.Removing tag := by
  rw [Removing, Removing, moved]
  refine exists_congr fun other => and_congr_right fun same => ?_
  have different : other ≠ call := by
    rintro rfl
    exact apart same.symm
  rw [Function.update_of_ne different]

theorem removing_of_same (moved : next.ordered = Function.update s.ordered call pc)
    (same : pc = .lock ∨ pc = .erase ↔ s.ordered call = .lock ∨ s.ordered call = .erase)
    (tag : UInt32) : next.Removing tag ↔ s.Removing tag := by
  rw [Removing, Removing, moved]
  refine exists_congr fun other => and_congr_right fun _ => ?_
  rcases eq_or_ne other call with rfl | different
  · rw [Function.update_self, same]
  · rw [Function.update_of_ne different]

theorem code_of_update (moved : next.ordered = Function.update s.ordered call pc)
    {other : OrderedCall} (different : other ≠ call) : next.code other = s.code other := by
  rw [code, code, moved, Function.update_of_ne different]

theorem act_code_of_drops {op : OrderedOp} {entry : Option Model}
    (drops : op.dropsEngine entry = true) : (op.act entry).1 = 0 := by
  cases op <;> cases entry <;> first | rfl | cases drops

theorem StandsFor.silentOrdered (stands : StandsFor s r) (safe : s.Safe)
    (taken : s.advanceOrdered call = some next) (quiet : ¬ s.Changes (.ordered call))
    (moved : next.ordered = Function.update s.ordered call pc)
    (same : pc = .lock ∨ pc = .erase ↔ s.ordered call = .lock ∨ s.ordered call = .erase)
    (rawModels : next.rawModels = s.rawModels) (code : next.code call = s.code call) :
    StandsFor next r := by
  have moves : s.step (.ordered call) = some next := taken
  have removing := removing_of_same moved same
  refine ⟨stands.rawModels.trans rawModels.symm, fun tag gone => ?_, fun tag stays => ?_,
    fun other => ?_, fun other answer => ?_⟩
  · exact stands.removed tag ((removing tag).mp gone)
  · rw [safe.cachedEngine_kept moves quiet]
    exact stands.engines tag fun gone => stays ((removing tag).mpr gone)
  · rw [stands.calls, safe.phase_kept moves (by simp)]
  · rw [stands.delivered]
    rcases eq_or_ne other call with rfl | different
    · rw [code]
    · rw [code_of_update moved different]

theorem removing_effected (pending : (s.ordered call).pending)
    (tag : UInt32) : (s.effected call).Removing tag ↔
      s.Removing tag ∨ call.op.dropsEngine (s.rawModels.find call.tag) ∧ tag = call.tag := by
  have moved := effected_ordered s call
  cases drops : call.op.dropsEngine (s.rawModels.find call.tag) with
  | false =>
      rw [drops] at moved
      have before : ¬ (s.ordered call = .lock ∨ s.ordered call = .erase) := by
        rcases OrderedPc.pending_iff.mp pending with place | place <;> simp [place]
      rw [removing_of_same moved (by simp [before]) tag]
      simp
  | true =>
      rw [drops] at moved
      by_cases same : tag = call.tag
      · subst same
        have removing : (s.effected call).Removing call.tag :=
          ⟨call, rfl, .inl (by rw [moved, Function.update_self]; rfl)⟩
        simp [removing]
      · rw [removing_of_update moved same]
        simp [same]

theorem code_effected (s : LockedTier parts) (call : OrderedCall) :
    (s.effected call).code call = some (call.op.act (s.rawModels.find call.tag)).1 := by
  rw [code, effected_ordered, Function.update_self]
  cases drops : call.op.dropsEngine (s.rawModels.find call.tag) with
  | false => rfl
  | true => exact congrArg some (act_code_of_drops drops).symm

theorem delivered_effected {delivered : List (OrderedCall × Int)}
    (before : ∀ call code, (call, code) ∈ delivered ↔ s.code call = some code)
    (pending : (s.ordered call).pending) (other : OrderedCall)
    (answer : Int) :
    (other, answer) ∈ delivered ++ [(call, (call.op.act (s.rawModels.find call.tag)).1)] ↔
      (s.effected call).code other = some answer := by
  rw [List.mem_append, before, List.mem_singleton, Prod.mk.injEq]
  rcases eq_or_ne other call with rfl | different
  · rw [code_effected]
    rcases OrderedPc.pending_iff.mp pending with place | place <;> simp [code, place, eq_comm]
  · rw [code_of_update (effected_ordered s call) different]
    simp [different]

theorem StandsFor.effected (stands : StandsFor s r) (safe : s.Safe)
    (pending : (s.ordered call).pending)
    (taken : s.step (.ordered call) = some (s.effected call)) :
    ∃ r', exec Replica.step r [.deliver call] = some r' ∧ StandsFor (s.effected call) r' := by
  have quiet : ¬ s.Changes (.ordered call) := by
    rcases OrderedPc.pending_iff.mp pending with place | place <;> simp [Changes, place]
  refine ⟨_, by rw [exec_singleton, Replica.step_deliver], ?_, fun tag gone => ?_,
    fun tag stays => ?_, fun other => ?_, fun other answer => ?_⟩
  · rw [CategorizerTier.perform_rawModels, stands.rawModels]
    rfl
  · rw [CategorizerTier.perform_inferenceEngines, stands.rawModels]
    rcases (removing_effected pending tag).mp gone with before | ⟨drops, rfl⟩
    · have absent := stands.removed tag before
      split
      · rw [StdMap.find_erase, absent, ite_self]
      · exact absent
    · rw [if_pos drops, StdMap.find_erase_self]
  · have before : ¬ s.Removing tag := fun gone => stays ((removing_effected pending tag).mpr (.inl gone))
    rw [CategorizerTier.perform_inferenceEngines, stands.rawModels, safe.cachedEngine_kept taken quiet,
      ← stands.engines tag before]
    split
    · rename_i drops
      have apart : tag ≠ call.tag := fun same =>
        stays ((removing_effected pending tag).mpr (.inr ⟨drops, same⟩))
      rw [StdMap.find_erase, if_neg apart]
    · rfl
  · rw [stands.calls, safe.phase_kept taken (by simp)]
  · rw [CategorizerTier.perform_code, stands.rawModels]
    exact delivered_effected stands.delivered pending other answer

theorem cachedEngine_erase (s : LockedTier parts) (safe : s.Safe) (place : s.ordered call = .erase)
    (tag : UInt32) :
    (s.erase call).cachedEngine tag = if tag = call.tag then none else s.cachedEngine tag := by
  have taken : s.step (.ordered call) = some (s.erase call) := by
    simp [step, advanceOrdered, place]
  have engines : (s.erase call).inferenceEngines = s.inferenceEngines.erase call.tag := by
    unfold erase
    cases cached : s.inferenceEngines.find call.tag with
    | none => exact (StdMap.erase_of_absent cached).symm
    | some engine => rfl
  rw [cachedEngine, engines, StdMap.find_erase]
  split
  · rfl
  · rename_i apart
    rw [cachedEngine]
    cases cached : s.inferenceEngines.find tag with
    | none => rfl
    | some engine =>
        exact safe.engineAt_kept taken (v := .cached tag) cached fun _ => by simpa using apart

theorem StandsFor.erase (stands : StandsFor s r) (safe : s.Safe) (place : s.ordered call = .erase) :
    StandsFor (s.erase call) r := by
  have taken : s.step (.ordered call) = some (s.erase call) := by
    simp [step, advanceOrdered, place]
  have moved : (s.erase call).ordered = Function.update s.ordered call .unlock := by
    unfold LockedTier.erase
    split <;> rfl
  have removes : s.Removing call.tag := ⟨call, rfl, .inr place⟩
  refine ⟨?_, fun tag gone => ?_, fun tag stays => ?_, fun other => ?_, fun other answer => ?_⟩
  · rw [stands.rawModels]
    unfold LockedTier.erase
    split <;> rfl
  · rcases eq_or_ne tag call.tag with rfl | apart
    · exact stands.removed _ removes
    · exact stands.removed tag ((removing_of_update moved apart).mp gone)
  · rw [cachedEngine_erase s safe place]
    split
    · rename_i same
      exact same ▸ stands.removed _ removes
    · rename_i apart
      exact stands.engines tag fun gone => stays ((removing_of_update moved apart).mpr gone)
  · rw [stands.calls, safe.phase_kept taken (by simp)]
  · rw [stands.delivered]
    rcases eq_or_ne other call with rfl | different
    · rw [code, code, moved, Function.update_self, place]
    · rw [code_of_update moved different]

theorem StandsFor.advanceOrdered (stands : StandsFor s r) (safe : s.Safe) (found : s.Found)
    (taken : s.advanceOrdered call = some next) :
    ∃ r', exec Replica.step r (s.countsAs (.ordered call)) = some r' ∧ StandsFor next r' := by
  have moved := taken
  rcases found.advance_cases taken with ⟨takes, rfl⟩ | ⟨waits, rawModels, code, -⟩
  · rw [countsAs, if_pos takes]
    exact stands.effected safe (pending_of_takesEffect takes) taken
  have nothing : exec Replica.step r (s.countsAs (.ordered call)) = some r := by
    rw [countsAs, waits]
    rfl
  cases place : s.ordered call with
  | outside =>
      simp only [LockedTier.advanceOrdered, place] at taken
      split at taken <;> cases taken
      exact ⟨r, nothing, stands.silentOrdered safe moved (by simp [Changes, place]) rfl
        (by simp [place]) rawModels code⟩
  | search =>
      have finds : (call.op.act (s.rawModels.find call.tag)).1 = 0 := by
        simpa [takesEffect, place] using waits
      simp only [LockedTier.advanceOrdered, place, search_eq, if_pos finds, Option.some.injEq] at taken
      subst taken
      exact ⟨r, nothing, stands.silentOrdered safe moved (by simp [Changes, place]) rfl
        (by simp [place]) rawModels code⟩
  | change => simp [takesEffect, place] at waits
  | lock =>
      simp only [LockedTier.advanceOrdered, place, Option.map_eq_some_iff] at taken
      obtain ⟨mutex, -, rfl⟩ := taken
      exact ⟨r, nothing, stands.silentOrdered safe moved (by simp [Changes, place]) rfl
        (by simp [place]) rawModels code⟩
  | erase =>
      simp only [LockedTier.advanceOrdered, place, Option.some.injEq] at taken
      subst taken
      exact ⟨r, nothing, stands.erase safe place⟩
  | unlock =>
      simp only [LockedTier.advanceOrdered, place, Option.some.injEq] at taken
      subst taken
      exact ⟨r, nothing, stands.silentOrdered safe moved (by simp [Changes, place]) rfl
        (by simp [place]) rawModels code⟩
  | returned code => simp [LockedTier.advanceOrdered, place] at taken
  | undefined => simp [LockedTier.advanceOrdered, place] at taken

end Ordered

/-! ## Runs -/

def asReplica (rawModels : StdMap UInt32 Model) : Replica parts.api :=
  ⟨⟨rawModels, .empty⟩, .empty, []⟩

theorem standsFor_constructed (rawModels : StdMap UInt32 Model) :
    StandsFor (constructed rawModels : LockedTier parts) (asReplica rawModels) where
  rawModels := rfl
  removed _ _ := rfl
  engines _ _ := rfl
  calls _ := rfl
  delivered call code := by simp [asReplica, LockedTier.code, constructed]

theorem StandsFor.step (stands : StandsFor s r) (safe : s.Safe) (found : s.Found)
    (tracked : s.Tracked) {t : Task} (orderly : s.Orderly t) (taken : s.step t = some next) :
    ∃ r', exec Replica.step r (s.countsAs t) = some r' ∧ StandsFor next r' := by
  cases t with
  | inference call => exact stands.advance safe tracked orderly.models taken
  | ordered call => exact stands.advanceOrdered safe found taken

theorem Safe.found_kept (safe : s.Safe) (found : s.Found) {t : Task} (whole : s.ModelsWhole t)
    (taken : s.step t = some next) : next.Found := by
  cases t with
  | inference call =>
      refine safe.found_inference found (fun building => ?_) taken
      simpa only [ModelsWhole, building] using whole
  | ordered call => exact safe.found_ordered found taken

theorem found_constructed (rawModels : StdMap UInt32 Model) :
    (constructed rawModels : LockedTier parts).Found := fun _ place => nomatch place

theorem orderly_runs_refine {rawModels : StdMap UInt32 Model} {schedule : List Task}
    {s : LockedTier parts} (run : exec step (constructed rawModels) schedule = some s)
    (orderly : EveryStep step (constructed rawModels : LockedTier parts) schedule Orderly) :
    ∃ r, exec Replica.step (asReplica rawModels)
        (emitted step countsAs (constructed rawModels : LockedTier parts) schedule) = some r ∧
      StandsFor s r ∧
      (∀ call outcome, s.inferences call = .answered outcome →
        r.calls.find call = some (.returned outcome)) ∧
      ∀ call code, s.ordered call = .returned code → (call, code) ∈ r.delivered := by
  obtain ⟨r, runs, -, -, -, stands⟩ := exec_refines countsAs
    (fun s r => s.Safe ∧ s.Found ∧ s.Tracked ∧ StandsFor s r)
    (fun s r t next ⟨safe, found, tracked, stands⟩ orderly taken => by
      obtain ⟨r', runs, stands'⟩ := stands.step safe found tracked orderly taken
      exact ⟨r', runs, safe.kept taken, safe.found_kept found orderly.models taken,
        tracked.kept safe orderly.photos taken, stands'⟩)
    ⟨safe_constructed rawModels, found_constructed rawModels, tracked_constructed rawModels,
      standsFor_constructed rawModels⟩
    orderly run
  refine ⟨r, runs, stands, fun call outcome answered => ?_, fun call code returned => ?_⟩
  · rw [stands.calls, phase, answered]
  · rw [stands.delivered, LockedTier.code, returned]

/-! ## Runs on fixed inputs -/

def orderlyAmong (calls : List InferenceCall) (removals : List OrderedCall) (s : LockedTier parts) :
    Task → Bool
  | .inference call =>
      match s.inferences call with
      | .copy _ engine => calls.all fun other =>
          other = call || (s.inferences other).running ≠ some engine
      | .findEngine | .assign _ => removals.all fun other =>
          other.tag ≠ call.tag || (s.ordered other ≠ .lock && s.ordered other ≠ .erase)
      | .build => (s.rawModels.find call.tag).isSome
      | _ => true
  | .ordered _ => true

structure BegunAmong (calls : List InferenceCall) (removals : List OrderedCall)
    (s : LockedTier parts) : Prop where
  inferences : ∀ call, call ∉ calls → s.inferences call = .outside
  ordered : ∀ call, call ∉ removals → s.ordered call = .outside

def scheduledAmong (calls : List InferenceCall) (removals : List OrderedCall) : Task → Bool
  | .inference call => call ∈ calls
  | .ordered call => call ∈ removals

variable {calls : List InferenceCall} {removals : List OrderedCall}

theorem BegunAmong.kept (begun : BegunAmong calls removals s) (safe : s.Safe) {t : Task}
    (scheduled : scheduledAmong calls removals t) (taken : s.step t = some next) :
    BegunAmong calls removals next := by
  refine ⟨fun call absent => ?_, fun call absent => ?_⟩
  · have apart : .inference call ≠ t := by
      rintro rfl
      exact absent (of_decide_eq_true scheduled)
    rw [safe.inferences_kept taken apart, begun.inferences call absent]
  · have apart : .ordered call ≠ t := by
      rintro rfl
      exact absent (of_decide_eq_true scheduled)
    rw [safe.ordered_kept taken apart, begun.ordered call absent]

theorem BegunAmong.stays (begun : BegunAmong calls removals s) {tag : UInt32}
    (none : ∀ other ∈ removals,
      other.tag = tag → s.ordered other ≠ .lock ∧ s.ordered other ≠ .erase) :
    ¬ s.Removing tag := by
  rintro ⟨other, same, removing⟩
  by_cases known : other ∈ removals
  · obtain ⟨notLock, notErase⟩ := none other known same
    exact removing.elim notLock notErase
  · rw [begun.ordered other known] at removing
    simp at removing

theorem BegunAmong.photosAlone (begun : BegunAmong calls removals s)
    (among : orderlyAmong calls removals s (.inference call)) : s.PhotosAlone (.inference call) := by
  cases place : s.inferences call with
  | copy path engine =>
      simp only [PhotosAlone, place]
      intro other apart runs
      by_cases known : other ∈ calls
      · simp only [orderlyAmong, place, List.all_eq_true, Bool.or_eq_true,
          decide_eq_true_eq] at among
        exact (among other known).elim apart fun idle => idle runs
      · rw [begun.inferences other known] at runs
        cases runs
  | _ => simp only [PhotosAlone, place]

theorem BegunAmong.modelsWhole (begun : BegunAmong calls removals s)
    (among : orderlyAmong calls removals s (.inference call)) : s.ModelsWhole (.inference call) := by
  cases place : s.inferences call with
  | findEngine =>
      simp only [ModelsWhole, place]
      refine fun removing => absurd removing (begun.stays ?_)
      simpa [orderlyAmong, place, ← imp_iff_not_or] using among
  | assign engine =>
      simp only [ModelsWhole, place]
      refine begun.stays ?_
      simpa [orderlyAmong, place, ← imp_iff_not_or] using among
  | build =>
      simp only [ModelsWhole, place]
      intro none
      simp [orderlyAmong, place, none] at among
  | _ => simp only [ModelsWhole, place]

theorem BegunAmong.orderly (begun : BegunAmong calls removals s) {t : Task}
    (among : orderlyAmong calls removals s t) : s.Orderly t := by
  cases t with
  | inference call => exact ⟨begun.photosAlone among, begun.modelsWhole among⟩
  | ordered call => exact ⟨trivial, trivial⟩

theorem orderly_of_among {rawModels : StdMap UInt32 Model} {schedule : List Task}
    (scheduled : ∀ t ∈ schedule, scheduledAmong calls removals t)
    (among : EveryStep step (constructed rawModels : LockedTier parts) schedule fun s t =>
      orderlyAmong calls removals s t = true) :
    EveryStep step (constructed rawModels : LockedTier parts) schedule Orderly := by
  have begun : EveryState step (constructed rawModels : LockedTier parts) schedule fun s =>
      s.Safe ∧ BegunAmong calls removals s := by
    refine invariant (C := fun _ t => scheduledAmong calls removals t) ?_
      ⟨safe_constructed rawModels, fun _ _ => rfl, fun _ _ => rfl⟩ ?_
    · exact fun s t next ⟨safe, begun⟩ scheduled taken =>
        ⟨safe.kept taken, begun.kept safe scheduled taken⟩
    · exact fun before t _ isPrefix _ => scheduled t (isPrefix.subset (by simp))
  intro before t state isPrefix reached
  have isPrefix' : before <+: schedule := (List.prefix_append before [t]).trans isPrefix
  exact (begun before state isPrefix' reached).2.orderly (among before t state isPrefix reached)

def sampleParts : EngineParts Model Bytes Bytes Unit where
  loadModel := sampleApi.loadModel
  decode photo := if photo.photoData.bytes = [] then .error () else .ok photo.photoData.bytes
  forward _ input := .ok input
  describe _ output := .ok ⟨if output.head? = some 1 then "rose" else "tulip", some 1⟩

def sampleModels : StdMap UInt32 Model := StdMap.empty.assign 7 ⟨1, 0, 0, ⟨[114]⟩⟩

def firstAsk : InferenceCall := ⟨0, ⟨7, ⟨[1]⟩⟩⟩

def roseAsk : InferenceCall := ⟨1, ⟨7, ⟨[1]⟩⟩⟩

def tulipAsk : InferenceCall := ⟨2, ⟨7, ⟨[2]⟩⟩⟩

/-- The engine is loaded, then two calls find it; the second puts its photo before it while the
first is about to run it. -/
def mixedSchedule : List Task :=
  .replicate 13 (.inference firstAsk) ++ .replicate 5 (.inference roseAsk) ++
    .replicate 5 (.inference tulipAsk) ++ .replicate 3 (.inference roseAsk)

def takingTurns : List Task :=
  .replicate 13 (.inference firstAsk) ++ .replicate 4 (.inference roseAsk) ++
    .replicate 4 (.inference tulipAsk) ++ .replicate 4 (.inference roseAsk) ++
      .replicate 4 (.inference tulipAsk)

theorem answers_mixed :
    ∃ s : LockedTier sampleParts, exec step (constructed sampleModels) mixedSchedule = some s ∧
      s.inferences roseAsk = .answered (.ok ⟨"tulip", some 1⟩) ∧
      ∀ engine, sampleParts.classify engine roseAsk.photo = .ok ⟨"rose", some 1⟩ := by
  exact ⟨_, rfl, rfl, fun engine => rfl⟩

theorem takingTurns_orderly :
    EveryStep step (constructed sampleModels : LockedTier sampleParts) takingTurns Orderly :=
  have begun : ∀ t ∈ takingTurns, scheduledAmong [firstAsk, roseAsk, tulipAsk] [] t := by decide
  orderly_of_among begun (by decide +kernel)

theorem takingTurns_refines :
    ∃ (s : LockedTier sampleParts) (r : Replica sampleParts.api),
      exec step (constructed sampleModels) takingTurns = some s ∧
      exec Replica.step (asReplica sampleModels)
        [.lookup firstAsk, .build firstAsk, .store firstAsk, .lookup roseAsk, .lookup tulipAsk] =
          some r ∧
      r.calls.find roseAsk = some (.returned (.ok ⟨"rose", some 1⟩)) ∧
      r.calls.find tulipAsk = some (.returned (.ok ⟨"tulip", some 1⟩)) := by
  obtain ⟨r, runs, -, answers, -⟩ := orderly_runs_refine rfl takingTurns_orderly
  exact ⟨_, r, rfl, runs, answers roseAsk _ rfl, answers tulipAsk _ rfl⟩

end LockedTier
end SospDemo
