import SospDemo.Library.Runs
import SospDemo.Locks.Steps

namespace SospDemo
open Buffers Runs
variable {Engine Input Output Exn : Type} {parts : EngineParts Engine Input Output Exn}

inductive EngineOwner
  | cached (tag : UInt32)
  | building (call : InferenceCall)
  deriving DecidableEq

/-- What an ordered call relies on where it is: its search has found the entry it erases. -/
def OrderedPc.Fits (rawModels : StdMap UInt32 Model) (op : OrderedOp) : OrderedPc → Prop
  | .change => ∀ tag, op = .orderedRemoveModel tag → rawModels.find tag ≠ none
  | .undefined => False
  | _ => True

namespace LockedTier
variable {s next : LockedTier parts} {call : InferenceCall}

def owns (s : LockedTier parts) : EngineOwner → Option Nat
  | .cached tag => s.inferenceEngines.find tag
  | .building call => (s.inferences call).unstored

def Fits (s : LockedTier parts) (tag : UInt32) : InferencePc Exn → Prop
  | .findModel => s.inferenceEngines.find tag = none
  | .subscript _ => ∃ engine, s.inferenceEngines.find tag = some engine
  | .copy _ engine => s.inferenceEngines.find tag = some engine
  | .forward _ engine => s.inferenceEngines.find tag = some engine ∧
      ∃ object, s.object engine = some object ∧ object.data ≠ none
  | .read _ engine => s.inferenceEngines.find tag = some engine ∧
      ∃ object, s.object engine = some object ∧ object.outputs ≠ none
  | .undefined => False
  | _ => True

def Grows (s : LockedTier parts) (rawModels : StdMap UInt32 Model) : Prop :=
  ∀ tag, s.rawModels.find tag ≠ none → rawModels.find tag ≠ none

/-- An inference reads `raw_models`, but for the `raw_models[tag]` of a build. -/
def Reads (s : LockedTier parts) (call : InferenceCall) (rawModels : StdMap UInt32 Model) : Prop :=
  rawModels = s.rawModels ∨
    s.inferences call = .build ∧ rawModels = (s.rawModels.subscript call.tag).1

structure InTurn (s : LockedTier parts) : Prop where
  delivering : ∀ call, (s.ordered call).underWay ↔ s.delivering = some call
  fits : ∀ call, (s.ordered call).Fits s.rawModels call.op

structure Safe (s : LockedTier parts) : Prop where
  mutex : s.mutex.Held s.holds
  owned : Owned s.memory s.owns
  noneLost : NoneLost s.memory s.owns
  objects : ∀ engine content, s.memory.buffer engine = some content → ∃ object, content = [object]
  fits : ∀ call, s.Fits call.tag (s.inferences call)
  inTurn : s.InTurn

/-! ## What a step leaves alone -/

theorem holds_goto (s : LockedTier parts) (call : InferenceCall) (pc : InferencePc Exn) :
    (s.goto call pc).holds = Function.update s.holds (.inference call) pc.holds := by
  funext t
  cases t with
  | inference other =>
      by_cases same : other = call
      · subst same
        simp [holds, goto]
      · simp [holds, goto, same]
  | ordered other => simp [holds, goto]

theorem holds_gotoOrdered (s : LockedTier parts) (call : OrderedCall) (pc : OrderedPc) :
    (s.gotoOrdered call pc).holds = Function.update s.holds (.ordered call) pc.holds := by
  funext t
  cases t with
  | inference other => simp [holds, gotoOrdered]
  | ordered other =>
      by_cases same : other = call
      · subst same
        simp [holds, gotoOrdered]
      · simp [holds, gotoOrdered, same]

theorem owns_goto (s : LockedTier parts) (call : InferenceCall) (pc : InferencePc Exn) :
    (s.goto call pc).owns = Function.update s.owns (.building call) pc.unstored := by
  funext v
  cases v with
  | cached tag => simp [owns, goto]
  | building other =>
      by_cases same : other = call
      · subst same
        simp [owns, goto]
      · simp [owns, goto, same]

theorem owns_goto_same (s : LockedTier parts) {pc : InferencePc Exn}
    (same : pc.unstored = (s.inferences call).unstored) : (s.goto call pc).owns = s.owns := by
  rw [owns_goto, same]
  exact Function.update_eq_self _ _

theorem object_eq_some {engine : Nat} {object : EngineObject parts}
    (live : s.memory.buffer engine = some [object]) : s.object engine = some object := by
  rw [LockedTier.object, live]
  rfl

theorem Safe.object_of_owns (safe : s.Safe) {v : EngineOwner} {engine : Nat}
    (owned : s.owns v = some engine) :
    ∃ object, s.memory.buffer engine = some [object] ∧ s.object engine = some object := by
  obtain ⟨content, live⟩ := safe.owned.live v engine owned
  obtain ⟨object, rfl⟩ := safe.objects engine content live
  exact ⟨object, live, object_eq_some live⟩

theorem Safe.object_of_cached (safe : s.Safe) {tag : UInt32} {engine : Nat}
    (cached : s.inferenceEngines.find tag = some engine) :
    ∃ object, s.memory.buffer engine = some [object] ∧ s.object engine = some object :=
  safe.object_of_owns (v := .cached tag) cached

theorem Safe.object_of_free (safe : s.Safe) {v : EngineOwner} {tag : UInt32} {engine old : Nat}
    (owned : s.owns v = some engine) (cached : s.inferenceEngines.find tag = some old)
    (stays : v ≠ .cached tag) (freed : next.memory = s.memory.free old) :
    next.object engine = s.object engine := by
  have apart : engine ≠ old := by
    rintro rfl
    exact stays (safe.owned.unshared v (.cached tag) engine owned cached)
  rw [LockedTier.object, LockedTier.object, freed, Memory.buffer_free_of_ne apart]

theorem Fits.of_free {tag : UInt32} {pc : InferencePc Exn} (fits : s.Fits tag pc)
    (free : pc.holds = .free) : next.Fits tag pc := by
  cases pc with
  | undefined => exact fits
  | subscript path | copy path engine | forward path engine | read path engine =>
      cases path <;> cases free
  | findModel => cases free
  | outside | lockShared | findEngine | unlockMissed | build | lock _ | assign _ | unlock _ _
  | answered _ => trivial

structure KeepsObject (s next : LockedTier parts) (engine : Nat) : Prop where
  data : (∃ object, s.object engine = some object ∧ object.data ≠ none) →
    ∃ object, next.object engine = some object ∧ object.data ≠ none
  outputs : (∃ object, s.object engine = some object ∧ object.outputs ≠ none) →
    ∃ object, next.object engine = some object ∧ object.outputs ≠ none

theorem Fits.frame {tag : UInt32} {pc : InferencePc Exn} (fits : s.Fits tag pc)
    (same : next.inferenceEngines = s.inferenceEngines)
    (kept : ∀ engine, s.inferenceEngines.find tag = some engine → KeepsObject s next engine) :
    next.Fits tag pc := by
  cases pc with
  | findModel | subscript path | copy path engine => simpa only [Fits, same] using fits
  | forward path engine =>
      obtain ⟨cached, data⟩ := fits
      exact ⟨same ▸ cached, (kept engine cached).data data⟩
  | read path engine =>
      obtain ⟨cached, outputs⟩ := fits
      exact ⟨same ▸ cached, (kept engine cached).outputs outputs⟩
  | undefined => exact fits
  | outside | lockShared | findEngine | unlockMissed | build | lock _ | assign _ | unlock _ _
  | answered _ => trivial

theorem InTurn.frame (inTurn : s.InTurn) (ordered : next.ordered = s.ordered)
    (delivering : next.delivering = s.delivering) (grows : s.Grows next.rawModels) :
    next.InTurn := by
  refine ⟨fun call => ?_, fun call => ?_⟩
  · rw [ordered, delivering]
    exact inTurn.delivering call
  · have fits := inTurn.fits call
    rw [ordered]
    cases place : s.ordered call with
    | change =>
        rw [place] at fits
        exact fun tag removes => grows tag (fits tag removes)
    | undefined =>
        rw [place] at fits
        exact fits
    | _ => trivial

theorem InTurn.moves (inTurn : s.InTurn) {call : OrderedCall} {pc : OrderedPc}
    (own : s.delivering = none ∨ s.delivering = some call)
    (ordered : next.ordered = Function.update s.ordered call pc)
    (delivering : next.delivering = if pc.underWay then some call else none)
    (fits : pc.Fits next.rawModels call.op) : next.InTurn := by
  have idle {other : OrderedCall} (apart : other ≠ call) : (s.ordered other).underWay = false := by
    refine Bool.eq_false_iff.mpr fun busy => ?_
    have turn := (inTurn.delivering other).mp busy
    rcases own with none | some
    · cases none.symm.trans turn
    · exact apart (Option.some.inj (turn.symm.trans some))
  refine ⟨fun other => ?_, fun other => ?_⟩
  · rw [ordered, delivering]
    rcases eq_or_ne other call with rfl | apart
    · rw [Function.update_self]
      cases pc.underWay <;> simp
    · rw [Function.update_of_ne apart, idle apart]
      cases pc.underWay <;> simp [apart.symm]
  · rw [ordered]
    rcases eq_or_ne other call with rfl | apart
    · rwa [Function.update_self]
    · have before := inTurn.fits other
      have still := idle apart
      rw [Function.update_of_ne apart]
      cases place : s.ordered other with
      | change => simp [place, OrderedPc.underWay] at still
      | undefined =>
          rw [place] at before
          exact before
      | _ => trivial

theorem grows_self (s : LockedTier parts) : s.Grows s.rawModels := fun _ => id

theorem Reads.grows {rawModels : StdMap UInt32 Model} (reads : s.Reads call rawModels) :
    s.Grows rawModels := by
  rcases reads with rfl | ⟨-, rfl⟩
  · exact s.grows_self
  intro other present
  cases bound : s.rawModels.find call.tag with
  | some model => rwa [StdMap.subscript_of_present bound]
  | none =>
      rw [StdMap.subscript_of_absent bound, StdMap.find_assign]
      split
      · nofun
      · exact present

theorem keepsObject_of_eq {engine : Nat} (same : next.object engine = s.object engine) :
    KeepsObject s next engine := by
  constructor <;> intro found <;> rwa [same]

/-! ## One step -/

inductive Effect (s : LockedTier parts) : Task → LockedTier parts → Prop
  | moves {call : InferenceCall} (pc : InferencePc Exn) (mutex : SharedMutex Task)
      (rawModels : StdMap UInt32 Model)
      (held : mutex.Held (Function.update s.holds (.inference call) pc.holds))
      (unstored : pc.unstored = (s.inferences call).unstored) (idle : pc.running = none)
      (fits : s.Fits call.tag pc) (reads : s.Reads call rawModels) :
      Effect s (.inference call) { s.goto call pc with mutex, rawModels }
  | builds {call : InferenceCall} (engine : InferenceEngine parts.api)
      (rawModels : StdMap UInt32 Model) (place : s.inferences call = .build)
      (reads : s.Reads call rawModels)
      (built : InferenceEngine.construct parts.api (s.rawModels.subscript call.tag).2 = .ok engine) :
      Effect s (.inference call) { s.goto call (.lock s.memory.length) with
        rawModels
        memory := s.memory.alloc [⟨engine, none, none⟩] }
  | assigns {call : InferenceCall} (engine : Nat) (place : s.inferences call = .assign engine) :
      Effect s (.inference call) (s.assign call engine)
  | copies {call : InferenceCall} (path : Path) (engine : Nat) (object : EngineObject parts)
      (input : Input) (place : s.inferences call = .copy path engine)
      (cached : s.inferenceEngines.find call.tag = some engine)
      (found : s.object engine = some object) (decoded : parts.decode call.photo = .ok input) :
      Effect s (.inference call) { s.goto call (.forward path engine) with
        memory := s.memory.write engine [{ object with data := some input }] }
  | computes {call : InferenceCall} (path : Path) (engine : Nat)
      (built : InferenceEngine parts.api) (input : Input) (outputs : Option Output)
      (output : Output) (place : s.inferences call = .forward path engine)
      (cached : s.inferenceEngines.find call.tag = some engine)
      (found : s.object engine = some ⟨built, some input, outputs⟩)
      (computed : parts.forward built.engine input = .ok output) :
      Effect s (.inference call) { s.goto call (.read path engine) with
        memory := s.memory.write engine [⟨built, some input, some output⟩] }
  | movesOrdered {call : OrderedCall} (pc : OrderedPc) (mutex : SharedMutex Task)
      (rawModels : StdMap UInt32 Model)
      (held : mutex.Held (Function.update s.holds (.ordered call) pc.holds))
      (own : s.delivering = none ∨ s.delivering = some call)
      (fits : pc.Fits rawModels call.op) :
      Effect s (.ordered call) { s.gotoOrdered call pc with mutex, rawModels }
  | erases {call : OrderedCall} (engine : Nat) (place : s.ordered call = .erase)
      (cached : s.inferenceEngines.find call.tag = some engine) :
      Effect s (.ordered call) { s.gotoOrdered call .unlock with
        inferenceEngines := s.inferenceEngines.erase call.tag
        memory := s.memory.free engine }

theorem Safe.stays (safe : s.Safe) (pc : InferencePc Exn)
    (holds : pc.holds = (s.inferences call).holds)
    (unstored : pc.unstored = (s.inferences call).unstored) (idle : pc.running = none)
    (fits : s.Fits call.tag pc) : Effect s (.inference call) (s.goto call pc) :=
  .moves pc s.mutex s.rawModels (safe.mutex.keep holds.symm) unstored idle fits (.inl rfl)

theorem Safe.effect_copy (safe : s.Safe) {path : Path} {engine : Nat}
    (place : s.inferences call = .copy path engine) :
    Effect s (.inference call) (s.copy call path engine) := by
  have cached : s.inferenceEngines.find call.tag = some engine := by
    simpa [place, Fits] using safe.fits call
  obtain ⟨object, -, found⟩ := safe.object_of_cached cached
  simp only [copy, found]
  cases decoded : parts.decode call.photo with
  | error e => exact safe.stays _ (by rw [place]; rfl) (by rw [place]; rfl) rfl trivial
  | ok input => exact .copies path engine object input place cached found decoded

theorem Safe.effect_forward (safe : s.Safe) {path : Path} {engine : Nat}
    (place : s.inferences call = .forward path engine) :
    Effect s (.inference call) (s.forward call path engine) := by
  have fits := safe.fits call
  rw [place] at fits
  obtain ⟨cached, ⟨built, data, outputs⟩, found, hasData⟩ := fits
  obtain ⟨input, rfl⟩ := Option.ne_none_iff_exists'.mp hasData
  simp only [forward, found]
  cases computed : parts.forward built.engine input with
  | error e => exact safe.stays _ (by rw [place]; rfl) (by rw [place]; rfl) rfl trivial
  | ok output => exact .computes path engine built input outputs output place cached found computed

theorem Safe.effect_read (safe : s.Safe) {path : Path} {engine : Nat}
    (place : s.inferences call = .read path engine) :
    Effect s (.inference call) (s.read call path engine) := by
  have fits := safe.fits call
  rw [place] at fits
  obtain ⟨-, ⟨built, data, outputs⟩, found, hasOutputs⟩ := fits
  obtain ⟨output, rfl⟩ := Option.ne_none_iff_exists'.mp hasOutputs
  simp only [read, found]
  exact safe.stays _ (by rw [place]; rfl) (by rw [place]; rfl) rfl trivial

theorem Safe.effect_build (safe : s.Safe) (place : s.inferences call = .build) :
    Effect s (.inference call) (s.build call) := by
  have reads : s.Reads call (s.rawModels.subscript call.tag).1 := .inr ⟨place, rfl⟩
  unfold build
  dsimp only
  cases built : InferenceEngine.construct parts.api (s.rawModels.subscript call.tag).2 with
  | error e =>
      exact .moves _ s.mutex _ (safe.mutex.keep (by rw [holds, place]; rfl))
        (by rw [place]; rfl) rfl trivial reads
  | ok engine => exact .builds engine _ place reads built

theorem Safe.effect_unlock (safe : s.Safe) {path : Path} {outcome : Outcome Exn}
    (place : s.inferences call = .unlock path outcome) :
    Effect s (.inference call) (s.unlock call path outcome) := by
  have mode : s.holds (.inference call) = path.hold := by rw [holds, place]; rfl
  cases path with
  | hit =>
      exact .moves _ _ s.rawModels (safe.mutex.unlockShared mode) (by rw [place]; rfl) rfl trivial
        (.inl rfl)
  | miss =>
      exact .moves _ _ s.rawModels (safe.mutex.unlock mode) (by rw [place]; rfl) rfl trivial
        (.inl rfl)

theorem Safe.effect_inference (safe : s.Safe) (taken : s.advance call = some next) :
    Effect s (.inference call) next := by
  have mode : s.holds (.inference call) = (s.inferences call).holds := rfl
  have fits := safe.fits call
  cases place : s.inferences call with
  | outside =>
      simp only [advance, place, Option.some.injEq] at taken
      exact taken ▸ safe.stays _ (by rw [place]; rfl) (by rw [place]; rfl) rfl trivial
  | lockShared =>
      simp only [advance, place, Option.map_eq_some_iff] at taken
      obtain ⟨mutex, locked, rfl⟩ := taken
      have held := safe.mutex.lockShared (by rw [mode, place]; rfl) locked
      exact .moves _ mutex s.rawModels held (by rw [place]; rfl) rfl trivial (.inl rfl)
  | findEngine =>
      simp only [advance, place] at taken
      cases cached : s.inferenceEngines.find call.tag with
      | some engine =>
          simp only [cached, Option.some.injEq] at taken
          exact taken ▸ safe.stays _ (by rw [place]; rfl) (by rw [place]; rfl) rfl ⟨engine, cached⟩
      | none =>
          simp only [cached, Option.some.injEq] at taken
          exact taken ▸ safe.stays _ (by rw [place]; rfl) (by rw [place]; rfl) rfl cached
  | findModel =>
      simp only [advance, place] at taken
      cases installed : s.rawModels.find call.tag with
      | none =>
          simp only [installed, Option.some.injEq] at taken
          exact taken ▸ safe.stays _ (by rw [place]; rfl) (by rw [place]; rfl) rfl trivial
      | some model =>
          simp only [installed, Option.some.injEq] at taken
          exact taken ▸ safe.stays _ (by rw [place]; rfl) (by rw [place]; rfl) rfl trivial
  | unlockMissed =>
      simp only [advance, place, Option.some.injEq] at taken
      have held := safe.mutex.unlockShared (t := .inference call) (by rw [mode, place]; rfl)
      exact taken ▸ .moves _ _ s.rawModels held (by rw [place]; rfl) rfl trivial (.inl rfl)
  | build =>
      simp only [advance, place, Option.some.injEq] at taken
      exact taken ▸ safe.effect_build place
  | lock engine =>
      simp only [advance, place, Option.map_eq_some_iff] at taken
      obtain ⟨mutex, locked, rfl⟩ := taken
      exact .moves _ mutex s.rawModels (safe.mutex.lock locked) (by rw [place]; rfl) rfl trivial
        (.inl rfl)
  | assign engine =>
      simp only [advance, place, Option.some.injEq] at taken
      exact taken ▸ .assigns engine place
  | subscript path =>
      rw [place] at fits
      obtain ⟨engine, cached⟩ := fits
      simp only [advance, place, cached, Option.some.injEq] at taken
      exact taken ▸ safe.stays _ (by rw [place]; rfl) (by rw [place]; rfl) rfl cached
  | copy path engine =>
      simp only [advance, place, Option.some.injEq] at taken
      exact taken ▸ safe.effect_copy place
  | forward path engine =>
      simp only [advance, place, Option.some.injEq] at taken
      exact taken ▸ safe.effect_forward place
  | read path engine =>
      simp only [advance, place, Option.some.injEq] at taken
      exact taken ▸ safe.effect_read place
  | unlock path outcome =>
      simp only [advance, place, Option.some.injEq] at taken
      exact taken ▸ safe.effect_unlock place
  | answered outcome => simp [advance, place] at taken
  | undefined => simp [advance, place] at taken

theorem Safe.own (safe : s.Safe) (call : OrderedCall) (busy : (s.ordered call).underWay = true) :
    s.delivering = none ∨ s.delivering = some call :=
  .inr ((safe.inTurn.delivering call).mp busy)

theorem Safe.staysOrdered (safe : s.Safe) {call : OrderedCall} {pc : OrderedPc}
    (rawModels : StdMap UInt32 Model) (own : s.delivering = none ∨ s.delivering = some call)
    (holds : pc.holds = (s.ordered call).holds) (fits : pc.Fits rawModels call.op) :
    Effect s (.ordered call) { s.gotoOrdered call pc with rawModels } :=
  .movesOrdered pc s.mutex rawModels (safe.mutex.keep holds.symm) own fits

theorem Safe.effect_search (safe : s.Safe) {call : OrderedCall} (place : s.ordered call = .search) :
    Effect s (.ordered call) (s.search call) := by
  have own := safe.own call (by rw [place]; rfl)
  have still (pc : OrderedPc) (free : pc.holds = .free) (fits : pc.Fits s.rawModels call.op) :
      Effect s (.ordered call) (s.gotoOrdered call pc) :=
    safe.staysOrdered s.rawModels own (free.trans (by rw [place]; rfl)) fits
  unfold search
  split
  · exact still _ rfl trivial
  · rename_i op _ install absent
    exact still _ rfl fun tag removes => nomatch install.symm.trans removes
  · exact still _ rfl trivial
  · rename_i tag model remove present
    refine still _ rfl fun other removes => ?_
    obtain rfl : tag = other := OrderedOp.orderedRemoveModel.inj (remove.symm.trans removes)
    have here : call.tag = tag := by rw [OrderedCall.tag, remove]; rfl
    rw [← here, present]
    nofun

theorem Safe.effect_change (safe : s.Safe) {call : OrderedCall} (place : s.ordered call = .change) :
    Effect s (.ordered call) (s.change call) := by
  have own := safe.own call (by rw [place]; rfl)
  have fits := safe.inTurn.fits call
  rw [place] at fits
  unfold change
  split
  · exact safe.staysOrdered _ own (by rw [place]; rfl) trivial
  · rename_i tag remove
    obtain ⟨model, present⟩ := Option.ne_none_iff_exists'.mp (fits tag remove)
    simp only [present]
    exact safe.staysOrdered _ own (by rw [place]; rfl) trivial

theorem Safe.effect_ordered (safe : s.Safe) {call : OrderedCall}
    (taken : s.advanceOrdered call = some next) : Effect s (.ordered call) next := by
  have mode : s.holds (.ordered call) = (s.ordered call).holds := rfl
  have own := safe.own call
  cases place : s.ordered call with
  | outside =>
      simp only [advanceOrdered, place] at taken
      cases idle : s.delivering with
      | none =>
          simp only [idle, Option.some.injEq] at taken
          exact taken ▸ safe.staysOrdered s.rawModels (.inl idle) (by rw [place]; rfl) trivial
      | some other => simp [idle] at taken
  | search =>
      simp only [advanceOrdered, place, Option.some.injEq] at taken
      exact taken ▸ safe.effect_search place
  | change =>
      simp only [advanceOrdered, place, Option.some.injEq] at taken
      exact taken ▸ safe.effect_change place
  | lock =>
      simp only [advanceOrdered, place, Option.map_eq_some_iff] at taken
      obtain ⟨mutex, locked, rfl⟩ := taken
      exact .movesOrdered _ mutex s.rawModels (safe.mutex.lock locked) (own (by rw [place]; rfl))
        trivial
  | erase =>
      simp only [advanceOrdered, place, erase, Option.some.injEq] at taken
      subst taken
      cases cached : s.inferenceEngines.find call.tag with
      | some engine => exact .erases engine place cached
      | none =>
          exact safe.staysOrdered s.rawModels (own (by rw [place]; rfl)) (by rw [place]; rfl) trivial
  | unlock =>
      simp only [advanceOrdered, place, Option.some.injEq] at taken
      have held := safe.mutex.unlock (t := .ordered call) (by rw [mode, place]; rfl)
      exact taken ▸ .movesOrdered _ _ s.rawModels held (own (by rw [place]; rfl)) trivial
  | returned code => simp [advanceOrdered, place] at taken
  | undefined => simp [advanceOrdered, place] at taken

theorem Safe.effect (safe : s.Safe) {t : Task} (taken : s.step t = some next) :
    Effect s t next := by
  cases t with
  | inference call => exact safe.effect_inference taken
  | ordered call => exact safe.effect_ordered taken

theorem Safe.inferences_kept (safe : s.Safe) {t : Task} (taken : s.step t = some next)
    (apart : .inference call ≠ t) : next.inferences call = s.inferences call := by
  cases safe.effect taken with
  | moves | builds | assigns | copies | computes =>
      have other : call ≠ _ := fun same => apart (congrArg Task.inference same)
      simp [goto, assign, other]
  | movesOrdered | erases => rfl

theorem Safe.ordered_kept (safe : s.Safe) {t : Task} (taken : s.step t = some next)
    {call : OrderedCall} (apart : .ordered call ≠ t) : next.ordered call = s.ordered call := by
  cases safe.effect taken with
  | moves | builds | assigns | copies | computes => rfl
  | movesOrdered | erases =>
      have other : call ≠ _ := fun same => apart (congrArg Task.ordered same)
      simp [gotoOrdered, other]

/-! ## Every step keeps the engines safe -/

theorem fits_others {t : InferenceCall} {pc : InferencePc Exn}
    (moved : next.inferences = Function.update s.inferences t pc) (this : next.Fits t.tag pc)
    (others : ∀ u, u ≠ t → next.Fits u.tag (s.inferences u)) (u : InferenceCall) :
    next.Fits u.tag (next.inferences u) := by
  rw [moved]
  rcases eq_or_ne u t with rfl | apart
  · rwa [Function.update_self]
  · rw [Function.update_of_ne apart]
    exact others u apart

theorem Safe.fits_beside (safe : s.Safe) {t : Task} (exclusive : s.holds t = .exclusive)
    {u : InferenceCall} (apart : .inference u ≠ t) : next.Fits u.tag (s.inferences u) := by
  refine (safe.fits u).of_free ?_
  by_contra holding
  exact apart (safe.mutex.alone exclusive holding)

theorem Safe.kept_builds (safe : s.Safe) (place : s.inferences call = .build)
    (engine : InferenceEngine parts.api) (rawModels : StdMap UInt32 Model)
    (grows : s.Grows rawModels) :
    Safe { s.goto call (.lock s.memory.length) with
      rawModels
      memory := s.memory.alloc [⟨engine, none, none⟩] } := by
  have nothing : s.owns (.building call) = none := by simp [owns, place, InferencePc.unstored]
  refine ⟨?_, ?_, ?_, ?_, ?_, safe.inTurn.frame rfl rfl grows⟩
  · have free : s.holds (.inference call) = .free := by rw [holds, place]; rfl
    exact (holds_goto s call (.lock s.memory.length)).symm ▸ safe.mutex.keep free
  · have owned := safe.owned.give (.building call) [⟨engine, none, none⟩]
    exact (owns_goto s call (.lock s.memory.length)).symm ▸ owned
  · have noneLost := safe.noneLost.give nothing [⟨engine, none, none⟩]
    exact (owns_goto s call (.lock s.memory.length)).symm ▸ noneLost
  · intro p content live
    by_cases new : p = s.memory.length
    · rw [new, Memory.buffer_alloc_self] at live
      exact ⟨_, (Option.some.inj live).symm⟩
    · rw [Memory.buffer_alloc_of_ne _ new] at live
      exact safe.objects p content live
  · refine fits_others rfl trivial fun u _ => (safe.fits u).frame rfl fun p cached => ?_
    obtain ⟨object, live, found⟩ := safe.object_of_cached cached
    exact keepsObject_of_eq
      ((object_eq_some (Memory.buffer_alloc_of_live live)).trans found.symm)

theorem owns_assign (s : LockedTier parts) {engine : Nat}
    (place : s.inferences call = .assign engine) :
    (s.assign call engine).owns =
      Function.update s.owns (.cached call.tag) none ∘
        Equiv.swap (.cached call.tag) (.building call) := by
  funext v
  cases v with
  | cached tag =>
      by_cases same : tag = call.tag
      · subst same
        simp [owns, assign, place, InferencePc.unstored]
      · rw [Function.comp_apply, Equiv.swap_apply_of_ne_of_ne (by simp [same]) (by simp),
          Function.update_of_ne (by simp [same])]
        simp [owns, assign, StdMap.find_assign, same]
  | building other =>
      by_cases same : other = call
      · subst same
        simp [owns, assign, goto, InferencePc.unstored]
      · rw [Function.comp_apply, Equiv.swap_apply_of_ne_of_ne (by simp) (by simp [same]),
          Function.update_of_ne (by simp)]
        simp [owns, assign, goto, same]

theorem Safe.kept_assigns (safe : s.Safe) {engine : Nat}
    (place : s.inferences call = .assign engine) : (s.assign call engine).Safe := by
  have exclusive : s.holds (.inference call) = .exclusive := by rw [holds, place]; rfl
  have freed : Owned (s.assign call engine).memory (Function.update s.owns (.cached call.tag) none) ∧
      NoneLost (s.assign call engine).memory (Function.update s.owns (.cached call.tag) none) := by
    unfold assign
    cases cached : s.inferenceEngines.find call.tag with
    | none =>
        have same : Function.update s.owns (.cached call.tag) none = s.owns := by
          rw [← cached]
          exact Function.update_eq_self _ _
        rw [same]
        exact ⟨safe.owned, safe.noneLost⟩
    | some old =>
        have holds : s.owns (.cached call.tag) = some old := cached
        exact ⟨safe.owned.free holds, safe.noneLost.free holds⟩
  refine ⟨?_, ?_, ?_, ?_, ?_, safe.inTurn.frame rfl rfl s.grows_self⟩
  · have held := safe.mutex.keep exclusive
    exact (holds_goto s call (.subscript .miss)).symm ▸ held
  · rw [owns_assign s place]
    exact freed.1.exchange _ _
  · rw [owns_assign s place]
    exact freed.2.exchange _ _
  · intro p content live
    unfold assign at live
    cases cached : s.inferenceEngines.find call.tag with
    | none => exact safe.objects p content (by simpa [cached] using live)
    | some old =>
        simp only [cached] at live
        refine safe.objects p content ?_
        rwa [Memory.buffer_free_of_ne] at live
        rintro rfl
        rw [Memory.buffer_free_self] at live
        cases live
  · refine fits_others rfl ⟨engine, StdMap.find_assign_self ..⟩ fun u apart => ?_
    exact safe.fits_beside exclusive (by simpa using apart)

theorem Safe.kept_writes (safe : s.Safe) {pc : InferencePc Exn} {engine : Nat}
    {old object : EngineObject parts} (cached : s.inferenceEngines.find call.tag = some engine)
    (live : s.object engine = some old) (data : object.data ≠ none)
    (outputs : old.outputs ≠ none → object.outputs ≠ none)
    (holds : pc.holds = (s.inferences call).holds)
    (unstored : pc.unstored = (s.inferences call).unstored)
    (fits : ∀ next : LockedTier parts, next.inferenceEngines = s.inferenceEngines →
      next.object engine = some object → next.Fits call.tag pc) :
    Safe { s.goto call pc with memory := s.memory.write engine [object] } := by
  obtain ⟨present, content, found⟩ := safe.object_of_cached cached
  obtain rfl : present = old := Option.some.inj (found.symm.trans live)
  have owner : s.owns (.cached call.tag) = some engine := cached
  have written : LockedTier.object { s.goto call pc with
      memory := s.memory.write engine [object] } engine = some object :=
    object_eq_some (Memory.buffer_write_self content _)
  refine ⟨?_, ?_, ?_, ?_, ?_, safe.inTurn.frame rfl rfl s.grows_self⟩
  · have mode : s.holds (.inference call) = pc.holds := holds.symm
    exact (holds_goto s call pc).symm ▸ safe.mutex.keep mode
  · have owned := safe.owned.write owner [object]
    exact (owns_goto_same s unstored).symm ▸ owned
  · have noneLost := safe.noneLost.write owner [object]
    exact (owns_goto_same s unstored).symm ▸ noneLost
  · intro p other live
    by_cases same : p = engine
    · subst same
      rw [Memory.buffer_write_self content] at live
      exact ⟨object, (Option.some.inj live).symm⟩
    · rw [Memory.buffer_write_of_ne _ same] at live
      exact safe.objects p other live
  · refine fits_others rfl (fits _ rfl written) fun u _ => (safe.fits u).frame rfl fun p _ => ?_
    by_cases same : p = engine
    · subst same
      refine ⟨fun _ => ⟨object, written, data⟩, fun ⟨o, foundOld, had⟩ => ⟨object, written, ?_⟩⟩
      exact outputs (Option.some.inj (live.symm.trans foundOld) ▸ had)
    · refine keepsObject_of_eq ?_
      rw [LockedTier.object, LockedTier.object, Memory.buffer_write_of_ne _ same]

theorem owns_erases (s : LockedTier parts) (call : OrderedCall) (engine : Nat) :
    LockedTier.owns { s.gotoOrdered call .unlock with
      inferenceEngines := s.inferenceEngines.erase call.tag
      memory := s.memory.free engine } = Function.update s.owns (.cached call.tag) none := by
  funext v
  cases v with
  | cached tag =>
      by_cases same : tag = call.tag
      · subst same
        simp [owns]
      · rw [Function.update_of_ne (by simp [same])]
        simp [owns, StdMap.find_erase, same]
  | building other => rfl

theorem Safe.kept_erases (safe : s.Safe) {call : OrderedCall} {engine : Nat}
    (place : s.ordered call = .erase)
    (cached : s.inferenceEngines.find call.tag = some engine) :
    Safe { s.gotoOrdered call .unlock with
      inferenceEngines := s.inferenceEngines.erase call.tag
      memory := s.memory.free engine } := by
  have exclusive : s.holds (.ordered call) = .exclusive := by rw [holds, place]; rfl
  have owner : s.owns (.cached call.tag) = some engine := cached
  have turn : s.delivering = none ∨ s.delivering = some call := safe.own call (by rw [place]; rfl)
  refine ⟨?_, ?_, ?_, ?_, ?_, safe.inTurn.moves turn rfl rfl trivial⟩
  · have held := safe.mutex.keep exclusive
    exact (holds_gotoOrdered s call .unlock).symm ▸ held
  · exact (owns_erases s call engine).symm ▸ safe.owned.free owner
  · exact (owns_erases s call engine).symm ▸ safe.noneLost.free owner
  · intro p content live
    refine safe.objects p content ?_
    rwa [Memory.buffer_free_of_ne] at live
    rintro rfl
    rw [Memory.buffer_free_self] at live
    cases live
  · intro u
    exact safe.fits_beside exclusive (u := u) (by simp)

theorem Safe.kept (safe : s.Safe) {t : Task} (taken : s.step t = some next) : next.Safe := by
  cases safe.effect taken with
  | @moves call pc mutex rawModels held unstored idle fits reads =>
      refine ⟨?_, ?_, ?_, safe.objects, ?_, safe.inTurn.frame rfl rfl reads.grows⟩
      · exact (holds_goto s call pc).symm ▸ held
      · exact (owns_goto_same s unstored).symm ▸ safe.owned
      · exact (owns_goto_same s unstored).symm ▸ safe.noneLost
      · have same (p : Nat) : KeepsObject s { s.goto call pc with mutex, rawModels } p :=
          keepsObject_of_eq rfl
        exact fits_others rfl (fits.frame rfl fun p _ => same p) fun u _ =>
          (safe.fits u).frame rfl fun p _ => same p
  | builds engine rawModels place reads =>
      exact safe.kept_builds place engine rawModels reads.grows
  | assigns engine place => exact safe.kept_assigns place
  | copies path engine object input place cached found decoded =>
      refine safe.kept_writes cached found (by simp) id (by rw [place]; rfl) (by rw [place]; rfl) ?_
      intro next same written
      exact ⟨same ▸ cached, _, written, by simp⟩
  | computes path engine built input outputs output place cached found computed =>
      refine safe.kept_writes cached found (by simp) (by simp) (by rw [place]; rfl)
        (by rw [place]; rfl) ?_
      intro next same written
      exact ⟨same ▸ cached, _, written, by simp⟩
  | @movesOrdered call pc mutex rawModels held own fits =>
      refine ⟨?_, safe.owned, safe.noneLost, safe.objects, ?_, safe.inTurn.moves own rfl rfl fits⟩
      · exact (holds_gotoOrdered s call pc).symm ▸ held
      · exact fun u => (safe.fits u).frame rfl fun p _ => keepsObject_of_eq rfl
  | erases engine place cached => exact safe.kept_erases place cached

theorem safe_constructed (rawModels : StdMap UInt32 Model) :
    (constructed rawModels : LockedTier parts).Safe := by
  refine ⟨?_, ⟨?_, ?_⟩, ?_, ?_, fun _ => trivial, ⟨fun _ => by simp [constructed, OrderedPc.underWay],
    fun _ => trivial⟩⟩
  · have free : (constructed rawModels : LockedTier parts).holds = fun _ => .free := by
      funext t
      cases t <;> rfl
    exact free ▸ SharedMutex.held_unlocked
  · intro v p holds
    cases v <;> cases holds
  · intro v w p holds
    cases v <;> cases holds
  · intro p content live
    cases live
  · intro p content live
    cases live

theorem safe_always (rawModels : StdMap UInt32 Model) (schedule : List Task) :
    EveryState step (constructed rawModels : LockedTier parts) schedule Safe :=
  always (fun _ _ _ safe taken => safe.kept taken) (safe_constructed rawModels)

/-- The next step of the call writes `inference_engines` and may destroy an engine. -/
def Changes (s : LockedTier parts) : Task → Prop
  | .inference call => ∃ engine, s.inferences call = .assign engine
  | .ordered call => s.ordered call = .erase

/-- The next step of the call is in `inference_engines` or in an engine found there. -/
def Enters (s : LockedTier parts) : Task → Prop
  | .inference call => (s.inferences call).inEngines
  | .ordered call => s.ordered call = .erase

theorem holds_of_changes {t : Task} (changes : s.Changes t) : s.holds t = .exclusive := by
  cases t with
  | inference call =>
      obtain ⟨engine, place⟩ := changes
      rw [holds, place]
      rfl
  | ordered call =>
      have place : s.ordered call = .erase := changes
      rw [holds, place]
      rfl

theorem holds_of_inEngines {pc : InferencePc Exn} (inside : pc.inEngines) : pc.holds ≠ .free := by
  cases pc with
  | findEngine | assign engine => simp [InferencePc.holds]
  | subscript path | copy path engine | forward path engine | read path engine =>
      cases path <;> simp [InferencePc.holds, Path.hold]
  | outside | lockShared | findModel | unlockMissed | build | lock _ | unlock _ _ | answered _
  | undefined => cases inside

theorem holds_of_enters {t : Task} (enters : s.Enters t) : s.holds t ≠ .free := by
  cases t with
  | inference call => exact holds_of_inEngines enters
  | ordered call =>
      have place : s.ordered call = .erase := enters
      simp [holds, place, OrderedPc.holds]

theorem engines_guarded (rawModels : StdMap UInt32 Model) (schedule : List Task) :
    EveryState step (constructed rawModels : LockedTier parts) schedule fun s =>
      (∀ call, s.inferences call ≠ .undefined) ∧
      (∀ call, s.ordered call ≠ .undefined) ∧
      (∀ t u, u ≠ t → s.Changes t → ¬ s.Enters u) ∧
      (∀ owner engine, s.owns owner = some engine → ∃ object, s.object engine = some object) ∧
      ∀ engine content, s.memory.buffer engine = some content →
        ∃! owner, s.owns owner = some engine := by
  refine (safe_always rawModels schedule).mono fun s safe => ⟨?_, ?_, ?_, ?_, ?_⟩
  · intro call place
    simpa [place, Fits] using safe.fits call
  · intro call place
    simpa [place, OrderedPc.Fits] using safe.inTurn.fits call
  · intro t u apart changes enters
    exact apart (safe.mutex.alone (holds_of_changes changes) (holds_of_enters enters))
  · intro owner engine owns
    obtain ⟨object, -, found⟩ := safe.object_of_owns owns
    exact ⟨object, found⟩
  · intro engine content live
    obtain ⟨owner, owns⟩ := safe.noneLost engine content live
    exact ⟨owner, owns, fun other owns' => safe.owned.unshared other owner engine owns' owns⟩

end LockedTier
end SospDemo
