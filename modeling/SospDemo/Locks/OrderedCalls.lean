import SospDemo.Locks.Exclusion

/-!
# Ordered calls between their search and their change

An ordered call searches `raw_models` in one step and changes them in another. As the ordered calls
run in turn, only the `raw_models[tag]` of a build can come between.
-/

namespace SospDemo
open Buffers
variable {Engine Input Output Exn : Type} {parts : EngineParts Engine Input Output Exn}

def OrderedPc.pending : OrderedPc → Bool
  | .search | .change => true
  | _ => false

theorem OrderedPc.pending_iff {pc : OrderedPc} : pc.pending ↔ pc = .search ∨ pc = .change := by
  cases pc <;> simp [pending]

namespace LockedTier
variable {s next : LockedTier parts} {call : InferenceCall}

/-- The code an ordered call returns, from the step by which it takes effect. -/
def code (s : LockedTier parts) (call : OrderedCall) : Option Int :=
  match s.ordered call with
  | .outside | .search | .change | .undefined => none
  | .lock | .erase | .unlock => some 0
  | .returned code => some code

def Found (s : LockedTier parts) : Prop :=
  ∀ call, s.ordered call = .change → (call.op.act (s.rawModels.find call.tag)).1 = 0

def effected (s : LockedTier parts) (call : OrderedCall) : LockedTier parts :=
  { s.gotoOrdered call
      (if call.op.dropsEngine (s.rawModels.find call.tag) then .lock
        else .returned (call.op.act (s.rawModels.find call.tag)).1) with
    rawModels := s.rawModels.put call.tag (call.op.act (s.rawModels.find call.tag)).2 }

def takesEffect (s : LockedTier parts) (call : OrderedCall) : Bool :=
  match s.ordered call with
  | .search => (call.op.act (s.rawModels.find call.tag)).1 ≠ 0
  | .change => true
  | _ => false

theorem search_eq (s : LockedTier parts) (call : OrderedCall) :
    s.search call =
      if (call.op.act (s.rawModels.find call.tag)).1 = 0 then s.gotoOrdered call .change
      else s.effected call := by
  obtain ⟨id, op⟩ := call
  cases op with
  | orderedInstallModel tag synsetSize symbolSize paramsSize modelData =>
      cases installed : s.rawModels.find tag with
      | none => simp [search, OrderedCall.tag, OrderedOp.tag, installed, OrderedOp.act]
      | some model =>
          simp [search, effected, OrderedCall.tag, OrderedOp.tag, installed, OrderedOp.act,
            OrderedOp.dropsEngine, StdMap.assign_of_present installed, gotoOrdered]
  | orderedRemoveModel tag =>
      cases installed : s.rawModels.find tag with
      | none =>
          simp [search, effected, OrderedCall.tag, OrderedOp.tag, installed, OrderedOp.act,
            OrderedOp.dropsEngine, StdMap.erase_of_absent installed, gotoOrdered]
      | some model => simp [search, OrderedCall.tag, OrderedOp.tag, installed, OrderedOp.act]

theorem change_eq {call : OrderedCall} (found : (call.op.act (s.rawModels.find call.tag)).1 = 0) :
    s.change call = s.effected call := by
  obtain ⟨id, op⟩ := call
  cases op with
  | orderedInstallModel tag synsetSize symbolSize paramsSize modelData =>
      cases installed : s.rawModels.find tag with
      | none =>
          simp [change, effected, OrderedCall.tag, OrderedOp.tag, installed, OrderedOp.act,
            OrderedOp.dropsEngine, StdMap.emplace_of_absent]
      | some model => simp [OrderedCall.tag, OrderedOp.tag, installed, OrderedOp.act] at found
  | orderedRemoveModel tag =>
      cases installed : s.rawModels.find tag with
      | none => simp [OrderedCall.tag, OrderedOp.tag, installed, OrderedOp.act] at found
      | some model =>
          simp [change, effected, OrderedCall.tag, OrderedOp.tag, installed, OrderedOp.act,
            OrderedOp.dropsEngine]

theorem pending_of_takesEffect {call : OrderedCall} (takes : s.takesEffect call) :
    (s.ordered call).pending := by
  cases place : s.ordered call with
  | search | change => rfl
  | _ => simp [takesEffect, place] at takes

theorem Found.advance_cases (found : s.Found) {call : OrderedCall}
    (taken : s.advanceOrdered call = some next) :
    (s.takesEffect call ∧ next = s.effected call) ∨
    s.takesEffect call = false ∧ next.rawModels = s.rawModels ∧ next.code call = s.code call ∧
      (next.ordered call = .change → (call.op.act (s.rawModels.find call.tag)).1 = 0) := by
  cases place : s.ordered call with
  | search =>
      simp only [advanceOrdered, place, search_eq, Option.some.injEq] at taken
      subst taken
      split
      · rename_i finds
        exact .inr ⟨by simp [takesEffect, place, finds], rfl, by simp [code, gotoOrdered, place],
          fun _ => finds⟩
      · rename_i fails
        exact .inl ⟨by simp [takesEffect, place, fails], rfl⟩
  | change =>
      simp only [advanceOrdered, place, change_eq (found call place), Option.some.injEq] at taken
      exact .inl ⟨by simp [takesEffect, place], taken.symm⟩
  | outside =>
      simp only [advanceOrdered, place] at taken
      split at taken <;> cases taken
      exact .inr ⟨by simp [takesEffect, place], rfl, by simp [code, gotoOrdered, place],
        by simp [gotoOrdered]⟩
  | lock =>
      simp only [advanceOrdered, place, Option.map_eq_some_iff] at taken
      obtain ⟨mutex, -, rfl⟩ := taken
      exact .inr ⟨by simp [takesEffect, place], rfl, by simp [code, gotoOrdered, place],
        by simp [gotoOrdered]⟩
  | erase =>
      simp only [advanceOrdered, place, erase, Option.some.injEq] at taken
      subst taken
      split <;> exact .inr ⟨by simp [takesEffect, place], rfl, by simp [code, gotoOrdered, place],
        by simp [gotoOrdered]⟩
  | unlock =>
      simp only [advanceOrdered, place, Option.some.injEq] at taken
      subst taken
      exact .inr ⟨by simp [takesEffect, place], rfl, by simp [code, gotoOrdered, place],
        by simp [gotoOrdered]⟩
  | returned code => simp [advanceOrdered, place] at taken
  | undefined => simp [advanceOrdered, place] at taken

theorem effected_ordered (s : LockedTier parts) (call : OrderedCall) :
    (s.effected call).ordered = Function.update s.ordered call
      (if call.op.dropsEngine (s.rawModels.find call.tag) then .lock
        else .returned (call.op.act (s.rawModels.find call.tag)).1) := rfl

theorem Safe.turn_of_effect (safe : s.Safe) {call other : OrderedCall}
    (effect : Effect s (.ordered call) next) (busy : (s.ordered other).underWay) : other = call := by
  have turn := (safe.inTurn.delivering other).mp busy
  cases effect with
  | movesOrdered pc mutex rawModels held own fits =>
      rcases own with idle | mine
      · cases idle.symm.trans turn
      · exact Option.some.inj (turn.symm.trans mine)
  | erases engine place cached =>
      have mine := (safe.inTurn.delivering call).mp (by rw [place]; rfl)
      exact Option.some.inj (turn.symm.trans mine)

theorem Safe.found_ordered (safe : s.Safe) (found : s.Found) {call : OrderedCall}
    (taken : s.advanceOrdered call = some next) : next.Found := by
  intro other place
  have effect := safe.effect_ordered taken
  by_cases same : other = call
  · subst same
    rcases found.advance_cases taken with ⟨-, rfl⟩ | ⟨-, rawModels, -, finds⟩
    · rw [effected_ordered, Function.update_self] at place
      split at place <;> cases place
    · rw [rawModels]
      exact finds place
  · have before : next.ordered other = s.ordered other := by
      cases effect with
      | movesOrdered | erases => simp [gotoOrdered, same]
    rw [before] at place
    exact absurd (safe.turn_of_effect effect (by rw [place]; rfl)) same

theorem Safe.found_inference (safe : s.Safe) (found : s.Found)
    (undisturbed : s.inferences call = .build → s.rawModels.find call.tag = none →
      ∀ other : OrderedCall, other.tag = call.tag → s.ordered other ≠ .change)
    (taken : s.advance call = some next) : next.Found := by
  have ⟨ordered, reads⟩ : next.ordered = s.ordered ∧ s.Reads call next.rawModels := by
    cases safe.effect_inference taken with
    | moves pc mutex rawModels held unstored idle fits reads => exact ⟨rfl, reads⟩
    | builds engine rawModels place reads => exact ⟨rfl, reads⟩
    | assigns | copies | computes => exact ⟨rfl, .inl rfl⟩
  intro other place
  rw [ordered] at place
  have before := found other place
  rcases reads with same | ⟨building, same⟩
  · rwa [same]
  · cases bound : s.rawModels.find call.tag with
    | some model => rwa [same, StdMap.subscript_of_present bound]
    | none =>
        have apart : other.tag ≠ call.tag := fun tag => undisturbed building bound other tag place
        rwa [same, StdMap.subscript_of_absent bound, StdMap.find_assign, if_neg apart]

end LockedTier
end SospDemo
