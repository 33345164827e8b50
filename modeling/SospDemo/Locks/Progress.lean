import SospDemo.Locks.Exclusion

/-!
# Every call can return

A call waits for the mutex only, and one that holds the mutex waits for nothing. So the calls
that have begun can all return, whatever state they have brought the tier to.
-/

namespace SospDemo
open Runs
variable {Engine Input Output Exn : Type} {parts : EngineParts Engine Input Output Exn}

def InferencePc.left : InferencePc Exn → Nat
  | .outside => 13
  | .lockShared => 12
  | .findEngine => 11
  | .findModel => 10
  | .unlockMissed => 9
  | .build => 8
  | .lock _ => 7
  | .assign _ => 6
  | .subscript _ => 5
  | .copy _ _ => 4
  | .forward _ _ => 3
  | .read _ _ => 2
  | .unlock _ _ => 1
  | .answered _ | .undefined => 0

def OrderedPc.left : OrderedPc → Nat
  | .outside => 6
  | .search => 5
  | .change => 4
  | .lock => 3
  | .erase => 2
  | .unlock => 1
  | .returned _ | .undefined => 0

namespace LockedTier
variable {s next : LockedTier parts}

def left (s : LockedTier parts) : Task → Nat
  | .inference call => (s.inferences call).left
  | .ordered call => (s.ordered call).left

def Called (s : LockedTier parts) : Task → Prop
  | .inference call => s.inferences call ≠ .outside
  | .ordered call => s.ordered call ≠ .outside

def Returned (s : LockedTier parts) : Task → Prop
  | .inference call => ∃ outcome, s.inferences call = .answered outcome
  | .ordered call => ∃ code, s.ordered call = .returned code

theorem called_iff {t : Task} : s.Called t ↔ s.left t < match t with
    | .inference _ => (.outside : InferencePc Exn).left
    | .ordered _ => OrderedPc.left .outside := by
  cases t with
  | inference call =>
      rw [Called, left]
      cases s.inferences call <;> simp [InferencePc.left]
  | ordered call =>
      rw [Called, left]
      cases s.ordered call <;> simp [OrderedPc.left]

theorem left_le (s : LockedTier parts) (t : Task) : s.left t ≤ match t with
    | .inference _ => (.outside : InferencePc Exn).left
    | .ordered _ => OrderedPc.left .outside := by
  cases t with
  | inference call =>
      rw [left]
      cases s.inferences call <;> simp [InferencePc.left]
  | ordered call =>
      rw [left]
      cases s.ordered call <;> simp [OrderedPc.left]

theorem left_pos_of_holds {t : Task} (holding : s.holds t ≠ .free) : 0 < s.left t := by
  cases t with
  | inference call =>
      rw [holds] at holding
      rw [left]
      cases place : s.inferences call <;> simp_all [InferencePc.holds, InferencePc.left]
  | ordered call =>
      rw [holds] at holding
      rw [left]
      cases place : s.ordered call <;> simp_all [OrderedPc.holds, OrderedPc.left]

theorem called_of_holds {t : Task} (holding : s.holds t ≠ .free) : s.Called t := by
  cases t with
  | inference call =>
      intro outside
      rw [holds, outside] at holding
      exact holding rfl
  | ordered call =>
      intro outside
      rw [holds, outside] at holding
      exact holding rfl

theorem Safe.returned (safe : s.Safe) {t : Task} (done : s.left t = 0) : s.Returned t := by
  cases t with
  | inference call =>
      have fits := safe.fits call
      rw [left] at done
      cases place : s.inferences call with
      | answered outcome => exact ⟨outcome, place⟩
      | undefined => simp [place, Fits] at fits
      | _ => simp [place, InferencePc.left] at done
  | ordered call =>
      have fits := safe.inTurn.fits call
      rw [left] at done
      cases place : s.ordered call with
      | returned code => exact ⟨code, place⟩
      | undefined => simp [place, OrderedPc.Fits] at fits
      | _ => simp [place, OrderedPc.left] at done

/-! ## One step -/

theorem Safe.enabled (safe : s.Safe) {t : Task} (called : s.Called t) (unfinished : s.left t ≠ 0)
    (mutex : s.holds t ≠ .free ∨ ∀ u, s.holds u = .free) : ∃ next, s.step t = some next := by
  have free (waits : s.holds t = .free) : ∀ u, s.holds u = .free :=
    mutex.resolve_left (absurd waits)
  cases t with
  | inference call =>
      rw [left] at unfinished
      cases place : s.inferences call with
      | lockShared =>
          have unlocked := free (by rw [holds, place]; rfl)
          obtain ⟨m, locked⟩ := safe.mutex.lockShared_of_free (fun u => by simp [unlocked u])
            (.inference call)
          simp [step, advance, place, locked]
      | lock engine =>
          have unlocked := free (by rw [holds, place]; rfl)
          obtain ⟨m, locked⟩ := safe.mutex.lock_of_free unlocked (.inference call)
          simp [step, advance, place, locked]
      | findEngine =>
          cases found : s.inferenceEngines.find call.tag <;> simp [step, advance, place, found]
      | findModel => cases found : s.rawModels.find call.tag <;> simp [step, advance, place, found]
      | subscript path =>
          cases found : s.inferenceEngines.find call.tag <;> simp [step, advance, place, found]
      | answered _ | undefined => simp [place, InferencePc.left] at unfinished
      | _ => simp [step, advance, place]
  | ordered call =>
      rw [left] at unfinished
      cases place : s.ordered call with
      | lock =>
          have unlocked := free (by rw [holds, place]; rfl)
          obtain ⟨m, locked⟩ := safe.mutex.lock_of_free unlocked (.ordered call)
          simp [step, advanceOrdered, place, locked]
      | outside => exact absurd place called
      | returned _ | undefined => simp [place, OrderedPc.left] at unfinished
      | _ => simp [step, advanceOrdered, place]

theorem advance_left {call : InferenceCall} (taken : s.advance call = some next) :
    next.left (.inference call) < (s.inferences call).left := by
  cases place : s.inferences call with
  | outside | unlockMissed =>
      simp only [advance, place, Option.some.injEq] at taken
      subst taken
      simp [left, goto, InferencePc.left]
  | lockShared | lock engine =>
      simp only [advance, place, Option.map_eq_some_iff] at taken
      obtain ⟨mutex, -, rfl⟩ := taken
      simp [left, goto, InferencePc.left]
  | findEngine | findModel | subscript path =>
      simp only [advance, place] at taken
      split at taken <;> (cases taken; simp [left, goto, InferencePc.left])
  | build =>
      simp only [advance, place, build, Option.some.injEq] at taken
      subst taken
      split <;> simp [left, goto, InferencePc.left]
  | assign engine =>
      simp only [advance, place, assign, Option.some.injEq] at taken
      subst taken
      simp [left, goto, InferencePc.left]
  | copy path engine =>
      simp only [advance, place, copy, Option.some.injEq] at taken
      subst taken
      split
      · simp [left, goto, InferencePc.left]
      · split <;> simp [left, goto, InferencePc.left]
  | forward path engine =>
      simp only [advance, place, forward, Option.some.injEq] at taken
      subst taken
      split
      · split <;> simp [left, goto, InferencePc.left]
      · simp [left, goto, InferencePc.left]
  | read path engine =>
      simp only [advance, place, read, Option.some.injEq] at taken
      subst taken
      split <;> simp [left, goto, InferencePc.left]
  | unlock path outcome =>
      simp only [advance, place, unlock, Option.some.injEq] at taken
      subst taken
      simp [left, goto, InferencePc.left]
  | answered outcome => simp [advance, place] at taken
  | undefined => simp [advance, place] at taken

theorem advanceOrdered_left {call : OrderedCall} (taken : s.advanceOrdered call = some next) :
    next.left (.ordered call) < (s.ordered call).left := by
  cases place : s.ordered call with
  | outside =>
      simp only [advanceOrdered, place] at taken
      split at taken
      · cases taken
        simp [left, gotoOrdered, OrderedPc.left]
      · cases taken
  | search =>
      simp only [advanceOrdered, place, search, Option.some.injEq] at taken
      subst taken
      split <;> simp [left, gotoOrdered, OrderedPc.left]
  | change =>
      simp only [advanceOrdered, place, change, Option.some.injEq] at taken
      subst taken
      split
      · simp [left, gotoOrdered, OrderedPc.left]
      · split <;> simp [left, gotoOrdered, OrderedPc.left]
  | lock =>
      simp only [advanceOrdered, place, Option.map_eq_some_iff] at taken
      obtain ⟨mutex, -, rfl⟩ := taken
      simp [left, gotoOrdered, OrderedPc.left]
  | erase =>
      simp only [advanceOrdered, place, erase, Option.some.injEq] at taken
      subst taken
      split <;> simp [left, gotoOrdered, OrderedPc.left]
  | unlock =>
      simp only [advanceOrdered, place, Option.some.injEq] at taken
      subst taken
      simp [left, gotoOrdered, OrderedPc.left]
  | returned code => simp [advanceOrdered, place] at taken
  | undefined => simp [advanceOrdered, place] at taken

theorem step_left {t : Task} (taken : s.step t = some next) : next.left t < s.left t := by
  cases t with
  | inference call => exact advance_left taken
  | ordered call => exact advanceOrdered_left taken

theorem Safe.others (safe : s.Safe) {t u : Task} (taken : s.step t = some next) (apart : u ≠ t) :
    next.left u = s.left u ∧ next.holds u = s.holds u := by
  cases safe.effect taken with
  | moves | builds | assigns | copies | computes =>
      cases u with
      | inference other =>
          have other_ne : other ≠ _ := fun same => apart (congrArg Task.inference same)
          simp [left, holds, goto, assign, other_ne]
      | ordered other => exact ⟨rfl, rfl⟩
  | movesOrdered | erases =>
      cases u with
      | inference other => exact ⟨rfl, rfl⟩
      | ordered other =>
          have other_ne : other ≠ _ := fun same => apart (congrArg Task.ordered same)
          simp [left, holds, gotoOrdered, other_ne]

theorem Safe.called_kept (safe : s.Safe) {t u : Task} (taken : s.step t = some next)
    (called : s.Called u) : next.Called u := by
  rcases eq_or_ne u t with rfl | apart
  · exact called_iff.mpr ((step_left taken).trans_le (s.left_le u))
  · rw [called_iff] at called ⊢
    rwa [(safe.others taken apart).1]

/-! ## Runs -/

structure Draining (tasks : List Task) (s : LockedTier parts) : Prop where
  safe : s.Safe
  called : ∀ t ∈ tasks, s.Called t
  holders : ∀ t, s.holds t ≠ .free → t ∈ tasks

def stepsLeft (tasks : List Task) (s : LockedTier parts) : Nat := (tasks.map s.left).sum

theorem Draining.advance {tasks : List Task} (draining : Draining tasks s)
    (unfinished : ¬ ∀ t ∈ tasks, s.left t = 0) :
    CanReach step (· ∈ tasks) s fun next =>
      Draining tasks next ∧ stepsLeft tasks next < stepsLeft tasks s := by
  have ⟨t, mem, enabled⟩ : ∃ t ∈ tasks, ∃ next, s.step t = some next := by
    by_cases held : ∃ t, s.holds t ≠ .free
    · obtain ⟨t, holding⟩ := held
      exact ⟨t, draining.holders t holding,
        draining.safe.enabled (called_of_holds holding) (left_pos_of_holds holding).ne'
          (.inl holding)⟩
    · push Not at held unfinished
      obtain ⟨t, mem, some_left⟩ := unfinished
      exact ⟨t, mem, draining.safe.enabled (draining.called t mem) some_left (.inr held)⟩
  obtain ⟨next, taken⟩ := enabled
  refine .cons mem taken (.now ⟨⟨draining.safe.kept taken, ?_, ?_⟩, ?_⟩)
  · exact fun u known => draining.safe.called_kept taken (draining.called u known)
  · intro u holding
    rcases eq_or_ne u t with rfl | apart
    · exact mem
    · exact draining.holders u ((draining.safe.others taken apart).2 ▸ holding)
  · refine List.sum_lt_sum _ _ ?_ ⟨t, mem, step_left taken⟩
    intro u _
    rcases eq_or_ne u t with rfl | apart
    · exact (step_left taken).le
    · exact (draining.safe.others taken apart).1.le

theorem Safe.drains (safe : s.Safe) (tasks : List Task) (called : ∀ t ∈ tasks, s.Called t) :
    CanReach step s.Called s fun final => ∀ t ∈ tasks, final.Returned t := by
  let holders := s.mutex.readers ++ s.mutex.writer.toList
  have holds_mem (t : Task) : t ∈ holders ↔ s.holds t ≠ .free := by
    simp only [holders, List.mem_append, Option.mem_toList, safe.mutex.reader, safe.mutex.writer]
    cases s.holds t <;> simp
  have all_called : ∀ t ∈ tasks ++ holders, s.Called t := by
    intro t mem
    rcases List.mem_append.mp mem with given | holder
    · exact called t given
    · exact called_of_holds ((holds_mem t).mp holder)
  have start : Draining (tasks ++ holders) s :=
    ⟨safe, all_called, fun t holding => List.mem_append_right _ ((holds_mem t).mpr holding)⟩
  obtain ⟨schedule, final, all, run, draining, done⟩ :=
    CanReach.of_rank (stepsLeft (tasks ++ holders)) (fun _ draining => draining.advance) start
  exact ⟨schedule, final, fun t mem => all_called t (all t mem), run, fun t mem =>
    draining.safe.returned (done t (List.mem_append_left _ mem))⟩

theorem calls_return (rawModels : StdMap UInt32 Model) (schedule : List Task) :
    EveryState step (constructed rawModels : LockedTier parts) schedule fun s =>
      ∀ tasks : List {t // s.Called t},
        CanReach step s.Called s fun final => ∀ t ∈ tasks, final.Returned t.1 := by
  refine (safe_always rawModels schedule).mono fun s safe tasks => ?_
  have called : ∀ t ∈ tasks.map Subtype.val, s.Called t := by
    intro t mem
    obtain ⟨u, -, rfl⟩ := List.mem_map.mp mem
    exact u.2
  obtain ⟨rest, final, all, run, done⟩ := safe.drains (tasks.map Subtype.val) called
  exact ⟨rest, final, all, run, fun t mem => done t.1 (List.mem_map_of_mem mem)⟩

end LockedTier
end SospDemo
