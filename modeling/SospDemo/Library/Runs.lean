import Mathlib.Tactic

/-!
# Runs of a guarded transition function

`step s a` is the state after action `a`, or `none` where `a` is not enabled. All
nondeterminism is in the choice of actions, so a run is a list of actions.
-/

namespace Runs
variable {S A : Type*}

def exec (step : S → A → Option S) (s : S) (actions : List A) : Option S :=
  actions.foldlM step s

variable {step : S → A → Option S}

@[simp] theorem exec_nil (s : S) : exec step s [] = some s := rfl

@[simp] theorem exec_cons (s : S) (a : A) (rest : List A) :
    exec step s (a :: rest) = (step s a).bind fun next => exec step next rest := rfl

theorem exec_singleton (s : S) (a : A) : exec step s [a] = step s a := by
  cases taken : step s a <;> simp [taken]

theorem exec_append (s : S) (xs ys : List A) :
    exec step s (xs ++ ys) = (exec step s xs).bind fun next => exec step next ys := by
  simp only [exec, List.foldlM_append]
  rfl

theorem exec_prefix {s t : S} {before actions : List A} (isPrefix : before <+: actions)
    (run : exec step s actions = some t) : ∃ state, exec step s before = some state := by
  obtain ⟨rest, rfl⟩ := isPrefix
  rw [exec_append] at run
  obtain ⟨state, reached, -⟩ := Option.bind_eq_some_iff.mp run
  exact ⟨state, reached⟩

theorem exec_concat (s : S) (actions : List A) (a : A) :
    exec step s (actions ++ [a]) = (exec step s actions).bind fun state => step state a := by
  rw [exec_append]
  cases exec step s actions with
  | none => rfl
  | some state => cases taken : step state a <;> simp [taken]

def EveryState (step : S → A → Option S) (s : S) (actions : List A) (P : S → Prop) : Prop :=
  ∀ before state, before <+: actions → exec step s before = some state → P state

def EveryStep (step : S → A → Option S) (s : S) (actions : List A) (C : S → A → Prop) : Prop :=
  ∀ before a state, before ++ [a] <+: actions → exec step s before = some state → C state a

variable {P : S → Prop} {C : S → A → Prop}

@[simp] theorem everyState_nil (s : S) : EveryState step s [] P ↔ P s := by
  constructor
  · intro always
    exact always [] s List.prefix_rfl rfl
  · rintro holds before state isPrefix reached
    obtain rfl := List.prefix_nil.mp isPrefix
    obtain rfl := Option.some.inj reached
    exact holds

@[simp] theorem everyStep_nil (s : S) : EveryStep step s [] C := by
  intro before a state isPrefix
  simp at isPrefix

theorem everyState_cons (s : S) (a : A) (rest : List A) :
    EveryState step s (a :: rest) P ↔
      P s ∧ ∀ next, step s a = some next → EveryState step next rest P := by
  constructor
  · intro always
    refine ⟨always [] s List.nil_prefix rfl, ?_⟩
    intro next taken before state isPrefix reached
    exact always (a :: before) state (List.cons_prefix_cons.mpr ⟨rfl, isPrefix⟩)
      (by simp [taken, reached])
  · rintro ⟨first, later⟩ before state isPrefix reached
    cases before with
    | nil => exact Option.some.inj reached ▸ first
    | cons b before =>
        obtain ⟨rfl, shorter⟩ := List.cons_prefix_cons.mp isPrefix
        obtain ⟨next, taken, rest_reached⟩ := Option.bind_eq_some_iff.mp reached
        exact later next taken before state shorter rest_reached

theorem everyStep_cons (s : S) (a : A) (rest : List A) :
    EveryStep step s (a :: rest) C ↔
      C s a ∧ ∀ next, step s a = some next → EveryStep step next rest C := by
  constructor
  · intro always
    refine ⟨always [] a s (by simp) rfl, ?_⟩
    intro next taken before b state isPrefix reached
    exact always (a :: before) b state (List.cons_prefix_cons.mpr ⟨rfl, isPrefix⟩)
      (by simp [taken, reached])
  · rintro ⟨first, later⟩ before b state isPrefix reached
    cases before with
    | nil =>
        obtain ⟨rfl, -⟩ := List.cons_prefix_cons.mp isPrefix
        exact Option.some.inj reached ▸ first
    | cons c before =>
        obtain ⟨rfl, shorter⟩ := List.cons_prefix_cons.mp isPrefix
        obtain ⟨next, taken, rest_reached⟩ := Option.bind_eq_some_iff.mp reached
        exact later next taken before b state shorter rest_reached

instance EveryStep.decidable [∀ s a, Decidable (C s a)] :
    (s : S) → (actions : List A) → Decidable (EveryStep step s actions C)
  | s, [] => isTrue (everyStep_nil s)
  | s, a :: rest =>
      match taken : step s a with
      | none => decidable_of_iff (C s a) (by simp [everyStep_cons, taken])
      | some next =>
          have := EveryStep.decidable next rest
          decidable_of_iff (C s a ∧ EveryStep step next rest C) (by simp [everyStep_cons, taken])

theorem EveryState.last {s t : S} {actions : List A} (always : EveryState step s actions P)
    (run : exec step s actions = some t) : P t :=
  always actions t List.prefix_rfl run

theorem EveryState.mono {Q : S → Prop} {s : S} {actions : List A}
    (always : EveryState step s actions P) (weaker : ∀ state, P state → Q state) :
    EveryState step s actions Q :=
  fun before state isPrefix reached => weaker state (always before state isPrefix reached)

theorem EveryStep.mono {D : S → A → Prop} {s : S} {actions : List A}
    (always : EveryStep step s actions C) (weaker : ∀ state a, C state a → D state a) :
    EveryStep step s actions D :=
  fun before a state isPrefix reached => weaker state a (always before a state isPrefix reached)

theorem EveryStep.and {D : S → A → Prop} {s : S} {actions : List A}
    (always : EveryStep step s actions C) (also : EveryStep step s actions D) :
    EveryStep step s actions fun state a => C state a ∧ D state a :=
  fun before a state isPrefix reached =>
    ⟨always before a state isPrefix reached, also before a state isPrefix reached⟩

theorem EveryStep.of_prefix {s : S} {before actions : List A}
    (always : EveryStep step s actions C) (isPrefix : before <+: actions) :
    EveryStep step s before C :=
  fun early a state within reached => always early a state (within.trans isPrefix) reached

theorem EveryStep.of_append {s t : S} {before rest : List A}
    (always : EveryStep step s (before ++ rest) C) (reached : exec step s before = some t) :
    EveryStep step t rest C := by
  intro early a state isPrefix run
  refine always (before ++ early) a state ?_ ?_
  · rw [List.append_assoc]
    exact (List.prefix_append_right_inj before).mpr isPrefix
  · rw [exec_append, reached, Option.bind_some, run]

theorem EveryStep.append {s t : S} {before rest : List A} (first : EveryStep step s before C)
    (reached : exec step s before = some t) (later : EveryStep step t rest C) :
    EveryStep step s (before ++ rest) C := by
  induction before generalizing s with
  | nil => exact Option.some.inj reached ▸ later
  | cons a before ih =>
      obtain ⟨next, taken, reached⟩ := Option.bind_eq_some_iff.mp reached
      obtain ⟨here, onward⟩ := (everyStep_cons s a before).mp first
      refine (everyStep_cons s a (before ++ rest)).mpr ⟨here, fun other takenOther => ?_⟩
      obtain rfl := Option.some.inj (taken.symm.trans takenOther)
      exact ih (onward _ taken) reached

theorem invariant (kept : ∀ s a t, P s → C s a → step s a = some t → P t) {s : S}
    {actions : List A} (initial : P s) (meets : EveryStep step s actions C) :
    EveryState step s actions P := by
  induction actions generalizing s with
  | nil => exact (everyState_nil s).mpr initial
  | cons a rest ih =>
      obtain ⟨first, later⟩ := (everyStep_cons s a rest).mp meets
      refine (everyState_cons s a rest).mpr ⟨initial, ?_⟩
      intro next taken
      exact ih (kept s a next initial first taken) (later next taken)

theorem always (kept : ∀ s a t, P s → step s a = some t → P t) {s : S} {actions : List A}
    (initial : P s) : EveryState step s actions P :=
  invariant (C := fun _ _ => True) (fun s a t holds _ taken => kept s a t holds taken) initial
    fun _ _ _ _ _ => trivial

theorem everyStep_of_everyState
    (needed : ∀ s a t, P s → step s a = some t → P t → C s a) {s t : S} {actions : List A}
    (run : exec step s actions = some t) (always : EveryState step s actions P) :
    EveryStep step s actions C := by
  induction actions generalizing s with
  | nil => exact everyStep_nil s
  | cons a rest ih =>
      obtain ⟨next, taken, run⟩ := Option.bind_eq_some_iff.mp run
      obtain ⟨first, later⟩ := (everyState_cons s a rest).mp always
      have kept : P next := later next taken [] next List.nil_prefix rfl
      refine (everyStep_cons s a rest).mpr ⟨needed s a next first taken kept, ?_⟩
      intro other takenOther
      obtain rfl := Option.some.inj (taken.symm.trans takenOther)
      exact ih run (later _ taken)

/-! ## What can still be reached -/

def CanReach (step : S → A → Option S) (allowed : A → Prop) (s : S) (Goal : S → Prop) : Prop :=
  ∃ actions t, (∀ a ∈ actions, allowed a) ∧ exec step s actions = some t ∧ Goal t

variable {allowed : A → Prop} {Goal : S → Prop}

theorem CanReach.now {s : S} (reached : Goal s) : CanReach step allowed s Goal :=
  ⟨[], s, fun _ mem => absurd mem List.not_mem_nil, rfl, reached⟩

theorem CanReach.cons {s next : S} {a : A} (may : allowed a) (taken : step s a = some next)
    (later : CanReach step allowed next Goal) : CanReach step allowed s Goal := by
  obtain ⟨actions, t, all, run, reached⟩ := later
  refine ⟨a :: actions, t, List.forall_mem_cons.mpr ⟨may, all⟩, ?_, reached⟩
  rw [exec_cons, taken, Option.bind_some, run]

theorem CanReach.trans {s : S} (first : CanReach step allowed s P)
    (later : ∀ t, P t → CanReach step allowed t Goal) : CanReach step allowed s Goal := by
  obtain ⟨actions, t, all, run, halfway⟩ := first
  obtain ⟨rest, u, allRest, runRest, reached⟩ := later t halfway
  refine ⟨actions ++ rest, u, List.forall_mem_append.mpr ⟨all, allRest⟩, ?_, reached⟩
  rw [exec_append, run, Option.bind_some, runRest]

theorem CanReach.of_rank (rank : S → Nat)
    (advance : ∀ s, P s → ¬ Goal s →
      CanReach step allowed s fun t => P t ∧ rank t < rank s) {s : S} (start : P s) :
    CanReach step allowed s fun t => P t ∧ Goal t := by
  by_cases reached : Goal s
  · exact .now ⟨start, reached⟩
  · refine (advance s start reached).trans fun t ⟨holds, _⟩ => ?_
    exact CanReach.of_rank rank advance holds
termination_by rank s

theorem exec_simulates {T : Type*} {stepT : T → A → Option T} (related : S → T → Prop)
    (simulates : ∀ s u a s', related s u → C s a → step s a = some s' →
      ∃ u', stepT u a = some u' ∧ related s' u') {s t : S} {u : T} {actions : List A}
    (start : related s u) (meets : EveryStep step s actions C)
    (run : exec step s actions = some t) :
    ∃ w, exec stepT u actions = some w ∧ related t w := by
  induction actions generalizing s u with
  | nil => exact ⟨u, rfl, Option.some.inj run ▸ start⟩
  | cons a rest ih =>
      obtain ⟨next, taken, run⟩ := Option.bind_eq_some_iff.mp run
      obtain ⟨first, later⟩ := (everyStep_cons s a rest).mp meets
      obtain ⟨u', takenT, stillRelated⟩ := simulates s u a next start first taken
      obtain ⟨w, runT, reached⟩ := ih stillRelated (later next taken) run
      exact ⟨w, by rw [exec_cons, takenT, Option.bind_some, runT], reached⟩

theorem exec_erase {T : Type*} {stepT : T → A → Option T} (project : S → T) (keep : A → Bool)
    (visible : ∀ s a t, keep a → step s a = some t → stepT (project s) a = some (project t))
    (invisible : ∀ s a t, ¬ keep a → C s a → step s a = some t → project t = project s)
    {s t : S} {actions : List A} (meets : EveryStep step s actions C)
    (run : exec step s actions = some t) :
    exec stepT (project s) (actions.filter keep) = some (project t) := by
  induction actions generalizing s with
  | nil => simpa using congrArg project (Option.some.inj run)
  | cons a rest ih =>
      obtain ⟨next, taken, run⟩ := Option.bind_eq_some_iff.mp run
      obtain ⟨first, later⟩ := (everyStep_cons s a rest).mp meets
      by_cases kept : keep a
      · simp only [List.filter_cons, kept, if_true, exec_cons, visible s a next kept taken,
          Option.bind_some]
        exact ih (later next taken) run
      · rw [List.filter_cons_of_neg kept, ← invisible s a next kept first taken]
        exact ih (later next taken) run

theorem exec_filter {T : Type*} {stepT : T → A → Option T} (project : S → T) (keep : A → Bool)
    (visible : ∀ s a t, keep a → step s a = some t → stepT (project s) a = some (project t))
    (invisible : ∀ s a t, ¬ keep a → step s a = some t → project t = project s)
    {s t : S} {actions : List A} (run : exec step s actions = some t) :
    exec stepT (project s) (actions.filter keep) = some (project t) :=
  exec_erase (C := fun _ _ => True) project keep visible
    (fun s a t erased _ taken => invisible s a t erased taken) (fun _ _ _ _ _ => trivial) run

/-! ## Steps that stand for runs -/

/-- What a run is taken for by a machine with other actions: `emit s a` is what action `a` is
taken for in state `s`. -/
def emitted {B : Type*} (step : S → A → Option S) (emit : S → A → List B) (s : S) :
    List A → List B
  | [] => []
  | a :: rest =>
      emit s a ++
        match step s a with
        | some next => emitted step emit next rest
        | none => []

theorem exec_refines_meeting {T B : Type*} {stepT : T → B → Option T} {D : T → B → Prop}
    (emit : S → A → List B) (related : S → T → Prop)
    (refines : ∀ s u a s', related s u → C s a → step s a = some s' →
      ∃ u', exec stepT u (emit s a) = some u' ∧ EveryStep stepT u (emit s a) D ∧ related s' u')
    {s t : S} {u : T} {actions : List A} (start : related s u)
    (meets : EveryStep step s actions C) (run : exec step s actions = some t) :
    ∃ w, exec stepT u (emitted step emit s actions) = some w ∧
      EveryStep stepT u (emitted step emit s actions) D ∧ related t w := by
  induction actions generalizing s u with
  | nil => exact ⟨u, rfl, everyStep_nil u, Option.some.inj run ▸ start⟩
  | cons a rest ih =>
      obtain ⟨next, taken, run⟩ := Option.bind_eq_some_iff.mp run
      obtain ⟨first, later⟩ := (everyStep_cons s a rest).mp meets
      obtain ⟨u', runT, meetsT, stillRelated⟩ := refines s u a next start first taken
      obtain ⟨w, runRest, meetsRest, reached⟩ := ih stillRelated (later next taken) run
      refine ⟨w, ?_, ?_, reached⟩
      · rw [emitted, taken, exec_append, runT, Option.bind_some, runRest]
      · rw [emitted, taken]
        exact meetsT.append runT meetsRest

theorem exec_refines {T B : Type*} {stepT : T → B → Option T} (emit : S → A → List B)
    (related : S → T → Prop)
    (refines : ∀ s u a s', related s u → C s a → step s a = some s' →
      ∃ u', exec stepT u (emit s a) = some u' ∧ related s' u') {s t : S} {u : T} {actions : List A}
    (start : related s u) (meets : EveryStep step s actions C)
    (run : exec step s actions = some t) :
    ∃ w, exec stepT u (emitted step emit s actions) = some w ∧ related t w := by
  obtain ⟨w, runT, -, reached⟩ :=
    exec_refines_meeting (D := fun _ _ => True) emit related
      (fun s u a s' holds first taken => by
        obtain ⟨u', runT, stillRelated⟩ := refines s u a s' holds first taken
        exact ⟨u', runT, fun _ _ _ _ _ => trivial, stillRelated⟩) start meets run
  exact ⟨w, runT, reached⟩

end Runs
