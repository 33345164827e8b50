import SospDemo.Library.Runs
import SospDemo.Model.ServerLifeCycle

/-!
# The flag of the gRPC server

`start` never sets `started`, so the first test always lets a start through and always turns a
shutdown away. What the flag is meant to say holds only while `BuildAndStart` returns no server.
-/

namespace SospDemo
namespace ServerLifeCycle
open Runs
variable {Thread : Type} {s next : ServerLifeCycle Thread} {a : ServerAction Thread}

/-! ## What the flag should say -/

/-- A shutdown that was called after a completed start has returned, and no start is later. -/
def ShutDownLast (s : ServerLifeCycle Thread) : Prop :=
  ∃ t u before after, s.events = before ++ .called .shutdown t :: after ∧
    .returned .start u ∈ before ∧ .returned .shutdown t ∈ after ∧
    (∀ v, .called .start v ∉ after ∧ .returned .start v ∉ after) ∧ ∀ v, (s.pcs v).inStart = false

structure Tracked (s : ServerLifeCycle Thread) : Prop where
  flag_iff : s.serviceMutex = none → (s.started = true ↔ s.running ≠ [])
  at_most_one : s.serviceMutex = none → s.running.length ≤ 1
  shut_down : s.serviceMutex = none → s.ShutDownLast → s.running = []

def Builds (s : ServerLifeCycle Thread) (a : ServerAction Thread) : Prop :=
  ∃ t, a = .advance t true ∧ s.pcs t = .buildAndStart

/-! ## Invariants -/

structure Placed (mutex : Option Thread) (built : Nat) (t : Thread) (pc : ServerPc) : Prop where
  unreached : pc ≠ .shutdownAndWait
  mutex : pc.holds = true → mutex = some t
  assigned : ∀ id, pc = .assign (some id) → id < built

structure Unflagged (s : ServerLifeCycle Thread) : Prop where
  started : s.started = false
  placed : ∀ t, Placed s.serviceMutex s.built t (s.pcs t)
  server : ∀ id, s.server = some id → id < s.built

theorem placed_early {mutex : Option Thread} {built : Nat} {t : Thread} {pc : ServerPc}
    (early : pc.holds = false) : Placed mutex built t pc := by
  refine ⟨?_, ?_, ?_⟩
  · rintro rfl
    cases early
  · intro holds
    exact absurd (early.symm.trans holds) Bool.false_ne_true
  · rintro id rfl
    cases early

theorem tracked_of_idle (unflagged : s.Unflagged) (idle : s.running = []) : s.Tracked := by
  refine ⟨fun _ => ?_, fun _ => ?_, fun _ _ => idle⟩
  · rw [unflagged.started, idle]
    simp
  · rw [idle]
    exact Nat.zero_le 1

def InBody : ServerPc → Prop
  | .assign _ | .release _ => True
  | _ => False

structure Building (n : Nat) (t : Thread) (s : ServerLifeCycle Thread) : Prop where
  mutex : s.serviceMutex = some t
  running : n ∈ s.running
  place : (s.pcs t = .assign (some n) ∧ s.server ≠ some n) ∨ s.pcs t = .release .start

theorem Building.inBody {n : Nat} {t : Thread} (building : Building n t s) : InBody (s.pcs t) := by
  rcases building.place with ⟨assigns, -⟩ | releases
  · rw [assigns]
    trivial
  · rw [releases]
    trivial

/-! ## One step -/

variable [DecidableEq Thread]

theorem placed_update {mutex : Option Thread} {built : Nat} {t : Thread} {pc : ServerPc}
    (others : ∀ u, u ≠ t → Placed mutex built u (s.pcs u)) (this : Placed mutex built t pc)
    (u : Thread) : Placed mutex built u (Function.update s.pcs t pc u) := by
  rcases eq_or_ne u t with rfl | apart
  · rwa [Function.update_self]
  · rw [Function.update_of_ne apart]
    exact others u apart

theorem unflagged_construct (t : Thread) : (construct t).Unflagged := by
  refine ⟨rfl, ?_, ?_⟩
  · exact placed_update (s := cleared) (fun u _ => placed_early rfl) (placed_early rfl)
  · intro id none
    cases none

inductive Effect (s : ServerLifeCycle Thread) (t : Thread) :
    ServerAction Thread → ServerLifeCycle Thread → Prop
  | moves {a : ServerAction Thread} (pc : ServerPc) (events : List (ServerEvent Thread))
      (destructed : Bool) (early : ¬ InBody (s.pcs t))
      (placed : Placed s.serviceMutex s.built t pc) :
      Effect s t a { s.goto t pc with events := events, destructed := destructed }
  | locks {a : ServerAction Thread} (m : ServerMethod) (free : s.serviceMutex = none) :
      Effect s t a { s.goto t (.secondTest m) with serviceMutex := some t }
  | builds (body : s.pcs t = .buildAndStart) :
      Effect s t (.advance t true) { s.goto t (.assign (some s.built)) with
        built := s.built + 1
        running := s.running ++ [s.built] }
  | assigns {a : ServerAction Thread} (built : Option Nat) (body : s.pcs t = .assign built) :
      Effect s t a { s.goto t (.release .start) with
        server := built
        running := match s.server with
          | some old => s.running.erase old
          | none => s.running }
  | releases {a : ServerAction Thread} (m : ServerMethod) (body : s.pcs t = .release m) :
      Effect s t a { s.leave m t with serviceMutex := none }

theorem Unflagged.effect_advance (unflagged : s.Unflagged) {t : Thread} {answer : Bool}
    (taken : s.advance t answer = some next) : Effect s t (.advance t answer) next := by
  have noFlag := unflagged.started
  have placed := unflagged.placed t
  cases pc : s.pcs t with
  | outside => simp [advance, pc] at taken
  | firstTest m =>
      have early : ¬ InBody (s.pcs t) := by simp [pc, InBody]
      cases m with
      | start =>
          simp only [advance, pc, ServerMethod.leaves, noFlag, Bool.false_eq_true,
            if_false, Option.some.injEq] at taken
          subst taken
          exact .moves (.lock .start) _ _ early (placed_early rfl)
      | shutdown =>
          simp only [advance, pc, ServerMethod.leaves, noFlag, Bool.not_false, if_true,
            Option.some.injEq] at taken
          subst taken
          exact .moves .outside _ _ early (placed_early rfl)
  | lock m =>
      simp only [advance, pc, Option.ite_none_right_eq_some, Option.some.injEq] at taken
      obtain ⟨free, rfl⟩ := taken
      exact .locks m free
  | secondTest m =>
      have early : ¬ InBody (s.pcs t) := by simp [pc, InBody]
      have mutex : s.serviceMutex = some t := placed.mutex (by rw [pc]; rfl)
      cases m with
      | start =>
          simp only [advance, pc, ServerMethod.leaves, noFlag, Bool.false_eq_true,
            if_false, Option.some.injEq] at taken
          subst taken
          exact .moves .buildAndStart _ _ early ⟨by simp, fun _ => mutex, by simp⟩
      | shutdown =>
          simp only [advance, pc, ServerMethod.leaves, noFlag, Bool.not_false, if_true,
            Option.some.injEq] at taken
          subst taken
          exact .moves (.release .shutdown) _ _ early ⟨by simp, fun _ => mutex, by simp⟩
  | buildAndStart =>
      have early : ¬ InBody (s.pcs t) := by simp [pc, InBody]
      have mutex : s.serviceMutex = some t := placed.mutex (by rw [pc]; rfl)
      cases answer with
      | true =>
          simp only [advance, pc, if_true, Option.some.injEq] at taken
          subst taken
          exact .builds pc
      | false =>
          simp only [advance, pc, Bool.false_eq_true, if_false,
            Option.some.injEq] at taken
          subst taken
          exact .moves (.assign none) _ _ early ⟨by simp, fun _ => mutex, by simp⟩
  | assign built =>
      simp only [advance, pc, Option.some.injEq] at taken
      subst taken
      exact .assigns built pc
  | shutdownAndWait => exact absurd pc placed.unreached
  | release m =>
      simp only [advance, pc, Option.some.injEq] at taken
      subst taken
      exact .releases m pc

theorem Unflagged.effect (unflagged : s.Unflagged) (taken : step s a = some next) :
    ∃ t, Effect s t a next := by
  cases a with
  | call m t =>
      simp only [step, Option.ite_none_right_eq_some, Option.some.injEq] at taken
      obtain ⟨⟨outside, -⟩, rfl⟩ := taken
      have early : ¬ InBody (s.pcs t) := by simp [outside, InBody]
      exact ⟨t, .moves (.firstTest m) _ s.destructed early (placed_early rfl)⟩
  | destruct t =>
      simp only [step, Option.ite_none_right_eq_some, Option.some.injEq] at taken
      obtain ⟨⟨outside, -⟩, rfl⟩ := taken
      have early : ¬ InBody (s.pcs t) := by simp [outside, InBody]
      exact ⟨t, .moves (.firstTest .shutdown) _ true early (placed_early rfl)⟩
  | advance t answer => exact ⟨t, unflagged.effect_advance taken⟩

/-! ## Every run -/

theorem Unflagged.kept (unflagged : s.Unflagged) (taken : step s a = some next) :
    next.Unflagged := by
  obtain ⟨t, effect⟩ := unflagged.effect taken
  obtain ⟨started, placed, server⟩ := unflagged
  cases effect with
  | moves pc events destructed early this =>
      exact ⟨started, placed_update (fun u _ => placed u) this, server⟩
  | locks m free =>
      refine ⟨started, placed_update ?_ ⟨by simp, fun _ => rfl, by simp⟩, server⟩
      intro u _
      -- nobody holds the mutex that is free
      refine placed_early (Bool.eq_false_iff.mpr fun holds => ?_)
      exact absurd (free.symm.trans ((placed u).mutex holds)) (by simp)
  | builds body =>
      have mutex : s.serviceMutex = some t := (placed t).mutex (by rw [body]; rfl)
      refine ⟨started, placed_update ?_ ⟨by simp, fun _ => mutex, ?_⟩, ?_⟩
      · intro u _
        exact ⟨(placed u).unreached, (placed u).mutex, fun id assigns =>
          ((placed u).assigned id assigns).trans (Nat.lt_succ_self _)⟩
      · rintro id ⟨⟩
        exact Nat.lt_succ_self _
      · intro id found
        exact (server id found).trans (Nat.lt_succ_self _)
  | assigns built body =>
      have mutex : s.serviceMutex = some t := (placed t).mutex (by rw [body]; rfl)
      refine ⟨started, placed_update (fun u _ => placed u) ⟨by simp, fun _ => mutex, by simp⟩, ?_⟩
      rintro id ⟨⟩
      exact (placed t).assigned id body
  | releases m body =>
      have mutex : s.serviceMutex = some t := (placed t).mutex (by rw [body]; rfl)
      refine ⟨started, placed_update ?_ (placed_early rfl), server⟩
      intro u apart
      refine placed_early (Bool.eq_false_iff.mpr fun holds => ?_)
      exact apart (Option.some.inj (((placed u).mutex holds).symm.trans mutex))

theorem everyState_unflagged (t : Thread) (actions : List (ServerAction Thread)) :
    EveryState step (construct t) actions Unflagged := by
  refine invariant (C := fun _ _ => True) ?_ (unflagged_construct t) fun _ _ _ _ _ => trivial
  intro s a next unflagged _ taken
  exact unflagged.kept taken

theorem running_eq_nil (idle : s.running = []) (unflagged : s.Unflagged) (noServer : ¬ Builds s a)
    (taken : step s a = some next) : next.running = [] := by
  obtain ⟨t, effect⟩ := unflagged.effect taken
  cases effect with
  | moves => exact idle
  | locks => exact idle
  | builds body => exact absurd ⟨t, rfl, body⟩ noServer
  | assigns built body =>
      cases old : s.server with
      | none => simp only [idle]
      | some id => simp only [idle, List.erase_nil]
  | releases => exact idle

theorem Building.kept {n : Nat} {t : Thread} (building : Building n t s) (unflagged : s.Unflagged)
    (taken : step s a = some next) :
    Building n t next ∨ next.serviceMutex = none ∧ n ∈ next.running := by
  obtain ⟨u, effect⟩ := unflagged.effect taken
  have body := building.inBody
  obtain ⟨mutex, running, place⟩ := building
  have owner : (s.pcs u).holds = true → u = t := fun holds =>
    Option.some.inj (((unflagged.placed u).mutex holds).symm.trans mutex)
  cases effect with
  | moves pc events destructed early placed =>
      have apart : t ≠ u := by
        rintro rfl
        exact early body
      have same : Function.update s.pcs u pc t = s.pcs t := Function.update_of_ne apart _ _
      left
      refine ⟨mutex, running, ?_⟩
      simp only [goto, same]
      exact place
  | locks m free => exact absurd (free.symm.trans mutex) (by simp)
  | builds builds =>
      obtain rfl := owner (by rw [builds]; rfl)
      rw [builds] at body
      exact body.elim
  | assigns built assigns =>
      obtain rfl := owner (by rw [assigns]; rfl)
      rcases place with ⟨assigns', other⟩ | releases
      · left
        refine ⟨mutex, ?_, .inr (Function.update_self ..)⟩
        cases old : s.server with
        | none => exact running
        | some id =>
            have different : n ≠ id := by
              rintro rfl
              exact other old
            exact (List.mem_erase_of_ne different).mpr running
      · rw [assigns] at releases
        cases releases
  | releases m releases => exact .inr ⟨rfl, running⟩

theorem Building.ends {n : Nat} {t : Thread} {rest : List (ServerAction Thread)}
    (building : Building n t s) (unflagged : s.Unflagged) (run : exec step s rest = some next)
    (free : next.serviceMutex = none) :
    ∃ before state, before <+: rest ∧ exec step s before = some state ∧
      state.serviceMutex = none ∧ n ∈ state.running := by
  induction rest generalizing s with
  | nil =>
      obtain rfl := Option.some.inj run
      exact absurd (free.symm.trans building.mutex) (by simp)
  | cons a rest ih =>
      obtain ⟨after, taken, run⟩ := Option.bind_eq_some_iff.mp run
      rcases building.kept unflagged taken with still | released
      · obtain ⟨before, state, isPrefix, reached, found⟩ := ih still (unflagged.kept taken) run
        refine ⟨a :: before, state, List.cons_prefix_cons.mpr ⟨rfl, isPrefix⟩, ?_, found⟩
        rw [exec_cons, taken, Option.bind_some, reached]
      · exact ⟨[a], after, List.cons_prefix_cons.mpr ⟨rfl, List.nil_prefix⟩,
          by simp [taken], released⟩

theorem building_of_builds (unflagged : s.Unflagged) (builds : Builds s a)
    (taken : step s a = some next) : ∃ t, Building s.built t next := by
  obtain ⟨t, rfl, body⟩ := builds
  have mutex : s.serviceMutex = some t := (unflagged.placed t).mutex (by rw [body]; rfl)
  simp only [step, advance, body, if_true, Option.some.injEq] at taken
  subst taken
  refine ⟨t, mutex, by simp, .inl ⟨Function.update_self .., ?_⟩⟩
  intro own
  exact Nat.lt_irrefl _ (unflagged.server _ own)

theorem life_cycle_tracked_iff {t : Thread} {actions : List (ServerAction Thread)}
    (run : exec step (construct t) actions = some s) :
    (EveryStep step (construct t) actions (fun s a => ¬ Builds s a) →
      EveryState step (construct t) actions Tracked ∧
      EveryStep step (construct t) actions fun s a => Builds s a → s.running = []) ∧
    (s.serviceMutex = none → EveryState step (construct t) actions Tracked →
      EveryStep step (construct t) actions fun s a => ¬ Builds s a) := by
  constructor
  · intro noServer
    have idle : EveryState step (construct t) actions fun s => s.Unflagged ∧ s.running = [] := by
      refine invariant ?_ ⟨unflagged_construct t, rfl⟩ noServer
      rintro s a next ⟨unflagged, idle⟩ builds taken
      exact ⟨unflagged.kept taken, running_eq_nil idle unflagged builds taken⟩
    refine ⟨idle.mono fun s both => tracked_of_idle both.1 both.2, ?_⟩
    exact noServer.mono fun s a never builds => absurd builds never
  · intro free tracked before a state isPrefix reached builds
    have unflagged := everyState_unflagged t actions
    obtain ⟨rest, rfl⟩ := isPrefix
    rw [exec_append, exec_concat, reached, Option.bind_some] at run
    obtain ⟨next, taken, run⟩ := Option.bind_eq_some_iff.mp run
    have now : state.Unflagged := unflagged before state (by simp) reached
    obtain ⟨u, building⟩ := building_of_builds now builds taken
    obtain ⟨mid, last, within, ends, released, running⟩ :=
      building.ends (now.kept taken) run free
    have whole : exec step (construct t) (before ++ [a] ++ mid) = some last := by
      rw [exec_append, exec_concat, reached, Option.bind_some, taken, Option.bind_some, ends]
    have part : before ++ [a] ++ mid <+: before ++ [a] ++ rest :=
      (List.prefix_append_right_inj _).mpr within
    have flag := (tracked _ last part whole).flag_iff released
    rw [(unflagged _ last part whole).started] at flag
    exact Bool.false_ne_true (flag.mpr (List.ne_nil_of_mem running))

def wholeStart (t : Nat) (answer : Bool) : List (ServerAction Nat) :=
  List.replicate 6 (.advance t answer)

theorem failed_start_tracked :
    EveryState step (construct 0) (wholeStart 0 false) Tracked := by
  obtain ⟨s, run⟩ : ∃ s, exec step (construct 0) (wholeStart 0 false) = some s := ⟨_, rfl⟩
  refine ((life_cycle_tracked_iff run).1 ?_).1
  intro before a state isPrefix _
  have fails : a = .advance 0 false := List.eq_of_mem_replicate (isPrefix.subset (by simp))
  rintro ⟨t, builds, -⟩
  rw [fails] at builds
  cases builds

theorem server_left_running :
    ∃ s, exec step (construct 0) (wholeStart 0 true ++ .call .start 1 :: wholeStart 1 true ++
        [.call .shutdown 1, .advance 1 true]) = some s ∧
      s.serviceMutex = none ∧ s.started = false ∧ s.built = 2 ∧ s.running = [1] ∧
      s.events = [.called .start 0, .returned .start 0, .called .start 1, .returned .start 1,
        .called .shutdown 1, .returned .shutdown 1] ∧
      ¬ s.Tracked := by
  refine ⟨_, rfl, rfl, rfl, rfl, rfl, rfl, fun tracked => ?_⟩
  exact Bool.false_ne_true ((tracked.flag_iff rfl).mpr (List.cons_ne_nil 1 []))

end ServerLifeCycle
end SospDemo
