import SospDemo.Library.Runs
import SospDemo.Blob.Ownership

/-!
# Blobs as values

The operations of `Blob` against a machine in which a blob is a list of bytes. They agree except
where a blob that is not empty is copied onto itself: the buffer is deleted before it is read.
-/

namespace SospDemo
open Buffers Runs

namespace BlobAction
variable {Var : Type} [DecidableEq Var]

def effect (blobs : Var → Option Bytes) : BlobAction Var → Var → Option Bytes
  | .construct this b _ => Function.update blobs this (some b)
  | .constructDefault this => Function.update blobs this (some [])
  | .copyConstruct this other _ => Function.update blobs this (blobs other)
  | .moveConstruct this other =>
      Function.update (Function.update blobs this (blobs other)) other (some [])
  | .destroy this => Function.update blobs this none
  | .moveAssign this other => blobs ∘ Equiv.swap this other
  | .copyAssign this other _ => Function.update blobs this (blobs other)

def valueStep (blobs : Var → Option Bytes) (a : BlobAction Var) : Option (Var → Option Bytes) :=
  if a.permitted (fun v => (blobs v).isSome) then some (a.effect blobs) else none

end BlobAction

namespace BlobStore
variable {Var : Type} {s : BlobStore Var}

section Memory
variable {vars : Var → Option BlobObject} {memory : Memory UInt8}

theorem copyTo_alloc {junk source : Bytes} (size : junk.length = source.length) :
    (⟨vars, memory.alloc junk⟩ : BlobStore Var).copyTo memory.length source =
      .ok ⟨vars, memory.alloc source⟩ := by
  have whole : memcpy junk 0 source = source := by
    rw [memcpy, List.take_zero, List.nil_append, Nat.zero_add, ← size, List.drop_length,
      List.append_nil]
  simp only [copyTo, Memory.buffer_alloc_self, size, le_refl, if_true, whole, Memory.write_alloc]

theorem read_buffer {p n : Nat} {content : Bytes} (live : memory.buffer p = some content)
    (size : n = content.length) :
    (⟨vars, memory⟩ : BlobStore Var).read (some p) n = .ok content := by
  subst size
  simp only [read, Option.bind_some, live, le_refl, if_true, List.take_length]

theorem Owns.value_eq_nil_iff (owns : s.Owns) {v : Var} {o : BlobObject}
    (found : s.vars v = some o) : value s.memory o.bytes = [] ↔ o.size = 0 := by
  rw [owns.size_eq v o found, List.length_eq_zero_iff]

theorem Owns.buffer_eq (owns : s.Owns) {v : Var} {o : BlobObject}
    (found : s.vars v = some o) (positive : 0 < o.size) :
    ∃ p, o.bytes = some p ∧ s.memory.buffer p = some (value s.memory o.bytes) := by
  have points : o.bytes ≠ none := fun null => positive.ne' ((owns.null_iff v o found).mpr null)
  obtain ⟨p, bytes⟩ := Option.ne_none_iff_exists'.mp points
  have buffer := owns.owned.buffer_value ((held_eq found).trans bytes)
  rw [held_eq found] at buffer
  exact ⟨p, bytes, buffer⟩

theorem Owns.read_eq (owns : s.Owns) {v : Var} {o : BlobObject}
    (found : s.vars v = some o) (positive : 0 < o.size) :
    s.read o.bytes o.size = .ok (value s.memory o.bytes) := by
  obtain ⟨p, bytes, buffer⟩ := owns.buffer_eq found positive
  have size := owns.size_eq v o found
  generalize value s.memory o.bytes = content at buffer size ⊢
  rw [bytes]
  exact read_buffer buffer size

theorem Owns.read_alloc (owns : s.Owns) {v : Var} {o : BlobObject}
    (found : s.vars v = some o) (positive : 0 < o.size) (junk : Bytes) :
    (⟨vars, s.memory.alloc junk⟩ : BlobStore Var).read o.bytes o.size =
      .ok (value s.memory o.bytes) := by
  obtain ⟨p, bytes, buffer⟩ := owns.buffer_eq found positive
  have size := owns.size_eq v o found
  generalize value s.memory o.bytes = content at buffer size ⊢
  rw [bytes]
  exact read_buffer (Memory.buffer_alloc_of_live buffer) size

end Memory

theorem Owns.bytesOf_eq (owns : s.Owns) {v : Var} {o : BlobObject}
    (found : s.vars v = some o) : s.bytesOf o = .ok (value s.memory o.bytes) := by
  unfold bytesOf
  split
  · rename_i null
    rw [(owns.value_eq_nil_iff found).mpr null]
  · rename_i nonzero
    exact owns.read_eq found (Nat.pos_of_ne_zero nonzero)

theorem live_eq (s : BlobStore Var) : s.live = fun v => (s.contents v).isSome := by
  funext v
  rw [live, contents, Option.isSome_map]

theorem object_of_live {v : Var} (live : s.live v = true) :
    ∃ o, s.vars v = some o :=
  Option.isSome_iff_exists.mp live

theorem apart_of_live {v w : Var} (dead : s.live v = false)
    (live : s.live w = true) : w ≠ v := by
  rintro rfl
  rw [dead] at live
  cases live

/-- Where a blob is copied onto itself, the new buffer has the bytes of the old one already. -/
def SelfCopyKept (state : Except Undefined (BlobStore Var)) : BlobAction Var → Prop
  | .copyAssign this other junk => this = other → ∀ s o, state = .ok s → s.vars this = some o →
      s.bytesOf o = .ok ((List.range o.size).map junk)
  | _ => True

theorem Owns.selfCopyKept_iff (owns : s.Owns) {this : Var} {o : BlobObject}
    (live : s.vars this = some o) (junk : Nat → UInt8) :
    SelfCopyKept (.ok s) (.copyAssign this this junk) ↔
      (List.range o.size).map junk = value s.memory o.bytes := by
  constructor
  · intro kept
    have same := kept rfl s o rfl live
    rw [owns.bytesOf_eq live] at same
    exact (Except.ok.inj same).symm
  · rintro same - t o' ⟨⟩ live'
    obtain rfl := Option.some.inj (live.symm.trans live')
    rw [owns.bytesOf_eq live, same]

structure Represents (s : BlobStore Var) (blobs : Var → Option Bytes) : Prop where
  live_iff : ∀ v, s.vars v = none ↔ blobs v = none
  content : ∀ v o d, s.vars v = some o → blobs v = some d → o.size = d.length ∧ s.bytesOf o = .ok d
  null_iff : ∀ v o, s.vars v = some o → (o.size = 0 ↔ o.bytes = none)
  unshared : ∀ v w o o' p, s.vars v = some o → s.vars w = some o' → o.bytes = some p →
    o'.bytes = some p → v = w

theorem Owns.represents_iff (owns : s.Owns) {blobs : Var → Option Bytes} :
    s.Represents blobs ↔ s.contents = blobs := by
  constructor
  · intro represents
    funext v
    cases found : s.vars v with
    | none => rw [(represents.live_iff v).mp found, contents, found, Option.map_none]
    | some o =>
        obtain ⟨d, holds⟩ : ∃ d, blobs v = some d := by
          refine Option.ne_none_iff_exists'.mp fun dead => ?_
          rw [(represents.live_iff v).mpr dead] at found
          cases found
        have read := (represents.content v o d found holds).2
        rw [owns.bytesOf_eq found] at read
        rw [contents_eq found, holds, Except.ok.inj read]
  · rintro rfl
    refine ⟨?_, ?_, owns.null_iff, ?_⟩
    · intro v
      rw [contents, Option.map_eq_none_iff]
    · intro v o d found holds
      rw [contents_eq found] at holds
      obtain rfl := Option.some.inj holds
      exact ⟨owns.size_eq v o found, owns.bytesOf_eq found⟩
    · intro v w o o' p found found' holds holds'
      exact owns.owned.unshared v w p ((held_eq found).trans holds) ((held_eq found').trans holds')

/-! ## One operation -/

variable [DecidableEq Var]

theorem construct_eq (this : Var) (b : Bytes) (junk : Nat → UInt8) :
    s.construct this b junk = .ok (s.give this b) := by
  by_cases empty : b = []
  · subst empty
    rfl
  · have positive : 0 < b.length := List.length_pos_of_ne_nil empty
    rw [give_of_ne_nil empty]
    simp only [construct, positive, if_true, newChar, setObject]
    rw [copyTo_alloc (by simp)]
    simp only [bind, Except.bind, pure, Except.pure, Function.update_idem]

theorem Owns.copyConstruct_eq (owns : s.Owns) {this other : Var} {o : BlobObject}
    (apart : other ≠ this) (found : s.vars other = some o) (junk : Nat → UInt8) :
    s.copyConstruct this other junk = .ok (s.give this (value s.memory o.bytes)) := by
  have source : ∀ x, (s.setObject this x).object other = .ok o := by
    intro x
    simp only [object, setObject, Function.update_of_ne apart, found]
  rw [copyConstruct]
  simp only [source, bind, Except.bind]
  by_cases null : o.size = 0
  · rw [(owns.value_eq_nil_iff found).mpr null, give_nil]
    simp only [null, Nat.lt_irrefl, if_false]
    rfl
  · have positive : 0 < o.size := Nat.pos_of_ne_zero null
    have size := owns.size_eq other o found
    rw [give_of_ne_nil ((owns.value_eq_nil_iff found).not.mpr null), ← size]
    simp only [positive, if_true, newChar, setObject, owns.read_alloc found positive]
    rw [copyTo_alloc (by simp [size])]
    simp only [pure, Except.pure, Function.update_idem]

theorem moveConstruct_eq {this other : Var} {o : BlobObject} (apart : other ≠ this)
    (found : s.vars other = some o) :
    s.moveConstruct this other = .ok ((s.give this []).exchange this other) := by
  simp only [moveConstruct, object, found, bind, Except.bind, pure, Except.pure, give_nil,
    exchange, setObject, update_comp_swap s.vars apart]

theorem moveAssign_eq {this other : Var} {old o : BlobObject} (live : s.vars this = some old)
    (found : s.vars other = some o) : s.moveAssign this other = .ok (s.exchange this other) := by
  simp only [moveAssign, object, live, found, bind, Except.bind, pure, Except.pure, setObject,
    exchange, Equiv.comp_swap_eq_update]

theorem Owns.delete_eq (owns : s.Owns) {v : Var} {o : BlobObject} (live : s.vars v = some o) :
    s.delete o.bytes = .ok ⟨s.vars, (s.release v).memory⟩ := by
  have holds := held_eq live
  cases bytes : o.bytes with
  | none =>
      rw [bytes] at holds
      simp only [delete, BlobStore.release, holds]
  | some p =>
      rw [bytes] at holds
      simp only [delete, owns.owned.buffer_value holds, BlobStore.release, holds]

theorem Owns.destroy_eq (owns : s.Owns) {this : Var} {old : BlobObject}
    (live : s.vars this = some old) : s.destroy this = .ok (s.release this) := by
  simp only [destroy, object, live, bind, Except.bind, owns.delete_eq live, pure, Except.pure]
  rfl

theorem release_vars (this : Var) : (s.release this).vars = Function.update s.vars this none := rfl

theorem release_vars_of_ne {this other : Var} (apart : other ≠ this) :
    (s.release this).vars other = s.vars other :=
  Function.update_of_ne apart _ _

theorem Owns.value_release (owns : s.Owns) {this other : Var} {o : BlobObject}
    (apart : other ≠ this) (found : s.vars other = some o) :
    value (s.release this).memory o.bytes = value s.memory o.bytes := by
  have same := congrFun (owns.contents_release this) other
  rw [Function.update_of_ne apart, contents_eq found,
    contents_eq ((release_vars_of_ne apart).trans found)] at same
  exact Option.some.inj same

theorem Owns.copyAssign_eq (owns : s.Owns) {this other : Var} {old o : BlobObject}
    (live : s.vars this = some old) (found : s.vars other = some o) (apart : other ≠ this)
    (junk : Nat → UInt8) :
    s.copyAssign this other junk =
      .ok ((s.release this).give this (value s.memory o.bytes)) := by
  have kept : (s.release this).Owns := owns.release this
  have found' : (s.release this).vars other = some o := (release_vars_of_ne apart).trans found
  rw [← owns.value_release apart found]
  rw [copyAssign]
  simp only [object, live, bind, Except.bind, owns.delete_eq live, found]
  by_cases null : o.size = 0
  · rw [(kept.value_eq_nil_iff found').mpr null, give_nil]
    simp only [null, Nat.lt_irrefl, if_false, pure, Except.pure, setObject, release_vars,
      Function.update_idem]
  · have positive : 0 < o.size := Nat.pos_of_ne_zero null
    have size := kept.size_eq other o found'
    rw [give_of_ne_nil ((kept.value_eq_nil_iff found').not.mpr null), ← size]
    simp only [positive, if_true, newChar, setObject, Function.update_of_ne apart, found,
      kept.read_alloc found' positive]
    rw [copyTo_alloc (by simp [size])]
    simp only [release_vars, Function.update_idem]

theorem Owns.selfCopy_eq (owns : s.Owns) {this : Var} {o : BlobObject}
    (live : s.vars this = some o) (junk : Nat → UInt8) :
    s.copyAssign this this junk =
      .ok ((s.release this).give this ((List.range o.size).map junk)) := by
  have size : ((List.range o.size).map junk).length = o.size := by simp
  rw [copyAssign]
  simp only [object, live, bind, Except.bind, owns.delete_eq live]
  by_cases null : o.size = 0
  · simp only [null, Nat.lt_irrefl, if_false, pure, Except.pure, setObject, List.range_zero,
      List.map_nil, give_nil, release_vars, Function.update_idem]
  · have positive : 0 < o.size := Nat.pos_of_ne_zero null
    have nonempty : (List.range o.size).map junk ≠ [] := by
      intro empty
      rw [empty] at size
      exact positive.ne size
    rw [give_of_ne_nil nonempty, size]
    simp only [positive, if_true, newChar, setObject, Function.update_self]
    rw [read_buffer (Memory.buffer_alloc_self _ _) size.symm]
    dsimp only
    rw [copyTo_alloc rfl]
    simp only [release_vars, Function.update_idem]

theorem Owns.perform (owns : s.Owns) {a : BlobAction Var} (permitted : a.permitted s.live) :
    ∃ t, s.perform a = .ok t ∧ t.Owns ∧
      (t.contents = a.effect s.contents ↔ SelfCopyKept (.ok s) a) := by
  cases a with
  | construct this b junk =>
      exact ⟨_, construct_eq this b junk, owns.give this b,
        iff_of_true (owns.contents_give this b) trivial⟩
  | constructDefault this =>
      exact ⟨s.give this [], rfl, owns.give this [],
        iff_of_true (owns.contents_give this []) trivial⟩
  | copyConstruct this other junk =>
      simp only [BlobAction.permitted, Bool.and_eq_true, Bool.not_eq_true'] at permitted
      obtain ⟨o, found⟩ := object_of_live permitted.2
      have apart := apart_of_live permitted.1 permitted.2
      refine ⟨_, owns.copyConstruct_eq apart found junk, owns.give _ _, iff_of_true ?_ trivial⟩
      rw [owns.contents_give, BlobAction.effect, contents_eq found]
  | moveConstruct this other =>
      simp only [BlobAction.permitted, Bool.and_eq_true, Bool.not_eq_true'] at permitted
      obtain ⟨o, found⟩ := object_of_live permitted.2
      have apart := apart_of_live permitted.1 permitted.2
      refine ⟨_, moveConstruct_eq apart found, (owns.give this []).exchange this other,
        iff_of_true ?_ trivial⟩
      rw [contents_exchange, owns.contents_give, BlobAction.effect, update_comp_swap _ apart]
  | destroy this =>
      obtain ⟨o, found⟩ := object_of_live permitted
      exact ⟨_, owns.destroy_eq found, owns.release this,
        iff_of_true (owns.contents_release this) trivial⟩
  | moveAssign this other =>
      simp only [BlobAction.permitted, Bool.and_eq_true] at permitted
      obtain ⟨old, live⟩ := object_of_live permitted.1
      obtain ⟨o, found⟩ := object_of_live permitted.2
      exact ⟨_, moveAssign_eq live found, owns.exchange this other,
        iff_of_true (contents_exchange this other) trivial⟩
  | copyAssign this other junk =>
      simp only [BlobAction.permitted, Bool.and_eq_true] at permitted
      obtain ⟨old, live⟩ := object_of_live permitted.1
      obtain ⟨o, found⟩ := object_of_live permitted.2
      have released := owns.release this
      have contents : ∀ d, ((s.release this).give this d).contents =
          Function.update s.contents this (some d) := by
        intro d
        rw [released.contents_give, owns.contents_release, Function.update_idem]
      rcases eq_or_ne other this with rfl | apart
      · refine ⟨_, owns.selfCopy_eq found junk, released.give _ _, ?_⟩
        rw [contents, BlobAction.effect, contents_eq found, owns.selfCopyKept_iff found,
          (Function.update_injective s.contents other).eq_iff, Option.some.injEq]
      · refine ⟨_, owns.copyAssign_eq live found apart junk, released.give _ _, iff_of_true ?_ ?_⟩
        · rw [contents, BlobAction.effect, contents_eq found]
        · exact fun same => absurd same.symm apart

/-! ## Every run -/

theorem step_ok {a : BlobAction Var} {t : Except Undefined (BlobStore Var)}
    (taken : step (.ok s) a = some t) : a.permitted s.live ∧ t = s.perform a := by
  simp only [step, Option.ite_none_right_eq_some, Option.some.injEq] at taken
  exact ⟨taken.1, taken.2.symm⟩

theorem exec_owns {actions : List (BlobAction Var)} {state : Except Undefined (BlobStore Var)}
    (run : exec step (.ok empty) actions = some state) : ∃ s, state = .ok s ∧ s.Owns := by
  have kept : EveryState step (.ok empty) actions fun state => ∃ s, state = .ok s ∧ s.Owns := by
    refine invariant (C := fun _ _ => True) ?_ ⟨empty, rfl, owns_empty⟩ fun _ _ _ _ _ => trivial
    rintro _ a t ⟨s, rfl, owns⟩ - taken
    obtain ⟨permitted, rfl⟩ := step_ok taken
    obtain ⟨t, done, still, -⟩ := owns.perform permitted
    exact ⟨t, done, still⟩
  exact kept.last run

theorem valueStep_contents {a : BlobAction Var} (permitted : a.permitted s.live) :
    a.valueStep s.contents = some (a.effect s.contents) := by
  rw [live_eq] at permitted
  rw [BlobAction.valueStep, if_pos permitted]

theorem exec_represents {actions : List (BlobAction Var)} {state : Except Undefined (BlobStore Var)}
    (run : exec step (.ok empty) actions = some state)
    (kept : EveryStep step (.ok empty) actions SelfCopyKept) :
    ∃ s blobs, state = .ok s ∧ exec BlobAction.valueStep (fun _ => none) actions = some blobs ∧
      s.Represents blobs := by
  have simulates : ∀ (state : Except Undefined (BlobStore Var)) (blobs : Var → Option Bytes)
      (a : BlobAction Var) (t : Except Undefined (BlobStore Var)),
      (∃ s, state = .ok s ∧ s.Owns ∧ s.contents = blobs) → SelfCopyKept state a →
      step state a = some t →
      ∃ next, BlobAction.valueStep blobs a = some next ∧
        ∃ s, t = .ok s ∧ s.Owns ∧ s.contents = next := by
    rintro _ _ a t ⟨s, rfl, owns, rfl⟩ copies taken
    obtain ⟨permitted, rfl⟩ := step_ok taken
    obtain ⟨t, done, still, effect_iff⟩ := owns.perform permitted
    exact ⟨_, valueStep_contents permitted, t, done, still, effect_iff.mpr copies⟩
  have start : (∃ s, (Except.ok empty : Except Undefined (BlobStore Var)) = .ok s ∧ s.Owns ∧
      s.contents = fun _ => none) := ⟨empty, rfl, owns_empty, rfl⟩
  obtain ⟨blobs, runs, s, rfl, owns, same⟩ := exec_simulates _ simulates start kept run
  exact ⟨s, blobs, rfl, runs, owns.represents_iff.mpr same⟩

theorem blobs_are_values {actions : List (BlobAction Var)}
    {state : Except Undefined (BlobStore Var)}
    (run : exec step (.ok empty) actions = some state) :
    (∀ before, before <+: actions → ∃ s blobs, exec step (.ok empty) before = some (.ok s) ∧
      exec BlobAction.valueStep (fun _ => none) before = some blobs ∧ s.Represents blobs) ↔
    EveryStep step (.ok empty) actions SelfCopyKept := by
  constructor
  · rintro always before a state isPrefix reached
    obtain ⟨s, blobs, reached', runs, represents⟩ :=
      always before ((List.prefix_append before [a]).trans isPrefix)
    obtain rfl := Option.some.inj (reached.symm.trans reached')
    obtain ⟨t, next, taken, nextRuns, nextRepresents⟩ := always (before ++ [a]) isPrefix
    rw [exec_concat, reached, Option.bind_some] at taken
    rw [exec_concat, runs, Option.bind_some] at nextRuns
    obtain ⟨_, ⟨⟩, owns⟩ := exec_owns reached
    obtain rfl := owns.represents_iff.mp represents
    obtain ⟨permitted, done⟩ := step_ok taken
    obtain ⟨t, done', still, effect_iff⟩ := owns.perform permitted
    obtain rfl := Except.ok.inj (done.trans done')
    rw [← effect_iff, still.represents_iff.mp nextRepresents]
    exact Option.some.inj (nextRuns.symm.trans (valueStep_contents permitted))
  · intro kept before isPrefix
    obtain ⟨state, reached⟩ := exec_prefix isPrefix run
    obtain ⟨s, blobs, rfl, runs, represents⟩ := exec_represents reached (kept.of_prefix isPrefix)
    exact ⟨s, blobs, reached, runs, represents⟩

def copiesAndMoves : List (BlobAction Nat) :=
  [.construct 0 [7, 8] fun _ => 0, .copyConstruct 1 0 fun _ => 0, .constructDefault 2,
    .copyAssign 2 1 fun _ => 0, .moveAssign 0 2, .destroy 1]

theorem copiesAndMoves_represented :
    ∃ s blobs, exec step (.ok empty) copiesAndMoves = some (.ok s) ∧
      exec BlobAction.valueStep (fun _ => none) copiesAndMoves = some blobs ∧
      s.Represents blobs := by
  obtain ⟨state, run⟩ : ∃ state, exec step (.ok empty) copiesAndMoves = some state := ⟨_, rfl⟩
  refine (blobs_are_values run).mpr ?_ copiesAndMoves List.prefix_rfl
  intro before a state isPrefix _
  have mem : a ∈ copiesAndMoves := isPrefix.subset (by simp)
  simp only [copiesAndMoves, List.mem_cons, List.not_mem_nil, or_false] at mem
  rcases mem with rfl | rfl | rfl | rfl | rfl | rfl
  case inr.inr.inr.inl =>
    intro same
    cases same
  all_goals trivial

def selfCopy : List (BlobAction Nat) := [.construct 0 [7] fun _ => 0, .copyAssign 0 0 fun _ => 0]

theorem selfCopy_loses_bytes :
    ∃ s blobs o, exec step (.ok empty) selfCopy = some (.ok s) ∧
      exec BlobAction.valueStep (fun _ => none) selfCopy = some blobs ∧ s.vars 0 = some o ∧
      s.bytesOf o = .ok [0] ∧ blobs 0 = some [7] :=
  ⟨_, _, _, rfl, rfl, rfl, rfl, rfl⟩

end BlobStore
end SospDemo
