import Mathlib.Algebra.BigOperators.Group.Finset.Piecewise
import Mathlib.Algebra.BigOperators.Group.Finset.Sigma
import Mathlib.Data.List.Basic
import Mathlib.Logic.Equiv.Basic

/-!
# Buffers and their owners

A memory is the list of the buffers ever allocated, freed ones being `none`. An owner holds a
buffer or nothing. While no two hold the same one, an update of one owner's buffer is an update
of that owner's value alone.
-/

namespace Buffers
variable {α V : Type*}

abbrev Memory (α : Type*) := List (Option (List α))

namespace Memory

def buffer (m : Memory α) (p : Nat) : Option (List α) := m[p]?.join

def alloc (m : Memory α) (content : List α) : Memory α := m ++ [some content]

def write (m : Memory α) (p : Nat) (content : List α) : Memory α := m.set p (some content)

def free (m : Memory α) (p : Nat) : Memory α := m.set p none

/-- How much the buffers that are not freed contain. -/
def size (m : Memory α) : Nat := ∑ p ∈ Finset.range m.length, ((m.buffer p).getD []).length

theorem lt_of_buffer {m : Memory α} {p : Nat} {content : List α}
    (live : m.buffer p = some content) : p < m.length := by
  by_contra beyond
  rw [buffer, List.getElem?_eq_none (Nat.not_lt.mp beyond)] at live
  cases live

@[simp] theorem buffer_alloc_self (m : Memory α) (content : List α) :
    (m.alloc content).buffer m.length = some content := by
  simp [buffer, alloc]

theorem buffer_alloc_of_live {m : Memory α} {p : Nat} {content other : List α}
    (live : m.buffer p = some content) : (m.alloc other).buffer p = some content := by
  rw [buffer, alloc, List.getElem?_append_left (lt_of_buffer live)]
  exact live

theorem buffer_free_of_ne {m : Memory α} {p q : Nat} (apart : q ≠ p) :
    (m.free p).buffer q = m.buffer q := by
  rw [buffer, free, List.getElem?_set_ne apart.symm]
  rfl

@[simp] theorem buffer_free_self (m : Memory α) (p : Nat) : (m.free p).buffer p = none := by
  rw [buffer, free, List.getElem?_set_self']
  cases m[p]? <;> rfl

theorem buffer_write_self {m : Memory α} {p : Nat} {old : List α} (live : m.buffer p = some old)
    (content : List α) : (m.write p content).buffer p = some content := by
  rw [buffer, write, List.getElem?_set_self (lt_of_buffer live)]
  rfl

theorem buffer_write_of_ne {m : Memory α} {p q : Nat} (content : List α) (apart : q ≠ p) :
    (m.write p content).buffer q = m.buffer q := by
  rw [buffer, write, List.getElem?_set_ne apart.symm]
  rfl

theorem buffer_alloc_of_ne {m : Memory α} {p : Nat} (content : List α) (old : p ≠ m.length) :
    (m.alloc content).buffer p = m.buffer p := by
  rcases Nat.lt_or_gt_of_ne old with before | beyond
  · rw [buffer, alloc, List.getElem?_append_left before]
    rfl
  · rw [buffer, buffer, List.getElem?_eq_none (by simp [alloc]; omega),
      List.getElem?_eq_none (Nat.le_of_lt beyond)]

@[simp] theorem write_write (m : Memory α) (p : Nat) (first second : List α) :
    (m.write p first).write p second = m.write p second := by
  simp [write]

@[simp] theorem write_alloc (m : Memory α) (junk content : List α) :
    (m.alloc junk).write m.length content = m.alloc content := by
  simp [write, alloc]

end Memory

open Memory

def value (m : Memory α) (held : Option Nat) : List α := (held.bind m.buffer).getD []

theorem value_some {m : Memory α} {p : Nat} {content : List α} (live : m.buffer p = some content) :
    value m (some p) = content := by
  rw [value, Option.bind_some, live, Option.getD_some]

structure Owned (m : Memory α) (held : V → Option Nat) : Prop where
  live : ∀ v p, held v = some p → ∃ content, m.buffer p = some content
  unshared : ∀ v w p, held v = some p → held w = some p → v = w

namespace Owned
variable {m : Memory α} {held : V → Option Nat}

theorem nobody (m : Memory α) : Owned m (fun _ : V => none) := by
  constructor
  · intro v p holds
    cases holds
  · intro v w p holds
    cases holds

theorem buffer_value (owned : Owned m held) {v : V} {p : Nat} (holds : held v = some p) :
    m.buffer p = some (value m (held v)) := by
  obtain ⟨content, live⟩ := owned.live v p holds
  rw [holds, value_some live, live]

theorem ne_length (owned : Owned m held) (v : V) : held v ≠ some m.length := by
  intro holds
  exact Nat.lt_irrefl _ (lt_of_buffer (owned.buffer_value holds))

theorem alloc (owned : Owned m held) (content : List α) : Owned (m.alloc content) held := by
  refine ⟨?_, owned.unshared⟩
  intro v p holds
  exact ⟨_, buffer_alloc_of_live (owned.buffer_value holds)⟩

theorem value_alloc (owned : Owned m held) (v : V) (content : List α) :
    value (m.alloc content) (held v) = value m (held v) := by
  cases holds : held v with
  | none => rfl
  | some p =>
      obtain ⟨old, live⟩ := owned.live v p holds
      rw [value_some live, value_some (buffer_alloc_of_live live)]

theorem value_free (owned : Owned m held) {v w : V} {p : Nat} (holds : held v = some p)
    (apart : w ≠ v) : value (m.free p) (held w) = value m (held w) := by
  cases other : held w with
  | none => rfl
  | some q =>
      have distinct : q ≠ p := by
        rintro rfl
        exact apart (owned.unshared w v q other holds)
      rw [value, value, Option.bind_some, Option.bind_some, buffer_free_of_ne distinct]

theorem write (owned : Owned m held) {v : V} {p : Nat} (holds : held v = some p)
    (content : List α) : Owned (m.write p content) held := by
  refine ⟨fun w q holds' => ?_, owned.unshared⟩
  by_cases same : q = p
  · exact ⟨content, same ▸ buffer_write_self (owned.buffer_value holds) content⟩
  · rw [buffer_write_of_ne content same]
    exact owned.live w q holds'

theorem value_write (owned : Owned m held) {v w : V} {p : Nat} (holds : held v = some p)
    (apart : w ≠ v) (content : List α) :
    value (m.write p content) (held w) = value m (held w) := by
  cases other : held w with
  | none => rfl
  | some q =>
      have distinct : q ≠ p := by
        rintro rfl
        exact apart (owned.unshared w v q other holds)
      rw [value, value, Option.bind_some, Option.bind_some, buffer_write_of_ne content distinct]

variable [DecidableEq V]

theorem update (owned : Owned m held) {v : V} {new : Option Nat}
    (live : ∀ p, new = some p → ∃ content, m.buffer p = some content)
    (apart : ∀ w p, w ≠ v → new = some p → held w ≠ some p) :
    Owned m (Function.update held v new) := by
  constructor
  · intro w p holds
    rcases eq_or_ne w v with rfl | other
    · rw [Function.update_self] at holds
      exact live p holds
    · rw [Function.update_of_ne other] at holds
      exact owned.live w p holds
  · intro w u p holds holds'
    rcases eq_or_ne w v with rfl | other <;> rcases eq_or_ne u w with rfl | other'
    · rfl
    · rw [Function.update_self] at holds
      rw [Function.update_of_ne other'] at holds'
      exact absurd holds' (apart u p other' holds)
    · rfl
    · rw [Function.update_of_ne other] at holds
      rcases eq_or_ne u v with rfl | other''
      · rw [Function.update_self] at holds'
        exact absurd holds (apart w p other holds')
      · rw [Function.update_of_ne other''] at holds'
        exact owned.unshared w u p holds holds'

theorem drop (owned : Owned m held) (v : V) : Owned m (Function.update held v none) := by
  apply owned.update
  · intro p nothing
    cases nothing
  · intro w p _ nothing
    cases nothing

theorem free (owned : Owned m held) {v : V} {p : Nat} (holds : held v = some p) :
    Owned (m.free p) (Function.update held v none) := by
  refine ⟨?_, (owned.drop v).unshared⟩
  intro w q other
  obtain ⟨content, live⟩ := (owned.drop v).live w q other
  refine ⟨content, ?_⟩
  rw [buffer_free_of_ne, live]
  rintro rfl
  rcases eq_or_ne w v with rfl | apart
  · rw [Function.update_self] at other
    cases other
  · rw [Function.update_of_ne apart] at other
    exact apart (owned.unshared w v q other holds)

theorem give (owned : Owned m held) (v : V) (content : List α) :
    Owned (m.alloc content) (Function.update held v (some m.length)) := by
  apply (owned.alloc content).update
  · rintro p ⟨⟩
    exact ⟨content, buffer_alloc_self m content⟩
  · rintro w p _ ⟨⟩
    exact owned.ne_length w

theorem exchange (owned : Owned m held) (v w : V) :
    Owned m (held ∘ Equiv.swap v w) := by
  refine ⟨fun u p holds => owned.live _ p holds, ?_⟩
  intro u u' p holds holds'
  exact (Equiv.swap v w).injective (owned.unshared _ _ p holds holds')

end Owned

def NoneLost (m : Memory α) (held : V → Option Nat) : Prop :=
  ∀ p content, m.buffer p = some content → ∃ v, held v = some p

namespace NoneLost
variable {m : Memory α} {held : V → Option Nat} {v w : V} {p : Nat}

theorem exchange [DecidableEq V] (noneLost : NoneLost m held) (v w : V) :
    NoneLost m (held ∘ Equiv.swap v w) := by
  intro p content live
  obtain ⟨u, holds⟩ := noneLost p content live
  exact ⟨Equiv.swap v w u, by simpa using holds⟩

theorem write (noneLost : NoneLost m held) (holds : held v = some p) (content : List α) :
    NoneLost (m.write p content) held := by
  intro q other live
  by_cases same : q = p
  · exact ⟨v, same ▸ holds⟩
  · rw [buffer_write_of_ne content same] at live
    exact noneLost q other live

theorem size_eq_sum [Fintype V] (noneLost : NoneLost m held) (owned : Owned m held) :
    m.size = ∑ v, (value m (held v)).length := by
  classical
  have byOwner : ∀ v, (value m (held v)).length =
      ∑ p ∈ Finset.range m.length, if held v = some p then ((m.buffer p).getD []).length else 0 := by
    intro v
    cases holds : held v with
    | none => simp [value]
    | some p =>
        have inside : p < m.length := lt_of_buffer (owned.buffer_value holds)
        simp [value, inside]
  rw [Memory.size, Finset.sum_congr rfl fun v _ => byOwner v, Finset.sum_comm]
  apply Finset.sum_congr rfl
  intro p _
  cases live : m.buffer p with
  | none => simp
  | some content =>
      obtain ⟨v, holds⟩ := noneLost p content live
      rw [Finset.sum_eq_single v]
      · simp [holds]
      · intro w _ other
        refine if_neg fun holds' => other (owned.unshared w v p holds' holds)
      · intro absent
        exact absurd (Finset.mem_univ v) absent

variable [DecidableEq V]

theorem give (noneLost : NoneLost m held) (nothing : held v = none) (content : List α) :
    NoneLost (m.alloc content) (Function.update held v (some m.length)) := by
  intro p other live
  by_cases new : p = m.length
  · exact ⟨v, by rw [Function.update_self, new]⟩
  · rw [buffer_alloc_of_ne content new] at live
    obtain ⟨w, holds⟩ := noneLost p other live
    have apart : w ≠ v := by
      rintro rfl
      cases nothing.symm.trans holds
    exact ⟨w, by rw [Function.update_of_ne apart, holds]⟩

theorem free (noneLost : NoneLost m held) (holds : held v = some p) :
    NoneLost (m.free p) (Function.update held v none) := by
  intro q content live
  have apart : q ≠ p := by
    rintro rfl
    rw [buffer_free_self] at live
    cases live
  rw [buffer_free_of_ne apart] at live
  obtain ⟨w, holds'⟩ := noneLost q content live
  have other : w ≠ v := by
    rintro rfl
    exact apart (Option.some.inj (holds'.symm.trans holds))
  exact ⟨w, by rw [Function.update_of_ne other, holds']⟩

end NoneLost
end Buffers
