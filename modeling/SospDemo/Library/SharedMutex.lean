import Mathlib.Data.List.Basic
import Mathlib.Logic.Function.Basic

/-!
# Shared mutexes

Several threads may hold a mutex shared, or one may hold it exclusively. `holds` says what each
thread holds by where it is in its program; a mutex is held so when it records just that.
-/

inductive Hold
  | free
  | shared
  | exclusive
  deriving DecidableEq

structure SharedMutex (T : Type*) where
  readers : List T
  writer : Option T

namespace SharedMutex
variable {T : Type*}

def unlocked : SharedMutex T := ⟨[], none⟩

def lockShared (m : SharedMutex T) (t : T) : Option (SharedMutex T) :=
  match m.writer with
  | none => some { m with readers := t :: m.readers }
  | some _ => none

def lock (m : SharedMutex T) (t : T) : Option (SharedMutex T) :=
  match m.writer, m.readers with
  | none, [] => some { m with writer := some t }
  | _, _ => none

def unlock (m : SharedMutex T) : SharedMutex T := { m with writer := none }

def unlockShared [DecidableEq T] (m : SharedMutex T) (t : T) : SharedMutex T :=
  { m with readers := m.readers.erase t }

structure Held (m : SharedMutex T) (holds : T → Hold) : Prop where
  nodup : m.readers.Nodup
  reader : ∀ t, t ∈ m.readers ↔ holds t = .shared
  writer : ∀ t, m.writer = some t ↔ holds t = .exclusive
  apart : m.writer = none ∨ m.readers = []

variable {m m' : SharedMutex T} {holds : T → Hold} {t u : T}

theorem held_unlocked : (unlocked : SharedMutex T).Held fun _ => .free := by
  refine ⟨List.nodup_nil, ?_, ?_, .inl rfl⟩ <;> simp [unlocked]

theorem lockShared_eq_some :
    m.lockShared t = some m' ↔ m.writer = none ∧ m' = { m with readers := t :: m.readers } := by
  cases free : m.writer <;> simp [lockShared, free, eq_comm]

theorem lock_eq_some :
    m.lock t = some m' ↔
      m.writer = none ∧ m.readers = [] ∧ m' = { m with writer := some t } := by
  cases free : m.writer <;> cases readers : m.readers <;> simp [lock, free, readers, eq_comm]

namespace Held

theorem alone (held : m.Held holds) (exclusive : holds t = .exclusive) (holding : holds u ≠ .free) :
    u = t := by
  have writer := (held.writer t).mpr exclusive
  cases mode : holds u with
  | free => exact absurd mode holding
  | exclusive => exact Option.some.inj (((held.writer u).mpr mode).symm.trans writer)
  | shared =>
      have reader := (held.reader u).mpr mode
      rcases held.apart with none | empty
      · cases writer.symm.trans none
      · rw [empty] at reader
        cases reader

theorem lockShared_of_free (held : m.Held holds) (free : ∀ u, holds u ≠ .exclusive) (t : T) :
    ∃ m', m.lockShared t = some m' := by
  cases writer : m.writer with
  | none => exact ⟨_, lockShared_eq_some.mpr ⟨writer, rfl⟩⟩
  | some u => exact absurd ((held.writer u).mp writer) (free u)

theorem lock_of_free (held : m.Held holds) (free : ∀ u, holds u = .free) (t : T) :
    ∃ m', m.lock t = some m' := by
  cases writer : m.writer with
  | some u => cases (free u).symm.trans ((held.writer u).mp writer)
  | none =>
      cases readers : m.readers with
      | nil => exact ⟨_, lock_eq_some.mpr ⟨writer, readers, rfl⟩⟩
      | cons u rest =>
          have reader : u ∈ m.readers := by simp [readers]
          cases (free u).symm.trans ((held.reader u).mp reader)

variable [DecidableEq T]

theorem lockShared (held : m.Held holds) (free : holds t = .free)
    (locked : m.lockShared t = some m') : m'.Held (Function.update holds t .shared) := by
  obtain ⟨noWriter, rfl⟩ := lockShared_eq_some.mp locked
  have new : t ∉ m.readers := fun mem => by cases free.symm.trans ((held.reader t).mp mem)
  refine ⟨List.nodup_cons.mpr ⟨new, held.nodup⟩, fun u => ?_, fun u => ?_, .inl noWriter⟩
  · rcases eq_or_ne u t with rfl | other
    · simp
    · simp [other, held.reader u]
  · rcases eq_or_ne u t with rfl | other
    · simp [noWriter]
    · rw [Function.update_of_ne other]
      exact held.writer u

theorem unlockShared (held : m.Held holds) (shared : holds t = .shared) :
    (m.unlockShared t).Held (Function.update holds t .free) := by
  have reader := (held.reader t).mpr shared
  refine ⟨held.nodup.erase t, fun u => ?_, fun u => ?_, ?_⟩
  · rw [SharedMutex.unlockShared, held.nodup.mem_erase_iff]
    rcases eq_or_ne u t with rfl | other
    · simp
    · simp [other, held.reader u]
  · rcases eq_or_ne u t with rfl | other
    · have notWriter : m.writer ≠ some u := fun writer => by
        cases shared.symm.trans ((held.writer u).mp writer)
      simp [SharedMutex.unlockShared, notWriter]
    · rw [Function.update_of_ne other]
      exact held.writer u
  · rcases held.apart with noWriter | noReader
    · exact .inl noWriter
    · rw [noReader] at reader
      cases reader

theorem lock (held : m.Held holds) (locked : m.lock t = some m') :
    m'.Held (Function.update holds t .exclusive) := by
  obtain ⟨noWriter, noReader, rfl⟩ := lock_eq_some.mp locked
  refine ⟨held.nodup, fun u => ?_, fun u => ?_, .inr noReader⟩
  · rcases eq_or_ne u t with rfl | other
    · simp [noReader]
    · rw [Function.update_of_ne other]
      exact held.reader u
  · rcases eq_or_ne u t with rfl | other
    · simp
    · rw [Function.update_of_ne other, ← held.writer u, noWriter]
      simp [Ne.symm other]

theorem unlock (held : m.Held holds) (exclusive : holds t = .exclusive) :
    m.unlock.Held (Function.update holds t .free) := by
  have writer := (held.writer t).mpr exclusive
  have noReader : m.readers = [] := by
    rcases held.apart with noWriter | noReader
    · cases writer.symm.trans noWriter
    · exact noReader
  refine ⟨held.nodup, fun u => ?_, fun u => ?_, .inl rfl⟩
  · rcases eq_or_ne u t with rfl | other
    · simp [SharedMutex.unlock, noReader]
    · rw [Function.update_of_ne other]
      exact held.reader u
  · rcases eq_or_ne u t with rfl | other
    · simp [SharedMutex.unlock]
    · have notExclusive : holds u ≠ .exclusive := fun mode =>
        other (held.alone exclusive (by simp [mode]))
      simp [SharedMutex.unlock, other, notExclusive]

theorem keep {hold : Hold} (held : m.Held holds) (same : holds t = hold) :
    m.Held (Function.update holds t hold) := by
  rwa [← same, Function.update_eq_self]

end Held
end SharedMutex
