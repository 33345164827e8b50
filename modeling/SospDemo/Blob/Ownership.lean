import SospDemo.Model.BlobStore

namespace SospDemo
open Buffers

namespace BlobStore
variable {Var : Type}

def held (s : BlobStore Var) (v : Var) : Option Nat := (s.vars v).bind BlobObject.bytes

def contents (s : BlobStore Var) (v : Var) : Option Bytes :=
  (s.vars v).map fun o => value s.memory o.bytes

structure Owns (s : BlobStore Var) : Prop where
  owned : Owned s.memory s.held
  size_eq : ∀ v o, s.vars v = some o → o.size = (value s.memory o.bytes).length
  null_iff : ∀ v o, s.vars v = some o → (o.size = 0 ↔ o.bytes = none)

variable {s : BlobStore Var}

theorem held_eq {v : Var} {o : BlobObject} (found : s.vars v = some o) : s.held v = o.bytes := by
  rw [held, found, Option.bind_some]

theorem contents_eq {v : Var} {o : BlobObject} (found : s.vars v = some o) :
    s.contents v = some (value s.memory o.bytes) := by
  rw [contents, found, Option.map_some]

theorem owns_empty : (empty : BlobStore Var).Owns := by
  refine ⟨Owned.nobody [], ?_, ?_⟩ <;> intro v o found <;> cases found

variable [DecidableEq Var]

/-! ## The three effects -/

def give (s : BlobStore Var) (v : Var) (d : Bytes) : BlobStore Var :=
  if d = [] then s.setObject v ⟨none, 0⟩
  else ⟨Function.update s.vars v (some ⟨some s.memory.length, d.length⟩), s.memory.alloc d⟩

theorem give_nil (v : Var) : s.give v [] = s.setObject v ⟨none, 0⟩ := rfl

theorem give_of_ne_nil {v : Var} {d : Bytes} (nonempty : d ≠ []) :
    s.give v d = ⟨Function.update s.vars v (some ⟨some s.memory.length, d.length⟩),
      s.memory.alloc d⟩ :=
  if_neg nonempty

def release (s : BlobStore Var) (v : Var) : BlobStore Var :=
  ⟨Function.update s.vars v none,
    match s.held v with
    | some bytes => s.memory.free bytes
    | none => s.memory⟩

def exchange (s : BlobStore Var) (v w : Var) : BlobStore Var :=
  { s with vars := s.vars ∘ Equiv.swap v w }

section Update
variable {v : Var} {new : Option BlobObject} {memory : Memory UInt8}

theorem held_update :
    (⟨Function.update s.vars v new, memory⟩ : BlobStore Var).held =
      Function.update s.held v (new.bind BlobObject.bytes) := by
  funext w
  rcases eq_or_ne w v with rfl | other
  · simp [held]
  · simp [held, other]

theorem contents_update
    (same : ∀ w, w ≠ v → value memory (s.held w) = value s.memory (s.held w)) :
    (⟨Function.update s.vars v new, memory⟩ : BlobStore Var).contents =
      Function.update s.contents v (new.map fun o => value memory o.bytes) := by
  funext w
  rcases eq_or_ne w v with rfl | other
  · simp [contents]
  · simp only [contents, Function.update_of_ne other]
    cases found : s.vars w with
    | none => rfl
    | some o =>
        have kept := same w other
        rw [held_eq found] at kept
        rw [Option.map_some, Option.map_some, kept]

theorem Owns.update (owns : s.Owns)
    (owned : Owned memory (Function.update s.held v (new.bind BlobObject.bytes)))
    (same : ∀ w, w ≠ v → value memory (s.held w) = value s.memory (s.held w))
    (size_eq : ∀ o, new = some o → o.size = (value memory o.bytes).length)
    (null_iff : ∀ o, new = some o → (o.size = 0 ↔ o.bytes = none)) :
    (⟨Function.update s.vars v new, memory⟩ : BlobStore Var).Owns := by
  refine ⟨?_, ?_, ?_⟩
  · rw [held_update]
    exact owned
  · intro w o found
    rcases eq_or_ne w v with rfl | other
    · exact size_eq o (by simpa using found)
    · replace found : s.vars w = some o := by simpa [other] using found
      have kept := same w other
      rw [held_eq found] at kept
      rw [kept]
      exact owns.size_eq w o found
  · intro w o found
    rcases eq_or_ne w v with rfl | other
    · exact null_iff o (by simpa using found)
    · exact owns.null_iff w o (by simpa [other] using found)

end Update

theorem Owns.give (owns : s.Owns) (v : Var) (d : Bytes) : (s.give v d).Owns := by
  by_cases nonempty : d = []
  · subst nonempty
    refine owns.update (owns.owned.drop v) (fun w _ => rfl) ?_ ?_
    · rintro o ⟨⟩
      rfl
    · rintro o ⟨⟩
      exact iff_of_true rfl rfl
  · rw [give_of_ne_nil nonempty]
    refine owns.update (owns.owned.give v d) (fun w _ => owns.owned.value_alloc w d) ?_ ?_
    · rintro o ⟨⟩
      rw [value_some (Memory.buffer_alloc_self s.memory d)]
    · rintro o ⟨⟩
      simpa using nonempty

theorem Owns.contents_give (owns : s.Owns) (v : Var) (d : Bytes) :
    (s.give v d).contents = Function.update s.contents v (some d) := by
  by_cases nonempty : d = []
  · subst nonempty
    exact contents_update fun w _ => rfl
  · rw [give_of_ne_nil nonempty, contents_update fun w _ => owns.owned.value_alloc w d,
      Option.map_some, value_some (Memory.buffer_alloc_self s.memory d)]

theorem Owns.release (owns : s.Owns) (v : Var) : (s.release v).Owns := by
  unfold BlobStore.release
  cases holds : s.held v with
  | none =>
      refine owns.update (owns.owned.drop v) (fun w _ => rfl) ?_ ?_ <;> intro o nothing <;>
        cases nothing
  | some bytes =>
      refine owns.update (owns.owned.free holds) (fun w other => owns.owned.value_free holds other)
        ?_ ?_ <;> intro o nothing <;> cases nothing

theorem Owns.contents_release (owns : s.Owns) (v : Var) :
    (s.release v).contents = Function.update s.contents v none := by
  unfold BlobStore.release
  cases holds : s.held v with
  | none => exact contents_update fun w _ => rfl
  | some bytes => exact contents_update fun w other => owns.owned.value_free holds other

theorem Owns.exchange (owns : s.Owns) (v w : Var) : (s.exchange v w).Owns :=
  ⟨owns.owned.exchange v w, fun _ => owns.size_eq _, fun _ => owns.null_iff _⟩

theorem update_comp_swap {β : Type} (f : Var → β) {v w : Var} (apart : w ≠ v) (d : β) :
    Function.update f v d ∘ Equiv.swap v w =
      Function.update (Function.update f v (f w)) w d := by
  rw [Equiv.comp_swap_eq_update, Function.update_self, Function.update_of_ne apart,
    Function.update_comm apart.symm d d f, Function.update_idem, Function.update_comm apart]

theorem contents_exchange (v w : Var) :
    (s.exchange v w).contents = s.contents ∘ Equiv.swap v w := rfl

end BlobStore
end SospDemo
