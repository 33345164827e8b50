import SospDemo.Library.SequentialObject

/-!
# Linearizability

A history lists the invocations and responses of a concurrent object in real time. It is
linearizable when the responded operations and some of the pending ones can be put into one
sequential order that gives the responses and never reverses a response and a later invocation.
-/

namespace Linearizability
variable {S Op Res : Type*}

inductive Event (Op Res : Type*)
  | invoke (op : Op)
  | respond (op : Op) (res : Res)
  deriving DecidableEq

abbrev History (Op Res : Type*) := List (Event Op Res)

/-- `order` is a sequential order for `history`. A pair `[x, y]` is a sublist of a list when `x`
stands before `y` in it. -/
structure IsLinearization (O : SequentialObject S Op Res) (history : History Op Res)
    (order : List Op) : Prop where
  nodup : order.Nodup
  invoked : ∀ op ∈ order, Event.invoke op ∈ history
  answered : ∀ op res, Event.respond op res ∈ history → (op, res) ∈ O.transcript order
  realTime : ∀ first res second, [Event.respond first res, .invoke second].Sublist history →
    second ∈ order → [first, second].Sublist order

/-- Histories in which every operation takes effect at one point between its invocation and its
response; the second index lists the operations in the order of these points. -/
inductive Commits (O : SequentialObject S Op Res) : History Op Res → List Op → Prop
  | nil : Commits O [] []
  | invoke {history order} (op : Op) : Commits O history order →
      Event.invoke op ∉ history → Commits O (history ++ [.invoke op]) order
  | commit {history order} (op : Op) : Commits O history order →
      Event.invoke op ∈ history → op ∉ order → Commits O history (order ++ [op])
  | respond {history order} (op : Op) (res : Res) : Commits O history order →
      (op, res) ∈ O.transcript order → Commits O (history ++ [.respond op res]) order

variable {O : SequentialObject S Op Res} {history : History Op Res} {order : List Op}

theorem pair_sublist_concat {α : Type*} {x y z : α} {xs : List α} :
    [x, y].Sublist (xs ++ [z]) ↔ [x, y].Sublist xs ∨ x ∈ xs ∧ y = z := by
  rw [List.sublist_append_iff]
  constructor
  · rintro ⟨left, right, split, inLeft, inRight⟩
    rcases List.sublist_singleton.mp inRight with rfl | rfl
    · rw [List.append_nil] at split
      exact Or.inl (split ▸ inLeft)
    · obtain ⟨rfl, same⟩ := List.append_inj' (show [x] ++ [y] = left ++ [z] from split) rfl
      exact Or.inr ⟨List.singleton_sublist.mp inLeft, List.singleton_inj.mp same⟩
  · rintro (inside | ⟨mem, rfl⟩)
    · exact ⟨[x, y], [], by simp, inside, List.nil_sublist _⟩
    · exact ⟨[x], [y], rfl, List.singleton_sublist.mpr mem, List.Sublist.refl _⟩

theorem mem_transcript_concat {ops : List Op} {op last : Op} {res : Res}
    (mem : (op, res) ∈ O.transcript ops) : (op, res) ∈ O.transcript (ops ++ [last]) := by
  rw [O.transcript_concat]
  exact List.mem_append_left _ mem

theorem fst_mem_of_mem_transcript {ops : List Op} {op : Op} {res : Res}
    (mem : (op, res) ∈ O.transcript ops) : op ∈ ops := by
  simpa [O.map_fst_transcript] using List.mem_map_of_mem (f := Prod.fst) mem

theorem Commits.isLinearization (commits : Commits O history order) :
    IsLinearization O history order := by
  induction commits with
  | nil => exact ⟨List.nodup_nil, by simp, by simp, by simp⟩
  | @invoke history order op _ fresh ih =>
      refine ⟨ih.nodup, ?_, ?_, ?_⟩
      · exact fun other mem => List.mem_append_left _ (ih.invoked other mem)
      · intro other res mem
        exact ih.answered other res (by simpa using mem)
      · intro first res second before mem
        rcases pair_sublist_concat.mp before with before | ⟨-, same⟩
        · exact ih.realTime first res second before mem
        · obtain rfl := Event.invoke.inj same
          exact absurd (ih.invoked _ mem) fresh
  | @commit history order op _ invoked new ih =>
      refine ⟨?_, ?_, ?_, ?_⟩
      · exact ih.nodup.append (List.nodup_singleton op) (by simpa using new)
      · intro other mem
        rcases List.mem_append.mp mem with mem | mem
        · exact ih.invoked other mem
        · exact List.mem_singleton.mp mem ▸ invoked
      · exact fun other res mem => mem_transcript_concat (ih.answered other res mem)
      · intro first res second before mem
        rcases List.mem_append.mp mem with mem | mem
        · exact (ih.realTime first res second before mem).trans (List.sublist_append_left _ _)
        · -- every responded operation has been committed before the one committed now
          have responded : Event.respond first res ∈ history := before.subset (by simp)
          exact pair_sublist_concat.mpr (Or.inr
            ⟨fst_mem_of_mem_transcript (ih.answered first res responded), List.mem_singleton.mp mem⟩)
  | @respond history order op res _ committed ih =>
      refine ⟨ih.nodup, ?_, ?_, ?_⟩
      · exact fun other mem => List.mem_append_left _ (ih.invoked other mem)
      · intro other res' mem
        rcases List.mem_append.mp mem with mem | mem
        · exact ih.answered other res' mem
        · obtain ⟨rfl, rfl⟩ := Event.respond.inj (List.mem_singleton.mp mem)
          exact committed
      · intro first res' second before mem
        rcases pair_sublist_concat.mp before with before | ⟨-, same⟩
        · exact ih.realTime first res' second before mem
        · cases same

end Linearizability
