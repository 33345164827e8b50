import SospDemo.Model.MxNetEngine

namespace SospDemo
open Buffers

def Parameters.find (p : Parameters) (name : Bytes) : Option Tensor :=
  (p.entries.find? fun entry => entry.1 = name).map Prod.snd

namespace MxNetEngine
variable {Symbol : Type}

/-- A place for an array: a name in one of the two maps. -/
inductive Slot
  | arg (name : Bytes)
  | aux (name : Bytes)
  deriving DecidableEq

namespace Slot

def key : Slot → Bytes
  | .arg name => ascii "arg:" ++ name
  | .aux name => ascii "aux:" ++ name

theorem arg_ne_aux : ascii "arg:" ≠ ascii "aux:" := by
  decide

theorem key_eq_aux {slot : Slot} {key : Bytes} (marked : key.take 4 = ascii "aux:") :
    slot.key = key ↔ slot = .aux (key.drop 4) := by
  have split : key = ascii "aux:" ++ key.drop 4 := by rw [← marked, List.take_append_drop]
  cases slot with
  | arg name =>
      have other : Slot.key (.arg name) ≠ key := by
        intro same
        rw [← same] at marked
        exact arg_ne_aux marked
      simp [other]
  | aux name =>
      rw [Slot.key, split, List.append_cancel_left_eq]
      simp [ascii]

theorem key_eq_arg {slot : Slot} {key : Bytes} (marked : key.take 4 = ascii "arg:") :
    slot.key = key ↔ slot = .arg (key.drop 4) := by
  have split : key = ascii "arg:" ++ key.drop 4 := by rw [← marked, List.take_append_drop]
  cases slot with
  | aux name =>
      have other : Slot.key (.aux name) ≠ key := by
        intro same
        rw [← same] at marked
        exact arg_ne_aux.symm marked
      simp [other]
  | arg name =>
      rw [Slot.key, split, List.append_cancel_left_eq]
      simp [ascii]

theorem take_key (slot : Slot) :
    slot.key.take 4 = ascii "arg:" ∨ slot.key.take 4 = ascii "aux:" := by
  cases slot with
  | arg name => exact Or.inl rfl
  | aux name => exact Or.inr rfl

end Slot

def array (e : MxNetEngine Symbol) : Slot → Option NDArray
  | .arg name => e.argsMap.find name
  | .aux name => e.auxMap.find name

def held (e : MxNetEngine Symbol) (slot : Slot) : Option Nat := (e.array slot).map NDArray.chunk

/-- The maps refer to arrays of these contents, each in a chunk of its own. -/
structure Holds (e : MxNetEngine Symbol) (contents : Slot → Option Tensor) : Prop where
  owned : Owned e.memory e.held
  shape : ∀ slot, (e.array slot).map NDArray.shape = (contents slot).map Tensor.shape
  values : ∀ slot t, contents slot = some t → value e.memory (e.held slot) = t.values

variable {e : MxNetEngine Symbol} {contents : Slot → Option Tensor}

def named (synsetVector : List Bytes) : MxNetEngine Symbol :=
  { empty with synsetVector := synsetVector }

theorem holds_named (synsetVector : List Bytes) :
    (named synsetVector : MxNetEngine Symbol).Holds fun _ => none := by
  have nothing : ∀ slot, (named synsetVector : MxNetEngine Symbol).array slot = none := by
    intro slot
    cases slot <;> rfl
  refine ⟨?_, fun slot => by rw [nothing]; rfl, fun slot t found => by cases found⟩
  have nobody : (named synsetVector : MxNetEngine Symbol).held = fun _ => none := by
    funext slot
    rw [held, nothing, Option.map_none]
  rw [nobody]
  exact Owned.nobody _

theorem Holds.set (holds : e.Holds contents) (slot : Slot) (t : Tensor) {next : MxNetEngine Symbol}
    (memory : next.memory = e.memory.alloc t.values)
    (array : next.array = Function.update e.array slot (some ⟨t.shape, e.memory.length⟩)) :
    next.Holds (Function.update contents slot (some t)) := by
  have held_eq : next.held = Function.update e.held slot (some e.memory.length) := by
    funext other
    rcases eq_or_ne other slot with rfl | apart
    · simp [held, array]
    · simp [held, array, apart]
  refine ⟨?_, ?_, ?_⟩
  · rw [held_eq, memory]
    exact holds.owned.give slot t.values
  · intro other
    rcases eq_or_ne other slot with rfl | apart
    · simp [array]
    · rw [array, Function.update_of_ne apart, Function.update_of_ne apart]
      exact holds.shape other
  · intro other t' found
    rw [held_eq, memory]
    rcases eq_or_ne other slot with rfl | apart
    · rw [Function.update_self] at found ⊢
      obtain rfl := Option.some.inj found
      exact value_some (Memory.buffer_alloc_self _ _)
    · rw [Function.update_of_ne apart] at found ⊢
      rw [holds.owned.value_alloc other]
      exact holds.values other t' found

theorem Holds.setArg (holds : e.Holds contents) (name : Bytes) (t : Tensor) :
    (e.setArg name t).Holds (Function.update contents (.arg name) (some t)) := by
  refine holds.set (.arg name) t rfl ?_
  funext slot
  cases slot with
  | arg other => simp [array, MxNetEngine.setArg, newArray, StdMap.find_assign, Function.update_apply]
  | aux other => rfl

theorem Holds.setAux (holds : e.Holds contents) (name : Bytes) (t : Tensor) :
    (e.setAux name t).Holds (Function.update contents (.aux name) (some t)) := by
  refine holds.set (.aux name) t rfl ?_
  funext slot
  cases slot with
  | aux other => simp [array, MxNetEngine.setAux, newArray, StdMap.find_assign, Function.update_apply]
  | arg other => rfl

theorem Holds.sortParameter (holds : e.Holds contents) (k : Bytes × Tensor) :
    (e.sortParameter k).Holds fun slot => if k.1 = slot.key then some k.2 else contents slot := by
  unfold MxNetEngine.sortParameter
  split
  · rename_i marked
    convert holds.setAux (k.1.drop 4) k.2 using 1
    funext slot
    simp only [eq_comm (a := k.1), Slot.key_eq_aux marked, Function.update_apply]
  · rename_i notAux
    split
    · rename_i marked
      convert holds.setArg (k.1.drop 4) k.2 using 1
      funext slot
      simp only [eq_comm (a := k.1), Slot.key_eq_arg marked, Function.update_apply]
    · rename_i notArg
      convert holds using 1
      funext slot
      refine if_neg fun same => ?_
      rcases slot.take_key with marked | marked <;> rw [← same] at marked
      · exact notArg marked
      · exact notAux marked

theorem Holds.sortParameters {entries : List (Bytes × Tensor)}
    (nodup : (entries.map Prod.fst).Nodup) (holds : e.Holds contents) :
    (entries.foldl MxNetEngine.sortParameter e).Holds fun slot =>
      ((entries.find? fun entry => entry.1 = slot.key).map Prod.snd).or (contents slot) := by
  induction entries generalizing e contents with
  | nil => simpa using holds
  | cons k rest ih =>
      obtain ⟨fresh, nodup⟩ := List.nodup_cons.mp nodup
      rw [List.foldl_cons]
      convert ih nodup (holds.sortParameter k) using 1
      funext slot
      by_cases same : k.1 = slot.key
      · -- no later parameter has the name
        have absent : rest.find? (fun entry => entry.1 = slot.key) = none := by
          rw [List.find?_eq_none]
          intro entry mem again
          exact fresh (List.mem_map.mpr ⟨entry, mem, (of_decide_eq_true again).trans same.symm⟩)
        simp [same, absent]
      · simp [same]

def loaded (heap : ArrayAllocator) (p : Parameters) (slot : Slot) : Option Tensor :=
  if slot = .arg (ascii "softmax_label") then some (heap.tensor (ascii "softmax_label") [1])
  else if slot = .arg (ascii "data") then some (heap.tensor (ascii "data") inputShape)
  else p.find slot.key

theorem holds_loaded (heap : ArrayAllocator) (p : Parameters) (synsetVector : List Bytes) :
    (setInputs heap (p.entries.foldl MxNetEngine.sortParameter
      (named synsetVector : MxNetEngine Symbol))).Holds (loaded heap p) := by
  have start : (named synsetVector : MxNetEngine Symbol).Holds _ := holds_named synsetVector
  have sorted := start.sortParameters p.nodup
  unfold setInputs
  convert (sorted.setArg (ascii "data") (heap.tensor (ascii "data") inputShape)).setArg
    (ascii "softmax_label") (heap.tensor (ascii "softmax_label") [1]) using 1
  funext slot
  simp only [loaded, Function.update_apply, Option.or_none, Parameters.find]

end MxNetEngine
end SospDemo
