import SospDemo.Library.SequentialObject

/-!
# Simulation of sequential objects

One object simulates another when related states stay related and give the same answers to
operations that mean the same. The operations may be restricted to those the abstract object
permits in its state.
-/

namespace SequentialObject
variable {S T Op Call Res : Type*}

def answersFrom (O : SequentialObject S Op Res) (s : S) : List Op → List Res
  | [] => []
  | op :: rest => (O.apply s op).1 :: O.answersFrom (O.apply s op).2 rest

def answers (O : SequentialObject S Op Res) (ops : List Op) : List Res := O.answersFrom O.init ops

def PermitsFrom (O : SequentialObject S Op Res) (allowed : S → Op → Prop) (s : S) : List Op → Prop
  | [] => True
  | op :: rest => allowed s op ∧ O.PermitsFrom allowed (O.apply s op).2 rest

def Permits (O : SequentialObject S Op Res) (allowed : S → Op → Prop) (ops : List Op) : Prop :=
  O.PermitsFrom allowed O.init ops

structure Simulation (concrete : SequentialObject S Call Res) (abstract : SequentialObject T Op Res)
    (means : Call → Op → Prop) (allowed : T → Op → Prop) where
  rel : S → T → Prop
  init : rel concrete.init abstract.init
  answer : ∀ s t call op, rel s t → means call op → allowed t op →
    (concrete.apply s call).1 = (abstract.apply t op).1
  step : ∀ s t call op, rel s t → means call op → allowed t op →
    rel (concrete.apply s call).2 (abstract.apply t op).2

namespace Simulation
variable {concrete : SequentialObject S Call Res} {abstract : SequentialObject T Op Res}
  {means : Call → Op → Prop} {allowed : T → Op → Prop}

theorem answersFrom_eq (sim : Simulation concrete abstract means allowed) {s : S} {t : T}
    {calls : List Call} {ops : List Op} (related : sim.rel s t)
    (meaning : List.Forall₂ means calls ops) (permitted : abstract.PermitsFrom allowed t ops) :
    concrete.answersFrom s calls = abstract.answersFrom t ops := by
  induction meaning generalizing s t with
  | nil => rfl
  | @cons call op calls ops mean _ ih =>
      obtain ⟨now, later⟩ := permitted
      rw [answersFrom, answersFrom, sim.answer s t call op related mean now,
        ih (sim.step s t call op related mean now) later]

theorem answers_eq (sim : Simulation concrete abstract means allowed) {calls : List Call}
    {ops : List Op} (meaning : List.Forall₂ means calls ops)
    (permitted : abstract.Permits allowed ops) : concrete.answers calls = abstract.answers ops :=
  sim.answersFrom_eq sim.init meaning permitted

end Simulation
end SequentialObject
