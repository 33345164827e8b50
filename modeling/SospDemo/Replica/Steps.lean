import SospDemo.Model.CategorizerTier
import SospDemo.Library.Runs

/-!
# One replica of the categorizer tier

The ordered calls are delivered one at a time, each as one atomic step. Any number of inference
calls run beside them, each in the steps between which it holds no lock.
-/

namespace SospDemo

structure InferenceCall where
  id : Nat
  photo : Photo
  deriving DecidableEq

abbrev InferenceCall.tag (c : InferenceCall) : UInt32 := c.photo.tag

variable {Engine Exn : Type}

inductive Phase (api : EngineApi Engine Exn)
  | missed
  | built (engine : InferenceEngine api)
  | returned (outcome : Outcome Exn)

namespace Phase
variable {api : EngineApi Engine Exn}

def afterLookup : CategorizerTier.Lookup Exn → Phase api
  | .answered outcome => .returned outcome
  | .missed => .missed

def afterBuild : Except Exn (InferenceEngine api) → Phase api
  | .ok engine => .built engine
  | .error e => .returned (CategorizerTier.catchAll (.error e))

@[simp] theorem afterLookup_ne_built (found : CategorizerTier.Lookup Exn) (engine : InferenceEngine api) :
    afterLookup found ≠ .built engine := by
  cases found <;> simp [afterLookup]

theorem afterBuild_eq_built {result : Except Exn (InferenceEngine api)}
    {engine : InferenceEngine api} : afterBuild result = .built engine ↔ result = .ok engine := by
  cases result <;> simp [afterBuild]

end Phase

inductive ReplicaAction
  | deliver (call : OrderedCall)
  | lookup (call : InferenceCall)
  | build (call : InferenceCall)
  | store (call : InferenceCall)
  deriving DecidableEq

abbrev ReplicaAction.tag : ReplicaAction → UInt32
  | .deliver call => call.tag
  | .lookup call | .build call | .store call => call.tag

def ReplicaAction.delivers : ReplicaAction → List OrderedCall
  | .deliver call => [call]
  | _ => []

@[ext] structure Replica (api : EngineApi Engine Exn) where
  tier : CategorizerTier api
  calls : StdMap InferenceCall (Phase api)
  delivered : List (OrderedCall × Int)

namespace Replica
variable {api : EngineApi Engine Exn}

def empty : Replica api := ⟨.empty, .empty, []⟩

def step (r : Replica api) : ReplicaAction → Option (Replica api)
  | .deliver call =>
      let (code, tier) := r.tier.perform call.op
      some { r with tier, delivered := r.delivered ++ [(call, code)] }
  | .lookup call =>
      match r.calls.find call with
      | none =>
          some { r with calls := r.calls.assign call (.afterLookup (r.tier.lookup call.photo)) }
      | some _ => none
  | .build call =>
      match r.calls.find call with
      | some .missed =>
          let (tier, result) := r.tier.build call.photo
          some { r with tier, calls := r.calls.assign call (.afterBuild result) }
      | _ => none
  | .store call =>
      match r.calls.find call with
      | some (.built engine) =>
          let (tier, outcome) := r.tier.store engine call.photo
          some { r with tier, calls := r.calls.assign call (.returned outcome) }
      | _ => none

variable {r r' : Replica api}

theorem step_deliver {call : OrderedCall} :
    r.step (.deliver call) = some r' ↔
      r' = ⟨(r.tier.perform call.op).2, r.calls,
        r.delivered ++ [(call, (r.tier.perform call.op).1)]⟩ :=
  ⟨fun taken => (Option.some.inj taken).symm, fun eq => congrArg some eq.symm⟩

theorem step_lookup {call : InferenceCall} :
    r.step (.lookup call) = some r' ↔ r.calls.find call = none ∧
      r' = { r with calls := r.calls.assign call (.afterLookup (r.tier.lookup call.photo)) } := by
  cases found : r.calls.find call <;> simp [step, found, eq_comm]

theorem step_build {call : InferenceCall} :
    r.step (.build call) = some r' ↔ r.calls.find call = some .missed ∧
      r' = ⟨(r.tier.build call.photo).1,
        r.calls.assign call (.afterBuild (r.tier.build call.photo).2), r.delivered⟩ := by
  cases found : r.calls.find call with
  | none => simp [step, found]
  | some phase => cases phase <;> simp [step, found, eq_comm]

theorem step_store {call : InferenceCall} :
    r.step (.store call) = some r' ↔ ∃ engine, r.calls.find call = some (.built engine) ∧
      r' = ⟨(r.tier.store engine call.photo).1,
        r.calls.assign call (.returned (r.tier.store engine call.photo).2), r.delivered⟩ := by
  cases found : r.calls.find call with
  | none => simp [step, found]
  | some phase => cases phase <;> simp [step, found, eq_comm]

theorem delivered_step {a : ReplicaAction} (taken : r.step a = some r') :
    r'.delivered.map Prod.fst = r.delivered.map Prod.fst ++ a.delivers := by
  cases a with
  | deliver call =>
      obtain rfl := step_deliver.mp taken
      simp [ReplicaAction.delivers]
  | lookup call =>
      obtain ⟨-, rfl⟩ := step_lookup.mp taken
      simp [ReplicaAction.delivers]
  | build call =>
      obtain ⟨-, rfl⟩ := step_build.mp taken
      simp [ReplicaAction.delivers]
  | store call =>
      obtain ⟨engine, -, rfl⟩ := step_store.mp taken
      simp [ReplicaAction.delivers]

end Replica

end SospDemo
