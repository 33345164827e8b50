import SospDemo.Blob.WireFormat
import SospDemo.Service.Inferences
import SospDemo.Service.Sources

namespace SospDemo
open Linearizability Runs WireFormat
variable {Engine Exn : Type} {api : EngineApi Engine Exn} {L : ShardLayout}

theorem Model.fits_default : (default : Model).Fits := by
  constructor <;> decide

theorem ModelMetadata.fits_model {m : ModelMetadata} {stream : List InstallModelRequest}
    {chunks : List Bytes} (uploads : Uploads ModelMetadata.dataSize stream m chunks) :
    (m.model chunks.flatten).Fits := by
  have size := uploads.length_flatten
  have synset := m.synsetSize.toNat_lt
  have symbol := m.symbolSize.toNat_lt
  have params := m.paramsSize.toNat_lt
  have data : m.dataSize < 2 ^ 32 := UInt32.toNat_lt _
  constructor <;> simp only [ModelMetadata.model, Blob.size] <;> omega

theorem CategorizerTier.fromBytes_toBytes {count : Format UInt8 Nat} {t : CategorizerTier api}
    {entries : List (UInt32 × Model)} (iterates : t.rawModels.Iterates entries)
    (counted : count.Carries entries.length)
    (fits : ∀ tag model, t.rawModels.find tag = some model → model.Fits) :
    (fromBytes count (toBytes count entries) : CategorizerTier api) = ⟨t.rawModels, .empty⟩ := by
  have carries : (rawModelFormat.sequence count).Carries entries :=
    counted.sequence fun entry mem =>
      (fits entry.1 entry.2 ((iterates entry.1 entry.2).mp mem)).carries_entry
  have decoded := carries.decode_append []
  rw [List.append_nil] at decoded
  rw [fromBytes, toBytes, decoded, iterates.ofEntries_eq]

inductive MemberAction (L : ShardLayout)
  | serve (action : ServiceAction L)
  | transfer (source target : L.Node) (entries : List (UInt32 × Model))

namespace Service

/-- `target` becomes the object that the bytes of `source` decode to, and goes on with the calls
that `source` has not delivered yet. -/
def transfer (count : Format UInt8 Nat) (s : Service L api) (source target : L.Node)
    (entries : List (UInt32 × Model)) : Service L api :=
  let rebuilt : Replica api :=
    ⟨.fromBytes count (CategorizerTier.toBytes count entries), .empty,
      (s.tier.replica source).delivered⟩
  { s with tier := { s.tier with replica := Function.update s.tier.replica target rebuilt } }

def stepMembers (heap : Allocator) (count : Format UInt8 Nat) (s : Service L api) :
    MemberAction L → Option (Service L api)
  | .serve action => s.step heap action
  | .transfer source target entries =>
      if source.1 = target.1 then some (s.transfer count source target entries) else none

/-- What is transferred is what iterating over the source's map visits. -/
def TransfersModels (count : Format UInt8 Nat) (s : Service L api) : MemberAction L → Prop
  | .serve _ => True
  | .transfer source _ entries =>
      (s.tier.replica source).tier.rawModels.Iterates entries ∧ count.Carries entries.length

def MembersRead (s : Service L api) : MemberAction L → Prop
  | .serve action => s.ReadsInstalled action
  | .transfer .. => True

variable {heap : Allocator} {count : Format UInt8 Nat} {s s' : Service L api}

theorem step_transfer {source target : L.Node} {entries : List (UInt32 × Model)} :
    s.stepMembers heap count (.transfer source target entries) = some s' ↔
      source.1 = target.1 ∧ s' = s.transfer count source target entries := by
  by_cases same : source.1 = target.1 <;> simp [stepMembers, same, eq_comm]

/-! ## Every stored model fits -/

abbrev Fitting (s : Service L api) : Prop := s.Sourced fun _ model => model.Fits

theorem Fitting.fromBytes_toBytes (fitting : s.Fitting) {source : L.Node}
    {entries : List (UInt32 × Model)}
    (iterates : (s.tier.replica source).tier.rawModels.Iterates entries)
    (counted : count.Carries entries.length) :
    (.fromBytes count (CategorizerTier.toBytes count entries) : CategorizerTier api) =
      ⟨(s.tier.replica source).tier.rawModels, .empty⟩ :=
  CategorizerTier.fromBytes_toBytes iterates counted (fitting.replicas source)

theorem Fitting.transfer (fitting : s.Fitting) {source target : L.Node}
    {entries : List (UInt32 × Model)} (same : source.1 = target.1)
    (transfers : s.TransfersModels count (.transfer source target entries)) :
    (s.transfer count source target entries).Fitting := by
  have rebuilt := fitting.fromBytes_toBytes transfers.1 transfers.2
  refine ⟨{ fitting.requested with }, fun node => ?_, fun node => ?_⟩
  · by_cases here : node = target
    · subst here
      simp only [Service.transfer, Function.update_self, rebuilt]
      exact fitting.replicas source
    · simp only [Service.transfer, Function.update_of_ne here]
      exact fitting.replicas node
  · by_cases here : node = target
    · subst here
      simp only [Service.transfer, Function.update_self]
      rw [← same]
      exact fitting.ordered source
    · simp only [Service.transfer, Function.update_of_ne here]
      exact fitting.ordered node

theorem Fitting.stepMembers (fitting : s.Fitting) {a : MemberAction L}
    (transfers : s.TransfersModels count a) (taken : s.stepMembers heap count a = some s') :
    s'.Fitting := by
  cases a with
  | serve action =>
      exact Sourced.step fitting (fun _ => Model.fits_default)
        (ServiceAction.brings_of_installs fun _ _ _ _ _ _ uploads =>
          ModelMetadata.fits_model uploads) taken
  | transfer source target entries =>
      obtain ⟨same, rfl⟩ := step_transfer.mp taken
      exact fitting.transfer same transfers

theorem fitting_of_transfers {actions : List (MemberAction L)}
    (transfers : EveryStep (stepMembers heap count) (empty : Service L api) actions
      (TransfersModels count)) :
    EveryState (stepMembers heap count) (empty : Service L api) actions Fitting :=
  invariant (fun _ _ _ fitting transfers taken => fitting.stepMembers transfers taken)
    (sourced_empty _) transfers

theorem transfers_lossless (heap : Allocator) (count : Format UInt8 Nat)
    (actions : List (MemberAction L))
    (transfers : EveryStep (stepMembers heap count) (empty : Service L api) actions
      (TransfersModels count)) :
    EveryStep (stepMembers heap count) (empty : Service L api) actions fun s a =>
      ∀ source target entries, a = .transfer source target entries →
        (s.transfer count source target entries).tier.replica target =
          ⟨⟨(s.tier.replica source).tier.rawModels, .empty⟩, .empty,
            (s.tier.replica source).delivered⟩ := by
  intro before a s isPrefix reached source target entries same
  subst same
  have fitting : s.Fitting :=
    fitting_of_transfers transfers before s ((List.prefix_append _ _).trans isPrefix) reached
  obtain ⟨iterates, counted⟩ := transfers before _ s isPrefix reached
  simp only [transfer, Function.update_self, fitting.fromBytes_toBytes iterates counted]

/-! ## Replicas still agree -/

theorem allFollow_transfer (fitting : s.Fitting) (follow : s.tier.AllFollow)
    {source target : L.Node} {entries : List (UInt32 × Model)} (same : source.1 = target.1)
    (transfers : s.TransfersModels count (.transfer source target entries)) :
    (s.transfer count source target entries).tier.AllFollow := by
  have rebuilt := fitting.fromBytes_toBytes transfers.1 transfers.2
  refine ⟨(fitting.transfer same transfers).ordered, fun node => ?_⟩
  by_cases here : node = target
  · subst here
    obtain ⟨rawModels, delivered⟩ := follow.follows source
    simp only [transfer, Function.update_self, rebuilt]
    exact ⟨rawModels, delivered⟩
  · simp only [transfer, Function.update_of_ne here]
    exact follow.follows node

theorem allFollow_step (follow : s.tier.AllFollow) {a : ServiceAction L}
    (reads : s.ReadsInstalled a) (taken : s.step heap a = some s') : s'.tier.AllFollow := by
  cases a with
  | serve node action =>
      obtain ⟨-, tier, stepped, rfl⟩ := step_serve.mp taken
      exact follow.step (a := .serve node action) reads stepped
  | order node call =>
      obtain ⟨-, tier, stepped, rfl⟩ := step_order.mp taken
      exact follow.step (a := .order node.1 call) trivial stepped
  | collect shard call =>
      obtain ⟨tier, stepped, rfl⟩ := step_collect.mp taken
      exact follow.step (a := .collect shard call) trivial stepped
  | respond node call =>
      obtain ⟨-, ret, -, rfl⟩ := step_respond.mp taken
      exact follow
  | installModel id pick stream =>
      rcases step_installModel taken with rfl | ⟨m, chunks, node, -, -, sent⟩
      · exact follow
      · obtain ⟨-, rfl⟩ := send_eq_some.mp sent
        exact follow
  | removeModel id pick tag =>
      rcases step_removeModel taken with rfl | ⟨node, -, sent⟩
      · exact follow
      · obtain ⟨-, rfl⟩ := send_eq_some.mp sent
        exact follow
  | whatsthis id pick stream =>
      rcases step_whatsthis taken with rfl | ⟨node, m, chunks, tag, -, -, -, rfl⟩ <;> exact follow

theorem membersRead_of_agree (before : s.tier.ReplicasAgree) (after : s'.tier.ReplicasAgree)
    {a : MemberAction L} (taken : s.stepMembers heap count a = some s') : s.MembersRead a := by
  cases a with
  | transfer => trivial
  | serve action =>
      cases action with
      | serve node action =>
          obtain ⟨-, tier, stepped, rfl⟩ := step_serve.mp (show s.step heap _ = some s' from taken)
          exact before.readsInstalled after stepped
      | installModel | removeModel | whatsthis | order | collect | respond => trivial

theorem replicas_agree_with_transfers_iff (heap : Allocator) (count : Format UInt8 Nat)
    (actions : List (MemberAction L)) (s : Service L api)
    (run : exec (stepMembers heap count) empty actions = some s)
    (transfers : EveryStep (stepMembers heap count) (empty : Service L api) actions
      (TransfersModels count)) :
    EveryState (stepMembers heap count) (empty : Service L api) actions
        (fun s => s.tier.ReplicasAgree) ↔
      EveryStep (stepMembers heap count) (empty : Service L api) actions MembersRead := by
  constructor
  · exact everyStep_of_everyState
      (fun s a s' before taken after => membersRead_of_agree before after taken) run
  · intro reads
    have follow : EveryState (stepMembers heap count) (empty : Service L api) actions
        fun s => s.Fitting ∧ s.tier.AllFollow := by
      refine invariant (fun s a s' ⟨fitting, follow⟩ ⟨transfers, reads⟩ taken => ?_)
        ⟨sourced_empty _, Tier.allFollow_empty⟩ (transfers.and reads)
      refine ⟨fitting.stepMembers transfers taken, ?_⟩
      cases a with
      | serve action => exact allFollow_step follow reads taken
      | transfer source target entries =>
          obtain ⟨same, rfl⟩ := step_transfer.mp taken
          exact allFollow_transfer fitting follow same transfers
    exact follow.mono fun s ⟨_, follow⟩ => follow.replicasAgree

section Replacement
open ShardLayout

def replacementModel : Model := ⟨1, 1, 0, ⟨[114, 98]⟩⟩

/-- The second replica is made from the first before it has delivered anything. -/
def replacementRun : List (MemberAction pair) :=
  let install : OrderedCall := ⟨0, .orderedInstallModel 7 1 1 0 ⟨[114, 98]⟩⟩
  [.serve (.installModel 0 0 [.metadata ⟨7, 1, 1, 0⟩, .fileData [114, 98]]),
    .serve (.order firstNode install), .serve (.serve firstNode (.deliver install)),
    .transfer firstNode secondNode [(7, replacementModel)]]

theorem replacement_transfers :
    EveryStep (stepMembers .zeros (littleEndian 4)) (empty : Service pair sampleApi)
      replacementRun (TransfersModels (littleEndian 4)) := by
  simp only [replacementRun, everyStep_cons]
  refine ⟨trivial, fun s₁ taken₁ => ⟨trivial, fun s₂ taken₂ => ⟨trivial, fun s₃ taken₃ =>
    ⟨⟨?_, carries_littleEndian (by decide)⟩, fun _ _ => everyStep_nil _⟩⟩⟩⟩
  cases taken₁; cases taken₂; cases taken₃
  intro tag model
  change _ ↔ (StdMap.empty.assign 7 replacementModel).find tag = some model
  rw [StdMap.find_assign]
  by_cases same : tag = 7 <;> simp [same, eq_comm]

theorem replacement_lossless :
    ∃ s : Service pair sampleApi,
      exec (stepMembers .zeros (littleEndian 4)) empty (replacementRun.take 3) = some s ∧
      ((s.transfer (littleEndian 4) firstNode secondNode
        [(7, replacementModel)]).tier.replica secondNode).tier.rawModels =
          (s.tier.replica firstNode).tier.rawModels := by
  have lossless := transfers_lossless .zeros (littleEndian 4) replacementRun
    replacement_transfers (replacementRun.take 3)
    (.transfer firstNode secondNode [(7, replacementModel)]) _ ⟨[], rfl⟩ rfl firstNode secondNode
    _ rfl
  exact ⟨_, rfl, by rw [lossless]⟩

theorem replacement_agrees_iff :
    EveryState (stepMembers .zeros (littleEndian 4)) (empty : Service pair sampleApi)
        replacementRun (fun s => s.tier.ReplicasAgree) ↔
      EveryStep (stepMembers .zeros (littleEndian 4)) (empty : Service pair sampleApi)
        replacementRun MembersRead :=
  replicas_agree_with_transfers_iff .zeros (littleEndian 4) replacementRun _ rfl
    replacement_transfers

end Replacement
end Service
end SospDemo
