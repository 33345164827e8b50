import SospDemo.Service.Sources

/-!
# The layout of the stored models

The sizes and the data of a model travel side by side and are compared only where the upload is
parsed, modulo `2 ^ 32`. As long as no accepted upload claims sizes that wrap, every stored model
is laid out, in every state of every run.
-/

namespace SospDemo
variable {Engine Exn : Type} {api : EngineApi Engine Exn} {L : ShardLayout}

def ServiceAction.SizesFit : ServiceAction L → Prop
  | .installModel _ _ stream =>
      ∀ m chunks, Uploads ModelMetadata.dataSize stream m chunks → m.SizesFit
  | _ => True

theorem ServiceAction.SizesFit.brings {a : ServiceAction L} (fits : a.SizesFit) :
    a.Brings (fun _ model => model.LaidOut) fun _ => True := by
  apply brings_of_installs
  intro id pick stream same m chunks uploads
  subst same
  exact (ModelMetadata.laidOut_iff uploads).mpr (fits m chunks uploads)

namespace Service

def ModelsReadable (s : Service L api) : Prop :=
  ∀ node tag model, (s.tier.replica node).tier.rawModels.find tag = some model →
    model.LaidOut ∧ ∀ range ∈ model.readRanges,
      0 ≤ range.1 ∧ range.1 ≤ range.2 ∧ range.2 ≤ model.modelData.size

theorem Sourced.modelsReadable {s : Service L api}
    (sourced : s.Sourced fun _ model => model.LaidOut) : s.ModelsReadable := by
  intro node tag model found
  have laid := sourced.replicas node tag model found
  exact ⟨laid, laid.readRanges_inside⟩

def installRun (id pick : Nat) (stream : List InstallModelRequest) (node : L.Node)
    (call : OrderedCall) : List (ServiceAction L) :=
  [.installModel id pick stream, .order node call, .serve node (.deliver call)]

theorem exec_installRun (heap : Allocator) (id : Nat) {stream : List InstallModelRequest}
    {m : ModelMetadata} {chunks : List Bytes}
    (uploads : Uploads ModelMetadata.dataSize stream m chunks)
    (index : Fin (L.replicas (L.shardOf m.tag))) :
    ∃ s : Service L api, Runs.exec (step heap) empty
        (installRun id index.val stream ⟨L.shardOf m.tag, index⟩
          ⟨id, m.installCall chunks.flatten⟩) = some s ∧
      (s.tier.replica ⟨L.shardOf m.tag, index⟩).tier.rawModels.find m.tag =
        some (m.model chunks.flatten) := by
  have contacted : FunctionTier.installModel Exn heap L.table index.val stream ⟨0, ""⟩ =
      .p2pSend _ _ _ :=
    FunctionTier.installModel_eq_p2pSend.mpr
      ⟨m, chunks, uploads, ShardLayout.target_table.mpr ⟨index, rfl, rfl⟩, rfl, rfl⟩
  let node : L.Node := ⟨L.shardOf m.tag, index⟩
  let call : OrderedCall := ⟨id, m.installCall chunks.flatten⟩
  have sent : (empty : Service L api).step heap (.installModel id index.val stream) =
      some ⟨.empty, [(node, call)], [], [], [.invoke call]⟩ := by
    simp [step, contacted, send, empty, node, call]
  obtain ⟨s₂, ordered, tier_eq⟩ : ∃ s₂, step heap (⟨.empty, [(node, call)], [], [],
      [.invoke call]⟩ : Service L api) (.order node call) = some s₂ ∧
      s₂.tier = { (Tier.empty : Tier L api) with
        log := Function.update (fun _ => []) node.1 [call] } :=
    ⟨_, step_order.mpr ⟨List.mem_singleton_self _, _, Tier.step_order.mpr ⟨List.not_mem_nil, rfl⟩, rfl⟩, rfl⟩
  have next : Tier.allows (s₂.tier.log node.1) (s₂.tier.replica node) (.deliver call) := by
    simp [Tier.allows, tier_eq, Tier.empty, Replica.empty]
  obtain ⟨s₃, served, replica_eq⟩ : ∃ s₃, s₂.step heap (.serve node (.deliver call)) = some s₃ ∧
      (s₃.tier.replica node).tier.rawModels =
        ((s₂.tier.replica node).tier.perform call.op).2.rawModels :=
    ⟨_, step_serve.mpr ⟨rfl, _, Tier.step_serve.mpr ⟨next, _, Replica.step_deliver.mpr rfl, rfl⟩,
      rfl⟩, by simp⟩
  refine ⟨s₃, by simp only [installRun, Runs.exec_cons, sent, ordered, served, Option.bind_some,
    Runs.exec_nil, node, call], ?_⟩
  have free : (s₂.tier.replica node).tier.rawModels.find m.tag = none := by
    rw [tier_eq]
    rfl
  rw [replica_eq, CategorizerTier.perform_rawModels]
  simp only [call, ModelMetadata.tag_installCall, free, ModelMetadata.act_installCall,
    StdMap.find_put_self]

theorem models_laidOut_when_sizes_fit (heap : Allocator) :
    (∀ actions : List (ServiceAction L), (∀ a ∈ actions, a.SizesFit) →
      Runs.EveryState (step heap) (empty : Service L api) actions ModelsReadable) ∧
    (∀ (id : Nat) (stream : List InstallModelRequest) (m : ModelMetadata) (chunks : List Bytes),
      Uploads ModelMetadata.dataSize stream m chunks → ¬ m.SizesFit →
      ∀ index : Fin (L.replicas (L.shardOf m.tag)), ∃ s : Service L api,
        Runs.exec (step heap) empty
          (installRun id index.val stream ⟨L.shardOf m.tag, index⟩
            ⟨id, m.installCall chunks.flatten⟩) = some s ∧ ¬ s.ModelsReadable) := by
  constructor
  · intro actions fit
    have sourced : Runs.EveryState (step heap) (empty : Service L api) actions
        fun s => s.Sourced fun _ model => model.LaidOut :=
      Runs.invariant (C := fun _ a => a.SizesFit)
        (fun s a s' sourced fits taken =>
          sourced.step (fun _ => Model.laidOut_default) fits.brings taken)
        (sourced_empty _)
        (fun before a s isPrefix _ => fit a (isPrefix.subset (by simp)))
    exact sourced.mono fun s sourced => sourced.modelsReadable
  · intro id stream m chunks uploads wraps index
    obtain ⟨s, run, stored⟩ := exec_installRun heap id uploads index
    exact ⟨s, run, fun readable =>
      wraps ((ModelMetadata.laidOut_iff uploads).mp (readable _ _ _ stored).1)⟩

/-- Two sizes of `2 ^ 31` wrap to zero, so the upload is complete without any data. -/
def wrappingRun : List (ServiceAction ShardLayout.pair) :=
  installRun 0 0 [.metadata ⟨7, 2147483648, 2147483648, 0⟩] ShardLayout.firstNode
    ⟨0, .orderedInstallModel 7 (2 ^ 31) (2 ^ 31) 0 ⟨[]⟩⟩

theorem wrappingRun_not_laidOut : ∃ s : Service ShardLayout.pair sampleApi,
    Runs.exec (step .zeros) empty wrappingRun = some s ∧
      (s.tier.replica ShardLayout.firstNode).tier.rawModels.find 7 =
        some ⟨2 ^ 31, 2 ^ 31, 0, ⟨[]⟩⟩ ∧
      ¬ s.ModelsReadable := by
  refine ⟨_, rfl, rfl, fun readable => ?_⟩
  exact absurd (readable ShardLayout.firstNode 7 _ rfl).1 (by decide)

theorem fittingRun_laidOut :
    Runs.EveryState (step .zeros) (empty : Service ShardLayout.pair sampleApi)
      (installRun 0 0 [.metadata ⟨7, 1, 1, 0⟩, .fileData [97, 98]] ShardLayout.firstNode
        ⟨0, .orderedInstallModel 7 1 1 0 ⟨[97, 98]⟩⟩)
      ModelsReadable := by
  refine (models_laidOut_when_sizes_fit .zeros).1 _ fun a mem => ?_
  simp only [installRun, List.mem_cons, List.not_mem_nil, or_false] at mem
  rcases mem with rfl | rfl | rfl
  · rintro m chunks ⟨messages, -⟩
    obtain ⟨first, -⟩ := List.cons.inj messages
    obtain rfl := Request.metadata.inj first
    decide
  · trivial
  · trivial

end Service
end SospDemo
