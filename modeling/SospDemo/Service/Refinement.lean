import SospDemo.Service.Cluster

namespace SospDemo
variable {Engine Exn : Type} {L : ShardLayout} {api : EngineApi Engine Exn} {heap : Allocator}

inductive FlatRequest
  | install (tag : UInt32) (model : Model)
  | remove (tag : UInt32)
  | ask (photo : Photo)

namespace Flat
open Cluster

def installed : ClientReply Exn := .model (.ok (.ok, ⟨0, "Installed model successfully."⟩))

def removed : ClientReply Exn := .model (.ok (.ok, ⟨0, "Removed model successfully."⟩))

def failed : ClientReply Exn := .model (.ok (.ok, ⟨-1, "Some error occurred!"⟩))

def described (text : String) : ClientReply Exn := .photo (.ok (.ok, ⟨text⟩))

def label (api : EngineApi Engine Exn) (model : Model) (photo : Photo) : ClientReply Exn :=
  match api.loadModel model with
  | .error _ => described "Cannot load model for photo tag.  Something is wrong."
  | .ok engine =>
      match api.classify engine photo with
      | .error e => .photo (.error (.remote e))
      | .ok guess => described guess.guess

@[simps] def store (api : EngineApi Engine Exn) :
    SequentialObject (StdMap UInt32 Model) FlatRequest (ClientReply Exn) where
  init := .empty
  apply
    | m, .install tag model =>
        match m.find tag with
        | none => (installed, m.assign tag model)
        | some _ => (failed, m)
    | m, .remove tag =>
        match m.find tag with
        | none => (failed, m)
        | some _ => (removed, m.erase tag)
    | m, .ask photo =>
        match m.find photo.tag with
        | none => (described "Cannot find model for photo tag.", m)
        | some model => (label api model photo, m)

def Classifies (api : EngineApi Engine Exn) (m : StdMap UInt32 Model) : FlatRequest → Prop
  | .ask photo => ∀ model engine, m.find photo.tag = some model → api.loadModel model = .ok engine →
      ∃ guess, api.classify engine photo = .ok guess
  | _ => True

/-- A request at a member `pick` of the tag's shard, with an accepted stream, and what it asks
of the map. -/
inductive Means (L : ShardLayout) : ClientRequest → FlatRequest → Prop
  | install {pick stream m chunks} :
      Uploads ModelMetadata.dataSize stream m chunks → pick < L.replicas (L.shardOf m.tag) →
      Means L (.installModel pick stream) (.install m.tag (m.model chunks.flatten))
  | remove {pick tag} : pick < L.replicas (L.shardOf tag) →
      Means L (.removeModel pick tag) (.remove tag)
  | ask {pick stream m chunks tag} :
      Uploads PhotoMetadata.dataSize stream m chunks → m.tags = [tag] →
      pick < L.replicas (L.shardOf tag) →
      Means L (.whatsthis pick stream) (.ask ⟨tag, ⟨chunks.flatten⟩⟩)

structure Holds (c : Cluster L api) (m : StdMap UInt32 Model) : Prop where
  rawModels : ∀ node, (c node).rawModels = m.restrict fun tag => L.shardOf tag = node.1
  coherent : ∀ node, (c node).Coherent

theorem holds_empty : Holds (Cluster.empty : Cluster L api) .empty where
  rawModels _ := (StdMap.restrict_empty _).symm
  coherent _ := CategorizerTier.coherent_empty

variable {c : Cluster L api} {m : StdMap UInt32 Model}

theorem Holds.find (holds : Holds c m) {node : L.Node} {tag : UInt32}
    (routed : node.1 = L.shardOf tag) : (c node).rawModels.find tag = m.find tag := by
  rw [holds.rawModels node, StdMap.find_restrict]
  simp [routed]

theorem Holds.orderedSend (holds : Holds c m) (op : OrderedOp) :
    (c.orderedSend (L.shardOf op.tag) op).1 = (op.act (m.find op.tag)).1 ∧
      Holds (c.orderedSend (L.shardOf op.tag) op).2
        (m.put op.tag (op.act (m.find op.tag)).2) := by
  have entry : ∀ node : L.Node, node.1 = L.shardOf op.tag →
      (c node).rawModels.find op.tag = m.find op.tag := fun node routed => holds.find routed
  constructor
  · have codes : (L.members (L.shardOf op.tag)).map (fun node => ((c node).perform op).1) =
        List.replicate (L.replicas (L.shardOf op.tag)) (op.act (m.find op.tag)).1 := by
      refine List.eq_replicate_iff.mpr ⟨by simp, fun code mem => ?_⟩
      obtain ⟨node, member, rfl⟩ := List.mem_map.mp mem
      rw [CategorizerTier.perform_code, entry node (ShardLayout.mem_members.mp member)]
    rw [Cluster.orderedSend, codes,
      CategorizerTier.collectReplies_replicate _ (L.replicas_pos _)]
  · constructor
    · intro node
      simp only [Cluster.orderedSend]
      rw [StdMap.restrict_put]
      by_cases routed : node.1 = L.shardOf op.tag
      · rw [if_pos routed, CategorizerTier.perform_rawModels, entry node routed,
          holds.rawModels node, if_pos (decide_eq_true routed.symm)]
      · rw [if_neg routed, holds.rawModels node, if_neg (by simpa using Ne.symm routed)]
    · intro node
      simp only [Cluster.orderedSend]
      split
      · exact (holds.coherent node).perform op
      · exact holds.coherent node

theorem Holds.inference (holds : Holds c m) {node : L.Node} {photo : Photo}
    (routed : node.1 = L.shardOf photo.tag) (classifies : Classifies api m (.ask photo)) :
    .photo (FunctionTier.finishWhatsthis [((c node).inference photo).2]) =
        ((store api).apply m (.ask photo)).1 ∧
      Holds (Function.update c node ((c node).inference photo).1) m := by
  have entry : (c node).rawModels.find photo.tag = m.find photo.tag := holds.find routed
  have coherent := holds.coherent node
  have keeps : ∀ tier : CategorizerTier api, tier.rawModels = (c node).rawModels → tier.Coherent →
      Holds (Function.update c node tier) m := by
    intro tier same tierCoherent
    constructor
    · intro other
      by_cases eq : other = node
      · subst eq
        rw [Function.update_self, same, holds.rawModels other]
      · rw [Function.update_of_ne eq, holds.rawModels other]
    · intro other
      by_cases eq : other = node
      · subst eq
        rwa [Function.update_self]
      · rw [Function.update_of_ne eq]
        exact holds.coherent other
  cases bound : m.find photo.tag with
  | none =>
      rw [CategorizerTier.inference_of_unbound coherent (entry.trans bound)]
      exact ⟨by simp [bound, described, CategorizerTier.notFound], keeps _ rfl coherent⟩
  | some model =>
      cases loads : api.loadModel model with
      | error e =>
          rw [CategorizerTier.inference_of_unloadable coherent (entry.trans bound) loads]
          exact ⟨by simp [bound, label, loads, described, CategorizerTier.cannotLoad],
            keeps _ rfl coherent⟩
      | ok loadedEngine =>
          obtain ⟨guess, answers⟩ := classifies model loadedEngine bound loads
          let engine : InferenceEngine api := ⟨model, loadedEngine, loads⟩
          have guessed : engine.inference photo = .ok guess := answers
          have answered : ((store api).apply m (.ask photo)).1 = described guess.guess := by
            simp [bound, label, loads, answers]
          cases cached : (c node).inferenceEngines.find photo.tag with
          | some other =>
              rw [CategorizerTier.inference_of_cached coherent cached
                (show _ = some engine.model from entry.trans bound), guessed, answered]
              exact ⟨rfl, keeps _ rfl coherent⟩
          | none =>
              rw [CategorizerTier.inference_of_uncached cached
                (show _ = some engine.model from entry.trans bound), guessed, answered]
              exact ⟨rfl, keeps _ rfl (coherent.assign (entry.trans bound))⟩

theorem store_install (m : StdMap UInt32 Model) (metadata : ModelMetadata) (data : Bytes) :
    (store api).apply m (.install metadata.tag (metadata.model data)) =
      (.model (.ok (FunctionTier.installReply
          ((metadata.installCall data).act (m.find metadata.tag)).1)),
        m.put metadata.tag ((metadata.installCall data).act (m.find metadata.tag)).2) := by
  cases bound : m.find metadata.tag with
  | none => simp [bound, installed, FunctionTier.installReply]
  | some model =>
      simp [bound, failed, FunctionTier.installReply, ModelMetadata.installCall,
        OrderedOp.act, StdMap.assign_of_present bound]

theorem store_remove (m : StdMap UInt32 Model) (tag : UInt32) :
    (store api).apply m (.remove tag) =
      (.model (.ok (FunctionTier.removeReply
          ((OrderedOp.orderedRemoveModel tag).act (m.find tag)).1)),
        m.put tag ((OrderedOp.orderedRemoveModel tag).act (m.find tag)).2) := by
  cases bound : m.find tag with
  | none =>
      simp [bound, failed, FunctionTier.removeReply, OrderedOp.act, StdMap.erase_of_absent bound]
  | some model => simp [bound, removed, FunctionTier.removeReply, OrderedOp.act]

theorem Holds.execute (holds : Holds c m) {request : ClientRequest} {flat : FlatRequest}
    (means : Means L request flat) (classifies : Classifies api m flat) :
    (execute heap c request).1 = ((store api).apply m flat).1 ∧
      Holds (execute heap c request).2 ((store api).apply m flat).2 := by
  cases means with
  | @install pick stream metadata chunks uploads picked =>
      have found := ShardLayout.target_table.mpr ⟨⟨pick, picked⟩, rfl, rfl⟩
      have contacted : FunctionTier.installModel Exn heap L.table pick stream ⟨0, ""⟩ =
          .p2pSend _ _ _ :=
        FunctionTier.installModel_eq_p2pSend.mpr ⟨metadata, chunks, uploads, found, rfl, rfl⟩
      obtain ⟨code, next⟩ := holds.orderedSend (metadata.installCall chunks.flatten)
      rw [ModelMetadata.tag_installCall] at code next
      rw [store_install]
      simp only [Cluster.execute, contacted]
      exact ⟨congrArg (fun ret => ClientReply.model (.ok (FunctionTier.installReply ret))) code, next⟩
  | @remove pick tag picked =>
      have found := ShardLayout.target_table.mpr ⟨⟨pick, picked⟩, rfl, rfl⟩
      obtain ⟨code, next⟩ := holds.orderedSend (.orderedRemoveModel tag)
      rw [store_remove]
      simp only [Cluster.execute, FunctionTier.removeModel, found]
      exact ⟨congrArg (fun ret => ClientReply.model (.ok (FunctionTier.removeReply ret))) code, next⟩
  | @ask pick stream metadata chunks tag uploads tags picked =>
      let node : L.Node := ⟨L.shardOf tag, ⟨pick, picked⟩⟩
      have found := ShardLayout.target_table.mpr ⟨⟨pick, picked⟩, rfl, rfl⟩
      have contacted : FunctionTier.whatsthis Exn heap L.table pick stream ⟨""⟩ =
          .p2pSend node ⟨tag, ⟨chunks.flatten⟩⟩ _ :=
        FunctionTier.whatsthis_eq_p2pSend.mpr ⟨metadata, chunks, tag, uploads, tags, found, rfl, rfl⟩
      have answered := holds.inference (show node.1 = L.shardOf tag from rfl) classifies
      have unchanged : ((store api).apply m (.ask ⟨tag, ⟨chunks.flatten⟩⟩)).2 = m := by
        simp only [store_apply]
        split <;> rfl
      rw [unchanged]
      simpa only [Cluster.execute, contacted] using answered

def simulation (heap : Allocator) (L : ShardLayout) (api : EngineApi Engine Exn) :
    SequentialObject.Simulation (Cluster.service heap L api) (store api) (Means L)
      (Classifies api) where
  rel := Holds
  init := holds_empty
  answer _ _ _ _ holds means classifies := (holds.execute means classifies).1
  step _ _ _ _ holds means classifies := (holds.execute means classifies).2

theorem service_refines_flat_map (heap : Allocator) (L : ShardLayout) (api : EngineApi Engine Exn)
    (requests : List ClientRequest) (flat : List FlatRequest)
    (meaning : List.Forall₂ (Means L) requests flat)
    (classified : (store api).Permits (Classifies api) flat) :
    (Cluster.service heap L api).answers requests = (store api).answers flat :=
  (simulation heap L api).answers_eq meaning classified

def tripRequests : List ClientRequest :=
  let ask (pick : Nat) : ClientRequest := .whatsthis pick [.metadata ⟨1, [7]⟩, .fileData [9]]
  [.installModel 0 [.metadata ⟨7, 1, 1, 0⟩, .fileData [114], .fileData [2]], ask 1, ask 0,
    .removeModel 1 7, ask 1]

theorem tripRequests_refine :
    (Cluster.service .zeros ShardLayout.pair sampleApi).answers tripRequests =
      [installed, described "rose", described "rose", removed,
        described "Cannot find model for photo tag."] := by
  have model : Uploads ModelMetadata.dataSize
      [.metadata ⟨7, 1, 1, 0⟩, .fileData [114], .fileData [2]] ⟨7, 1, 1, 0⟩ [[114], [2]] :=
    ⟨rfl, rfl⟩
  have photo : Uploads PhotoMetadata.dataSize [.metadata ⟨1, [7]⟩, .fileData [9]] ⟨1, [7]⟩ [[9]] :=
    ⟨rfl, rfl⟩
  have meaning : List.Forall₂ (Means ShardLayout.pair) tripRequests
      [.install 7 ⟨1, 1, 0, ⟨[114, 2]⟩⟩, .ask ⟨7, ⟨[9]⟩⟩, .ask ⟨7, ⟨[9]⟩⟩, .remove 7,
        .ask ⟨7, ⟨[9]⟩⟩] :=
    .cons (.install model (by decide)) <| .cons (.ask photo rfl (by decide)) <|
    .cons (.ask photo rfl (by decide)) <| .cons (.remove (by decide)) <|
    .cons (.ask photo rfl (by decide)) .nil
  refine (service_refines_flat_map .zeros ShardLayout.pair sampleApi tripRequests _ meaning ?_).trans
    rfl
  have classifies : ∀ m, Classifies sampleApi m (.ask ⟨7, ⟨[9]⟩⟩) :=
    fun m model engine _ _ => ⟨_, rfl⟩
  exact ⟨trivial, classifies _, classifies _, trivial, classifies _, trivial⟩

end Flat
end SospDemo
