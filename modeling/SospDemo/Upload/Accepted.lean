import SospDemo.Upload.Grammar

namespace SospDemo

def ModelMetadata.model (m : ModelMetadata) (data : Bytes) : Model :=
  ⟨m.synsetSize.toNat, m.symbolSize.toNat, m.paramsSize.toNat, ⟨data⟩⟩

def ModelMetadata.installCall (m : ModelMetadata) (data : Bytes) : OrderedOp :=
  .orderedInstallModel m.tag m.synsetSize.toNat m.symbolSize.toNat m.paramsSize.toNat ⟨data⟩

@[simp] theorem ModelMetadata.tag_installCall (m : ModelMetadata) (data : Bytes) :
    (m.installCall data).tag = m.tag := rfl

@[simp] theorem ModelMetadata.act_installCall (m : ModelMetadata) (data : Bytes) :
    (m.installCall data).act none = (0, some (m.model data)) := rfl

theorem ModelMetadata.installModel_parsed {m : ModelMetadata} {data : Bytes}
    (size : data.length = m.dataSize) :
    CategorizerTier.installModel (m.parsed data).tag (m.parsed data).synsetSize
        (m.parsed data).symbolSize (m.parsed data).paramsSize
        (.ofBuffer (m.parsed data).modelData (m.parsed data).dataSize.toNat) =
      m.installCall data := by
  have whole : (m.parsed data).modelData.take (m.parsed data).dataSize.toNat = data :=
    List.take_of_length_le size.le
  rw [BlobWrapper.ofBuffer, whole]
  rfl

theorem PhotoMetadata.ofBuffer_parsed {m : PhotoMetadata} {data : Bytes}
    (size : data.length = m.dataSize) :
    BlobWrapper.ofBuffer (m.parsed data).photoData (m.parsed data).photoSize.toNat = ⟨data⟩ :=
  congrArg BlobWrapper.mk (List.take_of_length_le size.le)

def ModelMetadata.SizesFit (m : ModelMetadata) : Prop :=
  m.synsetSize.toNat + m.symbolSize.toNat + m.paramsSize.toNat < 2 ^ 32

instance (m : ModelMetadata) : Decidable m.SizesFit := inferInstanceAs (Decidable (_ < _))

theorem ModelMetadata.laidOut_iff {m : ModelMetadata} {stream : List InstallModelRequest}
    {chunks : List Bytes} (uploads : Uploads ModelMetadata.dataSize stream m chunks) :
    (m.model chunks.flatten).LaidOut ↔ m.SizesFit := by
  have size := uploads.length_flatten
  rw [m.dataSize_eq] at size
  constructor
  · rintro ⟨-, -, -, sum⟩
    simp only [ModelMetadata.model, Blob.size] at sum
    unfold SizesFit
    omega
  · intro fit
    unfold SizesFit at fit
    refine ⟨Int.natCast_nonneg _, Int.natCast_nonneg _, Int.natCast_nonneg _, ?_⟩
    simp only [ModelMetadata.model, Blob.size]
    omega

namespace FunctionTier
variable {Node : Type} {heap : Allocator} {shards : List (List Node)} {pick : Nat}

theorem installModel_eq_p2pSend {Exn : Type} {stream : List InstallModelRequest}
    {reply : ModelReply} {node : Node} {call : OrderedOp}
    {resume : Except Exn Int → Except (HandlerException Exn) (Status × ModelReply)} :
    installModel Exn heap shards pick stream reply = .p2pSend node call resume ↔
      ∃ m chunks, Uploads ModelMetadata.dataSize stream m chunks ∧
        target shards m.tag pick = some node ∧ call = m.installCall chunks.flatten ∧
        resume = finishInstallModel := by
  constructor
  · intro contacted
    unfold installModel at contacted
    split at contacted
    · cases contacted
    rename_i args parsed
    obtain ⟨m, chunks, uploads, rfl⟩ := parseGrpcInstallArgs_eq_ok.mp parsed
    split at contacted <;> cases contacted
    exact ⟨m, chunks, uploads, ‹_›, m.installModel_parsed uploads.length_flatten, rfl⟩
  · rintro ⟨m, chunks, uploads, found, rfl, rfl⟩
    have parsed : parseGrpcInstallArgs heap stream = .ok (m.parsed chunks.flatten) :=
      parseGrpcInstallArgs_eq_ok.mpr ⟨m, chunks, uploads, rfl⟩
    have found' : target shards (m.parsed chunks.flatten).tag pick = some node := found
    simp only [installModel, parsed, found', m.installModel_parsed uploads.length_flatten]

theorem whatsthis_eq_p2pSend {Exn : Type} {stream : List PhotoRequest} {reply : PhotoReply}
    {node : Node} {photo : Photo}
    {resume : Outcome Exn → Except (HandlerException Exn) (Status × PhotoReply)} :
    whatsthis Exn heap shards pick stream reply = .p2pSend node photo resume ↔
      ∃ m chunks tag, Uploads PhotoMetadata.dataSize stream m chunks ∧ m.tags = [tag] ∧
        target shards tag pick = some node ∧ photo = ⟨tag, ⟨chunks.flatten⟩⟩ ∧
        resume = fun response => finishWhatsthis [response] := by
  constructor
  · intro contacted
    unfold whatsthis at contacted
    split at contacted
    · cases contacted
    rename_i args parsed
    obtain ⟨m, chunks, uploads, rfl⟩ := parseGrpcWhatsthisArgs_eq_ok.mp parsed
    split at contacted
    · cases contacted
    rename_i single
    split at contacted
    · cases contacted
    rename_i tag first
    split at contacted <;> cases contacted
    refine ⟨m, chunks, tag, uploads, ?_, ‹_›, ?_, rfl⟩
    · obtain ⟨size, tags⟩ := m
      rcases tags with _ | ⟨only, _ | ⟨second, rest⟩⟩
      · cases first
      · rw [Option.some.inj first]
      · exact absurd (Nat.succ_lt_succ (Nat.succ_pos _)) single
    · exact congrArg (Photo.mk tag) (m.ofBuffer_parsed uploads.length_flatten)
  · rintro ⟨m, chunks, tag, uploads, tags, found, rfl, rfl⟩
    have parsed : parseGrpcWhatsthisArgs heap stream = .ok (m.parsed chunks.flatten) :=
      parseGrpcWhatsthisArgs_eq_ok.mpr ⟨m, chunks, uploads, rfl⟩
    have parsedTags : (m.parsed chunks.flatten).tags = [tag] := tags
    simp only [whatsthis, parsed, parsedTags, List.length_singleton, gt_iff_lt, Nat.lt_irrefl,
      if_false, List.getElem?_cons_zero, found, m.ofBuffer_parsed uploads.length_flatten]

end FunctionTier
end SospDemo
