import SospDemo.Upload.Accepted
import SospDemo.Upload.Client

namespace SospDemo

theorem readable_of_installModel_opened {tag : UInt32} {synsetFile symbolFile paramsFile : File}
    {writes : Nat → Bool}
    (opened : (clientInstallModel tag synsetFile symbolFile paramsFile writes).2 ≠ .notOpened) :
    synsetFile.Readable ∧ symbolFile.Readable ∧ paramsFile.Readable := by
  simp only [← validateReadableFile_nonneg]
  unfold clientInstallModel at opened
  dsimp only at opened
  split at opened
  · exact absurd rfl opened
  split at opened
  · exact absurd rfl opened
  split at opened
  · exact absurd rfl opened
  exact ⟨Int.not_lt.mp ‹_›, Int.not_lt.mp ‹_›, Int.not_lt.mp ‹_›⟩

theorem readable_of_inference_opened {tags : Bytes} {photoFile : File} {writes : Nat → Bool}
    (opened : (clientInference tags photoFile writes).2 ≠ .notOpened) : photoFile.Readable := by
  rw [← validateReadableFile_nonneg]
  unfold clientInference at opened
  dsimp only at opened
  split at opened
  · exact absurd rfl opened
  exact Int.not_lt.mp ‹_›

theorem slices_of_append {m : ModelMetadata} {synset symbol params : Bytes}
    (synsetSize : m.synsetSize.toNat = synset.length)
    (symbolSize : m.symbolSize.toNat = symbol.length)
    (paramsSize : m.paramsSize.toNat = params.length) :
    (m.model (synset ++ (symbol ++ params))).synsetString = synset ∧
      (m.model (synset ++ (symbol ++ params))).getSymbolJson = symbol ∧
      (m.model (synset ++ (symbol ++ params))).parametersBuffer = params := by
  simp only [Model.synsetString, Model.getSymbolJson, Model.parametersBuffer, ModelMetadata.model,
    synsetSize, symbolSize, paramsSize, ← Nat.cast_add, Int.toNat_natCast]
  refine ⟨List.take_left, ?_, ?_⟩
  · rw [List.drop_left, List.take_left]
  · rw [← List.append_assoc, ← List.length_append, List.drop_left, List.take_length]

theorem sizeOf_file (file : File) (small : file.content.length < 2 ^ 32) :
    (UInt32.ofInt file.content.length).toNat = file.content.length := by
  rw [toNat_ofInt_natCast, Nat.mod_eq_of_lt small]

theorem mem_chunks_bounds {file : File} {chunk : Bytes} (mem : chunk ∈ file.chunks) :
    1 ≤ chunk.length ∧ chunk.length ≤ 32768 :=
  ⟨List.length_pos_iff.mpr (Chunks.chunksOf_ne_nil _ mem),
    Chunks.length_le_of_mem_chunksOf chunkSize_pos mem⟩

section InstallModel
variable {tag : UInt32} {synsetFile symbolFile paramsFile : File} {writes : Nat → Bool}

theorem clientInstallModel_sends_all (synset : synsetFile.Uploads) (symbol : symbolFile.Uploads)
    (params : paramsFile.Uploads) (accepts : ∀ i, writes i) :
    (clientInstallModel tag synsetFile symbolFile paramsFile writes).2 = .writesDone := by
  rw [clientInstallModel_readable synset.toReadable symbol.toReadable params.toReadable]
  refine sendUpload_succeeds _ (fun file mem => ?_) accepts
  simp only [List.mem_cons, List.not_mem_nil, or_false] at mem
  rcases mem with rfl | rfl | rfl
  · exact synset
  · exact symbol
  · exact params

theorem clientInstallModel_complete
    (done : (clientInstallModel tag synsetFile symbolFile paramsFile writes).2 = .writesDone) :
    (clientInstallModel tag synsetFile symbolFile paramsFile writes).1 =
      completeUpload (modelMetadata tag synsetFile symbolFile paramsFile)
        [synsetFile, symbolFile, paramsFile] := by
  obtain ⟨synset, symbol, params⟩ :=
    readable_of_installModel_opened (by rw [done]; exact nofun)
  rw [clientInstallModel_readable synset symbol params] at done ⊢
  exact (sendUpload_written _ _ _).2.1 done

theorem modelMetadata_uploads (tag : UInt32) (small : synsetFile.content.length + symbolFile.content.length +
      paramsFile.content.length < 2 ^ 32) :
    Uploads ModelMetadata.dataSize
      (completeUpload (modelMetadata tag synsetFile symbolFile paramsFile)
        [synsetFile, symbolFile, paramsFile])
      (modelMetadata tag synsetFile symbolFile paramsFile)
      ([synsetFile, symbolFile, paramsFile].flatMap File.chunks) := by
  apply completeUpload_uploads
  rw [modelMetadata_dataSize]
  apply Nat.mod_eq_of_lt
  simpa [add_assoc] using small

theorem stored_model (tag : UInt32) (small : synsetFile.content.length + symbolFile.content.length +
      paramsFile.content.length < 2 ^ 32) :
    let data := ([synsetFile, symbolFile, paramsFile].flatMap File.chunks).flatten
    let model := (modelMetadata tag synsetFile symbolFile paramsFile).model data
    model.synsetSize = synsetFile.content.length ∧ model.symbolSize = symbolFile.content.length ∧
      model.paramsSize = paramsFile.content.length ∧ model.synsetString = synsetFile.content ∧
      model.getSymbolJson = symbolFile.content ∧ model.parametersBuffer = paramsFile.content := by
  have synset := sizeOf_file synsetFile (by omega)
  have symbol := sizeOf_file symbolFile (by omega)
  have params := sizeOf_file paramsFile (by omega)
  have data : ([synsetFile, symbolFile, paramsFile].flatMap File.chunks).flatten =
      synsetFile.content ++ (symbolFile.content ++ paramsFile.content) := by
    rw [flatten_chunks]
    simp
  dsimp only
  rw [data]
  exact ⟨congrArg Nat.cast synset, congrArg Nat.cast symbol, congrArg Nat.cast params,
    slices_of_append synset symbol params⟩

theorem oversized_install
    (done : (clientInstallModel tag synsetFile symbolFile paramsFile writes).2 = .writesDone)
    (large : 2 ^ 32 ≤ synsetFile.content.length + symbolFile.content.length +
      paramsFile.content.length) :
    ¬ InGrammar ModelMetadata.dataSize
      (clientInstallModel tag synsetFile symbolFile paramsFile writes).1 := by
  rw [clientInstallModel_complete done, completeUpload_inGrammar_iff, modelMetadata_dataSize]
  simp only [List.flatMap_cons, List.flatMap_nil, List.length_append, List.length_nil]
  omega

end InstallModel

section Inference
variable {tags : Bytes} {photoFile : File} {writes : Nat → Bool}

theorem clientInference_sends_all (photo : photoFile.Uploads) (accepts : ∀ i, writes i) :
    (clientInference tags photoFile writes).2 = .writesDone := by
  rw [clientInference_readable photo.toReadable]
  refine sendUpload_succeeds _ (fun file mem => ?_) accepts
  rwa [List.mem_singleton.mp mem]

theorem clientInference_complete
    (done : (clientInference tags photoFile writes).2 = .writesDone) :
    (clientInference tags photoFile writes).1 =
      completeUpload (photoMetadata (addTags tags) photoFile) [photoFile] := by
  have photo := readable_of_inference_opened (by rw [done]; exact nofun)
  rw [clientInference_readable photo] at done ⊢
  exact (sendUpload_written _ _ _).2.1 done

theorem photoMetadata_uploads (tagList : List UInt32) (small : photoFile.content.length < 2 ^ 32) :
    Uploads PhotoMetadata.dataSize (completeUpload (photoMetadata tagList photoFile) [photoFile])
      (photoMetadata tagList photoFile) ([photoFile].flatMap File.chunks) := by
  apply completeUpload_uploads
  rw [photoMetadata_dataSize]
  apply Nat.mod_eq_of_lt
  simpa using small

theorem oversized_photo
    (done : (clientInference tags photoFile writes).2 = .writesDone)
    (large : 2 ^ 32 ≤ photoFile.content.length) :
    ¬ InGrammar PhotoMetadata.dataSize (clientInference tags photoFile writes).1 := by
  rw [clientInference_complete done, completeUpload_inGrammar_iff, photoMetadata_dataSize]
  simp only [List.flatMap_cons, List.flatMap_nil, List.length_append, List.length_nil]
  omega

end Inference

theorem upload_round_trip (heap : Allocator) :
    -- three non-empty files on which no call fails are sent to the end, and so is a photo
    (∀ (tag : UInt32) (synsetFile symbolFile paramsFile : File) (writes : Nat → Bool),
      synsetFile.Uploads → symbolFile.Uploads → paramsFile.Uploads → (∀ i, writes i) →
        (clientInstallModel tag synsetFile symbolFile paramsFile writes).2 = .writesDone) ∧
    (∀ (tags : Bytes) (photoFile : File) (writes : Nat → Bool),
      photoFile.Uploads → (∀ i, writes i) →
        (clientInference tags photoFile writes).2 = .writesDone) ∧
    -- a model of less than 2 ^ 32 bytes
    (∀ (tag : UInt32) (synsetFile symbolFile paramsFile : File) (writes : Nat → Bool),
      (clientInstallModel tag synsetFile symbolFile paramsFile writes).2 = .writesDone →
      synsetFile.content.length + symbolFile.content.length + paramsFile.content.length < 2 ^ 32 →
      let sent := (clientInstallModel tag synsetFile symbolFile paramsFile writes).1
      (∃ (m : ModelMetadata) (synset symbol params : List Bytes),
        sent = .metadata m :: (synset ++ symbol ++ params).map .fileData ∧ m.tag = tag ∧
        synset.flatten = synsetFile.content ∧ symbol.flatten = symbolFile.content ∧
        params.flatten = paramsFile.content ∧
        ∀ chunk ∈ synset ++ symbol ++ params, 1 ≤ chunk.length ∧ chunk.length ≤ 32768) ∧
      (∃ args, parseGrpcInstallArgs heap sent = .ok args) ∧
      ∀ (Node Exn : Type) (shards : List (List Node)) (pick : Nat) (reply : ModelReply)
        (node : Node), FunctionTier.target shards tag pick = some node →
        ∃ call, FunctionTier.installModel Exn heap shards pick sent reply =
            .p2pSend node call FunctionTier.finishInstallModel ∧
          ∀ (Engine Thrown : Type) (api : EngineApi Engine Thrown) (tier : CategorizerTier api),
            tier.rawModels.find tag = none →
            (tier.perform call).1 = 0 ∧
            ∃ model, (tier.perform call).2.rawModels.find tag = some model ∧
              model.synsetSize = synsetFile.content.length ∧
              model.symbolSize = symbolFile.content.length ∧
              model.paramsSize = paramsFile.content.length ∧
              model.synsetString = synsetFile.content ∧
              model.getSymbolJson = symbolFile.content ∧
              model.parametersBuffer = paramsFile.content) ∧
    -- a photo of less than 2 ^ 32 bytes
    (∀ (tags : Bytes) (photoFile : File) (writes : Nat → Bool),
      (clientInference tags photoFile writes).2 = .writesDone →
      photoFile.content.length < 2 ^ 32 →
      let sent := (clientInference tags photoFile writes).1
      ∃ (m : PhotoMetadata) (photo : List Bytes),
        sent = .metadata m :: photo.map .fileData ∧ m.tags = addTags tags ∧
        photo.flatten = photoFile.content ∧
        (∀ chunk ∈ photo, 1 ≤ chunk.length ∧ chunk.length ≤ 32768) ∧
        parseGrpcWhatsthisArgs heap sent = .ok ⟨m.tags, m.photoSize, photo.flatten⟩) ∧
    -- from 2 ^ 32 bytes on
    (∀ (tag : UInt32) (synsetFile symbolFile paramsFile : File) (writes : Nat → Bool),
      (clientInstallModel tag synsetFile symbolFile paramsFile writes).2 = .writesDone →
      2 ^ 32 ≤ synsetFile.content.length + symbolFile.content.length + paramsFile.content.length →
      let sent := (clientInstallModel tag synsetFile symbolFile paramsFile writes).1
      parseGrpcInstallArgs heap sent = .error .requestCancel ∧
      ∀ (Node Exn : Type) (shards : List (List Node)) (pick : Nat) (reply : ModelReply),
        FunctionTier.installModel Exn heap shards pick sent reply =
          .finished (.ok (.cancelled, reply))) ∧
    (∀ (tags : Bytes) (photoFile : File) (writes : Nat → Bool),
      (clientInference tags photoFile writes).2 = .writesDone →
      2 ^ 32 ≤ photoFile.content.length →
      let sent := (clientInference tags photoFile writes).1
      parseGrpcWhatsthisArgs heap sent = .error .requestCancel ∧
      ∀ (Node Exn : Type) (shards : List (List Node)) (pick : Nat) (reply : PhotoReply),
        FunctionTier.whatsthis Exn heap shards pick sent reply =
          .finished (.ok (.cancelled, reply))) := by
  refine ⟨fun _ _ _ _ _ synset symbol params accepts =>
      clientInstallModel_sends_all synset symbol params accepts,
    fun _ _ _ photo accepts => clientInference_sends_all photo accepts,
    fun tag synsetFile symbolFile paramsFile writes done small => ?_,
    fun tags photoFile writes done small => ?_,
    fun _ _ _ _ _ done large => ⟨parseGrpcInstallArgs_cancels.mpr (oversized_install done large),
      fun _ _ _ _ _ => FunctionTier.installModel_cancelled (oversized_install done large)⟩,
    fun _ _ _ done large => ⟨parseGrpcWhatsthisArgs_cancels.mpr (oversized_photo done large),
      fun _ _ _ _ _ => FunctionTier.whatsthis_cancelled (oversized_photo done large)⟩⟩
  · have uploads := modelMetadata_uploads tag small
    dsimp only
    rw [clientInstallModel_complete done]
    refine ⟨⟨modelMetadata tag synsetFile symbolFile paramsFile, synsetFile.chunks,
        symbolFile.chunks, paramsFile.chunks, by simp [completeUpload], rfl,
        Chunks.flatten_chunksOf _ _, Chunks.flatten_chunksOf _ _, Chunks.flatten_chunksOf _ _,
        fun chunk mem => ?_⟩,
      ⟨_, parseGrpcInstallArgs_eq_ok.mpr ⟨_, _, uploads, rfl⟩⟩,
      fun Node Exn shards pick reply node found => ⟨_, FunctionTier.installModel_eq_p2pSend.mpr
        ⟨_, _, uploads, found, rfl, rfl⟩, fun Engine Thrown api tier free => ?_⟩⟩
    · simp only [List.mem_append] at mem
      rcases mem with (mem | mem) | mem <;> exact mem_chunks_bounds mem
    · have entry : tier.rawModels.find
          ((modelMetadata tag synsetFile symbolFile paramsFile).installCall
            ([synsetFile, symbolFile, paramsFile].flatMap File.chunks).flatten).tag = none := free
      refine ⟨?_, _, ?_, stored_model tag small⟩
      · rw [CategorizerTier.perform_code, entry, ModelMetadata.act_installCall]
      · rw [CategorizerTier.perform_rawModels, entry, ModelMetadata.act_installCall]
        exact StdMap.find_put_self ..
  · have uploads := photoMetadata_uploads (addTags tags) small
    dsimp only
    rw [clientInference_complete done]
    exact ⟨photoMetadata (addTags tags) photoFile, photoFile.chunks, by simp [completeUpload], rfl,
      Chunks.flatten_chunksOf _ _, fun chunk mem => mem_chunks_bounds mem,
      parseGrpcWhatsthisArgs_eq_ok.mpr ⟨_, _, uploads, by simp [PhotoMetadata.parsed]⟩⟩

theorem uploads_plain {content : Bytes} (nonempty : content ≠ []) : (File.plain content).Uploads where
  stats := rfl
  accessible := rfl
  regular := rfl
  opens := rfl
  maps := rfl
  nonempty := nonempty
  unmaps := rfl
  closes := rfl

theorem smallUpload_accepted :
    let sent := (clientInstallModel 7 (.plain [97]) (.plain [98, 99]) (.plain [100]) fun _ => true).1
    ∃ args, parseGrpcInstallArgs .zeros sent = .ok args := by
  obtain ⟨sends, -, stores, -⟩ := upload_round_trip .zeros
  have done := sends 7 _ _ _ (fun _ => true) (uploads_plain (List.cons_ne_nil 97 []))
    (uploads_plain (List.cons_ne_nil 98 [99])) (uploads_plain (List.cons_ne_nil 100 []))
    fun _ => rfl
  exact (stores 7 _ _ _ _ done (by decide)).2.1

end SospDemo
