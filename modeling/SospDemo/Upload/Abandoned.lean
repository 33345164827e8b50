import SospDemo.Upload.Client

/-!
# Abandoned uploads

A client gives up by returning; the server sees only the end of the stream, and judges by the
number of bytes. An abandoned upload is accepted when every byte had been written and delivered
by the time the client gave up: what was left were empty files, or `munmap` and `close`.
-/

namespace SospDemo

def DeliversEveryByte (files : List File) (writes : Nat → Bool) (delivered : Nat) : Prop :=
  ReachesEveryByte files ∧ (∀ i < messageCount files, writes i) ∧ messageCount files ≤ delivered

theorem take_inGrammar_iff {Metadata : Type} {claimed : Metadata → Nat} {metadata : Metadata}
    {files : List File} {writes : Nat → Bool} {delivered : Nat}
    (claims : claimed metadata = (files.flatMap File.content).length) :
    InGrammar claimed ((sendUpload metadata files writes).1.take delivered) ↔
      DeliversEveryByte files writes delivered := by
  obtain ⟨isPrefix, -, complete⟩ := sendUpload_written metadata files writes
  rw [length_completeUpload] at complete
  rw [inGrammar_iff_complete claims ((List.take_prefix _ _).trans isPrefix)]
  constructor
  · intro received
    have whole : (sendUpload metadata files writes).1 = completeUpload metadata files :=
      isPrefix.eq_of_length_le (received ▸ List.length_take_le' _ _)
    obtain ⟨reached, accepted⟩ := complete.mp whole
    refine ⟨reached, accepted, ?_⟩
    rw [← length_completeUpload metadata, ← received]
    exact List.length_take_le _ _
  · rintro ⟨reached, accepted, all⟩
    rw [complete.mpr ⟨reached, accepted⟩, List.take_of_length_le]
    rwa [length_completeUpload]

theorem abandoned_uploads_cancelled_iff (heap : Allocator) :
    (∀ (tag : UInt32) (synsetFile symbolFile paramsFile : File) (writes : Nat → Bool)
        (delivered : Nat),
      synsetFile.Readable → symbolFile.Readable → paramsFile.Readable →
      synsetFile.content.length + symbolFile.content.length + paramsFile.content.length < 2 ^ 32 →
      (clientInstallModel tag synsetFile symbolFile paramsFile writes).2 = .abandoned →
      let received :=
        (clientInstallModel tag synsetFile symbolFile paramsFile writes).1.take delivered
      (parseGrpcInstallArgs heap received = .error .requestCancel ∧
        ∀ (Node Exn : Type) (shards : List (List Node)) (pick : Nat) (reply : ModelReply),
          FunctionTier.installModel Exn heap shards pick received reply =
            .finished (.ok (.cancelled, reply))) ↔
        ¬ DeliversEveryByte [synsetFile, symbolFile, paramsFile] writes delivered) ∧
    (∀ (tags : Bytes) (photoFile : File) (writes : Nat → Bool) (delivered : Nat),
      photoFile.Readable → photoFile.content.length < 2 ^ 32 →
      (clientInference tags photoFile writes).2 = .abandoned →
      let received := (clientInference tags photoFile writes).1.take delivered
      (parseGrpcWhatsthisArgs heap received = .error .requestCancel ∧
        ∀ (Node Exn : Type) (shards : List (List Node)) (pick : Nat) (reply : PhotoReply),
          FunctionTier.whatsthis Exn heap shards pick received reply =
            .finished (.ok (.cancelled, reply))) ↔
        ¬ DeliversEveryByte [photoFile] writes delivered) := by
  constructor
  · intro tag synsetFile symbolFile paramsFile writes delivered synset symbol params small _
    have claims : (modelMetadata tag synsetFile symbolFile paramsFile).dataSize =
        ([synsetFile, symbolFile, paramsFile].flatMap File.content).length := by
      rw [modelMetadata_dataSize]
      apply Nat.mod_eq_of_lt
      simpa [add_assoc] using small
    dsimp only
    rw [clientInstallModel_readable synset symbol params, ← take_inGrammar_iff claims,
      parseGrpcInstallArgs_cancels]
    exact ⟨And.left, fun outside =>
      ⟨outside, fun Node Exn shards pick reply => FunctionTier.installModel_cancelled outside⟩⟩
  · intro tags photoFile writes delivered photo small _
    have claims : (photoMetadata (addTags tags) photoFile).dataSize =
        ([photoFile].flatMap File.content).length := by
      rw [photoMetadata_dataSize]
      apply Nat.mod_eq_of_lt
      simpa using small
    dsimp only
    rw [clientInference_readable photo, ← take_inGrammar_iff claims,
      parseGrpcWhatsthisArgs_cancels]
    exact ⟨And.left, fun outside =>
      ⟨outside, fun Node Exn shards pick reply => FunctionTier.whatsthis_cancelled outside⟩⟩

theorem emptyParams_abandoned :
    clientInstallModel 7 (.plain [97]) (.plain [98]) (.plain []) (fun _ => true) =
      ([.metadata ⟨7, 1, 1, 0⟩, .fileData [97], .fileData [98]], .abandoned) := by
  rw [clientInstallModel]
  simp [validateReadableFile, File.plain, fileUploader, uploadLoop, ClientWriter.start,
    ClientWriter.write, nextSize, chunkSize]
  decide

theorem emptyParams_installed :
    let (written, ended) :=
      clientInstallModel 7 (.plain [97]) (.plain [98]) (.plain []) (fun _ => true)
    ended = .abandoned ∧
      parseGrpcInstallArgs .zeros written = .ok ⟨7, 1, 1, 0, 2, [97, 98]⟩ ∧
      FunctionTier.installModel Unit .zeros [["replica"]] 0 written ⟨0, ""⟩ =
        .p2pSend "replica" (.orderedInstallModel 7 1 1 0 ⟨[97, 98]⟩)
          FunctionTier.finishInstallModel := by
  rw [emptyParams_abandoned]
  exact ⟨rfl, rfl, rfl⟩

theorem refusedWrite_cancelled :
    let written := (clientInstallModel 7 (.plain [97]) (.plain [98]) (.plain []) (· < 2)).1
    parseGrpcInstallArgs .zeros (written.take 5) = .error .requestCancel := by
  refine ((abandoned_uploads_cancelled_iff .zeros).1 7 (.plain [97]) (.plain [98]) (.plain [])
    (· < 2) 5 ⟨rfl, rfl, rfl⟩ ⟨rfl, rfl, rfl⟩ ⟨rfl, rfl, rfl⟩ (by decide) ?_).mpr ?_ |>.1
  · rw [clientInstallModel]
    simp [validateReadableFile, File.plain, fileUploader, uploadLoop, ClientWriter.start,
      ClientWriter.write, nextSize, chunkSize]
  · rintro ⟨-, accepted, -⟩
    exact absurd (accepted 2 (by decide)) (by decide)

end SospDemo
