import SospDemo.Upload.FileUploader
import SospDemo.Upload.Grammar

namespace SospDemo
open Chunks ClientWriter
variable {Metadata : Type}

def completeUpload (metadata : Metadata) (files : List File) : List (Request Metadata) :=
  .metadata metadata :: (files.flatMap File.chunks).map .fileData

def messageCount (files : List File) : Nat :=
  1 + (files.map fun file => (file.content.length + (chunkSize - 1)) / chunkSize).sum

theorem length_completeUpload (metadata : Metadata) (files : List File) :
    (completeUpload metadata files).length = messageCount files := by
  simp only [completeUpload, messageCount, List.length_cons, List.length_map, List.length_flatMap,
    File.chunks, length_chunksOf chunkSize_pos, Nat.add_comm]

theorem chunks_eq_nil {file : File} (empty : file.content = []) : file.chunks = [] := by
  rw [File.chunks, empty, chunksOf_nil]

def sendFiles : List File → ClientWriter Metadata → List (Request Metadata) × ClientEnd
  | [], writer => (writer.written, .writesDone)
  | file :: files, writer =>
      let (sent, writer) := fileUploader file file.content.length writer
      if sent ≠ file.content.length then (writer.written, .abandoned) else sendFiles files writer

def sendUpload (metadata : Metadata) (files : List File) (writes : Nat → Bool) :
    List (Request Metadata) × ClientEnd :=
  match (ClientWriter.start writes).write (.metadata metadata) with
  | (false, writer) => (writer.written, .abandoned)
  | (true, writer) => sendFiles files writer

def ReachesEveryByte : List File → Prop
  | [] => True
  | file :: files =>
      (∀ f ∈ file :: files, f.content = []) ∨
        file.Mapped ∧ ((∀ f ∈ files, f.content = []) ∨
          file.unmaps ∧ file.closes ∧ ReachesEveryByte files)

theorem reachesEveryByte_of_empty {files : List File} (empty : ∀ f ∈ files, f.content = []) :
    ReachesEveryByte files := by
  cases files with
  | nil => trivial
  | cons file files => exact .inl empty

theorem reachesEveryByte_mapped {file : File} {files : List File} (mapped : file.Mapped) :
    ReachesEveryByte (file :: files) ↔ (∀ f ∈ files, f.content = []) ∨
      file.unmaps ∧ file.closes ∧ ReachesEveryByte files := by
  have some_left : ¬ ∀ f ∈ file :: files, f.content = [] :=
    fun empty => mapped.nonempty (empty file (List.mem_cons_self ..))
  simp only [ReachesEveryByte, some_left, mapped, true_and, false_or]

theorem flatMap_chunks_eq_nil {files : List File} :
    files.flatMap File.chunks = [] ↔ ∀ f ∈ files, f.content = [] := by
  rw [List.flatMap_eq_nil_iff]
  refine forall₂_congr fun file _ => ⟨fun none => ?_, chunks_eq_nil⟩
  rw [← flatten_chunksOf chunkSize file.content, ← File.chunks, none, List.flatten_nil]

structure Sends (files : List File) (writer : ClientWriter Metadata) (sent : List Bytes) : Prop where
  isPrefix : sent <+: files.flatMap File.chunks
  written : (sendFiles files writer).1 = writer.written ++ sent.map .fileData
  done : (sendFiles files writer).2 = .writesDone → sent = files.flatMap File.chunks
  complete : sent = files.flatMap File.chunks ↔
    ReachesEveryByte files ∧ writer.Accepts (files.flatMap File.chunks).length

section Cons
variable {file : File} {files : List File} {writer : ClientWriter Metadata}

theorem sends_unmapped (unmapped : ¬ file.Mapped) : Sends (file :: files) writer [] := by
  obtain ⟨failed, same⟩ := fileUploader_unmapped writer unmapped
  refine ⟨List.nil_prefix, by simp [sendFiles, failed, same], by simp [sendFiles, failed], ?_⟩
  rw [eq_comm, flatMap_chunks_eq_nil]
  constructor
  · intro empty
    refine ⟨.inl empty, ?_⟩
    rw [flatMap_chunks_eq_nil.mpr empty]
    exact accepts_zero writer
  · intro reaches
    rcases reaches.1 with empty | reached
    · exact empty
    · exact absurd reached.1 unmapped

theorem sends_refused (mapped : file.Mapped) (refused : ¬ writer.Accepts file.chunks.length) :
    ∃ sent, Sends (file :: files) writer sent := by
  obtain ⟨same, returned⟩ := fileUploader_mapped writer mapped
  obtain ⟨short, sent, isPrefix, different, written⟩ :=
    uploadLoop_of_refused file.content (Nat.zero_le _) refused
  rw [List.drop_zero, ← File.chunks] at isPrefix different
  have partly : (fileUploader file file.content.length writer).1 ≠ file.content.length :=
    fun whole => short (returned.mp whole).1
  refine ⟨sent, isPrefix.trans (List.prefix_append _ _), by simp [sendFiles, partly, same, written],
    by simp [sendFiles, partly], ?_⟩
  rw [List.flatMap_cons, List.length_append, accepts_chunks]
  constructor
  · intro whole
    refine absurd (isPrefix.eq_of_length_le ?_) different
    rw [whole, List.length_append]
    omega
  · intro reaches
    exact absurd reaches.2.1 refused

theorem fileUploader_of_accepts (mapped : file.Mapped) (accepts : writer.Accepts file.chunks.length) :
    (fileUploader file file.content.length writer).2 = writer.after (file.chunks.map .fileData) ∧
      ((fileUploader file file.content.length writer).1 = file.content.length ↔
        file.unmaps ∧ file.closes) := by
  obtain ⟨same, returned⟩ := fileUploader_mapped writer mapped
  have looped := uploadLoop_of_accepts file.content (Nat.zero_le _) accepts
  rw [List.drop_zero, ← File.chunks] at looped
  rw [looped] at same returned
  exact ⟨same, by simpa using returned⟩

theorem sends_unclosed (mapped : file.Mapped) (accepts : writer.Accepts file.chunks.length)
    (unclosed : ¬ (file.unmaps ∧ file.closes)) : Sends (file :: files) writer file.chunks := by
  obtain ⟨same, returned⟩ := fileUploader_of_accepts mapped accepts
  have partly : (fileUploader file file.content.length writer).1 ≠ file.content.length :=
    fun whole => unclosed (returned.mp whole)
  refine ⟨List.prefix_append _ _, by simp [sendFiles, partly, same], by simp [sendFiles, partly], ?_⟩
  rw [List.flatMap_cons, List.self_eq_append_right, flatMap_chunks_eq_nil, List.length_append,
    accepts_chunks, reachesEveryByte_mapped mapped]
  constructor
  · intro empty
    refine ⟨.inl empty, accepts, ?_⟩
    rw [flatMap_chunks_eq_nil.mpr empty]
    exact accepts_zero _
  · intro reaches
    rcases reaches.1 with empty | closed
    · exact empty
    · exact absurd ⟨closed.1, closed.2.1⟩ unclosed

theorem sends_closed (mapped : file.Mapped) (accepts : writer.Accepts file.chunks.length)
    (closed : file.unmaps ∧ file.closes) {sent : List Bytes}
    (rest : Sends files (writer.after (file.chunks.map .fileData)) sent) :
    Sends (file :: files) writer (file.chunks ++ sent) := by
  obtain ⟨same, returned⟩ := fileUploader_of_accepts mapped accepts
  have whole := returned.mpr closed
  have reached : (∀ f ∈ files, f.content = []) ∨
      file.unmaps ∧ file.closes ∧ ReachesEveryByte files ↔ ReachesEveryByte files :=
    ⟨fun reach => reach.elim reachesEveryByte_of_empty fun reach => reach.2.2,
      fun reach => .inr ⟨closed.1, closed.2, reach⟩⟩
  refine ⟨(List.prefix_append_right_inj _).mpr rest.isPrefix,
    by simp [sendFiles, whole, same, rest.written], ?_, ?_⟩
  · intro ended
    rw [rest.done (by simpa [sendFiles, whole, same] using ended)]
    rfl
  · rw [List.flatMap_cons, List.append_cancel_left_eq, rest.complete, List.length_append,
      accepts_chunks, reachesEveryByte_mapped mapped]
    simp only [reached, accepts, true_and]

end Cons

theorem exists_sends (files : List File) (writer : ClientWriter Metadata) :
    ∃ sent, Sends files writer sent := by
  induction files generalizing writer with
  | nil =>
      exact ⟨[], List.nil_prefix, by simp [sendFiles], fun _ => rfl,
        by simp [ReachesEveryByte, accepts_zero]⟩
  | cons file files ih =>
      by_cases mapped : file.Mapped
      · by_cases accepts : writer.Accepts file.chunks.length
        · by_cases closed : file.unmaps ∧ file.closes
          · obtain ⟨sent, rest⟩ := ih (writer.after (file.chunks.map .fileData))
            exact ⟨_, sends_closed mapped accepts closed rest⟩
          · exact ⟨_, sends_unclosed mapped accepts closed⟩
        · exact sends_refused mapped accepts
      · exact ⟨[], sends_unmapped mapped⟩

theorem accepts_start {writes : Nat → Bool} (metadata : Metadata) (files : List File) :
    (ClientWriter.start writes : ClientWriter Metadata).Accepts
        ((files.flatMap File.chunks).length + 1) ↔ ∀ i < messageCount files, writes i := by
  rw [← length_completeUpload metadata]
  simp [Accepts, ClientWriter.start, completeUpload]

theorem sendUpload_written (metadata : Metadata) (files : List File) (writes : Nat → Bool) :
    (sendUpload metadata files writes).1 <+: completeUpload metadata files ∧
      ((sendUpload metadata files writes).2 = .writesDone →
        (sendUpload metadata files writes).1 = completeUpload metadata files) ∧
      ((sendUpload metadata files writes).1 = completeUpload metadata files ↔
        ReachesEveryByte files ∧ ∀ i < (completeUpload metadata files).length, writes i) := by
  rw [length_completeUpload, ← accepts_start metadata, accepts_succ (.metadata metadata)]
  unfold sendUpload completeUpload
  cases first : (ClientWriter.start writes).write (Request.metadata metadata) with
  | mk wrote writer =>
      cases wrote with
      | false =>
          obtain ⟨refused, same⟩ := write_false first
          simp [refused, same]
      | true =>
          obtain ⟨accepted, rfl⟩ := write_true first
          obtain ⟨sent, isPrefix, written, done, complete⟩ :=
            exists_sends files ((ClientWriter.start writes).after [.metadata metadata])
          dsimp only
          rw [written, after_written]
          refine ⟨List.prefix_cons_inj _ |>.mpr (isPrefix.map _), fun ended => ?_, ?_⟩
          · rw [done ended]
            rfl
          · rw [start_written, List.nil_append, List.singleton_append, List.cons_inj_right,
              map_fileData_inj, complete]
            simp only [accepted, true_and]

def Completes (files : List File) (writes : Nat → Bool) : Prop :=
  (∀ file ∈ files, file.Mapped ∧ file.unmaps ∧ file.closes) ∧ ∀ i < messageCount files, writes i

theorem fileUploader_whole_iff {file : File} {writer : ClientWriter Metadata} :
    (fileUploader file file.content.length writer).1 = file.content.length ↔
      (file.Mapped ∧ file.unmaps ∧ file.closes) ∧ writer.Accepts file.chunks.length := by
  by_cases mapped : file.Mapped
  · by_cases accepts : writer.Accepts file.chunks.length
    · simp only [(fileUploader_of_accepts mapped accepts).2, mapped, accepts, true_and, and_true]
    · have short := (uploadLoop_of_refused file.content (Nat.zero_le _) accepts).1
      simp only [(fileUploader_mapped writer mapped).2, short, accepts, false_and, and_false]
  · simp only [(fileUploader_unmapped writer mapped).1, mapped, false_and]

theorem sendFiles_done_iff {files : List File} {writer : ClientWriter Metadata} :
    (sendFiles files writer).2 = .writesDone ↔
      (∀ file ∈ files, file.Mapped ∧ file.unmaps ∧ file.closes) ∧
        writer.Accepts (files.flatMap File.chunks).length := by
  induction files generalizing writer with
  | nil => simp [sendFiles, accepts_zero]
  | cons file files ih =>
      rw [List.forall_mem_cons, List.flatMap_cons, List.length_append, accepts_chunks]
      by_cases whole :
          (fileUploader file file.content.length writer).1 = (file.content.length : Int)
      · obtain ⟨works, accepts⟩ := fileUploader_whole_iff.mp whole
        simp only [sendFiles, whole, (fileUploader_of_accepts works.1 accepts).1, ne_eq,
          not_true_eq_false, if_false, ih, works, accepts, true_and, and_self]
      · have fails := fileUploader_whole_iff.not.mp whole
        simp only [sendFiles, ne_eq, if_pos whole, reduceCtorEq, false_iff]
        exact fun sends => fails ⟨sends.1.1, sends.2.1⟩

theorem sendFiles_ended (files : List File) (writer : ClientWriter Metadata) :
    (sendFiles files writer).2 ≠ .notOpened := by
  induction files generalizing writer with
  | nil => nofun
  | cons file files ih =>
      unfold sendFiles
      dsimp only
      split
      · nofun
      · exact ih _

theorem sendUpload_done_iff {metadata : Metadata} {files : List File} {writes : Nat → Bool} :
    (sendUpload metadata files writes).2 = .writesDone ↔ Completes files writes := by
  rw [Completes, ← accepts_start metadata, accepts_succ (.metadata metadata)]
  unfold sendUpload
  cases first : (ClientWriter.start writes).write (Request.metadata metadata) with
  | mk wrote writer =>
      cases wrote with
      | false => simp [(write_false first).1]
      | true =>
          obtain ⟨accepted, rfl⟩ := write_true first
          simp only [sendFiles_done_iff, accepted, true_and]

theorem sendUpload_abandoned {metadata : Metadata} {files : List File} {writes : Nat → Bool}
    (incomplete : ¬ Completes files writes) : (sendUpload metadata files writes).2 = .abandoned := by
  have opened : (sendUpload metadata files writes).2 ≠ .notOpened := by
    unfold sendUpload
    split
    · intro same
      cases same
    · exact sendFiles_ended _ _
  cases ended : (sendUpload metadata files writes).2 with
  | notOpened => exact absurd ended opened
  | abandoned => rfl
  | writesDone => exact absurd (sendUpload_done_iff.mp ended) incomplete

structure File.Uploads (file : File) : Prop extends file.Readable, file.Mapped where
  unmaps : file.unmaps
  closes : file.closes

theorem sendUpload_succeeds (metadata : Metadata) {files : List File} {writes : Nat → Bool}
    (uploads : ∀ file ∈ files, file.Uploads) (accepts : ∀ i, writes i) :
    (sendUpload metadata files writes).2 = .writesDone :=
  sendUpload_done_iff.mpr
    ⟨fun file mem => ⟨(uploads file mem).toMapped, (uploads file mem).unmaps,
      (uploads file mem).closes⟩, fun i _ => accepts i⟩

theorem validateReadableFile_readable {file : File} (readable : file.Readable) :
    validateReadableFile file = file.content.length := by
  simp [validateReadableFile, readable.stats, readable.accessible, readable.regular]

theorem validateReadableFile_nonneg {file : File} :
    0 ≤ validateReadableFile file ↔ file.Readable := by
  unfold validateReadableFile
  split
  · simp_all only [Bool.or_eq_true, Bool.not_eq_true', Int.reduceNeg, Int.reduceLE, false_iff]
    rintro ⟨stats, accessible, -⟩
    simp_all
  split
  · simp_all only [Bool.or_eq_true, Bool.not_eq_true', Int.reduceNeg, Int.reduceLE, false_iff]
    rintro ⟨-, -, regular⟩
    simp_all
  · simp only [Int.natCast_nonneg, true_iff]
    constructor <;> simp_all

def modelMetadata (tag : UInt32) (synsetFile symbolFile paramsFile : File) : ModelMetadata :=
  ⟨tag, UInt32.ofInt synsetFile.content.length, UInt32.ofInt symbolFile.content.length,
    UInt32.ofInt paramsFile.content.length⟩

def photoMetadata (tags : List UInt32) (photoFile : File) : PhotoMetadata :=
  ⟨UInt32.ofInt photoFile.content.length, tags⟩

theorem toNat_ofInt_natCast (n : Nat) : (UInt32.ofInt n).toNat = n % 2 ^ 32 := by
  rw [UInt32.ofInt]
  simp
  omega

theorem modelMetadata_dataSize (tag : UInt32) (synsetFile symbolFile paramsFile : File) :
    (modelMetadata tag synsetFile symbolFile paramsFile).dataSize =
      ([synsetFile, symbolFile, paramsFile].flatMap File.content).length % 2 ^ 32 := by
  simp only [ModelMetadata.dataSize_eq, modelMetadata, toNat_ofInt_natCast, List.flatMap_cons,
    List.flatMap_nil, List.length_append, List.length_nil]
  omega

theorem photoMetadata_dataSize (tags : List UInt32) (photoFile : File) :
    (photoMetadata tags photoFile).dataSize =
      ([photoFile].flatMap File.content).length % 2 ^ 32 := by
  simp [PhotoMetadata.dataSize, photoMetadata, toNat_ofInt_natCast]

theorem clientInstallModel_readable {tag : UInt32} {synsetFile symbolFile paramsFile : File}
    {writes : Nat → Bool} (synset : synsetFile.Readable) (symbol : symbolFile.Readable)
    (params : paramsFile.Readable) :
    clientInstallModel tag synsetFile symbolFile paramsFile writes =
      sendUpload (modelMetadata tag synsetFile symbolFile paramsFile)
        [synsetFile, symbolFile, paramsFile] writes := by
  simp only [clientInstallModel, validateReadableFile_readable, synset, symbol, params,
    Int.not_lt.mpr (Int.natCast_nonneg _), if_false, Int.toNat_natCast, sendUpload, sendFiles,
    modelMetadata]
  rcases ClientWriter.write _ _ with ⟨_ | _, writer⟩ <;> rfl

theorem clientInference_readable {tags : Bytes} {photoFile : File} {writes : Nat → Bool}
    (photo : photoFile.Readable) :
    clientInference tags photoFile writes =
      sendUpload (photoMetadata (addTags tags) photoFile) [photoFile] writes := by
  simp only [clientInference, validateReadableFile_readable, photo,
    Int.not_lt.mpr (Int.natCast_nonneg _), if_false, Int.toNat_natCast, sendUpload, sendFiles,
    photoMetadata]
  rcases ClientWriter.write _ _ with ⟨_ | _, writer⟩ <;> rfl

@[simp] theorem flatten_chunks (files : List File) :
    (files.flatMap File.chunks).flatten = files.flatMap File.content := by
  induction files with
  | nil => rfl
  | cons file files ih => simp [File.chunks, ih]

theorem completeUpload_uploads {claimed : Metadata → Nat} {metadata : Metadata} {files : List File}
    (claims : claimed metadata = (files.flatMap File.content).length) :
    Uploads claimed (completeUpload metadata files) metadata (files.flatMap File.chunks) :=
  ⟨rfl, by rw [claims, ← flatten_chunks, List.length_flatten]⟩

theorem completeUpload_inGrammar_iff {claimed : Metadata → Nat} {metadata : Metadata}
    {files : List File} : InGrammar claimed (completeUpload metadata files) ↔
      claimed metadata = (files.flatMap File.content).length := by
  constructor
  · rintro ⟨m, chunks, messages, total⟩
    obtain ⟨first, rest⟩ := List.cons.inj messages
    obtain rfl := Request.metadata.inj first
    rw [← map_fileData_inj.mp rest, ← List.length_flatten,
      flatten_chunks] at total
    exact total.symm
  · exact fun claims => ⟨metadata, _, completeUpload_uploads claims⟩

theorem inGrammar_iff_complete {claimed : Metadata → Nat} {metadata : Metadata}
    {files : List File} {received : List (Request Metadata)}
    (claims : claimed metadata = (files.flatMap File.content).length)
    (isPrefix : received <+: completeUpload metadata files) :
    InGrammar claimed received ↔ received = completeUpload metadata files := by
  constructor
  · rintro ⟨m, chunks, rfl, total⟩
    obtain ⟨first, restPrefix⟩ := List.cons_prefix_cons.mp isPrefix
    obtain rfl := Request.metadata.inj first
    have chunksPrefix : chunks <+: files.flatMap File.chunks := by
      obtain ⟨missing, whole⟩ := restPrefix
      obtain ⟨front, back, split, mapped, -⟩ := List.map_eq_append_iff.mp whole.symm
      rw [split, map_fileData_inj.mp mapped]
      exact List.prefix_append _ _
    have all := eq_of_prefix chunksPrefix
      (fun chunk mem => by
        obtain ⟨file, -, chunkMem⟩ := List.mem_flatMap.mp mem
        exact chunksOf_ne_nil _ chunkMem)
      (by rw [List.length_flatten, total, claims, flatten_chunks])
    rw [all, completeUpload]
  · rintro rfl
    exact ⟨metadata, _, completeUpload_uploads claims⟩

end SospDemo
