import SospDemo.FrontEnd.Requests
import SospDemo.FrontEnd.Usage
import SospDemo.Service.Refinement
import SospDemo.Upload.Abandoned
import SospDemo.Upload.RoundTrip

namespace SospDemo
variable {Engine Exn : Type} {L : ShardLayout} {api : EngineApi Engine Exn} {heap : Allocator}
  {unhandled : GrpcStatus}

/-- One run of the client program. If it gives up, `delivered` of its messages arrive. -/
structure ClientRun where
  argv : List Bytes
  files : Bytes → File
  writes : Nat → Bool
  delivered : Nat

namespace Cluster

def printed (unhandled : GrpcStatus) : ClientReply Exn → Printed
  | .model reply => .ofModel unhandled reply
  | .photo reply => .ofPhoto unhandled reply
  | .outOfRange => .serverCrashed

def handleUpload {Metadata : Type} (heap : Allocator) (unhandled : GrpcStatus) (delivered : Nat)
    (c : Cluster L api) (request : List (Request Metadata) → ClientRequest) :
    List (Request Metadata) × ClientEnd → Printed × Cluster L api
  | (_, .notOpened) => (.invalidFile, c)
  | (sent, .abandoned) => (.uploadFailed, (execute heap c (request (sent.take delivered))).2)
  | (sent, .writesDone) =>
      let (reply, c) := execute heap c (request sent)
      (printed unhandled reply, c)

end Cluster

namespace Flat
open Cluster

/-- What a run of the client asks of the map: nothing, a request whose reply it prints, or one it
no longer waits for. -/
inductive Command
  | prints (printed : Printed)
  | asks (request : FlatRequest)
  | leaves (request : FlatRequest)

@[simps] def commands (api : EngineApi Engine Exn) (unhandled : GrpcStatus) :
    SequentialObject (StdMap UInt32 Model) Command Printed where
  init := .empty
  apply
    | m, .prints printed => (printed, m)
    | m, .asks request =>
        (printed unhandled ((store api).apply m request).1, ((store api).apply m request).2)
    | m, .leaves request => (.uploadFailed, ((store api).apply m request).2)

def CommandClassifies (api : EngineApi Engine Exn) (m : StdMap UInt32 Model) : Command → Prop
  | .prints _ => True
  | .asks request | .leaves request => Classifies api m request

def modelOf (synsetFile symbolFile paramsFile : File) : Model :=
  ⟨synsetFile.content.length, symbolFile.content.length, paramsFile.content.length,
    ⟨synsetFile.content ++ symbolFile.content ++ paramsFile.content⟩⟩

open Classical in
/-- An upload that ends after its last byte has arrived counts, whether or not the client waits. -/
noncomputable def upload (run : ClientRun) (files : List File) (completed left : Command) :
    Command :=
  if ∃ file ∈ files, ¬ file.Readable then .prints .invalidFile
  else if Completes files run.writes then completed
  else if DeliversEveryByte files run.writes run.delivered then left
  else .prints .uploadFailed

/-- Several tags are not looked at. -/
noncomputable def meaning (run : ClientRun) : Command :=
  match command run.argv with
  | .error printed => .prints printed
  | .ok (.infer [tag] photoFile) =>
      let photo : Photo := ⟨tag, ⟨(run.files photoFile).content⟩⟩
      upload run [run.files photoFile] (.asks (.ask photo)) (.leaves (.ask photo))
  | .ok (.infer _ photoFile) =>
      upload run [run.files photoFile]
        (.prints (.photoDescription "Multiple tags support to be implemented."))
        (.prints .uploadFailed)
  | .ok (.install tag synsetFile symbolFile paramsFile) =>
      let model := modelOf (run.files synsetFile) (run.files symbolFile) (run.files paramsFile)
      upload run [run.files synsetFile, run.files symbolFile, run.files paramsFile]
        (.asks (.install tag model)) (.leaves (.install tag model))
  | .ok (.remove tag) => .asks (.remove tag)

variable {c : Cluster L api} {m : StdMap UInt32 Model}

def Agree (ran : Printed × Cluster L api) (told : Printed × StdMap UInt32 Model) : Prop :=
  ran.1 = told.1 ∧ Holds ran.2 told.2

variable (unhandled) in
theorem Holds.asks (holds : Holds c m) {request : ClientRequest} {flat : FlatRequest}
    (means : Means L request flat) (classifies : Classifies api m flat) :
    Agree (printed unhandled (Cluster.execute heap c request).1, (Cluster.execute heap c request).2)
      ((commands api unhandled).apply m (.asks flat)) := by
  have executed : (Cluster.execute heap c request).1 = ((store api).apply m flat).1 ∧
      Holds (Cluster.execute heap c request).2 ((store api).apply m flat).2 :=
    holds.execute means classifies
  exact ⟨congrArg (printed unhandled) executed.1, executed.2⟩

/-! ## Uploads -/

section Upload
variable {Metadata : Type} {claimed : Metadata → Nat} {metadata : Metadata} {files : List File}
  {request : List (Request Metadata) → ClientRequest} {run : ClientRun}

theorem arrived (writes : Nat → Bool) (delivered : Nat)
    (claims : claimed metadata = (files.flatMap File.content).length) :
    ((sendUpload metadata files writes).1.take delivered = completeUpload metadata files ∧
        DeliversEveryByte files writes delivered) ∨
      (¬ InGrammar claimed ((sendUpload metadata files writes).1.take delivered) ∧
        ¬ DeliversEveryByte files writes delivered) := by
  have isPrefix := (List.take_prefix delivered _).trans (sendUpload_written metadata files writes).1
  have grammar : InGrammar claimed ((sendUpload metadata files writes).1.take delivered) ↔ _ :=
    take_inGrammar_iff claims
  by_cases delivers : DeliversEveryByte files writes delivered
  · exact .inl ⟨(inGrammar_iff_complete claims isPrefix).mp (grammar.mpr delivers), delivers⟩
  · exact .inr ⟨grammar.not.mpr delivers, delivers⟩

theorem Holds.uploads {completed left : Command} (holds : Holds c m)
    (claims : claimed metadata = (files.flatMap File.content).length)
    (readable : ∀ file ∈ files, file.Readable)
    (refused : ∀ stream, ¬ InGrammar claimed stream →
      (Cluster.execute heap c (request stream)).2 = c)
    (whole : Completes files run.writes →
      let (reply, next) := Cluster.execute heap c (request (completeUpload metadata files))
      Agree (printed unhandled reply, next) ((commands api unhandled).apply m completed))
    (gone : ¬ Completes files run.writes → DeliversEveryByte files run.writes run.delivered →
      let (_, next) := Cluster.execute heap c (request (completeUpload metadata files))
      Agree (.uploadFailed, next) ((commands api unhandled).apply m left)) :
    Agree
      (c.handleUpload heap unhandled run.delivered request (sendUpload metadata files run.writes))
      ((commands api unhandled).apply m (upload run files completed left)) := by
  have allReadable : ¬ ∃ file ∈ files, ¬ file.Readable := by
    rintro ⟨file, mem, unreadable⟩
    exact unreadable (readable file mem)
  rw [upload, if_neg allReadable]
  by_cases completes : Completes files run.writes
  · have ended : (sendUpload metadata files run.writes).2 = .writesDone :=
      sendUpload_done_iff.mpr completes
    have sent := (sendUpload_written metadata files run.writes).2.1 ended
    rw [if_pos completes, ← Prod.mk.eta (p := sendUpload metadata files run.writes), ended, sent]
    exact whole completes
  · have ended : (sendUpload metadata files run.writes).2 = .abandoned :=
      sendUpload_abandoned completes
    rw [if_neg completes, ← Prod.mk.eta (p := sendUpload metadata files run.writes), ended]
    rcases arrived run.writes run.delivered claims with ⟨all, delivers⟩ | ⟨outside, short⟩
    · rw [if_pos delivers, Cluster.handleUpload, all]
      exact gone completes delivers
    · rw [if_neg short, Cluster.handleUpload, refused _ outside]
      exact ⟨rfl, holds⟩

theorem Holds.uploadAsks {flat : FlatRequest} (holds : Holds c m)
    (claims : claimed metadata = (files.flatMap File.content).length)
    (readable : ∀ file ∈ files, file.Readable)
    (refused : ∀ stream, ¬ InGrammar claimed stream →
      (Cluster.execute heap c (request stream)).2 = c)
    (means : Means L (request (completeUpload metadata files)) flat)
    (classifies : CommandClassifies api m (upload run files (.asks flat) (.leaves flat))) :
    Agree
      (c.handleUpload heap unhandled run.delivered request (sendUpload metadata files run.writes))
      ((commands api unhandled).apply m (upload run files (.asks flat) (.leaves flat))) := by
  have allReadable : ¬ ∃ file ∈ files, ¬ file.Readable := by
    rintro ⟨file, mem, unreadable⟩
    exact unreadable (readable file mem)
  rw [upload, if_neg allReadable] at classifies
  refine holds.uploads claims readable refused ?_ ?_
  · intro completes
    rw [if_pos completes] at classifies
    exact holds.asks unhandled means classifies
  · intro incomplete delivers
    rw [if_neg incomplete, if_pos delivers] at classifies
    exact ⟨rfl, (holds.asks unhandled means classifies).2⟩

end Upload

theorem means_install {tag : UInt32} {synsetFile symbolFile paramsFile : File}
    (fits : synsetFile.content.length + symbolFile.content.length +
      paramsFile.content.length < 2 ^ 32) :
    Means L (.installModel 0 (completeUpload (modelMetadata tag synsetFile symbolFile paramsFile)
        [synsetFile, symbolFile, paramsFile]))
      (.install tag (modelOf synsetFile symbolFile paramsFile)) := by
  have uploads := modelMetadata_uploads tag fits
  have synset := sizeOf_file synsetFile (by omega)
  have symbol := sizeOf_file symbolFile (by omega)
  have params := sizeOf_file paramsFile (by omega)
  have model : (modelMetadata tag synsetFile symbolFile paramsFile).model
      ([synsetFile, symbolFile, paramsFile].flatMap File.chunks).flatten =
        modelOf synsetFile symbolFile paramsFile := by
    rw [flatten_chunks]
    simp [ModelMetadata.model, modelMetadata, modelOf, synset, symbol, params]
  rw [← model]
  exact .install uploads (L.replicas_pos _)

theorem execute_installModel_cancelled {stream : List InstallModelRequest}
    (outside : ¬ InGrammar ModelMetadata.dataSize stream) :
    (Cluster.execute heap c (.installModel 0 stream)).2 = c := by
  simp only [execute, FunctionTier.installModel_cancelled outside]

theorem modelMetadata_claims (tag : UInt32) {synsetFile symbolFile paramsFile : File}
    (fits : synsetFile.content.length + symbolFile.content.length +
      paramsFile.content.length < 2 ^ 32) :
    (modelMetadata tag synsetFile symbolFile paramsFile).dataSize =
      ([synsetFile, symbolFile, paramsFile].flatMap File.content).length := by
  rw [modelMetadata_dataSize]
  apply Nat.mod_eq_of_lt
  simpa [add_assoc] using fits

section Files
variable {run : ClientRun}

theorem upload_unreadable {files : List File} {completed left : Command}
    (unreadable : ¬ ∀ file ∈ files, file.Readable) :
    upload run files completed left = .prints .invalidFile := by
  rw [upload, if_pos]
  simpa only [not_forall, exists_prop] using unreadable

theorem handleUpload_unopened {Metadata : Type} {request : List (Request Metadata) → ClientRequest}
    {sent : List (Request Metadata) × ClientEnd} (unopened : sent.2 = .notOpened) :
    c.handleUpload heap unhandled run.delivered request sent = (.invalidFile, c) := by
  obtain ⟨written, ended⟩ := sent
  obtain rfl : ended = .notOpened := unopened
  rfl

theorem Holds.installs (holds : Holds c m) {tag : UInt32} {synsetFile symbolFile paramsFile : File}
    (fits : synsetFile.content.length + symbolFile.content.length +
      paramsFile.content.length < 2 ^ 32) :
    let flat : FlatRequest := .install tag (modelOf synsetFile symbolFile paramsFile)
    Agree
      (c.handleUpload heap unhandled run.delivered (.installModel 0)
        (clientInstallModel tag synsetFile symbolFile paramsFile run.writes))
      ((commands api unhandled).apply m
        (upload run [synsetFile, symbolFile, paramsFile] (.asks flat) (.leaves flat))) := by
  intro flat
  by_cases readable : ∀ file ∈ [synsetFile, symbolFile, paramsFile], file.Readable
  · rw [clientInstallModel_readable (readable _ (by simp)) (readable _ (by simp))
      (readable _ (by simp))]
    refine holds.uploadAsks (modelMetadata_claims tag fits) readable
      (fun _ => execute_installModel_cancelled) (means_install fits) ?_
    unfold upload
    split_ifs <;> trivial
  · have unopened : (clientInstallModel tag synsetFile symbolFile paramsFile run.writes).2 =
        .notOpened := by
      by_contra opened
      obtain ⟨synset, symbol, params⟩ := readable_of_installModel_opened opened
      exact readable (by simp [synset, symbol, params])
    rw [handleUpload_unopened unopened, upload_unreadable readable]
    exact ⟨rfl, holds⟩

end Files

end Flat
end SospDemo
