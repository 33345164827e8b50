import SospDemo.Model.FunctionTierGrpc

/-!
# The client

The uploads of `client_logic.cpp`. A file is its content and which of the system calls on it
succeed; `writes` says which `Write` calls on the stream do.
-/

namespace SospDemo

structure File where
  content : Bytes
  stats : Bool
  accessible : Bool
  regular : Bool
  opens : Bool
  maps : Bool
  unmaps : Bool
  closes : Bool
  deriving DecidableEq

def File.plain (content : Bytes) : File := ⟨content, true, true, true, true, true, true, true⟩

def validateReadableFile (file : File) : Int :=
  if !file.stats || !file.accessible then -1
  else if !file.regular then -2
  else file.content.length

structure ClientWriter (Metadata : Type) where
  writes : Nat → Bool
  attempts : Nat
  written : List (Request Metadata)

variable {Metadata : Type}

namespace ClientWriter

def start (writes : Nat → Bool) : ClientWriter Metadata := ⟨writes, 0, []⟩

def write (writer : ClientWriter Metadata) (request : Request Metadata) :
    Bool × ClientWriter Metadata :=
  if writer.writes writer.attempts then
    (true, { writer with attempts := writer.attempts + 1, written := writer.written ++ [request] })
  else (false, { writer with attempts := writer.attempts + 1 })

end ClientWriter

def chunkSize : Nat := 2 ^ 15

def nextSize (left : Nat) : Nat := if left < chunkSize then left else chunkSize

theorem nextSize_pos {left : Nat} (more : 0 < left) : 0 < nextSize left := by
  unfold nextSize chunkSize
  split <;> omega

def uploadLoop (fileData : Bytes) (length offset : Nat) (writer : ClientWriter Metadata) :
    Nat × ClientWriter Metadata :=
  if length - offset > 0 then
    let size := nextSize (length - offset)
    match writer.write (.fileData ((fileData.drop offset).take size)) with
    | (false, writer) => (offset, writer)
    | (true, writer) => uploadLoop fileData length (offset + size) writer
  else (offset, writer)
termination_by length - offset
decreasing_by
  have := @nextSize_pos (length - offset) (by omega)
  omega

/-- `file_uploader`. Mapping no bytes fails. -/
def fileUploader (file : File) (length : Nat) (writer : ClientWriter Metadata) :
    Int × ClientWriter Metadata :=
  if !file.opens then (-1, writer)
  else if !file.maps || length = 0 then (-2, writer)
  else
    let (offset, writer) := uploadLoop file.content length 0 writer
    if !file.unmaps then (-3, writer)
    else if !file.closes then (-4, writer)
    else (offset, writer)

inductive ClientEnd
  | notOpened
  | abandoned
  | writesDone
  deriving DecidableEq

def clientInstallModel (tag : UInt32) (synsetFile symbolFile paramsFile : File)
    (writes : Nat → Bool) : List InstallModelRequest × ClientEnd :=
  let synsetFileSize := validateReadableFile synsetFile
  if synsetFileSize < 0 then ([], .notOpened)
  else
    let symbolFileSize := validateReadableFile symbolFile
    if symbolFileSize < 0 then ([], .notOpened)
    else
      let paramsFileSize := validateReadableFile paramsFile
      if paramsFileSize < 0 then ([], .notOpened)
      else
        let metadata : ModelMetadata := ⟨tag, UInt32.ofInt synsetFileSize,
          UInt32.ofInt symbolFileSize, UInt32.ofInt paramsFileSize⟩
        match (ClientWriter.start writes).write (.metadata metadata) with
        | (false, writer) => (writer.written, .abandoned)
        | (true, writer) =>
            let (sent, writer) := fileUploader synsetFile synsetFileSize.toNat writer
            if sent ≠ synsetFileSize then (writer.written, .abandoned)
            else
              let (sent, writer) := fileUploader symbolFile symbolFileSize.toNat writer
              if sent ≠ symbolFileSize then (writer.written, .abandoned)
              else
                let (sent, writer) := fileUploader paramsFile paramsFileSize.toNat writer
                if sent ≠ paramsFileSize then (writer.written, .abandoned)
                else (writer.written, .writesDone)

def isSpace (c : UInt8) : Bool := c = 32 || (9 ≤ c && c ≤ 13)

def isDigit (c : UInt8) : Bool := 48 ≤ c && c ≤ 57

/-- `atoi`: `strtol`, which saturates a 64-bit `long`, truncated to a 32-bit `int`. -/
def atoi (text : Bytes) : Int :=
  let text := text.dropWhile isSpace
  let (negative, text) := match text with
    | 45 :: rest => (true, rest)
    | 43 :: rest => (false, rest)
    | _ => (false, text)
  let value : Nat := (text.takeWhile isDigit).foldl (fun n c => 10 * n + (c.toNat - 48)) 0
  let long : Int := if negative then max (-2 ^ 63) (-value) else min (2 ^ 63 - 1) value
  long.bmod (2 ^ 32)

def addTags (tagsString : Bytes) : List UInt32 :=
  let tag := UInt32.ofInt (atoi tagsString)
  match tagsString.findIdx? (· = 44) with
  | none => [tag]
  | some pos =>
      let erased := tagsString.drop (pos + 1)
      if erased = [] then [tag] else tag :: addTags erased
termination_by tagsString.length
decreasing_by
  rename_i more
  have := List.length_pos_iff.mpr more
  simp only [erased, List.length_drop] at this ⊢
  omega

def clientInference (tags : Bytes) (photoFile : File) (writes : Nat → Bool) :
    List PhotoRequest × ClientEnd :=
  let photoFileSize := validateReadableFile photoFile
  if photoFileSize < 0 then ([], .notOpened)
  else
    let metadata : PhotoMetadata := ⟨UInt32.ofInt photoFileSize, addTags tags⟩
    match (ClientWriter.start writes).write (.metadata metadata) with
    | (false, writer) => (writer.written, .abandoned)
    | (true, writer) =>
        let (sent, writer) := fileUploader photoFile photoFileSize.toNat writer
        if sent ≠ photoFileSize then (writer.written, .abandoned)
        else (writer.written, .writesDone)

end SospDemo
