import SospDemo.Model.Data

/-!
# Receiving an upload

The messages of `function_tier.proto` and the parsers of `function_tier-grpc.cpp`. A stream is the
list of the messages it delivers before it ends; `Read` takes the first.
-/

namespace SospDemo

/-- A request message of an upload: the `oneof` of metadata, a chunk of the file, or neither. -/
inductive Request (Metadata : Type)
  | metadata (m : Metadata)
  | fileData (data : Bytes)
  | notSet
  deriving DecidableEq

structure ModelMetadata where
  tag : UInt32
  synsetSize : UInt32
  symbolSize : UInt32
  paramsSize : UInt32
  deriving DecidableEq

structure PhotoMetadata where
  photoSize : UInt32
  tags : List UInt32
  deriving DecidableEq

abbrev InstallModelRequest := Request ModelMetadata

abbrev PhotoRequest := Request PhotoMetadata

inductive RequestCancel
  | requestCancel
  deriving DecidableEq

/-- What `new char[n]` and `malloc(n)` return: `n` bytes of any content. -/
structure Allocator where
  alloc : Nat → Bytes
  length_alloc : ∀ n, (alloc n).length = n

def Allocator.zeros : Allocator := ⟨fun n => List.replicate n 0, fun _ => List.length_replicate⟩

variable {Metadata : Type}

def checkRequest : List (Request Metadata) → Except RequestCancel (Metadata × List (Request Metadata))
  | .metadata m :: rest => .ok (m, rest)
  | _ => .error .requestCancel

structure ReadState where
  offset : Nat
  dataBuf : Bytes
  deriving DecidableEq

def memcpy (buf : Bytes) (offset : Nat) (src : Bytes) : Bytes :=
  buf.take offset ++ src ++ buf.drop (offset + src.length)

/-- One iteration of the loop of `read_data_arg`; the errors are the integers it throws. -/
def readChunk (dataSize : Nat) (st : ReadState) : Request Metadata → Except Int ReadState
  | .fileData data =>
      if st.offset + data.length > dataSize then .error (-2)
      else .ok ⟨st.offset + data.length, memcpy st.dataBuf st.offset data⟩
  | _ => .error (-1)

def readChunks (dataSize : Nat) (stream : List (Request Metadata)) (st : ReadState) :
    Except Int ReadState :=
  stream.foldlM (readChunk dataSize) st

/-- `read_data_arg`: the filled buffer. Whatever it throws becomes a `RequestCancel`. -/
def readDataArg (stream : List (Request Metadata)) (dataBuf : Bytes) (dataSize : Nat) :
    Except RequestCancel Bytes :=
  let result : Except Int Bytes := do
    let st ← readChunks dataSize stream ⟨0, dataBuf⟩
    if st.offset ≠ dataSize then throw (-3)
    return st.dataBuf
  match result with
  | .ok buf => .ok buf
  | .error _ => .error .requestCancel

structure ParsedInstallArguments where
  tag : UInt32
  synsetSize : Int
  symbolSize : Int
  paramsSize : Int
  dataSize : Int
  modelData : Bytes
  deriving DecidableEq

/-- The three sizes are added as `uint32_t` before the sum is widened to `ssize_t`. -/
def ModelMetadata.dataSize (m : ModelMetadata) : Nat :=
  (m.synsetSize + m.symbolSize + m.paramsSize).toNat

def parseGrpcInstallArgs (heap : Allocator) (stream : List InstallModelRequest) :
    Except RequestCancel ParsedInstallArguments := do
  let (metadata, rest) ← checkRequest stream
  let modelData ← readDataArg rest (heap.alloc metadata.dataSize) metadata.dataSize
  return ⟨metadata.tag, metadata.synsetSize.toNat, metadata.symbolSize.toNat,
    metadata.paramsSize.toNat, metadata.dataSize, modelData⟩

structure ParsedWhatsThisArguments where
  tags : List UInt32
  photoSize : UInt32
  photoData : Bytes
  deriving DecidableEq

def parseGrpcWhatsthisArgs (heap : Allocator) (stream : List PhotoRequest) :
    Except RequestCancel ParsedWhatsThisArguments := do
  let (metadata, rest) ← checkRequest stream
  let photoSize := metadata.photoSize
  let photoData ← readDataArg rest (heap.alloc photoSize.toNat) photoSize.toNat
  return ⟨metadata.tags, photoSize, photoData⟩

end SospDemo
