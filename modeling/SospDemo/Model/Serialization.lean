import SospDemo.Library.WireFormat
import SospDemo.Model.BlobStore
import SospDemo.Model.CategorizerTier

/-!
# Serialization

The `ByteRepresentable` methods of `blob.hpp` and `blob.cpp`, and what
`DEFAULT_SERIALIZATION_SUPPORT` makes of the fields listed in `inference_engine.hpp`: they are
written in order, and each is read where the decoded ones before it end.
-/

namespace SospDemo
open WireFormat

def sizeT : Format UInt8 Nat := littleEndian 8

def ssizeT : Format UInt8 Int := signed 8

def uint32T : Format UInt8 UInt32 := (littleEndian 4).view UInt32.toNat UInt32.ofNat

/-- `toBytes` returns the buffer it has written to beside its return value, `postObject` the pieces
it passes on. -/
structure ByteRepresentable (B : Type) where
  toBytes : B → Bytes → Bytes × Nat
  bytesSize : B → Nat
  postObject : B → List Bytes
  fromBytes : Bytes → B

def ByteRepresentable.encoding {B : Type} (R : ByteRepresentable B) (b : B) : Bytes :=
  (R.postObject b).flatten

def ByteRepresentable.format {B : Type} (R : ByteRepresentable B) : Format UInt8 B :=
  ⟨R.encoding, R.bytesSize, R.fromBytes⟩

/-! ## Blobs

Both classes write `size` and then `size` bytes from `bytes`. -/

def writeSized (bytes buffer : Bytes) : Bytes × Nat :=
  let size := bytes.length
  let buffer := memcpy buffer 0 (sizeT.encode size)
  let buffer := if 0 < size then memcpy buffer 8 bytes else buffer
  (buffer, (size + 8) % 2 ^ 64)

def sizedBytesSize (bytes : Bytes) : Nat := (bytes.length + 8) % 2 ^ 64

def postSized (bytes : Bytes) : List Bytes := [sizeT.encode bytes.length, bytes]

namespace Blob

def toBytes (b : Blob) (buffer : Bytes) : Bytes × Nat := writeSized b.bytes buffer

def bytesSize (b : Blob) : Nat := sizedBytesSize b.bytes

def postObject (b : Blob) : List Bytes := postSized b.bytes

def fromBytes (buffer : Bytes) : Blob := .ofBuffer (buffer.drop 8) (sizeT.decode buffer)

def methods : ByteRepresentable Blob := ⟨toBytes, bytesSize, postObject, fromBytes⟩

end Blob

namespace BlobWrapper

def toBytes (b : BlobWrapper) (buffer : Bytes) : Bytes × Nat := writeSized b.bytes buffer

def bytesSize (b : BlobWrapper) : Nat := sizedBytesSize b.bytes

def postObject (b : BlobWrapper) : List Bytes := postSized b.bytes

def fromBytes (buffer : Bytes) : BlobWrapper := .ofBuffer (buffer.drop 8) (sizeT.decode buffer)

def methods : ByteRepresentable BlobWrapper := ⟨toBytes, bytesSize, postObject, fromBytes⟩

end BlobWrapper

/-! ## Blob objects

The same two writers of `Blob`, on the pointers. -/

namespace BlobStore
variable {Var : Type}

def toBytes (s : BlobStore Var) (o : BlobObject) (buffer : Bytes) :
    Except Undefined (Bytes × Nat) := do
  let buffer := memcpy buffer 0 (sizeT.encode o.size)
  if 0 < o.size then
    let content ← s.read o.bytes o.size
    return (memcpy buffer 8 content, (o.size + 8) % 2 ^ 64)
  else return (buffer, (o.size + 8) % 2 ^ 64)

def postObject (s : BlobStore Var) (o : BlobObject) : Except Undefined (List Bytes) := do
  let content ← s.bytesOf o
  return [sizeT.encode o.size, content]

end BlobStore

/-! ## Records -/

def Photo.format : Format UInt8 Photo :=
  (uint32T.field BlobWrapper.methods.format).view (fun p => (p.tag, p.photoData))
    fun (tag, photoData) => ⟨tag, photoData⟩

def Model.format : Format UInt8 Model :=
  (ssizeT.field (ssizeT.field (ssizeT.field Blob.methods.format))).view
    (fun m => (m.synsetSize, m.symbolSize, m.paramsSize, m.modelData))
    fun (synsetSize, symbolSize, paramsSize, modelData) =>
      ⟨synsetSize, symbolSize, paramsSize, modelData⟩

def rawModelFormat : Format UInt8 (UInt32 × Model) := uint32T.field Model.format

/-! ## Replicas

A replica passes on `raw_models` alone: the entries that iterating over the map visits, with their
number as mutils writes it in front of them. -/

namespace CategorizerTier
variable {Engine Exn : Type} {api : EngineApi Engine Exn}

def toBytes (count : Format UInt8 Nat) (rawModels : List (UInt32 × Model)) : Bytes :=
  (rawModelFormat.sequence count).encode rawModels

def fromBytes (count : Format UInt8 Nat) (buffer : Bytes) : CategorizerTier api :=
  ⟨.ofEntries ((rawModelFormat.sequence count).decode buffer), .empty⟩

end CategorizerTier
end SospDemo
