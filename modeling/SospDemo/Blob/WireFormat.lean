import SospDemo.Blob.ValueSemantics
import SospDemo.Model.Serialization

namespace SospDemo
open WireFormat

structure ByteRepresentable.RoundTrips {B : Type} (R : ByteRepresentable B) (b : B) : Prop where
  toBytes_eq : ∀ buffer, R.bytesSize b ≤ buffer.length →
    R.toBytes b buffer = (R.encoding b ++ buffer.drop (R.bytesSize b), R.bytesSize b)
  length_encoding : (R.encoding b).length = R.bytesSize b
  fromBytes_append : ∀ rest, R.fromBytes (R.encoding b ++ rest) = b
  consumed : ∀ rest, R.bytesSize (R.fromBytes (R.encoding b ++ rest)) = (R.encoding b).length

theorem ByteRepresentable.RoundTrips.carries {B : Type} {R : ByteRepresentable B} {b : B}
    (trips : R.RoundTrips b) : R.format.Carries b :=
  ⟨trips.length_encoding.symm, trips.fromBytes_append⟩

/-! ## Blobs -/

theorem memcpy_twice (buffer first second : Bytes) :
    memcpy (memcpy buffer 0 first) first.length second =
      first ++ second ++ buffer.drop (first.length + second.length) := by
  simp [memcpy, List.drop_append]

section Sized
variable {d : Bytes}

theorem length_sizeT (n : Nat) : (sizeT.encode n).length = 8 := length_littleEndian 8 n

theorem flatten_postSized (d : Bytes) : (postSized d).flatten = sizeT.encode d.length ++ d := by
  rw [postSized, List.flatten_cons, List.flatten_singleton]

theorem sizedBytesSize_eq (small : d.length < 2 ^ 64 - 8) : sizedBytesSize d = 8 + d.length := by
  rw [sizedBytesSize, Nat.mod_eq_of_lt (by omega), Nat.add_comm]

theorem length_postSized (small : d.length < 2 ^ 64 - 8) :
    (postSized d).flatten.length = sizedBytesSize d := by
  rw [flatten_postSized, List.length_append, length_sizeT, sizedBytesSize_eq small]

theorem writeSized_eq (small : d.length < 2 ^ 64 - 8) (buffer : Bytes) :
    writeSized d buffer =
      ((postSized d).flatten ++ buffer.drop (sizedBytesSize d), sizedBytesSize d) := by
  have written : (writeSized d buffer).1 =
      sizeT.encode d.length ++ d ++ buffer.drop (8 + d.length) := by
    by_cases empty : d = []
    · subst empty
      simp [writeSized, memcpy, length_sizeT]
    · have positive : 0 < d.length := List.length_pos_of_ne_nil empty
      have twice := memcpy_twice buffer (sizeT.encode d.length) d
      rw [length_sizeT] at twice
      simp only [writeSized, positive, if_true, twice]
  rw [flatten_postSized, sizedBytesSize_eq small, ← written, ← sizedBytesSize_eq small]
  rfl

theorem decode_postSized (small : d.length < 2 ^ 64 - 8) (rest : Bytes) :
    (((postSized d).flatten ++ rest).drop 8).take
      (sizeT.decode ((postSized d).flatten ++ rest)) = d := by
  have carries : sizeT.Carries d.length := carries_littleEndian (by norm_num; omega)
  rw [flatten_postSized, List.append_assoc, carries.decode_append,
    List.drop_left' (length_sizeT d.length), List.take_left]

theorem ByteRepresentable.roundTrips_sized {B : Type} {R : ByteRepresentable B} {b : B}
    (small : d.length < 2 ^ 64 - 8) (writes : R.toBytes b = writeSized d)
    (size : R.bytesSize b = sizedBytesSize d) (pieces : R.postObject b = postSized d)
    (reads : ∀ rest, R.fromBytes ((postSized d).flatten ++ rest) = b) : R.RoundTrips b := by
  have encoding : R.encoding b = (postSized d).flatten := congrArg List.flatten pieces
  have length : (R.encoding b).length = R.bytesSize b := by
    rw [encoding, size, length_postSized small]
  constructor
  · intro buffer _
    rw [writes, encoding, size, writeSized_eq small]
  · exact length
  · rw [encoding]
    exact reads
  · intro rest
    rw [length, encoding, reads]

theorem Blob.roundTrips {b : Blob} (small : b.size < 2 ^ 64 - 8) : methods.RoundTrips b :=
  ByteRepresentable.roundTrips_sized small rfl rfl rfl fun rest =>
    congrArg Blob.mk (decode_postSized small rest)

theorem BlobWrapper.roundTrips {b : BlobWrapper} (small : b.size < 2 ^ 64 - 8) :
    methods.RoundTrips b :=
  ByteRepresentable.roundTrips_sized small rfl rfl rfl fun rest =>
    congrArg BlobWrapper.mk (decode_postSized small rest)

end Sized

theorem encoding_wrapper (d : Bytes) :
    BlobWrapper.methods.encoding ⟨d⟩ = Blob.methods.encoding ⟨d⟩ := rfl

/-! ## Stored blobs -/

namespace BlobStore
variable {Var : Type} {s : BlobStore Var} {blobs : Var → Option Bytes} {v : Var} {o : BlobObject}
  {d : Bytes}

theorem Represents.toBytes_eq (represents : s.Represents blobs) (found : s.vars v = some o)
    (holds : blobs v = some d) (buffer : Bytes) :
    s.toBytes o buffer = .ok ((Blob.mk d).toBytes buffer) := by
  obtain ⟨size, read⟩ := represents.content v o d found holds
  by_cases null : o.size = 0
  · have empty : d = [] := List.eq_nil_of_length_eq_zero (size.symm.trans null)
    subst empty
    simp only [toBytes, null, Nat.lt_irrefl, if_false]
    rfl
  · have positive : 0 < o.size := Nat.pos_of_ne_zero null
    rw [bytesOf, if_neg null] at read
    simp only [toBytes, positive, if_true, read, bind, Except.bind, pure, Except.pure,
      Blob.toBytes, writeSized, ← size]

theorem Represents.postObject_eq (represents : s.Represents blobs) (found : s.vars v = some o)
    (holds : blobs v = some d) : s.postObject o = .ok (Blob.mk d).postObject := by
  obtain ⟨size, read⟩ := represents.content v o d found holds
  simp only [postObject, read, bind, Except.bind, pure, Except.pure, Blob.postObject, postSized,
    ← size]

end BlobStore

/-! ## Records -/

structure Model.Fits (m : Model) : Prop where
  synset : -2 ^ 63 ≤ m.synsetSize ∧ m.synsetSize < 2 ^ 63
  symbol : -2 ^ 63 ≤ m.symbolSize ∧ m.symbolSize < 2 ^ 63
  params : -2 ^ 63 ≤ m.paramsSize ∧ m.paramsSize < 2 ^ 63
  data : m.modelData.size < 2 ^ 64 - 8

theorem carries_ssizeT {z : Int} (fits : -2 ^ 63 ≤ z ∧ z < 2 ^ 63) : ssizeT.Carries z := by
  obtain ⟨low, high⟩ := fits
  apply carries_signed <;> norm_num <;> omega

theorem carries_uint32T (x : UInt32) : uint32T.Carries x := by
  have bound : x.toNat < 256 ^ 4 := x.toNat_lt
  exact Format.Carries.view UInt32.toNat (carries_littleEndian bound) UInt32.ofNat_toNat

theorem Model.Fits.carries {m : Model} (fits : m.Fits) : Model.format.Carries m :=
  Format.Carries.view (fun m : Model => (m.synsetSize, m.symbolSize, m.paramsSize, m.modelData))
    ((carries_ssizeT fits.synset).field ((carries_ssizeT fits.symbol).field
      ((carries_ssizeT fits.params).field (Blob.roundTrips fits.data).carries))) rfl

theorem Photo.carries {p : Photo} (small : p.photoData.size < 2 ^ 64 - 8) :
    Photo.format.Carries p :=
  Format.Carries.view (fun p : Photo => (p.tag, p.photoData))
    ((carries_uint32T p.tag).field (BlobWrapper.roundTrips small).carries) rfl

theorem Model.Fits.carries_entry {entry : UInt32 × Model} (fits : entry.2.Fits) :
    rawModelFormat.Carries entry :=
  (carries_uint32T entry.1).field fits.carries

/-- `count` is how mutils writes the number of values. -/
theorem blob_wire_format (count : Format UInt8 Nat) :
    (∀ d : Bytes, d.length < 2 ^ 64 - 8 →
      Blob.methods.RoundTrips ⟨d⟩ ∧ BlobWrapper.methods.RoundTrips ⟨d⟩ ∧
      BlobWrapper.methods.encoding ⟨d⟩ = Blob.methods.encoding ⟨d⟩ ∧
      ∀ rest, Blob.fromBytes (BlobWrapper.methods.encoding ⟨d⟩ ++ rest) = ⟨d⟩ ∧
        BlobWrapper.fromBytes (Blob.methods.encoding ⟨d⟩ ++ rest) = ⟨d⟩) ∧
    (∀ (m : Model) (rest : Bytes), m.Fits →
      Model.format.decode (Model.format.encode m ++ rest) = m) ∧
    (∀ (p : Photo) (rest : Bytes), p.photoData.size < 2 ^ 64 - 8 →
      Photo.format.decode (Photo.format.encode p ++ rest) = p) ∧
    (∀ (models : List Model) (rest : Bytes), count.Carries models.length →
      (∀ m ∈ models, m.Fits) → (Model.format.sequence count).decode
        ((Model.format.sequence count).encode models ++ rest) = models) ∧
    ∀ (entries : List (UInt32 × Model)) (rest : Bytes), count.Carries entries.length →
      (∀ entry ∈ entries, entry.2.Fits) → (rawModelFormat.sequence count).decode
        ((rawModelFormat.sequence count).encode entries ++ rest) = entries := by
  refine ⟨?_, ?_, ?_, ?_, ?_⟩
  · intro d small
    have blob : Blob.methods.RoundTrips ⟨d⟩ := Blob.roundTrips small
    have wrapper : BlobWrapper.methods.RoundTrips ⟨d⟩ := BlobWrapper.roundTrips small
    exact ⟨blob, wrapper, encoding_wrapper d, fun rest =>
      ⟨blob.fromBytes_append rest, wrapper.fromBytes_append rest⟩⟩
  · intro m rest fits
    exact fits.carries.decode_append rest
  · intro p rest small
    exact (Photo.carries small).decode_append rest
  · intro models rest counted fits
    exact (counted.sequence fun m mem => (fits m mem).carries).decode_append rest
  · intro entries rest counted fits
    exact (counted.sequence fun entry mem => (fits entry mem).carries_entry).decode_append rest

def storedModel : UInt32 × Model := (7, ⟨2, 1, 0, ⟨[97, 10, 123]⟩⟩)

theorem blob_wire_format_sample :
    (Blob.methods.RoundTrips ⟨[]⟩ ∧ BlobWrapper.methods.RoundTrips ⟨[5]⟩) ∧
      (∀ rest, Photo.format.decode (Photo.format.encode ⟨3, ⟨[1, 2]⟩⟩ ++ rest) = ⟨3, ⟨[1, 2]⟩⟩) ∧
      ∀ rest, (rawModelFormat.sequence (littleEndian 4)).decode
        ((rawModelFormat.sequence (littleEndian 4)).encode [storedModel, (9, default)] ++ rest) =
          [storedModel, (9, default)] := by
  obtain ⟨blobs, -, photos, -, entries⟩ := blob_wire_format (littleEndian 4)
  refine ⟨⟨(blobs [] (by decide)).1, (blobs [5] (by decide)).2.1⟩,
    fun rest => photos _ rest (by decide), fun rest => entries _ rest ?_ ?_⟩
  · exact carries_littleEndian (by decide)
  · intro entry mem
    rcases List.mem_pair.mp mem with rfl | rfl <;> constructor <;> decide

end SospDemo
