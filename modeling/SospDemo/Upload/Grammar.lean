import SospDemo.Model.FunctionTier

namespace SospDemo
variable {Metadata : Type}

/-- The grammar of an upload: metadata, then chunks that add up to the size it claims. -/
structure Uploads (claimed : Metadata → Nat) (stream : List (Request Metadata))
    (metadata : Metadata) (chunks : List Bytes) : Prop where
  messages : stream = .metadata metadata :: chunks.map .fileData
  total : (chunks.map List.length).sum = claimed metadata

theorem Uploads.length_flatten {claimed : Metadata → Nat} {stream : List (Request Metadata)}
    {metadata : Metadata} {chunks : List Bytes} (uploads : Uploads claimed stream metadata chunks) :
    chunks.flatten.length = claimed metadata := by
  rw [List.length_flatten, uploads.total]

def InGrammar (claimed : Metadata → Nat) (stream : List (Request Metadata)) : Prop :=
  ∃ metadata chunks, Uploads claimed stream metadata chunks

theorem ModelMetadata.dataSize_eq (m : ModelMetadata) :
    m.dataSize = (m.synsetSize.toNat + m.symbolSize.toNat + m.paramsSize.toNat) % 2 ^ 32 := by
  simp [ModelMetadata.dataSize]

def PhotoMetadata.dataSize (m : PhotoMetadata) : Nat := m.photoSize.toNat

theorem memcpy_append (done tail src : Bytes) :
    memcpy (done ++ tail) done.length src = done ++ src ++ tail.drop src.length := by
  simp [memcpy, List.drop_append]

theorem map_fileData_inj {chunks others : List Bytes} :
    chunks.map (.fileData : Bytes → Request Metadata) = others.map .fileData ↔ chunks = others :=
  (List.map_injective_iff.mpr fun _ _ eq => Request.fileData.inj eq).eq_iff

theorem Uploads.unique {claimed : Metadata → Nat} {stream : List (Request Metadata)}
    {m m' : Metadata} {chunks chunks' : List Bytes} (uploads : Uploads claimed stream m chunks)
    (uploads' : Uploads claimed stream m' chunks') : m' = m ∧ chunks' = chunks := by
  obtain ⟨first, rest⟩ := List.cons.inj (uploads'.messages.symm.trans uploads.messages)
  exact ⟨Request.metadata.inj first, map_fileData_inj.mp rest⟩

theorem readChunk_fileData {dataSize : Nat} {st : ReadState} {data : Bytes} {st' : ReadState} :
    readChunk dataSize st (.fileData data : Request Metadata) = .ok st' ↔
      st.offset + data.length ≤ dataSize ∧
        st' = ⟨st.offset + data.length, memcpy st.dataBuf st.offset data⟩ := by
  by_cases fits : st.offset + data.length ≤ dataSize
  · simp [readChunk, Nat.not_lt.mpr fits, fits, eq_comm]
  · simp [readChunk, Nat.lt_of_not_le fits, fits]

theorem readChunks_eq_ok {dataSize : Nat} {stream : List (Request Metadata)} {done tail : Bytes}
    {st : ReadState} (fits : done.length ≤ dataSize) :
    readChunks dataSize stream ⟨done.length, done ++ tail⟩ = .ok st ↔
      ∃ chunks : List Bytes, stream = chunks.map .fileData ∧
        done.length + chunks.flatten.length ≤ dataSize ∧
        st = ⟨done.length + chunks.flatten.length,
          done ++ chunks.flatten ++ tail.drop chunks.flatten.length⟩ := by
  induction stream generalizing done tail with
  | nil =>
      constructor
      · intro result
        obtain rfl := Except.ok.inj result
        exact ⟨[], by simp [fits]⟩
      · rintro ⟨chunks, empty, -, rfl⟩
        obtain rfl := List.map_eq_nil_iff.mp empty.symm
        simp [readChunks, pure, Except.pure]
  | cons message rest ih =>
      have unfolded : readChunks dataSize (message :: rest) ⟨done.length, done ++ tail⟩ =
          (readChunk dataSize ⟨done.length, done ++ tail⟩ message).bind
            (readChunks dataSize rest) := rfl
      cases message with
      | metadata m | notSet =>
          rw [unfolded]
          refine ⟨nofun, ?_⟩
          rintro ⟨_ | ⟨chunk, chunks⟩, messages, -⟩ <;> simp at messages
      | fileData data =>
          by_cases room : done.length + data.length ≤ dataSize
          · have copied : readChunk dataSize ⟨done.length, done ++ tail⟩
                (.fileData data : Request Metadata) =
                  .ok ⟨done.length + data.length, memcpy (done ++ tail) done.length data⟩ :=
              readChunk_fileData.mpr ⟨room, rfl⟩
            rw [unfolded, copied, memcpy_append]
            have next := @ih (done ++ data) (tail.drop data.length) (by simpa using room)
            rw [List.length_append] at next
            refine next.trans ⟨?_, ?_⟩
            · rintro ⟨chunks, rfl, bound, rfl⟩
              exact ⟨data :: chunks, rfl, by simpa [add_assoc] using bound,
                by simp [add_assoc, List.drop_drop]⟩
            · rintro ⟨_ | ⟨chunk, chunks⟩, messages, bound, rfl⟩
              · simp at messages
              · obtain ⟨⟨⟩, rfl⟩ := List.cons.inj messages
                exact ⟨chunks, rfl, by simpa [add_assoc] using bound,
                  by simp [add_assoc, List.drop_drop]⟩
          · rw [unfolded]
            refine ⟨fun result => ?_, ?_⟩
            · simp [readChunk, Nat.lt_of_not_le room, Except.bind] at result
            · rintro ⟨_ | ⟨chunk, chunks⟩, messages, bound, -⟩
              · simp at messages
              · obtain ⟨⟨⟩, rfl⟩ := List.cons.inj messages
                simp only [List.flatten_cons, List.length_append] at bound
                omega

theorem readChunks_from_start (dataSize : Nat) (buf : Bytes) (stream : List (Request Metadata))
    (st : ReadState) :
    readChunks dataSize stream ⟨0, buf⟩ = .ok st ↔
      ∃ chunks : List Bytes, stream = chunks.map .fileData ∧ chunks.flatten.length ≤ dataSize ∧
        st = ⟨chunks.flatten.length, chunks.flatten ++ buf.drop chunks.flatten.length⟩ := by
  have start : readChunks dataSize stream ⟨([] : Bytes).length, [] ++ buf⟩ = .ok st ↔ _ :=
    readChunks_eq_ok (Nat.zero_le dataSize)
  simpa using start

theorem readDataArg_eq_ok {dataSize : Nat} {buf : Bytes} (stream : List (Request Metadata))
    (out : Bytes) (allocated : buf.length = dataSize) :
    readDataArg stream buf dataSize = .ok out ↔
      ∃ chunks : List Bytes, stream = chunks.map .fileData ∧ chunks.flatten.length = dataSize ∧
        out = chunks.flatten := by
  have start := readChunks_from_start dataSize buf stream
  cases result : readChunks dataSize stream ⟨0, buf⟩ with
  | error code =>
      simp only [result, reduceCtorEq, false_iff] at start
      simp only [readDataArg, result, bind, Except.bind, reduceCtorEq, false_iff]
      rintro ⟨chunks, messages, total, -⟩
      exact start _ ⟨chunks, messages, total.le, rfl⟩
  | ok st =>
      obtain ⟨chunks, rfl, bound, rfl⟩ := (start st).mp result
      by_cases full : chunks.flatten.length = dataSize
      · have done : buf.drop chunks.flatten.length = [] := by
          rw [List.drop_eq_nil_iff, full, allocated]
        simp only [readDataArg, result, bind, Except.bind, full, ne_eq, not_true_eq_false,
          if_false, pure, Except.pure, Except.ok.injEq]
        rw [← full, done, List.append_nil]
        refine ⟨fun same => ⟨chunks, rfl, rfl, same.symm⟩, ?_⟩
        rintro ⟨others, messages, -, rfl⟩
        rw [map_fileData_inj.mp messages]
      · simp only [readDataArg, result, bind, Except.bind, ne_eq, full, not_false_eq_true,
          if_true, throw, throwThe, MonadExceptOf.throw, reduceCtorEq, false_iff]
        rintro ⟨others, messages, total, -⟩
        rw [map_fileData_inj.mp messages] at full
        exact full total

theorem map_eq_ok {Err α β : Type} {f : α → β} {result : Except Err α} {b : β} :
    result.map f = .ok b ↔ ∃ a, result = .ok a ∧ f a = b := by
  cases result <;> simp [Except.map]

def readUpload (heap : Allocator) (claimed : Metadata → Nat) (stream : List (Request Metadata)) :
    Except RequestCancel (Metadata × Bytes) := do
  let (metadata, rest) ← checkRequest stream
  let data ← readDataArg rest (heap.alloc (claimed metadata)) (claimed metadata)
  return (metadata, data)

theorem readUpload_eq_ok {heap : Allocator} {claimed : Metadata → Nat}
    {stream : List (Request Metadata)} {metadata : Metadata} {data : Bytes} :
    readUpload heap claimed stream = .ok (metadata, data) ↔
      ∃ chunks, Uploads claimed stream metadata chunks ∧ data = chunks.flatten := by
  by_cases first : ∃ m rest, stream = .metadata m :: rest
  · obtain ⟨m, rest, rfl⟩ := first
    have read := fun out => readDataArg_eq_ok rest out (heap.length_alloc (claimed m))
    have unfolded : readUpload heap claimed (.metadata m :: rest) =
        (readDataArg rest (heap.alloc (claimed m)) (claimed m)).map (m, ·) := by
      simp only [readUpload, checkRequest, bind, Except.bind]
      cases readDataArg rest (heap.alloc (claimed m)) (claimed m) <;> rfl
    rw [unfolded, map_eq_ok]
    constructor
    · rintro ⟨out, filled, same⟩
      obtain ⟨rfl, rfl⟩ := Prod.mk.inj same
      obtain ⟨chunks, rfl, total, rfl⟩ := (read _).mp filled
      exact ⟨chunks, ⟨rfl, by rw [← List.length_flatten, total]⟩, rfl⟩
    · rintro ⟨chunks, ⟨messages, total⟩, rfl⟩
      obtain ⟨⟨⟩, rfl⟩ := List.cons.inj messages
      exact ⟨_, (read _).mpr ⟨chunks, rfl, by rw [List.length_flatten, total], rfl⟩, rfl⟩
  · have cancelled : checkRequest stream = .error .requestCancel := by
      rcases stream with _ | ⟨_ | _ | _, _⟩
      case cons.metadata rest m => exact absurd ⟨m, rest, rfl⟩ first
      all_goals rfl
    simp only [readUpload, cancelled, bind, Except.bind, reduceCtorEq, false_iff]
    rintro ⟨chunks, ⟨messages, -⟩, -⟩
    exact first ⟨_, _, messages⟩

def ModelMetadata.parsed (m : ModelMetadata) (data : Bytes) : ParsedInstallArguments :=
  ⟨m.tag, m.synsetSize.toNat, m.symbolSize.toNat, m.paramsSize.toNat, m.dataSize, data⟩

def PhotoMetadata.parsed (m : PhotoMetadata) (data : Bytes) : ParsedWhatsThisArguments :=
  ⟨m.tags, m.photoSize, data⟩

theorem map_readUpload_eq_ok {Args : Type} {heap : Allocator} {claimed : Metadata → Nat}
    {parsed : Metadata → Bytes → Args} {stream : List (Request Metadata)} {args : Args} :
    (readUpload heap claimed stream).map (fun (m, data) => parsed m data) = .ok args ↔
      ∃ m chunks, Uploads claimed stream m chunks ∧ args = parsed m chunks.flatten := by
  rw [map_eq_ok]
  constructor
  · rintro ⟨⟨m, data⟩, read, rfl⟩
    obtain ⟨chunks, uploads, rfl⟩ := readUpload_eq_ok.mp read
    exact ⟨m, chunks, uploads, rfl⟩
  · rintro ⟨m, chunks, uploads, rfl⟩
    exact ⟨(m, _), readUpload_eq_ok.mpr ⟨chunks, uploads, rfl⟩, rfl⟩

theorem parseGrpcInstallArgs_eq (heap : Allocator) (stream : List InstallModelRequest) :
    parseGrpcInstallArgs heap stream =
      (readUpload heap ModelMetadata.dataSize stream).map fun (m, data) => m.parsed data := by
  simp only [parseGrpcInstallArgs, readUpload, bind, Except.bind]
  cases checkRequest stream with
  | error cancel => rfl
  | ok first =>
      obtain ⟨m, rest⟩ := first
      dsimp only
      cases readDataArg rest (heap.alloc m.dataSize) m.dataSize <;> rfl

theorem parseGrpcWhatsthisArgs_eq (heap : Allocator) (stream : List PhotoRequest) :
    parseGrpcWhatsthisArgs heap stream =
      (readUpload heap PhotoMetadata.dataSize stream).map fun (m, data) => m.parsed data := by
  simp only [parseGrpcWhatsthisArgs, readUpload, PhotoMetadata.dataSize, bind, Except.bind]
  cases checkRequest stream with
  | error cancel => rfl
  | ok first =>
      obtain ⟨m, rest⟩ := first
      dsimp only
      cases readDataArg rest (heap.alloc m.photoSize.toNat) m.photoSize.toNat <;> rfl

theorem parseGrpcInstallArgs_eq_ok {heap : Allocator} {stream : List InstallModelRequest}
    {args : ParsedInstallArguments} :
    parseGrpcInstallArgs heap stream = .ok args ↔
      ∃ m chunks, Uploads ModelMetadata.dataSize stream m chunks ∧
        args = m.parsed chunks.flatten := by
  rw [parseGrpcInstallArgs_eq, map_readUpload_eq_ok]

theorem parseGrpcWhatsthisArgs_eq_ok {heap : Allocator} {stream : List PhotoRequest}
    {args : ParsedWhatsThisArguments} :
    parseGrpcWhatsthisArgs heap stream = .ok args ↔
      ∃ m chunks, Uploads PhotoMetadata.dataSize stream m chunks ∧
        args = m.parsed chunks.flatten := by
  rw [parseGrpcWhatsthisArgs_eq, map_readUpload_eq_ok]

theorem eq_requestCancel_iff {Args : Type} {result : Except RequestCancel Args} :
    result = .error .requestCancel ↔ ∀ args, result ≠ .ok args := by
  rcases result with ⟨⟨⟩⟩ | args <;> simp

theorem parseGrpcInstallArgs_cancels {heap : Allocator} {stream : List InstallModelRequest} :
    parseGrpcInstallArgs heap stream = .error .requestCancel ↔
      ¬ InGrammar ModelMetadata.dataSize stream := by
  simp only [eq_requestCancel_iff, ne_eq, parseGrpcInstallArgs_eq_ok, InGrammar]
  constructor
  · rintro never ⟨m, chunks, uploads⟩
    exact never _ ⟨m, chunks, uploads, rfl⟩
  · rintro outside args ⟨m, chunks, uploads, -⟩
    exact outside ⟨m, chunks, uploads⟩

theorem parseGrpcWhatsthisArgs_cancels {heap : Allocator} {stream : List PhotoRequest} :
    parseGrpcWhatsthisArgs heap stream = .error .requestCancel ↔
      ¬ InGrammar PhotoMetadata.dataSize stream := by
  simp only [eq_requestCancel_iff, ne_eq, parseGrpcWhatsthisArgs_eq_ok, InGrammar]
  constructor
  · rintro never ⟨m, chunks, uploads⟩
    exact never _ ⟨m, chunks, uploads, rfl⟩
  · rintro outside args ⟨m, chunks, uploads, -⟩
    exact outside ⟨m, chunks, uploads⟩

theorem readChunks_bounded {heap : Allocator} {dataSize : Nat} {read : List (Request Metadata)}
    {st : ReadState} (reached : readChunks dataSize read ⟨0, heap.alloc dataSize⟩ = .ok st) :
    st.offset ≤ st.dataBuf.length ∧ st.dataBuf.length = dataSize := by
  obtain ⟨chunks, -, bound, rfl⟩ := (readChunks_from_start ..).mp reached
  have filled : (chunks.flatten ++ (heap.alloc dataSize).drop chunks.flatten.length).length =
      dataSize := by
    rw [List.length_append, List.length_drop, heap.length_alloc]
    omega
  exact ⟨by rw [filled]; exact bound, filled⟩

namespace FunctionTier
variable {Node : Type} {heap : Allocator} {shards : List (List Node)} {pick : Nat}

theorem installModel_cancelled {Exn : Type} {stream : List InstallModelRequest}
    {reply : ModelReply} (outside : ¬ InGrammar ModelMetadata.dataSize stream) :
    installModel Exn heap shards pick stream reply = .finished (.ok (.cancelled, reply)) := by
  simp [installModel, parseGrpcInstallArgs_cancels.mpr outside]

theorem whatsthis_cancelled {Exn : Type} {stream : List PhotoRequest} {reply : PhotoReply}
    (outside : ¬ InGrammar PhotoMetadata.dataSize stream) :
    whatsthis Exn heap shards pick stream reply =
      .finished (.ok (.cancelled, reply)) := by
  simp [whatsthis, parseGrpcWhatsthisArgs_cancels.mpr outside]

end FunctionTier

theorem parsers_accept_their_grammar (heap : Allocator) :
    (∀ (stream : List InstallModelRequest) (args : ParsedInstallArguments),
      parseGrpcInstallArgs heap stream = .ok args ↔
        ∃ (m : ModelMetadata) (chunks : List Bytes),
          stream = .metadata m :: chunks.map .fileData ∧
          (chunks.map List.length).sum =
            (m.synsetSize.toNat + m.symbolSize.toNat + m.paramsSize.toNat) % 2 ^ 32 ∧
          args = ⟨m.tag, m.synsetSize.toNat, m.symbolSize.toNat, m.paramsSize.toNat,
            chunks.flatten.length, chunks.flatten⟩) ∧
    (∀ (stream : List PhotoRequest) (args : ParsedWhatsThisArguments),
      parseGrpcWhatsthisArgs heap stream = .ok args ↔
        ∃ (m : PhotoMetadata) (chunks : List Bytes),
          stream = .metadata m :: chunks.map .fileData ∧
          (chunks.map List.length).sum = m.photoSize.toNat ∧
          args = ⟨m.tags, m.photoSize, chunks.flatten⟩) ∧
    (∀ (Metadata : Type) (dataSize : Nat) (read : List (Request Metadata)) (st : ReadState),
      readChunks dataSize read ⟨0, heap.alloc dataSize⟩ = .ok st →
        st.offset ≤ st.dataBuf.length ∧ st.dataBuf.length = dataSize) ∧
    (∀ stream : List InstallModelRequest, ¬ InGrammar ModelMetadata.dataSize stream →
      parseGrpcInstallArgs heap stream = .error .requestCancel ∧
      ∀ (Node Exn : Type) (shards : List (List Node)) (pick : Nat) (reply : ModelReply),
        FunctionTier.installModel Exn heap shards pick stream reply =
          .finished (.ok (.cancelled, reply))) ∧
    (∀ stream : List PhotoRequest, ¬ InGrammar PhotoMetadata.dataSize stream →
      parseGrpcWhatsthisArgs heap stream = .error .requestCancel ∧
      ∀ (Node Exn : Type) (shards : List (List Node)) (pick : Nat) (reply : PhotoReply),
        FunctionTier.whatsthis Exn heap shards pick stream reply =
          .finished (.ok (.cancelled, reply))) := by
  refine ⟨fun stream args => ?_, fun stream args => ?_,
    fun Metadata dataSize read st reached => readChunks_bounded reached,
    fun stream outside => ⟨parseGrpcInstallArgs_cancels.mpr outside,
      fun Node Exn shards pick reply => FunctionTier.installModel_cancelled outside⟩,
    fun stream outside => ⟨parseGrpcWhatsthisArgs_cancels.mpr outside,
      fun Node Exn shards pick reply => FunctionTier.whatsthis_cancelled outside⟩⟩
  · rw [parseGrpcInstallArgs_eq_ok]
    constructor
    · rintro ⟨m, chunks, ⟨messages, total⟩, rfl⟩
      refine ⟨m, chunks, messages, by rw [total, m.dataSize_eq], ?_⟩
      rw [ModelMetadata.parsed, ← total, List.length_flatten]
    · rintro ⟨m, chunks, messages, total, rfl⟩
      refine ⟨m, chunks, ⟨messages, by rw [total, m.dataSize_eq]⟩, ?_⟩
      rw [ModelMetadata.parsed, List.length_flatten, total, m.dataSize_eq]
  · rw [parseGrpcWhatsthisArgs_eq_ok]
    constructor
    · rintro ⟨m, chunks, ⟨messages, total⟩, rfl⟩
      exact ⟨m, chunks, messages, total, rfl⟩
    · rintro ⟨m, chunks, messages, total, rfl⟩
      exact ⟨m, chunks, ⟨messages, total⟩, rfl⟩

end SospDemo
