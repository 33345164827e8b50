import SospDemo.Upload.Accepted

namespace SospDemo

/-- What Derecho's `get_subgroup_members` returns. -/
structure ShardTable (Node : Type) where
  shards : List (List Node)
  nonempty : shards ≠ []
  populated : ∀ members ∈ shards, members ≠ []

namespace ShardTable
variable {Node : Type}

theorem index_lt (T : ShardTable Node) (tag : UInt32) :
    tag.toNat % T.shards.length < T.shards.length :=
  Nat.mod_lt _ (List.length_pos_of_ne_nil T.nonempty)

def shardOf (T : ShardTable Node) (tag : UInt32) : List Node :=
  T.shards.get ⟨tag.toNat % T.shards.length, T.index_lt tag⟩

theorem shardOf_ne_nil (T : ShardTable Node) (tag : UInt32) : T.shardOf tag ≠ [] :=
  T.populated _ (List.get_mem _ _)

def contact (T : ShardTable Node) (tag : UInt32) : Node :=
  (T.shardOf tag).head (T.shardOf_ne_nil tag)

theorem target_eq (T : ShardTable Node) (tag : UInt32) :
    FunctionTier.target T.shards tag 0 = some (T.contact tag) := by
  have shard : T.shards[tag.toNat % T.shards.length]? = some (T.shardOf tag) :=
    List.getElem?_eq_getElem (T.index_lt tag)
  rw [FunctionTier.target, shard, Option.bind_some, contact, ← List.head?_eq_getElem?,
    List.head?_eq_some_head]

section Answerable
variable {Exn : Type} (T : ShardTable Node)

def Answerable (answer : Node → Photo → Outcome Exn) (stream : List PhotoRequest) : Prop :=
  ∀ m chunks, Uploads PhotoMetadata.dataSize stream m chunks → m.tags ≠ [] ∧
    ∀ tag e, m.tags = [tag] → answer (T.contact tag) ⟨tag, ⟨chunks.flatten⟩⟩ ≠ .error e

def InstallAnswerable (answer : Node → OrderedOp → Except Exn Int)
    (stream : List InstallModelRequest) : Prop :=
  ∀ m chunks e, Uploads ModelMetadata.dataSize stream m chunks →
    answer (T.contact m.tag) (m.installCall chunks.flatten) ≠ .error e

def RemoveAnswerable (answer : Node → OrderedOp → Except Exn Int) (tag : UInt32) : Prop :=
  ∀ e, answer (T.contact tag) (CategorizerTier.removeModel tag) ≠ .error e

end Answerable

end ShardTable

namespace Handler
variable {Node Call Ret Result : Type}

def sends : Handler Node Call Ret Result → List (Node × Call)
  | .p2pSend target call _ => [(target, call)]
  | _ => []

/-- The result of a handler when the node it contacts returns what `answer` says; `none` past the
end of a vector. -/
def run (answer : Node → Call → Ret) : Handler Node Call Ret Result → Option Result
  | .finished result => some result
  | .outOfRange => none
  | .p2pSend target call resume => some (resume (answer target call))

def InRange {Exn : Type} (answer : Node → Call → Ret)
    (handler : Handler Node Call Ret (Except (HandlerException Exn) Result)) : Prop :=
  handler.run answer ≠ none ∧ handler.run answer ≠ some (.error .outOfRange)

theorem inRange_of_returns {Exn : Type} {answer : Node → Call → Ret}
    {handler : Handler Node Call Ret (Except (HandlerException Exn) Result)} {result : Result}
    (returns : handler.run answer = some (.ok result)) : handler.InRange answer := by
  unfold InRange
  rw [returns]
  exact ⟨Option.some_ne_none _, fun thrown => by cases thrown⟩

end Handler

namespace FunctionTier
variable {Node Exn : Type} {heap : Allocator} {T : ShardTable Node}

/-! ## Photos -/

section Whatsthis
variable {stream : List PhotoRequest} {reply : PhotoReply} {m : PhotoMetadata}
  {chunks : List Bytes}

theorem whatsthis_no_tag (uploads : Uploads PhotoMetadata.dataSize stream m chunks)
    (untagged : m.tags = []) :
    whatsthis Exn heap T.shards 0 stream reply = .outOfRange := by
  have parsed : parseGrpcWhatsthisArgs heap stream = .ok (m.parsed chunks.flatten) :=
    parseGrpcWhatsthisArgs_eq_ok.mpr ⟨m, chunks, uploads, rfl⟩
  have parsedTags : (m.parsed chunks.flatten).tags = [] := untagged
  simp [whatsthis, parsed, parsedTags]

theorem whatsthis_one_tag {tag : UInt32}
    (uploads : Uploads PhotoMetadata.dataSize stream m chunks) (single : m.tags = [tag]) :
    whatsthis Exn heap T.shards 0 stream reply =
      .p2pSend (T.contact tag) ⟨tag, ⟨chunks.flatten⟩⟩ fun response => finishWhatsthis [response] :=
  whatsthis_eq_p2pSend.mpr ⟨m, chunks, tag, uploads, single, T.target_eq tag, rfl, rfl⟩

theorem whatsthis_many_tags (uploads : Uploads PhotoMetadata.dataSize stream m chunks)
    (several : 1 < m.tags.length) :
    whatsthis Exn heap T.shards 0 stream reply = .finished (.ok (.ok, ⟨multipleTags⟩)) := by
  have parsed : parseGrpcWhatsthisArgs heap stream = .ok (m.parsed chunks.flatten) :=
    parseGrpcWhatsthisArgs_eq_ok.mpr ⟨m, chunks, uploads, rfl⟩
  have parsedTags : 1 < (m.parsed chunks.flatten).tags.length := several
  simp only [whatsthis, parsed, gt_iff_lt, parsedTags, if_true]

theorem finishWhatsthis_thrown (e : Exn) :
    finishWhatsthis [(.error e : Outcome Exn)] = .error (.remote e) := rfl

theorem whatsthis_cases (Exn : Type) (heap : Allocator) (T : ShardTable Node)
    (stream : List PhotoRequest) (reply : PhotoReply) :
    (∃ result, whatsthis Exn heap T.shards 0 stream reply = .finished (.ok result)) ∨
      ∃ m chunks, Uploads PhotoMetadata.dataSize stream m chunks ∧ (m.tags = [] ∨
        ∃ tag, m.tags = [tag] ∧ whatsthis Exn heap T.shards 0 stream reply =
          .p2pSend (T.contact tag) ⟨tag, ⟨chunks.flatten⟩⟩ fun response =>
            finishWhatsthis [response]) := by
  by_cases accepted : InGrammar PhotoMetadata.dataSize stream
  · obtain ⟨m, chunks, uploads⟩ := accepted
    cases tags : m.tags with
    | nil => exact .inr ⟨m, chunks, uploads, .inl tags⟩
    | cons tag rest =>
        cases rest with
        | nil => exact .inr ⟨m, chunks, uploads, .inr ⟨tag, tags, whatsthis_one_tag uploads tags⟩⟩
        | cons second rest =>
            have several : 1 < m.tags.length := by simp [tags]
            exact .inl ⟨_, whatsthis_many_tags uploads several⟩
  · exact .inl ⟨_, whatsthis_cancelled accepted⟩

theorem whatsthis_returns_iff {answer : Node → Photo → Outcome Exn} :
    (∃ result, (whatsthis Exn heap T.shards 0 stream reply).run answer = some (.ok result)) ↔
      T.Answerable answer stream := by
  constructor
  · rintro ⟨result, returns⟩ m chunks uploads
    constructor
    · intro untagged
      rw [whatsthis_no_tag uploads untagged] at returns
      cases returns
    · intro tag e single thrown
      rw [whatsthis_one_tag uploads single, Handler.run, thrown, finishWhatsthis_thrown] at returns
      cases returns
  · intro answerable
    rcases whatsthis_cases Exn heap T stream reply with
      ⟨result, finished⟩ | ⟨m, chunks, uploads, untagged | ⟨tag, single, contacted⟩⟩
    · exact ⟨result, by rw [finished, Handler.run]⟩
    · exact absurd untagged (answerable m chunks uploads).1
    · rw [contacted, Handler.run]
      cases answered : answer (T.contact tag) ⟨tag, ⟨chunks.flatten⟩⟩ with
      | error e => exact absurd answered ((answerable m chunks uploads).2 tag e single)
      | ok guess => exact ⟨_, congrArg some (finishWhatsthis_guess guess)⟩

theorem finishWhatsthis_ne_outOfRange (response : Outcome Exn) :
    finishWhatsthis [response] ≠ .error .outOfRange := by
  cases response with
  | error e =>
      rw [finishWhatsthis_thrown]
      intro same
      cases same
  | ok guess =>
      rw [finishWhatsthis_guess]
      intro same
      cases same

theorem whatsthis_inRange_iff {answer : Node → Photo → Outcome Exn} :
    (whatsthis Exn heap T.shards 0 stream reply).InRange answer ↔
      ∀ m chunks, Uploads PhotoMetadata.dataSize stream m chunks → m.tags ≠ [] := by
  constructor
  · rintro ⟨inside, -⟩ m chunks uploads untagged
    rw [whatsthis_no_tag uploads untagged] at inside
    exact inside rfl
  · intro tagged
    rcases whatsthis_cases Exn heap T stream reply with
      ⟨result, finished⟩ | ⟨m, chunks, uploads, untagged | ⟨tag, single, contacted⟩⟩
    · have returns : (whatsthis Exn heap T.shards 0 stream reply).run answer =
          some (.ok result) := by
        rw [finished, Handler.run]
      exact Handler.inRange_of_returns returns
    · exact absurd untagged (tagged m chunks uploads)
    · rw [contacted]
      refine ⟨Option.some_ne_none _, ?_⟩
      intro thrown
      exact finishWhatsthis_ne_outOfRange _ (Option.some.inj thrown)

theorem whatsthis_sends {node : Node} {photo : Photo}
    (sent : (node, photo) ∈ (whatsthis Exn heap T.shards 0 stream reply).sends) :
    ∃ m chunks tag, Uploads PhotoMetadata.dataSize stream m chunks ∧ m.tags = [tag] ∧
      (whatsthis Exn heap T.shards 0 stream reply).sends = [(node, photo)] ∧
      node = T.contact tag ∧ photo = ⟨tag, ⟨chunks.flatten⟩⟩ := by
  rcases whatsthis_cases Exn heap T stream reply with
    ⟨result, finished⟩ | ⟨m, chunks, uploads, untagged | ⟨tag, single, contacted⟩⟩
  · rw [finished] at sent
    cases sent
  · rw [whatsthis_no_tag uploads untagged] at sent
    cases sent
  · rw [contacted, Handler.sends] at sent ⊢
    obtain ⟨rfl, rfl⟩ := Prod.mk.inj (List.mem_singleton.mp sent)
    exact ⟨m, chunks, tag, uploads, single, rfl, rfl, rfl⟩

end Whatsthis

/-! ## Models -/

section Models
variable {stream : List InstallModelRequest} {reply : ModelReply}
  {answer : Node → OrderedOp → Except Exn Int}

theorem installModel_cases (Exn : Type) (heap : Allocator) (T : ShardTable Node)
    (stream : List InstallModelRequest) (reply : ModelReply) :
    ((∀ m chunks, ¬ Uploads ModelMetadata.dataSize stream m chunks) ∧
        installModel Exn heap T.shards 0 stream reply = .finished (.ok (.cancelled, reply))) ∨
      ∃ m chunks, Uploads ModelMetadata.dataSize stream m chunks ∧
        installModel Exn heap T.shards 0 stream reply =
          .p2pSend (T.contact m.tag) (m.installCall chunks.flatten) finishInstallModel := by
  by_cases accepted : InGrammar ModelMetadata.dataSize stream
  · obtain ⟨m, chunks, uploads⟩ := accepted
    refine .inr ⟨m, chunks, uploads, ?_⟩
    exact installModel_eq_p2pSend.mpr ⟨m, chunks, uploads, T.target_eq m.tag, rfl, rfl⟩
  · exact .inl ⟨fun m chunks uploads => accepted ⟨m, chunks, uploads⟩,
      installModel_cancelled accepted⟩

theorem run_p2pSend_returns_iff {target : Node} {call : OrderedOp} {finish : Int → Status × ModelReply}
    {resume : Except Exn Int → Except (HandlerException Exn) (Status × ModelReply)}
    (finishes : ∀ response, resume response = (response.mapError .remote).map finish) :
    (Handler.p2pSend target call resume).InRange answer ∧
      ((∃ result, (Handler.p2pSend target call resume).run answer = some (.ok result)) ↔
        ∀ e, answer target call ≠ .error e) := by
  unfold Handler.InRange
  rw [Handler.run, finishes]
  cases answered : answer target call with
  | error e =>
      refine ⟨⟨Option.some_ne_none _, fun thrown => by cases thrown⟩, ?_, ?_⟩
      · rintro ⟨result, returned⟩
        cases returned
      · intro answers
        exact absurd rfl (answers e)
  | ok ret =>
      refine ⟨⟨Option.some_ne_none _, fun thrown => by cases thrown⟩, ?_, ?_⟩
      · rintro - e thrown
        cases thrown
      · exact fun _ => ⟨finish ret, rfl⟩

theorem finishInstallModel_eq (response : Except Exn Int) :
    finishInstallModel response = (response.mapError .remote).map installReply := by
  cases response <;> rfl

theorem finishRemoveModel_eq (response : Except Exn Int) :
    finishRemoveModel response = (response.mapError .remote).map removeReply := by
  cases response <;> rfl

theorem installModel_inRange :
    (installModel Exn heap T.shards 0 stream reply).InRange answer := by
  rcases installModel_cases Exn heap T stream reply with
    ⟨-, cancelled⟩ | ⟨m, chunks, uploads, contacted⟩
  · rw [cancelled]
    exact Handler.inRange_of_returns rfl
  · rw [contacted]
    exact (run_p2pSend_returns_iff finishInstallModel_eq).1

theorem installModel_returns_iff :
    (∃ result, (installModel Exn heap T.shards 0 stream reply).run answer = some (.ok result)) ↔
      T.InstallAnswerable answer stream := by
  rcases installModel_cases Exn heap T stream reply with
    ⟨outside, cancelled⟩ | ⟨m, chunks, uploads, contacted⟩
  · rw [cancelled]
    exact ⟨fun _ m chunks _ uploads => absurd uploads (outside m chunks), fun _ => ⟨_, rfl⟩⟩
  · rw [contacted, (run_p2pSend_returns_iff finishInstallModel_eq).2]
    constructor
    · intro answers m' chunks' e uploads'
      obtain ⟨rfl, rfl⟩ := uploads.unique uploads'
      exact answers e
    · exact fun answerable e => answerable m chunks e uploads

theorem installModel_sends {node : Node} {call : OrderedOp}
    (sent : (node, call) ∈ (installModel Exn heap T.shards 0 stream reply).sends) :
    ∃ m chunks, Uploads ModelMetadata.dataSize stream m chunks ∧
      (installModel Exn heap T.shards 0 stream reply).sends = [(node, call)] ∧
      node = T.contact m.tag ∧ call = m.installCall chunks.flatten := by
  rcases installModel_cases Exn heap T stream reply with
    ⟨-, cancelled⟩ | ⟨m, chunks, uploads, contacted⟩
  · rw [cancelled] at sent
    cases sent
  · rw [contacted, Handler.sends] at sent ⊢
    obtain ⟨rfl, rfl⟩ := Prod.mk.inj (List.mem_singleton.mp sent)
    exact ⟨m, chunks, uploads, rfl, rfl, rfl⟩

theorem removeModel_eq (Exn : Type) (T : ShardTable Node) (tag : UInt32) :
    removeModel Exn T.shards 0 tag =
      .p2pSend (T.contact tag) (CategorizerTier.removeModel tag) finishRemoveModel := by
  simp only [removeModel, T.target_eq tag]

end Models

/-! ## Every request -/

theorem requests_answered_iff (Exn : Type) (heap : Allocator) (T : ShardTable Node) :
    (∀ (stream : List PhotoRequest) (reply : PhotoReply) (answer : Node → Photo → Outcome Exn),
      ((whatsthis Exn heap T.shards 0 stream reply).InRange answer ∧
          (∃ result, (whatsthis Exn heap T.shards 0 stream reply).run answer = some (.ok result)) ↔
        T.Answerable answer stream) ∧
      ((whatsthis Exn heap T.shards 0 stream reply).InRange answer ↔
        ∀ m chunks, Uploads PhotoMetadata.dataSize stream m chunks → m.tags ≠ []) ∧
      ∀ node photo, (node, photo) ∈ (whatsthis Exn heap T.shards 0 stream reply).sends →
        ∃ m chunks tag, Uploads PhotoMetadata.dataSize stream m chunks ∧ m.tags = [tag] ∧
          (whatsthis Exn heap T.shards 0 stream reply).sends = [(node, photo)] ∧
          node = T.contact tag ∧ photo = ⟨tag, ⟨chunks.flatten⟩⟩) ∧
    (∀ (stream : List InstallModelRequest) (reply : ModelReply)
        (answer : Node → OrderedOp → Except Exn Int),
      (installModel Exn heap T.shards 0 stream reply).InRange answer ∧
      ((∃ result,
          (installModel Exn heap T.shards 0 stream reply).run answer = some (.ok result)) ↔
        T.InstallAnswerable answer stream) ∧
      ∀ node call, (node, call) ∈ (installModel Exn heap T.shards 0 stream reply).sends →
        ∃ m chunks, Uploads ModelMetadata.dataSize stream m chunks ∧
          (installModel Exn heap T.shards 0 stream reply).sends = [(node, call)] ∧
          node = T.contact m.tag ∧ call = m.installCall chunks.flatten) ∧
    ∀ (tag : UInt32) (answer : Node → OrderedOp → Except Exn Int),
      (removeModel Exn T.shards 0 tag).InRange answer ∧
      ((∃ result, (removeModel Exn T.shards 0 tag).run answer = some (.ok result)) ↔
        T.RemoveAnswerable answer tag) ∧
      (removeModel Exn T.shards 0 tag).sends =
        [(T.contact tag, CategorizerTier.removeModel tag)] := by
  refine ⟨?_, ?_, ?_⟩
  · intro stream reply answer
    refine ⟨?_, whatsthis_inRange_iff, fun node photo sent => whatsthis_sends sent⟩
    constructor
    · rintro ⟨-, returns⟩
      exact whatsthis_returns_iff.mp returns
    · intro answerable
      have returns : ∃ result,
          (whatsthis Exn heap T.shards 0 stream reply).run answer = some (.ok result) :=
        whatsthis_returns_iff.mpr answerable
      exact ⟨Handler.inRange_of_returns returns.choose_spec, returns⟩
  · intro stream reply answer
    exact ⟨installModel_inRange, installModel_returns_iff,
      fun node call sent => installModel_sends sent⟩
  · intro tag answer
    rw [removeModel_eq]
    exact ⟨(run_p2pSend_returns_iff finishRemoveModel_eq).1,
      (run_p2pSend_returns_iff finishRemoveModel_eq).2, rfl⟩

def untaggedStream : List PhotoRequest := [.metadata ⟨1, []⟩, .fileData [7]]

theorem untagged_photo_past_end :
    (whatsthis Unit .zeros [[0]] 0 untaggedStream ⟨""⟩ : Handler Nat _ _ _) = .outOfRange := by
  rfl

end FunctionTier
end SospDemo
