import SospDemo.Library.Runs
import SospDemo.Model.UploadMemory
import SospDemo.Upload.Grammar

/-!
# Buffers the handlers allocate

However the steps of any number of uploads interleave, no handler touches memory it does not own.
An upload that ends gives its buffer back. One that is cancelled after its metadata keeps it for
good: the pointer is a local variable of the parser.
-/

namespace SospDemo
open Buffers

namespace UploadPc
variable {Metadata : Type}

/-- The buffer a handler is responsible for, or has lost. -/
def pointer : UploadPc Metadata → Option Nat
  | .checkRequest _ | .ended _ => none
  | .readDataArg _ dataBuf _ _ => some dataBuf
  | .returned args | .parsed args _ => args.data
  | .cancelled dataBuf => dataBuf

def claimedBytes (dataSize : Metadata → Nat) : List (Request Metadata) → Nat
  | .metadata metadata :: _ => dataSize metadata
  | _ => 0

/-- The memory an upload takes: what was claimed, from the metadata on until the arguments are
destroyed. -/
def charge (dataSize : Metadata → Nat) (stream : List (Request Metadata)) :
    UploadPc Metadata → Nat
  | .checkRequest _ | .ended _ => 0
  | _ => claimedBytes dataSize stream

def Correct (dataSize : Metadata → Nat) (stream : List (Request Metadata)) :
    UploadPc Metadata → Prop
  | .parsed _ sent | .ended sent => ∃ metadata chunks, Uploads dataSize stream metadata chunks ∧
      ∀ bytes, sent = some bytes → bytes = chunks.flatten
  | .cancelled _ => ¬ InGrammar dataSize stream
  | _ => True

def Holding (dataSize : Metadata → Nat) (stream : List (Request Metadata))
    (args : ParsedArguments Metadata) (content : Bytes) : Prop :=
  ∃ metadata chunks data, args = ⟨some metadata, some data⟩ ∧
    Uploads dataSize stream metadata chunks ∧ content = chunks.flatten

def Tracks (dataSize : Metadata → Nat) (stream : List (Request Metadata)) :
    UploadPc Metadata → Bytes → Prop
  | .checkRequest rest, _ => rest = stream
  | .readDataArg metadata _ offset rest, content => ∃ chunks tail,
      stream = .metadata metadata :: (chunks.map .fileData ++ rest) ∧
      offset = (chunks : List Bytes).flatten.length ∧ content = chunks.flatten ++ tail ∧
      content.length = dataSize metadata
  | .returned args, content => Holding dataSize stream args content
  | .parsed args sent, content => Holding dataSize stream args content ∧
      ∀ bytes, sent = some bytes → bytes = content
  | .ended sent, _ => ∃ metadata chunks, Uploads dataSize stream metadata chunks ∧
      ∀ bytes, sent = some bytes → bytes = chunks.flatten
  | .cancelled _, content => ¬ InGrammar dataSize stream ∧
      content.length = claimedBytes dataSize stream

variable {dataSize : Metadata → Nat} {stream : List (Request Metadata)}

theorem Tracks.correct {pc : UploadPc Metadata} {content : Bytes}
    (tracks : pc.Tracks dataSize stream content) : pc.Correct dataSize stream := by
  cases pc with
  | checkRequest rest => trivial
  | readDataArg metadata dataBuf offset rest => trivial
  | returned args => trivial
  | parsed args sent =>
      obtain ⟨⟨metadata, chunks, data, -, uploads, rfl⟩, same⟩ := tracks
      exact ⟨metadata, chunks, uploads, same⟩
  | ended sent => exact tracks
  | cancelled dataBuf => exact tracks.1

theorem Holding.length_eq {args : ParsedArguments Metadata} {content : Bytes}
    (holding : Holding dataSize stream args content) :
    content.length = claimedBytes dataSize stream := by
  obtain ⟨metadata, chunks, data, -, uploads, rfl⟩ := holding
  rw [uploads.length_flatten, uploads.messages, claimedBytes]

theorem Tracks.length_eq {pc : UploadPc Metadata} {memory : Memory UInt8}
    (tracks : pc.Tracks dataSize stream (value memory pc.pointer)) :
    (value memory pc.pointer).length = pc.charge dataSize stream := by
  cases pc with
  | checkRequest rest => rfl
  | readDataArg metadata dataBuf offset rest =>
      obtain ⟨chunks, tail, rfl, -, -, size⟩ := tracks
      exact size
  | returned args => exact Holding.length_eq tracks
  | parsed args sent => exact Holding.length_eq tracks.1
  | ended sent => rfl
  | cancelled dataBuf => exact tracks.2

/-! ## Streams outside the grammar -/

theorem outside_of_no_metadata
    (first : ∀ metadata rest, stream ≠ .metadata metadata :: rest) : ¬ InGrammar dataSize stream := by
  rintro ⟨metadata, chunks, uploads⟩
  exact first _ _ uploads.messages

section Outside
variable {metadata : Metadata} {chunks : List Bytes} {rest : List (Request Metadata)}

theorem uploads_split {other : Metadata} {all : List Bytes}
    (uploads : Uploads dataSize (.metadata metadata :: (chunks.map .fileData ++ rest)) other all) :
    other = metadata ∧ ∃ more : List Bytes, all = chunks ++ more ∧ rest = more.map .fileData := by
  obtain ⟨same, messages⟩ := List.cons.inj uploads.messages
  obtain ⟨before, more, rfl, first, later⟩ := List.map_eq_append_iff.mp messages.symm
  obtain rfl := map_fileData_inj.mp first
  exact ⟨(Request.metadata.inj same).symm, more, rfl, later.symm⟩

theorem outside_of_end (short : chunks.flatten.length ≠ dataSize metadata) :
    ¬ InGrammar dataSize (.metadata metadata :: (chunks.map .fileData ++ [])) := by
  rintro ⟨other, all, uploads⟩
  obtain ⟨rfl, more, rfl, none⟩ := uploads_split uploads
  obtain rfl := List.map_eq_nil_iff.mp none.symm
  simp only [List.append_nil] at uploads
  exact short uploads.length_flatten

theorem outside_of_not_fileData {message : Request Metadata}
    (other : ∀ data, message ≠ .fileData data) :
    ¬ InGrammar dataSize (.metadata metadata :: (chunks.map .fileData ++ message :: rest)) := by
  rintro ⟨m, all, uploads⟩
  obtain ⟨-, more, -, messages⟩ := uploads_split uploads
  cases more with
  | nil => cases messages
  | cons data more => exact other data (List.cons.inj messages).1

theorem outside_of_excess {data : Bytes}
    (excess : dataSize metadata < chunks.flatten.length + data.length) :
    ¬ InGrammar dataSize (.metadata metadata :: (chunks.map .fileData ++ .fileData data :: rest)) := by
  rintro ⟨other, all, uploads⟩
  have total := uploads.length_flatten
  obtain ⟨rfl, more, rfl, messages⟩ := uploads_split uploads
  cases more with
  | nil => cases messages
  | cons next more =>
      obtain rfl := Request.fileData.inj (List.cons.inj messages).1
      rw [List.flatten_append, List.flatten_cons, List.length_append, List.length_append] at total
      omega

end Outside

/-! ## One step of a handler -/

inductive Effect (dataSize : Metadata → Nat) (stream : List (Request Metadata))
    (memory : Memory UInt8) (pc : UploadPc Metadata) : UploadPc Metadata × Memory UInt8 → Prop
  | keep {next} (same : next.pointer = pc.pointer)
      (tracks : next.Tracks dataSize stream (value memory pc.pointer)) :
      Effect dataSize stream memory pc (next, memory)
  | give {next content} (nothing : pc.pointer = none) (new : next.pointer = some memory.length)
      (tracks : next.Tracks dataSize stream content) :
      Effect dataSize stream memory pc (next, memory.alloc content)
  | write {next p content} (holds : pc.pointer = some p) (same : next.pointer = some p)
      (tracks : next.Tracks dataSize stream content) :
      Effect dataSize stream memory pc (next, memory.write p content)
  | free {next p} (holds : pc.pointer = some p) (nothing : next.pointer = none)
      (tracks : next.Tracks dataSize stream []) :
      Effect dataSize stream memory pc (next, memory.free p)

section Step
variable {memory : Memory UInt8} {R : Type}

theorem checkRequest_effect (junk : Nat → UInt8) {rest : List (Request Metadata)}
    (tracks : (UploadPc.checkRequest rest).Tracks dataSize stream
      (value memory (UploadPc.checkRequest rest).pointer)) :
    ∃ result, UploadHandlers.advance dataSize junk memory (.checkRequest rest) =
      some (.ok result) ∧ Effect dataSize stream memory (.checkRequest rest) result := by
  obtain rfl : rest = stream := tracks
  have cancels (nothing : claimedBytes dataSize rest = 0)
      (first : ∀ metadata later, rest ≠ .metadata metadata :: later) :
      Effect dataSize rest memory (.checkRequest rest) (.cancelled none, memory) :=
    .keep rfl ⟨outside_of_no_metadata first, nothing.symm⟩
  cases rest with
  | nil => exact ⟨_, rfl, cancels rfl (by simp)⟩
  | cons first rest =>
      cases first with
      | metadata metadata =>
          refine ⟨_, rfl, .give rfl rfl ⟨[], _, rfl, rfl, rfl, ?_⟩⟩
          simp
      | fileData data => exact ⟨_, rfl, cancels rfl (by simp)⟩
      | notSet => exact ⟨_, rfl, cancels rfl (by simp)⟩

section ReadDataArg
variable {metadata : Metadata} {dataBuf offset : Nat} {rest : List (Request Metadata)}

theorem cancel_effect
    (tracks : (UploadPc.readDataArg metadata dataBuf offset rest).Tracks dataSize stream
      (value memory (some dataBuf))) (outside : ¬ InGrammar dataSize stream) :
    Effect dataSize stream memory (.readDataArg metadata dataBuf offset rest)
      (.cancelled (some dataBuf), memory) := by
  obtain ⟨chunks, tail, rfl, -, -, size⟩ := tracks
  exact .keep rfl ⟨outside, size⟩

theorem end_effect (junk : Nat → UInt8)
    (tracks : (UploadPc.readDataArg metadata dataBuf offset []).Tracks dataSize stream
      (value memory (some dataBuf))) :
    ∃ result, UploadHandlers.advance dataSize junk memory (.readDataArg metadata dataBuf offset []) =
      some (.ok result) ∧
        Effect dataSize stream memory (.readDataArg metadata dataBuf offset []) result := by
  have cancels := cancel_effect tracks
  obtain ⟨chunks, tail, rfl, place, content, size⟩ := tracks
  by_cases full : offset = dataSize metadata
  · refine ⟨(.returned ⟨some metadata, some dataBuf⟩, memory), ?_, .keep rfl ?_⟩
    · simp [UploadHandlers.advance, full]
    · have done : tail = [] := by
        rw [content, List.length_append, ← place, full] at size
        exact List.length_eq_zero_iff.mp (by omega)
      refine ⟨metadata, chunks, dataBuf, rfl, ⟨by rw [List.append_nil], ?_⟩, ?_⟩
      · rw [← List.length_flatten, ← place, full]
      · rw [UploadPc.pointer, content, done, List.append_nil]
  · refine ⟨_, by simp [UploadHandlers.advance, full], cancels (outside_of_end ?_)⟩
    rw [← place]
    exact full

theorem fileData_effect (junk : Nat → UInt8) {data : Bytes}
    (live : memory.buffer dataBuf = some (value memory (some dataBuf)))
    (tracks : (UploadPc.readDataArg metadata dataBuf offset (.fileData data :: rest)).Tracks dataSize
      stream (value memory (some dataBuf))) :
    ∃ result, UploadHandlers.advance dataSize junk memory
      (.readDataArg metadata dataBuf offset (.fileData data :: rest)) = some (.ok result) ∧
        Effect dataSize stream memory
          (.readDataArg metadata dataBuf offset (.fileData data :: rest)) result := by
  have cancels := cancel_effect tracks
  obtain ⟨chunks, tail, rfl, place, content, size⟩ := tracks
  by_cases fits : offset + data.length ≤ dataSize metadata
  · have inside : offset + data.length ≤ (value memory (some dataBuf)).length := by
      rw [size]
      exact fits
    have written : memcpy (value memory (some dataBuf)) offset data =
        (chunks ++ [data]).flatten ++ tail.drop data.length := by
      rw [content, place, memcpy_append, List.flatten_concat]
    refine ⟨(.readDataArg metadata dataBuf (offset + data.length) rest,
      memory.write dataBuf (memcpy (value memory (some dataBuf)) offset data)), ?_,
      .write rfl rfl ⟨chunks ++ [data], tail.drop data.length, by simp, ?_, written, ?_⟩⟩
    · simp only [UploadHandlers.advance, UploadHandlers.copyAt, live, inside, if_true, gt_iff_lt,
        Nat.not_lt.mpr fits, if_false]
      rfl
    · rw [place, List.flatten_concat, List.length_append]
    · rw [content, List.length_append] at size
      rw [written, List.length_append, List.flatten_concat, List.length_append, List.length_drop]
      omega
  · refine ⟨_, by simp only [UploadHandlers.advance, gt_iff_lt, Nat.not_le.mp fits, if_true],
      cancels (outside_of_excess ?_)⟩
    rw [← place]
    exact Nat.not_le.mp fits

theorem readDataArg_effect (junk : Nat → UInt8)
    (live : memory.buffer dataBuf = some (value memory (some dataBuf)))
    (tracks : (UploadPc.readDataArg metadata dataBuf offset rest).Tracks dataSize stream
      (value memory (some dataBuf))) :
    ∃ result, UploadHandlers.advance dataSize junk memory
      (.readDataArg metadata dataBuf offset rest) = some (.ok result) ∧
        Effect dataSize stream memory (.readDataArg metadata dataBuf offset rest) result := by
  cases rest with
  | nil => exact end_effect junk tracks
  | cons message rest =>
      have cancels := cancel_effect tracks
      have split := tracks
      obtain ⟨chunks, tail, rfl, -⟩ := split
      cases message with
      | metadata other => exact ⟨_, rfl, cancels (outside_of_not_fileData (by simp))⟩
      | fileData data => exact fileData_effect junk live tracks
      | notSet => exact ⟨_, rfl, cancels (outside_of_not_fileData (by simp))⟩

end ReadDataArg

theorem returned_effect (junk : Nat → UInt8) {args : ParsedArguments Metadata}
    (tracks : (UploadPc.returned args).Tracks dataSize stream (value memory args.data)) :
    ∃ result, UploadHandlers.advance dataSize junk memory (.returned args) = some (.ok result) ∧
      Effect dataSize stream memory (.returned args) result := by
  refine ⟨_, rfl, .keep rfl ⟨tracks, ?_⟩⟩
  intro bytes nothing
  cases nothing

theorem send_effect {args : ParsedArguments Metadata}
    (live : ∀ p, args.data = some p → memory.buffer p = some (value memory args.data))
    (tracks : (UploadPc.parsed args none).Tracks dataSize stream (value memory args.data)) :
    ∃ bytes, UploadHandlers.readArguments dataSize memory args = .ok bytes ∧
      Effect dataSize stream memory (.parsed args none) (.parsed args (some bytes), memory) := by
  obtain ⟨metadata, chunks, p, rfl, uploads, content⟩ := tracks.1
  have size : (value memory (some p)).length = dataSize metadata := by
    rw [content, uploads.length_flatten]
  refine ⟨value memory (some p), ?_, .keep rfl ⟨tracks.1, fun bytes same => ?_⟩⟩
  · simp only [UploadHandlers.readArguments, Option.bind_some, live p rfl, size, le_refl, if_true]
    rw [← size, List.take_length]
  · exact (Option.some.inj same).symm

theorem destroy_effect {args : ParsedArguments Metadata} {sent : Option Bytes}
    (live : ∀ p, args.data = some p → memory.buffer p = some (value memory args.data))
    (tracks : (UploadPc.parsed args sent).Tracks dataSize stream (value memory args.data)) :
    ∃ next, UploadHandlers.delete memory args.data = .ok next ∧
      Effect dataSize stream memory (.parsed args sent) (.ended sent, next) := by
  obtain ⟨⟨metadata, chunks, p, rfl, uploads, content⟩, same⟩ := tracks
  refine ⟨memory.free p, ?_, .free rfl rfl ⟨metadata, chunks, uploads, ?_⟩⟩
  · simp only [UploadHandlers.delete, live p rfl]
  · rw [content] at same
    exact same

theorem act_effect {pc : UploadPc Metadata} {a : UploadAction R}
    {result : Except Undefined (UploadPc Metadata × Memory UInt8)}
    (live : ∀ p, pc.pointer = some p → memory.buffer p = some (value memory pc.pointer))
    (tracks : pc.Tracks dataSize stream (value memory pc.pointer))
    (taken : UploadHandlers.act dataSize memory pc a = some result) :
    ∃ next, result = .ok next ∧ Effect dataSize stream memory pc next := by
  have found {expected} (steps : UploadHandlers.act dataSize memory pc a = some (.ok expected))
      (effect : Effect dataSize stream memory pc expected) :
      ∃ next, result = .ok next ∧ Effect dataSize stream memory pc next :=
    ⟨expected, Option.some.inj (taken.symm.trans steps), effect⟩
  cases a with
  | next r junk =>
      cases pc with
      | checkRequest rest =>
          obtain ⟨next, steps, effect⟩ := checkRequest_effect junk tracks
          exact found steps effect
      | readDataArg metadata dataBuf offset rest =>
          obtain ⟨next, steps, effect⟩ := readDataArg_effect junk (live dataBuf rfl) tracks
          exact found steps effect
      | returned args =>
          obtain ⟨next, steps, effect⟩ := returned_effect junk tracks
          exact found steps effect
      | parsed args sent => cases taken
      | ended sent => cases taken
      | cancelled dataBuf => cases taken
  | send r =>
      cases pc with
      | parsed args sent =>
          cases sent with
          | none =>
              obtain ⟨bytes, reads, effect⟩ := send_effect live tracks
              exact found (by simp [UploadHandlers.act, reads, Except.map]) effect
          | some bytes => cases taken
      | _ => cases taken
  | destroy r =>
      cases pc with
      | parsed args sent =>
          obtain ⟨next, deletes, effect⟩ := destroy_effect live tracks
          exact found (by simp [UploadHandlers.act, deletes, Except.map]) effect
      | _ => cases taken

end Step

end UploadPc

/-! ## Runs of any number of uploads -/

namespace UploadHandlers
open UploadPc Runs
variable {R Metadata : Type} {dataSize : Metadata → Nat} {streams : R → List (Request Metadata)}

structure Sound (dataSize : Metadata → Nat) (streams : R → List (Request Metadata))
    (s : UploadHandlers R Metadata) : Prop where
  owned : Owned s.memory fun r => (s.pc r).pointer
  noneLost : NoneLost s.memory fun r => (s.pc r).pointer
  tracks : ∀ r, (s.pc r).Tracks dataSize (streams r) (value s.memory (s.pc r).pointer)

theorem sound_initial : (initial streams).Sound dataSize streams := by
  refine ⟨Owned.nobody [], ?_, fun r => rfl⟩
  intro p content live
  cases live

variable [DecidableEq R] {s : UploadHandlers R Metadata}

theorem pointer_update (pc : R → UploadPc Metadata) (r : R) (next : UploadPc Metadata) :
    (fun other => (Function.update pc r next other).pointer) =
      Function.update (fun other => (pc other).pointer) r next.pointer := by
  funext other
  rcases eq_or_ne other r with rfl | apart
  · rw [Function.update_self, Function.update_self]
  · rw [Function.update_of_ne apart, Function.update_of_ne apart]

theorem Sound.effect (sound : s.Sound dataSize streams) {r : R} {next : UploadPc Metadata}
    {memory : Memory UInt8}
    (effect : Effect dataSize (streams r) s.memory (s.pc r) (next, memory)) :
    (⟨Function.update s.pc r next, memory⟩ : UploadHandlers R Metadata).Sound dataSize streams := by
  have assemble
      (owned : Owned memory (Function.update (fun r => (s.pc r).pointer) r next.pointer))
      (noneLost : NoneLost memory (Function.update (fun r => (s.pc r).pointer) r next.pointer))
      (others : ∀ other, other ≠ r →
        value memory (s.pc other).pointer = value s.memory (s.pc other).pointer)
      (tracks : next.Tracks dataSize (streams r) (value memory next.pointer)) :
      (⟨Function.update s.pc r next, memory⟩ : UploadHandlers R Metadata).Sound dataSize streams := by
    refine ⟨pointer_update s.pc r next ▸ owned, pointer_update s.pc r next ▸ noneLost, ?_⟩
    intro other
    rcases eq_or_ne other r with rfl | apart
    · simpa using tracks
    · simpa [apart, others other apart] using sound.tracks other
  cases effect with
  | keep same tracks =>
      refine assemble ?_ ?_ (fun other _ => rfl) (same ▸ tracks)
      · rw [same, Function.update_eq_self]
        exact sound.owned
      · rw [same, Function.update_eq_self]
        exact sound.noneLost
  | give nothing new tracks =>
      refine assemble ?_ ?_ (fun other _ => sound.owned.value_alloc other _) ?_
      · rw [new]
        exact sound.owned.give r _
      · rw [new]
        exact sound.noneLost.give nothing _
      · rw [new, value_some (Memory.buffer_alloc_self _ _)]
        exact tracks
  | write holds same tracks =>
      refine assemble ?_ ?_ (fun other apart => sound.owned.value_write holds apart _) ?_
      · rw [same, ← holds, Function.update_eq_self]
        exact sound.owned.write holds _
      · rw [same, ← holds, Function.update_eq_self]
        exact sound.noneLost.write holds _
      · rw [same, value_some (Memory.buffer_write_self (sound.owned.buffer_value holds) _)]
        exact tracks
  | free holds nothing tracks =>
      refine assemble ?_ ?_ (fun other apart => sound.owned.value_free holds apart) ?_
      · rw [nothing]
        exact sound.owned.free holds
      · rw [nothing]
        exact sound.noneLost.free holds
      · rw [nothing]
        exact tracks

theorem Sound.step (sound : s.Sound dataSize streams) {a : UploadAction R}
    {state : Except Undefined (UploadHandlers R Metadata)}
    (taken : UploadHandlers.step dataSize (.ok s) a = some state) :
    ∃ next, state = .ok next ∧ next.Sound dataSize streams := by
  obtain ⟨result, acts, rfl⟩ := Option.map_eq_some_iff.mp taken
  obtain ⟨⟨pc, memory⟩, rfl, effect⟩ :=
    act_effect (fun p holds => sound.owned.buffer_value holds) (sound.tracks (handler a)) acts
  exact ⟨_, rfl, sound.effect effect⟩

theorem uploads_accounted [Fintype R] (dataSize : Metadata → Nat)
    (streams : R → List (Request Metadata)) (actions : List (UploadAction R)) :
    EveryState (UploadHandlers.step dataSize) (.ok (initial streams)) actions fun state =>
      ∃ s, state = .ok s ∧ (∀ r, (s.pc r).Correct dataSize (streams r)) ∧
        s.memory.size = ∑ r, (s.pc r).charge dataSize (streams r) := by
  have sound : EveryState (UploadHandlers.step dataSize) (.ok (initial streams)) actions fun state =>
      ∃ s, state = .ok s ∧ s.Sound dataSize streams := by
    apply Runs.always
    · rintro state a next ⟨s, rfl, sound⟩ taken
      exact sound.step taken
    · exact ⟨_, rfl, sound_initial⟩
  refine sound.mono ?_
  rintro state ⟨s, rfl, sound⟩
  refine ⟨s, rfl, fun r => (sound.tracks r).correct, ?_⟩
  rw [sound.noneLost.size_eq_sum sound.owned]
  exact Finset.sum_congr rfl fun r _ => (sound.tracks r).length_eq

end UploadHandlers
end SospDemo
