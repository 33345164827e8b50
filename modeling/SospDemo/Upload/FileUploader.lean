import SospDemo.Library.Chunks
import SospDemo.Model.ClientLogic

namespace SospDemo
open Chunks ClientWriter
variable {Metadata : Type}

theorem chunkSize_pos : 0 < chunkSize := by decide

def File.chunks (file : File) : List Bytes := chunksOf chunkSize file.content

namespace ClientWriter

def Accepts (writer : ClientWriter Metadata) (n : Nat) : Prop :=
  ∀ i < n, writer.writes (writer.attempts + i)

def after (writer : ClientWriter Metadata) (requests : List (Request Metadata)) :
    ClientWriter Metadata :=
  ⟨writer.writes, writer.attempts + requests.length, writer.written ++ requests⟩

@[simp] theorem start_written (writes : Nat → Bool) :
    (start writes : ClientWriter Metadata).written = [] := rfl

@[simp] theorem after_written (writer : ClientWriter Metadata)
    (requests : List (Request Metadata)) :
    (writer.after requests).written = writer.written ++ requests := rfl

theorem accepts_zero (writer : ClientWriter Metadata) : writer.Accepts 0 :=
  fun _ impossible => absurd impossible (Nat.not_lt_zero _)

theorem accepts_append {writer : ClientWriter Metadata} (requests : List (Request Metadata))
    {n : Nat} : writer.Accepts (requests.length + n) ↔
      writer.Accepts requests.length ∧ (writer.after requests).Accepts n := by
  simp only [Accepts, after, add_assoc]
  constructor
  · intro accepts
    exact ⟨fun i bound => accepts i (by omega), fun i bound => accepts _ (by omega)⟩
  · rintro ⟨first, rest⟩ i bound
    by_cases early : i < requests.length
    · exact first i early
    · have later := rest (i - requests.length) (by omega)
      rwa [Nat.add_sub_cancel' (Nat.le_of_not_lt early)] at later

theorem accepts_succ {writer : ClientWriter Metadata} (request : Request Metadata) {n : Nat} :
    writer.Accepts (n + 1) ↔ writer.Accepts 1 ∧ (writer.after [request]).Accepts n := by
  rw [Nat.add_comm]
  exact accepts_append [request]

theorem accepts_chunks (writer : ClientWriter Metadata) (chunks : List Bytes) (n : Nat) :
    writer.Accepts (chunks.length + n) ↔
      writer.Accepts chunks.length ∧ (writer.after (chunks.map .fileData)).Accepts n := by
  have split := @accepts_append Metadata writer (chunks.map .fileData) n
  rwa [List.length_map] at split

theorem after_append (writer : ClientWriter Metadata) (first rest : List (Request Metadata)) :
    (writer.after first).after rest = writer.after (first ++ rest) := by
  simp [after, add_assoc]

@[simp] theorem after_nil (writer : ClientWriter Metadata) : writer.after [] = writer := by
  simp [after]

theorem accepts_one {writer : ClientWriter Metadata} :
    writer.Accepts 1 ↔ writer.writes writer.attempts := by
  simp [Accepts]

theorem write_true {writer next : ClientWriter Metadata} {request : Request Metadata}
    (wrote : writer.write request = (true, next)) :
    writer.Accepts 1 ∧ next = writer.after [request] := by
  rw [accepts_one]
  unfold write at wrote
  by_cases accepts : writer.writes writer.attempts <;> simp only [accepts] at wrote <;> cases wrote
  exact ⟨accepts, rfl⟩

theorem write_false {writer next : ClientWriter Metadata} {request : Request Metadata}
    (failed : writer.write request = (false, next)) :
    ¬ writer.Accepts 1 ∧ next.written = writer.written := by
  rw [accepts_one]
  unfold write at failed
  by_cases accepts : writer.writes writer.attempts <;> simp only [accepts] at failed <;> cases failed
  exact ⟨accepts, rfl⟩

end ClientWriter

theorem take_nextSize (l : Bytes) : l.take (nextSize l.length) = l.take chunkSize := by
  unfold nextSize
  split
  · rw [List.take_length, List.take_of_length_le (by omega)]
  · rfl

theorem drop_nextSize (l : Bytes) : l.drop (nextSize l.length) = l.drop chunkSize := by
  unfold nextSize
  split
  · rw [List.drop_length, List.drop_of_length_le (by omega)]
  · rfl

theorem chunksOf_drop {data : Bytes} {offset : Nat} (more : data.length - offset > 0) :
    chunksOf chunkSize (data.drop offset) =
      (data.drop offset).take (nextSize (data.length - offset)) ::
        chunksOf chunkSize (data.drop (offset + nextSize (data.length - offset))) := by
  have left : data.drop offset ≠ [] := by
    rw [ne_eq, List.drop_eq_nil_iff]
    omega
  rw [chunksOf_of_ne_nil chunkSize_pos left, ← take_nextSize, ← drop_nextSize, List.length_drop,
    List.drop_drop]

theorem nextSize_le (left : Nat) : nextSize left ≤ left := by
  unfold nextSize
  split <;> omega

theorem uploadLoop_of_accepts (data : Bytes) {offset : Nat} {writer : ClientWriter Metadata}
    (within : offset ≤ data.length)
    (accepts : writer.Accepts (chunksOf chunkSize (data.drop offset)).length) :
    uploadLoop data data.length offset writer =
      (data.length, writer.after ((chunksOf chunkSize (data.drop offset)).map .fileData)) := by
  fun_induction uploadLoop data data.length offset writer with
  | case1 offset writer more size failed wrote =>
      rw [chunksOf_drop more, List.length_cons, accepts_succ .notSet] at accepts
      exact absurd accepts.1 (write_false wrote).1
  | case2 offset writer more size next wrote ih =>
      obtain ⟨-, rfl⟩ := write_true wrote
      have smaller := nextSize_le (data.length - offset)
      rw [chunksOf_drop more] at accepts ⊢
      rw [List.length_cons, accepts_succ (.fileData ((data.drop offset).take size))] at accepts
      rw [ih (by omega) accepts.2, after_append]
      rfl
  | case3 offset writer finished =>
      have nothing : data.drop offset = [] := by
        rw [List.drop_eq_nil_iff]
        omega
      simp only [nothing, chunksOf_nil, List.map_nil, after_nil, Prod.mk.injEq, and_true]
      omega

theorem uploadLoop_of_refused (data : Bytes) {offset : Nat} {writer : ClientWriter Metadata}
    (within : offset ≤ data.length)
    (refused : ¬ writer.Accepts (chunksOf chunkSize (data.drop offset)).length) :
    (uploadLoop data data.length offset writer).1 ≠ data.length ∧
      ∃ sent, sent <+: chunksOf chunkSize (data.drop offset) ∧
        sent ≠ chunksOf chunkSize (data.drop offset) ∧
        (uploadLoop data data.length offset writer).2.written =
          writer.written ++ sent.map .fileData := by
  fun_induction uploadLoop data data.length offset writer with
  | case1 offset writer more size failed wrote =>
      rw [chunksOf_drop more]
      exact ⟨by dsimp only; omega, [], List.nil_prefix, (List.cons_ne_nil _ _).symm,
        by simp [(write_false wrote).2]⟩
  | case2 offset writer more size next wrote ih =>
      obtain ⟨accepted, rfl⟩ := write_true wrote
      have smaller := nextSize_le (data.length - offset)
      rw [chunksOf_drop more] at refused ⊢
      rw [List.length_cons, accepts_succ (.fileData ((data.drop offset).take size))] at refused
      obtain ⟨short, sent, isPrefix, different, written⟩ :=
        ih (by omega) fun accepts => refused ⟨accepted, accepts⟩
      refine ⟨short, _ :: sent, List.prefix_cons_inj _ |>.mpr isPrefix, ?_, ?_⟩
      · rwa [ne_eq, List.cons_inj_right]
      · rw [written]
        simp [size]
  | case3 offset writer finished =>
      have nothing : data.drop offset = [] := by
        rw [List.drop_eq_nil_iff]
        omega
      exact absurd (by simpa [nothing] using accepts_zero writer) refused

structure File.Readable (file : File) : Prop where
  stats : file.stats
  accessible : file.accessible
  regular : file.regular

structure File.Mapped (file : File) : Prop where
  opens : file.opens
  maps : file.maps
  nonempty : file.content ≠ []

theorem fileUploader_unmapped {file : File} (writer : ClientWriter Metadata)
    (unmapped : ¬ file.Mapped) :
    (fileUploader file file.content.length writer).1 ≠ file.content.length ∧
      (fileUploader file file.content.length writer).2 = writer := by
  unfold fileUploader
  split
  · exact ⟨by dsimp only; omega, rfl⟩
  split
  · exact ⟨by dsimp only; omega, rfl⟩
  · refine absurd ?_ unmapped
    constructor <;> simp_all

theorem fileUploader_mapped {file : File} (writer : ClientWriter Metadata) (mapped : file.Mapped) :
    (fileUploader file file.content.length writer).2 =
        (uploadLoop file.content file.content.length 0 writer).2 ∧
      ((fileUploader file file.content.length writer).1 = file.content.length ↔
        (uploadLoop file.content file.content.length 0 writer).1 = file.content.length ∧
          file.unmaps ∧ file.closes) := by
  simp only [fileUploader, mapped.opens, mapped.maps, List.length_eq_zero_iff, mapped.nonempty,
    Bool.not_true, Bool.false_eq_true, decide_false, Bool.or_self, if_false]
  cases unmaps : file.unmaps with
  | false =>
      refine ⟨rfl, ?_⟩
      simp only [Bool.not_false, if_true, Bool.false_eq_true, false_and, and_false, iff_false]
      omega
  | true =>
      cases closes : file.closes with
      | false =>
          refine ⟨rfl, ?_⟩
          simp only [Bool.not_true, Bool.false_eq_true, if_false, Bool.not_false, if_true,
            and_false, iff_false]
          omega
      | true => exact ⟨rfl, by simp⟩

end SospDemo
