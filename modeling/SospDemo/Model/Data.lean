import Mathlib.Tactic

/-!
# The values the tiers exchange

`blob.hpp` and `inference_engine.hpp`. A blob is modelled by its bytes; `ssize_t` is `Int`, since
the size of an object in memory never reaches its limit, and `uint32_t` is `UInt32`.
-/

namespace SospDemo

abbrev Bytes := List UInt8

def ascii (text : String) : Bytes := text.toList.map fun c => UInt8.ofNat c.toNat

@[ext] structure Blob where
  bytes : Bytes
  deriving DecidableEq, Inhabited

def Blob.size (b : Blob) : Nat := b.bytes.length

def Blob.ofBuffer (b : Bytes) (s : Nat) : Blob := ⟨b.take s⟩

@[ext] structure BlobWrapper where
  bytes : Bytes
  deriving DecidableEq, Inhabited

def BlobWrapper.size (b : BlobWrapper) : Nat := b.bytes.length

def BlobWrapper.ofBuffer (b : Bytes) (s : Nat) : BlobWrapper := ⟨b.take s⟩

@[simp] theorem Blob.ofBuffer_wrapper (b : BlobWrapper) : Blob.ofBuffer b.bytes b.size = ⟨b.bytes⟩ := by
  simp [Blob.ofBuffer, BlobWrapper.size]

structure Photo where
  tag : UInt32
  photoData : BlobWrapper
  deriving DecidableEq, Inhabited

/-- The answer to an inference. `p` is `none` where the code leaves the field unwritten. -/
structure Guess where
  guess : String
  p : Option Rat
  deriving DecidableEq

structure Model where
  synsetSize : Int
  symbolSize : Int
  paramsSize : Int
  modelData : Blob
  deriving DecidableEq

instance : Inhabited Model := ⟨⟨0, 0, 0, ⟨[]⟩⟩⟩

namespace Model

def synsetString (m : Model) : Bytes := m.modelData.bytes.take m.synsetSize.toNat

def getSymbolJson (m : Model) : Bytes :=
  (m.modelData.bytes.drop m.synsetSize.toNat).take m.symbolSize.toNat

def parametersBuffer (m : Model) : Bytes :=
  (m.modelData.bytes.drop (m.synsetSize + m.symbolSize).toNat).take m.paramsSize.toNat

structure LaidOut (m : Model) : Prop where
  synset_nonneg : 0 ≤ m.synsetSize
  symbol_nonneg : 0 ≤ m.symbolSize
  params_nonneg : 0 ≤ m.paramsSize
  sum_eq : m.synsetSize + m.symbolSize + m.paramsSize = m.modelData.size

def readRanges (m : Model) : List (Int × Int) :=
  [(0, m.synsetSize), (m.synsetSize, m.synsetSize + m.symbolSize),
    (m.synsetSize + m.symbolSize, m.synsetSize + m.symbolSize + m.paramsSize)]

theorem LaidOut.readRanges_inside {m : Model} (laid : m.LaidOut) :
    ∀ range ∈ m.readRanges, 0 ≤ range.1 ∧ range.1 ≤ range.2 ∧ range.2 ≤ m.modelData.size := by
  obtain ⟨synset, symbol, params, sum⟩ := laid
  intro range mem
  simp only [readRanges, List.mem_cons, List.not_mem_nil, or_false] at mem
  rcases mem with rfl | rfl | rfl <;> dsimp only <;> omega

theorem LaidOut.slices {m : Model} (laid : m.LaidOut) :
    m.synsetString ++ m.getSymbolJson ++ m.parametersBuffer = m.modelData.bytes := by
  obtain ⟨synset, symbol, params, sum⟩ := laid
  have size : m.modelData.size = (m.modelData.bytes.length : Int) := rfl
  have rest : (m.modelData.bytes.drop (m.synsetSize + m.symbolSize).toNat).length ≤
      m.paramsSize.toNat := by
    rw [List.length_drop]
    omega
  rw [synsetString, getSymbolJson, parametersBuffer, List.take_of_length_le rest, List.append_assoc,
    Int.toNat_add synset symbol, ← List.drop_drop, List.take_append_drop, List.take_append_drop]

theorem laidOut_default : (default : Model).LaidOut := by
  constructor <;> decide

instance (m : Model) : Decidable m.LaidOut :=
  decidable_of_iff (0 ≤ m.synsetSize ∧ 0 ≤ m.symbolSize ∧ 0 ≤ m.paramsSize ∧
      m.synsetSize + m.symbolSize + m.paramsSize = m.modelData.size)
    ⟨fun ⟨a, b, c, d⟩ => ⟨a, b, c, d⟩, fun ⟨a, b, c, d⟩ => ⟨a, b, c, d⟩⟩

end Model

end SospDemo
