import SospDemo.Model.BlobStore
import SospDemo.Model.CategorizerTier

/-!
# The stored models as objects

What `ordered_install_model`, `ordered_remove_model` and `raw_models[tag]` do with the `Blob`s of
the models, constructor by constructor and destructor by destructor.
-/

namespace SospDemo

/-- The `Blob`s of a replica: those of the local `model` and of the temporary it is assigned, and
the one of each entry of `raw_models`. -/
inductive ModelVar
  | model
  | temporary
  | entry (tag : UInt32)
  deriving DecidableEq

structure ModelSizes where
  synsetSize : Int
  symbolSize : Int
  paramsSize : Int
  deriving DecidableEq

structure ModelObjects where
  sizes : StdMap UInt32 ModelSizes
  blobs : BlobStore ModelVar
  returned : List Int

inductive ModelAction
  | perform (op : OrderedOp)
  | subscript (tag : UInt32)
  deriving DecidableEq

namespace ModelObjects

def empty : ModelObjects := ⟨.empty, .empty, []⟩

/-- `heap p` is what a new buffer at `p` contains. -/
def orderedInstallModel (heap : Nat → Nat → UInt8) (s : ModelObjects) (tag : UInt32)
    (synsetSize symbolSize paramsSize : Int) (modelData : BlobWrapper) :
    Except Undefined (Int × ModelObjects) :=
  match s.sizes.find tag with
  | some _ => .ok (-1, s)
  | none => do
      let blobs := s.blobs.constructDefault .model
      let blobs ← blobs.construct .temporary modelData.bytes (heap blobs.memory.length)
      let blobs ← blobs.moveAssign .model .temporary
      let blobs ← blobs.destroy .temporary
      let blobs ← blobs.copyConstruct (.entry tag) .model (heap blobs.memory.length)
      let sizes := s.sizes.emplace tag ⟨synsetSize, symbolSize, paramsSize⟩
      let blobs ← blobs.destroy .model
      return (0, { s with sizes, blobs })

def orderedRemoveModel (s : ModelObjects) (tag : UInt32) : Except Undefined (Int × ModelObjects) :=
  match s.sizes.find tag with
  | none => .ok (-1, s)
  | some _ => do
      let blobs ← s.blobs.destroy (.entry tag)
      return (0, { s with sizes := s.sizes.erase tag, blobs })

/-- `raw_models[tag]`, which makes an entry of a default `Model` where there is none. -/
def subscript (s : ModelObjects) (tag : UInt32) : ModelObjects :=
  match s.sizes.find tag with
  | some _ => s
  | none =>
      { s with
        sizes := s.sizes.assign tag ⟨0, 0, 0⟩
        blobs := s.blobs.constructDefault (.entry tag) }

def act (heap : Nat → Nat → UInt8) (s : ModelObjects) :
    ModelAction → Except Undefined ModelObjects
  | .perform (.orderedInstallModel tag synsetSize symbolSize paramsSize modelData) =>
      (s.orderedInstallModel heap tag synsetSize symbolSize paramsSize modelData).map
        fun (ret, s) => { s with returned := s.returned ++ [ret] }
  | .perform (.orderedRemoveModel tag) =>
      (s.orderedRemoveModel tag).map fun (ret, s) => { s with returned := s.returned ++ [ret] }
  | .subscript tag => .ok (s.subscript tag)

def step (heap : Nat → Nat → UInt8) (state : Except Undefined ModelObjects) (a : ModelAction) :
    Option (Except Undefined ModelObjects) :=
  match state with
  | .ok s => some (s.act heap a)
  | .error _ => none

end ModelObjects
end SospDemo
