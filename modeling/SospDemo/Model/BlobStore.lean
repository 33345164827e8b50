import SospDemo.Library.Buffers
import SospDemo.Model.FunctionTierGrpc

/-!
# Blob objects

The constructors, assignments and destructor of `Blob` in `blob.cpp`, statement by statement, on
variables over a memory of buffers. The object on the right of an assignment is looked up where the
code reads it, so that it may be the object on the left.
-/

namespace SospDemo
open Buffers

/-- The members of a `Blob`; `bytes` is `none` for `nullptr`. -/
structure BlobObject where
  bytes : Option Nat
  size : Nat
  deriving DecidableEq

/-- An access through a null or deleted pointer or past the end of a buffer. -/
inductive Undefined
  | undefined
  deriving DecidableEq

structure BlobStore (Var : Type) where
  vars : Var → Option BlobObject
  memory : Memory UInt8

namespace BlobStore
variable {Var : Type}

def empty : BlobStore Var := ⟨fun _ => none, []⟩

def object (s : BlobStore Var) (v : Var) : Except Undefined BlobObject :=
  match s.vars v with
  | some o => .ok o
  | none => .error .undefined

/-- `new char[n]`; `junk` is what the new buffer contains. -/
def newChar (s : BlobStore Var) (n : Nat) (junk : Nat → UInt8) : Nat × BlobStore Var :=
  (s.memory.length, { s with memory := s.memory.alloc ((List.range n).map junk) })

def delete (s : BlobStore Var) : Option Nat → Except Undefined (BlobStore Var)
  | none => .ok s
  | some bytes =>
      match s.memory.buffer bytes with
      | some _ => .ok { s with memory := s.memory.free bytes }
      | none => .error .undefined

def read (s : BlobStore Var) (bytes : Option Nat) (n : Nat) : Except Undefined Bytes :=
  match bytes.bind s.memory.buffer with
  | some content => if n ≤ content.length then .ok (content.take n) else .error .undefined
  | none => .error .undefined

def bytesOf (s : BlobStore Var) (o : BlobObject) : Except Undefined Bytes :=
  if o.size = 0 then .ok [] else s.read o.bytes o.size

def copyTo (s : BlobStore Var) (bytes : Nat) (source : Bytes) : Except Undefined (BlobStore Var) :=
  match s.memory.buffer bytes with
  | some content =>
      if source.length ≤ content.length
      then .ok { s with memory := s.memory.write bytes (memcpy content 0 source) }
      else .error .undefined
  | none => .error .undefined

variable [DecidableEq Var]

def setObject (s : BlobStore Var) (v : Var) (o : BlobObject) : BlobStore Var :=
  { s with vars := Function.update s.vars v (some o) }

def construct (s : BlobStore Var) (this : Var) (b : Bytes) (junk : Nat → UInt8) :
    Except Undefined (BlobStore Var) := do
  let s := s.setObject this ⟨none, 0⟩
  if 0 < b.length then
    let (bytes, s) := s.newChar b.length junk
    let s := s.setObject this ⟨some bytes, 0⟩
    let s ← s.copyTo bytes b
    return s.setObject this ⟨some bytes, b.length⟩
  else return s

def constructDefault (s : BlobStore Var) (this : Var) : BlobStore Var := s.setObject this ⟨none, 0⟩

def copyConstruct (s : BlobStore Var) (this other : Var) (junk : Nat → UInt8) :
    Except Undefined (BlobStore Var) := do
  let s := s.setObject this ⟨none, 0⟩
  let source ← s.object other
  if 0 < source.size then
    let (bytes, s) := s.newChar source.size junk
    let s := s.setObject this ⟨some bytes, 0⟩
    let content ← s.read source.bytes source.size
    let s ← s.copyTo bytes content
    return s.setObject this ⟨some bytes, source.size⟩
  else return s

def moveConstruct (s : BlobStore Var) (this other : Var) : Except Undefined (BlobStore Var) := do
  let source ← s.object other
  let s := s.setObject this source
  return s.setObject other ⟨none, 0⟩

def destroy (s : BlobStore Var) (this : Var) : Except Undefined (BlobStore Var) := do
  let old ← s.object this
  let s ← s.delete old.bytes
  return { s with vars := Function.update s.vars this none }

def moveAssign (s : BlobStore Var) (this other : Var) : Except Undefined (BlobStore Var) := do
  let swp ← s.object other
  let old ← s.object this
  let s := s.setObject other old
  return s.setObject this swp

def copyAssign (s : BlobStore Var) (this other : Var) (junk : Nat → UInt8) :
    Except Undefined (BlobStore Var) := do
  let old ← s.object this
  let s ← s.delete old.bytes
  let source ← s.object other
  let s := s.setObject this ⟨old.bytes, source.size⟩
  if 0 < source.size then
    let (bytes, s) := s.newChar source.size junk
    let s := s.setObject this ⟨some bytes, source.size⟩
    -- `new` has replaced the pointer of `other` as well, if `other` is `this`
    let source ← s.object other
    let content ← s.read source.bytes source.size
    s.copyTo bytes content
  else return s.setObject this ⟨none, source.size⟩

end BlobStore

inductive BlobAction (Var : Type)
  | construct (this : Var) (b : Bytes) (junk : Nat → UInt8)
  | constructDefault (this : Var)
  | copyConstruct (this other : Var) (junk : Nat → UInt8)
  | moveConstruct (this other : Var)
  | destroy (this : Var)
  | moveAssign (this other : Var)
  | copyAssign (this other : Var) (junk : Nat → UInt8)

namespace BlobAction
variable {Var : Type}

def permitted (live : Var → Bool) : BlobAction Var → Bool
  | .construct this .. | .constructDefault this => !live this
  | .copyConstruct this other _ | .moveConstruct this other => !live this && live other
  | .destroy this => live this
  | .moveAssign this other | .copyAssign this other _ => live this && live other

end BlobAction

namespace BlobStore
variable {Var : Type} [DecidableEq Var]

def perform (s : BlobStore Var) : BlobAction Var → Except Undefined (BlobStore Var)
  | .construct this b junk => s.construct this b junk
  | .constructDefault this => .ok (s.constructDefault this)
  | .copyConstruct this other junk => s.copyConstruct this other junk
  | .moveConstruct this other => s.moveConstruct this other
  | .destroy this => s.destroy this
  | .moveAssign this other => s.moveAssign this other
  | .copyAssign this other junk => s.copyAssign this other junk

def live (s : BlobStore Var) (v : Var) : Bool := (s.vars v).isSome

def step (state : Except Undefined (BlobStore Var)) (a : BlobAction Var) :
    Option (Except Undefined (BlobStore Var)) :=
  match state with
  | .ok s => if a.permitted s.live then some (s.perform a) else none
  | .error _ => none

end BlobStore
end SospDemo
