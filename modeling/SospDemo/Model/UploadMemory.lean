import SospDemo.Model.BlobStore

/-!
# The memory of the upload handlers

`parse_grpc_install_args` and `parse_grpc_whatsthis_args` with the buffers they allocate, up to the
destructor of what they return. Any number of handlers share one memory; a step of one is a `Read`
and what follows it, or a use of the parsed arguments. `delete` frees what `new char[]` and `malloc`
return.
-/

namespace SospDemo
open Buffers

/-- `ParsedInstallArguments` or `ParsedWhatsThisArguments`; `data` is `none` for `nullptr`. -/
structure ParsedArguments (Metadata : Type) where
  metadata : Option Metadata
  data : Option Nat
  deriving DecidableEq

/-- Where a handler is, with the rest of its stream and the objects it has. `sent` is what it has
given to `p2p_send`; a cancelled handler has left the parser with its local `data_buf`. -/
inductive UploadPc (Metadata : Type)
  | checkRequest (stream : List (Request Metadata))
  | readDataArg (metadata : Metadata) (dataBuf offset : Nat) (stream : List (Request Metadata))
  | returned (temporary : ParsedArguments Metadata)
  | parsed (parsedArgs : ParsedArguments Metadata) (sent : Option Bytes)
  | ended (sent : Option Bytes)
  | cancelled (dataBuf : Option Nat)
  deriving DecidableEq

inductive UploadAction (R : Type)
  | next (r : R) (junk : Nat → UInt8)
  | send (r : R)
  | destroy (r : R)

structure UploadHandlers (R Metadata : Type) where
  pc : R → UploadPc Metadata
  memory : Memory UInt8

namespace UploadHandlers
variable {R Metadata : Type}

def initial (streams : R → List (Request Metadata)) : UploadHandlers R Metadata :=
  ⟨fun r => .checkRequest (streams r), []⟩

/-- `memcpy(data_buf + offset, …)`. -/
def copyAt (memory : Memory UInt8) (dataBuf offset : Nat) (data : Bytes) :
    Except Undefined (Memory UInt8) :=
  match memory.buffer dataBuf with
  | some content =>
      if offset + data.length ≤ content.length
      then .ok (memory.write dataBuf (memcpy content offset data))
      else .error .undefined
  | none => .error .undefined

def delete (memory : Memory UInt8) : Option Nat → Except Undefined (Memory UInt8)
  | none => .ok memory
  | some data =>
      match memory.buffer data with
      | some _ => .ok (memory.free data)
      | none => .error .undefined

def advance (dataSize : Metadata → Nat) (junk : Nat → UInt8) (memory : Memory UInt8) :
    UploadPc Metadata → Option (Except Undefined (UploadPc Metadata × Memory UInt8))
  | .checkRequest stream =>
      match SospDemo.checkRequest stream with
      | .error _ => some (.ok (.cancelled none, memory))
      | .ok (metadata, rest) =>
          let junk := (List.range (dataSize metadata)).map junk
          some (.ok (.readDataArg metadata memory.length 0 rest, memory.alloc junk))
  | .readDataArg metadata dataBuf offset (.fileData data :: rest) =>
      if offset + data.length > dataSize metadata then
        some (.ok (.cancelled (some dataBuf), memory))
      else
        some ((copyAt memory dataBuf offset data).map fun memory =>
          (.readDataArg metadata dataBuf (offset + data.length) rest, memory))
  | .readDataArg _ dataBuf _ (_ :: _) => some (.ok (.cancelled (some dataBuf), memory))
  | .readDataArg metadata dataBuf offset [] =>
      if offset ≠ dataSize metadata then some (.ok (.cancelled (some dataBuf), memory))
      else some (.ok (.returned ⟨some metadata, some dataBuf⟩, memory))
  | .returned temporary =>
      -- the move assignment nulls the pointer of the temporary, which is then destroyed
      let parsedArgs := temporary
      let temporary := { temporary with data := none }
      some ((delete memory temporary.data).map fun memory => (.parsed parsedArgs none, memory))
  | .parsed .. | .ended _ | .cancelled _ => none

/-- `p2p_send` reads as many bytes as were claimed. -/
def readArguments (dataSize : Metadata → Nat) (memory : Memory UInt8)
    (parsedArgs : ParsedArguments Metadata) : Except Undefined Bytes :=
  match parsedArgs.metadata, parsedArgs.data.bind memory.buffer with
  | some metadata, some content =>
      if dataSize metadata ≤ content.length then .ok (content.take (dataSize metadata))
      else .error .undefined
  | _, _ => .error .undefined

def act (dataSize : Metadata → Nat) (memory : Memory UInt8) (pc : UploadPc Metadata) :
    UploadAction R → Option (Except Undefined (UploadPc Metadata × Memory UInt8))
  | .next _ junk => advance dataSize junk memory pc
  | .send _ =>
      match pc with
      | .parsed parsedArgs none =>
          some ((readArguments dataSize memory parsedArgs).map fun bytes =>
            (.parsed parsedArgs (some bytes), memory))
      | _ => none
  | .destroy _ =>
      match pc with
      | .parsed parsedArgs sent =>
          some ((delete memory parsedArgs.data).map fun memory => (.ended sent, memory))
      | _ => none

def handler : UploadAction R → R
  | .next r _ | .send r | .destroy r => r

def step [DecidableEq R] (dataSize : Metadata → Nat)
    (state : Except Undefined (UploadHandlers R Metadata)) (a : UploadAction R) :
    Option (Except Undefined (UploadHandlers R Metadata)) :=
  match state with
  | .error _ => none
  | .ok s =>
      (act dataSize s.memory (s.pc (handler a)) a).map fun result =>
        result.map fun (pc, memory) => ⟨Function.update s.pc (handler a) pc, memory⟩

end UploadHandlers
end SospDemo
