import SospDemo.FrontEnd.TagList
import SospDemo.Model.CommandLine

namespace SospDemo
open Pieces

inductive UserCommand
  | infer (tags : List UInt32) (photoFile : Bytes)
  | install (tag : UInt32) (synsetFile symbolFile paramsFile : Bytes)
  | remove (tag : UInt32)
  deriving DecidableEq

def UserCommand.files : UserCommand → List Bytes
  | .infer _ photoFile => [photoFile]
  | .install _ synsetFile symbolFile paramsFile => [synsetFile, symbolFile, paramsFile]
  | .remove _ => []

structure Usage where
  name : Bytes
  complaint : Bytes
  read : List Bytes → Option UserCommand

def tagList (text : Bytes) : List UInt32 := (pieces 44 text).map tagOf

def readInference : List Bytes → Option UserCommand
  | tags :: photoFile :: _ => some (.infer (tagList tags) photoFile)
  | _ => none

def readInstallModel : List Bytes → Option UserCommand
  | tag :: synsetFile :: symbolFile :: paramsFile :: _ =>
      some (.install (tagOf tag) synsetFile symbolFile paramsFile)
  | _ => none

def readRemoveModel : List Bytes → Option UserCommand
  | tag :: _ => some (.remove (tagOf tag))
  | _ => none

def usages : List Usage :=
  [⟨ascii "inference", ascii "Invalid inference command.", readInference⟩,
    ⟨ascii "installmodel", ascii "Invalid install model command.", readInstallModel⟩,
    ⟨ascii "removemodel", ascii "Invalid remove model command.", readRemoveModel⟩]

def Usage.command (usage : Usage) (args : List Bytes) : Except Printed UserCommand :=
  match usage.read args with
  | none => .error (.help (some usage.complaint))
  | some asked => .ok asked

def clientCommand (argv : List Bytes) : Except Printed UserCommand :=
  match argv[3]? with
  | none => .error (.help (some (ascii "Invalid command.")))
  | some name =>
      match usages.find? (·.name = name) with
      | none => .error (.help (some (ascii "Invalid client command:" ++ name)))
      | some usage => usage.command (argv.drop 4)

def command (argv : List Bytes) : Except Printed UserCommand :=
  match argv[1]? with
  | none => .error (.help none)
  | some mode =>
      if mode = ascii "server" then .error .serverStarted
      else if mode = ascii "client" then clientCommand argv
      else .error (.help (some (ascii "Unknown mode:" ++ mode)))

def ClientCommand.asked : ClientCommand → UserCommand
  | .inference tags photoFile => .infer (addTags tags) photoFile
  | .installModel tag synsetFile symbolFile paramsFile =>
      .install tag synsetFile symbolFile paramsFile
  | .removeModel tag => .remove tag

end SospDemo
