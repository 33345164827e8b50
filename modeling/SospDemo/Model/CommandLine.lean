import SospDemo.Model.ClientLogic
import SospDemo.Model.FunctionTier

/-!
# The program

`main` of `main.cpp`, `do_client` of `client_logic.cpp`, and what the three commands of the client
print. A command line is the list of its arguments, the name of the program first.
-/

namespace SospDemo

inductive ClientCommand
  | inference (tags photoFile : Bytes)
  | installModel (tag : UInt32) (synsetFile symbolFile paramsFile : Bytes)
  | removeModel (tag : UInt32)
  deriving DecidableEq

structure GrpcStatus where
  errorCode : Int
  errorDetails : String
  errorMessage : String
  deriving DecidableEq

def GrpcStatus.cancelled : GrpcStatus := ⟨1, "", ""⟩

inductive Printed
  | help (complaint : Option Bytes)
  | serverStarted
  | invalidFile
  | uploadFailed
  | modelReply (returnCode : Int) (description : String)
  | photoDescription (description : String)
  | grpcStatus (status : GrpcStatus)
  | serverCrashed
  deriving DecidableEq

namespace Printed

/-- `unhandled` is the status gRPC makes of a handler that throws. -/
def ofModel {Exn : Type} (unhandled : GrpcStatus) :
    Except (HandlerException Exn) (Status × ModelReply) → Printed
  | .ok (.ok, reply) => .modelReply reply.errorCode reply.errorDesc
  | .ok (.cancelled, _) => .grpcStatus .cancelled
  | .error _ => .grpcStatus unhandled

def ofPhoto {Exn : Type} (unhandled : GrpcStatus) :
    Except (HandlerException Exn) (Status × PhotoReply) → Printed
  | .ok (.ok, reply) => .photoDescription reply.desc
  | .ok (.cancelled, _) => .grpcStatus .cancelled
  | .error _ => .grpcStatus unhandled

end Printed
end SospDemo
