import SospDemo.Model.FunctionTierGrpc
import SospDemo.Model.CategorizerTier

/-!
# The function tier

The handlers of `function_tier.cpp`. A handler ends, or contacts one node of the categorizer tier
and ends with what that node returns. The nodes of the function tier keep no state between
requests.
-/

namespace SospDemo

inductive Status
  | ok
  | cancelled
  deriving DecidableEq

structure PhotoReply where
  desc : String
  deriving DecidableEq

structure ModelReply where
  errorCode : Int
  errorDesc : String
  deriving DecidableEq

/-- An exception that leaves a handler: `at` past the end, or one the contacted node threw. -/
inductive HandlerException (Exn : Type)
  | outOfRange
  | remote (e : Exn)

/-- How far a handler gets by itself; `outOfRange` is a vector index past the end. What it resumes
with is what `p2p_send` and `get` return or throw. -/
inductive Handler (Node Call Ret Result : Type)
  | finished (result : Result)
  | outOfRange
  | p2pSend (target : Node) (call : Call) (resume : Ret → Result)

namespace FunctionTier
variable {Node : Type}

/-- `shards[tag % shards.size()][pick]`. The code takes `pick = 0` and announces load balancing. -/
def target (shards : List (List Node)) (tag : UInt32) (pick : Nat) : Option Node :=
  (shards[tag.toNat % shards.length]?).bind fun members => members[pick]?

def multipleTags : String := "Multiple tags support to be implemented."

def replyString : List Guess → Option String
  | [] => none
  | first :: rest => some (rest.foldl (fun text guess => text ++ " or " ++ guess.guess) first.guess)

def finishWhatsthis {Exn : Type} (responses : List (Outcome Exn)) :
    Except (HandlerException Exn) (Status × PhotoReply) := do
  let guesses ← responses.mapM fun response => response.mapError .remote
  match replyString guesses with
  | none => throw .outOfRange
  | some text => return (.ok, ⟨text⟩)

def whatsthis (Exn : Type) (heap : Allocator) (shards : List (List Node)) (pick : Nat)
    (stream : List PhotoRequest) (reply : PhotoReply) :
    Handler Node Photo (Outcome Exn) (Except (HandlerException Exn) (Status × PhotoReply)) :=
  match parseGrpcWhatsthisArgs heap stream with
  | .error .requestCancel => .finished (.ok (.cancelled, reply))
  | .ok args =>
      if args.tags.length > 1 then .finished (.ok (.ok, ⟨multipleTags⟩))
      else
        match args.tags[0]? with
        | none => .outOfRange
        | some tag =>
            match target shards tag pick with
            | none => .outOfRange
            | some node =>
                let photo : Photo := ⟨tag, .ofBuffer args.photoData args.photoSize.toNat⟩
                .p2pSend node photo fun response => finishWhatsthis [response]

def installReply (ret : Int) : Status × ModelReply :=
  (.ok, ⟨ret, if ret = 0 then "Installed model successfully." else "Some error occurred!"⟩)

def finishInstallModel {Exn : Type} (response : Except Exn Int) :
    Except (HandlerException Exn) (Status × ModelReply) := do
  let ret ← response.mapError .remote
  return installReply ret

def installModel (Exn : Type) (heap : Allocator) (shards : List (List Node)) (pick : Nat)
    (stream : List InstallModelRequest) (reply : ModelReply) :
    Handler Node OrderedOp (Except Exn Int) (Except (HandlerException Exn) (Status × ModelReply)) :=
  match parseGrpcInstallArgs heap stream with
  | .error .requestCancel => .finished (.ok (.cancelled, reply))
  | .ok args =>
      match target shards args.tag pick with
      | none => .outOfRange
      | some node =>
          let modelDataWrapper := BlobWrapper.ofBuffer args.modelData args.dataSize.toNat
          .p2pSend node
            (CategorizerTier.installModel args.tag args.synsetSize args.symbolSize args.paramsSize
              modelDataWrapper)
            finishInstallModel

def removeReply (ret : Int) : Status × ModelReply :=
  (.ok, ⟨ret, if ret = 0 then "Removed model successfully." else "Some error occurred!"⟩)

def finishRemoveModel {Exn : Type} (response : Except Exn Int) :
    Except (HandlerException Exn) (Status × ModelReply) := do
  let ret ← response.mapError .remote
  return removeReply ret

def removeModel (Exn : Type) (shards : List (List Node)) (pick : Nat) (tag : UInt32) :
    Handler Node OrderedOp (Except Exn Int) (Except (HandlerException Exn) (Status × ModelReply)) :=
  match target shards tag pick with
  | none => .outOfRange
  | some node => .p2pSend node (CategorizerTier.removeModel tag) finishRemoveModel

@[simp] theorem finishWhatsthis_guess {Exn : Type} (guess : Guess) :
    finishWhatsthis [(.ok guess : Outcome Exn)] = .ok (.ok, ⟨guess.guess⟩) := rfl

end FunctionTier
end SospDemo
