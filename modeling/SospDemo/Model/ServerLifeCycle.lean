import Mathlib.Logic.Function.Basic
import Mathlib.Tactic

/-!
# Starting and shutting down the gRPC server

`start`, `shutdown`, the constructor and the destructor of `function_tier.hpp` and
`function_tier-grpc.cpp`, cut where another thread may run in between. A server is a number; gRPC
shuts a server down when it destroys it.
-/

namespace SospDemo

inductive ServerMethod
  | start
  | shutdown
  deriving DecidableEq

inductive ServerPc
  | outside
  | firstTest (m : ServerMethod)
  | lock (m : ServerMethod)
  | secondTest (m : ServerMethod)
  | buildAndStart
  | assign (built : Option Nat)
  | shutdownAndWait
  | release (m : ServerMethod)
  deriving DecidableEq

inductive ServerEvent (Thread : Type)
  | called (m : ServerMethod) (t : Thread)
  | returned (m : ServerMethod) (t : Thread)
  deriving DecidableEq

namespace ServerMethod

def leaves (started : Bool) : ServerMethod → Bool
  | .start => started
  | .shutdown => !started

def body : ServerMethod → ServerPc
  | .start => .buildAndStart
  | .shutdown => .shutdownAndWait

end ServerMethod

namespace ServerPc

def holds : ServerPc → Bool
  | .outside | .firstTest _ | .lock _ => false
  | _ => true

def inStart : ServerPc → Bool
  | .firstTest m | .lock m | .secondTest m | .release m => m = .start
  | .buildAndStart | .assign _ => true
  | .outside | .shutdownAndWait => false

end ServerPc

/-- `built` servers have been built so far, and those in `running` are not shut down. -/
structure ServerLifeCycle (Thread : Type) where
  started : Bool
  serviceMutex : Option Thread
  server : Option Nat
  built : Nat
  running : List Nat
  pcs : Thread → ServerPc
  destructed : Bool
  events : List (ServerEvent Thread)

/-- `answer` is whether `BuildAndStart` returns a server. -/
inductive ServerAction (Thread : Type)
  | call (m : ServerMethod) (t : Thread)
  | destruct (t : Thread)
  | advance (t : Thread) (answer : Bool)

namespace ServerLifeCycle
variable {Thread : Type}

def cleared : ServerLifeCycle Thread := ⟨false, none, none, 0, [], fun _ => .outside, false, []⟩

variable [DecidableEq Thread]

def goto (s : ServerLifeCycle Thread) (t : Thread) (pc : ServerPc) : ServerLifeCycle Thread :=
  { s with pcs := Function.update s.pcs t pc }

def enter (s : ServerLifeCycle Thread) (m : ServerMethod) (t : Thread) : ServerLifeCycle Thread :=
  { s.goto t (.firstTest m) with events := s.events ++ [.called m t] }

def leave (s : ServerLifeCycle Thread) (m : ServerMethod) (t : Thread) : ServerLifeCycle Thread :=
  { s.goto t .outside with events := s.events ++ [.returned m t] }

def construct (t : Thread) : ServerLifeCycle Thread := cleared.enter .start t

def advance (s : ServerLifeCycle Thread) (t : Thread) (answer : Bool) :
    Option (ServerLifeCycle Thread) :=
  match s.pcs t with
  | .outside => none
  | .firstTest m => if m.leaves s.started then some (s.leave m t) else some (s.goto t (.lock m))
  | .lock m =>
      if s.serviceMutex = none then some { s.goto t (.secondTest m) with serviceMutex := some t }
      else none
  | .secondTest m =>
      if m.leaves s.started then some (s.goto t (.release m)) else some (s.goto t m.body)
  | .buildAndStart =>
      if answer then
        some { s.goto t (.assign (some s.built)) with
          built := s.built + 1
          running := s.running ++ [s.built] }
      else some (s.goto t (.assign none))
  | .assign built =>
      some { s.goto t (.release .start) with
        server := built
        running := match s.server with
          | some old => s.running.erase old
          | none => s.running }
  | .shutdownAndWait =>
      -- there is nothing to call on a null server
      match s.server with
      | some server => some { s.goto t (.release .shutdown) with running := s.running.erase server }
      | none => none
  | .release m => some { s.leave m t with serviceMutex := none }

def step (s : ServerLifeCycle Thread) : ServerAction Thread → Option (ServerLifeCycle Thread)
  | .call m t => if s.pcs t = .outside ∧ s.destructed = false then some (s.enter m t) else none
  | .destruct t =>
      if s.pcs t = .outside ∧ s.destructed = false
      then some { s.enter .shutdown t with destructed := true }
      else none
  | .advance t answer => s.advance t answer

end ServerLifeCycle
end SospDemo
