import SospDemo.Engine.Object
import SospDemo.Locks.Provenance
import SospDemo.Service.Sessions

namespace SospDemo
open FirstMaximum Pieces Runs
variable {Net Symbol Exn : Type} {L : ShardLayout}

/-! ## The label an engine gives -/

namespace EngineState

end EngineState

/-! ## The files behind an upload -/

namespace LockedService

variable {runs : List ClientRun} {actions : List (LockedAction L)}

section Rose
open ShardLayout

end Rose

end LockedService
end SospDemo
