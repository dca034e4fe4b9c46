import ProgrammableSolana.Core.Growth
import ProgrammableSolana.Cores.Preimages
import ProgrammableSolana.Generated.Runs
import ProgrammableSolana.Root.Runs
import ProgrammableSolana.Routed.Runs

/-! No binding is accepted twice: each names the accounted input of its domain, and every execution
raises it. -/
namespace ProgrammableSolana.Cores

open ProgrammableSolana.Lib ProgrammableSolana.Solana ProgrammableSolana.Core
open ProgrammableSolana.Lib.Transactions (Move Ordered run trace trace_isStep trace_ordered)
open ProgrammableSolana.Wire.Routed (timingSingle timingPrepareCommit phaseTransition phasePrepare
  phaseCommit)

section Freshness

variable [Crypto]

/-- The domain a binding names and the accounted input it has read there. -/
def Hashed.read : Hashed → Option (Pubkey × UInt64)
  | .plan b => some (b.domain, b.accountedInputBefore)
  | .request b => some (b.domain, b.accountedInputBefore)
  | .execution b => some (b.domain, b.accountedInputBefore)
  | _ => none

variable {cfg : Config}

end Freshness

section RootCore

variable [Crypto]

end RootCore

section GeneratedCore

variable [Crypto]

end GeneratedCore

section RoutedCore

variable [Crypto]

end RoutedCore

end ProgrammableSolana.Cores
