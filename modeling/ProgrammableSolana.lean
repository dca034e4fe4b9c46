import ProgrammableSolana.Wire.Formats
import ProgrammableSolana.Wire.RoutedFormat
import ProgrammableSolana.Engines.Pricing
import ProgrammableSolana.Root.Bindings
import ProgrammableSolana.Root.Commutation
import ProgrammableSolana.Generated.Runs
import ProgrammableSolana.Routed.Finality
import ProgrammableSolana.Routed.Intents
import ProgrammableSolana.Cores.Preimages
import ProgrammableSolana.Cores.Seeds
import ProgrammableSolana.Cores.Progress
import ProgrammableSolana.Cores.Bounds
import ProgrammableSolana.Cores.Freshness
import ProgrammableSolana.Cores.Product
import ProgrammableSolana.Generated.Completeness
import ProgrammableSolana.Routed.Completeness
import ProgrammableSolana.Cores.Capabilities
import ProgrammableSolana.Cores.Containment
import ProgrammableSolana.Routed.Forwarding
import ProgrammableSolana.Routed.Timing
import ProgrammableSolana.Routed.OneShot
import ProgrammableSolana.Routed.Evidence
