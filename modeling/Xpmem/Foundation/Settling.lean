import Mathlib.Data.List.Basic

/-!
# Steps that commute and may be repeated

A family of steps on states is settling when any two of them commute and a
step made twice is made once.  What a list of such steps leads to depends only
on which steps are in the list, not on their order or number.
-/

namespace Xpmem.Foundation

variable {σ ρ : Type}

namespace Settling

variable {act : σ → ρ → σ} {good : σ → Prop} {allowed : ρ → Prop}

end Settling

end Xpmem.Foundation
