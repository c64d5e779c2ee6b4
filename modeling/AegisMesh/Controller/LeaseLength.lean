import AegisMesh.Controller.Scoped
import AegisMesh.Registry.Calls

/-!
# How long a lease lasts

`leaseTTL` multiplies without a check, and the registry only looks whether the product is positive.
-/

open Lib

namespace AegisMesh.Controller

open Registry Security

section Registry

variable {r r' : MemoryRegistry} {ctx : Ctx} {now : ℕ} {ttl : ℤ}

end Registry

/-! ## Requests -/

end AegisMesh.Controller
