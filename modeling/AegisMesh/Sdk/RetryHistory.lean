import AegisMesh.Controller.PolicyService
import AegisMesh.Sdk.Policy

/-! # Retry settings and the snapshots before the last -/

namespace AegisMesh.Sdk

open Lib Policy Controller

/-! ## What a run keeps -/

variable {options : DialOptions}

end AegisMesh.Sdk
