import AegisMesh.Controller.Delivery
import AegisMesh.Fault.Tick
import AegisMesh.Sdk.Freshness
import AegisMesh.Sdk.Epochs
import AegisMesh.Sdk.Identity
import AegisMesh.Controller.Pruning
import AegisMesh.Registry.Etcd
import AegisMesh.Policy.FileStore
import AegisMesh.Policy.EtcdWatch
import AegisMesh.Sdk.PolicyWatch
import AegisMesh.Notify
import AegisMesh.Registry.LiveView
import AegisMesh.Registry.Sweeps
import AegisMesh.Registry.FileFence
import AegisMesh.Telemetry.Conservation
import AegisMesh.Registry.FileRegistry
import AegisMesh.Registry.LeaseWatch
import AegisMesh.Registry.MemoryWatch
import AegisMesh.Fault.Ejection
import AegisMesh.Sdk.Budgets
import AegisMesh.Sdk.Permits
import AegisMesh.Controller.Mediation
import AegisMesh.Registry.Compaction
import AegisMesh.Registry.WALCalls
import AegisMesh.Controller.Watching
import AegisMesh.Fault.Signals
import AegisMesh.Fault.Merging
import AegisMesh.Fault.TimedSaves
import AegisMesh.Controller.Attribution
import AegisMesh.Registry.WALRoundTrip
import AegisMesh.Registry.HeartbeatLoss
import AegisMesh.Registry.FailedWrites
import AegisMesh.Trace.Shutdown
import AegisMesh.Fault.Reconfigure
import AegisMesh.Controller.LeaseLength
import AegisMesh.Sdk.PolicyPaths
import AegisMesh.Telemetry.Quantiles
import AegisMesh.Sdk.WatchRetry
import AegisMesh.Sdk.Cancelled
import AegisMesh.Retry.Admission
import AegisMesh.CircuitBreaker.Breaker
import AegisMesh.Routing.RoundRobin
import AegisMesh.Ebpf.Aggregator
import AegisMesh.Verifier.Spec
import AegisMesh.Fault.LoadedHealth
import AegisMesh.Security.Principals
import AegisMesh.Controller.SharedHealth
import AegisMesh.Controller.HotApply
