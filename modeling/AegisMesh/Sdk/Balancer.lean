import AegisMesh.CircuitBreaker.Limiter
import AegisMesh.Status
import Mathlib.Data.Rat.Defs

/-!
# Pickers and the limiters they share

gRPC has a new picker built whenever the addresses change. The limiters live in a pool beside the pickers.
-/

namespace AegisMesh

namespace Code

def normalTraffic (c : Code) : Bool :=
  match c.normalized with
  | .healthy | .degraded => true
  | _ => false

def isProbing (c : Code) : Bool := c = .probing

end Code

namespace Sdk

open Lib CircuitBreaker

/-! ## Pickers -/

structure ReadyAddress where
  addr : String
  status : Code := .unspecified
deriving DecidableEq

structure PickerItem where
  address : String
  status : Code
  limiter : ℕ
deriving DecidableEq

def adaptiveDefaultProbeThreshold : ℕ := 2

structure AdaptivePicker where
  items : List PickerItem
  normalIndexes : List ℕ
  probingIndexes : List ℕ
  probeThreshold : ℕ

def newPicker (items : List PickerItem) : AdaptivePicker where
  items := items
  normalIndexes := (List.range items.length).filter fun i => (items[i]?).any (·.status.normalTraffic)
  probingIndexes := (List.range items.length).filter fun i =>
    (items[i]?).any fun item => !item.status.normalTraffic && item.status.isProbing
  probeThreshold := adaptiveDefaultProbeThreshold

/-- What the code leaves open: the random draws, the costs that the statistics give, the context, and which
completion `sync.Pool` hands out, if it hands out an old one. -/
structure PickChoice where
  probe : ℕ := 0
  first : ℕ := 0
  second : ℕ := 0
  cost : ℕ → ℚ := fun _ => 0
  ctxErr : Option String := none
  get : Option ℕ := none

namespace AdaptivePicker

variable (p : AdaptivePicker)

def pickCandidateIndexes (c : PickChoice) : List ℕ :=
  if p.normalIndexes = [] then p.probingIndexes
  else if p.probingIndexes = [] then p.normalIndexes
  else if 0 < p.probeThreshold ∧ c.probe % 100 < p.probeThreshold then p.probingIndexes
  else p.normalIndexes

def pickItem (c : PickChoice) : Option PickerItem :=
  match p.pickCandidateIndexes c with
  | [] => none
  | [i] => p.items[i]?
  | candidates =>
    let aPos := c.first % candidates.length
    let bPos := c.second % (candidates.length - 1)
    let bPos := if aPos ≤ bPos then bPos + 1 else bPos
    let aIdx := candidates.getD aPos 0
    let bIdx := candidates.getD bPos 0
    if c.cost aIdx ≤ c.cost bIdx then p.items[aIdx]? else p.items[bIdx]?

end AdaptivePicker

/-! ## The shared state and its threads -/

structure Completion where
  picker : Option ℕ := none
  item : Option PickerItem := none
deriving DecidableEq

structure Balancing where
  limiters : Limiters
  /-- `adaptiveLimiterPool.limiters`. -/
  pool : Dict String ℕ := ∅
  madeLimiters : ℕ := 0
  pickers : List AdaptivePicker := []
  completion : ℕ → Completion := fun _ => {}
  madeCompletions : ℕ := 0
  waiting : List (ℕ × ℕ) := []

def newAdaptiveLimiterPool (max : ℤ) : Balancing where
  limiters := Limiters.newMaxInflight max

def normalizeAdaptiveLimiterEndpoint (endpoint : String) : String := if endpoint = "" then "unknown" else endpoint

inductive BuildPlace
  | building (rest : List ReadyAddress) (items : List PickerItem)
  | storing (address : ReadyAddress) (rest : List ReadyAddress) (items : List PickerItem)
  | built

inductive PickError
  | noSubConnAvailable
  | unavailable (message : String)
  | resourceExhausted
deriving DecidableEq

/-- Where a call is between its `Pick` and the end of its `Done`. The item is the one that was picked; `finish`
goes by what it has read in the completion. -/
inductive PickPlace
  | entered
  | acquiring (item : PickerItem) (place : LimiterPlace)
  | getting (item : PickerItem)
  | filling (item : PickerItem) (completion : ℕ)
  | picked (item : PickerItem) (completion : ℕ)
  | clearing (item : PickerItem) (completion : ℕ) (readPicker : ℕ) (readItem : PickerItem)
  | releasing (item : PickerItem) (completion : ℕ) (readPicker : ℕ) (readItem : PickerItem) (place : LimiterPlace)
  | putting (completion : ℕ) (readPicker : ℕ)
  | failed (err : PickError)
  | finished

inductive BalancerThread
  | build (place : BuildPlace)
  | rpc (picker : ℕ) (place : PickPlace)

inductive BalancerCall
  | build (ready : List ReadyAddress)
  | pick (picker : ℕ)

/-- The maximum is set anew, or the garbage collector takes a completion out of a pool. -/
inductive BalancerEvent
  | setMaxInflightPerEndpoint (max : ℤ)
  | collect (entry : ℕ × ℕ)

namespace Balancing

variable (s : Balancing)

def newItem (address : ReadyAddress) (limiter : ℕ) : PickerItem where
  address := address.addr
  status := address.status.normalized
  limiter := limiter

/-- `LoadOrStore` of a new limiter. -/
def loadOrStore (endpoint : String) : Balancing × ℕ :=
  match s.pool.lookup endpoint with
  | some limiter => (s, limiter)
  | none =>
    ({ s with pool := s.pool.insert endpoint s.madeLimiters, madeLimiters := s.madeLimiters + 1 }, s.madeLimiters)

def buildStep : BuildPlace → Option (Balancing × BuildPlace)
  | .building [] items => some ({ s with pickers := s.pickers ++ [newPicker items] }, .built)
  | .building (address :: rest) items =>
    if !address.status.normalized.routable then some (s, .building rest items)
    else
      match s.pool.lookup (normalizeAdaptiveLimiterEndpoint address.addr) with
      | some limiter => some (s, .building rest (items ++ [newItem address limiter]))
      | none => some (s, .storing address rest items)
  | .storing address rest items =>
    match s.loadOrStore (normalizeAdaptiveLimiterEndpoint address.addr) with
    | (s, limiter) => some (s, .building rest (items ++ [newItem address limiter]))
  | .built => none

def choose (p : AdaptivePicker) (c : PickChoice) : PickPlace :=
  if p.items = [] then .failed .noSubConnAvailable
  else
    match c.ctxErr with
    | some err => .failed (.unavailable err)
    | none =>
      match p.pickItem c with
      | none => .failed (.unavailable "no available endpoint")
      | some item => .acquiring item .loading

def getCompletion (picker : ℕ) (get : Option ℕ) : Balancing × ℕ :=
  match get with
  | some k =>
    if (picker, k) ∈ s.waiting then ({ s with waiting := s.waiting.erase (picker, k) }, k)
    else ({ s with madeCompletions := s.madeCompletions + 1 }, s.madeCompletions)
  | none => ({ s with madeCompletions := s.madeCompletions + 1 }, s.madeCompletions)

def storeCompletion (k : ℕ) (completion : Completion) : Balancing :=
  { s with completion := Function.update s.completion k completion }

def rpcStep (picker : ℕ) (place : PickPlace) (c : PickChoice) : Option (Balancing × PickPlace) :=
  match place with
  | .entered => (s.pickers[picker]?).map fun p => (s, choose p c)
  | .acquiring item (.left true) => some (s, .getting item)
  | .acquiring _ (.left false) => some (s, .failed .resourceExhausted)
  | .acquiring item place =>
    (s.limiters.step item.limiter place).map fun (limiters, place) => ({ s with limiters }, .acquiring item place)
  | .getting item =>
    match s.getCompletion picker c.get with
    | (s, k) => some (s, .filling item k)
  | .filling item k => some (s.storeCompletion k { picker := some picker, item := some item }, .picked item k)
  | .picked item k =>
    match s.completion k with
    | { picker := some readPicker, item := some readItem } => some (s, .clearing item k readPicker readItem)
    | _ => some (s, .finished)
  | .clearing item k readPicker readItem =>
    some (s.storeCompletion k {}, .releasing item k readPicker readItem .releasing)
  | .releasing _ k readPicker _ (.left _) => some (s, .putting k readPicker)
  | .releasing item k readPicker readItem place =>
    (s.limiters.step readItem.limiter place).map fun (limiters, place) =>
      ({ s with limiters }, .releasing item k readPicker readItem place)
  | .putting k readPicker => some ({ s with waiting := (readPicker, k) :: s.waiting }, .finished)
  | .failed _ | .finished => none

end Balancing

def balancer : ThreadSystem Balancing BalancerThread BalancerCall PickChoice BalancerEvent where
  start
    | .build ready => .build (.building ready [])
    | .pick picker => .rpc picker .entered
  move _ s t c :=
    match t with
    | .build place => (s.buildStep place).map fun (s, place) => (s, .build place)
    | .rpc picker place => (s.rpcStep picker place c).map fun (s, place) => (s, .rpc picker place)
  outside s
    | .setMaxInflightPerEndpoint max => { s with limiters := s.limiters.setMax max }
    | .collect entry => { s with waiting := s.waiting.erase entry }

/-! ## Permits and completions of a call -/

namespace PickPlace

def permit : PickPlace → Option ℕ
  | .acquiring item place => if place.holds then some item.limiter else none
  | .getting item | .filling item _ | .picked item _ | .clearing item _ _ _ => some item.limiter
  | .releasing item _ _ _ place => if place.holds then some item.limiter else none
  | _ => none

def owns : PickPlace → Option ℕ
  | .filling _ k | .picked _ k | .clearing _ k _ _ | .releasing _ k _ _ _ | .putting k _ => some k
  | _ => none

def limiterPlace : PickPlace → LimiterPlace
  | .acquiring _ place | .releasing _ _ _ _ place => place
  | _ => .left false

end PickPlace

namespace BalancerThread

def permit : BalancerThread → Option ℕ
  | .build _ => none
  | .rpc _ place => place.permit

def owns : BalancerThread → Option ℕ
  | .build _ => none
  | .rpc _ place => place.owns

def limiterPlace : BalancerThread → LimiterPlace
  | .build _ => .left false
  | .rpc _ place => place.limiterPlace

end BalancerThread

end Sdk

end AegisMesh
