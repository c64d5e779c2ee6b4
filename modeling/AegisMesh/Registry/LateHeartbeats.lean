import AegisMesh.Lib.Threads
import AegisMesh.Registry.LeaseStore

/-!
# Heartbeats of several controllers on one store

A heartbeat reads a record and writes all of it back, bound to the revision that was read.
-/

open Lib

namespace AegisMesh.Registry

/-- The store that the controllers share, with the record of the last put of each key. -/
structure SharedStore where
  store : LeaseStore
  lastPut : String → Option LeaseStoreRecord := fun _ => none

/-- Where a call is: before its put, before its read, between read and update, or back. -/
inductive StoreThread
  | registering (ctx : Ctx) (inst : Instance) (ttl : ℤ)
  | reading (ctx : Ctx) (service id registrationEpoch ownerToken : String) (ttl : ℤ) (requireEpoch requireOwner : Bool)
  | updating (service id : String) (inst : Instance) (modRevision : ℕ)
  | returned (answer : Option RegistryError)

structure StoreChoice where
  now : ℕ := 0
  gap : ℕ := 0
  epoch : String := ""
  token : String := ""

structure Expiry where
  gap : ℕ := 0
  keys : List String

namespace SharedStore

variable (r : LeaseStoreRegistry)

def start : WriteCall → StoreThread
  | .register ctx inst ttl => .registering ctx inst ttl
  | .heartbeat ctx service id ttl => .reading ctx service id "" "" ttl false false
  | .heartbeatWithEpoch ctx service id epoch ttl =>
    if epoch = "" then .returned (some .invalidInstance) else .reading ctx service id epoch "" ttl true false
  | .heartbeatWithOwner ctx service id epoch token ttl =>
    if epoch = "" ∨ token = "" then .returned (some .invalidInstance)
    else .reading ctx service id epoch token ttl true true

def move (s : SharedStore) (t : StoreThread) (c : StoreChoice) : Option (SharedStore × StoreThread) :=
  match t with
  | .registering ctx inst ttl =>
    match r.register s.store c.gap ctx inst ttl c.now c.epoch c.token with
    | (store, none) =>
      let put := encodeLeaseStoreRecord (LeaseStoreRegistry.minted inst c.now c.epoch c.token)
      some ({ store, lastPut := Function.update s.lastPut (r.instanceKey inst.service inst.id) (some put) },
        .returned none)
    | (store, some err) => some ({ s with store }, .returned (some err))
  | .reading ctx service id epoch token ttl requireEpoch requireOwner =>
    match r.heartbeatRead s.store ctx service id epoch token ttl requireEpoch requireOwner with
    | .error err => some (s, .returned (some err))
    | .ok (inst, modRevision) => some (s, .updating service id inst modRevision)
  | .updating service id inst modRevision =>
    match s.store.putIf c.gap (r.instanceKey service id) (some (encodeLeaseStoreRecord { inst with lastSeen := c.now }))
        modRevision with
    | (store, updated) => some ({ s with store }, .returned (if updated then none else some .instanceNotFound))
  | .returned _ => none

def controllers : ThreadSystem SharedStore StoreThread WriteCall StoreChoice Expiry where
  start := start
  move _ := move r
  outside s e := { s with store := s.store.expire e.gap e.keys }

/-! ## Records -/

theorem encode_decode (inst : Instance) (seen now : ℕ) :
    encodeLeaseStoreRecord
      { decodeLeaseStoreRecord { encodeLeaseStoreRecord inst with lastSeenUnixNanos := seen } with lastSeen := now } =
      { encodeLeaseStoreRecord inst with lastSeenUnixNanos := now } := by
  have hstatus : (Code.parse inst.status.string).normalized.string = inst.status.string := by
    rw [Code.parse_string]
    cases inst.status <;> rfl
  by_cases hempty : inst.labels.pairs = ∅
  · simp [encodeLeaseStoreRecord, decodeLeaseStoreRecord, cloneLabels, hstatus, hempty]
  · simp [encodeLeaseStoreRecord, decodeLeaseStoreRecord, cloneLabels, hstatus, hempty]

/-! ## What is in the store -/

def Renewed (put record : LeaseStoreRecord) : Prop := ∃ seen, record = { put with lastSeenUnixNanos := seen }

def Current (s : SharedStore) : Prop :=
  ∀ key e, s.store.entries.lookup key = some e →
    ∃ inst record, s.lastPut key = some (encodeLeaseStoreRecord inst) ∧ e.value = some record ∧
      Renewed (encodeLeaseStoreRecord inst) record

def Reads (s : SharedStore) : StoreThread → Prop
  | .updating service id inst modRevision =>
    0 < modRevision ∧ modRevision ≤ s.store.revision ∧
      ∀ e, s.store.entries.lookup (r.instanceKey service id) = some e → e.modRevision = modRevision →
        e.value.map decodeLeaseStoreRecord = some inst
  | _ => True

variable {r} {s s' : SharedStore} {t : StoreThread}

theorem Reads.later (h : s.Reads r t) (hlater : RevStore.Later s.store s'.store) : s'.Reads r t := by
  cases t with
  | updating service id inst modRevision =>
    obtain ⟨hpos, hle, hvalue⟩ := h
    refine ⟨hpos, le_trans hle hlater.revision_le, fun e he hrev => ?_⟩
    exact hvalue e (hlater.kept _ e he (by omega)) hrev
  | _ => trivial

theorem reads_heartbeatRead {ctx : Ctx} {service id epoch token : String} {ttl : ℤ} {requireEpoch requireOwner : Bool}
    {inst : Instance} {modRevision : ℕ}
    (h : r.heartbeatRead s.store ctx service id epoch token ttl requireEpoch requireOwner = .ok (inst, modRevision)) :
    s.Reads r (.updating service id inst modRevision) := by
  unfold LeaseStoreRegistry.heartbeatRead at h
  split_ifs at h
  split at h
  · cases h
  · rename_i entry hl
    split at h
    · cases h
    · rename_i record hvalue
      dsimp only at h
      split_ifs at h
      cases h
      obtain ⟨hpos, hle⟩ := s.store.bounded _ _ hl
      refine ⟨hpos, hle, fun e he _ => ?_⟩
      obtain rfl : entry = e := Option.some.inj (hl.symm.trans he)
      rw [hvalue]
      rfl

theorem Current.expire (h : s.Current) (gap : ℕ) (keys : List String) :
    ({ s with store := s.store.expire gap keys } : SharedStore).Current := by
  intro key e he
  simp only [RevStore.expire, Dict.lookup_filter, Option.filter_eq_some_iff] at he
  exact h key e he.1

theorem Current.put (h : s.Current) (gap : ℕ) (key : String) (inst : Instance) :
    ({ store := s.store.put gap key (some (encodeLeaseStoreRecord inst))
       lastPut := Function.update s.lastPut key (some (encodeLeaseStoreRecord inst)) } : SharedStore).Current := by
  intro j e he
  simp only [RevStore.lookup_put] at he
  split at he
  · rename_i hj
    cases he
    refine ⟨inst, _, ?_, rfl, inst.lastSeen, rfl⟩
    simp only [hj, Function.update_self]
  · rename_i hj
    obtain ⟨inst', record, hput, hvalue, hrenewed⟩ := h j e he
    refine ⟨inst', record, ?_, hvalue, hrenewed⟩
    simp only [Function.update_of_ne hj, hput]

theorem Current.update (h : s.Current) {service id : String} {inst : Instance} {modRevision : ℕ}
    (hreads : s.Reads r (.updating service id inst modRevision)) (gap now : ℕ) :
    ({ s with
        store := (s.store.update gap (r.instanceKey service id)
          (some (encodeLeaseStoreRecord { inst with lastSeen := now })) modRevision).1 } : SharedStore).Current := by
  rcases s.store.update_cases gap (r.instanceKey service id)
    (some (encodeLeaseStoreRecord { inst with lastSeen := now })) modRevision with heq | ⟨e, hl, hrev, heq⟩
  · rw [heq]
    exact h
  obtain ⟨put, record, hput, hvalue, seen, rfl⟩ := h _ e hl
  have hdecoded := hreads.2.2 e hl hrev
  rw [hvalue, Option.map_some, Option.some.injEq] at hdecoded
  subst hdecoded
  rw [heq]
  intro j f hf
  simp only [RevStore.lookup_put] at hf
  split at hf
  · rename_i hj
    cases hf
    exact ⟨put, _, hj ▸ hput, rfl, now, encode_decode put seen now⟩
  · exact h j f hf

/-! ## Runs -/

theorem move_cases {c : StoreChoice} (hreads : s.Reads r t) {t' : StoreThread} (hmove : move r s t c = some (s', t')) :
    (s' = s ∧ s.Reads r t') ∨
    (∃ key inst answer, t' = .returned answer ∧
      s' = { store := s.store.put c.gap key (some (encodeLeaseStoreRecord inst))
             lastPut := Function.update s.lastPut key (some (encodeLeaseStoreRecord inst)) }) ∨
    ∃ service id inst modRevision answer, t = .updating service id inst modRevision ∧ t' = .returned answer ∧
      s' = { s with
             store := (s.store.update c.gap (r.instanceKey service id)
               (some (encodeLeaseStoreRecord { inst with lastSeen := c.now })) modRevision).1 } := by
  unfold move at hmove
  cases t with
  | registering ctx inst ttl =>
    simp only [LeaseStoreRegistry.register] at hmove
    split_ifs at hmove
    · cases hmove
      exact .inl ⟨rfl, trivial⟩
    · cases hmove
      exact .inl ⟨rfl, trivial⟩
    · cases hmove
      exact .inr (.inl ⟨_, _, _, rfl, rfl⟩)
  | reading ctx service id epoch token ttl requireEpoch requireOwner =>
    dsimp only at hmove
    split at hmove
    · cases hmove
      exact .inl ⟨rfl, trivial⟩
    · rename_i hread
      cases hmove
      exact .inl ⟨rfl, reads_heartbeatRead hread⟩
  | updating service id inst modRevision =>
    simp only [RevStore.putIf_eq_update hreads.1] at hmove
    cases hmove
    exact .inr (.inr ⟨service, id, inst, modRevision, _, rfl, rfl, rfl⟩)
  | returned answer => cases hmove

theorem keeps_move {c : StoreChoice} {t' : StoreThread} (h : s.Current) (hreads : s.Reads r t)
    (hmove : move r s t c = some (s', t')) :
    s'.Current ∧ s'.Reads r t' ∧ RevStore.Later s.store s'.store := by
  rcases move_cases hreads hmove with ⟨rfl, hreads'⟩ | ⟨key, inst, answer, rfl, rfl⟩ |
    ⟨service, id, inst, modRevision, answer, rfl, rfl, rfl⟩
  · exact ⟨h, hreads', .refl _⟩
  · exact ⟨h.put c.gap key inst, trivial, RevStore.later_put _ _ _ _⟩
  · exact ⟨h.update hreads c.gap c.now, trivial, RevStore.later_apply s.store c.gap (.update _ _ modRevision)⟩

theorem keeps_run (revision : ℕ) (events : List (ThreadEvent WriteCall StoreChoice Expiry)) :
    ThreadSystem.Keeps Current (fun s _ t => s.Reads r t) ((controllers r).run { store := .empty revision } events) := by
  have hinit : ({ store := .empty revision } : SharedStore).Current := fun key e he => by simp [RevStore.empty] at he
  refine ThreadSystem.Keeps.run (controllers r) ?_ ?_ ?_ hinit events
  · intro s id call _
    cases call with
    | register ctx inst ttl => trivial
    | heartbeat ctx service id ttl => trivial
    | heartbeatWithEpoch ctx service id epoch ttl =>
      simp only [controllers, start]
      split <;> trivial
    | heartbeatWithOwner ctx service id epoch token ttl =>
      simp only [controllers, start]
      split <;> trivial
  · intro s id t c s' t' hs hreads hmove
    obtain ⟨hs', hreads', hlater⟩ := keeps_move hs hreads hmove
    exact ⟨hs', hreads', fun _ u _ hu => hu.later hlater⟩
  · intro s e hs
    exact ⟨hs.expire e.gap e.keys, fun _ t ht => ht.later (RevStore.later_expire _ _ _)⟩

/-- Whenever a key is there, its record is that of the last put, but for the time of the last heartbeat. -/
theorem holds_last_put (r : LeaseStoreRegistry) (revision : ℕ) (events : List (ThreadEvent WriteCall StoreChoice Expiry))
    (key : String) (e : Entry (Option LeaseStoreRecord))
    (he : ((controllers r).run { store := .empty revision } events).shared.store.entries.lookup key = some e) :
    ∃ put record, ((controllers r).run { store := .empty revision } events).shared.lastPut key = some put ∧
      e.value = some record ∧ record.address = put.address ∧ record.labels = put.labels ∧ record.status = put.status ∧
      record.registrationEpoch = put.registrationEpoch ∧ record.ownerToken = put.ownerToken := by
  obtain ⟨inst, record, hput, hvalue, seen, rfl⟩ := (keeps_run revision events).shared key e he
  exact ⟨_, _, hput, hvalue, rfl, rfl, rfl, rfl, rfl⟩

def overtakenHeartbeat : List (ThreadEvent WriteCall StoreChoice Expiry) :=
  [.call 0 (.register .background { id := "a", service := "svc", address := "h:1" } 10),
    .move 0 { epoch := "e1", token := "t1" },
    .call 1 (.heartbeat .background "svc" "a" 10), .move 1 {},
    .call 2 (.register .background { id := "a", service := "svc", address := "h:2" } 10),
    .move 2 { now := 3, gap := 1, epoch := "e2", token := "t2" },
    .move 1 { now := 5 }]

def plainKeys : LeaseStoreRegistry := { keyPrefix := "/registry", escape := id }

def secondRegistration : LeaseStoreRecord :=
  { id := "a", service := "svc", address := "h:2", status := "HEALTHY", lastSeenUnixNanos := 3,
    registrationEpoch := "e2", ownerToken := "t2" }

theorem overtaken_heartbeat_holds_last_put :
    ∃ put record, ((controllers plainKeys).run { store := .empty 0 } overtakenHeartbeat).shared.lastPut "/registry/svc/a" =
        some put ∧
      some secondRegistration = some record ∧ record.address = put.address ∧ record.labels = put.labels ∧
      record.status = put.status ∧ record.registrationEpoch = put.registrationEpoch ∧
      record.ownerToken = put.ownerToken :=
  holds_last_put plainKeys 0 overtakenHeartbeat "/registry/svc/a" ⟨some secondRegistration, 3⟩ (by decide)

end SharedStore

end AegisMesh.Registry
