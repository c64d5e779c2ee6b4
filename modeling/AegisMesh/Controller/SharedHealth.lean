import AegisMesh.Controller.ActiveHealth
import AegisMesh.Fault.LoadedHealth
import AegisMesh.Fault.Merging

/-!
# Controllers that share their health (`cmd/controller/main.go`)

Every controller saves its records, and loads and merges the saved ones of all.
-/

open Lib

namespace AegisMesh.Controller

open Fault Fault.EtcdHealthStore Fault.HealthManager Registry Telemetry

/-- `Sub` gives at most the longest duration. -/
def filterFreshHealth (snapshot : List EndpointHealth) (now : ℕ) (maxAge : ℤ) : List EndpointHealth :=
  if maxAge ≤ 0 then snapshot
  else snapshot.filter fun r => r.updatedAt ≠ 0 && decide (min ((now : ℤ) - r.updatedAt) (2 ^ 63 - 1) ≤ maxAge)

inductive RestoreError
  | store (err : String)
  | registry (err : RegistryError)

def restoreHealthSnapshot (store : EtcdHealthStore) (kv : HealthKV)
    (registry : Option (String → Except RegistryError (List Instance))) (maxAge : ℤ) (now mergedAt : ℕ)
    (m : HealthManager) : HealthManager × Except RestoreError ℕ :=
  match store.load kv with
  | .error err => (m, .error (.store err))
  | .ok (snapshot, revision) =>
    match filterActiveRegistryHealth registry (filterFreshHealth snapshot now maxAge) with
    | .error err => (m, .error (.registry err))
    | .ok health => (m.mergeSnapshot health mergedAt, .ok revision)

namespace Restoring

variable {s : EtcdHealthStore} {kv kv' : HealthKV} {r endpoint : EndpointHealth} {key : String} {K : EndpointHealth → Prop}

/-! ## What a load reads -/

def Stored (s : EtcdHealthStore) (kv : HealthKV) (r : EndpointHealth) : Prop :=
  ∃ key e, kv.entries.lookup key = some e ∧ s.healthFromKV key e.value = .ok (r, true)

def Readable (s : EtcdHealthStore) (kv : HealthKV) : Prop :=
  ∀ key e, kv.entries.lookup key = some e → ∃ read, s.healthFromKV key e.value = .ok read

theorem loadAll_of_readable {pairs : List (String × HealthValue)}
    (h : ∀ p ∈ pairs, ∃ read, s.healthFromKV p.1 p.2 = .ok read) :
    ∃ health, s.loadAll pairs = .ok health ∧
      ∀ r, r ∈ health ↔ ∃ p ∈ pairs, s.healthFromKV p.1 p.2 = .ok (r, true) := by
  induction pairs with
  | nil => exact ⟨[], rfl, by simp⟩
  | cons p rest ih =>
    obtain ⟨⟨⟨endpoint, found⟩, hread⟩, hrest⟩ := List.forall_mem_cons.mp h
    obtain ⟨health, hload, hmem⟩ := ih hrest
    rw [loadAll, hread]
    cases found with
    | true => exact ⟨endpoint :: health, by rw [hload]; rfl, fun r => by simp [hmem, hread, eq_comm]⟩
    | false => exact ⟨health, hload, fun r => by simp [hmem, hread]⟩

theorem read_names {value : HealthValue} (h : s.healthFromKV key value = .ok (r, true)) :
    s.healthIdentityFromKey key = some (r.service, r.instanceID) ∧
      ∃ record, value = .ok record ∧ r.updatedAt = record.updatedAt := by
  unfold healthFromKV at h
  split at h
  · cases h
  · rename_i hidentity
    cases value with
    | error err => cases h
    | ok record =>
      unfold decodeHealth at h
      dsimp only at h
      split at h
      · cases h
      · rename_i hdecoded
        split at hdecoded
        · cases hdecoded
        · cases hdecoded
          cases h
          exact ⟨hidentity, record, rfl, rfl⟩

theorem under_of_identity {names : String × String} (h : s.healthIdentityFromKey key = some names) :
    s.instancesPrefix.toList.isPrefixOf key.toList = true := by
  by_contra hnot
  rw [healthIdentityFromKey, Bool.eq_false_of_not_eq_true hnot, Bool.not_false, if_pos rfl] at h
  cases h

theorem load_of_readable (h : Readable s kv) :
    ∃ health, s.load kv = .ok (health, kv.revision) ∧ ∀ r, r ∈ health ↔ Stored s kv r := by
  obtain ⟨health, hload, hmem⟩ : ∃ health, s.loadAll (s.listed kv) = .ok health ∧
      ∀ r, r ∈ health ↔ ∃ p ∈ s.listed kv, s.healthFromKV p.1 p.2 = .ok (r, true) := by
    refine loadAll_of_readable fun p hp => ?_
    obtain ⟨e, he, rfl⟩ := List.mem_map.mp hp
    exact h e.1 e.2 (AList.mem_lookup_iff.mpr (List.mem_filter.mp he).1)
  refine ⟨sortBy (fun r => toLex (r.service, r.instanceID)) health, ?_, fun r => ?_⟩
  · unfold EtcdHealthStore.load
    rw [hload]
    rfl
  · rw [mem_sortBy, hmem]
    constructor
    · rintro ⟨p, hp, hread⟩
      obtain ⟨e, he, rfl⟩ := List.mem_map.mp hp
      exact ⟨e.1, e.2, AList.mem_lookup_iff.mpr (List.mem_filter.mp he).1, hread⟩
    · rintro ⟨k, e, he, hread⟩
      have hunder := under_of_identity (read_names hread).1
      exact ⟨(k, e.value), List.mem_map.mpr ⟨⟨k, e⟩, List.mem_filter.mpr ⟨AList.mem_lookup_iff.mp he, hunder⟩, rfl⟩, hread⟩

/-! ## The records under one key -/

def Under (key : String) (r : EndpointHealth) : Prop := scoreKey r.service r.instanceID = key

/-- Records that a save and a restore take as they are. -/
structure Plain (K : EndpointHealth → Prop) : Prop where
  proper : ∀ r, K r → r.Proper
  portable : ∀ r, K r → Portable r

def Newest (K : EndpointHealth → Prop) (key : String) (r : EndpointHealth) : Prop :=
  (K r ∧ Under key r) ∧ ∀ r', K r' → Under key r' → r'.updatedAt ≤ r.updatedAt

def NoTies (K : EndpointHealth → Prop) (key : String) : Prop :=
  ∀ r r', K r → K r' → Under key r → Under key r' → r.updatedAt = r'.updatedAt → r = r'

/-- A manager that knows nothing else holds the newest record once it has merged it. -/
theorem lookup_mergeSnapshot_iff (hK : Plain K) (hties : NoTies K key) {m : HealthManager}
    (hm : ∀ r, m.health.lookup key = some r → K r ∧ Under key r) {records : List EndpointHealth}
    (hrecords : ∀ r ∈ records, K r)
    (hall : ∀ r, K r → Under key r → ∃ x ∈ records, Under key x ∧ r.updatedAt ≤ x.updatedAt) (now : ℕ)
    (r : EndpointHealth) :
    (m.mergeSnapshot records now).health.lookup key = some r ↔ Newest K key r := by
  have hlookup : (m.mergeSnapshot records now).health.lookup key =
      (settledUnder key records).foldl (newer EndpointHealth.updatedAt) (m.health.lookup key) := by
    rw [HealthManager.mergeSnapshot, bumpIfChanged_health]
    exact lookup_mergeAll (fun r hr => hK.proper r (hrecords r hr)) now (m.health, []) key
  have hself : ∀ {x}, x ∈ records → x.settled = x := by
    intro x hx
    simp [EndpointHealth.settled, Code.normalized, (hK.portable x (hrecords x hx)).state]
  have hunder : ∀ x ∈ settledUnder key records, K x ∧ Under key x := by
    intro x hx
    obtain ⟨y, hy, hkey, rfl⟩ := mem_settledUnder.mp hx
    rw [hself hy]
    exact ⟨hrecords y hy, hkey⟩
  have hbound : ∀ r', K r' → Under key r' → ∃ x ∈ settledUnder key records, r'.updatedAt ≤ x.updatedAt := by
    intro r' hr' hkey'
    obtain ⟨x, hx, hkey, htime⟩ := hall r' hr' hkey'
    exact ⟨x, mem_settledUnder.mpr ⟨x, hx, hkey, hself hx⟩, htime⟩
  rw [hlookup, foldl_newer_iff fun x hx y hy => hties x y (hunder x hx).1 (hunder y hy).1 (hunder x hx).2 (hunder y hy).2]
  constructor
  · rintro (⟨hmem, hnewest, -⟩ | ⟨hheld, hnewest⟩)
    · refine ⟨hunder r hmem, fun r' hr' hkey' => ?_⟩
      obtain ⟨x, hx, htime⟩ := hbound r' hr' hkey'
      exact htime.trans (hnewest x hx)
    · obtain ⟨x, hx, htime⟩ := hbound r (hm r hheld).1 (hm r hheld).2
      exact absurd htime (not_le.mpr (hnewest x hx))
  · rintro ⟨⟨hr, hkey⟩, hnewest⟩
    have hall : ∀ y, K y ∧ Under key y → y.updatedAt ≤ r.updatedAt := fun y hy => hnewest y hy.1 hy.2
    obtain ⟨x, hx, htime⟩ := hbound r hr hkey
    obtain rfl := hties x r (hunder x hx).1 hr (hunder x hx).2 hkey (le_antisymm (hall x (hunder x hx)) htime)
    exact .inl ⟨hx, fun y hy => hall y (hunder y hy), fun y hy => hall y (hm y hy)⟩

/-! ## What a save may put -/

def Carries (K : EndpointHealth → Prop) : SavePlace → Prop
  | .scanning rest _ => ∀ r ∈ rest, K r
  | .reading endpoint rest _ => K endpoint ∧ ∀ r ∈ rest, K r
  | .putting endpoint _ rest _ => K endpoint ∧ ∀ r ∈ rest, K r
  | .returned _ _ => True

structure Sound (s : EtcdHealthStore) (K : EndpointHealth → Prop) (kv : HealthKV) : Prop where
  readable : Readable s kv
  stored : ∀ r, Stored s kv r → K r

theorem Sound.put (hK : Plain K) (h : Sound s K kv) (hendpoint : K endpoint) (gap : ℕ) :
    Sound s K (kv.put gap (s.key endpoint) (.ok (encodeHealth endpoint))) := by
  have hportable := hK.portable endpoint hendpoint
  constructor
  · intro k e he
    rw [RevStore.lookup_put] at he
    split at he
    · rename_i hkey
      cases he
      exact ⟨_, by rw [hkey]; exact hportable.read_back⟩
    · exact h.readable k e he
  · rintro r ⟨k, e, he, hread⟩
    rw [RevStore.lookup_put] at he
    split at he
    · rename_i hkey
      cases he
      rw [hkey, hportable.read_back] at hread
      cases hread
      exact hendpoint
    · exact h.stored r ⟨k, e, he, hread⟩

theorem carries_afterGet {rest : List EndpointHealth} (h : K endpoint ∧ ∀ r ∈ rest, K r)
    (entry : Option (Entry HealthValue)) (maxRevision : ℕ) (identical : Bool) :
    Carries K (s.afterGet entry endpoint rest maxRevision identical) := by
  unfold afterGet
  split
  · exact h
  · split
    · trivial
    · split
      · exact h.2
      · exact h

theorem sound_saveStep (hK : Plain K) (h : Sound s K kv) {place place' : SavePlace} {c : SaveChoice}
    (hplace : Carries K place) (hstep : s.saveStep kv place c = some (kv', place')) :
    Sound s K kv' ∧ Carries K place' := by
  cases place with
  | scanning records maxRevision =>
    cases records with
    | nil =>
      cases hstep
      exact ⟨h, trivial⟩
    | cons endpoint rest =>
      obtain ⟨hfirst, hrest⟩ := List.forall_mem_cons.mp hplace
      simp only [saveStep] at hstep
      split at hstep
      · cases hstep
        exact ⟨h, hrest⟩
      · split at hstep
        · cases hstep
          exact ⟨h, trivial⟩
        · cases hstep
          have hself : prepared endpoint c.now = endpoint := by
            simp [prepared, Code.normalized, (hK.portable endpoint hfirst).state, (hK.proper endpoint hfirst).updatedAt]
          rw [hself]
          exact ⟨h, hfirst, hrest⟩
  | reading endpoint rest maxRevision =>
    simp only [saveStep] at hstep
    split at hstep
    · cases hstep
      exact ⟨h, trivial⟩
    · cases hstep
      exact ⟨h, carries_afterGet hplace _ _ _⟩
  | putting endpoint expectedRevision rest maxRevision =>
    have hput : Sound s K (s.putIfModRevision kv c endpoint expectedRevision).1 := by
      rcases s.putIfModRevision_cases kv c endpoint expectedRevision with ⟨answer, hanswer, -⟩ | ⟨rfl, answer, hanswer⟩
      · rwa [hanswer]
      · rw [hanswer]
        exact h.put hK hplace.1 c.gap
    simp only [saveStep] at hstep
    split at hstep
    · rename_i heq
      cases hstep
      rw [heq] at hput
      exact ⟨hput, trivial⟩
    · rename_i heq
      cases hstep
      rw [heq] at hput
      exact ⟨hput, hplace.2⟩
    · rename_i heq
      rw [heq] at hput
      split at hstep <;> cases hstep
      · exact ⟨hput, trivial⟩
      · exact ⟨hput, hplace⟩
  | returned maxRevision err => cases hstep

/-! ## Runs -/

variable (s kv) (events : List (ThreadEvent (List EndpointHealth) SaveChoice Empty))

/-- The record was in etcd at first, or some controller has set out to save it. -/
def Known (r : EndpointHealth) : Prop :=
  Stored s kv r ∨ ∃ id health, .call id health ∈ events ∧ r ∈ health

def AllSaved : Prop :=
  ∀ id health, .call id health ∈ events → ∃ maxRevision,
    (s.savers.run kv events).threads.lookup id = some { given := health, place := .returned maxRevision none }

variable {s kv events}

theorem kept_sound (hK : Plain K) :
    s.savers.Kept (Sound s K) (fun _ _ t => Carries K t.place)
      (fun e => ∀ id health, e = .call id health → ∀ r ∈ health, K r) where
  start kv id health hok _ := hok id health rfl
  move kv id t c kv' t' _ hs ht hmove := by
    obtain ⟨⟨kv₁, place⟩, hstep, heq⟩ := Option.map_eq_some_iff.mp hmove
    cases heq
    obtain ⟨hsound, hcarries⟩ := sound_saveStep hK hs ht hstep
    exact ⟨hsound, hcarries, fun _ _ _ hu => hu⟩
  outside _ e := nomatch e

theorem Readable.stored_of_atLeast (h : Readable s kv) {k : String} {time : ℕ}
    (hidentity : s.healthIdentityFromKey k = some (r.service, r.instanceID)) (hk : AtLeast kv k time) :
    ∃ x, Stored s kv x ∧ (Under key r → Under key x) ∧ time ≤ x.updatedAt := by
  obtain ⟨e, record, he, hvalue, htime⟩ := hk
  obtain ⟨⟨x, found⟩, hread⟩ := h k e he
  have hfound : found = true := by
    unfold healthFromKV at hread
    rw [hidentity] at hread
    dsimp only at hread
    split at hread <;> cases hread
    rfl
  subst hfound
  -- The names come from the key, so what is read is of the same endpoint.
  obtain ⟨hnames, record', hvalue', hupdated⟩ := read_names hread
  rw [hidentity, Option.some.injEq, Prod.mk.injEq] at hnames
  cases hvalue.symm.trans hvalue'
  refine ⟨x, ⟨k, e, he, hread⟩, fun hunder => ?_, by omega⟩
  rw [Under, ← hnames.1, ← hnames.2]
  exact hunder

theorem known_stored (key : String) (hK : Plain (Known s kv events)) (hstored : Readable s kv)
    (hsaved : AllSaved s kv events) :
    Sound s (Known s kv events) (s.savers.run kv events).shared ∧ ∀ r, Known s kv events r → Under key r →
      ∃ x, Stored s (s.savers.run kv events).shared x ∧ Under key x ∧ r.updatedAt ≤ x.updatedAt := by
  have hgiven : ∀ e ∈ events, ∀ id health, e = .call id health → ∀ r ∈ health, Known s kv events r := by
    rintro _ he id health rfl r hr
    exact .inr ⟨id, health, he, hr⟩
  have hsound := ((kept_sound hK).run (s := kv) ⟨hstored, fun r hr => .inl hr⟩ hgiven).shared
  have hproper : ∀ e ∈ events, ProperCall e := by
    intro e he
    cases e with
    | call id health =>
      intro r hr hservice hid
      have hportable := hK.portable r (hgiven _ he id health rfl r hr)
      exact ⟨fun hno => hservice (hportable.service.symm.trans hno), fun hno => hid (hportable.instanceID.symm.trans hno)⟩
    | move => trivial
    | outside e => trivial
  refine ⟨hsound, fun r hr hunder => ?_⟩
  have hfind : ∀ {k}, s.healthIdentityFromKey k = some (r.service, r.instanceID) →
      AtLeast (s.savers.run kv events).shared k r.updatedAt →
      ∃ x, Stored s (s.savers.run kv events).shared x ∧ Under key x ∧ r.updatedAt ≤ x.updatedAt := by
    intro k hidentity hk
    obtain ⟨x, hx, hnames, htime⟩ := hsound.readable.stored_of_atLeast hidentity hk
    exact ⟨x, hx, hnames hunder, htime⟩
  have hportable := hK.portable r hr
  rcases hr with ⟨k, e, he, hread⟩ | ⟨id, health, hcall, hr⟩
  · obtain ⟨hidentity, record, hvalue, hupdated⟩ := read_names hread
    have hforward : Forward kv (s.savers.run kv events).shared :=
      ThreadSystem.Kept.related (fun _ _ _ hold => hold) (fun _ _ _ h h' k t hold => h' k t (h k t hold)) (kept_savers s)
        (fun _ _ _ _ _ _ _ hJ hmove => (move_saving hJ hmove).1) (fun _ e => nomatch e) (ThreadSystem.Keeps.initial trivial)
        hproper
    exact hfind hidentity (hforward k _ ⟨e, record, he, hvalue, hupdated.le⟩)
  · obtain ⟨maxRevision, hthread⟩ := hsaved id health hcall
    have hdone := (((kept_savers s).run (s := kv) trivial hproper).thread id _ hthread).2.done r hr
    rcases hdone with hbusy | hrest | hno | hno | hatleast
    · cases hbusy
    · cases hrest
    · exact absurd hno hportable.service_ne
    · exact absurd hno hportable.instanceID_ne
    · exact hfind hportable.identity hatleast

/-! ## Restores -/

theorem filtered (registry : Option Listing) (snapshot : List EndpointHealth) :
    ∃ health, filterActiveRegistryHealth (registry.map Listing.answer) snapshot = .ok health ∧ health ⊆ snapshot ∧
      ∀ r ∈ snapshot, r.service ≠ "" → r.instanceID ≠ "" → (∀ l, registry = some l → l.Shows r) → r ∈ health := by
  cases registry with
  | none => exact ⟨snapshot, rfl, List.Subset.refl _, fun r hr _ _ _ => hr⟩
  | some l =>
    by_cases hnil : snapshot = []
    · exact ⟨snapshot, if_pos hnil, List.Subset.refl _, fun r hr _ _ _ => hr⟩
    · refine ⟨snapshot.filter (retained (((recordServices snapshot).flatMap l.instances).foldl addActive ∅)), ?_,
        List.filter_sublist.subset, fun r hr hservice hid hshows => ?_⟩
      · simp only [Option.map_some, filterActiveRegistryHealth, if_neg hnil, activeRegistryEndpoints,
          Listing.gatherActive_answer]
        rfl
      · exact List.mem_filter.mpr
          ⟨hr, (Listing.retained_iff (mem_recordServices hr hservice) hservice hid).mpr (hshows l rfl)⟩

/-- However the saves of all controllers have interleaved: when all of them have returned without an error, a restore
leaves every controller with the newest record that any of them had, if it is fresh and its endpoint is registered. -/
theorem restored_newest (s : EtcdHealthStore) (kv : HealthKV)
    (events : List (ThreadEvent (List EndpointHealth) SaveChoice Empty)) (hstored : Readable s kv)
    (hK : Plain (Known s kv events)) (hsaved : AllSaved s kv events) (key : String) (hties : NoTies (Known s kv events) key)
    (registry : Option Listing) (maxAge : ℤ) (now mergedAt : ℕ)
    (hregistered : ∀ r, Known s kv events r → Under key r → ∀ l, registry = some l → l.Shows r)
    (hfresh : 0 < maxAge → ∀ r, Known s kv events r → Under key r → (now : ℤ) - r.updatedAt ≤ maxAge)
    (m : HealthManager) (hm : ∀ r, m.health.lookup key = some r → Known s kv events r ∧ Under key r) :
    let kv' := (s.savers.run kv events).shared
    ∃ m', restoreHealthSnapshot s kv' (registry.map Listing.answer) maxAge now mergedAt m = (m', .ok kv'.revision) ∧
      ∀ r, m'.health.lookup key = some r ↔ Newest (Known s kv events) key r := by
  intro kv'
  obtain ⟨hsound, hkept⟩ := known_stored key hK hstored hsaved
  obtain ⟨snapshot, hload, hsnapshot⟩ := load_of_readable hsound.readable
  obtain ⟨health, hfilter, hsub, hpasses⟩ := filtered registry (filterFreshHealth snapshot now maxAge)
  have hfreshSub : filterFreshHealth snapshot now maxAge ⊆ snapshot := by
    unfold filterFreshHealth
    split
    · exact List.Subset.refl _
    · exact List.filter_sublist.subset
  have hrecords : ∀ x ∈ snapshot, Known s kv events x := fun x hx => hsound.stored x ((hsnapshot x).mp hx)
  have hstays : ∀ x ∈ snapshot, Under key x → x ∈ filterFreshHealth snapshot now maxAge := by
    intro x hx hunder
    unfold filterFreshHealth
    split
    · exact hx
    · rename_i hlimited
      have hage := hfresh (not_le.mp hlimited) x (hrecords x hx) hunder
      refine List.mem_filter.mpr ⟨hx, ?_⟩
      simp only [Bool.and_eq_true, decide_eq_true_eq]
      exact ⟨(hK.proper x (hrecords x hx)).updatedAt, (min_le_left _ _).trans hage⟩
  refine ⟨m.mergeSnapshot health mergedAt, ?_, fun r => ?_⟩
  · simp only [restoreHealthSnapshot, kv', hload, hfilter]
  · refine lookup_mergeSnapshot_iff hK hties hm (fun x hx => hrecords x (hfreshSub (hsub hx)))
      (fun r' hr' hunder' => ?_) mergedAt r
    obtain ⟨x, hx, hunder, htime⟩ := hkept r' hr' hunder'
    have hmem := (hsnapshot x).mpr hx
    have hproper := hK.proper x (hrecords x hmem)
    exact ⟨x, hpasses x (hstays x hmem hunder) hproper.service hproper.instanceID (hregistered x (hrecords x hmem) hunder),
      hunder, htime⟩

deriving instance DecidableEq for SaveThread

def etcdHealth : EtcdHealthStore := { instancesPrefix := "/h/" }

/-- The second save finds that the first has come between its read and its put. -/
def crossedSaves : List (ThreadEvent (List EndpointHealth) SaveChoice Empty) :=
  [.call 0 [reported .degraded 5], .call 1 [reported .healthy 3]] ++
    [0, 1, 0, 1, 0, 1, 1, 0, 1].map fun id => .move id {}

theorem crossed_saves_restored :
    ∃ m', restoreHealthSnapshot etcdHealth (etcdHealth.savers.run (.empty 0) crossedSaves).shared none 60 7 7
        { calculator := newScoreCalculator {} 0, baseStateMachine := .default } = (m', .ok 1) ∧
      m'.health.lookup "svc/a" = some (reported .degraded 5) := by
  have hcalls : ∀ id health, .call id health ∈ crossedSaves →
      id = 0 ∧ health = [reported .degraded 5] ∨ id = 1 ∧ health = [reported .healthy 3] := by
    intro id health hcall
    simpa [crossedSaves] using hcall
  have hknown : ∀ r, Known etcdHealth (.empty 0) crossedSaves r → r = reported .degraded 5 ∨ r = reported .healthy 3 := by
    rintro r (⟨k, e, he, -⟩ | ⟨id, health, hcall, hr⟩)
    · simp [RevStore.empty] at he
    · rcases hcalls id health hcall with ⟨-, rfl⟩ | ⟨-, rfl⟩
      · exact .inl (List.mem_singleton.mp hr)
      · exact .inr (List.mem_singleton.mp hr)
  have hplain : Plain (Known etcdHealth (.empty 0) crossedSaves) := by
    refine ⟨fun r hr => ?_, fun r hr => ?_⟩
    · rcases hknown r hr with rfl | rfl <;> exact reported_proper _ (by decide)
    · rcases hknown r hr with rfl | rfl <;>
        exact ⟨by decide, by decide, by decide +kernel, by decide +kernel, by decide⟩
  have hsaved : AllSaved etcdHealth (.empty 0) crossedSaves := by
    intro id health hcall
    rcases hcalls id health hcall with ⟨rfl, rfl⟩ | ⟨rfl, rfl⟩
    · exact ⟨1, by decide +kernel⟩
    · exact ⟨0, by decide +kernel⟩
  have hties : NoTies (Known etcdHealth (.empty 0) crossedSaves) "svc/a" := by
    intro r r' hr hr' _ _ htime
    rcases hknown r hr with rfl | rfl <;> rcases hknown r' hr' with rfl | rfl <;> simp [reported] at htime ⊢
  have hrevision : (etcdHealth.savers.run (.empty 0) crossedSaves).shared.revision = 1 := by decide +kernel
  obtain ⟨m', hrestored, hheld⟩ := restored_newest etcdHealth (.empty 0) crossedSaves
    (fun k e he => by simp [RevStore.empty] at he) hplain hsaved "svc/a" hties none 60 7 7 (fun r _ _ l hl => by cases hl)
    (fun _ r hr _ => by rcases hknown r hr with rfl | rfl <;> simp [reported])
    { calculator := newScoreCalculator {} 0, baseStateMachine := .default } (fun r hr => by simp at hr)
  rw [hrevision] at hrestored
  refine ⟨m', hrestored, (hheld _).mpr ⟨⟨.inr ⟨0, _, List.mem_cons_self, List.mem_singleton_self _⟩, ?_⟩, fun r hr _ => ?_⟩⟩
  · unfold Under
    decide
  · rcases hknown r hr with rfl | rfl <;> decide

end Restoring

end AegisMesh.Controller
