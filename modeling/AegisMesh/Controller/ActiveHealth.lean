import AegisMesh.Controller.Telemetry
import AegisMesh.Fault.Revisions
import AegisMesh.Registry.Leases

/-!
# Health of the registered endpoints

Records are fenced against the registry in three places: the overlay, the pruning, and the restore.
-/

open Lib

namespace AegisMesh.Controller

open Registry Fault

/-! ## Fencing against the registry -/

def recordServices (health : List EndpointHealth) : List String :=
  ((health.map EndpointHealth.service).filter (· ≠ "")).dedup

def identityOf (inst : Instance) : EndpointIdentity := ⟨inst.service, inst.id, inst.registrationEpoch⟩

def addActive (active : Dict EndpointIdentity String) (inst : Instance) : Dict EndpointIdentity String :=
  if inst.service = "" ∨ inst.id = "" then active else active.insert (identityOf inst) inst.address

def gatherActive (listed : String → Except RegistryError (List Instance)) :
    List String → Dict EndpointIdentity String → Except RegistryError (Dict EndpointIdentity String)
  | [], active => .ok active
  | service :: rest, active =>
    match listed service with
    | .error err => .error err
    | .ok instances => gatherActive listed rest (instances.foldl addActive active)

def activeRegistryEndpoints (listed : String → Except RegistryError (List Instance)) (health : List EndpointHealth) :
    Except RegistryError (Dict EndpointIdentity String) :=
  gatherActive listed (recordServices health) ∅

def activeRegistryHealthAddress (active : Dict EndpointIdentity String) (health : EndpointHealth) : Option String :=
  HealthManager.retainedEndpointAddress active health

def healthMatchesRegistryAddress (healthAddress registryAddress : String) : Bool :=
  endpointAddressMatches healthAddress registryAddress

/-- A store that is nil lets every record pass. -/
def filterActiveRegistryHealth (store : Option (String → Except RegistryError (List Instance)))
    (snapshot : List EndpointHealth) : Except RegistryError (List EndpointHealth) :=
  match store with
  | none => .ok snapshot
  | some listed =>
    if snapshot = [] then .ok snapshot
    else
      match activeRegistryEndpoints listed snapshot with
      | .error err => .error err
      | .ok active =>
        .ok (snapshot.filter fun health =>
          match activeRegistryHealthAddress active health with
          | some address => healthMatchesRegistryAddress health.address address
          | none => false)

def pruneHealthMissingFromRegistry (store : Option (String → Except RegistryError (List Instance)))
    (m : HealthManager) : HealthManager × Except RegistryError ℕ :=
  match store with
  | none => (m, .ok 0)
  | some listed =>
    if m.list "" = [] then (m, .ok 0)
    else
      match activeRegistryEndpoints listed (m.list "") with
      | .error err => (m, .error err)
      | .ok retain =>
        let m' := m.pruneMissing (some retain)
        (m', .ok (m.health.entries.length - m'.health.entries.length))

/-! ## Listings -/

/-- What a registry lists: each instance under its own service, and no id twice. -/
structure Listing where
  instances : String → List Instance
  own : ∀ {service inst}, inst ∈ instances service → inst.service = service
  distinct : ∀ service, ((instances service).map Instance.id).Nodup

namespace Listing

variable (l : Listing)

def answer (service : String) : Except RegistryError (List Instance) := .ok (l.instances service)

def ofRegistry {r : MemoryRegistry} {t : ℕ} (h : r.WellFormed t) : Listing where
  instances service := r.liveInstances service t
  own hinst := by
    obtain ⟨id, record, hrecord, -, rfl⟩ := MemoryRegistry.mem_liveInstances.mp hinst
    exact (h.own hrecord).1
  distinct service := by
    rw [List.Nodup, List.pairwise_map]
    exact (h.liveInstances_strict service t).imp ne_of_lt

theorem ofRegistry_answer {r : MemoryRegistry} {t : ℕ} (h : r.WellFormed t) {service : String} (hservice : service ≠ "") :
    (r.list .background service t).2 = (ofRegistry h).answer service :=
  MemoryRegistry.list_spec h hservice

def Accepts (p : EndpointStatsSample) (inst : Instance) : Prop :=
  p.service ≠ "" ∧ resolveAmong (l.instances p.service) p.instanceId p.endpointAddress = some inst ∧
    staleEpoch p inst = false

def taken : Option EndpointStatsSample → Option EndpointSample
  | none => none
  | some p =>
    if p.service = "" then none
    else
      (resolveAmong (l.instances p.service) p.instanceId p.endpointAddress).bind fun inst =>
        if staleEpoch p inst then none else some (attributed p inst)

theorem taken_eq_some {p : EndpointStatsSample} {sample : EndpointSample} :
    l.taken (some p) = some sample ↔ ∃ inst, l.Accepts p inst ∧ attributed p inst = sample := by
  by_cases hservice : p.service = ""
  · simp [taken, Accepts, hservice]
  simp only [taken, if_neg hservice, Option.bind_eq_some_iff]
  constructor
  · rintro ⟨inst, hinst, hsample⟩
    split at hsample
    · cases hsample
    · rename_i hstale
      exact ⟨inst, ⟨hservice, hinst, by simpa using hstale⟩, Option.some.inj hsample⟩
  · rintro ⟨inst, ⟨-, hinst, hstale⟩, rfl⟩
    exact ⟨inst, hinst, by simp [hstale]⟩

theorem sampleFromProto_answer (p : Option EndpointStatsSample) : sampleFromProto l.answer p = .ok (l.taken p) := by
  cases p with
  | none => rfl
  | some p =>
    simp only [sampleFromProto, resolveTelemetryInstance, answer, taken]
    split
    · rfl
    · cases resolveAmong (l.instances p.service) p.instanceId p.endpointAddress <;> rfl

theorem samplesFromProto_answer (protos : List (Option EndpointStatsSample)) :
    samplesFromProto l.answer protos = .ok (protos.filterMap l.taken) := by
  induction protos with
  | nil => rfl
  | cons p rest ih =>
    simp only [samplesFromProto, sampleFromProto_answer, ih, Except.map, List.filterMap_cons]
    cases l.taken p <;> rfl

/-! ## The endpoints that are active -/

theorem gatherActive_answer (services : List String) (active : Dict EndpointIdentity String) :
    gatherActive l.answer services active = .ok ((services.flatMap l.instances).foldl addActive active) := by
  induction services generalizing active with
  | nil => rfl
  | cons service rest ih => simp [gatherActive, answer, ih]

end Listing

theorem lookup_addActive (active : Dict EndpointIdentity String) (inst : Instance) (identity : EndpointIdentity) :
    (addActive active inst).lookup identity =
      if (inst.service ≠ "" ∧ inst.id ≠ "") ∧ identity = identityOf inst then some inst.address
      else active.lookup identity := by
  unfold addActive
  by_cases hnamed : inst.service = "" ∨ inst.id = ""
  · rw [if_pos hnamed, if_neg fun h => hnamed.elim h.1.1 h.1.2]
  · rw [if_neg hnamed, Dict.lookup_insert']
    simp only [not_or] at hnamed
    simp [hnamed]

variable {active : Dict EndpointIdentity String}

theorem lookup_active_mem {insts : List Instance} {identity : EndpointIdentity} {address : String}
    (h : (insts.foldl addActive active).lookup identity = some address) :
    active.lookup identity = some address ∨ ∃ inst ∈ insts, identity = identityOf inst ∧ address = inst.address := by
  induction insts generalizing active with
  | nil => exact .inl h
  | cons inst rest ih =>
    rcases ih h with hbefore | ⟨other, hother, hsame⟩
    · rw [lookup_addActive] at hbefore
      split at hbefore
      · rename_i hinst
        exact .inr ⟨inst, by simp, hinst.2, (Option.some.inj hbefore).symm⟩
      · exact .inl hbefore
    · exact .inr ⟨other, List.mem_cons_of_mem _ hother, hsame⟩

theorem lookup_active_isSome {insts : List Instance} {identity : EndpointIdentity}
    (h : (active.lookup identity).isSome ∨
      ∃ inst ∈ insts, (inst.service ≠ "" ∧ inst.id ≠ "") ∧ identity = identityOf inst) :
    ((insts.foldl addActive active).lookup identity).isSome := by
  induction insts generalizing active with
  | nil => simpa using h
  | cons inst rest ih =>
    apply ih
    rw [lookup_addActive]
    split
    · exact .inl rfl
    · rename_i hinst
      rcases h with h | ⟨other, hother, hnamed, hsame⟩
      · exact .inl h
      · rcases List.mem_cons.mp hother with rfl | hother
        · exact absurd ⟨hnamed, hsame⟩ hinst
        · exact .inr ⟨other, hother, hnamed, hsame⟩

namespace Listing

variable {l : Listing}

theorem eq_of_id {service : String} {inst inst' : Instance} (h : inst ∈ l.instances service)
    (h' : inst' ∈ l.instances service) (hid : inst.id = inst'.id) : inst = inst' :=
  List.inj_on_of_nodup_map (l.distinct service) h h' hid

variable {services : List String} {inst : Instance} (hinst : inst ∈ l.instances inst.service)
  (hservice : inst.service ∈ services) (hnamed : inst.service ≠ "" ∧ inst.id ≠ "")
include hinst

theorem lookup_active_listed {epoch address : String}
    (h : ((services.flatMap l.instances).foldl addActive ∅).lookup ⟨inst.service, inst.id, epoch⟩ = some address) :
    epoch = inst.registrationEpoch ∧ address = inst.address := by
  rcases lookup_active_mem h with hempty | ⟨other, hother, hsame, haddress⟩
  · simp at hempty
  · obtain ⟨service, -, hlisted⟩ := List.mem_flatMap.mp hother
    simp only [identityOf, EndpointIdentity.mk.injEq] at hsame
    have hothers : other ∈ l.instances inst.service := by
      rw [hsame.1, l.own hlisted]
      exact hlisted
    obtain rfl := eq_of_id hothers hinst hsame.2.1.symm
    exact ⟨hsame.2.2, haddress⟩

include hservice hnamed

theorem lookup_active :
    ((services.flatMap l.instances).foldl addActive ∅).lookup (identityOf inst) = some inst.address := by
  have hsome : (((services.flatMap l.instances).foldl addActive ∅).lookup (identityOf inst)).isSome :=
    lookup_active_isSome (.inr ⟨inst, List.mem_flatMap.mpr ⟨_, hservice, hinst⟩, hnamed, rfl⟩)
  obtain ⟨address, haddress⟩ := Option.isSome_iff_exists.mp hsome
  rw [haddress, (lookup_active_listed hinst haddress).2]

end Listing

/-! ## One rule for overlay, pruning and restore -/

theorem find_names {service id : String} {e : Sigma fun _ : EndpointIdentity => String}
    (h : (active.entries.find? fun e => e.1.service = service && e.1.instanceID = id) = some e) :
    active.lookup ⟨service, id, e.1.registrationEpoch⟩ = some e.2 := by
  have hnames := List.find?_some h
  simp only [Bool.and_eq_true, decide_eq_true_eq] at hnames
  obtain ⟨rfl, rfl⟩ := hnames
  exact AList.mem_lookup_iff.mpr (List.mem_of_find?_eq_some h)

section

variable {active : Dict EndpointIdentity String} {health : EndpointHealth} {epoch address : String}

theorem lookup_of_retainedEndpointAddress (h : HealthManager.retainedEndpointAddress active health = some address) :
    ∃ epoch, active.lookup ⟨health.service, health.instanceID, epoch⟩ = some address ∧
      healthMatchesInstanceRegistrationEpoch health.registrationEpoch epoch = true := by
  unfold HealthManager.retainedEndpointAddress at h
  split at h
  · rename_i found hown
    rw [← Option.some.inj h]
    exact ⟨_, hown, by simp [healthMatchesInstanceRegistrationEpoch]⟩
  · split at h
    · rename_i found hlegacy
      rw [← Option.some.inj h]
      exact ⟨"", hlegacy, by simp [healthMatchesInstanceRegistrationEpoch]⟩
    · split_ifs at h with hempty
      obtain ⟨e, hfind, rfl⟩ := Option.map_eq_some_iff.mp h
      exact ⟨_, find_names hfind, by simp [healthMatchesInstanceRegistrationEpoch, hempty]⟩

theorem retainedEndpointAddress_isSome (hfound : active.lookup ⟨health.service, health.instanceID, epoch⟩ = some address)
    (hepoch : healthMatchesInstanceRegistrationEpoch health.registrationEpoch epoch = true) :
    (HealthManager.retainedEndpointAddress active health).isSome := by
  unfold HealthManager.retainedEndpointAddress
  split
  · rfl
  · rename_i hown
    split
    · rfl
    · rename_i hlegacy
      have hne : epoch ≠ "" := by
        rintro rfl
        rw [hlegacy] at hfound
        cases hfound
      have hother : health.registrationEpoch ≠ epoch := by
        rintro rfl
        rw [hown] at hfound
        cases hfound
      have hempty : health.registrationEpoch = "" := by
        simpa [healthMatchesInstanceRegistrationEpoch, hne, hother] using hepoch
      rw [if_pos hempty, Option.isSome_map, List.find?_isSome]
      exact ⟨_, AList.mem_lookup_iff.mp hfound, by simp⟩

end

def Listing.Shows (l : Listing) (health : EndpointHealth) : Prop :=
  ∃ inst ∈ l.instances health.service, inst.id = health.instanceID ∧ healthMatchesInstance health inst = true

variable {health : EndpointHealth}

theorem Listing.retained_iff {l : Listing} {services : List String} (hasked : health.service ∈ services)
    (hservice : health.service ≠ "") (hid : health.instanceID ≠ "") :
    HealthManager.retained ((services.flatMap l.instances).foldl addActive ∅) health = true ↔ l.Shows health := by
  constructor
  · intro h
    unfold HealthManager.retained at h
    split at h
    · rename_i address haddress
      obtain ⟨epoch, hfound, hepoch⟩ := lookup_of_retainedEndpointAddress haddress
      rcases lookup_active_mem hfound with hnone | ⟨inst, hinst, hsame, rfl⟩
      · simp at hnone
      · obtain ⟨service, -, hlisted⟩ := List.mem_flatMap.mp hinst
        simp only [identityOf, EndpointIdentity.mk.injEq] at hsame
        obtain ⟨hown, hsameID, rfl⟩ := hsame
        rw [← l.own hlisted, ← hown] at hlisted
        refine ⟨inst, hlisted, hsameID.symm, ?_⟩
        rw [healthMatchesInstance, hepoch, Bool.and_true]
        exact h
    · cases h
  · rintro ⟨inst, hinst, hsameID, hmatches⟩
    have hown := l.own hinst
    rw [healthMatchesInstance, Bool.and_eq_true] at hmatches
    have hactive := lookup_active (hown ▸ hinst) (hown ▸ hasked) ⟨hown ▸ hservice, hsameID ▸ hid⟩
    rw [identityOf, hown, hsameID] at hactive
    obtain ⟨address, haddress⟩ := Option.isSome_iff_exists.mp (retainedEndpointAddress_isSome hactive hmatches.2)
    obtain ⟨epoch, hfound, -⟩ := lookup_of_retainedEndpointAddress haddress
    rw [← hown, ← hsameID] at hfound
    obtain ⟨-, rfl⟩ := lookup_active_listed (hown ▸ hinst) hfound
    simp only [HealthManager.retained, haddress]
    exact hmatches.1

theorem mem_recordServices {records : List EndpointHealth} (h : health ∈ records) (hservice : health.service ≠ "") :
    health.service ∈ recordServices records := by
  simp only [recordServices, List.mem_dedup, List.mem_filter, List.mem_map, decide_eq_true_eq]
  exact ⟨⟨health, h, rfl⟩, hservice⟩

/-! ## Accepted telemetry -/

/-- The record held for an instance takes part in routing: the overlay applies it, pruning keeps it
and a restore lets it through. -/
structure Influences (l : Listing) (m : HealthManager) (inst : Instance) (health : EndpointHealth) : Prop where
  stored : m.get inst.service inst.id = some health
  overlaid : healthMatchesInstance health inst = true
  kept : (pruneHealthMissingFromRegistry (some l.answer) m).1.get inst.service inst.id = some health
  restored : ∃ passed, filterActiveRegistryHealth (some l.answer) (m.list "") = .ok passed ∧ health ∈ passed

theorem mem_list {m : HealthManager} {service id : String} (h : m.get service id = some health) :
    health ∈ m.list "" := by
  rw [HealthManager.list, mem_sortBy]
  simpa using Dict.mem_values.mpr ⟨_, h⟩

theorem influences_iff {l : Listing} {m : HealthManager} {inst : Instance} (hinst : inst ∈ l.instances inst.service)
    (hnamed : inst.service ≠ "" ∧ inst.id ≠ "") (hstored : m.get inst.service inst.id = some health)
    (hnames : health.service = inst.service ∧ health.instanceID = inst.id)
    (hepoch : health.registrationEpoch = inst.registrationEpoch ∨ inst.registrationEpoch = "") :
    Influences l m inst health ↔ healthMatchesInstanceAddress health.address inst.address = true := by
  refine ⟨fun h => (Bool.and_eq_true _ _ ▸ h.overlaid).1, fun h => ?_⟩
  have hmatches : healthMatchesInstance health inst = true := by
    simp only [healthMatchesInstance, h, Bool.true_and, healthMatchesInstanceRegistrationEpoch]
    rcases hepoch with hepoch | hepoch <;> simp [hepoch]
  have hshows : l.Shows health := ⟨inst, hnames.1 ▸ hinst, hnames.2.symm, hmatches⟩
  have hservice : health.service ≠ "" := hnames.1 ▸ hnamed.1
  have hid : health.instanceID ≠ "" := hnames.2 ▸ hnamed.2
  have hlist : health ∈ m.list "" := mem_list hstored
  have hretained := (Listing.retained_iff (mem_recordServices hlist hservice) hservice hid).mpr hshows
  have hne : m.list "" ≠ [] := List.ne_nil_of_mem hlist
  refine ⟨hstored, hmatches, ?_, ?_⟩
  · simp only [pruneHealthMissingFromRegistry, if_neg hne, activeRegistryEndpoints, Listing.gatherActive_answer,
      HealthManager.pruneMissing, HealthManager.get, HealthManager.bumpIfChanged_health, Dict.lookup_filter]
    rw [Option.filter_eq_some_iff]
    exact ⟨hstored, hretained⟩
  · simp only [filterActiveRegistryHealth, if_neg hne, activeRegistryEndpoints, Listing.gatherActive_answer,
      Except.ok.injEq, exists_eq_left', List.mem_filter]
    exact ⟨hlist, hretained⟩

theorem ownedBy_place (before : EndpointHealth) (p : EndpointStatsSample) (inst : Instance) :
    healthMatchesInstanceAddress (HealthManager.ownedBy before (attributed p inst)).address inst.address =
      healthMatchesInstanceAddress p.endpointAddress inst.address := by
  by_cases haddress : p.endpointAddress = ""
  · by_cases hinst : inst.address = "" <;>
      simp [HealthManager.ownedBy, attributed, healthMatchesInstanceAddress, haddress, hinst]
  · simp [HealthManager.ownedBy, attributed, haddress]

theorem ownedBy_epoch (before : EndpointHealth) {p : EndpointStatsSample} {inst : Instance}
    (h : staleEpoch p inst = false) :
    (HealthManager.ownedBy before (attributed p inst)).registrationEpoch = inst.registrationEpoch ∨
      inst.registrationEpoch = "" := by
  by_cases hinst : inst.registrationEpoch = ""
  · exact .inr hinst
  · by_cases hepoch : p.registrationEpoch = ""
    · simp [HealthManager.ownedBy, attributed, hepoch, hinst]
    · have hsame : p.registrationEpoch = inst.registrationEpoch := by simpa [staleEpoch, hepoch, hinst] using h
      simp [HealthManager.ownedBy, attributed, hsame, hinst]

namespace Listing

variable {l : Listing}

theorem Accepts.mem {p : EndpointStatsSample} {inst : Instance} (h : l.Accepts p inst) :
    inst ∈ l.instances inst.service ∧ inst.service = p.service := by
  have hmem := mem_of_resolveAmong h.2.1
  have hservice := l.own hmem
  exact ⟨hservice ▸ hmem, hservice⟩

structure OwnKey (l : Listing) (m : HealthManager) (protos : List (Option EndpointStatsSample)) (inst : Instance) :
    Prop where
  held : ∀ health, m.get inst.service inst.id = some health →
    health.service = inst.service ∧ health.instanceID = inst.id
  told : ∀ q, some q ∈ protos → ∀ other, l.Accepts q other →
    scoreKey other.service other.id = scoreKey inst.service inst.id → other = inst

theorem ownKey_of_plain {m : HealthManager} (hm : m.Filed) {protos : List (Option EndpointStatsSample)}
    {inst : Instance} (hinst : inst ∈ l.instances inst.service) (hplain : PlainName inst.service)
    (hprotos : ∀ q, some q ∈ protos → PlainName q.service) : OwnKey l m protos inst where
  held health hhealth := by
    obtain ⟨hkey, hhealthPlain⟩ := hm.records _ health hhealth
    obtain ⟨hservice, hid⟩ := (scoreKey_inj hplain hhealthPlain).mp hkey
    exact ⟨hservice.symm, hid.symm⟩
  told q hq other hother hkey := by
    have hotherPlain : PlainName other.service := hother.mem.2 ▸ hprotos q hq
    obtain ⟨hservice, hid⟩ := (scoreKey_inj hotherPlain hplain).mp hkey
    exact eq_of_id (hservice ▸ hother.mem.1) hinst hid

section

variable {m : HealthManager} {front rest : List (Option EndpointStatsSample)} {p : EndpointStatsSample} {inst : Instance}
  (hown : OwnKey l m (front ++ some p :: rest) inst)
include hown

theorem OwnKey.sample {sample : EndpointSample}
    (h : sample ∈ samplesUnder (scoreKey inst.service inst.id) ((front ++ some p :: rest).filterMap l.taken)) :
    ∃ q, l.Accepts q inst ∧ some q ∈ front ++ some p :: rest ∧ attributed q inst = sample := by
  obtain ⟨hmem, hunder⟩ := List.mem_filter.mp h
  obtain ⟨q, hq, htaken⟩ := List.mem_filterMap.mp hmem
  cases q with
  | none => cases htaken
  | some q =>
    obtain ⟨other, hother, rfl⟩ := l.taken_eq_some.mp htaken
    simp only [EndpointSample.under, Bool.and_eq_true, decide_eq_true_eq] at hunder
    have hkey : scoreKey other.service other.id = scoreKey inst.service inst.id := by
      rw [hother.mem.2]
      exact hunder.2
    obtain rfl := hown.told q hq other hother hkey
    exact ⟨q, hother, hq, rfl⟩

theorem OwnKey.samplesUnder_taken (hid : inst.id ≠ "") (hp : l.Accepts p inst)
    (hlast : ∀ q, some q ∈ rest → ¬ l.Accepts q inst) :
    samplesUnder (scoreKey inst.service inst.id) ((front ++ some p :: rest).filterMap l.taken) =
      samplesUnder (scoreKey inst.service inst.id) (front.filterMap l.taken) ++ [attributed p inst] := by
  have htaken : l.taken (some p) = some (attributed p inst) := l.taken_eq_some.mpr ⟨inst, hp, rfl⟩
  have hunder : (attributed p inst).under (scoreKey inst.service inst.id) = true := by
    simp [EndpointSample.under, attributed, hp.mem.2, hp.1, hid]
  have hrest : samplesUnder (scoreKey inst.service inst.id) (rest.filterMap l.taken) = [] := by
    rw [samplesUnder, List.filter_eq_nil_iff]
    intro sample hsample hunder
    obtain ⟨q, hq, hqtaken⟩ := List.mem_filterMap.mp hsample
    cases q with
    | none => cases hqtaken
    | some q =>
      obtain ⟨other, hother, rfl⟩ := l.taken_eq_some.mp hqtaken
      simp only [EndpointSample.under, Bool.and_eq_true, decide_eq_true_eq] at hunder
      obtain rfl := hown.told q (by simp [hq]) other hother (by rw [hother.mem.2]; exact hunder.2)
      exact hlast q hq hother
  simp only [samplesUnder, List.filterMap_append, List.filterMap_cons, htaken, List.filter_append, List.filter_cons,
    hunder, if_true] at hrest ⊢
  rw [hrest]

end

end Listing

/-- A report whose last sample for a listed instance is `p` leaves that instance a record that takes
part in routing exactly when the address in `p` is the one registered, as far as both are known. -/
theorem accepted_telemetry_routes_iff (l : Listing) (m : HealthManager)
    {front rest : List (Option EndpointStatsSample)} {p : EndpointStatsSample} {inst : Instance}
    (hown : l.OwnKey m (front ++ some p :: rest) inst) (hid : inst.id ≠ "")
    (hp : l.Accepts p inst) (hlast : ∀ q, some q ∈ rest → ¬ l.Accepts q inst) (now wall : ℕ) :
    (∃ health, Influences l (reportEndpointStats l.answer m now wall (some (front ++ some p :: rest))).1 inst health) ↔
      healthMatchesInstanceAddress p.endpointAddress inst.address = true := by
  simp only [reportEndpointStats, l.samplesFromProto_answer]
  obtain ⟨hinst, hservice⟩ := hp.mem
  obtain ⟨before, health, hstored, howner⟩ := m.get_update_owner (hown.samplesUnder_taken hid hp hlast) now wall
  have hnames := m.get_update_names hown.held (fun sample hsample => by
    obtain ⟨q, hq, -, rfl⟩ := hown.sample hsample
    exact ⟨hq.mem.2.symm, rfl⟩) now wall hstored
  simp only [EndpointHealth.owner, Prod.mk.injEq] at howner
  have hepoch := ownedBy_epoch before hp.2.2
  rw [← howner.2.2.2] at hepoch
  have hone := influences_iff hinst ⟨hservice ▸ hp.1, hid⟩ hstored hnames hepoch
  rw [← ownedBy_place before, ← howner.2.2.1, ← hone]
  constructor
  · rintro ⟨other, hother⟩
    obtain rfl := Option.some.inj (hstored.symm.trans hother.stored)
    exact hother
  · exact fun h => ⟨health, h⟩

def soleListing (inst : Instance) : Listing where
  instances service := if service = inst.service then [inst] else []
  own hinst := by split at hinst <;> simp_all
  distinct service := by split <;> simp

def userA : Instance :=
  { id := "user-a", service := "user-service", address := "user-a:7001", status := .healthy, registrationEpoch := "e" }

def slowAt (endpointAddress : String) : EndpointStatsSample :=
  { service := "user-service", endpointAddress, requestCount := 10, latencyP95Seconds := 1 }

def strictManager : HealthManager :=
  { calculator := newScoreCalculator {} 100000000, baseStateMachine := { consecutiveWindows := 1 } }

theorem port_attribution_without_effect :
    let l := soleListing userA
    let m := (reportEndpointStats l.answer strictManager 3 3 (some [some (slowAt "172.20.0.4:7001")])).1
    (m.get "user-service" "user-a").map (fun health => (health.address, health.state)) =
      some ("172.20.0.4:7001", .ejected) ∧
    (overlayHealth userA (m.get "user-service" "user-a")).1.status = .healthy ∧
    (pruneHealthMissingFromRegistry (some l.answer) m).1.get "user-service" "user-a" = none ∧
    (filterActiveRegistryHealth (some l.answer) (m.list "")).toOption = some [] := by
  decide +kernel

theorem address_attribution_routes :
    ∃ health, Influences (soleListing userA)
      (reportEndpointStats (soleListing userA).answer strictManager 3 3 (some ([] ++ some (slowAt "user-a:7001") :: []))).1
      userA health := by
  have hfiled : strictManager.Filed :=
    ⟨fun key health h => by simp [strictManager] at h, fun service => by simp [strictManager]⟩
  have hplain : PlainName userA.service := by unfold PlainName; decide
  have hown : (soleListing userA).OwnKey strictManager ([] ++ some (slowAt "user-a:7001") :: []) userA := by
    refine Listing.ownKey_of_plain hfiled (by decide) hplain fun q hq => ?_
    obtain rfl : q = slowAt "user-a:7001" := by simpa using hq
    exact hplain
  exact (accepted_telemetry_routes_iff (soleListing userA) strictManager hown (by decide)
    ⟨by decide, by decide +kernel, by decide⟩ (by simp) 3 3).mpr (by decide)

/-- A restore passes a record, and pruning keeps it, exactly if the overlay would apply it to a listed instance. -/
theorem fencing_rules_agree (l : Listing) {health : EndpointHealth} (hservice : health.service ≠ "")
    (hid : health.instanceID ≠ "") :
    (∀ snapshot, health ∈ snapshot → ∃ passed,
      filterActiveRegistryHealth (some l.answer) snapshot = .ok passed ∧ (health ∈ passed ↔ l.Shows health)) ∧
    ∀ records, health ∈ records → ∃ retain, activeRegistryEndpoints l.answer records = .ok retain ∧
      ∀ (m : HealthManager) (key : String), m.health.lookup key = some health →
        ((m.pruneMissing (some retain)).health.lookup key = some health ↔ l.Shows health) := by
  constructor
  · intro snapshot hmem
    have hpassed : filterActiveRegistryHealth (some l.answer) snapshot = .ok (snapshot.filter
        (HealthManager.retained (((recordServices snapshot).flatMap l.instances).foldl addActive ∅))) := by
      simp only [filterActiveRegistryHealth, if_neg (List.ne_nil_of_mem hmem), activeRegistryEndpoints,
        Listing.gatherActive_answer]
      rfl
    refine ⟨_, hpassed, ?_⟩
    rw [List.mem_filter, Listing.retained_iff (mem_recordServices hmem hservice) hservice hid]
    exact ⟨fun h => h.2, fun h => ⟨hmem, h⟩⟩
  · intro records hmem
    refine ⟨_, l.gatherActive_answer _ ∅, fun m key hheld => ?_⟩
    rw [← Listing.retained_iff (mem_recordServices hmem hservice) hservice hid]
    simp only [HealthManager.pruneMissing, HealthManager.bumpIfChanged_health, Dict.lookup_filter]
    rw [Option.filter_eq_some_iff]
    exact ⟨fun h => h.2, fun h => ⟨hheld, h⟩⟩

theorem legacy_record_restored :
    ∃ passed, filterActiveRegistryHealth (some (soleListing userA).answer)
        [{ service := "user-service", instanceID := "user-a" }] = .ok passed ∧
      { service := "user-service", instanceID := "user-a" } ∈ passed := by
  have hagree := @fencing_rules_agree (soleListing userA) { service := "user-service", instanceID := "user-a" }
    (by decide) (by decide)
  obtain ⟨passed, hpassed, hiff⟩ := hagree.1 _ (List.mem_singleton_self _)
  exact ⟨passed, hpassed, hiff.mpr ⟨userA, by decide, rfl, by decide⟩⟩

end AegisMesh.Controller
