import AegisMesh.Fault.HealthStore
import AegisMesh.Lib.LeasedStore
import AegisMesh.Lib.Threads

/-!
# Controllers that save their health to one store

A save reads the record under a key and puts its own only over the revision that it has
read, and only if that record is not newer.
-/

open Lib

namespace AegisMesh.Fault

open Telemetry

abbrev HealthKV := RevStore String HealthValue

/-- Where a `Save` is: at the top of its loop, before its read of a key, between read and put, or back. -/
inductive SavePlace
  | scanning (rest : List EndpointHealth) (maxRevision : ℕ)
  | reading (endpoint : EndpointHealth) (rest : List EndpointHealth) (maxRevision : ℕ)
  | putting (endpoint : EndpointHealth) (expectedRevision : ℕ) (rest : List EndpointHealth) (maxRevision : ℕ)
  | returned (maxRevision : ℕ) (err : Option String)

structure SaveThread where
  given : List EndpointHealth
  place : SavePlace

/-- What the code leaves open. `identical` tells whether equal times are also the same to Go's `==`, which looks at
their clock readings and locations too. -/
structure SaveChoice where
  now : ℕ := 0
  gap : ℕ := 0
  marshalErr : Option String := none
  getErr : Option String := none
  identical : Bool := true
  put : Outcome := .answered
  ctxErr : Option String := none

namespace EtcdHealthStore

variable (s : EtcdHealthStore)

def key (endpoint : EndpointHealth) : String := s.healthInstanceKey endpoint.service endpoint.instanceID

def prepared (endpoint : EndpointHealth) (now : ℕ) : EndpointHealth :=
  { endpoint with
    state := endpoint.state.normalized
    updatedAt := if endpoint.updatedAt = 0 then now else endpoint.updatedAt }

def afterGet (entry : Option (Entry HealthValue)) (endpoint : EndpointHealth) (rest : List EndpointHealth)
    (maxRevision : ℕ) (identical : Bool) : SavePlace :=
  match entry with
  | none => .putting endpoint 0 rest maxRevision
  | some current =>
    match s.healthFromKV (s.key endpoint) current.value with
    | .error err => .returned maxRevision (some err)
    | .ok (existing, _) =>
      if endpoint.updatedAt < existing.updatedAt || (decide (existing = endpoint) && identical) then
        .scanning rest maxRevision
      else .putting endpoint current.modRevision rest maxRevision

def putIfModRevision (kv : HealthKV) (c : SaveChoice) (endpoint : EndpointHealth) (expectedRevision : ℕ) :
    HealthKV × Except String (ℕ × Bool) :=
  c.put.call kv fun kv =>
    match kv.putIf c.gap (s.key endpoint) (.ok (encodeHealth endpoint)) expectedRevision with
    | (kv, stored) => (kv, .ok (kv.revision, stored))

def saveStep (kv : HealthKV) (place : SavePlace) (c : SaveChoice) : Option (HealthKV × SavePlace) :=
  match place with
  | .scanning [] maxRevision => some (kv, .returned maxRevision none)
  | .scanning (endpoint :: rest) maxRevision =>
    if endpoint.service = "" ∨ endpoint.instanceID = "" then some (kv, .scanning rest maxRevision)
    else
      match c.marshalErr with
      | some err => some (kv, .returned maxRevision (some err))
      | none => some (kv, .reading (prepared endpoint c.now) rest maxRevision)
  | .reading endpoint rest maxRevision =>
    match c.getErr with
    | some err => some (kv, .returned maxRevision (some err))
    | none => some (kv, s.afterGet (kv.entries.lookup (s.key endpoint)) endpoint rest maxRevision c.identical)
  | .putting endpoint expectedRevision rest maxRevision =>
    match s.putIfModRevision kv c endpoint expectedRevision with
    | (kv, .error err) => some (kv, .returned maxRevision (some err))
    | (kv, .ok (revision, true)) => some (kv, .scanning rest (max revision maxRevision))
    | (kv, .ok (_, false)) =>
      match c.ctxErr with
      | some err => some (kv, .returned maxRevision (some err))
      | none => some (kv, .reading endpoint rest maxRevision)
  | .returned _ _ => none

def savers : ThreadSystem HealthKV SaveThread (List EndpointHealth) SaveChoice Empty where
  start health := { given := health, place := .scanning health 0 }
  move _ kv t c := (s.saveStep kv t.place c).map fun (kv, place) => (kv, { t with place })
  outside _ e := nomatch e

/-! ## Times under the keys -/

def AtLeast (kv : HealthKV) (key : String) (time : ℕ) : Prop :=
  ∃ e record, kv.entries.lookup key = some e ∧ e.value = .ok record ∧ time ≤ record.updatedAt

def Forward (kv kv' : HealthKV) : Prop := ∀ key time, AtLeast kv key time → AtLeast kv' key time

def Named (endpoint : EndpointHealth) : Prop := trimSpace endpoint.service ≠ "" ∧ trimSpace endpoint.instanceID ≠ ""

def Settled (kv : HealthKV) (endpoint : EndpointHealth) : Prop :=
  endpoint.service = "" ∨ endpoint.instanceID = "" ∨ AtLeast kv (s.key endpoint) endpoint.updatedAt

structure MayPut (kv : HealthKV) (endpoint : EndpointHealth) (expectedRevision : ℕ) : Prop where
  bound : expectedRevision ≤ kv.revision
  older : ∀ e record, kv.entries.lookup (s.key endpoint) = some e → e.modRevision = expectedRevision →
    e.value = .ok record → record.updatedAt ≤ endpoint.updatedAt

structure Stands (given written : EndpointHealth) : Prop where
  named : Named written
  service : written.service = given.service
  instanceID : written.instanceID = given.instanceID
  time : given.updatedAt ≤ written.updatedAt

structure Progress (kv : HealthKV) (given busy rest : List EndpointHealth) : Prop where
  left : rest ⊆ given
  done : ∀ r ∈ given, r ∈ busy ∨ r ∈ rest ∨ s.Settled kv r

def Doing (kv : HealthKV) (given : List EndpointHealth) : SavePlace → Prop
  | .scanning rest _ => s.Progress kv given [] rest
  | .reading endpoint rest _ => ∃ first, Stands first endpoint ∧ s.Progress kv given [first] rest
  | .putting endpoint expectedRevision rest _ =>
    s.MayPut kv endpoint expectedRevision ∧ ∃ first, Stands first endpoint ∧ s.Progress kv given [first] rest
  | .returned _ none => s.Progress kv given [] []
  | .returned _ (some _) => True

def Proper (given : List EndpointHealth) : Prop :=
  ∀ r ∈ given, r.service ≠ "" → r.instanceID ≠ "" → Named r

variable {s} {kv kv' : HealthKV} {given busy rest : List EndpointHealth} {endpoint first : EndpointHealth}
  {place : SavePlace} {c : SaveChoice}

theorem forward_put (h : s.MayPut kv endpoint (kv.modRevision (s.key endpoint))) (gap : ℕ) :
    Forward kv (kv.put gap (s.key endpoint) (.ok (encodeHealth endpoint))) ∧
    AtLeast (kv.put gap (s.key endpoint) (.ok (encodeHealth endpoint))) (s.key endpoint) endpoint.updatedAt := by
  have hnew : AtLeast (kv.put gap (s.key endpoint) (.ok (encodeHealth endpoint))) (s.key endpoint) endpoint.updatedAt :=
    ⟨_, _, by rw [RevStore.lookup_put, if_pos rfl], rfl, le_rfl⟩
  refine ⟨fun key time hold => ?_, hnew⟩
  obtain ⟨e, record, he, hvalue, htime⟩ := hold
  by_cases hkey : key = s.key endpoint
  · subst hkey
    have hrevision : e.modRevision = kv.modRevision (s.key endpoint) := by simp [RevStore.modRevision, he]
    obtain ⟨e', record', he', hvalue', htime'⟩ := hnew
    exact ⟨e', record', he', hvalue', le_trans htime (le_trans (h.older e record he hrevision hvalue) htime')⟩
  · exact ⟨e, record, by rw [RevStore.lookup_put, if_neg hkey, he], hvalue, htime⟩

theorem Progress.mono (h : s.Progress kv given busy rest) (hforward : Forward kv kv') :
    s.Progress kv' given busy rest := by
  refine ⟨h.left, fun r hr => ?_⟩
  rcases h.done r hr with hbusy | hrest | hservice | hid | hsaved
  · exact .inl hbusy
  · exact .inr (.inl hrest)
  · exact .inr (.inr (.inl hservice))
  · exact .inr (.inr (.inr (.inl hid)))
  · exact .inr (.inr (.inr (.inr (hforward _ _ hsaved))))

theorem MayPut.later {expectedRevision : ℕ} (h : s.MayPut kv endpoint expectedRevision)
    (hlater : RevStore.Later kv kv') : s.MayPut kv' endpoint expectedRevision := by
  refine ⟨le_trans h.bound hlater.revision_le, fun e record he hrevision hvalue => ?_⟩
  have hbound := h.bound
  exact h.older e record (hlater.kept _ e he (by omega)) hrevision hvalue

theorem Doing.mono (h : s.Doing kv given place) (hforward : Forward kv kv') (hlater : RevStore.Later kv kv') :
    s.Doing kv' given place := by
  cases place with
  | scanning rest maxRevision => exact Progress.mono h hforward
  | reading endpoint rest maxRevision =>
    obtain ⟨first, hstands, hprogress⟩ := h
    exact ⟨first, hstands, hprogress.mono hforward⟩
  | putting endpoint expectedRevision rest maxRevision =>
    obtain ⟨hput, first, hstands, hprogress⟩ := h
    exact ⟨hput.later hlater, first, hstands, hprogress.mono hforward⟩
  | returned maxRevision err =>
    cases err with
    | none => exact Progress.mono h hforward
    | some err => trivial

theorem Progress.settle (h : s.Progress kv given [first] rest) (hstands : Stands first endpoint)
    (hsaved : AtLeast kv (s.key endpoint) endpoint.updatedAt) : s.Progress kv given [] rest := by
  refine ⟨h.left, fun r hr => ?_⟩
  rcases h.done r hr with hbusy | hdone
  · obtain rfl := List.mem_singleton.mp hbusy
    obtain ⟨e, record, he, hvalue, htime⟩ := hsaved
    refine .inr (.inr (.inr (.inr ⟨e, record, ?_, hvalue, le_trans hstands.time htime⟩)))
    rw [← he, key, key, hstands.service, hstands.instanceID]
  · exact .inr hdone

/-! ## The steps of a save -/

theorem doing_scanning {records : List EndpointHealth} {maxRevision : ℕ} (hproper : Proper given)
    (h : s.Progress kv given [] records) (hstep : s.saveStep kv (.scanning records maxRevision) c = some (kv', place)) :
    kv' = kv ∧ s.Doing kv given place := by
  cases records with
  | nil =>
    cases hstep
    exact ⟨rfl, h⟩
  | cons endpoint rest =>
    obtain ⟨hmem, hrest⟩ := List.cons_subset.mp h.left
    have hleft : s.Progress kv given [endpoint] rest := by
      refine ⟨hrest, fun r hr => ?_⟩
      rcases h.done r hr with hbusy | hleft | hsettled
      · cases hbusy
      · rcases List.mem_cons.mp hleft with rfl | hleft
        · exact .inl (List.mem_singleton_self r)
        · exact .inr (.inl hleft)
      · exact .inr (.inr hsettled)
    simp only [saveStep] at hstep
    split at hstep
    · rename_i hskip
      cases hstep
      refine ⟨rfl, hrest, fun r hr => ?_⟩
      rcases hleft.done r hr with hbusy | hdone
      · obtain rfl := List.mem_singleton.mp hbusy
        exact .inr (.inr (hskip.imp id .inl))
      · exact .inr hdone
    · rename_i hnamed
      obtain ⟨hservice, hid⟩ := not_or.mp hnamed
      split at hstep
      · cases hstep
        exact ⟨rfl, trivial⟩
      · cases hstep
        refine ⟨rfl, endpoint, ⟨hproper endpoint hmem hservice hid, rfl, rfl, ?_⟩, hleft⟩
        simp only [prepared]
        split <;> omega

theorem doing_reading {maxRevision : ℕ} (hstands : Stands first endpoint) (h : s.Progress kv given [first] rest)
    (hstep : s.saveStep kv (.reading endpoint rest maxRevision) c = some (kv', place)) :
    kv' = kv ∧ s.Doing kv given place := by
  simp only [saveStep] at hstep
  split at hstep
  · cases hstep
    exact ⟨rfl, trivial⟩
  cases hstep
  refine ⟨rfl, ?_⟩
  unfold afterGet
  cases hlookup : kv.entries.lookup (s.key endpoint) with
  | none =>
    refine ⟨⟨Nat.zero_le _, fun e record he => ?_⟩, first, hstands, h⟩
    rw [hlookup] at he
    cases he
  | some current =>
    dsimp only
    cases hvalue : s.healthFromKV (s.key endpoint) current.value with
    | error err => trivial
    | ok found =>
      obtain ⟨existing, ok⟩ := found
      -- The reader has found a record, and its time.
      have hrecord : ∀ record, current.value = .ok record → existing.updatedAt = record.updatedAt := by
        intro record heq
        rw [heq] at hvalue
        exact s.healthFromKV_updatedAt hstands.named.1 hstands.named.2 hvalue
      have hread : ∃ record, current.value = .ok record := by
        cases hcurrent : current.value with
        | ok record => exact ⟨record, rfl⟩
        | error err =>
          rw [hcurrent, healthFromKV, key, s.healthIdentityFromKey_key hstands.named.1 hstands.named.2] at hvalue
          cases hvalue
      obtain ⟨record, hok⟩ := hread
      dsimp only
      split
      · rename_i hkeep
        refine h.settle hstands ⟨current, record, hlookup, hok, ?_⟩
        rw [← hrecord record hok]
        simp only [Bool.or_eq_true, decide_eq_true_eq, Bool.and_eq_true] at hkeep
        rcases hkeep with hnewer | ⟨rfl, -⟩
        · exact le_of_lt hnewer
        · exact le_rfl
      · rename_i hput
        simp only [Bool.or_eq_true, decide_eq_true_eq, not_or, not_lt] at hput
        refine ⟨⟨(kv.bounded _ _ hlookup).2, fun e record' he hrevision hvalue' => ?_⟩, first, hstands, h⟩
        obtain rfl : current = e := Option.some.inj (hlookup.symm.trans he)
        rw [← hrecord record' hvalue']
        exact hput.1

theorem putIfModRevision_cases (s : EtcdHealthStore) (kv : HealthKV) (c : SaveChoice) (endpoint : EndpointHealth)
    (expectedRevision : ℕ) :
    (∃ answer, s.putIfModRevision kv c endpoint expectedRevision = (kv, answer) ∧ ∀ revision, answer ≠ .ok (revision, true)) ∨
    (kv.modRevision (s.key endpoint) = expectedRevision ∧ ∃ answer, s.putIfModRevision kv c endpoint expectedRevision =
      (kv.put c.gap (s.key endpoint) (.ok (encodeHealth endpoint)), answer)) := by
  unfold putIfModRevision
  rcases kv.putIf_cases c.gap (s.key endpoint) (.ok (encodeHealth endpoint)) expectedRevision with hput | ⟨hrevision, hput⟩
  · cases c.put with
    | refused err => exact .inl ⟨.error err, rfl, by simp⟩
    | answered => exact .inl ⟨.ok (kv.revision, false), by simp only [Outcome.call, hput], by simp⟩
    | lost err => exact .inl ⟨.error err, by simp only [Outcome.call, hput], by simp⟩
  · cases c.put with
    | refused err => exact .inl ⟨_, rfl, by simp⟩
    | answered => exact .inr ⟨hrevision, .ok (_, true), by simp only [Outcome.call, hput]; rfl⟩
    | lost err => exact .inr ⟨hrevision, .error err, by simp only [Outcome.call, hput]⟩

theorem doing_putting {expectedRevision maxRevision : ℕ} (hput : s.MayPut kv endpoint expectedRevision)
    (hstands : Stands first endpoint) (h : s.Progress kv given [first] rest)
    (hstep : s.saveStep kv (.putting endpoint expectedRevision rest maxRevision) c = some (kv', place)) :
    Forward kv kv' ∧ RevStore.Later kv kv' ∧ s.Doing kv' given place := by
  simp only [saveStep] at hstep
  rcases s.putIfModRevision_cases kv c endpoint expectedRevision with ⟨answer, hanswer, hnot⟩ | ⟨rfl, answer, hanswer⟩
  · rw [hanswer] at hstep
    have hkeep : kv' = kv ∧ s.Doing kv given place := by
      split at hstep
      · rename_i heq
        cases heq
        cases hstep
        exact ⟨rfl, trivial⟩
      · rename_i heq
        cases heq
        exact absurd rfl (hnot _)
      · rename_i heq
        cases heq
        split at hstep
        · cases hstep
          exact ⟨rfl, trivial⟩
        · cases hstep
          exact ⟨rfl, first, hstands, h⟩
    obtain ⟨rfl, hdoing⟩ := hkeep
    exact ⟨fun _ _ hold => hold, .refl _, hdoing⟩
  · obtain ⟨hforward, hsaved⟩ := forward_put hput c.gap
    rw [hanswer] at hstep
    have hprogress := h.mono hforward
    have hkeep : kv' = kv.put c.gap (s.key endpoint) (.ok (encodeHealth endpoint)) ∧ s.Doing kv' given place := by
      split at hstep
      · rename_i heq
        cases heq
        cases hstep
        exact ⟨rfl, trivial⟩
      · rename_i heq
        cases heq
        cases hstep
        exact ⟨rfl, hprogress.settle hstands hsaved⟩
      · rename_i heq
        cases heq
        split at hstep
        · cases hstep
          exact ⟨rfl, trivial⟩
        · cases hstep
          exact ⟨rfl, first, hstands, hprogress⟩
    obtain ⟨rfl, hdoing⟩ := hkeep
    exact ⟨hforward, RevStore.later_put _ _ _ _, hdoing⟩

theorem doing_saveStep {place place' : SavePlace} (hproper : Proper given) (h : s.Doing kv given place)
    (hstep : s.saveStep kv place c = some (kv', place')) :
    Forward kv kv' ∧ RevStore.Later kv kv' ∧ s.Doing kv' given place' := by
  have hsame : kv' = kv ∧ s.Doing kv given place' → Forward kv kv' ∧ RevStore.Later kv kv' ∧ s.Doing kv' given place' := by
    rintro ⟨rfl, hdoing⟩
    exact ⟨fun _ _ hold => hold, .refl _, hdoing⟩
  cases place with
  | scanning records maxRevision => exact hsame (doing_scanning hproper h hstep)
  | reading endpoint rest maxRevision =>
    obtain ⟨first, hstands, hprogress⟩ := h
    exact hsame (doing_reading hstands hprogress hstep)
  | putting endpoint expectedRevision rest maxRevision =>
    obtain ⟨hput, first, hstands, hprogress⟩ := h
    exact doing_putting hput hstands hprogress hstep
  | returned maxRevision err => cases hstep

/-! ## Runs -/

def ProperCall : ThreadEvent (List EndpointHealth) SaveChoice Empty → Prop
  | .call _ health => Proper health
  | _ => True

def Saving (s : EtcdHealthStore) (kv : HealthKV) (_ : ℕ) (t : SaveThread) : Prop :=
  Proper t.given ∧ s.Doing kv t.given t.place

theorem move_saving {id : ℕ} {t t' : SaveThread} (h : s.Saving kv id t)
    (hmove : s.savers.move id kv t c = some (kv', t')) :
    Forward kv kv' ∧ RevStore.Later kv kv' ∧ s.Saving kv' id t' := by
  obtain ⟨⟨kv₁, place⟩, hstep, heq⟩ := Option.map_eq_some_iff.mp hmove
  cases heq
  obtain ⟨hforward, hlater, hdoing⟩ := doing_saveStep h.1 h.2 hstep
  exact ⟨hforward, hlater, h.1, hdoing⟩

theorem kept_savers (s : EtcdHealthStore) : s.savers.Kept (fun _ => True) s.Saving ProperCall where
  start kv id health hproper _ :=
    ⟨hproper, ⟨List.Subset.refl _, fun r hr => .inr (.inl hr)⟩⟩
  move kv id t c kv' t' _ _ h hmove := by
    obtain ⟨hforward, hlater, hsaving⟩ := move_saving h hmove
    exact ⟨trivial, hsaving, fun _ u _ hu => ⟨hu.1, hu.2.mono hforward hlater⟩⟩
  outside _ e := nomatch e

/-- Whatever stands in etcd at first, and however the saves of all controllers interleave: no time under
a key goes back, and when a save has returned without an error each of its records, or a newer one, is there. -/
theorem saved_never_goes_back (s : EtcdHealthStore) (kv : HealthKV)
    (events later : List (ThreadEvent (List EndpointHealth) SaveChoice Empty))
    (hproper : ∀ e ∈ events ++ later, ProperCall e) :
    Forward (s.savers.run kv events).shared (s.savers.run kv (events ++ later)).shared ∧
    ∀ id given maxRevision, (s.savers.run kv events).threads.lookup id =
        some { given, place := .returned maxRevision none } →
      ∀ r ∈ given, r.service ≠ "" → r.instanceID ≠ "" →
        AtLeast (s.savers.run kv events).shared (s.key r) r.updatedAt := by
  obtain ⟨hevents, hlater⟩ := List.forall_mem_append.mp hproper
  have hkeeps := (kept_savers s).run (s := kv) trivial hevents
  constructor
  · unfold ThreadSystem.run
    rw [List.foldl_append]
    exact ThreadSystem.Kept.related (fun _ _ _ hold => hold) (fun _ _ _ h h' key time hold => h' key time (h key time hold))
      (kept_savers s) (fun _ _ _ _ _ _ _ hJ hmove => (move_saving hJ hmove).1) (fun _ e => nomatch e) hkeeps hlater
  · intro id given maxRevision hthread r hr hservice hid
    have hdone := (hkeeps.thread id _ hthread).2.done r hr
    rcases hdone with hbusy | hrest | hno | hno | hsaved
    · cases hbusy
    · cases hrest
    · exact absurd hno hservice
    · exact absurd hno hid
    · exact hsaved

def saveOnce (id : ℕ) (endpoint : EndpointHealth) : List (ThreadEvent (List EndpointHealth) SaveChoice Empty) :=
  [.call id [endpoint], .move id {}, .move id {}, .move id {}, .move id {}]

theorem saved_record_stands :
    AtLeast (({ instancesPrefix := "/h/" } : EtcdHealthStore).savers.run (.empty 0)
        (saveOnce 0 { service := "pay", instanceID := "i1", updatedAt := 5 })).shared "/h/pay/instances/i1" 5 := by
  have hkey : ({ instancesPrefix := "/h/" } : EtcdHealthStore).key
      { service := "pay", instanceID := "i1", updatedAt := 5 } = "/h/pay/instances/i1" := by decide +kernel
  rw [← hkey]
  refine (saved_never_goes_back { instancesPrefix := "/h/" } (.empty 0)
    (saveOnce 0 { service := "pay", instanceID := "i1", updatedAt := 5 }) [] ?_).2
    0 [{ service := "pay", instanceID := "i1", updatedAt := 5 }] 1 rfl _ (List.mem_singleton_self _) (by decide) (by decide)
  simp only [saveOnce, List.append_nil, List.forall_mem_cons, ProperCall, Proper, Named, List.not_mem_nil, false_imp_iff,
    implies_true, and_true]
  exact fun _ _ => by decide +kernel

theorem blank_service_goes_back :
    ∃ s : EtcdHealthStore, ¬ Forward
      (s.savers.run (.empty 0) (saveOnce 0 { service := " ", instanceID := "x", updatedAt := 5 })).shared
      (s.savers.run (.empty 0) (saveOnce 0 { service := " ", instanceID := "x", updatedAt := 5 } ++
        saveOnce 1 { service := " ", instanceID := "x", updatedAt := 3 })).shared := by
  refine ⟨{ instancesPrefix := "/h/" }, fun hforward => ?_⟩
  obtain ⟨e, record, hlookup, hvalue, htime⟩ := hforward "/h//instances/x" 5 ⟨_, _, rfl, rfl, le_rfl⟩
  cases hlookup
  cases hvalue
  exact absurd htime (by decide)

end EtcdHealthStore

end AegisMesh.Fault
