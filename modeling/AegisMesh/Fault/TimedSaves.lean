import AegisMesh.Fault.SavedHealth

/-!
# Saves that compare times as Go does

`Save` leaves out the put when the record under the key is `==` to its own. That compares
times with their monotonic readings and their locations, and neither is in the JSON text.
-/

open Lib

namespace AegisMesh.Fault

open Telemetry

/-! ## Times -/

/-- What a `time.Time` points to. A location that the decoder makes up is a new pointer. -/
inductive Location
  | utc
  | localTime
  | fixed (pointer : ℕ)
deriving DecidableEq

/-- What a `time.Time` has besides its instant. -/
structure Reading where
  mono : Option ℤ := none
  loc : Location := .utc
deriving DecidableEq

structure Zones where
  offset : Location → ℕ → ℤ
  utc : ∀ instant, offset .utc instant = 0

def Zones.reading (zones : Zones) (pointer : ℕ) (instant : ℕ) (offset : ℤ) : Reading where
  loc :=
    if offset = 0 then .utc
    else if zones.offset .localTime instant = offset then .localTime
    else .fixed pointer

def Zones.Survives (zones : Zones) (instant : ℕ) (reading : Reading) : Prop :=
  ∀ pointer, zones.reading pointer instant (zones.offset reading.loc instant) = reading

structure TimedHealth where
  health : EndpointHealth
  transition : Reading := {}
  ejected : Reading := {}
  updated : Reading := {}
deriving DecidableEq

structure TimedRecord where
  record : HealthRecord
  transitionOffset : ℤ
  ejectedOffset : ℤ
  updatedOffset : ℤ

abbrev TimedValue := Except String TimedRecord

abbrev TimedKV := RevStore String TimedValue

def TimedValue.plain : TimedValue → HealthValue
  | .error err => .error err
  | .ok text => .ok text.record

/-- What is open to a save, with what the clock gives besides the instant and the pointer of a new location.
`identical` is not used: the times tell. -/
structure TimedChoice extends SaveChoice where
  nowReading : Reading := {}
  pointer : ℕ := 0

inductive TimedPlace
  | scanning (rest : List TimedHealth) (maxRevision : ℕ)
  | reading (endpoint : TimedHealth) (rest : List TimedHealth) (maxRevision : ℕ)
  | putting (endpoint : TimedHealth) (expectedRevision : ℕ) (rest : List TimedHealth) (maxRevision : ℕ)
  | returned (maxRevision : ℕ) (err : Option String)
deriving DecidableEq

def TimedHealth.prepared (r : TimedHealth) (c : TimedChoice) : TimedHealth :=
  { r with
    health := EtcdHealthStore.prepared r.health c.now
    updated := if r.health.updatedAt = 0 then c.nowReading else r.updated }

def TimedHealth.text (zones : Zones) (r : TimedHealth) : TimedRecord where
  record := encodeHealth r.health
  transitionOffset := zones.offset r.transition.loc r.health.lastTransitionAt
  ejectedOffset := zones.offset r.ejected.loc r.health.ejectedAt
  updatedOffset := zones.offset r.updated.loc r.health.updatedAt

namespace EtcdHealthStore

variable (s : EtcdHealthStore) (zones : Zones)

def timedFromKV (pointer : ℕ) (key : String) (value : TimedValue) : Except String TimedHealth :=
  match s.healthFromKV key value.plain with
  | .error err => .error err
  | .ok (health, false) => .ok { health }
  | .ok (health, true) =>
    match value with
    | .error err => .error err
    | .ok text =>
      .ok
        { health
          transition := zones.reading pointer text.record.lastTransitionAt text.transitionOffset
          ejected := zones.reading pointer text.record.ejectedAt text.ejectedOffset
          updated := zones.reading pointer text.record.updatedAt text.updatedOffset }

/-- What a save does next, once it has read what stands under the key. What is read has no monotonic reading,
so `After` compares instants. -/
def afterTimedGet (pointer : ℕ) (entry : Option (Entry TimedValue)) (endpoint : TimedHealth) (rest : List TimedHealth)
    (maxRevision : ℕ) : TimedPlace :=
  match entry with
  | none => .putting endpoint 0 rest maxRevision
  | some current =>
    match s.timedFromKV zones pointer (s.key endpoint.health) current.value with
    | .error err => .returned maxRevision (some err)
    | .ok existing =>
      if endpoint.health.updatedAt < existing.health.updatedAt ∨ existing = endpoint then .scanning rest maxRevision
      else .putting endpoint current.modRevision rest maxRevision

def timedPut (kv : TimedKV) (c : TimedChoice) (endpoint : TimedHealth) (expectedRevision : ℕ) :
    TimedKV × Except String (ℕ × Bool) :=
  c.put.call kv fun kv =>
    match kv.putIf c.gap (s.key endpoint.health) (.ok (endpoint.text zones)) expectedRevision with
    | (kv, stored) => (kv, .ok (kv.revision, stored))

def timedStep (kv : TimedKV) (place : TimedPlace) (c : TimedChoice) : Option (TimedKV × TimedPlace) :=
  match place with
  | .scanning [] maxRevision => some (kv, .returned maxRevision none)
  | .scanning (endpoint :: rest) maxRevision =>
    if endpoint.health.service = "" ∨ endpoint.health.instanceID = "" then some (kv, .scanning rest maxRevision)
    else
      match c.marshalErr with
      | some err => some (kv, .returned maxRevision (some err))
      | none => some (kv, .reading (endpoint.prepared c) rest maxRevision)
  | .reading endpoint rest maxRevision =>
    match c.getErr with
    | some err => some (kv, .returned maxRevision (some err))
    | none =>
      some (kv, s.afterTimedGet zones c.pointer (kv.entries.lookup (s.key endpoint.health)) endpoint rest maxRevision)
  | .putting endpoint expectedRevision rest maxRevision =>
    match s.timedPut zones kv c endpoint expectedRevision with
    | (kv, .error err) => some (kv, .returned maxRevision (some err))
    | (kv, .ok (revision, true)) => some (kv, .scanning rest (max revision maxRevision))
    | (kv, .ok (_, false)) =>
      match c.ctxErr with
      | some err => some (kv, .returned maxRevision (some err))
      | none => some (kv, .reading endpoint rest maxRevision)
  | .returned _ _ => none

def plainPlace : TimedPlace → SavePlace
  | .scanning rest maxRevision => .scanning (rest.map TimedHealth.health) maxRevision
  | .reading endpoint rest maxRevision => .reading endpoint.health (rest.map TimedHealth.health) maxRevision
  | .putting endpoint expectedRevision rest maxRevision =>
    .putting endpoint.health expectedRevision (rest.map TimedHealth.health) maxRevision
  | .returned maxRevision err => .returned maxRevision err

structure Bares (kv : TimedKV) (bare : HealthKV) : Prop where
  entries : ∀ key, bare.entries.lookup key = (kv.entries.lookup key).map fun e => ⟨e.value.plain, e.modRevision⟩
  revision : bare.revision = kv.revision

variable {s zones} {kv kv' : TimedKV} {bare : HealthKV} {value : TimedValue}

theorem Bares.modRevision (h : Bares kv bare) (key : String) : bare.modRevision key = kv.modRevision key := by
  unfold RevStore.modRevision
  rw [h.entries]
  cases kv.entries.lookup key <;> rfl

theorem Bares.put (h : Bares kv bare) (gap : ℕ) (key : String) (text : TimedRecord) :
    Bares (kv.put gap key (.ok text)) (bare.put gap key (.ok text.record)) := by
  refine ⟨fun j => ?_, ?_⟩
  · rw [RevStore.lookup_put, RevStore.lookup_put]
    split
    · rw [h.revision]
      rfl
    · exact h.entries j
  · simp only [RevStore.put, h.revision]

theorem Bares.timedPut (s : EtcdHealthStore) (zones : Zones) (h : Bares kv bare) (c : TimedChoice) (identical : Bool)
    (endpoint : TimedHealth) (expectedRevision : ℕ) :
    ∃ bare', s.putIfModRevision bare { c.toSaveChoice with identical } endpoint.health expectedRevision =
        (bare', (s.timedPut zones kv c endpoint expectedRevision).2) ∧
      Bares (s.timedPut zones kv c endpoint expectedRevision).1 bare' := by
  have hput : (bare.putIf c.gap (s.key endpoint.health) (.ok (encodeHealth endpoint.health)) expectedRevision).2 =
        (kv.putIf c.gap (s.key endpoint.health) (.ok (endpoint.text zones)) expectedRevision).2 ∧
      Bares (kv.putIf c.gap (s.key endpoint.health) (.ok (endpoint.text zones)) expectedRevision).1
        (bare.putIf c.gap (s.key endpoint.health) (.ok (encodeHealth endpoint.health)) expectedRevision).1 := by
    unfold RevStore.putIf
    rw [h.modRevision]
    split
    · exact ⟨rfl, h.put c.gap _ _⟩
    · exact ⟨rfl, h⟩
  unfold putIfModRevision EtcdHealthStore.timedPut
  cases hcall : c.put with
  | refused err => exact ⟨bare, rfl, h⟩
  | answered => exact ⟨_, by simp only [Outcome.call, hput.1, hput.2.revision], hput.2⟩
  | lost err => exact ⟨_, rfl, hput.2⟩

theorem timedFromKV_health {pointer : ℕ} {key : String} {existing : TimedHealth}
    (h : s.timedFromKV zones pointer key value = .ok existing) :
    ∃ found, s.healthFromKV key value.plain = .ok (existing.health, found) := by
  unfold timedFromKV at h
  split at h
  · cases h
  · rename_i health hread
    cases h
    exact ⟨false, hread⟩
  · rename_i health hread
    cases value with
    | error err => cases h
    | ok text =>
      cases h
      exact ⟨true, hread⟩

theorem timedFromKV_error {pointer : ℕ} {key : String} {err : String}
    (h : s.timedFromKV zones pointer key value = .error err) : s.healthFromKV key value.plain = .error err := by
  unfold timedFromKV at h
  split at h
  · rename_i err' hread
    cases h
    exact hread
  · cases h
  · rename_i health hread
    cases value with
    | ok text => cases h
    | error err' =>
      -- A value that does not decode is not read as a record.
      unfold healthFromKV TimedValue.plain decodeHealth at hread
      split at hread
      · cases hread
      · cases hread

/-- Every step is one of a save that is told whether equal times are the same to Go. -/
theorem saveStep_of_timedStep {place place' : TimedPlace} {c : TimedChoice} (h : Bares kv bare)
    (hstep : s.timedStep zones kv place c = some (kv', place')) :
    ∃ identical bare',
      s.saveStep bare (plainPlace place) { c.toSaveChoice with identical } = some (bare', plainPlace place') ∧
      Bares kv' bare' := by
  cases place with
  | scanning records maxRevision =>
    refine ⟨true, bare, ?_⟩
    cases records with
    | nil =>
      cases hstep
      exact ⟨rfl, h⟩
    | cons endpoint rest =>
      simp only [timedStep] at hstep
      simp only [plainPlace, List.map_cons, saveStep]
      split_ifs at hstep ⊢
      · cases hstep
        exact ⟨rfl, h⟩
      · split at hstep <;> cases hstep <;> exact ⟨by simp_all [TimedHealth.prepared], h⟩
  | reading endpoint rest maxRevision =>
    simp only [timedStep] at hstep
    cases herr : c.getErr with
    | some err =>
      rw [herr] at hstep
      cases hstep
      exact ⟨true, bare, by simp only [plainPlace, saveStep, herr], h⟩
    | none =>
      rw [herr] at hstep
      cases hstep
      simp only [plainPlace, saveStep, herr, h.entries]
      cases kv.entries.lookup (s.key endpoint.health) with
      | none => exact ⟨true, bare, rfl, h⟩
      | some current =>
        simp only [afterTimedGet, afterGet, Option.map_some]
        cases hread : s.timedFromKV zones c.pointer (s.key endpoint.health) current.value with
        | error err => exact ⟨true, bare, by simp only [timedFromKV_error hread], h⟩
        | ok existing =>
          obtain ⟨found, hplain⟩ := timedFromKV_health hread
          refine ⟨decide (existing = endpoint), bare, ?_, h⟩
          simp only [hplain, Bool.or_eq_true, Bool.and_eq_true, decide_eq_true_eq]
          by_cases hsame : existing = endpoint
          · simp [hsame]
          · by_cases hnewer : endpoint.health.updatedAt < existing.health.updatedAt
            · simp [hnewer]
            · simp [hnewer, hsame]
  | putting endpoint expectedRevision rest maxRevision =>
    obtain ⟨bare', hput, hbares⟩ := h.timedPut s zones c true endpoint expectedRevision
    refine ⟨true, bare', ?_⟩
    simp only [timedStep] at hstep
    simp only [plainPlace, saveStep, hput]
    generalize s.timedPut zones kv c endpoint expectedRevision = result at hstep hbares ⊢
    obtain ⟨kv₁, answer⟩ := result
    rcases answer with err | ⟨revision, _ | _⟩
    · cases hstep
      exact ⟨rfl, hbares⟩
    · cases herr : c.ctxErr with
      | some err =>
        simp only [herr] at hstep
        cases hstep
        exact ⟨by simp, hbares⟩
      | none =>
        simp only [herr] at hstep
        cases hstep
        exact ⟨by simp, hbares⟩
    · cases hstep
      exact ⟨rfl, hbares⟩
  | returned maxRevision err => cases hstep

/-! ## Records that are read back as they were -/

structure Lasting (zones : Zones) (r : TimedHealth) : Prop where
  service : trimSpace r.health.service = r.health.service
  instanceID : trimSpace r.health.instanceID = r.health.instanceID
  updatedAt : r.health.updatedAt ≠ 0
  transition : zones.Survives r.health.lastTransitionAt r.transition
  ejected : zones.Survives r.health.ejectedAt r.ejected
  updated : zones.Survives r.health.updatedAt r.updated

def written (r : TimedHealth) : TimedHealth := { r with health := { r.health with state := r.health.state.normalized } }

structure Taken (zones : Zones) (r : TimedHealth) : Prop extends Lasting zones r where
  service_ne : r.health.service ≠ ""
  instanceID_ne : r.health.instanceID ≠ ""

variable {r x : TimedHealth} {pointer : ℕ}

theorem Taken.prepared (h : Taken zones r) (c : TimedChoice) : r.prepared c = written r := by
  simp only [TimedHealth.prepared, EtcdHealthStore.prepared, if_neg h.updatedAt, written]

theorem Taken.identity (h : Taken zones r) :
    s.healthIdentityFromKey (s.key r.health) = some (r.health.service, r.health.instanceID) :=
  s.healthIdentityFromKey_own h.service h.instanceID h.service_ne h.instanceID_ne

theorem Taken.names (h : Taken zones r) (h' : Taken zones x) (hkey : s.key r.health = s.key x.health) :
    r.health.service = x.health.service ∧ r.health.instanceID = x.health.instanceID := by
  have hidentity := h.identity (s := s)
  rw [hkey, h'.identity] at hidentity
  simp only [Option.some.injEq, Prod.mk.injEq] at hidentity
  exact ⟨hidentity.1.symm, hidentity.2.symm⟩

theorem Taken.read_back (h : Taken zones r) (pointer : ℕ) :
    s.timedFromKV zones pointer (s.key r.health) (.ok ((written r).text zones)) = .ok (written r) := by
  have hdecoded : s.healthFromKV (s.key r.health) (.ok (encodeHealth (written r).health)) =
      .ok ((written r).health, true) := by
    unfold healthFromKV
    rw [h.identity, decodeHealth_encodeHealth (show (written r).health.service ≠ "" from h.service_ne) h.instanceID_ne]
    simp only [written]
    cases r.health.state <;> rfl
  unfold timedFromKV
  simp only [TimedValue.plain, TimedHealth.text, hdecoded]
  have htransition := h.transition pointer
  have hejected := h.ejected pointer
  have hupdated := h.updated pointer
  simp only [encodeHealth, written, htransition, hejected, hupdated]

theorem Taken.reads (h : Taken zones r) {existing : TimedHealth}
    (hread : s.timedFromKV zones pointer (s.key r.health) value = .ok existing) :
    ∃ text, value = .ok text ∧ existing.health.updatedAt = text.record.updatedAt := by
  obtain ⟨found, hplain⟩ := timedFromKV_health hread
  cases value with
  | error err =>
    rw [TimedValue.plain, healthFromKV, h.identity] at hplain
    cases hplain
  | ok text =>
    refine ⟨text, rfl, s.healthFromKV_updatedAt ?_ ?_ hplain⟩
    · rw [h.service]
      exact h.service_ne
    · rw [h.instanceID]
      exact h.instanceID_ne

def Covered (s : EtcdHealthStore) (zones : Zones) (kv : TimedKV) (r : TimedHealth) : Prop :=
  ∃ e text, kv.entries.lookup (s.key r.health) = some e ∧ e.value = .ok text ∧
    (r.health.updatedAt < text.record.updatedAt ∨
      ∀ pointer, s.timedFromKV zones pointer (s.key r.health) (.ok text) = .ok (written r))

def NoTies (given : List TimedHealth) : Prop :=
  ∀ r ∈ given, ∀ x ∈ given, r.health.service = x.health.service → r.health.instanceID = x.health.instanceID →
    r.health.updatedAt = x.health.updatedAt → r = x

structure Underway (s : EtcdHealthStore) (zones : Zones) (kv : TimedKV) (given busy rest : List TimedHealth) : Prop where
  left : rest ⊆ given
  done : ∀ r ∈ given, Taken zones r → r ∈ busy ∨ r ∈ rest ∨ s.Covered zones kv r

variable {given rest : List TimedHealth} {place : TimedPlace} {maxRevision : ℕ} {c : TimedChoice}

theorem Underway.settle (h : s.Underway zones kv given [r] rest) (hcovered : s.Covered zones kv r) :
    s.Underway zones kv given [] rest := by
  refine ⟨h.left, fun x hx htaken => ?_⟩
  rcases h.done x hx htaken with hbusy | hdone
  · rw [List.mem_singleton.mp hbusy]
    exact .inr (.inr hcovered)
  · exact .inr hdone

theorem Taken.covered_put (h : Taken zones r) (kv : TimedKV) (gap : ℕ) :
    s.Covered zones (kv.put gap (s.key r.health) (.ok ((written r).text zones))) r :=
  ⟨_, _, by rw [RevStore.lookup_put, if_pos rfl], rfl, .inr h.read_back⟩

theorem Covered.put (hties : NoTies given) (hr : r ∈ given) (htaken : Taken zones r)
    (hold : ∀ e text, kv.entries.lookup (s.key r.health) = some e → e.value = .ok text →
      text.record.updatedAt ≤ r.health.updatedAt) (gap : ℕ) (hx : x ∈ given) (hxtaken : Taken zones x)
    (h : s.Covered zones kv x) :
    s.Covered zones (kv.put gap (s.key r.health) (.ok ((written r).text zones))) x := by
  by_cases hsame : x = r
  · subst hsame
    exact htaken.covered_put kv gap
  obtain ⟨e, text, he, hvalue, hcover⟩ := h
  by_cases hkey : s.key x.health = s.key r.health
  · -- Of two records of one endpoint the newer one goes over the other.
    have hle : x.health.updatedAt ≤ r.health.updatedAt := by
      rw [hkey] at he
      refine le_trans ?_ (hold e text he hvalue)
      rcases hcover with hnewer | hread
      · exact hnewer.le
      · obtain ⟨text', htext, htime⟩ := hxtaken.reads (hread 0)
        cases htext
        exact htime.le
    obtain ⟨hservice, hid⟩ := hxtaken.names htaken hkey
    have hne : x.health.updatedAt ≠ r.health.updatedAt := fun htime => hsame (hties x hx r hr hservice hid htime)
    exact ⟨_, _, by rw [RevStore.lookup_put, if_pos hkey], rfl, .inl (lt_of_le_of_ne hle hne)⟩
  · exact ⟨e, text, by rw [RevStore.lookup_put, if_neg hkey, he], hvalue, hcover⟩

def Idle (zones : Zones) (given : List TimedHealth) : TimedPlace → Prop
  | .scanning rest _ => rest ⊆ given
  | .reading endpoint rest _ => (∃ r ∈ given, Taken zones r ∧ endpoint = written r) ∧ rest ⊆ given
  | .putting .. => False
  | .returned .. => True

end EtcdHealthStore

end AegisMesh.Fault
