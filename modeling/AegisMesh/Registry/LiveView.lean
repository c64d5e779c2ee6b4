import AegisMesh.Registry.Calls

/-! # What the in-memory registry lists -/

open Lib

namespace AegisMesh.Registry

structure Returned where
  call : TimedCall
  answer : Answer

def Returned.registration (service id : String) (past : Returned) : Option Instance :=
  match past.call.call, past.answer with
  | .register inst _ epoch token, .done none =>
    if inst.service = service ∧ inst.id = id then
      some { inst with
        status := inst.status.normalized
        lastSeen := past.call.now
        registrationEpoch := epoch
        ownerToken := token }
    else none
  | _, _ => none

def Returned.renewal (service id : String) (past : Returned) : Option (ℕ × ℤ) :=
  match past.call.call.target, past.answer with
  | some (service', id', ttl), .done none =>
    if service' = service ∧ id' = id then some (past.call.now, ttl) else none
  | _, _ => none

theorem Returned.registration_of_beat {c : TimedCall} {b : MemoryRegistry.Beat} (hb : c.call.beat = some b)
    (service id : String) (answer : Answer) : Returned.registration service id ⟨c, answer⟩ = none := by
  unfold registration
  split
  · rename_i hcall _
    simp only at hcall
    simp [hcall, MemoryCall.beat] at hb
  · rfl

structure Session where
  registry : MemoryRegistry := {}
  past : List Returned := []

namespace Session

def step (s : Session) (c : TimedCall) : Session where
  registry := s.registry.step c
  past := ⟨c, (s.registry.perform c).2⟩ :: s.past

def run (calls : List TimedCall) : Session := calls.foldl step {}

def lastRegistration (s : Session) (service id : String) : Option Instance :=
  s.past.findSome? (Returned.registration service id)

def lastRenewal (s : Session) (service id : String) : Option (ℕ × ℤ) :=
  s.past.findSome? (Returned.renewal service id)

variable {s : Session} {c : TimedCall} {service id : String} {t : ℕ}

theorem lastRegistration_step (s : Session) (c : TimedCall) (service id : String) :
    (s.step c).lastRegistration service id =
      (Returned.registration service id ⟨c, (s.registry.perform c).2⟩).or (s.lastRegistration service id) := by
  unfold lastRegistration step
  rw [List.findSome?_cons]
  rcases Returned.registration service id ⟨c, (s.registry.perform c).2⟩ with _ | _ <;> rfl

theorem lastRenewal_step (s : Session) (c : TimedCall) (service id : String) :
    (s.step c).lastRenewal service id =
      (Returned.renewal service id ⟨c, (s.registry.perform c).2⟩).or (s.lastRenewal service id) := by
  unfold lastRenewal step
  rw [List.findSome?_cons]
  rcases Returned.renewal service id ⟨c, (s.registry.perform c).2⟩ with _ | _ <;> rfl

structure Told (s : Session) (t : ℕ) (service id : String) : Prop where
  held : ∀ record, s.registry.lease service id = some record → ∃ u ttl base,
    s.lastRenewal service id = some (u, ttl) ∧ 0 < ttl ∧ s.lastRegistration service id = some base ∧
    record.expiresAt = addTTL u ttl ∧ record.inst = { base with lastSeen := u }
  gone : s.registry.lease service id = none → ∀ u ttl, s.lastRenewal service id = some (u, ttl) → addTTL u ttl ≤ t

theorem told_start (t : ℕ) (service id : String) : Told {} t service id := by
  refine ⟨fun record h => ?_, fun _ u ttl h => ?_⟩
  · simp [MemoryRegistry.lease] at h
  · simp [lastRenewal] at h

theorem Told.quiet (h : s.Told t service id) (hwf : s.registry.WellFormed t) (hle : c.now ≤ t)
    (hwrites : s.registry.writes c = none) : (s.step c).Told t service id := by
  have hanswer : (s.registry.perform c).2 ≠ .done none := by
    rcases hwf.perform_cases c with ⟨record, hsome, -⟩ | ⟨err, -, heq⟩ | ⟨service, hreads, -, -⟩ | ⟨-, -, heq⟩
    · simp [hwrites] at hsome
    · simp [heq]
    · rcases c with ⟨call, now, ctx⟩
      rcases call <;> simp [MemoryCall.reads] at hreads <;> simp [MemoryRegistry.perform]
    · simp [heq]
  have hregistration : Returned.registration service id ⟨c, (s.registry.perform c).2⟩ = none := by
    unfold Returned.registration
    split
    · rename_i heq
      exact absurd heq hanswer
    · rfl
  have hrenewal : Returned.renewal service id ⟨c, (s.registry.perform c).2⟩ = none := by
    unfold Returned.renewal
    split
    · rename_i heq
      exact absurd heq hanswer
    · rfl
  have hdrops := hwf.dropsExpired_of_writes hle hwrites service id
  rcases hdrops with hsame | ⟨hnone, record, hrec, hexpired⟩
  · refine ⟨fun record hrec => ?_, fun hrec => ?_⟩
    · rw [lastRenewal_step, lastRegistration_step, hregistration, hrenewal]
      exact h.held record (hsame ▸ hrec)
    · rw [lastRenewal_step, hrenewal]
      exact h.gone (hsame ▸ hrec)
  · obtain ⟨u, ttl, base, hlast, -, -, hexpires, -⟩ := h.held record hrec
    refine ⟨fun record' hrec' => ?_, fun _ u' ttl' hlast' => ?_⟩
    · rw [step, hnone] at hrec'
      cases hrec'
    · rw [lastRenewal_step, hrenewal, Option.none_or, hlast] at hlast'
      cases hlast'
      omega

theorem Told.congr {s' : Session} (h : s.Told t service id)
    (hlease : s'.registry.lease service id = s.registry.lease service id)
    (hrenewal : s'.lastRenewal service id = s.lastRenewal service id)
    (hregistration : s'.lastRegistration service id = s.lastRegistration service id) : s'.Told t service id := by
  refine ⟨fun record hrec => ?_, fun hrec => ?_⟩
  · rw [hrenewal, hregistration]
    exact h.held record (hlease ▸ hrec)
  · rw [hrenewal]
    exact h.gone (hlease ▸ hrec)

theorem told_of_lease {record : Record} {u : ℕ} {ttl : ℤ} {base : Instance}
    (hlease : s.registry.lease service id = some record) (hrenewal : s.lastRenewal service id = some (u, ttl))
    (httl : 0 < ttl) (hregistration : s.lastRegistration service id = some base) (hexpires : record.expiresAt = addTTL u ttl)
    (hinst : record.inst = { base with lastSeen := u }) : s.Told t service id := by
  refine ⟨fun record' hrec => ?_, fun hrec => ?_⟩
  · rw [hlease] at hrec
    cases hrec
    exact ⟨u, ttl, base, hrenewal, httl, hregistration, hexpires, hinst⟩
  · rw [hlease] at hrec
    cases hrec

theorem Told.write (h : ∀ service id, s.Told t service id) (hwf : s.registry.WellFormed t) {record : Record}
    (hwrites : s.registry.writes c = some record)
    (heq : s.registry.perform c = (s.registry.write record c.now, .done none)) (service id : String) :
    (s.step c).Told t service id := by
  have hrenewal := s.lastRenewal_step c service id
  have hregistration := s.lastRegistration_step c service id
  obtain ⟨ttl, htarget, httl, hexpires, -, -⟩ := hwf.target_of_writes hwrites
  have hlease : (s.step c).registry.lease service id =
      if service = record.inst.service ∧ id = record.inst.id then some record
      else s.registry.lease service id := by
    simp only [step, MemoryRegistry.step, heq, MemoryRegistry.lease_write]
  simp only [heq, Returned.renewal, htarget] at hrenewal
  rw [heq] at hregistration
  by_cases hsame : record.inst.service = service ∧ record.inst.id = id
  · obtain ⟨rfl, rfl⟩ := hsame
    rw [if_pos ⟨rfl, rfl⟩] at hlease hrenewal
    rcases MemoryRegistry.writes_cases hwrites with ⟨inst, _, epoch, token, hcall, -, rfl⟩ | ⟨b, old, hb, -, hold, rfl⟩
    · have hown : Returned.registration inst.service inst.id ⟨c, .done none⟩ =
          some (s.registry.newRecord inst ttl c.now epoch token).inst := by
        simp [Returned.registration, hcall, MemoryRegistry.newRecord, cloneLabels]
      exact told_of_lease hlease hrenewal httl (hregistration.trans (by rw [Option.or_eq_some_iff]; exact Or.inl hown))
        hexpires rfl
    · -- A heartbeat leaves what the last registration says, and moves the time.
      obtain ⟨hservice, hid⟩ := hwf.own hold
      obtain ⟨u, _, base, -, -, hbase, -, hinst⟩ := (h _ _).held old hold
      rw [Returned.registration_of_beat hb, Option.none_or] at hregistration
      have hbase : s.lastRegistration old.inst.service old.inst.id = some base := by rw [hservice, hid, hbase]
      exact told_of_lease hlease hrenewal httl (hregistration.trans hbase) hexpires (by simp only [Record.renew, hinst])
  · have hnew : Returned.registration service id ⟨c, .done none⟩ = none := by
      unfold Returned.registration
      split
      · rename_i inst _ epoch token hcall _
        simp only at hcall
        rw [hcall] at htarget
        simp only [MemoryCall.target, Option.some.injEq, Prod.mk.injEq] at htarget
        rw [if_neg]
        rwa [htarget.1, htarget.2.1]
      · rfl
    rw [if_neg hsame, Option.none_or] at hrenewal
    rw [hnew, Option.none_or] at hregistration
    rw [if_neg fun hnames => hsame ⟨hnames.1.symm, hnames.2.symm⟩] at hlease
    exact (h service id).congr hlease hrenewal hregistration

theorem told_step (h : ∀ service id, s.Told t service id) (hwf : s.registry.WellFormed t) (hle : c.now ≤ t)
    (service id : String) : (s.step c).Told t service id := by
  rcases hwrites : s.registry.writes c with _ | record
  · exact (h service id).quiet hwf hle hwrites
  · rcases hwf.perform_cases c with ⟨record', hsome, heq⟩ | ⟨err, hnone, -⟩ | ⟨_, -, hnone, -⟩ | ⟨-, hnone, -⟩
    · rw [hwrites] at hsome
      cases hsome
      exact Told.write h hwf hwrites heq service id
    all_goals simp [hnone] at hwrites

theorem told_run {calls : List TimedCall} (hclock : ∀ c ∈ calls, c.now ≤ t) :
    (run calls).registry.WellFormed t ∧ ∀ service id, (run calls).Told t service id :=
  run_invariant_of (I := fun s : Session => s.registry.WellFormed t ∧ ∀ service id, s.Told t service id)
    (fun _ (c : TimedCall) h (hle : c.now ≤ t) => ⟨h.1.step hle, told_step h.2 h.1 hle⟩)
    ⟨MemoryRegistry.wellFormed_empty t, told_start t⟩ hclock

/-! ## Listing -/

/-- The id is listed until its last lease ends, with what its last registration said and the time of its last
registration or heartbeat. -/
def Lists (s : Session) (t : ℕ) (service : String) (inst : Instance) : Prop :=
  ∃ u ttl base, s.lastRenewal service inst.id = some (u, ttl) ∧ (t : ℤ) < u + ttl ∧
    s.lastRegistration service inst.id = some base ∧ inst = { base with lastSeen := u }

theorem mem_live_iff (h : ∀ service id, s.Told t service id) (hwf : s.registry.WellFormed t) {inst : Instance} :
    inst ∈ s.registry.liveInstances service t ↔ s.Lists t service inst := by
  rw [MemoryRegistry.mem_liveInstances]
  constructor
  · rintro ⟨id, record, hlease, hlive, rfl⟩
    obtain ⟨u, ttl, base, hrenewal, httl, hregistration, hexpires, hinst⟩ := (h service id).held record hlease
    rw [← (hwf.own hlease).2] at hrenewal hregistration
    refine ⟨u, ttl, base, hrenewal, ?_, hregistration, hinst⟩
    unfold addTTL at hexpires
    omega
  · rintro ⟨u, ttl, base, hrenewal, hlive, hregistration, hinst⟩
    rcases hlease : s.registry.lease service inst.id with _ | record
    · have hgone := (h service inst.id).gone hlease u ttl hrenewal
      unfold addTTL at hgone
      omega
    · obtain ⟨u', ttl', base', hrenewal', httl, hregistration', hexpires, hinst'⟩ :=
        (h service inst.id).held record hlease
      rw [hrenewal, Option.some.injEq, Prod.mk.injEq] at hrenewal'
      rw [hregistration, Option.some.injEq] at hregistration'
      obtain ⟨⟨rfl, rfl⟩, rfl⟩ := And.intro hrenewal' hregistration'
      refine ⟨inst.id, record, hlease, ?_, hinst'.trans hinst.symm⟩
      unfold addTTL at hexpires
      omega

/-- `List` at a time when the clock has not gone back shows exactly the ids whose lease has not ended, sorted
and each of them once. -/
theorem list_exact (calls : List TimedCall) (t : ℕ) (hclock : ∀ c ∈ calls, c.now ≤ t) (ctx : Ctx)
    (hlive : ∀ n, ctx n = false) (service : String) :
    match ((run calls).registry.list ctx service t).2 with
    | .error err => service = "" ∧ err = .invalidInstance
    | .ok instances => service ≠ "" ∧ (instances.Pairwise fun a b => a.id < b.id) ∧
        ∀ inst, inst ∈ instances ↔ (run calls).Lists t service inst := by
  obtain ⟨hwf, htold⟩ := told_run hclock
  rw [MemoryRegistry.list_of_live (hlive 0) (hlive 1)]
  by_cases hservice : service = ""
  · subst hservice
    exact ⟨rfl, rfl⟩
  · rw [MemoryRegistry.list_spec hwf hservice]
    exact ⟨hservice, hwf.liveInstances_strict service t, fun inst => mem_live_iff htold hwf⟩

def renewedOnce : List TimedCall :=
  [{ call := .register { id := "a", service := "order", address := "10.0.0.1:80" } 10 "e1" "o1", now := 1 },
   { call := .heartbeat "order" "a" 10, now := 5 }]

theorem renewed_once_listed :
    (∀ c ∈ renewedOnce, c.now ≤ 12) ∧
    ∃ instances, ((run renewedOnce).registry.list .background "order" 12).2 = .ok instances ∧
      ({ id := "a", service := "order", address := "10.0.0.1:80", status := .healthy, lastSeen := 5,
         registrationEpoch := "e1", ownerToken := "o1" } : Instance) ∈ instances := by
  have hclock : ∀ c ∈ renewedOnce, c.now ≤ 12 := by simp [renewedOnce]
  have hexact := list_exact renewedOnce 12 hclock .background (fun _ => rfl) "order"
  refine ⟨hclock, ?_⟩
  split at hexact
  · exact absurd hexact.1 (by decide)
  · rename_i instances heq
    exact ⟨instances, heq, (hexact.2.2 _).mpr ⟨5, 10, _, rfl, by decide, rfl, rfl⟩⟩

end Session

end AegisMesh.Registry
