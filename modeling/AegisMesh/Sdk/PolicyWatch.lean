import AegisMesh.Controller.PolicyService
import AegisMesh.Sdk.Policy

/-!
# Policies from the controller to a client

`WatchPolicy` streams the policy of a service to a client. Streams break and are tried again.
-/

namespace AegisMesh.Sdk

open Lib Policy Controller

structure PolicyStream where
  lastRevision : ℤ
  /-- Sent and not yet received. -/
  underway : List PolicySnapshot

structure PolicyLink where
  service : String
  policy : Option PolicySnapshot
  stream : Option PolicyStream := none
  manager : PolicyManager := {}
  received : Option PolicySnapshot := none

inductive LinkEvent
  | put (snapshot : PolicySnapshot)
  | delete
  | connect
  | tick
  | receive
  | broken

namespace PolicyLink

def takeIn (l : PolicyLink) (snapshot : PolicySnapshot) : PolicyLink :=
  { l with manager := l.manager.update snapshot, received := some snapshot }

/-- `sendIfChanged` on the stream. An error ends it. -/
def send (l : PolicyLink) (stream : PolicyStream) : PolicyLink :=
  match sendIfChanged l.service l.policy stream.lastRevision with
  | .error _ => { l with stream := none }
  | .ok (lastRevision, message) =>
    { l with stream := some { lastRevision, underway := stream.underway ++ message.toList } }

def step (l : PolicyLink) : LinkEvent → PolicyLink
  | .put snapshot => { l with policy := some snapshot }
  | .delete => { l with policy := none }
  | .connect =>
    match l.stream with
    | some _ => l
    | none => l.send { lastRevision := 0, underway := [] }
  | .tick =>
    match l.stream with
    | none => l
    | some stream => l.send stream
  | .receive =>
    match l.stream with
    | some { lastRevision, underway := snapshot :: rest } =>
      { l.takeIn snapshot with stream := some { lastRevision, underway := rest } }
    | _ => l
  | .broken => { l with stream := none }

def run (l : PolicyLink) (events : List LinkEvent) : PolicyLink := events.foldl step l

def dialed (service : String) (policy : Option PolicySnapshot) (fetched : Bool) : PolicyLink :=
  match policy with
  | none => { service, policy }
  | some snapshot => if fetched then ({ service, policy } : PolicyLink).takeIn snapshot else { service, policy }

def nextAttempt (l : PolicyLink) : PolicyLink := l.run [.broken, .connect, .receive]

end PolicyLink

/-! ## Policies without settings -/

structure NoOverride (policy : CompiledPolicy) : Prop where
  routing : policy.routing = ""
  retry : policy.defaultRetry.has = false
  circuitBreaker : policy.maxInflightPerEndpoint = adaptiveDefaultMaxInflightPerTarget
  methods : ∀ method, policy.methods.lookup method = none

structure Neutral (snapshot : PolicySnapshot) : Prop where
  routing : snapshot.routingPolicy = ""
  retry : policyRetryHasAnyField snapshot.retry = false
  circuitBreaker : compileCircuitBreakerPolicy snapshot.circuitBreaker = adaptiveDefaultMaxInflightPerTarget
  methods : snapshot.methods.entries = []

theorem noOverride_compile_iff (snapshot : PolicySnapshot) :
    NoOverride (compilePolicySnapshot snapshot) ↔ Neutral snapshot := by
  constructor
  · intro h
    refine ⟨h.routing, (compileRetryPatch_has _).symm.trans h.retry, h.circuitBreaker, ?_⟩
    -- the last entry of the loop would be there
    rcases List.eq_nil_or_concat snapshot.methods.entries with hnil | ⟨rest, last, hlast⟩
    · exact hnil
    · have habsent := h.methods (if last.1 = "" then last.2.method else last.1)
      simp [compilePolicySnapshot, hlast, List.concat_eq_append] at habsent
  · intro h
    refine ⟨h.routing, (compileRetryPatch_has _).trans h.retry, h.circuitBreaker, fun method => ?_⟩
    simp [compilePolicySnapshot, h.methods]

theorem neutral_deletedPolicy (service : String) : Neutral (deletedPolicy service) := ⟨rfl, rfl, rfl, rfl⟩

/-! ## What one step does -/

namespace PolicyLink

theorem send_frame (l : PolicyLink) (stream : PolicyStream) :
    (l.send stream).service = l.service ∧ (l.send stream).policy = l.policy ∧
      (l.send stream).manager = l.manager ∧ (l.send stream).received = l.received := by
  unfold send
  split <;> exact ⟨rfl, rfl, rfl, rfl⟩

theorem step_policy (l : PolicyLink) (event : LinkEvent) :
    (l.step event).service = l.service ∧
    (l.step event).policy = match event with
      | .put snapshot => some snapshot
      | .delete => none
      | _ => l.policy := by
  unfold step
  split
  · exact ⟨rfl, rfl⟩
  · exact ⟨rfl, rfl⟩
  · split
    · exact ⟨rfl, rfl⟩
    · exact ⟨(send_frame l _).1, (send_frame l _).2.1⟩
  · split
    · exact ⟨rfl, rfl⟩
    · exact ⟨(send_frame l _).1, (send_frame l _).2.1⟩
  · split <;> exact ⟨rfl, rfl⟩
  · exact ⟨rfl, rfl⟩

theorem step_client (l : PolicyLink) (event : LinkEvent) :
    (l.step event).manager = l.manager ∧ (l.step event).received = l.received ∨
    ∃ snapshot, (l.step event).manager = l.manager.update snapshot ∧ (l.step event).received = some snapshot := by
  unfold step
  split
  · exact .inl ⟨rfl, rfl⟩
  · exact .inl ⟨rfl, rfl⟩
  · split
    · exact .inl ⟨rfl, rfl⟩
    · exact .inl (send_frame l _).2.2
  · split
    · exact .inl ⟨rfl, rfl⟩
    · exact .inl (send_frame l _).2.2
  · split
    · exact .inr ⟨_, rfl, rfl⟩
    · exact .inl ⟨rfl, rfl⟩
  · exact .inl ⟨rfl, rfl⟩

end PolicyLink

/-! ## What the client has -/

def InStep (l : PolicyLink) : Prop :=
  match l.policy with
  | some snapshot => l.manager.policy = some (compilePolicySnapshot snapshot)
  | none => ∀ policy, l.manager.policy = some policy → NoOverride policy

def LinkEvent.Numbered : LinkEvent → Prop
  | .put snapshot => snapshot.revision ≠ 0
  | _ => True

structure PolicyLink.Sound (l : PolicyLink) : Prop where
  compiled : l.manager.policy = l.received.map compilePolicySnapshot
  numbered : ∀ snapshot, l.policy = some snapshot → snapshot.revision ≠ 0

namespace PolicyLink

variable {l : PolicyLink}

theorem Sound.step (l : PolicyLink) (event : LinkEvent) (h : Sound l) (hnumbered : event.Numbered) :
    Sound (l.step event) := by
  refine ⟨?_, fun snapshot hpolicy => ?_⟩
  · rcases step_client l event with ⟨hmanager, hreceived⟩ | ⟨snapshot, hmanager, hreceived⟩
    · rw [hmanager, hreceived, h.compiled]
    · rw [hmanager, hreceived]
      rfl
  · rw [(step_policy l event).2] at hpolicy
    cases event with
    | put put =>
      cases hpolicy
      exact hnumbered
    | delete => cases hpolicy
    | _ => exact h.numbered snapshot hpolicy

theorem sound_dialed (service : String) {policy : Option PolicySnapshot} (fetched : Bool)
    (hnumbered : ∀ snapshot, policy = some snapshot → snapshot.revision ≠ 0) : Sound (dialed service policy fetched) := by
  unfold dialed
  split
  · exact ⟨rfl, hnumbered⟩
  · split <;> exact ⟨rfl, hnumbered⟩

theorem Sound.inStep_iff_of_none (h : Sound l) (hnone : l.policy = none) :
    InStep l ↔ ∀ snapshot, l.received = some snapshot → Neutral snapshot := by
  unfold InStep
  rw [hnone, h.compiled]
  simp only [Option.map_eq_some_iff, forall_exists_index, and_imp]
  constructor
  · intro hno snapshot hreceived
    exact (noOverride_compile_iff snapshot).mp (hno _ snapshot hreceived rfl)
  · rintro hneutral _ snapshot hreceived rfl
    exact (noOverride_compile_iff snapshot).mpr (hneutral snapshot hreceived)

theorem nextAttempt_spec (h : Sound l) :
    l.nextAttempt.policy = l.policy ∧
    l.nextAttempt.received = (if l.policy = none then l.received else l.policy) ∧
    l.nextAttempt.manager = match l.policy with
      | none => l.manager
      | some snapshot => l.manager.update snapshot := by
  cases hpolicy : l.policy with
  | none => simp [nextAttempt, run, step, send, hpolicy, sendIfChanged]
  | some snapshot =>
    have hrevision := h.numbered snapshot hpolicy
    simp [nextAttempt, run, step, send, hpolicy, sendIfChanged, hrevision, takeIn]

/-- After every history the next stream attempt leaves the client with what the controller has, exactly if the
controller has a policy or what the client took in last has no settings. -/
theorem nextAttempt_inStep_iff (service : String) (policy : Option PolicySnapshot) (fetched : Bool)
    (events : List LinkEvent) (hpolicy : ∀ snapshot, policy = some snapshot → snapshot.revision ≠ 0)
    (hevents : ∀ e ∈ events, e.Numbered) :
    InStep ((dialed service policy fetched).run events).nextAttempt ↔
      (((dialed service policy fetched).run events).policy = none →
        ∀ snapshot, ((dialed service policy fetched).run events).received = some snapshot → Neutral snapshot) := by
  have hsound : Sound ((dialed service policy fetched).run events) :=
    run_invariant_of Sound.step (sound_dialed service fetched hpolicy) hevents
  generalize (dialed service policy fetched).run events = l at hsound
  obtain ⟨hsame, hreceived, hmanager⟩ := nextAttempt_spec hsound
  cases hnow : l.policy with
  | none =>
    have hsound' : Sound l.nextAttempt :=
      ⟨by rw [hmanager, hreceived, hnow]; exact hsound.compiled, by rw [hsame]; exact hsound.numbered⟩
    rw [hsound'.inStep_iff_of_none (hsame.trans hnow), hreceived, if_pos hnow]
    simp
  | some snapshot =>
    refine iff_of_true ?_ fun h => by cases h
    unfold InStep
    rw [hsame, hmanager, hnow]
    rfl

/-! ## A stream that stays up -/

def messageFor (body : ℤ → PolicySnapshot) (service : String) (revision : ℤ) : PolicySnapshot :=
  if revision = deletedPolicyRevision then deletedPolicy service else body revision

def Identified (body : ℤ → PolicySnapshot) (snapshot : PolicySnapshot) : Prop :=
  snapshot = body snapshot.revision ∧ snapshot.revision ≠ 0 ∧ snapshot.revision ≠ deletedPolicyRevision

structure Faithful (body : ℤ → PolicySnapshot) (l : PolicyLink) : Prop where
  policy : ∀ snapshot, l.policy = some snapshot → Identified body snapshot
  stream : ∀ st, l.stream = some st → st.lastRevision ≠ 0 ∧
    (l.received.toList ++ st.underway).getLast? = some (messageFor body l.service st.lastRevision)

variable {body : ℤ → PolicySnapshot}

theorem Identified.message (h : ∀ snapshot, l.policy = some snapshot → Identified body snapshot) :
    (policyMessage l.service l.policy).revision ≠ 0 ∧ policyMessage l.service l.policy =
      messageFor body l.service (policyMessage l.service l.policy).revision := by
  unfold messageFor
  cases hpolicy : l.policy with
  | none =>
    refine ⟨?_, (if_pos rfl).symm⟩
    simp [policyMessage, deletedPolicy, deletedPolicyRevision]
  | some snapshot =>
    obtain ⟨hbody, hzero, hdeleted⟩ := h snapshot hpolicy
    exact ⟨hzero, by rw [policyMessage, if_neg hdeleted]; exact hbody⟩

theorem Faithful.send (h : Faithful body l) {stream : PolicyStream}
    (hstream : stream.lastRevision = 0 ∨
      (l.received.toList ++ stream.underway).getLast? = some (messageFor body l.service stream.lastRevision)) :
    Faithful body (l.send stream) := by
  obtain ⟨hservice, hpolicy, -, hreceived⟩ := send_frame l stream
  obtain ⟨hzero, hmessage⟩ := Identified.message h.policy
  refine ⟨fun snapshot hsnapshot => h.policy snapshot (hpolicy ▸ hsnapshot), fun st hst => ?_⟩
  rw [hservice, hreceived]
  unfold PolicyLink.send at hst
  split at hst
  · cases hst
  · rename_i revision message hsend
    obtain ⟨rfl, rfl⟩ := sendIfChanged_ok hsend
    cases hst
    refine ⟨hzero, ?_⟩
    dsimp only
    split
    · -- nothing new: the last message is still the right one
      rename_i hsame
      rw [← hsame] at hstream
      simpa using hstream.resolve_left hzero
    · rw [← hmessage]
      simp

theorem Faithful.step (l : PolicyLink) (event : LinkEvent) (h : Faithful body l)
    (hevent : ∀ snapshot, event = .put snapshot → Identified body snapshot) : Faithful body (l.step event) := by
  cases event with
  | put snapshot => exact ⟨fun _ hput => by cases hput; exact hevent snapshot rfl, h.stream⟩
  | delete => exact ⟨fun _ hput => (by cases hput), h.stream⟩
  | broken => exact ⟨h.policy, fun _ hst => by cases hst⟩
  | connect =>
    unfold PolicyLink.step
    dsimp only
    split
    · exact h
    · exact h.send (.inl rfl)
  | tick =>
    unfold PolicyLink.step
    dsimp only
    split
    · exact h
    · rename_i stream hstream
      exact h.send (.inr (h.stream stream hstream).2)
  | receive =>
    unfold PolicyLink.step
    dsimp only
    split
    · rename_i lastRevision snapshot rest hstream
      obtain ⟨hzero, hlast⟩ := h.stream _ hstream
      refine ⟨h.policy, fun st hst => ?_⟩
      cases hst
      refine ⟨hzero, ?_⟩
      rw [List.getLast?_append_of_ne_nil _ (List.cons_ne_nil _ _)] at hlast
      exact hlast
    · exact h

/-- While a stream is up, a client that has taken in all that was sent has what the controller has as soon as the
controller has nothing left to send. -/
theorem quiet_stream_inStep (service : String) (policy : Option PolicySnapshot) (fetched : Bool)
    (events : List LinkEvent) (hpolicy : ∀ snapshot, policy = some snapshot → Identified body snapshot)
    (hevents : ∀ snapshot, .put snapshot ∈ events → Identified body snapshot) (revision : ℤ)
    (hstream : ((dialed service policy fetched).run events).stream = some { lastRevision := revision, underway := [] })
    (hquiet : sendIfChanged ((dialed service policy fetched).run events).service
      ((dialed service policy fetched).run events).policy revision = .ok (revision, none)) :
    InStep ((dialed service policy fetched).run events) := by
  have hdialed : Faithful body (dialed service policy fetched) := by
    unfold dialed
    split
    · exact ⟨hpolicy, fun _ hst => by cases hst⟩
    · split <;> exact ⟨hpolicy, fun _ hst => by cases hst⟩
  have hfaithful : Faithful body ((dialed service policy fetched).run events) :=
    run_invariant_of (fun l e hl he => Faithful.step l e hl he) hdialed fun e he snapshot hput => hevents snapshot (hput ▸ he)
  have hsound : Sound ((dialed service policy fetched).run events) := by
    refine run_invariant_of Sound.step (sound_dialed service fetched fun s hs => (hpolicy s hs).2.1) fun e he => ?_
    cases e with
    | put snapshot => exact (hevents snapshot he).2.1
    | _ => trivial
  generalize (dialed service policy fetched).run events = l at *
  obtain ⟨-, hlast⟩ := hfaithful.stream _ hstream
  obtain ⟨-, hmessage⟩ := Identified.message hfaithful.policy
  have hrevision := (sendIfChanged_ok hquiet).1
  rw [List.append_nil, hrevision, ← hmessage] at hlast
  have hreceived : l.received = some (policyMessage l.service l.policy) := by
    cases hr : l.received with
    | none =>
      rw [hr] at hlast
      cases hlast
    | some snapshot =>
      rw [hr] at hlast
      exact hlast
  cases hnow : l.policy with
  | none =>
    rw [hsound.inStep_iff_of_none hnow, hreceived, hnow]
    rintro _ hdeleted
    cases hdeleted
    exact neutral_deletedPolicy l.service
  | some snapshot =>
    unfold InStep
    rw [hnow, hsound.compiled, hreceived, hnow]
    rfl

end PolicyLink

/-! ## A deletion between two streams -/

def noRetries : PolicySnapshot where
  service := "order"
  revision := 5
  retry := some { maxAttempts := 1 }

theorem deleted_while_connected :
    InStep ((PolicyLink.dialed "order" (some noRetries) true).run [.connect, .receive, .delete, .tick, .receive]) := by
  have hbody : ∀ snapshot, some noRetries = some snapshot → PolicyLink.Identified (fun _ => noRetries) snapshot := by
    rintro _ hput
    cases hput
    exact ⟨rfl, by decide, by decide⟩
  exact PolicyLink.quiet_stream_inStep "order" _ true _ hbody (by simp) deletedPolicyRevision rfl rfl

/-- The policy is deleted after the stream has broken, and the next attempt only gets an error. -/
theorem deleted_while_disconnected :
    let l := (PolicyLink.dialed "order" (some noRetries) true).run [.connect, .receive, .broken, .delete]
    l.nextAttempt.policy = none ∧ l.nextAttempt.stream.isNone = true ∧
      l.nextAttempt.manager.policy.map (fun policy => (policy.version, policy.defaultRetry.has)) = some (5, true) := by
  decide +kernel

theorem deleted_on_stream :
    InStep ((PolicyLink.dialed "order" (some noRetries) true).run
      [.connect, .receive, .delete, .tick, .receive, .broken]).nextAttempt := by
  refine (PolicyLink.nextAttempt_inStep_iff "order" (some noRetries) true
    [.connect, .receive, .delete, .tick, .receive, .broken] ?_ ?_).mpr ?_
  · rintro _ hput
    cases hput
    decide
  · simp [LinkEvent.Numbered]
  · rintro - snapshot hreceived
    cases hreceived
    exact neutral_deletedPolicy "order"

end AegisMesh.Sdk
