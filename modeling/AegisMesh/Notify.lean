import AegisMesh.Lib.OneSlot
import AegisMesh.Registry.Memory

/-!
# Latest-value channels

Watchers are told through channels with one slot, in which a new value takes the place of one that nobody has
fetched: `sendLatestSnapshot`, `sendLatestVersion`, and the relays of the two etcd watches.
-/

open Lib

namespace AegisMesh.Notify

open Registry

def cloneInstances (instances : List Instance) : List Instance :=
  instances.map fun inst => { inst with labels := cloneLabels inst.labels }

def cloneInstanceSnapshot (snapshot : InstanceSnapshot) : InstanceSnapshot :=
  { snapshot with instances := cloneInstances snapshot.instances }

def sendLatestSnapshot (snapshot : InstanceSnapshot) (next : Producer InstanceSnapshot) : Producer InstanceSnapshot :=
  .sendLatest (cloneInstanceSnapshot snapshot) next

def sendLatestVersion (version : ℕ) (next : Producer ℕ) : Producer ℕ := .sendLatest version next

/-- A response of an etcd watch. `err` is the text of `Err()`; a canceled watch may have none. -/
structure WatchResponse where
  revision : ℕ
  err : Option String := none
  canceled : Bool := false

def WatchResponse.ends (resp : WatchResponse) : Bool := resp.err.isSome || resp.canceled

def leaseStoreRelay : List WatchResponse → Producer ℕ
  | [] => .done
  | resp :: rest =>
    if resp.ends then .done
    else if resp.revision = 0 then leaseStoreRelay rest
    else .sendLatest resp.revision (leaseStoreRelay rest)

structure HealthStoreEvent where
  revision : ℕ
  err : Option String := none
deriving DecidableEq

/-- The goroutine of `etcdHealthKVStore.Watch`. Unlike the other it passes a failure on, and waits for the
slot to do so. -/
def healthStoreRelay : List WatchResponse → Producer HealthStoreEvent
  | [] => .done
  | resp :: rest =>
    if resp.ends then .send { revision := resp.revision, err := resp.err } .done
    else if resp.revision = 0 then healthStoreRelay rest
    else .sendLatest { revision := resp.revision } (healthStoreRelay rest)

/-! ## The channels -/

inductive Channel
  | snapshots
  | versions
  | leaseRevisions
  | healthEvents

namespace Channel

def Input : Channel → Type
  | .snapshots => InstanceSnapshot
  | .versions => ℕ
  | .leaseRevisions => WatchResponse
  | .healthEvents => WatchResponse

def Value : Channel → Type
  | .snapshots => InstanceSnapshot
  | .versions => ℕ
  | .leaseRevisions => ℕ
  | .healthEvents => HealthStoreEvent

def producer : (c : Channel) → List c.Input → Producer c.Value
  | .snapshots, inputs => inputs.foldr sendLatestSnapshot .done
  | .versions, inputs => inputs.foldr sendLatestVersion .done
  | .leaseRevisions, inputs => leaseStoreRelay inputs
  | .healthEvents, inputs => healthStoreRelay inputs

theorem replacing_foldr {α β : Type} (f : α → β) (inputs : List α) :
    (inputs.foldr (fun input next => Producer.sendLatest (f input) next) .done).Replacing := by
  induction inputs with
  | nil => exact .done
  | cons input rest ih => exact .latest _ ih

theorem replacing_leaseStoreRelay (responses : List WatchResponse) : (leaseStoreRelay responses).Replacing := by
  induction responses with
  | nil => exact .done
  | cons resp rest ih =>
    unfold leaseStoreRelay
    split_ifs
    · exact .done
    · exact ih
    · exact .latest _ ih

theorem replacing_healthStoreRelay (responses : List WatchResponse) : (healthStoreRelay responses).Replacing := by
  induction responses with
  | nil => exact .done
  | cons resp rest ih =>
    unfold healthStoreRelay
    split_ifs
    · exact .send _ .done
    · exact ih
    · exact .latest _ ih

theorem replacing_producer (c : Channel) (inputs : List c.Input) : (c.producer inputs).Replacing := by
  rcases c with _ | _ | _ | _
  · exact replacing_foldr cloneInstanceSnapshot inputs
  · exact replacing_foldr id inputs
  · exact replacing_leaseStoreRelay inputs
  · exact replacing_healthStoreRelay inputs

def after (c : Channel) (inputs : List c.Input) (events : List SlotEvent) : OneSlot c.Value :=
  OneSlot.run { producer := c.producer inputs } events

/-- The producer waits to receive from the empty channel with `v` in its hands, and the consumer has got
nothing but values that came before `v`. -/
def Stuck (c : Channel) (inputs : List c.Input) (events : List SlotEvent) : Prop :=
  ∃ sent v rest next, (c.producer inputs).values = sent ++ v :: rest ∧
    (c.after inputs events).producer = .receive (.send v next) ∧ (c.after inputs events).slot = none ∧
    (c.after inputs events).received.Sublist sent

variable (c : Channel) (inputs : List c.Input)

theorem steady_start : OneSlot.Steady { producer := c.producer inputs } := Or.inl (c.replacing_producer inputs)

theorem not_wedged_start : ¬ OneSlot.Wedged { producer := c.producer inputs } :=
  fun h => OneSlot.not_draining (c.replacing_producer inputs) h.1

theorem stuck_iff_wedged (events : List SlotEvent) : c.Stuck inputs events ↔ (c.after inputs events).Wedged := by
  constructor
  · rintro ⟨sent, v, rest, next, -, heq, hslot, -⟩
    refine ⟨?_, hslot⟩
    rcases (c.steady_start inputs).run events with hreplacing | hdraining
    · rw [after] at heq
      rw [heq] at hreplacing
      cases hreplacing
    · exact hdraining
  · rintro ⟨⟨v, next, heq, -⟩, hslot⟩
    obtain ⟨sent, ⟨rest, hsent⟩, hreceived⟩ :=
      (c.steady_start inputs).accounts_run (OneSlot.accounts_start (c.producer inputs)) events
    change sent ++ (c.after inputs events).producer.values ++ rest = _ at hsent
    refine ⟨sent, v, next.values ++ rest, next, ?_, heq, hslot, (List.sublist_append_left _ _).trans hreceived⟩
    rw [← hsent, heq]
    simp [Producer.values]

/-- The consumer fetches the old value after the producer has found the channel full, and before the producer
has taken the value out itself. -/
def FetchedFirst (events : List SlotEvent) : Prop :=
  ∃ p, p ++ [.consume] <+: events ∧ (∃ v next, (c.after inputs p).producer = .receive (.send v next)) ∧
    (c.after inputs p).slot ≠ none

/-- While the context lasts, this is the one way in which the producer gets stuck, and then it stays so. -/
theorem stuck_iff_fetchedFirst {events : List SlotEvent} (hlive : .abort ∉ events) :
    c.Stuck inputs events ↔ c.FetchedFirst inputs events := by
  rw [stuck_iff_wedged]
  unfold after
  rw [(c.steady_start inputs).wedged_run_iff (c.not_wedged_start inputs) hlive]
  constructor
  · rintro ⟨p, hp, ⟨v, next, heq, -⟩, hslot⟩
    exact ⟨p, hp, ⟨v, next, heq⟩, hslot⟩
  · rintro ⟨p, hp, ⟨v, next, heq⟩, hslot⟩
    refine ⟨p, hp, ?_, hslot⟩
    rcases (c.steady_start inputs).run p with hreplacing | hdraining
    · unfold after at heq
      rw [heq] at hreplacing
      cases hreplacing
    · exact hdraining

theorem replaced_before_fetch :
    SlotEvent.abort ∉ [.produce, .produce, .produce, .produce, .consume] ∧
    ¬ Stuck .versions ([1, 2] : List ℕ) [.produce, .produce, .produce, .produce, .consume] := by
  have hlive : SlotEvent.abort ∉ [.produce, .produce, .produce, .produce, .consume] := by decide
  refine ⟨hlive, fun hstuck => ?_⟩
  obtain ⟨p, hp, ⟨v, next, heq⟩, -⟩ := (stuck_iff_fetchedFirst .versions ([1, 2] : List ℕ) hlive).mp hstuck
  rcases List.prefix_concat_iff.mp
    (show p ++ [.consume] <+: [.produce, .produce, .produce, .produce] ++ [.consume] from hp) with hall | hp
  · obtain ⟨rfl, -⟩ := List.append_inj' hall rfl
    cases heq
  · have hmem : SlotEvent.consume ∈ [.produce, .produce, .produce, .produce] := hp.subset (by simp)
    simp at hmem

theorem fetched_before_drain : Stuck .versions ([1, 2] : List ℕ) [.produce, .produce, .consume] :=
  ⟨([1] : List ℕ), (2 : ℕ), [], .done, rfl, rfl, rfl, List.Sublist.refl _⟩

end Channel

end AegisMesh.Notify
