import Mathlib.Data.List.Infix
import AegisMesh.Lib.Runs

/-! # Channels with one slot -/

namespace Lib

inductive Producer (α : Type)
  | done
  | trySend (v : α) (sent full : Producer α)
  | receive (next : Producer α)
  | send (v : α) (next : Producer α)

namespace Producer

variable {α : Type}

def sendLatest (v : α) (next : Producer α) : Producer α := .trySend v next (.receive (.send v next))

def values : Producer α → List α
  | .done => []
  | .trySend v sent _ => v :: values sent
  | .receive next => values next
  | .send v next => v :: values next

inductive Replacing : Producer α → Prop
  | done : Replacing .done
  | latest (v : α) {next : Producer α} : Replacing next → Replacing (sendLatest v next)
  | send (v : α) {next : Producer α} : Replacing next → Replacing (.send v next)

def Draining (p : Producer α) : Prop := ∃ v next, p = .receive (.send v next) ∧ Replacing next

end Producer

structure OneSlot (α : Type) where
  slot : Option α := none
  producer : Producer α
  received : List α := []

inductive SlotEvent
  | produce
  | consume
  | abort
deriving DecidableEq

namespace OneSlot

variable {α : Type}

def produce (s : OneSlot α) : OneSlot α :=
  match s.producer, s.slot with
  | .done, _ => s
  | .trySend v sent _, none => { s with slot := some v, producer := sent }
  | .trySend _ _ full, some _ => { s with producer := full }
  | .receive _, none => s
  | .receive next, some _ => { s with slot := none, producer := next }
  | .send v next, none => { s with slot := some v, producer := next }
  | .send _ _, some _ => s

def consume (s : OneSlot α) : OneSlot α :=
  match s.slot with
  | none => s
  | some v => { s with slot := none, received := s.received ++ [v] }

def step (s : OneSlot α) : SlotEvent → OneSlot α
  | .produce => s.produce
  | .consume => s.consume
  | .abort => { s with producer := .done }

def run (s : OneSlot α) (events : List SlotEvent) : OneSlot α := events.foldl step s

open Producer

variable {s : OneSlot α}

def Wedged (s : OneSlot α) : Prop := s.producer.Draining ∧ s.slot = none

def Gap (s : OneSlot α) : Prop := s.producer.Draining ∧ s.slot ≠ none

def Steady (s : OneSlot α) : Prop := s.producer.Replacing ∨ s.producer.Draining

theorem Steady.produce_cases (h : s.Steady) :
    s.produce = s ∨
    (∃ v next, s.slot = none ∧ s.producer.values = v :: next.values ∧ next.Replacing ∧
      s.produce = { s with slot := some v, producer := next }) ∨
    (∃ v next, s.slot ≠ none ∧ s.producer.values = v :: next.values ∧ next.Replacing ∧
      s.produce = { s with producer := .receive (.send v next) }) ∨
    (∃ v next, s.slot ≠ none ∧ s.producer.values = v :: next.values ∧ next.Replacing ∧
      s.produce = { s with slot := none, producer := .send v next }) := by
  rcases s with ⟨slot, producer, received⟩
  rcases h with (_ | ⟨v, hnext⟩ | ⟨v, hnext⟩) | ⟨v, next, heq, hnext⟩
  · exact Or.inl rfl
  · rcases slot with _ | old
    · exact Or.inr (Or.inl ⟨v, _, rfl, rfl, hnext, rfl⟩)
    · exact Or.inr (Or.inr (Or.inl ⟨v, _, by simp, rfl, hnext, rfl⟩))
  · rcases slot with _ | old
    · exact Or.inr (Or.inl ⟨v, _, rfl, rfl, hnext, rfl⟩)
    · exact Or.inl rfl
  · obtain rfl : producer = .receive (.send v next) := heq
    rcases slot with _ | old
    · exact Or.inl rfl
    · exact Or.inr (Or.inr (Or.inr ⟨v, next, by simp, rfl, hnext, rfl⟩))

theorem Steady.produce (h : s.Steady) : s.produce.Steady := by
  rcases h.produce_cases with heq | ⟨v, next, -, -, hnext, heq⟩ | ⟨v, next, -, -, hnext, heq⟩ |
    ⟨v, next, -, -, hnext, heq⟩ <;> rw [heq]
  · exact h
  · exact Or.inl hnext
  · exact Or.inr ⟨v, next, rfl, hnext⟩
  · exact Or.inl (.send v hnext)

theorem producer_consume (s : OneSlot α) : s.consume.producer = s.producer := by
  unfold consume
  split <;> rfl

theorem Steady.step (h : s.Steady) (e : SlotEvent) : (s.step e).Steady := by
  rcases e with _ | _ | _
  · exact h.produce
  · simpa only [Steady, OneSlot.step, producer_consume] using h
  · exact Or.inl .done

theorem Wedged.step (h : s.Wedged) {e : SlotEvent} (he : e ≠ .abort) : s.step e = s := by
  obtain ⟨⟨v, next, heq, -⟩, hslot⟩ := h
  rcases e with _ | _ | _
  · simp [OneSlot.step, OneSlot.produce, heq, hslot]
  · simp [OneSlot.step, consume, hslot]
  · exact absurd rfl he

theorem slot_consume (s : OneSlot α) : s.consume.slot = none := by
  unfold consume
  split
  · assumption
  · rfl

theorem Gap.consume (h : s.Gap) : (s.step .consume).Wedged :=
  ⟨by simpa only [OneSlot.step, producer_consume] using h.1, s.slot_consume⟩

theorem not_draining {p : Producer α} (h : p.Replacing) : ¬ p.Draining := by
  rintro ⟨v, next, rfl, -⟩
  cases h

theorem Steady.gap_of_wedged (h : s.Steady) {e : SlotEvent} (hbefore : ¬ s.Wedged) (hafter : (s.step e).Wedged) :
    e = .consume ∧ s.Gap := by
  rcases e with _ | _ | _
  · unfold OneSlot.step at hafter
    obtain ⟨hdraining, hslot⟩ := hafter
    rcases h.produce_cases with heq | ⟨v, next, -, -, -, heq⟩ | ⟨v, next, hfull, -, -, heq⟩ |
      ⟨v, next, -, -, hnext, heq⟩ <;> rw [heq] at hdraining hslot
    · exact absurd ⟨hdraining, hslot⟩ hbefore
    · simp at hslot
    · exact absurd hslot hfull
    · exact absurd hdraining (not_draining (.send v hnext))
  · have hdraining : s.producer.Draining := by simpa only [OneSlot.step, producer_consume] using hafter.1
    exact ⟨rfl, hdraining, fun hslot => hbefore ⟨hdraining, hslot⟩⟩
  · exact absurd hafter.1 (not_draining .done)

theorem run_snoc (s : OneSlot α) (events : List SlotEvent) (e : SlotEvent) :
    s.run (events ++ [e]) = (s.run events).step e := by
  simp [run]

theorem Steady.run (h : s.Steady) (events : List SlotEvent) : (s.run events).Steady :=
  run_invariant (I := OneSlot.Steady) (fun _ e hs => hs.step e) h events

/-- While the context lasts, the producer is stuck after a run exactly if at some point of it the consumer came
between the send that found the channel full and the receive that was to make room. -/
theorem Steady.wedged_run_iff (h : s.Steady) (hbefore : ¬ s.Wedged) {events : List SlotEvent} (hlive : .abort ∉ events) :
    (s.run events).Wedged ↔ ∃ p, p ++ [.consume] <+: events ∧ (s.run p).Gap := by
  induction events using List.reverseRecOn with
  | nil => simp [OneSlot.run, hbefore]
  | append_singleton events e ih =>
    simp only [List.mem_append, List.mem_singleton, not_or] at hlive
    have ih := ih hlive.1
    rw [run_snoc]
    constructor
    · intro hafter
      by_cases hmid : (s.run events).Wedged
      · obtain ⟨p, hp, hgap⟩ := ih.mp hmid
        exact ⟨p, hp.trans (List.prefix_append _ _), hgap⟩
      · obtain ⟨rfl, hgap⟩ := (h.run events).gap_of_wedged hmid hafter
        exact ⟨events, List.prefix_rfl, hgap⟩
    · rintro ⟨p, hp, hgap⟩
      rcases List.prefix_concat_iff.mp hp with heq | hp
      · obtain ⟨rfl, hlast⟩ := List.append_inj' heq rfl
        obtain rfl : SlotEvent.consume = e := by simpa using hlast
        exact hgap.consume
      · have hmid := ih.mpr ⟨p, hp, hgap⟩
        rw [hmid.step (Ne.symm hlive.2)]
        exact hmid

/-! ## What has been received -/

def Accounts (all : List α) (s : OneSlot α) : Prop :=
  ∃ sent, sent ++ s.producer.values <+: all ∧ (s.received ++ s.slot.toList).Sublist sent

theorem accounts_start (producer : Producer α) : Accounts producer.values { producer } := ⟨[], by simp, by simp⟩

variable {all : List α}

theorem Accounts.produce (h : Accounts all s) (hsteady : s.Steady) : Accounts all s.produce := by
  obtain ⟨sent, hsent, hreceived⟩ := h
  rcases hsteady.produce_cases with heq | ⟨v, next, hslot, hvalues, -, heq⟩ | ⟨v, next, -, hvalues, -, heq⟩ |
    ⟨v, next, -, hvalues, -, heq⟩ <;> rw [heq]
  · exact ⟨sent, hsent, hreceived⟩
  · refine ⟨sent ++ [v], by simpa [hvalues] using hsent, ?_⟩
    simpa using ((List.sublist_append_left _ _).trans hreceived).append (List.Sublist.refl [v])
  · exact ⟨sent, by simpa [hvalues, values] using hsent, hreceived⟩
  · refine ⟨sent, by simpa [hvalues, values] using hsent, ?_⟩
    simpa using (List.sublist_append_left _ _).trans hreceived

theorem Accounts.step (h : Accounts all s) (hsteady : s.Steady) (e : SlotEvent) : Accounts all (s.step e) := by
  rcases e with _ | _ | _
  · exact h.produce hsteady
  · obtain ⟨sent, hsent, hreceived⟩ := h
    refine ⟨sent, by simpa only [OneSlot.step, producer_consume] using hsent, ?_⟩
    unfold OneSlot.step consume
    rcases hslot : s.slot with _ | old <;> simpa [hslot] using hreceived
  · obtain ⟨sent, hsent, hreceived⟩ := h
    refine ⟨sent, ?_, hreceived⟩
    simpa [OneSlot.step, values] using (List.prefix_append sent _).trans hsent

theorem Steady.accounts_run (h : s.Steady) (haccounts : Accounts all s) (events : List SlotEvent) :
    Accounts all (s.run events) :=
  (run_invariant (I := fun s => OneSlot.Steady s ∧ Accounts all s)
    (fun _ e hs => ⟨hs.1.step e, hs.2.step hs.1 e⟩) ⟨h, haccounts⟩ events).2

end OneSlot

end Lib
