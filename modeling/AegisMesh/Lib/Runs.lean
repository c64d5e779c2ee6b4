import Mathlib.Init

/-!
# Runs of a transition system

A run is a left fold of a step function over its events.
-/

namespace Lib

variable {σ ε : Type} {step : σ → ε → σ} {I : σ → Prop} {s : σ} {events : List ε} {ok : σ → ε → Prop}

theorem run_invariant (hstep : ∀ s e, I s → I (step s e)) (h : I s) (events : List ε) :
    I (events.foldl step s) := by
  induction events generalizing s with
  | nil => exact h
  | cons e rest ih => exact ih (hstep s e h)

theorem run_invariant_of {ok : ε → Prop} (hstep : ∀ s e, I s → ok e → I (step s e)) (h : I s)
    (hok : ∀ e ∈ events, ok e) : I (events.foldl step s) := by
  induction events generalizing s with
  | nil => exact h
  | cons e rest ih =>
    obtain ⟨he, hrest⟩ := List.forall_mem_cons.mp hok
    exact ih (hstep s e h he) hrest

def Along (step : σ → ε → σ) (ok : σ → ε → Prop) : σ → List ε → Prop
  | _, [] => True
  | s, e :: rest => ok s e ∧ Along step ok (step s e) rest

instance decidableAlong (ok : σ → ε → Prop) [∀ s e, Decidable (ok s e)] :
    ∀ (s : σ) (events : List ε), Decidable (Along step ok s events)
  | _, [] => inferInstanceAs (Decidable True)
  | s, e :: rest =>
    have := decidableAlong ok (step s e) rest
    inferInstanceAs (Decidable (_ ∧ _))

theorem along_append {before after : List ε} :
    Along step ok s (before ++ after) ↔ Along step ok s before ∧ Along step ok (before.foldl step s) after := by
  induction before generalizing s with
  | nil => simp [Along]
  | cons e rest ih => simp [Along, ih, and_assoc]

theorem run_invariant_along (hstep : ∀ s e, I s → ok s e → I (step s e)) (h : I s) (halong : Along step ok s events) :
    I (events.foldl step s) := by
  induction events generalizing s with
  | nil => exact h
  | cons e rest ih => exact ih (hstep s e h halong.1) halong.2

/-- An invariant that only a state of `Q` can end is kept by every run that does not come through one. -/
theorem run_invariant_unless {I Q : σ → Prop} (hstep : ∀ s e, I s → ok s e → ¬Q s → ¬Q (step s e) → I (step s e))
    (h : I s) (halong : Along step ok s events) :
    (∃ seen rest, events = seen ++ rest ∧ Q (seen.foldl step s)) ∨ I (events.foldl step s) := by
  induction events generalizing s with
  | nil => exact .inr h
  | cons e rest ih =>
    by_cases hbefore : Q s
    · exact .inl ⟨[], e :: rest, rfl, hbefore⟩
    by_cases hafter : Q (step s e)
    · exact .inl ⟨[e], rest, rfl, hafter⟩
    rcases ih (hstep s e h halong.1 hbefore hafter) halong.2 with ⟨seen, later, rfl, hseen⟩ | hlater
    · exact .inl ⟨e :: seen, later, rfl, hseen⟩
    · exact .inr hlater

theorem exists_of_not_along (h : ¬Along step ok s events) :
    ∃ before e after, events = before ++ e :: after ∧ Along step ok s before ∧ ¬ok (before.foldl step s) e := by
  induction events generalizing s with
  | nil => exact absurd trivial h
  | cons e rest ih =>
    by_cases hok : ok s e
    · obtain ⟨before, e', after, rfl, halong, hnot⟩ := ih fun hrest => h ⟨hok, hrest⟩
      exact ⟨e :: before, e', after, rfl, ⟨hok, halong⟩, hnot⟩
    · exact ⟨[], e, rest, rfl, trivial, hok⟩

end Lib
