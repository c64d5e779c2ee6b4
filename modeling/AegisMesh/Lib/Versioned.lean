import Mathlib.Data.List.Chain
import Mathlib.Data.List.Infix

/-! # Versioned content -/

namespace Lib

structure Versioned (α : Type) where
  version : ℕ
  content : α

namespace Versioned

variable {α : Type} {a b c : Versioned α}

structure Grows (a b : Versioned α) : Prop where
  le : a.version ≤ b.version
  same : a.version = b.version → a.content = b.content

theorem Grows.refl (a : Versioned α) : Grows a a := ⟨le_rfl, fun _ => rfl⟩

theorem Grows.of_eq (h : a = b) : Grows a b := h ▸ Grows.refl a

theorem Grows.of_lt (h : a.version < b.version) : Grows a b := ⟨h.le, fun heq => absurd heq h.ne⟩

theorem Grows.trans (h : Grows a b) (h' : Grows b c) : Grows a c where
  le := h.le.trans h'.le
  same heq := by
    have hab : a.version = b.version := le_antisymm h.le (heq ▸ h'.le)
    exact (h.same hab).trans (h'.same (hab ▸ heq))

/-! ## What was read at a version -/

structure Since (a : Versioned α) (v : ℕ) (P : α → Prop) : Prop where
  le : v ≤ a.version
  known : v = a.version → P a.content

variable {v : ℕ} {P Q : α → Prop}

theorem Since.grows (h : a.Since v P) (hgrows : Grows a b) : b.Since v P where
  le := h.le.trans hgrows.le
  known heq := by
    have hversion : a.version = b.version := le_antisymm hgrows.le (heq ▸ h.le)
    rw [← hgrows.same hversion]
    exact h.known (heq.trans hversion.symm)

theorem Since.imp (h : a.Since v P) (himp : ∀ content, P content → Q content) : a.Since v Q :=
  ⟨h.le, fun heq => himp _ (h.known heq)⟩

theorem Since.and (h : a.Since v P) (h' : a.Since v Q) : a.Since v fun content => P content ∧ Q content :=
  ⟨h.le, fun heq => ⟨h.known heq, h'.known heq⟩⟩

/-! ## Runs -/

section Run

variable {σ ε : Type} (step : σ → ε → σ) (good : σ → Prop) (view : σ → Versioned α)

def Step (event : ε) : Prop := ∀ s, good s → good (step s event) ∧ Grows (view s) (view (step s event))

variable {step good view}

theorem run_grows (events : List ε) (hstep : ∀ event ∈ events, Step step good view event) {s : σ} (h : good s) :
    good (events.foldl step s) ∧ Grows (view s) (view (events.foldl step s)) := by
  induction events generalizing s with
  | nil => exact ⟨h, Grows.refl _⟩
  | cons event rest ih =>
    obtain ⟨hgood, hgrows⟩ := hstep event (by simp) s h
    obtain ⟨hgood', hgrows'⟩ := ih (fun e he => hstep e (by simp [he])) hgood
    exact ⟨hgood', hgrows.trans hgrows'⟩

theorem grows_of_isPrefix {events p q : List ε} (hstep : ∀ event ∈ events, Step step good view event) {s : σ}
    (h : good s) (hq : q <+: events) (hpq : p <+: q) : Grows (view (p.foldl step s)) (view (q.foldl step s)) := by
  obtain ⟨mid, rfl⟩ := hpq
  have hmem : ∀ event ∈ p ++ mid, Step step good view event := fun event he => hstep event (hq.subset he)
  have hp := (run_grows p (fun event he => hmem event (by simp [he])) h).1
  rw [List.foldl_append]
  exact (run_grows mid (fun event he => hmem event (by simp [he])) hp).2

variable (view) in
theorem content_of_version {events p q : List ε} (hstep : ∀ event ∈ events, Step step good view event) {s : σ}
    (h : good s) (hp : p <+: events) (hq : q <+: events)
    (hversion : (view (p.foldl step s)).version = (view (q.foldl step s)).version) :
    (view (p.foldl step s)).content = (view (q.foldl step s)).content := by
  rcases List.prefix_or_prefix_of_prefix hp hq with hpq | hqp
  · exact (grows_of_isPrefix hstep h hq hpq).same hversion
  · exact ((grows_of_isPrefix hstep h hp hqp).same hversion.symm).symm

end Run

end Versioned

theorem isChain_snoc {a b : ℕ} {l : List ℕ} (h : (a :: l).IsChain (· < ·)) (hlt : l.getLastD a < b) :
    (a :: (l ++ [b])).IsChain (· < ·) := by
  rw [← List.cons_append, List.isChain_append]
  refine ⟨h, List.isChain_singleton _, fun x hx y hy => ?_⟩
  rw [List.getLast?_cons, ← List.getLastD_eq_getLast?, Option.mem_some_iff] at hx
  rw [List.head?_cons, Option.mem_some_iff] at hy
  omega

end Lib
