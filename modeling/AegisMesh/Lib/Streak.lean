import Mathlib.Data.List.Infix
import Mathlib.Tactic.Common

/-! # Streaks -/

namespace Lib

variable {ι γ : Type} {state : List ι → γ} {P : ι → Prop} {k : ℕ} {past : List ι} {input : ι}

def Streak (state : List ι → γ) (P : ι → Prop) (k : ℕ) (past : List ι) : Prop :=
  ∃ before recent, past = before ++ recent ∧ recent.length = k ∧ (∀ i ∈ recent, P i) ∧
    ∀ part, part <+: recent → state (before ++ part) = state past

def Completes (state : List ι → γ) (P : ι → Prop) (n : ℕ) (past : List ι) (input : ι) : Prop :=
  P input ∧ ∃ k, k + 1 = n ∧ Streak state P k past

theorem streak_zero (state : List ι → γ) (P : ι → Prop) (past : List ι) : Streak state P 0 past := by
  refine ⟨past, [], (List.append_nil past).symm, rfl, by simp, fun part hpart => ?_⟩
  rw [List.prefix_nil.mp hpart, List.append_nil]

theorem streak_snoc (h : Streak state P (k + 1) (past ++ [input])) :
    P input ∧ Streak state P k past ∧ state (past ++ [input]) = state past := by
  obtain ⟨before, recent, hpast, hlength, hall, hstate⟩ := h
  obtain rfl | ⟨shorter, last, rfl⟩ := recent.eq_nil_or_concat'
  · cases hlength
  rw [← List.append_assoc, List.append_singleton_inj] at hpast
  obtain ⟨rfl, rfl⟩ := hpast
  have hbefore : state (before ++ shorter) = state (before ++ shorter ++ [input]) :=
    hstate shorter (List.prefix_append _ _)
  refine ⟨hall input (by simp), ⟨before, shorter, rfl, by simpa using hlength, fun i hi => ?_, fun part hpart => ?_⟩,
    hbefore.symm⟩
  · exact hall i (List.mem_append_left _ hi)
  · rw [hbefore]
    exact hstate part (hpart.trans (List.prefix_append _ _))

theorem streak_snoc_same (hsame : state (past ++ [input]) = state past) :
    Streak state P (k + 1) (past ++ [input]) ↔ P input ∧ Streak state P k past := by
  refine ⟨fun h => ⟨(streak_snoc h).1, (streak_snoc h).2.1⟩, ?_⟩
  rintro ⟨hinput, before, recent, rfl, hlength, hall, hstate⟩
  refine ⟨before, recent ++ [input], (List.append_assoc ..), by simp [hlength], ?_, fun part hpart => ?_⟩
  · intro i hi
    rcases List.mem_append.mp hi with hi | hi
    · exact hall i hi
    · rw [List.mem_singleton.mp hi]
      exact hinput
  · rw [hsame]
    -- A part of the longer row is a part of the shorter one, or all of it.
    rcases List.prefix_concat_iff.mp hpart with rfl | hpart
    · rw [← List.append_assoc, hsame]
    · exact hstate part hpart

theorem streak_snoc_moved (hmoved : state (past ++ [input]) ≠ state past) :
    Streak state P k (past ++ [input]) ↔ k = 0 := by
  constructor
  · intro h
    cases k with
    | zero => rfl
    | succ k => exact absurd (streak_snoc h).2.2 hmoved
  · rintro rfl
    exact streak_zero state P _

/-! ## Counters -/

def CountsStreak (state : List ι → γ) (P : ι → Prop) (past : List ι) (count : ℕ) : Prop :=
  ∀ k, Streak state P k past ↔ k ≤ count

variable {count : ℕ}

theorem countsStreak_nil (state : List ι → γ) (P : ι → Prop) : CountsStreak state P [] 0 := by
  intro k
  constructor
  · rintro ⟨before, recent, hpast, rfl, -, -⟩
    simp [(List.append_eq_nil_iff.mp hpast.symm).2]
  · intro hk
    rw [Nat.le_zero.mp hk]
    exact streak_zero state P []

theorem CountsStreak.same [Decidable (P input)] (h : CountsStreak state P past count)
    (hsame : state (past ++ [input]) = state past) :
    CountsStreak state P (past ++ [input]) (if P input then count + 1 else 0) := by
  intro k
  cases k with
  | zero => simp [streak_zero]
  | succ k =>
    rw [streak_snoc_same hsame, h k]
    split <;> simp_all

theorem countsStreak_moved (hmoved : state (past ++ [input]) ≠ state past) :
    CountsStreak state P (past ++ [input]) 0 := by
  intro k
  rw [streak_snoc_moved hmoved, Nat.le_zero]

theorem CountsStreak.completes_iff [Decidable (P input)] (h : CountsStreak state P past count) {n : ℕ} (hn : 0 < n) :
    Completes state P n past input ↔ n ≤ if P input then count + 1 else 0 := by
  unfold Completes
  constructor
  · rintro ⟨hinput, k, rfl, hstreak⟩
    rw [if_pos hinput]
    exact Nat.succ_le_succ ((h k).mp hstreak)
  · intro hle
    split at hle
    · rename_i hinput
      exact ⟨hinput, n - 1, by omega, (h _).mpr (by omega)⟩
    · omega

end Lib
