import Mathlib.Data.List.Forall2
import Mathlib.Order.Lattice

/-! # The cheaper of two random candidates -/

namespace Lib

structure RandomSource (σ : Type) where
  intn : ℕ → σ → ℕ × σ
  lt : ∀ n s, 0 < n → (intn n s).1 < n

def scripted : RandomSource (List ℕ) where
  intn n
    | [] => (0, [])
    | draw :: rest => (draw % n, rest)
  lt n s h := by
    cases s with
    | nil => exact h
    | cons draw rest => exact Nat.mod_lt _ h

namespace RandomSource

variable {σ α β κ : Type} (src : RandomSource σ)

def two (n : ℕ) (s : σ) : (ℕ × ℕ) × σ :=
  match src.intn n s with
  | (a, s) =>
    match src.intn (n - 1) s with
    | (b, s) => ((a, if a ≤ b then b + 1 else b), s)

theorem two_spec {n : ℕ} (h : 2 ≤ n) (s : σ) :
    (src.two n s).1.1 < n ∧ (src.two n s).1.2 < n ∧ (src.two n s).1.1 ≠ (src.two n s).1.2 := by
  rcases hfirst : src.intn n s with ⟨a, s₁⟩
  rcases hsecond : src.intn (n - 1) s₁ with ⟨b, s₂⟩
  have ha : a < n := by simpa [hfirst] using src.lt n s (by omega)
  have hb : b < n - 1 := by simpa [hsecond] using src.lt (n - 1) s₁ (by omega)
  simp only [two, hfirst, hsecond]
  split <;> omega

theorem two_scripted {n i j : ℕ} (hi : i < n) (hj : j < n) (hne : i ≠ j) (rest : List ℕ) :
    ∃ first second, scripted.two n (first :: second :: rest) = ((i, j), rest) := by
  refine ⟨i, if i < j then j - 1 else j, ?_⟩
  simp only [two, scripted, Nat.mod_eq_of_lt hi]
  split
  · rename_i hlt
    rw [Nat.mod_eq_of_lt (by omega), if_pos (by omega), Nat.sub_add_cancel (by omega)]
  · rename_i hlt
    rw [Nat.mod_eq_of_lt (by omega), if_neg (by omega)]

variable [LinearOrder κ]

def cheaper (cost : α → κ) (candidates : List α) (s : σ) : Option α × σ :=
  match candidates with
  | [] => (none, s)
  | [only] => (some only, s)
  | candidates =>
    match src.two candidates.length s with
    | ((i, j), s) => (candidates[i]?.bind fun a => candidates[j]?.map fun b => if cost a ≤ cost b then a else b, s)

variable {cost : α → κ} {candidates : List α}

theorem cheaper_of_two (h : 2 ≤ candidates.length) (s : σ) :
    src.cheaper cost candidates s =
      (candidates[(src.two candidates.length s).1.1]?.bind fun a =>
        candidates[(src.two candidates.length s).1.2]?.map fun b => if cost a ≤ cost b then a else b,
        (src.two candidates.length s).2) := by
  match candidates, h with
  | _ :: _ :: _, _ => rfl

theorem cheaper_draws (h : 2 ≤ candidates.length) (fallback : α) (s : σ) :
    src.cheaper cost candidates s =
      match src.intn candidates.length s with
      | (a, s) =>
        match src.intn (candidates.length - 1) s with
        | (b, s) =>
          let b := if a ≤ b then b + 1 else b
          let first := candidates.getD a fallback
          let second := candidates.getD b fallback
          (some (if cost first ≤ cost second then first else second), s) := by
  obtain ⟨hi, hj, -⟩ := src.two_spec h s
  rw [cheaper_of_two src h, List.getElem?_eq_getElem hi, List.getElem?_eq_getElem hj]
  rcases hfirst : src.intn candidates.length s with ⟨a, s₁⟩
  rcases hsecond : src.intn (candidates.length - 1) s₁ with ⟨b, s₂⟩
  simp only [two, hfirst, hsecond] at hi hj ⊢
  simp only [List.getD_eq_getElem?_getD, List.getElem?_eq_getElem hi, List.getElem?_eq_getElem hj, Option.getD_some,
    Option.bind_some, Option.map_some]

theorem cheaper_spec (cost : α → κ) (h : 2 ≤ candidates.length) (s : σ) :
    ∃ (i j : ℕ) (hi : i < candidates.length) (hj : j < candidates.length), i ≠ j ∧
      (src.cheaper cost candidates s).1 =
        some (if cost candidates[i] ≤ cost candidates[j] then candidates[i] else candidates[j]) := by
  obtain ⟨hi, hj, hne⟩ := src.two_spec h s
  refine ⟨_, _, hi, hj, hne, ?_⟩
  rw [cheaper_of_two src h, List.getElem?_eq_getElem hi, List.getElem?_eq_getElem hj]
  rfl

theorem cheaper_mem {a : α} {s s' : σ} (h : src.cheaper cost candidates s = (some a, s')) : a ∈ candidates := by
  match candidates, h with
  | [], h => cases h
  | [only], h =>
    cases h
    exact List.mem_singleton_self _
  | first :: second :: rest, h =>
    obtain ⟨i, j, hi, hj, -, hpick⟩ := src.cheaper_spec cost (show 2 ≤ (first :: second :: rest).length by simp) s
    rw [h] at hpick
    rw [Option.some.inj hpick]
    split <;> exact List.getElem_mem _

theorem cheaper_rel {R : α → β → Prop} {cost' : β → κ} (hcost : ∀ a b, R a b → cost a = cost' b) {candidates' : List β}
    (h : List.Forall₂ R candidates candidates') (s : σ) :
    Option.Rel R (src.cheaper cost candidates s).1 (src.cheaper cost' candidates' s).1 ∧
      (src.cheaper cost candidates s).2 = (src.cheaper cost' candidates' s).2 := by
  cases h with
  | nil => exact ⟨.none, rfl⟩
  | @cons a b rest rest' hhead hrest =>
    cases hrest with
    | nil => exact ⟨.some hhead, rfl⟩
    | @cons a₂ b₂ tail tail' hsecond htail =>
      have hall : List.Forall₂ R (a :: a₂ :: tail) (b :: b₂ :: tail') := .cons hhead (.cons hsecond htail)
      have hlen := hall.length_eq
      have htwo : 2 ≤ (a :: a₂ :: tail).length := by simp
      rw [cheaper_of_two src htwo, cheaper_of_two src (hlen ▸ htwo), ← hlen]
      obtain ⟨hi, hj, -⟩ := src.two_spec htwo s
      refine ⟨?_, rfl⟩
      generalize (src.two (a :: a₂ :: tail).length s).1.1 = i at hi ⊢
      generalize (src.two (a :: a₂ :: tail).length s).1.2 = j at hj ⊢
      generalize a :: a₂ :: tail = l at *
      generalize b :: b₂ :: tail' = l' at *
      have hri := hall.get hi (hlen ▸ hi)
      have hrj := hall.get hj (hlen ▸ hj)
      rw [List.getElem?_eq_getElem hi, List.getElem?_eq_getElem hj, List.getElem?_eq_getElem (hlen ▸ hi),
        List.getElem?_eq_getElem (hlen ▸ hj)]
      simp only [List.get_eq_getElem] at hri hrj
      simp only [Option.bind_some, Option.map_some, hcost _ _ hri, hcost _ _ hrj]
      split
      · exact .some hri
      · exact .some hrj

theorem exists_draws (cost : α → κ) {i j : ℕ} (hi : i < candidates.length) (hj : j < candidates.length) (hne : i ≠ j)
    (hcost : cost candidates[i] ≤ cost candidates[j]) (rest : List ℕ) :
    ∃ first second, (scripted.cheaper cost candidates (first :: second :: rest)).1 = some candidates[i] := by
  obtain ⟨first, second, hdraws⟩ := two_scripted hi hj hne rest
  refine ⟨first, second, ?_⟩
  rw [cheaper_of_two scripted (by omega), hdraws]
  dsimp only
  rw [List.getElem?_eq_getElem hi, List.getElem?_eq_getElem hj]
  simp [hcost]

end RandomSource

end Lib
