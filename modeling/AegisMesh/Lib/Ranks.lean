import Mathlib.Data.List.GetD
import Mathlib.Data.List.Sort

/-! # The values of a list by rank -/

namespace Lib

variable {α β : Type} [LinearOrder α] [LinearOrder β] {l l' : List α} {d x x' v : α} {k : ℕ}

def nth (l : List α) (k : ℕ) (d : α) : α := (l.insertionSort (· ≤ ·)).getD k d

theorem insertionSort_eq {s : List α} (h : l.Perm s) (hs : s.Pairwise (· ≤ ·)) : l.insertionSort (· ≤ ·) = s :=
  ((List.perm_insertionSort _ l).trans h).eq_of_pairwise' (List.pairwise_insertionSort _ l) hs

theorem getD_le_iff_of_sorted {s : List α} (hs : s.Pairwise (· ≤ ·)) (hk : k < s.length) :
    s.getD k d ≤ x ↔ k < s.countP (· ≤ x) := by
  induction s generalizing k with
  | nil => simp at hk
  | cons a s ih =>
    obtain ⟨ha, hs⟩ := List.pairwise_cons.mp hs
    by_cases hax : a ≤ x
    · rw [List.countP_cons_of_pos (by simpa using hax)]
      rcases k with _ | k
      · simpa using hax
      · have hlen : k < s.length := by simpa using hk
        simpa using ih hs hlen
    · -- Nothing behind `a` is at most `x` either.
      have hnone : (a :: s).countP (· ≤ x) = 0 := by
        rw [List.countP_eq_zero]
        intro b hb
        have hab : a ≤ b := by
          rcases List.mem_cons.mp hb with rfl | hb
          · exact le_rfl
          · exact ha b hb
        simpa using (lt_of_not_ge hax).trans_le hab
      have hmem : (a :: s).getD k d ∈ a :: s := by
        rw [List.getD_eq_getElem _ _ hk]
        exact List.getElem_mem hk
      have hnot := List.countP_eq_zero.mp hnone _ hmem
      simp only [decide_eq_true_eq] at hnot
      simp only [hnone, Nat.not_lt_zero, iff_false]
      exact hnot

theorem nth_le_iff (hk : k < l.length) : nth l k d ≤ x ↔ k < l.countP (· ≤ x) := by
  have hlen : k < (l.insertionSort (· ≤ ·)).length := by simpa using hk
  rw [nth, getD_le_iff_of_sorted (List.pairwise_insertionSort _ l) hlen,
    (List.perm_insertionSort _ l).countP_eq]

theorem nth_le_nth_of_le {i : ℕ} (hi : i ≤ k) (hk : k < l.length) : nth l i d ≤ nth l k d := by
  rw [nth_le_iff (by omega)]
  have h := (nth_le_iff (d := d) hk).mp le_rfl
  omega

theorem nth_succ_le (hv : v ∈ l) (hlt : nth l k d < v) (hk : k + 1 < l.length) : nth l (k + 1) d ≤ v := by
  rw [nth_le_iff hk]
  have hbelow := (nth_le_iff (d := d) (by omega : k < l.length)).mp le_rfl
  -- The value itself is counted, and was not below the rank before it.
  have hmore : l.countP (· ≤ nth l k d) < l.countP (· ≤ v) := by
    obtain ⟨l₁, l₂, rfl⟩ := List.append_of_mem hv
    have h₁ : l₁.countP (· ≤ nth (l₁ ++ v :: l₂) k d) ≤ l₁.countP (· ≤ v) :=
      List.countP_mono_left fun b _ hb => by
        simp only [decide_eq_true_eq] at hb ⊢
        exact hb.trans hlt.le
    have h₂ : l₂.countP (· ≤ nth (l₁ ++ v :: l₂) k d) ≤ l₂.countP (· ≤ v) :=
      List.countP_mono_left fun b _ hb => by
        simp only [decide_eq_true_eq] at hb ⊢
        exact hb.trans hlt.le
    have hself : (v :: l₂).countP (· ≤ v) = l₂.countP (· ≤ v) + 1 := List.countP_cons_of_pos (by simp)
    have hnot : (v :: l₂).countP (· ≤ nth (l₁ ++ v :: l₂) k d) = l₂.countP (· ≤ nth (l₁ ++ v :: l₂) k d) :=
      List.countP_cons_of_neg (by simpa using hlt)
    rw [List.countP_append, List.countP_append, hself, hnot]
    omega
  omega

theorem nth_cons_of_lt (hlt : nth (x :: l) k d < x) (hx : x ≤ x') (hk : k ≤ l.length) :
    nth (x' :: l) k d = nth (x :: l) k d := by
  have hlen : ∀ a : α, k < (a :: l).length := fun a => by simpa using Nat.lt_succ_of_le hk
  have hcount : ∀ y < x, (x' :: l).countP (· ≤ y) = (x :: l).countP (· ≤ y) := by
    intro y hy
    rw [List.countP_cons_of_neg (by simpa using hy.trans_le hx), List.countP_cons_of_neg (by simpa using hy)]
  have hle : nth (x' :: l) k d ≤ nth (x :: l) k d := by
    rw [nth_le_iff (hlen x'), hcount _ hlt, ← nth_le_iff (d := d) (hlen x)]
  apply le_antisymm hle
  rw [nth_le_iff (hlen x), ← hcount _ (hle.trans_lt hlt), ← nth_le_iff (d := d) (hlen x')]

theorem nth_le_nth (h : List.Forall₂ (· ≤ ·) l l') (hk : k < l.length) : nth l k d ≤ nth l' k d := by
  have hk' : k < l'.length := h.length_eq ▸ hk
  rw [nth_le_iff hk]
  apply lt_of_lt_of_le ((nth_le_iff (d := d) hk').mp le_rfl)
  generalize nth l' k d = y
  clear hk hk'
  induction h with
  | nil => rfl
  | cons hab _ ih =>
    rename_i a b l₁ l₂ _
    by_cases hb : b ≤ y
    · rw [List.countP_cons_of_pos (by simpa using hb), List.countP_cons_of_pos (by simpa using hab.trans hb)]
      omega
    · rw [List.countP_cons_of_neg (by simpa using hb)]
      exact ih.trans ((List.sublist_cons_self _ _).countP_le)

theorem nth_map {f : α → β} (hf : Monotone f) (l : List α) (k : ℕ) (d : α) :
    nth (l.map f) k (f d) = f (nth l k d) := by
  have hsorted : (l.map f).insertionSort (· ≤ ·) = (l.insertionSort (· ≤ ·)).map f := by
    have hpairs : ((l.insertionSort (· ≤ ·)).map f).Pairwise (· ≤ ·) :=
      List.Pairwise.map f (fun a b hab => hf hab) (List.pairwise_insertionSort _ l)
    exact insertionSort_eq ((List.perm_insertionSort _ l).symm.map f) hpairs
  rw [nth, hsorted, nth, List.getD_map]

end Lib
