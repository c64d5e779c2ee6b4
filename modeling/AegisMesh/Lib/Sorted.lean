import Mathlib.Data.List.Sort

/-! # Lists sorted by a key -/

namespace Lib

variable {α κ : Type} [LinearOrder κ] (key : α → κ)

def sortBy (l : List α) : List α := l.insertionSort fun a b => key a ≤ key b

theorem mem_sortBy {l : List α} {a : α} : a ∈ sortBy key l ↔ a ∈ l :=
  (List.perm_insertionSort _ l).mem_iff

theorem sortBy_eq_nil_iff {l : List α} : sortBy key l = [] ↔ l = [] := by
  rw [← List.length_eq_zero_iff, sortBy, List.length_insertionSort, List.length_eq_zero_iff]

theorem sortBy_strict {l : List α} (h : (l.map key).Nodup) :
    (sortBy key l).Pairwise fun a b => key a < key b := by
  have hsorted : (sortBy key l).Pairwise fun a b => key a ≤ key b :=
    List.pairwise_insertionSort (fun a b => key a ≤ key b) l
  have hnodup : ((sortBy key l).map key).Nodup :=
    ((List.perm_insertionSort (fun a b => key a ≤ key b) l).map key).nodup_iff.mpr h
  rw [List.Nodup, List.pairwise_map] at hnodup
  exact (hsorted.and hnodup).imp fun hab => lt_of_le_of_ne hab.1 hab.2

theorem strict_ext {l₁ l₂ : List α} (h₁ : l₁.Pairwise fun a b => key a < key b)
    (h₂ : l₂.Pairwise fun a b => key a < key b) (h : ∀ a, a ∈ l₁ ↔ a ∈ l₂) : l₁ = l₂ := by
  have hnodup : ∀ {l : List α}, (l.Pairwise fun a b => key a < key b) → l.Nodup :=
    fun hl => hl.imp fun hab he => absurd (he ▸ hab) (lt_irrefl _)
  have hperm : l₁.Perm l₂ := (List.perm_ext_iff_of_nodup (hnodup h₁) (hnodup h₂)).mpr h
  apply List.Perm.eq_of_pairwise _ h₁ h₂ hperm
  intro a b _ _ hab hba
  exact absurd hba (lt_asymm hab)

/-! ## Priority queues -/

structure PQueue (key : α → κ) where
  entries : List α
  sorted : entries.Pairwise fun a b => key a ≤ key b

namespace PQueue

variable {key : α → κ}

def empty : PQueue key := ⟨[], List.Pairwise.nil⟩

def push (q : PQueue key) (a : α) : PQueue key where
  entries := q.entries.orderedInsert (fun a b => key a ≤ key b) a
  sorted := q.sorted.orderedInsert a q.entries

def pop (q : PQueue key) : Option (α × PQueue key) :=
  match h : q.entries with
  | [] => none
  | a :: rest => some (a, ⟨rest, (List.pairwise_cons.mp (h ▸ q.sorted)).2⟩)

theorem entries_push_perm (q : PQueue key) (a : α) : (q.push a).entries.Perm (a :: q.entries) :=
  List.perm_orderedInsert _ a q.entries

theorem pop_eq_some {q rest : PQueue key} {a : α} (h : q.pop = some (a, rest)) : q.entries = a :: rest.entries := by
  unfold pop at h
  split at h
  · cases h
  · rename_i hentries
    cases h
    exact hentries

end PQueue

end Lib
