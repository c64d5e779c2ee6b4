import AegisMesh.Lib.Dict

/-! # Entries made on first use -/

namespace Lib

structure LazyTable (κ : Type) [DecidableEq κ] where
  entries : Dict κ ℕ
  made : ℕ
  below : ∀ k n, entries.lookup k = some n → n < made
  apart : ∀ k k' n, entries.lookup k = some n → entries.lookup k' = some n → k = k'

namespace LazyTable

variable {κ : Type} [DecidableEq κ]

def empty : LazyTable κ where
  entries := ∅
  made := 0
  below _ _ h := by simp at h
  apart _ _ _ h := by simp at h

def store (t : LazyTable κ) (k : κ) : LazyTable κ where
  entries := t.entries.insert k t.made
  made := t.made + 1
  below k' n h := by
    rw [Dict.lookup_insert'] at h
    split at h
    · cases h
      exact Nat.lt_succ_self _
    · exact Nat.lt_succ_of_lt (t.below k' n h)
  apart k₁ k₂ n h₁ h₂ := by
    rw [Dict.lookup_insert'] at h₁ h₂
    split at h₁ <;> split at h₂
    · simp_all
    · cases h₁
      exact absurd (t.below k₂ _ h₂) (Nat.lt_irrefl _)
    · cases h₂
      exact absurd (t.below k₁ _ h₁) (Nat.lt_irrefl _)
    · exact t.apart k₁ k₂ n h₁ h₂

theorem store_keeps (t : LazyTable κ) {k k' : κ} {n : ℕ} (hnone : t.entries.lookup k = none)
    (h : t.entries.lookup k' = some n) : (t.store k).entries.lookup k' = some n := by
  have hne : k' ≠ k := by
    rintro rfl
    rw [hnone] at h
    cases h
  simp only [store]
  rw [Dict.lookup_insert', if_neg hne]
  exact h

def loadOrStore (t : LazyTable κ) (k : κ) : LazyTable κ × ℕ :=
  match t.entries.lookup k with
  | some n => (t, n)
  | none => (t.store k, t.made)

theorem lookup_loadOrStore (t : LazyTable κ) (k : κ) :
    (t.loadOrStore k).1.entries.lookup k = some (t.loadOrStore k).2 := by
  unfold loadOrStore
  split
  · assumption
  · simp [store]

theorem loadOrStore_keeps (t : LazyTable κ) (k : κ) {k' : κ} {n : ℕ} (h : t.entries.lookup k' = some n) :
    (t.loadOrStore k).1.entries.lookup k' = some n := by
  unfold loadOrStore
  split
  · exact h
  · exact t.store_keeps ‹_› h

end LazyTable

end Lib
