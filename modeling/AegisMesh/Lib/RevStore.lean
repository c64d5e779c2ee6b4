import AegisMesh.Lib.Dict

/-!
# A revisioned key-value store

Every change gives the store a larger revision, by an amount that the store chooses
(other keys use up revisions too). An entry carries the revision of its last write.
-/

namespace Lib

structure Entry (α : Type) where
  value : α
  modRevision : ℕ
deriving DecidableEq

structure RevStore (κ α : Type) [DecidableEq κ] where
  entries : Dict κ (Entry α)
  revision : ℕ
  bounded : ∀ k e, entries.lookup k = some e → 0 < e.modRevision ∧ e.modRevision ≤ revision

inductive Change (κ α : Type)
  | put (k : κ) (a : α)
  | update (k : κ) (a : α) (expected : ℕ)
  | expire (keys : List κ)

namespace RevStore

variable {κ α : Type} [DecidableEq κ]

def empty (revision : ℕ) : RevStore κ α where
  entries := ∅
  revision := revision
  bounded k e h := by simp at h

def put (s : RevStore κ α) (gap : ℕ) (k : κ) (a : α) : RevStore κ α where
  entries := s.entries.insert k { value := a, modRevision := s.revision + gap + 1 }
  revision := s.revision + gap + 1
  bounded j e h := by
    rw [Dict.lookup_insert'] at h
    split at h
    · cases h
      exact ⟨Nat.succ_pos _, le_rfl⟩
    · have := s.bounded j e h
      omega

def update (s : RevStore κ α) (gap : ℕ) (k : κ) (a : α) (expected : ℕ) : RevStore κ α × Bool :=
  match s.entries.lookup k with
  | none => (s, false)
  | some e => if e.modRevision = expected then (s.put gap k a, true) else (s, false)

def modRevision (s : RevStore κ α) (k : κ) : ℕ :=
  match s.entries.lookup k with
  | none => 0
  | some e => e.modRevision

def putIf (s : RevStore κ α) (gap : ℕ) (k : κ) (a : α) (expected : ℕ) : RevStore κ α × Bool :=
  if s.modRevision k = expected then (s.put gap k a, true) else (s, false)

def expire (s : RevStore κ α) (gap : ℕ) (keys : List κ) : RevStore κ α where
  entries := Dict.filter (fun k _ => k ∉ keys) s.entries
  revision := if keys.any fun k => (s.entries.lookup k).isSome then s.revision + gap + 1 else s.revision
  bounded k e h := by
    rw [Dict.lookup_filter, Option.filter_eq_some_iff] at h
    have := s.bounded k e h.1
    split <;> omega

def apply (s : RevStore κ α) (gap : ℕ) : Change κ α → RevStore κ α
  | .put k a => s.put gap k a
  | .update k a expected => (s.update gap k a expected).1
  | .expire keys => s.expire gap keys

def applyAll (s : RevStore κ α) (changes : List (ℕ × Change κ α)) : RevStore κ α :=
  changes.foldl (fun s c => s.apply c.1 c.2) s

theorem lookup_put (s : RevStore κ α) (gap : ℕ) (k j : κ) (a : α) : (s.put gap k a).entries.lookup j =
    if j = k then some { value := a, modRevision := s.revision + gap + 1 } else s.entries.lookup j :=
  Dict.lookup_insert' _ _ _ _

theorem putIf_eq_update {expected : ℕ} (h : 0 < expected) (s : RevStore κ α) (gap : ℕ) (k : κ) (a : α) :
    s.putIf gap k a expected = s.update gap k a expected := by
  unfold putIf update modRevision
  cases s.entries.lookup k with
  | none => rw [if_neg (by dsimp only; omega)]
  | some e => rfl

theorem putIf_cases (s : RevStore κ α) (gap : ℕ) (k : κ) (a : α) (expected : ℕ) :
    s.putIf gap k a expected = (s, false) ∨
      s.modRevision k = expected ∧ s.putIf gap k a expected = (s.put gap k a, true) := by
  unfold putIf
  split
  · exact .inr ⟨‹_›, rfl⟩
  · exact .inl rfl

theorem update_cases (s : RevStore κ α) (gap : ℕ) (k : κ) (a : α) (expected : ℕ) :
    s.update gap k a expected = (s, false) ∨
      ∃ e, s.entries.lookup k = some e ∧ e.modRevision = expected ∧ s.update gap k a expected = (s.put gap k a, true) := by
  unfold update
  cases s.entries.lookup k with
  | none => exact .inl rfl
  | some e =>
    dsimp only
    split
    · exact .inr ⟨e, rfl, ‹_›, rfl⟩
    · exact .inl rfl

theorem lookup_expire_one (s : RevStore κ α) (gap : ℕ) (k j : κ) :
    (s.expire gap [k]).entries.lookup j = if j = k then none else s.entries.lookup j := by
  simp only [expire, Dict.lookup_filter, List.mem_singleton]
  split
  · rename_i heq
    cases s.entries.lookup j <;> simp [Option.filter, heq]
  · rename_i hne
    cases s.entries.lookup j <;> simp [Option.filter, hne]

theorem revision_expire_one {s : RevStore κ α} {k : κ} {e : Entry α} (h : s.entries.lookup k = some e) (gap : ℕ) :
    (s.expire gap [k]).revision = s.revision + gap + 1 := by
  simp [expire, h]

/-! ## What a later state tells about an earlier one -/

structure Later (s s' : RevStore κ α) : Prop where
  revision_le : s.revision ≤ s'.revision
  kept : ∀ k e, s'.entries.lookup k = some e → e.modRevision ≤ s.revision → s.entries.lookup k = some e
  quiet : s'.revision = s.revision → ∀ k, s'.entries.lookup k = s.entries.lookup k

theorem Later.refl (s : RevStore κ α) : Later s s := ⟨le_rfl, fun _ _ h _ => h, fun _ _ => rfl⟩

theorem Later.trans {s s' s'' : RevStore κ α} (h : Later s s') (h' : Later s' s'') : Later s s'' := by
  refine ⟨le_trans h.revision_le h'.revision_le, fun k e he hle => ?_, fun heq k => ?_⟩
  · exact h.kept k e (h'.kept k e he (le_trans hle h.revision_le)) hle
  · have hle := h.revision_le
    have hle' := h'.revision_le
    rw [h'.quiet (by omega) k, h.quiet (by omega) k]

theorem later_put (s : RevStore κ α) (gap : ℕ) (k : κ) (a : α) : Later s (s.put gap k a) := by
  refine ⟨by simp only [put]; omega, fun j e he hle => ?_, fun heq => by simp only [put] at heq; omega⟩
  simp only [put, Dict.lookup_insert'] at he
  split at he
  · cases he
    dsimp only at hle
    omega
  · exact he

theorem later_expire (s : RevStore κ α) (gap : ℕ) (keys : List κ) : Later s (s.expire gap keys) := by
  refine ⟨by simp only [expire]; split <;> omega, fun k e he _ => ?_, fun heq k => ?_⟩
  · simp only [expire, Dict.lookup_filter, Option.filter_eq_some_iff] at he
    exact he.1
  · -- The revision stood still, so none of the keys was there.
    have hnone : ∀ j ∈ keys, s.entries.lookup j = none := by
      simp only [expire] at heq
      split at heq
      · omega
      · rename_i h
        simpa using h
    simp only [expire, Dict.lookup_filter]
    cases hk : s.entries.lookup k with
    | none => rfl
    | some e =>
      have hnot : k ∉ keys := fun hmem => by simp [hnone k hmem] at hk
      simp [Option.filter, hnot]

theorem later_apply (s : RevStore κ α) (gap : ℕ) (c : Change κ α) : Later s (s.apply gap c) := by
  cases c with
  | put k a => exact later_put s gap k a
  | update k a expected =>
    show Later s (s.update gap k a expected).1
    rcases s.update_cases gap k a expected with h | ⟨e, -, -, h⟩
    · rw [h]
      exact Later.refl s
    · rw [h]
      exact later_put s gap k a
  | expire keys => exact later_expire s gap keys

theorem later_applyAll (changes : List (ℕ × Change κ α)) : ∀ s : RevStore κ α, Later s (s.applyAll changes) := by
  induction changes with
  | nil => intro s; exact Later.refl s
  | cons c changes ih => intro s; exact (later_apply s c.1 c.2).trans (ih _)

end RevStore

end Lib
