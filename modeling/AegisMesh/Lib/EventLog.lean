import AegisMesh.Lib.RevStore

/-! # A revisioned store with the log of its changes -/

namespace Lib

inductive LogEvent (κ α : Type)
  | put (k : κ) (a : α) (revision : ℕ)
  | delete (k : κ) (revision : ℕ)

namespace LogEvent

variable {κ α : Type}

def key : LogEvent κ α → κ
  | .put k _ _ => k
  | .delete k _ => k

def revision : LogEvent κ α → ℕ
  | .put _ _ revision => revision
  | .delete _ revision => revision

end LogEvent

structure LoggedStore (κ α : Type) [DecidableEq κ] where
  now : RevStore κ α
  log : List (LogEvent κ α)
  ordered : log.Pairwise fun e f => e.revision < f.revision
  bounded : ∀ e ∈ log, e.revision ≤ now.revision
  written : ∀ k e, now.entries.lookup k = some e → .put k e.value e.modRevision ∈ log

namespace LoggedStore

variable {κ α : Type} [DecidableEq κ]

def empty (revision : ℕ) : LoggedStore κ α where
  now := .empty revision
  log := []
  ordered := .nil
  bounded := by simp
  written k e h := by simp [RevStore.empty] at h

section Snoc

variable {log : List (LogEvent κ α)} {revision : ℕ}

omit [DecidableEq κ] in
theorem ordered_snoc (h : log.Pairwise fun e f => e.revision < f.revision)
    (hbounded : ∀ e ∈ log, e.revision ≤ revision) (event : LogEvent κ α) (hnew : revision < event.revision) :
    (log ++ [event]).Pairwise fun e f => e.revision < f.revision := by
  refine List.pairwise_append.mpr ⟨h, List.pairwise_singleton _ _, fun e he f hf => ?_⟩
  rw [List.mem_singleton.mp hf]
  exact lt_of_le_of_lt (hbounded e he) hnew

omit [DecidableEq κ] in
theorem bounded_snoc (hbounded : ∀ e ∈ log, e.revision ≤ revision) (event : LogEvent κ α)
    (hnew : revision < event.revision) :
    ∀ e ∈ log ++ [event], e.revision ≤ event.revision := by
  intro e he
  rcases List.mem_append.mp he with he | he
  · exact le_of_lt (lt_of_le_of_lt (hbounded e he) hnew)
  · rw [List.mem_singleton.mp he]

end Snoc

theorem revision_lt (s : LoggedStore κ α) (gap : ℕ) : s.now.revision < s.now.revision + gap + 1 :=
  Nat.lt_succ_of_le (Nat.le_add_right _ _)

theorem written_put (s : LoggedStore κ α) (gap : ℕ) (k : κ) (a : α) (j : κ) (e : Entry α)
    (h : (s.now.put gap k a).entries.lookup j = some e) :
    .put j e.value e.modRevision ∈ s.log ++ [.put k a (s.now.revision + gap + 1)] := by
  rw [RevStore.lookup_put] at h
  split at h
  · rename_i hj
    cases h
    simp [hj]
  · exact List.mem_append_left _ (s.written j e h)

theorem written_expire (s : LoggedStore κ α) (gap : ℕ) (k j : κ) (e : Entry α)
    (h : (s.now.expire gap [k]).entries.lookup j = some e) : .put j e.value e.modRevision ∈ s.log := by
  rw [RevStore.lookup_expire_one] at h
  split at h
  · cases h
  · exact s.written j e h

def put (s : LoggedStore κ α) (gap : ℕ) (k : κ) (a : α) : LoggedStore κ α where
  now := s.now.put gap k a
  log := s.log ++ [.put k a (s.now.revision + gap + 1)]
  ordered := ordered_snoc s.ordered s.bounded (.put k a _) (s.revision_lt gap)
  bounded := bounded_snoc s.bounded (.put k a _) (s.revision_lt gap)
  written := s.written_put gap k a

def delete (s : LoggedStore κ α) (gap : ℕ) (k : κ) : LoggedStore κ α :=
  match hk : s.now.entries.lookup k with
  | none => s
  | some _ =>
    { now := s.now.expire gap [k]
      log := s.log ++ [.delete k (s.now.revision + gap + 1)]
      ordered := ordered_snoc s.ordered s.bounded (.delete k _) (s.revision_lt gap)
      bounded := fun e he =>
        le_of_le_of_eq (bounded_snoc s.bounded (.delete k _) (s.revision_lt gap) e he)
          (RevStore.revision_expire_one hk gap).symm
      written := fun j e h => List.mem_append_left _ (s.written_expire gap k j e h) }

def between (s : LoggedStore κ α) (after upto : ℕ) : List (LogEvent κ α) :=
  s.log.filter fun e => after < e.revision && e.revision ≤ upto

variable {s : LoggedStore κ α}

theorem mem_between {e : LogEvent κ α} {after upto : ℕ} :
    e ∈ s.between after upto ↔ e ∈ s.log ∧ after < e.revision ∧ e.revision ≤ upto := by
  simp [between]

theorem event_eq {e f : LogEvent κ α} (he : e ∈ s.log) (hf : f ∈ s.log) (h : e.revision = f.revision) : e = f := by
  have hnodup : (s.log.map LogEvent.revision).Nodup :=
    List.pairwise_map.mpr (s.ordered.imp fun hlt => Nat.ne_of_lt hlt)
  exact List.inj_on_of_nodup_map hnodup he hf h

/-! ## What one change does -/

structure Changed (s s' : LoggedStore κ α) (event : LogEvent κ α) : Prop where
  log : s'.log = s.log ++ [event]
  newer : s.now.revision < event.revision
  revision : s'.now.revision = event.revision
  frame : ∀ j, j ≠ event.key → s'.now.entries.lookup j = s.now.entries.lookup j
  own : ∀ e, s'.now.entries.lookup event.key = some e → event = .put event.key e.value e.modRevision

theorem put_changed (s : LoggedStore κ α) (gap : ℕ) (k : κ) (a : α) :
    Changed s (s.put gap k a) (.put k a (s.now.revision + gap + 1)) := by
  refine ⟨rfl, ?_, rfl, fun j hj => ?_, fun e he => ?_⟩
  · simp only [LogEvent.revision]
    omega
  · exact (RevStore.lookup_put ..).trans (if_neg (show ¬ j = k from hj))
  · simp only [put, RevStore.lookup_put, LogEvent.key, if_true] at he
    cases he
    rfl

theorem delete_changed (s : LoggedStore κ α) (gap : ℕ) (k : κ) :
    s.delete gap k = s ∨ Changed s (s.delete gap k) (.delete k (s.now.revision + gap + 1)) := by
  unfold delete
  split
  · exact .inl rfl
  · rename_i hk
    refine .inr ⟨rfl, ?_, ?_, fun j hj => ?_, fun e he => ?_⟩
    · simp only [LogEvent.revision]
      omega
    · exact RevStore.revision_expire_one hk gap
    · exact (RevStore.lookup_expire_one ..).trans (if_neg (show ¬ j = k from hj))
    · dsimp only [LogEvent.key] at he
      rw [RevStore.lookup_expire_one, if_pos rfl] at he
      cases he

/-! ## What the log tells about an earlier state -/

/-- A state that the store has come to from `s`. A key without an event since then is as it was. -/
structure Extends (s s' : LoggedStore κ α) : Prop where
  revision_le : s.now.revision ≤ s'.now.revision
  unchanged : ∀ k, (∀ e ∈ s'.log, e.key = k → e.revision ≤ s.now.revision) →
    s'.now.entries.lookup k = s.now.entries.lookup k

theorem Extends.refl (s : LoggedStore κ α) : Extends s s := ⟨le_rfl, fun _ _ => rfl⟩

theorem Extends.changed {s s' s'' : LoggedStore κ α} {event : LogEvent κ α} (h : Extends s s')
    (hchanged : Changed s' s'' event) : Extends s s'' := by
  have hle := h.revision_le
  have hnewer := hchanged.newer
  refine ⟨by rw [hchanged.revision]; omega, fun k hold => ?_⟩
  rw [hchanged.log] at hold
  have hk : k ≠ event.key := by
    rintro rfl
    have := hold event (by simp) rfl
    omega
  rw [hchanged.frame k hk]
  exact h.unchanged k fun e he => hold e (List.mem_append_left _ he)

end LoggedStore

end Lib
