import AegisMesh.Lib.RevStore

/-!
# A revisioned store with leases

A write attaches its key to a lease, and revoking a lease deletes the keys attached to it. A client that gets
an error cannot tell whether the store has carried out the call.
-/

namespace Lib

/-! ## Client calls -/

inductive Outcome
  | answered
  /-- The store carries it out, and the caller gets an error. -/
  | lost (err : String)
  | refused (err : String)
deriving DecidableEq

namespace Outcome

def commits : Outcome → Bool
  | .refused _ => false
  | _ => true

def call {σ α : Type} (outcome : Outcome) (s : σ) (op : σ → σ × Except String α) : σ × Except String α :=
  match outcome with
  | .answered => op s
  | .lost err => ((op s).1, .error err)
  | .refused err => (s, .error err)

end Outcome

/-! ## The store -/

structure LeasedEntry (α : Type) extends Entry α where
  lease : ℕ
deriving DecidableEq

structure LeasedStore (κ α : Type) [DecidableEq κ] where
  entries : Dict κ (LeasedEntry α)
  revision : ℕ
  leases : Dict ℕ ℤ
  lastLease : ℕ
  bounded : ∀ k e, entries.lookup k = some e → 0 < e.modRevision ∧ e.modRevision ≤ revision
  attached : ∀ k e, entries.lookup k = some e → (leases.lookup e.lease).isSome
  numbered : ∀ id, (leases.lookup id).isSome → 0 < id ∧ id ≤ lastLease

def leaseNotFound : String := "etcdserver: requested lease not found"

namespace LeasedStore

variable {κ α : Type} [DecidableEq κ]

def empty (revision lastLease : ℕ) : LeasedStore κ α where
  entries := ∅
  revision := revision
  leases := ∅
  lastLease := lastLease
  bounded k e h := by simp at h
  attached k e h := by simp at h
  numbered id h := by simp at h

def grant (s : LeasedStore κ α) (gap : ℕ) (ttl : ℤ) : LeasedStore κ α × Except String ℕ :=
  ({ entries := s.entries
     revision := s.revision
     leases := s.leases.insert (s.lastLease + gap + 1) ttl
     lastLease := s.lastLease + gap + 1
     bounded := s.bounded
     attached := fun k e h => by
      rw [Dict.lookup_insert']
      split
      · rfl
      · exact s.attached k e h
     numbered := fun id h => by
      rw [Dict.lookup_insert'] at h
      split at h
      · omega
      · have := s.numbered id h
        omega },
   .ok (s.lastLease + gap + 1))

def put (s : LeasedStore κ α) (gap : ℕ) (k : κ) (a : α) (lease : ℕ) :
    LeasedStore κ α × Except String (ℕ × Option (LeasedEntry α)) :=
  if hlease : (s.leases.lookup lease).isSome then
    ({ entries := s.entries.insert k { value := a, modRevision := s.revision + gap + 1, lease }
       revision := s.revision + gap + 1
       leases := s.leases
       lastLease := s.lastLease
       bounded := fun j e h => by
        rw [Dict.lookup_insert'] at h
        split at h
        · cases h
          exact ⟨Nat.succ_pos _, le_rfl⟩
        · have := s.bounded j e h
          omega
       attached := fun j e h => by
        rw [Dict.lookup_insert'] at h
        split at h
        · cases h
          exact hlease
        · exact s.attached j e h
       numbered := s.numbered },
     .ok (s.revision + gap + 1, s.entries.lookup k))
  else (s, .error leaseNotFound)

def modRevision (s : LeasedStore κ α) (k : κ) : ℕ :=
  match s.entries.lookup k with
  | none => 0
  | some e => e.modRevision

/-- A transaction that puts the key if it was last written at `expected`. The answer tells the revision, and
what a put answers if there was one. -/
def putIf (s : LeasedStore κ α) (gap : ℕ) (k : κ) (a : α) (lease expected : ℕ) :
    LeasedStore κ α × Except String (ℕ × Option (Option (LeasedEntry α))) :=
  if s.modRevision k = expected then
    match s.put gap k a lease with
    | (s, .ok (revision, prev)) => (s, .ok (revision, some prev))
    | (s, .error err) => (s, .error err)
  else (s, .ok (s.revision, none))

def revoke (s : LeasedStore κ α) (gap : ℕ) (id : ℕ) : LeasedStore κ α × Except String Unit :=
  if (s.leases.lookup id).isSome then
    ({ entries := Dict.filter (fun _ e => e.lease ≠ id) s.entries
       revision := if s.entries.entries.any fun e => e.2.lease = id then s.revision + gap + 1 else s.revision
       leases := s.leases.erase id
       lastLease := s.lastLease
       bounded := fun k e h => by
        rw [Dict.lookup_filter, Option.filter_eq_some_iff] at h
        have := s.bounded k e h.1
        split <;> omega
       attached := fun k e h => by
        rw [Dict.lookup_filter, Option.filter_eq_some_iff] at h
        rw [Dict.lookup_erase', if_neg (by simpa using h.2)]
        exact s.attached k e h.1
       numbered := fun id' h => by
        rw [Dict.lookup_erase'] at h
        split at h
        · cases h
        · exact s.numbered id' h },
     .ok ())
  else (s, .error leaseNotFound)

variable {s : LeasedStore κ α} {gap lease : ℕ} {k j : κ} {a : α} {r : RevStore κ α}

theorem lease_le {e : LeasedEntry α} (h : s.entries.lookup k = some e) : e.lease ≤ s.lastLease :=
  (s.numbered e.lease (s.attached k e h)).2

theorem lookup_put (hlease : (s.leases.lookup lease).isSome) :
    (s.put gap k a lease).1.entries.lookup j =
      if j = k then some { value := a, modRevision := s.revision + gap + 1, lease } else s.entries.lookup j := by
  simp only [put, hlease, dite_true, Dict.lookup_insert']

theorem lookup_revoke (id : ℕ) :
    (s.revoke gap id).1.entries.lookup k = (s.entries.lookup k).filter fun e => e.lease ≠ id := by
  unfold revoke
  split
  · exact Dict.lookup_filter _ _ _
  · rename_i hgone
    cases h : s.entries.lookup k with
    | none => rfl
    | some e =>
      have hne : e.lease ≠ id := fun heq => hgone (heq ▸ s.attached k e h)
      simp [Option.filter, hne]

/-! ## The store without its leases -/

/-- The store shows what a store without leases holds. -/
structure Shows (s : LeasedStore κ α) (r : RevStore κ α) : Prop where
  entries : ∀ k, r.entries.lookup k = (s.entries.lookup k).map LeasedEntry.toEntry
  revision : r.revision = s.revision

def unleased (s : LeasedStore κ α) : RevStore κ α where
  entries := Dict.mapVal (fun _ e => e.toEntry) s.entries
  revision := s.revision
  bounded k e h := by
    rw [Dict.lookup_mapVal, Option.map_eq_some_iff] at h
    obtain ⟨leased, hk, rfl⟩ := h
    exact s.bounded k leased hk

theorem shows_unleased (s : LeasedStore κ α) : s.Shows s.unleased := ⟨fun _ => Dict.lookup_mapVal _ _ _, rfl⟩

theorem Shows.isSome (h : s.Shows r) (k : κ) :
    (r.entries.lookup k).isSome = (s.entries.lookup k).isSome := by
  rw [h.entries, Option.isSome_map]

theorem Shows.put (h : s.Shows r) (hlease : (s.leases.lookup lease).isSome) :
    (s.put gap k a lease).1.Shows (r.put gap k a) := by
  refine ⟨fun j => ?_, ?_⟩
  · rw [lookup_put hlease]
    simp only [RevStore.put, Dict.lookup_insert', h.revision]
    split
    · rfl
    · exact h.entries j
  · simp only [LeasedStore.put, hlease, dite_true, RevStore.put, h.revision]

theorem revision_revoke (id : ℕ) :
    (s.revoke gap id).1.revision =
      if s.entries.entries.any fun e => e.2.lease = id then s.revision + gap + 1 else s.revision := by
  unfold revoke
  split
  · rfl
  · rename_i hgone
    rw [if_neg]
    rw [List.any_eq_true]
    rintro ⟨⟨k, e⟩, he, hid⟩
    have hattached := s.attached k e (AList.mem_lookup_iff.mpr he)
    rw [of_decide_eq_true hid] at hattached
    exact hgone hattached

theorem Shows.revoke (h : s.Shows r) {id : ℕ} {keys : List κ}
    (hkeys : ∀ k e, s.entries.lookup k = some e → (e.lease = id ↔ k ∈ keys)) :
    (s.revoke gap id).1.Shows (r.expire gap keys) := by
  refine ⟨fun k => ?_, ?_⟩
  · rw [lookup_revoke]
    simp only [RevStore.expire, Dict.lookup_filter, h.entries]
    cases hk : s.entries.lookup k with
    | none => rfl
    | some e => simp [Option.filter, hkeys k e hk, apply_ite]
  · rw [revision_revoke]
    simp only [RevStore.expire, h.revision, h.isSome]
    refine if_congr ?_ rfl rfl
    simp only [List.any_eq_true, decide_eq_true_eq, Option.isSome_iff_exists]
    constructor
    · rintro ⟨k, hmem, e, hk⟩
      exact ⟨⟨k, e⟩, AList.mem_lookup_iff.mp hk, (hkeys k e hk).mpr hmem⟩
    · rintro ⟨⟨k, e⟩, he, hid⟩
      have hk : s.entries.lookup k = some e := AList.mem_lookup_iff.mpr he
      exact ⟨k, (hkeys k e hk).mp hid, e, hk⟩

theorem Shows.revoke_unused (h : s.Shows r) {id : ℕ} (hunused : ∀ k e, s.entries.lookup k = some e → e.lease ≠ id) :
    (s.revoke gap id).1.Shows r := by
  have hexpired : (s.revoke gap id).1.Shows (r.expire gap []) := h.revoke fun k e hk => by simp [hunused k e hk]
  refine ⟨fun k => ?_, ?_⟩
  · rw [← hexpired.entries k]
    simp only [RevStore.expire, Dict.lookup_filter]
    cases r.entries.lookup k <;> rfl
  · rw [← hexpired.revision]
    simp [RevStore.expire]

end LeasedStore

end Lib
