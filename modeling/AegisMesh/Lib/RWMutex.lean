import AegisMesh.Lib.Threads

/-! # A lock for many readers or one writer -/

namespace Lib

inductive LockRole
  | away
  | reading
  | pending
  | writing
deriving DecidableEq

structure RWMutex where
  readers : ℕ := 0
  pending : Bool := false
  writing : Bool := false
deriving DecidableEq

namespace RWMutex

/-- The lock after a thread has gone from one role to the next. `none` when it has to wait. -/
def pass (l : RWMutex) : LockRole → LockRole → Option RWMutex
  | .away, .reading => if l.pending ∨ l.writing then none else some { l with readers := l.readers + 1 }
  | .reading, .away => some { l with readers := l.readers - 1 }
  | .away, .pending => if l.pending ∨ l.writing then none else some { l with pending := true }
  | .pending, .writing => if l.readers = 0 then some { l with pending := false, writing := true } else none
  | .writing, .away => some { l with writing := false }
  | _, _ => none

inductive Passes (l : RWMutex) : LockRole → LockRole → RWMutex → Prop
  | rlock (hpending : l.pending = false) (hwriting : l.writing = false) :
    Passes l .away .reading { l with readers := l.readers + 1 }
  | runlock : Passes l .reading .away { l with readers := l.readers - 1 }
  | announce (hpending : l.pending = false) (hwriting : l.writing = false) :
    Passes l .away .pending { l with pending := true }
  | lock (hreaders : l.readers = 0) : Passes l .pending .writing { l with pending := false, writing := true }
  | unlock : Passes l .writing .away { l with writing := false }

theorem passes_of_pass {l l' : RWMutex} {old new : LockRole} (h : l.pass old new = some l') : l.Passes old new l' := by
  unfold pass at h
  split at h
  · split at h
    · cases h
    · rename_i hfree
      simp only [not_or, Bool.not_eq_true] at hfree
      cases h
      exact .rlock hfree.1 hfree.2
  · cases h
    exact .runlock
  · split at h
    · cases h
    · rename_i hfree
      simp only [not_or, Bool.not_eq_true] at hfree
      cases h
      exact .announce hfree.1 hfree.2
  · split at h
    · cases h
      exact .lock ‹_›
    · cases h
  · cases h
    exact .unlock
  · cases h

/-! ## The lock and the threads -/

variable {τ : Type} (role : τ → LockRole)

def having (r : LockRole) (threads : Dict ℕ τ) : ℕ := Threads.total (fun t => if role t = r then 1 else 0) threads

structure Agrees (l : RWMutex) (threads : Dict ℕ τ) : Prop where
  readers : l.readers = having role .reading threads
  pending : l.pending.toNat = having role .pending threads
  writing : l.writing.toNat = having role .writing threads
  exclusive : l.writing = true → l.readers = 0 ∧ l.pending = false

variable {role} {l l' : RWMutex} {threads : Dict ℕ τ} {id : ℕ} {t t' : τ}

theorem agrees_initial : Agrees role {} ∅ := ⟨rfl, rfl, rfl, fun _ => ⟨rfl, rfl⟩⟩

theorem having_insert (role : τ → LockRole) (r : LockRole) (h : threads.lookup id = some t) (t' : τ) :
    having role r (threads.insert id t') + (if role t = r then 1 else 0) =
      having role r threads + if role t' = r then 1 else 0 :=
  Threads.total_insert _ h t'

theorem Agrees.called (h : Agrees role l threads) (hid : threads.lookup id = none) (ht : role t = .away) :
    Agrees role l (threads.insert id t) := by
  have hsame : ∀ r, r ≠ .away → having role r (threads.insert id t) = having role r threads := by
    intro r hr
    rw [having, Threads.total_insert_of_none _ hid, if_neg (by rw [ht]; exact hr.symm), Nat.zero_add, having]
  exact ⟨h.readers.trans (hsame _ (by decide)).symm, h.pending.trans (hsame _ (by decide)).symm,
    h.writing.trans (hsame _ (by decide)).symm, h.exclusive⟩

theorem Agrees.stays (h : Agrees role l threads) (ht : threads.lookup id = some t) (hrole : role t' = role t) :
    Agrees role l (threads.insert id t') := by
  have hsame : ∀ r, having role r (threads.insert id t') = having role r threads := by
    intro r
    have hmove := having_insert role r ht t'
    rw [hrole] at hmove
    exact Nat.add_right_cancel hmove
  exact ⟨h.readers.trans (hsame _).symm, h.pending.trans (hsame _).symm, h.writing.trans (hsame _).symm, h.exclusive⟩

theorem Agrees.passes (h : Agrees role l threads) (ht : threads.lookup id = some t)
    (hpass : l.pass (role t) (role t') = some l') : Agrees role l' (threads.insert id t') := by
  have hreaders := having_insert role .reading ht t'
  have hpending := having_insert role .pending ht t'
  have hwriting := having_insert role .writing ht t'
  have hpasses := passes_of_pass hpass
  obtain ⟨hr, hp, hw, hx⟩ := h
  generalize role t = old at *
  generalize role t' = new at *
  cases hpasses with
  | rlock hfree hunheld =>
    simp only [if_true, reduceCtorEq, if_false, Nat.add_zero] at hreaders hpending hwriting
    refine ⟨by dsimp only; omega, hp.trans hpending.symm, hw.trans hwriting.symm, fun hheld => ?_⟩
    rw [hunheld] at hheld
    cases hheld
  | runlock =>
    simp only [if_true, reduceCtorEq, if_false, Nat.add_zero] at hreaders hpending hwriting
    refine ⟨by dsimp only; omega, hp.trans hpending.symm, hw.trans hwriting.symm, fun hheld => ⟨?_, (hx hheld).2⟩⟩
    have hnone := (hx hheld).1
    dsimp only
    omega
  | announce hfree hunheld =>
    simp only [if_true, reduceCtorEq, if_false, Nat.add_zero] at hreaders hpending hwriting
    simp only [hfree, Bool.toNat_false] at hp
    refine ⟨hr.trans hreaders.symm, by simp only [Bool.toNat_true]; omega, hw.trans hwriting.symm, fun hheld => ?_⟩
    rw [hunheld] at hheld
    cases hheld
  | lock hnone =>
    simp only [if_true, reduceCtorEq, if_false, Nat.add_zero] at hreaders hpending hwriting
    -- The writer that had announced itself is this one, so nobody writes.
    have hannounced : l.pending = true := by
      cases hl : l.pending with
      | true => rfl
      | false => simp only [hl, Bool.toNat_false] at hp; omega
    have hunheld : l.writing = false := by
      cases hl : l.writing with
      | false => rfl
      | true => rw [(hx hl).2] at hannounced; cases hannounced
    simp only [hannounced, hunheld, Bool.toNat_true, Bool.toNat_false] at hp hw
    refine ⟨hr.trans hreaders.symm, by simp only [Bool.toNat_false]; omega, by simp only [Bool.toNat_true]; omega,
      fun _ => ⟨hnone, rfl⟩⟩
  | unlock =>
    simp only [if_true, reduceCtorEq, if_false, Nat.add_zero] at hreaders hpending hwriting
    have hbound := Bool.toNat_le l.writing
    exact ⟨hr.trans hreaders.symm, hp.trans hpending.symm, by simp only [Bool.toNat_false]; omega,
      fun hheld => by simp at hheld⟩

theorem Agrees.no_reader (h : Agrees role l threads) (ht : threads.lookup id = some t) (hwriting : role t = .writing)
    {other : ℕ} {u : τ} (hu : threads.lookup other = some u) : role u ≠ .reading := by
  intro hreading
  have hone : (if role t = .writing then 1 else 0) ≤ having role .writing threads :=
    Threads.le_total (f := fun t => if role t = .writing then 1 else 0) ht
  have hreader : (if role u = .reading then 1 else 0) ≤ having role .reading threads :=
    Threads.le_total (f := fun t => if role t = .reading then 1 else 0) hu
  rw [if_pos hwriting, ← h.writing] at hone
  rw [if_pos hreading, ← h.readers] at hreader
  have hheld : l.writing = true := by
    cases hl : l.writing with
    | true => rfl
    | false => simp [hl] at hone
  have := (h.exclusive hheld).1
  omega

theorem exists_of_having {r : LockRole} (h : having role r threads ≠ 0) :
    ∃ id t, threads.lookup id = some t ∧ role t = r := by
  obtain ⟨id, t, ht, hrole⟩ := Threads.exists_of_total_ne_zero h
  exact ⟨id, t, ht, by by_contra hne; exact hrole (if_neg hne)⟩

theorem Agrees.someone (h : Agrees role l threads) (hbusy : l ≠ {}) :
    ∃ id t, threads.lookup id = some t ∧
      (role t = .reading ∨ role t = .writing ∨ role t = .pending ∧ l.readers = 0) := by
  by_cases hreaders : l.readers = 0
  · by_cases hwriting : l.writing = true
    · have hsome : having role .writing threads ≠ 0 := by rw [← h.writing, hwriting]; decide
      obtain ⟨id, t, ht, hrole⟩ := exists_of_having hsome
      exact ⟨id, t, ht, .inr (.inl hrole)⟩
    · have hpending : l.pending = true := by
        by_contra hnot
        refine hbusy ?_
        cases l
        simp_all
      have hsome : having role .pending threads ≠ 0 := by rw [← h.pending, hpending]; decide
      obtain ⟨id, t, ht, hrole⟩ := exists_of_having hsome
      exact ⟨id, t, ht, .inr (.inr ⟨hrole, hreaders⟩)⟩
  · have hsome : having role .reading threads ≠ 0 := by rw [← h.readers]; exact hreaders
    obtain ⟨id, t, ht, hrole⟩ := exists_of_having hsome
    exact ⟨id, t, ht, .inl hrole⟩

theorem Agrees.next (h : Agrees role l threads) (ht : threads.lookup id = some t) :
    ∃ id' t', threads.lookup id' = some t' ∧ (role t' ≠ .away ∨ t' = t) ∧
      (role t' = .reading ∨ role t' = .writing ∨ role t' = .pending ∧ l.readers = 0 ∨ l = {}) := by
  by_cases hfree : l = {}
  · exact ⟨id, t, ht, .inr rfl, .inr (.inr (.inr hfree))⟩
  · obtain ⟨id', t', ht', hrole⟩ := h.someone hfree
    refine ⟨id', t', ht', .inl ?_, ?_⟩
    · rcases hrole with hrole | hrole | ⟨hrole, -⟩ <;> simp [hrole]
    · rcases hrole with hrole | hrole | hrole
      · exact .inl hrole
      · exact .inr (.inl hrole)
      · exact .inr (.inr (.inl hrole))

end RWMutex

end Lib
