import Mathlib.Algebra.BigOperators.Group.List.Basic
import Mathlib.Algebra.GroupWithZero.Nat
import Mathlib.Algebra.Order.BigOperators.Group.List
import Mathlib.Algebra.Order.Ring.Nat
import AegisMesh.Lib.Dict
import AegisMesh.Lib.Runs

/-!
# Threads over a shared state

Any number of calls run at the same time, and each move of one is atomic. What a thread knows is its local state.
-/

namespace Lib

/-- The choice of a move is what the code leaves open: times, orders of maps, contexts. -/
structure ThreadSystem (σ τ κ χ ε : Type) where
  start : κ → τ
  /-- `none` when the thread is blocked or has returned. -/
  move : ℕ → σ → τ → χ → Option (σ × τ)
  outside : σ → ε → σ

structure Threads (σ τ : Type) where
  shared : σ
  threads : Dict ℕ τ := ∅

inductive ThreadEvent (κ χ ε : Type)
  | call (id : ℕ) (k : κ)
  | move (id : ℕ) (choice : χ)
  | outside (e : ε)

namespace ThreadSystem

variable {σ τ κ χ ε : Type} (T : ThreadSystem σ τ κ χ ε)

def step (p : Threads σ τ) : ThreadEvent κ χ ε → Threads σ τ
  | .call id k =>
    match p.threads.lookup id with
    | none => { p with threads := p.threads.insert id (T.start k) }
    | some _ => p
  | .move id choice =>
    match p.threads.lookup id with
    | none => p
    | some t =>
      match T.move id p.shared t choice with
      | none => p
      | some (s, t') => { shared := s, threads := p.threads.insert id t' }
  | .outside e => { p with shared := T.outside p.shared e }

def run (s : σ) (events : List (ThreadEvent κ χ ε)) : Threads σ τ := events.foldl T.step { shared := s }

inductive Did (p : Threads σ τ) : ThreadEvent κ χ ε → Threads σ τ → Prop
  | refused {id k t} (h : p.threads.lookup id = some t) : Did p (.call id k) p
  | absent {id choice} (h : p.threads.lookup id = none) : Did p (.move id choice) p
  | blocked {id choice t} (h : p.threads.lookup id = some t) (hmove : T.move id p.shared t choice = none) :
    Did p (.move id choice) p
  | called {id k} (h : p.threads.lookup id = none) :
    Did p (.call id k) { p with threads := p.threads.insert id (T.start k) }
  | moved {id choice t s t'} (h : p.threads.lookup id = some t) (hmove : T.move id p.shared t choice = some (s, t')) :
    Did p (.move id choice) { shared := s, threads := p.threads.insert id t' }
  | changed (e) : Did p (.outside e) { p with shared := T.outside p.shared e }

theorem did_step (p : Threads σ τ) (e : ThreadEvent κ χ ε) : T.Did p e (T.step p e) := by
  cases e with
  | call id k =>
    simp only [step]
    split
    · exact .called ‹_›
    · exact .refused ‹_›
  | move id choice =>
    simp only [step]
    split
    · exact .absent ‹_›
    · split
      · exact .blocked ‹_› ‹_›
      · exact .moved ‹_› ‹_›
  | outside e => exact .changed e

/-! ## Invariants -/

/-- `I` holds of the shared state, and `J` of the shared state and every thread. -/
structure Keeps (I : σ → Prop) (J : σ → ℕ → τ → Prop) (p : Threads σ τ) : Prop where
  shared : I p.shared
  thread : ∀ id t, p.threads.lookup id = some t → J p.shared id t

variable {I : σ → Prop} {J : σ → ℕ → τ → Prop} {ok : ThreadEvent κ χ ε → Prop} {p : Threads σ τ}

/-- The three kinds of events that meet `ok` keep both. -/
structure Kept (I : σ → Prop) (J : σ → ℕ → τ → Prop) (ok : ThreadEvent κ χ ε → Prop) : Prop where
  start : ∀ s id k, ok (.call id k) → I s → J s id (T.start k)
  move : ∀ s id t choice s' t', ok (.move id choice) → I s → J s id t → T.move id s t choice = some (s', t') →
    I s' ∧ J s' id t' ∧ ∀ other u, other ≠ id → J s other u → J s' other u
  outside : ∀ s e, ok (.outside e) → I s → I (T.outside s e) ∧ ∀ id t, J s id t → J (T.outside s e) id t

theorem Keeps.next (h : Keeps I J p) {e : ThreadEvent κ χ ε}
    (hstart : ∀ id k, e = .call id k → p.threads.lookup id = none → J p.shared id (T.start k))
    (hmove : ∀ id choice t s' t', e = .move id choice → p.threads.lookup id = some t →
      T.move id p.shared t choice = some (s', t') →
      I s' ∧ J s' id t' ∧
        ∀ other u, other ≠ id → p.threads.lookup other = some u → J p.shared other u → J s' other u)
    (houtside : ∀ o, e = .outside o →
      I (T.outside p.shared o) ∧ ∀ id t, J p.shared id t → J (T.outside p.shared o) id t) :
    Keeps I J (T.step p e) := by
  have hdid := T.did_step p e
  generalize T.step p e = p' at hdid
  cases hdid with
  | refused => exact h
  | absent => exact h
  | blocked => exact h
  | @called id k hfresh =>
    refine ⟨h.shared, Dict.forall_lookup_insert.mpr ⟨hstart _ _ rfl hfresh, fun other t _ ht => ?_⟩⟩
    exact h.thread other t ht
  | @moved id choice t s t' ht hm =>
    obtain ⟨hI, hJ, hothers⟩ := hmove _ _ _ _ _ rfl ht hm
    refine ⟨hI, Dict.forall_lookup_insert.mpr ⟨hJ, fun other u hne hu => ?_⟩⟩
    exact hothers other u hne hu (h.thread other u hu)
  | changed e =>
    obtain ⟨hI, hJ⟩ := houtside e rfl
    exact ⟨hI, fun id t ht => hJ id t (h.thread id t ht)⟩

variable {T} in
theorem Kept.step (hkept : T.Kept I J ok) (h : Keeps I J p) {e : ThreadEvent κ χ ε} (he : ok e) :
    Keeps I J (T.step p e) := by
  apply h.next
  · rintro id k rfl -
    exact hkept.start _ _ _ he h.shared
  · rintro id choice t s' t' rfl ht hm
    obtain ⟨hI, hJ, hothers⟩ := hkept.move _ _ _ _ _ _ he h.shared (h.thread id t ht) hm
    exact ⟨hI, hJ, fun other u hne _ => hothers other u hne⟩
  · rintro o rfl
    exact hkept.outside _ o he h.shared

theorem Keeps.initial {s : σ} (h : I s) : Keeps I J { shared := s } := ⟨h, fun _ _ ht => by simp at ht⟩

variable {T} in
theorem Kept.run (hkept : T.Kept I J ok) {s : σ} (h : I s) {events : List (ThreadEvent κ χ ε)}
    (hevents : ∀ e ∈ events, ok e) : Keeps I J (T.run s events) :=
  run_invariant_of (I := Keeps I J) (fun _ e hp (he : ok e) => hkept.step hp he) (Keeps.initial h) hevents

section Always

variable (hstart : ∀ s id k, I s → J s id (T.start k))
  (hmove : ∀ s id t choice s' t', I s → J s id t → T.move id s t choice = some (s', t') →
    I s' ∧ J s' id t' ∧ ∀ other u, other ≠ id → J s other u → J s' other u)
  (houtside : ∀ s e, I s → I (T.outside s e) ∧ ∀ id t, J s id t → J (T.outside s e) id t)

include hstart hmove houtside

theorem Keeps.step (h : Keeps I J p) (e : ThreadEvent κ χ ε) : Keeps I J (T.step p e) := by
  have hkept : T.Kept I J (fun _ => True) :=
    ⟨fun s id k _ => hstart s id k, fun s id t c s' t' _ => hmove s id t c s' t', fun s e _ => houtside s e⟩
  exact hkept.step h trivial

theorem Keeps.run {s : σ} (h : I s) (events : List (ThreadEvent κ χ ε)) : Keeps I J (T.run s events) :=
  run_invariant (fun _ e hp => hp.step T hstart hmove houtside e) (Keeps.initial h) events

end Always

theorem Kept.related {R : σ → σ → Prop} (hrefl : ∀ s, R s s) (htrans : ∀ s s' s'', R s s' → R s' s'' → R s s'')
    {T : ThreadSystem σ τ κ χ ε} (hkept : T.Kept I J ok)
    (hmove : ∀ s id t choice s' t', I s → J s id t → T.move id s t choice = some (s', t') → R s s')
    (houtside : ∀ s e, I s → ok (.outside e) → R s (T.outside s e)) (h : Keeps I J p)
    {events : List (ThreadEvent κ χ ε)} (hevents : ∀ e ∈ events, ok e) :
    R p.shared (events.foldl T.step p).shared := by
  induction events generalizing p with
  | nil => exact hrefl _
  | cons e rest ih =>
    obtain ⟨he, hrest⟩ := List.forall_mem_cons.mp hevents
    refine htrans _ _ _ ?_ (ih (hkept.step h he) hrest)
    have hdid := T.did_step p e
    generalize T.step p e = p' at hdid
    cases hdid with
    | refused => exact hrefl _
    | absent => exact hrefl _
    | blocked => exact hrefl _
    | called => exact hrefl _
    | @moved id choice t s t' ht hm => exact hmove _ _ _ _ _ _ h.shared (h.thread id t ht) hm
    | changed e => exact houtside _ e h.shared he

/-- If every state lets some unfinished thread go on, and a thread has only so many moves, the scheduler
can let all of them finish, with choices of the kind `K`. -/
theorem exists_finish {G : Threads σ τ → Prop} {done : τ → Prop} {K : χ → Prop} (f : Threads σ τ → ℕ)
    (hstep : ∀ p id choice, K choice → G p → G (T.step p (.move id choice)))
    (hcan : ∀ p, G p → (∀ id t, p.threads.lookup id = some t → done t) ∨
      ∃ id choice, K choice ∧ f (T.step p (.move id choice)) < f p) (h : G p) :
    ∃ moves : List (ℕ × χ), (∀ m ∈ moves, K m.2) ∧ ∀ id t,
      ((moves.map fun m => ThreadEvent.move m.1 m.2).foldl T.step p).threads.lookup id = some t → done t := by
  induction hn : f p using Nat.strong_induction_on generalizing p with
  | _ n ih =>
    rcases hcan p h with hdone | ⟨id, choice, hkind, hlt⟩
    · exact ⟨[], (fun _ hm => by cases hm), hdone⟩
    · obtain ⟨moves, hkinds, hmoves⟩ := ih _ (hn ▸ hlt) (hstep p id choice hkind h) rfl
      exact ⟨(id, choice) :: moves, List.forall_mem_cons.mpr ⟨hkind, hkinds⟩, hmoves⟩

end ThreadSystem

/-! ## Sums over threads -/

namespace Threads

variable {σ τ : Type} {threads : Dict ℕ τ}

def total (f : τ → ℕ) (threads : Dict ℕ τ) : ℕ := ((Dict.values threads).map f).sum

theorem total_congr {f g : τ → ℕ} (h : ∀ t ∈ Dict.values threads, f t = g t) :
    total f threads = total g threads := by
  rw [total, total, List.map_congr_left h]

theorem total_insert_of_none (f : τ → ℕ) {id : ℕ} (h : threads.lookup id = none) (t : τ) :
    total f (threads.insert id t) = f t + total f threads := by
  have hnot : id ∉ threads.entries.keys := AList.lookup_eq_none.mp h
  simp [total, Dict.values, List.kerase_of_notMem_keys hnot]

theorem total_insert (f : τ → ℕ) {id : ℕ} {t : τ} (h : threads.lookup id = some t) (t' : τ) :
    total f (threads.insert id t') + f t = total f threads + f t' := by
  have hmem : id ∈ threads.entries.keys := AList.mem_keys.mp (AList.lookup_isSome.mp (by simp [h]))
  obtain ⟨u, before, after, -, hentries, herase⟩ := List.exists_of_kerase hmem
  have hu : threads.lookup id = some u := AList.mem_lookup_iff.mpr (by simp [hentries])
  obtain rfl : t = u := Option.some.inj (h.symm.trans hu)
  simp only [total, Dict.values, AList.entries_insert, herase]
  simp only [hentries, List.map_cons, List.map_append, List.sum_cons, List.sum_append]
  omega

theorem exists_of_total_ne_zero {f : τ → ℕ} (h : total f threads ≠ 0) :
    ∃ id t, threads.lookup id = some t ∧ f t ≠ 0 := by
  by_contra hnone
  push Not at hnone
  refine h (List.sum_eq_zero fun n hn => ?_)
  obtain ⟨t, ht, rfl⟩ := List.mem_map.mp hn
  obtain ⟨id, hid⟩ := Dict.mem_values.mp ht
  exact hnone id t hid

theorem le_total {f : τ → ℕ} {id : ℕ} {t : τ} (h : threads.lookup id = some t) :
    f t ≤ total f threads :=
  List.le_sum_of_mem (List.mem_map_of_mem (Dict.mem_values.mpr ⟨id, h⟩))

theorem total_move_lt {κ χ ε : Type} (T : ThreadSystem σ τ κ χ ε) (f : τ → ℕ) {p : Threads σ τ} {id : ℕ} {choice : χ}
    {t t' : τ} {s' : σ} (ht : p.threads.lookup id = some t) (hmove : T.move id p.shared t choice = some (s', t'))
    (hlt : f t' < f t) : total f (T.step p (.move id choice)).threads < total f p.threads := by
  have hnext : T.step p (.move id choice) = { shared := s', threads := p.threads.insert id t' } := by
    simp only [ThreadSystem.step, ht, hmove]
  have htotal := total_insert f ht t'
  rw [hnext]
  dsimp only
  omega

end Threads

end Lib
