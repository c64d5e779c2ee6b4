import AegisMesh.Retry.Budget

/-! # How many retries a window lets through -/

namespace AegisMesh.Retry

open Lib

def acquirers : ThreadSystem Budget OpPlace Unit ℤ Empty where
  start _ := .entered
  move id b place now := b.opStep id .tryAcquireRetry place now
  outside _ e := nomatch e

abbrev AcquireEvent := ThreadEvent Unit ℤ Empty

def Budget.Current (b : Budget) (now : ℤ) : Prop := now - b.windowStart < b.cfg.window

def Budget.InWindow (b : Budget) : AcquireEvent → Prop
  | .call _ _ => True
  | .move _ now => b.Current now
  | .outside _ => True

instance (b : Budget) : (e : AcquireEvent) → Decidable (b.InWindow e)
  | .call _ _ => inferInstanceAs (Decidable True)
  | .move _ now => inferInstanceAs (Decidable (now - b.windowStart < b.cfg.window))
  | .outside _ => inferInstanceAs (Decidable True)

def OpPlace.refused : OpPlace → Bool
  | .exceeding | .leaving false | .left false => true
  | _ => false

def grants (threads : Dict ℕ OpPlace) : ℕ := Threads.total (fun place => place.granted.toNat) threads

def Budget.Reaches (b : Budget) (allowed : ℤ) : OpPlace → Prop
  | .entered | .inside | .exceeding | .leaving _ | .left _ => True
  | .arriving now | .checking now => b.Current now
  | .admitting limit => limit = allowed
  | .expired | .announced | .resetting | .reset | .reopened => False

structure Exact (b : Budget) (used : ℕ) (p : Threads Budget OpPlace) : Prop where
  cfg : p.shared.cfg = b.cfg
  windowStart : p.shared.windowStart = b.windowStart
  originals : p.shared.originalRequests = b.originalRequests
  lock : p.shared.mu.Agrees OpPlace.role p.threads
  places : ∀ id place, p.threads.lookup id = some place →
    b.Reaches (allowedRetriesFor b.cfg b.originalRequests) place
  retries : p.shared.retryRequests = used + grants p.threads + ahead (fun place => place) p.threads
  room : used + grants p.threads ≤ allowedRetriesFor b.cfg b.originalRequests
  full : ∀ id place, p.threads.lookup id = some place → place.refused = true →
    used + grants p.threads = allowedRetriesFor b.cfg b.originalRequests

namespace Exact

variable {b : Budget} {used : ℕ} {p : Threads Budget OpPlace} {id : ℕ} {old new : OpPlace}

theorem initial (hidle : b.mu = {}) (hused : b.retryRequests = used)
    (hroom : (used : ℤ) ≤ allowedRetriesFor b.cfg b.originalRequests) : Exact b used { shared := b } where
  cfg := rfl
  windowStart := rfl
  originals := rfl
  lock := by
    rw [hidle]
    exact RWMutex.agrees_initial
  places _ _ h := by simp at h
  retries := by simpa [grants, ahead, Threads.total, Dict.values] using hused
  room := by simpa [grants, Threads.total, Dict.values] using hroom
  full _ _ h := by simp at h

theorem called (h : Exact b used p) (hid : p.threads.lookup id = none) :
    Exact b used { p with threads := p.threads.insert id .entered } := by
  have hgrants : grants (p.threads.insert id .entered) = grants p.threads := by
    simp [grants, Threads.total_insert_of_none _ hid, OpPlace.granted]
  have hahead : ahead (fun place => place) (p.threads.insert id .entered) = ahead (fun place => place) p.threads := by
    simp [ahead, Threads.total_insert_of_none _ hid, OpPlace.excess]
  refine ⟨h.cfg, h.windowStart, h.originals, h.lock.called hid rfl, ?_, ?_, ?_, ?_⟩
  · exact Dict.forall_lookup_insert.mpr ⟨trivial, fun other place _ hplace => h.places other place hplace⟩
  · rw [hgrants, hahead]
    exact h.retries
  · rw [hgrants]
    exact h.room
  · rw [hgrants]
    exact Dict.forall_lookup_insert.mpr ⟨by simp [OpPlace.refused], fun other place _ hplace => h.full other place hplace⟩

theorem moved (h : Exact b used p) {b' : Budget} (hold : p.threads.lookup id = some old)
    (hcfg : b'.cfg = p.shared.cfg) (hwindow : b'.windowStart = p.shared.windowStart)
    (horiginals : b'.originalRequests = p.shared.originalRequests)
    (hlock : b'.mu.Agrees OpPlace.role (p.threads.insert id new))
    (hreaches : b.Reaches (allowedRetriesFor b.cfg b.originalRequests) new) (hgranted : new.granted = old.granted)
    (hretries : b'.retryRequests + old.excess = p.shared.retryRequests + new.excess)
    (hfull : new.refused = true → used + grants p.threads = allowedRetriesFor b.cfg b.originalRequests) :
    Exact b used { shared := b', threads := p.threads.insert id new } := by
  have hgrants : grants (p.threads.insert id new) = grants p.threads := by
    have htotal := Threads.total_insert (fun place => place.granted.toNat) hold new
    rw [hgranted] at htotal
    exact Nat.add_right_cancel htotal
  have hahead := ahead_insert (fun place => place) hold new
  refine ⟨hcfg.trans h.cfg, hwindow.trans h.windowStart, horiginals.trans h.originals, hlock, ?_, ?_, ?_, ?_⟩
  · exact Dict.forall_lookup_insert.mpr ⟨hreaches, fun other place _ hplace => h.places other place hplace⟩
  · have hbefore := h.retries
    rw [hgrants]
    dsimp only
    omega
  · rw [hgrants]
    exact h.room
  · rw [hgrants]
    exact Dict.forall_lookup_insert.mpr ⟨hfull, fun other place _ hplace => h.full other place hplace⟩

theorem passed (h : Exact b used p) {result : Budget × OpPlace} (hold : p.threads.lookup id = some old)
    (hpass : p.shared.pass old new = some result)
    (hreaches : b.Reaches (allowedRetriesFor b.cfg b.originalRequests) new) (hgranted : new.granted = old.granted)
    (hexcess : new.excess = old.excess) (hrefused : new.refused = old.refused) :
    Exact b used { shared := result.1, threads := p.threads.insert id result.2 } := by
  obtain ⟨mu, hmu, rfl⟩ := Option.map_eq_some_iff.mp hpass
  refine h.moved hold rfl rfl rfl (h.lock.passes hold hmu) hreaches hgranted ?_ ?_
  · simp only [hexcess]
  · intro hnew
    exact h.full id old hold (hrefused ▸ hnew)

theorem stayed (h : Exact b used p) (hold : p.threads.lookup id = some old) (hrole : new.role = old.role)
    (hreaches : b.Reaches (allowedRetriesFor b.cfg b.originalRequests) new) (hgranted : new.granted = old.granted)
    (hexcess : new.excess = old.excess)
    (hfull : new.refused = true → used + grants p.threads = allowedRetriesFor b.cfg b.originalRequests) :
    Exact b used { shared := p.shared, threads := p.threads.insert id new } := by
  refine h.moved hold rfl rfl rfl (h.lock.stays hold hrole) hreaches hgranted ?_ hfull
  rw [hexcess]

theorem admitted (h : Exact b used p) {limit : ℤ} {current : Window}
    (hold : p.threads.lookup id = some (.admitting limit)) (hlimit : p.shared.retryRequests + 1 ≤ limit) :
    Exact b used
      { shared := { p.shared with retryRequests := p.shared.retryRequests + 1, current := current }
        threads := p.threads.insert id (.leaving true) } := by
  have hreaches : limit = _ := h.places id _ hold
  have hretries := h.retries
  have hgrants : grants (p.threads.insert id (.leaving true)) = grants p.threads + 1 :=
    Threads.total_insert (fun place => place.granted.toNat) hold _
  have hahead : ahead (fun place => place) (p.threads.insert id (.leaving true)) = ahead (fun place => place) p.threads :=
    ahead_insert (fun place => place) hold _
  refine ⟨h.cfg, h.windowStart, h.originals, h.lock.stays hold rfl, ?_, ?_, ?_, ?_⟩
  · exact Dict.forall_lookup_insert.mpr ⟨trivial, fun other place _ hplace => h.places other place hplace⟩
  · rw [hgrants, hahead]
    push_cast
    omega
  · rw [hgrants]
    push_cast
    omega
  · refine Dict.forall_lookup_insert.mpr ⟨by simp [OpPlace.refused], fun other place _ hplace hrefused => ?_⟩
    -- A retry that was turned away would have found the limit used up.
    have hfull := h.full other place hplace hrefused
    omega

theorem used_up (h : Exact b used p)
    (hover : allowedRetriesFor b.cfg b.originalRequests < p.shared.retryRequests + 1) :
    used + grants p.threads = allowedRetriesFor b.cfg b.originalRequests := by
  by_cases hahead : ahead (fun place => place) p.threads = 0
  · have hretries := h.retries
    have hroom := h.room
    omega
  · obtain ⟨id, place, hplace, hexcess⟩ := Threads.exists_of_total_ne_zero hahead
    refine h.full id place hplace ?_
    cases place <;> simp_all [OpPlace.excess, OpPlace.refused]

theorem move (h : Exact b used p) {old : OpPlace} {now : ℤ} {result : Budget × OpPlace}
    (hold : p.threads.lookup id = some old) (hnow : b.Current now)
    (hmove : p.shared.opStep id .tryAcquireRetry old now = some result) :
    Exact b used { shared := result.1, threads := p.threads.insert id result.2 } := by
  have hreaches := h.places id old hold
  cases old with
  | entered =>
    cases hmove
    exact h.stayed hold rfl hnow rfl rfl (by simp [OpPlace.refused])
  | arriving time => exact h.passed hold hmove hreaches rfl rfl rfl
  | checking time =>
    have hcurrent : time - p.shared.windowStart < p.shared.cfg.window := by
      rw [h.windowStart, h.cfg]
      exact hreaches
    simp only [Budget.opStep, if_pos hcurrent] at hmove
    cases hmove
    exact h.stayed hold rfl trivial rfl rfl (by simp [OpPlace.refused])
  | inside =>
    simp only [Budget.opStep, Budget.body, h.cfg, h.originals] at hmove
    split at hmove
    · rename_i hnone
      cases hmove
      refine h.stayed hold rfl trivial rfl rfl fun _ => ?_
      have hroom := h.room
      omega
    · cases hmove
      exact h.stayed hold rfl rfl rfl rfl (by simp [OpPlace.refused])
  | admitting limit =>
    simp only [Budget.opStep, Budget.count] at hmove
    split at hmove
    · rename_i hlimit
      cases hmove
      exact h.admitted hold hlimit
    · rename_i hover
      cases hmove
      have hlimit : limit = _ := hreaches
      refine h.moved hold rfl rfl rfl (h.lock.stays hold rfl) trivial rfl ?_ fun _ => h.used_up (by omega)
      simp [OpPlace.excess]
  | exceeding =>
    cases hmove
    refine h.moved hold rfl rfl rfl (h.lock.stays hold rfl) trivial rfl ?_ fun _ => h.full id _ hold rfl
    simp [OpPlace.excess]
  | leaving answer => exact h.passed hold hmove trivial rfl rfl (by cases answer <;> rfl)
  | left answer => cases hmove
  | expired | announced | resetting | reset | reopened => exact hreaches.elim

end Exact

variable {b : Budget} {p : Threads Budget OpPlace}

theorem exact_step {used : ℕ} (h : Exact b used p) {e : AcquireEvent} (he : b.InWindow e) :
    Exact b used (acquirers.step p e) := by
  have hdid := acquirers.did_step p e
  generalize acquirers.step p e = p' at hdid
  cases hdid with
  | refused => exact h
  | absent => exact h
  | blocked => exact h
  | called hid => exact h.called hid
  | moved hold hmove => exact h.move hold he hmove
  | changed e => cases e

/-! ## When all have returned -/

def Returned (threads : Dict ℕ OpPlace) : Prop := ∀ id place, threads.lookup id = some place → ∃ answer, place = .left answer

def admittedCalls (threads : Dict ℕ OpPlace) : ℕ := (Dict.values threads).count (.left true)

theorem sum_granted {places : List OpPlace} (h : ∀ place ∈ places, ∃ answer, place = .left answer) :
    (places.map fun place => place.granted.toNat).sum = places.count (.left true) := by
  induction places with
  | nil => rfl
  | cons place rest ih =>
    obtain ⟨⟨answer, rfl⟩, hrest⟩ := List.forall_mem_cons.mp h
    rw [List.map_cons, List.sum_cons, ih hrest, List.count_cons]
    cases answer <;> simp [OpPlace.granted, Nat.add_comm]

theorem Exact.returned {used allowed : ℕ} (h : Exact b used p)
    (hallowed : allowedRetriesFor b.cfg b.originalRequests = allowed) (hdone : Returned p.threads) :
    admittedCalls p.threads = min (Dict.values p.threads).length (allowed - used) ∧
      p.shared.retryRequests = used + min (Dict.values p.threads).length (allowed - used) := by
  have hvalues : ∀ place ∈ Dict.values p.threads, ∃ answer, place = .left answer := by
    intro place hplace
    obtain ⟨id, hid⟩ := Dict.mem_values.mp hplace
    exact hdone id place hid
  have hgrants : grants p.threads = admittedCalls p.threads := sum_granted hvalues
  have hahead : ahead (fun place => place) p.threads = 0 := by
    by_contra hsome
    obtain ⟨id, place, hplace, hexcess⟩ := Threads.exists_of_total_ne_zero hsome
    obtain ⟨answer, rfl⟩ := hdone id place hplace
    exact hexcess rfl
  have hmin : grants p.threads = min (Dict.values p.threads).length (allowed - used) := by
    have hroom := h.room
    have hatmost : admittedCalls p.threads ≤ (Dict.values p.threads).length := List.count_le_length
    by_cases hall : admittedCalls p.threads = (Dict.values p.threads).length
    · omega
    · -- Some call returned `false`, so the limit is used up.
      obtain ⟨place, hplace, hfalse⟩ : ∃ place ∈ Dict.values p.threads, OpPlace.left true ≠ place := by
        by_contra hnone
        push Not at hnone
        exact hall (List.count_eq_length.mpr hnone)
      obtain ⟨id, hid⟩ := Dict.mem_values.mp hplace
      obtain ⟨answer, rfl⟩ := hvalues place hplace
      have hanswer : answer = false := by
        cases answer with
        | false => rfl
        | true => exact absurd rfl hfalse
      subst hanswer
      have hfull := h.full id _ hid rfl
      omega
  refine ⟨hgrants ▸ hmin, ?_⟩
  rw [h.retries, hahead, hmin]
  push_cast
  omega

theorem Exact.someone_moves {used : ℕ} (h : Exact b used p) (hdone : ¬Returned p.threads) (now : ℤ) :
    ∃ id, Threads.total OpPlace.rank (acquirers.step p (.move id now)).threads < Threads.total OpPlace.rank p.threads := by
  unfold Returned at hdone
  push Not at hdone
  obtain ⟨waiting, place, hwaiting, hleft⟩ := hdone
  obtain ⟨id, place', hplace, hwho, hgoes⟩ := h.lock.next hwaiting
  have hback : ∀ answer, place' ≠ .left answer := by
    rcases hwho with haway | rfl
    · rintro answer rfl
      exact haway rfl
    · exact hleft
  obtain ⟨b', place'', hstep⟩ := Budget.opStep_isSome id .tryAcquireRetry now hback hgoes
  exact ⟨id, Threads.total_move_lt acquirers OpPlace.rank hplace hstep (Budget.rank_opStep hstep)⟩

theorem exact_run (hidle : b.mu = {}) {used : ℕ} (hused : b.retryRequests = used)
    (hroom : (used : ℤ) ≤ allowedRetriesFor b.cfg b.originalRequests) {events : List AcquireEvent}
    (hwindow : ∀ e ∈ events, b.InWindow e) : Exact b used (acquirers.run b events) :=
  run_invariant_of (I := Exact b used) (fun _ e h (he : b.InWindow e) => exact_step h he)
    (Exact.initial hidle hused hroom) hwindow

/-- However the calls interleave within the window: when all are back, as many have returned `true` as fit, and the
counter stands at that. From wherever they have come to, all can return. -/
theorem retries_admitted_exactly (b : Budget) (hidle : b.mu = {}) (used allowed : ℕ) (hused : b.retryRequests = used)
    (hallowed : allowedRetriesFor b.cfg b.originalRequests = allowed) (hroom : used ≤ allowed)
    (events : List AcquireEvent) (hwindow : ∀ e ∈ events, b.InWindow e) :
    (Returned (acquirers.run b events).threads →
      admittedCalls (acquirers.run b events).threads =
        min (Dict.values (acquirers.run b events).threads).length (allowed - used) ∧
      (acquirers.run b events).shared.retryRequests =
        used + min (Dict.values (acquirers.run b events).threads).length (allowed - used)) ∧
    ∃ moves : List (ℕ × ℤ), (∀ m ∈ moves, b.Current m.2) ∧
      Returned (acquirers.run b (events ++ moves.map fun m => .move m.1 m.2)).threads := by
  have h := exact_run hidle hused (by rw [hallowed]; exact_mod_cast hroom) hwindow
  refine ⟨fun hdone => h.returned hallowed hdone, ?_⟩
  have hcan : ∀ p, Exact b used p → Returned p.threads ∨ ∃ id now, b.Current now ∧
      Threads.total OpPlace.rank (acquirers.step p (.move id now)).threads < Threads.total OpPlace.rank p.threads := by
    intro p hp
    by_cases hdone : Returned p.threads
    · exact .inl hdone
    · obtain ⟨id, hlt⟩ := hp.someone_moves hdone (b.windowStart + b.cfg.window - 1)
      exact .inr ⟨id, _, (by unfold Budget.Current; omega), hlt⟩
  obtain ⟨moves, hcurrent, hmoves⟩ := acquirers.exists_finish (G := Exact b used) (K := b.Current)
    (fun p => Threads.total OpPlace.rank p.threads) (fun p id now hnow hp => exact_step hp hnow) hcan h
  refine ⟨moves, hcurrent, ?_⟩
  unfold ThreadSystem.run at hmoves ⊢
  rw [List.foldl_append]
  exact hmoves

def roomForTwo : Budget := newBudget { minBudget := 2, window := 10 } 0

def threeCalls : List AcquireEvent :=
  [.call 0 (), .call 1 (), .call 2 ()] ++ (List.replicate 7 [.move 0 1, .move 1 1, .move 2 1]).flatten

theorem two_of_three_admitted :
    admittedCalls (acquirers.run roomForTwo threeCalls).threads = 2 ∧
      (acquirers.run roomForTwo threeCalls).shared.retryRequests = 2 := by
  have hplaces : ∀ place ∈ Dict.values (acquirers.run roomForTwo threeCalls).threads, ∃ answer, place = .left answer := by
    decide +kernel
  have hthree : (Dict.values (acquirers.run roomForTwo threeCalls).threads).length = 3 := by decide +kernel
  have hexact := (retries_admitted_exactly roomForTwo rfl 0 2 rfl (by decide +kernel) (by decide) threeCalls
    (by decide +kernel)).1 fun id place hid => hplaces place (Dict.mem_values.mpr ⟨id, hid⟩)
  rw [hthree] at hexact
  exact hexact

end AegisMesh.Retry
