import Mathlib.Data.List.GetD
import Mathlib.Data.List.Rotate
import AegisMesh.Routing.AdaptiveP2C

/-! # The round-robin picker of `pkg/routing` -/

namespace AegisMesh.Routing

structure RoundRobinPicker where
  endpoints : List Endpoint := []
  next : ℕ := 0

def healthy (endpoint : Endpoint) : Bool := endpoint.status.normalized = .healthy

namespace RoundRobinPicker

def update (p : RoundRobinPicker) (endpoints : List Endpoint) : RoundRobinPicker where
  endpoints := endpoints
  next := if endpoints.length = 0 then 0 else p.next % endpoints.length

def newRoundRobinPicker (endpoints : List Endpoint) : RoundRobinPicker := update {} endpoints

def current (p : RoundRobinPicker) : Endpoint := p.endpoints.getD (p.next % p.endpoints.length) {}

def advance (p : RoundRobinPicker) : RoundRobinPicker := { p with next := (p.next + 1) % p.endpoints.length }

def scan : ℕ → RoundRobinPicker → Except PickError Endpoint × RoundRobinPicker
  | 0, p => (.error .noEndpoint, p)
  | attempts + 1, p => if healthy p.current then (.ok p.current, p.advance) else scan attempts p.advance

def pick (p : RoundRobinPicker) (ctxErr : Option String) : Except PickError Endpoint × RoundRobinPicker :=
  match ctxErr with
  | some text => (.error (.context text), p)
  | none => if p.endpoints.length = 0 then (.error .noEndpoint, p) else scan p.endpoints.length p

def picks : ℕ → RoundRobinPicker → List (Except PickError Endpoint) × RoundRobinPicker
  | 0, p => ([], p)
  | n + 1, p =>
    match p.pick none with
    | (first, p) =>
      match picks n p with
      | (rest, p) => (first :: rest, p)

/-! ## The ring -/

def ring (p : RoundRobinPicker) : List Endpoint := p.endpoints.rotate p.next

theorem ring_perm (p : RoundRobinPicker) : p.ring.Perm p.endpoints := List.rotate_perm _ _

variable {p : RoundRobinPicker}

theorem ring_turn {first : Endpoint} {rest : List Endpoint} (h : p.ring = first :: rest) :
    p.current = first ∧ p.advance.ring = rest ++ [first] := by
  unfold ring current advance at *
  have hpos : 0 < p.endpoints.length := by
    rw [← List.length_rotate, h]
    simp
  constructor
  · have hhead := List.head?_rotate (Nat.mod_lt p.next hpos)
    rw [List.rotate_mod, h, List.head?_cons] at hhead
    rw [List.getD_eq_getElem?_getD, ← hhead, Option.getD_some]
  · rw [List.rotate_mod, ← List.rotate_rotate, h, List.rotate_cons_succ, List.rotate_zero]

theorem scan_found {skipped rest : List Endpoint} {found : Endpoint} {attempts : ℕ}
    (hring : p.ring = skipped ++ found :: rest) (hskipped : ∀ e ∈ skipped, healthy e = false)
    (hfound : healthy found = true) (hattempts : skipped.length < attempts) :
    ∃ p', scan attempts p = (.ok found, p') ∧ p'.endpoints = p.endpoints ∧ p'.ring = rest ++ skipped ++ [found] := by
  induction skipped generalizing p rest attempts with
  | nil =>
    obtain ⟨attempts, rfl⟩ := Nat.exists_eq_add_one.mpr hattempts
    obtain ⟨hfirst, hturn⟩ := ring_turn hring
    refine ⟨p.advance, ?_, rfl, ?_⟩
    · simp only [scan, hfirst, hfound, if_true]
    · rw [hturn, List.append_nil]
  | cons first skipped ih =>
    obtain ⟨attempts, rfl⟩ := Nat.exists_eq_add_one.mpr (Nat.zero_lt_of_lt hattempts)
    obtain ⟨hfirst, hturn⟩ := ring_turn hring
    obtain ⟨hunhealthy, hskipped⟩ := List.forall_mem_cons.mp hskipped
    have hrest : p.advance.ring = skipped ++ found :: (rest ++ [first]) := by
      rw [hturn]
      simp
    obtain ⟨p', hscan, hendpoints, hring'⟩ := ih hrest hskipped (by simpa using hattempts)
    refine ⟨p', ?_, hendpoints, ?_⟩
    · rw [scan, hfirst, if_neg (by simp [hunhealthy]), hscan]
    · rw [hring']
      simp

theorem scan_none (h : ∀ e ∈ p.endpoints, healthy e = false) (hne : p.endpoints ≠ []) (attempts : ℕ) :
    (scan attempts p).1 = .error .noEndpoint := by
  induction attempts generalizing p with
  | zero => rfl
  | succ attempts ih =>
    have hlt := Nat.mod_lt p.next (List.length_pos_iff.mpr hne)
    have hunhealthy : healthy p.current = false := by
      unfold current
      rw [List.getD_eq_getElem _ _ hlt]
      exact h _ (List.getElem_mem hlt)
    rw [scan, if_neg (by simp [hunhealthy])]
    exact ih h hne

/-! ## Rounds -/

theorem pick_found {first : Endpoint} {others : List Endpoint} (h : p.ring.filter healthy = first :: others) :
    ∃ p', p.pick none = (.ok first, p') ∧ p'.endpoints = p.endpoints ∧ p'.ring.filter healthy = others ++ [first] := by
  obtain ⟨skipped, rest, hring, hskipped, hfirst, rfl⟩ := List.filter_eq_cons_iff.mp h
  have hskipped' : ∀ e ∈ skipped, healthy e = false := fun e he => by simpa using hskipped e he
  have hlength : p.endpoints.length = skipped.length + (rest.length + 1) := by
    rw [← p.ring_perm.length_eq, hring]
    simp
  have hattempts : skipped.length < p.endpoints.length := by omega
  obtain ⟨p', hscan, hendpoints, hring'⟩ := scan_found hring hskipped' hfirst hattempts
  refine ⟨p', ?_, hendpoints, ?_⟩
  · unfold pick
    dsimp only
    rw [if_neg (by omega), hscan]
  · rw [hring']
    simpa [List.filter_append, hfirst] using hskipped'

theorem picks_eq {n : ℕ} (hn : n ≤ (p.ring.filter healthy).length) :
    (picks n p).1 = ((p.ring.filter healthy).take n).map .ok := by
  induction n generalizing p with
  | zero => rfl
  | succ n ih =>
    obtain ⟨first, others, hring⟩ := List.exists_cons_of_length_pos (Nat.zero_lt_of_lt hn)
    obtain ⟨p', hpick, -, hring'⟩ := pick_found hring
    rw [hring, List.length_cons, Nat.add_le_add_iff_right] at hn
    have hrest := ih (p := p') (by rw [hring', List.length_append]; omega)
    rw [hring', List.take_append_of_le_length hn] at hrest
    rw [hring, List.take_succ_cons, List.map_cons, ← hrest]
    simp only [picks, hpick]

theorem pick_none (h : p.endpoints.filter healthy = []) : (p.pick none).1 = .error .noEndpoint := by
  unfold pick
  dsimp only
  split
  · rfl
  · rename_i hlength
    rw [List.filter_eq_nil_iff] at h
    exact scan_none (fun e he => by simpa using h e he) (List.length_pos_iff.mp (by omega)) _

/-- From any place on, as many picks as there are healthy endpoints give each of them once. Without a healthy one
every pick fails. -/
theorem round_robin_fair (p : RoundRobinPicker) :
    (∃ picked : List Endpoint, (p.picks (p.endpoints.filter healthy).length).1 = picked.map .ok ∧
      picked.Perm (p.endpoints.filter healthy)) ∧
    (p.endpoints.filter healthy = [] → ∀ ctxErr, ∃ err, (p.pick ctxErr).1 = .error err) := by
  have hperm := p.ring_perm.filter healthy
  constructor
  · refine ⟨p.ring.filter healthy, ?_, hperm⟩
    rw [← hperm.length_eq, picks_eq le_rfl, List.take_length]
  · intro hnone ctxErr
    cases ctxErr with
    | none => exact ⟨_, pick_none hnone⟩
    | some text => exact ⟨_, rfl⟩

def atTheLast : RoundRobinPicker where
  endpoints := [{ id := "a" }, { id := "b", status := .ejected }, { id := "c", status := .healthy },
    { id := "d", status := .probing }]
  next := 3

theorem round_robin_fair_at_the_last :
    (∃ picked : List Endpoint, (atTheLast.picks 2).1 = picked.map .ok ∧
      picked.Perm [{ id := "a" }, { id := "c", status := .healthy }]) ∧
    ((newRoundRobinPicker [{ status := .dead }]).endpoints.filter healthy = [] ∧
      ∃ err, ((newRoundRobinPicker [{ status := .dead }]).pick none).1 = .error err) :=
  ⟨(round_robin_fair atTheLast).1, by decide, (round_robin_fair (newRoundRobinPicker [{ status := .dead }])).2 (by decide) none⟩

end RoundRobinPicker

end AegisMesh.Routing
