import AegisMesh.Sdk.Resolver

/-! # Freshness of the resolver -/

open Lib

namespace AegisMesh.Sdk

open Controller

/-- The controller, the network and the resolver. `current` counts the views published since the
first, and `arrived` is the ghost list of the views that reached the resolver. -/
structure World where
  current : ℕ := 0
  lastSentVersion : ℕ := 0
  stream : List ℕ := []
  asked : List ℕ := []
  answered : Dict ℕ ℕ := ∅
  resolver : RegistryResolver := {}
  cache : IdentityCache := ∅
  arrived : List ℕ := []

inductive WorldEvent
  | publish
  /-- The watch handler sends the current view, if it has not sent that version last. -/
  | send
  | receive
  /-- A `ListInstances` call leaves the client, is answered with the current view, and returns. -/
  | ask (call : ℕ)
  | answer (call : ℕ)
  | arrive (call : ℕ)

section World

variable (accepts : List Address → Bool) (views : ℕ → InstancesView)

def World.apply (w : World) (i : ℕ) : World :=
  let (resolver, cache) := applyInstancesResponse accepts w.resolver w.cache (some (views i).response)
  { w with resolver, cache, arrived := w.arrived ++ [i] }

def World.step (w : World) : WorldEvent → World
  | .publish => { w with current := w.current + 1 }
  | .send =>
    match sendInstancesIfChanged (views w.current) w.lastSentVersion with
    | (some _, version) => { w with stream := w.stream ++ [w.current], lastSentVersion := version }
    | (none, version) => { w with lastSentVersion := version }
  | .receive =>
    match w.stream with
    | [] => w
    | i :: rest => { w with stream := rest }.apply accepts views i
  | .ask call => { w with asked := call :: w.asked }
  | .answer call =>
    if call ∈ w.asked then
      { w with asked := w.asked.erase call, answered := w.answered.insert call w.current }
    else w
  | .arrive call =>
    match w.answered.lookup call with
    | none => w
    | some i => { w with answered := w.answered.erase call }.apply accepts views i

def World.run (w : World) (events : List WorldEvent) : World := events.foldl (World.step accepts views) w

structure World.Complete (w : World) : Prop where
  stream : w.stream = []
  sent : w.lastSentVersion = (views w.current).response.version
  asked : w.asked = []
  answered : w.answered.keys = []

def RegistryResolver.Shows (r : RegistryResolver) (view : InstancesView) : Prop :=
  r.lastVersion = view.response.version ∧ r.pushed = some (addressesOf view)

def lastTaken (arrived : List ℕ) : Option ℕ := (arrived.filter fun i => accepts (addressesOf (views i))).getLast?

structure Distinct (n : ℕ) : Prop where
  set : ∀ i ≤ n, (views i).response.version ≠ 0
  inj : ∀ i ≤ n, ∀ j ≤ n, (views i).response.version = (views j).response.version → i = j

/-! ## What the resolver has -/

def World.Tracks (w : World) : Prop :=
  match lastTaken accepts views w.arrived with
  | none => w.resolver = {}
  | some i => w.resolver = { lastVersion := (views i).response.version, pushed := some (addressesOf (views i)) }

theorem applyInstancesResponse_spec (r : RegistryResolver) (cache : IdentityCache) {view : InstancesView}
    (hversion : view.response.version ≠ 0) :
    (applyInstancesResponse accepts r cache (some view.response)).1 =
      if view.response.version = r.lastVersion then r
      else if accepts (addressesOf view) then
        { lastVersion := view.response.version, pushed := some (addressesOf view) }
      else r := by
  simp only [applyInstancesResponse, instancesToAddresses, addressesOf]
  split_ifs <;> simp_all

variable {accepts views} {w : World}

theorem World.Tracks.apply {n : ℕ} (hdistinct : Distinct views n) (h : w.Tracks accepts views)
    (harrived : ∀ j ∈ w.arrived, j ≤ n) {i : ℕ} (hi : i ≤ n) : (w.apply accepts views i).Tracks accepts views := by
  have hresolver : (w.apply accepts views i).resolver = _ :=
    applyInstancesResponse_spec accepts w.resolver w.cache (hdistinct.set i hi)
  have hlast : lastTaken accepts views (w.apply accepts views i).arrived =
      if accepts (addressesOf (views i)) then some i else lastTaken accepts views w.arrived := by
    simp only [World.apply, lastTaken, List.filter_append]
    by_cases htaken : accepts (addressesOf (views i)) <;> simp [htaken]
  unfold World.Tracks at h ⊢
  rw [hlast, hresolver]
  by_cases hsame : (views i).response.version = w.resolver.lastVersion
  · -- The version of the view that gRPC has: it is that view again.
    rw [if_pos hsame]
    cases htaken : lastTaken accepts views w.arrived with
    | none =>
      rw [htaken] at h
      rw [h] at hsame
      exact absurd hsame (hdistinct.set i hi)
    | some j =>
      obtain ⟨hmem, hj⟩ := List.mem_filter.mp (List.mem_of_getLast? htaken)
      rw [htaken] at h
      have hij : i = j := hdistinct.inj i hi j (harrived j hmem) (by rw [h] at hsame; exact hsame)
      subst hij
      rw [if_pos hj]
      exact h
  · rw [if_neg hsame]
    by_cases htaken : accepts (addressesOf (views i)) = true
    · rw [if_pos htaken, if_pos htaken]
    · rw [if_neg htaken, if_neg htaken]
      exact h

structure World.Sound (accepts : List Address → Bool) (views : ℕ → InstancesView) (w : World) : Prop where
  tracks : w.Tracks accepts views
  stream : ∀ i ∈ w.stream, i ≤ w.current
  answered : ∀ call i, w.answered.lookup call = some i → i ≤ w.current
  arrived : ∀ i ∈ w.arrived, i ≤ w.current

theorem World.Sound.apply (h : w.Sound accepts views) (hdistinct : Distinct views w.current) {i : ℕ}
    (hi : i ≤ w.current) : (w.apply accepts views i).Sound accepts views where
  tracks := h.tracks.apply hdistinct h.arrived hi
  stream := h.stream
  answered := h.answered
  arrived j hj := by
    rcases List.mem_append.mp hj with hj | hj
    · exact h.arrived j hj
    · rw [List.mem_singleton.mp hj]
      exact hi

theorem World.Sound.step (h : w.Sound accepts views) (hdistinct : Distinct views w.current) (event : WorldEvent) :
    (w.step accepts views event).Sound accepts views := by
  cases event with
  | publish =>
    exact ⟨h.tracks, fun i hi => (h.stream i hi).trans (Nat.le_succ _),
      fun call i hi => (h.answered call i hi).trans (Nat.le_succ _), fun i hi => (h.arrived i hi).trans (Nat.le_succ _)⟩
  | send =>
    simp only [World.step]
    split
    · refine ⟨h.tracks, fun i hi => ?_, h.answered, h.arrived⟩
      rcases List.mem_append.mp hi with hi | hi
      · exact h.stream i hi
      · exact (List.mem_singleton.mp hi).le
    · exact ⟨h.tracks, h.stream, h.answered, h.arrived⟩
  | receive =>
    simp only [World.step]
    cases hstream : w.stream with
    | nil => exact h
    | cons i rest =>
      have hle : ∀ j ∈ i :: rest, j ≤ w.current := hstream ▸ h.stream
      have hrest : ({ w with stream := rest } : World).Sound accepts views :=
        ⟨h.tracks, fun j hj => hle j (List.mem_cons_of_mem _ hj), h.answered, h.arrived⟩
      exact hrest.apply hdistinct (hle i List.mem_cons_self)
  | ask call => exact ⟨h.tracks, h.stream, h.answered, h.arrived⟩
  | answer call =>
    simp only [World.step]
    split
    · refine ⟨h.tracks, h.stream, fun c i hi => ?_, h.arrived⟩
      dsimp only at hi
      rw [Dict.lookup_insert'] at hi
      split at hi
      · exact (Option.some.inj hi).symm.le
      · exact h.answered c i hi
    · exact h
  | arrive call =>
    simp only [World.step]
    cases hanswered : w.answered.lookup call with
    | none => exact h
    | some i =>
      have hrest : ({ w with answered := w.answered.erase call } : World).Sound accepts views := by
        refine ⟨h.tracks, h.stream, fun c j hj => ?_, h.arrived⟩
        dsimp only at hj
        rw [Dict.lookup_erase'] at hj
        split at hj
        · cases hj
        · exact h.answered c j hj
      exact hrest.apply hdistinct (h.answered call i hanswered)

theorem World.current_le_step (w : World) (event : WorldEvent) : w.current ≤ (w.step accepts views event).current := by
  cases event with
  | publish => exact Nat.le_succ _
  | ask call => exact le_rfl
  | send | receive | answer call | arrive call =>
    simp only [World.step]
    split <;> exact le_rfl

theorem World.current_le_run (w : World) (events : List WorldEvent) :
    w.current ≤ (w.run accepts views events).current := by
  induction events generalizing w with
  | nil => exact le_rfl
  | cons event rest ih => exact (w.current_le_step event).trans (ih _)

theorem Distinct.mono {n k : ℕ} (h : Distinct views n) (hk : k ≤ n) : Distinct views k :=
  ⟨fun i hi => h.set i (hi.trans hk), fun i hi j hj => h.inj i (hi.trans hk) j (hj.trans hk)⟩

theorem World.Sound.run (h : w.Sound accepts views) {events : List WorldEvent}
    (hdistinct : Distinct views (w.run accepts views events).current) :
    (w.run accepts views events).Sound accepts views := by
  induction events generalizing w with
  | nil => exact h
  | cons event rest ih =>
    exact ih (h.step (hdistinct.mono (w.current_le_run (event :: rest))) event) hdistinct

end World

/-- After every run gRPC has the current view exactly if that is the last view to have arrived among
those it takes. -/
theorem pushed_current_iff (accepts : List Address → Bool) (views : ℕ → InstancesView) (events : List WorldEvent)
    (hdistinct : Distinct views (World.run accepts views {} events).current) :
    (World.run accepts views {} events).resolver.Shows (views (World.run accepts views {} events).current) ↔
      lastTaken accepts views (World.run accepts views {} events).arrived =
        some (World.run accepts views {} events).current := by
  have hstart : World.Sound accepts views {} :=
    ⟨rfl, fun i hi => by simp at hi, fun call i hi => by simp at hi, fun i hi => by simp at hi⟩
  have hsound := hstart.run hdistinct
  generalize World.run accepts views {} events = w at hdistinct hsound ⊢
  have htracks := hsound.tracks
  unfold World.Tracks at htracks
  unfold RegistryResolver.Shows
  cases hlast : lastTaken accepts views w.arrived with
  | none =>
    rw [hlast] at htracks
    rw [htracks]
    exact ⟨fun h => absurd h.1.symm (hdistinct.set _ le_rfl), fun h => nomatch h⟩
  | some i =>
    have hmem := (List.mem_filter.mp (List.mem_of_getLast? hlast)).1
    rw [hlast] at htracks
    rw [htracks]
    constructor
    · rintro ⟨hsame, -⟩
      rw [hdistinct.inj i (hsound.arrived i hmem) _ le_rfl hsame]
    · intro hsame
      rw [Option.some.inj hsame]
      exact ⟨rfl, rfl⟩

/-! ## A late answer -/

def movingView (i : ℕ) : InstancesView :=
  let address := if i = 0 then "10.0.0.1:80" else "10.0.0.2:80"
  instancesView { service := "svc", version := i + 1, instances := [{ id := "a", service := "svc", address }] } 0
    fun _ _ => none

/-- A list call is answered before the instance moves and returns after the stream has told of it: gRPC is left with
the old address. -/
theorem late_answer_wins :
    let w := World.run (fun _ => true) movingView {} [.ask 0, .answer 0, .publish, .send, .receive, .arrive 0]
    w.current = 1 ∧ w.Complete movingView ∧
    (movingView 0).response.version ≠ (movingView 1).response.version ∧
    w.resolver.pushed.map (List.map Address.addr) = some ["10.0.0.1:80"] := by
  refine ⟨by decide +kernel, ⟨by decide +kernel, by decide +kernel, by decide +kernel, by decide +kernel⟩,
    by decide +kernel, by decide +kernel⟩

theorem early_answer_replaced :
    (World.run (fun _ => true) movingView {} [.ask 0, .answer 0, .publish, .send, .arrive 0, .receive]).resolver.Shows
      (movingView 1) := by
  have hcurrent : (World.run (fun _ => true) movingView {}
      [.ask 0, .answer 0, .publish, .send, .arrive 0, .receive]).current = 1 := by decide +kernel
  have hset : ∀ i < 2, (movingView i).response.version ≠ 0 := by decide +kernel
  have hinj : ∀ i < 2, ∀ j < 2, (movingView i).response.version = (movingView j).response.version → i = j := by
    decide +kernel
  have hmain := pushed_current_iff (fun _ => true) movingView [.ask 0, .answer 0, .publish, .send, .arrive 0, .receive]
    ⟨fun i hi => hset i (by omega), fun i hi j hj => hinj i (by omega) j (by omega)⟩
  rw [hcurrent] at hmain
  exact hmain.mpr (by decide +kernel)

end AegisMesh.Sdk
