import AegisMesh.Registry.LateHeartbeats

/-! # Heartbeats that find no lease -/

open Lib

namespace AegisMesh.Registry

namespace SharedStore

def Lost (key epoch token : String) (s : SharedStore) : Prop :=
  s.store.entries.lookup key = none ∨
    ∃ e record, s.store.entries.lookup key = some e ∧ e.value = some record ∧
      (record.registrationEpoch ≠ epoch ∨ record.ownerToken ≠ token)

def IsUpdating : StoreThread → Prop
  | .updating .. => True
  | _ => False

/-- Between its read and its write, no other heartbeat writes the key over its present revision; and
no registration draws the epoch and the token again. -/
def Undisturbed (r : LeaseStoreRegistry) (id : ℕ) (key epoch token : String) (p : Threads SharedStore StoreThread) :
    ThreadEvent WriteCall StoreChoice Expiry → Prop
  | .move other c =>
    (other ≠ id → ∀ t, p.threads.lookup id = some t → IsUpdating t → ∀ service i inst modRevision,
      p.threads.lookup other = some (.updating service i inst modRevision) → r.instanceKey service i = key →
      p.shared.store.modRevision key ≠ modRevision) ∧
    ∀ ctx inst ttl, p.threads.lookup other = some (.registering ctx inst ttl) → c.epoch ≠ epoch ∨ c.token ≠ token
  | _ => True

def Unharmed (r : LeaseStoreRegistry) (id : ℕ) (service i epoch token : String) (p : Threads SharedStore StoreThread) :
    Prop :=
  (∃ ctx ttl, p.threads.lookup id = some (.reading ctx service i epoch token ttl true true)) ∨
  (∃ inst, p.threads.lookup id =
    some (.updating service i inst (p.shared.store.modRevision (r.instanceKey service i)))) ∨
  ∃ answer, p.threads.lookup id = some (.returned answer) ∧ answer ≠ some .instanceNotFound

variable {r : LeaseStoreRegistry} {s s' : SharedStore} {t t' : StoreThread} {c : StoreChoice}
  {service i epoch token : String}

theorem modRevision_congr {key : String} (h : s'.store.entries.lookup key = s.store.entries.lookup key) :
    s'.store.modRevision key = s.store.modRevision key := by
  unfold RevStore.modRevision
  rw [h]

/-! ## One move -/

theorem move_key (hmove : move r s t c = some (s', t')) (key : String) :
    s'.store.entries.lookup key = s.store.entries.lookup key ∨
    (∃ ctx inst ttl modRevision, t = .registering ctx inst ttl ∧ s'.store.entries.lookup key =
      some ⟨some (encodeLeaseStoreRecord (LeaseStoreRegistry.minted inst c.now c.epoch c.token)), modRevision⟩) ∨
    ∃ service i inst, t = .updating service i inst (s.store.modRevision key) ∧ r.instanceKey service i = key := by
  unfold move at hmove
  cases t with
  | registering ctx inst ttl =>
    simp only [LeaseStoreRegistry.register] at hmove
    split_ifs at hmove <;> cases hmove
    · exact .inl rfl
    · exact .inl rfl
    · by_cases hkey : key = r.instanceKey inst.service inst.id
      · refine .inr (.inl ⟨ctx, inst, ttl, s.store.revision + c.gap + 1, rfl, ?_⟩)
        simp only [RevStore.lookup_put, if_pos hkey]
      · left
        simp only [RevStore.lookup_put, if_neg hkey]
  | reading ctx service i epoch token ttl requireEpoch requireOwner =>
    dsimp only at hmove
    split at hmove <;> cases hmove <;> exact .inl rfl
  | updating service i inst modRevision =>
    dsimp only at hmove
    rcases s.store.putIf_cases c.gap (r.instanceKey service i)
      (some (encodeLeaseStoreRecord { inst with lastSeen := c.now })) modRevision with hput | ⟨hrevision, hput⟩
    · rw [hput] at hmove
      cases hmove
      exact .inl rfl
    · rw [hput] at hmove
      cases hmove
      by_cases hkey : key = r.instanceKey service i
      · subst hkey hrevision
        exact .inr (.inr ⟨service, i, inst, rfl, rfl⟩)
      · left
        simp only [RevStore.lookup_put, if_neg hkey]
  | returned answer => cases hmove

theorem move_reading {ctx : Ctx} {ttl : ℤ} (hheld : ¬s.Lost (r.instanceKey service i) epoch token)
    (hmove : move r s (.reading ctx service i epoch token ttl true true) c = some (s', t')) :
    s' = s ∧ ((∃ inst, t' = .updating service i inst (s.store.modRevision (r.instanceKey service i))) ∨
      ∃ answer, t' = .returned answer ∧ answer ≠ some .instanceNotFound) := by
  have hread : ∀ err, r.heartbeatRead s.store ctx service i epoch token ttl true true = .error err →
      err ≠ .instanceNotFound := by
    intro err herr
    unfold LeaseStoreRegistry.heartbeatRead at herr
    split_ifs at herr
    · cases herr
      simp
    · cases herr
      simp
    · split at herr
      · rename_i habsent
        exact absurd (.inl habsent) hheld
      · split at herr
        · cases herr
          simp
        · dsimp only at herr
          split_ifs at herr <;> cases herr <;> simp
  have hrevision : ∀ inst modRevision,
      r.heartbeatRead s.store ctx service i epoch token ttl true true = .ok (inst, modRevision) →
      s.store.modRevision (r.instanceKey service i) = modRevision := by
    intro inst modRevision hok
    unfold LeaseStoreRegistry.heartbeatRead at hok
    split_ifs at hok
    split at hok
    · cases hok
    · rename_i hl
      split at hok
      · cases hok
      · dsimp only at hok
        split_ifs at hok
        cases hok
        simp only [RevStore.modRevision, hl]
  simp only [move] at hmove
  split at hmove
  · rename_i err herr
    cases hmove
    exact ⟨rfl, .inr ⟨some err, rfl, fun h => hread err herr (Option.some.inj h)⟩⟩
  · rename_i inst modRevision hok
    cases hmove
    exact ⟨rfl, .inl ⟨inst, by rw [hrevision inst modRevision hok]⟩⟩

theorem move_updating {inst : Instance} {key : String} (hkey : r.instanceKey service i = key)
    (hmove : move r s (.updating service i inst (s.store.modRevision key)) c = some (s', t')) : t' = .returned none := by
  subst hkey
  simp only [move, RevStore.putIf, if_pos] at hmove
  cases hmove
  rfl

/-! ## Runs -/

theorem Unharmed.step {p : Threads SharedStore StoreThread} {id : ℕ} {e : ThreadEvent WriteCall StoreChoice Expiry}
    (h : Unharmed r id service i epoch token p) (hok : Undisturbed r id (r.instanceKey service i) epoch token p e)
    (hbefore : ¬p.shared.Lost (r.instanceKey service i) epoch token)
    (hafter : ¬((controllers r).step p e).shared.Lost (r.instanceKey service i) epoch token) :
    Unharmed r id service i epoch token ((controllers r).step p e) := by
  -- Where the thread stays as it is, all that counts is the key's revision after its read.
  have hkeeps : ∀ p' : Threads SharedStore StoreThread, p'.threads.lookup id = p.threads.lookup id →
      (∀ t, p.threads.lookup id = some t → IsUpdating t →
        p'.shared.store.entries.lookup (r.instanceKey service i) =
          p.shared.store.entries.lookup (r.instanceKey service i)) →
      Unharmed r id service i epoch token p' := by
    intro p' hthread hentry
    unfold Unharmed
    rw [hthread]
    refine h.imp_right (Or.imp_left ?_)
    rintro ⟨inst, hupdating⟩
    exact ⟨inst, by rw [modRevision_congr (hentry _ hupdating trivial), hupdating]⟩
  have hdid := (controllers r).did_step p e
  generalize (controllers r).step p e = p' at hdid hafter ⊢
  cases hdid with
  | refused => exact h
  | absent => exact h
  | blocked => exact h
  | @called other k hfresh =>
    refine hkeeps _ ?_ fun _ _ _ => rfl
    have hne : id ≠ other := by
      rintro rfl
      simp [Unharmed, hfresh] at h
    exact AList.lookup_insert_ne hne
  | @moved other choice t s' t' ht hmoved =>
    have hmove : move r p.shared t choice = some (s', t') := hmoved
    by_cases hown : other = id
    · subst hown
      rcases h with ⟨ctx, ttl, hreading⟩ | ⟨inst, hupdating⟩ | ⟨answer, hreturned, -⟩
      · obtain rfl := Option.some.inj (hreading.symm.trans ht)
        obtain ⟨rfl, ⟨inst, rfl⟩ | ⟨answer, rfl, hanswer⟩⟩ := move_reading hbefore hmove
        · exact .inr (.inl ⟨inst, AList.lookup_insert _⟩)
        · exact .inr (.inr ⟨answer, AList.lookup_insert _, hanswer⟩)
      · obtain rfl := Option.some.inj (hupdating.symm.trans ht)
        obtain rfl := move_updating rfl hmove
        exact .inr (.inr ⟨none, AList.lookup_insert _, by simp⟩)
      · obtain rfl := Option.some.inj (hreturned.symm.trans ht)
        cases hmove
    · refine hkeeps _ (AList.lookup_insert_ne (Ne.symm hown)) fun own hthread hupdating => ?_
      rcases move_key hmove (r.instanceKey service i) with hsame | ⟨ctx, inst, ttl, modRevision, rfl, hput⟩ |
        ⟨service', i', inst, rfl, hkey⟩
      · exact hsame
      · exact absurd (.inr ⟨_, _, hput, rfl, hok.2 ctx inst ttl ht⟩) hafter
      · exact absurd rfl (hok.1 hown own hthread hupdating service' i' inst _ ht hkey)
  | changed e =>
    have hentry : ((controllers r).outside p.shared e).store.entries.lookup (r.instanceKey service i) =
        (p.shared.store.entries.lookup (r.instanceKey service i)).filter fun _ => r.instanceKey service i ∉ e.keys :=
      Dict.lookup_filter _ _ _
    refine hkeeps _ rfl fun _ _ _ => ?_
    by_cases hexpired : r.instanceKey service i ∈ e.keys
    · refine absurd (.inl ?_) hafter
      rw [hentry]
      simp [hexpired]
    · rw [hentry]
      cases p.shared.store.entries.lookup (r.instanceKey service i) <;> simp [hexpired]

/-- A heartbeat that returns "not found" had, at some moment since it was called, no lease of its own, as long as no
other heartbeat renewed it in between and nobody drew its epoch and token again. -/
theorem not_found_after_loss (r : LeaseStoreRegistry) (p : Threads SharedStore StoreThread) (id : ℕ)
    (hid : p.threads.lookup id = none) (ctx : Ctx) (service i epoch token : String) (ttl : ℤ)
    (during : List (ThreadEvent WriteCall StoreChoice Expiry)) :
    let start := (controllers r).step p (.call id (.heartbeatWithOwner ctx service i epoch token ttl))
    Along (controllers r).step (Undisturbed r id (r.instanceKey service i) epoch token) start during →
    (during.foldl (controllers r).step start).threads.lookup id = some (.returned (some .instanceNotFound)) →
    ∃ seen rest, during = seen ++ rest ∧
      (seen.foldl (controllers r).step start).shared.Lost (r.instanceKey service i) epoch token := by
  intro start hundisturbed hanswer
  have hstart : Unharmed r id service i epoch token start := by
    have hthread : start.threads.lookup id =
        some (SharedStore.start (.heartbeatWithOwner ctx service i epoch token ttl)) := by
      simp only [start, ThreadSystem.step, hid]
      exact AList.lookup_insert _
    rw [SharedStore.start] at hthread
    split_ifs at hthread
    · exact .inr (.inr ⟨_, hthread, by simp⟩)
    · exact .inl ⟨ctx, ttl, hthread⟩
  have hrun := run_invariant_unless (Q := fun p => p.shared.Lost (r.instanceKey service i) epoch token)
    (fun p e hp hok hbefore hafter => Unharmed.step hp hok hbefore hafter) hstart hundisturbed
  refine hrun.resolve_right ?_
  rintro (⟨ctx, ttl, hreading⟩ | ⟨inst, hupdating⟩ | ⟨answer, hreturned, hne⟩)
  · rw [hanswer] at hreading
    cases hreading
  · rw [hanswer] at hupdating
    cases hupdating
  · rw [hanswer] at hreturned
    cases hreturned
    exact hne rfl

/-! ## Two heartbeats of one owner -/

def registeredOnce : List (ThreadEvent WriteCall StoreChoice Expiry) :=
  [.call 0 (.register .background { id := "a", service := "svc", address := "h:1" } 10),
    .move 0 { epoch := "e1", token := "t1" },
    .call 1 (.heartbeatWithOwner .background "svc" "a" "e1" "t1" 10), .move 1 {}]

def secondHeartbeat : List (ThreadEvent WriteCall StoreChoice Expiry) :=
  [.move 2 {}, .move 1 { now := 5 }, .move 2 { now := 6 }]

def secondStarts : Threads SharedStore StoreThread :=
  (controllers plainKeys).step ((controllers plainKeys).run { store := .empty 0 } registeredOnce)
    (.call 2 (.heartbeatWithOwner .background "svc" "a" "e1" "t1" 10))

def ownerOf (s : SharedStore) (key : String) : Option (String × String) :=
  ((s.store.entries.lookup key).bind Entry.value).map fun record => (record.registrationEpoch, record.ownerToken)

theorem not_lost_of_owner {key : String} (h : s.ownerOf key = some (epoch, token)) : ¬s.Lost key epoch token := by
  rintro (habsent | ⟨e, record, he, hrecord, hother⟩)
  · simp [ownerOf, habsent] at h
  · simp only [ownerOf, he, Option.bind_some, hrecord, Option.map_some, Option.some.injEq, Prod.mk.injEq] at h
    exact hother.elim (fun hne => hne h.1) fun hne => hne h.2

theorem overlapping_heartbeat_not_found :
    (secondHeartbeat.foldl (controllers plainKeys).step secondStarts).threads.lookup 2 =
        some (.returned (some .instanceNotFound)) ∧
      ∀ seen ∈ secondHeartbeat.inits,
        ¬(seen.foldl (controllers plainKeys).step secondStarts).shared.Lost "/registry/svc/a" "e1" "t1" := by
  refine ⟨rfl, fun seen hseen => not_lost_of_owner ?_⟩
  have howner : ∀ seen ∈ secondHeartbeat.inits,
      (seen.foldl (controllers plainKeys).step secondStarts).shared.ownerOf "/registry/svc/a" = some ("e1", "t1") := by
    simp only [secondHeartbeat, List.inits, List.map_cons, List.map_nil, List.forall_mem_cons]
    refine ⟨by decide, by decide, by decide, by decide, by simp⟩
  exact howner seen hseen

def leaseEnds : List (ThreadEvent WriteCall StoreChoice Expiry) :=
  [.move 2 {}, .outside { keys := ["/registry/svc/a"] }, .move 2 { now := 6 }]

theorem ended_lease_not_found :
    ∃ seen rest, leaseEnds = seen ++ rest ∧
      (seen.foldl (controllers plainKeys).step secondStarts).shared.Lost "/registry/svc/a" "e1" "t1" := by
  refine not_found_after_loss plainKeys ((controllers plainKeys).run { store := .empty 0 } registeredOnce) 2 rfl
    .background "svc" "a" "e1" "t1" 10 leaseEnds ⟨⟨fun hne => absurd rfl hne, ?_⟩, trivial, ⟨fun hne => absurd rfl hne, ?_⟩,
      trivial⟩ rfl
  · rintro ctx inst ttl (h : some _ = _)
    cases h
  · rintro ctx inst ttl (h : some _ = _)
    cases h

end SharedStore

end AegisMesh.Registry
