import AegisMesh.Lib.LeasedStore
import AegisMesh.Lib.Runs

/-!
# The etcd lease store

A write grants a lease, puts the key on it and revokes the lease that the key was on.
-/

namespace AegisMesh.Registry

open Lib

def leaseTTLSeconds (ttl : ℤ) : ℤ :=
  if ttl ≤ 0 then 1
  else
    let seconds := ttl / 1000000000
    let seconds := if ttl % 1000000000 ≠ 0 then seconds + 1 else seconds
    if seconds ≤ 0 then 1 else seconds

/-- How the client calls of one write end. The gaps are what other clients use up. -/
structure ClientCalls where
  grant : Outcome := .answered
  write : Outcome := .answered
  revoke : Outcome := .answered
  leaseGap : ℕ := 0
  revisionGap : ℕ := 0
  revokeGap : ℕ := 0

namespace EtcdLeaseStore

variable {α : Type}

def revokeLease (s : LeasedStore String α) (calls : ClientCalls) (id : ℕ) : LeasedStore String α :=
  if id = 0 then s else (calls.revoke.call s (·.revoke calls.revokeGap id)).1

def revokePreviousLease (s : LeasedStore String α) (calls : ClientCalls) (prev : Option (LeasedEntry α))
    (current : ℕ) : LeasedStore String α :=
  match prev with
  | none => s
  | some kv => if kv.lease = 0 ∨ kv.lease = current then s else revokeLease s calls kv.lease

def put (s : LeasedStore String α) (calls : ClientCalls) (key : String) (value : α) (ttl : ℤ) :
    LeasedStore String α × Except String ℕ :=
  match calls.grant.call s (·.grant calls.leaseGap (leaseTTLSeconds ttl)) with
  | (s, .error err) => (s, .error err)
  | (s, .ok lease) =>
    match calls.write.call s (·.put calls.revisionGap key value lease) with
    | (s, .error err) => (revokeLease s calls lease, .error err)
    | (s, .ok (revision, prevKV)) => (revokePreviousLease s calls prevKV lease, .ok revision)

def update (s : LeasedStore String α) (calls : ClientCalls) (key : String) (value : α) (ttl : ℤ)
    (expectedModRevision : ℕ) : LeasedStore String α × Except String (ℕ × Bool) :=
  match calls.grant.call s (·.grant calls.leaseGap (leaseTTLSeconds ttl)) with
  | (s, .error err) => (s, .error err)
  | (s, .ok lease) =>
    match calls.write.call s (·.putIf calls.revisionGap key value lease expectedModRevision) with
    | (s, .error err) => (revokeLease s calls lease, .error err)
    | (s, .ok (revision, none)) => (revokeLease s calls lease, .ok (revision, false))
    | (s, .ok (revision, some prevKV)) => (revokePreviousLease s calls prevKV lease, .ok (revision, true))

def get (s : LeasedStore String α) (key : String) : ℕ × Option α :=
  match s.entries.lookup key with
  | none => (s.revision, none)
  | some kv => (kv.modRevision, some kv.value)

/-! ## What each call amounts to -/

def Exclusive (s : LeasedStore String α) : Prop :=
  ∀ j k e f, s.entries.lookup j = some e → s.entries.lookup k = some f → e.lease = f.lease → j = k

/-- The changes of a store without leases that a write amounts to. `expects` tells that the write finds the
key as it expects it. -/
def changes (calls : ClientCalls) (key : String) (value : α) (expects : Bool) : List (ℕ × Change String α) :=
  match calls.grant, calls.write, expects with
  | .answered, .answered, true => [(calls.revisionGap, .put key value)]
  | .answered, .lost _, true =>
    if calls.revoke.commits then [(calls.revisionGap, .put key value), (calls.revokeGap, .expire [key])]
    else [(calls.revisionGap, .put key value)]
  | _, _, _ => []

section Steps

variable {s granted written : LeasedStore String α} {r : RevStore String α} {calls : ClientCalls} {key : String}
  {value : α} {ttl : ℤ} {lease : ℕ} {e : LeasedEntry α}

structure Granted (s granted : LeasedStore String α) (lease : ℕ) : Prop where
  entries : granted.entries = s.entries
  revision : granted.revision = s.revision
  held : (granted.leases.lookup lease).isSome
  positive : 0 < lease
  unused : ∀ k e, s.entries.lookup k = some e → e.lease ≠ lease

theorem grant_spec (s : LeasedStore String α) (gap : ℕ) (ttl : ℤ) :
    ∃ granted lease, s.grant gap ttl = (granted, .ok lease) ∧ Granted s granted lease := by
  refine ⟨_, _, rfl, rfl, rfl, ?_, Nat.succ_pos _, fun k e h => ?_⟩
  · simp only [Dict.lookup_insert', if_true, Option.isSome_some]
  · have := LeasedStore.lease_le h
    omega

theorem Granted.shows (h : Granted s granted lease) (hs : s.Shows r) : granted.Shows r :=
  ⟨fun k => by rw [h.entries, hs.entries], by rw [h.revision, hs.revision]⟩

structure Written (s written : LeasedStore String α) (key : String) (lease : ℕ) : Prop where
  own : ∃ e, written.entries.lookup key = some e ∧ e.lease = lease
  frame : ∀ k, k ≠ key → written.entries.lookup k = s.entries.lookup k
  positive : 0 < lease
  unused : ∀ k e, s.entries.lookup k = some e → e.lease ≠ lease

theorem Granted.put (h : Granted s granted lease) (hs : s.Shows r) (gap : ℕ) (key : String) (value : α) :
    ∃ written, granted.put gap key value lease = (written, .ok (s.revision + gap + 1, s.entries.lookup key)) ∧
      Written s written key lease ∧ written.Shows (r.put gap key value) := by
  have hanswer : (granted.put gap key value lease).2 = .ok (s.revision + gap + 1, s.entries.lookup key) := by
    simp only [LeasedStore.put, h.held, dite_true, h.revision, h.entries]
  refine ⟨_, Prod.ext rfl hanswer, ⟨?_, fun k hk => ?_, h.positive, h.unused⟩, (h.shows hs).put h.held⟩
  · exact ⟨_, by rw [LeasedStore.lookup_put h.held, if_pos rfl], rfl⟩
  · rw [LeasedStore.lookup_put h.held, if_neg hk, h.entries]

theorem Written.on_lease_iff (h : Written s written key lease) {k : String} (hk : written.entries.lookup k = some e) :
    e.lease = lease ↔ k ∈ [key] := by
  rw [List.mem_singleton]
  obtain ⟨own, hown, hlease⟩ := h.own
  constructor
  · intro hsame
    by_contra hne
    rw [h.frame k hne] at hk
    exact h.unused k e hk hsame
  · rintro rfl
    rw [hown] at hk
    cases hk
    exact hlease

theorem revokeLease_eq (hid : 0 < lease) :
    revokeLease s calls lease = if calls.revoke.commits then (s.revoke calls.revokeGap lease).1 else s := by
  unfold revokeLease
  rw [if_neg (by omega)]
  cases calls.revoke <;> rfl

theorem lookup_revokeLease {id : ℕ} {k : String} (h : (revokeLease s calls id).entries.lookup k = some e) :
    s.entries.lookup k = some e := by
  rcases Nat.eq_zero_or_pos id with rfl | hid
  · exact h
  · rw [revokeLease_eq hid] at h
    split at h
    · rw [LeasedStore.lookup_revoke, Option.filter_eq_some_iff] at h
      exact h.1
    · exact h

/-- What a write of the key leaves: a store that shows `r`, with the key where it was or on a lease of its own. -/
structure After (s : LeasedStore String α) (key : String) (r : RevStore String α) (t : LeasedStore String α) : Prop where
  shows : t.Shows r
  entries : ∀ k e, t.entries.lookup k = some e →
    s.entries.lookup k = some e ∨ k = key ∧ ∀ j f, s.entries.lookup j = some f → f.lease ≠ e.lease

theorem Written.entries (h : Written s written key lease) {k : String} (hk : written.entries.lookup k = some e) :
    s.entries.lookup k = some e ∨ k = key ∧ ∀ j f, s.entries.lookup j = some f → f.lease ≠ e.lease := by
  by_cases hkey : k = key
  · refine .inr ⟨hkey, fun j f hj => ?_⟩
    rw [(h.on_lease_iff hk).mpr (by rw [hkey]; exact List.mem_singleton_self key)]
    exact h.unused j f hj
  · exact .inl (h.frame k hkey ▸ hk)

theorem Granted.cleanUp (h : Granted s granted lease) (hs : s.Shows r) (calls : ClientCalls) (key : String) :
    After s key r (revokeLease granted calls lease) := by
  refine ⟨?_, fun k e hk => .inl (h.entries ▸ lookup_revokeLease hk)⟩
  rw [revokeLease_eq h.positive]
  split
  · exact (h.shows hs).revoke_unused fun k e hk => h.unused k e (h.entries ▸ hk)
  · exact h.shows hs

theorem Written.cleanUp (h : Written s written key lease) (hs : written.Shows (r.put calls.revisionGap key value)) :
    After s key (r.applyAll (if calls.revoke.commits then
      [(calls.revisionGap, .put key value), (calls.revokeGap, .expire [key])] else [(calls.revisionGap, .put key value)]))
      (revokeLease written calls lease) := by
  refine ⟨?_, fun k e hk => h.entries (lookup_revokeLease hk)⟩
  rw [revokeLease_eq h.positive]
  split
  · exact hs.revoke fun k e hk => h.on_lease_iff hk
  · exact hs

theorem Written.handOver (h : Written s written key lease) (hex : Exclusive s) (hs : written.Shows r)
    (calls : ClientCalls) : After s key r (revokePreviousLease written calls (s.entries.lookup key) lease) := by
  unfold revokePreviousLease
  split
  · exact ⟨hs, fun k e hk => h.entries hk⟩
  · rename_i kv hprev
    split
    · exact ⟨hs, fun k e hk => h.entries hk⟩
    · rename_i hother
      rw [not_or] at hother
      refine ⟨?_, fun k e hk => h.entries (lookup_revokeLease hk)⟩
      rw [revokeLease_eq (by omega)]
      split
      · refine hs.revoke_unused fun k e hk hsame => ?_
        by_cases hkey : k = key
        · have honLease := (h.on_lease_iff hk).mpr (by rw [hkey]; exact List.mem_singleton_self key)
          exact hother.2 (hsame ▸ honLease)
        · rw [h.frame k hkey] at hk
          exact hkey (hex k key e kv hk hprev hsame)
      · exact hs

theorem put_simulated (hs : s.Shows r) (hex : ∀ n, (put s calls key value ttl).2 = .ok n → Exclusive s) :
    After s key (r.applyAll (changes calls key value true)) (put s calls key value ttl).1 := by
  obtain ⟨granted, lease, hgrant, hgranted⟩ := grant_spec s calls.leaseGap (leaseTTLSeconds ttl)
  obtain ⟨written, hput, hwritten, hshows⟩ := hgranted.put hs calls.revisionGap key value
  unfold put changes at *
  cases hg : calls.grant with
  | refused err => exact ⟨hs, fun k e hk => .inl hk⟩
  | lost err =>
    simp only [Outcome.call, hgrant]
    exact ⟨hgranted.shows hs, fun k e hk => .inl (hgranted.entries ▸ hk)⟩
  | answered =>
    cases hw : calls.write with
    | refused err =>
      simp only [Outcome.call, hgrant]
      exact hgranted.cleanUp hs calls key
    | lost err =>
      simp only [Outcome.call, hgrant, hput]
      exact hwritten.cleanUp hshows
    | answered =>
      simp only [Outcome.call, hgrant, hput, hg, hw] at hex ⊢
      exact hwritten.handOver (hex _ rfl) hshows calls

theorem update_simulated {expected : ℕ} (hs : s.Shows r)
    (hex : ∀ n, (update s calls key value ttl expected).2 = .ok n → Exclusive s) :
    After s key (r.applyAll (changes calls key value (s.modRevision key = expected)))
      (update s calls key value ttl expected).1 := by
  obtain ⟨granted, lease, hgrant, hgranted⟩ := grant_spec s calls.leaseGap (leaseTTLSeconds ttl)
  obtain ⟨written, hput, hwritten, hshows⟩ := hgranted.put hs calls.revisionGap key value
  have hfound : granted.modRevision key = s.modRevision key := by simp only [LeasedStore.modRevision, hgranted.entries]
  unfold update changes at *
  cases hg : calls.grant with
  | refused err => exact ⟨hs, fun k e hk => .inl hk⟩
  | lost err =>
    simp only [Outcome.call, hgrant]
    exact ⟨hgranted.shows hs, fun k e hk => .inl (hgranted.entries ▸ hk)⟩
  | answered =>
    by_cases hexpects : s.modRevision key = expected
    · have hputIf : granted.putIf calls.revisionGap key value lease expected =
          (written, .ok (s.revision + calls.revisionGap + 1, some (s.entries.lookup key))) := by
        simp only [LeasedStore.putIf, hfound, hexpects, if_true, hput]
      cases hw : calls.write with
      | refused err =>
        simp only [Outcome.call, hgrant]
        exact hgranted.cleanUp hs calls key
      | lost err =>
        simp only [Outcome.call, hgrant, hputIf, hexpects]
        exact hwritten.cleanUp hshows
      | answered =>
        simp only [Outcome.call, hgrant, hputIf, hg, hw] at hex ⊢
        simp only [hexpects]
        exact hwritten.handOver (hex _ rfl) hshows calls
    · -- the compare fails, so whatever the caller is told the key is as it was
      have hputIf : granted.putIf calls.revisionGap key value lease expected = (granted, .ok (granted.revision, none)) := by
        simp only [LeasedStore.putIf, hfound, hexpects, if_false]
      have hclean := hgranted.cleanUp hs calls key
      cases hw : calls.write <;> simp only [Outcome.call, hgrant, hputIf, hexpects] <;> exact hclean

end Steps

/-! ## Runs -/

inductive Write (α : Type)
  | put (key : String) (value : α) (ttl : ℤ)
  | update (key : String) (value : α) (ttl : ℤ) (expectedModRevision : ℕ)

namespace Write

def key : Write α → String
  | .put key _ _ => key
  | .update key _ _ _ => key

def value : Write α → α
  | .put _ value _ => value
  | .update _ value _ _ => value

def expects (s : LeasedStore String α) : Write α → Bool
  | .put .. => true
  | .update key _ _ expected => s.modRevision key = expected

def expectsPlain (r : RevStore String α) : Write α → Bool
  | .put .. => true
  | .update key _ _ expected => r.modRevision key = expected

end Write

def step (s : LeasedStore String α) (call : ClientCalls × Write α) : LeasedStore String α × Except String (ℕ × Bool) :=
  match call.2 with
  | .put key value ttl => ((put s call.1 key value ttl).1, (put s call.1 key value ttl).2.map (·, true))
  | .update key value ttl expected => update s call.1 key value ttl expected

def run (s : LeasedStore String α) (calls : List (ClientCalls × Write α)) : LeasedStore String α :=
  calls.foldl (fun s call => (step s call).1) s

section Runs

variable {s : LeasedStore String α} {r : RevStore String α} {call : ClientCalls × Write α}

theorem step_simulated (hs : s.Shows r) (hex : ∀ n, (step s call).2 = .ok n → Exclusive s) :
    After s call.2.key (r.applyAll (changes call.1 call.2.key call.2.value (call.2.expects s))) (step s call).1 := by
  obtain ⟨calls, write⟩ := call
  cases write with
  | put key value ttl => exact put_simulated hs fun n hn => hex (n, true) (congrArg (Except.map (·, true)) hn)
  | update key value ttl expected => exact update_simulated hs hex

theorem After.exclusive {key : String} {t : LeasedStore String α} (h : After s key r t) (hex : Exclusive s) :
    Exclusive t := by
  intro j k e f hj hk hsame
  rcases h.entries j e hj with hj | ⟨rfl, hnew⟩ <;> rcases h.entries k f hk with hk | ⟨rfl, hnew'⟩
  · exact hex j k e f hj hk hsame
  · exact (hnew' j e hj hsame).elim
  · exact (hnew k f hk hsame.symm).elim
  · rfl

/-- The calls on a store without leases. -/
def runPlain (r : RevStore String α) (calls : List (ClientCalls × Write α)) : RevStore String α :=
  calls.foldl (fun r call => r.applyAll (changes call.1 call.2.key call.2.value (call.2.expectsPlain r))) r

theorem run_simulated (hs : s.Shows r) (hex : Exclusive s) (calls : List (ClientCalls × Write α)) :
    (run s calls).Shows (runPlain r calls) := by
  induction calls generalizing s r with
  | nil => exact hs
  | cons call rest ih =>
    have hmodRevision : ∀ key, s.modRevision key = r.modRevision key := fun key => by
      simp only [LeasedStore.modRevision, RevStore.modRevision, hs.entries]
      cases s.entries.lookup key <;> rfl
    have hexpects : call.2.expects s = call.2.expectsPlain r := by
      rcases call with ⟨calls, _ | _⟩ <;> simp [Write.expects, Write.expectsPlain, hmodRevision]
    have hafter : After s call.2.key _ (step s call).1 := step_simulated hs fun _ _ => hex
    rw [hexpects] at hafter
    exact ih hafter.shows (hafter.exclusive hex)

/-- Whatever errors the client calls return, no write and no clean-up touches another key: `Get` answers as a store
without leases does. -/
theorem get_after_run (revision lastLease : ℕ) (calls : List (ClientCalls × Write α)) (key : String) :
    get (run (.empty revision lastLease) calls) key =
      match (runPlain (.empty revision) calls).entries.lookup key with
      | none => ((runPlain (.empty revision) calls : RevStore String α).revision, none)
      | some e => (e.modRevision, some e.value) := by
  have hempty : (LeasedStore.empty revision lastLease : LeasedStore String α).Shows (.empty revision) :=
    ⟨fun _ => rfl, rfl⟩
  have hshows := run_simulated hempty (fun _ _ _ _ hj => nomatch hj) calls
  rw [hshows.entries, hshows.revision]
  unfold get
  cases (run (.empty revision lastLease) calls).entries.lookup key <;> rfl

def TakesDown (s : LeasedStore String α) (call : ClientCalls × Write α) (key : String) : Prop :=
  call.2.key = key ∧ call.2.expects s ∧ call.1.grant = .answered ∧ (∃ err, call.1.write = .lost err) ∧
    call.1.revoke.commits

theorem present_changes_iff {key : String} (hpresent : (r.entries.lookup key).isSome) :
    ((r.applyAll (changes call.1 call.2.key call.2.value (call.2.expects s))).entries.lookup key).isSome ↔
      ¬ TakesDown s call key := by
  have hput : ((r.put call.1.revisionGap call.2.key call.2.value).entries.lookup key).isSome := by
    rw [RevStore.lookup_put]
    split
    · rfl
    · exact hpresent
  unfold changes TakesDown
  split
  · rename_i hgrant hwrite hexpects
    simp [RevStore.applyAll, RevStore.apply, hput, hwrite]
  · rename_i err hgrant hwrite hexpects
    simp only [hgrant, hwrite, hexpects, Outcome.lost.injEq, exists_eq', true_and]
    split
    · rename_i hrevoke
      have hgone : ((r.put call.1.revisionGap call.2.key call.2.value).expire call.1.revokeGap
          [call.2.key]).entries.lookup key = if key = call.2.key then none else r.entries.lookup key := by
        rw [RevStore.lookup_expire_one, RevStore.lookup_put]
        split
        · rfl
        · rfl
      simp only [RevStore.applyAll, List.foldl_cons, List.foldl_nil, RevStore.apply, hgone, hrevoke, and_true]
      split
      · rename_i heq
        simp [heq]
      · rename_i hne
        simp [hpresent, Ne.symm hne]
    · rename_i hrevoke
      simp [RevStore.applyAll, RevStore.apply, hput, hrevoke]
  · rename_i hother
    simp only [RevStore.applyAll, List.foldl_nil, hpresent, true_iff]
    rintro ⟨_, hexpects, hgrant, ⟨err, hwrite⟩, _⟩
    exact hother err hgrant hwrite hexpects

/-- A key that is there before a call that returns an error is there after it, unless the call is for that key,
its write went through and the clean-up of its lease went through too. -/
theorem present_after_error_iff (start : LeasedStore String α) (calls : List (ClientCalls × Write α))
    (call : ClientCalls × Write α) (key err : String) (hpresent : ((run start calls).entries.lookup key).isSome)
    (herr : (step (run start calls) call).2 = .error err) :
    ((step (run start calls) call).1.entries.lookup key).isSome ↔ ¬ TakesDown (run start calls) call key := by
  have hshows := (run start calls).shows_unleased
  have hafter : After (run start calls) call.2.key _ (step (run start calls) call).1 :=
    step_simulated hshows fun n hn => by rw [herr] at hn; cases hn
  rw [← hafter.shows.isSome]
  exact present_changes_iff (by rw [hshows.isSome]; exact hpresent)

end Runs

def alive : List (ClientCalls × Write String) := [({}, .put "order/a" "v1" 5000000000)]

theorem refused_put_keeps_key :
    (step (run (.empty 0 0) alive) ({ write := .refused "timeout" }, .put "order/a" "v2" 5000000000)).2.toOption = none ∧
    ((step (run (.empty 0 0) alive)
      ({ write := .refused "timeout" }, .put "order/a" "v2" 5000000000)).1.entries.lookup "order/a").isSome :=
  ⟨by decide, (present_after_error_iff (.empty 0 0) alive _ "order/a" "timeout" (by decide) (by decide)).mpr
    fun h => by obtain ⟨_, _, _, ⟨err, herr⟩, _⟩ := h; cases herr⟩

/-- Etcd accepts the heartbeat's write, the answer is lost, and the clean-up deletes the instance. -/
theorem lost_update_takes_down :
    let s := run (.empty 0 0) alive
    let call : ClientCalls × Write String :=
      ({ write := .lost "context deadline exceeded" }, .update "order/a" "v2" 5000000000 1)
    (s.entries.lookup "order/a").isSome = true ∧ (step s call).2.toOption = none ∧
      ((step s call).1.entries.lookup "order/a").isSome = false := by
  decide

end EtcdLeaseStore

end AegisMesh.Registry
