import Mathlib.Logic.Function.Basic
import AegisMesh.Controller.RegistryService
import AegisMesh.Registry.Fence

/-! # Concurrent registrations -/

open Lib

namespace AegisMesh.Controller

open Registry

structure RegisterInstanceRequest where
  inst : Option ServiceInstance
  leaseTtlSeconds : ℤ := 0

def leaseTTL (defaultLease seconds : ℤ) : ℤ :=
  if seconds ≤ 0 then defaultLease else (seconds * 1000000000).bmod (2 ^ 64)

/-- Where a call of `RegisterInstance` is. `overtaken` is the ghost of its last step: another
registration of the same instance had taken effect since its own. -/
inductive Phase
  | idle
  | registered (inst : Instance)
  | done (result : Except StatusError RegisterInstanceResponse) (overtaken : Bool)

/-- The store, the calls, and the ghost log of the registrations that took effect, newest first. -/
structure Server (σ : Type) where
  store : σ
  phase : ℕ → Phase := fun _ => .idle
  log : List ℕ := []

/-- One step: the `Register` of a call, the `List` that answers it, or a call to the store that
some other handler makes. -/
inductive Event
  | register (call : ℕ) (m : Moment)
  | answer (call : ℕ) (m : Moment)
  | heartbeat (service id : String) (fence : Fence) (ttl : ℤ) (m : Moment)
  | list (service : String) (m : Moment)
  | sweep (m : Moment)

section Server

variable {σ : Type} (R : Store σ) (defaultLease : ℤ) (requests : ℕ → RegisterInstanceRequest) (mint : ℕ → Fence)

def target (call : ℕ) : Option (String × String) := (requests call).inst.map fun inst => (inst.service, inst.id)

def overtaken (log : List ℕ) (call : ℕ) : Bool :=
  (log.takeWhile (· ≠ call)).any fun other => target requests other = target requests call

def Server.moveTo (s : Server σ) (call : ℕ) (phase : Phase) : Server σ :=
  { s with phase := Function.update s.phase call phase }

def Server.register (s : Server σ) (call : ℕ) (m : Moment) : Server σ :=
  match s.phase call, (requests call).inst with
  | .idle, none =>
    s.moveTo call (.done (.error { code := .invalidArgument, message := "instance is required" }) false)
  | .idle, some proto =>
    let inst := instanceFromProto proto
    match R.register s.store m inst (leaseTTL defaultLease (requests call).leaseTtlSeconds) (mint call) with
    | (store, none) => { s with store, log := call :: s.log }.moveTo call (.registered inst)
    | (store, some err) => { s with store }.moveTo call (.done (.error (statusFromRegistryError err)) false)
  | _, _ => s

def Server.answer (s : Server σ) (call : ℕ) (m : Moment) : Server σ :=
  match s.phase call with
  | .registered inst =>
    let (store, listed) := R.list s.store m inst.service
    let result := match listed with
      | .ok instances => registerResponse inst instances
      | .error err => .error (statusFromRegistryError err)
    { s with store }.moveTo call (.done result (overtaken requests s.log call))
  | _ => s

def Server.step (s : Server σ) : Event → Server σ
  | .register call m => s.register R defaultLease requests mint call m
  | .answer call m => s.answer R requests call m
  | .heartbeat service id fence ttl m => { s with store := (R.heartbeatWithOwner s.store m service id fence ttl).1 }
  | .list service m => { s with store := (R.list s.store m service).1 }
  | .sweep m => { s with store := R.sweepExpired s.store m }

def Server.run (s : Server σ) (events : List Event) : Server σ :=
  events.foldl (Server.step R defaultLease requests mint) s

def Owns (call : ℕ) (response : RegisterInstanceResponse) : Prop :=
  response.inst.registrationEpoch = (mint call).epoch ∧ response.ownerToken = (mint call).token

/-- A successful call answers with its own fence exactly if it was not overtaken, and while none is
overtaken no two of them answer with the same token. -/
def Server.Fenced (s : Server σ) : Prop :=
  (∀ call response late, s.phase call = .done (.ok response) late → (Owns mint call response ↔ late = false)) ∧
  ((∀ call response late, s.phase call = .done (.ok response) late → late = false) →
    ∀ call call' response response' late late', s.phase call = .done (.ok response) late →
      s.phase call' = .done (.ok response') late' → response.ownerToken = response'.ownerToken → call = call')

/-! ## Who holds a lease -/

structure Server.Invariant (good : σ → Prop) (owner : σ → String → String → Option Fence) (s : Server σ) : Prop where
  good : good s.store
  registered : ∀ call inst, s.phase call = .registered inst →
    call ∈ s.log ∧ target requests call = some (inst.service, inst.id)
  holder : ∀ service id fence, owner s.store service id = some fence →
    ∃ call, s.log.find? (fun other => target requests other = some (service, id)) = some call ∧ fence = mint call
  done : ∀ call response late, s.phase call = .done (.ok response) late → (Owns mint call response ↔ late = false)

theorem overtaken_iff {log : List ℕ} {call last : ℕ} {key : String × String} (hmem : call ∈ log)
    (htarget : target requests call = some key)
    (hlast : log.find? (fun other => target requests other = some key) = some last) :
    overtaken requests log call = false ↔ last = call := by
  induction log with
  | nil => cases hmem
  | cons head rest ih =>
    by_cases hhead : head = call
    · subst hhead
      have : last = head := by simpa [htarget, eq_comm] using hlast
      simp [overtaken, this]
    · have hrest : call ∈ rest := by simpa [Ne.symm hhead] using hmem
      by_cases hkey : target requests head = some key
      · have hsame : last = head := by simpa [hkey, eq_comm] using hlast
        simp [overtaken, hhead, hsame, hkey, htarget]
      · rw [List.find?_cons_of_neg (by simpa using hkey)] at hlast
        rw [← ih hrest hlast]
        simp [overtaken, hhead, hkey, htarget]

variable {R requests mint} {good : σ → Prop} {owner : σ → String → String → Option Fence}
variable {s : Server σ}

theorem Server.Invariant.store (h : s.Invariant requests mint good owner) {store : σ} (hgood : good store)
    (hkept : Kept (owner s.store) (owner store)) : ({ s with store } : Server σ).Invariant requests mint good owner where
  good := hgood
  registered := h.registered
  holder service id fence hfence := by
    rcases hkept service id with hsame | hnone
    · exact h.holder service id fence (hsame ▸ hfence)
    · simp only [hnone] at hfence
      cases hfence
  done := h.done

theorem Server.Invariant.moveTo (h : s.Invariant requests mint good owner) (call : ℕ) {phase : Phase}
    (hregistered : ∀ inst, phase = .registered inst → call ∈ s.log ∧ target requests call = some (inst.service, inst.id))
    (hdone : ∀ response late, phase = .done (.ok response) late → (Owns mint call response ↔ late = false)) :
    (s.moveTo call phase).Invariant requests mint good owner where
  good := h.good
  registered other inst hother := by
    by_cases hsame : other = call
    · subst hsame
      exact hregistered inst (by simpa [Server.moveTo] using hother)
    · exact h.registered other inst (by simpa [Server.moveTo, hsame] using hother)
  holder := h.holder
  done other response late hother := by
    by_cases hsame : other = call
    · subst hsame
      exact hdone response late (by simpa [Server.moveTo] using hother)
    · exact h.done other response late (by simpa [Server.moveTo, hsame] using hother)

theorem Server.Invariant.logged (h : s.Invariant requests mint good owner) {call : ℕ} {service id : String}
    (htarget : target requests call = some (service, id)) {store : σ} (hgood : good store)
    (howner : ∀ service' id', owner store service' id' =
      if service' = service ∧ id' = id then some (mint call) else owner s.store service' id') :
    ({ s with store, log := call :: s.log } : Server σ).Invariant requests mint good owner where
  good := hgood
  registered other inst hother :=
    ⟨List.mem_cons_of_mem _ (h.registered other inst hother).1, (h.registered other inst hother).2⟩
  holder service' id' fence hfence := by
    dsimp only at hfence
    rw [howner] at hfence
    split at hfence
    · rename_i hsame
      obtain ⟨rfl, rfl⟩ := hsame
      exact ⟨call, List.find?_cons_of_pos (by simp [htarget]), (Option.some.inj hfence).symm⟩
    · rename_i hother
      obtain ⟨last, hlast, rfl⟩ := h.holder service' id' fence hfence
      refine ⟨last, ?_, rfl⟩
      rw [List.find?_cons_of_neg, hlast]
      simp only [htarget, decide_eq_true_eq, Option.some.injEq, Prod.mk.injEq]
      exact fun hsame => hother ⟨hsame.1.symm, hsame.2.symm⟩
  done := h.done

theorem Server.Invariant.register (hR : R.KeepsFences good owner) (h : s.Invariant requests mint good owner)
    (defaultLease : ℤ) (call : ℕ) (m : Moment) :
    (s.register R defaultLease requests mint call m).Invariant requests mint good owner := by
  unfold Server.register
  split
  · exact h.moveTo call (fun _ hp => nomatch hp) (fun _ _ hp => nomatch hp)
  · rename_i proto hphase hproto
    have hlaw := hR.register s.store m (instanceFromProto proto)
      (leaseTTL defaultLease (requests call).leaseTtlSeconds) (mint call) h.good
    dsimp only
    generalize R.register s.store m (instanceFromProto proto)
      (leaseTTL defaultLease (requests call).leaseTtlSeconds) (mint call) = out at hlaw ⊢
    obtain ⟨store, err⟩ := out
    have htarget : target requests call = some (proto.service, proto.id) := by rw [target, hproto, Option.map_some]
    cases err with
    | none =>
      have hlogged := h.logged htarget hlaw.1 fun service id => by
        rw [hlaw.2]
        simp [instanceFromProto]
      refine hlogged.moveTo call (fun inst hp => ?_) (fun _ _ hp => nomatch hp)
      obtain rfl := Phase.registered.inj hp
      exact ⟨List.mem_cons_self, htarget⟩
    | some err =>
      have hkept : Kept (owner s.store) (owner store) := by
        intro service id
        rw [hlaw.2]
        exact Or.inl (if_neg (by simp))
      exact (h.store hlaw.1 hkept).moveTo call (fun _ hp => nomatch hp) (fun _ _ hp => nomatch hp)
  · exact h

section Steps

variable (hR : R.KeepsFences good owner) (hmint : Function.Injective fun call => (mint call).token)
  (h : s.Invariant requests mint good owner)

include hR hmint h

theorem Server.Invariant.answer (call : ℕ) (m : Moment) :
    (s.answer R requests call m).Invariant requests mint good owner := by
  unfold Server.answer
  split
  · rename_i inst hphase
    obtain ⟨hmem, htarget⟩ := h.registered call inst hphase
    have hlaw := hR.list s.store m inst.service h.good
    have hshows := hR.shows s.store m inst.service
    generalize R.list s.store m inst.service = out at hlaw hshows ⊢
    obtain ⟨store, listed⟩ := out
    refine (h.store hlaw.1 hlaw.2).moveTo call (fun _ hp => nomatch hp) fun response late hp => ?_
    obtain ⟨hresult, rfl⟩ := Phase.done.inj hp
    cases listed with
    | error err => cases hresult
    | ok instances =>
      simp only [registerResponse] at hresult
      split at hresult
      · rename_i registered hfind
        cases hresult
        -- The lease that was read back is held by the last to register it.
        have hid : registered.id = inst.id := by simpa using List.find?_some hfind
        obtain ⟨last, hlast, hfence⟩ := h.holder inst.service registered.id registered.fence
          (hshows instances h.good rfl registered (List.mem_of_find?_eq_some hfind))
        rw [hid] at hlast
        rw [overtaken_iff requests hmem htarget hlast]
        have hepoch : registered.registrationEpoch = (mint last).epoch := congrArg Fence.epoch hfence
        have htoken : registered.ownerToken = (mint last).token := congrArg Fence.token hfence
        constructor
        · rintro ⟨-, howned⟩
          exact hmint (htoken.symm.trans howned)
        · rintro rfl
          exact ⟨hepoch, htoken⟩
      · cases hresult
  · exact h

theorem Server.Invariant.step (defaultLease : ℤ) (event : Event) :
    (s.step R defaultLease requests mint event).Invariant requests mint good owner := by
  cases event with
  | register call m => exact h.register hR defaultLease call m
  | answer call m => exact h.answer hR hmint call m
  | heartbeat service id fence ttl m =>
    have hlaw := hR.heartbeat s.store m service id fence ttl h.good
    exact h.store hlaw.1 hlaw.2
  | list service m =>
    have hlaw := hR.list s.store m service h.good
    exact h.store hlaw.1 hlaw.2
  | sweep m =>
    have hlaw := hR.sweep s.store m h.good
    exact h.store hlaw.1 hlaw.2

theorem Server.Invariant.run (defaultLease : ℤ) (events : List Event) :
    (s.run R defaultLease requests mint events).Invariant requests mint good owner :=
  run_invariant (I := Server.Invariant requests mint good owner)
    (fun _ event hs => hs.step hR hmint defaultLease event) h events

end Steps

theorem Server.Invariant.start {store : σ} (hgood : good store) (hempty : ∀ service id, owner store service id = none) :
    ({ store } : Server σ).Invariant requests mint good owner where
  good := hgood
  registered _ _ h := nomatch h
  holder service id fence h := by simp [hempty] at h
  done _ _ _ h := nomatch h

theorem Server.Invariant.fenced (hmint : Function.Injective fun call => (mint call).token)
    (h : s.Invariant requests mint good owner) : s.Fenced mint := by
  refine ⟨h.done, fun hnone call call' response response' late late' hcall hcall' htoken => hmint ?_⟩
  have howns := (h.done call response late hcall).mpr (hnone call response late hcall)
  have howns' := (h.done call' response' late' hcall').mpr (hnone call' response' late' hcall')
  exact howns.2.symm.trans (htoken.trans howns'.2)

end Server

/-- In every interleaving, over both registries, a successful `RegisterInstance` answers with its own fence exactly if
no other registration of the instance took effect between its two steps. -/
theorem register_returns_own_iff (defaultLease : ℤ) (requests : ℕ → RegisterInstanceRequest) (mint : ℕ → Fence)
    (hmint : Function.Injective fun call => (mint call).token) (events : List Event) :
    (({ store := {} } : Server MemoryRegistry).run MemoryRegistry.store defaultLease requests mint events).Fenced mint ∧
    ∀ keyPrefix revision,
      (({ store := RevStore.empty revision } : Server LeaseStore).run (LeaseStoreRegistry.shared keyPrefix).store
        defaultLease requests mint events).Fenced mint := by
  refine ⟨?_, fun keyPrefix revision => ?_⟩
  · have hstart : ({ store := {} } : Server MemoryRegistry).Invariant requests mint (fun r => ∃ t, r.WellFormed t)
        MemoryRegistry.owner :=
      .start ⟨0, MemoryRegistry.wellFormed_empty 0⟩ fun _ _ => rfl
    exact (hstart.run MemoryRegistry.store_keepsFences hmint defaultLease events).fenced hmint
  · have hstart : ({ store := RevStore.empty revision } : Server LeaseStore).Invariant requests mint
        (LeaseStoreRegistry.shared keyPrefix).Filed (LeaseStoreRegistry.shared keyPrefix).owner :=
      .start (fun key kv h => by simp [RevStore.empty] at h) fun _ _ => rfl
    exact (hstart.run (LeaseStoreRegistry.store_keepsFences keyPrefix) hmint defaultLease events).fenced hmint

/-! ## Two callers of one id -/

def Phase.response : Phase → Option RegisterInstanceResponse
  | .done (.ok response) _ => some response
  | _ => none

def sameInstance (_ : ℕ) : RegisterInstanceRequest where
  inst := some { id := "a", service := "svc", address := "10.0.0.1:80" }

def tally (call : ℕ) : Fence where
  epoch := String.ofList (List.replicate call 'e')
  token := String.ofList (List.replicate call 't')

theorem tally_injective : Function.Injective fun call => (tally call).token := by
  intro call call' h
  have hlength := congrArg List.length (String.ofList_injective h)
  simpa using hlength

theorem concurrent_callers_share_token :
    let s := ({ store := {} } : Server MemoryRegistry).run MemoryRegistry.store 30000000000 sameInstance tally
      [.register 1 {}, .register 2 {}, .answer 1 {}, .answer 2 {}]
    (s.phase 1).response.map RegisterInstanceResponse.ownerToken = some (tally 2).token ∧
    (s.phase 2).response.map RegisterInstanceResponse.ownerToken = some (tally 2).token ∧
    (tally 1).token ≠ (tally 2).token := by
  decide +kernel

theorem consecutive_callers_fenced :
    (({ store := {} } : Server MemoryRegistry).run MemoryRegistry.store 30000000000 sameInstance tally
      [.register 1 {}, .answer 1 {}, .register 2 {}, .answer 2 {}]).Fenced tally :=
  (register_returns_own_iff 30000000000 sameInstance tally tally_injective _).1

end AegisMesh.Controller
