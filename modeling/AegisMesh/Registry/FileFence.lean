import AegisMesh.Registry.Fence
import AegisMesh.Registry.Recovery

/-!
# Fences of the log-backed registry

A cell of the journal is set by a `Register` whose record gets into the log, also if the call then fails.
-/

open Lib Lib.Journal

namespace AegisMesh.Registry

namespace FileRegistryV2

variable (cfg : FileConfig) (env : Env) {r r' r'' : FileRegistryV2}

/-! ## What the calls do to a cell -/

structure Quietly (r r' : FileRegistryV2) : Prop where
  kept : r'.Kept env
  cells : ∀ service id, Relation.ReflTransGen (Quiet leaseTouch) (r.cell service id) (r'.cell service id)

variable {env}

theorem Lapsing.quietly (h : Lapsing env r r') : Quietly env r r' := by
  refine ⟨h.kept, fun service id => ?_⟩
  have hquiet : Lapses leaseTouch (ExpiredBy (env.latest r'.ticks)) ≤ Quiet leaseTouch := fun _ _ => Lapses.quiet
  exact Relation.ReflTransGen.mono hquiet _ _ (h.cells service id)

def answer (cfg : FileConfig) (env : Env) (r : FileRegistryV2) : Call → Option RegistryError
  | .register ctx inst ttl => (r.register cfg env ctx inst ttl).2
  | .heartbeat ctx service id ttl => (r.heartbeat cfg env ctx service id ttl).2
  | .heartbeatWithEpoch ctx service id epoch ttl => (r.heartbeatWithEpoch cfg env ctx service id epoch ttl).2
  | .heartbeatWithOwner ctx service id epoch token ttl =>
    (r.heartbeatWithOwner cfg env ctx service id epoch token ttl).2
  | .compact ctx => (r.compact cfg env ctx).2
  | _ => none

end FileRegistryV2

/-! ## Fences over a history -/

/-- The registry with two notes for every name: the fence that the last `Register` minted whose record was
logged, and the last one that returned nil. -/
structure Ledger where
  registry : FileRegistryV2 := {}
  logged : String → String → Option Fence := fun _ _ => none
  succeeded : String → String → Option Fence := fun _ _ => none

namespace Ledger

open FileRegistryV2

def note (notes : String → String → Option Fence) (inst : Instance) :
    String → String → Option Fence :=
  fun service id => if inst.service = service ∧ inst.id = id then some inst.fence else notes service id

def step (cfg : FileConfig) (env : Env) (l : Ledger) (call : Call) : Ledger where
  registry := l.registry.step cfg env call
  logged :=
    match l.registry.logs cfg env call with
    | some inst => note l.logged inst
    | none => l.logged
  succeeded :=
    match call with
    | .register _ inst _ =>
      if l.registry.answer cfg env call = none then note l.succeeded (l.registry.minting env inst) else l.succeeded
    | _ => l.succeeded

def run (cfg : FileConfig) (env : Env) (calls : List Call) : Ledger := calls.foldl (step cfg env) {}

def Fenced (l : Ledger) (service id : String) (lease : Lease) : Prop :=
  l.logged service id = some lease.inst.fence ∧ service.utf8ByteSize ≤ maxNameLen ∧ id.utf8ByteSize ≤ maxNameLen

structure Guarded (env : Env) (l : Ledger) : Prop where
  kept : l.registry.Kept env
  fenced : ∀ service id, Holds leaseTouch (l.Fenced service id) (l.registry.cell service id)

variable {cfg : FileConfig} {env : Env} {l : Ledger}

theorem guarded_start (env : Env) : Guarded env {} where
  kept := ⟨MemoryRegistry.wellFormed_empty _, fun _ _ _ hl => by simp [MemoryRegistry.lease] at hl, by simp, by simp⟩
  fenced service id := ⟨fun lease hl => (nomatch hl), fun lease hl => (nomatch hl)⟩

theorem Fenced.touch {service id : String} (p : ℕ × ℤ) (lease : Lease) (h : l.Fenced service id lease) :
    l.Fenced service id (leaseTouch.touch p lease) := h

theorem step_logged {call : Call} (hlogs : l.registry.logs cfg env call = none) :
    (l.step cfg env call).logged = l.logged := by
  simp only [Ledger.step, hlogs]

theorem encodes_names {record : WALRecord} (h : cfg.encodes record = true) :
    record.service.utf8ByteSize ≤ maxNameLen ∧ record.id.utf8ByteSize ≤ maxNameLen := by
  simp only [FileConfig.encodes, Bool.and_eq_true, decide_eq_true_eq] at h
  exact ⟨h.1.1.1, h.1.1.2⟩

theorem Guarded.register (h : l.Guarded env) {ctx : Ctx} {inst : Instance} {ttl : ℤ} (hnamed : inst.named = true)
    (httl : 0 < ttl)
    (henc : cfg.encodes (newRegisterWALRecord (l.registry.minting env inst) ttl (env.clock l.registry.ticks)) = true)
    (hlogs : l.registry.logs cfg env (.register ctx inst ttl) = some (l.registry.minting env inst))
    (heq : l.registry.register cfg env ctx inst ttl =
      (registered cfg env l.registry inst ttl).maybeCompact cfg env (ctx.after 2)) :
    (l.step cfg env (.register ctx inst ttl)).Guarded env := by
  have hregistry : (l.step cfg env (.register ctx inst ttl)).registry =
      ((registered cfg env l.registry inst ttl).maybeCompact cfg env (ctx.after 2)).1 := congrArg Prod.fst heq
  have hnote : (l.step cfg env (.register ctx inst ttl)).logged = note l.logged (l.registry.minting env inst) := by
    simp only [Ledger.step, hlogs]
  have hcompacted : Turning env True _ _ := (kept_registered cfg h.kept hnamed httl).maybeCompact cfg (ctx.after 2)
  have hquiet := hcompacted.lapsing.quietly
  refine ⟨by rw [hregistry]; exact hquiet.kept, fun service id => ?_⟩
  rw [hregistry]
  refine Holds.quietly ?_ Fenced.touch (hquiet.cells service id)
  rw [cell_registered cfg l.registry hnamed]
  by_cases hkey : inst.service = service ∧ inst.id = id
  · rw [if_pos hkey]
    refine holds_set ⟨?_, ?_⟩ _ _
    · rw [hnote]
      exact if_pos hkey
    · rw [← hkey.1, ← hkey.2]
      exact encodes_names henc
  · rw [if_neg hkey]
    have hsame : (l.step cfg env (.register ctx inst ttl)).Fenced service id = l.Fenced service id := by
      unfold Fenced
      rw [hnote, show note l.logged (l.registry.minting env inst) service id = l.logged service id from if_neg hkey]
    rw [hsame]
    exact h.fenced service id

theorem Guarded.step (h : l.Guarded env) (call : Call) : (l.step cfg env call).Guarded env := by
  have hquiet : l.registry.logs cfg env call = none → (l.step cfg env call).Guarded env := by
    intro hlogs
    have hquiet := (h.kept.step cfg hlogs).quietly
    refine ⟨hquiet.kept, fun service id => ?_⟩
    have hsame : (l.step cfg env call).Fenced service id = l.Fenced service id := by
      unfold Fenced
      rw [step_logged hlogs]
    rw [hsame]
    exact (h.fenced service id).quietly Fenced.touch (hquiet.cells service id)
  cases call with
  | register ctx inst ttl =>
    rcases l.registry.register_cases cfg env ctx inst ttl with ⟨-, -, hlogs, -⟩ | ⟨hnamed, httl, henc, hlogs, heq⟩
    · exact hquiet hlogs
    · exact h.register hnamed httl henc hlogs heq
  | _ => exact hquiet rfl

theorem guarded_run (cfg : FileConfig) (env : Env) (calls : List Call) : (run cfg env calls).Guarded env :=
  run_invariant (fun _ call h => h.step call) (guarded_start env) calls

theorem Guarded.logged_of_lease (h : l.Guarded env) {service id : String} {record : Record}
    (hl : l.registry.memory.lease service id = some record) : l.Fenced service id record.toLease :=
  (h.fenced service id).value record.toLease (congrArg (Option.map Record.toLease) hl)

end Ledger

namespace FileRegistryV2

variable {cfg : FileConfig} {env : Env} {r : FileRegistryV2}

/-! ## What a call answers -/

theorem heartbeatWithOwner_nil {ctx : Ctx} {service id epoch token : String} {ttl : ℤ}
    (h : (r.heartbeatWithOwner cfg env ctx service id epoch token ttl).2 = none) :
    ∃ record generation, r.memory.lease service id = some record ∧ record.inst.fence = ⟨epoch, token⟩ ∧
      ∀ service' id', (r.heartbeatWithOwner cfg env ctx service id epoch token ttl).1.memory.lease service' id' =
        if service' = service ∧ id' = id then some (record.renew (env.clock r.ticks) ttl generation)
        else r.memory.lease service' id' := by
  unfold heartbeatWithOwner at h ⊢
  split at h
  · cases h
  rename_i hempty
  rw [if_neg hempty]
  rcases r.heartbeatFenced_cases cfg env ctx service id epoch token ttl true true with
    ⟨r', err, heq, -⟩ | ⟨memory, -, -, -, hvalid, hbeat, heq⟩
  · rw [heq] at h
    cases h
  · obtain ⟨-, record, hl, hfence⟩ := MemoryRegistry.validate_lease hvalid
    refine ⟨record, r.memory.generation + 1, hl, ?_, fun service' id' => ?_⟩
    · unfold MemoryRegistry.checkFence at hfence
      split_ifs at hfence with hepoch htoken
      simp only [Bool.true_and, decide_eq_true_eq, ne_eq, not_not] at hepoch htoken
      rw [Instance.fence, hepoch, htoken]
    · rw [heq, memory_maybeCompact]
      have hlease := MemoryRegistry.lease_heartbeat hbeat service' id'
      rwa [hl] at hlease

theorem heartbeatWithOwner_held (hkept : r.Kept env) {service id : String} {record : Record}
    (hl : r.memory.lease service id = some record) (hs : service.utf8ByteSize ≤ maxNameLen)
    (hi : id.utf8ByteSize ≤ maxNameLen) :
    (r.heartbeatWithOwner cfg env .background service id record.inst.registrationEpoch record.inst.ownerToken 1).2 = none := by
  obtain ⟨hnamed, -, hepoch, htoken⟩ := hkept.complete _ _ _ hl
  obtain ⟨hid, hservice, -⟩ := Instance.named_iff.mp hnamed
  obtain ⟨rfl, rfl⟩ := hkept.wellFormed.own hl
  have henc : cfg.encodes (newHeartbeatWALRecord record.inst.service record.inst.id 1 (env.clock r.ticks)) = true := by
    simp [FileConfig.encodes, newHeartbeatWALRecord, FileConfig.payloadBytes, hs, hi]
  have hvalid : r.memory.validateHeartbeatWithOwner .background record.inst.service record.inst.id
      record.inst.registrationEpoch record.inst.ownerToken 1 true true = none := by
    obtain ⟨s, hs', hrec⟩ := Option.bind_eq_some_iff.mp hl
    simp [MemoryRegistry.validateHeartbeatWithOwner, Ctx.background, hservice, hid, hs', hrec, MemoryRegistry.checkFence]
  have herr := r.memory.heartbeatAtWithOwner_err .background record.inst.service record.inst.id
    record.inst.registrationEpoch record.inst.ownerToken 1 (env.clock r.ticks) true true
  unfold heartbeatWithOwner heartbeatFenced append
  rw [if_neg (by simp [hepoch, htoken]), if_neg (by simp [Ctx.background]), if_neg (by simp [hservice, hid])]
  dsimp only [FileRegistryV2.tick]
  rw [hvalid] at herr ⊢
  dsimp only
  rw [if_neg (by simp [henc]), if_neg (by simp [Ctx.after, Ctx.background])]
  dsimp only
  rcases hbeat : r.memory.heartbeatAtWithOwner .background record.inst.service record.inst.id
    record.inst.registrationEpoch record.inst.ownerToken 1 (env.clock r.ticks) true true with ⟨memory, err⟩
  obtain rfl : err = none := (congrArg Prod.snd hbeat).symm.trans herr
  exact maybeCompact_background _

theorem heartbeatFenced_refused {ctx : Ctx} {service id epoch token : String} {ttl : ℤ} {requireEpoch requireOwner : Bool}
    {err : RegistryError} (hcontext : err ≠ .context)
    (h : (r.heartbeatFenced cfg env ctx service id epoch token ttl requireEpoch requireOwner).2 = some err) :
    (r.heartbeatFenced cfg env ctx service id epoch token ttl requireEpoch requireOwner).1.memory = r.memory ∧
    (r.heartbeatFenced cfg env ctx service id epoch token ttl requireEpoch requireOwner).1.files = r.files := by
  rcases r.heartbeatFenced_cases cfg env ctx service id epoch token ttl requireEpoch requireOwner with
    ⟨r', err', heq, hmemory, hfiles, -⟩ | ⟨memory, -, -, -, -, -, heq⟩
  · rw [heq]
    exact ⟨hmemory, hfiles⟩
  · rw [heq] at h
    exact absurd (maybeCompact_err h) hcontext

theorem refused_unchanged {call : Call} {err : RegistryError}
    (hrecord : err = .registrationEpochMismatch ∨ err = .instanceNotFound) (h : r.answer cfg env call = some err) :
    (r.step cfg env call).memory = r.memory ∧ (r.step cfg env call).files = r.files := by
  have hcontext : err ≠ .context := by
    rintro rfl
    simp at hrecord
  cases call with
  | register ctx inst ttl =>
    rcases r.register_cases cfg env ctx inst ttl with ⟨r', err', -, heq, hmemory, hfiles, -⟩ | ⟨-, -, -, -, heq⟩
    · simp only [step, heq]
      exact ⟨hmemory, hfiles⟩
    · simp only [answer, heq] at h
      exact absurd (maybeCompact_err h) hcontext
  | heartbeat ctx service id ttl => exact heartbeatFenced_refused hcontext h
  | heartbeatWithEpoch ctx service id epoch ttl =>
    simp only [answer, step, heartbeatWithEpoch] at h ⊢
    split_ifs at h ⊢
    · exact ⟨rfl, rfl⟩
    · exact heartbeatFenced_refused hcontext h
  | heartbeatWithOwner ctx service id epoch token ttl =>
    simp only [answer, step, heartbeatWithOwner] at h ⊢
    split_ifs at h ⊢
    · exact ⟨rfl, rfl⟩
    · exact heartbeatFenced_refused hcontext h
  | compact ctx => exact absurd (compact_err h) hcontext
  | _ => cases h

end FileRegistryV2

/-! ## Fencing -/

namespace Ledger

open FileRegistryV2

def NewestOnly (cfg : FileConfig) (env : Env) (l : Ledger) (service id : String) : Prop :=
  ∀ ctx epoch token ttl, (l.registry.heartbeatWithOwner cfg env ctx service id epoch token ttl).2 = none →
    l.succeeded service id = some ⟨epoch, token⟩

def RenewsOne (cfg : FileConfig) (env : Env) (l : Ledger) (service id : String) : Prop :=
  ∀ ctx epoch token ttl, (l.registry.heartbeatWithOwner cfg env ctx service id epoch token ttl).2 = none →
    ∃ record now generation, l.registry.memory.lease service id = some record ∧
      ∀ service' id', (l.step cfg env (.heartbeatWithOwner ctx service id epoch token ttl)).registry.memory.lease service' id' =
        if service' = service ∧ id' = id then some (record.renew now ttl generation)
        else l.registry.memory.lease service' id'

def RefusesUnchanged (cfg : FileConfig) (env : Env) (l : Ledger) : Prop :=
  ∀ call err, err = .registrationEpochMismatch ∨ err = .instanceNotFound → l.registry.answer cfg env call = some err →
    (l.step cfg env call).registry.memory = l.registry.memory ∧ (l.step cfg env call).registry.files = l.registry.files

theorem Guarded.newestOnly_iff {cfg : FileConfig} {env : Env} {l : Ledger} (h : l.Guarded env) (service id : String) :
    l.NewestOnly cfg env service id ↔
      l.registry.memory.lease service id = none ∨ l.logged service id = l.succeeded service id := by
  rcases hl : l.registry.memory.lease service id with _ | record
  · refine ⟨fun _ => Or.inl rfl, fun _ ctx epoch token ttl hnil => ?_⟩
    obtain ⟨record, -, hheld, -⟩ := heartbeatWithOwner_nil hnil
    rw [hl] at hheld
    cases hheld
  obtain ⟨hlogged, hs, hi⟩ := h.logged_of_lease hl
  constructor
  · intro hnewest
    refine Or.inr (hlogged.trans (hnewest .background _ _ 1 (heartbeatWithOwner_held h.kept hl hs hi)).symm)
  · intro heq ctx epoch token ttl hnil
    obtain ⟨record', -, hheld, hfence, -⟩ := heartbeatWithOwner_nil hnil
    obtain rfl : record = record' := Option.some.inj (hl.symm.trans hheld)
    rw [← heq.resolve_left (by simp), hlogged]
    exact congrArg some hfence

/-- After every history, restarts included, the fence holds for a name exactly if the last `Register` of it that
was logged has also returned nil, or the name is free. -/
theorem fencing_iff (cfg : FileConfig) (env : Env) (calls : List Call) (service id : String) :
    ((run cfg env calls).NewestOnly cfg env service id ↔
      (run cfg env calls).registry.memory.lease service id = none ∨
        (run cfg env calls).logged service id = (run cfg env calls).succeeded service id) ∧
    (run cfg env calls).RenewsOne cfg env service id ∧ (run cfg env calls).RefusesUnchanged cfg env := by
  refine ⟨(guarded_run cfg env calls).newestOnly_iff service id, fun ctx epoch token ttl hnil => ?_,
    fun call err hrecord hanswer => refused_unchanged hrecord hanswer⟩
  obtain ⟨record, generation, hl, -, hlease⟩ := heartbeatWithOwner_nil hnil
  exact ⟨record, _, generation, hl, hlease⟩

def countingEnv : Env where
  clock n := n + 1
  mint n := String.ofList (List.replicate (n + 1) 'x')
  clock_mono m n h := by dsimp only; omega
  clock_pos n := by omega
  mint_ne n h := by simpa using congrArg String.toList h

def alwaysCompacting : FileConfig where
  compactBytes := 1
  payloadLen _ := 0

def cancelledRegister : List Call :=
  [.register .background { id := "a", service := "svc", address := "h:1" } 10,
    .register (fun n => decide (2 ≤ n)) { id := "a", service := "svc", address := "h:2" } 10, .restart]

theorem cancelled_register_fences :
    Function.Injective countingEnv.mint ∧
    ¬(run alwaysCompacting countingEnv cancelledRegister).NewestOnly alwaysCompacting countingEnv "svc" "a" := by
  constructor
  · intro m n h
    have hlength := congrArg (fun s : String => s.toList.length) h
    simpa [countingEnv] using hlength
  · intro hnewest
    have hnil := hnewest .background (countingEnv.mint 4) (countingEnv.mint 5) 10 (by decide)
    revert hnil
    decide

end Ledger

end AegisMesh.Registry
