import AegisMesh.Registry.FileV2
import AegisMesh.Registry.Leases

/-!
# Calls on the log-backed registry

What a call can do to the memory and to the files, said once for each function.
-/

namespace AegisMesh.Registry.FileRegistryV2

variable (cfg : FileConfig) (env : Env)

theorem append_cases (r : FileRegistryV2) (ctx : Ctx) (record : WALRecord) :
    (∃ err, r.append cfg ctx record = (r, some err)) ∨
    (ctx 0 = false ∧ r.append cfg ctx record = ({ r with
      files := { r.files with wal := r.files.wal ++ [record] }
      walSize := r.walSize + cfg.frameLen record }, none)) := by
  unfold append
  split
  · exact Or.inl ⟨_, rfl⟩
  split
  · exact Or.inl ⟨_, rfl⟩
  · rename_i hctx
    exact Or.inr ⟨by simpa using hctx, rfl⟩

/-! ## Compaction -/

theorem compact_cases (r : FileRegistryV2) (ctx : Ctx) :
    r.compact cfg env ctx = (r, some .context) ∨
    ∃ wal walSize err, (wal = r.files.wal ∨ wal = [newSnapshotMarkWALRecord (env.clock (r.ticks + 1))]) ∧
      (err = none ∨ err = some .context) ∧
      r.compact cfg env ctx = ({ r with
        files := { snapshot := snapshotMemoryRegistry r.memory (env.clock r.ticks), wal }
        walSize
        ticks := r.ticks + 2 }, err) := by
  unfold compact
  split
  · exact Or.inl rfl
  · unfold reset
    split
    · exact Or.inr ⟨_, _, _, Or.inl rfl, Or.inr rfl, rfl⟩
    · exact Or.inr ⟨_, _, _, Or.inr rfl, Or.inl rfl, rfl⟩

theorem maybeCompact_cases (r : FileRegistryV2) (ctx : Ctx) :
    r.maybeCompact cfg env ctx = (r, none) ∨ r.maybeCompact cfg env ctx = r.compact cfg env ctx := by
  unfold maybeCompact
  split
  · exact Or.inl rfl
  · exact Or.inr rfl

theorem compact_background (r : FileRegistryV2) :
    ∃ r', r.compact cfg env .background = (r', none) ∧ r'.memory = r.memory ∧ r.ticks ≤ r'.ticks ∧
      r'.files =
        { snapshot := snapshotMemoryRegistry r.memory (env.clock r.ticks)
          wal := [newSnapshotMarkWALRecord (env.clock (r.ticks + 1))] } :=
  ⟨_, rfl, rfl, Nat.le_add_right r.ticks 2, rfl⟩

variable {cfg env}

theorem memory_maybeCompact (r : FileRegistryV2) (ctx : Ctx) : (r.maybeCompact cfg env ctx).1.memory = r.memory := by
  rcases r.maybeCompact_cases cfg env ctx with heq | heq <;> rw [heq]
  rcases r.compact_cases cfg env ctx with heq | ⟨wal, walSize, err, -, -, heq⟩ <;> rw [heq]

theorem compact_err {r : FileRegistryV2} {ctx : Ctx} {err : RegistryError} (h : (r.compact cfg env ctx).2 = some err) :
    err = .context := by
  rcases r.compact_cases cfg env ctx with heq | ⟨wal, walSize, err', -, rfl | rfl, heq⟩ <;> rw [heq] at h <;> cases h <;> rfl

theorem maybeCompact_err {r : FileRegistryV2} {ctx : Ctx} {err : RegistryError}
    (h : (r.maybeCompact cfg env ctx).2 = some err) : err = .context := by
  rcases r.maybeCompact_cases cfg env ctx with heq | heq <;> rw [heq] at h
  · cases h
  · exact compact_err h

theorem maybeCompact_background (r : FileRegistryV2) : (r.maybeCompact cfg env .background).2 = none := by
  rcases r.maybeCompact_cases cfg env .background with heq | heq <;> rw [heq]
  rfl

variable (cfg env)

/-! ## Registrations -/

def logs (cfg : FileConfig) (env : Env) (r : FileRegistryV2) : Call → Option Instance
  | .register ctx inst ttl =>
    if ctx 0 = false ∧ inst.named = true ∧ 0 < ttl ∧ ctx 1 = false ∧
        cfg.encodes (newRegisterWALRecord (r.minting env inst) ttl (env.clock r.ticks)) = true then
      some (r.minting env inst)
    else none
  | _ => none

def registered (cfg : FileConfig) (env : Env) (r : FileRegistryV2) (inst : Instance) (ttl : ℤ) : FileRegistryV2 :=
  restore env
    { memory := r.memory
      files := { r.files with
        wal := r.files.wal ++ [newRegisterWALRecord (r.minting env inst) ttl (env.clock r.ticks)] }
      walSize := r.walSize + cfg.frameLen (newRegisterWALRecord (r.minting env inst) ttl (env.clock r.ticks))
      ticks := r.ticks + 1
      minted := r.minted + 2 }
    (r.minting env inst) (addTTL (env.clock r.ticks) ttl)

theorem register_cases (r : FileRegistryV2) (ctx : Ctx) (inst : Instance) (ttl : ℤ) :
    (∃ r' err, r.logs cfg env (.register ctx inst ttl) = none ∧ r.register cfg env ctx inst ttl = (r', some err) ∧
      r'.memory = r.memory ∧ r'.files = r.files ∧ r.ticks ≤ r'.ticks) ∨
    (inst.named = true ∧ 0 < ttl ∧
      cfg.encodes (newRegisterWALRecord (r.minting env inst) ttl (env.clock r.ticks)) = true ∧
      r.logs cfg env (.register ctx inst ttl) = some (r.minting env inst) ∧
      r.register cfg env ctx inst ttl = (registered cfg env r inst ttl).maybeCompact cfg env (ctx.after 2)) := by
  by_cases hctx : ctx 0 = true
  · exact Or.inl ⟨r, .context, by simp [logs, hctx], by simp [FileRegistryV2.register, hctx], rfl, rfl, le_rfl⟩
  by_cases hargs : (!inst.named || ttl ≤ 0) = true
  · refine Or.inl ⟨r, .invalidInstance, if_neg ?_, by simp only [FileRegistryV2.register, hctx, hargs]; rfl, rfl, rfl,
      le_rfl⟩
    rintro ⟨-, hnamed, hpos, -⟩
    simp only [hnamed, Bool.not_true, Bool.false_or, decide_eq_true_eq] at hargs
    omega
  by_cases henc : cfg.encodes (newRegisterWALRecord (r.minting env inst) ttl (env.clock r.ticks)) = true
  swap
  · refine Or.inl ⟨{ r.tick with minted := r.minted + 2 }, .invalidWALRecord, by simp [logs, henc], ?_, rfl, rfl,
      Nat.le_succ _⟩
    simp [FileRegistryV2.register, hctx, hargs, append, henc]
  by_cases hctx1 : ctx 1 = true
  · refine Or.inl ⟨{ r.tick with minted := r.minted + 2 }, .context, by simp [logs, hctx1], ?_, rfl, rfl,
      Nat.le_succ _⟩
    simp [FileRegistryV2.register, hctx, hargs, append, henc, Ctx.after, hctx1]
  · have hproper : inst.named = true ∧ 0 < ttl := by simpa using hargs
    refine Or.inr ⟨hproper.1, hproper.2, henc, by simp [logs, hctx, hproper, henc, hctx1], ?_⟩
    simp only [FileRegistryV2.register, hctx, hargs, append, henc, Ctx.after, Nat.zero_add, hctx1]
    rfl

/-! ## Heartbeats -/

def accepts (r : FileRegistryV2) (ctx : Ctx) (service id registrationEpoch ownerToken : String) (ttl : ℤ)
    (requireEpoch requireOwner : Bool) : Bool :=
  !ctx 0 && !ctx 1 && (r.memory.validateHeartbeatWithOwner .background service id registrationEpoch ownerToken ttl
    requireEpoch requireOwner).isNone

theorem heartbeatFenced_cases (r : FileRegistryV2) (ctx : Ctx) (service id epoch token : String) (ttl : ℤ)
    (requireEpoch requireOwner : Bool) :
    (∃ r' err, r.heartbeatFenced cfg env ctx service id epoch token ttl requireEpoch requireOwner = (r', some err) ∧
      r'.memory = r.memory ∧ r'.files = r.files ∧ r.ticks ≤ r'.ticks) ∨
    (∃ memory, service ≠ "" ∧ id ≠ "" ∧ r.accepts ctx service id epoch token ttl requireEpoch requireOwner = true ∧
      r.memory.validateHeartbeatWithOwner .background service id epoch token ttl requireEpoch requireOwner = none ∧
      r.memory.heartbeatAtWithOwner .background service id epoch token ttl (env.clock r.ticks) requireEpoch requireOwner =
        (memory, none) ∧
      r.heartbeatFenced cfg env ctx service id epoch token ttl requireEpoch requireOwner =
        maybeCompact cfg env { r.tick with
          memory
          files := { r.files with
            wal := r.files.wal ++ [newHeartbeatWALRecord service id ttl (env.clock r.ticks)] }
          walSize := r.walSize + cfg.frameLen (newHeartbeatWALRecord service id ttl (env.clock r.ticks)) } (ctx.after 2)) := by
  unfold FileRegistryV2.heartbeatFenced
  split
  · exact Or.inl ⟨r, _, rfl, rfl, rfl, le_rfl⟩
  split
  · exact Or.inl ⟨r, _, rfl, rfl, rfl, le_rfl⟩
  rename_i hctx hargs
  push Not at hargs
  have herr := r.memory.heartbeatAtWithOwner_err .background service id epoch token ttl (env.clock r.ticks)
    requireEpoch requireOwner
  dsimp only [FileRegistryV2.tick]
  rcases hvalid : r.memory.validateHeartbeatWithOwner .background service id epoch token ttl requireEpoch requireOwner with
    _ | err
  · rcases append_cases cfg r.tick (ctx.after 1) (newHeartbeatWALRecord service id ttl (env.clock r.ticks)) with
      ⟨err, heq⟩ | ⟨hctx1, heq⟩ <;> dsimp only [FileRegistryV2.tick] at heq ⊢ <;> rw [heq]
    · exact Or.inl ⟨r.tick, err, rfl, rfl, rfl, Nat.le_succ _⟩
    · rcases hbeat : r.memory.heartbeatAtWithOwner .background service id epoch token ttl (env.clock r.ticks) requireEpoch
        requireOwner with ⟨memory, err⟩
      rw [hbeat, hvalid] at herr
      obtain rfl : err = none := herr
      have haccepts : r.accepts ctx service id epoch token ttl requireEpoch requireOwner = true := by
        simp only [Ctx.after] at hctx1
        simp [accepts, hvalid, hctx, hctx1]
      refine Or.inr ⟨memory, hargs.1, hargs.2.1, haccepts, rfl, rfl, ?_⟩
      dsimp only
      rw [hbeat]
  · exact Or.inl ⟨r.tick, err, rfl, rfl, rfl, Nat.le_succ _⟩

/-! ## Sweeps -/

theorem memory_logExpired (r : FileRegistryV2) (expired : ExpiredRecord) :
    (r.logExpired cfg env expired).memory = r.memory := by
  unfold FileRegistryV2.logExpired
  rcases append_cases cfg r.tick .background
    (newDeleteExpiredWALRecord expired.service expired.id (env.clock r.ticks)) with ⟨err, heq⟩ | ⟨-, heq⟩ <;> rw [heq] <;>
    rfl

end AegisMesh.Registry.FileRegistryV2
