import AegisMesh.Registry.Cells

/-!
# Crash recovery of the log-backed registry

The calls keep the cell in memory and the cell in the files in step, as long as no heartbeat
revives a lease that a compaction has already left out of the files.
-/

open Lib Lib.Journal

namespace AegisMesh.Registry

/-! ## The invariant -/

structure Recoverable (memory : MemoryRegistry) (files : Files) (b : ℕ) : Prop where
  wellFormed : memory.WellFormed b
  complete : memory.AllComplete
  snapshot : ∀ record ∈ files.snapshot, record.inst.Complete
  wal : ∀ record ∈ files.wal, record.Logged b
  tracks : ∀ service id, Tracks leaseTouch (ExpiredBy b) (memory.cell service id)
    (checkpoint files.snapshot service id) (walOps files.wal service id)

variable {memory : MemoryRegistry}

theorem Stored.recoverable {files : Files} {b : ℕ} (h : Stored memory files b)
    (htracks : ∀ service id, Tracks leaseTouch (ExpiredBy b) (memory.cell service id)
      (checkpoint files.snapshot service id) (walOps files.wal service id)) : Recoverable memory files b :=
  ⟨h.wellFormed, h.complete, h.snapshot, h.wal, htracks⟩

namespace Recoverable

variable {memory memory' : MemoryRegistry} {files : Files} {b b' : ℕ}

theorem stored (h : Recoverable memory files b) : Stored memory files b :=
  ⟨h.wellFormed, h.complete, h.snapshot, h.wal⟩

theorem mono (h : Recoverable memory files b) (hle : b ≤ b') : Recoverable memory files b' :=
  (h.stored.mono hle).recoverable fun service id => (h.tracks service id).mono fun _ hdead => le_trans hdead hle

end Recoverable

namespace FileRegistryV2

variable (cfg : FileConfig) (env : Env) {r r' : FileRegistryV2}

def Sound (r : FileRegistryV2) : Prop := Recoverable r.memory r.files (env.latest r.ticks)

variable {env} {ok : Prop}

theorem Sound.tick (h : r.Sound env) : Recoverable r.memory r.files (env.clock r.ticks) :=
  h.mono (env.latest_le _)

theorem Sound.kept (h : r.Sound env) : r.Kept env := h.stored

theorem Sound.turning (h : r.Sound env) (hok : ok) (hturning : Turning env ok r r') : r'.Sound env := by
  refine Stored.recoverable hturning.kept fun service id => ?_
  exact hturning.cells (I := fun b c => Tracks leaseTouch (ExpiredBy b) c.value c.saved c.ops)
    ⟨fun hle hc => hc.mono fun _ hdead => le_trans hdead hle, fun hturns hc => hc.turns hok hturns⟩ service id
    (h.tracks service id)

theorem Sound.registered (h : r.Sound env) {inst : Instance} (hnamed : inst.named = true) {ttl : ℤ} (httl : 0 < ttl) :
    (registered cfg env r inst ttl).Sound env := by
  refine Stored.recoverable (kept_registered cfg h.kept hnamed httl) fun service id => ?_
  have hcell : (FileRegistryV2.registered cfg env r inst ttl).cell service id = _ :=
    cell_registered cfg r hnamed ttl service id
  by_cases hkey : inst.service = service ∧ inst.id = id
  · rw [if_pos hkey] at hcell
    have htracks : Tracks leaseTouch (ExpiredBy (env.clock (r.ticks + 1))) _ (r.cell service id).saved _ :=
      tracks_set _ (r.cell service id).ops ⟨(r.minting env inst).seen, addTTL (env.clock r.ticks) ttl⟩
    exact (congrArg (fun c : Cell Lease (ℕ × ℤ) => Tracks leaseTouch _ c.value c.saved c.ops) hcell).mpr htracks
  · rw [if_neg hkey] at hcell
    have htracks := (h.tick.mono (env.clock_mono (Nat.le_succ _))).tracks service id
    exact (congrArg (fun c : Cell Lease (ℕ × ℤ) => Tracks leaseTouch _ c.value c.saved c.ops) hcell).mpr htracks

theorem Sound.register (h : r.Sound env) (ctx : Ctx) (inst : Instance) (ttl : ℤ) :
    (r.register cfg env ctx inst ttl).1.Sound env := by
  rcases r.register_cases cfg env ctx inst ttl with ⟨r', err, -, heq, hmemory, hfiles, hticks⟩ |
    ⟨hnamed, httl, -, -, heq⟩ <;> rw [heq]
  · exact h.turning trivial (h.kept.idle hmemory hfiles hticks)
  · have hregistered := h.registered cfg hnamed httl
    exact hregistered.turning trivial (hregistered.kept.maybeCompact cfg _)

/-! ## Opening the files -/

/-- Halfway through `NewFileRegistryV2`: memory holds what `snapshot` and `wal`, the part
read so far, rebuild. The files were closed by time `b`. -/
structure Loaded (env : Env) (r : FileRegistryV2) (snapshot : List FileRecord) (wal : List WALRecord) (b : ℕ) :
    Prop where
  reading : b ≤ env.clock r.ticks
  wellFormed : r.memory.WellFormed (max b (env.latest r.ticks))
  complete : r.memory.AllComplete
  cells : ∀ service id, r.memory.cell service id = Files.cell { snapshot, wal } service id

variable {snapshot : List FileRecord} {wal : List WALRecord} {b : ℕ}

theorem Loaded.before (h : Loaded env r snapshot wal b) : max b (env.latest r.ticks) ≤ env.clock r.ticks :=
  max_le h.reading (env.latest_le _)

theorem Loaded.restore (h : Loaded env r snapshot wal b) {inst : Instance} (hinst : inst.Complete) (expiresAt : ℕ)
    {snapshot' : List FileRecord} {wal' : List WALRecord}
    (hcells : ∀ service id, Files.cell { snapshot := snapshot', wal := wal' } service id =
      if service = inst.service ∧ id = inst.id then some ⟨inst.seen, expiresAt⟩
      else Files.cell { snapshot, wal } service id) :
    Loaded env (r.restore env inst expiresAt) snapshot' wal' b where
  reading := le_trans h.reading (env.clock_mono (Nat.le_succ _))
  wellFormed := ((h.wellFormed.mono h.before).restoreHistorical _ _ _ _).mono (le_max_right _ _)
  complete := h.complete.restoreHistorical hinst _ _ _ _
  cells service id := by
    rw [FileRegistryV2.restore, MemoryRegistry.cell_restoreHistorical _ hinst, hcells, h.cells]

theorem loadSnapshot_spec (snapshot : List FileRecord) (hsnap : ∀ record ∈ snapshot, record.inst.Complete)
    (h : Loaded env r [] [] b) :
    Loaded env (snapshot.foldl (fun r record => r.restore env record.inst record.expiresAt) r) snapshot [] b ∧
    (snapshot.foldl (fun r record => r.restore env record.inst record.expiresAt) r).files = r.files := by
  induction snapshot using List.reverseRecOn with
  | nil => exact ⟨h, rfl⟩
  | append_singleton snapshot last ih =>
    obtain ⟨hloaded, hfiles⟩ := ih fun record hr => hsnap record (by simp [hr])
    rw [List.foldl_append]
    refine ⟨hloaded.restore (hsnap last (by simp)) last.expiresAt fun service id => ?_, hfiles⟩
    simp only [Files.cell, walOps, List.filter_nil, List.filterMap_nil, replay_nil, checkpoint_snoc]
    simp only [eq_comm]
    rfl

theorem cell_snoc (snapshot : List FileRecord) (wal : List WALRecord) (record : WALRecord) (service id : String) :
    Files.cell { snapshot, wal := wal ++ [record] } service id =
      if service = record.service ∧ id = record.id then
        record.cellOp.toList.foldl (Journal.step leaseTouch) (Files.cell { snapshot, wal } service id)
      else Files.cell { snapshot, wal } service id := by
  simp only [Files.cell, walOps_snoc]
  by_cases h : record.service = service ∧ record.id = id
  · rw [if_pos h, if_pos ⟨h.1.symm, h.2.symm⟩]
    simp [replay]
  · rw [if_neg h, if_neg (fun h' => h ⟨h'.1.symm, h'.2.symm⟩)]

theorem Loaded.heartbeat (h : Loaded env r snapshot wal b) {record : WALRecord} (hlogged : record.Logged b)
    (hop : record.op = .heartbeat) :
    ∃ memory err, r.memory.heartbeatAt .background record.service record.id record.ttl record.timestamp = (memory, err) ∧
      (err = none ∨ err = some .instanceNotFound) ∧
      Loaded env { r with memory } snapshot (wal ++ [record]) b := by
  have hparse := hlogged.parses
  simp only [WALRecord.parses, hop, Bool.and_eq_true, decide_eq_true_eq] at hparse
  obtain ⟨⟨⟨⟨hs, hi⟩, -⟩, -⟩, httl⟩ := hparse
  have hwf := h.wellFormed.heartbeat (le_trans hlogged.timestamp (le_max_left _ _)) .background record.service
    record.id "" "" record.ttl false false
  have herr := r.memory.heartbeatAtWithOwner_err .background record.service record.id "" "" record.ttl
    record.timestamp false false
  rw [MemoryRegistry.validate_unfenced hs hi httl] at herr
  unfold MemoryRegistry.heartbeatAt
  rcases r.memory.heartbeatAtWithOwner_cases .background record.service record.id "" "" record.ttl record.timestamp
    false false with ⟨memory, err, hbeat, hserv⟩ | ⟨memory, s, rec₀, hs₀, hrec₀, hbeat, -⟩
  · rw [hbeat] at hwf herr
    -- The record is missing, here and in the cell that the files rebuild.
    have hnone : r.memory.lease record.service record.id = none := by
      by_contra hne
      simp [Option.isSome_iff_ne_none.mpr hne] at herr
    refine ⟨memory, some err, hbeat, Or.inr (by simpa [hnone] using herr), h.reading, hwf, ?_, fun service id => ?_⟩
    · intro service id record' hl
      exact h.complete _ _ _ (MemoryRegistry.lease_congr hserv _ _ ▸ hl)
    · have hsame : memory.cell service id = r.memory.cell service id := by
        rw [MemoryRegistry.cell, MemoryRegistry.lease_congr hserv, MemoryRegistry.cell]
      rw [hsame, cell_snoc, WALRecord.cellOp, hop, ← h.cells]
      split
      · rename_i hk
        simp [hk, MemoryRegistry.cell, hnone, Journal.step]
      · rfl
  · rw [hbeat] at hwf
    refine ⟨memory, none, hbeat, Or.inl rfl, h.reading, hwf, h.complete.heartbeat hbeat, fun service id => ?_⟩
    rw [cell_snoc, WALRecord.cellOp, hop, ← h.cells, MemoryRegistry.cell_heartbeat hbeat]
    split
    · rename_i hk
      rw [hk.1, hk.2]
      cases r.memory.cell record.service record.id <;> rfl
    · rfl

theorem Loaded.applyWALRecord (h : Loaded env r snapshot wal b) {record : WALRecord} (hlogged : record.Logged b) :
    ∃ r', r.applyWALRecord env record = .ok r' ∧ Loaded env r' snapshot (wal ++ [record]) b ∧
      r'.files = r.files := by
  unfold FileRegistryV2.applyWALRecord
  cases hop : record.op with
  | register =>
    refine ⟨_, rfl, h.restore (hlogged.complete hop) _ fun service id => ?_, rfl⟩
    rw [cell_snoc, WALRecord.cellOp, hop]
    rfl
  | heartbeat =>
    obtain ⟨memory, err, hbeat, herr, hloaded⟩ := h.heartbeat hlogged hop
    dsimp only
    rw [hbeat]
    rcases herr with rfl | rfl
    · exact ⟨_, rfl, hloaded, rfl⟩
    · exact ⟨_, rfl, hloaded, rfl⟩
  | deleteExpired =>
    refine ⟨_, rfl, ⟨h.reading, ?_, ?_, fun service id => ?_⟩, rfl⟩
    · exact h.wellFormed.deleteRecord (le_trans hlogged.timestamp (le_max_left _ _)) _ _
    · intro service id record' hl
      rw [MemoryRegistry.lease_deleteRecord] at hl
      split at hl
      · cases hl
      · exact h.complete _ _ _ hl
    · rw [cell_snoc, WALRecord.cellOp, hop, MemoryRegistry.cell, MemoryRegistry.lease_deleteRecord]
      split
      · rfl
      · exact h.cells service id
  | snapshotMark =>
    refine ⟨r, rfl, ⟨h.reading, h.wellFormed, h.complete, fun service id => ?_⟩, rfl⟩
    rw [cell_snoc, WALRecord.cellOp, hop, h.cells]
    simp

theorem replay_spec (rest : List WALRecord) : ∀ {r : FileRegistryV2} {wal : List WALRecord},
    Loaded env r snapshot wal b → (∀ record ∈ rest, record.Logged b) →
      ∃ r', rest.foldlM (FileRegistryV2.applyWALRecord env) r = .ok r' ∧ Loaded env r' snapshot (wal ++ rest) b ∧
        r'.files = r.files := by
  induction rest with
  | nil => intro r wal h _; exact ⟨r, rfl, by simpa using h, rfl⟩
  | cons record rest ih =>
    intro r wal h hall
    obtain ⟨r₁, happly, h₁, hfiles₁⟩ := h.applyWALRecord (hall record (by simp))
    obtain ⟨r₂, hrest, h₂, hfiles₂⟩ := ih h₁ fun record' hr => hall record' (by simp [hr])
    refine ⟨r₂, ?_, by simpa using h₂, hfiles₂.trans hfiles₁⟩
    rw [List.foldlM_cons, happly]
    exact hrest

theorem replayWAL_eq (r : FileRegistryV2) (h : ∀ record ∈ r.files.wal, record.parses = true) :
    r.replayWAL env = r.files.wal.foldlM (FileRegistryV2.applyWALRecord env) r := by
  unfold FileRegistryV2.replayWAL
  rw [List.takeWhile_eq_self_iff.mpr h]

theorem Loaded.swept {files : Files} (h : Loaded env r files.snapshot files.wal b)
    (hsnap : ∀ record ∈ files.snapshot, record.inst.Complete) (hwal : ∀ record ∈ files.wal, record.Logged b) :
    (∀ service id, Rebuilt leaseTouch (ExpiredBy (env.clock r.ticks))
      ((r.memory.sweepExpired .background (env.clock r.ticks)).1.cell service id)
      (checkpoint files.snapshot service id) (walOps files.wal service id)) ∧
    Recoverable (r.memory.sweepExpired .background (env.clock r.ticks)).1 files (env.clock r.ticks) := by
  obtain ⟨hswept, hwf⟩ := MemoryRegistry.sweepExpiredRecords_spec (h.wellFormed.mono h.before) le_rfl .background
  have hrebuilt : ∀ service id, Rebuilt leaseTouch (ExpiredBy (env.clock r.ticks))
      ((r.memory.sweepExpired .background (env.clock r.ticks)).1.cell service id)
      (checkpoint files.snapshot service id) (walOps files.wal service id) := by
    intro service id
    have hcell : r.memory.cell service id = replay leaseTouch _ _ := h.cells service id
    rcases hswept.dropsExpired service id with hsame | ⟨hnone, record, hl, hexp⟩
    · refine Or.inl ?_
      rw [← hcell]
      exact congrArg (Option.map Record.toLease) hsame
    · refine Or.inr ⟨congrArg (Option.map Record.toLease) hnone, fun lease hlease => ?_⟩
      rw [← hcell, MemoryRegistry.cell, hl] at hlease
      cases hlease
      exact hexp
  refine ⟨hrebuilt, hwf, fun service id record hl => ?_, hsnap, fun record hr => ?_, fun service id => ?_⟩
  · rcases hswept.dropsExpired service id with hsame | ⟨hnone, -⟩
    · exact h.complete _ _ _ (hsame.symm.trans hl)
    · exact absurd (hnone.symm.trans hl) (by simp)
  · exact ⟨(hwal record hr).parses, le_trans (hwal record hr).timestamp h.reading, (hwal record hr).complete⟩
  · exact (hrebuilt service id).tracks

theorem openFiles_spec {files : Files} {ticks : ℕ} (minted : ℕ)
    (hsnap : ∀ record ∈ files.snapshot, record.inst.Complete) (hwal : ∀ record ∈ files.wal, record.Logged b)
    (hb : b ≤ env.clock ticks) :
    ∃ r, openFiles cfg env files ticks minted = .ok r ∧ r.Sound env ∧
      (∀ service id, Rebuilt leaseTouch (ExpiredBy (env.latest r.ticks)) (r.memory.cell service id)
        (checkpoint files.snapshot service id) (walOps files.wal service id)) ∧
      (r.files = files ∨ ∃ now b, r.files =
        { snapshot := snapshotMemoryRegistry r.memory now, wal := [newSnapshotMarkWALRecord b] }) := by
  have hstart : Loaded env { files, ticks, minted } [] [] b :=
    ⟨hb, MemoryRegistry.wellFormed_empty _, fun _ _ _ hl => by simp [MemoryRegistry.lease] at hl, fun _ _ => rfl⟩
  obtain ⟨hloaded, hfiles⟩ := loadSnapshot_spec files.snapshot hsnap hstart
  obtain ⟨r, hreplay, hr, hrfiles⟩ := replay_spec files.wal hloaded hwal
  replace hrfiles : r.files = files := hrfiles.trans hfiles
  have hopen : (loadSnapshot env { files, ticks, minted }).replayWAL env = .ok r := by
    rw [replayWAL_eq, loadSnapshot, hfiles, hreplay]
    rw [loadSnapshot, hfiles]
    exact fun record hr => (hwal record hr).parses
  obtain ⟨hrebuilt, hrecoverable⟩ := Loaded.swept hr hsnap hwal
  have hsound : (r.openWAL cfg env).Sound env := by
    rw [← hrfiles] at hrecoverable
    exact hrecoverable
  unfold openFiles
  rw [hopen]
  simp only [bind, Except.bind]
  split
  · -- The log is long enough to be compacted at once.
    obtain ⟨r', hcompact, hmemory, hticks, hcompacted⟩ := compact_background cfg env (r.openWAL cfg env)
    have hsound' := hsound.turning trivial (hsound.kept.compact cfg .background)
    rw [hcompact] at hsound' ⊢
    refine ⟨r', rfl, hsound', fun service id => ?_, Or.inr ⟨_, _, hmemory ▸ hcompacted⟩⟩
    rw [hmemory]
    exact (hrebuilt service id).mono fun _ hdead => le_trans hdead (env.latest_mono hticks)
  · exact ⟨_, rfl, hsound, hrebuilt, Or.inl hrfiles⟩

/-! ## Restarts -/

theorem ticks_le_applyWALRecord (h : r.applyWALRecord env record = .ok r') : r.ticks ≤ r'.ticks := by
  unfold FileRegistryV2.applyWALRecord at h
  split at h
  · cases h
    exact Nat.le_succ _
  · split at h <;> cases h <;> exact le_rfl
  · cases h
    exact le_rfl
  · cases h
    exact le_rfl

theorem ticks_le_replay {wal : List WALRecord} (h : wal.foldlM (FileRegistryV2.applyWALRecord env) r = .ok r') :
    r.ticks ≤ r'.ticks := by
  induction wal generalizing r with
  | nil =>
    cases h
    exact le_rfl
  | cons record rest ih =>
    rw [List.foldlM_cons] at h
    cases happly : r.applyWALRecord env record with
    | error err =>
      rw [happly] at h
      cases h
    | ok r₁ =>
      rw [happly] at h
      exact (ticks_le_applyWALRecord happly).trans (ih h)

theorem ticks_le_loadSnapshot (r : FileRegistryV2) : r.ticks ≤ (r.loadSnapshot env).ticks := by
  unfold FileRegistryV2.loadSnapshot
  generalize r.files.snapshot = snapshot
  induction snapshot generalizing r with
  | nil => exact le_rfl
  | cons record rest ih => exact (Nat.le_succ r.ticks).trans (ih (r.restore env record.inst record.expiresAt))

theorem ticks_le_openFiles {files : Files} {ticks minted : ℕ} (h : openFiles cfg env files ticks minted = .ok r) :
    ticks ≤ r.ticks := by
  unfold openFiles at h
  cases hreplay : (loadSnapshot env { files, ticks, minted }).replayWAL env with
  | error err =>
    rw [hreplay] at h
    cases h
  | ok r₁ =>
    rw [hreplay] at h
    dsimp only [FileRegistryV2.replayWAL] at hreplay
    have hloaded := ticks_le_replay hreplay
    have hticks : ticks ≤ r₁.ticks := (ticks_le_loadSnapshot { files, ticks, minted }).trans hloaded
    simp only [bind, Except.bind] at h
    split at h
    · obtain ⟨r₂, hcompact, -, hmore, -⟩ := compact_background cfg env (r₁.openWAL cfg env)
      rw [hcompact] at h
      cases h
      exact hticks.trans ((Nat.le_succ _).trans hmore)
    · cases h
      exact hticks.trans (Nat.le_succ _)

theorem Kept.restart (h : r.Kept env) : Lapsing env r (r.step cfg env .restart) := by
  obtain ⟨r', hopen, hsound, hrebuilt, hfiles⟩ := openFiles_spec cfg r.minted (Stored.snapshot h) (Stored.wal h)
    (env.latest_le r.ticks)
  have hstep : r.step cfg env .restart = r' := by
    simp only [FileRegistryV2.step, hopen]
  rw [hstep]
  refine ⟨hsound.stored, ticks_le_openFiles cfg hopen, fun service id => ?_⟩
  refine Relation.ReflTransGen.head (.rebuild (hrebuilt service id)) ?_
  rcases hfiles with heq | ⟨now, b, heq⟩
  · have hcell : r'.cell service id = { r.cell service id with value := r'.memory.cell service id } := by
      unfold cell
      rw [heq]
    rw [hcell]
  · refine .single ?_
    unfold cell
    rw [heq, walOps_mark]
    refine .save (fun lease hl => ?_) (Or.inl rfl)
    exact ((checkpoint_snapshotMemoryRegistry hsound.wellFormed service id lease).mp hl).1

/-! ## Runs -/

end FileRegistryV2

def Call.renewsRecorded (r : FileRegistryV2) : Call → Bool
  | .heartbeat ctx service id ttl =>
    !r.accepts ctx service id "" "" ttl false false || r.files.records service id
  | .heartbeatWithEpoch ctx service id epoch ttl =>
    !r.accepts ctx service id epoch "" ttl true false || r.files.records service id
  | .heartbeatWithOwner ctx service id epoch token ttl =>
    !r.accepts ctx service id epoch token ttl true true || r.files.records service id
  | _ => true

namespace FileRegistryV2

variable (cfg : FileConfig) {env : Env} {r : FileRegistryV2}

theorem Kept.turning (h : r.Kept env) {call : Call} (hlogs : r.logs cfg env call = none) (hcall : call ≠ .restart) :
    Turning env (call.renewsRecorded r = true) r (r.step cfg env call) := by
  cases call with
  | register ctx inst ttl =>
    rcases r.register_cases cfg env ctx inst ttl with ⟨r', err, -, heq, hmemory, hfiles, hticks⟩ | ⟨-, -, -, hlogs', -⟩
    · show Turning env _ r (r.register cfg env ctx inst ttl).1
      rw [heq]
      exact h.idle hmemory hfiles hticks
    · rw [hlogs'] at hlogs
      cases hlogs
  | heartbeat ctx service id ttl => exact h.heartbeatFenced cfg ctx service id "" "" ttl false false fun hok => hok
  | heartbeatWithEpoch ctx service id epoch ttl =>
    simp only [FileRegistryV2.step, heartbeatWithEpoch]
    split
    · exact h.refl
    · exact h.heartbeatFenced cfg ctx service id epoch "" ttl true false fun hok => hok
  | heartbeatWithOwner ctx service id epoch token ttl =>
    simp only [FileRegistryV2.step, heartbeatWithOwner]
    split
    · exact h.refl
    · exact h.heartbeatFenced cfg ctx service id epoch token ttl true true fun hok => hok
  | list ctx service => exact h.snapshot ctx service
  | snapshot ctx service => exact h.snapshot ctx service
  | sweepExpired ctx => exact h.sweepExpired cfg ctx
  | compact ctx => exact h.compact cfg ctx
  | restart => exact absurd rfl hcall

theorem Kept.step (h : r.Kept env) {call : Call} (hlogs : r.logs cfg env call = none) :
    Lapsing env r (r.step cfg env call) := by
  by_cases hcall : call = .restart
  · rw [hcall]
    exact h.restart cfg
  · exact (h.turning cfg hlogs hcall).lapsing

theorem Sound.step (h : r.Sound env) (call : Call) (hok : call.renewsRecorded r = true) :
    (r.step cfg env call).Sound env := by
  cases call with
  | register ctx inst ttl => exact h.register cfg ctx inst ttl
  | restart =>
    obtain ⟨r', hopen, hsound, -⟩ := openFiles_spec cfg r.minted (Recoverable.snapshot h) (Recoverable.wal h)
      (env.latest_le r.ticks)
    unfold FileRegistryV2.step
    dsimp only
    rw [hopen]
    exact hsound
  | _ => exact h.turning hok (h.kept.turning cfg rfl nofun)

theorem sound_new (env : Env) : Sound env {} where
  wellFormed := MemoryRegistry.wellFormed_empty _
  complete _ _ _ hl := by simp [MemoryRegistry.lease] at hl
  snapshot := by simp
  wal := by simp
  tracks _ _ := tracks_none (by simp [Gone, checkpoint, walOps])

/-! ## Recovery -/

end FileRegistryV2

end AegisMesh.Registry
