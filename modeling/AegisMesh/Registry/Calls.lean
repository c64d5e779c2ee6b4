import AegisMesh.Registry.Leases

/-!
# Calls on the in-memory registry

`perform_cases` says once what a call can do: write one record, fail, read, or sweep.
-/

open Lib

namespace AegisMesh.Registry

inductive MemoryCall
  | register (inst : Instance) (ttl : ℤ) (epoch token : String)
  | heartbeat (service id : String) (ttl : ℤ)
  | heartbeatWithEpoch (service id registrationEpoch : String) (ttl : ℤ)
  | heartbeatWithOwner (service id registrationEpoch ownerToken : String) (ttl : ℤ)
  | list (service : String)
  | snapshot (service : String)
  | sweepExpired

structure TimedCall where
  call : MemoryCall
  now : ℕ
  ctx : Ctx := .background

inductive Answer
  | done (err : Option RegistryError)
  | instances (result : Except RegistryError (List Instance))
  | snapshot (result : Except RegistryError InstanceSnapshot)
  | expired (count : ℕ)

namespace MemoryRegistry

def perform (r : MemoryRegistry) (c : TimedCall) : MemoryRegistry × Answer :=
  match c.call with
  | .register inst ttl epoch token =>
    let out := r.registerAt c.ctx inst ttl c.now epoch token
    (out.1, .done out.2)
  | .heartbeat service id ttl =>
    let out := r.heartbeatAt c.ctx service id ttl c.now
    (out.1, .done out.2)
  | .heartbeatWithEpoch service id epoch ttl =>
    let out := r.heartbeatWithEpoch c.ctx service id epoch ttl c.now
    (out.1, .done out.2)
  | .heartbeatWithOwner service id epoch token ttl =>
    let out := r.heartbeatWithOwner c.ctx service id epoch token ttl c.now
    (out.1, .done out.2)
  | .list service =>
    let out := r.list c.ctx service c.now
    (out.1, .instances out.2)
  | .snapshot service =>
    let out := r.snapshot c.ctx service c.now
    (out.1, .snapshot out.2)
  | .sweepExpired =>
    let out := r.sweepExpired c.ctx c.now
    (out.1, .expired out.2)

def step (r : MemoryRegistry) (c : TimedCall) : MemoryRegistry := (r.perform c).1

def run (r : MemoryRegistry) (calls : List TimedCall) : MemoryRegistry := calls.foldl step r

/-! ## Heartbeats as one call -/

structure Beat where
  service : String
  id : String
  epoch : String
  token : String
  ttl : ℤ
  requireEpoch : Bool
  requireOwner : Bool

end MemoryRegistry

open MemoryRegistry (Beat)

/-- What a call passes to `heartbeatAtWithOwner`, unless it has refused an empty fence before. -/
def MemoryCall.beat : MemoryCall → Option Beat
  | .heartbeat service id ttl => some ⟨service, id, "", "", ttl, false, false⟩
  | .heartbeatWithEpoch service id epoch ttl =>
    if epoch = "" then none else some ⟨service, id, epoch, "", ttl, true, false⟩
  | .heartbeatWithOwner service id epoch token ttl =>
    if epoch = "" ∨ token = "" then none else some ⟨service, id, epoch, token, ttl, true, true⟩
  | _ => none

def MemoryCall.reads : MemoryCall → Option String
  | .list service => some service
  | .snapshot service => some service
  | _ => none

def MemoryCall.target : MemoryCall → Option (String × String × ℤ)
  | .register inst ttl _ _ => some (inst.service, inst.id, ttl)
  | .heartbeat service id ttl => some (service, id, ttl)
  | .heartbeatWithEpoch service id _ ttl => some (service, id, ttl)
  | .heartbeatWithOwner service id _ _ ttl => some (service, id, ttl)
  | _ => none

theorem MemoryCall.target_of_beat {call : MemoryCall} {b : Beat} (h : call.beat = some b) :
    call.target = some (b.service, b.id, b.ttl) := by
  rcases call with _ | _ | _ | _ | _ | _ | _ <;> simp only [beat, target] at h ⊢
  all_goals first | contradiction | skip
  · cases h; rfl
  · split_ifs at h; cases h; rfl
  · split_ifs at h; cases h; rfl

namespace MemoryRegistry

variable {r r' : MemoryRegistry} {now t : ℕ} {c : TimedCall} {record : Record}

def beatAt (r : MemoryRegistry) (ctx : Ctx) (b : Beat) (now : ℕ) : MemoryRegistry × Option RegistryError :=
  r.heartbeatAtWithOwner ctx b.service b.id b.epoch b.token b.ttl now b.requireEpoch b.requireOwner

def judge (lease : Option Record) (ctx : Ctx) (b : Beat) : Option RegistryError :=
  if ctx 0 then some .context
  else if b.service = "" ∨ b.id = "" ∨ b.ttl ≤ 0 then some .invalidInstance
  else
    match lease with
    | none => some .instanceNotFound
    | some record => checkFence record b.epoch b.token b.requireEpoch b.requireOwner

theorem beatAt_err (r : MemoryRegistry) (ctx : Ctx) (b : Beat) (now : ℕ) :
    (r.beatAt ctx b now).2 = judge (r.lease b.service b.id) ctx b := by
  rw [beatAt, heartbeatAtWithOwner_err]
  unfold validateHeartbeatWithOwner judge lease
  split
  · rfl
  split
  · rfl
  rcases r.services.lookup b.service with _ | s
  · rfl
  · rcases hrec : s.records.lookup b.id with _ | record <;> simp [hrec]

/-! ## Writing a record -/

def write (r : MemoryRegistry) (record : Record) (now : ℕ) : MemoryRegistry :=
  ({ r with generation := r.generation + 1 }.putRecord record now).pushExpiry (entryOf record)

theorem lease_write (r : MemoryRegistry) (record : Record) (now : ℕ) (service id : String) :
    (r.write record now).lease service id =
      if service = record.inst.service ∧ id = record.inst.id then some record else r.lease service id := by
  unfold write
  rw [lease_congr (services_pushExpiry _ _), lease_putRecord]
  rfl

theorem WellFormed.write (h : r.WellFormed t) (hle : now ≤ t) (record : Record) : (r.write record now).WellFormed t :=
  WellFormed.congr (WellFormed.putRecord (h.congr rfl) hle record) (services_pushExpiry _ _)

def newRecord (r : MemoryRegistry) (inst : Instance) (ttl : ℤ) (now : ℕ) (epoch token : String) : Record where
  inst := { inst with
    status := inst.status.normalized
    lastSeen := now
    registrationEpoch := epoch
    ownerToken := token
    labels := cloneLabels inst.labels }
  expiresAt := addTTL now ttl
  generation := r.generation + 1

theorem registerAt_eq (r : MemoryRegistry) (ctx : Ctx) (inst : Instance) (ttl : ℤ) (now : ℕ) (epoch token : String) :
    r.registerAt ctx inst ttl now epoch token =
      if ctx 0 then (r, some .context)
      else if !inst.named || ttl ≤ 0 then (r, some .invalidInstance)
      else (r.write (r.newRecord inst ttl now epoch token) now, none) := by
  unfold registerAt
  by_cases hnamed : inst.named = true <;> by_cases httl : ttl ≤ 0 <;> simp [hnamed, httl, write, newRecord]

def drawnBy (r : MemoryRegistry) (ctx : Ctx) (b : Beat) : ℕ :=
  if ctx 0 ∨ b.service = "" ∨ b.id = "" ∨ b.ttl ≤ 0 ∨ r.services.lookup b.service = none then 0 else 1

theorem WellFormed.beatAt_eq (h : r.WellFormed t) (ctx : Ctx) (b : Beat) (now : ℕ) :
    (∃ record, r.lease b.service b.id = some record ∧
      r.beatAt ctx b now = (r.write (record.renew now b.ttl (r.generation + 1)) now, none)) ∨
    (∃ err, r.beatAt ctx b now = ({ r with generation := r.generation + r.drawnBy ctx b }, some err)) := by
  unfold beatAt heartbeatAtWithOwner
  split
  · rename_i hctx
    exact Or.inr ⟨.context, by simp [drawnBy, hctx]⟩
  split
  · rename_i hargs
    refine Or.inr ⟨.invalidInstance, ?_⟩
    rcases hargs with hargs | hargs | hargs <;> simp [drawnBy, hargs]
  rename_i hctx hargs
  simp only [not_or, not_le] at hargs
  rcases hs : r.services.lookup b.service with _ | s
  · exact Or.inr ⟨.instanceNotFound, by simp [drawnBy, hs]⟩
  have hdrawn : r.drawnBy ctx b = 1 := by simp [drawnBy, hs, hctx, hargs]
  rw [hdrawn, lease_of_lookup hs]
  dsimp only
  rcases hrec : s.records.lookup b.id with _ | record
  · exact Or.inr ⟨_, rfl⟩
  dsimp only
  rcases hf : checkFence record b.epoch b.token b.requireEpoch b.requireOwner with _ | err
  · refine Or.inl ⟨record, rfl, ?_⟩
    obtain ⟨hservice, hid⟩ := h.own ((lease_of_lookup hs b.id).trans hrec)
    have hstate : ({ r with generation := r.generation + 1 } : MemoryRegistry).serviceState b.service = s :=
      serviceState_of_lookup hs
    simp only [MemoryRegistry.write, MemoryRegistry.putRecord, Record.renew, hservice, hid, hstate, entryOf]
  · exact Or.inr ⟨_, rfl⟩

/-! ## What a call can do -/

def writes (r : MemoryRegistry) (c : TimedCall) : Option Record :=
  match c.call, c.call.beat with
  | .register inst ttl epoch token, _ =>
    if c.ctx 0 then none
    else if !inst.named || ttl ≤ 0 then none
    else some (r.newRecord inst ttl c.now epoch token)
  | _, some b =>
    if (judge (r.lease b.service b.id) c.ctx b).isSome then none
    else (r.lease b.service b.id).map fun record => record.renew c.now b.ttl (r.generation + 1)
  | _, none => none

def draws (r : MemoryRegistry) (c : TimedCall) : ℕ :=
  match c.call.beat with
  | some b => r.drawnBy c.ctx b
  | none => 0

theorem WellFormed.perform_beat (h : r.WellFormed t) {b : Beat} (hb : c.call.beat = some b)
    (hperform : r.perform c = ((r.beatAt c.ctx b c.now).1, .done (r.beatAt c.ctx b c.now).2)) :
    (∃ record, r.writes c = some record ∧ r.perform c = (r.write record c.now, .done none)) ∨
    (∃ err, r.writes c = none ∧
      r.perform c = ({ r with generation := r.generation + r.draws c }, .done (some err))) := by
  have hwrites : r.writes c = if (judge (r.lease b.service b.id) c.ctx b).isSome then none
      else (r.lease b.service b.id).map fun record => record.renew c.now b.ttl (r.generation + 1) := by
    unfold writes
    rw [hb]
    rcases hcall : c.call with _ | _ | _ | _ | _ | _ | _ <;> first | rfl | simp [hcall, MemoryCall.beat] at hb
  have hdraws : r.draws c = r.drawnBy c.ctx b := by rw [draws, hb]
  rw [hwrites, hperform, ← beatAt_err r c.ctx b c.now, hdraws]
  rcases h.beatAt_eq c.ctx b c.now with ⟨record, hrec, heq⟩ | ⟨err, heq⟩
  · exact Or.inl ⟨record.renew c.now b.ttl (r.generation + 1), by simp [heq, hrec], by rw [heq]⟩
  · exact Or.inr ⟨err, by simp [heq], by rw [heq]⟩

theorem WellFormed.perform_cases (h : r.WellFormed t) (c : TimedCall) :
    (∃ record, r.writes c = some record ∧ r.perform c = (r.write record c.now, .done none)) ∨
    (∃ err, r.writes c = none ∧
      r.perform c = ({ r with generation := r.generation + r.draws c }, .done (some err))) ∨
    (∃ service, c.call.reads = some service ∧ r.writes c = none ∧
      (r.perform c).1 = (r.snapshot c.ctx service c.now).1) ∨
    (c.call = .sweepExpired ∧ r.writes c = none ∧
      r.perform c = ((r.sweepExpired c.ctx c.now).1, .expired (r.sweepExpired c.ctx c.now).2)) := by
  have hbeat : ∀ b, c.call.beat = some b →
      r.perform c = ((r.beatAt c.ctx b c.now).1, .done (r.beatAt c.ctx b c.now).2) → _ :=
    fun b hb hp => h.perform_beat hb hp
  rcases c with ⟨call, now, ctx⟩
  rcases call with ⟨inst, ttl, epoch, token⟩ | ⟨service, id, ttl⟩ | ⟨service, id, epoch, ttl⟩ |
    ⟨service, id, epoch, token, ttl⟩ | service | service | _
  · simp only [perform, writes, draws, MemoryCall.beat, registerAt_eq]
    by_cases hctx : ctx 0 = true
    · exact Or.inr (Or.inl ⟨.context, by simp [hctx], by simp [hctx]⟩)
    by_cases hargs : (!inst.named || ttl ≤ 0) = true
    · exact Or.inr (Or.inl ⟨.invalidInstance, by simp [hctx, hargs], by simp [hctx, hargs]⟩)
    · exact Or.inl ⟨_, by simp only [hctx, hargs]; rfl, by simp only [hctx, hargs]; rfl⟩
  · exact (hbeat _ rfl rfl).imp_right Or.inl
  · by_cases hempty : epoch = ""
    · exact Or.inr (Or.inl ⟨.invalidInstance, by simp [writes, MemoryCall.beat, hempty],
        by simp [perform, heartbeatWithEpoch, draws, MemoryCall.beat, hempty]⟩)
    · exact (hbeat _ (if_neg hempty) (by simp [perform, heartbeatWithEpoch, hempty, beatAt])).imp_right Or.inl
  · by_cases hempty : epoch = "" ∨ token = ""
    · exact Or.inr (Or.inl ⟨.invalidInstance, by simp [writes, MemoryCall.beat, hempty],
        by simp [perform, heartbeatWithOwner, draws, MemoryCall.beat, hempty]⟩)
    · exact (hbeat _ (if_neg hempty) (by simp [perform, heartbeatWithOwner, hempty, beatAt])).imp_right Or.inl
  · exact Or.inr (Or.inr (Or.inl ⟨service, rfl, rfl, rfl⟩))
  · exact Or.inr (Or.inr (Or.inl ⟨service, rfl, rfl, rfl⟩))
  · exact Or.inr (Or.inr (Or.inr ⟨rfl, rfl, rfl⟩))

theorem WellFormed.step_of_writes (h : r.WellFormed t) (hwrites : r.writes c = some record) :
    r.step c = r.write record c.now := by
  rcases h.perform_cases c with ⟨record', hw, heq⟩ | ⟨err, hw, -⟩ | ⟨service, -, hw, -⟩ | ⟨-, hw, -⟩ <;> rw [hwrites] at hw <;>
    cases hw
  rw [MemoryRegistry.step, heq]

theorem step_of_reads {service : String} (hreads : c.call.reads = some service) :
    r.step c = (r.snapshot c.ctx service c.now).1 := by
  unfold MemoryRegistry.step perform
  rcases hcall : c.call with _ | _ | _ | _ | _ | _ | _ <;> rw [hcall] at hreads <;> cases hreads <;> rfl

theorem step_of_sweep (hcall : c.call = .sweepExpired) : r.step c = (r.sweepExpired c.ctx c.now).1 := by
  unfold MemoryRegistry.step perform
  rw [hcall]

theorem WellFormed.step_of_fails (h : r.WellFormed t) (hwrites : r.writes c = none) (hreads : c.call.reads = none)
    (hcall : c.call ≠ .sweepExpired) : r.step c = { r with generation := r.generation + r.draws c } := by
  rcases h.perform_cases c with ⟨record, hw, -⟩ | ⟨err, -, heq⟩ | ⟨service, hr, -⟩ | ⟨hsweep, -⟩
  · rw [hwrites] at hw
    cases hw
  · rw [MemoryRegistry.step, heq]
  · rw [hreads] at hr
    cases hr
  · contradiction

theorem list_of_live {ctx : Ctx} (h0 : ctx 0 = false) (h1 : ctx 1 = false) (service : String) (t : ℕ) :
    (r.list ctx service t).2 = (r.list .background service t).2 := by
  simp [list, snapshot, Ctx.background, h0, h1]

theorem writes_cases (h : r.writes c = some record) :
    (∃ inst ttl epoch token, c.call = .register inst ttl epoch token ∧ 0 < ttl ∧
      record = r.newRecord inst ttl c.now epoch token) ∨
    (∃ b old, c.call.beat = some b ∧ 0 < b.ttl ∧ r.lease b.service b.id = some old ∧
      record = old.renew c.now b.ttl (r.generation + 1)) := by
  unfold writes at h
  split at h
  · rename_i _ inst ttl epoch token hcall
    split_ifs at h with hctx hargs
    refine Or.inl ⟨inst, ttl, epoch, token, hcall, ?_, by simpa using h.symm⟩
    simp only [Bool.or_eq_true, decide_eq_true_eq, not_or, not_le] at hargs
    exact hargs.2
  · rename_i b hb _
    split_ifs at h with hjudge
    obtain ⟨old, hold, rfl⟩ := Option.map_eq_some_iff.mp h
    refine Or.inr ⟨b, old, hb, ?_, hold, rfl⟩
    unfold judge at hjudge
    split_ifs at hjudge with hctx hargs
    · simp at hjudge
    · simp at hjudge
    · omega
  · cases h

theorem WellFormed.target_of_writes (h : r.WellFormed t) (hwrites : r.writes c = some record) :
    ∃ ttl, c.call.target = some (record.inst.service, record.inst.id, ttl) ∧ 0 < ttl ∧
      record.expiresAt = addTTL c.now ttl ∧ record.inst.lastSeen = c.now ∧ record.generation = r.generation + 1 := by
  rcases writes_cases hwrites with ⟨inst, ttl, epoch, token, hcall, httl, rfl⟩ | ⟨b, old, hb, httl, hold, rfl⟩
  · exact ⟨ttl, by rw [hcall]; rfl, httl, rfl, rfl, rfl⟩
  · obtain ⟨hservice, hid⟩ := h.own hold
    refine ⟨b.ttl, ?_, httl, rfl, rfl, rfl⟩
    rw [MemoryCall.target_of_beat hb, ← hservice, ← hid]
    rfl

/-! ## Well-formedness along a run -/

theorem WellFormed.step (h : r.WellFormed t) (hle : c.now ≤ t) : (r.step c).WellFormed t := by
  unfold MemoryRegistry.step
  rcases h.perform_cases c with ⟨record, -, heq⟩ | ⟨err, -, heq⟩ | ⟨service, -, -, heq⟩ | ⟨-, -, heq⟩ <;> rw [heq]
  · exact h.write hle record
  · exact h.congr rfl
  · exact h.snapshot hle c.ctx service
  · exact (sweepExpiredRecords_spec h hle c.ctx).2

theorem WellFormed.dropsExpired_of_writes (h : r.WellFormed t) (hle : c.now ≤ t) (hwrites : r.writes c = none) :
    r.DropsExpired (r.step c) c.now := by
  unfold MemoryRegistry.step
  rcases h.perform_cases c with ⟨record, hsome, -⟩ | ⟨err, -, heq⟩ | ⟨service, -, -, heq⟩ | ⟨-, -, heq⟩
  · rw [hwrites] at hsome
    cases hsome
  · rw [heq]
    exact fun _ _ => Or.inl rfl
  · rw [heq]
    exact r.dropsExpired_snapshot c.ctx service c.now
  · rw [heq]
    exact (sweepExpiredRecords_spec h hle c.ctx).1.dropsExpired

end MemoryRegistry

end AegisMesh.Registry
