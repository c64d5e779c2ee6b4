import AegisMesh.Lib.Threads
import AegisMesh.Registry.Calls
import AegisMesh.Registry.Recovery

/-!
# The file registry (`pkg/registry/file_registry.go`)

Every call that writes takes a snapshot, writes it to the one temporary file and renames that file. No lock
is held over the three steps.
-/

open Lib

namespace AegisMesh.Registry

/-- What `snapshot` has collected, kept with the memory and the time that it was taken from. -/
structure FileSnapshot where
  memory : MemoryRegistry
  now : ℕ

def FileSnapshot.records (snap : FileSnapshot) : List FileRecord := snapshotMemoryRegistry snap.memory snap.now

inductive FileContent
  /-- What was there when the process started. -/
  | found (records : List FileRecord)
  | written (snap : FileSnapshot)

def FileContent.records : FileContent → List FileRecord
  | .found records => records
  | .written snap => snap.records

structure FileRegistry where
  memory : MemoryRegistry := {}
  file : Option FileContent := none
  tmp : Option FileSnapshot := none

inductive FileError
  | registry (err : RegistryError)
  | notExist
deriving DecidableEq

inductive FileThread
  | calling (call : WriteCall)
  | persisting
  | writing (snap : FileSnapshot)
  | replacing
  | returned (err : Option FileError)

structure FileChoice where
  now : ℕ
  epoch : String := ""
  token : String := ""

/-- What `restoreRecord` gets for one record: its two clock readings and what it mints. -/
structure Restoring where
  filterNow : ℕ := 0
  now : ℕ := 0
  epoch : String := ""
  token : String := ""

def newFileRegistry (found : List (FileRecord × Restoring)) : FileRegistry where
  memory := found.foldl (fun r rec =>
    r.restoreRecord rec.1.inst rec.1.expiresAt true rec.2.filterNow rec.2.now rec.2.epoch rec.2.token) {}
  file := some (.found (found.map Prod.fst))

def MemoryRegistry.performWrite (r : MemoryRegistry) (call : WriteCall) (c : FileChoice) :
    MemoryRegistry × Option RegistryError :=
  match call with
  | .register ctx inst ttl => r.registerAt ctx inst ttl c.now c.epoch c.token
  | .heartbeat ctx service id ttl => r.heartbeatAt ctx service id ttl c.now
  | .heartbeatWithEpoch ctx service id epoch ttl => r.heartbeatWithEpoch ctx service id epoch ttl c.now
  | .heartbeatWithOwner ctx service id epoch token ttl => r.heartbeatWithOwner ctx service id epoch token ttl c.now

namespace FileRegistry

def move (s : FileRegistry) (t : FileThread) (c : FileChoice) : Option (FileRegistry × FileThread) :=
  match t with
  | .calling call =>
    match s.memory.performWrite call c with
    | (memory, none) => some ({ s with memory }, .persisting)
    | (memory, some err) => some ({ s with memory }, .returned (some (.registry err)))
  | .persisting => some (s, .writing { memory := s.memory, now := c.now })
  | .writing snap => some ({ s with tmp := some snap }, .replacing)
  | .replacing =>
    match s.tmp with
    | none => some (s, .returned (some .notExist))
    | some snap => some ({ s with file := some (.written snap), tmp := none }, .returned none)
  | .returned _ => none

def threads : ThreadSystem FileRegistry FileThread WriteCall FileChoice Empty where
  start := .calling
  move _ := move
  outside _ e := nomatch e

end FileRegistry

structure FileRecord.Agrees (filed : FileRecord) (record : Record) : Prop where
  address : filed.inst.address = record.inst.address
  labels : filed.inst.labels.pairs = record.inst.labels.pairs
  registrationEpoch : filed.inst.registrationEpoch = record.inst.registrationEpoch
  ownerToken : filed.inst.ownerToken = record.inst.ownerToken
  expiresAt : filed.expiresAt = record.expiresAt

namespace MemoryRegistry

variable {old r r' : MemoryRegistry}

structure Since (old r : MemoryRegistry) : Prop where
  generation_le : old.generation ≤ r.generation
  kept : ∀ {service id record}, r.lease service id = some record → record.generation ≤ old.generation →
    old.lease service id = some record

theorem Since.refl (r : MemoryRegistry) : Since r r := ⟨le_rfl, fun h _ => h⟩

theorem Since.write (h : Since old r) {record : Record} (hgen : record.generation = r.generation + 1) (now : ℕ) :
    Since old (r.write record now) := by
  have hle := h.generation_le
  refine ⟨le_trans hle (Nat.le_succ _), fun {service id record'} hl hold => ?_⟩
  rw [lease_write] at hl
  split at hl
  · cases hl
    omega
  · exact h.kept hl hold

theorem Since.draw (h : Since old r) (n : ℕ) : Since old { r with generation := r.generation + n } :=
  ⟨le_trans h.generation_le (Nat.le_add_right _ _), h.kept⟩

end MemoryRegistry

def WriteCall.timed (call : WriteCall) (c : FileChoice) : TimedCall :=
  match call with
  | .register ctx inst ttl => { call := .register inst ttl c.epoch c.token, now := c.now, ctx }
  | .heartbeat ctx service id ttl => { call := .heartbeat service id ttl, now := c.now, ctx }
  | .heartbeatWithEpoch ctx service id epoch ttl =>
    { call := .heartbeatWithEpoch service id epoch ttl, now := c.now, ctx }
  | .heartbeatWithOwner ctx service id epoch token ttl =>
    { call := .heartbeatWithOwner service id epoch token ttl, now := c.now, ctx }

namespace MemoryRegistry

variable {old r r' : MemoryRegistry}

theorem perform_timed (r : MemoryRegistry) (call : WriteCall) (c : FileChoice) :
    r.perform (call.timed c) = ((r.performWrite call c).1, .done (r.performWrite call c).2) := by
  cases call <;> rfl

theorem WellFormed.performWrite_cases {t : ℕ} (h : r.WellFormed t) (call : WriteCall) (c : FileChoice) :
    (∃ record, record.generation = r.generation + 1 ∧ r.performWrite call c = (r.write record c.now, none)) ∨
    ∃ n err, r.performWrite call c = ({ r with generation := r.generation + n }, some err) := by
  have hnow : (call.timed c).now = c.now := by cases call <;> rfl
  rcases h.perform_cases (call.timed c) with ⟨record, hwrites, heq⟩ | ⟨err, -, heq⟩ | ⟨service, hreads, -⟩ | ⟨hsweep, -⟩
  · obtain ⟨-, -, -, -, -, hgen⟩ := h.target_of_writes hwrites
    rw [perform_timed, hnow] at heq
    exact .inl ⟨record, hgen, Prod.ext (Prod.mk.inj heq).1 (Answer.done.inj (Prod.mk.inj heq).2)⟩
  · rw [perform_timed] at heq
    exact .inr ⟨_, err, Prod.ext (Prod.mk.inj heq).1 (Answer.done.inj (Prod.mk.inj heq).2)⟩
  · cases call <;> cases hreads
  · cases call <;> cases hsweep

end MemoryRegistry

/-! ## What is in the files -/

namespace FileRegistry

variable {s s' : FileRegistry} {t t' : FileThread} {snap : FileSnapshot} {memory : MemoryRegistry}

structure Earlier (snap : FileSnapshot) (memory : MemoryRegistry) : Prop where
  wellFormed : ∃ b, snap.memory.WellFormed b
  since : snap.memory.Since memory

structure Sound (s : FileRegistry) : Prop where
  wellFormed : ∃ b, s.memory.WellFormed b
  file : ∀ snap, s.file = some (.written snap) → Earlier snap s.memory
  tmp : ∀ snap, s.tmp = some snap → Earlier snap s.memory

def Persisted (s : FileRegistry) : FileThread → Prop
  | .writing snap => Earlier snap s.memory
  | .returned none => ∃ snap, s.file = some (.written snap)
  | _ => True

structure Follows (s s' : FileRegistry) : Prop where
  earlier : ∀ snap, Earlier snap s.memory → Earlier snap s'.memory
  file : (∃ snap, s.file = some (.written snap)) → ∃ snap, s'.file = some (.written snap)

theorem Persisted.follows (h : s.Persisted t) (hfollows : Follows s s') : s'.Persisted t := by
  match t with
  | .calling _ => trivial
  | .persisting => trivial
  | .writing snap => exact hfollows.earlier snap h
  | .replacing => trivial
  | .returned none => exact hfollows.file h
  | .returned (some _) => trivial

theorem performWrite_spec {b : ℕ} (h : memory.WellFormed b) (call : WriteCall) (c : FileChoice) :
    (memory.performWrite call c).1.WellFormed (max b c.now) ∧
      ∀ old : MemoryRegistry, old.Since memory → old.Since (memory.performWrite call c).1 := by
  have hmax := h.mono (le_max_left b c.now)
  rcases h.performWrite_cases call c with ⟨record, hgen, heq⟩ | ⟨n, err, heq⟩ <;> rw [heq]
  · exact ⟨hmax.write (le_max_right b c.now) record, fun old hold => hold.write hgen c.now⟩
  · exact ⟨hmax.congr rfl, fun old hold => hold.draw n⟩

theorem Sound.performWrite (h : s.Sound) (call : WriteCall) (c : FileChoice) :
    ({ s with memory := (s.memory.performWrite call c).1 } : FileRegistry).Sound ∧
      Follows s { s with memory := (s.memory.performWrite call c).1 } := by
  obtain ⟨b, hwf⟩ := h.wellFormed
  obtain ⟨hwf', hsince⟩ := performWrite_spec hwf call c
  have hearlier : ∀ snap, Earlier snap s.memory → Earlier snap (s.memory.performWrite call c).1 :=
    fun snap hsnap => ⟨hsnap.wellFormed, hsince _ hsnap.since⟩
  exact ⟨⟨⟨_, hwf'⟩, fun snap hs => hearlier snap (h.file snap hs), fun snap hs => hearlier snap (h.tmp snap hs)⟩,
    hearlier, id⟩

theorem Sound.move (h : s.Sound) (ht : s.Persisted t) {c : FileChoice} (hmove : move s t c = some (s', t')) :
    s'.Sound ∧ s'.Persisted t' ∧ Follows s s' := by
  unfold FileRegistry.move at hmove
  cases t with
  | calling call =>
    obtain ⟨hsound, hfollows⟩ := h.performWrite call c
    dsimp only at hmove
    split at hmove <;> rename_i heq <;> cases hmove <;> rw [heq] at hsound hfollows
    · exact ⟨hsound, trivial, hfollows⟩
    · exact ⟨hsound, trivial, hfollows⟩
  | persisting =>
    cases hmove
    exact ⟨h, ⟨h.wellFormed, .refl _⟩, fun _ => id, id⟩
  | writing snap =>
    cases hmove
    refine ⟨⟨h.wellFormed, h.file, fun snap' hs => ?_⟩, trivial, fun _ => id, id⟩
    cases hs
    exact ht
  | replacing =>
    dsimp only at hmove
    split at hmove
    · cases hmove
      exact ⟨h, trivial, fun _ => id, id⟩
    · rename_i snap htmp
      cases hmove
      refine ⟨⟨h.wellFormed, fun snap' hs => ?_, fun snap' hs => nomatch hs⟩, ⟨snap, rfl⟩, fun _ => id, fun _ => ⟨snap, rfl⟩⟩
      cases hs
      exact h.tmp snap htmp
  | returned err => cases hmove

theorem sound_new (found : List (FileRecord × Restoring)) : (newFileRegistry found).Sound := by
  have hwf : ∃ b, (newFileRegistry found).memory.WellFormed b :=
    run_invariant (I := fun r : MemoryRegistry => ∃ b, r.WellFormed b)
      (fun r rec ⟨b, hb⟩ => ⟨_, (hb.mono (le_max_left b _)).restoreRecord (le_max_right b _) _ _ _ _ _ _⟩) ⟨0, MemoryRegistry.wellFormed_empty 0⟩ found
  exact ⟨hwf, fun snap hs => (nomatch hs), fun snap hs => (nomatch hs)⟩

theorem keeps_run (found : List (FileRecord × Restoring)) (events : List (ThreadEvent WriteCall FileChoice Empty)) :
    ThreadSystem.Keeps Sound (fun s _ t => s.Persisted t) (threads.run (newFileRegistry found) events) := by
  refine ThreadSystem.Keeps.run threads (fun s id call _ => trivial) ?_ (fun s e => nomatch e) (sound_new found) events
  intro s id t c s' t' hs ht hmove
  obtain ⟨hs', ht', hfollows⟩ := hs.move ht hmove
  exact ⟨hs', ht', fun _ u _ hu => hu.follows hfollows⟩

/-! ## Durability -/

end FileRegistry

end AegisMesh.Registry
