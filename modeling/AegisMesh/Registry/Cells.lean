import Mathlib.Data.List.TakeWhile
import AegisMesh.Lib.Journal
import AegisMesh.Registry.FileCalls

/-!
# The cells of the log-backed registry

Each (service, id) is a cell of a journal: the snapshot file is its checkpoint, the log records that name it
are its operations.
-/

open Lib Lib.Journal

namespace AegisMesh.Registry

/-! ## Cells -/

structure Lease where
  inst : Instance
  expiresAt : ℕ

def leaseTouch : Touch Lease (ℕ × ℤ) where
  touch p lease := { inst := { lease.inst with lastSeen := p.1 }, expiresAt := addTTL p.1 p.2 }
  touch_touch _ _ _ := rfl

def Record.toLease (record : Record) : Lease := { inst := record.inst.seen, expiresAt := record.expiresAt }

def FileRecord.toLease (record : FileRecord) : Lease :=
  { inst := record.inst.seen, expiresAt := record.expiresAt }

def MemoryRegistry.cell (r : MemoryRegistry) (service id : String) : Option Lease :=
  (r.lease service id).map Record.toLease

def WALRecord.cellOp (record : WALRecord) : Option (CellOp Lease (ℕ × ℤ)) :=
  match record.op with
  | .register =>
    some (.set { inst := record.registered.seen, expiresAt := addTTL record.timestamp record.ttl })
  | .heartbeat => some (.touch (record.timestamp, record.ttl))
  | .deleteExpired => some .clear
  | .snapshotMark => none

def walOps (wal : List WALRecord) (service id : String) : List (CellOp Lease (ℕ × ℤ)) :=
  (wal.filter fun record => record.service = service && record.id = id).filterMap WALRecord.cellOp

def checkpoint (snapshot : List FileRecord) (service id : String) : Option Lease :=
  ((snapshot.filter fun record => record.inst.service = service && record.inst.id = id).getLast?).map
    FileRecord.toLease

def ExpiredBy (b : ℕ) (lease : Lease) : Prop := lease.expiresAt ≤ b

def Files.cell (files : Files) (service id : String) : Option Lease :=
  replay leaseTouch (walOps files.wal service id) (checkpoint files.snapshot service id)

theorem walOps_snoc (wal : List WALRecord) (record : WALRecord) (service id : String) :
    walOps (wal ++ [record]) service id =
      if record.service = service ∧ record.id = id then walOps wal service id ++ record.cellOp.toList
      else walOps wal service id := by
  unfold walOps
  rw [List.filter_append, List.filterMap_append]
  split
  · rename_i h
    cases hop : record.cellOp <;> simp [h, hop]
  · rename_i h
    simp [h]

theorem checkpoint_snoc (snapshot : List FileRecord) (record : FileRecord) (service id : String) :
    checkpoint (snapshot ++ [record]) service id =
      if record.inst.service = service ∧ record.inst.id = id then some record.toLease
      else checkpoint snapshot service id := by
  unfold checkpoint
  rw [List.filter_append]
  split
  · rename_i h
    simp [h]
  · rename_i h
    simp [h]

/-! ## Records that survive being written and read -/

structure Instance.Complete (inst : Instance) : Prop where
  named : inst.named = true
  status : inst.status ≠ .unspecified
  epoch : inst.registrationEpoch ≠ ""
  token : inst.ownerToken ≠ ""

variable {inst : Instance}

theorem restoredInstance_of_complete (h : inst.Complete) (epoch token : String) :
    MemoryRegistry.restoredInstance inst epoch token = inst := by
  simp [MemoryRegistry.restoredInstance, Code.normalized, cloneLabels, h.status, h.epoch, h.token]

theorem Instance.named_iff :
    inst.named = true ↔ inst.id ≠ "" ∧ inst.service ≠ "" ∧ inst.address ≠ "" := by
  simp [Instance.named, and_assoc]

structure WALRecord.Logged (record : WALRecord) (b : ℕ) : Prop where
  parses : record.parses = true
  timestamp : record.timestamp ≤ b
  complete : record.op = .register → record.registered.Complete

variable {ttl : ℤ}

theorem logged_register (h : inst.Complete) (httl : 0 < ttl) (now : ℕ) :
    (newRegisterWALRecord inst ttl now).Logged now := by
  have hnamed := Instance.named_iff.mp h.named
  refine ⟨by simp [WALRecord.parses, newRegisterWALRecord, hnamed, httl], le_rfl, fun _ => ?_⟩
  exact ⟨by simp [Instance.named_iff, WALRecord.registered, newRegisterWALRecord, hnamed],
    Code.normalized_ne _, h.epoch, h.token⟩

theorem logged_heartbeat {service id : String} (hs : service ≠ "") (hi : id ≠ "") (httl : 0 < ttl) (now : ℕ) :
    (newHeartbeatWALRecord service id ttl now).Logged now :=
  ⟨by simp [WALRecord.parses, newHeartbeatWALRecord, hs, hi, httl], le_rfl, fun h => nomatch h⟩

theorem logged_delete {service id : String} (hs : service ≠ "") (hi : id ≠ "") (now : ℕ) :
    (newDeleteExpiredWALRecord service id now).Logged now :=
  ⟨by simp [WALRecord.parses, newDeleteExpiredWALRecord, hs, hi], le_rfl, fun h => nomatch h⟩

theorem logged_mark (now : ℕ) : (newSnapshotMarkWALRecord now).Logged now :=
  ⟨rfl, le_rfl, fun h => nomatch h⟩

variable {now : ℕ}

theorem registered_seen (hstatus : inst.status ≠ .unspecified) (hseen : inst.lastSeen = now) (ttl : ℤ) :
    (newRegisterWALRecord inst ttl now).registered.seen = inst.seen := by
  have hlabels : ∀ l : Labels, Labels.pairs (if l.pairs = ∅ then none else l) = l.pairs := by
    intro l
    split
    · rename_i h
      exact h.symm
    · rfl
  simp [WALRecord.registered, newRegisterWALRecord, RegisterPayload.marshalled, Instance.seen, Code.parse_string,
    Code.normalized, hstatus, hseen, hlabels]

def MemoryRegistry.AllComplete (r : MemoryRegistry) : Prop :=
  ∀ service id record, r.lease service id = some record → record.inst.Complete

theorem MemoryRegistry.cell_restoreHistorical (r : MemoryRegistry) (h : inst.Complete) (expiresAt now : ℕ)
    (epoch token service id : String) :
    (r.restoreHistorical inst expiresAt now epoch token).cell service id =
      if service = inst.service ∧ id = inst.id then some ⟨inst.seen, expiresAt⟩ else r.cell service id := by
  rw [cell, lease_restoreHistorical r h.named]
  split
  · rw [Option.map_some, Record.toLease, restoredInstance_of_complete h]
  · rfl

theorem MemoryRegistry.AllComplete.restoreHistorical {r : MemoryRegistry} (hr : r.AllComplete) (h : inst.Complete)
    (expiresAt now : ℕ) (epoch token : String) :
    (r.restoreHistorical inst expiresAt now epoch token).AllComplete := by
  intro service id record hl
  rw [lease_restoreHistorical r h.named] at hl
  split at hl
  · cases hl
    rwa [restoredInstance_of_complete h]
  · exact hr _ _ _ hl

theorem MemoryRegistry.cell_heartbeat {r r' : MemoryRegistry} {ctx : Ctx} {service id epoch token : String}
    {requireEpoch requireOwner : Bool}
    (h : r.heartbeatAtWithOwner ctx service id epoch token ttl now requireEpoch requireOwner = (r', none))
    (service' id' : String) :
    r'.cell service' id' =
      if service' = service ∧ id' = id then (r.cell service id).map (leaseTouch.touch (now, ttl))
      else r.cell service' id' := by
  rw [cell, lease_heartbeat h]
  split
  · rw [cell]
    cases r.lease service id <;> rfl
  · rfl

theorem MemoryRegistry.AllComplete.heartbeat {r r' : MemoryRegistry} (hr : r.AllComplete) {ctx : Ctx}
    {service id epoch token : String} {requireEpoch requireOwner : Bool}
    (h : r.heartbeatAtWithOwner ctx service id epoch token ttl now requireEpoch requireOwner = (r', none)) :
    r'.AllComplete := by
  intro service' id' record hl
  rw [lease_heartbeat h] at hl
  split at hl
  · obtain ⟨old, hold, rfl⟩ := Option.map_eq_some_iff.mp hl
    obtain ⟨hnamed, hstatus, hepoch, htoken⟩ := hr _ _ _ hold
    exact ⟨hnamed, hstatus, hepoch, htoken⟩
  · exact hr _ _ _ hl

/-! ## What can be stored and read back -/

structure Stored (memory : MemoryRegistry) (files : Files) (b : ℕ) : Prop where
  wellFormed : memory.WellFormed b
  complete : memory.AllComplete
  snapshot : ∀ record ∈ files.snapshot, record.inst.Complete
  wal : ∀ record ∈ files.wal, record.Logged b

namespace Stored

variable {memory memory' : MemoryRegistry} {files : Files} {now b b' : ℕ}

theorem mono (h : Stored memory files b) (hle : b ≤ b') : Stored memory files b' where
  wellFormed := h.wellFormed.mono hle
  complete := h.complete
  snapshot := h.snapshot
  wal record hr := ⟨(h.wal record hr).parses, le_trans (h.wal record hr).timestamp hle, (h.wal record hr).complete⟩

theorem dropsExpired (h : Stored memory files b) (hwf : memory'.WellFormed b) (hdrop : memory.DropsExpired memory' now) :
    Stored memory' files b := by
  refine ⟨hwf, fun service id record hl => ?_, h.snapshot, h.wal⟩
  rcases hdrop service id with hsame | ⟨hnone, -⟩
  · exact h.complete _ _ _ (hsame ▸ hl)
  · simp [hnone] at hl

theorem logged (h : Stored memory files b) {record : WALRecord} (hlogged : record.Logged b) (hwf : memory'.WellFormed b)
    (hcomplete : memory'.AllComplete) : Stored memory' { files with wal := files.wal ++ [record] } b := by
  refine ⟨hwf, hcomplete, h.snapshot, fun r hr => ?_⟩
  rcases List.mem_append.mp hr with hr | hr
  · exact h.wal r hr
  · exact List.mem_singleton.mp hr ▸ hlogged

theorem names_of_swept (h : Stored memory files b) {expired : List ExpiredRecord}
    (hswept : memory.Swept memory' expired now) {e : ExpiredRecord} (he : e ∈ expired) : e.service ≠ "" ∧ e.id ≠ "" := by
  obtain ⟨-, record, hl, -⟩ := hswept.gone e he
  obtain ⟨hid, hservice, -⟩ := Instance.named_iff.mp (h.complete _ _ _ hl).named
  obtain ⟨hs, hi⟩ := h.wellFormed.own hl
  exact ⟨hs ▸ hservice, hi ▸ hid⟩

end Stored

/-! ## Compaction -/

variable {memory : MemoryRegistry}

theorem mem_snapshotMemoryRegistry {record : FileRecord} :
    record ∈ snapshotMemoryRegistry memory now ↔
      ∃ service id r, memory.lease service id = some r ∧ now < r.expiresAt ∧ record = ⟨r.inst, r.expiresAt⟩ := by
  simp only [snapshotMemoryRegistry, mem_sortBy, List.mem_map, List.mem_flatMap, Dict.mem_values, mem_liveRecords]
  constructor
  · rintro ⟨r, ⟨s, ⟨service, hs⟩, ⟨id, hr⟩, hlive⟩, rfl⟩
    exact ⟨service, id, r, by simp [MemoryRegistry.lease, hs, hr], hlive, rfl⟩
  · rintro ⟨service, id, r, hl, hlive, rfl⟩
    obtain ⟨s, hs, hr⟩ := Option.bind_eq_some_iff.mp hl
    exact ⟨r, ⟨s, ⟨service, hs⟩, ⟨id, hr⟩, hlive⟩, rfl⟩

theorem checkpoint_snapshotMemoryRegistry {b now : ℕ} (h : memory.WellFormed b) (service id : String) (lease : Lease) :
    checkpoint (snapshotMemoryRegistry memory now) service id = some lease ↔
      memory.cell service id = some lease ∧ ¬ ExpiredBy now lease := by
  -- Every record written for this cell is the one that memory holds there.
  have hfrom : ∀ record ∈ snapshotMemoryRegistry memory now, record.inst.service = service →
      record.inst.id = id → memory.cell service id = some record.toLease ∧ ¬ ExpiredBy now record.toLease := by
    intro record hmem hs hi
    obtain ⟨service', id', r, hl, hlive, rfl⟩ := mem_snapshotMemoryRegistry.mp hmem
    obtain ⟨rfl, rfl⟩ := h.own hl
    simp only at hs hi
    subst hs hi
    exact ⟨by simp [MemoryRegistry.cell, hl, Record.toLease, FileRecord.toLease], by
      simpa [ExpiredBy, FileRecord.toLease] using hlive⟩
  unfold checkpoint
  constructor
  · intro hc
    obtain ⟨record, hlast, rfl⟩ := Option.map_eq_some_iff.mp hc
    have hmem := List.mem_filter.mp (List.mem_of_getLast? hlast)
    simp only [Bool.and_eq_true, decide_eq_true_eq] at hmem
    exact hfrom record hmem.1 hmem.2.1 hmem.2.2
  · rintro ⟨hcell, hlive⟩
    obtain ⟨r, hl, rfl⟩ := Option.map_eq_some_iff.mp hcell
    have hown := h.own hl
    have hmem : (⟨r.inst, r.expiresAt⟩ : FileRecord) ∈ (snapshotMemoryRegistry memory now).filter fun record =>
        record.inst.service = service && record.inst.id = id := by
      refine List.mem_filter.mpr ⟨mem_snapshotMemoryRegistry.mpr ⟨service, id, r, hl, ?_, rfl⟩, by simp [hown]⟩
      simpa [ExpiredBy, Record.toLease] using hlive
    obtain ⟨record, hlast⟩ : ∃ record, List.getLast? _ = some record :=
      ⟨_, List.getLast?_eq_some_getLast (List.ne_nil_of_mem hmem)⟩
    have hrec := List.mem_filter.mp (List.mem_of_getLast? hlast)
    simp only [Bool.and_eq_true, decide_eq_true_eq] at hrec
    rw [hlast, Option.map_some, ← (hfrom record hrec.1 hrec.2.1 hrec.2.2).1, hcell]

theorem walOps_mark (now : ℕ) (service id : String) : walOps [newSnapshotMarkWALRecord now] service id = [] := by
  have h := walOps_snoc [] (newSnapshotMarkWALRecord now) service id
  simp only [List.nil_append] at h
  rw [h]
  split <;> rfl

theorem Stored.compacted {files : Files} {b : ℕ} (h : Stored memory files b) (now : ℕ) {wal : List WALRecord}
    (hwal : wal = files.wal ∨ wal = [newSnapshotMarkWALRecord b]) :
    Stored memory { snapshot := snapshotMemoryRegistry memory now, wal } b := by
  refine ⟨h.wellFormed, h.complete, fun record hmem => ?_, ?_⟩
  · obtain ⟨service, id, r, hl, -, rfl⟩ := mem_snapshotMemoryRegistry.mp hmem
    exact h.complete _ _ _ hl
  · rcases hwal with rfl | rfl
    · exact h.wal
    · intro record hmem
      exact List.mem_singleton.mp hmem ▸ logged_mark b

theorem walOps_compacted {wal wal' : List WALRecord} {b : ℕ} (hwal : wal' = wal ∨ wal' = [newSnapshotMarkWALRecord b])
    (service id : String) : walOps wal' service id = [] ∨ walOps wal' service id = walOps wal service id := by
  rcases hwal with rfl | rfl
  · exact Or.inr rfl
  · exact Or.inl (walOps_mark b service id)

def Env.latest (env : Env) : ℕ → ℕ
  | 0 => 0
  | n + 1 => env.clock n

theorem Env.latest_le (env : Env) (n : ℕ) : env.latest n ≤ env.clock n := by
  cases n with
  | zero => exact Nat.zero_le _
  | succ n => exact env.clock_mono (Nat.le_succ n)

theorem Env.latest_mono (env : Env) : Monotone env.latest := by
  intro m n h
  cases m with
  | zero => exact Nat.zero_le _
  | succ m =>
    cases n with
    | zero => omega
    | succ n => exact env.clock_mono (by omega)

def Files.records (files : Files) (service id : String) : Bool :=
  (files.snapshot.any fun record => record.inst.service = service && record.inst.id = id) ||
    files.wal.any fun record => record.op = .register && (record.service = service && record.id = id)

theorem Files.records_iff (files : Files) (service id : String) :
    files.records service id = true ↔
      Recorded (checkpoint files.snapshot service id) (walOps files.wal service id) := by
  have hsnap : (files.snapshot.any fun record => record.inst.service = service && record.inst.id = id) = true ↔
      (checkpoint files.snapshot service id).isSome := by
    rw [checkpoint, Option.isSome_map, List.getLast?_isSome, ne_eq, List.filter_eq_nil_iff]
    simp
  have hwal : (files.wal.any fun record =>
      record.op = .register && (record.service = service && record.id = id)) = true ↔
      HasSet (walOps files.wal service id) := by
    simp only [HasSet, walOps, List.mem_filterMap, List.mem_filter, List.any_eq_true, Bool.and_eq_true,
      decide_eq_true_eq]
    constructor
    · rintro ⟨record, hmem, hop, hk⟩
      exact ⟨_, record, ⟨hmem, hk⟩, by rw [WALRecord.cellOp, hop]⟩
    · rintro ⟨v, record, ⟨hmem, hk⟩, hop⟩
      refine ⟨record, hmem, ?_, hk⟩
      unfold WALRecord.cellOp at hop
      split at hop <;> simp_all
  rw [records, Bool.or_eq_true, hsnap, hwal, Recorded]

namespace FileRegistryV2

variable (cfg : FileConfig) (env : Env) {r r' r'' : FileRegistryV2}

/-! ## What the calls do to a cell -/

def cell (r : FileRegistryV2) (service id : String) : Cell Lease (ℕ × ℤ) where
  value := r.memory.cell service id
  saved := checkpoint r.files.snapshot service id
  ops := walOps r.files.wal service id

def Kept (r : FileRegistryV2) : Prop := Stored r.memory r.files (env.latest r.ticks)

structure Lapsing (r r' : FileRegistryV2) : Prop where
  kept : r'.Kept env
  ticks : r.ticks ≤ r'.ticks
  cells : ∀ service id, Relation.ReflTransGen (Lapses leaseTouch (ExpiredBy (env.latest r'.ticks)))
    (r.cell service id) (r'.cell service id)

variable {env} {ok : Prop}

theorem Kept.tick (h : r.Kept env) : Stored r.memory r.files (env.clock r.ticks) := h.mono (env.latest_le _)

structure Carried (ok : Prop) (I : ℕ → Cell Lease (ℕ × ℤ) → Prop) : Prop where
  mono : ∀ {b b' c}, b ≤ b' → I b c → I b' c
  turns : ∀ {b c c'}, Turns leaseTouch (ExpiredBy b) ok c c' → I b c → I b c'

structure Turning (env : Env) (ok : Prop) (r r' : FileRegistryV2) : Prop where
  kept : r'.Kept env
  ticks : r.ticks ≤ r'.ticks
  cells : ∀ {I}, Carried ok I → ∀ service id, I (env.latest r.ticks) (r.cell service id) →
    I (env.latest r'.ticks) (r'.cell service id)

theorem Turning.trans (h : Turning env ok r r') (h' : Turning env ok r' r'') : Turning env ok r r'' :=
  ⟨h'.kept, h.ticks.trans h'.ticks, fun hI service id hc => h'.cells hI service id (h.cells hI service id hc)⟩

theorem Turning.lapsing (h : Turning env ok r r') : Lapsing env r r' := by
  refine ⟨h.kept, h.ticks, fun service id => ?_⟩
  refine h.cells (I := fun b c => Relation.ReflTransGen (Lapses leaseTouch (ExpiredBy b)) (r.cell service id) c)
    ⟨fun hle hc => ?_, fun hturns hc => hc.tail hturns.lapses⟩ service id .refl
  exact Relation.ReflTransGen.mono (fun _ _ hlapses => hlapses.mono fun _ hdead => le_trans hdead hle) _ _ hc

theorem Kept.idle (h : r.Kept env) (hmemory : r'.memory = r.memory) (hfiles : r'.files = r.files)
    (hticks : r.ticks ≤ r'.ticks) : Turning env ok r r' := by
  refine ⟨?_, hticks, fun hI service id hc => ?_⟩
  · unfold Kept
    rw [hmemory, hfiles]
    exact h.mono (env.latest_mono hticks)
  · unfold cell at hc ⊢
    rw [hmemory, hfiles]
    exact hI.mono (env.latest_mono hticks) hc

theorem Kept.refl (h : r.Kept env) : Turning env ok r r := h.idle rfl rfl le_rfl

theorem Kept.turned (hkept : r'.Kept env) (hticks : r.ticks < r'.ticks)
    (hcells : ∀ service id, r'.cell service id = r.cell service id ∨
      Turns leaseTouch (ExpiredBy (env.clock r.ticks)) ok (r.cell service id) (r'.cell service id)) :
    Turning env ok r r' := by
  refine ⟨hkept, hticks.le, fun hI service id hc => ?_⟩
  have hnow := hI.mono (env.latest_le r.ticks) hc
  refine hI.mono (env.latest_mono hticks : env.clock r.ticks ≤ _) ?_
  rcases hcells service id with heq | hturns
  · rw [heq]
    exact hnow
  · exact hI.turns hturns hnow

theorem Kept.compact (h : r.Kept env) (ctx : Ctx) : Turning env ok r (r.compact cfg env ctx).1 := by
  rcases r.compact_cases cfg env ctx with heq | ⟨wal, walSize, err, hwal, -, heq⟩ <;> rw [heq]
  · exact h.refl
  · exact turned ((h.tick.mono (env.clock_mono (Nat.le_succ _))).compacted _ hwal) (Nat.lt_add_of_pos_right Nat.two_pos)
      fun service id => .inr (.save (checkpoint_snapshotMemoryRegistry h.tick.wellFormed service id)
        (walOps_compacted hwal service id))

theorem Kept.maybeCompact (h : r.Kept env) (ctx : Ctx) : Turning env ok r (r.maybeCompact cfg env ctx).1 := by
  rcases r.maybeCompact_cases cfg env ctx with heq | heq <;> rw [heq]
  · exact h.refl
  · exact h.compact cfg ctx

theorem Kept.dropsExpired (h : r.Kept env) {memory : MemoryRegistry} (hwf : memory.WellFormed (env.clock r.ticks))
    (hdrop : r.memory.DropsExpired memory (env.clock r.ticks)) : Turning env ok r { r.tick with memory } := by
  refine turned (h.tick.dropsExpired hwf hdrop) (Nat.lt_succ_self _) fun service id => ?_
  have hcell : ({ r.tick with memory } : FileRegistryV2).cell service id =
      { r.cell service id with value := memory.cell service id } := rfl
  rw [hcell]
  rcases hdrop service id with hsame | ⟨hnone, record, hl, hexp⟩
  · rw [MemoryRegistry.cell, hsame]
    exact .inl rfl
  · rw [MemoryRegistry.cell, hnone]
    exact .inr (.drop (congrArg (Option.map Record.toLease) hl) hexp)

theorem Kept.snapshot (h : r.Kept env) (ctx : Ctx) (service : String) :
    Turning env ok r (r.snapshot env ctx service).1 :=
  h.dropsExpired (h.tick.wellFormed.snapshot le_rfl ctx service) (r.memory.dropsExpired_snapshot ctx service _)

theorem cell_logged_self {op : CellOp Lease (ℕ × ℤ)}
    (hfiles : r'.files = { r.files with wal := r.files.wal ++ [record] }) (hop : record.cellOp = some op) :
    r'.cell record.service record.id =
      { r.cell record.service record.id with
        value := r'.memory.cell record.service record.id
        ops := (r.cell record.service record.id).ops ++ [op] } := by
  unfold cell
  rw [hfiles, walOps_snoc, if_pos ⟨rfl, rfl⟩, hop]
  rfl

theorem cell_logged_other {service id : String} (hfiles : r'.files = { r.files with wal := r.files.wal ++ [record] })
    (hkey : ¬(record.service = service ∧ record.id = id))
    (hmemory : r'.memory.cell service id = r.memory.cell service id) : r'.cell service id = r.cell service id := by
  unfold cell
  rw [hfiles, walOps_snoc, if_neg hkey, hmemory]

theorem turns_logged (record : WALRecord) {b : ℕ} {op : CellOp Lease (ℕ × ℤ)} (hop : record.cellOp = some op)
    (hfiles : r'.files = { r.files with wal := r.files.wal ++ [record] })
    (hother : ∀ service id, ¬(record.service = service ∧ record.id = id) →
      r'.memory.cell service id = r.memory.cell service id)
    (hself : Turns leaseTouch (ExpiredBy b) ok (r.cell record.service record.id)
      { r.cell record.service record.id with
        value := r'.memory.cell record.service record.id
        ops := (r.cell record.service record.id).ops ++ [op] }) (service id : String) :
    r'.cell service id = r.cell service id ∨
      Turns leaseTouch (ExpiredBy b) ok (r.cell service id) (r'.cell service id) := by
  by_cases hkey : record.service = service ∧ record.id = id
  · obtain ⟨rfl, rfl⟩ := hkey
    rw [cell_logged_self hfiles hop]
    exact .inr hself
  · exact .inl (cell_logged_other hfiles hkey (hother service id hkey))

/-! ### Register -/

variable {inst : Instance}

theorem minting_complete (r : FileRegistryV2) (h : inst.named = true) :
    (r.minting env inst).Complete where
  named := h
  status := Code.normalized_ne _
  epoch := env.mint_ne _
  token := env.mint_ne _

theorem stored_registered (h : Stored r.memory r.files (env.clock r.ticks)) (hnamed : inst.named = true) {ttl : ℤ}
    (httl : 0 < ttl) :
    Stored (registered cfg env r inst ttl).memory (registered cfg env r inst ttl).files (env.clock (r.ticks + 1)) := by
  have hcomplete : (r.minting env inst).Complete := r.minting_complete hnamed
  have hsucc : env.clock r.ticks ≤ env.clock (r.ticks + 1) := env.clock_mono (Nat.le_succ _)
  have hlogged := logged_register hcomplete httl (env.clock r.ticks)
  have hstored := h.mono hsucc
  exact hstored.logged ⟨hlogged.parses, hsucc, hlogged.complete⟩ (hstored.wellFormed.restoreHistorical _ _ _ _)
    (h.complete.restoreHistorical hcomplete _ _ _ _)

theorem memory_cell_registered (env : Env) (r : FileRegistryV2) (hnamed : inst.named = true) (ttl : ℤ)
    (service id : String) :
    (registered cfg env r inst ttl).memory.cell service id =
      if service = inst.service ∧ id = inst.id then some ⟨(r.minting env inst).seen, addTTL (env.clock r.ticks) ttl⟩
      else r.memory.cell service id :=
  MemoryRegistry.cell_restoreHistorical r.memory (r.minting_complete hnamed) _ _ _ _ service id

theorem cellOp_register (r : FileRegistryV2) (inst : Instance) (ttl : ℤ) :
    (newRegisterWALRecord (r.minting env inst) ttl (env.clock r.ticks)).cellOp =
      some (.set ⟨(r.minting env inst).seen, addTTL (env.clock r.ticks) ttl⟩) := by
  have hstatus : (r.minting env inst).status ≠ .unspecified := Code.normalized_ne _
  rw [← registered_seen hstatus rfl ttl]
  rfl

theorem kept_registered (h : r.Kept env) (hnamed : inst.named = true) {ttl : ℤ} (httl : 0 < ttl) :
    (registered cfg env r inst ttl).Kept env := stored_registered cfg h.tick hnamed httl

theorem cell_registered (r : FileRegistryV2) (hnamed : inst.named = true) (ttl : ℤ) (service id : String) :
    (registered cfg env r inst ttl).cell service id =
      if inst.service = service ∧ inst.id = id then
        let lease : Lease := ⟨(r.minting env inst).seen, addTTL (env.clock r.ticks) ttl⟩
        ⟨some lease, (r.cell service id).saved, (r.cell service id).ops ++ [.set lease]⟩
      else r.cell service id := by
  have hfiles : (registered cfg env r inst ttl).files = { r.files with
      wal := r.files.wal ++ [newRegisterWALRecord (r.minting env inst) ttl (env.clock r.ticks)] } := rfl
  have hmemory := memory_cell_registered cfg env r hnamed ttl
  by_cases hkey : inst.service = service ∧ inst.id = id
  · rw [if_pos hkey]
    obtain ⟨rfl, rfl⟩ := hkey
    refine (cell_logged_self hfiles (cellOp_register r inst ttl)).trans ?_
    exact congrArg (fun value => Cell.mk value _ _) ((hmemory _ _).trans (if_pos ⟨rfl, rfl⟩))
  · rw [if_neg hkey]
    refine cell_logged_other hfiles hkey ((hmemory service id).trans (if_neg fun hk => hkey ⟨hk.1.symm, hk.2.symm⟩))

/-! ### Heartbeats -/

section Renewals

variable {service id epoch token : String} {ttl : ℤ} {requireEpoch requireOwner : Bool} {memory : MemoryRegistry}

theorem stored_renewed (h : Stored r.memory r.files (env.clock r.ticks)) (hs : service ≠ "") (hi : id ≠ "")
    (hvalid : r.memory.validateHeartbeatWithOwner .background service id epoch token ttl requireEpoch requireOwner = none)
    (hbeat : r.memory.heartbeatAtWithOwner .background service id epoch token ttl (env.clock r.ticks) requireEpoch
      requireOwner = (memory, none)) :
    Stored memory { r.files with
      wal := r.files.wal ++ [newHeartbeatWALRecord service id ttl (env.clock r.ticks)] } (env.clock r.ticks) := by
  obtain ⟨httl, -⟩ := MemoryRegistry.validate_lease hvalid
  have hwf := h.wellFormed.heartbeat le_rfl .background service id epoch token ttl requireEpoch requireOwner
  rw [hbeat] at hwf
  exact h.logged (logged_heartbeat hs hi httl _) hwf (h.complete.heartbeat hbeat)

theorem Kept.renewed (h : r.Kept env) (hs : service ≠ "") (hi : id ≠ "")
    (hvalid : r.memory.validateHeartbeatWithOwner .background service id epoch token ttl requireEpoch requireOwner = none)
    (hbeat : r.memory.heartbeatAtWithOwner .background service id epoch token ttl (env.clock r.ticks) requireEpoch
      requireOwner = (memory, none)) (hrec : ok → r.files.records service id = true) (walSize : ℕ) :
    Turning env ok r { r.tick with
      memory
      files := { r.files with wal := r.files.wal ++ [newHeartbeatWALRecord service id ttl (env.clock r.ticks)] }
      walSize } := by
  obtain ⟨-, record, hl, -⟩ := MemoryRegistry.validate_lease hvalid
  have hcell := MemoryRegistry.cell_heartbeat hbeat
  have hold : r.memory.cell service id = some record.toLease := congrArg (Option.map Record.toLease) hl
  refine turned (stored_renewed h.tick hs hi hvalid hbeat) (Nat.lt_succ_self _)
    (turns_logged _ rfl rfl (fun service' id' hkey => ?_) ?_)
  · exact (hcell service' id').trans (if_neg fun hk => hkey ⟨hk.1.symm, hk.2.symm⟩)
  · have hnew : memory.cell service id = some (leaseTouch.touch (env.clock r.ticks, ttl) record.toLease) := by
      rw [hcell, if_pos ⟨rfl, rfl⟩, hold, Option.map_some]
    have htouch : Turns leaseTouch (ExpiredBy (env.clock r.ticks)) ok (r.cell service id) _ :=
      .touch (env.clock r.ticks, ttl) hold fun hok => (r.files.records_iff service id).mp (hrec hok)
    rwa [← hnew] at htouch

end Renewals

theorem Kept.heartbeatFenced (h : r.Kept env) (ctx : Ctx) (service id epoch token : String) (ttl : ℤ)
    (requireEpoch requireOwner : Bool)
    (hok : ok → (!r.accepts ctx service id epoch token ttl requireEpoch requireOwner ||
      r.files.records service id) = true) :
    Turning env ok r (r.heartbeatFenced cfg env ctx service id epoch token ttl requireEpoch requireOwner).1 := by
  rcases r.heartbeatFenced_cases cfg env ctx service id epoch token ttl requireEpoch requireOwner with
    ⟨r', err, heq, hmemory, hfiles, hticks⟩ | ⟨memory, hs, hi, haccepts, hvalid, hbeat, heq⟩ <;> rw [heq]
  · exact h.idle hmemory hfiles hticks
  · have hrenewed := h.renewed hs hi hvalid hbeat (fun hyes => by simpa [haccepts] using hok hyes)
      (r.walSize + cfg.frameLen (newHeartbeatWALRecord service id ttl (env.clock r.ticks)))
    exact hrenewed.trans (hrenewed.kept.maybeCompact cfg _)

/-! ### Sweeps -/

theorem Kept.logExpired (h : r.Kept env) {expired : ExpiredRecord} (hs : expired.service ≠ "") (hi : expired.id ≠ "")
    (hnone : r.memory.lease expired.service expired.id = none) : Turning env ok r (r.logExpired cfg env expired) := by
  unfold FileRegistryV2.logExpired
  rcases append_cases cfg r.tick .background
    (newDeleteExpiredWALRecord expired.service expired.id (env.clock r.ticks)) with ⟨err, heq⟩ | ⟨-, heq⟩ <;> rw [heq]
  · exact h.idle rfl rfl (Nat.le_succ _)
  · exact turned (h.tick.logged (logged_delete hs hi _) h.tick.wellFormed h.complete) (Nat.lt_succ_self _)
      (turns_logged _ rfl rfl (fun _ _ _ => rfl) (.clear (congrArg (Option.map Record.toLease) hnone)))

theorem Kept.foldl_logExpired (h : r.Kept env) {expired : List ExpiredRecord}
    (hall : ∀ e ∈ expired, e.service ≠ "" ∧ e.id ≠ "" ∧ r.memory.lease e.service e.id = none) :
    Turning env ok r (expired.foldl (FileRegistryV2.logExpired cfg env) r) := by
  induction expired generalizing r with
  | nil => exact h.refl
  | cons e rest ih =>
    obtain ⟨⟨hs, hi, hnone⟩, hrest⟩ := List.forall_mem_cons.mp hall
    have hfirst : Turning env ok r _ := h.logExpired cfg hs hi hnone
    refine hfirst.trans (ih hfirst.kept fun e' he' => ?_)
    rw [memory_logExpired]
    exact hrest e' he'

theorem Kept.sweepExpired (h : r.Kept env) (ctx : Ctx) : Turning env ok r (r.sweepExpired cfg env ctx).1 := by
  unfold FileRegistryV2.sweepExpired
  obtain ⟨hswept, hwf⟩ := MemoryRegistry.sweepExpiredRecords_spec h.tick.wellFormed le_rfl ctx
  generalize r.memory.sweepExpiredRecords ctx (env.clock r.ticks) = out at hswept hwf
  obtain ⟨memory, expired⟩ := out
  have hdrop : Turning env ok r _ := h.dropsExpired hwf hswept.dropsExpired
  have hlog := hdrop.trans (hdrop.kept.foldl_logExpired cfg fun e he =>
    ⟨(h.tick.names_of_swept hswept he).1, (h.tick.names_of_swept hswept he).2, (hswept.gone e he).1⟩)
  dsimp only
  split
  · exact hlog.trans (hlog.kept.maybeCompact cfg .background)
  · exact hlog

end FileRegistryV2

end AegisMesh.Registry
