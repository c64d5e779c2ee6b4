import AegisMesh.Registry.Recovery
import AegisMesh.Registry.WALCodec

/-! # A compaction that stops halfway -/

open Lib Lib.Journal

namespace AegisMesh.Registry

namespace FileRegistryV2

/-! ## The cells settle -/

structure Settled (env : Env) (r : FileRegistryV2) : Prop where
  kept : r.Kept env
  cells : ∀ service id, Settles leaseTouch (ExpiredBy (env.latest r.ticks)) (r.cell service id)

variable (cfg : FileConfig) {env : Env} {r r' : FileRegistryV2}

theorem Settled.lapsing (h : r.Settled env) (hlapsing : Lapsing env r r') : r'.Settled env := by
  refine ⟨hlapsing.kept, fun service id => ?_⟩
  have hlater : Settles leaseTouch (ExpiredBy (env.latest r'.ticks)) (r.cell service id) :=
    (h.cells service id).mono fun _ hdead => le_trans hdead (env.latest_mono hlapsing.ticks)
  exact hlater.lapse (hlapsing.cells service id)

theorem Settled.registered (h : r.Settled env) {inst : Instance} (hnamed : inst.named = true) {ttl : ℤ} (httl : 0 < ttl) :
    (registered cfg env r inst ttl).Settled env := by
  refine ⟨kept_registered cfg h.kept hnamed httl, fun service id => ?_⟩
  have hticks : r.ticks ≤ (FileRegistryV2.registered cfg env r inst ttl).ticks := Nat.le_add_right r.ticks 2
  rw [cell_registered cfg r hnamed]
  split
  · exact settles_set _ _ _
  · exact (h.cells service id).mono fun _ hdead => le_trans hdead (env.latest_mono hticks)

theorem Settled.step (h : r.Settled env) (call : Call) : (r.step cfg env call).Settled env := by
  cases hlogs : r.logs cfg env call with
  | none => exact h.lapsing (h.kept.step cfg hlogs)
  | some logged =>
    cases call with
    | register ctx inst ttl =>
      rcases r.register_cases cfg env ctx inst ttl with ⟨r', err, hnone, -⟩ | ⟨hnamed, httl, -, -, heq⟩
      · rw [hnone] at hlogs
        cases hlogs
      · have hregistered := h.registered cfg hnamed httl
        show (r.register cfg env ctx inst ttl).1.Settled env
        rw [heq]
        have hcompacted : Turning env True _ _ := hregistered.kept.maybeCompact cfg (ctx.after 2)
        exact hregistered.lapsing hcompacted.lapsing
    | _ => cases hlogs

end FileRegistryV2

inductive LogFile
  | records (wal : List WALRecord)
  | bytes (content : Bytes)

section Stopped

variable (crc : Bytes → UInt32) (marshal : RegisterPayload → Bytes) (unmarshal : Bytes → Option RegisterPayload)

def LogFile.read : LogFile → Option (List WALRecord)
  | .records wal => some wal
  | .bytes content => (replayFileRegistryWAL crc content).frames.mapM (WALFrame.record unmarshal)

/-- The log file where a compaction of `r` stops after its rename, and its last reading of the
clock: the log is still the old one, or it is truncated and holds a beginning of the mark. -/
inductive StopsWith (env : Env) (r : FileRegistryV2) : LogFile → ℕ → Prop
  | old : StopsWith env r (.records r.files.wal) (env.clock r.ticks)
  | marking {data content : Bytes}
    (hdata : ((newSnapshotMarkWALRecord (env.clock (r.ticks + 1))).frame marshal).encode crc = some data)
    (hcontent : content <+: data) : StopsWith env r (.bytes content) (env.clock (r.ticks + 1))

end Stopped

variable {crc : Bytes → UInt32} {marshal : RegisterPayload → Bytes} (unmarshal : Bytes → Option RegisterPayload)

theorem proper_markFrame (now : ℕ) : (markFrame now).Proper := by
  constructor <;> rfl

theorem read_marking {now : ℕ} {data content : Bytes}
    (hdata : ((newSnapshotMarkWALRecord now).frame marshal).encode crc = some data) (hcontent : content <+: data) :
    (LogFile.bytes content).read crc unmarshal = some [] ∨
      ∃ read ≤ now, (LogFile.bytes content).read crc unmarshal = some [newSnapshotMarkWALRecord read] := by
  have hproper := proper_markFrame now
  rw [frame_mark, WALFrame.encode, if_pos hproper.1, Option.some.injEq] at hdata
  subst hdata
  by_cases hwhole : content = (markFrame now).encoded crc
  · obtain ⟨read, hle, hrecord⟩ := record_mark unmarshal now
    have hscan := replayFileRegistryWAL_encoded crc [markFrame now] (by simpa using hproper) [] (.inl rfl)
    simp only [List.flatMap_cons, List.flatMap_nil, List.append_nil] at hscan
    refine .inr ⟨read, hle, ?_⟩
    rw [LogFile.read, hwhole, hscan, List.mapM_cons, hrecord]
    rfl
  · have hscan := replayFileRegistryWAL_encoded crc [] (by simp) content
      (.inr ⟨markFrame now, hproper, hcontent, hwhole⟩)
    rw [List.flatMap_nil, List.nil_append] at hscan
    refine .inl ?_
    rw [LogFile.read, hscan]
    rfl

/-! ## The files rebuild the same -/

def FileRegistryV2.compacting (env : Env) (r : FileRegistryV2) : List FileRecord :=
  snapshotMemoryRegistry r.memory (env.clock r.ticks)

variable {env : Env} {r : FileRegistryV2}

theorem cell_of_no_ops {snapshot : List FileRecord} {wal : List WALRecord} {service id : String}
    (h : walOps wal service id = []) : Files.cell { snapshot, wal } service id = checkpoint snapshot service id := by
  rw [Files.cell, h, replay_nil]

theorem StopsWith.reads {log : LogFile} {last : ℕ} (hstop : StopsWith crc marshal env r log last) (h : r.Settled env) :
    ∃ wal, log.read crc unmarshal = some wal ∧ (∀ record ∈ wal, record.Logged last) ∧ env.clock r.ticks ≤ last ∧
      ∀ service id lease, ¬ ExpiredBy (env.clock r.ticks) lease →
        (Files.cell { snapshot := r.compacting env, wal } service id = some lease ↔
          checkpoint (r.compacting env) service id = some lease) := by
  cases hstop with
  | old =>
    refine ⟨r.files.wal, rfl, h.kept.tick.wal, le_rfl, fun service id lease hlive => ?_⟩
    have hsettles : Settles leaseTouch (ExpiredBy (env.clock r.ticks)) (r.cell service id) :=
      (h.cells service id).mono fun _ hdead => le_trans hdead (env.latest_le _)
    exact hsettles.checkpoint (checkpoint_snapshotMemoryRegistry h.kept.tick.wellFormed service id) hlive
  | marking hdata hcontent =>
    have hlater : env.clock r.ticks ≤ env.clock (r.ticks + 1) := env.clock_mono (Nat.le_succ _)
    rcases read_marking unmarshal hdata hcontent with hread | ⟨read, hle, hread⟩
    · refine ⟨[], hread, by simp, hlater, fun service id lease _ => ?_⟩
      rw [cell_of_no_ops rfl]
    · refine ⟨_, hread, fun record hmem => ?_, hlater, fun service id lease _ => ?_⟩
      · rw [List.mem_singleton.mp hmem]
        exact ⟨(logged_mark read).parses, hle, (logged_mark read).complete⟩
      · rw [cell_of_no_ops (walOps_mark read service id)]

namespace FileRegistryV2

end FileRegistryV2

end AegisMesh.Registry
