import AegisMesh.Registry.WALCodec

/-!
# Records through the log and back

Records with the times and lengths of Go: a time is its nanoseconds since 1970, a string is its
bytes.
-/

open Lib

namespace AegisMesh.Registry

structure WALEntry where
  op : WALOp
  timestamp : ℤ
  service : Bytes := []
  id : Bytes := []
  address : Bytes := []
  ttl : ℤ := 0
  payload : Bytes := []
deriving DecidableEq

/-- The time that `IsZero` tells: the first of January of the year 1. -/
def zeroTime : ℤ := -62135596800 * 10 ^ 9

def InInt64 (n : ℤ) : Prop := -2 ^ 63 ≤ n ∧ n < 2 ^ 63

theorem not_inInt64_zeroTime : ¬ InInt64 zeroTime := by
  unfold InInt64 zeroTime
  omega

/-- What an instance brings into a record, with `details` for what goes into the payload. -/
structure RawInstance (δ : Type) where
  service : Bytes
  id : Bytes
  address : Bytes
  details : δ

namespace WALEntry

variable {δ : Type} (marshal : δ → Option Bytes)

def newRegister (inst : RawInstance δ) (ttl now : ℤ) : Option WALEntry :=
  match marshal inst.details with
  | none => none
  | some payload =>
    some { op := .register, timestamp := now, service := inst.service, id := inst.id, address := inst.address, ttl,
           payload }

def newHeartbeat (service id : Bytes) (ttl now : ℤ) : WALEntry :=
  { op := .heartbeat, timestamp := now, service, id, ttl }

def newDeleteExpired (service id : Bytes) (now : ℤ) : WALEntry := { op := .deleteExpired, timestamp := now, service, id }

def newSnapshotMark (now : ℤ) : WALEntry := { op := .snapshotMark, timestamp := now }

def frame (now : ℤ) (e : WALEntry) : WALFrame where
  op := e.op
  timestamp := .ofInt (if e.timestamp = zeroTime then now else e.timestamp)
  service := e.service
  id := e.id
  address := e.address
  ttl := .ofInt e.ttl
  payload := e.payload

/-- A record that one of the constructors makes of what the registry lets through. -/
inductive Built : WALEntry → Prop
  | register {inst : RawInstance δ} {ttl now : ℤ} {e : WALEntry} (he : newRegister marshal inst ttl now = some e)
      (hservice : inst.service ≠ []) (hid : inst.id ≠ []) (haddress : inst.address ≠ []) (httl : 0 < ttl) : Built e
  | heartbeat {service id : Bytes} {ttl : ℤ} (now : ℤ) (hservice : service ≠ []) (hid : id ≠ []) (httl : 0 < ttl) :
      Built (newHeartbeat service id ttl now)
  | deleteExpired {service id : Bytes} (now : ℤ) (hservice : service ≠ []) (hid : id ≠ []) :
      Built (newDeleteExpired service id now)
  | snapshotMark (now : ℤ) : Built (newSnapshotMark now)

/-- A TTL is a 64-bit number in Go. -/
structure Accepted (e : WALEntry) : Prop where
  built : e.Built marshal
  ttl : InInt64 e.ttl
  timestamp : InInt64 e.timestamp

end WALEntry

def encodeFileRegistryWALRecord (crc : Bytes → UInt32) (now : ℤ) (e : WALEntry) : Option Bytes := (e.frame now).encode crc

def WALFrame.entry (f : WALFrame) : WALEntry where
  op := f.op
  timestamp := int64 f.timestamp
  service := f.service
  id := f.id
  address := f.address
  ttl := int64 f.ttl
  payload := f.payload

structure WALReplayResult where
  validBytes : ℕ
  truncated : Bool
  records : ℕ
deriving DecidableEq

def replayApplying {σ ε : Type} (crc : Bytes → UInt32) (apply : σ → WALEntry → Except ε σ) (s : σ) (b : Bytes) :
    WALReplayResult × Except ε σ :=
  let run := (walReader crc).feed (fun s f => apply s f.entry) s b
  ({ validBytes := run.1.size, truncated := run.1.torn, records := run.1.frames.length }, run.2)

/-! ## The numbers -/

theorem int64_ofInt {n : ℤ} (h : InInt64 n) : int64 (.ofInt n) = n := by
  have hbits : ((UInt64.ofInt n).toNat : ℤ) = n % 2 ^ 64 := by
    simp [UInt64.ofInt]
    omega
  unfold InInt64 at h
  unfold int64
  split <;> omega

namespace WALEntry

variable {δ : Type} {marshal : δ → Option Bytes} {e : WALEntry}

theorem Accepted.timestamp_ne (h : e.Accepted marshal) : e.timestamp ≠ zeroTime := by
  intro hzero
  exact not_inInt64_zeroTime (hzero ▸ h.timestamp)

theorem Accepted.frame_eq (h : e.Accepted marshal) (now now' : ℤ) : e.frame now = e.frame now' := by
  simp only [frame, if_neg h.timestamp_ne]

theorem Accepted.entry_frame (h : e.Accepted marshal) (now : ℤ) : (e.frame now).entry = e := by
  simp only [WALFrame.entry, frame, if_neg h.timestamp_ne, int64_ofInt h.timestamp, int64_ofInt h.ttl]

/-! ## The checks of the reader -/

theorem Accepted.valid (h : e.Accepted marshal) (now : ℤ) (hfits : (e.frame now).fits = true) :
    (e.frame now).parsed.valid = true := by
  have hpayload : e.payload.length ≤ maxFileRegistryPayloadLen := by
    simp only [WALFrame.fits, Bool.and_eq_true, decide_eq_true_eq] at hfits
    exact hfits.2
  have httl : int64 (.ofInt e.ttl) = e.ttl := int64_ofInt h.ttl
  cases h.built with
  | register he hservice hid haddress hpos =>
    unfold newRegister at he
    split at he
    · cases he
    · cases he
      simp_all [WALHeader.valid, WALFrame.parsed, frame]
  | heartbeat now hservice hid hpos =>
    simp_all [WALHeader.valid, WALFrame.parsed, frame, newHeartbeat]
  | deleteExpired now hservice hid =>
    simp_all [WALHeader.valid, WALFrame.parsed, frame, newDeleteExpired]
    rfl
  | snapshotMark now =>
    simp_all [WALHeader.valid, WALFrame.parsed, frame, newSnapshotMark]
    rfl

theorem Accepted.encoded {crc : Bytes → UInt32} {now : ℤ} {b : Bytes} (h : e.Accepted marshal)
    (hb : encodeFileRegistryWALRecord crc now e = some b) : (e.frame 0).Proper ∧ b = (e.frame 0).encoded crc := by
  rw [encodeFileRegistryWALRecord, h.frame_eq now 0, WALFrame.encode] at hb
  split_ifs at hb with hfits
  exact ⟨⟨hfits, h.valid 0 hfits⟩, (Option.some.inj hb).symm⟩

theorem encodings_flatten {crc : Bytes → UInt32} {entries : List WALEntry} {encodings : List Bytes}
    (h : ∀ e ∈ entries, e.Accepted marshal)
    (hencoded : List.Forall₂ (fun e b => ∃ now, encodeFileRegistryWALRecord crc now e = some b) entries encodings) :
    (∀ f ∈ entries.map (frame 0), f.Proper) ∧
      encodings.flatten = (entries.map (frame 0)).flatMap (WALFrame.encoded · crc) := by
  induction hencoded with
  | nil => simp
  | cons hfirst _ ih =>
    obtain ⟨haccepted, hrest⟩ := List.forall_mem_cons.mp h
    obtain ⟨now, hb⟩ := hfirst
    obtain ⟨hproper, rfl⟩ := haccepted.encoded hb
    obtain ⟨hframes, hflatten⟩ := ih hrest
    refine ⟨List.forall_mem_cons.mpr ⟨hproper, hframes⟩, ?_⟩
    rw [List.flatten_cons, List.map_cons, List.flatMap_cons, hflatten]

end WALEntry

/-- Whatever the checksum, records that were encoded one after the other are applied in their
order and as they were, and of a record that was torn nothing is. -/
theorem replay_of_encodings {δ σ ε : Type} (marshal : δ → Option Bytes) (crc : Bytes → UInt32) (entries : List WALEntry)
    (encodings : List Bytes) (haccepted : ∀ e ∈ entries, e.Accepted marshal)
    (hencoded : List.Forall₂ (fun e b => ∃ now, encodeFileRegistryWALRecord crc now e = some b) entries encodings)
    (further : WALEntry) (hfurther : further.Accepted marshal) (now : ℤ) (last p : Bytes)
    (hlast : encodeFileRegistryWALRecord crc now further = some last) (hcut : p <+: last) (hproper : p ≠ last)
    (apply : σ → WALEntry → Except ε σ) (s s' : σ) (happly : entries.foldlM apply s = .ok s') :
    replayApplying crc apply s (encodings.flatten ++ p) =
      ({ validBytes := (encodings.map List.length).sum, truncated := !p.isEmpty, records := entries.length }, .ok s') := by
  obtain ⟨hframes, hflatten⟩ := WALEntry.encodings_flatten haccepted hencoded
  obtain ⟨hlastProper, rfl⟩ := hfurther.encoded hlast
  have hscan := replayFileRegistryWAL_encoded crc _ hframes p (.inr ⟨_, hlastProper, hcut, hproper⟩)
  rw [replayFileRegistryWAL, ← hflatten] at hscan
  have hback : (entries.map (WALEntry.frame 0)).map WALFrame.entry = entries := by
    rw [List.map_map]
    exact (List.map_congr_left (g := id) fun e he => (haccepted e he).entry_frame 0).trans (List.map_id entries)
  have hentries : (entries.map (WALEntry.frame 0)).foldlM (fun s f => apply s f.entry) s = .ok s' := by
    rw [← List.foldlM_map, hback, happly]
  have hfeed := FrameReader.feed_of_scan (R := walReader crc) (b := encodings.flatten ++ p) (by rw [hscan]; exact hentries)
  unfold replayApplying
  rw [hfeed, hscan, List.length_flatten]
  simp

def oneHeartbeat : WALEntry := .newHeartbeat [115] [97] 5 7

theorem oneHeartbeat_accepted : oneHeartbeat.Accepted (fun _ : Unit => none) where
  built := .heartbeat 7 (by simp) (by simp) (by decide)
  ttl := by simp [InInt64, oneHeartbeat, WALEntry.newHeartbeat]
  timestamp := by simp [InInt64, oneHeartbeat, WALEntry.newHeartbeat]

theorem torn_heartbeat_cut_off :
    ∃ b, encodeFileRegistryWALRecord (fun _ => 0) 0 oneHeartbeat = some b ∧
      replayApplying (ε := Unit) (fun _ => 0) (fun seen e => .ok (seen ++ [e])) [] (b ++ [0x41, 0x47, 0x52]) =
        ({ validBytes := 38, truncated := true, records := 1 }, .ok [oneHeartbeat]) := by
  refine ⟨(oneHeartbeat.frame 0).encoded fun _ => 0, by decide +kernel, ?_⟩
  have hb : encodeFileRegistryWALRecord (fun _ => 0) 0 oneHeartbeat = some ((oneHeartbeat.frame 0).encoded fun _ => 0) := by
    decide +kernel
  have hrun := replay_of_encodings (ε := Unit) (fun _ : Unit => none) (fun _ => 0) [oneHeartbeat] [_]
    (by simpa using oneHeartbeat_accepted) (.cons ⟨0, hb⟩ .nil) oneHeartbeat oneHeartbeat_accepted 0 _
    [0x41, 0x47, 0x52] hb
    (by decide +kernel) (by decide +kernel) (fun seen e => .ok (seen ++ [e])) [] [oneHeartbeat] rfl
  have hlen : ((oneHeartbeat.frame 0).encoded fun _ => 0).length = 38 := by decide +kernel
  simpa [hlen] using hrun

end AegisMesh.Registry
