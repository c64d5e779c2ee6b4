import AegisMesh.Lib.BigEndian
import AegisMesh.Lib.Frames
import AegisMesh.Registry.FileV2

/-!
# The bytes of the log (`pkg/registry/file_registry_v2.go`)

Frames are written and read over an arbitrary checksum. The JSON text of a payload is not
looked into: `marshal` and `unmarshal` stand for it.
-/

open Lib Lib.BigEndian

namespace AegisMesh.Registry

abbrev Bytes := List UInt8

/-- `fileRegistryWALRecord` as a frame carries it. The two numbers are the 64 bits of an `int64`. -/
structure WALFrame where
  op : WALOp
  timestamp : UInt64
  service : Bytes := []
  id : Bytes := []
  address : Bytes := []
  ttl : UInt64 := 0
  payload : Bytes := []
deriving DecidableEq

def WALOp.code : WALOp → UInt8
  | .register => 1
  | .heartbeat => 2
  | .deleteExpired => 3
  | .snapshotMark => 4

def WALOp.ofCode (code : UInt8) : Option WALOp :=
  if code = 1 then some .register
  else if code = 2 then some .heartbeat
  else if code = 3 then some .deleteExpired
  else if code = 4 then some .snapshotMark
  else none

theorem WALOp.ofCode_code (op : WALOp) : ofCode op.code = some op := by
  cases op <;> rfl

def fileRegistryWALMagic : ℕ := 0x41475257

def fileRegistryWALVersion : UInt8 := 1

def fileRegistryWALHeaderSize : ℕ := 32

def fileRegistryWALCRCSize : ℕ := 4

def int64 (bits : UInt64) : ℤ := if bits.toNat < 2 ^ 63 then bits.toNat else bits.toNat - 2 ^ 64

/-! ## Writing -/

namespace WALFrame

variable (f : WALFrame)

def body : Bytes := f.service ++ (f.id ++ (f.address ++ f.payload))

def header : Bytes :=
  bytes 4 fileRegistryWALMagic ++ ([fileRegistryWALVersion] ++ ([f.op.code] ++ (bytes 8 f.timestamp.toNat ++
    (bytes 2 f.service.length ++ (bytes 2 f.id.length ++ (bytes 2 f.address.length ++
      (bytes 4 f.payload.length ++ bytes 8 f.ttl.toNat)))))))

def fits : Bool :=
  f.service.length ≤ maxNameLen && f.id.length ≤ maxNameLen && f.address.length ≤ maxNameLen &&
    f.payload.length ≤ maxFileRegistryPayloadLen

variable (crc : Bytes → UInt32)

def encoded : Bytes := f.header ++ (f.body ++ bytes fileRegistryWALCRCSize (crc (f.header ++ f.body)).toNat)

/-- `encodeFileRegistryWALRecord`. A timestamp is never Go's zero time. -/
def encode : Option Bytes := if f.fits then some (f.encoded crc) else none

end WALFrame

/-! ## Reading -/

structure WALHeader where
  op : WALOp
  timestamp : UInt64
  ttl : UInt64
  serviceLen : ℕ
  idLen : ℕ
  addressLen : ℕ
  payloadLen : ℕ
deriving DecidableEq

namespace WALHeader

variable (h : WALHeader)

def bodyLen : ℕ := h.serviceLen + h.idLen + h.addressLen + h.payloadLen

def valid : Bool :=
  h.payloadLen ≤ maxFileRegistryPayloadLen &&
    match h.op with
    | .register => h.serviceLen ≠ 0 && h.idLen ≠ 0 && h.addressLen ≠ 0 && 0 < int64 h.ttl
    | .heartbeat => h.serviceLen ≠ 0 && h.idLen ≠ 0 && h.addressLen = 0 && h.payloadLen = 0 && 0 < int64 h.ttl
    | .deleteExpired => h.serviceLen ≠ 0 && h.idLen ≠ 0 && h.addressLen = 0 && h.payloadLen = 0 && h.ttl = 0
    | .snapshotMark => h.serviceLen = 0 && h.idLen = 0 && h.addressLen = 0 && h.payloadLen = 0 && h.ttl = 0

def populate (body : Bytes) : WALFrame where
  op := h.op
  timestamp := h.timestamp
  service := body.take h.serviceLen
  id := (body.drop h.serviceLen).take h.idLen
  address := (body.drop (h.serviceLen + h.idLen)).take h.addressLen
  ttl := h.ttl
  payload := (body.drop (h.serviceLen + h.idLen + h.addressLen)).take h.payloadLen

end WALHeader

def parseFileRegistryWALHeader (header : Bytes) : Option WALHeader :=
  if field header 0 4 ≠ fileRegistryWALMagic ∨ field header 4 1 ≠ fileRegistryWALVersion.toNat then none
  else
    match WALOp.ofCode (.ofNat (field header 5 1)) with
    | none => none
    | some op =>
      let h : WALHeader :=
        { op
          timestamp := .ofNat (field header 6 8)
          serviceLen := field header 14 2
          idLen := field header 16 2
          addressLen := field header 18 2
          payloadLen := field header 20 4
          ttl := .ofNat (field header 24 8) }
      if h.valid then some h else none

/-- One turn of the loop of `replayFileRegistryWAL`: the frame at the front of the file, and what
is behind it. -/
def readWALFrame (crc : Bytes → UInt32) (b : Bytes) : Option (WALFrame × Bytes) :=
  if b.length < fileRegistryWALHeaderSize then none
  else
    let header := b.take fileRegistryWALHeaderSize
    match parseFileRegistryWALHeader header with
    | none => none
    | some h =>
      let rest := b.drop fileRegistryWALHeaderSize
      if rest.length < h.bodyLen + fileRegistryWALCRCSize then none
      else
        let body := rest.take h.bodyLen
        if (crc (header ++ body)).toNat ≠ field rest h.bodyLen fileRegistryWALCRCSize then none
        else some (h.populate body, rest.drop (h.bodyLen + fileRegistryWALCRCSize))

theorem readWALFrame_shrinks {crc : Bytes → UInt32} {b rest : Bytes} {f : WALFrame}
    (h : readWALFrame crc b = some (f, rest)) : rest.length < b.length := by
  unfold readWALFrame at h
  dsimp only at h
  split at h
  · cases h
  rename_i hlong
  split at h
  · cases h
  split at h
  · cases h
  split at h
  · cases h
  · cases h
    simp only [List.length_drop, fileRegistryWALHeaderSize] at hlong ⊢
    omega

def walReader (crc : Bytes → UInt32) : FrameReader UInt8 WALFrame where
  read := readWALFrame crc
  shrinks := readWALFrame_shrinks

def replayFileRegistryWAL (crc : Bytes → UInt32) (b : Bytes) : Scan WALFrame := (walReader crc).scan b

/-! ## Round trip -/

namespace WALFrame

variable (f : WALFrame) (crc : Bytes → UInt32)

def parsed : WALHeader where
  op := f.op
  timestamp := f.timestamp
  ttl := f.ttl
  serviceLen := f.service.length
  idLen := f.id.length
  addressLen := f.address.length
  payloadLen := f.payload.length

@[simp] theorem length_header : f.header.length = fileRegistryWALHeaderSize := by
  simp [header, fileRegistryWALHeaderSize]

@[simp] theorem length_body : f.body.length = f.parsed.bodyLen := by
  simp [body, parsed, WALHeader.bodyLen]
  omega

theorem length_encoded :
    (f.encoded crc).length = fileRegistryWALHeaderSize + f.parsed.bodyLen + fileRegistryWALCRCSize := by
  simp [encoded]
  omega

theorem field_magic : field f.header 0 4 = fileRegistryWALMagic := by
  rw [header, field_here (length_bytes 4 _), value_bytes (by decide)]

theorem field_version : field f.header 4 1 = fileRegistryWALVersion.toNat := by
  show field f.header (4 + 0) 1 = _
  rw [header, field_skip (length_bytes 4 _), field_here List.length_singleton, value_singleton]

theorem field_op : field f.header 5 1 = f.op.code.toNat := by
  show field f.header (4 + (1 + 0)) 1 = _
  rw [header, field_skip (length_bytes 4 _), field_skip List.length_singleton, field_here List.length_singleton,
    value_singleton]

theorem fields (hfits : f.fits = true) :
    field f.header 6 8 = f.timestamp.toNat ∧ field f.header 14 2 = f.service.length ∧
      field f.header 16 2 = f.id.length ∧ field f.header 18 2 = f.address.length ∧
      field f.header 20 4 = f.payload.length ∧ field f.header 24 8 = f.ttl.toNat := by
  simp only [fits, Bool.and_eq_true, decide_eq_true_eq] at hfits
  unfold maxNameLen maxFileRegistryPayloadLen at hfits
  obtain ⟨⟨⟨hservice, hid⟩, haddress⟩, hpayload⟩ := hfits
  have hskip : ∀ offset size, field f.header (4 + (1 + (1 + offset))) size =
      field (bytes 8 f.timestamp.toNat ++ (bytes 2 f.service.length ++ (bytes 2 f.id.length ++
        (bytes 2 f.address.length ++ (bytes 4 f.payload.length ++ bytes 8 f.ttl.toNat))))) offset size := by
    intro offset size
    rw [header, field_skip (length_bytes 4 _), field_skip List.length_singleton, field_skip List.length_singleton]
  refine ⟨?_, ?_, ?_, ?_, ?_, ?_⟩
  · rw [hskip 0, field_here (length_bytes 8 _), value_bytes f.timestamp.toNat_lt]
  · rw [hskip (8 + 0), field_skip (length_bytes 8 _), field_here (length_bytes 2 _), value_bytes (by omega)]
  · rw [hskip (8 + (2 + 0)), field_skip (length_bytes 8 _), field_skip (length_bytes 2 _), field_here (length_bytes 2 _),
      value_bytes (by omega)]
  · rw [hskip (8 + (2 + (2 + 0))), field_skip (length_bytes 8 _), field_skip (length_bytes 2 _),
      field_skip (length_bytes 2 _), field_here (length_bytes 2 _), value_bytes (by omega)]
  · rw [hskip (8 + (2 + (2 + (2 + 0)))), field_skip (length_bytes 8 _), field_skip (length_bytes 2 _),
      field_skip (length_bytes 2 _), field_skip (length_bytes 2 _), field_here (length_bytes 4 _), value_bytes (by omega)]
  · rw [hskip (8 + (2 + (2 + (2 + (4 + 0))))), field_skip (length_bytes 8 _), field_skip (length_bytes 2 _),
      field_skip (length_bytes 2 _), field_skip (length_bytes 2 _), field_skip (length_bytes 4 _),
      ← List.append_nil (bytes 8 f.ttl.toNat), field_here (length_bytes 8 _), value_bytes f.ttl.toNat_lt]

variable {f}

theorem parse_header (hfits : f.fits = true) (hvalid : f.parsed.valid = true) :
    parseFileRegistryWALHeader f.header = some f.parsed := by
  obtain ⟨htimestamp, hservice, hid, haddress, hpayload, httl⟩ := f.fields hfits
  have hop : WALOp.ofCode (.ofNat (field f.header 5 1)) = some f.op := by
    rw [f.field_op, UInt8.ofNat_toNat, WALOp.ofCode_code]
  unfold parseFileRegistryWALHeader
  rw [if_neg (by simp [f.field_magic, f.field_version]), hop]
  simp only [htimestamp, hservice, hid, haddress, hpayload, httl, UInt64.ofNat_toNat]
  exact if_pos hvalid

theorem populate_body : f.parsed.populate f.body = f := by
  simp only [WALHeader.populate, parsed, body, ← List.drop_drop, List.drop_left, List.take_left, List.take_length]

theorem readWALFrame_header (hfits : f.fits = true) (hvalid : f.parsed.valid = true) (rest : Bytes) :
    readWALFrame crc (f.header ++ rest) =
      if rest.length < f.parsed.bodyLen + fileRegistryWALCRCSize then none
      else if (crc (f.header ++ rest.take f.parsed.bodyLen)).toNat ≠ field rest f.parsed.bodyLen fileRegistryWALCRCSize then
        none
      else some (f.parsed.populate (rest.take f.parsed.bodyLen), rest.drop (f.parsed.bodyLen + fileRegistryWALCRCSize)) := by
  have htake : (f.header ++ rest).take fileRegistryWALHeaderSize = f.header := by
    rw [← f.length_header, List.take_left]
  have hdrop : (f.header ++ rest).drop fileRegistryWALHeaderSize = rest := by
    rw [← f.length_header, List.drop_left]
  unfold readWALFrame
  dsimp only
  rw [if_neg (by simp), htake, hdrop, parse_header hfits hvalid]

theorem readWALFrame_encoded (hfits : f.fits = true) (hvalid : f.parsed.valid = true) (rest : Bytes) :
    readWALFrame crc (f.encoded crc ++ rest) = some (f, rest) := by
  have hcrc : (crc (f.header ++ f.body)).toNat < 256 ^ fileRegistryWALCRCSize := (crc _).toNat_lt
  have htail : ∀ tail : Bytes, (f.body ++ tail).take f.parsed.bodyLen = f.body := by
    intro tail
    rw [← f.length_body, List.take_left]
  rw [encoded, List.append_assoc, List.append_assoc, readWALFrame_header crc hfits hvalid, htail, if_neg (by simp), if_neg,
    populate_body]
  · rw [← f.length_body, ← List.drop_drop, List.drop_left]
    have hsum : fileRegistryWALCRCSize = (bytes fileRegistryWALCRCSize (crc (f.header ++ f.body)).toNat).length := by simp
    nth_rewrite 1 [hsum]
    rw [List.drop_left]
  · rw [not_not, ← Nat.add_zero f.parsed.bodyLen, field_skip f.length_body, field_here (length_bytes _ _),
      value_bytes hcrc]

theorem readWALFrame_torn (hfits : f.fits = true) (hvalid : f.parsed.valid = true) {p : Bytes} (hp : p <+: f.encoded crc)
    (hne : p ≠ f.encoded crc) : readWALFrame crc p = none := by
  have hlen : p.length < (f.encoded crc).length := by
    refine lt_of_le_of_ne hp.length_le fun heq => hne (hp.eq_of_length heq)
  rw [length_encoded] at hlen
  by_cases hshort : p.length < fileRegistryWALHeaderSize
  · exact if_pos hshort
  · -- The header is whole, and what is missing is the end of the body or of the checksum.
    obtain ⟨rest, hrest⟩ : f.header <+: p :=
      List.prefix_of_prefix_length_le (List.prefix_append f.header _) hp (by rw [length_header]; omega)
    rw [← hrest, List.length_append, length_header] at hlen
    rw [← hrest, readWALFrame_header crc hfits hvalid, if_pos (by omega)]

theorem encoded_ne_nil : f.encoded crc ≠ [] := by
  intro h
  have hlen := f.length_encoded crc
  rw [h, List.length_nil, fileRegistryWALHeaderSize] at hlen
  omega

end WALFrame

def WALFrame.Proper (f : WALFrame) : Prop := f.fits = true ∧ f.parsed.valid = true

theorem replayFileRegistryWAL_encoded (crc : Bytes → UInt32) (frames : List WALFrame) (hframes : ∀ f ∈ frames, f.Proper)
    (p : Bytes) (hp : p = [] ∨ ∃ f : WALFrame, f.Proper ∧ p <+: f.encoded crc ∧ p ≠ f.encoded crc) :
    replayFileRegistryWAL crc (frames.flatMap (WALFrame.encoded · crc) ++ p) =
      { frames, size := (frames.flatMap (WALFrame.encoded · crc)).length, torn := !p.isEmpty } := by
  have hread : (walReader crc).read = readWALFrame crc := rfl
  refine FrameReader.scan_encoded (fun f hf => ⟨f.encoded_ne_nil crc, fun rest => ?_⟩) fun hne => ?_ <;> rw [hread]
  · exact WALFrame.readWALFrame_encoded crc (hframes f hf).1 (hframes f hf).2 rest
  · obtain ⟨f, hproper, hprefix, hcut⟩ := hp.resolve_left hne
    exact WALFrame.readWALFrame_torn crc hproper.1 hproper.2 hprefix hcut

/-! ## Records -/

def utf8 (s : String) : Bytes := s.toUTF8.data.toList

def ofUTF8 (b : Bytes) : Option String := String.fromUTF8? ⟨b.toArray⟩

/-- The frame of a record. Its numbers are taken modulo 2⁶⁴. -/
def WALRecord.frame (marshal : RegisterPayload → Bytes) (record : WALRecord) : WALFrame where
  op := record.op
  timestamp := .ofNat record.timestamp
  service := utf8 record.service
  id := utf8 record.id
  address := utf8 record.address
  ttl := .ofInt record.ttl
  payload := (record.payload.map marshal).getD []

/-- The record of a frame; `none` where a name is not UTF-8 or the payload does not unmarshal. -/
def WALFrame.record (unmarshal : Bytes → Option RegisterPayload) (f : WALFrame) : Option WALRecord := do
  let service ← ofUTF8 f.service
  let id ← ofUTF8 f.id
  let address ← ofUTF8 f.address
  let payload ← if f.payload = [] then some none else (unmarshal f.payload).map some
  return { op := f.op, timestamp := (int64 f.timestamp).toNat, service, id, address, ttl := int64 f.ttl, payload }

def markFrame (now : ℕ) : WALFrame where
  op := .snapshotMark
  timestamp := .ofNat now

theorem frame_mark (marshal : RegisterPayload → Bytes) (now : ℕ) :
    (newSnapshotMarkWALRecord now).frame marshal = markFrame now := by
  rfl

theorem record_mark (unmarshal : Bytes → Option RegisterPayload) (now : ℕ) :
    ∃ read ≤ now, (markFrame now).record unmarshal = some (newSnapshotMarkWALRecord read) := by
  refine ⟨(int64 (.ofNat now)).toNat, ?_, rfl⟩
  have hbits : (UInt64.ofNat now).toNat ≤ now := by
    rw [UInt64.toNat_ofNat']
    exact Nat.mod_le _ _
  have hword := (UInt64.ofNat now).toNat_lt
  unfold int64
  split <;> omega

end AegisMesh.Registry
