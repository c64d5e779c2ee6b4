import AegisMesh.Lib.CLayout

/-!
# Kernel events (`agent/ebpf/event.go`, `agent/ebpf/bpf/tcp_metrics.bpf.c`)

The kernel side fills a `struct tcp_event` and hands its bytes to user space, where
`DecodeRawTCPEvent` reads them at fixed offsets.
-/

open Lib

namespace AegisMesh.Ebpf

/-! ## The kernel side -/

structure TcpEvent where
  timestampNs : UInt64
  pid : UInt32
  type : UInt32
  family : UInt16
  sport : UInt16
  dport : UInt16
  pad : UInt16
  ret : Int32
  saddrV4 : UInt32
  daddrV4 : UInt32
  connectLatencyNs : UInt64
  comm : List UInt8
  comm_length : comm.length = 16

def intMember (size value : ℕ) : Member := { align := size, bytes := leBytes size value }

def TcpEvent.members (e : TcpEvent) : List Member :=
  [intMember 8 e.timestampNs.toNat, intMember 4 e.pid.toNat, intMember 4 e.type.toNat, intMember 2 e.family.toNat,
    intMember 2 e.sport.toNat, intMember 2 e.dport.toNat, intMember 2 e.pad.toNat, intMember 4 e.ret.toUInt32.toNat,
    intMember 4 e.saddrV4.toNat, intMember 4 e.daddrV4.toNat, intMember 8 e.connectLatencyNs.toNat,
    { align := 1, bytes := e.comm }]

def TcpEvent.bytes (fill : ℕ → UInt8) (e : TcpEvent) : List UInt8 := structBytes fill e.members

/-! ## The user-space side -/

def packEndpoint (ipv4 : UInt32) (port : UInt16) : UInt64 :=
  if ipv4 = 0 ∨ port = 0 then 0 else ipv4.toUInt64 <<< 16 ||| port.toUInt64

def eventTypeRetransmit : UInt32 := 1

def eventTypeConnect : UInt32 := 2

/-- `TCPEvent`, as far as the decoder fills it. Times are nanoseconds. -/
structure TCPEvent where
  type : UInt32
  remoteKey : UInt64
  localKey : UInt64
  pid : UInt32
  comm : List UInt8
  connectLatency : Int64
  observedAt : Int64
  retransmits : ℕ
  connectErrors : ℕ
deriving DecidableEq

inductive DecodeError
  | shortSample
deriving DecidableEq, Repr

def rawTCPEventSize : ℕ := 60

def offTimestampNS : ℕ := 0
def offPID : ℕ := 8
def offType : ℕ := 12
def offSport : ℕ := 18
def offDport : ℕ := 20
def offRet : ℕ := 24
def offSaddrV4 : ℕ := 28
def offDaddrV4 : ℕ := 32
def offConnectLatencyNS : ℕ := 36
def offComm : ℕ := 44

def uint16At (sample : List UInt8) (off : ℕ) : UInt16 := .ofNat (leNat (bytesAt sample off 2))

def uint32At (sample : List UInt8) (off : ℕ) : UInt32 := .ofNat (leNat (bytesAt sample off 4))

def uint64At (sample : List UInt8) (off : ℕ) : UInt64 := .ofNat (leNat (bytesAt sample off 8))

def decodeRawTCPEvent (sample : List UInt8) : Except DecodeError TCPEvent :=
  if sample.length < rawTCPEventSize then .error .shortSample
  else
    let eventType := uint32At sample offType
    let ret := (uint32At sample offRet).toInt32
    .ok
      { type := eventType
        remoteKey := packEndpoint (uint32At sample offDaddrV4) (uint16At sample offDport)
        localKey := packEndpoint (uint32At sample offSaddrV4) (uint16At sample offSport)
        pid := uint32At sample offPID
        comm := bytesAt sample offComm 16
        connectLatency := (uint64At sample offConnectLatencyNS).toInt64
        observedAt := (uint64At sample offTimestampNS).toInt64
        retransmits := if eventType = eventTypeRetransmit then 1 else 0
        connectErrors := if eventType = eventTypeConnect ∧ ret ≠ 0 then 1 else 0 }

/-! ## Agreement -/

structure Undone (e : TcpEvent) (event : TCPEvent) : Prop where
  observedAt : event.observedAt = e.timestampNs.toInt64
  pid : event.pid = e.pid
  type : event.type = e.type
  connectLatency : event.connectLatency = e.connectLatencyNs.toInt64
  comm : event.comm = e.comm
  remoteKey : event.remoteKey = packEndpoint e.daddrV4 e.dport
  localKey : event.localKey = packEndpoint e.saddrV4 e.sport
  connectErrors : event.connectErrors = if e.type = eventTypeConnect ∧ e.ret ≠ 0 then 1 else 0

def gap (fill : ℕ → UInt8) : List UInt8 := padding fill 36 4

variable (fill : ℕ → UInt8) (e : TcpEvent) {sample : List UInt8}

theorem length_gap : (gap fill).length = 4 := rfl

theorem padding_zero (pos : ℕ) : padding fill pos 0 = [] := rfl

def head : List UInt8 :=
  leBytes 8 e.timestampNs.toNat ++ (leBytes 4 e.pid.toNat ++ (leBytes 4 e.type.toNat ++ (leBytes 2 e.family.toNat ++
    (leBytes 2 e.sport.toNat ++ (leBytes 2 e.dport.toNat ++ (leBytes 2 e.pad.toNat ++
    (leBytes 4 e.ret.toUInt32.toNat ++ (leBytes 4 e.saddrV4.toNat ++ leBytes 4 e.daddrV4.toNat))))))))

theorem length_head : (head e).length = 36 := rfl

theorem layOut_intMember {pos size : ℕ} (h : padLen pos size = 0) (value : ℕ) (rest : List Member) :
    layOut fill pos (intMember size value :: rest) = leBytes size value ++ layOut fill (pos + size) rest := by
  simp only [layOut, intMember, h, padding_zero, List.nil_append, Nat.add_zero, length_leBytes]

theorem bytes_eq : e.bytes fill =
    head e ++ (gap fill ++ (leBytes 8 e.connectLatencyNs.toNat ++ e.comm)) := by
  have hrest : layOut fill 36 [intMember 8 e.connectLatencyNs.toNat, { align := 1, bytes := e.comm }] =
      gap fill ++ (leBytes 8 e.connectLatencyNs.toNat ++ e.comm) := by
    simp [layOut, intMember, padLen, padding_zero, gap]
  have hbody : layOut fill 0 e.members =
      head e ++ (gap fill ++ (leBytes 8 e.connectLatencyNs.toNat ++ e.comm)) := by
    simp only [TcpEvent.members, head, List.append_assoc, ← hrest]
    repeat rw [layOut_intMember fill rfl]
  have hlength : (layOut fill 0 e.members).length = 64 := by
    rw [hbody]
    simp [length_gap, length_head, e.comm_length]
  have halign : e.members.map Member.align = [8, 4, 4, 2, 2, 2, 2, 4, 4, 4, 8, 1] := rfl
  have hpad : padLen 64 ((e.members.map Member.align).foldr max 1) = 0 := by
    rw [halign]
    decide
  rw [TcpEvent.bytes, structBytes, hlength, hpad, padding_zero, List.append_nil, hbody]

theorem eq_repeat {g l : List UInt8} (hg : g.length = 4) :
    g ++ l.take 12 = l ↔ l = g ++ (g ++ (g ++ g)) := by
  constructor
  · intro h
    have hstep : ∀ n, l.take (n + 4) = g ++ l.take (min n 12) := by
      intro n
      conv_lhs => rw [← h]
      rw [List.take_append, hg, List.take_take, List.take_of_length_le (by omega)]
      rfl
    have h4 : l.take 4 = g := by simpa using hstep 0
    have h8 : l.take 8 = g ++ g := by simpa [h4] using hstep 4
    have h12 : l.take 12 = g ++ (g ++ g) := by simpa [h8] using hstep 8
    rw [← h, h12]
  · intro h
    have htake : l.take 12 = g ++ (g ++ g) := by
      rw [h]
      simp [List.take_append, hg, List.take_of_length_le]
    rw [htake, h]

/-! ### What each read sees -/

theorem bytesAt_head {off n : ℕ} (h : off + n ≤ 36) : bytesAt (e.bytes fill) off n = bytesAt (head e) off n := by
  rw [bytes_eq]
  exact bytesAt_append_left _ (by rwa [length_head])

theorem bytesAt_latency : bytesAt (e.bytes fill) offConnectLatencyNS 8 =
    gap fill ++ (leBytes 8 e.connectLatencyNs.toNat).take 4 := by
  rw [bytes_eq]
  exact bytesAt_append_right (head e) _ 0 8

theorem bytesAt_comm : bytesAt (e.bytes fill) offComm 16 =
    (leBytes 8 e.connectLatencyNs.toNat).drop 4 ++ e.comm.take 12 := by
  rw [bytes_eq]
  exact bytesAt_append_right (head e) _ 8 16

theorem uint16At_of {off : ℕ} {v : UInt16} (h : bytesAt sample off 2 = leBytes 2 v.toNat) :
    uint16At sample off = v := by
  rw [uint16At, h, leNat_leBytes_of_lt v.toNat_lt, UInt16.ofNat_toNat]

theorem uint32At_of {off : ℕ} {v : UInt32} (h : bytesAt sample off 4 = leBytes 4 v.toNat) :
    uint32At sample off = v := by
  rw [uint32At, h, leNat_leBytes_of_lt v.toNat_lt, UInt32.ofNat_toNat]

theorem uint64At_iff {off : ℕ} {v : UInt64} (hlen : (bytesAt sample off 8).length = 8) :
    uint64At sample off = v ↔ bytesAt sample off 8 = leBytes 8 v.toNat := by
  have hlt : leNat (bytesAt sample off 8) < 2 ^ 64 := by
    have := leNat_lt (bytesAt sample off 8)
    rwa [hlen] at this
  rw [uint64At, ← UInt64.toNat_inj, UInt64.toNat_ofNat_of_lt' hlt]
  constructor
  · intro h
    apply leNat_inj (by simp [hlen])
    rw [h, leNat_leBytes_of_lt v.toNat_lt]
  · intro h
    rw [h, leNat_leBytes_of_lt v.toNat_lt]

theorem decode_head :
    uint64At (e.bytes fill) offTimestampNS = e.timestampNs ∧ uint32At (e.bytes fill) offPID = e.pid ∧
    uint32At (e.bytes fill) offType = e.type ∧ uint16At (e.bytes fill) offSport = e.sport ∧
    uint16At (e.bytes fill) offDport = e.dport ∧ uint32At (e.bytes fill) offRet = e.ret.toUInt32 ∧
    uint32At (e.bytes fill) offSaddrV4 = e.saddrV4 ∧ uint32At (e.bytes fill) offDaddrV4 = e.daddrV4 := by
  refine ⟨(uint64At_iff ?_).mpr ?_, uint32At_of ?_, uint32At_of ?_, uint16At_of ?_, uint16At_of ?_, uint32At_of ?_,
    uint32At_of ?_, uint32At_of ?_⟩
  all_goals rw [bytesAt_head fill e (by decide)]
  all_goals rfl

theorem length_bytes : (e.bytes fill).length = 64 := by
  rw [bytes_eq]
  simp [length_gap, length_head, e.comm_length]

theorem latency_iff :
    uint64At (e.bytes fill) offConnectLatencyNS = e.connectLatencyNs ↔
      leBytes 8 e.connectLatencyNs.toNat = gap fill ++ gap fill := by
  rw [uint64At_iff (by rw [bytesAt_latency]; rfl), bytesAt_latency]
  constructor
  · intro h
    have htake : (leBytes 8 e.connectLatencyNs.toNat).take 4 = gap fill := by
      rw [← h]
      rfl
    rw [← h, htake]
  · intro h
    rw [h]
    rfl

def RepeatsGap : Prop :=
  leBytes 8 e.connectLatencyNs.toNat = gap fill ++ gap fill ∧
    e.comm = gap fill ++ (gap fill ++ (gap fill ++ gap fill))

/-- The decoder gives back what the kernel wrote exactly when the latency and the name repeat
the bytes of the gap that the decoder does not know of. -/
theorem decode_undone_iff (fill : ℕ → UInt8) (e : TcpEvent) :
    (∃ event, decodeRawTCPEvent (e.bytes fill) = .ok event ∧ Undone e event) ↔ RepeatsGap fill e := by
  obtain ⟨htime, hpid, htype, hsport, hdport, hret, hsaddr, hdaddr⟩ := decode_head fill e
  have hlong : ¬ (e.bytes fill).length < rawTCPEventSize := by
    rw [length_bytes]
    decide
  rw [decodeRawTCPEvent, if_neg hlong]
  constructor
  · rintro ⟨event, heq, hundone⟩
    cases heq
    have hlatency := (latency_iff fill e).mp (congrArg Int64.toUInt64 hundone.connectLatency)
    have hcomm := hundone.comm
    rw [bytesAt_comm, hlatency] at hcomm
    exact ⟨hlatency, (eq_repeat (length_gap fill)).mp hcomm⟩
  · rintro ⟨hlatency, hcomm⟩
    refine ⟨_, rfl, ?_⟩
    constructor
    · simp only [htime]
    · simp only [hpid]
    · simp only [htype]
    · simp only [(latency_iff fill e).mpr hlatency]
    · simp only [bytesAt_comm, hlatency]
      exact (eq_repeat (length_gap fill)).mpr hcomm
    · simp only [hdaddr, hdport]
    · simp only [hsaddr, hsport]
    · simp only [htype, hret]
      rfl

def quickConnect : TcpEvent where
  timestampNs := 7
  pid := 1
  type := 2
  family := 2
  sport := 80
  dport := 443
  pad := 0
  ret := 0
  saddrV4 := 1
  daddrV4 := 2
  connectLatencyNs := 1
  comm := List.replicate 16 0
  comm_length := rfl

theorem quick_connect_garbled :
    (decodeRawTCPEvent (quickConnect.bytes fun _ => 0)).map TCPEvent.connectLatency = .ok 4294967296 ∧
      ¬ ∃ event, decodeRawTCPEvent (quickConnect.bytes fun _ => 0) = .ok event ∧ Undone quickConnect event := by
  have hdecoded : (decodeRawTCPEvent (quickConnect.bytes fun _ => 0)).map TCPEvent.connectLatency =
      .ok 4294967296 := by decide +kernel
  refine ⟨hdecoded, ?_⟩
  rintro ⟨event, heq, hundone⟩
  rw [heq] at hdecoded
  have hlatency := hundone.connectLatency.symm.trans (Except.ok.inj hdecoded)
  exact absurd hlatency (by decide)

end AegisMesh.Ebpf
