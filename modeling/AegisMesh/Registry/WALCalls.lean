import AegisMesh.Lib.RWMutex
import AegisMesh.Registry.WALPromises

/-!
# The log and its callers (`pkg/registry/file_registry_v2.go`)

Calls hand their requests to the goroutine through a channel, with the read lock held until
they have their answer.
-/

open Lib

namespace AegisMesh.Registry.FileRegistryWAL

/-! ## The goroutine -/

inductive Goroutine
  | waiting (w : Writer)
  | working (code : Work (Option Writer))
  | returned

/-- `fileRegistryWAL`. The last three fields record who did what. -/
structure WAL where
  requests : List Request := []
  submitMu : RWMutex := {}
  closed : Bool := false
  goroutine : Goroutine := .waiting {}
  disk : Disk
  submitted : List Request := []
  taken : List Request := []
  /-- The call of `Close` that swapped `closed`. -/
  closer : Option ℕ := none

def openWAL (content synced : Bytes) : WAL where
  disk := { content, synced }

inductive WriterEvent
  | receive
  | tick
  | go (fault : Fault)

namespace WAL

variable (s : WAL)

def done : Bool :=
  match s.goroutine with
  | .returned => true
  | _ => false

def step (cfg : WALConfig) : WriterEvent → WAL
  | .receive =>
    match s.goroutine, s.requests with
    | .waiting w, req :: rest =>
      { s with requests := rest, taken := s.taken ++ [req], goroutine := .working (w.handle cfg req) }
    | _, _ => s
  | .tick =>
    match s.goroutine with
    | .waiting w => { s with goroutine := .working (do let w ← w.tick; pure (some w)) }
    | _ => s
  | .go fault =>
    match s.goroutine with
    | .working (.done (some w)) => { s with goroutine := .waiting w }
    | .working (.done none) => { s with goroutine := .returned }
    | .working (.call op next) =>
      { s with disk := (s.disk.perform fault op).2, goroutine := .working (next (s.disk.perform fault op).1) }
    | _ => s

def send (req : Request) : WAL := { s with requests := s.requests ++ [req], submitted := s.submitted ++ [req] }

end WAL

/-! ## The calls -/

inductive Call
  | append (record : WALFrame)
  | reset (mark : WALFrame)
  | close

inductive Place
  | entered (call : Call)
  | arriving (req : Request)
  | checking (req : Request)
  | selecting (req : Request)
  | waiting
  | leaving (err : Option WALError)
  | won
  | pending
  | locked
  | sent
  | acked (err : Option WALError)
  | unlocking (err : Option WALError)
  | joining
  | returned (err : Option WALError)

inductive Case
  | context
  | done
  | ready
deriving DecidableEq

def Place.role : Place → LockRole
  | .checking _ | .selecting _ | .waiting | .leaving _ => .reading
  | .pending => .pending
  | .locked | .sent | .acked _ | .unlocking _ => .writing
  | _ => .away

section

variable (crc : Bytes → UInt32) (cfg : WALConfig)

def encoded (s : WAL) (kind : RequestKind) (record : WALFrame) (id : ℕ) : WAL × Place :=
  match record.encode crc with
  | none => (s, .returned (some .invalid))
  | some data => (s, .arriving { kind, data, caller := id })

def WAL.pass (s : WAL) (old new : Place) : Option (WAL × Place) :=
  (s.submitMu.pass old.role new.role).map fun submitMu => ({ s with submitMu }, new)

def callStep (id : ℕ) (s : WAL) (place : Place) (taken : Case) : Option (WAL × Place) :=
  match place with
  | .entered (.append record) => some (encoded crc s .append record id)
  | .entered (.reset mark) => some (encoded crc s .reset mark id)
  | .entered .close =>
    if s.closed then some (s, .joining) else some ({ s with closed := true, closer := some id }, .won)
  | .arriving req => s.pass (.arriving req) (.checking req)
  | .checking req => if s.closed then some (s, .leaving (some .closed)) else some (s, .selecting req)
  | .selecting req =>
    match taken with
    | .context => some (s, .leaving (some .context))
    | .done => if s.done then some (s, .leaving (some .closed)) else none
    | .ready => if s.requests.length < cfg.requestBuffer then some (s.send req, .waiting) else none
  | .waiting => (s.disk.ackOf id).map fun err => (s, .leaving err)
  | .leaving err => s.pass (.leaving err) (.returned err)
  | .won => s.pass .won .pending
  | .pending => s.pass .pending .locked
  | .locked =>
    if taken = .done then if s.done then some (s, .unlocking none) else none
    else if s.requests.length < cfg.requestBuffer then some (s.send { kind := .close, caller := id }, .sent)
    else none
  | .sent =>
    if taken = .done then if s.done then some (s, .unlocking none) else none
    else (s.disk.ackOf id).map fun err => (s, .acked err)
  | .acked err => if s.done then some (s, .unlocking err) else none
  | .unlocking err => s.pass (.unlocking err) (.returned err)
  | .joining => if s.done then some (s, .returned none) else none
  | .returned _ => none

def system : ThreadSystem WAL Place Call Case WriterEvent where
  start := .entered
  move := callStep crc cfg
  outside := fun s e => s.step cfg e

end

namespace Place

def fresh : Place → Bool
  | .entered _ | .arriving _ | .checking _ | .selecting _ | .won | .pending | .locked => true
  | _ => false

def closing : Place → Bool
  | .won | .pending | .locked => true
  | _ => false

def request : Place → Option Request
  | .arriving req | .checking req | .selecting req => some req
  | _ => none

end Place

structure Quiet (s : WAL) (id : ℕ) (old new : Place) : Prop where
  fresh : new.fresh = true → old.fresh = true
  closing : new.closing = true → old.closing = true
  request : ∀ req, new.request = some req → old.request = some req ∨ req.caller = id ∧ req.kind ≠ .close
  selecting : ∀ req, new = .selecting req → s.closed = false

inductive CallDid (s : WAL) (id : ℕ) : Place → WAL → Place → Prop
  | stays {old new} (hrole : new.role = old.role) (hquiet : Quiet s id old new) : CallDid s id old s new
  | passes {old new submitMu} (hpass : s.submitMu.pass old.role new.role = some submitMu) (hquiet : Quiet s id old new) :
    CallDid s id old { s with submitMu } new
  | wins (hclosed : s.closed = false) :
    CallDid s id (.entered .close) { s with closed := true, closer := some id } .won
  | submits {req} : CallDid s id (.selecting req) (s.send req) .waiting
  | closes : CallDid s id .locked (s.send { kind := .close, caller := id }) .sent

section

variable {crc : Bytes → UInt32} {cfg : WALConfig} {s s' : WAL} {id : ℕ} {place place' : Place} {taken : Case}

theorem Quiet.behind {old new : Place} (hfresh : new.fresh = false) : Quiet s id old new := by
  cases new with
  | entered | arriving | checking | selecting | won | pending | locked => cases hfresh
  | _ =>
    exact ⟨(fun h => by cases h), (fun h => by cases h), (fun _ h => by cases h), (fun _ h => by cases h)⟩

theorem did_pass {old new : Place} (h : s.pass old new = some (s', place')) (hquiet : Quiet s id old new) :
    CallDid s id old s' place' := by
  obtain ⟨submitMu, hpass, heq⟩ := Option.map_eq_some_iff.mp h
  cases heq
  exact .passes hpass hquiet

theorem did_encoded {kind : RequestKind} {record : WALFrame} {call : Call} (hkind : kind ≠ .close)
    (h : encoded crc s kind record id = (s', place')) : CallDid s id (.entered call) s' place' := by
  unfold encoded at h
  split at h
  · cases h
    exact .stays rfl (.behind rfl)
  · cases h
    refine .stays rfl ⟨fun _ => rfl, (fun h => by cases h), fun req hreq => ?_, (fun _ h => by cases h)⟩
    cases hreq
    exact .inr ⟨rfl, hkind⟩

theorem did_callStep (h : callStep crc cfg id s place taken = some (s', place')) : CallDid s id place s' place' := by
  cases place with
  | entered call =>
    cases call with
    | append record => exact did_encoded (by decide) (Option.some.inj h)
    | reset mark => exact did_encoded (by decide) (Option.some.inj h)
    | close =>
      simp only [callStep] at h
      split at h
      · cases h
        exact .stays rfl (.behind rfl)
      · cases h
        exact .wins (Bool.eq_false_iff.mpr ‹_›)
  | arriving req =>
    exact did_pass h ⟨fun _ => rfl, (fun h => by cases h), fun _ => .inl, (fun _ h => by cases h)⟩
  | checking req =>
    simp only [callStep] at h
    split at h
    · cases h
      exact .stays rfl (.behind rfl)
    · rename_i hclosed
      cases h
      exact .stays rfl ⟨fun _ => rfl, (fun h => by cases h), fun _ => .inl, fun _ _ => Bool.eq_false_iff.mpr hclosed⟩
  | selecting req =>
    cases taken with
    | context =>
      cases h
      exact .stays rfl (.behind rfl)
    | done =>
      simp only [callStep] at h
      split at h <;> cases h
      exact .stays rfl (.behind rfl)
    | ready =>
      simp only [callStep] at h
      split at h <;> cases h
      exact .submits
  | waiting =>
    obtain ⟨err, -, heq⟩ := Option.map_eq_some_iff.mp h
    cases heq
    exact .stays rfl (.behind rfl)
  | leaving err => exact did_pass h (.behind rfl)
  | won => exact did_pass h ⟨fun _ => rfl, fun _ => rfl, (fun _ h => by cases h), (fun _ h => by cases h)⟩
  | pending => exact did_pass h ⟨fun _ => rfl, fun _ => rfl, (fun _ h => by cases h), (fun _ h => by cases h)⟩
  | locked =>
    simp only [callStep] at h
    split at h <;> split at h <;> cases h
    · exact .stays rfl (.behind rfl)
    · exact .closes
  | sent =>
    simp only [callStep] at h
    split at h
    · split at h <;> cases h
      exact .stays rfl (.behind rfl)
    · obtain ⟨err, -, heq⟩ := Option.map_eq_some_iff.mp h
      cases heq
      exact .stays rfl (.behind rfl)
  | acked err =>
    simp only [callStep] at h
    split at h <;> cases h
    exact .stays rfl (.behind rfl)
  | unlocking err => exact did_pass h (.behind rfl)
  | joining =>
    simp only [callStep] at h
    split at h <;> cases h
    exact .stays rfl (.behind rfl)
  | returned err => cases h

end

/-! ## Invariants -/

def WAL.Writes (opened : Bytes) (s : WAL) : Prop :=
  match s.goroutine with
  | .waiting w => Ready opened s.taken w s.disk
  | .working code => code.Always Disk.Acts (Disk.Shown opened s.taken) (Writer.TurnEnds opened s.taken) s.disk
  | .returned => Writer.TurnEnds opened s.taken none s.disk

structure Flows (opened : Bytes) (s : WAL) : Prop where
  flow : s.submitted = s.taken ++ s.requests
  once : (s.submitted.map Request.caller).Nodup
  last : ∀ req ∈ s.submitted.dropLast, req.kind ≠ .close
  closes : ∀ req ∈ s.submitted, req.kind = .close → s.closer = some req.caller
  closer : s.closed = false → s.closer = none
  writes : s.Writes opened

structure Fits (s : WAL) (id : ℕ) (place : Place) : Prop where
  fresh : place.fresh = true → ∀ req ∈ s.submitted, req.caller ≠ id
  closing : place.closing = true → s.closer = some id
  request : ∀ req, place.request = some req → req.caller = id ∧ req.kind ≠ .close
  selecting : ∀ req, place = .selecting req → ∀ sent ∈ s.submitted, sent.kind ≠ .close

section

variable {opened : Bytes} {crc : Bytes → UInt32} {cfg : WALConfig} {s s' : WAL} {id : ℕ} {place place' : Place}

/-! ### The goroutine -/

theorem Flows.go (h : Flows opened s) (fault : Fault) : Flows opened (s.step cfg (.go fault)) := by
  have hwrites := h.writes
  unfold WAL.Writes at hwrites
  simp only [WAL.step]
  cases hgo : s.goroutine with
  | waiting w => exact h
  | returned => exact h
  | working code =>
    rw [hgo] at hwrites
    cases code with
    | done next =>
      cases next with
      | some w => exact ⟨h.flow, h.once, h.last, h.closes, h.closer, hwrites⟩
      | none => exact ⟨h.flow, h.once, h.last, h.closes, h.closer, hwrites⟩
    | fail err => cases err
    | call op next => exact ⟨h.flow, h.once, h.last, h.closes, h.closer, hwrites.2 _ _ ⟨fault, rfl⟩⟩

theorem Flows.receive (hmode : cfg.syncMode = .always) (h : Flows opened s) : Flows opened (s.step cfg .receive) := by
  have hwrites := h.writes
  unfold WAL.Writes at hwrites
  simp only [WAL.step]
  split
  · rename_i w req rest hgo hrequests
    rw [hgo] at hwrites
    refine ⟨?_, h.once, h.last, h.closes, h.closer, Writer.always_handle hmode hwrites rfl⟩
    rw [h.flow, hrequests, List.append_assoc]
    rfl
  · exact h

theorem Flows.tick (h : Flows opened s) : Flows opened (s.step cfg .tick) := by
  have hwrites := h.writes
  unfold WAL.Writes at hwrites
  simp only [WAL.step]
  split
  · rename_i w hgo
    rw [hgo] at hwrites
    exact ⟨h.flow, h.once, h.last, h.closes, h.closer,
      (Writer.always_tick hwrites).bind fun w' d' hready => .done hready⟩
  · exact h

theorem Flows.step (hmode : cfg.syncMode = .always) (h : Flows opened s) (e : WriterEvent) :
    Flows opened (s.step cfg e) := by
  cases e with
  | receive => exact h.receive hmode
  | tick => exact h.tick
  | go fault => exact h.go fault

theorem step_submitted (cfg : WALConfig) (s : WAL) (e : WriterEvent) :
    (s.step cfg e).submitted = s.submitted ∧ (s.step cfg e).closer = s.closer ∧ (s.step cfg e).submitMu = s.submitMu := by
  cases e with
  | receive => simp only [WAL.step]; split <;> exact ⟨rfl, rfl, rfl⟩
  | tick => simp only [WAL.step]; split <;> exact ⟨rfl, rfl, rfl⟩
  | go fault => simp only [WAL.step]; split <;> exact ⟨rfl, rfl, rfl⟩

/-! ### The calls -/

theorem Flows.send (h : Flows opened s) {req : Request} (hfresh : ∀ other ∈ s.submitted, other.caller ≠ req.caller)
    (hopen : ∀ other ∈ s.submitted, other.kind ≠ .close) (hcloses : req.kind = .close → s.closer = some req.caller) :
    Flows opened (s.send req) := by
  refine ⟨?_, ?_, ?_, ?_, h.closer, h.writes⟩
  · show s.submitted ++ [req] = s.taken ++ (s.requests ++ [req])
    rw [h.flow, List.append_assoc]
  · show ((s.submitted ++ [req]).map Request.caller).Nodup
    rw [List.map_append, List.nodup_append']
    refine ⟨h.once, List.nodup_singleton _, ?_⟩
    rw [List.map_singleton, List.disjoint_singleton, List.mem_map]
    rintro ⟨other, hmem, heq⟩
    exact hfresh other hmem heq
  · show ∀ other ∈ (s.submitted ++ [req]).dropLast, _
    rw [List.dropLast_concat]
    exact hopen
  · intro other hmem hkind
    rcases List.mem_append.mp hmem with hmem | hmem
    · exact h.closes other hmem hkind
    · obtain rfl := List.mem_singleton.mp hmem
      exact hcloses hkind

theorem Fits.quiet (h : Fits s id place) (hI : Flows opened s) (hquiet : Quiet s id place place') : Fits s id place' := by
  refine ⟨fun hfresh => h.fresh (hquiet.fresh hfresh), fun hclosing => h.closing (hquiet.closing hclosing), ?_, ?_⟩
  · intro req hreq
    rcases hquiet.request req hreq with hold | hnew
    · exact h.request req hold
    · exact hnew
  · intro req hreq sent hsent hkind
    have hcloser := hI.closer (hquiet.selecting req hreq)
    rw [hI.closes sent hsent hkind] at hcloser
    cases hcloser

theorem Fits.send (h : Fits s id place) {req : Request} (hother : req.caller ≠ id)
    (hselecting : ∀ mine, place = .selecting mine → req.kind ≠ .close) : Fits (s.send req) id place := by
  refine ⟨fun hfresh => ?_, h.closing, h.request, fun mine hmine => ?_⟩
  · exact List.forall_mem_append.mpr ⟨h.fresh hfresh, List.forall_mem_singleton.mpr hother⟩
  · exact List.forall_mem_append.mpr ⟨h.selecting mine hmine, List.forall_mem_singleton.mpr (hselecting mine hmine)⟩

theorem Fits.first (h : Fits s id .locked) (hI : Flows opened s) : ∀ req ∈ s.submitted, req.kind ≠ .close := by
  intro req hreq hkind
  have hcloser := hI.closes req hreq hkind
  rw [h.closing rfl] at hcloser
  exact h.fresh rfl req hreq (Option.some.inj hcloser).symm

structure Orderly (opened : Bytes) (p : Threads WAL Place) : Prop where
  lock : p.shared.submitMu.Agrees Place.role p.threads
  keeps : ThreadSystem.Keeps (Flows opened) Fits p
  known : ∀ req ∈ p.shared.submitted, p.threads.lookup req.caller ≠ none

variable {p : Threads WAL Place}

theorem Orderly.lock_move (h : Orderly opened p) (hplace : p.threads.lookup id = some place)
    (hdid : CallDid p.shared id place s' place') : s'.submitMu.Agrees Place.role (p.threads.insert id place') := by
  cases hdid with
  | stays hrole => exact h.lock.stays hplace hrole
  | passes hpass => exact h.lock.passes hplace hpass
  | wins => exact h.lock.stays hplace rfl
  | submits => exact h.lock.stays hplace rfl
  | closes => exact h.lock.stays hplace rfl

theorem Orderly.keeps_move (h : Orderly opened p) (hplace : p.threads.lookup id = some place)
    (hdid : CallDid p.shared id place s' place') :
    Flows opened s' ∧ Fits s' id place' ∧
      ∀ other u, other ≠ id → p.threads.lookup other = some u → Fits p.shared other u → Fits s' other u := by
  have hI := h.keeps.shared
  have hfits := h.keeps.thread id place hplace
  cases hdid with
  | stays hrole hquiet => exact ⟨hI, hfits.quiet hI hquiet, fun _ _ _ _ hu => hu⟩
  | passes hpass hquiet =>
    have hnew := hfits.quiet hI hquiet
    exact ⟨⟨hI.flow, hI.once, hI.last, hI.closes, hI.closer, hI.writes⟩,
      ⟨hnew.fresh, hnew.closing, hnew.request, hnew.selecting⟩,
      fun _ _ _ _ hu => ⟨hu.fresh, hu.closing, hu.request, hu.selecting⟩⟩
  | wins hclosed =>
    have hnone := hI.closer hclosed
    refine ⟨⟨hI.flow, hI.once, hI.last, fun req hreq hkind => ?_, (fun hopen => by cases hopen), hI.writes⟩,
      ⟨fun _ => hfits.fresh rfl, fun _ => rfl, (fun _ hreq => by cases hreq), (fun _ hreq => by cases hreq)⟩,
      fun other u _ _ hu => ⟨hu.fresh, fun hclosing => ?_, hu.request, hu.selecting⟩⟩
    · have hsome := hI.closes req hreq hkind
      rw [hnone] at hsome
      cases hsome
    · have hsome := hu.closing hclosing
      rw [hnone] at hsome
      cases hsome
  | @submits req =>
    obtain ⟨hcaller, hkind⟩ := hfits.request req rfl
    refine ⟨hI.send (fun other hother => ?_) (hfits.selecting req rfl) fun hclose => absurd hclose hkind,
      ⟨(fun hfresh => by cases hfresh), (fun hclosing => by cases hclosing), (fun _ hreq => by cases hreq),
        (fun _ hreq => by cases hreq)⟩,
      fun other u hne _ hu => hu.send (by rw [hcaller]; exact hne.symm) fun _ _ => hkind⟩
    rw [hcaller]
    exact hfits.fresh rfl other hother
  | closes =>
    refine ⟨hI.send (hfits.fresh rfl) (hfits.first hI) fun _ => hfits.closing rfl,
      ⟨(fun hfresh => by cases hfresh), (fun hclosing => by cases hclosing), (fun _ hreq => by cases hreq),
        (fun _ hreq => by cases hreq)⟩,
      fun other u hne hlookup hu => hu.send hne.symm fun mine hmine => ?_⟩
    -- While `Close` has the write lock, nobody else is about to send.
    exact absurd (by rw [hmine]; rfl) (h.lock.no_reader hplace rfl hlookup)

theorem CallDid.submitted (h : CallDid s id place s' place') :
    s'.submitted = s.submitted ∨ ∃ req, s'.submitted = s.submitted ++ [req] ∧
      (place.request = some req ∨ req.caller = id) := by
  cases h with
  | submits => exact .inr ⟨_, rfl, .inl rfl⟩
  | closes => exact .inr ⟨_, rfl, .inr rfl⟩
  | _ => exact .inl rfl

theorem Orderly.step (hmode : cfg.syncMode = .always) (h : Orderly opened p) (e : ThreadEvent Call Case WriterEvent) :
    Orderly opened ((system crc cfg).step p e) := by
  have hkeeps : ThreadSystem.Keeps (Flows opened) Fits ((system crc cfg).step p e) := by
    apply h.keeps.next
    · rintro id call rfl hnew
      refine ⟨fun _ req hreq heq => h.known req hreq (heq ▸ hnew), (fun hclosing => by cases hclosing),
        (fun _ hreq => by cases hreq), (fun _ hreq => by cases hreq)⟩
    · rintro id choice place s' place' rfl hplace hmove
      exact h.keeps_move hplace (did_callStep hmove)
    · rintro o rfl
      obtain ⟨hsubmitted, hcloser, -⟩ := step_submitted cfg p.shared o
      refine ⟨h.keeps.shared.step hmode o, fun id place hfits => ⟨?_, ?_, hfits.request, ?_⟩⟩
      · exact hsubmitted ▸ hfits.fresh
      · exact hcloser ▸ hfits.closing
      · exact hsubmitted ▸ hfits.selecting
  have hdid := (system crc cfg).did_step p e
  generalize (system crc cfg).step p e = p' at hdid hkeeps
  cases hdid with
  | refused => exact h
  | absent => exact h
  | blocked => exact h
  | @called id call hnew =>
    refine ⟨h.lock.called hnew rfl, hkeeps, fun req hreq => ?_⟩
    rw [Dict.lookup_insert']
    split
    · exact Option.some_ne_none _
    · exact h.known req hreq
  | @moved id choice place s' place' hplace hmove =>
    have hcall : CallDid p.shared id place s' place' := did_callStep hmove
    refine ⟨h.lock_move hplace hcall, hkeeps, fun req hreq => ?_⟩
    rw [Dict.lookup_insert']
    split
    · exact Option.some_ne_none _
    · rename_i hne
      rcases hcall.submitted with hsame | ⟨mine, hadded, hmine⟩
      · exact h.known req (hsame ▸ hreq)
      · rw [hadded] at hreq
        rcases List.mem_append.mp hreq with hreq | hreq
        · exact h.known req hreq
        · obtain rfl := List.mem_singleton.mp hreq
          exact absurd (hmine.elim (fun hreq => ((h.keeps.thread id place hplace).request _ hreq).1) fun hreq => hreq) hne
  | changed o =>
    obtain ⟨hsubmitted, -, hlock⟩ := step_submitted cfg p.shared o
    refine ⟨?_, hkeeps, ?_⟩
    · exact hlock ▸ h.lock
    · exact hsubmitted ▸ h.known

theorem orderly_run (hmode : cfg.syncMode = .always) (synced : Bytes) (events : List (ThreadEvent Call Case WriterEvent)) :
    Orderly opened ((system crc cfg).run (openWAL opened synced) events) := by
  refine run_invariant (fun p e hp => hp.step hmode e) ⟨RWMutex.agrees_initial, ?_, fun _ hreq => nomatch hreq⟩ events
  refine ThreadSystem.Keeps.initial ⟨rfl, List.nodup_nil, (fun _ hreq => by cases hreq), (fun _ hreq => by cases hreq),
    fun _ => rfl, ⟨⟨?_, ?_, List.Pairwise.nil⟩, rfl, rfl, fun _ => ⟨⟨rfl, rfl, ?_⟩, rfl, rfl, by simp [openWAL]⟩⟩⟩
  · intro _
    simp [Disk.ledger, Ledger.bytes, openWAL]
  · intro _ hframes
    exact absurd rfl hframes
  · simp [Disk.ledger, Ledger.bytes, openWAL]

end

/-! ## The goroutine alone -/

namespace WAL

def next (cfg : WALConfig) (fault : Fault) (s : WAL) : WAL :=
  match s.goroutine with
  | .waiting _ => s.step cfg .receive
  | _ => s.step cfg (.go fault)

def goesOn (cfg : WALConfig) : ℕ → (ℕ → Fault) → WAL → WAL
  | 0, _, s => s
  | n + 1, faults, s => goesOn cfg n (fun k => faults (k + 1)) (s.next cfg (faults 0))

variable {cfg : WALConfig} {s : WAL} {opened : Bytes}

theorem next_eq (cfg : WALConfig) (fault : Fault) (s : WAL) : ∃ e, s.next cfg fault = s.step cfg e := by
  unfold next
  split
  · exact ⟨_, rfl⟩
  · exact ⟨_, rfl⟩

theorem goesOn_add (cfg : WALConfig) (n m : ℕ) (faults : ℕ → Fault) (s : WAL) :
    s.goesOn cfg (n + m) faults = (s.goesOn cfg n faults).goesOn cfg m fun k => faults (n + k) := by
  induction n generalizing faults s with
  | zero => simp [goesOn]
  | succ n ih =>
    rw [Nat.succ_add]
    simp only [goesOn, ih]
    congr 1
    funext k
    rw [Nat.succ_add]

theorem submitted_goesOn (cfg : WALConfig) (n : ℕ) (faults : ℕ → Fault) (s : WAL) : (s.goesOn cfg n faults).submitted = s.submitted := by
  induction n generalizing faults s with
  | zero => rfl
  | succ n ih =>
    obtain ⟨e, he⟩ := next_eq cfg (faults 0) s
    rw [goesOn, ih, he, (step_submitted cfg s e).1]

end WAL

section

variable {cfg : WALConfig} {s : WAL} {opened : Bytes}

theorem Flows.goesOn (hmode : cfg.syncMode = .always) (h : Flows opened s) (n : ℕ) (faults : ℕ → Fault) :
    Flows opened (s.goesOn cfg n faults) := by
  induction n generalizing faults s with
  | zero => exact h
  | succ n ih =>
    obtain ⟨e, he⟩ := WAL.next_eq cfg (faults 0) s
    exact ih (he ▸ h.step hmode e) _

theorem exists_settled (code : Work (Option Writer)) (faults : ℕ → Fault) (hgo : s.goroutine = .working code) :
    ∃ n, (∀ code', (s.goesOn cfg n faults).goroutine ≠ .working code') ∧
      (s.goesOn cfg n faults).requests = s.requests := by
  induction code generalizing s faults with
  | fail err => cases err
  | done result =>
    refine ⟨1, ?_, ?_⟩ <;> simp only [WAL.goesOn, WAL.next, hgo, WAL.step]
    · cases result <;> exact fun _ => nofun
    · cases result <;> rfl
  | call op next ih =>
    obtain ⟨n, hsettled, hrequests⟩ := ih (s.disk.perform (faults 0) op).1
      (s := { s with
        disk := (s.disk.perform (faults 0) op).2
        goroutine := .working (next (s.disk.perform (faults 0) op).1) }) (fun k => faults (k + 1)) rfl
    have hnext : s.goesOn cfg (n + 1) faults = WAL.goesOn cfg n (fun k => faults (k + 1))
        { s with
          disk := (s.disk.perform (faults 0) op).2
          goroutine := .working (next (s.disk.perform (faults 0) op).1) } := by
      simp only [WAL.goesOn, WAL.next, hgo, WAL.step]
    exact ⟨n + 1, hnext ▸ hsettled, hnext ▸ hrequests⟩

theorem Flows.requests_nil (h : Flows opened s) (hclosed : ∃ req ∈ s.taken, req.kind = .close) : s.requests = [] := by
  by_contra hne
  obtain ⟨req, hreq, hkind⟩ := hclosed
  refine h.last req ?_ hkind
  rw [h.flow, List.dropLast_append_of_ne_nil hne]
  exact List.mem_append_left _ hreq

theorem exists_settled_from (cfg : WALConfig) (s : WAL) (faults : ℕ → Fault) :
    ∃ n, (∀ code, (s.goesOn cfg n faults).goroutine ≠ .working code) ∧
      (s.goesOn cfg n faults).requests = s.requests := by
  cases hgo : s.goroutine with
  | working code => exact exists_settled code faults hgo
  | waiting w => exact ⟨0, (fun code heq => by cases hgo.symm.trans heq), rfl⟩
  | returned => exact ⟨0, (fun code heq => by cases hgo.symm.trans heq), rfl⟩

theorem Flows.settled (h : Flows opened s) (hsettled : ∀ code, s.goroutine ≠ .working code) :
    s.disk.acks = s.taken ∧ (s.requests = [] ∨ ∃ w, s.goroutine = .waiting w) := by
  have hwrites := h.writes
  unfold WAL.Writes at hwrites
  cases hgo : s.goroutine with
  | working code => exact absurd hgo (hsettled code)
  | waiting w =>
    rw [hgo] at hwrites
    exact ⟨hwrites.acks, .inr ⟨w, rfl⟩⟩
  | returned =>
    rw [hgo] at hwrites
    exact ⟨hwrites.1.2, .inl (h.requests_nil hwrites.2)⟩

theorem exists_all_acked (hmode : cfg.syncMode = .always) (h : Flows opened s) (faults : ℕ → Fault) :
    ∃ n, (s.goesOn cfg n faults).disk.acks = s.submitted := by
  induction hlen : s.requests.length using Nat.strong_induction_on generalizing s faults with
  | _ len ih =>
    obtain ⟨n, hsettled, hrequests⟩ := exists_settled_from cfg s faults
    have hflows := h.goesOn hmode n faults
    have hsubmitted := WAL.submitted_goesOn cfg n faults s
    have hadd := WAL.goesOn_add cfg n
    generalize hs₁ : s.goesOn cfg n faults = s₁ at hsettled hrequests hflows hsubmitted
    obtain ⟨hacks, hcase⟩ := hflows.settled hsettled
    by_cases hnil : s₁.requests = []
    · refine ⟨n, ?_⟩
      rw [hs₁, hacks, ← hsubmitted, hflows.flow, hnil, List.append_nil]
    · -- The goroutine takes the next request, which leaves one less.
      obtain ⟨w, hgo⟩ := hcase.resolve_left hnil
      obtain ⟨req, rest, hcons⟩ := List.exists_cons_of_ne_nil hnil
      have hnext : (s₁.next cfg (faults n)).requests = rest := by
        simp only [WAL.next, hgo, WAL.step, hcons]
      obtain ⟨e, he⟩ := WAL.next_eq cfg (faults n) s₁
      have hless : rest.length < len := by
        rw [← hlen, ← hrequests, hcons]
        exact Nat.lt_succ_self _
      obtain ⟨m, hm⟩ := ih rest.length hless (he ▸ hflows.step hmode e) (fun k => faults (n + (k + 1))) (by rw [hnext])
      refine ⟨n + (m + 1), ?_⟩
      rw [hadd, hs₁, WAL.goesOn, ← hsubmitted, ← (step_submitted cfg s₁ e).1, ← he]
      exact hm

/-! ## The guarantees -/

theorem Flows.shown (h : Flows opened s) : s.disk.Shown opened s.taken := by
  have hwrites := h.writes
  unfold WAL.Writes at hwrites
  cases hgo : s.goroutine with
  | waiting w =>
    rw [hgo] at hwrites
    exact Ready.shown hwrites
  | returned =>
    rw [hgo] at hwrites
    exact ⟨hwrites.1.1, hwrites.1.2 ▸ List.prefix_rfl⟩
  | working code =>
    rw [hgo] at hwrites
    cases code with
    | fail err => cases err
    | call op next => exact hwrites.1
    | done result =>
      cases result with
      | none => exact ⟨hwrites.1.1, hwrites.1.2 ▸ List.prefix_rfl⟩
      | some w => exact Ready.shown hwrites

/-- Sync mode always. Requests are acknowledged once and in order, and whatever fails, all of them are in the end. The
synced file holds the last mark and every frame acknowledged with nil since, unless a later reset has emptied it.
Behind a failed write or sync no append is acknowledged with nil. -/
theorem writer_keeps_promises (crc : Bytes → UInt32) (cfg : WALConfig) (hmode : cfg.syncMode = .always)
    (opened synced : Bytes) (events : List (ThreadEvent Call Case WriterEvent)) :
    let s := ((system crc cfg).run (openWAL opened synced) events).shared
    ((s.submitted.map Request.caller).Nodup ∧ s.disk.acks <+: s.submitted ∧
      ∀ faults, ∃ n, (s.goesOn cfg n faults).disk.acks = s.submitted) ∧
    ((s.disk.ledger opened).intact = true → (s.disk.ledger opened).frames ≠ [] →
      (s.disk.ledger opened).base ++ (s.disk.ledger opened).frames.flatten <+: s.disk.synced) ∧
    s.disk.log.Pairwise fun earlier later =>
      earlier = .failed → ∀ req, req.kind = .append → later ≠ .acked req none := by
  intro s
  have hflows : Flows opened s := (orderly_run hmode synced events).keeps.shared
  have hshown := hflows.shown
  refine ⟨⟨hflows.once, ?_, exists_all_acked hmode hflows⟩, hshown.sound.synced, hshown.sound.honest⟩
  rw [hflows.flow]
  exact hshown.acks.trans (List.prefix_append _ _)

def oneTurn (id : ℕ) (call : Call) (faults : List Fault) : List (ThreadEvent Call Case WriterEvent) :=
  .call id call :: List.replicate 4 (.move id .ready) ++ .outside .receive :: faults.map fun fault => .outside (.go fault)

def newLog (events : List (ThreadEvent Call Case WriterEvent)) : Disk :=
  ((system (fun _ => 0) { syncMode := .always }).run (openWAL [] []) events).shared.disk

def renewal : WALFrame := { op := .heartbeat, timestamp := 7, service := [112], id := [49], ttl := 9 }

theorem renewal_is_synced :
    ((newLog (oneTurn 0 (.append renewal) [none, none, none])).ledger []).frames = [renewal.encoded fun _ => 0] ∧
      ((newLog (oneTurn 0 (.append renewal) [none, none, none])).ledger []).bytes <+:
        (newLog (oneTurn 0 (.append renewal) [none, none, none])).synced := by
  refine ⟨by decide +kernel, ?_⟩
  exact (writer_keeps_promises (fun _ => 0) { syncMode := .always } rfl [] []
    (oneTurn 0 (.append renewal) [none, none, none])).2.1 (by decide +kernel) (by decide +kernel)

theorem failed_reset_empties_file :
    let d := newLog (oneTurn 0 (.reset (markFrame 6)) (List.replicate 7 none) ++
      oneTurn 1 (.append renewal) (List.replicate 4 none) ++
      oneTurn 2 (.reset (markFrame 8)) [none, none, none, some (0, "no space left on device"), none])
    d.ledger [] = { base := (markFrame 6).encoded fun _ => 0, frames := [renewal.encoded fun _ => 0], intact := false } ∧
      d.synced = [] := by
  decide +kernel

end

end AegisMesh.Registry.FileRegistryWAL
