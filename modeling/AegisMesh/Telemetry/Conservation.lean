import AegisMesh.Lib.Threads
import AegisMesh.Telemetry.Recorder

/-!
# Observations that a snapshot loses

`Observe` adds to the counters of a row without the lock that `SnapshotAndReset` holds.
-/

open Lib

namespace AegisMesh.Telemetry

/-! ## Counters -/

inductive Counter
  | request
  | error
  | timeout
deriving DecidableEq

def StatsRow.count (row : StatsRow) : Counter → ℕ
  | .request => row.requestCount
  | .error => row.errorCount
  | .timeout => row.timeoutCount

def StatsRow.store (row : StatsRow) (c : Counter) (n : ℕ) : StatsRow :=
  match c with
  | .request => { row with requestCount := n }
  | .error => { row with errorCount := n }
  | .timeout => { row with timeoutCount := n }

def EndpointStats.count (stat : EndpointStats) : Counter → ℕ
  | .request => stat.requestCount
  | .error => stat.errorCount
  | .timeout => stat.timeoutCount

def EndpointStats.key (stat : EndpointStats) : StatsKey where
  destination := stat.destination
  method := stat.method
  endpointID := stat.endpointID
  registrationEpoch := stat.registrationEpoch
  upstream := stat.upstream

def Observation.counts (obs : Observation) : Counter → Bool
  | .request => true
  | .error => obs.error || normalizeStatus obs.status ≠ "OK"
  | .timeout => obs.timeout || normalizeStatus obs.status = "DEADLINE_EXCEEDED"

@[simp] theorem StatsRow.count_store (row : StatsRow) (c c' : Counter) (n : ℕ) :
    (row.store c n).count c' = if c' = c then n else row.count c' := by
  cases c <;> cases c' <;> rfl

/-! ## Shards -/

def recorderShardCount : ℕ := 64

def prime64 : ℕ := 1099511628211

def hashString (h : ℕ) (value : String) : ℕ :=
  (value.toUTF8.data.toList.foldl (fun h b => (h ^^^ b.toNat) * prime64 % 2 ^ 64) h ^^^ 0xff) * prime64 % 2 ^ 64

def statsKeyHash (key : StatsKey) : ℕ :=
  [key.destination, key.method, key.endpointID, key.registrationEpoch, key.upstream].foldl hashString
    1469598103934665603

def shardFor (key : StatsKey) : ℕ := statsKeyHash key &&& (recorderShardCount - 1)

/-! ## The calls, one atomic operation at a time -/

structure SharedRecorder where
  recorder : Recorder
  shardLock : ℕ → Option ℕ := fun _ => none
  rowLock : StatsKey → Option ℕ := fun _ => none

inductive ObserveStep
  | rowFor
  | add (c : Counter)
  | fold
deriving DecidableEq

def observeSteps (obs : Observation) : List ObserveStep :=
  [.rowFor, .add .request] ++ (if obs.counts .error then [.add .error] else []) ++
    (if obs.counts .timeout then [.add .timeout] else []) ++ [.fold]

/-- How far `statsRow.snapshot` is: the values loaded so far, then the counters still to be cleared. -/
inductive RowProgress
  | locked
  | request (requestCount : ℕ)
  | inflight (requestCount inflight : ℕ)
  | error (requestCount inflight errorCount : ℕ)
  | clearing (stat : EndpointStats) (todo : List Counter)

/-- Where `Recorder.snapshot` is. `visited` are the rows of the shard that the loop has been at. -/
inductive SnapshotPhase
  | shards (shard : ℕ)
  | rows (shard : ℕ) (visited : List StatsKey)
  | row (shard : ℕ) (visited : List StatsKey) (key : StatsKey) (progress : RowProgress)
  | returned

inductive RecorderThread
  | observing (obs : Observation) (todo : List ObserveStep)
  | snapshotting (now : ℕ) (stats : List EndpointStats) (phase : SnapshotPhase)

inductive RecorderCall
  | observe (obs : Observation)
  | snapshotAndReset (now : ℕ)

/-- The clock, and the row that the loop over a shard's map comes to next. -/
structure RecorderChoice where
  now : ℕ := 0
  next : StatsKey

def RecorderThread.returned : RecorderThread → Bool
  | .observing _ todo => todo.isEmpty
  | .snapshotting _ _ .returned => true
  | .snapshotting _ _ _ => false

def sortStats (stats : List EndpointStats) : List EndpointStats :=
  sortBy (fun stat => toLex (stat.destination, toLex (stat.upstream, toLex (stat.endpointID, stat.method)))) stats

namespace SharedRecorder

def row? (s : SharedRecorder) (key : StatsKey) : Option StatsRow := s.recorder.rows.lookup key

def setRow (s : SharedRecorder) (key : StatsKey) (row : StatsRow) : SharedRecorder :=
  { s with recorder := { s.recorder with rows := s.recorder.rows.insert key row } }

def lockRow (s : SharedRecorder) (key : StatsKey) (holder : Option ℕ) : SharedRecorder :=
  { s with rowLock := Function.update s.rowLock key holder }

def lockShard (s : SharedRecorder) (shard : ℕ) (holder : Option ℕ) : SharedRecorder :=
  { s with shardLock := Function.update s.shardLock shard holder }

def observe (s : SharedRecorder) (obs : Observation) (now : ℕ) : ObserveStep → Option SharedRecorder
  | .rowFor =>
    if s.shardLock (shardFor obs.key) = none then some (s.setRow obs.key (s.recorder.rowFor obs.key now)) else none
  | .add c => (s.row? obs.key).map fun row => s.setRow obs.key (row.store c (row.count c + 1))
  | .fold =>
    if s.rowLock obs.key = none then
      (s.row? obs.key).map fun row =>
        s.setRow obs.key { row with ewma := row.ewma.observe obs.latency, activeHist := row.activeHist.record obs.latency }
    else none

def snapshot (id : ℕ) (s : SharedRecorder) (now : ℕ) (stats : List EndpointStats) (next : StatsKey) :
    SnapshotPhase → Option (SharedRecorder × RecorderThread)
  | .shards shard =>
    if shard < recorderShardCount then
      if s.shardLock shard = none then some (s.lockShard shard (some id), .snapshotting now stats (.rows shard []))
      else none
    else some (s, .snapshotting now (sortStats stats) .returned)
  | .rows shard visited =>
    if (s.row? next).isSome ∧ shardFor next = shard ∧ next ∉ visited then
      if s.rowLock next = none then
        some (s.lockRow next (some id), .snapshotting now stats (.row shard visited next .locked))
      else none
    else if ∀ key ∈ s.recorder.rows.keys, shardFor key = shard → key ∈ visited then
      some (s.lockShard shard none, .snapshotting now stats (.shards (shard + 1)))
    else none
  | .row shard visited key progress =>
    (s.row? key).map fun row =>
      match progress with
      | .locked => (s, .snapshotting now stats (.row shard visited key (.request row.requestCount)))
      | .request requestCount =>
        (s, .snapshotting now stats (.row shard visited key (.inflight requestCount row.inflight)))
      | .inflight requestCount inflight =>
        if requestCount = 0 ∧ inflight = 0 then
          (s.lockRow key none, .snapshotting now stats (.rows shard (key :: visited)))
        else
          (s, .snapshotting now stats (.row shard visited key (.error requestCount inflight row.errorCount)))
      | .error requestCount inflight errorCount =>
        let stat := { row.stats s.recorder.source key now with requestCount, inflight, errorCount }
        (s, .snapshotting now stats (.row shard visited key (.clearing stat [.request, .error, .timeout])))
      | .clearing stat (c :: todo) =>
        (s.setRow key (row.store c 0), .snapshotting now stats (.row shard visited key (.clearing stat todo)))
      | .clearing stat [] =>
        ((s.setRow key { row with activeHist := {}, windowStart := now }).lockRow key none,
          .snapshotting now (stats ++ [stat]) (.rows shard (key :: visited)))
  | .returned => none

end SharedRecorder

def recorderThreads : ThreadSystem SharedRecorder RecorderThread RecorderCall RecorderChoice Empty where
  start
    | .observe obs => .observing obs (observeSteps obs)
    | .snapshotAndReset now => .snapshotting now [] (.shards 0)
  move
    | _, _, .observing _ [], _ => none
    | _, s, .observing obs (next :: todo), c => (s.observe obs c.now next).map fun s' => (s', .observing obs todo)
    | id, s, .snapshotting now stats phase, c => s.snapshot id now stats c.next phase
  outside _ e := nomatch e

/-! ## What is conserved -/

def observed (key : StatsKey) (c : Counter) : RecorderThread → ℕ
  | .observing obs _ => if obs.key = key ∧ obs.counts c then 1 else 0
  | .snapshotting .. => 0

def reported (key : StatsKey) (c : Counter) : RecorderThread → ℕ
  | .observing .. => 0
  | .snapshotting _ stats _ => ((stats.filter (·.key = key)).map (·.count c)).sum

def SharedRecorder.rowCount (s : SharedRecorder) (key : StatsKey) (c : Counter) : ℕ := (s.row? key).elim 0 (·.count c)

def AllReturned (p : Threads SharedRecorder RecorderThread) : Prop := ∀ t ∈ Dict.values p.threads, t.returned

def Conserved (p : Threads SharedRecorder RecorderThread) (key : StatsKey) (c : Counter) : Prop :=
  Threads.total (reported key c) p.threads + p.shared.rowCount key c = Threads.total (observed key c) p.threads

def ClearsLoaded (key : StatsKey) (c : Counter) (p : Threads SharedRecorder RecorderThread) :
    ThreadEvent RecorderCall RecorderChoice Empty → Prop
  | .move id _ => ∀ now stats shard visited stat todo,
    p.threads.lookup id = some (.snapshotting now stats (.row shard visited key (.clearing stat (c :: todo)))) →
      p.shared.rowCount key c = stat.count c
  | _ => True

/-! ## What a thread may assume of its row -/

def RowProgress.Fits (key : StatsKey) (row : StatsRow) : RowProgress → Prop
  | .locked => True
  | .request requestCount => requestCount ≤ row.requestCount
  | .inflight requestCount _ => requestCount ≤ row.requestCount
  | .error requestCount _ errorCount => requestCount ≤ row.requestCount ∧ errorCount ≤ row.errorCount
  | .clearing stat todo => stat.key = key ∧ todo.Nodup ∧ ∀ c ∈ todo, stat.count c ≤ row.count c

theorem RowProgress.Fits.mono {key : StatsKey} {row row' : StatsRow} {progress : RowProgress}
    (h : progress.Fits key row) (hle : ∀ c, row.count c ≤ row'.count c) : progress.Fits key row' := by
  have hrequest : row.requestCount ≤ row'.requestCount := hle .request
  have herror : row.errorCount ≤ row'.errorCount := hle .error
  cases progress with
  | locked => trivial
  | request n => exact le_trans h hrequest
  | inflight n m => exact le_trans h hrequest
  | error n m e => exact ⟨le_trans h.1 hrequest, le_trans h.2 herror⟩
  | clearing stat todo => exact ⟨h.1, h.2.1, fun c hc => le_trans (h.2.2 c hc) (hle c)⟩

namespace SharedRecorder

variable {s s' : SharedRecorder} {id : ℕ}

def Owns (s : SharedRecorder) (id : ℕ) : RecorderThread → Prop
  | .snapshotting _ _ (.row _ _ key progress) =>
    s.rowLock key = some id ∧ ∃ row, s.row? key = some row ∧ progress.Fits key row
  | _ => True

def Respects (id : ℕ) (s s' : SharedRecorder) : Prop :=
  ∀ key, s.rowLock key = none ∨ s.rowLock key = some id ∨
    (s'.rowLock key = s.rowLock key ∧
      ∀ row, s.row? key = some row → ∃ row', s'.row? key = some row' ∧ ∀ c, row.count c ≤ row'.count c)

theorem Owns.respected {other : ℕ} {u : RecorderThread} (h : s.Owns other u) (hne : other ≠ id)
    (hrespects : Respects id s s') : s'.Owns other u := by
  match u with
  | .observing .. => trivial
  | .snapshotting _ _ (.shards _) => trivial
  | .snapshotting _ _ (.rows ..) => trivial
  | .snapshotting _ _ .returned => trivial
  | .snapshotting _ _ (.row _ _ key progress) =>
    obtain ⟨hlock, row, hrow, hfits⟩ := h
    rcases hrespects key with hnone | hown | ⟨hlock', hkeeps⟩
    · rw [hlock] at hnone
      cases hnone
    · rw [hlock, Option.some.injEq] at hown
      exact absurd hown hne
    · obtain ⟨row', hrow', hle⟩ := hkeeps row hrow
      exact ⟨hlock'.trans hlock, row', hrow', hfits.mono hle⟩

@[simp] theorem row?_setRow (key j : StatsKey) (row : StatsRow) :
    (s.setRow key row).row? j = if j = key then some row else s.row? j :=
  Dict.lookup_insert' _ _ _ _

@[simp] theorem row?_lockRow (key j : StatsKey) (holder : Option ℕ) : (s.lockRow key holder).row? j = s.row? j := rfl

@[simp] theorem row?_lockShard (shard : ℕ) (j : StatsKey) (holder : Option ℕ) :
    (s.lockShard shard holder).row? j = s.row? j := rfl

@[simp] theorem rowLock_setRow (key : StatsKey) (row : StatsRow) : (s.setRow key row).rowLock = s.rowLock := rfl

@[simp] theorem rowLock_lockShard (shard : ℕ) (holder : Option ℕ) : (s.lockShard shard holder).rowLock = s.rowLock := rfl

@[simp] theorem rowLock_lockRow (key j : StatsKey) (holder : Option ℕ) :
    (s.lockRow key holder).rowLock j = if j = key then holder else s.rowLock j :=
  Function.update_apply _ _ _ _

theorem rowCount_setRow (key j : StatsKey) (row : StatsRow) (c : Counter) :
    (s.setRow key row).rowCount j c = if j = key then row.count c else s.rowCount j c := by
  unfold rowCount
  rw [row?_setRow]
  split <;> rfl

theorem Respects.refl (id : ℕ) (s : SharedRecorder) : Respects id s s :=
  fun _ => .inr (.inr ⟨rfl, fun row hrow => ⟨row, hrow, fun _ => le_rfl⟩⟩)

theorem respects_lockShard (shard : ℕ) (holder : Option ℕ) : Respects id s (s.lockShard shard holder) :=
  Respects.refl id s

theorem respects_setRow {key : StatsKey} {row : StatsRow} (hle : ∀ c, s.rowCount key c ≤ row.count c) :
    Respects id s (s.setRow key row) := by
  refine fun j => .inr (.inr ⟨rfl, fun before hbefore => ?_⟩)
  rw [row?_setRow]
  split
  · rename_i hj
    refine ⟨row, rfl, fun c => ?_⟩
    have hc := hle c
    rw [rowCount, ← hj, hbefore] at hc
    exact hc
  · exact ⟨before, hbefore, fun _ => le_rfl⟩

theorem respects_own {key : StatsKey} (hlock : s.rowLock key = none ∨ s.rowLock key = some id)
    (hothers : ∀ j, j ≠ key → s'.rowLock j = s.rowLock j ∧ s'.row? j = s.row? j) : Respects id s s' := by
  intro j
  by_cases hj : j = key
  · rcases hlock with hnone | hown
    · exact .inl (hj ▸ hnone)
    · exact .inr (.inl (hj ▸ hown))
  · obtain ⟨hlock', hrow'⟩ := hothers j hj
    exact .inr (.inr ⟨hlock', fun row hrow => ⟨row, hrow'.trans hrow, fun _ => le_rfl⟩⟩)

end SharedRecorder

/-! ## Accounts -/

def pending (key : StatsKey) (c : Counter) : RecorderThread → ℕ
  | .observing obs todo => if obs.key = key then todo.count (.add c) else 0
  | .snapshotting .. => 0

def taken (key : StatsKey) (c : Counter) : RecorderThread → ℕ
  | .snapshotting _ _ (.row _ _ k (.clearing stat todo)) => if k = key ∧ c ∉ todo then stat.count c else 0
  | _ => 0

def overwritten (key : StatsKey) (c : Counter) (s : SharedRecorder) : RecorderThread → ℕ
  | .snapshotting _ _ (.row _ _ k (.clearing stat (c' :: _))) =>
    if k = key ∧ c' = c then s.rowCount key c - stat.count c else 0
  | _ => 0

def held (key : StatsKey) (c : Counter) (t : RecorderThread) : ℕ := reported key c t + taken key c t + pending key c t

theorem count_observeSteps (obs : Observation) (c : Counter) :
    (observeSteps obs).count (.add c) = if obs.counts c then 1 else 0 := by
  have hrequest : obs.counts .request = true := rfl
  unfold observeSteps
  cases c <;> cases herror : obs.counts .error <;> cases htimeout : obs.counts .timeout <;> simp [*]

structure Moves (id : ℕ) (s : SharedRecorder) (t : RecorderThread) (s' : SharedRecorder) (t' : RecorderThread) : Prop where
  owns : s'.Owns id t'
  respects : SharedRecorder.Respects id s s'
  balance : ∀ key c, s'.rowCount key c + held key c t' + overwritten key c s t = s.rowCount key c + held key c t
  observed : ∀ key c, observed key c t' = observed key c t

section Moves

variable {s s' : SharedRecorder} {id now : ℕ} {stats : List EndpointStats} {shard : ℕ} {visited : List StatsKey}
  {key : StatsKey} {t' : RecorderThread}

theorem count_rowFor (s : SharedRecorder) (key : StatsKey) (now : ℕ) (c : Counter) :
    (s.recorder.rowFor key now).count c = s.rowCount key c := by
  unfold Recorder.rowFor SharedRecorder.rowCount SharedRecorder.row?
  cases s.recorder.rows.lookup key with
  | none => cases c <;> rfl
  | some row => rfl

theorem rowCount_of_row? {row : StatsRow} (h : s.row? key = some row) (c : Counter) :
    s.rowCount key c = row.count c := by
  rw [SharedRecorder.rowCount, h]
  rfl

theorem moves_setRow {obs : Observation} {next : ObserveStep} {row : StatsRow}
    (hrow : ∀ c, row.count c = s.rowCount obs.key c + if next = .add c then 1 else 0) (todo : List ObserveStep) :
    Moves id s (.observing obs (next :: todo)) (s.setRow obs.key row) (.observing obs todo) := by
  refine ⟨trivial, SharedRecorder.respects_setRow fun c => by rw [hrow c]; omega, fun key c => ?_, fun _ _ => rfl⟩
  rw [SharedRecorder.rowCount_setRow, hrow c]
  unfold held reported taken pending overwritten
  by_cases hkey : obs.key = key
  · simp only [hkey, if_true, List.count_cons, beq_iff_eq]
    omega
  · simp only [hkey, Ne.symm hkey, if_false]

theorem moves_observe {obs : Observation} {next : ObserveStep} (todo : List ObserveStep)
    (h : s.observe obs now next = some s') : Moves id s (.observing obs (next :: todo)) s' (.observing obs todo) := by
  unfold SharedRecorder.observe at h
  cases next with
  | rowFor =>
    dsimp only at h
    split_ifs at h
    cases h
    exact moves_setRow (fun c => by simp [count_rowFor]) todo
  | add c' =>
    obtain ⟨row, hrow, rfl⟩ := Option.map_eq_some_iff.mp h
    refine moves_setRow (fun c => ?_) todo
    rw [StatsRow.count_store, rowCount_of_row? hrow]
    by_cases hc : c = c'
    · simp [hc]
    · simp [hc, Ne.symm hc]
  | fold =>
    dsimp only at h
    split_ifs at h
    obtain ⟨row, hrow, rfl⟩ := Option.map_eq_some_iff.mp h
    refine moves_setRow (fun c => ?_) todo
    rw [rowCount_of_row? hrow]
    cases c <;> simp [StatsRow.count]

theorem moves_idle {t t' : RecorderThread} (howns : s'.Owns id t') (hrespects : SharedRecorder.Respects id s s')
    (hrows : ∀ key, s'.row? key = s.row? key) (hheld : ∀ key c, held key c t' = held key c t)
    (hover : ∀ key c, overwritten key c s t = 0) (hobs : ∀ key c, observed key c t' = observed key c t) :
    Moves id s t s' t' := by
  refine ⟨howns, hrespects, fun key c => ?_, hobs⟩
  rw [SharedRecorder.rowCount, SharedRecorder.rowCount, hrows, hheld, hover, Nat.add_zero]

theorem reported_sortStats (stats : List EndpointStats) (phase : SnapshotPhase) (key : StatsKey) (c : Counter) :
    reported key c (.snapshotting now (sortStats stats) phase) = reported key c (.snapshotting now stats phase) :=
  (((List.perm_insertionSort _ stats).filter _).map _).sum_eq

theorem moves_shards (next : StatsKey) (h : s.snapshot id now stats next (.shards shard) = some (s', t')) :
    Moves id s (.snapshotting now stats (.shards shard)) s' t' := by
  unfold SharedRecorder.snapshot at h
  dsimp only at h
  split_ifs at h <;> cases h
  · exact moves_idle trivial (SharedRecorder.respects_lockShard _ _) (fun _ => rfl) (fun _ _ => rfl) (fun _ _ => rfl)
      (fun _ _ => rfl)
  · refine moves_idle trivial (.refl _ _) (fun _ => rfl) (fun key c => ?_) (fun _ _ => rfl) (fun _ _ => rfl)
    rw [held, reported_sortStats]
    rfl

theorem moves_rows (next : StatsKey) (h : s.snapshot id now stats next (.rows shard visited) = some (s', t')) :
    Moves id s (.snapshotting now stats (.rows shard visited)) s' t' := by
  unfold SharedRecorder.snapshot at h
  dsimp only at h
  split_ifs at h with hnext hlock hall
  · cases h
    obtain ⟨row, hrow⟩ := Option.isSome_iff_exists.mp hnext.1
    refine moves_idle ⟨by simp, row, hrow, trivial⟩ (SharedRecorder.respects_own (.inl hlock) fun j hj => ?_)
      (fun _ => rfl) (fun _ _ => rfl) (fun _ _ => rfl) (fun _ _ => rfl)
    exact ⟨by simp [hj], rfl⟩
  · cases h
    exact moves_idle trivial (SharedRecorder.respects_lockShard _ _) (fun _ => rfl) (fun _ _ => rfl) (fun _ _ => rfl)
      (fun _ _ => rfl)

theorem moves_clear {row : StatsRow} {stat : EndpointStats} {c : Counter} {todo : List Counter}
    (hlock : s.rowLock key = some id) (hrow : s.row? key = some row)
    (hfits : (RowProgress.clearing stat (c :: todo)).Fits key row) :
    Moves id s (.snapshotting now stats (.row shard visited key (.clearing stat (c :: todo))))
      (s.setRow key (row.store c 0)) (.snapshotting now stats (.row shard visited key (.clearing stat todo))) := by
  obtain ⟨hkey, hnodup, hle⟩ := hfits
  obtain ⟨hfresh, hnodup⟩ := List.nodup_cons.mp hnodup
  refine ⟨⟨hlock, row.store c 0, by simp, hkey, hnodup, fun c' hc' => ?_⟩,
    SharedRecorder.respects_own (.inr hlock) fun j hj => ⟨rfl, by simp [hj]⟩, fun j c' => ?_, fun _ _ => rfl⟩
  · have hne : c' ≠ c := fun heq => hfresh (heq ▸ hc')
    rw [StatsRow.count_store, if_neg hne]
    exact hle c' (List.mem_cons_of_mem _ hc')
  · rw [SharedRecorder.rowCount_setRow]
    unfold held reported taken pending overwritten
    by_cases hj : j = key
    · subst hj
      rw [rowCount_of_row? hrow, StatsRow.count_store]
      by_cases hc : c' = c
      · subst hc
        have := hle c' List.mem_cons_self
        simp only [if_true, true_and, hfresh, not_false_eq_true, List.mem_cons, true_or, not_true_eq_false, if_false]
        omega
      · simp only [if_true, true_and, List.mem_cons, hc, false_or, Ne.symm hc, if_false]
        omega
    · simp [hj, Ne.symm hj]

theorem moves_handOver {row row' : StatsRow} {stat : EndpointStats} (hlock : s.rowLock key = some id)
    (hrow : s.row? key = some row) (hfits : (RowProgress.clearing stat []).Fits key row)
    (hcount : ∀ c, row'.count c = row.count c) :
    Moves id s (.snapshotting now stats (.row shard visited key (.clearing stat [])))
      ((s.setRow key row').lockRow key none) (.snapshotting now (stats ++ [stat]) (.rows shard (key :: visited))) := by
  refine ⟨trivial, SharedRecorder.respects_own (.inr hlock) fun j hj => ⟨by simp [hj], by simp [hj]⟩, fun j c => ?_,
    fun _ _ => rfl⟩
  have hcounts : ((s.setRow key row').lockRow key none).rowCount j c = s.rowCount j c := by
    show (s.setRow key row').rowCount j c = _
    rw [SharedRecorder.rowCount_setRow, hcount]
    split
    · rename_i hj
      rw [hj, rowCount_of_row? hrow]
    · rfl
  rw [hcounts]
  unfold held reported taken pending overwritten
  by_cases hj : stat.key = j
  · simp [hj, ← hfits.1]
  · simp [hj, ← hfits.1]

theorem moves_row (next : StatsKey) {progress : RowProgress}
    (howns : s.Owns id (.snapshotting now stats (.row shard visited key progress)))
    (h : s.snapshot id now stats next (.row shard visited key progress) = some (s', t')) :
    Moves id s (.snapshotting now stats (.row shard visited key progress)) s' t' := by
  obtain ⟨hlock, row, hrow, hfits⟩ := howns
  unfold SharedRecorder.snapshot at h
  obtain ⟨row', hrow', h⟩ := Option.map_eq_some_iff.mp h
  obtain rfl : row = row' := Option.some.inj (hrow.symm.trans hrow')
  have hidle : ∀ progress', progress'.Fits key row → (∀ j c, taken j c (.snapshotting now stats
      (.row shard visited key progress')) = taken j c (.snapshotting now stats (.row shard visited key progress))) →
      (∀ j c, overwritten j c s (.snapshotting now stats (.row shard visited key progress)) = 0) →
      Moves id s (.snapshotting now stats (.row shard visited key progress)) s
        (.snapshotting now stats (.row shard visited key progress')) := by
    intro progress' hfits' htaken hover
    refine moves_idle ⟨hlock, row, hrow, hfits'⟩ (.refl _ _) (fun _ => rfl) (fun j c => ?_) hover (fun _ _ => rfl)
    rw [held, htaken]
    rfl
  cases progress with
  | locked =>
    cases h
    exact hidle _ le_rfl (fun _ _ => rfl) (fun _ _ => rfl)
  | request requestCount =>
    cases h
    exact hidle _ hfits (fun _ _ => rfl) (fun _ _ => rfl)
  | inflight requestCount inflight =>
    dsimp only at h
    split_ifs at h
    · cases h
      exact moves_idle trivial (SharedRecorder.respects_own (.inr hlock) fun j hj => ⟨by simp [hj], rfl⟩)
        (fun _ => rfl) (fun _ _ => rfl) (fun _ _ => rfl) (fun _ _ => rfl)
    · cases h
      exact hidle _ ⟨hfits, le_rfl⟩ (fun _ _ => rfl) (fun _ _ => rfl)
  | error requestCount inflight errorCount =>
    cases h
    refine hidle _ ⟨rfl, by decide, fun c _ => ?_⟩ (fun j c => ?_) (fun _ _ => rfl)
    · cases c with
      | request => exact hfits.1
      | error => exact hfits.2
      | timeout => exact le_rfl
    · cases c <;> simp [taken]
  | clearing stat todo =>
    cases todo with
    | nil =>
      cases h
      exact moves_handOver hlock hrow hfits fun c => by cases c <;> rfl
    | cons c todo =>
      cases h
      exact moves_clear hlock hrow hfits

theorem moves_of_move {t t' : RecorderThread} {choice : RecorderChoice} (howns : s.Owns id t)
    (h : recorderThreads.move id s t choice = some (s', t')) : Moves id s t s' t' := by
  match t with
  | .observing obs [] => cases h
  | .observing obs (next :: todo) =>
    obtain ⟨s'', hobserve, heq⟩ := Option.map_eq_some_iff.mp h
    cases heq
    exact moves_observe todo hobserve
  | .snapshotting now stats (.shards shard) => exact moves_shards choice.next h
  | .snapshotting now stats (.rows shard visited) => exact moves_rows choice.next h
  | .snapshotting now stats (.row shard visited key progress) => exact moves_row choice.next howns h
  | .snapshotting now stats .returned => cases h

end Moves

/-! ## Runs -/

section Runs

variable {p : Threads SharedRecorder RecorderThread} {e : ThreadEvent RecorderCall RecorderChoice Empty} {key : StatsKey}
  {c : Counter} {lost : ℕ}

abbrev Owned : Threads SharedRecorder RecorderThread → Prop := ThreadSystem.Keeps (fun _ => True) SharedRecorder.Owns

theorem Owned.step (h : Owned p) (e : ThreadEvent RecorderCall RecorderChoice Empty) :
    Owned (recorderThreads.step p e) := by
  refine ThreadSystem.Keeps.step recorderThreads (fun s id call _ => ?_) (fun s id t choice s' t' _ ht hmove => ?_)
    (fun s e => nomatch e) h e
  · cases call <;> trivial
  · have hmoves := moves_of_move ht hmove
    exact ⟨trivial, hmoves.owns, fun other u hne hu => hu.respected hne hmoves.respects⟩

def lostIn (key : StatsKey) (c : Counter) (p : Threads SharedRecorder RecorderThread) :
    ThreadEvent RecorderCall RecorderChoice Empty → ℕ
  | .move id _ => (p.threads.lookup id).elim 0 (overwritten key c p.shared)
  | _ => 0

def lostBy (key : StatsKey) (c : Counter) :
    Threads SharedRecorder RecorderThread → List (ThreadEvent RecorderCall RecorderChoice Empty) → ℕ
  | _, [] => 0
  | p, e :: rest => lostIn key c p e + lostBy key c (recorderThreads.step p e) rest

def Balanced (key : StatsKey) (c : Counter) (p : Threads SharedRecorder RecorderThread) (lost : ℕ) : Prop :=
  p.shared.rowCount key c + Threads.total (held key c) p.threads + lost = Threads.total (observed key c) p.threads

theorem overwritten_of_blocked {s : SharedRecorder} {id : ℕ} {t : RecorderThread} {choice : RecorderChoice}
    (howns : s.Owns id t) (hmove : recorderThreads.move id s t choice = none) : overwritten key c s t = 0 := by
  unfold overwritten
  split
  · obtain ⟨-, row, hrow, -⟩ := howns
    simp [recorderThreads, SharedRecorder.snapshot, hrow] at hmove
  · rfl

theorem Balanced.step (h : Balanced key c p lost) (howned : Owned p) (e : ThreadEvent RecorderCall RecorderChoice Empty) :
    Balanced key c (recorderThreads.step p e) (lost + lostIn key c p e) := by
  unfold Balanced at h ⊢
  have hdid := recorderThreads.did_step p e
  generalize recorderThreads.step p e = p' at hdid
  cases hdid with
  | refused => exact h
  | @absent id choice hid =>
    rw [lostIn, hid]
    exact h
  | @blocked id choice t ht hmove =>
    rw [lostIn, ht, Option.elim_some, overwritten_of_blocked (howned.thread id t ht) hmove]
    exact h
  | @called id call hid =>
    have hstart : held key c (recorderThreads.start call) = observed key c (recorderThreads.start call) := by
      cases call with
      | observe obs =>
        simp only [recorderThreads, held, reported, taken, pending, observed, count_observeSteps]
        by_cases hkey : obs.key = key <;> simp [hkey]
      | snapshotAndReset now => rfl
    simp only [Threads.total_insert_of_none _ hid, lostIn, hstart]
    omega
  | @moved id choice t s t' ht hmove =>
    have hmoves := moves_of_move (howned.thread id t ht) hmove
    have hbalance := hmoves.balance key c
    have hobserved := hmoves.observed key c
    have hheld := Threads.total_insert (held key c) ht t'
    have htotal := Threads.total_insert (observed key c) ht t'
    simp only [lostIn, ht, Option.elim_some]
    omega
  | changed e => cases e

theorem Balanced.run (h : Balanced key c p lost) (howned : Owned p)
    (events : List (ThreadEvent RecorderCall RecorderChoice Empty)) :
    Balanced key c (events.foldl recorderThreads.step p) (lost + lostBy key c p events) := by
  induction events generalizing p lost with
  | nil => exact h
  | cons e rest ih =>
    rw [lostBy, ← Nat.add_assoc]
    exact ih (h.step howned e) (howned.step e)

theorem lostIn_eq_zero_iff (howned : Owned p) (e : ThreadEvent RecorderCall RecorderChoice Empty) :
    lostIn key c p e = 0 ↔ ClearsLoaded key c p e := by
  cases e with
  | call id call => exact ⟨fun _ => trivial, fun _ => rfl⟩
  | outside e => cases e
  | move id choice =>
    unfold lostIn ClearsLoaded
    dsimp only
    cases ht : p.threads.lookup id with
    | none => simp
    | some t =>
      have howns := howned.thread id t ht
      rw [Option.elim_some]
      constructor
      · rintro hzero now stats shard visited stat todo heq
        cases heq
        obtain ⟨-, row, hrow, -, -, hle⟩ := howns
        have := hle c List.mem_cons_self
        rw [← rowCount_of_row? hrow] at this
        simp only [overwritten, and_self, if_true] at hzero
        omega
      · intro hclears
        unfold overwritten
        split
        · rename_i k stat c' todo
          split
          · rename_i hsame
            obtain ⟨rfl, rfl⟩ := hsame
            rw [hclears _ _ _ _ stat todo rfl, Nat.sub_self]
          · rfl
        · rfl

theorem lostBy_eq_zero_iff (howned : Owned p) (events : List (ThreadEvent RecorderCall RecorderChoice Empty)) :
    lostBy key c p events = 0 ↔ Along recorderThreads.step (ClearsLoaded key c) p events := by
  induction events generalizing p with
  | nil => exact ⟨fun _ => trivial, fun _ => rfl⟩
  | cons e rest ih => rw [lostBy, Nat.add_eq_zero_iff, lostIn_eq_zero_iff howned, ih (howned.step e), Along]

end Runs

theorem held_of_returned {t : RecorderThread} (h : t.returned) (key : StatsKey) (c : Counter) :
    held key c t = reported key c t := by
  match t with
  | .observing obs [] => simp [held, reported, taken, pending]
  | .snapshotting now stats .returned => rfl

/-- After all calls have returned, the observations of a key are all in the snapshots and in the row exactly if every
store of zero into its counter found the value that was loaded. -/
theorem conserved_iff (source : String) (events : List (ThreadEvent RecorderCall RecorderChoice Empty)) (key : StatsKey)
    (c : Counter) (hreturned : AllReturned (recorderThreads.run { recorder := newRecorder source } events)) :
    Conserved (recorderThreads.run { recorder := newRecorder source } events) key c ↔
      Along recorderThreads.step (ClearsLoaded key c) { shared := { recorder := newRecorder source } } events := by
  have howned : Owned { shared := { recorder := newRecorder source } } := ThreadSystem.Keeps.initial trivial
  have hinit : Balanced key c { shared := { recorder := newRecorder source } } 0 := by
    simp [Balanced, SharedRecorder.rowCount, SharedRecorder.row?, newRecorder, Threads.total, Dict.values]
  have hbalanced := hinit.run howned events
  have hheld := Threads.total_congr fun t ht => held_of_returned (hreturned t ht) key c
  unfold Balanced at hbalanced
  rw [← lostBy_eq_zero_iff howned]
  unfold Conserved ThreadSystem.run at *
  omega

instance (p : Threads SharedRecorder RecorderThread) : Decidable (AllReturned p) :=
  inferInstanceAs (Decidable (∀ t ∈ Dict.values p.threads, t.returned))

instance (p : Threads SharedRecorder RecorderThread) (key : StatsKey) (c : Counter) : Decidable (Conserved p key c) :=
  inferInstanceAs (Decidable (_ = _))

def okObservation : Observation := { destination := "order", method := "m", upstream := "h:2", status := "OK", latency := 5 }

def movesOf (id n : ℕ) : List (ThreadEvent RecorderCall RecorderChoice Empty) :=
  List.replicate n (.move id { next := okObservation.key })

def oneAfterTheOther : List (ThreadEvent RecorderCall RecorderChoice Empty) :=
  [.call 0 (.observe okObservation), .call 1 (.snapshotAndReset 7)] ++ movesOf 0 3 ++ movesOf 1 138

theorem one_after_the_other_conserved :
    Along recorderThreads.step (ClearsLoaded okObservation.key .request)
      { shared := { recorder := newRecorder "order" } } oneAfterTheOther :=
  (conserved_iff "order" oneAfterTheOther okObservation.key .request (by decide +kernel)).mp (by decide +kernel)

def addedInBetween : List (ThreadEvent RecorderCall RecorderChoice Empty) :=
  [.call 0 (.observe okObservation), .call 1 (.snapshotAndReset 7), .call 2 (.observe okObservation)] ++
    movesOf 0 3 ++ movesOf 2 1 ++ movesOf 1 5 ++ movesOf 2 1 ++ movesOf 1 133 ++ movesOf 2 1

theorem added_in_between_lost :
    AllReturned (recorderThreads.run { recorder := newRecorder "order" } addedInBetween) ∧
      ¬Conserved (recorderThreads.run { recorder := newRecorder "order" } addedInBetween) okObservation.key .request := by
  decide +kernel

end AegisMesh.Telemetry
