import AegisMesh.Lib.EventLog
import AegisMesh.Lib.Threads
import AegisMesh.Lib.Versioned
import AegisMesh.Registry.LeaseStore

/-! # Watching a service in the lease store -/

open Lib

namespace AegisMesh.Registry

abbrev LeaseLog := LoggedStore String (Option LeaseStoreRecord)

structure Held where
  snapshot : InstanceSnapshot
  listed : LeaseLog

def Held.version (m : Held) : ℕ := m.snapshot.version

def Held.service (m : Held) : String := m.snapshot.service

structure WatchedStore where
  etcd : LeaseLog
  known : List Held := []

inductive StoreEvent
  | put (gap : ℕ) (key : String) (value : Option LeaseStoreRecord)
  | delete (gap : ℕ) (key : String)
  | snapshot (service : String)

/-- `Watch` with the version of the snapshot in the given place among the known ones. -/
structure WatchCall where
  ctx : Ctx := .background
  service : String
  own : ℕ

structure LeaseWatcher where
  own : Held
  emitted : List Held := []
  lastSentVersion : ℕ
  /-- The events up to here have been made known by a notice. -/
  noticed : ℕ
  /-- The channel of notices, which keeps the latest one. -/
  revisions : Option ℕ := none

inductive WatchPhase
  | sending (message : Held)
  | waiting
  | handling (revision : ℕ)

inductive WatchThread
  | called (call : WatchCall)
  /-- Between the first listing and `store.Watch`. -/
  | opening (own initial : Held)
  | running (w : LeaseWatcher) (phase : WatchPhase)
  | closed

inductive WatchChoice
  | proceed
  /-- The context is done, a call of the store fails, or the watch of the store ends. -/
  | stop
  /-- The relay gets a response with the events up to `upTo` and puts its revision into the channel. -/
  | notice (upTo revision : ℕ)

def LeaseWatcher.service (w : LeaseWatcher) : String := w.own.service

def LeaseWatcher.last (w : LeaseWatcher) : Held := w.emitted.getLastD w.own

namespace LeaseStoreRegistry

variable (r : LeaseStoreRegistry)

def openWatch (s : WatchedStore) (call : WatchCall) : Option WatchThread :=
  if call.ctx 0 || call.service = "" then some .closed
  else
    match s.known[call.own]? with
    | none => none
    | some own =>
      if own.service ≠ call.service then none
      else
        match r.snapshot s.etcd.now (call.ctx.after 1) call.service with
        | .error _ => some .closed
        | .ok initial => some (.opening own { snapshot := initial, listed := s.etcd })

/-- The rest of `Watch`, and `watch` up to its loop. A watch of the store without a revision starts at the present. -/
def startWatch (s : WatchedStore) (own initial : Held) : WatchThread :=
  let watchFrom := if initial.version < own.version then own.version else initial.version
  let noticed := if 0 < watchFrom then watchFrom else s.etcd.now.revision
  if own.version < initial.version then
    .running { own, lastSentVersion := initial.version, noticed } (.sending initial)
  else .running { own, lastSentVersion := own.version, noticed } .waiting

def receive (w : LeaseWatcher) (revision : ℕ) : WatchThread :=
  let w := { w with revisions := none }
  if revision ≠ 0 ∧ revision ≤ w.lastSentVersion then .running w .waiting else .running w (.handling revision)

def handle (s : WatchedStore) (w : LeaseWatcher) (revision : ℕ) : WatchThread :=
  match r.snapshot s.etcd.now .background w.service with
  | .error _ => .closed
  | .ok snapshot =>
    let snapshot := if snapshot.version < revision then { snapshot with version := revision } else snapshot
    if snapshot.version ≤ w.lastSentVersion then .running w .waiting
    else .running { w with lastSentVersion := snapshot.version } (.sending { snapshot, listed := s.etcd })

def watchMove (s : WatchedStore) : WatchThread → WatchChoice → Option (WatchedStore × WatchThread)
  | .called call, .proceed => (r.openWatch s call).map fun t => (s, t)
  | .opening own initial, .proceed => some (s, startWatch s own initial)
  | .running w (.sending message), .proceed =>
    some ({ s with known := s.known ++ [message] }, .running { w with emitted := w.emitted ++ [message] } .waiting)
  | .running w .waiting, .proceed => w.revisions.map fun revision => (s, receive w revision)
  | .running w (.handling revision), .proceed => some (s, r.handle s w revision)
  | .running w phase, .notice upTo revision =>
    if w.noticed ≤ upTo ∧ upTo ≤ revision ∧ revision ≤ s.etcd.now.revision ∧ revision ≠ 0 then
      some (s, .running { w with noticed := upTo, revisions := some revision } phase)
    else none
  | .closed, _ => none
  | _, .stop => some (s, .closed)
  | _, .notice _ _ => none

def watched (s : WatchedStore) : StoreEvent → WatchedStore
  | .put gap key value => { s with etcd := s.etcd.put gap key value }
  | .delete gap key => { s with etcd := s.etcd.delete gap key }
  | .snapshot service =>
    match r.snapshot s.etcd.now .background service with
    | .error _ => s
    | .ok snapshot => { s with known := s.known ++ [{ snapshot, listed := s.etcd }] }

def watchers : ThreadSystem WatchedStore WatchThread WatchCall WatchChoice StoreEvent where
  start := .called
  move _ := r.watchMove
  outside := r.watched

/-! ## What a listing depends on -/

variable {r} {s s' : LeaseStore} {service : String} {snap : InstanceSnapshot}

def Under (r : LeaseStoreRegistry) (service key : String) : Prop :=
  (r.servicePrefix service).toList.isPrefixOf key.toList = true

theorem listUnder_perm (hsame : ∀ key, r.Under service key → s'.entries.lookup key = s.entries.lookup key) :
    (listUnder s (r.servicePrefix service)).Perm (listUnder s' (r.servicePrefix service)) := by
  refine List.Perm.map _ ((List.perm_ext_iff_of_nodup ?_ ?_).mpr fun e => ?_)
  · exact s.entries.nodupKeys.nodup.filter _
  · exact s'.entries.nodupKeys.nodup.filter _
  · simp only [List.mem_filter, and_congr_left_iff]
    intro hunder
    rw [← AList.mem_lookup_iff, ← AList.mem_lookup_iff, hsame e.1 hunder]

theorem snapshot_perm (hsame : ∀ key, r.Under service key → s'.entries.lookup key = s.entries.lookup key)
    (h : r.snapshot s .background service = .ok snap) :
    ∃ snap', r.snapshot s' .background service = .ok snap' ∧ snap.instances.Perm snap'.instances := by
  have hperm := listUnder_perm hsame
  unfold snapshot at h ⊢
  split_ifs at h ⊢ with hctx hservice
  rcases hown : decodeOwn service (listUnder s (r.servicePrefix service)) with _ | own
  · simp [hown] at h
  rw [hown] at h
  cases h
  obtain ⟨decoded, hdecoded, rfl⟩ := Option.map_eq_some_iff.mp hown
  obtain ⟨hall, rfl⟩ := mapM_option_iff.mp hdecoded
  have hdecoded' := mapM_option_iff.mpr ⟨fun kv hkv => hall kv (hperm.mem_iff.mpr hkv), rfl⟩
  rw [decodeOwn, hdecoded', Option.map_some]
  refine ⟨_, rfl, ?_⟩
  have hown := ((hperm.filterMap decodeEntry).filter fun e => e.value.service = service).map Entry.value
  exact (List.perm_insertionSort _ _).trans (hown.trans (List.perm_insertionSort _ _).symm)

/-! ## What a held snapshot tells -/

structure Valid (r : LeaseStoreRegistry) (etcd : LeaseLog) (m : Held) : Prop where
  shown : ∃ snap, r.snapshot m.listed.now .background m.service = .ok snap ∧ snap.instances = m.snapshot.instances
  version_le : m.version ≤ m.listed.now.revision
  earlier : m.listed.Extends etcd

variable {etcd : LeaseLog} {m : Held} {etcd' : LeaseLog} {event : LogEvent String (Option LeaseStoreRecord)}

theorem snapshot_of_ok {ctx : Ctx} (h : r.snapshot s ctx service = .ok snap) :
    r.snapshot s .background service = .ok snap ∧ snap.service = service := by
  unfold snapshot at h ⊢
  split_ifs at h with hctx hservice
  rw [if_neg (by simp [Ctx.background]), if_neg hservice]
  refine ⟨h, ?_⟩
  split at h
  · cases h
  · cases h
    rfl

theorem Shows.version_pos (h : r.Shows s service snap) (hpos : 0 < s.revision) : 0 < snap.version := by
  by_cases hnil : snap.instances = []
  · rw [h.empty hnil]
    exact hpos
  · obtain ⟨e, he, heq⟩ := h.version hnil
    exact heq ▸ he.bounded.1

theorem valid_of_snapshot {ctx : Ctx} {version : ℕ} (h : r.snapshot etcd.now ctx service = .ok snap)
    (hle : version ≤ etcd.now.revision) : r.Valid etcd { snapshot := { snap with version }, listed := etcd } := by
  obtain ⟨hsnap, hservice⟩ := snapshot_of_ok h
  refine ⟨⟨snap, ?_, rfl⟩, hle, .refl etcd⟩
  show r.snapshot etcd.now .background snap.service = _
  rw [hservice, hsnap]

theorem Valid.current (h : r.Valid etcd m)
    (hquiet : ∀ e ∈ etcd.log, r.Under m.service e.key → e.revision ≤ m.listed.now.revision) :
    ∃ snap, r.snapshot etcd.now .background m.service = .ok snap ∧ m.snapshot.instances.Perm snap.instances := by
  obtain ⟨snap, hsnap, hinstances⟩ := h.shown
  obtain ⟨snap', hsnap', hperm⟩ := snapshot_perm (fun key hunder => h.earlier.unchanged key fun e he hkey =>
    hquiet e he (hkey ▸ hunder)) hsnap
  exact ⟨snap', hsnap', hinstances ▸ hperm⟩

/-! ## What holds of a watcher -/

def current (w : LeaseWatcher) : WatchPhase → Held
  | .sending message => message
  | _ => w.last

def InPhase (etcd : LeaseLog) (w : LeaseWatcher) : WatchPhase → Prop
  | .sending message => w.last.version < message.version
  | .waiting => True
  | .handling revision => w.lastSentVersion < revision ∧ revision ≤ etcd.now.revision

def SeenTo (w : LeaseWatcher) (phase : WatchPhase) (revision : ℕ) : Prop :=
  revision ≤ (current w phase).listed.now.revision ∨ (∃ notice, w.revisions = some notice ∧ revision ≤ notice) ∨
    ∃ notice, phase = .handling notice ∧ revision ≤ notice

structure Watching (r : LeaseStoreRegistry) (etcd : LeaseLog) (w : LeaseWatcher) (phase : WatchPhase) : Prop where
  valid : r.Valid etcd (current w phase)
  service : (current w phase).service = w.service
  lastSent : w.lastSentVersion = (current w phase).version
  increasing : (w.own.version :: w.emitted.map Held.version).IsChain (· < ·)
  inPhase : InPhase etcd w phase
  noticed_le : w.noticed ≤ etcd.now.revision
  notice : ∀ notice, w.revisions = some notice → 0 < notice ∧ notice ≤ etcd.now.revision
  seenTo : ∀ e ∈ etcd.log, r.Under w.service e.key → e.revision ≤ w.noticed → SeenTo w phase e.revision

def Keeping (r : LeaseStoreRegistry) (etcd : LeaseLog) : WatchThread → Prop
  | .called _ => True
  | .opening own initial =>
    r.Valid etcd own ∧ r.Valid etcd initial ∧ initial.service = own.service ∧ 0 < initial.version
  | .running w phase => r.Watching etcd w phase
  | .closed => True

structure Sound (r : LeaseStoreRegistry) (s : WatchedStore) : Prop where
  positive : 0 < s.etcd.now.revision
  known : ∀ m ∈ s.known, r.Valid s.etcd m

/-! ## Changes of the store -/

theorem Valid.changed (h : r.Valid etcd m) (hchanged : LoggedStore.Changed etcd etcd' event) : r.Valid etcd' m :=
  ⟨h.shown, h.version_le, h.earlier.changed hchanged⟩

theorem Watching.changed {w : LeaseWatcher} {phase : WatchPhase} (h : r.Watching etcd w phase)
    (hchanged : LoggedStore.Changed etcd etcd' event) :
    r.Watching etcd' w phase := by
  have hle := h.noticed_le
  have hnewer := hchanged.newer
  have hrevision := hchanged.revision
  refine ⟨h.valid.changed hchanged, h.service, h.lastSent, h.increasing, ?_, by omega, fun notice hn => ?_,
    fun e he hunder hnoticed => ?_⟩
  · have hphase := h.inPhase
    cases phase with
    | sending message => exact hphase
    | waiting => trivial
    | handling revision => exact ⟨hphase.1, by have := hphase.2; omega⟩
  · have := h.notice notice hn
    omega
  · rw [hchanged.log, List.mem_append, List.mem_singleton] at he
    rcases he with he | rfl
    · exact h.seenTo e he hunder hnoticed
    · omega

theorem Keeping.changed {t : WatchThread} (h : r.Keeping etcd t) (hchanged : LoggedStore.Changed etcd etcd' event) :
    r.Keeping etcd' t := by
  cases t with
  | called call => trivial
  | opening own initial => exact ⟨h.1.changed hchanged, h.2.1.changed hchanged, h.2.2⟩
  | running w phase => exact Watching.changed h hchanged
  | closed => trivial

/-! ## Moves -/

variable {ws ws' : WatchedStore} {w : LeaseWatcher} {phase : WatchPhase}

theorem Sound.keeping_openWatch (h : r.Sound ws) {call : WatchCall} {t : WatchThread}
    (hopen : r.openWatch ws call = some t) : r.Keeping ws.etcd t := by
  unfold openWatch at hopen
  split_ifs at hopen
  · cases hopen
    trivial
  split at hopen
  · cases hopen
  rename_i own hown
  split_ifs at hopen with hservice
  split at hopen
  · cases hopen
    trivial
  · rename_i initial hinitial
    cases hopen
    have hshows := snapshot_spec hinitial
    refine ⟨h.known own (List.mem_of_getElem? hown), valid_of_snapshot hinitial hshows.version_le, ?_,
      hshows.version_pos h.positive⟩
    rw [ne_eq, not_not] at hservice
    exact (snapshot_of_ok hinitial).2.trans hservice.symm

theorem keeping_startWatch {own initial : Held} (h : r.Keeping ws.etcd (.opening own initial)) :
    r.Keeping ws.etcd (startWatch ws own initial) := by
  obtain ⟨hown, hinitial, hservice, hpos⟩ := h
  have hown_le := hown.version_le
  have hinitial_le := hinitial.version_le
  have hown_earlier := hown.earlier.revision_le
  have hinitial_earlier := hinitial.earlier.revision_le
  have hfrom : 0 < if initial.version < own.version then own.version else initial.version := by
    split <;> omega
  unfold startWatch
  simp only [hfrom, if_true]
  split
  · rename_i hlt
    rw [if_neg (by omega)]
    refine ⟨hinitial, hservice, rfl, List.isChain_singleton _, hlt, by dsimp only; omega, fun notice hn => (nomatch hn),
      fun e _ _ hnoticed => .inl ?_⟩
    exact le_trans hnoticed hinitial_le
  · rename_i hge
    refine ⟨hown, rfl, rfl, List.isChain_singleton _, trivial, by dsimp only; split <;> omega, fun notice hn => (nomatch hn),
      fun e _ _ hnoticed => .inl ?_⟩
    show e.revision ≤ own.listed.now.revision
    dsimp only at hnoticed
    split at hnoticed <;> omega

theorem last_snoc (w : LeaseWatcher) (message : Held) :
    ({ w with emitted := w.emitted ++ [message] } : LeaseWatcher).last = message := by
  simp [LeaseWatcher.last]

theorem last_version (w : LeaseWatcher) : (w.emitted.map Held.version).getLastD w.own.version = w.last.version := by
  simp [LeaseWatcher.last, List.getLastD_eq_getLast?, List.getLast?_map, Option.getD_map]

theorem Watching.sent {message : Held} (h : r.Watching etcd w (.sending message)) :
    r.Watching etcd { w with emitted := w.emitted ++ [message] } .waiting := by
  have hcurrent : current { w with emitted := w.emitted ++ [message] } .waiting = message := last_snoc w message
  refine ⟨by rw [hcurrent]; exact h.valid, by rw [hcurrent]; exact h.service, by rw [hcurrent]; exact h.lastSent, ?_,
    trivial, h.noticed_le, h.notice, fun e he hunder hnoticed => ?_⟩
  · rw [List.map_append]
    refine isChain_snoc h.increasing ?_
    dsimp only
    rw [last_version]
    exact h.inPhase
  · rcases h.seenTo e he hunder hnoticed with hle | hnotice | ⟨notice, hphase, -⟩
    · exact .inl (by rw [hcurrent]; exact hle)
    · exact .inr (.inl hnotice)
    · cases hphase

theorem Watching.received {notice : ℕ} (h : r.Watching etcd w .waiting) (hnotice : w.revisions = some notice) :
    r.Keeping etcd (receive w notice) := by
  obtain ⟨hpos, hle⟩ := h.notice notice hnotice
  have hlast := h.lastSent
  have hversion := h.valid.version_le
  have hseen : ∀ e ∈ etcd.log, r.Under w.service e.key → e.revision ≤ w.noticed →
      e.revision ≤ w.last.listed.now.revision ∨ e.revision ≤ notice := by
    intro e he hunder hnoticed
    rcases h.seenTo e he hunder hnoticed with hle | ⟨notice', hnotice', hle⟩ | ⟨notice', hphase, -⟩
    · exact .inl hle
    · rw [hnotice, Option.some.injEq] at hnotice'
      exact .inr (hnotice' ▸ hle)
    · cases hphase
  unfold receive
  dsimp only
  split
  · rename_i hold
    refine ⟨h.valid, h.service, h.lastSent, h.increasing, trivial, h.noticed_le, fun _ hn => (nomatch hn),
      fun e he hunder hnoticed => .inl ?_⟩
    show e.revision ≤ w.last.listed.now.revision
    rcases hseen e he hunder hnoticed with hle | hle
    · exact hle
    · exact le_trans hle (le_trans hold.2 (hlast ▸ hversion))
  · rename_i hnew
    refine ⟨h.valid, h.service, h.lastSent, h.increasing, ⟨?_, hle⟩, h.noticed_le, fun _ hn => (nomatch hn),
      fun e he hunder hnoticed => ?_⟩
    · dsimp only
      omega
    · rcases hseen e he hunder hnoticed with hle | hle
      · exact .inl hle
      · exact .inr (.inr ⟨notice, rfl, hle⟩)

theorem Watching.handled {notice : ℕ} (h : r.Watching ws.etcd w (.handling notice)) :
    r.Keeping ws.etcd (r.handle ws w notice) := by
  obtain ⟨hnewer, hle⟩ := h.inPhase
  unfold handle
  split
  · trivial
  rename_i snapshot hsnapshot
  have hversion := (snapshot_spec hsnapshot).version_le
  have hmessage : ∃ version, notice ≤ version ∧ version ≤ ws.etcd.now.revision ∧
      (if snapshot.version < notice then { snapshot with version := notice } else snapshot) =
        { snapshot with version } := by
    split
    · exact ⟨notice, le_rfl, hle, rfl⟩
    · exact ⟨snapshot.version, by omega, hversion, rfl⟩
  obtain ⟨version, hge, hbound, hmessage⟩ := hmessage
  simp only [hmessage]
  rw [if_neg (by omega)]
  refine ⟨valid_of_snapshot hsnapshot hbound, (snapshot_of_ok hsnapshot).2, rfl, h.increasing, ?_, h.noticed_le, h.notice,
    fun e he _ _ => .inl (ws.etcd.bounded e he)⟩
  have hlast : w.lastSentVersion = w.last.version := h.lastSent
  show w.last.version < version
  omega

theorem Watching.noticed {upTo notice : ℕ} (h : r.Watching etcd w phase) (hle : upTo ≤ notice)
    (hbound : notice ≤ etcd.now.revision) (hpos : notice ≠ 0) :
    r.Watching etcd { w with noticed := upTo, revisions := some notice } phase := by
  have hcurrent : current { w with noticed := upTo, revisions := some notice } phase = current w phase := by
    cases phase <;> rfl
  refine ⟨hcurrent ▸ h.valid, hcurrent ▸ h.service, hcurrent ▸ h.lastSent, h.increasing, ?_, by dsimp only; omega,
    fun notice' hn => ?_, fun e he hunder hnoticed => .inr (.inl ⟨notice, rfl, le_trans hnoticed hle⟩)⟩
  · have hphase := h.inPhase
    cases phase <;> exact hphase
  · cases hn
    omega

theorem Sound.watchMove (h : r.Sound ws) {t t' : WatchThread} {c : WatchChoice} (ht : r.Keeping ws.etcd t)
    (hmove : r.watchMove ws t c = some (ws', t')) :
    ws'.etcd = ws.etcd ∧ r.Sound ws' ∧ r.Keeping ws.etcd t' := by
  unfold LeaseStoreRegistry.watchMove at hmove
  split at hmove
  · obtain ⟨t'', hopen, heq⟩ := Option.map_eq_some_iff.mp hmove
    cases heq
    exact ⟨rfl, h, h.keeping_openWatch hopen⟩
  · cases hmove
    exact ⟨rfl, h, keeping_startWatch ht⟩
  · rename_i w message
    cases hmove
    refine ⟨rfl, ⟨h.positive, fun m hm => ?_⟩, Watching.sent ht⟩
    rcases List.mem_append.mp hm with hm | hm
    · exact h.known m hm
    · rw [List.mem_singleton.mp hm]
      exact ht.valid
  · obtain ⟨notice, hnotice, heq⟩ := Option.map_eq_some_iff.mp hmove
    cases heq
    exact ⟨rfl, h, Watching.received ht hnotice⟩
  · cases hmove
    exact ⟨rfl, h, Watching.handled ht⟩
  · split_ifs at hmove with hnotice
    cases hmove
    exact ⟨rfl, h, Watching.noticed ht hnotice.2.1 hnotice.2.2.1 hnotice.2.2.2⟩
  · cases hmove
  · cases hmove
    exact ⟨rfl, h, trivial⟩
  · cases hmove

theorem Sound.changed (h : r.Sound ws) (hchanged : LoggedStore.Changed ws.etcd etcd' event) :
    r.Sound { ws with etcd := etcd' } := by
  have hpos := h.positive
  have hnewer := hchanged.newer
  have hrevision := hchanged.revision
  exact ⟨by dsimp only; omega, fun m hm => (h.known m hm).changed hchanged⟩

theorem Sound.watched (h : r.Sound ws) (e : StoreEvent) :
    r.Sound (r.watched ws e) ∧ ∀ t, r.Keeping ws.etcd t → r.Keeping (r.watched ws e).etcd t := by
  cases e with
  | put gap key value =>
    have hchanged := ws.etcd.put_changed gap key value
    exact ⟨h.changed hchanged, fun t ht => ht.changed hchanged⟩
  | delete gap key =>
    unfold LeaseStoreRegistry.watched
    rcases ws.etcd.delete_changed gap key with heq | hchanged
    · simp only [heq]
      exact ⟨h, fun t ht => ht⟩
    · exact ⟨h.changed hchanged, fun t ht => ht.changed hchanged⟩
  | snapshot service =>
    simp only [LeaseStoreRegistry.watched]
    split
    · exact ⟨h, fun t ht => ht⟩
    · rename_i snapshot hsnapshot
      refine ⟨⟨h.positive, fun m hm => ?_⟩, fun t ht => ht⟩
      rcases List.mem_append.mp hm with hm | hm
      · exact h.known m hm
      · rw [List.mem_singleton.mp hm]
        exact valid_of_snapshot hsnapshot (snapshot_spec hsnapshot).version_le

/-! ## Runs -/

theorem keeping_run (r : LeaseStoreRegistry) (revision : ℕ) (events : List (ThreadEvent WatchCall WatchChoice StoreEvent)) :
    ThreadSystem.Keeps r.Sound (fun s _ t => r.Keeping s.etcd t)
      (r.watchers.run { etcd := .empty (revision + 1) } events) := by
  have hinit : r.Sound { etcd := .empty (revision + 1) } := ⟨Nat.succ_pos _, fun m hm => (nomatch hm)⟩
  refine ThreadSystem.Keeps.run r.watchers (fun s id call _ => trivial) ?_ ?_ hinit events
  · intro s id t c s' t' hs ht hmove
    obtain ⟨hetcd, hs', ht'⟩ := hs.watchMove ht hmove
    exact ⟨hs', by rw [hetcd]; exact ht', fun _ u _ hu => by rw [hetcd]; exact hu⟩
  · intro s e hs
    obtain ⟨hs', hkeeps⟩ := hs.watched e
    exact ⟨hs', fun _ t ht => hkeeps t ht⟩

def NoNoticeOutstanding (r : LeaseStoreRegistry) (etcd : LeaseLog) (w : LeaseWatcher) : Prop :=
  w.revisions = none ∧ ∀ e ∈ etcd.log, r.Under w.service e.key → e.revision ≤ w.noticed

/-- A watcher emits increasing versions above that of the caller. When it waits and no notice is outstanding, the
caller has got what the store holds. -/
theorem watch_loses_nothing (r : LeaseStoreRegistry) (revision : ℕ)
    (events : List (ThreadEvent WatchCall WatchChoice StoreEvent)) (id : ℕ) (w : LeaseWatcher) (phase : WatchPhase)
    (h : (r.watchers.run { etcd := .empty (revision + 1) } events).threads.lookup id = some (.running w phase)) :
    (w.emitted.map Held.version).Pairwise (· < ·) ∧ (∀ v ∈ w.emitted.map Held.version, w.own.version < v) ∧
    (phase = .waiting →
      r.NoNoticeOutstanding (r.watchers.run { etcd := .empty (revision + 1) } events).shared.etcd w →
      ∃ snap, r.snapshot (r.watchers.run { etcd := .empty (revision + 1) } events).shared.etcd.now .background w.service =
        .ok snap ∧ w.last.snapshot.instances.Perm snap.instances) := by
  have hwatching : r.Watching _ w phase := (keeping_run r revision events).thread id _ h
  obtain ⟨habove, hincreasing⟩ := List.pairwise_cons.mp (List.isChain_iff_pairwise.mp hwatching.increasing)
  refine ⟨hincreasing, habove, ?_⟩
  rintro rfl ⟨hempty, hknown⟩
  have hservice : w.last.service = w.service := hwatching.service
  have hvalid : r.Valid _ w.last := hwatching.valid
  rw [← hservice]
  refine hvalid.current fun e he hunder => ?_
  rw [hservice] at hunder
  rcases hwatching.seenTo e he hunder (hknown e he hunder) with hle | ⟨notice, hnotice, -⟩ | ⟨notice, hphase, -⟩
  · exact hle
  · rw [hempty] at hnotice
    cases hnotice
  · cases hphase

instance (r : LeaseStoreRegistry) (service key : String) : Decidable (r.Under service key) :=
  inferInstanceAs (Decidable (_ = true))

def watchedKeys : LeaseStoreRegistry := { keyPrefix := "/registry", escape := id }

def partialExpiry : List (ThreadEvent WatchCall WatchChoice StoreEvent) :=
  [.outside (.put 0 "/registry/svc/a" (some { id := "a", service := "svc", address := "h:1" })),
    .outside (.put 0 "/registry/svc/b" (some { id := "b", service := "svc", address := "h:2" })),
    .outside (.snapshot "svc"), .call 0 { service := "svc", own := 0 }, .move 0 .proceed, .move 0 .proceed,
    .outside (.delete 0 "/registry/svc/b"), .move 0 (.notice 4 4), .move 0 .proceed, .move 0 .proceed, .move 0 .proceed]

theorem partial_expiry_shown :
    ∃ w, (watchedKeys.watchers.run { etcd := .empty 1 } partialExpiry).threads.lookup 0 = some (.running w .waiting) ∧
      w.emitted.map Held.version = [4] ∧
      ∃ snap, watchedKeys.snapshot (watchedKeys.watchers.run { etcd := .empty 1 } partialExpiry).shared.etcd.now
        .background w.service = .ok snap ∧ w.last.snapshot.instances.Perm snap.instances :=
  ⟨_, rfl, rfl, (watch_loses_nothing watchedKeys 0 partialExpiry 0 _ .waiting rfl).2.2 rfl ⟨rfl, by decide⟩⟩

end LeaseStoreRegistry

end AegisMesh.Registry
