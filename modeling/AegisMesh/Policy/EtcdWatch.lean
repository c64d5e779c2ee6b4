import AegisMesh.Lib.EventLog
import AegisMesh.Lib.Runs
import AegisMesh.Policy.EtcdStore

/-!
# Keeping the etcd policy cache up to date

`watchLoop` takes in watch responses one by one.
-/

namespace AegisMesh.Policy

open Lib

inductive Intake
  | reload (kvs : List PolicyKV)
  | response (event : PolicyWatchEvent)

def Intake.kvs : Intake → List PolicyKV
  | .reload kvs => kvs
  | .response event => event.puts

structure Watcher where
  etcd : LoggedStore Bytes Bytes
  store : EtcdStore
  afterRevision : ℕ
  needResync : Bool := false
  /-- Newest first. The code does not keep them. -/
  intakes : List Intake

inductive WatchStep
  | put (gap : ℕ) (key value : Bytes)
  | delete (gap : ℕ) (key : Bytes)
  | deliver (upto : ℕ)
  | broken
  | resync

def putOf : LogEvent Bytes Bytes → Option PolicyKV
  | .put key value modRevision => some { key, value, modRevision }
  | .delete _ _ => none

def deletedKey : LogEvent Bytes Bytes → Option Bytes
  | .put _ _ _ => none
  | .delete key _ => some key

namespace EtcdPolicies

variable (c : EtcdPolicies)

/-- `store.Watch`: the puts and the deletes of a response come in two lists. -/
def watchEvent (revision : ℕ) (events : List (LogEvent Bytes Bytes)) : PolicyWatchEvent :=
  let events := events.filter fun e => c.servicesPrefix.isPrefixOf e.key
  { revision, puts := events.filterMap putOf, deletes := events.filterMap deletedKey }

def newEtcdStore (etcd : LoggedStore Bytes Bytes) : Except DecodePolicyError Watcher :=
  match c.reloadFull etcd.now with
  | .error err => .error err
  | .ok store => .ok { etcd, store, afterRevision := store.revision, intakes := [.reload (c.list etcd.now)] }

def deliver (w : Watcher) (upto : ℕ) : Watcher :=
  if w.needResync ∨ upto ≤ w.afterRevision ∨ w.etcd.now.revision < upto then w
  else
    let event := c.watchEvent upto (w.etcd.between w.afterRevision upto)
    match c.applyWatchEvent w.store event with
    | .error _ => { w with afterRevision := upto, needResync := true }
    | .ok store => { w with afterRevision := upto, store, intakes := .response event :: w.intakes }

def resyncAfterBackoff (w : Watcher) : Watcher :=
  if w.needResync then
    match c.reloadFull w.etcd.now with
    | .error _ => { w with needResync := false }
    | .ok store =>
      { w with
        needResync := false
        store
        afterRevision := store.revision
        intakes := .reload (c.list w.etcd.now) :: w.intakes }
  else w

def step (w : Watcher) : WatchStep → Watcher
  | .put gap key value => { w with etcd := w.etcd.put gap key value }
  | .delete gap key => { w with etcd := w.etcd.delete gap key }
  | .deliver upto => c.deliver w upto
  | .broken => { w with needResync := true }
  | .resync => c.resyncAfterBackoff w

def run (w : Watcher) (steps : List WatchStep) : Watcher := steps.foldl c.step w

/-! ## What the cache shows -/

def takesIn (service : Bytes) : Intake → Bool
  | .reload _ => true
  | .response event =>
    service ∈ event.deletes.filterMap c.serviceFromPolicyKey ||
      event.puts.any fun kv => c.serviceFromPolicyKey kv.key = some service

/-- What an intake leaves of a service. Deletes come after puts, whatever their order was. -/
def shown (service : Bytes) : Intake → Option PolicyKV
  | .reload kvs => c.lastNaming service kvs
  | .response event =>
    if service ∈ event.deletes.filterMap c.serviceFromPolicyKey then none else c.lastNaming service event.puts

def lastIntake (service : Bytes) (intakes : List Intake) : Option Intake := intakes.find? (c.takesIn service)

def Logged (etcd : LoggedStore Bytes Bytes) (kv : PolicyKV) : Prop := .put kv.key kv.value kv.modRevision ∈ etcd.log

structure Sound (w : Watcher) : Prop where
  opened : ∃ kvs, .reload kvs ∈ w.intakes
  revision_le : w.store.revision ≤ w.afterRevision
  cached : ∀ service, w.store.policies.lookup service =
    ((c.lastIntake service w.intakes).bind (c.shown service)).bind c.read
  taken : ∀ intake ∈ w.intakes, ∀ kv ∈ intake.kvs, c.Decodes kv ∧ Logged w.etcd kv

variable {c} {w : Watcher} {service : Bytes} {kv : PolicyKV} {etcd : LoggedStore Bytes Bytes}
  {event : LogEvent Bytes Bytes}

theorem mem_list {keys : RevStore Bytes Bytes} :
    kv ∈ c.list keys ↔ c.servicesPrefix.isPrefixOf kv.key ∧
      keys.entries.lookup kv.key = some { value := kv.value, modRevision := kv.modRevision } := by
  unfold list
  rw [mem_sortBy, List.mem_map]
  constructor
  · rintro ⟨⟨key, entry⟩, hmem, rfl⟩
    obtain ⟨hentry, hunder⟩ := List.mem_filter.mp hmem
    exact ⟨hunder, AList.mem_lookup_iff.mpr hentry⟩
  · rintro ⟨hunder, hlookup⟩
    exact ⟨_, List.mem_filter.mpr ⟨AList.mem_lookup_iff.mp hlookup, hunder⟩, rfl⟩

theorem logged_of_mem_list (h : kv ∈ c.list etcd.now) :
    Logged etcd kv :=
  etcd.written kv.key _ (mem_list.mp h).2

theorem read_inj {kv kv' : PolicyKV} (hkv : Logged etcd kv) (hkv' : Logged etcd kv') (hdecodes : c.Decodes kv)
    (hdecodes' : c.Decodes kv') (hnames : c.serviceFromPolicyKey kv.key = some service)
    (hnames' : c.serviceFromPolicyKey kv'.key = some service) (h : c.read kv = c.read kv') : kv = kv' := by
  obtain ⟨snapshot, hread, hrevision⟩ := read_of_names hdecodes hnames
  obtain ⟨snapshot', hread', hrevision'⟩ := read_of_names hdecodes' hnames'
  rw [hread, hread'] at h
  cases h
  have hsame : kv.modRevision = kv'.modRevision := by rw [← hrevision, hrevision']
  have hevent := LoggedStore.event_eq hkv hkv' hsame
  cases kv
  cases kv'
  simpa using hevent

theorem shown_mem {intake : Intake} (h : c.shown service intake = some kv) :
    kv ∈ intake.kvs ∧ c.serviceFromPolicyKey kv.key = some service := by
  cases intake with
  | reload kvs => exact lastNaming_mem h
  | response event =>
    simp only [shown] at h
    split at h
    · cases h
    · exact lastNaming_mem h

theorem mem_watchEvent_puts {revision : ℕ} {events : List (LogEvent Bytes Bytes)}
    (h : kv ∈ (c.watchEvent revision events).puts) : .put kv.key kv.value kv.modRevision ∈ events := by
  obtain ⟨event, hevent, hput⟩ := List.mem_filterMap.mp h
  cases event with
  | put key value modRevision =>
    cases hput
    exact (List.mem_filter.mp hevent).1
  | delete key revision => cases hput

theorem isPrefixOf_of_names {key : Bytes} (h : c.serviceFromPolicyKey key = some service) :
    c.servicesPrefix.isPrefixOf key = true := by
  unfold serviceFromPolicyKey at h
  split at h
  · cases h
  · rename_i hkey
    simp only [Bool.or_eq_true, Bool.not_eq_true', not_or, Bool.not_eq_false] at hkey
    exact hkey.1

theorem takesIn_watchEvent {revision : ℕ} {events : List (LogEvent Bytes Bytes)} {e : LogEvent Bytes Bytes}
    (he : e ∈ events) (hnames : c.serviceFromPolicyKey e.key = some service) :
    c.takesIn service (.response (c.watchEvent revision events)) = true := by
  have hkept : e ∈ events.filter fun e => c.servicesPrefix.isPrefixOf e.key :=
    List.mem_filter.mpr ⟨he, isPrefixOf_of_names hnames⟩
  unfold takesIn
  rw [Bool.or_eq_true]
  cases e with
  | put key value modRevision =>
    right
    exact List.any_eq_true.mpr ⟨⟨key, value, modRevision⟩, List.mem_filterMap.mpr ⟨_, hkept, rfl⟩, decide_eq_true hnames⟩
  | delete key modRevision =>
    left
    have hdelete : key ∈ (c.watchEvent revision events).deletes := List.mem_filterMap.mpr ⟨_, hkept, rfl⟩
    exact decide_eq_true (List.mem_filterMap.mpr ⟨key, hdelete, hnames⟩)

theorem lastIntake_cons (intake : Intake) (intakes : List Intake) : c.lastIntake service (intake :: intakes) =
    if c.takesIn service intake then some intake else c.lastIntake service intakes := by
  unfold lastIntake
  rw [List.find?_cons]
  split
  · rename_i h
    rw [if_pos h]
  · rename_i h
    rw [if_neg (by simp [h])]

theorem applied_lookup {s t : EtcdStore} {event : PolicyWatchEvent} (h : c.applyWatchEvent s event = .ok t)
    (hnew : s.revision ≤ event.revision) (service : Bytes) : t.policies.lookup service =
      if c.takesIn service (.response event) then (c.shown service (.response event)).bind c.read
      else s.policies.lookup service := by
  obtain ⟨hdecodes, -, hlookup⟩ := applyWatchEvent_spec h hnew
  rw [hlookup]
  by_cases hdeleted : service ∈ event.deletes.filterMap c.serviceFromPolicyKey
  · simp only [takesIn, shown, hdeleted, decide_true, Bool.true_or, if_true, Option.bind_none]
  · simp only [takesIn, shown, hdeleted, decide_false, Bool.false_or, if_false]
    cases hlast : c.lastNaming service event.puts with
    | none =>
      rw [if_neg]
      · simp
      · simpa using lastNaming_eq_none_iff.mp hlast
    | some kv =>
      obtain ⟨hmem, hnames⟩ := lastNaming_mem hlast
      obtain ⟨snapshot, hread, -⟩ := read_of_names (hdecodes kv hmem) hnames
      rw [if_pos (List.any_eq_true.mpr ⟨kv, hmem, by simpa using hnames⟩)]
      simp [hread]

theorem Logged.changed {etcd etcd' : LoggedStore Bytes Bytes} (h : Logged etcd kv)
    (hchanged : etcd.Changed etcd' event) : Logged etcd' kv := by
  unfold Logged
  rw [hchanged.log]
  exact List.mem_append_left _ h

theorem Sound.reload (h : Sound c w) {store : EtcdStore} (hreload : c.reloadFull w.etcd.now = .ok store) :
    Sound c { w with
      needResync := false
      store
      afterRevision := store.revision
      intakes := .reload (c.list w.etcd.now) :: w.intakes } := by
  obtain ⟨-, hdecodes, hlookup⟩ := reloadFull_spec hreload
  refine ⟨⟨_, List.mem_cons_self⟩, le_rfl, fun service => ?_, ?_⟩
  · rw [hlookup]
    simp [lastIntake_cons, takesIn, shown]
  · rintro intake hintake kv hkv
    rcases List.mem_cons.mp hintake with rfl | hold
    · exact ⟨hdecodes kv hkv, logged_of_mem_list hkv⟩
    · exact h.taken intake hold kv hkv

theorem Sound.deliver (h : Sound c w) (upto : ℕ) : Sound c (c.deliver w upto) := by
  unfold EtcdPolicies.deliver
  split
  · exact h
  · rename_i hguard
    have hle := h.revision_le
    dsimp only
    split
    · exact ⟨h.opened, by dsimp only; omega, h.cached, h.taken⟩
    · rename_i store happlied
      have hnew : w.store.revision ≤ upto := by omega
      obtain ⟨hdecodes, hrevision, -⟩ := applyWatchEvent_spec happlied hnew
      obtain ⟨kvs, hkvs⟩ := h.opened
      refine ⟨⟨kvs, List.mem_cons_of_mem _ hkvs⟩, hrevision.le, fun service => ?_, ?_⟩
      · rw [applied_lookup happlied hnew, lastIntake_cons]
        split
        · rfl
        · exact h.cached service
      · rintro intake hintake kv hkv
        rcases List.mem_cons.mp hintake with rfl | hold
        · have hlogged := mem_watchEvent_puts hkv
          exact ⟨hdecodes kv hkv, (LoggedStore.mem_between.mp hlogged).1⟩
        · exact h.taken intake hold kv hkv

theorem Sound.changed (h : Sound c w) (hchanged : w.etcd.Changed etcd event) : Sound c { w with etcd } :=
  ⟨h.opened, h.revision_le, h.cached, fun intake hi kv hkv =>
    ⟨(h.taken intake hi kv hkv).1, (h.taken intake hi kv hkv).2.changed hchanged⟩⟩

theorem Sound.step (w : Watcher) (e : WatchStep) (h : Sound c w) : Sound c (c.step w e) := by
  cases e with
  | put gap key value => exact h.changed (w.etcd.put_changed gap key value)
  | delete gap key =>
    rcases w.etcd.delete_changed gap key with hsame | hchanged
    · simpa only [EtcdPolicies.step, hsame] using h
    · exact h.changed hchanged
  | deliver upto => exact h.deliver upto
  | broken => exact ⟨h.opened, h.revision_le, h.cached, h.taken⟩
  | resync =>
    simp only [EtcdPolicies.step, resyncAfterBackoff]
    split
    · split
      · exact ⟨h.opened, h.revision_le, h.cached, h.taken⟩
      · rename_i store hreload
        exact h.reload hreload
    · exact h

theorem sound_new (h : c.newEtcdStore etcd = .ok w) : Sound c w := by
  unfold newEtcdStore at h
  split at h
  · cases h
  · rename_i store hreload
    cases h
    obtain ⟨-, hdecodes, hlookup⟩ := reloadFull_spec hreload
    refine ⟨⟨_, List.mem_singleton_self _⟩, le_rfl, fun service => ?_, ?_⟩
    · rw [hlookup]
      simp [lastIntake_cons, takesIn, shown]
    · intro intake hintake kv hkv
      rw [List.mem_singleton.mp hintake] at hkv
      exact ⟨hdecodes kv hkv, logged_of_mem_list hkv⟩

theorem Sound.lastIntake_some (h : Sound c w) (service : Bytes) :
    ∃ intake, c.lastIntake service w.intakes = some intake := by
  obtain ⟨kvs, hkvs⟩ := h.opened
  exact Option.isSome_iff_exists.mp (List.find?_isSome.mpr ⟨_, hkvs, rfl⟩)

theorem Sound.lookup_eq_iff (h : Sound c w) {t : EtcdStore} (hreload : c.reloadFull w.etcd.now = .ok t) (service : Bytes) :
    w.store.policies.lookup service = t.policies.lookup service ↔
      (c.lastIntake service w.intakes).bind (c.shown service) = c.lastNaming service (c.list w.etcd.now) := by
  obtain ⟨-, hdecodes, hlookup⟩ := reloadFull_spec hreload
  rw [h.cached, hlookup]
  constructor
  · intro heq
    cases hshown : (c.lastIntake service w.intakes).bind (c.shown service) with
    | none =>
      cases hlast : c.lastNaming service (c.list w.etcd.now) with
      | none => rfl
      | some kv =>
        obtain ⟨hmem, hnames⟩ := lastNaming_mem hlast
        obtain ⟨snapshot, hread, -⟩ := read_of_names (hdecodes kv hmem) hnames
        simp [hshown, hlast, hread] at heq
    | some kv =>
      obtain ⟨intake, hintake, hkv⟩ := Option.bind_eq_some_iff.mp hshown
      obtain ⟨hmem, hnames⟩ := shown_mem hkv
      obtain ⟨hdec, hlogged⟩ := h.taken intake (List.mem_of_find?_eq_some hintake) kv hmem
      cases hlast : c.lastNaming service (c.list w.etcd.now) with
      | none =>
        obtain ⟨snapshot, hread, -⟩ := read_of_names hdec hnames
        simp [hshown, hlast, hread] at heq
      | some kv' =>
        obtain ⟨hmem', hnames'⟩ := lastNaming_mem hlast
        rw [hshown, hlast, Option.bind_some, Option.bind_some] at heq
        rw [read_inj hlogged (logged_of_mem_list hmem') hdec (hdecodes kv' hmem') hnames hnames' heq]
  · intro heq
    rw [heq]

/-! ## Runs without a bad value -/

theorem list_strict (c : EtcdPolicies) (keys : RevStore Bytes Bytes) :
    (c.list keys).Pairwise fun a b => a.key.map UInt8.toNat < b.key.map UInt8.toNat := by
  refine sortBy_strict _ ?_
  have hkeys : (keys.entries.entries.map Sigma.fst).Nodup := keys.entries.nodupKeys
  have hinj : Function.Injective (List.map UInt8.toNat) := List.map_injective_iff.mpr fun _ _ => UInt8.toNat_inj.mp
  rw [List.map_map]
  have hfilter : ((keys.entries.entries.filter fun e => c.servicesPrefix.isPrefixOf e.1).map Sigma.fst).Nodup :=
    hkeys.sublist (List.filter_sublist.map _)
  have := hfilter.map hinj
  rwa [List.map_map] at this

theorem lastNaming_list_congr {keys keys' : RevStore Bytes Bytes}
    (h : ∀ key, c.serviceFromPolicyKey key = some service → keys.entries.lookup key = keys'.entries.lookup key) :
    c.lastNaming service (c.list keys) = c.lastNaming service (c.list keys') := by
  unfold lastNaming
  congr 1
  refine strict_ext (fun kv => kv.key.map UInt8.toNat) ((list_strict c keys).filter _) ((list_strict c keys').filter _)
    fun kv => ?_
  simp only [List.mem_filter, mem_list, decide_eq_true_eq]
  constructor
  · rintro ⟨⟨hunder, hlookup⟩, hnames⟩
    exact ⟨⟨hunder, h kv.key hnames ▸ hlookup⟩, hnames⟩
  · rintro ⟨⟨hunder, hlookup⟩, hnames⟩
    exact ⟨⟨hunder, (h kv.key hnames).symm ▸ hlookup⟩, hnames⟩

def Awaited (c : EtcdPolicies) (w : Watcher) (service : Bytes) : Prop :=
  ∃ e ∈ w.etcd.log, w.afterRevision < e.revision ∧ c.serviceFromPolicyKey e.key = some service

structure Clean (c : EtcdPolicies) (base : ℕ) (w : Watcher) : Prop where
  base_le : base ≤ w.afterRevision
  after_le : w.afterRevision ≤ w.etcd.now.revision
  listed : ∀ kv ∈ c.list w.etcd.now, c.Decodes kv
  logged : ∀ kv, Logged w.etcd kv → base < kv.modRevision → c.Decodes kv
  quiet : ∀ service kvs, c.lastIntake service w.intakes = some (.reload kvs) →
    c.Awaited w service ∨ c.lastNaming service (c.list w.etcd.now) = c.lastNaming service kvs

theorem decodes_of_unmarshal {message : PolicySnapshot} (h : c.unmarshal kv.value = .ok message) :
    c.Decodes kv := by
  unfold Decodes snapshotFromEtcdKV
  split
  · exact ⟨_, rfl⟩
  · rw [h]
    exact ⟨_, rfl⟩

variable {base : ℕ}

theorem Clean.changed (h : Clean c base w) (hchanged : w.etcd.Changed etcd event)
    (hevent : ∀ kv, event = .put kv.key kv.value kv.modRevision → c.Decodes kv) :
    Clean c base { w with etcd } := by
  have hafter := h.after_le
  have hnewer := hchanged.newer
  refine ⟨h.base_le, ?_, fun kv hkv => ?_, fun kv hlogged hbase => ?_, fun service kvs hlast => ?_⟩
  · dsimp only
    rw [hchanged.revision]
    omega
  · obtain ⟨hunder, hlookup⟩ := mem_list.mp hkv
    by_cases hkey : kv.key = event.key
    · exact hevent kv (hkey ▸ hchanged.own _ (hkey ▸ hlookup))
    · rw [hchanged.frame _ hkey] at hlookup
      exact h.listed kv (mem_list.mpr ⟨hunder, hlookup⟩)
  · unfold Logged at hlogged
    dsimp only at hlogged
    rw [hchanged.log] at hlogged
    rcases List.mem_append.mp hlogged with hold | hput
    · exact h.logged kv hold hbase
    · exact hevent kv (List.mem_singleton.mp hput).symm
  · have hlog : ∀ e ∈ w.etcd.log, e ∈ etcd.log := fun e he => hchanged.log ▸ List.mem_append_left _ he
    by_cases hnames : c.serviceFromPolicyKey event.key = some service
    · exact .inl ⟨event, by simp [hchanged.log], by dsimp only; omega, hnames⟩
    · have hsame : c.lastNaming service (c.list etcd.now) = c.lastNaming service (c.list w.etcd.now) := by
        refine lastNaming_list_congr fun key hkey => hchanged.frame key ?_
        rintro rfl
        exact hnames hkey
      rcases h.quiet service kvs hlast with ⟨e, he, hrest⟩ | hquiet
      · exact .inl ⟨e, hlog e he, hrest⟩
      · exact .inr (hsame.trans hquiet)

theorem Clean.deliver (h : Clean c base w) (upto : ℕ) : Clean c base (c.deliver w upto) := by
  unfold EtcdPolicies.deliver
  split
  · exact h
  · rename_i hguard
    have hbase := h.base_le
    have hdecodes : ∀ kv ∈ (c.watchEvent upto (w.etcd.between w.afterRevision upto)).puts, c.Decodes kv := by
      intro kv hkv
      obtain ⟨hlogged, hafter, -⟩ := LoggedStore.mem_between.mp (mem_watchEvent_puts hkv)
      exact h.logged kv hlogged (lt_of_le_of_lt hbase hafter)
    obtain ⟨store, hstore⟩ := applyWatchEvent_ok hdecodes w.store
    dsimp only
    rw [hstore]
    refine ⟨by dsimp only; omega, by dsimp only; omega, h.listed, h.logged, fun service kvs hlast => ?_⟩
    rw [lastIntake_cons] at hlast
    split at hlast
    · cases hlast
    · rename_i huntouched
      rcases h.quiet service kvs hlast with ⟨e, he, hafter, hnames⟩ | hquiet
      · by_cases hupto : e.revision ≤ upto
        · exact absurd (takesIn_watchEvent (LoggedStore.mem_between.mpr ⟨he, hafter, hupto⟩) hnames) huntouched
        · exact .inl ⟨e, he, Nat.lt_of_not_le hupto, hnames⟩
      · exact .inr hquiet

def Decodable (c : EtcdPolicies) : WatchStep → Prop
  | .put _ _ value => ∃ message, c.unmarshal value = .ok message
  | _ => True

theorem Clean.step (w : Watcher) (e : WatchStep) (h : Clean c base w) (hdecodable : Decodable c e) :
    Clean c base (c.step w e) := by
  cases e with
  | put gap key value =>
    obtain ⟨message, hmessage⟩ := hdecodable
    refine h.changed (w.etcd.put_changed gap key value) fun kv hkv => ?_
    cases kv
    cases hkv
    exact decodes_of_unmarshal hmessage
  | delete gap key =>
    rcases w.etcd.delete_changed gap key with hsame | hchanged
    · simpa only [EtcdPolicies.step, hsame] using h
    · exact h.changed hchanged fun kv hkv => by cases hkv
  | deliver upto => exact h.deliver upto
  | broken => exact ⟨h.base_le, h.after_le, h.listed, h.logged, h.quiet⟩
  | resync =>
    simp only [EtcdPolicies.step, resyncAfterBackoff]
    split
    · split
      · exact ⟨h.base_le, h.after_le, h.listed, h.logged, h.quiet⟩
      · rename_i store hreload
        obtain ⟨hrevision, -, -⟩ := reloadFull_spec hreload
        have hbase := h.base_le
        have hafter := h.after_le
        refine ⟨by dsimp only; omega, hrevision.le, h.listed, h.logged, fun service kvs hlast => .inr ?_⟩
        simp only [lastIntake_cons, takesIn, if_true, Option.some.injEq, Intake.reload.injEq] at hlast
        rw [hlast]
    · exact h

theorem clean_new (h : c.newEtcdStore etcd = .ok w) : Clean c etcd.now.revision w := by
  unfold newEtcdStore at h
  split at h
  · cases h
  · rename_i store hreload
    cases h
    obtain ⟨hrevision, hdecodes, -⟩ := reloadFull_spec hreload
    refine ⟨hrevision.ge, hrevision.le, hdecodes, fun kv hlogged hbase => ?_, fun service kvs hlast => .inr ?_⟩
    · have := etcd.bounded _ hlogged
      simp only [LogEvent.revision] at this
      omega
    · simp only [lastIntake_cons, takesIn, if_true, Option.some.injEq, Intake.reload.injEq] at hlast
      rw [hlast]

theorem Clean.reloadFull_ok (h : Clean c base w) : ∃ t, c.reloadFull w.etcd.now = .ok t := by
  obtain ⟨policies, hpolicies⟩ := collect_ok h.listed ∅
  unfold reloadFull snapshotsFromEtcdKVs
  rw [hpolicies]
  exact ⟨_, rfl⟩

/-! ## When the cache mirrors the store -/

/-- Without a bad value, once every event has been delivered: the cache has what a reload would give a service exactly
if the last response about it has no delete and ends with the put of its last key, or has one and no key of it is
left. -/
theorem mirror_iff (c : EtcdPolicies) (etcd : LoggedStore Bytes Bytes) (start : Watcher) (steps : List WatchStep)
    (hnew : c.newEtcdStore etcd = .ok start) (hsteps : ∀ e ∈ steps, Decodable c e)
    (hall : ∀ e ∈ (c.run start steps).etcd.log, e.revision ≤ (c.run start steps).afterRevision) :
    ∃ t, c.reloadFull (c.run start steps).etcd.now = .ok t ∧ ∀ service,
      ((c.run start steps).store.policies.lookup service = t.policies.lookup service ↔
        ∀ event, c.lastIntake service (c.run start steps).intakes = some (.response event) →
          c.lastNaming service (c.list (c.run start steps).etcd.now) =
            if service ∈ event.deletes.filterMap c.serviceFromPolicyKey then none
            else c.lastNaming service event.puts) := by
  have hsound : Sound c (c.run start steps) := run_invariant Sound.step (sound_new hnew) steps
  have hclean : Clean c etcd.now.revision (c.run start steps) := run_invariant_of Clean.step (clean_new hnew) hsteps
  obtain ⟨t, ht⟩ := hclean.reloadFull_ok
  refine ⟨t, ht, fun service => ?_⟩
  rw [hsound.lookup_eq_iff ht]
  obtain ⟨intake, hlast⟩ := hsound.lastIntake_some service
  cases intake with
  | response event => simp [hlast, shown, eq_comm]
  | reload kvs =>
    rw [hlast]
    refine iff_of_true ?_ fun event h => by cases h
    rcases hclean.quiet service kvs hlast with ⟨e, he, hafter, -⟩ | hquiet
    · exact absurd (hall e he) (by omega)
    · exact hquiet.symm

/-- Whatever values are put and whichever responses are dropped for them: for each service the cache has what a
reload would give it exactly if the last intake of the service shows what the store has. -/
theorem current_iff (c : EtcdPolicies) (etcd : LoggedStore Bytes Bytes) (start : Watcher) (steps : List WatchStep)
    (t : EtcdStore) (service : Bytes) (hnew : c.newEtcdStore etcd = .ok start)
    (hreload : c.reloadFull (c.run start steps).etcd.now = .ok t) :
    (c.run start steps).store.policies.lookup service = t.policies.lookup service ↔
      ∃ intake, c.lastIntake service (c.run start steps).intakes = some intake ∧
        c.lastNaming service (c.list (c.run start steps).etcd.now) = c.shown service intake := by
  have hsound : Sound c (c.run start steps) := run_invariant Sound.step (sound_new hnew) steps
  obtain ⟨intake, hlast⟩ := hsound.lastIntake_some service
  rw [hsound.lookup_eq_iff hreload, hlast, Option.bind_some, eq_comm]
  simp

end EtcdPolicies

/-! ## A delete before a put, and a bad value -/

def samplePolicies : EtcdPolicies where
  servicesPrefix := bytes "/p/services/"
  unmarshal value := if value = [] then .error "unexpected EOF" else .ok { routingPolicy := toString value }

def orderKey : Bytes := bytes "/p/services/order/snapshot"

def userKey : Bytes := bytes "/p/services/user/snapshot"

def afterOpening (etcd : LoggedStore Bytes Bytes) (steps : List WatchStep) : Option Watcher :=
  (samplePolicies.newEtcdStore etcd).toOption.map fun w => samplePolicies.run w steps

def revisions (service : String) (w : Watcher) : Option ℕ × Option ℕ :=
  ((w.store.policies.lookup (bytes service)).map (·.revision),
   (samplePolicies.reloadFull w.etcd.now).toOption.bind fun t => (t.policies.lookup (bytes service)).map (·.revision))

theorem exists_of_afterOpening {α : Type} {f : Watcher → α} {a : α} {etcd : LoggedStore Bytes Bytes}
    {steps : List WatchStep} (h : (afterOpening etcd steps).map f = some a) :
    ∃ start, samplePolicies.newEtcdStore etcd = .ok start ∧ f (samplePolicies.run start steps) = a := by
  unfold afterOpening at h
  cases hnew : samplePolicies.newEtcdStore etcd with
  | error err => simp [hnew, Except.toOption] at h
  | ok start => exact ⟨start, rfl, by simpa [hnew, Except.toOption] using h⟩

def mirrors (service : Bytes) (w : Watcher) : Bool :=
  w.etcd.log.all (·.revision ≤ w.afterRevision) &&
  match samplePolicies.lastIntake service w.intakes with
  | none => false
  | some intake => samplePolicies.lastNaming service (samplePolicies.list w.etcd.now) = samplePolicies.shown service intake

theorem rewritten_key_missing :
    (afterOpening ((LoggedStore.empty 0).put 0 orderKey [1]) [.delete 0 orderKey, .put 0 orderKey [2], .deliver 3]).map
      (fun w => (w.afterRevision, w.etcd.now.revision, revisions "order" w)) = some (3, 3, none, some 3) := by
  decide +kernel

def rewritten : List WatchStep := [.delete 0 orderKey, .deliver 2, .put 0 orderKey [2], .deliver 3]

theorem rewritten_key_mirrored : ∃ start t,
    samplePolicies.newEtcdStore ((LoggedStore.empty 0).put 0 orderKey [1]) = .ok start ∧
    samplePolicies.reloadFull (samplePolicies.run start rewritten).etcd.now = .ok t ∧
    (samplePolicies.run start rewritten).store.policies.lookup (bytes "order") = t.policies.lookup (bytes "order") := by
  have hrun : (afterOpening ((LoggedStore.empty 0).put 0 orderKey [1]) rewritten).map (mirrors (bytes "order")) =
      some true := by
    decide +kernel
  obtain ⟨start, hnew, hmirrors⟩ := exists_of_afterOpening hrun
  have hsteps : ∀ e ∈ rewritten, EtcdPolicies.Decodable samplePolicies e := by
    simp [rewritten, EtcdPolicies.Decodable, samplePolicies]
  simp only [mirrors, Bool.and_eq_true, List.all_eq_true, decide_eq_true_eq] at hmirrors
  obtain ⟨hall, hcondition⟩ := hmirrors
  obtain ⟨t, ht, hiff⟩ := EtcdPolicies.mirror_iff samplePolicies _ start rewritten hnew hsteps hall
  refine ⟨start, t, hnew, ht, (hiff (bytes "order")).mpr fun event hlast => ?_⟩
  rw [hlast] at hcondition
  exact of_decide_eq_true hcondition

theorem user_put_lost :
    let w := afterOpening ((LoggedStore.empty 0).put 0 userKey [1])
      [.put 0 orderKey [], .put 0 userKey [2], .deliver 3, .resync, .put 0 orderKey [3], .deliver 4]
    w.map (fun w => (w.afterRevision, w.etcd.now.revision, w.needResync)) = some (4, 4, false) ∧
    w.map (revisions "order") = some (some 4, some 4) ∧ w.map (revisions "user") = some (some 1, some 3) := by
  decide +kernel

def repaired : List WatchStep :=
  [.put 0 orderKey [], .put 0 userKey [2], .deliver 3, .put 0 orderKey [3], .resync]

theorem user_put_reloaded : ∃ start t,
    samplePolicies.newEtcdStore ((LoggedStore.empty 0).put 0 userKey [1]) = .ok start ∧
    samplePolicies.reloadFull (samplePolicies.run start repaired).etcd.now = .ok t ∧
    (samplePolicies.run start repaired).store.policies.lookup (bytes "user") = t.policies.lookup (bytes "user") := by
  have hrun : (afterOpening ((LoggedStore.empty 0).put 0 userKey [1]) repaired).map
      (fun w => (mirrors (bytes "user") w, (samplePolicies.reloadFull w.etcd.now).toOption.isSome)) =
      some (true, true) := by
    decide +kernel
  obtain ⟨start, hnew, hfacts⟩ := exists_of_afterOpening hrun
  simp only [Prod.mk.injEq, mirrors, Bool.and_eq_true] at hfacts
  obtain ⟨⟨-, hcondition⟩, hreload⟩ := hfacts
  cases ht : samplePolicies.reloadFull (samplePolicies.run start repaired).etcd.now with
  | error err => simp [ht, Except.toOption] at hreload
  | ok t =>
    refine ⟨start, t, hnew, ht, (EtcdPolicies.current_iff samplePolicies _ start repaired t _ hnew ht).mpr ?_⟩
    split at hcondition
    · cases hcondition
    · rename_i intake hlast
      exact ⟨intake, hlast, of_decide_eq_true hcondition⟩

end AegisMesh.Policy
