import AegisMesh.Lib.LazyTable
import AegisMesh.Sdk.Balancer

/-! # Permits across pickers -/

namespace AegisMesh.Sdk

open Lib CircuitBreaker

/-! ## What a step does -/

inductive RpcDid (s : Balancing) (picker : ℕ) : PickPlace → Balancing → PickPlace → Prop
  | chose {p} (hp : s.pickers[picker]? = some p) (c) : RpcDid s picker .entered s (Balancing.choose p c)
  | tried {item old limiters new} (hdid : s.limiters.Did item.limiter old limiters new) :
    RpcDid s picker (.acquiring item old) { s with limiters } (.acquiring item new)
  | granted {item} : RpcDid s picker (.acquiring item (.left true)) s (.getting item)
  | refused {item} : RpcDid s picker (.acquiring item (.left false)) s (.failed .resourceExhausted)
  | reused {item k} (hk : (picker, k) ∈ s.waiting) :
    RpcDid s picker (.getting item) { s with waiting := s.waiting.erase (picker, k) } (.filling item k)
  | made {item} :
    RpcDid s picker (.getting item) { s with madeCompletions := s.madeCompletions + 1 } (.filling item s.madeCompletions)
  | filled {item k} :
    RpcDid s picker (.filling item k) (s.storeCompletion k { picker := some picker, item := some item }) (.picked item k)
  | read {item k readPicker readItem} (hread : s.completion k = { picker := some readPicker, item := some readItem }) :
    RpcDid s picker (.picked item k) s (.clearing item k readPicker readItem)
  | nothing {item k} (hread : ∀ readPicker readItem, s.completion k ≠ { picker := some readPicker, item := some readItem }) :
    RpcDid s picker (.picked item k) s .finished
  | cleared {item k readPicker readItem} :
    RpcDid s picker (.clearing item k readPicker readItem) (s.storeCompletion k {})
      (.releasing item k readPicker readItem .releasing)
  | gave {item k readPicker readItem old limiters new} (hdid : s.limiters.Did readItem.limiter old limiters new) :
    RpcDid s picker (.releasing item k readPicker readItem old) { s with limiters }
      (.releasing item k readPicker readItem new)
  | released {item k readPicker readItem answer} :
    RpcDid s picker (.releasing item k readPicker readItem (.left answer)) s (.putting k readPicker)
  | put {k readPicker} :
    RpcDid s picker (.putting k readPicker) { s with waiting := (readPicker, k) :: s.waiting } .finished

variable {s s' : Balancing} {picker : ℕ} {place place' : PickPlace}

theorem did_rpc {c : PickChoice} (h : s.rpcStep picker place c = some (s', place')) :
    RpcDid s picker place s' place' := by
  unfold Balancing.rpcStep at h
  split at h
  · obtain ⟨p, hp, heq⟩ := Option.map_eq_some_iff.mp h
    cases heq
    exact .chose hp c
  · cases h
    exact .granted
  · cases h
    exact .refused
  · obtain ⟨⟨limiters, new⟩, hstep, heq⟩ := Option.map_eq_some_iff.mp h
    cases heq
    exact .tried (Limiters.did_step hstep)
  · unfold Balancing.getCompletion at h
    dsimp only at h
    split at h
    · split at h
      · cases h
        exact .reused ‹_›
      · cases h
        exact .made
    · cases h
      exact .made
  · cases h
    exact .filled
  · split at h
    · cases h
      exact .read ‹_›
    · rename_i hread
      cases h
      exact .nothing fun readPicker readItem => hread readPicker readItem
  · cases h
    exact .cleared
  · cases h
    exact .released
  · obtain ⟨⟨limiters, new⟩, hstep, heq⟩ := Option.map_eq_some_iff.mp h
    cases heq
    exact .gave (Limiters.did_step hstep)
  · cases h
    exact .put
  · cases h
  · cases h

theorem pickItem_mem {p : AdaptivePicker} {c : PickChoice} {item : PickerItem} (h : p.pickItem c = some item) :
    item ∈ p.items := by
  unfold AdaptivePicker.pickItem at h
  split at h
  · cases h
  · exact List.mem_of_getElem? h
  · dsimp only at h
    split at h <;> split at h <;> exact List.mem_of_getElem? h

theorem choose_cases (p : AdaptivePicker) (c : PickChoice) :
    (∃ err, Balancing.choose p c = .failed err) ∨
      ∃ item ∈ p.items, Balancing.choose p c = .acquiring item .loading := by
  unfold Balancing.choose
  split
  · exact .inl ⟨_, rfl⟩
  split
  · exact .inl ⟨_, rfl⟩
  split
  · exact .inl ⟨_, rfl⟩
  · exact .inr ⟨_, pickItem_mem ‹_›, rfl⟩

/-! ## Completions have one owner -/

def Balancing.waits (s : Balancing) (k : ℕ) : ℕ := (s.waiting.map (·.2)).count k

def owners (k : ℕ) (threads : Dict ℕ BalancerThread) : ℕ :=
  Threads.total (fun t => if t.owns = some k then 1 else 0) threads

structure Owned (s : Balancing) (threads : Dict ℕ BalancerThread) : Prop where
  one : ∀ k, s.waits k + owners k threads ≤ 1
  unmade : ∀ k, s.madeCompletions ≤ k → s.waits k + owners k threads = 0

variable {threads : Dict ℕ BalancerThread} {id : ℕ} {t t' : BalancerThread}

theorem owners_insert (k : ℕ) (ht : threads.lookup id = some t) (t' : BalancerThread) :
    owners k (threads.insert id t') + (if t.owns = some k then 1 else 0) =
      owners k threads + if t'.owns = some k then 1 else 0 :=
  Threads.total_insert _ ht t'

theorem waits_erase {entry : ℕ × ℕ} (h : entry ∈ s.waiting) (k : ℕ) :
    ({ s with waiting := s.waiting.erase entry } : Balancing).waits k + (if entry.2 = k then 1 else 0) = s.waits k := by
  have hperm := ((List.perm_cons_erase h).map (·.2)).count_eq k
  simp only [Balancing.waits, hperm, List.map_cons, List.count_cons, beq_iff_eq]

theorem Owned.called (h : Owned s threads) (hid : threads.lookup id = none) (ht : t.owns = none) :
    Owned s (threads.insert id t) := by
  have hsame : ∀ k, owners k (threads.insert id t) = owners k threads := by
    intro k
    rw [owners, Threads.total_insert_of_none _ hid, if_neg (by simp [ht]), Nat.zero_add, owners]
  exact ⟨fun k => hsame k ▸ h.one k, fun k hk => hsame k ▸ h.unmade k hk⟩

theorem Owned.next (h : Owned s threads) (ht : threads.lookup id = some t)
    (hmade : s.madeCompletions ≤ s'.madeCompletions)
    (hless : ∀ k, s'.waits k + (if t'.owns = some k then 1 else 0) ≤ s.waits k + if t.owns = some k then 1 else 0) :
    Owned s' (threads.insert id t') := by
  refine ⟨fun k => ?_, fun k hk => ?_⟩
  · have hmove := owners_insert k ht t'
    have hone := h.one k
    have hk := hless k
    omega
  · have hmove := owners_insert k ht t'
    have hzero := h.unmade k (le_trans hmade hk)
    have hk := hless k
    omega

theorem Owned.makes (h : Owned s threads) (ht : threads.lookup id = some t) (hold : t.owns = none)
    (hnew : t'.owns = some s.madeCompletions) :
    Owned { s with madeCompletions := s.madeCompletions + 1 } (threads.insert id t') := by
  have hmove : ∀ k, owners k (threads.insert id t') = owners k threads + if s.madeCompletions = k then 1 else 0 := by
    intro k
    simpa [hold, hnew] using owners_insert k ht t'
  refine ⟨fun k => ?_, fun k hk => ?_⟩
  · have hone := h.one k
    have hzero := h.unmade k
    rw [hmove k]
    simp only [Balancing.waits] at hone hzero ⊢
    split <;> omega
  · have hzero := h.unmade k (by dsimp only at hk; omega)
    rw [hmove k, if_neg (by dsimp only at hk; omega), Nat.add_zero]
    exact hzero

theorem Owned.apart (h : Owned s threads) (ht : threads.lookup id = some t) {k : ℕ} (hk : t.owns = some k) {other : ℕ}
    {u : BalancerThread} (hu : threads.lookup other = some u) (hne : other ≠ id) : u.owns ≠ some k := by
  intro howns
  -- Without the first call there would still be one owner.
  have hmove := owners_insert k ht (.build .built)
  have hother : (threads.insert id (.build .built)).lookup other = some u := by
    rw [Dict.lookup_insert', if_neg hne, hu]
  have hone := h.one k
  have hle : (if u.owns = some k then 1 else 0) ≤ owners k (threads.insert id (.build .built)) :=
    Threads.le_total (f := fun t => if BalancerThread.owns t = some k then 1 else 0) hother
  rw [if_pos hk] at hmove
  rw [if_pos howns] at hle
  simp only [BalancerThread.owns, reduceCtorEq, if_false] at hmove
  omega

/-! ## Limiters of addresses -/

def Balancing.Pooled (s : Balancing) (item : PickerItem) : Prop :=
  s.pool.lookup (normalizeAdaptiveLimiterEndpoint item.address) = some item.limiter

structure Sound (s : Balancing) : Prop where
  pickers : ∀ p ∈ s.pickers, ∀ item ∈ p.items, s.Pooled item
  below : ∀ endpoint l, s.pool.lookup endpoint = some l → l < s.madeLimiters
  apart : ∀ endpoint endpoint' l, s.pool.lookup endpoint = some l → s.pool.lookup endpoint' = some l → endpoint = endpoint'

def PoolGrows (s s' : Balancing) : Prop := ∀ endpoint l, s.pool.lookup endpoint = some l → s'.pool.lookup endpoint = some l

theorem loadOrStore_spec (h : Sound s) (endpoint : String) :
    Sound (s.loadOrStore endpoint).1 ∧ PoolGrows s (s.loadOrStore endpoint).1 ∧
    (s.loadOrStore endpoint).1.pool.lookup endpoint = some (s.loadOrStore endpoint).2 := by
  unfold Balancing.loadOrStore
  cases hpool : s.pool.lookup endpoint with
  | some l => exact ⟨h, fun _ _ h => h, hpool⟩
  | none =>
    let table : LazyTable String := ⟨s.pool, s.madeLimiters, h.below, h.apart⟩
    have hgrows : PoolGrows s
        { s with pool := s.pool.insert endpoint s.madeLimiters, madeLimiters := s.madeLimiters + 1 } :=
      fun _ _ hl => table.store_keeps hpool hl
    exact ⟨⟨fun p hp item hitem => hgrows _ _ (h.pickers p hp item hitem), (table.store endpoint).below,
      (table.store endpoint).apart⟩, hgrows, AList.lookup_insert _⟩

def Placed (s : Balancing) : BalancerThread → Prop
  | .build (.building _ items) => ∀ item ∈ items, s.Pooled item
  | .build (.storing _ _ items) => ∀ item ∈ items, s.Pooled item
  | .build .built => True
  | .rpc _ (.acquiring item _) => s.Pooled item
  | .rpc _ (.getting item) => s.Pooled item
  | .rpc _ (.filling item _) => s.Pooled item
  | .rpc picker (.picked item k) => s.Pooled item ∧ s.completion k = { picker := some picker, item := some item }
  | .rpc _ (.clearing item _ _ readItem) => s.Pooled item ∧ readItem = item
  | .rpc _ (.releasing item _ _ readItem place) => s.Pooled item ∧ readItem = item ∧ place.givesBack = true
  | .rpc _ _ => True

theorem Placed.mono (h : Placed s t) (hgrows : PoolGrows s s')
    (hcompletion : ∀ k, t.owns = some k → s'.completion k = s.completion k) : Placed s' t := by
  cases t with
  | build place =>
    cases place with
    | building rest items => exact fun item hitem => hgrows _ _ (h item hitem)
    | storing address rest items => exact fun item hitem => hgrows _ _ (h item hitem)
    | built => trivial
  | rpc picker place =>
    cases place with
    | acquiring item place => exact hgrows _ _ h
    | getting item => exact hgrows _ _ h
    | filling item k => exact hgrows _ _ h
    | picked item k => exact ⟨hgrows _ _ h.1, (hcompletion k rfl).trans h.2⟩
    | clearing item k readPicker readItem => exact ⟨hgrows _ _ h.1, h.2⟩
    | releasing item k readPicker readItem place => exact ⟨hgrows _ _ h.1, h.2⟩
    | entered => trivial
    | putting k readPicker => trivial
    | failed err => trivial
    | finished => trivial

/-! ## One step of a call -/

theorem RpcDid.frame (h : RpcDid s picker place s' place') :
    s'.pool = s.pool ∧ s'.pickers = s.pickers ∧ s'.madeLimiters = s.madeLimiters ∧
      ∀ k, place.owns ≠ some k → s'.completion k = s.completion k := by
  have hstore : ∀ j completion k, some j ≠ some k → (s.storeCompletion j completion).completion k = s.completion k := by
    intro j completion k hne
    exact Function.update_of_ne (fun heq => hne (by rw [heq])) _ _
  cases h with
  | filled => exact ⟨rfl, rfl, rfl, fun k hk => hstore _ _ k hk⟩
  | cleared => exact ⟨rfl, rfl, rfl, fun k hk => hstore _ _ k hk⟩
  | _ => exact ⟨rfl, rfl, rfl, fun _ _ => rfl⟩

theorem RpcDid.placed (h : RpcDid s picker place s' place') (hsound : Sound s) (hplaced : Placed s (.rpc picker place)) :
    Placed s' (.rpc picker place') := by
  cases h with
  | @chose p hp c =>
    rcases choose_cases p c with ⟨err, heq⟩ | ⟨item, hitem, heq⟩
    · rw [heq]
      trivial
    · rw [heq]
      exact hsound.pickers p (List.mem_of_getElem? hp) item hitem
  | tried hdid => exact hplaced
  | granted => exact hplaced
  | refused => trivial
  | reused hk => exact hplaced
  | made => exact hplaced
  | filled => exact ⟨hplaced, Function.update_self ..⟩
  | read hread =>
    rw [hplaced.2] at hread
    cases hread
    exact ⟨hplaced.1, rfl⟩
  | nothing hread => exact absurd hplaced.2 (hread _ _)
  | cleared => exact ⟨hplaced.1, hplaced.2, rfl⟩
  | gave hdid => exact ⟨hplaced.1, hplaced.2.1, hdid.givesBack hplaced.2.2⟩
  | released => trivial
  | put => trivial

theorem RpcDid.accounted (h : RpcDid s picker place s' place') (hplaced : Placed s (.rpc picker place))
    (haccounted : Accounted BalancerThread.permit s.limiters threads)
    (ht : threads.lookup id = some (.rpc picker place)) :
    Accounted BalancerThread.permit s'.limiters (threads.insert id (.rpc picker place')) := by
  cases h with
  | @chose p hp c =>
    refine haccounted.stays ht ?_
    rcases choose_cases p c with ⟨err, heq⟩ | ⟨item, hitem, heq⟩ <;> (rw [heq]; rfl)
  | tried hdid => exact haccounted.did ht rfl rfl hdid
  | granted => exact haccounted.stays ht rfl
  | refused => exact haccounted.stays ht rfl
  | reused hk => exact haccounted.stays ht rfl
  | made => exact haccounted.stays ht rfl
  | filled => exact haccounted.stays ht rfl
  | read hread => exact haccounted.stays ht rfl
  | nothing hread => exact absurd hplaced.2 (hread _ _)
  | cleared => exact haccounted.stays ht rfl
  | gave hdid =>
    obtain ⟨-, rfl, -⟩ := hplaced
    exact haccounted.did ht rfl rfl hdid
  | @released item k readPicker readItem answer =>
    -- A release ends without a permit.
    obtain ⟨-, -, hback⟩ := hplaced
    cases answer with
    | true => cases hback
    | false => exact haccounted.stays ht rfl
  | put => exact haccounted.stays ht rfl

theorem RpcDid.owned (h : RpcDid s picker place s' place') (hplaced : Placed s (.rpc picker place))
    (howned : Owned s threads) (ht : threads.lookup id = some (.rpc picker place)) :
    Owned s' (threads.insert id (.rpc picker place')) := by
  cases h with
  | @chose p hp c =>
    have hnone : (Balancing.choose p c).owns = none := by
      rcases choose_cases p c with ⟨err, heq⟩ | ⟨item, hitem, heq⟩ <;> (rw [heq]; rfl)
    refine howned.next ht le_rfl fun k => ?_
    simp only [BalancerThread.owns, hnone]
    exact le_rfl
  | tried hdid => exact howned.next ht le_rfl fun k => le_rfl
  | granted => exact howned.next ht le_rfl fun k => le_rfl
  | refused => exact howned.next ht le_rfl fun k => le_rfl
  | @reused item j hj =>
    refine howned.next ht le_rfl fun k => ?_
    have herase := waits_erase hj k
    simp only [BalancerThread.owns, PickPlace.owns, Option.some.injEq, reduceCtorEq, if_false, Nat.add_zero]
    exact le_of_eq herase
  | made => exact howned.makes ht rfl rfl
  | filled => exact howned.next ht le_rfl fun k => le_rfl
  | read hread => exact howned.next ht le_rfl fun k => le_rfl
  | nothing hread => exact absurd hplaced.2 (hread _ _)
  | cleared => exact howned.next ht le_rfl fun k => le_rfl
  | gave hdid => exact howned.next ht le_rfl fun k => le_rfl
  | released => exact howned.next ht le_rfl fun k => le_rfl
  | put =>
    refine howned.next ht le_rfl fun k => ?_
    simp only [BalancerThread.owns, PickPlace.owns, Option.some.injEq, reduceCtorEq, if_false, Nat.add_zero,
      Balancing.waits, List.map_cons, List.count_cons, beq_iff_eq]
    exact le_rfl

/-! ## Runs -/

structure Balanced (p : Threads Balancing BalancerThread) : Prop where
  accounted : Accounted BalancerThread.permit p.shared.limiters p.threads
  owned : Owned p.shared p.threads
  sound : Sound p.shared
  placed : ∀ id t, p.threads.lookup id = some t → Placed p.shared t

theorem items_pooled {items : List PickerItem} (h : ∀ item ∈ items, s.Pooled item) (hgrows : PoolGrows s s')
    {address : ReadyAddress} {l : ℕ} (hl : s'.pool.lookup (normalizeAdaptiveLimiterEndpoint address.addr) = some l) :
    ∀ item ∈ items ++ [Balancing.newItem address l], s'.Pooled item := by
  intro item hitem
  rcases List.mem_append.mp hitem with hold | hnew
  · exact hgrows _ _ (h item hold)
  · rw [List.mem_singleton.mp hnew]
    exact hl

theorem loadOrStore_frame (s : Balancing) (endpoint : String) :
    (s.loadOrStore endpoint).1.limiters = s.limiters ∧ (s.loadOrStore endpoint).1.completion = s.completion ∧
    (s.loadOrStore endpoint).1.madeCompletions = s.madeCompletions ∧ (s.loadOrStore endpoint).1.waiting = s.waiting := by
  unfold Balancing.loadOrStore
  split <;> exact ⟨rfl, rfl, rfl, rfl⟩

theorem build_frame {old new : BuildPlace} (h : s.buildStep old = some (s', new)) :
    s'.limiters = s.limiters ∧ s'.completion = s.completion ∧ s'.madeCompletions = s.madeCompletions ∧
      s'.waiting = s.waiting := by
  unfold Balancing.buildStep at h
  split at h
  · cases h
    exact ⟨rfl, rfl, rfl, rfl⟩
  · split at h
    · cases h
      exact ⟨rfl, rfl, rfl, rfl⟩
    · split at h <;> (cases h; exact ⟨rfl, rfl, rfl, rfl⟩)
  · simp only [Option.some.injEq, Prod.mk.injEq] at h
    rw [← h.1]
    exact loadOrStore_frame s _
  · cases h

theorem build_spec {old new : BuildPlace} (h : s.buildStep old = some (s', new)) (hsound : Sound s)
    (hplaced : Placed s (.build old)) : Sound s' ∧ PoolGrows s s' ∧ Placed s' (.build new) := by
  unfold Balancing.buildStep at h
  split at h
  · cases h
    refine ⟨⟨fun p hp => ?_, hsound.below, hsound.apart⟩, fun _ _ h => h, trivial⟩
    rcases List.mem_append.mp hp with hold | hnew
    · exact hsound.pickers p hold
    · rw [List.mem_singleton.mp hnew]
      exact hplaced
  · split at h
    · cases h
      exact ⟨hsound, fun _ _ h => h, hplaced⟩
    · split at h
      · cases h
        exact ⟨hsound, fun _ _ h => h, items_pooled hplaced (fun _ _ h => h) ‹_›⟩
      · cases h
        exact ⟨hsound, fun _ _ h => h, hplaced⟩
  · rename_i address rest items
    obtain ⟨hnext, hgrows, hl⟩ := loadOrStore_spec hsound (normalizeAdaptiveLimiterEndpoint address.addr)
    simp only [Option.some.injEq, Prod.mk.injEq] at h
    obtain ⟨rfl, rfl⟩ := h
    exact ⟨hnext, hgrows, items_pooled hplaced hgrows hl⟩
  · cases h

theorem Balanced.step {p : Threads Balancing BalancerThread} (h : Balanced p)
    (e : ThreadEvent BalancerCall PickChoice BalancerEvent) : Balanced (balancer.step p e) := by
  have hdid := balancer.did_step p e
  generalize balancer.step p e = p' at hdid
  cases hdid with
  | refused => exact h
  | absent => exact h
  | blocked => exact h
  | @called id k hfresh =>
    have hnone : (balancer.start k).permit = none ∧ (balancer.start k).owns = none := by cases k <;> exact ⟨rfl, rfl⟩
    refine ⟨h.accounted.called hfresh hnone.1, h.owned.called hfresh hnone.2, h.sound,
      Dict.forall_lookup_insert.mpr ⟨?_, fun other t _ ht => h.placed other t ht⟩⟩
    cases k with
    | build ready => exact fun item hitem => by cases hitem
    | pick picker => trivial
  | @moved id c t s' t' ht hmove =>
    have hplaced := h.placed id t ht
    cases t with
    | build old =>
      obtain ⟨⟨s₁, new⟩, hstep, heq⟩ := Option.map_eq_some_iff.mp hmove
      cases heq
      obtain ⟨hsound, hgrows, hnew⟩ := build_spec hstep h.sound hplaced
      obtain ⟨hlimiters, hcompletion, hmade, hwaiting⟩ := build_frame hstep
      refine ⟨?_, ?_, hsound, Dict.forall_lookup_insert.mpr ⟨hnew, fun other u _ hu => ?_⟩⟩
      · dsimp only
        rw [hlimiters]
        exact h.accounted.stays ht rfl
      · refine h.owned.next ht (le_of_eq hmade.symm) fun k => ?_
        simp only [Balancing.waits, hwaiting]
        exact le_rfl
      · exact (h.placed other u hu).mono hgrows fun k _ => by rw [hcompletion]
    | rpc picker old =>
      obtain ⟨⟨s₁, new⟩, hstep, heq⟩ := Option.map_eq_some_iff.mp hmove
      cases heq
      have hdid := did_rpc hstep
      obtain ⟨hpool, hpickers, hmade, hcompletion⟩ := hdid.frame
      have hgrows : PoolGrows p.shared s' := fun endpoint l hl => hpool ▸ hl
      refine ⟨hdid.accounted hplaced h.accounted ht, hdid.owned hplaced h.owned ht, ?_,
        Dict.forall_lookup_insert.mpr ⟨hdid.placed h.sound hplaced, fun other u hne hu => ?_⟩⟩
      · refine ⟨fun q hq item hitem => hgrows _ _ (h.sound.pickers q (hpickers ▸ hq) item hitem), ?_, ?_⟩
        · dsimp only
          rw [hpool, hmade]
          exact h.sound.below
        · dsimp only
          rw [hpool]
          exact h.sound.apart
      · refine (h.placed other u hu).mono hgrows fun k hk => hcompletion k fun hown => ?_
        exact h.owned.apart ht hown hu hne hk
  | changed e =>
    cases e with
    | setMaxInflightPerEndpoint max =>
      exact ⟨h.accounted, ⟨h.owned.one, h.owned.unmade⟩, ⟨h.sound.pickers, h.sound.below, h.sound.apart⟩,
        fun id t ht => (h.placed id t ht).mono (fun _ _ h => h) fun _ _ => rfl⟩
    | collect entry =>
      have hless : ∀ k, (balancer.outside p.shared (.collect entry)).waits k ≤ p.shared.waits k := by
        intro k
        exact List.Sublist.count_le _ (List.erase_sublist.map _)
      refine ⟨h.accounted, ⟨fun k => ?_, fun k hk => ?_⟩, ⟨h.sound.pickers, h.sound.below, h.sound.apart⟩,
        fun id t ht => (h.placed id t ht).mono (fun _ _ h => h) fun _ _ => rfl⟩
      · have hk := hless k
        have hone := h.owned.one k
        dsimp only
        omega
      · have hk' := hless k
        have hzero := h.owned.unmade k hk
        dsimp only
        omega

theorem balanced_run (max : ℤ) (events : List (ThreadEvent BalancerCall PickChoice BalancerEvent)) :
    Balanced (balancer.run (newAdaptiveLimiterPool max) events) := by
  refine run_invariant (I := Balanced) (fun p e h => h.step e) ?_ events
  refine ⟨fun l => rfl, ⟨fun k => Nat.zero_le _, fun k _ => rfl⟩, ⟨?_, ?_, ?_⟩, ?_⟩
  all_goals simp [newAdaptiveLimiterPool]

/-! ## A maximum that stays -/

def KeepsMax (e : ThreadEvent BalancerCall PickChoice BalancerEvent) : Prop :=
  ∀ max, e ≠ .outside (.setMaxInflightPerEndpoint max)

theorem RpcDid.below {max : ℤ} (h : RpcDid s picker place s' place')
    (hbelow : (∀ k, s.limiters.inflight k ≤ max) ∧ s.limiters.loadMax = max)
    (hplace : ∀ current, place.limiterPlace = .swapping current → current < max) :
    ((∀ k, s'.limiters.inflight k ≤ max) ∧ s'.limiters.loadMax = max) ∧
      ∀ current, place'.limiterPlace = .swapping current → current < max := by
  cases h with
  | @chose p hp c =>
    refine ⟨hbelow, fun current hc => ?_⟩
    rcases choose_cases p c with ⟨err, heq⟩ | ⟨item, hitem, heq⟩ <;> (rw [heq] at hc; cases hc)
  | tried hdid =>
    obtain ⟨hle, hmax, hnew⟩ := below_max hbelow.1 hbelow.2 hplace hdid
    exact ⟨⟨hle, hmax⟩, hnew⟩
  | gave hdid =>
    obtain ⟨hle, hmax, hnew⟩ := below_max hbelow.1 hbelow.2 hplace hdid
    exact ⟨⟨hle, hmax⟩, hnew⟩
  | _ => exact ⟨hbelow, fun current hc => by cases hc⟩

theorem kept_below (max : ℤ) : balancer.Kept (fun s => (∀ k, s.limiters.inflight k ≤ max) ∧ s.limiters.loadMax = max)
    (fun _ _ t => ∀ current, t.limiterPlace = .swapping current → current < max) KeepsMax where
  start s id k _ _ := by cases k <;> (intro current hc; cases hc)
  move s id t c s' t' _ hbelow hplace hmove := by
    cases t with
    | build old =>
      obtain ⟨⟨s₁, new⟩, hstep, heq⟩ := Option.map_eq_some_iff.mp hmove
      cases heq
      rw [(build_frame hstep).1]
      exact ⟨hbelow, (fun current hc => by cases hc), fun _ _ _ h => h⟩
    | rpc picker old =>
      obtain ⟨⟨s₁, new⟩, hstep, heq⟩ := Option.map_eq_some_iff.mp hmove
      cases heq
      obtain ⟨hnext, hnew⟩ := (did_rpc hstep).below hbelow hplace
      exact ⟨hnext, hnew, fun _ _ _ h => h⟩
  outside s e he hbelow := by
    cases e with
    | setMaxInflightPerEndpoint max => exact absurd rfl (he max)
    | collect entry => exact ⟨hbelow, fun _ _ h => h⟩

/-! ## What the counters show -/

def BalancerThread.idle : BalancerThread → Bool
  | .build _ | .rpc _ (.picked ..) | .rpc _ (.failed _) | .rpc _ .finished => true
  | _ => false

def outstanding (address : String) (threads : Dict ℕ BalancerThread) : ℕ :=
  Threads.total (fun
    | .rpc _ (.picked item _) =>
      if normalizeAdaptiveLimiterEndpoint item.address = normalizeAdaptiveLimiterEndpoint address then 1 else 0
    | _ => 0) threads

def Balancing.inflightOf (s : Balancing) (address : String) : ℤ :=
  match s.pool.lookup (normalizeAdaptiveLimiterEndpoint address) with
  | some l => s.limiters.inflight l
  | none => 0

theorem permit_of_idle (hidle : t.idle = true) {l : ℕ} (hpermit : t.permit = some l) :
    ∃ picker item k, t = .rpc picker (.picked item k) ∧ item.limiter = l := by
  cases t with
  | build place => cases hpermit
  | rpc picker place =>
    cases place with
    | picked item k => exact ⟨picker, item, k, rfl, Option.some.inj hpermit⟩
    | failed err => cases hpermit
    | finished => cases hpermit
    | _ => cases hidle

theorem Balanced.inflightOf_eq {p : Threads Balancing BalancerThread} (h : Balanced p)
    (hidle : ∀ t ∈ Dict.values p.threads, t.idle = true) (address : String) :
    p.shared.inflightOf address = outstanding address p.threads := by
  unfold Balancing.inflightOf outstanding
  cases hpool : p.shared.pool.lookup (normalizeAdaptiveLimiterEndpoint address) with
  | none =>
    dsimp only
    by_contra hne
    obtain ⟨id, t, ht, hcounted⟩ := Threads.exists_of_total_ne_zero (fun hzero => hne (by rw [hzero]; rfl))
    have hplaced := h.placed id t ht
    split at hcounted
    · have hitem := hplaced.1
      rw [Balancing.Pooled, (ite_ne_right_iff.mp hcounted).1, hpool] at hitem
      cases hitem
    · exact hcounted rfl
  | some l =>
    dsimp only
    rw [h.accounted l, permits]
    refine congrArg _ (Threads.total_congr fun t ht => ?_)
    obtain ⟨id, hid⟩ := Dict.mem_values.mp ht
    have hplaced := h.placed id t hid
    by_cases hpermit : t.permit = some l
    · obtain ⟨picker, item, k, rfl, rfl⟩ := permit_of_idle (hidle t ht) hpermit
      -- The pool has one limiter for each name.
      rw [if_pos hpermit]
      exact (if_pos (h.sound.apart _ _ _ hplaced.1 hpool)).symm
    · rw [if_neg hpermit]
      split
      · rw [if_neg]
        intro heq
        have hitem := hplaced.1
        rw [Balancing.Pooled, heq, hpool] at hitem
        exact hpermit hitem.symm
      · rfl

/-- However picks, their ends, new pickers and new maxima interleave: with no `Pick` or `Done` under way a limiter
counts the picks that are not done. No count is negative, and none is beyond a maximum that nobody sets. -/
theorem permits_are_accounted (max : ℤ) (events : List (ThreadEvent BalancerCall PickChoice BalancerEvent)) :
    ((∀ t ∈ Dict.values (balancer.run (newAdaptiveLimiterPool max) events).threads, t.idle = true) →
      ∀ address, (balancer.run (newAdaptiveLimiterPool max) events).shared.inflightOf address =
        outstanding address (balancer.run (newAdaptiveLimiterPool max) events).threads) ∧
    (∀ l, 0 ≤ (balancer.run (newAdaptiveLimiterPool max) events).shared.limiters.inflight l) ∧
    ((∀ e ∈ events, KeepsMax e) →
      ∀ l, (balancer.run (newAdaptiveLimiterPool max) events).shared.limiters.inflight l ≤ normalizeMaxInflight max) := by
  have h := balanced_run max events
  refine ⟨h.inflightOf_eq, fun l => ?_, fun hevents => ?_⟩
  · rw [h.accounted l]
    exact Int.natCast_nonneg _
  · have hpos : 0 < normalizeMaxInflight max := by
      unfold normalizeMaxInflight defaultMaxInflightPerEndpoint
      split <;> omega
    have hstart : (newAdaptiveLimiterPool max).limiters.loadMax = normalizeMaxInflight max := by
      show normalizeMaxInflight (normalizeMaxInflight max) = normalizeMaxInflight max
      rw [normalizeMaxInflight, if_neg (not_le.mpr hpos)]
    exact ((kept_below (normalizeMaxInflight max)).run (s := newAdaptiveLimiterPool max)
      ⟨fun k => le_of_lt hpos, hstart⟩ hevents).shared.1

def picksOf (address : String) (threads : Dict ℕ BalancerThread) : ℕ :=
  Threads.total (fun
    | .rpc _ (.picked item _) => if item.address = address then 1 else 0
    | _ => 0) threads

def pickBoth : List (ThreadEvent BalancerCall PickChoice BalancerEvent) :=
  .call 0 (.build [{ addr := "" }, { addr := "unknown" }]) :: List.replicate 4 (.move 0 {}) ++
    .call 1 (.pick 0) :: List.replicate 8 (.move 1 {}) ++
    .call 2 (.pick 0) :: List.replicate 8 (.move 2 { first := 1 })

theorem empty_address_counts_unknown :
    (∀ t ∈ Dict.values (balancer.run (newAdaptiveLimiterPool 5) pickBoth).threads, t.idle = true) ∧
    (balancer.run (newAdaptiveLimiterPool 5) pickBoth).shared.inflightOf "" = 2 ∧
    picksOf "" (balancer.run (newAdaptiveLimiterPool 5) pickBoth).threads = 1 := by
  decide +kernel

end AegisMesh.Sdk
