import AegisMesh.CircuitBreaker.Limiter
import AegisMesh.Lib.LazyTable

/-!
# The circuit breaker

Limiters are made when their endpoint is first asked for.
-/

namespace AegisMesh.CircuitBreaker

open Lib

def normalizeEndpoint (endpoint : String) : String := if endpoint = "" then "unknown" else endpoint

structure Callback where
  endpoint : String
  limiter : ℕ
  /-- `released`, with the thread that has set it. -/
  releasedBy : Option ℕ := none
  /-- How far the calls of this callback have lowered the counter. The code does not keep it. -/
  lowered : ℤ := 0

/-- The callbacks go by the calls of `Acquire` that have returned them. -/
structure Breaker where
  limiters : Limiters
  table : LazyTable String := .empty
  callbacks : Dict ℕ Callback := ∅

namespace Breaker

variable (b : Breaker)

def setMaxInflightPerEndpoint (max : ℤ) : Breaker := { b with limiters := b.limiters.setMax max }

def inflight (endpoint : String) : ℤ :=
  match b.table.entries.lookup (normalizeEndpoint endpoint) with
  | some l => b.limiters.inflight l
  | none => 0

end Breaker

/-! ## Steps -/

/-- Where `Acquire` is. `saw` is the count that the swap has stored, and the maximum that was loaded after it. -/
inductive AcquirePlace
  | entered
  | storing
  | acquiring (limiter : ℕ) (place : LimiterPlace) (saw : Option (ℤ × ℤ))
  | acquired (saw : Option (ℤ × ℤ))
  | failed

inductive ReleasePlace
  | called
  | lowering (limiter : ℕ) (place : LimiterPlace)
  | done

inductive BreakerThread
  | acquire (endpoint : String) (place : AcquirePlace)
  | release (acquisition : ℕ) (place : ReleasePlace)

namespace Breaker

variable (b : Breaker)

def sees (place : LimiterPlace) (saw : Option (ℤ × ℤ)) : Option (ℤ × ℤ) :=
  match place with
  | .rechecking count => some (count, b.limiters.loadMax)
  | _ => saw

def addCallback (id : ℕ) (endpoint : String) (limiter : ℕ) : Breaker :=
  { b with callbacks := b.callbacks.insert id { endpoint := normalizeEndpoint endpoint, limiter } }

def acquireStep (id : ℕ) (endpoint : String) : AcquirePlace → Option (Breaker × AcquirePlace)
  | .entered =>
    match b.table.entries.lookup (normalizeEndpoint endpoint) with
    | some l => some (b, .acquiring l .loading none)
    | none => some (b, .storing)
  | .storing =>
    let (table, l) := b.table.loadOrStore (normalizeEndpoint endpoint)
    some ({ b with table }, .acquiring l .loading none)
  | .acquiring l (.left true) saw => some (b.addCallback id endpoint l, .acquired saw)
  | .acquiring _ (.left false) _ => some (b, .failed)
  | .acquiring l place saw =>
    (b.limiters.step l place).map fun (limiters, new) => ({ b with limiters }, .acquiring l new (b.sees place saw))
  | .acquired _ | .failed => none

def setCallback (acquisition : ℕ) (callback : Callback) : Breaker :=
  { b with callbacks := b.callbacks.insert acquisition callback }

def lower (acquisition l : ℕ) (limiters : Limiters) : Breaker :=
  { b with
    limiters
    callbacks :=
      match b.callbacks.lookup acquisition with
      | none => b.callbacks
      | some cb =>
        b.callbacks.insert acquisition { cb with lowered := cb.lowered + (b.limiters.inflight l - limiters.inflight l) } }

def releaseStep (id acquisition : ℕ) : ReleasePlace → Option (Breaker × ReleasePlace)
  | .called =>
    match b.callbacks.lookup acquisition with
    | none => none
    | some cb =>
      if cb.releasedBy.isSome then some (b, .done)
      else some (b.setCallback acquisition { cb with releasedBy := some id }, .lowering cb.limiter .releasing)
  | .lowering _ (.left _) => some (b, .done)
  | .lowering l place =>
    (b.limiters.step l place).map fun (limiters, new) => (b.lower acquisition l limiters, .lowering l new)
  | .done => none

end Breaker

def BreakerThread.countsFor (endpoint : String) : BreakerThread → ℕ
  | .acquire own (.acquiring _ place _) => if place.holds ∧ normalizeEndpoint own = endpoint then 1 else 0
  | _ => 0

def Callback.countsFor (endpoint : String) (cb : Callback) : ℕ := if cb.lowered = 0 ∧ cb.endpoint = endpoint then 1 else 0

def outstanding (p : Threads Breaker BreakerThread) (endpoint : String) : ℕ :=
  Threads.total (BreakerThread.countsFor endpoint) p.threads + Threads.total (Callback.countsFor endpoint) p.shared.callbacks

def BreakerThread.permit : BreakerThread → Option ℕ
  | .acquire _ (.acquiring l place _) => if place.holds then some l else none
  | _ => none

def Callback.permit (cb : Callback) : Option ℕ := if cb.lowered = 0 then some cb.limiter else none

def SawEnough (saw : Option (ℤ × ℤ)) : Prop := ∃ count max, saw = some (count, max) ∧ count ≤ max

namespace Breaker

variable (b : Breaker)

structure Sound (cb : Callback) : Prop where
  table : b.table.entries.lookup cb.endpoint = some cb.limiter
  kept : cb.releasedBy = none → cb.lowered = 0
  once : 0 ≤ cb.lowered ∧ cb.lowered ≤ 1

def FitsAcquire (id : ℕ) (endpoint : String) : AcquirePlace → Prop
  | .entered | .storing => b.callbacks.lookup id = none
  | .acquiring l place saw => b.callbacks.lookup id = none ∧
    b.table.entries.lookup (normalizeEndpoint endpoint) = some l ∧ (place = .left true → SawEnough saw)
  | .acquired saw => SawEnough saw
  | .failed => True

structure Lowers (id acquisition l : ℕ) (place : LimiterPlace) (cb : Callback) : Prop where
  callback : b.callbacks.lookup acquisition = some cb
  limiter : cb.limiter = l
  flag : cb.releasedBy = some id
  gives : place.givesBack = true
  lowered : cb.lowered = if place.holds then 0 else 1

def Fits (id : ℕ) : BreakerThread → Prop
  | .acquire endpoint place => b.FitsAcquire id endpoint place
  | .release acquisition (.lowering l place) => ∃ cb, b.Lowers id acquisition l place cb
  | .release _ .called | .release _ .done => True

def Grows (b' : Breaker) : Prop :=
  ∀ endpoint l, b.table.entries.lookup endpoint = some l → b'.table.entries.lookup endpoint = some l

structure Leaves (id : ℕ) (b' : Breaker) : Prop where
  table : b.Grows b'
  absent : ∀ a, a ≠ id → b.callbacks.lookup a = none → b'.callbacks.lookup a = none
  flagged : ∀ a cb other, other ≠ id → b.callbacks.lookup a = some cb → cb.releasedBy = some other →
    b'.callbacks.lookup a = some cb

variable {b} {b' : Breaker} {id : ℕ}

theorem Sound.grows {cb : Callback} (h : b.Sound cb) (hgrows : b.Grows b') : b'.Sound cb :=
  ⟨hgrows _ _ h.table, h.kept, h.once⟩

theorem leaves_of_callbacks (id : ℕ) (hgrows : b.Grows b') (hcallbacks : b'.callbacks = b.callbacks) : b.Leaves id b' := by
  refine ⟨hgrows, ?_, ?_⟩ <;> rw [hcallbacks]
  · exact fun _ _ h => h
  · exact fun _ _ _ _ h _ => h

theorem Leaves.fits (h : b.Leaves id b') {other : ℕ} (hne : other ≠ id) {t : BreakerThread} (ht : b.Fits other t) :
    b'.Fits other t := by
  rcases t with ⟨endpoint, place⟩ | ⟨a, place⟩
  · rcases place with _ | _ | ⟨l, place, saw⟩ | saw | _
    · exact h.absent other hne ht
    · exact h.absent other hne ht
    · exact ⟨h.absent other hne ht.1, h.table _ _ ht.2.1, ht.2.2⟩
    · exact ht
    · trivial
  · rcases place with _ | ⟨l, place⟩ | _
    · trivial
    · obtain ⟨cb, hcb⟩ := ht
      exact ⟨cb, h.flagged a cb other hne hcb.callback hcb.flag, hcb.limiter, hcb.flag, hcb.gives, hcb.lowered⟩
    · trivial

end Breaker

structure Breaking (p : Threads Breaker BreakerThread) : Prop where
  fits : ∀ id t, p.threads.lookup id = some t → p.shared.Fits id t
  sound : ∀ a cb, p.shared.callbacks.lookup a = some cb → p.shared.Sound cb
  unknown : ∀ id, p.threads.lookup id = none → p.shared.callbacks.lookup id = none
  accounted : ∀ l, p.shared.limiters.inflight l =
    permits BreakerThread.permit l p.threads + permits Callback.permit l p.shared.callbacks

namespace Breaking

variable {p : Threads Breaker BreakerThread} {id : ℕ} {t t' : BreakerThread} {b' : Breaker} {endpoint : String}
  {limiters : Limiters}

theorem moved (h : Breaking p) (hleaves : p.shared.Leaves id b')
    (hfits : b'.Fits id t') (hsound : ∀ a cb, b'.callbacks.lookup a = some cb → b'.Sound cb)
    (haccounted : ∀ l, b'.limiters.inflight l =
      permits BreakerThread.permit l (p.threads.insert id t') + permits Callback.permit l b'.callbacks) :
    Breaking { shared := b', threads := p.threads.insert id t' } := by
  refine ⟨Dict.forall_lookup_insert.mpr ⟨hfits, fun other u hne hu => hleaves.fits hne (h.fits other u hu)⟩, hsound,
    fun other hother => ?_, haccounted⟩
  · rw [Dict.lookup_insert'] at hother
    split at hother
    · cases hother
    · rename_i hne
      exact hleaves.absent other hne (h.unknown other hother)

theorem stays (h : Breaking p) (ht : p.threads.lookup id = some t) {table : LazyTable String}
    (hgrows : p.shared.Grows { p.shared with table }) (hfits : Breaker.Fits { p.shared with table } id t')
    (hpermit : t'.permit = t.permit) :
    Breaking { shared := { p.shared with table }, threads := p.threads.insert id t' } := by
  refine h.moved (Breaker.leaves_of_callbacks id hgrows rfl) hfits (fun a cb hcb => (h.sound a cb hcb).grows hgrows)
    fun l => ?_
  have hmove := permits_insert BreakerThread.permit l ht t'
  rw [hpermit] at hmove
  rw [Nat.add_right_cancel hmove]
  exact h.accounted l

theorem counted (h : Breaking p) {l : ℕ} {old new : LimiterPlace} {saw : Option (ℤ × ℤ)}
    (ht : p.threads.lookup id = some (.acquire endpoint (.acquiring l old saw)))
    (hstep : p.shared.limiters.step l old = some (limiters, new)) :
    Breaking
      { shared := { p.shared with limiters }
        threads := p.threads.insert id (.acquire endpoint (.acquiring l new (p.shared.sees old saw))) } := by
  obtain ⟨hnone, htable, -⟩ := h.fits id _ ht
  have hgrows : p.shared.Grows { p.shared with limiters } := fun _ _ h => h
  refine h.moved (Breaker.leaves_of_callbacks id hgrows rfl) ⟨hnone, htable, ?_⟩
    (fun a cb hcb => (h.sound a cb hcb).grows hgrows) fun k => ?_
  · rintro rfl
    obtain ⟨count, rfl, hcount⟩ := Limiters.count_le_of_step hstep
    exact ⟨count, _, rfl, hcount⟩
  · have hcounted : old.holds = true → 0 < p.shared.limiters.inflight l := by
      intro hholds
      have hpermit : (BreakerThread.acquire endpoint (.acquiring l old saw)).permit = some l := if_pos hholds
      have hone := one_le_permits BreakerThread.permit ht hpermit
      rw [h.accounted l]
      omega
    have hinflight := (Limiters.did_step hstep).inflight hcounted k
    have hpermits :=
      permits_step BreakerThread.permit ht (.acquire endpoint (.acquiring l new (p.shared.sees old saw))) rfl rfl k
    have hk := h.accounted k
    dsimp only
    omega

theorem returned (h : Breaking p) {l : ℕ} {saw : Option (ℤ × ℤ)}
    (ht : p.threads.lookup id = some (.acquire endpoint (.acquiring l (.left true) saw))) :
    Breaking
      { shared := p.shared.addCallback id endpoint l
        threads := p.threads.insert id (.acquire endpoint (.acquired saw)) } := by
  obtain ⟨hnone, htable, hsaw⟩ := h.fits id _ ht
  refine h.moved ⟨fun _ _ h => h, fun a hne ha => ?_, fun a cb other _ ha _ => ?_⟩ (hsaw rfl)
    (Dict.forall_lookup_insert.mpr ⟨⟨htable, fun _ => rfl, le_rfl, zero_le_one⟩, fun a cb _ hcb => ?_⟩) fun k => ?_
  · simp only [Breaker.addCallback]
    rw [Dict.lookup_insert', if_neg hne]
    exact ha
  · have hne : a ≠ id := by
      rintro rfl
      rw [hnone] at ha
      cases ha
    simp only [Breaker.addCallback]
    rw [Dict.lookup_insert', if_neg hne]
    exact ha
  · exact (h.sound a cb hcb).grows fun _ _ h => h
  · have hmove := permits_insert BreakerThread.permit k ht (.acquire endpoint (.acquired saw))
    have hnew : permits Callback.permit k (p.shared.addCallback id endpoint l).callbacks =
        (if some l = some k then 1 else 0) + permits Callback.permit k p.shared.callbacks :=
      Threads.total_insert_of_none _ hnone _
    have hk := h.accounted k
    simp only [BreakerThread.permit, LimiterPlace.holds, if_true, reduceCtorEq, if_false] at hmove
    rw [hnew]
    simp only [Breaker.addCallback]
    omega

theorem updated (h : Breaking p) (ht : p.threads.lookup id = some t) (hpermit : t.permit = none)
    (hpermit' : t'.permit = none) {a : ℕ} {cb cb' : Callback} (hcb : p.shared.callbacks.lookup a = some cb)
    (hflag : ∀ other, other ≠ id → cb.releasedBy ≠ some other) (hsound : p.shared.Sound cb')
    (hfits : Breaker.Fits { p.shared with limiters, callbacks := p.shared.callbacks.insert a cb' } id t')
    (haccounted : ∀ l, limiters.inflight l + permits Callback.permit l p.shared.callbacks =
      p.shared.limiters.inflight l + permits Callback.permit l (p.shared.callbacks.insert a cb')) :
    Breaking
      { shared := { p.shared with limiters, callbacks := p.shared.callbacks.insert a cb' }
        threads := p.threads.insert id t' } := by
  refine h.moved ⟨fun _ _ h => h, fun a' _ ha' => ?_, fun a' cb'' other hne ha' hother => ?_⟩ hfits
    (Dict.forall_lookup_insert.mpr ⟨hsound.grows fun _ _ h => h, fun a' cb'' _ hcb'' => ?_⟩) fun l => ?_
  · have hne : a' ≠ a := by
      rintro rfl
      rw [hcb] at ha'
      cases ha'
    rw [Dict.lookup_insert', if_neg hne]
    exact ha'
  · -- The flag has one owner, so the callback of another owner is another callback.
    have hne' : a' ≠ a := by
      rintro rfl
      rw [hcb] at ha'
      cases ha'
      exact hflag other hne hother
    rw [Dict.lookup_insert', if_neg hne']
    exact ha'
  · exact (h.sound a' cb'' hcb'').grows fun _ _ h => h
  · have hmove := permits_insert BreakerThread.permit l ht t'
    rw [hpermit, hpermit'] at hmove
    rw [Nat.add_right_cancel hmove]
    have hl := h.accounted l
    have hl' := haccounted l
    dsimp only
    omega

theorem won (h : Breaking p) {a : ℕ} {cb : Callback} (ht : p.threads.lookup id = some (.release a .called))
    (hcb : p.shared.callbacks.lookup a = some cb) (hflag : cb.releasedBy = none) :
    Breaking
      { shared := p.shared.setCallback a { cb with releasedBy := some id }
        threads := p.threads.insert id (.release a (.lowering cb.limiter .releasing)) } := by
  obtain ⟨htable, hkept, honce⟩ := h.sound a cb hcb
  refine h.updated ht rfl rfl hcb (by simp [hflag]) ⟨htable, by simp, honce⟩ ?_ fun l => ?_
  · exact ⟨_, AList.lookup_insert _, rfl, rfl, rfl, hkept hflag⟩
  · have hmove := permits_insert Callback.permit l hcb { cb with releasedBy := some id }
    have hsame : ({ cb with releasedBy := some id } : Callback).permit = cb.permit := rfl
    rw [hsame] at hmove
    rw [Nat.add_right_cancel hmove]

theorem lowered (h : Breaking p) {a l : ℕ} {old new : LimiterPlace}
    (ht : p.threads.lookup id = some (.release a (.lowering l old))) (hold : old.holds = true)
    (hstep : p.shared.limiters.step l old = some (limiters, new)) :
    Breaking
      { shared := p.shared.lower a l limiters
        threads := p.threads.insert id (.release a (.lowering l new)) } := by
  obtain ⟨cb, hcb, hlimiter, hflag, hgives, hlowered⟩ := h.fits id _ ht
  obtain ⟨htable, hkept, honce⟩ := h.sound a cb hcb
  rw [hold, if_pos rfl] at hlowered
  have hpermit : cb.permit = some l := by
    rw [Callback.permit, if_pos hlowered, hlimiter]
  have hcounted : old.holds = true → 0 < p.shared.limiters.inflight l := by
    intro _
    have hone := one_le_permits Callback.permit hcb hpermit
    rw [h.accounted l]
    omega
  have hdid := Limiters.did_step hstep
  -- The counter has gone down by one exactly if the permit is given back.
  have hnow : cb.lowered + (p.shared.limiters.inflight l - limiters.inflight l) = if new.holds then 0 else 1 := by
    have hinflight := hdid.inflight hcounted l
    rw [if_pos rfl, if_pos rfl, hold] at hinflight
    cases hnew : new.holds <;> simp [hnew] at hinflight ⊢ <;> omega
  simp only [Breaker.lower, hcb]
  refine h.updated ht rfl rfl hcb ?_ ⟨htable, by simp [hflag], ?_⟩ ?_ fun k => ?_
  · rintro other hne hother
    rw [hflag] at hother
    exact hne (Option.some.inj hother).symm
  · dsimp only
    rw [hnow]
    split <;> omega
  · exact ⟨_, AList.lookup_insert _, hlimiter, hflag, hdid.givesBack hgives, hnow⟩
  · have hinflight := hdid.inflight hcounted k
    have hpermit' : Callback.permit
        { cb with lowered := cb.lowered + (p.shared.limiters.inflight l - limiters.inflight l) } =
          if new.holds then some l else none := by
      rw [Callback.permit, hnow, hlimiter]
      cases new.holds <;> rfl
    have hpermits := permits_step Callback.permit hcb _ (hpermit.trans (if_pos hold).symm) hpermit' k
    omega

theorem acquired (h : Breaking p) {old new : AcquirePlace} (ht : p.threads.lookup id = some (.acquire endpoint old))
    (hstep : p.shared.acquireStep id endpoint old = some (b', new)) :
    Breaking { shared := b', threads := p.threads.insert id (.acquire endpoint new) } := by
  have hfits := h.fits id _ ht
  unfold Breaker.acquireStep at hstep
  split at hstep
  · split at hstep
    · rename_i l hl
      cases hstep
      exact h.stays ht (fun _ _ h => h) ⟨hfits, hl, by simp⟩ rfl
    · cases hstep
      exact h.stays ht (fun _ _ h => h) hfits rfl
  · cases hstep
    exact h.stays ht (fun _ _ => p.shared.table.loadOrStore_keeps _)
      ⟨hfits, p.shared.table.lookup_loadOrStore _, by simp⟩ rfl
  · cases hstep
    exact h.returned ht
  · cases hstep
    exact h.stays ht (fun _ _ h => h) trivial rfl
  · obtain ⟨⟨limiters, place⟩, hlimiter, heq⟩ := Option.map_eq_some_iff.mp hstep
    cases heq
    exact h.counted ht hlimiter
  · cases hstep
  · cases hstep

theorem released (h : Breaking p) {a : ℕ} {old new : ReleasePlace} (ht : p.threads.lookup id = some (.release a old))
    (hstep : p.shared.releaseStep id a old = some (b', new)) :
    Breaking { shared := b', threads := p.threads.insert id (.release a new) } := by
  unfold Breaker.releaseStep at hstep
  split at hstep
  · split at hstep
    · cases hstep
    · rename_i cb hcb
      split at hstep
      · cases hstep
        exact h.stays ht (fun _ _ h => h) trivial rfl
      · rename_i hflag
        cases hstep
        exact h.won ht hcb (by simpa using hflag)
  · cases hstep
    exact h.stays ht (fun _ _ h => h) trivial rfl
  · rename_i l place hleft
    obtain ⟨⟨limiters, place'⟩, hlimiter, heq⟩ := Option.map_eq_some_iff.mp hstep
    cases heq
    obtain ⟨cb, hcb⟩ := h.fits id _ ht
    have hholds : place.holds = true := by
      have hgives := hcb.gives
      cases place <;> simp_all [LimiterPlace.givesBack, LimiterPlace.holds]
    exact h.lowered ht hholds hlimiter
  · cases hstep

end Breaking

variable {p : Threads Breaker BreakerThread}

end AegisMesh.CircuitBreaker
