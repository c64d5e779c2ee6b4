import AegisMesh.Sdk.Resolver

/-!
# The watch loop of the registry resolver (`sdk/go/aegisgrpc/resolver.go`)

`watch` opens one stream after the other. What a stream does is an input of a turn of the loop; what the
resolver does is a list of actions.
-/

namespace AegisMesh.Sdk

open Controller

def defaultRefreshInterval : ℤ := 3000000000

def maxWatchRetryBackoff : ℤ := 30000000000

def maxWatchFailuresBeforePoll : ℕ := 5

def pollTicksBeforeWatchRetry : ℕ := 5

inductive StreamError where
  | eof
  | status (code : ℕ)
deriving DecidableEq

/-- `status.Code`; an error without a status has code `Unknown`. -/
def StreamError.code : StreamError → ℕ
  | .eof => 2
  | .status code => code

def codeUnimplemented : ℕ := 12

inductive StreamRun where
  | refused (err : StreamError)
  | broken (responses : List ListInstancesResponse) (err : StreamError)

/-- What one turn of `watch` meets. `ticks` counts the timer ticks before the context is done,
`none` if it is not done in this turn. -/
structure WatchTurn where
  stream : StreamRun
  doneAfterStream : Bool := false
  ticks : Option ℕ := none

inductive WatchAction where
  | openStream
  | apply (resp : ListInstancesResponse)
  | reportError (err : StreamError)
  | resolve
  | wait (delay : ℤ)
  | pollLoop
  | tick (interval : ℤ)

inductive TurnEnd where
  | again
  | returned
  | pollsForever
deriving DecidableEq

structure WatchRetry where
  refreshInterval : ℤ
  watchFailures : ℕ
  watchBackoff : ℤ
deriving DecidableEq

namespace WatchRetry

def recordWatchFailure (r : WatchRetry) : WatchRetry := { r with watchFailures := r.watchFailures + 1 }

def resetWatchRetry (r : WatchRetry) : WatchRetry :=
  { r with watchFailures := 0, watchBackoff := r.refreshInterval }

def nextWatchRetryDelay (r : WatchRetry) : WatchRetry × ℤ :=
  let next := (r.watchBackoff * 2).bmod (2 ^ 64)
  ({ r with watchBackoff := if maxWatchRetryBackoff < next then maxWatchRetryBackoff else next }, r.watchBackoff)

/-- `watchStream`. An error on creation leaves the failures and the backoff as they are. -/
def watchStream (r : WatchRetry) : StreamRun → WatchRetry × List WatchAction × StreamError
  | .refused err => (r, [.openStream], err)
  | .broken responses err => (r.resetWatchRetry, .openStream :: responses.map .apply, err)

def pollTicks (r : WatchRetry) (n : ℕ) : List WatchAction :=
  .pollLoop :: .resolve :: (List.replicate n [.tick r.refreshInterval, .resolve]).flatten

def pollLoop (r : WatchRetry) (retryWatch : Bool) (ticks : Option ℕ) : List WatchAction × TurnEnd :=
  match ticks with
  | some n =>
    if retryWatch ∧ pollTicksBeforeWatchRetry ≤ n then (r.pollTicks pollTicksBeforeWatchRetry, .again)
    else (r.pollTicks n, .returned)
  | none => if retryWatch then (r.pollTicks pollTicksBeforeWatchRetry, .again) else (r.pollTicks 0, .pollsForever)

def waitWatchBackoff (r : WatchRetry) (ticks : Option ℕ) : WatchRetry × List WatchAction × TurnEnd :=
  let (r, delay) := r.nextWatchRetryDelay
  (r, [.wait delay], if ticks = some 0 then .returned else .again)

/-- One turn of the loop of `watch`. `watchStream` never returns without an error. -/
def turn (r : WatchRetry) (w : WatchTurn) : WatchRetry × List WatchAction × TurnEnd :=
  let (r, opened, err) := r.watchStream w.stream
  if w.doneAfterStream then (r, opened, .returned)
  else if err.code = codeUnimplemented then
    let (polled, ends) := r.pollLoop false w.ticks
    (r, opened ++ polled, match ends with | .again => .returned | ends => ends)
  else
    let r := r.recordWatchFailure
    let failed := opened ++ (if err = .eof then [] else [.reportError err]) ++ [.resolve]
    if maxWatchFailuresBeforePoll ≤ r.watchFailures then
      match r.pollLoop true w.ticks with
      | (polled, .again) => (r.resetWatchRetry, failed ++ polled, .again)
      | (polled, ends) => (r, failed ++ polled, ends)
    else
      let (r, waited, ends) := r.waitWatchBackoff w.ticks
      (r, failed ++ waited, ends)

def watch (r : WatchRetry) : List WatchTurn → WatchRetry × List WatchAction × TurnEnd
  | [] => (r, [], .again)
  | w :: rest =>
    match r.turn w with
    | (r, actions, .again) =>
      let (r, more, ends) := r.watch rest
      (r, actions ++ more, ends)
    | (r, actions, ends) => (r, actions, ends)

end WatchRetry

def newWatchRetry (interval : ℤ) : WatchRetry where
  refreshInterval := interval
  watchFailures := 0
  watchBackoff := interval

/-! ## What paces the streams -/

inductive Pace where
  | stream
  | wait (delay : ℤ)
  | poll
deriving DecidableEq

def WatchAction.pace : WatchAction → Option Pace
  | .openStream => some .stream
  | .wait delay => some (.wait delay)
  | .pollLoop => some .poll
  | .apply _ | .reportError _ | .resolve | .tick _ => none

def paces (interval : ℤ) (turns : List WatchTurn) : List Pace :=
  ((newWatchRetry interval).watch turns).2.1.filterMap WatchAction.pace

def retryDelay (interval : ℤ) : ℕ → ℤ
  | 0 => interval
  | k + 1 => min (retryDelay interval k * 2) maxWatchRetryBackoff

def afterFailure (interval : ℤ) (k : ℕ) : Pace :=
  if k + 1 = maxWatchFailuresBeforePoll then .poll else .wait (retryDelay interval k)

def FallsBackToPolling (interval : ℤ) (turns : List WatchTurn) : Prop :=
  paces interval turns =
    (List.range turns.length).flatMap
      fun i => [.stream, afterFailure interval (i % maxWatchFailuresBeforePoll)]

instance (interval : ℤ) (turns : List WatchTurn) : Decidable (FallsBackToPolling interval turns) :=
  inferInstanceAs (Decidable (_ = _))

def StreamRun.refusedOnCreation : StreamRun → Bool
  | .refused _ => true
  | .broken _ _ => false

def StreamRun.silent : StreamRun → Bool
  | .refused err => err.code ≠ codeUnimplemented
  | .broken responses err => responses.isEmpty ∧ err.code ≠ codeUnimplemented

def WatchTurn.Silent (w : WatchTurn) : Prop :=
  w.stream.silent ∧ w.doneAfterStream = false ∧ w.ticks = none

instance (w : WatchTurn) : Decidable w.Silent := inferInstanceAs (Decidable (_ ∧ _ ∧ _))

/-! ## One failed stream -/

theorem pace_pollTicks (r : WatchRetry) (n : ℕ) : (r.pollTicks n).filterMap WatchAction.pace = [.poll] := by
  unfold WatchRetry.pollTicks
  induction n with
  | zero => rfl
  | succ n ih =>
    rw [List.replicate_succ, List.flatten_cons]
    simpa [WatchAction.pace] using ih

theorem pace_report (err : StreamError) :
    (if err = .eof then [] else [WatchAction.reportError err]).filterMap WatchAction.pace = [] := by
  split <;> rfl

section Turn

variable {r after : WatchRetry} {w : WatchTurn} {err : StreamError} (hdone : w.doneAfterStream = false)
  (hticks : w.ticks = none) (hcode : err.code ≠ codeUnimplemented)
  (hopened : r.watchStream w.stream = (after, [.openStream], err))

include hdone hticks hcode hopened

theorem turn_polls (hlast : maxWatchFailuresBeforePoll ≤ after.watchFailures + 1) :
    ∃ actions, r.turn w = (after.recordWatchFailure.resetWatchRetry, actions, .again) ∧
      actions.filterMap WatchAction.pace = [.stream, .poll] := by
  have hlast' : maxWatchFailuresBeforePoll ≤ after.recordWatchFailure.watchFailures := hlast
  simp only [WatchRetry.turn, hopened, hdone, hticks, hcode, hlast', if_false, Bool.false_eq_true,
    WatchRetry.pollLoop, if_true]
  refine ⟨_, rfl, ?_⟩
  simp only [List.filterMap_append, pace_report, pace_pollTicks]
  rfl

theorem turn_waits (hlast : ¬ maxWatchFailuresBeforePoll ≤ after.watchFailures + 1) :
    ∃ actions, r.turn w = (after.recordWatchFailure.nextWatchRetryDelay.1, actions, .again) ∧
      actions.filterMap WatchAction.pace = [.stream, .wait after.watchBackoff] := by
  have hlast' : ¬ maxWatchFailuresBeforePoll ≤ after.recordWatchFailure.watchFailures := hlast
  simp only [WatchRetry.turn, hopened, hdone, hticks, hcode, hlast', if_false, Bool.false_eq_true,
    WatchRetry.waitWatchBackoff, reduceCtorEq]
  refine ⟨_, rfl, ?_⟩
  simp only [List.filterMap_append, pace_report]
  rfl

end Turn

theorem paces_cons {r after : WatchRetry} {w : WatchTurn} {actions : List WatchAction} (rest : List WatchTurn)
    (hturn : r.turn w = (after, actions, .again)) :
    (r.watch (w :: rest)).2.1.filterMap WatchAction.pace =
      actions.filterMap WatchAction.pace ++ (after.watch rest).2.1.filterMap WatchAction.pace := by
  simp only [WatchRetry.watch, hturn, List.filterMap_append]

/-! ## Rows of failed streams -/

def failedTimes (interval : ℤ) (k : ℕ) : WatchRetry where
  refreshInterval := interval
  watchFailures := k
  watchBackoff := retryDelay interval k

theorem watchStream_silent {r : WatchRetry} {s : StreamRun} (hsilent : s.silent) :
    ∃ err : StreamError, err.code ≠ codeUnimplemented ∧
      r.watchStream s = (if s.refusedOnCreation then r else r.resetWatchRetry, [.openStream], err) := by
  rcases s with err | ⟨responses, err⟩
  · refine ⟨err, ?_, rfl⟩
    simpa [StreamRun.silent] using hsilent
  · simp only [StreamRun.silent, decide_eq_true_eq, List.isEmpty_iff] at hsilent
    obtain ⟨rfl, hcode⟩ := hsilent
    exact ⟨err, hcode, rfl⟩

section Row

variable {interval : ℤ} (hpos : 0 < interval) (hfits : interval < 2 ^ 62)

include hpos hfits

theorem retryDelay_bounds (k : ℕ) : 0 < retryDelay interval k ∧ retryDelay interval k < 2 ^ 62 := by
  induction k with
  | zero => exact ⟨hpos, hfits⟩
  | succ k ih =>
    unfold retryDelay maxWatchRetryBackoff
    omega

theorem nextWatchRetryDelay_failedTimes (k : ℕ) :
    (failedTimes interval k).recordWatchFailure.nextWatchRetryDelay.1 = failedTimes interval (k + 1) := by
  have hbounds := retryDelay_bounds hpos hfits k
  have hproduct : (retryDelay interval k * 2).bmod (2 ^ 64) = retryDelay interval k * 2 := by
    apply Int.bmod_eq_of_le <;> omega
  have hcap : (if maxWatchRetryBackoff < retryDelay interval k * 2 then maxWatchRetryBackoff
      else retryDelay interval k * 2) = retryDelay interval (k + 1) := by
    rw [retryDelay]
    split <;> omega
  simp only [WatchRetry.nextWatchRetryDelay, WatchRetry.recordWatchFailure, failedTimes, hproduct, hcap]

theorem turn_failedTimes {k : ℕ} (hk : k < maxWatchFailuresBeforePoll) {w : WatchTurn} (hsilent : w.Silent)
    (hrefused : k ≠ 0 → w.stream.refusedOnCreation) :
    ∃ actions, (failedTimes interval k).turn w =
        (failedTimes interval ((k + 1) % maxWatchFailuresBeforePoll), actions, .again) ∧
      actions.filterMap WatchAction.pace = [.stream, afterFailure interval k] := by
  obtain ⟨hstream, hdone, hticks⟩ := hsilent
  obtain ⟨err, hcode, hopened⟩ := watchStream_silent (r := failedTimes interval k) hstream
  have hkept : (if w.stream.refusedOnCreation then failedTimes interval k
      else (failedTimes interval k).resetWatchRetry) = failedTimes interval k := by
    by_cases hzero : k = 0
    · subst hzero
      exact ite_self _
    · rw [if_pos (hrefused hzero)]
  rw [hkept] at hopened
  unfold afterFailure
  by_cases hlast : maxWatchFailuresBeforePoll ≤ k + 1
  · have hfull : k + 1 = maxWatchFailuresBeforePoll := by omega
    rw [if_pos hfull, hfull, Nat.mod_self]
    exact turn_polls hdone hticks hcode hopened hlast
  · rw [if_neg (by omega), Nat.mod_eq_of_lt (by omega), ← nextWatchRetryDelay_failedTimes hpos hfits]
    exact turn_waits hdone hticks hcode hopened hlast

theorem watch_failedTimes (turns : List WatchTurn) (k : ℕ)
    (hturns : ∀ p ∈ turns.zipIdx k,
      p.1.Silent ∧ (p.2 % maxWatchFailuresBeforePoll ≠ 0 → p.1.stream.refusedOnCreation)) :
    ((failedTimes interval (k % maxWatchFailuresBeforePoll)).watch turns).2.1.filterMap WatchAction.pace =
      (List.range' k turns.length).flatMap
        fun i => [.stream, afterFailure interval (i % maxWatchFailuresBeforePoll)] := by
  -- `k` streams are behind the run, so the count of failures is their number since the last poll.
  induction turns generalizing k with
  | nil => rfl
  | cons w rest ih =>
    rw [List.zipIdx_cons, List.forall_mem_cons] at hturns
    obtain ⟨⟨hsilent, hrefused⟩, hrest⟩ := hturns
    obtain ⟨actions, hturn, hpaced⟩ :=
      turn_failedTimes hpos hfits (Nat.mod_lt k (by decide)) hsilent hrefused
    rw [paces_cons rest hturn, hpaced, Nat.mod_add_mod, ih (k + 1) hrest]
    rfl

end Row

/-- The resolver polls after every fifth stream, with doubling delays before, if a stream opens
only where the count of failures is at zero anyway. -/
theorem refused_streams_end_in_polling (interval : ℤ) (hpos : 0 < interval) (hfits : interval < 2 ^ 62)
    (turns : List WatchTurn)
    (hturns : ∀ p ∈ turns.zipIdx,
      p.1.Silent ∧ (p.2 % maxWatchFailuresBeforePoll ≠ 0 → p.1.stream.refusedOnCreation)) :
    FallsBackToPolling interval turns := by
  unfold FallsBackToPolling paces
  rw [List.range_eq_range']
  exact watch_failedTimes hpos hfits turns 0 hturns

theorem watch_dropped (r : WatchRetry) {turns : List WatchTurn}
    (hturns : ∀ w ∈ turns, w.Silent ∧ w.stream.refusedOnCreation = false) :
    (r.watch turns).2.1.filterMap WatchAction.pace =
      (List.replicate turns.length [.stream, .wait r.refreshInterval]).flatten := by
  induction turns generalizing r with
  | nil => rfl
  | cons w rest ih =>
    obtain ⟨⟨⟨hstream, hdone, hticks⟩, hopens⟩, hrest⟩ := List.forall_mem_cons.mp hturns
    obtain ⟨err, hcode, hopened⟩ := watchStream_silent (r := r) hstream
    rw [hopens, if_neg (by simp)] at hopened
    have hfirst : ¬maxWatchFailuresBeforePoll ≤ r.resetWatchRetry.watchFailures + 1 := by
      simp [WatchRetry.resetWatchRetry, maxWatchFailuresBeforePoll]
    obtain ⟨actions, hturn, hpaced⟩ := turn_waits hdone hticks hcode hopened hfirst
    rw [paces_cons rest hturn, hpaced, ih _ hrest, List.length_cons, List.replicate_succ, List.flatten_cons]
    rfl

def unavailable : StreamError := .status 14

def droppedTurn : WatchTurn where
  stream := .broken [] unavailable

def refusedTurn : WatchTurn where
  stream := .refused unavailable

theorem outage_ends_in_polling :
    FallsBackToPolling defaultRefreshInterval (droppedTurn :: List.replicate 6 refusedTurn) :=
  refused_streams_end_in_polling _ (by decide) (by decide) _ (by decide)

theorem dropped_streams_never_poll :
    (∀ w ∈ List.replicate 5 droppedTurn, w.Silent) ∧
    ¬FallsBackToPolling defaultRefreshInterval (List.replicate 5 droppedTurn) ∧
    ∀ n, paces defaultRefreshInterval (List.replicate n droppedTurn) =
      (List.replicate n [.stream, .wait defaultRefreshInterval]).flatten := by
  refine ⟨by decide, by decide, fun n => ?_⟩
  have hdropped : ∀ w ∈ List.replicate n droppedTurn, w.Silent ∧ w.stream.refusedOnCreation = false := by
    intro w hw
    rw [List.eq_of_mem_replicate hw]
    decide
  have hpaces := watch_dropped (newWatchRetry defaultRefreshInterval) hdropped
  rwa [List.length_replicate] at hpaces

end AegisMesh.Sdk
