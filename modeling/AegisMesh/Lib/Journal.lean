import Mathlib.Data.Option.Basic
import Mathlib.Data.List.Induction
import Mathlib.Logic.Relation

/-!
# A journal over one cell

A cell holds a value or nothing, and a journal lists the operations made on it.
-/

namespace Lib

inductive CellOp (ν ρ : Type)
  | set (v : ν)
  | touch (p : ρ)
  | clear

structure Touch (ν ρ : Type) where
  touch : ρ → ν → ν
  touch_touch : ∀ p q v, touch p (touch q v) = touch p v

namespace Journal

variable {ν ρ : Type} (T : Touch ν ρ) {ops : List (CellOp ν ρ)}

def step (x : Option ν) : CellOp ν ρ → Option ν
  | .set v => some v
  | .touch p => x.map (T.touch p)
  | .clear => none

def replay (ops : List (CellOp ν ρ)) (x : Option ν) : Option ν := ops.foldl (step T) x

def HasSet (ops : List (CellOp ν ρ)) : Prop := ∃ v, CellOp.set v ∈ ops

@[simp] theorem replay_nil (x : Option ν) : replay T [] x = x := rfl

theorem replay_snoc (ops : List (CellOp ν ρ)) (op : CellOp ν ρ) (x : Option ν) :
    replay T (ops ++ [op]) x = step T (replay T ops x) op := by
  simp [replay]

theorem hasSet_snoc (ops : List (CellOp ν ρ)) (op : CellOp ν ρ) :
    HasSet (ops ++ [op]) ↔ HasSet ops ∨ ∃ v, op = .set v := by
  simp [HasSet, exists_or, eq_comm]

theorem replay_of_hasSet (h : HasSet ops) (x y : Option ν) :
    replay T ops x = replay T ops y := by
  induction ops using List.reverseRecOn with
  | nil => simp [HasSet] at h
  | append_singleton ops op ih =>
    rw [replay_snoc, replay_snoc]
    cases op with
    | set v => rfl
    | touch p =>
      have hops : HasSet ops := by simpa [hasSet_snoc] using h
      rw [ih hops]
    | clear => rfl

theorem replay_none (h : ¬ HasSet ops) : replay T ops none = none := by
  induction ops using List.reverseRecOn with
  | nil => rfl
  | append_singleton ops op ih =>
    rw [hasSet_snoc, not_or] at h
    rw [replay_snoc, ih h.1]
    cases op with
    | set v => exact absurd ⟨v, rfl⟩ h.2
    | touch p => rfl
    | clear => rfl

theorem replay_touch (ops : List (CellOp ν ρ)) (p : ρ) (x : Option ν) :
    (replay T ops (x.map (T.touch p))).map (T.touch p) = (replay T ops x).map (T.touch p) := by
  have hmap : ∀ (q : ρ) (y : Option ν), (y.map (T.touch q)).map (T.touch p) = y.map (T.touch p) := by
    intro q y
    cases y <;> simp [T.touch_touch]
  induction ops using List.reverseRecOn with
  | nil => exact hmap p x
  | append_singleton ops op ih =>
    rw [replay_snoc, replay_snoc]
    cases op with
    | set v => rfl
    | touch q => rw [step, step, hmap, hmap, ih]
    | clear => rfl

theorem replay_replay (ops : List (CellOp ν ρ)) (x : Option ν) :
    replay T ops (replay T ops x) = replay T ops x := by
  induction ops using List.reverseRecOn with
  | nil => rfl
  | append_singleton ops op ih =>
    rw [replay_snoc, replay_snoc]
    cases op with
    | set v => rfl
    | touch p => rw [step, step, replay_touch, ih]
    | clear => rfl

theorem replay_of_not_hasSet {P : ν → Prop} (htouch : ∀ p v, P v → P (T.touch p v)) (h : ¬ HasSet ops) {x : Option ν}
    (hx : ∀ v, x = some v → P v) : ∀ v, replay T ops x = some v → P v := by
  induction ops using List.reverseRecOn with
  | nil => exact hx
  | append_singleton ops op ih =>
    rw [hasSet_snoc, not_or] at h
    intro v hv
    rw [replay_snoc] at hv
    cases op with
    | set w => exact absurd ⟨w, rfl⟩ h.2
    | touch p =>
      obtain ⟨w, hw, rfl⟩ := Option.map_eq_some_iff.mp hv
      exact htouch p w (ih h.1 w hw)
    | clear => cases hv

/-! ## A store that keeps a checkpoint and a journal -/

def Recorded (x : Option ν) (ops : List (CellOp ν ρ)) : Prop := x.isSome ∨ HasSet ops

theorem replay_of_not_recorded {x : Option ν} (h : ¬ Recorded x ops) :
    replay T ops x = none := by
  simp only [Recorded, not_or, Option.not_isSome_iff_eq_none] at h
  rw [h.1, replay_none T h.2]

def Gone (dead : ν → Prop) (x : Option ν) : Prop := ∀ v, x = some v → dead v

/-- The cell `m` of the store against its checkpoint `x` and its journal `ops`: what is
recorded comes back as it is, and what differs is dead. -/
structure Tracks (dead : ν → Prop) (m x : Option ν) (ops : List (CellOp ν ρ)) : Prop where
  recorded : ∀ v, m = some v → Recorded x ops → replay T ops x = some v
  forgotten : ∀ v, m = some v → ¬ Recorded x ops → dead v
  absent : m = none → Gone dead (replay T ops x)

variable {T} {dead dead' : ν → Prop} {m m' x x' : Option ν} {ops : List (CellOp ν ρ)} {v : ν}

theorem Tracks.mono (h : Tracks T dead m x ops) (hd : ∀ v, dead v → dead' v) : Tracks T dead' m x ops where
  recorded := h.recorded
  forgotten v hm hr := hd v (h.forgotten v hm hr)
  absent hm v hv := hd v (h.absent hm v hv)

theorem tracks_none (h : Gone dead (replay T ops x)) : Tracks T dead none x ops where
  recorded _ hv := nomatch hv
  forgotten _ hv := nomatch hv
  absent _ := h

theorem tracks_recorded (h : replay T ops x = some v) : Tracks T dead (some v) x ops where
  recorded _ hv _ := hv ▸ h
  forgotten _ _ hr := by simp [replay_of_not_recorded T hr] at h
  absent hv := nomatch hv

theorem tracks_forgotten (hr : ¬ Recorded x ops) (h : dead v) : Tracks T dead (some v) x ops where
  recorded _ _ hr' := absurd hr' hr
  forgotten _ hw _ := Option.some.inj hw ▸ h
  absent hv := nomatch hv

theorem tracks_set (x : Option ν) (ops : List (CellOp ν ρ)) (v : ν) :
    Tracks T dead (some v) x (ops ++ [.set v]) :=
  tracks_recorded (replay_snoc T ops (.set v) x)

theorem tracks_clear (x : Option ν) (ops : List (CellOp ν ρ)) : Tracks T dead none x (ops ++ [.clear]) := by
  apply tracks_none
  rw [replay_snoc]
  rintro v ⟨⟩

theorem Tracks.touch (h : Tracks T dead (some v) x ops) (hr : Recorded x ops) (p : ρ) :
    Tracks T dead (some (T.touch p v)) x (ops ++ [.touch p]) := by
  apply tracks_recorded
  rw [replay_snoc, h.recorded v rfl hr]
  rfl

theorem Tracks.drop (h : Tracks T dead (some v) x ops) (hdead : dead v) : Tracks T dead none x ops := by
  apply tracks_none
  intro w hw
  by_cases hr : Recorded x ops
  · rw [h.recorded v rfl hr] at hw
    exact Option.some.inj hw ▸ hdead
  · simp [replay_of_not_recorded T hr] at hw

theorem Tracks.checkpoint (h : Tracks T dead m x ops) (hx : ∀ v, x' = some v ↔ m = some v ∧ ¬ dead v)
    {ops' : List (CellOp ν ρ)} (hops : ops' = [] ∨ ops' = ops) : Tracks T dead m x' ops' := by
  have hempty : (∀ v, m = some v → dead v) → x' = none := by
    intro hgone
    rw [Option.eq_none_iff_forall_ne_some]
    intro v hv
    exact ((hx v).mp hv).2 (hgone v ((hx v).mp hv).1)
  cases m with
  | none =>
    rw [hempty (by simp)]
    apply tracks_none
    rcases hops with rfl | rfl
    · simp [Gone]
    · by_cases hs : HasSet ops'
      · rw [replay_of_hasSet T hs none x]
        exact h.absent rfl
      · simp [replay_none T hs, Gone]
  | some v =>
    by_cases hdead : dead v
    · rw [hempty (by simpa using hdead)]
      by_cases hs : HasSet ops'
      · rcases hops with rfl | rfl
        · simp [HasSet] at hs
        · apply tracks_recorded
          rw [replay_of_hasSet T hs none x, h.recorded v rfl (Or.inr hs)]
      · exact tracks_forgotten (by simpa [Recorded] using hs) hdead
    · rw [(hx v).mpr ⟨rfl, hdead⟩]
      apply tracks_recorded
      rcases hops with rfl | rfl
      · rfl
      · have hr : Recorded x ops' := by
          by_contra hr
          exact hdead (h.forgotten v rfl hr)
        rw [← h.recorded v rfl hr, replay_replay]

def Rebuilt (T : Touch ν ρ) (dead : ν → Prop) (m' x : Option ν) (ops : List (CellOp ν ρ)) : Prop :=
  m' = replay T ops x ∨ m' = none ∧ Gone dead (replay T ops x)

theorem Rebuilt.mono (h : Rebuilt T dead m' x ops) (hd : ∀ v, dead v → dead' v) : Rebuilt T dead' m' x ops :=
  h.imp id fun ⟨hnone, hgone⟩ => ⟨hnone, fun v hv => hd v (hgone v hv)⟩

theorem Rebuilt.tracks (h : Rebuilt T dead m' x ops) : Tracks T dead m' x ops := by
  rcases h with rfl | ⟨rfl, hgone⟩
  · cases hv : replay T ops x with
    | none => exact tracks_none (by simp [hv, Gone])
    | some v => exact tracks_recorded hv
  · exact tracks_none hgone

structure Cell (ν ρ : Type) where
  value : Option ν
  saved : Option ν
  ops : List (CellOp ν ρ)

inductive Quiet (T : Touch ν ρ) (c : Cell ν ρ) : Cell ν ρ → Prop
  | drop : Quiet T c { c with value := none }
  | touch (p : ρ) {v : ν} (h : c.value = some v) :
    Quiet T c { c with value := some (T.touch p v), ops := c.ops ++ [.touch p] }
  | clear : Quiet T c { c with ops := c.ops ++ [.clear] }
  | save {x : Option ν} {ops : List (CellOp ν ρ)} (hx : ∀ v, x = some v → c.value = some v)
    (hops : ops = [] ∨ ops = c.ops) : Quiet T c { c with saved := x, ops }
  | rebuild : Quiet T c { c with value := replay T c.ops c.saved }

structure Holds (T : Touch ν ρ) (P : ν → Prop) (c : Cell ν ρ) : Prop where
  value : ∀ v, c.value = some v → P v
  recovered : ∀ v, replay T c.ops c.saved = some v → P v

variable {P : ν → Prop} {c c' : Cell ν ρ}

theorem holds_set (h : P v) (saved : Option ν) (ops : List (CellOp ν ρ)) :
    Holds T P ⟨some v, saved, ops ++ [.set v]⟩ := by
  refine ⟨fun w hw => Option.some.inj hw ▸ h, fun w hw => ?_⟩
  rw [replay_snoc] at hw
  exact Option.some.inj hw ▸ h

theorem Holds.quiet (h : Holds T P c) (htouch : ∀ p v, P v → P (T.touch p v)) (hquiet : Quiet T c c') : Holds T P c' := by
  rcases hquiet with _ | ⟨p, hv⟩ | _ | ⟨hx, rfl | rfl⟩ | _
  · exact ⟨fun v hv => (nomatch hv), h.recovered⟩
  · refine ⟨fun w hw => Option.some.inj hw ▸ htouch p _ (h.value _ hv), fun w hw => ?_⟩
    rw [replay_snoc] at hw
    obtain ⟨u, hu, rfl⟩ := Option.map_eq_some_iff.mp hw
    exact htouch p u (h.recovered u hu)
  · refine ⟨h.value, fun w hw => ?_⟩
    rw [replay_snoc] at hw
    cases hw
  · exact ⟨h.value, fun w hw => h.value w (hx w hw)⟩
  · refine ⟨h.value, fun w hw => ?_⟩
    by_cases hs : HasSet c.ops
    · rw [replay_of_hasSet T hs _ c.saved] at hw
      exact h.recovered w hw
    · exact replay_of_not_hasSet T htouch hs (fun v hv => h.value v (hx v hv)) w hw
  · exact ⟨h.recovered, h.recovered⟩

theorem Holds.quietly (h : Holds T P c) (htouch : ∀ p v, P v → P (T.touch p v))
    (hquiet : Relation.ReflTransGen (Quiet T) c c') : Holds T P c' := by
  induction hquiet with
  | refl => exact h
  | tail _ hlast ih => exact ih.quiet htouch hlast

/-! ## Replaying over what is already there -/

inductive Lapses (T : Touch ν ρ) (dead : ν → Prop) (c : Cell ν ρ) : Cell ν ρ → Prop
  | drop {v : ν} (hv : c.value = some v) (hdead : dead v) : Lapses T dead c { c with value := none }
  | touch (p : ρ) {v : ν} (hv : c.value = some v) :
    Lapses T dead c { c with value := some (T.touch p v), ops := c.ops ++ [.touch p] }
  | clear (hv : c.value = none) : Lapses T dead c { c with ops := c.ops ++ [.clear] }
  | save {x : Option ν} {ops : List (CellOp ν ρ)} (hx : ∀ v, x = some v → c.value = some v)
    (hops : ops = [] ∨ ops = c.ops) : Lapses T dead c { c with saved := x, ops }
  | rebuild {m : Option ν} (h : Rebuilt T dead m c.saved c.ops) : Lapses T dead c { c with value := m }

theorem Lapses.mono (h : Lapses T dead c c') (hd : ∀ v, dead v → dead' v) : Lapses T dead' c c' := by
  cases h with
  | drop hv hdead => exact .drop hv (hd _ hdead)
  | touch p hv => exact .touch p hv
  | clear hv => exact .clear hv
  | save hx hops => exact .save hx hops
  | rebuild h => exact .rebuild (h.mono hd)

theorem Lapses.quiet (h : Lapses T dead c c') : Quiet T c c' := by
  rcases h with _ | ⟨p, hv⟩ | _ | ⟨hx, hops⟩ | ⟨rfl | ⟨rfl, -⟩⟩
  · exact .drop
  · exact .touch p hv
  · exact .clear
  · exact .save hx hops
  · exact .rebuild
  · exact .drop

/-- A change of a cell that is not set anew. With `ok` a touch finds the cell recorded. -/
inductive Turns (T : Touch ν ρ) (dead : ν → Prop) (ok : Prop) (c : Cell ν ρ) : Cell ν ρ → Prop
  | drop {v : ν} (hv : c.value = some v) (hdead : dead v) : Turns T dead ok c { c with value := none }
  | touch (p : ρ) {v : ν} (hv : c.value = some v) (hr : ok → Recorded c.saved c.ops) :
    Turns T dead ok c { c with value := some (T.touch p v), ops := c.ops ++ [.touch p] }
  | clear (hv : c.value = none) : Turns T dead ok c { c with ops := c.ops ++ [.clear] }
  | save {x : Option ν} {ops : List (CellOp ν ρ)} (hx : ∀ v, x = some v ↔ c.value = some v ∧ ¬ dead v)
    (hops : ops = [] ∨ ops = c.ops) : Turns T dead ok c { c with saved := x, ops }

theorem Turns.lapses {ok : Prop} (h : Turns T dead ok c c') : Lapses T dead c c' := by
  cases h with
  | drop hv hdead => exact .drop hv hdead
  | touch p hv _ => exact .touch p hv
  | clear hv => exact .clear hv
  | save hx hops => exact .save (fun v hv => ((hx v).mp hv).1) hops

theorem Tracks.turns {ok : Prop} (h : Tracks T dead c.value c.saved c.ops) (hok : ok) (hturns : Turns T dead ok c c') :
    Tracks T dead c'.value c'.saved c'.ops := by
  cases hturns with
  | drop hv hdead =>
    rw [hv] at h
    exact h.drop hdead
  | touch p hv hr =>
    rw [hv] at h
    exact h.touch (hr hok) p
  | clear hv =>
    rw [hv]
    exact tracks_clear _ _
  | save hx hops => exact h.checkpoint hx hops

/-- The journal replayed over the cell's own value leaves it there, and replayed over nothing
brings nothing alive into an empty cell. The checkpoint has no part in it. -/
structure Settles (T : Touch ν ρ) (dead : ν → Prop) (c : Cell ν ρ) : Prop where
  kept : ∀ v, c.value = some v → replay T c.ops (some v) = some v
  empty : c.value = none → HasSet c.ops → Gone dead (replay T c.ops none)

theorem Settles.mono (h : Settles T dead c) (hd : ∀ v, dead v → dead' v) : Settles T dead' c :=
  ⟨h.kept, fun hv hs v hr => hd v (h.empty hv hs v hr)⟩

theorem settles_set (v : ν) (saved : Option ν) (ops : List (CellOp ν ρ)) :
    Settles T dead ⟨some v, saved, ops ++ [.set v]⟩ := by
  refine ⟨fun w hw => ?_, fun hv => nomatch hv⟩
  rw [replay_snoc, ← hw]
  rfl

theorem settles_nil (value saved : Option ν) : Settles T dead ⟨value, saved, []⟩ :=
  ⟨fun _ _ => rfl, fun _ ⟨_, hs⟩ => absurd hs List.not_mem_nil⟩

theorem Settles.lapses (h : Settles T dead c) (hlapses : Lapses T dead c c') : Settles T dead c' := by
  cases hlapses with
  | @drop v hv hdead =>
    refine ⟨fun w hw => (nomatch hw), fun _ hs w hw => ?_⟩
    rw [replay_of_hasSet T hs none (some v), h.kept v hv] at hw
    exact Option.some.inj hw ▸ hdead
  | @touch p v hv =>
    refine ⟨fun w hw => ?_, fun hw => nomatch hw⟩
    have hback : (replay T c.ops (some (T.touch p v))).map (T.touch p) = some (T.touch p v) := by
      have htouch := replay_touch T c.ops p (some v)
      rwa [h.kept v hv, Option.map_some] at htouch
    rw [← hw, replay_snoc]
    exact hback
  | clear hv =>
    refine ⟨fun w hw => absurd (hv.symm.trans hw) (by simp), fun _ _ w hw => ?_⟩
    rw [replay_snoc] at hw
    cases hw
  | @save x ops hx hops =>
    rcases hops with rfl | rfl
    · exact settles_nil c.value x
    · exact ⟨h.kept, h.empty⟩
  | @rebuild m hm =>
    have hempty : m = none → Gone dead (replay T c.ops c.saved) := by
      rintro rfl v hv
      rcases hm with hm | ⟨-, hgone⟩
      · rw [← hm] at hv
        cases hv
      · exact hgone v hv
    refine ⟨fun w hw => ?_, fun hnone hs => ?_⟩
    · rcases hm with hm | ⟨hm, -⟩
      · rw [← hw, hm, replay_replay]
      · exact absurd (hm.symm.trans hw) (by simp)
    · rw [replay_of_hasSet T hs none c.saved]
      exact hempty hnone

theorem Settles.lapse (h : Settles T dead c) (hlapses : Relation.ReflTransGen (Lapses T dead) c c') : Settles T dead c' := by
  induction hlapses with
  | refl => exact h
  | tail _ hlast ih => exact ih.lapses hlast

theorem Settles.checkpoint (h : Settles T dead c) (hx : ∀ v, x = some v ↔ c.value = some v ∧ ¬ dead v) (hv : ¬ dead v) :
    replay T c.ops x = some v ↔ x = some v := by
  cases hvalue : c.value with
  | some w =>
    by_cases hdead : dead w
    · -- The value died before the checkpoint: what a set of the journal brings back is that value.
      have hnone : x = none := by
        rw [Option.eq_none_iff_forall_ne_some]
        intro u hu
        obtain ⟨hu, halive⟩ := (hx u).mp hu
        exact halive (Option.some.inj (hvalue.symm.trans hu) ▸ hdead)
      rw [hnone]
      refine ⟨fun hreplay => ?_, fun hv => nomatch hv⟩
      by_cases hs : HasSet c.ops
      · rw [replay_of_hasSet T hs none (some w), h.kept w hvalue] at hreplay
        exact absurd (Option.some.inj hreplay ▸ hdead) hv
      · rw [replay_none T hs] at hreplay
        cases hreplay
    · have hsome : x = some w := (hx w).mpr ⟨hvalue, hdead⟩
      rw [hsome, h.kept w hvalue]
  | none =>
    have hnone : x = none := by
      rw [Option.eq_none_iff_forall_ne_some]
      intro u hu
      exact absurd (hvalue.symm.trans ((hx u).mp hu).1) (by simp)
    rw [hnone]
    refine ⟨fun hreplay => ?_, fun hv => nomatch hv⟩
    by_cases hs : HasSet c.ops
    · exact absurd (h.empty hvalue hs v hreplay) hv
    · rw [replay_none T hs] at hreplay
      cases hreplay

end Journal

end Lib
