import Mathlib.Algebra.Order.Ring.Nat

/-!
# Files of frames

A reader takes one frame off the front of a file or finds none there.
-/

namespace Lib

structure FrameReader (β α : Type) where
  read : List β → Option (α × List β)
  shrinks : ∀ {b a rest}, read b = some (a, rest) → rest.length < b.length

structure Scan (α : Type) where
  frames : List α := []
  size : ℕ := 0
  torn : Bool := false

namespace FrameReader

variable {β α : Type} (R : FrameReader β α)

def scan (b : List β) : Scan α :=
  if b.isEmpty then {}
  else
    match h : R.read b with
    | none => { torn := true }
    | some (a, rest) =>
      have := R.shrinks h
      let later := scan rest
      { frames := a :: later.frames
        size := b.length - rest.length + later.size
        torn := later.torn }
termination_by b.length

theorem scan_nil : R.scan [] = {} := by
  rw [scan]
  rfl

variable {R}

theorem scan_torn {b : List β} (hb : b ≠ []) (h : R.read b = none) : R.scan b = { torn := true } := by
  rw [scan, if_neg (by simpa using hb)]
  split
  · rfl
  · rename_i hread
    rw [h] at hread
    cases hread

theorem scan_frame {b rest : List β} {a : α} (hb : b ≠ []) (h : R.read b = some (a, rest)) :
    R.scan b =
      { frames := a :: (R.scan rest).frames
        size := b.length - rest.length + (R.scan rest).size
        torn := (R.scan rest).torn } := by
  rw [scan, if_neg (by simpa using hb)]
  split
  · rename_i hread
    rw [h] at hread
    cases hread
  · rename_i hread
    rw [h] at hread
    cases hread
    rfl

def feed (R : FrameReader β α) {σ ε : Type} (apply : σ → α → Except ε σ) (s : σ) (b : List β) : Scan α × Except ε σ :=
  if b.isEmpty then ({}, .ok s)
  else
    match h : R.read b with
    | none => ({ torn := true }, .ok s)
    | some (a, rest) =>
      match apply s a with
      | .error e => ({}, .error e)
      | .ok s' =>
        have := R.shrinks h
        let later := feed R apply s' rest
        ({ frames := a :: later.1.frames
           size := b.length - rest.length + later.1.size
           torn := later.1.torn }, later.2)
termination_by b.length

theorem feed_of_scan {σ ε : Type} {apply : σ → α → Except ε σ} {s s' : σ} {b : List β}
    (h : (R.scan b).frames.foldlM apply s = .ok s') : R.feed apply s b = (R.scan b, .ok s') := by
  induction hlen : b.length using Nat.strong_induction_on generalizing s b with
  | _ n ih =>
    by_cases hb : b = []
    · subst hb
      rw [scan_nil] at h ⊢
      cases h
      rw [feed]
      rfl
    rcases hread : R.read b with _ | ⟨a, rest⟩
    · rw [scan_torn hb hread] at h ⊢
      cases h
      rw [feed, if_neg (by simpa using hb)]
      split
      · rfl
      · rename_i hother
        rw [hread] at hother
        cases hother
    · have hshorter := R.shrinks hread
      rw [scan_frame hb hread, List.foldlM_cons] at h
      rw [scan_frame hb hread, feed, if_neg (by simpa using hb)]
      split
      · rename_i hother
        rw [hread] at hother
        cases hother
      · rename_i hsame
        rw [hread] at hsame
        cases hsame
        rcases happly : apply s a with e | next
        · rw [happly] at h
          cases h
        · rw [happly] at h
          have hlater := ih rest.length (by omega) h rfl
          dsimp only
          rw [hlater]

theorem scan_encoded {encode : α → List β} {as : List α} {p : List β}
    (hread : ∀ a ∈ as, encode a ≠ [] ∧ ∀ rest, R.read (encode a ++ rest) = some (a, rest))
    (hp : p ≠ [] → R.read p = none) :
    R.scan (as.flatMap encode ++ p) =
      { frames := as, size := (as.flatMap encode).length, torn := !p.isEmpty } := by
  induction as with
  | nil =>
    cases p with
    | nil => exact R.scan_nil
    | cons b rest => exact scan_torn (List.cons_ne_nil b rest) (hp (List.cons_ne_nil b rest))
  | cons a as ih =>
    obtain ⟨⟨hne, hfirst⟩, hrest⟩ := List.forall_mem_cons.mp hread
    rw [List.flatMap_cons, List.append_assoc, scan_frame (by simp [hne]) (hfirst _), ih hrest]
    simp only [List.length_append, Scan.mk.injEq, true_and, and_true]
    omega

end FrameReader

end Lib
