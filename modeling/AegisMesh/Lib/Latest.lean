import Mathlib.Data.List.Induction
import Mathlib.Order.Lattice

/-! # Registers where the latest record wins -/

namespace Lib

variable {ρ τ : Type} [LinearOrder τ] (time : ρ → τ)

def newer (held : Option ρ) (r : ρ) : Option ρ :=
  match held with
  | none => some r
  | some h => if time r < time h then some h else some r

def Newest (held : Option ρ) (l : List ρ) (r : ρ) : Prop :=
  (r ∈ l ∧ (∀ x ∈ l, time x ≤ time r) ∧ ∀ h, held = some h → time h ≤ time r) ∨ held = some r ∧ ∀ x ∈ l, time x < time r

variable {time} {held : Option ρ} {l l' : List ρ} {r r' : ρ}

theorem foldl_newer_eq_none : l.foldl (newer time) held = none ↔ held = none ∧ l = [] := by
  induction l using List.reverseRecOn with
  | nil => simp
  | append_singleton l x ih =>
    rw [List.foldl_append, List.foldl_cons, List.foldl_nil]
    unfold newer
    split
    · simp
    · split_ifs <;> simp

theorem newest_foldl (h : l.foldl (newer time) held = some r) : Newest time held l r := by
  induction l using List.reverseRecOn generalizing r with
  | nil => exact .inr ⟨h, by simp⟩
  | append_singleton l x ih =>
    rw [List.foldl_append, List.foldl_cons, List.foldl_nil] at h
    rcases hbefore : l.foldl (newer time) held with _ | b
    · obtain ⟨rfl, rfl⟩ := foldl_newer_eq_none.mp hbefore
      simp only [hbefore, newer, Option.some.injEq] at h
      subst h
      exact .inl (by simp)
    · have hb := ih hbefore
      have hbound : (∀ y ∈ l, time y ≤ time b) ∧ ∀ h, held = some h → time h ≤ time b := by
        rcases hb with ⟨-, hall, hheld⟩ | ⟨hheld, hall⟩
        · exact ⟨hall, hheld⟩
        · refine ⟨fun y hy => (hall y hy).le, fun h hh => ?_⟩
          rw [hheld] at hh
          rw [Option.some.inj hh]
      simp only [hbefore, newer] at h
      split_ifs at h with hlt <;> obtain rfl := Option.some.inj h
      · rcases hb with ⟨hmem, hall, hheld⟩ | ⟨hheld, hall⟩
        · refine .inl ⟨List.mem_append_left _ hmem, fun y hy => ?_, hheld⟩
          rcases List.mem_append.mp hy with hy | hy
          · exact hall y hy
          · rw [List.mem_singleton.mp hy]
            exact hlt.le
        · refine .inr ⟨hheld, fun y hy => ?_⟩
          rcases List.mem_append.mp hy with hy | hy
          · exact hall y hy
          · rw [List.mem_singleton.mp hy]
            exact hlt
      · have hge : time b ≤ time x := not_lt.mp hlt
        refine .inl ⟨by simp, fun y hy => ?_, fun h hh => (hbound.2 h hh).trans hge⟩
        rcases List.mem_append.mp hy with hy | hy
        · exact (hbound.1 y hy).trans hge
        · rw [List.mem_singleton.mp hy]

theorem Newest.unique (hties : ∀ x ∈ l, ∀ y ∈ l, time x = time y → x = y) (hsame : ∀ x, x ∈ l ↔ x ∈ l')
    (h : Newest time held l r) (h' : Newest time held l' r') : r = r' := by
  rcases h with ⟨hmem, hall, hheld⟩ | ⟨hheld, hall⟩ <;> rcases h' with ⟨hmem', hall', hheld'⟩ | ⟨hheld', hall'⟩
  · have hin := (hsame r').mpr hmem'
    exact hties r hmem r' hin (le_antisymm (hall' r ((hsame r).mp hmem)) (hall r' hin))
  · exact absurd (hheld r' hheld') (not_le.mpr (hall' r ((hsame r).mp hmem)))
  · exact absurd (hheld' r hheld) (not_le.mpr (hall r' ((hsame r').mpr hmem')))
  · exact Option.some.inj (hheld.symm.trans hheld')

theorem foldl_newer_iff (hties : ∀ x ∈ l, ∀ y ∈ l, time x = time y → x = y) :
    l.foldl (newer time) held = some r ↔ Newest time held l r := by
  refine ⟨newest_foldl, fun h => ?_⟩
  rcases hfold : l.foldl (newer time) held with _ | r'
  · obtain ⟨rfl, rfl⟩ := foldl_newer_eq_none.mp hfold
    simp [Newest] at h
  · rw [Newest.unique hties (fun _ => Iff.rfl) h (newest_foldl hfold)]

theorem foldl_newer_congr (hties : ∀ x ∈ l, ∀ y ∈ l, time x = time y → x = y) (hsame : ∀ x, x ∈ l ↔ x ∈ l') :
    l.foldl (newer time) held = l'.foldl (newer time) held := by
  rcases hfold : l.foldl (newer time) held with _ | r
  · obtain ⟨hheld, rfl⟩ := foldl_newer_eq_none.mp hfold
    have hnil : l' = [] := List.eq_nil_iff_forall_not_mem.mpr fun x hx => by simpa using (hsame x).mpr hx
    exact (foldl_newer_eq_none.mpr ⟨hheld, hnil⟩).symm
  · rcases hfold' : l'.foldl (newer time) held with _ | r'
    · obtain ⟨rfl, rfl⟩ := foldl_newer_eq_none.mp hfold'
      have hnil : l = [] := List.eq_nil_iff_forall_not_mem.mpr fun x hx => by simpa using (hsame x).mp hx
      rw [hnil] at hfold
      cases hfold
    · rw [Newest.unique hties hsame (newest_foldl hfold) (newest_foldl hfold')]

end Lib
