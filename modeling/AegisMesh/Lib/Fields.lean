import Mathlib.Data.List.DropRight
import Mathlib.Data.List.Forall2
import Mathlib.Tactic.Common

/-! # Fields of a text -/

namespace Lib

variable {α : Type}

/-! ## Blanks -/

section Trim

variable {blank : α → Bool} {l a b : List α} {sep : α}

def trim (blank : α → Bool) (l : List α) : List α := (l.dropWhile blank).rdropWhile blank

theorem rdropWhile_append_of_pos (hb : ∀ c ∈ b, blank c = true) (a : List α) :
    (a ++ b).rdropWhile blank = a.rdropWhile blank := by
  unfold List.rdropWhile
  rw [List.reverse_append, List.dropWhile_append_of_pos fun c hc => hb c (List.mem_reverse.mp hc)]

theorem trim_blank_append (ha : ∀ c ∈ a, blank c = true) (l : List α) : trim blank (a ++ l) = trim blank l := by
  unfold trim
  rw [List.dropWhile_append_of_pos ha]

theorem trim_append_blank (hb : ∀ c ∈ b, blank c = true) (l : List α) : trim blank (l ++ b) = trim blank l := by
  unfold trim
  rw [List.dropWhile_append]
  split
  · rename_i hempty
    have hdropped : b.dropWhile blank = [] := List.dropWhile_eq_nil_iff.mpr hb
    rw [hdropped, List.isEmpty_iff.mp hempty]
  · exact rdropWhile_append_of_pos hb _

theorem trim_dropWhile (l : List α) : trim blank (l.dropWhile blank) = trim blank l := by
  unfold trim
  rw [List.dropWhile_idempotent]

theorem trim_rdropWhile (l : List α) : trim blank (l.rdropWhile blank) = trim blank l := by
  have hblank : ∀ c ∈ l.rtakeWhile blank, blank c = true := fun c hc => List.mem_rtakeWhile_imp hc
  rw [← trim_append_blank hblank (l.rdropWhile blank), List.rdropWhile_append_rtakeWhile]

theorem trim_trim (l : List α) : trim blank (trim blank l) = trim blank l := by
  have hend : trim blank (trim blank l) = trim blank (l.dropWhile blank) := trim_rdropWhile _
  rw [hend, trim_dropWhile]

theorem trim_subset (l : List α) : trim blank l ⊆ l :=
  fun _ hc => (List.dropWhile_sublist blank).subset (( List.rdropWhile_prefix blank _).subset hc)

theorem trim_append_cons (hsep : blank sep = false) (a b : List α) :
    trim blank (a ++ sep :: b) = a.dropWhile blank ++ sep :: b.rdropWhile blank := by
  have hstart : (a ++ sep :: b).dropWhile blank = a.dropWhile blank ++ sep :: b := by
    rw [List.dropWhile_append]
    split
    · rename_i hempty
      rw [List.isEmpty_iff.mp hempty]
      simp [hsep]
    · rfl
  have hend : ∀ x : List α, (x ++ sep :: b).rdropWhile blank = x ++ sep :: b.rdropWhile blank := by
    intro x
    have hreverse : (x ++ sep :: b).reverse = b.reverse ++ sep :: x.reverse := by simp
    unfold List.rdropWhile
    rw [hreverse, List.dropWhile_append]
    split
    · rename_i hempty
      rw [List.isEmpty_iff.mp hempty]
      simp [hsep]
    · simp
  rw [trim, hstart, hend]

end Trim

/-! ## Two parts -/

section Cut

variable [DecidableEq α] {sep : α} {l a b : List α}

def cut (sep : α) (l : List α) : Option (List α × List α) :=
  match l.dropWhile (· ≠ sep) with
  | [] => none
  | _ :: after => some (l.takeWhile (· ≠ sep), after)

theorem cut_append_cons (h : sep ∉ a) (b : List α) : cut sep (a ++ sep :: b) = some (a, b) := by
  have hbefore : ∀ c ∈ a, (decide (c ≠ sep)) = true := by
    intro c hc
    rw [decide_eq_true_eq]
    rintro rfl
    exact h hc
  unfold cut
  rw [List.dropWhile_append_of_pos hbefore, List.takeWhile_append_of_pos hbefore]
  simp

theorem cut_eq_none_iff : cut sep l = none ↔ sep ∉ l := by
  constructor
  · intro h hmem
    obtain ⟨a, b, rfl, ha⟩ := List.eq_append_cons_of_mem hmem
    rw [cut_append_cons ha] at h
    cases h
  · intro h
    have hdropped : l.dropWhile (· ≠ sep) = [] := by
      rw [List.dropWhile_eq_nil_iff]
      intro c hc
      rw [decide_eq_true_eq]
      rintro rfl
      exact h hc
    unfold cut
    rw [hdropped]

theorem append_cons_inj {a' b' : List α} (ha : sep ∉ a) (ha' : sep ∉ a') (h : a ++ sep :: b = a' ++ sep :: b') :
    a = a' ∧ b = b' := by
  have hcut := cut_append_cons ha b
  rw [h, cut_append_cons ha'] at hcut
  cases hcut
  exact ⟨rfl, rfl⟩

end Cut

/-! ## Many parts -/

section Fields

variable {p blank : α → Bool} {l : List α} {parts : List (List α)}

inductive Fields (p : α → Bool) : List α → List (List α) → Prop
  | one {part : List α} (hpart : ∀ c ∈ part, p c = false) : Fields p part [part]
  | more {part rest : List α} {sep : α} {parts : List (List α)} (hpart : ∀ c ∈ part, p c = false) (hsep : p sep = true)
      (hrest : Fields p rest parts) : Fields p (part ++ sep :: rest) (part :: parts)

theorem Fields.splitOnP (h : Fields p l parts) : l.splitOnP p = parts := by
  induction h with
  | one hpart => exact List.splitOnP_eq_singleton hpart
  | more hpart hsep _ ih => rw [List.splitOnP_append_cons_of_forall_mem hpart _ hsep, ih]

theorem exists_fields (p : α → Bool) (l : List α) : ∃ parts, Fields p l parts := by
  induction l with
  | nil => exact ⟨[[]], .one (by simp)⟩
  | cons c rest ih =>
    obtain ⟨parts, hrest⟩ := ih
    by_cases hc : p c = true
    · have hnone : ∀ c ∈ ([] : List α), p c = false := fun _ h => nomatch h
      exact ⟨[] :: parts, .more hnone hc hrest⟩
    · rw [Bool.not_eq_true] at hc
      cases hrest with
      | one hpart => exact ⟨_, .one (List.forall_mem_cons.mpr ⟨hc, hpart⟩)⟩
      | more hpart hsep hrest => exact ⟨_, .more (List.forall_mem_cons.mpr ⟨hc, hpart⟩) hsep hrest⟩

theorem fields_iff : Fields p l parts ↔ l.splitOnP p = parts := by
  constructor
  · exact Fields.splitOnP
  · rintro rfl
    obtain ⟨parts, hparts⟩ := exists_fields p l
    rwa [hparts.splitOnP]

theorem Fields.ne_nil (h : Fields p l parts) : parts ≠ [] := by
  cases h <;> simp

theorem Fields.map (h : Fields p l parts) {q : α → Bool} {f : α → α} (hother : ∀ c, p c = false → f c = c)
    (hsep : ∀ c, q (f c) = p c) : Fields q (l.map f) parts := by
  have hkept : ∀ part : List α, (∀ c ∈ part, p c = false) → part.map f = part ∧ ∀ c ∈ part, q c = false := by
    intro part hpart
    refine ⟨(List.map_congr_left fun c hc => hother c (hpart c hc)).trans (List.map_id part), fun c hc => ?_⟩
    have hc' := hsep c
    rwa [hother c (hpart c hc), hpart c hc] at hc'
  induction h with
  | one hpart =>
    rw [(hkept _ hpart).1]
    exact .one (hkept _ hpart).2
  | more hpart hc _ ih =>
    rw [List.map_append, List.map_cons, (hkept _ hpart).1]
    exact .more (hkept _ hpart).2 ((hsep _).trans hc) ih

theorem Fields.blank_append (h : Fields p l parts) {a : List α} (ha : ∀ c ∈ a, blank c = true ∧ p c = false) :
    ∃ parts', Fields p (a ++ l) parts' ∧ parts'.map (trim blank) = parts.map (trim blank) := by
  have hblank : ∀ c ∈ a, blank c = true := fun c hc => (ha c hc).1
  have hjoin : ∀ {part : List α}, (∀ c ∈ part, p c = false) → ∀ c ∈ a ++ part, p c = false :=
    fun hpart => List.forall_mem_append.mpr ⟨fun c hc => (ha c hc).2, hpart⟩
  cases h with
  | one hpart => exact ⟨_, .one (hjoin hpart), by simp [trim_blank_append hblank]⟩
  | more hpart hsep hrest =>
    rw [← List.append_assoc]
    exact ⟨_, .more (hjoin hpart) hsep hrest, by simp [trim_blank_append hblank]⟩

theorem Fields.append_blank (h : Fields p l parts) {b : List α} (hb : ∀ c ∈ b, blank c = true ∧ p c = false) :
    ∃ parts', Fields p (l ++ b) parts' ∧ parts'.map (trim blank) = parts.map (trim blank) := by
  have hblank : ∀ c ∈ b, blank c = true := fun c hc => (hb c hc).1
  induction h with
  | one hpart =>
    exact ⟨_, .one (List.forall_mem_append.mpr ⟨hpart, fun c hc => (hb c hc).2⟩), by simp [trim_append_blank hblank]⟩
  | more hpart hsep _ ih =>
    obtain ⟨parts', hparts', htrim⟩ := ih
    rw [List.append_assoc, List.cons_append]
    exact ⟨_, .more hpart hsep hparts', by simp [htrim]⟩

theorem map_trim_splitOnP_trim (hp : ∀ c, p c = true → blank c = false) (l : List α) :
    ((trim blank l).splitOnP p).map (trim blank) = (l.splitOnP p).map (trim blank) := by
  have hboth : ∀ c, blank c = true → blank c = true ∧ p c = false := by
    intro c hc
    refine ⟨hc, ?_⟩
    by_contra h
    rw [Bool.not_eq_false] at h
    rw [hp c h] at hc
    cases hc
  have hbehind : ∀ c ∈ (l.dropWhile blank).rtakeWhile blank, blank c = true ∧ p c = false :=
    fun c hc => hboth c (List.mem_rtakeWhile_imp hc)
  have hfront : ∀ c ∈ l.takeWhile blank, blank c = true ∧ p c = false := fun c hc => hboth c (List.mem_takeWhile_imp hc)
  obtain ⟨inner, hinner⟩ := exists_fields p (trim blank l)
  obtain ⟨middle, hmiddle, htrim⟩ := hinner.append_blank hbehind
  rw [trim, List.rdropWhile_append_rtakeWhile] at hmiddle
  obtain ⟨outer, houter, htrim'⟩ := hmiddle.blank_append hfront
  rw [List.takeWhile_append_dropWhile] at houter
  rw [hinner.splitOnP, houter.splitOnP, htrim', htrim]

end Fields

end Lib
