import Mathlib.Data.List.AList
import Mathlib.Data.List.Induction

/-!
# Finite maps

A map is an `AList`: an association list without a repeated key. A loop over a
map sees its entries in some order, so what it computes is stated by lookup.
-/

namespace Lib

abbrev Dict (κ : Type) (α : Type) : Type := AList fun _ : κ => α

namespace Dict

variable {κ α β : Type}

def values (d : Dict κ α) : List α := d.entries.map (·.2)

def filter (p : κ → α → Bool) (d : Dict κ α) : Dict κ α :=
  ⟨d.entries.filter fun e => p e.1 e.2, d.nodupKeys.sublist List.filter_sublist⟩

def mapVal (f : κ → α → β) (d : Dict κ α) : Dict κ β :=
  ⟨d.entries.map (.map id f), d.nodupKeys.map₂ f⟩

variable [DecidableEq κ] {d : Dict κ α}

theorem mem_values {a : α} : a ∈ values d ↔ ∃ k, d.lookup k = some a := by
  simp only [values, List.mem_map]
  constructor
  · rintro ⟨⟨k, b⟩, he, rfl⟩
    exact ⟨k, AList.mem_lookup_iff.mpr he⟩
  · rintro ⟨k, hk⟩
    exact ⟨⟨k, a⟩, AList.mem_lookup_iff.mp hk, rfl⟩

@[simp] theorem lookup_filter (p : κ → α → Bool) (d : Dict κ α) (k : κ) :
    (filter p d).lookup k = (d.lookup k).filter (p k) := by
  ext a
  rw [Option.filter_eq_some_iff]
  have hmem : ∀ m : Dict κ α, m.lookup k = some a ↔ (⟨k, a⟩ : Sigma fun _ => α) ∈ m.entries :=
    fun m => AList.mem_lookup_iff
  rw [hmem, hmem]
  simp [filter, List.mem_filter]

@[simp] theorem lookup_mapVal (f : κ → α → β) (d : Dict κ α) (k : κ) :
    (mapVal f d).lookup k = (d.lookup k).map (f k) :=
  List.dlookup_map₂ k

theorem lookup_insert' (d : Dict κ α) (k j : κ) (a : α) :
    (d.insert k a).lookup j = if j = k then some a else d.lookup j := by
  by_cases h : j = k
  · subst h; simp
  · rw [if_neg h, AList.lookup_insert_ne h]

theorem forall_lookup_insert {k : κ} {a : α} {Q : κ → α → Prop} :
    (∀ j b, (d.insert k a).lookup j = some b → Q j b) ↔ Q k a ∧ ∀ j b, j ≠ k → d.lookup j = some b → Q j b := by
  constructor
  · intro h
    refine ⟨h k a (AList.lookup_insert d), fun j b hne hb => h j b ?_⟩
    rw [lookup_insert', if_neg hne, hb]
  · rintro ⟨hnew, hold⟩ j b hb
    rw [lookup_insert'] at hb
    split at hb
    · rename_i heq
      cases hb
      exact heq ▸ hnew
    · rename_i hne
      exact hold j b hne hb

theorem lookup_erase' (d : Dict κ α) (k j : κ) :
    (d.erase k).lookup j = if j = k then none else d.lookup j := by
  by_cases h : j = k
  · subst h; simp
  · rw [if_neg h, AList.lookup_erase_ne h]

theorem values_map_perm {γ : Type} {f : α → γ} {g : β → γ} {d' : Dict κ β}
    (h : ∀ k, (d.lookup k).map f = (d'.lookup k).map g) : ((values d).map f).Perm ((values d').map g) := by
  have hperm : (mapVal (fun _ => f) d).entries.Perm (mapVal (fun _ => g) d').entries := by
    apply List.lookup_ext (AList.nodupKeys _) (AList.nodupKeys _)
    intro k c
    change c ∈ (mapVal (fun _ => f) d).lookup k ↔ c ∈ (mapVal (fun _ => g) d').lookup k
    rw [lookup_mapVal, lookup_mapVal, h]
  have hvalues := hperm.map fun e => e.2
  simpa [values, mapVal, Function.comp_def, Sigma.map] using hvalues

theorem values_perm {d d' : Dict κ α} (h : ∀ k, d.lookup k = d'.lookup k) : (values d).Perm (values d') := by
  simpa using values_map_perm (f := id) (g := id) fun k => congrArg (Option.map id) (h k)

theorem values_perm_cons {k : κ} {a : α} (h : d.lookup k = some a) :
    (values d).Perm (a :: values (d.erase k)) := by
  have hsame : ∀ j, d.lookup j = (d.insert k a).lookup j := by
    intro j
    rw [lookup_insert']
    split
    · rename_i hj
      rw [hj, h]
    · rfl
  exact values_perm hsame

/-! ## Loops that write -/

variable {β : Type} {f : Dict κ α → β → Dict κ α} {l : List β} {k : κ}

theorem lookup_foldl_frame (h : ∀ x ∈ l, ∀ d, (f d x).lookup k = d.lookup k) (d : Dict κ α) :
    (l.foldl f d).lookup k = d.lookup k := by
  induction l generalizing d with
  | nil => rfl
  | cons x rest ih =>
    rw [List.foldl_cons, ih fun y hy => h y (List.mem_cons_of_mem _ hy)]
    exact h x List.mem_cons_self d

theorem lookup_foldl_write {a : Option α} (h : ∀ x ∈ l, (∀ d, (f d x).lookup k = d.lookup k) ∨ ∀ d, (f d x).lookup k = a)
    (hwrite : ∃ x ∈ l, ∀ d, (f d x).lookup k = a) (d : Dict κ α) : (l.foldl f d).lookup k = a := by
  induction l using List.reverseRecOn generalizing d with
  | nil => simp at hwrite
  | append_singleton rest last ih =>
    rw [List.foldl_append, List.foldl_cons, List.foldl_nil]
    rcases h last (by simp) with hframe | hlast
    · obtain ⟨x, hx, hwrites⟩ := hwrite
      rcases List.mem_append.mp hx with hx | hx
      · rw [hframe]
        exact ih (fun y hy => h y (List.mem_append_left _ hy)) ⟨x, hx, hwrites⟩ d
      · rw [← List.mem_singleton.mp hx, hwrites]
    · exact hlast _

theorem foldl_insert_perm {pairs : List (κ × α)} (hnodup : (pairs.map Prod.fst).Nodup) (hnew : ∀ e ∈ pairs, e.1 ∉ d) :
    ((pairs.foldl (fun d e => d.insert e.1 e.2) d).entries.map fun e => (e.1, e.2)).Perm
      (pairs ++ d.entries.map fun e => (e.1, e.2)) := by
  induction pairs generalizing d with
  | nil => rfl
  | cons e rest ih =>
    rw [List.map_cons, List.nodup_cons, List.mem_map] at hnodup
    rw [List.forall_mem_cons] at hnew
    have hrest : ∀ e' ∈ rest, e'.1 ∉ d.insert e.1 e.2 := by
      intro e' he'
      rw [AList.mem_insert, not_or]
      exact ⟨fun heq => hnodup.1 ⟨e', he', heq⟩, hnew.2 e' he'⟩
    refine (ih hnodup.2 hrest).trans ?_
    rw [AList.entries_insert_of_notMem hnew.1, List.map_cons]
    exact List.perm_middle

theorem lookup_foldl_insert (e d : Dict κ α) (k : κ) :
    (e.entries.foldl (fun d x => d.insert x.1 x.2) d).lookup k = (e.lookup k).or (d.lookup k) := by
  have hinsert : ∀ x ∈ e.entries, x.1 ≠ k → ∀ d : Dict κ α, (d.insert x.1 x.2).lookup k = d.lookup k :=
    fun x _ hne d => AList.lookup_insert_ne (Ne.symm hne)
  cases he : e.lookup k with
  | none =>
    refine lookup_foldl_frame (fun x hx => hinsert x hx ?_) d
    rintro rfl
    have hlookup : e.lookup x.1 = some x.2 := AList.mem_lookup_iff.mpr hx
    rw [he] at hlookup
    cases hlookup
  | some a =>
    refine lookup_foldl_write (fun x hx => ?_) ⟨⟨k, a⟩, AList.mem_lookup_iff.mp he, fun d => by simp⟩ d
    by_cases hk : x.1 = k
    · subst hk
      have hlookup : e.lookup x.1 = some x.2 := AList.mem_lookup_iff.mpr hx
      rw [he] at hlookup
      cases hlookup
      exact .inr fun d => by simp
    · exact .inl (hinsert x hx hk)

theorem lookup_foldl_erase (l : List κ) (d : Dict κ α) (k : κ) :
    (l.foldl (fun d x => d.erase x) d).lookup k = if k ∈ l then none else d.lookup k := by
  split
  · rename_i hmem
    refine lookup_foldl_write (fun x _ => ?_) ⟨k, hmem, fun d => by simp⟩ d
    by_cases hk : k = x
    · exact .inr fun d => by rw [lookup_erase', if_pos hk]
    · exact .inl fun d => by rw [lookup_erase', if_neg hk]
  · rename_i hnot
    refine lookup_foldl_frame (fun x hx d => ?_) d
    rw [lookup_erase', if_neg]
    rintro rfl
    exact hnot hx

end Dict

end Lib
