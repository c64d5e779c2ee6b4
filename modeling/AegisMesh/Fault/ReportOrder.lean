import AegisMesh.Fault.Isolation
import AegisMesh.Fault.Revisions

/-! # Scores and the order of a report -/

open Lib

namespace AegisMesh.Fault

/-! ## The samples of an endpoint -/

def samplesOf (service id : String) (samples : List EndpointSample) : List EndpointSample :=
  samples.filter fun s => s.service = service ∧ s.instanceID = id

theorem samplesOf_snoc (service id : String) (samples : List EndpointSample) (s : EndpointSample) :
    samplesOf service id (samples ++ [s]) =
      samplesOf service id samples ++ (if s.service = service ∧ s.instanceID = id then [s] else []) := by
  simp [samplesOf, List.filter_append, List.filter_cons]

variable {service id : String} {samples : List EndpointSample}

theorem samplesOf_ne_nil {s : EndpointSample} (hmem : s ∈ samples) (hservice : s.service = service)
    (hid : s.instanceID = id) : samplesOf service id samples ≠ [] := by
  have hown : s ∈ samplesOf service id samples := by simp [samplesOf, hmem, hservice, hid]
  exact List.ne_nil_of_mem hown

def aggregateOf (service id : String) (samples : List EndpointSample) : EndpointSample :=
  (samplesOf service id samples).foldl aggregateEndpointSample {}

theorem aggregateOf_snoc (service id : String) (samples : List EndpointSample) (s : EndpointSample) :
    aggregateOf service id (samples ++ [s]) =
      if s.service = service ∧ s.instanceID = id then aggregateEndpointSample (aggregateOf service id samples) s
      else aggregateOf service id samples := by
  unfold aggregateOf
  rw [samplesOf_snoc, List.foldl_append]
  split <;> rfl

theorem lookup_aggregate (hservice : service ≠ "") (hid : id ≠ "") (samples : List EndpointSample) :
    (((aggregateByService samples).lookup service).getD ∅).lookup id =
      if samplesOf service id samples = [] then none else some (aggregateOf service id samples) := by
  induction samples using List.reverseRecOn with
  | nil => simp [aggregateByService, samplesOf]
  | append_singleton rest last ih =>
    rw [aggregateByService_snoc, samplesOf_snoc, aggregateOf_snoc]
    by_cases hown : last.service = service
    · by_cases hsame : last.instanceID = id
      · have hbefore : ((((aggregateByService rest).lookup service).getD ∅).lookup id).getD {} =
            aggregateOf service id rest := by
          rw [ih]
          split
          · rename_i hnil
            simp [aggregateOf, hnil]
          · rfl
        have hlast : last.service = service ∧ last.instanceID = id := ⟨hown, hsame⟩
        have hnamed : last.service ≠ "" ∧ last.instanceID ≠ "" ∧ last.service = service :=
          ⟨hown ▸ hservice, hsame ▸ hid, hown⟩
        rw [if_pos hnamed, if_pos hlast, if_pos hlast, Option.getD_some, Dict.lookup_insert', if_pos hsame.symm, hsame,
          hbefore, if_neg (by simp)]
      · have hframe : ¬ (last.service = service ∧ last.instanceID = id) := fun h => hsame h.2
        rw [if_neg hframe, if_neg hframe, List.append_nil, ← ih]
        split
        · rw [Option.getD_some, Dict.lookup_insert', if_neg (Ne.symm hsame)]
        · rfl
    · have hframe : ¬ (last.service = service ∧ last.instanceID = id) := fun h => hown h.1
      rw [if_neg fun h => hown h.2.2, if_neg hframe, if_neg hframe, List.append_nil, ih]

theorem lookup_aggregate_of_some (hid : id ≠ "") {d : Dict String EndpointSample}
    (h : (aggregateByService samples).lookup service = some d) (hservice : service ≠ "") :
    d.lookup id = if samplesOf service id samples = [] then none else some (aggregateOf service id samples) := by
  rw [← lookup_aggregate hservice hid, h, Option.getD_some]

theorem lookup_aggregate_empty {service : String} {d : Dict String EndpointSample}
    (h : (aggregateByService samples).lookup service = some d) : d.lookup "" = none := by
  by_contra hsome
  obtain ⟨aggregate, haggregate⟩ := Option.ne_none_iff_exists'.mp hsome
  obtain ⟨-, s, -, -, hid, -, hempty⟩ := mem_aggregateByService h haggregate
  exact hid hempty

/-! ## Figures -/

def EndpointSample.figures (s : EndpointSample) : EndpointSample :=
  { s with address := "", registrationEpoch := "", method := "" }

def EndpointScore.figures (e : EndpointScore) : EndpointScore :=
  { e with address := "", registrationEpoch := "", method := "" }

theorem figures_aggregate (a b : EndpointSample) :
    (aggregateEndpointSample a b).figures = aggregateEndpointSample a.figures b.figures := by
  unfold aggregateEndpointSample
  by_cases h : a.service = "" <;> simp [EndpointSample.figures, h]

theorem figures_foldl (l : List EndpointSample) (a : EndpointSample) :
    (l.foldl aggregateEndpointSample a).figures =
      (l.map EndpointSample.figures).foldl aggregateEndpointSample a.figures := by
  induction l generalizing a with
  | nil => rfl
  | cons b l ih => rw [List.foldl_cons, ih, figures_aggregate, List.map_cons, List.foldl_cons]

theorem aggregate_comm {a b : EndpointSample} (hservice : a.service = b.service) (hid : a.instanceID = b.instanceID)
    (hnamed : a.service ≠ "") (z : EndpointSample) :
    aggregateEndpointSample (aggregateEndpointSample z a.figures) b.figures =
      aggregateEndpointSample (aggregateEndpointSample z b.figures) a.figures := by
  have hnamed' : b.service ≠ "" := hservice ▸ hnamed
  unfold aggregateEndpointSample
  by_cases h : z.service = ""
  · simp [EndpointSample.figures, h, hnamed', hservice, hid, add_comm, max_comm]
  · simp [EndpointSample.figures, h, add_right_comm, max_right_comm]

theorem figures_aggregateOf_perm (hservice : service ≠ "") {samples samples' : List EndpointSample}
    (h : samples.Perm samples') :
    (aggregateOf service id samples).figures = (aggregateOf service id samples').figures := by
  have hown : ∀ s ∈ (samplesOf service id samples).map EndpointSample.figures,
      ∃ t : EndpointSample, t.figures = s ∧ t.service = service ∧ t.instanceID = id := by
    intro s hs
    obtain ⟨t, ht, rfl⟩ := List.mem_map.mp hs
    simp only [samplesOf, List.mem_filter, decide_eq_true_eq] at ht
    exact ⟨t, rfl, ht.2⟩
  unfold aggregateOf
  rw [figures_foldl, figures_foldl]
  apply List.Perm.foldl_eq' ((h.filter _).map _)
  intro a ha b hb z
  obtain ⟨a, rfl, haService, haID⟩ := hown a ha
  obtain ⟨b, rfl, hbService, hbID⟩ := hown b hb
  exact aggregate_comm (haService.trans hbService.symm) (haID.trans hbID.symm) (haService ▸ hservice) z

namespace ScoreCalculator

variable (c : ScoreCalculator)

theorem figures_scoreAmong (service : String) (samples : List EndpointSample) (sample : EndpointSample) :
    (c.scoreAmong service samples sample).figures =
      c.scoreAmong service (samples.map EndpointSample.figures) sample.figures := by
  simp [scoreAmong, EndpointScore.figures, EndpointSample.figures, Function.comp_def]

theorem sample_of_lookup {samples : List EndpointSample} {order : List (String × List EndpointSample)}
    (horder : Visits samples order) {key : String} {e : EndpointScore} (h : (c.calculateIn order).lookup key = some e) :
    ∃ s ∈ samples, s.service ≠ "" ∧ s.instanceID ≠ "" ∧ scoreKey s.service s.instanceID = key := by
  by_contra hnone
  have hframe : (c.calculateIn order).lookup key = (∅ : Dict String EndpointScore).lookup key := by
    apply Dict.lookup_foldl_frame
    intro visit hvisit out
    apply c.lookup_calculateService_frame
    intro aggregate haggregate hkey
    obtain ⟨d, hd, hperm⟩ := horder.own visit hvisit
    obtain ⟨id, hid⟩ := Dict.mem_values.mp (hperm.mem_iff.mp haggregate)
    obtain ⟨hown, s, hs, hservice, hidNamed, hvisited, hsame⟩ := mem_aggregateByService hd hid
    rw [← hvisited, hown, ← hsame] at hkey
    exact hnone ⟨s, hs, hservice, hidNamed, hkey⟩
  rw [h] at hframe
  cases hframe

theorem lookup_of_plain {samples : List EndpointSample} {order : List (String × List EndpointSample)}
    (horder : Visits samples order) (hplain : ∀ s ∈ samples, PlainName s.service) {s : EndpointSample} (hs : s ∈ samples)
    (hservice : s.service ≠ "") (hid : s.instanceID ≠ "") :
    ∃ d, (aggregateByService samples).lookup s.service = some d ∧
      d.lookup s.instanceID = some (aggregateOf s.service s.instanceID samples) ∧
      (c.calculateIn order).lookup (scoreKey s.service s.instanceID) =
        some (c.scoreAmong s.service (Dict.values d) (aggregateOf s.service s.instanceID samples)) := by
  obtain ⟨d, aggregate, hd, haggregate⟩ := aggregateByService_sampled hs hservice hid
  have hfound := lookup_aggregate_of_some hid hd hservice
  rw [if_neg (samplesOf_ne_nil hs rfl rfl)] at hfound
  refine ⟨d, hd, hfound, c.lookup_calculateIn horder hd hfound ?_⟩
  intro t ht _ _ hne hkey
  exact hne ((scoreKey_inj (hplain t ht) (hplain s hs)).mp hkey).1

/-- Reports with the same samples give the same endpoints the same scores, in whatever orders the samples stand
and the maps are visited. -/
theorem scores_of_perm {samples samples' : List EndpointSample} (h : samples.Perm samples')
    (hplain : ∀ s ∈ samples, PlainName s.service) {order order' : List (String × List EndpointSample)}
    (horder : Visits samples order) (horder' : Visits samples' order') (key : String) :
    ((c.calculateIn order).lookup key).map EndpointScore.figures =
      ((c.calculateIn order').lookup key).map EndpointScore.figures := by
  have hplain' : ∀ s ∈ samples', PlainName s.service := fun s hs => hplain s (h.mem_iff.mpr hs)
  by_cases hsampled : ∃ s ∈ samples, s.service ≠ "" ∧ s.instanceID ≠ "" ∧ scoreKey s.service s.instanceID = key
  · obtain ⟨s, hs, hservice, hid, rfl⟩ := hsampled
    obtain ⟨d, hd, hown, hscore⟩ := c.lookup_of_plain horder hplain hs hservice hid
    obtain ⟨d', hd', hown', hscore'⟩ := c.lookup_of_plain horder' hplain' (h.mem_iff.mp hs) hservice hid
    have hvalues : ((Dict.values d).map EndpointSample.figures).Perm ((Dict.values d').map EndpointSample.figures) := by
      apply Dict.values_map_perm
      intro id
      by_cases hempty : id = ""
      · rw [hempty, lookup_aggregate_empty hd, lookup_aggregate_empty hd']
      · rw [lookup_aggregate_of_some hempty hd hservice, lookup_aggregate_of_some hempty hd' hservice]
        have hnil : samplesOf s.service id samples = [] ↔ samplesOf s.service id samples' = [] := by
          have hfilter : (samplesOf s.service id samples).Perm (samplesOf s.service id samples') := h.filter _
          rw [← List.length_eq_zero_iff, hfilter.length_eq, List.length_eq_zero_iff]
        simp only [hnil]
        split
        · rfl
        · rw [Option.map_some, Option.map_some, figures_aggregateOf_perm hservice h]
    rw [hscore, hscore', Option.map_some, Option.map_some, figures_scoreAmong, figures_scoreAmong,
      figures_aggregateOf_perm hservice h, c.scoreAmong_perm hvalues]
  · have hnone : ∀ {e}, (c.calculateIn order).lookup key ≠ some e := fun he => hsampled (c.sample_of_lookup horder he)
    have hnone' : ∀ {e}, (c.calculateIn order').lookup key ≠ some e := by
      intro e he
      obtain ⟨s, hs, hnamed⟩ := c.sample_of_lookup horder' he
      exact hsampled ⟨s, h.mem_iff.mpr hs, hnamed⟩
    rw [Option.eq_none_iff_forall_ne_some.mpr fun e => hnone, Option.eq_none_iff_forall_ne_some.mpr fun e => hnone']

end ScoreCalculator

def methodWindow (method : String) (requestCount errorCount latencyP95 : ℤ) : EndpointSample where
  service := "pay"
  instanceID := "a"
  method := method
  requestCount := requestCount
  errorCount := errorCount
  latencyP95 := latencyP95

theorem scores_of_swapped_methods :
    ((plainCalculator.calculate [methodWindow "get" 10 1 5, methodWindow "put" 20 0 9]).lookup "pay/a").isSome = true ∧
    ((plainCalculator.calculate [methodWindow "get" 10 1 5, methodWindow "put" 20 0 9]).lookup "pay/a").map
        EndpointScore.figures =
      ((plainCalculator.calculate [methodWindow "put" 20 0 9, methodWindow "get" 10 1 5]).lookup "pay/a").map
        EndpointScore.figures := by
  obtain ⟨order, horder, heq⟩ := plainCalculator.calculate_visits [methodWindow "get" 10 1 5, methodWindow "put" 20 0 9]
  obtain ⟨order', horder', heq'⟩ := plainCalculator.calculate_visits [methodWindow "put" 20 0 9, methodWindow "get" 10 1 5]
  refine ⟨by decide +kernel, ?_⟩
  rw [heq, heq']
  refine plainCalculator.scores_of_perm (List.Perm.swap _ _ _) (fun s hs => ?_) horder horder' "pay/a"
  simp only [List.mem_cons, List.not_mem_nil, or_false] at hs
  rcases hs with rfl | rfl <;> unfold PlainName <;> decide

end AegisMesh.Fault
