import AegisMesh.Lib.Ranks
import AegisMesh.Fault.Windows
import AegisMesh.Registry.Basic

/-! # Isolation of endpoints -/

open Lib

namespace AegisMesh.Fault

theorem scoreKey_right_inj {service id id' : String} : scoreKey service id = scoreKey service id' ↔ id = id' := by
  unfold scoreKey
  exact String.append_right_inj _

/-! ## Aggregates -/

theorem aggregateEndpointSample_id {current sample : EndpointSample}
    (h : current.service ≠ "" → current.instanceID = sample.instanceID) :
    (aggregateEndpointSample current sample).instanceID = sample.instanceID := by
  unfold aggregateEndpointSample
  by_cases hservice : current.service = ""
  · rw [if_pos hservice]
  · rw [if_neg hservice]
    exact h hservice

theorem aggregateByService_snoc (samples : List EndpointSample) (sample : EndpointSample) (service : String) :
    (aggregateByService (samples ++ [sample])).lookup service =
      if sample.service ≠ "" ∧ sample.instanceID ≠ "" ∧ sample.service = service then
        some ((((aggregateByService samples).lookup service).getD ∅).insert sample.instanceID
          (aggregateEndpointSample
            (((((aggregateByService samples).lookup service).getD ∅).lookup sample.instanceID).getD {}) sample))
      else (aggregateByService samples).lookup service := by
  simp only [aggregateByService, List.foldl_append, List.foldl_cons, List.foldl_nil]
  generalize List.foldl _ _ samples = byService
  by_cases hnamed : sample.service = "" ∨ sample.instanceID = ""
  · rw [if_pos hnamed, if_neg fun h => hnamed.elim h.1 h.2.1]
  · obtain ⟨hservice, hid⟩ := not_or.mp hnamed
    rw [if_neg hnamed, Dict.lookup_insert']
    by_cases hown : sample.service = service
    · subst hown
      rw [if_pos rfl, if_pos ⟨hservice, hid, rfl⟩]
    · rw [if_neg (Ne.symm hown), if_neg fun h => hown h.2.2]

theorem aggregateByService_own (samples : List EndpointSample) (service : String) :
    (aggregateByService (samples.filter fun sample => sample.service = service)).lookup service =
      (aggregateByService samples).lookup service := by
  induction samples using List.reverseRecOn with
  | nil => rfl
  | append_singleton rest last ih =>
    rw [List.filter_append, aggregateByService_snoc rest]
    by_cases hown : last.service = service
    · rw [List.filter_cons_of_pos (by simpa using hown), List.filter_nil, aggregateByService_snoc, ih]
    · rw [List.filter_cons_of_neg (by simpa using hown), List.filter_nil, List.append_nil, ih,
        if_neg fun h => hown h.2.2]

variable {samples : List EndpointSample} {service id : String}

theorem mem_aggregateByService {serviceSamples : Dict String EndpointSample} {aggregate : EndpointSample}
    (h : (aggregateByService samples).lookup service = some serviceSamples)
    (hid : serviceSamples.lookup id = some aggregate) :
    aggregate.instanceID = id ∧
      ∃ sample ∈ samples, sample.service ≠ "" ∧ sample.instanceID ≠ "" ∧ sample.service = service ∧
        sample.instanceID = id := by
  induction samples using List.reverseRecOn generalizing serviceSamples aggregate with
  | nil => simp [aggregateByService] at h
  | append_singleton rest last ih =>
    have hrest : ∀ {found : Dict String EndpointSample} {before : EndpointSample},
        (aggregateByService rest).lookup service = some found → found.lookup id = some before →
        before.instanceID = id ∧ ∃ sample ∈ rest ++ [last], sample.service ≠ "" ∧ sample.instanceID ≠ "" ∧
          sample.service = service ∧ sample.instanceID = id := by
      intro found before hfound hbefore
      obtain ⟨hown, sample, hmem, hsample⟩ := ih hfound hbefore
      exact ⟨hown, sample, List.mem_append_left _ hmem, hsample⟩
    rw [aggregateByService_snoc] at h
    split_ifs at h with hlast
    · obtain rfl := Option.some.inj h
      rw [Dict.lookup_insert'] at hid
      split_ifs at hid with hsame
      · obtain rfl := Option.some.inj hid
        subst hsame
        refine ⟨aggregateEndpointSample_id fun hservice => ?_, last, by simp, hlast.1, hlast.2.1, hlast.2.2, rfl⟩
        cases hfound : (aggregateByService rest).lookup service with
        | none => simp [hfound] at hservice
        | some found =>
          cases hbefore : found.lookup last.instanceID with
          | none => simp [hfound, hbefore] at hservice
          | some before => simpa [hbefore] using (hrest hfound hbefore).1
      · cases hfound : (aggregateByService rest).lookup service with
        | none => simp [hfound] at hid
        | some found => exact hrest hfound (by simpa [hfound] using hid)
    · exact hrest h hid

theorem aggregateByService_sampled {sample : EndpointSample} (hmem : sample ∈ samples)
    (hservice : sample.service ≠ "") (hid : sample.instanceID ≠ "") :
    ∃ serviceSamples aggregate, (aggregateByService samples).lookup sample.service = some serviceSamples ∧
      serviceSamples.lookup sample.instanceID = some aggregate := by
  induction samples using List.reverseRecOn with
  | nil => simp at hmem
  | append_singleton rest last ih =>
    rw [aggregateByService_snoc]
    by_cases hlast : last.service ≠ "" ∧ last.instanceID ≠ "" ∧ last.service = sample.service
    · rw [if_pos hlast]
      by_cases hsame : sample.instanceID = last.instanceID
      · exact ⟨_, _, rfl, by rw [Dict.lookup_insert', if_pos hsame]⟩
      · have hrest : sample ∈ rest := by
          rcases List.mem_append.mp hmem with hmem | hmem
          · exact hmem
          · exact absurd (congrArg EndpointSample.instanceID (List.mem_singleton.mp hmem)) hsame
        obtain ⟨found, aggregate, hfound, haggregate⟩ := ih hrest
        exact ⟨_, aggregate, rfl, by rw [Dict.lookup_insert', if_neg hsame, hfound, Option.getD_some, haggregate]⟩
    · rw [if_neg hlast]
      refine ih ?_
      rcases List.mem_append.mp hmem with hmem | hmem
      · exact hmem
      · exact absurd (by rw [← List.mem_singleton.mp hmem]; exact ⟨hservice, hid, rfl⟩) hlast

/-! ## Scores in any order

Go visits the entries of a map in any order, and `Calculate` has two such loops.
-/

structure Visits (samples : List EndpointSample) (order : List (String × List EndpointSample)) : Prop where
  once : (order.map Prod.fst).Nodup
  own : ∀ visit ∈ order, ∃ serviceSamples, (aggregateByService samples).lookup visit.1 = some serviceSamples ∧
    visit.2.Perm (Dict.values serviceSamples)
  all : ∀ service serviceSamples, (aggregateByService samples).lookup service = some serviceSamples →
    ∃ visit ∈ order, visit.1 = service

variable {l l' : List ℚ}

theorem eq_nil_iff_of_perm (h : l.Perm l') : l = [] ↔ l' = [] := by
  rw [← List.length_eq_zero_iff, h.length_eq, List.length_eq_zero_iff]

theorem median_perm (h : l.Perm l') : median l = median l' := by
  have hsorted : l.insertionSort (· ≤ ·) = l'.insertionSort (· ≤ ·) :=
    insertionSort_eq (h.trans (List.perm_insertionSort _ l').symm) (List.pairwise_insertionSort _ l')
  simp only [median, hsorted, eq_nil_iff_of_perm h]

theorem average_perm (h : l.Perm l') : average l = average l' := by
  simp only [average, eq_nil_iff_of_perm h, h.sum_eq, h.length_eq]

theorem medianAbsoluteDeviation_perm (h : l.Perm l') (med : ℚ) :
    medianAbsoluteDeviation l med = medianAbsoluteDeviation l' med := by
  simp only [medianAbsoluteDeviation, eq_nil_iff_of_perm h, median_perm (h.map fun value => |value - med|)]

namespace ScoreCalculator

variable (c : ScoreCalculator) {samples : List EndpointSample}

theorem scoreAmong_perm {samples samples' : List EndpointSample} (h : samples.Perm samples') (service : String)
    (sample : EndpointSample) : c.scoreAmong service samples sample = c.scoreAmong service samples' sample := by
  have hlatencies := h.map fun s => seconds s.latencyP95
  simp only [scoreAmong, median_perm hlatencies, medianAbsoluteDeviation_perm hlatencies,
    average_perm (h.map fun s => rate s.errorCount s.requestCount),
    average_perm (h.map fun s => networkRate (s.tcpRetransmit + s.connectError) s.requestCount)]

def calculateIn (order : List (String × List EndpointSample)) : Dict String EndpointScore :=
  order.foldl (fun out visit => c.calculateService visit.1 visit.2 out) ∅

theorem calculate_visits (samples : List EndpointSample) :
    ∃ order, Visits samples order ∧ c.calculate samples = c.calculateIn order := by
  refine ⟨(aggregateByService samples).entries.map fun e => (e.1, Dict.values e.2), ⟨?_, ?_, ?_⟩, ?_⟩
  · rw [List.map_map]
    exact (aggregateByService samples).nodupKeys
  · intro visit hvisit
    obtain ⟨e, he, rfl⟩ := List.mem_map.mp hvisit
    exact ⟨e.2, AList.mem_lookup_iff.mpr he, .refl _⟩
  · intro service serviceSamples h
    exact ⟨_, List.mem_map.mpr ⟨_, AList.mem_lookup_iff.mp h, rfl⟩, rfl⟩
  · rw [calculateIn, List.foldl_map]
    rfl

theorem lookup_calculateService_frame {service key : String}
    (h : ∀ sample ∈ samples, scoreKey service sample.instanceID ≠ key) (out : Dict String EndpointScore) :
    (c.calculateService service samples out).lookup key = out.lookup key := by
  refine Dict.lookup_foldl_frame (fun sample hsample d => ?_) out
  rw [Dict.lookup_insert', if_neg (Ne.symm (h sample hsample))]

theorem lookup_calculateService {service : String} {sample : EndpointSample} (hmem : sample ∈ samples)
    (hone : ∀ other ∈ samples, other.instanceID = sample.instanceID → other = sample)
    (out : Dict String EndpointScore) :
    (c.calculateService service samples out).lookup (scoreKey service sample.instanceID) =
      some (c.scoreAmong service samples sample) := by
  refine Dict.lookup_foldl_write (fun other hother => ?_) ⟨sample, hmem, fun d => ?_⟩ out
  · by_cases hsame : other.instanceID = sample.instanceID
    · rw [hone other hother hsame]
      exact .inr fun d => by rw [Dict.lookup_insert', if_pos rfl]
    · exact .inl fun d => by rw [Dict.lookup_insert', if_neg fun h => hsame (scoreKey_right_inj.mp h).symm]
  · rw [Dict.lookup_insert', if_pos rfl]

theorem lookup_calculateIn {order : List (String × List EndpointSample)} (horder : Visits samples order)
    {service id : String} {serviceSamples : Dict String EndpointSample} {aggregate : EndpointSample}
    (h : (aggregateByService samples).lookup service = some serviceSamples)
    (haggregate : serviceSamples.lookup id = some aggregate)
    (hclear : ∀ sample ∈ samples, sample.service ≠ "" → sample.instanceID ≠ "" → sample.service ≠ service →
      scoreKey sample.service sample.instanceID ≠ scoreKey service id) :
    (c.calculateIn order).lookup (scoreKey service id) =
      some (c.scoreAmong service (Dict.values serviceSamples) aggregate) := by
  have hid := (mem_aggregateByService h haggregate).1
  have hwrite : ∀ visit ∈ order, visit.1 = service → ∀ out,
      (c.calculateService visit.1 visit.2 out).lookup (scoreKey service id) =
        some (c.scoreAmong service (Dict.values serviceSamples) aggregate) := by
    rintro ⟨_, visited⟩ hvisit rfl out
    obtain ⟨found, hfound, hperm⟩ := horder.own _ hvisit
    obtain rfl := Option.some.inj (h.symm.trans hfound)
    rw [← c.scoreAmong_perm hperm, ← hid]
    refine c.lookup_calculateService (hperm.mem_iff.mpr (Dict.mem_values.mpr ⟨id, haggregate⟩)) ?_ out
    intro other hother hsame
    obtain ⟨otherID, hlookup⟩ := Dict.mem_values.mp (hperm.mem_iff.mp hother)
    have hotherID := (mem_aggregateByService h hlookup).1
    rw [← hotherID, hsame, hid, haggregate] at hlookup
    exact (Option.some.inj hlookup).symm
  refine Dict.lookup_foldl_write (fun visit hvisit => ?_) ?_ ∅
  · by_cases hservice : visit.1 = service
    · exact .inr (hwrite visit hvisit hservice)
    · refine .inl fun out => c.lookup_calculateService_frame (fun other hother => ?_) out
      obtain ⟨found, hfound, hperm⟩ := horder.own visit hvisit
      obtain ⟨otherID, hlookup⟩ := Dict.mem_values.mp (hperm.mem_iff.mp hother)
      obtain ⟨hotherID, sample, hsample, hnamed, hidNamed, hsampleService, hsampleID⟩ :=
        mem_aggregateByService hfound hlookup
      rw [hotherID, ← hsampleService, ← hsampleID]
      exact hclear sample hsample hnamed hidNamed (hsampleService ▸ hservice)
  · obtain ⟨visit, hvisit, hservice⟩ := horder.all service serviceSamples h
    exact ⟨visit, hvisit, hwrite visit hvisit hservice⟩

theorem lookup_calculateIn_own {order : List (String × List EndpointSample)} (horder : Visits samples order)
    {service id : String} (hsampled : ∃ sample ∈ samples, sample.service = service ∧ sample.instanceID = id)
    (hservice : service ≠ "") (hid : id ≠ "")
    (hclear : ∀ sample ∈ samples, sample.service ≠ "" → sample.instanceID ≠ "" → sample.service ≠ service →
      scoreKey sample.service sample.instanceID ≠ scoreKey service id) :
    (c.calculateIn order).lookup (scoreKey service id) =
      (c.calculate (samples.filter fun sample => sample.service = service)).lookup (scoreKey service id) := by
  obtain ⟨sample, hmem, rfl, rfl⟩ := hsampled
  obtain ⟨serviceSamples, aggregate, hown, haggregate⟩ := aggregateByService_sampled hmem hservice hid
  obtain ⟨order', horder', hcalculate⟩ := c.calculate_visits (samples.filter fun other => other.service = sample.service)
  rw [c.lookup_calculateIn horder hown haggregate hclear, hcalculate]
  refine (c.lookup_calculateIn horder' ((aggregateByService_own _ _).trans hown) haggregate ?_).symm
  intro other hother _ _ hne
  exact absurd (by simpa using (List.mem_filter.mp hother).2) hne

end ScoreCalculator

/-! ## Isolation -/

def Clashes (service id service' id' : String) : Prop :=
  service' ≠ "" ∧ id' ≠ "" ∧ ¬ (service' = service ∧ id' = id) ∧ scoreKey service' id' = scoreKey service id

theorem samplesUnder_eq_nil_iff (h : ∀ sample ∈ samples, ¬ (sample.service = service ∧ sample.instanceID = id)) :
    samplesUnder (scoreKey service id) samples = [] ↔
      ∀ sample ∈ samples, ¬ Clashes service id sample.service sample.instanceID := by
  simp only [samplesUnder, List.filter_eq_nil_iff, EndpointSample.under, Bool.and_eq_true, decide_eq_true_eq, Clashes]
  constructor
  · rintro hnone sample hmem ⟨hservice, hid, -, hkey⟩
    exact hnone sample hmem ⟨⟨hservice, hid⟩, hkey⟩
  · rintro hclear sample hmem ⟨⟨hservice, hid⟩, hkey⟩
    exact hclear sample hmem ⟨hservice, hid, h sample hmem, hkey⟩

theorem update_isolated_iff (h : ∀ sample ∈ samples, ¬ (sample.service = service ∧ sample.instanceID = id)) :
    (∀ (m : HealthManager) (now wall : ℕ), (m.update samples now wall).get service id = m.get service id) ↔
      ∀ sample ∈ samples, ¬ Clashes service id sample.service sample.instanceID := by
  rw [← samplesUnder_eq_nil_iff h]
  constructor
  · intro hsame
    by_contra hsampled
    -- A manager without records gets one for the endpoint.
    have hget := hsame { calculator := newScoreCalculator {} 0, baseStateMachine := {} } 0 0
    have hsome := HealthManager.get_update_isSome { calculator := newScoreCalculator {} 0, baseStateMachine := {} }
      hsampled 0 0
    rw [hget] at hsome
    exact absurd hsome (by simp [HealthManager.get])
  · intro hnone m now wall
    exact m.get_update_unsampled hnone now wall

/-! ## Two services with one key -/

def quiet (service id : String) : EndpointSample := { service, instanceID := id }

def loaded (service id : String) : EndpointSample := { service, instanceID := id, inflight := 100 }

def plainCalculator : ScoreCalculator := newScoreCalculator {} 0

section Clash

variable {service id service' id' : String}

theorem lookup_aggregate_pair (hservice : service ≠ "") (hid : id ≠ "") (hservice' : service' ≠ "") (hid' : id' ≠ "")
    (hne : service' ≠ service) (asked : String) :
    (aggregateByService [quiet service id, loaded service' id']).lookup asked =
      if service' = asked then some (AList.insert id' (loaded service' id') ∅)
      else if service = asked then some (AList.insert id (quiet service id) ∅)
      else none := by
  have hfirst : ∀ asked, (aggregateByService [quiet service id]).lookup asked =
      if service = asked then some (AList.insert id (quiet service id) ∅) else none := by
    intro asked
    rw [← List.nil_append [quiet service id], aggregateByService_snoc]
    simp [quiet, hservice, hid, aggregateByService, aggregateEndpointSample]
  rw [← List.singleton_append, aggregateByService_snoc, hfirst]
  by_cases hasked : service' = asked
  · subst hasked
    simp [loaded, hservice', hid', Ne.symm hne, aggregateEndpointSample]
  · simp [loaded, hasked]

theorem visits_pair (hservice : service ≠ "") (hid : id ≠ "") (hservice' : service' ≠ "") (hid' : id' ≠ "")
    (hne : service' ≠ service) :
    Visits [quiet service id, loaded service' id']
      [(service, [quiet service id]), (service', [loaded service' id'])] where
  once := by simp [Ne.symm hne]
  own visit hvisit := by
    rw [lookup_aggregate_pair hservice hid hservice' hid' hne]
    simp only [List.mem_cons, List.not_mem_nil, or_false] at hvisit
    rcases hvisit with rfl | rfl
    · exact ⟨_, by rw [if_neg hne, if_pos rfl], .refl _⟩
    · exact ⟨_, if_pos rfl, .refl _⟩
  all asked serviceSamples h := by
    rw [lookup_aggregate_pair hservice hid hservice' hid' hne] at h
    split_ifs at h with hsecond hfirst
    · exact ⟨(service', [loaded service' id']), by simp, hsecond⟩
    · exact ⟨(service, [quiet service id]), by simp, hfirst⟩

theorem score_quiet : (plainCalculator.scoreAmong service [quiet service id] (quiet service id)).score = 0 := by
  simp [plainCalculator, newScoreCalculator, ScoreCalculator.scoreAmong, quiet, median, medianAbsoluteDeviation,
    seconds, ScoreCalculator.absoluteLatencyScore]

theorem score_loaded : (plainCalculator.scoreAmong service [loaded service id] (loaded service id)).score = 1 / 5 := by
  simp [plainCalculator, newScoreCalculator, ScoreCalculator.scoreAmong, loaded, median, medianAbsoluteDeviation,
    seconds, ScoreCalculator.absoluteLatencyScore, defaultScoreWeights, capacityOf]
  norm_num

theorem score_pair (hclash : Clashes service id service' id') :
    ((plainCalculator.calculateIn [(service, [quiet service id]), (service', [loaded service' id'])]).lookup
      (scoreKey service id)).map EndpointScore.score = some (1 / 5) := by
  simp only [ScoreCalculator.calculateIn, List.foldl_cons, List.foldl_nil]
  rw [← hclash.2.2.2]
  have hlast : (plainCalculator.calculateService service' [loaded service' id']
      (plainCalculator.calculateService service [quiet service id] ∅)).lookup (scoreKey service' id') =
      some (plainCalculator.scoreAmong service' [loaded service' id'] (loaded service' id')) :=
    plainCalculator.lookup_calculateService (List.mem_singleton_self (loaded service' id'))
      (fun other hother _ => List.mem_singleton.mp hother) _
  rw [hlast, Option.map_some, score_loaded]

theorem score_own (hservice : service ≠ "") (hid : id ≠ "") (hservice' : service' ≠ "") (hid' : id' ≠ "")
    (hne : service' ≠ service) :
    ((plainCalculator.calculate ([quiet service id, loaded service' id'].filter fun sample =>
      sample.service = service)).lookup (scoreKey service id)).map EndpointScore.score = some 0 := by
  have hown : (aggregateByService ([quiet service id, loaded service' id'].filter fun sample =>
      sample.service = service)).lookup service = some (AList.insert id (quiet service id) ∅) := by
    rw [aggregateByService_own, lookup_aggregate_pair hservice hid hservice' hid' hne, if_neg hne, if_pos rfl]
  obtain ⟨order, horder, hcalculate⟩ := plainCalculator.calculate_visits
    ([quiet service id, loaded service' id'].filter fun sample => sample.service = service)
  rw [hcalculate, plainCalculator.lookup_calculateIn horder hown (AList.lookup_insert _), Option.map_some]
  · exact congrArg some score_quiet
  · intro sample hsample _ _ hother
    exact absurd (by simpa using (List.mem_filter.mp hsample).2) hother

end Clash

/-- Update leaves an endpoint without a sample alone, and a service's scores are its own, exactly as long
as no endpoint of another name has the key. -/
theorem endpoints_isolated_iff {service id : String} (hservice : service ≠ "") (hid : id ≠ "") :
    (∀ samples : List EndpointSample,
      (∀ sample ∈ samples, ¬ (sample.service = service ∧ sample.instanceID = id)) →
      ((∀ (m : HealthManager) (now wall : ℕ), (m.update samples now wall).get service id = m.get service id) ↔
        ∀ sample ∈ samples, ¬ Clashes service id sample.service sample.instanceID)) ∧
    ∀ others : String → String → Prop,
      (∀ (c : ScoreCalculator) (samples : List EndpointSample) (order : List (String × List EndpointSample)),
        Visits samples order → (∃ sample ∈ samples, sample.service = service ∧ sample.instanceID = id) →
        (∀ sample ∈ samples, sample.service ≠ service → others sample.service sample.instanceID) →
        ((c.calculateIn order).lookup (scoreKey service id)).map EndpointScore.score =
          ((c.calculate (samples.filter fun sample => sample.service = service)).lookup (scoreKey service id)).map
            EndpointScore.score) ↔
      ∀ service' id', service' ≠ service → others service' id' → ¬ Clashes service id service' id' := by
  refine ⟨fun samples h => update_isolated_iff h, fun others => ⟨?_, ?_⟩⟩
  · intro h service' id' hne hothers hclash
    have hvisits := visits_pair hservice hid hclash.1 hclash.2.1 hne
    have hsame := h plainCalculator _ _ hvisits ⟨quiet service id, by simp, rfl, rfl⟩ (by
      intro sample hsample hother
      simp only [List.mem_cons, List.not_mem_nil, or_false] at hsample
      rcases hsample with rfl | rfl
      · exact absurd rfl hother
      · exact hothers)
    rw [score_pair hclash, score_own hservice hid hclash.1 hclash.2.1 hne] at hsame
    norm_num at hsame
  · intro hclear c samples order horder hsampled hothers
    rw [c.lookup_calculateIn_own horder hsampled hservice hid]
    intro sample hsample hnamed hidNamed hne hkey
    exact hclear _ _ hne (hothers sample hsample hne) ⟨hnamed, hidNamed, fun h => hne h.1, hkey⟩

theorem slash_shares_record :
    let m : HealthManager := { calculator := plainCalculator, baseStateMachine := {} }
    (m.get "a/b" "c").isNone = true ∧ ((m.update [quiet "a" "b/c"] 1 1).get "a/b" "c").isSome = true ∧
    ({ id := "b/c", service := "a", address := "10.0.0.1:80" } : Registry.Instance).named = true ∧
    ({ id := "c", service := "a/b", address := "10.0.0.2:80" } : Registry.Instance).named = true := by
  decide +kernel

theorem plain_names_isolated :
    let m : HealthManager := { calculator := plainCalculator, baseStateMachine := {} }
    (m.update [quiet "a" "c", loaded "b" "c"] 1 1).get "order" "c" = m.get "order" "c" :=
  ((@endpoints_isolated_iff "order" "c" (by decide) (by decide)).1 [quiet "a" "c", loaded "b" "c"] (by decide)).mpr
    (by unfold Clashes; decide) _ 1 1

end AegisMesh.Fault
