import TiktokSigner.SignLab.Differential

/-!
# The comparison is exact

What is reported of two lists of parameters, name by name: `Exact` says how
often each difference occurs in the report. The three partial views of a
list, its counts, its sequence of names and the values of each name, are all
of it, so an empty report means equality (`compareParameters_eq_nil_iff`).
-/

namespace TiktokSigner.SignLab

open Gather Occurrences

/-! ## Values -/

/-- The digests of a name. -/
def digestsOf (name : String) (parameters : List ObservedParameter) : List ValueDigest :=
  valuesOf ObservedParameter.name ObservedParameter.value name parameters

theorem candidateByName_eq (candidate : List ObservedParameter) (name : String) :
    candidateByName candidate name = digestsOf name candidate := by
  have hloop : ∀ byName : String → List ValueDigest,
      candidate.foldl (fun byName parameter =>
          modify byName parameter.name (· ++ [parameter.value])) byName name
        = byName name ++ digestsOf name candidate := by
    induction candidate with
    | nil => exact fun byName => (List.append_nil _).symm
    | cons parameter candidate ih =>
      intro byName
      rw [List.foldl_cons, ih]
      by_cases hname : parameter.name = name
      · subst hname
        rw [modify_self, digestsOf, digestsOf, valuesOf_cons_self, List.append_assoc]
        rfl
      · rw [modify_of_ne _ _ (Ne.symm hname), digestsOf, digestsOf, valuesOf_cons_of_ne hname]
  exact hloop fun _ => []

def Difference.isValueOf (name : String) : Difference → Bool
  | .parameterValue other _ _ => other = name
  | _ => false

/-- The pairs of digests that differ, of one occurrence each. -/
def differing (name : String) (oracle candidate : List ValueDigest) : List Difference :=
  ((oracle.zip candidate).filter fun pair => pair.1 ≠ pair.2).map fun pair =>
    .parameterValue name pair.1 pair.2

theorem differing_self (name : String) (digests : List ValueDigest) :
    differing name digests digests = [] := by
  rw [differing, List.map_eq_nil_iff, List.filter_eq_nil_iff]
  intro pair hpair
  have hsame : pair.1 = pair.2 := by
    obtain ⟨i, hi, rfl⟩ := List.mem_iff_getElem.mp hpair
    rw [List.getElem_zip]
  simp [hsame]

theorem eq_of_differing {name : String} {oracle candidate : List ValueDigest}
    (h : differing name oracle candidate = []) (hlength : oracle.length = candidate.length) :
    oracle = candidate := by
  rw [differing, List.map_eq_nil_iff, List.filter_eq_nil_iff] at h
  refine List.ext_getElem hlength fun i hi hi' => ?_
  have hmem : (oracle[i], candidate[i]) ∈ oracle.zip candidate := by
    have hzip : i < (oracle.zip candidate).length := by
      rw [List.length_zip]
      exact Nat.lt_min.mpr ⟨hi, hi'⟩
    have hpair := List.getElem_mem hzip
    rwa [List.getElem_zip] at hpair
  simpa using h _ hmem

/-- What the last loop pushes for a name, from the occurrence it has come to. -/
theorem filter_compareValues (byName : String → List ValueDigest) (name : String)
    (occurrences : String → Nat) (oracle : List ObservedParameter) :
    (compareValues byName occurrences oracle).filter (Difference.isValueOf name)
      = differing name (digestsOf name oracle) ((byName name).drop (occurrences name)) := by
  induction oracle generalizing occurrences with
  | nil => simp [compareValues, differing, digestsOf, valuesOf]
  | cons parameter oracle ih =>
    rw [compareValues, List.filter_append, ih]
    by_cases hname : parameter.name = name
    · subst hname
      rw [modify_self, digestsOf, digestsOf, valuesOf_cons_self]
      cases hvalue : (byName parameter.name)[occurrences parameter.name]? with
      | none =>
        have hlength := List.getElem?_eq_none_iff.mp hvalue
        rw [List.drop_eq_nil_of_le hlength, List.drop_eq_nil_of_le (Nat.le_succ_of_le hlength)]
        simp [differing]
      | some value =>
        obtain ⟨hlt, hget⟩ := List.getElem?_eq_some_iff.mp hvalue
        rw [List.drop_eq_getElem_cons hlt, hget]
        by_cases hsame : parameter.value = value
        · simp [differing, hsame]
        · simp [differing, hsame, Difference.isValueOf]
    · have hother : ∀ value : ValueDigest, (if parameter.value ≠ value then
          [Difference.parameterValue parameter.name parameter.value value] else []).filter
            (Difference.isValueOf name) = [] := by
        intro value
        split_ifs <;> simp [Difference.isValueOf, hname]
      rw [modify_of_ne _ _ (Ne.symm hname), digestsOf, digestsOf, valuesOf_cons_of_ne hname]
      cases (byName parameter.name)[occurrences parameter.name]? with
      | none => rfl
      | some value =>
        dsimp only
        rw [hother, List.nil_append]

theorem mem_compareValues {byName : String → List ValueDigest} {occurrences : String → Nat}
    {oracle : List ObservedParameter} {difference : Difference}
    (h : difference ∈ compareValues byName occurrences oracle) :
    ∃ name, difference.isValueOf name = true := by
  induction oracle generalizing occurrences with
  | nil => cases h
  | cons parameter oracle ih =>
    rcases List.mem_append.mp h with hhead | hrest
    · cases hvalue : (byName parameter.name)[occurrences parameter.name]? with
      | none => simp [hvalue] at hhead
      | some value =>
        simp only [hvalue] at hhead
        split_ifs at hhead with hsame
        · obtain rfl := List.mem_singleton.mp hhead
          exact ⟨parameter.name, by simp [Difference.isValueOf]⟩
        · cases hhead
    · exact ih hrest

/-! ## Reports -/

/-- What a report on two lists of parameters says. -/
structure Exact (oracle candidate : List ObservedParameter) (report : List Difference) : Prop where
  missing : ∀ name, report.count (.missingParameter name)
    = (oracle.map ObservedParameter.name).count name
      - (candidate.map ObservedParameter.name).count name
  unexpected : ∀ name, report.count (.unexpectedParameter name)
    = (candidate.map ObservedParameter.name).count name
      - (oracle.map ObservedParameter.name).count name
  order : .parameterOrder ∈ report
    ↔ (oracle.map ObservedParameter.name).Perm (candidate.map ObservedParameter.name)
      ∧ oracle.map ObservedParameter.name ≠ candidate.map ObservedParameter.name
  values : ∀ name, report.filter (Difference.isValueOf name)
    = differing name (digestsOf name oracle) (digestsOf name candidate)

theorem count_counts (name : String) (parameters : List ObservedParameter) :
    (counts parameters).count name = (parameters.map ObservedParameter.name).count name :=
  Multiset.coe_count name _

section Parts

variable (order : HashOrder) (more fewer : List ObservedParameter)

/-- The first loops: what one side has more of. -/
def surplus (push : String → Difference) : List Difference :=
  (order.keys (counts more)).flatMap fun name =>
    List.replicate ((counts more).count name - (counts fewer).count name) (push name)

theorem count_surplus {push : String → Difference} (hpush : Function.Injective push)
    (name : String) :
    (surplus order more fewer push).count (push name)
      = (more.map ObservedParameter.name).count name
        - (fewer.map ObservedParameter.name).count name := by
  rw [surplus, count_flatMap_replicate hpush (order.nodup _), count_counts, count_counts]
  split_ifs with hkey
  · rfl
  · rw [order.mem, ← Multiset.count_pos, count_counts] at hkey
    omega

theorem mem_surplus {push : String → Difference} {difference : Difference}
    (h : difference ∈ surplus order more fewer push) : ∃ name, difference = push name := by
  obtain ⟨name, _, hmem⟩ := List.mem_flatMap.mp h
  exact ⟨name, (List.mem_replicate.mp hmem).2⟩

end Parts

variable (oracleOrder candidateOrder : HashOrder)

/-- The third part. -/
def orderPart (oracle candidate : List ObservedParameter) : List Difference :=
  if counts oracle = counts candidate
      ∧ oracle.map ObservedParameter.name ≠ candidate.map ObservedParameter.name then
    [.parameterOrder]
  else []

theorem mem_orderPart {oracle candidate : List ObservedParameter} {difference : Difference} :
    difference ∈ orderPart oracle candidate ↔ difference = .parameterOrder
      ∧ (oracle.map ObservedParameter.name).Perm (candidate.map ObservedParameter.name)
      ∧ oracle.map ObservedParameter.name ≠ candidate.map ObservedParameter.name := by
  rw [← Multiset.coe_eq_coe, orderPart]
  split_ifs with horder
  · rw [List.mem_singleton]
    exact ⟨fun h => ⟨h, horder⟩, fun h => h.1⟩
  · exact ⟨fun h => (by cases h), fun h => absurd h.2 horder⟩

theorem compareParameters_parts (oracle candidate : List ObservedParameter) :
    compareParameters oracleOrder candidateOrder oracle candidate
      = surplus oracleOrder oracle candidate .missingParameter
        ++ surplus candidateOrder candidate oracle .unexpectedParameter
        ++ orderPart oracle candidate
        ++ compareValues (candidateByName candidate) (fun _ => 0) oracle := rfl

theorem exact_compareParameters (oracle candidate : List ObservedParameter) :
    Exact oracle candidate (compareParameters oracleOrder candidateOrder oracle candidate) := by
  have hmissing : Function.Injective Difference.missingParameter := fun _ _ h =>
    Difference.missingParameter.inj h
  have hunexpected : Function.Injective Difference.unexpectedParameter := fun _ _ h =>
    Difference.unexpectedParameter.inj h
  have hsurplus : ∀ order more fewer push difference, (∀ name, difference ≠ push name) →
      difference ∉ surplus order more fewer push := by
    intro order more fewer push difference hne h
    obtain ⟨name, hname⟩ := mem_surplus order more fewer h
    exact hne name hname
  have horder : ∀ difference, difference ≠ .parameterOrder →
      difference ∉ orderPart oracle candidate := fun difference hne h => hne (mem_orderPart.mp h).1
  have hvalues : ∀ difference : Difference, (∀ name, difference.isValueOf name = false) →
      difference ∉ compareValues (candidateByName candidate) (fun _ => 0) oracle := by
    intro difference hne h
    obtain ⟨name, hname⟩ := mem_compareValues h
    rw [hne name] at hname
    cases hname
  rw [compareParameters_parts]
  constructor
  · intro name
    rw [List.count_append, List.count_append, List.count_append, count_surplus _ _ _ hmissing,
      List.count_eq_zero.mpr (hsurplus _ _ _ .unexpectedParameter _ fun _ h => by cases h),
      List.count_eq_zero.mpr (horder _ fun h => by cases h),
      List.count_eq_zero.mpr (hvalues _ fun _ => rfl)]
    rfl
  · intro name
    rw [List.count_append, List.count_append, List.count_append, count_surplus _ _ _ hunexpected,
      List.count_eq_zero.mpr (hsurplus _ _ _ .missingParameter _ fun _ h => by cases h),
      List.count_eq_zero.mpr (horder _ fun h => by cases h),
      List.count_eq_zero.mpr (hvalues _ fun _ => rfl)]
    omega
  · simp only [List.mem_append, mem_orderPart, true_and]
    have hfirst := hsurplus oracleOrder oracle candidate .missingParameter .parameterOrder
      fun _ h => by cases h
    have hsecond := hsurplus candidateOrder candidate oracle .unexpectedParameter .parameterOrder
      fun _ h => by cases h
    have hlast := hvalues .parameterOrder fun _ => rfl
    tauto
  · intro name
    have hnone : ∀ part : List Difference, (∀ difference ∈ part,
        difference.isValueOf name = false) → part.filter (Difference.isValueOf name) = [] :=
      fun part h => List.filter_eq_nil_iff.mpr fun difference hmem => by simp [h difference hmem]
    rw [List.filter_append, List.filter_append, List.filter_append, hnone (surplus oracleOrder ..),
      hnone (surplus candidateOrder ..), hnone (orderPart ..), filter_compareValues,
      candidateByName_eq, List.drop_zero]
    · rfl
    · intro difference h
      rw [(mem_orderPart.mp h).1]
      rfl
    · intro difference h
      obtain ⟨other, rfl⟩ := mem_surplus _ _ _ h
      rfl
    · intro difference h
      obtain ⟨other, rfl⟩ := mem_surplus _ _ _ h
      rfl

/-- A report that says nothing says that the lists are one. -/
theorem Exact.eq_of_nil {oracle candidate : List ObservedParameter}
    (h : Exact oracle candidate []) : oracle = candidate := by
  have hcount : ∀ name, (oracle.map ObservedParameter.name).count name
      = (candidate.map ObservedParameter.name).count name := by
    intro name
    have hmissing := h.missing name
    have hunexpected := h.unexpected name
    rw [List.count_nil] at hmissing hunexpected
    omega
  have hperm := List.perm_iff_count.mpr hcount
  have hnames : oracle.map ObservedParameter.name = candidate.map ObservedParameter.name := by
    by_contra hne
    exact absurd (h.order.mpr ⟨hperm, hne⟩) List.not_mem_nil
  have hpair : ∀ a b : ObservedParameter, a.name = b.name → a.value = b.value → a = b := by
    rintro ⟨_, _⟩ ⟨_, _⟩ rfl rfl
    rfl
  refine eq_of_valuesOf hpair hnames fun name => ?_
  have hlength : (digestsOf name oracle).length = (digestsOf name candidate).length := by
    rw [digestsOf, digestsOf, length_valuesOf, length_valuesOf, hnames]
  exact eq_of_differing (h.values name).symm hlength

theorem compareParameters_self (parameters : List ObservedParameter) :
    compareParameters oracleOrder candidateOrder parameters parameters = [] := by
  have hsurplus : ∀ order push, surplus order parameters parameters push = [] := by
    intro order push
    refine List.flatMap_eq_nil_iff.mpr fun name _ => ?_
    rw [Nat.sub_self]
    rfl
  have horder : orderPart parameters parameters = [] := if_neg fun h => h.2 rfl
  have hvalues : compareValues (candidateByName parameters) (fun _ => 0) parameters = [] := by
    refine List.eq_nil_iff_forall_not_mem.mpr fun difference hmem => ?_
    obtain ⟨name, hname⟩ := mem_compareValues hmem
    have hfilter := List.mem_filter.mpr ⟨hmem, hname⟩
    rw [filter_compareValues, candidateByName_eq, List.drop_zero, differing_self] at hfilter
    cases hfilter
  rw [compareParameters_parts, hsurplus, hsurplus, horder, hvalues]
  rfl

theorem compareParameters_eq_nil_iff (oracle candidate : List ObservedParameter) :
    compareParameters oracleOrder candidateOrder oracle candidate = [] ↔ oracle = candidate := by
  constructor
  · intro hnil
    have hexact := exact_compareParameters oracleOrder candidateOrder oracle candidate
    rw [hnil] at hexact
    exact hexact.eq_of_nil
  · rintro rfl
    exact compareParameters_self oracleOrder candidateOrder oracle

/-! ## Observations -/

theorem pushDifference_eq_nil {α : Type} [DecidableEq α] {oracle candidate : α}
    {difference : Difference} : pushDifference oracle candidate difference = [] ↔ oracle = candidate := by
  unfold pushDifference
  split_ifs with hne
  · exact ⟨fun h => (by cases h), fun h => absurd h hne⟩
  · exact ⟨fun _ => not_not.mp hne, fun _ => rfl⟩

theorem compareTransport_eq_nil_iff (oracle candidate : TransportObservation) :
    compareTransport oracleOrder candidateOrder oracle candidate = [] ↔ oracle = candidate := by
  simp only [compareTransport, List.append_eq_nil_iff, pushDifference_eq_nil,
    compareParameters_eq_nil_iff]
  constructor
  · rintro ⟨⟨⟨⟨⟨hendpoint, hcursor⟩, hext⟩, hheartbeat⟩, hack⟩, hparams⟩
    cases oracle
    cases candidate
    simp_all
  · rintro rfl
    exact ⟨⟨⟨⟨⟨rfl, rfl⟩, rfl⟩, rfl⟩, rfl⟩, rfl⟩

theorem compareTransports_eq_nil_iff (oracle candidate : Option TransportObservation) :
    compareTransports oracleOrder candidateOrder oracle candidate = [] ↔ oracle = candidate := by
  cases oracle <;> cases candidate <;> simp [compareTransports, compareTransport_eq_nil_iff]

theorem compareObservations_eq_nil_iff {Metadata : Type}
    (oracle candidate : RecordedObservation Metadata) :
    compareObservations oracleOrder candidateOrder oracle candidate = []
      ↔ oracle.toObservation = candidate.toObservation := by
  simp only [compareObservations, List.append_eq_nil_iff, pushDifference_eq_nil,
    compareTransports_eq_nil_iff]
  constructor
  · rintro ⟨⟨⟨⟨houtcome, hagent⟩, hcookies⟩, hsame⟩, hprotobuf⟩
    cases oracle with
    | mk oracle _ =>
      cases candidate with
      | mk candidate _ =>
        cases oracle
        cases candidate
        simp_all
  · intro hsame
    rw [hsame]
    exact ⟨⟨⟨⟨rfl, rfl⟩, rfl⟩, rfl⟩, rfl⟩

/-- Every report is exact, and an empty one certifies equality. -/
theorem comparison_is_exact (oracleOrder candidateOrder : HashOrder) :
    (∀ oracle candidate : List ObservedParameter,
      (compareParameters oracleOrder candidateOrder oracle candidate = [] ↔ oracle = candidate)
        ∧ Exact oracle candidate (compareParameters oracleOrder candidateOrder oracle candidate))
      ∧ ∀ (Metadata : Type) (oracle candidate : RecordedObservation Metadata),
        compareObservations oracleOrder candidateOrder oracle candidate = []
          ↔ oracle.toObservation = candidate.toObservation := by
  refine ⟨fun oracle candidate => ⟨?_, ?_⟩, fun Metadata oracle candidate => ?_⟩
  · exact compareParameters_eq_nil_iff oracleOrder candidateOrder oracle candidate
  · exact exact_compareParameters oracleOrder candidateOrder oracle candidate
  · exact compareObservations_eq_nil_iff oracleOrder candidateOrder oracle candidate

end TiktokSigner.SignLab
