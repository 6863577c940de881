import TiktokSigner.SignLab.EnvironmentSurface

/-!
# Surfaces and the order of recording

What `buildEnvironmentSurface` makes of the accesses of a path is their
`summary`. All of it but the value class is a sum, a set or a type that only
widens; the class is the first that comes. What is kept of the
instrumentation of a root depends on what stands next to what. So a
surface is canonical exactly when the accesses of a path agree on their
class and the entries of a root are equal (`surface_canonical_iff`).
-/

namespace TiktokSigner.SignLab

open Gather KeyedSort Keyed

/-! ## Summaries -/

/-- The accesses of a path. -/
def touching (path : String) (accesses : List PropertyAccess) : List PropertyAccess :=
  accesses.filter fun access => access.path = path

def operationsOf (accesses : List PropertyAccess) : AccessOps where
  gets := (accesses.map fun access => access.operations.gets).sum
  sets := (accesses.map fun access => access.operations.sets).sum
  calls := (accesses.map fun access => access.operations.calls).sum
  has := (accesses.map fun access => access.operations.has).sum

def lengthsOf (accesses : List PropertyAccess) : List Nat :=
  (accesses.flatMap PropertyAccess.byteLengths).toFinset.sort

/-- The one type of all, or none of them. -/
def widest : List ValueType → ValueType
  | [] => .unknown
  | type :: types => if ∀ other ∈ types, other = type then type else .unknown

/-- What the accesses of a path come to. -/
def summary (path : String) (accesses : List PropertyAccess) : PropertyAccess where
  path := path
  root := .of path
  operations := operationsOf accesses
  valueType := widest (accesses.map PropertyAccess.valueType)
  valueClass := (accesses.filterMap PropertyAccess.valueClass).head?
  byteLengths := lengthsOf accesses

/-- All have the type, and there are some. -/
def AllOf (type : ValueType) (types : List ValueType) : Prop :=
  types ≠ [] ∧ ∀ other ∈ types, other = type

theorem widest_of_all {type : ValueType} {types : List ValueType} (h : AllOf type types) :
    widest types = type := by
  obtain ⟨hne, hall⟩ := h
  cases types with
  | nil => exact absurd rfl hne
  | cons first types =>
    obtain rfl := hall first List.mem_cons_self
    exact if_pos fun other hother => hall other (List.mem_cons_of_mem _ hother)

theorem widest_of_none {types : List ValueType} (h : ¬∃ type, AllOf type types) :
    widest types = .unknown := by
  cases types with
  | nil => rfl
  | cons first types =>
    refine if_neg fun hall => h ⟨first, List.cons_ne_nil _ _, fun other hother => ?_⟩
    rcases List.mem_cons.mp hother with rfl | hother
    · rfl
    · exact hall other hother

theorem widest_concat {types : List ValueType} (hne : types ≠ []) (type : ValueType) :
    widest (types ++ [type]) = if widest types ≠ type then .unknown else widest types := by
  by_cases hall : ∃ known, AllOf known types
  · obtain ⟨known, hknown⟩ := hall
    rw [widest_of_all hknown]
    split_ifs with hother
    · refine widest_of_none fun ⟨other, _, hboth⟩ => hother ?_
      obtain ⟨first, hfirst⟩ := List.exists_mem_of_ne_nil types hne
      rw [← hknown.2 first hfirst, hboth first (List.mem_append_left _ hfirst),
        hboth type (by simp)]
    · obtain rfl := not_not.mp hother
      refine widest_of_all ⟨by simp, fun other hmem => ?_⟩
      rcases List.mem_append.mp hmem with hmem | hmem
      · exact hknown.2 other hmem
      · exact List.mem_singleton.mp hmem
  · rw [widest_of_none hall, ite_self]
    exact widest_of_none fun ⟨other, _, hboth⟩ =>
      hall ⟨other, hne, fun known hknown => hboth known (List.mem_append_left _ hknown)⟩

/-- Only which types there are counts. -/
theorem widest_of_perm {types types' : List ValueType} (h : types.Perm types') :
    widest types = widest types' := by
  have hall : ∀ type, AllOf type types → AllOf type types' := fun type ⟨hne, hall⟩ =>
    ⟨fun hnil => hne (hnil ▸ h).eq_nil, fun other hother => hall other (h.mem_iff.mpr hother)⟩
  by_cases hsame : ∃ type, AllOf type types
  · obtain ⟨type, htype⟩ := hsame
    rw [widest_of_all htype, widest_of_all (hall type htype)]
  · rw [widest_of_none hsame, widest_of_none fun ⟨type, hne, htype⟩ => hsame
      ⟨type, fun hnil => hne (hnil ▸ h.symm).eq_nil, fun other hother =>
        htype other (h.mem_iff.mp hother)⟩]

theorem summary_singleton (access : PropertyAccess) :
    access.first = summary access.path [access] := by
  simp [PropertyAccess.first, summary, operationsOf, lengthsOf, widest]

theorem summary_concat {path : String} {accesses : List PropertyAccess} (hne : accesses ≠ [])
    (access : PropertyAccess) :
    (summary path accesses).absorb access = summary path (accesses ++ [access]) := by
  have hlengths : ((lengthsOf accesses).toFinset ∪ access.byteLengths.toFinset).sort
      = lengthsOf (accesses ++ [access]) := by
    simp [lengthsOf]
  have htypes : (if widest (accesses.map PropertyAccess.valueType) ≠ access.valueType
      then ValueType.unknown else widest (accesses.map PropertyAccess.valueType))
        = widest ((accesses ++ [access]).map PropertyAccess.valueType) := by
    rw [List.map_append, List.map_singleton, widest_concat (by simpa using hne)]
  have hclass : (if (accesses.filterMap PropertyAccess.valueClass).head?.isNone
      then access.valueClass else (accesses.filterMap PropertyAccess.valueClass).head?)
        = ((accesses ++ [access]).filterMap PropertyAccess.valueClass).head? := by
    rw [List.filterMap_append, List.head?_append]
    cases (accesses.filterMap PropertyAccess.valueClass).head? with
    | some known => rfl
    | none =>
      cases hvalue : access.valueClass with
      | none => simp [hvalue]
      | some known => simp [hvalue]
  have hoperations : (operationsOf accesses).merge access.operations
      = operationsOf (accesses ++ [access]) := by
    simp [operationsOf, AccessOps.merge]
  simp only [PropertyAccess.absorb, summary, PropertyAccess.mk.injEq]
  exact ⟨trivial, trivial, hoperations, htypes, hclass, hlengths⟩

/-- A path holds the summary of its accesses. -/
theorem mergeAccesses_eq (path : String) (accesses : List PropertyAccess) :
    mergeAccesses accesses path = if touching path accesses = [] then none
      else some (summary path (touching path accesses)) := by
  induction accesses using List.reverseRecOn with
  | nil => rfl
  | append_singleton accesses access ih =>
    have hstep : mergeAccesses (accesses ++ [access])
        = mergeAccess (mergeAccesses accesses) access := by
      rw [mergeAccesses, List.foldl_append, ← mergeAccesses]
      rfl
    rw [hstep, mergeAccess]
    by_cases hpath : access.path = path
    · subst hpath
      have htouching : touching access.path (accesses ++ [access])
          = touching access.path accesses ++ [access] := by
        simp [touching, List.filter_append]
      have hne : touching access.path (accesses ++ [access]) ≠ [] := by
        rw [htouching]
        simp
      rw [modify_self, ih, if_neg hne, htouching]
      by_cases hnone : touching access.path accesses = []
      · rw [if_pos hnone, hnone, List.nil_append]
        exact congrArg some (summary_singleton access)
      · rw [if_neg hnone]
        exact congrArg some (summary_concat hnone access)
    · have htouching : touching path (accesses ++ [access]) = touching path accesses := by
        simp [touching, hpath]
      rw [modify_of_ne _ _ (Ne.symm hpath), ih, htouching]

theorem mem_pathsOf {path : String} {accesses : List PropertyAccess} :
    path ∈ pathsOf accesses ↔ touching path accesses ≠ [] := by
  rw [pathsOf, Finset.mem_sort, List.mem_toFinset, List.mem_map, touching, Ne,
    List.filter_eq_nil_iff]
  simp

theorem properties_build (source : SurfaceSource) (instrumentation : List InstrumentationCoverage)
    (accesses : List PropertyAccess) :
    (buildEnvironmentSurface source instrumentation accesses).properties
      = (pathsOf accesses).map fun path => summary path (touching path accesses) := by
  rw [buildEnvironmentSurface, ← pathsOf, ← List.filterMap_eq_map']
  refine List.filterMap_congr fun path hpath => ?_
  rw [mergeAccesses_eq, if_neg (mem_pathsOf.mp hpath)]

/-! ## Canonical surfaces -/

section Canonical

variable (source : SurfaceSource) (instrumentation : List InstrumentationCoverage)
  (accesses : List PropertyAccess)

structure CanonicalSurface : Prop where
  /-- The order of recording does not matter. -/
  order : ∀ instrumentation' accesses', instrumentation.Perm instrumentation' →
    accesses.Perm accesses' →
    buildEnvironmentSurface source instrumentation' accesses'
      = buildEnvironmentSurface source instrumentation accesses
  /-- Each path occurs once, in order. -/
  paths : (buildEnvironmentSurface source instrumentation accesses).properties.map
    PropertyAccess.path = (accesses.map PropertyAccess.path).toFinset.sort
  merged : ∀ property ∈ (buildEnvironmentSurface source instrumentation accesses).properties,
    property.operations = operationsOf (touching property.path accesses)
      ∧ property.byteLengths = lengthsOf (touching property.path accesses)
  /-- Each entry occurs once. -/
  entries : (buildEnvironmentSurface source instrumentation accesses).instrumentation.Nodup
    ∧ ∀ coverage, coverage ∈ (buildEnvironmentSurface source instrumentation
        accesses).instrumentation ↔ coverage ∈ instrumentation
  rebuilt : buildEnvironmentSurface source
      (buildEnvironmentSurface source instrumentation accesses).instrumentation
      (buildEnvironmentSurface source instrumentation accesses).properties
    = buildEnvironmentSurface source instrumentation accesses

/-- What is recorded of one path or root does not contradict itself. -/
structure Agreed : Prop where
  classes : ∀ a ∈ accesses, ∀ b ∈ accesses, a.path = b.path →
    ∀ known other, a.valueClass = some known → b.valueClass = some other → known = other
  entries : ∀ a ∈ instrumentation, ∀ b ∈ instrumentation, a.root = b.root → a = b

end Canonical

variable {source : SurfaceSource} {instrumentation instrumentation' : List InstrumentationCoverage}
  {accesses accesses' : List PropertyAccess}

theorem summary_of_perm {path : String} (h : accesses.Perm accesses')
    (hclass : (accesses'.filterMap PropertyAccess.valueClass).head?
      = (accesses.filterMap PropertyAccess.valueClass).head?) :
    summary path accesses' = summary path accesses := by
  have hoperations : operationsOf accesses' = operationsOf accesses := by
    simp only [operationsOf, AccessOps.mk.injEq]
    exact ⟨(h.map _).symm.sum_eq, (h.map _).symm.sum_eq, (h.map _).symm.sum_eq,
      (h.map _).symm.sum_eq⟩
  have hlengths : lengthsOf accesses' = lengthsOf accesses := by
    rw [lengthsOf, lengthsOf, List.toFinset_eq_of_perm _ _ (h.symm.flatMap_right _)]
  simp only [summary, hoperations, hlengths, hclass, widest_of_perm (h.symm.map _)]

/-- Where the classes agree, any of them is the first. -/
theorem head_classes_of_perm {classes classes' : List String} (h : classes.Perm classes')
    (hsame : ∀ known ∈ classes, ∀ other ∈ classes, known = other) :
    classes'.head? = classes.head? := by
  cases classes with
  | nil => rw [h.nil_eq]
  | cons known classes =>
    cases classes' with
    | nil => exact absurd h.eq_nil (List.cons_ne_nil _ _)
    | cons other classes' =>
      exact congrArg some (hsame other (h.mem_iff.mpr List.mem_cons_self) known List.mem_cons_self)

theorem pathsOf_of_perm (h : accesses.Perm accesses') : pathsOf accesses' = pathsOf accesses := by
  rw [pathsOf, pathsOf, List.toFinset_eq_of_perm _ _ (h.symm.map _)]

theorem single_rank_iff : Single (fun coverage : InstrumentationCoverage => coverage.root.rank)
    instrumentation ↔ ∀ a ∈ instrumentation, ∀ b ∈ instrumentation, a.root = b.root → a = b := by
  simp only [Single, SurfaceRoot.rank_injective.eq_iff]

/-! What holds of every surface -/

theorem surface_ext
    (hentries : sortDedup (fun coverage => coverage.root.rank) instrumentation
      = sortDedup (fun coverage => coverage.root.rank) instrumentation')
    (hproperties : (buildEnvironmentSurface source instrumentation accesses).properties
      = (buildEnvironmentSurface source instrumentation' accesses').properties) :
    buildEnvironmentSurface source instrumentation accesses
      = buildEnvironmentSurface source instrumentation' accesses' := by
  simp only [buildEnvironmentSurface, EnvironmentSurfaceDocument.mk.injEq]
  exact ⟨trivial, trivial, hentries, hproperties⟩

theorem paths_build : (buildEnvironmentSurface source instrumentation accesses).properties.map
    PropertyAccess.path = pathsOf accesses := by
  rw [properties_build, List.map_map]
  exact List.map_id _

theorem merged_build {property : PropertyAccess}
    (h : property ∈ (buildEnvironmentSurface source instrumentation accesses).properties) :
    property.operations = operationsOf (touching property.path accesses)
      ∧ property.byteLengths = lengthsOf (touching property.path accesses) := by
  rw [properties_build] at h
  obtain ⟨path, _, rfl⟩ := List.mem_map.mp h
  exact ⟨rfl, rfl⟩

theorem summary_summary (path : String) (accesses : List PropertyAccess) :
    summary path [summary path accesses] = summary path accesses := by
  have hclass : ([summary path accesses].filterMap PropertyAccess.valueClass).head?
      = (accesses.filterMap PropertyAccess.valueClass).head? := by
    rw [List.filterMap_cons]
    cases hknown : (summary path accesses).valueClass with
    | none => exact hknown.symm
    | some known => exact hknown.symm
  simp only [summary, PropertyAccess.mk.injEq]
  refine ⟨trivial, trivial, ?_, ?_, hclass, ?_⟩
  · simp [operationsOf]
  · simp [widest]
  · simp [lengthsOf]

/-- The properties of a surface are touched once. -/
theorem touching_properties {path : String} (h : path ∈ pathsOf accesses) :
    touching path ((pathsOf accesses).map fun path => summary path (touching path accesses))
      = [summary path (touching path accesses)] := by
  have hnodup : (pathsOf accesses).Nodup := Finset.sort_nodup ..
  have honce : (pathsOf accesses).filter (fun other => other = path) = [path] := by
    rw [List.filter_eq, List.count_eq_one_of_mem hnodup h]
    rfl
  rw [touching, List.filter_map]
  simp only [Function.comp_def, summary]
  rw [honce]
  rfl

/-- A surface is what it is built from. -/
theorem build_build : buildEnvironmentSurface source
      (buildEnvironmentSurface source instrumentation accesses).instrumentation
      (buildEnvironmentSurface source instrumentation accesses).properties
    = buildEnvironmentSurface source instrumentation accesses := by
  have hpaths : pathsOf (buildEnvironmentSurface source instrumentation accesses).properties
      = pathsOf accesses := by
    rw [pathsOf, paths_build, pathsOf, Finset.sort_toFinset]
  have hproperties : ∀ entries, (buildEnvironmentSurface source entries
      (buildEnvironmentSurface source instrumentation accesses).properties).properties
        = (buildEnvironmentSurface source instrumentation accesses).properties := by
    intro entries
    rw [properties_build, hpaths, properties_build]
    refine List.map_congr_left fun path hpath => ?_
    rw [touching_properties hpath, summary_summary]
  exact surface_ext (sortDedup_idem _ _) (hproperties _)

/-! ## When a surface is canonical -/

theorem CanonicalSurface.agreed (h : CanonicalSurface source instrumentation accesses) :
    Agreed instrumentation accesses := by
  constructor
  · intro a ha b hb hpath known other hknown hother
    -- Either of the two can be recorded first.
    have hfirst : ∀ c ∈ accesses, c.path = a.path → ∀ class_, c.valueClass = some class_ →
        ((touching a.path accesses).filterMap PropertyAccess.valueClass).head? = some class_ := by
      intro c hc hpath class_ hclass
      have hperm := List.perm_cons_erase hc
      have hproperties := congrArg EnvironmentSurfaceDocument.properties
        (h.order instrumentation (c :: accesses.erase c) (List.Perm.refl _) hperm)
      rw [properties_build, properties_build, pathsOf_of_perm hperm] at hproperties
      have hmem : a.path ∈ pathsOf accesses := by
        rw [pathsOf, Finset.mem_sort, List.mem_toFinset]
        exact List.mem_map_of_mem ha
      have hsummary := List.map_inj_left.mp hproperties a.path hmem
      refine (congrArg PropertyAccess.valueClass hsummary).symm.trans ?_
      simp [summary, touching, hpath, hclass]
    have hsame := hfirst a ha rfl known hknown
    rw [hfirst b hb hpath.symm other hother] at hsame
    exact (Option.some.inj hsame).symm
  · refine single_rank_iff.mp (single_of_sortDedup_eq fun entries hperm => ?_)
    exact congrArg EnvironmentSurfaceDocument.instrumentation
      (h.order entries accesses hperm (List.Perm.refl _))

theorem Agreed.canonical (h : Agreed instrumentation accesses) :
    CanonicalSurface source instrumentation accesses := by
  have hsingle := single_rank_iff.mpr h.entries
  refine ⟨fun entries list hentries hlist => ?_, paths_build, fun _ => merged_build,
    ⟨nodup_sortDedup hsingle, fun _ => mem_sortDedup⟩, build_build⟩
  have hproperties : (buildEnvironmentSurface source entries list).properties
      = (buildEnvironmentSurface source instrumentation accesses).properties := by
    rw [properties_build, properties_build, pathsOf_of_perm hlist]
    refine List.map_congr_left fun path hpath => ?_
    have htouching : (touching path accesses).Perm (touching path list) := hlist.filter _
    refine summary_of_perm htouching (head_classes_of_perm (htouching.filterMap _) ?_)
    intro known hknown other hother
    obtain ⟨a, ha, hknown⟩ := List.mem_filterMap.mp hknown
    obtain ⟨b, hb, hother⟩ := List.mem_filterMap.mp hother
    obtain ⟨ha, hpatha⟩ := List.mem_filter.mp ha
    obtain ⟨hb, hpathb⟩ := List.mem_filter.mp hb
    rw [decide_eq_true_eq] at hpatha hpathb
    exact h.classes a ha b hb (hpatha.trans hpathb.symm) known other hknown hother
  exact surface_ext (sortDedup_eq_of_perm hsingle hentries) hproperties

/-- A surface is canonical when what is recorded agrees, and only then. -/
theorem surface_canonical_iff (source : SurfaceSource)
    (instrumentation : List InstrumentationCoverage) (accesses : List PropertyAccess) :
    CanonicalSurface source instrumentation accesses ↔ Agreed instrumentation accesses :=
  ⟨CanonicalSurface.agreed, Agreed.canonical⟩

def fetchSource : SurfaceSource where
  caseId := "baseline"
  bundleEndpoint := "https://example.invalid/webmssdk.js"
  bundle := ⟨"bundle", 6⟩
  product := "fetch"
  clockMs := 1700000000000

/-- A trap that is reported again after it failed. -/
def retriedTrap : List InstrumentationCoverage :=
  [⟨.navigator, true, none⟩, ⟨.navigator, false, some "trap_install_failed"⟩,
    ⟨.navigator, true, none⟩]

/-- A property that is read in two classes. -/
def twoClasses : List PropertyAccess :=
  [⟨"document.cookie", .document, { gets := 1 }, .string, some "ascii", [214]⟩,
    ⟨"document.cookie", .document, { gets := 1 }, .string, some "base64", [220]⟩]

theorem contradicting_records_are_not_canonical :
    ¬CanonicalSurface fetchSource retriedTrap [] ∧ ¬CanonicalSurface fetchSource [] twoClasses := by
  constructor
  · intro h
    -- The equal entries are no neighbours, and both stay.
    have hnodup := h.entries.1
    revert hnodup
    decide
  · intro h
    have hclass := h.agreed.classes _ List.mem_cons_self _ (List.mem_cons_of_mem _ List.mem_cons_self)
      rfl "ascii" "base64" rfl rfl
    revert hclass
    decide

end TiktokSigner.SignLab
