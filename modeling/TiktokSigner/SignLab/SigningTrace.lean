import Mathlib
import TiktokSigner.Lib.Crowd
import TiktokSigner.Lib.Gather
import TiktokSigner.Lib.Occurrences
import TiktokSigner.SignLab.Differential
import TiktokSigner.SignLab.SigningUrls

/-!
# Signing traces

`signing_trace.rs`: repeated measurements of one input, summed up by slots. A
slot is a name and an occurrence among the fields of that name. An ordered
map is its set of keys with a value for each; `binary_search` on the lengths
of a slot, which come out of an ordered set, is membership.
-/

namespace TiktokSigner.SignLab

open Gather Occurrences

/-! ## Traces -/

inductive ParameterOrigin where
  | input
  | addedBySdk
  | cookie
deriving DecidableEq

inductive RepetitionStability where
  | stable
  | varies
  | intermittent
deriving DecidableEq

structure SlotStability where
  name : String
  /-- Among the fields with this name. -/
  occurrence : Nat
  origin : ParameterOrigin
  presentSamples : Nat
  totalSamples : Nat
  distinctValues : Nat
  byteLengths : List Nat
  stability : RepetitionStability
deriving DecidableEq

structure SdkFunctionEvidence where
  source : ValueDigest
deriving DecidableEq

structure SdkResourceEvidence where
  endpoint : String
  likelySdk : Bool
  body : Option ValueDigest
deriving DecidableEq

structure SdkEvidence where
  frontierSign : Option SdkFunctionEvidence
  resources : List SdkResourceEvidence
deriving DecidableEq

structure SignedUrlObservation where
  experiment : ObservedExperimentCase
  effectiveEnvironment : EnvironmentProfile
  unsignedEndpoint : String
  normalizedParams : List ObservedParameter
  canonicalQuery : ValueDigest
  signedParams : List ObservedParameter
  cookieValues : List ObservedParameter
  userAgent : String

def signingTraceVersion : Nat := 1

structure SigningTrace where
  traceVersion : Nat
  caseId : String
  repetitions : Nat
  sdk : SdkEvidence
  samples : List SignedUrlObservation
  parameterStability : List SlotStability
  cookieStability : List SlotStability

inductive SigningTraceError where
  | tooFewSamples
  | inputMismatch (index : Nat)
  | emptyTrace
  | uncontrolledComparison (changed : List ExperimentDimension)

/-! ## Slots -/

/-- A name and an occurrence, in the order of names. -/
abbrev SlotKey := String ×ₗ Nat

def slotKey (name : String) (occurrence : Nat) : SlotKey := toLex (name, occurrence)

/-- The values of each slot, in the order of the samples. -/
structure Slots where
  keys : Finset SlotKey
  values : SlotKey → List ValueDigest

/-- `slots.entry(key).or_default().push(value)`. -/
def Slots.push (slots : Slots) (key : SlotKey) (value : ValueDigest) : Slots where
  keys := insert key slots.keys
  values := modify slots.values key (· ++ [value])

/-- One field of a sample, with the occurrences of the names before it. -/
def noteParameter (state : Slots × (String → Nat)) (parameter : ObservedParameter) :
    Slots × (String → Nat) :=
  (state.1.push (slotKey parameter.name (state.2 parameter.name)) parameter.value,
    modify state.2 parameter.name (· + 1))

def noteSample (slots : Slots) (sample : List ObservedParameter) : Slots :=
  (sample.foldl noteParameter (slots, fun _ => 0)).1

def collectSlots (samples : List (List ObservedParameter)) : Slots :=
  samples.foldl noteSample ⟨∅, fun _ => []⟩

def summarizeSlot (totalSamples : Nat) (origin : String → Nat → ParameterOrigin) (key : SlotKey)
    (values : List ValueDigest) : SlotStability :=
  let (name, occurrence) := ofLex key
  { name
    occurrence
    origin := origin name occurrence
    presentSamples := values.length
    totalSamples
    distinctValues := values.toFinset.card
    byteLengths := (values.map ValueDigest.bytes).toFinset.sort
    stability :=
      if values.length ≠ totalSamples then .intermittent
      else if values.toFinset.card = 1 then .stable else .varies }

def classifySlots (samples : List (List ObservedParameter)) (totalSamples : Nat)
    (origin : String → Nat → ParameterOrigin) : List SlotStability :=
  let slots := collectSlots samples
  slots.keys.sort.map fun key => summarizeSlot totalSamples origin key (slots.values key)

/-! ## Building a trace -/

/-- The input of two samples is one. -/
def SignedUrlObservation.SameInput (sample first : SignedUrlObservation) : Prop :=
  sample.experiment = first.experiment
    ∧ sample.effectiveEnvironment = first.effectiveEnvironment
    ∧ sample.unsignedEndpoint = first.unsignedEndpoint
    ∧ sample.normalizedParams = first.normalizedParams
    ∧ sample.canonicalQuery = first.canonicalQuery
    ∧ sample.userAgent = first.userAgent

instance (sample first : SignedUrlObservation) : Decidable (sample.SameInput first) :=
  inferInstanceAs (Decidable (_ ∧ _))

/-- Where a field of the signed query comes from. -/
def parameterOrigin (normalizedParams : List ObservedParameter) (name : String)
    (occurrence : Nat) : ParameterOrigin :=
  if occurrence < (counts normalizedParams).count name then .input else .addedBySdk

def buildSigningTrace (sdk : SdkEvidence) (samples : List SignedUrlObservation) :
    Except SigningTraceError SigningTrace :=
  match samples with
  | [] | [_] => .error .tooFewSamples
  | first :: second :: others =>
      match (second :: others).findIdx? fun sample => ¬sample.SameInput first with
      | some index => .error (.inputMismatch (index + 1))
      | none => .ok {
          traceVersion := signingTraceVersion
          caseId := first.experiment.id
          repetitions := samples.length
          sdk
          samples
          parameterStability := classifySlots (samples.map SignedUrlObservation.signedParams)
            samples.length (parameterOrigin first.normalizedParams)
          cookieStability := classifySlots (samples.map SignedUrlObservation.cookieValues)
            samples.length fun _ _ => .cookie }

/-! ## Comparing traces -/

inductive SigningStage where
  | environment
  | signedParameters
  | cookies
deriving DecidableEq

inductive TraceDifferenceKind where
  | effectiveEnvironment
  | sdkIdentity
  | parameterStructure
  | stability
  | byteLengths
deriving DecidableEq

structure SigningTraceDifference where
  stage : SigningStage
  kind : TraceDifferenceKind
  name : Option String
deriving DecidableEq

structure SigningTraceDifferentialResult where
  baselineCaseId : String
  experimentCaseId : String
  changedDimension : ExperimentDimension
  inputDifferences : List Difference
  behavioralDifferences : List SigningTraceDifference

def sdkIdentity (sdk : SdkEvidence) :
    Option ValueDigest × List (String × Option ValueDigest) :=
  let resources := (sdk.resources.filter (·.likelySdk)).map fun resource =>
    (resource.endpoint, resource.body)
  (sdk.frontierSign.map SdkFunctionEvidence.source,
    resources.mergeSort fun a b => a.1 ≤ b.1)

def SlotStability.key (slot : SlotStability) : SlotKey := slotKey slot.name slot.occurrence

/-- The slot of a key in a map that is collected from the slots. -/
def slotAt (slots : List SlotStability) (key : SlotKey) : Option SlotStability :=
  slots.reverse.find? (·.key = key)

def byteLengthSetsAreDisjoint (baseline experiment : List Nat) : Bool :=
  !baseline.isEmpty && !experiment.isEmpty && !baseline.any (experiment.contains ·)

/-- The differences of one slot. -/
def compareSlot (stage : SigningStage) (compareByteLengths : Bool) (label : String) :
    Option SlotStability → Option SlotStability → List SigningTraceDifference
  | some baseline, some experiment =>
      (if baseline.stability ≠ experiment.stability
          ∨ baseline.presentSamples * experiment.totalSamples
            ≠ experiment.presentSamples * baseline.totalSamples then
        [⟨stage, .stability, some label⟩] else [])
      ++ if compareByteLengths
          && byteLengthSetsAreDisjoint baseline.byteLengths experiment.byteLengths then
        [⟨stage, .byteLengths, some label⟩] else []
  | _, _ => [⟨stage, .parameterStructure, some label⟩]

def compareTraceSlots (stage : SigningStage) (baseline experiment : List SlotStability)
    (compareByteLengths : Bool) : List SigningTraceDifference :=
  let keys := (baseline.map SlotStability.key ++ experiment.map SlotStability.key).toFinset
  keys.sort.flatMap fun key =>
    compareSlot stage compareByteLengths ((ofLex key).1 ++ "#" ++ (ofLex key).2.repr)
      (slotAt baseline key) (slotAt experiment key)

section Compare

variable (baselineOrder experimentOrder : HashOrder)

def compareSigningTraces (baseline experiment : SigningTrace) :
    Except SigningTraceError SigningTraceDifferentialResult :=
  match baseline.samples.head?, experiment.samples.head? with
  | some baselineSample, some experimentSample =>
      match experimentSample.experiment.changedDimensionsFrom baselineSample.experiment with
      | [changedDimension] => .ok {
          baselineCaseId := baseline.caseId
          experimentCaseId := experiment.caseId
          changedDimension
          inputDifferences := compareParameters baselineOrder experimentOrder
            baselineSample.normalizedParams experimentSample.normalizedParams
          behavioralDifferences :=
            (if baselineSample.effectiveEnvironment ≠ experimentSample.effectiveEnvironment then
              [⟨.environment, .effectiveEnvironment, none⟩] else [])
            ++ (if sdkIdentity baseline.sdk ≠ sdkIdentity experiment.sdk then
              [⟨.signedParameters, .sdkIdentity, none⟩] else [])
            ++ compareTraceSlots .signedParameters baseline.parameterStability
              experiment.parameterStability true
            ++ compareTraceSlots .cookies baseline.cookieStability experiment.cookieStability
              false }
      | changed => .error (.uncontrolledComparison changed)
  | _, _ => .error .emptyTrace

end Compare

/-! ## What the slots hold -/

/-- How often a name occurs. -/
def nameCount (fields : List ObservedParameter) (name : String) : Nat :=
  (fields.map ObservedParameter.name).count name

/-- A field of a sample, by its name and occurrence. -/
def fieldAt (key : SlotKey) (fields : List ObservedParameter) : Option ValueDigest :=
  (valuesOf ObservedParameter.name ObservedParameter.value (ofLex key).1 fields)[(ofLex key).2]?

theorem fieldAt_nil (key : SlotKey) : fieldAt key [] = none := rfl

theorem fieldAt_isSome {key : SlotKey} {fields : List ObservedParameter} :
    (fieldAt key fields).isSome = true ↔ (ofLex key).2 < nameCount fields (ofLex key).1 := by
  have hlength : (valuesOf ObservedParameter.name ObservedParameter.value (ofLex key).1
      fields).length = (fields.map ObservedParameter.name).count (ofLex key).1 :=
    length_valuesOf ..
  rw [fieldAt, nameCount, ← hlength]
  simp

theorem key_eq_iff {key : SlotKey} {name : String} {occurrence : Nat} :
    key = slotKey name occurrence ↔ (ofLex key).1 = name ∧ (ofLex key).2 = occurrence := by
  rw [← Prod.mk.injEq]
  exact ofLex.injective.eq_iff.symm

/-- One more field fills the slot after those of its name. -/
theorem fieldAt_concat (key : SlotKey) (fields : List ObservedParameter)
    (parameter : ObservedParameter) : fieldAt key (fields ++ [parameter])
      = if key = slotKey parameter.name (nameCount fields parameter.name) then
          some parameter.value
        else fieldAt key fields := by
  simp only [fieldAt, key_eq_iff]
  by_cases hname : (ofLex key).1 = parameter.name
  · rw [hname, valuesOf_concat_self, Crowd.getElem?_concat, length_valuesOf, ← nameCount]
    by_cases hlast : (ofLex key).2 = nameCount fields parameter.name
    · rw [if_pos hlast, if_pos ⟨rfl, hlast⟩]
    · rw [if_neg hlast, if_neg fun h => hlast h.2]
  · rw [if_neg fun h => hname h.1, valuesOf_concat_of_ne (Ne.symm hname)]

/-- The slots after some fields of a sample. -/
structure Noted (slots : Slots) (fields : List ObservedParameter)
    (state : Slots × (String → Nat)) : Prop where
  values : ∀ key, state.1.values key = slots.values key ++ (fieldAt key fields).toList
  keys : ∀ key, key ∈ state.1.keys ↔ key ∈ slots.keys ∨ (fieldAt key fields).isSome = true
  counts : ∀ name, state.2 name = nameCount fields name

theorem Noted.nil (slots : Slots) : Noted slots [] (slots, fun _ => 0) where
  values := fun _ => (List.append_nil _).symm
  keys := fun _ => ⟨Or.inl, fun h => h.resolve_right (by simp [fieldAt_nil])⟩
  counts := fun _ => rfl

theorem Slots.values_push_self (slots : Slots) (key : SlotKey) (value : ValueDigest) :
    (slots.push key value).values key = slots.values key ++ [value] := by
  change modify slots.values key (· ++ [value]) key = _
  rw [modify_self]

theorem Slots.values_push_of_ne (slots : Slots) {key other : SlotKey} (value : ValueDigest)
    (h : other ≠ key) : (slots.push key value).values other = slots.values other := by
  change modify slots.values key (· ++ [value]) other = _
  rw [modify_of_ne _ _ h]

theorem Slots.mem_keys_push (slots : Slots) {key other : SlotKey} (value : ValueDigest) :
    other ∈ (slots.push key value).keys ↔ other = key ∨ other ∈ slots.keys := Finset.mem_insert

/-- The slot after the fields of a name is empty. -/
theorem fieldAt_next (fields : List ObservedParameter) (name : String) :
    fieldAt (slotKey name (nameCount fields name)) fields = none := by
  rw [← Option.not_isSome_iff_eq_none, fieldAt_isSome]
  exact Nat.lt_irrefl _

theorem nameCount_concat (fields : List ObservedParameter) (parameter : ObservedParameter)
    (name : String) : nameCount (fields ++ [parameter]) name
      = nameCount fields name + if parameter.name = name then 1 else 0 := by
  simp [nameCount, List.count_singleton]

theorem Noted.concat {slots : Slots} {fields : List ObservedParameter}
    {state : Slots × (String → Nat)} (h : Noted slots fields state)
    (parameter : ObservedParameter) :
    Noted slots (fields ++ [parameter]) (noteParameter state parameter) := by
  have hnote : noteParameter state parameter
      = (state.1.push (slotKey parameter.name (nameCount fields parameter.name)) parameter.value,
        modify state.2 parameter.name (· + 1)) := by
    rw [noteParameter, h.counts]
  rw [hnote]
  refine ⟨fun key => ?_, fun key => ?_, fun name => ?_⟩
  · rw [fieldAt_concat]
    split_ifs with hkey
    · rw [hkey, Slots.values_push_self, h.values, fieldAt_next]
      simp
    · rw [Slots.values_push_of_ne _ _ hkey, h.values]
  · rw [fieldAt_concat, Slots.mem_keys_push, h.keys]
    split_ifs with hkey <;> simp [hkey]
  · rw [nameCount_concat]
    change modify state.2 parameter.name (· + 1) name = _
    by_cases hname : name = parameter.name
    · rw [hname, modify_self, if_pos rfl, h.counts]
    · rw [modify_of_ne _ _ hname, if_neg (Ne.symm hname), Nat.add_zero, h.counts]

theorem noted_foldl (slots : Slots) (sample : List ObservedParameter) :
    Noted slots sample (sample.foldl noteParameter (slots, fun _ => 0)) := by
  induction sample using List.reverseRecOn with
  | nil => exact .nil slots
  | append_singleton fields parameter ih =>
    rw [List.foldl_append]
    exact ih.concat parameter

/-- The slots of the samples, slot by slot. -/
theorem collectSlots_eq (samples : List (List ObservedParameter)) (key : SlotKey) :
    (collectSlots samples).values key = samples.filterMap (fieldAt key)
      ∧ (key ∈ (collectSlots samples).keys ↔ samples.filterMap (fieldAt key) ≠ []) := by
  induction samples using List.reverseRecOn with
  | nil => simp [collectSlots]
  | append_singleton samples sample ih =>
    have hnoted := noted_foldl (collectSlots samples) sample
    have hcollect : collectSlots (samples ++ [sample])
        = noteSample (collectSlots samples) sample := by
      rw [collectSlots, List.foldl_append]
      rfl
    rw [hcollect, noteSample, hnoted.values, hnoted.keys, ih.1, ih.2, List.filterMap_append]
    cases hfield : fieldAt key sample <;> simp [hfield]

/-! ## What is summed up -/

/-- The values that fill a slot, in the order of the samples. -/
def fillings (samples : List (List ObservedParameter)) (key : SlotKey) : List ValueDigest :=
  samples.filterMap (fieldAt key)

theorem classifySlots_eq (samples : List (List ObservedParameter)) (totalSamples : Nat)
    (origin : String → Nat → ParameterOrigin) : classifySlots samples totalSamples origin
      = (collectSlots samples).keys.sort.map fun key =>
        summarizeSlot totalSamples origin key (fillings samples key) :=
  List.map_congr_left fun key _ => by rw [(collectSlots_eq samples key).1, fillings]

theorem keys_classifySlots (samples : List (List ObservedParameter)) (totalSamples : Nat)
    (origin : String → Nat → ParameterOrigin) :
    (classifySlots samples totalSamples origin).map SlotStability.key
      = (collectSlots samples).keys.sort := by
  rw [classifySlots_eq, List.map_map]
  exact List.map_id _

theorem length_fillings (samples : List (List ObservedParameter)) (key : SlotKey) :
    (fillings samples key).length
      = samples.countP fun sample => (ofLex key).2 < nameCount sample (ofLex key).1 := by
  rw [fillings, List.length_filterMap_eq_countP]
  exact List.countP_congr fun sample _ => by rw [fieldAt_isSome, decide_eq_true_iff]

theorem length_fillings_eq_iff {samples : List (List ObservedParameter)} {key : SlotKey} :
    (fillings samples key).length = samples.length
      ↔ ∀ sample ∈ samples, fieldAt key sample ≠ none := by
  rw [length_fillings, List.countP_eq_length]
  refine forall₂_congr fun sample _ => ?_
  rw [decide_eq_true_iff, ← fieldAt_isSome, Option.isSome_iff_ne_none]

/-- Some value fills the slot in every sample. -/
def Constant (samples : List (List ObservedParameter)) (key : SlotKey) : Prop :=
  ∃ value, ∀ sample ∈ samples, fieldAt key sample = some value

theorem mem_fillings {samples : List (List ObservedParameter)} {key : SlotKey}
    {value : ValueDigest} : value ∈ fillings samples key
      ↔ ∃ sample ∈ samples, fieldAt key sample = some value := List.mem_filterMap

theorem constant_iff {samples : List (List ObservedParameter)} (hne : samples ≠ [])
    {key : SlotKey} : Constant samples key ↔ (fillings samples key).length = samples.length
      ∧ (fillings samples key).toFinset.card = 1 := by
  rw [length_fillings_eq_iff, Finset.card_eq_one]
  constructor
  · rintro ⟨value, hall⟩
    refine ⟨fun sample hsample => by simp [hall sample hsample], value, ?_⟩
    ext other
    rw [List.mem_toFinset, mem_fillings, Finset.mem_singleton]
    constructor
    · rintro ⟨sample, hsample, hother⟩
      exact Option.some.inj (hother.symm.trans (hall sample hsample))
    · rintro rfl
      obtain ⟨sample, hsample⟩ := List.exists_mem_of_ne_nil samples hne
      exact ⟨sample, hsample, hall sample hsample⟩
  · rintro ⟨hfull, value, hvalue⟩
    refine ⟨value, fun sample hsample => ?_⟩
    obtain ⟨other, hother⟩ := Option.ne_none_iff_exists'.mp (hfull sample hsample)
    have hmem : other ∈ (fillings samples key).toFinset :=
      List.mem_toFinset.mpr (mem_fillings.mpr ⟨sample, hsample, hother⟩)
    rw [hvalue, Finset.mem_singleton] at hmem
    rw [hother, hmem]

theorem stability_cases (totalSamples : Nat) (origin : String → Nat → ParameterOrigin)
    (key : SlotKey) (values : List ValueDigest) :
    ((summarizeSlot totalSamples origin key values).stability = .intermittent
        ↔ values.length ≠ totalSamples)
      ∧ ((summarizeSlot totalSamples origin key values).stability = .stable
        ↔ values.length = totalSamples ∧ values.toFinset.card = 1) := by
  rw [summarizeSlot]
  dsimp only
  split_ifs with hlength hcard <;> simp_all

def Slots.size (slots : Slots) : Nat := ∑ key ∈ slots.keys, (slots.values key).length

/-- A slot that is not there is empty. -/
def Slots.Tidy (slots : Slots) : Prop := ∀ key, key ∉ slots.keys → slots.values key = []

theorem Slots.Tidy.push {slots : Slots} (h : slots.Tidy) (key : SlotKey) (value : ValueDigest) :
    (slots.push key value).Tidy := by
  intro other hother
  rw [Slots.mem_keys_push, not_or] at hother
  rw [Slots.values_push_of_ne _ _ hother.1, h other hother.2]

theorem summarizeSlot_perm {values values' : List ValueDigest} (h : values.Perm values')
    (totalSamples : Nat) (origin : String → Nat → ParameterOrigin) (key : SlotKey) :
    summarizeSlot totalSamples origin key values
      = summarizeSlot totalSamples origin key values' := by
  have hbytes := List.toFinset_eq_of_perm _ _ (h.map ValueDigest.bytes)
  rw [summarizeSlot, summarizeSlot, h.length_eq, List.toFinset_eq_of_perm _ _ h, hbytes]

theorem classifySlots_perm {samples samples' : List (List ObservedParameter)}
    (h : samples.Perm samples') (totalSamples : Nat) (origin : String → Nat → ParameterOrigin) :
    classifySlots samples totalSamples origin = classifySlots samples' totalSamples origin := by
  have hfillings : ∀ key, (fillings samples key).Perm (fillings samples' key) :=
    fun key => h.filterMap _
  have hkeys : (collectSlots samples).keys = (collectSlots samples').keys := by
    ext key
    rw [(collectSlots_eq samples key).2, (collectSlots_eq samples' key).2, ← fillings, ← fillings,
      ← List.length_pos_iff, ← List.length_pos_iff, (hfillings key).length_eq]
  rw [classifySlots_eq, classifySlots_eq, hkeys]
  exact List.map_congr_left fun key _ => summarizeSlot_perm (hfillings key) totalSamples origin key

theorem SignedUrlObservation.SameInput.symm {sample first : SignedUrlObservation}
    (h : sample.SameInput first) : first.SameInput sample := by
  obtain ⟨h₁, h₂, h₃, h₄, h₅, h₆⟩ := h
  exact ⟨h₁.symm, h₂.symm, h₃.symm, h₄.symm, h₅.symm, h₆.symm⟩

theorem SignedUrlObservation.SameInput.trans {a b c : SignedUrlObservation}
    (h : a.SameInput b) (h' : b.SameInput c) : a.SameInput c := by
  obtain ⟨h₁, h₂, h₃, h₄, h₅, h₆⟩ := h
  obtain ⟨h₁', h₂', h₃', h₄', h₅', h₆'⟩ := h'
  exact ⟨h₁.trans h₁', h₂.trans h₂', h₃.trans h₃', h₄.trans h₄', h₅.trans h₅', h₆.trans h₆'⟩

/-- The trace of samples with the input of `first`. -/
def traceOf (sdk : SdkEvidence) (first : SignedUrlObservation)
    (samples : List SignedUrlObservation) : SigningTrace where
  traceVersion := signingTraceVersion
  caseId := first.experiment.id
  repetitions := samples.length
  sdk := sdk
  samples := samples
  parameterStability := classifySlots (samples.map SignedUrlObservation.signedParams)
    samples.length (parameterOrigin first.normalizedParams)
  cookieStability := classifySlots (samples.map SignedUrlObservation.cookieValues)
    samples.length fun _ _ => .cookie

theorem buildSigningTrace_eq_ok {sdk : SdkEvidence} {samples : List SignedUrlObservation}
    {trace : SigningTrace} : buildSigningTrace sdk samples = .ok trace ↔
      2 ≤ samples.length ∧ ∃ first, samples.head? = some first
        ∧ (∀ sample ∈ samples, sample.SameInput first) ∧ trace = traceOf sdk first samples := by
  have hrefl : ∀ sample : SignedUrlObservation, sample.SameInput sample :=
    fun _ => ⟨rfl, rfl, rfl, rfl, rfl, rfl⟩
  match samples with
  | [] => simp [buildSigningTrace]
  | [_] => simp [buildSigningTrace]
  | first :: second :: others =>
    rw [buildSigningTrace]
    cases hfind : (second :: others).findIdx? fun sample => ¬sample.SameInput first with
    | some index =>
      obtain ⟨hlt, hdiffers, -⟩ := List.findIdx?_eq_some_iff_getElem.mp hfind
      refine ⟨fun h => (by cases h), ?_⟩
      rintro ⟨-, _, hfirst, hall, -⟩
      obtain rfl := Option.some.inj hfirst
      exact absurd (hall _ (List.mem_cons_of_mem _ (List.getElem_mem hlt)))
        (of_decide_eq_true hdiffers)
    | none =>
      have hsame := List.findIdx?_eq_none_iff.mp hfind
      constructor
      · intro h
        refine ⟨by simp, first, rfl, fun sample hsample => ?_, (Except.ok.inj h).symm⟩
        rcases List.mem_cons.mp hsample with rfl | hsample
        · exact hrefl _
        · simpa using hsame sample hsample
      · rintro ⟨-, _, hfirst, -, rfl⟩
        obtain rfl := Option.some.inj hfirst
        rfl

/-- A trace does not depend on the order of its samples. -/
theorem buildSigningTrace_perm {sdk : SdkEvidence} {samples samples' : List SignedUrlObservation}
    (h : samples.Perm samples') {trace : SigningTrace}
    (hbuild : buildSigningTrace sdk samples = .ok trace) :
    ∃ trace', buildSigningTrace sdk samples' = .ok trace' ∧ trace'.caseId = trace.caseId
      ∧ trace'.repetitions = trace.repetitions
      ∧ trace'.parameterStability = trace.parameterStability
      ∧ trace'.cookieStability = trace.cookieStability := by
  obtain ⟨htwo, first, hfirst, hsame, rfl⟩ := buildSigningTrace_eq_ok.mp hbuild
  rw [h.length_eq] at htwo
  cases samples' with
  | nil => cases htwo
  | cons first' others =>
    have hinput : first'.SameInput first := hsame _ (h.mem_iff.mpr List.mem_cons_self)
    refine ⟨_, buildSigningTrace_eq_ok.mpr ⟨htwo, first', rfl, fun sample hsample =>
      (hsame _ (h.mem_iff.mpr hsample)).trans hinput.symm, rfl⟩, ?_, h.length_eq.symm, ?_, ?_⟩
    · exact congrArg CaseOf.id hinput.1
    · rw [traceOf, traceOf, hinput.2.2.2.1, h.length_eq]
      exact (classifySlots_perm (h.map _) _ _).symm
    · rw [traceOf, traceOf, h.length_eq]
      exact (classifySlots_perm (h.map _) _ _).symm

/-! ## What a comparison says -/

theorem slotAt_eq_some {slots : List SlotStability} (hnodup : (slots.map SlotStability.key).Nodup)
    {slot : SlotStability} (hslot : slot ∈ slots) : slotAt slots slot.key = some slot := by
  cases hfind : slotAt slots slot.key with
  | none =>
    have hnone := List.find?_eq_none.mp hfind slot (List.mem_reverse.mpr hslot)
    exact absurd (decide_eq_true rfl) hnone
  | some found =>
    have hkey : found.key = slot.key := by simpa using List.find?_some hfind
    have hfound := List.mem_reverse.mp (List.mem_of_find?_eq_some hfind)
    rw [List.inj_on_of_nodup_map hnodup hfound hslot hkey]

theorem slotAt_eq_none {slots : List SlotStability} {key : SlotKey} :
    slotAt slots key = none ↔ key ∉ slots.map SlotStability.key := by
  simp [slotAt]

theorem slotAt_classifySlots (samples : List (List ObservedParameter)) (totalSamples : Nat)
    (origin : String → Nat → ParameterOrigin) (key : SlotKey) :
    slotAt (classifySlots samples totalSamples origin) key
      = if fillings samples key = [] then none
        else some (summarizeSlot totalSamples origin key (fillings samples key)) := by
  have hkeys := keys_classifySlots samples totalSamples origin
  have hmem : key ∈ (collectSlots samples).keys ↔ fillings samples key ≠ [] :=
    (collectSlots_eq samples key).2
  split_ifs with hempty
  · rw [slotAt_eq_none, hkeys, Finset.mem_sort, hmem]
    exact not_not.mpr hempty
  · have hslot : summarizeSlot totalSamples origin key (fillings samples key)
        ∈ classifySlots samples totalSamples origin := by
      rw [classifySlots_eq]
      exact List.mem_map_of_mem ((Finset.mem_sort _).mpr (hmem.mpr hempty))
    exact slotAt_eq_some (hkeys ▸ Finset.sort_nodup ..) hslot

/-- Two series of samples behave alike in a slot: they fill it at one rate,
both with one value or both not, and where lengths count, with a length in
common. -/
structure Alike (samples samples' : List (List ObservedParameter)) (compareByteLengths : Bool)
    (key : SlotKey) : Prop where
  rate : (fillings samples key).length * samples'.length
    = (fillings samples' key).length * samples.length
  constant : Constant samples key ↔ Constant samples' key
  lengths : compareByteLengths = true → fillings samples key ≠ [] →
    ∃ value ∈ fillings samples key, ∃ value' ∈ fillings samples' key, value.bytes = value'.bytes

theorem stability_eq_iff (a b : RepetitionStability) :
    a = b ↔ (a = .intermittent ↔ b = .intermittent) ∧ (a = .stable ↔ b = .stable) := by
  cases a <;> cases b <;> simp

theorem disjoint_iff {values values' : List ValueDigest} (hne : values ≠ []) (hne' : values' ≠ []) :
    byteLengthSetsAreDisjoint (values.map ValueDigest.bytes).toFinset.sort
        (values'.map ValueDigest.bytes).toFinset.sort = false
      ↔ ∃ value ∈ values, ∃ value' ∈ values', value.bytes = value'.bytes := by
  have hsort : ∀ {values : List ValueDigest}, values ≠ [] →
      (values.map ValueDigest.bytes).toFinset.sort.isEmpty = false := by
    intro values hne
    obtain ⟨value, hvalue⟩ := List.exists_mem_of_ne_nil values hne
    rw [List.isEmpty_eq_false_iff]
    have hbytes : value.bytes ∈ values.map ValueDigest.bytes := List.mem_map_of_mem hvalue
    exact List.ne_nil_of_mem ((Finset.mem_sort _).mpr (List.mem_toFinset.mpr hbytes))
  rw [byteLengthSetsAreDisjoint, hsort hne, hsort hne']
  simp only [Bool.not_false, Bool.true_and, Bool.not_eq_false', List.any_eq_true,
    List.contains_iff_mem, Finset.mem_sort, List.mem_toFinset, List.mem_map]
  constructor
  · rintro ⟨_, ⟨value, hvalue, rfl⟩, value', hvalue', hbytes⟩
    exact ⟨value, hvalue, value', hvalue', hbytes.symm⟩
  · rintro ⟨value, hvalue, value', hvalue', hbytes⟩
    exact ⟨_, ⟨value, hvalue, rfl⟩, value', hvalue', hbytes.symm⟩

section Alike

variable {samples samples' : List (List ObservedParameter)} {compareByteLengths : Bool}
variable {key : SlotKey}

theorem constant_fillings (hne : samples ≠ []) (h : Constant samples key) :
    fillings samples key ≠ [] := by
  have hlength := ((constant_iff hne).mp h).1
  intro hnil
  rw [hnil] at hlength
  exact hne (List.length_eq_zero_iff.mp hlength.symm)

/-- A slot that neither fills. -/
theorem alike_of_nil (hne : samples ≠ []) (hne' : samples' ≠ []) (h : fillings samples key = [])
    (h' : fillings samples' key = []) : Alike samples samples' compareByteLengths key where
  rate := by rw [h, h', List.length_nil, Nat.zero_mul, Nat.zero_mul]
  constant := ⟨fun hconstant => absurd h (constant_fillings hne hconstant),
    fun hconstant => absurd h' (constant_fillings hne' hconstant)⟩
  lengths := fun _ hfilled => absurd h hfilled

/-- A slot that one of them fills is filled by the other. -/
theorem Alike.fillings_iff (hne : samples ≠ []) (hne' : samples' ≠ [])
    (h : Alike samples samples' compareByteLengths key) :
    fillings samples key = [] ↔ fillings samples' key = [] := by
  have hpos := List.length_pos_iff.mpr hne
  have hpos' := List.length_pos_iff.mpr hne'
  have hrate := h.rate
  rw [← List.length_eq_zero_iff, ← List.length_eq_zero_iff]
  constructor
  · intro hzero
    rw [hzero, Nat.zero_mul, eq_comm, Nat.mul_eq_zero] at hrate
    omega
  · intro hzero
    rw [hzero, Nat.zero_mul, Nat.mul_eq_zero] at hrate
    omega

theorem full_iff (hne : samples ≠ []) (hne' : samples' ≠ [])
    (hrate : (fillings samples key).length * samples'.length
      = (fillings samples' key).length * samples.length) :
    (fillings samples key).length = samples.length
      ↔ (fillings samples' key).length = samples'.length := by
  have hpos := List.length_pos_iff.mpr hne
  have hpos' := List.length_pos_iff.mpr hne'
  constructor
  · intro hfull
    rw [hfull, Nat.mul_comm] at hrate
    exact (Nat.eq_of_mul_eq_mul_right hpos hrate).symm
  · intro hfull
    rw [hfull, Nat.mul_comm samples'.length] at hrate
    exact Nat.eq_of_mul_eq_mul_right hpos' hrate

/-- The comparison of a slot that both fill. -/
theorem compareSlot_eq_nil (hne : samples ≠ []) (hne' : samples' ≠ []) (stage : SigningStage)
    (origin origin' : String → Nat → ParameterOrigin) (label : String)
    (hfilled : fillings samples key ≠ []) (hfilled' : fillings samples' key ≠ []) :
    compareSlot stage compareByteLengths label
        (some (summarizeSlot samples.length origin key (fillings samples key)))
        (some (summarizeSlot samples'.length origin' key (fillings samples' key))) = []
      ↔ Alike samples samples' compareByteLengths key := by
  have hcases := stability_cases samples.length origin key (fillings samples key)
  have hcases' := stability_cases samples'.length origin' key (fillings samples' key)
  rw [← constant_iff hne] at hcases
  rw [← constant_iff hne'] at hcases'
  have hsplit : compareSlot stage compareByteLengths label
      (some (summarizeSlot samples.length origin key (fillings samples key)))
      (some (summarizeSlot samples'.length origin' key (fillings samples' key))) = []
      ↔ (summarizeSlot samples.length origin key (fillings samples key)).stability
          = (summarizeSlot samples'.length origin' key (fillings samples' key)).stability
        ∧ (fillings samples key).length * samples'.length
          = (fillings samples' key).length * samples.length
        ∧ (compareByteLengths = true → byteLengthSetsAreDisjoint
          ((fillings samples key).map ValueDigest.bytes).toFinset.sort
          ((fillings samples' key).map ValueDigest.bytes).toFinset.sort = false) := by
    rw [compareSlot, List.append_eq_nil_iff, ite_eq_right_iff, ite_eq_right_iff]
    simp only [reduceCtorEq, imp_false, not_or, ne_eq, not_not, Bool.and_eq_true, not_and,
      Bool.not_eq_true, and_assoc]
    rfl
  rw [hsplit, stability_eq_iff, hcases.1, hcases'.1, hcases.2, hcases'.2,
    disjoint_iff hfilled hfilled']
  constructor
  · rintro ⟨⟨-, hconstant⟩, hrate, hlengths⟩
    exact ⟨hrate, hconstant, fun hcompare _ => hlengths hcompare⟩
  · intro h
    exact ⟨⟨not_congr (full_iff hne hne' h.rate), h.constant⟩, h.rate,
      fun hcompare => h.lengths hcompare hfilled⟩

end Alike

theorem compareTraceSlots_eq_nil {samples samples' : List (List ObservedParameter)}
    (hne : samples ≠ []) (hne' : samples' ≠ []) (stage : SigningStage)
    (origin origin' : String → Nat → ParameterOrigin) (compareByteLengths : Bool) :
    compareTraceSlots stage (classifySlots samples samples.length origin)
        (classifySlots samples' samples'.length origin') compareByteLengths = []
      ↔ ∀ key, Alike samples samples' compareByteLengths key := by
  have hmem : ∀ {samples : List (List ObservedParameter)} {key : SlotKey}
      (origin : String → Nat → ParameterOrigin),
      key ∈ (classifySlots samples samples.length origin).map SlotStability.key
        ↔ fillings samples key ≠ [] := fun origin => by
    rw [keys_classifySlots, Finset.mem_sort]
    exact (collectSlots_eq _ _).2
  rw [compareTraceSlots, List.flatMap_eq_nil_iff]
  refine forall_congr' fun key => ?_
  rw [Finset.mem_sort, List.mem_toFinset, List.mem_append, hmem, hmem, slotAt_classifySlots,
    slotAt_classifySlots]
  by_cases hfilled : fillings samples key = []
  · by_cases hfilled' : fillings samples' key = []
    · refine iff_of_true (fun h => ?_) (alike_of_nil hne hne' hfilled hfilled')
      exact absurd h (not_or.mpr ⟨not_not.mpr hfilled, not_not.mpr hfilled'⟩)
    · rw [if_pos hfilled, if_neg hfilled']
      refine iff_of_false (fun h => ?_) fun h =>
        hfilled' ((h.fillings_iff hne hne').mp hfilled)
      cases h (Or.inr hfilled')
  · by_cases hfilled' : fillings samples' key = []
    · rw [if_neg hfilled, if_pos hfilled']
      refine iff_of_false (fun h => ?_) fun h =>
        hfilled ((h.fillings_iff hne hne').mpr hfilled')
      cases h (Or.inl hfilled)
    · rw [if_neg hfilled, if_neg hfilled',
        compareSlot_eq_nil hne hne' stage origin origin' _ hfilled hfilled']
      exact ⟨fun h => h (Or.inl hfilled), fun h _ => h⟩

/-! ## Either way round -/

section Compare

variable {baselineOrder experimentOrder : HashOrder}

/-- The four parts of a comparison. -/
theorem behavioralDifferences_eq_nil {baseline experiment : SigningTrace}
    {sample sample' : SignedUrlObservation} {result : SigningTraceDifferentialResult}
    (hsample : baseline.samples.head? = some sample)
    (hsample' : experiment.samples.head? = some sample')
    (hresult : compareSigningTraces baselineOrder experimentOrder baseline experiment
      = .ok result) :
    result.behavioralDifferences = [] ↔
      sample.effectiveEnvironment = sample'.effectiveEnvironment
      ∧ sdkIdentity baseline.sdk = sdkIdentity experiment.sdk
      ∧ compareTraceSlots .signedParameters baseline.parameterStability
        experiment.parameterStability true = []
      ∧ compareTraceSlots .cookies baseline.cookieStability experiment.cookieStability
        false = [] := by
  rw [compareSigningTraces, hsample, hsample'] at hresult
  dsimp only at hresult
  split at hresult
  · obtain rfl := Except.ok.inj hresult
    simp only [List.append_eq_nil_iff, ite_eq_right_iff, reduceCtorEq, imp_false, not_not, ne_eq,
      and_assoc]
  · cases hresult

/-- Two built traces are found to behave alike just when the page and its SDK
are the same and every slot behaves alike. -/
theorem compareSigningTraces_eq_nil {sdk sdk' : SdkEvidence}
    {samples samples' : List SignedUrlObservation} {baseline experiment : SigningTrace}
    {result : SigningTraceDifferentialResult}
    (hbaseline : buildSigningTrace sdk samples = .ok baseline)
    (hexperiment : buildSigningTrace sdk' samples' = .ok experiment)
    (hresult : compareSigningTraces baselineOrder experimentOrder baseline experiment
      = .ok result) :
    result.behavioralDifferences = [] ↔
      (∀ sample ∈ samples, ∀ sample' ∈ samples',
        sample.effectiveEnvironment = sample'.effectiveEnvironment)
      ∧ sdkIdentity sdk = sdkIdentity sdk'
      ∧ ∀ key, Alike (samples.map SignedUrlObservation.signedParams)
          (samples'.map SignedUrlObservation.signedParams) true key
        ∧ Alike (samples.map SignedUrlObservation.cookieValues)
          (samples'.map SignedUrlObservation.cookieValues) false key := by
  obtain ⟨htwo, first, hfirst, hsame, rfl⟩ := buildSigningTrace_eq_ok.mp hbaseline
  obtain ⟨htwo', first', hfirst', hsame', rfl⟩ := buildSigningTrace_eq_ok.mp hexperiment
  have hne : ∀ f : SignedUrlObservation → List ObservedParameter, samples.map f ≠ [] := by
    intro f hnil
    rw [List.map_eq_nil_iff.mp hnil] at htwo
    cases htwo
  have hne' : ∀ f : SignedUrlObservation → List ObservedParameter, samples'.map f ≠ [] := by
    intro f hnil
    rw [List.map_eq_nil_iff.mp hnil] at htwo'
    cases htwo'
  have henvironment : (∀ sample ∈ samples, ∀ sample' ∈ samples',
      sample.effectiveEnvironment = sample'.effectiveEnvironment)
      ↔ first.effectiveEnvironment = first'.effectiveEnvironment := by
    constructor
    · intro h
      exact h _ (List.mem_of_mem_head? hfirst) _ (List.mem_of_mem_head? hfirst')
    · intro h sample hsample sample' hsample'
      rw [(hsame sample hsample).2.1, h, (hsame' sample' hsample').2.1]
  have hsigned := compareTraceSlots_eq_nil (hne SignedUrlObservation.signedParams)
    (hne' SignedUrlObservation.signedParams) .signedParameters
    (parameterOrigin first.normalizedParams) (parameterOrigin first'.normalizedParams) true
  have hcookies := compareTraceSlots_eq_nil (hne SignedUrlObservation.cookieValues)
    (hne' SignedUrlObservation.cookieValues) .cookies (fun _ _ => .cookie) (fun _ _ => .cookie)
    false
  rw [List.length_map, List.length_map] at hsigned hcookies
  rw [behavioralDifferences_eq_nil hfirst hfirst' hresult, henvironment, forall_and]
  exact and_congr_right fun _ => and_congr_right fun _ => and_congr hsigned hcookies

end Compare

/-- A sample of a guest whose page speaks this language. -/
def guestSample (id language : String) (token : ValueDigest) : SignedUrlObservation where
  experiment := ExperimentCase.observedInput (fun _ => "") (guestCase id language)
  effectiveEnvironment := (guestCase id "en").environment
  unsignedEndpoint := fetchEndpoint
  normalizedParams := []
  canonicalQuery := ⟨"", 0⟩
  signedParams := [⟨"X-Bogus", token⟩]
  cookieValues := [⟨"msToken", token⟩, ⟨"ttwid", ⟨"t", 60⟩⟩]
  userAgent := ""

def guestSamples (id language : String) : List SignedUrlObservation :=
  [guestSample id language ⟨"a", 20⟩, guestSample id language ⟨"b", 24⟩]

/-- The SDK with the same function and no resources. -/
def guestSdk : SdkEvidence := ⟨some ⟨⟨"f", 100⟩⟩, []⟩

theorem buildSigningTrace_perm_sample : ∃ trace trace',
    buildSigningTrace guestSdk (guestSamples "baseline" "en") = .ok trace
      ∧ buildSigningTrace guestSdk (guestSamples "baseline" "en").reverse = .ok trace'
      ∧ trace'.caseId = trace.caseId ∧ trace'.repetitions = trace.repetitions
      ∧ trace'.parameterStability = trace.parameterStability
      ∧ trace'.cookieStability = trace.cookieStability := by
  have hbuild : buildSigningTrace guestSdk (guestSamples "baseline" "en") = .ok _ := rfl
  obtain ⟨trace', hbuild', hsame⟩ := buildSigningTrace_perm (List.reverse_perm _).symm hbuild
  exact ⟨_, trace', hbuild, hbuild', hsame⟩

theorem alike_refl (samples : List (List ObservedParameter)) (compareByteLengths : Bool)
    (key : SlotKey) : Alike samples samples compareByteLengths key where
  rate := rfl
  constant := Iff.rfl
  lengths := fun _ hfilled => by
    obtain ⟨value, hvalue⟩ := List.exists_mem_of_ne_nil _ hfilled
    exact ⟨value, hvalue, value, hvalue, rfl⟩

def guestTrace (id language : String) : SigningTrace :=
  traceOf guestSdk (guestSample id language ⟨"a", 20⟩) (guestSamples id language)

theorem compareSigningTraces_eq_nil_sample : ∃ (order : HashOrder) (result : _),
    compareSigningTraces order order (guestTrace "baseline" "en") (guestTrace "language" "es")
        = .ok result
      ∧ result.behavioralDifferences = [] := by
  obtain ⟨order⟩ : Nonempty HashOrder := inferInstance
  have hbaseline : buildSigningTrace guestSdk (guestSamples "baseline" "en")
      = .ok (guestTrace "baseline" "en") := rfl
  have hexperiment : buildSigningTrace guestSdk (guestSamples "language" "es")
      = .ok (guestTrace "language" "es") := rfl
  have hresult : compareSigningTraces order order (guestTrace "baseline" "en")
      (guestTrace "language" "es") = .ok _ := rfl
  have hpage : ∀ id language, ∀ sample ∈ guestSamples id language,
      sample.effectiveEnvironment = (guestCase "" "en").environment := by
    intro id language sample hsample
    rcases List.mem_pair.mp hsample with rfl | rfl <;> rfl
  refine ⟨order, _, hresult, (compareSigningTraces_eq_nil hbaseline hexperiment hresult).mpr
    ⟨fun sample hsample sample' hsample' => ?_, rfl,
      fun key => ⟨alike_refl _ _ key, alike_refl _ _ key⟩⟩⟩
  rw [hpage _ _ sample hsample, hpage _ _ sample' hsample']

end TiktokSigner.SignLab
