import TiktokSigner.SignCore.WsParams
import TiktokSigner.SignLab.Capture

/-!
# Controlled experiments

`experiment.rs`: a plan is a baseline and cases that change one dimension of
it. A case is over the type of the texts that an observation hides, so an
experiment and what is observed of it are one structure: `String` gives the
declared case, `ValueDigest` the observed one.

`Controlled` says what a change of one dimension is, by the values of the
dimensions. `validate` accepts just the plans whose cases are controlled.
-/

namespace TiktokSigner.SignLab

open SignReplay (TransportRequest)

deriving instance DecidableEq for TransportRequest

/-! ## Cases -/

def experimentPlanVersion : UInt32 := 1

inductive CookieProbeValue where
  | empty
  | alpha
  | numeric
deriving DecidableEq

def CookieProbeValue.asStr : CookieProbeValue → String
  | .empty => ""
  | .alpha => "ttl-probe-alpha"
  | .numeric => "1700000000"

/-- Cookie changes with fixed probe values. -/
inductive CookieMutation where
  | setProbe (name : String) (value : CookieProbeValue)
  | remove (name : String)
deriving DecidableEq

def CookieMutation.name : CookieMutation → String
  | .setProbe name _ => name
  | .remove name => name

/-- A change of the query, whose new value is a text or its digest. -/
inductive QueryMutationOf (V : Type) where
  | remove (name : String) (occurrence : Nat)
  | duplicate (name : String) (occurrence : Nat)
  | set (name : String) (occurrence : Nat) (value : V)
  | move (name : String) (occurrence newIndex : Nat)
deriving DecidableEq

abbrev QueryMutation := QueryMutationOf String

abbrev ObservedQueryMutation := QueryMutationOf ValueDigest

structure SigningInputOf (V : Type) where
  deviceId : V
  cursor : V
  internalExt : V
  contactUs : V
  supWsDsOpt : UInt8
  queryMutation : Option (QueryMutationOf V) := none
  cookieMutation : Option CookieMutation := none
deriving DecidableEq

abbrev SigningInput := SigningInputOf String

abbrev ObservedSigningInput := SigningInputOf ValueDigest

inductive TimestampMode where
  | system
  | fixed (timestampMs : UInt64)
deriving DecidableEq

inductive SessionMode where
  | guest
  | configured
deriving DecidableEq

structure EnvironmentProfile where
  browserName : String
  browserVersion : String
  browserPlatform : String
  os : String
  language : String
  browserLanguage : String
  tzName : String
  region : String
  screenWidth : UInt32
  screenHeight : UInt32
  timestamp : TimestampMode
  session : SessionMode
deriving DecidableEq

structure CaseOf (V : Type) where
  id : String
  description : String
  request : TransportRequest
  signing : Option (SigningInputOf V) := none
  environment : EnvironmentProfile
deriving DecidableEq

abbrev ExperimentCase := CaseOf String

abbrev ObservedExperimentCase := CaseOf ValueDigest

structure ExperimentPlan where
  planVersion : UInt32
  baseline : ExperimentCase
  experiments : List ExperimentCase := []

/-! ## Changed dimensions -/

inductive ExperimentDimension where
  | roomId
  | signingInput
  | deviceId
  | cursor
  | internalExt
  | contactUs
  | supWsDsOpt
  | queryMutation
  | cookie
  | browserName
  | browserVersion
  | browserPlatform
  | os
  | language
  | browserLanguage
  | timezone
  | region
  | screenWidth
  | screenHeight
  | timestamp
  | session
deriving DecidableEq

/-- `compare!`: the dimension, if its field differs. -/
def compareField (differs : Bool) (dimension : ExperimentDimension) : List ExperimentDimension :=
  if differs then [dimension] else []

def EnvironmentProfile.differences (self other : EnvironmentProfile) :
    List ExperimentDimension :=
  compareField (self.browserName ≠ other.browserName) .browserName
    ++ compareField (self.browserVersion ≠ other.browserVersion) .browserVersion
    ++ compareField (self.browserPlatform ≠ other.browserPlatform) .browserPlatform
    ++ compareField (self.os ≠ other.os) .os
    ++ compareField (self.language ≠ other.language) .language
    ++ compareField (self.browserLanguage ≠ other.browserLanguage) .browserLanguage
    ++ compareField (self.tzName ≠ other.tzName) .timezone
    ++ compareField (self.region ≠ other.region) .region
    ++ compareField (self.screenWidth ≠ other.screenWidth) .screenWidth
    ++ compareField (self.screenHeight ≠ other.screenHeight) .screenHeight
    ++ compareField (self.timestamp ≠ other.timestamp) .timestamp
    ++ compareField (self.session ≠ other.session) .session

section Changed

variable {V : Type} [DecidableEq V]

def SigningInputOf.differences (baseline current : SigningInputOf V) : List ExperimentDimension :=
  compareField (baseline.deviceId ≠ current.deviceId) .deviceId
    ++ compareField (baseline.cursor ≠ current.cursor) .cursor
    ++ compareField (baseline.internalExt ≠ current.internalExt) .internalExt
    ++ compareField (baseline.contactUs ≠ current.contactUs) .contactUs
    ++ compareField (baseline.supWsDsOpt ≠ current.supWsDsOpt) .supWsDsOpt
    ++ compareField (baseline.queryMutation ≠ current.queryMutation) .queryMutation
    ++ compareField (baseline.cookieMutation ≠ current.cookieMutation) .cookie

/-- The dimensions in which a case, declared or observed, differs. -/
def CaseOf.changedDimensionsFrom (self baseline : CaseOf V) : List ExperimentDimension :=
  compareField (baseline.request.roomId ≠ self.request.roomId) .roomId
    ++ baseline.environment.differences self.environment
    ++ match baseline.signing, self.signing with
      | some baseline, some current => baseline.differences current
      | none, none => []
      | _, _ => [.signingInput]

end Changed

/-! ## Observed inputs -/

section Observed

variable {V W : Type} (digest : V → W)

def QueryMutationOf.observed : QueryMutationOf V → QueryMutationOf W
  | .remove name occurrence => .remove name occurrence
  | .duplicate name occurrence => .duplicate name occurrence
  | .set name occurrence value => .set name occurrence (digest value)
  | .move name occurrence newIndex => .move name occurrence newIndex

def SigningInputOf.observed (self : SigningInputOf V) : SigningInputOf W where
  deviceId := digest self.deviceId
  cursor := digest self.cursor
  internalExt := digest self.internalExt
  contactUs := digest self.contactUs
  supWsDsOpt := self.supWsDsOpt
  queryMutation := self.queryMutation.map (QueryMutationOf.observed digest)
  cookieMutation := self.cookieMutation

def CaseOf.observed (self : CaseOf V) : CaseOf W where
  id := self.id
  description := self.description
  request := self.request
  signing := self.signing.map (SigningInputOf.observed digest)
  environment := self.environment

end Observed

/-- What an observation embeds. -/
def ExperimentCase.observedInput (sha256 : Bytes → String) (self : ExperimentCase) :
    ObservedExperimentCase :=
  self.observed fun value => ValueDigest.of sha256 (asBytes value)

/-! ## The query -/

/-- A preset, with the fields that only the fetch reads. -/
structure FetchPreset extends Preset where
  os : String
  region : String

def EnvironmentProfile.preset (self : EnvironmentProfile) : FetchPreset where
  device := ⟨self.browserName, self.browserVersion, self.browserPlatform⟩
  location := ⟨self.language, self.browserLanguage, self.tzName⟩
  screen := ⟨self.screenWidth, self.screenHeight⟩
  os := self.os
  region := self.region

/-- Query for `/webcast/im/fetch/`. -/
structure FetchParams where
  roomId : String
  deviceId : String
  cursor : String
  internalExt : String
  /-- Empty means it is omitted. -/
  contactUs : String
  supWsDsOpt : UInt8

def FetchParams.build (params : FetchParams) (preset : FetchPreset) : Query :=
  let d := preset.device
  let l := preset.location
  let s := preset.screen
  let q := Query.new
    |>.set "aid" "1988"
    |>.set "app_language" l.language
    |>.set "app_name" "tiktok_web"
    |>.set "browser_language" l.browserLanguage
    |>.set "browser_name" d.browserName
    |>.set "browser_online" "true"
    |>.set "browser_platform" d.browserPlatform
    |>.set "browser_version" d.browserVersion
    |>.set "cookie_enabled" "true"
    |>.set "cursor" params.cursor
    |>.set "debug" "false"
    |>.set "device_id" params.deviceId
    |>.set "device_platform" "web"
    |>.set "did_rule" "3"
    |>.set "fetch_rule" "1"
    |>.set "history_comment_count" "6"
    |>.set "identity" "audience"
    |>.set "internal_ext" params.internalExt
    |>.set "last_rtt" "-1"
    |>.set "live_id" "12"
    |>.set "os" preset.os
    |>.set "priority_region" preset.region
    |>.set "region" preset.region
    |>.set "resp_content_type" "protobuf"
    |>.set "room_id" params.roomId
    |>.set "screen_height" s.height.toNat.repr
    |>.set "screen_width" s.width.toNat.repr
    |>.set "sup_ws_ds_opt" params.supWsDsOpt.toNat.repr
    |>.set "tz_name" l.tzName
    |>.set "version_code" "180800"
    |>.set "webcast_language" l.language
  if params.contactUs.isEmpty then q else q.set "contact_us" params.contactUs

/-- The only endpoint on the critical path. -/
def fetchEndpoint : String := "https://webcast.tiktok.com/webcast/im/fetch/"

inductive ExperimentError where
  | unsupportedVersion (found expected : UInt32)
  | unsafeCaseId (id : String)
  | duplicateCaseId (id : String)
  | invalidRoomId (caseId : String)
  | incompleteEnvironment (caseId field : String)
  | uncontrolledMutation (caseId : String) (changed : List ExperimentDimension)
  | unknownCase (id : String)
  | missingSigningInput (caseId : String)
  | invalidQueryMutation (caseId message : String)
  | invalidCookieMutation (caseId message : String)

/-- The place of an occurrence of a parameter. -/
def nthIndex (entries : Query) (name : String) (occurrence : Nat) : Option Nat :=
  (entries.zipIdx.filter (·.1.1 = name))[occurrence]?.map (·.2)

namespace QueryMutationOf

/-- The parameter that is changed. -/
def name {V : Type} : QueryMutationOf V → String
  | .remove name _ | .duplicate name _ | .set name _ _ | .move name _ _ => name

def occurrence {V : Type} : QueryMutationOf V → Nat
  | .remove _ occurrence | .duplicate _ occurrence | .set _ occurrence _
  | .move _ occurrence _ => occurrence

def apply (self : QueryMutation) (caseId : String) (entries : Query) :
    Except ExperimentError Query :=
  match nthIndex entries self.name self.occurrence with
  | none => .error (.invalidQueryMutation caseId
      ("parameter " ++ self.name ++ " occurrence " ++ self.occurrence.repr ++ " does not exist"))
  | some index =>
      let entry := entries.getD index ("", "")
      match self with
      | .remove _ _ => .ok (entries.eraseIdx index)
      | .duplicate _ _ => .ok (entries.insertIdx (index + 1) entry)
      | .set _ _ value => .ok (List.set entries index (entry.1, value))
      | .move _ _ newIndex =>
          if newIndex ≥ entries.length then
            .error (.invalidQueryMutation caseId
              ("new_index " ++ newIndex.repr ++ " is outside the query"))
          else .ok ((entries.eraseIdx index).insertIdx newIndex entry)

end QueryMutationOf

namespace ExperimentCase

def fetchParams (self : ExperimentCase) (signing : SigningInput) : FetchParams where
  roomId := self.request.roomId
  deviceId := signing.deviceId
  cursor := signing.cursor
  internalExt := signing.internalExt
  contactUs := signing.contactUs
  supWsDsOpt := signing.supWsDsOpt

/-- `if let Some(mutation) = &signing.query_mutation`. -/
def mutate (self : ExperimentCase) (signing : SigningInput) (entries : Query) :
    Except ExperimentError Query :=
  match signing.queryMutation with
  | some mutation => mutation.apply self.id entries
  | none => .ok entries

/-- The unsigned URL that the experiment declares. -/
def signingUrl (self : ExperimentCase) : Except ExperimentError String :=
  match self.signing with
  | none => .error (.missingSigningInput self.id)
  | some signing => do
      let entries ← self.mutate signing
        ((self.fetchParams signing).build self.environment.preset)
      let query := entries.foldl (fun query entry => query.pushRaw entry.1 entry.2) Query.new
      return fetchEndpoint ++ "?" ++ query.encode

end ExperimentCase

/-! ## Validation -/

/-- `if bad { return Err(error) }`. -/
def rejectIf (bad : Bool) (error : ExperimentError) : Except ExperimentError Unit :=
  if bad then .error error else .ok ()

def isCookieNameByte (byte : UInt8) : Bool :=
  (48 ≤ byte && byte ≤ 57) || (65 ≤ byte && byte ≤ 90) || (97 ≤ byte && byte ≤ 122)
    || byte = 95 || byte = 45

def CookieMutation.validate (self : CookieMutation) (caseId : String) :
    Except ExperimentError Unit :=
  rejectIf (self.name.isEmpty || !(asBytes self.name).all isCookieNameByte)
    (.invalidCookieMutation caseId
      "cookie name must contain only ASCII letters, digits, '_' or '-'")

/-- The texts of an environment, under the names of their fields. -/
def EnvironmentProfile.texts (self : EnvironmentProfile) : List (String × String) :=
  [("browser_name", self.browserName), ("browser_version", self.browserVersion),
    ("browser_platform", self.browserPlatform), ("os", self.os), ("language", self.language),
    ("browser_language", self.browserLanguage), ("tz_name", self.tzName),
    ("region", self.region)]

def validateSigning (case : ExperimentCase) (signing : SigningInput) :
    Except ExperimentError Unit := do
  rejectIf (signing.deviceId.utf8ByteSize ≠ 19 || !signing.deviceId.toList.all Char.isDigit)
    (.incompleteEnvironment case.id "signing.device_id (expected 19 digits)")
  (if signing.queryMutation.isSome then case.signingUrl.map fun _ => () else .ok ())
  match signing.cookieMutation with
  | some cookieMutation => cookieMutation.validate case.id
  | none => .ok ()

def validateCase (case : ExperimentCase) : Except ExperimentError Unit := do
  rejectIf (case.id.isEmpty || !case.id.toList.all fun c => c.isAlphanum || c = '-' || c = '_')
    (.unsafeCaseId case.id)
  rejectIf (case.request.roomId.isEmpty || !case.request.roomId.toList.all Char.isDigit)
    (.invalidRoomId case.id)
  case.environment.texts.forM fun (field, value) =>
    rejectIf value.isEmpty (.incompleteEnvironment case.id field)
  rejectIf (case.environment.screenWidth = 0) (.incompleteEnvironment case.id "screen_width")
  rejectIf (case.environment.screenHeight = 0) (.incompleteEnvironment case.id "screen_height")
  match case.signing with
  | some signing => validateSigning case signing
  | none => .ok ()

namespace ExperimentPlan

/-- The loop of `validate`, with the ids that it has met. -/
def validateExperiments (baseline : ExperimentCase) :
    List String → List ExperimentCase → Except ExperimentError Unit
  | _, [] => .ok ()
  | ids, experiment :: experiments => do
      validateCase experiment
      rejectIf (experiment.id ∈ ids) (.duplicateCaseId experiment.id)
      let changed := experiment.changedDimensionsFrom baseline
      rejectIf (changed.length ≠ 1) (.uncontrolledMutation experiment.id changed)
      validateExperiments baseline (experiment.id :: ids) experiments

def validate (self : ExperimentPlan) : Except ExperimentError Unit := do
  rejectIf (self.planVersion ≠ experimentPlanVersion)
    (.unsupportedVersion self.planVersion experimentPlanVersion)
  validateCase self.baseline
  validateExperiments self.baseline [self.baseline.id] self.experiments

end ExperimentPlan

/-! ## What a change of one dimension is -/

inductive DimensionValue (V : Type) where
  | text (value : String)
  | hidden (value : V)
  | number (value : UInt32)
  | option (value : UInt8)
  | timestamp (mode : TimestampMode)
  | session (mode : SessionMode)
  | query (mutation : Option (QueryMutationOf V))
  | cookie (mutation : Option CookieMutation)
  | given (value : Bool)
  | absent
deriving DecidableEq

namespace ExperimentDimension

/-- The fields of the signing input. -/
def inSigning : ExperimentDimension → Bool
  | .deviceId | .cursor | .internalExt | .contactUs | .supWsDsOpt | .queryMutation
  | .cookie => true
  | _ => false

/-- A dimension covers itself, and the signing input its fields too. -/
def Covers (dimension other : ExperimentDimension) : Prop :=
  dimension = other ∨ dimension = .signingInput ∧ other.inSigning = true

/-- The order in which they are compared. -/
def order : List ExperimentDimension :=
  [.roomId, .browserName, .browserVersion, .browserPlatform, .os, .language, .browserLanguage,
    .timezone, .region, .screenWidth, .screenHeight, .timestamp, .session, .signingInput,
    .deviceId, .cursor, .internalExt, .contactUs, .supWsDsOpt, .queryMutation, .cookie]

theorem mem_order (dimension : ExperimentDimension) : dimension ∈ order := by
  cases dimension <;> decide

theorem nodup_order : order.Nodup := by decide

end ExperimentDimension

section Controlled

variable {V : Type}

/-- What a dimension is in a case. -/
def CaseOf.value (self : CaseOf V) : ExperimentDimension → DimensionValue V
  | .roomId => .text self.request.roomId
  | .signingInput => .given self.signing.isSome
  | .deviceId => self.signing.elim .absent fun signing => .hidden signing.deviceId
  | .cursor => self.signing.elim .absent fun signing => .hidden signing.cursor
  | .internalExt => self.signing.elim .absent fun signing => .hidden signing.internalExt
  | .contactUs => self.signing.elim .absent fun signing => .hidden signing.contactUs
  | .supWsDsOpt => self.signing.elim .absent fun signing => .option signing.supWsDsOpt
  | .queryMutation => self.signing.elim .absent fun signing => .query signing.queryMutation
  | .cookie => self.signing.elim .absent fun signing => .cookie signing.cookieMutation
  | .browserName => .text self.environment.browserName
  | .browserVersion => .text self.environment.browserVersion
  | .browserPlatform => .text self.environment.browserPlatform
  | .os => .text self.environment.os
  | .language => .text self.environment.language
  | .browserLanguage => .text self.environment.browserLanguage
  | .timezone => .text self.environment.tzName
  | .region => .text self.environment.region
  | .screenWidth => .number self.environment.screenWidth
  | .screenHeight => .number self.environment.screenHeight
  | .timestamp => .timestamp self.environment.timestamp
  | .session => .session self.environment.session

/-- The case is the baseline but for this dimension, in which they differ. -/
def Controlled (dimension : ExperimentDimension) (baseline case : CaseOf V) : Prop :=
  baseline.value dimension ≠ case.value dimension
    ∧ ∀ other, ¬dimension.Covers other → baseline.value other = case.value other

/-- The values of the dimensions are all the inputs of a case. -/
theorem inputs_of_value {case other : CaseOf V} (h : ∀ dimension, case.value dimension =
    other.value dimension) : case.request = other.request ∧ case.signing = other.signing
      ∧ case.environment = other.environment := by
  obtain ⟨_, _, ⟨roomId⟩, signing, environment⟩ := case
  obtain ⟨_, _, ⟨roomId'⟩, signing', environment'⟩ := other
  refine ⟨?_, ?_, ?_⟩
  · cases h .roomId
    rfl
  · cases signing with
    | none =>
      cases signing' with
      | none => rfl
      | some signing' => cases h .signingInput
    | some signing =>
      cases signing' with
      | none => cases h .signingInput
      | some signing' =>
        obtain ⟨deviceId, cursor, internalExt, contactUs, supWsDsOpt, queryMutation,
          cookieMutation⟩ := signing
        cases h .deviceId
        cases h .cursor
        cases h .internalExt
        cases h .contactUs
        cases h .supWsDsOpt
        cases h .queryMutation
        cases h .cookie
        rfl
  · obtain ⟨browserName, browserVersion, browserPlatform, os, language, browserLanguage, tzName,
      region, screenWidth, screenHeight, timestamp, session⟩ := environment
    cases h .browserName
    cases h .browserVersion
    cases h .browserPlatform
    cases h .os
    cases h .language
    cases h .browserLanguage
    cases h .timezone
    cases h .region
    cases h .screenWidth
    cases h .screenHeight
    cases h .timestamp
    cases h .session
    rfl

theorem given_eq_iff {baseline case : CaseOf V} :
    baseline.value .signingInput = case.value .signingInput
      ↔ baseline.signing.isSome = case.signing.isSome := by
  rw [CaseOf.value, CaseOf.value, DimensionValue.given.injEq]

variable [DecidableEq V]

/-- What `changed_dimensions_from` reports. -/
def Reported (baseline case : CaseOf V) (dimension : ExperimentDimension) : Prop :=
  baseline.value dimension ≠ case.value dimension
    ∧ (dimension.inSigning = true → baseline.signing.isSome = case.signing.isSome)

instance (baseline case : CaseOf V) : DecidablePred (Reported baseline case) := fun _ =>
  inferInstanceAs (Decidable (_ ∧ _))

@[simp] theorem compareField_true (dimension : ExperimentDimension) :
    compareField true dimension = [dimension] := rfl

@[simp] theorem compareField_false (dimension : ExperimentDimension) :
    compareField false dimension = [] := rfl

theorem filter_cons_eq_compare (p : ExperimentDimension → Prop) [DecidablePred p]
    (dimension : ExperimentDimension) (dimensions : List ExperimentDimension) :
    (dimension :: dimensions).filter p
      = compareField (decide (p dimension)) dimension ++ dimensions.filter p := by
  by_cases h : p dimension <;> simp [h]

theorem changedDimensionsFrom_eq (baseline case : CaseOf V) :
    case.changedDimensionsFrom baseline
      = ExperimentDimension.order.filter (Reported baseline case) := by
  obtain ⟨_, _, request, signing, environment⟩ := baseline
  obtain ⟨_, _, request', signing', environment'⟩ := case
  rw [CaseOf.changedDimensionsFrom, EnvironmentProfile.differences, ExperimentDimension.order]
  simp only [filter_cons_eq_compare, List.filter_nil]
  cases signing with
  | none =>
    cases signing' with
    | none => simp [Reported, CaseOf.value, ExperimentDimension.inSigning]
    | some current => simp [Reported, CaseOf.value, ExperimentDimension.inSigning]
  | some signing =>
    cases signing' with
    | none => simp [Reported, CaseOf.value, ExperimentDimension.inSigning]
    | some current =>
      simp [Reported, CaseOf.value, ExperimentDimension.inSigning, SigningInputOf.differences]

theorem filter_order_eq_singleton {p : ExperimentDimension → Prop} [DecidablePred p]
    {dimension : ExperimentDimension} : ExperimentDimension.order.filter p = [dimension] ↔
      p dimension ∧ ∀ other, p other → other = dimension := by
  have hmem : ∀ other, other ∈ ExperimentDimension.order.filter p ↔ p other := fun other => by
    simp [ExperimentDimension.mem_order]
  constructor
  · intro h
    simp only [h, List.mem_singleton] at hmem
    exact ⟨(hmem dimension).mp rfl, fun other hother => (hmem other).mpr hother⟩
  · rintro ⟨hdimension, hunique⟩
    have hnodup := ExperimentDimension.nodup_order.filter p
    cases hfilter : ExperimentDimension.order.filter p with
    | nil =>
      rw [hfilter] at hmem
      exact absurd ((hmem dimension).mpr hdimension) List.not_mem_nil
    | cons first rest =>
      rw [hfilter] at hmem hnodup
      obtain rfl := hunique first ((hmem first).mp List.mem_cons_self)
      have hrest : rest = [] := List.eq_nil_iff_forall_not_mem.mpr fun other hother => by
        obtain rfl := hunique other ((hmem other).mp (List.mem_cons_of_mem _ hother))
        exact (List.nodup_cons.mp hnodup).1 hother
      rw [hrest]

/-- One dimension is reported just when the case is controlled in it. -/
theorem changedDimensionsFrom_eq_singleton {dimension : ExperimentDimension}
    {baseline case : CaseOf V} : case.changedDimensionsFrom baseline = [dimension]
      ↔ Controlled dimension baseline case := by
  rw [changedDimensionsFrom_eq, filter_order_eq_singleton, Controlled, Reported]
  constructor
  · rintro ⟨⟨hdiffers, -⟩, hunique⟩
    refine ⟨hdiffers, fun other hcovers => ?_⟩
    by_contra hother
    -- a field of the signing input goes unreported only where the input itself is reported
    by_cases hgiven : baseline.signing.isSome = case.signing.isSome
    · exact hcovers (Or.inl (hunique other ⟨hother, fun _ => hgiven⟩).symm)
    · have hsigning := hunique .signingInput ⟨fun h => hgiven (given_eq_iff.mp h), nofun⟩
      by_cases hin : other.inSigning = true
      · exact hcovers (Or.inr ⟨hsigning.symm, hin⟩)
      · exact hcovers (Or.inl (hunique other ⟨hother, fun h => absurd h hin⟩).symm)
  · rintro ⟨hdiffers, hsame⟩
    refine ⟨⟨hdiffers, fun hin => ?_⟩, fun other hother => ?_⟩
    · refine given_eq_iff.mp (hsame .signingInput ?_)
      rintro (rfl | ⟨rfl, -⟩) <;> cases hin
    · by_contra hne
      have hcovers : dimension.Covers other := by
        by_contra hcovers
        exact hother.1 (hsame other hcovers)
      rcases hcovers with rfl | ⟨rfl, hin⟩
      · exact hne rfl
      · exact hdiffers (given_eq_iff.mpr (hother.2 hin))

/-- Nothing is reported just when all the inputs are the same. -/
theorem changedDimensionsFrom_eq_nil {baseline case : CaseOf V} :
    case.changedDimensionsFrom baseline = [] ↔ baseline.request = case.request
      ∧ baseline.signing = case.signing ∧ baseline.environment = case.environment := by
  rw [changedDimensionsFrom_eq, List.filter_eq_nil_iff]
  constructor
  · intro h
    have hgiven : baseline.signing.isSome = case.signing.isSome := by
      by_contra hgiven
      refine h .signingInput (ExperimentDimension.mem_order _) (decide_eq_true ⟨?_, nofun⟩)
      exact fun heq => hgiven (given_eq_iff.mp heq)
    refine inputs_of_value fun dimension => ?_
    by_contra hdiffers
    exact h dimension (ExperimentDimension.mem_order _)
      (decide_eq_true ⟨hdiffers, fun _ => hgiven⟩)
  · rintro ⟨hrequest, hsigning, henvironment⟩ dimension - hreported
    refine (of_decide_eq_true hreported).1 ?_
    cases dimension <;> simp only [CaseOf.value, hrequest, hsigning, henvironment]

end Controlled

/-! ## Observed changes -/

section Observed

variable {V W : Type} (digest : V → W)

def DimensionValue.observed : DimensionValue V → DimensionValue W
  | .text value => .text value
  | .hidden value => .hidden (digest value)
  | .number value => .number value
  | .option value => .option value
  | .timestamp mode => .timestamp mode
  | .session mode => .session mode
  | .query mutation => .query (mutation.map (QueryMutationOf.observed digest))
  | .cookie mutation => .cookie mutation
  | .given value => .given value
  | .absent => .absent

theorem value_observed (case : CaseOf V) (dimension : ExperimentDimension) :
    (case.observed digest).value dimension = (case.value dimension).observed digest := by
  obtain ⟨_, _, request, signing, environment⟩ := case
  cases signing <;> cases dimension <;> rfl

theorem observed_eq_absent {value : DimensionValue V} :
    value.observed digest = .absent ↔ value = .absent := by
  cases value <;> simp [DimensionValue.observed]

/-- A field of the signing input is absent just where the input is. -/
theorem value_eq_absent {case : CaseOf V} {dimension : ExperimentDimension}
    (hin : dimension.inSigning = true) :
    case.value dimension = .absent ↔ case.signing.isSome = false := by
  obtain ⟨_, _, request, signing, environment⟩ := case
  cases signing <;> cases dimension <;>
    simp_all [CaseOf.value, ExperimentDimension.inSigning]

variable [DecidableEq V] [DecidableEq W]

/-- The changes that are observed are declared ones, in their order, and they
are all of them just when no two values of a dimension share a digest. -/
theorem changedDimensionsFrom_observed (baseline case : CaseOf V) :
    ((case.observed digest).changedDimensionsFrom (baseline.observed digest)).Sublist
        (case.changedDimensionsFrom baseline)
      ∧ ((case.observed digest).changedDimensionsFrom (baseline.observed digest)
          = case.changedDimensionsFrom baseline
        ↔ ∀ dimension,
          (baseline.value dimension).observed digest = (case.value dimension).observed digest →
          baseline.value dimension = case.value dimension) := by
  have hgiven : ∀ c : CaseOf V, (c.observed digest).signing.isSome = c.signing.isSome :=
    fun c => Option.isSome_map
  have hreported : ∀ dimension,
      Reported (baseline.observed digest) (case.observed digest) dimension →
      Reported baseline case dimension := by
    rintro dimension ⟨hdiffers, hsigning⟩
    rw [hgiven, hgiven] at hsigning
    refine ⟨fun heq => hdiffers ?_, hsigning⟩
    rw [value_observed, value_observed, heq]
  rw [changedDimensionsFrom_eq, changedDimensionsFrom_eq]
  refine ⟨List.monotone_filter_right _ fun dimension hobserved =>
    decide_eq_true (hreported dimension (of_decide_eq_true hobserved)), ?_, ?_⟩
  · intro h dimension hsame
    by_contra hdiffers
    have hsigning : dimension.inSigning = true →
        baseline.signing.isSome = case.signing.isSome := fun hin => by
      have habsent := (observed_eq_absent digest).symm.trans
        ((Eq.congr_left hsame).trans (observed_eq_absent digest))
      rw [value_eq_absent hin, value_eq_absent hin] at habsent
      exact Bool.eq_iff_iff.mpr (by rw [← Bool.not_eq_false, ← Bool.not_eq_false, habsent])
    have hmem : dimension ∈ ExperimentDimension.order.filter (Reported baseline case) :=
      List.mem_filter.mpr ⟨ExperimentDimension.mem_order _, decide_eq_true ⟨hdiffers, hsigning⟩⟩
    rw [← h] at hmem
    refine (of_decide_eq_true (List.mem_filter.mp hmem).2).1 ?_
    rw [value_observed, value_observed, hsame]
  · intro h
    refine List.filter_congr fun dimension _ => decide_eq_decide.mpr
      ⟨hreported dimension, fun hraw => ⟨fun heq => hraw.1 (h dimension ?_), ?_⟩⟩
    · rwa [value_observed, value_observed] at heq
    · rw [hgiven, hgiven]
      exact hraw.2

end Observed

/-! ## Plans -/

section Checks

theorem rejectIf_eq_ok {bad : Bool} {error : ExperimentError} :
    rejectIf bad error = .ok () ↔ bad = false := by
  cases bad <;> simp [rejectIf]

/-- A check, and then the rest. -/
theorem unit_bind_eq_ok {ε β : Type} {x : Except ε Unit} {f : Unit → Except ε β} {b : β} :
    (x >>= f) = .ok b ↔ x = .ok () ∧ f () = .ok b := by
  rw [bind_eq_ok]
  exact ⟨fun ⟨(), h⟩ => h, fun h => ⟨(), h⟩⟩

theorem forM_eq_ok {α ε : Type} {f : α → Except ε Unit} {as : List α} :
    as.forM f = .ok () ↔ ∀ a ∈ as, f a = .ok () := by
  induction as with
  | nil => simp [pure, Except.pure]
  | cons a as ih =>
    change (f a >>= fun _ => as.forM f) = .ok () ↔ _
    rw [unit_bind_eq_ok, ih, List.forall_mem_cons]

end Checks

/-- What is asked of the cookie that is changed. -/
def CookieMutation.Fit (mutation : CookieMutation) : Prop :=
  mutation.name ≠ "" ∧ ∀ b ∈ asBytes mutation.name, isCookieNameByte b = true

/-- What is asked of a device id. -/
def IsDeviceId (text : String) : Prop :=
  text.utf8ByteSize = 19 ∧ ∀ c ∈ text.toList, c.isDigit = true

/-- What `validate_case` asks of a case. -/
structure CaseOf.Fit (case : ExperimentCase) : Prop where
  id : case.id ≠ "" ∧ ∀ c ∈ case.id.toList, c.isAlphanum = true ∨ c = '-' ∨ c = '_'
  room : case.request.roomId ≠ "" ∧ ∀ c ∈ case.request.roomId.toList, c.isDigit = true
  texts : ∀ text ∈ case.environment.texts, text.2 ≠ ""
  screen : case.environment.screenWidth ≠ 0 ∧ case.environment.screenHeight ≠ 0
  device : ∀ signing, case.signing = some signing → IsDeviceId signing.deviceId
  query : ∀ signing, case.signing = some signing → signing.queryMutation.isSome = true →
    ∃ url, ExperimentCase.signingUrl case = .ok url
  cookie : ∀ signing mutation, case.signing = some signing →
    signing.cookieMutation = some mutation → mutation.Fit

theorem CookieMutation.validate_eq_ok {mutation : CookieMutation} {caseId : String} :
    mutation.validate caseId = .ok () ↔ mutation.Fit := by
  rw [CookieMutation.validate, rejectIf_eq_ok, CookieMutation.Fit]
  simp

theorem validateSigning_eq_ok {case : ExperimentCase} {signing : SigningInput} :
    validateSigning case signing = .ok () ↔ IsDeviceId signing.deviceId
      ∧ (signing.queryMutation.isSome = true →
        ∃ url, ExperimentCase.signingUrl case = .ok url)
      ∧ ∀ mutation, signing.cookieMutation = some mutation → mutation.Fit := by
  rw [validateSigning, unit_bind_eq_ok, unit_bind_eq_ok, rejectIf_eq_ok]
  refine and_congr (by simp [IsDeviceId]) (and_congr ?_ ?_)
  · split_ifs with hquery
    · cases hurl : ExperimentCase.signingUrl case <;> simp [hquery, Except.map]
    · simp [hquery]
  · cases signing.cookieMutation <;> simp [CookieMutation.validate_eq_ok]

theorem validateCase_eq_ok {case : ExperimentCase} : validateCase case = .ok () ↔ case.Fit := by
  rw [validateCase]
  simp only [unit_bind_eq_ok, rejectIf_eq_ok, forM_eq_ok]
  constructor
  · rintro ⟨hid, hroom, htexts, hwidth, hheight, hsigning⟩
    have hinput : ∀ signing, case.signing = some signing →
        validateSigning case signing = .ok () := fun signing h => by rwa [h] at hsigning
    exact {
      id := by simpa [or_assoc] using hid
      room := by simpa using hroom
      texts := fun text htext => by simpa using htexts text htext
      screen := ⟨by simpa using hwidth, by simpa using hheight⟩
      device := fun signing h => (validateSigning_eq_ok.mp (hinput signing h)).1
      query := fun signing h => (validateSigning_eq_ok.mp (hinput signing h)).2.1
      cookie := fun signing mutation h =>
        (validateSigning_eq_ok.mp (hinput signing h)).2.2 mutation }
  · intro h
    refine ⟨by simpa [or_assoc] using h.id, by simpa using h.room, fun text htext => ?_,
      by simpa using h.screen.1, by simpa using h.screen.2, ?_⟩
    · simpa using h.texts text htext
    · cases hsigning : case.signing with
      | none => rfl
      | some signing =>
        exact validateSigning_eq_ok.mpr ⟨h.device signing hsigning, h.query signing hsigning,
          fun mutation => h.cookie signing mutation hsigning⟩

namespace ExperimentPlan

/-- The baseline, and then the experiments. -/
def cases (plan : ExperimentPlan) : List ExperimentCase := plan.baseline :: plan.experiments

theorem validateExperiments_eq_ok {baseline : ExperimentCase} {ids : List String}
    {experiments : List ExperimentCase} :
    validateExperiments baseline ids experiments = .ok () ↔
      (∀ experiment ∈ experiments, experiment.Fit
        ∧ ∃ dimension, Controlled dimension baseline experiment)
      ∧ (∀ experiment ∈ experiments, experiment.id ∉ ids)
      ∧ (experiments.map CaseOf.id).Nodup := by
  induction experiments generalizing ids with
  | nil => simp [validateExperiments]
  | cons experiment experiments ih =>
    rw [validateExperiments]
    simp only [unit_bind_eq_ok, rejectIf_eq_ok, validateCase_eq_ok, ih, decide_eq_false_iff_not,
      not_not, List.length_eq_one_iff, changedDimensionsFrom_eq_singleton, List.forall_mem_cons,
      List.map_cons, List.nodup_cons, List.mem_map, not_exists, not_and]
    simp only [List.mem_cons, not_or]
    constructor
    · rintro ⟨hfit, hid, hcontrolled, hrest, hids, hnodup⟩
      exact ⟨⟨⟨hfit, hcontrolled⟩, hrest⟩, ⟨hid, fun other hother => (hids other hother).2⟩,
        fun other hother => (hids other hother).1, hnodup⟩
    · rintro ⟨⟨⟨hfit, hcontrolled⟩, hrest⟩, ⟨hid, hids⟩, hne, hnodup⟩
      exact ⟨hfit, hid, hcontrolled, hrest,
        fun other hother => ⟨hne other hother, hids other hother⟩, hnodup⟩

/-- A plan is accepted just when its version is known, its cases are fit and
have their own ids, and each experiment is the baseline but for one
dimension. -/
theorem validate_eq_ok (plan : ExperimentPlan) : plan.validate = .ok () ↔
    plan.planVersion = experimentPlanVersion ∧ (∀ case ∈ plan.cases, case.Fit)
      ∧ (plan.cases.map CaseOf.id).Nodup
      ∧ ∀ experiment ∈ plan.experiments,
        ∃ dimension, Controlled dimension plan.baseline experiment := by
  rw [validate]
  simp only [unit_bind_eq_ok, rejectIf_eq_ok, validateCase_eq_ok, validateExperiments_eq_ok,
    decide_eq_false_iff_not, not_not, cases, List.forall_mem_cons, List.map_cons,
    List.nodup_cons, List.mem_map, not_exists, not_and, List.mem_singleton, forall_and]
  tauto

end ExperimentPlan

end TiktokSigner.SignLab
