import TiktokSigner.Lib.Intern
import TiktokSigner.SignLab.VmTrace
import TiktokSigner.SignReplay.ReplayCase

/-!
# Capturing an outcome

`capture.rs`: a live outcome becomes an observation and a replay case. The
table of placeholders is shared by the route parameters, the cookies, the
cursor and `internal_ext`, in this order.

`sha256` is the hex digest of `ValueDigest::of`. The metadata of an
observation (backend, versions, clock, platform) is left out, and an
experiment is any value.
-/

namespace TiktokSigner.SignLab

open LiveWs (RejectReason SignError)
open SignReplay

/-! ## Cases -/

structure EnvironmentInput where
  preset : String
  timestampMode : String
  session : String

structure ResearchCase where
  id : String
  description : String
  request : TransportRequest
  environment : EnvironmentInput

/-! ## Observations -/

inductive ObservationOutcome where
  | success
  | rejected (reason : String) (status : Option UInt16)
  | error (errorClass : String)
  | decodeError

structure ObservedParameter where
  name : String
  value : ValueDigest

structure TransportObservation where
  endpoint : String
  routeParams : List ObservedParameter
  cursor : ValueDigest
  internalExt : ValueDigest
  heartbeatDuration : UInt64
  needAck : Bool

structure Observation where
  outcome : ObservationOutcome
  userAgent : Option String := none
  cookieNames : List String := []
  transport : Option TransportObservation := none
  protobuf : Option ValueDigest := none

/-- `uri.split(['?', '#']).next()`. -/
def stripQuery (uri : String) : String :=
  String.ofList (uri.toList.takeWhile fun c => c ≠ '?' ∧ c ≠ '#')

def errorClass : SignError → String
  | .sdkNotReady => "sdk_not_ready"
  | .noInstanceAvailable => "no_instance_available"
  | .backendUnavailable _ => "backend_unavailable"
  | .bridge _ => "bridge"
  | .engineGone _ => "engine_gone"
  | .loginTimeout _ => "login_timeout"
  | .timeout _ => "timeout"
  | .transport _ => "transport"
  | .decode _ => "decode"
  | .refused _ => "refused"

section Digest

variable (sha256 : Bytes → String)

def ValueDigest.of (value : Bytes) : ValueDigest := ⟨sha256 value, value.length⟩

def observeOutcome (outcome : SignOutcome) : Observation :=
  match outcome with
  | .ok signed =>
      let cookieNames := signed.cookies.entries.map (·.1)
      let protobuf := ValueDigest.of sha256 signed.protobuf
      match FetchResult.decode signed.protobuf with
      | .ok fetch =>
          { outcome := .success
            userAgent := some signed.userAgent
            cookieNames
            transport := some
              { endpoint := stripQuery fetch.pushServer
                routeParams := fetch.routeParams.map fun param =>
                  ⟨param.1, ValueDigest.of sha256 (asBytes param.2)⟩
                cursor := ValueDigest.of sha256 (asBytes fetch.cursor)
                internalExt := ValueDigest.of sha256 (asBytes fetch.internalExt)
                heartbeatDuration := fetch.heartbeatDuration
                needAck := fetch.needAck }
            protobuf := some protobuf }
      | .error _ =>
          { outcome := .decodeError
            userAgent := some signed.userAgent
            cookieNames
            protobuf := some protobuf }
  | .rejected .emptyBody => { outcome := .rejected "empty_body" none }
  | .rejected .emptyPushServer => { outcome := .rejected "empty_push_server" none }
  | .rejected (.httpStatus code) => { outcome := .rejected "http_status" (some code) }
  | .transport error => { outcome := .error (errorClass error) }

end Digest

/-! ## Placeholders -/

abbrev Placeholders := Intern.Table String String

/-- `{n:04}`: at least four digits. -/
def fourDigits (n : Nat) : List Char :=
  let digits := Nat.toDigits 10 n
  List.replicate (4 - digits.length) '0' ++ digits

/-- `format!("fixture-{kind}-{n:04}")`. -/
def placeholder (kind : String) (n : Nat) : String :=
  String.ofList ("fixture-".toList ++ kind.toList ++ '-' :: fourDigits n)

namespace Placeholders

def value (self : Placeholders) (kind value : String) : String × Placeholders :=
  if value = "" then ("", self) else self.intern (placeholder kind) value

/-- The `map` over named values. -/
def values (self : Placeholders) (kind : String) :
    List (String × String) → List (String × String) × Placeholders
  | [] => ([], self)
  | (name, value) :: entries =>
      let (value, placeholders) := self.value kind value
      let (entries, placeholders) := placeholders.values kind entries
      ((name, value) :: entries, placeholders)

end Placeholders

/-! ## The capture -/

inductive CaptureError where
  | decode (message : String)
  | invalidReplay (error : ReplayError)

structure CaptureBundle (Experiment : Type) where
  case : ResearchCase
  experiment : Option Experiment
  observation : Observation
  replay : ReplayCase

def sanitizeReason : RejectReason → FixtureRejectReason
  | .emptyBody => .emptyBody
  | .emptyPushServer => .emptyPushServer
  | .httpStatus code => .httpStatus code

def sanitizeError : SignError → FixtureSignError
  | .sdkNotReady => .sdkNotReady
  | .noInstanceAvailable => .noInstanceAvailable
  | .backendUnavailable _ => .backendUnavailable "fixture-backend-unavailable"
  | .bridge _ => .bridge "fixture-bridge-error"
  | .engineGone _ => .engineGone "fixture-engine-gone"
  | .loginTimeout seconds => .loginTimeout seconds
  | .timeout milliseconds => .timeout milliseconds
  | .transport _ => .transport "fixture-transport-error"
  | .decode _ => .decode "fixture-decode-error"
  | .refused refusal => .refused refusal.statusCode "fixture-upstream-refusal"

/-- The success case of `sanitize_outcome`, after decoding. -/
def sanitizeFetch (fetch : FetchResult) (cookies : List (String × String)) : FixtureOutcome :=
  let placeholders : Placeholders := {}
  let (routeParams, placeholders) := placeholders.values "route" fetch.routeParams
  let (cookies, placeholders) :=
    placeholders.values "cookie" (cookies.filter fun cookie => cookie.2 ≠ "")
  let (cursor, placeholders) := placeholders.value "cursor" fetch.cursor
  let (internalExt, _) := placeholders.value "internal-ext" fetch.internalExt
  .success
    { pushServer := stripQuery fetch.pushServer
      routeParams
      cursor
      internalExt
      heartbeatDuration := fetch.heartbeatDuration
      needAck := fetch.needAck }
    cookies

def sanitizeOutcome (outcome : SignOutcome) : Except CaptureError FixtureOutcome :=
  match outcome with
  | .ok signed =>
      match FetchResult.decode signed.protobuf with
      | .ok fetch => .ok (sanitizeFetch fetch signed.cookies.entries)
      | .error error => .error (.decode error.display)
  | .rejected reason => .ok (.rejected (sanitizeReason reason))
  | .transport error => .ok (.error (sanitizeError error))

/-- The replay case of a sanitized outcome. -/
def replayCase (case : ResearchCase) (userAgent : Option String) (expected : FixtureOutcome) :
    ReplayCase where
  fixtureVersion := SignReplay.fixtureVersion
  caseId := case.id
  description := case.description
  request := ⟨case.request.roomId⟩
  environment :=
    { preset := case.environment.preset
      userAgent := userAgent.getD "fixture-unavailable-user-agent"
      session := if case.environment.session = "guest" then "guest" else "sanitized" }
  expected

def captureWithExperiment {Experiment : Type} (sha256 : Bytes → String) (case : ResearchCase)
    (experiment : Option Experiment) (outcome : SignOutcome) :
    Except CaptureError (CaptureBundle Experiment) := do
  let observation := observeOutcome sha256 outcome
  let expected ← sanitizeOutcome outcome
  let replay := replayCase case observation.userAgent expected
  match replay.validate with
  | .ok () => .ok { case, experiment, observation, replay }
  | .error error => .error (.invalidReplay error)

/-- `Unit` stands for the experiment there is not. -/
def captureOutcome (sha256 : Bytes → String) (case : ResearchCase) (outcome : SignOutcome) :
    Except CaptureError (CaptureBundle Unit) :=
  captureWithExperiment sha256 case none outcome

end TiktokSigner.SignLab
