import TiktokSigner.LiveWs.Reconnect
import TiktokSigner.SignCore.CookieJar
import TiktokSigner.SignCore.Frames

/-!
# Replay fixtures

`ttl-sign-replay`: a versioned, sanitized case and the backend that answers
from it. Numbers keep the width they have in a fixture.
-/

namespace TiktokSigner.SignReplay

open LiveWs (RejectReason SignError WebcastRefusal)

/-! ## Outcomes -/

structure SignedFetch where
  protobuf : Bytes
  cookies : CookieJar
  userAgent : String
  signedUrl : String

inductive SignOutcome where
  | ok (signed : SignedFetch)
  | rejected (reason : RejectReason)
  | transport (error : SignError)

structure TransportRequest where
  roomId : String

/-! ## Fixtures -/

def fixtureVersion : Nat := 1

structure FixtureRequest where
  roomId : String

structure FixtureEnvironment where
  preset : String
  userAgent : String
  session : String

structure TransportFixture where
  pushServer : String
  routeParams : List (String × String)
  cursor : String
  internalExt : String
  heartbeatDuration : UInt64
  needAck : Bool

inductive FixtureRejectReason where
  | emptyBody
  | emptyPushServer
  | httpStatus (code : UInt16)

inductive FixtureSignError where
  | sdkNotReady
  | noInstanceAvailable
  | backendUnavailable (message : String)
  | bridge (message : String)
  | engineGone (message : String)
  | loginTimeout (seconds : UInt64)
  | timeout (milliseconds : UInt64)
  | transport (message : String)
  | decode (message : String)
  | refused (statusCode : Int64) (message : String)

inductive FixtureOutcome where
  | success (transport : TransportFixture) (cookies : List (String × String))
  | rejected (reason : FixtureRejectReason)
  | error (error : FixtureSignError)

structure ReplayCase where
  fixtureVersion : Nat
  caseId : String
  description : String
  request : FixtureRequest
  environment : FixtureEnvironment
  expected : FixtureOutcome

/-- The errors of a fixture in memory. -/
inductive ReplayError where
  | unsupportedVersion (path : String) (found expected : Nat)
  | invalid (path message : String)

/-! ## Validation -/

/-- `value.starts_with("fixture-")`. -/
def IsPlaceholder (value : String) : Prop := "fixture-".toList <+: value.toList

instance (value : String) : Decidable (IsPlaceholder value) :=
  inferInstanceAs (Decidable (_ <+: _))

def invalid (path message : String) : Except ReplayError Unit := .error (.invalid path message)

def FixtureSignError.message : FixtureSignError → Option String
  | .backendUnavailable message | .bridge message | .engineGone message | .transport message
  | .decode message | .refused _ message => some message
  | .sdkNotReady | .noInstanceAvailable | .loginTimeout _ | .timeout _ => none

/-- A value of a fixture is empty or a placeholder. -/
def Sanitized (value : String) : Prop := value = "" ∨ IsPlaceholder value

instance (value : String) : Decidable (Sanitized value) := inferInstanceAs (Decidable (_ ∨ _))

/-- The part of `validate_at` about the expected outcome. -/
def FixtureOutcome.validateAt (path : String) : FixtureOutcome → Except ReplayError Unit
  | .success transport cookies =>
      if '?' ∈ transport.pushServer.toList ∨ '#' ∈ transport.pushServer.toList then
        invalid path "push_server must not contain signed query material"
      else if transport.pushServer = "" ∨ transport.routeParams = [] then
        invalid path "successful transport is incomplete"
      else if ∃ entry ∈ cookies ++ transport.routeParams, entry.1 = "" ∨ ¬Sanitized entry.2 then
        invalid path "cookie and route parameter values must use fixture-* placeholders"
      else if ∃ value ∈ [transport.cursor, transport.internalExt], ¬Sanitized value then
        invalid path "cursor and internal_ext must use fixture-* placeholders"
      else .ok ()
  | .rejected _ => .ok ()
  | .error cause =>
      if cause.message.any fun message => ¬IsPlaceholder message then
        invalid path "error messages must use fixture-* placeholders"
      else .ok ()

namespace ReplayCase

def validateAt (self : ReplayCase) (path : String) : Except ReplayError Unit :=
  if self.fixtureVersion ≠ SignReplay.fixtureVersion then
    .error (.unsupportedVersion path self.fixtureVersion SignReplay.fixtureVersion)
  else if self.caseId = "" then invalid path "case_id is empty"
  else if self.request.roomId = "" ∨ ¬self.request.roomId.toList.all Char.isDigit then
    invalid path "room_id must be non-empty and numeric"
  else if self.environment.userAgent = "" then invalid path "environment.user_agent is empty"
  else if self.environment.session ≠ "guest" ∧ self.environment.session ≠ "sanitized"
      ∧ ¬IsPlaceholder self.environment.session then
    invalid path "environment.session must be guest, sanitized, or a fixture-* placeholder"
  else self.expected.validateAt path

/-- Validate fixture version, required fields, and the sanitization contract. -/
def validate (self : ReplayCase) : Except ReplayError Unit := self.validateAt "<memory>"

end ReplayCase

/-! ## Answers -/

def FixtureRejectReason.reason : FixtureRejectReason → RejectReason
  | .emptyBody => .emptyBody
  | .emptyPushServer => .emptyPushServer
  | .httpStatus code => .httpStatus code

def FixtureSignError.error : FixtureSignError → SignError
  | .sdkNotReady => .sdkNotReady
  | .noInstanceAvailable => .noInstanceAvailable
  | .backendUnavailable message => .backendUnavailable message
  | .bridge message => .bridge message
  | .engineGone message => .engineGone message
  | .loginTimeout seconds => .loginTimeout seconds
  | .timeout milliseconds => .timeout milliseconds
  | .transport message => .transport message
  | .decode message => .decode message
  | .refused statusCode message => .refused ⟨statusCode, message⟩

/-- The response that a fixture stands for, as the wire bytes encode it. -/
def TransportFixture.fetch (transport : TransportFixture) : FetchResult where
  pushServer := transport.pushServer
  routeParams := transport.routeParams
  cursor := transport.cursor
  internalExt := transport.internalExt
  heartbeatDuration := transport.heartbeatDuration
  needAck := transport.needAck

def ReplayCase.intoOutcome (self : ReplayCase) : SignOutcome :=
  match self.expected with
  | .success transport cookies =>
      .ok
        { protobuf := transport.fetch.encode
          cookies := .fromIter cookies
          userAgent := self.environment.userAgent
          signedUrl := transport.pushServer }
  | .rejected reason => .rejected reason.reason
  | .error error => .transport error.error

structure ClientIdentity where
  userAgent : String

/-- Fixture-backed backend. -/
structure ReplayBackend where
  identity : ClientIdentity
  responses : List (String × SignOutcome)

namespace ReplayBackend

def fromValidCase (case : ReplayCase) : ReplayBackend where
  identity := ⟨case.environment.userAgent⟩
  responses := [(case.request.roomId, case.intoOutcome)]

def transport (self : ReplayBackend) (request : TransportRequest) : SignOutcome :=
  (self.responses.lookup request.roomId).getD
    (.transport (.backendUnavailable ("no replay case for room " ++ request.roomId)))

theorem transport_fromValidCase (case : ReplayCase) :
    (fromValidCase case).transport ⟨case.request.roomId⟩ = case.intoOutcome := by
  simp [fromValidCase, transport]

end ReplayBackend

end TiktokSigner.SignReplay
