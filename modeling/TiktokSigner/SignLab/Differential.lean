import Mathlib.Data.Finset.Sort
import TiktokSigner.Lib.Occurrences
import TiktokSigner.Lib.Gather
import TiktokSigner.SignLab.Capture

/-!
# The differential comparison

`compare_observations` of `lib.rs`. Parameters are compared by how often
each name occurs, by the sequence of the names and, occurrence by
occurrence, by their values.

The counts of a hash map are a multiset, whose elements are its keys. The
order in which a hash map is iterated is any order of its keys
(`HashOrder`), and may be another for each map.
-/

namespace TiktokSigner.SignLab

open Gather Occurrences

deriving instance DecidableEq for ObservationOutcome, ObservedParameter, TransportObservation,
  Observation

/-- An observation and what it says of its origin, which is not compared. -/
structure RecordedObservation (Metadata : Type) extends Observation where
  metadata : Metadata

inductive Difference where
  | missingParameter (name : String)
  | unexpectedParameter (name : String)
  | parameterValue (name : String) (oracle candidate : ValueDigest)
  | parameterOrder
  | encoding (field : String)
  | header (name : String)
  | userAgent
  | timestamp
  | transportField (field : String)
  | protobufField (field : String)
  | outcome
deriving DecidableEq

/-- The order in which a hash map happens to be iterated. -/
structure HashOrder where
  keys : Multiset String → List String
  nodup : ∀ counts, (keys counts).Nodup
  mem : ∀ counts name, name ∈ keys counts ↔ name ∈ counts

/-- A map may happen to be iterated in the order of its keys. -/
instance : Nonempty HashOrder :=
  ⟨{ keys := fun counts => counts.toFinset.sort
     nodup := fun _ => Finset.sort_nodup ..
     mem := fun counts name => by simp }⟩

/-! ## Parameters -/

/-- The names, as often as they occur. -/
def counts (parameters : List ObservedParameter) : Multiset String :=
  (parameters.map ObservedParameter.name : Multiset String)

/-- The digests of a name, in the order of the candidate. -/
def candidateByName (candidate : List ObservedParameter) : String → List ValueDigest :=
  candidate.foldl (fun byName parameter => modify byName parameter.name (· ++ [parameter.value]))
    fun _ => []

/-- The last loop. An oracle parameter meets the candidate of the same
occurrence of its name, if there is one. -/
def compareValues (byName : String → List ValueDigest) :
    (String → Nat) → List ObservedParameter → List Difference
  | _, [] => []
  | occurrences, parameter :: rest =>
      (match (byName parameter.name)[occurrences parameter.name]? with
        | some value =>
            if parameter.value ≠ value then
              [.parameterValue parameter.name parameter.value value]
            else []
        | none => [])
        ++ compareValues byName (modify occurrences parameter.name (· + 1)) rest

section Compare

variable (oracleOrder candidateOrder : HashOrder)

def compareParameters (oracle candidate : List ObservedParameter) : List Difference :=
  let oracleCounts := counts oracle
  let candidateCounts := counts candidate
  ((oracleOrder.keys oracleCounts).flatMap fun name =>
      List.replicate (oracleCounts.count name - candidateCounts.count name)
        (.missingParameter name))
    ++ ((candidateOrder.keys candidateCounts).flatMap fun name =>
      List.replicate (candidateCounts.count name - oracleCounts.count name)
        (.unexpectedParameter name))
    ++ (if oracleCounts = candidateCounts
          ∧ oracle.map ObservedParameter.name ≠ candidate.map ObservedParameter.name then
        [.parameterOrder]
      else [])
    ++ compareValues (candidateByName candidate) (fun _ => 0) oracle

/-- `if oracle.field != candidate.field { differences.push(..) }`. -/
def pushDifference {α : Type} [DecidableEq α] (oracle candidate : α) (difference : Difference) :
    List Difference :=
  if oracle ≠ candidate then [difference] else []

def compareTransport (oracle candidate : TransportObservation) : List Difference :=
  pushDifference oracle.endpoint candidate.endpoint (.transportField "endpoint")
    ++ pushDifference oracle.cursor candidate.cursor (.transportField "cursor")
    ++ pushDifference oracle.internalExt candidate.internalExt (.transportField "internal_ext")
    ++ pushDifference oracle.heartbeatDuration candidate.heartbeatDuration
      (.protobufField "heartbeat_duration")
    ++ pushDifference oracle.needAck candidate.needAck (.protobufField "need_ack")
    ++ compareParameters oracleOrder candidateOrder oracle.routeParams candidate.routeParams

/-- The `match` on the two transports. -/
def compareTransports : Option TransportObservation → Option TransportObservation → List Difference
  | some oracle, some candidate => compareTransport oracleOrder candidateOrder oracle candidate
  | none, none => []
  | _, _ => [.transportField "presence"]

def compareObservations {Metadata : Type} (oracle candidate : RecordedObservation Metadata) :
    List Difference :=
  pushDifference oracle.outcome candidate.outcome .outcome
    ++ pushDifference oracle.userAgent candidate.userAgent .userAgent
    ++ pushDifference oracle.cookieNames candidate.cookieNames (.header "cookie_names")
    ++ compareTransports oracleOrder candidateOrder oracle.transport candidate.transport
    ++ pushDifference oracle.protobuf candidate.protobuf (.protobufField "encoded_bytes")

end Compare

end TiktokSigner.SignLab
