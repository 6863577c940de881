import Mathlib.Data.String.Basic
import TiktokSigner.Lib.KeyedSort
import TiktokSigner.SignLab.Subgraph

/-!
# Environment surfaces

`environment_surface.rs`: the browser properties that the signing bundle
touches. `buildEnvironmentSurface` merges the accesses of one path and sorts
what the instrumentation says of each root.

The map of paths is a family, and what is iterated in its order is sorted
first; `usize` counts are natural numbers.
-/

namespace TiktokSigner.SignLab

open Gather KeyedSort

def environmentSurfaceVersion : Nat := 1

/-- In the order that is derived for it. -/
inductive SurfaceRoot where
  | window
  | document
  | navigator
  | screen
  | location
  | storage
  | crypto
  | intl
  | date
  | other
deriving DecidableEq

namespace SurfaceRoot

/-- The place in the derived order. -/
def rank : SurfaceRoot → Nat
  | window => 0
  | document => 1
  | navigator => 2
  | screen => 3
  | location => 4
  | storage => 5
  | crypto => 6
  | intl => 7
  | date => 8
  | other => 9

theorem rank_injective : Function.Injective rank := by
  intro a b h
  cases a <;> cases b <;> first | rfl | cases h

/-- A path is classified by its first segment. -/
def of (path : String) : SurfaceRoot :=
  match String.ofList (path.toList.takeWhile (· ≠ '.')) with
  | "window" => window
  | "document" => document
  | "navigator" => navigator
  | "screen" => screen
  | "location" => location
  | "localStorage" | "sessionStorage" => storage
  | "crypto" => crypto
  | "Intl" => intl
  | "Date" => date
  | _ => other

end SurfaceRoot

structure AccessOps where
  gets : Nat := 0
  sets : Nat := 0
  calls : Nat := 0
  has : Nat := 0
deriving DecidableEq

def AccessOps.merge (self other : AccessOps) : AccessOps where
  gets := self.gets + other.gets
  sets := self.sets + other.sets
  calls := self.calls + other.calls
  has := self.has + other.has

structure PropertyAccess where
  path : String
  root : SurfaceRoot
  operations : AccessOps
  valueType : ValueType
  valueClass : Option String
  byteLengths : List Nat
deriving DecidableEq

structure InstrumentationCoverage where
  root : SurfaceRoot
  installed : Bool
  note : Option String
deriving DecidableEq

structure SurfaceSource where
  caseId : String
  bundleEndpoint : String
  bundle : ValueDigest
  product : String
  clockMs : Nat
deriving DecidableEq

structure EnvironmentSurfaceDocument where
  surfaceVersion : Nat
  source : SurfaceSource
  instrumentation : List InstrumentationCoverage
  properties : List PropertyAccess
deriving DecidableEq

/-- A path that is touched for the first time. -/
def PropertyAccess.first (access : PropertyAccess) : PropertyAccess where
  path := access.path
  root := .of access.path
  operations := access.operations
  valueType := access.valueType
  valueClass := access.valueClass
  byteLengths := access.byteLengths.toFinset.sort

/-- What an access adds to those before it. Two types make an unknown one,
and the first class stays. -/
def PropertyAccess.absorb (existing access : PropertyAccess) : PropertyAccess where
  path := existing.path
  root := existing.root
  operations := existing.operations.merge access.operations
  valueType := if existing.valueType ≠ access.valueType then .unknown else existing.valueType
  valueClass := if existing.valueClass.isNone then access.valueClass else existing.valueClass
  byteLengths := (existing.byteLengths.toFinset ∪ access.byteLengths.toFinset).sort

/-- One turn of the loop over the accesses. -/
def mergeAccess (merged : String → Option PropertyAccess) (access : PropertyAccess) :
    String → Option PropertyAccess :=
  modify merged access.path fun
    | some existing => some (existing.absorb access)
    | none => some access.first

def mergeAccesses (accesses : List PropertyAccess) : String → Option PropertyAccess :=
  accesses.foldl mergeAccess fun _ => none

/-- The paths that were touched, in order. -/
def pathsOf (accesses : List PropertyAccess) : List String :=
  (accesses.map PropertyAccess.path).toFinset.sort

def buildEnvironmentSurface (source : SurfaceSource)
    (instrumentation : List InstrumentationCoverage) (accesses : List PropertyAccess) :
    EnvironmentSurfaceDocument where
  surfaceVersion := environmentSurfaceVersion
  source := source
  instrumentation := sortDedup (fun coverage => coverage.root.rank) instrumentation
  properties :=
    ((accesses.map PropertyAccess.path).toFinset.sort).filterMap (mergeAccesses accesses)

end TiktokSigner.SignLab
