import TiktokSigner.Lib.Keyed
import TiktokSigner.SignLab.Subgraph

/-!
# The structural comparison of two subgraph documents

`subgraph_diff.rs`. The differences are sorted and deduplicated at the
end, so they are the set of what the loops push. `find` is the search by
`route`, `opcode` or `entry`.
-/

namespace TiktokSigner.SignLab

open Keyed

inductive SubgraphDifferenceKind where
  | routeObservation
  | phase
  | reachableFrames
  | callEdges
  | handlerSet
  | operandShapes
  | argumentShapes
  | returnShapes
  | environmentDependencies
  | dependencyClassification
  | registerProfile
  | truncation
deriving DecidableEq

structure SubgraphDifference where
  route : RouteName
  kind : SubgraphDifferenceKind
  detail : String
deriving DecidableEq

structure SubgraphDifferentialResult where
  baselineCaseId : String
  candidateCaseId : String
  sameBundle : Bool
  differences : Finset SubgraphDifference
deriving DecidableEq

def SubgraphDifferentialResult.isStructurallyEquivalent (self : SubgraphDifferentialResult) : Bool :=
  self.differences = ∅

/-! ## Labels and keys -/

def CallEdge.edge (edge : CallEdge) : Option Nat × Nat := (edge.parent, edge.child)

def parentLabel (parent : Option Nat) : String := (parent.map toString).getD "root"

def TracePhase.label : TracePhase → String
  | .eval => "eval"
  | .invocation => "invocation"
  | .unknown => "unknown"

/-- Byte lengths are entropy and are left out. -/
def shapeClasses (shapes : Finset ShapeClass) : Finset ShapeKey :=
  shapes.image fun shape => (shape.valueType, shape.valueClass, shape.objectKeys)

def argumentClasses (frame : SubgraphFrame) : Finset (Nat × Finset ShapeKey) :=
  frame.argumentShapes.image fun argument => (argument.position, shapeClasses argument.shapes)

/-! ## The comparison -/

/-- `if changed { push(kind, detail) }`. -/
def push (route : RouteName) (changed : Prop) [Decidable changed] (kind : SubgraphDifferenceKind)
    (detail : String) : Finset SubgraphDifference :=
  if changed then {⟨route, kind, detail⟩} else ∅

/-- The two loops over what is in one of the sets only. -/
def pushOnly {α : Type} [DecidableEq α] (route : RouteName) (kind : SubgraphDifferenceKind)
    (label : α → String) (baseline candidate : Finset α) : Finset SubgraphDifference :=
  ((baseline \ candidate).image fun a => ⟨route, kind, label a ++ " in baseline only"⟩)
    ∪ (candidate \ baseline).image fun a => ⟨route, kind, label a ++ " in candidate only"⟩

/-- One handler of both documents. -/
def compareHandler (route : RouteName) (left right : HandlerUse) : Finset SubgraphDifference :=
  let name := "handler " ++ toString left.opcode
  push route (left.operandWidths ≠ right.operandWidths) .operandShapes
      (name ++ " operand widths changed")
    ∪ push route (left.operandHelpers ≠ right.operandHelpers) .operandShapes
      (name ++ " operand helper kinds changed")
    ∪ push route (left.handlerTags ≠ right.handlerTags) .handlerSet (name ++ " tags changed")
    ∪ push route (left.environment ≠ right.environment) .environmentDependencies
      (name ++ " environment flags changed")

/-- One frame of both documents. -/
def compareFrame (route : RouteName) (left right : SubgraphFrame) : Finset SubgraphDifference :=
  let name := "frame " ++ toString left.entry
  push route (left.environment ≠ right.environment) .environmentDependencies
      (name ++ " environment flags changed")
    ∪ push route (left.parents ≠ right.parents) .callEdges (name ++ " parents changed")
    ∪ push route (left.handlers ≠ right.handlers) .handlerSet (name ++ " handler set changed")
    ∪ push route (left.registerOps.valueClasses ≠ right.registerOps.valueClasses)
      .registerProfile (name ++ " register value classes changed")
    ∪ push route (argumentClasses left ≠ argumentClasses right) .argumentShapes
      (name ++ " argument shape classes changed")
    ∪ push route (shapeClasses left.returnShapes ≠ shapeClasses right.returnShapes)
      .returnShapes (name ++ " return shape classes changed")

/-- The loop over the keys of both lists, with the records that a search
finds there. -/
def compareBoth {α κ : Type} [DecidableEq κ] (key : α → κ)
    (compare : α → α → Finset SubgraphDifference) (baseline candidate : List α) :
    Finset SubgraphDifference :=
  ((baseline.map key).toFinset ∩ (candidate.map key).toFinset).biUnion fun k =>
    match find key k baseline, find key k candidate with
    | some left, some right => compare left right
    | _, _ => ∅

def compareRoute (baseline candidate : RouteSubgraph) : Finset SubgraphDifference :=
  let route := baseline.route
  push route (baseline.observed ≠ candidate.observed) .routeObservation
      ("observed " ++ toString baseline.observed ++ " → " ++ toString candidate.observed)
    ∪ push route (baseline.phase ≠ candidate.phase) .phase
      (baseline.phase.label ++ " → " ++ candidate.phase.label)
    ∪ push route (baseline.truncated ≠ candidate.truncated) .truncation
      ("truncated " ++ toString baseline.truncated ++ " → " ++ toString candidate.truncated)
    ∪ pushOnly route .reachableFrames (fun entry => "frame " ++ toString entry ++ " reachable")
      (baseline.frames.map (·.entry)).toFinset (candidate.frames.map (·.entry)).toFinset
    ∪ pushOnly route .callEdges (fun edge => parentLabel edge.1 ++ " → " ++ toString edge.2)
      (baseline.callEdges.image CallEdge.edge) (candidate.callEdges.image CallEdge.edge)
    ∪ pushOnly route .handlerSet (fun opcode => "handler " ++ toString opcode)
      (baseline.handlers.map (·.opcode)).toFinset (candidate.handlers.map (·.opcode)).toFinset
    ∪ compareBoth HandlerUse.opcode (compareHandler route) baseline.handlers candidate.handlers
    ∪ compareBoth SubgraphFrame.entry (compareFrame route) baseline.frames candidate.frames
    ∪ push route (baseline.dependencies ≠ candidate.dependencies) .dependencyClassification
      "classified dependencies changed"

/-- A route of one document or of both. -/
def compareNamed (name : RouteName) (left right : Option RouteSubgraph) :
    Finset SubgraphDifference :=
  match left, right with
  | some left, some right => compareRoute left right
  | some _, none => {⟨name, .routeObservation, "route present in baseline only"⟩}
  | none, some _ => {⟨name, .routeObservation, "route present in candidate only"⟩}
  | none, none => ∅

def compareSubgraphs (baseline candidate : SigningSubgraphDocument) :
    SubgraphDifferentialResult where
  baselineCaseId := baseline.source.caseId
  candidateCaseId := candidate.source.caseId
  sameBundle := baseline.source.bundle = candidate.source.bundle
  differences :=
    ((baseline.routes ++ candidate.routes).map (·.route)).toFinset.biUnion fun name =>
      compareNamed name (find RouteSubgraph.route name baseline.routes)
        (find RouteSubgraph.route name candidate.routes)

end TiktokSigner.SignLab
