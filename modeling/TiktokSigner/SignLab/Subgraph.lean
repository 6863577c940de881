import TiktokSigner.Lib.Gather
import TiktokSigner.LiveWs.OpenUri
import TiktokSigner.SignLab.VmTrace
import Mathlib.Algebra.GroupWithZero.Nat
import Mathlib.Data.Finset.Sort
import Mathlib.Data.Finset.Union
import Mathlib.Data.Multiset.AddSub

/-!
# Route subgraphs of a VM trace

`subgraph.rs`: a trace is indexed (`TraceIndex.build`), and each route is
the part of the call graph that is reachable from its roots within one
phase (`TraceIndex.extract`).

A `BTreeSet`, and a vector that the code keeps sorted and deduplicated
without using its order, is a `Finset`. A map with a default is a family
of its values, a counting map a `Multiset` whose elements are its keys, and
a map into sets of byte lengths the set of its pairs. What is iterated in
key order is sorted first. `u32` entries and opcodes are natural numbers;
`as u32` is the remainder.
-/

namespace TiktokSigner.SignLab

open Gather Text
open LiveWs (decimal)

def signingSubgraphVersion : Nat := 1

/-- More frames than this are not pulled into one route. -/
def maxRouteFrames : Nat := 512

/-! ## Vocabulary -/

inductive RouteName where
  | fetchComposition
  | msToken
  | xDynosaur
  | xGnarly
  | frontierXBogus
deriving DecidableEq

/-- The document order. -/
def RouteName.all : List RouteName :=
  [.fetchComposition, .msToken, .xDynosaur, .xGnarly, .frontierXBogus]

structure RouteSpec where
  route : RouteName
  roots : List Nat

inductive TracePhase where
  | eval
  | invocation
  | unknown
deriving DecidableEq

def TracePhase.all : List TracePhase := [.eval, .invocation, .unknown]

def TracePhase.parse (raw : String) : TracePhase :=
  match raw with
  | "eval" => .eval
  | "invocation" => .invocation
  | _ => .unknown

inductive ValueType where
  | string
  | number
  | boolean
  | object
  | function
  | undefined
  | unknown
deriving DecidableEq

def ValueType.fromJs (raw : String) : ValueType :=
  match raw with
  | "string" => .string
  | "number" => .number
  | "boolean" => .boolean
  | "object" => .object
  | "function" => .function
  | "undefined" => .undefined
  | _ => .unknown

abbrev ShapeKey := ValueType × Option String × Finset String

/-- A shape with the byte lengths it was observed with. -/
structure ShapeClass where
  valueType : ValueType
  valueClass : Option String
  byteLengths : Finset Nat
  objectKeys : Finset String
deriving DecidableEq

def ShapeClass.key (shape : VmValueShape) : ShapeKey :=
  (ValueType.fromJs shape.valueType, shape.valueClass, shape.objectKeys.toFinset)

def finishShapes (accumulated : Finset (ShapeKey × Nat)) : Finset ShapeClass :=
  (accumulated.image (·.1)).image fun key =>
    { valueType := key.1
      valueClass := key.2.1
      byteLengths := (accumulated.filter (·.1 = key)).image (·.2)
      objectKeys := key.2.2 }

structure ArgumentShape where
  position : Nat
  shapes : Finset ShapeClass
deriving DecidableEq

structure EnvironmentFlags where
  readsWindow : Bool := false
  readsDocument : Bool := false
  readsStorage : Bool := false
  readsCrypto : Bool := false
  readsFetch : Bool := false
  callsVm : Bool := false
deriving DecidableEq

def EnvironmentFlags.union (self other : EnvironmentFlags) : EnvironmentFlags where
  readsWindow := self.readsWindow || other.readsWindow
  readsDocument := self.readsDocument || other.readsDocument
  readsStorage := self.readsStorage || other.readsStorage
  readsCrypto := self.readsCrypto || other.readsCrypto
  readsFetch := self.readsFetch || other.readsFetch
  callsVm := self.callsVm || other.callsVm

def EnvironmentFlags.fromCatalog (entry : VmOpcodeCatalogEntry) : EnvironmentFlags where
  readsWindow := entry.readsWindow
  readsDocument := entry.readsDocument
  readsStorage := entry.readsStorage
  readsCrypto := entry.readsCrypto
  readsFetch := entry.readsFetch
  callsVm := entry.callsVm

structure HelperReads where
  n : Nat := 0
  j : Nat := 0
  x : Nat := 0
deriving DecidableEq

structure RegisterOps where
  reads : Nat
  writes : Nat
  distinctRegisters : Nat
  valueClasses : Finset String
deriving DecidableEq

structure HandlerUse where
  opcode : Nat
  executions : Nat
  operandWidths : Finset Nat
  operandHelpers : Finset String
  helperReads : HelperReads
  handlerTags : Finset String
  environment : EnvironmentFlags
deriving DecidableEq

structure SubgraphFrame where
  entry : Nat
  /-- `none` is the VM root. -/
  parents : Finset (Option Nat)
  calls : Nat
  steps : Nat
  argumentShapes : Finset ArgumentShape
  returnShapes : Finset ShapeClass
  registerOps : RegisterOps
  environment : EnvironmentFlags
  handlers : Finset Nat
deriving DecidableEq

structure CallEdge where
  parent : Option Nat
  child : Nat
  observations : Nat
deriving DecidableEq

/-! ## Dependencies -/

inductive DependencyKind where
  | query
  | cookie
  | clock
  | timezone
  | language
  | platform
  | screen
  | window
  | document
  | storage
  | crypto
  | randomness
  | sdkState
  | constant
  | unknown
deriving DecidableEq

def DependencyKind.all : List DependencyKind :=
  [.query, .cookie, .clock, .timezone, .language, .platform, .screen, .window, .document,
    .storage, .crypto, .randomness, .sdkState, .constant, .unknown]

inductive DependencyEvidence where
  | observedDependency
  | candidateDependency
  | noObservedEffect
  | unknown
deriving DecidableEq

inductive DependencySource where
  | structural
  | controlledExperiment
deriving DecidableEq

structure RouteDependency where
  kind : DependencyKind
  evidence : DependencyEvidence
  source : DependencySource
deriving DecidableEq

inductive ObservedEffect where
  | shapeChanged
  | noChange
deriving DecidableEq

structure ControlledObservation where
  route : RouteName
  dimension : DependencyKind
  effect : ObservedEffect

/-- The kinds that a capability makes a candidate, in the order of the code. -/
def structuralKinds (environment : EnvironmentFlags) : List DependencyKind :=
  (if environment.readsWindow then [DependencyKind.window] else [])
    ++ (if environment.readsDocument then [DependencyKind.document, DependencyKind.cookie] else [])
    ++ (if environment.readsStorage then [DependencyKind.storage] else [])
    ++ (if environment.readsCrypto then [DependencyKind.crypto, DependencyKind.randomness] else [])

/-- Controlled evidence overrides structural candidacy. -/
def classifyDependencies (route : RouteName) (environment : EnvironmentFlags)
    (controlled : List ControlledObservation) : List RouteDependency :=
  let structural : DependencyKind → Option RouteDependency :=
    (structuralKinds environment).foldl (fun classified kind =>
      modify classified kind fun known =>
        known.or (some ⟨kind, .candidateDependency, .structural⟩)) fun _ => none
  let classified := (controlled.filter (·.route = route)).foldl (fun classified observation =>
    let evidence := match observation.effect with
      | .shapeChanged => .observedDependency
      | .noChange => .noObservedEffect
    modify classified observation.dimension fun _ =>
      some ⟨observation.dimension, evidence, .controlledExperiment⟩) structural
  DependencyKind.all.filterMap classified

/-! ## Documents -/

structure RouteSubgraph where
  route : RouteName
  roots : List Nat
  observed : Bool
  phase : TracePhase
  truncated : Bool
  frames : List SubgraphFrame
  callEdges : Finset CallEdge
  handlers : List HandlerUse
  dependencies : List RouteDependency
deriving DecidableEq

inductive Provenance where
  | extractedFromVmTrace
  | derivedFromProfileV1
deriving DecidableEq

structure SubgraphSource where
  provenance : Provenance
  caseId : String
  bundleEndpoint : String
  bundle : ValueDigest
  traceVersion : Nat
  product : String
  clockMs : Nat
deriving DecidableEq

structure SigningSubgraphDocument where
  subgraphVersion : Nat
  source : SubgraphSource
  routes : List RouteSubgraph
deriving DecidableEq

/-- The one error of the extraction. -/
inductive SubgraphError where
  | traceVersion (found expected : Nat)
deriving DecidableEq

/-! ## The index -/

structure RegisterAccumulator where
  reads : Nat := 0
  writes : Nat := 0
  registers : Finset Nat := ∅
  valueClasses : Finset String := ∅

structure TraceIndex where
  children : TracePhase × Option Nat → Multiset Nat := fun _ => 0
  framePhases : Nat → Finset TracePhase := fun _ => ∅
  parents : TracePhase × Nat → Finset (Option Nat) := fun _ => ∅
  calls : TracePhase × Nat → Nat := fun _ => 0
  returns : TracePhase × Nat → Finset (ShapeKey × Nat) := fun _ => ∅
  arguments : Nat → Finset (Nat × ShapeKey × Nat) := fun _ => ∅
  frameHandlers : Nat → Multiset Nat := fun _ => 0
  /-- Frame and opcode to widths and helper kinds. -/
  frameOperands : Nat × Nat → Finset Nat × Finset String := fun _ => (∅, ∅)
  registers : Nat → RegisterAccumulator := fun _ => {}
  catalog : List (String × VmOpcodeCatalogEntry)

/-- `raw.parse::<u32>().ok()`. -/
def rawEntry (raw : String) : Option Nat :=
  let digits := (stripPrefix ['+'] raw.toList).getD raw.toList
  if digits ≠ [] ∧ digits.all Char.isDigit ∧ decimal digits < 2 ^ 32 then some (decimal digits)
  else none

def parseEntry (raw : String) : Option Nat := if raw = "root" then none else rawEntry raw

namespace TraceIndex

/-- One turn of the loop over the calls. -/
def absorbCall (index : TraceIndex) (call : VmCallReturn) : TraceIndex :=
  match rawEntry call.entry with
  | none => index
  | some entry =>
      let parent := parseEntry call.parent
      let phase := TracePhase.parse call.phase
      let shape : VmValueShape :=
        { valueType := call.valueType
          bytes := call.bytes
          valueClass := none
          objectKeys := call.objectKeys }
      { index with
        children := modify index.children (phase, parent) (entry ::ₘ ·)
        framePhases := modify index.framePhases entry (insert phase)
        parents := modify index.parents (phase, entry) (insert parent)
        calls := modify index.calls (phase, entry) (· + 1)
        returns := modify index.returns (phase, entry) (insert (ShapeClass.key shape, call.bytes)) }

def absorbInput (index : TraceIndex) (input : VmCallInput) : TraceIndex :=
  { index with
    arguments := modify index.arguments (input.entry % 2 ^ 32) fun positions =>
      input.args.zipIdx.foldl (fun positions argument =>
        insert (argument.2, ShapeClass.key argument.1, argument.1.bytes) positions) positions }

/-- One turn of the loop over the steps. -/
def absorbStep (index : TraceIndex) (step : VmFunctionStep) : TraceIndex :=
  let frame := step.functionEntry % 2 ^ 32
  let opcode := step.opcode % 2 ^ 32
  { index with
    frameHandlers := modify index.frameHandlers frame (opcode ::ₘ ·)
    frameOperands := modify index.frameOperands (frame, opcode) fun operands =>
      (insert step.width operands.1,
        step.operands.foldl (fun kinds operand => insert operand.kind kinds) operands.2) }

/-- One turn of the loop over the register events. -/
def absorbEvent (index : TraceIndex) (event : VmRegisterEvent) : TraceIndex :=
  { index with
    registers := modify index.registers (event.functionEntry % 2 ^ 32) fun accumulator =>
      { reads := if event.op = "read" then accumulator.reads + 1 else accumulator.reads
        writes := if event.op = "write" then accumulator.writes + 1 else accumulator.writes
        registers := insert event.register accumulator.registers
        valueClasses := match event.valueClass with
          | some valueClass => insert valueClass accumulator.valueClasses
          | none => accumulator.valueClasses } }

def build (trace : VmTrace) : TraceIndex :=
  let index : TraceIndex := { catalog := trace.opcodeCatalog }
  let index := trace.vmCallSequence.foldl absorbCall index
  let index := trace.vmCallInputs.foldl absorbInput index
  let index := trace.functionSteps.foldl absorbStep index
  trace.registerTrace.foldl absorbEvent index

/-- The phase in which any of the roots was observed, invocation first. -/
def routePhase (self : TraceIndex) (roots : List Nat) : Option TracePhase :=
  let observed := roots.foldl (fun observed root => observed ∪ self.framePhases root) ∅
  if .invocation ∈ observed then some .invocation
  else TracePhase.all.find? fun phase => phase ∈ observed

end TraceIndex

/-! ## Reachability -/

/-- The variables of the breadth-first loop. -/
structure Walk where
  reachable : Finset Nat := ∅
  queue : List Nat := []
  truncated : Bool := false
  edges : Finset CallEdge := ∅

namespace Walk

/-- `if reachable.insert(entry) { queue.push_back(entry) }`. -/
def enqueue (walk : Walk) (entry : Nat) : Walk :=
  if entry ∈ walk.reachable then walk
  else { walk with reachable := insert entry walk.reachable, queue := walk.queue ++ [entry] }

/-- One child of a frame. -/
def visit (walk : Walk) (edge : CallEdge) : Walk :=
  let walk := { walk with edges := insert edge walk.edges }
  if maxRouteFrames ≤ walk.reachable.card then { walk with truncated := true }
  else walk.enqueue edge.child

/-- The room that is left, and the queue. -/
def work (walk : Walk) : Nat := walk.queue.length + (maxRouteFrames - walk.reachable.card)

theorem work_visit_le (walk : Walk) (edge : CallEdge) : (walk.visit edge).work ≤ walk.work := by
  unfold visit
  dsimp only
  split
  · exact Nat.le_refl _
  · rename_i hroom
    unfold enqueue
    dsimp only
    split
    · exact Nat.le_refl _
    · rename_i hnew
      simp only [work, List.length_append, List.length_singleton] at hroom ⊢
      rw [Finset.card_insert_of_notMem hnew]
      omega

theorem work_foldl_visit_le (edges : List CallEdge) (walk : Walk) :
    (edges.foldl visit walk).work ≤ walk.work := by
  induction edges generalizing walk with
  | nil => exact Nat.le_refl _
  | cons edge edges ih => exact Nat.le_trans (ih _) (work_visit_le walk edge)

/-- Breadth first: frames are expanded in the order they were reached.
Every frame is queued once, and only while there is room. -/
def run (edgesFrom : Nat → List CallEdge) (walk : Walk) : Walk :=
  match _hqueue : walk.queue with
  | [] => walk
  | frame :: queue => run edgesFrom ((edgesFrom frame).foldl visit { walk with queue })
termination_by walk.work
decreasing_by
  have hle := work_foldl_visit_le (edgesFrom frame) { walk with queue }
  have hlt : work { walk with queue } < walk.work := by
    simp [work, _hqueue]
  exact Nat.lt_of_le_of_lt hle hlt

theorem run_of_nil (edgesFrom : Nat → List CallEdge) {walk : Walk} (h : walk.queue = []) :
    walk.run edgesFrom = walk := by
  rw [run.eq_def]
  split
  · rfl
  · simp_all

theorem run_of_cons (edgesFrom : Nat → List CallEdge) {walk : Walk} {frame : Nat}
    {queue : List Nat} (h : walk.queue = frame :: queue) :
    walk.run edgesFrom = ((edgesFrom frame).foldl visit { walk with queue }).run edgesFrom := by
  rw [run.eq_def]
  split
  · simp_all
  · simp_all

end Walk

/-! ## Extraction -/

namespace TraceIndex

variable (self : TraceIndex)

/-- The edges from a frame, in the order of the children. -/
def edgesFrom (phase : TracePhase) (frame : Nat) : List CallEdge :=
  let children := self.children (phase, some frame)
  children.toFinset.sort.map fun child => ⟨some frame, child, children.count child⟩

/-- The roots that were observed in the phase. -/
def startAt (phase : TracePhase) (roots : List Nat) : Walk :=
  roots.foldl (fun walk root =>
    if phase ∈ self.framePhases root then walk.enqueue root else walk) {}

/-- The inbound edges of the reachable roots. -/
def inboundEdges (phase : TracePhase) (reachable : Finset Nat) (roots : List Nat)
    (edges : Finset CallEdge) : Finset CallEdge :=
  roots.foldl (fun edges root =>
    if root ∈ reachable then
      edges ∪ (self.parents (phase, root)).image fun parent =>
        ⟨parent, root, (self.children (phase, parent)).count root⟩
    else edges) edges

def catalogEntry (opcode : Nat) : Option VmOpcodeCatalogEntry :=
  self.catalog.lookup (toString opcode)

/-- What the handlers of a frame can reach. -/
def environmentOf (handlers : Finset Nat) : EnvironmentFlags :=
  handlers.sort.foldl (fun environment opcode =>
    match self.catalogEntry opcode with
    | some catalog => environment.union (.fromCatalog catalog)
    | none => environment) {}

def argumentShapes (entry : Nat) : Finset ArgumentShape :=
  let positions := self.arguments entry
  (positions.image (·.1)).image fun position =>
    ⟨position, finishShapes ((positions.filter (·.1 = position)).image (·.2))⟩

def frame (phase : TracePhase) (entry : Nat) : SubgraphFrame :=
  let handlers := self.frameHandlers entry
  let registers := self.registers entry
  { entry
    parents := self.parents (phase, entry)
    calls := self.calls (phase, entry)
    steps := handlers.card
    argumentShapes := self.argumentShapes entry
    returnShapes := finishShapes (self.returns (phase, entry))
    registerOps :=
      { reads := registers.reads
        writes := registers.writes
        distinctRegisters := registers.registers.card
        valueClasses := registers.valueClasses }
    environment := self.environmentOf handlers.toFinset
    handlers := handlers.toFinset }

/-- The executions of all handlers of the frames. -/
def handlerTotals (entries : List Nat) : Multiset Nat :=
  entries.foldl (fun totals entry => totals + self.frameHandlers entry) 0

def handlerUse (entries : Finset Nat) (totals : Multiset Nat) (opcode : Nat) : HandlerUse :=
  let catalog := self.catalogEntry opcode
  { opcode
    executions := totals.count opcode
    operandWidths := entries.biUnion fun entry => (self.frameOperands (entry, opcode)).1
    operandHelpers := entries.biUnion fun entry => (self.frameOperands (entry, opcode)).2
    helperReads := match catalog with
      | some entry => ⟨entry.helperReads.n, entry.helperReads.j, entry.helperReads.x⟩
      | none => {}
    handlerTags := match catalog with
      | some entry => entry.handlerTags.toFinset
      | none => ∅
    environment := match catalog with
      | some entry => .fromCatalog entry
      | none => {} }

def extract (spec : RouteSpec) (controlled : List ControlledObservation) : RouteSubgraph :=
  match self.routePhase spec.roots with
  | none =>
      { route := spec.route
        roots := spec.roots
        observed := false
        phase := .unknown
        truncated := false
        frames := []
        callEdges := ∅
        handlers := []
        dependencies := classifyDependencies spec.route {} controlled }
  | some phase =>
      let walk := (self.startAt phase spec.roots).run (self.edgesFrom phase)
      let entries := walk.reachable.sort
      let frames := entries.map (self.frame phase)
      let environment := frames.foldl (fun flags frame => flags.union frame.environment) {}
      let totals := self.handlerTotals entries
      { route := spec.route
        roots := spec.roots
        observed := !frames.isEmpty
        phase
        truncated := walk.truncated
        frames
        callEdges := self.inboundEdges phase walk.reachable spec.roots walk.edges
        handlers := totals.toFinset.sort.map (self.handlerUse walk.reachable totals)
        dependencies := classifyDependencies spec.route environment controlled }

end TraceIndex

/-- A later spec of a route replaces an earlier one; the routes come in
document order. -/
def extractSubgraphs (report : VmTraceReport) (routes : List RouteSpec)
    (controlled : List ControlledObservation) : Except SubgraphError SigningSubgraphDocument :=
  if report.traceVersion ≠ vmTraceVersion then
    .error (.traceVersion report.traceVersion vmTraceVersion)
  else
    let index := TraceIndex.build report.trace
    let extracted : RouteName → Option RouteSubgraph := routes.foldl (fun extracted spec =>
      modify extracted spec.route fun _ => some (index.extract spec controlled)) fun _ => none
    .ok
      { subgraphVersion := signingSubgraphVersion
        source :=
          { provenance := .extractedFromVmTrace
            caseId := report.caseId
            bundleEndpoint := report.bundleEndpoint
            bundle := report.bundle
            traceVersion := report.traceVersion
            product := report.trace.product.name
            clockMs := report.trace.clockMs }
        routes := RouteName.all.filterMap extracted }

end TiktokSigner.SignLab
