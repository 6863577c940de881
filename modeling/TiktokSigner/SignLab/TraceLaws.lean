import TiktokSigner.SignLab.Structure

/-!
# Extraction sees the structure of a trace

`VmTrace.structural` is what a trace says about execution structure: which
calls, classes, handlers, widths and kinds occur, not how often nor with
what byte lengths. The index of a trace holds exactly these facts
(`mem_build`), indexes that hold the same facts walk alike, and so traces
of one structure have documents of one structure
(`structural_eq_of_extractSubgraphs`).
-/

namespace TiktokSigner.SignLab

open Gather

/-! ## The structure of a trace -/

structure TraceStructure where
  /-- Entry, parent and phase. -/
  calls : Finset (Nat × Option Nat × TracePhase)
  /-- Phase, frame and class. -/
  returns : Finset (TracePhase × Nat × ShapeKey)
  /-- Frame, position and class. -/
  arguments : Finset (Nat × Nat × ShapeKey)
  /-- Frame and opcode. -/
  handlers : Finset (Nat × Nat)
  widths : Finset (Nat × Nat × Nat)
  helpers : Finset (Nat × Nat × String)
  valueClasses : Finset (Nat × String)
deriving DecidableEq

/-- The class of a return value. -/
def VmCallReturn.key (call : VmCallReturn) : ShapeKey :=
  ShapeClass.key ⟨call.valueType, call.bytes, none, call.objectKeys⟩

def VmFunctionStep.frame (step : VmFunctionStep) : Nat := step.functionEntry % 2 ^ 32

def VmFunctionStep.slot (step : VmFunctionStep) : Nat := step.opcode % 2 ^ 32

def VmTrace.structural (trace : VmTrace) : TraceStructure where
  calls := (trace.vmCallSequence.filterMap fun call =>
    (rawEntry call.entry).map fun entry =>
      (entry, parseEntry call.parent, TracePhase.parse call.phase)).toFinset
  returns := (trace.vmCallSequence.filterMap fun call =>
    (rawEntry call.entry).map fun entry => (TracePhase.parse call.phase, entry, call.key)).toFinset
  arguments := (trace.vmCallInputs.flatMap fun input => input.args.zipIdx.map fun argument =>
    (input.entry % 2 ^ 32, argument.2, ShapeClass.key argument.1)).toFinset
  handlers := (trace.functionSteps.map fun step => (step.frame, step.slot)).toFinset
  widths := (trace.functionSteps.map fun step => (step.frame, step.slot, step.width)).toFinset
  helpers := (trace.functionSteps.flatMap fun step => step.operands.map fun operand =>
    (step.frame, step.slot, operand.kind)).toFinset
  valueClasses := (trace.registerTrace.filterMap fun event =>
    event.valueClass.map fun valueClass => (event.functionEntry % 2 ^ 32, valueClass)).toFinset

/-! ## Facts

What a route can depend on: each fact of the index is brought by a call, an
input, a step or a register event. -/

inductive Fact where
  | child (phase : TracePhase) (parent : Option Nat) (entry : Nat)
  | seen (entry : Nat) (phase : TracePhase)
  | parent (phase : TracePhase) (entry : Nat) (parent : Option Nat)
  | returned (phase : TracePhase) (entry : Nat) (key : ShapeKey)
  | argument (frame position : Nat) (key : ShapeKey)
  | handler (frame opcode : Nat)
  | width (frame opcode bytes : Nat)
  | helper (frame opcode : Nat) (kind : String)
  | valueClass (frame : Nat) (name : String)

def TraceIndex.Holds (index : TraceIndex) : Fact → Prop
  | .child phase parent entry => entry ∈ index.children (phase, parent)
  | .seen entry phase => phase ∈ index.framePhases entry
  | .parent phase entry parent => parent ∈ index.parents (phase, entry)
  | .returned phase entry key => ∃ bytes, (key, bytes) ∈ index.returns (phase, entry)
  | .argument frame position key => ∃ bytes, (position, key, bytes) ∈ index.arguments frame
  | .handler frame opcode => opcode ∈ index.frameHandlers frame
  | .width frame opcode bytes => bytes ∈ (index.frameOperands (frame, opcode)).1
  | .helper frame opcode kind => kind ∈ (index.frameOperands (frame, opcode)).2
  | .valueClass frame name => name ∈ (index.registers frame).valueClasses

def TraceStructure.Says (structural : TraceStructure) : Fact → Prop
  | .child phase parent entry => (entry, parent, phase) ∈ structural.calls
  | .seen entry phase => ∃ parent, (entry, parent, phase) ∈ structural.calls
  | .parent phase entry parent => (entry, parent, phase) ∈ structural.calls
  | .returned phase entry key => (phase, entry, key) ∈ structural.returns
  | .argument frame position key => (frame, position, key) ∈ structural.arguments
  | .handler frame opcode => (frame, opcode) ∈ structural.handlers
  | .width frame opcode bytes => (frame, opcode, bytes) ∈ structural.widths
  | .helper frame opcode kind => (frame, opcode, kind) ∈ structural.helpers
  | .valueClass frame name => (frame, name) ∈ structural.valueClasses

def VmCallReturn.Brings (call : VmCallReturn) : Fact → Prop
  | .child phase parent entry | .parent phase entry parent =>
      rawEntry call.entry = some entry ∧ parseEntry call.parent = parent
        ∧ TracePhase.parse call.phase = phase
  | .seen entry phase => rawEntry call.entry = some entry ∧ TracePhase.parse call.phase = phase
  | .returned phase entry key =>
      rawEntry call.entry = some entry ∧ TracePhase.parse call.phase = phase ∧ call.key = key
  | _ => False

def VmCallInput.Brings (input : VmCallInput) : Fact → Prop
  | .argument frame position key =>
      input.entry % 2 ^ 32 = frame
        ∧ ∃ shape, (shape, position) ∈ input.args.zipIdx ∧ ShapeClass.key shape = key
  | _ => False

def VmFunctionStep.Brings (step : VmFunctionStep) : Fact → Prop
  | .handler frame opcode => step.frame = frame ∧ step.slot = opcode
  | .width frame opcode bytes => (step.frame = frame ∧ step.slot = opcode) ∧ step.width = bytes
  | .helper frame opcode kind =>
      (step.frame = frame ∧ step.slot = opcode) ∧ ∃ operand ∈ step.operands, operand.kind = kind
  | _ => False

def VmRegisterEvent.Brings (event : VmRegisterEvent) : Fact → Prop
  | .valueClass frame name => event.functionEntry % 2 ^ 32 = frame ∧ event.valueClass = some name
  | _ => False

namespace TraceIndex

variable (index : TraceIndex) (fact : Fact)

theorem holds_absorbCall (call : VmCallReturn) :
    (absorbCall index call).Holds fact ↔ index.Holds fact ∨ call.Brings fact := by
  unfold absorbCall
  cases hentry : rawEntry call.entry with
  | none => cases fact <;> simp [Holds, VmCallReturn.Brings, hentry]
  | some entry =>
    cases fact with
    | child phase parent child =>
      simp only [Holds, VmCallReturn.Brings, hentry, mem_modify_cons, Prod.mk.injEq,
        Option.some.injEq]
      tauto
    | seen frame phase =>
      simp only [Holds, VmCallReturn.Brings, hentry, mem_modify_insert, Option.some.injEq]
      tauto
    | parent phase frame parent =>
      simp only [Holds, VmCallReturn.Brings, hentry, mem_modify_insert, Prod.mk.injEq,
        Option.some.injEq]
      tauto
    | returned phase frame key =>
      simp only [Holds, VmCallReturn.Brings, hentry, mem_modify_insert, Prod.mk.injEq,
        Option.some.injEq, exists_or, exists_and_left, exists_eq, and_true]
      have hkey : ShapeClass.key ⟨call.valueType, call.bytes, none, call.objectKeys⟩
          = call.key := rfl
      rw [hkey]
      tauto
    | argument frame position key => simp [Holds, VmCallReturn.Brings]
    | handler frame opcode => simp [Holds, VmCallReturn.Brings]
    | width frame opcode bytes => simp [Holds, VmCallReturn.Brings]
    | helper frame opcode kind => simp [Holds, VmCallReturn.Brings]
    | valueClass frame name => simp [Holds, VmCallReturn.Brings]

theorem holds_absorbInput (input : VmCallInput) :
    (absorbInput index input).Holds fact ↔ index.Holds fact ∨ input.Brings fact := by
  cases fact with
  | argument frame position key =>
    have hloop : ∀ positions : Finset (Nat × ShapeKey × Nat),
        (∃ bytes, (position, key, bytes) ∈ input.args.zipIdx.foldl (fun positions argument =>
            insert (argument.2, ShapeClass.key argument.1, argument.1.bytes) positions) positions)
          ↔ (∃ bytes, (position, key, bytes) ∈ positions)
            ∨ ∃ shape, (shape, position) ∈ input.args.zipIdx ∧ ShapeClass.key shape = key := by
      intro positions
      rw [foldl_iff (fun positions => ∃ bytes, (position, key, bytes) ∈ positions)
        (Q := fun argument => argument.2 = position ∧ ShapeClass.key argument.1 = key)]
      · simp [and_left_comm]
      · intro positions argument
        simp only [Finset.mem_insert, Prod.mk.injEq, exists_or, exists_and_left, exists_eq, and_true]
        tauto
    simp only [Holds, VmCallInput.Brings, absorbInput]
    rw [modify_iff (fun positions => ∃ bytes, (position, key, bytes) ∈ positions) _ _ _
      (hloop _), eq_comm (a := frame)]
  | child phase parent child => simp [Holds, VmCallInput.Brings, absorbInput]
  | seen frame phase => simp [Holds, VmCallInput.Brings, absorbInput]
  | parent phase frame parent => simp [Holds, VmCallInput.Brings, absorbInput]
  | returned phase frame key => simp [Holds, VmCallInput.Brings, absorbInput]
  | handler frame opcode => simp [Holds, VmCallInput.Brings, absorbInput]
  | width frame opcode bytes => simp [Holds, VmCallInput.Brings, absorbInput]
  | helper frame opcode kind => simp [Holds, VmCallInput.Brings, absorbInput]
  | valueClass frame name => simp [Holds, VmCallInput.Brings, absorbInput]

theorem holds_absorbStep (step : VmFunctionStep) :
    (absorbStep index step).Holds fact ↔ index.Holds fact ∨ step.Brings fact := by
  cases fact with
  | handler frame opcode =>
    simp only [Holds, VmFunctionStep.Brings, absorbStep, mem_modify_cons, VmFunctionStep.frame,
      VmFunctionStep.slot]
    tauto
  | width frame opcode bytes =>
    simp only [Holds, VmFunctionStep.Brings, absorbStep, VmFunctionStep.frame, VmFunctionStep.slot]
    rw [modify_iff (fun operands : Finset Nat × Finset String => bytes ∈ operands.1)
      (Q := step.width = bytes)]
    · simp only [Prod.mk.injEq]
      tauto
    · rw [Finset.mem_insert, or_comm, eq_comm]
  | helper frame opcode kind =>
    simp only [Holds, VmFunctionStep.Brings, absorbStep, VmFunctionStep.frame, VmFunctionStep.slot]
    rw [modify_iff (fun operands : Finset Nat × Finset String => kind ∈ operands.2)
      (Q := ∃ operand ∈ step.operands, operand.kind = kind)]
    · simp only [Prod.mk.injEq]
      tauto
    · exact foldl_iff (fun kinds => kind ∈ kinds) (fun kinds operand => by
        rw [Finset.mem_insert, or_comm, eq_comm]) _ _
  | child phase parent child => simp [Holds, VmFunctionStep.Brings, absorbStep]
  | seen frame phase => simp [Holds, VmFunctionStep.Brings, absorbStep]
  | parent phase frame parent => simp [Holds, VmFunctionStep.Brings, absorbStep]
  | returned phase frame key => simp [Holds, VmFunctionStep.Brings, absorbStep]
  | argument frame position key => simp [Holds, VmFunctionStep.Brings, absorbStep]
  | valueClass frame name => simp [Holds, VmFunctionStep.Brings, absorbStep]

theorem holds_absorbEvent (event : VmRegisterEvent) :
    (absorbEvent index event).Holds fact ↔ index.Holds fact ∨ event.Brings fact := by
  cases fact with
  | valueClass frame name =>
    simp only [Holds, VmRegisterEvent.Brings, absorbEvent]
    rw [modify_iff (fun accumulator : RegisterAccumulator => name ∈ accumulator.valueClasses)
      (Q := event.valueClass = some name), eq_comm (a := frame)]
    cases event.valueClass with
    | none => simp
    | some valueClass =>
      rw [Finset.mem_insert, Option.some.injEq, or_comm, eq_comm]
  | child phase parent child => simp [Holds, VmRegisterEvent.Brings, absorbEvent]
  | seen frame phase => simp [Holds, VmRegisterEvent.Brings, absorbEvent]
  | parent phase frame parent => simp [Holds, VmRegisterEvent.Brings, absorbEvent]
  | returned phase frame key => simp [Holds, VmRegisterEvent.Brings, absorbEvent]
  | argument frame position key => simp [Holds, VmRegisterEvent.Brings, absorbEvent]
  | handler frame opcode => simp [Holds, VmRegisterEvent.Brings, absorbEvent]
  | width frame opcode bytes => simp [Holds, VmRegisterEvent.Brings, absorbEvent]
  | helper frame opcode kind => simp [Holds, VmRegisterEvent.Brings, absorbEvent]

/-- The index of a trace holds what the structure of the trace says. -/
theorem holds_build (trace : VmTrace) : (build trace).Holds fact ↔ trace.structural.Says fact := by
  have hstart : ¬Holds { catalog := trace.opcodeCatalog } fact := by
    cases fact <;> simp [Holds]
  unfold build
  rw [foldl_iff (Holds · fact) (holds_absorbEvent · fact ·),
    foldl_iff (Holds · fact) (holds_absorbStep · fact ·),
    foldl_iff (Holds · fact) (holds_absorbInput · fact ·),
    foldl_iff (Holds · fact) (holds_absorbCall · fact ·)]
  simp only [hstart, false_or]
  cases fact with
  | helper frame opcode kind =>
    simp only [VmTrace.structural, TraceStructure.Says, VmCallReturn.Brings, VmCallInput.Brings,
      VmFunctionStep.Brings, VmRegisterEvent.Brings, List.mem_toFinset, List.mem_flatMap,
      List.mem_map, Prod.mk.injEq, and_false, exists_false, false_or, or_false]
    constructor
    · rintro ⟨step, hstep, ⟨hframe, hslot⟩, operand, hoperand, hkind⟩
      exact ⟨step, hstep, operand, hoperand, hframe, hslot, hkind⟩
    · rintro ⟨step, hstep, operand, hoperand, hframe, hslot, hkind⟩
      exact ⟨step, hstep, ⟨hframe, hslot⟩, operand, hoperand, hkind⟩
  | valueClass frame name =>
    simp [VmTrace.structural, TraceStructure.Says, VmCallReturn.Brings, VmCallInput.Brings,
      VmFunctionStep.Brings, VmRegisterEvent.Brings, and_comm]
  | _ =>
    simp [VmTrace.structural, TraceStructure.Says, VmCallReturn.Brings, VmCallInput.Brings,
      VmFunctionStep.Brings, VmRegisterEvent.Brings, and_assoc, and_left_comm]

end TraceIndex

/-! ## Indexes with the same facts -/

structure TraceIndex.Agree (i j : TraceIndex) : Prop where
  catalog : i.catalog = j.catalog
  holds : ∀ fact, i.Holds fact ↔ j.Holds fact

theorem shapeClasses_finishShapes (accumulated : Finset (ShapeKey × Nat)) :
    shapeClasses (finishShapes accumulated) = accumulated.image (·.1) := by
  rw [shapeClasses, finishShapes, Finset.image_image]
  exact Finset.image_id

namespace TraceIndex.Agree

variable {i j : TraceIndex} (h : Agree i j)

include h

theorem children (phase : TracePhase) (parent : Option Nat) :
    (i.children (phase, parent)).toFinset = (j.children (phase, parent)).toFinset := by
  ext entry
  rw [Multiset.mem_toFinset, Multiset.mem_toFinset]
  exact h.holds (.child phase parent entry)

theorem framePhases : i.framePhases = j.framePhases := by
  funext entry
  ext phase
  exact h.holds (.seen entry phase)

theorem parents : i.parents = j.parents := by
  funext ⟨phase, entry⟩
  ext parent
  exact h.holds (.parent phase entry parent)

theorem returns (phase : TracePhase) (entry : Nat) :
    (i.returns (phase, entry)).image (·.1) = (j.returns (phase, entry)).image (·.1) := by
  ext key
  simpa [Holds] using h.holds (.returned phase entry key)

theorem arguments (frame position : Nat) :
    (((i.arguments frame).filter (·.1 = position)).image (·.2)).image (·.1)
      = (((j.arguments frame).filter (·.1 = position)).image (·.2)).image (·.1) := by
  ext key
  simpa [Holds] using h.holds (.argument frame position key)

theorem positions (frame : Nat) :
    (i.arguments frame).image (·.1) = (j.arguments frame).image (·.1) := by
  ext position
  have hkey : ∀ index : TraceIndex, position ∈ (index.arguments frame).image (·.1)
      ↔ ∃ key, index.Holds (.argument frame position key) := by
    intro index
    simp [Holds]
  rw [hkey, hkey]
  exact exists_congr fun key => h.holds (.argument frame position key)

theorem handlers (frame : Nat) :
    (i.frameHandlers frame).toFinset = (j.frameHandlers frame).toFinset := by
  ext opcode
  rw [Multiset.mem_toFinset, Multiset.mem_toFinset]
  exact h.holds (.handler frame opcode)

theorem operands : i.frameOperands = j.frameOperands := by
  funext ⟨frame, opcode⟩
  refine Prod.ext ?_ ?_
  · ext bytes
    exact h.holds (.width frame opcode bytes)
  · ext kind
    exact h.holds (.helper frame opcode kind)

theorem valueClasses (frame : Nat) :
    (i.registers frame).valueClasses = (j.registers frame).valueClasses := by
  ext name
  exact h.holds (.valueClass frame name)

theorem catalogEntry : i.catalogEntry = j.catalogEntry := by
  funext opcode
  rw [TraceIndex.catalogEntry, TraceIndex.catalogEntry, h.catalog]

theorem environmentOf (handlers : Finset Nat) :
    i.environmentOf handlers = j.environmentOf handlers := by
  rw [TraceIndex.environmentOf, TraceIndex.environmentOf, h.catalogEntry]

theorem argumentClasses (frame : Nat) :
    (i.argumentShapes frame).image (fun argument =>
      (argument.position, shapeClasses argument.shapes))
      = (j.argumentShapes frame).image
        fun argument => (argument.position, shapeClasses argument.shapes) := by
  have hclasses : ∀ index : TraceIndex, (index.argumentShapes frame).image
        (fun argument => (argument.position, shapeClasses argument.shapes))
      = ((index.arguments frame).image (·.1)).image fun position =>
          (position, (((index.arguments frame).filter
            (·.1 = position)).image (·.2)).image (·.1)) := by
    intro index
    rw [argumentShapes, Finset.image_image]
    simp only [Function.comp_def, shapeClasses_finishShapes]
  rw [hclasses, hclasses, h.positions]
  simp only [h.arguments]

/-- Frames differ in counts and lengths only. -/
theorem frame (phase : TracePhase) (entry : Nat) :
    (i.frame phase entry).structural = (j.frame phase entry).structural := by
  simp only [SubgraphFrame.structural, TraceIndex.frame, SignLab.argumentClasses,
    shapeClasses_finishShapes, h.parents, h.handlers, h.environmentOf, h.valueClasses,
    h.argumentClasses, h.returns]

theorem handlerUse (entries : Finset Nat) (totals totals' : Multiset Nat) (opcode : Nat) :
    (i.handlerUse entries totals opcode).structural
      = (j.handlerUse entries totals' opcode).structural := by
  simp only [HandlerUse.structural, TraceIndex.handlerUse, h.operands, h.catalogEntry]

theorem handlerTotals (entries : List Nat) :
    (i.handlerTotals entries).toFinset = (j.handlerTotals entries).toFinset := by
  have hmem : ∀ (index : TraceIndex) (opcode : Nat), opcode ∈ index.handlerTotals entries
      ↔ ∃ entry ∈ entries, opcode ∈ index.frameHandlers entry := by
    intro index opcode
    have hadd : ∀ totals entry, opcode ∈ totals + index.frameHandlers entry
        ↔ opcode ∈ totals ∨ opcode ∈ index.frameHandlers entry := fun _ _ => Multiset.mem_add
    rw [TraceIndex.handlerTotals, foldl_iff (opcode ∈ ·) hadd]
    simp
  ext opcode
  rw [Multiset.mem_toFinset, Multiset.mem_toFinset, hmem, hmem]
  exact exists_congr fun entry => and_congr_right fun _ => h.holds (.handler entry opcode)

theorem routePhase (roots : List Nat) : i.routePhase roots = j.routePhase roots := by
  rw [TraceIndex.routePhase, TraceIndex.routePhase, h.framePhases]

theorem startAt (phase : TracePhase) (roots : List Nat) :
    i.startAt phase roots = j.startAt phase roots := by
  rw [TraceIndex.startAt, TraceIndex.startAt, h.framePhases]

end TraceIndex.Agree

/-! ## The phase of a route -/

namespace TraceIndex

/-- The phases that roots were observed in. -/
theorem mem_observed {index : TraceIndex} {roots : List Nat} {phase : TracePhase} :
    phase ∈ roots.foldl (fun observed root => observed ∪ index.framePhases root) ∅
      ↔ ∃ root ∈ roots, phase ∈ index.framePhases root := by
  have hunion : ∀ observed root, phase ∈ observed ∪ index.framePhases root
      ↔ phase ∈ observed ∨ phase ∈ index.framePhases root := fun _ _ => Finset.mem_union
  rw [foldl_iff (phase ∈ ·) hunion]
  simp

/-- A phase that any root was observed in is found. -/
theorem notMem_framePhases_of_routePhase {index : TraceIndex} {roots : List Nat}
    (h : index.routePhase roots = none) {root : Nat} (hroot : root ∈ roots) (phase : TracePhase) :
    phase ∉ index.framePhases root := by
  unfold routePhase at h
  dsimp only at h
  split_ifs at h
  have hphase : phase ∈ TracePhase.all := by cases phase <;> simp [TracePhase.all]
  have hnone := List.find?_eq_none.mp h phase hphase
  rw [decide_eq_true_eq, mem_observed] at hnone
  exact fun hmem => hnone ⟨root, hroot, hmem⟩

theorem routePhase_eq_invocation_iff {index : TraceIndex} {roots : List Nat} :
    index.routePhase roots = some .invocation
      ↔ ∃ root ∈ roots, TracePhase.invocation ∈ index.framePhases root := by
  rw [← mem_observed]
  unfold routePhase
  dsimp only
  split_ifs with hobserved
  · exact ⟨fun _ => hobserved, fun _ => rfl⟩
  · refine ⟨fun h => ?_, fun h => absurd h hobserved⟩
    have hfound := List.find?_some h
    rwa [decide_eq_true_eq] at hfound

end TraceIndex

/-! ## Walks that differ in edge counts -/

structure Walk.Same (v w : Walk) : Prop where
  reachable : v.reachable = w.reachable
  queue : v.queue = w.queue
  truncated : v.truncated = w.truncated
  edges : v.edges.image CallEdge.edge = w.edges.image CallEdge.edge

namespace Walk.Same

variable {v w : Walk}

theorem enqueue (h : Same v w) (entry : Nat) : Same (v.enqueue entry) (w.enqueue entry) := by
  unfold Walk.enqueue
  rw [h.reachable]
  split
  · exact h
  · exact ⟨rfl, by rw [h.queue], h.truncated, h.edges⟩

theorem visit (h : Same v w) {a b : CallEdge} (hedge : a.edge = b.edge) :
    Same (v.visit a) (w.visit b) := by
  have hinsert : Same { v with edges := insert a v.edges } { w with edges := insert b w.edges } :=
    ⟨h.reachable, h.queue, h.truncated, by rw [Finset.image_insert, Finset.image_insert,
        hedge, h.edges]⟩
  have hchild : a.child = b.child := congrArg Prod.snd hedge
  have hcard : v.reachable.card = w.reachable.card := by rw [h.reachable]
  unfold Walk.visit
  dsimp only
  rw [hcard, hchild]
  split
  · exact ⟨h.reachable, h.queue, rfl, hinsert.edges⟩
  · exact hinsert.enqueue b.child

theorem foldl_visit (h : Same v w) {f g : Nat → CallEdge}
    (hedge : ∀ child, (f child).edge = (g child).edge)
    (children : List Nat) :
    Same ((children.map f).foldl Walk.visit v) ((children.map g).foldl Walk.visit w) := by
  induction children generalizing v w with
  | nil => exact h
  | cons child children ih => exact ih (h.visit (hedge child))

/-- Induction on the work left: the queues are in step. -/
theorem run {e e' : Nat → List CallEdge}
    (hedges : ∀ frame {v w}, Same v w → Same ((e frame).foldl Walk.visit v)
      ((e' frame).foldl Walk.visit w))
    (h : Same v w) : Same (v.run e) (w.run e') := by
  induction v using Walk.run.induct e generalizing w with
  | case1 v hqueue =>
    rw [Walk.run_of_nil e hqueue, Walk.run_of_nil e' (h.queue ▸ hqueue)]
    exact h
  | case2 v frame queue hqueue ih =>
    rw [Walk.run_of_cons e hqueue, Walk.run_of_cons e' (h.queue ▸ hqueue)]
    exact ih (hedges frame ⟨h.reachable, rfl, h.truncated, h.edges⟩)

end Walk.Same

/-! ## Documents of one structure -/

namespace TraceIndex.Agree

variable {i j : TraceIndex} (h : Agree i j)

include h

theorem walk (phase : TracePhase) (roots : List Nat) :
    ((i.startAt phase roots).run (i.edgesFrom phase)).Same
      ((j.startAt phase roots).run (j.edgesFrom phase)) := by
  rw [h.startAt]
  refine Walk.Same.run (fun frame v w hsame => ?_) ⟨rfl, rfl, rfl, rfl⟩
  rw [edgesFrom, edgesFrom, h.children]
  refine hsame.foldl_visit (fun child => ?_) _
  rfl

theorem inboundEdges (phase : TracePhase) (reachable : Finset Nat) (roots : List Nat)
    {edges edges' : Finset CallEdge}
    (hedges : edges.image CallEdge.edge = edges'.image CallEdge.edge) :
    (i.inboundEdges phase reachable roots edges).image CallEdge.edge
      = (j.inboundEdges phase reachable roots edges').image CallEdge.edge := by
  unfold TraceIndex.inboundEdges
  induction roots generalizing edges edges' with
  | nil => exact hedges
  | cons root roots ih =>
    refine ih ?_
    dsimp only
    split
    · rw [Finset.image_union, Finset.image_union, Finset.image_image, Finset.image_image, hedges,
        h.parents]
      rfl
    · exact hedges

theorem extract (spec : RouteSpec) (controlled : List ControlledObservation) :
    (i.extract spec controlled).structural = (j.extract spec controlled).structural := by
  unfold TraceIndex.extract
  rw [h.routePhase]
  cases j.routePhase spec.roots with
  | none => rfl
  | some phase =>
    have hwalk := h.walk phase spec.roots
    have hframes : ∀ entries : List Nat, (entries.map (i.frame phase)).map SubgraphFrame.structural
        = (entries.map (j.frame phase)).map SubgraphFrame.structural := by
      intro entries
      simp only [List.map_map, Function.comp_def, h.frame]
    have henvironment : ∀ entries : List Nat,
        (entries.map (i.frame phase)).foldl
            (fun (flags : EnvironmentFlags) frame => flags.union frame.environment) {}
          = (entries.map (j.frame phase)).foldl
            (fun (flags : EnvironmentFlags) frame => flags.union frame.environment) {} := by
      intro entries
      have heach : ∀ entry, (i.frame phase entry).environment = (j.frame phase entry).environment :=
        fun entry => congrArg FrameStructure.environment (h.frame phase entry)
      simp only [List.foldl_map, heach]
    have hhandlers : ∀ (reachable : Finset Nat) (entries : List Nat),
        ((i.handlerTotals entries).toFinset.sort.map
            (i.handlerUse reachable (i.handlerTotals entries))).map HandlerUse.structural
          = ((j.handlerTotals entries).toFinset.sort.map
            (j.handlerUse reachable (j.handlerTotals entries))).map HandlerUse.structural := by
      intro reachable entries
      rw [h.handlerTotals, List.map_map, List.map_map]
      exact List.map_congr_left fun opcode _ => h.handlerUse reachable _ _ opcode
    simp only [RouteSubgraph.structural, hwalk.reachable, hwalk.truncated, hframes, henvironment,
      hhandlers, List.isEmpty_map, h.inboundEdges phase _ spec.roots hwalk.edges]

end TraceIndex.Agree

theorem agree_build {t t' : VmTrace} (hstructure : t.structural = t'.structural)
    (hcatalog : t.opcodeCatalog = t'.opcodeCatalog) :
    (TraceIndex.build t).Agree (.build t') := by
  have hbuilt : ∀ t : VmTrace, (TraceIndex.build t).catalog = t.opcodeCatalog := by
    intro t
    unfold TraceIndex.build
    dsimp only
    rw [foldl_eq TraceIndex.catalog TraceIndex.absorbEvent fun _ _ => rfl,
      foldl_eq TraceIndex.catalog TraceIndex.absorbStep fun _ _ => rfl,
      foldl_eq TraceIndex.catalog TraceIndex.absorbInput fun _ _ => rfl,
      foldl_eq TraceIndex.catalog TraceIndex.absorbCall fun index call => by
        unfold TraceIndex.absorbCall
        split <;> rfl]
  refine ⟨by rw [hbuilt, hbuilt, hcatalog], fun fact => ?_⟩
  rw [TraceIndex.holds_build, TraceIndex.holds_build, hstructure]

theorem structural_eq_of_extractSubgraphs {baseline candidate : VmTraceReport}
    {routes : List RouteSpec} {controlled : List ControlledObservation}
    {left right : SigningSubgraphDocument}
    (hstructure : baseline.trace.structural = candidate.trace.structural)
    (hcatalog : baseline.trace.opcodeCatalog = candidate.trace.opcodeCatalog)
    (hleft : extractSubgraphs baseline routes controlled = .ok left)
    (hright : extractSubgraphs candidate routes controlled = .ok right) :
    left.structural = right.structural := by
  have hagree := agree_build hstructure hcatalog
  have hgathered : ∀ name,
      (gathered (.build baseline.trace) routes controlled name).map RouteSubgraph.structural
        = (gathered (.build candidate.trace) routes controlled
          name).map RouteSubgraph.structural := by
    intro name
    rw [gathered_eq, gathered_eq, Option.map_map, Option.map_map]
    refine congrArg (Option.map · _) (funext fun spec => ?_)
    exact hagree.extract spec controlled
  have hroutes : ∀ {report document}, extractSubgraphs report routes controlled = .ok document →
      document.structural = RouteName.all.filterMap fun name =>
        (gathered (.build report.trace) routes controlled name).map RouteSubgraph.structural := by
    intro report document hdocument
    unfold extractSubgraphs at hdocument
    split at hdocument
    · cases hdocument
    · obtain rfl := Except.ok.inj hdocument
      exact List.map_filterMap
  rw [hroutes hleft, hroutes hright]
  simp only [hgathered]

/-- The comparison sees the structure of two traces, and nothing else of
the documents than their structure. -/
theorem compareSubgraphs_structural :
    (∀ (baseline candidate : VmTraceReport) (routes : List RouteSpec)
        (controlled : List ControlledObservation) (left right : SigningSubgraphDocument),
      baseline.trace.structural = candidate.trace.structural →
      baseline.trace.opcodeCatalog = candidate.trace.opcodeCatalog →
      extractSubgraphs baseline routes controlled = .ok left →
      extractSubgraphs candidate routes controlled = .ok right →
      (compareSubgraphs left right).differences = ∅)
    ∧ ∀ (baseline candidate : VmTraceReport) (routes routes' : List RouteSpec)
        (controlled controlled' : List ControlledObservation)
        (left right : SigningSubgraphDocument),
      extractSubgraphs baseline routes controlled = .ok left →
      extractSubgraphs candidate routes' controlled' = .ok right →
      ((compareSubgraphs left right).differences = ∅ ↔ left.structural = right.structural)
        ∧ ((compareSubgraphs left right).differences = ∅
          ↔ (compareSubgraphs right left).differences = ∅) := by
  constructor
  · intro baseline candidate routes controlled left right hstructure hcatalog hleft hright
    rw [differences_eq_empty (inOrder_of_extractSubgraphs hleft)
      (inOrder_of_extractSubgraphs hright)]
    exact structural_eq_of_extractSubgraphs hstructure hcatalog hleft hright
  · intro baseline candidate routes routes' controlled controlled' left right hleft hright
    have horder := inOrder_of_extractSubgraphs hleft
    have horder' := inOrder_of_extractSubgraphs hright
    refine ⟨differences_eq_empty horder horder', ?_⟩
    rw [differences_eq_empty horder horder', differences_eq_empty horder' horder, eq_comm]

theorem exists_document (report : VmTraceReport) (h : report.traceVersion = vmTraceVersion)
    (routes : List RouteSpec) (controlled : List ControlledObservation) :
    ∃ document, extractSubgraphs report routes controlled = .ok document := by
  unfold extractSubgraphs
  exact ⟨_, if_neg fun hne => hne h⟩

/-- A fetch trace, with an empty catalog. -/
def sampleReport (calls : List VmCallReturn) (inputs : List VmCallInput)
    (steps : List VmFunctionStep) (events : List VmRegisterEvent) : VmTraceReport where
  traceVersion := vmTraceVersion
  caseId := "sample"
  bundleEndpoint := ""
  bundle := ⟨"", 0⟩
  trace := ⟨.fetch, 0, [], calls, inputs, steps, events⟩

/-- Handlers that push text and that read the window. -/
def signingCatalog : List (String × VmOpcodeCatalogEntry) :=
  [("7", ⟨⟨1, 0, 0⟩, false, false, false, false, false, false, ["push"]⟩),
    ("9", ⟨⟨1, 1, 0⟩, true, true, false, false, true, false, ["window", "crypto"]⟩)]

def signingReport (calls : List VmCallReturn) (inputs : List VmCallInput)
    (steps : List VmFunctionStep) (events : List VmRegisterEvent) : VmTraceReport :=
  let report := sampleReport calls inputs steps events
  { report with trace := { report.trace with opcodeCatalog := signingCatalog } }

/-- One signature, with a frame that is loaded and one that is invoked below it. -/
def signedOnce : VmTraceReport :=
  signingReport
    [⟨"8039", "root", "string", 128, "eval", []⟩, ⟨"8040", "8039", "object", 0, "eval", ["k"]⟩,
      ⟨"8039", "root", "string", 128, "invocation", []⟩,
      ⟨"8041", "8039", "number", 3, "invocation", []⟩]
    [⟨8039, [⟨"string", 5, none, []⟩]⟩, ⟨8041, [⟨"number", 1, some "digits", []⟩]⟩]
    [⟨8039, 7, 2, [⟨"N", 1⟩]⟩, ⟨8039, 9, 3, [⟨"N", 2⟩, ⟨"J", 0⟩]⟩, ⟨8041, 9, 1, []⟩]
    [⟨8039, "read", 3, some "text"⟩, ⟨8041, "write", 1, some "number"⟩]

/-- Other lengths, operands and registers, in another order and more often. -/
def signedTwice : VmTraceReport :=
  signingReport
    [⟨"8041", "8039", "number", 4, "invocation", []⟩,
      ⟨"8040", "8039", "object", 2, "eval", ["k"]⟩,
      ⟨"8039", "root", "string", 160, "eval", []⟩, ⟨"8039", "root", "string", 124, "eval", []⟩,
      ⟨"8039", "root", "string", 132, "invocation", []⟩]
    [⟨8041, [⟨"number", 8, some "digits", []⟩]⟩, ⟨8039, [⟨"string", 9, none, []⟩]⟩]
    [⟨8041, 9, 1, []⟩, ⟨8039, 9, 3, [⟨"J", 4⟩, ⟨"N", 0⟩]⟩, ⟨8039, 7, 2, [⟨"N", 4⟩]⟩,
      ⟨8039, 7, 2, []⟩]
    [⟨8041, "read", 2, some "number"⟩, ⟨8039, "write", 9, some "text"⟩]

/-- A route of each phase. -/
def signingRoutes : List RouteSpec := [⟨.msToken, [8040]⟩, ⟨.xGnarly, [8039, 8041]⟩]

theorem compareSubgraphs_structural_signedTwice :
    ∃ left right, extractSubgraphs signedOnce signingRoutes [] = .ok left
      ∧ extractSubgraphs signedTwice signingRoutes [] = .ok right
      ∧ (compareSubgraphs left right).differences = ∅ ∧ left.structural = right.structural := by
  obtain ⟨left, hleft⟩ := exists_document signedOnce rfl signingRoutes []
  obtain ⟨right, hright⟩ := exists_document signedTwice rfl signingRoutes []
  have hstructure : signedOnce.trace.structural = signedTwice.trace.structural := by
    simp only [VmTrace.structural, TraceStructure.mk.injEq]
    exact ⟨by decide, by decide, by decide, by decide, by decide, by decide, by decide⟩
  have hnone := compareSubgraphs_structural.1 signedOnce signedTwice _ _ _ _ hstructure rfl
      hleft hright
  exact ⟨left, right, hleft, hright, hnone,
    (compareSubgraphs_structural.2 signedOnce signedTwice _ _ _ _ _ _ hleft hright).1.mp hnone⟩

/-! ## The sets frame by frame

A frame that runs in both phases has its return classes apart in them, and
a width belongs to a handler of the frame. -/

/-- Return classes over the phases, widths and kinds over the handlers. -/
structure PerFrameStructure where
  calls : Finset (Nat × Option Nat × TracePhase)
  returns : Finset (Nat × ShapeKey)
  arguments : Finset (Nat × Nat × ShapeKey)
  handlers : Finset (Nat × Nat)
  widths : Finset (Nat × Nat)
  helpers : Finset (Nat × String)
  valueClasses : Finset (Nat × String)
deriving DecidableEq

def TraceStructure.perFrame (self : TraceStructure) : PerFrameStructure where
  calls := self.calls
  returns := self.returns.image (·.2)
  arguments := self.arguments
  handlers := self.handlers
  widths := self.widths.image fun width => (width.1, width.2.2)
  helpers := self.helpers.image fun helper => (helper.1, helper.2.2)
  valueClasses := self.valueClasses

/-- A root without children is its whole route. -/
theorem extract_lone {index : TraceIndex} {root : Nat} (phase : TracePhase)
    (hphase : index.routePhase [root] = some phase)
    (hseen : phase ∈ index.framePhases root) (hleaf : index.children (phase, some root) = 0)
    (name : RouteName) (controlled : List ControlledObservation) :
    (index.extract ⟨name, [root]⟩ controlled).frames = [index.frame phase root]
      ∧ (index.extract ⟨name, [root]⟩ controlled).handlers
        = (index.frameHandlers root).toFinset.sort.map
          (index.handlerUse {root} (index.frameHandlers root)) := by
  have hstart : index.startAt phase [root] = { reachable := {root}, queue := [root] } := by
    simp [TraceIndex.startAt, hseen, Walk.enqueue]
  have hrun : (index.startAt phase [root]).run (index.edgesFrom phase)
      = { reachable := {root} } := by
    rw [hstart, Walk.run_of_cons _ rfl, Walk.run_of_nil] <;> simp [TraceIndex.edgesFrom, hleaf]
  unfold TraceIndex.extract
  simp [hphase, hrun, TraceIndex.handlerTotals]

theorem structural_single {report : VmTraceReport} {spec : RouteSpec}
    {controlled : List ControlledObservation} {document : SigningSubgraphDocument}
    (h : extractSubgraphs report [spec] controlled = .ok document) :
    document.structural = [((TraceIndex.build report.trace).extract spec
      controlled).structural] := by
  unfold extractSubgraphs at h
  split at h
  · cases h
  · obtain rfl := Except.ok.inj h
    obtain ⟨name, roots⟩ := spec
    cases name <;> rfl

/-- One frame, run in both phases. -/
def bothPhases (inEval inInvocation : String) : VmTraceReport :=
  sampleReport [⟨"1", "root", inEval, 0, "eval", []⟩,
    ⟨"1", "root", inInvocation, 0, "invocation", []⟩]
    [] [] []

/-- One frame with two handlers. -/
def twoHandlers (first second : Nat) : VmTraceReport :=
  sampleReport [⟨"1", "root", "string", 0, "invocation", []⟩] []
    [⟨1, 1, first, []⟩, ⟨1, 2, second, []⟩] []

/-- The classes of one frame exchanged between its phases, and the widths
between its handlers. -/
theorem perFrame_not_enough :
    (∃ left right,
      (bothPhases "string" "number").trace.structural.perFrame
          = (bothPhases "number" "string").trace.structural.perFrame
        ∧ extractSubgraphs (bothPhases "string" "number") [⟨.msToken, [1]⟩] [] = .ok left
        ∧ extractSubgraphs (bothPhases "number" "string") [⟨.msToken, [1]⟩] [] = .ok right
        ∧ (compareSubgraphs left right).differences ≠ ∅)
    ∧ ∃ left right,
      (twoHandlers 1 2).trace.structural.perFrame = (twoHandlers 2 1).trace.structural.perFrame
        ∧ extractSubgraphs (twoHandlers 1 2) [⟨.msToken, [1]⟩] [] = .ok left
        ∧ extractSubgraphs (twoHandlers 2 1) [⟨.msToken, [1]⟩] [] = .ok right
        ∧ (compareSubgraphs left right).differences ≠ ∅ := by
  constructor
  · obtain ⟨left, hleft⟩ := exists_document (bothPhases "string" "number") rfl [⟨.msToken, [1]⟩] []
    obtain ⟨right, hright⟩ := exists_document (bothPhases "number" "string") rfl [⟨.msToken, [1]⟩] []
    have hsets : (bothPhases "string" "number").trace.structural.perFrame
        = (bothPhases "number" "string").trace.structural.perFrame := by
      simp only [TraceStructure.perFrame, PerFrameStructure.mk.injEq]
      exact ⟨rfl, by decide, rfl, rfl, rfl, rfl, rfl⟩
    refine ⟨left, right, hsets, hleft, hright, fun hnone => ?_⟩
    rw [differences_eq_empty (inOrder_of_extractSubgraphs hleft)
      (inOrder_of_extractSubgraphs hright),
      structural_single hleft, structural_single hright] at hnone
    have hframes := congrArg RouteStructure.frames (List.cons.inj hnone).1
    simp only [RouteSubgraph.structural] at hframes
    rw [(extract_lone .invocation (by decide) (by decide) (by decide) _ _).1,
      (extract_lone .invocation (by decide) (by decide) (by decide) _ _).1] at hframes
    have hreturns := congrArg FrameStructure.returnClasses (List.cons.inj hframes).1
    exact absurd hreturns (by decide)
  · obtain ⟨left, hleft⟩ := exists_document (twoHandlers 1 2) rfl [⟨.msToken, [1]⟩] []
    obtain ⟨right, hright⟩ := exists_document (twoHandlers 2 1) rfl [⟨.msToken, [1]⟩] []
    have hsets : (twoHandlers 1 2).trace.structural.perFrame
        = (twoHandlers 2 1).trace.structural.perFrame := by
      simp only [TraceStructure.perFrame, PerFrameStructure.mk.injEq]
      exact ⟨rfl, rfl, rfl, rfl, by decide, rfl, rfl⟩
    refine ⟨left, right, hsets, hleft, hright, fun hnone => ?_⟩
    rw [differences_eq_empty (inOrder_of_extractSubgraphs hleft)
      (inOrder_of_extractSubgraphs hright),
      structural_single hleft, structural_single hright] at hnone
    have hhandlers := congrArg RouteStructure.handlers (List.cons.inj hnone).1
    simp only [RouteSubgraph.structural] at hhandlers
    rw [(extract_lone .invocation (by decide) (by decide) (by decide) _ _).2,
      (extract_lone .invocation (by decide) (by decide) (by decide) _ _).2] at hhandlers
    have hmem : ((TraceIndex.build (twoHandlers 1 2).trace).handlerUse {1}
        ((TraceIndex.build (twoHandlers 1 2).trace).frameHandlers 1) 1).structural
          ∈ (((TraceIndex.build (twoHandlers 1 2).trace).frameHandlers 1).toFinset.sort.map
            ((TraceIndex.build (twoHandlers 1 2).trace).handlerUse {1}
              ((TraceIndex.build (twoHandlers 1 2).trace).frameHandlers 1))).map
                HandlerUse.structural := by
      rw [List.map_map]
      exact List.mem_map_of_mem ((Finset.mem_sort _).mpr (by decide))
    rw [hhandlers, List.map_map] at hmem
    obtain ⟨opcode, _, hslot⟩ := List.mem_map.mp hmem
    obtain rfl : opcode = 1 := congrArg HandlerStructure.opcode hslot
    exact absurd (congrArg HandlerStructure.operandWidths hslot) (by decide)

end TiktokSigner.SignLab
