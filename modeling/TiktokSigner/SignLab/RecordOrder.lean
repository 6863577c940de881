import TiktokSigner.SignLab.TraceLaws

/-!
# Extraction and the order of records

No loop of `TraceIndex.build` sees in which order its records come: two
turns can be swapped (`absorbCall_comm` and the like), so reordered traces
have one index. A call of one phase leaves all that the index holds of
another alone (`samePhase_absorbCall`), and a route reads one phase only
(`SamePhase.extract`).
-/

namespace TiktokSigner.SignLab

open Gather

/-! ## Swapped turns -/

namespace TraceIndex

theorem absorbCall_comm (index : TraceIndex) (a b : VmCallReturn) :
    absorbCall (absorbCall index a) b = absorbCall (absorbCall index b) a := by
  unfold absorbCall
  cases rawEntry a.entry with
  | none => cases rawEntry b.entry <;> rfl
  | some entry =>
    cases rawEntry b.entry with
    | none => rfl
    | some other =>
      dsimp only
      congr 1
      · exact modify_comm _ fun v => Multiset.cons_swap ..
      · exact modify_comm _ fun v => Finset.insert_comm ..
      · exact modify_comm _ fun v => Finset.insert_comm ..
      · exact modify_comm _ fun v => rfl
      · exact modify_comm _ fun v => Finset.insert_comm ..

theorem absorbInput_comm (index : TraceIndex) (a b : VmCallInput) :
    absorbInput (absorbInput index a) b = absorbInput (absorbInput index b) a := by
  unfold absorbInput
  dsimp only
  congr 1
  refine modify_comm _ fun v => ?_
  simp only [foldl_insert]
  exact Finset.union_right_comm ..

theorem absorbStep_comm (index : TraceIndex) (a b : VmFunctionStep) :
    absorbStep (absorbStep index a) b = absorbStep (absorbStep index b) a := by
  unfold absorbStep
  dsimp only
  congr 1
  · exact modify_comm _ fun v => Multiset.cons_swap ..
  · refine modify_comm _ fun v => ?_
    simp only [foldl_insert]
    rw [Finset.insert_comm, Finset.union_right_comm]

theorem absorbEvent_comm (index : TraceIndex) (a b : VmRegisterEvent) :
    absorbEvent (absorbEvent index a) b = absorbEvent (absorbEvent index b) a := by
  unfold absorbEvent
  dsimp only
  congr 1
  refine modify_comm _ fun v => ?_
  simp only [RegisterAccumulator.mk.injEq]
  refine ⟨?_, ?_, Finset.insert_comm .., ?_⟩
  · split_ifs <;> rfl
  · split_ifs <;> rfl
  · rcases a.valueClass with _ | first
    · rfl
    · rcases b.valueClass with _ | second
      · rfl
      · exact Finset.insert_comm ..

/-- The index of a trace is that of any order of its records. -/
theorem build_eq_of_perm {trace : VmTrace} {calls : List VmCallReturn} {inputs : List VmCallInput}
    {steps : List VmFunctionStep} {events : List VmRegisterEvent}
    (hcalls : trace.vmCallSequence.Perm calls) (hinputs : trace.vmCallInputs.Perm inputs)
    (hsteps : trace.functionSteps.Perm steps) (hevents : trace.registerTrace.Perm events) :
    build trace = build
      { trace with
        vmCallSequence := calls
        vmCallInputs := inputs
        functionSteps := steps
        registerTrace := events } := by
  unfold build
  dsimp only
  rw [hcalls.foldl_eq' fun a _ b _ index => absorbCall_comm index a b,
    hinputs.foldl_eq' fun a _ b _ index => absorbInput_comm index a b,
    hsteps.foldl_eq' fun a _ b _ index => absorbStep_comm index a b,
    hevents.foldl_eq' fun a _ b _ index => absorbEvent_comm index a b]

end TraceIndex

/-! ## Indexes that agree on a phase -/

/-- The indexes hold the same of all but the calls of other phases. -/
structure TraceIndex.SamePhase (phase : TracePhase) (i j : TraceIndex) : Prop where
  children : ∀ parent, i.children (phase, parent) = j.children (phase, parent)
  framePhases : ∀ frame, phase ∈ i.framePhases frame ↔ phase ∈ j.framePhases frame
  parents : ∀ frame, i.parents (phase, frame) = j.parents (phase, frame)
  calls : ∀ frame, i.calls (phase, frame) = j.calls (phase, frame)
  returns : ∀ frame, i.returns (phase, frame) = j.returns (phase, frame)
  arguments : i.arguments = j.arguments
  frameHandlers : i.frameHandlers = j.frameHandlers
  frameOperands : i.frameOperands = j.frameOperands
  registers : i.registers = j.registers
  catalog : i.catalog = j.catalog

namespace TraceIndex

variable {phase : TracePhase}

theorem samePhase_refl (index : TraceIndex) : SamePhase phase index index :=
  ⟨fun _ => rfl, fun _ => Iff.rfl, fun _ => rfl, fun _ => rfl, fun _ => rfl, rfl, rfl, rfl, rfl, rfl⟩

theorem samePhase_absorbCall (index : TraceIndex) {call : VmCallReturn}
    (h : TracePhase.parse call.phase ≠ phase) : SamePhase phase (absorbCall index call) index := by
  unfold absorbCall
  cases rawEntry call.entry with
  | none => exact samePhase_refl index
  | some entry =>
    have hslot : ∀ {α : Type} (a b : α), (phase, a) ≠ (TracePhase.parse call.phase, b) :=
      fun a b heq => h (congrArg Prod.fst heq).symm
    refine ⟨fun parent => modify_of_ne _ _ (hslot _ _), fun frame => ?_,
      fun frame => modify_of_ne _ _ (hslot _ _), fun frame => modify_of_ne _ _ (hslot _ _),
      fun frame => modify_of_ne _ _ (hslot _ _), rfl, rfl, rfl, rfl, rfl⟩
    dsimp only
    rw [mem_modify_insert]
    simp [h.symm]

namespace SamePhase

variable {i j k : TraceIndex}

theorem trans (h : SamePhase phase i j) (h' : SamePhase phase j k) : SamePhase phase i k where
  children parent := (h.children parent).trans (h'.children parent)
  framePhases frame := (h.framePhases frame).trans (h'.framePhases frame)
  parents frame := (h.parents frame).trans (h'.parents frame)
  calls frame := (h.calls frame).trans (h'.calls frame)
  returns frame := (h.returns frame).trans (h'.returns frame)
  arguments := h.arguments.trans h'.arguments
  frameHandlers := h.frameHandlers.trans h'.frameHandlers
  frameOperands := h.frameOperands.trans h'.frameOperands
  registers := h.registers.trans h'.registers
  catalog := h.catalog.trans h'.catalog

theorem absorbInput (h : SamePhase phase i j) (input : VmCallInput) :
    SamePhase phase (absorbInput i input) (absorbInput j input) :=
  { h with arguments := by simp only [TraceIndex.absorbInput, h.arguments] }

theorem absorbStep (h : SamePhase phase i j) (step : VmFunctionStep) :
    SamePhase phase (absorbStep i step) (absorbStep j step) :=
  { h with
    frameHandlers := by simp only [TraceIndex.absorbStep, h.frameHandlers]
    frameOperands := by simp only [TraceIndex.absorbStep, h.frameOperands] }

theorem absorbEvent (h : SamePhase phase i j) (event : VmRegisterEvent) :
    SamePhase phase (absorbEvent i event) (absorbEvent j event) :=
  { h with registers := by simp only [TraceIndex.absorbEvent, h.registers] }

/-! What a route of the phase reads -/

theorem startAt (h : SamePhase phase i j) (roots : List Nat) :
    i.startAt phase roots = j.startAt phase roots := by
  simp only [TraceIndex.startAt, h.framePhases]

theorem edgesFrom (h : SamePhase phase i j) : i.edgesFrom phase = j.edgesFrom phase := by
  funext frame
  simp only [TraceIndex.edgesFrom, h.children]

theorem inboundEdges (h : SamePhase phase i j) (reachable : Finset Nat) (roots : List Nat)
    (edges : Finset CallEdge) :
    i.inboundEdges phase reachable roots edges = j.inboundEdges phase reachable roots edges := by
  simp only [TraceIndex.inboundEdges, h.parents, h.children]

theorem catalogEntry (h : SamePhase phase i j) : i.catalogEntry = j.catalogEntry := by
  funext opcode
  rw [TraceIndex.catalogEntry, TraceIndex.catalogEntry, h.catalog]

theorem frame (h : SamePhase phase i j) : i.frame phase = j.frame phase := by
  funext entry
  simp only [TraceIndex.frame, TraceIndex.environmentOf, TraceIndex.argumentShapes, h.parents,
    h.calls, h.returns, h.arguments, h.frameHandlers, h.registers, h.catalogEntry]

theorem handlerTotals (h : SamePhase phase i j) : i.handlerTotals = j.handlerTotals := by
  funext entries
  rw [TraceIndex.handlerTotals, TraceIndex.handlerTotals, h.frameHandlers]

theorem handlerUse (h : SamePhase phase i j) : i.handlerUse = j.handlerUse := by
  funext entries totals opcode
  rw [TraceIndex.handlerUse, TraceIndex.handlerUse, h.frameOperands, h.catalogEntry]

theorem extract (h : SamePhase phase i j) {spec : RouteSpec}
    (hi : i.routePhase spec.roots = some phase) (hj : j.routePhase spec.roots = some phase)
    (controlled : List ControlledObservation) :
    i.extract spec controlled = j.extract spec controlled := by
  simp only [TraceIndex.extract, hi, hj, h.startAt, h.edgesFrom, h.inboundEdges, h.frame,
    h.handlerTotals, h.handlerUse]

end SamePhase

/-- Calls of other phases are not seen. -/
theorem samePhase_build {trace : VmTrace} {foreign sequence : List VmCallReturn}
    (hforeign : ∀ call ∈ foreign, TracePhase.parse call.phase ≠ phase)
    (hsequence : sequence.Perm (trace.vmCallSequence ++ foreign)) :
    SamePhase phase (build { trace with vmCallSequence := sequence }) (build trace) := by
  have hcalls : SamePhase phase
      (sequence.foldl TraceIndex.absorbCall { catalog := trace.opcodeCatalog })
      (trace.vmCallSequence.foldl TraceIndex.absorbCall { catalog := trace.opcodeCatalog }) := by
    rw [hsequence.foldl_eq' fun a _ b _ index => absorbCall_comm index a b, List.foldl_append]
    clear hsequence
    generalize trace.vmCallSequence.foldl _ _ = index
    induction foreign generalizing index with
    | nil => exact samePhase_refl index
    | cons call foreign ih =>
      have hrest := ih (fun c hc => hforeign c (List.mem_cons_of_mem _ hc)) (absorbCall index call)
      exact hrest.trans (samePhase_absorbCall index (hforeign call List.mem_cons_self))
  unfold build
  dsimp only
  refine List.foldl_rel ?_ fun event _ _ _ h => h.absorbEvent event
  refine List.foldl_rel ?_ fun step _ _ _ h => h.absorbStep step
  exact List.foldl_rel hcalls fun input _ _ _ h => h.absorbInput input

/-- The phase of a route that is rooted in it stays. -/
theorem SamePhase.routePhase {i j : TraceIndex} (h : SamePhase .invocation i j) {roots : List Nat}
    (hj : j.routePhase roots = some .invocation) : i.routePhase roots = some .invocation := by
  rw [routePhase_eq_invocation_iff] at hj ⊢
  obtain ⟨root, hroot, hphase⟩ := hj
  exact ⟨root, hroot, (h.framePhases root).mpr hphase⟩

end TraceIndex

/-! ## Documents -/

/-- Routes of two traces that may differ where they are not rooted in the
invocation phase. -/
def RouteSubgraph.Unchanged (before after : RouteSubgraph) : Prop :=
  after.route = before.route ∧ (before.phase = .invocation → after = before)

theorem unchanged_extract {i j : TraceIndex} (h : TraceIndex.SamePhase .invocation j i)
    (spec : RouteSpec) (controlled : List ControlledObservation) :
    (i.extract spec controlled).Unchanged (j.extract spec controlled) := by
  refine ⟨by rw [route_extract, route_extract], fun hphase => ?_⟩
  rw [phase_extract] at hphase
  cases hi : i.routePhase spec.roots with
  | none =>
    rw [hi] at hphase
    cases hphase
  | some phase =>
    rw [hi, Option.getD_some] at hphase
    subst hphase
    exact h.extract (h.routePhase hi) hi controlled

theorem unchanged_gathered {i j : TraceIndex} (h : TraceIndex.SamePhase .invocation j i)
    (routes : List RouteSpec) (controlled : List ControlledObservation) (names : List RouteName) :
    List.Forall₂ RouteSubgraph.Unchanged (names.filterMap (gathered i routes controlled))
      (names.filterMap (gathered j routes controlled)) := by
  induction names with
  | nil => exact .nil
  | cons name names ih =>
    rw [List.filterMap_cons, List.filterMap_cons, gathered_eq, gathered_eq]
    cases routes.reverse.find? fun spec => decide (spec.route = name) with
    | none => exact ih
    | some spec => exact .cons (unchanged_extract h spec controlled) ih

theorem extractSubgraphs_ignores_order_and_other_phases (report : VmTraceReport)
    (routes : List RouteSpec) (controlled : List ControlledObservation) :
    (∀ calls inputs steps events, report.trace.vmCallSequence.Perm calls →
      report.trace.vmCallInputs.Perm inputs → report.trace.functionSteps.Perm steps →
      report.trace.registerTrace.Perm events →
      extractSubgraphs
          { report with trace :=
            { report.trace with
              vmCallSequence := calls
              vmCallInputs := inputs
              functionSteps := steps
              registerTrace := events } } routes controlled
        = extractSubgraphs report routes controlled)
    ∧ ∀ document foreign sequence, extractSubgraphs report routes controlled = .ok document →
      (∀ call ∈ foreign, TracePhase.parse call.phase ≠ .invocation) →
      sequence.Perm (report.trace.vmCallSequence ++ foreign) →
      ∃ other, extractSubgraphs
            { report with trace := { report.trace with vmCallSequence := sequence } }
            routes controlled = .ok other
        ∧ List.Forall₂ RouteSubgraph.Unchanged document.routes other.routes := by
  constructor
  · intro calls inputs steps events hcalls hinputs hsteps hevents
    simp only [extractSubgraphs, TraceIndex.build_eq_of_perm hcalls hinputs hsteps hevents]
  · intro document foreign sequence hdocument hforeign hsequence
    have hsame := TraceIndex.samePhase_build hforeign hsequence
    unfold extractSubgraphs at hdocument ⊢
    split at hdocument
    · cases hdocument
    · rename_i hversion
      obtain rfl := Except.ok.inj hdocument
      rw [if_neg hversion]
      exact ⟨_, rfl, unchanged_gathered hsame routes controlled RouteName.all⟩

/-- The records of a trace back to front, and with a call of the other phase among
them. -/
theorem extractSubgraphs_ignores_order_signedOnce :
    extractSubgraphs
        { signedOnce with trace :=
          { signedOnce.trace with
            vmCallSequence := signedOnce.trace.vmCallSequence.reverse
            vmCallInputs := signedOnce.trace.vmCallInputs.reverse
            functionSteps := signedOnce.trace.functionSteps.reverse
            registerTrace := signedOnce.trace.registerTrace.reverse } } signingRoutes []
      = extractSubgraphs signedOnce signingRoutes []
    ∧ ∃ document other, extractSubgraphs signedOnce signingRoutes [] = .ok document
      ∧ extractSubgraphs
          { signedOnce with trace :=
            { signedOnce.trace with
              vmCallSequence :=
                ⟨"8041", "8040", "string", 1, "eval", []⟩ :: signedOnce.trace.vmCallSequence } }
          signingRoutes [] = .ok other
      ∧ List.Forall₂ RouteSubgraph.Unchanged document.routes other.routes := by
  obtain ⟨horder, hphases⟩ :=
    extractSubgraphs_ignores_order_and_other_phases signedOnce signingRoutes []
  obtain ⟨document, hdocument⟩ := exists_document signedOnce rfl signingRoutes []
  obtain ⟨other, hother, hunchanged⟩ := hphases document
    [⟨"8041", "8040", "string", 1, "eval", []⟩] _ hdocument (by decide)
    (List.perm_append_singleton _ _).symm
  refine ⟨horder _ _ _ _ ?_ ?_ ?_ ?_, document, other, hdocument, hother, hunchanged⟩
  all_goals exact (List.reverse_perm _).symm

end TiktokSigner.SignLab
