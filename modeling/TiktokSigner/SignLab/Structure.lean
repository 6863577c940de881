import TiktokSigner.SignLab.SubgraphDiff

/-!
# The structure of a subgraph document

What two documents of one build share: everything but counts, byte lengths
and register numbers. `compareSubgraphs` compares exactly this
(`differences_eq_empty`) on documents whose routes, frames and handlers are
in order, as the extracted ones are (`ordered_of_extractSubgraphs`).
-/

namespace TiktokSigner.SignLab

open Keyed

/-! ## Projections -/

structure FrameStructure where
  entry : Nat
  parents : Finset (Option Nat)
  handlers : Finset Nat
  environment : EnvironmentFlags
  valueClasses : Finset String
  argumentClasses : Finset (Nat × Finset ShapeKey)
  returnClasses : Finset ShapeKey
deriving DecidableEq

def SubgraphFrame.structural (self : SubgraphFrame) : FrameStructure where
  entry := self.entry
  parents := self.parents
  handlers := self.handlers
  environment := self.environment
  valueClasses := self.registerOps.valueClasses
  argumentClasses := argumentClasses self
  returnClasses := shapeClasses self.returnShapes

structure HandlerStructure where
  opcode : Nat
  operandWidths : Finset Nat
  operandHelpers : Finset String
  handlerTags : Finset String
  environment : EnvironmentFlags
deriving DecidableEq

def HandlerUse.structural (self : HandlerUse) : HandlerStructure where
  opcode := self.opcode
  operandWidths := self.operandWidths
  operandHelpers := self.operandHelpers
  handlerTags := self.handlerTags
  environment := self.environment

structure RouteStructure where
  route : RouteName
  observed : Bool
  phase : TracePhase
  truncated : Bool
  frames : List FrameStructure
  callEdges : Finset (Option Nat × Nat)
  handlers : List HandlerStructure
  dependencies : List RouteDependency
deriving DecidableEq

def RouteSubgraph.structural (self : RouteSubgraph) : RouteStructure where
  route := self.route
  observed := self.observed
  phase := self.phase
  truncated := self.truncated
  frames := self.frames.map SubgraphFrame.structural
  callEdges := self.callEdges.image CallEdge.edge
  handlers := self.handlers.map HandlerUse.structural
  dependencies := self.dependencies

def SigningSubgraphDocument.structural (self : SigningSubgraphDocument) : List RouteStructure :=
  self.routes.map RouteSubgraph.structural

/-! ## Documents in order -/

/-- `a` stands before `b` in `RouteName.all`. -/
def RouteName.Before (a b : RouteName) : Prop := RouteName.all.idxOf a < RouteName.all.idxOf b

instance : DecidableRel RouteName.Before := fun _ _ => inferInstanceAs (Decidable (_ < _))

instance : Std.Irrefl RouteName.Before := ⟨fun _ => Nat.lt_irrefl _⟩

instance : Std.Antisymm RouteName.Before :=
  ⟨fun _ _ hab hba => absurd hab (Nat.lt_asymm hba)⟩

structure RouteSubgraph.InOrder (route : RouteSubgraph) : Prop where
  frames : Ordered SubgraphFrame.entry (· < ·) route.frames
  handlers : Ordered HandlerUse.opcode (· < ·) route.handlers

structure SigningSubgraphDocument.InOrder (document : SigningSubgraphDocument) : Prop where
  routes : Ordered RouteSubgraph.route RouteName.Before document.routes
  each : ∀ route ∈ document.routes, route.InOrder

/-! ## The pieces of a comparison -/

section Pieces

variable {route : RouteName} {kind : SubgraphDifferenceKind}

theorem biUnion_eq_empty {α : Type} {s : Finset α} {t : α → Finset SubgraphDifference} :
    s.biUnion t = ∅ ↔ ∀ a ∈ s, t a = ∅ := by
  rw [← Finset.not_nonempty_iff_eq_empty, Finset.biUnion_nonempty]
  simp only [not_exists, not_and, Finset.not_nonempty_iff_eq_empty]

@[simp] theorem push_eq_empty {changed : Prop} [Decidable changed] {detail : String} :
    push route changed kind detail = ∅ ↔ ¬changed := by
  unfold push
  split <;> simp_all

@[simp] theorem pushOnly_eq_empty {α : Type} [DecidableEq α] {label : α → String}
    {baseline candidate : Finset α} :
    pushOnly route kind label baseline candidate = ∅ ↔ baseline = candidate := by
  simp only [pushOnly, Finset.union_eq_empty, Finset.image_eq_empty,
    Finset.sdiff_eq_empty_iff_subset]
  exact Finset.Subset.antisymm_iff.symm

theorem compareHandler_eq_empty (route : RouteName) {left right : HandlerUse}
    (h : left.opcode = right.opcode) :
    compareHandler route left right = ∅ ↔ left.structural = right.structural := by
  simp only [compareHandler, Finset.union_eq_empty, push_eq_empty, not_not,
    HandlerUse.structural, HandlerStructure.mk.injEq, h, true_and, and_assoc]

theorem compareFrame_eq_empty (route : RouteName) {left right : SubgraphFrame}
    (h : left.entry = right.entry) :
    compareFrame route left right = ∅ ↔ left.structural = right.structural := by
  simp only [compareFrame, Finset.union_eq_empty, push_eq_empty, not_not,
    SubgraphFrame.structural, FrameStructure.mk.injEq, h, true_and]
  tauto

/-- The records of the common keys agree, as far as `compare` sees. -/
theorem compareBoth_eq_empty {α κ β : Type} [DecidableEq κ] {key : α → κ} {p : α → β}
    {compare : α → α → Finset SubgraphDifference}
    (hcompare : ∀ left right, key left = key right → (compare left right = ∅ ↔ p left = p right))
    {baseline candidate : List α} :
    compareBoth key compare baseline candidate = ∅ ↔ Agree key p baseline candidate := by
  unfold compareBoth
  rw [biUnion_eq_empty]
  constructor
  · intro h k left right hleft hright
    have hk := h k (by
      rw [Finset.mem_inter, List.mem_toFinset, List.mem_toFinset]
      exact ⟨find_isSome.mp (by rw [hleft]; rfl), find_isSome.mp (by rw [hright]; rfl)⟩)
    rw [hleft, hright] at hk
    exact (hcompare left right ((key_of_find hleft).trans (key_of_find hright).symm)).mp hk
  · intro h k _
    split
    · rename_i left right hleft hright
      exact (hcompare left right ((key_of_find hleft).trans (key_of_find hright).symm)).mpr
        (h k left right hleft hright)
    · rfl

/-- Equal key sets and no difference between the records of the same key. -/
theorem keys_and_both_eq_empty {α κ β : Type} [DecidableEq κ] {r : κ → κ → Prop} [Std.Irrefl r]
    [Std.Antisymm r] {key : α → κ} (keyOf : β → κ) (p : α → β) (hkey : ∀ a, keyOf (p a) = key a)
    {compare : α → α → Finset SubgraphDifference}
    (hcompare : ∀ left right, key left = key right → (compare left right = ∅ ↔ p left = p right))
    {baseline candidate : List α} (hbaseline : Ordered key r baseline)
    (hcandidate : Ordered key r candidate) :
    (baseline.map key).toFinset = (candidate.map key).toFinset
        ∧ compareBoth key compare baseline candidate = ∅
      ↔ baseline.map p = candidate.map p := by
  rw [map_eq_iff hkey hbaseline hcandidate, compareBoth_eq_empty hcompare]
  simp only [Finset.ext_iff, List.mem_toFinset]

end Pieces

/-! ## Routes and documents -/

theorem compareRoute_eq_empty {baseline candidate : RouteSubgraph}
    (hroute : baseline.route = candidate.route) (hbaseline : baseline.InOrder)
    (hcandidate : candidate.InOrder) :
    compareRoute baseline candidate = ∅ ↔ baseline.structural = candidate.structural := by
  have hframes := keys_and_both_eq_empty FrameStructure.entry SubgraphFrame.structural
    (fun _ => rfl)
    (fun left right h => compareFrame_eq_empty baseline.route h)
    hbaseline.frames hcandidate.frames
  have hhandlers := keys_and_both_eq_empty HandlerStructure.opcode HandlerUse.structural
    (fun _ => rfl)
    (fun left right h => compareHandler_eq_empty baseline.route h)
    hbaseline.handlers hcandidate.handlers
  simp only [compareRoute, Finset.union_eq_empty, push_eq_empty, pushOnly_eq_empty, not_not,
    RouteSubgraph.structural, RouteStructure.mk.injEq, hroute, true_and, ← hframes, ← hhandlers]
  constructor
  · rintro ⟨⟨⟨⟨⟨⟨⟨⟨hobserved, hphase⟩, htruncated⟩, hentries⟩, hedges⟩, hopcodes⟩, huses⟩, hsame⟩,
      hdependencies⟩
    exact ⟨hobserved, hphase, htruncated, ⟨hentries, hsame⟩, hedges, ⟨hopcodes, huses⟩,
      hdependencies⟩
  · rintro ⟨hobserved, hphase, htruncated, ⟨hentries, hsame⟩, hedges, ⟨hopcodes, huses⟩,
      hdependencies⟩
    exact ⟨⟨⟨⟨⟨⟨⟨⟨hobserved, hphase⟩, htruncated⟩, hentries⟩, hedges⟩, hopcodes⟩, huses⟩, hsame⟩,
      hdependencies⟩

/-- A route of one document only is a difference of its own. -/
theorem compareNamed_eq_empty {name : RouteName} {left right : Option RouteSubgraph} :
    compareNamed name left right = ∅
      ↔ (left.isSome ↔ right.isSome)
        ∧ ∀ a b, left = some a → right = some b → compareRoute a b = ∅ := by
  cases left <;> cases right <;> simp [compareNamed]

theorem differences_eq_empty {baseline candidate : SigningSubgraphDocument}
    (hbaseline : baseline.InOrder) (hcandidate : candidate.InOrder) :
    (compareSubgraphs baseline candidate).differences = ∅
      ↔ baseline.structural = candidate.structural := by
  have hroute : ∀ {k a b}, find RouteSubgraph.route k baseline.routes = some a →
      find RouteSubgraph.route k candidate.routes = some b →
      (compareRoute a b = ∅ ↔ a.structural = b.structural) := by
    intro k a b ha hb
    exact compareRoute_eq_empty ((key_of_find ha).trans (key_of_find hb).symm)
      (hbaseline.each a (List.mem_of_find?_eq_some ha))
      (hcandidate.each b (List.mem_of_find?_eq_some hb))
  have hkey : ∀ a, RouteStructure.route (RouteSubgraph.structural a) = RouteSubgraph.route a :=
    fun _ => rfl
  rw [SigningSubgraphDocument.structural, SigningSubgraphDocument.structural,
    map_eq_iff hkey hbaseline.routes hcandidate.routes]
  simp only [compareSubgraphs, biUnion_eq_empty, List.mem_toFinset, List.map_append,
    List.mem_append, compareNamed_eq_empty, find_isSome]
  constructor
  · intro h
    refine ⟨fun k => ⟨fun hk => (h k (Or.inl hk)).1.mp hk, fun hk => (h k (Or.inr hk)).1.mpr hk⟩,
      fun k a b ha hb => ?_⟩
    have hk : k ∈ baseline.routes.map RouteSubgraph.route := find_isSome.mp (by rw [ha]; rfl)
    exact (hroute ha hb).mp ((h k (Or.inl hk)).2 a b ha hb)
  · rintro ⟨hkeys, hagree⟩ k _
    exact ⟨hkeys k, fun a b ha hb => (hroute ha hb).mpr (hagree k a b ha hb)⟩

/-! ## Extracted documents are in order -/

theorem pairwise_sort_lt (s : Finset Nat) : s.sort.Pairwise (· < ·) :=
  s.sortedLT_sort.pairwise

theorem inOrder_extract (index : TraceIndex) (spec : RouteSpec)
    (controlled : List ControlledObservation) : (index.extract spec controlled).InOrder := by
  unfold TraceIndex.extract
  split
  · exact ⟨List.Pairwise.nil, List.Pairwise.nil⟩
  · constructor
    · simpa [Ordered, TraceIndex.frame, Function.comp_def] using pairwise_sort_lt _
    · simpa [Ordered, TraceIndex.handlerUse, Function.comp_def] using pairwise_sort_lt _

theorem route_extract (index : TraceIndex) (spec : RouteSpec)
    (controlled : List ControlledObservation) :
    (index.extract spec controlled).route = spec.route := by
  unfold TraceIndex.extract
  split <;> rfl

theorem phase_extract (index : TraceIndex) (spec : RouteSpec)
    (controlled : List ControlledObservation) :
    (index.extract spec controlled).phase = (index.routePhase spec.roots).getD .unknown := by
  unfold TraceIndex.extract
  cases index.routePhase spec.roots with
  | none => rfl
  | some phase => rfl

theorem roots_extract (index : TraceIndex) (spec : RouteSpec)
    (controlled : List ControlledObservation) :
    (index.extract spec controlled).roots = spec.roots := by
  unfold TraceIndex.extract
  cases index.routePhase spec.roots with
  | none => rfl
  | some phase => rfl

/-- The routes gathered from the specs. -/
def gathered (index : TraceIndex) (routes : List RouteSpec)
    (controlled : List ControlledObservation) : RouteName → Option RouteSubgraph :=
  routes.foldl (fun extracted spec =>
    Gather.modify extracted spec.route fun _ => some (index.extract spec controlled)) fun _ => none

/-- The last spec of a name is the one that counts. -/
theorem gathered_eq (index : TraceIndex) (routes : List RouteSpec)
    (controlled : List ControlledObservation) (name : RouteName) :
    gathered index routes controlled name
      = (routes.reverse.find? fun spec => decide (spec.route = name)).map
        fun spec => index.extract spec controlled := by
  unfold gathered
  induction routes using List.reverseRecOn with
  | nil => rfl
  | append_singleton routes spec ih =>
    rw [List.foldl_append, List.reverse_append]
    by_cases h : name = spec.route
    · subst h
      simp
    · rw [List.foldl_cons, List.foldl_nil, Gather.modify_of_ne _ _ h, ih]
      simp [Ne.symm h]

theorem inOrder_of_extractSubgraphs {report : VmTraceReport} {routes : List RouteSpec}
    {controlled : List ControlledObservation} {document : SigningSubgraphDocument}
    (h : extractSubgraphs report routes controlled = .ok document) : document.InOrder := by
  unfold extractSubgraphs at h
  split at h
  · cases h
  · obtain rfl := Except.ok.inj h
    have hnamed : ∀ {name route}, gathered (.build report.trace) routes controlled name
        = some route →
        route.route = name ∧ route.InOrder := by
      intro name route hroute
      rw [gathered_eq] at hroute
      obtain ⟨spec, hspec, rfl⟩ := Option.map_eq_some_iff.mp hroute
      have hname : spec.route = name := by simpa using List.find?_some hspec
      exact ⟨(route_extract _ spec controlled).trans hname, inOrder_extract _ spec controlled⟩
    constructor
    · have hsub : ∀ names : List RouteName, names.Pairwise RouteName.Before →
          Ordered RouteSubgraph.route RouteName.Before
            (names.filterMap (gathered (.build report.trace) routes controlled)) := by
        intro names hnames
        unfold Ordered
        rw [List.pairwise_map, List.pairwise_filterMap]
        refine hnames.imp fun hbefore a ha b hb => ?_
        rw [(hnamed ha).1, (hnamed hb).1]
        exact hbefore
      exact hsub RouteName.all (by decide)
    · intro route hmem
      obtain ⟨name, _, hroute⟩ := List.mem_filterMap.mp hmem
      exact (hnamed hroute).2

end TiktokSigner.SignLab
