import TiktokSigner.Lib.BreadthFirst
import TiktokSigner.SignLab.TraceLaws

/-!
# The frontier of a route

What the breadth-first loop of `extract` reaches. Its frames are the first
of the search without a limit (`search_run`), and it is marked as soon as it
meets a call with `maxRouteFrames` frames in it, whatever the call leads to.
So a route that has all its frames can be marked (`VmTrace.Overrun`), and
this is the only way in which the mark goes wrong
(`extract_frontier_exact_iff`).
-/

namespace TiktokSigner.SignLab

open BreadthFirst FirstSeen Gather

/-! ## Reachability in a trace -/

namespace VmTrace

variable (trace : VmTrace) (phase : TracePhase)

/-- The frame was called in the phase. -/
def Observed (frame : Nat) : Prop :=
  ∃ call ∈ trace.vmCallSequence,
    rawEntry call.entry = some frame ∧ TracePhase.parse call.phase = phase

instance (frame : Nat) : Decidable (trace.Observed phase frame) :=
  inferInstanceAs (Decidable (∃ call ∈ trace.vmCallSequence, _))

def Calls (parent child : Nat) : Prop :=
  ∃ call ∈ trace.vmCallSequence, rawEntry call.entry = some child
    ∧ parseEntry call.parent = some parent ∧ TracePhase.parse call.phase = phase

inductive Reachable (roots : List Nat) : Nat → Prop where
  | root {root : Nat} (hroot : root ∈ roots) (hobserved : trace.Observed phase root) :
      Reachable roots root
  | call {parent child : Nat} (h : Reachable roots parent)
      (hcall : trace.Calls phase parent child) : Reachable roots child

/-- The frames that a frame calls, in increasing order. -/
def callees (parent : Nat) : List Nat :=
  (trace.vmCallSequence.filterMap fun call =>
    if parseEntry call.parent = some parent ∧ TracePhase.parse call.phase = phase then
      rawEntry call.entry
    else none).toFinset.sort

/-- The roots that were observed, each once. -/
def starts (roots : List Nat) : List Nat :=
  (roots.filter fun root => trace.Observed phase root).eraseDups

/-- The roots are kept whatever their number. -/
def room (roots : List Nat) : Nat := max maxRouteFrames (trace.starts phase roots).length

/-- All the reachable frames fit, but when the last call is met,
`maxRouteFrames` of them are in. -/
structure Overrun (roots order : List Nat) : Prop where
  isOrder : Order (trace.callees phase) (trace.starts phase roots) order
  fits : order.length ≤ trace.room phase roots
  calls : order.flatMap (trace.callees phase) ≠ []
  full : maxRouteFrames ≤ (trace.starts phase roots
    ++ (order.flatMap (trace.callees phase)).dropLast).eraseDups.length

variable {trace} {phase}

theorem mem_callees {parent child : Nat} :
    child ∈ trace.callees phase parent ↔ trace.Calls phase parent child := by
  rw [callees, Finset.mem_sort, List.mem_toFinset, List.mem_filterMap]
  refine exists_congr fun call => and_congr_right fun _ => ?_
  split_ifs with hcall
  · exact ⟨fun h => ⟨h, hcall⟩, fun h => h.1⟩
  · exact ⟨fun h => (by cases h), fun h => absurd h.2 hcall⟩

theorem mem_starts {roots : List Nat} {root : Nat} :
    root ∈ trace.starts phase roots ↔ root ∈ roots ∧ trace.Observed phase root := by
  rw [starts, List.mem_eraseDups, List.mem_filter, decide_eq_true_eq]

theorem reaches_iff {roots : List Nat} {frame : Nat} :
    Reaches (trace.callees phase) (trace.starts phase roots) frame
      ↔ trace.Reachable phase roots frame := by
  constructor
  · intro h
    induction h with
    | root h =>
      obtain ⟨hroot, hobserved⟩ := mem_starts.mp h
      exact .root hroot hobserved
    | next _ hnext ih => exact .call ih (mem_callees.mp hnext)
  · intro h
    induction h with
    | root hroot hobserved => exact .root (mem_starts.mpr ⟨hroot, hobserved⟩)
    | call _ hcall ih => exact .next ih (mem_callees.mpr hcall)

theorem starts_concat (trace : VmTrace) (phase : TracePhase) (roots : List Nat) (root : Nat) :
    trace.starts phase (roots ++ [root]) =
      if trace.Observed phase root ∧ root ∉ trace.starts phase roots then
        trace.starts phase roots ++ [root]
      else trace.starts phase roots := by
  by_cases hobserved : trace.Observed phase root
  · have hlast : [root].filter (fun root => decide (trace.Observed phase root)) = [root] := by
      simp [hobserved]
    by_cases hknown : root ∈ trace.starts phase roots
    · rw [if_neg (by simp [hknown]), starts, List.filter_append, hlast,
        eraseDups_concat_of_mem (List.mem_eraseDups.mp hknown), ← starts]
    · have hnew := mt List.mem_eraseDups.mpr hknown
      rw [if_pos ⟨hobserved, hknown⟩, starts, List.filter_append, hlast,
        eraseDups_concat_of_notMem hnew, ← starts]
  · have hlast : [root].filter (fun root => decide (trace.Observed phase root)) = [] := by
      simp [hobserved]
    rw [if_neg (by simp [hobserved]), starts, List.filter_append, hlast, List.append_nil, ← starts]

/-- The children that the index has of a frame. -/
theorem sort_children_build (trace : VmTrace) (phase : TracePhase) (parent : Nat) :
    ((TraceIndex.build trace).children (phase, some parent)).toFinset.sort
      = trace.callees phase parent := by
  rw [callees]
  congr 1
  ext child
  have hholds := TraceIndex.holds_build (.child phase (some parent) child) trace
  rw [Multiset.mem_toFinset, ← Finset.mem_sort (· ≤ ·), ← callees, mem_callees]
  refine Iff.trans hholds ?_
  simp only [TraceStructure.Says, structural, List.mem_toFinset, List.mem_filterMap, Calls,
    Option.map_eq_some_iff, Prod.mk.injEq]
  refine exists_congr fun call => and_congr_right fun _ => ?_
  constructor
  · rintro ⟨_, hentry, rfl, hparent, hphase⟩
    exact ⟨hentry, hparent, hphase⟩
  · rintro ⟨hentry, hparent, hphase⟩
    exact ⟨child, hentry, rfl, hparent, hphase⟩

theorem mem_framePhases_build {frame : Nat} :
    phase ∈ (TraceIndex.build trace).framePhases frame ↔ trace.Observed phase frame := by
  refine Iff.trans (TraceIndex.holds_build (.seen frame phase) trace) ?_
  simp only [TraceStructure.Says, structural, List.mem_toFinset, List.mem_filterMap, Observed,
    Option.map_eq_some_iff, Prod.mk.injEq]
  constructor
  · rintro ⟨_, call, hcall, _, hentry, rfl, _, hphase⟩
    exact ⟨call, hcall, hentry, hphase⟩
  · rintro ⟨call, hcall, hentry, hphase⟩
    exact ⟨_, call, hcall, frame, hentry, rfl, rfl, hphase⟩

end VmTrace

/-! ## The loop -/

namespace Walk

variable {next : Nat → List Nat} {starts : List Nat}

/-- Where the loop is: `done` are expanded, `calls` are met. -/
structure Explored (next : Nat → List Nat) (starts calls done : List Nat) (walk : Walk) :
    Prop where
  order : done ++ walk.queue
    = (starts ++ calls).eraseDups.take (max maxRouteFrames starts.length)
  reachable : walk.reachable = (done ++ walk.queue).toFinset
  reached : ∀ frame ∈ done ++ walk.queue, Reaches next starts frame
  truncated : walk.truncated = true
    ↔ calls ≠ [] ∧ maxRouteFrames ≤ (starts ++ calls.dropLast).eraseDups.length

namespace Explored

variable {calls done : List Nat} {walk : Walk}

theorem nodup (h : Explored next starts calls done walk) : (done ++ walk.queue).Nodup := by
  rw [h.order]
  exact (nodup_eraseDups _).sublist (List.take_sublist _ _)

theorem card_reachable (h : Explored next starts calls done walk) :
    walk.reachable.card
      = min (max maxRouteFrames starts.length) (starts ++ calls).eraseDups.length := by
  rw [h.reachable, List.toFinset_card_of_nodup h.nodup, h.order, List.length_take]

theorem visit (h : Explored next starts calls done walk) (hnodup : starts.Nodup) {edge : CallEdge}
    (hchild : Reaches next starts edge.child) :
    Explored next starts (calls ++ [edge.child]) done (walk.visit edge) := by
  have hcard := h.card_reachable
  have hroots := length_le_eraseDups hnodup (List.subset_append_left starts calls)
  have hcalls : calls ++ [edge.child] ≠ [] := List.append_ne_nil_of_right_ne_nil _ (by simp)
  have hlast : (calls ++ [edge.child]).dropLast = calls := List.dropLast_concat
  unfold Walk.visit
  dsimp only
  split_ifs with hfull
  · -- The limit is met: nothing changes but the mark.
    have hsame := eraseDups_append_extends (starts ++ calls) [edge.child]
    rw [List.append_assoc] at hsame
    obtain ⟨rest, hrest⟩ := hsame
    refine ⟨?_, h.reachable, h.reached, ?_⟩
    · rw [h.order, ← hrest, List.take_append_of_le_length (by omega)]
    · rw [hlast]
      exact ⟨fun _ => ⟨hcalls, by omega⟩, fun _ => rfl⟩
  · have hlength : (starts ++ calls).eraseDups.length < maxRouteFrames := by omega
    have hall : done ++ walk.queue = (starts ++ calls).eraseDups := by
      rw [h.order, List.take_of_length_le (by omega)]
    have hbefore : (starts ++ calls.dropLast).eraseDups.length < maxRouteFrames :=
      Nat.lt_of_le_of_lt (length_eraseDups_mono
        ((List.prefix_append_right_inj starts).mpr (List.dropLast_prefix calls))) hlength
    have hmark : walk.truncated = true ↔ calls ++ [edge.child] ≠ []
        ∧ maxRouteFrames ≤ (starts ++ (calls ++ [edge.child]).dropLast).eraseDups.length := by
      rw [h.truncated, hlast]
      constructor
      · rintro ⟨-, hlimit⟩
        omega
      · rintro ⟨-, hlimit⟩
        omega
    have hmem : edge.child ∈ walk.reachable ↔ edge.child ∈ starts ++ calls := by
      rw [h.reachable, List.mem_toFinset, hall, List.mem_eraseDups]
    unfold Walk.enqueue
    dsimp only
    split_ifs with hknown
    · refine ⟨?_, h.reachable, h.reached, hmark⟩
      rw [h.order, ← List.append_assoc, eraseDups_concat_of_mem (hmem.mp hknown)]
    · have hnew := eraseDups_concat_of_notMem (mt hmem.mpr hknown)
      refine ⟨?_, ?_, ?_, hmark⟩
      · have hfits : ((starts ++ calls).eraseDups ++ [edge.child]).length
            ≤ max maxRouteFrames starts.length := by
          rw [List.length_append, List.length_singleton]
          omega
        rw [← List.append_assoc, hall, ← List.append_assoc, hnew, List.take_of_length_le hfits]
      · ext frame
        simp only [h.reachable, Finset.mem_insert, List.mem_toFinset, List.mem_append,
          List.mem_singleton]
        tauto
      · intro frame hframe
        rw [← List.append_assoc, List.mem_append, List.mem_singleton] at hframe
        rcases hframe with hold | rfl
        · exact h.reached frame hold
        · exact hchild

theorem foldl_visit (h : Explored next starts calls done walk) (hnodup : starts.Nodup)
    {edges : List CallEdge} (hchild : ∀ edge ∈ edges, Reaches next starts edge.child) :
    Explored next starts (calls ++ edges.map CallEdge.child) done (edges.foldl Walk.visit walk) := by
  induction edges generalizing calls walk with
  | nil => simpa using h
  | cons edge edges ih =>
    have hstep := h.visit hnodup (hchild edge List.mem_cons_self)
    have hrest := ih hstep fun e he => hchild e (List.mem_cons_of_mem _ he)
    rwa [List.append_assoc] at hrest

/-- A frame is taken from the queue, and its calls are met. -/
theorem expand {edgesFrom : Nat → List CallEdge}
    (hedges : ∀ frame, (edgesFrom frame).map CallEdge.child = next frame)
    (h : Explored next starts (done.flatMap next) done walk) (hnodup : starts.Nodup)
    {frame : Nat} {queue : List Nat} (hqueue : walk.queue = frame :: queue) :
    Explored next starts ((done ++ [frame]).flatMap next) (done ++ [frame])
      ((edgesFrom frame).foldl Walk.visit { walk with queue }) := by
  have hmove : done ++ walk.queue = done ++ [frame] ++ queue := by
    rw [hqueue, List.append_assoc]
    rfl
  have htaken : Explored next starts (done.flatMap next) (done ++ [frame]) { walk with queue } :=
    ⟨by rw [← hmove, h.order], by rw [← hmove, ← h.reachable], by rw [← hmove]; exact h.reached,
      h.truncated⟩
  have hframe : Reaches next starts frame :=
    h.reached frame (by rw [hqueue]; exact List.mem_append_right _ List.mem_cons_self)
  have hmet := htaken.foldl_visit hnodup fun edge (hedge : edge ∈ edgesFrom frame) =>
    .next hframe (hedges frame ▸ List.mem_map_of_mem hedge)
  rw [hedges frame] at hmet
  rw [List.flatMap_append, List.flatMap_singleton]
  exact hmet

/-- Induction on the work left: the loop ends with all that it kept expanded. -/
theorem run {edgesFrom : Nat → List CallEdge}
    (hedges : ∀ frame, (edgesFrom frame).map CallEdge.child = next frame)
    (h : Explored next starts (done.flatMap next) done walk) (hnodup : starts.Nodup) :
    ∃ all, Explored next starts (all.flatMap next) all (walk.run edgesFrom)
      ∧ (walk.run edgesFrom).queue = [] := by
  induction walk using Walk.run.induct edgesFrom generalizing done with
  | case1 walk hqueue =>
    rw [Walk.run_of_nil edgesFrom hqueue]
    exact ⟨done, h, hqueue⟩
  | case2 walk frame queue hqueue ih =>
    rw [Walk.run_of_cons edgesFrom hqueue]
    exact ih (h.expand hedges hnodup hqueue)

end Explored

end Walk

/-! ## Routes -/

/-- The frames are those reachable from the roots, or the mark tells that
some are missing. -/
structure RouteSubgraph.ExactFrontier (route : RouteSubgraph) (trace : VmTrace) : Prop where
  complete : route.truncated = false → ∀ entry,
    entry ∈ route.frames.map SubgraphFrame.entry ↔ trace.Reachable route.phase route.roots entry
  truncated : route.truncated = true ↔ ∃ entry, trace.Reachable route.phase route.roots entry
    ∧ entry ∉ route.frames.map SubgraphFrame.entry

/-- What is queued is what is reached, and once. -/
theorem Walk.enqueue_list (frames : List Nat) (entry : Nat) :
    Walk.enqueue { reachable := frames.toFinset, queue := frames } entry =
      if entry ∈ frames then { reachable := frames.toFinset, queue := frames }
      else { reachable := (frames ++ [entry]).toFinset, queue := frames ++ [entry] } := by
  have hinsert : insert entry frames.toFinset = (frames ++ [entry]).toFinset := by
    ext frame
    simp only [Finset.mem_insert, List.mem_toFinset, List.mem_append, List.mem_singleton]
    tauto
  rw [Walk.enqueue, hinsert]
  simp only [List.mem_toFinset]

theorem startAt_build (trace : VmTrace) (phase : TracePhase) (roots : List Nat) :
    (TraceIndex.build trace).startAt phase roots
      = { reachable := (trace.starts phase roots).toFinset, queue := trace.starts phase roots } := by
  induction roots using List.reverseRecOn with
  | nil => rfl
  | append_singleton roots root ih =>
    have hsplit : (TraceIndex.build trace).startAt phase (roots ++ [root])
        = if trace.Observed phase root then
            ((TraceIndex.build trace).startAt phase roots).enqueue root
          else (TraceIndex.build trace).startAt phase roots := by
      rw [TraceIndex.startAt, List.foldl_append, ← TraceIndex.startAt]
      simp only [List.foldl_cons, List.foldl_nil, VmTrace.mem_framePhases_build]
    rw [hsplit, ih, VmTrace.starts_concat]
    by_cases hobserved : trace.Observed phase root
    · rw [if_pos hobserved, Walk.enqueue_list]
      by_cases hknown : root ∈ trace.starts phase roots
      · rw [if_pos hknown, if_neg (by simp [hknown])]
      · rw [if_neg hknown, if_pos ⟨hobserved, hknown⟩]
    · rw [if_neg hobserved, if_neg (by simp [hobserved])]

/-- The loop keeps the first frames of the search without a limit. -/
theorem search_run (trace : VmTrace) (phase : TracePhase) (roots : List Nat) :
    ∃ order, Search (trace.callees phase) (trace.starts phase roots) (trace.room phase roots) order
      ∧ let walk := ((TraceIndex.build trace).startAt phase roots).run
          ((TraceIndex.build trace).edgesFrom phase)
        walk.reachable = order.toFinset
          ∧ (walk.truncated = true ↔ order.flatMap (trace.callees phase) ≠ []
            ∧ maxRouteFrames ≤ (trace.starts phase roots
              ++ (order.flatMap (trace.callees phase)).dropLast).eraseDups.length) := by
  have hnodup : (trace.starts phase roots).Nodup := nodup_eraseDups _
  have hedges : ∀ frame, ((TraceIndex.build trace).edgesFrom phase frame).map CallEdge.child
      = trace.callees phase frame := by
    intro frame
    rw [← VmTrace.sort_children_build, TraceIndex.edgesFrom]
    simp [Function.comp_def]
  have hstart : Walk.Explored (trace.callees phase) (trace.starts phase roots) [] []
      { reachable := (trace.starts phase roots).toFinset, queue := trace.starts phase roots } := by
    refine ⟨?_, rfl, fun frame hframe => .root hframe, by simp⟩
    rw [List.append_nil, eraseDups_eq_self hnodup, List.take_of_length_le (Nat.le_max_right ..)]
    rfl
  rw [startAt_build]
  have hinit : Walk.Explored (trace.callees phase) (trace.starts phase roots)
      (List.flatMap (trace.callees phase) []) [] _ := hstart
  obtain ⟨order, hrun, hqueue⟩ := hinit.run hedges hnodup
  have horder := hrun.order
  have hreachable := hrun.reachable
  have hreached := hrun.reached
  rw [hqueue, List.append_nil] at horder hreachable hreached
  exact ⟨order, ⟨horder, hreached⟩, hreachable, hrun.truncated⟩

/-- A search that is not marked has all it met. -/
theorem order_of_not_full {next : Nat → List Nat} {starts order : List Nat}
    (h : Search next starts (max maxRouteFrames starts.length) order) (hnodup : starts.Nodup)
    (hmark : ¬(order.flatMap next ≠ []
      ∧ maxRouteFrames ≤ (starts ++ (order.flatMap next).dropLast).eraseDups.length)) :
    Order next starts order := by
  refine h.toOrder ?_
  rw [met]
  by_cases hcalls : order.flatMap next = []
  · rw [hcalls, List.append_nil, eraseDups_eq_self hnodup]
    exact Nat.le_max_right ..
  · have hbefore := not_and.mp hmark hcalls
    have hsplit := List.dropLast_append_getLast hcalls
    have hlast := length_eraseDups_concat_le (starts ++ (order.flatMap next).dropLast)
      ((order.flatMap next).getLast hcalls)
    rw [List.append_assoc, hsplit] at hlast
    omega

/-- The frames and the mark that the loop leaves. -/
theorem extract_eq_search (trace : VmTrace) (spec : RouteSpec)
    (controlled : List ControlledObservation) :
    let route := (TraceIndex.build trace).extract spec controlled
    ∃ order, Search (trace.callees route.phase) (trace.starts route.phase spec.roots)
        (trace.room route.phase spec.roots) order
      ∧ (∀ entry, entry ∈ route.frames.map SubgraphFrame.entry ↔ entry ∈ order)
      ∧ (route.truncated = true ↔ order.flatMap (trace.callees route.phase) ≠ []
        ∧ maxRouteFrames ≤ (trace.starts route.phase spec.roots
          ++ (order.flatMap (trace.callees route.phase)).dropLast).eraseDups.length) := by
  intro route
  have hphase := phase_extract (TraceIndex.build trace) spec controlled
  cases hroute : (TraceIndex.build trace).routePhase spec.roots with
  | none =>
    have hstarts : trace.starts route.phase spec.roots = [] := by
      refine List.eq_nil_iff_forall_not_mem.mpr fun root hmem => ?_
      obtain ⟨hroot, hobserved⟩ := VmTrace.mem_starts.mp hmem
      exact TraceIndex.notMem_framePhases_of_routePhase hroute hroot _
        (VmTrace.mem_framePhases_build.mpr hobserved)
    have hempty : Search (trace.callees route.phase) (trace.starts route.phase spec.roots)
        (trace.room route.phase spec.roots) [] := by
      rw [hstarts]
      exact ⟨List.take_nil.symm, fun entry hentry => by cases hentry⟩
    refine ⟨[], hempty, fun entry => ?_, ?_⟩
    · simp [route, TraceIndex.extract, hroute]
    · simp [route, TraceIndex.extract, hroute]
  | some phase =>
    obtain ⟨order, hsearch, hreachable, hmark⟩ := search_run trace phase spec.roots
    rw [hroute, Option.getD_some] at hphase
    have hframes : route.frames.map SubgraphFrame.entry = order.toFinset.sort := by
      simp only [route, TraceIndex.extract, hroute, hreachable, List.map_map]
      exact List.map_id _
    rw [hphase]
    refine ⟨order, hsearch, fun entry => ?_, ?_⟩
    · rw [hframes, Finset.mem_sort, List.mem_toFinset]
    · rw [← hmark]
      simp only [route, TraceIndex.extract, hroute]

/-- A route that has all its frames and is marked all the same. -/
theorem not_exactFrontier_of_overrun {trace : VmTrace} {spec : RouteSpec} {order : List Nat}
    (hover : trace.Overrun (((TraceIndex.build trace).routePhase spec.roots).getD .unknown)
      spec.roots order) (controlled : List ControlledObservation) :
    ¬((TraceIndex.build trace).extract spec controlled).ExactFrontier trace := by
  intro hexact
  obtain ⟨found, hsearch, hframes, hmark⟩ := extract_eq_search trace spec controlled
  rw [← phase_extract (TraceIndex.build trace) spec controlled] at hover
  obtain rfl := hsearch.eq_order hover.isOrder hover.fits
  obtain ⟨entry, hreachable, hmissing⟩ := hexact.truncated.mp (hmark.mpr ⟨hover.calls, hover.full⟩)
  rw [roots_extract, ← VmTrace.reaches_iff, ← hover.isOrder.mem_iff] at hreachable
  exact hmissing ((hframes entry).mpr hreachable)

theorem exactFrontier_of_not_overrun {trace : VmTrace} {spec : RouteSpec}
    (hover : ¬∃ order, trace.Overrun
      (((TraceIndex.build trace).routePhase spec.roots).getD .unknown) spec.roots order)
    (controlled : List ControlledObservation) :
    ((TraceIndex.build trace).extract spec controlled).ExactFrontier trace := by
  obtain ⟨order, hsearch, hframes, hmark⟩ := extract_eq_search trace spec controlled
  have hroots := roots_extract (TraceIndex.build trace) spec controlled
  rw [← phase_extract (TraceIndex.build trace) spec controlled] at hover
  set route := (TraceIndex.build trace).extract spec controlled
  have hcomplete : route.truncated = false → ∀ entry, entry ∈ route.frames.map SubgraphFrame.entry
      ↔ trace.Reachable route.phase route.roots entry := by
    intro hfalse entry
    have horder := order_of_not_full hsearch (nodup_eraseDups _) (mt hmark.mpr (by simp [hfalse]))
    rw [hframes, hroots, horder.mem_iff, VmTrace.reaches_iff]
  refine ⟨hcomplete, fun htrue => ?_, ?_⟩
  · by_contra hnone
    push Not at hnone
    have horder : Order (trace.callees route.phase) (trace.starts route.phase spec.roots) order := by
      refine hsearch.toOrder_of_complete fun entry hreaches => ?_
      refine (hframes entry).mp (hnone entry ?_)
      rwa [hroots, ← VmTrace.reaches_iff]
    have hfits : order.length ≤ trace.room route.phase spec.roots := by
      conv_lhs => rw [hsearch.eq]
      exact List.length_take_le _ _
    obtain ⟨hcalls, hfull⟩ := hmark.mp htrue
    exact hover ⟨order, horder, hfits, hcalls, hfull⟩
  · rintro ⟨entry, hreachable, hmissing⟩
    cases htruncated : route.truncated with
    | true => rfl
    | false => exact absurd ((hcomplete htruncated entry).mpr hreachable) hmissing

/-- The frames and the mark of every extracted route are right but for a
call that is met when all its frames are in. -/
theorem extract_frontier_exact_iff (trace : VmTrace) (spec : RouteSpec)
    (controlled : List ControlledObservation) :
    ((TraceIndex.build trace).extract spec controlled).ExactFrontier trace
      ↔ ¬∃ order, trace.Overrun (((TraceIndex.build trace).routePhase spec.roots).getD .unknown)
        spec.roots order := by
  refine ⟨?_, fun hover => exactFrontier_of_not_overrun hover controlled⟩
  rintro hexact ⟨order, hover⟩
  exact not_exactFrontier_of_overrun hover controlled hexact

/-! ## A full route -/

theorem not_exactFrontier_of_observed {trace : VmTrace} {root : Nat} {order : List Nat}
    (hobserved : trace.Observed .invocation root)
    (hover : trace.Overrun .invocation [root] order) (route : RouteName) :
    ¬((TraceIndex.build trace).extract ⟨route, [root]⟩ []).ExactFrontier trace := by
  have hphase : (TraceIndex.build trace).routePhase [root] = some .invocation := by
    rw [TraceIndex.routePhase, List.foldl_cons, List.foldl_nil, Finset.empty_union]
    exact if_pos (VmTrace.mem_framePhases_build.mpr hobserved)
  have hsame : TracePhase.invocation
      = ((TraceIndex.build trace).routePhase [root]).getD .unknown := by
    rw [hphase]
    rfl
  rw [hsame] at hover
  exact not_exactFrontier_of_overrun hover []

theorem rawEntry_toString {n : Nat} (hn : n < 2 ^ 32) : rawEntry (toString n) = some n := by
  have hdigits : (toString n).toList = Nat.toDigits 10 n := Nat.toList_repr
  have hall : (Nat.toDigits 10 n).all Char.isDigit := List.all_eq_true.mpr fun c hc =>
    Nat.isDigit_of_mem_toDigits (by decide) (by decide) hc
  have hsign : Text.stripPrefix ['+'] (Nat.toDigits 10 n) = none := by
    refine Option.eq_none_iff_forall_ne_some.mpr fun rest hrest => ?_
    have hplus : '+' ∈ Nat.toDigits 10 n := by simp [Text.stripPrefix_eq_some.mp hrest]
    exact absurd (List.all_eq_true.mp hall _ hplus) (by decide)
  have hvalue : LiveWs.decimal (Nat.toDigits 10 n) = n := Nat.ofDigitChars_ten_toDigits
  rw [rawEntry, hdigits, hsign, Option.getD_none, hvalue, if_pos ⟨Nat.toDigits_ne_nil, hall, hn⟩]

def invocationOf (parent entry : String) : VmCallReturn where
  entry := entry
  parent := parent
  valueType := "undefined"
  bytes := 0
  phase := "invocation"
  objectKeys := []

/-- One frame that calls all others, and then itself. -/
def selfCallTrace : VmTrace where
  product := .frontier
  clockMs := 0
  opcodeCatalog := []
  vmCallSequence :=
    invocationOf "root" "511" :: (List.range 512).map fun entry => invocationOf "511" (toString entry)
  vmCallInputs := []
  functionSteps := []
  registerTrace := []

theorem sort_range (n : Nat) : (List.range n).toFinset.sort = List.range n :=
  (List.toFinset_sort (· ≤ ·) List.nodup_range).mpr List.pairwise_le_range

/-- The calls of the frame are found at it and nowhere else. -/
theorem called_invocationOf (n parent : Nat) (hn : n ≤ 2 ^ 32) :
    ((List.range n).map fun entry => invocationOf "511" (toString entry)).filterMap (fun call =>
      if parseEntry call.parent = some parent ∧ TracePhase.parse call.phase = .invocation then
        rawEntry call.entry
      else none) = if parent = 511 then List.range n else [] := by
  have hcaller : parseEntry "511" = some 511 := by decide +kernel
  have hentries : ∀ entry ∈ List.range n, rawEntry (toString entry) = some entry :=
    fun entry hentry => rawEntry_toString (Nat.lt_of_lt_of_le (List.mem_range.mp hentry) hn)
  simp only [List.filterMap_map, Function.comp_def, invocationOf, hcaller, Option.some.injEq]
  by_cases hparent : parent = 511
  · rw [if_pos hparent, List.filterMap_congr fun entry hentry =>
      (if_pos ⟨hparent.symm, rfl⟩).trans (hentries entry hentry), List.filterMap_some]
  · rw [if_neg hparent, List.filterMap_congr fun entry _ => if_neg fun h => hparent h.1.symm,
      List.filterMap_none]

theorem callees_selfCallTrace (parent : Nat) :
    selfCallTrace.callees .invocation parent = if parent = 511 then List.range 512 else [] := by
  have hroot : parseEntry "root" ≠ some parent := nofun
  rw [VmTrace.callees, selfCallTrace]
  dsimp only
  rw [List.filterMap_cons, if_neg fun h => hroot h.1]
  dsimp only
  -- for any number of calls: at 512 the kernel would run the list
  rw [called_invocationOf 512 parent (by decide)]
  split_ifs
  · exact sort_range 512
  · exact Finset.sort_empty _

theorem observed_selfCallTrace : selfCallTrace.Observed .invocation 511 :=
  ⟨invocationOf "root" "511", List.mem_cons_self, by decide +kernel, rfl⟩

theorem starts_selfCallTrace : selfCallTrace.starts .invocation [511] = [511] := by
  simp [VmTrace.starts, observed_selfCallTrace]
  rfl

theorem overrun_selfCallTrace :
    selfCallTrace.Overrun .invocation [511] (511 :: List.range 511) := by
  have hcalls : (511 :: List.range 511).flatMap (selfCallTrace.callees .invocation)
      = List.range 511 ++ [511] := by
    have hnone : (List.range 511).flatMap (selfCallTrace.callees .invocation) = [] := by
      refine List.flatMap_eq_nil_iff.mpr fun entry hentry => ?_
      rw [callees_selfCallTrace, if_neg (Nat.ne_of_lt (List.mem_range.mp hentry))]
    rw [List.flatMap_cons, hnone, callees_selfCallTrace, if_pos rfl, List.append_nil]
    exact List.range_succ
  have hnodup : ([511] ++ List.range 511).Nodup := by
    rw [List.singleton_append, List.nodup_cons]
    exact ⟨List.not_mem_range_self, List.nodup_range⟩
  have hroot : Reaches (selfCallTrace.callees .invocation)
      (selfCallTrace.starts .invocation [511]) 511 := by
    refine .root ?_
    rw [starts_selfCallTrace]
    exact List.mem_cons_self
  refine ⟨⟨?_, fun entry hentry => ?_⟩, ?_, ?_, ?_⟩
  · rw [met, hcalls, starts_selfCallTrace, ← List.append_assoc,
      eraseDups_concat_of_mem (by simp), eraseDups_eq_self hnodup, List.singleton_append]
  · rcases List.mem_cons.mp hentry with rfl | hentry
    · exact hroot
    · refine .next hroot ?_
      rw [callees_selfCallTrace, if_pos rfl]
      exact List.mem_range.mpr (Nat.lt_succ_of_lt (List.mem_range.mp hentry))
  · rw [VmTrace.room, List.length_cons, List.length_range]
    exact Nat.le_max_left ..
  · rw [hcalls]
    simp
  · rw [hcalls, List.dropLast_concat, starts_selfCallTrace, eraseDups_eq_self hnodup,
      List.length_append, List.length_range]
    exact Nat.le_refl _

/-- The call of the full route's frame to itself sets the mark. -/
theorem full_route_is_marked_truncated :
    ¬((TraceIndex.build selfCallTrace).extract ⟨.msToken, [511]⟩ []).ExactFrontier
      selfCallTrace := by
  exact not_exactFrontier_of_observed observed_selfCallTrace overrun_selfCallTrace .msToken

end TiktokSigner.SignLab
