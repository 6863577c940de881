import TiktokSigner.Lib.FirstSeen

/-!
# Breadth-first search

A search expands the nodes it has met in the order in which it met them.
Its order is the fixed point of that (`Order`), the only one
(`Order.unique`), and lists the reachable nodes (`Order.mem_iff`). A search
with a limit keeps the first nodes of it (`Search`), and all of them exactly
when they fit (`Search.eq_order`).
-/

namespace BreadthFirst

open FirstSeen

universe u

variable {α : Type u} (next : α → List α) (roots : List α)

inductive Reaches : α → Prop where
  | root {a : α} (h : a ∈ roots) : Reaches a
  | next {a b : α} (h : Reaches a) (hnext : b ∈ next a) : Reaches b

/-- All that is met when the nodes of a list are expanded. -/
def met (order : List α) : List α := roots ++ order.flatMap next

variable {next roots} {order other : List α}

theorem reaches_of_mem_met (h : ∀ a ∈ order, Reaches next roots a) {a : α}
    (ha : a ∈ met next roots order) : Reaches next roots a := by
  rcases List.mem_append.mp ha with hroot | hcall
  · exact .root hroot
  · obtain ⟨parent, hparent, hnext⟩ := List.mem_flatMap.mp hcall
    exact .next (h parent hparent) hnext

/-- Nodes that hold the roots and are closed under `next` are all. -/
theorem Reaches.mem_of_closed {nodes : List α} (h : ∀ a ∈ met next roots nodes, a ∈ nodes) {a : α}
    (ha : Reaches next roots a) : a ∈ nodes := by
  induction ha with
  | root hroot => exact h _ (List.mem_append_left _ hroot)
  | next _ hnext ih => exact h _ (List.mem_append_right _ (List.mem_flatMap.mpr ⟨_, ih, hnext⟩))

variable [BEq α]

/-- The nodes a search without a limit keeps. -/
structure Order (next : α → List α) (roots order : List α) : Prop where
  eq : order = (met next roots order).eraseDups
  reached : ∀ a ∈ order, Reaches next roots a

/-- The nodes a search keeps that has room for `cap`. -/
structure Search (next : α → List α) (roots : List α) (cap : Nat) (order : List α) : Prop where
  eq : order = (met next roots order).eraseDups.take cap
  reached : ∀ a ∈ order, Reaches next roots a

variable [LawfulBEq α] {cap : Nat}

namespace Order

theorem nodup (h : Order next roots order) : order.Nodup := by
  rw [h.eq]
  exact nodup_eraseDups _

theorem mem_iff (h : Order next roots order) (a : α) : a ∈ order ↔ Reaches next roots a := by
  refine ⟨h.reached a, fun ha => ha.mem_of_closed fun b hb => ?_⟩
  rw [h.eq]
  exact List.mem_eraseDups.mpr hb

/-- What the first nodes lead to comes first. -/
theorem eraseDups_met_prefix (h : Order next roots order) {first : List α}
    (hfirst : first <+: order) : (met next roots first).eraseDups <+: order := by
  obtain ⟨rest, rfl⟩ := hfirst
  have hmet : met next roots (first ++ rest) = met next roots first ++ rest.flatMap next := by
    simp [met]
  have hprefix := eraseDups_append_extends (met next roots first) (rest.flatMap next)
  rw [← hmet, ← h.eq] at hprefix
  exact hprefix

/-- A prefix that leads to nothing else is the whole. -/
theorem eq_of_closed (h : Order next roots order) {first : List α} (hfirst : first <+: order)
    (hclosed : ∀ a ∈ met next roots first, a ∈ first) : order = first := by
  obtain ⟨rest, rfl⟩ := hfirst
  cases rest with
  | nil => rw [List.append_nil]
  | cons a rest =>
    have hmem : a ∈ first := (h.reached a (by simp)).mem_of_closed hclosed
    have hnodup := h.nodup
    rw [List.nodup_append] at hnodup
    exact absurd rfl (hnodup.2.2 a hmem a List.mem_cons_self)

/-- What the first `n` nodes lead to tells the next one, if there is one. -/
theorem take_succ (h : Order next roots order) {n : Nat}
    (hlength : n < (met next roots (order.take n)).eraseDups.length) :
    order.take (n + 1) = (met next roots (order.take n)).eraseDups.take (n + 1) := by
  obtain ⟨rest, hrest⟩ := h.eraseDups_met_prefix (List.take_prefix n order)
  conv_lhs => rw [← hrest]
  exact List.take_append_of_le_length hlength

theorem eq_take (h : Order next roots order) {n : Nat}
    (hlength : (met next roots (order.take n)).eraseDups.length ≤ n) : order = order.take n := by
  have hfirst := List.take_prefix n order
  refine h.eq_of_closed hfirst fun a ha => ?_
  have hprefix := List.prefix_take_iff.mpr ⟨h.eraseDups_met_prefix hfirst, hlength⟩
  exact hprefix.subset (List.mem_eraseDups.mpr ha)

/-- Two orders share their first nodes, as many as there are. -/
theorem take_eq (h : Order next roots order) (h' : Order next roots other) (n : Nat) :
    order.take n = other.take n := by
  induction n with
  | zero => rfl
  | succ n ih =>
    by_cases hlength : n < (met next roots (order.take n)).eraseDups.length
    · rw [h.take_succ hlength, h'.take_succ (ih ▸ hlength), ih]
    · have hlength' := Nat.not_lt.mp hlength
      have heq : order = other := by
        rw [h.eq_take hlength', h'.eq_take (ih ▸ hlength'), ih]
      rw [heq]

theorem unique (h : Order next roots order) (h' : Order next roots other) : order = other := by
  have htake := h.take_eq h' (max order.length other.length)
  rwa [List.take_of_length_le (Nat.le_max_left ..), List.take_of_length_le (Nat.le_max_right ..)]
    at htake

end Order

namespace Search

theorem nodup (h : Search next roots cap order) : order.Nodup := by
  rw [h.eq]
  exact (nodup_eraseDups _).sublist (List.take_sublist _ _)

omit [LawfulBEq α] in
/-- With room for all that is met nothing is lost. -/
theorem toOrder (h : Search next roots cap order)
    (hroom : (met next roots order).eraseDups.length ≤ cap) : Order next roots order where
  eq := by
    conv_lhs => rw [h.eq]
    exact List.take_of_length_le hroom
  reached := h.reached

/-- A search that reaches all has the order of one without a limit. -/
theorem toOrder_of_complete (h : Search next roots cap order)
    (hall : ∀ a, Reaches next roots a → a ∈ order) : Order next roots order where
  eq := by
    have hprefix : order <+: (met next roots order).eraseDups := by
      conv_lhs => rw [h.eq]
      exact List.take_prefix _ _
    have hsubset : (met next roots order).eraseDups ⊆ order := fun a ha =>
      hall a (reaches_of_mem_met h.reached (List.mem_eraseDups.mp ha))
    exact hprefix.eq_of_length_le
      (List.subperm_of_subset (nodup_eraseDups _) hsubset).length_le
  reached := h.reached

/-- All the nodes are kept when they fit. -/
theorem eq_order (h : Search next roots cap order) (hother : Order next roots other)
    (hroom : other.length ≤ cap) : order = other := by
  refine (h.toOrder ?_).unique hother
  have hsubset : (met next roots order).eraseDups ⊆ other := fun a ha =>
    (hother.mem_iff a).mpr (reaches_of_mem_met h.reached (List.mem_eraseDups.mp ha))
  exact Nat.le_trans (List.subperm_of_subset (nodup_eraseDups _) hsubset).length_le hroom

end Search

end BreadthFirst
