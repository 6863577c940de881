import Mathlib

/-!
# Ranked selections

What a list of items is turned into by one who picks something from some
of them and puts what was picked in descending order, ties as they came.
`Ranked` says what the order is, `rank` sorts. Two selections that are
ranked alike are the same for every item as soon as one of them never picks
more from an item than the other (`eq_of_perm_filterMap`).
-/

namespace TiktokSigner.Ranking

variable {α β κ : Type} [LinearOrder κ] {key : α → κ} {selected ranked : List α}

/-! ## The order -/

/-- Highest first, and among equals what came first. -/
structure Ranked (key : α → κ) (selected ranked : List α) : Prop where
  descending : ranked.Pairwise fun a b => key b ≤ key a
  ties : ∀ k, ranked.filter (fun a => key a = k) = selected.filter (fun a => key a = k)

theorem Ranked.perm (h : Ranked key selected ranked) : ranked.Perm selected := by
  classical
  rw [List.perm_iff_count]
  intro a
  have hcount : ∀ l : List α, (l.filter fun b => key b = key a).count a = l.count a :=
    fun l => List.count_filter (decide_eq_true rfl)
  calc ranked.count a = (ranked.filter fun b => key b = key a).count a := (hcount ranked).symm
    _ = (selected.filter fun b => key b = key a).count a := by rw [h.ties]
    _ = selected.count a := hcount selected

/-- A stable sort by a descending key. -/
def rank (key : α → κ) (selected : List α) : List α :=
  selected.mergeSort fun a b => decide (key b ≤ key a)

theorem rank_perm (key : α → κ) (selected : List α) : (rank key selected).Perm selected :=
  List.mergeSort_perm selected _

theorem map_rank {κ' : Type} [LinearOrder κ'] {key' : β → κ'} {f : α → β}
    (hkey : ∀ a b, key' (f b) ≤ key' (f a) ↔ key b ≤ key a) :
    (rank key selected).map f = rank key' (selected.map f) :=
  List.map_mergeSort fun a _ b _ => by rw [decide_eq_decide, hkey]

theorem rank_ranked (key : α → κ) (selected : List α) :
    Ranked key selected (rank key selected) := by
  have htrans : ∀ a b c : α, decide (key b ≤ key a) = true → decide (key c ≤ key b) = true →
      decide (key c ≤ key a) = true := by
    intro a b c hab hbc
    rw [decide_eq_true_eq] at hab hbc ⊢
    exact hbc.trans hab
  have htotal : ∀ a b : α, (decide (key b ≤ key a) || decide (key a ≤ key b)) = true := by
    intro a b
    rw [Bool.or_eq_true, decide_eq_true_eq, decide_eq_true_eq]
    exact le_total (key b) (key a)
  refine ⟨(List.pairwise_mergeSort htrans htotal selected).imp of_decide_eq_true, ?_⟩
  intro k
  -- the equals are a sorted sublist, which a stable sort leaves in order
  have hequal : (selected.filter fun a => key a = k).Pairwise
      fun a b => decide (key b ≤ key a) = true := by
    rw [List.pairwise_filter]
    apply List.pairwise_of_forall
    intro a b ha hb
    rw [decide_eq_true_eq] at ha hb ⊢
    exact (hb.trans ha.symm).le
  have hsub := (List.sublist_mergeSort htrans htotal hequal List.filter_sublist).filter
    (fun a => decide (key a = k))
  rw [List.filter_filter] at hsub
  simp only [Bool.and_self] at hsub
  exact (hsub.eq_of_length
    ((rank_perm key selected).filter _).length_eq.symm).symm

/-! ## Selections compared -/

/-- What a pick weighs; no pick weighs nothing. -/
def size (weight : β → Nat) (pick : Option β) : Nat := pick.elim 0 fun b => weight b + 1

/-- A pick that never weighs more than another, and is it where it weighs
as much. -/
structure Within (weight : β → Nat) (pick other : Option β) : Prop where
  le : size weight pick ≤ size weight other
  eq_of_size : size weight pick = size weight other → pick = other

section

variable {weight : β → Nat}

theorem Within.refl (pick : Option β) : Within weight pick pick := ⟨le_rfl, fun _ => rfl⟩

theorem Within.none (other : Option β) : Within weight Option.none other where
  le := Nat.zero_le _
  eq_of_size h := by
    cases other with
    | none => rfl
    | some b => exact absurd h.symm (Nat.succ_ne_zero _)

theorem Within.some {b c : β} (hle : weight b ≤ weight c) (heq : weight b = weight c → b = c) :
    Within weight (Option.some b) (Option.some c) where
  le := Nat.succ_le_succ hle
  eq_of_size h := congrArg Option.some (heq (Nat.succ_inj.mp h))

theorem Within.eq_none {pick : Option β} (h : Within weight pick Option.none) :
    pick = Option.none :=
  h.eq_of_size (Nat.le_zero.mp h.le)

theorem Within.filter (pick : Option β) (keep : β → Bool) :
    Within weight (pick.filter keep) pick := by
  cases pick with
  | none => exact Within.refl _
  | some b =>
    rw [Option.filter_some]
    split_ifs
    · exact Within.refl _
    · exact Within.none _

theorem sum_filterMap (f : α → Option β) (items : List α) :
    ((items.filterMap f).map fun b => weight b + 1).sum =
      (items.map fun item => size weight (f item)).sum := by
  induction items with
  | nil => rfl
  | cons item items ih =>
    rw [List.map_cons, List.sum_cons, ← ih, List.filterMap_cons]
    cases f item with
    | none => exact (Nat.zero_add _).symm
    | some b => rfl

theorem eq_of_sum_eq {f g : α → Option β} {items : List α}
    (hwithin : ∀ item ∈ items, Within weight (f item) (g item))
    (hsum : (items.map fun item => size weight (f item)).sum =
      (items.map fun item => size weight (g item)).sum) :
    ∀ item ∈ items, f item = g item := by
  induction items with
  | nil => exact fun _ h => absurd h List.not_mem_nil
  | cons item items ih =>
    have hrest : ∀ other ∈ items, Within weight (f other) (g other) :=
      fun other hmem => hwithin other (List.mem_cons_of_mem _ hmem)
    have hle : (items.map fun item => size weight (f item)).sum ≤
        (items.map fun item => size weight (g item)).sum :=
      List.sum_le_sum fun other hmem => (hrest other hmem).le
    have hhead := hwithin item List.mem_cons_self
    have hheadle := hhead.le
    rw [List.map_cons, List.sum_cons, List.map_cons, List.sum_cons] at hsum
    intro other hmem
    rcases List.mem_cons.mp hmem with rfl | hmem
    · exact hhead.eq_of_size (by omega)
    · exact ih hrest (by omega) other hmem

theorem eq_of_perm_filterMap {f g : α → Option β} {items : List α}
    (hwithin : ∀ item ∈ items, Within weight (f item) (g item))
    (hperm : (items.filterMap f).Perm (items.filterMap g)) : ∀ item ∈ items, f item = g item := by
  refine eq_of_sum_eq hwithin ?_
  rw [← sum_filterMap f, ← sum_filterMap g]
  exact (hperm.map _).sum_eq

end

end TiktokSigner.Ranking
