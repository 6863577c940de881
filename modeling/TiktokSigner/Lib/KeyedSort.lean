import Mathlib.Data.List.Destutter
import TiktokSigner.Lib.Keyed

/-!
# Sorting by a key and dropping equal neighbours

A stable sort by a key leaves records of one key in the order in which they
came, and dropping equal neighbours does not bring equal records together
that others stand between. So the result depends on the order of the list,
unless records of one key are equal (`single_of_sortDedup_eq`); then it
holds each record once (`nodup_sortDedup`).
-/

namespace KeyedSort

open Keyed

universe u v

variable {α : Type u} {κ : Type v} [DecidableEq α] [LinearOrder κ] {key : α → κ} {l l' : List α}

def sortDedup (key : α → κ) (l : List α) : List α :=
  (l.insertionSort fun a b => key a ≤ key b).destutter (· ≠ ·)

/-- Records of one key are one record. -/
def Single (key : α → κ) (l : List α) : Prop := ∀ a ∈ l, ∀ b ∈ l, key a = key b → a = b

omit [DecidableEq α] [LinearOrder κ] in
theorem Single.of_perm (h : Single key l) (hperm : l.Perm l') : Single key l' :=
  fun a ha b hb => h a (hperm.mem_iff.mpr ha) b (hperm.mem_iff.mpr hb)

/-! ## What a search finds -/

omit [DecidableEq α] in
theorem find_orderedInsert (a : α) (k : κ) (l : List α) :
    find key k (l.orderedInsert (fun a b => key a ≤ key b) a) = find key k (a :: l) := by
  induction l with
  | nil => rfl
  | cons b l ih =>
    rw [List.orderedInsert_cons]
    split_ifs with hle
    · rfl
    · have hne : key b ≠ key a := ne_of_lt (not_le.mp hle)
      by_cases hb : key b = k
      · subst hb
        rw [find_cons_self, find_cons_of_ne hne.symm, find_cons_self]
      · rw [find_cons_of_ne hb, ih]
        by_cases ha : key a = k
        · subst ha
          rw [find_cons_self, find_cons_self]
        · rw [find_cons_of_ne ha, find_cons_of_ne ha, find_cons_of_ne hb]

omit [DecidableEq α] in
theorem find_insertionSort (k : κ) (l : List α) :
    find key k (l.insertionSort fun a b => key a ≤ key b) = find key k l := by
  induction l with
  | nil => rfl
  | cons a l ih =>
    rw [List.insertionSort_cons, find_orderedInsert]
    by_cases ha : key a = k
    · subst ha
      rw [find_cons_self, find_cons_self]
    · rw [find_cons_of_ne ha, find_cons_of_ne ha, ih]

theorem find_destutter' (k : κ) (a : α) (l : List α) :
    find key k (l.destutter' (· ≠ ·) a) = find key k (a :: l) := by
  induction l generalizing a with
  | nil => rfl
  | cons b l ih =>
    rw [List.destutter'_cons]
    split_ifs with hne
    · by_cases ha : key a = k
      · subst ha
        rw [find_cons_self, find_cons_self]
      · rw [find_cons_of_ne ha, find_cons_of_ne ha, ih]
    · obtain rfl := not_not.mp hne
      rw [ih]
      by_cases ha : key a = k
      · subst ha
        rw [find_cons_self, find_cons_self]
      · rw [find_cons_of_ne ha, find_cons_of_ne ha, find_cons_of_ne ha]

/-- The first record of a key stays the first. -/
theorem find_sortDedup (k : κ) (l : List α) : find key k (sortDedup key l) = find key k l := by
  rw [← find_insertionSort k l, sortDedup]
  cases l.insertionSort fun a b => key a ≤ key b with
  | nil => rfl
  | cons a l => exact find_destutter' k a l

/-! ## What is kept -/

omit [LinearOrder κ] in
theorem mem_destutter' (a b : α) (l : List α) : b ∈ l.destutter' (· ≠ ·) a ↔ b ∈ a :: l := by
  induction l generalizing a with
  | nil => rfl
  | cons c l ih =>
    rw [List.destutter'_cons]
    split_ifs with hne
    · rw [List.mem_cons, ih, List.mem_cons (a := b) (b := a)]
    · obtain rfl := not_not.mp hne
      rw [ih]
      simp

theorem mem_sortDedup {a : α} : a ∈ sortDedup key l ↔ a ∈ l := by
  have hsorted := List.mem_insertionSort (fun a b => key a ≤ key b) (l := l) (x := a)
  rw [← hsorted, sortDedup]
  cases l.insertionSort fun a b => key a ≤ key b with
  | nil => rfl
  | cons b l => exact mem_destutter' b a l

theorem pairwise_sortDedup (key : α → κ) (l : List α) :
    (sortDedup key l).Pairwise fun a b => key a ≤ key b := by
  have htotal : Std.Total fun a b : α => key a ≤ key b := ⟨fun a b => le_total _ _⟩
  have htrans : IsTrans α fun a b => key a ≤ key b := ⟨fun _ _ _ => le_trans⟩
  exact (List.pairwise_insertionSort _ l).sublist (List.destutter_sublist _ _)

theorem sortDedup_idem (key : α → κ) (l : List α) :
    sortDedup key (sortDedup key l) = sortDedup key l := by
  conv_lhs => rw [sortDedup, (pairwise_sortDedup key l).insertionSort_eq]
  exact List.destutter_idem _ _

omit [DecidableEq α] in
/-- Neighbours of one key would be equal, and are not. -/
theorem isChain_lt : ∀ {l : List α}, l.Pairwise (fun a b => key a ≤ key b) → l.IsChain (· ≠ ·) →
    Single key l → (l.map key).IsChain (· < ·)
  | [], _, _, _ => .nil
  | [_], _, _, _ => .singleton _
  | a :: b :: l, hsorted, hchain, hsingle => by
      obtain ⟨hle, hrest⟩ := List.pairwise_cons.mp hsorted
      obtain ⟨hne, htail⟩ := List.isChain_cons_cons.mp hchain
      have hlt : key a < key b := by
        refine lt_of_le_of_ne (hle b List.mem_cons_self) fun heq => hne ?_
        exact hsingle a (by simp) b (by simp) heq
      refine List.isChain_cons_cons.mpr ⟨hlt, isChain_lt hrest htail fun c hc d hd => ?_⟩
      exact hsingle c (List.mem_cons_of_mem _ hc) d (List.mem_cons_of_mem _ hd)

theorem ordered_sortDedup (h : Single key l) : Ordered key (· < ·) (sortDedup key l) := by
  have hsingle : Single key (sortDedup key l) := fun a ha b hb =>
    h a (mem_sortDedup.mp ha) b (mem_sortDedup.mp hb)
  exact (isChain_lt (pairwise_sortDedup key l) (List.isChain_destutter _ _) hsingle).pairwise

theorem nodup_sortDedup (h : Single key l) : (sortDedup key l).Nodup :=
  (ordered_sortDedup h).nodup.of_map

theorem sortDedup_eq_of_perm (h : Single key l) (hperm : l.Perm l') :
    sortDedup key l' = sortDedup key l := by
  have hmem : ∀ a, a ∈ sortDedup key l' ↔ a ∈ sortDedup key l := fun a => by
    rw [mem_sortDedup, mem_sortDedup, hperm.mem_iff]
  have hlt := List.pairwise_map.mp (ordered_sortDedup h)
  have hlt' := List.pairwise_map.mp (ordered_sortDedup (h.of_perm hperm))
  have hirrefl : Std.Irrefl fun a b : α => key a < key b := ⟨fun a => lt_irrefl _⟩
  have hantisymm : Std.Antisymm fun a b : α => key a < key b :=
    ⟨fun a b hab hba => absurd hba (lt_asymm hab)⟩
  exact List.Pairwise.eq_of_mem_iff hlt' hlt hmem

/-- The order of the list matters where two records of one key differ: either
can come first. -/
theorem single_of_sortDedup_eq (h : ∀ l', l.Perm l' → sortDedup key l' = sortDedup key l) :
    Single key l := by
  intro a ha b hb hkey
  have hfirst : ∀ c ∈ l, find key (key c) (sortDedup key l) = some c := by
    intro c hc
    rw [← h (c :: l.erase c) (List.perm_cons_erase hc), find_sortDedup, find_cons_self]
  have hsame := hfirst b hb
  rw [← hkey, hfirst a ha] at hsame
  exact Option.some.inj hsame

end KeyedSort
