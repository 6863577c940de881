import Mathlib.Algebra.BigOperators.Group.List.Lemmas
import Mathlib.Algebra.Ring.Nat
import Mathlib.Data.List.AList

/-!
# Tallies kept in a map

A map from keys to counts that is meant to tally a list: every key's count
is its number of occurrences, and a key that does not occur has no entry.
`add` and `remove` are the two updates, one more and one less of a key;
`total_eq_length` says that the counts add up to the length of the list.
-/

namespace Tally

variable {κ : Type*} [DecidableEq κ]

/-- The count of a key, zero without an entry. -/
def count (t : AList fun _ : κ => Nat) (k : κ) : Nat := (t.lookup k).getD 0

def total (t : AList fun _ : κ => Nat) : Nat := (t.entries.map Sigma.snd).sum

def add (t : AList fun _ : κ => Nat) (k : κ) : AList fun _ : κ => Nat := t.insert k (count t k + 1)

/-- One less of `k`; the entry goes with the last one. -/
def remove (t : AList fun _ : κ => Nat) (k : κ) : AList fun _ : κ => Nat :=
  match t.lookup k with
  | some n => if n - 1 = 0 then t.erase k else t.insert k (n - 1)
  | none => t

structure Tallies (t : AList fun _ : κ => Nat) (xs : List κ) : Prop where
  count : ∀ k, count t k = xs.count k
  occurs : ∀ k, k ∈ t → k ∈ xs

variable {t : AList fun _ : κ => Nat} {xs ys : List κ} {k : κ}

theorem tallies_empty : Tallies (∅ : AList fun _ : κ => Nat) [] where
  count := fun _ => rfl
  occurs := fun k hk => absurd hk (AList.notMem_empty k)

theorem Tallies.perm (h : Tallies t xs) (hperm : xs.Perm ys) : Tallies t ys where
  count := fun k => by rw [h.count, hperm.count_eq]
  occurs := fun k hk => hperm.mem_iff.mp (h.occurs k hk)

theorem Tallies.mem_iff (h : Tallies t xs) : k ∈ t ↔ k ∈ xs := by
  refine ⟨h.occurs k, fun hk => ?_⟩
  by_contra hnot
  have hcount := h.count k
  rw [Tally.count, AList.lookup_eq_none.mpr hnot] at hcount
  exact absurd (List.count_pos_iff.mpr hk) (by rw [← hcount]; exact Nat.lt_irrefl 0)

theorem Tallies.lookup (h : Tallies t xs) (hk : k ∈ xs) : t.lookup k = some (xs.count k) := by
  obtain ⟨n, hn⟩ := Option.isSome_iff_exists.mp (AList.lookup_isSome.mpr (h.mem_iff.mpr hk))
  have hcount := h.count k
  rw [Tally.count, hn] at hcount
  rw [hn, ← hcount]
  rfl

theorem count_insert (n : Nat) (j : κ) :
    count (t.insert k n) j = if j = k then n else count t j := by
  rw [count]
  split
  · subst j
    rw [AList.lookup_insert]
    rfl
  · rename_i hne
    rw [AList.lookup_insert_ne hne]
    rfl

theorem Tallies.add (h : Tallies t xs) (k : κ) : Tallies (add t k) (k :: xs) where
  count := fun j => by
    rw [Tally.add, count_insert, List.count_cons, h.count]
    by_cases hj : j = k
    · simp [hj]
    · simp [hj, Ne.symm hj, h.count]
  occurs := fun j hj => by
    rw [Tally.add, AList.mem_insert] at hj
    rcases hj with rfl | hj
    · exact List.mem_cons_self
    · exact List.mem_cons_of_mem k (h.occurs j hj)

theorem Tallies.remove (h : Tallies t (k :: xs)) : Tallies (remove t k) xs := by
  have hlookup := h.lookup List.mem_cons_self
  rw [List.count_cons_self] at hlookup
  have hother : ∀ j, j ≠ k → xs.count j = Tally.count t j := by
    intro j hj
    rw [h.count, List.count_cons_of_ne (Ne.symm hj)]
  rw [Tally.remove, hlookup]
  dsimp only
  rw [Nat.add_sub_cancel]
  split
  case isTrue hzero =>
    constructor
    · intro j
      by_cases hj : j = k
      · subst hj
        rw [Tally.count, AList.lookup_erase, hzero]
        rfl
      · rw [hother j hj, Tally.count, AList.lookup_erase_ne hj]
        rfl
    · intro j hj
      obtain ⟨hne, hmem⟩ := AList.mem_erase.mp hj
      exact (List.mem_cons.mp (h.occurs j hmem)).resolve_left hne
  case isFalse hpos =>
    constructor
    · intro j
      rw [count_insert]
      split
      case isTrue hj => rw [hj]
      case isFalse hj => exact (hother j hj).symm
    · intro j hj
      rcases (AList.mem_insert _).mp hj with rfl | hmem
      · exact List.count_pos_iff.mp (Nat.pos_of_ne_zero hpos)
      · rcases List.mem_cons.mp (h.occurs j hmem) with rfl | hxs
        · exact List.count_pos_iff.mp (Nat.pos_of_ne_zero hpos)
        · exact hxs

/-- The counts add up to the number of entries of the list. -/
theorem Tallies.total_eq_length (h : Tallies t xs) : total t = xs.length := by
  have hvalues : t.entries.map Sigma.snd = t.keys.map fun k => xs.count k := by
    rw [AList.keys, List.keys, List.map_map]
    refine List.map_congr_left fun entry hentry => ?_
    have hlookup : t.lookup entry.1 = some entry.2 := AList.mem_lookup_iff.mpr hentry
    have hcount := h.count entry.1
    rw [Tally.count, hlookup] at hcount
    exact hcount
  have hkeys : t.keys.Perm xs.dedup := by
    rw [List.perm_ext_iff_of_nodup t.keys_nodup (List.nodup_dedup xs)]
    intro k
    rw [← AList.mem_keys, h.mem_iff, List.mem_dedup]
  rw [total, hvalues, (hkeys.map _).sum_eq, List.sum_map_count_dedup_eq_length]

end Tally
