import Mathlib.Data.List.Basic
import Mathlib.Data.List.Perm.Basic

/-!
# Counting workers by phase

Workers in a list, each at some phase; a step moves one of them. The
number of workers with a property changes by that worker alone. A worker
that joins takes the last place.
-/

namespace Crowd

variable {α : Type*} {l : List α} {i : Nat} {a : α}

theorem countP_set_add (h : l[i]? = some a) (b : α) (p : α → Bool) :
    (l.set i b).countP p + (p a).toNat = l.countP p + (p b).toNat := by
  induction l generalizing i with
  | nil => cases h
  | cons x l ih =>
    cases i with
    | zero =>
      obtain rfl := Option.some.inj h
      rw [List.set_cons_zero, List.countP_cons, List.countP_cons]
      cases p x <;> cases p b <;> simp
    | succ i =>
      have hrest := ih h
      rw [List.set_cons_succ, List.countP_cons, List.countP_cons]
      omega

theorem countP_concat (l : List α) (b : α) (p : α → Bool) :
    (l ++ [b]).countP p = l.countP p + (p b).toNat := by
  rw [List.countP_append, List.countP_singleton]
  cases p b <;> rfl

/-- A worker with the property is counted. -/
theorem countP_pos_of_getElem? {p : α → Bool} (h : l[i]? = some a) (hp : p a = true) :
    0 < l.countP p :=
  List.countP_pos_iff.mpr ⟨a, List.mem_of_getElem? h, hp⟩

/-- One worker leaves. -/
theorem cons_eraseIdx_perm (h : l[i]? = some a) : List.Perm (a :: l.eraseIdx i) l := by
  obtain ⟨hlt, rfl⟩ := List.getElem?_eq_some_iff.mp h
  exact List.getElem_cons_eraseIdx_perm hlt

/-- One worker moves. -/
theorem cons_eraseIdx_perm_set (h : l[i]? = some a) (b : α) :
    List.Perm (b :: l.eraseIdx i) (l.set i b) :=
  (List.set_perm_cons_eraseIdx (List.getElem?_eq_some_iff.mp h).1 b).symm

/-- Two workers with the property are counted twice. -/
theorem two_le_countP {p : α → Bool} {j : Nat} {b : α} (hij : i ≠ j) (h : l[i]? = some a)
    (h' : l[j]? = some b) (hp : p a = true) (hp' : p b = true) : 2 ≤ l.countP p := by
  have hmem : b ∈ l.eraseIdx i := List.mem_eraseIdx_iff_getElem?.mpr ⟨j, hij.symm, h'⟩
  have hpos : 0 < (l.eraseIdx i).countP p := List.countP_pos_iff.mpr ⟨b, hmem, hp'⟩
  rw [← (cons_eraseIdx_perm h).countP_eq p, List.countP_cons_of_pos hp]
  omega

/-- A property that only one worker can have. -/
theorem countP_le_one {p : α → Bool}
    (h : ∀ (i j : Nat) (a b : α), l[i]? = some a → l[j]? = some b → p a = true → p b = true →
      i = j) :
    l.countP p ≤ 1 := by
  by_contra hcount
  have hpos : 0 < l.countP p := by omega
  obtain ⟨a, hmem, ha⟩ := List.countP_pos_iff.mp hpos
  obtain ⟨i, hi⟩ := List.getElem?_of_mem hmem
  have hrest : 0 < (l.eraseIdx i).countP p := by
    rw [← (cons_eraseIdx_perm hi).countP_eq p, List.countP_cons_of_pos ha] at hcount
    omega
  obtain ⟨b, hmem', hb⟩ := List.countP_pos_iff.mp hrest
  obtain ⟨j, hj, hget⟩ := List.mem_eraseIdx_iff_getElem?.mp hmem'
  exact hj (h j i b a hget hi hb ha)

theorem getElem?_concat (l : List α) (b : α) (i : Nat) :
    (l ++ [b])[i]? = if i = l.length then some b else l[i]? := by
  rcases Nat.lt_trichotomy i l.length with hlt | rfl | hgt
  · rw [List.getElem?_append_left hlt, if_neg (Nat.ne_of_lt hlt)]
  · rw [List.getElem?_concat_length, if_pos rfl]
  · rw [if_neg (Nat.ne_of_gt hgt), List.getElem?_eq_none (Nat.le_of_lt hgt), List.getElem?_eq_none]
    rw [List.length_append, List.length_singleton]
    exact hgt

theorem getElem?_concat_of_some (h : l[i]? = some a) (b : α) : (l ++ [b])[i]? = some a := by
  obtain ⟨hlt, -⟩ := List.getElem?_eq_some_iff.mp h
  rw [getElem?_concat, if_neg (Nat.ne_of_lt hlt), h]

/-- A worker of the longer list is an old one or the new one. -/
theorem getElem?_concat_cases {b : α} (h : (l ++ [b])[i]? = some a) :
    l[i]? = some a ∨ i = l.length ∧ b = a := by
  rw [getElem?_concat] at h
  split_ifs at h with heq
  · exact Or.inr ⟨heq, Option.some.inj h⟩
  · exact Or.inl h

end Crowd
