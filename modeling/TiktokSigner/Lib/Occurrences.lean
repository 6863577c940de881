import Mathlib.Data.List.Basic

/-!
# Occurrences of keys

Records whose keys may be repeated, seen as the values that each key occurs
with (`valuesOf`). Together with the sequence of the keys these are the
list (`eq_of_valuesOf`).
-/

namespace Occurrences

universe u v w

variable {α : Type u} {κ : Type v} {ν : Type w} [DecidableEq κ] (key : α → κ) (value : α → ν)

/-- The values that a key occurs with, in order. -/
def valuesOf (k : κ) (l : List α) : List ν := (l.filter fun a => key a = k).map value

variable {key} {value} {l l' : List α}

theorem valuesOf_cons_self (a : α) (l : List α) :
    valuesOf key value (key a) (a :: l) = value a :: valuesOf key value (key a) l := by
  simp [valuesOf]

theorem valuesOf_cons_of_ne {k : κ} {a : α} (h : key a ≠ k) (l : List α) :
    valuesOf key value k (a :: l) = valuesOf key value k l := by
  simp [valuesOf, h]

theorem valuesOf_concat_self (l : List α) (a : α) :
    valuesOf key value (key a) (l ++ [a]) = valuesOf key value (key a) l ++ [value a] := by
  simp [valuesOf]

theorem valuesOf_concat_of_ne {k : κ} {a : α} (h : key a ≠ k) (l : List α) :
    valuesOf key value k (l ++ [a]) = valuesOf key value k l := by
  simp [valuesOf, h]

theorem length_valuesOf (k : κ) (l : List α) :
    (valuesOf key value k l).length = (l.map key).count k := by
  induction l with
  | nil => rfl
  | cons a l ih =>
    by_cases ha : key a = k
    · subst ha
      rw [valuesOf_cons_self, List.length_cons, ih, List.map_cons, List.count_cons_self]
    · rw [valuesOf_cons_of_ne ha, ih, List.map_cons, List.count_cons_of_ne ha]

/-- The induction is on both lists, which have their keys in step. -/
theorem eq_of_valuesOf (hpair : ∀ a b, key a = key b → value a = value b → a = b) :
    ∀ {l l' : List α}, l.map key = l'.map key →
      (∀ k, valuesOf key value k l = valuesOf key value k l') → l = l'
  | [], [], _, _ => rfl
  | [], _ :: _, hkeys, _ => by cases hkeys
  | _ :: _, [], hkeys, _ => by cases hkeys
  | a :: l, b :: l', hkeys, hvalues => by
      obtain ⟨hkey, hrest⟩ := List.cons.inj hkeys
      have hhead := hvalues (key a)
      rw [valuesOf_cons_self, hkey, valuesOf_cons_self] at hhead
      obtain ⟨hvalue, hsame⟩ := List.cons.inj hhead
      rw [hpair a b hkey hvalue, eq_of_valuesOf hpair hrest fun k => ?_]
      by_cases hk : key b = k
      · subst hk
        exact hsame
      · have hothers := hvalues k
        rwa [valuesOf_cons_of_ne (hkey ▸ hk), valuesOf_cons_of_ne hk] at hothers

/-- A loop that pushes copies for each of its keys. -/
theorem count_flatMap_replicate {β : Type u} [DecidableEq β] {f : κ → β}
    (hf : Function.Injective f) {keys : List κ} (hkeys : keys.Nodup) (n : κ → Nat) (k : κ) :
    (keys.flatMap fun k => List.replicate (n k) (f k)).count (f k)
      = if k ∈ keys then n k else 0 := by
  induction keys with
  | nil => rfl
  | cons first keys ih =>
    obtain ⟨hnot, hrest⟩ := List.nodup_cons.mp hkeys
    rw [List.flatMap_cons, List.count_append, ih hrest, List.count_replicate]
    by_cases hk : first = k
    · subst hk
      simp [hnot]
    · simp [hf.eq_iff, hk, Ne.symm hk]

end Occurrences
