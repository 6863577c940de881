import Mathlib.Data.List.Sort

/-!
# Lists with a key

Records kept in the strict order of a key, as a vector filled from an
ordered map. Two such lists have equal projections exactly when they have
the same keys and, key for key, the records a search finds have the same
projection (`map_eq_iff`), as long as the projection keeps the key.
-/

namespace Keyed

universe u v w

variable {α : Type u} {κ : Type v} {β : Type w} {key : α → κ} {r : κ → κ → Prop}
  {l l' : List α}

/-- The keys are in the strict order `r`, so each occurs once. -/
def Ordered (key : α → κ) (r : κ → κ → Prop) (l : List α) : Prop := (l.map key).Pairwise r

theorem Ordered.keys_eq [Std.Irrefl r] [Std.Antisymm r] (h : Ordered key r l)
    (h' : Ordered key r l') (hmem : ∀ k, k ∈ l.map key ↔ k ∈ l'.map key) :
    l.map key = l'.map key :=
  List.Pairwise.eq_of_mem_iff h h' hmem

theorem Ordered.nodup [Std.Irrefl r] (h : Ordered key r l) : (l.map key).Nodup :=
  List.Pairwise.nodup h

section Search

variable [DecidableEq κ]

/-- The record with the key `k`. -/
def find (key : α → κ) (k : κ) (l : List α) : Option α := l.find? fun a => decide (key a = k)

theorem find_cons_self (a : α) (l : List α) : find key (key a) (a :: l) = some a := by
  simp [find]

theorem find_cons_of_ne {k : κ} {a : α} (h : key a ≠ k) :
    find key k (a :: l) = find key k l := by
  simp [find, h]

theorem find_isSome {k : κ} : (find key k l).isSome ↔ k ∈ l.map key := by
  simp [find]

theorem key_of_find {k : κ} {a : α} (h : find key k l = some a) : key a = k := by
  simpa using List.find?_some h

/-- A projection of the record is that of the same key in the projected list. -/
theorem find_map {keyOf : β → κ} {p : α → β} (hkey : ∀ a, keyOf (p a) = key a) (k : κ) :
    find keyOf k (l.map p) = (find key k l).map p := by
  simp only [find, List.find?_map, Function.comp_def, hkey]

/-- Records agree with the records of the same key. -/
def Agree (key : α → κ) (p : α → β) (l l' : List α) : Prop :=
  ∀ k a a', find key k l = some a → find key k l' = some a' → p a = p a'

/-- The induction is on both lists, which have their keys in step. -/
theorem map_eq_of_agree {p : α → β} : ∀ {l l' : List α}, l.map key = l'.map key →
    (l.map key).Nodup → Agree key p l l' → l.map p = l'.map p
  | [], [], _, _, _ => rfl
  | [], _ :: _, hkeys, _, _ => by simp at hkeys
  | _ :: _, [], hkeys, _, _ => by simp at hkeys
  | a :: l, a' :: l', hkeys, hnodup, hagree => by
      simp only [List.map_cons, List.cons.injEq] at hkeys
      rw [List.map_cons, List.nodup_cons] at hnodup
      have hhead : p a = p a' :=
        hagree (key a) a a' (find_cons_self a l) (hkeys.1 ▸ find_cons_self a' l')
      have htail : Agree key p l l' := by
        intro k b b' hb hb'
        have hmem : k ∈ l.map key := find_isSome.mp (by rw [hb]; rfl)
        have hne : key a ≠ k := fun heq => hnodup.1 (heq ▸ hmem)
        refine hagree k b b' ?_ ?_
        · rw [find_cons_of_ne hne, hb]
        · rw [find_cons_of_ne (hkeys.1 ▸ hne), hb']
      rw [List.map_cons, List.map_cons, hhead, map_eq_of_agree hkeys.2 hnodup.2 htail]

/-- Equality of the projections, as a comparison by keys finds it. -/
theorem map_eq_iff [Std.Irrefl r] [Std.Antisymm r] {keyOf : β → κ} {p : α → β}
    (hkey : ∀ a, keyOf (p a) = key a) (h : Ordered key r l) (h' : Ordered key r l') :
    l.map p = l'.map p ↔ (∀ k, k ∈ l.map key ↔ k ∈ l'.map key) ∧ Agree key p l l' := by
  constructor
  · intro heq
    have hkeys : ∀ l : List α, l.map key = (l.map p).map keyOf := fun l => by
      simp only [List.map_map, Function.comp_def, hkey]
    refine ⟨fun k => by rw [hkeys l, hkeys l', heq], fun k a a' ha ha' => ?_⟩
    have hfound : (find key k l).map p = (find key k l').map p := by
      rw [← find_map hkey, ← find_map hkey, heq]
    rw [ha, ha'] at hfound
    exact Option.some.inj hfound
  · rintro ⟨hmem, hagree⟩
    exact map_eq_of_agree (h.keys_eq h' hmem) h.nodup hagree

end Search

end Keyed
