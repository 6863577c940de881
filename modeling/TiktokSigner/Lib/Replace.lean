import Mathlib.Data.List.Basic
import Mathlib.Data.List.Infix
import Mathlib.Data.List.Count

/-!
# Replacing a pattern

The places of a pattern from the left, without overlaps, each replaced by a
text, as the string functions of most languages do. `replace_rec` is induction
along the places.
-/

namespace TiktokSigner.Text

variable {α : Type} [DecidableEq α] {pat new : List α}

/-- The first argument counts what is left of a place already replaced. -/
def replaceFrom (pat new : List α) : ℕ → List α → List α
  | _, [] => []
  | skip + 1, _ :: text => replaceFrom pat new skip text
  | 0, a :: text =>
      if pat.isPrefixOf (a :: text) then new ++ replaceFrom pat new (pat.length - 1) text
      else a :: replaceFrom pat new 0 text

def replace (pat new text : List α) : List α := replaceFrom pat new 0 text

theorem replaceFrom_eq (skip : ℕ) (text : List α) :
    replaceFrom pat new skip text = replace pat new (text.drop skip) := by
  induction text generalizing skip with
  | nil =>
    rw [List.drop_nil, replace]
    cases skip <;> rfl
  | cons a text ih =>
    cases skip with
    | zero => rfl
    | succ skip => exact ih skip

@[simp] theorem replace_nil : replace pat new [] = [] := rfl

theorem replace_append (hne : pat ≠ []) (rest : List α) :
    replace pat new (pat ++ rest) = new ++ replace pat new rest := by
  obtain ⟨a, tail, rfl⟩ := List.exists_cons_of_ne_nil hne
  have hstart : (a :: tail).isPrefixOf (a :: (tail ++ rest)) = true :=
    List.isPrefixOf_iff_prefix.mpr (List.prefix_append (a :: tail) rest)
  rw [List.cons_append, replace, replaceFrom, if_pos hstart, replaceFrom_eq,
    List.length_cons, Nat.add_sub_cancel, List.drop_left]

theorem replace_cons {a : α} {text : List α} (h : ¬pat <+: a :: text) :
    replace pat new (a :: text) = a :: replace pat new text :=
  if_neg fun hstart => h (List.isPrefixOf_iff_prefix.mp hstart)

/-- Induction along the places of a pattern. -/
theorem replace_rec {motive : List α → Prop} (hne : pat ≠ []) (nil : motive [])
    (hit : ∀ rest, motive rest → motive (pat ++ rest))
    (miss : ∀ a text, ¬pat <+: a :: text → motive text → motive (a :: text)) :
    ∀ text, motive text
  | [] => nil
  | a :: text => by
      by_cases h : pat <+: a :: text
      · obtain ⟨rest, hrest⟩ := h
        have hlt : rest.length < (a :: text).length := by
          have hpos := List.length_pos_iff.mpr hne
          rw [← hrest, List.length_append]
          omega
        rw [← hrest]
        exact hit rest (replace_rec hne nil hit miss rest)
      · exact miss a text h (replace_rec hne nil hit miss text)
termination_by text => text.length
decreasing_by
  · exact hlt
  · exact Nat.lt_succ_self _

theorem replace_eq_self {text : List α} (h : ¬pat <:+: text) : replace pat new text = text := by
  induction text with
  | nil => rfl
  | cons a text ih =>
    rw [replace_cons fun hstart => h hstart.isInfix,
      ih fun hwithin => h (List.infix_cons hwithin)]

theorem mem_of_mem_replace (hne : pat ≠ []) {a : α} {text : List α}
    (h : a ∈ replace pat new text) : a ∈ text ∨ a ∈ new := by
  induction text using replace_rec hne with
  | nil => exact Or.inl h
  | hit rest ih =>
    rw [replace_append hne] at h
    rcases List.mem_append.mp h with h | h
    · exact Or.inr h
    · exact (ih h).imp_left (List.mem_append_right _)
  | miss b text hmiss ih =>
    rw [replace_cons hmiss] at h
    rcases List.mem_cons.mp h with rfl | h
    · exact Or.inl List.mem_cons_self
    · exact (ih h).imp_left (List.mem_cons_of_mem _)

section Count

variable {a : α}

theorem count_replace_le (hne : pat ≠ []) (h : new.count a ≤ pat.count a) (text : List α) :
    (replace pat new text).count a ≤ text.count a := by
  induction text using replace_rec hne with
  | nil => exact le_rfl
  | hit rest ih =>
    rw [replace_append hne, List.count_append, List.count_append]
    exact Nat.add_le_add h ih
  | miss b text hmiss ih =>
    rw [replace_cons hmiss, List.count_cons, List.count_cons]
    exact Nat.add_le_add_right ih _

/-- Where the pattern stands, less is left of what it has more of. -/
theorem count_replace_lt (hne : pat ≠ []) (h : new.count a < pat.count a) {text : List α}
    (hwithin : pat <:+: text) : (replace pat new text).count a < text.count a := by
  induction text using replace_rec hne with
  | nil => exact absurd (List.eq_nil_of_infix_nil hwithin) hne
  | hit rest ih =>
    rw [replace_append hne, List.count_append, List.count_append]
    exact Nat.add_lt_add_of_lt_of_le h (count_replace_le hne h.le rest)
  | miss b text hmiss ih =>
    rw [replace_cons hmiss, List.count_cons, List.count_cons]
    exact Nat.add_lt_add_right (ih ((List.infix_cons_iff.mp hwithin).resolve_left hmiss)) _

end Count

end TiktokSigner.Text
