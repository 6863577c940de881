import Mathlib.Algebra.BigOperators.Group.List.Basic
import Mathlib.Algebra.Group.Defs
import Mathlib.Data.List.Nodup

/-!
# Tables with a primary key

Rows under a key that occurs once, and the statements that change them:
`INSERT OR REPLACE`, `UPDATE .. WHERE` and `DELETE .. WHERE`, with
conditions on the key. `total` adds up what the rows measure, and each
statement has an equation for what is found afterwards and for the total.
-/

structure KeyedTable (κ β : Type*) where
  rows : List (κ × β)
  nodup : (rows.map Prod.fst).Nodup

namespace KeyedTable

variable {κ β : Type*} [DecidableEq κ]

def empty : KeyedTable κ β := ⟨[], List.nodup_nil⟩

/-- `SELECT`, by the key. -/
def find (t : KeyedTable κ β) (k : κ) : Option β := t.rows.lookup k

/-- `INSERT OR REPLACE`: the row with the key goes, the new one comes. -/
def upsert (t : KeyedTable κ β) (k : κ) (b : β) : KeyedTable κ β where
  rows := (k, b) :: t.rows.filter fun row => row.1 ≠ k
  nodup := by
    rw [List.map_cons, List.nodup_cons]
    refine ⟨fun hmem => ?_, t.nodup.sublist (List.filter_sublist.map _)⟩
    obtain ⟨row, hrow, hkey⟩ := List.mem_map.mp hmem
    exact of_decide_eq_true (List.mem_filter.mp hrow).2 hkey

/-- `UPDATE .. WHERE`. -/
def update (t : KeyedTable κ β) (p : κ → Bool) (f : β → β) : KeyedTable κ β where
  rows := t.rows.map fun row => (row.1, if p row.1 then f row.2 else row.2)
  nodup := by
    rw [List.map_map]
    exact t.nodup

/-- `DELETE .. WHERE`. -/
def delete (t : KeyedTable κ β) (p : κ → Bool) : KeyedTable κ β where
  rows := t.rows.filter fun row => !p row.1
  nodup := t.nodup.sublist (List.filter_sublist.map _)

/-! ## What is found -/

section Find

variable (t : KeyedTable κ β) (k : κ) (b : β)

@[simp] theorem find_empty : (empty : KeyedTable κ β).find k = none := rfl

theorem lookup_filter (p : κ → Bool) (rows : List (κ × β)) :
    (rows.filter fun row => p row.1).lookup k = if p k then rows.lookup k else none := by
  induction rows with
  | nil => simp
  | cons row rows ih =>
    obtain ⟨key, value⟩ := row
    rw [List.filter_cons]
    by_cases hkey : k = key
    · subst hkey
      cases hp : p k with
      | true => simp
      | false =>
        rw [hp] at ih
        simpa using ih
    · have hne : (k == key) = false := beq_false_of_ne hkey
      rw [List.lookup_cons, hne, ← ih]
      cases hp : p key with
      | true => simp [List.lookup_cons, hne]
      | false => simp

@[simp] theorem find_upsert_self : (t.upsert k b).find k = some b := List.lookup_cons_self

theorem find_upsert_of_ne {k k' : κ} (h : k' ≠ k) : (t.upsert k b).find k' = t.find k' := by
  have hne : (k' == k) = false := beq_false_of_ne h
  rw [find, upsert, List.lookup_cons, hne]
  exact (lookup_filter k' (fun key => decide (key ≠ k)) t.rows).trans (if_pos (by simpa using h))

theorem lookup_map (p : κ → Bool) (f : β → β) (rows : List (κ × β)) :
    (rows.map fun row => (row.1, if p row.1 then f row.2 else row.2)).lookup k
      = if p k then (rows.lookup k).map f else rows.lookup k := by
  induction rows with
  | nil => simp
  | cons row rows ih =>
    obtain ⟨key, value⟩ := row
    rw [List.map_cons, List.lookup_cons, List.lookup_cons, ih]
    by_cases hkey : k = key
    · subst hkey
      rw [beq_self_eq_true]
      split_ifs <;> rfl
    · rw [beq_false_of_ne hkey]

theorem find_update (p : κ → Bool) (f : β → β) :
    (t.update p f).find k = if p k then (t.find k).map f else t.find k :=
  lookup_map k p f t.rows

theorem find_delete (p : κ → Bool) : (t.delete p).find k = if p k then none else t.find k := by
  rw [find, delete, lookup_filter k fun key => !p key]
  cases p k <;> rfl

end Find

/-! ## What the rows measure -/

section Total

variable {M : Type*} [AddCommGroup M] (w : κ → β → M) (t : KeyedTable κ β)

/-- What the rows measure together. -/
def total : M := (t.rows.map fun row => w row.1 row.2).sum

omit [DecidableEq κ] in
@[simp] theorem total_empty : (empty : KeyedTable κ β).total w = 0 := rfl

/-- What the row with the key measures. -/
def measure (k : κ) : M := ((t.find k).map (w k)).getD 0

theorem sum_filter_ne (k : κ) {rows : List (κ × β)} (hnodup : (rows.map Prod.fst).Nodup) :
    ((rows.filter fun row => row.1 ≠ k).map fun row => w row.1 row.2).sum
      = (rows.map fun row => w row.1 row.2).sum - ((rows.lookup k).map (w k)).getD 0 := by
  induction rows with
  | nil => simp
  | cons row rows ih =>
    obtain ⟨key, value⟩ := row
    rw [List.map_cons, List.nodup_cons] at hnodup
    rw [List.filter_cons, List.lookup_cons, List.map_cons, List.sum_cons]
    by_cases hkey : k = key
    · subst hkey
      have hrest : rows.filter (fun row => decide (row.1 ≠ k)) = rows := by
        refine List.filter_eq_self.mpr fun row hrow => decide_eq_true fun hsame => ?_
        exact hnodup.1 (List.mem_map.mpr ⟨row, hrow, hsame⟩)
      rw [if_neg (by simp), beq_self_eq_true, hrest]
      simp
    · have hne : decide (key ≠ k) = true := decide_eq_true (Ne.symm hkey)
      rw [if_pos hne, beq_false_of_ne hkey, List.map_cons, List.sum_cons, ih hnodup.2]
      exact (add_sub_assoc _ _ _).symm

/-- The new row counts and the one that it replaces no more. -/
theorem total_upsert (k : κ) (b : β) :
    (t.upsert k b).total w = t.total w - t.measure w k + w k b := by
  rw [total, upsert, List.map_cons, List.sum_cons, sum_filter_ne w k t.nodup, add_comm]
  rfl

omit [DecidableEq κ] in
theorem sum_filter (p : κ → Bool) (rows : List (κ × β)) :
    ((rows.filter fun row => !p row.1).map fun row => w row.1 row.2).sum
      = (rows.map fun row => if p row.1 then 0 else w row.1 row.2).sum := by
  induction rows with
  | nil => rfl
  | cons row rows ih =>
    rw [List.filter_cons, List.map_cons, List.sum_cons, ← ih]
    cases p row.1 <;> simp

omit [DecidableEq κ] in
theorem total_delete (p : κ → Bool) :
    (t.delete p).total w = t.total fun k b => if p k then 0 else w k b :=
  sum_filter w p t.rows

omit [DecidableEq κ] in
theorem total_eq_zero (h : ∀ k b, w k b = 0) : t.total w = 0 :=
  List.sum_eq_zero fun m hm => by
    obtain ⟨row, -, rfl⟩ := List.mem_map.mp hm
    exact h _ _

end Total

end KeyedTable
