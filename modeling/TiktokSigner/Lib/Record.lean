import Mathlib.Data.List.Basic

/-!
# Insertion-ordered records

A record is the list of its fields in the order in which their keys were
first written; writing a key again keeps its place. `spread` writes all
fields of one record over another, as object literals do in JavaScript.

Records whose fields all come from one function `val` are given by their
keys alone (`ofKeys`). Writing, spreading and dropping fields by value then
happen on the key lists, and dropping commutes with spreading.
-/

namespace Record

variable {κ ν : Type*} [DecidableEq κ]

/-- Write a field: in its place if the key is there, at the end otherwise. -/
def set : List (κ × ν) → κ → ν → List (κ × ν)
  | [], k, v => [(k, v)]
  | (k', v') :: r, k, v => if k' = k then (k, v) :: r else (k', v') :: set r k v

/-- Write all fields of `added`, in their order. -/
def spread (base added : List (κ × ν)) : List (κ × ν) :=
  added.foldl (fun r field => set r field.1 field.2) base

def get? (r : List (κ × ν)) (k : κ) : Option ν := (r.find? fun field => field.1 = k).map (·.2)

def without (r : List (κ × ν)) (k : κ) : List (κ × ν) := r.filter fun field => field.1 ≠ k

/-- The record of these keys with the values of `val`. -/
def ofKeys (val : κ → ν) (keys : List κ) : List (κ × ν) := keys.map fun k => (k, val k)

def addKey (keys : List κ) (k : κ) : List κ := if k ∈ keys then keys else keys ++ [k]

def joinKeys (keys more : List κ) : List κ := more.foldl addKey keys

@[simp] theorem spread_nil (base : List (κ × ν)) : spread base [] = base := rfl

variable {val : κ → ν}

theorem set_ofKeys (keys : List κ) (k : κ) :
    set (ofKeys val keys) k (val k) = ofKeys val (addKey keys k) := by
  induction keys with
  | nil => rfl
  | cons k' keys ih =>
    rw [ofKeys, List.map_cons, set]
    by_cases heq : k' = k
    · subst heq
      rw [if_pos rfl, addKey, if_pos List.mem_cons_self, ofKeys, List.map_cons]
    · rw [if_neg heq]
      change (k', val k') :: set (ofKeys val keys) k (val k) = _
      rw [ih]
      simp only [addKey, List.mem_cons, Ne.symm heq, false_or]
      split_ifs <;> rfl

theorem spread_ofKeys (keys more : List κ) :
    spread (ofKeys val keys) (ofKeys val more) = ofKeys val (joinKeys keys more) := by
  induction more generalizing keys with
  | nil => rfl
  | cons k more ih =>
    change spread (set (ofKeys val keys) k (val k)) (ofKeys val more) = _
    rw [set_ofKeys, ih]
    rfl

omit [DecidableEq κ] in
theorem filter_ofKeys (p : κ × ν → Bool) (keys : List κ) :
    (ofKeys val keys).filter p = ofKeys val (keys.filter fun k => p (k, val k)) := by
  rw [ofKeys, List.filter_map]
  rfl

theorem without_ofKeys (keys : List κ) (k : κ) :
    without (ofKeys val keys) k = ofKeys val (keys.filter fun k' => k' ≠ k) := by
  rw [without, ofKeys, List.filter_map]
  rfl

theorem get?_ofKeys (keys : List κ) (k : κ) :
    get? (ofKeys val keys) k = if k ∈ keys then some (val k) else none := by
  induction keys with
  | nil => rfl
  | cons k' keys ih =>
    by_cases heq : k' = k
    · subst heq
      rw [if_pos List.mem_cons_self, get?, ofKeys, List.map_cons,
        List.find?_cons_of_pos (by simp), Option.map_some]
    · rw [get?, ofKeys, List.map_cons, List.find?_cons_of_neg (by simpa using heq)]
      change get? (ofKeys val keys) k = _
      simp only [ih, List.mem_cons, Ne.symm heq, false_or]

theorem mem_joinKeys {keys more : List κ} {k : κ} :
    k ∈ joinKeys keys more ↔ k ∈ keys ∨ k ∈ more := by
  induction more generalizing keys with
  | nil => exact (or_iff_left List.not_mem_nil).symm
  | cons k' more ih =>
    change k ∈ joinKeys (addKey keys k') more ↔ _
    rw [ih, addKey, List.mem_cons]
    split_ifs with hmem
    · constructor
      · rintro (h | h)
        · exact Or.inl h
        · exact Or.inr (Or.inr h)
      · rintro (h | rfl | h)
        · exact Or.inl h
        · exact Or.inl hmem
        · exact Or.inr h
    · rw [List.mem_append, List.mem_singleton, or_assoc]

theorem filter_addKey (p : κ → Bool) (keys : List κ) (k : κ) :
    (addKey keys k).filter p = if p k then addKey (keys.filter p) k else keys.filter p := by
  by_cases hp : p k
  · by_cases hmem : k ∈ keys
    · simp only [addKey, List.mem_filter, hmem, hp, and_self, if_true]
    · simp only [addKey, List.mem_filter, hmem, false_and, if_false, hp, if_true,
        List.filter_append, List.filter_cons, List.filter_nil]
  · rw [if_neg hp, addKey]
    split_ifs
    · rfl
    · rw [List.filter_append, List.filter_cons, if_neg hp, List.filter_nil, List.append_nil]

/-- Keys dropped before or after the join are the same keys. -/
theorem filter_joinKeys (p : κ → Bool) (keys more : List κ) :
    (joinKeys keys more).filter p = joinKeys (keys.filter p) (more.filter p) := by
  induction more generalizing keys with
  | nil => rfl
  | cons k more ih =>
    change (joinKeys (addKey keys k) more).filter p = _
    rw [ih, filter_addKey, List.filter_cons]
    split_ifs <;> rfl

end Record
