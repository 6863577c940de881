import Mathlib.Data.List.Basic

/-!
# JSON values

JSON trees over any type of numbers. An object is its members in order, as
a parser or a map that keeps the order of insertion has them: a key stands
at most once, and `insert` keeps it so. `lookup_foldl_insert` is the law of
a row of insertions: the last one of a key wins.
-/

namespace TiktokSigner

inductive Json (Number : Type) where
  | null
  | bool (b : Bool)
  | num (n : Number)
  | str (s : String)
  | arr (elements : List (Json Number))
  | obj (members : List (String × Json Number))

namespace Json

variable {Number : Type}

/-- The text of a string value. -/
def asStr : Json Number → Option String
  | .str s => some s
  | _ => none

/-- The elements of an array. -/
def asArray : Json Number → Option (List (Json Number))
  | .arr elements => some elements
  | _ => none

/-- The members of an object. -/
def asObject : Json Number → Option (List (String × Json Number))
  | .obj members => some members
  | _ => none

/-- The member of an object; nothing else has members. -/
def get (key : String) : Json Number → Option (Json Number)
  | .obj members => members.lookup key
  | _ => none

def isNull : Json Number → Bool
  | .null => true
  | _ => false

def isObject : Json Number → Bool
  | .obj _ => true
  | _ => false

/-- The number of a numeric value. -/
def asNum : Json Number → Option Number
  | .num n => some n
  | _ => none

@[simp] theorem get_obj (key : String) (members : List (String × Json Number)) :
    get key (.obj members) = members.lookup key := rfl

theorem isObject_of_get {key : String} {value field : Json Number}
    (h : value.get key = some field) : value.isObject = true := by
  cases value with
  | obj members => rfl
  | _ => cases h

end Json

/-! ## Maps that keep the order of insertion -/

namespace OrderedMap

variable {Value : Type}

/-- Set the value of a key, in place where the key is there. -/
def insert (key : String) (value : Value) : List (String × Value) → List (String × Value)
  | [] => [(key, value)]
  | (k, v) :: members =>
      if key == k then (key, value) :: members else (k, v) :: insert key value members

theorem lookup_cons_ite (k key : String) (value : Value) (members : List (String × Value)) :
    ((key, value) :: members).lookup k = if k = key then some value else members.lookup k := by
  rw [List.lookup_cons]
  by_cases h : k = key
  · rw [if_pos h, beq_iff_eq.mpr h]
  · rw [if_neg h, beq_eq_false_iff_ne.mpr h]

theorem lookup_insert (key k : String) (value : Value) :
    ∀ members : List (String × Value),
      (insert key value members).lookup k = if k = key then some value else members.lookup k
  | [] => by rw [insert, lookup_cons_ite]
  | (k', v) :: members => by
      rw [insert]
      by_cases hhead : key = k'
      · rw [if_pos (beq_iff_eq.mpr hhead), lookup_cons_ite, lookup_cons_ite, ← hhead]
        split_ifs <;> rfl
      · rw [if_neg (fun h => hhead (beq_iff_eq.mp h)), lookup_cons_ite, lookup_cons_ite,
          lookup_insert key k value members]
        split_ifs with h1 h2
        · exact absurd (h2.symm.trans h1) hhead
        all_goals rfl

theorem mem_insert {key : String} {value : Value} {pair : String × Value} :
    ∀ {members : List (String × Value)}, pair ∈ insert key value members →
      pair = (key, value) ∨ pair ∈ members
  | [], h => Or.inl (List.mem_singleton.mp h)
  | (k, v) :: members, h => by
      rw [insert] at h
      split_ifs at h
      · rcases List.mem_cons.mp h with h | h
        · exact Or.inl h
        · exact Or.inr (List.mem_cons_of_mem _ h)
      · rcases List.mem_cons.mp h with h | h
        · exact Or.inr (h ▸ List.mem_cons_self)
        · rcases mem_insert h with h | h
          · exact Or.inl h
          · exact Or.inr (List.mem_cons_of_mem _ h)

/-- The value of the last pair with this key. -/
def lastValue (key : String) (pairs : List (String × Value)) : Option Value :=
  pairs.reverse.lookup key

theorem lastValue_append (key : String) (pairs more : List (String × Value)) :
    lastValue key (pairs ++ more) = (lastValue key more).or (lastValue key pairs) := by
  rw [lastValue, List.reverse_append, List.lookup_append]
  rfl

theorem exists_lastValue {key : String} {value : Value} {pairs : List (String × Value)}
    (h : (key, value) ∈ pairs) : ∃ last, lastValue key pairs = some last := by
  rw [← Option.isSome_iff_exists, Option.isSome_iff_ne_none, lastValue, ne_eq,
    List.lookup_eq_none_iff]
  intro hnone
  simpa using hnone (key, value) (List.mem_reverse.mpr h)

theorem lookup_foldl_insert (k : String) : ∀ (pairs members : List (String × Value)),
    (pairs.foldl (fun m pair => insert pair.1 pair.2 m) members).lookup k =
      (lastValue k pairs).or (members.lookup k)
  | [], members => by simp [lastValue]
  | (key, value) :: pairs, members => by
      have hpairs : (key, value) :: pairs = [(key, value)] ++ pairs := rfl
      have hsingle : lastValue k [(key, value)] = if k = key then some value else none := by
        rw [lastValue, List.reverse_singleton, lookup_cons_ite, List.lookup_nil]
      rw [List.foldl_cons, lookup_foldl_insert k pairs, lookup_insert, hpairs, lastValue_append,
        Option.or_assoc, hsingle]
      split_ifs <;> rfl

end OrderedMap

end TiktokSigner
