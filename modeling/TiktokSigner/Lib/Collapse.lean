import TiktokSigner.Lib.FirstSeen
import TiktokSigner.Lib.Json

/-!
# Collapsing pairs

What a row of insertions makes of a map that keeps the order of insertion:
the keys there keep their places, new ones follow in the order in which they
first occur (`keys_insertAll`), and each key carries its last value
(`insertAll_eq`). From the empty map this is `collapse`, the pairs with one
entry for each key.
-/

namespace TiktokSigner.OrderedMap

open FirstSeen

variable {Value : Type}

def keys (members : List (String × Value)) : List String := members.map (·.1)

/-- Insert the pairs, one after the other. -/
def insertAll (pairs members : List (String × Value)) : List (String × Value) :=
  pairs.foldl (fun m pair => insert pair.1 pair.2 m) members

/-- One pair for each key, in the order in which the keys first occur, with
the last value. -/
def collapse (pairs : List (String × Value)) : List (String × Value) :=
  (keys pairs).eraseDups.filterMap fun key => (lastValue key pairs).map (key, ·)

/-! ## Keys -/

theorem keys_insert (key : String) (value : Value) (members : List (String × Value)) :
    keys (insert key value members) =
      if key ∈ keys members then keys members else keys members ++ [key] := by
  induction members with
  | nil => rfl
  | cons pair members ih =>
    obtain ⟨k, v⟩ := pair
    have hcons : keys ((k, v) :: members) = k :: keys members := rfl
    rw [insert, hcons]
    by_cases hhead : key = k
    · subst hhead
      rw [if_pos (beq_self_eq_true key), if_pos List.mem_cons_self]
      rfl
    · have htail : keys ((k, v) :: insert key value members) =
          k :: keys (insert key value members) := rfl
      rw [if_neg (by simpa using hhead), htail, ih]
      split_ifs with hmem hmem' hmem'
      · rfl
      · exact absurd (List.mem_cons_of_mem _ hmem) hmem'
      · exact absurd ((List.mem_cons.mp hmem').resolve_left hhead) hmem
      · rfl

/-- Keys that are there keep their places, new ones follow as they come. -/
theorem keys_insertAll (pairs members : List (String × Value)) :
    keys (insertAll pairs members) =
      keys members ++ ((keys pairs).filter fun key => key ∉ keys members).eraseDups := by
  induction pairs generalizing members with
  | nil => exact (List.append_nil _).symm
  | cons pair pairs ih =>
    obtain ⟨key, value⟩ := pair
    have hfold : insertAll ((key, value) :: pairs) members =
        insertAll pairs (insert key value members) := rfl
    have hkeys : keys ((key, value) :: pairs) = key :: keys pairs := rfl
    rw [hfold, ih, keys_insert, hkeys]
    by_cases hmem : key ∈ keys members
    · rw [if_pos hmem, List.filter_cons_of_neg (by simpa using hmem)]
    · rw [if_neg hmem, List.filter_cons_of_pos (by simpa using hmem), List.eraseDups_cons,
        List.filter_filter, List.append_assoc, List.singleton_append]
      have hfilter : ((keys pairs).filter fun k => k ∉ keys members ++ [key]) =
          (keys pairs).filter fun k => (!k == key) && decide (k ∉ keys members) :=
        List.filter_congr fun k _ => by
          rw [Bool.eq_iff_iff]
          simp [not_or, and_comm]
      rw [hfilter]

theorem nodup_keys_insertAll {members : List (String × Value)} (h : (keys members).Nodup)
    (pairs : List (String × Value)) : (keys (insertAll pairs members)).Nodup := by
  rw [keys_insertAll]
  refine List.Nodup.append h (nodup_eraseDups _) fun key hmem hnew => ?_
  have hnot := (List.mem_filter.mp (List.mem_eraseDups.mp hnew)).2
  exact of_decide_eq_true hnot hmem

/-! ## Values -/

/-- A map is its keys and what they stand for. -/
theorem eq_filterMap_lookup {members : List (String × Value)} (h : (keys members).Nodup) :
    members = (keys members).filterMap fun key => (members.lookup key).map (key, ·) := by
  induction members with
  | nil => rfl
  | cons pair members ih =>
    obtain ⟨key, value⟩ := pair
    have hkeys : keys ((key, value) :: members) = key :: keys members := rfl
    rw [hkeys] at h ⊢
    obtain ⟨hnot, hrest⟩ := List.nodup_cons.mp h
    have hself : ((key, value) :: members).lookup key = some value := by
      rw [lookup_cons_ite, if_pos rfl]
    have htail : (keys members).filterMap (fun k => (((key, value) :: members).lookup k).map (k, ·)) =
        (keys members).filterMap fun k => (members.lookup k).map (k, ·) := by
      refine List.filterMap_congr fun k hk => ?_
      have hne : k ≠ key := by
        rintro rfl
        exact hnot hk
      rw [lookup_cons_ite, if_neg hne]
    rw [List.filterMap_cons, hself, Option.map_some, htail, ← ih hrest]

theorem lookup_insertAll (key : String) (pairs members : List (String × Value)) :
    (insertAll pairs members).lookup key = (lastValue key pairs).or (members.lookup key) :=
  lookup_foldl_insert key pairs members

theorem lookup_of_mem {members : List (String × Value)} (h : (keys members).Nodup)
    {key : String} {value : Value} (hmem : (key, value) ∈ members) :
    members.lookup key = some value := by
  induction members with
  | nil => cases hmem
  | cons pair members ih =>
    obtain ⟨k, v⟩ := pair
    obtain ⟨hnot, hrest⟩ := List.nodup_cons.mp h
    rw [lookup_cons_ite]
    rcases List.mem_cons.mp hmem with heq | htail
    · obtain ⟨rfl, rfl⟩ := Prod.mk.inj heq
      rw [if_pos rfl]
    · have hne : key ≠ k := by
        rintro rfl
        exact hnot (List.mem_map.mpr ⟨_, htail, rfl⟩)
      rw [if_neg hne, ih hrest htail]

theorem lookup_of_notMem {members : List (String × Value)} {key : String}
    (h : key ∉ keys members) : members.lookup key = none := by
  refine List.lookup_eq_none_iff.mpr fun pair hpair => ?_
  have hne : key ≠ pair.1 := by
    rintro rfl
    exact h (List.mem_map_of_mem hpair)
  simpa using hne

/-- The last value of a key is among the pairs of that key. -/
theorem lastValue_filter {key : String} {p : String → Bool} (hkey : p key = true)
    (pairs : List (String × Value)) :
    lastValue key (pairs.filter fun pair => p pair.1) = lastValue key pairs := by
  rw [lastValue, lastValue, ← List.filter_reverse]
  induction pairs.reverse with
  | nil => rfl
  | cons pair rest ih =>
    obtain ⟨k, v⟩ := pair
    by_cases hk : p k = true
    · rw [List.filter_cons_of_pos (by simpa using hk), lookup_cons_ite, lookup_cons_ite, ih]
    · have hne : key ≠ k := by
        rintro rfl
        exact hk hkey
      rw [List.filter_cons_of_neg (by simpa using hk), lookup_cons_ite, if_neg hne, ih]

/-- Members keep their places and take the last value of their key; what is
new follows, each key with its last value. -/
theorem insertAll_eq {members : List (String × Value)} (h : (keys members).Nodup)
    (pairs : List (String × Value)) :
    insertAll pairs members =
      (members.map fun member => (member.1, (lastValue member.1 pairs).getD member.2)) ++
        collapse (pairs.filter fun pair => pair.1 ∉ keys members) := by
  have hnew : ((keys pairs).filter fun key => key ∉ keys members) =
      keys (pairs.filter fun pair => pair.1 ∉ keys members) := by
    rw [keys, keys, List.filter_map]
    rfl
  rw [eq_filterMap_lookup (nodup_keys_insertAll h pairs), keys_insertAll, List.filterMap_append,
    hnew]
  congr 1
  · rw [keys, List.filterMap_map, ← List.filterMap_eq_map']
    refine List.filterMap_congr fun member hmember => ?_
    rw [Function.comp_apply, lookup_insertAll, lookup_of_mem h hmember]
    cases lastValue member.1 pairs <;> rfl
  · refine List.filterMap_congr fun key hkey => ?_
    rw [← hnew] at hkey
    have hnot : decide (key ∉ keys members) = true :=
      (List.mem_filter.mp (List.mem_eraseDups.mp hkey)).2
    rw [lookup_insertAll, lookup_of_notMem (of_decide_eq_true hnot), Option.or_none,
      lastValue_filter (p := fun key => decide (key ∉ keys members)) hnot]

/-! ## From the empty map -/

theorem nodup_keys_nil : (keys ([] : List (String × Value))).Nodup := List.nodup_nil

theorem insertAll_nil (pairs : List (String × Value)) : insertAll pairs [] = collapse pairs := by
  rw [insertAll_eq nodup_keys_nil, List.map_nil, List.nil_append]
  congr 1
  exact List.filter_eq_self.mpr fun pair _ => decide_eq_true List.not_mem_nil

theorem keys_collapse (pairs : List (String × Value)) :
    keys (collapse pairs) = (keys pairs).eraseDups := by
  have hall : ((keys pairs).filter fun key => key ∉ keys ([] : List (String × Value))) =
      keys pairs :=
    List.filter_eq_self.mpr fun key _ => decide_eq_true List.not_mem_nil
  rw [← insertAll_nil, keys_insertAll, hall]
  rfl

theorem nodup_keys_collapse (pairs : List (String × Value)) : (keys (collapse pairs)).Nodup := by
  rw [keys_collapse]
  exact nodup_eraseDups _

theorem lookup_collapse (key : String) (pairs : List (String × Value)) :
    (collapse pairs).lookup key = lastValue key pairs := by
  rw [← insertAll_nil, lookup_insertAll, List.lookup_nil, Option.or_none]

/-- There is nothing to collapse where each key occurs once. -/
theorem collapse_eq_self {pairs : List (String × Value)} (h : (keys pairs).Nodup) :
    collapse pairs = pairs := by
  have hrev : (keys pairs.reverse).Nodup := by
    rw [keys, List.map_reverse]
    exact List.nodup_reverse.mpr h
  have hlookup : ∀ key ∈ keys pairs, (collapse pairs).lookup key = pairs.lookup key := by
    intro key hkey
    obtain ⟨⟨k, value⟩, hpair, rfl⟩ := List.mem_map.mp hkey
    rw [lookup_collapse, lookup_of_mem h hpair]
    exact lookup_of_mem hrev (List.mem_reverse.mpr hpair)
  have hkeys : keys (collapse pairs) = keys pairs := by
    rw [keys_collapse]
    exact eraseDups_eq_self h
  rw [eq_filterMap_lookup (nodup_keys_collapse pairs), hkeys,
    List.filterMap_congr fun key hkey => by rw [hlookup key hkey], ← eq_filterMap_lookup h]

theorem mem_of_lastValue {key : String} {value : Value} {pairs : List (String × Value)}
    (h : lastValue key pairs = some value) : (key, value) ∈ pairs := by
  obtain ⟨before, after, hsplit, -⟩ := List.lookup_eq_some_iff.mp h
  have hmem : (key, value) ∈ pairs.reverse :=
    hsplit ▸ List.mem_append_right _ List.mem_cons_self
  exact List.mem_reverse.mp hmem

/-! ## Other values under the same keys -/

theorem lastValue_map (f : Value → Value) (key : String) (pairs : List (String × Value)) :
    lastValue key (pairs.map fun pair => (pair.1, f pair.2)) = (lastValue key pairs).map f := by
  rw [lastValue, lastValue, ← List.map_reverse]
  induction pairs.reverse with
  | nil => rfl
  | cons pair rest ih =>
    obtain ⟨k, v⟩ := pair
    rw [List.map_cons, lookup_cons_ite, lookup_cons_ite, ih]
    split_ifs <;> rfl

theorem keys_map (f : Value → Value) (pairs : List (String × Value)) :
    keys (pairs.map fun pair => (pair.1, f pair.2)) = keys pairs := List.map_map

/-- Only the last values show. -/
theorem collapse_map_eq_iff {f g : Value → Value} {pairs : List (String × Value)} :
    collapse (pairs.map fun pair => (pair.1, f pair.2)) =
        collapse (pairs.map fun pair => (pair.1, g pair.2)) ↔
      ∀ key value, lastValue key pairs = some value → f value = g value := by
  constructor
  · intro h key value hlast
    have hlookup := congrArg (List.lookup key) h
    rw [lookup_collapse, lookup_collapse, lastValue_map, lastValue_map, hlast] at hlookup
    exact Option.some.inj hlookup
  · intro h
    rw [collapse, collapse, keys_map, keys_map]
    refine List.filterMap_congr fun key _ => ?_
    rw [lastValue_map, lastValue_map]
    cases hlast : lastValue key pairs with
    | none => rfl
    | some value => simp only [Option.map_some, h key value hlast]

end TiktokSigner.OrderedMap
