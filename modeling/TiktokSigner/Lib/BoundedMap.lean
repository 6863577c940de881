import Mathlib.Data.List.AList

/-!
# Maps that are kept small

`retain` keeps the entries with a property, as a sweep of expired entries
does. Together with an insertion that happens only where there is room it
keeps the size of a map below a bound.
-/

namespace BoundedMap

variable {κ β : Type*} {t : AList fun _ : κ => β} {p : β → Bool} {k : κ} {b : β} {n : Nat}

def retain (p : β → Bool) (t : AList fun _ : κ => β) : AList fun _ : κ => β :=
  ⟨t.entries.filter fun e => p e.2, t.nodupKeys.sublist List.filter_sublist⟩

theorem length_retain_le : (retain p t).keys.length ≤ t.keys.length :=
  (List.filter_sublist.map Sigma.fst).length_le

variable [DecidableEq κ]

theorem lookup_retain :
    (retain p t).lookup k = some b ↔ t.lookup k = some b ∧ p b = true := by
  rw [← Option.mem_def, ← Option.mem_def, AList.mem_lookup_iff, AList.mem_lookup_iff, retain]
  simp

theorem mem_of_lookup (h : t.lookup k = some b) : k ∈ t :=
  AList.lookup_isSome.mp (Option.isSome_of_eq_some h)

/-- Inserting grows the map by one entry when the key is new. -/
theorem length_insert_le (hroom : k ∈ t ∨ t.keys.length < n) (hlen : t.keys.length ≤ n) :
    (t.insert k b).keys.length ≤ n := by
  rw [AList.keys_insert, List.length_cons]
  rcases hroom with hmem | hlt
  · rw [List.length_erase_of_mem (AList.mem_keys.mp hmem)]
    have hpos : 0 < t.keys.length := List.length_pos_of_mem (AList.mem_keys.mp hmem)
    omega
  · exact Nat.lt_of_le_of_lt List.length_erase_le hlt

/-- An insertion drops no key. -/
theorem length_le_insert : t.keys.length ≤ (t.insert k b).keys.length := by
  rw [AList.keys_insert, List.length_cons]
  have hle : t.keys.length - 1 ≤ (t.keys.erase k).length := List.le_length_erase
  omega

end BoundedMap
