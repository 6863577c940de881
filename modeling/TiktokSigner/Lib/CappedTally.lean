import TiktokSigner.Lib.Tally
import TiktokSigner.Lib.BoundedMap

/-!
# Tallies with a cap

A tally that takes no new key once it has `cap` of them, and counts what it
turns away. Every occurrence is recorded once, under its key or among those
turned away.
-/

namespace CappedTally

/-! ## Sums over a map -/

section

variable {κ β : Type*} (f : β → Nat)

/-- What the values of a map measure together. -/
def sum (t : AList fun _ : κ => β) : Nat := (t.entries.map fun e => f e.2).sum

@[simp] theorem sum_empty : sum f (∅ : AList fun _ : κ => β) = 0 := rfl

variable [DecidableEq κ]

/-- An insertion replaces what the key measured before. -/
theorem sum_insert (t : AList fun _ : κ => β) (k : κ) (b : β) :
    sum f (t.insert k b) + ((t.lookup k).map f).getD 0 = sum f t + f b := by
  rw [sum, sum, AList.entries_insert]
  by_cases hmem : k ∈ t
  · obtain ⟨old, before, after, -, hentries, hkerase⟩ :=
      List.exists_of_kerase (AList.mem_keys.mp hmem)
    have hold : t.lookup k = some old := by
      rw [← Option.mem_def, AList.mem_lookup_iff, hentries]
      exact List.mem_append_right _ List.mem_cons_self
    rw [hkerase, hold, hentries]
    simp only [List.map_cons, List.map_append, List.sum_cons, List.sum_append, Option.map_some,
      Option.getD_some]
    omega
  · have hold : t.lookup k = none := AList.lookup_eq_none.mpr hmem
    rw [List.kerase_of_notMem_keys fun hkeys => hmem (AList.mem_keys.mpr hkeys), hold]
    simp only [List.map_cons, List.sum_cons, Option.map_none, Option.getD_none]
    omega

end

/-! ## The tally -/

variable {κ : Type*} [DecidableEq κ]

/-- The counts, and how many were turned away. -/
abbrev Capped (κ : Type*) [DecidableEq κ] := (AList fun _ : κ => Nat) × Nat

def add (cap : Nat) (c : Capped κ) (k : κ) : Capped κ :=
  if k ∈ c.1 ∨ c.1.keys.length < cap then (Tally.add c.1 k, c.2) else (c.1, c.2 + 1)

/-- All occurrences. -/
def recorded (c : Capped κ) : Nat := Tally.total c.1 + c.2

variable {cap : Nat} {c : Capped κ}

theorem total_add (t : AList fun _ : κ => Nat) (k : κ) :
    Tally.total (Tally.add t k) = Tally.total t + 1 := by
  have hsum : Tally.total (Tally.add t k) + Tally.count t k
      = Tally.total t + (Tally.count t k + 1) := by
    have h := sum_insert id t k (Tally.count t k + 1)
    rwa [Option.map_id] at h
  omega

theorem recorded_add (c : Capped κ) (k : κ) : recorded (add cap c k) = recorded c + 1 := by
  rw [add]
  split
  case isTrue =>
    rw [recorded, recorded, total_add]
    omega
  case isFalse => exact (Nat.add_assoc _ _ _).symm

theorem length_add (hlen : c.1.keys.length ≤ cap) (k : κ) : (add cap c k).1.keys.length ≤ cap := by
  rw [add]
  split
  case isTrue hroom => exact BoundedMap.length_insert_le hroom hlen
  case isFalse => exact hlen

theorem recorded_foldl (cap : Nat) (ks : List κ) (c : Capped κ) :
    recorded (ks.foldl (add cap) c) = recorded c + ks.length := by
  induction ks generalizing c with
  | nil => rfl
  | cons k ks ih =>
    rw [List.foldl_cons, ih, recorded_add, List.length_cons]
    omega

theorem length_foldl (ks : List κ) (hlen : c.1.keys.length ≤ cap) :
    (ks.foldl (add cap) c).1.keys.length ≤ cap := by
  induction ks generalizing c with
  | nil => exact hlen
  | cons k ks ih => exact ih (length_add hlen k)

end CappedTally
