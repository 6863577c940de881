import Mathlib.Data.List.Nodup
import Mathlib.Data.List.Perm.Subperm

/-!
# First occurrences

`eraseDups` keeps what a list meets for the first time, in the order in
which it is met: what is met later only adds to the end
(`eraseDups_append_extends`).
-/

namespace FirstSeen

universe u

variable {α : Type u} [BEq α] [LawfulBEq α]

theorem nodup_eraseDups (l : List α) : l.eraseDups.Nodup := by
  induction hlen : l.length using Nat.strongRecOn generalizing l with
  | _ n ih =>
    cases l with
    | nil => exact List.nodup_nil
    | cons a l =>
      have hlt : (l.filter fun b => !b == a).length < n := by
        have hle := List.length_filter_le (fun b => !b == a) l
        rw [List.length_cons] at hlen
        omega
      rw [List.eraseDups_cons, List.nodup_cons]
      refine ⟨fun hmem => ?_, ih _ hlt _ rfl⟩
      have hne := (List.mem_filter.mp (List.mem_eraseDups.mp hmem)).2
      simp at hne

/-- Distinct elements are no more than there are. -/
theorem length_le_eraseDups {l l' : List α} (h : l.Nodup) (hsubset : l ⊆ l') :
    l.length ≤ l'.eraseDups.length := by
  have hsubset' : l ⊆ l'.eraseDups := fun a ha => List.mem_eraseDups.mpr (hsubset ha)
  exact (List.subperm_of_subset h hsubset').length_le

theorem eraseDups_eq_self {l : List α} (h : l.Nodup) : l.eraseDups = l := by
  induction l with
  | nil => rfl
  | cons a l ih =>
    obtain ⟨hnot, hrest⟩ := List.nodup_cons.mp h
    have hall : (l.filter fun b => !b == a) = l := by
      refine List.filter_eq_self.mpr fun b hb => ?_
      have hne : b ≠ a := by
        rintro rfl
        exact hnot hb
      simpa using hne
    rw [List.eraseDups_cons, hall, ih hrest]

theorem eraseDups_append_extends (l l' : List α) : l.eraseDups <+: (l ++ l').eraseDups := by
  rw [List.eraseDups_append]
  exact List.prefix_append _ _

theorem length_eraseDups_mono {l l' : List α} (h : l <+: l') :
    l.eraseDups.length ≤ l'.eraseDups.length := by
  obtain ⟨rest, rfl⟩ := h
  exact (eraseDups_append_extends l rest).length_le

theorem eraseDups_concat_of_mem {l : List α} {a : α} (h : a ∈ l) :
    (l ++ [a]).eraseDups = l.eraseDups := by
  have hnone : [a].removeAll l = [] := by simp [List.removeAll, h]
  rw [List.eraseDups_append, hnone, List.eraseDups_nil, List.append_nil]

theorem eraseDups_concat_of_notMem {l : List α} {a : α} (h : a ∉ l) :
    (l ++ [a]).eraseDups = l.eraseDups ++ [a] := by
  have hself : [a].removeAll l = [a] := by simp [List.removeAll, h]
  rw [List.eraseDups_append, hself]
  rfl

theorem length_eraseDups_concat_le (l : List α) (a : α) :
    (l ++ [a]).eraseDups.length ≤ l.eraseDups.length + 1 := by
  by_cases h : a ∈ l
  · rw [eraseDups_concat_of_mem h]
    exact Nat.le_succ _
  · rw [eraseDups_concat_of_notMem h, List.length_append]
    exact Nat.le_refl _

end FirstSeen
