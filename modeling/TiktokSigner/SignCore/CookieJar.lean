import Mathlib.Data.List.Nodup

/-!
# The cookie jar

`cookie.rs`: session cookies in insertion order. Every way to fill a jar
goes through `set`, so no two cookies of a jar have one name.
-/

namespace TiktokSigner

structure CookieJar where
  entries : List (String × String)
  nodup : (entries.map (·.1)).Nodup
deriving DecidableEq

namespace CookieJar

def new : CookieJar := ⟨[], List.nodup_nil⟩

/-- Insert or replace while preserving the key's original position. -/
def setEntry (name value : String) : List (String × String) → List (String × String)
  | [] => [(name, value)]
  | entry :: entries =>
      if entry.1 = name then (entry.1, value) :: entries
      else entry :: setEntry name value entries

theorem mem_names_setEntry {name value other : String} {entries : List (String × String)} :
    other ∈ (setEntry name value entries).map (·.1) ↔ other ∈ entries.map (·.1) ∨ other = name := by
  induction entries with
  | nil => simp [setEntry]
  | cons entry entries ih =>
    unfold setEntry
    split
    · rename_i heq
      rw [List.map_cons, List.map_cons, List.mem_cons, heq]
      tauto
    · rw [List.map_cons, List.map_cons, List.mem_cons, List.mem_cons, ih, or_assoc]

theorem nodup_setEntry (name value : String) {entries : List (String × String)}
    (h : (entries.map (·.1)).Nodup) : ((setEntry name value entries).map (·.1)).Nodup := by
  induction entries with
  | nil => simp [setEntry]
  | cons entry entries ih =>
    rw [List.map_cons, List.nodup_cons] at h
    unfold setEntry
    split
    · rw [List.map_cons, List.nodup_cons]
      exact h
    · rename_i hne
      rw [List.map_cons, List.nodup_cons, mem_names_setEntry]
      exact ⟨fun hmem => hmem.elim h.1 hne, ih h.2⟩

/-- A name that is not there yet goes to the end. -/
theorem setEntry_of_notMem {name value : String} {entries : List (String × String)}
    (h : name ∉ entries.map (·.1)) : setEntry name value entries = entries ++ [(name, value)] := by
  induction entries with
  | nil => rfl
  | cons entry entries ih =>
    rw [List.map_cons, List.mem_cons, not_or] at h
    rw [setEntry, if_neg (Ne.symm h.1), ih h.2, List.cons_append]

def set (self : CookieJar) (name value : String) : CookieJar :=
  ⟨setEntry name value self.entries, nodup_setEntry name value self.nodup⟩

/-- `from_iter`. -/
def fromIter (cookies : List (String × String)) : CookieJar :=
  cookies.foldl (fun jar cookie => jar.set cookie.1 cookie.2) new

theorem entries_foldl_set (cookies : List (String × String)) (jar : CookieJar)
    (h : ((jar.entries ++ cookies).map (·.1)).Nodup) :
    (cookies.foldl (fun jar cookie => jar.set cookie.1 cookie.2) jar).entries
      = jar.entries ++ cookies := by
  induction cookies generalizing jar with
  | nil => simp
  | cons cookie cookies ih =>
    have hnew : cookie.1 ∉ jar.entries.map (·.1) := by
      intro hmem
      rw [List.map_append, List.map_cons] at h
      exact (List.nodup_append.mp h).2.2 _ hmem _ List.mem_cons_self rfl
    have hset : (jar.set cookie.1 cookie.2).entries = jar.entries ++ [cookie] :=
      setEntry_of_notMem hnew
    rw [List.foldl_cons, ih _ (by rw [hset, List.append_assoc]; exact h), hset,
      List.append_assoc, List.singleton_append]

/-- Cookies of different names are collected as they are. -/
theorem entries_fromIter {cookies : List (String × String)} (h : (cookies.map (·.1)).Nodup) :
    (fromIter cookies).entries = cookies :=
  entries_foldl_set cookies new h

end CookieJar

end TiktokSigner
