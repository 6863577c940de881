import Mathlib.Data.List.Nodup
import Mathlib.Data.Set.Function

/-!
# Interning

A table gives every value it is asked for a token: a new, numbered one the
first time, the same one after that. Tokens do not change (`Extends`),
different values have different tokens (`Numbered.injective`), and nothing
of a value but which values equal it reaches the tokens: under a renaming
that is injective the same ones come out (`intern_map`).
-/

namespace Intern

universe u v w

structure Table (α : Type u) (β : Type v) where
  next : Nat := 0
  byValue : List (α × β) := []

namespace Table

variable {α : Type u} {β : Type v} {κ : Type w} [DecidableEq α]

def get (table : Table α β) (a : α) : Option β := table.byValue.lookup a

/-- The token of a value, and the table after the request. -/
def intern (fresh : Nat → β) (table : Table α β) (a : α) : β × Table α β :=
  match table.get a with
  | some token => (token, table)
  | none =>
      let token := fresh (table.next + 1)
      (token, { next := table.next + 1, byValue := (a, token) :: table.byValue })

/-! ## Tokens do not change -/

/-- The later table knows what the earlier one does. -/
def Extends (table later : Table α β) : Prop :=
  ∀ a token, table.get a = some token → later.get a = some token

theorem Extends.refl (table : Table α β) : Extends table table := fun _ _ h => h

theorem Extends.trans {t t' t'' : Table α β} (h : Extends t t') (h' : Extends t' t'') :
    Extends t t'' :=
  fun a token ha => h' a token (h a token ha)

theorem get_intern (fresh : Nat → β) (table : Table α β) (a : α) :
    (table.intern fresh a).2.get a = some (table.intern fresh a).1 := by
  unfold intern
  split
  · assumption
  · simp [get]

theorem extends_intern (fresh : Nat → β) (table : Table α β) (a : α) :
    Extends table (table.intern fresh a).2 := by
  unfold intern
  split
  · exact Extends.refl table
  · rename_i hnone
    intro a' token ha'
    have hne : a' ≠ a := by
      rintro rfl
      rw [hnone] at ha'
      cases ha'
    unfold get at ha' ⊢
    rw [List.lookup_cons, beq_false_of_ne hne]
    exact ha'

/-! ## Different values have different tokens -/

/-- The tokens are numbered up to `next`, each number once. -/
structure Numbered (fresh : κ → Nat → β) (table : Table α β) : Prop where
  tokens : ∀ entry ∈ table.byValue, ∃ kind n, n ≤ table.next ∧ entry.2 = fresh kind n
  nodup : (table.byValue.map (·.2)).Nodup

theorem mem_of_get {table : Table α β} {a : α} {token : β} (h : table.get a = some token) :
    (a, token) ∈ table.byValue := by
  unfold get at h
  generalize table.byValue = entries at h
  induction entries with
  | nil => cases h
  | cons entry entries ih =>
    rw [List.lookup_cons] at h
    by_cases heq : a = entry.1
    · rw [beq_iff_eq.mpr heq] at h
      rw [heq, ← Option.some.inj h]
      exact List.mem_cons_self
    · rw [beq_false_of_ne heq] at h
      exact List.mem_cons_of_mem _ (ih h)

namespace Numbered

variable {fresh : κ → Nat → β} {table : Table α β}

omit [DecidableEq α] in
theorem empty : Numbered fresh ({} : Table α β) :=
  ⟨fun _ h => absurd h List.not_mem_nil, List.nodup_nil⟩

theorem token {a : α} {token : β} (h : Numbered fresh table) (ha : table.get a = some token) :
    ∃ kind n, token = fresh kind n := by
  obtain ⟨kind, n, _, hn⟩ := h.tokens _ (mem_of_get ha)
  exact ⟨kind, n, hn⟩

theorem injective {a a' : α} {token : β} (h : Numbered fresh table) (ha : table.get a = some token)
    (ha' : table.get a' = some token) : a = a' := by
  have heq := List.inj_on_of_nodup_map h.nodup (mem_of_get ha) (mem_of_get ha') rfl
  exact congrArg Prod.fst heq

theorem intern (hfresh : ∀ {kind kind' n n'}, fresh kind n = fresh kind' n' → n = n')
    (h : Numbered fresh table) (kind : κ) (a : α) :
    Numbered fresh (table.intern (fresh kind) a).2 := by
  unfold Table.intern
  split
  · exact h
  · refine ⟨fun entry hentry => ?_, ?_⟩
    · rcases List.mem_cons.mp hentry with rfl | hentry
      · exact ⟨kind, table.next + 1, Nat.le_refl _, rfl⟩
      · obtain ⟨kind', n, hn, htoken⟩ := h.tokens entry hentry
        exact ⟨kind', n, Nat.le_succ_of_le hn, htoken⟩
    · rw [List.map_cons, List.nodup_cons]
      refine ⟨fun hmem => ?_, h.nodup⟩
      obtain ⟨entry, hentry, heq⟩ := List.mem_map.mp hmem
      obtain ⟨kind', n, hn, htoken⟩ := h.tokens entry hentry
      have : n = table.next + 1 := hfresh (htoken.symm.trans heq)
      omega

end Numbered

/-! ## Renamed values -/

variable {γ : Type u} [DecidableEq γ]

/-- The table of the renamed values. -/
def map (rename : α → γ) (table : Table α β) : Table γ β where
  next := table.next
  byValue := table.byValue.map fun entry => (rename entry.1, entry.2)

/-- All values of the table are in `S`. -/
def Within (S : Set α) (table : Table α β) : Prop := ∀ entry ∈ table.byValue, entry.1 ∈ S

theorem Within.intern {S : Set α} {table : Table α β} (h : Within S table) (fresh : Nat → β) {a : α}
    (ha : a ∈ S) : Within S (table.intern fresh a).2 := by
  unfold Table.intern
  split
  · exact h
  · intro entry hentry
    rcases List.mem_cons.mp hentry with rfl | hentry
    · exact ha
    · exact h entry hentry

theorem get_map {S : Set α} {rename : α → γ} (hinj : Set.InjOn rename S) {table : Table α β}
    (h : Within S table) {a : α} (ha : a ∈ S) : (table.map rename).get (rename a) = table.get a := by
  unfold Within at h
  unfold get map
  dsimp only
  generalize table.byValue = entries at h
  induction entries with
  | nil => rfl
  | cons entry entries ih =>
    have htail := ih fun entry' hentry' => h entry' (List.mem_cons_of_mem _ hentry')
    rw [List.map_cons, List.lookup_cons, List.lookup_cons, htail]
    by_cases heq : a = entry.1
    · simp [heq]
    · have hne : rename a ≠ rename entry.1 :=
        fun hcontra => heq (hinj ha (h entry List.mem_cons_self) hcontra)
      rw [beq_false_of_ne heq, beq_false_of_ne hne]

/-- The same token, and the table of the renamed values again. -/
theorem intern_map {S : Set α} {rename : α → γ} (hinj : Set.InjOn rename S) {table : Table α β}
    (h : Within S table) (fresh : Nat → β) {a : α} (ha : a ∈ S) :
    (table.map rename).intern fresh (rename a)
      = ((table.intern fresh a).1, (table.intern fresh a).2.map rename) := by
  unfold intern
  rw [get_map hinj h ha]
  cases table.get a <;> rfl

end Table

end Intern
