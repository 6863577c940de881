import Mathlib.Data.List.AList

/-!
# Keyed tables of reference-counted entries

Clients share entries by key. A client either opens an entry for its key
or joins the one in the table, and holds a counted reference to it until
it has dropped it, in two steps: first its drop body (which may take the
entry out of the table), later the reference itself.

An entry is taken out of the table by the drop body that finds only
itself and the table counted. `Counted` ties the counts to the clients and
holds in every run, and with it `Listed`: who holds an entry and has not
run its drop body finds that entry under its key. Whether an entry can
stay behind depends on the order of bodies and releases: under the
discipline `Disciplined` (a body does not run last while others are between
their two steps) every entry in the table is `Watched` by a client whose
body has not run, and a key without holders has no entry
(`lookup_eq_none`).
-/

namespace LeaseTable

/-- What a client holds. -/
inductive Hold where
  | idle
  /-- The drop body has not run. -/
  | held (f : Nat)
  /-- The drop body has run, the reference is still counted. -/
  | dropping (f : Nat)
deriving DecidableEq

def Hold.lease : Hold → Option Nat
  | .idle => none
  | .held f | .dropping f => some f

structure Client (κ : Type*) where
  key : κ
  hold : Hold
deriving DecidableEq

/-- The table itself, every entry ever opened (its key and its count),
and the clients. -/
structure Table (κ : Type*) where
  entries : AList fun _ : κ => Nat
  arcs : List (κ × Nat)
  clients : List (Client κ)

variable {κ : Type*} [DecidableEq κ]

namespace Table

def setHold (T : Table κ) (c : Nat) (client : Client κ) : Table κ :=
  { T with clients := T.clients.set c client }

def modifyCount (T : Table κ) (f : Nat) (g : Nat → Nat) : Table κ :=
  { T with arcs := T.arcs.modify f fun a => (a.1, g a.2) }

/-- How many clients hold a reference to entry `f`. -/
def holders (T : Table κ) (f : Nat) : Nat :=
  T.clients.countP fun client => client.hold.lease = some f

end Table

/-- The one kind of step the discipline is about: client `c` runs its drop
body for entry `f`. -/
inductive Label where
  | dropBody (c f : Nat)
  | other

inductive Step : Table κ → Label → Table κ → Prop
  | enter {T : Table κ} (k : κ) :
      Step T .other { T with clients := T.clients ++ [⟨k, .idle⟩] }
  | join {T : Table κ} {c : Nat} {k : κ} {f : Nat} (hclient : T.clients[c]? = some ⟨k, .idle⟩)
      (hentry : T.entries.lookup k = some f) :
      Step T .other ((T.modifyCount f (· + 1)).setHold c ⟨k, .held f⟩)
  | create {T : Table κ} {c : Nat} {k : κ} (hclient : T.clients[c]? = some ⟨k, .idle⟩)
      (hentry : T.entries.lookup k = none) :
      Step T .other ({ T with
        entries := T.entries.insert k T.arcs.length
        arcs := T.arcs ++ [(k, 2)] }.setHold c ⟨k, .held T.arcs.length⟩)
  | takeOut {T : Table κ} {c : Nat} {k : κ} {f : Nat}
      (hclient : T.clients[c]? = some ⟨k, .held f⟩) (hentry : T.entries.lookup k = some f)
      (hcount : T.arcs[f]? = some (k, 2)) :
      Step T (.dropBody c f)
        (({ T with entries := T.entries.erase k }.modifyCount f (· - 1)).setHold c
          ⟨k, .dropping f⟩)
  | leaveIn {T : Table κ} {c : Nat} {k : κ} {f n : Nat}
      (hclient : T.clients[c]? = some ⟨k, .held f⟩) (hcount : T.arcs[f]? = some (k, n))
      (hkeep : ¬(T.entries.lookup k = some f ∧ n = 2)) :
      Step T (.dropBody c f) (T.setHold c ⟨k, .dropping f⟩)
  | release {T : Table κ} {c : Nat} {k : κ} {f : Nat}
      (hclient : T.clients[c]? = some ⟨k, .dropping f⟩) :
      Step T .other ((T.modifyCount f (· - 1)).setHold c ⟨k, .idle⟩)

/-- A drop body runs only when no other client holds the entry, or when
one of those has its body still to run. -/
def Disciplined (T : Table κ) : Label → Prop
  | .dropBody c f =>
      (∃ d client, d ≠ c ∧ T.clients[d]? = some client ∧ client.hold.lease = some f) →
        ∃ d client, d ≠ c ∧ T.clients[d]? = some client ∧ client.hold = .held f
  | .other => True

/-! ## Holders -/

section Holders

variable {T : Table κ} {c f : Nat} {client : Client κ}

omit [DecidableEq κ] in
theorem lt_of_client (h : T.clients[c]? = some client) : c < T.clients.length :=
  (List.getElem?_eq_some_iff.mp h).1

omit [DecidableEq κ] in
/-- The count after one client changed what it holds. -/
theorem holders_set (h : T.clients[c]? = some client) (new : Client κ) (g : Nat) :
    (T.setHold c new).holders g + (if client.hold.lease = some g then 1 else 0)
      = T.holders g + if new.hold.lease = some g then 1 else 0 := by
  obtain ⟨hc, rfl⟩ := List.getElem?_eq_some_iff.mp h
  have hpos : T.clients[c].hold.lease = some g → 0 < T.holders g := fun hg =>
    List.countP_pos_iff.mpr ⟨_, List.getElem_mem hc, by simpa using hg⟩
  rw [Table.holders, Table.setHold, List.countP_set hc]
  simp only [decide_eq_true_eq]
  rw [← Table.holders]
  split <;> rename_i hg
  · have := hpos hg
    omega
  · omega

omit [DecidableEq κ] in
/-- One of two holders is another client. -/
theorem exists_other_holder (h : T.clients[c]? = some client)
    (hlease : client.hold.lease = some f) (hcount : 2 ≤ T.holders f) :
    ∃ d other, d ≠ c ∧ T.clients[d]? = some other ∧ other.hold.lease = some f := by
  have hset := holders_set h ⟨client.key, .idle⟩ f
  rw [if_pos hlease, if_neg (by simp [Hold.lease])] at hset
  have hpos : 0 < (T.setHold c ⟨client.key, .idle⟩).holders f := by omega
  obtain ⟨other, hmem, hother⟩ := List.countP_pos_iff.mp hpos
  obtain ⟨d, hd⟩ := List.getElem?_of_mem hmem
  have hother : other.hold.lease = some f := by simpa using hother
  rw [Table.setHold, List.getElem?_set] at hd
  by_cases hdc : c = d
  · rw [if_pos hdc, if_pos (lt_of_client h)] at hd
    obtain rfl := Option.some.inj hd
    cases hother
  · rw [if_neg hdc] at hd
    exact ⟨d, other, fun h => hdc h.symm, hd, hother⟩

omit [DecidableEq κ] in
/-- A client other than `c` is still there after `c` changed. -/
theorem mem_setHold_of_ne {d : Nat} {other : Client κ} (hd : d ≠ c)
    (h : T.clients[d]? = some other) (new : Client κ) : other ∈ (T.setHold c new).clients := by
  refine List.mem_of_getElem? (i := d) ?_
  rw [Table.setHold, List.getElem?_set_ne (Ne.symm hd)]
  exact h

end Holders

/-! ## The invariant -/

structure Counted (T : Table κ) : Prop where
  /-- A count is the table's own reference and the clients'. -/
  count : ∀ f k n, T.arcs[f]? = some (k, n) →
    n = (if T.entries.lookup k = some f then 1 else 0) + T.holders f
  /-- An entry in the table has the key it is stored under. -/
  key : ∀ k f, T.entries.lookup k = some f → ∃ n, T.arcs[f]? = some (k, n)
  /-- A client holds an entry of its own key. -/
  client : ∀ client ∈ T.clients, ∀ f, client.hold.lease = some f →
    ∃ n, T.arcs[f]? = some (client.key, n)

/-- Of every entry in the table, some client has its drop body to run. -/
def Watched (T : Table κ) : Prop :=
  ∀ k f, T.entries.lookup k = some f → ∃ client ∈ T.clients, client.hold = .held f

theorem Counted.empty : Counted (⟨∅, [], []⟩ : Table κ) where
  count := fun _ _ _ h => by simp at h
  key := fun _ _ h => by simp at h
  client := fun _ h => by simp at h

theorem Watched.empty : Watched (⟨∅, [], []⟩ : Table κ) := fun _ _ h => by simp at h

omit [DecidableEq κ] in
theorem arcs_modifyCount {T : Table κ} {f i n : Nat} {k : κ} {g : Nat → Nat} :
    (T.modifyCount f g).arcs[i]? = some (k, n) ↔
      ∃ m, T.arcs[i]? = some (k, m) ∧ n = if f = i then g m else m := by
  rw [Table.modifyCount, List.getElem?_modify]
  cases h : T.arcs[i]? with
  | none => simp
  | some a =>
      obtain ⟨k', m⟩ := a
      by_cases hf : f = i <;> simp [hf, eq_comm]

omit [DecidableEq κ] in
/-- Counting does not change the key of an entry. -/
theorem exists_modifyCount {T : Table κ} {i : Nat} {k : κ} (f : Nat) (g : Nat → Nat)
    (h : ∃ n, T.arcs[i]? = some (k, n)) : ∃ n, (T.modifyCount f g).arcs[i]? = some (k, n) := by
  obtain ⟨m, hm⟩ := h
  exact ⟨_, arcs_modifyCount.mpr ⟨m, hm, rfl⟩⟩

section Frames

variable (T : Table κ) (c f i : Nat) (g : Nat → Nat) (new : Client κ)

omit [DecidableEq κ]

@[simp] theorem holders_modifyCount : (T.modifyCount f g).holders i = T.holders i := rfl

@[simp] theorem entries_modifyCount : (T.modifyCount f g).entries = T.entries := rfl

@[simp] theorem clients_modifyCount : (T.modifyCount f g).clients = T.clients := rfl

@[simp] theorem entries_setHold : (T.setHold c new).entries = T.entries := rfl

@[simp] theorem arcs_setHold : (T.setHold c new).arcs = T.arcs := rfl

end Frames

/-! ## One step keeps it -/

section Steps

variable {T : Table κ} {c f n : Nat} {k : κ}

theorem Counted.key_lt (h : Counted T) (hentry : T.entries.lookup k = some f) :
    f < T.arcs.length := by
  obtain ⟨n, hn⟩ := h.key k f hentry
  exact (List.getElem?_eq_some_iff.mp hn).1

theorem Counted.enter (h : Counted T) (k : κ) :
    Counted { T with clients := T.clients ++ [⟨k, .idle⟩] } where
  count := fun f k' n hn => by
    rw [h.count f k' n hn, Table.holders, Table.holders, List.countP_append]
    simp [Hold.lease]
  key := h.key
  client := fun client hmem f hlease => by
    rcases List.mem_append.mp hmem with hmem | hmem
    · exact h.client client hmem f hlease
    · obtain rfl := List.mem_singleton.mp hmem
      cases hlease

theorem Counted.join (h : Counted T) (hclient : T.clients[c]? = some ⟨k, .idle⟩)
    (hentry : T.entries.lookup k = some f) :
    Counted ((T.modifyCount f (· + 1)).setHold c ⟨k, .held f⟩) where
  count := fun g k' n hn => by
    rw [arcs_setHold] at hn
    obtain ⟨m, hm, rfl⟩ := arcs_modifyCount.mp hn
    have hold := h.count g k' m hm
    have hset := holders_set (T := T.modifyCount f (· + 1)) hclient ⟨k, .held f⟩ g
    simp only [Hold.lease, holders_modifyCount, reduceCtorEq, if_false, Option.some.injEq] at hset
    rw [entries_setHold, entries_modifyCount]
    split at hset <;> rename_i hg
    · rw [if_pos hg]
      omega
    · rw [if_neg hg]
      omega
  key := fun k' g hg => by
    exact exists_modifyCount f _ (h.key k' g hg)
  client := fun client hmem g hlease => by
    rcases List.mem_or_eq_of_mem_set hmem with hmem | rfl
    · exact exists_modifyCount f _ (h.client client hmem g hlease)
    · obtain rfl := Option.some.inj hlease
      exact exists_modifyCount f _ (h.key k f hentry)

/-- Nobody holds an entry that was not yet opened. -/
theorem Counted.holders_fresh (h : Counted T) : T.holders T.arcs.length = 0 := by
  refine List.countP_eq_zero.mpr fun client hmem hlease => ?_
  obtain ⟨n, hn⟩ := h.client client hmem T.arcs.length (by simpa using hlease)
  simp at hn

theorem Counted.create (h : Counted T) (hclient : T.clients[c]? = some ⟨k, .idle⟩)
    (hentry : T.entries.lookup k = none) :
    Counted ({ T with
      entries := T.entries.insert k T.arcs.length
      arcs := T.arcs ++ [(k, 2)] }.setHold c ⟨k, .held T.arcs.length⟩) where
  count := fun g k' n hn => by
    have hset := holders_set hclient ⟨k, .held T.arcs.length⟩ g
    simp only [Hold.lease, reduceCtorEq, if_false, Option.some.injEq] at hset
    rw [entries_setHold]
    change n = _ + (T.setHold c ⟨k, .held T.arcs.length⟩).holders g
    simp only [arcs_setHold] at hn
    rcases Nat.lt_or_ge g T.arcs.length with hg | hg
    · rw [List.getElem?_append_left hg] at hn
      have hold := h.count g k' n hn
      rw [if_neg (by omega)] at hset
      by_cases hk : k' = k
      · subst hk
        rw [hentry, if_neg (by simp)] at hold
        rw [AList.lookup_insert, if_neg (by simp; omega)]
        omega
      · rw [AList.lookup_insert_ne hk]
        omega
    · rw [List.getElem?_append_right hg] at hn
      have hg' : g = T.arcs.length := by
        have := (List.getElem?_eq_some_iff.mp hn).1
        simp at this
        omega
      subst hg'
      have hfresh := h.holders_fresh
      simp only [Nat.sub_self, List.getElem?_cons_zero, Option.some.injEq, Prod.mk.injEq] at hn
      obtain ⟨rfl, rfl⟩ := hn
      rw [if_pos rfl] at hset
      rw [AList.lookup_insert, if_pos rfl]
      omega
  key := fun k' g hg => by
    simp only [entries_setHold] at hg
    simp only [arcs_setHold]
    by_cases hk : k' = k
    · subst hk
      rw [AList.lookup_insert] at hg
      obtain rfl := Option.some.inj hg
      exact ⟨2, by simp⟩
    · rw [AList.lookup_insert_ne hk] at hg
      obtain ⟨m, hm⟩ := h.key k' g hg
      exact ⟨m, by rw [List.getElem?_append_left (h.key_lt hg), hm]⟩
  client := fun client hmem g hlease => by
    simp only [arcs_setHold]
    rcases List.mem_or_eq_of_mem_set hmem with hmem | rfl
    · obtain ⟨m, hm⟩ := h.client client hmem g hlease
      exact ⟨m, by rw [List.getElem?_append_left (List.getElem?_eq_some_iff.mp hm).1, hm]⟩
    · obtain rfl := Option.some.inj hlease
      exact ⟨2, by simp⟩

omit [DecidableEq κ] in
/-- Running a drop body does not change who holds references. -/
theorem holders_drop (hclient : T.clients[c]? = some ⟨k, .held f⟩) (g : Nat) :
    (T.setHold c ⟨k, .dropping f⟩).holders g = T.holders g := by
  have hset := holders_set hclient ⟨k, .dropping f⟩ g
  exact Nat.add_right_cancel hset

theorem Counted.client_setHold (h : Counted T) (hclient : T.clients[c]? = some ⟨k, .held f⟩) :
    ∀ client ∈ (T.setHold c ⟨k, .dropping f⟩).clients, ∀ g, client.hold.lease = some g →
      ∃ n, T.arcs[g]? = some (client.key, n) := by
  intro client hmem g hlease
  rcases List.mem_or_eq_of_mem_set hmem with hmem | rfl
  · exact h.client client hmem g hlease
  · exact h.client ⟨k, .held f⟩ (List.mem_of_getElem? hclient) g hlease

theorem Counted.takeOut (h : Counted T) (hclient : T.clients[c]? = some ⟨k, .held f⟩)
    (hentry : T.entries.lookup k = some f) (hcount : T.arcs[f]? = some (k, 2)) :
    Counted (({ T with entries := T.entries.erase k }.modifyCount f (· - 1)).setHold c
      ⟨k, .dropping f⟩) where
  count := fun g k' n hn => by
    rw [arcs_setHold] at hn
    obtain ⟨m, hm, rfl⟩ := arcs_modifyCount.mp hn
    have hold := h.count g k' m hm
    rw [entries_setHold, entries_modifyCount]
    change _ = _ + (T.setHold c ⟨k, .dropping f⟩).holders g
    rw [holders_drop hclient]
    by_cases hk : k' = k
    · subst hk
      simp only [AList.lookup_erase, reduceCtorEq, if_false]
      rw [hentry] at hold
      by_cases hg : f = g
      · rw [if_pos hg]
        rw [if_pos (by rw [hg])] at hold
        omega
      · rw [if_neg hg]
        rw [if_neg (by simpa using hg)] at hold
        omega
    · have hg : f ≠ g := by
        rintro rfl
        rw [hcount] at hm
        exact hk (Prod.mk.inj (Option.some.inj hm)).1.symm
      rw [AList.lookup_erase_ne hk, if_neg hg, hold]
  key := fun k' g hg => by
    rw [entries_setHold, entries_modifyCount] at hg
    by_cases hk : k' = k
    · subst hk
      rw [AList.lookup_erase] at hg
      cases hg
    · rw [AList.lookup_erase_ne hk] at hg
      exact exists_modifyCount f (· - 1) (h.key k' g hg)
  client := fun client hmem g hlease => by
    exact exists_modifyCount f (· - 1) (h.client_setHold hclient client hmem g hlease)

theorem Counted.leaveIn (h : Counted T) (hclient : T.clients[c]? = some ⟨k, .held f⟩) :
    Counted (T.setHold c ⟨k, .dropping f⟩) where
  count := fun g k' m hm => by
    rw [holders_drop hclient]
    exact h.count g k' m hm
  key := h.key
  client := h.client_setHold hclient

theorem Counted.release (h : Counted T) (hclient : T.clients[c]? = some ⟨k, .dropping f⟩) :
    Counted ((T.modifyCount f (· - 1)).setHold c ⟨k, .idle⟩) where
  count := fun g k' n hn => by
    rw [arcs_setHold] at hn
    obtain ⟨m, hm, rfl⟩ := arcs_modifyCount.mp hn
    have hold := h.count g k' m hm
    have hset := holders_set (T := T.modifyCount f (· - 1)) hclient ⟨k, .idle⟩ g
    simp only [Hold.lease, holders_modifyCount, reduceCtorEq, if_false, Option.some.injEq] at hset
    rw [entries_setHold, entries_modifyCount]
    split at hset <;> rename_i hg
    · rw [if_pos hg]
      omega
    · rw [if_neg hg]
      omega
  key := fun k' g hg => by
    exact exists_modifyCount f (· - 1) (h.key k' g hg)
  client := fun client hmem g hlease => by
    rcases List.mem_or_eq_of_mem_set hmem with hmem | rfl
    · exact exists_modifyCount f (· - 1) (h.client client hmem g hlease)
    · cases hlease

/-- Every step keeps the counts right. -/
theorem Counted.step {T' : Table κ} {l : Label} (h : Counted T) (hstep : Step T l T') :
    Counted T' := by
  cases hstep with
  | enter k => exact h.enter k
  | join hclient hentry => exact h.join hclient hentry
  | create hclient hentry => exact h.create hclient hentry
  | takeOut hclient hentry hcount => exact h.takeOut hclient hentry hcount
  | leaveIn hclient hcount hkeep => exact h.leaveIn hclient
  | release hclient => exact h.release hclient

/-! ## One entry for a key -/

/-- A client whose drop body has not run finds its entry in the table. -/
def Listed (T : Table κ) : Prop :=
  ∀ client ∈ T.clients, ∀ f, client.hold = .held f → T.entries.lookup client.key = some f

theorem Listed.empty : Listed (⟨∅, [], []⟩ : Table κ) := fun _ h => by simp at h

/-- A client that is told by what it holds, among the clients after one of
them changed. -/
theorem Listed.setHold (hl : Listed T) {T' : Table κ} {new : Client κ}
    (hclients : T'.clients = T.clients.set c new)
    (hnew : ∀ g, new.hold = .held g → T'.entries.lookup new.key = some g)
    (hother : ∀ d client g, d ≠ c → T.clients[d]? = some client → client.hold = .held g →
      T.entries.lookup client.key = some g → T'.entries.lookup client.key = some g) :
    Listed T' := by
  intro client hmem g hheld
  rw [hclients] at hmem
  obtain ⟨d, hd⟩ := List.getElem?_of_mem hmem
  rw [List.getElem?_set] at hd
  by_cases hdc : c = d
  · rw [if_pos hdc] at hd
    split_ifs at hd
    obtain rfl := Option.some.inj hd
    exact hnew g hheld
  · rw [if_neg hdc] at hd
    exact hother d client g (Ne.symm hdc) hd hheld (hl client (List.mem_of_getElem? hd) g hheld)

/-- Only the last client takes an entry out, so all others keep theirs. -/
theorem Listed.step {T' : Table κ} {l : Label} (hl : Listed T) (h : Counted T)
    (hstep : Step T l T') : Listed T' := by
  cases hstep with
  | enter k =>
    intro client hmem g hheld
    rcases List.mem_append.mp hmem with hmem | hmem
    · exact hl client hmem g hheld
    · obtain rfl := List.mem_singleton.mp hmem
      cases hheld
  | join hclient hentry =>
    refine hl.setHold rfl (fun g hg => ?_) fun _ _ _ _ _ _ hlookup => hlookup
    cases hg
    exact hentry
  | @create c k hclient hentry =>
    refine hl.setHold rfl (fun g hg => ?_) fun d client g _ _ _ hlookup => ?_
    · cases hg
      exact AList.lookup_insert _
    · have hne : client.key ≠ k := by
        intro hkey
        rw [hkey, hentry] at hlookup
        cases hlookup
      exact (AList.lookup_insert_ne hne).trans hlookup
  | @takeOut c k f hclient hentry hcount =>
    have hone : T.holders f = 1 := by
      have hcounted := h.count f k 2 hcount
      rw [if_pos hentry] at hcounted
      omega
    refine hl.setHold rfl (fun g hg => by cases hg) fun d client g hd hother hheld hlookup => ?_
    have hne : client.key ≠ k := by
      intro hkey
      rw [hkey, hentry] at hlookup
      obtain rfl := Option.some.inj hlookup
      have hset := holders_set hclient ⟨k, .idle⟩ f
      rw [if_pos (by simp [Hold.lease]), if_neg (by simp [Hold.lease]), hone] at hset
      have hpos : 0 < (T.setHold c ⟨k, .idle⟩).holders f :=
        List.countP_pos_iff.mpr ⟨client, mem_setHold_of_ne hd hother _, by simp [hheld, Hold.lease]⟩
      omega
    exact (AList.lookup_erase_ne hne).trans hlookup
  | leaveIn hclient hcount hkeep =>
    exact hl.setHold rfl (fun g hg => by cases hg) fun _ _ _ _ _ _ hlookup => hlookup
  | release hclient =>
    exact hl.setHold rfl (fun g hg => by cases hg) fun _ _ _ _ _ _ hlookup => hlookup

/-! ## Under the discipline -/

/-- A watcher of `g` other than client `c` is still there after `c` changed. -/
theorem Watched.after (hw : Watched T) {old : Client κ} (hclient : T.clients[c]? = some old)
    (new : Client κ) {g : Nat} {k' : κ} (hentry : T.entries.lookup k' = some g)
    (hold : old.hold ≠ .held g) :
    ∃ client ∈ (T.setHold c new).clients, client.hold = .held g := by
  obtain ⟨client, hmem, hheld⟩ := hw k' g hentry
  obtain ⟨d, hd⟩ := List.getElem?_of_mem hmem
  refine ⟨client, mem_setHold_of_ne ?_ hd new, hheld⟩
  rintro rfl
  rw [hclient] at hd
  exact hold (Option.some.inj hd ▸ hheld)

theorem Watched.takeOut (hw : Watched T) (h : Counted T)
    (hclient : T.clients[c]? = some ⟨k, .held f⟩) (hcount : T.arcs[f]? = some (k, 2)) :
    Watched (({ T with entries := T.entries.erase k }.modifyCount f (· - 1)).setHold c
      ⟨k, .dropping f⟩) := by
  intro k' g hg
  rw [entries_setHold, entries_modifyCount] at hg
  by_cases hk : k' = k
  · subst hk
    rw [AList.lookup_erase] at hg
    cases hg
  · rw [AList.lookup_erase_ne hk] at hg
    refine hw.after hclient _ hg fun hheld => hk ?_
    obtain rfl : f = g := by simpa using hheld
    obtain ⟨m, hm⟩ := h.key k' f hg
    rw [hcount] at hm
    exact (Prod.mk.inj (Option.some.inj hm)).1.symm

/-- The body leaves the entry in: someone else holds it, and by the
discipline another body will see to it. -/
theorem Watched.leaveIn (hw : Watched T) (h : Counted T)
    (hclient : T.clients[c]? = some ⟨k, .held f⟩) (hcount : T.arcs[f]? = some (k, n))
    (hkeep : ¬(T.entries.lookup k = some f ∧ n = 2)) (hd : Disciplined T (.dropBody c f)) :
    Watched (T.setHold c ⟨k, .dropping f⟩) := by
  intro k' g hg
  rw [entries_setHold] at hg
  by_cases hgf : g = f
  · subst hgf
    obtain ⟨m, hm⟩ := h.key k' g hg
    obtain rfl : k = k' := by
      rw [hcount] at hm
      exact (Prod.mk.inj (Option.some.inj hm)).1
    have hn := h.count g k n hcount
    rw [if_pos hg] at hn
    have htwo : n ≠ 2 := fun hn => hkeep ⟨hg, hn⟩
    have hpos : 0 < T.holders g :=
      List.countP_pos_iff.mpr ⟨_, List.mem_of_getElem? hclient, by simp [Hold.lease]⟩
    obtain ⟨d, other, hdc, hother, hheld⟩ := hd (exists_other_holder hclient rfl (by omega))
    exact ⟨other, mem_setHold_of_ne hdc hother _, hheld⟩
  · exact hw.after hclient _ hg (by simpa using fun hfg : f = g => hgf hfg.symm)

/-- A disciplined step keeps every entry watched. -/
theorem Watched.step {T' : Table κ} {l : Label} (hw : Watched T) (h : Counted T)
    (hstep : Step T l T') (hd : Disciplined T l) : Watched T' := by
  cases hstep with
  | enter k =>
      intro k' f hentry
      obtain ⟨client, hmem, hheld⟩ := hw k' f hentry
      exact ⟨client, List.mem_append_left _ hmem, hheld⟩
  | join hclient hentry => exact fun k' g hg => hw.after hclient _ hg (by simp)
  | @create c k hclient hentry =>
      intro k' g hg
      rw [entries_setHold] at hg
      by_cases hk : k' = k
      · subst hk
        rw [AList.lookup_insert] at hg
        obtain rfl := Option.some.inj hg
        exact ⟨_, List.mem_set (lt_of_client hclient) _, rfl⟩
      · rw [AList.lookup_insert_ne hk] at hg
        exact hw.after hclient _ hg (by simp)
  | takeOut hclient hentry hcount => exact hw.takeOut h hclient hcount
  | leaveIn hclient hcount hkeep => exact hw.leaveIn h hclient hcount hkeep hd
  | release hclient => exact fun k' g hg => hw.after hclient _ hg (by simp)

end Steps

/-- Without a client that holds an entry of `k`, the table has none. -/
theorem lookup_eq_none {T : Table κ} (h : Counted T) (hw : Watched T) {k : κ}
    (hidle : ∀ client ∈ T.clients, client.key = k → client.hold.lease = none) :
    T.entries.lookup k = none := by
  cases hentry : T.entries.lookup k with
  | none => rfl
  | some f =>
      obtain ⟨client, hmem, hheld⟩ := hw k f hentry
      have hlease : client.hold.lease = some f := by rw [hheld]; rfl
      obtain ⟨m, hm⟩ := h.key k f hentry
      obtain ⟨m', hm'⟩ := h.client client hmem f hlease
      rw [hm] at hm'
      have hkey : client.key = k := (Prod.mk.inj (Option.some.inj hm')).1.symm
      rw [hidle client hmem hkey] at hlease
      cases hlease

end LeaseTable
