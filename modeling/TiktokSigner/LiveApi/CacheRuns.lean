import TiktokSigner.LiveApi.RoomCache
import TiktokSigner.Lib.Lts
import TiktokSigner.Lib.BoundedMap
import Mathlib.Data.List.Induction

/-!
# The room cache over whole runs

Every operation of `RoomCache` holds the map's lock from its first reading
of the clock to its last, so a run is a list of operations. `put` reads the
clock twice, for its sweep and for the new entry; `put_eq_putAt` says that
`RoomCache.put` is the case in which both readings agree.

The abstract side is the last thing that happened to each key
(`latest`): the value and the time of the latest `put`, or nothing after an
`invalidate`. The cache holds a part of it (`Holds`).
-/

namespace TiktokSigner

namespace RoomCache

/-- The map in which `put` inserts: swept, and short of one entry when it
was full. -/
def makeRoom (self : RoomCache) (swept : Nat) (uniqueId : String) (next : Option String) :
    AList fun _ : String => CacheEntry :=
  let entries := pruneExpired swept self.entries
  if self.capacity ≤ entries.keys.length ∧ uniqueId ∉ entries then
    match next with
    | some key => entries.erase key
    | none => entries
  else entries

/-- `put`, with the readings of the clock by `prune_expired` and for
`expires_at`. -/
def putAt (self : RoomCache) (swept inserted : Nat) (uniqueId : String) (value : RoomResolution)
    (next : Option String) : RoomCache :=
  { self with
    entries := (self.makeRoom swept uniqueId next).insert uniqueId
      ⟨value, inserted + self.ttl value⟩ }

theorem put_eq_putAt (self : RoomCache) (now : Nat) (uniqueId : String) (value : RoomResolution)
    (next : Option String) :
    self.put now uniqueId value next = self.putAt now now uniqueId value next := rfl

def len (self : RoomCache) (now : Nat) : Nat × RoomCache :=
  let entries := pruneExpired now self.entries
  (entries.keys.length, { self with entries })

/-! ## Runs -/

/-- An operation with its readings of the clock; `next` is the key an
eviction takes. -/
inductive Op where
  | get (now : Nat) (uniqueId : String)
  | put (swept inserted : Nat) (uniqueId : String) (value : RoomResolution) (next : Option String)
  | invalidate (uniqueId : String)
  | len (now : Nat)
deriving DecidableEq

/-- The cache and the last reading of the clock. -/
structure Clocked where
  cache : RoomCache
  now : Nat

/-- The clock never goes back. -/
def step (s : Clocked) : Op → Option Clocked
  | .get now uniqueId => if s.now ≤ now then some ⟨(s.cache.get now uniqueId).2, now⟩ else none
  | .put swept inserted uniqueId value next =>
      if s.now ≤ swept ∧ swept ≤ inserted ∧ IsNextKey (pruneExpired swept s.cache.entries) next then
        some ⟨s.cache.putAt swept inserted uniqueId value next, inserted⟩
      else none
  | .invalidate uniqueId => some ⟨s.cache.invalidate uniqueId, s.now⟩
  | .len now => if s.now ≤ now then some ⟨(s.cache.len now).2, now⟩ else none

/-! ## The latest of each key -/

/-- Per key, the value of the latest `put` and when it was inserted. -/
abbrev Latest := String → Option (RoomResolution × Nat)

def Latest.after (latest : Latest) : Op → Latest
  | .put _ inserted uniqueId value _ => Function.update latest uniqueId (some (value, inserted))
  | .invalidate uniqueId => Function.update latest uniqueId none
  | .get _ _ | .len _ => latest

def latest (ops : List Op) : Latest := ops.foldl Latest.after fun _ => none

/-- The operation stores a value for the key or takes it away. -/
def Op.Touches (uniqueId : String) : Op → Prop
  | .put _ _ key _ _ | .invalidate key => key = uniqueId
  | .get _ _ | .len _ => False

instance (uniqueId : String) (op : Op) : Decidable (op.Touches uniqueId) :=
  match op with
  | .put _ _ key _ _ => inferInstanceAs (Decidable (key = uniqueId))
  | .invalidate key => inferInstanceAs (Decidable (key = uniqueId))
  | .get _ _ | .len _ => .isFalse id

theorem after_of_not_touches {m : Latest} {op : Op} {uniqueId : String}
    (h : ¬op.Touches uniqueId) : m.after op uniqueId = m uniqueId := by
  cases op with
  | put _ inserted key value _ => exact Function.update_of_ne (Ne.symm h) _ _
  | invalidate key => exact Function.update_of_ne (Ne.symm h) _ _
  | get _ _ => rfl
  | len _ => rfl

theorem latest_concat (ops : List Op) (op : Op) :
    latest (ops ++ [op]) = (latest ops).after op := by
  rw [latest, List.foldl_append]
  rfl

/-- The latest value of a key is that of a `put`, and nothing after that
`put` touches the key. -/
theorem latest_eq_some {ops : List Op} {uniqueId : String} {value : RoomResolution}
    {inserted : Nat} (h : latest ops uniqueId = some (value, inserted)) :
    ∃ before swept next after,
      ops = before ++ .put swept inserted uniqueId value next :: after
        ∧ ∀ op ∈ after, ¬op.Touches uniqueId := by
  induction ops using List.reverseRecOn with
  | nil => cases h
  | append_singleton ops op ih =>
    rw [latest_concat] at h
    by_cases htouches : op.Touches uniqueId
    · cases op with
      | put swept at' key value' next =>
        obtain rfl : key = uniqueId := htouches
        rw [Latest.after, Function.update_self] at h
        cases h
        exact ⟨ops, swept, next, [], rfl, fun _ hop => absurd hop List.not_mem_nil⟩
      | invalidate key =>
        obtain rfl : key = uniqueId := htouches
        rw [Latest.after, Function.update_self] at h
        cases h
      | get _ _ => exact htouches.elim
      | len _ => exact htouches.elim
    · rw [after_of_not_touches htouches] at h
      obtain ⟨before, swept, next, after, rfl, hafter⟩ := ih h
      refine ⟨before, swept, next, after ++ [op], by simp, ?_⟩
      intro op' hop'
      rcases List.mem_append.mp hop' with hmem | hmem
      · exact hafter op' hmem
      · rwa [List.mem_singleton.mp hmem]

/-! ## The entries after an operation -/

section Entries

variable {entries : AList fun _ : String => CacheEntry} {now : Nat} {key : String}
  {entry : CacheEntry}

theorem pruneExpired_eq_retain :
    pruneExpired now entries = BoundedMap.retain (fun entry => now < entry.expiresAt) entries := rfl

theorem lookup_pruneExpired :
    (pruneExpired now entries).lookup key = some entry ↔
      entries.lookup key = some entry ∧ now < entry.expiresAt := by
  rw [pruneExpired_eq_retain, BoundedMap.lookup_retain, decide_eq_true_iff]

theorem length_pruneExpired_le : (pruneExpired now entries).keys.length ≤ entries.keys.length := by
  rw [pruneExpired_eq_retain]
  exact BoundedMap.length_retain_le

theorem lookup_of_lookup_erase {other : String}
    (h : (entries.erase other).lookup key = some entry) : entries.lookup key = some entry := by
  by_cases heq : key = other
  · subst heq
    rw [AList.lookup_erase] at h
    cases h
  · rwa [AList.lookup_erase_ne heq] at h

theorem length_erase_le : (entries.erase key).keys.length ≤ entries.keys.length := by
  rw [AList.keys_erase]
  exact List.length_erase_le

theorem mem_of_isNextKey {next : Option String} (hnext : IsNextKey entries next)
    (hfull : 0 < entries.keys.length) : ∃ victim, next = some victim ∧ victim ∈ entries := by
  cases next with
  | none =>
    rw [show entries.keys = [] from hnext] at hfull
    exact absurd hfull (Nat.lt_irrefl 0)
  | some victim => exact ⟨victim, rfl, hnext⟩

end Entries

/-! ## What holds after every operation -/

section MakeRoom

variable {self : RoomCache} {swept : Nat} {uniqueId key : String} {next : Option String}
  {entry : CacheEntry}

theorem lookup_of_lookup_makeRoom
    (h : (self.makeRoom swept uniqueId next).lookup key = some entry) :
    self.entries.lookup key = some entry := by
  have hpruned : ∀ {victim : String}, ((pruneExpired swept self.entries).erase victim).lookup key =
      some entry → self.entries.lookup key = some entry := fun h =>
    (lookup_pruneExpired.mp (lookup_of_lookup_erase h)).1
  unfold makeRoom at h
  dsimp only at h
  split at h
  · cases next with
    | none => exact (lookup_pruneExpired.mp h).1
    | some victim => exact hpruned h
  · exact (lookup_pruneExpired.mp h).1

/-- With room left nothing but expired entries goes. -/
theorem makeRoom_of_room (h : uniqueId ∈ pruneExpired swept self.entries
      ∨ (pruneExpired swept self.entries).keys.length < self.capacity) :
    self.makeRoom swept uniqueId next = pruneExpired swept self.entries := by
  unfold makeRoom
  refine if_neg ?_
  rintro ⟨hfull, hnew⟩
  rcases h with hmem | hlt
  · exact hnew hmem
  · exact Nat.not_lt.mpr hfull hlt

/-- After `makeRoom` the new entry fits. -/
theorem makeRoom_fits (hpos : 0 < self.capacity) (hlen : self.entries.keys.length ≤ self.capacity)
    (hnext : IsNextKey (pruneExpired swept self.entries) next) :
    (self.makeRoom swept uniqueId next).keys.length ≤ self.capacity
      ∧ (uniqueId ∈ self.makeRoom swept uniqueId next
        ∨ (self.makeRoom swept uniqueId next).keys.length < self.capacity) := by
  have hpruned : (pruneExpired swept self.entries).keys.length ≤ self.capacity :=
    Nat.le_trans length_pruneExpired_le hlen
  by_cases hroom : uniqueId ∈ pruneExpired swept self.entries
      ∨ (pruneExpired swept self.entries).keys.length < self.capacity
  · rw [makeRoom_of_room hroom]
    exact ⟨hpruned, hroom⟩
  · obtain ⟨hnew, hfull⟩ := not_or.mp hroom
    have hfull := Nat.le_of_not_lt hfull
    obtain ⟨victim, rfl, hvictim⟩ := mem_of_isNextKey hnext (Nat.lt_of_lt_of_le hpos hfull)
    have hmade : self.makeRoom swept uniqueId (some victim) =
        (pruneExpired swept self.entries).erase victim := if_pos ⟨hfull, hnew⟩
    have hlt : ((pruneExpired swept self.entries).erase victim).keys.length < self.capacity := by
      rw [AList.keys_erase, List.length_erase_of_mem (AList.mem_keys.mp hvictim)]
      omega
    rw [hmade]
    exact ⟨Nat.le_of_lt hlt, Or.inr hlt⟩

end MakeRoom

/-- The cache holds, for some keys, the latest value of the key with the
expiry that its class gives it, and no more entries than its capacity. -/
structure Holds (latest : Latest) (s : Clocked) : Prop where
  entry : ∀ uniqueId entry, s.cache.entries.lookup uniqueId = some entry →
    ∃ inserted, latest uniqueId = some (entry.value, inserted) ∧ inserted ≤ s.now
      ∧ entry.expiresAt = inserted + s.cache.ttl entry.value
  bounded : s.cache.entries.keys.length ≤ s.cache.capacity
  capacity : 0 < s.cache.capacity

namespace Holds

variable {m : Latest} {s t : Clocked}

/-- Operations that only take entries away. -/
theorem shrink (h : Holds m s) {entries : AList fun _ : String => CacheEntry} {now : Nat}
    (hnow : s.now ≤ now) (hlen : entries.keys.length ≤ s.cache.entries.keys.length)
    (hsub : ∀ key entry, entries.lookup key = some entry →
      s.cache.entries.lookup key = some entry) :
    Holds m ⟨{ s.cache with entries }, now⟩ where
  entry := fun key entry hentry => by
    obtain ⟨inserted, hlatest, hle, hexpires⟩ := h.entry key entry (hsub key entry hentry)
    exact ⟨inserted, hlatest, Nat.le_trans hle hnow, hexpires⟩
  bounded := Nat.le_trans hlen h.bounded
  capacity := h.capacity

theorem get (h : Holds m s) {now : Nat} (hnow : s.now ≤ now) (uniqueId : String) :
    Holds m ⟨(s.cache.get now uniqueId).2, now⟩ := by
  have hsame : Holds m ⟨s.cache, now⟩ := h.shrink hnow (Nat.le_refl _) fun _ _ hentry => hentry
  rw [RoomCache.get]
  split
  · exact hsame
  · split
    · exact h.shrink hnow length_erase_le fun _ _ => lookup_of_lookup_erase
    · exact hsame

theorem put (h : Holds m s) {swept inserted : Nat} {uniqueId : String} {value : RoomResolution}
    {next : Option String} (hswept : s.now ≤ swept) (hinserted : swept ≤ inserted)
    (hnext : IsNextKey (pruneExpired swept s.cache.entries) next) :
    Holds (m.after (.put swept inserted uniqueId value next))
      ⟨s.cache.putAt swept inserted uniqueId value next, inserted⟩ := by
  obtain ⟨hlen, hroom⟩ := makeRoom_fits h.capacity h.bounded hnext
  constructor
  · intro key entry hentry
    by_cases heq : key = uniqueId
    · subst heq
      rw [putAt, AList.lookup_insert] at hentry
      cases hentry
      exact ⟨inserted, Function.update_self .., Nat.le_refl _, rfl⟩
    · rw [putAt, AList.lookup_insert_ne heq] at hentry
      obtain ⟨at', hlatest, hle, hexpires⟩ := h.entry key entry (lookup_of_lookup_makeRoom hentry)
      refine ⟨at', ?_, Nat.le_trans hle (Nat.le_trans hswept hinserted), hexpires⟩
      rw [← hlatest]
      exact Function.update_of_ne heq _ _
  · exact BoundedMap.length_insert_le hroom hlen
  · exact h.capacity

theorem invalidate (h : Holds m s) (uniqueId : String) :
    Holds (m.after (.invalidate uniqueId)) ⟨s.cache.invalidate uniqueId, s.now⟩ := by
  constructor
  · intro key entry hentry
    by_cases heq : key = uniqueId
    · subst heq
      rw [RoomCache.invalidate, AList.lookup_erase] at hentry
      cases hentry
    · obtain ⟨inserted, hlatest, hrest⟩ := h.entry key entry (lookup_of_lookup_erase hentry)
      refine ⟨inserted, ?_, hrest⟩
      rw [← hlatest]
      exact Function.update_of_ne heq _ _
  · exact Nat.le_trans length_erase_le h.bounded
  · exact h.capacity

/-- One case for each operation. -/
theorem step (op : Op) (h : Holds m s) (hs : RoomCache.step s op = some t) :
    Holds (m.after op) t := by
  cases op with
  | get now uniqueId =>
    obtain ⟨hnow, ht⟩ := Option.ite_none_right_eq_some.mp hs
    cases ht
    exact h.get hnow uniqueId
  | put swept inserted uniqueId value next =>
    obtain ⟨⟨hswept, hinserted, hnext⟩, ht⟩ := Option.ite_none_right_eq_some.mp hs
    cases ht
    exact h.put hswept hinserted hnext
  | invalidate uniqueId =>
    cases hs
    exact h.invalidate uniqueId
  | len now =>
    obtain ⟨hnow, ht⟩ := Option.ite_none_right_eq_some.mp hs
    cases ht
    exact h.shrink hnow length_pruneExpired_le fun _ _ hentry => (lookup_pruneExpired.mp hentry).1

end Holds

/-- A key that is there keeps its place in the sweep, or makes room. -/
theorem room_of_mem {self : RoomCache} {now : Nat} {uniqueId : String}
    (hmem : uniqueId ∈ self.entries) (hlen : self.entries.keys.length ≤ self.capacity) :
    uniqueId ∈ pruneExpired now self.entries
      ∨ (pruneExpired now self.entries).keys.length < self.capacity := by
  obtain ⟨entry, hentry⟩ := Option.isSome_iff_exists.mp (AList.lookup_isSome.mpr hmem)
  by_cases hlive : now < entry.expiresAt
  · left
    rw [← AList.lookup_isSome, lookup_pruneExpired.mpr ⟨hentry, hlive⟩]
    rfl
  · right
    have hfewer : (pruneExpired now self.entries).entries.length < self.entries.entries.length :=
      List.length_filter_lt_length_iff_exists.mpr
        ⟨⟨uniqueId, entry⟩, AList.mem_lookup_iff.mp hentry, by simpa using hlive⟩
    refine Nat.lt_of_lt_of_le ?_ hlen
    simpa [AList.keys, List.keys] using hfewer

/-- The TTLs and the capacity are those the cache was made with. -/
theorem config_of_run {s t : Clocked} {ops : List Op} (hrun : Lts.run step s ops = some t) :
    t.cache.ttl = s.cache.ttl ∧ t.cache.capacity = s.cache.capacity := by
  refine Lts.run_invariant_all
    (I := fun t => t.cache.ttl = s.cache.ttl ∧ t.cache.capacity = s.cache.capacity)
    ?_ ⟨rfl, rfl⟩ hrun
  intro u op u' hu hs
  cases op with
  | get now uniqueId =>
    obtain ⟨-, ht⟩ := Option.ite_none_right_eq_some.mp hs
    cases ht
    dsimp only
    rw [RoomCache.get]
    split
    · exact hu
    · split <;> exact hu
  | put _ _ _ _ _ =>
    obtain ⟨-, ht⟩ := Option.ite_none_right_eq_some.mp hs
    cases ht
    exact hu
  | invalidate _ =>
    cases hs
    exact hu
  | len _ =>
    obtain ⟨-, ht⟩ := Option.ite_none_right_eq_some.mp hs
    cases ht
    exact hu

/-! ## The law -/

section Law

variable (liveTtl offlineTtl notFoundTtl capacity start : Nat) (ops : List Op) (s : Clocked)

/-- In every run: a `get` that finds a value finds that of the key's latest
`put`, inserted less than the TTL of the value's class ago and with no
`invalidate` since; the entries never outnumber the capacity; and a `put`
for a key that is there, or with room after the sweep, takes away no other
key's unexpired entry. -/
theorem holds_over_runs
    (hrun : Lts.run step ⟨new liveTtl offlineTtl notFoundTtl capacity, start⟩ ops = some s) :
    (∀ now uniqueId value, s.now ≤ now → (s.cache.get now uniqueId).1 = some value →
      ∃ before swept inserted next after,
        ops = before ++ .put swept inserted uniqueId value next :: after
          ∧ (∀ op ∈ after, ¬op.Touches uniqueId)
          ∧ inserted ≤ now
          ∧ now - inserted < (new liveTtl offlineTtl notFoundTtl capacity).ttl value)
    ∧ s.cache.entries.keys.length ≤ max capacity 1
    ∧ ∀ swept inserted uniqueId value next t,
        step s (.put swept inserted uniqueId value next) = some t →
        uniqueId ∈ s.cache.entries
          ∨ (pruneExpired swept s.cache.entries).keys.length < s.cache.capacity →
        ∀ key entry, key ≠ uniqueId → s.cache.entries.lookup key = some entry →
          swept < entry.expiresAt → t.cache.entries.lookup key = some entry := by
  obtain ⟨httl, hcapacity⟩ := config_of_run hrun
  have hstart : Holds (fun _ => none) ⟨new liveTtl offlineTtl notFoundTtl capacity, start⟩ :=
    ⟨nofun, Nat.zero_le _, Nat.le_max_right capacity 1⟩
  have h : Holds (latest ops) s :=
    Lts.run_refines (fun m u op u' hu hs => Holds.step op hu hs) hstart hrun
  refine ⟨?_, ?_, ?_⟩
  · intro now uniqueId value hnow hget
    obtain ⟨entry, hentry, hlive, rfl⟩ := get_eq_some hget
    obtain ⟨inserted, hlatest, hle, hexpires⟩ := h.entry uniqueId entry hentry
    obtain ⟨before, swept, next, after, hops, hafter⟩ := latest_eq_some hlatest
    refine ⟨before, swept, inserted, next, after, hops, hafter, Nat.le_trans hle hnow, ?_⟩
    rw [hexpires, httl] at hlive
    exact Nat.sub_lt_left_of_lt_add (Nat.le_trans hle hnow) hlive
  · rw [← show s.cache.capacity = max capacity 1 from hcapacity]
    exact h.bounded
  · intro swept inserted uniqueId value next t hput hroom key entry hne hentry hlive
    obtain ⟨-, ht⟩ := Option.ite_none_right_eq_some.mp hput
    cases ht
    have hroom' : uniqueId ∈ pruneExpired swept s.cache.entries
        ∨ (pruneExpired swept s.cache.entries).keys.length < s.cache.capacity := by
      rcases hroom with hmem | hlt
      · exact room_of_mem hmem h.bounded
      · exact Or.inr hlt
    rw [putAt, makeRoom_of_room hroom', AList.lookup_insert_ne hne]
    exact lookup_pruneExpired.mpr ⟨hentry, hlive⟩

end Law

/-- A full cache of two: the third key evicts one, and the value found is
the latest of its key. -/
theorem holds_over_runs_of_full :
    ∃ s, Lts.run step ⟨new 30 30 10 2, 0⟩
        [.put 0 0 "a" .notFound none, .put 1 2 "b" (.offline none 4 "B") (some "a"),
          .put 3 3 "c" .notFound (some "a"), .get 4 "c"] = some s
      ∧ s.cache.entries.keys.length ≤ max 2 1
      ∧ ∃ before swept inserted next after,
        [Op.put 0 0 "a" .notFound none, .put 1 2 "b" (.offline none 4 "B") (some "a"),
            .put 3 3 "c" .notFound (some "a"), .get 4 "c"] =
          before ++ .put swept inserted "b" (.offline none 4 "B") next :: after
          ∧ (∀ op ∈ after, ¬op.Touches "b") ∧ inserted ≤ 20 ∧ 20 - inserted < 30 := by
  refine Lts.exists_run (P := fun s : Clocked =>
    s.now = 4 ∧ (s.cache.get 20 "b").1 = some (.offline none 4 "B")) (by decide) ?_
  rintro s hrun ⟨hnow, hget⟩
  obtain ⟨hfound, hlen, -⟩ := holds_over_runs 30 30 10 2 0 _ s hrun
  exact ⟨hlen, hfound 20 "b" _ (by rw [hnow]; decide) hget⟩

end RoomCache

end TiktokSigner
