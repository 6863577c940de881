import Mathlib.Data.List.AList

/-!
# Room resolutions and their cache

What the broker knows about a creator (`RoomResolution`, `ResolveFailure`,
`ApiError` and the conversions between them) and the short-lived, bounded
`RoomCache` from `uniqueId` to room.

A `HashMap` is an `AList`. Where the code takes "some key" of a map
(`entries.keys().next()`), the key is a parameter constrained by
`RoomCache.IsNextKey`, so that nothing depends on the hash order. Clock
readings and TTLs are natural numbers in one unit.
-/

namespace TiktokSigner

/-! ## Results and errors -/

inductive RoomResolution where
  | live (roomId : String) (status : Int64) (nickname : String)
  | offline (roomId : Option String) (status : Int64) (nickname : String)
  | notFound
deriving DecidableEq

/-- Discovery failures, reduced to transport-safe classes. -/
inductive ResolveFailure where
  | capacity
  | timeout
  | notFound (uniqueId : String)
  | status (status : UInt16) (message : String)
  | transport (message : String)
  | decode (message : String)
  | refused (message : String)
deriving DecidableEq

inductive ApiError where
  | invalidUniqueId
  | userNotFound
  | authenticationRequired
  | invalidApiKey
  | rateLimited (message : String) (retryAfterMs : UInt64)
  | discoveryFailed (message : String)
  | tikTokRefused (message : String)
  | signerUnavailable (message : String)
  | signFailed (message : String)
  | internal (message : String)
deriving DecidableEq

/-- `impl From<ResolveFailure> for ApiError`. -/
def ApiError.fromResolveFailure : ResolveFailure → ApiError
  | .capacity => .rateLimited "Discovery capacity is currently full" 500
  | .timeout => .discoveryFailed "TikTok discovery timed out"
  | .notFound _ => .userNotFound
  | .status status message =>
      if status = 429 then .rateLimited "TikTok discovery is rate limited" 1500
      else if status = 401 ∨ status = 403 ∨ status = 412 then
        .tikTokRefused s!"HTTP {status}: {message}"
      else .discoveryFailed s!"HTTP {status}: {message}"
  | .transport message => .discoveryFailed message
  | .decode message => .discoveryFailed message
  | .refused message => .tikTokRefused message

/-- What a flight's cell holds. -/
abbrev Answer := Except ResolveFailure RoomResolution

def valueToResult : RoomResolution → Except ApiError RoomResolution
  | .notFound => .error .userNotFound
  | other => .ok other

/-- The `match result` at the end of `resolve`. -/
def answerToResult : Answer → Except ApiError RoomResolution
  | .ok value => valueToResult value
  | .error error => .error (.fromResolveFailure error)

/-! ## The cache -/

structure CacheEntry where
  value : RoomResolution
  expiresAt : Nat
deriving DecidableEq

structure RoomCache where
  entries : AList fun _ : String => CacheEntry
  liveTtl : Nat
  offlineTtl : Nat
  notFoundTtl : Nat
  capacity : Nat
deriving DecidableEq

namespace RoomCache

/-- A capacity of zero is raised to one. -/
def new (liveTtl offlineTtl notFoundTtl capacity : Nat) : RoomCache :=
  { entries := ∅, liveTtl, offlineTtl, notFoundTtl, capacity := max capacity 1 }

/-- An expired entry is removed by the read that finds it. -/
def get (self : RoomCache) (now : Nat) (uniqueId : String) :
    Option RoomResolution × RoomCache :=
  match self.entries.lookup uniqueId with
  | none => (none, self)
  | some entry =>
      if entry.expiresAt ≤ now then
        (none, { self with entries := self.entries.erase uniqueId })
      else (some entry.value, self)

def ttl (self : RoomCache) : RoomResolution → Nat
  | .live .. => self.liveTtl
  | .offline .. => self.offlineTtl
  | .notFound => self.notFoundTtl

def pruneExpired (now : Nat) (entries : AList fun _ : String => CacheEntry) :
    AList fun _ : String => CacheEntry :=
  ⟨entries.entries.filter fun e => now < e.2.expiresAt,
    entries.nodupKeys.sublist List.filter_sublist⟩

/-- What `keys().next()` may return: any key, and none from an empty map
only. -/
def IsNextKey (entries : AList fun _ : String => CacheEntry) : Option String → Prop
  | none => entries.keys = []
  | some key => key ∈ entries

instance (entries : AList fun _ : String => CacheEntry) (next : Option String) :
    Decidable (IsNextKey entries next) :=
  match next with
  | none => inferInstanceAs (Decidable (entries.keys = []))
  | some key => inferInstanceAs (Decidable (key ∈ entries))

/-- `next` is the key an eviction takes. -/
def put (self : RoomCache) (now : Nat) (uniqueId : String) (value : RoomResolution)
    (next : Option String) : RoomCache :=
  let entries := pruneExpired now self.entries
  let entries :=
    if self.capacity ≤ entries.keys.length ∧ uniqueId ∉ entries then
      match next with
      | some key => entries.erase key
      | none => entries
    else entries
  { self with entries := entries.insert uniqueId ⟨value, now + self.ttl value⟩ }

def invalidate (self : RoomCache) (uniqueId : String) : RoomCache :=
  { self with entries := self.entries.erase uniqueId }

/-- A hit is an entry that has not expired. -/
theorem get_eq_some {self : RoomCache} {now : Nat} {uniqueId : String}
    {value : RoomResolution} (h : (self.get now uniqueId).1 = some value) :
    ∃ entry, self.entries.lookup uniqueId = some entry ∧ now < entry.expiresAt
      ∧ entry.value = value := by
  rw [get] at h
  split at h
  · cases h
  · rename_i entry hentry
    split at h
    · cases h
    · rename_i hlive
      exact ⟨entry, hentry, Nat.lt_of_not_le hlive, Option.some.inj h⟩

end RoomCache

end TiktokSigner
