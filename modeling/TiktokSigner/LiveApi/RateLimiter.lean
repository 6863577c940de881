import TiktokSigner.Lib.Lts
import TiktokSigner.Lib.BoundedMap
import Mathlib.Algebra.GroupWithZero.Nat
import Mathlib.Data.Finset.Card

/-!
# The local quota of `RateLimiter`

A bucket per customer counts the requests and the creators of one window.
`check` prunes expired buckets when the map is full, opens or restarts the
customer's bucket, and refuses or counts.

Clock readings are nanoseconds. `Instant::duration_since` saturates, as
the truncated subtraction does.
-/

namespace TiktokSigner.LiveApi

open BoundedMap

/-! ## The limiter -/

structure RateDecision where
  retryAfterMs : Nat
deriving DecidableEq

structure Bucket where
  startedAt : Nat
  requests : Nat
  creators : Finset String
deriving DecidableEq

structure RateLimiter where
  buckets : AList fun _ : String => Bucket
  requestLimit : UInt32
  creatorLimit : UInt32
  creatorTrackingCapacity : Nat
  window : Nat
  capacity : Nat

/-- `u32::saturating_add(1)`. -/
def saturatingSucc (n : Nat) : Nat := min (n + 1) (2 ^ 32 - 1)

namespace Bucket

def opened (now : Nat) : Bucket := ⟨now, 0, ∅⟩

def expired (bucket : Bucket) (window now : Nat) : Prop := window ≤ now - bucket.startedAt

instance (bucket : Bucket) (window now : Nat) : Decidable (bucket.expired window now) :=
  inferInstanceAs (Decidable (_ ≤ _))

def roll (bucket : Bucket) (window now : Nat) : Bucket :=
  if bucket.expired window now then opened now else bucket

end Bucket

namespace RateLimiter

def new (requestLimit creatorLimit : UInt32) (capacity : Nat) : RateLimiter where
  buckets := ∅
  requestLimit
  creatorLimit
  creatorTrackingCapacity := max (max creatorLimit.toNat requestLimit.toNat) 10000
  window := 60 * 10 ^ 9
  capacity := max capacity 1

def prune (now window : Nat) (buckets : AList fun _ : String => Bucket) :
    AList fun _ : String => Bucket :=
  retain (fun bucket => ¬bucket.expired window now) buckets

/-- The map is full, and without the customer. -/
def crowdedOut (self : RateLimiter) (buckets : AList fun _ : String => Bucket)
    (customerId : String) : Prop :=
  self.capacity ≤ buckets.keys.length ∧ customerId ∉ buckets

instance (self : RateLimiter) (buckets : AList fun _ : String => Bucket) (customerId : String) :
    Decidable (self.crowdedOut buckets customerId) := inferInstanceAs (Decidable (_ ∧ _))

/-- One of the two quotas is used up; a limit of zero disables its quota. -/
def exhausted (self : RateLimiter) (bucket : Bucket) (uniqueId : String) : Prop :=
  (0 < self.requestLimit.toNat ∧ self.requestLimit.toNat ≤ bucket.requests)
    ∨ (0 < self.creatorLimit.toNat ∧ uniqueId ∉ bucket.creators
      ∧ self.creatorLimit.toNat ≤ bucket.creators.card % 2 ^ 32)

instance (self : RateLimiter) (bucket : Bucket) (uniqueId : String) :
    Decidable (self.exhausted bucket uniqueId) := inferInstanceAs (Decidable (_ ∨ _))

/-- Milliseconds, rounded down, and at least one. -/
def retryAfterMs (self : RateLimiter) (bucket : Bucket) (now : Nat) : Nat :=
  max ((self.window - (now - bucket.startedAt)) / 10 ^ 6) 1

def counted (self : RateLimiter) (bucket : Bucket) (uniqueId : String) : Bucket :=
  { bucket with
    requests := saturatingSucc bucket.requests
    creators :=
      if bucket.creators.card < self.creatorTrackingCapacity then insert uniqueId bucket.creators
      else bucket.creators }

/-- The buckets that `check` goes on with. -/
def pruned (self : RateLimiter) (now : Nat) (customerId : String) : AList fun _ : String => Bucket :=
  if self.crowdedOut self.buckets customerId then prune now self.window self.buckets
  else self.buckets

/-- The customer's bucket as `check` finds or makes it. -/
def bucketFor (self : RateLimiter) (now : Nat) (customerId : String) : Bucket :=
  (((self.pruned now customerId).lookup customerId).getD (.opened now)).roll self.window now

def check (self : RateLimiter) (now : Nat) (customerId uniqueId : String) :
    Except RateDecision Unit × RateLimiter :=
  let buckets := self.pruned now customerId
  if self.crowdedOut buckets customerId then (.error ⟨1000⟩, { self with buckets })
  else
    let bucket := self.bucketFor now customerId
    if self.exhausted bucket uniqueId then
      (.error ⟨self.retryAfterMs bucket now⟩,
        { self with buckets := buckets.insert customerId bucket })
    else
      (.ok (), { self with
        buckets := buckets.insert customerId (self.counted bucket uniqueId) })

/-! ## Calls under a clock -/

/-- A call that was counted. -/
structure Accepted where
  customerId : String
  uniqueId : String
  time : Nat
deriving DecidableEq

/-- The limiter, the clock, and the calls counted so far. -/
structure Clocked where
  limiter : RateLimiter
  now : Nat := 0
  log : List Accepted := []

/-- A call of `check`, `elapsed` after the one before. -/
structure Call where
  elapsed : Nat
  customerId : String
  uniqueId : String

namespace Clocked

def advance (s : Clocked) (elapsed : Nat) : Clocked := { s with now := s.now + elapsed }

def check (s : Clocked) (customerId uniqueId : String) : Clocked :=
  match s.limiter.check s.now customerId uniqueId with
  | (.ok (), limiter) => { s with limiter, log := s.log ++ [⟨customerId, uniqueId, s.now⟩] }
  | (.error _, limiter) => { s with limiter }

def step (s : Clocked) (call : Call) : Option Clocked :=
  some ((s.advance call.elapsed).check call.customerId call.uniqueId)

/-- What was counted for a customer in the window that starts at `start`. -/
def inWindow (s : Clocked) (customerId : String) (start : Nat) : List Accepted :=
  s.log.filter fun call =>
    call.customerId = customerId ∧ start ≤ call.time ∧ call.time < start + s.limiter.window

end Clocked

end RateLimiter

end TiktokSigner.LiveApi
