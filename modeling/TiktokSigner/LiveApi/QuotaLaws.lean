import TiktokSigner.LiveApi.RateLimiter
import Mathlib.Tactic.SplitIfs

/-!
# What the local quota guarantees

In every run under a clock that does not go back, a customer's bucket knows
exactly what was counted in its window (`BucketSound`), and what is not in
a bucket any more lies in a window that is over. So no window of a
customer has more calls or creators than the limits (`quota_of_run`).

A refused customer is told how long to wait in milliseconds, rounded down,
while the window is compared in nanoseconds: `retry_accepted_iff` is the
exact condition under which the retry is accepted.
-/

namespace TiktokSigner.LiveApi.RateLimiter

open BoundedMap Lts

variable {self : RateLimiter} {now : Nat} {customerId other uniqueId : String} {bucket : Bucket}

/-! ## The buckets that are left -/

theorem lookup_prune {buckets : AList fun _ : String => Bucket} {window : Nat} :
    (prune now window buckets).lookup customerId = some bucket ↔
      buckets.lookup customerId = some bucket ∧ ¬bucket.expired window now := by
  rw [prune, lookup_retain, decide_eq_true_iff]

theorem lookup_of_lookup_pruned (h : (self.pruned now other).lookup customerId = some bucket) :
    self.buckets.lookup customerId = some bucket := by
  rw [pruned] at h
  split_ifs at h
  · exact (lookup_prune.mp h).1
  · exact h

theorem lookup_pruned_of_not_expired (h : self.buckets.lookup customerId = some bucket)
    (hlive : ¬bucket.expired self.window now) :
    (self.pruned now other).lookup customerId = some bucket := by
  rw [pruned]
  split_ifs
  · exact lookup_prune.mpr ⟨h, hlive⟩
  · exact h

/-- A bucket that is gone has expired. -/
theorem expired_of_lookup_pruned (h : (self.pruned now other).lookup customerId = none)
    (hbucket : self.buckets.lookup customerId = some bucket) : bucket.expired self.window now := by
  by_contra hlive
  rw [lookup_pruned_of_not_expired hbucket hlive] at h
  cases h

/-- A sweep is made on behalf of a customer without a bucket. -/
theorem pruned_of_mem (h : customerId ∈ self.buckets) :
    self.pruned now customerId = self.buckets := by
  rw [pruned, if_neg fun hcrowded => hcrowded.2 h]

theorem length_pruned_le : (self.pruned now other).keys.length ≤ self.buckets.keys.length := by
  rw [pruned]
  split_ifs
  · exact length_retain_le
  · exact Nat.le_refl _

/-- There is no quota that a new window has used up. -/
theorem not_exhausted_opened : ¬self.exhausted (.opened now) uniqueId := by
  rintro (⟨hpos, hle⟩ | ⟨hpos, -, hle⟩)
  · exact Nat.not_le.mpr hpos hle
  · rw [Bucket.opened, Finset.card_empty, Nat.zero_mod] at hle
    exact Nat.not_le.mpr hpos hle

/-- The customer's bucket is new, or an old one in its window. -/
theorem bucketFor_cases (self : RateLimiter) (now : Nat) (customerId : String) :
    self.bucketFor now customerId = .opened now
        ∧ (∀ bucket, self.buckets.lookup customerId = some bucket → bucket.expired self.window now)
      ∨ ¬(self.bucketFor now customerId).expired self.window now
        ∧ self.buckets.lookup customerId = some (self.bucketFor now customerId) := by
  rw [bucketFor]
  cases hlookup : (self.pruned now customerId).lookup customerId with
  | none =>
    refine Or.inl ⟨?_, fun bucket hbucket => expired_of_lookup_pruned hlookup hbucket⟩
    rw [Option.getD_none, Bucket.roll, ite_self]
  | some bucket =>
    have hbucket := lookup_of_lookup_pruned hlookup
    rw [Option.getD_some, Bucket.roll]
    split_ifs with hexpired
    · refine Or.inl ⟨rfl, fun bucket' hbucket' => ?_⟩
      rw [hbucket] at hbucket'
      exact Option.some.inj hbucket' ▸ hexpired
    · exact Or.inr ⟨hexpired, hbucket⟩

namespace Clocked

def withBuckets (s : Clocked) (buckets : AList fun _ : String => Bucket) : Clocked :=
  { s with limiter := { s.limiter with buckets } }

/-- A counted call; the customer's bucket becomes `bucket`. -/
def record (s : Clocked) (bucket : Bucket) (call : Accepted) : Clocked :=
  { s.withBuckets (s.limiter.buckets.insert call.customerId bucket) with log := s.log ++ [call] }

variable {s u : Clocked} {start elapsed : Nat} {call : Accepted}

/-! ## One bucket and the log -/

theorem mem_inWindow : call ∈ s.inWindow customerId start ↔
    call ∈ s.log ∧ call.customerId = customerId ∧ start ≤ call.time
      ∧ call.time < start + s.limiter.window := by
  rw [inWindow, List.mem_filter, decide_eq_true_iff]

/-- A call of another customer or outside the window is not in it. -/
theorem inWindow_record_of_not (bucket : Bucket)
    (h : call.customerId = customerId → start + s.limiter.window ≤ call.time) :
    (s.record bucket call).inWindow customerId start = s.inWindow customerId start := by
  have hout : ¬(call.customerId = customerId ∧ start ≤ call.time
      ∧ call.time < start + s.limiter.window) :=
    fun ⟨hcustomer, _, hlt⟩ => Nat.not_le.mpr hlt (h hcustomer)
  dsimp only [inWindow, record, withBuckets]
  rw [List.filter_append, List.filter_cons_of_neg (by simpa using hout), List.filter_nil,
    List.append_nil]

theorem inWindow_record (bucket : Bucket) (hstart : start ≤ call.time)
    (hend : call.time < start + s.limiter.window) :
    (s.record bucket call).inWindow call.customerId start =
      s.inWindow call.customerId start ++ [call] := by
  dsimp only [inWindow, record, withBuckets]
  rw [List.filter_append, List.filter_cons_of_pos (by simpa using ⟨hstart, hend⟩), List.filter_nil]

/-- A bucket knows what was counted in its window. -/
structure BucketSound (s : Clocked) (customerId : String) (bucket : Bucket) : Prop where
  started : bucket.startedAt ≤ s.now
  ended : ∀ call ∈ s.log, call.customerId = customerId →
    call.time < bucket.startedAt + s.limiter.window
  requests : (s.inWindow customerId bucket.startedAt).length = bucket.requests
  creators : ∀ call ∈ s.inWindow customerId bucket.startedAt, call.uniqueId ∈ bucket.creators
  requestLimit : bucket.requests ≤ s.limiter.requestLimit.toNat
  creatorLimit : bucket.creators.card ≤ s.limiter.creatorLimit.toNat

structure Sound (s : Clocked) : Prop where
  window : 0 < s.limiter.window
  requestLimit : 0 < s.limiter.requestLimit.toNat
  creatorLimit : 0 < s.limiter.creatorLimit.toNat
  tracking : s.limiter.creatorLimit.toNat ≤ s.limiter.creatorTrackingCapacity
  past : ∀ call ∈ s.log, call.time ≤ s.now
  buckets : ∀ customerId bucket, s.limiter.buckets.lookup customerId = some bucket →
    BucketSound s customerId bucket
  /-- Without a bucket, all windows of the customer are over. -/
  closed : ∀ customerId, s.limiter.buckets.lookup customerId = none →
    ∀ call ∈ s.log, call.customerId = customerId → call.time < s.now
  capacity : s.limiter.buckets.keys.length ≤ s.limiter.capacity

/-- Where all windows of the customer are over, a new one is empty. -/
theorem bucketSound_opened
    (hover : ∀ call ∈ s.log, call.customerId = customerId → call.time < s.now) :
    BucketSound s customerId (.opened s.now) := by
  have hempty : s.inWindow customerId s.now = [] := by
    refine List.eq_nil_iff_forall_not_mem.mpr fun call hmem => ?_
    obtain ⟨hlog, hcustomer, hstart, -⟩ := mem_inWindow.mp hmem
    exact Nat.not_le.mpr (hover call hlog hcustomer) hstart
  refine ⟨Nat.le_refl _, fun call hlog hcustomer => ?_, ?_, ?_, Nat.zero_le _, Nat.zero_le _⟩
  · exact Nat.lt_of_lt_of_le (hover call hlog hcustomer) (Nat.le_add_right _ _)
  · rw [Bucket.opened, hempty]
    rfl
  · rw [Bucket.opened, hempty]
    exact fun call hmem => absurd hmem List.not_mem_nil

/-- An expired bucket's window is over. -/
theorem BucketSound.over (h : BucketSound s customerId bucket)
    (hexpired : bucket.expired s.limiter.window s.now) :
    ∀ call ∈ s.log, call.customerId = customerId → call.time < s.now := by
  intro call hlog hcustomer
  have hend := h.ended call hlog hcustomer
  have hstart := h.started
  rw [Bucket.expired] at hexpired
  omega

theorem BucketSound.record_of_ne (h : BucketSound s customerId bucket) (bucket' : Bucket)
    (hne : call.customerId ≠ customerId) :
      BucketSound (s.record bucket' call) customerId bucket := by
  have hsame : (s.record bucket' call).inWindow customerId bucket.startedAt
      = s.inWindow customerId bucket.startedAt :=
    inWindow_record_of_not bucket' fun heq => absurd heq hne
  refine ⟨h.started, fun call' hlog hcustomer => ?_, hsame ▸ h.requests, hsame ▸ h.creators,
    h.requestLimit, h.creatorLimit⟩
  rcases List.mem_append.mp hlog with hold | hnew
  · exact h.ended call' hold hcustomer
  · rw [List.mem_singleton.mp hnew] at hcustomer
    exact absurd hcustomer hne

/-! ## One step -/

theorem Sound.advance (h : Sound s) (elapsed : Nat) : Sound (s.advance elapsed) where
  window := h.window
  requestLimit := h.requestLimit
  creatorLimit := h.creatorLimit
  tracking := h.tracking
  past := fun call hlog => Nat.le_trans (h.past call hlog) (Nat.le_add_right _ _)
  buckets := fun customerId bucket hbucket =>
    { h.buckets customerId bucket hbucket with
      started := Nat.le_trans (h.buckets customerId bucket hbucket).started (Nat.le_add_right _ _) }
  closed := fun customerId hnone call hlog hcustomer =>
    Nat.lt_of_lt_of_le (h.closed customerId hnone call hlog hcustomer) (Nat.le_add_right _ _)
  capacity := h.capacity

/-- A sweep takes out expired buckets only. -/
theorem Sound.pruned (h : Sound s) (customerId : String) :
    Sound (s.withBuckets (s.limiter.pruned s.now customerId)) where
  window := h.window
  requestLimit := h.requestLimit
  creatorLimit := h.creatorLimit
  tracking := h.tracking
  past := h.past
  buckets := fun other bucket hbucket =>
    { h.buckets other bucket (lookup_of_lookup_pruned hbucket) with }
  closed := fun other hnone => by
    cases hold : s.limiter.buckets.lookup other with
    | none => exact h.closed other hold
    | some bucket => exact (h.buckets other bucket hold).over (expired_of_lookup_pruned hnone hold)
  capacity := Nat.le_trans length_pruned_le h.capacity

/-- What the customer's bucket is when `check` has it. -/
theorem Sound.bucketFor (h : Sound s) (customerId : String) :
    BucketSound s customerId (s.limiter.bucketFor s.now customerId)
      ∧ ¬(s.limiter.bucketFor s.now customerId).expired s.limiter.window s.now := by
  rcases bucketFor_cases s.limiter s.now customerId with ⟨hopened, hexpired⟩ | ⟨hlive, hbucket⟩
  · rw [hopened]
    refine ⟨bucketSound_opened ?_, ?_⟩
    · cases hold : s.limiter.buckets.lookup customerId with
      | none => exact h.closed customerId hold
      | some bucket => exact (h.buckets customerId bucket hold).over (hexpired bucket hold)
    · rw [Bucket.expired, Bucket.opened, Nat.sub_self]
      exact Nat.not_le.mpr h.window
  · exact ⟨h.buckets customerId _ hbucket, hlive⟩

theorem Sound.insert (h : Sound s) (hbucket : BucketSound s customerId bucket)
    (hroom : ¬s.limiter.crowdedOut s.limiter.buckets customerId) :
    Sound (s.withBuckets (s.limiter.buckets.insert customerId bucket)) where
  window := h.window
  requestLimit := h.requestLimit
  creatorLimit := h.creatorLimit
  tracking := h.tracking
  past := h.past
  buckets := fun other bucket' hlookup => by
    dsimp only [withBuckets] at hlookup
    by_cases heq : other = customerId
    · subst heq
      rw [AList.lookup_insert] at hlookup
      obtain rfl := Option.some.inj hlookup
      exact { hbucket with }
    · rw [AList.lookup_insert_ne heq] at hlookup
      exact { h.buckets other bucket' hlookup with }
  closed := fun other hnone => by
    dsimp only [withBuckets] at hnone
    by_cases heq : other = customerId
    · subst heq
      rw [AList.lookup_insert] at hnone
      cases hnone
    · rw [AList.lookup_insert_ne heq] at hnone
      exact h.closed other hnone
  capacity := by
    refine length_insert_le ?_ h.capacity
    by_contra hfull
    obtain ⟨hnew, hlen⟩ := not_or.mp hfull
    exact hroom ⟨Nat.le_of_not_lt hlen, hnew⟩

/-- Both counts of a counted call fit their types. -/
theorem BucketSound.counted_eq (h : BucketSound s customerId bucket)
    (htracking : s.limiter.creatorLimit.toNat ≤ s.limiter.creatorTrackingCapacity)
    (hrequest : 0 < s.limiter.requestLimit.toNat) (hcreator : 0 < s.limiter.creatorLimit.toNat)
    (hroom : ¬s.limiter.exhausted bucket uniqueId) :
    s.limiter.counted bucket uniqueId =
        ⟨bucket.startedAt, bucket.requests + 1, insert uniqueId bucket.creators⟩
      ∧ bucket.requests < s.limiter.requestLimit.toNat
      ∧ (insert uniqueId bucket.creators).card ≤ s.limiter.creatorLimit.toNat := by
  obtain ⟨hrequests, hcreators⟩ := not_or.mp hroom
  have hrequests : bucket.requests < s.limiter.requestLimit.toNat :=
    Nat.lt_of_not_le fun hle => hrequests ⟨hrequest, hle⟩
  have hmax := s.limiter.requestLimit.toNat_lt
  have hsucc : saturatingSucc bucket.requests = bucket.requests + 1 := by
    rw [saturatingSucc]
    omega
  rw [RateLimiter.counted, hsucc]
  by_cases hold : uniqueId ∈ bucket.creators
  · rw [Finset.insert_eq_of_mem hold, ite_self]
    exact ⟨rfl, hrequests, h.creatorLimit⟩
  · have hcard := h.creatorLimit
    have hmax := s.limiter.creatorLimit.toNat_lt
    have hfew : bucket.creators.card < s.limiter.creatorLimit.toNat := by
      refine Nat.lt_of_not_le fun hle => hcreators ⟨hcreator, hold, ?_⟩
      rw [Nat.mod_eq_of_lt (by omega)]
      exact hle
    rw [if_pos (Nat.lt_of_lt_of_le hfew htracking), Finset.card_insert_of_notMem hold]
    exact ⟨rfl, hrequests, hfew⟩

/-- A counted call stays within both limits. -/
theorem BucketSound.counted (h : BucketSound s customerId bucket)
    (htracking : s.limiter.creatorLimit.toNat ≤ s.limiter.creatorTrackingCapacity)
    (hrequest : 0 < s.limiter.requestLimit.toNat) (hcreator : 0 < s.limiter.creatorLimit.toNat)
    (hlive : ¬bucket.expired s.limiter.window s.now)
    (hroom : ¬s.limiter.exhausted bucket uniqueId) :
    BucketSound (s.record (s.limiter.counted bucket uniqueId) ⟨customerId, uniqueId, s.now⟩)
      customerId (s.limiter.counted bucket uniqueId) := by
  obtain ⟨heq, hrequests, hcreators⟩ := h.counted_eq htracking hrequest hcreator hroom
  have hend : s.now < bucket.startedAt + s.limiter.window := by
    have hstart := h.started
    rw [Bucket.expired] at hlive
    omega
  have hwindow : (s.record (s.limiter.counted bucket uniqueId)
      ⟨customerId, uniqueId, s.now⟩).inWindow
        customerId bucket.startedAt
      = s.inWindow customerId bucket.startedAt ++ [⟨customerId, uniqueId, s.now⟩] :=
    inWindow_record (s.limiter.counted bucket uniqueId) h.started hend
  rw [heq] at hwindow ⊢
  refine ⟨h.started, fun call hlog hcustomer => ?_, ?_, fun call hmem => ?_, hrequests, hcreators⟩
  · rcases List.mem_append.mp hlog with hold | hnew
    · exact h.ended call hold hcustomer
    · rw [List.mem_singleton.mp hnew]
      exact hend
  · rw [hwindow, List.length_append, h.requests]
    rfl
  · rw [hwindow] at hmem
    rcases List.mem_append.mp hmem with hold | hnew
    · exact Finset.mem_insert_of_mem (h.creators call hold)
    · rw [List.mem_singleton.mp hnew]
      exact Finset.mem_insert_self _ _

theorem Sound.record (h : Sound s)
    (hbucket : s.limiter.buckets.lookup customerId = some bucket)
    (hlive : ¬bucket.expired s.limiter.window s.now)
    (hroom : ¬s.limiter.exhausted bucket uniqueId) :
    Sound (s.record (s.limiter.counted bucket uniqueId) ⟨customerId, uniqueId, s.now⟩) where
  window := h.window
  requestLimit := h.requestLimit
  creatorLimit := h.creatorLimit
  tracking := h.tracking
  past := fun call hlog => by
    rcases List.mem_append.mp hlog with hold | hnew
    · exact h.past call hold
    · rw [List.mem_singleton.mp hnew]
      exact Nat.le_refl _
  buckets := fun other bucket' hlookup => by
    dsimp only [Clocked.record, withBuckets] at hlookup
    by_cases heq : other = customerId
    · subst heq
      rw [AList.lookup_insert] at hlookup
      obtain rfl := Option.some.inj hlookup
      exact (h.buckets other bucket hbucket).counted h.tracking h.requestLimit
        h.creatorLimit hlive hroom
    · rw [AList.lookup_insert_ne heq] at hlookup
      exact (h.buckets other bucket' hlookup).record_of_ne _ (Ne.symm heq)
  closed := fun other hnone call hlog hcustomer => by
    dsimp only [Clocked.record, withBuckets] at hnone
    have hne : other ≠ customerId := by
      rintro rfl
      rw [AList.lookup_insert] at hnone
      cases hnone
    rw [AList.lookup_insert_ne hne] at hnone
    rcases List.mem_append.mp hlog with hold | hnew
    · exact h.closed other hnone call hold hcustomer
    · rw [List.mem_singleton.mp hnew] at hcustomer
      exact absurd hcustomer.symm hne
  capacity := length_insert_le (Or.inl (mem_of_lookup hbucket)) h.capacity

/-- What `check` does to the state: the sweep alone, the sweep and the
customer's bucket, or a count besides. -/
theorem check_cases (s : Clocked) (customerId uniqueId : String) :
    s.limiter.crowdedOut (s.limiter.pruned s.now customerId) customerId
        ∧ s.check customerId uniqueId = s.withBuckets (s.limiter.pruned s.now customerId)
      ∨ ¬s.limiter.crowdedOut (s.limiter.pruned s.now customerId) customerId
        ∧ s.limiter.exhausted (s.limiter.bucketFor s.now customerId) uniqueId
        ∧ s.check customerId uniqueId = s.withBuckets ((s.limiter.pruned s.now customerId).insert
          customerId (s.limiter.bucketFor s.now customerId))
      ∨ ¬s.limiter.crowdedOut (s.limiter.pruned s.now customerId) customerId
        ∧ ¬s.limiter.exhausted (s.limiter.bucketFor s.now customerId) uniqueId
        ∧ s.check customerId uniqueId =
          (s.withBuckets (s.limiter.pruned s.now customerId)).record
            (s.limiter.counted (s.limiter.bucketFor s.now customerId) uniqueId)
            ⟨customerId, uniqueId, s.now⟩ := by
  unfold Clocked.check RateLimiter.check
  dsimp only
  by_cases hcrowded : s.limiter.crowdedOut (s.limiter.pruned s.now customerId) customerId
  · rw [if_pos hcrowded]
    exact Or.inl ⟨hcrowded, rfl⟩
  · rw [if_neg hcrowded]
    by_cases hfull : s.limiter.exhausted (s.limiter.bucketFor s.now customerId) uniqueId
    · rw [if_pos hfull]
      exact Or.inr (Or.inl ⟨hcrowded, hfull, rfl⟩)
    · rw [if_neg hfull]
      exact Or.inr (Or.inr ⟨hcrowded, hfull, rfl⟩)

theorem Sound.check (h : Sound s) (customerId uniqueId : String) :
    Sound (s.check customerId uniqueId) := by
  have hpruned := h.pruned customerId
  obtain ⟨hbucket, hlive⟩ := h.bucketFor customerId
  have hbucket : BucketSound (s.withBuckets (s.limiter.pruned s.now customerId)) customerId
      (s.limiter.bucketFor s.now customerId) := { hbucket with }
  rcases check_cases s customerId uniqueId with ⟨-, heq⟩ | ⟨hroom, -, heq⟩ | ⟨hroom, hquota, heq⟩
  · exact heq ▸ hpruned
  · exact heq ▸ hpruned.insert hbucket hroom
  · have hrecord := (hpruned.insert hbucket hroom).record (AList.lookup_insert _) hlive hquota
    dsimp only [Clocked.record, withBuckets] at hrecord
    rw [AList.insert_insert] at hrecord
    exact heq ▸ hrecord

/-! ## What a check leaves alone -/

theorem lookup_check_of_ne (s : Clocked) (uniqueId : String) (hne : other ≠ customerId) :
    (s.check customerId uniqueId).limiter.buckets.lookup other =
      (s.limiter.pruned s.now customerId).lookup other := by
  rcases check_cases s customerId uniqueId with ⟨-, heq⟩ | ⟨-, -, heq⟩ | ⟨-, -, heq⟩
  · rw [heq]
    rfl
  · rw [heq]
    exact AList.lookup_insert_ne hne
  · rw [heq]
    exact AList.lookup_insert_ne hne

/-- A bucket in its window stays, and only its own customer changes it. -/
theorem lookup_check_of_not_expired (customerId uniqueId : String)
    (hbucket : s.limiter.buckets.lookup other = some bucket)
    (hlive : ¬bucket.expired s.limiter.window s.now) :
    ∃ bucket', (s.check customerId uniqueId).limiter.buckets.lookup other = some bucket'
      ∧ bucket'.startedAt = bucket.startedAt ∧ (other ≠ customerId → bucket' = bucket) := by
  by_cases hne : other = customerId
  · subst hne
    have hsame : s.limiter.bucketFor s.now other = bucket := by
      rw [RateLimiter.bucketFor, lookup_pruned_of_not_expired hbucket hlive, Option.getD_some,
        Bucket.roll, if_neg hlive]
    rcases check_cases s other uniqueId with ⟨hcrowded, -⟩ | ⟨-, -, heq⟩ | ⟨-, -, heq⟩
    · exact absurd (mem_of_lookup (lookup_pruned_of_not_expired hbucket hlive)) hcrowded.2
    · rw [heq, hsame]
      exact ⟨bucket, AList.lookup_insert _, rfl, fun _ => rfl⟩
    · rw [heq, hsame]
      exact ⟨_, AList.lookup_insert _, rfl, fun hne => absurd rfl hne⟩
  · refine ⟨bucket, ?_, rfl, fun _ => rfl⟩
    rw [lookup_check_of_ne s uniqueId hne]
    exact lookup_pruned_of_not_expired hbucket hlive

/-- A refusal is no change of the customer's bucket. -/
theorem lookup_check_of_error {decision : RateDecision} {limiter : RateLimiter}
    (h : self.check now customerId uniqueId = (.error decision, limiter)) :
    limiter.buckets.lookup customerId = self.buckets.lookup customerId := by
  unfold RateLimiter.check at h
  dsimp only at h
  split_ifs at h with hcrowded hfull
  · obtain ⟨-, rfl⟩ := Prod.mk.inj h
    have hnew : customerId ∉ self.buckets := fun hmem => hcrowded.2 (pruned_of_mem hmem ▸ hmem)
    rw [AList.lookup_eq_none.mpr hcrowded.2, AList.lookup_eq_none.mpr hnew]
  · obtain ⟨-, rfl⟩ := Prod.mk.inj h
    rcases bucketFor_cases self now customerId with ⟨hopened, -⟩ | ⟨-, hbucket⟩
    · exact absurd (hopened ▸ hfull) not_exhausted_opened
    · exact (AList.lookup_insert _).trans hbucket.symm
  · cases (Prod.mk.inj h).1

/-! ## Over a run -/

def Within (s : Clocked) (customerId : String) (start : Nat) : Prop :=
  (s.inWindow customerId start).length ≤ s.limiter.requestLimit.toNat
    ∧ ((s.inWindow customerId start).map Accepted.uniqueId).toFinset.card
      ≤ s.limiter.creatorLimit.toNat

theorem BucketSound.within (h : BucketSound s customerId bucket) :
    s.Within customerId bucket.startedAt := by
  refine ⟨h.requests ▸ h.requestLimit, Nat.le_trans (Finset.card_le_card ?_) h.creatorLimit⟩
  intro uniqueId hmem
  obtain ⟨call, hcall, rfl⟩ := List.mem_map.mp (List.mem_toFinset.mp hmem)
  exact h.creators call hcall

/-- Nothing is counted any more in a window that is over. -/
theorem inWindow_check (hover : start + s.limiter.window ≤ s.now) (other uniqueId : String) :
    (s.check other uniqueId).inWindow customerId start = s.inWindow customerId start := by
  rcases check_cases s other uniqueId with ⟨-, heq⟩ | ⟨-, -, heq⟩ | ⟨-, -, heq⟩
  · rw [heq]
    rfl
  · rw [heq]
    rfl
  · rw [heq]
    exact inWindow_record_of_not (s := s.withBuckets _) _ fun _ => hover

theorem limiter_check_eq (s : Clocked) (customerId uniqueId : String) :
    (s.check customerId uniqueId).limiter = (s.limiter.check s.now customerId uniqueId).2 := by
  rw [Clocked.check]
  split
  · rename_i heq
    rw [heq]
  · rename_i heq
    rw [heq]

theorem limiter_check (s : Clocked) (customerId uniqueId : String) :
    ∃ buckets, (s.check customerId uniqueId).limiter = { s.limiter with buckets }
      ∧ (s.check customerId uniqueId).now = s.now := by
  rcases check_cases s customerId uniqueId with ⟨-, heq⟩ | ⟨-, -, heq⟩ | ⟨-, -, heq⟩
  · exact heq ▸ ⟨_, rfl, rfl⟩
  · exact heq ▸ ⟨_, rfl, rfl⟩
  · exact heq ▸ ⟨_, rfl, rfl⟩

/-- A window is that of the customer's bucket, or it is over and was kept
within the limits. -/
def Settled (customerId : String) (start : Nat) (s : Clocked) : Prop :=
  (∃ bucket, s.limiter.buckets.lookup customerId = some bucket ∧ bucket.startedAt = start)
    ∨ start + s.limiter.window ≤ s.now ∧ s.Within customerId start

theorem Settled.over_check (hover : start + s.limiter.window ≤ s.now)
    (hwithin : s.Within customerId start) (other uniqueId : String) :
    Settled customerId start (s.check other uniqueId) := by
  obtain ⟨buckets, hlimiter, hnow⟩ := limiter_check s other uniqueId
  refine Or.inr ⟨by rw [hlimiter, hnow]; exact hover, ?_⟩
  rw [Within, inWindow_check hover, hlimiter]
  exact hwithin

theorem Settled.step (hsound : Sound s) (h : Settled customerId start s) {call : Call}
    (hstep : s.step call = some u) : Settled customerId start u := by
  obtain rfl := Option.some.inj hstep
  rcases h with ⟨bucket, hbucket, rfl⟩ | ⟨hover, hwithin⟩
  · by_cases hlive : bucket.expired s.limiter.window (s.now + call.elapsed)
    · have hbucket := hsound.buckets customerId bucket hbucket
      have hstart := hbucket.started
      rw [Bucket.expired] at hlive
      refine Settled.over_check (s := s.advance call.elapsed) ?_ hbucket.within _ _
      dsimp only [Clocked.advance]
      omega
    · obtain ⟨bucket', hkept, hsame, -⟩ := lookup_check_of_not_expired (s := s.advance call.elapsed)
        call.customerId call.uniqueId hbucket hlive
      exact Or.inl ⟨bucket', hkept, hsame⟩
  · refine Settled.over_check (s := s.advance call.elapsed) ?_ hwithin _ _
    exact Nat.le_trans hover (Nat.le_add_right _ _)

theorem Sound.step (h : Sound s) {call : Call} (hstep : s.step call = some u) : Sound u := by
  obtain rfl := Option.some.inj hstep
  exact (h.advance _).check _ _

theorem Sound.new {requestLimit creatorLimit : UInt32} (hrequest : requestLimit ≠ 0)
    (hcreator : creatorLimit ≠ 0) (capacity : Nat) :
    Sound { limiter := .new requestLimit creatorLimit capacity } where
  window := Nat.mul_pos (by decide) (by decide)
  requestLimit := Nat.pos_of_ne_zero fun h => hrequest (UInt32.toNat_inj.mp h)
  creatorLimit := Nat.pos_of_ne_zero fun h => hcreator (UInt32.toNat_inj.mp h)
  tracking := Nat.le_trans (Nat.le_max_left _ _) (Nat.le_max_left _ _)
  past := by simp
  buckets := by simp [RateLimiter.new]
  closed := by simp
  capacity := Nat.zero_le _

/-- The settings stay those of `new`. -/
theorem configured_run {requestLimit creatorLimit : UInt32} {capacity : Nat} {calls : List Call}
    (hrun : Lts.run step { limiter := .new requestLimit creatorLimit capacity } calls = some s) :
    ∃ buckets, s.limiter = { RateLimiter.new requestLimit creatorLimit capacity with buckets } := by
  refine run_invariant_all
    (I := fun s => ∃ buckets,
      s.limiter = { RateLimiter.new requestLimit creatorLimit capacity with buckets }) ?_
    ⟨_, rfl⟩ hrun
  rintro s call u ⟨buckets, hs⟩ hstep
  obtain rfl := Option.some.inj hstep
  obtain ⟨buckets', hlimiter, -⟩ := limiter_check (s.advance call.elapsed) call.customerId
    call.uniqueId
  exact ⟨buckets', by rw [hlimiter, Clocked.advance, hs]⟩

theorem settled_run (hsound : Sound s) (h : Settled customerId start s) {calls : List Call}
    (hrun : Lts.run step s calls = some u) : Settled customerId start u := by
  have hboth : Sound u ∧ Settled customerId start u :=
    run_invariant_all (I := fun s => Sound s ∧ Settled customerId start s)
      (fun _ _ _ h hstep => ⟨h.1.step hstep, h.2.step h.1 hstep⟩) ⟨hsound, h⟩ hrun
  exact hboth.2

/-- In every run: a window of a bucket, once opened, has no more counted
calls and creators than the limits; the map keeps its bound; a refusal is
no change of the customer's bucket; and no check takes out a bucket in its
window. -/
theorem quota_of_run {requestLimit creatorLimit : UInt32} (hrequest : requestLimit ≠ 0)
    (hcreator : creatorLimit ≠ 0) (capacity : Nat) (before after : List Call) (u s : Clocked)
    (hu : Lts.run step { limiter := .new requestLimit creatorLimit capacity } before = some u)
    (hs : Lts.run step u after = some s) :
    (∀ customerId bucket, u.limiter.buckets.lookup customerId = some bucket →
        (s.inWindow customerId bucket.startedAt).length ≤ requestLimit.toNat
          ∧ ((s.inWindow customerId bucket.startedAt).map Accepted.uniqueId).toFinset.card
            ≤ creatorLimit.toNat)
      ∧ s.limiter.buckets.keys.length ≤ max capacity 1
      ∧ ∀ now customerId uniqueId,
        (∀ decision limiter, s.limiter.check now customerId uniqueId = (.error decision, limiter) →
            limiter.buckets.lookup customerId = s.limiter.buckets.lookup customerId)
          ∧ ∀ other bucket, s.limiter.buckets.lookup other = some bucket →
            now - bucket.startedAt < s.limiter.window →
            ∃ bucket', (s.limiter.check now customerId uniqueId).2.buckets.lookup other
              = some bucket'
              ∧ bucket'.startedAt = bucket.startedAt ∧ (other ≠ customerId → bucket' = bucket) := by
  have husound : Sound u :=
    run_invariant_all (fun _ _ _ h hstep => h.step hstep) (.new hrequest hcreator capacity) hu
  have hssound : Sound s := run_invariant_all (fun _ _ _ h hstep => h.step hstep) husound hs
  obtain ⟨buckets, hlimiter⟩ := configured_run (run_append_eq_some.mpr ⟨u, hu, hs⟩)
  refine ⟨fun customerId bucket hbucket => ?_, ?_, fun now customerId uniqueId => ⟨?_, ?_⟩⟩
  · have hsettled := settled_run husound (Or.inl ⟨bucket, hbucket, rfl⟩) hs
    have hwithin : s.Within customerId bucket.startedAt := by
      rcases hsettled with ⟨bucket', hbucket', hsame⟩ | ⟨-, hwithin⟩
      · exact hsame ▸ (hssound.buckets customerId bucket' hbucket').within
      · exact hwithin
    rw [Within, hlimiter] at hwithin
    exact hwithin
  · have hcapacity := hssound.capacity
    rw [hlimiter] at hcapacity ⊢
    exact hcapacity
  · exact fun _ _ h => lookup_check_of_error h
  · intro other bucket hbucket hlive
    rw [← limiter_check_eq { s with now } customerId uniqueId]
    exact lookup_check_of_not_expired customerId uniqueId hbucket (Nat.not_le.mpr hlive)

/-- Three checks of one customer under limits of two: the third is refused,
and a minute after the first the window is over. -/
theorem quota_of_three_checks :
    ∃ u s, Lts.run step { limiter := .new 2 2 1 }
          [⟨5, "customer", "one"⟩, ⟨1, "customer", "two"⟩, ⟨1, "customer", "one"⟩] = some u
      ∧ Lts.run step u [⟨60 * 10 ^ 9 - 2, "customer", "three"⟩] = some s
      ∧ (s.inWindow "customer" 5).length ≤ 2 ∧ s.log.length = 3 := by
  refine ⟨_, _, rfl, rfl, ?_, by decide⟩
  exact ((quota_of_run (by decide) (by decide) 1
    [⟨5, "customer", "one"⟩, ⟨1, "customer", "two"⟩, ⟨1, "customer", "one"⟩]
    [⟨60 * 10 ^ 9 - 2, "customer", "three"⟩] _ _ rfl rfl).1 "customer" ⟨5, 2, {"two", "one"}⟩
    (by decide)).1

end Clocked

/-! ## The promised retry -/

/-- The remaining time that `check` rounds to milliseconds. -/
def remaining (self : RateLimiter) (bucket : Bucket) (now : Nat) : Nat :=
  self.window - (now - bucket.startedAt)

/-- A customer that has a bucket is refused for its own quota, and the
bucket stays as it is. -/
theorem check_eq_error {decision : RateDecision} {limiter : RateLimiter}
    (h : self.check now customerId uniqueId = (.error decision, limiter))
    (hmem : customerId ∈ self.buckets) :
    ∃ bucket, self.buckets.lookup customerId = some bucket
      ∧ ¬bucket.expired self.window now ∧ self.exhausted bucket uniqueId
      ∧ decision = ⟨self.retryAfterMs bucket now⟩
      ∧ limiter = { self with buckets := self.buckets.insert customerId bucket } := by
  unfold check at h
  dsimp only at h
  have hpruned : self.pruned now customerId = self.buckets := pruned_of_mem hmem
  rw [hpruned] at h
  split_ifs at h with hcrowded hfull
  · exact absurd hmem hcrowded.2
  · obtain ⟨hdecision, hlimiter⟩ := Prod.mk.inj h
    rcases bucketFor_cases self now customerId with ⟨hopened, -⟩ | ⟨hlive, hbucket⟩
    · exact absurd (hopened ▸ hfull) not_exhausted_opened
    · exact ⟨_, hbucket, hlive, hfull, (Except.error.inj hdecision).symm, hlimiter.symm⟩
  · cases (Prod.mk.inj h).1

/-- Without a bucket a customer is turned away for want of room only. -/
theorem crowdedOut_of_check_eq_error {decision : RateDecision} {limiter : RateLimiter}
    (h : self.check now customerId uniqueId = (.error decision, limiter))
    (hnew : customerId ∉ self.buckets) :
    self.crowdedOut (self.pruned now customerId) customerId := by
  unfold check at h
  dsimp only at h
  split_ifs at h with hcrowded hfull
  · exact hcrowded
  · rcases bucketFor_cases self now customerId with ⟨hopened, -⟩ | ⟨-, hbucket⟩
    · exact absurd (hopened ▸ hfull) not_exhausted_opened
    · exact absurd (mem_of_lookup hbucket) hnew
  · cases (Prod.mk.inj h).1

/-- Whether a check of a customer with an exhausted bucket is accepted is
whether the bucket has expired. -/
theorem check_ok_iff (hbucket : self.buckets.lookup customerId = some bucket)
    (hfull : self.exhausted bucket uniqueId) :
    (self.check now customerId uniqueId).1 = .ok () ↔ bucket.expired self.window now := by
  have hmem := mem_of_lookup hbucket
  unfold check
  dsimp only
  rw [pruned_of_mem hmem, if_neg fun hcrowded => hcrowded.2 hmem, bucketFor, pruned_of_mem hmem,
    hbucket, Option.getD_some, Bucket.roll]
  by_cases hexpired : bucket.expired self.window now
  · rw [if_pos hexpired, if_neg not_exhausted_opened]
    exact iff_of_true rfl hexpired
  · rw [if_neg hexpired, if_pos hfull]
    exact iff_of_false (by simp) hexpired

/-- The wait in milliseconds covers the remaining time exactly when that is
at most one millisecond or a whole number of them. -/
theorem remaining_le_retryAfterMs :
    self.remaining bucket now ≤ self.retryAfterMs bucket now * 10 ^ 6 ↔
      self.remaining bucket now ≤ 10 ^ 6 ∨ 10 ^ 6 ∣ self.remaining bucket now := by
  rw [retryAfterMs, ← remaining]
  generalize self.remaining bucket now = n
  omega

/-- A retry comes at the end of the window or after it. -/
theorem expired_after_wait (hwindow : self.window = 60 * 10 ^ 9) :
    bucket.expired self.window (now + self.retryAfterMs bucket now * 10 ^ 6) ↔
      bucket.startedAt ≤ now ∧ self.remaining bucket now ≤ self.retryAfterMs bucket
        now * 10 ^ 6 := by
  rcases Nat.lt_or_ge now bucket.startedAt with hfuture | hpast
  · have hwait : self.retryAfterMs bucket now * 10 ^ 6 = 60 * 10 ^ 9 := by
      rw [retryAfterMs, hwindow, Nat.sub_eq_zero_of_le (Nat.le_of_lt hfuture)]
      rfl
    rw [Bucket.expired, hwait, hwindow]
    omega
  · rw [Bucket.expired, remaining, and_iff_right hpast]
    omega

/-- Whoever is refused for its quota and comes back after the time it was
told is accepted exactly when the bucket did not start in the future and
the remaining time is a whole number of milliseconds or less than one. -/
theorem retry_accepted_iff (hwindow : self.window = 60 * 10 ^ 9) {ms : Nat} {limiter : RateLimiter}
    (hrefused : self.check now customerId uniqueId = (.error ⟨ms⟩, limiter))
    (hmem : customerId ∈ self.buckets) :
    (limiter.check (now + ms * 10 ^ 6) customerId uniqueId).1 = .ok () ↔
      ∃ bucket, self.buckets.lookup customerId = some bucket ∧ bucket.startedAt ≤ now
        ∧ (self.remaining bucket now ≤ 10 ^ 6 ∨ 10 ^ 6 ∣ self.remaining bucket now) := by
  obtain ⟨bucket, hbucket, hlive, hfull, hdecision, rfl⟩ := check_eq_error hrefused hmem
  obtain rfl := RateDecision.mk.inj hdecision
  have hretry : (check { self with buckets := self.buckets.insert customerId bucket }
      (now + self.retryAfterMs bucket now * 10 ^ 6) customerId uniqueId).1 = .ok () ↔
        bucket.expired self.window (now + self.retryAfterMs bucket now * 10 ^ 6) :=
    check_ok_iff (AList.lookup_insert _) hfull
  rw [hretry, expired_after_wait hwindow, remaining_le_retryAfterMs]
  constructor
  · exact fun hwait => ⟨bucket, hbucket, hwait⟩
  · rintro ⟨bucket', hbucket', hwait⟩
    rw [hbucket] at hbucket'
    exact Option.some.inj hbucket' ▸ hwait

/-- The limiter of a limit of one after a check at time zero. -/
def usedUp : RateLimiter := ((new 1 1 1).check 0 "customer" "creator").2

/-- Refused at a whole millisecond, the customer is told the rest of the minute. -/
theorem retry_after_whole_milliseconds :
    (usedUp.check (10 ^ 6 + 59999 * 10 ^ 6) "customer" "creator").1 = .ok () :=
  (retry_accepted_iff rfl (rfl : usedUp.check (10 ^ 6) "customer" "creator"
    = (.error ⟨59999⟩, usedUp))
    (by decide)).mpr ⟨⟨0, 1, {"creator"}⟩, rfl, by decide, Or.inr (by decide)⟩

/-- Refused a nanosecond after the start, it is told one millisecond less
than it has to wait. -/
theorem retry_refused :
    usedUp.check 1 "customer" "creator" = (.error ⟨59999⟩, usedUp)
      ∧ (usedUp.check (1 + 59999 * 10 ^ 6) "customer" "creator").1 = .error ⟨1⟩ := by
  constructor
  · rfl
  · rfl

end TiktokSigner.LiveApi.RateLimiter
