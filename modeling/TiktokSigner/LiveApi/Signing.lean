import TiktokSigner.LiveApi.RoomCache
import TiktokSigner.Lib.Lts
import TiktokSigner.Lib.Crowd

/-!
# The signing permits and their gauge

`ConnectService::sign` holds a permit of `signing_slots` from its check to
its return, and raises `signer_in_flight` before its only await and lowers
it after. The permit goes back however the call ends; the gauge is lowered
by a statement, which a call dropped at the await never reaches. So the
gauge follows the permits in exactly the runs without such a drop.

A step is a statement whose effect another thread can see; `midPoll` counts
the calls between their permit and their gauge.
-/

namespace TiktokSigner

open Crowd Lts

inductive SignFailure where
  | refused (message : String)
  | unavailable (message : String)
  | failed (message : String)
deriving DecidableEq

/-- `impl From<SignFailure> for ApiError`. -/
def ApiError.fromSignFailure : SignFailure → ApiError
  | .refused message => .tikTokRefused message
  | .unavailable message => .signerUnavailable message
  | .failed message => .signFailed message

structure SignedConnection where
  url : String
  cookies : String
  userAgent : String
deriving DecidableEq

namespace LiveApi

/-- What a call of `sign` returns. -/
abbrev SignResult := Except ApiError SignedConnection

/-- What the await of `timeout(request_timeout, sign_room(..))` gives. -/
def signResult : Option (Except SignFailure SignedConnection) → SignResult
  | some result => result.mapError .fromSignFailure
  | none => .error (.signFailed "signing timed out")

/-- Where a call of `sign` is. -/
inductive SignPhase where
  /-- Has its permit, the gauge not yet raised. -/
  | acquired
  /-- At the await. -/
  | signing
  /-- Past the await, the gauge not yet lowered. -/
  | answered (result : SignResult)
  /-- The gauge is lowered, the permit not yet given back. -/
  | leaving (result : SignResult)
  | done (result : SignResult)
  /-- Its future was dropped at the await. -/
  | cancelled

namespace SignPhase

/-- Has a permit of `signing_slots`. -/
def holdsPermit : SignPhase → Bool
  | .acquired | .signing | .answered _ | .leaving _ => true
  | .done _ | .cancelled => false

/-- Between its permit and its gauge. -/
def isMidPoll : SignPhase → Bool
  | .acquired | .leaving _ => true
  | _ => false

def isCancelled : SignPhase → Bool
  | .cancelled => true
  | _ => false

/-- Has raised the gauge and not lowered it. -/
def isCounted : SignPhase → Bool
  | .signing | .answered _ | .cancelled => true
  | _ => false

end SignPhase

/-- The part of `ConnectService` and its metrics that `sign` touches. -/
structure Signing where
  /-- Permits left in the semaphore. -/
  signingSlots : Nat
  signerInFlight : Nat := 0
  signRequestsTotal : Nat := 0
  signSuccessTotal : Nat := 0
  signFailureTotal : Nat := 0
  rateLimitRejectionsTotal : Nat := 0
  /-- Observations of `sign_latency_seconds`. -/
  signLatencies : Nat := 0
  calls : List SignPhase := []

namespace Signing

def start (maxConcurrentSigns : Nat) : Signing := { signingSlots := maxConcurrentSigns }

inductive Action where
  /-- A call begins; `ready` is what `signer.ready()` says. -/
  | begin (ready : Bool)
  | enter (i : Nat)
  /-- The await of call `i` ends, without a value when it timed out. -/
  | answer (i : Nat) (value : Option (Except SignFailure SignedConnection))
  | uncount (i : Nat)
  | leave (i : Nat)
  | cancel (i : Nat)

def setCall (s : Signing) (i : Nat) (phase : SignPhase) : Signing :=
  { s with calls := s.calls.set i phase }

def step (s : Signing) : Action → Option Signing
  | .begin ready =>
      if !ready then
        some { s with calls := s.calls
          ++ [.done (.error (.signerUnavailable "the warm signer runtime is not ready"))] }
      else if 0 < s.signingSlots then
        some { s with signingSlots := s.signingSlots - 1, calls := s.calls ++ [.acquired] }
      else
        some { s with
          rateLimitRejectionsTotal := s.rateLimitRejectionsTotal + 1,
          calls := s.calls
            ++ [.done (.error (.rateLimited "Signing capacity is currently full" 500))] }
  | .enter i =>
      match s.calls[i]? with
      | some .acquired =>
          some ({ s with
            signerInFlight := s.signerInFlight + 1,
            signRequestsTotal := s.signRequestsTotal + 1 }.setCall i .signing)
      | _ => none
  | .answer i value =>
      match s.calls[i]? with
      | some .signing =>
          some ({ s with signLatencies := s.signLatencies + 1 }.setCall i
            (.answered (signResult value)))
      | _ => none
  | .uncount i =>
      match s.calls[i]? with
      | some (.answered result) =>
          some ({ s with signerInFlight := s.signerInFlight - 1 }.setCall i (.leaving result))
      | _ => none
  | .leave i =>
      match s.calls[i]? with
      | some (.leaving result) =>
          let s := match result with
            | .ok _ => { s with signSuccessTotal := s.signSuccessTotal + 1 }
            | .error _ => { s with signFailureTotal := s.signFailureTotal + 1 }
          some ({ s with signingSlots := s.signingSlots + 1 }.setCall i (.done result))
      | _ => none
  | .cancel i =>
      match s.calls[i]? with
      | some .signing =>
          some ({ s with signingSlots := s.signingSlots + 1 }.setCall i .cancelled)
      | _ => none

/-- Signing permits held. -/
def heldPermits (s : Signing) : Nat := s.calls.countP SignPhase.holdsPermit

def midPoll (s : Signing) : Nat := s.calls.countP SignPhase.isMidPoll

def cancelled (s : Signing) : Nat := s.calls.countP SignPhase.isCancelled

/-! ## The accounts -/

/-- What the semaphore and the gauge count. -/
structure Accounts (maxConcurrentSigns : Nat) (s : Signing) : Prop where
  permits : s.signingSlots + s.heldPermits = maxConcurrentSigns
  gauge : s.signerInFlight = s.calls.countP SignPhase.isCounted

section

variable {maxConcurrentSigns : Nat} {s t : Signing} {a : Action}

/-- The action drops the future of a call. -/
def Action.isCancel : Action → Bool
  | .cancel _ => true
  | _ => false

/-- What a step does: a call begins, with or without a permit, or one goes
from a phase to another. -/
inductive Moves (s : Signing) (a : Action) (t : Signing) : Prop
  | refuse (result : SignResult) (hcancel : a.isCancel = false)
      (hcalls : t.calls = s.calls ++ [.done result]) (hslots : t.signingSlots = s.signingSlots)
      (hgauge : t.signerInFlight = s.signerInFlight)
  | acquire (hcancel : a.isCancel = false) (hcalls : t.calls = s.calls ++ [.acquired])
      (hslots : t.signingSlots + 1 = s.signingSlots) (hgauge : t.signerInFlight = s.signerInFlight)
  | move (i : Nat) (phase phase' : SignPhase) (hcall : s.calls[i]? = some phase)
      (hcalls : t.calls = s.calls.set i phase')
      (hcancel : phase'.isCancelled.toNat = phase.isCancelled.toNat + a.isCancel.toNat)
      (hslots : t.signingSlots + phase'.holdsPermit.toNat =
        s.signingSlots + phase.holdsPermit.toNat)
      (hgauge : t.signerInFlight = s.signerInFlight + phase'.isCounted.toNat
        - phase.isCounted.toNat)

theorem moves_of_step (hs : s.step a = some t) : Moves s a t := by
  cases a with
  | begin ready =>
    rw [step] at hs
    split at hs
    case isTrue => cases hs; exact .refuse _ rfl rfl rfl rfl
    case isFalse =>
      split at hs
      case isTrue hfree => cases hs; exact .acquire rfl rfl (Nat.sub_add_cancel hfree) rfl
      case isFalse => cases hs; exact .refuse _ rfl rfl rfl rfl
  | enter i =>
    rw [step] at hs
    split at hs
    case h_1 hcall => cases hs; exact .move i _ _ hcall rfl rfl rfl rfl
    case h_2 => cases hs
  | answer i value =>
    rw [step] at hs
    split at hs
    case h_1 hcall => cases hs; exact .move i _ _ hcall rfl rfl rfl rfl
    case h_2 => cases hs
  | uncount i =>
    rw [step] at hs
    split at hs
    case h_1 result hcall => cases hs; exact .move i _ _ hcall rfl rfl rfl rfl
    case h_2 => cases hs
  | leave i =>
    rw [step] at hs
    split at hs
    case h_1 result hcall => cases result <;> cases hs <;> exact .move i _ _ hcall rfl rfl rfl rfl
    case h_2 => cases hs
  | cancel i =>
    rw [step] at hs
    split at hs
    case h_1 hcall => cases hs; exact .move i _ _ hcall rfl rfl rfl rfl
    case h_2 => cases hs

theorem Accounts.step (h : Accounts maxConcurrentSigns s) (hs : s.step a = some t) :
    Accounts maxConcurrentSigns t := by
  have hpermits := h.permits
  have hgauged := h.gauge
  rw [heldPermits] at hpermits
  cases moves_of_step hs with
  | refuse result _ hcalls hslots hgauge =>
    constructor
    · rw [heldPermits, hcalls, countP_concat, hslots]
      exact hpermits
    · rw [hcalls, countP_concat, hgauge]
      exact hgauged
  | acquire _ hcalls hslots hgauge =>
    constructor
    · rw [heldPermits, hcalls, countP_concat, SignPhase.holdsPermit, Bool.toNat_true]
      omega
    · rw [hcalls, countP_concat, hgauge]
      exact hgauged
  | move i phase phase' hcall hcalls _ hslots hgauge =>
    have hheld := countP_set_add hcall phase' SignPhase.holdsPermit
    have hcounted := countP_set_add hcall phase' SignPhase.isCounted
    rw [← hcalls] at hheld hcounted
    constructor
    · rw [heldPermits]
      omega
    · omega

theorem cancelled_of_step (hs : s.step a = some t) :
    t.cancelled = s.cancelled + a.isCancel.toNat := by
  cases moves_of_step hs with
  | refuse result hcancel hcalls _ _ =>
    rw [cancelled, hcalls, countP_concat, hcancel]
    rfl
  | acquire hcancel hcalls _ _ =>
    rw [cancelled, hcalls, countP_concat, hcancel]
    rfl
  | move i phase phase' hcall hcalls hcancel _ _ =>
    have hcount := countP_set_add hcall phase' SignPhase.isCancelled
    rw [← hcalls] at hcount
    rw [cancelled, cancelled]
    omega

/-- A call is counted by the gauge or between permit and gauge when it holds
a permit, or was dropped. -/
theorem counted_add_midPoll (s : Signing) :
    s.calls.countP SignPhase.isCounted + s.midPoll = s.heldPermits + s.cancelled := by
  rw [midPoll, heldPermits, cancelled]
  induction s.calls with
  | nil => rfl
  | cons phase calls ih =>
    simp only [List.countP_cons]
    cases phase <;> simp [SignPhase.isCounted, SignPhase.isMidPoll, SignPhase.holdsPermit,
      SignPhase.isCancelled] <;> omega

/-! ## The law -/

/-- No future is dropped at the await. -/
def RunsOn (_ : Signing) (a : Action) : Prop := a.isCancel = false

instance (s : Signing) (a : Action) : Decidable (s.RunsOn a) :=
  inferInstanceAs (Decidable (a.isCancel = false))

theorem cancelled_eq_zero_iff {as : List Action}
    (hrun : run step (start maxConcurrentSigns) as = some s) :
    s.cancelled = 0 ↔ AllMeet step RunsOn (start maxConcurrentSigns) as := by
  have hkeep : ∀ s a t, s.cancelled = 0 → RunsOn s a → step s a = some t → t.cancelled = 0 := by
    intro s a t hzero hruns hs
    rw [cancelled_of_step hs, hzero, show a.isCancel = false from hruns]
    rfl
  have hbreak : ∀ s a t, s.cancelled = 0 → ¬RunsOn s a → step s a = some t → t.cancelled ≠ 0 := by
    intro s a t _ hruns hs
    rw [cancelled_of_step hs, show a.isCancel = true by simpa [RunsOn] using hruns]
    exact Nat.succ_ne_zero _
  have hstay : ∀ s a t, s.cancelled ≠ 0 → step s a = some t → t.cancelled ≠ 0 := by
    intro s a t hne hs
    rw [cancelled_of_step hs]
    omega
  rw [allMeet_iff_of_run hkeep hbreak hstay (fun s hzero hne => hne hzero) rfl hrun, not_not]

end

/-- In every run: the gauge, with the calls that are between their permit
and their gauge, is the number of permits held exactly when no call was
dropped at its await; and with no call in progress it is zero exactly then. -/
theorem gauge_eq_permits_iff (maxConcurrentSigns : Nat) (as : List Action) (s : Signing)
    (hrun : run step (start maxConcurrentSigns) as = some s) :
    (s.signerInFlight + s.midPoll = s.heldPermits ↔
      AllMeet step RunsOn (start maxConcurrentSigns) as)
    ∧ (s.heldPermits = 0 →
      (s.signerInFlight = 0 ↔ AllMeet step RunsOn (start maxConcurrentSigns) as)) := by
  have h : Accounts maxConcurrentSigns s :=
    run_invariant_all (fun _ _ _ h hs => Accounts.step h hs) ⟨rfl, rfl⟩ hrun
  have hgauge := h.gauge
  have hsum := s.counted_add_midPoll
  rw [← cancelled_eq_zero_iff hrun]
  constructor
  · omega
  · intro hnone
    have hmid : s.midPoll ≤ s.heldPermits := by
      refine List.countP_mono_left fun phase _ hmid => ?_
      cases phase <;> simp_all [SignPhase.isMidPoll, SignPhase.holdsPermit]
    omega

/-- Two calls, one of them refused for lack of a permit. -/
theorem gauge_eq_permits_iff_of_two : ∃ s,
    run step (start 1) [.begin true, .enter 0, .begin true, .answer 0 none, .uncount 0, .leave 0]
        = some s
      ∧ s.signerInFlight + s.midPoll = s.heldPermits := by
  refine exists_run (P := fun s : Signing => s.signingSlots = 1) (by decide) ?_
  intro s hrun _
  exact (gauge_eq_permits_iff 1 _ s hrun).1.mpr (by decide)

/-- The caller's future is dropped while the signer works: the permit is
back, the gauge stays at one with no call in progress. -/
theorem gauge_left_behind : ∃ s,
    run step (start 4) [.begin true, .enter 0, .cancel 0] = some s
      ∧ s.midPoll = 0 ∧ s.heldPermits = 0 ∧ s.signerInFlight = 1 := by
  refine exists_run (P := fun s : Signing =>
    s.midPoll = 0 ∧ s.heldPermits = 0 ∧ s.signerInFlight = 1) (by decide) ?_
  intro s _ h
  exact h

end Signing

end LiveApi

end TiktokSigner
