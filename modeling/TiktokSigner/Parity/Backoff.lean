import TiktokSigner.Lib.Backoff

/-!
# The delay before a reconnect, three times

`ReconnectPolicy::backoff` of the socket crate, `reconnectDelay` and
`#scheduleReconnect` of the TypeScript packages, `ReconnectPolicy.delay` of the
Java SDK, each without jitter. A duration is its nanoseconds; a JavaScript
number and a Java `double` that is a whole number times a power of two are
exact, and one past the largest loses to the ceiling.
-/

namespace TiktokSigner.Parity

/-! ## Rust -/

namespace Rust

/-- `std::time::Duration`: seconds in a `u64`. -/
structure Duration where
  nanos : Nat
  lt : nanos < 2 ^ 64 * 1000000000

def Duration.checkedMul (d : Duration) (k : UInt32) : Option Duration :=
  if h : d.nanos * k.toNat < 2 ^ 64 * 1000000000 then some ⟨d.nanos * k.toNat, h⟩ else none

/-- `Ord::min`. -/
def Duration.min (a b : Duration) : Duration := if a.nanos ≤ b.nanos then a else b

structure ReconnectPolicy where
  maxAttempts : UInt32
  initialBackoff : Duration
  maxBackoff : Duration

/-- Delay before the `attempt`-th consecutive retry, counting from 1. -/
def ReconnectPolicy.backoff (policy : ReconnectPolicy) (attempt : UInt32) : Duration :=
  if attempt ≤ 1 then policy.initialBackoff.min policy.maxBackoff
  else
    let shift := if attempt - 1 ≤ 16 then attempt - 1 else 16
    let doubled := (policy.initialBackoff.checkedMul (1 <<< shift)).getD policy.maxBackoff
    doubled.min policy.maxBackoff

theorem Duration.nanos_min (a b : Duration) : (a.min b).nanos = Nat.min a.nanos b.nanos := by
  rw [Duration.min]
  split_ifs with h
  · exact (Nat.min_eq_left h).symm
  · exact (Nat.min_eq_right (Nat.le_of_not_le h)).symm

/-- A product that overflows is above any ceiling. -/
theorem Duration.nanos_checkedMul (d ceiling : Duration) (k : UInt32) :
    (((d.checkedMul k).getD ceiling).min ceiling).nanos =
      Nat.min (d.nanos * k.toNat) ceiling.nanos := by
  have hlt := ceiling.lt
  rw [Duration.nanos_min, Duration.checkedMul]
  split_ifs with h
  · rfl
  · rw [Option.getD_none]
    exact (Nat.min_self _).trans (Nat.min_eq_right (by omega)).symm

theorem toNat_shift {k : Nat} (h : k ≤ 16) : ((1 : UInt32) <<< UInt32.ofNat k).toNat = 2 ^ k := by
  have hall : ∀ k ∈ List.range 17, ((1 : UInt32) <<< UInt32.ofNat k).toNat = 2 ^ k := by decide
  exact hall k (List.mem_range.mpr (Nat.lt_succ_of_le h))

theorem shift_eq {attempt : UInt32} (h : 1 < attempt.toNat) :
    (if attempt - 1 ≤ 16 then attempt - 1 else 16) =
      UInt32.ofNat (Nat.min (attempt.toNat - 1) 16) := by
  have hlt := attempt.toNat_lt
  have hone : (1 : UInt32).toNat = 1 := rfl
  have hsub : (attempt - 1).toNat = attempt.toNat - 1 :=
    UInt32.toNat_sub_of_le _ _ (UInt32.le_iff_toNat_le.mpr (by omega))
  have hle : attempt - 1 ≤ 16 ↔ attempt.toNat - 1 ≤ 16 := by
    rw [UInt32.le_iff_toNat_le, hsub]
    rfl
  split_ifs with hshort
  · have hmin : Nat.min (attempt.toNat - 1) 16 = attempt.toNat - 1 :=
      Nat.min_eq_left (hle.mp hshort)
    rw [hmin, ← hsub, UInt32.ofNat_toNat]
  · have hmin : Nat.min (attempt.toNat - 1) 16 = 16 :=
      Nat.min_eq_right (Nat.le_of_not_le fun h => hshort (hle.mpr h))
    rw [hmin]
    rfl

/-- Sixteen doublings at most. -/
theorem backoff_nanos (policy : ReconnectPolicy) (attempt : UInt32) :
    (policy.backoff attempt).nanos =
      Backoff.capped 16 policy.initialBackoff.nanos policy.maxBackoff.nanos
        (attempt.toNat - 1) := by
  rw [ReconnectPolicy.backoff, Backoff.capped, Backoff.exact]
  by_cases hfirst : attempt ≤ 1
  · have hle : attempt.toNat ≤ 1 := UInt32.le_iff_toNat_le.mp hfirst
    have hzero : attempt.toNat - 1 = 0 := by omega
    rw [if_pos hfirst, Duration.nanos_min, hzero, Nat.zero_min, Nat.pow_zero, Nat.mul_one]
  · have hlt : 1 < attempt.toNat :=
      Nat.lt_of_not_le fun hle => hfirst (UInt32.le_iff_toNat_le.mpr hle)
    rw [if_neg hfirst]
    simp only [shift_eq hlt, Duration.nanos_checkedMul]
    rw [toNat_shift (Nat.min_le_right _ _)]

end Rust

/-! ## TypeScript -/

namespace TypeScript

/-- In milliseconds. -/
structure ReconnectPolicy where
  attempts : Nat
  initialMs : Nat
  maxMs : Nat

/-- `reconnectDelay`, where `random` gives zero. -/
def reconnectDelay (policy : ReconnectPolicy) (attempt : Int) : Nat :=
  let exponent := max 0 (min 30 (attempt - 1))
  let base := min (policy.initialMs * 2 ^ exponent.toNat) policy.maxMs
  min policy.maxMs base

/-- `baseMs` of `#scheduleReconnect`. -/
def baseMs (policy : ReconnectPolicy) (attempt : Int) : Nat :=
  min (policy.initialMs * 2 ^ (min (attempt - 1) 30).toNat) policy.maxMs

end TypeScript

/-! ## Java -/

namespace Java

/-- `Duration.toMillis`. -/
def toMillis (nanos : Nat) : Nat := nanos / 1000000

/-- The policies that the constructor accepts, in nanoseconds. -/
structure ReconnectPolicy where
  attempts : Nat
  initialDelay : Nat
  maxDelay : Nat
  initial_pos : 0 < initialDelay
  initial_le : initialDelay ≤ maxDelay
  max_le : toMillis maxDelay ≤ 2147483647

/-- `delay`, where `random` is zero, in nanoseconds. -/
def ReconnectPolicy.delay (policy : ReconnectPolicy) (attempt : Int)
    (retryAfterMs : Option Int) : Nat :=
  let base := min
    (toMillis policy.initialDelay * 2 ^ (min 30 (max 0 (attempt - 1))).toNat)
    (toMillis policy.maxDelay)
  let delay := min (toMillis policy.maxDelay) base
  max delay ((retryAfterMs.map fun retryAfterMs => (max 0 retryAfterMs).toNat).getD 0) * 1000000

end Java

/-! ## The three of them -/

theorem reconnectDelay_eq (policy : TypeScript.ReconnectPolicy) (n : Nat) :
    TypeScript.reconnectDelay policy n = Backoff.capped 30 policy.initialMs policy.maxMs (n - 1) := by
  have hexponent : (max 0 (min 30 ((n : Int) - 1))).toNat = min (n - 1) 30 := by omega
  rw [TypeScript.reconnectDelay, hexponent]
  exact Nat.min_eq_right (Nat.min_le_right _ _)

theorem baseMs_eq (policy : TypeScript.ReconnectPolicy) (n : Nat) :
    TypeScript.baseMs policy n = Backoff.capped 30 policy.initialMs policy.maxMs (n - 1) := by
  have hexponent : (min ((n : Int) - 1) 30).toNat = min (n - 1) 30 := by omega
  rw [TypeScript.baseMs, hexponent]
  rfl

theorem delay_eq (policy : Java.ReconnectPolicy) (n : Nat) :
    policy.delay n none =
      Backoff.capped 30 (Java.toMillis policy.initialDelay) (Java.toMillis policy.maxDelay)
        (n - 1) * 1000000 := by
  have hexponent : (min 30 (max 0 ((n : Int) - 1))).toNat = min (n - 1) 30 := by omega
  rw [Java.ReconnectPolicy.delay, hexponent]
  congr 1
  exact (Nat.max_zero _).trans (Nat.min_eq_right (Nat.min_le_right _ _))

/-- Sixteen doublings against thirty. -/
theorem backoff_eq_iff {rust : Rust.ReconnectPolicy} {initialMs maxMs : Nat}
    (hinitial : rust.initialBackoff.nanos = initialMs * 1000000)
    (hmax : rust.maxBackoff.nanos = maxMs * 1000000) (n : UInt32) :
    (rust.backoff n).nanos = Backoff.capped 30 initialMs maxMs (n.toNat - 1) * 1000000 ↔
      n.toNat ≤ 17 ∨ initialMs = 0 ∨ maxMs ≤ initialMs * 2 ^ 16 := by
  rw [Rust.backoff_nanos, hinitial, hmax, Backoff.capped_mul, Nat.mul_left_inj (by decide),
    Backoff.capped_eq_capped_iff (by decide)]
  omega

/-- Rust doubles up to sixteen times, the others up to thirty times, each
up to the ceiling; so the delays of Rust are exact, and the same as those of
the others, for seventeen attempts, and for all where the ceiling is
reached by then. -/
theorem backoff_capped :
    (∀ (policy : Rust.ReconnectPolicy) (n : UInt32),
      (policy.backoff n).nanos =
          Backoff.capped 16 policy.initialBackoff.nanos policy.maxBackoff.nanos (n.toNat - 1) ∧
        (policy.backoff n).nanos ≤ policy.maxBackoff.nanos ∧
        (∀ n', n ≤ n' → (policy.backoff n).nanos ≤ (policy.backoff n').nanos) ∧
        ((policy.backoff n).nanos =
            Backoff.exact policy.initialBackoff.nanos policy.maxBackoff.nanos (n.toNat - 1) ↔
          n.toNat ≤ 17 ∨ policy.initialBackoff.nanos = 0 ∨
            policy.maxBackoff.nanos ≤ policy.initialBackoff.nanos * 2 ^ 16)) ∧
    (∀ (policy : TypeScript.ReconnectPolicy) (rust : Rust.ReconnectPolicy) (n : UInt32),
      rust.initialBackoff.nanos = policy.initialMs * 1000000 →
      rust.maxBackoff.nanos = policy.maxMs * 1000000 →
      TypeScript.reconnectDelay policy n.toNat =
          Backoff.capped 30 policy.initialMs policy.maxMs (n.toNat - 1) ∧
        TypeScript.baseMs policy n.toNat = TypeScript.reconnectDelay policy n.toNat ∧
        ((rust.backoff n).nanos = TypeScript.reconnectDelay policy n.toNat * 1000000 ↔
          n.toNat ≤ 17 ∨ policy.initialMs = 0 ∨ policy.maxMs ≤ policy.initialMs * 2 ^ 16)) ∧
    (∀ (policy : Java.ReconnectPolicy) (rust : Rust.ReconnectPolicy) (n : UInt32)
        (initialMs maxMs : Nat),
      policy.initialDelay = initialMs * 1000000 → policy.maxDelay = maxMs * 1000000 →
      rust.initialBackoff.nanos = initialMs * 1000000 →
      rust.maxBackoff.nanos = maxMs * 1000000 →
      policy.delay n.toNat none = Backoff.capped 30 initialMs maxMs (n.toNat - 1) * 1000000 ∧
        ((rust.backoff n).nanos = policy.delay n.toNat none ↔
          n.toNat ≤ 17 ∨ maxMs ≤ initialMs * 2 ^ 16)) := by
  refine ⟨fun policy n => ⟨Rust.backoff_nanos policy n, ?_, fun n' hle => ?_, ?_⟩,
    fun policy rust n hinitial hmax => ⟨reconnectDelay_eq policy _, ?_, ?_⟩,
    fun policy rust n initialMs maxMs hpolicy hpolicyMax hinitial hmax => ?_⟩
  · rw [Rust.backoff_nanos]
    exact Backoff.capped_le
  · have hle' := UInt32.le_iff_toNat_le.mp hle
    rw [Rust.backoff_nanos, Rust.backoff_nanos]
    exact Backoff.capped_mono (by omega)
  · rw [Rust.backoff_nanos, Backoff.capped_eq_exact_iff]
    omega
  · rw [baseMs_eq, reconnectDelay_eq]
  · rw [reconnectDelay_eq]
    exact backoff_eq_iff hinitial hmax n
  · have hmillis : ∀ ms, Java.toMillis (ms * 1000000) = ms :=
      fun ms => Nat.mul_div_cancel ms (by decide)
    have hpositive : initialMs ≠ 0 := by
      rintro rfl
      have hpos := policy.initial_pos
      omega
    rw [delay_eq, hpolicy, hpolicyMax, hmillis, hmillis, backoff_eq_iff hinitial hmax]
    exact ⟨rfl, by simp [hpositive]⟩

/-- Half a second up to half a minute, in the three languages: the ceiling is
reached by the seventh attempt, so the delays are the same for every one. -/
theorem backoff_capped_half_minute :
    let rust : Rust.ReconnectPolicy :=
      { maxAttempts := 20
        initialBackoff := ⟨500 * 1000000, by decide⟩
        maxBackoff := ⟨30000 * 1000000, by decide⟩ }
    let policy : TypeScript.ReconnectPolicy := { attempts := 20, initialMs := 500, maxMs := 30000 }
    let java : Java.ReconnectPolicy :=
      { attempts := 20
        initialDelay := 500 * 1000000
        maxDelay := 30000 * 1000000
        initial_pos := by decide
        initial_le := by decide
        max_le := by decide }
    (rust.backoff 40).nanos = TypeScript.reconnectDelay policy 40 * 1000000 ∧
      (rust.backoff 40).nanos = java.delay 40 none ∧
      java.delay 40 none = Backoff.capped 30 500 30000 39 * 1000000 := by
  intro rust policy java
  obtain ⟨-, htypescript, hjava⟩ := backoff_capped
  obtain ⟨-, -, hsame⟩ := htypescript policy rust 40 rfl rfl
  obtain ⟨hdelay, hsame'⟩ := hjava java rust 40 500 30000 rfl rfl rfl rfl
  exact ⟨hsame.mpr (Or.inr (Or.inr (by decide))), hsame'.mpr (Or.inr (by decide)), hdelay⟩

/-- A millisecond up to a day: the eighteenth delay is not doubled. -/
theorem backoff_not_exact :
    let rust : Rust.ReconnectPolicy :=
      { maxAttempts := 20
        initialBackoff := ⟨1 * 1000000, by decide⟩
        maxBackoff := ⟨86400000 * 1000000, by decide⟩ }
    let policy : TypeScript.ReconnectPolicy := { attempts := 20, initialMs := 1, maxMs := 86400000 }
    (rust.backoff 18).nanos = 65536 * 1000000 ∧
      Backoff.exact rust.initialBackoff.nanos rust.maxBackoff.nanos 17 = 131072 * 1000000 ∧
      TypeScript.reconnectDelay policy 18 = 131072 := by
  decide

end TiktokSigner.Parity
