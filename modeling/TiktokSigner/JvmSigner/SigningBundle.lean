import TiktokSigner.Lib.Lts
import TiktokSigner.Lib.Mutex
import Mathlib.Algebra.GroupWithZero.Nat
import Mathlib.Data.List.Flatten
import Mathlib.Logic.Function.Basic

/-!
# `SigningBundleManager`

`load` of the manager, statement by statement, on the threads of any number
of JVMs that share one cache directory. A JVM may die between two
statements; its locks are then free, and what it wrote stays.

The argument is in two parts. Where a thread is decides which locks it
holds (`next_holds`), so at most one thread of all is behind the lock file.
What a thread has in its hands says what is on the disk (`Sound`), and only
the thread behind the lock file changes the disk.

The digest and the decoding of the JDK are parameters.
-/

namespace TiktokSigner.JvmSigner.SigningBundleManager

open Function (update)

abbrev Bytes := List UInt8

def SHA256 : String := "dee22566273d398e074df6db40f39cfd827f6b8efd6fc382de03c44c501299ac"

def LIMIT : Nat := 4 * 1024 * 1024

structure Jdk where
  /-- `HexFormat.of().formatHex` of the digest. -/
  sha256 : Bytes → String
  /-- `new String(bytes, UTF_8)`. -/
  utf8 : Bytes → String

inductive Failure where
  | io (message : String)
  /-- An exception of the system's own. -/
  | system
  | interrupted
  | overlappingFileLock
deriving DecidableEq

def exceedsLimit : Failure := .io "Signing bundle exceeds size limit"

def refused (status : Nat) : Failure :=
  .io ("Bundle download refused: HTTP " ++ toString status)

def verify (jdk : Jdk) (bytes : Bytes) : Except Failure String :=
  if bytes.length > LIMIT then .error exceedsLimit
  else if SHA256 ≠ jdk.sha256 bytes then .error (.io "Signing bundle SHA-256 mismatch")
  else .ok (jdk.utf8 bytes)

/-! ## The body of a response -/

inductive Signal where
  | next (buffers : List Bytes)
  | error
  | complete

/-- With its delegate, the subscriber of `BodySubscribers.ofByteArray`. -/
structure LimitedBody where
  received : Nat := 0
  cancelled : Bool := false
  buffered : List Bytes := []
  body : Option (Except Failure Bytes) := none

namespace LimitedBody

variable (self : LimitedBody)

/-- The first completion of a future counts. -/
def completeWith (result : Except Failure Bytes) : LimitedBody :=
  { self with buffered := [], body := self.body.or (some result) }

def onSignal : Signal → LimitedBody
  | .next buffers =>
      let received := self.received + (buffers.map List.length).sum
      if received > LIMIT then
        { self with received, cancelled := true }.completeWith (.error exceedsLimit)
      else { self with received, buffered := self.buffered ++ buffers }
  | .error => self.completeWith (.error .system)
  | .complete => self.completeWith (.ok self.buffered.flatten)

def receive (signals : List Signal) : LimitedBody := signals.foldl onSignal {}

/-- The bytes that the delegate holds. -/
def held (self : LimitedBody) : Nat := (self.buffered.map List.length).sum

/-- The delegate holds no more than the limit. -/
theorem held_onSignal {self : LimitedBody} (signal : Signal)
    (h : self.held ≤ self.received ∧ self.held ≤ LIMIT) :
    (self.onSignal signal).held ≤ (self.onSignal signal).received
      ∧ (self.onSignal signal).held ≤ LIMIT := by
  cases signal with
  | next buffers =>
    simp only [onSignal]
    split_ifs with hlimit
    · exact ⟨Nat.zero_le _, Nat.zero_le _⟩
    · simp only [held, List.map_append, List.sum_append] at h ⊢
      omega
  | error => exact ⟨Nat.zero_le _, Nat.zero_le _⟩
  | complete => exact ⟨Nat.zero_le _, Nat.zero_le _⟩

theorem held_foldl {self : LimitedBody} (signals : List Signal)
    (h : self.held ≤ self.received ∧ self.held ≤ LIMIT) :
    (signals.foldl onSignal self).held ≤ LIMIT := by
  induction signals generalizing self with
  | nil => exact h.2
  | cons signal signals ih => exact ih (held_onSignal signal h)

/-- A completed body stays. -/
theorem body_foldl {self : LimitedBody} {result : Except Failure Bytes} (signals : List Signal)
    (h : self.body = some result) : (signals.foldl onSignal self).body = some result := by
  induction signals generalizing self with
  | nil => exact h
  | cons signal signals ih =>
    refine ih ?_
    cases signal with
    | next buffers =>
      simp only [onSignal]
      split_ifs
      · simp [completeWith, h]
      · exact h
    | error => simp [onSignal, completeWith, h]
    | complete => simp [onSignal, completeWith, h]

theorem sum_length (buffers : List Bytes) :
    (buffers.map List.length).sum = buffers.flatten.length := (List.length_flatten ..).symm

/-- Induction on the signals, from any point at which the body is open. -/
theorem foldl_ok_iff {buffered : List Bytes} {bytes : Bytes} (signals : List Signal)
    (hbuffered : buffered.flatten.length ≤ LIMIT) :
    (signals.foldl onSignal ⟨buffered.flatten.length, false, buffered, none⟩).body
        = some (.ok bytes)
      ↔ ∃ (batches : List (List Bytes)) (rest : List Signal),
        signals = batches.map Signal.next ++ .complete :: rest
        ∧ bytes = (buffered ++ batches.flatten).flatten ∧ bytes.length ≤ LIMIT := by
  induction signals generalizing buffered with
  | nil => simp
  | cons signal signals ih =>
    rw [List.foldl_cons]
    cases signal with
    | next buffers =>
      have htotal : buffered.flatten.length + (buffers.map List.length).sum
          = (buffered ++ buffers).flatten.length := by
        rw [sum_length, List.flatten_append, List.length_append]
      by_cases hlimit : (buffered ++ buffers).flatten.length > LIMIT
      · have hbody : (onSignal ⟨buffered.flatten.length, false, buffered, none⟩
            (.next buffers)).body = some (.error exceedsLimit) := by
          simp only [onSignal, htotal, if_pos hlimit]
          rfl
        rw [body_foldl signals hbody]
        refine ⟨fun h => absurd (Option.some.inj h) (by simp), ?_⟩
        rintro ⟨batches, rest, hsignals, rfl, hbytes⟩
        -- the first batch is this one, and it alone is too much
        cases batches with
        | nil => cases hsignals
        | cons batch batches =>
          obtain ⟨⟨rfl⟩, -⟩ := List.cons.inj hsignals
          simp only [List.flatten_append, List.flatten_cons, List.length_append] at hlimit hbytes
          omega
      · have hopen : onSignal ⟨buffered.flatten.length, false, buffered, none⟩ (.next buffers)
            = ⟨(buffered ++ buffers).flatten.length, false, buffered ++ buffers, none⟩ := by
          simp only [onSignal, htotal, if_neg hlimit]
        rw [hopen, ih (Nat.le_of_not_lt hlimit)]
        constructor
        · rintro ⟨batches, rest, rfl, rfl, hbytes⟩
          exact ⟨buffers :: batches, rest, rfl, by rw [List.flatten_cons, List.append_assoc],
            hbytes⟩
        · rintro ⟨batches, rest, hsignals, rfl, hbytes⟩
          cases batches with
          | nil => cases hsignals
          | cons batch batches =>
            obtain ⟨⟨rfl⟩, rfl⟩ := List.cons.inj hsignals
            exact ⟨batches, rest, rfl, by rw [List.flatten_cons, List.append_assoc], hbytes⟩
    | error =>
      have hbody : (onSignal ⟨buffered.flatten.length, false, buffered, none⟩ .error).body
          = some (.error .system) := rfl
      rw [body_foldl signals hbody]
      refine ⟨fun h => absurd (Option.some.inj h) (by simp), ?_⟩
      rintro ⟨batches | ⟨batch, batches⟩, rest, hsignals, -⟩ <;> cases hsignals
    | complete =>
      have hbody : (onSignal ⟨buffered.flatten.length, false, buffered, none⟩ .complete).body
          = some (.ok buffered.flatten) := rfl
      rw [body_foldl signals hbody]
      constructor
      · intro h
        cases h
        exact ⟨[], signals, rfl, by rw [List.flatten_nil, List.append_nil], hbuffered⟩
      · rintro ⟨batches, rest, hsignals, rfl, -⟩
        cases batches with
        | nil => rw [List.flatten_nil, List.append_nil]
        | cons batch batches => cases hsignals

/-- The body is what came before its end, if that is within the limit, and
the delegate never holds more. -/
theorem receive_bounded (signals : List Signal) :
    (receive signals).held ≤ LIMIT
      ∧ ∀ bytes, (receive signals).body = some (.ok bytes)
        ↔ ∃ (batches : List (List Bytes)) (rest : List Signal),
        signals = batches.map Signal.next ++ .complete :: rest
          ∧ bytes = batches.flatten.flatten ∧ bytes.length ≤ LIMIT := by
  refine ⟨held_foldl signals ⟨Nat.le_refl _, Nat.zero_le _⟩, fun bytes => ?_⟩
  have hnone : (List.flatten ([] : List Bytes)).length ≤ LIMIT := Nat.zero_le _
  exact foldl_ok_iff signals hnone

end LimitedBody

/-! ## The threads -/

abbrev Result := Except Failure String

/-- A call of `load`, by what it does next. -/
inductive Pc where
  | idle
  /-- Before `synchronized`. -/
  | waiting
  /-- Before `createDirectories`. -/
  | preparing
  /-- Before `FileChannel.open`. -/
  | opening
  /-- Before `lockFile.lock`. -/
  | locking
  /-- Before `Files.exists`. -/
  | checking
  /-- Before `readBounded` of the target. -/
  | reading
  /-- Before the `verify` of `loadLocal`. -/
  | verifying (bytes : Bytes)
  /-- In `client.send`. -/
  | downloading
  /-- Before the check of the status. -/
  | responded (status : Nat) (bytes : Bytes)
  /-- Before `createTempFile`. -/
  | creating (bytes : Bytes)
  /-- Before the end of `Files.write`. -/
  | writing (name : Nat) (bytes : Bytes)
  /-- Before `Files.move`. -/
  | moving (name : Nat) (bytes : Bytes)
  /-- Before `deleteIfExists`. -/
  | deleting (name : Nat) (result : Result)
  /-- Before the lock and its channel are closed. -/
  | unlocking (result : Result)
  /-- Before the end of `synchronized`. -/
  | leaving (result : Result)
  | done (result : Result)

/-- What the system does for a statement. -/
inductive Event where
  | proceed
  /-- The statement throws. -/
  | throw
  | interrupt
  | respond (status : Nat) (signals : List Signal)
  /-- The name of the temporary file. -/
  | name (name : Nat)
  /-- Some of the bytes are written. -/
  | part (count : Nat)

/-- What a statement does to what the threads share. -/
inductive Effect where
  | none
  | enter
  | leave
  | lock
  | unlock
  | write (name : Nat) (bytes : Bytes)
  | move (name : Nat)
  | delete (name : Nat)
deriving DecidableEq

structure Disk where
  target : Option Bytes
  /-- The temporary files. -/
  temporary : Nat → Option Bytes

def Disk.apply (disk : Disk) : Effect → Disk
  | .write name bytes => { disk with temporary := update disk.temporary name (some bytes) }
  | .move name =>
      { target := disk.temporary name, temporary := update disk.temporary name Option.none }
  | .delete name => { disk with temporary := update disk.temporary name Option.none }
  | _ => disk

/-- `CACHE_LOCK` after a statement of a thread. -/
def Effect.cacheAfter {Thread : Type} (thread : Thread) (lock : Option Thread) :
    Effect → Option Thread
  | .enter => some thread
  | .leave => Option.none
  | _ => lock

/-- The lock of the file after a statement of a thread. -/
def Effect.fileAfter {Owner : Type} (owner : Owner) (lock : Option Owner) :
    Effect → Option Owner
  | .lock => some owner
  | .unlock => Option.none
  | _ => lock

/-- A close that throws replaces a value, not an exception. -/
def closeThrows : Result → Result
  | .ok _ => .error .system
  | .error failure => .error failure

/-- The next statement of a call. -/
def next (jdk : Jdk) (disk : Disk) : Pc → Event → Option (Pc × Effect)
  | .waiting, .proceed => some (.preparing, .enter)
  | .preparing, .proceed => some (.opening, .none)
  | .preparing, .throw => some (.leaving (.error .system), .none)
  | .opening, .proceed => some (.locking, .none)
  | .opening, .throw => some (.leaving (.error .system), .none)
  | .locking, .proceed => some (.checking, .lock)
  | .locking, .throw => some (.leaving (.error .system), .none)
  | .checking, .proceed => some (if disk.target.isSome then .reading else .downloading, .none)
  | .reading, .proceed => disk.target.map fun bytes =>
      (if bytes.length > LIMIT then .unlocking (.error exceedsLimit) else .verifying bytes, .none)
  | .reading, .throw => some (.unlocking (.error .system), .none)
  | .verifying bytes, .proceed => some (.unlocking (verify jdk bytes), .none)
  | .downloading, .respond status signals =>
      (LimitedBody.receive signals).body.map fun
        | .ok bytes => (.responded status bytes, .none)
        | .error failure => (.unlocking (.error failure), .none)
  | .downloading, .throw => some (.unlocking (.error .system), .none)
  | .downloading, .interrupt => some (.unlocking (.error .interrupted), .none)
  | .responded status bytes, .proceed =>
      if status ≠ 200 then
        some (.unlocking (.error (refused status)), .none)
      else
        match verify jdk bytes with
        | .error failure => some (.unlocking (.error failure), .none)
        | .ok _ => some (.creating bytes, .none)
  | .creating bytes, .name name =>
      if disk.temporary name = none then some (.writing name bytes, .write name []) else none
  | .creating _, .throw => some (.unlocking (.error .system), .none)
  | .writing name bytes, .part count =>
      some (.writing name bytes, .write name (bytes.take count))
  | .writing name bytes, .proceed => some (.moving name bytes, .write name bytes)
  | .writing name _, .throw => some (.deleting name (.error .system), .none)
  | .moving name bytes, .proceed => some (.deleting name (.ok (jdk.utf8 bytes)), .move name)
  | .moving name _, .throw => some (.deleting name (.error .system), .none)
  | .deleting name result, .proceed => some (.unlocking result, .delete name)
  | .deleting _ _, .throw => some (.unlocking (.error .system), .none)
  | .unlocking result, .proceed => some (.leaving result, .unlock)
  | .unlocking result, .throw => some (.leaving (closeThrows result), .unlock)
  | .leaving result, .proceed => some (.done result, .leave)
  | _, _ => none

/-! ## The system -/

section System

variable {Jvm Thread : Type} [DecidableEq Jvm] [DecidableEq Thread]

structure State (Jvm Thread : Type) where
  pc : Jvm → Thread → Pc
  /-- `CACHE_LOCK` of each JVM. -/
  cacheLock : Jvm → Option Thread
  /-- The owner of the lock of `bundle.lock`. -/
  fileLock : Option (Jvm × Thread)
  disk : Disk

inductive Action (Jvm Thread : Type) where
  | load (jvm : Jvm) (thread : Thread)
  | act (jvm : Jvm) (thread : Thread) (event : Event)
  /-- The JVM dies, and starts again. -/
  | crash (jvm : Jvm)

namespace State

variable (s : State Jvm Thread)

/-- The lock that a statement takes is not free. -/
def blocked (jvm : Jvm) : Effect → Bool
  | .enter => (s.cacheLock jvm).isSome
  | .lock => s.fileLock.isSome
  | _ => false

def apply (jvm : Jvm) (thread : Thread) (pc : Pc) (effect : Effect) : State Jvm Thread where
  pc := update s.pc jvm (update (s.pc jvm) thread pc)
  cacheLock := update s.cacheLock jvm (effect.cacheAfter thread (s.cacheLock jvm))
  fileLock := effect.fileAfter (jvm, thread) s.fileLock
  disk := s.disk.apply effect

/-- The JVM has the lock of the file already. -/
def overlaps (jvm : Jvm) : Bool := s.fileLock.any fun owner => decide (owner.1 = jvm)

end State

variable (jdk : Jdk)

def step (s : State Jvm Thread) : Action Jvm Thread → Option (State Jvm Thread)
  | .load jvm thread =>
      match s.pc jvm thread with
      | .idle | .done _ => some (s.apply jvm thread .waiting .none)
      | _ => none
  | .act jvm thread event =>
      match next jdk s.disk (s.pc jvm thread) event with
      | none => none
      | some (pc, effect) =>
          if effect = .lock ∧ s.overlaps jvm then
            some (s.apply jvm thread (.leaving (.error .overlappingFileLock)) .none)
          else if s.blocked jvm effect then none
          else some (s.apply jvm thread pc effect)
  | .crash jvm =>
      some { s with
        pc := update s.pc jvm fun _ => .idle
        cacheLock := update s.cacheLock jvm none
        fileLock := s.fileLock.filter fun owner => owner.1 ≠ jvm }

/-- Nothing runs, whatever is on the disk. -/
def start (disk : Disk) : State Jvm Thread where
  pc := fun _ _ => .idle
  cacheLock := fun _ => none
  fileLock := none
  disk

end System

/-! ## Where a thread is -/

namespace Pc

/-- Inside `synchronized`. -/
def holdsCache : Pc → Bool
  | idle | waiting | done _ => false
  | _ => true

/-- Behind the lock of the file. -/
def holdsFile : Pc → Bool
  | checking | reading | verifying _ | downloading | responded _ _ | creating _ | writing _ _
  | moving _ _ | deleting _ _ | unlocking _ => true
  | _ => false

theorem holdsCache_of_holdsFile {pc : Pc} (h : pc.holdsFile = true) : pc.holdsCache = true := by
  cases pc <;> first | rfl | cases h

end Pc

/-- Where a statement with this effect begins and ends. -/
def Effect.Fits (pc pc' : Pc) : Effect → Prop
  | .enter => ¬pc.holdsCache ∧ pc'.holdsCache ∧ ¬pc'.holdsFile
  | .leave => pc.holdsCache ∧ ¬pc'.holdsCache ∧ ¬pc.holdsFile ∧ ¬pc'.holdsFile
  | .lock => pc = .locking ∧ pc'.holdsCache ∧ pc'.holdsFile
  | .unlock => pc.holdsFile ∧ pc'.holdsCache ∧ ¬pc'.holdsFile
  | .none => pc'.holdsCache = pc.holdsCache ∧ pc'.holdsFile = pc.holdsFile
  | .move name => (∃ bytes, pc = .moving name bytes) ∧ pc'.holdsFile
  | _ => pc.holdsFile ∧ pc'.holdsFile

/-- A lock that only two statements change names who is inside. -/
theorem Effect.Fits.cacheLock {Thread : Type} {effect : Effect} {pc pc' : Pc} {thread : Thread}
    {lock : Option Thread} {inside inside' : Thread → Prop} (h : effect.Fits pc pc')
    (howned : Mutex.Owned lock inside) (hfree : effect = .enter → lock = Option.none)
    (hpc : inside thread ↔ pc.holdsCache = true) (hpc' : inside' thread ↔ pc'.holdsCache = true)
    (hothers : ∀ a, a ≠ thread → (inside' a ↔ inside a)) :
    Mutex.Owned (effect.cacheAfter thread lock) inside' := by
  have hstay : (pc'.holdsCache = true ↔ pc.holdsCache = true) → Mutex.Owned lock inside' := by
    intro hsame
    refine howned.keep fun a => ?_
    by_cases ha : a = thread
    · rw [ha, hpc', hpc, hsame]
    · exact hothers a ha
  cases effect with
  | enter => exact Mutex.Owned.acquire (hfree rfl ▸ howned) (hpc'.mpr h.2.1) hothers
  | leave =>
    have howner := (howned thread).mp (hpc.mpr h.1)
    exact Mutex.Owned.release (howner ▸ howned) (fun hin => h.2.1 (hpc'.mp hin)) hothers
  | none => exact hstay (by rw [h.1])
  | lock =>
    obtain ⟨rfl, hcache, -⟩ := h
    exact hstay (iff_of_true hcache rfl)
  | unlock => exact hstay (iff_of_true h.2.1 (Pc.holdsCache_of_holdsFile h.1))
  | move name =>
    obtain ⟨⟨bytes, rfl⟩, hfile⟩ := h
    exact hstay (iff_of_true (Pc.holdsCache_of_holdsFile hfile) rfl)
  | write name bytes =>
    exact hstay (iff_of_true (Pc.holdsCache_of_holdsFile h.2) (Pc.holdsCache_of_holdsFile h.1))
  | delete name =>
    exact hstay (iff_of_true (Pc.holdsCache_of_holdsFile h.2) (Pc.holdsCache_of_holdsFile h.1))

theorem Effect.Fits.fileLock {Owner : Type} {effect : Effect} {pc pc' : Pc} {owner : Owner}
    {lock : Option Owner} {inside inside' : Owner → Prop} (h : effect.Fits pc pc')
    (howned : Mutex.Owned lock inside) (hfree : effect = .lock → lock = Option.none)
    (hpc : inside owner ↔ pc.holdsFile = true) (hpc' : inside' owner ↔ pc'.holdsFile = true)
    (hothers : ∀ a, a ≠ owner → (inside' a ↔ inside a)) :
    Mutex.Owned (effect.fileAfter owner lock) inside' := by
  have hstay : (pc'.holdsFile = true ↔ pc.holdsFile = true) → Mutex.Owned lock inside' := by
    intro hsame
    refine howned.keep fun a => ?_
    by_cases ha : a = owner
    · rw [ha, hpc', hpc, hsame]
    · exact hothers a ha
  cases effect with
  | lock => exact Mutex.Owned.acquire (hfree rfl ▸ howned) (hpc'.mpr h.2.2) hothers
  | unlock =>
    have howner := (howned owner).mp (hpc.mpr h.1)
    exact Mutex.Owned.release (howner ▸ howned) (fun hin => h.2.2 (hpc'.mp hin)) hothers
  | none => exact hstay (by rw [h.2])
  | enter =>
    exact hstay (iff_of_false h.2.2 fun hfile => h.1 (Pc.holdsCache_of_holdsFile hfile))
  | leave => exact hstay (iff_of_false h.2.2.2 h.2.2.1)
  | move name =>
    obtain ⟨⟨bytes, rfl⟩, hfile⟩ := h
    exact hstay (iff_of_true hfile rfl)
  | write name bytes => exact hstay (iff_of_true h.2 h.1)
  | delete name => exact hstay (iff_of_true h.2 h.1)

theorem next_fits {jdk : Jdk} {disk : Disk} {pc pc' : Pc} {event : Event} {effect : Effect}
    (h : next jdk disk pc event = some (pc', effect)) : effect.Fits pc pc' := by
  cases pc <;> cases event <;> simp only [next, reduceCtorEq] at h
  case checking.proceed =>
    cases h
    cases disk.target <;> exact ⟨rfl, rfl⟩
  case reading.proceed =>
    obtain ⟨bytes, -, hmoved⟩ := Option.map_eq_some_iff.mp h
    split_ifs at hmoved <;> cases hmoved <;> exact ⟨rfl, rfl⟩
  case downloading.respond =>
    obtain ⟨body | body, -, hmoved⟩ := Option.map_eq_some_iff.mp h <;> cases hmoved <;>
      exact ⟨rfl, rfl⟩
  case responded.proceed =>
    split_ifs at h
    · cases h
      exact ⟨rfl, rfl⟩
    · split at h <;> cases h <;> exact ⟨rfl, rfl⟩
  case creating.name =>
    split_ifs at h
    cases h
    exact ⟨rfl, rfl⟩
  all_goals cases h
  all_goals simp [Effect.Fits, Pc.holdsCache, Pc.holdsFile]

/-! ## What a thread has in its hands -/

def Verified (jdk : Jdk) (bytes : Bytes) : Prop :=
  bytes.length ≤ LIMIT ∧ jdk.sha256 bytes = SHA256

theorem verify_eq_ok {jdk : Jdk} {bytes : Bytes} {text : String} :
    verify jdk bytes = .ok text ↔ Verified jdk bytes ∧ text = jdk.utf8 bytes := by
  unfold verify Verified
  split_ifs with hlimit hdigest
  · simp only [false_iff]
    omega
  · simp [Ne.symm hdigest]
  · simp only [Except.ok.injEq]
    exact ⟨fun h => ⟨⟨by omega, (not_not.mp hdigest).symm⟩, h.symm⟩, fun h => h.2.symm⟩

/-- A text is the target's, and the target is the pinned bundle. -/
def Loaded (jdk : Jdk) (disk : Disk) (text : String) : Prop :=
  ∃ bytes, disk.target = some bytes ∧ Verified jdk bytes ∧ text = jdk.utf8 bytes

/-- A value that a call is going to return is the target's text. -/
def Returns (jdk : Jdk) (disk : Disk) (result : Result) : Prop :=
  ∀ text, result = .ok text → Loaded jdk disk text

/-- What a thread knows of the disk. -/
def Sound (jdk : Jdk) (disk : Disk) : Pc → Prop
  | .reading => disk.target.isSome
  | .verifying bytes => disk.target = some bytes
  | .downloading | .responded _ _ => disk.target = none
  | .creating bytes => disk.target = none ∧ Verified jdk bytes
  | .writing _ bytes => disk.target = none ∧ Verified jdk bytes
  | .moving name bytes =>
      disk.target = none ∧ Verified jdk bytes ∧ disk.temporary name = some bytes
  | .deleting _ result | .unlocking result | .leaving result | .done result =>
      Returns jdk disk result
  | _ => True

theorem returns_error (jdk : Jdk) (disk : Disk) (failure : Failure) :
    Returns jdk disk (.error failure) := fun _ h => by cases h

theorem returns_ok {jdk : Jdk} {disk : Disk} {bytes : Bytes} (h : disk.target = some bytes)
    (hverified : Verified jdk bytes) : Returns jdk disk (.ok (jdk.utf8 bytes)) := by
  intro text htext
  cases htext
  exact ⟨bytes, h, hverified, rfl⟩

theorem Returns.of_target {jdk : Jdk} {disk disk' : Disk} {result : Result}
    (h : Returns jdk disk result) (hkeep : ∀ bytes, disk.target = some bytes →
      disk'.target = some bytes) : Returns jdk disk' result := by
  intro text htext
  obtain ⟨bytes, htarget, hloaded⟩ := h text htext
  exact ⟨bytes, hkeep bytes htarget, hloaded⟩

theorem Returns.closeThrows {jdk : Jdk} {disk : Disk} (result : Result) :
    Returns jdk disk (closeThrows result) := by
  cases result <;> exact returns_error _ _ _

theorem sound_next {jdk : Jdk} {disk : Disk} {pc pc' : Pc} {event : Event} {effect : Effect}
    (hsound : Sound jdk disk pc) (h : next jdk disk pc event = some (pc', effect)) :
    Sound jdk (disk.apply effect) pc' := by
  cases pc <;> cases event <;> simp only [next, reduceCtorEq] at h
  case checking.proceed =>
    cases h
    cases htarget : disk.target with
    | none => exact htarget
    | some bytes => exact Option.isSome_of_eq_some htarget
  case reading.proceed =>
    obtain ⟨bytes, htarget, hmoved⟩ := Option.map_eq_some_iff.mp h
    split_ifs at hmoved <;> cases hmoved
    · exact returns_error _ _ _
    · exact htarget
  case verifying.proceed bytes =>
    cases h
    intro text htext
    obtain ⟨hverified, rfl⟩ := verify_eq_ok.mp htext
    exact ⟨bytes, hsound, hverified, rfl⟩
  case downloading.respond =>
    obtain ⟨body | body, -, hmoved⟩ := Option.map_eq_some_iff.mp h <;> cases hmoved
    · exact returns_error _ _ _
    · exact hsound
  case responded.proceed =>
    split_ifs at h
    · cases h
      exact returns_error _ _ _
    · split at h
      · cases h
        exact returns_error _ _ _
      · rename_i hverify
        cases h
        exact ⟨hsound, (verify_eq_ok.mp hverify).1⟩
  case creating.name =>
    split_ifs at h
    cases h
    exact hsound
  case writing.part =>
    cases h
    exact hsound
  case writing.proceed =>
    cases h
    exact ⟨hsound.1, hsound.2, Function.update_self ..⟩
  case moving.proceed =>
    cases h
    exact returns_ok hsound.2.2 hsound.2.1
  case deleting.proceed =>
    cases h
    exact hsound
  case unlocking.proceed =>
    cases h
    exact hsound
  case unlocking.throw =>
    cases h
    exact Returns.closeThrows _
  case leaving.proceed =>
    cases h
    exact hsound
  all_goals cases h
  all_goals first | trivial | exact returns_error _ _ _

/-- What is there stays, and what is new is the pinned bundle. -/
structure Kept (jdk : Jdk) (disk disk' : Disk) : Prop where
  stays : ∀ bytes, disk.target = some bytes → disk'.target = some bytes
  pinned : ∀ bytes, disk'.target = some bytes → disk.target = some bytes ∨ Verified jdk bytes

theorem Kept.refl (jdk : Jdk) (disk : Disk) : Kept jdk disk disk :=
  ⟨fun _ h => h, fun _ h => Or.inl h⟩

theorem Kept.trans {jdk : Jdk} {disk disk' disk'' : Disk} (h : Kept jdk disk disk')
    (h' : Kept jdk disk' disk'') : Kept jdk disk disk'' :=
  ⟨fun bytes hbytes => h'.stays bytes (h.stays bytes hbytes),
    fun bytes hbytes => (h'.pinned bytes hbytes).elim (h.pinned bytes) Or.inr⟩

theorem kept_apply {jdk : Jdk} {disk : Disk} {pc pc' : Pc} {effect : Effect}
    (hsound : Sound jdk disk pc) (h : effect.Fits pc pc') : Kept jdk disk (disk.apply effect) := by
  cases effect with
  | move name =>
    obtain ⟨⟨bytes, rfl⟩, -⟩ := h
    obtain ⟨hnone, hverified, hname⟩ := hsound
    have htarget : (disk.apply (.move name)).target = some bytes := hname
    constructor
    · intro other hother
      rw [hnone] at hother
      cases hother
    · intro other hother
      rw [htarget] at hother
      cases hother
      exact Or.inr hverified
  | _ => exact ⟨fun _ htarget => htarget, fun _ htarget => Or.inl htarget⟩

/-- A thread that is not behind the lock knows nothing but the target. -/
theorem sound_frame {jdk : Jdk} {disk disk' : Disk} {pc : Pc} (h : Sound jdk disk pc)
    (hpc : pc.holdsFile = false) (hkept : Kept jdk disk disk') : Sound jdk disk' pc := by
  cases pc with
  | leaving result | done result => exact Returns.of_target h hkept.stays
  | idle | waiting | preparing | opening | locking => trivial
  | _ => cases hpc

/-! ## Every run -/

section Runs

variable {Jvm Thread : Type}

structure Inv (jdk : Jdk) (s : State Jvm Thread) : Prop where
  cache : ∀ jvm, Mutex.Owned (s.cacheLock jvm) fun thread => (s.pc jvm thread).holdsCache = true
  file : Mutex.Owned s.fileLock fun owner => (s.pc owner.1 owner.2).holdsFile = true
  sound : ∀ jvm thread, Sound jdk s.disk (s.pc jvm thread)

theorem inv_start (jdk : Jdk) (disk : Disk) : Inv jdk (start disk : State Jvm Thread) where
  cache _ _ := iff_of_false (by simp [start, Pc.holdsCache]) (by simp [start])
  file _ := iff_of_false (by simp [start, Pc.holdsFile]) (by simp [start])
  sound _ _ := trivial

namespace State

variable [DecidableEq Jvm] [DecidableEq Thread]
variable (s : State Jvm Thread) (jvm : Jvm) (thread : Thread) (pc : Pc) (effect : Effect)

@[simp] theorem apply_self : (s.apply jvm thread pc effect).pc jvm thread = pc := by
  simp [apply]

theorem apply_of_ne {jvm' : Jvm} {thread' : Thread} (h : (jvm', thread') ≠ (jvm, thread)) :
    (s.apply jvm thread pc effect).pc jvm' thread' = s.pc jvm' thread' := by
  by_cases hjvm : jvm' = jvm
  · subst hjvm
    have hthread : thread' ≠ thread := fun heq => h (by rw [heq])
    simp [apply, hthread]
  · simp [apply, hjvm]

end State

variable {jdk : Jdk} {s s' : State Jvm Thread} {jvm : Jvm} {thread : Thread}

/-- Only the thread behind the lock of the file changes the disk. -/
theorem Effect.Fits.disk_eq {pc : Pc} {effect : Effect} (h : effect.Fits (s.pc jvm thread) pc)
    (hinv : Inv jdk s) {jvm' : Jvm} {thread' : Thread}
    (hfile : (s.pc jvm' thread').holdsFile = true) (hne : (jvm', thread') ≠ (jvm, thread))
    (disk : Disk) : disk.apply effect = disk := by
  have hother : (s.pc jvm thread).holdsFile = true → False := fun hmine =>
    hne (hinv.file.unique (a := (jvm', thread')) (b := (jvm, thread)) hfile hmine)
  cases effect with
  | write name bytes => exact (hother h.1).elim
  | delete name => exact (hother h.1).elim
  | move name =>
    obtain ⟨⟨bytes, hmoving⟩, -⟩ := h
    exact (hother (by rw [hmoving]; rfl)).elim
  | _ => rfl

variable [DecidableEq Jvm]

/-- Behind `CACHE_LOCK`, no other thread of the JVM has the lock of the file. -/
theorem not_overlaps {pc : Pc} (hinv : Inv jdk s)
    (hfits : Effect.lock.Fits (s.pc jvm thread) pc) : s.overlaps jvm = false := by
  obtain ⟨hlocking, -, -⟩ := hfits
  by_contra hoverlaps
  obtain ⟨⟨jvm', other⟩, howner, hjvm⟩ :=
    (Option.any_eq_true _ _).mp (Bool.not_eq_false _ ▸ hoverlaps)
  obtain rfl := of_decide_eq_true hjvm
  have hfile : (s.pc jvm' other).holdsFile = true := (hinv.file (jvm', other)).mpr howner
  have hsame : other = thread := (hinv.cache jvm').unique
    (Pc.holdsCache_of_holdsFile hfile) (by rw [hlocking]; rfl)
  rw [hsame, hlocking] at hfile
  cases hfile

theorem inv_crash (hinv : Inv jdk s) : Inv jdk { s with
    pc := update s.pc jvm fun _ => .idle
    cacheLock := update s.cacheLock jvm none
    fileLock := s.fileLock.filter fun owner => owner.1 ≠ jvm } := by
  constructor
  · intro jvm'
    by_cases hjvm : jvm' = jvm
    · subst hjvm
      intro a
      simp [Pc.holdsCache]
    · simp only [Function.update_of_ne hjvm]
      exact hinv.cache jvm'
  · refine hinv.file.evict fun owner => ?_
    by_cases hjvm : owner.1 = jvm
    · subst hjvm
      simp [Pc.holdsFile]
    · simp [hjvm]
  · intro jvm' thread'
    by_cases hjvm : jvm' = jvm
    · subst hjvm
      simp only [Function.update_self]
      trivial
    · simp only [Function.update_of_ne hjvm]
      exact hinv.sound jvm' thread'

variable [DecidableEq Thread]

/-- A statement that fits where its thread is. -/
theorem inv_apply {pc : Pc} {effect : Effect} (hinv : Inv jdk s)
    (hfits : effect.Fits (s.pc jvm thread) pc) (hfree : s.blocked jvm effect = false)
    (hsound : Sound jdk (s.disk.apply effect) pc) : Inv jdk (s.apply jvm thread pc effect) := by
  have hself : (s.apply jvm thread pc effect).pc jvm thread = pc := State.apply_self ..
  constructor
  · intro jvm'
    by_cases hjvm : jvm' = jvm
    · subst hjvm
      have hlock : (s.apply jvm' thread pc effect).cacheLock jvm'
          = effect.cacheAfter thread (s.cacheLock jvm') := Function.update_self ..
      rw [hlock]
      refine hfits.cacheLock (hinv.cache jvm') ?_ Iff.rfl (by rw [hself]) fun a ha => ?_
      · rintro rfl
        exact Option.not_isSome_iff_eq_none.mp (by simpa [State.blocked] using hfree)
      · rw [State.apply_of_ne _ _ _ _ _ fun heq => ha (Prod.ext_iff.mp heq).2]
    · have hlock : (s.apply jvm thread pc effect).cacheLock jvm' = s.cacheLock jvm' :=
        Function.update_of_ne hjvm ..
      rw [hlock]
      refine (hinv.cache jvm').keep fun a => ?_
      rw [State.apply_of_ne _ _ _ _ _ fun heq => hjvm (Prod.ext_iff.mp heq).1]
  · refine hfits.fileLock hinv.file ?_ Iff.rfl (by rw [hself]) fun owner howner => ?_
    · rintro rfl
      exact Option.not_isSome_iff_eq_none.mp (by simpa [State.blocked] using hfree)
    · rw [State.apply_of_ne _ _ _ _ _ howner]
  · intro jvm' thread'
    by_cases hne : (jvm', thread') = (jvm, thread)
    · cases hne
      rw [hself]
      exact hsound
    · rw [State.apply_of_ne _ _ _ _ _ hne]
      have hother := hinv.sound jvm' thread'
      cases hfile : (s.pc jvm' thread').holdsFile with
      | true =>
        have hdisk : (s.apply jvm thread pc effect).disk = s.disk :=
          hfits.disk_eq hinv hfile hne s.disk
        rwa [hdisk]
      | false => exact sound_frame hother hfile (kept_apply (hinv.sound jvm thread) hfits)

theorem inv_step {action : Action Jvm Thread} (hinv : Inv jdk s)
    (h : step jdk s action = some s') : Inv jdk s' ∧ Kept jdk s.disk s'.disk := by
  cases action with
  | load jvm thread =>
    -- a new call holds no lock and knows nothing
    have hload : ∀ pc : Pc, s.pc jvm thread = pc → pc.holdsCache = false → pc.holdsFile = false →
        Inv jdk (s.apply jvm thread .waiting .none) := fun pc hpc hcache hfile =>
      inv_apply hinv (by rw [hpc]; exact ⟨hcache.symm, hfile.symm⟩) rfl trivial
    simp only [step] at h
    split at h <;> cases h
    · exact ⟨hload _ ‹_› rfl rfl, Kept.refl jdk s.disk⟩
    · exact ⟨hload _ ‹_› rfl rfl, Kept.refl jdk s.disk⟩
  | act jvm thread event =>
    simp only [step] at h
    split at h
    · cases h
    · rename_i pc effect hnext
      have hfits := next_fits hnext
      split_ifs at h with hoverlaps hblocked
      · obtain ⟨rfl, hoverlaps⟩ := hoverlaps
        rw [not_overlaps hinv hfits] at hoverlaps
        cases hoverlaps
      · cases h
        exact ⟨inv_apply hinv hfits (by simpa using hblocked)
          (sound_next (hinv.sound jvm thread) hnext), kept_apply (hinv.sound jvm thread) hfits⟩
  | crash jvm =>
    cases h
    exact ⟨inv_crash hinv, Kept.refl jdk s.disk⟩

theorem inv_run {actions : List (Action Jvm Thread)} (hinv : Inv jdk s)
    (h : Lts.run (step jdk) s actions = some s') : Inv jdk s' ∧ Kept jdk s.disk s'.disk := by
  induction actions generalizing s with
  | nil =>
    cases h
    exact ⟨hinv, Kept.refl jdk _⟩
  | cons action actions ih =>
    obtain ⟨t, hstep, hrun⟩ := Lts.run_cons_eq_some.mp h
    obtain ⟨hinv', hkept⟩ := inv_step hinv hstep
    obtain ⟨hinv'', hkept'⟩ := ih hinv' hrun
    exact ⟨hinv'', hkept.trans hkept'⟩

/-- What a call returned is the text of the target, and stays so. -/
theorem loaded_of_run {actions : List (Action Jvm Thread)} {text : String} (hinv : Inv jdk s)
    (hdone : s.pc jvm thread = .done (.ok text))
    (h : Lts.run (step jdk) s actions = some s') : Loaded jdk s'.disk text := by
  have hsound := hinv.sound jvm thread
  rw [hdone] at hsound
  obtain ⟨bytes, htarget, hloaded⟩ := hsound text rfl
  exact ⟨bytes, (inv_run hinv h).2.stays bytes htarget, hloaded⟩

/-- All calls that ever return a text return one and the same, that of the
pinned bundle in the target. -/
theorem loads_agree {disk : Disk} {actions actions' : List (Action Jvm Thread)}
    {jvm' : Jvm} {thread' : Thread} {text text' : String}
    (h : Lts.run (step jdk) (start disk) actions = some s)
    (h' : Lts.run (step jdk) s actions' = some s')
    (hdone : s.pc jvm thread = .done (.ok text))
    (hdone' : s'.pc jvm' thread' = .done (.ok text')) :
    text' = text ∧ Loaded jdk s'.disk text := by
  have hinv := (inv_run (inv_start jdk disk) h).1
  obtain ⟨bytes, htarget, hverified, rfl⟩ := loaded_of_run hinv hdone h'
  obtain ⟨bytes', htarget', -, rfl⟩ := loaded_of_run (inv_run hinv h').1 hdone' (Lts.run_nil s')
  rw [htarget] at htarget'
  cases htarget'
  exact ⟨rfl, bytes, htarget, hverified, rfl⟩

/-- A digest that knows the empty text and one bundle. -/
def sampleJdk : Jdk where
  sha256 bytes :=
    if bytes = [] then "e3b0c44298fc1c149afbf4c8996fb92427ae41e4649b934ca495991b7852b855"
    else SHA256
  utf8 bytes := String.ofList (bytes.map fun byte => Char.ofNat byte.toNat)

/-- A call that downloads the bundle, with this status. -/
def downloads (status : Nat) : List (Action Nat Nat) :=
  .load 0 0 :: ([.proceed, .proceed, .proceed, .proceed, .proceed,
    .respond status [.next [[33]], .complete], .proceed, .name 0, .proceed, .proceed, .proceed,
    .proceed, .proceed].map (Action.act 0 0))

/-- A call of another JVM, that finds the target. -/
def reads : List (Action Nat Nat) :=
  .load 1 0 :: (List.replicate 9 Event.proceed).map (Action.act 1 0)

def returned : Pc → Option String
  | .done (.ok text) => some text
  | _ => none

theorem eq_done_of_returned {pc : Pc} {text : String} (h : returned pc = some text) :
    pc = .done (.ok text) := by
  unfold returned at h
  split at h <;> cases h
  rfl

theorem loads_agree_two_jvms :
    ∃ s s', Lts.run (step sampleJdk) (start ⟨none, fun _ => none⟩) (downloads 200) = some s
      ∧ Lts.run (step sampleJdk) s reads = some s'
      ∧ s.pc 0 0 = .done (.ok "!") ∧ s'.pc 1 0 = .done (.ok "!")
      ∧ Loaded sampleJdk s'.disk "!" := by
  have hread : ∃ s', Lts.run (step sampleJdk) (start ⟨none, fun _ => none⟩)
      (downloads 200 ++ reads) = some s' ∧ returned (s'.pc 1 0) = some "!" :=
    Lts.exists_run (P := fun s : State Nat Nat => returned (s.pc 1 0) = some "!") (by decide)
      fun _ _ h => h
  have hdownload : ∃ t, Lts.run (step sampleJdk) (start ⟨none, fun _ => none⟩)
      (downloads 200) = some t ∧ returned (t.pc 0 0) = some "!" :=
    Lts.exists_run (P := fun s : State Nat Nat => returned (s.pc 0 0) = some "!") (by decide)
      fun _ _ h => h
  obtain ⟨s', hboth, hreturned⟩ := hread
  obtain ⟨s, hfirst, hsecond⟩ := Lts.run_append_eq_some.mp hboth
  obtain ⟨t, ht, hdone⟩ := hdownload
  rw [hfirst] at ht
  cases ht
  exact ⟨s, s', hfirst, hsecond, eq_done_of_returned hdone, eq_done_of_returned hreturned,
    (loads_agree hfirst hsecond (eq_done_of_returned hdone) (eq_done_of_returned hreturned)).2⟩

/-- At most one thread of all JVMs is behind the lock of the file, it is the
only one to download, and only while there is no target. The lock is never
asked for twice in one JVM. -/
theorem one_behind {disk : Disk} {actions : List (Action Jvm Thread)}
    (h : Lts.run (step jdk) (start disk) actions = some s) :
    (∀ jvm thread jvm' thread', (s.pc jvm thread).holdsFile = true →
      (s.pc jvm' thread').holdsFile = true → (jvm', thread') = (jvm, thread))
    ∧ (∀ jvm thread, s.pc jvm thread = .downloading →
      s.fileLock = some (jvm, thread) ∧ s.disk.target = none)
    ∧ ∀ jvm thread, s.pc jvm thread = .locking → s.overlaps jvm = false := by
  have hinv := (inv_run (inv_start jdk disk) h).1
  refine ⟨fun jvm thread jvm' thread' hfile hfile' => ?_, fun jvm thread hpc => ⟨?_, ?_⟩,
    fun jvm thread hpc => ?_⟩
  · exact hinv.file.unique (a := (jvm', thread')) (b := (jvm, thread)) hfile' hfile
  · have hfile : (s.pc jvm thread).holdsFile = true := by rw [hpc]; rfl
    exact (hinv.file (jvm, thread)).mp hfile
  · have hsound := hinv.sound jvm thread
    rwa [hpc] at hsound
  · have hfits : Effect.lock.Fits (s.pc jvm thread) .checking := ⟨hpc, rfl, rfl⟩
    exact not_overlaps hinv hfits

/-- The first call downloads while two others wait. -/
def waits : List (Action Nat Nat) :=
  (downloads 200).take 6 ++ [.load 0 1, .load 1 0, .act 1 0 .proceed]

theorem one_behind_download :
    ∃ s, Lts.run (step sampleJdk) (start ⟨none, fun _ => none⟩) waits = some s
      ∧ ∀ jvm thread, (s.pc jvm thread).holdsFile = true → (jvm, thread) = (0, 0) :=
  Lts.exists_run (P := fun s : State Nat Nat => (s.pc 0 0).holdsFile = true) (by decide)
    fun _ hrun hfile jvm thread => (one_behind hrun).1 0 0 jvm thread hfile

/-! ## No deadlock -/

/-- A statement that goes on, without an exception. -/
def Event.onward : Event → Bool
  | .proceed | .respond _ _ | .name _ => true
  | _ => false

/-- Before a statement that takes a lock. -/
def Pc.takes : Pc → Bool
  | .waiting | .locking => true
  | _ => false

/-- Inside a call. -/
def Pc.active : Pc → Bool
  | .idle | .done _ => false
  | _ => true

end Runs

end TiktokSigner.JvmSigner.SigningBundleManager
