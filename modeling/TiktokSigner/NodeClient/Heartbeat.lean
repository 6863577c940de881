import TiktokSigner.Lib.Lts
import Mathlib.Order.Lattice

/-!
# The heartbeat of the clients

An open socket, its interval timer and the batches that bring a heartbeat
interval with them, on a clock in milliseconds. Time does not run past a
timer that is due.

`#startHeartbeat` of both Node clients clears the timer and starts a new
one, whatever the interval was (`Rule.restarts`); the Java client keeps a
timer that has the interval already (`Rule.keeps`). A restarted timer has
its whole interval before it, so a heartbeat is late when a batch restarts
a timer that has been running for a while. `inTime` rules this out.
-/

namespace TiktokSigner.NodeClient

/-- `MAX_HEARTBEAT_MS` of tiktok-live, `MAX_TIMER_MS` of live-sdk. -/
def maxHeartbeatMs : Nat := 2147483647

/-- `#receive` of tiktok-live: the interval that a batch arms. -/
def TiktokLive.batchHeartbeatMs (heartbeatDuration : Int) : Option Nat :=
  if heartbeatDuration > 0 then
    let boundedHeartbeat :=
      if heartbeatDuration > maxHeartbeatMs then (maxHeartbeatMs : Int) else heartbeatDuration
    let heartbeatMs := boundedHeartbeat.toNat
    if heartbeatMs > 0 then some heartbeatMs else none
  else none

namespace LiveSdk

def boundedHeartbeatMs (value : Int) (fallback : Nat) : Nat :=
  if value ≤ 0 then fallback
  else (if value > maxHeartbeatMs then (maxHeartbeatMs : Int) else value).toNat

/-- `#receive` and `startHeartbeat` of live-sdk. -/
def batchHeartbeatMs (heartbeatDuration : Int) : Option Nat :=
  if heartbeatDuration > 0 then some (max 1 (boundedHeartbeatMs heartbeatDuration 10000)) else none

end LiveSdk

/-- The two clients arm the same interval. -/
theorem batchHeartbeatMs_eq (heartbeatDuration : Int) :
    LiveSdk.batchHeartbeatMs heartbeatDuration = TiktokLive.batchHeartbeatMs heartbeatDuration := by
  unfold LiveSdk.batchHeartbeatMs TiktokLive.batchHeartbeatMs LiveSdk.boundedHeartbeatMs
  by_cases hpos : heartbeatDuration > 0
  · have hnot : ¬heartbeatDuration ≤ 0 := Int.not_le.mpr hpos
    simp only [if_pos hpos, if_neg hnot]
    by_cases hbig : heartbeatDuration > maxHeartbeatMs
    · simp only [if_pos hbig]
      rfl
    · simp only [if_neg hbig]
      have hnat : heartbeatDuration.toNat > 0 := by omega
      rw [if_pos hnat, Nat.max_eq_right hnat]
  · rw [if_neg hpos, if_neg hpos]

/-- What a batch does to a timer that has its interval already. -/
inductive Rule where
  | restarts
  | keeps
deriving DecidableEq, Repr

/-- An open socket. -/
structure Socket where
  /-- The interval of the timer. -/
  every : Nat
  /-- When the timer fires. -/
  due : Nat
  /-- Not in the source: when the last heartbeat was written, or the socket
  opened. -/
  last : Nat
  /-- Not in the source: the longest interval armed since then. -/
  longest : Nat
deriving DecidableEq, Repr

structure Clock where
  now : Nat := 0
  socket : Option Socket := none
deriving DecidableEq, Repr

inductive ClockAction where
  | advance (ms : Nat)
  /-- The socket opens; the interval of the configuration. -/
  | open (everyMs : Nat)
  /-- A batch, with its `heartbeatDuration`. -/
  | batch (heartbeatDuration : Int)
  /-- The timer fires: the heartbeat is written. -/
  | fire
  /-- The socket is closed, or the client disconnects. -/
  | close
deriving DecidableEq, Repr

namespace Socket

/-- `#startHeartbeat` on a new socket; the timers take an interval of 0 for
the default. -/
def opened (now everyMs : Nat) : Socket :=
  let every := if everyMs = 0 then 10000 else everyMs
  { every := every, due := now + every, last := now, longest := every }

/-- `#startHeartbeat` for a batch. -/
def startHeartbeat (rule : Rule) (socket : Socket) (now everyMs : Nat) : Socket :=
  if rule = .keeps ∧ socket.every = everyMs then socket
  else { socket with
    every := everyMs
    due := now + everyMs
    longest := max socket.longest everyMs }

def fired (socket : Socket) (now : Nat) : Socket :=
  { socket with due := now + socket.every, last := now, longest := socket.every }

end Socket

namespace Clock

def step (rule : Rule) (s : Clock) : ClockAction → Option Clock
  | .advance ms =>
      match s.socket with
      | some socket => if s.now + ms ≤ socket.due then some { s with now := s.now + ms } else none
      | none => some { s with now := s.now + ms }
  | .open everyMs =>
      match s.socket with
      | some _ => none
      | none => some { s with socket := some (Socket.opened s.now everyMs) }
  | .batch heartbeatDuration =>
      match s.socket with
      | some socket =>
          match TiktokLive.batchHeartbeatMs heartbeatDuration with
          | some everyMs =>
              some { s with socket := some (socket.startHeartbeat rule s.now everyMs) }
          | none => some s
      | none => none
  | .fire =>
      match s.socket with
      | some socket =>
          if socket.due = s.now then some { s with socket := some (socket.fired s.now) } else none
      | none => none
  | .close =>
      match s.socket with
      | some _ => some { s with socket := none }
      | none => none

/-! ## The bound -/

/-- The last heartbeat is no longer ago than the longest interval armed
since. -/
def Bounded (s : Clock) : Prop :=
  ∀ socket, s.socket = some socket → s.now - socket.last ≤ socket.longest

/-- The timer fires within the bound, and is not past. -/
structure OnTime (now : Nat) (socket : Socket) : Prop where
  due : now ≤ socket.due
  bound : socket.due ≤ socket.last + socket.longest

/-- A batch that restarts the timer leaves it due within the bound. -/
def inTime (rule : Rule) (s : Clock) : ClockAction → Bool
  | .batch heartbeatDuration =>
      match s.socket, TiktokLive.batchHeartbeatMs heartbeatDuration with
      | some socket, some everyMs =>
          (rule == .keeps && socket.every == everyMs) ||
            s.now + everyMs ≤ socket.last + max socket.longest everyMs
      | _, _ => true
  | _ => true

namespace OnTime

variable {rule : Rule} {s t : Clock} {a : ClockAction} {now : Nat} {socket : Socket}

theorem opened (now everyMs : Nat) : OnTime now (Socket.opened now everyMs) :=
  ⟨Nat.le_add_right _ _, Nat.le_refl _⟩

theorem fired (now : Nat) (socket : Socket) : OnTime now (socket.fired now) :=
  ⟨Nat.le_add_right _ _, Nat.le_refl _⟩

theorem startHeartbeat (h : OnTime now socket) {everyMs : Nat}
    (hin : rule = .keeps ∧ socket.every = everyMs ∨
      now + everyMs ≤ socket.last + max socket.longest everyMs) :
    OnTime now (socket.startHeartbeat rule now everyMs) := by
  unfold Socket.startHeartbeat
  split_ifs with hkeeps
  · exact h
  · rcases hin with hsame | hbound
    · exact absurd hsame hkeeps
    · exact ⟨Nat.le_add_right _ _, hbound⟩

theorem batch (h : ∀ socket, s.socket = some socket → OnTime s.now socket) {d : Int}
    (hin : s.inTime rule (.batch d) = true) (hs : s.step rule (.batch d) = some t) :
    ∀ socket, t.socket = some socket → OnTime t.now socket := by
  intro socket' hsocket'
  cases hsocket : s.socket with
  | none =>
    simp only [Clock.step, hsocket] at hs
    cases hs
  | some socket =>
    simp only [Clock.step, hsocket] at hs
    cases hbatch : TiktokLive.batchHeartbeatMs d with
    | none =>
      simp only [hbatch] at hs
      cases hs
      exact h socket' hsocket'
    | some everyMs =>
      simp only [hbatch] at hs
      cases hs
      cases hsocket'
      refine (h socket hsocket).startHeartbeat ?_
      simpa [inTime, hsocket, hbatch] using hin

theorem step (h : ∀ socket, s.socket = some socket → OnTime s.now socket)
    (hin : s.inTime rule a = true) (hs : s.step rule a = some t) :
    ∀ socket, t.socket = some socket → OnTime t.now socket := by
  intro socket' hsocket'
  cases a with
  | advance ms =>
    simp only [Clock.step] at hs
    split at hs
    case h_1 socket hsocket =>
      obtain ⟨hdue, hs⟩ := Option.ite_none_right_eq_some.mp hs
      cases hs
      rw [show s.socket = some socket' from hsocket'] at hsocket
      cases hsocket
      exact ⟨hdue, (h socket' hsocket').bound⟩
    case h_2 hsocket =>
      cases hs
      rw [show s.socket = some socket' from hsocket'] at hsocket
      cases hsocket
  | «open» everyMs =>
    simp only [Clock.step] at hs
    split at hs
    case h_1 => cases hs
    case h_2 =>
      cases hs
      cases hsocket'
      exact opened s.now everyMs
  | batch d => exact batch h hin hs socket' hsocket'
  | fire =>
    simp only [Clock.step] at hs
    split at hs
    case h_1 socket _ =>
      obtain ⟨-, hs⟩ := Option.ite_none_right_eq_some.mp hs
      cases hs
      cases hsocket'
      exact fired s.now socket
    case h_2 => cases hs
  | close =>
    simp only [Clock.step] at hs
    split at hs
    case h_1 =>
      cases hs
      cases hsocket'
    case h_2 => cases hs

end OnTime

theorem bounded_of_run {rule : Rule} {as : List ClockAction} {s : Clock}
    (hin : Lts.AllMeet (Clock.step rule) (fun s a => s.inTime rule a = true) {} as)
    (hrun : Lts.run (Clock.step rule) {} as = some s) : s.Bounded := by
  have hon : ∀ socket, s.socket = some socket → OnTime s.now socket := by
    refine Lts.run_invariant
      (I := fun s => ∀ socket, s.socket = some socket → OnTime s.now socket) ?_ ?_ hin hrun
    · intro s₁ a s₂ h htime hs
      exact OnTime.step h htime hs
    · intro socket hsocket
      cases hsocket
  intro socket hsocket
  have hdue := (hon socket hsocket).due
  have hbound := (hon socket hsocket).bound
  omega

/-- A batch that brings the interval in force. -/
def repeats (s : Clock) : ClockAction → Bool
  | .batch heartbeatDuration =>
      match s.socket, TiktokLive.batchHeartbeatMs heartbeatDuration with
      | some socket, some everyMs => socket.every == everyMs
      | _, _ => true
  | _ => true

/-- With the Java client's rule, batches that repeat the interval delay no
heartbeat, however often they come. -/
theorem kept_heartbeat_bounded {as : List ClockAction} {s : Clock}
    (hrepeats : Lts.AllMeet (Clock.step .keeps) (fun s a => s.repeats a = true) {} as)
    (hrun : Lts.run (Clock.step .keeps) {} as = some s) : s.Bounded := by
  refine bounded_of_run (hrepeats.mono ?_) hrun
  intro s a hsame
  cases a with
  | batch d =>
    simp only [inTime]
    simp only [repeats] at hsame
    cases hsocket : s.socket with
    | none => rfl
    | some socket =>
      cases hbatch : TiktokLive.batchHeartbeatMs d with
      | none => rfl
      | some everyMs =>
        simp only [hsocket, hbatch, beq_iff_eq] at hsame
        simp [hsame]
  | _ => rfl

/-- The Node clients' heartbeats are on time in every run whose batches
restart the timer `inTime`. -/
theorem heartbeat_bounded {as : List ClockAction} {s : Clock}
    (hin : Lts.AllMeet (Clock.step .restarts) (fun s a => s.inTime .restarts a = true) {} as)
    (hrun : Lts.run (Clock.step .restarts) {} as = some s) : s.Bounded :=
  bounded_of_run hin hrun

theorem heartbeat_bounded_in_quiet_room :
    ∃ s, Lts.run (Clock.step .restarts) {} [.open 10000, .advance 9000, .batch 1000, .advance 1000,
        .fire, .batch 1000, .advance 1000, .fire] = some s ∧
      s = ⟨11000, some ⟨1000, 12000, 11000, 1000⟩⟩ ∧ s.Bounded := by
  refine Lts.exists_run (P := fun s => s = ⟨11000, some ⟨1000, 12000, 11000, 1000⟩⟩)
    (by decide) ?_
  intro s hrun hend
  exact ⟨hend, heartbeat_bounded (by decide) hrun⟩

/-- A batch every six seconds, each with the interval of ten that is in
force: no heartbeat is written. -/
theorem heartbeat_late_in_busy_room :
    ¬∀ (as : List ClockAction) (s : Clock), Lts.run (Clock.step .restarts) {} as = some s →
      s.Bounded := by
  intro h
  have hrun : ∃ s, Lts.run (Clock.step .restarts) {} [.open 10000, .advance 6000, .batch 10000,
      .advance 6000] = some s ∧ s = ⟨12000, some ⟨10000, 16000, 0, 10000⟩⟩ :=
    Lts.exists_run (P := fun s => s = ⟨12000, some ⟨10000, 16000, 0, 10000⟩⟩) (by decide)
      fun _ _ h => h
  obtain ⟨s, hrun, rfl⟩ := hrun
  exact absurd (h _ _ hrun _ rfl) (by decide)

end Clock

end TiktokSigner.NodeClient
