import TiktokSigner.Lib.Lts

/-!
# The callbacks of `TikTokLive`

`emit` hands a notification to `events`, an executor with one thread and a
bounded queue; its task goes through the listeners of the notification's
name, either calling them itself or by way of the application's executor.
`fail`, `connect`, `disconnect` and `close` run under the client's lock, as
`emit` does; the two executors look at `closed`, `deliveryStopped` and
`generation` without it. So what runs under the lock is a list of
statements, one for each step, between which the executors may take their
turns.

The sockets, the timers and the listeners that throw show only in the calls
of `emit` and `fail` that they make. Both executors start what they were
given; the application's may do so in any order.
-/

namespace TiktokSigner.JavaClient

/-- The capacity of the queue of `events`. -/
def queueCapacity : Nat := 1024

/-- What was passed to `emit`, with the generation at that time. -/
structure Notification where
  name : String
  token : Nat
  /-- Listeners of that name at that time. -/
  listeners : Nat
deriving DecidableEq

/-- Notifications go by the order in which they were passed to `emit`. -/
inductive Task where
  | notify (i : Nat)
  /-- The last task, after an overflow. -/
  | overload (stoppedGeneration : Nat)
deriving DecidableEq

def Task.note : Task → Option Nat
  | .notify i => some i
  | .overload _ => none

/-- The thread of `events`. -/
inductive Worker where
  | idle
  /-- At the first statement of the task. -/
  | taken (task : Task)
  /-- In the loop over the `n` listeners of notification `i`, at listener `k`. -/
  | looping (i k n : Nat)
deriving DecidableEq

namespace Worker

def note : Worker → Option Nat
  | .idle => none
  | .taken task => task.note
  | .looping i _ _ => some i

/-- Has not come to listener `j` of notification `i`. -/
def awaits (i j : Nat) : Worker → Prop
  | .idle => False
  | .taken task => task.note = some i
  | .looping i' k _ => i' = i ∧ k ≤ j

instance (i j : Nat) : ∀ w, Decidable (awaits i j w)
  | .idle => isFalse id
  | .taken task => inferInstanceAs (Decidable (task.note = some i))
  | .looping i' k _ => inferInstanceAs (Decidable (i' = i ∧ k ≤ j))

/-- Is past listener `j` of notification `i` in its loop. -/
def isPast (i j : Nat) : Worker → Prop
  | .idle | .taken _ => False
  | .looping i' k _ => i' = i ∧ j < k

end Worker

/-- What the thread that has the lock is still to do. -/
inductive Op where
  | emit (name : String)
  /-- `++generation`. -/
  | advance
  /-- The `++generation` of `disconnect`, before it counts and clears. -/
  | retire
  | cancelPending
  /-- The task after an overflow is given to `events`. -/
  | overload
  /-- `closed = true`, and the shutdown after it. -/
  | setClosed
  | shutdownEvents
deriving DecidableEq

/-- Where that thread is in the statements that empty the queue. -/
inductive Phase where
  | plain
  /-- In `emit`, notification `i` rejected, about to set `deliveryStopped`. -/
  | stopping (i : Nat)
  /-- About to count the queue, and the rejected notification. -/
  | dropping (rejected : Option Nat)
  /-- About to clear the queue. -/
  | clearing
deriving DecidableEq

def Phase.note : Phase → Option Nat
  | .stopping i => some i
  | .dropping rejected => rejected
  | .plain | .clearing => none

/-- The notifications and where they are. -/
structure Callbacks where
  started : Bool := false
  queue : List Task := []
  worker : Worker := .idle
  /-- Invocations, of listener `j` for notification `i`, that were handed on
  and have not begun. -/
  calls : List (Nat × Nat) := []
  droppedCallbacks : Nat := 0
  notifications : List Notification := []
  /-- Notifications that `droppedCallbacks` counts. -/
  counted : List Nat := []
  /-- Tasks after an overflow that `droppedCallbacks` counts. -/
  overloads : Nat := 0
  delivered : List (Nat × Nat) := []
  /-- Deliveries that were given up and not counted. -/
  lost : List (Nat × Nat) := []
deriving DecidableEq

namespace Callbacks

def name (s : Callbacks) (i : Nat) : String := (s.notifications[i]?.map (·.name)).getD ""

def token (s : Callbacks) (i : Nat) : Nat := (s.notifications[i]?.map (·.token)).getD 0

/-- Listeners that are to hear of notification `i`. -/
def heard (s : Callbacks) (i : Nat) : Nat := (s.notifications[i]?.map (·.listeners)).getD 0

/-- The notifications in the queue. -/
def queued (s : Callbacks) : List Nat := s.queue.filterMap Task.note

def note (s : Callbacks) (n : Notification) : Callbacks :=
  { s with notifications := s.notifications ++ [n] }

/-- Give up these deliveries: what was counted, or is for a listener that
came later, is no loss. -/
def lose (s : Callbacks) (pairs : List (Nat × Nat)) : Callbacks :=
  { s with lost := s.lost ++ pairs.filter fun p => p.2 < s.heard p.1 ∧ p.1 ∉ s.counted }

/-- All deliveries of a notification. -/
def deliveries (s : Callbacks) (i : Nat) : List (Nat × Nat) :=
  (List.range (s.heard i)).map fun j => (i, j)

/-- `events.execute`; `none` when it rejects. -/
def execute (s : Callbacks) (task : Task) : Option Callbacks :=
  if s.started = false then some { s with started := true, worker := .taken task }
  else if s.queue.length < queueCapacity then some { s with queue := s.queue ++ [task] }
  else none

end Callbacks

structure TikTokLive extends Callbacks where
  /-- Whether there is a `callbackExecutor`. -/
  callback : Bool
  /-- `policy.attempts()`. -/
  attempts : Nat
  closed : Bool := false
  deliveryStopped : Bool := false
  active : Bool := false
  /-- There is a future of `connect` that is not done. -/
  pending : Bool := false
  generation : Nat := 0
  retries : Nat := 0
  listeners : List String := []
  /-- Listeners that are being called. -/
  calling : Nat := 0
  phase : Phase := .plain
  todo : List Op := []
deriving DecidableEq

namespace TikTokLive

def start (callback : Bool) (attempts : Nat) : TikTokLive := { callback, attempts }

inductive Action where
  | listen (name : String)
  | emit (name : String)
  | connect
  | fail (token : Nat) (retryable : Bool)
  | disconnect
  | close
  /-- A response says that the creator is offline. -/
  | offline
  /-- A connection is confirmed. -/
  | confirm
  /-- The future of `connect` is done. -/
  | settle
  /-- The next statement under the lock. -/
  | next
  | take
  | turn
  | hand
  /-- The application's executor throws. -/
  | refuse
  | finish
  | call (k : Nat)
  | return
deriving DecidableEq

/-- Nobody has the lock. -/
def Unlocked (s : TikTokLive) : Prop := s.phase = .plain ∧ s.todo = []

instance (s : TikTokLive) : Decidable s.Unlocked :=
  inferInstanceAs (Decidable (_ ∧ _))

/-- What a task looks at first. -/
def Refuses (s : TikTokLive) (i : Nat) : Prop :=
  s.closed = true ∨ s.deliveryStopped = true ∨ s.token i ≠ s.generation

/-- What an invocation looks at first. -/
def Stale (s : TikTokLive) (i : Nat) : Prop := s.closed = true ∨ s.token i ≠ s.generation

instance (s : TikTokLive) (i : Nat) : Decidable (s.Refuses i) :=
  inferInstanceAs (Decidable (_ ∨ _ ∨ _))

instance (s : TikTokLive) (i : Nat) : Decidable (s.Stale i) :=
  inferInstanceAs (Decidable (_ ∨ _))

/-- The invocation that was handed on has returned, where there is no
executor of the application. -/
def Returned (s : TikTokLive) : Prop := s.callback = true ∨ s.calls = [] ∧ s.calling = 0

instance (s : TikTokLive) : Decidable s.Returned :=
  inferInstanceAs (Decidable (_ ∨ _ ∧ _))

def valid (s : TikTokLive) (token : Nat) : Prop :=
  s.closed = false ∧ s.active = true ∧ s.generation = token

instance (s : TikTokLive) (token : Nat) : Decidable (s.valid token) :=
  inferInstanceAs (Decidable (_ ∧ _ ∧ _))

/-- `emit`, as far as `events` accepts. -/
def emit (s : TikTokLive) (name : String) : TikTokLive :=
  let i := s.notifications.length
  let callbacks := s.note
    { name, token := s.generation, listeners := s.listeners.count name }
  if s.closed = true ∨ s.deliveryStopped = true then
    { s with toCallbacks := callbacks.lose (callbacks.deliveries i) }
  else
    match callbacks.execute (.notify i) with
    | some callbacks => { s with toCallbacks := callbacks }
    | none => { s with
        toCallbacks := callbacks
        phase := .stopping i
        todo := .advance :: .cancelPending :: .overload :: s.todo }

/-- What `disconnect` does after its first statement. -/
def disconnectOps (s : TikTokLive) : List Op :=
  [.retire, .cancelPending] ++ if s.active then [.emit "disconnected"] else []

def perform (s : TikTokLive) : Op → TikTokLive
  | .emit name => s.emit name
  | .advance => { s with generation := s.generation + 1 }
  | .retire => { s with generation := s.generation + 1, phase := .dropping none }
  | .cancelPending =>
      -- its callback calls `disconnect`, which finds `active` false
      if s.pending then { s with pending := false, todo := .retire :: s.todo } else s
  | .overload =>
      { s with toCallbacks := (s.execute (.overload s.generation)).getD s.toCallbacks }
  | .setClosed => { s with closed := true, todo := .shutdownEvents :: s.todo }
  | .shutdownEvents =>
      { s with
        toCallbacks := { s.lose (s.queued.flatMap s.deliveries) with queue := [] }
        listeners := [] }

def step (s : TikTokLive) : Action → Option TikTokLive
  | .listen name => some { s with listeners := s.listeners ++ [name] }
  | .emit name => if s.Unlocked then some { s with todo := [.emit name] } else none
  | .connect =>
      if s.Unlocked then
        if s.closed ∨ s.active then some s
        else some { s with
          deliveryStopped := false, active := true, retries := 0, pending := true
          todo := [.advance] }
      else none
  | .fail token retryable =>
      if s.Unlocked then
        if s.valid token then
          if retryable = false ∨ s.attempts ≤ s.retries then
            some { s with
              active := false, todo := [.advance, .emit "error", .emit "disconnected"] }
          else
            some { s with
              retries := s.retries + 1
              todo := [.advance, .emit "error", .emit "disconnected", .emit "reconnecting"] }
        else some s
      else none
  | .disconnect =>
      if s.Unlocked then
        if s.closed then some s
        else some { s with active := false, todo := s.disconnectOps }
      else none
  | .close =>
      if s.Unlocked then
        if s.closed then some s
        else some { s with
          active := false, todo := s.disconnectOps ++ [.setClosed] }
      else none
  | .offline =>
      if s.Unlocked ∧ s.active then some { s with active := false, todo := [.emit "offline"] }
      else none
  | .confirm => if s.Unlocked ∧ s.active then some { s with retries := 0 } else none
  | .settle => some { s with pending := false }
  | .next =>
      match s.phase with
      | .plain =>
          match s.todo with
          | [] => none
          | op :: todo => some ({ s with todo }.perform op)
      | .stopping i =>
          some { s with deliveryStopped := true, active := false, phase := .dropping (some i) }
      | .dropping rejected =>
          some { s with
            droppedCallbacks := s.droppedCallbacks + (s.queue.length + rejected.toList.length)
            counted := s.counted ++ (s.queued ++ rejected.toList)
            overloads := s.overloads + (s.queue.length - s.queued.length)
            phase := .clearing }
      | .clearing => some { s with queue := [], phase := .plain }
  | .take =>
      match s.worker, s.queue with
      | .idle, task :: queue => some { s with worker := .taken task, queue }
      | _, _ => none
  | .turn =>
      match s.worker with
      | .taken (.notify i) =>
          if s.Refuses i then
            some { s with toCallbacks := { s.lose (s.deliveries i) with worker := .idle } }
          else some { s with worker := .looping i 0 (s.listeners.count (s.name i)) }
      | .taken (.overload _) => some { s with worker := .idle }
      | _ => none
  | .hand =>
      match s.worker with
      | .looping i k n =>
          if k < n ∧ s.Returned then
            some { s with worker := .looping i (k + 1) n, calls := s.calls ++ [(i, k)] }
          else none
      | _ => none
  | .refuse =>
      match s.worker with
      | .looping i k n =>
          if k < n ∧ s.callback then
            some { s with toCallbacks := { s.lose [(i, k)] with worker := .looping i (k + 1) n } }
          else none
      | _ => none
  | .finish =>
      match s.worker with
      | .looping _ k n => if k = n ∧ s.Returned then some { s with worker := .idle } else none
      | _ => none
  | .call k =>
      match s.calls[k]? with
      | some (i, j) =>
          if s.Stale i then
            some { s with toCallbacks := { s.lose [(i, j)] with calls := s.calls.eraseIdx k } }
          else some { s with
            calls := s.calls.eraseIdx k
            delivered := s.delivered ++ [(i, j)]
            calling := s.calling + 1 }
      | none => none
  | .return => if 0 < s.calling then some { s with calling := s.calling - 1 } else none

/-- The notifications that no listener's turn has come for, in their order. -/
def line (s : TikTokLive) : List Nat :=
  s.worker.note.toList ++ (s.queued ++ s.phase.note.toList)

/-! ## What is claimed of notifications -/

/-- Both executors are idle, and so is the lock. -/
structure Idle (s : TikTokLive) : Prop where
  unlocked : s.Unlocked
  queue : s.queue = []
  worker : s.worker = .idle
  calls : s.calls = []

/-- Every notification was counted as dropped and reached no listener, or
reached each of its listeners once. -/
def Conserved (s : TikTokLive) : Prop :=
  ∀ i < s.notifications.length,
    i ∈ s.counted ∧ (∀ j, (i, j) ∉ s.delivered) ∨
      i ∉ s.counted ∧ ∀ j < s.heard i, s.delivered.count (i, j) = 1

/-- `emit` is not called after a stop, and no turn comes to a notification
that is not counted after a stop or after its generation: none that
somebody is to hear of. -/
def Kept (s : TikTokLive) : Action → Prop
  | .next =>
      match s.phase, s.todo with
      | .plain, .emit name :: _ =>
          s.closed = true ∨ s.deliveryStopped = true → s.listeners.count name = 0
      | .plain, .shutdownEvents :: _ => ∀ i ∈ s.queued, s.heard i = 0
      | _, _ => True
  | .turn =>
      match s.worker with
      | .taken (.notify i) => s.Refuses i → i ∈ s.counted ∨ s.heard i = 0
      | _ => True
  | .refuse =>
      match s.worker with
      | .looping i k _ => s.heard i ≤ k
      | _ => True
  | .call k =>
      match s.calls[k]? with
      | some (i, j) => s.Stale i → s.heard i ≤ j
      | none => True
  | _ => True

/-- The application's executor begins what it was given in the order in
which it was given. -/
def Serial (s : TikTokLive) : Action → Prop
  | .call k => s.callback = true → k = 0
  | _ => True

/-- The order in which deliveries are to begin. -/
def Before (p q : Nat × Nat) : Prop := p.1 < q.1 ∨ p.1 = q.1 ∧ p.2 < q.2

end TikTokLive

end TiktokSigner.JavaClient
