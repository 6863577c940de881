import TiktokSigner.LiveNative.Delivery

/-!
# Event and byte accounts of the native client

Every event the worker has received is in exactly one place: counted as
dispatched or discarded, in the worker's hand, in the channel, or in the
dispatcher's hand; likewise every queued byte. `Accounts` says so of a
state, together with what the dispatcher leaves behind on its way out: an
empty channel once it has looked for the last time (`drained`), a cleared
`overloaded` once it has swapped it (`swapped`).

The enqueueing side does not know how far the dispatcher is. `disconnect`
disables the callbacks before it takes the sender, and a dispatcher that
sees them disabled leaves; a worker that still finds the sender may then
fill a channel nobody reads, or raise `overloaded` for the next session
to report. `InTime` rules out these two steps and nothing else, and
`accounts_balance` is what then holds of every run.
-/

namespace TiktokSigner.LiveNative

/-! ## What each party holds -/

/-- Events received that the worker has neither sent nor counted. -/
def Worker.heldEvents : Worker → Nat
  | .enqueuing d => d.eventCount
  | .stopped | .running | .charging _ | .overloading | .dropping => 0

/-- Bytes sent and not yet added to `queued_bytes`. -/
def Worker.charge : Worker → Nat
  | .charging cost => cost
  | .stopped | .running | .enqueuing _ | .overloading | .dropping => 0

namespace Dispatcher

/-- Events taken from the channel and not yet counted. -/
def heldEvents : Dispatcher → Nat
  | .received d | .checking d | .refusing d | .delivering d => d.eventCount
  | .events d index _ | .invoking d index _ => d.eventCount - index
  | .stopped | .receiving | .draining | .releasing _ | .exiting | .reporting
  | .disabling | .leaving => 0

/-- Bytes taken from the channel and not yet released. -/
def heldBytes : Dispatcher → Nat
  | .received d | .checking d | .refusing d | .delivering d
  | .events d _ _ | .invoking d _ _ => d.estimatedBytes
  | .releasing cost => cost
  | .stopped | .receiving | .draining | .exiting | .reporting | .disabling
  | .leaving => 0

/-- The dispatcher does not look into the channel again. -/
def drained : Dispatcher → Bool
  | .exiting | .reporting | .disabling | .leaving | .stopped => true
  | _ => false

/-- The dispatcher does not look at `overloaded` again. -/
def swapped : Dispatcher → Bool
  | .reporting | .disabling | .leaving | .stopped => true
  | _ => false

theorem drained_of_swapped {pc : Dispatcher} (h : pc.swapped) : pc.drained := by
  cases pc <;> first | rfl | cases h

/-- The event callback is only invoked for an event of the batch. -/
def inBatch : Dispatcher → Prop
  | .invoking d index _ => index < d.eventCount
  | _ => True

end Dispatcher

def queueEvents (queue : List Delivery) : Nat := (queue.map Delivery.eventCount).sum

def queueBytes (queue : List Delivery) : Nat := (queue.map Delivery.estimatedBytes).sum

@[simp] theorem queueEvents_nil : queueEvents [] = 0 := rfl

@[simp] theorem queueEvents_cons (d : Delivery) (queue : List Delivery) :
    queueEvents (d :: queue) = d.eventCount + queueEvents queue := by
  simp [queueEvents]

@[simp] theorem queueEvents_snoc (queue : List Delivery) (d : Delivery) :
    queueEvents (queue ++ [d]) = queueEvents queue + d.eventCount := by
  simp [queueEvents]

@[simp] theorem queueBytes_nil : queueBytes [] = 0 := rfl

@[simp] theorem queueBytes_cons (d : Delivery) (queue : List Delivery) :
    queueBytes (d :: queue) = d.estimatedBytes + queueBytes queue := by
  simp [queueBytes]

@[simp] theorem queueBytes_snoc (queue : List Delivery) (d : Delivery) :
    queueBytes (queue ++ [d]) = queueBytes queue + d.estimatedBytes := by
  simp [queueBytes]

/-! ## The invariant -/

structure Accounts (s : State) : Prop where
  events : s.counters.received =
    s.counters.dispatched + s.counters.discarded +
      (s.worker.heldEvents + queueEvents s.queue + s.dispatcher.heldEvents)
  bytes : s.queuedBytes + s.worker.charge = queueBytes s.queue + s.dispatcher.heldBytes
  inBatch : s.dispatcher.inBatch
  drained : s.dispatcher.drained → s.queue = []
  swapped : s.dispatcher.swapped → s.overloaded = false
  session : s.rejectionsAtConnect ≤ s.counters.rejections
  /-- `overloaded`, on its way to the error report or on its way to being
  stored, stands for a rejection of this session. -/
  overflow : s.worker = .overloading ∨ s.overloaded = true ∨ s.dispatcher = .reporting →
    s.rejectionsAtConnect < s.counters.rejections

namespace State

variable {s s' : State}

/-- The next step puts a delivery into the channel after the dispatcher's
last look into it. -/
def lateSend (s : State) : Bool :=
  match s.worker with
  | .enqueuing d => s.sender && s.accepts d && s.dispatcher.drained
  | _ => false

/-- The next step of the worker sets `overloaded` after the dispatcher has
swapped it. -/
def lateOverload (s : State) : Bool :=
  match s.worker with
  | .overloading => s.dispatcher.swapped
  | _ => false

/-- The steps in time: no delivery is sent and `overloaded` is not set too
late for the dispatcher to see it. -/
def InTime (s : State) : Action → Prop
  | .enqueue => s.lateSend = false ∧ s.lateOverload = false
  | _ => True

instance (s : State) : DecidablePred s.InTime
  | .enqueue => inferInstanceAs (Decidable (_ ∧ _))
  | .connect _ | .onBatch _ _ | .onState _ | .onError _ | .workerExit | .dispatcher
  | .disable | .takeSender | .lockControl _ | .joined | .setEventCallback _
  | .setBatchCallback _ | .setAsyncDelivery _ => isTrue trivial

end State

/-! ## Sessions

`connect` runs while nothing else of a session does: the threads it
starts are stopped until it has started them. -/

def Connecting.beforeDispatcher : Connecting → Bool
  | .installSender | .spawnDispatcher => true
  | _ => false

structure Sessions (s : State) : Prop where
  workerless : s.connecting ≠ .idle → s.worker = .stopped
  undispatched : s.connecting.beforeDispatcher → s.dispatcher = .stopped

section

variable {s s' : State}

theorem dispatcherStep_frame (hs : s.dispatcherStep = some s') :
    s.dispatcher ≠ .stopped ∧ s'.worker = s.worker ∧ s'.connecting = s.connecting := by
  unfold State.dispatcherStep at hs
  split at hs
  case h_1 => cases hs
  all_goals
    refine ⟨by simp_all, ?_⟩
    repeat' split at hs
    all_goals cases hs <;> exact ⟨rfl, rfl⟩

theorem enqueueStep_frame (hs : s.enqueueStep = some s') :
    s.worker ≠ .stopped ∧ s'.dispatcher = s.dispatcher ∧ s'.connecting = s.connecting := by
  unfold State.enqueueStep at hs
  split at hs
  case h_5 | h_6 => cases hs
  all_goals
    refine ⟨by simp_all, ?_⟩
    repeat' split at hs
    all_goals
      obtain rfl := Option.some.inj hs
      exact ⟨rfl, rfl⟩

namespace Sessions

theorem created (capacity : { n : Nat // 0 < n }) : Sessions (created capacity) where
  workerless _ := rfl
  undispatched _ := rfl

theorem connectStep {spawned : Bool} (h : Sessions s) (hs : s.connectStep spawned = some s') :
    Sessions s' := by
  unfold State.connectStep at hs
  split at hs
  case h_1 =>
    split_ifs at hs with hidle
    obtain rfl := Option.some.inj hs
    exact ⟨fun _ => hidle.2.1, fun _ => hidle.2.2⟩
  case h_2 hphase =>
    obtain rfl := Option.some.inj hs
    exact ⟨fun _ => h.workerless (by simp [hphase]), fun _ => h.undispatched (by rw [hphase]; rfl)⟩
  all_goals
    rename_i hphase
    have hworker : s.worker = .stopped := h.workerless (by simp [hphase])
    try split_ifs at hs
    all_goals
      obtain rfl := Option.some.inj hs
      exact ⟨fun hne => by first | exact hworker | exact absurd rfl hne,
        fun hbefore => by cases hbefore⟩

theorem onDelivery {d : Delivery} (h : Sessions s) (hs : s.onDelivery d = some s') :
    Sessions s' := by
  unfold State.onDelivery at hs
  split_ifs at hs with hrunning
  obtain rfl := Option.some.inj hs
  exact ⟨fun hne => by simp [h.workerless hne] at hrunning, h.undispatched⟩

theorem step {a : Action} (h : Sessions s) (hs : s.step a = some s') : Sessions s' := by
  cases a with
  | connect spawned => exact h.connectStep hs
  | onBatch events bytes => exact h.onDelivery hs
  | onState bytes => exact h.onDelivery hs
  | onError bytes => exact h.onDelivery hs
  | enqueue =>
    obtain ⟨hrunning, hdispatcher, hconnecting⟩ := enqueueStep_frame hs
    refine ⟨fun hne => absurd (h.workerless (hconnecting ▸ hne)) hrunning, fun hbefore => ?_⟩
    rw [hdispatcher]
    exact h.undispatched (hconnecting ▸ hbefore)
  | dispatcher =>
    obtain ⟨hrunning, hworker, hconnecting⟩ := dispatcherStep_frame hs
    refine ⟨fun hne => ?_, fun hbefore => absurd (h.undispatched (hconnecting ▸ hbefore)) hrunning⟩
    rw [hworker]
    exact h.workerless (hconnecting ▸ hne)
  | workerExit =>
    simp only [State.step] at hs
    split_ifs at hs
    obtain rfl := Option.some.inj hs
    exact ⟨fun _ => rfl, h.undispatched⟩
  | disable | setEventCallback _ | setBatchCallback _ =>
    obtain rfl := Option.some.inj hs
    exact ⟨h.workerless, h.undispatched⟩
  | takeSender | lockControl _ | joined | setAsyncDelivery _ =>
    simp only [State.step] at hs
    split_ifs at hs
    obtain rfl := Option.some.inj hs
    exact ⟨h.workerless, h.undispatched⟩

end Sessions

end

/-! ## Each party keeps the accounts -/

namespace Accounts

variable {s s' : State}

theorem created (capacity : { n : Nat // 0 < n }) : Accounts (created capacity) where
  events := rfl
  bytes := rfl
  inBatch := trivial
  drained := fun _ => rfl
  swapped := fun _ => rfl
  session := Nat.le_refl 0
  overflow := by rintro (h | h | h) <;> cases h

theorem onDelivery {d : Delivery} (h : Accounts s) (hs : s.onDelivery d = some s') :
    Accounts s' := by
  unfold State.onDelivery at hs
  split at hs
  case isTrue hrunning =>
    obtain rfl := Option.some.inj hs
    obtain ⟨hevents, hbytes, hbatch, hdrained, hswapped, hsession, hoverflow⟩ := h
    simp only [hrunning, Worker.heldEvents, Worker.charge] at hevents hbytes
    refine ⟨?_, hbytes, hbatch, hdrained, hswapped, hsession, ?_⟩
    · simp only [Worker.heldEvents]
      omega
    · exact fun hor => hoverflow (Or.inr (by simpa using hor))
  case isFalse => cases hs

theorem enqueueStep (h : Accounts s) (hsend : s.lateSend = false)
    (hover : s.lateOverload = false) (hs : s.enqueueStep = some s') : Accounts s' := by
  obtain ⟨hevents, hbytes, hbatch, hdrained, hswapped, hsession, hoverflow⟩ := h
  unfold State.enqueueStep at hs
  unfold State.lateSend at hsend
  unfold State.lateOverload at hover
  have hkeep : s.overloaded = true ∨ s.dispatcher = .reporting →
      s.rejectionsAtConnect < s.counters.rejections := fun hor => hoverflow (Or.inr hor)
  split at hs
  case h_1 d hworker =>
    simp only [hworker, Worker.heldEvents, Worker.charge] at hevents hbytes hsend
    split_ifs at hs with hsender haccepts <;> obtain rfl := Option.some.inj hs
    · -- no sender: discarded without a rejection
      refine ⟨?_, hbytes, hbatch, hdrained, hswapped, hsession, by simpa using hkeep⟩
      simp only [Worker.heldEvents]
      omega
    · -- sent: the dispatcher still has to look into the channel
      have hopen : s.dispatcher.drained = false := by simpa [hsender, haccepts] using hsend
      refine ⟨?_, ?_, hbatch, ?_, hswapped, hsession, by simpa using hkeep⟩
      · simp only [Worker.heldEvents, queueEvents_snoc]
        omega
      · simp only [Worker.charge, queueBytes_snoc]
        omega
      · simp [hopen]
    · -- rejected
      refine ⟨?_, hbytes, hbatch, hdrained, hswapped, Nat.le_succ_of_le hsession,
        fun _ => Nat.lt_succ_of_le hsession⟩
      simp only [Worker.heldEvents]
      omega
  case h_2 cost hworker =>
    obtain rfl := Option.some.inj hs
    simp only [hworker, Worker.heldEvents, Worker.charge] at hevents hbytes
    exact ⟨hevents, hbytes, hbatch, hdrained, hswapped, hsession, by simpa using hkeep⟩
  case h_3 hworker =>
    obtain rfl := Option.some.inj hs
    simp only [hworker, Worker.heldEvents, Worker.charge] at hevents hbytes hover
    exact ⟨hevents, hbytes, hbatch, hdrained, by simp [hover], hsession,
      fun _ => hoverflow (Or.inl hworker)⟩
  case h_4 hworker =>
    obtain rfl := Option.some.inj hs
    simp only [hworker, Worker.heldEvents, Worker.charge] at hevents hbytes
    exact ⟨hevents, hbytes, hbatch, hdrained, hswapped, hsession, by simpa using hkeep⟩
  case h_5 => cases hs
  case h_6 => cases hs

theorem connectStep {spawned : Bool} (h : Accounts s) (hsessions : Sessions s)
    (hs : s.connectStep spawned = some s') : Accounts s' := by
  obtain ⟨hevents, hbytes, hbatch, hdrained, hswapped, hsession, hoverflow⟩ := h
  obtain ⟨hworkerless, hundispatched⟩ := hsessions
  unfold State.connectStep at hs
  split at hs
  case h_1 =>
    -- a new session: whatever the last one left is gone
    split_ifs at hs with hidle
    obtain rfl := Option.some.inj hs
    obtain ⟨-, hworker, hdispatcher⟩ := hidle
    have hclear : s.overloaded = false := hswapped (by rw [hdispatcher]; rfl)
    exact ⟨hevents, hbytes, hbatch, hdrained, hswapped, Nat.le_refl _,
      by simp [hworker, hdispatcher, hclear]⟩
  case h_2 hphase =>
    obtain rfl := Option.some.inj hs
    have hempty : s.queue = [] := hdrained (by rw [hundispatched (by rw [hphase]; rfl)]; rfl)
    rw [hempty] at hevents hbytes
    exact ⟨hevents, hbytes, hbatch, fun _ => rfl, hswapped, hsession, hoverflow⟩
  case h_3 hphase =>
    have hstopped : s.dispatcher = .stopped := hundispatched (by rw [hphase]; rfl)
    have hempty : s.queue = [] := hdrained (by rw [hstopped]; rfl)
    have hclear : s.overloaded = false := hswapped (by rw [hstopped]; rfl)
    have hworker : s.worker = .stopped := hworkerless (by simp [hphase])
    split_ifs at hs <;> obtain rfl := Option.some.inj hs
    · rw [hstopped] at hevents hbytes
      exact ⟨hevents, hbytes, trivial, by simp [Dispatcher.drained],
        by simp [Dispatcher.swapped], hsession, by simp [hworker, hclear]⟩
    · rw [hempty] at hevents hbytes
      exact ⟨hevents, hbytes, hbatch, fun _ => rfl, hswapped, hsession, hoverflow⟩
  case h_6 hphase =>
    have hworker : s.worker = .stopped := hworkerless (by simp [hphase])
    rw [hworker] at hevents hbytes
    split_ifs at hs <;> obtain rfl := Option.some.inj hs
    · exact ⟨hevents, hbytes, hbatch, hdrained, hswapped, hsession,
        fun hor => hoverflow (Or.inr (by simpa using hor))⟩
    · rw [← hworker] at hevents hbytes
      exact ⟨hevents, hbytes, hbatch, hdrained, hswapped, hsession, hoverflow⟩
  case h_9 =>
    split_ifs at hs
    obtain rfl := Option.some.inj hs
    exact ⟨hevents, hbytes, hbatch, hdrained, hswapped, hsession, hoverflow⟩
  -- the sender or the callbacks are switched off; the accounts do not see it
  case h_4 | h_5 | h_7 | h_8 =>
    obtain rfl := Option.some.inj hs
    exact ⟨hevents, hbytes, hbatch, hdrained, hswapped, hsession, hoverflow⟩

/-- Without the `dispatch` lock in the worker's hands, what the dispatcher
holds is charged in `queued_bytes`. -/
theorem heldBytes_le (h : Accounts s) (hfree : s.dispatchLocked = false) :
    s.dispatcher.heldBytes ≤ s.queuedBytes := by
  have hbytes := h.bytes
  have hcharge : s.worker.charge = 0 := by
    cases hworker : s.worker with
    | charging cost => simp [State.dispatchLocked, hworker] at hfree
    | stopped | running | enqueuing _ | overloading | dropping => rfl
  omega

/-- A step inside the dispatcher's loop: the counters and what it holds
change together, and the other parties' part of the state stays. -/
theorem looping (h : Accounts s) (hworker : s'.worker = s.worker)
    (hreceived : s'.counters.received = s.counters.received)
    (hrejections : s'.counters.rejections = s.counters.rejections)
    (hconnect : s'.rejectionsAtConnect = s.rejectionsAtConnect)
    (hoverloaded : s'.overloaded = s.overloaded) (hloop : s'.dispatcher.drained = false)
    (hbatch : s'.dispatcher.inBatch)
    (hevents : s'.counters.dispatched + s'.counters.discarded +
        (queueEvents s'.queue + s'.dispatcher.heldEvents) =
      s.counters.dispatched + s.counters.discarded +
        (queueEvents s.queue + s.dispatcher.heldEvents))
    (hbytes : s'.queuedBytes + (queueBytes s.queue + s.dispatcher.heldBytes) =
      s.queuedBytes + (queueBytes s'.queue + s'.dispatcher.heldBytes)) : Accounts s' where
  events := by
    have := h.events
    rw [hreceived, hworker]
    omega
  bytes := by
    have := h.bytes
    rw [hworker]
    omega
  inBatch := hbatch
  drained hdrained := by simp [hloop] at hdrained
  swapped hswapped := by simp [Dispatcher.drained_of_swapped hswapped] at hloop
  session := by
    rw [hconnect, hrejections]
    exact h.session
  overflow hor := by
    rw [hconnect, hrejections]
    refine h.overflow ?_
    rcases hor with hover | hover | hover
    · exact Or.inl (hworker ▸ hover)
    · exact Or.inr (Or.inl (hoverloaded ▸ hover))
    · simp [hover, Dispatcher.drained] at hloop

/-- The way out of the loop, with nothing in the dispatcher's hand and an
empty channel. -/
theorem leavesLoop (h : Accounts s) (hqueue : s.queue = [])
    (hevents : s.dispatcher.heldEvents = 0) (hbytes : s.dispatcher.heldBytes = 0) :
    Accounts { s with dispatcher := .exiting } where
  events := by
    have haccount := h.events
    rwa [hevents] at haccount
  bytes := by
    have haccount := h.bytes
    rwa [hbytes] at haccount
  inBatch := trivial
  drained _ := hqueue
  swapped hswapped := by cases hswapped
  session := h.session
  overflow hor := h.overflow (hor.imp_right (Or.imp_right fun hpc => by cases hpc))

theorem dispatcherStep (h : Accounts s) (hs : s.dispatcherStep = some s') : Accounts s' := by
  unfold State.dispatcherStep at hs
  split at hs
  case h_1 => cases hs
  case h_2 hpc =>
    split at hs
    case h_1 d rest hqueue =>
      obtain rfl := Option.some.inj hs
      refine h.looping rfl rfl rfl rfl rfl rfl trivial ?_ ?_
      · simp only [hpc, hqueue, Dispatcher.heldEvents, queueEvents_cons]
        omega
      · simp only [hpc, hqueue, Dispatcher.heldBytes, queueBytes_cons]
        omega
    case h_2 hqueue =>
      split_ifs at hs
      obtain rfl := Option.some.inj hs
      exact h.leavesLoop hqueue (by rw [hpc]; rfl) (by rw [hpc]; rfl)
  case h_3 d hpc | h_4 d hpc =>
    split_ifs at hs <;> obtain rfl := Option.some.inj hs <;>
      exact h.looping rfl rfl rfl rfl rfl rfl trivial (by rw [hpc]; rfl) (by rw [hpc]; rfl)
  case h_5 d hpc =>
    split_ifs at hs with hlocked
    obtain rfl := Option.some.inj hs
    have hle := h.heldBytes_le (by simpa using hlocked)
    rw [hpc, Dispatcher.heldBytes] at hle
    refine h.looping rfl rfl rfl rfl rfl rfl trivial ?_ ?_
    · simp only [hpc, Dispatcher.heldEvents]
      omega
    · simp only [hpc, Dispatcher.heldBytes]
      omega
  case h_6 hpc =>
    split at hs
    case h_1 d rest hqueue =>
      obtain rfl := Option.some.inj hs
      refine h.looping rfl rfl rfl rfl rfl rfl trivial ?_ ?_
      · simp only [hpc, hqueue, Dispatcher.heldEvents, queueEvents_cons]
        omega
      · simp only [hpc, hqueue, Dispatcher.heldBytes, queueBytes_cons]
        omega
    case h_2 hqueue =>
      obtain rfl := Option.some.inj hs
      exact h.leavesLoop hqueue (by rw [hpc]; rfl) (by rw [hpc]; rfl)
  case h_7 d hpc =>
    split at hs <;> obtain rfl := Option.some.inj hs <;>
      exact h.looping rfl rfl rfl rfl rfl rfl trivial (by rw [hpc]; rfl) (by rw [hpc]; rfl)
  case h_8 d index batchInvoked hpc =>
    split_ifs at hs with hindex hoverloaded hinvoked <;> obtain rfl := Option.some.inj hs
    · refine h.looping rfl rfl rfl rfl rfl rfl trivial ?_ (by rw [hpc]; rfl)
      simp only [hpc, Dispatcher.heldEvents]
      omega
    · refine h.looping rfl rfl rfl rfl rfl rfl trivial ?_ (by rw [hpc]; rfl)
      simp only [hpc, Dispatcher.heldEvents]
      omega
    · exact h.looping rfl rfl rfl rfl rfl rfl hindex (by rw [hpc]; rfl) (by rw [hpc]; rfl)
    · refine h.looping rfl rfl rfl rfl rfl rfl trivial ?_ (by rw [hpc]; rfl)
      simp only [hpc, Dispatcher.heldEvents]
      omega
  case h_9 d index batchInvoked hpc =>
    obtain rfl := Option.some.inj hs
    have hindex : index < d.eventCount := by
      have hbatch := h.inBatch
      rwa [hpc] at hbatch
    refine h.looping rfl ?_ ?_ rfl rfl rfl trivial ?_ (by rw [hpc]; rfl)
    · split <;> rfl
    · split <;> rfl
    · simp only [hpc, Dispatcher.heldEvents]
      split <;> dsimp only <;> omega
  case h_10 cost hpc =>
    split_ifs at hs with hlocked
    obtain rfl := Option.some.inj hs
    have hle := h.heldBytes_le (by simpa using hlocked)
    rw [hpc, Dispatcher.heldBytes] at hle
    refine h.looping rfl rfl rfl rfl rfl rfl trivial (by rw [hpc]; rfl) ?_
    simp only [hpc, Dispatcher.heldBytes]
    omega
  case h_11 hpc =>
    have hqueue : s.queue = [] := h.drained (by rw [hpc]; rfl)
    obtain ⟨hevents, hbytes, -, -, -, hsession, hoverflow⟩ := h
    rw [hpc] at hevents hbytes
    split_ifs at hs with hoverloaded <;> obtain rfl := Option.some.inj hs
    · exact ⟨hevents, hbytes, trivial, fun _ => hqueue, fun _ => rfl, hsession,
        fun _ => hoverflow (Or.inr (Or.inl hoverloaded))⟩
    · exact ⟨hevents, hbytes, trivial, fun _ => hqueue,
        fun _ => by simpa using hoverloaded, hsession,
        fun hor => hoverflow (hor.imp_right (Or.imp_right fun hleft => by cases hleft))⟩
  case h_12 hpc | h_13 hpc =>
    have hqueue : s.queue = [] := h.drained (by rw [hpc]; rfl)
    have hclear : s.overloaded = false := h.swapped (by rw [hpc]; rfl)
    obtain ⟨hevents, hbytes, -, -, -, hsession, hoverflow⟩ := h
    rw [hpc] at hevents hbytes
    obtain rfl := Option.some.inj hs
    exact ⟨hevents, hbytes, trivial, fun _ => hqueue, fun _ => hclear, hsession,
      fun hor => hoverflow (hor.imp_right (Or.imp_right fun hleft => by cases hleft))⟩
  case h_14 hpc =>
    have hqueue : s.queue = [] := h.drained (by rw [hpc]; rfl)
    have hclear : s.overloaded = false := h.swapped (by rw [hpc]; rfl)
    obtain ⟨hevents, hbytes, -, -, -, hsession, hoverflow⟩ := h
    rw [hpc, hqueue] at hevents hbytes
    obtain rfl := Option.some.inj hs
    exact ⟨hevents, hbytes, trivial, fun _ => rfl, fun _ => hclear, hsession,
      fun hor => hoverflow (hor.imp_right (Or.imp_right fun hleft => by cases hleft))⟩

theorem step {a : Action} (h : Accounts s) (hsessions : Sessions s) (ha : s.InTime a)
    (hs : s.step a = some s') : Accounts s' := by
  cases a with
  | connect spawned => exact h.connectStep hsessions hs
  | onBatch events bytes => exact h.onDelivery hs
  | onState bytes => exact h.onDelivery hs
  | onError bytes => exact h.onDelivery hs
  | enqueue => exact h.enqueueStep ha.1 ha.2 hs
  | dispatcher => exact h.dispatcherStep hs
  | workerExit =>
    simp only [State.step] at hs
    split_ifs at hs with hrunning
    obtain rfl := Option.some.inj hs
    obtain ⟨hevents, hbytes, hbatch, hdrained, hswapped, hsession, hoverflow⟩ := h
    rw [hrunning] at hevents hbytes
    exact ⟨hevents, hbytes, hbatch, hdrained, hswapped, hsession,
      fun hor => hoverflow (Or.inr (by simpa using hor))⟩
  | disable | setEventCallback _ | setBatchCallback _ =>
    obtain rfl := Option.some.inj hs
    obtain ⟨hevents, hbytes, hbatch, hdrained, hswapped, hsession, hoverflow⟩ := h
    exact ⟨hevents, hbytes, hbatch, hdrained, hswapped, hsession, hoverflow⟩
  | takeSender | lockControl _ | joined | setAsyncDelivery _ =>
    simp only [State.step] at hs
    split_ifs at hs
    obtain rfl := Option.some.inj hs
    obtain ⟨hevents, hbytes, hbatch, hdrained, hswapped, hsession, hoverflow⟩ := h
    exact ⟨hevents, hbytes, hbatch, hdrained, hswapped, hsession, hoverflow⟩

end Accounts

/-! ## Runs -/

/-- The invariant of the runs in time. -/
structure Balanced (s : State) : Prop where
  sessions : Sessions s
  accounts : Accounts s

theorem balanced_of_run {capacity : { n : Nat // 0 < n }} {as : List Action} {t : State}
    (hrun : Lts.run State.step (created capacity) as = some t)
    (htime : Lts.AllMeet State.step State.InTime (created capacity) as) : Balanced t :=
  Lts.run_invariant
    (fun _ _ _ hinv ha hs =>
      ⟨hinv.sessions.step hs, hinv.accounts.step hinv.sessions ha hs⟩)
    ⟨Sessions.created capacity, Accounts.created capacity⟩ htime hrun

/-- In every run whose steps are all in time: with no worker and no
dispatcher running every received event is counted, no byte is charged and
`overloaded` is clear; and a queue overflow is only reported in a session
that rejected a delivery. -/
theorem accounts_balance {capacity : { n : Nat // 0 < n }} {as : List Action} {t : State}
    (hrun : Lts.run State.step (created capacity) as = some t)
    (htime : Lts.AllMeet State.step State.InTime (created capacity) as) :
    (t.quiescent →
      t.counters.received = t.counters.dispatched + t.counters.discarded ∧
        t.queuedBytes = 0 ∧ t.overloaded = false) ∧
    (t.dispatcher = .reporting → t.rejectionsAtConnect < t.counters.rejections) := by
  obtain ⟨-, h⟩ := balanced_of_run hrun htime
  refine ⟨?_, fun hreporting => h.overflow (Or.inr (Or.inr hreporting))⟩
  rintro ⟨hworker, hdispatcher⟩
  have hqueue : t.queue = [] := h.drained (by rw [hdispatcher]; rfl)
  have hevents := h.events
  have hbytes := h.bytes
  rw [hworker, hdispatcher, hqueue] at hevents hbytes
  exact ⟨hevents, hbytes, h.swapped (by rw [hdispatcher]; rfl)⟩

/-- Two sessions: one delivers a batch and ends with an overflow, one is
disconnected while a delivery waits. -/
def twoSessions : List Action :=
  ([.setEventCallback true, .connect true, .connect true, .connect true, .connect true,
    .onBatch 2 100, .enqueue, .enqueue] : List Action) ++
  List.replicate 10 Action.dispatcher ++
  ([.onBatch 5 (9 * 1024 * 1024), .enqueue, .enqueue, .enqueue] : List Action) ++
  List.replicate 5 Action.dispatcher ++
  ([.workerExit, .disable, .takeSender, .lockControl false, .joined,
    .connect true, .connect true, .connect true, .connect true,
    .onBatch 4 128, .enqueue, .enqueue, .disable] : List Action) ++
  List.replicate 5 Action.dispatcher ++
  ([.takeSender, .lockControl false, .workerExit, .dispatcher, .dispatcher, .joined] : List Action)

theorem accounts_balance_two_sessions :
    ∃ t, Lts.run State.step (created ⟨32, by decide⟩) twoSessions = some t ∧
      (t.counters.dispatched = 2 ∧ t.counters.discarded = 9 ∧ t.counters.rejections = 1) ∧
      (t.counters.received = t.counters.dispatched + t.counters.discarded ∧
        t.queuedBytes = 0 ∧ t.overloaded = false) ∧
      (t.dispatcher = .reporting → t.rejectionsAtConnect < t.counters.rejections) :=
  Lts.exists_run
    (P := fun t => t.quiescent ∧ t.counters.dispatched = 2 ∧ t.counters.discarded = 9 ∧
      t.counters.rejections = 1)
    (by decide) fun _ hrun ⟨hquiescent, hcounts⟩ =>
      have hbalance := accounts_balance hrun (by decide)
      ⟨hcounts, hbalance.1 hquiescent, hbalance.2⟩

/-- A session in which `disconnect` has disabled the callbacks and the
dispatcher leaves, before the sender is taken: the worker sends one batch
to the dispatcher on its way out, and has one rejected after it has gone. -/
def lateWorker : List Action :=
  ([.connect true, .connect true, .connect true, .connect true,
    .onState 128, .enqueue, .enqueue, .disable] : List Action) ++
  List.replicate 5 Action.dispatcher ++
  ([.onBatch 2 100, .enqueue, .enqueue, .dispatcher, .dispatcher,
    .onBatch 3 100, .enqueue, .enqueue, .enqueue, .workerExit,
    .takeSender, .lockControl false, .joined] : List Action)

/-- The next session, up to its first error report. -/
def nextSession : List Action :=
  [.connect true, .connect true, .connect true, .connect true,
    .onState 128, .enqueue, .enqueue] ++
  List.replicate 5 .dispatcher

/-- After `lateWorker` two events are uncounted, a hundred bytes stay
charged and `overloaded` is set; the next session reports an overflow
without a rejection of its own. -/
theorem late_worker_unbalances :
    ∃ t, Lts.run State.step (created ⟨32, by decide⟩) lateWorker = some t ∧
      t.quiescent ∧
      t.counters.received ≠ t.counters.dispatched + t.counters.discarded ∧
      t.queuedBytes = 100 ∧ t.overloaded = true ∧
      ∃ u, Lts.run State.step t nextSession = some u ∧
        u.dispatcher = .reporting ∧ u.rejectionsAtConnect = u.counters.rejections := by
  refine Lts.exists_run
    (P := fun t => (t.quiescent ∧
      t.counters.received ≠ t.counters.dispatched + t.counters.discarded ∧
      t.queuedBytes = 100 ∧ t.overloaded = true) ∧
      ((Lts.run State.step t nextSession).any fun u =>
        decide (u.dispatcher = .reporting ∧
          u.rejectionsAtConnect = u.counters.rejections)) = true)
    (by decide) ?_
  rintro t - ⟨⟨hquiescent, hevents, hbytes, hoverloaded⟩, hnext⟩
  exact ⟨hquiescent, hevents, hbytes, hoverloaded,
    Lts.exists_run hnext fun _ _ hreport => hreport⟩

end TiktokSigner.LiveNative
