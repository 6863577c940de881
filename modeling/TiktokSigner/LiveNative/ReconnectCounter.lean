import TiktokSigner.LiveCore.TraceLaw

/-!
# The reconnect counter of the native client

`Shared::on_state` counts every `Reconnecting` it is told of, and the
shared loop tells it twice for each retry: when it decides to wait
(`"waiting to retry"`) and when it starts the attempt (`"opening LIVE
stream"`). So the counter agrees with the number of retry attempts in
exactly the runs in which no retry is ever decided.

The counters are natural numbers; `active_connections` is a gauge of zero
or one.
-/

namespace TiktokSigner.LiveNative

open LiveCore LiveWs Lts

/-! ## The observer -/

/-- The metrics that `on_state` writes. -/
structure Shared where
  activeConnections : Nat
  reconnects : Nat
deriving DecidableEq

namespace Shared

/-- The `match state` of `on_state`. -/
def onState (self : Shared) : LiveState → Shared
  | .connected => { self with activeConnections := 1 }
  | .reconnecting => { self with activeConnections := 0, reconnects := self.reconnects + 1 }
  | .disconnected | .offline | .error => { self with activeConnections := 0 }
  | .connecting => self

variable {β : Type}

def observe (self : Shared) : LiveCore.Event β → Shared
  | .onState state _ => self.onState state
  | _ => self

def observeAll (self : Shared) (trace : List (LiveCore.Event β)) : Shared := trace.foldl observe self

end Shared

/-- How the worker of `connect` got on before `ttl_live_core::run`. -/
inductive Preparation where
  | cancelled
  | discoveryFailed
  | offline
  | identityFailed
  /-- The preparation thread did not start. -/
  | unprepared
  | signerFailed
  | ready
deriving DecidableEq

/-- The states it reported on the way. -/
def Preparation.states : Preparation → List LiveState
  | .cancelled | .unprepared | .ready => [.connecting]
  | .discoveryFailed | .identityFailed | .signerFailed => [.connecting, .error]
  | .offline => [.connecting, .offline]

/-- The worker: its preparation, the run of the loop, and the last store. -/
def worker {β : Type} (shared : Shared) (preparation : Preparation) (s : RunState β) : Shared :=
  let shared := preparation.states.foldl Shared.onState shared
  let shared := if preparation = .ready then shared.observeAll s.trace else shared
  { shared with activeConnections := 0 }

/-! ## What the loop reports -/

section

variable {β ε : Type}

/-- A `Reconnecting` state, at either place. -/
def isReconnecting : LiveCore.Event β → Bool
  | .onState .reconnecting _ => true
  | _ => false

def attempts (s : RunState β) : Nat := s.trace.countP LiveCore.Event.isSign

def notices (s : RunState β) : Nat := s.trace.countP isReconnecting

/-- The attempts that the loop started after the first one. -/
def retryAttempts (s : RunState β) : Nat := attempts s - 1

/-- An opening that failed for good. -/
def Refused : WsError → Prop
  | .blocked200 _ | .emptyCookies => True
  | .httpStatus status => status = 401 ∨ status = 403
  | _ => False

/-- The loop has lost an attempt or its socket, with budget left. -/
def DecidesRetry (maxRetries : UInt32) (s : RunState β) : Input → Prop
  | .openError error => s.pc = .opening ∧ ¬Refused error ∧ s.failures < maxRetries
  | .openTimeout => s.pc = .opening ∧ s.failures < maxRetries
  | .messageError _ | .ended => s.pc = .connected ∧ s.failures < maxRetries
  | _ => False

@[simp] theorem reconnects_observeAll (shared : Shared) (trace : List (LiveCore.Event β)) :
    (shared.observeAll trace).reconnects = shared.reconnects + trace.countP isReconnecting := by
  induction trace generalizing shared with
  | nil => rfl
  | cons event trace ih =>
    rw [Shared.observeAll, List.foldl_cons]
    refine (ih _).trans ?_
    rw [List.countP_cons]
    cases event with
    | onState state detail => cases state <;> simp
        [Shared.observe, Shared.onState, isReconnecting]; omega
    | _ => rfl

variable {maxRetries : UInt32} {directUrl : Nat → String} {decodeBatch : Bytes → Except ε β}
  {s t : RunState β} {input : Input}

/-! ## What one step adds -/

/-- Attempts and notices that a step adds, and the flag it leaves. -/
structure Adds (s t : RunState β) (attempted noticed : Nat) : Prop where
  attempts : attempts t = attempts s + attempted
  notices : notices t = notices s + noticed
  flag : t.reconnecting = (s.reconnecting || decide (t.pc = .backoff))
  top : t.pc = .top → s.pc = .backoff

theorem adds_emit (es : List (LiveCore.Event β)) {attempted noticed : Nat}
    (hattempted : es.countP LiveCore.Event.isSign = attempted)
    (hnoticed : es.countP isReconnecting = noticed) (htrace : t.trace = s.trace ++ es)
    (hflag : t.reconnecting = (s.reconnecting || decide (t.pc = .backoff)))
    (htop : t.pc = .top → s.pc = .backoff) : Adds s t attempted noticed := by
  refine ⟨?_, ?_, hflag, htop⟩
  · rw [attempts, attempts, htrace, List.countP_append, hattempted]
  · rw [notices, notices, htrace, List.countP_append, hnoticed]

/-- What a step is to the counters: a decision to retry, the start of an
attempt, or neither. -/
inductive Counts (maxRetries : UInt32) (s : RunState β) (input : Input) (t : RunState β) : Prop
  | retry (hdecides : DecidesRetry maxRetries s input) (hpc : t.pc = .backoff) (hadds : Adds s t 0 1)
  | attempt (hdecides : ¬DecidesRetry maxRetries s input) (hpc : s.pc = .top)
      (hpc' : t.pc ≠ .top ∧ t.pc ≠ .backoff)
      (hadds : Adds s t 1 (if s.reconnecting then 1 else 0))
  | quiet (hdecides : ¬DecidesRetry maxRetries s input) (hpc : t.pc ≠ .backoff)
      (hadds : Adds s t 0 0)

/-- The end of the loop's body. -/
theorem counts_retry {es : List (LiveCore.Event β)}
    (hattempted : es.countP LiveCore.Event.isSign = 0)
    (hnoticed : es.countP isReconnecting = 0)
    (hdecides : DecidesRetry maxRetries s input ↔ s.failures < maxRetries) :
    Counts maxRetries s input ((s.emit es).retry maxRetries) := by
  unfold RunState.retry
  split
  case isTrue hspent =>
    refine .quiet (fun h => absurd (hdecides.mp h) (UInt32.not_lt.mpr hspent))
      (by simp [RunState.stop]) ?_
    refine adds_emit (es ++ [.onState .error "reconnect budget exhausted",
      .onState .disconnected "stream stopped"]) ?_ ?_ (by simp [RunState.stop, RunState.emit])
      (by simp [RunState.stop, RunState.emit]) (by simp [RunState.stop])
    · simp [hattempted, LiveCore.Event.isSign]
    · simp [hnoticed, isReconnecting]
  case isFalse hleft =>
    refine .retry (hdecides.mpr (UInt32.not_le.mp hleft)) rfl ?_
    refine adds_emit (es ++ [.onState .reconnecting "waiting to retry"]) ?_ ?_
      (by simp [RunState.emit]) (by simp) (by simp)
    · simp [hattempted, LiveCore.Event.isSign]
    · simp [hnoticed, isReconnecting]

/-- The loop stops. -/
theorem counts_stop {es : List (LiveCore.Event β)} (hattempted : es.countP LiveCore.Event.isSign = 0)
    (hnoticed : es.countP isReconnecting = 0) (hdecides : ¬DecidesRetry maxRetries s input) :
    Counts maxRetries s input (s.emit es).stop := by
  refine .quiet hdecides (by simp [RunState.stop]) ?_
  refine adds_emit (es ++ [.onState .disconnected "stream stopped"]) ?_ ?_
    (by simp [RunState.stop, RunState.emit]) (by simp [RunState.stop, RunState.emit])
    (by simp [RunState.stop])
  · simp [hattempted, LiveCore.Event.isSign]
  · simp [hnoticed, isReconnecting]

theorem counts_openFailed (hpc : s.pc = .opening) (error : WsError) :
    Counts maxRetries s (.openError error) (openFailed maxRetries s error) := by
  have hlost : ∀ e : LiveError, ¬Refused error → Counts maxRetries s (.openError error)
      ((s.emit [.onError e (s.failures < maxRetries)]).retry maxRetries) := fun e hrefused =>
    counts_retry rfl rfl ⟨fun h => h.2.2, fun hlt => ⟨hpc, hrefused, hlt⟩⟩
  cases error with
  | blocked200 message => exact counts_stop rfl rfl fun h => h.2.1 trivial
  | emptyCookies => exact counts_stop rfl rfl fun h => h.2.1 trivial
  | httpStatus status =>
    rw [openFailed]
    split
    case isTrue hauth => exact counts_stop rfl rfl fun h => h.2.1 hauth
    case isFalse hauth => exact hlost _ hauth
  | _ => exact hlost _ id

theorem counts_deliver (hpc : s.pc = .connected) (ackSent : Bool) (payload : Bytes) :
    Counts maxRetries s (.message ackSent payload) (deliver decodeBatch s ackSent payload) := by
  have hquiet : ∀ ack rest : List (LiveCore.Event β),
      (ack ++ rest).countP LiveCore.Event.isSign = 0 →
      (ack ++ rest).countP isReconnecting = 0 →
      Counts maxRetries s (.message ackSent payload) ((s.emit ack).emit rest) := by
    intro ack rest hattempted hnoticed
    have hback : s.pc ≠ .backoff := by simp [hpc]
    refine .quiet id hback (adds_emit _ hattempted hnoticed (List.append_assoc ..) ?_ fun htop => ?_)
    · simp [RunState.emit, hpc]
    · exact absurd (hpc.symm.trans htop) (by simp)
  unfold deliver
  cases decodeBatch payload with
  | ok batch => cases ackSent <;> exact hquiet _ _ rfl rfl
  | error e => cases ackSent <;> exact hquiet _ _ rfl rfl

theorem counts_of_step (hs : step maxRetries directUrl decodeBatch s input = some t) :
    Counts maxRetries s input t := by
  cases hpc : s.pc with
  | top =>
    cases input <;> simp only [step, hpc, Option.some.injEq, reduceCtorEq] at hs <;> subst hs
    case cancelled => exact counts_stop rfl rfl id
    case proceed =>
      refine .attempt id hpc ⟨by simp, by simp⟩ (adds_emit [.onState (if s.reconnecting then
        .reconnecting else .connecting) "opening LIVE stream", .sign s.urls (directUrl s.urls)]
        rfl ?_ rfl (by simp [RunState.emit]) (by simp))
      cases s.reconnecting <;> rfl
  | signing =>
    cases input <;> simp only [step, hpc, Option.some.injEq, reduceCtorEq] at hs <;> subst hs
    case cancelled => exact counts_stop rfl rfl id
    case signed url =>
      exact .quiet id (by simp) (adds_emit [.openUri url] rfl rfl rfl
        (by simp [RunState.emit]) (by simp))
    case signError => exact counts_stop rfl rfl id
    case signTimeout => exact counts_stop rfl rfl id
  | opening =>
    cases input <;> simp only [step, hpc, Option.some.injEq, reduceCtorEq] at hs <;> subst hs
    case cancelled => exact counts_stop rfl rfl id
    case opened =>
      exact .quiet id (by simp) (adds_emit [.onState .connected "LIVE stream open"] rfl rfl rfl
        (by simp [RunState.emit]) (by simp))
    case openError error => exact counts_openFailed hpc error
    case openTimeout => exact counts_retry rfl rfl ⟨fun h => h.2, fun hlt => ⟨hpc, hlt⟩⟩
  | connected =>
    cases input <;> simp only [step, hpc, Option.some.injEq, reduceCtorEq] at hs <;> subst hs
    case cancelled =>
      exact .quiet id (by simp) (adds_emit
          [.cancelled, .close, .onState .disconnected "disconnect requested"]
        rfl rfl rfl (by simp [RunState.emit]) (by simp))
    case message ackSent payload => exact counts_deliver hpc ackSent payload
    case messageError error => exact counts_retry rfl rfl ⟨fun h => h.2, fun hlt => ⟨hpc, hlt⟩⟩
    case ended => exact counts_retry rfl rfl ⟨fun h => h.2, fun hlt => ⟨hpc, hlt⟩⟩
  | backoff =>
    cases input <;> simp only [step, hpc, Option.some.injEq, reduceCtorEq] at hs <;> subst hs
    case cancelled => exact counts_stop rfl rfl id
    case elapsed =>
      exact .quiet id (by simp) (adds_emit [] rfl rfl (List.append_nil _).symm (by simp)
        fun _ => hpc)
  | done => cases input <;> simp only [step, hpc, reduceCtorEq] at hs

/-! ## Over a run -/

/-- No retry was decided: at most the first attempt, and no notice. -/
structure Unretried (s : RunState β) : Prop where
  unnoticed : notices s = 0
  first : attempts s ≤ 1
  unstarted : s.pc = .top → attempts s = 0
  flag : s.reconnecting = false
  backoff : s.pc ≠ .backoff

/-- A retry was decided: the notices have overtaken the retry attempts. -/
structure Overcounted (s : RunState β) : Prop where
  overtaken : attempts s ≤ notices s
  retried : 0 < notices s
  flag : s.reconnecting = true

theorem Unretried.keep (h : Unretried s) (hdecides : ¬DecidesRetry maxRetries s input)
    (hs : step maxRetries directUrl decodeBatch s input = some t) : Unretried t := by
  cases counts_of_step hs with
  | retry hretry _ _ => exact absurd hretry hdecides
  | attempt _ hpc hpc' hadds =>
    refine ⟨?_, ?_, fun htop => absurd htop hpc'.1, ?_, hpc'.2⟩
    · rw [hadds.notices, h.unnoticed, h.flag]
      rfl
    · rw [hadds.attempts, h.unstarted hpc]
    · rw [hadds.flag, h.flag]
      simpa using hpc'.2
  | quiet _ hpc hadds =>
    refine ⟨?_, ?_, fun htop => absurd (hadds.top htop) h.backoff, ?_, hpc⟩
    · rw [hadds.notices, h.unnoticed]
    · rw [hadds.attempts]
      exact h.first
    · rw [hadds.flag, h.flag]
      simpa using hpc

theorem Unretried.retry (h : Unretried s) (hdecides : DecidesRetry maxRetries s input)
    (hs : step maxRetries directUrl decodeBatch s input = some t) : Overcounted t := by
  cases counts_of_step hs with
  | retry _ hpc hadds =>
    refine ⟨?_, ?_, ?_⟩
    · rw [hadds.attempts, hadds.notices, h.unnoticed]
      exact h.first
    · rw [hadds.notices]
      exact Nat.succ_pos _
    · rw [hadds.flag, hpc]
      simp
  | attempt hnot _ _ _ => exact absurd hdecides hnot
  | quiet hnot _ _ => exact absurd hdecides hnot

theorem Overcounted.keep (h : Overcounted s)
    (hs : step maxRetries directUrl decodeBatch s input = some t) : Overcounted t := by
  have hle := h.overtaken
  have hpos := h.retried
  have hnext : ∀ {attempted noticed : Nat}, Adds s t attempted noticed → attempted ≤ noticed →
      Overcounted t := by
    intro attempted noticed hadds hnoticed
    refine ⟨?_, ?_, ?_⟩
    · rw [hadds.attempts, hadds.notices]
      omega
    · rw [hadds.notices]
      omega
    · rw [hadds.flag, h.flag]
      rfl
  cases counts_of_step hs with
  | retry _ _ hadds => exact hnext hadds (Nat.zero_le 1)
  | attempt _ _ _ hadds =>
    rw [h.flag] at hadds
    exact hnext hadds (Nat.le_refl 1)
  | quiet _ _ hadds => exact hnext hadds (Nat.le_refl 0)

theorem reconnects_worker (shared : Shared) (preparation : Preparation) (s : RunState β) :
    (worker shared preparation s).reconnects =
      shared.reconnects + if preparation = .ready then notices s else 0 := by
  cases preparation <;> simp [worker, Preparation.states, Shared.onState, notices]

/-- In every run: the counter has grown by the number of retry attempts
exactly when the loop never decided to retry. -/
theorem reconnects_eq_iff (shared : Shared) (preparation : Preparation) (maxRetries : UInt32)
    (directUrl : Nat → String) (decodeBatch : Bytes → Except ε β) (inputs : List Input)
    (s : RunState β) (hready : preparation ≠ .ready → inputs = [])
    (hrun : run (step maxRetries directUrl decodeBatch) {} inputs = some s) :
    (worker shared preparation s).reconnects = shared.reconnects + retryAttempts s ↔
      AllMeet (step maxRetries directUrl decodeBatch)
        (fun s input => ¬DecidesRetry maxRetries s input) {} inputs := by
  have hinit : Unretried ({} : RunState β) := ⟨rfl, Nat.zero_le 1, fun _ => rfl, rfl, nofun⟩
  have hmeet := allMeet_iff_of_run (P := fun s input => ¬DecidesRetry maxRetries s input)
    (fun _ _ _ h hdecides hs => Unretried.keep h hdecides hs)
    (fun _ _ _ h hdecides hs => Unretried.retry h (not_not.mp hdecides) hs)
    (fun _ _ _ h hs => Overcounted.keep h hs)
    (fun s h hover => Nat.ne_of_gt hover.retried h.unnoticed) hinit hrun
  rw [reconnects_worker, Nat.add_left_cancel_iff, hmeet]
  by_cases hpreparation : preparation = .ready
  · rw [if_pos hpreparation]
    constructor
    · intro heq hover
      have hle := hover.overtaken
      have hpos := hover.retried
      rw [retryAttempts] at heq
      omega
    · intro hover
      have h : Unretried s := run_invariant
        (fun _ _ _ h hdecides hs => Unretried.keep h hdecides hs) hinit (hmeet.mpr hover) hrun
      have hle := h.first
      rw [h.unnoticed, retryAttempts]
      omega
  · obtain rfl := hready hpreparation
    obtain rfl := Option.some.inj hrun
    rw [if_neg hpreparation]
    exact ⟨fun _ hover => Nat.ne_of_gt hover.retried hinit.unnoticed, fun _ => rfl⟩

/-- A session that is never lost. -/
theorem reconnects_eq_iff_of_cancelled : ∃ s : RunState Unit,
    run (step 5 (fun n => s!"wss://host/?device_id={n}") fun _ => (.error () : Except Unit Unit)) {}
        [.proceed, .signed "wss://host/0", .opened, .cancelled] = some s
      ∧ (worker ⟨0, 0⟩ .ready s).reconnects = 0 + retryAttempts s := by
  refine exists_run (P := fun s : RunState Unit => s.pc = .done) (by decide) ?_
  intro s hrun _
  refine (reconnects_eq_iff ⟨0, 0⟩ .ready 5 _ _ _ s (fun h => absurd rfl h) hrun).mpr ?_
  simp [AllMeet, step, DecidesRetry]

/-- One lost socket and one retry: the counter says two. -/
theorem retry_counted_twice : ∃ s : RunState Unit,
    run (step 5 (fun n => s!"wss://host/?device_id={n}") fun _ => (.error () : Except Unit Unit)) {}
        [.proceed, .signed "wss://host/0", .opened, .ended, .elapsed, .proceed,
          .signed "wss://host/1", .opened, .cancelled] = some s
      ∧ retryAttempts s = 1 ∧ (worker ⟨0, 0⟩ .ready s).reconnects = 2 := by
  refine exists_run (P := fun s : RunState Unit => retryAttempts s = 1 ∧ notices s = 2)
    (by decide) ?_
  rintro s - ⟨hattempts, hnotices⟩
  refine ⟨hattempts, ?_⟩
  rw [reconnects_worker, hnotices]
  rfl

end

end TiktokSigner.LiveNative
