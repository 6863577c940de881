import TiktokSigner.Android.SupertonicSpeaker
import TiktokSigner.Lib.Trace

/-!
# When the newest line and every reload come through

The slot is shared by both kinds of commands, and a call's id is published
and its command sent later than it was taken. So a reload can replace the
newest line, a line a reload, an older line the newest, and an older id can
be the latest when the worker checks the newest.

In a run without such a step the command of the newest request is always
somewhere (`Located`), and a reload that was sent is in the slot, with the
worker, or done (`ReloadKept`).
-/

namespace TiktokSigner.Android.SupertonicSpeaker

open Lts Trace

variable {s s' : State} {a : Action} {i : Nat} {call : Call}

/-! ## What is promised -/

def Event.id : Event → Option Nat
  | .requested id | .stopped id => some id
  | .reloadSent | .reloading | .reloaded | .started _ => none

/-- No command waits, the worker is idle and no call is in progress. -/
def Quiet (s : State) : Prop :=
  s.commands = none ∧ s.worker = .idle ∧ ∀ thread ∈ s.threads, thread.phase = .done

instance : DecidablePred Quiet := fun s =>
  inferInstanceAs (Decidable (s.commands = none ∧ s.worker = .idle ∧
    ∀ thread ∈ s.threads, thread.phase = .done))

/-- The newest request has started, unless a later stop superseded it. -/
def NewestStarted (log : List Event) : Prop :=
  ∀ id, .requested id ∈ log → (∀ e ∈ log, ∀ id' ∈ e.id, id' ≤ id) → .started id ∈ log

/-- Between a reload and the start of an utterance whose request was made
after it, the worker has taken and carried out a reload. -/
def ReloadsFirst (log : List Event) : Prop :=
  ∀ pre mid post id, log = pre ++ .reloadSent :: (mid ++ .started id :: post) →
    .requested id ∈ mid → [.reloading, .reloaded].Sublist mid

def Delivers (s : State) : Prop := Quiet s → NewestStarted s.log ∧ ReloadsFirst s.log

/-! ## When nothing is lost -/

def Command.id : Command → Option Nat
  | .speak id _ _ => some id
  | .reload => none

/-- The id that the worker checks next. -/
def Worker.checks : Worker → Option Nat
  | .received command => command.id
  | .idle | .speaking _ => none

/-- What the next step of call `i` sends. -/
def State.sends (s : State) (i : Nat) : Option Command :=
  match s.threads[i]? with
  | some ⟨.speak text, .published id⟩ => some (.speak id text none)
  | some ⟨.preview text voice, .published id⟩ => some (.speak id text voice)
  | some ⟨.reload, .entered⟩ => some .reload
  | _ => none

/-- The command of the newest request is not replaced, nor a reload by a
line, and the newest request is the latest when it is checked. -/
def NothingLost (s : State) : Action → Prop
  | .enter _ => True
  | .advance i =>
      ∀ command ∈ s.sends i, ∀ waiting ∈ s.commands,
        waiting.id ≠ some s.requestSeq ∧ (waiting = .reload → command = .reload)
  | .work => s.worker.checks = some s.requestSeq → s.latestRequest = s.requestSeq

instance (s : State) : (a : Action) → Decidable (NothingLost s a)
  | .enter _ => inferInstanceAs (Decidable True)
  | .advance i => inferInstanceAs (Decidable (∀ command ∈ s.sends i, _))
  | .work => inferInstanceAs (Decidable (_ → _))

/-! ## What a step does -/

/-- Calls that speak a text. -/
def Call.isSpeech : Call → Bool
  | .speak _ | .preview _ _ => true
  | .stop | .reload => false

/-- A step takes an id, sends a command, or does neither. -/
inductive Moves (s : State) : Action → State → Prop
  | enter (call : Call) : Moves s (.enter call) { s with threads := s.threads ++ [{ call }] }
  | blank (i : Nat) (call : Call) : s.threads[i]? = some ⟨call, .entered⟩ → call.isSpeech = true →
      Moves s (.advance i) (s.setPhase i call .done)
  | request (i : Nat) (call : Call) : s.threads[i]? = some ⟨call, .entered⟩ →
      call.isSpeech = true → Moves s (.advance i) (s.incrementAndGet i call .requested)
  | publish (i : Nat) (call : Call) (id : Nat) : s.threads[i]? = some ⟨call, .numbered id⟩ →
      call.isSpeech = true →
      Moves s (.advance i) (({ s with latestRequest := id }).setPhase i call (.published id))
  | send (i : Nat) (call : Call) (id : Nat) (text : String) (voice : Option String) :
      s.threads[i]? = some ⟨call, .published id⟩ → s.sends i = some (.speak id text voice) →
      Moves s (.advance i) ((s.trySend (.speak id text voice)).setPhase i call .done)
  | stop (i : Nat) : s.threads[i]? = some ⟨.stop, .entered⟩ →
      Moves s (.advance i) (s.incrementAndGet i .stop .stopped)
  | publishStop (i id : Nat) : s.threads[i]? = some ⟨.stop, .numbered id⟩ →
      Moves s (.advance i) (({ s with latestRequest := id }).setPhase i .stop .done)
  | reload (i : Nat) : s.threads[i]? = some ⟨.reload, .entered⟩ → s.sends i = some .reload →
      Moves s (.advance i) (((s.trySend .reload).setPhase i .reload .done).emit .reloadSent)
  | receive (command : Command) : s.worker = .idle → s.commands = some command →
      Moves s .work (s.receive command)
  | check (id : Nat) (text : String) (voice : Option String) :
      s.worker = .received (.speak id text voice) → Moves s .work (s.handleSpeak id)
  | reloaded : s.worker = .received .reload →
      Moves s .work (({ s with worker := .idle }).emit .reloaded)
  | finish (id : Nat) : s.worker = .speaking id → Moves s .work { s with worker := .idle }

theorem moves_of_enqueue (text : String) (voice : Option String) {phase : CallPhase}
    (hthread : s.threads[i]? = some ⟨call, phase⟩) (hspeech : call.isSpeech = true)
    (hsends : ∀ id, phase = .published id → s.sends i = some (.speak id text voice))
    (h : s.enqueue i call text voice phase = some s') : Moves s (.advance i) s' := by
  cases phase with
  | entered =>
    rw [State.enqueue] at h
    split at h
    case isTrue =>
      obtain rfl := Option.some.inj h
      exact .blank i call hthread hspeech
    case isFalse =>
      obtain rfl := Option.some.inj h
      exact .request i call hthread hspeech
  | numbered id =>
    obtain rfl := Option.some.inj h
    exact .publish i call id hthread hspeech
  | published id =>
    obtain rfl := Option.some.inj h
    exact .send i call id text voice hthread (hsends id rfl)
  | done => cases h

theorem moves_of_advance (h : s.advance i = some s') : Moves s (.advance i) s' := by
  cases hthread : s.threads[i]? with
  | none => simp [State.advance, hthread] at h
  | some thread =>
    obtain ⟨call, phase⟩ := thread
    cases call with
    | speak text =>
      refine moves_of_enqueue text none hthread rfl (fun id hphase => ?_) ?_
      · simp [State.sends, hthread, hphase]
      · simpa [State.advance, hthread] using h
    | preview text voice =>
      refine moves_of_enqueue text voice hthread rfl (fun id hphase => ?_) ?_
      · simp [State.sends, hthread, hphase]
      · simpa [State.advance, hthread] using h
    | stop =>
      simp only [State.advance, hthread] at h
      cases phase with
      | entered =>
        obtain rfl := Option.some.inj h
        exact .stop i hthread
      | numbered id =>
        obtain rfl := Option.some.inj h
        exact .publishStop i id hthread
      | published id => cases h
      | done => cases h
    | reload =>
      simp only [State.advance, hthread] at h
      cases phase with
      | entered =>
        obtain rfl := Option.some.inj h
        exact .reload i hthread (by simp [State.sends, hthread])
      | numbered id => cases h
      | published id => cases h
      | done => cases h

theorem moves_of_work (h : s.work = some s') : Moves s .work s' := by
  rw [State.work] at h
  split at h
  case h_1 hworker =>
    obtain ⟨command, hcommand, rfl⟩ := Option.map_eq_some_iff.mp h
    exact .receive command hworker hcommand
  case h_2 id text voice hworker =>
    obtain rfl := Option.some.inj h
    exact .check id text voice hworker
  case h_3 hworker =>
    obtain rfl := Option.some.inj h
    exact .reloaded hworker
  case h_4 id hworker =>
    obtain rfl := Option.some.inj h
    exact .finish id hworker

theorem moves_of_step (h : step s a = some s') : Moves s a s' := by
  cases a with
  | enter call =>
    obtain rfl := Option.some.inj h
    exact .enter call
  | advance i => exact moves_of_advance h
  | work => exact moves_of_work h

/-! ## Ids -/

/-- The id of a request that is neither sent nor given up. -/
def CallPhase.id : CallPhase → Option Nat
  | .numbered id | .published id => some id
  | .entered | .done => none

/-- No id is newer than `requestSeq`, which was the last one taken. -/
structure Numbered (s : State) : Prop where
  logged : ∀ e ∈ s.log, ∀ id ∈ e.id, id ≤ s.requestSeq
  threads : ∀ thread ∈ s.threads, ∀ id ∈ thread.phase.id, id ≤ s.requestSeq
  commands : ∀ command ∈ s.commands, ∀ id ∈ command.id, id ≤ s.requestSeq
  checks : ∀ id ∈ s.worker.checks, id ≤ s.requestSeq
  last : ∀ e ∈ s.log, ∀ id ∈ e.id, ∃ e' ∈ s.log, s.requestSeq ∈ e'.id

theorem Numbered.thread (h : Numbered s) {phase : CallPhase} {id : Nat}
    (hthread : s.threads[i]? = some ⟨call, phase⟩) (hid : phase.id = some id) :
    id ≤ s.requestSeq :=
  h.threads _ (List.mem_of_getElem? hthread) id hid

/-- A thread that moves to a phase with no newer id. -/
theorem Numbered.threads_set (h : Numbered s) {phase : CallPhase}
    (hphase : ∀ id ∈ phase.id, id ≤ s.requestSeq) :
    ∀ thread ∈ s.threads.set i ⟨call, phase⟩, ∀ id ∈ thread.phase.id, id ≤ s.requestSeq := by
  intro thread hmem id hid
  rcases List.mem_or_eq_of_mem_set hmem with hold | rfl
  · exact h.threads thread hold id hid
  · exact hphase id hid

theorem Numbered.threads_done (h : Numbered s) (i : Nat) (call : Call) :
    ∀ thread ∈ s.threads.set i ⟨call, .done⟩, ∀ id ∈ thread.phase.id, id ≤ s.requestSeq :=
  h.threads_set fun _ hid => absurd hid (by simp [CallPhase.id])

/-- A worker with nothing to check. -/
theorem Numbered.setWorker (h : Numbered s) {worker : Worker} (hworker : worker.checks = none) :
    Numbered { s with worker } :=
  ⟨h.logged, h.threads, h.commands, fun _ hid => absurd hid (by simp [hworker]), h.last⟩

/-- An event without an id. -/
theorem Numbered.emit (h : Numbered s) {e : Event} (he : e.id = none) : Numbered (s.emit e) := by
  refine ⟨fun e' hmem id hid => ?_, h.threads, h.commands, h.checks, fun e' hmem id hid => ?_⟩
  · rcases List.mem_append.mp hmem with hold | hnew
    · exact h.logged e' hold id hid
    · rw [List.mem_singleton.mp hnew, he] at hid
      cases hid
  · rcases List.mem_append.mp hmem with hold | hnew
    · obtain ⟨last, hlast, hseq⟩ := h.last e' hold id hid
      exact ⟨last, List.mem_append_left _ hlast, hseq⟩
    · rw [List.mem_singleton.mp hnew, he] at hid
      cases hid

theorem Numbered.incrementAndGet (h : Numbered s) {event : Nat → Event}
    (hevent : ∀ id, (event id).id = some id) : Numbered (s.incrementAndGet i call event) := by
  refine ⟨fun e hmem id hid => ?_, fun thread hmem id hid => ?_,
    fun command hmem id hid => Nat.le_succ_of_le (h.commands command hmem id hid),
    fun id hid => Nat.le_succ_of_le (h.checks id hid),
    fun _ _ _ _ => ⟨_, List.mem_concat_self, hevent _⟩⟩
  · rcases List.mem_append.mp hmem with hold | hnew
    · exact Nat.le_succ_of_le (h.logged e hold id hid)
    · rw [List.mem_singleton.mp hnew, hevent] at hid
      exact Nat.le_of_eq (Option.some.inj hid).symm
  · rcases List.mem_or_eq_of_mem_set hmem with hold | rfl
    · exact Nat.le_succ_of_le (h.threads thread hold id hid)
    · exact Nat.le_of_eq (Option.some.inj hid).symm

theorem Numbered.receive (h : Numbered s) {command : Command}
    (hcommand : s.commands = some command) :
    Numbered (s.receive command) := by
  have hid := h.commands command hcommand
  cases command with
  | speak id text voice => exact ⟨h.logged, h.threads, fun _ hc =>
      absurd hc (by simp [State.receive]), hid, h.last⟩
  | reload =>
    refine Numbered.emit ?_ rfl
    exact ⟨h.logged, h.threads, fun _ hc => absurd hc (by simp), hid, h.last⟩

theorem Numbered.check (h : Numbered s) (id : Nat) : Numbered (s.handleSpeak id) := by
  rw [State.handleSpeak]
  split
  case isTrue => exact h.setWorker rfl
  case isFalse => exact (h.setWorker rfl).emit rfl

theorem Numbered.move (h : Numbered s) (hmove : Moves s a s') : Numbered s' := by
  cases hmove with
  | enter call =>
    refine ⟨h.logged, fun thread hmem id hid => ?_, h.commands, h.checks, h.last⟩
    rcases List.mem_append.mp hmem with hold | hnew
    · exact h.threads thread hold id hid
    · rw [List.mem_singleton.mp hnew] at hid
      cases hid
  | blank i call hthread hspeech =>
    exact ⟨h.logged, h.threads_done i _, h.commands, h.checks, h.last⟩
  | request i call hthread hspeech => exact h.incrementAndGet fun _ => rfl
  | publish i call id hthread hspeech =>
    refine ⟨h.logged, h.threads_set fun id' hid => ?_, h.commands, h.checks, h.last⟩
    rw [← Option.some.inj hid]
    exact h.thread hthread rfl
  | send i call id text voice hthread hsends =>
    refine ⟨h.logged, h.threads_done i _,
      fun command hcommand id' hid => ?_, h.checks, h.last⟩
    obtain rfl := Option.some.inj hcommand
    rw [← Option.some.inj hid]
    exact h.thread hthread rfl
  | stop i hthread => exact h.incrementAndGet fun _ => rfl
  | publishStop i id hthread =>
    exact ⟨h.logged, h.threads_done i _, h.commands, h.checks, h.last⟩
  | reload i hthread hsends =>
    refine Numbered.emit ?_ rfl
    refine ⟨h.logged, h.threads_done i _,
      fun command hcommand id hid => ?_, h.checks, h.last⟩
    obtain rfl := Option.some.inj hcommand
    cases hid
  | receive command hworker hcommand => exact h.receive hcommand
  | check id text voice hworker => exact h.check id
  | reloaded hworker => exact (h.setWorker rfl).emit rfl
  | finish id hworker => exact h.setWorker rfl

/-! ## The newest request -/

/-- Where the newest request is. -/
inductive Located (s : State) : Prop
  | call (i : Nat) (call : Call) (phase : CallPhase) : s.threads[i]? = some ⟨call, phase⟩ →
      call.isSpeech = true → phase.id = some s.requestSeq → Located s
  | waiting (command : Command) : s.commands = some command →
      command.id = some s.requestSeq → Located s
  | received : s.worker.checks = some s.requestSeq → Located s
  | started : .started s.requestSeq ∈ s.log → Located s

/-- A call takes a step: the newest request is located if it was with
another call, or is with this one. -/
theorem Located.setPhase {phase' : CallPhase} (h : Located s)
    (hthreads : s'.threads = s.threads.set i ⟨call, phase'⟩)
    (hseq : s'.requestSeq = s.requestSeq) (hworker : s'.worker = s.worker)
    (hlog : s.log ⊆ s'.log)
    (hcall : ∀ call phase, s.threads[i]? = some ⟨call, phase⟩ → call.isSpeech = true →
      phase.id = some s.requestSeq → Located s')
    (hwaiting : ∀ command, s.commands = some command → command.id = some s.requestSeq →
      Located s') :
    Located s' := by
  cases h with
  | call j other phase hget hspeech hid =>
    by_cases heq : i = j
    · subst heq
      exact hcall other phase hget hspeech hid
    · refine .call j other phase ?_ hspeech (hseq ▸ hid)
      rw [hthreads, List.getElem?_set_ne heq, hget]
  | waiting command hcommand hid => exact hwaiting command hcommand hid
  | received hid => exact .received (by rw [hworker, hseq, hid])
  | started hmem => exact .started (hseq ▸ hlog hmem)

/-- The worker takes a step: what it does with the slot and with its own
command decides. -/
theorem Located.work (h : Located s) (hthreads : s'.threads = s.threads)
    (hseq : s'.requestSeq = s.requestSeq) (hlog : s.log ⊆ s'.log)
    (hwaiting : ∀ command, s.commands = some command → command.id = some s.requestSeq →
      Located s')
    (hreceived : s.worker.checks = some s.requestSeq → Located s') : Located s' := by
  cases h with
  | call i call phase hget hspeech hid =>
    exact .call i call phase (hthreads ▸ hget) hspeech (hseq ▸ hid)
  | waiting command hcommand hid => exact hwaiting command hcommand hid
  | received hid => exact hreceived hid
  | started hmem => exact .started (hseq ▸ hlog hmem)

/-- The slot goes to the worker. -/
theorem Located.receive (h : Located s) {command : Command} (hworker : s.worker = .idle)
    (hcommand : s.commands = some command) : Located (s.receive command) := by
  have hchecks : (s.receive command).worker.checks = command.id := by cases command <;> rfl
  have hseq : (s.receive command).requestSeq = s.requestSeq := by cases command <;> rfl
  have hthreads : (s.receive command).threads = s.threads := by cases command <;> rfl
  have hlog : s.log ⊆ (s.receive command).log := by
    cases command with
    | speak id text voice => exact List.Subset.refl _
    | reload => exact List.subset_append_left _ _
  refine h.work hthreads hseq hlog (fun other hother hid => ?_) fun hid => ?_
  · obtain rfl := Option.some.inj (hcommand.symm.trans hother)
    exact .received (by rw [hchecks, hseq, hid])
  · rw [hworker] at hid
    cases hid

/-- The newest request passes the check. -/
theorem Located.check (h : Located s) {id : Nat} (hworker : s.worker.checks = some id)
    (hlatest : id = s.requestSeq → s.latestRequest = s.requestSeq) :
    Located (s.handleSpeak id) := by
  rw [State.handleSpeak]
  split
  case isTrue hne =>
    refine h.work rfl rfl (List.Subset.refl _)
      (fun command hcommand hid => .waiting command hcommand hid) fun hid => ?_
    obtain rfl := Option.some.inj (hworker.symm.trans hid)
    exact absurd (hlatest rfl).symm hne
  case isFalse =>
    refine h.work rfl rfl (List.subset_append_left _ _)
      (fun command hcommand hid => .waiting command hcommand hid) fun hid => ?_
    obtain rfl := Option.some.inj (hworker.symm.trans hid)
    exact .started List.mem_concat_self

/-- A worker that has nothing to check goes back to the channel. -/
theorem Located.leave (h : Located s) (hworker : s.worker.checks = none) :
    Located { s with worker := .idle } :=
  h.work rfl rfl (List.Subset.refl _)
    (fun command hcommand hid => .waiting command hcommand hid) fun hid => by
    rw [hworker] at hid
    cases hid

theorem Located.emit (h : Located s) (e : Event) : Located (s.emit e) := by
  cases h with
  | call i call phase hget hspeech hid => exact .call i call phase hget hspeech hid
  | waiting command hcommand hid => exact .waiting command hcommand hid
  | received hid => exact .received hid
  | started hmem => exact .started (List.mem_append_left _ hmem)

/-- While the last id was a request's, its request is somewhere. -/
def Kept (s : State) : Prop := .requested s.requestSeq ∈ s.log → Located s

theorem Kept.move (hn : Numbered s) (h : Kept s) (hP : NothingLost s a) (hmove : Moves s a s') :
    Kept s' := by
  intro hnewest
  cases hmove with
  | enter call =>
    cases h hnewest with
    | call i call phase hget hspeech hid =>
      exact .call i call phase (Crowd.getElem?_concat_of_some hget _) hspeech hid
    | waiting command hcommand hid => exact .waiting command hcommand hid
    | received hid => exact .received hid
    | started hmem => exact .started hmem
  | blank i call hthread hspeech =>
    refine (h hnewest).setPhase rfl rfl rfl (List.Subset.refl _) (fun _ _ hget _ hid => ?_)
      fun command hcommand hid => .waiting command hcommand hid
    obtain ⟨rfl, rfl⟩ := Thread.mk.inj (Option.some.inj (hthread.symm.trans hget))
    cases hid
  | request i call hthread hspeech =>
    refine .call i call (.numbered (s.requestSeq + 1)) ?_ hspeech rfl
    exact List.getElem?_set_self (List.getElem?_eq_some_iff.mp hthread).1
  | publish i call id hthread hspeech =>
    refine (h hnewest).setPhase rfl rfl rfl (List.Subset.refl _) (fun _ _ hget _ hid => ?_)
      fun command hcommand hid => .waiting command hcommand hid
    obtain ⟨rfl, rfl⟩ := Thread.mk.inj (Option.some.inj (hthread.symm.trans hget))
    refine .call i call (.published id) ?_ hspeech hid
    exact List.getElem?_set_self (List.getElem?_eq_some_iff.mp hthread).1
  | send i call id text voice hthread hsends =>
    refine (h hnewest).setPhase rfl rfl rfl (List.Subset.refl _) (fun _ _ hget _ hid => ?_)
      fun command hcommand hid => absurd hid (hP _ hsends command hcommand).1
    obtain ⟨rfl, rfl⟩ := Thread.mk.inj (Option.some.inj (hthread.symm.trans hget))
    exact .waiting (.speak id text voice) rfl hid
  | stop i hthread =>
    -- The last id is the stop's.
    rcases List.mem_append.mp hnewest with hold | hnew
    · exact absurd (hn.logged _ hold _ rfl) (Nat.not_succ_le_self _)
    · exact absurd (List.mem_singleton.mp hnew) (by simp)
  | publishStop i id hthread =>
    refine (h hnewest).setPhase rfl rfl rfl (List.Subset.refl _) (fun _ _ hget hspeech _ => ?_)
      fun command hcommand hid => .waiting command hcommand hid
    obtain ⟨rfl, rfl⟩ := Thread.mk.inj (Option.some.inj (hthread.symm.trans hget))
    cases hspeech
  | reload i hthread hsends =>
    have hold : .requested s.requestSeq ∈ s.log := by
      simpa [State.emit, State.setPhase, State.trySend] using hnewest
    refine (h hold).setPhase rfl rfl rfl (List.subset_append_left _ _) (fun _ _ hget hspeech _ => ?_)
      fun command hcommand hid => absurd hid (hP _ hsends command hcommand).1
    obtain ⟨rfl, rfl⟩ := Thread.mk.inj (Option.some.inj (hthread.symm.trans hget))
    cases hspeech
  | receive command hworker hcommand =>
    refine Located.receive (h ?_) hworker hcommand
    cases command with
    | speak id text voice => exact hnewest
    | reload => simpa [State.receive, State.emit] using hnewest
  | check id text voice hworker =>
    have hchecks : s.worker.checks = some id := by rw [hworker]; rfl
    refine Located.check (h ?_) hchecks fun heq => hP (heq ▸ hchecks)
    rw [State.handleSpeak] at hnewest
    split at hnewest
    case isTrue => exact hnewest
    case isFalse => simpa [State.emit] using hnewest
  | reloaded hworker =>
    refine ((h ?_).leave (by rw [hworker]; rfl)).emit .reloaded
    simpa [State.emit] using hnewest
  | finish id hworker => exact (h hnewest).leave (by rw [hworker]; rfl)

/-- When all is quiet, the newest request can only have started. -/
theorem newestStarted_of_quiet (hn : Numbered s) (h : Kept s) (hquiet : Quiet s) :
    NewestStarted s.log := by
  intro id hmem hnewest
  obtain ⟨hcommands, hworker, hdone⟩ := hquiet
  obtain ⟨last, hlast, hseq⟩ := hn.last _ hmem id rfl
  obtain rfl : id = s.requestSeq := Nat.le_antisymm (hn.logged _ hmem id rfl)
    (hnewest last hlast _ hseq)
  cases h hmem with
  | call i call phase hget hspeech hid =>
    obtain rfl : phase = .done := hdone _ (List.mem_of_getElem? hget)
    cases hid
  | waiting command hcommand hid =>
    rw [hcommands] at hcommand
    cases hcommand
  | received hid =>
    rw [hworker] at hid
    cases hid
  | started hstarted => exact hstarted

/-! ## Reloads -/

/-- An utterance requested in `log` starts after a reload in it. -/
def StartsReloaded (log : List Event) : Event → Prop
  | .started id => .requested id ∈ log → [.reloading, .reloaded].Sublist log
  | _ => True

/-- What has come of a reload, by what was logged after it. -/
structure ReloadKept (s : State) (post : List Event) : Prop where
  waiting : s.commands = some .reload ∨ .reloading ∈ post
  taken : .reloading ∈ post → s.worker = .received .reload
    ∨ [.reloading, .reloaded].Sublist post
  received : ∀ id, s.worker.checks = some id → .requested id ∈ post →
    [.reloading, .reloaded].Sublist post
  starts : Precedes StartsReloaded post

/-- Each reload in the log is kept. -/
def ReloadsKept (s : State) : Prop :=
  Follows (fun e post => e = .reloadSent → ReloadKept s post) s.log

/-- An event that starts no utterance. -/
theorem starts_concat {post : List Event} {e : Event} (h : Precedes StartsReloaded post)
    (he : StartsReloaded post e) : Precedes StartsReloaded (post ++ [e]) := by
  exact h.append ⟨by simpa using he, trivial⟩

/-- A step that logs nothing. -/
theorem ReloadsKept.silent (h : ReloadsKept s) (hlog : s'.log = s.log)
    (hstep : ∀ post, ReloadKept s post → ReloadKept s' post) : ReloadsKept s' := by
  rw [ReloadsKept, hlog, ← List.append_nil s.log]
  refine Follows.append h (fun e post _ hpost hsent => ?_) trivial
  rw [List.append_nil]
  exact hstep post (hpost hsent)

/-- A step that logs an event. -/
theorem ReloadsKept.concat (h : ReloadsKept s) {e : Event} (hlog : s'.log = s.log ++ [e])
    (hstep : ∀ post, ReloadKept s post → ReloadKept s' (post ++ [e]))
    (hsent : e = .reloadSent → ReloadKept s' []) : ReloadsKept s' := by
  rw [ReloadsKept, hlog]
  exact Follows.append h (fun e post _ hpost hsent => hstep post (hpost hsent)) ⟨hsent, trivial⟩

theorem ReloadKept.frame {post : List Event} (h : ReloadKept s post)
    (hcommands : s'.commands = s.commands) (hworker : s'.worker = s.worker) :
    ReloadKept s' post :=
  ⟨hcommands ▸ h.waiting, fun hmem => hworker ▸ h.taken hmem,
    fun id hid => h.received id (hworker ▸ hid), h.starts⟩

/-- An event of a call. -/
theorem ReloadKept.concat {post : List Event} (h : ReloadKept s post) {e : Event}
    (hcommands : s.commands = some .reload → s'.commands = some .reload)
    (hworker : s'.worker = s.worker) (he : StartsReloaded post e)
    (hfresh : ∀ id, s.worker.checks = some id → e ≠ .requested id)
    (hreloading : e ≠ .reloading) : ReloadKept s' (post ++ [e]) := by
  have hlonger : post.Sublist (post ++ [e]) := List.sublist_append_left _ _
  refine ⟨h.waiting.imp hcommands fun hmem => List.mem_append_left _ hmem, fun hmem => ?_,
    fun id hid hmem => ?_, starts_concat h.starts he⟩
  · rw [hworker]
    rcases List.mem_append.mp hmem with hold | hnew
    · exact (h.taken hold).imp_right fun hdone => hdone.trans hlonger
    · exact absurd (List.mem_singleton.mp hnew).symm hreloading
  · rw [hworker] at hid
    rcases List.mem_append.mp hmem with hold | hnew
    · exact (h.received id hid hold).trans hlonger
    · exact absurd (List.mem_singleton.mp hnew).symm (hfresh id hid)

/-- The slot holds a line, so the reload was taken; the worker is idle, so
it is done. -/
theorem ReloadKept.receive_speak {post : List Event} (h : ReloadKept s post) {id : Nat}
    {text : String} {voice : Option String} (hworker : s.worker = .idle)
    (hcommand : s.commands = some (.speak id text voice)) :
    ReloadKept (s.receive (.speak id text voice)) post := by
  have htaken : .reloading ∈ post := h.waiting.resolve_left (by simp [hcommand])
  have hdone := (h.taken htaken).resolve_left (by simp [hworker])
  exact ⟨.inr htaken, fun _ => .inr hdone, fun _ _ _ => hdone, h.starts⟩

theorem ReloadKept.receive_reload {post : List Event} (h : ReloadKept s post) :
    ReloadKept (s.receive .reload) (post ++ [.reloading]) :=
  ⟨.inr List.mem_concat_self, fun _ => .inl rfl, fun _ hid => absurd hid (by
    simp [State.receive, State.emit, Worker.checks, Command.id]), starts_concat h.starts trivial⟩

/-- A worker that is not in `reloadEngine` goes on to something that is not
checked. -/
theorem ReloadKept.setWorker {post : List Event} (h : ReloadKept s post) {worker : Worker}
    (hne : s.worker ≠ .received .reload) (hchecks : worker.checks = none) :
    ReloadKept { s with worker } post :=
  ⟨h.waiting, fun hmem => .inr ((h.taken hmem).resolve_left hne),
    fun id hid => absurd hid (by simp [hchecks]), h.starts⟩

/-- The utterance passes the check, with the reloads before its request
done. -/
theorem ReloadKept.start {post : List Event} (h : ReloadKept s post) {id : Nat}
    (hworker : s.worker.checks = some id) (hne : s.worker ≠ .received .reload) :
    ReloadKept (({ s with worker := .speaking id }).emit (.started id)) (post ++ [.started id]) := by
  have hspeaking : ReloadKept { s with worker := .speaking id } post := h.setWorker hne rfl
  exact hspeaking.concat (fun hreload => hreload) rfl (h.received id hworker)
    (fun _ hid => absurd hid (by simp [Worker.checks])) (by simp)

theorem ReloadKept.reloaded {post : List Event} (h : ReloadKept s post) :
    ReloadKept (({ s with worker := .idle }).emit .reloaded) (post ++ [.reloaded]) := by
  refine ⟨h.waiting.imp_right fun hmem => List.mem_append_left _ hmem, fun hmem => .inr ?_,
    fun _ hid => absurd hid (by simp [State.emit, Worker.checks]), starts_concat h.starts trivial⟩
  have htaken : .reloading ∈ post := by simpa using hmem
  exact (List.singleton_sublist.mpr htaken).append (List.Sublist.refl [Event.reloaded])

theorem ReloadsKept.move (hn : Numbered s) (h : ReloadsKept s) (hP : NothingLost s a)
    (hmove : Moves s a s') : ReloadsKept s' := by
  cases hmove with
  | enter call => exact h.silent rfl fun post hpost => hpost.frame rfl rfl
  | blank i call hthread hspeech => exact h.silent rfl fun post hpost => hpost.frame rfl rfl
  | request i call hthread hspeech =>
    refine h.concat rfl (fun post hpost => hpost.concat id rfl trivial (fun id hid heq => ?_)
      (by simp)) (by simp)
    -- The id is newer than the one that is checked.
    obtain rfl := Event.requested.inj heq
    exact absurd (hn.checks _ hid) (Nat.not_succ_le_self _)
  | publish i call id hthread hspeech => exact h.silent rfl fun post hpost => hpost.frame rfl rfl
  | send i call id text voice hthread hsends =>
    refine h.silent rfl fun post hpost => ⟨hpost.waiting.imp_left fun hreload => ?_, hpost.taken,
      hpost.received, hpost.starts⟩
    exact absurd ((hP _ hsends _ hreload).2 rfl) (by simp)
  | stop i hthread =>
    exact h.concat rfl (fun post hpost => hpost.concat id rfl trivial (fun _ _ => by simp)
      (by simp)) (by simp)
  | publishStop i id hthread => exact h.silent rfl fun post hpost => hpost.frame rfl rfl
  | reload i hthread hsends =>
    refine h.concat rfl (fun post hpost => hpost.concat (fun _ => rfl) rfl trivial
      (fun _ _ => by simp) (by simp)) fun _ => ?_
    exact ⟨.inl rfl, fun hmem => absurd hmem (by simp), fun _ _ hmem => absurd hmem (by simp),
      trivial⟩
  | receive command hworker hcommand =>
    cases command with
    | speak id text voice =>
      exact h.silent rfl fun post hpost => hpost.receive_speak hworker hcommand
    | reload => exact h.concat rfl (fun post hpost => hpost.receive_reload) (by simp)
  | check id text voice hworker =>
    have hne : s.worker ≠ .received .reload := by simp [hworker]
    rw [State.handleSpeak]
    split
    case isTrue => exact h.silent rfl fun post hpost => hpost.setWorker hne rfl
    case isFalse =>
      exact h.concat rfl (fun post hpost => hpost.start (by simp [hworker]; rfl) hne) (by simp)
  | reloaded hworker => exact h.concat rfl (fun post hpost => hpost.reloaded) (by simp)
  | finish id hworker =>
    exact h.silent rfl fun post hpost => hpost.setWorker (by simp [hworker]) rfl

theorem reloadsFirst_of_reloadsKept (h : ReloadsKept s) : ReloadsFirst s.log := by
  intro pre mid post id hlog hmem
  rw [ReloadsKept, hlog] at h
  exact (h.split rfl).starts.split hmem

/-! ## Runs -/

structure Invariant (s : State) : Prop where
  numbered : Numbered s
  kept : Kept s
  reloads : ReloadsKept s

theorem invariant_new : Invariant .new where
  numbered :=
    ⟨fun _ h => absurd h (by simp [State.new]), fun _ h => absurd h (by simp [State.new]),
      fun _ h => absurd h (by simp [State.new]),
      fun _ h => absurd h (by simp [State.new, Worker.checks]),
      fun _ h => absurd h (by simp [State.new])⟩
  kept := fun h => absurd h (by simp [State.new])
  reloads := trivial

theorem Invariant.step (h : Invariant s) (hP : NothingLost s a)
    (hstep : SupertonicSpeaker.step s a = some s') : Invariant s' :=
  have hmove := moves_of_step hstep
  ⟨h.numbered.move hmove, h.kept.move h.numbered hP hmove, h.reloads.move h.numbered hP hmove⟩

/-- In a run that loses nothing, the newest line and every reload come
through. -/
theorem delivers_of_nothingLost (as : List Action) (s : State)
    (hP : AllMeet step NothingLost .new as) (hrun : run step .new as = some s) : Delivers s := by
  have h : Invariant s :=
    run_invariant (fun _ _ _ hi hmeet hstep => Invariant.step hi hmeet hstep) invariant_new hP hrun
  exact fun hquiet =>
    ⟨newestStarted_of_quiet h.numbered h.kept hquiet, reloadsFirst_of_reloadsKept h.reloads⟩

/-- A reload, then a line that a stop supersedes before it is sent, then a
line that is spoken. -/
def spokenRun : List Action :=
  [.enter .reload, .advance 0, .work, .enter (.speak "one"), .advance 1, .enter .stop, .work,
    .advance 2, .advance 1, .advance 2, .advance 1, .work, .work, .enter (.preview "two" "F1"),
    .advance 3, .advance 3, .advance 3, .work, .work, .work]

/-- It ends quiet, with the newest line spoken and the reload before it. -/
theorem delivers_of_spokenRun :
    ∃ s, run step .new spokenRun = some s ∧
      (Quiet s ∧ .started 3 ∈ s.log ∧ .started 1 ∉ s.log) ∧
      NewestStarted s.log ∧ ReloadsFirst s.log := by
  refine exists_run (P := fun s => Quiet s ∧ .started 3 ∈ s.log ∧ .started 1 ∉ s.log)
    (by decide) ?_
  intro s hrun hend
  have hdelivers : Delivers s := delivers_of_nothingLost spokenRun s (by decide) hrun
  exact ⟨hend, hdelivers hend.1⟩

/-- The reload replaces the line in the slot: all is quiet, and the line was
never started. -/
theorem line_replaced_by_reload :
    ∃ as s, run step .new as = some s ∧ ¬Delivers s := by
  refine ⟨[.enter (.speak "one"), .advance 0, .advance 0, .advance 0, .enter .reload, .advance 1,
    .work, .work], ⟨1, 1, none, .idle, [⟨.speak "one", .done⟩, ⟨.reload, .done⟩],
    [.requested 1, .reloadSent, .reloading, .reloaded]⟩, by decide, fun h => ?_⟩
  have hstarted := (h ⟨rfl, rfl, by simp⟩).1 1 (by simp) (by simp [Event.id])
  simp at hstarted

end TiktokSigner.Android.SupertonicSpeaker
