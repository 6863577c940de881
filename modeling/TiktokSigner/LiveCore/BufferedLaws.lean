import TiktokSigner.LiveCore.Buffered
import TiktokSigner.LiveCore.TraceLaw
import TiktokSigner.Lib.Backlog

/-!
# The laws of buffered dispatch

The byte counter, the order of the callbacks, the report of an overload and
the last `Disconnected`, for every schedule of the transport and the worker.

While `Proxy::send` has reserved a cost and not yet queued the notice or
given the cost back, the counter holds it too; at all other times it is the
cost of what is queued and running.
-/

namespace TiktokSigner.LiveCore

open LiveWs Backlog

section

variable {β ε : Type}

namespace Sending

/-- The notice that is being sent. -/
def notice : Sending β → List (Notice β)
  | idle | stopping => []
  | checked entry | reserved entry | rollback entry | refused entry => [entry.1]

/-- The cost that is reserved for it. -/
def held : Sending β → Nat
  | idle | checked _ | refused _ | stopping => 0
  | reserved entry | rollback entry => entry.2

end Sending

namespace Worker

def held : Worker β → Nat
  | waiting | reporting _ => 0
  | received entry | running entry => entry.2

/-- The notice whose callback has not begun. -/
def pending : Worker β → List (Notice β)
  | waiting | reporting _ | running _ => []
  | received entry => [entry.1]

end Worker

/-- `run` itself reports no backpressure. -/
theorem Emits.honest {maxRetries : UInt32} {directUrl : Nat → String} {s : RunState β}
    {es : List (Event β)} {pc : Pc} {failures : UInt32} {count : Nat}
    (h : Emits maxRetries directUrl s es pc failures count) (retryable : Bool) :
    .onError .backpressure retryable ∉ es := by
  have hlost : ∀ {retryable' : Bool} {pre : List (Event β)}, Lost s.pc retryable' pre →
      .onError .backpressure retryable ∉ pre := by
    intro retryable' pre hlost
    cases hlost with
    | attempt _ herror => rcases herror with rfl | rfl | ⟨_, rfl⟩ <;> simp
    | socket => simp
    | ended => simp
  cases h with
  | fatal _ _ herror => rcases herror with rfl | ⟨_, rfl⟩ <;> simp
  | retry hpre => simp [hlost hpre]
  | exhausted hpre => simp [hlost hpre]
  | batch _ _ hack => rcases hack with rfl | rfl <;> simp
  | undecodable _ hack => rcases hack with rfl | rfl <;> simp
  | _ => simp

namespace Dispatch

variable {maxRetries : UInt32} {directUrl : Nat → String} {decodeBatch : Bytes → Except ε β}
  {retained : β → Nat} {s t : Dispatch β}

theorem waits_iff : s.waits = true ↔ s.sending = .idle ∧ s.outbox = [] := by
  rw [waits]
  split
  case h_1 hidle => simp [hidle]
  case h_2 hbusy =>
    constructor
    · exact nofun
    · intro h
      exact absurd h.1 hbusy

/-! ## What a step does -/

inductive Move (maxRetries : UInt32) (directUrl : Nat → String) (decodeBatch : Bytes → Except ε β)
    (s : Dispatch β) : Dispatch β → Prop where
  | stopped : Move maxRetries directUrl decodeBatch s { s with stop := true }
  | cancelled : Move maxRetries directUrl decodeBatch s { s with cancel := true }
  | advanced (input : Input) (run : RunState β) (hidle : s.sending = .idle) (hout : s.outbox = [])
      (hstep : LiveCore.step maxRetries directUrl decodeBatch s.run input = some run) :
      Move maxRetries directUrl decodeBatch s { s with
        run := run
        outbox := (run.trace.drop s.run.trace.length).filterMap Event.notice? }
  | ignored (notice : Notice β) (outbox : List (Notice β)) (hidle : s.sending = .idle)
      (hout : s.outbox = notice :: outbox) (hover : s.overloaded = true) :
      Move maxRetries directUrl decodeBatch s { s with
        outbox := outbox
        sent := s.sent ++ [(notice, false)] }
  | checked (entry : Entry β) (outbox : List (Notice β)) (hidle : s.sending = .idle)
      (hout : s.outbox = entry.1 :: outbox) (hover : s.overloaded = false) :
      Move maxRetries directUrl decodeBatch s { s with
        outbox := outbox
        sending := .checked entry }
  | reserved (entry : Entry β) (hsending : s.sending = .checked entry)
      (hfits : s.bytes + entry.2 ≤ queueEstimatedBytes) :
      Move maxRetries directUrl decodeBatch s { s with
        bytes := s.bytes + entry.2
        sending := .reserved entry }
  | tooLarge (entry : Entry β) (hsending : s.sending = .checked entry) :
      Move maxRetries directUrl decodeBatch s { s with sending := .refused entry }
  | queued (entry : Entry β) (hsending : s.sending = .reserved entry) :
      Move maxRetries directUrl decodeBatch s { s with
        queue := s.queue ++ [entry]
        sending := .idle
        sent := s.sent ++ [(entry.1, true)] }
  | full (entry : Entry β) (hsending : s.sending = .reserved entry) :
      Move maxRetries directUrl decodeBatch s { s with sending := .rollback entry }
  | rolledBack (entry : Entry β) (hsending : s.sending = .rollback entry) :
      Move maxRetries directUrl decodeBatch s { s with
        bytes := s.bytes - entry.2
        sending := .refused entry }
  | refused (entry : Entry β) (hsending : s.sending = .refused entry) :
      Move maxRetries directUrl decodeBatch s { s with
        overloaded := true
        sending := .stopping
        sent := s.sent ++ [(entry.1, false)] }
  | signalled (hsending : s.sending = .stopping) :
      Move maxRetries directUrl decodeBatch s { s with cancel := true, sending := .idle }
  | dropped (hidle : s.sending = .idle) (hout : s.outbox = []) (hdone : s.run.pc = .done) :
      Move maxRetries directUrl decodeBatch s { s with dropped := true }
  | received (entry : Entry β) (queue : List (Entry β)) (hworker : s.worker = .waiting)
      (hqueue : s.queue = entry :: queue) :
      Move maxRetries directUrl decodeBatch s { s with queue := queue, worker := .received entry }
  | called (entry : Entry β) (hworker : s.worker = .received entry) :
      Move maxRetries directUrl decodeBatch s { s with
        worker := .running entry
        calls := s.calls ++ [entry.1] }
  | released (entry : Entry β) (hworker : s.worker = .running entry) :
      Move maxRetries directUrl decodeBatch s { s with
        bytes := s.bytes - entry.2
        worker := .waiting }
  | drained (hworker : s.worker = .waiting) (hqueue : s.queue = []) (hdropped : s.dropped = true) :
      Move maxRetries directUrl decodeBatch s { s with
        worker := .reporting (if s.overloaded then saturated else []) }
  | reported (notice : Notice β) (left : List (Notice β))
      (hworker : s.worker = .reporting (notice :: left)) :
      Move maxRetries directUrl decodeBatch s { s with
        worker := .reporting left
        calls := s.calls ++ [notice] }

theorem move_of_transport (hs : s.transport retained = some t) :
    Move maxRetries directUrl decodeBatch s t := by
  rw [transport] at hs
  split at hs
  case h_1 hidle =>
    split at hs
    case h_1 => cases hs
    case h_2 notice outbox hout =>
      split_ifs at hs with hover
      · cases hs
        exact .ignored notice outbox hidle hout hover
      · cases hs
        exact .checked (notice, _) outbox hidle hout (Bool.eq_false_iff.mpr hover)
  case h_2 entry hsending =>
    split_ifs at hs with hfits
    · cases hs
      exact .reserved entry hsending hfits
    · cases hs
      exact .tooLarge entry hsending
  case h_3 entry hsending =>
    split_ifs at hs
    · cases hs
      exact .queued entry hsending
    · cases hs
      exact .full entry hsending
  case h_4 entry hsending =>
    cases hs
    exact .rolledBack entry hsending
  case h_5 entry hsending =>
    cases hs
    exact .refused entry hsending
  case h_6 hsending =>
    cases hs
    exact .signalled hsending

theorem move_of_work (hs : s.work = some t) : Move maxRetries directUrl decodeBatch s t := by
  rw [work] at hs
  split at hs
  case h_1 hworker =>
    split at hs
    case h_1 entry queue hqueue =>
      cases hs
      exact .received entry queue hworker hqueue
    case h_2 hqueue =>
      obtain ⟨hdropped, hs⟩ := Option.ite_none_right_eq_some.mp hs
      cases hs
      exact .drained hworker hqueue hdropped
  case h_2 entry hworker =>
    cases hs
    exact .called entry hworker
  case h_3 entry hworker =>
    cases hs
    exact .released entry hworker
  case h_4 notice left hworker =>
    cases hs
    exact .reported notice left hworker
  case h_5 => cases hs

theorem move_of_step {a : DispatchAction}
    (hs : Dispatch.step maxRetries directUrl decodeBatch retained s a = some t) :
    Move maxRetries directUrl decodeBatch s t := by
  cases a with
  | stop =>
    cases hs
    exact .stopped
  | forward =>
    obtain ⟨-, hs⟩ := Option.ite_none_right_eq_some.mp hs
    cases hs
    exact .cancelled
  | advance input =>
    obtain ⟨⟨hwaits, -⟩, hs⟩ := Option.ite_none_right_eq_some.mp hs
    obtain ⟨run, hstep, rfl⟩ := Option.map_eq_some_iff.mp hs
    obtain ⟨hidle, hout⟩ := waits_iff.mp hwaits
    exact .advanced input run hidle hout hstep
  | transport => exact move_of_transport hs
  | drop =>
    obtain ⟨⟨hwaits, hdone⟩, hs⟩ := Option.ite_none_right_eq_some.mp hs
    cases hs
    obtain ⟨hidle, hout⟩ := waits_iff.mp hwaits
    exact .dropped hidle hout hdone
  | worker => exact move_of_work hs

/-! ## The byte counter -/

structure Counted (s : Dispatch β) : Prop where
  bytes : s.bytes = load Prod.snd s.queue + s.worker.held + s.sending.held
  budget : s.bytes ≤ queueEstimatedBytes

theorem Counted.move (h : s.Counted) (hm : Move maxRetries directUrl decodeBatch s t) :
    t.Counted := by
  obtain ⟨hbytes, hbudget⟩ := h
  cases hm with
  | checked entry _ hidle =>
    refine ⟨?_, hbudget⟩
    rw [hidle] at hbytes
    exact hbytes
  | reserved entry hsending hfits =>
    refine ⟨?_, hfits⟩
    rw [hsending] at hbytes
    show s.bytes + entry.2 = load Prod.snd s.queue + s.worker.held + entry.2
    rw [hbytes]
    rfl
  | tooLarge entry hsending =>
    refine ⟨?_, hbudget⟩
    rw [hsending] at hbytes
    exact hbytes
  | queued entry hsending =>
    refine ⟨?_, hbudget⟩
    rw [hsending] at hbytes
    show s.bytes = load Prod.snd (s.queue ++ [entry]) + s.worker.held + 0
    rw [hbytes, load_append, load_cons, load_nil]
    show _ + _ + entry.2 = _
    omega
  | full entry hsending =>
    refine ⟨?_, hbudget⟩
    rw [hsending] at hbytes
    exact hbytes
  | rolledBack entry hsending =>
    refine ⟨?_, Nat.le_trans (Nat.sub_le _ _) hbudget⟩
    rw [hsending] at hbytes
    show s.bytes - entry.2 = load Prod.snd s.queue + s.worker.held + 0
    rw [hbytes]
    exact Nat.add_sub_cancel _ entry.2
  | refused entry hsending =>
    refine ⟨?_, hbudget⟩
    rw [hsending] at hbytes
    exact hbytes
  | signalled hsending =>
    refine ⟨?_, hbudget⟩
    rw [hsending] at hbytes
    exact hbytes
  | received entry queue hworker hqueue =>
    refine ⟨?_, hbudget⟩
    rw [hworker, hqueue] at hbytes
    show s.bytes = load Prod.snd queue + entry.2 + s.sending.held
    rw [hbytes, load_cons, Nat.add_comm entry.2]
    rfl
  | called entry hworker =>
    refine ⟨?_, hbudget⟩
    rw [hworker] at hbytes
    exact hbytes
  | released entry hworker =>
    refine ⟨?_, Nat.le_trans (Nat.sub_le _ _) hbudget⟩
    rw [hworker] at hbytes
    show s.bytes - entry.2 = load Prod.snd s.queue + 0 + s.sending.held
    rw [hbytes]
    show _ + entry.2 + _ - entry.2 = _
    omega
  | drained hworker =>
    refine ⟨?_, hbudget⟩
    rw [hworker] at hbytes
    exact hbytes
  | reported notice left hworker =>
    refine ⟨?_, hbudget⟩
    rw [hworker] at hbytes
    exact hbytes
  | _ => exact ⟨hbytes, hbudget⟩

/-! ## What is sent -/

structure Logged (maxRetries : UInt32) (directUrl : Nat → String) (s : Dispatch β) : Prop where
  run : Kept maxRetries directUrl s.run
  honest : ∀ retryable, .onError .backpressure retryable ∉ s.run.trace
  sent : s.sent.map Prod.fst ++ (s.sending.notice ++ s.outbox) =
    s.run.trace.filterMap Event.notice?
  all : s.sent.all Prod.snd = !s.overloaded
  final : Shut s.sent
  clear : s.sending.notice ≠ [] → s.overloaded = false
  stopping : s.overloaded = true → s.cancel = true ∨ s.sending = .stopping
  ended : s.dropped = true → s.sending = .idle ∧ s.outbox = [] ∧ s.run.pc = .done

namespace Logged

/-- Nothing is sent once the proxy is dropped. -/
theorem not_dropped (h : s.Logged maxRetries directUrl)
    (hbusy : s.sending ≠ .idle ∨ s.outbox ≠ [] ∨ s.run.pc ≠ .done) : s.dropped = false := by
  cases hdropped : s.dropped with
  | false => rfl
  | true =>
    obtain ⟨hidle, hout, hdone⟩ := h.ended hdropped
    rcases hbusy with hbusy | hbusy | hbusy
    · exact absurd hidle hbusy
    · exact absurd hout hbusy
    · exact absurd hdone hbusy

/-- `Proxy::send` goes on with its notice. -/
theorem resend (h : s.Logged maxRetries directUrl) {sending : Sending β} {queue : List (Entry β)}
    {bytes : Nat} (hbusy : s.sending.notice ≠ []) (hnotice : sending.notice = s.sending.notice) :
    Logged maxRetries directUrl { s with sending := sending, bytes := bytes, queue := queue } := by
  have hclear := h.clear hbusy
  have hdropped := h.not_dropped (Or.inl fun hidle => hbusy (by rw [hidle]; rfl))
  refine ⟨h.run, h.honest, ?_, h.all, h.final, fun _ => hclear, ?_, ?_⟩
  · show s.sent.map Prod.fst ++ (sending.notice ++ s.outbox) = _
    rw [hnotice]
    exact h.sent
  · intro hover
    exact absurd (hclear.symm.trans hover) nofun
  · intro hover
    exact absurd (hdropped.symm.trans hover) nofun

theorem advance (h : s.Logged maxRetries directUrl) {input : Input} {run : RunState β}
    (hidle : s.sending = .idle) (hout : s.outbox = [])
    (hstep : LiveCore.step maxRetries directUrl decodeBatch s.run input = some run) :
    Logged maxRetries directUrl { s with
      run := run
      outbox := (run.trace.drop s.run.trace.length).filterMap Event.notice? } := by
  obtain ⟨es, htrace, hemits⟩ := step_extends h.run.reset hstep
  have hdropped := h.not_dropped (Or.inr (Or.inr hemits.not_done))
  refine ⟨h.run.step hstep, ?_, ?_, h.all, h.final, h.clear, h.stopping, ?_⟩
  · intro retryable hmem
    rw [show run.trace = s.run.trace ++ es from htrace] at hmem
    rcases List.mem_append.mp hmem with hmem | hmem
    · exact h.honest retryable hmem
    · exact hemits.honest retryable hmem
  · have hsent := h.sent
    rw [hidle, hout] at hsent
    show s.sent.map Prod.fst ++ (s.sending.notice ++
      (run.trace.drop s.run.trace.length).filterMap Event.notice?)
        = run.trace.filterMap Event.notice?
    rw [hidle, htrace, List.drop_left, List.filterMap_append, ← hsent]
    simp [Sending.notice]
  · intro hover
    exact absurd (hdropped.symm.trans hover) nofun

theorem move (h : s.Logged maxRetries directUrl) (hm : Move maxRetries directUrl decodeBatch s t) :
    t.Logged maxRetries directUrl := by
  cases hm with
  | cancelled =>
    exact ⟨h.run, h.honest, h.sent, h.all, h.final, h.clear, fun _ => Or.inl rfl, h.ended⟩
  | advanced input run hidle hout hstep => exact h.advance hidle hout hstep
  | ignored notice outbox hidle hout hover =>
    have hdropped := h.not_dropped (Or.inr (Or.inl (by rw [hout]; exact List.cons_ne_nil _ _)))
    refine ⟨h.run, h.honest, ?_, ?_, h.final.append_false notice, h.clear, h.stopping, ?_⟩
    · have hsent := h.sent
      rw [hidle, hout] at hsent
      show (s.sent ++ [(notice, false)]).map Prod.fst ++ (s.sending.notice ++ outbox) = _
      rw [hidle, ← hsent, List.map_append, List.append_assoc]
      rfl
    · show (s.sent ++ [(notice, false)]).all Prod.snd = !s.overloaded
      rw [List.all_append, h.all, hover]
      rfl
    · intro hdropped'
      exact absurd (hdropped.symm.trans hdropped') nofun
  | checked entry outbox hidle hout hover =>
    have hdropped := h.not_dropped (Or.inr (Or.inl (by rw [hout]; exact List.cons_ne_nil _ _)))
    refine ⟨h.run, h.honest, ?_, h.all, h.final, fun _ => hover, ?_, ?_⟩
    · have hsent := h.sent
      rw [hidle, hout] at hsent
      exact hsent
    · intro hover'
      exact absurd (hover.symm.trans hover') nofun
    · intro hdropped'
      exact absurd (hdropped.symm.trans hdropped') nofun
  | reserved entry hsending =>
    exact h.resend (by rw [hsending]; exact nofun) (by rw [hsending]; rfl)
  | tooLarge entry hsending =>
    exact h.resend (by rw [hsending]; exact nofun) (by rw [hsending]; rfl)
  | full entry hsending =>
    exact h.resend (by rw [hsending]; exact nofun) (by rw [hsending]; rfl)
  | rolledBack entry hsending =>
    exact h.resend (by rw [hsending]; exact nofun) (by rw [hsending]; rfl)
  | queued entry hsending =>
    have hclear := h.clear (by rw [hsending]; exact nofun)
    have hdropped := h.not_dropped (Or.inl (by rw [hsending]; exact nofun))
    have hall : (s.sent ++ [(entry.1, true)]).all Prod.snd = !s.overloaded := by
      rw [List.all_append, h.all, hclear]
      rfl
    refine ⟨h.run, h.honest, ?_, hall, Shut.of_all (by rw [hall, hclear]; rfl), nofun, ?_, ?_⟩
    · have hsent := h.sent
      rw [hsending] at hsent
      show (s.sent ++ [(entry.1, true)]).map Prod.fst ++ ([] ++ s.outbox) = _
      rw [← hsent, List.map_append, List.append_assoc]
      rfl
    · intro hover
      exact absurd (hclear.symm.trans hover) nofun
    · intro hdropped'
      exact absurd (hdropped.symm.trans hdropped') nofun
  | refused entry hsending =>
    have hdropped := h.not_dropped (Or.inl (by rw [hsending]; exact nofun))
    refine ⟨h.run, h.honest, ?_, ?_, h.final.append_false entry.1, nofun, fun _ => Or.inr rfl, ?_⟩
    · have hsent := h.sent
      rw [hsending] at hsent
      show (s.sent ++ [(entry.1, false)]).map Prod.fst ++ ([] ++ s.outbox) = _
      rw [← hsent, List.map_append, List.append_assoc]
      rfl
    · show (s.sent ++ [(entry.1, false)]).all Prod.snd = !true
      rw [List.all_append]
      exact Bool.and_false _
    · intro hdropped'
      exact absurd (hdropped.symm.trans hdropped') nofun
  | signalled hsending =>
    have hsent := h.sent
    rw [hsending] at hsent
    exact ⟨h.run, h.honest, hsent, h.all, h.final, nofun, fun _ => Or.inl rfl,
      fun hdropped => ⟨rfl, (h.ended hdropped).2⟩⟩
  | dropped hidle hout hdone =>
    exact ⟨h.run, h.honest, h.sent, h.all, h.final, h.clear, h.stopping,
      fun _ => ⟨hidle, hout, hdone⟩⟩
  | _ => exact ⟨h.run, h.honest, h.sent, h.all, h.final, h.clear, h.stopping, h.ended⟩

end Logged

/-! ## What is delivered -/

/-- What the worker calls after the accepted notices. -/
def report (s : Dispatch β) : List (Notice β) :=
  if s.overloaded then saturated else []

structure Delivered (s : Dispatch β) : Prop where
  ordered : (∀ left, s.worker ≠ .reporting left) →
    accepted s.sent = s.calls ++ (s.worker.pending ++ s.queue.map Prod.fst)
  reported : ∀ left, s.worker = .reporting left →
    s.dropped = true ∧ s.queue = [] ∧ s.calls ++ left = accepted s.sent ++ s.report

namespace Delivered

/-- While the transport can still send, the worker does not report. -/
theorem not_reporting (h : s.Delivered) (hlogged : s.Logged maxRetries directUrl)
    (hbusy : s.sending ≠ .idle ∨ s.outbox ≠ [] ∨ s.run.pc ≠ .done) (left : List (Notice β)) :
    s.worker ≠ .reporting left := by
  intro hworker
  obtain ⟨hdropped, -⟩ := h.reported left hworker
  exact absurd ((hlogged.not_dropped hbusy).symm.trans hdropped) nofun

/-- A step of the transport that queues nothing. -/
theorem unsent (h : s.Delivered) (hlogged : s.Logged maxRetries directUrl)
    (hbusy : s.sending ≠ .idle ∨ s.outbox ≠ [] ∨ s.run.pc ≠ .done)
    (hworker : t.worker = s.worker) (hqueue : t.queue = s.queue) (hcalls : t.calls = s.calls)
    (hsent : accepted t.sent = accepted s.sent) : t.Delivered := by
  refine ⟨fun hnot => ?_, fun left hreporting => ?_⟩
  · rw [hsent, hcalls, hworker, hqueue]
    exact h.ordered fun left hleft => hnot left (hworker.trans hleft)
  · exact absurd (hworker.symm.trans hreporting) (h.not_reporting hlogged hbusy left)

theorem move (h : s.Delivered) (hlogged : s.Logged maxRetries directUrl)
    (hm : Move maxRetries directUrl decodeBatch s t) : t.Delivered := by
  cases hm with
  | ignored notice outbox _ hout =>
    exact h.unsent hlogged (Or.inr (Or.inl (by rw [hout]; exact List.cons_ne_nil _ _))) rfl rfl rfl
      (accepted_append_false s.sent notice)
  | checked _ _ _ hout =>
    exact h.unsent hlogged (Or.inr (Or.inl (by rw [hout]; exact List.cons_ne_nil _ _))) rfl rfl rfl
      rfl
  | reserved _ hsending =>
    exact h.unsent hlogged (Or.inl (by rw [hsending]; exact nofun)) rfl rfl rfl rfl
  | tooLarge _ hsending =>
    exact h.unsent hlogged (Or.inl (by rw [hsending]; exact nofun)) rfl rfl rfl rfl
  | full _ hsending =>
    exact h.unsent hlogged (Or.inl (by rw [hsending]; exact nofun)) rfl rfl rfl rfl
  | rolledBack _ hsending =>
    exact h.unsent hlogged (Or.inl (by rw [hsending]; exact nofun)) rfl rfl rfl rfl
  | refused entry hsending =>
    exact h.unsent hlogged (Or.inl (by rw [hsending]; exact nofun)) rfl rfl rfl
      (accepted_append_false s.sent entry.1)
  | queued entry hsending =>
    have hnot := h.not_reporting hlogged (Or.inl (by rw [hsending]; exact nofun))
    have hclear := hlogged.clear (by rw [hsending]; exact nofun)
    have hall := hlogged.all
    rw [hclear] at hall
    refine ⟨fun _ => ?_, fun left hreporting => absurd hreporting (hnot left)⟩
    show accepted (s.sent ++ [(entry.1, true)]) =
      s.calls ++ (s.worker.pending ++ (s.queue ++ [entry]).map Prod.fst)
    rw [accepted_append_true hall, h.ordered hnot]
    simp
  | dropped =>
    refine ⟨h.ordered, fun left hreporting => ?_⟩
    obtain ⟨-, hrest⟩ := h.reported left hreporting
    exact ⟨rfl, hrest⟩
  | received entry queue hworker hqueue =>
    have hordered := h.ordered (by rw [hworker]; exact fun _ => nofun)
    rw [hworker, hqueue] at hordered
    exact ⟨fun _ => hordered, fun _ => nofun⟩
  | called entry hworker =>
    have hordered := h.ordered (by rw [hworker]; exact fun _ => nofun)
    rw [hworker] at hordered
    refine ⟨fun _ => ?_, fun _ => nofun⟩
    rw [hordered, List.append_assoc]
    rfl
  | released entry hworker =>
    have hordered := h.ordered (by rw [hworker]; exact fun _ => nofun)
    rw [hworker] at hordered
    exact ⟨fun _ => hordered, fun _ => nofun⟩
  | drained hworker hqueue hdropped =>
    have hordered := h.ordered (by rw [hworker]; exact fun _ => nofun)
    rw [hworker, hqueue] at hordered
    refine ⟨fun hnot => absurd rfl (hnot _), fun left hleft => ⟨hdropped, hqueue, ?_⟩⟩
    cases hleft
    show s.calls ++ s.report = accepted s.sent ++ s.report
    rw [hordered]
    exact congrArg (· ++ s.report) (List.append_nil s.calls).symm
  | reported notice left hworker =>
    obtain ⟨hdropped, hqueue, hcalls⟩ := h.reported _ hworker
    refine ⟨fun hnot => absurd rfl (hnot left), fun left' hleft => ⟨hdropped, hqueue, ?_⟩⟩
    cases hleft
    rw [List.append_assoc]
    exact hcalls
  | signalled | stopped | cancelled | advanced => exact ⟨h.ordered, h.reported⟩

end Delivered

/-! ## Whole runs -/

structure Sound (maxRetries : UInt32) (directUrl : Nat → String) (s : Dispatch β) : Prop where
  counted : s.Counted
  logged : s.Logged maxRetries directUrl
  delivered : s.Delivered

theorem sound_initial : Sound maxRetries directUrl ({} : Dispatch β) :=
  ⟨⟨rfl, Nat.zero_le _⟩,
    ⟨Kept.init, fun _ => nofun, rfl, rfl, shut_nil, fun _ => rfl, nofun, nofun⟩,
    ⟨fun _ => rfl, fun _ => nofun⟩⟩

theorem Sound.step (h : s.Sound maxRetries directUrl) {a : DispatchAction}
    (hs : Dispatch.step maxRetries directUrl decodeBatch retained s a = some t) :
    t.Sound maxRetries directUrl :=
  have hm := move_of_step hs
  ⟨h.counted.move hm, h.logged.move hm, h.delivered.move h.logged hm⟩

theorem sound_of_run {as : List DispatchAction}
    (hrun : Lts.run (Dispatch.step maxRetries directUrl decodeBatch retained) {} as = some s) :
    s.Sound maxRetries directUrl :=
  Lts.run_invariant_all (fun _ _ _ h hs => h.step hs) sound_initial hrun

/-- The worker has made its last callback. -/
def Finished (s : Dispatch β) : Prop :=
  s.worker = .reporting []

theorem countP_notices (trace : List (Event β)) :
    (trace.filterMap Event.notice?).countP Notice.isDisconnected =
      trace.countP Event.isDisconnected := by
  induction trace with
  | nil => rfl
  | cons event trace ih =>
    cases event with
    | onState state detail =>
      show (Notice.state state detail :: trace.filterMap Event.notice?).countP _ = _
      rw [List.countP_cons, List.countP_cons, ih]
      cases state <;> rfl
    | onError | onBatch | onDecodeDuration | onAckDuration | sign | openUri | nextMessage | close |
        cancelled => exact ih

/-- What the worker has called when it is done. -/
theorem Sound.calls_eq (h : s.Sound maxRetries directUrl) (hfinished : s.Finished) :
    s.calls = accepted s.sent ++ (if s.sent.all Prod.snd then [] else saturated) := by
  obtain ⟨-, -, hcalls⟩ := h.delivered.reported [] hfinished
  rw [List.append_nil] at hcalls
  rw [hcalls, report, h.logged.all]
  cases s.overloaded <;> rfl

/-- The transport has sent all its notices, `Disconnected` last and once. -/
theorem Sound.sent_eq (h : s.Sound maxRetries directUrl) (hfinished : s.Finished) :
    ∃ before detail, s.sent.map Prod.fst = before ++ [.state .disconnected detail] ∧
      before.countP Notice.isDisconnected = 0 := by
  obtain ⟨hdropped, -⟩ := h.delivered.reported [] hfinished
  obtain ⟨hidle, hout, hdone⟩ := h.logged.ended hdropped
  have hsent := h.logged.sent
  rw [hidle, hout, show (Sending.idle.notice ++ [] : List (Notice β)) = [] from rfl,
    List.append_nil] at hsent
  obtain ⟨detail, hlast⟩ := h.logged.run.last hdone
  obtain ⟨before, hbefore⟩ := List.getLast?_eq_some_iff.mp hlast
  have hcount := h.logged.run.disconnected
  rw [if_pos hdone, hbefore, List.countP_append] at hcount
  refine ⟨before.filterMap Event.notice?, detail, ?_, ?_⟩
  · rw [hsent, hbefore, List.filterMap_append]
    rfl
  · rw [countP_notices]
    exact Nat.succ.inj hcount

theorem Sound.disconnected (h : s.Sound maxRetries directUrl) (hfinished : s.Finished) :
    s.calls.countP Notice.isDisconnected = 1 ∧
      ∃ detail, s.calls.getLast? = some (.state .disconnected detail) := by
  obtain ⟨before, detail, hsent, hbefore⟩ := h.sent_eq hfinished
  rw [h.calls_eq hfinished]
  cases hall : s.sent.all Prod.snd with
  | true =>
    rw [if_pos rfl, List.append_nil, accepted_eq_map hall, hsent]
    refine ⟨?_, detail, List.getLast?_concat ..⟩
    rw [List.countP_append, hbefore]
    rfl
  | false =>
    obtain ⟨rejected, hrejected, hne⟩ := exists_rejected s.sent
    -- the transport's own last notice is among the rejected ones
    obtain ⟨rejected, last, rfl⟩ := (List.eq_nil_or_concat rejected).resolve_left (hne hall)
    rw [List.concat_eq_append, ← List.append_assoc, hsent] at hrejected
    obtain ⟨hbefore', -⟩ := List.append_inj' hrejected rfl
    rw [hbefore', List.countP_append] at hbefore
    rw [if_neg nofun]
    refine ⟨?_, "stream stopped", ?_⟩
    · rw [List.countP_append, Nat.eq_zero_of_add_eq_zero_right hbefore]
      rfl
    · rw [List.getLast?_append]
      rfl

/-! ## Draining -/

/-- Nothing is needed from outside any more. -/
def Ending (s : Dispatch β) : Prop :=
  s.cancel = true ∨ s.overloaded = true ∨ s.run.pc = .done

/-- The steps of the two threads alone. -/
def own : DispatchAction → Bool
  | .transport | .drop | .worker | .advance .cancelled => true
  | _ => false

def Sending.left : Sending β → Nat
  | .idle => 0
  | .checked _ => 9
  | .reserved _ => 8
  | .rollback _ => 3
  | .refused _ => 2
  | .stopping => 1

def Worker.left : Worker β → Nat
  | .reporting left => left.length
  | .waiting => 4
  | .running _ => 5
  | .received _ => 6

/-- An upper bound for the steps that are left. -/
def remaining (s : Dispatch β) : Nat :=
  (if s.run.pc = .done then 0 else 20) + 10 * s.outbox.length + Sending.left s.sending +
    4 * s.queue.length + Worker.left s.worker + (if s.dropped then 0 else 1)

/-- Every waiting point of `run` is left by a cancellation, with one notice. -/
theorem cancelled_enabled {run : RunState β} (hpc : run.pc ≠ .done) :
    ∃ run', LiveCore.step maxRetries directUrl decodeBatch run .cancelled = some run' ∧
      run'.pc = .done ∧
      ((run'.trace.drop run.trace.length).filterMap Event.notice?).length = 1 := by
  rcases run with ⟨pc, failures, reconnecting, urls, trace⟩
  cases pc with
  | done => exact absurd rfl hpc
  | top | signing | opening | connected | backoff =>
    refine ⟨_, rfl, rfl, ?_⟩
    simp only [RunState.emit, RunState.stop, List.drop_left, List.append_assoc]
    rfl

theorem transport_enabled (hbusy : s.sending ≠ .idle ∨ s.outbox ≠ []) :
    ∃ t, s.transport retained = some t := by
  rw [transport]
  split
  case h_1 hidle =>
    split
    case h_1 hout => exact absurd hbusy (by simp [hidle, hout])
    case h_2 => split_ifs <;> exact ⟨_, rfl⟩
  case h_2 => split_ifs <;> exact ⟨_, rfl⟩
  case h_3 => split_ifs <;> exact ⟨_, rfl⟩
  all_goals exact ⟨_, rfl⟩

theorem remaining_transport (hs : s.transport retained = some t) :
    t.remaining < s.remaining ∧ (s.Ending → t.Ending) := by
  rw [transport] at hs
  split at hs
  case h_1 hidle =>
    split at hs
    case h_1 => cases hs
    case h_2 notice outbox hout =>
      split_ifs at hs <;> cases hs <;> refine ⟨?_, id⟩ <;>
        simp only [remaining, hout, hidle, List.length_cons, Sending.left] <;> omega
  case h_2 entry hsending =>
    split_ifs at hs <;> cases hs <;> refine ⟨?_, id⟩ <;>
      simp only [remaining, hsending, Sending.left] <;> omega
  case h_3 entry hsending =>
    split_ifs at hs <;> cases hs <;> refine ⟨?_, id⟩ <;>
      simp only [remaining, hsending, Sending.left, List.length_append, List.length_singleton] <;>
      omega
  case h_4 entry hsending =>
    cases hs
    refine ⟨?_, id⟩
    simp only [remaining, hsending, Sending.left]
    omega
  case h_5 entry hsending =>
    cases hs
    refine ⟨?_, fun _ => Or.inr (Or.inl rfl)⟩
    simp only [remaining, hsending, Sending.left]
    omega
  case h_6 hsending =>
    cases hs
    refine ⟨?_, fun _ => Or.inl rfl⟩
    simp only [remaining, hsending, Sending.left]
    omega

theorem work_enabled (hdropped : s.dropped = true) (hnot : ¬s.Finished) : ∃ t, s.work = some t := by
  rw [work]
  split
  case h_1 =>
    split
    case h_1 => exact ⟨_, rfl⟩
    case h_2 => exact ⟨_, if_pos hdropped⟩
  case h_5 hworker => exact absurd hworker hnot
  all_goals exact ⟨_, rfl⟩

theorem remaining_work (hs : s.work = some t) :
    t.remaining < s.remaining ∧ (s.Ending → t.Ending) := by
  rw [work] at hs
  split at hs
  case h_1 hworker =>
    split at hs
    case h_1 entry queue hqueue =>
      cases hs
      refine ⟨?_, id⟩
      simp only [remaining, hqueue, hworker, Worker.left, List.length_cons]
      omega
    case h_2 hqueue =>
      obtain ⟨-, hs⟩ := Option.ite_none_right_eq_some.mp hs
      cases hs
      refine ⟨?_, id⟩
      have hreport : s.report.length ≤ 3 := by
        rw [report]
        cases s.overloaded
        · exact Nat.zero_le 3
        · exact Nat.le_refl 3
      have hless : s.report.length < Worker.left s.worker := by
        rw [hworker]
        exact Nat.lt_succ_of_le hreport
      exact Nat.add_lt_add_right (Nat.add_lt_add_left hless _) _
  case h_5 => cases hs
  all_goals
    rename_i hworker
    cases hs
    refine ⟨?_, id⟩
    simp only [remaining, hworker, Worker.left, List.length_cons]
    omega

theorem progress (h : s.Sound maxRetries directUrl) (hending : s.Ending) (hnot : ¬s.Finished) :
    ∃ a t, own a = true ∧ Dispatch.step maxRetries directUrl decodeBatch retained s a = some t ∧
      t.remaining < s.remaining ∧ t.Ending := by
  by_cases hbusy : s.sending ≠ .idle ∨ s.outbox ≠ []
  · obtain ⟨t, ht⟩ : ∃ t, s.transport retained = some t := transport_enabled hbusy
    obtain ⟨hless, hending'⟩ := remaining_transport ht
    exact ⟨.transport, t, rfl, ht, hless, hending' hending⟩
  · rw [not_or, not_not, not_not] at hbusy
    have hwaits := waits_iff.mpr hbusy
    by_cases hpc : s.run.pc = .done
    · cases hdropped : s.dropped with
      | false =>
        refine ⟨.drop, { s with dropped := true }, rfl, if_pos ⟨hwaits, hpc⟩, ?_, hending⟩
        simp only [remaining, hdropped]
        exact Nat.lt_succ_self _
      | true =>
        obtain ⟨t, ht⟩ := work_enabled hdropped hnot
        obtain ⟨hless, hending'⟩ := remaining_work ht
        exact ⟨.worker, t, rfl, ht, hless, hending' hending⟩
    · have hcancel : s.cancel = true := by
        rcases hending with hcancel | hover | hdone
        · exact hcancel
        · rcases h.logged.stopping hover with hcancel | hstopping
          · exact hcancel
          · exact absurd (hbusy.1.symm.trans hstopping) nofun
        · exact absurd hdone hpc
      obtain ⟨run, hstep, hdone, hone⟩ := cancelled_enabled hpc
      refine ⟨.advance .cancelled, _, rfl, (if_pos ⟨hwaits, hcancel.symm⟩).trans
        (Option.map_eq_some_iff.mpr ⟨run, hstep, rfl⟩), ?_, Or.inl hcancel⟩
      simp only [remaining, hdone, hbusy.2, hone, if_true, if_neg hpc, List.length_nil]
      omega

/-- Once cancelled or overloaded, the threads alone bring the dispatch to
its end. -/
theorem finishes (h : s.Sound maxRetries directUrl) (hending : s.Ending) :
    ∃ as t, (∀ a ∈ as, own a = true) ∧
      Lts.run (Dispatch.step maxRetries directUrl decodeBatch retained) s as = some t ∧
      t.Finished := by
  induction hn : s.remaining using Nat.strong_induction_on generalizing s with
  | _ n ih =>
    by_cases hfinished : s.Finished
    · exact ⟨[], s, nofun, rfl, hfinished⟩
    · obtain ⟨a, t, hown, hs, hless, hending'⟩ := progress h hending hfinished
      obtain ⟨as, u, howns, hrun, hu⟩ := ih t.remaining (hn ▸ hless) (h.step hs) hending' rfl
      refine ⟨a :: as, u, ?_, Lts.run_cons_eq_some.mpr ⟨t, hs, hrun⟩, hu⟩
      intro b hb
      rcases List.mem_cons.mp hb with rfl | hb
      · exact hown
      · exact howns b hb

/-! ## The laws -/

/-- What buffered dispatch promises to the sink. -/
structure Lawful (s : Dispatch β) : Prop where
  /-- The counter is what is queued, what runs, and what `send` has reserved
  and not yet queued or given back. -/
  bytes : s.bytes = load Prod.snd s.queue + s.worker.held + s.sending.held
  budget : s.bytes ≤ queueEstimatedBytes
  /-- The notices of the transport, in order: dealt with, at hand, to come. -/
  sent : s.sent.map Prod.fst ++ (s.sending.notice ++ s.outbox) =
    s.run.trace.filterMap Event.notice?
  /-- Before the report the callbacks are a prefix of what was accepted. -/
  delivered : (∀ left, s.worker ≠ .reporting left) → s.calls <+: accepted s.sent
  /-- Nothing is accepted after the first rejection. -/
  shut : Shut s.sent
  finished : s.Finished →
    s.calls = accepted s.sent ++ (if s.sent.all Prod.snd then [] else saturated)
  honest : ∀ retryable, .error .backpressure retryable ∉ accepted s.sent
  disconnected : s.Finished → s.calls.countP Notice.isDisconnected = 1 ∧
    ∃ detail, s.calls.getLast? = some (.state .disconnected detail)

theorem Sound.honest (h : s.Sound maxRetries directUrl) (retryable : Bool) :
    .error .backpressure retryable ∉ accepted s.sent := by
  intro hmem
  obtain ⟨rejected, hrejected, -⟩ := exists_rejected s.sent
  have hsent : .error .backpressure retryable ∈ s.run.trace.filterMap Event.notice? := by
    rw [← h.logged.sent, hrejected]
    exact List.mem_append_left _ (List.mem_append_left _ hmem)
  obtain ⟨event, hevent, hnotice⟩ := List.mem_filterMap.mp hsent
  cases event <;> cases hnotice
  exact h.logged.honest retryable hevent

theorem Sound.lawful (h : s.Sound maxRetries directUrl) : s.Lawful where
  bytes := h.counted.bytes
  budget := h.counted.budget
  sent := h.logged.sent
  delivered hnot := ⟨_, (h.delivered.ordered hnot).symm⟩
  shut := h.logged.final
  finished := h.calls_eq
  honest := h.honest
  disconnected := h.disconnected

/-- Buffered dispatch is lawful in every run, and once it is cancelled or a
notice has been rejected, or `run` has returned, it comes to its end. -/
theorem buffered_dispatch {as : List DispatchAction}
    (hrun : Lts.run (Dispatch.step maxRetries directUrl decodeBatch retained) {} as = some s) :
    s.Lawful ∧ (s.Ending → ∃ bs t, (∀ b ∈ bs, own b = true) ∧
      Lts.run (Dispatch.step maxRetries directUrl decodeBatch retained) s bs = some t ∧
      t.Finished ∧ t.Lawful) := by
  have h := sound_of_run hrun
  refine ⟨h.lawful, fun hending => ?_⟩
  obtain ⟨bs, t, hown, hrest, hfinished⟩ := finishes h hending
  have ht : t.Sound maxRetries directUrl :=
    Lts.run_invariant_all (fun _ _ _ h hs => h.step hs) h hrest
  exact ⟨bs, t, hown, hrest, hfinished, ht.lawful⟩

/-- A batch that costs more than the budget is rejected, and with it the
transport's own `Disconnected`. -/
theorem buffered_dispatch_of_large_batch :
    ∃ s : Dispatch Nat, Lts.run (Dispatch.step 0 (fun _ => "wss://host/")
        (fun _ => (.ok 9000000 : Except Unit Nat)) id) {}
        [.advance .proceed, .transport, .transport, .transport, .advance (.signed "wss://host/0"),
          .advance .opened, .transport, .transport, .transport, .worker, .worker,
          .advance (.message false []), .transport, .transport, .transport, .transport, .transport,
          .transport, .transport, .advance .cancelled, .transport, .drop, .worker, .worker, .worker,
          .worker, .worker, .worker, .worker, .worker, .worker, .worker, .worker] =
        some s ∧
      s.calls = [.state .connecting "opening LIVE stream", .state .connected "LIVE stream open",
        .decode] ++ saturated ∧ s.Lawful := by
  refine Lts.exists_run (P := fun s => s.calls = [.state .connecting "opening LIVE stream",
    .state .connected "LIVE stream open", .decode] ++ saturated) (by decide) ?_
  intro s hrun hcalls
  exact ⟨hcalls, (buffered_dispatch hrun).1⟩

/-- `Proxy::send` has reserved the cost of its first notice and not yet
queued it: the counter is ahead of the queue. -/
theorem reserved_before_queued :
    ¬∀ (maxRetries : UInt32) (directUrl : Nat → String) (decodeBatch : Bytes → Except Unit Nat)
      (retained : Nat → Nat) (as : List DispatchAction) (s : Dispatch Nat),
      Lts.run (Dispatch.step maxRetries directUrl decodeBatch retained) {} as = some s →
      s.bytes = load Prod.snd s.queue + s.worker.held := by
  intro h
  have hrun : ∃ s : Dispatch Nat, Lts.run (Dispatch.step 0 (fun _ => "wss://host/")
      (fun _ => (.ok 0 : Except Unit Nat)) id) {} [.advance .proceed, .transport, .transport] =
      some s ∧ s.bytes ≠ load Prod.snd s.queue + s.worker.held :=
    Lts.exists_run (P := fun s => s.bytes ≠ load Prod.snd s.queue + s.worker.held)
      (by decide) fun _ _ h => h
  obtain ⟨s, hrun, hne⟩ := hrun
  exact hne (h _ _ _ _ _ s hrun)

end Dispatch

end

end TiktokSigner.LiveCore
