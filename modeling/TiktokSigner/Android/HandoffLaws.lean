import TiktokSigner.Android.MainEventHandoff

/-!
# The laws of the handoff

One pump at most, the byte count and the depth, the order of the
notifications and the overflow error hold in every run.

The failure branch counts the queue and clears it in two steps. An event
that gets into the queue in between is cleared without being counted, and
an overflow in between counts the queue a second time; `InTime` rules out
these two, and then the account of the events is exact (`Accounts`).
-/

namespace TiktokSigner.Android

open Backlog

namespace Main

/-- The event whose consumer call has not returned and is not counted. -/
def inHand : Main → Nat
  | delivering _ notice | failed _ notice => notice.events
  | idle | pumping _ | stopping _ | reporting _ | closing _ => 0

/-- A pump turn is running. -/
def busy : Main → Nat
  | idle => 0
  | pumping _ | delivering _ _ | failed _ _ | stopping _ | reporting _ | closing _ => 1

/-- No consumer has thrown in this turn. -/
def calm : Main → Bool
  | idle | pumping _ | delivering _ _ => true
  | failed _ _ | stopping _ | reporting _ | closing _ => false

end Main

namespace Handoff

variable {o : HandoffOptions} {s t : Handoff} {a : HandoffAction} {notice : Notice}

/-! ## What a step does -/

/-- The workers never offer the overflow notice. -/
theorem worker_of_offered (hoffer : a.offered = some notice) : notice ≠ .overflow := by
  cases a <;> cases hoffer <;> exact nofun

theorem schedule_eq (s : Handoff) : s.schedule =
    { s with scheduled := true, posted := s.posted + if s.scheduled then 0 else 1 } := by
  rw [schedule]
  split_ifs with h
  · rw [Nat.add_zero, ← h]
  · rfl

theorem invoke_eq (s : Handoff) (call : Call) : s.invoke call =
    { s with calls := s.calls ++ if s.consumers then [call] else [] } := by
  rw [invoke]
  split_ifs
  · rfl
  · rw [List.append_nil]

/-- The steps; an offer is ignored, overflows the queue or is taken into it. -/
inductive Move (o : HandoffOptions) (s : Handoff) : HandoffAction → Handoff → Prop where
  | ignored (a : HandoffAction) (hstopped : s.stopped = true) : Move o s a s
  | overflowed (a : HandoffAction) (notice : Notice) (hoffer : a.offered = some notice)
      (hrunning : s.stopped = false) (hover : s.overflowing o notice = true) :
      Move o s a { s with
        offeredEvents := s.offeredEvents + notice.events
        discardedEvents := s.discardedEvents + (load Notice.events s.queue + notice.events)
        queue := [.overflow]
        queuedBytes := 0
        stopped := true
        overflows := s.overflows + 1
        scheduled := true
        posted := s.posted + if s.scheduled then 0 else 1 }
  | accepted (a : HandoffAction) (notice : Notice) (hoffer : a.offered = some notice)
      (hrunning : s.stopped = false) (hfits : s.overflowing o notice = false) :
      Move o s a { s with
        offeredEvents := s.offeredEvents + notice.events
        queue := s.queue ++ [notice]
        queuedBytes := s.queuedBytes + notice.bytes
        accepted := s.accepted ++ [notice]
        scheduled := true
        posted := s.posted + if s.scheduled then 0 else 1 }
  | run (hmain : s.main = .idle) (hposted : 0 < s.posted) :
      Move o s .run { s with posted := s.posted - 1, main := .pumping o.batchSize }
  | turnOver (hmain : s.main = .pumping 0) (hqueue : s.queue = []) :
      Move o s .next { s with scheduled := false, main := .idle }
  | turnAgain (hmain : s.main = .pumping 0) (hqueue : s.queue ≠ []) :
      Move o s .next { s with scheduled := true, main := .idle, posted := s.posted + 1 }
  | skipped (left : Nat) (hmain : s.main = .pumping (left + 1)) (hqueue : s.queue = []) :
      Move o s .next { s with main := .pumping left }
  | taken (left : Nat) (notice : Notice) (queue : List Notice)
      (hmain : s.main = .pumping (left + 1)) (hqueue : s.queue = notice :: queue) :
      Move o s .next { s with
        queue := queue
        queuedBytes := s.queuedBytes - notice.bytes
        main := .delivering left notice
        calls := s.calls ++ if s.consumers then [notice.call] else [] }
  | returned (left : Nat) (notice : Notice) (hmain : s.main = .delivering left notice) :
      Move o s .returned { s with
        main := .pumping left, handedEvents := s.handedEvents + notice.events }
  | threw (left : Nat) (notice : Notice) (hmain : s.main = .delivering left notice) :
      Move o s .threw { s with main := .failed left notice, threw := true }
  | count (left : Nat) (notice : Notice) (hmain : s.main = .failed left notice) :
      Move o s .count { s with
        main := .stopping left
        discardedEvents := s.discardedEvents + load Notice.events s.queue + notice.events
        callbackFailures := s.callbackFailures + 1
        writtenOff := load Notice.events s.queue }
  | stopReturned (left : Nat) (hmain : s.main = .stopping left) :
      Move o s .stopReturned { s with
        main := .reporting left
        calls := s.calls ++ if s.consumers then [failureError] else [] }
  | reported (left : Nat) (hmain : s.main = .reporting left) :
      Move o s .reported { s with main := .closing left }
  | closeFailed (left : Nat) (hmain : s.main = .closing left) :
      Move o s .closeFailed { s.close with main := .pumping left }
  | close : Move o s .close { s.close with ownerClosed := true }

theorem Move.of_offer (o : HandoffOptions) (s : Handoff)
    (hoffer : a.offered = some notice) : Move o s a (s.offer o notice) := by
  unfold offer
  split_ifs with hstopped hover
  · exact Move.ignored a hstopped
  · rw [schedule_eq]
    exact Move.overflowed a notice hoffer (Bool.eq_false_iff.mpr hstopped) hover
  · rw [schedule_eq]
    exact Move.accepted a notice hoffer (Bool.eq_false_iff.mpr hstopped)
      (Bool.eq_false_iff.mpr hover)

theorem Move.of_nextStep (hs : s.nextStep = some t) : Move o s .next t := by
  unfold nextStep at hs
  split at hs
  case h_1 hmain =>
    cases hs
    by_cases hqueue : s.queue = []
    · simpa [hqueue] using Move.turnOver hmain hqueue
    · simpa [hqueue] using Move.turnAgain hmain hqueue
  case h_2 left hmain =>
    split at hs
    case h_1 hqueue =>
      cases hs
      exact Move.skipped left hmain hqueue
    case h_2 notice queue hqueue =>
      cases hs
      rw [invoke_eq]
      exact Move.taken left notice queue hmain hqueue
  case h_3 => cases hs

theorem eq_of_close (hs : s.step o .close = some t) : t = { s.close with ownerClosed := true } := by
  simp only [step] at hs
  split at hs
  all_goals
    cases hs
  all_goals rfl

theorem Move.of_step (hs : s.step o a = some t) : Move o s a t := by
  cases a with
  | event json =>
    cases hs
    exact Move.of_offer o s rfl
  | state kind detail =>
    cases hs
    exact Move.of_offer o s rfl
  | run =>
    simp only [step] at hs
    split_ifs at hs with h
    cases hs
    exact Move.run h.1 h.2
  | next => exact Move.of_nextStep hs
  | returned =>
    simp only [step] at hs
    split at hs
    case h_1 left notice hmain => cases hs; exact Move.returned left notice hmain
    case h_2 => cases hs
  | threw =>
    simp only [step] at hs
    split at hs
    case h_1 left notice hmain => cases hs; exact Move.threw left notice hmain
    case h_2 => cases hs
  | count =>
    simp only [step] at hs
    split at hs
    case h_1 left notice hmain => cases hs; exact Move.count left notice hmain
    case h_2 => cases hs
  | stopReturned =>
    simp only [step] at hs
    split at hs
    case h_1 left hmain =>
      cases hs
      rw [invoke_eq]
      exact Move.stopReturned left hmain
    case h_2 => cases hs
  | reported =>
    simp only [step] at hs
    split at hs
    case h_1 left hmain => cases hs; exact Move.reported left hmain
    case h_2 => cases hs
  | closeFailed =>
    simp only [step] at hs
    split at hs
    case h_1 left hmain => cases hs; exact Move.closeFailed left hmain
    case h_2 => cases hs
  | close =>
    rw [eq_of_close hs]
    exact Move.close

/-! ## The pump -/

structure Pumps (s : Handoff) : Prop where
  single : s.posted + s.main.busy ≤ 1
  scheduled : s.consumers = true → (s.scheduled = true ↔ s.posted + s.main.busy = 1)
  waiting : s.queue ≠ [] → s.scheduled = true
  closed : s.consumers = false → s.stopped = true ∧ s.queue = []

namespace Pumps

/-- The consumers are there as long as delivery has not stopped. -/
theorem consumers (h : s.Pumps) (hrunning : s.stopped = false) : s.consumers = true := by
  by_contra hgone
  obtain ⟨hstopped, -⟩ := h.closed (Bool.eq_false_iff.mpr hgone)
  rw [hrunning] at hstopped
  cases hstopped

/-- A turn goes on, and nothing comes into the queue. -/
theorem of_turn (h : s.Pumps) (hposted : t.posted = s.posted) (hbusy : t.main.busy = s.main.busy)
    (hconsumers : t.consumers = s.consumers) (hscheduled : t.scheduled = s.scheduled)
    (hstopped : t.stopped = s.stopped) (hqueue : s.queue = [] → t.queue = []) : t.Pumps := by
  constructor
  · rw [hposted, hbusy]
    exact h.single
  · rw [hconsumers, hscheduled, hposted, hbusy]
    exact h.scheduled
  · intro hne
    rw [hscheduled]
    exact h.waiting fun hnil => hne (hqueue hnil)
  · intro hgone
    rw [hconsumers] at hgone
    obtain ⟨hstop, hnil⟩ := h.closed hgone
    exact ⟨by rw [hstopped, hstop], hqueue hnil⟩

/-- `offer` posts the pump unless it is posted or running. -/
theorem of_schedule (h : s.Pumps) (hrunning : s.stopped = false)
    (hconsumers : t.consumers = s.consumers) (hmain : t.main = s.main)
    (hscheduled : t.scheduled = true)
    (hposted : t.posted = s.posted + if s.scheduled then 0 else 1) : t.Pumps := by
  have hone : t.posted + t.main.busy = 1 := by
    have hiff := h.scheduled (h.consumers hrunning)
    have hle := h.single
    rw [hposted, hmain]
    split_ifs with hs
    · exact hiff.mp hs
    · have hne : s.posted + s.main.busy ≠ 1 := by
        intro heq
        exact hs (hiff.mpr heq)
      omega
  constructor
  · exact Nat.le_of_eq hone
  · intro _
    exact ⟨fun _ => hone, fun _ => hscheduled⟩
  · intro _
    exact hscheduled
  · intro hgone
    rw [hconsumers, h.consumers hrunning] at hgone
    cases hgone

/-- `close` withdraws the pump; a running turn ends with an empty queue. -/
theorem of_close (h : s.Pumps) (hposted : t.posted = 0) (hbusy : t.main.busy = s.main.busy)
    (hconsumers : t.consumers = false) (hstopped : t.stopped = true) (hqueue : t.queue = []) :
    t.Pumps := by
  constructor
  · rw [hposted, hbusy]
    have hle := h.single
    omega
  · intro hthere
    rw [hconsumers] at hthere
    cases hthere
  · intro hne
    exact absurd hqueue hne
  · intro _
    exact ⟨hstopped, hqueue⟩

theorem move (h : s.Pumps) (hm : Move o s a t) : t.Pumps := by
  cases hm with
  | ignored _ _ => exact h
  | overflowed _ notice _ hrunning _ => exact h.of_schedule hrunning rfl rfl rfl rfl
  | accepted _ notice _ hrunning _ => exact h.of_schedule hrunning rfl rfl rfl rfl
  | run hmain hposted =>
    have hle := h.single
    have hiff := h.scheduled
    rw [hmain] at hle hiff
    have hbusy : (s.posted - 1) + 1 = s.posted + 0 := by omega
    constructor
    · show s.posted - 1 + 1 ≤ 1
      rw [hbusy]
      exact hle
    · intro hthere
      show s.scheduled = true ↔ s.posted - 1 + 1 = 1
      rw [hbusy]
      exact hiff hthere
    · exact h.waiting
    · exact h.closed
  | turnOver hmain hqueue =>
    have hle := h.single
    rw [hmain] at hle
    have hzero : s.posted = 0 := Nat.le_zero.mp (Nat.le_of_succ_le_succ hle)
    constructor
    · show s.posted + 0 ≤ 1
      omega
    · intro _
      show false = true ↔ s.posted + 0 = 1
      rw [hzero]
      exact ⟨nofun, nofun⟩
    · intro hne
      exact absurd hqueue hne
    · exact h.closed
  | turnAgain hmain hqueue =>
    have hle := h.single
    rw [hmain] at hle
    have hzero : s.posted = 0 := Nat.le_zero.mp (Nat.le_of_succ_le_succ hle)
    constructor
    · show s.posted + 1 + 0 ≤ 1
      omega
    · intro _
      show true = true ↔ s.posted + 1 + 0 = 1
      rw [hzero]
      exact ⟨fun _ => rfl, fun _ => rfl⟩
    · intro _
      rfl
    · exact h.closed
  | skipped left hmain hqueue => exact h.of_turn rfl (by rw [hmain]; rfl) rfl rfl rfl id
  | taken left notice queue hmain hqueue =>
    refine h.of_turn rfl (by rw [hmain]; rfl) rfl rfl rfl ?_
    intro hnil
    rw [hqueue] at hnil
    cases hnil
  | returned left notice hmain => exact h.of_turn rfl (by rw [hmain]; rfl) rfl rfl rfl id
  | threw left notice hmain => exact h.of_turn rfl (by rw [hmain]; rfl) rfl rfl rfl id
  | count left notice hmain => exact h.of_turn rfl (by rw [hmain]; rfl) rfl rfl rfl id
  | stopReturned left hmain => exact h.of_turn rfl (by rw [hmain]; rfl) rfl rfl rfl id
  | reported left hmain => exact h.of_turn rfl (by rw [hmain]; rfl) rfl rfl rfl id
  | closeFailed left hmain => exact h.of_close rfl (by rw [hmain]; rfl) rfl rfl rfl
  | close => exact h.of_close rfl rfl rfl rfl rfl

theorem initial : ({} : Handoff).Pumps :=
  ⟨Nat.zero_le 1, fun _ => ⟨nofun, nofun⟩, fun h => absurd rfl h, nofun⟩

end Pumps

/-! ## The size of the queue -/

structure Sizes (o : HandoffOptions) (s : Handoff) : Prop where
  bytes : s.queuedBytes = load Notice.bytes s.queue
  room : s.queuedBytes ≤ o.maxBytes
  depth : s.queue.length ≤ o.capacity

namespace Sizes

theorem of_empty (hbytes : t.queuedBytes = 0) (hqueue : t.queue = []) : Sizes o t := by
  constructor
  · rw [hbytes, hqueue]
    rfl
  · rw [hbytes]
    exact Nat.zero_le _
  · rw [hqueue]
    exact Nat.zero_le _

theorem of_eq (h : Sizes o s) (hbytes : t.queuedBytes = s.queuedBytes) (hqueue : t.queue = s.queue) :
    Sizes o t := by
  constructor
  · rw [hbytes, hqueue]
    exact h.bytes
  · rw [hbytes]
    exact h.room
  · rw [hqueue]
    exact h.depth

theorem move (h : Sizes o s) (hm : Move o s a t) : Sizes o t := by
  cases hm with
  | overflowed _ notice _ _ _ => exact ⟨rfl, Nat.zero_le _, o.capacity_pos⟩
  | accepted _ notice _ _ hfits =>
    rw [overflowing, Bool.or_eq_false_iff, decide_eq_false_iff_not, decide_eq_false_iff_not] at hfits
    obtain ⟨hdepth, hroom⟩ := hfits
    constructor
    · show s.queuedBytes + notice.bytes = load Notice.bytes (s.queue ++ [notice])
      rw [load_append, load_cons, load_nil, h.bytes, Nat.add_zero]
    · exact Nat.le_of_not_lt hroom
    · show (s.queue ++ [notice]).length ≤ o.capacity
      rw [List.length_append, List.length_singleton]
      omega
  | taken left notice queue _ hqueue =>
    have hbytes := h.bytes
    have hdepth := h.depth
    rw [hqueue, load_cons] at hbytes
    rw [hqueue, List.length_cons] at hdepth
    constructor
    · show s.queuedBytes - notice.bytes = load Notice.bytes queue
      omega
    · exact Nat.le_trans (Nat.sub_le _ _) h.room
    · exact Nat.le_of_succ_le hdepth
  | closeFailed left _ => exact of_empty rfl rfl
  | close => exact of_empty rfl rfl
  | ignored _ _ => exact h
  | run _ _ => exact h.of_eq rfl rfl
  | turnOver _ _ => exact h.of_eq rfl rfl
  | turnAgain _ _ => exact h.of_eq rfl rfl
  | skipped left _ _ => exact h.of_eq rfl rfl
  | returned left notice _ => exact h.of_eq rfl rfl
  | threw left notice _ => exact h.of_eq rfl rfl
  | count left notice _ => exact h.of_eq rfl rfl
  | stopReturned left _ => exact h.of_eq rfl rfl
  | reported left _ => exact h.of_eq rfl rfl

end Sizes

/-! ## The order of the notifications -/

/-- `taken` has been taken out of the queue, in the order of the offers;
`errors` are the handoff's own. -/
structure Ordered (s : Handoff) (taken : List Notice) (errors : List Call) : Prop where
  calls : s.calls = taken.map Notice.call ++ errors
  accepted : taken <+: s.accepted
  running : s.stopped = false → s.accepted = taken ++ s.queue
  quiet : s.stopped = false → s.main.inGap = false → errors = []
  own : ∀ c ∈ errors, c = overflowError ∨ c = failureError
  waiting : s.stopped = true → s.queue = [] ∨ s.queue = [.overflow]
  workers : ∀ notice ∈ s.accepted, notice ≠ .overflow

namespace Ordered

variable {taken : List Notice} {errors : List Call}

theorem of_eq (h : s.Ordered taken errors) (hcalls : t.calls = s.calls)
    (haccepted : t.accepted = s.accepted) (hqueue : t.queue = s.queue)
    (hstopped : t.stopped = s.stopped) (hgap : t.main.inGap = false → s.main.inGap = false) :
    t.Ordered taken errors := by
  constructor
  · rw [hcalls]
    exact h.calls
  · rw [haccepted]
    exact h.accepted
  · rw [hstopped, haccepted, hqueue]
    exact h.running
  · rw [hstopped]
    intro hrunning hcalm
    exact h.quiet hrunning (hgap hcalm)
  · exact h.own
  · rw [hstopped, hqueue]
    exact h.waiting
  · rw [haccepted]
    exact h.workers

/-- Delivery stops. -/
theorem of_stop (h : s.Ordered taken errors) (hcalls : t.calls = s.calls)
    (haccepted : t.accepted = s.accepted) (hstopped : t.stopped = true)
    (hqueue : t.queue = [] ∨ t.queue = [.overflow]) : t.Ordered taken errors := by
  have hnever : t.stopped ≠ false := by
    rw [hstopped]
    decide
  constructor
  · rw [hcalls]
    exact h.calls
  · rw [haccepted]
    exact h.accepted
  · intro hrunning
    exact absurd hrunning hnever
  · intro hrunning
    exact absurd hrunning hnever
  · exact h.own
  · intro _
    exact hqueue
  · rw [haccepted]
    exact h.workers

/-- The handoff reports an error of its own. -/
theorem of_error (h : s.Ordered taken errors) {call : Call} {b : Bool}
    (hown : call = overflowError ∨ call = failureError)
    (hcalls : t.calls = s.calls ++ if b then [call] else [])
    (haccepted : t.accepted = s.accepted)
    (hrunning : t.stopped = false → t.accepted = taken ++ t.queue)
    (hgap : t.stopped = true ∨ t.main.inGap = true)
    (hwaiting : t.stopped = true → t.queue = [] ∨ t.queue = [.overflow]) :
    t.Ordered taken (errors ++ if b then [call] else []) := by
  constructor
  · rw [hcalls, h.calls, List.append_assoc]
  · rw [haccepted]
    exact h.accepted
  · exact hrunning
  · intro hrun hcalm
    rw [hrun, hcalm] at hgap
    rcases hgap with hgap | hgap <;> cases hgap
  · intro c hc
    rcases List.mem_append.mp hc with hc | hc
    · exact h.own c hc
    · split_ifs at hc
      · rw [List.mem_singleton.mp hc]
        exact hown
      · cases hc
  · exact hwaiting
  · rw [haccepted]
    exact h.workers

/-- The pump takes a notice from the head of the queue. -/
theorem of_taken (h : s.Ordered taken errors) (hp : s.Pumps) {left : Nat} {notice : Notice}
    {queue : List Notice} (hmain : s.main = .pumping (left + 1))
    (hqueue : s.queue = notice :: queue) (hcalls : t.calls = s.calls ++
      if s.consumers then [notice.call] else [])
    (haccepted : t.accepted = s.accepted) (hrest : t.queue = queue)
    (hstopped : t.stopped = s.stopped) : ∃ taken' errors', t.Ordered taken' errors' := by
  cases hstop : s.stopped with
  | false =>
    have hquiet : errors = [] := h.quiet hstop (by rw [hmain]; rfl)
    have haccept : t.accepted = taken ++ [notice] ++ queue := by
      rw [haccepted, h.running hstop, hqueue, List.append_assoc]
      rfl
    refine ⟨taken ++ [notice], [], ?_, ?_, ?_, ?_, ?_, ?_, ?_⟩
    · rw [hcalls, h.calls, hquiet, if_pos (hp.consumers hstop), List.append_nil, List.append_nil,
        List.map_append]
      rfl
    · rw [haccept]
      exact List.prefix_append _ _
    · intro _
      rw [haccept, hrest]
    · intro _ _
      rfl
    · intro c hc
      cases hc
    · rw [hstopped, hstop]
      exact nofun
    · rw [haccepted]
      exact h.workers
  | true =>
    -- after a stop only the overflow notice can be in the queue
    have hlast : notice = .overflow ∧ queue = [] := by
      rcases h.waiting hstop with hw | hw
      · rw [hqueue] at hw
        cases hw
      · rw [hqueue] at hw
        exact ⟨(List.cons.inj hw).1, (List.cons.inj hw).2⟩
    refine ⟨taken, _, h.of_error (Or.inl (by rw [hlast.1]; rfl)) hcalls haccepted ?_ ?_ ?_⟩
    · rw [hstopped, hstop]
      exact nofun
    · exact Or.inl (by rw [hstopped, hstop])
    · intro _
      exact Or.inl (by rw [hrest, hlast.2])

theorem move (h : s.Ordered taken errors) (hp : s.Pumps) (hm : Move o s a t) :
    ∃ taken' errors', t.Ordered taken' errors' := by
  cases hm with
  | ignored _ _ => exact ⟨taken, errors, h⟩
  | overflowed _ notice _ _ _ => exact ⟨taken, errors, h.of_stop rfl rfl rfl (Or.inr rfl)⟩
  | accepted _ notice hoffer hrunning _ =>
    refine ⟨taken, errors, h.calls, ?_, ?_, h.quiet, h.own, ?_, ?_⟩
    · exact h.accepted.trans (List.prefix_append _ _)
    · intro _
      show s.accepted ++ [notice] = taken ++ (s.queue ++ [notice])
      rw [h.running hrunning, List.append_assoc]
    · intro hstopped
      rw [show s.stopped = true from hstopped] at hrunning
      cases hrunning
    · intro n hn
      rcases List.mem_append.mp hn with hn | hn
      · exact h.workers n hn
      · rw [List.mem_singleton.mp hn]
        exact worker_of_offered hoffer
  | taken left notice queue hmain hqueue => exact h.of_taken hp hmain hqueue rfl rfl rfl rfl
  | stopReturned left hmain =>
    exact ⟨taken, _, h.of_error (Or.inr rfl) rfl rfl h.running (Or.inr rfl) h.waiting⟩
  | closeFailed left _ => exact ⟨taken, errors, h.of_stop rfl rfl rfl (Or.inl rfl)⟩
  | close => exact ⟨taken, errors, h.of_stop rfl rfl rfl (Or.inl rfl)⟩
  | run hmain _ => exact ⟨taken, errors, h.of_eq rfl rfl rfl rfl fun _ => by rw [hmain]; rfl⟩
  | turnOver hmain _ => exact ⟨taken, errors, h.of_eq rfl rfl rfl rfl fun _ => by rw [hmain]; rfl⟩
  | turnAgain hmain _ => exact ⟨taken, errors, h.of_eq rfl rfl rfl rfl fun _ => by rw [hmain]; rfl⟩
  | skipped left hmain _ =>
    exact ⟨taken, errors, h.of_eq rfl rfl rfl rfl fun _ => by rw [hmain]; rfl⟩
  | returned left notice hmain =>
    exact ⟨taken, errors, h.of_eq rfl rfl rfl rfl fun _ => by rw [hmain]; rfl⟩
  | threw left notice hmain =>
    exact ⟨taken, errors, h.of_eq rfl rfl rfl rfl fun _ => by rw [hmain]; rfl⟩
  | count left notice _ => exact ⟨taken, errors, h.of_eq rfl rfl rfl rfl nofun⟩
  | reported left _ => exact ⟨taken, errors, h.of_eq rfl rfl rfl rfl nofun⟩

theorem initial : ({} : Handoff).Ordered [] [] :=
  ⟨rfl, List.nil_prefix, fun _ => rfl, fun _ _ => rfl, nofun, nofun, nofun⟩

end Ordered

/-! ## The overflow error -/

/-- The overflow error is waiting or has been reported, last of all. -/
def OverflowLast (s : Handoff) : Prop :=
  s.queue = [.overflow] ∧ overflowError ∉ s.calls ∨
    s.queue = [] ∧ ∃ before, s.calls = before ++ [overflowError] ∧ overflowError ∉ before

/-- No consumer has thrown. -/
structure Calm (s : Handoff) : Prop where
  calm : s.main.calm = true
  closed : s.consumers = false → s.ownerClosed = true
  terminal : s.ownerClosed = false →
    s.overflows = 0 ∧ s.stopped = false ∨ s.overflows = 1 ∧ s.stopped = true ∧ s.OverflowLast

namespace Calm

theorem of_eq (h : s.Calm) (hcalm : t.main.calm = true) (hconsumers : t.consumers = s.consumers)
    (howner : t.ownerClosed = s.ownerClosed) (hoverflows : t.overflows = s.overflows)
    (hstopped : t.stopped = s.stopped) (hqueue : t.queue = s.queue) (hcalls : t.calls = s.calls) :
    t.Calm := by
  constructor
  · exact hcalm
  · rw [hconsumers, howner]
    exact h.closed
  · rw [howner, hoverflows, hstopped, OverflowLast, hqueue, hcalls]
    exact h.terminal

theorem inGap (h : s.Calm) : s.main.inGap = false := by
  have hcalm := h.calm
  cases hmain : s.main <;> rw [hmain] at hcalm <;> first | rfl | cases hcalm

/-- Before the first overflow no overflow error has been reported. -/
theorem unreported (h : s.Calm) {taken : List Notice} {errors : List Call}
    (ho : s.Ordered taken errors) (hrunning : s.stopped = false) : overflowError ∉ s.calls := by
  rw [ho.calls, ho.quiet hrunning h.inGap, List.append_nil]
  intro hmem
  obtain ⟨notice, hnotice, hcall⟩ := List.mem_map.mp hmem
  have hworker := ho.workers notice (ho.accepted.subset hnotice)
  cases notice with
  | event json => cases hcall
  | state kind detail => cases hcall
  | overflow => exact hworker rfl

theorem of_taken (h : s.Calm) (hp : s.Pumps) {left : Nat} {notice : Notice} {queue : List Notice}
    (hqueue : s.queue = notice :: queue) :
    Calm { s with
      queue := queue
      queuedBytes := s.queuedBytes - notice.bytes
      main := .delivering left notice
      calls := s.calls ++ if s.consumers then [notice.call] else [] } := by
  constructor
  · rfl
  · exact h.closed
  · intro howner
    rcases h.terminal howner with ⟨hzero, hrunning⟩ | ⟨hone, hstopped, hlast⟩
    · exact Or.inl ⟨hzero, hrunning⟩
    · have hthere : s.consumers = true := by
        by_contra hgone
        have hnil := (hp.closed (Bool.eq_false_iff.mpr hgone)).2
        rw [hqueue] at hnil
        cases hnil
      refine Or.inr ⟨hone, hstopped, Or.inr ?_⟩
      rcases hlast with ⟨hq, hnone⟩ | ⟨hq, -⟩
      · rw [hqueue] at hq
        obtain ⟨rfl, rfl⟩ := List.cons.inj hq
        refine ⟨rfl, s.calls, ?_, hnone⟩
        show s.calls ++ (if s.consumers then [overflowError] else []) = s.calls ++ [overflowError]
        rw [if_pos hthere]
      · rw [hqueue] at hq
        cases hq

theorem move (h : s.Calm) (hp : s.Pumps) {taken : List Notice} {errors : List Call}
    (ho : s.Ordered taken errors) (hm : Move o s a t) (hthrew : t.threw = false) : t.Calm := by
  have hcalm := h.calm
  cases hm with
  | ignored _ _ => exact h
  | overflowed _ notice _ hrunning _ =>
    refine ⟨h.calm, h.closed, ?_⟩
    intro howner
    rcases h.terminal howner with ⟨hzero, -⟩ | ⟨-, hstopped, -⟩
    · refine Or.inr ⟨?_, rfl, Or.inl ⟨rfl, h.unreported ho hrunning⟩⟩
      show s.overflows + 1 = 1
      rw [hzero]
    · rw [hrunning] at hstopped
      cases hstopped
  | accepted _ notice _ hrunning _ =>
    refine ⟨h.calm, h.closed, ?_⟩
    intro howner
    rcases h.terminal howner with hzero | ⟨-, hstopped, -⟩
    · exact Or.inl hzero
    · rw [hrunning] at hstopped
      cases hstopped
  | taken left notice queue _ hqueue => exact h.of_taken hp hqueue
  | close =>
    refine ⟨h.calm, fun _ => rfl, ?_⟩
    intro howner
    cases howner
  | threw left notice _ => cases hthrew
  | run _ _ => exact h.of_eq rfl rfl rfl rfl rfl rfl rfl
  | turnOver _ _ => exact h.of_eq rfl rfl rfl rfl rfl rfl rfl
  | turnAgain _ _ => exact h.of_eq rfl rfl rfl rfl rfl rfl rfl
  | skipped left _ _ => exact h.of_eq rfl rfl rfl rfl rfl rfl rfl
  | returned left notice _ => exact h.of_eq rfl rfl rfl rfl rfl rfl rfl
  | count left notice hmain => rw [hmain] at hcalm; cases hcalm
  | stopReturned left hmain => rw [hmain] at hcalm; cases hcalm
  | reported left hmain => rw [hmain] at hcalm; cases hcalm
  | closeFailed left hmain => rw [hmain] at hcalm; cases hcalm

end Calm

/-- A consumer that has thrown stays on the record. -/
theorem threw_of_move (hm : Move o s a t) (hthrew : t.threw = false) : s.threw = false := by
  cases hm with
  | threw left notice _ => cases hthrew
  | _ => exact hthrew

/-! ## The account of the events -/

/-- In the gap of the failure branch no event gets into the queue, and no
offer overflows it while events are in it. -/
def inTime (o : HandoffOptions) (s : Handoff) (a : HandoffAction) : Bool :=
  match a.offered with
  | none => true
  | some notice =>
      !s.main.inGap || s.stopped ||
        if s.overflowing o notice then load Notice.events s.queue == 0 else notice.events == 0

/-- Every event is handed over, in a consumer, counted or queued; the ones
in the queue that are counted already are `writtenOff`. -/
structure Accounts (s : Handoff) : Prop where
  account : s.offeredEvents + s.writtenOff =
    s.handedEvents + s.main.inHand + s.discardedEvents + load Notice.events s.queue
  gap : s.main.inGap = true → s.writtenOff = load Notice.events s.queue
  settled : s.main.inGap = false → s.writtenOff = 0

namespace Accounts

/-- A turn goes on. -/
theorem of_turn (h : s.Accounts) (hoffered : t.offeredEvents = s.offeredEvents)
    (hwritten : t.writtenOff = s.writtenOff)
    (hhanded : t.handedEvents + t.main.inHand = s.handedEvents + s.main.inHand)
    (hdiscarded : t.discardedEvents = s.discardedEvents) (hqueue : t.queue = s.queue)
    (hgap : t.main.inGap = s.main.inGap) : t.Accounts := by
  constructor
  · rw [hoffered, hwritten, hhanded, hdiscarded, hqueue]
    exact h.account
  · rw [hgap, hwritten, hqueue]
    exact h.gap
  · rw [hgap, hwritten]
    exact h.settled

theorem accepted (h : s.Accounts) (hoffer : a.offered = some notice) (hrunning : s.stopped = false)
    (hfits : s.overflowing o notice = false) (hin : s.inTime o a = true)
    (hoffered : t.offeredEvents = s.offeredEvents + notice.events)
    (hwritten : t.writtenOff = s.writtenOff) (hhanded : t.handedEvents = s.handedEvents)
    (hmain : t.main = s.main) (hdiscarded : t.discardedEvents = s.discardedEvents)
    (hqueue : t.queue = s.queue ++ [notice]) : t.Accounts := by
  have hload : load Notice.events t.queue = load Notice.events s.queue + notice.events := by
    rw [hqueue, load_append, load_cons, load_nil, Nat.add_zero]
  have haccount := h.account
  constructor
  · rw [hoffered, hwritten, hhanded, hmain, hdiscarded, hload]
    omega
  · rw [hmain, hwritten, hload]
    intro hgap
    have hnone : notice.events = 0 := by
      simpa [inTime, hoffer, hgap, hrunning, hfits] using hin
    rw [hnone, h.gap hgap, Nat.add_zero]
  · rw [hmain, hwritten]
    exact h.settled

theorem overflowed (h : s.Accounts) (hoffer : a.offered = some notice)
    (hrunning : s.stopped = false) (hover : s.overflowing o notice = true)
    (hin : s.inTime o a = true) (hoffered : t.offeredEvents = s.offeredEvents + notice.events)
    (hwritten : t.writtenOff = s.writtenOff) (hhanded : t.handedEvents = s.handedEvents)
    (hmain : t.main = s.main)
    (hdiscarded : t.discardedEvents =
      s.discardedEvents + (load Notice.events s.queue + notice.events))
    (hqueue : t.queue = [.overflow]) : t.Accounts := by
  have hload : load Notice.events t.queue = 0 := by
    rw [hqueue]
    rfl
  have haccount := h.account
  constructor
  · rw [hoffered, hwritten, hhanded, hmain, hdiscarded, hload]
    omega
  · rw [hmain, hwritten, hload]
    intro hgap
    have hnone : load Notice.events s.queue = 0 := by
      simpa [inTime, hoffer, hgap, hrunning, hover] using hin
    rw [h.gap hgap, hnone]
  · rw [hmain, hwritten]
    exact h.settled

theorem move (h : s.Accounts) (hm : Move o s a t) (hin : s.inTime o a = true)
    (howner : t.ownerClosed = false) : t.Accounts := by
  have haccount := h.account
  have hgap := h.gap
  have hsettled := h.settled
  cases hm with
  | ignored _ _ => exact h
  | overflowed _ notice hoffer hrunning hover =>
    exact h.overflowed hoffer hrunning hover hin rfl rfl rfl rfl rfl rfl
  | accepted _ notice hoffer hrunning hfits =>
    exact h.accepted hoffer hrunning hfits hin rfl rfl rfl rfl rfl rfl
  | taken left notice queue hmain hqueue =>
    rw [hmain, hqueue] at haccount
    rw [hmain] at hsettled
    constructor
    · show s.offeredEvents + s.writtenOff =
        s.handedEvents + notice.events + s.discardedEvents + load Notice.events queue
      rw [haccount, load_cons]
      show s.handedEvents + 0 + s.discardedEvents + _ = _
      omega
    · exact nofun
    · exact hsettled
  | returned left notice hmain =>
    exact h.of_turn rfl rfl (by rw [hmain]; rfl) rfl rfl (by rw [hmain]; rfl)
  | count left notice hmain =>
    rw [hmain] at haccount
    have hzero : s.writtenOff = 0 := hsettled (by rw [hmain]; rfl)
    constructor
    · show s.offeredEvents + load Notice.events s.queue = s.handedEvents + 0 +
        (s.discardedEvents + load Notice.events s.queue + notice.events) +
          load Notice.events s.queue
      have hcounted : s.offeredEvents + s.writtenOff =
        s.handedEvents + notice.events + s.discardedEvents + load Notice.events s.queue := haccount
      omega
    · intro _
      rfl
    · exact nofun
  | closeFailed left hmain =>
    rw [hmain] at haccount hgap
    have hcleared : s.writtenOff = load Notice.events s.queue := hgap rfl
    constructor
    · show s.offeredEvents + 0 = s.handedEvents + 0 + s.discardedEvents + 0
      have hcounted : s.offeredEvents + s.writtenOff =
        s.handedEvents + 0 + s.discardedEvents + load Notice.events s.queue := haccount
      omega
    · exact nofun
    · intro _
      rfl
  | close => cases howner
  | run hmain _ => exact h.of_turn rfl rfl (by rw [hmain]; rfl) rfl rfl (by rw [hmain]; rfl)
  | turnOver hmain _ => exact h.of_turn rfl rfl (by rw [hmain]; rfl) rfl rfl (by rw [hmain]; rfl)
  | turnAgain hmain _ => exact h.of_turn rfl rfl (by rw [hmain]; rfl) rfl rfl (by rw [hmain]; rfl)
  | skipped left hmain _ =>
    exact h.of_turn rfl rfl (by rw [hmain]; rfl) rfl rfl (by rw [hmain]; rfl)
  | threw left notice hmain =>
    exact h.of_turn rfl rfl (by rw [hmain]; rfl) rfl rfl (by rw [hmain]; rfl)
  | stopReturned left hmain =>
    exact h.of_turn rfl rfl (by rw [hmain]; rfl) rfl rfl (by rw [hmain]; rfl)
  | reported left hmain =>
    exact h.of_turn rfl rfl (by rw [hmain]; rfl) rfl rfl (by rw [hmain]; rfl)

end Accounts

/-- An owner that has closed stays on the record. -/
theorem ownerClosed_of_move (hm : Move o s a t) (howner : t.ownerClosed = false) :
    s.ownerClosed = false := by
  cases hm with
  | close => cases howner
  | _ => exact howner

/-! ## Runs -/

theorem stopped_of_move (hm : Move o s a t) (hstopped : s.stopped = true) :
    t.stopped = true ∧ t.accepted = s.accepted := by
  cases hm with
  | overflowed _ notice _ _ _ => exact ⟨rfl, rfl⟩
  | accepted _ notice _ hrunning _ =>
    rw [hrunning] at hstopped
    cases hstopped
  | closeFailed left _ => exact ⟨rfl, rfl⟩
  | close => exact ⟨rfl, rfl⟩
  | _ => exact ⟨hstopped, rfl⟩

/-- Nothing is taken into the queue once delivery has stopped. -/
theorem stopped_of_run (hstopped : s.stopped = true) {as : List HandoffAction}
    (hrun : Lts.run (Handoff.step o) s as = some t) :
    t.stopped = true ∧ t.accepted = s.accepted := by
  refine Lts.run_invariant_all (I := fun t => t.stopped = true ∧ t.accepted = s.accepted)
    ?_ ⟨hstopped, rfl⟩ hrun
  intro s₁ a s₂ h hs
  obtain ⟨hstop, haccepted⟩ := stopped_of_move (Move.of_step hs) h.1
  exact ⟨hstop, haccepted.trans h.2⟩

/-- What holds in every run, whatever the offers. -/
structure Sound (o : HandoffOptions) (s : Handoff) : Prop where
  pumps : s.Pumps
  sizes : Sizes o s
  ordered : ∃ taken errors, s.Ordered taken errors
  overflow : 0 < s.overflows → s.stopped = true
  calm : s.threw = false → s.Calm

namespace Sound

theorem move (h : Sound o s) (hm : Move o s a t) : Sound o t := by
  obtain ⟨taken, errors, ho⟩ := h.ordered
  constructor
  · exact h.pumps.move hm
  · exact h.sizes.move hm
  · exact ho.move h.pumps hm
  · cases hm with
    | overflowed _ notice _ _ _ => exact fun _ => rfl
    | closeFailed left _ => exact fun _ => rfl
    | close => exact fun _ => rfl
    | _ => exact h.overflow
  · intro hthrew
    exact (h.calm (threw_of_move hm hthrew)).move h.pumps ho hm hthrew

theorem initial (o : HandoffOptions) : Sound o {} := by
  constructor
  · exact Pumps.initial
  · exact Sizes.of_empty rfl rfl
  · exact ⟨[], [], Ordered.initial⟩
  · exact nofun
  · intro _
    exact ⟨rfl, nofun, fun _ => Or.inl ⟨rfl, rfl⟩⟩

end Sound

/-- The laws of the handoff, in the order of its parts: the pump, the queue,
the order of the notifications, the overflow error, the account. -/
structure Laws (o : HandoffOptions) (s : Handoff) : Prop where
  single : s.posted + s.main.busy ≤ 1
  waiting : s.queue ≠ [] → s.posted + s.main.busy = 1
  bytes : s.queuedBytes = load Notice.bytes s.queue
  room : s.queuedBytes ≤ o.maxBytes
  depth : s.queue.length ≤ o.capacity
  order : ∃ taken errors, taken <+: s.accepted ∧ s.calls = taken.map Notice.call ++ errors ∧
    ∀ c ∈ errors, c = overflowError ∨ c = failureError
  stops : 0 < s.overflows ∨ s.consumers = false → s.stopped = true
  refuses : s.stopped = true → ∀ as t, Lts.run (Handoff.step o) s as = some t →
    t.accepted = s.accepted
  terminal : s.threw = false → s.ownerClosed = false → 0 < s.overflows →
    s.overflows = 1 ∧ s.OverflowLast
  account : s.ownerClosed = false → s.offeredEvents + s.writtenOff =
    s.handedEvents + s.main.inHand + s.discardedEvents + load Notice.events s.queue
  writtenOff : s.ownerClosed = false →
    s.writtenOff = if s.main.inGap then load Notice.events s.queue else 0

theorem Laws.of_sound (h : Sound o s) (haccounts : s.ownerClosed = false → s.Accounts) :
    Laws o s := by
  obtain ⟨taken, errors, ho⟩ := h.ordered
  constructor
  · exact h.pumps.single
  · intro hne
    have hthere : s.consumers = true := by
      by_contra hgone
      exact hne (h.pumps.closed (Bool.eq_false_iff.mpr hgone)).2
    exact (h.pumps.scheduled hthere).mp (h.pumps.waiting hne)
  · exact h.sizes.bytes
  · exact h.sizes.room
  · exact h.sizes.depth
  · exact ⟨taken, errors, ho.accepted, ho.calls, ho.own⟩
  · rintro (hover | hgone)
    · exact h.overflow hover
    · exact (h.pumps.closed hgone).1
  · intro hstopped as t hrun
    exact (stopped_of_run hstopped hrun).2
  · intro hthrew howner hover
    rcases (h.calm hthrew).terminal howner with ⟨hzero, -⟩ | ⟨hone, -, hlast⟩
    · rw [hzero] at hover
      cases hover
    · exact ⟨hone, hlast⟩
  · intro howner
    exact (haccounts howner).account
  · intro howner
    split_ifs with hgap
    · exact (haccounts howner).gap hgap
    · exact (haccounts howner).settled (Bool.eq_false_iff.mpr hgap)

/-- The laws hold in every run whose offers in the gap of the failure branch
are `inTime`. -/
theorem handoff_laws_hold (o : HandoffOptions) (as : List HandoffAction) (s : Handoff)
    (hin : Lts.AllMeet (Handoff.step o) (fun s a => s.inTime o a = true) {} as)
    (hrun : Lts.run (Handoff.step o) {} as = some s) : Laws o s := by
  have hboth : Sound o s ∧ (s.ownerClosed = false → s.Accounts) := by
    refine Lts.run_invariant
      (I := fun s => Sound o s ∧ (s.ownerClosed = false → s.Accounts)) ?_ ?_ hin hrun
    · intro s₁ a s₂ ⟨hsound, haccounts⟩ htime hs
      have hm := Move.of_step hs
      refine ⟨hsound.move hm, ?_⟩
      intro howner
      exact (haccounts (ownerClosed_of_move hm howner)).move hm htime howner
    · exact ⟨Sound.initial o, fun _ => ⟨rfl, nofun, fun _ => rfl⟩⟩
  exact Laws.of_sound hboth.1 hboth.2

theorem handoff_laws_hold_after_failure :
    ∃ s, Lts.run (Handoff.step HandoffOptions.standard) {}
        [.event "a", .event "b", .event "c", .run, .next, .returned, .next, .threw, .event "d",
          .count, .stopReturned, .reported, .closeFailed, .next] = some s ∧
      (s.handedEvents = 1 ∧ s.discardedEvents = 3) ∧ Laws HandoffOptions.standard s := by
  refine Lts.exists_run (P := fun s => s.handedEvents = 1 ∧ s.discardedEvents = 3) (by decide) ?_
  intro s hrun hcounts
  exact ⟨hcounts, handoff_laws_hold HandoffOptions.standard _ s (by decide) hrun⟩

/-- The second event gets into the queue after the failure branch has
counted it: `close` drops it, and no counter has it. -/
theorem event_in_gap_lost :
    ∃ s, Lts.run (Handoff.step HandoffOptions.standard) {}
        [.event "a", .run, .next, .threw, .count, .event "b", .stopReturned, .reported,
          .closeFailed] = some s ∧ ¬Laws HandoffOptions.standard s := by
  refine Lts.exists_run (P := fun s => s.ownerClosed = false ∧
    ¬s.offeredEvents + s.writtenOff =
      s.handedEvents + s.main.inHand + s.discardedEvents + load Notice.events s.queue)
    (by decide) ?_
  intro s _ ⟨howner, hlost⟩ hlaws
  exact hlost (hlaws.account howner)

end Handoff

end TiktokSigner.Android
