import TiktokSigner.LiveCore.Run

/-!
# The trace law of the LIVE loop

`Emits` says once what a step adds to the trace and where it leads; the
clauses of `TraceLaw` are kept by every emission (`Kept.step`) and so hold
of every run (`run_trace_law`).

The point that needs the invariant is the retry decision. The flag of an
error is computed from `failures < max_retries` while opening and from
`max_retries > 0` on an open socket, the decision from `failures >=
max_retries`; they agree because an open socket has reset the counter.
-/

namespace TiktokSigner.LiveCore

open LiveWs Trace

section

variable {β ε : Type}

/-! ## What a step emits -/

/-- The events that report a lost attempt (while opening) or a lost socket. -/
inductive Lost (pc : Pc) (retryable : Bool) : List (Event β) → Prop
  | attempt {error : LiveError} (hpc : pc = .opening)
      (herror : error = .socket ∨ error = .timeout ∨ ∃ status, error = .socketStatus status) :
      Lost pc retryable [.onError error retryable]
  | socket (hpc : pc = .connected) : Lost pc retryable [.nextMessage, .onError .socket retryable]
  | ended (hpc : pc = .connected) : Lost pc retryable [.nextMessage]

/-- Events, next point, failure count and number of URLs of one step. -/
inductive Emits (maxRetries : UInt32) (directUrl : Nat → String) (s : RunState β) :
    List (Event β) → Pc → UInt32 → Nat → Prop
  | cancel (hpc : s.pc = .top ∨ s.pc = .signing ∨ s.pc = .opening ∨ s.pc = .backoff) :
      Emits maxRetries directUrl s [.cancelled, .onState .disconnected "stream stopped"] .done
        s.failures s.urls
  | attempt {state : LiveState} (hpc : s.pc = .top) (hstate : state ≠ .connected)
      (hstate' : state ≠ .disconnected) :
      Emits maxRetries directUrl s
        [.onState state "opening LIVE stream", .sign s.urls (directUrl s.urls)] .signing
        s.failures (s.urls + 1)
  | openUri (url : String) (hpc : s.pc = .signing) :
      Emits maxRetries directUrl s [.openUri url] .opening s.failures s.urls
  | fatal {error : LiveError} (detail : String) (hpc : s.pc = .signing ∨ s.pc = .opening)
      (herror : error = .signer ∨ ∃ status, error = .auth status) :
      Emits maxRetries directUrl s [.onError error false, .onState .error detail,
        .onState .disconnected "stream stopped"] .done s.failures s.urls
  | connect (hpc : s.pc = .opening) :
      Emits maxRetries directUrl s [.onState .connected "LIVE stream open"] .connected 0 s.urls
  | retry {pre : List (Event β)} (hlost : Lost s.pc true pre)
      (hbudget : s.failures < maxRetries) :
      Emits maxRetries directUrl s (pre ++ [.onState .reconnecting "waiting to retry"]) .backoff
        (s.failures + 1) s.urls
  | exhausted {pre : List (Event β)} (hlost : Lost s.pc false pre) :
      Emits maxRetries directUrl s (pre ++ [.onState .error "reconnect budget exhausted",
        .onState .disconnected "stream stopped"]) .done s.failures s.urls
  | disconnect (hpc : s.pc = .connected) :
      Emits maxRetries directUrl s
        [.cancelled, .close, .onState .disconnected "disconnect requested"] .done s.failures s.urls
  | batch (batch : β) {ack : List (Event β)} (hpc : s.pc = .connected)
      (hack : ack = [.nextMessage] ∨ ack = [.nextMessage, .onAckDuration]) :
      Emits maxRetries directUrl s (ack ++ [.onDecodeDuration, .onBatch batch]) .connected
        s.failures s.urls
  | undecodable {ack : List (Event β)} (hpc : s.pc = .connected)
      (hack : ack = [.nextMessage] ∨ ack = [.nextMessage, .onAckDuration]) :
      Emits maxRetries directUrl s (ack ++ [.onDecodeDuration, .onError .decode false]) .connected
        s.failures s.urls
  | elapsed (hpc : s.pc = .backoff) :
      Emits maxRetries directUrl s [] .top s.failures s.urls

/-- The trace of `s'` extends that of `s` by one emission. -/
def Extends (maxRetries : UInt32) (directUrl : Nat → String) (s s' : RunState β) : Prop :=
  ∃ es, s'.trace = s.trace ++ es ∧ Emits maxRetries directUrl s es s'.pc s'.failures s'.urls

variable {maxRetries : UInt32} {directUrl : Nat → String} {s s' : RunState β}

/-- A lost attempt or socket: its flag agrees with the decision. -/
theorem retry_extends {retryable : Bool} {pre : List (Event β)} (hlost : Lost s.pc retryable pre)
    (hflag : retryable = true ↔ s.failures < maxRetries) :
    Extends maxRetries directUrl s ((s.emit pre).retry maxRetries) := by
  rw [RunState.retry]
  split
  · rename_i hle
    have hfalse : retryable = false := by
      cases retryable with
      | false => rfl
      | true => exact absurd (hflag.mp rfl) (UInt32.not_lt.mpr hle)
    subst hfalse
    refine ⟨_, ?_, .exhausted hlost⟩
    simp only [RunState.stop, RunState.emit, List.append_assoc, List.cons_append, List.nil_append]
  · rename_i hle
    have hlt : s.failures < maxRetries := UInt32.not_le.mp hle
    have htrue : retryable = true := hflag.mpr hlt
    subst htrue
    exact ⟨_, List.append_assoc .., .retry hlost hlt⟩

theorem fatal_extends {error : LiveError} (detail : String)
    (hpc : s.pc = .signing ∨ s.pc = .opening)
    (herror : error = .signer ∨ ∃ status, error = .auth status) :
    Extends maxRetries directUrl s (s.emit [.onError error false, .onState .error detail]).stop :=
  ⟨_, List.append_assoc .., .fatal detail hpc herror⟩

theorem openFailed_extends (hpc : s.pc = .opening) (error : WsError) :
    Extends maxRetries directUrl s (openFailed maxRetries s error) := by
  have hlost : ∀ e : LiveError, (e = .socket ∨ e = .timeout ∨ ∃ status, e = .socketStatus status) →
      Extends maxRetries directUrl s
        ((s.emit [.onError e (s.failures < maxRetries)]).retry maxRetries) := fun e he =>
    retry_extends (.attempt hpc he) (by simp)
  cases error with
  | blocked200 => exact fatal_extends _ (.inr hpc) (.inr ⟨_, rfl⟩)
  | emptyCookies => exact fatal_extends _ (.inr hpc) (.inr ⟨_, rfl⟩)
  | httpStatus status =>
      rw [openFailed]
      split
      · exact fatal_extends _ (.inr hpc) (.inr ⟨_, rfl⟩)
      · exact hlost _ (.inr (.inr ⟨status, rfl⟩))
  | _ => exact hlost _ (.inl rfl)

theorem deliver_extends (decodeBatch : Bytes → Except ε β) (hpc : s.pc = .connected)
    (ackSent : Bool) (payload : Bytes) :
    Extends maxRetries directUrl s (deliver decodeBatch s ackSent payload) := by
  have hack : ∀ b : Bool, (if b then [.nextMessage, .onAckDuration] else [.nextMessage])
      = ([.nextMessage] : List (Event β))
      ∨ (if b then [.nextMessage, .onAckDuration] else [.nextMessage])
        = ([.nextMessage, .onAckDuration] : List (Event β)) := by
    intro b
    cases b <;> simp
  rw [deliver]
  cases decodeBatch payload with
  | ok batch => exact ⟨_, List.append_assoc .., hpc ▸ .batch batch hpc (hack ackSent)⟩
  | error _ => exact ⟨_, List.append_assoc .., hpc ▸ .undecodable hpc (hack ackSent)⟩

theorem cancel_extends
    (hpc : s.pc = .top ∨ s.pc = .signing ∨ s.pc = .opening ∨ s.pc = .backoff) :
    Extends maxRetries directUrl s (s.emit [.cancelled]).stop :=
  ⟨_, List.append_assoc .., .cancel hpc⟩

/-- What one step can do. An open socket has no failures counted. -/
theorem step_extends {decodeBatch : Bytes → Except ε β} {input : Input}
    (hconn : s.pc = .connected → s.failures = 0)
    (h : step maxRetries directUrl decodeBatch s input = some s') :
    Extends maxRetries directUrl s s' := by
  cases hpc : s.pc with
  | top =>
      cases input <;> simp only [step, hpc, Option.some.injEq, reduceCtorEq] at h <;> subst h
      case cancelled => exact cancel_extends (.inl hpc)
      case proceed =>
        refine ⟨_, rfl, .attempt hpc ?_ ?_⟩ <;> split <;> exact LiveState.noConfusion
  | signing =>
      cases input <;> simp only [step, hpc, Option.some.injEq, reduceCtorEq] at h <;> subst h
      case cancelled => exact cancel_extends (.inr (.inl hpc))
      case signed url => exact ⟨_, rfl, .openUri url hpc⟩
      case signError => exact fatal_extends _ (.inl hpc) (.inl rfl)
      case signTimeout => exact fatal_extends _ (.inl hpc) (.inl rfl)
  | opening =>
      cases input <;> simp only [step, hpc, Option.some.injEq, reduceCtorEq] at h <;> subst h
      case cancelled => exact cancel_extends (.inr (.inr (.inl hpc)))
      case opened => exact ⟨_, rfl, .connect hpc⟩
      case openError error => exact openFailed_extends hpc error
      case openTimeout => exact retry_extends (.attempt hpc (.inr (.inl rfl))) (by simp)
  | connected =>
      have hzero := hconn hpc
      cases input <;> simp only [step, hpc, Option.some.injEq, reduceCtorEq] at h <;> subst h
      case cancelled => exact ⟨_, rfl, .disconnect hpc⟩
      case message ackSent payload => exact deliver_extends decodeBatch hpc ackSent payload
      case messageError error => exact retry_extends (.socket hpc) (by simp [hzero])
      case ended =>
        by_cases hbudget : s.failures < maxRetries
        · exact retry_extends (show Lost s.pc true _ from .ended hpc) (by simp [hbudget])
        · exact retry_extends (show Lost s.pc false _ from .ended hpc) (by simp [hbudget])
  | backoff =>
      cases input <;> simp only [step, hpc, Option.some.injEq, reduceCtorEq] at h <;> subst h
      case cancelled => exact cancel_extends (.inr (.inr (.inr hpc)))
      case elapsed => exact ⟨[], (List.append_nil _).symm, .elapsed hpc⟩
  | done => cases input <;> simp only [step, hpc, reduceCtorEq] at h

/-! ## The clauses -/

def Event.isConnected : Event β → Bool
  | .onState .connected _ => true
  | _ => false

def Event.isDisconnected : Event β → Bool
  | .onState .disconnected _ => true
  | _ => false

def Event.isOpen : Event β → Bool
  | .openUri _ => true
  | _ => false

def Event.isSign : Event β → Bool
  | .sign .. => true
  | _ => false

/-- Signing or opening: part of an attempt. -/
def Event.isAttempt (event : Event β) : Bool := event.isSign || event.isOpen

/-- Errors that end the stream: refusals, and any lost attempt or socket
reported as not retryable. An undecodable batch is neither. -/
def Final (error : LiveError) (retryable : Bool) : Prop :=
  error = .signer ∨ (∃ status, error = .auth status) ∨ (retryable = false ∧ error ≠ .decode)

/-- How often the socket may have been opened since the last `Connected`. -/
def openBound (maxRetries : UInt32) (s : RunState β) : Nat :=
  match s.pc with
  | .top | .signing | .backoff => s.failures.toNat
  | .opening => s.failures.toNat + 1
  | .connected => 0
  | .done => maxRetries.toNat + 1

/-- What holds before an event: a URL is signed once, when it was built,
and the socket is opened right after. -/
def Fresh (directUrl : Nat → String) (pre : List (Event β)) : Event β → Prop
  | .sign n url => n = pre.countP Event.isSign ∧ url = directUrl n
  | .openUri _ => ∃ n, pre.getLast? = some (.sign n (directUrl n))
  | _ => True

/-- What holds after an event, while the loop stands at `pc`. -/
def After (pc : Pc) : Event β → List (Event β) → Prop
  | .onError error retryable, post =>
      (Final error retryable → pc = .done ∧ ∀ event ∈ post, event.isAttempt = false)
      ∧ (retryable = true →
          (∃ event ∈ post, event.isSign) ∨ .cancelled ∈ post ∨ pc = .backoff ∨ pc = .top)
      ∧ (error = .decode → (post = [] ∧ pc = .connected)
          ∨ post.head? = some .nextMessage ∨ post.head? = some .cancelled)
  | _, _ => True

structure Kept (maxRetries : UInt32) (directUrl : Nat → String) (s : RunState β) : Prop where
  budget : s.failures ≤ maxRetries
  reset : s.pc = .connected → s.failures = 0
  urls : s.urls = s.trace.countP Event.isSign
  signed : s.pc = .signing → ∃ n, s.trace.getLast? = some (.sign n (directUrl n))
  disconnected : s.trace.countP Event.isDisconnected = if s.pc = .done then 1 else 0
  last : s.pc = .done → ∃ detail, s.trace.getLast? = some (.onState .disconnected detail)
  opens : ∀ p, p <+: s.trace →
    since Event.isConnected Event.isOpen 0 p ≤ maxRetries.toNat + 1
  bound : since Event.isConnected Event.isOpen 0 s.trace ≤ openBound maxRetries s
  fresh : Precedes (Fresh directUrl) s.trace
  after : Follows (After s.pc) s.trace

theorem Kept.init : Kept maxRetries directUrl ({} : RunState β) where
  budget := UInt32.zero_le
  reset := fun _ => rfl
  urls := rfl
  signed := fun h => by cases h
  disconnected := rfl
  last := fun h => by cases h
  opens := fun p hp => by simp [List.prefix_nil.mp hp]
  bound := Nat.le_refl 0
  fresh := trivial
  after := trivial

/-! ## One emission keeps them -/

section Emission

variable {es : List (Event β)} {pc : Pc} {failures : UInt32} {count : Nat}

theorem Lost.lost_at {retryable : Bool} (h : Lost s.pc retryable es) :
    s.pc = .opening ∨ s.pc = .connected := by
  cases h with
  | attempt hpc => exact .inl hpc
  | socket hpc => exact .inr hpc
  | ended hpc => exact .inr hpc

theorem Emits.not_done (h : Emits maxRetries directUrl s es pc failures count) : s.pc ≠ .done := by
  intro hdone
  cases h with
  | retry hlost => simpa [hdone] using hlost.lost_at
  | exhausted hlost => simpa [hdone] using hlost.lost_at
  | _ => simp_all

theorem toNat_succ {n m : UInt32} (h : n < m) : (n + 1).toNat = n.toNat + 1 := by
  have hlt := UInt32.lt_iff_toNat_lt.mp h
  have hm := m.toNat_lt
  rw [UInt32.toNat_add]
  exact Nat.mod_eq_of_lt (by simpa using by omega)

theorem Emits.budget (h : Emits maxRetries directUrl s es pc failures count)
    (hs : s.failures ≤ maxRetries) : failures ≤ maxRetries := by
  cases h with
  | connect => exact UInt32.zero_le
  | retry hlost hbudget =>
      rw [UInt32.le_iff_toNat_le, toNat_succ hbudget]
      exact UInt32.lt_iff_toNat_lt.mp hbudget
  | _ => exact hs

theorem Emits.reset (h : Emits maxRetries directUrl s es pc failures count)
    (hs : s.pc = .connected → s.failures = 0) (hpc : pc = .connected) : failures = 0 := by
  cases h with
  | connect => rfl
  | batch b hconn => exact hs hconn
  | undecodable hconn => exact hs hconn
  | _ => cases hpc

theorem Emits.urls (h : Emits maxRetries directUrl s es pc failures count)
    (hs : s.urls = s.trace.countP Event.isSign) :
    count = (s.trace ++ es).countP Event.isSign := by
  rw [List.countP_append, ← hs]
  cases h with
  | retry hlost => cases hlost <;> simp [Event.isSign]
  | exhausted hlost => cases hlost <;> simp [Event.isSign]
  | batch b hpc hack => rcases hack with rfl | rfl <;> simp [Event.isSign]
  | undecodable hpc hack => rcases hack with rfl | rfl <;> simp [Event.isSign]
  | _ => simp [Event.isSign]

theorem Emits.disconnected (h : Emits maxRetries directUrl s es pc failures count)
    (hs : s.trace.countP Event.isDisconnected = if s.pc = .done then 1 else 0) :
    (s.trace ++ es).countP Event.isDisconnected = if pc = .done then 1 else 0 := by
  rw [if_neg h.not_done] at hs
  rw [List.countP_append, hs]
  cases h with
  | attempt hpc hstate hstate' =>
      rename_i state
      cases state <;> simp [Event.isDisconnected] at hstate' ⊢
  | retry hlost => cases hlost <;> simp [Event.isDisconnected]
  | exhausted hlost => cases hlost <;> simp [Event.isDisconnected]
  | batch b hpc hack => rcases hack with rfl | rfl <;> simp [Event.isDisconnected]
  | undecodable hpc hack => rcases hack with rfl | rfl <;> simp [Event.isDisconnected]
  | _ => simp [Event.isDisconnected]

theorem Emits.last (h : Emits maxRetries directUrl s es pc failures count) (hpc : pc = .done) :
    ∃ detail, (s.trace ++ es).getLast? = some (.onState .disconnected detail) := by
  cases h <;> simp at hpc ⊢

theorem Emits.signed (h : Emits maxRetries directUrl s es pc failures count) (hpc : pc = .signing) :
    ∃ n, (s.trace ++ es).getLast? = some (.sign n (directUrl n)) := by
  cases h <;> simp at hpc ⊢

theorem openBound_le (hs : s.failures ≤ maxRetries) :
    openBound maxRetries s ≤ maxRetries.toNat + 1 := by
  have hle := UInt32.le_iff_toNat_le.mp hs
  rw [openBound]
  split <;> omega

/-- The openings of an emission fit what its next point allows. -/
theorem Emits.opens_le (h : Emits maxRetries directUrl s es pc failures count)
    (hs : s.failures ≤ maxRetries) (hconnect : pc = .connected → s.pc = .connected) :
    openBound maxRetries s + es.countP Event.isOpen
      ≤ openBound maxRetries { s with pc, failures } := by
  have hmax := openBound_le hs
  cases h with
  | cancel => simpa [openBound, Event.isOpen] using hmax
  | attempt hpc => simp [openBound, hpc, Event.isOpen]
  | openUri url hpc => simp [openBound, hpc, Event.isOpen]
  | fatal => simpa [openBound, Event.isOpen] using hmax
  | connect hpc => rw [hconnect rfl] at hpc; cases hpc
  | retry hlost hbudget =>
      cases hlost with
      | attempt hpc => simp [openBound, hpc, Event.isOpen, toNat_succ hbudget]
      | socket hpc => simp [openBound, hpc, Event.isOpen]
      | ended hpc => simp [openBound, hpc, Event.isOpen]
  | exhausted hlost => cases hlost <;> simpa [openBound, Event.isOpen] using hmax
  | disconnect => simpa [openBound, Event.isOpen] using hmax
  | batch b hpc hack => rcases hack with rfl | rfl <;> simp [openBound, hpc, Event.isOpen]
  | undecodable hpc hack => rcases hack with rfl | rfl <;> simp [openBound, hpc, Event.isOpen]
  | elapsed hpc => simp [openBound, hpc]

/-- The count of openings stays within the budget during an emission and
within the next point's bound after it. -/
theorem Emits.since_le (h : Emits maxRetries directUrl s es pc failures count)
    (hk : Kept maxRetries directUrl s) :
    (∀ p, p <+: es → since Event.isConnected Event.isOpen
      (since Event.isConnected Event.isOpen 0 s.trace) p ≤ maxRetries.toNat + 1)
    ∧ since Event.isConnected Event.isOpen 0 (s.trace ++ es)
      ≤ openBound maxRetries { s with pc, failures } := by
  have hbudget := h.budget hk.budget
  by_cases hconnect : pc = .connected → s.pc = .connected
  · have hopens := h.opens_le hk.budget hconnect
    have hbound := hk.bound
    constructor
    · intro p hp
      have hcount := Trace.since_le Event.isConnected Event.isOpen
        (since Event.isConnected Event.isOpen 0 s.trace) p
      have hsub := hp.sublist.countP_le (p := Event.isOpen)
      have hmax := openBound_le (s := { s with pc, failures }) hbudget
      omega
    · rw [since_append]
      have hcount := Trace.since_le Event.isConnected Event.isOpen
        (since Event.isConnected Event.isOpen 0 s.trace) es
      omega
  · -- the socket has just opened: the count starts over
    cases h with
    | connect hpc =>
        have hmax := hk.opens s.trace (List.prefix_refl _)
        constructor
        · intro p hp
          rcases List.prefix_cons_iff.mp hp with rfl | ⟨q, rfl, hq⟩
          · exact hmax
          · rw [List.prefix_nil.mp hq]
            exact Nat.zero_le _
        · rw [since_append]
          exact Nat.le_refl 0
    | batch b hpc => exact absurd (fun _ => hpc) hconnect
    | undecodable hpc => exact absurd (fun _ => hpc) hconnect
    | _ => exact absurd (fun h => by cases h) hconnect

/-- A URL is signed with its own number, and the socket is opened after
signing. -/
theorem Emits.fresh (h : Emits maxRetries directUrl s es pc failures count)
    (hk : Kept maxRetries directUrl s) :
    Precedes (fun pre event => Fresh directUrl (s.trace ++ pre) event) es := by
  cases h with
  | attempt hpc =>
      refine ⟨trivial, ⟨?_, rfl⟩, trivial⟩
      rw [List.countP_append, hk.urls]
      simp [Event.isSign]
  | openUri url hpc =>
      obtain ⟨n, hn⟩ := hk.signed hpc
      exact ⟨⟨n, by simpa using hn⟩, trivial⟩
  | retry hlost => cases hlost <;> simp [Fresh]
  | exhausted hlost => cases hlost <;> simp [Fresh]
  | batch b hpc hack => rcases hack with rfl | rfl <;> simp [Fresh]
  | undecodable hpc hack => rcases hack with rfl | rfl <;> simp [Fresh]
  | _ => simp [Fresh]

/-- From the backoff or the top of the loop the way leads to an attempt,
unless it is cancelled. -/
theorem Emits.from_waiting (h : Emits maxRetries directUrl s es pc failures count)
    (post : List (Event β)) (hpc : s.pc = .backoff ∨ s.pc = .top) :
    (∃ event ∈ post ++ es, event.isSign) ∨ .cancelled ∈ post ++ es ∨ pc = .backoff ∨ pc = .top := by
  cases h with
  | cancel => exact .inr (.inl (by simp))
  | attempt => exact .inl ⟨.sign s.urls (directUrl s.urls), by simp, rfl⟩
  | elapsed => exact .inr (.inr (.inr rfl))
  | retry hlost => exact .inr (.inr (.inl rfl))
  | exhausted hlost => rcases hlost.lost_at with h | h <;> simp [h] at hpc
  | fatal detail hfatal => rcases hfatal with h | h <;> simp [h] at hpc
  | _ => simp_all

/-- On an open socket the loop goes on with the next message, unless it is
cancelled. -/
theorem Emits.from_connected (h : Emits maxRetries directUrl s es pc failures count)
    (hpc : s.pc = .connected) :
    ([] ++ es).head? = some .nextMessage ∨ ([] ++ es).head? = some .cancelled := by
  cases h with
  | retry hlost =>
      cases hlost with
      | attempt hopen => rw [hpc] at hopen; cases hopen
      | _ => exact .inl rfl
  | exhausted hlost =>
      cases hlost with
      | attempt hopen => rw [hpc] at hopen; cases hopen
      | _ => exact .inl rfl
  | batch b _ hack => rcases hack with rfl | rfl <;> exact .inl rfl
  | undecodable _ hack => rcases hack with rfl | rfl <;> exact .inl rfl
  | disconnect => exact .inr rfl
  | _ => simp_all

/-- What held after an event still holds when more is emitted. -/
theorem Emits.after_more (h : Emits maxRetries directUrl s es pc failures count) (event : Event β)
    (post : List (Event β)) (hpost : After s.pc event post) : After pc event (post ++ es) := by
  cases event with
  | onError error retryable =>
      obtain ⟨hfinal, hretry, hdecode⟩ := hpost
      refine ⟨fun hf => absurd (hfinal hf).1 h.not_done, fun hr => ?_, fun hd => ?_⟩
      · rcases hretry hr with ⟨e, he, hsign⟩ | hcancel | hpc | hpc
        · exact .inl ⟨e, List.mem_append_left _ he, hsign⟩
        · exact .inr (.inl (List.mem_append_left _ hcancel))
        · exact h.from_waiting post (.inl hpc)
        · exact h.from_waiting post (.inr hpc)
      · rcases hdecode hd with ⟨rfl, hpc⟩ | hhead | hhead
        · exact .inr (h.from_connected hpc)
        · exact .inr (.inl (by rw [List.head?_append, hhead]; rfl))
        · exact .inr (.inr (by rw [List.head?_append, hhead]; rfl))
  | _ => trivial

theorem Emits.after (h : Emits maxRetries directUrl s es pc failures count) :
    Follows (After pc) es := by
  cases h with
  | fatal detail hpc herror =>
      rcases herror with rfl | ⟨status, rfl⟩ <;>
        simp [After, Final, Event.isAttempt, Event.isSign, Event.isOpen]
  | retry hlost =>
      cases hlost with
      | attempt hpc herror =>
          rcases herror with rfl | rfl | ⟨status, rfl⟩ <;> simp [After, Final]
      | _ => simp [After, Final]
  | exhausted hlost =>
      cases hlost with
      | attempt hpc herror =>
          rcases herror with rfl | rfl | ⟨status, rfl⟩ <;>
            simp [After, Final, Event.isAttempt, Event.isSign, Event.isOpen]
      | _ => simp [After, Final, Event.isAttempt, Event.isSign, Event.isOpen]
  | batch b hpc hack => rcases hack with rfl | rfl <;> simp [After]
  | undecodable hpc hack => rcases hack with rfl | rfl <;> simp [After, Final]
  | _ => simp [After]

end Emission

theorem Kept.step {decodeBatch : Bytes → Except ε β} {input : Input}
    (hk : Kept maxRetries directUrl s)
    (h : step maxRetries directUrl decodeBatch s input = some s') :
    Kept maxRetries directUrl s' := by
  obtain ⟨es, htrace, hemits⟩ := step_extends hk.reset h
  obtain ⟨hopens, hbound⟩ := hemits.since_le hk
  obtain ⟨pc, failures, reconnecting, count, trace⟩ := s'
  simp only at htrace hemits hbound
  subst htrace
  exact {
    budget := hemits.budget hk.budget
    reset := hemits.reset hk.reset
    urls := hemits.urls hk.urls
    signed := hemits.signed
    disconnected := hemits.disconnected hk.disconnected
    last := hemits.last
    opens := since_le_append hk.opens hopens
    bound := hbound
    fresh := hk.fresh.append (hemits.fresh hk)
    after := hk.after.append (fun event post _ => hemits.after_more event post) hemits.after }

/-! ## The law -/

/-- The trace law of `run`, for the trace so far. -/
structure TraceLaw (maxRetries : UInt32) (directUrl : Nat → String) (s : RunState β) : Prop where
  /-- `Disconnected` is emitted once, when the loop ends. -/
  disconnected_once : s.trace.countP Event.isDisconnected = if s.pc = .done then 1 else 0
  disconnected_last : s.pc = .done →
    ∃ detail, s.trace.getLast? = some (.onState .disconnected detail)
  /-- Between two `Connected` at most `max_retries + 1` openings. -/
  attempts : BoundedBetween Event.isConnected Event.isOpen (maxRetries.toNat + 1) s.trace
  /-- Every opening comes right after signing its own URL, -/
  signs : ∀ pre signed post, s.trace = pre ++ .openUri signed :: post →
    ∃ n, pre.getLast? = some (.sign n (directUrl n))
  /-- and no URL is signed twice. -/
  fresh_urls : ∀ pre n url post, s.trace = pre ++ .sign n url :: post →
    n = pre.countP Event.isSign ∧ url = directUrl n
  /-- After a refusal, and after any error other than an undecodable batch
  that was reported as not retryable, there is no further attempt. -/
  final : ∀ pre error retryable post, s.trace = pre ++ .onError error retryable :: post →
    Final error retryable → s.pc = .done ∧ ∀ event ∈ post, event.isAttempt = false
  /-- After a retryable error there is one, unless cancelled first; the
  loop may still be on its way to it. -/
  retried : ∀ pre error post, s.trace = pre ++ .onError error true :: post →
    (∃ event ∈ post, event.isSign) ∨ .cancelled ∈ post ∨ s.pc = .backoff ∨ s.pc = .top
  /-- An undecodable batch is followed by the next message, unless cancelled. -/
  decode : ∀ pre retryable post, s.trace = pre ++ .onError .decode retryable :: post →
    (post = [] ∧ s.pc = .connected)
      ∨ post.head? = some .nextMessage ∨ post.head? = some .cancelled

theorem Kept.law (hk : Kept maxRetries directUrl s) : TraceLaw maxRetries directUrl s where
  disconnected_once := hk.disconnected
  disconnected_last := hk.last
  attempts := boundedBetween_of_since hk.opens
  signs := fun _ _ _ h => Precedes.split (h ▸ hk.fresh)
  fresh_urls := fun _ _ _ _ h => Precedes.split (h ▸ hk.fresh)
  final := fun _ _ _ _ h => (Follows.split (h ▸ hk.after)).1
  retried := fun _ _ _ h => (Follows.split (h ▸ hk.after)).2.1 rfl
  decode := fun _ _ _ h => (Follows.split (h ▸ hk.after)).2.2 rfl

/-- The law holds of every run, whatever the signer, the socket, the
decoder and the cancellation do. -/
theorem run_trace_law {decodeBatch : Bytes → Except ε β} {inputs : List Input}
    (hrun : Lts.run (step maxRetries directUrl decodeBatch) {} inputs = some s) :
    TraceLaw maxRetries directUrl s :=
  (Lts.run_invariant_all (fun _ _ _ hk h => hk.step h) Kept.init hrun).law

/-- A timeout, a retry that connects, an undecodable batch, the end of the
socket, and a cancellation while waiting. -/
theorem run_trace_law_cancelled :
    ∃ s : RunState Unit, Lts.run
        (step 1 (fun n => s!"wss://host/?device_id={n}") fun _ => (.error () : Except Unit Unit)) {}
        [.proceed, .signed "wss://host/0", .openTimeout, .elapsed, .proceed,
          .signed "wss://host/1", .opened, .message true [0x0A], .ended, .cancelled] = some s
      ∧ s.pc = .done ∧ TraceLaw 1 (fun n => s!"wss://host/?device_id={n}") s :=
  Lts.exists_run (P := fun s => s.pc = .done) (by decide) fun _ hs hdone =>
    ⟨hdone, run_trace_law hs⟩

end

end TiktokSigner.LiveCore
