import TiktokSigner.LiveWs.RetryProtocol

/-!
# The stream follows the retry protocol

`simulates` connects the stream to the automaton: every step logs what some
moves of `Mode.next` allow. From it come the two laws of the stream.

`finished_iff_reported` is about dropped calls: `connection` doubles as the
finished mark and `reconnect` clears it before its waits, so a call dropped
there leaves a stream that looks finished and never reported an error.
`retry_law` is about calls that run to completion.
-/

namespace TiktokSigner.LiveWs

open Lts

namespace Stream

/-- Where the stream waits in each mode. -/
def Matches (s : Stream) : Mode → Prop
  | .open => (s.phase = .idle ∨ s.phase = .reading) ∧ s.connection ≠ none
  | .outage made last =>
      s.phase = .sleeping (made + 1) last ∧ made < s.maxAttempts ∧ s.connection = none
  | .asked made => (∃ last, s.phase = .signing made last) ∧ s.connection = none
  | .signed made fetch => (∃ last, s.phase = .opening made last fetch) ∧ s.connection = none
  | .over | .silent => s.phase = .idle ∧ s.connection = none
  | .failing _ => False

/-- `t` has logged `es` since `s`, and counted the reopenings among them. -/
structure Extends (s t : Stream) (es : List Entry) : Prop where
  log : t.log = s.log ++ es
  reconnects : t.reconnects = s.reconnects + es.countP Entry.isReopened
  roomId : t.roomId = s.roomId
  maxAttempts : t.maxAttempts = s.maxAttempts
  undropped : .dropped ∉ es

/-- The stream goes from `s` to `t` as moves from `m` allow. -/
def Simulates (s t : Stream) (m : Mode) : Prop :=
  ∃ es m', Extends s t es ∧ run (Mode.next s.roomId s.maxAttempts) m es = some m' ∧ t.Matches m'

variable {codec : Codec} {s t : Stream} {m : Mode}

theorem extends_refl (hlog : t.log = s.log) (hreconnects : t.reconnects = s.reconnects)
    (hroom : t.roomId = s.roomId) (hmax : t.maxAttempts = s.maxAttempts) : Extends s t [] :=
  ⟨by rw [hlog, List.append_nil], hreconnects, hroom, hmax, List.not_mem_nil⟩

/-! ## The modes of a phase -/

theorem Matches.of_reading (h : s.Matches m) (hphase : s.phase = .reading) : m = .open := by
  cases m <;> simp_all [Matches]

theorem Matches.of_sleeping (h : s.Matches m) {attempt : Nat} {last : WsError}
    (hphase : s.phase = .sleeping attempt last) :
    ∃ made, m = .outage made last ∧ attempt = made + 1 ∧ made < s.maxAttempts
      ∧ s.connection = none := by
  cases m <;> simp_all [Matches]

theorem Matches.of_signing (h : s.Matches m) {attempt : Nat} {last : WsError}
    (hphase : s.phase = .signing attempt last) :
    m = .asked attempt ∧ s.connection = none := by
  cases m <;> simp_all [Matches]

theorem Matches.of_opening (h : s.Matches m) {attempt : Nat} {last : WsError} {fetch : SignedFetch}
    (hphase : s.phase = .opening attempt last fetch) :
    m = .signed attempt fetch ∧ s.connection = none := by
  cases m <;> simp_all [Matches]

theorem Matches.of_idle (h : s.Matches m) (hphase : s.phase = .idle) :
    (m = .open ∧ s.connection ≠ none) ∨ (m = .over ∨ m = .silent) ∧ s.connection = none := by
  cases m <;> simp_all [Matches]

/-! ## One step -/

theorem reconnect_simulates (cause : WsError) : Simulates s (s.reconnect cause) .open := by
  by_cases hmax : s.maxAttempts = 0
  · refine ⟨[.lost cause, .ended (.exhausted 0 cause)], .over, ?_, ?_, ?_⟩
    · rw [reconnect, if_pos hmax]
      exact ⟨List.append_assoc .., rfl, rfl, rfl, by simp⟩
    · simp [run, Mode.next, hmax]
    · rw [reconnect, if_pos hmax]
      exact ⟨rfl, rfl⟩
  · refine ⟨[.lost cause], .outage 0 cause, ?_, ?_, ?_⟩
    · rw [reconnect, if_neg hmax]
      exact ⟨rfl, rfl, rfl, rfl, by simp⟩
    · simp [run, Mode.next, hmax]
    · rw [reconnect, if_neg hmax]
      exact ⟨rfl, Nat.pos_of_ne_zero hmax, rfl⟩

theorem read_simulates (hphase : s.phase = .reading) (hconnection : s.connection ≠ none)
    (returned : Option Returned) : Simulates s (s.read returned) .open := by
  unfold read
  split
  · exact ⟨[], .open, extends_refl rfl rfl rfl rfl, rfl, Or.inr hphase, hconnection⟩
  · rename_i message
    exact ⟨[.delivered message], .open, ⟨rfl, rfl, rfl, rfl, by simp⟩, rfl, Or.inl rfl, hconnection⟩
  · exact reconnect_simulates _
  · exact reconnect_simulates _

theorem socket_simulates (hphase : s.phase = .reading) (connection : LiveConnection)
    (sockets : List (LiveConnection × List Event)) (returned : Option Returned) :
    Simulates s (read { s with connection := some connection, sockets } returned) .open := by
  have hconnection : ({ s with connection := some connection, sockets } : Stream).connection
      ≠ none :=
    Option.some_ne_none connection
  obtain ⟨es, m', hextends, hrun, hmatches⟩ := read_simulates
    (s := { s with connection := some connection, sockets }) hphase hconnection returned
  exact ⟨es, m', ⟨hextends.log, hextends.reconnects, hextends.roomId, hextends.maxAttempts,
    hextends.undropped⟩, hrun, hmatches⟩

/-- Giving up with an error, after the entry that led to it. -/
theorem fail_simulates {entry : Entry} {error : StreamError}
    (hnext : Mode.next s.roomId s.maxAttempts m entry = some (.failing error))
    (hentry : entry.isReopened = false) (hdropped : entry ≠ .dropped) :
    Simulates s ((s.record entry).fail error) m := by
  refine ⟨[entry, .ended error], .over, ⟨List.append_assoc .., ?_, rfl, rfl, ?_⟩, ?_, rfl, rfl⟩
  · simp only [fail, record, List.countP_cons, hentry, List.countP_nil]
    rfl
  · simpa using hdropped.symm
  · rw [run_cons, hnext]
    simp [run, Mode.next]

theorem sign_simulates (hconnection : s.connection = none) {attempt : Nat} {last : WsError}
    {outcome : SignOutcome}
    (hs : (match outcome.signed with
        | .ok signed =>
            some { s.record (.signed outcome) with phase := .opening attempt last signed }
        | .error error => some ((s.record (.signed outcome)).attempted attempt (.error error)))
      = some t) : Simulates s t (.asked attempt) := by
  cases outcome with
  | ok fetch =>
    cases hs
    exact ⟨[.signed (.ok fetch)], .signed attempt fetch, ⟨rfl, rfl, rfl, rfl, by simp⟩, rfl,
      ⟨last, rfl⟩, hconnection⟩
  | rejected reason =>
    cases hs
    exact fail_simulates rfl rfl nofun
  | transport error =>
    cases hs
    exact fail_simulates rfl rfl nofun

theorem open_simulates (hconnection : s.connection = none) {attempt : Nat} {fetch : SignedFetch}
    (result : Except WsError LiveConnection) :
    Simulates s ((s.record (.opened fetch result)).attempted attempt (mapConnect result))
      (.signed attempt fetch) := by
  cases result with
  | ok connection =>
    exact ⟨[.opened fetch (.ok connection)], .open,
      ⟨rfl, rfl, rfl, rfl, by simp⟩, by simp [run, Mode.next],
      Or.inr rfl, nofun⟩
  | error last =>
    change Simulates s (if attempt < s.maxAttempts then _ else _) _
    by_cases hlt : attempt < s.maxAttempts
    · rw [if_pos hlt]
      exact ⟨[.opened fetch (.error last)], .outage attempt last, ⟨rfl, rfl, rfl, rfl, by simp⟩,
        by simp [run, Mode.next, hlt], rfl, hlt, hconnection⟩
    · rw [if_neg hlt]
      exact fail_simulates (by simp [Mode.next, hlt, record]) rfl nofun

/-- Every step but a drop follows the protocol. -/
theorem simulates (h : s.Matches m) (a : Action) (ha : ∀ left, a ≠ .drop left)
    (hs : s.step codec a = some t) : Simulates s t m := by
  cases a with
  | call =>
    obtain ⟨hphase, hs⟩ := Option.ite_none_right_eq_some.mp hs
    rcases h.of_idle hphase with ⟨rfl, hconnection⟩ | ⟨hm, hconnection⟩
    · cases hc : s.connection with
      | none => exact absurd hc hconnection
      | some connection =>
        rw [hc] at hs
        cases hs
        exact ⟨[], .open, extends_refl rfl rfl rfl rfl, rfl, Or.inr rfl, hconnection⟩
    · rw [hconnection] at hs
      cases hs
      rcases hm with rfl | rfl
      · exact ⟨[.finished], .over, ⟨rfl, rfl, rfl, rfl, by simp⟩, rfl, hphase, hconnection⟩
      · exact ⟨[.finished], .silent, ⟨rfl, rfl, rfl, rfl, by simp⟩, rfl, hphase, hconnection⟩
  | socket event =>
    rw [step] at hs
    split at hs
    case h_1 connection hphase hconnection =>
      cases hs
      obtain rfl := h.of_reading hphase
      exact socket_simulates hphase _ _ _
    case h_2 => cases hs
  | wake =>
    rw [step] at hs
    split at hs
    case h_1 attempt last hphase =>
      cases hs
      obtain ⟨made, rfl, rfl, hlt, hconnection⟩ := h.of_sleeping hphase
      exact ⟨[.asked s.roomId], .asked (made + 1), ⟨rfl, rfl, rfl, rfl, by simp⟩,
        by simp [run, Mode.next, hlt], ⟨last, rfl⟩, hconnection⟩
    case h_2 => cases hs
  | sign outcome =>
    rw [step] at hs
    split at hs
    case h_1 attempt last hphase =>
      obtain ⟨rfl, hconnection⟩ := h.of_signing hphase
      exact sign_simulates hconnection hs
    case h_2 => cases hs
  | «open» result =>
    rw [step] at hs
    split at hs
    case h_1 attempt last fetch hphase =>
      cases hs
      obtain ⟨rfl, hconnection⟩ := h.of_opening hphase
      exact open_simulates hconnection result
    case h_2 => cases hs
  | drop left => exact absurd rfl (ha left)

/-! ## Runs -/

/-- The log is one of the protocol's, and ends where the stream waits. -/
structure Follows (roomId : String) (maxAttempts : Nat) (s : Stream) (m : Mode) : Prop where
  log : run (Mode.next roomId maxAttempts) .open s.log = some m
  matched : s.Matches m
  roomId : s.roomId = roomId
  maxAttempts : s.maxAttempts = maxAttempts
  reconnects : s.reconnects = s.log.countP Entry.isReopened

section

variable {roomId : String} {maxAttempts : Nat} {connection : LiveConnection} {as : List Action}

theorem Follows.step (h : Follows roomId maxAttempts s m) (a : Action)
    (ha : ∀ left, a ≠ .drop left) (hs : s.step codec a = some t) :
    ∃ m', Follows roomId maxAttempts t m' ∧ (m' = .silent ↔ m = .silent) := by
  obtain ⟨es, m', hextends, hrun, hmatches⟩ := simulates h.matched a ha hs
  rw [h.roomId, h.maxAttempts] at hrun
  refine ⟨m', ⟨?_, hmatches, ?_, ?_, ?_⟩, ?_⟩
  · rw [hextends.log]
    exact run_append_eq_some.mpr ⟨m, h.log, hrun⟩
  · rw [hextends.roomId, h.roomId]
  · rw [hextends.maxAttempts, h.maxAttempts]
  · rw [hextends.reconnects, hextends.log, h.reconnects, List.countP_append]
  · constructor
    · rintro rfl
      exact Mode.silent_of_undropped hrun hextends.undropped
    · rintro rfl
      exact (Mode.silent_of_run hrun).1

/-- A dropped future: the stream goes on after a read, and falls silent in
an outage. -/
theorem Follows.drop (h : Follows roomId maxAttempts s m) {left : LiveConnection}
    (hs : s.step codec (.drop left) = some t) :
    Follows roomId maxAttempts t (if s.phase = .reading then .open else .silent)
      ∧ (s.phase = .reading → m = .open) := by
  have hlog : ∀ {u : Stream} {m' : Mode}, u.log = s.log ++ [.dropped] → u.roomId = s.roomId →
      u.maxAttempts = s.maxAttempts → u.reconnects = s.reconnects →
      Mode.next roomId maxAttempts m .dropped = some m' → u.Matches m' →
      Follows roomId maxAttempts u m' := by
    intro u m' hlog hroom hmax hreconnects hnext hmatches
    refine ⟨?_, hmatches, hroom.trans h.roomId, hmax.trans h.maxAttempts, ?_⟩
    · rw [hlog]
      exact run_concat_eq_some.mpr ⟨m, h.log, hnext⟩
    · rw [hreconnects, hlog, h.reconnects, List.countP_append]
      rfl
  rw [Stream.step] at hs
  split at hs
  case h_1 => cases hs
  case h_2 hphase =>
    cases hs
    obtain rfl := h.matched.of_reading hphase
    rw [if_pos hphase]
    exact ⟨hlog rfl rfl rfl rfl rfl ⟨Or.inl rfl, Option.some_ne_none left⟩, fun _ => rfl⟩
  case h_3 attempt last hphase =>
    cases hs
    obtain ⟨made, rfl, -, -, hconnection⟩ := h.matched.of_sleeping hphase
    rw [hphase, if_neg (by simp)]
    exact ⟨hlog rfl rfl rfl rfl rfl ⟨rfl, hconnection⟩, nofun⟩
  case h_4 attempt last hphase =>
    cases hs
    obtain ⟨rfl, hconnection⟩ := h.matched.of_signing hphase
    rw [hphase, if_neg (by simp)]
    exact ⟨hlog rfl rfl rfl rfl rfl ⟨rfl, hconnection⟩, nofun⟩
  case h_5 attempt last fetch hphase =>
    cases hs
    obtain ⟨rfl, hconnection⟩ := h.matched.of_opening hphase
    rw [hphase, if_neg (by simp)]
    exact ⟨hlog rfl rfl rfl rfl rfl ⟨rfl, hconnection⟩, nofun⟩

theorem follows_start : Follows roomId maxAttempts (start roomId maxAttempts connection) .open :=
  ⟨rfl, ⟨Or.inl rfl, Option.some_ne_none connection⟩, rfl, rfl, rfl⟩

theorem follows_of_run (hrun : run (step codec) (start roomId maxAttempts connection) as = some s) :
    ∃ m, Follows roomId maxAttempts s m := by
  refine run_invariant_all (I := fun s => ∃ m, Follows roomId maxAttempts s m) ?_ ⟨_, follows_start⟩
    hrun
  rintro s a t ⟨m, h⟩ hs
  cases a with
  | drop left => exact ⟨_, (h.drop hs).1⟩
  | _ =>
    obtain ⟨m', h', -⟩ := h.step _ (by simp) hs
    exact ⟨m', h'⟩

end

/-! ## How a stream ends -/

/-- Every `None` comes after a terminal error, and a stream found finished
between two calls has reported one. -/
def Reported (s : Stream) : Prop :=
  (∀ before rest, s.log = before ++ .finished :: rest → ∃ error, .ended error ∈ before)
    ∧ (s.phase = .idle → s.connection = none → ∃ error, .ended error ∈ s.log)

/-- A future is dropped only while it waits for the socket. -/
def DropsOnlyReads (s : Stream) : Action → Prop
  | .drop _ => s.phase = .reading
  | _ => True

instance (s : Stream) (a : Action) : Decidable (s.DropsOnlyReads a) :=
  match a with
  | .drop _ => inferInstanceAs (Decidable (s.phase = .reading))
  | .call | .socket _ | .wake | .sign _ | .open _ => .isTrue trivial

section

variable {roomId : String} {maxAttempts : Nat}

theorem Follows.reported_iff (h : Follows roomId maxAttempts s m) : s.Reported ↔ m ≠ .silent := by
  constructor
  · rintro ⟨-, hended⟩ rfl
    obtain ⟨hidle, hnone⟩ := h.matched
    have hover := (Mode.ended_iff h.log).mp (hended hidle hnone)
    cases hover
  · intro hsilent
    refine ⟨?_, ?_⟩
    · intro before rest hlog
      exact Mode.ended_before_finished (hlog ▸ h.log) hsilent
    · intro hidle hnone
      rcases h.matched.of_idle hidle with ⟨-, hne⟩ | ⟨rfl | rfl, -⟩
      · exact absurd hnone hne
      · exact (Mode.ended_iff h.log).mpr rfl
      · exact absurd rfl hsilent

/-- Not silent: the protocol still has an error to report, or has. -/
def Speaks (roomId : String) (maxAttempts : Nat) (s : Stream) : Prop :=
  ∃ m, Follows roomId maxAttempts s m ∧ m ≠ .silent

theorem Speaks.step (h : Speaks roomId maxAttempts s) {a : Action} (hdrops : s.DropsOnlyReads a)
    (hs : s.step codec a = some t) : Speaks roomId maxAttempts t := by
  obtain ⟨m, h, hm⟩ := h
  cases a with
  | drop left =>
    have hreading : s.phase = .reading := hdrops
    obtain ⟨hopen, -⟩ := h.drop hs
    rw [if_pos hreading] at hopen
    exact ⟨.open, hopen, by simp⟩
  | _ =>
    obtain ⟨m', h', hsilent⟩ := h.step _ (by simp) hs
    exact ⟨m', h', fun hm' => hm (hsilent.mp hm')⟩

theorem Speaks.silence (h : Speaks roomId maxAttempts s) {a : Action} (hdrops : ¬s.DropsOnlyReads a)
    (hs : s.step codec a = some t) : Follows roomId maxAttempts t .silent := by
  obtain ⟨m, h, -⟩ := h
  cases a with
  | drop left =>
    have hreading : s.phase ≠ .reading := hdrops
    obtain ⟨hsilent, -⟩ := h.drop hs
    rwa [if_neg hreading] at hsilent
  | _ => exact absurd trivial hdrops

theorem Follows.stays_silent (h : Follows roomId maxAttempts s .silent) {a : Action}
    (hs : s.step codec a = some t) : Follows roomId maxAttempts t .silent := by
  cases a with
  | drop left =>
    rw [Stream.step, h.matched.1] at hs
    cases hs
  | _ =>
    obtain ⟨m', h', hsilent⟩ := h.step _ (by simp) hs
    rwa [hsilent.mpr rfl] at h'

/-- In every run: the stream has reported the error it ended with exactly
when no call was dropped inside `reconnect`. -/
theorem finished_iff_reported (codec : Codec) (roomId : String) (maxAttempts : Nat)
    (connection : LiveConnection) (as : List Action) (s : Stream)
    (hrun : run (step codec) (start roomId maxAttempts connection) as = some s) :
    s.Reported ↔ AllMeet (step codec) DropsOnlyReads (start roomId maxAttempts connection) as := by
  have hunique : ∀ {s : Stream} {m m' : Mode}, Follows roomId maxAttempts s m →
      Follows roomId maxAttempts s m' → m = m' := fun h h' =>
    Option.some.inj (h.log.symm.trans h'.log)
  have hiff := allMeet_iff_of_run (I := Speaks roomId maxAttempts)
    (B := fun s => Follows roomId maxAttempts s .silent)
    (fun _ _ _ h hdrops hs => h.step hdrops hs) (fun _ _ _ h hdrops hs => h.silence hdrops hs)
    (fun _ _ _ h hs => h.stays_silent hs) (fun _ ⟨_, h, hm⟩ hsilent => hm (hunique h hsilent))
    ⟨.open, follows_start, by simp⟩ hrun
  obtain ⟨m, h⟩ := follows_of_run hrun
  rw [hiff, h.reported_iff, not_iff_not]
  constructor
  · rintro rfl
    exact h
  · exact hunique h

/-- A dropped read, then a loss with the reconnection disabled. -/
theorem finished_iff_reported_of_read : ∃ s,
    run (step ⟨fun _ bytes => .ok bytes, fun _ => ""⟩)
      (start "7" 0 { internalExt := "", roomId := 7 })
        [.call, .drop { internalExt := "", roomId := 7 }, .call,
          .socket (.incoming .ended (.ok ())), .call] = some s
      ∧ s.Reported := by
  refine exists_run (P := fun s : Stream => s.phase = .idle) (by decide) ?_
  intro s hrun _
  exact (finished_iff_reported _ "7" 0 _ _ s hrun).mpr (by decide)

/-- The peer closes and the call is dropped in the backoff sleep: the next
call returns `None`, and no error was ever reported. -/
theorem none_without_error : ∃ s,
    run (step ⟨fun _ bytes => .ok bytes, fun _ => ""⟩)
      (start "7" 5 { internalExt := "", roomId := 7 })
        [.call, .socket (.incoming .ended (.ok ())), .drop { internalExt := "", roomId := 7 }, .call]
      = some s
      ∧ .finished ∈ s.log ∧ ∀ error, .ended error ∉ s.log := by
  refine exists_run (P := fun s : Stream =>
    s.log = [.lost (.closed "closed by peer"), .dropped, .finished]) (by decide) ?_
  intro s _ hlog
  rw [hlog]
  exact ⟨by simp, by simp⟩

end

/-! ## Messages in socket order -/

section

/-- The messages a socket yielded, as its own loop returns them. -/
def messages (codec : Codec) (socket : LiveConnection × List Event) : List LiveMessage :=
  (socket.1.session codec socket.2).filterMap Handled.message

/-- The socket after its events. -/
def afterEvents (codec : Codec) (socket : LiveConnection × List Event) : LiveConnection :=
  socket.2.foldl (fun connection event => (connection.onEvent codec event).1) socket.1

theorem handleAll_concat (connection : LiveConnection) (events : List Event) (event : Event) :
    connection.handleAll codec (events ++ [event]) =
      connection.handleAll codec events
        ++ [((afterEvents codec (connection, events)).handle codec event).2] := by
  induction events generalizing connection with
  | nil => rfl
  | cons e events ih =>
    rw [List.cons_append, LiveConnection.handleAll, LiveConnection.handleAll]
    exact congrArg _ (ih _)

theorem messages_concat (connection : LiveConnection) (events : List Event) (event : Event) :
    messages codec (connection, events ++ [event]) =
      messages codec (connection, events)
        ++ (((afterEvents codec (connection, events)).handle codec event).2.message).toList := by
  rw [messages, messages, LiveConnection.session_eq, LiveConnection.session_eq, handleAll_concat,
    List.filterMap_append]
  rfl

/-- What was delivered is what the sockets yielded, in order. -/
structure Ordered (codec : Codec) (s : Stream) : Prop where
  delivered : s.log.filterMap Entry.message = s.sockets.reverse.flatMap (messages codec)
  current : ∀ connection, s.connection = some connection →
    ∃ socket sockets, s.sockets = socket :: sockets ∧ connection = afterEvents codec socket

theorem Ordered.quiet (h : Ordered codec s) (es : List Entry) (hlog : t.log = s.log ++ es)
    (hes : es.filterMap Entry.message = []) (hsockets : t.sockets = s.sockets)
    (hconnection : ∀ connection, t.connection = some connection → s.connection = some connection) :
    Ordered codec t where
  delivered := by rw [hlog, List.filterMap_append, hes, List.append_nil, hsockets, h.delivered]
  current := fun connection hc => by
    rw [hsockets]
    exact h.current connection (hconnection connection hc)

theorem reconnect_quiet (cause : WsError) :
    (s.reconnect cause).log.filterMap Entry.message = s.log.filterMap Entry.message
      ∧ (s.reconnect cause).sockets = s.sockets ∧ (s.reconnect cause).connection = none := by
  unfold reconnect
  dsimp only
  split <;> simp [fail, Entry.message]

theorem read_delivers (handled : Handled) :
    (s.read handled.returned).log.filterMap Entry.message =
        s.log.filterMap Entry.message ++ handled.message.toList
      ∧ (s.read handled.returned).sockets = s.sockets
      ∧ ∀ connection, (s.read handled.returned).connection = some connection →
        s.connection = some connection := by
  have hlost : ∀ cause, handled.message = none →
      (s.reconnect cause).log.filterMap Entry.message =
          s.log.filterMap Entry.message ++ handled.message.toList
        ∧ (s.reconnect cause).sockets = s.sockets
        ∧ ∀ connection, (s.reconnect cause).connection = some connection →
          s.connection = some connection := by
    intro cause hnone
    obtain ⟨hlog, hsockets, hconnection⟩ := reconnect_quiet (s := s) cause
    rw [hnone, hconnection]
    exact ⟨by simpa using hlog, hsockets, by simp⟩
  unfold read
  split
  case h_1 hreturned => simp [Handled.message, hreturned]
  case h_2 message hreturned => simp [Handled.message, hreturned, Entry.message]
  case h_3 hreturned => exact hlost _ (by simp [Handled.message, hreturned])
  case h_4 error hreturned => exact hlost _ (by simp [Handled.message, hreturned])

/-- A turn of the socket's loop delivers what the socket yields there. -/
theorem Ordered.socket (h : Ordered codec s) {connection : LiveConnection}
    (hconnection : s.connection = some connection) (event : Event) :
    Ordered codec (read
      { s with
        connection := some (connection.onEvent codec event).1,
        sockets := seen event s.sockets } (connection.handle codec event).2.returned) := by
  obtain ⟨⟨first, events⟩, sockets, hsockets, rfl⟩ := h.current connection hconnection
  obtain ⟨hlog, hsame, hkeep⟩ := read_delivers
    (s := { s with
      connection := some ((afterEvents codec (first, events)).onEvent codec event).1,
      sockets := seen event s.sockets })
    ((afterEvents codec (first, events)).handle codec event).2
  refine ⟨?_, ?_⟩
  · rw [hlog, hsame, h.delivered, hsockets, seen]
    simp only [List.reverse_cons, List.flatMap_append, List.flatMap_singleton, messages_concat,
      List.append_assoc]
  · intro connection' hc
    refine ⟨(first, events ++ [event]), sockets, by rw [hsame, hsockets, seen], ?_⟩
    rw [← Option.some.inj (hkeep connection' hc), afterEvents, afterEvents, List.foldl_append]
    rfl

theorem Ordered.attempted (h : Ordered codec s) (attempt : Nat)
    (result : Except StreamError LiveConnection) : Ordered codec (s.attempted attempt result) := by
  have hfail : ∀ error, Ordered codec (s.fail error) := fun error =>
    h.quiet [.ended error] rfl rfl rfl nofun
  unfold Stream.attempted
  split
  case h_1 connection =>
    refine ⟨?_, fun connection' hc => ⟨_, _, rfl, (Option.some.inj hc).symm⟩⟩
    rw [List.reverse_cons, List.flatMap_append, ← h.delivered]
    simp [messages, LiveConnection.session_eq, LiveConnection.handleAll]
  case h_2 => exact hfail _
  case h_3 => exact hfail _
  case h_4 last =>
    split
    · exact h.quiet [] (List.append_nil _).symm rfl rfl fun _ hc => hc
    · exact hfail _
  case h_5 => exact hfail _

theorem Ordered.step (h : Ordered codec s) {a : Action} (ha : ∀ left, a ≠ .drop left)
    (hs : s.step codec a = some t) : Ordered codec t := by
  cases a with
  | call =>
    obtain ⟨-, hs⟩ := Option.ite_none_right_eq_some.mp hs
    split at hs
    case h_1 => cases hs; exact h.quiet [.finished] rfl rfl rfl fun _ hc => hc
    case h_2 => cases hs; exact h.quiet [] (List.append_nil _).symm rfl rfl fun _ hc => hc
  | socket event =>
    rw [Stream.step] at hs
    split at hs
    case h_1 connection _ hconnection =>
      cases hs
      exact h.socket hconnection event
    case h_2 => cases hs
  | wake =>
    rw [Stream.step] at hs
    split at hs
    case h_1 => cases hs; exact h.quiet [.asked s.roomId] rfl rfl rfl fun _ hc => hc
    case h_2 => cases hs
  | sign outcome =>
    rw [Stream.step] at hs
    split at hs
    case h_1 attempt last _ =>
      have hsigned : Ordered codec (s.record (.signed outcome)) :=
        h.quiet [.signed outcome] rfl rfl rfl fun _ hc => hc
      dsimp only at hs
      split at hs
      case h_1 => cases hs; exact hsigned.quiet [] (List.append_nil _).symm rfl rfl fun _ hc => hc
      case h_2 error _ => cases hs; exact hsigned.attempted attempt (.error error)
    case h_2 => cases hs
  | «open» result =>
    rw [Stream.step] at hs
    split at hs
    case h_1 attempt _ fetch _ =>
      cases hs
      have hopened : Ordered codec (s.record (.opened fetch result)) :=
        h.quiet [.opened fetch result] rfl rfl rfl fun _ hc => hc
      exact hopened.attempted attempt (mapConnect result)
    case h_2 => cases hs
  | drop left => exact absurd rfl (ha left)

/-- In every run whose calls run to completion. An outage makes at most
`maxAttempts` attempts; each opens its socket with a signature asked for
just before; a refusal or a failure of the signer is returned at once;
`Exhausted` carries `maxAttempts` and the failure of the last attempt, or
the loss when none is allowed; the counter counts the reopenings; what is
delivered is what the sockets yielded, in order, and nothing during an
outage; and after a terminal error there is nothing but `None`. -/
theorem retry_law (codec : Codec) (roomId : String) (maxAttempts : Nat)
    (connection : LiveConnection) (as : List Action) (s : Stream) (hdrop : ∀ left, .drop left ∉ as)
    (hrun : run (step codec) (start roomId maxAttempts connection) as = some s) :
    (∀ before cause outage rest, s.log = before ++ .lost cause :: outage ++ rest →
      (∀ e ∈ outage, e.isLost = false) → outage.countP Entry.isAsked ≤ maxAttempts)
    ∧ (∀ before fetch result rest, s.log = before ++ .opened fetch result :: rest →
      ∃ earlier, before = earlier ++ [.asked roomId, .signed (.ok fetch)])
    ∧ (∀ before outcome error rest, s.log = before ++ .signed outcome :: rest →
      outcome.signed = .error error → ∃ later, rest = .ended error :: later)
    ∧ (∀ before attempts last rest, s.log = before ++ .ended (.exhausted attempts last) :: rest →
      attempts = maxAttempts
        ∧ (maxAttempts = 0 ∧ (∃ earlier, before = earlier ++ [.lost last])
          ∨ 0 < maxAttempts ∧ ∃ earlier fetch, before = earlier ++ [.opened fetch (.error last)]))
    ∧ s.reconnects = s.log.countP Entry.isReopened
    ∧ s.log.filterMap Entry.message = s.sockets.reverse.flatMap (messages codec)
    ∧ (∀ before cause outage rest, s.log = before ++ .lost cause :: outage ++ rest →
      (∀ e ∈ outage, e.isReopened = false) → ∀ message, .delivered message ∉ outage)
    ∧ ∀ before error rest, s.log = before ++ .ended error :: rest → ∀ e ∈ rest, e = .finished := by
  obtain ⟨m, h⟩ := follows_of_run hrun
  have hfailing : ∀ error, m ≠ .failing error := by
    rintro error rfl
    exact h.matched
  have hordered : Ordered codec s := by
    refine run_invariant (P := fun _ a => ∀ left, a ≠ .drop left)
      (fun _ _ _ h ha hs => Ordered.step h ha hs) ⟨?_, ?_⟩ ?_ hrun
    · simp [start, messages, LiveConnection.session_eq, LiveConnection.handleAll]
    · exact fun c hc => ⟨_, [], rfl, (Option.some.inj hc).symm⟩
    · refine allMeet_of_forall_mem ?_ _
      rintro a ha - left rfl
      exact hdrop left ha
  refine ⟨?_, ?_, ?_, ?_, h.reconnects, hordered.delivered, ?_, ?_⟩
  · intro before cause outage rest hlog
    exact Mode.attempts_le (hlog ▸ h.log)
  · intro before fetch result rest hlog
    exact Mode.fresh_signature (hlog ▸ h.log)
  · intro before outcome error rest hlog herror
    exact Mode.refused_at_once (hlog ▸ h.log) herror hfailing
  · intro before attempts last rest hlog
    exact Mode.exhausted_carries (hlog ▸ h.log)
  · intro before cause outage rest hlog
    exact Mode.not_delivered_in_outage (hlog ▸ h.log)
  · intro before error rest hlog
    exact Mode.finished_after_ended (hlog ▸ h.log)

/-- Two attempts of which the second is refused. -/
theorem retry_law_of_refusal : ∃ s,
    run (step ⟨fun _ bytes => .ok bytes, fun _ => ""⟩)
      (start "7" 5 { internalExt := "", roomId := 7 })
        [.call, .socket (.incoming .ended (.ok ())), .wake,
          .sign (.ok ⟨[], [("sessionid", "test")], "test", "wss://127.0.0.1:1/"⟩),
          .open (.error (.transport "refused")), .wake, .sign (.rejected .emptyBody)] = some s
      ∧ s.reconnects = s.log.countP Entry.isReopened
      ∧ ∀ before error rest, s.log = before ++ .ended error :: rest → ∀ e ∈ rest, e = .finished := by
  refine exists_run (P := fun s : Stream => s.phase = .idle) (by decide) ?_
  intro s hrun _
  obtain ⟨-, -, -, -, hreconnects, -, -, hended⟩ :=
    retry_law _ "7" 5 _ _ s (by simp) hrun
  exact ⟨hreconnects, hended⟩

end

end Stream

end TiktokSigner.LiveWs
