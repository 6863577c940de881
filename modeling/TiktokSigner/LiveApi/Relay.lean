import TiktokSigner.Lib.Lts
import TiktokSigner.Lib.Percent
import TiktokSigner.Lib.Replace
import TiktokSigner.LiveApi.RoomCache
import TiktokSigner.SignCore.PercentCode

/-!
# The relay

`relay` of `relay.rs`: one loop copies the browser's frames to TikTok, the
other TikTok's to the browser, and the first of them to end takes the other
with it. Time is counted in ticks; a timer that is due fires before the next
one. A frame that a send failed on, or that was being sent when the relay
closed, may have arrived or not.

The close codes of the TikTok side are a parameter, and so is how the HTTP
client reads a URL.
-/

namespace TiktokSigner.LiveApi.Relay

/-! ## Frames -/

/-- `CloseCode` and its two conversions. -/
structure CloseCodes (Code : Type) where
  ofU16 : UInt16 → Code
  toU16 : Code → UInt16

inductive BrowserMessage where
  | text (text : String)
  | binary (bytes : List UInt8)
  | ping (bytes : List UInt8)
  | pong (bytes : List UInt8)
  | close (frame : Option (UInt16 × String))
deriving DecidableEq

inductive TiktokMessage (Code : Type) where
  | text (text : String)
  | binary (bytes : List UInt8)
  | ping (bytes : List UInt8)
  | pong (bytes : List UInt8)
  | close (frame : Option (Code × String))
  /-- A raw frame. -/
  | frame (bytes : List UInt8)
deriving DecidableEq

section Frames

variable {Code : Type} (codes : CloseCodes Code)

def toTiktok : BrowserMessage → Option (TiktokMessage Code)
  | .text text => some (.text text)
  | .binary bytes => some (.binary bytes)
  | .ping bytes => some (.ping bytes)
  | .pong bytes => some (.pong bytes)
  | .close frame => some (.close (frame.map fun (code, reason) => (codes.ofU16 code, reason)))

def toBrowser : TiktokMessage Code → Option BrowserMessage
  | .text text => some (.text text)
  | .binary bytes => some (.binary bytes)
  | .ping bytes => some (.ping bytes)
  | .pong bytes => some (.pong bytes)
  | .close frame => some (.close (frame.map fun (code, reason) => (codes.toU16 code, reason)))
  | .frame _ => none

/-- Nothing of a browser's frame is lost on the way. -/
theorem toBrowser_toTiktok (hcodes : ∀ code, codes.toU16 (codes.ofU16 code) = code)
    (message : BrowserMessage) :
    (toTiktok codes message).bind (toBrowser codes) = some message := by
  cases message with
  | close frame =>
    cases frame with
    | none => rfl
    | some frame => simp [toTiktok, toBrowser, hcodes]
  | _ => rfl

end Frames

/-! ## One loop -/

inductive Phase (β : Type) where
  /-- In `next`. -/
  | receiving
  /-- In `send`. -/
  | sending (message : β)
  | finished
deriving DecidableEq

/-- A loop and its two streams. -/
structure Pump (α β : Type) where
  /-- Not in the source: what was sent to it. -/
  sent : List α := []
  /-- Not in the source: how much of that it has read. -/
  read : Nat := 0
  /-- Not in the source: when it read last, or was started. -/
  heard : Nat
  phase : Phase β := .receiving
  /-- When the timer of the phase is due. -/
  due : Nat
  delivered : List β := []

inductive PumpEvent where
  | receive
  /-- The stream ends, or fails. -/
  | gone
  | idle
  | send
  /-- The send fails. -/
  | refuse (arrived : Bool)
  /-- The send takes too long. -/
  | late (arrived : Bool)

structure Timeouts where
  idle : Nat
  write : Nat

namespace Pump

variable {α β : Type} (convert : α → Option β) (timeouts : Timeouts) (now : Nat)
variable (p : Pump α β)

/-- The top of the loop. -/
def again : Pump α β := { p with phase := .receiving, due := now + timeouts.idle }

/-- The loop ends, in the middle of a send or not. -/
def finish (arrived : Bool) : Pump α β :=
  match p.phase with
  | .sending message =>
      { p with
        phase := .finished
        delivered := if arrived then p.delivered ++ [message] else p.delivered }
  | _ => { p with phase := .finished }

/-- What the loop does on an event, and whether it ends there. -/
def step : PumpEvent → Option (Pump α β × Bool)
  | .receive =>
      match p.phase, p.sent[p.read]? with
      | .receiving, some message =>
          let p := { p with read := p.read + 1, heard := now }
          match convert message with
          | none => some (p.again timeouts now, false)
          | some message =>
              some ({ p with phase := .sending message, due := now + timeouts.write }, false)
      | _, _ => none
  | .gone => if p.phase matches .receiving then some (p.finish false, true) else none
  | .idle =>
      if p.phase matches .receiving ∧ p.due ≤ now then some (p.finish false, true) else none
  | .send =>
      match p.phase with
      | .sending message =>
          some ({ p with delivered := p.delivered ++ [message] }.again timeouts now, false)
      | _ => none
  | .refuse arrived =>
      match p.phase with
      | .sending _ => some (p.finish arrived, true)
      | _ => none
  | .late arrived =>
      match p.phase with
      | .sending _ => if p.due ≤ now then some (p.finish arrived, true) else none
      | _ => none

end Pump

/-! ## The relay -/

section Relay

variable {Code : Type}

structure Config (Code : Type) where
  codes : CloseCodes Code
  timeouts : Timeouts

structure State (Code : Type) where
  now : Nat
  isOpen : Bool := true
  /-- From the browser to TikTok. -/
  up : Pump BrowserMessage (TiktokMessage Code)
  /-- From TikTok to the browser. -/
  down : Pump (TiktokMessage Code) BrowserMessage

inductive Action (Code : Type) where
  | browser (message : BrowserMessage)
  | tiktok (message : TiktokMessage Code)
  /-- `arrived` is about the frame that the other loop is sending. -/
  | up (event : PumpEvent) (arrived : Bool)
  | down (event : PumpEvent) (arrived : Bool)
  | tick

variable (config : Config Code)

def start (now : Nat) : State Code where
  now
  up := { heard := now, due := now + config.timeouts.idle }
  down := { heard := now, due := now + config.timeouts.idle }

def step (s : State Code) : Action Code → Option (State Code)
  | .browser message => some { s with up := { s.up with sent := s.up.sent ++ [message] } }
  | .tiktok message => some { s with down := { s.down with sent := s.down.sent ++ [message] } }
  | .up event arrived =>
      if s.isOpen then
        (s.up.step (toTiktok config.codes) config.timeouts s.now event).map fun
          | (up, false) => { s with up }
          | (up, true) => { s with up, isOpen := false, down := s.down.finish arrived }
      else none
  | .down event arrived =>
      if s.isOpen then
        (s.down.step (toBrowser config.codes) config.timeouts s.now event).map fun
          | (down, false) => { s with down }
          | (down, true) => { s with down, isOpen := false, up := s.up.finish arrived }
      else none
  | .tick =>
      if s.isOpen ∧ (s.up.due ≤ s.now ∨ s.down.due ≤ s.now) then none
      else some { s with now := s.now + 1 }

end Relay

/-! ## What a loop delivers -/

namespace Pump

variable {α β : Type} {convert : α → Option β} {timeouts : Timeouts} {now : Nat}
variable {p p' : Pump α β} {event : PumpEvent} {ends : Bool}

/-- What becomes of the frames that a loop has read. -/
def passed (convert : α → Option β) (p : Pump α β) : List β :=
  (p.sent.take p.read).filterMap convert

/-- All that was read is delivered, but for one frame, which is being sent
or is lost. -/
structure Relayed (convert : α → Option β) (p : Pump α β) : Prop where
  read_le : p.read ≤ p.sent.length
  delivered : ∃ rest, rest.length ≤ 1 ∧ p.delivered ++ rest = p.passed convert
    ∧ (p.phase = .receiving → rest = []) ∧ ∀ message, p.phase = .sending message → rest = [message]

theorem relayed_start (heard due : Nat) : Relayed convert ({ heard, due } : Pump α β) where
  read_le := Nat.le_refl _
  delivered := ⟨[], Nat.zero_le _, by simp [passed], fun _ => rfl, fun _ h => by cases h⟩

/-- More is sent to a loop. -/
theorem Relayed.sent (h : Relayed convert p) (message : α) :
    Relayed convert { p with sent := p.sent ++ [message] } := by
  refine ⟨?_, ?_⟩
  · rw [List.length_append]
    exact Nat.le_add_right_of_le h.read_le
  · obtain ⟨rest, hrest, hpassed, hphase⟩ := h.delivered
    refine ⟨rest, hrest, ?_, hphase⟩
    rw [hpassed, passed, passed, List.take_append_of_le_length h.read_le]

/-- One more frame is read. -/
theorem passed_read (convert : α → Option β) {message : α} (hget : p.sent[p.read]? = some message) :
    (p.sent.take (p.read + 1)).filterMap convert
      = p.passed convert ++ (convert message).toList := by
  rw [List.take_add_one, hget, List.filterMap_append, passed]
  cases h : convert message <;> simp [h]

theorem Relayed.finish (h : Relayed convert p) (arrived : Bool) :
    Relayed convert (p.finish arrived) := by
  obtain ⟨rest, hrest, hpassed, hreceiving, hsending⟩ := h.delivered
  cases hphase : p.phase with
  | sending message =>
    obtain rfl := hsending message hphase
    have hfinish : p.finish arrived = { p with
        phase := .finished
        delivered := if arrived then p.delivered ++ [message] else p.delivered } := by
      rw [Pump.finish, hphase]
    rw [hfinish]
    cases arrived with
    | true =>
      refine ⟨h.read_le, [], Nat.zero_le _, ?_, by simp, by simp⟩
      rw [List.append_nil]
      exact hpassed
    | false => exact ⟨h.read_le, [message], hrest, hpassed, by simp, by simp⟩
  | _ =>
    have hfinish : p.finish arrived = { p with phase := .finished } := by
      rw [Pump.finish, hphase]
    rw [hfinish]
    exact ⟨h.read_le, rest, hrest, hpassed, by simp, by simp⟩

/-- What an event does to a loop: it reads, it has sent, or it ends. -/
theorem step_cases (h : p.step convert timeouts now event = some (p', ends)) :
    (∃ message, p.phase = .receiving ∧ p.sent[p.read]? = some message ∧ ends = false
      ∧ ((convert message = none
          ∧ p' = ({ p with read := p.read + 1, heard := now } : Pump α β).again timeouts now)
        ∨ ∃ out, convert message = some out ∧ p' = { p with
            read := p.read + 1, heard := now, phase := .sending out, due := now + timeouts.write }))
    ∨ (∃ message, p.phase = .sending message ∧ ends = false
      ∧ p' = ({ p with delivered := p.delivered ++ [message] } : Pump α β).again timeouts now)
    ∨ ∃ arrived, ends = true ∧ p' = p.finish arrived := by
  cases event with
  | receive =>
    left
    simp only [step] at h
    split at h
    · rename_i message hphase hget
      refine ⟨message, hphase, hget, ?_⟩
      split at h
      · rename_i hconvert
        cases h
        exact ⟨rfl, Or.inl ⟨hconvert, rfl⟩⟩
      · rename_i out hconvert
        cases h
        exact ⟨rfl, Or.inr ⟨out, hconvert, rfl⟩⟩
    · cases h
  | send =>
    right; left
    simp only [step] at h
    split at h
    · rename_i message hphase
      cases h
      exact ⟨message, hphase, rfl, rfl⟩
    · cases h
  | gone =>
    right; right
    simp only [step] at h
    split_ifs at h
    cases h
    exact ⟨false, rfl, rfl⟩
  | idle =>
    right; right
    simp only [step] at h
    split_ifs at h
    cases h
    exact ⟨false, rfl, rfl⟩
  | refuse arrived =>
    right; right
    simp only [step] at h
    split at h
    · cases h
      exact ⟨arrived, rfl, rfl⟩
    · cases h
  | late arrived =>
    right; right
    simp only [step] at h
    split at h
    · split_ifs at h
      cases h
      exact ⟨arrived, rfl, rfl⟩
    · cases h

theorem Relayed.step (h : Relayed convert p)
    (hstep : p.step convert timeouts now event = some (p', ends)) : Relayed convert p' := by
  rcases step_cases hstep with ⟨message, hphase, hget, -, hread⟩ | ⟨message, hphase, -, rfl⟩
    | ⟨arrived, -, rfl⟩
  · have hlt : p.read < p.sent.length := (List.getElem?_eq_some_iff.mp hget).1
    obtain ⟨rest, -, hpassed, hreceiving, -⟩ := h.delivered
    obtain rfl := hreceiving hphase
    rw [List.append_nil] at hpassed
    rcases hread with ⟨hconvert, rfl⟩ | ⟨out, hconvert, rfl⟩
    · refine ⟨hlt, [], Nat.zero_le _, ?_, fun _ => rfl, by simp [again]⟩
      have hnext := passed_read convert hget
      rw [hconvert, Option.toList_none, List.append_nil] at hnext
      rw [List.append_nil]
      exact hpassed.trans hnext.symm
    · refine ⟨hlt, [out], Nat.le_refl _, ?_, by simp, by simp⟩
      have hnext := passed_read convert hget
      rw [hconvert, Option.toList_some] at hnext
      exact (congrArg (· ++ [out]) hpassed).trans hnext.symm
  · obtain ⟨rest, -, hpassed, -, hsending⟩ := h.delivered
    obtain rfl := hsending message hphase
    refine ⟨h.read_le, [], Nat.zero_le _, ?_, fun _ => rfl, by simp [again]⟩
    rw [List.append_nil]
    exact hpassed
  · exact h.finish arrived

/-! ## When a loop ends -/

/-- The timer of a loop is not overdue, and was set for a frame read not long
ago. -/
structure Timely (timeouts : Timeouts) (now : Nat) (p : Pump α β) : Prop where
  runs : p.phase ≠ .finished
  now_le : now ≤ p.due
  heard_le : p.heard ≤ now
  due_le : p.due ≤ p.heard + timeouts.write + timeouts.idle
  sending_le : ∀ message, p.phase = .sending message → p.due ≤ p.heard + timeouts.write

theorem Timely.sent (h : Timely timeouts now p) (message : α) :
    Timely timeouts now { p with sent := p.sent ++ [message] } :=
  ⟨h.runs, h.now_le, h.heard_le, h.due_le, h.sending_le⟩

theorem Timely.step (h : Timely timeouts now p)
    (hstep : p.step convert timeouts now event = some (p', false)) : Timely timeouts now p' := by
  have hnow := h.now_le
  have hheard := h.heard_le
  rcases step_cases hstep with ⟨message, -, -, -, ⟨-, rfl⟩ | ⟨out, -, rfl⟩⟩
    | ⟨message, hphase, -, rfl⟩ | ⟨arrived, hends, -⟩
  · exact ⟨by simp [again], Nat.le_add_right .., Nat.le_refl _, by simp only [again]; omega,
      by simp [again]⟩
  · exact ⟨by simp, Nat.le_add_right .., Nat.le_refl _, Nat.le_add_right ..,
      fun _ _ => Nat.le_refl _⟩
  · have hdue := h.sending_le message hphase
    exact ⟨by simp [again], Nat.le_add_right .., hheard, by simp only [again]; omega,
      by simp [again]⟩
  · cases hends

theorem Timely.tick (h : Timely timeouts now p) (hdue : ¬p.due ≤ now) :
    Timely timeouts (now + 1) p :=
  ⟨h.runs, by omega, Nat.le_succ_of_le h.heard_le, h.due_le, h.sending_le⟩

/-- What is delivered is a beginning of what was sent. -/
theorem Relayed.delivered_le (h : Relayed convert p) :
    p.delivered <+: p.sent.filterMap convert := by
  obtain ⟨rest, -, hpassed, -⟩ := h.delivered
  have hread : p.passed convert <+: p.sent.filterMap convert :=
    (List.take_prefix p.read p.sent).filterMap convert
  exact (List.prefix_append p.delivered rest).trans (hpassed ▸ hread)

end Pump

/-! ## Every run -/

section Runs

variable {Code : Type} {config : Config Code} {s s' : State Code}

structure Inv (config : Config Code) (s : State Code) : Prop where
  up : s.up.Relayed (toTiktok config.codes)
  down : s.down.Relayed (toBrowser config.codes)
  timely : s.isOpen = true →
    s.up.Timely config.timeouts s.now ∧ s.down.Timely config.timeouts s.now

theorem inv_start (config : Config Code) (now : Nat) : Inv config (start config now) where
  up := Pump.relayed_start _ _
  down := Pump.relayed_start _ _
  timely _ := ⟨⟨nofun, Nat.le_add_right .., Nat.le_refl _, by simp only [start]; omega, nofun⟩,
    ⟨nofun, Nat.le_add_right .., Nat.le_refl _, by simp only [start]; omega, nofun⟩⟩

theorem inv_step {action : Action Code} (hinv : Inv config s)
    (h : step config s action = some s') : Inv config s' := by
  cases action with
  | browser message =>
    cases h
    exact ⟨hinv.up.sent message, hinv.down, fun hopen => ⟨(hinv.timely hopen).1.sent message,
      (hinv.timely hopen).2⟩⟩
  | tiktok message =>
    cases h
    exact ⟨hinv.up, hinv.down.sent message, fun hopen => ⟨(hinv.timely hopen).1,
      (hinv.timely hopen).2.sent message⟩⟩
  | up event arrived =>
    simp only [step] at h
    split_ifs at h with hopen
    obtain ⟨⟨up, ends⟩, hstep, hmoved⟩ := Option.map_eq_some_iff.mp h
    cases ends with
    | false =>
      cases hmoved
      exact ⟨hinv.up.step hstep, hinv.down, fun _ => ⟨(hinv.timely hopen).1.step hstep,
        (hinv.timely hopen).2⟩⟩
    | true =>
      cases hmoved
      exact ⟨hinv.up.step hstep, hinv.down.finish arrived, nofun⟩
  | down event arrived =>
    simp only [step] at h
    split_ifs at h with hopen
    obtain ⟨⟨down, ends⟩, hstep, hmoved⟩ := Option.map_eq_some_iff.mp h
    cases ends with
    | false =>
      cases hmoved
      exact ⟨hinv.up, hinv.down.step hstep, fun _ => ⟨(hinv.timely hopen).1,
        (hinv.timely hopen).2.step hstep⟩⟩
    | true =>
      cases hmoved
      exact ⟨hinv.up.finish arrived, hinv.down.step hstep, nofun⟩
  | tick =>
    simp only [step] at h
    split_ifs at h with hdue
    cases h
    refine ⟨hinv.up, hinv.down, fun hopen => ?_⟩
    obtain ⟨hup, hdown⟩ := not_or.mp fun hdue' => hdue ⟨hopen, hdue'⟩
    exact ⟨(hinv.timely hopen).1.tick hup, (hinv.timely hopen).2.tick hdown⟩

theorem inv_run {now : Nat} {actions : List (Action Code)}
    (h : Lts.run (step config) (start config now) actions = some s) : Inv config s :=
  Lts.run_invariant_all (fun _ _ _ => inv_step) (inv_start config now) h

/-- In every run each side has received, in order, what the other side sent
up to some point. The relay has read to there, or one frame further, which
it is sending or has lost. -/
theorem relayed {now : Nat} {actions : List (Action Code)}
    (h : Lts.run (step config) (start config now) actions = some s) :
    s.up.Relayed (toTiktok config.codes) ∧ s.down.Relayed (toBrowser config.codes)
      ∧ s.up.delivered <+: s.up.sent.filterMap (toTiktok config.codes)
      ∧ s.down.delivered <+: s.down.sent.filterMap (toBrowser config.codes) :=
  ⟨(inv_run h).up, (inv_run h).down, (inv_run h).up.delivered_le,
    (inv_run h).down.delivered_le⟩

/-- Close codes that are their numbers. -/
def sampleConfig : Config UInt16 := ⟨⟨id, id⟩, ⟨60, 10⟩⟩

/-- The browser enters and sends a heartbeat, which is on its way when
TikTok goes away. -/
def sampleActions : List (Action UInt16) :=
  [.browser (.text "enter"), .tick, .up .receive false, .up .send false, .tiktok (.frame []),
    .tiktok (.binary [1]), .down .receive false, .down .receive false, .down .send false,
    .browser (.text "hb"), .up .receive false, .down .gone false]

theorem relayed_sample : ∃ s, Lts.run (step sampleConfig) (start sampleConfig 0) sampleActions
      = some s
    ∧ (s.up.delivered = [.text "enter"] ∧ s.down.delivered = [.binary [1]])
    ∧ s.up.Relayed (toTiktok sampleConfig.codes) ∧ s.down.Relayed (toBrowser sampleConfig.codes)
    ∧ s.up.delivered <+: s.up.sent.filterMap (toTiktok sampleConfig.codes)
    ∧ s.down.delivered <+: s.down.sent.filterMap (toBrowser sampleConfig.codes) :=
  Lts.exists_run (P := fun s : State UInt16 =>
      s.up.delivered = [.text "enter"] ∧ s.down.delivered = [.binary [1]]) (by decide)
    fun _ hrun h => ⟨h, relayed hrun⟩

/-- The frames that TikTok has got tell what the browser sent, but for one
that the relay has read. -/
theorem frames_return {now : Nat} {actions : List (Action Code)}
    (hcodes : ∀ code, config.codes.toU16 (config.codes.ofU16 code) = code)
    (h : Lts.run (step config) (start config now) actions = some s) :
    ∃ n, s.up.read ≤ n + 1 ∧ n ≤ s.up.read ∧ s.up.read ≤ s.up.sent.length
      ∧ s.up.delivered.filterMap (toBrowser config.codes) = s.up.sent.take n := by
  have hup := (inv_run h).up
  obtain ⟨rest, hrest, hpassed, -⟩ := hup.delivered
  have hback : (s.up.passed (toTiktok config.codes)).filterMap (toBrowser config.codes)
      = s.up.sent.take s.up.read := by
    rw [Pump.passed, List.filterMap_filterMap]
    simp only [toBrowser_toTiktok config.codes hcodes, List.filterMap_some]
  rw [← hpassed, List.filterMap_append] at hback
  have hfilter := (List.length_filterMap_le (toBrowser config.codes) rest).trans hrest
  have hlength := congrArg List.length hback
  rw [List.length_append, List.length_take, Nat.min_eq_left hup.read_le] at hlength
  refine ⟨(s.up.delivered.filterMap (toBrowser config.codes)).length, by omega, by omega,
    hup.read_le, ?_⟩
  have htake := congrArg (List.take
    (s.up.delivered.filterMap (toBrowser config.codes)).length) hback
  rwa [List.take_left, List.take_take, Nat.min_eq_left (by omega)] at htake

theorem frames_return_sample : ∃ s, Lts.run (step sampleConfig) (start sampleConfig 0)
      sampleActions = some s
    ∧ ∃ n, s.up.read ≤ n + 1 ∧ n ≤ s.up.read ∧ s.up.read ≤ s.up.sent.length
      ∧ s.up.delivered.filterMap (toBrowser sampleConfig.codes) = s.up.sent.take n :=
  Lts.exists_run (P := fun s : State UInt16 => s.isOpen = false) (by decide)
    fun _ hrun _ => frames_return (fun _ => rfl) hrun

end Runs

/-! ## The TikTok leg -/

open TiktokSigner.Text Utf8 Percent

structure ConnectionDescriptor where
  url : String
  cookies : String
  userAgent : String

/-- What the HTTP client accepts. -/
structure HttpClient (Uri : Type) where
  intoClientRequest : String → Option Uri
  isHeaderValue : String → Bool

structure TiktokRequest (Uri : Type) where
  uri : Uri
  cookie : String
  userAgent : String
  origin : String

/-- `url.replace(' ', "%20")`. -/
def normalized (url : String) : String :=
  String.ofList (replace [' '] "%20".toList url.toList)

def tiktokRequest {Uri : Type} (client : HttpClient Uri) (descriptor : ConnectionDescriptor) :
    Except ApiError (TiktokRequest Uri) :=
  if ¬"wss://".toList.isPrefixOf descriptor.url.toList
      ∧ ¬"ws://".toList.isPrefixOf descriptor.url.toList then
    .error (.internal "live descriptor has an unsupported scheme")
  else
    match client.intoClientRequest (normalized descriptor.url) with
    | none => .error (.internal "live descriptor URL is invalid")
    | some uri =>
        if client.isHeaderValue descriptor.cookies ∧ client.isHeaderValue descriptor.userAgent then
          .ok
            { uri
              cookie := descriptor.cookies
              userAgent := descriptor.userAgent
              origin := "https://www.tiktok.com" }
        else .error (.internal "live descriptor headers are invalid")

/-- A blank byte is a blank character. -/
theorem escape_encodeChar {c : Char} (hc : c ≠ ' ') :
    escape (· ≠ 32) (String.utf8EncodeChar c) = String.utf8EncodeChar c := by
  have hkeep : ∀ b ∈ String.utf8EncodeChar c, b ≠ 32 := by
    rintro b hb rfl
    exact hc (ofNat_of_encodeChar (encodeChar_of_mem (by decide) hb)).symm
  generalize String.utf8EncodeChar c = bytes at hkeep ⊢
  induction bytes with
  | nil => rfl
  | cons b bytes ih =>
    rw [escape_cons, if_pos (by simpa using hkeep b List.mem_cons_self), List.singleton_append,
      ih fun a ha => hkeep a (List.mem_cons_of_mem b ha)]

/-- On the bytes, the blanks are escaped. -/
theorem encode_normalized (text : List Char) :
    encode (replace [' '] "%20".toList text) = escape (· ≠ 32) (encode text) := by
  have hblank : [' '] ≠ [] := by simp
  induction text using replace_rec hblank with
  | nil => rfl
  | hit rest ih =>
    rw [replace_append (by simp), encode_append, ih, List.singleton_append, encode_cons]
    rfl
  | miss c text hmiss ih =>
    have hc : c ≠ ' ' := by
      rintro rfl
      exact hmiss (List.prefix_append [' '] text)
    rw [replace_cons hmiss, encode_cons, ih, encode_cons, escape, escape, List.flatMap_append,
      ← escape, ← escape, escape_encodeChar hc]

theorem blank_notMem_normalized (url : String) : ' ' ∉ (normalized url).toList := by
  rw [normalized, String.toList_ofList]
  have hblank : [' '] ≠ [] := by simp
  induction url.toList using replace_rec hblank with
  | nil => simp
  | hit rest ih =>
    rw [replace_append (by simp), List.mem_append, not_or]
    exact ⟨by decide, ih⟩
  | miss c text hmiss ih =>
    rw [replace_cons hmiss, List.mem_cons, not_or]
    refine ⟨?_, ih⟩
    rintro rfl
    exact hmiss (List.prefix_append [' '] text)

theorem normalized_of_notMem {url : String} (h : ' ' ∉ url.toList) : normalized url = url := by
  have hinside : ¬[' '] <:+: url.toList := fun hinside => h (hinside.subset List.mem_cons_self)
  rw [normalized, replace_eq_self hinside, String.ofList_toList]

theorem unescape_normalized (url : String) :
    unescape (encode (normalized url).toList) = unescape (encode url.toList) := by
  have hdigit : ∀ b : UInt8, (hexValue b).isSome → decide (b ≠ 32) = true := by
    intro b hb
    refine decide_eq_true ?_
    rintro rfl
    exact absurd hb (by decide)
  rw [normalized, String.toList_ofList, encode_normalized,
    unescape_escape_kept (by decide) hdigit]

/-- TikTok is dialed with the headers of the ticket, at a socket URL without
a blank that decodes to what was signed. -/
theorem dialed_of_tiktokRequest {Uri : Type} {client : HttpClient Uri}
    {descriptor : ConnectionDescriptor} {request : TiktokRequest Uri}
    (h : tiktokRequest client descriptor = .ok request) :
    (∃ wire, client.intoClientRequest wire = some request.uri ∧ ' ' ∉ wire.toList
      ∧ unescape (encode wire.toList) = unescape (encode descriptor.url.toList)
      ∧ (' ' ∉ descriptor.url.toList → wire = descriptor.url))
    ∧ ("wss://".toList <+: descriptor.url.toList ∨ "ws://".toList <+: descriptor.url.toList)
    ∧ request.cookie = descriptor.cookies ∧ request.userAgent = descriptor.userAgent := by
  cases huri : client.intoClientRequest (normalized descriptor.url) with
  | none =>
    simp only [tiktokRequest, huri] at h
    split_ifs at h
  | some uri =>
    simp only [tiktokRequest, huri] at h
    split_ifs at h with hscheme
    cases h
    refine ⟨⟨normalized descriptor.url, huri, blank_notMem_normalized _, unescape_normalized _,
      normalized_of_notMem⟩, ?_, rfl, rfl⟩
    rw [not_and_or, not_not, not_not, List.isPrefixOf_iff_prefix, List.isPrefixOf_iff_prefix]
      at hscheme
    exact hscheme

theorem dialed_of_tiktokRequest_blank :
    ∃ request, tiktokRequest ⟨some, fun _ => true⟩ ⟨"wss://h/?p=Linux x86", "ttwid=1", "ua"⟩
        = .ok request
      ∧ ∃ wire, some wire = some request.uri ∧ ' ' ∉ wire.toList := by
  have hrequest : tiktokRequest ⟨some, fun _ => true⟩ ⟨"wss://h/?p=Linux x86", "ttwid=1", "ua"⟩
      = .ok ⟨"wss://h/?p=Linux%20x86", "ttwid=1", "ua", "https://www.tiktok.com"⟩ := by rfl
  obtain ⟨⟨wire, hwire, hblank, -⟩, -⟩ := dialed_of_tiktokRequest hrequest
  exact ⟨_, hrequest, wire, hwire, hblank⟩

end TiktokSigner.LiveApi.Relay
