import TiktokSigner.Lib.Lts
import Mathlib.Logic.Function.Basic

/-!
# `LiveSessionManager`

The session manager of the Android app. What runs on the main dispatcher
runs from one suspension point to the next in one step; the discovery, the
transport and the connections decide how a suspended call comes back. The
listener's `onEvent` runs on a thread of the transport: its look at the
generation, its `tryEmit` and its `disconnect` are steps of their own.

The mutex may let any of its waiters in (the real one serves them in
order).
-/

namespace TiktokSigner.Android

open Function (update)

/-! ## Data -/

structure Creator where
  uniqueId : String
  roomId : String
  nickname : String
  title : String
  avatarUrl : String
  coverUrl : String
  viewers : Int
deriving DecidableEq, Repr

inductive LiveSessionState where
  | disconnected
  | resolving (username : String)
  | preparing (creator : Creator)
  | connecting (creator : Creator)
  | connected (creator : Creator)
  | reconnecting (creator : Creator) (attempt : Nat)
  | failed (message : String)
deriving DecidableEq, Repr

namespace LiveSessionState

def creator : LiveSessionState → Option Creator
  | preparing c | connecting c | connected c | reconnecting c _ => some c
  | disconnected | resolving _ | failed _ => none

def isActive : LiveSessionState → Bool
  | disconnected | failed _ => false
  | resolving _ | preparing _ | connecting _ | connected _ | reconnecting _ _ => true

end LiveSessionState

/-- `isWhitespace`. -/
def isWhitespace (c : Char) : Bool :=
  let n := c.toNat
  (9 ≤ n && n ≤ 13) || (28 ≤ n && n ≤ 32) || n = 0xa0 || n = 0x1680 ||
    (0x2000 ≤ n && n ≤ 0x200a) || n = 0x2028 || n = 0x2029 || n = 0x202f || n = 0x205f ||
    n = 0x3000

def ifBlank (text default : String) : String :=
  if text.toList.all isWhitespace then default else text

/-- `removePrefix("@")`. -/
def removeAt (username : String) : String :=
  match username.toList with
  | '@' :: rest => String.ofList rest
  | _ => username

/-- What the preview knows of the room that was found. -/
def withPreview (found : Creator) : Option Creator → Creator
  | some preview =>
      if preview.roomId = found.roomId then
        { found with
          avatarUrl := preview.avatarUrl
          coverUrl := preview.coverUrl
          viewers := preview.viewers
          title := ifBlank found.title preview.title }
      else found
  | none => found

/-! ## Jobs -/

/-- How a suspended call comes back. -/
inductive Outcome (α : Type) where
  | returned (value : α)
  | threw (message : Option String)
  /-- With a `CancellationException`. -/
  | cancelled
deriving DecidableEq, Repr

inductive Kind where
  | connect (token : Nat) (username : String) (preview : Option Creator)
  | disconnect
  /-- A call of `close`, which no other call cancels. -/
  | close
deriving DecidableEq, Repr

/-- Where a job is suspended. -/
inductive Phase where
  /-- Not started, or at the mutex. -/
  | waiting
  /-- In the `disconnect` of the old connection. -/
  | releasing
  /-- In `discovery.resolve`. -/
  | resolving
  /-- In `discovery.cookies`. -/
  | cookies (creator : Creator)
  /-- In `transport.connect`. -/
  | opening (creator : Creator)
  /-- In the `disconnect` of a connection that came too late. -/
  | dropping
  | done
deriving DecidableEq, Repr

structure Job where
  kind : Kind
  phase : Phase
  cancelled : Bool
deriving DecidableEq, Repr

/-! ## The state -/

/-- What a callback has done, with the generation it did it in. -/
structure Effect where
  token : Nat
  generation : Nat
deriving DecidableEq, Repr

structure Manager where
  state : LiveSessionState := .disconnected
  connection : Option Nat := none
  operation : Option Nat := none
  generation : Nat := 0
  attempts : Nat := 0
  /-- The room of the keep-alive hold, while it is held. -/
  hold : Option String := none
  jobs : Nat → Job := fun _ => ⟨.disconnect, .done, false⟩
  launched : Nat := 0
  /-- The job that holds the mutex. -/
  holder : Option Nat := none
  /-- Connections are numbered as `transport.connect` returns them. -/
  opened : Nat := 0
  disconnects : Nat → Nat := fun _ => 0
  /-- The creator of each session whose listener the transport has. -/
  listener : Nat → Option Creator := fun _ => none
  /-- Calls of `onEvent` that have found their token current. -/
  emitting : List (Nat × String) := []
  /-- Calls of `onEvent` that are about to call `disconnect`. -/
  overloaded : List Nat := []
  /-- The coroutines that `onState` has launched. -/
  posted : List (Nat × String × String) := []
  /-- Not in the source: what callbacks have done to the state, the events
  and the session. -/
  effects : List Effect := []

inductive Action where
  | connect (username : String) (preview : Option Creator)
  | disconnect (reason : String) (failed : Bool)
  | onBackground (backgroundEnabled : Bool)
  | refreshNotification (backgroundEnabled : Bool)
  | close
  /-- The coroutine that called `close` is cancelled. -/
  | cancelClose (job : Nat)
  /-- A waiting job is dispatched or let in by the mutex. -/
  | lock (job : Nat)
  | released (job : Nat)
  | resolved (job : Nat) (outcome : Outcome Creator)
  | gotCookies (job : Nat) (outcome : Outcome String) (backgroundEnabled : Bool)
  | opened (job : Nat) (outcome : Outcome Unit)
  | dropped (job : Nat)
  | onEvent (token : Nat) (json : String)
  | emit (k : Nat) (accepted : Bool)
  | overload (k : Nat)
  | onState (token : Nat) (kind detail : String)
  | handleState (k : Nat) (reconnectEnabled backgroundEnabled : Bool)
deriving DecidableEq, Repr

namespace Manager

variable (s : Manager)

def setPhase (job : Nat) (phase : Phase) : Manager :=
  { s with jobs := update s.jobs job { s.jobs job with phase := phase } }

/-- The job leaves the mutex, if it is in it, and ends. -/
def finish (job : Nat) : Manager := { s.setPhase job .done with holder := none }

def cancelOperation : Manager :=
  match s.operation with
  | some job => { s with jobs := update s.jobs job { s.jobs job with cancelled := true } }
  | none => s

def launch (kind : Kind) : Manager :=
  { s with
    jobs := update s.jobs s.launched ⟨kind, .waiting, false⟩
    operation := some s.launched
    launched := s.launched + 1 }

/-! ## Calls on the main dispatcher -/

def connectCall (username : String) (preview : Option Creator) : Manager :=
  let s := s.cancelOperation
  let token := s.generation + 1
  { s with
    generation := token
    attempts := 0
    state := .resolving (removeAt username) }.launch (.connect token username preview)

def disconnectCall (reason : String) (failed : Bool) : Manager :=
  let s := s.cancelOperation
  { s with
    generation := s.generation + 1
    state := if failed then .failed reason else .disconnected
    hold := none }.launch .disconnect

def refreshNotification (backgroundEnabled : Bool) : Manager :=
  match s.state.creator with
  | none => s
  | some creator => { s with hold := if backgroundEnabled then some creator.roomId else none }

/-- The job has the mutex: it takes the connection. -/
def takeConnection (job : Nat) : Manager :=
  match s.connection with
  | some old =>
      { s.setPhase job .releasing with
        connection := none
        holder := some job
        disconnects := update s.disconnects old (s.disconnects old + 1) }
  | none =>
      match (s.jobs job).kind with
      | .connect _ _ _ => { s.setPhase job .resolving with holder := some job }
      | .disconnect | .close => s.finish job

/-- `close`, up to its first suspension. -/
def closeCall : Manager :=
  let s := s.cancelOperation
  let job := s.launched
  let s := { s with
    generation := s.generation + 1
    state := .disconnected
    hold := none
    jobs := update s.jobs job ⟨.close, .waiting, false⟩
    launched := job + 1 }
  if s.holder = none then s.takeConnection job else s

/-! ## Jobs -/

/-- The handler of `Exception`, after the mutex is left. -/
def failWith (job token : Nat) (message : Option String) : Manager :=
  let s := s.finish job
  if token = s.generation then
    { s with state := .failed (message.getD "Connection failed"), hold := none }
  else s

def lockStep (job : Nat) : Option Manager :=
  if (s.jobs job).phase = .waiting then
    if (s.jobs job).cancelled then some (s.setPhase job .done)
    else if s.holder = none then some (s.takeConnection job)
    else none
  else none

def releasedStep (job : Nat) : Option Manager :=
  match (s.jobs job).phase, (s.jobs job).kind with
  | .releasing, .connect _ _ _ =>
      -- `ensureActive`
      some (if (s.jobs job).cancelled then s.finish job else s.setPhase job .resolving)
  | .releasing, .disconnect | .releasing, .close => some (s.finish job)
  | _, _ => none

def resolvedStep (job : Nat) (outcome : Outcome Creator) : Option Manager :=
  match (s.jobs job).phase, (s.jobs job).kind with
  | .resolving, .connect token _ preview =>
      match outcome with
      | .returned found =>
          let creator := withPreview found preview
          if token ≠ s.generation then some (s.finish job)
          else some { s.setPhase job (.cookies creator) with state := .preparing creator }
      | .threw message => some (s.failWith job token message)
      | .cancelled => some (s.finish job)
  | _, _ => none

def gotCookiesStep (job : Nat) (outcome : Outcome String) (backgroundEnabled : Bool) :
    Option Manager :=
  match (s.jobs job).phase, (s.jobs job).kind with
  | .cookies creator, .connect token _ _ =>
      match outcome with
      | .returned _ =>
          if (s.jobs job).cancelled then some (s.finish job)
          else if token ≠ s.generation then some (s.finish job)
          else
            some { s.setPhase job (.opening creator) with
              state := .connecting creator
              hold := if backgroundEnabled then some creator.roomId else s.hold
              listener := update s.listener token (some creator) }
      | .threw message => some (s.failWith job token message)
      | .cancelled => some (s.finish job)
  | _, _ => none

def openedStep (job : Nat) (outcome : Outcome Unit) : Option Manager :=
  match (s.jobs job).phase, (s.jobs job).kind with
  | .opening _, .connect token _ _ =>
      match outcome with
      | .returned () =>
          let opened := s.opened
          let s := { s with opened := opened + 1 }
          if token = s.generation ∧ (s.jobs job).cancelled = false then
            some { s.finish job with connection := some opened }
          else
            some { s.setPhase job .dropping with
              disconnects := update s.disconnects opened (s.disconnects opened + 1) }
      | .threw message => some (s.failWith job token message)
      | .cancelled => some (s.finish job)
  | _, _ => none

def droppedStep (job : Nat) : Option Manager :=
  if (s.jobs job).phase = .dropping then some (s.finish job) else none

/-! ## The listener -/

def effect (token : Nat) : Manager := { s with effects := s.effects ++ [⟨token, s.generation⟩] }

/-- The generation check of `onEvent`. -/
def onEventStep (token : Nat) (json : String) : Option Manager :=
  if (s.listener token).isNone then none
  else if token = s.generation then some { s with emitting := s.emitting ++ [(token, json)] }
  else some s

def emitStep (k : Nat) (accepted : Bool) : Option Manager :=
  match s.emitting[k]? with
  | none => none
  | some (token, _) =>
      let s := { s with emitting := s.emitting.eraseIdx k }
      some (if accepted then s.effect token else { s with overloaded := s.overloaded ++ [token] })

def overloadStep (k : Nat) : Option Manager :=
  match s.overloaded[k]? with
  | none => none
  | some token =>
      let s := ({ s with overloaded := s.overloaded.eraseIdx k }).effect token
      some (s.disconnectCall "Event consumer overloaded; LIVE connection stopped" true)

def onStateStep (token : Nat) (kind detail : String) : Option Manager :=
  if (s.listener token).isNone then none
  else some { s with posted := s.posted ++ [(token, kind, detail)] }

/-- The `when` of the launched coroutine. -/
def handleKind (creator : Creator) (kind detail : String)
    (reconnectEnabled backgroundEnabled : Bool) : Manager :=
  if kind = "open" then
    { s with attempts := 0, state := .connected creator }.refreshNotification backgroundEnabled
  else if kind = "reconnecting" then
    if reconnectEnabled then
      { s with
        attempts := s.attempts + 1
        state := .reconnecting creator (s.attempts + 1) }
    else s.disconnectCall "Reconnect disabled" true
  else if kind = "closed" ∨ kind = "error" then
    s.disconnectCall (ifBlank detail "Stream closed") true
  else s

def handleStateStep (k : Nat) (reconnectEnabled backgroundEnabled : Bool) : Option Manager :=
  match s.posted[k]? with
  | none => none
  | some (token, kind, detail) =>
      let s := { s with posted := s.posted.eraseIdx k }
      match s.listener token with
      | none => none
      | some creator =>
          some (if token ≠ s.generation then s
            else (s.effect token).handleKind creator kind detail reconnectEnabled backgroundEnabled)

def step (s : Manager) : Action → Option Manager
  | .connect username preview => some (s.connectCall username preview)
  | .disconnect reason failed => some (s.disconnectCall reason failed)
  | .onBackground backgroundEnabled =>
      some (if backgroundEnabled then s
        else s.disconnectCall "Background connection disabled" false)
  | .refreshNotification backgroundEnabled => some (s.refreshNotification backgroundEnabled)
  | .close => some s.closeCall
  | .cancelClose job =>
      if (s.jobs job).kind = .close then
        some { s with jobs := update s.jobs job { s.jobs job with cancelled := true } }
      else none
  | .lock job => s.lockStep job
  | .released job => s.releasedStep job
  | .resolved job outcome => s.resolvedStep job outcome
  | .gotCookies job outcome backgroundEnabled => s.gotCookiesStep job outcome backgroundEnabled
  | .opened job outcome => s.openedStep job outcome
  | .dropped job => s.droppedStep job
  | .onEvent token json => s.onEventStep token json
  | .emit k accepted => s.emitStep k accepted
  | .overload k => s.overloadStep k
  | .onState token kind detail => s.onStateStep token kind detail
  | .handleState k reconnectEnabled backgroundEnabled =>
      s.handleStateStep k reconnectEnabled backgroundEnabled

end Manager

end TiktokSigner.Android
