import TiktokSigner.Lib.Lts
import Mathlib.Logic.Function.Basic

/-!
# The connection of the Node clients

`connect`, `disconnect`, `#open`, `#scheduleReconnect` and `#reconnect` of
tiktok-live and of live-sdk, which differ in a few places (`Flavor`). A
`connect` in progress is known by its generation. What comes from outside
(answers, events of a socket, timers, resumed promises) is a step each; a
handler runs to its end in one step, and where it emits something the
listeners' calls of `connect` and `disconnect` come with the step.

The events of a batch go through a queue: a synchronous delivery is a
`deliver` right behind its `message`.
-/

namespace TiktokSigner.NodeClient

open Function (update)

inductive Flavor where
  | tiktokLive
  | liveSdk
deriving DecidableEq, Repr

/-- What a listener calls. -/
inductive Api where
  | connect
  | disconnect
deriving DecidableEq, Repr

/-- The `connect` of a generation. -/
inductive Attempt where
  | absent
  /-- Session, ticket, room, gifts or signer are on their way. -/
  | fetching
  /-- Waiting for the socket. -/
  | opening (k : Nat)
  | resolved (offline : Bool)
  | rejected
deriving DecidableEq, Repr

namespace Attempt

def isSettled : Attempt → Bool
  | resolved _ | rejected => true
  | absent | fetching | opening _ => false

def inProgress : Attempt → Bool
  | fetching | opening _ => true
  | absent | resolved _ | rejected => false

theorem not_inProgress {a : Attempt} (ha : a.isSettled = true) : a.inProgress = false := by
  cases a with
  | resolved | rejected => rfl
  | absent | fetching | opening => cases ha

end Attempt

/-- How sending a frame goes. -/
inductive Sent where
  | ok
  | failed
  /-- The write buffer is full. -/
  | overflow
deriving DecidableEq, Repr

/-- Why a `connect` has failed, as `#reconnect` reads it. -/
inductive Failure where
  | retryable
  | final
  /-- The handshake was refused; `guest` if the client bootstraps its identity. -/
  | refused (guest : Bool)
deriving DecidableEq, Repr

/-- `#reconnect` schedules the next one after this failure. -/
def Flavor.retries : Flavor → Failure → Bool
  | .tiktokLive, .refused _ => false
  | .tiktokLive, _ => true
  | .liveSdk, .retryable => true
  | .liveSdk, _ => false

/-- `#reconnect` replaces the identity after this failure. -/
def Flavor.refreshes : Flavor → Failure → Bool
  | .tiktokLive, .refused guest => guest
  | _, _ => false

/-- A WebSocket with the variables of its handlers. -/
structure Sock where
  generation : Nat := 0
  settled : Bool := false
  opened : Bool := false
  /-- `close` has been called on it. -/
  closed : Bool := false
  /-- Its close event has come. -/
  gone : Bool := false
deriving DecidableEq, Repr

structure Client where
  closing : Bool := false
  generation : Nat := 0
  socket : Option Nat := none
  connected : Bool := false
  /-- The heartbeat timer with the socket it was started for. -/
  heartbeat : Option Nat := none
  /-- The reconnect timer with the generation it was set in. -/
  reconnectTimer : Option Nat := none
  connecting : Option Nat := none
  attempt : Nat := 0
  /-- The socket whose open `disconnect` can cancel. -/
  cancelOpen : Option Nat := none
  guestRefreshAttempted : Bool := false
  /-- The event queue, by generation. -/
  delivery : List Nat := []
  sockets : Nat → Sock := fun _ => {}
  made : Nat := 0
  attempts : Nat → Attempt := fun _ => .absent
  /-- The `#reconnect` calls that wait for a `connect`. -/
  awaiting : List Nat := []
  /-- The `#reconnect` calls that refresh the guest session. -/
  refreshing : List Nat := []
  /-- Not in the source, like all that follows: `disconnect` has returned,
  and `connect` has not been called since. -/
  quiet : Bool := false
  /-- For each event and each connected notification, `quiet` at the time. -/
  emitted : List Bool := []
  /-- For each change that an event of a socket has made, the generation of
  the socket and the one at the time. -/
  effects : List (Nat × Nat) := []
  /-- The reconnects started since the last successful open. -/
  starts : Nat := 0

inductive ClientAction where
  | connect
  | disconnect
  /-- A request fails, is aborted, or its answer is refused. -/
  | fail (g : Nat)
  /-- The ticket says that the creator is offline. -/
  | offline (g : Nat) (calls : List Api)
  /-- All is there for the socket; the calls come while it is built. -/
  | open (g : Nat) (calls : List Api)
  | timeout (k : Nat)
  /-- The open event; `sent` is about the enter-room frame. -/
  | opened (k : Nat) (sent : Sent) (calls : List Api)
  /-- A batch with `n` messages, with or without a heartbeat interval; `sent`
  is about the acknowledgement, `full` says that the event queue overflows. -/
  | message (k : Nat) (hint : Bool) (sent : Sent) (n : Nat) (full : Bool) (calls calls' : List Api)
  | errored (k : Nat) (calls : List Api)
  | closed (k : Nat) (calls calls' : List Api)
  /-- An event is taken from the queue; `calls'` are those of the typed event. -/
  | deliver (calls calls' : List Api)
  /-- A turn of the heartbeat timer. -/
  | beat (sent : Sent) (calls : List Api)
  /-- The reconnect timer. -/
  | timer
  /-- The `finally` of `connect`. -/
  | settle (g : Nat)
  /-- `#reconnect` goes on, when the `connect` has failed with `failure`. -/
  | resume (g : Nat) (failure : Failure) (calls calls' : List Api)
  | refreshed (g : Nat) (ok : Bool) (calls : List Api)
deriving DecidableEq, Repr

/-- The socket whose event it is. -/
def ClientAction.socket? : ClientAction → Option Nat
  | .timeout k | .opened k _ _ | .message k _ _ _ _ _ _ | .errored k _ | .closed k _ _ => some k
  | _ => none

namespace Client

variable (s : Client)

def settleSocket (k : Nat) : Client :=
  { s with
    sockets := update s.sockets k { s.sockets k with settled := true }
    attempts := update s.attempts (s.sockets k).generation .rejected }

def closeSocket (k : Nat) : Client :=
  { s with sockets := update s.sockets k { s.sockets k with closed := true } }

/-- `connect`, past its first line. -/
def start : Client :=
  if s.connected || s.connecting.isSome then s
  else
    { s with
      closing := false
      reconnectTimer := none
      generation := s.generation + 1
      connecting := some (s.generation + 1)
      attempts := update s.attempts (s.generation + 1) .fetching }

def connect : Client :=
  { s with quiet := false }.start

def cancel : Client :=
  match s.cancelOpen with
  | some k => if (s.sockets k).settled then s else s.settleSocket k
  | none => s

def closeCurrent : Client :=
  match s.socket with
  | some k => s.closeSocket k
  | none => s

def disconnect : Client :=
  { s.cancel.closeCurrent with
    closing := true
    generation := s.generation + 1
    delivery := []
    connecting := none
    cancelOpen := none
    reconnectTimer := none
    heartbeat := none
    socket := none
    connected := false
    quiet := true }

/-- What `#send` does when the write buffer is full. -/
def cutOff : Client :=
  { s with cancelOpen := none }.disconnect

def call : Api → Client
  | .connect => s.connect
  | .disconnect => s.disconnect

/-- What the listeners do with a notification. -/
def notify (s : Client) (calls : List Api) : Client :=
  calls.foldl call s

/-- `#closing || generation !== this.#generation`. -/
def stale (g : Nat) : Bool :=
  s.closing || g != s.generation

/-- An event or a connected notification. -/
def emit (calls : List Api) : Client :=
  { s with emitted := s.emitted ++ [s.quiet] }.notify calls

/-- An event of the socket is about to change something. -/
def effect (k : Nat) : Client :=
  { s with effects := s.effects ++ [((s.sockets k).generation, s.generation)] }

def scheduleReconnect (policy : Nat) (calls : List Api) : Client :=
  if s.closing || s.reconnectTimer.isSome then s
  else if policy ≤ s.attempt then s.notify calls
  else
    let t := { s with attempt := s.attempt + 1 }.notify calls
    if t.stale s.generation then t else { t with reconnectTimer := some s.generation }

def reject (g : Nat) : Client :=
  { s with attempts := update s.attempts g .rejected }

def offline (g : Nat) (calls : List Api) : Client :=
  if s.stale g then s.reject g
  else
    let t := { s with heartbeat := none }.notify calls
    { t with attempts := update t.attempts g (.resolved true) }

def newSocket (g : Nat) : Client :=
  { s with
    sockets := update s.sockets s.made { generation := g }
    made := s.made + 1 }

/-- `#open`; the calls come while the socket is built. -/
def openSocket (g : Nat) (calls : List Api) : Client :=
  if s.stale g then s.reject g
  else
    let t := s.notify calls
    if t.stale g then ((t.newSocket g).settleSocket t.made).closeSocket t.made
    else
      { t.newSocket g with
        socket := some t.made
        cancelOpen := some t.made
        attempts := update t.attempts g (.opening t.made) }

def timeout (k : Nat) : Client :=
  (s.settleSocket k).closeSocket k

/-- The open handler, when the socket has been waited for. -/
def opened (flavor : Flavor) (k : Nat) (sent : Sent) (calls : List Api) : Client :=
  if s.stale (s.sockets k).generation || s.socket != some k then
    (s.settleSocket k).closeSocket k
  else
    let t := s.effect k
    match sent with
    | .ok =>
        { t with
          sockets := update t.sockets k { t.sockets k with settled := true, opened := true }
          attempts := update t.attempts (t.sockets k).generation (.resolved false)
          heartbeat := some k
          connected := true
          attempt := 0
          starts := 0
          guestRefreshAttempted := false
          cancelOpen := none }.emit calls
    | .failed =>
        match flavor with
        | .tiktokLive => (t.settleSocket k).cutOff
        | .liveSdk => (t.settleSocket k).closeSocket k
    | .overflow =>
        match flavor with
        | .tiktokLive => (t.cutOff.settleSocket k).cutOff
        | .liveSdk => (t.cutOff.settleSocket k).closeSocket k

def message (k : Nat) (hint : Bool) (sent : Sent) (n : Nat) (full : Bool)
    (calls calls' : List Api) : Client :=
  if s.stale (s.sockets k).generation || s.socket != some k then s
  else
    let t := { s.effect k with heartbeat := if hint then some k else s.heartbeat }
    let u := match sent with
      | .ok => t
      | .failed => t.notify calls
      | .overflow => t.cutOff.notify calls
    if u.stale s.generation then u
    else if full then u.disconnect.notify calls'
    else { u with delivery := u.delivery ++ List.replicate n s.generation }

/-- The callback of the heartbeat timer of the socket `k`. -/
def beat (flavor : Flavor) (k : Nat) (sent : Sent) (calls : List Api) : Client :=
  let writes := match flavor with
    | .tiktokLive => s.socket.isSome
    | .liveSdk => s.socket == some k
  if writes && sent == .overflow then s.cutOff.notify calls else s

def errored (k : Nat) (calls : List Api) : Client :=
  if s.socket = some k ∧ (s.sockets k).generation = s.generation ∧ (s.sockets k).settled = true then
    s.notify calls
  else s

def goneSocket (k : Nat) : Client :=
  { s with sockets := update s.sockets k { s.sockets k with gone := true } }

def lost (k : Nat) : Client :=
  { (s.effect k).goneSocket k with
    cancelOpen := none
    socket := none
    connected := false
    heartbeat := none }

/-- The close handler. -/
def closed (policy k : Nat) (calls calls' : List Api) : Client :=
  if s.socket = some k then
    if (s.sockets k).opened then
      let t := (s.lost k).notify calls
      if t.closing then t else (t.effect k).scheduleReconnect policy calls'
    else if (s.sockets k).settled then s.lost k
    else (s.lost k).settleSocket k
  else s.goneSocket k

/-- `#dispatch`. -/
def dispatch (g : Nat) (calls calls' : List Api) : Client :=
  if s.stale g then s
  else
    let t := s.emit calls
    if t.stale g then t else t.emit calls'

/-- The callback of the reconnect timer, with the start of `#reconnect`. -/
def timerFires (g : Nat) : Client :=
  let t := { s with reconnectTimer := none }
  if t.stale g then t
  else
    let u := { t with starts := t.starts + 1 }.start
    { u with awaiting := u.awaiting ++ [u.generation] }

/-- The rest of `#reconnect`. -/
def resume (flavor : Flavor) (policy g : Nat) (failure : Failure) (calls calls' : List Api) :
    Client :=
  let t := { s with awaiting := s.awaiting.erase g }
  match s.attempts g with
  | .resolved true => if t.closing then t else t.scheduleReconnect policy calls'
  | .rejected =>
      if t.stale g then t
      else if flavor.refreshes failure && !t.guestRefreshAttempted then
        { t with guestRefreshAttempted := true, refreshing := t.refreshing ++ [g] }
      else
        let u := t.notify calls
        if u.closing || !flavor.retries failure then u else u.scheduleReconnect policy calls'
  | _ => t

/-- `#reconnect`, with the guest session refreshed or not. -/
def refreshed (g : Nat) (ok : Bool) (calls : List Api) : Client :=
  let t := { s with refreshing := s.refreshing.erase g }
  if ok then if t.stale g then t else t.start
  else if t.closing then t
  else t.notify calls

def step (flavor : Flavor) (policy : Nat) (s : Client) : ClientAction → Option Client
  | .connect => some s.connect
  | .disconnect => some s.disconnect
  | .fail g => if s.attempts g = .fetching then some (s.reject g) else none
  | .offline g calls =>
      if s.attempts g = .fetching ∧ flavor = .liveSdk then some (s.offline g calls) else none
  | .open g calls => if s.attempts g = .fetching then some (s.openSocket g calls) else none
  | .timeout k =>
      if k < s.made ∧ (s.sockets k).settled = false ∧ (s.sockets k).gone = false then
        some (s.timeout k)
      else none
  | .opened k sent calls =>
      if k < s.made ∧ (s.sockets k).settled = false then some (s.opened flavor k sent calls)
      else none
  | .message k hint sent n full calls calls' =>
      if k < s.made then some (s.message k hint sent n full calls calls') else none
  | .errored k calls => if k < s.made then some (s.errored k calls) else none
  | .closed k calls calls' =>
      if k < s.made ∧ (s.sockets k).gone = false then some (s.closed policy k calls calls') else none
  | .deliver calls calls' =>
      match s.delivery with
      | g :: delivery => some ({ s with delivery := delivery }.dispatch g calls calls')
      | [] => none
  | .beat sent calls =>
      match s.heartbeat with
      | some k => some (s.beat flavor k sent calls)
      | none => none
  | .timer =>
      match s.reconnectTimer with
      | some g => some (s.timerFires g)
      | none => none
  | .settle g =>
      if (s.attempts g).isSettled then
        some (if s.connecting = some g then { s with connecting := none } else s)
      else none
  | .resume g failure calls calls' =>
      if s.awaiting.contains g ∧ (s.attempts g).isSettled then
        some (s.resume flavor policy g failure calls calls')
      else none
  | .refreshed g ok calls =>
      if s.refreshing.contains g then some (s.refreshed g ok calls) else none

end Client

end TiktokSigner.NodeClient
