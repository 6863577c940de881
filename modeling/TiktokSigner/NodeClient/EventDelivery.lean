import TiktokSigner.Lib.Lts
import Mathlib.Logic.Function.Basic

/-!
# The event delivery of the Node clients

`EventDelivery` of tiktok-live: a bounded FIFO in a ring of slots, drained
by one immediate, or a synchronous delivery when the capacity is zero. A
consumer may call `submit` and `clear` again, so the calls of the consumer
and of the overflow callback that have not returned form a stack; the code
between two of them runs in one step. Reading an empty slot is a crash.
-/

namespace TiktokSigner.NodeClient

open Function (update)

structure DeliveryOptions where
  capacity : Nat := 0
  maxBytes : Nat := 64 * 1024 * 1024
  batchSize : Nat := 64
deriving DecidableEq, Repr

structure Entry (α : Type) where
  value : α
  generation : Nat
  bytes : Nat
  /-- Not in the source: how many were received before it. -/
  seq : Nat
deriving DecidableEq, Repr

/-- A call out of the delivery that has not returned. -/
inductive Frame where
  /-- The consumer, called by `submit` itself. -/
  | direct
  /-- The consumer, called by the immediate as its `count`-th entry. -/
  | drain (count : Nat)
  | overflow
deriving DecidableEq, Repr

structure Delivery (α : Type) where
  queue : Nat → Option (Entry α) := fun _ => none
  head : Nat := 0
  depth : Nat := 0
  bytes : Nat := 0
  timer : Bool := false
  received : Nat := 0
  dispatched : Nat := 0
  discarded : Nat := 0
  rejections : Nat := 0
  stack : List Frame := []
  crashed : Bool := false
  /-- Not in the source, like what follows: what was received before the
  last `clear`. -/
  floor : Nat := 0
  /-- The calls of the consumer: which entry, and `floor` at the time. -/
  delivered : List (Nat × Nat) := []
  /-- The calls of the overflow callback. -/
  notified : Nat := 0

inductive DeliveryAction (α : Type) where
  /-- `bytes` is `none` when it is not a safe non-negative integer. -/
  | submit (value : α) (generation : Nat) (bytes : Option Nat)
  | clear
  | timer
  /-- The call on top of the stack returns; `late` when the time is up. -/
  | returned (accepted late : Bool)

namespace Delivery

variable {α : Type} (o : DeliveryOptions) (s : Delivery α)

def schedule : Delivery α :=
  if s.timer || s.depth == 0 then s else { s with timer := true }

def clear : Delivery α :=
  { s with
    timer := false
    discarded := s.discarded + s.depth
    queue := fun _ => none
    depth := 0
    head := 0
    bytes := 0
    floor := s.received }

/-- The call of `#consume`. -/
def consume (frame : Frame) (seq : Nat) : Delivery α :=
  { s with
    stack := frame :: s.stack
    delivered := s.delivered ++ [(seq, s.floor)] }

def overflowing (bytes : Option Nat) : Bool :=
  s.depth == o.capacity ||
    match bytes with
    | some bytes => decide (o.maxBytes - s.bytes < bytes)
    | none => true

def overflow : Delivery α :=
  let t := { s with rejections := s.rejections + 1, discarded := s.discarded + 1 }.clear
  { t with stack := .overflow :: t.stack, notified := t.notified + 1 }

def push (entry : Entry α) : Delivery α :=
  { s with
    queue := update s.queue ((s.head + s.depth) % o.capacity) (some entry)
    depth := s.depth + 1
    bytes := s.bytes + entry.bytes }

def submit (value : α) (generation : Nat) (bytes : Option Nat) : Delivery α :=
  let t := { s with received := s.received + 1 }
  if o.capacity = 0 then t.consume .direct s.received
  else if t.overflowing o bytes then t.overflow
  else (t.push o ⟨value, generation, bytes.getD 0, s.received⟩).schedule

/-- The loop of the immediate, up to the next call of the consumer. -/
def drain (count : Nat) : Delivery α :=
  if 0 < s.depth ∧ count < o.batchSize then
    match s.queue s.head with
    | some entry =>
        { s with
          queue := update s.queue s.head none
          head := (s.head + 1) % o.capacity
          depth := s.depth - 1
          bytes := s.bytes - entry.bytes }.consume (.drain (count + 1)) entry.seq
    | none => { s with crashed := true }
  else s.schedule

/-- What the consumer returns is counted. -/
def count (accepted : Bool) : Delivery α :=
  if accepted then { s with dispatched := s.dispatched + 1 }
  else { s with discarded := s.discarded + 1 }

def returned (frame : Frame) (accepted late : Bool) : Delivery α :=
  match frame with
  | .direct => s.count accepted
  | .drain count =>
      let t := s.count accepted
      if late then t.schedule else t.drain o count
  | .overflow => s

def step (o : DeliveryOptions) (s : Delivery α) : DeliveryAction α → Option (Delivery α)
  | .submit value generation bytes => some (s.submit o value generation bytes)
  | .clear => some s.clear
  | .timer =>
      -- an immediate runs when all calls have returned
      if s.stack = [] ∧ s.timer = true then some ({ s with timer := false }.drain o 0) else none
  | .returned accepted late =>
      match s.stack with
      | frame :: stack => some ({ s with stack := stack }.returned o frame accepted late)
      | [] => none

end Delivery

end TiktokSigner.NodeClient
