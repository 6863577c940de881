import TiktokSigner.NodeClient.Connection
import Mathlib.Logic.Relation

/-!
# What the handlers of the Node clients do

Every handler is a chain of moves (`Move`), and so are the calls that a
listener makes in the middle of one. The invariants are kept by each move:
`Sockets` by all of them, `Paced` by the `timely` ones.
-/

namespace TiktokSigner.NodeClient

open Function (update update_self update_of_ne)

namespace Client

/-- The moves; `timely` is what a move may take for granted. -/
inductive Move (policy : Nat) (timely : Prop) (s : Client) : Client → Prop where
  | ask : Move policy timely s { s with quiet := false }
  | start (hidle : s.connected = false) (hnone : s.connecting = none)
      (hopen : s.quiet = true → s.closing = false) :
      Move policy timely s { s with
        closing := false
        reconnectTimer := none
        generation := s.generation + 1
        connecting := some (s.generation + 1)
        attempts := update s.attempts (s.generation + 1) .fetching }
  | disconnect : Move policy timely s s.disconnect
  | emit (hopen : s.closing = false) :
      Move policy timely s { s with emitted := s.emitted ++ [s.quiet] }
  | effect (k : Nat) (hcurrent : timely → (s.sockets k).generation = s.generation) :
      Move policy timely s (s.effect k)
  | other (heartbeat : Option Nat) (delivery awaiting refreshing : List Nat) (refresh : Bool) :
      Move policy timely s { s with
        heartbeat := heartbeat
        delivery := delivery
        awaiting := awaiting
        refreshing := refreshing
        guestRefreshAttempted := refresh }
  | finish (g : Nat) (a : Attempt) (hpast : g ≤ s.generation) (ha : a.isSettled = true)
      (hfree : ∀ k, s.socket = some k → (s.sockets k).settled = false → g ≠ s.generation) :
      Move policy timely s { s with attempts := update s.attempts g a }
  | settle (k : Nat) (hmade : k < s.made)
      (hfree : ∀ j, s.socket = some j → (s.sockets j).settled = false →
        (s.sockets k).generation ≠ s.generation) :
      Move policy timely s (s.settleSocket k)
  | timeout (k : Nat) (hmade : k < s.made) : Move policy timely s (s.timeout k)
  | refuse (k : Nat) (hmade : k < s.made) : Move policy timely s (s.settleSocket k).cutOff
  | cutOff : Move policy timely s s.cutOff
  | abandon (g : Nat) (hpast : g < s.generation) :
      Move policy timely s (((s.newSocket g).settleSocket s.made).closeSocket s.made)
  | install (hfetching : s.attempts s.generation = .fetching) :
      Move policy timely s { s.newSocket s.generation with
        socket := some s.made
        cancelOpen := some s.made
        attempts := update s.attempts s.generation (.opening s.made) }
  | opened (k : Nat) (hsocket : s.socket = some k) (hsettled : (s.sockets k).settled = false)
      (hgeneration : (s.sockets k).generation = s.generation) :
      Move policy timely s { s with
        sockets := update s.sockets k { s.sockets k with settled := true, opened := true }
        attempts := update s.attempts (s.sockets k).generation (.resolved false)
        heartbeat := some k
        connected := true
        attempt := 0
        starts := 0
        guestRefreshAttempted := false
        cancelOpen := none }
  | gone (k : Nat) (hmade : k < s.made) (hsocket : s.socket ≠ some k) :
      Move policy timely s (s.goneSocket k)
  | lost (k : Nat) (hsocket : s.socket = some k) :
      Move policy timely s { s.goneSocket k with
        cancelOpen := none
        socket := none
        connected := false
        heartbeat := none }
  | attempt (hpolicy : s.attempt < policy) : Move policy timely s { s with attempt := s.attempt + 1 }
  | schedule (hpolicy : s.attempt < policy) (hnone : s.reconnectTimer = none)
      (hrest : timely → (s.attempts s.generation).isSettled = true) :
      Move policy timely s { s with
        attempt := s.attempt + 1
        reconnectTimer := some s.generation }
  | fire : Move policy timely s { s with reconnectTimer := none }
  | begin (htimer : s.reconnectTimer.isSome = true) :
      Move policy timely s { s with reconnectTimer := none, starts := s.starts + 1 }
  | done (g : Nat) (hconnecting : s.connecting = some g)
      (hsettled : (s.attempts g).isSettled = true) :
      Move policy timely s { s with connecting := none }

variable {policy : Nat} {timely : Prop} {s t : Client} {k g : Nat}

/-- What `disconnect` does, up to its socket and its promise. -/
theorem disconnect_eq (s : Client) : ∃ sockets attempts, s.disconnect = { s with
    sockets := sockets
    attempts := attempts
    closing := true
    generation := s.generation + 1
    delivery := []
    connecting := none
    cancelOpen := none
    reconnectTimer := none
    heartbeat := none
    socket := none
    connected := false
    quiet := true } := by
  have hcancel : ∃ sockets attempts, s.cancel
      = { s with sockets := sockets, attempts := attempts } := by
    rw [cancel]
    split
    case h_1 k _ =>
      split_ifs
      · exact ⟨_, _, rfl⟩
      · exact ⟨_, _, rfl⟩
    case h_2 => exact ⟨_, _, rfl⟩
  obtain ⟨sockets, attempts, hcancel⟩ := hcancel
  rw [disconnect, hcancel, closeCurrent]
  split
  case h_1 => exact ⟨_, _, rfl⟩
  case h_2 => exact ⟨_, _, rfl⟩

theorem made_disconnect (s : Client) : s.disconnect.made = s.made := by
  obtain ⟨_, _, h⟩ := s.disconnect_eq
  rw [h]

/-! ## The sockets and the attempts -/

/-- What holds even while `disconnect` is at work. -/
structure Kept (s : Client) : Prop where
  fresh : ∀ g, s.generation < g → s.attempts g = .absent
  born : ∀ k < s.made, (s.sockets k).generation ≤ s.generation
  cancel : ∀ k, s.cancelOpen = some k → k < s.made
  made : ∀ k, s.socket = some k → k < s.made
  left : ∀ k < s.made,
    s.socket = some k ∨ (s.sockets k).closed = true ∨ (s.sockets k).gone = true

/-- One `connect` at a time, and no socket in the place of another that is
still open. -/
structure Sockets (s : Client) : Prop extends Kept s where
  connecting : (s.attempts s.generation).inProgress = true → s.connecting = some s.generation
  connected : s.connected = true → (s.attempts s.generation).isSettled = true
  unborn : ∀ k < s.made, (s.sockets k).generation = s.generation →
    s.attempts s.generation ≠ .fetching
  apart : ∀ k, s.socket = some k → ∀ j < s.made, (s.sockets j).generation = s.generation → j = k
  torn : ∀ k, s.socket = some k → (s.sockets k).settled = true →
    (s.sockets k).closed = true ∨ s.connected = true
  waiting : ∀ k, s.socket = some k → (s.sockets k).settled = false →
    s.attempts s.generation = .opening k ∧ (s.sockets k).generation = s.generation
  opened : ∀ k, s.socket = some k → (s.sockets k).opened = true →
    s.connected = true ∧ (s.sockets k).generation = s.generation

/-- The fields that `Sockets` is about. -/
def core (s : Client) :=
  (s.generation, s.attempts, s.sockets, s.made, s.cancelOpen, s.socket, s.connecting, s.connected)

theorem Sockets.congr (h : s.Sockets) (hcore : t.core = s.core) : t.Sockets := by
  obtain ⟨⟩ := s
  obtain ⟨⟩ := t
  simp only [core, Prod.mk.injEq] at hcore
  obtain ⟨rfl, rfl, rfl, rfl, rfl, rfl, rfl, rfl⟩ := hcore
  exact ⟨⟨h.fresh, h.born, h.cancel, h.made, h.left⟩, h.connecting, h.connected, h.unborn, h.apart,
    h.torn, h.waiting, h.opened⟩

/-- A socket keeps its generation, and stays closed or gone. -/
theorem Kept.setSocket (h : s.Kept) {w : Sock} (hmade : k < s.made)
    (hgeneration : w.generation = (s.sockets k).generation)
    (hleft : s.socket = some k ∨ (s.sockets k).closed = true ∨ (s.sockets k).gone = true →
      s.socket = some k ∨ w.closed = true ∨ w.gone = true) :
    Kept { s with sockets := update s.sockets k w } := by
  refine ⟨h.fresh, ?_, h.cancel, h.made, ?_⟩
  · intro j hj
    show (update s.sockets k w j).generation ≤ s.generation
    by_cases hjk : j = k
    · rw [hjk, update_self, hgeneration]
      exact h.born k hmade
    · rw [update_of_ne hjk]
      exact h.born j hj
  · intro j hj
    show s.socket = some j ∨ (update s.sockets k w j).closed = true
        ∨ (update s.sockets k w j).gone = true
    by_cases hjk : j = k
    · rw [hjk, update_self]
      exact hleft (h.left k hmade)
    · rw [update_of_ne hjk]
      exact h.left j hj

theorem Kept.setAttempt (h : s.Kept) (hpast : g ≤ s.generation) (a : Attempt) :
    Kept { s with attempts := update s.attempts g a } := by
  refine ⟨?_, h.born, h.cancel, h.made, h.left⟩
  intro g' hg
  show update s.attempts g a g' = .absent
  rw [update_of_ne (Nat.ne_of_gt (Nat.lt_of_le_of_lt hpast hg))]
  exact h.fresh g' hg

theorem Kept.settleSocket (h : s.Kept) (hmade : k < s.made) : (s.settleSocket k).Kept :=
  (h.setSocket (w := { s.sockets k with settled := true }) hmade rfl id).setAttempt
    (h.born k hmade) .rejected

theorem Kept.closeSocket (h : s.Kept) (hmade : k < s.made) : (s.closeSocket k).Kept :=
  h.setSocket hmade rfl fun _ => Or.inr (Or.inl rfl)

theorem Kept.forget (h : s.Kept) : Kept { s with cancelOpen := none } :=
  ⟨h.fresh, h.born, nofun, h.made, h.left⟩

theorem Kept.cancelled (h : s.Kept) : s.cancel.Kept ∧ s.cancel.socket = s.socket ∧
    s.cancel.generation = s.generation := by
  rw [Client.cancel]
  split
  case h_1 k hk =>
    split_ifs
    · exact ⟨h, rfl, rfl⟩
    · exact ⟨h.settleSocket (h.cancel k hk), rfl, rfl⟩
  case h_2 => exact ⟨h, rfl, rfl⟩

theorem Kept.closedCurrent (h : s.Kept) : s.closeCurrent.Kept ∧
    s.closeCurrent.generation = s.generation ∧
    ∀ k < s.closeCurrent.made,
      (s.closeCurrent.sockets k).closed = true ∨ (s.closeCurrent.sockets k).gone = true := by
  rw [closeCurrent]
  split
  case h_1 k hk =>
    refine ⟨h.closeSocket (h.made k hk), rfl, ?_⟩
    intro j hj
    rcases (h.closeSocket (h.made k hk)).left j hj with hjk | hclosed
    · obtain rfl : k = j := Option.some.inj (hk.symm.trans hjk)
      exact Or.inl (by simp [Client.closeSocket])
    · exact hclosed
  case h_2 hnone =>
    refine ⟨h, rfl, ?_⟩
    intro j hj
    rcases h.left j hj with hsocket | hclosed
    · rw [hnone] at hsocket
      cases hsocket
    · exact hclosed

/-- `disconnect` leaves every socket closed or gone. -/
theorem Kept.disconnect (h : s.Kept) : s.disconnect.Sockets := by
  obtain ⟨hcancel, -, hgen⟩ := h.cancelled
  obtain ⟨hkept, hgen', hclosed⟩ := hcancel.closedCurrent
  have hgeneration : s.cancel.closeCurrent.generation = s.generation := hgen'.trans hgen
  have habsent : s.disconnect.attempts s.disconnect.generation = .absent := by
    refine hkept.fresh (s.generation + 1) ?_
    rw [hgeneration]
    exact Nat.lt_succ_self s.generation
  refine ⟨⟨?_, ?_, nofun, nofun, fun k hk => Or.inr (hclosed k hk)⟩, ?_, nofun, ?_, nofun, nofun,
    nofun, nofun⟩
  · intro g hg
    refine hkept.fresh g ?_
    rw [hgeneration]
    exact Nat.lt_of_succ_lt hg
  · intro k hk
    have hborn := hkept.born k hk
    rw [hgeneration] at hborn
    exact Nat.le_succ_of_le hborn
  · intro hprogress
    rw [habsent] at hprogress
    cases hprogress
  · intro k hk _
    rw [habsent]
    exact nofun

theorem Kept.cutOff (h : s.Kept) : s.cutOff.Sockets :=
  h.forget.disconnect

namespace Sockets

theorem attempt_current (h : s.Sockets) (hsocket : s.socket = some k)
    (hprogress : s.attempts s.generation ≠ .opening k) : (s.sockets k).settled = true := by
  cases hsettled : (s.sockets k).settled with
  | true => rfl
  | false => exact absurd (h.waiting k hsocket hsettled).1 hprogress

theorem fetching_le (h : s.Kept) (hfetching : s.attempts g = .fetching) : g ≤ s.generation := by
  by_contra hlt
  rw [h.fresh g (Nat.lt_of_not_le hlt)] at hfetching
  cases hfetching

theorem start (h : s.Sockets) (hidle : s.connected = false) (hnone : s.connecting = none) :
    Sockets { s with
      closing := false
      reconnectTimer := none
      generation := s.generation + 1
      connecting := some (s.generation + 1)
      attempts := update s.attempts (s.generation + 1) .fetching } := by
  have hborn : ∀ k < s.made, (s.sockets k).generation ≠ s.generation + 1 := fun k hk =>
    Nat.ne_of_lt (Nat.lt_succ_of_le (h.born k hk))
  have hsettled : ∀ k, s.socket = some k → (s.sockets k).settled = true := by
    intro k hk
    refine h.attempt_current hk fun hopening => ?_
    have hconnecting := h.connecting (by rw [hopening]; rfl)
    rw [hnone] at hconnecting
    cases hconnecting
  refine ⟨⟨?_, fun k hk => Nat.le_succ_of_le (h.born k hk), h.cancel, h.made, h.left⟩,
    fun _ => rfl, ?_, ?_, ?_, h.torn, ?_, ?_⟩
  · intro g hg
    have hlt : s.generation + 1 < g := hg
    show update s.attempts (s.generation + 1) .fetching g = .absent
    rw [update_of_ne (Nat.ne_of_gt hlt)]
    exact h.fresh g (Nat.lt_of_succ_lt hlt)
  · intro hconnected
    rw [show s.connected = true from hconnected] at hidle
    cases hidle
  · intro k hk hgeneration
    exact absurd hgeneration (hborn k hk)
  · intro k _ j hj hgeneration
    exact absurd hgeneration (hborn j hj)
  · intro k hk hunsettled
    exact absurd ((hsettled k hk).symm.trans hunsettled) nofun
  · intro k hk hopened
    obtain ⟨hconnected, -⟩ := h.opened k hk hopened
    rw [hidle] at hconnected
    cases hconnected

theorem finish (h : s.Sockets) {a : Attempt} (hpast : g ≤ s.generation) (ha : a.isSettled = true)
    (hfree : ∀ k, s.socket = some k → (s.sockets k).settled = false → g ≠ s.generation) :
    Sockets { s with attempts := update s.attempts g a } := by
  refine ⟨h.toKept.setAttempt hpast a, ?_, ?_, ?_, h.apart, h.torn, ?_, h.opened⟩
  · intro hprogress
    change (update s.attempts g a s.generation).inProgress = true at hprogress
    by_cases hg : s.generation = g
    · rw [hg, update_self, Attempt.not_inProgress ha] at hprogress
      cases hprogress
    · rw [update_of_ne hg] at hprogress
      exact h.connecting hprogress
  · intro hconnected
    show (update s.attempts g a s.generation).isSettled = true
    by_cases hg : s.generation = g
    · rw [hg, update_self]
      exact ha
    · rw [update_of_ne hg]
      exact h.connected hconnected
  · intro k hk hgeneration
    show update s.attempts g a s.generation ≠ .fetching
    by_cases hg : s.generation = g
    · rw [hg, update_self]
      rintro rfl
      cases ha
    · rw [update_of_ne hg]
      exact h.unborn k hk hgeneration
  · intro k hk hsettled
    show update s.attempts g a s.generation = .opening k ∧ _
    rw [update_of_ne (hfree k hk hsettled).symm]
    exact h.waiting k hk hsettled

/-- A change of one socket that keeps its generation. -/
theorem touch (h : s.Sockets) {w : Sock} (hmade : k < s.made)
    (hgeneration : w.generation = (s.sockets k).generation)
    (hopened : w.opened = (s.sockets k).opened)
    (hleft : s.socket = some k ∨ (s.sockets k).closed = true ∨ (s.sockets k).gone = true →
      s.socket = some k ∨ w.closed = true ∨ w.gone = true)
    (hover : s.socket = some k → w.settled = true → w.closed = true ∨ s.connected = true)
    (hwaiting : s.socket = some k → w.settled = false → (s.sockets k).settled = false) :
    Sockets { s with sockets := update s.sockets k w } := by
  have hgen : ∀ j, (update s.sockets k w j).generation = (s.sockets j).generation := by
    intro j
    by_cases hjk : j = k
    · rw [hjk, update_self, hgeneration]
    · rw [update_of_ne hjk]
  refine ⟨h.toKept.setSocket hmade hgeneration hleft, h.connecting, h.connected, ?_, ?_, ?_, ?_,
    ?_⟩
  · intro j hj hj'
    change (update s.sockets k w j).generation = s.generation at hj'
    rw [hgen] at hj'
    exact h.unborn j hj hj'
  · intro i hi j hj hj'
    change (update s.sockets k w j).generation = s.generation at hj'
    rw [hgen] at hj'
    exact h.apart i hi j hj hj'
  · intro j hj hsettled
    change (update s.sockets k w j).settled = true at hsettled
    show (update s.sockets k w j).closed = true ∨ s.connected = true
    by_cases hjk : j = k
    · rw [hjk, update_self] at hsettled ⊢
      exact hover (hjk ▸ hj) hsettled
    · rw [update_of_ne hjk] at hsettled ⊢
      exact h.torn j hj hsettled
  · intro j hj hsettled
    change (update s.sockets k w j).settled = false at hsettled
    show _ ∧ (update s.sockets k w j).generation = s.generation
    rw [hgen]
    refine h.waiting j hj ?_
    by_cases hjk : j = k
    · rw [hjk, update_self] at hsettled
      rw [hjk]
      exact hwaiting (hjk ▸ hj) hsettled
    · rw [update_of_ne hjk] at hsettled
      exact hsettled
  · intro j hj hopened'
    change (update s.sockets k w j).opened = true at hopened'
    show _ ∧ (update s.sockets k w j).generation = s.generation
    rw [hgen]
    refine h.opened j hj ?_
    by_cases hjk : j = k
    · rw [hjk, update_self, hopened] at hopened'
      rw [hjk]
      exact hopened'
    · rw [update_of_ne hjk] at hopened'
      exact hopened'

theorem settle (h : s.Sockets) (hmade : k < s.made)
    (hfree : ∀ j, s.socket = some j → (s.sockets j).settled = false →
      (s.sockets k).generation ≠ s.generation) : (s.settleSocket k).Sockets := by
  have hsettled : s.socket = some k → (s.sockets k).settled = true := by
    intro hsocket
    cases hk : (s.sockets k).settled with
    | true => rfl
    | false => exact absurd (h.waiting k hsocket hk).2 (hfree k hsocket hk)
  have htouch : Sockets { s with
      sockets := update s.sockets k { s.sockets k with settled := true } } :=
    h.touch hmade rfl rfl id (fun hsocket _ => h.torn k hsocket (hsettled hsocket)) (fun _ => nofun)
  refine htouch.finish (h.born k hmade) rfl ?_
  intro j hj hunsettled
  refine hfree j hj ?_
  change (update s.sockets k _ j).settled = false at hunsettled
  by_cases hjk : j = k
  · rw [hjk, update_self] at hunsettled
    cases hunsettled
  · rwa [update_of_ne hjk] at hunsettled

theorem timeout (h : s.Sockets) (hmade : k < s.made) : (s.timeout k).Sockets := by
  have htouch : Sockets { s with
      sockets := update s.sockets k { s.sockets k with settled := true, closed := true } } :=
    h.touch hmade rfl rfl (fun _ => Or.inr (Or.inl rfl)) (fun _ _ => Or.inl rfl) (fun _ => nofun)
  have hfinish : Sockets { s with
      sockets := update s.sockets k { s.sockets k with settled := true, closed := true }
      attempts := update s.attempts (s.sockets k).generation .rejected } := by
    refine htouch.finish (h.born k hmade) rfl ?_
    intro j hj hunsettled hgeneration
    change (update s.sockets k _ j).settled = false at hunsettled
    obtain rfl : k = j := h.apart j hj k hmade hgeneration
    rw [update_self] at hunsettled
    cases hunsettled
  refine hfinish.congr ?_
  simp [core, Client.timeout, settleSocket, closeSocket]

theorem born_newSocket (h : s.Sockets) {w : Sock} (hborn : w.generation ≤ s.generation) :
    ∀ k < s.made + 1, (update s.sockets s.made w k).generation ≤ s.generation := by
  intro k hk
  rcases Nat.lt_succ_iff_lt_or_eq.mp hk with hk | rfl
  · rw [update_of_ne (Nat.ne_of_lt hk)]
    exact h.born k hk
  · rw [update_self]
    exact hborn

/-- A socket that was never in place is closed. -/
theorem abandon (h : s.Sockets) (hpast : g < s.generation) :
    (((s.newSocket g).settleSocket s.made).closeSocket s.made).Sockets := by
  have hne : ∀ k < s.made, k ≠ s.made := fun k hk => Nat.ne_of_lt hk
  have hnew : Sockets { s with
      sockets := update s.sockets s.made { generation := g, settled := true, closed := true }
      made := s.made + 1 } := by
    have hold : ∀ k, s.socket = some k →
        update s.sockets s.made { generation := g, settled := true, closed := true } k =
          s.sockets k := fun k hk => update_of_ne (hne k (h.made k hk)) _ _
    refine ⟨⟨h.fresh, ?_, fun k hk => Nat.lt_succ_of_lt (h.cancel k hk),
      fun k hk => Nat.lt_succ_of_lt (h.made k hk), ?_⟩, h.connecting, h.connected, ?_,
        ?_, ?_, ?_, ?_⟩
    · exact h.born_newSocket (Nat.le_of_lt hpast)
    · intro k hk
      show s.socket = some k ∨ (update s.sockets s.made _ k).closed = true ∨
        (update s.sockets s.made _ k).gone = true
      rcases Nat.lt_succ_iff_lt_or_eq.mp hk with hk | rfl
      · rw [update_of_ne (hne k hk)]
        exact h.left k hk
      · rw [update_self]
        exact Or.inr (Or.inl rfl)
    · intro k hk hgeneration
      change (update s.sockets s.made _ k).generation = s.generation at hgeneration
      rcases Nat.lt_succ_iff_lt_or_eq.mp hk with hk | rfl
      · rw [update_of_ne (hne k hk)] at hgeneration
        exact h.unborn k hk hgeneration
      · rw [update_self] at hgeneration
        exact absurd hgeneration (Nat.ne_of_lt hpast)
    · intro k hk j hj hgeneration
      change (update s.sockets s.made _ j).generation = s.generation at hgeneration
      rcases Nat.lt_succ_iff_lt_or_eq.mp hj with hj | rfl
      · rw [update_of_ne (hne j hj)] at hgeneration
        exact h.apart k hk j hj hgeneration
      · rw [update_self] at hgeneration
        exact absurd hgeneration (Nat.ne_of_lt hpast)
    · intro k hk
      show (update s.sockets s.made _ k).settled = true →
          (update s.sockets s.made _ k).closed = true ∨ _
      rw [hold k hk]
      exact h.torn k hk
    · intro k hk
      show (update s.sockets s.made _ k).settled = false →
        _ ∧ (update s.sockets s.made _ k).generation = s.generation
      rw [hold k hk]
      exact h.waiting k hk
    · intro k hk
      show (update s.sockets s.made _ k).opened = true →
        _ ∧ (update s.sockets s.made _ k).generation = s.generation
      rw [hold k hk]
      exact h.opened k hk
  have hfinish := hnew.finish (a := .rejected) (Nat.le_of_lt hpast) rfl
    (fun _ _ _ => Nat.ne_of_lt hpast)
  refine hfinish.congr ?_
  simp [core, newSocket, settleSocket, closeSocket]

/-- A socket takes the place of one that is closed. -/
theorem install (h : s.Sockets) (hfetching : s.attempts s.generation = .fetching) :
    Sockets { s.newSocket s.generation with
      socket := some s.made
      cancelOpen := some s.made
      attempts := update s.attempts s.generation (.opening s.made) } := by
  have hne : ∀ k < s.made, k ≠ s.made := fun k hk => Nat.ne_of_lt hk
  have hidle : s.connected = false := by
    cases hconnected : s.connected with
    | false => rfl
    | true =>
      have hsettled := h.connected hconnected
      rw [hfetching] at hsettled
      cases hsettled
  have hconnecting := h.connecting (by rw [hfetching]; rfl)
  refine ⟨⟨?_, ?_, ?_, ?_, ?_⟩, fun _ => hconnecting, ?_, ?_, ?_, ?_, ?_, ?_⟩
  · intro g hg
    have hlt : s.generation < g := hg
    show update s.attempts s.generation _ g = .absent
    rw [update_of_ne (Nat.ne_of_gt hlt)]
    exact h.fresh g hg
  · exact h.born_newSocket (Nat.le_refl _)
  · rintro k hk
    cases hk
    exact Nat.lt_succ_self s.made
  · rintro k hk
    cases hk
    exact Nat.lt_succ_self s.made
  · intro k hk
    show some s.made = some k ∨ (update s.sockets s.made _ k).closed = true ∨
      (update s.sockets s.made _ k).gone = true
    rcases Nat.lt_succ_iff_lt_or_eq.mp hk with hk | rfl
    · rw [update_of_ne (hne k hk)]
      rcases h.left k hk with hsocket | hclosed
      · have hsettled := h.attempt_current hsocket (by rw [hfetching]; exact nofun)
        rcases h.torn k hsocket hsettled with hclosed | hconnected
        · exact Or.inr (Or.inl hclosed)
        · rw [hidle] at hconnected
          cases hconnected
      · exact Or.inr hclosed
    · exact Or.inl rfl
  · intro hconnected
    rw [show s.connected = true from hconnected] at hidle
    cases hidle
  · intro _ _ _
    show update s.attempts s.generation _ s.generation ≠ .fetching
    rw [update_self]
    exact nofun
  · intro k hk j hj hgeneration
    cases hk
    change (update s.sockets s.made _ j).generation = s.generation at hgeneration
    rcases Nat.lt_succ_iff_lt_or_eq.mp hj with hj | rfl
    · rw [update_of_ne (hne j hj)] at hgeneration
      exact absurd hfetching (h.unborn j hj hgeneration)
    · rfl
  · intro k hk hsettled
    cases hk
    change (update s.sockets s.made _ s.made).settled = true at hsettled
    rw [update_self] at hsettled
    cases hsettled
  · intro k hk _
    cases hk
    show update s.attempts s.generation _ s.generation = _ ∧
      (update s.sockets s.made _ s.made).generation = s.generation
    rw [update_self, update_self]
    exact ⟨rfl, rfl⟩
  · intro k hk hopened
    cases hk
    change (update s.sockets s.made _ s.made).opened = true at hopened
    rw [update_self] at hopened
    cases hopened

theorem opened_now (h : s.Sockets) (hsocket : s.socket = some k)
    (hgeneration : (s.sockets k).generation = s.generation) :
    Sockets { s with
      sockets := update s.sockets k { s.sockets k with settled := true, opened := true }
      attempts := update s.attempts (s.sockets k).generation (.resolved false)
      heartbeat := some k
      connected := true
      attempt := 0
      starts := 0
      guestRefreshAttempted := false
      cancelOpen := none } := by
  have hgen : ∀ j, (update s.sockets k { s.sockets k with settled := true, opened := true }
      j).generation = (s.sockets j).generation := by
    intro j
    by_cases hjk : j = k
    · rw [hjk, update_self]
    · rw [update_of_ne hjk]
  have hresolved : update s.attempts (s.sockets k).generation (.resolved false) s.generation =
      .resolved false := by
    rw [hgeneration, update_self]
  have hmade := h.made k hsocket
  have hkept := (h.toKept.setSocket (w := { s.sockets k with settled := true, opened := true })
    hmade rfl id).setAttempt (h.born k hmade) (.resolved false)
  refine ⟨⟨hkept.fresh, hkept.born, nofun, h.made, hkept.left⟩, ?_, fun _ => ?_, ?_, ?_,
    fun _ _ _ => Or.inr rfl, ?_, ?_⟩
  · intro hprogress
    change (update s.attempts _ _ s.generation).inProgress = true at hprogress
    rw [hresolved] at hprogress
    cases hprogress
  · show (update s.attempts _ _ s.generation).isSettled = true
    rw [hresolved]
    rfl
  · intro _ _ _
    show update s.attempts _ _ s.generation ≠ .fetching
    rw [hresolved]
    exact nofun
  · intro i hi j hj hj'
    change (update s.sockets k _ j).generation = s.generation at hj'
    rw [hgen] at hj'
    exact h.apart i hi j hj hj'
  · intro j hj hsettled
    obtain rfl : k = j := Option.some.inj (hsocket.symm.trans hj)
    change (update s.sockets k _ k).settled = false at hsettled
    rw [update_self] at hsettled
    cases hsettled
  · intro j hj _
    obtain rfl : k = j := Option.some.inj (hsocket.symm.trans hj)
    refine ⟨rfl, ?_⟩
    show (update s.sockets k _ k).generation = s.generation
    rw [hgen]
    exact hgeneration

theorem gone (h : s.Sockets) (hmade : k < s.made) (hsocket : s.socket ≠ some k) :
    (s.goneSocket k).Sockets :=
  h.touch hmade rfl rfl (fun _ => Or.inr (Or.inr rfl)) (fun hk => absurd hk hsocket)
    (fun hk => absurd hk hsocket)

theorem lost (h : s.Sockets) (hsocket : s.socket = some k) :
    Sockets { s.goneSocket k with
      cancelOpen := none
      socket := none
      connected := false
      heartbeat := none } := by
  have hgone : (s.goneSocket k).Sockets :=
    h.touch (h.made k hsocket) rfl rfl (fun _ => Or.inr (Or.inr rfl)) (h.torn k) (fun _ => id)
  refine ⟨⟨h.fresh, hgone.born, nofun, nofun, ?_⟩, h.connecting, nofun, hgone.unborn, nofun, nofun,
    nofun, nofun⟩
  intro j hj
  rcases hgone.left j hj with hjk | hclosed
  · obtain rfl : k = j := Option.some.inj (hsocket.symm.trans hjk)
    refine Or.inr (Or.inr ?_)
    show (update s.sockets k _ k).gone = true
    rw [update_self]
  · exact Or.inr hclosed

theorem done (h : s.Sockets) (hconnecting : s.connecting = some g)
    (hsettled : (s.attempts g).isSettled = true) : Sockets { s with connecting := none } := by
  refine ⟨⟨h.fresh, h.born, h.cancel, h.made, h.left⟩, ?_, h.connected, h.unborn, h.apart, h.torn,
    h.waiting, h.opened⟩
  intro hprogress
  obtain rfl : g = s.generation :=
    Option.some.inj (hconnecting.symm.trans (h.connecting hprogress))
  change (s.attempts s.generation).inProgress = true at hprogress
  rw [Attempt.not_inProgress hsettled] at hprogress
  cases hprogress

theorem move (h : s.Sockets) (hm : Move policy timely s t) : t.Sockets := by
  cases hm with
  | start hidle hnone _ => exact h.start hidle hnone
  | disconnect => exact h.disconnect
  | finish g a hpast ha hfree => exact h.finish hpast ha hfree
  | settle k hmade hfree => exact h.settle hmade hfree
  | timeout k hmade => exact h.timeout hmade
  | refuse k hmade => exact (h.settleSocket hmade).cutOff
  | cutOff => exact h.cutOff
  | abandon g hpast => exact h.abandon hpast
  | install hfetching => exact h.install hfetching
  | opened k hsocket _ hgeneration => exact h.opened_now hsocket hgeneration
  | gone k hmade hsocket => exact h.gone hmade hsocket
  | lost k hsocket => exact h.lost hsocket
  | done g hconnecting hsettled => exact h.done hconnecting hsettled
  | _ => exact h.congr rfl

end Sockets

/-! ## Nothing after `disconnect` -/

structure Quiet (s : Client) : Prop where
  closing : s.quiet = true → s.closing = true
  silent : ∀ b ∈ s.emitted, b = false

namespace Quiet

theorem disconnect (h : s.Quiet) : s.disconnect.Quiet := by
  obtain ⟨_, _, heq⟩ := s.disconnect_eq
  rw [heq]
  exact ⟨fun _ => rfl, h.silent⟩

theorem move (h : s.Quiet) (hm : Move policy timely s t) : t.Quiet := by
  cases hm with
  | ask => exact ⟨nofun, h.silent⟩
  | start _ _ hopen =>
    refine ⟨fun hquiet => ?_, h.silent⟩
    have hclosing := h.closing hquiet
    rw [hopen hquiet] at hclosing
    cases hclosing
  | disconnect => exact h.disconnect
  | cutOff => exact disconnect ⟨h.closing, h.silent⟩
  | refuse k => exact disconnect ⟨h.closing, h.silent⟩
  | emit hopen =>
    refine ⟨h.closing, ?_⟩
    have hquiet : s.quiet = false := by
      cases hquiet : s.quiet with
      | false => rfl
      | true =>
        have hclosing := h.closing hquiet
        rw [hopen] at hclosing
        cases hclosing
    intro b hb
    rcases List.mem_append.mp hb with hb | hb
    · exact h.silent b hb
    · rw [List.mem_singleton.mp hb, hquiet]
  | _ => exact ⟨h.closing, h.silent⟩

end Quiet

/-! ## The pace of the reconnects -/

structure Paced (policy : Nat) (s : Client) : Prop where
  /-- No timer while a `connect` is under way. -/
  resting : s.reconnectTimer.isSome = true → (s.attempts s.generation).isSettled = true
  count : s.starts + (if s.reconnectTimer.isSome then 1 else 0) ≤ s.attempt
  cap : s.attempt ≤ policy
  current : ∀ e ∈ s.effects, e.1 = e.2

namespace Paced

theorem starts_le (h : s.Paced policy) : s.starts ≤ s.attempt :=
  Nat.le_trans (Nat.le_add_right _ _) h.count

theorem timer_of_inProgress (h : s.Paced policy)
    (hprogress : (s.attempts s.generation).inProgress = true) : s.reconnectTimer = none := by
  cases htimer : s.reconnectTimer with
  | none => rfl
  | some g =>
    have hsettled := h.resting (by rw [htimer]; rfl)
    rw [Attempt.not_inProgress hsettled] at hprogress
    cases hprogress

/-- Without a timer the count of the starts is all there is. -/
theorem untimed (h : s.Paced policy) (htimer : t.reconnectTimer = none)
    (hstarts : t.starts = s.starts) (hattempt : t.attempt = s.attempt)
    (heffects : t.effects = s.effects) : t.Paced policy := by
  refine ⟨?_, ?_, ?_, ?_⟩
  · rw [htimer]
    exact nofun
  · rw [htimer, hstarts, hattempt]
    exact h.starts_le
  · rw [hattempt]
    exact h.cap
  · rw [heffects]
    exact h.current

/-- An attempt is settled. -/
theorem finish (h : s.Paced policy) {a : Attempt} (ha : a.isSettled = true) :
    Paced policy { s with attempts := update s.attempts g a } := by
  refine ⟨fun htimer => ?_, h.count, h.cap, h.current⟩
  show (update s.attempts g a s.generation).isSettled = true
  by_cases hg : s.generation = g
  · rw [hg, update_self]
    exact ha
  · rw [update_of_ne hg]
    exact h.resting htimer

theorem disconnect (h : s.Paced policy) : s.disconnect.Paced policy := by
  obtain ⟨_, _, heq⟩ := s.disconnect_eq
  rw [heq]
  exact h.untimed rfl rfl rfl rfl

theorem cutOff (h : s.Paced policy) : s.cutOff.Paced policy :=
  disconnect (s := { s with cancelOpen := none }) ⟨h.resting, h.count, h.cap, h.current⟩

theorem settle (h : s.Paced policy) : (s.settleSocket k).Paced policy := by
  obtain ⟨hresting, hcount, hcap, hcurrent⟩ :=
    h.finish (g := (s.sockets k).generation) (a := .rejected) rfl
  exact ⟨hresting, hcount, hcap, hcurrent⟩

theorem move (h : s.Paced policy) (hsockets : s.Sockets) (htimely : timely)
    (hm : Move policy timely s t) : t.Paced policy := by
  cases hm with
  | start => exact h.untimed rfl rfl rfl rfl
  | disconnect => exact h.disconnect
  | cutOff => exact h.cutOff
  | effect k hcurrent =>
    refine ⟨h.resting, h.count, h.cap, ?_⟩
    intro e he
    rcases List.mem_append.mp he with he | he
    · exact h.current e he
    · rw [List.mem_singleton.mp he]
      exact hcurrent htimely
  | finish g a _ ha => exact h.finish ha
  | settle k => exact h.settle
  | timeout k =>
    obtain ⟨hresting, hcount, hcap, hcurrent⟩ := h.settle (k := k)
    exact ⟨hresting, hcount, hcap, hcurrent⟩
  | refuse k => exact h.settle.cutOff
  | abandon g hpast =>
    refine ⟨fun htimer => ?_, h.count, h.cap, h.current⟩
    have hne : s.generation ≠ g := Nat.ne_of_gt hpast
    simpa [newSocket, settleSocket, closeSocket, update_of_ne hne] using h.resting htimer
  | install hfetching =>
    exact h.untimed (h.timer_of_inProgress (by rw [hfetching]; rfl)) rfl rfl rfl
  | opened k hsocket hsettled =>
    have htimer : s.reconnectTimer = none :=
      h.timer_of_inProgress (by rw [(hsockets.waiting k hsocket hsettled).1]; rfl)
    refine ⟨?_, ?_, Nat.zero_le policy, h.current⟩
    · rw [show s.reconnectTimer = none from htimer]
      exact nofun
    · show 0 + (if s.reconnectTimer.isSome then 1 else 0) ≤ 0
      rw [htimer]
      exact Nat.le_refl 0
  | attempt hpolicy => exact ⟨h.resting, Nat.le_succ_of_le h.count, hpolicy, h.current⟩
  | schedule hpolicy hnone hrest =>
    exact ⟨fun _ => hrest htimely, Nat.succ_le_succ h.starts_le, hpolicy, h.current⟩
  | fire => exact h.untimed rfl rfl rfl rfl
  | begin htimer =>
    refine ⟨nofun, ?_, h.cap, h.current⟩
    have hcount := h.count
    rw [if_pos htimer] at hcount
    exact hcount
  | _ => exact ⟨h.resting, h.count, h.cap, h.current⟩

end Paced

end Client

end TiktokSigner.NodeClient
