import TiktokSigner.LiveWs.Reconnect
import Mathlib.Data.List.Induction

/-!
# The retry protocol

What a stream that reconnects may log, as an automaton over its entries.
`Mode` says where in an outage the stream is, `Mode.next` which entry may
come and where it leads. The laws below hold of every log the automaton
accepts (`Lts.run` over `next`), whatever stream wrote it.
-/

namespace TiktokSigner.LiveWs

open Lts

inductive Mode where
  /-- The socket is open. -/
  | open
  /-- Between two attempts, with so many of them made. -/
  | outage (made : Nat) (last : WsError)
  /-- The latest attempt waits for its signature. -/
  | asked (made : Nat)
  /-- The latest attempt has a fresh signature. -/
  | signed (made : Nat) (fetch : SignedFetch)
  /-- About to return this error. -/
  | failing (error : StreamError)
  /-- A terminal error was returned. -/
  | over
  /-- Dropped during an outage: no connection and no error. -/
  | silent
deriving DecidableEq

def Entry.isLost : Entry → Bool
  | .lost _ => true
  | _ => false

/-- The start of a `connect_once`. -/
def Entry.isAsked : Entry → Bool
  | .asked _ => true
  | _ => false

def Entry.isReopened : Entry → Bool
  | .opened _ (.ok _) => true
  | _ => false

def Entry.message : Entry → Option LiveMessage
  | .delivered message => some message
  | _ => none

namespace Mode

def next (roomId : String) (maxAttempts : Nat) : Mode → Entry → Option Mode
  | .open, .delivered _ => some .open
  | .open, .dropped => some .open
  | .open, .lost cause =>
      if maxAttempts = 0 then some (.failing (.exhausted 0 cause)) else some (.outage 0 cause)
  | .outage n _, .asked room =>
      if n < maxAttempts ∧ room = roomId then some (.asked (n + 1)) else none
  | .asked n, .signed outcome =>
      match outcome.signed with
      | .ok fetch => some (.signed n fetch)
      | .error error => some (.failing error)
  | .signed n fetch, .opened used result =>
      if used = fetch then
        match result with
        | .ok _ => some .open
        | .error last =>
            if n < maxAttempts then some (.outage n last)
            else some (.failing (.exhausted maxAttempts last))
      else none
  | .failing error, .ended reported => if reported = error then some .over else none
  | .over, .finished => some .over
  | .outage .., .dropped | .asked _, .dropped | .signed .., .dropped => some .silent
  | .silent, .finished => some .silent
  | _, _ => none

section

variable {roomId : String} {maxAttempts : Nat}

/-- The moves of the automaton, one constructor each. -/
inductive Moves (roomId : String) (maxAttempts : Nat) : Mode → Entry → Mode → Prop
  | deliver (message : LiveMessage) : Moves roomId maxAttempts .open (.delivered message) .open
  | dropRead : Moves roomId maxAttempts .open .dropped .open
  | disabled (cause : WsError) (hmax : maxAttempts = 0) :
      Moves roomId maxAttempts .open (.lost cause) (.failing (.exhausted 0 cause))
  | lose (cause : WsError) (hmax : maxAttempts ≠ 0) :
      Moves roomId maxAttempts .open (.lost cause) (.outage 0 cause)
  | ask (n : Nat) (last : WsError) (hlt : n < maxAttempts) :
      Moves roomId maxAttempts (.outage n last) (.asked roomId) (.asked (n + 1))
  | sign (n : Nat) (fetch : SignedFetch) :
      Moves roomId maxAttempts (.asked n) (.signed (.ok fetch)) (.signed n fetch)
  | refuse (n : Nat) {outcome : SignOutcome} {error : StreamError}
      (herror : outcome.signed = .error error) :
      Moves roomId maxAttempts (.asked n) (.signed outcome) (.failing error)
  | reopen (n : Nat) (fetch : SignedFetch) (connection : LiveConnection) :
      Moves roomId maxAttempts (.signed n fetch) (.opened fetch (.ok connection)) .open
  | again (n : Nat) (fetch : SignedFetch) (last : WsError) (hlt : n < maxAttempts) :
      Moves roomId maxAttempts (.signed n fetch) (.opened fetch (.error last)) (.outage n last)
  | exhaust (n : Nat) (fetch : SignedFetch) (last : WsError) (hle : maxAttempts ≤ n) :
      Moves roomId maxAttempts (.signed n fetch) (.opened fetch (.error last))
        (.failing (.exhausted maxAttempts last))
  | report (error : StreamError) : Moves roomId maxAttempts (.failing error) (.ended error) .over
  | finish : Moves roomId maxAttempts .over .finished .over
  | dropOutage (n : Nat) (last : WsError) :
      Moves roomId maxAttempts (.outage n last) .dropped .silent
  | dropAsked (n : Nat) : Moves roomId maxAttempts (.asked n) .dropped .silent
  | dropSigned (n : Nat) (fetch : SignedFetch) :
      Moves roomId maxAttempts (.signed n fetch) .dropped .silent
  | finishSilent : Moves roomId maxAttempts .silent .finished .silent

theorem signed_eq_ok {outcome : SignOutcome} {fetch : SignedFetch}
    (h : outcome.signed = .ok fetch) : outcome = .ok fetch := by
  cases outcome with
  | ok fetch' =>
    cases h
    rfl
  | rejected reason => cases h
  | transport error => cases h

theorem moves_of_next {m m' : Mode} {e : Entry} (h : next roomId maxAttempts m e = some m') :
    Moves roomId maxAttempts m e m' := by
  unfold next at h
  split at h
  case h_1 => cases h; exact .deliver _
  case h_2 => cases h; exact .dropRead
  case h_3 =>
    split at h
    case isTrue hmax => cases h; exact .disabled _ hmax
    case isFalse hmax => cases h; exact .lose _ hmax
  case h_4 =>
    split at h
    case isTrue hask =>
      obtain ⟨hlt, rfl⟩ := hask
      cases h
      exact .ask _ _ hlt
    case isFalse => cases h
  case h_5 =>
    split at h
    case h_1 fetch hok =>
      cases h
      obtain rfl := signed_eq_ok hok
      exact .sign _ fetch
    case h_2 error herror =>
      cases h
      exact .refuse _ herror
  case h_6 =>
    split at h
    case isTrue hused =>
      subst hused
      split at h
      case h_1 => cases h; exact .reopen _ _ _
      case h_2 =>
        split at h
        case isTrue hlt => cases h; exact .again _ _ _ hlt
        case isFalse hge => cases h; exact .exhaust _ _ _ (Nat.le_of_not_lt hge)
    case isFalse => cases h
  case h_7 =>
    split at h
    case isTrue heq =>
      subst heq
      cases h
      exact .report _
    case isFalse => cases h
  case h_8 => cases h; exact .finish
  case h_9 => cases h; exact .dropOutage _ _
  case h_10 => cases h; exact .dropAsked _
  case h_11 => cases h; exact .dropSigned _ _
  case h_12 => cases h; exact .finishSilent
  case h_13 => cases h

variable {m m' : Mode} {e : Entry} {es log before rest : List Entry}

/-- An entry in the middle of a log: the mode before it, its move and the
rest of the log. -/
theorem run_split (h : run (next roomId maxAttempts) m (before ++ e :: rest) = some m') :
    ∃ m₁ m₂, run (next roomId maxAttempts) m before = some m₁ ∧ Moves roomId maxAttempts m₁ e m₂
      ∧ run (next roomId maxAttempts) m₂ rest = some m' := by
  obtain ⟨m₁, hbefore, hrest⟩ := run_append_eq_some.mp h
  obtain ⟨m₂, hnext, hrest⟩ := run_cons_eq_some.mp hrest
  exact ⟨m₁, m₂, hbefore, moves_of_next hnext, hrest⟩

/-- The last entry of a log that ends in another mode than it began. -/
theorem run_last (h : run (next roomId maxAttempts) m log = some m') (hne : m' ≠ m) :
    ∃ before e m₁, log = before ++ [e] ∧ run (next roomId maxAttempts) m before = some m₁
      ∧ Moves roomId maxAttempts m₁ e m' := by
  cases log using List.reverseRecOn with
  | nil =>
    obtain rfl := Option.some.inj h
    exact absurd rfl hne
  | append_singleton before e =>
    obtain ⟨m₁, hbefore, hnext⟩ := run_concat_eq_some.mp h
    exact ⟨before, e, m₁, rfl, hbefore, moves_of_next hnext⟩

/-! ## Attempts of one outage -/

/-- How many attempts the outage has left. -/
def spare (maxAttempts : Nat) : Mode → Nat
  | .outage made _ | .asked made | .signed made _ => maxAttempts - made
  | _ => 0

theorem spare_of_moves (h : Moves roomId maxAttempts m e m') (hlost : e.isLost = false) :
    (if e.isAsked then 1 else 0) + spare maxAttempts m' ≤ spare maxAttempts m := by
  cases h with
  | disabled cause _ => cases hlost
  | lose cause _ => cases hlost
  | ask n last hlt =>
    simp only [Entry.isAsked, spare, if_true]
    omega
  | _ => simp [Entry.isAsked, spare]

theorem countP_asked_le (h : run (next roomId maxAttempts) m es = some m')
    (hlost : ∀ e ∈ es, e.isLost = false) : es.countP Entry.isAsked ≤ spare maxAttempts m := by
  induction es generalizing m with
  | nil => exact Nat.zero_le _
  | cons e es ih =>
    obtain ⟨m₁, hnext, hrest⟩ := run_cons_eq_some.mp h
    have hhead := spare_of_moves (moves_of_next hnext) (hlost e List.mem_cons_self)
    have htail := ih hrest fun e' he' => hlost e' (List.mem_cons_of_mem e he')
    rw [List.countP_cons]
    omega

/-- After a loss, and before the next one, at most `maxAttempts` attempts. -/
theorem attempts_le {cause : WsError} {outage : List Entry}
    (h : run (next roomId maxAttempts) m (before ++ .lost cause :: outage ++ rest) = some m')
    (hlost : ∀ e ∈ outage, e.isLost = false) : outage.countP Entry.isAsked ≤ maxAttempts := by
  obtain ⟨m₁, h, -⟩ := run_append_eq_some.mp h
  obtain ⟨m₀, m₂, -, hmoves, hrun⟩ := run_split h
  refine Nat.le_trans (countP_asked_le hrun hlost) ?_
  cases hmoves with
  | disabled _ _ => exact Nat.zero_le _
  | lose _ _ => exact Nat.le_refl _

/-! ## One attempt -/

/-- A socket is opened with the signature that the attempt asked for. -/
theorem fresh_signature {fetch : SignedFetch} {result : Except WsError LiveConnection}
    (h : run (next roomId maxAttempts) .open (before ++ .opened fetch result :: rest) = some m') :
    ∃ earlier, before = earlier ++ [.asked roomId, .signed (.ok fetch)] := by
  have hlast : ∀ {n : Nat}, run (next roomId maxAttempts) .open before = some (.signed n fetch) →
      ∃ earlier, before = earlier ++ [.asked roomId, .signed (.ok fetch)] := by
    intro n hbefore
    obtain ⟨b, e, m₁, rfl, hb, hmoves⟩ := run_last hbefore nofun
    cases hmoves with
    | sign _ _ =>
      obtain ⟨b', e', m₂, rfl, -, hmoves'⟩ := run_last hb nofun
      cases hmoves' with
      | ask _ _ _ => exact ⟨b', by simp⟩
  obtain ⟨m₁, m₂, hbefore, hmoves, -⟩ := run_split h
  cases hmoves with
  | reopen _ _ _ => exact hlast hbefore
  | again _ _ _ _ => exact hlast hbefore
  | exhaust _ _ _ _ => exact hlast hbefore

/-- A refusal, or a failure of the signer, is returned at once. -/
theorem refused_at_once {outcome : SignOutcome} {error : StreamError}
    (h : run (next roomId maxAttempts) m (before ++ .signed outcome :: rest) = some m')
    (herror : outcome.signed = .error error) (hreported : ∀ error, m' ≠ .failing error) :
    ∃ later, rest = .ended error :: later := by
  obtain ⟨m₁, m₂, -, hmoves, hrest⟩ := run_split h
  cases hmoves with
  | sign _ fetch => cases herror
  | refuse n herror' =>
    obtain rfl := Except.error.inj (herror.symm.trans herror')
    cases rest with
    | nil =>
      obtain rfl := Option.some.inj hrest
      exact absurd rfl (hreported error)
    | cons e rest =>
      obtain ⟨m₃, hnext, -⟩ := run_cons_eq_some.mp hrest
      cases moves_of_next hnext with
      | report _ => exact ⟨rest, rfl⟩

/-! ## The end -/

theorem over_of_run (h : run (next roomId maxAttempts) .over es = some m') :
    m' = .over ∧ ∀ e ∈ es, e = .finished := by
  induction es with
  | nil => exact ⟨(Option.some.inj h).symm, fun _ he => absurd he List.not_mem_nil⟩
  | cons e es ih =>
    obtain ⟨m₁, hnext, hrest⟩ := run_cons_eq_some.mp h
    cases moves_of_next hnext with
    | finish =>
      obtain ⟨hover, hall⟩ := ih hrest
      refine ⟨hover, fun e' he' => ?_⟩
      rcases List.mem_cons.mp he' with rfl | he'
      · rfl
      · exact hall e' he'

/-- Nothing but `None` comes after a terminal error. -/
theorem finished_after_ended {error : StreamError}
    (h : run (next roomId maxAttempts) m (before ++ .ended error :: rest) = some m') :
    ∀ e ∈ rest, e = .finished := by
  obtain ⟨m₁, m₂, -, hmoves, hrest⟩ := run_split h
  cases hmoves with
  | report _ => exact (over_of_run hrest).2

/-- Where attempts are counted, the budget is not empty. -/
theorem pos_of_run (h : run (next roomId maxAttempts) .open es = some m) :
    (∀ n last, m = .outage n last → 0 < maxAttempts) ∧ (∀ n, m = .asked n → 0 < maxAttempts)
      ∧ ∀ n fetch, m = .signed n fetch → 0 < maxAttempts := by
  induction es using List.reverseRecOn generalizing m with
  | nil =>
    obtain rfl := Option.some.inj h
    exact ⟨nofun, nofun, nofun⟩
  | append_singleton es e ih =>
    obtain ⟨m₁, hbefore, hnext⟩ := run_concat_eq_some.mp h
    obtain ⟨houtage, hasked, hsigned⟩ := ih hbefore
    cases moves_of_next hnext with
    | lose _ hmax =>
      exact ⟨fun _ _ _ => Nat.pos_of_ne_zero hmax, by simp, by simp⟩
    | ask n last hlt => exact ⟨by simp, fun _ _ => Nat.zero_lt_of_lt hlt, by simp⟩
    | sign n fetch => exact ⟨by simp, by simp, fun _ _ _ => hasked n rfl⟩
    | again n fetch last hlt => exact ⟨fun _ _ _ => Nat.zero_lt_of_lt hlt, by simp, by simp⟩
    | _ => simp

theorem signed_ne_exhausted {outcome : SignOutcome} {attempts : Nat} {last : WsError} :
    outcome.signed ≠ .error (.exhausted attempts last) := by
  cases outcome <;> simp [SignOutcome.signed]

/-- `Exhausted` comes right after the failure it carries: that of the last
attempt, or the loss itself when no attempt is allowed. -/
theorem exhausted_carries {attempts : Nat} {last : WsError}
    (h : run (next roomId maxAttempts) .open (before ++ .ended (.exhausted attempts last) :: rest)
      = some m') :
    attempts = maxAttempts
      ∧ (maxAttempts = 0 ∧ (∃ earlier, before = earlier ++ [.lost last])
        ∨ 0 < maxAttempts ∧ ∃ earlier fetch, before = earlier ++ [.opened fetch (.error last)]) := by
  obtain ⟨m₁, m₂, hbefore, hmoves, -⟩ := run_split h
  cases hmoves with
  | report _ =>
    obtain ⟨b, e, m₃, rfl, hb, hmoves'⟩ := run_last hbefore nofun
    cases hmoves' with
    | disabled _ hmax => exact ⟨hmax.symm, Or.inl ⟨hmax, b, rfl⟩⟩
    | refuse _ herror => exact absurd herror signed_ne_exhausted
    | exhaust n fetch _ _ =>
      exact ⟨rfl, Or.inr ⟨(pos_of_run hb).2.2 n fetch rfl, b, fetch, rfl⟩⟩

/-! ## Between a loss and the reopening -/

theorem not_delivered_of_run (h : run (next roomId maxAttempts) m es = some m') (hm : m ≠ .open)
    (hreopened : ∀ e ∈ es, e.isReopened = false) : ∀ message, .delivered message ∉ es := by
  induction es generalizing m with
  | nil => exact fun _ => List.not_mem_nil
  | cons e es ih =>
    obtain ⟨m₁, hnext, hrest⟩ := run_cons_eq_some.mp h
    have hmoves := moves_of_next hnext
    have hm₁ : m₁ ≠ .open := by
      rintro rfl
      cases hmoves with
      | deliver _ => exact hm rfl
      | dropRead => exact hm rfl
      | reopen _ fetch connection => cases hreopened _ List.mem_cons_self
    intro message hmem
    rcases List.mem_cons.mp hmem with rfl | hmem
    · cases hmoves with
      | deliver _ => exact hm rfl
    · exact ih hrest hm₁ (fun e' he' => hreopened e' (List.mem_cons_of_mem e he')) message hmem

/-- No message between the loss of a socket and the next reopening. -/
theorem not_delivered_in_outage {cause : WsError} {outage : List Entry}
    (h : run (next roomId maxAttempts) m (before ++ .lost cause :: outage ++ rest) = some m')
    (hreopened : ∀ e ∈ outage, e.isReopened = false) : ∀ message, .delivered message ∉ outage := by
  obtain ⟨m₁, h, -⟩ := run_append_eq_some.mp h
  obtain ⟨m₀, m₂, -, hmoves, hrun⟩ := run_split h
  refine not_delivered_of_run hrun ?_ hreopened
  cases hmoves with
  | disabled _ _ => simp
  | lose _ _ => simp

/-! ## Silence -/

theorem silent_of_run (h : run (next roomId maxAttempts) .silent es = some m') :
    m' = .silent ∧ ∀ error, .ended error ∉ es := by
  induction es with
  | nil => exact ⟨(Option.some.inj h).symm, fun _ => List.not_mem_nil⟩
  | cons e es ih =>
    obtain ⟨m₁, hnext, hrest⟩ := run_cons_eq_some.mp h
    cases moves_of_next hnext with
    | finishSilent =>
      obtain ⟨hsilent, hended⟩ := ih hrest
      refine ⟨hsilent, fun error hmem => ?_⟩
      rcases List.mem_cons.mp hmem with heq | hmem
      · cases heq
      · exact hended error hmem

/-- Only a drop leads to silence. -/
theorem silent_of_undropped (h : run (next roomId maxAttempts) m es = some .silent)
    (hdropped : .dropped ∉ es) : m = .silent := by
  induction es generalizing m with
  | nil => exact Option.some.inj h
  | cons e es ih =>
    obtain ⟨m₁, hnext, hrest⟩ := run_cons_eq_some.mp h
    obtain rfl := ih hrest fun hmem => hdropped (List.mem_cons_of_mem e hmem)
    cases moves_of_next hnext with
    | finishSilent => rfl
    | _ => exact absurd List.mem_cons_self hdropped

/-- A terminal error leads to `over`, and nothing else does. -/
theorem ended_iff (h : run (next roomId maxAttempts) .open log = some m) :
    (∃ error, .ended error ∈ log) ↔ m = .over := by
  constructor
  · rintro ⟨error, hmem⟩
    obtain ⟨before, rest, rfl⟩ := List.append_of_mem hmem
    obtain ⟨m₁, m₂, -, hmoves, hrest⟩ := run_split h
    cases hmoves with
    | report _ => exact (over_of_run hrest).1
  · intro hover
    induction log using List.reverseRecOn generalizing m with
    | nil =>
      obtain rfl := Option.some.inj h
      cases hover
    | append_singleton log e ih =>
      obtain ⟨m₁, hbefore, hnext⟩ := run_concat_eq_some.mp h
      subst hover
      cases moves_of_next hnext with
      | report error => exact ⟨error, by simp⟩
      | finish =>
        obtain ⟨error, hmem⟩ := ih hbefore rfl
        exact ⟨error, List.mem_append_left _ hmem⟩

/-- Away from `silent`, every `None` comes after a terminal error. -/
theorem ended_before_finished
    (h : run (next roomId maxAttempts) .open (before ++ .finished :: rest) = some m)
    (hsilent : m ≠ .silent) : ∃ error, .ended error ∈ before := by
  obtain ⟨m₁, m₂, hbefore, hmoves, hrest⟩ := run_split h
  cases hmoves with
  | finish => exact (ended_iff hbefore).mpr rfl
  | finishSilent => exact absurd (silent_of_run hrest).1 hsilent

end

end Mode

end TiktokSigner.LiveWs
