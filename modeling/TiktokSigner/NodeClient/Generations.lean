import TiktokSigner.NodeClient.ConnectionMoves

/-!
# The generations of a connection

Nothing is emitted after `disconnect`, and a socket that is not current is
closed or gone, in every run. The rest needs that a listener does not start
a newer `connect` while the handler that notifies it is about to schedule a
reconnect: after `disconnected`, `error` and `offline` the handlers look
only at `#closing`, where `#scheduleReconnect` itself compares the
generation after `reconnecting`. A socket whose open has failed also stays
in `#socket` until the next one replaces it, and its close event is heard
until then. `inTime` is the rest of the steps.
-/

namespace TiktokSigner.NodeClient

open Function (update update_self update_of_ne)

/-- The calls end with a `connect` of their own; `busy` if one would join
what is there. -/
def restarts (busy : Bool) (calls : List Api) : Bool :=
  calls.getLast? == some .connect && (!busy || calls.contains .disconnect)

namespace Client

/-- No newer `connect` comes between a handler and what it goes on to do. -/
def inTime (flavor : Flavor) (s : Client) : ClientAction → Bool
  | .closed k calls _ =>
      s.socket != some k ||
        if (s.sockets k).opened then !restarts s.connecting.isSome calls
        else (s.sockets k).generation == s.generation
  | .resume g failure calls _ =>
      match s.attempts g with
      | .resolved true => s.closing || g == s.generation
      | .rejected =>
          s.stale g || !flavor.retries failure ||
            !restarts (s.connected || s.connecting.isSome) calls
      | _ => true
  | _ => true

abbrev Moves (policy : Nat) (timely : Prop) : Client → Client → Prop :=
  Relation.ReflTransGen (Move policy timely)

variable {flavor : Flavor} {policy : Nat} {timely : Prop} {s t u : Client} {k g : Nat}
  {calls calls' : List Api}

/-! ## The listeners -/

theorem moves_start (hopen : s.quiet = true → s.closing = false) :
    Moves policy timely s s.start := by
  rw [start]
  split_ifs with h
  · exact Relation.ReflTransGen.refl
  · simp only [Bool.or_eq_true, not_or, Bool.not_eq_true, Option.isSome_eq_false_iff,
      Option.isNone_iff_eq_none] at h
    exact Relation.ReflTransGen.single (Move.start h.1 h.2 hopen)

theorem moves_call (api : Api) : Moves policy timely s (s.call api) := by
  cases api with
  | connect => exact Relation.ReflTransGen.head Move.ask (moves_start nofun)
  | disconnect => exact Relation.ReflTransGen.single Move.disconnect

theorem moves_notify (calls : List Api) : Moves policy timely s (s.notify calls) := by
  induction calls generalizing s with
  | nil => exact Relation.ReflTransGen.refl
  | cons api calls ih => exact (moves_call api).trans ih

theorem moves_emit (hopen : s.closing = false) (calls : List Api) :
    Moves policy timely s (s.emit calls) :=
  Relation.ReflTransGen.head (Move.emit hopen) (moves_notify calls)

/-- A call changes nothing but `quiet`, or the generation grows. -/
theorem call_cases (s : Client) (api : Api) :
    s.call api = s ∨ s.call api = { s with quiet := false }
      ∨ s.generation < (s.call api).generation := by
  cases api with
  | connect =>
    show connect s = s ∨ connect s = _ ∨ s.generation < (connect s).generation
    rw [connect, start]
    split_ifs
    · exact Or.inr (Or.inl rfl)
    · exact Or.inr (Or.inr (Nat.lt_succ_self s.generation))
  | disconnect => exact Or.inr (Or.inr (Nat.lt_succ_self s.generation))

theorem notify_cases (s : Client) (calls : List Api) :
    s.notify calls = s ∨ s.notify calls = { s with quiet := false } ∨
      s.generation < (s.notify calls).generation := by
  induction calls generalizing s with
  | nil => exact Or.inl rfl
  | cons api calls ih =>
    show (s.call api).notify calls = s ∨ (s.call api).notify calls = _ ∨
      s.generation < ((s.call api).notify calls).generation
    rcases call_cases s api with hsame | hasked | hgrown
    · rw [hsame]
      exact ih s
    · rw [hasked]
      rcases ih { s with quiet := false } with hsame | hasked' | hgrown
      · exact Or.inr (Or.inl hsame)
      · exact Or.inr (Or.inl hasked')
      · exact Or.inr (Or.inr hgrown)
    · refine Or.inr (Or.inr ?_)
      rcases ih (s.call api) with hsame | hasked | hgrown'
      · rw [hsame]
        exact hgrown
      · rw [hasked]
        exact hgrown
      · exact Nat.lt_trans hgrown hgrown'

/-- The listeners have not changed the generation. -/
theorem notify_same (hsame : (s.notify calls).generation = s.generation) :
    ∃ quiet, s.notify calls = { s with quiet := quiet } := by
  rcases notify_cases s calls with h | h | h
  · exact ⟨s.quiet, h⟩
  · exact ⟨false, h⟩
  · exact absurd hsame (Nat.ne_of_gt h)

theorem generation_le_notify (s : Client) (calls : List Api) :
    s.generation ≤ (s.notify calls).generation := by
  rcases notify_cases s calls with h | h | h
  · exact Nat.le_of_eq (congrArg generation h.symm)
  · have hgeneration : (s.notify calls).generation = s.generation := by rw [h]
    exact Nat.le_of_eq hgeneration.symm
  · exact Nat.le_of_lt h

theorem stale_eq_false : s.stale g = false ↔ s.closing = false ∧ g = s.generation := by
  rw [stale, Bool.or_eq_false_iff, bne_eq_false_iff_eq]

theorem notify_append (s : Client) (calls calls' : List Api) :
    s.notify (calls ++ calls') = (s.notify calls).notify calls' :=
  List.foldl_append

/-- Calls of `connect` alone join what is there. -/
theorem notify_connects (hbusy : (s.connected || s.connecting.isSome) = true)
    (hcalls : .disconnect ∉ calls) : (s.notify calls).generation = s.generation := by
  induction calls generalizing s with
  | nil => rfl
  | cons api calls ih =>
    obtain ⟨happi, hrest⟩ := not_or.mp (mt List.mem_cons.mpr hcalls)
    cases api with
    | disconnect => exact absurd rfl happi
    | connect =>
      show ((connect s).notify calls).generation = s.generation
      have hjoin : connect s = { s with quiet := false } := if_pos hbusy
      rw [hjoin]
      exact ih (s := { s with quiet := false }) hbusy hrest

/-- After calls that do not restart, `disconnect` has the last word or the
generation is the same. -/
theorem notify_of_not_restarts (h : restarts (s.connected || s.connecting.isSome) calls = false) :
    (s.notify calls).closing = true ∨ (s.notify calls).generation = s.generation := by
  rcases List.eq_nil_or_concat calls with rfl | ⟨init, last, rfl⟩
  · exact Or.inr rfl
  · rw [List.concat_eq_append] at h ⊢
    cases last with
    | disconnect =>
      rw [notify_append]
      exact Or.inl rfl
    | connect =>
      cases hbusy : (s.connected || s.connecting.isSome) with
      | false => simp [restarts, hbusy] at h
      | true =>
        have hcalls : .disconnect ∉ init ++ [Api.connect] := by simpa [restarts, hbusy] using h
        exact Or.inr (notify_connects hbusy hcalls)

theorem Sockets.moves (h : s.Sockets) (hm : Moves policy timely s t) : t.Sockets := by
  induction hm with
  | refl => exact h
  | tail _ hm ih => exact ih.move hm

theorem Sockets.notify (h : s.Sockets) (calls : List Api) : (s.notify calls).Sockets :=
  h.moves (moves_notify calls : Moves 0 True s (s.notify calls))

/-! ## The handlers -/

theorem moves_cutOff (calls : List Api) : Moves policy timely s (s.cutOff.notify calls) :=
  Relation.ReflTransGen.head Move.cutOff (moves_notify calls)

theorem moves_schedule (hrest : timely → (s.attempts s.generation).isSettled = true) :
    Moves policy timely s (s.scheduleReconnect policy calls) := by
  rw [scheduleReconnect]
  dsimp only
  split_ifs with hskip hover hstale
  · exact Relation.ReflTransGen.refl
  · exact moves_notify calls
  · have hpolicy := Nat.lt_of_not_le hover
    exact Relation.ReflTransGen.head (Move.attempt hpolicy) (moves_notify calls)
  · have hpolicy := Nat.lt_of_not_le hover
    have htimer : s.reconnectTimer = none := by
      cases htimer : s.reconnectTimer with
      | none => rfl
      | some g => simp [htimer] at hskip
    obtain ⟨-, hgeneration⟩ := stale_eq_false.mp (Bool.eq_false_iff.mpr hstale)
    rcases notify_cases { s with attempt := s.attempt + 1 } calls with h | h | h
    · rw [h]
      exact Relation.ReflTransGen.single (Move.schedule hpolicy htimer hrest)
    · rw [h]
      exact Relation.ReflTransGen.head Move.ask
        (Relation.ReflTransGen.single (Move.schedule hpolicy htimer hrest))
    · exact absurd hgeneration (Nat.ne_of_lt h)

/-- An attempt that still fetches is not the one that a socket waits for. -/
theorem Sockets.free_of_fetching (h : s.Sockets) (hfetching : s.attempts g = .fetching) (k : Nat)
    (hsocket : s.socket = some k) (hsettled : (s.sockets k).settled = false) : g ≠ s.generation := by
  rintro rfl
  rw [(h.waiting k hsocket hsettled).1] at hfetching
  cases hfetching

theorem moves_reject (h : s.Sockets) (hfetching : s.attempts g = .fetching) :
    Moves policy timely s (s.reject g) :=
  Relation.ReflTransGen.single
    (Move.finish g .rejected (Sockets.fetching_le h.toKept hfetching) rfl
      (h.free_of_fetching hfetching))

theorem moves_offline (h : s.Sockets) (hfetching : s.attempts g = .fetching) :
    Moves policy timely s (s.offline g calls) := by
  rw [offline]
  dsimp only
  split_ifs with hstale
  · exact moves_reject h hfetching
  · have hother : Moves policy timely s { s with heartbeat := none } :=
      Relation.ReflTransGen.single
        (Move.other none s.delivery s.awaiting s.refreshing s.guestRefreshAttempted)
    have hnotify := hother.trans (moves_notify calls)
    have ht := h.moves hnotify
    refine hnotify.tail (Move.finish g (.resolved true) ?_ rfl ?_)
    · exact Nat.le_trans (Sockets.fetching_le h.toKept hfetching)
        (generation_le_notify { s with heartbeat := none } calls)
    · intro k hsocket hsettled hgeneration
      refine ht.free_of_fetching ?_ k hsocket hsettled hgeneration
      obtain ⟨-, hg⟩ := stale_eq_false.mp (Bool.eq_false_iff.mpr hstale)
      obtain ⟨quiet, hsame⟩ := notify_same (hgeneration.symm.trans hg)
      rw [hsame]
      exact hfetching

theorem moves_open (h : s.Sockets) (hfetching : s.attempts g = .fetching) :
    Moves policy timely s (s.openSocket g calls) := by
  rw [openSocket]
  dsimp only
  split_ifs with hstale hstale'
  · exact moves_reject h hfetching
  · obtain ⟨hclosing, hg⟩ := stale_eq_false.mp (Bool.eq_false_iff.mpr hstale)
    refine (moves_notify calls).tail (Move.abandon g ?_)
    rcases notify_cases s calls with hsame | hasked | hgrown
    · rw [hsame] at hstale'
      exact absurd hstale' hstale
    · rw [hasked] at hstale'
      exact absurd hstale' hstale
    · rw [hg]
      exact hgrown
  · obtain ⟨-, hg⟩ := stale_eq_false.mp (Bool.eq_false_iff.mpr hstale)
    obtain ⟨-, hg'⟩ := stale_eq_false.mp (Bool.eq_false_iff.mpr hstale')
    obtain ⟨quiet, hsame⟩ := notify_same (hg'.symm.trans hg)
    have hinstall : (s.notify calls).attempts (s.notify calls).generation = .fetching := by
      rw [← hg', hsame]
      exact hfetching
    refine (moves_notify calls).tail ?_
    have hmove : Move policy timely (s.notify calls) _ := Move.install hinstall
    rw [← hg'] at hmove
    exact hmove

theorem current_of_not_stale (h : ¬(s.stale (s.sockets k).generation || s.socket != some k) = true) :
    s.closing = false ∧ (s.sockets k).generation = s.generation ∧ s.socket = some k := by
  rw [Bool.not_eq_true, Bool.or_eq_false_iff, stale_eq_false, bne_eq_false_iff_eq] at h
  exact ⟨h.1.1, h.1.2, h.2⟩

theorem moves_opened {sent : Sent} (hmade : k < s.made) (hsettled : (s.sockets k).settled = false) :
    Moves policy timely s (s.opened flavor k sent calls) := by
  rw [opened]
  split_ifs with hstale
  · exact Relation.ReflTransGen.single (Move.timeout k hmade)
  · obtain ⟨hclosing, hgeneration, hsocket⟩ := current_of_not_stale hstale
    refine Relation.ReflTransGen.head (Move.effect k fun _ => hgeneration) ?_
    have hmade' : k < (s.effect k).cutOff.made := by
      rw [cutOff, made_disconnect]
      exact hmade
    cases sent with
    | ok =>
      refine Relation.ReflTransGen.head (Move.opened k hsocket hsettled hgeneration) ?_
      exact moves_emit (by exact hclosing) calls
    | failed =>
      cases flavor with
      | tiktokLive => exact Relation.ReflTransGen.single (Move.refuse k hmade)
      | liveSdk => exact Relation.ReflTransGen.single (Move.timeout k hmade)
    | overflow =>
      refine Relation.ReflTransGen.head Move.cutOff ?_
      cases flavor with
      | tiktokLive => exact Relation.ReflTransGen.single (Move.refuse k hmade')
      | liveSdk => exact Relation.ReflTransGen.single (Move.timeout k hmade')

theorem moves_message {hint : Bool} {sent : Sent} {n : Nat} {full : Bool} :
    Moves policy timely s (s.message k hint sent n full calls calls') := by
  rw [message]
  dsimp only
  split
  case isTrue => exact Relation.ReflTransGen.refl
  case isFalse hstale =>
    obtain ⟨-, hgeneration, -⟩ := current_of_not_stale hstale
    refine Relation.ReflTransGen.head (Move.effect k fun _ => hgeneration)
      (Relation.ReflTransGen.head (Move.other (if hint then some k else s.heartbeat) s.delivery
        s.awaiting s.refreshing s.guestRefreshAttempted) ?_)
    have hrest : ∀ u : Client, Moves policy timely u
        (if u.stale s.generation then u
          else if full then u.disconnect.notify calls'
          else { u with delivery := u.delivery ++ List.replicate n s.generation }) := by
      intro u
      split_ifs
      · exact Relation.ReflTransGen.refl
      · exact Relation.ReflTransGen.head Move.disconnect (moves_notify calls')
      · exact Relation.ReflTransGen.single (Move.other _ _ _ _ _)
    cases sent with
    | ok => exact hrest _
    | failed => exact (moves_notify calls).trans (hrest _)
    | overflow => exact (moves_cutOff calls).trans (hrest _)

/-- `disconnected` finds no timer and leaves none to a newer `connect`. -/
theorem moves_closed (h : s.Sockets) (hmade : k < s.made)
    (htimely : timely → s.inTime flavor (.closed k calls calls') = true) :
    Moves policy timely s (s.closed policy k calls calls') := by
  have heffect : ∀ hcurrent : timely → (s.sockets k).generation = s.generation,
      s.socket = some k → Moves policy timely s (s.lost k) := fun hcurrent hsocket =>
    Relation.ReflTransGen.head (Move.effect k hcurrent)
      (Relation.ReflTransGen.single (Move.lost k hsocket))
  have hfailed : s.socket = some k → (s.sockets k).opened = false →
      timely → (s.sockets k).generation = s.generation := by
    intro hsocket hopened ht
    have hcalls := htimely ht
    simpa only [inTime, hsocket, bne_self_eq_false, Bool.false_or, hopened, Bool.false_eq_true,
      if_false, beq_iff_eq] using hcalls
  rw [closed]
  dsimp only
  split_ifs with hsocket hopened hclosing hsettled
  · obtain ⟨-, hgeneration⟩ := h.opened k hsocket hopened
    exact (heffect (fun _ => hgeneration) hsocket).trans (moves_notify calls)
  · obtain ⟨hconnected, hgeneration⟩ := h.opened k hsocket hopened
    have hsame : timely → ∃ quiet, (s.lost k).notify calls = { s.lost k with quiet := quiet } := by
      intro ht
      have hcalls := htimely ht
      simp only [inTime, hsocket, bne_self_eq_false, Bool.false_or, hopened, if_true,
        Bool.not_eq_true'] at hcalls
      rcases notify_of_not_restarts (s := s.lost k) hcalls with hquiet | hquiet
      · exact absurd hquiet hclosing
      · exact notify_same hquiet
    refine ((heffect (fun _ => hgeneration) hsocket).trans (moves_notify calls)).trans ?_
    refine Relation.ReflTransGen.head (Move.effect k ?_) (moves_schedule ?_)
    · intro ht
      obtain ⟨quiet, heq⟩ := hsame ht
      rw [heq]
      show (update s.sockets k _ k).generation = s.generation
      rw [update_self]
      exact hgeneration
    · intro ht
      obtain ⟨quiet, heq⟩ := hsame ht
      show (((s.lost k).notify calls).attempts ((s.lost k).notify calls).generation).isSettled = true
      rw [heq]
      exact h.connected hconnected
  · exact heffect (hfailed hsocket (Bool.eq_false_iff.mpr hopened)) hsocket
  · exact (heffect (hfailed hsocket (Bool.eq_false_iff.mpr hopened)) hsocket).tail
      (Move.settle k hmade nofun)
  · exact Relation.ReflTransGen.single (Move.gone k hmade hsocket)

theorem moves_dispatch : Moves policy timely s (s.dispatch g calls calls') := by
  rw [dispatch]
  dsimp only
  split_ifs with hstale hstale'
  · exact Relation.ReflTransGen.refl
  · exact moves_emit (stale_eq_false.mp (Bool.eq_false_iff.mpr hstale)).1 calls
  · exact (moves_emit (stale_eq_false.mp (Bool.eq_false_iff.mpr hstale)).1 calls).trans
      (moves_emit (stale_eq_false.mp (Bool.eq_false_iff.mpr hstale')).1 calls')

theorem moves_beat {sent : Sent} : Moves policy timely s (s.beat flavor k sent calls) := by
  unfold beat
  dsimp only
  split_ifs
  · exact moves_cutOff calls
  · exact Relation.ReflTransGen.refl

theorem moves_timer (htimer : s.reconnectTimer = some g) :
    Moves policy timely s (s.timerFires g) := by
  rw [timerFires]
  dsimp only
  split_ifs with hstale
  · exact Relation.ReflTransGen.single Move.fire
  · obtain ⟨hclosing, -⟩ := stale_eq_false.mp (Bool.eq_false_iff.mpr hstale)
    have hstart : Moves policy timely s
        { s with reconnectTimer := none, starts := s.starts + 1 }.start :=
      Relation.ReflTransGen.head (Move.begin (by rw [htimer]; rfl)) (moves_start fun _ => hclosing)
    exact hstart.tail (Move.other _ _ _ _ _)

theorem moves_resume {failure : Failure}
    (htimely : timely → s.inTime flavor (.resume g failure calls calls') = true) :
    Moves policy timely s (s.resume flavor policy g failure calls calls') := by
  have herase : Moves policy timely s { s with awaiting := s.awaiting.erase g } :=
    Relation.ReflTransGen.single (Move.other s.heartbeat s.delivery (s.awaiting.erase g) s.refreshing
      s.guestRefreshAttempted)
  refine herase.trans ?_
  rw [resume]
  dsimp only
  split
  case h_1 hresolved =>
    split_ifs with hclosing
    · exact Relation.ReflTransGen.refl
    · refine moves_schedule fun ht => ?_
      have hcalls := htimely ht
      simp only [inTime, hresolved, Bool.or_eq_true, beq_iff_eq] at hcalls
      rcases hcalls with hquiet | rfl
      · exact absurd hquiet hclosing
      · show (s.attempts s.generation).isSettled = true
        rw [hresolved]
        rfl
  case h_2 hrejected =>
    split_ifs with hstale hrefresh hdone
    · exact Relation.ReflTransGen.refl
    · exact Relation.ReflTransGen.single (Move.other _ _ _ _ _)
    · exact moves_notify calls
    · refine (moves_notify calls).trans (moves_schedule fun ht => ?_)
      have hcalls := htimely ht
      have hstale : s.stale g = false := Bool.eq_false_iff.mpr hstale
      rw [Bool.or_eq_true, not_or, Bool.not_eq_true', Bool.not_eq_false] at hdone
      simp only [inTime, hrejected, hstale, hdone.2, Bool.not_true, Bool.false_or,
        Bool.not_eq_true'] at hcalls
      obtain ⟨-, rfl⟩ := stale_eq_false.mp hstale
      rcases notify_of_not_restarts (s := { s with awaiting := s.awaiting.erase s.generation })
        hcalls
        with hquiet | hquiet
      · exact absurd hquiet hdone.1
      · obtain ⟨quiet, heq⟩ := notify_same hquiet
        rw [heq]
        show (s.attempts s.generation).isSettled = true
        rw [hrejected]
        rfl
  case h_3 => exact Relation.ReflTransGen.refl

theorem moves_refreshed {ok : Bool} : Moves policy timely s (s.refreshed g ok calls) := by
  have herase : Moves policy timely s { s with refreshing := s.refreshing.erase g } :=
    Relation.ReflTransGen.single (Move.other s.heartbeat s.delivery s.awaiting (s.refreshing.erase g)
      s.guestRefreshAttempted)
  refine herase.trans ?_
  rw [refreshed]
  dsimp only
  split_ifs with hok hstale hclosing
  · exact Relation.ReflTransGen.refl
  · exact moves_start fun _ => (stale_eq_false.mp (Bool.eq_false_iff.mpr hstale)).1
  · exact Relation.ReflTransGen.refl
  · exact moves_notify calls

/-- Every step is a chain of moves. -/
theorem moves_of_step {a : ClientAction} (h : s.Sockets)
    (htimely : timely → s.inTime flavor a = true) (hs : Client.step flavor policy s a = some t) :
    Moves policy timely s t := by
  cases a with
  | connect =>
    cases hs
    exact moves_call .connect
  | disconnect =>
    cases hs
    exact moves_call .disconnect
  | fail g =>
    obtain ⟨hfetching, hs⟩ := Option.ite_none_right_eq_some.mp hs
    cases hs
    exact moves_reject h hfetching
  | offline g calls =>
    obtain ⟨⟨hfetching, -⟩, hs⟩ := Option.ite_none_right_eq_some.mp hs
    cases hs
    exact moves_offline h hfetching
  | «open» g calls =>
    obtain ⟨hfetching, hs⟩ := Option.ite_none_right_eq_some.mp hs
    cases hs
    exact moves_open h hfetching
  | timeout k =>
    obtain ⟨⟨hmade, -⟩, hs⟩ := Option.ite_none_right_eq_some.mp hs
    cases hs
    exact Relation.ReflTransGen.single (Move.timeout k hmade)
  | opened k sent calls =>
    obtain ⟨⟨hmade, hsettled⟩, hs⟩ := Option.ite_none_right_eq_some.mp hs
    cases hs
    exact moves_opened hmade hsettled
  | message k hint sent n full calls calls' =>
    obtain ⟨-, hs⟩ := Option.ite_none_right_eq_some.mp hs
    cases hs
    exact moves_message
  | errored k calls =>
    obtain ⟨-, hs⟩ := Option.ite_none_right_eq_some.mp hs
    cases hs
    rw [errored]
    split_ifs
    · exact moves_notify calls
    · exact Relation.ReflTransGen.refl
  | closed k calls calls' =>
    obtain ⟨⟨hmade, -⟩, hs⟩ := Option.ite_none_right_eq_some.mp hs
    cases hs
    exact moves_closed h hmade htimely
  | deliver calls calls' =>
    simp only [step] at hs
    split at hs
    case h_1 g delivery _ =>
      cases hs
      exact Relation.ReflTransGen.head
        (Move.other s.heartbeat delivery s.awaiting s.refreshing s.guestRefreshAttempted)
          moves_dispatch
    case h_2 => cases hs
  | beat sent calls =>
    simp only [step] at hs
    split at hs
    case h_1 k _ =>
      cases hs
      exact moves_beat
    case h_2 => cases hs
  | timer =>
    simp only [step] at hs
    split at hs
    case h_1 g htimer =>
      cases hs
      exact moves_timer htimer
    case h_2 => cases hs
  | settle g =>
    obtain ⟨hsettled, hs⟩ := Option.ite_none_right_eq_some.mp hs
    cases hs
    split_ifs with hconnecting
    · exact Relation.ReflTransGen.single (Move.done g hconnecting hsettled)
    · exact Relation.ReflTransGen.refl
  | resume g failure calls calls' =>
    obtain ⟨-, hs⟩ := Option.ite_none_right_eq_some.mp hs
    cases hs
    exact moves_resume htimely
  | refreshed g ok calls =>
    obtain ⟨-, hs⟩ := Option.ite_none_right_eq_some.mp hs
    cases hs
    exact moves_refreshed

/-! ## Whole runs -/

/-- What holds of the sockets and the notifications however the listeners
behave. -/
structure Guarded (s : Client) : Prop where
  quiet : s.Quiet
  sockets : s.Sockets

theorem Guarded.moves (h : s.Guarded) (hm : Moves policy timely s t) : t.Guarded := by
  induction hm with
  | refl => exact h
  | tail _ hm ih => exact ⟨ih.quiet.move hm, ih.sockets.move hm⟩

theorem Paced.moves (h : s.Paced policy) (hsockets : s.Sockets) (hm : Moves policy True s t) :
    t.Paced policy := by
  induction hm with
  | refl => exact h
  | tail hpre hm ih => exact ih.move (hsockets.moves hpre) trivial hm

theorem guarded_initial : Guarded {} :=
  ⟨⟨nofun, nofun⟩, ⟨⟨fun _ _ => rfl, nofun, nofun, nofun, nofun⟩, nofun, nofun, nofun, nofun,
    nofun, nofun,
    nofun⟩⟩

theorem paced_initial : Paced policy {} :=
  ⟨nofun, Nat.le_refl 0, Nat.zero_le policy, nofun⟩

theorem guarded_of_run {as : List ClientAction} (h : s.Guarded)
    (hrun : Lts.run (Client.step flavor policy) s as = some t) : t.Guarded := by
  refine Lts.run_invariant_all (I := Guarded) ?_ h hrun
  intro s a t h hs
  have hm : Moves policy False s t := moves_of_step h.sockets nofun hs
  exact h.moves hm

/-! ## Events of older sockets -/

/-- The fields that the handlers read and change, but for the sockets' own. -/
def visible (s : Client) :=
  (s.closing, s.generation, s.socket, s.connected, s.heartbeat, s.reconnectTimer, s.connecting,
    s.attempt, s.cancelOpen, s.guestRefreshAttempted, s.delivery)

/-- An event of a socket of an older generation leaves the client as it is. -/
theorem visible_of_older {a : ClientAction} (h : s.Sockets) (hevent : a.socket? = some k)
    (holder : (s.sockets k).generation ≠ s.generation) (hin : s.inTime flavor a = true)
    (hs : Client.step flavor policy s a = some t) : t.visible = s.visible := by
  have hstale : (s.stale (s.sockets k).generation || s.socket != some k) = true := by
    simp [stale, holder]
  cases a with
  | timeout j =>
    obtain ⟨-, hs⟩ := Option.ite_none_right_eq_some.mp hs
    cases hs
    rfl
  | opened j sent calls =>
    obtain rfl : j = k := Option.some.inj hevent
    obtain ⟨-, hs⟩ := Option.ite_none_right_eq_some.mp hs
    cases hs
    rw [opened, if_pos hstale]
    rfl
  | message j hint sent n full calls calls' =>
    obtain rfl : j = k := Option.some.inj hevent
    obtain ⟨-, hs⟩ := Option.ite_none_right_eq_some.mp hs
    cases hs
    rw [message, if_pos hstale]
  | errored j calls =>
    obtain rfl : j = k := Option.some.inj hevent
    obtain ⟨-, hs⟩ := Option.ite_none_right_eq_some.mp hs
    cases hs
    rw [errored, if_neg fun hcurrent => holder hcurrent.2.1]
  | closed j calls calls' =>
    obtain rfl : j = k := Option.some.inj hevent
    obtain ⟨-, hs⟩ := Option.ite_none_right_eq_some.mp hs
    cases hs
    have hsocket : s.socket ≠ some j := by
      intro hsocket
      cases hopened : (s.sockets j).opened with
      | true => exact holder (h.opened j hsocket hopened).2
      | false => simp [inTime, hsocket, hopened, holder] at hin
    rw [closed, if_neg hsocket]
    rfl
  | _ => cases hevent

/-! ## The laws -/

/-- What a client owes its generations. -/
structure Lawful (policy : Nat) (s : Client) : Prop where
  /-- Nothing is emitted between `disconnect` and the next `connect`. -/
  silent : ∀ b ∈ s.emitted, b = false
  /-- Only a socket of the current generation changes anything. -/
  current : ∀ e ∈ s.effects, e.1 = e.2
  /-- Every other socket is closed or has been closed by the peer. -/
  closed : ∀ k < s.made,
    s.socket = some k ∨ (s.sockets k).closed = true ∨ (s.sockets k).gone = true
  /-- The reconnects since the last open. -/
  bounded : s.starts ≤ policy

/-- The silence and the sockets need no condition. -/
theorem silent_and_closed {as : List ClientAction}
    (hrun : Lts.run (Client.step flavor policy) {} as = some s) :
    (∀ b ∈ s.emitted, b = false) ∧ ∀ k < s.made,
      s.socket = some k ∨ (s.sockets k).closed = true ∨ (s.sockets k).gone = true :=
  have h := guarded_of_run guarded_initial hrun
  ⟨h.quiet.silent, h.sockets.left⟩

/-- The generations hold in every run whose steps are all `inTime`. -/
theorem generations_hold {as : List ClientAction}
    (hin : Lts.AllMeet (Client.step flavor policy) (fun s a => s.inTime flavor a = true) {} as)
    (hrun : Lts.run (Client.step flavor policy) {} as = some s) : s.Lawful policy := by
  have hinv : s.Guarded ∧ s.Paced policy := by
    refine Lts.run_invariant (I := fun s => s.Guarded ∧ s.Paced policy) ?_
      ⟨guarded_initial, paced_initial⟩ hin hrun
    intro s a t h htime hs
    have hm : Moves policy True s t := moves_of_step h.1.sockets (fun _ => htime) hs
    exact ⟨h.1.moves hm, h.2.moves h.1.sockets hm⟩
  obtain ⟨hguarded, hpaced⟩ := hinv
  exact ⟨hguarded.quiet.silent, hpaced.current, hguarded.sockets.left,
    Nat.le_trans hpaced.starts_le hpaced.cap⟩

/-- A connection drops, the second attempt times out and the third is
disconnected by the listener of its first event. -/
theorem generations_hold_after_timeout :
    ∃ s, Lts.run (Client.step .tiktokLive 2) {} [.connect, .open 1 [], .opened 0 .ok [], .settle 1,
        .closed 0 [] [], .timer, .open 2 [], .timeout 1, .settle 2, .resume 2 .retryable [] [],
        .closed 1 [] [], .timer, .open 3 [], .opened 2 .ok [], .settle 3,
        .message 2 true .ok 2 false [] [], .deliver [.disconnect] []] = some s ∧
      (s.starts = 0 ∧ s.emitted = [false, false, false] ∧ s.made = 3) ∧ s.Lawful 2 := by
  refine Lts.exists_run
    (P := fun s => s.starts = 0 ∧ s.emitted = [false, false, false] ∧ s.made = 3) (by decide) ?_
  intro s hrun hend
  exact ⟨hend, generations_hold (by decide) hrun⟩

/-- The listener of `disconnected` calls `connect`: the close handler of the
old socket still schedules a reconnect, which the successful open does not
take back. With the next drop there are two for a policy of one. -/
theorem reconnect_beside_newer_connect :
    ¬∀ (flavor : Flavor) (policy : Nat) (as : List ClientAction) (s : Client),
      Lts.run (Client.step flavor policy) {} as = some s → s.Lawful policy := by
  intro h
  have hrun : ∃ s, Lts.run (Client.step .tiktokLive 1) {} [.connect, .open 1 [], .opened 0 .ok [],
      .settle 1, .closed 0 [.connect] [], .open 2 [], .opened 1 .ok [], .settle 2, .timer,
      .closed 1 [] [], .timer] = some s ∧ (s.starts = 2 ∧ (1, 2) ∈ s.effects) :=
    Lts.exists_run (P := fun s => s.starts = 2 ∧ (1, 2) ∈ s.effects) (by decide) fun _ _ h => h
  obtain ⟨s, hrun, hstarts, -⟩ := hrun
  have hbounded := (h _ _ _ s hrun).bounded
  rw [hstarts] at hbounded
  exact absurd hbounded (by decide)

end Client

end TiktokSigner.NodeClient
