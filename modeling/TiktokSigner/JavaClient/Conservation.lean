import TiktokSigner.JavaClient.CallbackLaws

/-!
# Which runs conserve the notifications

What a step gives up is appended to `lost`, and a step gives up nothing
exactly when it is `Kept`. By the account, the idle client has delivered or
counted every notification exactly when `lost` is empty.

Deliveries begin in the order in which they were handed on, which is that
of the line, where the application's executor keeps to it.
-/

namespace TiktokSigner.JavaClient.TikTokLive

open Lts

variable {s t : TikTokLive} {a : Action}

/-! ## Losses -/

/-- What giving up these deliveries loses. -/
def losses (c : Callbacks) (pairs : List (Nat × Nat)) : List (Nat × Nat) :=
  pairs.filter fun p => p.2 < c.heard p.1 ∧ p.1 ∉ c.counted

theorem losses_eq_nil_iff {c : Callbacks} {pairs : List (Nat × Nat)} :
    losses c pairs = [] ↔ ∀ p ∈ pairs, p.2 < c.heard p.1 → p.1 ∈ c.counted := by
  rw [losses, List.filter_eq_nil_iff]
  refine forall₂_congr fun p _ => ?_
  rw [decide_eq_true_eq, not_and, not_not]

/-- Giving a notification up loses nothing if it is counted or nobody
waits for it. -/
theorem losses_deliveries {c : Callbacks} {i : Nat} :
    losses c (c.deliveries i) = [] ↔ i ∈ c.counted ∨ c.heard i = 0 := by
  rw [losses_eq_nil_iff]
  constructor
  · intro h
    rcases Nat.eq_zero_or_pos (c.heard i) with hzero | hpos
    · exact Or.inr hzero
    · exact Or.inl (h (i, 0) (Callbacks.mem_deliveries.mpr ⟨rfl, hpos⟩) hpos)
  · rintro (hcounted | hzero) p hp hlt
    · rw [(Callbacks.mem_deliveries.mp hp).1]
      exact hcounted
    · have hj := (Callbacks.mem_deliveries.mp hp).2
      rw [hzero] at hj
      exact absurd hj (Nat.not_lt_zero _)

theorem losses_singleton {c : Callbacks} {i j : Nat} (hcounted : i ∉ c.counted) :
    losses c [(i, j)] = [] ↔ c.heard i ≤ j := by
  rw [losses_eq_nil_iff, List.forall_mem_singleton]
  constructor
  · intro h
    by_contra hlt
    exact hcounted (h (Nat.lt_of_not_le hlt))
  · intro hle hlt
    exact absurd hlt (Nat.not_lt_of_le hle)

/-- What `emit` loses, where the lock is held. -/
theorem lost_emit (hnot : s.notifications.length ∉ s.counted) (name : String) :
    ∃ pairs, (s.emit name).lost = s.lost ++ pairs ∧
    (pairs = [] ↔ (s.closed = true ∨ s.deliveryStopped = true → s.listeners.count name = 0)) := by
  rw [emit]
  dsimp only
  generalize hn : ({ name, token := s.generation, listeners := s.listeners.count name } :
    Notification) = n
  by_cases hstop : s.closed = true ∨ s.deliveryStopped = true
  · rw [if_pos hstop]
    refine ⟨losses (s.note n) ((s.note n).deliveries s.notifications.length), rfl, ?_⟩
    rw [losses_deliveries, Callbacks.heard_note, if_pos rfl, ← hn]
    exact ⟨fun hor _ => hor.resolve_left hnot, fun himp => Or.inr (himp hstop)⟩
  · rw [if_neg hstop]
    refine ⟨[], ?_, iff_of_true rfl fun hs => absurd hs hstop⟩
    rw [List.append_nil, Callbacks.execute]
    split_ifs <;> rfl

theorem lost_next (h : Books s) (hs : s.step .next = some t) :
    ∃ pairs, t.lost = s.lost ++ pairs ∧ (pairs = [] ↔ s.Kept .next) := by
  have hquiet : ∀ {u : TikTokLive}, u.lost = s.lost → s.Kept .next →
      ∃ pairs, u.lost = s.lost ++ pairs ∧ (pairs = [] ↔ s.Kept .next) := fun hlost hkept =>
    ⟨[], by rw [hlost, List.append_nil], iff_of_true rfl hkept⟩
  rw [step] at hs
  split at hs
  case h_1 hphase =>
    split at hs
    case h_1 => cases hs
    case h_2 op todo htodo =>
      cases hs
      cases op with
      | emit name =>
        have hkept : s.Kept .next ↔
            (s.closed = true ∨ s.deliveryStopped = true → s.listeners.count name = 0) := by
          rw [Kept, hphase, htodo]
        rw [hkept]
        exact lost_emit (s := { s with todo }) (fun hmem =>
          Nat.lt_irrefl _ (h.dropped.bound _ hmem)) name
      | shutdownEvents =>
        refine ⟨losses s.toCallbacks (s.queued.flatMap s.deliveries), rfl, ?_⟩
        have hkept : s.Kept .next ↔ ∀ i ∈ s.queued, s.heard i = 0 := by
          rw [Kept, hphase, htodo]
        have hfresh : ∀ i ∈ s.queued, i ∉ s.counted := fun i hi =>
          h.dropped.fresh (by rw [hphase]; exact Phase.noConfusion) i (List.mem_append_left _ hi)
        rw [hkept, losses_eq_nil_iff, List.forall_mem_flatMap]
        refine forall₂_congr fun i hi => ?_
        rw [← losses_eq_nil_iff, losses_deliveries]
        exact or_iff_right (hfresh i hi)
      | advance => exact hquiet rfl (by rw [Kept, hphase, htodo]; trivial)
      | retire => exact hquiet rfl (by rw [Kept, hphase, htodo]; trivial)
      | cancelPending =>
        refine hquiet ?_ (by rw [Kept, hphase, htodo]; trivial)
        rw [perform]
        split_ifs <;> rfl
      | overload =>
        refine hquiet ?_ (by rw [Kept, hphase, htodo]; trivial)
        rw [perform, Callbacks.execute]
        split_ifs <;> rfl
      | setClosed => exact hquiet rfl (by rw [Kept, hphase, htodo]; trivial)
  case h_2 i hphase => cases hs; exact hquiet rfl (by rw [Kept, hphase]; trivial)
  case h_3 rejected hphase => cases hs; exact hquiet rfl (by rw [Kept, hphase]; trivial)
  case h_4 hphase => cases hs; exact hquiet rfl (by rw [Kept, hphase]; trivial)

/-- A step loses nothing exactly when it is `Kept`. -/
theorem lost_step (h : Books s) (hs : s.step a = some t) :
    ∃ pairs, t.lost = s.lost ++ pairs ∧ (pairs = [] ↔ s.Kept a) := by
  have hquiet : ∀ {u : TikTokLive}, u.lost = s.lost → s.Kept a →
      ∃ pairs, u.lost = s.lost ++ pairs ∧ (pairs = [] ↔ s.Kept a) := fun hlost hkept =>
    ⟨[], by rw [hlost, List.append_nil], iff_of_true rfl hkept⟩
  cases a with
  | listen _ | emit _ | connect | fail _ _ | disconnect | close | offline | confirm | settle
  | «return» =>
    exact hquiet (congrArg Callbacks.lost (toCallbacks_of_control rfl hs).1) trivial
  | next => exact lost_next h hs
  | take =>
    rw [step] at hs
    split at hs
    case h_1 => cases hs; exact hquiet rfl trivial
    case h_2 => cases hs
  | turn =>
    rw [step] at hs
    split at hs
    case h_1 i hworker =>
      have hkept : s.Kept .turn ↔ (s.Refuses i → i ∈ s.counted ∨ s.heard i = 0) := by
        rw [Kept, hworker]
      split at hs
      case isTrue hrefuses =>
        cases hs
        refine ⟨losses s.toCallbacks (s.deliveries i), rfl, ?_⟩
        rw [hkept, losses_deliveries]
        exact ⟨fun hor _ => hor, fun himp => himp hrefuses⟩
      case isFalse hcurrent =>
        cases hs
        exact hquiet rfl (hkept.mpr fun hrefuses => absurd hrefuses hcurrent)
    case h_2 g hworker => cases hs; exact hquiet rfl (by rw [Kept, hworker]; trivial)
    case h_3 => cases hs
  | hand =>
    rw [step] at hs
    split at hs
    case h_1 =>
      obtain ⟨-, hs⟩ := Option.ite_none_right_eq_some.mp hs
      cases hs
      exact hquiet rfl trivial
    case h_2 => cases hs
  | refuse =>
    rw [step] at hs
    split at hs
    case h_1 i k n hworker =>
      have hkept : s.Kept .refuse ↔ s.heard i ≤ k := by rw [Kept, hworker]
      obtain ⟨-, hs⟩ := Option.ite_none_right_eq_some.mp hs
      cases hs
      refine ⟨losses s.toCallbacks [(i, k)], rfl, ?_⟩
      rw [hkept, losses_singleton (h.dropped.loop i k n hworker)]
    case h_2 => cases hs
  | finish =>
    rw [step] at hs
    split at hs
    case h_1 =>
      obtain ⟨-, hs⟩ := Option.ite_none_right_eq_some.mp hs
      cases hs
      exact hquiet rfl trivial
    case h_2 => cases hs
  | call k =>
    rw [step] at hs
    split at hs
    case h_1 i j hcall =>
      have hkept : s.Kept (.call k) ↔ (s.Stale i → s.heard i ≤ j) := by rw [Kept, hcall]
      split at hs
      case isTrue hstale =>
        cases hs
        refine ⟨losses s.toCallbacks [(i, j)], rfl, ?_⟩
        have hmem : (i, j) ∈ s.calls ++ s.delivered :=
          List.mem_append_left _ (List.mem_of_getElem? hcall)
        rw [hkept, losses_singleton (h.dropped.past _ hmem)]
        exact ⟨fun hle _ => hle, fun himp => himp hstale⟩
      case isFalse hcurrent =>
        cases hs
        exact hquiet rfl (hkept.mpr fun hstale => absurd hstale hcurrent)
    case h_2 => cases hs

/-! ## The order -/

/-- Deliveries begin in the order of their notifications, and for each
notification of its listeners. -/
structure InOrder (s : TikTokLive) : Prop where
  order : (s.delivered ++ s.calls).Pairwise Before
  one : s.callback = false → s.calls.length ≤ 1

/-- What a step does to the invocations. -/
inductive Hands (s : TikTokLive) : Action → TikTokLive → Prop
  | same {a : Action} {t : TikTokLive} (hcalls : t.calls = s.calls)
      (hdelivered : t.delivered = s.delivered) (hcallback : t.callback = s.callback) : Hands s a t
  | hand {t : TikTokLive} (i k n : Nat) (hworker : s.worker = .looping i k n)
      (hreturned : s.Returned) (hcalls : t.calls = s.calls ++ [(i, k)])
      (hdelivered : t.delivered = s.delivered) (hcallback : t.callback = s.callback) :
      Hands s .hand t
  | stale {t : TikTokLive} (k : Nat) (p : Nat × Nat) (hcall : s.calls[k]? = some p)
      (hcalls : t.calls = s.calls.eraseIdx k) (hdelivered : t.delivered = s.delivered)
      (hcallback : t.callback = s.callback) : Hands s (.call k) t
  | begin {t : TikTokLive} (k : Nat) (p : Nat × Nat) (hcall : s.calls[k]? = some p)
      (hcalls : t.calls = s.calls.eraseIdx k) (hdelivered : t.delivered = s.delivered ++ [p])
      (hcallback : t.callback = s.callback) : Hands s (.call k) t

theorem hands_perform (op : Op) : Hands s a (s.perform op) := by
  cases op with
  | emit name =>
    rw [perform, emit]
    dsimp only
    split_ifs
    · exact .same rfl rfl rfl
    · rw [Callbacks.execute]
      split_ifs <;> exact .same rfl rfl rfl
  | cancelPending =>
    rw [perform]
    split_ifs <;> exact .same rfl rfl rfl
  | overload =>
    rw [perform, Callbacks.execute]
    split_ifs <;> exact .same rfl rfl rfl
  | advance | retire | setClosed | shutdownEvents => exact .same rfl rfl rfl

theorem hands_of_step (hs : s.step a = some t) : Hands s a t := by
  cases a with
  | listen _ | emit _ | connect | fail _ _ | disconnect | close | offline | confirm | settle
  | «return» =>
    obtain ⟨hc, hcallback⟩ := toCallbacks_of_control rfl hs
    exact .same (congrArg Callbacks.calls hc) (congrArg Callbacks.delivered hc) hcallback
  | next =>
    rw [step] at hs
    split at hs
    case h_1 =>
      split at hs
      case h_1 => cases hs
      case h_2 op todo _ =>
        cases hs
        cases hands_perform (s := { s with todo }) (a := .next) op with
        | same hcalls hdelivered hcallback => exact .same hcalls hdelivered hcallback
    all_goals
      cases hs
      exact .same rfl rfl rfl
  | take =>
    rw [step] at hs
    split at hs
    case h_1 => cases hs; exact .same rfl rfl rfl
    case h_2 => cases hs
  | turn =>
    rw [step] at hs
    split at hs
    case h_1 => split at hs <;> cases hs <;> exact .same rfl rfl rfl
    case h_2 => cases hs; exact .same rfl rfl rfl
    case h_3 => cases hs
  | hand =>
    rw [step] at hs
    split at hs
    case h_1 i k n hworker =>
      obtain ⟨hmay, hs⟩ := Option.ite_none_right_eq_some.mp hs
      cases hs
      exact .hand i k n hworker hmay.2 rfl rfl rfl
    case h_2 => cases hs
  | refuse =>
    rw [step] at hs
    split at hs
    case h_1 =>
      obtain ⟨-, hs⟩ := Option.ite_none_right_eq_some.mp hs
      cases hs
      exact .same rfl rfl rfl
    case h_2 => cases hs
  | finish =>
    rw [step] at hs
    split at hs
    case h_1 =>
      obtain ⟨-, hs⟩ := Option.ite_none_right_eq_some.mp hs
      cases hs
      exact .same rfl rfl rfl
    case h_2 => cases hs
  | call k =>
    rw [step] at hs
    split at hs
    case h_1 i j hcall =>
      split at hs
      case isTrue => cases hs; exact .stale k _ hcall rfl rfl rfl
      case isFalse => cases hs; exact .begin k _ hcall rfl rfl rfl
    case h_2 => cases hs

theorem InOrder.step (h : InOrder s) (hB : Books s) (hserial : s.Serial a)
    (hs : s.step a = some t) : InOrder t := by
  -- without an executor of the application there is one invocation at a time
  have hfirst : ∀ {k : Nat} {p : Nat × Nat}, a = .call k → s.calls[k]? = some p →
      s.calls = p :: s.calls.eraseIdx k := by
    rintro k p rfl hcall
    have hzero : k = 0 := by
      by_cases hcallback : s.callback = true
      · exact hserial hcallback
      · have hone := h.one (Bool.eq_false_iff.mpr hcallback)
        obtain ⟨hlt, -⟩ := List.getElem?_eq_some_iff.mp hcall
        omega
    subst hzero
    cases hlist : s.calls with
    | nil => rw [hlist] at hcall; cases hcall
    | cons q rest =>
      rw [hlist] at hcall
      obtain rfl := Option.some.inj hcall
      rfl
  cases hands_of_step hs with
  | same hcalls hdelivered hcallback =>
    constructor
    · rw [hdelivered, hcalls]
      exact h.order
    · rw [hcallback, hcalls]
      exact h.one
  | hand i k n hworker hreturned hcalls hdelivered hcallback =>
    constructor
    · rw [hdelivered, hcalls, ← List.append_assoc, List.pairwise_append]
      refine ⟨h.order, List.pairwise_singleton _ _, fun p hp q hq => ?_⟩
      cases List.mem_singleton.mp hq
      have hi : i ∈ s.line := by
        rw [line, hworker]
        exact List.mem_cons_self
      have hp' : p ∈ s.calls ++ s.delivered := List.mem_append.mpr (List.mem_append.mp hp).symm
      refine ((hB.lined.past p hp').2 i hi).imp_right fun hpast => ⟨hpast.1, ?_⟩
      rw [hworker] at hpast
      exact hpast.2.2
    · intro hnone
      rw [hcallback] at hnone
      obtain ⟨hempty, -⟩ := hreturned.resolve_left (by rw [hnone]; exact Bool.false_ne_true)
      rw [hcalls, hempty]
      exact Nat.le_refl 1
  | stale k p hcall hcalls hdelivered hcallback =>
    have hsub : t.calls.Sublist s.calls := hcalls ▸ List.eraseIdx_sublist _ k
    constructor
    · rw [hdelivered]
      exact h.order.sublist ((List.Sublist.refl _).append hsub)
    · rw [hcallback]
      exact fun hnone => Nat.le_trans hsub.length_le (h.one hnone)
  | begin k p hcall hcalls hdelivered hcallback =>
    have hsub : t.calls.Sublist s.calls := hcalls ▸ List.eraseIdx_sublist _ k
    constructor
    · rw [hdelivered, hcalls, List.append_assoc, List.singleton_append, ← hfirst rfl hcall]
      exact h.order
    · rw [hcallback]
      exact fun hnone => Nat.le_trans hsub.length_le (h.one hnone)

/-! ## The law -/

/-- In the idle client every delivery was begun, counted or lost. -/
theorem Books.account_idle (h : Books s) (hidle : s.Idle) {i j : Nat} (hj : j < s.heard i) :
    s.delivered.count (i, j) + s.lost.count (i, j) = if i ∈ s.counted then 0 else 1 := by
  have haccount := h.accounted.account i j hj
  have hpending : s.Pending i j ↔ i ∈ s.counted := by
    rw [Pending, Callbacks.queued, hidle.queue, hidle.worker, hidle.unlocked.1]
    refine or_iff_left ?_
    rintro (hnil | hnone | hfalse)
    · cases hnil
    · cases hnone
    · exact hfalse
  rw [count_passed, hidle.calls, List.count_nil, Nat.zero_add] at haccount
  rw [haccount]
  exact if_congr hpending rfl rfl

theorem conserved_iff_lost_nil (h : Books s) (hidle : s.Idle) : s.Conserved ↔ s.lost = [] := by
  constructor
  · intro hconserved
    refine List.eq_nil_iff_forall_not_mem.mpr ?_
    rintro ⟨i, j⟩ hp
    have hj : j < s.heard i := h.accounted.lost _ hp
    have haccount := h.account_idle hidle hj
    have hpos : 0 < s.lost.count (i, j) := List.count_pos_iff.mpr hp
    rcases hconserved i (Callbacks.lt_of_lt_heard hj) with ⟨hcounted, -⟩ | ⟨hnot, hdelivered⟩
    · rw [if_pos hcounted] at haccount
      omega
    · rw [if_neg hnot, hdelivered j hj] at haccount
      omega
  · intro hnil i _
    by_cases hcounted : i ∈ s.counted
    · refine Or.inl ⟨hcounted, fun j hmem => ?_⟩
      exact h.dropped.past _ (List.mem_append_right _ hmem) hcounted
    · refine Or.inr ⟨hcounted, fun j hj => ?_⟩
      have haccount := h.account_idle hidle hj
      rw [hnil, List.count_nil, if_neg hcounted] at haccount
      exact haccount

theorem books_of_run {callback : Bool} {attempts : Nat} {as : List Action}
    (hrun : run step (start callback attempts) as = some s) : Books s :=
  run_invariant_all (fun _ _ _ h hs => Books.step h hs) (Books.start callback attempts) hrun

/-- Nothing is lost in exactly the runs whose steps are all `Kept`. -/
theorem allMeet_iff_lost_nil {callback : Bool} {attempts : Nat} {as : List Action}
    (hrun : run step (start callback attempts) as = some s) :
    AllMeet step Kept (start callback attempts) as ↔ s.lost = [] := by
  have hkeep : ∀ s a t, (Books s ∧ s.lost = []) → s.Kept a → step s a = some t →
      Books t ∧ t.lost = [] := by
    rintro s a t ⟨h, hnil⟩ hkept hs
    obtain ⟨pairs, hlost, hiff⟩ := lost_step h hs
    rw [hnil, hiff.mpr hkept] at hlost
    exact ⟨h.step hs, hlost⟩
  have hbreak : ∀ s a t, (Books s ∧ s.lost = []) → ¬s.Kept a → step s a = some t →
      Books t ∧ t.lost ≠ [] := by
    rintro s a t ⟨h, hnil⟩ hkept hs
    obtain ⟨pairs, hlost, hiff⟩ := lost_step h hs
    rw [hnil, List.nil_append] at hlost
    exact ⟨h.step hs, fun heq => hkept (hiff.mp (hlost ▸ heq))⟩
  have hstay : ∀ s a t, (Books s ∧ s.lost ≠ []) → step s a = some t → Books t ∧ t.lost ≠ [] := by
    rintro s a t ⟨h, hne⟩ hs
    obtain ⟨pairs, hlost, -⟩ := lost_step h hs
    exact ⟨h.step hs, fun heq => hne (List.append_eq_nil_iff.mp (hlost ▸ heq)).1⟩
  have hB := books_of_run hrun
  rw [allMeet_iff_of_run hkeep hbreak hstay (fun s hs hs' => hs'.2 hs.2)
    ⟨Books.start callback attempts, rfl⟩ hrun]
  rw [not_and, not_not]
  exact ⟨fun h => h hB, fun h _ => h⟩

/-- In every run: the idle client has delivered each notification once to
each of its listeners, or counted it, exactly when no step of the run gives
up a delivery that is not counted; the counter counts each notification
once, besides tasks after an overflow; and deliveries begin in the order of
`emit` where the application's executor keeps to its order. -/
theorem conserved_iff (callback : Bool) (attempts : Nat) (as : List Action) (s : TikTokLive)
    (hrun : run step (start callback attempts) as = some s) :
    (s.Idle → (s.Conserved ↔ AllMeet step Kept (start callback attempts) as))
    ∧ (s.counted.Nodup ∧ s.droppedCallbacks = s.counted.length + s.overloads)
    ∧ (AllMeet step Serial (start callback attempts) as → s.delivered.Pairwise Before) := by
  have hB := books_of_run hrun
  refine ⟨fun hidle => ?_, ⟨hB.dropped.nodup, hB.dropped.balance⟩, fun hserial => ?_⟩
  · rw [allMeet_iff_lost_nil hrun]
    exact conserved_iff_lost_nil hB hidle
  · have hkeep : ∀ s a t, (Books s ∧ InOrder s) → s.Serial a → step s a = some t →
        Books t ∧ InOrder t := fun s a t h hserial hs => ⟨h.1.step hs, h.2.step h.1 hserial hs⟩
    have hstart : InOrder (start callback attempts) := ⟨List.Pairwise.nil, fun _ => Nat.zero_le 1⟩
    have horder := (run_invariant hkeep ⟨Books.start callback attempts, hstart⟩ hserial hrun).2.order
    exact horder.sublist (List.sublist_append_left _ _)

/-- A notification is delivered while another is counted by `disconnect`. -/
theorem conserved_iff_of_disconnect : ∃ s,
    run step (start false 3) [.listen "chat", .connect, .next, .emit "chat", .next, .emit "chat",
      .next, .turn, .hand, .call 0, .settle, .disconnect, .next, .next, .next, .next, .next,
      .return, .finish, .take, .turn, .finish] = some s
      ∧ s.Conserved ∧ s.delivered = [(0, 0)] ∧ s.counted = [1] := by
  refine exists_run (P := fun s : TikTokLive => (s.Unlocked ∧ s.queue = [] ∧ s.worker = .idle
    ∧ s.calls = []) ∧ s.lost = [] ∧ s.delivered = [(0, 0)] ∧ s.counted = [1]) (by decide) ?_
  rintro s hrun ⟨⟨hfree, hqueue, hworker, hcalls⟩, hlost, hdelivered, hcounted⟩
  refine ⟨?_, hdelivered, hcounted⟩
  have hkept := (allMeet_iff_lost_nil hrun).mpr hlost
  exact ((conserved_iff false 3 _ s hrun).1 ⟨hfree, hqueue, hworker, hcalls⟩).mpr hkept

/-- The connection fails while a notification is on its way to the worker:
its turn comes under the next generation, and nobody counts it. -/
theorem stale_notification_lost : ∃ s,
    run step (start false 3) [.listen "chat", .connect, .next, .emit "chat", .next, .fail 1 true,
      .next, .turn, .next, .next, .next, .take, .turn, .finish, .take, .turn, .finish,
      .take, .turn, .finish] = some s
      ∧ s.Idle ∧ s.delivered = [] ∧ s.droppedCallbacks = 0 ∧ ¬s.Conserved := by
  refine exists_run (P := fun s : TikTokLive => (s.Unlocked ∧ s.queue = [] ∧ s.worker = .idle
    ∧ s.calls = []) ∧ s.delivered = [] ∧ s.droppedCallbacks = 0 ∧ s.counted = []
    ∧ s.heard 0 = 1) (by decide) ?_
  rintro s - ⟨⟨hfree, hqueue, hworker, hcalls⟩, hdelivered, hdropped, hcounted, hheard⟩
  refine ⟨⟨hfree, hqueue, hworker, hcalls⟩, hdelivered, hdropped, fun hconserved => ?_⟩
  have hpos : 0 < s.heard 0 := by rw [hheard]; exact Nat.zero_lt_one
  rcases hconserved 0 (Callbacks.lt_of_lt_heard hpos) with ⟨hmem, -⟩ | ⟨-, honce⟩
  · rw [hcounted] at hmem
    cases hmem
  · have hcount := honce 0 hpos
    rw [hdelivered] at hcount
    cases hcount

end TiktokSigner.JavaClient.TikTokLive
