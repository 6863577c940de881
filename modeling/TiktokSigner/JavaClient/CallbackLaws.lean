import TiktokSigner.JavaClient.TikTokLive
import TiktokSigner.Lib.Crowd
import Mathlib.Data.List.Nodup
import Mathlib.Data.List.Count

/-!
# Where notifications go

Three groups of facts hold in every state. `Lined`: the notifications on
their way to the worker stand in the order in which they were emitted, and
those handed on are behind them. `Accounted`: a delivery that somebody is
to hear of and that is not pending was begun once or is lost. `Dropped`:
what is counted is never handed on, because the statement that counts
stands behind a new generation or a stop.

So the idle client has lost nothing exactly when no step of the run has
given up a delivery silently.
-/

namespace TiktokSigner.JavaClient

open Crowd Lts

namespace Callbacks

variable {c : Callbacks}

theorem heard_note (c : Callbacks) (n : Notification) (i : Nat) :
    (c.note n).heard i = if i = c.notifications.length then n.listeners else c.heard i := by
  rw [heard, note, getElem?_concat, heard]
  split_ifs <;> rfl

theorem token_note (c : Callbacks) (n : Notification) (i : Nat) :
    (c.note n).token i = if i = c.notifications.length then n.token else c.token i := by
  rw [token, note, getElem?_concat, token]
  split_ifs <;> rfl

theorem name_note (c : Callbacks) (n : Notification) (i : Nat) :
    (c.note n).name i = if i = c.notifications.length then n.name else c.name i := by
  rw [name, note, getElem?_concat, name]
  split_ifs <;> rfl

/-- Only notifications have listeners. -/
theorem lt_of_lt_heard {i j : Nat} (h : j < c.heard i) : i < c.notifications.length := by
  by_contra hge
  rw [heard, List.getElem?_eq_none (Nat.le_of_not_lt hge)] at h
  exact Nat.not_lt_zero j h

theorem mem_deliveries {i : Nat} {p : Nat × Nat} :
    p ∈ c.deliveries i ↔ p.1 = i ∧ p.2 < c.heard i := by
  rw [deliveries, List.mem_map]
  constructor
  · rintro ⟨j, hj, rfl⟩
    exact ⟨rfl, List.mem_range.mp hj⟩
  · rintro ⟨rfl, hj⟩
    exact ⟨p.2, List.mem_range.mpr hj, rfl⟩

theorem nodup_deliveries (c : Callbacks) (i : Nat) : (c.deliveries i).Nodup :=
  List.nodup_range.map fun _ _ h => (Prod.mk.inj h).2

theorem nodup_flatMap_deliveries (c : Callbacks) {l : List Nat} (h : l.Nodup) :
    (l.flatMap c.deliveries).Nodup := by
  refine List.nodup_flatMap.mpr ⟨fun i _ => c.nodup_deliveries i, h.imp fun hne => ?_⟩
  intro p hp hp'
  exact hne ((mem_deliveries.mp hp).1.symm.trans (mem_deliveries.mp hp').1)

/-- How often a delivery that somebody waits for is given up. -/
theorem count_lost_lose {pairs : List (Nat × Nat)} (hnodup : pairs.Nodup) {i j : Nat}
    (hj : j < c.heard i) :
    (c.lose pairs).lost.count (i, j) =
      c.lost.count (i, j) + if (i, j) ∈ pairs ∧ i ∉ c.counted then 1 else 0 := by
  rw [lose, List.count_append, (hnodup.filter _).count]
  simp only [List.mem_filter, hj, true_and, decide_eq_true_eq]

theorem mem_lost_lose {pairs : List (Nat × Nat)} {p : Nat × Nat} (h : p ∈ (c.lose pairs).lost) :
    p ∈ c.lost ∨ p.2 < c.heard p.1 := by
  refine (List.mem_append.mp h).imp_right fun hp => ?_
  exact (of_decide_eq_true (List.mem_filter.mp hp).2).1

end Callbacks

theorem Worker.note_of_awaits {w : Worker} {i j : Nat} (h : w.awaits i j) : w.note = some i := by
  cases w with
  | idle => exact h.elim
  | taken task => exact h
  | looping i' k n => rw [note, h.1]

namespace TikTokLive

/-! ## The line -/

/-- The notifications in front of the listeners' turns, and behind them. -/
structure Lined (s : TikTokLive) : Prop where
  line : s.line.Pairwise (· < ·)
  bound : ∀ i ∈ s.line, i < s.notifications.length
  past : ∀ p ∈ s.calls ++ s.delivered, p.1 < s.notifications.length ∧
    ∀ i ∈ s.line, p.1 < i ∨ p.1 = i ∧ s.worker.isPast p.1 p.2
  unstarted : s.started = false → s.worker = .idle ∧ s.queue = []

variable {s t : TikTokLive}

namespace Lined

/-- Notifications leave the line, and nothing is handed on. -/
theorem shrink (h : Lined s) (hline : t.line.Sublist s.line)
    (hlength : s.notifications.length ≤ t.notifications.length)
    (hcalls : ∀ p ∈ t.calls ++ t.delivered, p ∈ s.calls ++ s.delivered)
    (hpast : ∀ i j, i ∈ t.line → s.worker.isPast i j → t.worker.isPast i j)
    (hunstarted : t.started = false → t.worker = .idle ∧ t.queue = []) : Lined t where
  line := h.line.sublist hline
  bound := fun i hi => Nat.lt_of_lt_of_le (h.bound i (hline.subset hi)) hlength
  past := fun p hp => by
    obtain ⟨hlt, hbehind⟩ := h.past p (hcalls p hp)
    refine ⟨Nat.lt_of_lt_of_le hlt hlength, fun i hi => ?_⟩
    rcases hbehind i (hline.subset hi) with hlt | ⟨rfl, hisPast⟩
    · exact Or.inl hlt
    · exact Or.inr ⟨rfl, hpast _ _ hi hisPast⟩
  unstarted := hunstarted

/-- A new notification joins the line. -/
theorem grow (h : Lined s) (hline : t.line = s.line ++ [s.notifications.length])
    (hlength : t.notifications.length = s.notifications.length + 1)
    (hcalls : t.calls = s.calls) (hdelivered : t.delivered = s.delivered)
    (hpast : ∀ i j, s.worker.isPast i j → t.worker.isPast i j)
    (hunstarted : t.started = false → t.worker = .idle ∧ t.queue = []) : Lined t where
  line := by
    rw [hline, List.pairwise_append]
    refine ⟨h.line, List.pairwise_singleton _ _, fun i hi j hj => ?_⟩
    rw [List.mem_singleton.mp hj]
    exact h.bound i hi
  bound := fun i hi => by
    rw [hline] at hi
    rw [hlength]
    rcases List.mem_append.mp hi with hi | hi
    · exact Nat.lt_succ_of_lt (h.bound i hi)
    · rw [List.mem_singleton.mp hi]
      exact Nat.lt_succ_self _
  past := fun p hp => by
    rw [hcalls, hdelivered] at hp
    obtain ⟨hlt, hbehind⟩ := h.past p hp
    rw [hlength, hline]
    refine ⟨Nat.lt_succ_of_lt hlt, fun i hi => ?_⟩
    rcases List.mem_append.mp hi with hi | hi
    · exact (hbehind i hi).imp_right fun hp => ⟨hp.1, hpast _ _ hp.2⟩
    · rw [List.mem_singleton.mp hi]
      exact Or.inl hlt
  unstarted := hunstarted

/-- The worker's notification is first in line. -/
theorem worker_lt (h : Lined s) {i : Nat} (hi : s.worker.note = some i) {i' : Nat}
    (hi' : i' ∈ s.queued ++ s.phase.note.toList) : i < i' := by
  have hline := h.line
  rw [TikTokLive.line, hi] at hline
  exact (List.pairwise_cons.mp hline).1 i' hi'

/-- What was handed on is behind every notification that the worker has not
come to. -/
theorem past_lt (h : Lined s) {p : Nat × Nat} (hp : p ∈ s.calls ++ s.delivered) {i : Nat}
    (hi : i ∈ s.queued ++ s.phase.note.toList) : p.1 < i := by
  rcases (h.past p hp).2 i (List.mem_append_right _ hi) with hlt | ⟨rfl, hisPast⟩
  · exact hlt
  · cases hworker : s.worker with
    | idle => rw [hworker] at hisPast; exact hisPast.elim
    | taken task => rw [hworker] at hisPast; exact hisPast.elim
    | looping i k n =>
      rw [hworker] at hisPast
      have hnote : s.worker.note = some p.1 := by rw [hworker, ← hisPast.1]; rfl
      exact absurd (h.worker_lt hnote hi) (Nat.lt_irrefl _)

/-- A listener's turn: the invocation is handed on, or refused. -/
theorem advance (h : Lined s) {i k n : Nat} (hworker : s.worker = .looping i k n)
    (ht : t.worker = .looping i (k + 1) n) (hqueue : t.queue = s.queue)
    (hphase : t.phase = s.phase) (hnotes : t.notifications = s.notifications)
    (hcalls : ∀ p ∈ t.calls ++ t.delivered, p ∈ s.calls ++ s.delivered ∨ p = (i, k))
    (hstarted : t.started = s.started) : Lined t := by
  have hline : t.line = s.line := by
    rw [TikTokLive.line, TikTokLive.line, Callbacks.queued, ht, hqueue, hphase, hworker]
    rfl
  have hi : i ∈ s.line := by
    rw [TikTokLive.line, hworker]
    exact List.mem_cons_self
  constructor
  · rw [hline]
    exact h.line
  · rw [hline, hnotes]
    exact h.bound
  · intro p hp
    rw [hline, hnotes, ht]
    rcases hcalls p hp with hp | rfl
    · refine ⟨(h.past p hp).1, fun i' hi' => ?_⟩
      refine ((h.past p hp).2 i' hi').imp_right fun hpast => ⟨hpast.1, ?_⟩
      rw [hworker] at hpast
      exact ⟨hpast.2.1, Nat.lt_succ_of_lt hpast.2.2⟩
    · refine ⟨h.bound i hi, fun i' hi' => ?_⟩
      rw [TikTokLive.line, hworker] at hi'
      rcases List.mem_cons.mp hi' with rfl | hi'
      · exact Or.inr ⟨rfl, rfl, Nat.lt_succ_self k⟩
      · exact Or.inl (h.worker_lt (by rw [hworker]; rfl) hi')
  · intro hunstarted
    rw [hstarted] at hunstarted
    have hidle := (h.unstarted hunstarted).1
    rw [hworker] at hidle
    cases hidle

end Lined

/-! ## The account -/

/-- The delivery is still to be begun, or its notification is counted. -/
def Pending (s : TikTokLive) (i j : Nat) : Prop :=
  i ∈ s.counted ∨ i ∈ s.queued ∨ s.phase.note = some i ∨ s.worker.awaits i j

instance (s : TikTokLive) (i j : Nat) : Decidable (s.Pending i j) :=
  inferInstanceAs (Decidable (_ ∨ _ ∨ _ ∨ _))

/-- The deliveries handed on, begun or lost. -/
def passed (s : TikTokLive) : List (Nat × Nat) := s.calls ++ s.delivered ++ s.lost

structure Accounted (s : TikTokLive) : Prop where
  account : ∀ i j, j < s.heard i → s.passed.count (i, j) = if s.Pending i j then 0 else 1
  lost : ∀ p ∈ s.lost, p.2 < s.heard p.1
  loop : ∀ i k n, s.worker = .looping i k n → s.heard i ≤ n
  heard : s.closed = false → ∀ i, s.heard i ≤ s.listeners.count (s.name i)
  closing : .shutdownEvents ∈ s.todo → s.closed = true

theorem count_passed (s : TikTokLive) (p : Nat × Nat) :
    s.passed.count p = s.calls.count p + s.delivered.count p + s.lost.count p := by
  rw [passed, List.count_append, List.count_append]

/-- What is pending and not counted is in line. -/
theorem Pending.mem_line {i j : Nat} (h : s.Pending i j) (hcounted : i ∉ s.counted) :
    i ∈ s.line := by
  rcases h with hmem | hmem | hmem | hmem
  · exact absurd hmem hcounted
  · exact List.mem_append_right _ (List.mem_append_left _ hmem)
  · exact List.mem_append_right _ (List.mem_append_right _ (by rw [hmem]; exact List.mem_cons_self))
  · exact List.mem_append_left _ (by rw [Worker.note_of_awaits hmem]; exact List.mem_cons_self)

namespace Accounted

/-- The account is kept where each delivery's part of it is. -/
theorem of_account (h : Accounted s) (hnotes : t.notifications = s.notifications)
    (haccount : ∀ i j, j < s.heard i → s.passed.count (i, j) = (if s.Pending i j then 0 else 1) →
      t.passed.count (i, j) = if t.Pending i j then 0 else 1)
    (hlost : ∀ p ∈ t.lost, p ∈ s.lost ∨ p.2 < s.heard p.1)
    (hloop : ∀ i k n, t.worker = .looping i k n → s.heard i ≤ n)
    (hheard : t.closed = false → s.closed = false ∧
      ∀ name, s.listeners.count name ≤ t.listeners.count name)
    (hclosing : .shutdownEvents ∈ t.todo → t.closed = true) : Accounted t := by
  have hheard' : ∀ i, t.heard i = s.heard
      i := fun i => by rw [Callbacks.heard, hnotes, Callbacks.heard]
  have hname : ∀ i, t.name i = s.name i := fun i => by rw [Callbacks.name, hnotes, Callbacks.name]
  constructor
  · intro i j hj
    rw [hheard'] at hj
    exact haccount i j hj (h.account i j hj)
  · intro p hp
    rw [hheard']
    exact (hlost p hp).elim (h.lost p) id
  · intro i k n hworker
    rw [hheard']
    exact hloop i k n hworker
  · intro hclosed i
    obtain ⟨hclosed, hcount⟩ := hheard hclosed
    rw [hheard', hname]
    exact Nat.le_trans (h.heard hclosed i) (hcount _)
  · exact hclosing

/-- What is passed stays passed, and what is pending stays pending. -/
theorem of_pending (h : Accounted s) (hnotes : t.notifications = s.notifications)
    (hpassed : ∀ i j, t.passed.count (i, j) = s.passed.count (i, j))
    (hpending : ∀ i j, j < s.heard i → (t.Pending i j ↔ s.Pending i j)) (hlost : t.lost = s.lost)
    (hloop : ∀ i k n, t.worker = .looping i k n → s.heard i ≤ n) (hclosed : t.closed = s.closed)
    (hlisteners : t.listeners = s.listeners) (htodo : t.todo = s.todo) : Accounted t := by
  refine h.of_account hnotes (fun i j hj haccount => ?_) (fun p hp => Or.inl (hlost ▸ hp)) hloop
    (fun hopen => ⟨hclosed ▸ hopen, fun name => Nat.le_of_eq (by rw [hlisteners])⟩)
    (by rw [htodo, hclosed]; exact h.closing)
  rw [hpassed, haccount]
  exact if_congr (hpending i j hj).symm rfl rfl

/-- One delivery that was pending is passed. -/
theorem of_pass (h : Accounted s) {p : Nat × Nat} (hnotes : t.notifications = s.notifications)
    (hpassed : ∀ q, t.passed.count q = s.passed.count q + if q = p then 1 else 0)
    (hpending : s.Pending p.1 p.2) (hpending' : ∀ i j, t.Pending i j ↔ s.Pending i j ∧ (i, j) ≠ p)
    (hlost : t.lost = s.lost) (hloop : ∀ i k n, t.worker = .looping i k n → s.heard i ≤ n)
    (hclosed : t.closed = s.closed) (hlisteners : t.listeners = s.listeners)
    (htodo : t.todo = s.todo) : Accounted t := by
  refine h.of_account hnotes (fun i j _ haccount => ?_) (fun p hp => Or.inl (hlost ▸ hp)) hloop
    (fun hopen => ⟨hclosed ▸ hopen, fun name => Nat.le_of_eq (by rw [hlisteners])⟩)
    (by rw [htodo, hclosed]; exact h.closing)
  have hp' := hpending' i j
  rw [hpassed, haccount]
  by_cases heq : (i, j) = p
  · have hp : s.Pending i j := by rw [← heq] at hpending; exact hpending
    rw [if_pos heq, if_pos hp, if_neg fun ht => (hp'.mp ht).2 heq]
  · rw [if_neg heq, Nat.add_zero]
    exact if_congr (hp'.trans (and_iff_left heq)).symm rfl rfl

/-- A notification is passed to `emit`: it is pending, or all its deliveries
are lost. -/
theorem of_note (h : Accounted s) (hL : Lined s) (name : String) (pairs : List (Nat × Nat))
    (hnotes : t.notifications = s.notifications ++
      [{ name, token := s.generation, listeners := s.listeners.count name }])
    (hcalls : t.calls = s.calls) (hdelivered : t.delivered = s.delivered)
    (hlost : t.lost = s.lost ++ pairs)
    (hpairs : ∀ p ∈ pairs, p.1 = s.notifications.length ∧ p.2 < s.listeners.count name)
    (hold : ∀ i j, i ≠ s.notifications.length → (t.Pending i j ↔ s.Pending i j))
    (hnew : ∀ j, j < s.listeners.count name →
      pairs.count (s.notifications.length, j) = if t.Pending s.notifications.length j then 0 else 1)
    (hloop : ∀ i k n, t.worker = .looping i k n → s.worker = .looping i k n)
    (hclosed : t.closed = s.closed) (hlisteners : t.listeners = s.listeners)
    (htodo : .shutdownEvents ∈ t.todo → .shutdownEvents ∈ s.todo) : Accounted t := by
  have hheard : ∀ i, t.heard i =
      if i = s.notifications.length then s.listeners.count name else s.heard i := by
    intro i
    rw [Callbacks.heard, hnotes]
    exact Callbacks.heard_note s.toCallbacks
      { name, token := s.generation, listeners := s.listeners.count name } i
  have hname : ∀ i, t.name i = if i = s.notifications.length then name else s.name i := by
    intro i
    rw [Callbacks.name, hnotes]
    exact Callbacks.name_note s.toCallbacks
      { name, token := s.generation, listeners := s.listeners.count name } i
  -- nothing was passed of the new notification
  have hzero : ∀ j, s.passed.count (s.notifications.length, j) = 0 := by
    intro j
    refine List.count_eq_zero.mpr fun hmem => ?_
    rcases List.mem_append.mp hmem with hmem | hmem
    · exact Nat.lt_irrefl _ (hL.past _ hmem).1
    · exact Nat.lt_irrefl _ (Callbacks.lt_of_lt_heard (h.lost _ hmem))
  have hpassed : ∀ p, t.passed.count p = s.passed.count p + pairs.count p := by
    intro p
    rw [passed, hcalls, hdelivered, hlost, ← List.append_assoc, List.count_append]
    rfl
  constructor
  · intro i j hj
    rw [hheard] at hj
    rw [hpassed]
    split_ifs at hj with heq
    · rw [heq, hzero, Nat.zero_add]
      exact hnew j hj
    · have hnot : (i, j) ∉ pairs := fun hmem => heq (hpairs _ hmem).1
      rw [List.count_eq_zero.mpr hnot, Nat.add_zero, h.account i j hj]
      exact if_congr (hold i j heq).symm rfl rfl
  · intro p hp
    rw [hlost] at hp
    rw [hheard]
    rcases List.mem_append.mp hp with hp | hp
    · have hlt := h.lost p hp
      rw [if_neg (Nat.ne_of_lt (Callbacks.lt_of_lt_heard hlt))]
      exact hlt
    · rw [if_pos (hpairs p hp).1]
      exact (hpairs p hp).2
  · intro i k n hworker
    have hworker := hloop i k n hworker
    have hi : i ∈ s.line := by
      rw [TikTokLive.line, hworker]
      exact List.mem_cons_self
    rw [hheard, if_neg (Nat.ne_of_lt (hL.bound i hi))]
    exact h.loop i k n hworker
  · intro hopen i
    rw [hheard, hname, hlisteners]
    split_ifs
    · exact Nat.le_refl _
    · exact h.heard (hclosed ▸ hopen) i
  · rw [hclosed]
    exact fun hmem => h.closing (htodo hmem)

/-- A step that gives up deliveries whose notifications leave the line. -/
theorem of_lose (h : Accounted s) {pairs : List (Nat × Nat)} (hnodup : pairs.Nodup)
    (hnotes : t.notifications = s.notifications)
    (hlost : t.lost = (s.lose pairs).lost)
    (hrest : ∀ i j, j < s.heard i → t.calls.count (i, j) + t.delivered.count (i, j) +
      (if (i, j) ∈ pairs ∧ i ∉ s.counted ∧ ¬s.Pending i j then 1 else 0) =
        s.calls.count (i, j) + s.delivered.count (i, j))
    (hpending : ∀ i j, j < s.heard i →
      (t.Pending i j ↔ s.Pending i j ∧ ¬((i, j) ∈ pairs ∧ i ∉ s.counted)))
    (hloop : ∀ i k n, t.worker = .looping i k n → s.heard i ≤ n)
    (hheard : t.closed = false → s.closed = false ∧
      ∀ name, s.listeners.count name ≤ t.listeners.count name)
    (hclosing : .shutdownEvents ∈ t.todo → t.closed = true) : Accounted t := by
  refine h.of_account hnotes (fun i j hj haccount => ?_) (fun p hp => ?_) hloop hheard hclosing
  · rw [count_passed] at haccount ⊢
    rw [hlost, Callbacks.count_lost_lose hnodup hj]
    have hr := hrest i j hj
    have hp := hpending i j hj
    by_cases hgiven : (i, j) ∈ pairs ∧ i ∉ s.counted
    · by_cases hpend : s.Pending i j
      · rw [if_pos hpend] at haccount
        rw [if_pos hgiven, if_neg (fun ht => (hp.mp ht).2 hgiven)]
        rw [if_neg (fun hc => hc.2.2 hpend)] at hr
        omega
      · rw [if_neg hpend] at haccount
        rw [if_pos hgiven, if_neg (fun ht => hpend (hp.mp ht).1)]
        rw [if_pos ⟨hgiven.1, hgiven.2, hpend⟩] at hr
        omega
    · rw [if_neg hgiven]
      rw [if_neg (fun hc => hgiven ⟨hc.1, hc.2.1⟩)] at hr
      have hiff : t.Pending i j ↔ s.Pending i j := hp.trans (and_iff_left hgiven)
      rw [if_congr hiff rfl rfl]
      omega
  · rw [hlost] at hp
    exact Callbacks.mem_lost_lose hp

end Accounted

/-! ## What is counted -/

/-- Delivery is stopped, and the new generation is still to come. -/
def Stops (s : TikTokLive) : Prop := s.deliveryStopped = true ∧ .advance ∈ s.todo

/-- A task of this notification will find itself refused. -/
def Doomed (s : TikTokLive) (i : Nat) : Prop := s.token i < s.generation ∨ s.Stops

structure Dropped (s : TikTokLive) : Prop where
  bound : ∀ i ∈ s.counted, i < s.notifications.length
  nodup : s.counted.Nodup
  balance : s.droppedCallbacks = s.counted.length + s.overloads
  loop : ∀ i k n, s.worker = .looping i k n → i ∉ s.counted
  past : ∀ p ∈ s.calls ++ s.delivered, p.1 ∉ s.counted
  fresh : s.phase ≠ .clearing → ∀ i ∈ s.queued ++ s.phase.note.toList, i ∉ s.counted
  cleared : s.phase = .clearing → ∀ i ∈ s.queued, i ∈ s.counted
  tokens : ∀ i, s.token i ≤ s.generation
  doomed : ∀ i ∈ s.counted, i ∈ s.line → s.Doomed i
  dropping : ∀ rejected, s.phase = .dropping rejected → ∀ i ∈ s.line, s.Doomed i
  stopping : ∀ i, s.phase = .stopping i → .advance ∈ s.todo

theorem Doomed.refuses {i : Nat} (h : s.Doomed i) : s.Refuses i :=
  h.elim (fun hlt => Or.inr (Or.inr (Nat.ne_of_lt hlt))) fun hstops => Or.inr (Or.inl hstops.1)

namespace Dropped

/-- Nothing more is counted, and nothing joins the line but what is new. -/
theorem of_counted (h : Dropped s) (hcounted : t.counted = s.counted)
    (hlength : s.notifications.length ≤ t.notifications.length)
    (hbalance : t.droppedCallbacks = s.droppedCallbacks) (hoverloads : t.overloads = s.overloads)
    (hloop : ∀ i k n, t.worker = .looping i k n → i ∉ s.counted)
    (hpast : ∀ p ∈ t.calls ++ t.delivered, p.1 ∉ s.counted)
    (hfresh : t.phase ≠ .clearing → ∀ i ∈ t.queued ++ t.phase.note.toList, i ∉ s.counted)
    (hcleared : t.phase = .clearing → ∀ i ∈ t.queued, i ∈ s.counted)
    (htokens : ∀ i, t.token i ≤ t.generation)
    (hdoomed : ∀ i ∈ s.counted, i ∈ t.line → i ∈ s.line ∧ (s.Doomed i → t.Doomed i))
    (hdropping : ∀ rejected, t.phase = .dropping rejected → ∀ i ∈ t.line, t.Doomed i)
    (hstopping : ∀ i, t.phase = .stopping i → .advance ∈ t.todo) : Dropped t where
  bound := fun i hi => Nat.lt_of_lt_of_le (h.bound i (hcounted ▸ hi)) hlength
  nodup := hcounted ▸ h.nodup
  balance := by rw [hbalance, hcounted, hoverloads, h.balance]
  loop := fun i k n hworker => hcounted ▸ hloop i k n hworker
  past := fun p hp => hcounted ▸ hpast p hp
  fresh := fun hphase i hi => hcounted ▸ hfresh hphase i hi
  cleared := fun hphase i hi => hcounted ▸ hcleared hphase i hi
  tokens := htokens
  doomed := fun i hi hline => by
    rw [hcounted] at hi
    obtain ⟨hline, himp⟩ := hdoomed i hi hline
    exact himp (h.doomed i hi hline)
  dropping := hdropping
  stopping := hstopping

end Dropped

/-- All that holds in every state. -/
structure Books (s : TikTokLive) : Prop where
  lined : Lined s
  accounted : Accounted s
  dropped : Dropped s

namespace Books

/-- A statement about the client's flags. -/
theorem control (h : Books s) (hc : t.toCallbacks = s.toCallbacks) (hphase : s.phase = .plain)
    (hphase' : t.phase = .plain) (hgeneration : s.generation ≤ t.generation)
    (hstops : s.Stops → t.Stops ∨ s.generation < t.generation)
    (hheard : t.closed = false → s.closed = false ∧
      ∀ name, s.listeners.count name ≤ t.listeners.count name)
    (hclosing : .shutdownEvents ∈ t.todo → t.closed = true) : Books t where
  lined := by
    refine h.lined.shrink ?_ ?_ ?_ ?_ ?_
    · rw [line, line, hc, hphase, hphase']
    · exact Nat.le_of_eq (by rw [hc])
    · rw [hc]
      exact fun p hp => hp
    · rw [hc]
      exact fun i j _ hpast => hpast
    · rw [hc]
      exact h.lined.unstarted
  accounted := by
    refine h.accounted.of_account (by rw [hc]) (fun i j _ haccount => ?_) ?_ ?_ hheard hclosing
    · simp only [passed, Pending, hc, hphase'] at haccount ⊢
      simpa only [hphase] using haccount
    · rw [hc]
      exact fun p hp => Or.inl hp
    · rw [hc]
      exact h.accounted.loop
  dropped := by
    have hd := h.dropped
    refine hd.of_counted (by rw [hc]) (Nat.le_of_eq (by rw [hc])) (by rw [hc]) (by rw [hc]) ?_ ?_ ?_
        ?_ ?_ ?_ ?_ ?_
    · rw [hc]
      exact hd.loop
    · rw [hc]
      exact hd.past
    · rw [hc, hphase']
      intro _
      exact hphase ▸ hd.fresh (by rw [hphase]; exact Phase.noConfusion)
    · rw [hphase']
      exact fun hclearing => Phase.noConfusion hclearing
    · intro i
      rw [hc]
      exact Nat.le_trans (hd.tokens i) hgeneration
    · intro i _ hi
      rw [line, hc, hphase'] at hi
      refine ⟨by rw [line, hphase]; exact hi, fun hdoomed => ?_⟩
      rcases hdoomed with hlt | hstop
      · refine Or.inl ?_
        rw [hc]
        exact Nat.lt_of_lt_of_le hlt hgeneration
      · rcases hstops hstop with hstop | hlt
        · exact Or.inr hstop
        · refine Or.inl ?_
          rw [hc]
          exact Nat.lt_of_le_of_lt (hd.tokens i) hlt
    · rw [hphase']
      exact fun _ hdropping => Phase.noConfusion hdropping
    · rw [hphase']
      exact fun _ hstopping => Phase.noConfusion hstopping

/-- `emit` after a stop: the notification goes nowhere. -/
theorem refuseEmit (h : Books s) {name : String} {n : Notification}
    (hn : n = { name, token := s.generation, listeners := s.listeners.count name })
    (hphase : s.phase = .plain) :
    Books { s with toCallbacks :=
      (s.note n).lose ((s.note n).deliveries s.notifications.length) } := by
  have hlength : s.notifications.length ≤ (s.note n).notifications.length := by
    rw [Callbacks.note, List.length_append]
    exact Nat.le_add_right _ _
  have hheard : (s.note n).heard s.notifications.length = s.listeners.count name := by
    rw [Callbacks.heard_note, if_pos rfl, hn]
  have hnot : s.notifications.length ∉ s.line := fun hmem =>
    Nat.lt_irrefl _ (h.lined.bound _ hmem)
  have hnot' : s.notifications.length ∉ s.counted := fun hmem =>
    Nat.lt_irrefl _ (h.dropped.bound _ hmem)
  constructor
  · exact h.lined.shrink (List.Sublist.refl _) hlength (fun p hp => hp) (fun i j _ hp => hp)
      h.lined.unstarted
  · refine h.accounted.of_note h.lined name ((s.note n).deliveries s.notifications.length)
      (by rw [← hn]; rfl) rfl rfl ?_ ?_ ?_ ?_ ?_
      rfl rfl id
    · rw [Callbacks.lose, List.filter_eq_self.mpr]
      · rfl
      · intro p hp
        obtain ⟨hp1, hp2⟩ := Callbacks.mem_deliveries.mp hp
        exact decide_eq_true ⟨by rw [hp1]; exact hp2, by rw [hp1]; exact hnot'⟩
    · intro p hp
      obtain ⟨hp1, hp2⟩ := Callbacks.mem_deliveries.mp hp
      exact ⟨hp1, hheard ▸ hp2⟩
    · exact fun i j _ => Iff.rfl
    · intro j hj
      have hmem : (s.notifications.length, j) ∈ (s.note n).deliveries s.notifications.length :=
        Callbacks.mem_deliveries.mpr ⟨rfl, by rw [hheard]; exact hj⟩
      rw [((s.note n).nodup_deliveries _).count, if_pos hmem, if_neg]
      intro hpending
      have hpending : s.Pending s.notifications.length j := hpending
      exact hnot (hpending.mem_line hnot')
    · exact fun i k m hworker => hworker
  · have hd := h.dropped
    have htoken : ∀ i, i ∈ s.counted → (s.note n).token i = s.token i := by
      intro i hi
      rw [Callbacks.token_note, if_neg (Nat.ne_of_lt (hd.bound i hi))]
    refine hd.of_counted rfl hlength rfl rfl hd.loop hd.past hd.fresh hd.cleared ?_ ?_ ?_ ?_
    · intro i
      change (s.note n).token i ≤ s.generation
      rw [Callbacks.token_note, hn]
      split_ifs
      · exact Nat.le_refl _
      · exact hd.tokens i
    · intro i hi hline
      refine ⟨hline, Or.imp_left fun hlt => ?_⟩
      change (s.note n).token i < s.generation
      rw [htoken i hi]
      exact hlt
    · intro rejected hdropping
      rw [show s.phase = .dropping rejected from hdropping] at hphase
      cases hphase
    · exact hd.stopping

/-- `emit` before a stop: the notification joins the line. -/
theorem join (h : Books s) (name : String) (hphase : s.phase = .plain)
    (hline : t.line = s.line ++ [s.notifications.length])
    (hnotes : t.notifications = s.notifications ++
      [{ name, token := s.generation, listeners := s.listeners.count name }])
    (hqueued : ∀ i ∈ t.queued ++ t.phase.note.toList,
      i ∈ s.queued ++ s.phase.note.toList ∨ i = s.notifications.length)
    (hpending : ∀ i j, t.Pending i j ↔ s.Pending i j ∨ i = s.notifications.length)
    (hworker : ∀ i k n, t.worker = .looping i k n → s.worker = .looping i k n)
    (hpast : ∀ i j, s.worker.isPast i j → t.worker.isPast i j)
    (hcounted : t.counted = s.counted) (hcalls : t.calls = s.calls)
    (hdelivered : t.delivered = s.delivered) (hlost : t.lost = s.lost)
    (hbalance : t.droppedCallbacks = s.droppedCallbacks) (hoverloads : t.overloads = s.overloads)
    (hunstarted : t.started = false → t.worker = .idle ∧ t.queue = [])
    (hphase' : t.phase = .plain ∨ ∃ i, t.phase = .stopping i)
    (hstopping : ∀ i, t.phase = .stopping i → .advance ∈ t.todo)
    (hgeneration : t.generation = s.generation) (hstops : s.Stops → t.Stops)
    (hclosed : t.closed = s.closed) (hlisteners : t.listeners = s.listeners)
    (htodo : .shutdownEvents ∈ t.todo → .shutdownEvents ∈ s.todo) : Books t := by
  have hd := h.dropped
  have hlength : t.notifications.length = s.notifications.length + 1 := by
    rw [hnotes, List.length_append, List.length_singleton]
  have htoken : ∀ i, t.token i =
      if i = s.notifications.length then s.generation else s.token i := by
    intro i
    rw [Callbacks.token, hnotes]
    exact Callbacks.token_note s.toCallbacks
      { name, token := s.generation, listeners := s.listeners.count name } i
  have hnot : s.notifications.length ∉ s.counted := fun hmem =>
    Nat.lt_irrefl _ (hd.bound _ hmem)
  constructor
  · exact h.lined.grow hline hlength hcalls hdelivered hpast hunstarted
  · refine h.accounted.of_note h.lined name [] hnotes hcalls hdelivered
      (by rw [hlost, List.append_nil]) (fun p hp => by cases hp) (fun i j hne => ?_) (fun j _ => ?_)
      hworker hclosed hlisteners htodo
    · rw [hpending, or_iff_left hne]
    · rw [if_pos ((hpending _ _).mpr (Or.inr rfl))]
      rfl
  · refine hd.of_counted hcounted (by omega) hbalance hoverloads
      (fun i k n hloop => hd.loop i k n (hworker i k n hloop))
      (by rw [hcalls, hdelivered]; exact hd.past)
      (fun _ i hi => ?_) (fun hclearing => ?_) (fun i => ?_) (fun i hi hmem => ?_)
      (fun rejected hdropping => ?_) hstopping
    · rcases hqueued i hi with hi | rfl
      · exact hd.fresh (by rw [hphase]; exact Phase.noConfusion) i hi
      · exact hnot
    · rcases hphase' with heq | ⟨i, heq⟩ <;> rw [heq] at hclearing <;> cases hclearing
    · rw [htoken, hgeneration]
      split_ifs
      · exact Nat.le_refl _
      · exact hd.tokens i
    · have hne : i ≠ s.notifications.length := Nat.ne_of_lt (hd.bound i hi)
      rw [hline] at hmem
      refine ⟨(List.mem_append.mp hmem).resolve_right fun hlast =>
        hne (List.mem_singleton.mp hlast), ?_⟩
      refine Or.imp (fun hlt => ?_) hstops
      rw [htoken, if_neg hne, hgeneration]
      exact hlt
    · rcases hphase' with heq | ⟨i, heq⟩ <;> rw [heq] at hdropping <;> cases hdropping

/-- The `++generation` of `disconnect`. -/
theorem retire (h : Books s) (hphase : s.phase = .plain) :
    Books { s with generation := s.generation + 1, phase := .dropping none } := by
  have hd := h.dropped
  have hline : ∀ {i}, i ∈ s.worker.note.toList ++ (s.queued ++ []) → i ∈ s.line := by
    intro i hi
    rw [line, hphase]
    exact hi
  constructor
  · refine h.lined.shrink ?_ (Nat.le_refl _) (fun p hp => hp) (fun i j _ hp => hp) h.lined.unstarted
    rw [line, line, hphase]
    exact List.Sublist.refl _
  · refine h.accounted.of_pending rfl (fun i j => rfl) (fun i j _ => ?_) rfl
      h.accounted.loop rfl rfl rfl
    rw [Pending, Pending, hphase]
    exact Iff.rfl
  · refine hd.of_counted rfl (Nat.le_refl _) rfl rfl hd.loop hd.past (fun _ i hi => ?_)
      (fun hclearing => by cases hclearing) (fun i => ?_) (fun i hi hmem => ?_)
      (fun _ _ i hmem => ?_)
      fun i hstopping => by cases hstopping
    · exact hd.fresh (by rw [hphase]; exact Phase.noConfusion) i (by rw [hphase]; exact hi)
    · exact Nat.le_succ_of_le (hd.tokens i)
    · exact ⟨hline hmem, Or.imp_left Nat.lt_succ_of_lt⟩
    · exact Or.inl (Nat.lt_succ_of_le (hd.tokens i))

/-- `deliveryStopped = true` after a rejection. -/
theorem stop (h : Books s) {i : Nat} (hphase : s.phase = .stopping i) :
    Books { s with deliveryStopped := true, active := false, phase := .dropping (some i) } := by
  have hd := h.dropped
  have hline : ∀ {v}, v ∈ s.worker.note.toList ++ (s.queued ++ [i]) → v ∈ s.line := by
    intro v hv
    rw [line, hphase]
    exact hv
  constructor
  · refine h.lined.shrink ?_ (Nat.le_refl _) (fun p hp => hp) (fun i j _ hp => hp) h.lined.unstarted
    rw [line, line, hphase]
    exact List.Sublist.refl _
  · refine h.accounted.of_pending rfl (fun i j => rfl) (fun i j _ => ?_) rfl
      h.accounted.loop rfl rfl rfl
    rw [Pending, Pending, hphase]
    exact Iff.rfl
  · refine hd.of_counted rfl (Nat.le_refl _) rfl rfl hd.loop hd.past (fun _ v hv => ?_)
      (fun hclearing => by cases hclearing) hd.tokens (fun v hv hmem => ?_) (fun _ _ v hmem => ?_)
      fun v hstopping => by cases hstopping
    · exact hd.fresh (by rw [hphase]; exact Phase.noConfusion) v (by rw [hphase]; exact hv)
    · exact ⟨hline hmem, fun _ => Or.inr ⟨rfl, hd.stopping i hphase⟩⟩
    · exact Or.inr ⟨rfl, hd.stopping i hphase⟩

/-- The queue is counted. -/
theorem drop (h : Books s) {rejected : Option Nat} (hphase : s.phase = .dropping rejected) :
    Books { s with
      droppedCallbacks := s.droppedCallbacks + (s.queue.length + rejected.toList.length)
      counted := s.counted ++ (s.queued ++ rejected.toList)
      overloads := s.overloads + (s.queue.length - s.queued.length)
      phase := .clearing } := by
  have hd := h.dropped
  have hrest : s.queued ++ s.phase.note.toList = s.queued ++ rejected.toList := by
    rw [hphase]
    rfl
  have hfresh : ∀ i ∈ s.queued ++ rejected.toList, i ∉ s.counted := by
    rw [← hrest]
    exact hd.fresh (by rw [hphase]; exact Phase.noConfusion)
  have hline : ∀ {i}, i ∈ s.queued ++ rejected.toList → i ∈ s.line := by
    intro i hi
    rw [← hrest] at hi
    exact List.mem_append_right _ hi
  have hnodup : (s.queued ++ rejected.toList).Nodup := by
    rw [← hrest]
    exact (List.pairwise_append.mp h.lined.line).2.1.imp Nat.ne_of_lt
  constructor
  · refine h.lined.shrink ?_ (Nat.le_refl _) (fun p hp => hp) (fun i j _ hp => hp) h.lined.unstarted
    rw [line, line]
    exact (List.Sublist.refl _).append ((List.Sublist.refl _).append (List.nil_sublist _))
  · refine h.accounted.of_pending rfl (fun i j => rfl) (fun i j _ => ?_) rfl
      h.accounted.loop rfl rfl rfl
    rw [Pending, Pending, hphase, List.mem_append, List.mem_append, Option.mem_toList]
    change (_ ∨ _ ∨ _) ∨ i ∈ s.queued ∨ none = some i ∨ s.worker.awaits i j ↔
      _ ∨ _ ∨ rejected = some i ∨ _
    tauto
  · constructor
    · intro i hi
      rcases List.mem_append.mp hi with hi | hi
      · exact hd.bound i hi
      · exact h.lined.bound i (hline hi)
    · refine List.nodup_append.mpr ⟨hd.nodup, hnodup, fun i hi i' hi' => ?_⟩
      rintro rfl
      exact hfresh i hi' hi
    · have hle : s.queued.length ≤ s.queue.length := List.length_filterMap_le _ _
      have hbalance := hd.balance
      simp only [List.length_append]
      omega
    · intro i k n hworker hi
      rcases List.mem_append.mp hi with hi | hi
      · exact hd.loop i k n hworker hi
      · have hnote : s.worker.note = some i := by
          rw [show s.worker = _ from hworker]
          rfl
        exact Nat.lt_irrefl _ (h.lined.worker_lt hnote (hrest ▸ hi))
    · intro p hp hi
      rcases List.mem_append.mp hi with hi | hi
      · exact hd.past p hp hi
      · exact Nat.lt_irrefl _ (h.lined.past_lt hp (hrest ▸ hi))
    · exact fun hphase' => absurd rfl hphase'
    · exact fun _ i hi => List.mem_append_right _ (List.mem_append_left _ hi)
    · exact hd.tokens
    · intro i _ hmem
      refine hd.dropping rejected hphase i ?_
      rcases List.mem_append.mp hmem with hmem | hmem
      · exact List.mem_append_left _ hmem
      · exact List.mem_append_right _ (List.mem_append_left _
          ((List.mem_append.mp hmem).resolve_right
          List.not_mem_nil))
    · exact fun _ hdropping => by cases hdropping
    · exact fun _ hstopping => by cases hstopping

/-- The queue is cleared. -/
theorem clear (h : Books s) (hphase : s.phase = .clearing) :
    Books { s with queue := [], phase := .plain } := by
  have hd := h.dropped
  constructor
  · refine h.lined.shrink ?_ (Nat.le_refl _) (fun p hp => hp) (fun i j _ hp => hp)
      fun hunstarted => ⟨(h.lined.unstarted hunstarted).1, rfl⟩
    rw [line, line]
    exact (List.Sublist.refl _).append (List.nil_sublist _)
  · refine h.accounted.of_pending rfl (fun i j => rfl) (fun i j _ => ?_) rfl
      h.accounted.loop rfl rfl rfl
    have hcleared := hd.cleared hphase i
    rw [Pending, Pending, hphase]
    change _ ∨ i ∈ [] ∨ none = some i ∨ _ ↔ _ ∨ _ ∨ none = some i ∨ _
    have hnil : i ∉ ([] : List Nat) := List.not_mem_nil
    tauto
  · refine hd.of_counted rfl (Nat.le_refl _) rfl rfl hd.loop hd.past (fun _ i hi => ?_)
      (fun hclearing => by cases hclearing) hd.tokens (fun i hi hmem => ?_)
      (fun _ hdropping => by cases hdropping) fun i hstopping => by cases hstopping
    · cases hi
    · refine ⟨List.mem_append_left _ ((List.mem_append.mp hmem).resolve_right ?_), id⟩
      exact List.not_mem_nil

/-- Tasks move, and the notifications stay in line. -/
theorem requeue (h : Books s) (started : Bool) (queue : List Task) (worker : Worker)
    (hsub : ∀ i ∈ queue.filterMap Task.note, i ∈ s.queued)
    (hline : worker.note.toList ++ queue.filterMap Task.note = s.worker.note.toList ++ s.queued)
    (hawaits : ∀ i j, i ∈ queue.filterMap Task.note ∨ worker.awaits i j ↔
      i ∈ s.queued ∨ s.worker.awaits i j)
    (hpast : ∀ i j, s.worker.isPast i j → worker.isPast i j)
    (hloop : ∀ i k n, worker = .looping i k n → s.worker = .looping i k n)
    (hstarted : started = false → worker = .idle ∧ queue = []) :
    Books { s with started, queue, worker } := by
  have hd := h.dropped
  have hline' : worker.note.toList ++ (queue.filterMap Task.note ++ s.phase.note.toList)
      = s.line := by
    rw [line, ← List.append_assoc, hline, List.append_assoc]
  constructor
  · refine h.lined.shrink ?_ (Nat.le_refl _) (fun p hp => hp) (fun i j _ hp => hpast i j hp) hstarted
    exact hline' ▸ List.Sublist.refl _
  · refine h.accounted.of_pending rfl (fun i j => rfl) (fun i j _ => ?_) rfl
      (fun i k n hw => h.accounted.loop i k n (hloop i k n hw)) rfl rfl rfl
    rw [Pending, Pending, or_left_comm (a := i ∈ s.queued), ← hawaits,
      or_left_comm (b := _ = some i)]
    exact Iff.rfl
  · refine hd.of_counted rfl (Nat.le_refl _) rfl rfl
      (fun i k n hw => hd.loop i k n (hloop i k n hw))
      hd.past (fun hphase i hi => hd.fresh hphase i ?_)
      (fun hphase i hi => hd.cleared hphase i (hsub i hi)) hd.tokens
      (fun i hi hmem => ?_) (fun rejected hdropping i hmem => ?_) hd.stopping
    · exact List.mem_append.mpr ((List.mem_append.mp hi).imp_left (hsub i))
    · exact ⟨hline' ▸ hmem, id⟩
    · exact hd.dropping rejected hdropping i (hline' ▸ hmem)

/-- The worker takes a task, or is done with one that is no notification. -/
theorem take (h : Books s) {task : Task} {queue : List Task} (hworker : s.worker = .idle)
    (hqueue : s.queue = task :: queue) : Books { s with worker := .taken task, queue } := by
  have hqueued : s.queued = task.note.toList ++ queue.filterMap Task.note := by
    rw [Callbacks.queued, hqueue]
    cases task <;> rfl
  refine h.requeue s.started queue (.taken task) (fun i hi => ?_) ?_ (fun i j => ?_)
    (fun i j hp => ?_)
    (fun i k n hw => by cases hw) fun hunstarted => ?_
  · rw [hqueued]
    exact List.mem_append_right _ hi
  · rw [hqueued, hworker]
    rfl
  · rw [hqueued, hworker, List.mem_append, Option.mem_toList, or_comm]
    exact (or_iff_left id).symm
  · rw [hworker] at hp
    exact hp.elim
  · rw [(h.lined.unstarted hunstarted).2] at hqueue
    cases hqueue

theorem turnOverload (h : Books s) {g : Nat} (hworker : s.worker = .taken (.overload g)) :
    Books { s with worker := .idle } := by
  refine h.requeue s.started s.queue .idle (fun i hi => hi) ?_ (fun i j => ?_)
    (fun i j hp => ?_) (fun i k n hw => by cases hw) fun hunstarted => ?_
  · rw [hworker]
    rfl
  · rw [hworker]
    exact or_congr_right (iff_of_false id fun hnone => by cases hnone)
  · rw [hworker] at hp
    exact hp.elim
  · have hidle := (h.lined.unstarted hunstarted).1
    rw [hworker] at hidle
    cases hidle

theorem overload (h : Books s) (g : Nat) :
    Books { s with toCallbacks := (s.execute (.overload g)).getD s.toCallbacks } := by
  rw [Callbacks.execute]
  by_cases hstarted : s.started = false
  · rw [if_pos hstarted]
    obtain ⟨hidle, -⟩ := h.lined.unstarted hstarted
    refine h.requeue true s.queue (.taken (.overload g)) (fun i hi => hi) ?_ (fun i j => ?_)
      (fun i j hp => ?_)
      (fun i k n hw => by cases hw) fun hunstarted => by cases hunstarted
    · rw [hidle]
      rfl
    · rw [hidle]
      exact or_congr_right (iff_of_false (fun hnone => by cases hnone) id)
    · rw [hidle] at hp
      exact hp.elim
  · rw [if_neg hstarted]
    split_ifs
    · have hqueued : (s.queue ++ [Task.overload g]).filterMap Task.note = s.queued := by
        rw [List.filterMap_append, Callbacks.queued]
        exact List.append_nil _
      refine h.requeue s.started _ s.worker (fun i hi => hqueued ▸ hi)
        (by rw [hqueued]) (fun i j => by rw [hqueued]) (fun i j hp => hp) (fun i k n hw => hw)
        fun hunstarted => absurd hunstarted hstarted
    · exact h

/-- The worker gives a notification up. -/
theorem turnAway (h : Books s) {i : Nat} (hworker : s.worker = .taken (.notify i)) :
    Books { s with toCallbacks := { s.lose (s.deliveries i) with worker := .idle } } := by
  have hd := h.dropped
  have hnote : s.worker.note = some i := by rw [hworker]; rfl
  have hrest : ∀ {i'}, i' ∈ s.queued ++ s.phase.note.toList → i' ∈ s.line :=
    fun hi => List.mem_append_right _ hi
  have hnot : i ∉ s.queued ++ s.phase.note.toList := fun hi =>
    Nat.lt_irrefl _ (h.lined.worker_lt hnote hi)
  rw [List.mem_append, Option.mem_toList, not_or] at hnot
  constructor
  · refine h.lined.shrink (List.sublist_append_right _ _) (Nat.le_refl _) (fun p hp => hp)
      (fun i j _ hp => ?_) fun hunstarted => ?_
    · rw [hworker] at hp
      exact hp.elim
    · have hidle := (h.lined.unstarted hunstarted).1
      rw [hworker] at hidle
      cases hidle
  · refine h.accounted.of_lose (s.nodup_deliveries i) rfl rfl (fun i' j _ => ?_) (fun i' j hj => ?_)
      (fun i k n hw => by cases hw) (fun hopen => ⟨hopen, fun _ => Nat.le_refl _⟩)
          h.accounted.closing
    · rw [if_neg]
      · rfl
      · rintro ⟨hmem, -, hpending⟩
        refine hpending (Or.inr (Or.inr (Or.inr ?_)))
        rw [hworker, show i' = i from (Callbacks.mem_deliveries.mp hmem).1]
        rfl
    · rw [Callbacks.mem_deliveries, Pending, Pending, hworker]
      change i' ∈ s.counted ∨ i' ∈ s.queued ∨ s.phase.note = some i' ∨ False ↔
        (_ ∨ _ ∨ _ ∨ some i = some i') ∧ ¬((i' = i ∧ j < s.heard i) ∧ _)
      by_cases heq : i' = i
      · subst heq
        have := hnot.1
        have := hnot.2
        simp only [hj]
        tauto
      · have : some i ≠ some i' := fun hsome => heq (Option.some.inj hsome).symm
        tauto
  · refine hd.of_counted rfl (Nat.le_refl _) rfl rfl (fun i k n hw => by cases hw) hd.past hd.fresh
      hd.cleared hd.tokens (fun i hi hmem => ⟨hrest hmem, id⟩)
      (fun rejected hdropping i hmem => hd.dropping rejected hdropping i (hrest hmem)) hd.stopping

/-- The worker begins its loop. -/
theorem beginLoop (h : Books s) {i : Nat} (hworker : s.worker = .taken (.notify i))
    (hcurrent : ¬s.Refuses i) :
    Books { s with worker := .looping i 0 (s.listeners.count (s.name i)) } := by
  have hd := h.dropped
  have hline : i ∈ s.line := by
    rw [line, hworker]
    exact List.mem_cons_self
  have hclosed : s.closed = false := Bool.eq_false_iff.mpr fun hclosed => hcurrent (Or.inl hclosed)
  constructor
  · refine h.lined.shrink ?_ (Nat.le_refl _) (fun p hp => hp) (fun i j _ hp => ?_)
      fun hunstarted => ?_
    · rw [line, line, hworker]
      exact List.Sublist.refl _
    · rw [hworker] at hp
      exact hp.elim
    · have hidle := (h.lined.unstarted hunstarted).1
      rw [hworker] at hidle
      cases hidle
  · refine h.accounted.of_pending rfl (fun i j => rfl) (fun i' j _ => ?_) rfl (fun i' k n hw => ?_)
      rfl rfl rfl
    · rw [Pending, Pending, hworker]
      change _ ∨ _ ∨ _ ∨ (i = i' ∧ 0 ≤ j) ↔ _ ∨ _ ∨ _ ∨ some i = some i'
      rw [and_iff_left (Nat.zero_le j), Option.some.injEq]
      exact Iff.rfl
    · cases hw
      exact h.accounted.heard hclosed i
  · refine hd.of_counted rfl (Nat.le_refl _) rfl rfl (fun i' k n hw => ?_) hd.past hd.fresh
      hd.cleared hd.tokens (fun i' hi' hmem => ⟨?_, id⟩)
      (fun rejected hdropping i' hmem => hd.dropping rejected hdropping i' ?_) hd.stopping
    · cases hw
      exact fun hcounted => hcurrent (hd.doomed i hcounted hline).refuses
    · rw [line, hworker]
      exact hmem
    · rw [line, hworker]
      exact hmem

/-- `events.shutdownNow`, with `listeners.clear`. -/
theorem shutdown (h : Books s) (hphase : s.phase = .plain) (hclosed : s.closed = true) :
    Books { s with
      toCallbacks := { s.lose (s.queued.flatMap s.deliveries) with queue := [] }
      listeners := [] } := by
  have hd := h.dropped
  have hfresh : ∀ i ∈ s.queued, i ∉ s.counted := fun i hi =>
    hd.fresh (by rw [hphase]; exact Phase.noConfusion) i (List.mem_append_left _ hi)
  have hnodup : s.queued.Nodup :=
    ((List.pairwise_append.mp (List.pairwise_append.mp h.lined.line).2.1).1).imp Nat.ne_of_lt
  have hline : ∀ {i}, i ∈ s.worker.note.toList ++ ([] ++ s.phase.note.toList) → i ∈ s.line := by
    intro i hi
    rcases List.mem_append.mp hi with hi | hi
    · exact List.mem_append_left _ hi
    · exact List.mem_append_right _ (List.mem_append_right _ hi)
  have hmem : ∀ {i j}, j < s.heard i → ((i, j) ∈ s.queued.flatMap s.deliveries ↔ i ∈ s.queued) := by
    intro i j hj
    rw [List.mem_flatMap]
    constructor
    · rintro ⟨i', hi', hmem⟩
      rwa [show i = i' from (Callbacks.mem_deliveries.mp hmem).1]
    · intro hi
      exact ⟨i, hi, Callbacks.mem_deliveries.mpr ⟨rfl, hj⟩⟩
  constructor
  · refine h.lined.shrink ?_ (Nat.le_refl _) (fun p hp => hp) (fun i j _ hp => hp)
      fun hunstarted => ⟨(h.lined.unstarted hunstarted).1, rfl⟩
    exact (List.Sublist.refl _).append ((List.nil_sublist _).append (List.Sublist.refl _))
  · refine h.accounted.of_lose (s.nodup_flatMap_deliveries hnodup) rfl rfl (fun i j hj => ?_)
      (fun i j hj => ?_) h.accounted.loop (fun hopen => ?_) h.accounted.closing
    · rw [if_neg]
      · rfl
      · rintro ⟨hi, -, hpending⟩
        exact hpending (Or.inr (Or.inl ((hmem hj).mp hi)))
    · rw [hmem hj, Pending, Pending]
      change i ∈ s.counted ∨ i ∈ [] ∨ _ ↔ _
      have hf := hfresh i
      have hnil : i ∉ ([] : List Nat) := List.not_mem_nil
      have hw : i ∈ s.queued → s.phase.note ≠ some i ∧ ¬s.worker.awaits i j := by
        intro hi
        rw [hphase]
        refine ⟨fun hnone => (by cases hnone), fun hawaits => ?_⟩
        have hlt := h.lined.worker_lt (Worker.note_of_awaits hawaits) (List.mem_append_left _ hi)
        exact Nat.lt_irrefl _ hlt
      tauto
    · rw [show s.closed = false from hopen] at hclosed
      cases hclosed
  · refine hd.of_counted rfl (Nat.le_refl _) rfl rfl hd.loop hd.past (fun hphase i hi => ?_)
      (fun _ i hi => by cases hi) hd.tokens (fun i hi hmem => ⟨hline hmem, id⟩)
      (fun rejected hdropping i hmem => hd.dropping rejected hdropping i (hline hmem)) hd.stopping
    exact hd.fresh hphase i (List.mem_append_right _ hi)

/-- The notification in the loop is nowhere else. -/
theorem looping_alone (h : Books s) {i k n : Nat} (hworker : s.worker = .looping i k n) :
    i ∉ s.counted ∧ i ∉ s.queued ∧ s.phase.note ≠ some i := by
  have hnote : s.worker.note = some i := by rw [hworker]; rfl
  have hnot : i ∉ s.queued ++ s.phase.note.toList := fun hi =>
    Nat.lt_irrefl _ (h.lined.worker_lt hnote hi)
  rw [List.mem_append, Option.mem_toList, not_or] at hnot
  exact ⟨h.dropped.loop i k n hworker, hnot⟩

theorem pending_looping (h : Books s) {i k n : Nat} (hworker : s.worker = .looping i k n) (j : Nat) :
    s.Pending i j ↔ k ≤ j := by
  have halone := h.looping_alone hworker
  rw [Pending, hworker]
  change _ ∨ _ ∨ _ ∨ (i = i ∧ k ≤ j) ↔ _
  tauto

/-- After listener `k`'s turn one delivery less is pending. -/
theorem pending_pass (h : Books s) {i k n : Nat} (hworker : s.worker = .looping i k n)
    (ht : t.worker = .looping i (k + 1) n) (hqueue : t.queue = s.queue) (hphase : t.phase = s.phase)
    (hcounted : t.counted = s.counted) (i' j : Nat) :
    t.Pending i' j ↔ s.Pending i' j ∧ (i', j) ≠ (i, k) := by
  have halone := h.looping_alone hworker
  rw [Pending, Pending, hworker, Callbacks.queued, hcounted, hqueue, hphase, ht, ne_eq,
    Prod.mk.injEq]
  change _ ∨ i' ∈ s.queued ∨ _ ∨ (i = i' ∧ k + 1 ≤ j) ↔ (_ ∨ _ ∨ _ ∨ (i = i' ∧ k ≤ j)) ∧ _
  by_cases heq : i = i'
  · subst heq
    have hlt : k + 1 ≤ j ↔ k ≤ j ∧ ¬j = k := by omega
    tauto
  · have hne : ¬i' = i := fun h => heq h.symm
    tauto

/-- Listener `k` has its turn, whatever becomes of it. -/
theorem pass (h : Books s) {i k n : Nat} (hworker : s.worker = .looping i k n)
    (ht : t.worker = .looping i (k + 1) n) (hqueue : t.queue = s.queue) (hphase : t.phase = s.phase)
    (hnotes : t.notifications = s.notifications) (hstarted : t.started = s.started)
    (hcalls : ∀ p ∈ t.calls ++ t.delivered, p ∈ s.calls ++ s.delivered ∨ p = (i, k))
    (hcounted : t.counted = s.counted) (hdropped : t.droppedCallbacks = s.droppedCallbacks)
    (hoverloads : t.overloads = s.overloads) (hgeneration : t.generation = s.generation)
    (hstopped : t.deliveryStopped = s.deliveryStopped) (htodo : t.todo = s.todo)
    (haccounted : Accounted t) : Books t := by
  have hd := h.dropped
  have hline : t.line = s.line := by
    rw [line, line, Callbacks.queued, ht, hqueue, hphase, hworker]
    rfl
  have hqueued : t.queued = s.queued := by rw [Callbacks.queued, hqueue, Callbacks.queued]
  have htoken : ∀ i', t.token i' = s.token i' := fun i' => by
    rw [Callbacks.token, hnotes, Callbacks.token]
  have hdoomed : ∀ i', s.Doomed i' → t.Doomed i' := by
    intro i' hi'
    rw [Doomed, Stops, htoken, hgeneration, hstopped, htodo]
    exact hi'
  refine ⟨h.lined.advance hworker ht hqueue hphase hnotes hcalls hstarted, haccounted, ?_⟩
  refine hd.of_counted hcounted (Nat.le_of_eq (by rw [hnotes])) hdropped hoverloads
    (fun i' k' n' hw => ?_) (fun p hp => ?_) (fun hp i' hi' => ?_) (fun hp i' hi' => ?_)
    (fun i' => ?_) (fun i' hi' hmem => ⟨hline ▸ hmem, hdoomed i'⟩) (fun rejected hp i' hmem => ?_)
    (fun i' hp => ?_)
  · rw [ht] at hw
    cases hw
    exact hd.loop i k n hworker
  · rcases hcalls p hp with hp | rfl
    · exact hd.past p hp
    · exact hd.loop i k n hworker
  · rw [hqueued, hphase] at hi'
    exact hd.fresh (hphase ▸ hp) i' hi'
  · exact hd.cleared (hphase ▸ hp) i' (hqueued ▸ hi')
  · rw [htoken, hgeneration]
    exact hd.tokens i'
  · exact hdoomed i' (hd.dropping rejected (hphase ▸ hp) i' (hline ▸ hmem))
  · rw [htodo]
    exact hd.stopping i' (hphase ▸ hp)

/-- Listener `k`'s invocation is handed on. -/
theorem hand (h : Books s) {i k n : Nat} (hworker : s.worker = .looping i k n) :
    Books { s with worker := .looping i (k + 1) n, calls := s.calls ++ [(i, k)] } := by
  refine h.pass hworker rfl rfl rfl rfl rfl (fun p hp => ?_) rfl rfl rfl rfl rfl rfl ?_
  · simp only [List.mem_append, List.mem_singleton] at hp ⊢
    tauto
  · refine h.accounted.of_pass (p := (i, k)) rfl (fun q => ?_)
      ((h.pending_looping hworker k).mpr (Nat.le_refl k))
      (h.pending_pass (t := { s with
        worker := .looping i (k + 1) n, calls := s.calls ++ [(i, k)] }) hworker rfl rfl rfl rfl)
      rfl (fun i' k' n' hw => ?_) rfl rfl rfl
    · rw [count_passed, count_passed, List.count_append, List.count_singleton]
      simp only [beq_iff_eq, eq_comm (a := (i, k))]
      omega
    · cases hw
      exact h.accounted.loop i k n hworker

/-- The application's executor refuses listener `k`'s invocation. -/
theorem refuse (h : Books s) {i k n : Nat} (hworker : s.worker = .looping i k n) :
    Books { s with toCallbacks := { s.lose [(i, k)] with worker := .looping i (k + 1) n } } := by
  refine h.pass hworker rfl rfl rfl rfl rfl (fun p hp => Or.inl hp) rfl rfl rfl rfl rfl rfl ?_
  refine h.accounted.of_lose (List.nodup_singleton _) rfl rfl (fun i' j _ => ?_) (fun i' j _ => ?_)
    (fun i' k' n' hw => ?_) (fun hopen => ⟨hopen, fun _ => Nat.le_refl _⟩) h.accounted.closing
  · rw [if_neg]
    · rfl
    · rintro ⟨hmem, -, hpending⟩
      cases List.mem_singleton.mp hmem
      exact hpending ((h.pending_looping hworker k).mpr (Nat.le_refl k))
  · refine (h.pending_pass (t := { s with toCallbacks :=
      { s.lose [(i, k)] with worker := .looping i (k + 1) n } }) hworker rfl rfl rfl rfl i' j).trans
      (and_congr_right fun _ => ?_)
    rw [List.mem_singleton, not_and, ne_eq]
    constructor
    · exact fun hne heq => absurd heq hne
    · intro himp heq
      cases heq
      exact himp rfl (h.looping_alone hworker).1
  · cases hw
    exact h.accounted.loop i k n hworker

/-- The loop ends. -/
theorem finish (h : Books s) {i n : Nat} (hworker : s.worker = .looping i n n) :
    Books { s with worker := .idle } := by
  have hd := h.dropped
  have hnote : s.worker.note = some i := by rw [hworker]; rfl
  have hline : ∀ {i'}, i' ∈ s.queued ++ s.phase.note.toList → i' ∈ s.line :=
    fun hi => List.mem_append_right _ hi
  constructor
  · refine h.lined.shrink (List.sublist_append_right _ _) (Nat.le_refl _) (fun p hp => hp)
      (fun i' j hi' hp => ?_) fun hunstarted => ?_
    · rw [hworker] at hp
      have hlt := h.lined.worker_lt hnote hi'
      rw [hp.1] at hlt
      exact absurd hlt (Nat.lt_irrefl _)
    · have hidle := (h.lined.unstarted hunstarted).1
      rw [hworker] at hidle
      cases hidle
  · refine h.accounted.of_pending rfl (fun i j => rfl) (fun i' j hj => ?_) rfl
      (fun i k n hw => by cases hw) rfl rfl rfl
    rw [Pending, Pending, hworker]
    change _ ∨ _ ∨ _ ∨ False ↔ _ ∨ _ ∨ _ ∨ (i = i' ∧ n ≤ j)
    have hnone : ¬(i = i' ∧ n ≤ j) := by
      rintro ⟨rfl, hle⟩
      exact Nat.not_lt_of_le (Nat.le_trans (h.accounted.loop i n n hworker) hle) hj
    tauto
  · exact hd.of_counted rfl (Nat.le_refl _) rfl rfl (fun i k n hw => by cases hw) hd.past hd.fresh
      hd.cleared hd.tokens (fun i hi hmem => ⟨hline hmem, id⟩)
      (fun rejected hdropping i hmem => hd.dropping rejected hdropping i (hline hmem)) hd.stopping

/-- Every delivery that somebody waits for and that was handed on is not
pending. -/
theorem not_pending_of_mem (h : Books s) {i j : Nat} (hj : j < s.heard i) (hmem : (i, j) ∈ s.calls) :
    ¬s.Pending i j := by
  intro hpending
  have haccount := h.accounted.account i j hj
  rw [if_pos hpending] at haccount
  refine List.count_eq_zero.mp haccount ?_
  exact List.mem_append_left _ (List.mem_append_left _ hmem)

/-- An invocation begins or ends at its first statement. -/
theorem call (h : Books s) (calls delivered lost : List (Nat × Nat)) (calling : Nat)
    (hcalls : ∀ p ∈ calls ++ delivered, p ∈ s.calls ++ s.delivered)
    (haccounted : Accounted { s with calls, delivered, lost, calling }) :
    Books { s with calls, delivered, lost, calling } where
  lined := h.lined.shrink (List.Sublist.refl _) (Nat.le_refl _) hcalls (fun _ _ _ hp => hp)
    h.lined.unstarted
  accounted := haccounted
  dropped := h.dropped.of_counted rfl (Nat.le_refl _) rfl rfl h.dropped.loop
    (fun p hp => h.dropped.past p (hcalls p hp)) h.dropped.fresh h.dropped.cleared h.dropped.tokens
    (fun _ _ hmem => ⟨hmem, id⟩) h.dropped.dropping h.dropped.stopping

theorem callStale (h : Books s) {k i j : Nat} (hcall : s.calls[k]? = some (i, j)) :
    Books { s with toCallbacks := { s.lose [(i, j)] with calls := s.calls.eraseIdx k } } := by
  have hmem : (i, j) ∈ s.calls := List.mem_of_getElem? hcall
  have hperm := cons_eraseIdx_perm hcall
  refine h.call _ _ _ s.calling (fun p hp => ?_) ?_
  · exact (List.mem_append.mp hp).elim (fun hp =>
      List.mem_append_left _ (List.mem_of_mem_eraseIdx hp))
      (List.mem_append_right _)
  · refine h.accounted.of_lose (List.nodup_singleton _) rfl rfl (fun i' j' hj => ?_)
      (fun i' j' hj => ?_) h.accounted.loop (fun hopen => ⟨hopen, fun _ => Nat.le_refl _⟩)
      h.accounted.closing
    · have hcount := hperm.count_eq (i', j')
      rw [List.count_cons] at hcount
      by_cases heq : (i', j') = (i, j)
      · cases heq
        rw [if_pos ⟨List.mem_singleton_self _, h.dropped.past _ (List.mem_append_left _ hmem),
          h.not_pending_of_mem hj hmem⟩]
        rw [beq_self_eq_true, if_pos rfl] at hcount
        change (s.calls.eraseIdx k).count _ + s.delivered.count _ + 1 = _
        omega
      · rw [if_neg fun hgiven => heq (List.mem_singleton.mp hgiven.1)]
        rw [if_neg (by simpa using Ne.symm heq)] at hcount
        change (s.calls.eraseIdx k).count _ + s.delivered.count _ + 0 = _
        omega
    · refine (and_iff_left_of_imp fun hpending hgiven => ?_).symm
      cases List.mem_singleton.mp hgiven.1
      exact h.not_pending_of_mem hj hmem hpending

theorem callBegin (h : Books s) {k i j : Nat} (hcall : s.calls[k]? = some (i, j)) :
    Books { s with
      calls := s.calls.eraseIdx k
      delivered := s.delivered ++ [(i, j)]
      calling := s.calling + 1 } := by
  have hperm := cons_eraseIdx_perm hcall
  refine h.call _ _ s.lost _ (fun p hp => ?_) ?_
  · rcases List.mem_append.mp hp with hp | hp
    · exact List.mem_append_left _ (List.mem_of_mem_eraseIdx hp)
    · rcases List.mem_append.mp hp with hp | hp
      · exact List.mem_append_right _ hp
      · rw [List.mem_singleton.mp hp]
        exact List.mem_append_left _ (List.mem_of_getElem? hcall)
  · refine h.accounted.of_pending rfl (fun i' j' => ?_) (fun i' j' _ => Iff.rfl) rfl
      h.accounted.loop rfl rfl rfl
    have hcount := hperm.count_eq (i', j')
    rw [count_passed, count_passed]
    change (s.calls.eraseIdx k).count _ + (s.delivered ++ [(i, j)]).count _ + s.lost.count _ = _
    rw [List.count_cons] at hcount
    rw [List.count_append, List.count_singleton]
    omega

/-- What `emit` makes pending is the new notification alone. -/
theorem pending_join (hphase : s.phase = .plain) {i j m : Nat} (queue : List Task) (worker : Worker)
    {phase : Phase} (hnew : i ∈ queue.filterMap Task.note ∨ phase.note = some i ∨ worker.awaits i j ↔
      (i ∈ s.queued ∨ s.worker.awaits i j) ∨ i = m) :
    (i ∈ s.counted ∨ i ∈ queue.filterMap Task.note ∨ phase.note = some i ∨ worker.awaits i j) ↔
      s.Pending i j ∨ i = m := by
  rw [hnew, Pending, hphase, ← or_assoc]
  change (_ ∨ _ ∨ _) ∨ _ ↔ (_ ∨ _ ∨ none = some i ∨ _) ∨ _
  rw [or_iff_right (a := none = some i) (fun hnone => by cases hnone)]

/-- `emit` runs where the lock is held. -/
theorem emit (h : Books s) (name : String) (hphase : s.phase = .plain) : Books (s.emit name) := by
  rw [TikTokLive.emit]
  dsimp only
  generalize hn : ({ name, token := s.generation, listeners := s.listeners.count name } :
    Notification) = n
  have hline : s.line = s.worker.note.toList ++ (s.queued ++ []) := by rw [line, hphase]; rfl
  by_cases hstop : s.closed = true ∨ s.deliveryStopped = true
  · rw [if_pos hstop]
    exact h.refuseEmit hn.symm hphase
  · rw [if_neg hstop, Callbacks.execute]
    by_cases hstarted : s.started = false
    · -- the thread starts with this task
      rw [if_pos (show (s.note n).started = false from hstarted)]
      obtain ⟨hidle, hqueue⟩ := h.lined.unstarted hstarted
      have hqueued : s.queued = [] := by rw [Callbacks.queued, hqueue]; rfl
      refine h.join name hphase ?_ (by rw [hn]; rfl) (fun i hi => ?_)
        (fun i j => pending_join hphase s.queue _ ?_) (fun i k m hw => by cases hw)
        (fun i j hp => ?_) rfl rfl rfl rfl rfl rfl (fun hunstarted => by cases hunstarted)
        (Or.inl hphase) h.dropped.stopping rfl id rfl rfl id
      · rw [hline, line, hphase, hidle, hqueued]
        change _ ++ (s.queued ++ []) = _
        rw [hqueued]
        rfl
      · rw [hphase] at hi
        change i ∈ s.queued ++ [] at hi
        rw [hqueued] at hi
        cases hi
      · rw [show s.queue.filterMap Task.note = s.queued from rfl, hqueued, hphase, hidle]
        simp [Phase.note, Worker.awaits, Task.note, eq_comm]
      · rw [hidle] at hp
        exact hp.elim
    · rw [if_neg (show ¬(s.note n).started = false from hstarted)]
      have hqueued : (s.queue ++ [Task.notify s.notifications.length]).filterMap Task.note =
          s.queued ++ [s.notifications.length] := by
        rw [List.filterMap_append, Callbacks.queued]
        rfl
      by_cases hroom : s.queue.length < queueCapacity
      · -- the queue takes it
        rw [if_pos (show (s.note n).queue.length < queueCapacity from hroom)]
        refine h.join name hphase ?_ (by rw [hn]; rfl) (fun i hi => ?_)
          (fun i j => pending_join hphase _ _ ?_) (fun i k m hw => hw) (fun i j hp => hp)
          rfl rfl rfl rfl rfl rfl (fun hunstarted => absurd hunstarted hstarted) (Or.inl hphase) h.dropped.stopping
          rfl id rfl rfl id
        · rw [hline, line, hphase]
          change _ ++
            ((s.queue ++ [Task.notify s.notifications.length]).filterMap Task.note ++ []) = _
          rw [hqueued, List.append_nil, List.append_nil, List.append_assoc]
          rfl
        · rw [hphase] at hi
          change i ∈
            (s.queue ++ [Task.notify s.notifications.length]).filterMap Task.note ++ [] at hi
          rw [hqueued, List.append_nil, List.mem_append, List.mem_singleton] at hi
          exact hi.imp_left (List.mem_append_left _)
        · rw [hphase, show (s.note n).queue = s.queue from rfl, hqueued, List.mem_append,
            List.mem_singleton]
          change (_ ∨ _) ∨ none = some i ∨ _ ↔ _
          rw [or_iff_right (a := none = some i) (fun hnone => by cases hnone)]
          tauto
      · -- the queue is full
        rw [if_neg (show ¬(s.note n).queue.length < queueCapacity from hroom)]
        refine h.join name hphase ?_ (by rw [hn]; rfl) (fun i hi => ?_)
          (fun i j => pending_join hphase s.queue s.worker ?_)
          (fun i k m hw => hw) (fun i j hp => hp) rfl rfl rfl rfl rfl rfl
          (fun hunstarted => absurd hunstarted hstarted) (Or.inr ⟨_, rfl⟩)
          (fun _ _ => List.mem_cons_self) rfl
          (fun hstops => ⟨hstops.1, List.mem_cons_self⟩) rfl rfl (fun hmem => by simpa using hmem)
        · rw [hline, line]
          change _ ++ (s.queued ++ [s.notifications.length]) = _
          rw [List.append_nil, List.append_assoc]
          rfl
        · change i ∈ s.queued ++ [s.notifications.length] at hi
          rw [List.mem_append, List.mem_singleton] at hi
          exact hi.imp_left (List.mem_append_left _)
        · change i ∈ s.queued ∨ some s.notifications.length = some i ∨ _ ↔ _
          rw [Option.some.injEq, eq_comm (a := s.notifications.length)]
          tauto

/-- The statements of `todo` change flags, but for `emit`, what empties the
queue and what gives `events` a task. -/
theorem perform (h : Books s) {op : Op} {todo : List Op} (hphase : s.phase = .plain)
    (htodo : s.todo = op :: todo) : Books ({ s with todo }.perform op) := by
  have hgoes : op ≠ .advance → s.Stops → s.deliveryStopped = true ∧ .advance ∈ todo := by
    rintro hne ⟨hstopped, hmem⟩
    rw [htodo] at hmem
    exact ⟨hstopped, (List.mem_cons.mp hmem).resolve_left (Ne.symm hne)⟩
  have hclosing : .shutdownEvents ∈ todo → s.closed = true := fun hmem =>
    h.accounted.closing (by rw [htodo]; exact List.mem_cons_of_mem _ hmem)
  have hu : op ≠ .advance → Books { s with todo } := fun hne =>
    h.control rfl hphase hphase (Nat.le_refl _) (fun hstops => Or.inl (hgoes hne hstops))
      (fun hopen => ⟨hopen, fun _ => Nat.le_refl _⟩) hclosing
  cases op with
  | emit name => exact (hu (by simp)).emit name hphase
  | advance =>
    exact h.control rfl hphase hphase (Nat.le_succ _) (fun _ => Or.inr (Nat.lt_succ_self _))
      (fun hopen => ⟨hopen, fun _ => Nat.le_refl _⟩) hclosing
  | retire => exact (hu (by simp)).retire hphase
  | cancelPending =>
    rw [TikTokLive.perform]
    split_ifs
    · refine (hu (by simp)).control rfl hphase hphase (Nat.le_refl _) (fun hstops => Or.inl ?_)
        (fun hopen => ⟨hopen, fun _ => Nat.le_refl _⟩) fun hmem => hclosing (by simpa using hmem)
      exact ⟨hstops.1, List.mem_cons_of_mem _ hstops.2⟩
    · exact hu (by simp)
  | overload => exact (hu (by simp)).overload _
  | setClosed =>
    refine (hu (by simp)).control rfl hphase hphase (Nat.le_refl _) (fun hstops => Or.inl ?_)
      (fun hopen => by cases hopen) fun _ => rfl
    exact ⟨hstops.1, List.mem_cons_of_mem _ hstops.2⟩
  | shutdownEvents =>
    exact (hu (by simp)).shutdown hphase
        (h.accounted.closing (by rw [htodo]; exact List.mem_cons_self))

/-- A call that takes the free lock leaves its statements in `todo`. -/
theorem acquire (h : Books s) (hfree : s.Unlocked) (hc : t.toCallbacks = s.toCallbacks)
    (hphase : t.phase = s.phase) (hgeneration : t.generation = s.generation)
    (hclosed : t.closed = s.closed) (hlisteners : t.listeners = s.listeners)
    (htodo : .shutdownEvents ∉ t.todo) : Books t := by
  refine h.control hc hfree.1 (hphase.trans hfree.1) (Nat.le_of_eq hgeneration.symm)
    (fun hstops => ?_)
    (fun hopen => ⟨hclosed ▸ hopen, fun _ => Nat.le_of_eq (by rw [hlisteners])⟩)
    fun hmem => absurd hmem htodo
  have hmem := hstops.2
  rw [hfree.2] at hmem
  cases hmem

/-- What is done without the lock and is no task. -/
theorem frame (h : Books s) {listeners : List String}
    (hlisteners : ∀ name, s.listeners.count name ≤ listeners.count name) (pending : Bool)
    (calling : Nat) :
    Books { s with listeners, pending, calling } where
  lined := ⟨h.lined.line, h.lined.bound, h.lined.past, h.lined.unstarted⟩
  accounted := {
    account := h.accounted.account
    lost := h.accounted.lost
    loop := h.accounted.loop
    heard := fun hopen i => Nat.le_trans (h.accounted.heard hopen i) (hlisteners _)
    closing := h.accounted.closing }
  dropped := {
    bound := h.dropped.bound
    nodup := h.dropped.nodup
    balance := h.dropped.balance
    loop := h.dropped.loop
    past := h.dropped.past
    fresh := h.dropped.fresh
    cleared := h.dropped.cleared
    tokens := h.dropped.tokens
    doomed := h.dropped.doomed
    dropping := h.dropped.dropping
    stopping := h.dropped.stopping }

theorem next (h : Books s) (hs : s.step .next = some t) : Books t := by
  rw [step] at hs
  split at hs
  case h_1 hphase =>
    split at hs
    case h_1 => cases hs
    case h_2 op todo htodo =>
      cases hs
      exact h.perform hphase htodo
  case h_2 i hphase => cases hs; exact h.stop hphase
  case h_3 rejected hphase => cases hs; exact h.drop hphase
  case h_4 hphase => cases hs; exact h.clear hphase

theorem start (callback : Bool) (attempts : Nat) : Books (start callback attempts) where
  lined := {
    line := List.Pairwise.nil
    bound := fun _ hi => by cases hi
    past := fun _ hp => by cases hp
    unstarted := fun _ => ⟨rfl, rfl⟩ }
  accounted := {
    account := fun _ _ hj => absurd hj (Nat.not_lt_zero _)
    lost := fun _ hp => by cases hp
    loop := fun _ _ _ hw => by cases hw
    heard := fun _ _ => Nat.le_refl _
    closing := fun hmem => by cases hmem }
  dropped := {
    bound := fun _ hi => by cases hi
    nodup := List.nodup_nil
    balance := rfl
    loop := fun _ _ _ hw => by cases hw
    past := fun _ hp => by cases hp
    fresh := fun _ _ hi => by cases hi
    cleared := fun hphase => by cases hphase
    tokens := fun _ => Nat.le_refl _
    doomed := fun _ hi => by cases hi
    dropping := fun _ hphase => by cases hphase
    stopping := fun _ hphase => by cases hphase }

theorem step {a : Action} (h : Books s) (hs : s.step a = some t) : Books t := by
  cases a with
  | listen name =>
    cases hs
    exact h.frame (fun name' => (List.sublist_append_left _ _).count_le name') s.pending s.calling
  | emit name =>
    obtain ⟨hfree, hs⟩ := Option.ite_none_right_eq_some.mp hs
    cases hs
    exact h.acquire hfree rfl rfl rfl rfl rfl (by simp)
  | connect =>
    obtain ⟨hfree, hs⟩ := Option.ite_none_right_eq_some.mp hs
    split at hs
    case isTrue => cases hs; exact h
    case isFalse => cases hs; exact h.acquire hfree rfl rfl rfl rfl rfl (by simp)
  | fail token retryable =>
    obtain ⟨hfree, hs⟩ := Option.ite_none_right_eq_some.mp hs
    split at hs
    case isTrue =>
      split at hs
      case isTrue => cases hs; exact h.acquire hfree rfl rfl rfl rfl rfl (by simp)
      case isFalse => cases hs; exact h.acquire hfree rfl rfl rfl rfl rfl (by simp)
    case isFalse => cases hs; exact h
  | disconnect =>
    obtain ⟨hfree, hs⟩ := Option.ite_none_right_eq_some.mp hs
    split at hs
    case isTrue => cases hs; exact h
    case isFalse =>
      cases hs
      exact h.acquire hfree rfl rfl rfl rfl rfl (by simp [disconnectOps])
  | close =>
    obtain ⟨hfree, hs⟩ := Option.ite_none_right_eq_some.mp hs
    split at hs
    case isTrue => cases hs; exact h
    case isFalse =>
      cases hs
      exact h.acquire hfree rfl rfl rfl rfl rfl (by simp [disconnectOps])
  | offline =>
    obtain ⟨hfree, hs⟩ := Option.ite_none_right_eq_some.mp hs
    cases hs
    exact h.acquire hfree.1 rfl rfl rfl rfl rfl (by simp)
  | confirm =>
    obtain ⟨hfree, hs⟩ := Option.ite_none_right_eq_some.mp hs
    cases hs
    exact h.acquire hfree.1 rfl rfl rfl rfl rfl (by rw [show s.todo = [] from hfree.1.2]; simp)
  | settle =>
    cases hs
    exact h.frame (fun _ => Nat.le_refl _) false s.calling
  | next => exact h.next hs
  | take =>
    rw [TikTokLive.step] at hs
    split at hs
    case h_1 task queue hworker hqueue => cases hs; exact h.take hworker hqueue
    case h_2 => cases hs
  | turn =>
    rw [TikTokLive.step] at hs
    split at hs
    case h_1 i hworker =>
      split at hs
      case isTrue => cases hs; exact h.turnAway hworker
      case isFalse hcurrent => cases hs; exact h.beginLoop hworker hcurrent
    case h_2 g hworker => cases hs; exact h.turnOverload hworker
    case h_3 => cases hs
  | hand =>
    rw [TikTokLive.step] at hs
    split at hs
    case h_1 i k n hworker =>
      obtain ⟨-, hs⟩ := Option.ite_none_right_eq_some.mp hs
      cases hs
      exact h.hand hworker
    case h_2 => cases hs
  | refuse =>
    rw [TikTokLive.step] at hs
    split at hs
    case h_1 i k n hworker =>
      obtain ⟨-, hs⟩ := Option.ite_none_right_eq_some.mp hs
      cases hs
      exact h.refuse hworker
    case h_2 => cases hs
  | finish =>
    rw [TikTokLive.step] at hs
    split at hs
    case h_1 i k n hworker =>
      obtain ⟨hend, hs⟩ := Option.ite_none_right_eq_some.mp hs
      cases hs
      exact h.finish (hend.1 ▸ hworker)
    case h_2 => cases hs
  | call k =>
    rw [TikTokLive.step] at hs
    split at hs
    case h_1 i j hcall =>
      split at hs
      case isTrue => cases hs; exact h.callStale hcall
      case isFalse => cases hs; exact h.callBegin hcall
    case h_2 => cases hs
  | «return» =>
    obtain ⟨-, hs⟩ := Option.ite_none_right_eq_some.mp hs
    cases hs
    exact h.frame (fun _ => Nat.le_refl _) s.pending (s.calling - 1)

end Books

/-- A call that takes the lock, or what needs neither the lock nor a turn. -/
def Action.isControl : Action → Bool
  | .listen _ | .emit _ | .connect | .fail _ _ | .disconnect | .close | .offline | .confirm
  | .settle | .return => true
  | .next | .take | .turn | .hand | .refuse | .finish | .call _ => false

/-- Such a step leaves the notifications where they are. -/
theorem toCallbacks_of_control {a : Action} (ha : a.isControl = true) (hs : s.step a = some t) :
    t.toCallbacks = s.toCallbacks ∧ t.callback = s.callback := by
  cases a with
  | next | take | turn | hand | refuse | finish | call _ => cases ha
  | listen _ | settle => cases hs; exact ⟨rfl, rfl⟩
  | emit _ | offline | confirm | «return» =>
    obtain ⟨-, hs⟩ := Option.ite_none_right_eq_some.mp hs
    cases hs
    exact ⟨rfl, rfl⟩
  | connect | disconnect | close =>
    obtain ⟨-, hs⟩ := Option.ite_none_right_eq_some.mp hs
    split at hs <;> cases hs <;> exact ⟨rfl, rfl⟩
  | fail _ _ =>
    obtain ⟨-, hs⟩ := Option.ite_none_right_eq_some.mp hs
    split at hs
    case isTrue => split at hs <;> cases hs <;> exact ⟨rfl, rfl⟩
    case isFalse => cases hs; exact ⟨rfl, rfl⟩

end TikTokLive

end TiktokSigner.JavaClient
