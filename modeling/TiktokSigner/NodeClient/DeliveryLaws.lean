import TiktokSigner.NodeClient.EventDelivery
import TiktokSigner.Lib.Backlog
import TiktokSigner.Lib.Ring

/-!
# The laws of the event delivery

`Sound` relates the slots to the queue `q` they hold. A delivery in
progress is neither counted as dispatched nor queued; with a capacity there
is one at most, but a consumer that is called by `submit` itself can submit
again before it returns.
-/

namespace TiktokSigner.NodeClient

open Function (update update_self update_of_ne)
open Backlog

/-- A call of the consumer, not of the overflow callback. -/
def Frame.delivers : Frame → Bool
  | direct | drain _ => true
  | overflow => false

namespace Delivery

variable {α : Type} {o : DeliveryOptions} {s t : Delivery α} {q : List (Entry α)}

/-- The deliveries in progress. -/
def inHand (s : Delivery α) : Nat :=
  s.stack.countP Frame.delivers

theorem inHand_consume {frame : Frame} {seq : Nat} (hframe : frame.delivers = true) :
    (s.consume frame seq).inHand = s.inHand + 1 :=
  List.countP_cons_of_pos hframe

theorem inHand_overflow (s : Delivery α) : s.overflow.inHand = s.inHand :=
  List.countP_cons_of_neg nofun

/-- What was called or will be, in this order. -/
def order (s : Delivery α) (q : List (Entry α)) : List Nat :=
  s.delivered.map Prod.fst ++ q.map Entry.seq

structure Sound (o : DeliveryOptions) (s : Delivery α) (q : List (Entry α)) : Prop where
  ring : Ring.Holds s.queue o.capacity s.head q
  head : o.capacity ≠ 0 → s.head < o.capacity
  depth : s.depth = q.length
  bytes : s.bytes = load Entry.bytes q
  budget : s.bytes ≤ o.maxBytes
  balance : s.received = s.dispatched + s.discarded + s.depth + s.inHand
  single : o.capacity ≠ 0 → s.inHand ≤ 1
  sorted : (s.order q).Pairwise (· < ·)
  past : ∀ i ∈ s.order q, i < s.received
  kept : ∀ entry ∈ q, s.floor ≤ entry.seq
  floors : ∀ d ∈ s.delivered, d.2 ≤ d.1
  floor : s.floor ≤ s.received
  notified : s.notified = s.rejections
  intact : s.crashed = false

/-- What is queued has a timer or a loop that will take it. -/
def Awake (s : Delivery α) : Prop :=
  s.depth ≠ 0 → s.timer = true ∨ ∃ count, .drain count ∈ s.stack

theorem awake_schedule (s : Delivery α) : s.schedule.Awake := by
  intro hdepth
  rw [schedule] at hdepth ⊢
  split_ifs at hdepth ⊢ with hskip
  · rcases Bool.or_eq_true_iff.mp hskip with htimer | hempty
    · exact Or.inl htimer
    · exact absurd (beq_iff_eq.mp hempty) hdepth
  · exact Or.inl rfl

theorem awake_clear (s : Delivery α) : s.clear.Awake :=
  fun hdepth => absurd rfl hdepth

namespace Sound

theorem schedule (h : s.Sound o q) : s.schedule.Sound o q := by
  rw [Delivery.schedule]
  split_ifs
  · exact h
  · exact ⟨h.ring, h.head, h.depth, h.bytes, h.budget, h.balance, h.single, h.sorted, h.past,
      h.kept, h.floors, h.floor, h.notified, h.intact⟩

theorem clear (h : s.Sound o q) : s.clear.Sound o [] where
  ring := Ring.Holds.nil
  head hcapacity := Nat.pos_of_ne_zero hcapacity
  depth := rfl
  bytes := rfl
  budget := Nat.zero_le _
  balance := by
    have hbalance := h.balance
    show s.received = s.dispatched + (s.discarded + s.depth) + 0 + s.inHand
    omega
  single := h.single
  sorted := by
    have hsorted := h.sorted
    rw [order, List.pairwise_append] at hsorted
    rw [order, List.map_nil, List.append_nil]
    exact hsorted.1
  past i hi := by
    rw [order, List.map_nil, List.append_nil] at hi
    exact h.past i (List.mem_append_left _ hi)
  kept := nofun
  floors := h.floors
  floor := Nat.le_refl _
  notified := h.notified
  intact := h.intact

/-- The call that has returned is counted. -/
theorem counted (h : s.Sound o q) {frame : Frame} {stack : List Frame}
    (hstack : s.stack = frame :: stack) (hframe : frame.delivers = true) (accepted : Bool) :
    Sound o ({ s with stack := stack }.count accepted) q := by
  have hinHand : s.inHand = stack.countP Frame.delivers + 1 := by
    rw [inHand, hstack, List.countP_cons_of_pos hframe]
  have hbalance := h.balance
  have hsingle := h.single
  rw [hinHand] at hbalance hsingle
  have hsingle' : o.capacity ≠ 0 → stack.countP Frame.delivers ≤ 1 := fun hcapacity =>
    Nat.le_of_succ_le (hsingle hcapacity)
  cases accepted with
  | true =>
    refine ⟨h.ring, h.head, h.depth, h.bytes, h.budget, ?_, hsingle', h.sorted, h.past, h.kept,
      h.floors, h.floor, h.notified, h.intact⟩
    show s.received = s.dispatched + 1 + s.discarded + s.depth + stack.countP Frame.delivers
    omega
  | false =>
    refine ⟨h.ring, h.head, h.depth, h.bytes, h.budget, ?_, hsingle', h.sorted, h.past, h.kept,
      h.floors, h.floor, h.notified, h.intact⟩
    show s.received = s.dispatched + (s.discarded + 1) + s.depth + stack.countP Frame.delivers
    omega

/-- The loop takes the first entry, or leaves the rest to a timer. -/
theorem drain (h : s.Sound o q) {count : Nat} (hfree : o.capacity ≠ 0 → s.inHand = 0) :
    (∃ q', (s.drain o count).Sound o q') ∧ (s.drain o count).Awake := by
  rw [Delivery.drain]
  split_ifs with hgo
  · have hdepth := h.depth
    cases q with
    | nil => exact absurd (Nat.lt_of_lt_of_eq hgo.1 hdepth) (Nat.lt_irrefl 0)
    | cons entry q =>
      have hcapacity : o.capacity ≠ 0 := Nat.ne_of_gt (Nat.zero_lt_of_lt h.ring.room)
      have hhead := h.head hcapacity
      rw [h.ring.first hhead]
      dsimp only
      have hbytes := h.bytes
      rw [load_cons] at hbytes
      rw [List.length_cons] at hdepth
      refine ⟨⟨q, ?_⟩, fun _ => Or.inr ⟨count + 1, List.mem_cons_self⟩⟩
      have horder : order ({ s with
          queue := update s.queue s.head none
          head := (s.head + 1) % o.capacity
          depth := s.depth - 1
          bytes := s.bytes - entry.bytes }.consume (.drain (count + 1)) entry.seq) q =
          s.order (entry :: q) := by
        simp [order, consume]
      have hinHand : inHand ({ s with
          queue := update s.queue s.head none
          head := (s.head + 1) % o.capacity
          depth := s.depth - 1
          bytes := s.bytes - entry.bytes }.consume (.drain (count + 1)) entry.seq) = s.inHand + 1 :=
        inHand_consume rfl
      refine ⟨h.ring.pop hhead, fun _ => Nat.mod_lt _ (Nat.pos_of_ne_zero hcapacity), ?_, ?_, ?_, ?_,
        ?_, ?_, ?_, ?_, ?_, h.floor, h.notified, h.intact⟩
      · show s.depth - 1 = q.length
        omega
      · show s.bytes - entry.bytes = load Entry.bytes q
        omega
      · exact Nat.le_trans (Nat.sub_le _ _) h.budget
      · have hbalance := h.balance
        rw [hinHand]
        show s.received = s.dispatched + s.discarded + (s.depth - 1) + (s.inHand + 1)
        omega
      · intro _
        rw [hinHand, hfree hcapacity]
      · rw [horder]
        exact h.sorted
      · rw [horder]
        exact h.past
      · exact fun e he => h.kept e (List.mem_cons_of_mem entry he)
      · intro d hd
        rcases List.mem_append.mp hd with hd | hd
        · exact h.floors d hd
        · rw [List.mem_singleton.mp hd]
          exact h.kept entry List.mem_cons_self
  · exact ⟨⟨q, h.schedule⟩, awake_schedule s⟩

/-- The next entry comes after those before it. -/
theorem sorted_concat (h : s.Sound o q) : (s.order q ++ [s.received]).Pairwise (· < ·) := by
  refine List.pairwise_append.mpr ⟨h.sorted, List.pairwise_singleton _ _, ?_⟩
  intro i hi j hj
  rw [List.mem_singleton.mp hj]
  exact h.past i hi

theorem past_concat (h : s.Sound o q) : ∀ i ∈ s.order q ++ [s.received], i < s.received + 1 := by
  intro i hi
  rcases List.mem_append.mp hi with hi | hi
  · exact Nat.lt_succ_of_lt (h.past i hi)
  · rw [List.mem_singleton.mp hi]
    exact Nat.lt_succ_self _

/-- A synchronous delivery. -/
theorem direct (h : s.Sound o q) (hcapacity : o.capacity = 0) :
    Sound o ({ s with received := s.received + 1 }.consume .direct s.received) q := by
  have hq : q = [] := by
    refine List.eq_nil_of_length_eq_zero (Nat.eq_zero_of_le_zero ?_)
    rw [← hcapacity]
    exact h.ring.room
  subst hq
  have horder : order ({ s with received := s.received + 1 }.consume .direct s.received) [] =
      s.order [] ++ [s.received] := by
    simp [order, consume]
  refine ⟨h.ring, h.head, h.depth, h.bytes, h.budget, ?_, fun hne => absurd hcapacity hne, ?_, ?_,
    h.kept, ?_, Nat.le_succ_of_le h.floor, h.notified, h.intact⟩
  · rw [inHand_consume rfl]
    show s.received + 1 = s.dispatched + s.discarded + s.depth + (s.inHand + 1)
    rw [h.balance, Nat.add_assoc _ s.inHand]
  · rw [horder]
    exact h.sorted_concat
  · rw [horder]
    exact h.past_concat
  · intro d hd
    rcases List.mem_append.mp hd with hd | hd
    · exact h.floors d hd
    · rw [List.mem_singleton.mp hd]
      exact h.floor

/-- The queue is full: it is discarded with the new entry. -/
theorem overflow (h : s.Sound o q) :
    Sound o ({ s with received := s.received + 1 } : Delivery α).overflow [] := by
  have hclear := h.clear
  refine ⟨Ring.Holds.nil, hclear.head, rfl, rfl, Nat.zero_le _, ?_, ?_, hclear.sorted, ?_, nofun,
    h.floors, Nat.le_refl _, congrArg (· + 1) h.notified, h.intact⟩
  · have hbalance := h.balance
    rw [inHand_overflow]
    show s.received + 1 = s.dispatched + (s.discarded + 1 + s.depth) + 0 + s.inHand
    omega
  · rw [inHand_overflow]
    exact h.single
  · exact fun i hi => Nat.lt_succ_of_lt (hclear.past i hi)

/-- There is room for the entry. -/
theorem push (h : s.Sound o q) {entry : Entry α} (hseq : entry.seq = s.received)
    (hroom : s.depth ≠ o.capacity) (hfits : entry.bytes ≤ o.maxBytes - s.bytes) :
    Sound o ({ s with received := s.received + 1 }.push o entry) (q ++ [entry]) := by
  have hlength : q.length < o.capacity :=
    Nat.lt_of_le_of_ne h.ring.room (h.depth ▸ hroom)
  have hring := h.ring.push (a := entry) hlength
  rw [← h.depth] at hring
  have hbudget := h.budget
  have horder : order ({ s with received := s.received + 1 }.push o entry) (q ++ [entry]) =
      s.order q ++ [s.received] := by
    simp [order, Delivery.push, hseq]
  refine ⟨hring, h.head, ?_, ?_, ?_, ?_, h.single, ?_, ?_, ?_, h.floors, Nat.le_succ_of_le h.floor,
    h.notified, h.intact⟩
  · show s.depth + 1 = (q ++ [entry]).length
    rw [List.length_append, h.depth]
    rfl
  · show s.bytes + entry.bytes = load Entry.bytes (q ++ [entry])
    rw [load_append, h.bytes]
    rfl
  · show s.bytes + entry.bytes ≤ o.maxBytes
    omega
  · have hbalance := h.balance
    show s.received + 1 = s.dispatched + s.discarded + (s.depth + 1) + s.inHand
    omega
  · rw [horder]
    exact h.sorted_concat
  · rw [horder]
    exact h.past_concat
  · intro e he
    rcases List.mem_append.mp he with he | he
    · exact h.kept e he
    · rw [List.mem_singleton.mp he, hseq]
      exact h.floor

end Sound

/-! ## What a step keeps -/

theorem not_overflowing {bytes : Option Nat} (h : s.overflowing o bytes = false) :
    s.depth ≠ o.capacity ∧ bytes.getD 0 ≤ o.maxBytes - s.bytes := by
  unfold overflowing at h
  rw [Bool.or_eq_false_iff] at h
  refine ⟨fun heq => ?_, ?_⟩
  · rw [heq, beq_self_eq_true] at h
    exact absurd h.1 nofun
  · cases bytes with
    | none => exact absurd h.2 nofun
    | some n => exact Nat.le_of_not_lt (of_decide_eq_false h.2)

theorem submit_sound (h : s.Sound o q) (hawake : s.Awake) (value : α) (generation : Nat)
    (bytes : Option Nat) : (∃ q', (s.submit o value generation bytes).Sound o q') ∧
      (s.submit o value generation bytes).Awake := by
  rw [submit]
  split_ifs with hcapacity hover
  · refine ⟨⟨q, h.direct hcapacity⟩, fun hdepth => ?_⟩
    rcases hawake hdepth with htimer | ⟨count, hcount⟩
    · exact Or.inl htimer
    · exact Or.inr ⟨count, List.mem_cons_of_mem _ hcount⟩
  · exact ⟨⟨[], h.overflow⟩, fun hdepth => absurd rfl hdepth⟩
  · obtain ⟨hroom, hfits⟩ := not_overflowing (Bool.eq_false_iff.mpr hover)
    exact ⟨⟨_, (h.push rfl hroom hfits).schedule⟩, awake_schedule _⟩

theorem returned_sound (h : s.Sound o q) (hawake : s.Awake) {frame : Frame} {stack : List Frame}
    (hstack : s.stack = frame :: stack) (accepted late : Bool) :
    (∃ q', ({ s with stack := stack }.returned o frame accepted late).Sound o q') ∧
      ({ s with stack := stack }.returned o frame accepted late).Awake := by
  cases frame with
  | direct =>
    refine ⟨⟨q, h.counted hstack rfl accepted⟩, fun hdepth => ?_⟩
    have hsame : s.depth ≠ 0 := by cases accepted <;> exact hdepth
    rcases hawake hsame with htimer | ⟨count, hcount⟩
    · exact Or.inl (by cases accepted <;> exact htimer)
    · rw [hstack] at hcount
      refine Or.inr ⟨count, ?_⟩
      have hmem := (List.mem_cons.mp hcount).resolve_left nofun
      cases accepted <;> exact hmem
  | drain count =>
    have hcounted := h.counted hstack rfl accepted
    cases late with
    | true => exact ⟨⟨q, hcounted.schedule⟩, awake_schedule _⟩
    | false =>
      refine hcounted.drain fun hcapacity => ?_
      have hsingle := h.single hcapacity
      rw [inHand, hstack, List.countP_cons_of_pos rfl] at hsingle
      have hzero : stack.countP Frame.delivers = 0 := by omega
      cases accepted <;> exact hzero
  | overflow =>
    have hinHand : s.inHand = stack.countP Frame.delivers := by
      rw [inHand, hstack]
      exact List.countP_cons_of_neg nofun
    refine ⟨⟨q, h.ring, h.head, h.depth, h.bytes, h.budget, ?_, ?_, h.sorted, h.past, h.kept,
      h.floors, h.floor, h.notified, h.intact⟩, fun hdepth => ?_⟩
    · rw [h.balance, hinHand]
      rfl
    · have hsingle := h.single
      rw [hinHand] at hsingle
      exact hsingle
    · rcases hawake hdepth with htimer | ⟨count, hcount⟩
      · exact Or.inl htimer
      · rw [hstack] at hcount
        have hmem := (List.mem_cons.mp hcount).resolve_left nofun
        exact Or.inr ⟨count, hmem⟩

theorem step_sound {a : DeliveryAction α} (h : ∃ q, s.Sound o q) (hawake : s.Awake)
    (hs : Delivery.step o s a = some t) : (∃ q, t.Sound o q) ∧ t.Awake := by
  obtain ⟨q, h⟩ := h
  cases a with
  | submit value generation bytes =>
    cases hs
    exact submit_sound h hawake value generation bytes
  | clear =>
    cases hs
    exact ⟨⟨[], h.clear⟩, awake_clear s⟩
  | timer =>
    obtain ⟨⟨hstack, -⟩, hs⟩ := Option.ite_none_right_eq_some.mp hs
    cases hs
    have hsame : Sound o { s with timer := false } q :=
      ⟨h.ring, h.head, h.depth, h.bytes, h.budget, h.balance, h.single, h.sorted, h.past, h.kept,
        h.floors, h.floor, h.notified, h.intact⟩
    refine hsame.drain fun _ => ?_
    show s.stack.countP Frame.delivers = 0
    rw [hstack]
    rfl
  | returned accepted late =>
    simp only [step] at hs
    split at hs
    case h_1 frame stack hstack =>
      cases hs
      exact returned_sound h hawake hstack accepted late
    case h_2 => cases hs

/-! ## Whole runs -/

/-- What the delivery promises, with `q` the queued entries in order. -/
structure Lawful (o : DeliveryOptions) (s : Delivery α) (q : List (Entry α)) : Prop where
  queued : Ring.Holds s.queue o.capacity s.head q ∧ s.depth = q.length
  depth : s.depth ≤ o.capacity
  bytes : s.bytes = load Entry.bytes q
  budget : s.bytes ≤ o.maxBytes
  balance : s.received = s.dispatched + s.discarded + s.depth + s.inHand
  single : o.capacity ≠ 0 → s.inHand ≤ 1
  /-- The consumer is called in the order of submission, -/
  ordered : (s.delivered.map Prod.fst ++ q.map Entry.seq).Pairwise (· < ·)
  /-- and never with an entry submitted before the last `clear`. -/
  cleared : ∀ d ∈ s.delivered, d.2 ≤ d.1
  notified : s.notified = s.rejections
  intact : s.crashed = false
  awake : s.Awake
  overflow : ∀ value generation bytes, o.capacity ≠ 0 → s.overflowing o bytes = true →
    (s.submit o value generation bytes).depth = 0 ∧
    (s.submit o value generation bytes).discarded = s.discarded + s.depth + 1 ∧
    (s.submit o value generation bytes).rejections = s.rejections + 1 ∧
    (s.submit o value generation bytes).notified = s.notified + 1

theorem submit_overflow (value : α) (generation : Nat) {bytes : Option Nat}
    (hcapacity : o.capacity ≠ 0) (hover : s.overflowing o bytes = true) :
    s.submit o value generation bytes =
      ({ s with received := s.received + 1 } : Delivery α).overflow := by
  rw [submit, if_neg hcapacity]
  exact if_pos hover

theorem Sound.lawful (h : s.Sound o q) (hawake : s.Awake) : s.Lawful o q where
  queued := ⟨h.ring, h.depth⟩
  depth := h.depth ▸ h.ring.room
  bytes := h.bytes
  budget := h.budget
  balance := h.balance
  single := h.single
  ordered := h.sorted
  cleared := h.floors
  notified := h.notified
  intact := h.intact
  awake := hawake
  overflow value generation bytes hcapacity hover := by
    rw [submit_overflow value generation hcapacity hover]
    exact ⟨rfl, Nat.add_right_comm s.discarded 1 s.depth, rfl, rfl⟩

theorem sound_initial : Sound o ({} : Delivery α) [] :=
  ⟨Ring.Holds.nil, Nat.pos_of_ne_zero, rfl, rfl, Nat.zero_le _, rfl, fun _ => Nat.zero_le 1,
    List.Pairwise.nil, nofun, nofun, nofun, Nat.le_refl 0, rfl, rfl⟩

/-- The delivery is lawful in every run of submissions, clears, timer turns
and returns, in whatever order the consumer makes them. -/
theorem event_delivery {as : List (DeliveryAction α)}
    (hrun : Lts.run (Delivery.step o) {} as = some s) : ∃ q, s.Lawful o q := by
  have hinv : (∃ q, s.Sound o q) ∧ s.Awake := by
    refine Lts.run_invariant_all (I := fun s : Delivery α => (∃ q, s.Sound o q) ∧ s.Awake) ?_
      ⟨⟨[], sound_initial⟩, fun hdepth => absurd rfl hdepth⟩ hrun
    intro s a t h hs
    exact step_sound h.1 h.2 hs
  obtain ⟨⟨q, h⟩, hawake⟩ := hinv
  exact ⟨q, h.lawful hawake⟩

/-- The consumer of the first entry clears the queue, submits again and
overflows it; the loop goes on with what comes after. -/
theorem event_delivery_reentered :
    ∃ s : Delivery Unit, Lts.run (Delivery.step { capacity := 2, maxBytes := 100 }) {}
        [.submit () 1 (some 10), .submit () 1 (some 10), .timer, .clear, .submit () 2 (some 20),
          .submit () 2 (some 90), .returned true true, .submit () 2 (some 1), .returned true false,
          .returned true false] = some s ∧
      (s.received = 5 ∧ s.dispatched = 2 ∧ s.discarded = 3 ∧ s.rejections = 1 ∧
        s.delivered = [(0, 0), (4, 4)]) ∧
      ∃ q, s.Lawful { capacity := 2, maxBytes := 100 } q := by
  refine Lts.exists_run (P := fun s : Delivery Unit => s.received = 5 ∧ s.dispatched = 2 ∧
    s.discarded = 3 ∧ s.rejections = 1 ∧ s.delivered = [(0, 0), (4, 4)]) (by decide) ?_
  intro s hrun hend
  exact ⟨hend, event_delivery hrun⟩

/-- Without a capacity the consumer is called by `submit`: if it submits
again, two deliveries are in progress. -/
theorem two_deliveries_in_progress :
    ¬∀ (o : DeliveryOptions) (as : List (DeliveryAction Unit)) (s : Delivery Unit),
      Lts.run (Delivery.step o) {} as = some s →
      s.received = s.dispatched + s.discarded + s.depth ∨
        s.received = s.dispatched + s.discarded + s.depth + 1 := by
  intro h
  have hrun : ∃ s : Delivery Unit, Lts.run (Delivery.step {}) {}
      [.submit () 1 (some 10), .submit () 1 (some 10)] = some s ∧
      (s.received, s.dispatched, s.discarded, s.depth) = (2, 0, 0, 0) :=
    Lts.exists_run (P := fun s : Delivery Unit => (s.received, s.dispatched, s.discarded, s.depth)
      = (2, 0, 0, 0))
      (by decide) fun _ _ h => h
  obtain ⟨s, hrun, hend⟩ := hrun
  simp only [Prod.mk.injEq] at hend
  obtain ⟨hreceived, hdispatched, hdiscarded, hdepth⟩ := hend
  have hbalance := h {} _ s hrun
  rw [hreceived, hdispatched, hdiscarded, hdepth] at hbalance
  exact absurd hbalance (by decide)

end Delivery

end TiktokSigner.NodeClient
