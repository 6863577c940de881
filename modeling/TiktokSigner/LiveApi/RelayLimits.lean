import TiktokSigner.Lib.Lts
import TiktokSigner.Lib.Tally
import TiktokSigner.Lib.Crowd

/-!
# Limits on active relays

`RelayLimits` bounds the relays of all customers with a semaphore and those
of each with a count in a map. `acquire` and the drop of a `RelayPermit`
each touch both, one after the other: the semaphore is tried before the map
is locked, and its permit goes back after the map is unlocked. A lease is
one call of `acquire`, with the point it has come to; the steps of all
leases interleave freely.

The metric `active_live_connections` is written with the map locked, so it
belongs to the map step.
-/

namespace TiktokSigner.LiveApi

open Crowd Tally

/-- How far a call of `acquire`, or its permit, has come. -/
inductive LeasePhase where
  /-- Has its slot, has not locked the map. -/
  | slotted
  /-- Refused by the map, the slot not yet given back. -/
  | refusing
  | refused
  /-- A `RelayPermit`. -/
  | live
  /-- The drop body of the permit has run, the slot not yet given back. -/
  | dropping
  | dropped
deriving DecidableEq

structure Lease where
  customer : String
  phase : LeasePhase
deriving DecidableEq

namespace Lease

/-- Has a permit of the semaphore. -/
def holdsSlot (lease : Lease) : Bool :=
  match lease.phase with
  | .refused | .dropped => false
  | .slotted | .refusing | .live | .dropping => true

def isLive (lease : Lease) : Bool := lease.phase = .live

def isRefused (lease : Lease) : Bool := lease.phase = .refusing || lease.phase = .refused

end Lease

structure RelayLimits where
  /-- Permits left in the semaphore. -/
  slots : Nat
  customers : AList fun _ : String => Nat
  perCustomer : Nat
  activeLiveConnections : Nat := 0
  liveConnectionRejectionsTotal : Nat := 0
  leases : List Lease := []

namespace RelayLimits

def new (global perCustomer : Nat) : RelayLimits :=
  { slots := max global 1, customers := ∅, perCustomer := max perCustomer 1 }

/-- `customers.entry(customer).or_default()`. -/
def orDefault (customers : AList fun _ : String => Nat) (customer : String) :
    AList fun _ : String => Nat :=
  match customers.lookup customer with
  | some _ => customers
  | none => customers.insert customer 0

def setPhase (s : RelayLimits) (i : Nat) (lease : Lease) (phase : LeasePhase) : RelayLimits :=
  { s with leases := s.leases.set i { lease with phase } }

/-- `denied()`. -/
def denied (s : RelayLimits) : RelayLimits :=
  { s with liveConnectionRejectionsTotal := s.liveConnectionRejectionsTotal + 1 }

/-- `acquire` up to the semaphore. -/
def tryAcquireSlot (s : RelayLimits) (customer : String) : RelayLimits :=
  if 0 < s.slots then
    { s with slots := s.slots - 1, leases := s.leases ++ [⟨customer, .slotted⟩] }
  else { s.denied with leases := s.leases ++ [⟨customer, .refused⟩] }

/-- `acquire` with the map locked. -/
def enter (s : RelayLimits) (i : Nat) (lease : Lease) : RelayLimits :=
  let customers := orDefault s.customers lease.customer
  let count := count customers lease.customer
  if s.perCustomer ≤ count then ({ s with customers }.denied).setPhase i lease .refusing
  else
    { s with
      customers := customers.insert lease.customer (count + 1),
      activeLiveConnections := s.activeLiveConnections + 1 }.setPhase i lease .live

/-- `drop` of the permit, before its fields. -/
def dropPermit (s : RelayLimits) (i : Nat) (lease : Lease) : RelayLimits :=
  { s with
    customers := remove s.customers lease.customer,
    activeLiveConnections := s.activeLiveConnections - 1 }.setPhase i lease .dropping

/-- The semaphore gets its permit back. -/
def releaseSlot (s : RelayLimits) (i : Nat) (lease : Lease) (phase : LeasePhase) : RelayLimits :=
  { s with slots := s.slots + 1 }.setPhase i lease phase

inductive Action where
  | acquire (customer : String)
  /-- The map step of lease `i`. -/
  | enter (i : Nat)
  /-- The slot of a refused lease goes back. -/
  | refuse (i : Nat)
  | drop (i : Nat)
  /-- The slot of a dropped permit goes back. -/
  | release (i : Nat)
deriving DecidableEq

/-- Lease `i`, if it is at this point. -/
def leaseAt (s : RelayLimits) (i : Nat) (phase : LeasePhase) : Option Lease :=
  s.leases[i]?.filter fun lease => lease.phase = phase

def step (s : RelayLimits) : Action → Option RelayLimits
  | .acquire customer => some (s.tryAcquireSlot customer)
  | .enter i => (s.leaseAt i .slotted).map (s.enter i)
  | .refuse i => (s.leaseAt i .refusing).map fun lease => s.releaseSlot i lease .refused
  | .drop i => (s.leaseAt i .live).map (s.dropPermit i)
  | .release i => (s.leaseAt i .dropping).map fun lease => s.releaseSlot i lease .dropped

/-! ## The accounts -/

/-- The customers of the live permits. -/
def liveCustomers (leases : List Lease) : List String := (leases.filter Lease.isLive).map Lease.customer

/-- The semaphore, the map and the metrics against the leases. -/
structure Accounts (global perCustomer slots : Nat) (customers : AList fun _ : String => Nat)
    (active rejections : Nat) (leases : List Lease) : Prop where
  slots : slots + leases.countP Lease.holdsSlot = max global 1
  customers : Tallies customers (liveCustomers leases)
  limit : ∀ customer, (liveCustomers leases).count customer ≤ max perCustomer 1
  active : active = (liveCustomers leases).length
  rejections : rejections = leases.countP Lease.isRefused

section

variable {global perCustomer slots active rejections : Nat}
  {customers : AList fun _ : String => Nat} {leases leases' : List Lease} {customer : String}

theorem Accounts.perm (h : Accounts global perCustomer slots customers active rejections leases)
    (hperm : leases.Perm leases') :
    Accounts global perCustomer slots customers active rejections leases' := by
  have hlive : (liveCustomers leases).Perm (liveCustomers leases') := (hperm.filter _).map _
  exact ⟨by rw [← hperm.countP_eq, h.slots], h.customers.perm hlive,
    fun c => by rw [← hlive.count_eq]; exact h.limit c, by rw [← hlive.length_eq, h.active],
    by rw [← hperm.countP_eq, h.rejections]⟩

theorem liveCustomers_cons_live :
    liveCustomers (⟨customer, .live⟩ :: leases) = customer :: liveCustomers leases := rfl

theorem liveCustomers_cons_of_ne (leases : List Lease) (customer : String) {phase : LeasePhase}
    (h : phase ≠ .live) :
    liveCustomers (⟨customer, phase⟩ :: leases) = liveCustomers leases := by
  rw [liveCustomers, List.filter_cons_of_neg (by simpa [Lease.isLive] using h)]
  rfl

/-- A lease goes from a phase to another, neither of them that of a permit. -/
theorem Accounts.aside {slots' rejections' : Nat} {phase : LeasePhase} (phase' : LeasePhase)
    (h : Accounts global perCustomer slots customers active rejections
      (⟨customer, phase⟩ :: leases))
    (hphase : phase ≠ .live) (hphase' : phase' ≠ .live)
    (hslots : slots' + (Lease.mk customer phase').holdsSlot.toNat =
      slots + (Lease.mk customer phase).holdsSlot.toNat)
    (hrejections : rejections' + (Lease.mk customer phase).isRefused.toNat =
      rejections + (Lease.mk customer phase').isRefused.toNat) :
    Accounts global perCustomer slots' customers active rejections'
      (⟨customer, phase'⟩ :: leases) := by
  have hlive : liveCustomers (⟨customer, phase⟩ :: leases) =
      liveCustomers (⟨customer, phase'⟩ :: leases) := by
    rw [liveCustomers_cons_of_ne leases customer hphase,
      liveCustomers_cons_of_ne leases customer hphase']
  have hheld := h.slots
  have hrefused := h.rejections
  rw [List.countP_cons] at hheld hrefused
  refine ⟨?_, hlive ▸ h.customers, hlive ▸ h.limit, hlive ▸ h.active, ?_⟩
  · rw [List.countP_cons]
    cases hp : (Lease.mk customer phase).holdsSlot <;>
      cases hp' : (Lease.mk customer phase').holdsSlot <;> simp [hp, hp'] at hslots hheld ⊢ <;> omega
  · rw [List.countP_cons]
    cases hp : (Lease.mk customer phase).isRefused <;>
      cases hp' : (Lease.mk customer phase').isRefused <;>
        simp [hp, hp'] at hrejections hrefused ⊢ <;> omega

/-- A call of `acquire` gets its permit. -/
theorem Accounts.grant
    (h : Accounts global perCustomer slots customers active rejections
      (⟨customer, .slotted⟩ :: leases))
    (hroom : count customers customer < max perCustomer 1) :
    Accounts global perCustomer slots (add customers customer) (active + 1) rejections
      (⟨customer, .live⟩ :: leases) := by
  have hlive : liveCustomers (⟨customer, .slotted⟩ :: leases) = liveCustomers leases :=
    liveCustomers_cons_of_ne leases customer nofun
  have htallies := h.customers
  rw [hlive] at htallies
  refine ⟨h.slots, htallies.add customer, ?_, ?_, h.rejections⟩
  · intro c
    have hlimit := h.limit c
    rw [hlive] at hlimit
    rw [liveCustomers_cons_live, List.count_cons]
    split
    case isTrue heq =>
      obtain rfl := eq_of_beq heq
      rw [← htallies.count]
      exact hroom
    case isFalse => exact hlimit
  · rw [h.active, hlive, liveCustomers_cons_live, List.length_cons]

/-- The drop body of a permit. -/
theorem Accounts.drop
    (h : Accounts global perCustomer slots customers active rejections
      (⟨customer, .live⟩ :: leases)) :
    Accounts global perCustomer slots (remove customers customer) (active - 1) rejections
      (⟨customer, .dropping⟩ :: leases) := by
  have hlive : liveCustomers (⟨customer, .dropping⟩ :: leases) = liveCustomers leases :=
    liveCustomers_cons_of_ne leases customer nofun
  refine ⟨h.slots, ?_, ?_, ?_, h.rejections⟩
  · rw [hlive]
    exact h.customers.remove
  · intro c
    rw [hlive]
    refine Nat.le_trans ?_ (h.limit c)
    rw [liveCustomers_cons_live]
    exact List.count_le_count_cons
  · rw [h.active, hlive, liveCustomers_cons_live, List.length_cons, Nat.add_sub_cancel]

end

/-! ## Steps -/

/-- The state's numbers are those of its leases. -/
structure Sound (global perCustomer : Nat) (s : RelayLimits) : Prop where
  accounts : Accounts global perCustomer s.slots s.customers s.activeLiveConnections
    s.liveConnectionRejectionsTotal s.leases
  perCustomer : s.perCustomer = max perCustomer 1

section

variable {global perCustomer : Nat} {s t : RelayLimits} {i : Nat} {lease : Lease}
  {phase : LeasePhase}

theorem leaseAt_eq_some (h : s.leaseAt i phase = some lease) :
    s.leases[i]? = some lease ∧ lease = ⟨lease.customer, phase⟩ := by
  obtain ⟨hlease, hphase⟩ := Option.filter_eq_some_iff.mp h
  refine ⟨hlease, ?_⟩
  obtain ⟨customer, phase'⟩ := lease
  obtain rfl : phase' = phase := of_decide_eq_true hphase
  rfl

theorem Sound.tryAcquireSlot (h : Sound global perCustomer s) (customer : String) :
    Sound global perCustomer (s.tryAcquireSlot customer) := by
  have hslots := h.accounts.slots
  have hrejections := h.accounts.rejections
  have hlive : ∀ phase, phase ≠ .live →
      liveCustomers (s.leases ++ [⟨customer, phase⟩]) = liveCustomers s.leases := by
    intro phase hphase
    rw [liveCustomers, List.filter_append,
      List.filter_cons_of_neg (by simpa [Lease.isLive] using hphase)]
    simp [liveCustomers]
  rw [RelayLimits.tryAcquireSlot]
  split
  case isTrue hfree =>
    have hsame := hlive .slotted nofun
    refine ⟨⟨?_, hsame ▸ h.accounts.customers, hsame ▸ h.accounts.limit,
      hsame ▸ h.accounts.active, ?_⟩,
      h.perCustomer⟩
    · simp only [List.countP_append, List.countP_singleton, Lease.holdsSlot, if_true]
      omega
    · simpa [List.countP_append, Lease.isRefused] using hrejections
  case isFalse =>
    have hsame := hlive .refused nofun
    refine ⟨⟨?_, hsame ▸ h.accounts.customers, hsame ▸ h.accounts.limit,
      hsame ▸ h.accounts.active, ?_⟩,
      h.perCustomer⟩
    · simpa [List.countP_append, Lease.holdsSlot, denied] using hslots
    · simpa [List.countP_append, Lease.isRefused, denied] using hrejections

variable {customers : AList fun _ : String => Nat} {customer : String}

theorem count_orDefault :
    count (orDefault customers customer) customer = count customers customer := by
  rw [orDefault]
  split
  · rfl
  · rename_i hnone
    rw [count_insert, if_pos rfl, count, hnone]
    rfl

theorem insert_orDefault (n : Nat) :
    (orDefault customers customer).insert customer n = customers.insert customer n := by
  rw [orDefault]
  split
  · rfl
  · exact AList.insert_insert ..

/-- A customer that is counted has an entry. -/
theorem orDefault_of_pos (h : 0 < count customers customer) :
    orDefault customers customer = customers := by
  rw [orDefault]
  split
  · rfl
  · rename_i hnone
    rw [count, hnone] at h
    exact absurd h (Nat.lt_irrefl 0)

/-- The map step refuses, and leaves no entry behind, or admits. -/
theorem Sound.enter_eq (h : Sound global perCustomer s) (i : Nat) (lease : Lease) :
    s.enter i lease =
      if s.perCustomer ≤ count s.customers lease.customer then s.denied.setPhase i lease .refusing
      else
        { s with
          customers := add s.customers lease.customer,
          activeLiveConnections := s.activeLiveConnections + 1 }.setPhase i lease .live := by
  rw [RelayLimits.enter]
  rw [count_orDefault, insert_orDefault]
  split
  case isTrue hfull =>
    have hpos : 0 < count s.customers lease.customer := by
      refine Nat.lt_of_lt_of_le ?_ hfull
      rw [h.perCustomer]
      exact Nat.le_max_right perCustomer 1
    rw [orDefault_of_pos hpos]
  case isFalse => rfl

theorem Sound.enter (h : Sound global perCustomer s) (hlease : s.leaseAt i .slotted = some lease) :
    Sound global perCustomer (s.enter i lease) := by
  obtain ⟨hget, heq⟩ := leaseAt_eq_some hlease
  have hbefore := h.accounts.perm (cons_eraseIdx_perm hget).symm
  rw [heq] at hbefore
  rw [h.enter_eq]
  split
  case isTrue =>
    refine ⟨?_, h.perCustomer⟩
    exact (hbefore.aside .refusing (by simp) (by simp) rfl rfl).perm (cons_eraseIdx_perm_set hget _)
  case isFalse hroom =>
    refine ⟨?_, h.perCustomer⟩
    rw [h.perCustomer] at hroom
    exact (hbefore.grant (Nat.lt_of_not_le hroom)).perm (cons_eraseIdx_perm_set hget _)

theorem Sound.releaseSlot (h : Sound global perCustomer s) {phase' : LeasePhase}
    (hlease : s.leaseAt i phase = some lease)
    (hphase : phase = .refusing ∧ phase' = .refused ∨ phase = .dropping ∧ phase' = .dropped) :
    Sound global perCustomer (s.releaseSlot i lease phase') := by
  obtain ⟨hget, heq⟩ := leaseAt_eq_some hlease
  have hbefore := h.accounts.perm (cons_eraseIdx_perm hget).symm
  rw [heq] at hbefore
  refine ⟨?_, h.perCustomer⟩
  rcases hphase with ⟨rfl, rfl⟩ | ⟨rfl, rfl⟩
  · exact (hbefore.aside .refused (by simp) (by simp) rfl rfl).perm (cons_eraseIdx_perm_set hget _)
  · exact (hbefore.aside .dropped (by simp) (by simp) rfl rfl).perm (cons_eraseIdx_perm_set hget _)

theorem Sound.dropPermit (h : Sound global perCustomer s) (hlease : s.leaseAt i .live = some lease) :
    Sound global perCustomer (s.dropPermit i lease) := by
  obtain ⟨hget, heq⟩ := leaseAt_eq_some hlease
  have hbefore := h.accounts.perm (cons_eraseIdx_perm hget).symm
  rw [heq] at hbefore
  exact ⟨hbefore.drop.perm (cons_eraseIdx_perm_set hget _), h.perCustomer⟩

theorem Sound.step (h : Sound global perCustomer s) (a : Action) (hs : s.step a = some t) :
    Sound global perCustomer t := by
  cases a with
  | acquire customer =>
    cases hs
    exact h.tryAcquireSlot customer
  | enter i =>
    obtain ⟨lease, hlease, rfl⟩ := Option.map_eq_some_iff.mp hs
    exact h.enter hlease
  | refuse i =>
    obtain ⟨lease, hlease, rfl⟩ := Option.map_eq_some_iff.mp hs
    exact h.releaseSlot hlease (Or.inl ⟨rfl, rfl⟩)
  | drop i =>
    obtain ⟨lease, hlease, rfl⟩ := Option.map_eq_some_iff.mp hs
    exact h.dropPermit hlease
  | release i =>
    obtain ⟨lease, hlease, rfl⟩ := Option.map_eq_some_iff.mp hs
    exact h.releaseSlot hlease (Or.inr ⟨rfl, rfl⟩)

theorem sound_new (global perCustomer : Nat) : Sound global perCustomer (new global perCustomer) :=
  ⟨⟨rfl, tallies_empty, fun _ => Nat.zero_le _, rfl, rfl⟩, rfl⟩

end

/-! ## The law -/

/-- Slots in use. -/
def heldSlots (s : RelayLimits) : Nat := s.leases.countP Lease.holdsSlot

/-- The live permits of a customer. -/
def livePermits (s : RelayLimits) (customer : String) : Nat :=
  s.leases.countP fun lease => lease.phase = .live ∧ lease.customer = customer

/-- All live permits. -/
def permits (s : RelayLimits) : Nat := s.leases.countP Lease.isLive

theorem count_liveCustomers (s : RelayLimits) (customer : String) :
    (liveCustomers s.leases).count customer = s.livePermits customer := by
  rw [liveCustomers, List.count, List.countP_map, List.countP_filter, livePermits]
  refine List.countP_congr fun lease _ => ?_
  simp [Lease.isLive, and_comm]

theorem permits_le_heldSlots (s : RelayLimits) : s.permits ≤ s.heldSlots := by
  refine List.countP_mono_left fun lease _ hlive => ?_
  rw [Lease.holdsSlot, show lease.phase = .live by simpa [Lease.isLive] using hlive]

/-- A customer at its limit is refused by the map step, which changes
nothing but the counter. -/
theorem step_enter_of_full {global perCustomer : Nat} {s : RelayLimits}
    (h : Sound global perCustomer s) {i : Nat} {lease : Lease}
    (hlease : s.leaseAt i .slotted = some lease)
    (hfull : max perCustomer 1 ≤ count s.customers lease.customer) :
    s.step (.enter i) = some (s.denied.setPhase i lease .refusing) := by
  rw [step, hlease, Option.map_some, h.enter_eq, if_pos (h.perCustomer ▸ hfull)]

theorem leaseAt_concat (s : RelayLimits) (slots : Nat) (lease : Lease) :
    ({ s with slots, leases := s.leases ++ [lease] } : RelayLimits).leaseAt s.leases.length
      lease.phase = some lease := by
  simp [leaseAt, Option.filter]

/-- The three steps of a refused call, one after the other. -/
theorem refused_alone {global perCustomer : Nat} {s t : RelayLimits}
    (h : Sound global perCustomer s) (customer : String) (hfree : 0 < s.slots)
    (hfull : max perCustomer 1 ≤ count s.customers customer)
    (hrun : Lts.run step s [.acquire customer, .enter s.leases.length,
      .refuse s.leases.length] = some t) :
    t = { s.denied with leases := s.leases ++ [⟨customer, .refused⟩] } := by
  have hacquire : s.step (.acquire customer) =
      some { s with slots := s.slots - 1, leases := s.leases ++ [⟨customer, .slotted⟩] } := by
    rw [step, tryAcquireSlot, if_pos hfree]
  have henter := step_enter_of_full (h.step _ hacquire)
    (leaseAt_concat s (s.slots - 1) ⟨customer, .slotted⟩) hfull
  rw [Lts.run_cons, hacquire, Option.bind_some, Lts.run_cons, henter, Option.bind_some] at hrun
  have hrefuse : (setPhase
      (denied { s with slots := s.slots - 1, leases := s.leases ++ [⟨customer, .slotted⟩] })
      s.leases.length ⟨customer, .slotted⟩ .refusing).leaseAt s.leases.length .refusing =
        some ⟨customer, .refusing⟩ := by
    simp [leaseAt, setPhase, denied, Option.filter]
  rw [Lts.run_cons, step, hrefuse] at hrun
  cases hrun
  have hslots : s.slots - 1 + 1 = s.slots := Nat.sub_add_cancel hfree
  simp [releaseSlot, setPhase, denied, hslots]

/-- Over every interleaving: the counts add up to no more than the slots in
use, and these to no more than the global maximum; a customer's count is
that of its live permits, within its limit and without an entry at zero;
the metric is the number of live permits; and a refused call, by the
semaphore or by the map, changes the rejection counter and gives back the
slot it had. -/
theorem relay_limits (global perCustomer : Nat) (as : List Action) (s : RelayLimits)
    (hrun : Lts.run step (new global perCustomer) as = some s) :
    total s.customers ≤ s.heldSlots
    ∧ s.slots + s.heldSlots = max global 1
    ∧ (∀ customer, count s.customers customer ≤ max perCustomer 1
      ∧ count s.customers customer = s.livePermits customer
      ∧ (customer ∈ s.customers → 0 < s.livePermits customer))
    ∧ s.activeLiveConnections = s.permits
    ∧ s.liveConnectionRejectionsTotal = s.leases.countP Lease.isRefused
    ∧ (∀ customer, s.slots = 0 → s.step (.acquire customer) =
      some { s.denied with leases := s.leases ++ [⟨customer, .refused⟩] })
    ∧ (∀ i lease, s.leaseAt i .slotted = some lease →
      max perCustomer 1 ≤ count s.customers lease.customer →
      s.step (.enter i) = some (s.denied.setPhase i lease .refusing))
    ∧ (∀ i lease, s.leaseAt i .refusing = some lease →
      s.step (.refuse i) = some ({ s with slots := s.slots + 1 }.setPhase i lease .refused))
    ∧ ∀ customer t, 0 < s.slots → max perCustomer 1 ≤ count s.customers customer →
      Lts.run step s [.acquire customer, .enter s.leases.length, .refuse s.leases.length] = some t →
      t = { s.denied with leases := s.leases ++ [⟨customer, .refused⟩] } := by
  have h : Sound global perCustomer s :=
    Lts.run_invariant_all (fun _ a _ h hs => Sound.step h a hs) (sound_new global perCustomer) hrun
  have htotal : total s.customers = s.permits := by
    rw [h.accounts.customers.total_eq_length, liveCustomers, List.length_map, permits,
      List.countP_eq_length_filter]
  refine ⟨?_, h.accounts.slots, ?_, ?_, h.accounts.rejections, ?_, ?_, ?_, ?_⟩
  · rw [htotal]
    exact s.permits_le_heldSlots
  · intro customer
    rw [h.accounts.customers.count, count_liveCustomers]
    refine ⟨?_, rfl, ?_⟩
    · rw [← count_liveCustomers]
      exact h.accounts.limit customer
    · intro hmem
      rw [← count_liveCustomers]
      exact List.count_pos_iff.mpr (h.accounts.customers.occurs customer hmem)
  · rw [h.accounts.active, liveCustomers, List.length_map, permits, List.countP_eq_length_filter]
  · intro customer hnone
    rw [step, tryAcquireSlot, if_neg (by omega)]
  · intro i lease hlease hfull
    exact step_enter_of_full h hlease hfull
  · intro i lease hlease
    rw [step, hlease]
    rfl
  · intro customer t hfree hfull hrun
    exact refused_alone h customer hfree hfull hrun

/-- Two customers on two slots, one refusal of each kind. -/
theorem relay_limits_of_refusals : ∃ s,
    Lts.run step (new 2 1) [.acquire "a", .enter 0, .acquire "a", .enter 1, .refuse 1, .acquire "b",
        .enter 2, .acquire "c", .drop 0, .release 0] = some s
      ∧ s.slots + s.heldSlots = max 2 1
      ∧ s.activeLiveConnections = s.permits
      ∧ s.liveConnectionRejectionsTotal = s.leases.countP Lease.isRefused := by
  refine Lts.exists_run (P := fun s : RelayLimits => s.slots = 1) (by decide) ?_
  intro s hrun _
  obtain ⟨-, hslots, -, hactive, hrejections, -⟩ := relay_limits 2 1 _ s hrun
  exact ⟨hslots, hactive, hrejections⟩

end RelayLimits

end TiktokSigner.LiveApi
