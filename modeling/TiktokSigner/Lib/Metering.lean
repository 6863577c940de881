import Mathlib.Algebra.GroupWithZero.Nat
import Mathlib.Data.List.Basic

/-!
# Walks on a budget

A walk over a tree pays one unit for each node, from a budget, before it
keeps the node; it stops where the budget does. `Script` is what a walk
asks for when nothing stops it: `Script.cost`, as a whole. From a budget `r`
the walk keeps `kept r` nodes and leaves `r - cost`.

Two things unbalance what is kept and what is paid. A nested walk that
warns is thrown away, and what was paid for it is `lost`. An end may keep a
node that nothing was paid for (`unpaid`). `kept_add_lost` is the account
of one walk and `keptAll_account` that of a row of walks on one budget.

`Demand` is the same for a scan that keeps nothing and stops at the first
issue.
-/

namespace TiktokSigner.Metering

/-- What a walk asks for, in order. -/
inductive Script where
  | done
  /-- An end with a warning. -/
  | abort
  /-- An end with a warning and a node that is kept but not paid for. -/
  | free
  | node (warning : Bool) (next : Script)
  /-- A node with a walk below it, in which the budget goes on. -/
  | nested (inner next : Script)

namespace Script

/-- What the walk pays when it is not stopped. -/
def cost : Script → Nat
  | .done | .abort | .free => 0
  | .node _ next => 1 + next.cost
  | .nested inner next => 1 + inner.cost + next.cost

/-- A warning is met before the budget ends. -/
def warns : Script → Nat → Bool
  | .done, _ => false
  | .abort, r | .free, r => r ≠ 0
  | .node warning next, r => r ≠ 0 && (warning || next.warns (r - 1))
  | .nested inner next, r => inner.warns (r - 1) || next.warns (r - 1 - inner.cost)

/-- Nodes kept. A nested walk that warns leaves its own node only. -/
def kept : Script → Nat → Nat
  | .done, _ | .abort, _ => 0
  | .free, r => if r = 0 then 0 else 1
  | .node _ next, r => if r = 0 then 0 else 1 + next.kept (r - 1)
  | .nested inner next, r =>
      if r = 0 then 0
      else
        1 + (if inner.warns (r - 1) then 0 else inner.kept (r - 1)) +
          next.kept (r - 1 - inner.cost)

/-- Paid for nodes that were thrown away. -/
def lost : Script → Nat → Nat
  | .done, _ | .abort, _ | .free, _ => 0
  | .node _ next, r => next.lost (r - 1)
  | .nested inner next, r =>
      (if inner.warns (r - 1) then min (r - 1) inner.cost else inner.lost (r - 1)) +
        next.lost (r - 1 - inner.cost)

/-- The walk itself, not one below it, ends with a free node. -/
def endsFree : Script → Bool
  | .done | .abort => false
  | .free => true
  | .node _ next | .nested _ next => next.endsFree

/-- The free node at the end, if the budget lasts until there. -/
def unpaid (s : Script) (r : Nat) : Nat :=
  if s.endsFree ∧ s.cost < r then 1 else 0

@[simp] theorem unpaid_done (r : Nat) : unpaid .done r = 0 := rfl

@[simp] theorem unpaid_abort (r : Nat) : unpaid .abort r = 0 := rfl

theorem unpaid_free (r : Nat) : unpaid .free r = if r = 0 then 0 else 1 := by
  simp only [unpaid, endsFree, cost, true_and]
  split_ifs <;> omega

@[simp] theorem unpaid_node (warning : Bool) (next : Script) (r : Nat) :
    unpaid (.node warning next) r = next.unpaid (r - 1) :=
  if_congr (and_congr_right fun _ => by rw [cost]; omega) rfl rfl

@[simp] theorem unpaid_nested (inner next : Script) (r : Nat) :
    unpaid (.nested inner next) r = next.unpaid (r - 1 - inner.cost) :=
  if_congr (and_congr_right fun _ => by rw [cost]; omega) rfl rfl

@[simp] theorem warns_zero : ∀ s : Script, s.warns 0 = false
  | .done | .abort | .free | .node _ _ => rfl
  | .nested inner next => by simp [warns, warns_zero inner, warns_zero next]

@[simp] theorem kept_zero : ∀ s : Script, s.kept 0 = 0
  | .done | .abort | .free | .node _ _ | .nested _ _ => rfl

/-- A walk that ends with a free node warns. -/
theorem unpaid_of_not_warns : ∀ {s : Script} {r : Nat}, s.warns r = false → s.unpaid r = 0
  | .done, _, _ | .abort, _, _ => rfl
  | .free, r, h => by simpa [warns, unpaid_free] using h
  | .node warning next, r, h => by
      rw [unpaid_node]
      by_cases hr : r = 0
      · exact unpaid_of_not_warns (by rw [hr]; exact warns_zero next)
      · exact unpaid_of_not_warns (by simp_all [warns])
  | .nested inner next, r, h => by
      rw [warns, Bool.or_eq_false_iff] at h
      rw [unpaid_nested]
      exact unpaid_of_not_warns h.2

/-- The account of a walk: what is kept and what is lost come to what was
paid and what was not. -/
theorem kept_add_lost : ∀ (s : Script) (r : Nat),
    s.kept r + s.lost r = min r s.cost + s.unpaid r
  | .done, _ | .abort, _ => by simp [kept, lost, cost]
  | .free, r => by simp [kept, lost, cost, unpaid_free]
  | .node _ next, r => by
      have hnext := kept_add_lost next (r - 1)
      rw [kept, lost, cost, unpaid_node]
      split_ifs with hr
      · rw [hr] at hnext ⊢
        rw [kept_zero] at hnext
        omega
      · omega
  | .nested inner next, r => by
      have hinner := kept_add_lost inner (r - 1)
      have hnext := kept_add_lost next (r - 1 - inner.cost)
      rw [kept, lost, cost, unpaid_nested]
      by_cases hr : r = 0
      · subst hr
        simp only [Nat.zero_sub, kept_zero] at hinner hnext
        have hfree := unpaid_of_not_warns (warns_zero inner)
        simp only [if_true, Nat.zero_sub, warns_zero, Bool.false_eq_true, if_false]
        omega
      · rw [if_neg hr]
        cases hwarns : inner.warns (r - 1) with
        | true =>
          simp only [if_true]
          omega
        | false =>
          -- a free end below would have warned
          rw [unpaid_of_not_warns hwarns] at hinner
          simp only [Bool.false_eq_true, if_false]
          omega

theorem kept_le (s : Script) (r : Nat) : s.kept r ≤ r := by
  have haccount := kept_add_lost s r
  rw [unpaid] at haccount
  split_ifs at haccount with hfree <;> omega

end Script

/-! ## Scans that stop

A scan keeps nothing; it goes on until it ends, finds an issue, or would
look at a node without a budget. `Demand` is what it asks for and finds when
the budget lasts. A node may be looked at and not paid for, but only one
between two payments. -/

/-- What a scan pays, the least budget that lasts, and the issue it finds. -/
structure Demand (Issue : Type) where
  cost : Nat
  needed : Nat
  issue : Option Issue
  cost_le : cost ≤ needed
  needed_le : needed ≤ cost + 1

namespace Demand

variable {Issue Report : Type}

/-- Nothing to look at. -/
def nothing : Demand Issue := ⟨0, 0, none, Nat.le_refl _, Nat.zero_le _⟩

/-- A node paid for, and the issue found there, if any. -/
def paid (issue : Option Issue) : Demand Issue := ⟨1, 1, issue, Nat.le_refl _, Nat.le_succ _⟩

/-- An issue found at a node that is not paid for. -/
def glimpse (issue : Issue) : Demand Issue :=
  ⟨0, 1, some issue, Nat.zero_le _, Nat.le_refl _⟩

/-- Look before anything else. -/
def looked (d : Demand Issue) : Demand Issue where
  cost := d.cost
  needed := max 1 d.needed
  issue := d.issue
  cost_le := Nat.le_trans d.cost_le (Nat.le_max_right _ _)
  needed_le := Nat.max_le.mpr ⟨Nat.le_add_left _ _, d.needed_le⟩

theorem paid_needed (issue : Option Issue) : (paid issue).needed = 1 := rfl

theorem glimpse_needed (issue : Issue) : (glimpse issue).needed = 1 := rfl

theorem looked_needed (d : Demand Issue) : d.looked.needed = max 1 d.needed := rfl

/-- The rest of the scan, unless an issue ended it. -/
def andThen (here next : Demand Issue) : Demand Issue :=
  match here.issue with
  | some _ => here
  | none =>
      { cost := here.cost + next.cost
        needed := max here.needed (here.cost + next.needed)
        issue := next.issue
        cost_le := by have h := next.cost_le; omega
        needed_le := by have h := here.needed_le; have h' := next.needed_le; omega }

theorem le_andThen_needed (here next : Demand Issue) :
    here.needed ≤ (here.andThen next).needed := by
  rw [andThen]
  split
  · exact Nat.le_refl _
  · exact Nat.le_max_left _ _

/-- A scan from the budget `left` returned `result` and left `left'`. An
issue is reported in the scan's own terms; `limit` reports the budget. -/
structure Meets (report : Issue → Report) (limit : Report) (d : Demand Issue) (left : Nat)
    (result : Option Report) (left' : Nat) : Prop where
  within : d.needed ≤ left → result = d.issue.map report ∧ left' = left - d.cost
  beyond : left < d.needed → result = some limit ∧ left' = 0

namespace Meets

variable {report : Issue → Report} {limit : Report} {here next d : Demand Issue}
variable {left left' : Nat} {result : Option Report}

theorem nothing : Meets report limit (nothing : Demand Issue) left none left :=
  ⟨fun _ => ⟨rfl, rfl⟩, fun h => absurd h (Nat.not_lt_zero _)⟩

theorem paid {issue : Option Issue} (hleft : left ≠ 0) :
    Meets report limit (paid issue) left (issue.map report) (left - 1) := by
  refine ⟨fun _ => ⟨rfl, rfl⟩, ?_⟩
  intro h
  rw [paid_needed] at h
  omega

theorem glimpse {issue : Issue} (hleft : left ≠ 0) :
    Meets report limit (glimpse issue) left (some (report issue)) left := by
  refine ⟨fun _ => ⟨rfl, rfl⟩, ?_⟩
  intro h
  rw [glimpse_needed] at h
  omega

/-- Without a budget a scan that looks at anything is at the limit. -/
theorem out (hneeded : d.needed ≠ 0) : Meets report limit d 0 (some limit) 0 :=
  ⟨fun h => absurd (Nat.le_zero.mp h) hneeded, fun _ => ⟨rfl, rfl⟩⟩

theorem looked (hleft : left ≠ 0) (h : Meets report limit d left result left') :
    Meets report limit d.looked left result left' := by
  refine ⟨fun hneeded => h.within ?_, fun hneeded => h.beyond ?_⟩
  · rw [looked_needed] at hneeded
    exact Nat.le_trans (Nat.le_max_right _ _) hneeded
  · rw [looked_needed] at hneeded
    omega

/-- An issue ends the scan here. -/
theorem andThen_stop {reported : Report} (h : Meets report limit here left (some reported) left') :
    Meets report limit (here.andThen next) left (some reported) left' := by
  cases hissue : here.issue with
  | some issue =>
    have hsame : here.andThen next = here := by rw [andThen, hissue]
    rw [hsame]
    exact h
  | none =>
    -- the scan stopped all the same: at the limit
    have hlimit : left < here.needed := by
      apply Nat.lt_of_not_le
      intro hle
      have hresult := (h.within hle).1
      simp [hissue] at hresult
    have hneeded := le_andThen_needed here next
    exact ⟨fun hle => absurd (Nat.le_trans hneeded hle) (Nat.not_le.mpr hlimit),
      fun _ => h.beyond hlimit⟩

theorem andThen_next {mid : Nat} (h : Meets report limit here left none mid)
    (hnext : Meets report limit next mid result left') :
    Meets report limit (here.andThen next) left result left' := by
  have hle : here.needed ≤ left := by
    apply Nat.le_of_not_lt
    intro hlt
    have hresult := (h.beyond hlt).1
    simp at hresult
  obtain ⟨hissue, hmid⟩ := h.within hle
  have hnone : here.issue = none := by simpa using hissue.symm
  have hcost := here.cost_le
  rw [andThen, hnone]
  constructor
  · intro hneeded
    obtain ⟨hresult, hleft⟩ := hnext.within (by dsimp only at hneeded; omega)
    refine ⟨hresult, ?_⟩
    dsimp only
    omega
  · intro hneeded
    exact hnext.beyond (by dsimp only at hneeded; omega)

/-- What is left, at the limit or not. -/
theorem left_eq (h : Meets report limit d left result left') : left' = left - d.cost := by
  rcases Nat.lt_or_ge left d.needed with hlt | hle
  · have hneeded := d.needed_le
    rw [(h.beyond hlt).2]
    omega
  · exact (h.within hle).2

theorem result_eq (h : Meets report limit d left result left') :
    result = if left < d.needed then some limit else d.issue.map report := by
  split_ifs with hlt
  · exact (h.beyond hlt).1
  · exact (h.within (Nat.le_of_not_lt hlt)).1

end Meets

end Demand

/-! ## A row of walks -/

variable (cap : Nat)

/-- The budget after a walk, which may use `cap` of it. -/
def budgetAfter (s : Script) (budget : Nat) : Nat :=
  budget - min (min budget cap) s.cost

/-- Over a row of walks: free nodes kept, payments lost, budget left. -/
structure Account where
  unpaid : Nat
  lost : Nat
  left : Nat

def account : List Script → Nat → Account
  | [], budget => ⟨0, 0, budget⟩
  | s :: scripts, budget =>
      let rest := account scripts (budgetAfter cap s budget)
      ⟨s.unpaid (min budget cap) + rest.unpaid, s.lost (min budget cap) + rest.lost, rest.left⟩

/-- The nodes that each walk of a row keeps. -/
def keptAll : List Script → Nat → List Nat
  | [], _ => []
  | s :: scripts, budget =>
      s.kept (min budget cap) :: keptAll scripts (budgetAfter cap s budget)

theorem keptAll_account : ∀ (scripts : List Script) (budget : Nat),
    (keptAll cap scripts budget).sum + (account cap scripts budget).lost +
        (account cap scripts budget).left =
      budget + (account cap scripts budget).unpaid
  | [], budget => by simp [keptAll, account]
  | s :: scripts, budget => by
      have hrest := keptAll_account scripts (budgetAfter cap s budget)
      have hwalk := s.kept_add_lost (min budget cap)
      have hafter : budgetAfter cap s budget = budget - min (min budget cap) s.cost := rfl
      simp only [keptAll, List.sum_cons, account]
      omega

theorem keptAll_le : ∀ (scripts : List Script) (budget : Nat),
    ∀ count ∈ keptAll cap scripts budget, count ≤ cap
  | [], _ => by simp [keptAll]
  | s :: scripts, budget =>
      List.forall_mem_cons.mpr
        ⟨Nat.le_trans (s.kept_le _) (Nat.min_le_right _ _), keptAll_le scripts _⟩

/-- A row keeps more than its budget exactly when the free nodes outnumber
what is left and lost. -/
theorem keptAll_sum_le_iff (scripts : List Script) (budget : Nat) :
    (keptAll cap scripts budget).sum ≤ budget ↔
      (account cap scripts budget).unpaid ≤
        (account cap scripts budget).lost + (account cap scripts budget).left := by
  have haccount := keptAll_account cap scripts budget
  omega

end TiktokSigner.Metering
