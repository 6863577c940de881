import TiktokSigner.Android.PointsRepository
import Mathlib.Tactic.Ring

/-!
# The points add up

A balance never drops below zero, so an amount may count for less than was
asked. What is booked is what it counted for: then the difference between a
balance and what is booked for the viewer, `untracked`, is the same before and
after every award and adjustment, and a reset makes it zero. New tables start
with none.
-/

namespace TiktokSigner.Android.Database

variable (db : Database)

def balance (id : String) : ℚ := ((db.viewers.find id).map Viewer.points).getD 0

/-- What is booked for the viewer, over all categories. -/
def earned (id : String) : ℚ :=
  db.earnings.total fun key amount => if key.1 = id then amount else 0

/-- The part of a balance that no earning accounts for. -/
def untracked (id : String) : ℚ := db.balance id - db.earned id

structure Balanced (id : String) : Prop where
  nonneg : 0 ≤ db.balance id
  booked : db.balance id = db.earned id

/-- The rows of a viewer are the same in both tables. -/
structure SameRows (db' : Database) (id : String) : Prop where
  viewer : db'.viewers.find id = db.viewers.find id
  earning : ∀ category, db'.earnings.find (id, category) = db.earnings.find (id, category)

theorem Balanced.of_untracked {db : Database} {id : String} (hnonneg : 0 ≤ db.balance id)
    (h : db.untracked id = 0) : db.Balanced id :=
  ⟨hnonneg, sub_eq_zero.mp h⟩

theorem Balanced.untracked {db : Database} {id : String} (h : db.Balanced id) :
    db.untracked id = 0 :=
  sub_eq_zero.mpr h.booked

/-! ## What an amount does -/

section Apply

variable (now : Int64) (id nickname : String) (amount : ℚ) (category : String)
  (cfg : PointsConfig ℚ)

theorem balance_apply_self :
    (db.apply now id nickname amount category cfg).1.balance id = max (db.balance id + amount) 0 := by
  rw [balance, apply, KeyedTable.find_upsert_self]
  rfl

theorem delta_apply :
    (db.apply now id nickname amount category cfg).2.delta
      = (db.apply now id nickname amount category cfg).1.balance id - db.balance id := by
  rw [balance_apply_self]
  rfl

variable {id}

theorem sameRows_apply {other : String} (h : other ≠ id) :
    db.SameRows (db.apply now id nickname amount category cfg).1 other where
  viewer := KeyedTable.find_upsert_of_ne db.viewers _ h
  earning _ := KeyedTable.find_upsert_of_ne db.earnings _ fun hkey => h (Prod.mk.inj hkey).1

variable (id)

/-- What is booked is what the amount counted for. -/
theorem earned_apply_self :
    (db.apply now id nickname amount category cfg).1.earned id
      = db.earned id + (db.apply now id nickname amount category cfg).2.delta := by
  have hmeasure : db.earnings.measure (fun key amount => if key.1 = id then amount else 0)
      (id, category) = (db.earnings.find (id, category)).getD 0 := by
    rw [KeyedTable.measure]
    cases db.earnings.find (id, category) <;> simp
  rw [earned, apply, KeyedTable.total_upsert, hmeasure, if_pos rfl, earned]
  ring

variable {id}

/-- The new row counts nothing for another viewer, nor did the one it replaces. -/
theorem earned_apply_of_ne {other : String} (h : other ≠ id) :
    (db.apply now id nickname amount category cfg).1.earned other = db.earned other := by
  have hmeasure : db.earnings.measure (fun key amount => if key.1 = other then amount else 0)
      (id, category) = 0 := by
    rw [KeyedTable.measure]
    cases db.earnings.find (id, category) <;> simp [Ne.symm h]
  rw [earned, apply, KeyedTable.total_upsert, hmeasure, if_neg (Ne.symm h), sub_zero, add_zero,
    earned]

end Apply

/-- A viewer whose rows stay keeps the balance. -/
theorem SameRows.balance {db db' : Database} {id : String} (h : db.SameRows db' id) :
    db'.balance id = db.balance id := by
  rw [Database.balance, h.viewer, Database.balance]

theorem untracked_apply (now : Int64) (id nickname : String) (amount : ℚ) (category : String)
    (cfg : PointsConfig ℚ) (viewer : String) :
    (db.apply now id nickname amount category cfg).1.untracked viewer = db.untracked viewer := by
  rw [untracked, untracked]
  by_cases h : viewer = id
  · subst h
    rw [earned_apply_self, delta_apply]
    ring
  · rw [(db.sameRows_apply now nickname amount category cfg h).balance,
      db.earned_apply_of_ne now nickname amount category cfg h]

theorem balance_nonneg_apply (now : Int64) (id nickname : String) (amount : ℚ)
    (category : String) (cfg : PointsConfig ℚ) {viewer : String} (h : 0 ≤ db.balance viewer) :
    0 ≤ (db.apply now id nickname amount category cfg).1.balance viewer := by
  by_cases hviewer : viewer = id
  · subst hviewer
    rw [balance_apply_self]
    exact le_max_right _ _
  · rwa [(db.sameRows_apply now nickname amount category cfg hviewer).balance]

/-! ## What a reset does -/

section Reset

variable {id : Option String} {viewer : String}

theorem balance_reset_of_selects (h : selects id viewer = true) :
    (db.reset id).balance viewer = 0 := by
  rw [balance, reset, KeyedTable.find_update, if_pos h]
  cases db.viewers.find viewer <;> rfl

theorem earned_reset_of_selects (h : selects id viewer = true) :
    (db.reset id).earned viewer = 0 := by
  rw [earned, reset, KeyedTable.total_delete]
  refine KeyedTable.total_eq_zero _ _ fun key amount => ?_
  split_ifs with hselects hkey
  · rfl
  · subst hkey
    exact absurd h hselects
  · rfl

theorem sameRows_reset (h : selects id viewer = false) : db.SameRows (db.reset id) viewer where
  viewer := by
    rw [reset, KeyedTable.find_update, h]
    rfl
  earning category := by
    rw [reset, KeyedTable.find_delete, h]
    rfl

theorem earned_reset_of_not_selects (h : selects id viewer = false) :
    (db.reset id).earned viewer = db.earned viewer := by
  have hsame : (fun key amount => if selects id key.1 = true then 0
      else if key.1 = viewer then amount else 0)
      = fun (key : String × String) (amount : ℚ) => if key.1 = viewer then amount else 0 := by
    funext key amount
    split_ifs with hselects hkey
    · subst hkey
      rw [h] at hselects
      cases hselects
    all_goals rfl
  rw [earned, reset, KeyedTable.total_delete, hsame, earned]

end Reset

/-! ## Every operation -/

theorem award_cases (now : Int64) (event : Parity.Android.LiveEvent) (cfg : PointsConfig ℚ) :
    db.award now event cfg = (db, none) ∨
      ∃ amount category, db.award now event cfg
        = ((db.apply now event.user event.nickname amount category cfg).1,
          some (db.apply now event.user event.nickname amount category cfg).2) := by
  rw [award]
  split_ifs with h
  · exact Or.inl rfl
  · exact Or.inr ⟨_, _, rfl⟩

theorem adjust_cases (now : Int64) (uniqueId : String) (amount : ℚ) (cfg : PointsConfig ℚ) :
    db.adjust now uniqueId amount cfg = (db, none) ∨
      db.adjust now uniqueId amount cfg
        = ((db.apply now (handle uniqueId) "" amount "ADJUSTMENT" cfg).1,
          some (db.apply now (handle uniqueId) "" amount "ADJUSTMENT" cfg).2) := by
  rw [adjust]
  split_ifs with h
  · exact Or.inl rfl
  · exact Or.inr rfl

/-- What a step can do: nothing, an amount for the target, or a reset. -/
theorem step_cases (op : Operation) :
    db.step op = (db, none) ∨
      (∃ now id nickname amount category cfg, op.target = some id ∧
        db.step op = ((db.apply now id nickname amount category cfg).1,
          some (db.apply now id nickname amount category cfg).2)) ∨
      db.step op = (db.reset op.target, none) := by
  cases op with
  | award event cfg now =>
    rcases db.award_cases now event cfg with h | ⟨amount, category, h⟩
    · exact Or.inl h
    · exact Or.inr (Or.inl ⟨now, event.user, event.nickname, amount, category, cfg, rfl, h⟩)
  | adjust uniqueId amount cfg now =>
    rcases db.adjust_cases now uniqueId amount cfg with h | h
    · exact Or.inl h
    · exact Or.inr (Or.inl ⟨now, handle uniqueId, "", amount, "ADJUSTMENT", cfg, rfl, h⟩)
  | reset id => exact Or.inr (Or.inr rfl)

theorem Balanced.step {db : Database} (h : ∀ id, db.Balanced id) (op : Operation) (id : String) :
    (db.step op).1.Balanced id := by
  rcases db.step_cases op with
    hstep | ⟨now, target, nickname, amount, category, cfg, -, hstep⟩ | hstep
  · rw [hstep]
    exact h id
  · rw [hstep]
    refine .of_untracked (balance_nonneg_apply db _ _ _ _ _ _ (h id).nonneg) ?_
    rw [untracked_apply, (h id).untracked]
  · rw [hstep]
    cases hselects : selects op.target id with
    | true =>
      have hbalance := db.balance_reset_of_selects hselects
      exact ⟨hbalance.ge, hbalance.trans (db.earned_reset_of_selects hselects).symm⟩
    | false =>
      have hbalance := (db.sameRows_reset hselects).balance
      refine ⟨hbalance ▸ (h id).nonneg, ?_⟩
      rw [hbalance, db.earned_reset_of_not_selects hselects, (h id).booked]

theorem balanced_after (ops : List Operation) (id : String) : (after ops).Balanced id := by
  have hrun : ∀ (ops : List Operation) (db : Database), (∀ id, db.Balanced id) →
      (Reports.after step db ops).Balanced id := by
    intro ops
    induction ops with
    | nil => exact fun db h => h id
    | cons op ops ih => exact fun db h => ih _ (Balanced.step h op)
  exact hrun ops empty fun _ => ⟨le_rfl, rfl⟩

theorem delta_of_step {op : Operation} {award : Award ℚ} (h : (db.step op).2 = some award) :
    op.target = some award.uniqueId ∧
      award.delta = (db.step op).1.balance award.uniqueId - db.balance award.uniqueId := by
  rcases db.step_cases op with
    hstep | ⟨now, target, nickname, amount, category, cfg, htarget, hstep⟩ | hstep
  · rw [hstep] at h
    cases h
  · rw [hstep] at h ⊢
    obtain rfl := Option.some.inj h
    exact ⟨htarget, delta_apply db now target nickname amount category cfg⟩
  · rw [hstep] at h
    cases h

theorem sameRows_of_step {op : Operation} {viewer : String} (htarget : op.target = some viewer)
    {other : String} (hne : other ≠ viewer) : db.SameRows (db.step op).1 other := by
  rcases db.step_cases op with
    hstep | ⟨now, target, nickname, amount, category, cfg, htarget', hstep⟩ | hstep
  · rw [hstep]
    exact ⟨rfl, fun _ => rfl⟩
  · rw [hstep]
    obtain rfl := Option.some.inj (htarget.symm.trans htarget')
    exact db.sameRows_apply now nickname amount category cfg hne
  · rw [hstep]
    refine db.sameRows_reset ?_
    rw [htarget]
    exact decide_eq_false hne

/-- After any operations, and for any next one. -/
theorem ledger (ops : List Operation) (op : Operation) :
    (∀ id, (after ops).Balanced id) ∧
      (∀ award, ((after ops).step op).2 = some award →
        op.target = some award.uniqueId ∧
          award.delta = ((after ops).step op).1.balance award.uniqueId
            - (after ops).balance award.uniqueId) ∧
      ∀ viewer, op.target = some viewer → ∀ other, other ≠ viewer →
        (after ops).SameRows ((after ops).step op).1 other :=
  ⟨balanced_after ops, fun _ h => delta_of_step _ h,
    fun _ htarget _ hne => sameRows_of_step _ htarget hne⟩

/-- The default rates, as exact numbers. -/
def exactConfig : PointsConfig ℚ :=
  PointsConfig.default ⟨id, fun a b => decide (a < b), fun _ => [], fun _ => none⟩

/-- Eight points are asked back of five: what counts is five. -/
theorem ledger_clamped :
    ((after [.adjust "@creator" 5 exactConfig 1]).step (.adjust "creator" (-8) exactConfig 2)).2
        = some ⟨"creator", -5, 0, 1⟩ ∧
      (-5 : ℚ) = ((after [.adjust "@creator" 5 exactConfig 1]).step
          (.adjust "creator" (-8) exactConfig 2)).1.balance "creator"
        - (after [.adjust "@creator" 5 exactConfig 1]).balance "creator" :=
  have haward : ((after [.adjust "@creator" 5 exactConfig 1]).step
      (.adjust "creator" (-8) exactConfig 2)).2 = some ⟨"creator", -5, 0, 1⟩ := by decide +kernel
  ⟨haward, ((ledger _ _).2.1 _ haward).2⟩

end TiktokSigner.Android.Database
