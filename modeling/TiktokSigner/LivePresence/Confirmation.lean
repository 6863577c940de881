import TiktokSigner.Lib.Streak

/-!
# Confirming a creator's presence

`PresenceConfirmation` debounces the results of the presence probes: a
status is confirmed after `required` results in a row, and a confirmed
change is announced when LIVE is on one of its sides.

`Follows` ties the candidate and its count to the history of results: the
count is the candidate's streak, and a status without a candidacy has no
streak.
-/

namespace TiktokSigner.LivePresence

open Streak

inductive PresenceStatus where
  | live | offline | unknown
deriving DecidableEq

def PresenceStatus.opposite : PresenceStatus → PresenceStatus
  | .live => .offline
  | .offline => .live
  | .unknown => .unknown

/-- `first`, its opposite, `first` and so on. -/
def Alternates : PresenceStatus → List PresenceStatus → Prop
  | _, [] => True
  | first, status :: statuses => status = first ∧ Alternates first.opposite statuses

/-- `count` never passes `required`, so it stays in the range of an `int`. -/
structure PresenceConfirmation where
  required : Nat
  confirmed : PresenceStatus
  candidate : PresenceStatus
  count : Nat
  failures : Int32
deriving DecidableEq

namespace PresenceConfirmation

def new (required : Nat) : PresenceConfirmation :=
  { required, confirmed := .unknown, candidate := .unknown, count := 0, failures := 0 }

/-- The transition to announce, if any, and the state after. -/
def accept (self : PresenceConfirmation) (status : PresenceStatus) :
    Option PresenceStatus × PresenceConfirmation :=
  if status = .unknown then
    (none, { self with failures := self.failures + 1, candidate := .unknown, count := 0 })
  else
    let self := { self with failures := 0 }
    if status = self.confirmed then (none, { self with candidate := .unknown, count := 0 })
    else
      let self :=
        if status ≠ self.candidate then { self with candidate := status, count := 1 }
        else { self with count := self.count + 1 }
      if self.count < self.required then (none, self)
      else
        (if status = .live ∨ self.confirmed = .live then some status else none,
          { self with confirmed := status, candidate := .unknown, count := 0 })

/-- The state after a history of results. -/
def after (required : Nat) (results : List PresenceStatus) : PresenceConfirmation :=
  results.foldl (fun self result => (self.accept result).2) (new required)

/-- The transitions announced while `results` come in. -/
def transitions (self : PresenceConfirmation) : List PresenceStatus → List PresenceStatus
  | [] => []
  | result :: results => (self.accept result).1.toList ++ transitions (self.accept result).2 results

/-! ## One result -/

section Accept

variable {self : PresenceConfirmation} {status : PresenceStatus}

theorem accept_unknown (self : PresenceConfirmation) : self.accept .unknown =
    (none, { self with failures := self.failures + 1, candidate := .unknown, count := 0 }) :=
  if_pos rfl

theorem accept_confirmed (hknown : status ≠ .unknown) (hconfirmed : status = self.confirmed) :
    self.accept status = (none, { self with failures := 0, candidate := .unknown, count := 0 }) := by
  rw [accept, if_neg hknown]
  exact if_pos hconfirmed

/-- The streak of the result's status, as `accept` counts it. -/
def counted (self : PresenceConfirmation) (status : PresenceStatus) : Nat :=
  if status ≠ self.candidate then 1 else self.count + 1

theorem accept_other (hknown : status ≠ .unknown) (hother : status ≠ self.confirmed) :
    self.accept status =
      if self.counted status < self.required then
        (none, { self with failures := 0, candidate := status, count := self.counted status })
      else
        (if status = .live ∨ self.confirmed = .live then some status else none,
          { self with confirmed := status, candidate := .unknown, count := 0, failures := 0 }) := by
  rw [accept, if_neg hknown, counted]
  dsimp only
  rw [if_neg hother]
  by_cases hcandidate : status ≠ self.candidate
  · rw [if_pos hcandidate, if_pos hcandidate]
  · rw [if_neg hcandidate, if_neg hcandidate]
    rw [show status = self.candidate from of_not_not hcandidate]

end Accept

/-! ## The history behind the state -/

/-- No status but the candidate and the confirmed one has a streak, and
the candidate's is its count. -/
structure Follows (required : Nat) (history : List PresenceStatus) (c : PresenceConfirmation) :
    Prop where
  fixed : c.required = required
  streak : ∀ s, s ≠ .unknown → s ≠ c.confirmed →
    streak s history = if s = c.candidate then c.count else 0
  short : c.count < required

namespace Follows

variable {required : Nat} {history : List PresenceStatus} {self : PresenceConfirmation}
  {status : PresenceStatus}

theorem new (hpos : 0 < required) : Follows required [] (new required) where
  fixed := rfl
  streak := fun s _ _ => by
    rw [streak_nil]
    exact (ite_self 0).symm
  short := hpos

/-- A result that no status but the confirmed one gains from. -/
theorem reset (hpos : 0 < required) {result : PresenceStatus} (hfixed : self.required = required)
    (hcandidate : self.candidate = .unknown) (hcount : self.count = 0)
    (hresult : result = .unknown ∨ result = self.confirmed) :
    Follows required (history ++ [result]) self where
  fixed := hfixed
  streak := fun s hknown hother => by
    have hne : result ≠ s := by
      rintro rfl
      rcases hresult with hunknown | hconfirmed
      · exact hknown hunknown
      · exact hother hconfirmed
    rw [streak_concat_of_ne hne, hcandidate, if_neg hknown]
  short := hcount ▸ hpos

theorem counted_eq (h : Follows required history self) (hknown : status ≠ .unknown)
    (hother : status ≠ self.confirmed) :
    self.counted status = Streak.streak status (history ++ [status]) := by
  rw [streak_concat_self, h.streak status hknown hother, counted]
  by_cases hcandidate : status = self.candidate
  · rw [if_neg (not_not.mpr hcandidate), if_pos hcandidate]
  · rw [if_pos hcandidate, if_neg hcandidate]

theorem accept (h : Follows required history self) (hpos : 0 < required) (status : PresenceStatus) :
    Follows required (history ++ [status]) (self.accept status).2 := by
  by_cases hknown : status = .unknown
  · subst hknown
    rw [accept_unknown]
    exact reset hpos h.fixed rfl rfl (Or.inl rfl)
  by_cases hconfirmed : status = self.confirmed
  · rw [accept_confirmed hknown hconfirmed]
    exact reset hpos h.fixed rfl rfl (Or.inr hconfirmed)
  rw [accept_other hknown hconfirmed]
  split
  case isTrue hshort =>
    refine ⟨h.fixed, ?_, h.fixed ▸ hshort⟩
    intro s _ _
    by_cases hs : s = status
    · rw [if_pos hs, hs]
      exact (h.counted_eq hknown hconfirmed).symm
    · rw [if_neg hs, streak_concat_of_ne (Ne.symm hs)]
  case isFalse => exact reset hpos h.fixed rfl rfl (Or.inr rfl)

end Follows

theorem after_concat (required : Nat) (results : List PresenceStatus) (result : PresenceStatus) :
    after required (results ++ [result]) = ((after required results).accept result).2 := by
  rw [after, List.foldl_append]
  rfl

theorem follows_after {required : Nat} (hpos : 0 < required) (results : List PresenceStatus) :
    Follows required results (after required results) := by
  induction results using List.reverseRecOn with
  | nil => exact Follows.new hpos
  | append_singleton results result ih =>
    rw [after_concat]
    exact ih.accept hpos result

/-! ## When the confirmed status changes -/

section Confirmed

variable {required : Nat} {history : List PresenceStatus} {self : PresenceConfirmation}
  {status s : PresenceStatus}

/-- The confirmed status changes to that of the result, when the result
completes a streak. -/
theorem confirmed_accept (h : Follows required history self) (status : PresenceStatus) :
    (self.accept status).2.confirmed =
      if status ≠ .unknown ∧ required ≤ streak status (history ++ [status]) then status
      else self.confirmed := by
  by_cases hknown : status = .unknown
  · subst hknown
    rw [accept_unknown, if_neg (by simp)]
  by_cases hconfirmed : status = self.confirmed
  · rw [accept_confirmed hknown hconfirmed]
    split
    · exact hconfirmed.symm
    · rfl
  rw [accept_other hknown hconfirmed, h.counted_eq hknown hconfirmed, h.fixed]
  split
  case isTrue hshort =>
    exact (if_neg fun hfull => absurd hshort (Nat.not_lt.mpr hfull.2)).symm
  case isFalse hfull => exact (if_pos ⟨hknown, Nat.le_of_not_lt hfull⟩).symm

/-- A streak of `s` after this result means that the result is `s`. -/
theorem eq_of_streak (hpos : 0 < required) (hfull : required ≤ streak s (history ++ [status])) :
    status = s := by
  by_contra hne
  rw [streak_concat_of_ne hne] at hfull
  exact absurd hpos (Nat.not_lt.mpr hfull)

theorem becomes_iff (h : Follows required history self) (hpos : 0 < required) (hs : s ≠ .unknown) :
    (self.confirmed ≠ s ∧ (self.accept status).2.confirmed = s) ↔
      self.confirmed ≠ s ∧ required ≤ streak s (history ++ [status]) := by
  refine and_congr_right fun hne => ?_
  rw [confirmed_accept h]
  constructor
  · intro heq
    split at heq
    case isTrue hfull => exact heq ▸ hfull.2
    case isFalse => exact absurd heq hne
  · intro hfull
    obtain rfl := eq_of_streak hpos hfull
    exact if_pos ⟨hs, hfull⟩

end Confirmed

/-! ## What is announced -/

/-- The transition that can be announced next. -/
def due (self : PresenceConfirmation) : PresenceStatus :=
  if self.confirmed = .live then .offline else .live

/-- One result announces nothing and leaves `due` as it was, or announces
what was due. -/
theorem accept_announces (self : PresenceConfirmation) (status : PresenceStatus) :
    (self.accept status).1 = none ∧ (self.accept status).2.due = self.due
      ∨ (self.accept status).1 = some self.due
        ∧ (self.accept status).2.due = self.due.opposite := by
  by_cases hknown : status = .unknown
  · subst hknown
    rw [accept_unknown]
    exact Or.inl ⟨rfl, rfl⟩
  by_cases hconfirmed : status = self.confirmed
  · rw [accept_confirmed hknown hconfirmed]
    exact Or.inl ⟨rfl, rfl⟩
  rw [accept_other hknown hconfirmed]
  split
  · exact Or.inl ⟨rfl, rfl⟩
  · cases status with
    | unknown => exact absurd rfl hknown
    | live =>
      have hdue : self.due = .live := if_neg fun hlive => hconfirmed hlive.symm
      rw [hdue]
      exact Or.inr ⟨rfl, rfl⟩
    | offline =>
      by_cases hlive : self.confirmed = .live
      · have hdue : self.due = .offline := if_pos hlive
        rw [hdue, if_pos (Or.inr hlive)]
        exact Or.inr ⟨rfl, rfl⟩
      · have hdue : self.due = .live := if_neg hlive
        rw [hdue, if_neg (by simp [hlive])]
        exact Or.inl ⟨rfl, rfl⟩

/-- Confirming OFFLINE as the first status announces nothing. -/
theorem accept_offline_first {self : PresenceConfirmation} (h : self.confirmed = .unknown) :
    (self.accept .offline).1 = none := by
  rw [accept_other (by simp) (by simp [h])]
  split
  · rfl
  · rw [if_neg (by simp [h])]

theorem alternates_transitions (self : PresenceConfirmation) (results : List PresenceStatus) :
    Alternates self.due (transitions self results) := by
  induction results generalizing self with
  | nil => trivial
  | cons result results ih =>
    have hrest := ih (self.accept result).2
    rw [transitions]
    rcases accept_announces self result with ⟨hnone, hdue⟩ | ⟨hsome, hdue⟩
    · rw [hnone, ← hdue]
      exact hrest
    · rw [hsome]
      rw [hdue] at hrest
      exact ⟨rfl, hrest⟩

/-! ## The law -/

/-- Over every history: the announced transitions alternate, LIVE first; a
status becomes the confirmed one exactly at a result that makes the last
`required` results all of that status; and `UNKNOWN` changes nothing that
is confirmed. -/
theorem confirms_streaks (required : Nat) (hrequired : 2 ≤ required)
    (results : List PresenceStatus) :
    Alternates .live (transitions (new required) results)
    ∧ (∀ result s, s ≠ .unknown →
        ((after required results).confirmed ≠ s
          ∧ (after required (results ++ [result])).confirmed = s
          ↔ (after required results).confirmed ≠ s
            ∧ ∃ before, results ++ [result] = before ++ List.replicate required s))
    ∧ (∀ result, (after required (results ++ [result])).confirmed
        = (after required results).confirmed
        ∨ result ≠ .unknown ∧ (after required (results ++ [result])).confirmed = result)
    ∧ (after required (results ++ [.unknown])).confirmed = (after required results).confirmed
    ∧ ((after required results).confirmed = .unknown →
        ((after required results).accept .offline).1 = none) := by
  have hpos : 0 < required := Nat.lt_of_lt_of_le Nat.two_pos hrequired
  have h := follows_after hpos results
  refine ⟨alternates_transitions (new required) results, ?_, ?_, ?_, ?_⟩
  · intro result s hs
    rw [after_concat, becomes_iff h hpos hs, le_streak_iff]
  · intro result
    rw [after_concat, confirmed_accept h]
    split
    case isTrue hfull => exact Or.inr ⟨hfull.1, rfl⟩
    case isFalse => exact Or.inl rfl
  · rw [after_concat, accept_unknown]
  · intro hunknown
    exact accept_offline_first hunknown

/-- Two LIVE results after an interrupted streak. -/
theorem confirms_streaks_after_break :
    Alternates .live (transitions (new 2) [.live, .unknown, .live])
      ∧ (after 2 [.live, .unknown, .live, .live]).confirmed = .live := by
  obtain ⟨halternates, hbecomes, -⟩ :=
    confirms_streaks 2 (Nat.le_refl 2) [.live, .unknown, .live]
  exact ⟨halternates, ((hbecomes .live .live (by decide)).mpr
    ⟨by decide, [.live, .unknown], rfl⟩).2⟩

end PresenceConfirmation

end TiktokSigner.LivePresence
