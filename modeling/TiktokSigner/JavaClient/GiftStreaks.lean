import TiktokSigner.Lib.Collapse
import TiktokSigner.Lib.Reports
import TiktokSigner.Parity.GiftStreaks

/-!
# Every streak is paid once

`GiftStreakTracker.accept` over a run between two clears. The reference looks
at the updates before an update: those of its streak say whether it is
over, and what it has come to. The tracker keeps as much of them as this
takes (`Tracks`), as long as it has room for every streak, since a streak
that is pushed out is forgotten with its end.
-/

namespace TiktokSigner.JavaClient

open FirstSeen OrderedMap Parity Parity.Java Reports

abbrev GiftEvent := Parity.Sdk.GiftEvent

/-- Not known to be no streak. -/
def isTracked (event : GiftEvent) : Bool := event.streakable ≠ some false

/-! ## What it is for -/

/-- The updates of a streak. -/
def ofStreak (key : String) (history : List GiftEvent) : List GiftEvent :=
  history.filter fun event => isTracked event && streakKey event == key

/-- The latest name that is not empty. -/
def latestName (updates : List GiftEvent) : String :=
  ((updates.map (·.giftName)).filter (· ≠ "")).getLast?.getD ""

/-- The latest price that is known. -/
def latestDiamonds (updates : List GiftEvent) : Nat :=
  ((updates.map (·.diamondCount)).filter (· ≠ 0)).getLast?.getD 0

def highestCount (updates : List GiftEvent) : Nat := (updates.map (·.repeatCount)).foldl max 0

def isOver (updates : List GiftEvent) : Bool := updates.any (·.repeatEnd)

/-- An update with all that its streak has come to. -/
def total (updates : List GiftEvent) (event : GiftEvent) : GiftEvent :=
  { event with
    giftName := latestName (updates ++ [event])
    diamondCount := latestDiamonds (updates ++ [event])
    repeatCount := highestCount (updates ++ [event]) }

/-- What an update pays, given those before it. -/
def pays (before : List GiftEvent) (event : GiftEvent) : Option GiftEvent :=
  if event.streakable = some false then some event
  else if isOver (ofStreak (streakKey event) before) then none
  else if event.repeatEnd then some (total (ofStreak (streakKey event) before) event)
  else none

/-- The streaks that updates are of. -/
def streakKeys (events : List GiftEvent) : List String :=
  (events.filter isTracked).map streakKey

/-- What the tracker knows of a streak that is not over. -/
structure Stands (updates : List GiftEvent) (streak : Streak) : Prop where
  open_ : streak.completed = false
  count : streak.count = highestCount updates
  name : streak.latest.giftName = latestName updates
  diamonds : streak.latest.diamondCount = latestDiamonds updates

/-- The entry of a streak, if it has updates. -/
def Knows (updates : List GiftEvent) : Option Streak → Prop
  | none => updates = []
  | some streak => if isOver updates then streak.completed = true else Stands updates streak

/-- The tracker knows every streak, and has entries for these alone. -/
structure Tracks (history : List GiftEvent) (tracker : GiftStreakTracker) : Prop where
  knows : ∀ key, Knows (ofStreak key history) (tracker.streaks.lookup key)
  nodup : (keys tracker.streaks).Nodup
  keys_subset : keys tracker.streaks ⊆ streakKeys history

/-! ## An update more -/

theorem latestName_concat (updates : List GiftEvent) (event : GiftEvent) :
    latestName (updates ++ [event]) =
      if event.giftName = "" then latestName updates else event.giftName := by
  rw [latestName, List.map_append, List.filter_append]
  split_ifs with hname
  · simp [hname, latestName]
  · simp [hname]

theorem latestDiamonds_concat (updates : List GiftEvent) (event : GiftEvent) :
    latestDiamonds (updates ++ [event]) =
      if event.diamondCount = 0 then latestDiamonds updates else event.diamondCount := by
  rw [latestDiamonds, List.map_append, List.filter_append]
  split_ifs with hprice
  · simp [hprice, latestDiamonds]
  · simp [hprice]

theorem highestCount_concat (updates : List GiftEvent) (event : GiftEvent) :
    highestCount (updates ++ [event]) = max event.repeatCount (highestCount updates) := by
  rw [highestCount, List.map_append, List.foldl_append, Nat.max_comm]
  rfl

theorem isOver_concat (updates : List GiftEvent) (event : GiftEvent) :
    isOver (updates ++ [event]) = (isOver updates || event.repeatEnd) := by
  simp [isOver]

theorem ofStreak_concat (key : String) (before : List GiftEvent) (event : GiftEvent) :
    ofStreak key (before ++ [event]) =
      if isTracked event = true ∧ streakKey event = key then ofStreak key before ++ [event]
      else ofStreak key before := by
  rw [ofStreak, List.filter_append, ofStreak]
  split_ifs with hmine
  · rw [List.filter_cons_of_pos (by simpa using hmine), List.filter_nil]
  · rw [List.filter_cons_of_neg (by simpa using hmine), List.filter_nil, List.append_nil]

theorem streakKeys_concat (before : List GiftEvent) {event : GiftEvent}
    (h : isTracked event = true) :
    streakKeys (before ++ [event]) = streakKeys before ++ [streakKey event] := by
  rw [streakKeys, List.filter_append, List.filter_cons_of_pos h, List.filter_nil, List.map_append]
  rfl

/-- Merging is adding up. -/
theorem merge_eq_total {updates : List GiftEvent} {previous : Option Streak}
    (hknows : Knows updates previous) (hopen : isOver updates = false) (event : GiftEvent) :
    merge event previous = total updates event := by
  have hnone : latestName [] = "" ∧ latestDiamonds [] = 0 ∧ highestCount [] = 0 := ⟨rfl, rfl, rfl⟩
  have hvalues : (previous.map (·.latest.giftName)).getD "" = latestName updates ∧
      (previous.map (·.latest.diamondCount)).getD 0 = latestDiamonds updates ∧
      (previous.map (·.count)).getD 0 = highestCount updates := by
    cases previous with
    | none =>
      rw [show updates = [] from hknows]
      exact hnone
    | some streak =>
      rw [Knows, if_neg (by simp [hopen])] at hknows
      exact ⟨hknows.name, hknows.diamonds, hknows.count⟩
  obtain ⟨hname, hdiamonds, hcount⟩ := hvalues
  rw [merge, total, latestName_concat, latestDiamonds_concat, highestCount_concat, hcount]
  congr 1
  · split_ifs with hempty
    · rw [hempty, hname]
    · rfl
  · split_ifs with hzero
    · rw [hzero, hdiamonds]
    · rfl

/-! ## What an update does -/

section

variable {tracker : GiftStreakTracker} {before : List GiftEvent} {event : GiftEvent}

theorem accept_plain (h : event.streakable = some false) :
    tracker.accept event = (tracker, some event) := if_pos h

theorem accept_late (h : event.streakable ≠ some false)
    (hover : (tracker.streaks.lookup (streakKey event)).any (·.completed) = true) :
    tracker.accept event = (tracker, none) := by
  rw [GiftStreakTracker.accept, if_neg h]
  simp only [hover, if_true]

theorem accept_open (h : event.streakable ≠ some false)
    (hopen : (tracker.streaks.lookup (streakKey event)).any (·.completed) = false) :
    tracker.accept event =
      (tracker.put (streakKey event)
          { count := (merge event (tracker.streaks.lookup (streakKey event))).repeatCount
            completed := event.repeatEnd
            latest := merge event (tracker.streaks.lookup (streakKey event)) },
        if event.repeatEnd then some (merge event (tracker.streaks.lookup (streakKey event)))
        else none) := by
  rw [GiftStreakTracker.accept, if_neg h]
  simp only [hopen, Bool.false_eq_true, if_false]

/-- A streak is over where the tracker has it completed. -/
theorem Knows.completed {updates : List GiftEvent} {previous : Option Streak}
    (h : Knows updates previous) : previous.any (·.completed) = isOver updates := by
  cases previous with
  | none =>
    rw [show updates = [] from h]
    rfl
  | some streak =>
    rw [Knows] at h
    rw [Option.any_some]
    split_ifs at h with hover
    · rw [h, hover]
    · rw [h.open_, Bool.eq_false_of_not_eq_true hover]

theorem streakKey_mem (htracked : isTracked event = true) :
    streakKey event ∈ streakKeys (before ++ [event]) := by
  rw [streakKeys_concat before htracked]
  exact List.mem_append_right _ List.mem_cons_self

theorem Tracks.keys_insert (h : Tracks before tracker) (htracked : isTracked event = true)
    (streak : Streak) :
    (keys (insert (streakKey event) streak tracker.streaks)).Nodup ∧
      keys (insert (streakKey event) streak tracker.streaks) ⊆ streakKeys (before ++ [event]) := by
  have hold : keys tracker.streaks ⊆ streakKeys (before ++ [event]) := by
    rw [streakKeys_concat before htracked]
    exact fun key hkey => List.mem_append_left _ (h.keys_subset hkey)
  refine ⟨nodup_keys_insertAll h.nodup [(streakKey event, streak)], ?_⟩
  rw [OrderedMap.keys_insert]
  split_ifs
  · exact hold
  · refine List.append_subset.mpr ⟨hold, ?_⟩
    exact List.cons_subset.mpr ⟨streakKey_mem htracked, List.nil_subset _⟩

/-- With room for the streak nothing is pushed out. -/
theorem Tracks.put_eq (h : Tracks before tracker) (htracked : isTracked event = true)
    (streak : Streak) (hroom : (streakKeys (before ++ [event])).eraseDups.length ≤ 4096) :
    tracker.put (streakKey event) streak =
      { streaks := insert (streakKey event) streak tracker.streaks } := by
  obtain ⟨hnodup, hsubset⟩ := h.keys_insert htracked streak
  have hlength := length_le_eraseDups hnodup hsubset
  rw [keys, List.length_map] at hlength
  rw [GiftStreakTracker.put]
  simp only [if_neg (Nat.not_lt.mpr (hlength.trans hroom))]

/-- The tracker with the entry of the streak replaced. -/
theorem Tracks.insert (h : Tracks before tracker) (htracked : isTracked event = true)
    {streak : Streak}
    (hknows : Knows (ofStreak (streakKey event) before ++ [event]) (some streak)) :
    Tracks (before ++ [event]) { streaks := insert (streakKey event) streak tracker.streaks } := by
  obtain ⟨hnodup, hsubset⟩ := h.keys_insert htracked streak
  refine ⟨fun key => ?_, hnodup, hsubset⟩
  rw [lookup_insert, ofStreak_concat]
  by_cases hkey : streakKey event = key
  · rw [if_pos ⟨htracked, hkey⟩, if_pos hkey.symm, ← hkey]
    exact hknows
  · rw [if_neg fun hmine => hkey hmine.2, if_neg (Ne.symm hkey)]
    exact h.knows key

/-- An update that changes nothing. -/
theorem Tracks.keep (h : Tracks before tracker)
    (hlate : isTracked event = true → isOver (ofStreak (streakKey event) before) = true) :
    Tracks (before ++ [event]) tracker := by
  refine ⟨fun key => ?_, h.nodup, fun key hkey => ?_⟩
  · have hknows := h.knows key
    rw [ofStreak_concat]
    by_cases hmine : isTracked event = true ∧ streakKey event = key
    · have hover : isOver (ofStreak key before) = true := hmine.2 ▸ hlate hmine.1
      rw [if_pos hmine]
      cases hlookup : tracker.streaks.lookup key with
      | none =>
        rw [hlookup] at hknows
        rw [show ofStreak key before = [] from hknows] at hover
        cases hover
      | some streak =>
        rw [hlookup, Knows, if_pos hover] at hknows
        rw [Knows, isOver_concat, hover, Bool.true_or, if_pos rfl]
        exact hknows
    · rw [if_neg hmine]
      exact hknows
  · have hold := h.keys_subset hkey
    rw [streakKeys, List.filter_append, List.map_append]
    exact List.mem_append_left _ hold

theorem accept_tracks (h : Tracks before tracker)
    (hroom : (streakKeys (before ++ [event])).eraseDups.length ≤ 4096) :
    (tracker.accept event).2 = pays before event ∧
      Tracks (before ++ [event]) (tracker.accept event).1 := by
  by_cases hplain : event.streakable = some false
  · rw [accept_plain hplain, pays, if_pos hplain]
    refine ⟨rfl, h.keep fun htracked => ?_⟩
    simp [isTracked, hplain] at htracked
  · have htracked : isTracked event = true := by simpa [isTracked] using hplain
    have hknows := h.knows (streakKey event)
    rw [pays, if_neg hplain, ← hknows.completed]
    by_cases hover : (tracker.streaks.lookup (streakKey event)).any (·.completed) = true
    · rw [accept_late hplain hover, if_pos hover]
      exact ⟨rfl, h.keep fun _ => hknows.completed ▸ hover⟩
    · have hopen := Bool.eq_false_of_not_eq_true hover
      have hfresh : isOver (ofStreak (streakKey event) before) = false :=
        hknows.completed ▸ hopen
      rw [accept_open hplain hopen, if_neg hover, merge_eq_total hknows hfresh,
        h.put_eq htracked _ hroom]
      refine ⟨rfl, h.insert htracked ?_⟩
      rw [Knows, isOver_concat, hfresh, Bool.false_or]
      split_ifs with hend
      · exact hend
      · exact ⟨Bool.eq_false_of_not_eq_true hend, rfl, rfl, rfl⟩

end

/-! ## Over a run -/

theorem accept_run {events : List GiftEvent} (h : (streakKeys events).eraseDups.length ≤ 4096) :
    answers GiftStreakTracker.accept {} events = told pays [] events := by
  have hempty : Tracks [] {} := ⟨fun _ => rfl, nodup_keys_nil, List.nil_subset _⟩
  have hstep : ∀ before tracker event, Tracks before tracker →
      (streakKeys (before ++ [event])).eraseDups.length ≤ 4096 →
        (tracker.accept event).2 = pays before event ∧
          Tracks (before ++ [event]) (tracker.accept event).1 :=
    fun _ _ _ htracks hroom => accept_tracks htracks hroom
  refine (answers_eq_told hstep hempty (inOrder_of_forall fun front event hfront => ?_)).1
  -- The streaks of a prefix are among those of the run.
  have hsubset : streakKeys ([] ++ front ++ [event]) ⊆ streakKeys events :=
    ((hfront.sublist.filter _).map _).subset
  refine Nat.le_trans ?_ h
  refine length_le_eraseDups (nodup_eraseDups _) fun key hkey => ?_
  exact hsubset (List.mem_eraseDups.mp hkey)

/-- What an update is paid depends on its own streak. -/
theorem pays_filter {key : String} (before : List GiftEvent) {event : GiftEvent}
    (h : (isTracked event && streakKey event == key) = true) :
    pays before event = pays (ofStreak key before) event := by
  have hkey : streakKey event = key := eq_of_beq (Bool.and_eq_true_iff.mp h).2
  have hown : ofStreak key (ofStreak key before) = ofStreak key before := by
    rw [ofStreak, ofStreak, List.filter_filter]
    exact List.filter_congr fun _ _ => Bool.and_self _
  rw [pays, pays, hkey, hown]

/-- After its end a streak is paid no more, and before it once. -/
theorem length_told_le {key : String} {own before : List GiftEvent}
    (hown : ∀ event ∈ own, (isTracked event && streakKey event == key) = true)
    (hbefore : ofStreak key before = before) :
    ((told pays before own).filterMap id).length ≤ if isOver before then 0 else 1 := by
  induction own generalizing before with
  | nil => exact Nat.zero_le _
  | cons event own ih =>
    obtain ⟨hevent, hown⟩ := List.forall_mem_cons.mp hown
    obtain ⟨htracked, hkey⟩ := Bool.and_eq_true_iff.mp hevent
    have hplain : ¬event.streakable = some false := by simpa [isTracked] using htracked
    have hnext : ofStreak key (before ++ [event]) = before ++ [event] := by
      rw [ofStreak_concat, if_pos ⟨htracked, eq_of_beq hkey⟩, hbefore]
    have hrest := ih hown hnext
    rw [isOver_concat] at hrest
    rw [told, pays, if_neg hplain, eq_of_beq hkey, hbefore]
    by_cases hover : isOver before = true
    · rw [hover, Bool.true_or, if_pos rfl] at hrest
      rw [if_pos hover, if_pos hover, List.filterMap_cons_none rfl]
      exact hrest
    · rw [if_neg hover, if_neg hover]
      rw [Bool.eq_false_of_not_eq_true hover, Bool.false_or] at hrest
      by_cases hend : event.repeatEnd = true
      · rw [if_pos hend] at hrest ⊢
        rw [List.filterMap_cons_some (f := id) rfl, List.length_cons]
        omega
      · rw [if_neg hend] at hrest ⊢
        rw [List.filterMap_cons_none rfl]
        exact hrest

/-- What the updates of one streak are paid. -/
def paid (key : String) (events : List GiftEvent) (answers : List (Option GiftEvent)) :
    List GiftEvent :=
  (((events.zip answers).filter fun pair =>
    isTracked pair.1 && streakKey pair.1 == key).map (·.2)).filterMap id

theorem length_paid_le (key : String) (events : List GiftEvent) :
    (paid key events (told pays [] events)).length ≤ 1 := by
  have hfilter := told_filter (p := fun event => isTracked event && streakKey event == key)
    (fun before event => pays_filter before) events []
  have hown : ∀ event ∈ ofStreak key events, (isTracked event && streakKey event == key) = true :=
    fun event hevent => (List.mem_filter.mp hevent).2
  have hnone : ofStreak key [] = [] := rfl
  rw [paid, hfilter, List.filter_nil, map_zip_told]
  exact length_told_le hown hnone

/-- With room for all streaks of a run, every update is paid what the
reference pays it: a streak once, with all it has come to, and a gift that
is none as it comes, which leaves the tracker as it is. -/
theorem accept_reference (events : List GiftEvent)
    (h : (streakKeys events).eraseDups.length ≤ 4096) :
    answers GiftStreakTracker.accept {} events = told pays [] events ∧
    (∀ key, (paid key events (answers GiftStreakTracker.accept {} events)).length ≤ 1) ∧
    (∀ tracker : GiftStreakTracker, ∀ event : GiftEvent, event.streakable = some false →
      tracker.accept event = (tracker, some event)) := by
  have hrun := accept_run h
  refine ⟨hrun, fun key => ?_, fun tracker event hplain => accept_plain hplain⟩
  rw [hrun]
  exact length_paid_le key events

/-- A burst of roses, the last message twice. -/
theorem roses_paid_once :
    answers GiftStreakTracker.accept {} ([rose 1 0, rose 9 1, rose 9 1].map gift) =
      told pays [] ([rose 1 0, rose 9 1, rose 9 1].map gift) :=
  (accept_reference ([rose 1 0, rose 9 1, rose 9 1].map gift) (by decide)).1

end TiktokSigner.JavaClient
