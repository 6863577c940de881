import Mathlib.Data.List.AList
import Mathlib.Data.List.DropRight
import TiktokSigner.Lib.Reports
import TiktokSigner.SignCore.GiftStreak

/-!
# The table of open streaks

`GiftStreaks` with the map it keeps: the streaks that are open can be counted
and taken. `sinceEnd` is what the table is for, the messages of a sender's
gift since its last end; the table has an entry where there are any, with
the highest count among them (`Tracks`). `running` is the view of
`GiftStreak`, which `observe` keeps (`running_observe`).
-/

namespace TiktokSigner

open Reports

/-- A gift message, as `observe` takes it. -/
structure GiftMessage where
  userId : UInt64
  giftId : UInt64
  repeatCount : UInt64
  repeatEnd : Bool
  streakable : Bool
deriving DecidableEq

def GiftMessage.key (message : GiftMessage) : UInt64 × UInt64 := (message.userId, message.giftId)

/-- A count of zero still means one gift was sent. -/
def GiftMessage.count (message : GiftMessage) : UInt64 := maxCount message.repeatCount 1

/-- Highest count seen per open streak, keyed by sender and gift. -/
structure OpenStreaks where
  table : AList fun _ : UInt64 × UInt64 => UInt64

namespace OpenStreaks

def new : OpenStreaks := ⟨∅⟩

def observe (streaks : OpenStreaks) (message : GiftMessage) : OpenStreaks × Option CompletedGift :=
  let key := message.key
  let count := maxCount message.repeatCount 1
  if !message.streakable then (streaks, some ⟨message.userId, message.giftId, count⟩)
  else
    let running := maxCount ((streaks.table.lookup key).getD 0) count
    let table := streaks.table.insert key running
    if message.repeatEnd then
      (⟨table.erase key⟩,
        some ⟨message.userId, message.giftId, (table.lookup key).getD count⟩)
    else (⟨table⟩, none)

/-- Streaks still waiting for their final message. -/
def openStreaks (streaks : OpenStreaks) : Nat := streaks.table.entries.length

/-- The order of `sort_by_key`. -/
def keyLe (a b : CompletedGift) : Bool :=
  a.userId < b.userId || (a.userId == b.userId && a.giftId ≤ b.giftId)

/-- Abandon open streaks. The map is drained in some order, which sorting
makes irrelevant. -/
def takeOpen (streaks : OpenStreaks) : OpenStreaks × List CompletedGift :=
  (new, (streaks.table.entries.map fun e => ⟨e.1.1, e.1.2, e.2⟩).mergeSort keyLe)

/-! ## What it is for -/

/-- The streakable messages of a key since its last end. -/
def sinceEnd (key : UInt64 × UInt64) (history : List GiftMessage) : List GiftMessage :=
  (history.filter fun message => message.streakable && message.key == key).rtakeWhile
    fun message => !message.repeatEnd

/-- The highest count among messages. -/
def highest (messages : List GiftMessage) : UInt64 :=
  messages.foldl (fun top message => maxCount top message.count) 0

/-- What a message completes, given those before it. -/
def completes (before : List GiftMessage) (message : GiftMessage) : Option CompletedGift :=
  if message.streakable = false then some ⟨message.userId, message.giftId, message.count⟩
  else if message.repeatEnd = true then
    some ⟨message.userId, message.giftId, highest (sinceEnd message.key before ++ [message])⟩
  else none

/-- The highest count of a key that has messages since its last end. -/
def standing (key : UInt64 × UInt64) (history : List GiftMessage) : Option UInt64 :=
  if sinceEnd key history = [] then none else some (highest (sinceEnd key history))

/-- The entries are the open keys, each with its highest count. -/
def Tracks (history : List GiftMessage) (streaks : OpenStreaks) : Prop :=
  ∀ key, streaks.table.lookup key = standing key history

/-! ## The highest count -/

theorem highest_concat (messages : List GiftMessage) (message : GiftMessage) :
    highest (messages ++ [message]) = maxCount (highest messages) message.count := by
  rw [highest, List.foldl_append]
  rfl

/-- No message has a higher one. -/
theorem count_le_highest {messages : List GiftMessage} {message : GiftMessage}
    (h : message ∈ messages) : message.count.toNat ≤ (highest messages).toNat := by
  induction messages using List.reverseRecOn with
  | nil => cases h
  | append_singleton messages last ih =>
    rw [highest_concat, toNat_maxCount]
    rcases List.mem_append.mp h with h | h
    · exact (ih h).trans (Nat.le_max_left _ _)
    · rw [List.mem_singleton.mp h]
      exact Nat.le_max_right _ _

/-- One of the messages has it. -/
theorem exists_highest {messages : List GiftMessage} (h : messages ≠ []) :
    ∃ message ∈ messages, highest messages = message.count := by
  induction messages using List.reverseRecOn with
  | nil => exact absurd rfl h
  | append_singleton messages last ih =>
    rw [highest_concat, maxCount]
    by_cases hle : highest messages ≤ last.count
    · rw [if_pos hle]
      exact ⟨last, by simp, rfl⟩
    · rw [if_neg hle]
      have hne : messages ≠ [] := by
        rintro rfl
        exact hle (UInt64.le_iff_toNat_le.mpr (Nat.zero_le _))
      obtain ⟨message, hmem, heq⟩ := ih hne
      exact ⟨message, List.mem_append_left _ hmem, heq⟩

/-! ## A message more -/

theorem sinceEnd_concat (key : UInt64 × UInt64) (before : List GiftMessage)
    (message : GiftMessage) :
    sinceEnd key (before ++ [message]) =
      if message.streakable = true ∧ message.key = key then
        if message.repeatEnd = true then [] else sinceEnd key before ++ [message]
      else sinceEnd key before := by
  rw [sinceEnd, List.filter_append]
  by_cases hmine : message.streakable = true ∧ message.key = key
  · rw [if_pos hmine, List.filter_cons_of_pos (by simpa using hmine), List.filter_nil]
    by_cases hend : message.repeatEnd = true
    · rw [if_pos hend, List.rtakeWhile_concat_neg _ _ _ (by simp [hend])]
    · rw [if_neg hend, List.rtakeWhile_concat_pos _ _ _ (by simpa using hend)]
      rfl
  · rw [if_neg hmine, List.filter_cons_of_neg (by simpa using hmine), List.filter_nil,
      List.append_nil]
    rfl

theorem standing_concat (key : UInt64 × UInt64) (before : List GiftMessage)
    (message : GiftMessage) :
    standing key (before ++ [message]) =
      if message.streakable = true ∧ message.key = key then
        if message.repeatEnd = true then none
        else some (highest (sinceEnd key before ++ [message]))
      else standing key before := by
  rw [standing, sinceEnd_concat, standing]
  by_cases hmine : message.streakable = true ∧ message.key = key
  · rw [if_pos hmine, if_pos hmine]
    by_cases hend : message.repeatEnd = true
    · rw [if_pos hend, if_pos hend, if_pos rfl]
    · rw [if_neg hend, if_neg hend, if_neg (by simp)]
  · rw [if_neg hmine, if_neg hmine]

/-- The running count of a key is the highest so far, or zero. -/
theorem Tracks.running {history : List GiftMessage} {streaks : OpenStreaks}
    (h : Tracks history streaks) (key : UInt64 × UInt64) :
    (streaks.table.lookup key).getD 0 = highest (sinceEnd key history) := by
  rw [h key, standing]
  split_ifs with hnil
  · rw [hnil]
    rfl
  · rfl

/-! ## What a message does -/

section

variable {streaks : OpenStreaks} {message : GiftMessage}

theorem observe_plain (h : message.streakable = false) :
    streaks.observe message =
      (streaks, some ⟨message.userId, message.giftId, message.count⟩) := by
  rw [observe, if_pos (by simp [h])]
  rfl

theorem observe_end (h : message.streakable = true) (hend : message.repeatEnd = true) :
    streaks.observe message =
      (⟨(streaks.table.insert message.key
          (maxCount ((streaks.table.lookup message.key).getD 0) message.count)).erase message.key⟩,
        some ⟨message.userId, message.giftId,
          maxCount ((streaks.table.lookup message.key).getD 0) message.count⟩) := by
  rw [observe, if_neg (by simp [h])]
  simp only [hend, if_true, AList.lookup_insert, Option.getD_some]
  rfl

theorem observe_running (h : message.streakable = true) (hend : message.repeatEnd = false) :
    streaks.observe message =
      (⟨streaks.table.insert message.key
          (maxCount ((streaks.table.lookup message.key).getD 0) message.count)⟩, none) := by
  rw [observe, if_neg (by simp [h])]
  simp only [hend, Bool.false_eq_true, if_false]
  rfl

end

theorem observe_tracks {before : List GiftMessage} {streaks : OpenStreaks}
    (h : Tracks before streaks) (message : GiftMessage) :
    (streaks.observe message).2 = completes before message ∧
      Tracks (before ++ [message]) (streaks.observe message).1 := by
  have hrunning : maxCount ((streaks.table.lookup message.key).getD 0) message.count =
      highest (sinceEnd message.key before ++ [message]) := by
    rw [h.running, highest_concat]
  by_cases hstreak : message.streakable = true
  · by_cases hend : message.repeatEnd = true
    · rw [observe_end hstreak hend, completes, if_neg (by simp [hstreak]), if_pos hend, hrunning]
      refine ⟨rfl, fun key => ?_⟩
      rw [standing_concat, if_pos hend]
      by_cases hkey : message.key = key
      · rw [if_pos ⟨hstreak, hkey⟩, ← hkey, AList.lookup_erase]
      · rw [if_neg fun hmine => hkey hmine.2, AList.lookup_erase_ne (Ne.symm hkey),
          AList.lookup_insert_ne (Ne.symm hkey)]
        exact h key
    · rw [observe_running hstreak (by simpa using hend), completes, if_neg (by simp [hstreak]),
        if_neg hend, hrunning]
      refine ⟨rfl, fun key => ?_⟩
      rw [standing_concat, if_neg hend]
      by_cases hkey : message.key = key
      · rw [if_pos ⟨hstreak, hkey⟩, ← hkey, AList.lookup_insert]
      · rw [if_neg fun hmine => hkey hmine.2, AList.lookup_insert_ne (Ne.symm hkey)]
        exact h key
  · rw [Bool.not_eq_true] at hstreak
    rw [observe_plain hstreak, completes, if_pos hstreak]
    refine ⟨rfl, fun key => ?_⟩
    rw [standing_concat, if_neg (by simp [hstreak])]
    exact h key

/-! ## Keys apart -/

/-- A message of a key looks at those of the key alone. -/
theorem sinceEnd_filter (key : UInt64 × UInt64) (history : List GiftMessage) :
    sinceEnd key (history.filter fun message => message.key == key) = sinceEnd key history := by
  rw [sinceEnd, sinceEnd, List.filter_filter]
  congr 1
  exact List.filter_congr fun message _ => by rw [Bool.and_assoc, Bool.and_self]

theorem completes_filter {key : UInt64 × UInt64} (before : List GiftMessage)
    {message : GiftMessage} (h : (message.key == key) = true) :
    completes before message =
      completes (before.filter fun message => message.key == key) message := by
  have hkey : message.key = key := eq_of_beq h
  rw [completes, completes, hkey, sinceEnd_filter]

/-! ## Taking what is open -/

theorem keyLe_iff {a b : CompletedGift} :
    keyLe a b = true ↔ a.userId < b.userId ∨ a.userId = b.userId ∧ a.giftId ≤ b.giftId := by
  simp [keyLe]

/-- Strictly sorted by sender and gift. -/
def KeyLt (a b : CompletedGift) : Prop :=
  a.userId < b.userId ∨ a.userId = b.userId ∧ a.giftId < b.giftId

theorem mem_takeOpen {streaks : OpenStreaks} {gift : CompletedGift} :
    gift ∈ streaks.takeOpen.2 ↔
      streaks.table.lookup (gift.userId, gift.giftId) = some gift.count := by
  rw [takeOpen, List.mem_mergeSort, List.mem_map, ← Option.mem_def, AList.mem_lookup_iff]
  constructor
  · rintro ⟨entry, hentry, rfl⟩
    exact hentry
  · exact fun hentry => ⟨_, hentry, rfl⟩

theorem keyLe_trans (a b c : CompletedGift) (h : keyLe a b = true) (h' : keyLe b c = true) :
    keyLe a c = true := by
  rw [keyLe_iff] at *
  rcases h with h | ⟨h, hle⟩ <;> rcases h' with h' | ⟨h', hle'⟩
  · exact Or.inl (UInt64.lt_trans h h')
  · exact Or.inl (h' ▸ h)
  · exact Or.inl (h ▸ h')
  · exact Or.inr ⟨h.trans h', UInt64.le_trans hle hle'⟩

theorem keyLe_total (a b : CompletedGift) : (keyLe a b || keyLe b a) = true := by
  rw [Bool.or_eq_true, keyLe_iff, keyLe_iff]
  by_cases huser : a.userId = b.userId
  · rcases UInt64.le_total a.giftId b.giftId with hle | hle
    · exact Or.inl (Or.inr ⟨huser, hle⟩)
    · exact Or.inr (Or.inr ⟨huser.symm, hle⟩)
  · rcases UInt64.le_total a.userId b.userId with hle | hle
    · exact Or.inl (Or.inl (UInt64.lt_of_le_of_ne hle huser))
    · exact Or.inr (Or.inl (UInt64.lt_of_le_of_ne hle (Ne.symm huser)))

/-- No two of the gifts have one key, so the order is strict. -/
theorem takeOpen_sorted (streaks : OpenStreaks) : streaks.takeOpen.2.Pairwise KeyLt := by
  have hkeys : (streaks.takeOpen.2.map fun gift => (gift.userId, gift.giftId)).Nodup := by
    have hperm : (streaks.takeOpen.2.map fun gift => (gift.userId, gift.giftId)).Perm
        streaks.table.keys := by
      rw [takeOpen]
      refine ((List.mergeSort_perm _ _).map _).trans ?_
      rw [List.map_map]
      exact List.Perm.refl _
    exact hperm.nodup_iff.mpr streaks.table.keys_nodup
  have hsorted : streaks.takeOpen.2.Pairwise fun a b => keyLe a b = true :=
    List.pairwise_mergeSort keyLe_trans keyLe_total _
  refine (hsorted.and (List.pairwise_map.mp hkeys)).imp fun {a b} h => ?_
  obtain ⟨hle, hne⟩ := h
  rcases keyLe_iff.mp hle with hlt | ⟨huser, hgift⟩
  · exact Or.inl hlt
  · refine Or.inr ⟨huser, ?_⟩
    refine UInt64.lt_of_le_of_ne hgift fun heq => hne ?_
    rw [huser, heq]

theorem length_takeOpen (streaks : OpenStreaks) :
    streaks.takeOpen.2.length = streaks.openStreaks := by
  rw [takeOpen, List.length_mergeSort, List.length_map, openStreaks]

/-! ## Over a run -/

theorem observe_run (messages : List GiftMessage) :
    answers observe new messages = told completes [] messages ∧
      Tracks messages (after observe new messages) := by
  have hnew : Tracks [] new := fun _ => rfl
  have hstep : ∀ before streaks message, Tracks before streaks → True →
      (streaks.observe message).2 = completes before message ∧
        Tracks (before ++ [message]) (streaks.observe message).1 :=
    fun _ _ message htracks _ => observe_tracks htracks message
  exact answers_eq_told hstep hnew (inOrder_of_forall fun _ _ _ => trivial)

/-- The view of the table as a function. -/
def view (streaks : OpenStreaks) : GiftStreaks where
  running key := streaks.table.lookup key

theorem view_set {streaks : OpenStreaks} {table : AList fun _ : UInt64 × UInt64 => UInt64}
    {key : UInt64 × UInt64} {count : Option UInt64}
    (h : ∀ key', table.lookup key' = if key' = key then count else streaks.table.lookup key') :
    streaks.view.set key count = view ⟨table⟩ := by
  rw [view, GiftStreaks.set]
  congr 1
  funext key'
  exact (h key').symm

theorem lookup_insert_ite {streaks : OpenStreaks} (key : UInt64 × UInt64) (count : UInt64)
    (key' : UInt64 × UInt64) :
    (streaks.table.insert key count).lookup key' =
      if key' = key then some count else streaks.table.lookup key' := by
  split_ifs with hkey
  · rw [hkey, AList.lookup_insert]
  · rw [AList.lookup_insert_ne hkey]

theorem lookup_erase_insert {streaks : OpenStreaks} (key : UInt64 × UInt64) (count : UInt64)
    (key' : UInt64 × UInt64) :
    ((streaks.table.insert key count).erase key).lookup key' =
      if key' = key then none else streaks.table.lookup key' := by
  split_ifs with hkey
  · rw [hkey, AList.lookup_erase]
  · rw [AList.lookup_erase_ne hkey, AList.lookup_insert_ne hkey]

/-- The table does what the function does. -/
theorem view_observe (streaks : OpenStreaks) (message : GiftMessage) :
    streaks.view.observe message.userId message.giftId message.repeatCount message.repeatEnd
        message.streakable =
      ((streaks.observe message).1.view, (streaks.observe message).2) := by
  rw [GiftStreaks.observe]
  by_cases hstreak : message.streakable = true
  · rw [if_neg (by simp [hstreak])]
    by_cases hend : message.repeatEnd = true
    · rw [if_pos hend, observe_end hstreak hend]
      exact congrArg (Prod.mk · _) (view_set fun key => lookup_erase_insert _ _ key)
    · rw [if_neg hend, observe_running hstreak (by simpa using hend)]
      exact congrArg (Prod.mk · _) (view_set fun key => lookup_insert_ite _ _ key)
  · rw [Bool.not_eq_true] at hstreak
    rw [if_pos (by simp [hstreak]), observe_plain hstreak]
    rfl

/-- Over any messages the table completes what the reference does, messages
of other keys make no difference, and what is open is what has messages
since its last end, each with its highest count. -/
theorem observe_reference (messages : List GiftMessage) :
    answers observe new messages = told completes [] messages ∧
    (∀ streaks message, message.streakable = false → (observe streaks message).1 = streaks) ∧
    (∀ key,
      let own := messages.filter fun message => message.key == key
      (messages.zip (answers observe new messages)).filter (fun pair => pair.1.key == key) =
          own.zip (answers observe new own) ∧
        (after observe new messages).table.lookup key = (after observe new own).table.lookup key) ∧
    (after observe new messages).openStreaks = (after observe new messages).takeOpen.2.length ∧
    (after observe new messages).takeOpen.2.Pairwise KeyLt ∧
    (∀ gift, gift ∈ (after observe new messages).takeOpen.2 ↔
      sinceEnd (gift.userId, gift.giftId) messages ≠ [] ∧
        gift.count = highest (sinceEnd (gift.userId, gift.giftId) messages)) ∧
    (after observe new messages).takeOpen.1 = new ∧
    (∀ own : List GiftMessage, own ≠ [] →
      (∃ message ∈ own, highest own = message.count) ∧
        ∀ message ∈ own, message.count ≤ highest own) := by
  obtain ⟨hanswers, htracks⟩ := observe_run messages
  refine ⟨hanswers, fun streaks message h => by rw [observe_plain h], fun key => ?_,
    (length_takeOpen _).symm, takeOpen_sorted _, fun gift => ?_, rfl, fun own hown =>
      ⟨exists_highest hown, fun message hmem =>
        UInt64.le_iff_toNat_le.mpr (count_le_highest hmem)⟩⟩
  · intro own
    obtain ⟨hown, htracksOwn⟩ := observe_run own
    refine ⟨?_, ?_⟩
    · have hfilter := told_filter (p := fun message : GiftMessage => message.key == key)
        (fun before message => completes_filter before) messages []
      rw [hanswers, hown]
      exact hfilter
    · rw [htracks, htracksOwn, standing, standing, sinceEnd_filter]
  · rw [mem_takeOpen, htracks, standing]
    split_ifs with hnil
    · simp [hnil]
    · rw [Option.some.injEq, eq_comm, and_iff_right hnil]

end OpenStreaks

end TiktokSigner
