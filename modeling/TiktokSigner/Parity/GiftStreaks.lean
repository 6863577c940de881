import TiktokSigner.Lib.Json
import TiktokSigner.Lib.Reports
import TiktokSigner.Parity.Decoders
import TiktokSigner.SignCore.GiftStreak

/-!
# Three ways to finalise a gift

A burst of gift messages is one gift, and its last message has the total.
Rust keeps the highest count of a sender's gift and reports it at the end;
Java keeps it for each group and reports every group once; TypeScript
leaves out the messages that are not last. A gift that is missing from the
gift table is final at once for the first and the last, and waits for its
end in Java.
-/

namespace TiktokSigner.Parity

open LiveEvents LiveProto Reports

/-! ## The gift table -/

structure CatalogGift where
  name : String
  diamonds : Nat
  icon : String
  combo : Bool
deriving DecidableEq

/-- The gifts of a room, by the text of their identifier. -/
abbrev Catalog := String → Option CatalogGift

/-- What a message left out is filled in from the gift table. -/
def Sdk.enrich (catalog : Catalog) (event : Sdk.GiftEvent) : Sdk.GiftEvent :=
  match catalog event.giftId with
  | none => event
  | some gift =>
      { event with
        giftName := if event.giftName = "" then gift.name else event.giftName
        diamondCount := if event.diamondCount = 0 then gift.diamonds else event.diamondCount
        iconUrl := gift.icon
        streakable := some gift.combo }

/-- A gift paid out. -/
structure Finalised where
  userId : String
  giftId : String
  count : Nat
deriving DecidableEq

def Sdk.GiftEvent.finalised (event : Sdk.GiftEvent) : Finalised where
  userId := event.user.userId
  giftId := event.giftId
  count := event.repeatCount

/-! ## Rust -/

/-- One message, normalised and observed. A gift missing from the table is
not streakable. -/
def rustStep (catalog : Catalog) (streaks : GiftStreaks) (message : WebcastGiftMessage) :
    GiftStreaks × Option Finalised :=
  let event := Normalize.gift message
  let streakable := (catalog event.giftId.toNat.repr).any (·.combo)
  let (streaks, completed) :=
    streaks.observe event.user.id event.giftId event.repeatCount event.repeatEnd streakable
  (streaks, completed.map fun gift =>
    { userId := gift.userId.toNat.repr
      giftId := gift.giftId.toNat.repr
      count := gift.count.toNat })

def rustFinals (catalog : Catalog) (messages : List WebcastGiftMessage) : List Finalised :=
  reports (rustStep catalog) {} messages

/-! ## TypeScript -/

namespace TypeScript

def enrich (catalog : Catalog) (event : Sdk.GiftEvent) : Sdk.GiftEvent := Sdk.enrich catalog event

/-- Only the final message of a streak is real. -/
def isFinal (event : Sdk.GiftEvent) : Bool := !(event.streakable = some true && !event.repeatEnd)

def final (catalog : Catalog) (message : WebcastGiftMessage) : Option Finalised :=
  let event := enrich catalog (gift message)
  if isFinal event then some event.finalised else none

def finals (catalog : Catalog) (messages : List WebcastGiftMessage) : List Finalised :=
  messages.filterMap (final catalog)

end TypeScript

/-! ## Java -/

namespace Java

def enrich (catalog : Catalog) (event : Sdk.GiftEvent) : Sdk.GiftEvent := Sdk.enrich catalog event

structure Streak where
  count : Nat
  completed : Bool
  latest : Sdk.GiftEvent

/-- The streaks in the order of their first message. -/
structure GiftStreakTracker where
  streaks : List (String × Streak) := []

def streakKey (event : Sdk.GiftEvent) : String :=
  event.user.userId ++ ":" ++ event.toUser.userId ++ ":" ++ event.giftId ++ ":" ++ event.groupId

/-- The event with the streak's total, and a name and a price if an earlier
message had them. -/
def merge (event : Sdk.GiftEvent) (previous : Option Streak) : Sdk.GiftEvent :=
  { event with
    giftName :=
      if event.giftName = "" then (previous.map (·.latest.giftName)).getD event.giftName
      else event.giftName
    diamondCount :=
      if event.diamondCount = 0 then (previous.map (·.latest.diamondCount)).getD event.diamondCount
      else event.diamondCount
    repeatCount := max event.repeatCount ((previous.map (·.count)).getD 0) }

def GiftStreakTracker.put (tracker : GiftStreakTracker) (key : String) (streak : Streak) :
    GiftStreakTracker :=
  let streaks := OrderedMap.insert key streak tracker.streaks
  { streaks := if 4096 < streaks.length then streaks.tail else streaks }

def GiftStreakTracker.accept (tracker : GiftStreakTracker) (event : Sdk.GiftEvent) :
    GiftStreakTracker × Option Sdk.GiftEvent :=
  if event.streakable = some false then (tracker, some event)
  else
    let previous := tracker.streaks.lookup (streakKey event)
    if previous.any (·.completed) then (tracker, none)
    else
      let merged := merge event previous
      (tracker.put (streakKey event)
          { count := merged.repeatCount, completed := event.repeatEnd, latest := merged },
        if event.repeatEnd then some merged else none)

def step (catalog : Catalog) (tracker : GiftStreakTracker) (message : WebcastGiftMessage) :
    GiftStreakTracker × Option Finalised :=
  let (tracker, accepted) := tracker.accept (enrich catalog (gift message))
  (tracker, accepted.map (·.finalised))

def finals (catalog : Catalog) (messages : List WebcastGiftMessage) : List Finalised :=
  reports (step catalog) {} messages

end Java

/-! ## Messages in order -/

/-- Sender and gift, as Rust keys its streaks. -/
def giftKey (message : WebcastGiftMessage) : UInt64 × UInt64 :=
  ((Normalize.gift message).user.id, (Normalize.gift message).giftId)

def ended (message : WebcastGiftMessage) : Bool := decide (0 < message.repeatEnd.toInt)

def sent (message : WebcastGiftMessage) : Nat := message.repeatCount.toInt.toNat

def isStreak (catalog : Catalog) (message : WebcastGiftMessage) : Bool :=
  (catalog message.giftId.toInt.repr).any (·.combo)

/-- The messages of a sender's streakable gift since it last ended. -/
def openMessages (catalog : Catalog) (key : UInt64 × UInt64) (before : List WebcastGiftMessage) :
    List WebcastGiftMessage :=
  before.foldl
    (fun messages message =>
      if isStreak catalog message ∧ giftKey message = key then
        if ended message then [] else messages ++ [message]
      else messages)
    []

/-- A message that all three settle alike: nothing of it is negative, its
gift is in the table, and if it is final, it has the highest count of what
it ends and nothing ended that streak before. -/
structure Settled (catalog : Catalog) (before : List WebcastGiftMessage)
    (message : WebcastGiftMessage) : Prop where
  sender_nonneg : 0 ≤ userId message.user
  gift_nonneg : 0 ≤ message.giftId.toInt
  end_nonneg : 0 ≤ message.repeatEnd.toInt
  known : (catalog message.giftId.toInt.repr).isSome
  counted : isStreak catalog message = false ∨ ended message = true → 1 ≤ sent message
  highest : isStreak catalog message = true → ended message = true →
    ∀ earlier ∈ openMessages catalog (giftKey message) before, sent earlier ≤ sent message
  once : isStreak catalog message = true → ended message = true →
    ∀ earlier ∈ before,
      Java.streakKey (Java.gift earlier) = Java.streakKey (Java.gift message) →
        ended earlier = false ∧ sent earlier ≤ sent message

section

variable {catalog : Catalog} {before : List WebcastGiftMessage} {message : WebcastGiftMessage}

theorem openMessages_append (key : UInt64 × UInt64) :
    openMessages catalog key (before ++ [message]) =
      if isStreak catalog message ∧ giftKey message = key then
        if ended message then [] else openMessages catalog key before ++ [message]
      else openMessages catalog key before := by
  rw [openMessages, List.foldl_append]
  rfl

/-! ## What a message pays on its own -/

def own (message : WebcastGiftMessage) : Finalised where
  userId := (Java.gift message).user.userId
  giftId := message.giftId.toInt.repr
  count := sent message

theorem repeatCount_eq_sent : (Java.gift message).repeatCount = sent message := by
  have hlt := message.repeatCount.toInt_lt
  simp only [Java.gift, Java.count, sent]
  omega

theorem enrich_finalised :
    (Sdk.enrich catalog (Java.gift message)).finalised = own message := by
  have hown : (Java.gift message).finalised = own message := by
    rw [Sdk.GiftEvent.finalised, repeatCount_eq_sent]
    rfl
  unfold Sdk.enrich
  split <;> exact hown

theorem enrich_streakKey (event : Sdk.GiftEvent) :
    Java.streakKey (Sdk.enrich catalog event) = Java.streakKey event := by
  unfold Sdk.enrich
  split <;> rfl

theorem enrich_repeatEnd (event : Sdk.GiftEvent) :
    (Sdk.enrich catalog event).repeatEnd = event.repeatEnd := by
  unfold Sdk.enrich
  split <;> rfl

theorem enrich_streakable (h : (catalog message.giftId.toInt.repr).isSome) :
    (Sdk.enrich catalog (Java.gift message)).streakable = some (isStreak catalog message) := by
  obtain ⟨gift, hgift⟩ := Option.isSome_iff_exists.mp h
  have hlookup : catalog (Java.gift message).giftId = some gift := hgift
  rw [Sdk.enrich, hlookup, isStreak, hgift, Option.any_some]

theorem final_eq (h : Settled catalog before message) :
    TypeScript.final catalog message =
      if isStreak catalog message = true ∧ ended message = false then none
      else some (own message) := by
  have hend : (Java.gift message).repeatEnd = ended message := rfl
  rw [TypeScript.final, TypeScript.enrich, gift_sdk_agree]
  simp only [TypeScript.isFinal, enrich_finalised, enrich_streakable h.known, enrich_repeatEnd,
    hend]
  cases isStreak catalog message <;> cases ended message <;> rfl

/-! ## Rust reports it -/

/-- Every running count is that of an open message. -/
def RunningFrom (catalog : Catalog) (before : List WebcastGiftMessage) (streaks : GiftStreaks) :
    Prop :=
  ∀ key count, streaks.running key = some count →
    ∃ earlier ∈ openMessages catalog key before, count.toNat = max (sent earlier) 1

theorem Settled.own_rust (h : Settled catalog before message) :
    ({ userId := (Normalize.gift message).user.id.toNat.repr
       giftId := (Normalize.gift message).giftId.toNat.repr
       count := sent message } : Finalised) = own message := by
  rw [own, (clamped_id_iff message.giftId).mpr h.gift_nonneg]
  exact congrArg (Finalised.mk · _ _) ((userAgrees_iff message.user).mpr h.sender_nonneg).id.symm

theorem Settled.repeatEnd_rust (h : Settled catalog before message) :
    (Normalize.gift message).repeatEnd = ended message := by
  have hzero : message.repeatEnd.toInt = 0 ↔ message.repeatEnd = 0 := Int32.toInt_inj (y := 0)
  have hnonneg := h.end_nonneg
  simp only [Normalize.gift, ended, decide_eq_decide, ne_eq, ← hzero]
  omega

theorem Settled.streakable_rust (h : Settled catalog before message) :
    (catalog (Normalize.gift message).giftId.toNat.repr).any (·.combo) =
      isStreak catalog message := by
  rw [isStreak, (clamped_id_iff message.giftId).mpr h.gift_nonneg]
  rfl

/-- The running count with a further message is that of one of the open
messages or of the further one. -/
theorem RunningFrom.next {streaks : GiftStreaks} (hinv : RunningFrom catalog before streaks)
    (message : WebcastGiftMessage) (key : UInt64 × UInt64) :
    let running := maxCount ((streaks.running key).getD 0)
      (maxCount (Normalize.gift message).repeatCount 1)
    sent message ≤ running.toNat ∧
      ∃ earlier ∈ openMessages catalog key before ++ [message],
        running.toNat = max (sent earlier) 1 := by
  have hsent : (Normalize.gift message).repeatCount.toNat = sent message :=
    Normalize.count_toNat_int32 _
  have hone : (1 : UInt64).toNat = 1 := rfl
  intro running
  have hvalue : running.toNat =
      max ((streaks.running key).getD 0).toNat (max (sent message) 1) := by
    rw [toNat_maxCount, toNat_maxCount, hsent, hone]
  refine ⟨by omega, ?_⟩
  rw [hvalue]
  cases hrunning : streaks.running key with
  | none =>
    refine ⟨message, by simp, ?_⟩
    rw [Option.getD_none]
    exact Nat.max_eq_right (Nat.zero_le _)
  | some count =>
    obtain ⟨earlier, hearlier, hcount⟩ := hinv key count hrunning
    rw [Option.getD_some, hcount]
    rcases Nat.le_total (sent earlier) (sent message) with hle | hle
    · exact ⟨message, by simp, by omega⟩
    · exact ⟨earlier, List.mem_append_left _ hearlier, by omega⟩

theorem rustStep_settled {streaks : GiftStreaks} (hinv : RunningFrom catalog before streaks)
    (h : Settled catalog before message) :
    (rustStep catalog streaks message).2 = TypeScript.final catalog message ∧
      RunningFrom catalog (before ++ [message]) (rustStep catalog streaks message).1 := by
  have hcount : (maxCount (Normalize.gift message).repeatCount 1).toNat = max (sent message) 1 := by
    rw [toNat_maxCount, Normalize.gift, Normalize.count_toNat_int32]
    rfl
  rw [final_eq h]
  unfold rustStep GiftStreaks.observe
  simp only [h.streakable_rust, h.repeatEnd_rust]
  cases hstreak : isStreak catalog message with
  | false =>
    have hpositive := h.counted (Or.inl hstreak)
    have hmax : max (sent message) 1 = sent message := by omega
    refine ⟨?_, ?_⟩
    · simp only [Bool.not_false, if_true, Option.map_some, hcount, hmax, h.own_rust]
      rfl
    · intro key count hrunning
      rw [openMessages_append, if_neg (by simp [hstreak])]
      exact hinv key count hrunning
  | true =>
    obtain ⟨hle, earlier, hearlier, hrunning⟩ := hinv.next message (giftKey message)
    cases hend : ended message with
    | false =>
      refine ⟨rfl, ?_⟩
      intro key count hset
      rw [openMessages_append]
      by_cases hkey : key = giftKey message
      · subst hkey
        rw [if_pos ⟨hstreak, rfl⟩, hend]
        have hvalue := Option.some.inj ((if_pos rfl).symm.trans hset)
        exact ⟨earlier, hearlier, hvalue ▸ hrunning⟩
      · rw [if_neg fun hsame => hkey hsame.2.symm]
        exact hinv key count ((if_neg hkey).symm.trans hset)
    | true =>
      have hpositive := h.counted (Or.inr hend)
      have hhighest : sent earlier ≤ sent message := by
        rcases List.mem_append.mp hearlier with hopen | hlast
        · exact h.highest hstreak hend earlier hopen
        · rw [List.mem_singleton.mp hlast]
      refine ⟨?_, ?_⟩
      · have htotal := Nat.le_antisymm (hrunning.trans_le (by omega)) hle
        simp only [Bool.not_true, Bool.false_eq_true, if_false, if_true, Option.map_some]
        rw [giftKey] at htotal
        rw [htotal, h.own_rust]
        rfl
      · intro key count hset
        rw [openMessages_append]
        by_cases hkey : key = giftKey message
        · cases (if_pos hkey).symm.trans hset
        · rw [if_neg fun hsame => hkey hsame.2.symm]
          exact hinv key count ((if_neg hkey).symm.trans hset)

/-! ## Java reports it -/

/-- Every streak in the table has the count of one of its messages, and is
completed only if one of them ended it. -/
def StreaksFrom (before : List WebcastGiftMessage) (tracker : Java.GiftStreakTracker) : Prop :=
  ∀ key streak, (key, streak) ∈ tracker.streaks →
    (∃ earlier ∈ before, Java.streakKey (Java.gift earlier) = key ∧ streak.count = sent earlier) ∧
      (streak.completed = true →
        ∃ earlier ∈ before, Java.streakKey (Java.gift earlier) = key ∧ ended earlier = true)

theorem StreaksFrom.more {tracker : Java.GiftStreakTracker} (hinv : StreaksFrom before tracker)
    (message : WebcastGiftMessage) : StreaksFrom (before ++ [message]) tracker := by
  intro key streak hmem
  obtain ⟨⟨earlier, hearlier, hcount⟩, hcompleted⟩ := hinv key streak hmem
  refine ⟨⟨earlier, List.mem_append_left _ hearlier, hcount⟩, fun h => ?_⟩
  obtain ⟨earlier, hearlier, hended⟩ := hcompleted h
  exact ⟨earlier, List.mem_append_left _ hearlier, hended⟩

theorem mem_put {tracker : Java.GiftStreakTracker} {key key' : String}
    {streak streak' : Java.Streak} (h : (key', streak') ∈ (tracker.put key streak).streaks) :
    (key', streak') = (key, streak) ∨ (key', streak') ∈ tracker.streaks := by
  have hinsert : (key', streak') ∈ OrderedMap.insert key streak tracker.streaks := by
    unfold Java.GiftStreakTracker.put at h
    dsimp only at h
    split_ifs at h
    · exact List.mem_of_mem_tail h
    · exact h
  exact OrderedMap.mem_insert hinsert

theorem StreaksFrom.put {tracker : Java.GiftStreakTracker} (hinv : StreaksFrom before tracker)
    {streak : Java.Streak}
    (hcount : ∃ earlier ∈ before ++ [message],
      Java.streakKey (Java.gift earlier) = Java.streakKey (Java.gift message) ∧
        streak.count = sent earlier)
    (hcompleted : streak.completed = ended message) :
    StreaksFrom (before ++ [message])
      (tracker.put (Java.streakKey (Java.gift message)) streak) := by
  intro key streak' hmem
  rcases mem_put hmem with heq | hold
  · obtain ⟨rfl, rfl⟩ := Prod.mk.inj heq
    refine ⟨hcount, fun h => ⟨message, by simp, rfl, hcompleted ▸ h⟩⟩
  · exact hinv.more message key streak' hold

theorem StreaksFrom.mem_lookup {tracker : Java.GiftStreakTracker}
    (hinv : StreaksFrom before tracker) {key : String} {streak : Java.Streak}
    (h : tracker.streaks.lookup key = some streak) :
    (∃ earlier ∈ before, Java.streakKey (Java.gift earlier) = key ∧ streak.count = sent earlier) ∧
      (streak.completed = true →
        ∃ earlier ∈ before, Java.streakKey (Java.gift earlier) = key ∧ ended earlier = true) := by
  obtain ⟨front, back, hsplit, -⟩ := List.lookup_eq_some_iff.mp h
  refine hinv key streak ?_
  rw [hsplit]
  exact List.mem_append_right _ List.mem_cons_self

/-- The merged count is that of a message of the streak, no less than the
last one's. -/
theorem StreaksFrom.merged {tracker : Java.GiftStreakTracker} (hinv : StreaksFrom before tracker)
    (catalog : Catalog) (message : WebcastGiftMessage) :
    let merged := Java.merge (Sdk.enrich catalog (Java.gift message))
      (tracker.streaks.lookup (Java.streakKey (Java.gift message)))
    sent message ≤ merged.repeatCount ∧
      ∃ earlier ∈ before ++ [message],
        Java.streakKey (Java.gift earlier) = Java.streakKey (Java.gift message) ∧
          merged.repeatCount = sent earlier := by
  have hsent : (Sdk.enrich catalog (Java.gift message)).repeatCount = sent message :=
    congrArg Finalised.count enrich_finalised
  intro merged
  have hvalue : merged.repeatCount = max (sent message)
      (((tracker.streaks.lookup (Java.streakKey (Java.gift message))).map (·.count)).getD 0) := by
    rw [← hsent]
    rfl
  refine ⟨by omega, ?_⟩
  rw [hvalue]
  cases hlookup : tracker.streaks.lookup (Java.streakKey (Java.gift message)) with
  | none => exact ⟨message, by simp, rfl, Nat.max_eq_left (Nat.zero_le _)⟩
  | some streak =>
    obtain ⟨⟨earlier, hearlier, hkey, hcount⟩, -⟩ := hinv.mem_lookup hlookup
    rw [Option.map_some, Option.getD_some, hcount]
    rcases Nat.le_total (sent earlier) (sent message) with hle | hle
    · exact ⟨message, by simp, rfl, Nat.max_eq_left hle⟩
    · exact ⟨earlier, List.mem_append_left _ hearlier, hkey, Nat.max_eq_right hle⟩

theorem javaStep_settled {tracker : Java.GiftStreakTracker} (hinv : StreaksFrom before tracker)
    (h : Settled catalog before message) :
    (Java.step catalog tracker message).2 = TypeScript.final catalog message ∧
      StreaksFrom (before ++ [message]) (Java.step catalog tracker message).1 := by
  have hend : (Sdk.enrich catalog (Java.gift message)).repeatEnd = ended message :=
    enrich_repeatEnd _
  rw [final_eq h]
  unfold Java.step Java.GiftStreakTracker.accept
  simp only [Java.enrich, enrich_streakable h.known, enrich_streakKey, hend]
  cases hstreak : isStreak catalog message with
  | false =>
    refine ⟨?_, hinv.more message⟩
    simp only [if_true, Option.map_some, enrich_finalised]
    rfl
  | true =>
    obtain ⟨hle, earlier, hearlier, hkey, htotal⟩ := hinv.merged catalog message
    rw [if_neg (by simp)]
    by_cases hcompleted : (tracker.streaks.lookup
        (Java.streakKey (Java.gift message))).any (·.completed) = true
    · rw [if_pos hcompleted]
      have hend' : ended message = false := by
        by_contra hended
        rw [Bool.not_eq_false] at hended
        obtain ⟨streak, hlookup, hstreak'⟩ := Option.any_eq_true _ _ |>.mp hcompleted
        obtain ⟨first, hfirst, hsame, hfirstEnded⟩ := (hinv.mem_lookup hlookup).2 hstreak'
        have honce := (h.once hstreak hended first hfirst hsame).1
        rw [hfirstEnded] at honce
        cases honce
      exact ⟨by rw [hend']; rfl, hinv.more message⟩
    · rw [if_neg hcompleted]
      refine ⟨?_, hinv.put ⟨earlier, hearlier, hkey, htotal⟩ rfl⟩
      cases hended : ended message with
      | false => rfl
      | true =>
        have hhighest : sent earlier ≤ sent message := by
          rcases List.mem_append.mp hearlier with hbefore | hlast
          · exact (h.once hstreak hended earlier hbefore hkey).2
          · rw [List.mem_singleton.mp hlast]
        have hown : (Java.merge (Sdk.enrich catalog (Java.gift message)) (tracker.streaks.lookup
            (Java.streakKey (Java.gift message)))).finalised = own message := by
          have hfinalised : (Java.merge (Sdk.enrich catalog (Java.gift message))
              (tracker.streaks.lookup (Java.streakKey (Java.gift message)))).finalised =
                { (Sdk.enrich catalog (Java.gift message)).finalised with
                  count := sent earlier } :=
            congrArg (Finalised.mk _ _) htotal
          rw [hfinalised, enrich_finalised, Nat.le_antisymm hhighest (htotal ▸ hle)]
          rfl
        simp only [if_true, Option.map_some, hown]
        rfl

end

/-! ## Over a run -/

section

variable {catalog : Catalog} {messages : List WebcastGiftMessage}

theorem rustFinals_eq (h : InOrder (Settled catalog) [] messages) :
    rustFinals catalog messages = TypeScript.finals catalog messages := by
  have hempty : RunningFrom catalog [] {} := by
    intro key count hrunning
    cases hrunning
  have hstep : ∀ before streaks message, RunningFrom catalog before streaks →
      Settled catalog before message →
        (rustStep catalog streaks message).2 = TypeScript.final catalog message ∧
          RunningFrom catalog (before ++ [message]) (rustStep catalog streaks message).1 :=
    fun _ _ _ hinv hsettled => rustStep_settled hinv hsettled
  exact reports_eq_filterMap hstep hempty h

theorem javaFinals_eq (h : InOrder (Settled catalog) [] messages) :
    Java.finals catalog messages = TypeScript.finals catalog messages := by
  have hempty : StreaksFrom [] {} := by
    intro key streak hmem
    cases hmem
  have hstep : ∀ before tracker message, StreaksFrom before tracker →
      Settled catalog before message →
        (Java.step catalog tracker message).2 = TypeScript.final catalog message ∧
          StreaksFrom (before ++ [message]) (Java.step catalog tracker message).1 :=
    fun _ _ _ hinv hsettled => javaStep_settled hinv hsettled
  exact reports_eq_filterMap hstep hempty h

end

/-- The decoders agree on every message, up to the clamp of the counts and
exactly where no identifier, action or end flag is negative; and gift
messages in order are finalised alike. -/
theorem stable_events_agree (catalog : Catalog) :
    (∀ message : WebcastGiftMessage,
      TypeScript.gift message = Java.gift message ∧
        (GiftAgrees (Normalize.gift message) (Java.gift message) ↔
          0 ≤ userId message.user ∧ 0 ≤ message.giftId.toInt ∧ 0 ≤ message.groupId.toInt ∧
            0 ≤ message.repeatEnd.toInt) ∧
        (0 ≤ message.giftId.toInt →
          (Java.enrich catalog (Java.gift message)).streakable =
            (catalog (Normalize.gift message).giftId.toNat.repr).map (·.combo))) ∧
      (∀ message : WebcastLikeMessage,
        TypeScript.like message = Java.like message ∧
          (LikeAgrees (Normalize.like message) (Java.like message) ↔ 0 ≤ userId message.user)) ∧
      (∀ message : WebcastMemberMessage,
        TypeScript.member message = Java.member message ∧
          (MemberAgrees (Normalize.member message) (Java.member message) ↔
            0 ≤ userId message.user ∧ 0 ≤ message.action.toInt)) ∧
      (∀ message : WebcastSocialMessage,
        TypeScript.social message = Java.social message ∧
          (SocialAgrees (Normalize.social message) (Java.social message) ↔
            0 ≤ userId message.user ∧ 0 ≤ message.action.toInt) ∧
          (((Java.social message).action : Int) = (Normalize.social message).action.toInt ↔
            0 ≤ message.action.toInt ∧ message.action.toInt ≤ TypeScript.maxSafeInteger)) ∧
      (∀ message : WebcastRoomUserSeqMessage,
        TypeScript.roomUser message = Java.roomUser message ∧
          (RoomUserAgrees (Normalize.roomUser message) (Java.roomUser message) ↔
            ∀ contributor ∈ message.ranks, 0 ≤ userId contributor.user)) ∧
      ∀ messages, InOrder (Settled catalog) [] messages →
        rustFinals catalog messages = TypeScript.finals catalog messages ∧
          Java.finals catalog messages = TypeScript.finals catalog messages := by
  refine ⟨fun message => ⟨gift_sdk_agree message, giftAgrees_iff message, fun hgift => ?_⟩,
    fun message => ⟨like_sdk_agree message, likeAgrees_iff message⟩,
    fun message => ⟨member_sdk_agree message, memberAgrees_iff message⟩,
    fun message => ⟨social_sdk_agree message, socialAgrees_iff message, social_action_iff message⟩,
    fun message => ⟨roomUser_sdk_agree message, roomUserAgrees_iff message⟩,
    fun messages h => ⟨rustFinals_eq h, javaFinals_eq h⟩⟩
  have htext : message.giftId.toInt.repr = (Normalize.gift message).giftId.toNat.repr :=
    (clamped_id_iff message.giftId).mpr hgift
  rw [← htext]
  unfold Java.enrich Sdk.enrich
  have hid : (Java.gift message).giftId = message.giftId.toInt.repr := rfl
  rw [hid]
  cases catalog message.giftId.toInt.repr <;> rfl

/-! ## Roses -/

def rose (count : Int32) (repeatEnd : Int32) : WebcastGiftMessage where
  giftId := 5655
  repeatCount := count
  user := some { id := 7 }
  repeatEnd := repeatEnd

def roseCatalog : Catalog := fun id =>
  if id = "5655" then some { name := "Rose", diamonds := 1, icon := "", combo := true } else none

theorem roses_settled : InOrder (Settled roseCatalog) [] [rose 1 0, rose 5 0, rose 9 1] := by
  refine ⟨⟨?_, ?_, ?_, ?_, ?_, ?_, ?_⟩, ⟨?_, ?_, ?_, ?_, ?_, ?_, ?_⟩, ⟨?_, ?_, ?_, ?_, ?_, ?_, ?_⟩,
    trivial⟩ <;> decide

/-- A burst is one gift of nine to all three. -/
theorem roses_finalised :
    rustFinals roseCatalog [rose 1 0, rose 5 0, rose 9 1] =
        TypeScript.finals roseCatalog [rose 1 0, rose 5 0, rose 9 1] ∧
      Java.finals roseCatalog [rose 1 0, rose 5 0, rose 9 1] =
        TypeScript.finals roseCatalog [rose 1 0, rose 5 0, rose 9 1] :=
  (stable_events_agree roseCatalog).2.2.2.2.2 _ roses_settled

/-- Without a gift table a rose is final at once, but not to Java. -/
theorem unknown_gift_waits_in_java :
    rustFinals (fun _ => none) [rose 1 0] = [⟨"7", "5655", 1⟩] ∧
      TypeScript.finals (fun _ => none) [rose 1 0] = [⟨"7", "5655", 1⟩] ∧
      Java.finals (fun _ => none) [rose 1 0] = [] := by
  decide

end TiktokSigner.Parity
