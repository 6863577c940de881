import TiktokSigner.LiveEvents.Batch

/-!
# The stable events

`event.rs` and `user.rs`: the listener-facing types, which never expose a
generated one. `StableEvent` holds the typed variants of `LiveEvent`.
-/

namespace TiktokSigner.LiveEvents

structure LiveEmote where
  id : String
  shortcode : Option String := none
  imageUrl : Option String := none
  index : Option Int32 := none
  emoteType : Option Int32 := none
  packageId : Option String := none
deriving DecidableEq

structure EventUser where
  id : UInt64 := 0
  nickname : String := ""
  /-- The `@handle`. -/
  uniqueId : String := ""
  secUid : String := ""
  avatarUrl : Option String := none
deriving DecidableEq

structure ChatEvent where
  user : EventUser
  comment : String
  emotes : List LiveEmote
deriving DecidableEq

structure EmoteChatEvent where
  user : EventUser
  emotes : List LiveEmote
deriving DecidableEq

/-- A gift send; `repeatEnd` marks the final message of a burst. -/
structure GiftEvent where
  user : EventUser
  giftId : UInt64
  giftName : String
  diamondCount : UInt64
  repeatCount : UInt64
  comboCount : UInt64
  groupId : UInt64
  repeatEnd : Bool
  giftImageUrl : Option String
deriving DecidableEq

structure LikeEvent where
  user : EventUser
  count : UInt64
  total : UInt64
deriving DecidableEq

structure MemberEvent where
  user : EventUser
  memberCount : UInt64
  /-- Raw `MemberMessageAction`. -/
  action : Int32
deriving DecidableEq

structure SocialEvent where
  user : EventUser
  action : Int64
  followCount : UInt64
  shareCount : UInt64
  shareType : Int64
  shareTarget : String
  shareDisplayStyle : Int64
  followType : Int32
  scene : String
  targetUserId : Int64
deriving DecidableEq

structure TopViewer where
  rank : UInt64
  score : UInt64
  delta : UInt64
  user : EventUser
deriving DecidableEq

structure RoomUserEvent where
  total : UInt64
  popularity : UInt64
  totalUser : UInt64
  anonymous : UInt64
  topViewers : List TopViewer
  rankedViewers : List TopViewer
deriving DecidableEq

/-- The variants of `LiveEvent` that have a normaliser. -/
inductive StableEvent where
  | chat (event : ChatEvent)
  | emoteChat (event : EmoteChatEvent)
  | gift (event : GiftEvent)
  | like (event : LikeEvent)
  | member (event : MemberEvent)
  | social (event : SocialEvent)
  | roomUser (event : RoomUserEvent)
deriving DecidableEq

/-- The user behind the event, when it has one. -/
def StableEvent.user : StableEvent → Option EventUser
  | .chat event => some event.user
  | .emoteChat event => some event.user
  | .gift event => some event.user
  | .like event => some event.user
  | .member event => some event.user
  | .social event => some event.user
  | .roomUser _ => none

namespace LiveEvent

variable {Event : Type}

/-- Whether this event was preserved rather than normalised. -/
def isUnknown : LiveEvent Event → Bool
  | .event _ => false
  | .unknown _ _ => true

@[simp] theorem isUnknown_event (event : Event) : isUnknown (.event event) = false := rfl

@[simp] theorem isUnknown_unknown (method : String) (payload : Bytes) :
    isUnknown (.unknown method payload : LiveEvent Event) = true := rfl

end LiveEvent

end TiktokSigner.LiveEvents
