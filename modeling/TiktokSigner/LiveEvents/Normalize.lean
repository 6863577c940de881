import TiktokSigner.LiveEvents.Event
import TiktokSigner.LiveProto.Messages

/-!
# The normalisers

`normalize.rs`: one generated message onto one stable event. The prost
decoders and the `url` crate are parameters; a normaliser fails only where
its decoder does, and never answers with an unknown event.
-/

namespace TiktokSigner.LiveEvents

open LiveProto

namespace Normalize

/-! ## Users and counts -/

/-- `value.into().max(0) as u64`, of an `i64`. -/
def count (value : Int) : UInt64 := UInt64.ofNat value.toNat

theorem count_toNat (value : Int64) : (count value.toInt).toNat = value.toInt.toNat := by
  have hlt := value.toInt_lt
  rw [count, UInt64.toNat_ofNat']
  omega

theorem count_toNat_int32 (value : Int32) : (count value.toInt).toNat = value.toInt.toNat := by
  have hlt := value.toInt_lt
  rw [count, UInt64.toNat_ofNat']
  omega

def firstImageUrl (image : Option ImageModel) : Option String :=
  (image.bind fun image => image.urlList.head?).filter (· ≠ "")

/-- `EventUser::normalize`. A missing user yields the default. -/
def eventUser (user : Option User) : EventUser :=
  match user with
  | none => {}
  | some user =>
      { id := user.id.toUInt64
        nickname := user.nickname
        uniqueId := user.displayId
        secUid := user.secUid
        avatarUrl :=
          [user.avatarThumb, user.avatarMedium, user.avatarLarge, user.avatarJpg].findSome?
            firstImageUrl }

/-! ## Emotes -/

def maxEmotesPerEvent : Nat := 64
def maxEmoteIdLength : Nat := 128
def maxEmoteUrlLength : Nat := 2048

/-- What `Url::parse` returns, as far as it is looked at. -/
structure ParsedUrl where
  scheme : String
  username : String
  password : Option String
  hostStr : Option String

/-- What follows the first `://`. -/
def afterSeparator : List Char → Option (List Char)
  | [] => none
  | c :: rest =>
      if [':', '/', '/'].isPrefixOf (c :: rest) then some ((c :: rest).drop 3)
      else afterSeparator rest

/-- `char::is_control`. -/
def isControl (c : Char) : Bool := c.toNat < 0x20 || (0x7f ≤ c.toNat && c.toNat ≤ 0x9f)

section

variable (parseUrl : String → Option ParsedUrl)

/-- An absolute `http`/`https` URL with a real hostname, and nothing else. -/
def acceptsImageUrl (url : String) : Bool :=
  if maxEmoteUrlLength < (asBytes url).length then false
  else if url.toList.any fun c => isControl c || c == ' ' then false
  else
    match afterSeparator url.toList with
    | none | some [] => false
    | some (c :: _) =>
        if c == '/' then false
        else
          match parseUrl url with
          | none => false
          | some parsed =>
              (parsed.scheme == "http" || parsed.scheme == "https") &&
                parsed.username.isEmpty && parsed.password.isNone &&
                parsed.hostStr.any (· != "")

def emoteImageUrl (image : Option ImageModel) : Option String :=
  image.bind fun image => image.urlList.find? (acceptsImageUrl parseUrl)

/-- `none` only when there is nothing usable to keep. -/
def normalizeEmote (emote : Option EmoteModel) (index : Option Int32) : Option LiveEmote :=
  emote.bind fun emote =>
    if maxEmoteIdLength < (asBytes emote.emoteId).length then none
    else
      let imageUrl := emoteImageUrl parseUrl emote.image
      if emote.emoteId.isEmpty && imageUrl.isNone then none
      else
        some
          { id := emote.emoteId
            imageUrl
            index
            emoteType := if emote.emoteType = 0 then none else some emote.emoteType
            packageId := if emote.packageId.isEmpty then none else some emote.packageId }

/-- The loop of `collect_emotes`, which stops at the cap. -/
def collectEmotes (collected : List LiveEmote) :
    List (Option EmoteModel × Option Int32) → List LiveEmote
  | [] => collected
  | (emote, index) :: emotes =>
      if maxEmotesPerEvent ≤ collected.length then collected
      else
        match normalizeEmote parseUrl emote index with
        | some normalized => collectEmotes (collected ++ [normalized]) emotes
        | none => collectEmotes collected emotes

end

/-! ## One function per message -/

/-- Best available gift artwork: `image`, then `icon`, then `preview_image`. -/
def giftImageUrl (detail : Gift) : Option String :=
  [detail.image, detail.icon, detail.previewImage].findSome? firstImageUrl

def topViewer (contributor : Contributor) : TopViewer where
  rank := count contributor.rank.toInt
  score := count contributor.score.toInt
  delta := count contributor.delta.toInt
  user := eventUser contributor.user

def chat (parseUrl : String → Option ParsedUrl) (message : WebcastChatMessage) : ChatEvent where
  user := eventUser message.user
  comment := message.content
  emotes := collectEmotes parseUrl []
    (message.emotes.map fun inline => (inline.emote, some inline.index))

def emoteChat (parseUrl : String → Option ParsedUrl) (message : WebcastEmoteChatMessage) :
    EmoteChatEvent where
  user := eventUser message.user
  emotes := collectEmotes parseUrl [] (message.emoteList.map fun emote => (some emote, none))

/-- The detail block is often omitted on repeat messages. -/
def gift (message : WebcastGiftMessage) : GiftEvent where
  user := eventUser message.user
  giftId := count message.giftId.toInt
  giftName := (message.gift.map (·.name)).getD ""
  diamondCount := (message.gift.map fun gift => count gift.diamondCount.toInt).getD 0
  repeatCount := count message.repeatCount.toInt
  comboCount := count message.comboCount.toInt
  groupId := count message.groupId.toInt
  repeatEnd := message.repeatEnd ≠ 0
  giftImageUrl := message.gift.bind giftImageUrl

def like (message : WebcastLikeMessage) : LikeEvent where
  user := eventUser message.user
  count := Normalize.count message.count.toInt
  total := Normalize.count message.total.toInt

def member (message : WebcastMemberMessage) : MemberEvent where
  user := eventUser message.user
  memberCount := count message.memberCount.toInt
  action := message.action

def social (message : WebcastSocialMessage) : SocialEvent where
  user := eventUser message.user
  action := message.action
  followCount := count message.followCount.toInt
  shareCount := count message.shareCount.toInt
  shareType := message.shareType
  shareTarget := message.shareTarget
  shareDisplayStyle := message.shareDisplayStyle
  followType := message.followType
  scene := message.scene
  targetUserId := message.targetUserId

def roomUser (message : WebcastRoomUserSeqMessage) : RoomUserEvent where
  total := count message.total.toInt
  popularity := count message.popularity.toInt
  totalUser := count message.totalUser.toInt
  anonymous := count message.anonymous.toInt
  topViewers := message.ranks.map topViewer
  rankedViewers := message.ranks.map topViewer

end Normalize

/-! ## Over the wire -/

/-- The decoders that prost derives, and the `url` crate. -/
structure Prost (Error : Type) where
  decodeEventBatch : Bytes → Except Error ProtoMessageFetchResult
  chat : Bytes → Except Error WebcastChatMessage
  emoteChat : Bytes → Except Error WebcastEmoteChatMessage
  gift : Bytes → Except Error WebcastGiftMessage
  like : Bytes → Except Error WebcastLikeMessage
  member : Bytes → Except Error WebcastMemberMessage
  social : Bytes → Except Error WebcastSocialMessage
  roomUser : Bytes → Except Error WebcastRoomUserSeqMessage
  parseUrl : String → Option ParsedUrl

variable {Error : Type}

/-- The normalisers over prost. -/
def Prost.generated (prost : Prost Error) : Generated StableEvent Error where
  decodeEventBatch := prost.decodeEventBatch
  chat payload := (prost.chat payload).map fun m => .event (.chat (Normalize.chat prost.parseUrl m))
  emoteChat payload :=
    (prost.emoteChat payload).map fun m => .event (.emoteChat (Normalize.emoteChat prost.parseUrl m))
  gift payload := (prost.gift payload).map fun m => .event (.gift (Normalize.gift m))
  like payload := (prost.like payload).map fun m => .event (.like (Normalize.like m))
  member payload := (prost.member payload).map fun m => .event (.member (Normalize.member m))
  social payload := (prost.social payload).map fun m => .event (.social (Normalize.social m))
  roomUser payload := (prost.roomUser payload).map fun m => .event (.roomUser (Normalize.roomUser m))

theorem map_event {Message : Type} {decoded : Except Error Message}
    {event : Message → StableEvent} {P : LiveEvent StableEvent → Prop}
    (hevent : ∀ m, P (.event (event m))) {e : LiveEvent StableEvent}
    (h : (decoded.map fun m => LiveEvent.event (event m)).map some = .ok (some e)) : P e := by
  cases decoded with
  | error _ => simp [Except.map] at h
  | ok m =>
    simp only [Except.map, Except.ok.injEq, Option.some.injEq] at h
    rw [← h]
    exact hevent m

/-- What holds of every normaliser's events holds of what a payload is
normalised to. -/
theorem normalizePayload_event {prost : Prost Error} {P : LiveEvent StableEvent → Prop}
    (chat : ∀ m, P (.event (.chat (Normalize.chat prost.parseUrl m))))
    (emoteChat : ∀ m, P (.event (.emoteChat (Normalize.emoteChat prost.parseUrl m))))
    (gift : ∀ m, P (.event (.gift (Normalize.gift m))))
    (like : ∀ m, P (.event (.like (Normalize.like m))))
    (member : ∀ m, P (.event (.member (Normalize.member m))))
    (social : ∀ m, P (.event (.social (Normalize.social m))))
    (roomUser : ∀ m, P (.event (.roomUser (Normalize.roomUser m))))
    {method : String} {payload : Bytes} {e : LiveEvent StableEvent}
    (h : normalizePayload prost.generated method payload = .ok (some e)) : P e := by
  unfold normalizePayload Prost.generated at h
  split at h
  · exact map_event chat h
  · exact map_event emoteChat h
  · exact map_event gift h
  · exact map_event like h
  · exact map_event member h
  · exact map_event social h
  · exact map_event roomUser h
  · cases h

/-- A normaliser answers with a typed variant. -/
theorem normalizePayload_known {prost : Prost Error} {method : String} {payload : Bytes}
    {e : LiveEvent StableEvent}
    (h : normalizePayload prost.generated method payload = .ok (some e)) :
    e.isUnknown = false :=
  normalizePayload_event (P := fun e => e.isUnknown = false) (fun _ => rfl) (fun _ => rfl)
    (fun _ => rfl) (fun _ => rfl) (fun _ => rfl) (fun _ => rfl) (fun _ => rfl) h

/-- The status says `Normalized` exactly of a typed variant, whatever stands
in for a missing event. -/
theorem normalizeChecked_truthful {prost : Prost Error} {method method' : String}
    {payload payload' : Bytes} {issue : Option NormalizationStatus}
    (hissue : issue ≠ some .normalized) :
    (normalizeChecked prost.generated method payload issue).2 = .normalized ↔
      ((normalizeChecked prost.generated method payload issue).1.getD
        (.unknown method' payload')).isUnknown = false := by
  cases issue with
  | some status =>
    have hstatus : status ≠ .normalized := fun h => hissue (congrArg some h)
    simp [normalizeChecked, hstatus]
  | none =>
    simp only [normalizeChecked]
    cases hnormalize : normalizePayload prost.generated method payload with
    | error e => simp
    | ok event =>
      cases event with
      | none => simp
      | some e => simp [normalizePayload_known hnormalize]

end TiktokSigner.LiveEvents
