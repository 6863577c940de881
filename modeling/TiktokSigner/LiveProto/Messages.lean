/-!
# Generated messages

The generated v3 messages that the normalisers read, as the protobuf
runtimes hand them over: a scalar is its value, an absent sub-message is
`none`. Fields that no normaliser reads are left out.
-/

namespace TiktokSigner.LiveProto

structure ImageModel where
  urlList : List String := []
deriving DecidableEq

structure User where
  id : Int64 := 0
  nickname : String := ""
  avatarThumb : Option ImageModel := none
  avatarMedium : Option ImageModel := none
  avatarLarge : Option ImageModel := none
  displayId : String := ""
  secUid : String := ""
  avatarJpg : Option ImageModel := none
deriving DecidableEq

structure EmoteModel where
  emoteId : String := ""
  image : Option ImageModel := none
  emoteType : Int32 := 0
  packageId : String := ""
deriving DecidableEq

structure EmoteWithIndex where
  index : Int32 := 0
  emote : Option EmoteModel := none
deriving DecidableEq

structure WebcastChatMessage where
  user : Option User := none
  content : String := ""
  emotes : List EmoteWithIndex := []
deriving DecidableEq

structure WebcastEmoteChatMessage where
  user : Option User := none
  emoteList : List EmoteModel := []
deriving DecidableEq

/-- The detail block of a gift message. -/
structure Gift where
  image : Option ImageModel := none
  diamondCount : Int32 := 0
  name : String := ""
  icon : Option ImageModel := none
  previewImage : Option ImageModel := none
deriving DecidableEq

structure WebcastGiftMessage where
  giftId : Int64 := 0
  repeatCount : Int32 := 0
  comboCount : Int32 := 0
  user : Option User := none
  toUser : Option User := none
  repeatEnd : Int32 := 0
  groupId : Int64 := 0
  gift : Option Gift := none
deriving DecidableEq

structure WebcastLikeMessage where
  count : Int32 := 0
  total : Int64 := 0
  user : Option User := none
deriving DecidableEq

structure WebcastMemberMessage where
  user : Option User := none
  memberCount : Int32 := 0
  action : Int32 := 0
deriving DecidableEq

structure WebcastSocialMessage where
  user : Option User := none
  shareType : Int64 := 0
  action : Int64 := 0
  shareTarget : String := ""
  followCount : Int64 := 0
  shareDisplayStyle : Int64 := 0
  shareCount : Int32 := 0
  followType : Int32 := 0
  targetUserId : Int64 := 0
  scene : String := ""
deriving DecidableEq

structure Contributor where
  score : Int64 := 0
  user : Option User := none
  rank : Int64 := 0
  delta : Int64 := 0
deriving DecidableEq

structure WebcastRoomUserSeqMessage where
  ranks : List Contributor := []
  total : Int64 := 0
  popularity : Int64 := 0
  totalUser : Int64 := 0
  anonymous : Int64 := 0
deriving DecidableEq

end TiktokSigner.LiveProto
