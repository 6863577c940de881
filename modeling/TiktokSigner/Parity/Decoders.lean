import Mathlib
import TiktokSigner.LiveEvents.Normalize
import TiktokSigner.LiveEvents.Social

/-!
# Three decoders of the stable events

The normalisers of `normalize.rs` against `events.ts` and `EventDecoder`.
The two SDKs have counts up to `Number.MAX_SAFE_INTEGER` and identifiers as
decimal texts; they agree with each other on every message. The Rust side
keeps identifiers as unsigned numbers and actions as they arrive, so it
agrees with them exactly where those are not negative on the wire.
-/

namespace TiktokSigner.Parity

open LiveEvents LiveProto

/-! ## Events of the SDKs -/

namespace Sdk

/-- The avatar is empty where TypeScript leaves the property out. -/
structure EventUser where
  userId : String
  nickname : String
  uniqueId : String
  secUid : String
  avatarUrl : String
deriving DecidableEq

structure GiftEvent where
  user : EventUser
  toUser : EventUser
  giftId : String
  giftName : String
  diamondCount : Nat
  repeatCount : Nat
  comboCount : Nat
  groupId : String
  repeatEnd : Bool
  iconUrl : String := ""
  /-- From the gift table; a wire event does not say. -/
  streakable : Option Bool := none
deriving DecidableEq

structure LikeEvent where
  user : EventUser
  count : Nat
  total : Nat
deriving DecidableEq

structure MemberEvent where
  user : EventUser
  memberCount : Nat
  action : Nat
deriving DecidableEq

structure SocialEvent where
  user : EventUser
  action : Nat
  followCount : Nat
  shareCount : Nat
  shareType : Nat
  shareTarget : String
  shareDisplayStyle : Nat
  followType : Nat
  scene : String
  targetUserId : String
deriving DecidableEq

structure TopViewer where
  rank : Nat
  score : Nat
  delta : Nat
  user : EventUser
deriving DecidableEq

structure RoomUserEvent where
  viewers : Nat
  popularity : Nat
  totalUser : Nat
  anonymous : Nat
  ranks : List TopViewer
deriving DecidableEq

end Sdk

/-! ## TypeScript -/

namespace TypeScript

def maxSafeInteger : Nat := 9007199254740991

def safeCount (value : Int) : Nat :=
  if value ≤ 0 then 0
  else if (maxSafeInteger : Int) < value then maxSafeInteger
  else value.toNat

def asId (value : Int64) : String := value.toInt.repr

def firstImageUrl (image : Option ImageModel) : String :=
  (image.bind fun image => image.urlList.head?).getD ""

/-- `a || b` of two strings. -/
def orElse (a b : String) : String := if a = "" then b else a

def normalizeUser (user : Option User) : Sdk.EventUser where
  userId := (user.map fun user => asId user.id).getD "0"
  nickname := (user.map (·.nickname)).getD ""
  uniqueId := (user.map (·.displayId)).getD ""
  secUid := (user.map (·.secUid)).getD ""
  avatarUrl :=
    orElse (firstImageUrl (user.bind (·.avatarThumb)))
      (orElse (firstImageUrl (user.bind (·.avatarMedium)))
        (orElse (firstImageUrl (user.bind (·.avatarLarge)))
          (firstImageUrl (user.bind (·.avatarJpg)))))

def gift (message : WebcastGiftMessage) : Sdk.GiftEvent where
  user := normalizeUser message.user
  toUser := normalizeUser message.toUser
  giftId := asId message.giftId
  giftName := (message.gift.map (·.name)).getD ""
  diamondCount := safeCount ((message.gift.map (·.diamondCount.toInt)).getD 0)
  repeatCount := safeCount message.repeatCount.toInt
  comboCount := safeCount message.comboCount.toInt
  groupId := asId message.groupId
  repeatEnd := decide (0 < message.repeatEnd.toInt)

def like (message : WebcastLikeMessage) : Sdk.LikeEvent where
  user := normalizeUser message.user
  count := safeCount message.count.toInt
  total := safeCount message.total.toInt

def member (message : WebcastMemberMessage) : Sdk.MemberEvent where
  user := normalizeUser message.user
  memberCount := safeCount message.memberCount.toInt
  action := safeCount message.action.toInt

def social (message : WebcastSocialMessage) : Sdk.SocialEvent where
  user := normalizeUser message.user
  action := safeCount message.action.toInt
  followCount := safeCount message.followCount.toInt
  shareCount := safeCount message.shareCount.toInt
  shareType := safeCount message.shareType.toInt
  shareTarget := message.shareTarget
  shareDisplayStyle := safeCount message.shareDisplayStyle.toInt
  followType := safeCount message.followType.toInt
  scene := message.scene
  targetUserId := asId message.targetUserId

def normalizeContributor (contributor : Contributor) : Sdk.TopViewer where
  rank := safeCount contributor.rank.toInt
  score := safeCount contributor.score.toInt
  delta := safeCount contributor.delta.toInt
  user := normalizeUser contributor.user

def roomUser (message : WebcastRoomUserSeqMessage) : Sdk.RoomUserEvent where
  viewers := safeCount message.total.toInt
  popularity := safeCount message.popularity.toInt
  totalUser := safeCount message.totalUser.toInt
  anonymous := safeCount message.anonymous.toInt
  ranks := message.ranks.map normalizeContributor

/-- `classifySocialAction`, the kind. -/
def classifySocialAction (action : Nat) : SocialKind :=
  if action = 1 then .follow
  else if action = 3 then .share
  else if action = 0 then .unknown
  else .other

end TypeScript

/-! ## Java -/

namespace Java

def count (value : Int) : Nat := (min 9007199254740991 (max 0 value)).toNat

def image (image : ImageModel) : String :=
  match image.urlList with
  | [] => ""
  | url :: _ => url

/-- An absent sub-message is the default instance. -/
def user (user : Option User) : Sdk.EventUser :=
  let u := user.getD {}
  let avatar := image (u.avatarThumb.getD {})
  let avatar := if avatar = "" then image (u.avatarMedium.getD {}) else avatar
  let avatar := if avatar = "" then image (u.avatarLarge.getD {}) else avatar
  let avatar := if avatar = "" then image (u.avatarJpg.getD {}) else avatar
  { userId := u.id.toInt.repr
    nickname := u.nickname
    uniqueId := u.displayId
    secUid := u.secUid
    avatarUrl := avatar }

def gift (message : WebcastGiftMessage) : Sdk.GiftEvent :=
  let g := message.gift.getD {}
  { user := user message.user
    toUser := user message.toUser
    giftId := message.giftId.toInt.repr
    giftName := g.name
    diamondCount := count g.diamondCount.toInt
    repeatCount := count message.repeatCount.toInt
    comboCount := count message.comboCount.toInt
    groupId := message.groupId.toInt.repr
    repeatEnd := decide (message.repeatEnd.toInt > 0) }

def like (message : WebcastLikeMessage) : Sdk.LikeEvent where
  user := user message.user
  count := count message.count.toInt
  total := count message.total.toInt

def member (message : WebcastMemberMessage) : Sdk.MemberEvent where
  user := user message.user
  memberCount := count message.memberCount.toInt
  action := count message.action.toInt

def social (message : WebcastSocialMessage) : Sdk.SocialEvent where
  user := user message.user
  action := count message.action.toInt
  followCount := count message.followCount.toInt
  shareCount := count message.shareCount.toInt
  shareType := count message.shareType.toInt
  shareTarget := message.shareTarget
  shareDisplayStyle := count message.shareDisplayStyle.toInt
  followType := count message.followType.toInt
  scene := message.scene
  targetUserId := message.targetUserId.toInt.repr

def topViewer (r : Contributor) : Sdk.TopViewer where
  rank := count r.rank.toInt
  score := count r.score.toInt
  delta := count r.delta.toInt
  user := user r.user

def roomUser (message : WebcastRoomUserSeqMessage) : Sdk.RoomUserEvent where
  viewers := count message.total.toInt
  popularity := count message.popularity.toInt
  totalUser := count message.totalUser.toInt
  anonymous := count message.anonymous.toInt
  ranks := message.ranks.map topViewer

/-- `SocialClassifier.classify`, the kind. -/
def classify (action : Nat) : SocialKind :=
  if action = 1 then .follow
  else if action = 3 then .share
  else if action = 0 then .unknown
  else .other

end Java

/-! ## The SDKs agree -/

theorem safeCount_eq_count (value : Int) : TypeScript.safeCount value = Java.count value := by
  unfold TypeScript.safeCount Java.count TypeScript.maxSafeInteger
  split_ifs <;> omega

theorem firstImageUrl_eq_image (image : Option ImageModel) :
    TypeScript.firstImageUrl image = Java.image (image.getD {}) := by
  unfold TypeScript.firstImageUrl Java.image
  cases image with
  | none => rfl
  | some image => cases h : image.urlList <;> simp [h]

theorem normalizeUser_eq_user (user : Option User) :
    TypeScript.normalizeUser user = Java.user user := by
  cases user with
  | none => rfl
  | some user =>
    simp only [TypeScript.normalizeUser, Java.user, TypeScript.orElse, firstImageUrl_eq_image,
      Option.bind_some, Option.map_some, Option.getD_some, TypeScript.asId]
    congr 1
    split_ifs <;> rfl

theorem gift_sdk_agree (message : WebcastGiftMessage) :
    TypeScript.gift message = Java.gift message := by
  simp only [TypeScript.gift, Java.gift, safeCount_eq_count, normalizeUser_eq_user,
    TypeScript.asId]
  cases message.gift <;> rfl

theorem like_sdk_agree (message : WebcastLikeMessage) :
    TypeScript.like message = Java.like message := by
  simp only [TypeScript.like, Java.like, safeCount_eq_count, normalizeUser_eq_user]

theorem member_sdk_agree (message : WebcastMemberMessage) :
    TypeScript.member message = Java.member message := by
  simp only [TypeScript.member, Java.member, safeCount_eq_count, normalizeUser_eq_user]

theorem social_sdk_agree (message : WebcastSocialMessage) :
    TypeScript.social message = Java.social message := by
  simp only [TypeScript.social, Java.social, safeCount_eq_count, normalizeUser_eq_user,
    TypeScript.asId]

theorem roomUser_sdk_agree (message : WebcastRoomUserSeqMessage) :
    TypeScript.roomUser message = Java.roomUser message := by
  have hviewer : TypeScript.normalizeContributor = Java.topViewer := by
    funext r
    simp only [TypeScript.normalizeContributor, Java.topViewer, safeCount_eq_count,
      normalizeUser_eq_user]
  simp only [TypeScript.roomUser, Java.roomUser, safeCount_eq_count, hviewer]

/-! ## Rust against the SDKs -/

structure UserAgrees (rust : EventUser) (sdk : Sdk.EventUser) : Prop where
  id : sdk.userId = rust.id.toNat.repr
  nickname : sdk.nickname = rust.nickname
  uniqueId : sdk.uniqueId = rust.uniqueId
  secUid : sdk.secUid = rust.secUid

/-- A count, up to the clamp. -/
def CountAgrees (rust : UInt64) (sdk : Nat) : Prop := sdk = min TypeScript.maxSafeInteger rust.toNat

structure GiftAgrees (rust : GiftEvent) (sdk : Sdk.GiftEvent) : Prop where
  user : UserAgrees rust.user sdk.user
  giftId : sdk.giftId = rust.giftId.toNat.repr
  groupId : sdk.groupId = rust.groupId.toNat.repr
  diamondCount : CountAgrees rust.diamondCount sdk.diamondCount
  repeatCount : CountAgrees rust.repeatCount sdk.repeatCount
  comboCount : CountAgrees rust.comboCount sdk.comboCount
  repeatEnd : sdk.repeatEnd = rust.repeatEnd

structure LikeAgrees (rust : LikeEvent) (sdk : Sdk.LikeEvent) : Prop where
  user : UserAgrees rust.user sdk.user
  count : CountAgrees rust.count sdk.count
  total : CountAgrees rust.total sdk.total

structure MemberAgrees (rust : MemberEvent) (sdk : Sdk.MemberEvent) : Prop where
  user : UserAgrees rust.user sdk.user
  memberCount : CountAgrees rust.memberCount sdk.memberCount
  action : (sdk.action : Int) = rust.action.toInt

/-- The classification is that of each side. -/
structure SocialAgrees (rust : SocialEvent) (sdk : Sdk.SocialEvent) : Prop where
  user : UserAgrees rust.user sdk.user
  followCount : CountAgrees rust.followCount sdk.followCount
  shareCount : CountAgrees rust.shareCount sdk.shareCount
  targetUserId : sdk.targetUserId = rust.targetUserId.toInt.repr
  typeScriptKind : TypeScript.classifySocialAction sdk.action = rust.classify.kind
  javaKind : Java.classify sdk.action = rust.classify.kind

structure ViewerAgrees (rust : TopViewer) (sdk : Sdk.TopViewer) : Prop where
  rank : CountAgrees rust.rank sdk.rank
  score : CountAgrees rust.score sdk.score
  delta : CountAgrees rust.delta sdk.delta
  user : UserAgrees rust.user sdk.user

structure RoomUserAgrees (rust : RoomUserEvent) (sdk : Sdk.RoomUserEvent) : Prop where
  viewers : CountAgrees rust.total sdk.viewers
  popularity : CountAgrees rust.popularity sdk.popularity
  totalUser : CountAgrees rust.totalUser sdk.totalUser
  anonymous : CountAgrees rust.anonymous sdk.anonymous
  topViewers : List.Forall₂ ViewerAgrees rust.topViewers sdk.ranks
  rankedViewers : List.Forall₂ ViewerAgrees rust.rankedViewers sdk.ranks

/-- The identifier on the wire; an absent user has the default one. -/
def userId (user : Option User) : Int := (user.map fun user => user.id.toInt).getD 0

theorem natText_eq_iff (n : Int) (m : Nat) : n.repr = m.repr ↔ n = m :=
  Int.repr_inj (b := (m : Int))

/-- Read as unsigned, an identifier is kept unless it is negative. -/
theorem unsigned_id_iff (value : Int64) :
    value.toInt.repr = value.toUInt64.toNat.repr ↔ 0 ≤ value.toInt := by
  rw [natText_eq_iff]
  constructor
  · intro h
    rw [h]
    exact Int.natCast_nonneg _
  · intro h
    have hle : 0 ≤ value := Int64.le_iff_toInt_le.mpr h
    rw [Int64.toNat_toUInt64_of_le hle, Int64.cast_toNatClampNeg value hle]

/-- Clamped to zero, too. -/
theorem clamped_id_iff (value : Int64) :
    value.toInt.repr = (Normalize.count value.toInt).toNat.repr ↔ 0 ≤ value.toInt := by
  rw [natText_eq_iff, Normalize.count_toNat]
  omega

theorem count_agrees (value : Int64) :
    CountAgrees (Normalize.count value.toInt) (Java.count value.toInt) := by
  rw [CountAgrees, Normalize.count_toNat, Java.count, TypeScript.maxSafeInteger]
  omega

theorem count_agrees_int32 (value : Int32) :
    CountAgrees (Normalize.count value.toInt) (Java.count value.toInt) := by
  rw [CountAgrees, Normalize.count_toNat_int32, Java.count, TypeScript.maxSafeInteger]
  omega

theorem userAgrees_iff (user : Option User) :
    UserAgrees (Normalize.eventUser user) (Java.user user) ↔ 0 ≤ userId user := by
  cases user with
  | none => exact iff_of_true ⟨by decide, rfl, rfl, rfl⟩ (Int.le_refl 0)
  | some user =>
    constructor
    · intro h
      exact (unsigned_id_iff user.id).mp h.id
    · intro h
      exact ⟨(unsigned_id_iff user.id).mpr h, rfl, rfl, rfl⟩

theorem giftAgrees_iff (message : WebcastGiftMessage) :
    GiftAgrees (Normalize.gift message) (Java.gift message) ↔
      0 ≤ userId message.user ∧ 0 ≤ message.giftId.toInt ∧ 0 ≤ message.groupId.toInt ∧
        0 ≤ message.repeatEnd.toInt := by
  have hend : (decide (message.repeatEnd.toInt > 0) = decide (message.repeatEnd ≠ 0)) ↔
      0 ≤ message.repeatEnd.toInt := by
    have hzero : message.repeatEnd.toInt = 0 ↔ message.repeatEnd = 0 := Int32.toInt_inj (y := 0)
    rw [decide_eq_decide, ne_eq, ← hzero]
    omega
  constructor
  · intro h
    exact ⟨(userAgrees_iff _).mp h.user, (clamped_id_iff _).mp h.giftId,
      (clamped_id_iff _).mp h.groupId, hend.mp h.repeatEnd⟩
  · rintro ⟨huser, hgift, hgroup, hrepeat⟩
    refine ⟨(userAgrees_iff _).mpr huser, (clamped_id_iff _).mpr hgift,
      (clamped_id_iff _).mpr hgroup, ?_, count_agrees_int32 _, count_agrees_int32 _,
      hend.mpr hrepeat⟩
    cases hdetail : message.gift with
    | none => simp [CountAgrees, Normalize.gift, Java.gift, Java.count, hdetail]
    | some gift =>
      have hcount := count_agrees_int32 gift.diamondCount
      simpa [Normalize.gift, Java.gift, hdetail] using hcount

theorem likeAgrees_iff (message : WebcastLikeMessage) :
    LikeAgrees (Normalize.like message) (Java.like message) ↔ 0 ≤ userId message.user := by
  constructor
  · intro h
    exact (userAgrees_iff _).mp h.user
  · intro h
    exact ⟨(userAgrees_iff _).mpr h, count_agrees_int32 _, count_agrees _⟩

theorem memberAgrees_iff (message : WebcastMemberMessage) :
    MemberAgrees (Normalize.member message) (Java.member message) ↔
      0 ≤ userId message.user ∧ 0 ≤ message.action.toInt := by
  have hlt := message.action.toInt_lt
  have haction : ((Java.member message).action : Int) = (Normalize.member message).action.toInt ↔
      0 ≤ message.action.toInt := by
    simp only [Java.member, Normalize.member, Java.count]
    omega
  constructor
  · intro h
    exact ⟨(userAgrees_iff _).mp h.user, haction.mp h.action⟩
  · rintro ⟨huser, hnonneg⟩
    exact ⟨(userAgrees_iff _).mpr huser, count_agrees_int32 _, haction.mpr hnonneg⟩

/-- A social action keeps its number up to the clamp. -/
theorem social_action_iff (message : WebcastSocialMessage) :
    ((Java.social message).action : Int) = (Normalize.social message).action.toInt ↔
      0 ≤ message.action.toInt ∧ message.action.toInt ≤ TypeScript.maxSafeInteger := by
  simp only [Java.social, Normalize.social, Java.count, TypeScript.maxSafeInteger]
  omega

/-- A negative action is clamped to the code that stands for none. -/
theorem classify_iff (message : WebcastSocialMessage) :
    Java.classify (Java.social message).action = (Normalize.social message).classify.kind ↔
      0 ≤ message.action.toInt := by
  have hkind : (Normalize.social message).classify.kind =
      (classifyAction message.action).kind := rfl
  have haction : (Java.social message).action = Java.count message.action.toInt := rfl
  rw [hkind, classifyAction_kind, haction, Java.classify]
  by_cases hnonneg : 0 ≤ message.action.toInt
  · refine iff_of_true ?_ hnonneg
    have hone : Java.count message.action.toInt = 1 ↔ message.action.toInt = 1 := by
      unfold Java.count; omega
    have hthree : Java.count message.action.toInt = 3 ↔ message.action.toInt = 3 := by
      unfold Java.count; omega
    have hzero : Java.count message.action.toInt = 0 ↔ message.action.toInt = 0 := by
      unfold Java.count; omega
    simp only [hone, hthree, hzero]
  · refine iff_of_false ?_ hnonneg
    have hcount : Java.count message.action.toInt = 0 := by unfold Java.count; omega
    rw [hcount, if_neg (by omega : ¬message.action.toInt = 1),
      if_neg (by omega : ¬message.action.toInt = 3), if_neg (by omega : ¬message.action.toInt = 0)]
    decide

theorem socialAgrees_iff (message : WebcastSocialMessage) :
    SocialAgrees (Normalize.social message) (Java.social message) ↔
      0 ≤ userId message.user ∧ 0 ≤ message.action.toInt := by
  constructor
  · intro h
    exact ⟨(userAgrees_iff _).mp h.user, (classify_iff message).mp h.javaKind⟩
  · rintro ⟨huser, haction⟩
    have hkind := (classify_iff message).mpr haction
    exact ⟨(userAgrees_iff _).mpr huser, count_agrees _, count_agrees_int32 _, rfl, hkind, hkind⟩

theorem viewerAgrees_iff (contributor : Contributor) :
    ViewerAgrees (Normalize.topViewer contributor) (Java.topViewer contributor) ↔
      0 ≤ userId contributor.user := by
  constructor
  · intro h
    exact (userAgrees_iff _).mp h.user
  · intro h
    exact ⟨count_agrees _, count_agrees _, count_agrees _, (userAgrees_iff _).mpr h⟩

theorem roomUserAgrees_iff (message : WebcastRoomUserSeqMessage) :
    RoomUserAgrees (Normalize.roomUser message) (Java.roomUser message) ↔
      ∀ contributor ∈ message.ranks, 0 ≤ userId contributor.user := by
  have hranks : List.Forall₂ ViewerAgrees (message.ranks.map Normalize.topViewer)
      (message.ranks.map Java.topViewer) ↔
        ∀ contributor ∈ message.ranks, 0 ≤ userId contributor.user := by
    rw [List.forall₂_map_left_iff, List.forall₂_map_right_iff, List.forall₂_same]
    exact forall₂_congr fun contributor _ => viewerAgrees_iff contributor
  constructor
  · intro h
    exact hranks.mp h.topViewers
  · intro h
    exact ⟨count_agrees _, count_agrees _, count_agrees _, count_agrees _, hranks.mpr h,
      hranks.mpr h⟩

end TiktokSigner.Parity
