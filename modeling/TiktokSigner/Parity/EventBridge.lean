import TiktokSigner.Lib.Json
import TiktokSigner.LiveEvents.Envelope

/-!
# Events over the native bridge

`event_json` writes an event the way serde derives it, and Android's
`EventParser` reads the text back through `org.json`. An optional URL that
is absent is written as `null`, and `optString` has a text for that too.
-/

namespace TiktokSigner.Parity

open LiveEvents LiveProto

/-! ## The writer -/

def optionJson : Option String → Json Int
  | none => .null
  | some s => .str s

def eventUserJson (user : EventUser) : Json Int :=
  .obj
    [("id", .num user.id.toNat), ("nickname", .str user.nickname),
      ("unique_id", .str user.uniqueId), ("sec_uid", .str user.secUid),
      ("avatar_url", optionJson user.avatarUrl)]

/-- A field that is skipped where there is none. -/
def skippable (key : String) : Option (Json Int) → List (String × Json Int)
  | none => []
  | some value => [(key, value)]

def emoteJson (emote : LiveEmote) : Json Int :=
  .obj
    ([("id", .str emote.id)] ++ skippable "shortcode" (emote.shortcode.map .str) ++
      skippable "imageUrl" (emote.imageUrl.map .str) ++
      skippable "index" (emote.index.map fun n => .num n.toInt) ++
      skippable "emoteType" (emote.emoteType.map fun n => .num n.toInt) ++
      skippable "packageId" (emote.packageId.map .str))

def emotesField (emotes : List LiveEmote) : List (String × Json Int) :=
  skippable "emotes" (if emotes.isEmpty then none else some (.arr (emotes.map emoteJson)))

def topViewerJson (viewer : TopViewer) : Json Int :=
  .obj
    [("rank", .num viewer.rank.toNat), ("score", .num viewer.score.toNat),
      ("delta", .num viewer.delta.toNat), ("user", eventUserJson viewer.user)]

/-- The object that `event_json` writes. -/
def eventJson : LiveEvent StableEvent → List (String × Json Int)
  | .event (.chat e) =>
      [("type", .str "chat"), ("user", eventUserJson e.user), ("comment", .str e.comment)] ++
        emotesField e.emotes
  | .event (.emoteChat e) =>
      [("type", .str "emote_chat"), ("user", eventUserJson e.user)] ++ emotesField e.emotes
  | .event (.gift e) =>
      [("type", .str "gift"), ("user", eventUserJson e.user), ("gift_id", .num e.giftId.toNat),
        ("gift_name", .str e.giftName), ("diamond_count", .num e.diamondCount.toNat),
        ("repeat_count", .num e.repeatCount.toNat), ("combo_count", .num e.comboCount.toNat),
        ("group_id", .num e.groupId.toNat), ("repeat_end", .bool e.repeatEnd),
        ("gift_image_url", optionJson e.giftImageUrl)]
  | .event (.like e) =>
      [("type", .str "like"), ("user", eventUserJson e.user), ("count", .num e.count.toNat),
        ("total", .num e.total.toNat)]
  | .event (.member e) =>
      [("type", .str "member"), ("user", eventUserJson e.user),
        ("member_count", .num e.memberCount.toNat), ("action", .num e.action.toInt)]
  | .event (.social e) =>
      [("type", .str "social"), ("user", eventUserJson e.user), ("action", .num e.action.toInt),
        ("follow_count", .num e.followCount.toNat), ("share_count", .num e.shareCount.toNat),
        ("share_type", .num e.shareType.toInt), ("share_target", .str e.shareTarget),
        ("share_display_style", .num e.shareDisplayStyle.toInt),
        ("follow_type", .num e.followType.toInt), ("scene", .str e.scene),
        ("target_user_id", .num e.targetUserId.toInt)]
  | .event (.roomUser e) =>
      [("type", .str "room_user"), ("total", .num e.total.toNat),
        ("popularity", .num e.popularity.toNat), ("total_user", .num e.totalUser.toNat),
        ("anonymous", .num e.anonymous.toNat),
        ("top_viewers", .arr (e.topViewers.map topViewerJson)),
        ("ranked_viewers", .arr (e.rankedViewers.map topViewerJson))]
  | .unknown method payload =>
      [("type", .str "unknown"), ("method", .str method), ("bytes", .num payload.length)]

/-! ## The reader -/

/-- A number as a `long`: too large a literal is a `double` first. -/
def clampLong (n : Int) : Int := max (-2 ^ 63) (min (2 ^ 63 - 1) n)

/-- serde's text and `org.json` on Android: an event reads back as it was
written, `stringOf` is the text form of any value, `longOf` its number if it
has one. -/
structure OrgJson where
  Text : Type
  write : List (String × Json Int) → Text
  /-- `JSONObject(text)`, which throws or has members. -/
  parse : Text → Option (List (String × Json Int))
  parse_write : ∀ event, parse (write (eventJson event)) = some (eventJson event)
  stringOf : Json Int → String
  stringOf_str : ∀ s, stringOf (.str s) = s
  stringOf_null : stringOf .null = "null"
  longOf : Json Int → Option Int
  longOf_num : ∀ n, longOf (.num n) = some (clampLong n)

/-- A character in UTF-16. -/
def utf16Char (c : Char) : List UInt16 :=
  if c.toNat < 0x10000 then [UInt16.ofNat c.toNat]
  else
    [UInt16.ofNat (0xd800 + (c.toNat - 0x10000) / 0x400),
      UInt16.ofNat (0xdc00 + (c.toNat - 0x10000) % 0x400)]

def utf16 (text : String) : List UInt16 := text.toList.flatMap utf16Char

namespace Android

inductive Category where
  | chat
  | emote
  | gift
  | like
  | follow
  | share
  | social
  | join
  | member
  | room
  | unknown
deriving DecidableEq

/-- Android's `LiveEvent`. The text may be cut between two surrogates. -/
structure LiveEvent where
  category : Category := .unknown
  user : String := ""
  nickname : String := ""
  text : List UInt16 := []
  count : Int := 0
  diamonds : Int := 0
  avatarUrl : String := ""
  giftImageUrl : String := ""
  emotes : List LiveEmote := []
deriving DecidableEq

section

variable (lib : OrgJson) (parseEmotes : Option (List (Json Int)) → List LiveEmote)
variable (value : List (String × Json Int))

def optString (key fallback : String) : String := ((value.lookup key).map lib.stringOf).getD fallback

def optLong (key : String) (fallback : Int) : Int :=
  ((value.lookup key).bind lib.longOf).getD fallback

def optJsonObject (key : String) : Option (List (String × Json Int)) :=
  (value.lookup key).bind Json.asObject

def optJsonArray (key : String) : Option (List (Json Int)) :=
  (value.lookup key).bind Json.asArray

def base : LiveEvent :=
  let userObj := optJsonObject value "user"
  { user := (userObj.map fun user => optString lib user "unique_id" "").getD ""
    nickname := (userObj.map fun user => optString lib user "nickname" "").getD ""
    avatarUrl := (userObj.map fun user => optString lib user "avatar_url" "").getD ""
    giftImageUrl := optString lib value "gift_image_url" ""
    emotes := parseEmotes (optJsonArray value "emotes") }

/-- The `when` of `EventParser.parse`. -/
def parseValue : LiveEvent :=
  let base := base lib parseEmotes value
  match optString lib value "type" "?" with
  | "chat" =>
      { base with
        category := .chat
        text := (utf16 (optString lib value "comment" "")).take 500 }
  | "emote_chat" => { base with category := .emote, count := base.emotes.length }
  | "gift" =>
      { base with
        category := .gift
        text := utf16 (optString lib value "gift_name" "?")
        count := optLong lib value "repeat_count" 0
        diamonds := optLong lib value "diamond_count" 0 }
  | "like" => { base with category := .like, count := optLong lib value "count" 0 }
  | "member" =>
      if optLong lib value "action" (-1) = 1 then { base with category := .join }
      else { base with category := .member, count := optLong lib value "action" (-1) }
  | "social" =>
      if optLong lib value "action" 0 = 1 then { base with category := .follow }
      else if optLong lib value "action" 0 = 3 then { base with category := .share }
      else { base with category := .social, count := optLong lib value "action" 0 }
  | "room_user" => { base with category := .room, count := optLong lib value "total" 0 }
  | type =>
      { base with
        text := utf16 (optString lib value "method" type)
        count := optLong lib value "bytes" (-1) }

/-- `EventParser.parse`. -/
def parse (json : lib.Text) : LiveEvent :=
  match lib.parse json with
  | none => {}
  | some value => parseValue lib parseEmotes value

end

end Android

/-! ## What an event says -/

def userOf : LiveEvent StableEvent → Option EventUser
  | .event e => e.user
  | .unknown _ _ => none

def giftImageOf : LiveEvent StableEvent → Option String
  | .event (.gift e) => e.giftImageUrl
  | _ => none

def categoryOf : LiveEvent StableEvent → Android.Category
  | .event (.chat _) => .chat
  | .event (.emoteChat _) => .emote
  | .event (.gift _) => .gift
  | .event (.like _) => .like
  | .event (.member e) => if e.action = 1 then .join else .member
  | .event (.social e) =>
      if e.action = 1 then .follow else if e.action = 3 then .share else .social
  | .event (.roomUser _) => .room
  | .unknown _ _ => .unknown

def textOf : LiveEvent StableEvent → List UInt16
  | .event (.chat e) => (utf16 e.comment).take 500
  | .event (.gift e) => utf16 e.giftName
  | .unknown method _ => utf16 method
  | _ => []

/-- The count; an action that a category stands for is none, and a standalone
emote message only has its emotes. -/
def countOf : LiveEvent StableEvent → Option Int
  | .event (.chat _) => some 0
  | .event (.emoteChat _) => none
  | .event (.gift e) => some e.repeatCount.toNat
  | .event (.like e) => some e.count.toNat
  | .event (.member e) => some (if e.action = 1 then 0 else e.action.toInt)
  | .event (.social e) => some (if e.action = 1 ∨ e.action = 3 then 0 else e.action.toInt)
  | .event (.roomUser e) => some e.total.toNat
  | .unknown _ payload => some payload.length

def diamondsOf : LiveEvent StableEvent → Int
  | .event (.gift e) => e.diamondCount.toNat
  | _ => 0

/-- An event and what Android makes of it, emotes aside. -/
structure Unchanged (event : LiveEvent StableEvent) (shown : Android.LiveEvent) : Prop where
  category : shown.category = categoryOf event
  user : shown.user = ((userOf event).map (·.uniqueId)).getD ""
  nickname : shown.nickname = ((userOf event).map (·.nickname)).getD ""
  text : shown.text = textOf event
  count : ∀ n, countOf event = some n → shown.count = n
  diamonds : shown.diamonds = diamondsOf event
  avatarUrl : shown.avatarUrl = ((userOf event).bind (·.avatarUrl)).getD ""
  giftImageUrl : shown.giftImageUrl = (giftImageOf event).getD ""

/-- No optional URL is absent: every user has an avatar, every gift artwork. -/
structure ImagesPresent (event : LiveEvent StableEvent) : Prop where
  avatar : ∀ user, userOf event = some user → user.avatarUrl ≠ none
  artwork : ∀ gift, event = .event (.gift gift) → gift.giftImageUrl ≠ none

/-- Every number that is read fits a `long`. -/
def FitsLong : LiveEvent StableEvent → Prop
  | .event (.gift e) => e.repeatCount.toNat < 2 ^ 63 ∧ e.diamondCount.toNat < 2 ^ 63
  | .event (.like e) => e.count.toNat < 2 ^ 63
  | .event (.roomUser e) => e.total.toNat < 2 ^ 63
  | .unknown _ payload => payload.length < 2 ^ 63
  | _ => True

/-! ## Reading it back -/

section

variable (lib : OrgJson) (parseEmotes : Option (List (Json Int)) → List LiveEmote)

theorem stringOf_option (url : Option String) :
    lib.stringOf (optionJson url) = url.getD "null" := by
  cases url with
  | none => exact lib.stringOf_null
  | some s => exact lib.stringOf_str s

theorem lookup_emotesField {key : String} (h : key ≠ "emotes") (emotes : List LiveEmote) :
    (emotesField emotes).lookup key = none := by
  unfold emotesField skippable
  split
  · rfl
  · rw [List.lookup_cons, beq_eq_false_iff_ne.mpr h, List.lookup_nil]

/-- An object that starts with its user. -/
theorem base_user (user : EventUser) (type : Json Int) (rest : List (String × Json Int)) :
    let value := ("type", type) :: ("user", eventUserJson user) :: rest
    Android.base lib parseEmotes value =
      { user := user.uniqueId
        nickname := user.nickname
        avatarUrl := user.avatarUrl.getD "null"
        giftImageUrl := Android.optString lib rest "gift_image_url" ""
        emotes := parseEmotes (Android.optJsonArray value "emotes") } := by
  simp [Android.base, Android.optJsonObject, Android.optString, Android.optJsonArray,
    eventUserJson, Json.asObject, lib.stringOf_str, stringOf_option, List.lookup_cons]

theorem clampLong_of_fits {n : Int} (hlow : -2 ^ 63 ≤ n) (hhigh : n < 2 ^ 63) :
    clampLong n = n := by
  unfold clampLong
  omega

theorem optLong_num {value : List (String × Json Int)} {key : String} {n : Int}
    (h : value.lookup key = some (.num n)) (hlow : -2 ^ 63 ≤ n) (hhigh : n < 2 ^ 63)
    (fallback : Int) : Android.optLong lib value key fallback = n := by
  rw [Android.optLong, h, Option.bind_some, lib.longOf_num, Option.getD_some,
    clampLong_of_fits hlow hhigh]

theorem optString_str {value : List (String × Json Int)} {key s : String}
    (h : value.lookup key = some (.str s)) (fallback : String) :
    Android.optString lib value key fallback = s := by
  rw [Android.optString, h, Option.map_some, lib.stringOf_str, Option.getD_some]

/-- What stands for the artwork of an event. -/
def artworkText : LiveEvent StableEvent → String
  | .event (.gift e) => e.giftImageUrl.getD "null"
  | _ => ""

/-- What Android makes of an event: all of it, with a text for a missing
URL. -/
structure Read (event : LiveEvent StableEvent) (shown : Android.LiveEvent) : Prop where
  category : shown.category = categoryOf event
  user : shown.user = ((userOf event).map (·.uniqueId)).getD ""
  nickname : shown.nickname = ((userOf event).map (·.nickname)).getD ""
  text : shown.text = textOf event
  count : ∀ n, countOf event = some n → shown.count = n
  diamonds : shown.diamonds = diamondsOf event
  avatarUrl : shown.avatarUrl = ((userOf event).map fun user => user.avatarUrl.getD "null").getD ""
  giftImageUrl : shown.giftImageUrl = artworkText event

/-- The fields that every category shares. -/
theorem base_eventJson (event : LiveEvent StableEvent) :
    Android.base lib parseEmotes (eventJson event) =
      { user := ((userOf event).map (·.uniqueId)).getD ""
        nickname := ((userOf event).map (·.nickname)).getD ""
        avatarUrl := ((userOf event).map fun user => user.avatarUrl.getD "null").getD ""
        giftImageUrl := artworkText event
        emotes := parseEmotes (Android.optJsonArray (eventJson event) "emotes") } := by
  have hnone : ∀ emotes, (emotesField emotes).lookup "gift_image_url" = none :=
    lookup_emotesField (by decide)
  cases event with
  | unknown method payload => rfl
  | event event =>
    cases event with
    | roomUser e => rfl
    | chat e =>
      refine (base_user lib parseEmotes e.user _ _).trans ?_
      simp [Android.optString, List.lookup_cons, hnone, userOf, StableEvent.user, artworkText,
        eventJson]
    | emoteChat e =>
      refine (base_user lib parseEmotes e.user _ _).trans ?_
      simp [Android.optString, hnone, userOf, StableEvent.user, artworkText, eventJson]
    | gift e =>
      refine (base_user lib parseEmotes e.user _ _).trans ?_
      simp [Android.optString, List.lookup_cons, stringOf_option, userOf, StableEvent.user,
        artworkText, eventJson]
    | like e => exact base_user lib parseEmotes e.user _ _
    | member e => exact base_user lib parseEmotes e.user _ _
    | social e => exact base_user lib parseEmotes e.user _ _

theorem read_eventJson {event : LiveEvent StableEvent} (hfits : FitsLong event) :
    Read event (Android.parseValue lib parseEmotes (eventJson event)) := by
  unfold Android.parseValue
  rw [base_eventJson]
  cases event with
  | unknown method payload =>
    have htype : Android.optString lib (eventJson (.unknown method payload)) "type" "?" =
        "unknown" := optString_str lib rfl _
    have hmethod : Android.optString lib (eventJson (.unknown method payload)) "method"
        "unknown" = method := optString_str lib rfl _
    have hbytes : Android.optLong lib (eventJson (.unknown method payload)) "bytes" (-1) =
        payload.length := optLong_num lib rfl (by omega) (by exact_mod_cast hfits) _
    rw [htype]
    simp only [hbytes, hmethod, String.reduceEq, imp_self]
    exact ⟨rfl, rfl, rfl, rfl, fun n hn => Option.some.inj hn, rfl, rfl, rfl⟩
  | event event =>
    cases event with
    | roomUser e =>
      have htype : Android.optString lib (eventJson (.event (.roomUser e))) "type" "?" =
          "room_user" := optString_str lib rfl _
      have htotal : Android.optLong lib (eventJson (.event (.roomUser e))) "total" 0 =
          e.total.toNat := optLong_num lib rfl (by omega) (by exact_mod_cast hfits) _
      rw [htype]
      simp only [htotal]
      exact ⟨rfl, rfl, rfl, rfl, fun n hn => Option.some.inj hn, rfl, rfl, rfl⟩
    | chat e =>
      have htype : Android.optString lib (eventJson (.event (.chat e))) "type" "?" = "chat" :=
        optString_str lib rfl _
      have hcomment : Android.optString lib (eventJson (.event (.chat e))) "comment" "" =
          e.comment := optString_str lib rfl _
      rw [htype]
      simp only [hcomment]
      exact ⟨rfl, rfl, rfl, rfl, fun n hn => Option.some.inj hn, rfl, rfl, rfl⟩
    | emoteChat e =>
      have htype : Android.optString lib (eventJson (.event (.emoteChat e))) "type" "?" =
          "emote_chat" := optString_str lib rfl _
      rw [htype]
      exact ⟨rfl, rfl, rfl, rfl, fun n hn => (nomatch hn), rfl, rfl, rfl⟩
    | gift e =>
      have htype : Android.optString lib (eventJson (.event (.gift e))) "type" "?" = "gift" :=
        optString_str lib rfl _
      have hname : Android.optString lib (eventJson (.event (.gift e))) "gift_name" "?" =
          e.giftName := optString_str lib rfl _
      have hcount : Android.optLong lib (eventJson (.event (.gift e))) "repeat_count" 0 =
          e.repeatCount.toNat := optLong_num lib rfl (by omega) (by exact_mod_cast hfits.1) _
      have hdiamonds : Android.optLong lib (eventJson (.event (.gift e))) "diamond_count" 0 =
          e.diamondCount.toNat := optLong_num lib rfl (by omega) (by exact_mod_cast hfits.2) _
      rw [htype]
      simp only [hname, hcount, hdiamonds]
      exact ⟨rfl, rfl, rfl, rfl, fun n hn => Option.some.inj hn, rfl, rfl, rfl⟩
    | like e =>
      have htype : Android.optString lib (eventJson (.event (.like e))) "type" "?" = "like" :=
        optString_str lib rfl _
      have hcount : Android.optLong lib (eventJson (.event (.like e))) "count" 0 =
          e.count.toNat := optLong_num lib rfl (by omega) (by exact_mod_cast hfits) _
      rw [htype]
      simp only [hcount]
      exact ⟨rfl, rfl, rfl, rfl, fun n hn => Option.some.inj hn, rfl, rfl, rfl⟩
    | member e =>
      have htype : Android.optString lib (eventJson (.event (.member e))) "type" "?" = "member" :=
        optString_str lib rfl _
      have hlow := e.action.le_toInt
      have hhigh := e.action.toInt_lt
      have haction : Android.optLong lib (eventJson (.event (.member e))) "action" (-1) =
          e.action.toInt := optLong_num lib rfl (by omega) (by omega) _
      have hone : e.action.toInt = 1 ↔ e.action = 1 := Int32.toInt_inj (y := 1)
      rw [htype]
      simp only [haction, hone]
      by_cases hjoin : e.action = 1
      · rw [if_pos hjoin]
        exact ⟨(if_pos hjoin).symm, rfl, rfl, rfl, fun n hn => by simpa [countOf, hjoin] using hn,
          rfl, rfl, rfl⟩
      · rw [if_neg hjoin]
        exact ⟨(if_neg hjoin).symm, rfl, rfl, rfl, fun n hn => by simpa [countOf, hjoin] using hn,
          rfl, rfl, rfl⟩
    | social e =>
      have htype : Android.optString lib (eventJson (.event (.social e))) "type" "?" = "social" :=
        optString_str lib rfl _
      have hlow := e.action.le_toInt
      have hhigh := e.action.toInt_lt
      have haction : Android.optLong lib (eventJson (.event (.social e))) "action" 0 =
          e.action.toInt := optLong_num lib rfl (by omega) (by omega) _
      have hone : e.action.toInt = 1 ↔ e.action = 1 := Int64.toInt_inj (y := 1)
      have hthree : e.action.toInt = 3 ↔ e.action = 3 := Int64.toInt_inj (y := 3)
      rw [htype]
      simp only [haction, hone, hthree]
      by_cases hfollow : e.action = 1
      · rw [if_pos hfollow]
        exact ⟨(if_pos hfollow).symm, rfl, rfl, rfl,
          fun n hn => by simpa [countOf, hfollow] using hn, rfl, rfl, rfl⟩
      · rw [if_neg hfollow]
        by_cases hshare : e.action = 3
        · rw [if_pos hshare]
          exact ⟨by simp [categoryOf, hshare], rfl, rfl, rfl,
            fun n hn => by simpa [countOf, hshare] using hn, rfl, rfl, rfl⟩
        · rw [if_neg hshare]
          exact ⟨by simp [categoryOf, hfollow, hshare], rfl, rfl, rfl,
            fun n hn => by simpa [countOf, hfollow, hshare] using hn, rfl, rfl, rfl⟩

/-- The two readings differ in the text for a missing URL. -/
theorem unchanged_of_read_iff {event : LiveEvent StableEvent} {shown : Android.LiveEvent}
    (h : Read event shown) : Unchanged event shown ↔ ImagesPresent event := by
  have havatar : shown.avatarUrl = ((userOf event).bind (·.avatarUrl)).getD "" ↔
      ∀ user, userOf event = some user → user.avatarUrl ≠ none := by
    rw [h.avatarUrl]
    cases userOf event with
    | none => simp
    | some user => cases hurl : user.avatarUrl <;> simp [hurl]
  have hartwork : shown.giftImageUrl = (giftImageOf event).getD "" ↔
      ∀ gift, event = .event (.gift gift) → gift.giftImageUrl ≠ none := by
    rw [h.giftImageUrl]
    cases event with
    | unknown method payload => simp [artworkText, giftImageOf]
    | event event =>
      cases event with
      | gift gift => cases hurl : gift.giftImageUrl <;> simp [artworkText, giftImageOf, hurl]
      | _ => simp [artworkText, giftImageOf]
  constructor
  · intro hunchanged
    exact ⟨havatar.mp hunchanged.avatarUrl, hartwork.mp hunchanged.giftImageUrl⟩
  · intro himages
    exact ⟨h.category, h.user, h.nickname, h.text, h.count, h.diamonds,
      havatar.mpr himages.avatar, hartwork.mpr himages.artwork⟩

end

/-! ## What the normaliser makes -/

theorem count_lt (value : Int64) : (Normalize.count value.toInt).toNat < 2 ^ 63 := by
  have hlt := value.toInt_lt
  rw [Normalize.count_toNat]
  omega

theorem count_lt_int32 (value : Int32) : (Normalize.count value.toInt).toNat < 2 ^ 63 := by
  have hlt := value.toInt_lt
  rw [Normalize.count_toNat_int32]
  omega

theorem gift_fitsLong (message : WebcastGiftMessage) :
    FitsLong (.event (.gift (Normalize.gift message))) := by
  refine ⟨count_lt_int32 _, ?_⟩
  cases hgift : message.gift with
  | none => simp [Normalize.gift, hgift]
  | some gift =>
    have hcount := count_lt_int32 gift.diamondCount
    simpa [Normalize.gift, hgift] using hcount

/-- Counts were signed on the wire, and a payload is cut to the event limit. -/
theorem decoded_fitsLong {Error : Type} (registry : Registry) (prost : Prost Error)
    (method : String) (msgId : UInt64) (isHistory : Bool) (payload : Bytes) (budgets : Budgets) :
    FitsLong (decodeEnvelopeBudget registry prost.generated method msgId isHistory payload
      budgets).1.event := by
  have hunknown : FitsLong (.unknown method (payload.take maxEventBytes)) := by
    have hlength := List.length_take_le maxEventBytes payload
    exact Nat.lt_of_le_of_lt hlength (by decide)
  rw [(decodeEnvelopeBudget_verdict registry prost.generated method msgId isHistory payload
    budgets).1]
  cases envelopeIssue registry method payload budgets.wire with
  | some issue => exact hunknown
  | none =>
    unfold normalizeChecked
    cases hnormalize : normalizePayload prost.generated method (payload.take maxEventBytes) with
    | error e => exact hunknown
    | ok event =>
      cases event with
      | none => exact hunknown
      | some e =>
        exact normalizePayload_event (P := FitsLong) (fun _ => trivial) (fun _ => trivial)
          gift_fitsLong (fun _ => count_lt_int32 _) (fun _ => trivial) (fun _ => trivial)
          (fun _ => count_lt _) hnormalize

/-- An event crosses the bridge unchanged exactly where none of its optional
URLs is absent. -/
theorem event_unchanged_iff {Error : Type} (lib : OrgJson)
    (parseEmotes : Option (List (Json Int)) → List LiveEmote) (registry : Registry)
    (prost : Prost Error) (method : String) (msgId : UInt64) (isHistory : Bool) (payload : Bytes)
    (budgets : Budgets) :
    let event := (decodeEnvelopeBudget registry prost.generated method msgId isHistory payload
      budgets).1.event
    Unchanged event (Android.parse lib parseEmotes (lib.write (eventJson event))) ↔
      ImagesPresent event := by
  intro event
  have hread : Read event (Android.parse lib parseEmotes (lib.write (eventJson event))) := by
    rw [Android.parse, lib.parse_write]
    exact read_eventJson lib parseEmotes
      (decoded_fitsLong registry prost method msgId isHistory payload budgets)
  exact unchanged_of_read_iff hread

/-! ## A like without an avatar -/

/-- `org.json` on the values that an event's fields have. -/
def plainOrgJson : OrgJson where
  Text := List (String × Json Int)
  write event := event
  parse := some
  parse_write _ := rfl
  stringOf
    | .str s => s
    | .null => "null"
    | .bool b => toString b
    | .num n => toString n
    | .arr _ | .obj _ => ""
  stringOf_str _ := rfl
  stringOf_null := rfl
  longOf
    | .num n => some (clampLong n)
    | _ => none
  longOf_num _ := rfl

theorem missing_avatar_is_null :
    let event := (decodeEnvelopeBudget ⟨[], []⟩ emptyProst.generated "WebcastLikeMessage" 1 false []
      { schema := 4096, wire := 4096 }).1.event
    ¬Unchanged event
      (Android.parse plainOrgJson (fun _ => []) (plainOrgJson.write (eventJson event))) := by
  intro event hunchanged
  have hnull : (Android.parse plainOrgJson (fun _ => [])
      (plainOrgJson.write (eventJson event))).avatarUrl = "null" := by decide +kernel
  have hnone : ((userOf event).bind (·.avatarUrl)).getD "" = "" := by decide +kernel
  have hsame := hunchanged.avatarUrl
  rw [hnull, hnone] at hsame
  exact absurd hsame (by decide)

end TiktokSigner.Parity
