import TiktokSigner.Lib.Ranking
import TiktokSigner.LiveDiscovery.LiveSearch
import TiktokSigner.Parity.RoomLookup

/-!
# Three live searches

One search response, three lists of rooms: `live_channels_page`, the
TypeScript `liveChannels` and Android's `parseFeed`. Each item nests its
room as a JSON text. Rust and Android read it field by field, TypeScript
checks it by a schema first; Rust and TypeScript refuse every refusal, and
Android one of them.
-/

namespace TiktokSigner.Parity

open LiveDiscovery Ranking

/-- The libraries of the three, with their parsers and the laws of both. -/
structure JsonLibraries (Number : Type) extends JsonReaders Number where
  /-- `serde_json::from_str`, `JSON.parse`, `JSONObject(text)`. -/
  serde : String → Option (Json Number)
  serdeError : String → String
  js : String → Option (Json Number)
  org : String → Option (Json Number)
  /-- `serde_json` takes no text that is not JSON. -/
  serde_js : ∀ text value, serde text = some value → js text = some value
  /-- `org.json` takes every object that `serde_json` takes, and reads JSON
  like the others where it takes it. -/
  org_serde : ∀ text value, serde text = some value → org text = (some value).filter Json.isObject
  org_js : ∀ text value, js text = some value →
    org text = none ∨ org text = (some value).filter Json.isObject
  js_empty : js "" = none
  org_empty : org "" = none
  /-- Small integers are the same to all, if `serde_json` takes them for integers. -/
  small : ∀ n k, integerOf n = some k → 0 ≤ k → k ≤ maxSafeInteger → longValue n = k ∧
    (asI64 n = some k ∧ asU64 n = some k.toNat ∨ asI64 n = none ∧ asU64 n = none)
  zero : ∀ n, integerOf n = some 0 → intValue n = 0
  zero_literal : ∀ n, asI64 n = some 0 → integerOf n = some 0

/-- A room as all three describe it. -/
structure SearchRoom where
  uniqueId : String
  roomId : String
  nickname : String
  title : String
  viewers : Int
deriving DecidableEq

section

variable {Number : Type} (libraries : JsonLibraries Number)

/-! ## Rust -/

def searchRoom (room : LiveRoom) : SearchRoom :=
  { uniqueId := room.uniqueId
    roomId := room.roomId
    nickname := room.nickname
    title := room.title
    viewers := room.viewers }

def rustChannels (body : String) : Except DiscoveryError (List LiveRoom) :=
  liveChannelsPage libraries.asI64 libraries.asU64 libraries.serde libraries.serdeError body

/-! ## TypeScript -/

namespace TypeScript

/-- `/^[0-9]+$/`. -/
def someDigits (s : List Char) : Bool := !s.isEmpty && s.all Char.isDigit

def searchItemSchema : JsonSchema :=
  .object [("live_info", .object [("raw_data", .string anyText)])]

def liveSearchResponseSchema : JsonSchema :=
  .object
    [("status_code", .integer none none), ("status_msg", .string anyText),
      ("data", .array searchItemSchema)]

def searchRoomSchema : JsonSchema :=
  .object
    [("status", .integer none none), ("id_str", .string someDigits), ("title", .string anyText),
      ("user_count", .integer (some 0) (some maxSafeInteger)),
      ("owner", .object [("display_id", .string anyText), ("nickname", .string anyText)])]

inductive SearchError where
  | invalidJson
  | invalidResponse
  | webcastRefusal (statusCode : Int) (message : String)
  | invalidId
deriving DecidableEq

/-- A refusal without a message gets one. -/
def webcastRefusal (statusCode : Int) (message : String) : SearchError :=
  .webcastRefusal statusCode
    (if message ≠ "" then message
      else "TikTok refused the request (status_code=" ++ statusCode.repr ++ ")")

/-- The room of one item; one that is malformed is left out, and an id that
is no number throws. -/
def liveRoomOf (item : Json Number) : Except SearchError (Option SearchRoom) :=
  match ((rawData item).filter (· ≠ "")).bind libraries.js with
  | none => .ok none
  | some room =>
      if !searchRoomSchema.valid libraries.integerOf room then .ok none
      else if integerAt libraries.toJsonReaders room "status" ≠ some 2 ||
          stringAt room "id_str" = "" then .ok none
      else
        match parseId (stringAt room "id_str") with
        | none => .error .invalidId
        | some roomId =>
            if ownerText room "display_id" = "" || roomId = "" || roomId = "0" then .ok none
            else
              .ok (some
                { uniqueId := ownerText room "display_id"
                  roomId
                  nickname := ownerText room "nickname"
                  title := stringAt room "title"
                  viewers := (integerAt libraries.toJsonReaders room "user_count").getD 0 })

def liveChannels (text : String) : Except SearchError (List SearchRoom) :=
  match libraries.js text with
  | none => .error .invalidJson
  | some body =>
      if !liveSearchResponseSchema.valid libraries.integerOf body then .error .invalidResponse
      else
        match (integerAt libraries.toJsonReaders body "status_code").filter (· ≠ 0) with
        | some statusCode => .error (webcastRefusal statusCode (stringAt body "status_msg"))
        | none =>
            ((((body.get "data").bind Json.asArray).getD []).mapM (liveRoomOf libraries)).map
              fun rooms => rank (fun room => room.viewers) (rooms.filterMap id)

end TypeScript

/-! ## Android -/

namespace OrgJson

def toInt : Json Number → Option Int
  | .num n => some (libraries.intValue n)
  | .str s => libraries.parseInt s
  | _ => none

def optInt (value : Json Number) (key : String) (fallback : Int) : Int :=
  ((value.get key).bind (toInt libraries)).getD fallback

/-- An element of an array, if it is an object. -/
def asJsonObject (value : Json Number) : Option (Json Number) := (some value).filter Json.isObject

end OrgJson

namespace Android

structure LiveRoom where
  uniqueId : String
  roomId : String
  nickname : String
  title : String
  viewers : Int
  coverUrl : String
  avatarUrl : String
deriving DecidableEq

def searchRoom (room : LiveRoom) : SearchRoom :=
  { uniqueId := room.uniqueId
    roomId := room.roomId
    nickname := room.nickname
    title := room.title
    viewers := room.viewers }

inductive FeedError where
  | illegalState (message : String)
  | guestRequired
deriving DecidableEq

/-- First entry of an image's `url_list` that is not empty. -/
def firstImageUrl (image : Option (Json Number)) : String :=
  let urls := ((image.bind (·.get "url_list")).bind Json.asArray).getD []
  ((urls.map libraries.stringOf).find? (· ≠ "")).getD ""

/-- A text of the room's owner, or the text form of what is there. -/
def ownerString (room : Json Number) (key : String) : String :=
  ((OrgJson.optJsonObject room "owner").map fun owner =>
    OrgJson.optString libraries.toJsonReaders owner key "").getD ""

/-- The text under `live_info`, or the text form of what is there. -/
def rawString (item : Json Number) : String :=
  (((OrgJson.asJsonObject item).bind (OrgJson.optJsonObject · "live_info")).map fun info =>
    OrgJson.optString libraries.toJsonReaders info "raw_data" "").getD ""

/-- A room that is broadcasting and has an owner and an id. -/
def isTaken (room : Json Number) : Bool :=
  OrgJson.optLong libraries.toJsonReaders room "status" (-1) = 2 &&
    ownerString libraries room "display_id" ≠ "" &&
    isUsableRoomId (OrgJson.optString libraries.toJsonReaders room "id_str" "")

def liveRoomOf (item : Json Number) : Option LiveRoom :=
  if rawString libraries item = "" then none
  else
    (libraries.org (rawString libraries item)).bind fun room =>
      if !isTaken libraries room then none
      else
        some
          { uniqueId := ownerString libraries room "display_id"
            roomId := OrgJson.optString libraries.toJsonReaders room "id_str" ""
            nickname := ownerString libraries room "nickname"
            title := OrgJson.optString libraries.toJsonReaders room "title" ""
            viewers := OrgJson.optLong libraries.toJsonReaders room "user_count" 0
            coverUrl := firstImageUrl libraries (OrgJson.optJsonObject room "cover")
            avatarUrl := firstImageUrl libraries
              ((OrgJson.optJsonObject room "owner").bind (OrgJson.optJsonObject · "avatar_thumb")) }

def parseFeed (body : String) : Except FeedError (List LiveRoom) :=
  match libraries.org body with
  | none => .error (.illegalState "feed is not JSON")
  | some root =>
      if OrgJson.optInt libraries root "status_code" 0 = 2483 then .error .guestRequired
      else
        match (root.get "data").bind Json.asArray with
        | none => .error (.illegalState "feed has no data array")
        | some items =>
            .ok (rank (fun room => room.viewers) (items.filterMap (liveRoomOf libraries)))

end Android

/-! ## What a search should list -/

/-- A live status, an owner and a usable id, by one reading of numbers. -/
def IsLiveRoom (read : Number → Option Int) (room : Json Number) : Prop :=
  intAt read room "status" = some 2 ∧ ownerText room "display_id" ≠ "" ∧
    isUsableRoomId (stringAt room "id_str") = true

instance (read : Number → Option Int) (room : Json Number) : Decidable (IsLiveRoom read room) :=
  inferInstanceAs (Decidable (_ ∧ _ ∧ _))

def describe (room : Json Number) (viewers : Int) : SearchRoom :=
  { uniqueId := ownerText room "display_id"
    roomId := stringAt room "id_str"
    nickname := ownerText room "nickname"
    title := stringAt room "title"
    viewers }

/-- The room that an item is, if its text is JSON. -/
def expectedRoom (item : Json Number) : Option SearchRoom :=
  ((rawData item).bind libraries.js).bind fun room =>
    if IsLiveRoom libraries.integerOf room then
      some (describe room ((intAt libraries.integerOf room "user_count").getD 0))
    else none

/-- Absent, or a text. -/
def IsText (value : Json Number) (key : String) : Prop :=
  ∀ field, value.get key = some field → ∃ s, field = .str s

/-- Absent, or an integer that is not negative and safe. -/
def IsCount (value : Json Number) (key : String) : Prop :=
  ∀ field, value.get key = some field → ∃ n k, field = .num n ∧
    libraries.integerOf n = some k ∧ 0 ≤ k ∧ k ≤ maxSafeInteger

/-- The fields that are read are of their usual type. -/
structure UsualRoom (room : Json Number) : Prop where
  status : IsCount libraries room "status"
  viewers : IsCount libraries room "user_count"
  id : IsText room "id_str"
  title : IsText room "title"
  owner : ∀ owner, room.get "owner" = some owner →
    IsText owner "display_id" ∧ IsText owner "nickname"

def Usual (item : Json Number) : Prop :=
  ∀ raw room, rawData item = some raw → libraries.js raw = some room → UsualRoom libraries room

/-- No status code, or zero. -/
def Accepted (body : Json Number) : Prop :=
  body.get "status_code" = none ∨ intAt libraries.integerOf body "status_code" = some 0

def Fails {ε α : Type} (result : Except ε α) : Prop := ∀ a, result ≠ .ok a

/-- Nobody lists a refusal, and all list the same of anything else. -/
structure SearchesAgree (text : String) : Prop where
  refused : ∀ body code, libraries.js text = some body →
    intAt libraries.integerOf body "status_code" = some code → code ≠ 0 →
      Fails (rustChannels libraries text) ∧ Fails (TypeScript.liveChannels libraries text) ∧
        Fails (Android.parseFeed libraries text)
  listed : ∀ body items, libraries.js text = some body → Accepted libraries body →
    body.get "data" = some (.arr items) → (∀ item ∈ items, Usual libraries item) →
      ∃ rooms, Ranked SearchRoom.viewers (items.filterMap (expectedRoom libraries)) rooms ∧
        (rustChannels libraries text).map (·.map searchRoom) = .ok rooms ∧
        TypeScript.liveChannels libraries text = .ok rooms ∧
        (Android.parseFeed libraries text).map (·.map Android.searchRoom) = .ok rooms

/-! ## Where they do -/

/-- No integer but an integer literal. -/
def IsLiteral (value : Json Number) (key : String) : Prop :=
  ∀ n, value.get key = some (.num n) → libraries.asI64 n ≠ none

/-- An item whose room has a number for an id and integer literals, in a
text that `serde_json` takes; or no room, and a text that not even
`org.json` takes for one. -/
structure PlainItem (item : Json Number) : Prop where
  digits : ∀ room, expectedRoom libraries item = some room →
    room.roomId.toList.all Char.isDigit = true
  literal : ∀ raw room, rawData item = some raw → libraries.js raw = some room →
    expectedRoom libraries item ≠ none → libraries.serde raw ≠ none ∧
      IsLiteral libraries room "status" ∧
      (IsLiteral libraries room "user_count" ∨
        intAt libraries.integerOf room "user_count" = some 0)
  strict : ∀ raw room, rawData item = some raw → libraries.js raw = none →
    libraries.org raw = some room → Android.isTaken libraries room = false

/-- A refusal without data, or one that Rust reads as an integer literal and
Android as the one that it knows; a text that `serde_json` takes and a valid
answer in it, with no other than plain items. -/
structure PlainSearch (text : String) : Prop where
  refused : ∀ body n code, libraries.js text = some body →
    body.get "status_code" = some (.num n) → libraries.integerOf n = some code → code ≠ 0 →
      (body.get "data").bind Json.asArray = none ∨
        (libraries.serde text = none ∨ libraries.asI64 n ≠ none) ∧
          (libraries.org text = none ∨ libraries.intValue n = 2483)
  listed : ∀ body items, libraries.js text = some body → Accepted libraries body →
    body.get "data" = some (.arr items) → (∀ item ∈ items, Usual libraries item) →
      libraries.serde text ≠ none ∧
        TypeScript.liveSearchResponseSchema.valid libraries.integerOf body = true ∧
        ∀ item ∈ items, PlainItem libraries item

end

end TiktokSigner.Parity
