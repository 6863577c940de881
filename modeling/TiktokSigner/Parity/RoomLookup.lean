import Mathlib
import TiktokSigner.Lib.JsonSchema
import TiktokSigner.LiveDiscovery.RoomLookup

/-!
# Four room lookups

One lookup response, four verdicts: `interpret_room_lookup`, the Java
`RoomLookupProbe`, the TypeScript `Discovery` and Android's. They take the
room and its status from the same two objects, but read them by the rules
of four JSON libraries: a status that is no integer literal, and a room id
that is no text, is a number to some and nothing to others.
-/

namespace TiktokSigner.Parity

open LiveDiscovery

/-! ## Reading numbers -/

/-- The values of a JSON tree as four libraries read them. -/
structure JsonReaders (Number : Type) where
  /-- `serde_json`: an integer literal that fits. -/
  asI64 : Number → Option Int
  asU64 : Number → Option Nat
  /-- JavaScript: the number, if it is an integer. -/
  integerOf : Number → Option Int
  /-- Jackson: the value of an integral number. -/
  integral : Number → Option Int
  /-- `org.json`: `Number.longValue`, `Number.intValue`. -/
  longValue : Number → Int
  intValue : Number → Int
  /-- `(long) Double.parseDouble(text)`, which throws or has a value. -/
  parseLong : String → Option Int
  parseInt : String → Option Int
  /-- The text form of a value that is present. -/
  stringOf : Json Number → String
  stringOf_str : ∀ s, stringOf (.str s) = s

/-- The libraries on small integers; the text of a value that is not a
scalar is left out. -/
def smallIntegers : JsonReaders Int where
  asI64 n := if -2 ^ 63 ≤ n ∧ n < 2 ^ 63 then some n else none
  asU64 n := if 0 ≤ n ∧ n < 2 ^ 64 then some n.toNat else none
  integerOf := some
  integral := some
  longValue n := n.bmod (2 ^ 64)
  intValue n := n.bmod (2 ^ 32)
  parseLong s := s.toInt?
  parseInt s := s.toInt?
  stringOf
    | .str s => s
    | .num n => n.repr
    | .bool b => if b then "true" else "false"
    | .null => "null"
    | _ => ""
  stringOf_str _ := rfl

def maxSafeInteger : Int := 9007199254740991

section

variable {Number : Type} (readers : JsonReaders Number)

/-! ## `org.json` on Android -/

namespace OrgJson

def optJsonObject (value : Json Number) (key : String) : Option (Json Number) :=
  (value.get key).filter Json.isObject

def optString (value : Json Number) (key fallback : String) : String :=
  ((value.get key).map readers.stringOf).getD fallback

def toLong : Json Number → Option Int
  | .num n => some (readers.longValue n)
  | .str s => readers.parseLong s
  | _ => none

def optLong (value : Json Number) (key : String) (fallback : Int) : Int :=
  ((value.get key).bind (toLong readers)).getD fallback

end OrgJson

/-! ## Verdicts -/

inductive Verdict where
  | live (room : String)
  | offline
  | noRoom
  | userNotFound
  | undecided
deriving DecidableEq

/-- Where one says that a room is live, the others say so or do not decide. -/
def NeverContradict (verdicts : List Verdict) : Prop :=
  ∀ room, .live room ∈ verdicts → ∀ verdict ∈ verdicts,
    verdict = .undecided ∨ verdict = .live room

/-! ## Rust -/

def rustVerdict (handle : String) (status : Nat) (body : Json Number) : Verdict :=
  match interpretRoomLookup readers.asI64 handle status body with
  | .ok lookup => if lookup.isLive then .live lookup.roomId else .offline
  | .error (.noRoom _) => .noRoom
  | .error (.userNotFound _) => .userNotFound
  | .error _ => .undecided

/-! ## Java -/

namespace Java

/-- A character of a username. -/
def isHandleChar (c : Char) : Bool := c.isAlphanum || c == '.' || c == '_'

/-- `UniqueId.normalize`, which throws or has a handle. -/
def normalize (input : String) : Option String :=
  let trimmed := (input.toList.dropWhile (·.toNat ≤ 32)).rdropWhile (·.toNat ≤ 32)
  let id := if trimmed.head? = some '@' then trimmed.tail else trimmed
  if id ≠ [] ∧ id.length ≤ 24 ∧ id.all isHandleChar then some (String.ofList id) else none

def isIntegral (value : Json Number) : Option Int := value.asNum.bind readers.integral

/-- `asLong` of an integral number: the low 64 bits. -/
def asLong (n : Int) : Int := n.bmod (2 ^ 64)

/-- Absent or textual. -/
def textual (value : Option (Json Number)) (key : String) : Bool :=
  (value.bind (·.get key)).all fun field => field.asStr.isSome

/-- The checks of `RoomLookupProbe.parse` before the status. -/
def checked (id : String) (root : Json Number) : Bool :=
  let user := userAt root
  let room := liveRoomAt root
  root.isObject &&
    (root.get "status_code").all (fun code => (isIntegral readers code).any (asLong · = 0)) &&
    (root.get "captcha").isNone && (root.get "challenge").isNone &&
    (root.get "verify_center_decision_conf").isNone &&
    user.any Json.isObject && room.all (fun room => room.isNull || room.isObject) &&
    textual user "uniqueId" && textual user "nickname" && textual room "title" &&
    (user.bind (·.get "uniqueId")).all (fun uniqueId => uniqueId.asStr = some id)

/-- The status of the user, if it has one, else that of the room. -/
def statusOf (root : Json Number) : Option Int :=
  let user := (userAt root).bind (·.get "status")
  let room := (liveRoomAt root).bind (·.get "status")
  ((user.or room).bind (isIntegral readers)).filter fun value =>
    (-2 ^ 31 ≤ value && value < 2 ^ 31) && (value = 0 || value = 2 || value = 4)

def isDigits (s : String) : Bool := s ≠ "" && s.toList.all Char.isDigit

def roomIdOf (root : Json Number) : Option String :=
  match (userAt root).bind (·.get "roomId") with
  | none | some .null => some ""
  | some (.str s) => if s = "" || isDigits s then some s else none
  | some (.num n) =>
      ((readers.integral n).filter fun n => 0 ≤ n && n ≤ maxSafeInteger).map Int.repr
  | some _ => none

inductive PresenceStatus where
  | live
  | offline
  | unknown
deriving DecidableEq

structure LivePresence where
  uniqueId : String
  roomId : String := ""
  nickname : String := ""
  title : String := ""
  status : PresenceStatus := .unknown
deriving DecidableEq

/-- `RoomLookupProbe.parse`; `none` where the handle is refused. -/
def parse (input : String) (httpStatus : Nat) (root : Json Number) : Option LivePresence :=
  (normalize input).map fun id =>
    if httpStatus < 200 ∨ 300 ≤ httpStatus then { uniqueId := id }
    else if !checked readers id root then { uniqueId := id }
    else
      match statusOf readers root, roomIdOf readers root with
      | some value, some roomId =>
          { uniqueId := id
            roomId
            nickname := ((userAt root).map (stringAt · "nickname")).getD ""
            title := ((liveRoomAt root).map (stringAt · "title")).getD ""
            status :=
              if value = 2 && roomId ≠ "" && roomId ≠ "0" then .live else .offline }
      | _, _ => { uniqueId := id }

def verdict (input : String) (httpStatus : Nat) (root : Json Number) : Verdict :=
  match parse readers input httpStatus root with
  | none => .undecided
  | some presence =>
      match presence.status with
      | .live => .live presence.roomId
      | .offline => .offline
      | .unknown => .undecided

end Java

/-! ## TypeScript -/

namespace TypeScript

/-- `/^[0-9]*$/`. -/
def digits (s : List Char) : Bool := s.all Char.isDigit

def anyText (_ : List Char) : Bool := true

def roomLookupResponseSchema : JsonSchema :=
  .object
    [("data", .object
      [("user", .object
          [("uniqueId", .string anyText), ("roomId", .string digits), ("nickname", .string anyText),
            ("status", .integer none none)]),
        ("liveRoom", .object [("status", .integer none none), ("title", .string anyText)])])]

def parseId (value : String) : Option String :=
  if value ≠ "" ∧ value.toList.all Char.isDigit then some value else none

def integerAt (value : Json Number) (key : String) : Option Int :=
  ((value.get key).bind Json.asNum).bind readers.integerOf

def statusOf (user : Json Number) (liveRoom : Option (Json Number)) : Int :=
  ((integerAt readers user "status").or
    (liveRoom.bind fun liveRoom => integerAt readers liveRoom "status")).getD 0

structure RoomLookup where
  uniqueId : String
  roomId : String
  nickname : String
  status : Int
  title : String
  isLive : Bool
deriving DecidableEq

def strip (uniqueId : String) : String :=
  if uniqueId.toList.head? = some '@' then String.ofList uniqueId.toList.tail else uniqueId

/-- `Discovery.roomLookup` of a valid answer; `none` where it throws. -/
def roomLookup (uniqueId : String) (httpStatus : Nat) (body : Json Number) : Option RoomLookup :=
  if ¬(200 ≤ httpStatus ∧ httpStatus < 300) then none
  else if !roomLookupResponseSchema.valid readers.integerOf body then none
  else
    (userAt body).bind fun user =>
      let status := statusOf readers user (liveRoomAt body)
      let raw := stringAt user "roomId"
      (if raw = "" then some "" else parseId raw).map fun roomId =>
        { uniqueId := ((user.get "uniqueId").bind Json.asStr).getD (strip uniqueId)
          roomId
          nickname := stringAt user "nickname"
          status
          title := ((liveRoomAt body).map (stringAt · "title")).getD ""
          isLive := status = 2 && roomId ≠ "" && roomId ≠ "0" }

def verdict (uniqueId : String) (httpStatus : Nat) (body : Json Number) : Verdict :=
  match roomLookup readers uniqueId httpStatus body with
  | none => .undecided
  | some lookup =>
      if lookup.isLive then .live lookup.roomId
      else if isUsableRoomId lookup.roomId then .offline
      else .noRoom

end TypeScript

/-! ## Android -/

namespace Android

structure RoomLookup where
  uniqueId : String
  roomId : String
  nickname : String
  status : Int
  title : String
deriving DecidableEq

def RoomLookup.isLive (room : RoomLookup) : Bool :=
  room.roomId ≠ "" && room.roomId ≠ "0" && room.status = 2

def RoomLookup.hasRoom (room : RoomLookup) : Bool := room.roomId ≠ "" && room.roomId ≠ "0"

inductive LookupResult where
  | found (room : RoomLookup)
  | userNotFound (handle : String)
  | noRoom (handle : String)
  | decodeError (detail : String)
deriving DecidableEq

/-- `handle.trim().trimStart('@')`. -/
def clean (handle : String) : String :=
  trimStartAt (String.ofList
    ((handle.toList.dropWhile Char.isWhitespace).rdropWhile Char.isWhitespace))

def statusOf (user : Json Number) (liveRoom : Option (Json Number)) : Int :=
  OrgJson.optLong readers user "status"
    ((liveRoom.map fun liveRoom => OrgJson.optLong readers liveRoom "status" 0).getD 0)

def parseRoomLookup (handle : String) (body : Json Number) : LookupResult :=
  if !body.isObject then .decodeError "response is not JSON"
  else
    let data := OrgJson.optJsonObject body "data"
    match data.bind fun data => OrgJson.optJsonObject data "user" with
    | none => .userNotFound (clean handle)
    | some user =>
        let liveRoom := data.bind fun data => OrgJson.optJsonObject data "liveRoom"
        let room : RoomLookup :=
          { uniqueId := OrgJson.optString readers user "uniqueId" ""
            roomId := OrgJson.optString readers user "roomId" ""
            nickname := OrgJson.optString readers user "nickname" ""
            status := statusOf readers user liveRoom
            title := (liveRoom.map fun liveRoom =>
              OrgJson.optString readers liveRoom "title" "").getD "" }
        if room.uniqueId = "" then .decodeError "lookup has no uniqueId"
        else if !room.hasRoom then .noRoom (clean handle)
        else .found room

def verdict (handle : String) (body : Json Number) : Verdict :=
  match parseRoomLookup readers handle body with
  | .found room => if room.isLive then .live room.roomId else .offline
  | .userNotFound _ => .userNotFound
  | .noRoom _ => .noRoom
  | .decodeError _ => .undecided

end Android

/-- The verdicts on one answer. -/
def verdicts (handle : String) (status : Nat) (body : Json Number) : List Verdict :=
  [rustVerdict readers handle status body, Java.verdict readers handle status body,
    TypeScript.verdict readers handle status body, Android.verdict readers handle body]

end

end TiktokSigner.Parity
