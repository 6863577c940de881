import TiktokSigner.Lib.Ranking
import TiktokSigner.LiveDiscovery.RoomLookup

/-!
# Live search

`interpret_live_search` and `live_channels_page`, from the body on. Each
item nests its room as a JSON text, which the same `parse` reads.
-/

namespace TiktokSigner.LiveDiscovery

structure LiveRoom where
  uniqueId : String
  roomId : String
  nickname : String
  title : String
  viewers : Nat
deriving DecidableEq

section

variable {Number : Type} (asI64 : Number → Option Int) (asU64 : Number → Option Nat)
  (parse : String → Option (Json Number)) (parseError : String → String)

/-- `live_info.raw_data`, if it is a text. -/
def rawData (item : Json Number) : Option String :=
  ((item.get "live_info").bind (·.get "raw_data")).bind Json.asStr

/-- A text of the room's owner. -/
def ownerText (room : Json Number) (key : String) : String :=
  ((room.get "owner").map (stringAt · key)).getD ""

/-- The room of one item; an unrecognized status is skipped rather than
assumed to be broadcasting. -/
def liveRoomOf (item : Json Number) : Option LiveRoom :=
  (rawData item).bind fun raw => (parse raw).bind fun room =>
    if intAt asI64 room "status" ≠ some 2 then none
    else if ownerText room "display_id" = "" || !isUsableRoomId (stringAt room "id_str") then none
    else
      some
        { uniqueId := ownerText room "display_id"
          roomId := stringAt room "id_str"
          nickname := ownerText room "nickname"
          title := stringAt room "title"
          viewers := (((room.get "user_count").bind Json.asNum).bind asU64).getD 0 }

def interpretLiveSearchValue (value : Json Number) : Except DiscoveryError (List LiveRoom) :=
  match (intAt asI64 value "status_code").filter (· ≠ 0) with
  | some statusCode =>
      let message := ((value.get "status_msg").bind Json.asStr).getD "request refused"
      .error (.refused ("live search status_code=" ++ statusCode.repr ++ ": " ++ message))
  | none =>
      match (value.get "data").bind Json.asArray with
      | none => .error (.decode "live search has no data array")
      | some items => .ok (items.filterMap (liveRoomOf asI64 asU64 parse))

def interpretLiveSearch (body : String) : Except DiscoveryError (List LiveRoom) :=
  match parse body with
  | none => .error (.decode (parseError body))
  | some value => interpretLiveSearchValue asI64 asU64 parse value

/-- Most watched first. -/
def liveChannelsPage (body : String) : Except DiscoveryError (List LiveRoom) :=
  (interpretLiveSearch asI64 asU64 parse parseError body).map
    (Ranking.rank fun room => room.viewers)

end

end TiktokSigner.LiveDiscovery
