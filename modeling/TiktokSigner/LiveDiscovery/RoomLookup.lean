import TiktokSigner.Lib.Json

/-!
# Room lookup

`interpret_room_lookup` and `RoomLookup::from_value`, from a body that is
JSON already. A number is read by `asI64`, the way `serde_json` does it.
-/

namespace TiktokSigner.LiveDiscovery

/-- The errors of the discovery client, transport aside. -/
inductive DiscoveryError where
  | status (status : Nat)
  | decode (message : String)
  | userNotFound (handle : String)
  | noRoom (handle : String)
  | refused (message : String)
deriving DecidableEq

def isUsableRoomId (roomId : String) : Bool := roomId ≠ "" && roomId ≠ "0"

theorem ne_empty_of_usable {roomId : String} (h : isUsableRoomId roomId = true) : roomId ≠ "" := by
  rw [isUsableRoomId, Bool.and_eq_true, decide_eq_true_eq] at h
  exact h.1

/-- `2` means live. -/
def isLiveStatus (status : Int) : Bool := status = 2

structure RoomLookup where
  uniqueId : String
  roomId : String
  nickname : String
  /-- Raw `status` field. -/
  status : Int
  title : String
deriving DecidableEq

/-- The room id remains after the session ended, so the status counts, too. -/
def RoomLookup.isLive (lookup : RoomLookup) : Bool :=
  isLiveStatus lookup.status && isUsableRoomId lookup.roomId

/-- `trim_start_matches('@')`. -/
def trimStartAt (handle : String) : String := String.ofList (handle.toList.dropWhile (· = '@'))

section

variable {Number : Type} (asI64 : Number → Option Int)

def stringAt (value : Json Number) (key : String) : String :=
  ((value.get key).bind Json.asStr).getD ""

theorem stringAt_of_get {value : Json Number} {key s : String}
    (h : value.get key = some (.str s)) : stringAt value key = s := by
  rw [stringAt, h]
  rfl

theorem get_of_stringAt_ne {value : Json Number} {key : String} (h : stringAt value key ≠ "") :
    value.get key = some (.str (stringAt value key)) := by
  rw [stringAt] at h ⊢
  cases hget : value.get key with
  | none => rw [hget] at h; exact absurd rfl h
  | some field =>
    cases field with
    | str s => rfl
    | _ => rw [hget] at h; exact absurd rfl h

def intAt (value : Json Number) (key : String) : Option Int :=
  ((value.get key).bind Json.asNum).bind asI64

theorem intAt_of_num {read : Number → Option Int} {value : Json Number} {key : String} {n : Number}
    (h : value.get key = some (.num n)) : intAt read value key = read n := by
  rw [intAt, h]
  rfl

theorem exists_num_of_intAt {read : Number → Option Int} {value : Json Number}
    {key : String} {k : Int}
    (h : intAt read value key = some k) :
    ∃ n, value.get key = some (.num n) ∧ read n = some k := by
  obtain ⟨n, hn, hread⟩ := Option.bind_eq_some_iff.mp h
  obtain ⟨field, hfield, hnum⟩ := Option.bind_eq_some_iff.mp hn
  cases field with
  | num m =>
    obtain rfl : m = n := Option.some.inj hnum
    exact ⟨m, hfield, hread⟩
  | _ => cases hnum

/-- `data.user`. -/
def userAt (value : Json Number) : Option (Json Number) :=
  (value.get "data").bind fun data => data.get "user"

/-- `data.liveRoom`. -/
def liveRoomAt (value : Json Number) : Option (Json Number) :=
  (value.get "data").bind fun data => data.get "liveRoom"

/-- User and room status match; the other field is used when one is missing. -/
def lookupStatus (user : Json Number) (liveRoom : Option (Json Number)) : Int :=
  ((intAt asI64 user "status").or
    (liveRoom.bind fun liveRoom => intAt asI64 liveRoom "status")).getD 0

def RoomLookup.fromValue (value : Json Number) : Option RoomLookup :=
  ((userAt value).filter Json.isObject).map fun user =>
    { uniqueId := stringAt user "uniqueId"
      roomId := stringAt user "roomId"
      nickname := stringAt user "nickname"
      status := lookupStatus asI64 user (liveRoomAt value)
      title := ((liveRoomAt value).map fun liveRoom => stringAt liveRoom "title").getD "" }

def interpretRoomLookup (uniqueId : String) (status : Nat) (value : Json Number) :
    Except DiscoveryError RoomLookup :=
  if ¬(200 ≤ status ∧ status < 300) then .error (.status status)
  else if !(userAt value).any (!·.isNull) then .error (.userNotFound (trimStartAt uniqueId))
  else
    match RoomLookup.fromValue asI64 value with
    | none => .error (.decode ("unexpected lookup response for @" ++ uniqueId))
    | some lookup =>
        if !isUsableRoomId lookup.roomId then .error (.noRoom (trimStartAt uniqueId))
        else .ok lookup

end

end TiktokSigner.LiveDiscovery
