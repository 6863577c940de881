import TiktokSigner.Android.LiveSessionManager
import TiktokSigner.Android.EventsRepository
import TiktokSigner.Android.SupertonicSpeaker
import TiktokSigner.Android.PointsConfig
import TiktokSigner.Lib.Reports
import TiktokSigner.Lib.Tables
import Mathlib.Data.Rat.Floor

/-!
# `PointsRepository`

The balances of the viewers and what they earned under each category, in two
tables. `award` and `adjust` read the configuration and then apply an amount
in a transaction; `reset` is a transaction too. Amounts are exact. A migration
from the file of an older version is not one of the operations: the tables
start empty.
-/

namespace TiktokSigner.Android

open Parity.Android (Category)
open SupertonicSpeaker (isBlank)

/-! ## `PointsEngine` -/

namespace PointsEngine

def positiveOrOne (value : ℚ) : ℚ := if 0 < value then value else 1

def delta (event : Parity.Android.LiveEvent) (config : PointsConfig ℚ) : ℚ :=
  if event.user = "" then 0
  else
    match event.category with
    | .chat => if config.pointsPerChatEnabled then config.pointsPerChat else 0
    | .gift =>
        if !config.pointsPerCoinEnabled then 0
        else positiveOrOne event.diamonds * config.pointsPerCoin
    | .like =>
        if !config.pointsPerLikeEnabled then 0
        else positiveOrOne event.count * config.pointsPerLike
    | .follow => if config.pointsPerFollowEnabled then config.pointsPerFollow else 0
    | .share => if config.pointsPerShareEnabled then config.pointsPerShare else 0
    | .join => if config.pointsPerJoinEnabled then config.pointsPerJoin else 0
    | .member | .emote | .social | .room | .unknown => 0

/-- `toInt`: towards zero, and the nearest bound outside of `Int`. -/
def toInt (value : ℚ) : Int32 :=
  Int32.ofInt (max (-2147483648) (min 2147483647 (value.num.tdiv value.den)))

def level (total : ℚ) (config : PointsConfig ℚ) : Int32 :=
  max (toInt (total / max config.pointsPerLevel minLevel)) 0 + 1

end PointsEngine

/-! ## The tables -/

/-- A row of `viewers`, without its key. -/
structure Viewer where
  nickname : String
  points : ℚ
  level : Int32
  updatedAt : Int64
deriving DecidableEq

structure Database where
  viewers : KeyedTable String Viewer
  /-- The amounts, by the user and the category. -/
  earnings : KeyedTable (String × String) ℚ

/-- `name`. -/
def categoryName : Category → String
  | .chat => "CHAT"
  | .emote => "EMOTE"
  | .gift => "GIFT"
  | .like => "LIKE"
  | .follow => "FOLLOW"
  | .share => "SHARE"
  | .social => "SOCIAL"
  | .join => "JOIN"
  | .member => "MEMBER"
  | .room => "ROOM"
  | .unknown => "UNKNOWN"

namespace Database

def empty : Database := ⟨KeyedTable.empty, KeyedTable.empty⟩

/-- `WHERE :id IS NULL OR key=:id`. -/
def selects (id : Option String) (key : String) : Bool :=
  match id with
  | none => true
  | some id => decide (key = id)

/-- The queries `reset` and `resetEarnings`. -/
def reset (db : Database) (id : Option String) : Database where
  viewers := db.viewers.update (selects id) fun viewer => { viewer with points := 0, level := 1 }
  earnings := db.earnings.delete fun key => selects id key.1

/-! ## `PointsRepository` -/

section

variable (db : Database) (now : Int64)

/-- The transaction of `apply`. -/
def apply (id nickname : String) (amount : ℚ) (category : String) (cfg : PointsConfig ℚ) :
    Database × Award ℚ :=
  let current := db.viewers.find id
  let old := (current.map Viewer.points).getD 0
  let total := max (old + amount) 0
  let delta := total - old
  let level := PointsEngine.level total cfg
  let nickname := if nickname = "" then (current.map Viewer.nickname).getD "" else nickname
  let previous := (db.earnings.find (id, category)).getD 0
  (⟨db.viewers.upsert id ⟨nickname, total, level, now⟩,
    db.earnings.upsert (id, category) (previous + delta)⟩, ⟨id, delta, total, level⟩)

def award (event : Parity.Android.LiveEvent) (cfg : PointsConfig ℚ) : Database × Option (Award ℚ) :=
  let delta := PointsEngine.delta event cfg
  if delta = 0 ∨ isBlank event.user then (db, none)
  else
    let (db, award) := db.apply now event.user event.nickname delta (categoryName event.category) cfg
    (db, some award)

/-- The handle that `adjust` makes of what was entered. -/
def handle (uniqueId : String) : String :=
  removeAt (String.ofList (Text.trim isWhitespace uniqueId.toList))

/-- An exact amount is finite. -/
def adjust (uniqueId : String) (amount : ℚ) (cfg : PointsConfig ℚ) :
    Database × Option (Award ℚ) :=
  let id := handle uniqueId
  if isBlank id ∨ amount = 0 then (db, none)
  else
    let (db, award) := db.apply now id "" amount "ADJUSTMENT" cfg
    (db, some award)

end

/-- A call; the first two read the configuration and the clock. -/
inductive Operation where
  | award (event : Parity.Android.LiveEvent) (cfg : PointsConfig ℚ) (now : Int64)
  | adjust (uniqueId : String) (amount : ℚ) (cfg : PointsConfig ℚ) (now : Int64)
  | reset (id : Option String)

def step (db : Database) : Operation → Database × Option (Award ℚ)
  | .award event cfg now => db.award now event cfg
  | .adjust uniqueId amount cfg now => db.adjust now uniqueId amount cfg
  | .reset id => (db.reset id, none)

/-- The viewer that an operation is on; a reset may be on all of them. -/
def Operation.target : Operation → Option String
  | .award event _ _ => some event.user
  | .adjust uniqueId _ _ _ => some (handle uniqueId)
  | .reset id => id

/-- The state after any operations on the new database. -/
def after (ops : List Operation) : Database := Reports.after step empty ops

end Database

end TiktokSigner.Android
