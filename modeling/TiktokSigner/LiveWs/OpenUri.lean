import TiktokSigner.Lib.Text
import TiktokSigner.SignCore.Uri
import TiktokSigner.LiveWs.Connection

/-!
# Opening a signed URI

`LiveConnection::open_uri` up to the string it dials: the room id is read
back from the raw query, then the URI is sanitised.
-/

namespace TiktokSigner.LiveWs

open Text

/-- The number that decimal digits stand for. -/
def decimal (digits : List Char) : Nat :=
  digits.foldl (fun n c => 10 * n + (c.toNat - 48)) 0

/-- `str::parse::<u64>`: an optional plus sign, then digits. -/
def parseU64 (value : List Char) : Option UInt64 :=
  let digits := (stripPrefix ['+'] value).getD value
  if digits ≠ [] ∧ digits.all Char.isDigit ∧ decimal digits < 2 ^ 64 then
    some (UInt64.ofNat (decimal digits))
  else none

/-- The pairs of a query as they stand, `pair.split_once('=')`. -/
def rawPairs (query : List Char) : List (List Char × List Char) :=
  (query.splitOn '&').map fun pair => (splitOnce '=' pair).getD (pair, [])

def roomIdFromUri (uri : List Char) : Except WsError UInt64 :=
  let query := ((splitOnce '?' uri).map (·.2)).getD []
  match ((rawPairs query).find? fun pair => pair.1 == "room_id".toList).bind
      fun pair => parseU64 pair.2 with
  | some roomId => .ok roomId
  | none => .error .roomIdMissing

/-- The string that `open_uri` hands to `into_client_request`. -/
def openUri (cookies : List (String × String)) (uri : List Char) : Except WsError (List Char) :=
  if cookies = [] then .error .emptyCookies
  else (roomIdFromUri uri).map fun _ => sanitizeUri uri

theorem openUri_eq_ok {cookies : List (String × String)} {uri dialed : List Char}
    (h : openUri cookies uri = .ok dialed) : dialed = sanitizeUri uri := by
  unfold openUri at h
  split_ifs at h
  cases hroom : roomIdFromUri uri with
  | error e => simp [hroom, Except.map] at h
  | ok roomId => simpa [hroom, Except.map, eq_comm] using h

end TiktokSigner.LiveWs
