import Mathlib.Data.List.Sublists
import Mathlib.Tactic.SplitIfs

/-!
# The query of the direct socket

`Query`, `DirectSocketParams` and the presets they read, of `params.rs` and
`preset.rs`: the pairs in the order in which they are pushed, and
`encode_raw`, which writes them out without percent-encoding.
-/

namespace TiktokSigner

/-! ## Ordered pairs -/

/-- Ordered pairs with duplicates allowed. -/
abbrev Query := List (String × String)

namespace Query

def new : Query := []

/-- Add a pair without deduplication. -/
def pushRaw (q : Query) (key value : String) : Query := q ++ [(key, value)]

/-- One round of the loop of `encode_raw`. -/
def encodePair (out : String) (pair : String × String) : String :=
  (if out.isEmpty then out else out ++ "&") ++ pair.1 ++ "=" ++ pair.2

/-- `k=v&k=v`, without any encoding. -/
def encodeRaw (q : Query) : String := q.foldl encodePair ""

/-- All pairs, each after an ampersand. -/
def tail : Query → String
  | [] => ""
  | pair :: q => "&" ++ pair.1 ++ "=" ++ pair.2 ++ tail q

theorem foldl_encodePair {out : String} (hout : out ≠ "") (q : Query) :
    q.foldl encodePair out = out ++ tail q := by
  induction q generalizing out with
  | nil => rw [List.foldl_nil, tail, String.append_empty]
  | cons pair q ih =>
    have hstep : encodePair out pair = out ++ ("&" ++ pair.1 ++ "=" ++ pair.2) := by
      rw [encodePair, if_neg (by simpa using hout)]
      simp only [String.append_assoc]
    have hne : out ++ ("&" ++ pair.1 ++ "=" ++ pair.2) ≠ "" := by
      intro h
      exact hout (String.append_eq_empty_iff.mp h).1
    rw [List.foldl_cons, hstep, ih hne, tail, String.append_assoc]

theorem encodeRaw_cons (pair : String × String) (q : Query) :
    encodeRaw (pair :: q) = pair.1 ++ "=" ++ pair.2 ++ tail q := by
  have hstep : encodePair "" pair = pair.1 ++ "=" ++ pair.2 := by
    rw [encodePair, if_pos (by simp), String.empty_append]
  have hne : pair.1 ++ "=" ++ pair.2 ≠ "" := by
    intro h
    exact absurd (String.append_eq_empty_iff.mp (String.append_eq_empty_iff.mp h).1).2 (by decide)
  rw [encodeRaw, List.foldl_cons, hstep, foldl_encodePair hne]

theorem tail_append (q q' : Query) : tail (q ++ q') = tail q ++ tail q' := by
  induction q with
  | nil => rw [List.nil_append, tail, String.empty_append]
  | cons pair q ih => rw [List.cons_append, tail, ih, tail, ← String.append_assoc]

theorem encodeRaw_append {q : Query} (hq : q ≠ []) (q' : Query) :
    encodeRaw (q ++ q') = encodeRaw q ++ tail q' := by
  cases q with
  | nil => exact absurd rfl hq
  | cons pair q =>
    rw [List.cons_append, encodeRaw_cons, encodeRaw_cons, tail_append]
    simp only [String.append_assoc]

/-- The characters of the tail, without building it. -/
def size : Query → Nat
  | [] => 0
  | pair :: q => pair.1.length + pair.2.length + 2 + size q

theorem length_tail (q : Query) : (tail q).length = size q := by
  induction q with
  | nil => rfl
  | cons pair q ih =>
    have hamp : "&".length = 1 := rfl
    have heq : "=".length = 1 := rfl
    simp only [tail, String.length_append, hamp, heq, ih, size]
    omega

theorem length_encodeRaw {q : Query} (hq : q ≠ []) : (encodeRaw q).length + 1 = size q := by
  cases q with
  | nil => exact absurd rfl hq
  | cons pair q =>
    have heq : "=".length = 1 := rfl
    have htail := length_tail q
    rw [encodeRaw_cons]
    simp only [String.length_append, heq, htail, size]
    omega

/-- A query that drops pairs is shorter. -/
theorem size_lt_of_sublist {q q' : Query} (h : q.Sublist q') (hne : q ≠ q') :
    size q < size q' := by
  induction h with
  | slnil => exact absurd rfl hne
  | @cons q q' pair hsub ih =>
    have hle : size q ≤ size q' := by
      by_cases heq : q = q'
      · rw [heq]
      · exact Nat.le_of_lt (ih heq)
    simp only [size] at *
    omega
  | @cons_cons q q' pair hsub ih =>
    have hlt := ih fun heq => hne (by rw [heq])
    simp only [size] at *
    omega

/-- Dropping pairs shows in the bytes. -/
theorem encodeRaw_eq_of_sublist {q q' : Query} (h : q.Sublist q') (hq : q ≠ [])
    (heq : encodeRaw q = encodeRaw q') : q = q' := by
  by_contra hne
  have hq' : q' ≠ [] := by
    rintro rfl
    exact hq (List.sublist_nil.mp h)
  have hlt := size_lt_of_sublist h hne
  rw [← length_encodeRaw hq, ← length_encodeRaw hq', heq] at hlt
  exact absurd hlt (Nat.lt_irrefl _)

end Query

/-! ## Presets -/

structure DevicePreset where
  browserName : String
  browserVersion : String
  browserPlatform : String
deriving DecidableEq

structure LocationPreset where
  language : String
  browserLanguage : String
  tzName : String
deriving DecidableEq

structure ScreenPreset where
  width : UInt32
  height : UInt32
deriving DecidableEq

structure Preset where
  device : DevicePreset
  location : LocationPreset
  screen : ScreenPreset
deriving DecidableEq

def DevicePreset.chromeLinux : DevicePreset where
  browserName := "Mozilla"
  browserVersion := "5.0 (X11; Linux x86_64) AppleWebKit/537.36 (KHTML, like Gecko) " ++
    "Chrome/131.0.0.0 Safari/537.36"
  browserPlatform := "Linux x86_64"

def LocationPreset.usEast : LocationPreset where
  language := "en"
  browserLanguage := "en-US"
  tzName := "America/New_York"

def ScreenPreset.fhd : ScreenPreset where
  width := 1920
  height := 1080

/-! ## The parameters -/

/-- Who the client claims to be in the room. -/
inductive Identity where
  | audience
  | anchor
deriving DecidableEq

def Identity.asStr : Identity → String
  | audience => "audience"
  | anchor => "anchor"

/-- Frame compression the socket negotiates in its query. -/
inductive Compression where
  | gzip
  | none
deriving DecidableEq

/-- `none` when the parameter is left out. -/
def Compression.asQueryValue : Compression → Option String
  | gzip => some "gzip"
  | none => Option.none

def heartbeatDurationMs : String := "10000"

structure DirectSocketParams where
  roomId : String
  deviceId : String
  compress : Compression
  identity : Identity
  heartbeatDuration : String

namespace DirectSocketParams

/-- `randomDeviceId` is what the generator gave. -/
def new (randomDeviceId roomId : String) : DirectSocketParams where
  roomId := roomId
  deviceId := randomDeviceId
  compress := .gzip
  identity := .audience
  heartbeatDuration := heartbeatDurationMs

/-- The query, in the SDK's order. -/
def build (params : DirectSocketParams) (preset : Preset) : Query :=
  let d := preset.device
  let l := preset.location
  let s := preset.screen
  let q := Query.new
    |>.pushRaw "version_code" "180800"
    |>.pushRaw "device_platform" "web"
    |>.pushRaw "cookie_enabled" "true"
    |>.pushRaw "screen_width" s.width.toNat.repr
    |>.pushRaw "screen_height" s.height.toNat.repr
    |>.pushRaw "browser_language" l.browserLanguage
    |>.pushRaw "browser_platform" d.browserPlatform
    |>.pushRaw "browser_name" d.browserName
    |>.pushRaw "browser_version" d.browserVersion
    |>.pushRaw "browser_online" "true"
    |>.pushRaw "tz_name" l.tzName
    |>.pushRaw "app_name" "tiktok_web"
    |>.pushRaw "sup_ws_ds_opt" "1"
    |>.pushRaw "update_version_code" "2.0.0"
  let q :=
    match params.compress.asQueryValue with
    | some compress => q.pushRaw "compress" compress
    | none => q
  q
    |>.pushRaw "webcast_language" l.language
    |>.pushRaw "aid" "1988"
    |>.pushRaw "live_id" "12"
    |>.pushRaw "version_code" "270000"
    |>.pushRaw "app_language" l.language
    |>.pushRaw "ws_direct" "1"
    |>.pushRaw "client_enter" "1"
    |>.pushRaw "room_id" params.roomId
    |>.pushRaw "identity" params.identity.asStr
    |>.pushRaw "last_rtt" "-1"
    |>.pushRaw "heartbeat_duration" params.heartbeatDuration
    |>.pushRaw "resp_content_type" "protobuf"
    |>.pushRaw "did_rule" (if params.deviceId.isEmpty then "3" else "0")
    |>.pushRaw "device_id" params.deviceId

/-! The query in sections: what depends on the preset alone, the
compression, the page's config up to its heartbeat, and the SDK's tail. -/

def blockPairs (preset : Preset) : Query :=
  [("version_code", "180800"), ("device_platform", "web"), ("cookie_enabled", "true"),
    ("screen_width", preset.screen.width.toNat.repr),
    ("screen_height", preset.screen.height.toNat.repr),
    ("browser_language", preset.location.browserLanguage),
    ("browser_platform", preset.device.browserPlatform),
    ("browser_name", preset.device.browserName),
    ("browser_version", preset.device.browserVersion), ("browser_online", "true"),
    ("tz_name", preset.location.tzName), ("app_name", "tiktok_web"), ("sup_ws_ds_opt", "1"),
    ("update_version_code", "2.0.0")]

def compressPairs (compress : Compression) : Query :=
  match compress.asQueryValue with
  | some value => [("compress", value)]
  | none => []

def languagePairs (language : String) : Query :=
  [("webcast_language", language), ("aid", "1988"), ("live_id", "12"),
    ("version_code", "270000"), ("app_language", language), ("ws_direct", "1"),
    ("client_enter", "1")]

def roomPairs (params : DirectSocketParams) : Query :=
  [("room_id", params.roomId), ("identity", params.identity.asStr), ("last_rtt", "-1")]

def tailPairs (params : DirectSocketParams) : Query :=
  [("heartbeat_duration", params.heartbeatDuration), ("resp_content_type", "protobuf"),
    ("did_rule", if params.deviceId.isEmpty then "3" else "0"), ("device_id", params.deviceId)]

theorem build_eq (params : DirectSocketParams) (preset : Preset) :
    params.build preset =
      blockPairs preset ++ (compressPairs params.compress ++
        (languagePairs preset.location.language ++ (roomPairs params ++ tailPairs params))) := by
  cases hcompress : params.compress <;>
    simp only [build, hcompress, compressPairs, Compression.asQueryValue, Query.pushRaw, Query.new,
      blockPairs, languagePairs, roomPairs, tailPairs, List.cons_append, List.nil_append]

end DirectSocketParams

end TiktokSigner
