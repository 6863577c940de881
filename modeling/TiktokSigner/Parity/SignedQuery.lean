import TiktokSigner.Lib.Record
import TiktokSigner.Lib.Text
import TiktokSigner.SignCore.DirectSocket

/-!
# The signed query in three languages

`DirectSocketParams::build(..).encode_raw()` in Rust, `socketQuery` of
`player.ts` and `DirectSocketUrlBuilder.rawUrl` in Java write the query of
the direct socket, which is signed byte for byte.

TypeScript merges objects and drops empty values; Rust and Java push every
pair. So the TypeScript query is the Rust query without the pairs that have
no value (`queryPairs_eq`).
-/

namespace TiktokSigner.Parity

open Record DirectSocketParams

/-! ## TypeScript -/

namespace TypeScript

inductive JsValue where
  | undefined
  | string (s : String)
  | number (n : Nat)
deriving DecidableEq

namespace JsValue

def isQueryValue : JsValue → Bool
  | undefined => false
  | string _ | number _ => true

def truthy : JsValue → Bool
  | undefined => false
  | string s => s ≠ ""
  | number n => n ≠ 0

/-- `String(value)`. -/
def text : JsValue → String
  | undefined => "undefined"
  | string s => s
  | number n => n.repr

/-- What `strip` and `withDefaults` let through. -/
def kept (v : JsValue) : Bool := v.isQueryValue && v ≠ string ""

end JsValue

open JsValue

/-- An object: its properties in the order of their creation (none of the
names is an array index). -/
abbrev QueryRecord := List (String × JsValue)

/-- A property, `undefined` if the object has none of that name. -/
def prop (o : QueryRecord) (name : String) : JsValue := (get? o name).getD undefined

structure BrowserBlockOptions where
  userAgent : String
  screenWidth : Nat
  screenHeight : Nat
  browserLanguage : String
  browserPlatform : String
  tzName : String

/-- `userAgent.replace(/^Mozilla\//, '')`. -/
def withoutMozilla (userAgent : String) : String :=
  ((Text.stripPrefix "Mozilla/".toList userAgent.toList).map String.ofList).getD userAgent

def browserBlock (o : BrowserBlockOptions) : QueryRecord :=
  [("version_code", string "180800"),
    ("device_platform", string "web"),
    ("cookie_enabled", string "true"),
    ("screen_width", string o.screenWidth.repr),
    ("screen_height", string o.screenHeight.repr),
    ("browser_language", string o.browserLanguage),
    ("browser_platform", string o.browserPlatform),
    ("browser_name", string "Mozilla"),
    ("browser_version", string (withoutMozilla o.userAgent)),
    ("browser_online", string "true"),
    ("tz_name", string o.tzName)]

def excluded : List String :=
  ["socketHost", "host", "fetchBeforeWsSuccess", "debug", "filterByRoomId"]

def Player.strip (props : QueryRecord) : QueryRecord :=
  props.filter fun p => !excluded.contains p.1 && p.2.kept

def withDefaults (props block : QueryRecord) : QueryRecord :=
  let didRule := prop props "didRule"
  let deviceId := prop props "deviceId"
  let rest := without (without props "didRule") "deviceId"
  let appLanguage := prop rest "appLanguage"
  let merged := spread (spread block (Player.strip rest))
    [("supWsDsOpt", string "1"),
      ("respContentType", string "protobuf"),
      ("didRule", if didRule.isQueryValue then didRule
        else if deviceId.truthy then number 0 else number 3),
      ("deviceId", if deviceId.isQueryValue then deviceId else string ""),
      ("webcastLanguage", if appLanguage.isQueryValue then appLanguage else string "")]
  merged.filter fun p => p.2.kept

/-- `\s` of a regular expression. -/
def isSpace (c : Char) : Bool :=
  let n := c.toNat
  (9 ≤ n && n ≤ 13) || n = 0x20 || n = 0xa0 || n = 0x1680 || (0x2000 ≤ n && n ≤ 0x200a) ||
    n = 0x2028 || n = 0x2029 || n = 0x202f || n = 0x205f || n = 0x3000 || n = 0xfeff

/-- `replace(/\s+/g, '_')`; `inRun` while a run is being replaced. -/
def underscoreSpaces (inRun : Bool) : List Char → List Char
  | [] => []
  | c :: name =>
      if isSpace c then
        if inRun then underscoreSpaces true name else '_' :: underscoreSpaces true name
      else c :: underscoreSpaces false name

/-- camelCase to snake_case. -/
def snakeCase (key : String) : String :=
  let name := key.toList.flatMap fun c => if c.isUpper then ['_', c.toLower] else [c]
  let name := (underscoreSpaces false name).filter fun c => c.isAlphanum || c = '_'
  String.ofList (name.map Char.toLower)

def serialize (params : QueryRecord) : String :=
  params.foldl
    (fun acc p => acc ++ (if acc = "" then "" else "&") ++ snakeCase p.1 ++ "=" ++ p.2.text) ""

structure SocketConfigOptions where
  roomId : String
  deviceId : String
  identity : String
  compress : String
  socketHost : String
  appLanguage : String

/-- A config: its plain properties, and the route parameters if it has any. -/
structure SocketConfig where
  props : QueryRecord
  routeParamsMap : Option QueryRecord

def socketConfig (o : SocketConfigOptions) : SocketConfig where
  props :=
    [("aid", string "1988"),
      ("appName", string "tiktok_web"),
      ("liveId", string "12"),
      ("versionCode", string "270000"),
      ("appLanguage", string o.appLanguage),
      ("socketHost", string o.socketHost),
      ("wsDirect", string "1"),
      ("fetchBeforeWsSuccess", string "1"),
      ("clientEnter", string "1"),
      ("roomId", string o.roomId),
      ("identity", string o.identity),
      ("deviceId", string o.deviceId),
      ("compress", string o.compress),
      ("lastRtt", string "-1"),
      ("cursor", string ""),
      ("internalExt", string ""),
      ("historyCommentCursor", string ""),
      ("heartbeatDuration", string "10000")]
  routeParamsMap := none

/-- What `socketQuery` serializes. -/
def queryRecord (config : SocketConfig) (block : QueryRecord) : QueryRecord :=
  let appName := prop config.props "appName"
  let didRule := prop config.props "didRule"
  let rest := without (without (without config.props "appName") "didRule") "pushServer"
  let props := spread
    (spread
      (spread
        [("appName", appName),
          ("didRule", didRule),
          ("supWsDsOpt", string "1"),
          ("updateVersionCode", string "2.0.0"),
          ("compress", prop config.props "compress"),
          ("webcastLanguage", prop config.props "appLanguage")]
        block)
      (config.routeParamsMap.getD []))
    (Player.strip rest)
  withDefaults props block

def socketQuery (config : SocketConfig) (block : QueryRecord) : String :=
  serialize (queryRecord config block)

/-! Every property has one value wherever it is written (`value`), so all
the merging happens on the names. -/

def blockNames : List String :=
  ["version_code", "device_platform", "cookie_enabled", "screen_width", "screen_height",
    "browser_language", "browser_platform", "browser_name", "browser_version", "browser_online",
    "tz_name"]

def configNames : List String :=
  ["aid", "appName", "liveId", "versionCode", "appLanguage", "socketHost", "wsDirect",
    "fetchBeforeWsSuccess", "clientEnter", "roomId", "identity", "deviceId", "compress", "lastRtt",
    "cursor", "internalExt", "historyCommentCursor", "heartbeatDuration"]

/-- The browser block of a preset: that of the options with its values, the
browser's name on top. -/
def blockOf (preset : Preset) : QueryRecord :=
  set
    (browserBlock
      { userAgent := "Mozilla/" ++ preset.device.browserVersion
        screenWidth := preset.screen.width.toNat
        screenHeight := preset.screen.height.toNat
        browserLanguage := preset.location.browserLanguage
        browserPlatform := preset.device.browserPlatform
        tzName := preset.location.tzName })
    "browser_name" (string preset.device.browserName)

def identityOf : Identity → String
  | .audience => "audience"
  | .anchor => "anchor"

def compressionOf : Compression → String
  | .gzip => "gzip"
  | .none => ""

/-- The config for the same room, device, compression, identity and locale. -/
def configOf (params : DirectSocketParams) (language : String) : SocketConfig :=
  socketConfig
    { roomId := params.roomId
      deviceId := params.deviceId
      identity := identityOf params.identity
      compress := compressionOf params.compress
      socketHost := "wss://webcast-ws.tiktok.com"
      appLanguage := language }

/-- The value of a property. -/
def value (params : DirectSocketParams) (preset : Preset) : String → JsValue
  | "version_code" => string "180800"
  | "device_platform" => string "web"
  | "cookie_enabled" => string "true"
  | "screen_width" => string preset.screen.width.toNat.repr
  | "screen_height" => string preset.screen.height.toNat.repr
  | "browser_language" => string preset.location.browserLanguage
  | "browser_platform" => string preset.device.browserPlatform
  | "browser_name" => string preset.device.browserName
  | "browser_version" => string preset.device.browserVersion
  | "browser_online" => string "true"
  | "tz_name" => string preset.location.tzName
  | "aid" => string "1988"
  | "appName" => string "tiktok_web"
  | "liveId" => string "12"
  | "versionCode" => string "270000"
  | "appLanguage" => string preset.location.language
  | "webcastLanguage" => string preset.location.language
  | "socketHost" => string "wss://webcast-ws.tiktok.com"
  | "wsDirect" => string "1"
  | "fetchBeforeWsSuccess" => string "1"
  | "clientEnter" => string "1"
  | "roomId" => string params.roomId
  | "identity" => string (identityOf params.identity)
  | "deviceId" => string params.deviceId
  | "compress" => string (compressionOf params.compress)
  | "lastRtt" => string "-1"
  | "heartbeatDuration" => string "10000"
  | "supWsDsOpt" => string "1"
  | "updateVersionCode" => string "2.0.0"
  | "respContentType" => string "protobuf"
  | "didRule" => number (if params.deviceId = "" then 3 else 0)
  | _ => string ""

/-- The values before `withDefaults` has chosen the rule. -/
def valueBefore (params : DirectSocketParams) (preset : Preset) (name : String) : JsValue :=
  if name = "didRule" then undefined else value params preset name

theorem withoutMozilla_append (version : String) :
    withoutMozilla ("Mozilla/" ++ version) = version := by
  have hsplit : Text.stripPrefix "Mozilla/".toList ("Mozilla/" ++ version).toList =
      some version.toList :=
    Text.stripPrefix_eq_some.mpr (by rw [String.toList_append])
  rw [withoutMozilla, hsplit, Option.map_some, String.ofList_toList, Option.getD_some]

theorem blockOf_eq (params : DirectSocketParams) (preset : Preset) :
    blockOf preset = ofKeys (value params preset) blockNames := by
  rw [blockOf, browserBlock, withoutMozilla_append]
  rfl

theorem configOf_props (params : DirectSocketParams) (preset : Preset) :
    (configOf params preset.location.language).props =
      ofKeys (valueBefore params preset) configNames := rfl

section Merging

variable (params : DirectSocketParams) (preset : Preset)

/-- A config property that `strip` lets through. -/
def passes (name : String) : Bool :=
  !excluded.contains name && (valueBefore params preset name).kept

/-- The names after the merge, empty values included. -/
def queryNames : List String :=
  blockNames ++
    ["appName", "supWsDsOpt", "updateVersionCode", "compress", "webcastLanguage", "aid", "liveId",
      "versionCode", "appLanguage", "wsDirect", "clientEnter", "roomId", "identity", "lastRtt",
      "cursor", "internalExt", "historyCommentCursor", "heartbeatDuration", "respContentType",
      "didRule", "deviceId"]

/-- The names in what `socketQuery` hands to `withDefaults`. -/
def propsNames : List String :=
  joinKeys
    (joinKeys
      ["appName", "didRule", "supWsDsOpt", "updateVersionCode", "compress", "webcastLanguage"]
      blockNames)
    ((configNames.filter fun name => name ≠ "appName").filter (passes params preset))

theorem queryRecord_props :
    queryRecord (configOf params preset.location.language) (blockOf preset) =
      withDefaults (ofKeys (valueBefore params preset) (propsNames params preset))
        (blockOf preset) := by
  have hrest :
      without (without (without (ofKeys (valueBefore params preset) configNames) "appName")
        "didRule") "pushServer" =
      ofKeys (valueBefore params preset) (configNames.filter fun name => name ≠ "appName") := by
    simp only [without_ofKeys]
    congr 1
  have hstrip : Player.strip (ofKeys (valueBefore params preset)
      (configNames.filter fun name => name ≠ "appName")) =
      ofKeys (valueBefore params preset)
        ((configNames.filter fun name => name ≠ "appName").filter (passes params preset)) := by
    rw [Player.strip, filter_ofKeys]
    rfl
  have hblock : blockOf preset = ofKeys (valueBefore params preset) blockNames :=
    blockOf_eq params preset
  have hfirst : ([("appName", prop (ofKeys (valueBefore params preset) configNames) "appName"),
      ("didRule", prop (ofKeys (valueBefore params preset) configNames) "didRule"),
      ("supWsDsOpt", string "1"), ("updateVersionCode", string "2.0.0"),
      ("compress", prop (ofKeys (valueBefore params preset) configNames) "compress"),
      ("webcastLanguage", prop (ofKeys (valueBefore params preset) configNames) "appLanguage")] :
        QueryRecord) =
      ofKeys (valueBefore params preset)
        ["appName", "didRule", "supWsDsOpt", "updateVersionCode", "compress", "webcastLanguage"] :=
    rfl
  have hroute : (configOf params preset.location.language).routeParamsMap = none := rfl
  rw [queryRecord, configOf_props, hrest, hstrip, hfirst, hroute, Option.getD_none, spread_nil,
    propsNames, ← spread_ofKeys, ← spread_ofKeys, ← hblock]

theorem mem_propsNames (name : String) (hname : name ∈ configNames.filter fun n => n ≠ "appName")
    (hnew : name ∉ joinKeys
      ["appName", "didRule", "supWsDsOpt", "updateVersionCode", "compress", "webcastLanguage"]
      blockNames) :
    name ∈ propsNames params preset ↔ passes params preset name := by
  rw [propsNames, mem_joinKeys, or_iff_right hnew, List.mem_filter, and_iff_right hname]

theorem prop_ofKeys {val : String → JsValue} (names : List String) (name : String) :
    prop (ofKeys val names) name = if name ∈ names then val name else undefined := by
  rw [prop, get?_ofKeys]
  split_ifs <;> rfl

/-- A property that `strip` has left out if it was empty. -/
theorem prop_stripped (val : String → JsValue) (name : String) {s : String} {names : List String}
    (hval : val name = string s) (hmem : name ∈ names ↔ s ≠ "") :
    prop (ofKeys val names) name = if s = "" then undefined else string s := by
  rw [prop_ofKeys]
  by_cases hs : s = ""
  · rw [if_pos hs, if_neg fun h => hmem.mp h hs]
  · rw [if_neg hs, if_pos (hmem.mpr hs), hval]

/-- ... reads as the empty string in the end. -/
theorem string_of_stripped (s : String) :
    (if (if s = "" then undefined else string s).isQueryValue then
      (if s = "" then undefined else string s) else string "") = string s := by
  by_cases hs : s = ""
  · rw [if_pos hs, hs]
    rfl
  · rw [if_neg hs]
    rfl

theorem passes_iff {name s : String} (hname : excluded.contains name = false)
    (hval : valueBefore params preset name = string s) :
    passes params preset name ↔ s ≠ "" := by
  rw [passes, hname, hval, kept, isQueryValue]
  simp

/-- What `withDefaults` spreads over the block, values aside. -/
def plain (name : String) : Bool :=
  name ≠ "didRule" && name ≠ "deviceId" && !excluded.contains name

def keptName (name : String) : Bool := (value params preset name).kept

theorem passes_eq {name : String} (h : name ≠ "didRule") :
    passes params preset name = (!excluded.contains name && keptName params preset name) := by
  rw [passes, valueBefore, if_neg h]
  rfl

theorem filter_passes (names : List String) :
    ((names.filter fun n => n ≠ "didRule").filter fun n => n ≠ "deviceId").filter
        (passes params preset) =
      (names.filter plain).filter (keptName params preset) := by
  simp only [List.filter_filter]
  apply List.filter_congr
  intro name _
  by_cases hrule : name = "didRule"
  · simp [hrule, plain]
  · rw [passes_eq params preset hrule, plain]
    by_cases hdevice : name = "deviceId"
    · simp [hdevice]
    · simp [hrule, hdevice, Bool.and_comm]

/-- What `strip` left out before is left out in the end anyway. -/
theorem filter_passes_join (names more : List String) :
    ((joinKeys names (more.filter (passes params preset))).filter plain).filter
        (keptName params preset) =
      ((joinKeys names more).filter plain).filter (keptName params preset) := by
  have hmore : ((more.filter (passes params preset)).filter plain).filter
      (keptName params preset) = (more.filter plain).filter (keptName params preset) := by
    simp only [List.filter_filter]
    apply List.filter_congr
    intro name _
    by_cases hrule : name = "didRule"
    · simp [hrule, plain]
    · rw [passes_eq params preset hrule, plain]
      cases keptName params preset name <;> cases excluded.contains name <;> simp
  rw [filter_joinKeys plain names, filter_joinKeys plain names,
    filter_joinKeys (keptName params preset), filter_joinKeys (keptName params preset), hmore]

/-- After the merge every name stands where the query has it. -/
theorem queryNames_kept :
    (joinKeys
        (joinKeys blockNames
          (((propsNames params preset).filter plain).filter (keptName params preset)))
        ["supWsDsOpt", "respContentType", "didRule", "deviceId", "webcastLanguage"]).filter
        (keptName params preset) =
      queryNames.filter (keptName params preset) := by
  have hnames : joinKeys
      (joinKeys blockNames
        ((joinKeys
          (joinKeys
            ["appName", "didRule", "supWsDsOpt", "updateVersionCode", "compress",
              "webcastLanguage"]
            blockNames)
          (configNames.filter fun name => name ≠ "appName")).filter plain))
      ["supWsDsOpt", "respContentType", "didRule", "deviceId", "webcastLanguage"] =
      queryNames := by decide +kernel
  rw [propsNames, filter_passes_join, filter_joinKeys, filter_joinKeys _ blockNames,
    List.filter_filter]
  simp only [Bool.and_self]
  rw [← filter_joinKeys, ← filter_joinKeys, hnames]

omit params preset in
theorem ne_didRule {names : List String} {name : String}
    (hmem : name ∈ (names.filter fun n => n ≠ "didRule").filter fun n => n ≠ "deviceId") :
    name ≠ "didRule" := by
  simpa using (List.mem_filter.mp (List.mem_of_mem_filter hmem)).2

theorem without_props (names : List String) :
    without (without (ofKeys (valueBefore params preset) names) "didRule") "deviceId" =
      ofKeys (value params preset)
        ((names.filter fun n => n ≠ "didRule").filter fun n => n ≠ "deviceId") := by
  rw [without_ofKeys, without_ofKeys, ofKeys, ofKeys]
  apply List.map_congr_left
  intro name hmem
  rw [valueBefore, if_neg (ne_didRule hmem)]

/-- The query object of `socketQuery` has every name whose value is not
empty, in the order of `queryNames`. -/
theorem queryRecord_eq :
    queryRecord (configOf params preset.location.language) (blockOf preset) =
      ofKeys (value params preset) (queryNames.filter (keptName params preset)) := by
  have hrule : (prop (ofKeys (valueBefore params preset) (propsNames params preset))
      "didRule").isQueryValue = false := by
    rw [prop_ofKeys]
    split_ifs <;> rfl
  have hdevice : prop (ofKeys (valueBefore params preset) (propsNames params preset)) "deviceId" =
      if params.deviceId = "" then undefined else string params.deviceId := by
    refine prop_stripped (valueBefore params preset) "deviceId" rfl ?_
    exact (mem_propsNames params preset _ (by decide) (by decide)).trans
      (passes_iff params preset (by decide) rfl)
  have hlanguage : prop (ofKeys (value params preset)
      (((propsNames params preset).filter fun n => n ≠ "didRule").filter fun n => n ≠ "deviceId"))
      "appLanguage" =
      if preset.location.language = "" then undefined else string preset.location.language := by
    refine prop_stripped (value params preset) "appLanguage" rfl ?_
    rw [List.mem_filter, List.mem_filter, and_iff_left (by decide),
      and_iff_left (by decide)]
    exact (mem_propsNames params preset _ (by decide) (by decide)).trans
      (passes_iff params preset (by decide) rfl)
  have htail : ([("supWsDsOpt", string "1"), ("respContentType", string "protobuf"),
      ("didRule", if (if params.deviceId = "" then undefined else string params.deviceId).truthy
        then number 0 else number 3),
      ("deviceId", string params.deviceId),
      ("webcastLanguage", string preset.location.language)] : QueryRecord) =
      ofKeys (value params preset)
        ["supWsDsOpt", "respContentType", "didRule", "deviceId", "webcastLanguage"] := by
    have hvalue : value params preset "didRule" =
        if (if params.deviceId = "" then undefined else string params.deviceId).truthy
          then number 0 else number 3 := by
      change number (if params.deviceId = "" then 3 else 0) = _
      by_cases h : params.deviceId = "" <;> simp [h, truthy]
    rw [← hvalue]
    rfl
  have hstrip : Player.strip (ofKeys (value params preset)
      (((propsNames params preset).filter fun n => n ≠ "didRule").filter fun n =>
        n ≠ "deviceId")) =
      ofKeys (value params preset)
        (((propsNames params preset).filter plain).filter (keptName params preset)) := by
    rw [Player.strip, filter_ofKeys, ← filter_passes]
    congr 1
    apply List.filter_congr
    intro name hmem
    exact (passes_eq params preset (ne_didRule hmem)).symm
  rw [queryRecord_props, withDefaults, without_props, hdevice, hlanguage, hstrip, hrule,
    string_of_stripped, string_of_stripped, if_neg Bool.false_ne_true, htail,
    blockOf_eq params preset, spread_ofKeys, spread_ofKeys, filter_ofKeys]
  exact congrArg (ofKeys (value params preset)) (queryNames_kept params preset)

end Merging

/-- The pairs that `serialize` writes. -/
def queryPairs (config : SocketConfig) (block : QueryRecord) : Query :=
  (queryRecord config block).map fun p => (snakeCase p.1, p.2.text)

theorem socketQuery_eq (config : SocketConfig) (block : QueryRecord) :
    socketQuery config block = (queryPairs config block).encodeRaw := by
  rw [socketQuery, serialize, queryPairs, Query.encodeRaw, List.foldl_map]
  congr 1
  funext acc p
  rw [Query.encodePair]
  by_cases hacc : acc = ""
  · simp [hacc]
  · simp [hacc]

theorem JsValue.kept_iff {v : JsValue} (h : v ≠ undefined) : v.kept = decide (v.text ≠ "") := by
  cases v with
  | undefined => exact absurd rfl h
  | string s =>
    rw [kept, isQueryValue, text, Bool.true_and]
    exact decide_eq_decide.mpr (not_congr (string.injEq s ""▸Iff.rfl))
  | number n =>
    have hrepr : n.repr ≠ "" := Nat.repr_ne_empty
    simp [kept, isQueryValue, text, hrepr]

theorem value_ne_undefined (params : DirectSocketParams) (preset : Preset) (name : String) :
    value params preset name ≠ undefined := by
  unfold value
  split
  all_goals exact nofun

theorem queryNames_snakeCase : queryNames.map snakeCase =
    ["version_code", "device_platform", "cookie_enabled", "screen_width", "screen_height",
      "browser_language", "browser_platform", "browser_name", "browser_version", "browser_online",
      "tz_name", "app_name", "sup_ws_ds_opt", "update_version_code", "compress",
      "webcast_language", "aid", "live_id", "version_code", "app_language", "ws_direct",
      "client_enter", "room_id", "identity", "last_rtt", "cursor", "internal_ext",
      "history_comment_cursor", "heartbeat_duration", "resp_content_type", "did_rule",
      "device_id"] := by decide +kernel

theorem didRule_text (device : String) :
    (number (if device = "" then 3 else 0)).text = if device.isEmpty then "3" else "0" := by
  by_cases h : device = ""
  · rw [if_pos h, if_pos (by rw [h]; rfl)]
    decide
  · rw [if_neg h, if_neg (by simpa using h)]
    decide

/-- The TypeScript query is the Rust query without the pairs that have no
value. -/
theorem queryPairs_eq (params : DirectSocketParams) (preset : Preset)
    (hheartbeat : params.heartbeatDuration = heartbeatDurationMs) :
    queryPairs (configOf params preset.location.language) (blockOf preset) =
      (params.build preset).filter fun pair => pair.2 ≠ "" := by
  have hpairs : queryPairs (configOf params preset.location.language) (blockOf preset) =
      (queryNames.map fun name => (snakeCase name, (value params preset name).text)).filter
        fun pair => pair.2 ≠ "" := by
    have hkept : queryNames.filter (keptName params preset) =
        queryNames.filter fun name => (value params preset name).text ≠ "" := by
      apply List.filter_congr
      intro name _
      exact kept_iff (value_ne_undefined params preset name)
    rw [queryPairs, queryRecord_eq, hkept, ofKeys, List.map_map, List.filter_map]
    rfl
  have hzip : (queryNames.map fun name => (snakeCase name, (value params preset name).text)) =
      (queryNames.map snakeCase).zip
        (queryNames.map fun name => (value params preset name).text) :=
    List.zip_map'.symm
  have hsections : (queryNames.map snakeCase).zip
        (queryNames.map fun name => (value params preset name).text) =
      blockPairs preset ++ ([("compress", compressionOf params.compress)] ++
        (languagePairs preset.location.language ++ (roomPairs params ++
          ([("cursor", ""), ("internal_ext", ""), ("history_comment_cursor", "")] ++
            tailPairs params)))) := by
    have hidentity : params.identity.asStr = identityOf params.identity := by
      cases params.identity <;> rfl
    rw [queryNames_snakeCase, tailPairs, ← didRule_text, hheartbeat, roomPairs, hidentity]
    rfl
  have hcompress : [("compress", compressionOf params.compress)].filter (fun pair => pair.2 ≠ "") =
      (compressPairs params.compress).filter fun pair => pair.2 ≠ "" := by
    cases params.compress <;> rfl
  rw [hpairs, hzip, hsections, build_eq]
  simp only [List.filter_append, hcompress]
  rfl

end TypeScript

/-! ## Java -/

namespace Java

def userAgent : String :=
  "Mozilla/5.0 (X11; Linux x86_64) AppleWebKit/537.36 (KHTML, like Gecko)" ++
    " Chrome/131.0.0.0 Safari/537.36"

/-- `[1-9][0-9]*`. -/
def isRoom (room : String) : Bool :=
  match room.toList with
  | [] => false
  | c :: rest => '1' ≤ c && c ≤ '9' && rest.all Char.isDigit

/-- `[0-9]*`. -/
def isDevice (device : String) : Bool := device.toList.all Char.isDigit

/-- `none` for the `IllegalArgumentException`. -/
def rawUrl (room device : String) : Option String :=
  if !isRoom room || !isDevice device then none
  else
    some ("wss://webcast-ws.tiktok.com" ++
      "/webcast/im/ws_proxy/ws_reuse_supplement/" ++
      "?" ++
      "version_code=180800&device_platform=web&cookie_enabled=true" ++
      "&screen_width=1920&screen_height=1080&browser_language=en-US" ++
      "&browser_platform=Linux x86_64&browser_name=Mozilla&browser_version=" ++
      String.ofList (userAgent.toList.drop 8) ++
      "&browser_online=true&tz_name=America/New_York" ++
      "&app_name=tiktok_web&sup_ws_ds_opt=1&update_version_code=2.0.0&compress=gzip" ++
      "&webcast_language=en&aid=1988&live_id=12&version_code=270000&app_language=en" ++
      "&ws_direct=1&client_enter=1&room_id=" ++
      room ++
      "&identity=audience" ++
      "&last_rtt=-1&heartbeat_duration=10000&resp_content_type=protobuf&did_rule=" ++
      (if device.isEmpty then "3" else "0") ++
      "&device_id=" ++
      device)

/-- The query of a URL: what follows the first question mark. -/
def query (url : String) : Option String :=
  (Text.splitOnce '?' url.toList).map fun parts => String.ofList parts.2

theorem query_append {start : String} (hstart : '?' ∉ start.toList) (rest : String) :
    query (start ++ ("?" ++ rest)) = some rest := by
  have hsplit : Text.splitOnce '?' (start ++ ("?" ++ rest)).toList =
      some (start.toList, rest.toList) :=
    Text.splitOnce_eq_some.mpr ⟨by rw [String.toList_append, String.toList_append]; rfl, hstart⟩
  rw [query, hsplit, Option.map_some, String.ofList_toList]

/-- The browser block that `rawUrl` has in its text. -/
def preset : Preset := ⟨.chromeLinux, .usEast, .fhd⟩

end Java

/-! ## The three of them -/

/-- What Rust is given: a room, a device, a compression and an identity, the
heartbeat as `new` sets it. -/
def paramsOf (room device : String) (compress : Compression) (identity : Identity) :
    DirectSocketParams :=
  { new device room with compress := compress, identity := identity }

theorem roomPairs_tail (params : DirectSocketParams) (h : params.identity = .audience) :
    Query.tail (roomPairs params) =
      "&room_id=" ++ params.roomId ++ ("&identity=audience" ++ "&last_rtt=-1") := by
  simp [roomPairs, h, Query.tail, Identity.asStr]

theorem tailPairs_tail (params : DirectSocketParams)
    (h : params.heartbeatDuration = heartbeatDurationMs) :
    Query.tail (tailPairs params) =
      "&heartbeat_duration=10000" ++ ("&resp_content_type=protobuf" ++ ("&did_rule=" ++
        (if params.deviceId.isEmpty then "3" else "0") ++ ("&device_id=" ++ params.deviceId))) := by
  simp [tailPairs, h, heartbeatDurationMs, Query.tail]

theorem Java.query_rawUrl {room device url : String} (h : Java.rawUrl room device = some url) :
    Java.query url =
      some ((paramsOf room device .gzip .audience).build Java.preset).encodeRaw := by
  have hstart : Query.encodeRaw (blockPairs Java.preset ++ (compressPairs .gzip ++
      languagePairs "en")) =
      "version_code=180800&device_platform=web&cookie_enabled=true" ++
      "&screen_width=1920&screen_height=1080&browser_language=en-US" ++
      "&browser_platform=Linux x86_64&browser_name=Mozilla&browser_version=" ++
      String.ofList (Java.userAgent.toList.drop 8) ++
      "&browser_online=true&tz_name=America/New_York" ++
      "&app_name=tiktok_web&sup_ws_ds_opt=1&update_version_code=2.0.0&compress=gzip" ++
      "&webcast_language=en&aid=1988&live_id=12&version_code=270000&app_language=en" ++
      "&ws_direct=1&client_enter=1" := by decide +kernel
  have hrust : ((paramsOf room device .gzip .audience).build Java.preset).encodeRaw =
      Query.encodeRaw (blockPairs Java.preset ++ (compressPairs .gzip ++ languagePairs "en")) ++
        (Query.tail (roomPairs (paramsOf room device .gzip .audience)) ++
          Query.tail (tailPairs (paramsOf room device .gzip .audience))) := by
    rw [build_eq, ← Query.tail_append, ← Query.encodeRaw_append (by simp [blockPairs])]
    rfl
  have hroom : "&ws_direct=1&client_enter=1&room_id=" =
      "&ws_direct=1&client_enter=1" ++ "&room_id=" := by decide
  have hrule : "&last_rtt=-1&heartbeat_duration=10000&resp_content_type=protobuf&did_rule=" =
      "&last_rtt=-1" ++ ("&heartbeat_duration=10000" ++
        ("&resp_content_type=protobuf" ++ "&did_rule=")) := by decide
  by_cases hvalid : (!Java.isRoom room || !Java.isDevice device) = true
  · rw [Java.rawUrl, if_pos hvalid] at h
    cases h
  · rw [Java.rawUrl, if_neg hvalid, Option.some.injEq] at h
    rw [← h, hrust, hstart, roomPairs_tail _ rfl, tailPairs_tail _ rfl, hroom, hrule]
    simp only [String.append_assoc]
    rw [← String.append_assoc]
    exact Java.query_append (by decide) _

/-- The six texts of a preset that go into the query. -/
structure Filled (preset : Preset) : Prop where
  browserLanguage : preset.location.browserLanguage ≠ ""
  browserPlatform : preset.device.browserPlatform ≠ ""
  browserName : preset.device.browserName ≠ ""
  browserVersion : preset.device.browserVersion ≠ ""
  tzName : preset.location.tzName ≠ ""
  language : preset.location.language ≠ ""

/-- All three write the same bytes; Java where it builds a URL at all and
for the one preset it knows. -/
def SameSignedQuery (room device : String) (compress : Compression) (identity : Identity)
    (preset : Preset) : Prop :=
  let params := paramsOf room device compress identity
  (params.build preset).encodeRaw =
      TypeScript.socketQuery (TypeScript.configOf params preset.location.language)
        (TypeScript.blockOf preset) ∧
    (compress = .gzip → identity = .audience → preset = Java.preset →
      ∀ url, Java.rawUrl room device = some url →
        Java.query url = some (params.build preset).encodeRaw)

theorem filled_iff {params : DirectSocketParams} {preset : Preset} (hpreset : Filled preset)
    (hheartbeat : params.heartbeatDuration = heartbeatDurationMs) :
    (params.build preset).filter (fun pair => pair.2 ≠ "") = params.build preset ↔
      params.roomId ≠ "" ∧ params.deviceId ≠ "" := by
  have hblock : ∀ pair ∈ blockPairs preset, pair.2 ≠ "" := by
    simp [blockPairs, hpreset.browserLanguage, hpreset.browserPlatform, hpreset.browserName,
      hpreset.browserVersion, hpreset.tzName, Nat.repr_ne_empty]
  have hcompress : ∀ pair ∈ compressPairs params.compress, pair.2 ≠ "" := by
    cases params.compress <;> decide
  have hlanguage : ∀ pair ∈ languagePairs preset.location.language, pair.2 ≠ "" := by
    simp [languagePairs, hpreset.language]
  have hroom : (∀ pair ∈ roomPairs params, pair.2 ≠ "") ↔ params.roomId ≠ "" := by
    cases hid : params.identity <;> simp [roomPairs, hid, Identity.asStr]
  have htail : (∀ pair ∈ tailPairs params, pair.2 ≠ "") ↔ params.deviceId ≠ "" := by
    by_cases hdevice : params.deviceId = "" <;>
      simp [tailPairs, hdevice, hheartbeat, heartbeatDurationMs]
  rw [List.filter_eq_self, build_eq]
  simp only [decide_eq_true_eq, List.forall_mem_append, hroom, htail]
  exact ⟨fun h => h.2.2.2, fun h => ⟨hblock, hcompress, hlanguage, h⟩⟩

/-- Dropping empty values shows in the bytes as soon as there is one. -/
theorem encodeRaw_eq_socketQuery_iff {params : DirectSocketParams} {preset : Preset}
    (hpreset : Filled preset) (hheartbeat : params.heartbeatDuration = heartbeatDurationMs) :
    (params.build preset).encodeRaw =
        TypeScript.socketQuery (TypeScript.configOf params preset.location.language)
          (TypeScript.blockOf preset) ↔
      params.roomId ≠ "" ∧ params.deviceId ≠ "" := by
  rw [TypeScript.socketQuery_eq, TypeScript.queryPairs_eq params preset hheartbeat,
    ← filled_iff hpreset hheartbeat]
  constructor
  · intro hsame
    have hmem : ("version_code", "180800") ∈ params.build preset := by
      rw [build_eq]
      exact List.mem_append_left _ List.mem_cons_self
    have hne : (params.build preset).filter (fun pair => pair.2 ≠ "") ≠ [] :=
      List.ne_nil_of_mem (List.mem_filter.mpr ⟨hmem, by decide⟩)
    exact Query.encodeRaw_eq_of_sublist List.filter_sublist hne hsame.symm
  · intro hfilter
    rw [hfilter]

/-- The queries are one byte string unless the device id (or the room id) is
empty: TypeScript leaves an empty value out, Rust and Java send it. -/
theorem signed_query_same_iff (room device : String) (compress : Compression) (identity : Identity)
    {preset : Preset} (hpreset : Filled preset) :
    SameSignedQuery room device compress identity preset ↔ room ≠ "" ∧ device ≠ "" := by
  have hts : _ ↔ (paramsOf room device compress identity).roomId ≠ "" ∧ _ ≠ "" :=
    encodeRaw_eq_socketQuery_iff hpreset rfl
  constructor
  · intro hsame
    exact hts.mp hsame.1
  · intro hne
    refine ⟨hts.mpr hne, ?_⟩
    rintro rfl rfl rfl url hurl
    exact Java.query_rawUrl hurl

theorem Java.filled_preset : Filled Java.preset where
  browserLanguage := by decide
  browserPlatform := by decide
  browserName := by decide
  browserVersion := by decide
  tzName := by decide
  language := by decide

theorem signed_query_same_with_device :
    SameSignedQuery "7675481361573382932" "7300000000000000001" .gzip .audience Java.preset ↔
      "7675481361573382932" ≠ "" ∧ "7300000000000000001" ≠ "" :=
  signed_query_same_iff _ _ _ _ Java.filled_preset

/-- Without a device id TypeScript ends with `did_rule=3`, Rust and Java with
an empty `device_id=`. -/
theorem signed_query_differs_without_device :
    ¬∀ (room device : String) (compress : Compression) (identity : Identity) (preset : Preset),
      Filled preset → SameSignedQuery room device compress identity preset := by
  intro h
  obtain ⟨hsame, -⟩ := h "7675481361573382932" "" .gzip .audience _ Java.filled_preset
  exact ((encodeRaw_eq_socketQuery_iff Java.filled_preset rfl).mp hsame).2 rfl

end TiktokSigner.Parity
