import TiktokSigner.Lib.Collapse
import TiktokSigner.SignCore.QueryCodec

/-!
# The query of the WebSocket

`WsParams` of `params.rs`: the signed `route_params`, the parameters of the
client over them, and a second `version_code` at the end.
-/

namespace TiktokSigner

open OrderedMap

/-- Add a pair, or overwrite the value of the key in its place. -/
def Query.set (q : Query) (key value : String) : Query := insert key value q

structure WsParams where
  roomId : String
  compress : Compression
  lastRtt : UInt32
  cursor : String
  internalExt : String
deriving DecidableEq

namespace WsParams

/-- Client-owned parameters, without `route_params`. -/
def clientParams (params : WsParams) (preset : Preset) : Query :=
  let d := preset.device
  let l := preset.location
  let s := preset.screen
  Query.new
    |>.set "aid" "1988"
    |>.set "app_language" l.language
    |>.set "app_name" "tiktok_web"
    |>.set "browser_language" l.browserLanguage
    |>.set "browser_name" d.browserName
    |>.set "browser_online" "true"
    |>.set "browser_platform" d.browserPlatform
    |>.set "browser_version" d.browserVersion
    |>.set "client_enter" "1"
    |>.set "compress" (params.compress.asQueryValue.getD "")
    |>.set "cookie_enabled" "true"
    |>.set "cursor" params.cursor
    |>.set "device_platform" "web"
    |>.set "did_rule" "3"
    |>.set "heartbeat_duration" heartbeatDurationMs
    |>.set "internal_ext" params.internalExt
    |>.set "history_comment_count" "6"
    |>.set "identity" "audience"
    |>.set "last_rtt" params.lastRtt.toNat.repr
    |>.set "live_id" "12"
    |>.set "resp_content_type" "protobuf"
    |>.set "room_id" params.roomId
    |>.set "screen_height" s.height.toNat.repr
    |>.set "screen_width" s.width.toNat.repr
    |>.set "sup_ws_ds_opt" "1"
    |>.set "tz_name" l.tzName
    |>.set "update_version_code" "2.0.0"
    |>.set "version_code" "180800"
    |>.set "webcast_language" l.language
    |>.set "ws_direct" "1"

/-- The pairs that `build_uri` writes out. -/
def query (params : WsParams) (routeParams : List (String × String)) (preset : Preset) : Query :=
  let q := routeParams.foldl
    (fun q (pair : String × String) => if pair.2.isEmpty then q else q.set pair.1 pair.2) Query.new
  let q := (params.clientParams preset).foldl (fun q pair => q.set pair.1 pair.2) q
  q.pushRaw "version_code" "270000"

/-- The complete URI. -/
def buildUri (params : WsParams) (pushServer : String) (routeParams : List (String × String))
    (preset : Preset) : String :=
  let sep := if pushServer.toList.contains '?' then "&" else "?"
  pushServer ++ sep ++ (params.query routeParams preset).encode

/-! ## What it is for -/

/-- The pairs of the route that carry a value. -/
def present (routeParams : List (String × String)) : List (String × String) :=
  routeParams.filter fun pair => !pair.2.isEmpty

/-- The keys of the route in order, each with the value of the client, if it
has one, or else with its own last one. -/
def routePart (client routeParams : Query) : Query :=
  (keys (present routeParams)).eraseDups.map fun key =>
    (key, ((client.lookup key).or (lastValue key (present routeParams))).getD "")

/-- The parameters of the client that the route does not have. -/
def clientPart (client routeParams : Query) : Query :=
  client.filter fun pair => pair.1 ∉ keys (present routeParams)

/-- The route, the client, and the second version code. -/
def expected (client routeParams : Query) : Query :=
  routePart client routeParams ++ clientPart client routeParams ++ [("version_code", "270000")]

/-! ## What it writes -/

theorem foldl_present (routeParams q : Query) :
    routeParams.foldl
      (fun q (pair : String × String) => if pair.2.isEmpty then q else q.set pair.1 pair.2) q =
      insertAll (present routeParams) q := by
  induction routeParams generalizing q with
  | nil => rfl
  | cons pair routeParams ih =>
    rw [List.foldl_cons, ih, present, present]
    by_cases hempty : pair.2.isEmpty = true
    · rw [if_pos hempty, List.filter_cons_of_neg (by simp [hempty])]
    · rw [if_neg hempty, List.filter_cons_of_pos (by simp [hempty])]
      rfl

/-- The pairs that the client sets, in order. -/
def clientPairs (params : WsParams) (preset : Preset) : List (String × String) :=
  [("aid", "1988"), ("app_language", preset.location.language), ("app_name", "tiktok_web"),
    ("browser_language", preset.location.browserLanguage),
    ("browser_name", preset.device.browserName), ("browser_online", "true"),
    ("browser_platform", preset.device.browserPlatform),
    ("browser_version", preset.device.browserVersion), ("client_enter", "1"),
    ("compress", params.compress.asQueryValue.getD ""), ("cookie_enabled", "true"),
    ("cursor", params.cursor), ("device_platform", "web"), ("did_rule", "3"),
    ("heartbeat_duration", heartbeatDurationMs), ("internal_ext", params.internalExt),
    ("history_comment_count", "6"), ("identity", "audience"),
    ("last_rtt", params.lastRtt.toNat.repr), ("live_id", "12"),
    ("resp_content_type", "protobuf"), ("room_id", params.roomId),
    ("screen_height", preset.screen.height.toNat.repr),
    ("screen_width", preset.screen.width.toNat.repr), ("sup_ws_ds_opt", "1"),
    ("tz_name", preset.location.tzName), ("update_version_code", "2.0.0"),
    ("version_code", "180800"), ("webcast_language", preset.location.language),
    ("ws_direct", "1")]

theorem clientParams_eq (params : WsParams) (preset : Preset) :
    params.clientParams preset = insertAll (params.clientPairs preset) [] := by
  simp only [clientParams, Query.set, Query.new, insertAll, clientPairs, List.foldl_cons,
    List.foldl_nil]

theorem nodup_clientParams (params : WsParams) (preset : Preset) :
    (keys (params.clientParams preset)).Nodup := by
  rw [clientParams_eq]
  exact nodup_keys_insertAll nodup_keys_nil _

theorem versionCode_mem (params : WsParams) (preset : Preset) :
    "version_code" ∈ keys (params.clientParams preset) := by
  rw [clientParams_eq, keys_insertAll, List.mem_append]
  refine Or.inr (List.mem_eraseDups.mpr (List.mem_filter.mpr ⟨?_, by simp [keys]⟩))
  simp [keys, clientPairs]

theorem foldl_set (pairs q : Query) :
    pairs.foldl (fun q pair => q.set pair.1 pair.2) q = insertAll pairs q := rfl

/-- The client over what the route carries. -/
theorem insertAll_client {client : Query} (hclient : (keys client).Nodup) (routeParams : Query) :
    insertAll client (collapse (present routeParams)) =
      routePart client routeParams ++ clientPart client routeParams := by
  have hlast : ∀ key, lastValue key client = client.lookup key := by
    intro key
    rw [← lookup_collapse, collapse_eq_self hclient]
  have hrest : (client.filter fun pair => pair.1 ∉ keys (collapse (present routeParams))) =
      clientPart client routeParams := by
    rw [clientPart]
    refine List.filter_congr fun pair _ => ?_
    simp only [keys_collapse, List.mem_eraseDups]
  have hnodup : (keys (clientPart client routeParams)).Nodup :=
    hclient.sublist (List.filter_sublist.map _)
  rw [insertAll_eq (nodup_keys_collapse _), hrest, collapse_eq_self hnodup]
  congr 1
  rw [routePart, ← keys_collapse, keys, List.map_map]
  refine List.map_congr_left fun member hmember => ?_
  have hvalue := lookup_of_mem (nodup_keys_collapse _) hmember
  rw [lookup_collapse] at hvalue
  rw [Function.comp_apply, hlast, hvalue]
  cases client.lookup member.1 <;> rfl

/-- The pairs written are the expected ones. -/
theorem query_eq (params : WsParams) (routeParams : List (String × String)) (preset : Preset) :
    params.query routeParams preset = expected (params.clientParams preset) routeParams := by
  rw [query, foldl_present, foldl_set, Query.new, insertAll_nil,
    insertAll_client (nodup_clientParams params preset), Query.pushRaw, expected]

/-! ## How often a key is written -/

theorem nodup_written {client : Query} (hclient : (keys client).Nodup) (routeParams : Query) :
    (keys (routePart client routeParams ++ clientPart client routeParams)).Nodup := by
  rw [← insertAll_client hclient]
  exact nodup_keys_insertAll (nodup_keys_collapse _) _

/-- The client's keys are all written. -/
theorem mem_written {client : Query} (hclient : (keys client).Nodup) (routeParams : Query)
    {key : String} (hkey : key ∈ keys client) :
    key ∈ keys (routePart client routeParams ++ clientPart client routeParams) := by
  rw [← insertAll_client hclient, keys_insertAll, List.mem_append]
  by_cases hroute : key ∈ keys (collapse (present routeParams))
  · exact Or.inl hroute
  · exact Or.inr (List.mem_eraseDups.mpr
      (List.mem_filter.mpr ⟨hkey, decide_eq_true hroute⟩))

/-- Every key once, the version code twice. -/
theorem count_expected {client : Query} (hclient : (keys client).Nodup)
    (hversion : "version_code" ∈ keys client) (routeParams : Query) {key : String}
    (hkey : key ∈ keys (expected client routeParams)) :
    (keys (expected client routeParams)).count key = if key = "version_code" then 2 else 1 := by
  have hsplit : keys (expected client routeParams) =
      keys (routePart client routeParams ++ clientPart client routeParams) ++ ["version_code"] := by
    rw [expected, keys, List.map_append]
    rfl
  have hnodup := nodup_written hclient routeParams
  rw [hsplit] at hkey ⊢
  rw [List.count_append]
  split_ifs with heq
  · subst heq
    rw [List.count_eq_one_of_mem hnodup (mem_written hclient routeParams hversion),
      List.count_singleton_self]
  · have hwritten := (List.mem_append.mp hkey).resolve_right (by simpa using heq)
    rw [List.count_eq_one_of_mem hnodup hwritten,
      List.count_eq_zero_of_not_mem (by simpa using heq)]

/-- What the URI appends to the server is read back as the expected pairs,
and every key is there once but the version code, which is there twice. -/
theorem buildUri_query (params : WsParams) (pushServer : String)
    (routeParams : List (String × String)) (preset : Preset) :
    ∃ query,
      params.buildUri pushServer routeParams preset =
        pushServer ++ (if '?' ∈ pushServer.toList then "&" else "?") ++ query ∧
      Query.parseEncoded query = some (expected (params.clientParams preset) routeParams) ∧
      "version_code" ∈ keys (expected (params.clientParams preset) routeParams) ∧
      ∀ key ∈ keys (expected (params.clientParams preset) routeParams),
        (keys (expected (params.clientParams preset) routeParams)).count key =
          if key = "version_code" then 2 else 1 := by
  have hclient := nodup_clientParams params preset
  refine ⟨(params.query routeParams preset).encode, ?_, ?_, ?_, fun key hkey => ?_⟩
  · simp only [buildUri, List.contains_iff_mem]
  · rw [Query.parseEncoded_encode, query_eq]
  · simp [expected, keys]
  · exact count_expected hclient (versionCode_mem params preset) routeParams hkey

end WsParams

end TiktokSigner
