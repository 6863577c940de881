import TiktokSigner.Lib.Collapse
import TiktokSigner.SignCore.QueryCodec
import TiktokSigner.SignReplay.ReplayCase

/-!
# The ticket of the direct socket

`HeadlessBackend::direct_socket`: the socket URL is built, signed and taken
apart into the `route_params` of a `FetchResult`, from which a client builds
its own query. Values are percent-decoded on the way in, because the client
encodes them again on the way out.

`ticketParams` is what that map is for: one entry for each key, with the
decoded text of its last value.
-/

namespace TiktokSigner.SignHeadless

open LiveWs (SignError)
open OrderedMap Percent SignReplay Utf8

/-! ## The URL to sign -/

/-- `CookieJar::get`. -/
def cookie (session : CookieJar) (name : String) : Option String := session.entries.lookup name

/-- `DirectSocketParams::url`, on the default cluster. -/
def url (params : DirectSocketParams) (preset : Preset) : String :=
  "wss://webcast-ws.tiktok.com" ++ "/webcast/im/ws_proxy/ws_reuse_supplement/" ++ "?" ++
    (params.build preset).encodeRaw

/-- `Preset::user_agent`. -/
def userAgent (preset : Preset) : String :=
  preset.device.browserName ++ "/" ++ preset.device.browserVersion

structure HeadlessBackend where
  /-- `UrlSigner::sign`, with the text of its error. -/
  sign : String → Except String String
  preset : Preset
  session : CookieJar

def coldStartCursor : String := "0"

def heartbeatMs : UInt64 := 10000

/-! ## Taking the query apart -/

/-- `pair.split_once('=').unwrap_or((pair, ""))`. -/
def splitPair (pair : List Char) : String × String :=
  let (key, value) := (Text.splitOnce '=' pair).getD (pair, [])
  (String.ofList key, String.ofList value)

/-- Split a signed query into a map; `none` where `percent_decode` panics. -/
def routeParams (query : String) : Option (List (String × String)) :=
  (query.toList.splitOn '&').foldlM
    (fun params pair =>
      if pair = [] then some params
      else
        (percentDecode (splitPair pair).2).map fun value =>
          insert (splitPair pair).1 value params)
    []

/-- A parameter of the query is a signature. -/
def signedParameter (query : String) : Bool :=
  ((query.toList.splitOn '&').filterMap (Text.splitOnce '=')).any fun (key, value) =>
    (key = "X-Gnarly".toList || key = "X-Bogus".toList) && value ≠ []

/-- The URL that `direct_socket` has signed. -/
def unsignedUrl (backend : HeadlessBackend) (randomDeviceId roomId : String) : String :=
  let params := DirectSocketParams.new randomDeviceId roomId
  let params :=
    match (cookie backend.session "tt_webid_v2").filter fun value => !value.isEmpty with
    | some webid => { params with deviceId := webid }
    | none => params
  url params backend.preset

/-- `direct_socket`. -/
def directSocket (backend : HeadlessBackend) (randomDeviceId roomId : String) :
    Option SignOutcome :=
  match backend.sign (unsignedUrl backend randomDeviceId roomId) with
  | .error error => some (.transport (.backendUnavailable error))
  | .ok signed =>
      match Text.splitOnce '?' signed.toList with
      | none =>
          some (.transport (.backendUnavailable "the signer returned a socket URL with no query"))
      | some (host, query) =>
          if signedParameter (String.ofList query) then
            (routeParams (String.ofList query)).map fun routeParams =>
              .ok
                { protobuf := FetchResult.encode
                    { cursor := coldStartCursor
                      internalExt := ""
                      routeParams := routeParams
                      heartbeatDuration := heartbeatMs
                      needAck := true
                      pushServer := String.ofList host }
                  cookies := backend.session
                  userAgent := userAgent backend.preset
                  signedUrl := signed }
          else
            some (.transport (.backendUnavailable
              "the signer returned no nonempty X-Gnarly or X-Bogus WebSocket signature"))

/-! ## What it is for -/

/-- The pairs of a query as they stand. -/
def signedPairs (query : String) : List (String × String) :=
  ((query.toList.splitOn '&').filter (· ≠ [])).map splitPair

/-- One entry for each key, in order, with the decoded text of its last
value. -/
def ticketParams (query : String) : List (String × String) :=
  collapse ((signedPairs query).map fun pair => (pair.1, percentDecoded pair.2))

/-- The fetch result that is packed for these parameters. -/
def packed (host : String) (routeParams : List (String × String)) : FetchResult where
  cursor := coldStartCursor
  internalExt := ""
  routeParams := routeParams
  heartbeatDuration := heartbeatMs
  needAck := true
  pushServer := host

/-- What a client reads from the ticket. -/
def ticket (host query : String) : FetchResult := packed host (ticketParams query)

/-- The value that a client encodes again is the one that was signed. -/
def SameValue (value signed : String) : Prop :=
  unescape (asBytes (percentEncode value)) = unescape (asBytes signed)

/-- The answer is a ticket that is read back as it should be, and from which
every parameter is sent with the value that was signed last. -/
def Faithful (outcome : Option SignOutcome) (host query : String) : Prop :=
  ∃ fetch, outcome = some (.ok fetch) ∧
    FetchResult.decode fetch.protobuf = .ok (ticket host query) ∧
    ∀ key signed, lastValue key (signedPairs query) = some signed →
      ∃ value, (key, value) ∈ ticketParams query ∧ SameValue value signed

/-! ## The map -/

/-- What the decoder gives, where it does not panic. -/
def decoded (value : String) : String := (percentDecode value).getD ""

theorem foldlM_parts (parts : List (List Char)) (params : List (String × String)) :
    parts.foldlM
      (fun params pair =>
        if pair = [] then some params
        else
          (percentDecode (splitPair pair).2).map fun value =>
            insert (splitPair pair).1 value params)
      params =
    ((parts.filter (· ≠ [])).map splitPair).foldlM
      (fun params pair => (percentDecode pair.2).map fun value => insert pair.1 value params)
      params := by
  induction parts generalizing params with
  | nil => rfl
  | cons part parts ih =>
    rw [List.foldlM_cons]
    by_cases hempty : part = []
    · rw [if_pos hempty, List.filter_cons_of_neg (by simpa using hempty)]
      exact ih params
    · rw [if_neg hempty, List.filter_cons_of_pos (by simpa using hempty), List.map_cons,
        List.foldlM_cons]
      cases percentDecode (splitPair part).2 with
      | none => rfl
      | some value => exact ih _

/-- The fold goes through where no value panics, and then it is the pure one. -/
theorem foldlM_pairs {pairs params out : List (String × String)} :
    pairs.foldlM
      (fun params pair => (percentDecode pair.2).map fun value => insert pair.1 value params)
      params = some out ↔
    (∀ pair ∈ pairs, Sliced (asBytes pair.2)) ∧
      out = insertAll (pairs.map fun pair => (pair.1, decoded pair.2)) params := by
  induction pairs generalizing params with
  | nil => simp [insertAll, eq_comm]
  | cons pair pairs ih =>
    rw [List.foldlM_cons, List.forall_mem_cons, and_assoc]
    cases hdecode : percentDecode pair.2 with
    | none =>
      refine iff_of_false (by simp) fun h => ?_
      have hsome := percentDecode_isSome.mpr h.1
      rw [hdecode] at hsome
      cases hsome
    | some value =>
      have hsliced := percentDecode_isSome.mp (Option.isSome_of_eq_some hdecode)
      have hvalue : decoded pair.2 = value := by rw [decoded, hdecode, Option.getD_some]
      rw [Option.map_some, and_iff_right hsliced, List.map_cons, hvalue]
      exact ih

theorem routeParams_eq_some {query : String} {out : List (String × String)} :
    routeParams query = some out ↔
      (∀ pair ∈ signedPairs query, Sliced (asBytes pair.2)) ∧
        out = collapse ((signedPairs query).map fun pair => (pair.1, decoded pair.2)) := by
  rw [routeParams, foldlM_parts, ← insertAll_nil]
  exact foldlM_pairs

theorem ticketParams_keys {query : String} (h : ∀ pair ∈ signedPairs query, pair.1 ≠ "")
    {f : String → String} :
    keyed (collapse ((signedPairs query).map fun pair => (pair.1, f pair.2))) =
      collapse ((signedPairs query).map fun pair => (pair.1, f pair.2)) := by
  refine keyed_eq_self_iff.mpr fun entry hentry => ?_
  have hkey : entry.1 ∈ keys (collapse ((signedPairs query).map fun pair => (pair.1, f pair.2))) :=
    List.mem_map_of_mem hentry
  rw [keys_collapse, keys_map, List.mem_eraseDups] at hkey
  obtain ⟨pair, hpair, hentry⟩ := List.mem_map.mp hkey
  rw [← hentry]
  exact h pair hpair

/-! ## The values -/

theorem sameValue_iff {value signed : String} :
    SameValue value signed ↔ asBytes value = unescape (asBytes signed) := by
  rw [SameValue, asBytes_percentEncode, unescape_escape (by decide)]

/-- The decoded text has the bytes that were signed, unless they are no
UTF-8. -/
theorem sameValue_percentDecoded {signed : String} :
    SameValue (percentDecoded signed) signed ↔ Valid (unescape (asBytes signed)) := by
  rw [sameValue_iff, percentDecoded]
  constructor
  · intro h
    rw [← h]
    exact fromUtf8_isSome.mp (by rw [fromUtf8_asBytes]; rfl)
  · intro h
    exact asBytes_getD h signed

theorem mem_ticketParams {query key value : String} :
    (key, value) ∈ ticketParams query ↔
      ∃ signed, lastValue key (signedPairs query) = some signed ∧ value = percentDecoded signed := by
  have hlookup := lookup_collapse key
    ((signedPairs query).map fun pair => (pair.1, percentDecoded pair.2))
  rw [lastValue_map] at hlookup
  constructor
  · intro h
    rw [lookup_of_mem (nodup_keys_collapse _) h, eq_comm, Option.map_eq_some_iff] at hlookup
    obtain ⟨signed, hlast, hvalue⟩ := hlookup
    exact ⟨signed, hlast, hvalue.symm⟩
  · rintro ⟨signed, hlast, rfl⟩
    rw [hlast, Option.map_some] at hlookup
    obtain ⟨before, after, hsplit, -⟩ := List.lookup_eq_some_iff.mp hlookup
    rw [ticketParams, hsplit]
    exact List.mem_append_right _ List.mem_cons_self

theorem values_iff {query : String} :
    (∀ key signed, lastValue key (signedPairs query) = some signed →
      ∃ value, (key, value) ∈ ticketParams query ∧ SameValue value signed) ↔
      ∀ key signed, lastValue key (signedPairs query) = some signed →
        Valid (unescape (asBytes signed)) := by
  refine forall_congr' fun key => forall_congr' fun signed => forall_congr' fun hlast => ?_
  constructor
  · rintro ⟨value, hmem, hsame⟩
    obtain ⟨signed', hlast', rfl⟩ := mem_ticketParams.mp hmem
    obtain rfl := Option.some.inj (hlast.symm.trans hlast')
    exact sameValue_percentDecoded.mp hsame
  · intro hvalid
    exact ⟨percentDecoded signed, mem_ticketParams.mpr ⟨signed, hlast, rfl⟩,
      sameValue_percentDecoded.mpr hvalid⟩

/-! ## When the ticket is faithful -/

theorem decode_packed {host query : String} {f : String → String}
    (hkeys : ∀ pair ∈ signedPairs query, pair.1 ≠ "")
    (hlen : (packed host (collapse ((signedPairs query).map fun pair =>
      (pair.1, f pair.2)))).encode.length ≤ isizeMax) :
    FetchResult.decode (packed host (collapse ((signedPairs query).map fun pair =>
        (pair.1, f pair.2)))).encode =
      .ok (packed host (collapse ((signedPairs query).map fun pair => (pair.1, f pair.2)))) := by
  have hkeyed := ticketParams_keys hkeys (f := f)
  rw [FetchResult.decode_encode _ hlen]
  exact congrArg (fun params => Except.ok (packed host params)) hkeyed

/-- What is decoded is what should be, but for the plus signs. -/
theorem decoded_eq_iff {value : String} (hsliced : Sliced (asBytes value)) :
    decoded value = percentDecoded value ↔
      (HasPlus (asBytes value) → ¬Valid (unescape (asBytes value))) := by
  obtain ⟨text, htext⟩ := Option.isSome_iff_exists.mp (percentDecode_isSome.mpr hsliced)
  have hvalue : decoded value = text := by rw [decoded, htext, Option.getD_some]
  rw [hvalue]
  exact eq_percentDecoded_iff htext

theorem directSocket_signed {backend : HeadlessBackend} {randomDeviceId roomId host query : String}
    (hsigned : backend.sign (unsignedUrl backend randomDeviceId roomId) =
      .ok (host ++ "?" ++ query))
    (hhost : '?' ∉ host.toList) (hsignature : signedParameter query = true) :
    directSocket backend randomDeviceId roomId =
      (routeParams query).map fun routeParams =>
        .ok
          { protobuf := (packed host routeParams).encode
            cookies := backend.session
            userAgent := userAgent backend.preset
            signedUrl := host ++ "?" ++ query } := by
  have hsplit : Text.splitOnce '?' (host ++ "?" ++ query).toList =
      some (host.toList, query.toList) :=
    Text.splitOnce_eq_some.mpr ⟨by simp, hhost⟩
  rw [directSocket, hsigned]
  simp only [hsplit, String.ofList_toList, hsignature, if_true]
  rfl

/-- What is read back is the map that was packed, as no key is empty. -/
theorem directSocket_decode {backend : HeadlessBackend}
    {randomDeviceId roomId host query : String} {params : List (String × String)}
    {fetch : SignedFetch}
    (hsigned : backend.sign (unsignedUrl backend randomDeviceId roomId) =
      .ok (host ++ "?" ++ query))
    (hhost : '?' ∉ host.toList) (hsignature : signedParameter query = true)
    (hkeys : ∀ pair ∈ signedPairs query, pair.1 ≠ "")
    (hparams : routeParams query = some params)
    (hfetch : directSocket backend randomDeviceId roomId = some (.ok fetch))
    (hle : fetch.protobuf.length ≤ isizeMax) :
    FetchResult.decode fetch.protobuf = .ok (packed host params) := by
  rw [directSocket_signed hsigned hhost hsignature, hparams, Option.map_some, Option.some.injEq,
    SignOutcome.ok.injEq] at hfetch
  subst hfetch
  obtain ⟨-, rfl⟩ := routeParams_eq_some.mp hparams
  exact decode_packed hkeys hle

/-- The ticket is faithful where every value can be decoded without a
panic, and the last value of each key has no plus sign behind a percent
sign and is UTF-8. -/
theorem directSocket_faithful_iff (backend : HeadlessBackend)
    (randomDeviceId roomId host query : String)
    (hsigned : backend.sign (unsignedUrl backend randomDeviceId roomId) =
      .ok (host ++ "?" ++ query))
    (hhost : '?' ∉ host.toList) (hsignature : signedParameter query = true)
    (hkeys : ∀ pair ∈ signedPairs query, pair.1 ≠ "")
    (hlen : ∀ fetch, directSocket backend randomDeviceId roomId = some (.ok fetch) →
      fetch.protobuf.length ≤ isizeMax) :
    Faithful (directSocket backend randomDeviceId roomId) host query ↔
      (∀ pair ∈ signedPairs query, Sliced (asBytes pair.2)) ∧
        ∀ key signed, lastValue key (signedPairs query) = some signed →
          ¬HasPlus (asBytes signed) ∧ Valid (unescape (asBytes signed)) := by
  have hanswer := directSocket_signed hsigned hhost hsignature
  have hread : ∀ params fetch, routeParams query = some params →
      directSocket backend randomDeviceId roomId = some (.ok fetch) →
      FetchResult.decode fetch.protobuf = .ok (packed host params) :=
    fun params fetch hparams hfetch =>
      directSocket_decode hsigned hhost hsignature hkeys hparams hfetch (hlen fetch hfetch)
  constructor
  · rintro ⟨fetch, hfetch, hdecode, hvalues⟩
    have hvalid := values_iff.mp hvalues
    have hmap := hanswer.symm.trans hfetch
    obtain ⟨params, hparams, -⟩ := Option.map_eq_some_iff.mp hmap
    obtain ⟨hsliced, hcollapse⟩ := routeParams_eq_some.mp hparams
    rw [hread params fetch hparams hfetch, Except.ok.injEq] at hdecode
    have heq : params = ticketParams query := congrArg FetchResult.routeParams hdecode
    rw [hcollapse, ticketParams, collapse_map_eq_iff] at heq
    refine ⟨hsliced, fun key signed hlast => ⟨fun hplus => ?_, hvalid key signed hlast⟩⟩
    have hexact := decoded_eq_iff (hsliced _ (mem_of_lastValue hlast))
    exact hexact.mp (heq key signed hlast) hplus (hvalid key signed hlast)
  · rintro ⟨hsliced, hlast⟩
    have heq : collapse ((signedPairs query).map fun pair => (pair.1, decoded pair.2)) =
        ticketParams query := by
      rw [ticketParams, collapse_map_eq_iff]
      intro key signed hsigned
      exact (decoded_eq_iff (hsliced _ (mem_of_lastValue hsigned))).mpr fun hplus =>
        absurd hplus (hlast key signed hsigned).1
    have hparams := routeParams_eq_some.mpr ⟨hsliced, heq.symm⟩
    have hfetch := hanswer
    rw [hparams, Option.map_some] at hfetch
    exact ⟨_, hfetch, hread _ _ hparams hfetch,
      values_iff.mpr fun key signed hsigned => (hlast key signed hsigned).2⟩

/-- A backend whose signer gives this URL. -/
def signing (signed : String) : HeadlessBackend where
  sign := fun _ => .ok signed
  preset := ⟨.chromeLinux, .usEast, .fhd⟩
  session := .new

/-- A key that comes twice, and an escape in its last value. -/
theorem directSocket_faithful_escapes :
    Faithful (directSocket (signing "wss://h/p?tz=x&room_id=7&tz=a%2Fb&X-Gnarly=s") "1" "7")
      "wss://h/p" "tz=x&room_id=7&tz=a%2Fb&X-Gnarly=s" := by
  have hurl : "wss://h/p" ++ "?" ++ "tz=x&room_id=7&tz=a%2Fb&X-Gnarly=s" =
      "wss://h/p?tz=x&room_id=7&tz=a%2Fb&X-Gnarly=s" := by decide
  have hhost : '?' ∉ "wss://h/p".toList := by decide
  have hsignature : signedParameter "tz=x&room_id=7&tz=a%2Fb&X-Gnarly=s" = true := by decide
  have hparams : routeParams "tz=x&room_id=7&tz=a%2Fb&X-Gnarly=s" =
      some [("tz", "a/b"), ("room_id", "7"), ("X-Gnarly", "s")] := by decide
  refine (directSocket_faithful_iff
    (signing "wss://h/p?tz=x&room_id=7&tz=a%2Fb&X-Gnarly=s") "1" "7" "wss://h/p"
    "tz=x&room_id=7&tz=a%2Fb&X-Gnarly=s" (congrArg Except.ok hurl.symm) hhost hsignature
    (by decide) fun fetch hfetch => ?_).mpr ⟨(routeParams_eq_some.mp hparams).1, ?_⟩
  · rw [directSocket_signed (congrArg Except.ok hurl.symm) hhost hsignature, hparams,
      Option.map_some, Option.some.injEq, SignOutcome.ok.injEq] at hfetch
    subst hfetch
    decide +kernel
  · intro key signed hlast
    have hpairs : signedPairs "tz=x&room_id=7&tz=a%2Fb&X-Gnarly=s" =
        [("tz", "x"), ("room_id", "7"), ("tz", "a%2Fb"), ("X-Gnarly", "s")] := by decide
    have hmem := mem_of_lastValue hlast
    rw [hpairs] at hmem
    -- The four values, each with the text that it stands for.
    have hvalue : ∃ text : String, 43 ∉ asBytes signed ∧
        Utf8.encode text.toList = unescape (asBytes signed) := by
      rcases List.mem_cons.mp hmem with h | hmem
      · obtain ⟨-, rfl⟩ := Prod.mk.inj h
        exact ⟨"x", by decide⟩
      rcases List.mem_cons.mp hmem with h | hmem
      · obtain ⟨-, rfl⟩ := Prod.mk.inj h
        exact ⟨"7", by decide⟩
      rcases List.mem_cons.mp hmem with h | hmem
      · obtain ⟨-, rfl⟩ := Prod.mk.inj h
        exact ⟨"a/b", by decide⟩
      · obtain ⟨-, rfl⟩ := Prod.mk.inj (List.mem_singleton.mp hmem)
        exact ⟨"s", by decide⟩
    obtain ⟨text, hplus, htext⟩ := hvalue
    exact ⟨fun h => hplus (plus_mem_of_hasPlus h), text.toList, htext⟩

/-- A plus sign behind a percent sign, bytes that are no UTF-8, and a slice
inside a character. -/
theorem directSocket_not_faithful :
    ¬Faithful (directSocket (signing "wss://h/p?device_id=%+f&X-Gnarly=s") "1" "7")
        "wss://h/p" "device_id=%+f&X-Gnarly=s" ∧
      ¬Faithful (directSocket (signing "wss://h/p?device_id=%FF&X-Gnarly=s") "1" "7")
        "wss://h/p" "device_id=%FF&X-Gnarly=s" ∧
      directSocket (signing "wss://h/p?device_id=%aé&X-Gnarly=s") "1" "7" = none := by
  have hhost : '?' ∉ "wss://h/p".toList := by decide
  refine ⟨?_, ?_, ?_⟩
  · have hurl : "wss://h/p" ++ "?" ++ "device_id=%+f&X-Gnarly=s" =
        "wss://h/p?device_id=%+f&X-Gnarly=s" := by decide
    have hparams : routeParams "device_id=%+f&X-Gnarly=s" =
        some [("device_id", "\x0f"), ("X-Gnarly", "s")] := by decide
    rintro ⟨fetch, hfetch, hdecode, -⟩
    rw [directSocket_signed (congrArg Except.ok hurl.symm) hhost (by decide), hparams,
      Option.map_some, Option.some.injEq, SignOutcome.ok.injEq] at hfetch
    subst hfetch
    revert hdecode
    decide +kernel
  · rintro ⟨-, -, -, hvalues⟩
    obtain ⟨value, hmem, hsame⟩ := hvalues "device_id" "%FF" (by decide)
    have hvalue : ticketParams "device_id=%FF&X-Gnarly=s" =
        [("device_id", "%FF"), ("X-Gnarly", "s")] := by decide
    rw [hvalue] at hmem
    obtain rfl : value = "%FF" := by simpa using hmem
    have hnot : ¬unescape (asBytes (percentEncode "%FF")) = unescape (asBytes "%FF") := by
      decide
    exact hnot hsame
  · have hurl : "wss://h/p" ++ "?" ++ "device_id=%aé&X-Gnarly=s" =
        "wss://h/p?device_id=%aé&X-Gnarly=s" := by decide
    have hparams : routeParams "device_id=%aé&X-Gnarly=s" = none := by decide
    rw [directSocket_signed (congrArg Except.ok hurl.symm) hhost (by decide), hparams]
    rfl

end TiktokSigner.SignHeadless
