import Mathlib.Data.List.DropRight
import TiktokSigner.LiveApi.SocketUrl

/-!
# Who can use a ticket

The broker accepts a signed URL if the room and a signature stand somewhere
in its query. The TypeScript and the Java SDK check the same URL with the
URL classes of their platforms, which decode the query and take the first
parameter of a name; the WebSocket crate reads the room back from the raw
query. `java.net.URI` moreover throws on characters and escapes that RFC
2396 does not allow.

The URL classes are parameters. What they do with a URL of the broker's
shape is a field of each.
-/

namespace TiktokSigner.Parity

open Text LiveApi LiveWs

/-! ## Decoding a query -/

/-- Text in UTF-8. -/
def utf8 (text : List Char) : Bytes := text.flatMap String.utf8EncodeChar

def hexDigit (b : UInt8) : Option UInt8 :=
  if 48 ≤ b ∧ b ≤ 57 then some (b - 48)
  else if 65 ≤ b ∧ b ≤ 70 then some (b - 55)
  else if 97 ≤ b ∧ b ≤ 102 then some (b - 87)
  else none

/-- The byte that `%` and two digits stand for. -/
def escaped (percent h l : UInt8) : Option UInt8 :=
  if percent = 37 then
    match hexDigit h, hexDigit l with
    | some high, some low => some (16 * high + low)
    | _, _ => none
  else none

def unplus (b : UInt8) : UInt8 := if b = 43 then 32 else b

/-- Percent-decoding with `+` for a space; a stray percent sign stays. -/
def formDecode : Bytes → Bytes
  | [] => []
  | [b] => [unplus b]
  | [b, c] => [unplus b, unplus c]
  | b :: h :: l :: rest =>
      match escaped b h l with
      | some byte => byte :: formDecode rest
      | none => unplus b :: formDecode (h :: l :: rest)

/-- A name and its value, if it has one. The names and values are kept as
bytes: one that is not UTF-8 is decoded to a text that is no ASCII text. -/
def formPair (pair : Bytes) : Bytes × Option Bytes :=
  match splitOnce 61 pair with
  | some (name, value) => (formDecode name, some (formDecode value))
  | none => (formDecode pair, none)

def formPairs (query : Bytes) : List (Bytes × Option Bytes) := (query.splitOn 38).map formPair

/-- The value of the first pair with this name. -/
def firstValue (name : String) (pairs : List (Bytes × Option Bytes)) : Option Bytes :=
  (pairs.find? fun pair => pair.1 == utf8 name.toList).bind (·.2)

/-! ## TypeScript -/

namespace TypeScript

structure Url where
  protocol : List Char
  hostname : List Char
  pathname : List Char
  searchParams : List (Bytes × Bytes)

/-- `url.searchParams.get`. -/
def Url.get (url : Url) (name : String) : Option Bytes :=
  (url.searchParams.find? fun pair => pair.1 == utf8 name.toList).map (·.2)

/-- The query of a URL, without what `new URL` drops: controls and spaces at
the end, tabs and newlines, the fragment. -/
def urlQuery (query : List Char) : List Char :=
  let trimmed := query.rdropWhile fun c => c.toNat ≤ 32
  (cut '#' (trimmed.filter fun c => c.toNat ≠ 9 ∧ c.toNat ≠ 10 ∧ c.toNat ≠ 13)).1

def searchParams (query : Bytes) : List (Bytes × Bytes) :=
  ((query.splitOn 38).filter (· ≠ [])).map fun pair =>
    ((formPair pair).1, (formPair pair).2.getD [])

/-- `new URL`, which throws or gives a URL. -/
structure UrlClass where
  new : List Char → Option Url
  new_socketUrl : ∀ host ∈ socketHosts, ∀ query, new (socketUrl host query) =
    some
      { protocol := "wss:".toList
        hostname := host
        pathname := '/' :: socketPath
        searchParams := searchParams (utf8 (urlQuery query)) }

def isAllowedSocketUrl (lib : UrlClass) (value roomId : List Char) : Bool :=
  match lib.new value with
  | none => false
  | some url =>
      let signature := url.get "X-Gnarly"
      url.protocol == "wss:".toList && socketHosts.contains url.hostname &&
        url.pathname == '/' :: socketPath && url.get "room_id" == some (utf8 roomId) &&
        signature.any (· ≠ [])

end TypeScript

/-! ## Java -/

namespace Java

/-- `Character.isSpaceChar`. -/
def isSpaceChar (c : Char) : Bool :=
  let n := c.toNat
  n = 0x20 || n = 0xa0 || n = 0x1680 || (0x2000 ≤ n && n ≤ 0x200a) || n = 0x2028 || n = 0x2029 ||
    n = 0x202f || n = 0x205f || n = 0x3000

/-- `Character.isISOControl`. -/
def isIsoControl (c : Char) : Bool := c.toNat ≤ 0x1f || (0x7f ≤ c.toNat && c.toNat ≤ 0x9f)

def hexDigits : List Char := "0123456789abcdefABCDEF".toList

/-- The ASCII characters of `L_URIC`, escapes aside. -/
def uric : List Char :=
  "abcdefghijklmnopqrstuvwxyzABCDEFGHIJKLMNOPQRSTUVWXYZ0123456789".toList ++
    ";/?:@&=+$,[]_-!.~'()*".toList

/-- A character that `java.net.URI` takes in a query as it stands. -/
def isUric (c : Char) : Bool :=
  uric.contains c || (128 < c.toNat && !isSpaceChar c && !isIsoControl c)

/-- Allowed characters and well-formed escapes only. -/
def legal : List Char → Bool
  | [] => true
  | [c] => isUric c
  | [c, d] => isUric c && isUric d
  | c :: h :: l :: rest =>
      if c = '%' then hexDigits.contains h && hexDigits.contains l && legal rest
      else isUric c && legal (h :: l :: rest)

structure Uri where
  scheme : List Char
  rawUserInfo : Option (List Char)
  fragment : Option (List Char)
  /-- `none` stands for -1. -/
  port : Option Nat
  host : Option (List Char)
  path : List Char

/-- `URI.create`, which throws or gives a URI. -/
structure UriClass where
  create : List Char → Option Uri
  create_socketUrl : ∀ host ∈ socketHosts, ∀ query, create (socketUrl host query) =
    if legal (cut '#' query).1 ∧ (cut '#' query).2.all legal then
      some
        { scheme := "wss".toList
          rawUserInfo := none
          fragment := (cut '#' query).2
          port := none
          host := some host
          path := '/' :: socketPath }
    else none

/-- `url.replaceFirst("^wss:", "https:")`. -/
def asHttps (url : List Char) : List Char :=
  match stripPrefix "wss:".toList url with
  | some rest => "https:".toList ++ rest
  | none => url

/-- OkHttp's `HttpUrl.get`, which throws or gives names and values of the
query. -/
structure HttpUrlClass where
  get : List Char → Option (List (Bytes × Option Bytes))
  get_socketUrl : ∀ host ∈ socketHosts, ∀ query, legal query →
    get (asHttps (socketUrl host query)) = some (formPairs (utf8 query))

def allowedSocket (uris : UriClass) (httpUrls : HttpUrlClass) (url room : List Char) : Bool :=
  match uris.create url with
  | none => false
  | some uri =>
      match httpUrls.get (asHttps url) with
      | none => false
      | some parsed =>
          uri.scheme == "wss".toList && uri.rawUserInfo.isNone && uri.fragment.isNone &&
            (uri.port.isNone || uri.port == some 443) &&
            uri.host.any (fun host => socketHosts.contains host) && uri.path == '/' :: socketPath &&
            firstValue "room_id" parsed == some (utf8 room) &&
            (firstValue "X-Gnarly" parsed).any (· ≠ [])

/-! A legal query has no fragment, no controls and no spaces. -/

theorem isUric_printable {c : Char} (h : isUric c = true) : 32 < c.toNat ∧ c ≠ '#' := by
  unfold isUric at h
  rcases Bool.or_eq_true_iff.mp h with h | h
  · have hall : uric.all (fun c => 32 < c.toNat ∧ c ≠ '#') = true := by decide
    exact of_decide_eq_true (List.all_eq_true.mp hall c (List.contains_iff_mem.mp h))
  · simp only [Bool.and_eq_true, decide_eq_true_eq] at h
    refine ⟨by omega, ?_⟩
    rintro rfl
    exact absurd h.1.1 (by decide)

theorem hexDigit_printable {c : Char} (h : hexDigits.contains c = true) :
    32 < c.toNat ∧ c ≠ '#' := by
  have hall : hexDigits.all (fun c => 32 < c.toNat ∧ c ≠ '#') = true := by decide
  exact of_decide_eq_true (List.all_eq_true.mp hall c (List.contains_iff_mem.mp h))

theorem legal_printable {query : List Char} (hlegal : legal query = true) :
    ∀ c ∈ query, 32 < c.toNat ∧ c ≠ '#' := by
  induction query using legal.induct with
  | case1 => exact fun c hc => absurd hc List.not_mem_nil
  | case2 c =>
    rw [legal] at hlegal
    exact List.forall_mem_singleton.mpr (isUric_printable hlegal)
  | case3 c d =>
    rw [legal, Bool.and_eq_true] at hlegal
    exact List.forall_mem_cons.mpr ⟨isUric_printable hlegal.1,
      List.forall_mem_singleton.mpr (isUric_printable hlegal.2)⟩
  | case4 h l rest ih =>
    rw [legal, if_pos rfl, Bool.and_eq_true, Bool.and_eq_true] at hlegal
    obtain ⟨⟨hh, hl⟩, hrest⟩ := hlegal
    exact List.forall_mem_cons.mpr ⟨by decide, List.forall_mem_cons.mpr ⟨hexDigit_printable hh,
      List.forall_mem_cons.mpr ⟨hexDigit_printable hl, ih hrest⟩⟩⟩
  | case5 c h l rest hpercent ih =>
    rw [legal, if_neg hpercent, Bool.and_eq_true] at hlegal
    exact List.forall_mem_cons.mpr ⟨isUric_printable hlegal.1, ih hlegal.2⟩

theorem legal_no_fragment {query : List Char} (h : legal query = true) :
    cut '#' query = (query, none) :=
  cut_of_notMem fun hmem => (legal_printable h _ hmem).2 rfl

end Java

/-! ## The first of a name -/

/-- `searchParams` drops the empty pairs and has an empty value for none. -/
theorem get_eq_firstValue {name : String} (hname : utf8 name.toList ≠ []) (query : Bytes)
    {value : Bytes} (h : firstValue name (formPairs query) = some value) :
    ((TypeScript.searchParams query).find? fun pair => pair.1 == utf8 name.toList).map (·.2) =
      some value := by
  unfold TypeScript.searchParams firstValue formPairs at *
  generalize query.splitOn 38 = pairs at *
  induction pairs with
  | nil => rw [List.map_nil, List.find?_nil, Option.bind_none] at h; cases h
  | cons pair pairs ih =>
    rw [List.map_cons, List.find?_cons] at h
    by_cases hpair : (formPair pair).1 = utf8 name.toList
    · have hne : pair ≠ [] := by
        rintro rfl
        exact hname hpair.symm
      rw [hpair, beq_self_eq_true, Option.bind_some] at h
      rw [List.filter_cons_of_pos (by simpa using hne), List.map_cons, hpair, List.find?_cons,
        beq_self_eq_true, Option.map_some, h, Option.getD_some]
    · have hfalse : ((formPair pair).1 == utf8 name.toList) = false := by simpa using hpair
      rw [hfalse] at h
      by_cases hne : pair = []
      · rw [List.filter_cons_of_neg (by simpa using hne)]
        exact ih h
      · rw [List.filter_cons_of_pos (by simpa using hne), List.map_cons, List.find?_cons, hfalse]
        exact ih h

/-- The query is kept by `new URL`, which only drops what is illegal. -/
theorem urlQuery_legal {query : List Char} (h : Java.legal query = true) :
    TypeScript.urlQuery query = query := by
  have hprintable := Java.legal_printable h
  have htrim : query.rdropWhile (fun c => c.toNat ≤ 32) = query := by
    rw [List.rdropWhile_eq_self_iff]
    intro hne
    have hlast := (hprintable _ (List.getLast_mem hne)).1
    simpa using hlast
  have hfilter : query.filter (fun c => c.toNat ≠ 9 ∧ c.toNat ≠ 10 ∧ c.toNat ≠ 13) = query := by
    rw [List.filter_eq_self]
    intro c hc
    have hc := (hprintable c hc).1
    simp only [decide_eq_true_eq]
    omega
  rw [TypeScript.urlQuery, htrim, hfilter, Java.legal_no_fragment h]

/-! ## The three clients -/

/-- The room and the signature stand in the first parameters of their names,
whether the names are read raw or decoded, and nothing else in the query
stops a client. -/
structure Usable (query room : List Char) : Prop where
  legal : Java.legal query = true
  room_first : firstValue "room_id" (formPairs (utf8 query)) = some (utf8 room)
  signature_first : ∃ value ≠ [], firstValue "X-Gnarly" (formPairs (utf8 query)) = some value
  raw_first : ∃ roomId : UInt64, roomId.toNat = decimal room ∧
    ((rawPairs query).find? fun pair => pair.1 == "room_id".toList).bind
      (fun pair => parseU64 pair.2) = some roomId

/-- Everything after the first question mark. -/
def rawQuery (url : List Char) : List Char := ((splitOnce '?' url).map (·.2)).getD []

theorem host_no_question {host : List Char} (h : host ∈ socketHosts) : '?' ∉ host := by
  have hall : ∀ host ∈ socketHosts, '?' ∉ host := by decide
  exact hall host h

theorem append_query (scheme host path query : List Char) :
    scheme ++ (host ++ '/' :: (path ++ '?' :: query)) =
      (scheme ++ (host ++ '/' :: path)) ++ '?' :: query := by
  simp only [List.append_assoc, List.cons_append]

theorem rawQuery_socketUrl {host : List Char} (h : host ∈ socketHosts) (query : List Char) :
    rawQuery (socketUrl host query) = query := by
  have hsplit : splitOnce '?' (socketUrl host query) =
      some ("wss://".toList ++ (host ++ '/' :: socketPath), query) := by
    refine splitOnce_eq_some.mpr ⟨?_, ?_⟩
    · exact append_query _ _ _ _
    · have hscheme : '?' ∉ "wss://".toList := by decide
      intro hmem
      rcases List.mem_append.mp hmem with hmem | hmem
      · exact hscheme hmem
      rcases List.mem_append.mp hmem with hmem | hmem
      · exact host_no_question h hmem
      rcases List.mem_cons.mp hmem with heq | hmem
      · exact absurd heq (by decide)
      · exact socketPath_no_question hmem
  rw [rawQuery, hsplit, Option.map_some, Option.getD_some]

theorem isAllowedSocketUrl_usable (lib : TypeScript.UrlClass) {host query room : List Char}
    (hhost : host ∈ socketHosts) (h : Usable query room) :
    TypeScript.isAllowedSocketUrl lib (socketUrl host query) room = true := by
  obtain ⟨value, hne, hsignature⟩ := h.signature_first
  have hroom := get_eq_firstValue (by decide) _ h.room_first
  have hgnarly := get_eq_firstValue (by decide) _ hsignature
  rw [TypeScript.isAllowedSocketUrl, lib.new_socketUrl host hhost, urlQuery_legal h.legal]
  have hnonempty : (some value).any (· ≠ []) = true := by simpa using hne
  have hcontains : socketHosts.contains host = true := List.contains_iff_mem.mpr hhost
  simp only [TypeScript.Url.get, hroom, hgnarly, hnonempty, hcontains, beq_self_eq_true,
    Bool.and_self]

theorem allowedSocket_eq_true_iff (uris : Java.UriClass) (httpUrls : Java.HttpUrlClass)
    {host : List Char} (hhost : host ∈ socketHosts) (query room : List Char) :
    Java.allowedSocket uris httpUrls (socketUrl host query) room = true ↔
      Java.legal query = true ∧
      firstValue "room_id" (formPairs (utf8 query)) = some (utf8 room) ∧
      ∃ value ≠ [], firstValue "X-Gnarly" (formPairs (utf8 query)) = some value := by
  rw [Java.allowedSocket, uris.create_socketUrl host hhost]
  constructor
  · intro h
    split_ifs at h with hlegal
    cases hget : httpUrls.get (Java.asHttps (socketUrl host query)) with
    | none => rw [hget] at h; cases h
    | some parsed =>
      rw [hget] at h
      simp only [Bool.and_eq_true, Option.isNone_iff_eq_none, beq_iff_eq] at h
      obtain ⟨⟨⟨⟨⟨⟨-, hfragment⟩, -⟩, -⟩, -⟩, hroom⟩, hsignature⟩ := h
      have hquery := cut_fst_of_snd_eq_none hfragment
      rw [hquery] at hlegal
      rw [httpUrls.get_socketUrl host hhost query hlegal.1, Option.some.injEq] at hget
      rw [← hget] at hroom hsignature
      obtain ⟨value, hvalue, hne⟩ := Option.any_eq_true _ _ |>.mp hsignature
      exact ⟨hlegal.1, hroom, value, by simpa using hne, hvalue⟩
  · rintro ⟨hlegal, hroom, value, hne, hsignature⟩
    rw [Java.legal_no_fragment hlegal, if_pos ⟨hlegal, rfl⟩]
    have hnonempty : (some value).any (· ≠ []) = true := by simpa using hne
    have hcontains : socketHosts.contains host = true := List.contains_iff_mem.mpr hhost
    simp only [httpUrls.get_socketUrl host hhost query hlegal, hroom, hsignature, hnonempty,
      hcontains, beq_self_eq_true, Option.isNone_none, Option.any_some, Bool.true_or,
      Bool.and_self]

theorem roomIdFromUri_socketUrl {host : List Char} (hhost : host ∈ socketHosts)
    (query : List Char) (roomId : UInt64) :
    roomIdFromUri (socketUrl host query) = .ok roomId ↔
      ((rawPairs query).find? fun pair => pair.1 == "room_id".toList).bind
        (fun pair => parseU64 pair.2) = some roomId := by
  have hquery := rawQuery_socketUrl hhost query
  unfold rawQuery at hquery
  unfold roomIdFromUri
  rw [hquery]
  constructor
  · intro h
    dsimp only at h
    split at h
    case h_1 found hfound => rw [hfound, Except.ok.inj h]
    case h_2 => cases h
  · intro h
    simp only [h]

/-- A ticket can be used by all three clients exactly where its query is
usable. -/
theorem ticket_usable_iff (lib : TypeScript.UrlClass) (uris : Java.UriClass)
    (httpUrls : Java.HttpUrlClass) (url room : List Char)
    (haccepted : validateSignedSocketUrl url room = .ok ()) :
    (TypeScript.isAllowedSocketUrl lib url room = true ∧
        Java.allowedSocket uris httpUrls url room = true ∧
        ∃ roomId, roomIdFromUri url = .ok roomId ∧ roomId.toNat = decimal room) ↔
      Usable (rawQuery url) room := by
  obtain ⟨host, query, h⟩ := validateSignedSocketUrl_eq_ok.mp haccepted
  have hhost := h.host_mem
  rw [h.url_eq, rawQuery_socketUrl hhost, allowedSocket_eq_true_iff uris httpUrls hhost]
  constructor
  · rintro ⟨-, ⟨hlegal, hroom, hsignature⟩, roomId, hread, hnumber⟩
    exact ⟨hlegal, hroom, hsignature, roomId, hnumber,
      (roomIdFromUri_socketUrl hhost query roomId).mp hread⟩
  · intro husable
    obtain ⟨roomId, hnumber, hread⟩ := husable.raw_first
    exact ⟨isAllowedSocketUrl_usable lib hhost husable,
      ⟨husable.legal, husable.room_first, husable.signature_first⟩, roomId,
      (roomIdFromUri_socketUrl hhost query roomId).mpr hread, hnumber⟩

/-! ## Classes that know these URLs only -/

/-- Host and query of a socket URL. -/
def socketParts (scheme url : List Char) : Option (List Char × List Char) :=
  (stripPrefix (scheme ++ "//".toList) url).bind fun rest =>
    (splitOnce '/' rest).bind fun (host, pathAndQuery) =>
      (splitOnce '?' pathAndQuery).map fun (_, query) => (host, query)

theorem socketParts_eq {host : List Char} (h : host ∈ socketHosts) (scheme query : List Char) :
    socketParts scheme (scheme ++ "//".toList ++ (host ++ '/' :: (socketPath ++ '?' :: query))) =
      some (host, query) := by
  have hhost : splitOnce '/' (host ++ '/' :: (socketPath ++ '?' :: query)) =
      some (host, socketPath ++ '?' :: query) := splitOnce_eq_some.mpr ⟨rfl, host_no_slash h⟩
  have hpath : splitOnce '?' (socketPath ++ '?' :: query) = some (socketPath, query) :=
    splitOnce_eq_some.mpr ⟨rfl, socketPath_no_question⟩
  rw [socketParts, stripPrefix_eq_some.mpr rfl, Option.bind_some, hhost, Option.bind_some]
  dsimp only
  rw [hpath, Option.map_some]

def TypeScript.socketUrls : TypeScript.UrlClass where
  new url := (socketParts "wss:".toList url).map fun (host, query) =>
    { protocol := "wss:".toList
      hostname := host
      pathname := '/' :: socketPath
      searchParams := searchParams (utf8 (urlQuery query)) }
  new_socketUrl host hhost query := by
    have hparts := socketParts_eq hhost "wss:".toList query
    exact congrArg (Option.map _) hparts

def Java.socketUris : Java.UriClass where
  create url := (socketParts "wss:".toList url).bind fun (host, query) =>
    if legal (cut '#' query).1 ∧ (cut '#' query).2.all legal then
      some
        { scheme := "wss".toList
          rawUserInfo := none
          fragment := (cut '#' query).2
          port := none
          host := some host
          path := '/' :: socketPath }
    else none
  create_socketUrl host hhost query := by
    have hparts := socketParts_eq hhost "wss:".toList query
    exact congrArg (Option.bind · _) hparts

def Java.socketHttpUrls : Java.HttpUrlClass where
  get url := (socketParts "https:".toList url).map fun (_, query) => formPairs (utf8 query)
  get_socketUrl host hhost query _ := by
    have hparts := socketParts_eq hhost "https:".toList query
    exact congrArg (Option.map _) hparts

theorem ticket_usable_plain :
    TypeScript.isAllowedSocketUrl TypeScript.socketUrls
        (exampleUrl "room_id=7300&X-Gnarly=s") "7300".toList = true ∧
      Java.allowedSocket Java.socketUris Java.socketHttpUrls
        (exampleUrl "room_id=7300&X-Gnarly=s") "7300".toList = true ∧
      ∃ roomId, roomIdFromUri (exampleUrl "room_id=7300&X-Gnarly=s") = .ok roomId ∧
        roomId.toNat = decimal "7300".toList :=
  (ticket_usable_iff _ _ _ _ _ (by decide)).mpr
    ⟨by decide, by decide, ⟨[115], by decide, by decide⟩,
      ⟨7300, by decide, by decide⟩⟩

/-- A space in the query, as the signer leaves it there, is no URI to Java. -/
theorem space_locks_java_out :
    let url := exampleUrl "browser_version=5.0 (X11)&room_id=7300&X-Gnarly=s"
    validateSignedSocketUrl url "7300".toList = .ok () ∧
      TypeScript.isAllowedSocketUrl TypeScript.socketUrls url "7300".toList = true ∧
      Java.allowedSocket Java.socketUris Java.socketHttpUrls url "7300".toList = false := by
  decide

end TiktokSigner.Parity
