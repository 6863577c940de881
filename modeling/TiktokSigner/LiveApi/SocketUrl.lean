import TiktokSigner.LiveWs.OpenUri

/-!
# The signed socket URL

`validate_signed_socket_url` is the broker's check of what its signer
returns, and `SocketUrl` the shape of what passes it: a fixed host and path,
and a query with the room and a signature somewhere in it. The check says
nothing about the other characters of the query.

Two clients then dial the URL. The direct one sanitises it (`open_uri`), the
relay escapes the spaces in it (`tiktok_request`). They hand the same string
to the URI parser exactly where spaces are the only unsafe characters.
-/

namespace TiktokSigner.LiveApi

open Text LiveWs

/-! ## The broker's check -/

inductive SignFailure where
  | failed (message : String)
deriving DecidableEq

def socketHosts : List (List Char) :=
  ["webcast-ws.tiktok.com".toList, "webcast-ws.us.tiktok.com".toList,
    "webcast-ws.eu.tiktok.com".toList]

def socketPath : List Char := "webcast/im/ws_proxy/ws_reuse_supplement/".toList

def validateSignedSocketUrl (url roomId : List Char) : Except SignFailure Unit :=
  if roomId = [] ∨ ¬roomId.all Char.isDigit then
    .error (.failed "signer was asked to sign an invalid room id")
  else
    match stripPrefix "wss://".toList url with
    | none => .error (.failed "signer returned a non-WebSocket URL")
    | some rest =>
        match splitOnce '/' rest with
        | none => .error (.failed "signer returned an incomplete WebSocket URL")
        | some (host, pathAndQuery) =>
            if host ∉ socketHosts then
              .error (.failed "signer returned an unexpected WebSocket host")
            else
              match splitOnce '?' pathAndQuery with
              | none => .error (.failed "signer returned a WebSocket URL without a query")
              | some (path, query) =>
                  if path ≠ socketPath then
                    .error (.failed "signer returned an unexpected WebSocket path")
                  else
                    let roomMatches := (rawPairs query).any fun (key, value) =>
                      key == "room_id".toList && value == roomId
                    let hasSignature := (rawPairs query).any fun (key, value) =>
                      key == "X-Gnarly".toList && value != []
                    if !roomMatches || !hasSignature then
                      .error (.failed "signer returned a descriptor missing its room or signature")
                    else .ok ()

/-- A socket URL with any query. -/
def socketUrl (host query : List Char) : List Char :=
  "wss://".toList ++ (host ++ '/' :: (socketPath ++ '?' :: query))

/-- What the check lets through. -/
structure Accepted (url roomId host query : List Char) : Prop where
  room : roomId ≠ [] ∧ roomId.all Char.isDigit
  host_mem : host ∈ socketHosts
  url_eq : url = socketUrl host query
  roomMatches : ("room_id".toList, roomId) ∈ rawPairs query
  hasSignature : ∃ value, ("X-Gnarly".toList, value) ∈ rawPairs query ∧ value ≠ []

theorem socketPath_no_question : '?' ∉ socketPath := by decide

theorem host_no_slash {host : List Char} (h : host ∈ socketHosts) : '/' ∉ host := by
  have hall : ∀ host ∈ socketHosts, '/' ∉ host := by decide
  exact hall host h

theorem validateSignedSocketUrl_eq_ok {url roomId : List Char} :
    validateSignedSocketUrl url roomId = .ok () ↔ ∃ host query, Accepted url roomId host query := by
  unfold validateSignedSocketUrl
  constructor
  · intro h
    split_ifs at h with hroom
    split at h
    case h_1 => cases h
    case h_2 rest hrest =>
      split at h
      case h_1 => cases h
      case h_2 host pathAndQuery hhost =>
        split_ifs at h with hmem
        split at h
        case h_1 => cases h
        case h_2 path query hpath =>
          split_ifs at h with hsocket
          dsimp only at h
          split_ifs at h with hpairs
          have hurl := stripPrefix_eq_some.mp hrest
          obtain ⟨hrest', -⟩ := splitOnce_eq_some.mp hhost
          obtain ⟨hquery, -⟩ := splitOnce_eq_some.mp hpath
          push Not at hroom hsocket
          subst hsocket hquery hrest'
          simp only [Bool.or_eq_true, Bool.not_eq_true', not_or, Bool.not_eq_false,
            List.any_eq_true, Bool.and_eq_true, beq_iff_eq, bne_iff_ne] at hpairs
          obtain ⟨⟨⟨_, _⟩, hin, rfl, rfl⟩, ⟨⟨_, value⟩, hin', rfl, hvalue⟩⟩ := hpairs
          exact ⟨host, query, hroom, hmem, hurl, hin, value, hin', hvalue⟩
  · rintro ⟨host, query, h⟩
    obtain ⟨value, hsignature, hvalue⟩ := h.hasSignature
    have hurl : stripPrefix "wss://".toList url =
        some (host ++ '/' :: (socketPath ++ '?' :: query)) := stripPrefix_eq_some.mpr h.url_eq
    have hhost : splitOnce '/' (host ++ '/' :: (socketPath ++ '?' :: query)) =
        some (host, socketPath ++ '?' :: query) :=
      splitOnce_eq_some.mpr ⟨rfl, host_no_slash h.host_mem⟩
    have hpath : splitOnce '?' (socketPath ++ '?' :: query) = some (socketPath, query) :=
      splitOnce_eq_some.mpr ⟨rfl, socketPath_no_question⟩
    have hroom : ((rawPairs query).any fun (key, value) =>
        key == "room_id".toList && value == roomId) = true :=
      List.any_eq_true.mpr ⟨_, h.roomMatches, by simp⟩
    have hsigned : ((rawPairs query).any fun (key, value) =>
        key == "X-Gnarly".toList && value != []) = true :=
      List.any_eq_true.mpr ⟨_, hsignature, by simp [hvalue]⟩
    rw [if_neg (by simpa using h.room), hurl]
    simp only [hhost, h.host_mem, hpath, hroom, hsigned, not_true_eq_false, if_false, ne_eq,
      Bool.not_true, Bool.or_self, Bool.false_eq_true]

/-! ## Two ways to dial it -/

/-- The string that `tiktok_request` hands to `into_client_request`. -/
def tiktokRequestUri (url : List Char) : Except String (List Char) :=
  if ¬"wss://".toList.isPrefixOf url ∧ ¬"ws://".toList.isPrefixOf url then
    .error "live descriptor has an unsupported scheme"
  else .ok (url.flatMap fun c => if c = ' ' then "%20".toList else [c])

theorem tiktokRequestUri_accepted {url roomId : List Char}
    (h : validateSignedSocketUrl url roomId = .ok ()) :
    tiktokRequestUri url = .ok (url.flatMap fun c => if c = ' ' then "%20".toList else [c]) := by
  obtain ⟨host, query, haccepted⟩ := validateSignedSocketUrl_eq_ok.mp h
  have hscheme : "wss://".toList.isPrefixOf url :=
    List.isPrefixOf_iff_prefix.mpr ⟨_, haccepted.url_eq.symm⟩
  rw [tiktokRequestUri, if_neg fun hnot => hnot.1 hscheme]

/-- Text rewritten character by character. Where one rewriting is never
longer than the other, both give the same only if they do so throughout. -/
theorem length_eq_of_flatMap_eq {f g : Char → List Char}
    (hle : ∀ c, (f c).length ≤ (g c).length) : ∀ {text : List Char},
    (text.flatMap g).length ≤ (text.flatMap f).length → ∀ c ∈ text, (f c).length = (g c).length
  | [], _ => by simp
  | c :: text, h => by
      have hall : ∀ text : List Char, (text.flatMap f).length ≤ (text.flatMap g).length := by
        intro text
        induction text with
        | nil => exact Nat.le_refl _
        | cons d text ih =>
          have hd := hle d
          simp only [List.flatMap_cons, List.length_append]
          omega
      simp only [List.flatMap_cons, List.length_append] at h
      have hc := hle c
      have htext := hall text
      rw [List.forall_mem_cons]
      exact ⟨by omega, length_eq_of_flatMap_eq hle (by omega)⟩

theorem escapeSpaces_eq_iff (url : List Char) :
    (url.flatMap fun c => if c = ' ' then "%20".toList else [c]) = url.flatMap sanitizeChar ↔
      ∀ c ∈ url, c = ' ' ∨ isUriSafe c := by
  have hspace : sanitizeChar ' ' = "%20".toList := by decide
  constructor
  · intro heq c hc
    by_contra hnot
    rw [not_or] at hnot
    have hle : ∀ c, (if c = ' ' then "%20".toList else [c]).length ≤ (sanitizeChar c).length := by
      intro c
      by_cases h : c = ' '
      · rw [if_pos h, h, hspace]
      · rw [if_neg h]
        by_cases hsafe : isUriSafe c
        · rw [sanitizeChar_safe hsafe]
        · have hthree := length_sanitizeChar hsafe
          rw [List.length_singleton]
          omega
    have hlength := length_eq_of_flatMap_eq hle (Nat.le_of_eq (congrArg List.length heq.symm)) c hc
    have hthree := length_sanitizeChar hnot.2
    rw [if_neg hnot.1, List.length_singleton] at hlength
    omega
  · intro hsafe
    induction url with
    | nil => rfl
    | cons c url ih =>
      obtain ⟨hc, hurl⟩ := List.forall_mem_cons.mp hsafe
      rw [List.flatMap_cons, List.flatMap_cons, ih hurl]
      rcases hc with rfl | hc
      · rw [if_pos rfl, hspace]
      · by_cases h : c = ' '
        · rw [if_pos h, h, hspace]
        · rw [if_neg h, sanitizeChar_safe hc]

/-- The relay and the direct client dial the same exactly where spaces are
the only characters of the URL that a URI may not contain. -/
theorem relay_dials_same_iff (url roomId : List Char) (cookies : List (String × String))
    (dialed : List Char) (haccepted : validateSignedSocketUrl url roomId = .ok ())
    (hdialed : openUri cookies url = .ok dialed) :
    tiktokRequestUri url = .ok dialed ↔ ∀ c ∈ url, c = ' ' ∨ isUriSafe c := by
  rw [tiktokRequestUri_accepted haccepted, openUri_eq_ok hdialed, sanitizeUri_eq, Except.ok.injEq]
  exact escapeSpaces_eq_iff url

def exampleUrl (query : String) : List Char :=
  socketUrl "webcast-ws.tiktok.com".toList query.toList

theorem relay_dials_same_spaces :
    tiktokRequestUri (exampleUrl "browser_version=5.0 (X11)&room_id=7300&X-Gnarly=s") =
      .ok (exampleUrl "browser_version=5.0%20(X11)&room_id=7300&X-Gnarly=s") := by
  have hsafe : (exampleUrl "browser_version=5.0 (X11)&room_id=7300&X-Gnarly=s").all
      (fun c => c = ' ' ∨ isUriSafe c) = true := by decide
  refine (relay_dials_same_iff _ "7300".toList [("sid", "1")] _ (by decide)
    (by decide +kernel)).mpr fun c hc => ?_
  exact of_decide_eq_true (List.all_eq_true.mp hsafe c hc)

/-- A bar is passed on by the relay and escaped by the direct client. -/
theorem bar_is_dialed_apart :
    let url := exampleUrl "title=|x|&room_id=7300&X-Gnarly=s"
    let dialed := exampleUrl "title=%7Cx%7C&room_id=7300&X-Gnarly=s"
    validateSignedSocketUrl url "7300".toList = .ok () ∧
      openUri [("sid", "1")] url = .ok dialed ∧ tiktokRequestUri url ≠ .ok dialed := by
  decide

end TiktokSigner.LiveApi
