import TiktokSigner.Lib.Regex
import TiktokSigner.Lib.Text
import TiktokSigner.Lib.Utf8

/-!
# The fixture gate

`scan_bytes`, `scan_line` and what they rest on. The patterns are those of
`Patterns::new`, with the characters of words (`\w`) as a parameter. A text
is scanned line by line, and each rule decides on its own what it reports.
-/

namespace TiktokSigner.FixtureHygiene

open Regex Regex.Pattern Text

/-- The classes of leak the gate refuses. -/
inductive Rule where
  | sensitiveCookieValue
  | signedQueryParameter
  | signedFieldRawValue
  | signedUrlToRealHost
  | vmOperandValue
  deriving DecidableEq

def Rule.id : Rule → String
  | sensitiveCookieValue => "sensitive-cookie-value"
  | signedQueryParameter => "signed-query-parameter"
  | signedFieldRawValue => "signed-field-raw-value"
  | signedUrlToRealHost => "signed-url-to-real-host"
  | vmOperandValue => "vm-operand-value"

/-- A single hygiene violation, described without reproducing the secret it
found. The line is missing for a binary file. -/
structure Finding where
  path : String
  line : Option Nat
  rule : Rule
  field : Option String
  valueLen : Nat
  deriving DecidableEq

def Finding.fmt (self : Finding) : String :=
  let where_ := match self.line with
    | some line => self.path ++ ":" ++ toString line
    | none => self.path ++ " (binary)"
  match self.field with
  | some field =>
      where_ ++ ": " ++ self.rule.id ++ " — `" ++ field ++ "` with non-synthetic value (len " ++
        toString self.valueLen ++ ")"
  | none => where_ ++ ": " ++ self.rule.id ++ " (len " ++ toString self.valueLen ++ ")"

/-! ## Names and markers -/

/-- Cookie names that must never appear with a real value. -/
def sensitiveCookies : List String :=
  ["msToken", "ttwid", "sessionid", "sessionid_ss", "sid_tt", "sid_guard", "uid_tt", "uid_tt_ss",
    "tt_csrf_token", "tt_chain_token", "passport_csrf_token", "passport_auth_status", "odin_tt",
    "s_v_web_id", "store-idc", "store-country-code"]

/-- Host fragments that identify a real endpoint. -/
def realHosts : List String :=
  ["tiktok.com", "tiktokv.com", "tiktokcdn", "ttwstatic.com", "byteoversea.com", "bytedance",
    "musical.ly", "ibytedtos.com", "ipstatp.com"]

/-- Values recognized as deliberately synthetic. -/
def syntheticMarkers : List String :=
  ["fixture", "synthetic", "placeholder", "example", "sample", "do-not-serialize",
    "never-observed", "redacted", "sanitized", "dummy", "test-token", "test_token"]

def isSyntheticValue (value : List Char) : Bool :=
  let value := trim isWhitespace value
  if byteLen value < 12 then true
  else
    let lower := toAsciiLowercase value
    syntheticMarkers.any fun m => contains m.toList lower

def eqIgnoreAsciiCase (a b : List Char) : Bool := toAsciiLowercase a == toAsciiLowercase b

/-- The confirmed, non-secret constant `X-Bogus=1`. -/
def isConfirmedXBogus (key value : List Char) : Bool :=
  eqIgnoreAsciiCase key "X-Bogus".toList && trim isWhitespace value == ['1']

/-! ## Patterns -/

def signingFieldKeys : List String :=
  ["X-Gnarly", "X-Dynosaur", "_signature", "signature", "x-tt-params", "X-Argus", "X-Ladon",
    "X-Khronos", "X-Bogus"]

def queryParamKeys : List String :=
  ["X-Gnarly", "X-Dynosaur", "X-Bogus", "_signature", "signature", "msToken", "x-tt-params",
    "X-Argus", "X-Ladon", "X-Khronos"]

def vmRawKeys : List String :=
  ["operands", "operand_values", "operand_examples", "string_table", "strings", "numbers",
    "bytecode"]

/-- One of the characters. -/
def isOneOf (chars : String) (c : Char) : Bool := chars.toList.contains c

/-- None of the characters, and no whitespace. -/
def isNoneOf (chars : String) (c : Char) : Bool := !isOneOf chars c && !isWhitespace c

def quote : Pattern := one (isOneOf "\"")

def blanks : Pattern := run isWhitespace 0

/-- `name=value` and JSON `["name", "value"]` / `"name": "value"` cookie
forms. -/
def cookieKv : Pattern :=
  all [maybe quote, boundary, group (oneOf sensitiveCookies), maybe quote, blanks,
    one (isOneOf "=:,"), blanks, maybe quote, group (run (isNoneOf ";\"',\x7d]") 0)]

/-- JSON `"key": "value"` and `["key", "value"]` for signing keys. -/
def signingField : Pattern :=
  all [quote, group (oneOf signingFieldKeys), quote, blanks, one (isOneOf ":,"), blanks, quote,
    group (run (fun c => !isOneOf "\"" c) 0), quote]

/-- `?name=value` or `&name=value` query parameter. -/
def queryParam : Pattern :=
  all [one (isOneOf "?&"), group (oneOf queryParamKeys), one (isOneOf "="),
    group (run (isNoneOf "&\"'") 0)]

/-- A URL token: scheme://host...[?query]. -/
def url : Pattern :=
  all [boundary,
    either (seq (word "http".toList) (maybe (word "s".toList)))
      (seq (word "ws".toList) (maybe (word "s".toList))),
    word "://".toList, run (isNoneOf "\"'`)]\x7d<>") 1]

/-- A JSON key that carries raw VM operand or table contents. -/
def vmRawKey : Pattern :=
  all [quote, group (oneOf vmRawKeys), quote, blanks, one (isOneOf ":")]

def isHexDigit (c : Char) : Bool :=
  ('0' ≤ c && c ≤ '9') || ('a' ≤ c && c ≤ 'f') || ('A' ≤ c && c ≤ 'F')

/-- A hex byte string stored under a `bytes` key. -/
def vmRawBytes : Pattern :=
  all [quote, word "bytes".toList, quote, blanks, one (isOneOf ":"), blanks, quote,
    group (run isHexDigit 8), quote]

/-! ## Rules -/

section Rules

variable (isWord : Char → Bool) (path : String) (line : Option Nat)

/-- Sensitive cookies with a non-synthetic value. -/
def cookieFinding (capture : Read) : Option Finding :=
  let name := capture.group 0
  let value := capture.group 1
  if !sensitiveCookies.any (fun c => eqIgnoreAsciiCase c.toList name) then none
  else if !isSyntheticValue value then
    some ⟨path, line, .sensitiveCookieValue, some (String.ofList name), byteLen value⟩
  else none

/-- Signing fields stored as raw JSON string values. -/
def signingFieldFinding (capture : Read) : Option Finding :=
  let key := capture.group 0
  let value := capture.group 1
  if isConfirmedXBogus key value || isSyntheticValue value then none
  else some ⟨path, line, .signedFieldRawValue, some (String.ofList key), byteLen value⟩

/-- Signing query parameters with a captured value. -/
def queryParamFinding (capture : Read) : Option Finding :=
  let key := capture.group 0
  let value := capture.group 1
  if isConfirmedXBogus key value then none
  else if byteLen value < 12 then none
  else if isSyntheticValue value then none
  else some ⟨path, line, .signedQueryParameter, some (String.ofList key), byteLen value⟩

/-- What stands between the scheme and the path of a URL. -/
def urlHost (url : List Char) : List Char :=
  match splitOnceText "://".toList url with
  | some (_, rest) => rest.takeWhile fun c => !isOneOf "/?#" c
  | none => []

def isRealHost (host : List Char) : Bool :=
  let hostLower := toAsciiLowercase host
  if ".invalid".toList.isSuffixOf hostLower || contains "fixture".toList hostLower then false
  else realHosts.any fun h => contains h.toList hostLower

def carriesSigning (query : List Char) : Bool :=
  (queryParam.capturesIter isWord query).any fun capture =>
    let key := capture.group 0
    let value := capture.group 1
    !isConfirmedXBogus key value && 12 ≤ byteLen value && !isSyntheticValue value

/-- Reusable signed URLs to real hosts. -/
def urlFinding (urlMatch : Read) : Option Finding :=
  let url := urlMatch.text
  match splitOnce '?' url with
  | none => none
  | some (_, query) =>
      let host := urlHost url
      if !isRealHost host then none
      else
        -- the first pair has no separator once the `?` is stripped
        let query := '&' :: query
        if carriesSigning isWord query then
          some ⟨path, line, .signedUrlToRealHost, some (String.ofList host), byteLen query - 1⟩
        else none

def vmRawKeyFinding (capture : Read) : Finding :=
  ⟨path, line, .vmOperandValue, some (String.ofList (capture.group 0)), 0⟩

def vmRawBytesFinding (capture : Read) : Finding :=
  ⟨path, line, .vmOperandValue, some "bytes", byteLen (capture.group 0)⟩

def scanLine (text : List Char) : List Finding :=
  (cookieKv.capturesIter isWord text).filterMap (cookieFinding path line) ++
    (signingField.capturesIter isWord text).filterMap (signingFieldFinding path line) ++
    (queryParam.capturesIter isWord text).filterMap (queryParamFinding path line) ++
    (url.capturesIter isWord text).filterMap (urlFinding isWord path line) ++
    (vmRawKey.capturesIter isWord text).map (vmRawKeyFinding path line) ++
    (vmRawBytes.capturesIter isWord text).map (vmRawBytesFinding path line)

end Rules

/-- The texts that are scanned as one, with their line numbers. A file with
a NUL byte is binary and has no lines. -/
def scanned (bytes : List UInt8) : List (Option Nat × List Char) :=
  let text := Utf8.decodeLossy none bytes
  if bytes.contains 0 then [(none, text)]
  else (lines text).zipIdx.map fun (text, index) => (some (index + 1), text)

def scanBytes (isWord : Char → Bool) (path : String) (bytes : List UInt8) : List Finding :=
  (scanned bytes).flatMap fun (line, text) => scanLine isWord path line text

end TiktokSigner.FixtureHygiene
