import TiktokSigner.FixtureHygiene.Scan

/-!
# What the findings of the gate repeat

A finding names a field. It is a name of a pattern, in whatever case it is
written (`declassified_iff` and the lemmas before it), but for a signed URL
it is all that stands before the path, and that is the host and the port
only where there is no user information. What may be shown of a text is its
view (`LineView`): the names, the lengths and the verdicts on the values,
and the host and the port of a URL. Where no reported URL has user
information, the findings are those of the view (`scanLine_eq_report`).
-/

namespace TiktokSigner.FixtureHygiene

open Regex Regex.Pattern Text

/-! ## Names -/

/-- The names that a rule may report. -/
def Rule.names : Rule → List String
  | sensitiveCookieValue => sensitiveCookies
  | signedQueryParameter => queryParamKeys
  | signedFieldRawValue => signingFieldKeys
  | signedUrlToRealHost => []
  | vmOperandValue => "bytes" :: vmRawKeys

def Named (names : List String) (label : List Char) : Prop :=
  ∃ name ∈ names, SameFolded label name.toList

section Names

variable (isWord : Char → Bool)

theorem named_oneOf (names : List String) (rest : Pattern) :
    FirstGroup isWord (Named names) ((oneOf names).group.seq rest) :=
  firstGroup_group fun _ _ _ => text_of_mem_oneOf

theorem named_cookieKv : FirstGroup isWord (Named sensitiveCookies) cookieKv :=
  .seq ⟨trivial, trivial⟩ (.seq trivial (named_oneOf isWord _ _))

theorem named_signingField : FirstGroup isWord (Named signingFieldKeys) signingField :=
  .seq trivial (named_oneOf isWord _ _)

theorem named_queryParam : FirstGroup isWord (Named queryParamKeys) queryParam :=
  .seq trivial (named_oneOf isWord _ _)

theorem named_vmRawKey : FirstGroup isWord (Named vmRawKeys) vmRawKey :=
  .seq trivial (named_oneOf isWord _ _)

theorem named_of_capture {isWord : Char → Bool} {names : List String} {pattern : Pattern}
    (hpattern : FirstGroup isWord (Named names) pattern) {text : List Char} {capture : Read}
    (h : capture ∈ pattern.capturesIter isWord text) : Named names (capture.group 0) := by
  obtain ⟨before, text, hread⟩ := mem_scan h
  exact hpattern before text capture hread

end Names

/-! ## URLs -/

/-- What follows the user information. -/
def hostPort (authority : List Char) : List Char := authority.rtakeWhile fun c => c != '@'

/-- What stands before the host and the port, with the `@` that ends it. -/
def userInfo (authority : List Char) : List Char := authority.rdropWhile fun c => c != '@'

/-- The URL is a signed one to a real host. -/
def isReported (isWord : Char → Bool) (url : List Char) : Bool :=
  match splitOnce '?' url with
  | none => false
  | some (_, query) => isRealHost (urlHost url) && carriesSigning isWord ('&' :: query)

theorem notMem_hostPort (authority : List Char) : '@' ∉ hostPort authority := fun h => by
  simpa using List.mem_rtakeWhile_imp h

theorem hostPort_of_notMem {authority : List Char} (h : '@' ∉ authority) :
    hostPort authority = authority :=
  List.rtakeWhile_eq_self_iff.mpr fun _ hc => bne_iff_ne.mpr fun heq => h (heq ▸ hc)

theorem userInfo_eq_nil_iff {authority : List Char} :
    userInfo authority = [] ↔ '@' ∉ authority := by
  rw [userInfo, List.rdropWhile_eq_nil_iff]
  exact ⟨fun h hmem => by simpa using h '@' hmem,
    fun h c hc => bne_iff_ne.mpr fun heq => h (heq ▸ hc)⟩

section Urls

variable (isWord : Char → Bool) (path : String) (line : Option Nat)

theorem urlFinding_eq (read : Read) :
    urlFinding isWord path line read
      = if isReported isWord read.text then
          (splitOnce '?' read.text).map fun parts =>
            ⟨path, line, .signedUrlToRealHost, some (String.ofList (urlHost read.text)),
              byteLen ('&' :: parts.2) - 1⟩
        else none := by
  rw [urlFinding, isReported]
  cases splitOnce '?' read.text with
  | none => rfl
  | some parts =>
    obtain ⟨_, query⟩ := parts
    rcases Bool.eq_false_or_eq_true (isRealHost (urlHost read.text)) with hhost | hhost
    · simp [hhost]
    · simp [hhost]

end Urls

/-! ## What may be shown -/

/-- The label of a finding in a text: a name of the rule, or the host and the
port of a URL in the text. -/
def IsPublic (isWord : Char → Bool) (text : List Char) (rule : Rule) (label : List Char) : Prop :=
  Named rule.names label ∨
    rule = .signedUrlToRealHost ∧
      ∃ read ∈ url.capturesIter isWord text, label = hostPort (urlHost read.text)

/-- The finding is made of the path, the line, a rule, a length and a label
that is public. -/
def IsDeclassified (isWord : Char → Bool) (path : String) (line : Option Nat) (text : List Char)
    (finding : Finding) : Prop :=
  ∃ label, IsPublic isWord text finding.rule label ∧
    finding = ⟨path, line, finding.rule, some (String.ofList label), finding.valueLen⟩

def Declassified (isWord : Char → Bool) (path : String) (bytes : List UInt8) : Prop :=
  ∀ part ∈ scanned bytes, ∀ finding ∈ scanLine isWord path part.1 part.2,
    IsDeclassified isWord path part.1 part.2 finding

/-- No URL that is reported has user information. -/
def NoUserInfo (isWord : Char → Bool) (bytes : List UInt8) : Prop :=
  ∀ part ∈ scanned bytes, ∀ read ∈ url.capturesIter isWord part.2,
    isReported isWord read.text → '@' ∉ urlHost read.text

/-- A value by its length and by what the gate takes it for. -/
structure Shown where
  name : List Char
  len : Nat
  synthetic : Bool
  confirmed : Bool
  deriving DecidableEq

def shown (capture : Read) : Shown where
  name := capture.group 0
  len := byteLen (capture.group 1)
  synthetic := isSyntheticValue (capture.group 1)
  confirmed := isConfirmedXBogus (capture.group 0) (capture.group 1)

/-- A URL by its host and port, its parameters and the lengths of the rest. -/
structure UrlShown where
  userInfoLen : Nat
  hostPort : List Char
  query : Option (Nat × List Shown)
  deriving DecidableEq

def urlShown (isWord : Char → Bool) (url : List Char) : UrlShown where
  userInfoLen := byteLen (userInfo (urlHost url))
  hostPort := FixtureHygiene.hostPort (urlHost url)
  query := (splitOnce '?' url).map fun parts =>
    (byteLen parts.2, (queryParam.capturesIter isWord ('&' :: parts.2)).map shown)

/-- What may be shown of a text: all that the patterns find in it but the
values, the paths and the user information. -/
structure LineView where
  cookies : List Shown
  fields : List Shown
  params : List Shown
  urls : List UrlShown
  rawKeys : List (List Char)
  rawBytes : List Nat
  deriving DecidableEq

def lineView (isWord : Char → Bool) (text : List Char) : LineView where
  cookies := (cookieKv.capturesIter isWord text).map shown
  fields := (signingField.capturesIter isWord text).map shown
  params := (queryParam.capturesIter isWord text).map shown
  urls := (url.capturesIter isWord text).map fun read => urlShown isWord read.text
  rawKeys := (vmRawKey.capturesIter isWord text).map fun capture => capture.group 0
  rawBytes := (vmRawBytes.capturesIter isWord text).map fun capture => byteLen (capture.group 0)

/-- The texts differ in values, in paths and in user information only, and
these are as long and are taken for the same. -/
def Alike (isWord : Char → Bool) (bytes bytes' : List UInt8) : Prop :=
  ((scanned bytes).map fun part => (part.1, lineView isWord part.2))
    = (scanned bytes').map fun part => (part.1, lineView isWord part.2)

/-! ## Labels -/

section Labels

variable {isWord : Char → Bool} {path : String} {line : Option Nat} {text : List Char}

theorem declassified_of_named (rule : Rule) {name : List Char} (hname : Named rule.names name)
    (len : Nat) :
    IsDeclassified isWord path line text ⟨path, line, rule, some (String.ofList name), len⟩ :=
  ⟨name, Or.inl hname, rfl⟩

theorem cookieFinding_declassified {capture : Read} {finding : Finding}
    (hcapture : capture ∈ cookieKv.capturesIter isWord text)
    (h : cookieFinding path line capture = some finding) :
    IsDeclassified isWord path line text finding := by
  rw [cookieFinding] at h
  split_ifs at h
  obtain rfl := Option.some.inj h
  exact declassified_of_named .sensitiveCookieValue
    (named_of_capture (named_cookieKv isWord) hcapture) _

theorem signingFieldFinding_declassified {capture : Read} {finding : Finding}
    (hcapture : capture ∈ signingField.capturesIter isWord text)
    (h : signingFieldFinding path line capture = some finding) :
    IsDeclassified isWord path line text finding := by
  rw [signingFieldFinding] at h
  split_ifs at h
  obtain rfl := Option.some.inj h
  exact declassified_of_named .signedFieldRawValue
    (named_of_capture (named_signingField isWord) hcapture) _

theorem queryParamFinding_declassified {capture : Read} {finding : Finding}
    (hcapture : capture ∈ queryParam.capturesIter isWord text)
    (h : queryParamFinding path line capture = some finding) :
    IsDeclassified isWord path line text finding := by
  rw [queryParamFinding] at h
  split_ifs at h
  obtain rfl := Option.some.inj h
  exact declassified_of_named .signedQueryParameter
    (named_of_capture (named_queryParam isWord) hcapture) _

theorem vmRawKeyFinding_declassified {capture : Read}
    (hcapture : capture ∈ vmRawKey.capturesIter isWord text) :
    IsDeclassified isWord path line text (vmRawKeyFinding path line capture) := by
  obtain ⟨name, hname, hsame⟩ := named_of_capture (named_vmRawKey isWord) hcapture
  exact declassified_of_named .vmOperandValue ⟨name, List.mem_cons_of_mem _ hname, hsame⟩ _

theorem vmRawBytesFinding_declassified (capture : Read) :
    IsDeclassified isWord path line text (vmRawBytesFinding path line capture) :=
  ⟨"bytes".toList, Or.inl ⟨_, List.mem_cons_self, rfl⟩, by simp [vmRawBytesFinding]⟩

/-- The label of a signed URL is public exactly where there is no user
information. -/
theorem urlFinding_declassified_iff {read : Read} {finding : Finding}
    (hread : read ∈ url.capturesIter isWord text)
    (h : urlFinding isWord path line read = some finding) :
    IsDeclassified isWord path line text finding ↔ '@' ∉ urlHost read.text := by
  rw [urlFinding_eq] at h
  split_ifs at h
  obtain ⟨parts, -, rfl⟩ := Option.map_eq_some_iff.mp h
  constructor
  · rintro ⟨label, hlabel, hfinding⟩
    have hsame : urlHost read.text = label :=
      String.ofList_injective (Option.some.inj (congrArg Finding.field hfinding))
    rcases hlabel with ⟨name, hname, -⟩ | ⟨-, read', -, hhost⟩
    · cases hname
    · rw [hsame, hhost]
      exact notMem_hostPort _
  · intro hnot
    exact ⟨_, Or.inr ⟨rfl, read, hread, (hostPort_of_notMem hnot).symm⟩, rfl⟩

theorem isReported_iff (path : String) (line : Option Nat) {read : Read} :
    isReported isWord read.text ↔ ∃ finding, urlFinding isWord path line read = some finding := by
  rw [urlFinding_eq]
  constructor
  · intro h
    rw [if_pos h]
    cases hsplit : splitOnce '?' read.text with
    | none => rw [isReported, hsplit] at h; cases h
    | some parts => exact ⟨_, rfl⟩
  · rintro ⟨finding, h⟩
    split_ifs at h with hreported
    exact hreported

theorem scanLine_declassified_iff :
    (∀ finding ∈ scanLine isWord path line text, IsDeclassified isWord path line text finding)
      ↔ ∀ read ∈ url.capturesIter isWord text, isReported isWord read.text →
        '@' ∉ urlHost read.text := by
  constructor
  · intro h read hread hreported
    obtain ⟨finding, hfinding⟩ := (isReported_iff path line).mp hreported
    refine (urlFinding_declassified_iff hread hfinding).mp (h finding ?_)
    simp only [scanLine, List.mem_append, List.mem_filterMap]
    exact Or.inl (Or.inl (Or.inr ⟨read, hread, hfinding⟩))
  · intro h finding hfinding
    simp only [scanLine, List.mem_append, List.mem_filterMap, List.mem_map] at hfinding
    rcases hfinding with ((((⟨capture, hcapture, hmine⟩ | ⟨capture, hcapture, hmine⟩) |
      ⟨capture, hcapture, hmine⟩) | ⟨read, hread, hmine⟩) | ⟨capture, hcapture, rfl⟩) |
      ⟨capture, -, rfl⟩
    · exact cookieFinding_declassified hcapture hmine
    · exact signingFieldFinding_declassified hcapture hmine
    · exact queryParamFinding_declassified hcapture hmine
    · exact (urlFinding_declassified_iff hread hmine).mpr
        (h read hread ((isReported_iff path line).mpr ⟨finding, hmine⟩))
    · exact vmRawKeyFinding_declassified hcapture
    · exact vmRawBytesFinding_declassified capture

theorem declassified_iff {bytes : List UInt8} :
    Declassified isWord path bytes ↔ NoUserInfo isWord bytes :=
  forall₂_congr fun _ _ => scanLine_declassified_iff

end Labels

/-! ## Texts that are alike -/

section Alike

variable {isWord : Char → Bool} {path : String} {line : Option Nat} {text text' : List Char}

/-- What is alike in one view is alike in another that follows from it. -/
theorem map_eq_of_map_eq {α β γ : Type} {view : α → β} {f : α → γ} {l l' : List α}
    (hview : l.map view = l'.map view)
    (hf : ∀ a ∈ l, ∀ a' ∈ l', view a = view a' → f a = f a') : l.map f = l'.map f := by
  induction l generalizing l' with
  | nil => rw [List.map_eq_nil_iff.mp hview.symm]
  | cons a l ih =>
    cases l' with
    | nil => cases hview
    | cons a' l' =>
      obtain ⟨ha, hl⟩ := List.cons.inj hview
      rw [List.map_cons, List.map_cons, hf a List.mem_cons_self a' List.mem_cons_self ha,
        ih hl fun b hb b' hb' => hf b (List.mem_cons_of_mem _ hb) b' (List.mem_cons_of_mem _ hb')]

theorem filterMap_eq_of_map_eq {α β γ : Type} {view : α → β} {f : α → Option γ} {l l' : List α}
    (hview : l.map view = l'.map view)
    (hf : ∀ a ∈ l, ∀ a' ∈ l', view a = view a' → f a = f a') :
    l.filterMap f = l'.filterMap f := by
  have hid : ∀ l : List α, l.filterMap f = (l.map f).filterMap id := fun l => by
    rw [List.filterMap_map]
    rfl
  rw [hid l, hid l', map_eq_of_map_eq hview hf]

theorem any_eq_of_map_eq {α β : Type} {view : α → β} {p : α → Bool} {l l' : List α}
    (hview : l.map view = l'.map view)
    (hp : ∀ a ∈ l, ∀ a' ∈ l', view a = view a' → p a = p a') : l.any p = l'.any p := by
  have hid : ∀ l : List α, l.any p = (l.map p).any id := fun l => by
    rw [List.any_map]
    rfl
  rw [hid l, hid l', map_eq_of_map_eq hview hp]

/-- Captures that are shown alike. -/
theorem shown_eq {capture capture' : Read} (h : shown capture = shown capture') :
    capture.group 0 = capture'.group 0 ∧
      byteLen (capture.group 1) = byteLen (capture'.group 1) ∧
      isSyntheticValue (capture.group 1) = isSyntheticValue (capture'.group 1) ∧
      isConfirmedXBogus (capture.group 0) (capture.group 1)
        = isConfirmedXBogus (capture'.group 0) (capture'.group 1) :=
  ⟨congrArg Shown.name h, congrArg Shown.len h, congrArg Shown.synthetic h,
    congrArg Shown.confirmed h⟩

theorem cookieFinding_alike {capture capture' : Read} (h : shown capture = shown capture') :
    cookieFinding path line capture = cookieFinding path line capture' := by
  obtain ⟨hname, hlen, hsynthetic, -⟩ := shown_eq h
  rw [cookieFinding, cookieFinding, hname, hlen, hsynthetic]

theorem signingFieldFinding_alike {capture capture' : Read} (h : shown capture = shown capture') :
    signingFieldFinding path line capture = signingFieldFinding path line capture' := by
  obtain ⟨hname, hlen, hsynthetic, hconfirmed⟩ := shown_eq h
  rw [signingFieldFinding, signingFieldFinding, hconfirmed, hname, hlen, hsynthetic]

theorem queryParamFinding_alike {capture capture' : Read} (h : shown capture = shown capture') :
    queryParamFinding path line capture = queryParamFinding path line capture' := by
  obtain ⟨hname, hlen, hsynthetic, hconfirmed⟩ := shown_eq h
  rw [queryParamFinding, queryParamFinding, hconfirmed, hname, hlen, hsynthetic]

theorem carriesSigning_alike {query query' : List Char}
    (h : (queryParam.capturesIter isWord query).map shown
      = (queryParam.capturesIter isWord query').map shown) :
    carriesSigning isWord query = carriesSigning isWord query' := by
  refine any_eq_of_map_eq h fun capture _ capture' _ hshown => ?_
  obtain ⟨-, hlen, hsynthetic, hconfirmed⟩ := shown_eq hshown
  simp only [hlen, hsynthetic, hconfirmed]

/-- Where one host has user information the other has it too, and where it
has none the hosts are the same. -/
theorem urlHost_alike {url url' : List Char} (h : urlShown isWord url = urlShown isWord url') :
    '@' ∈ urlHost url ∧ '@' ∈ urlHost url' ∨ urlHost url = urlHost url' := by
  have hlen : byteLen (userInfo (urlHost url)) = byteLen (userInfo (urlHost url')) :=
    congrArg UrlShown.userInfoLen h
  have hhost : hostPort (urlHost url) = hostPort (urlHost url') := congrArg UrlShown.hostPort h
  by_cases hat : '@' ∈ urlHost url
  · refine Or.inl ⟨hat, by_contra fun hat' => userInfo_eq_nil_iff.not_left.mpr hat ?_⟩
    rw [userInfo_eq_nil_iff.mpr hat'] at hlen
    exact byteLen_eq_zero.mp hlen
  · have hat' : '@' ∉ urlHost url' := by
      rw [← userInfo_eq_nil_iff, ← byteLen_eq_zero, ← hlen, byteLen_eq_zero, userInfo_eq_nil_iff]
      exact hat
    rw [hostPort_of_notMem hat, hostPort_of_notMem hat'] at hhost
    exact Or.inr hhost

theorem urlFinding_alike {read read' : Read}
    (h : urlShown isWord read.text = urlShown isWord read'.text)
    (hclean : isReported isWord read.text → '@' ∉ urlHost read.text)
    (hclean' : isReported isWord read'.text → '@' ∉ urlHost read'.text) :
    urlFinding isWord path line read = urlFinding isWord path line read' := by
  rcases urlHost_alike h with ⟨hat, hat'⟩ | hhost
  · rw [urlFinding_eq, urlFinding_eq, if_neg fun hreported => hclean hreported hat,
      if_neg fun hreported => hclean' hreported hat']
  · have hquery := congrArg UrlShown.query h
    rw [urlShown, urlShown] at hquery
    dsimp only at hquery
    rw [urlFinding, urlFinding, hhost]
    cases hsplit : splitOnce '?' read.text with
    | none =>
      rw [hsplit] at hquery
      rw [Option.map_eq_none_iff.mp hquery.symm]
    | some parts =>
      rw [hsplit] at hquery
      obtain ⟨parts', hsplit', hparts⟩ := Option.map_eq_some_iff.mp hquery.symm
      obtain ⟨hlen, hcaptures⟩ := Prod.mk.inj hparts
      rw [hsplit']
      dsimp only
      rw [carriesSigning_alike hcaptures.symm, byteLen_cons, byteLen_cons, hlen]

theorem scanLine_alike (hview : lineView isWord text = lineView isWord text')
    (hclean : ∀ read ∈ url.capturesIter isWord text, isReported isWord read.text →
      '@' ∉ urlHost read.text)
    (hclean' : ∀ read ∈ url.capturesIter isWord text', isReported isWord read.text →
      '@' ∉ urlHost read.text) :
    scanLine isWord path line text = scanLine isWord path line text' := by
  have hcookies : (cookieKv.capturesIter isWord text).filterMap (cookieFinding path line)
      = (cookieKv.capturesIter isWord text').filterMap (cookieFinding path line) :=
    filterMap_eq_of_map_eq (congrArg LineView.cookies hview) fun _ _ _ _ => cookieFinding_alike
  have hfields : (signingField.capturesIter isWord text).filterMap (signingFieldFinding path line)
      = (signingField.capturesIter isWord text').filterMap (signingFieldFinding path line) :=
    filterMap_eq_of_map_eq (congrArg LineView.fields hview) fun _ _ _ _ => signingFieldFinding_alike
  have hparams : (queryParam.capturesIter isWord text).filterMap (queryParamFinding path line)
      = (queryParam.capturesIter isWord text').filterMap (queryParamFinding path line) :=
    filterMap_eq_of_map_eq (congrArg LineView.params hview) fun _ _ _ _ => queryParamFinding_alike
  have hurls : (url.capturesIter isWord text).filterMap (urlFinding isWord path line)
      = (url.capturesIter isWord text').filterMap (urlFinding isWord path line) :=
    filterMap_eq_of_map_eq (congrArg LineView.urls hview) fun read hread read' hread' h =>
      urlFinding_alike h (hclean read hread) (hclean' read' hread')
  have hkeys : (vmRawKey.capturesIter isWord text).map (vmRawKeyFinding path line)
      = (vmRawKey.capturesIter isWord text').map (vmRawKeyFinding path line) :=
    map_eq_of_map_eq (congrArg LineView.rawKeys hview) fun _ _ _ _ h => by
      rw [vmRawKeyFinding, vmRawKeyFinding, h]
  have hbytes : (vmRawBytes.capturesIter isWord text).map (vmRawBytesFinding path line)
      = (vmRawBytes.capturesIter isWord text').map (vmRawBytesFinding path line) :=
    map_eq_of_map_eq (congrArg LineView.rawBytes hview) fun _ _ _ _ h => by
      rw [vmRawBytesFinding, vmRawBytesFinding, h]
  rw [scanLine, scanLine, hcookies, hfields, hparams, hurls, hkeys, hbytes]

theorem scanBytes_alike {bytes bytes' : List UInt8} (h : Alike isWord bytes bytes')
    (hclean : NoUserInfo isWord bytes) (hclean' : NoUserInfo isWord bytes') :
    scanBytes isWord path bytes = scanBytes isWord path bytes' := by
  refine congrArg List.flatten (map_eq_of_map_eq h fun part hpart part' hpart' hview => ?_)
  obtain ⟨hline, hview⟩ := Prod.mk.inj hview
  dsimp only
  rw [hline, scanLine_alike hview (hclean part hpart) (hclean' part' hpart')]

end Alike

/-! ## Secrecy -/

/-- What is said of two texts: the findings of each are made of what may be
shown, and where the texts are alike they are reported in the same words. -/
structure KeepsSecrets (isWord : Char → Bool) (path : String) (bytes bytes' : List UInt8) : Prop where
  declassified : Declassified isWord path bytes
  declassified' : Declassified isWord path bytes'
  alike : Alike isWord bytes bytes' →
    (scanBytes isWord path bytes).map Finding.fmt = (scanBytes isWord path bytes').map Finding.fmt

/-- The findings keep the secrets exactly where no reported URL has user
information. -/
theorem keeps_secrets_iff (isWord : Char → Bool) (path : String) (bytes bytes' : List UInt8) :
    KeepsSecrets isWord path bytes bytes' ↔ NoUserInfo isWord bytes ∧ NoUserInfo isWord bytes' :=
  ⟨fun h => ⟨declassified_iff.mp h.declassified, declassified_iff.mp h.declassified'⟩,
    fun ⟨hclean, hclean'⟩ => ⟨declassified_iff.mpr hclean, declassified_iff.mpr hclean',
      fun h => by rw [scanBytes_alike h hclean hclean']⟩⟩

/-- The ASCII characters of words. -/
def isAsciiWord (c : Char) : Bool := c.isAlphanum || c == '_'

def signedUrl (userInfo : String) : List UInt8 :=
  (("https://" ++ userInfo ++ "@tiktok.com/?X-Gnarly=Zx9Yw8Vu7Ts6").toUTF8).toList

/-- Two signed URLs that differ in a password are reported in different
words. -/
theorem password_is_repeated :
    Alike isAsciiWord (signedUrl "u:hunter2") (signedUrl "u:swordfi") ∧
      ¬KeepsSecrets isAsciiWord "case.json" (signedUrl "u:hunter2") (signedUrl "u:swordfi") := by
  have halike : Alike isAsciiWord (signedUrl "u:hunter2") (signedUrl "u:swordfi") := by
    unfold Alike
    decide +kernel
  refine ⟨halike, fun h => ?_⟩
  have hsame := h.alike halike
  revert hsame
  decide +kernel

end TiktokSigner.FixtureHygiene
