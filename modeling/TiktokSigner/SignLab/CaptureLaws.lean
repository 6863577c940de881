import TiktokSigner.SignLab.Capture

/-!
# A replay is faithful up to a renaming

What the capture writes for a value is a function of the final table of
placeholders (`values_written`), and the table sees nothing of a value but
which others equal it (`values_renamed`). The first gives the replayed
answer, the second that outcomes which differ in their secrets only have
one replay case.
-/

namespace TiktokSigner.SignLab

open Intern SignReplay
open LiveWs (RejectReason SignError)

/-! ## Placeholders -/

theorem dash_notMem_fourDigits (n : Nat) : '-' ∉ fourDigits n := by
  intro hmem
  rcases List.mem_append.mp hmem with hzero | hdigit
  · exact absurd (List.eq_of_mem_replicate hzero) (by decide)
  · exact absurd (Nat.isDigit_of_mem_toDigits (by decide) (by decide) hdigit) (by decide)

theorem fourDigits_injective {n n' : Nat} (h : fourDigits n = fourDigits n') : n = n' := by
  have hvalue : ∀ n, Nat.ofDigitChars 10 (fourDigits n) 0 = n := by
    intro n
    rw [fourDigits, Nat.ofDigitChars_append, Nat.ofDigitChars_replicate_zero, Nat.mul_zero,
      Nat.ofDigitChars_ten_toDigits]
  rw [← hvalue n, ← hvalue n', h]

/-- What follows the last separator. -/
theorem after_last_eq {α : Type} {sep : α} {pre pre' post post' : List α} (hpost : sep ∉ post)
    (hpost' : sep ∉ post') (h : pre ++ sep :: post = pre' ++ sep :: post') : post = post' := by
  rcases List.append_eq_append_iff.mp h with ⟨mid, rfl, hmid⟩ | ⟨mid, rfl, hmid⟩
  · cases mid with
    | nil => exact (List.cons.inj hmid).2
    | cons a mid => exact absurd ((List.cons.inj hmid).2 ▸ by simp) hpost
  · cases mid with
    | nil => exact (List.cons.inj hmid).2.symm
    | cons a mid => exact absurd ((List.cons.inj hmid).2 ▸ by simp) hpost'

/-- The number of a placeholder can be read off, whatever its kind. -/
theorem placeholder_number {kind kind' : String} {n n' : Nat}
    (h : placeholder kind n = placeholder kind' n') : n = n' := by
  have hchars := String.ofList_injective h
  exact fourDigits_injective
    (after_last_eq (dash_notMem_fourDigits n) (dash_notMem_fourDigits n') hchars)

theorem isPlaceholder_placeholder (kind : String) (n : Nat) :
    IsPlaceholder (placeholder kind n) := by
  have hchars : (placeholder kind n).toList
      = "fixture-".toList ++ kind.toList ++ '-' :: fourDigits n := String.toList_ofList
  exact ⟨kind.toList ++ '-' :: fourDigits n,
    (List.append_assoc "fixture-".toList kind.toList _).symm.trans hchars.symm⟩

/-! ## What is written -/

/-- A renaming that leaves the empty value alone. -/
def keepEmpty (rename : String → String) (value : String) : String :=
  if value = "" then "" else rename value

def renameValues (rename : String → String) (entries : List (String × String)) :
    List (String × String) :=
  entries.map fun entry => (entry.1, keepEmpty rename entry.2)

/-- The renaming that a table stands for. -/
def tokenOf (table : Placeholders) (value : String) : String := (table.get value).getD ""

/-- The table has a placeholder for the value, if it needs one. -/
def Known (table : Placeholders) (value : String) : Prop := value ≠ "" → (table.get value).isSome

theorem Known.mono {table later : Placeholders} {value : String} (h : Known table value)
    (hextends : Table.Extends table later) : Known later value := by
  intro hne
  obtain ⟨token, htoken⟩ := Option.isSome_iff_exists.mp (h hne)
  rw [hextends value token htoken]
  rfl

namespace Placeholders

variable (table : Placeholders) (kind : String)

theorem extends_value (value : String) : Table.Extends table (table.value kind value).2 := by
  unfold Placeholders.value
  split
  · exact Table.Extends.refl table
  · exact Table.extends_intern _ table value

theorem known_value (value : String) : Known (table.value kind value).2 value := by
  unfold Placeholders.value
  split
  · exact fun hne => absurd ‹value = ""› hne
  · intro _
    rw [Table.get_intern]
    rfl

theorem value_written (value : String) {later : Placeholders}
    (h : Table.Extends (table.value kind value).2 later) :
    (table.value kind value).1 = keepEmpty (tokenOf later) value := by
  unfold Placeholders.value keepEmpty at *
  split
  · rfl
  · rename_i hne
    rw [if_neg hne] at h
    rw [tokenOf, h value _ (Table.get_intern _ table value), Option.getD_some]

theorem numbered_value (h : Table.Numbered placeholder table) (value : String) :
    Table.Numbered placeholder (table.value kind value).2 := by
  unfold Placeholders.value
  split
  · exact h
  · exact h.intern placeholder_number kind value

theorem extends_values (entries : List (String × String)) :
    Table.Extends table (table.values kind entries).2 := by
  induction entries generalizing table with
  | nil => exact Table.Extends.refl table
  | cons entry entries ih => exact (extends_value table kind entry.2).trans (ih _)

theorem known_values {entries : List (String × String)} {entry : String × String}
    (h : entry ∈ entries) : Known (table.values kind entries).2 entry.2 := by
  induction entries generalizing table with
  | nil => cases h
  | cons first entries ih =>
    rcases List.mem_cons.mp h with rfl | h
    · exact (known_value table kind entry.2).mono (extends_values _ kind entries)
    · exact ih _ h

theorem values_written {entries : List (String × String)} {later : Placeholders}
    (h : Table.Extends (table.values kind entries).2 later) :
    (table.values kind entries).1 = renameValues (tokenOf later) entries := by
  induction entries generalizing table with
  | nil => rfl
  | cons entry entries ih =>
    have hvalue := value_written table kind entry.2
      ((extends_values (table.value kind entry.2).2 kind entries).trans h)
    have hrest := ih (table.value kind entry.2).2 h
    unfold Placeholders.values
    dsimp only
    rw [hvalue, hrest]
    rfl

theorem numbered_values (h : Table.Numbered placeholder table) (entries : List (String × String)) :
    Table.Numbered placeholder (table.values kind entries).2 := by
  induction entries generalizing table with
  | nil => exact h
  | cons entry entries ih => exact ih _ (numbered_value table kind h entry.2)

end Placeholders

/-! ## The replayed answer -/

/-- The non-empty values of a success that a fixture may not show. -/
def secrets (fetch : FetchResult) (cookies : List (String × String)) : Set String :=
  { value | value ≠ "" ∧ (value ∈ fetch.routeParams.map (·.2) ∨ value ∈ cookies.map (·.2)
    ∨ value = fetch.cursor ∨ value = fetch.internalExt) }

/-- What a replay answers for a success, under one renaming of its secrets. -/
structure Replayed (rename : String → String) (fetch fetch' : FetchResult)
    (cookies cookies' : List (String × String)) : Prop where
  injective : Set.InjOn rename (secrets fetch cookies)
  placeholder : ∀ value ∈ secrets fetch cookies, IsPlaceholder (rename value)
  pushServer : fetch'.pushServer = stripQuery fetch.pushServer
  routeParams : fetch'.routeParams = renameValues rename fetch.routeParams
  cursor : fetch'.cursor = keepEmpty rename fetch.cursor
  internalExt : fetch'.internalExt = keepEmpty rename fetch.internalExt
  heartbeatDuration : fetch'.heartbeatDuration = fetch.heartbeatDuration
  needAck : fetch'.needAck = fetch.needAck
  cookies : cookies' = (cookies.filter fun cookie => cookie.2 ≠ "").map fun cookie =>
    (cookie.1, rename cookie.2)

/-- The class and the numbers of an error. -/
def withoutText : SignError → SignError
  | .backendUnavailable _ => .backendUnavailable ""
  | .bridge _ => .bridge ""
  | .engineGone _ => .engineGone ""
  | .transport _ => .transport ""
  | .decode _ => .decode ""
  | .refused refusal => .refused ⟨refusal.statusCode, ""⟩
  | error => error

/-- The same class of outcome, and for a success the same transport up to a
renaming. -/
def Replays : SignOutcome → SignOutcome → Prop
  | .ok signed, .ok signed' => ∃ fetch fetch' rename,
      FetchResult.decode signed.protobuf = .ok fetch
        ∧ FetchResult.decode signed'.protobuf = .ok fetch'
        ∧ Replayed rename fetch fetch' signed.cookies.entries signed'.cookies.entries
  | .rejected reason, .rejected reason' => reason' = reason
  | .transport error, .transport error' => withoutText error' = withoutText error
  | _, _ => False

/-- The fixture of a success, in terms of the final table. -/
theorem sanitizeFetch_written (fetch : FetchResult) (cookies : List (String × String)) :
    ∃ table : Placeholders, Table.Numbered placeholder table
      ∧ (∀ value ∈ secrets fetch cookies, (table.get value).isSome)
      ∧ sanitizeFetch fetch cookies = .success
        { pushServer := stripQuery fetch.pushServer
          routeParams := renameValues (tokenOf table) fetch.routeParams
          cursor := keepEmpty (tokenOf table) fetch.cursor
          internalExt := keepEmpty (tokenOf table) fetch.internalExt
          heartbeatDuration := fetch.heartbeatDuration
          needAck := fetch.needAck }
        (renameValues (tokenOf table) (cookies.filter fun cookie => cookie.2 ≠ "")) := by
  let t₁ := (Placeholders.values {} "route" fetch.routeParams).2
  let t₂ := (Placeholders.values t₁ "cookie" (cookies.filter fun cookie => cookie.2 ≠ "")).2
  let t₃ := (Placeholders.value t₂ "cursor" fetch.cursor).2
  let t₄ := (Placeholders.value t₃ "internal-ext" fetch.internalExt).2
  have h₃ : Table.Extends t₃ t₄ := Placeholders.extends_value t₃ _ _
  have h₂ : Table.Extends t₂ t₄ := (Placeholders.extends_value t₂ _ _).trans h₃
  have h₁ : Table.Extends t₁ t₄ := (Placeholders.extends_values t₁ _ _).trans h₂
  refine ⟨t₄, ?_, ?_, ?_⟩
  · exact Placeholders.numbered_value _ _ (Placeholders.numbered_value _ _
      (Placeholders.numbered_values _ _ (Placeholders.numbered_values _ _
        Table.Numbered.empty _) _) _) _
  · rintro value ⟨hne, hvalue⟩
    have hknown : Known t₄ value := by
      rcases hvalue with hroute | hcookie | rfl | rfl
      · obtain ⟨entry, hentry, rfl⟩ := List.mem_map.mp hroute
        exact (Placeholders.known_values _ _ hentry).mono h₁
      · obtain ⟨entry, hentry, rfl⟩ := List.mem_map.mp hcookie
        exact (Placeholders.known_values _ _
          (List.mem_filter.mpr ⟨hentry, by simpa using hne⟩)).mono h₂
      · exact (Placeholders.known_value _ _ _).mono h₃
      · exact Placeholders.known_value _ _ _
    exact hknown hne
  · unfold sanitizeFetch
    dsimp only
    rw [Placeholders.values_written _ _ h₁, Placeholders.values_written _ _ h₂,
      Placeholders.value_written _ _ _ h₃, Placeholders.value_written _ _ _ (Table.Extends.refl t₄)]

/-- A renaming by a numbered table. -/
theorem tokenOf_injOn {table : Placeholders} {S : Set String}
    (hnumbered : Table.Numbered placeholder table) (hS : ∀ value ∈ S, (table.get value).isSome) :
    Set.InjOn (tokenOf table) S := by
  intro value hvalue value' hvalue' heq
  obtain ⟨token, htoken⟩ := Option.isSome_iff_exists.mp (hS value hvalue)
  obtain ⟨token', htoken'⟩ := Option.isSome_iff_exists.mp (hS value' hvalue')
  rw [tokenOf, tokenOf, htoken, htoken', Option.getD_some, Option.getD_some] at heq
  exact hnumbered.injective htoken (heq ▸ htoken')

theorem isPlaceholder_tokenOf {table : Placeholders} {value : String}
    (hnumbered : Table.Numbered placeholder table) (hvalue : (table.get value).isSome) :
    IsPlaceholder (tokenOf table value) := by
  obtain ⟨token, htoken⟩ := Option.isSome_iff_exists.mp hvalue
  obtain ⟨kind, n, rfl⟩ := hnumbered.token htoken
  rw [tokenOf, htoken, Option.getD_some]
  exact isPlaceholder_placeholder kind n

/-! ## What a valid case answers -/

theorem keyed_of_validateAt {path : String} {transport : TransportFixture}
    {cookies : List (String × String)}
    (h : FixtureOutcome.validateAt path (.success transport cookies) = .ok ()) :
    ∀ entry ∈ transport.routeParams, entry.1 ≠ "" := by
  rw [FixtureOutcome.validateAt] at h
  unfold invalid at h
  split at h
  · cases h
  · split at h
    · cases h
    · split at h
      · cases h
      · rename_i hnames
        intro entry hentry hempty
        exact hnames ⟨entry, List.mem_append_right _ hentry, Or.inl hempty⟩

theorem expected_of_validate {case : ReplayCase} (h : case.validate = .ok ()) :
    case.expected.validateAt "<memory>" = .ok () := by
  unfold ReplayCase.validate ReplayCase.validateAt invalid at h
  repeat (split at h; · cases h)
  exact h

theorem capture_inversion {Experiment : Type} {sha256 : Bytes → String} {case : ResearchCase}
    {experiment : Option Experiment} {outcome : SignOutcome} {bundle : CaptureBundle Experiment}
    (h : captureWithExperiment sha256 case experiment outcome = .ok bundle) :
    ∃ expected, sanitizeOutcome outcome = .ok expected
      ∧ bundle.replay = replayCase case (observeOutcome sha256 outcome).userAgent expected
      ∧ expected.validateAt "<memory>" = .ok () := by
  unfold captureWithExperiment at h
  cases hexpected : sanitizeOutcome outcome with
  | error error =>
    rw [hexpected] at h
    cases h
  | ok expected =>
    rw [hexpected] at h
    cases hvalid : (replayCase case (observeOutcome sha256 outcome).userAgent expected).validate with
    | error error =>
      simp only [bind, Except.bind, hvalid] at h
      cases h
    | ok valid =>
      simp only [bind, Except.bind, hvalid] at h
      obtain rfl := Except.ok.inj h
      exact ⟨expected, rfl, rfl, expected_of_validate hvalid⟩

theorem names_renameValues (rename : String → String) (entries : List (String × String)) :
    (renameValues rename entries).map (·.1) = entries.map (·.1) := by
  simp [renameValues]

theorem renameValues_filter (rename : String → String) (entries : List (String × String)) :
    renameValues rename (entries.filter fun entry => entry.2 ≠ "")
      = (entries.filter fun entry => entry.2 ≠ "").map fun entry => (entry.1, rename entry.2) := by
  refine List.map_congr_left fun entry hentry => ?_
  have hne : entry.2 ≠ "" := by simpa using (List.mem_filter.mp hentry).2
  rw [keepEmpty, if_neg hne]

theorem withoutText_sanitizeError (error : SignError) :
    withoutText (sanitizeError error).error = withoutText error := by
  cases error <;> rfl

theorem reason_sanitizeReason (reason : RejectReason) : (sanitizeReason reason).reason = reason := by
  cases reason <;> rfl

/-- The decoded bytes of a valid fixture, and its cookies. -/
theorem replayed_intoOutcome {case : ResearchCase} {userAgent : Option String} {fetch : FetchResult}
    {jar : CookieJar} {answer : SignedFetch}
    (hvalid : (sanitizeFetch fetch jar.entries).validateAt "<memory>" = .ok ())
    (hanswer : (replayCase case userAgent (sanitizeFetch fetch jar.entries)).intoOutcome
      = .ok answer)
    (hlen : answer.protobuf.length ≤ isizeMax) :
    ∃ fetch' rename, FetchResult.decode answer.protobuf = .ok fetch'
      ∧ Replayed rename fetch fetch' jar.entries answer.cookies.entries := by
  obtain ⟨table, hnumbered, hknown, hwritten⟩ := sanitizeFetch_written fetch jar.entries
  rw [hwritten] at hvalid hanswer
  obtain rfl := SignOutcome.ok.inj hanswer
  have hkeyed := keyed_of_validateAt hvalid
  refine ⟨_, tokenOf table, FetchResult.decode_encode _ hlen, ?_⟩
  have hnames : ((renameValues (tokenOf table)
      (jar.entries.filter fun cookie => cookie.2 ≠ "")).map (·.1)).Nodup := by
    rw [names_renameValues]
    exact jar.nodup.sublist (List.filter_sublist.map _)
  exact
    { injective := tokenOf_injOn hnumbered hknown
      placeholder := fun value hvalue => isPlaceholder_tokenOf hnumbered (hknown value hvalue)
      pushServer := rfl
      routeParams := keyed_eq_self_iff.mpr hkeyed
      cursor := rfl
      internalExt := rfl
      heartbeatDuration := rfl
      needAck := rfl
      cookies := (CookieJar.entries_fromIter hnames).trans (renameValues_filter _ _) }

/-- A vector holds at most `isize::MAX` bytes. -/
def SignOutcome.Fits (outcome : SignOutcome) : Prop :=
  ∀ signed, outcome = .ok signed → signed.protobuf.length ≤ isizeMax

theorem transport_replayCase (case : ResearchCase) (userAgent : Option String)
    (expected : FixtureOutcome) :
    (ReplayBackend.fromValidCase (replayCase case userAgent expected)).transport case.request
      = (replayCase case userAgent expected).intoOutcome :=
  ReplayBackend.transport_fromValidCase _

theorem replays_of_capture {Experiment : Type} {sha256 : Bytes → String} {case : ResearchCase}
    {experiment : Option Experiment} {outcome : SignOutcome} {bundle : CaptureBundle Experiment}
    (h : captureWithExperiment sha256 case experiment outcome = .ok bundle)
    (hfits : SignOutcome.Fits ((ReplayBackend.fromValidCase bundle.replay).transport case.request)) :
    Replays outcome ((ReplayBackend.fromValidCase bundle.replay).transport case.request) := by
  obtain ⟨expected, hexpected, hreplay, hvalid⟩ := capture_inversion h
  rw [hreplay, transport_replayCase] at hfits ⊢
  cases outcome with
  | rejected reason =>
    obtain rfl := Except.ok.inj hexpected
    exact reason_sanitizeReason reason
  | transport error =>
    obtain rfl := Except.ok.inj hexpected
    exact withoutText_sanitizeError error
  | ok signed =>
    unfold sanitizeOutcome at hexpected
    dsimp only at hexpected
    cases hdecode : FetchResult.decode signed.protobuf with
    | error error =>
      rw [hdecode] at hexpected
      cases hexpected
    | ok fetch =>
      rw [hdecode] at hexpected
      obtain rfl := Except.ok.inj hexpected
      obtain ⟨fetch', rename, hdecode', hreplayed⟩ := replayed_intoOutcome hvalid rfl (hfits _ rfl)
      exact ⟨fetch, fetch', rename, hdecode, hdecode', hreplayed⟩

/-! ## Two outcomes -/

namespace Placeholders

variable {S : Set String} {rename : String → String} {table : Placeholders}

theorem value_renamed (hinj : Set.InjOn rename S) (hne : ∀ value ∈ S, rename value ≠ "")
    (hwithin : Table.Within S table) (kind value : String)
    (hvalue : value ≠ "" → value ∈ S) :
    Placeholders.value (table.map rename) kind (keepEmpty rename value)
        = ((table.value kind value).1, (table.value kind value).2.map rename)
      ∧ Table.Within S (table.value kind value).2 := by
  unfold Placeholders.value keepEmpty
  by_cases hempty : value = ""
  · rw [if_pos hempty, if_pos hempty, if_pos rfl]
    exact ⟨rfl, hwithin⟩
  · have hmem := hvalue hempty
    simp only [hempty, if_false, hne value hmem]
    exact ⟨Table.intern_map hinj hwithin _ hmem, hwithin.intern _ hmem⟩

/-- Induction on the values: the two tables stay in step. -/
theorem values_renamed (hinj : Set.InjOn rename S) (hne : ∀ value ∈ S, rename value ≠ "")
    (kind : String) {entries : List (String × String)}
    (hentries : ∀ entry ∈ entries, entry.2 ≠ "" → entry.2 ∈ S) (hwithin : Table.Within S table) :
    Placeholders.values (table.map rename) kind (renameValues rename entries)
        = ((table.values kind entries).1, (table.values kind entries).2.map rename)
      ∧ Table.Within S (table.values kind entries).2 := by
  induction entries generalizing table with
  | nil => exact ⟨rfl, hwithin⟩
  | cons entry entries ih =>
    obtain ⟨hvalue, hwithin'⟩ := value_renamed hinj hne hwithin kind entry.2
      (hentries entry List.mem_cons_self)
    obtain ⟨hrest, hwithin''⟩ := ih (fun entry' hentry' => hentries entry'
      (List.mem_cons_of_mem _ hentry')) hwithin'
    refine ⟨?_, hwithin''⟩
    rw [renameValues, List.map_cons]
    unfold Placeholders.values
    dsimp only
    rw [hvalue]
    dsimp only
    rw [← renameValues, hrest]

end Placeholders

/-- Two successes that differ in their secrets and in the query of the push
server. -/
structure RenamedFetch (rename : String → String) (fetch fetch' : FetchResult)
    (cookies cookies' : List (String × String)) : Prop where
  injective : Set.InjOn rename (secrets fetch cookies)
  nonempty : ∀ value ∈ secrets fetch cookies, rename value ≠ ""
  pushServer : stripQuery fetch'.pushServer = stripQuery fetch.pushServer
  routeParams : fetch'.routeParams = renameValues rename fetch.routeParams
  cursor : fetch'.cursor = keepEmpty rename fetch.cursor
  internalExt : fetch'.internalExt = keepEmpty rename fetch.internalExt
  heartbeatDuration : fetch'.heartbeatDuration = fetch.heartbeatDuration
  needAck : fetch'.needAck = fetch.needAck
  cookies : cookies' = renameValues rename cookies

/-- Two outcomes that differ in secrets, queries and error texts only. -/
inductive DifferInSecrets (rename : String → String) : SignOutcome → SignOutcome → Prop
  | ok {signed signed' : SignedFetch} {fetch fetch' : FetchResult}
      (hdecode : FetchResult.decode signed.protobuf = .ok fetch)
      (hdecode' : FetchResult.decode signed'.protobuf = .ok fetch')
      (huserAgent : signed'.userAgent = signed.userAgent)
      (hfetch : RenamedFetch rename fetch fetch' signed.cookies.entries signed'.cookies.entries) :
      DifferInSecrets rename (.ok signed) (.ok signed')
  | undecodable {signed signed' : SignedFetch} {error : ProtoError}
      (hdecode : FetchResult.decode signed.protobuf = .error error)
      (hdecode' : FetchResult.decode signed'.protobuf = .error error) :
      DifferInSecrets rename (.ok signed) (.ok signed')
  | rejected (reason : RejectReason) : DifferInSecrets rename (.rejected reason) (.rejected reason)
  | transport {error error' : SignError} (herror : withoutText error' = withoutText error) :
      DifferInSecrets rename (.transport error) (.transport error')

theorem filter_renameValues {rename : String → String} {entries : List (String × String)}
    (hne : ∀ entry ∈ entries, entry.2 ≠ "" → rename entry.2 ≠ "") :
    (renameValues rename entries).filter (fun entry => entry.2 ≠ "")
      = renameValues rename (entries.filter fun entry => entry.2 ≠ "") := by
  unfold renameValues
  rw [List.filter_map]
  refine congrArg (List.map _) (List.filter_congr fun entry hentry => ?_)
  have hkeep : keepEmpty rename entry.2 = "" ↔ entry.2 = "" := by
    unfold keepEmpty
    by_cases hempty : entry.2 = ""
    · simp [hempty]
    · simp [hempty, hne entry hentry hempty]
  simp [hkeep]

theorem sanitizeFetch_renamed {rename : String → String} {fetch fetch' : FetchResult}
    {cookies cookies' : List (String × String)}
    (h : RenamedFetch rename fetch fetch' cookies cookies') :
    sanitizeFetch fetch' cookies' = sanitizeFetch fetch cookies := by
  have hroute : ∀ entry ∈ fetch.routeParams, entry.2 ≠ "" → entry.2 ∈ secrets fetch cookies :=
    fun entry hentry hne => ⟨hne, Or.inl (List.mem_map_of_mem hentry)⟩
  have hcookie : ∀ entry ∈ cookies, entry.2 ≠ "" → entry.2 ∈ secrets fetch cookies :=
    fun entry hentry hne => ⟨hne, Or.inr (Or.inl (List.mem_map_of_mem hentry))⟩
  have hstart : Table.Within (secrets fetch cookies) ({} : Placeholders) :=
    fun _ hentry => absurd hentry List.not_mem_nil
  obtain ⟨hroutes, hwithin₁⟩ := Placeholders.values_renamed h.injective h.nonempty "route"
    hroute hstart
  obtain ⟨hcookies, hwithin₂⟩ := Placeholders.values_renamed h.injective h.nonempty "cookie"
    (fun entry hentry => hcookie entry (List.mem_of_mem_filter hentry)) hwithin₁
  obtain ⟨hcursor, hwithin₃⟩ := Placeholders.value_renamed h.injective h.nonempty hwithin₂ "cursor"
    fetch.cursor fun hne => ⟨hne, Or.inr (Or.inr (Or.inl rfl))⟩
  obtain ⟨hinternal, _⟩ := Placeholders.value_renamed h.injective h.nonempty hwithin₃ "internal-ext"
    fetch.internalExt fun hne => ⟨hne, Or.inr (Or.inr (Or.inr rfl))⟩
  have hempty : Table.map rename ({} : Placeholders) = {} := rfl
  rw [hempty] at hroutes
  unfold sanitizeFetch
  dsimp only
  rw [h.routeParams, hroutes, h.cookies,
    filter_renameValues fun entry hentry hne => h.nonempty _ (hcookie entry hentry hne), hcookies,
    h.cursor, hcursor, h.internalExt, hinternal, h.pushServer, h.heartbeatDuration, h.needAck]

theorem sanitizeError_congr {error error' : SignError} (h : withoutText error' = withoutText error) :
    sanitizeError error' = sanitizeError error := by
  have hthrough : ∀ error, sanitizeError error = sanitizeError (withoutText error) := by
    intro error
    cases error <;> rfl
  rw [hthrough error', h, ← hthrough]

/-- Nothing of a secret but its equality pattern reaches the replay case. -/
theorem capture_congr {Experiment : Type} (sha256 : Bytes → String) (case : ResearchCase)
    (experiment : Option Experiment) {rename : String → String} {outcome outcome' : SignOutcome}
    (h : DifferInSecrets rename outcome outcome') :
    (captureWithExperiment sha256 case experiment outcome').map (·.replay)
      = (captureWithExperiment sha256 case experiment outcome).map (·.replay) := by
  have hsame : sanitizeOutcome outcome' = sanitizeOutcome outcome
      ∧ ((observeOutcome sha256 outcome').userAgent = (observeOutcome sha256 outcome).userAgent
        ∨ ∃ error, sanitizeOutcome outcome = .error error) := by
    cases h with
    | ok hdecode hdecode' huserAgent hfetch =>
      simp [sanitizeOutcome, observeOutcome, hdecode, hdecode', huserAgent,
        sanitizeFetch_renamed hfetch]
    | undecodable hdecode hdecode' =>
      simp [sanitizeOutcome, hdecode, hdecode']
    | rejected reason => exact ⟨rfl, Or.inl rfl⟩
    | transport herror =>
      simp [sanitizeOutcome, observeOutcome, sanitizeError_congr herror]
  obtain ⟨hsanitized, huserAgent⟩ := hsame
  unfold captureWithExperiment
  rw [hsanitized]
  cases hexpected : sanitizeOutcome outcome with
  | error error => rfl
  | ok expected =>
    rcases huserAgent with huserAgent | ⟨error, herror⟩
    · simp only [bind, Except.bind, huserAgent]
      cases (replayCase case (observeOutcome sha256 outcome).userAgent expected).validate <;> rfl
    · rw [hexpected] at herror
      cases herror

theorem captureOutcome_faithful (sha256 : Bytes → String) :
    (∀ (case : ResearchCase) (outcome : SignOutcome) (bundle : CaptureBundle Unit),
      captureOutcome sha256 case outcome = .ok bundle →
      SignOutcome.Fits ((ReplayBackend.fromValidCase bundle.replay).transport case.request) →
      Replays outcome ((ReplayBackend.fromValidCase bundle.replay).transport case.request))
    ∧ ∀ (case : ResearchCase) (rename : String → String) (outcome outcome' : SignOutcome),
      DifferInSecrets rename outcome outcome' →
      (captureOutcome sha256 case outcome').map (·.replay)
        = (captureOutcome sha256 case outcome).map (·.replay) :=
  ⟨fun _ _ _ h hfits => replays_of_capture h hfits,
    fun case _ _ _ h => capture_congr sha256 case none h⟩

/-- What decodes and validates is captured. -/
theorem exists_bundle (sha256 : Bytes → String) (case : ResearchCase) {outcome : SignOutcome}
    {expected : FixtureOutcome} (hexpected : sanitizeOutcome outcome = .ok expected)
    (hvalid : (replayCase case (observeOutcome sha256 outcome).userAgent expected).validate
      = .ok ()) :
    ∃ bundle, captureOutcome sha256 case outcome = .ok bundle
      ∧ bundle.replay = replayCase case (observeOutcome sha256 outcome).userAgent expected := by
  unfold captureOutcome captureWithExperiment
  rw [hexpected]
  simp only [bind, Except.bind, hvalid]
  exact ⟨_, rfl, rfl⟩

def sampleCase : ResearchCase where
  id := "capture-1"
  description := "safe capture"
  request := ⟨"7300000000000000001"⟩
  environment := ⟨"linux/US", "system", "configured"⟩

/-- A session cookie repeats a route parameter. -/
def sampleFetch (secret cursor query : String) : FetchResult where
  pushServer := "wss://fixture.invalid/ws/" ++ query
  routeParams := [("wrss", secret), ("empty", "")]
  cursor := cursor
  heartbeatDuration := 10000
  needAck := true

def sampleSigned (secret cursor query : String) : SignedFetch where
  protobuf := (sampleFetch secret cursor query).encode
  cookies := ⟨[("sessionid", secret), ("msToken", "")], by simp⟩
  userAgent := "fixture-agent"
  signedUrl := "wss://fixture.invalid/ws/" ++ query

theorem captureOutcome_faithful_sample :
    (∃ bundle, captureOutcome (fun _ => "") sampleCase (.ok (sampleSigned "a" "b" "?q")) = .ok bundle
      ∧ Replays (.ok (sampleSigned "a" "b" "?q"))
        ((ReplayBackend.fromValidCase bundle.replay).transport sampleCase.request))
    ∧ (captureOutcome (fun _ => "") sampleCase (.ok (sampleSigned "x" "y" "#r"))).map (·.replay)
      = (captureOutcome (fun _ => "") sampleCase
        (.ok (sampleSigned "a" "b" "?q"))).map (·.replay) := by
  have hdecode : FetchResult.decode (sampleSigned "a" "b" "?q").protobuf
      = .ok (sampleFetch "a" "b" "?q") :=
    FetchResult.decode_encode (sampleFetch "a" "b" "?q") (by decide +kernel)
  have hdecode' : FetchResult.decode (sampleSigned "x" "y" "#r").protobuf
      = .ok (sampleFetch "x" "y" "#r") :=
    FetchResult.decode_encode (sampleFetch "x" "y" "#r") (by decide +kernel)
  have hsanitized : sanitizeOutcome (.ok (sampleSigned "a" "b" "?q"))
      = .ok (sanitizeFetch (sampleFetch "a" "b" "?q")
        (sampleSigned "a" "b" "?q").cookies.entries) := by
    simp only [sanitizeOutcome, hdecode]
  have huserAgent : (observeOutcome (fun _ => "") (.ok (sampleSigned "a" "b" "?q"))).userAgent
      = some "fixture-agent" := by
    simp only [observeOutcome, hdecode]
    rfl
  constructor
  · obtain ⟨bundle, hcapture, hreplay⟩ := exists_bundle (fun _ => "") sampleCase hsanitized
      (by rw [huserAgent]; rfl)
    refine ⟨bundle, hcapture, (captureOutcome_faithful fun _ => "").1 _ _ bundle hcapture ?_⟩
    rintro signed hsigned
    rw [hreplay, transport_replayCase, huserAgent] at hsigned
    obtain rfl := SignOutcome.ok.inj hsigned
    decide +kernel
  · have hsecrets : ∀ value ∈ secrets (sampleFetch "a" "b" "?q")
        (sampleSigned "a" "b" "?q").cookies.entries, value = "a" ∨ value = "b" := by
      rintro value ⟨hne, hvalue⟩
      change value ∈ ["a", ""] ∨ value ∈ ["a", ""] ∨ value = "b" ∨ value = "" at hvalue
      simp only [List.mem_cons, List.not_mem_nil, hne, or_false] at hvalue
      rw [← or_assoc, or_self] at hvalue
      exact hvalue
    refine (captureOutcome_faithful fun _ => "").2 sampleCase
      (fun v => if v = "a" then "x" else "y") _ _
      (.ok hdecode hdecode' rfl ?_)
    exact
      { injective := fun value hvalue value' hvalue' heq => by
          rcases hsecrets value hvalue with rfl | rfl <;>
            rcases hsecrets value' hvalue' with rfl | rfl <;> simp_all
        nonempty := fun value hvalue => by
          rcases hsecrets value hvalue with rfl | rfl <;> simp
        pushServer := by decide
        routeParams := rfl
        cursor := rfl
        internalExt := rfl
        heartbeatDuration := rfl
        needAck := rfl
        cookies := rfl }

end TiktokSigner.SignLab
