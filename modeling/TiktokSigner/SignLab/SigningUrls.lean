import Mathlib
import TiktokSigner.SignLab.Experiment

/-!
# The URLs of controlled experiments

What `signing_url` writes, and what a change of one dimension does to it. The
query is a table: each parameter is a constant or a dimension. A mutation of
the query is a relation between two queries, which looks at names only, so
two queries that differ in values alone are changed alike.
-/

namespace TiktokSigner.SignLab

/-! ## Mutations -/

namespace QueryMutationOf

/-- What a mutation does to the parameter with so many others of its name in
front. -/
inductive Mutates : QueryMutation → Query → Query → Prop
  | remove {name value : String} {occurrence : Nat} {front back : Query}
      (h : front.countP (·.1 = name) = occurrence) :
      Mutates (.remove name occurrence) (front ++ (name, value) :: back) (front ++ back)
  | duplicate {name value : String} {occurrence : Nat} {front back : Query}
      (h : front.countP (·.1 = name) = occurrence) :
      Mutates (.duplicate name occurrence) (front ++ (name, value) :: back)
        (front ++ (name, value) :: (name, value) :: back)
  | set {name value value' : String} {occurrence : Nat} {front back : Query}
      (h : front.countP (·.1 = name) = occurrence) :
      Mutates (.set name occurrence value') (front ++ (name, value) :: back)
        (front ++ (name, value') :: back)
  | move {name value : String} {occurrence : Nat} {front back front' back' : Query}
      (h : front.countP (·.1 = name) = occurrence) (hrest : front' ++ back' = front ++ back) :
      Mutates (.move name occurrence front'.length) (front ++ (name, value) :: back)
        (front' ++ (name, value) :: back')

variable {name : String} {occurrence : Nat} {entries entries' : Query}

theorem countP_cons_named {entry : String × String} (h : entry.1 = name) (entries : Query) :
    (entry :: entries).countP (·.1 = name) = entries.countP (·.1 = name) + 1 := by
  simp [h]

theorem countP_cons_other {entry : String × String} (h : entry.1 ≠ name) (entries : Query) :
    (entry :: entries).countP (·.1 = name) = entries.countP (·.1 = name) := by
  simp [h]

theorem nthIndex_cons (entry : String × String) (entries : Query) (name : String)
    (occurrence : Nat) : nthIndex (entry :: entries) name occurrence
      = if entry.1 = name then
          if occurrence = 0 then some 0 else (nthIndex entries name (occurrence - 1)).map (· + 1)
        else (nthIndex entries name occurrence).map (· + 1) := by
  have hshift : (entries.zipIdx 1).filter (·.1.1 = name)
      = (entries.zipIdx.filter (·.1.1 = name)).map (Prod.map id (· + 1)) := by
    rw [List.zipIdx_succ, List.filter_map]
    rfl
  rw [nthIndex, nthIndex, nthIndex, List.zipIdx_cons, List.filter_cons, Nat.zero_add, hshift]
  by_cases hname : entry.1 = name
  · cases occurrence <;> simp [hname, Function.comp_def]
  · simp [hname, Function.comp_def]

theorem nthIndex_eq_some {index : Nat} : nthIndex entries name occurrence = some index ↔
    ∃ front value back, entries = front ++ (name, value) :: back ∧ front.length = index
      ∧ front.countP (·.1 = name) = occurrence := by
  induction entries generalizing occurrence index with
  | nil => simp [nthIndex]
  | cons entry entries ih =>
    rw [nthIndex_cons]
    constructor
    · intro h
      split_ifs at h with hname hzero
      · obtain rfl := Option.some.inj h
        exact ⟨[], entry.2, entries, by rw [← hname]; rfl, rfl, hzero.symm⟩
      · obtain ⟨index, hindex, rfl⟩ := Option.map_eq_some_iff.mp h
        obtain ⟨front, value, back, rfl, rfl, hcount⟩ := ih.mp hindex
        refine ⟨entry :: front, value, back, rfl, rfl, ?_⟩
        rw [countP_cons_named hname, hcount, Nat.sub_add_cancel (by omega)]
      · obtain ⟨index, hindex, rfl⟩ := Option.map_eq_some_iff.mp h
        obtain ⟨front, value, back, rfl, rfl, hcount⟩ := ih.mp hindex
        refine ⟨entry :: front, value, back, rfl, rfl, ?_⟩
        rw [countP_cons_other hname, hcount]
    · rintro ⟨front, value, back, heq, rfl, hcount⟩
      cases front with
      | nil =>
        obtain ⟨rfl, rfl⟩ := List.cons.inj heq
        rw [if_pos rfl, if_pos (by exact hcount.symm)]
        rfl
      | cons first front =>
        obtain ⟨rfl, rfl⟩ := List.cons.inj heq
        by_cases hname : entry.1 = name
        · rw [countP_cons_named hname] at hcount
          rw [if_pos hname, if_neg (by omega),
            ih.mpr ⟨front, value, back, rfl, rfl, by omega⟩]
          rfl
        · rw [countP_cons_other hname] at hcount
          rw [if_neg hname, ih.mpr ⟨front, value, back, rfl, rfl, hcount⟩]
          rfl

section Place

variable (front back : Query) (entry entry' : String × String)

theorem getD_place (other : String × String) :
    (front ++ entry :: back).getD front.length other = entry := by simp

theorem eraseIdx_place : (front ++ entry :: back).eraseIdx front.length = front ++ back := by
  simp [List.eraseIdx_append_of_length_le]

theorem set_place : List.set (front ++ entry :: back) front.length entry' =
    front ++ entry' :: back := by
  simp

theorem insertIdx_place :
    (front ++ back).insertIdx front.length entry = front ++ entry :: back := by
  induction front with
  | nil => rfl
  | cons first front ih => simp [ih]

theorem insertIdx_after_place : (front ++ entry :: back).insertIdx (front.length + 1) entry' =
    front ++ entry :: entry' :: back := by
  have h := insertIdx_place (front ++ [entry]) back entry'
  simpa using h

theorem insertIdx_eq_take_drop {entries : Query} {index : Nat} (h : index ≤ entries.length) :
    entries.insertIdx index entry = entries.take index ++ entry :: entries.drop index := by
  have hplace := insertIdx_place (entries.take index) (entries.drop index) entry
  rwa [List.take_append_drop, List.length_take_of_le h] at hplace

end Place

/-- What `apply` does once the parameter is found. -/
theorem apply_place (mutation : QueryMutation) {caseId value : String} {front back : Query}
    (h : front.countP (·.1 = mutation.name) = mutation.occurrence) :
    mutation.apply caseId (front ++ (mutation.name, value) :: back) = match mutation with
      | .remove _ _ => .ok (front ++ back)
      | .duplicate name _ => .ok (front ++ (name, value) :: (name, value) :: back)
      | .set name _ value' => .ok (front ++ (name, value') :: back)
      | .move name _ newIndex =>
          if newIndex ≤ (front ++ back).length then
            .ok ((front ++ back).take newIndex ++ (name, value) :: (front ++ back).drop newIndex)
          else .error (.invalidQueryMutation caseId
            ("new_index " ++ newIndex.repr ++ " is outside the query")) := by
  have hindex := nthIndex_eq_some.mpr ⟨front, value, back, rfl, rfl, h⟩
  cases mutation with
  | remove name occurrence =>
    simp only [apply, hindex, eraseIdx_place]
  | duplicate name occurrence =>
    simp only [apply, hindex, getD_place, insertIdx_after_place]
    rfl
  | set name occurrence value' =>
    simp only [apply, hindex, getD_place, set_place]
    rfl
  | move name occurrence newIndex =>
    simp only [apply, hindex, getD_place, eraseIdx_place]
    have hlength : ∀ entry : String × String,
        (front ++ entry :: back).length = (front ++ back).length + 1 := fun entry => by
      simp [Nat.add_assoc]
    rw [hlength]
    by_cases hinside : newIndex ≤ (front ++ back).length
    · rw [if_neg (by omega), if_pos hinside, insertIdx_eq_take_drop _ hinside]
      rfl
    · rw [if_pos (by omega), if_neg hinside]

/-- `apply` is the relation, and fails where nothing is related. -/
theorem apply_eq_ok (mutation : QueryMutation) (caseId : String) :
    mutation.apply caseId entries = .ok entries' ↔ Mutates mutation entries entries' := by
  constructor
  · intro h
    cases hindex : nthIndex entries mutation.name mutation.occurrence with
    | none => simp [apply, hindex] at h
    | some index =>
      obtain ⟨front, value, back, rfl, -, hcount⟩ := nthIndex_eq_some.mp hindex
      rw [apply_place _ hcount] at h
      cases mutation with
      | remove name occurrence =>
        cases h
        exact .remove hcount
      | duplicate name occurrence =>
        cases h
        exact .duplicate hcount
      | set name occurrence value' =>
        cases h
        exact .set hcount
      | move name occurrence newIndex =>
        dsimp only at h
        split_ifs at h with hinside
        cases h
        have hmoved : Mutates _ (front ++ (name, value) :: back)
            ((front ++ back).take newIndex ++ (name, value) :: (front ++ back).drop newIndex) :=
          .move hcount (List.take_append_drop newIndex _)
        rwa [List.length_take_of_le hinside] at hmoved
  · intro h
    cases h with
    | remove h => exact apply_place (.remove _ _) h
    | duplicate h => exact apply_place (.duplicate _ _) h
    | set h => exact apply_place (.set _ _ _) h
    | move h hrest =>
      refine (apply_place (.move _ _ _) h).trans ?_
      simp only [← hrest, List.length_append, Nat.le_add_right, if_true, List.take_left,
        List.drop_left]

end QueryMutationOf

/-! ## The query -/

open OrderedMap

def DimensionValue.written : DimensionValue String → String
  | .text value | .hidden value => value
  | .number value => value.toNat.repr
  | .option value => value.toNat.repr
  | _ => ""

/-- The parameters, each a constant or a dimension. -/
def fetchTable : List (String × (String ⊕ ExperimentDimension)) :=
  [("aid", .inl "1988"), ("app_language", .inr .language), ("app_name", .inl "tiktok_web"),
    ("browser_language", .inr .browserLanguage), ("browser_name", .inr .browserName),
    ("browser_online", .inl "true"), ("browser_platform", .inr .browserPlatform),
    ("browser_version", .inr .browserVersion), ("cookie_enabled", .inl "true"),
    ("cursor", .inr .cursor), ("debug", .inl "false"), ("device_id", .inr .deviceId),
    ("device_platform", .inl "web"), ("did_rule", .inl "3"), ("fetch_rule", .inl "1"),
    ("history_comment_count", .inl "6"), ("identity", .inl "audience"),
    ("internal_ext", .inr .internalExt), ("last_rtt", .inl "-1"), ("live_id", .inl "12"),
    ("os", .inr .os), ("priority_region", .inr .region), ("region", .inr .region),
    ("resp_content_type", .inl "protobuf"), ("room_id", .inr .roomId),
    ("screen_height", .inr .screenHeight), ("screen_width", .inr .screenWidth),
    ("sup_ws_ds_opt", .inr .supWsDsOpt), ("tz_name", .inr .timezone),
    ("version_code", .inl "180800"), ("webcast_language", .inr .language)]

/-- The parameters that are always there. -/
def CaseOf.written (case : ExperimentCase) : Query :=
  fetchTable.map fun (name, source) =>
    (name, source.elim (fun constant => constant) fun dimension => (case.value dimension).written)

def contactPairs (contactUs : String) : Query :=
  if contactUs.isEmpty then [] else [("contact_us", contactUs)]

def CaseOf.query (case : ExperimentCase) (signing : SigningInput) : Query :=
  case.written ++ contactPairs signing.contactUs

theorem nodup_names : (fetchTable.map Prod.fst ++ ["contact_us"]).Nodup := by decide

theorem keys_written (case : ExperimentCase) : keys case.written = fetchTable.map Prod.fst := by
  rw [keys, CaseOf.written, List.map_map]
  rfl

theorem nodup_query (case : ExperimentCase) (signing : SigningInput) :
    (keys (case.query signing)).Nodup := by
  refine nodup_names.sublist ?_
  rw [keys, CaseOf.query, List.map_append, ← keys, keys_written, contactPairs]
  refine List.Sublist.append_left ?_ _
  split_ifs
  · exact List.nil_sublist _
  · exact List.Sublist.refl _

/-- The table is what `build` builds. -/
theorem build_eq {case : ExperimentCase} {signing : SigningInput}
    (h : case.signing = some signing) :
    (ExperimentCase.fetchParams case signing).build case.environment.preset
      = case.query signing := by
  have hinsert : (ExperimentCase.fetchParams case signing).build case.environment.preset
      = insertAll (case.query signing) [] := by
    obtain ⟨_, _, request, _, environment⟩ := case
    cases h
    simp only [FetchParams.build, ExperimentCase.fetchParams, EnvironmentProfile.preset, Query.set,
      Query.new, CaseOf.query, CaseOf.written, CaseOf.value, DimensionValue.written, fetchTable,
      contactPairs, insertAll, List.map_cons, List.map_nil, Sum.elim_inl, Sum.elim_inr,
      Option.elim_some, List.foldl_append, List.foldl_cons, List.foldl_nil]
    by_cases hempty : signing.contactUs.isEmpty = true
    · simp only [hempty, if_true, List.foldl_nil]
    · simp only [hempty, if_false, List.foldl_cons, List.foldl_nil, Bool.false_eq_true]
  rw [hinsert, insertAll_nil, collapse_eq_self (nodup_query case signing)]

/-! ## URLs -/

/-- What becomes of the query, with or without a mutation. -/
def Declared : Option QueryMutation → Query → Query → Prop
  | none, entries, entries' => entries' = entries
  | some mutation, entries, entries' => mutation.Mutates entries entries'

/-- The pairs of a URL of the endpoint. -/
def readUrl (url : String) : Option Query :=
  (Text.stripPrefix (fetchEndpoint ++ "?").toList url.toList).bind fun raw =>
    Query.parseEncoded (String.ofList raw)

theorem readUrl_encode (entries : Query) :
    readUrl (fetchEndpoint ++ "?" ++ entries.encode) = some entries := by
  have hstrip := Text.stripPrefix_eq_some.mpr
    (String.toList_append (s := fetchEndpoint ++ "?") (t := entries.encode))
  rw [readUrl, hstrip, Option.bind_some, String.ofList_toList, Query.parseEncoded_encode]

theorem foldl_pushRaw (entries start : Query) :
    entries.foldl (fun query entry => query.pushRaw entry.1 entry.2) start = start ++ entries := by
  induction entries generalizing start with
  | nil => rw [List.foldl_nil, List.append_nil]
  | cons entry entries ih =>
    rw [List.foldl_cons, ih, Query.pushRaw, List.append_assoc, List.singleton_append]

theorem mutate_eq_ok {case : ExperimentCase} {signing : SigningInput}
    {entries entries' : Query} : ExperimentCase.mutate case signing entries = .ok entries'
      ↔ Declared signing.queryMutation entries entries' := by
  rw [ExperimentCase.mutate]
  cases signing.queryMutation with
  | none => simp [Declared, eq_comm]
  | some mutation => exact mutation.apply_eq_ok case.id

/-- A URL is written just when the mutation applies, and what is read of it
is the query as the mutation leaves it. -/
theorem signingUrl_eq_ok (case : ExperimentCase) (url : String) :
    ExperimentCase.signingUrl case = .ok url ↔ ∃ signing entries,
      case.signing = some signing ∧ Declared signing.queryMutation (case.query signing) entries
        ∧ url = fetchEndpoint ++ "?" ++ entries.encode ∧ readUrl url = some entries := by
  cases hsigning : case.signing with
  | none => simp [ExperimentCase.signingUrl, hsigning]
  | some signing =>
    rw [ExperimentCase.signingUrl, hsigning]
    dsimp only
    rw [build_eq hsigning, bind_eq_ok]
    simp only [foldl_pushRaw, Query.new, List.nil_append, mutate_eq_ok, pure, Except.pure,
      Except.ok.injEq]
    constructor
    · rintro ⟨entries, hdeclared, rfl⟩
      exact ⟨signing, entries, rfl, hdeclared, rfl, readUrl_encode entries⟩
    · rintro ⟨_, entries, hsome, hdeclared, rfl, -⟩
      obtain rfl := Option.some.inj hsome
      exact ⟨entries, hdeclared, rfl⟩

/-! ## Dimensions of a URL -/

/-- The parameters of a dimension. -/
def ExperimentDimension.parameters (dimension : ExperimentDimension) : List String :=
  (fetchTable.filter (·.2 = .inr dimension)).map Prod.fst
    ++ if dimension = .contactUs then ["contact_us"] else []

example : ExperimentDimension.language.parameters = ["app_language", "webcast_language"] := rfl

/-- An entry without its value, if it is one of these parameters. -/
def blank (names : List String) (entry : String × String) : String × String :=
  if entry.1 ∈ names then (entry.1, "") else entry

@[simp] theorem blank_fst (names : List String) (entry : String × String) :
    (blank names entry).1 = entry.1 := by
  rw [blank]
  split_ifs <;> rfl

/-- Two queries with other values for these parameters only. -/
def AgreeOff (names : List String) (entries entries' : Query) : Prop :=
  entries.map (blank names) = entries'.map (blank names)

theorem AgreeOff.filter_eq {names : List String} {entries entries' : Query}
    (h : AgreeOff names entries entries') :
    entries.filter (·.1 ∉ names) = entries'.filter (·.1 ∉ names) := by
  have hfilter : ∀ entries : Query, (entries.map (blank names)).filter (·.1 ∉ names)
      = entries.filter (·.1 ∉ names) := fun entries => by
    rw [List.filter_map]
    simp only [Function.comp_def, blank_fst]
    refine (List.map_congr_left fun entry hentry => ?_).trans (List.map_id _)
    have hname := of_decide_eq_true (List.mem_filter.mp hentry).2
    rw [blank, if_neg hname, id]
  rw [← hfilter entries, ← hfilter entries', h]

namespace QueryMutationOf

variable {names : List String} {mutation : QueryMutation}
variable {entries entries' result result' : Query}

/-- The mutation of blanked queries. -/
def blanked (names : List String) : QueryMutation → QueryMutation
  | .set name occurrence value => .set name occurrence (blank names (name, value)).2
  | mutation => mutation

theorem blank_eq (names : List String) (name value : String) :
    blank names (name, value) = (name, (blank names (name, value)).2) :=
  Prod.ext (blank_fst names _) rfl

theorem Mutates.blanked (h : mutation.Mutates entries result) :
    (mutation.blanked names).Mutates (entries.map (blank names)) (result.map (blank names)) := by
  have hcount : ∀ {front : Query} {name : String} {occurrence : Nat},
      front.countP (·.1 = name) = occurrence →
      (front.map (blank names)).countP (·.1 = name) = occurrence := by
    intro front name occurrence hcount
    rw [List.countP_map]
    simpa only [Function.comp_def, blank_fst] using hcount
  cases h with
  | remove h =>
    simp only [List.map_append, List.map_cons]
    rw [blank_eq]
    exact .remove (hcount h)
  | duplicate h =>
    simp only [List.map_append, List.map_cons]
    rw [blank_eq]
    exact .duplicate (hcount h)
  | @set name value value' occurrence front back h =>
    simp only [List.map_append, List.map_cons]
    rw [blank_eq names name value, blank_eq names name value']
    exact .set (hcount h)
  | @move name value occurrence front back front' back' h hrest =>
    simp only [List.map_append, List.map_cons]
    rw [blank_eq]
    have hmapped := congrArg (List.map (blank names)) hrest
    rw [List.map_append, List.map_append] at hmapped
    have hmoved : Mutates _ (_ ++ (name, (blank names (name, value)).2) :: _) _ :=
      .move (hcount h) hmapped
    rw [List.length_map] at hmoved
    exact hmoved

theorem Mutates.append (h : mutation.Mutates entries result) (rest : Query) :
    mutation.Mutates (entries ++ rest) (result ++ rest) := by
  cases h with
  | remove h =>
    rw [List.append_assoc, List.append_assoc]
    exact .remove h
  | duplicate h =>
    rw [List.append_assoc, List.append_assoc]
    exact .duplicate h
  | set h =>
    rw [List.append_assoc, List.append_assoc]
    exact .set h
  | move h hrest =>
    rw [List.append_assoc, List.append_assoc]
    refine .move h ?_
    change _ ++ (_ ++ rest) = _ ++ (_ ++ rest)
    rw [← List.append_assoc, hrest, List.append_assoc]

theorem Mutates.unique (h : mutation.Mutates entries result)
    (h' : mutation.Mutates entries result') : result = result' := by
  have hok := (mutation.apply_eq_ok "").mpr h
  exact Except.ok.inj (hok.symm.trans ((mutation.apply_eq_ok "").mpr h'))

end QueryMutationOf

variable {names : List String} {entries entries' result result' : Query}
variable {mutation : Option QueryMutation}

/-- A mutation looks at names only. -/
theorem AgreeOff.declared (h : AgreeOff names entries entries')
    (hresult : Declared mutation entries result) (hresult' : Declared mutation entries' result') :
    AgreeOff names result result' := by
  cases mutation with
  | none =>
    rw [hresult, hresult']
    exact h
  | some mutation =>
    have hblanked : (mutation.blanked names).Mutates (entries'.map (blank names))
        (result'.map (blank names)) := hresult'.blanked
    rw [← h] at hblanked
    exact hresult.blanked.unique hblanked

/-- What is appended is out of reach of a mutation that applies without it. -/
theorem Declared.append (h : Declared mutation entries result)
    (h' : Declared mutation (entries ++ entries') result') : result' = result ++ entries' := by
  cases mutation with
  | none =>
    rw [h, h']
  | some mutation => exact h'.unique (h.append entries')

/-! ## Controlled URLs -/

section Controlled

variable {dimension : ExperimentDimension} {baseline case : ExperimentCase}
variable {signing signing' : SigningInput}

theorem Controlled.value_eq (h : Controlled dimension baseline case)
    (hsigning : baseline.signing = some signing) (hsigning' : case.signing = some signing')
    {other : ExperimentDimension} (hne : dimension ≠ other) :
    baseline.value other = case.value other := by
  refine h.2 other ?_
  rintro (heq | ⟨rfl, -⟩)
  · exact hne heq
  · refine h.1 (given_eq_iff.mpr ?_)
    rw [hsigning, hsigning']
    rfl

theorem mem_parameters {row : String × (String ⊕ ExperimentDimension)} (hrow : row ∈ fetchTable)
    (h : row.2 = .inr dimension) : row.1 ∈ dimension.parameters :=
  List.mem_append_left _ (List.mem_map_of_mem (List.mem_filter.mpr ⟨hrow, decide_eq_true h⟩))

theorem Controlled.agree_written (h : Controlled dimension baseline case)
    (hsigning : baseline.signing = some signing) (hsigning' : case.signing = some signing') :
    AgreeOff dimension.parameters baseline.written case.written := by
  rw [AgreeOff, CaseOf.written, CaseOf.written, List.map_map, List.map_map]
  refine List.map_congr_left fun (name, source) hrow => ?_
  rw [Function.comp_apply, Function.comp_apply]
  cases source with
  | inl constant => rfl
  | inr other =>
    by_cases hother : dimension = other
    · have hname := mem_parameters hrow (congrArg Sum.inr hother.symm)
      rw [blank, blank, if_pos hname, if_pos hname]
    · change blank _ (name, (baseline.value other).written)
        = blank _ (name, (case.value other).written)
      rw [h.value_eq hsigning hsigning' hother]

/-- No row of the table is the contact, which comes after it. -/
theorem Controlled.written_eq (h : Controlled .contactUs baseline case)
    (hsigning : baseline.signing = some signing) (hsigning' : case.signing = some signing') :
    baseline.written = case.written := by
  have hrows : ∀ row ∈ fetchTable, row.2 ≠ .inr .contactUs := by decide
  refine List.map_congr_left fun (name, source) hrow => ?_
  cases source with
  | inl constant => rfl
  | inr other =>
    have hother : .contactUs ≠ other := fun heq => hrows _ hrow (congrArg Sum.inr heq.symm)
    change (name, (baseline.value other).written) = (name, (case.value other).written)
    rw [h.value_eq hsigning hsigning' hother]

/-- What is written of a dimension with parameters tells its value. -/
theorem value_of_written (hsigning : baseline.signing = some signing)
    (hsigning' : case.signing = some signing') (hparameters : dimension.parameters ≠ [])
    (h : (baseline.value dimension).written = (case.value dimension).written) :
    baseline.value dimension = case.value dimension := by
  cases dimension <;> first
    | exact absurd rfl hparameters
    | simpa [CaseOf.value, DimensionValue.written, hsigning, hsigning', Nat.repr_inj,
        UInt32.toNat_inj, UInt8.toNat_inj] using h

theorem contactUs_eq_iff (hsigning : baseline.signing = some signing)
    (hsigning' : case.signing = some signing') :
    baseline.value .contactUs = case.value .contactUs ↔ signing.contactUs = signing'.contactUs := by
  simp [CaseOf.value, hsigning, hsigning']

theorem queryMutation_eq_iff (hsigning : baseline.signing = some signing)
    (hsigning' : case.signing = some signing') :
    baseline.value .queryMutation = case.value .queryMutation
      ↔ signing.queryMutation = signing'.queryMutation := by
  simp [CaseOf.value, hsigning, hsigning']

theorem contactPairs_of_isEmpty {contact : String} (h : contact.isEmpty = true) :
    contactPairs contact = [] := if_pos h

theorem contactPairs_inj {contact contact' : String}
    (h : contactPairs contact = contactPairs contact') : contact = contact' := by
  rw [contactPairs, contactPairs] at h
  split_ifs at h with hempty hempty' hempty'
  · rw [String.isEmpty_iff.mp hempty, String.isEmpty_iff.mp hempty']
  · simpa using h

theorem agree_contactPairs (contact contact' : String)
    (hempty : contact.isEmpty = contact'.isEmpty) :
    AgreeOff ["contact_us"] (contactPairs contact) (contactPairs contact') := by
  rw [contactPairs, contactPairs, hempty]
  split_ifs
  · rfl
  · simp [AgreeOff, blank]

theorem filter_contactPairs (contact : String) :
    (contactPairs contact).filter (·.1 ∉ ["contact_us"]) = [] := by
  rw [contactPairs]
  split_ifs <;> simp

theorem AgreeOff.append {names : List String} {front front' back back' : Query}
    (hfront : AgreeOff names front front') (hback : AgreeOff names back back') :
    AgreeOff names (front ++ back) (front' ++ back') := by
  rw [AgreeOff, List.map_append, List.map_append, hfront, hback]

/-- Off the parameters of the dimension, the two queries are one. -/
theorem Controlled.filter_eq (h : Controlled dimension baseline case)
    (hsigning : baseline.signing = some signing) (hsigning' : case.signing = some signing')
    {mutation : Option QueryMutation} {result result' : Query}
    (hresult : Declared mutation (baseline.query signing) result)
    (hresult' : Declared mutation (case.query signing') result') :
    result.filter (·.1 ∉ dimension.parameters) = result'.filter (·.1 ∉ dimension.parameters) := by
  by_cases hcontact : dimension = .contactUs
  · subst hcontact
    have hwritten := h.written_eq hsigning hsigning'
    rw [CaseOf.query] at hresult hresult'
    by_cases hempty : signing.contactUs.isEmpty = signing'.contactUs.isEmpty
    · have hquery : AgreeOff ["contact_us"] (baseline.written ++ contactPairs signing.contactUs)
          (case.written ++ contactPairs signing'.contactUs) :=
        AgreeOff.append (congrArg _ hwritten) (agree_contactPairs _ _ hempty)
      exact (hquery.declared hresult hresult').filter_eq
    -- one of the two has no contact, and the other has it after all the rest
    · cases hmissing : signing.contactUs.isEmpty with
      | true =>
        rw [contactPairs_of_isEmpty hmissing, List.append_nil, hwritten] at hresult
        rw [hresult.append hresult', List.filter_append]
        exact (congrArg _ (filter_contactPairs _)).trans (List.append_nil _) |>.symm
      | false =>
        have hmissing' : signing'.contactUs.isEmpty = true := by simpa [hmissing] using hempty
        rw [contactPairs_of_isEmpty hmissing', List.append_nil, ← hwritten] at hresult'
        rw [hresult'.append hresult, List.filter_append]
        exact (congrArg _ (filter_contactPairs _)).trans (List.append_nil _)
  · have hother : signing.contactUs = signing'.contactUs :=
      (contactUs_eq_iff hsigning hsigning').mp (h.value_eq hsigning hsigning' hcontact)
    have hquery : AgreeOff dimension.parameters (baseline.query signing)
        (case.query signing') := by
      rw [CaseOf.query, CaseOf.query, hother]
      exact (h.agree_written hsigning hsigning').append rfl
    exact (hquery.declared hresult hresult').filter_eq

/-- Without a mutation, the dimension shows in the query just when it has
parameters. -/
theorem Controlled.query_eq_iff (h : Controlled dimension baseline case)
    (hsigning : baseline.signing = some signing) (hsigning' : case.signing = some signing') :
    baseline.query signing = case.query signing' ↔ dimension.parameters = [] := by
  constructor
  · intro heq
    by_contra hparameters
    have hlength : baseline.written.length = case.written.length := by
      rw [CaseOf.written, CaseOf.written, List.length_map, List.length_map]
    obtain ⟨hwritten, hpairs⟩ := List.append_inj heq hlength
    refine h.1 ?_
    by_cases hcontact : dimension = .contactUs
    · subst hcontact
      exact (contactUs_eq_iff hsigning hsigning').mpr (contactPairs_inj hpairs)
    · refine value_of_written hsigning hsigning' hparameters ?_
      rw [ExperimentDimension.parameters, if_neg hcontact, List.append_nil] at hparameters
      obtain ⟨name, hname⟩ := List.exists_mem_of_ne_nil _ hparameters
      obtain ⟨⟨_, source⟩, hrow, rfl⟩ := List.mem_map.mp hname
      obtain ⟨hrow, hsource⟩ := List.mem_filter.mp hrow
      obtain rfl := of_decide_eq_true hsource
      exact congrArg Prod.snd (List.map_inj_left.mp hwritten _ hrow)
  · intro hparameters
    have hcontact : dimension ≠ .contactUs := by
      rintro rfl
      cases hparameters
    have hagree := h.agree_written hsigning hsigning'
    have hblank : ∀ entries : Query, entries.map (blank []) = entries := fun entries =>
      (List.map_congr_left fun entry _ => if_neg List.not_mem_nil).trans (List.map_id _)
    rw [hparameters, AgreeOff, hblank, hblank] at hagree
    rw [CaseOf.query, CaseOf.query, hagree,
      (contactUs_eq_iff hsigning hsigning').mp (h.value_eq hsigning hsigning' hcontact)]

end Controlled

theorem CaseOf.Fit.exists_url {case : ExperimentCase} (h : case.Fit) {signing : SigningInput}
    (hsigning : case.signing = some signing) :
    ∃ url, ExperimentCase.signingUrl case = .ok url := by
  cases hmutation : signing.queryMutation with
  | none =>
    refine ⟨_, (signingUrl_eq_ok case _).mpr ⟨signing, case.query signing, hsigning, ?_, rfl,
      readUrl_encode _⟩⟩
    rw [hmutation]
    rfl
  | some mutation => exact h.query signing hsigning (by rw [hmutation]; rfl)

/-- In an accepted plan, the URL of an experiment and that of the baseline
are read as the same parameters but for those of the one dimension that was
changed. Without mutations, the URLs are one just when it has no parameters. -/
theorem urls_of_accepted {plan : ExperimentPlan} (hvalid : plan.validate = .ok ())
    {experiment : ExperimentCase} (hmem : experiment ∈ plan.experiments)
    {signing signing' : SigningInput} (hsigning : plan.baseline.signing = some signing)
    (hsigning' : experiment.signing = some signing') :
    ∃ dimension url url' entries entries', Controlled dimension plan.baseline experiment
      ∧ ExperimentCase.signingUrl plan.baseline = .ok url
      ∧ ExperimentCase.signingUrl experiment = .ok url'
      ∧ readUrl url = some entries ∧ readUrl url' = some entries'
      ∧ (dimension ≠ .queryMutation → entries.filter (·.1 ∉ dimension.parameters)
        = entries'.filter (·.1 ∉ dimension.parameters))
      ∧ (signing.queryMutation = none → signing'.queryMutation = none →
        (url = url' ↔ dimension.parameters = [])) := by
  obtain ⟨-, hfit, -, hcontrolled⟩ := plan.validate_eq_ok.mp hvalid
  obtain ⟨dimension, h⟩ := hcontrolled experiment hmem
  obtain ⟨url, hurl⟩ := (hfit _ List.mem_cons_self).exists_url hsigning
  obtain ⟨url', hurl'⟩ := (hfit _ (List.mem_cons_of_mem _ hmem)).exists_url hsigning'
  obtain ⟨_, entries, hsome, hdeclared, hencode, hread⟩ := (signingUrl_eq_ok _ url).mp hurl
  obtain rfl := Option.some.inj (hsigning.symm.trans hsome)
  obtain ⟨_, entries', hsome', hdeclared', hencode', hread'⟩ := (signingUrl_eq_ok _ url').mp hurl'
  obtain rfl := Option.some.inj (hsigning'.symm.trans hsome')
  refine ⟨dimension, url, url', entries, entries', h, hurl, hurl', hread, hread', ?_, ?_⟩
  · intro hdimension
    have hmutation := (queryMutation_eq_iff hsigning hsigning').mp
      (h.value_eq hsigning hsigning' hdimension)
    rw [← hmutation] at hdeclared'
    exact h.filter_eq hsigning hsigning' hdeclared hdeclared'
  · intro hnone hnone'
    rw [hnone] at hdeclared
    rw [hnone'] at hdeclared'
    rw [← h.query_eq_iff hsigning hsigning', ← hdeclared, ← hdeclared']
    constructor
    · rintro rfl
      exact Option.some.inj (hread.symm.trans hread')
    · intro heq
      rw [hencode, hencode', heq]

/-- A guest in the room with this id. -/
def guestCase (id language : String) : ExperimentCase where
  id := id
  description := ""
  request := ⟨"7300000000000000001"⟩
  signing := some ⟨"7300000000000000002", "0", "0", "", 1, none, none⟩
  environment := ⟨"Mozilla", "5.0", "Linux x86_64", "linux", language, "en-US",
    "America/New_York", "US", 1920, 1080, .system, .guest⟩

def languagePlan : ExperimentPlan where
  planVersion := 1
  baseline := guestCase "baseline" "en"
  experiments := [guestCase "language" "es"]

theorem urls_of_accepted_sample : ∃ dimension url url' entries entries',
    Controlled dimension languagePlan.baseline (guestCase "language" "es")
      ∧ ExperimentCase.signingUrl languagePlan.baseline = .ok url
      ∧ ExperimentCase.signingUrl (guestCase "language" "es") = .ok url'
      ∧ readUrl url = some entries ∧ readUrl url' = some entries'
      ∧ (dimension ≠ .queryMutation → entries.filter (·.1 ∉ dimension.parameters)
        = entries'.filter (·.1 ∉ dimension.parameters))
      ∧ (url = url' ↔ dimension.parameters = []) := by
  have hvalid : languagePlan.validate = .ok () := rfl
  obtain ⟨dimension, url, url', entries, entries', hcontrolled, hurl, hurl', hread, hread', hrest,
    hsame⟩ := urls_of_accepted hvalid List.mem_cons_self rfl rfl
  exact ⟨dimension, url, url', entries, entries', hcontrolled, hurl, hurl', hread, hread', hrest,
    hsame rfl rfl⟩

end TiktokSigner.SignLab
