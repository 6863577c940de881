import TiktokSigner.Lib.Collapse
import TiktokSigner.Lib.Text
import TiktokSigner.SignCore.CookieJar

/-!
# Cookie headers and edits of a jar

`parse`, `to_cookie_string`, `merge` and `get` of `cookie.rs`. What is
parsed is trimmed and has no separator in it (`Clean`), so the string of a
parsed jar is read back as it is (`parse_toCookieString`). Edits of a jar
are rows of insertions, and leave the names that are there in their places
(`entries_run`).
-/

namespace TiktokSigner.CookieJar

open FirstSeen OrderedMap Text

/-- One part of a header. Empty parts, parts without `=` and empty names are
ignored. -/
def parsePart (part : List Char) : Option (String × String) :=
  let part := trim isWhitespace part
  if part = [] then none
  else
    match splitOnce '=' part with
    | none => none
    | some (k, v) =>
        let k := trim isWhitespace k
        if k = [] then none else some (String.ofList k, String.ofList (trim isWhitespace v))

def parse (raw : String) : CookieJar :=
  (raw.toList.splitOn ';').foldl (fun jar part =>
    match parsePart part with
    | some (k, v) => jar.set k v
    | none => jar) new

def get (self : CookieJar) (name : String) : Option String := self.entries.lookup name

/-- Merge `other` over this jar. -/
def merge (self other : CookieJar) : CookieJar :=
  other.entries.foldl (fun jar entry => jar.set entry.1 entry.2) self

def toCookieString (self : CookieJar) : String :=
  String.ofList ("; ".toList.intercalate
    (self.entries.map fun entry => entry.1.toList ++ '=' :: entry.2.toList))

/-! ## Rows of insertions -/

theorem setEntry_eq_insert (name value : String) (entries : List (String × String)) :
    setEntry name value entries = OrderedMap.insert name value entries := by
  induction entries with
  | nil => rfl
  | cons entry entries ih =>
    obtain ⟨k, v⟩ := entry
    rw [setEntry, OrderedMap.insert, ih]
    by_cases hk : k = name
    · simp [hk]
    · simp [hk, Ne.symm hk]

/-- A row of `set`s inserts its pairs. -/
theorem entries_foldl (pairs : List (String × String)) (jar : CookieJar) :
    (pairs.foldl (fun jar pair => jar.set pair.1 pair.2) jar).entries
      = insertAll pairs jar.entries := by
  induction pairs generalizing jar with
  | nil => rfl
  | cons pair pairs ih =>
    rw [List.foldl_cons, ih]
    have hset : (jar.set pair.1 pair.2).entries = OrderedMap.insert pair.1 pair.2 jar.entries :=
      setEntry_eq_insert _ _ _
    rw [hset]
    rfl

theorem ext {jar other : CookieJar} (h : jar.entries = other.entries) : jar = other := by
  cases jar
  cases other
  cases h
  rfl

theorem parse_eq (raw : String) :
    parse raw = fromIter ((raw.toList.splitOn ';').filterMap parsePart) := by
  rw [parse, fromIter]
  generalize raw.toList.splitOn ';' = parts
  generalize new = jar
  induction parts generalizing jar with
  | nil => rfl
  | cons part parts ih =>
    rw [List.foldl_cons, ih, List.filterMap_cons]
    cases parsePart part <;> rfl

/-! ## Clean entries -/

/-- What a part that is read consists of. -/
structure Clean (entry : String × String) : Prop where
  name_ne : entry.1.toList ≠ []
  name_trimmed : Trimmed isWhitespace entry.1.toList
  value_trimmed : Trimmed isWhitespace entry.2.toList
  name_equals : '=' ∉ entry.1.toList
  name_semicolon : ';' ∉ entry.1.toList
  value_semicolon : ';' ∉ entry.2.toList

theorem clean_of_parsePart {part : List Char} {entry : String × String}
    (hpart : ';' ∉ part) (h : parsePart part = some entry) : Clean entry := by
  unfold parsePart at h
  dsimp only at h
  split_ifs at h with hempty
  split at h
  · cases h
  · rename_i k v hsplit
    split_ifs at h with hname
    obtain rfl := Option.some.inj h
    obtain ⟨htrim, hequals⟩ := splitOnce_eq_some.mp hsplit
    have hsemicolon : ';' ∉ k ++ '=' :: v := fun hmem => hpart (mem_of_mem_trim (htrim ▸ hmem))
    rw [List.mem_append, not_or] at hsemicolon
    constructor
    · rwa [String.toList_ofList]
    · rw [String.toList_ofList]
      exact trimmed_trim _ _
    · rw [String.toList_ofList]
      exact trimmed_trim _ _
    · rw [String.toList_ofList]
      exact fun hmem => hequals (mem_of_mem_trim hmem)
    · rw [String.toList_ofList]
      exact fun hmem => hsemicolon.1 (mem_of_mem_trim hmem)
    · rw [String.toList_ofList]
      exact fun hmem => hsemicolon.2 (List.mem_cons_of_mem _ (mem_of_mem_trim hmem))

theorem Clean.trimmed {entry : String × String} (h : Clean entry) :
    Trimmed isWhitespace (entry.1.toList ++ '=' :: entry.2.toList) := by
  constructor
  · rw [List.head?_append_of_ne_nil _ h.name_ne]
    exact h.name_trimmed.1
  · intro c hc
    rw [List.getLast?_append, List.getLast?_cons] at hc
    cases hlast : entry.2.toList.getLast? with
    | none =>
      rw [hlast] at hc
      obtain rfl := Option.some.inj hc
      rfl
    | some last =>
      rw [hlast] at hc
      obtain rfl := Option.some.inj hc
      exact h.value_trimmed.2 _ hlast

/-- A clean entry is read as it is written. -/
theorem parsePart_clean {entry : String × String} (h : Clean entry) {front : List Char}
    (hfront : ∀ c ∈ front, isWhitespace c = true) :
    parsePart (front ++ (entry.1.toList ++ '=' :: entry.2.toList)) = some entry := by
  have hsplit : splitOnce '=' (entry.1.toList ++ '=' :: entry.2.toList)
      = some (entry.1.toList, entry.2.toList) := splitOnce_eq_some.mpr ⟨rfl, h.name_equals⟩
  have hne : entry.1.toList ++ '=' :: entry.2.toList ≠ [] := by simp
  unfold parsePart
  dsimp only
  rw [trim_append_left hfront, trim_of_trimmed h.trimmed, if_neg hne, hsplit]
  dsimp only
  rw [trim_of_trimmed h.name_trimmed, if_neg h.name_ne, trim_of_trimmed h.value_trimmed,
    String.ofList_toList, String.ofList_toList]

/-! ## Round trips -/

theorem clean_of_mem_parse {raw : String} {entry : String × String}
    (h : entry ∈ (parse raw).entries) : Clean entry := by
  have hinsert : (parse raw).entries
      = insertAll ((raw.toList.splitOn ';').filterMap parsePart) [] := by
    rw [parse_eq, fromIter, entries_foldl]
    rfl
  rw [hinsert, insertAll_nil] at h
  obtain ⟨name, _, hvalue⟩ := List.mem_filterMap.mp h
  obtain ⟨value, hlast, rfl⟩ := Option.map_eq_some_iff.mp hvalue
  obtain ⟨part, hpart, hparsed⟩ := List.mem_filterMap.mp (mem_of_lastValue hlast)
  exact clean_of_parsePart (notMem_of_mem_splitOn hpart) hparsed

theorem Clean.semicolon {entry : String × String} (h : Clean entry) :
    ';' ∉ entry.1.toList ++ '=' :: entry.2.toList := by
  rw [List.mem_append, List.mem_cons, not_or, not_or]
  exact ⟨h.name_semicolon, by decide, h.value_semicolon⟩

/-- The parts of a cookie string, behind the blank that follows a separator. -/
theorem filterMap_splitOn {entries : List (String × String)}
    (hclean : ∀ entry ∈ entries, Clean entry) {front : List Char}
    (hfront : ∀ c ∈ front, isWhitespace c = true) :
    ((front ++ "; ".toList.intercalate
      (entries.map fun entry => entry.1.toList ++ '=' :: entry.2.toList)).splitOn ';').filterMap
        parsePart = entries := by
  have hsemicolon : ';' ∉ front := fun hmem => absurd (hfront _ hmem) (by decide)
  induction entries generalizing front with
  | nil =>
    have hblank : parsePart front = none := by
      have htrim : trim isWhitespace front = [] := by
        rw [← List.append_nil front, trim_append_left hfront]
        rfl
      rw [parsePart, htrim]
      rfl
    rw [List.map_nil, List.intercalate_nil, List.append_nil, List.splitOn_eq_singleton hsemicolon,
      List.filterMap_cons, hblank, List.filterMap_nil]
  | cons entry entries ih =>
    have hentry := hclean entry List.mem_cons_self
    have hpart : ';' ∉ front ++ (entry.1.toList ++ '=' :: entry.2.toList) := by
      rw [List.mem_append, not_or]
      exact ⟨hsemicolon, hentry.semicolon⟩
    have hrest : ∀ other ∈ entries, Clean other := fun other hmem =>
      hclean other (List.mem_cons_of_mem _ hmem)
    cases entries with
    | nil =>
      rw [List.map_cons, List.map_nil, List.intercalate_singleton,
        List.splitOn_eq_singleton hpart, List.filterMap_cons, parsePart_clean hentry hfront,
        List.filterMap_nil]
    | cons other entries =>
      have hsep : "; ".toList = [';', ' '] := by decide
      have hblank : ∀ c ∈ [' '], isWhitespace c = true := fun c hc => by
        rw [List.mem_singleton.mp hc]
        rfl
      have hnext := ih hrest hblank (by decide)
      rw [hsep] at hnext ⊢
      rw [List.map_cons, List.map_cons, List.intercalate_cons_cons, ← List.append_assoc,
        ← List.append_assoc, List.append_assoc _ [';', ' '], List.cons_append,
        List.splitOn_append_cons_self, List.splitOn_eq_singleton hpart, List.singleton_append,
        List.filterMap_cons, parsePart_clean hentry hfront]
      exact congrArg (entry :: ·) hnext

theorem parse_toCookieString_of_clean {jar : CookieJar} (h : ∀ entry ∈ jar.entries, Clean entry) :
    parse jar.toCookieString = jar := by
  have hnone : ∀ c ∈ ([] : List Char), isWhitespace c = true := fun c hc => by cases hc
  have hparts := filterMap_splitOn h hnone
  rw [List.nil_append] at hparts
  rw [parse_eq, toCookieString, String.toList_ofList, hparts]
  exact ext (entries_fromIter jar.nodup)

/-- A parsed jar is read back from its own string. -/
theorem parse_toCookieString (raw : String) : parse (parse raw).toCookieString = parse raw :=
  parse_toCookieString_of_clean fun _ => clean_of_mem_parse

/-! ## Edits -/

def names (self : CookieJar) : List String := keys self.entries

inductive Edit where
  | set (name value : String)
  | merge (other : CookieJar)

/-- The pairs that an edit inserts. -/
def Edit.pairs : Edit → List (String × String)
  | .set name value => [(name, value)]
  | .merge other => other.entries

def apply (self : CookieJar) : Edit → CookieJar
  | .set name value => self.set name value
  | .merge other => self.merge other

/-- A parsed jar after a row of edits. -/
def run (raw : String) (edits : List Edit) : CookieJar := edits.foldl apply (parse raw)

/-- What is given for a jar, pair by pair: its header, and then the edits. -/
def given (raw : String) (edits : List Edit) : List (String × String) :=
  (raw.toList.splitOn ';').filterMap parsePart ++ edits.flatMap Edit.pairs

theorem entries_apply (jar : CookieJar) (edit : Edit) :
    (jar.apply edit).entries = insertAll edit.pairs jar.entries := by
  cases edit with
  | set name value => exact setEntry_eq_insert name value jar.entries
  | merge other => exact entries_foldl other.entries jar

/-- Induction on the edits: each inserts its pairs after those before. -/
theorem entries_run (raw : String) (edits : List Edit) :
    (run raw edits).entries = collapse (given raw edits) := by
  rw [← insertAll_nil, given, run]
  induction edits using List.reverseRecOn with
  | nil =>
    rw [List.flatMap_nil, List.append_nil, List.foldl_nil, parse_eq, fromIter, entries_foldl]
    rfl
  | append_singleton edits edit ih =>
    rw [List.foldl_append, List.foldl_cons, List.foldl_nil, entries_apply, ih,
      List.flatMap_append, List.flatMap_singleton, ← List.append_assoc]
    exact (List.foldl_append ..).symm

/-- A name that is there keeps its place. -/
theorem setEntry_of_mem {name value : String} {entries : List (String × String)}
    (hnodup : (entries.map (·.1)).Nodup) (h : name ∈ entries.map (·.1)) :
    setEntry name value entries
      = entries.map fun entry => if entry.1 = name then (entry.1, value) else entry := by
  induction entries with
  | nil => cases h
  | cons entry entries ih =>
    rw [List.map_cons, List.nodup_cons] at hnodup
    rw [setEntry, List.map_cons]
    split_ifs with hname
    · have hrest : (entries.map fun other => if other.1 = name then (other.1, value) else other)
          = entries := by
        refine (List.map_congr_left fun other hother => ?_).trans (List.map_id entries)
        refine if_neg fun heq => hnodup.1 ?_
        rw [hname, ← heq]
        exact List.mem_map_of_mem hother
      rw [hrest]
    · rw [List.map_cons, List.mem_cons] at h
      rw [ih hnodup.2 (h.resolve_left (Ne.symm hname))]

theorem entries_set (jar : CookieJar) (name value : String) :
    (jar.set name value).entries =
      if name ∈ jar.names then
        jar.entries.map fun entry => if entry.1 = name then (entry.1, value) else entry
      else jar.entries ++ [(name, value)] := by
  split_ifs with hname
  · exact setEntry_of_mem jar.nodup hname
  · exact setEntry_of_notMem hname

theorem entries_merge (jar other : CookieJar) :
    (jar.merge other).entries
      = (jar.entries.map fun entry => (entry.1, (other.get entry.1).getD entry.2))
        ++ other.entries.filter fun entry => entry.1 ∉ jar.names := by
  have hvalue : ∀ name, lastValue name other.entries = other.get name := by
    intro name
    rw [← lookup_collapse, collapse_eq_self other.nodup, get]
  have hnew : (keys (other.entries.filter fun entry => entry.1 ∉ jar.names)).Nodup :=
    other.nodup.sublist (List.filter_sublist.map _)
  have hinsert : (jar.merge other).entries = insertAll other.entries jar.entries :=
    entries_foldl other.entries jar
  rw [hinsert, insertAll_eq jar.nodup, ← names, collapse_eq_self hnew]
  simp only [hvalue]

/-- Round trips, unique names and kept places of every jar. -/
theorem cookie_jar_laws :
    (∀ raw : String, parse (parse raw).toCookieString = parse raw)
      ∧ (∀ raw edits, (run raw edits).names.Nodup
        ∧ (run raw edits).names = (keys (given raw edits)).eraseDups
        ∧ ∀ name, (run raw edits).get name = lastValue name (given raw edits))
      ∧ (∀ (jar : CookieJar) (name value : String), (jar.set name value).entries =
        if name ∈ jar.names then
          jar.entries.map fun entry => if entry.1 = name then (entry.1, value) else entry
        else jar.entries ++ [(name, value)])
      ∧ ∀ jar other : CookieJar, (jar.merge other).entries
        = (jar.entries.map fun entry => (entry.1, (other.get entry.1).getD entry.2))
          ++ other.entries.filter fun entry => entry.1 ∉ jar.names := by
  refine ⟨parse_toCookieString, fun raw edits => ⟨(run raw edits).nodup, ?_, fun name => ?_⟩,
    entries_set, entries_merge⟩
  · rw [names, entries_run, keys_collapse]
  · rw [get, entries_run, lookup_collapse]

end TiktokSigner.CookieJar
