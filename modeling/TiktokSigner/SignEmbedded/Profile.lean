import TiktokSigner.Lib.JsonText

/-!
# The profile handed to JavaScript

`Profile::to_json` and `escape` of the embedded signer. The replacements of
`escape` run one after another, and none of them touches what one before it
has written, so together they write each character on its own
(`escape_eq`). The escapes are those of the quote, the backslash, the line
feed and the carriage return; every other control character stands in the
literal as it is, and there JSON does not allow it.
-/

namespace TiktokSigner.SignEmbedded

open JsonText

/-- Environment the sandbox reports while signing. -/
structure Profile where
  userAgent : Option String
  cookie : Option String
  storedToken : Option String
  pinned : Bool

/-- `str::replace` of a character. -/
def replace (text : List Char) (c : Char) (new : List Char) : List Char :=
  text.flatMap fun d => if d = c then new else [d]

/-- JSON-escape a string value. -/
def escape (value : String) : List Char :=
  replace
    (replace
      (replace
        (replace value.toList '\\' ['\\', '\\'])
        '"' ['\\', '"'])
      '\n' ['\\', 'n'])
    '\r' ['\\', 'r']

namespace Profile

def field (name : String) (value : Option String) : List Char :=
  match value with
  | some value => ",\"".toList ++ name.toList ++ "\":\"".toList ++ escape value ++ "\"".toList
  | none => []

def toJson (self : Profile) : List Char :=
  "\x7b\"pinned\":".toList ++ (if self.pinned then "true".toList else "false".toList) ++
    field "userAgent" self.userAgent ++
    field "cookie" self.cookie ++
    field "xmst" self.storedToken ++
    "\x7d".toList

/-- The fields after the first, under the names that JavaScript reads. -/
def fields (self : Profile) : List (String × Option String) :=
  [("userAgent", self.userAgent), ("cookie", self.cookie), ("xmst", self.storedToken)]

/-- The member that a set field is. -/
def member (entry : String × Option String) : Option (List Nat × Tree) :=
  entry.2.map fun value => (utf16 entry.1.toList, .str (utf16 value.toList))

/-- The object with exactly the set fields. -/
def object (self : Profile) : Tree :=
  .obj ((utf16 "pinned".toList, .bool self.pinned) :: self.fields.filterMap member)

end Profile

/-! ## The escaper -/

/-- What `escape` writes for a character. -/
def escapeChar (c : Char) : List Char :=
  if c = '\\' then ['\\', '\\']
  else if c = '"' then ['\\', '"']
  else if c = '\n' then ['\\', 'n']
  else if c = '\r' then ['\\', 'r']
  else [c]

theorem escape_eq (value : String) : escape value = value.toList.flatMap escapeChar := by
  simp only [escape, replace, List.flatMap_assoc]
  refine List.flatMap_congr fun c _ => ?_
  rw [escapeChar]
  by_cases hback : c = '\\'
  · subst hback
    rfl
  by_cases hquote : c = '"'
  · subst hquote
    rfl
  by_cases hline : c = '\n'
  · subst hline
    rfl
  simp [hback, hquote, hline]

/-- The escape of the character is read back as it. -/
def passes (c : Char) : Bool := 0x20 ≤ c.toNat || c == '\n' || c == '\r'

theorem passes_iff {c : Char} : passes c = true ↔ 0x20 ≤ c.toNat ∨ c = '\n' ∨ c = '\r' := by
  simp only [passes, Bool.or_eq_true, decide_eq_true_eq, beq_iff_eq, or_assoc]

theorem string_escapeChar {c : Char} (hc : passes c = true) (rest : List Char) :
    string (escapeChar c ++ rest) = (string rest).map fun read => (units c ++ read.1, read.2) := by
  rw [escapeChar]
  split_ifs with hback hquote hline hreturn
  · subst hback
    exact string_escape (by decide) rfl rest
  · subst hquote
    exact string_escape (by decide) rfl rest
  · subst hline
    exact string_escape (by decide) rfl rest
  · subst hreturn
    exact string_escape (by decide) rfl rest
  · rcases passes_iff.mp hc with hc | hc | hc
    · rw [List.singleton_append, string_plain hquote hback, if_neg (by omega)]
    · exact absurd hc hline
    · exact absurd hc hreturn

theorem string_escapeChar_of_not {c : Char} (hc : passes c = false) (rest : List Char) :
    string (escapeChar c ++ rest) = none := by
  obtain ⟨hcontrol, hline, hreturn⟩ : ¬0x20 ≤ c.toNat ∧ c ≠ '\n' ∧ c ≠ '\r' := by
    rw [← not_or, ← not_or, ← passes_iff, Bool.not_eq_true]
    exact hc
  have hback : c ≠ '\\' := fun h => hcontrol (by rw [h]; decide)
  have hquote : c ≠ '"' := fun h => hcontrol (by rw [h]; decide)
  rw [escapeChar, if_neg hback, if_neg hquote, if_neg hline, if_neg hreturn,
    List.singleton_append, string_plain hquote hback, if_pos (by omega)]

theorem string_escape_value (value : String) (rest : List Char) :
    string (escape value ++ '"' :: rest)
      = if value.toList.all passes then some (utf16 value.toList, rest) else none := by
  rw [escape_eq]
  exact string_flatMap (fun _ => string_escapeChar) (fun _ => string_escapeChar_of_not) _ _

/-! ## The object -/

namespace Profile

/-- A name that stands in a literal as it is. -/
def PlainName (name : String) : Prop := ∀ c ∈ name.toList, c.isAlpha

theorem escapeChar_of_isAlpha {c : Char} (hc : c.isAlpha) : escapeChar c = [c] := by
  have hne : ∀ d : Char, d.isAlpha = false → c ≠ d := fun d hd h => by rw [h, hd] at hc; cases hc
  rw [escapeChar, if_neg (hne _ rfl), if_neg (hne _ rfl), if_neg (hne _ rfl), if_neg (hne _ rfl)]

theorem passes_of_isAlpha {c : Char} (hc : c.isAlpha) : passes c = true := by
  have hc' : 0x20 ≤ c.val.toNat := by
    rcases Bool.or_eq_true_iff.mp hc with hc | hc
    · have hupper : 'A'.val ≤ c.val := (of_decide_eq_true hc).1
      exact Nat.le_trans (by decide) (UInt32.le_iff_toNat_le.mp hupper)
    · have hlower : 'a'.val ≤ c.val := of_decide_eq_true (Bool.and_eq_true_iff.mp hc).1
      exact Nat.le_trans (by decide) (UInt32.le_iff_toNat_le.mp hlower)
  exact passes_iff.mpr (Or.inl hc')

theorem string_name {name : String} (hname : PlainName name) (rest : List Char) :
    string (name.toList ++ '"' :: rest) = some (utf16 name.toList, rest) := by
  have hplain : name.toList.flatMap escapeChar = name.toList :=
    (List.flatMap_congr fun c hc => escapeChar_of_isAlpha (hname c hc)).trans
      (List.flatMap_singleton' name.toList)
  have hread := string_escape_value name rest
  rwa [escape_eq, hplain, if_pos (List.all_eq_true.mpr fun c hc => passes_of_isAlpha (hname c hc))] at hread

/-- Every set field holds characters that pass. -/
def passing (fields : List (String × Option String)) : Bool :=
  fields.all fun entry => entry.2.all fun value => value.toList.all passes

theorem field_some (name value : String) (rest : List Char) :
    field name (some value) ++ rest
      = ',' :: '"' :: (name.toList ++ '"' :: ':' :: '"' :: (escape value ++ '"' :: rest)) := by
  simp [field]

theorem more_field {name : String} (hname : PlainName name) (value : String) (fuel : Nat)
    (rest : List Char) :
    more (fuel + 2) (field name (some value) ++ rest)
      = if value.toList.all passes then
          (more (fuel + 1) rest).map fun read =>
            ((utf16 name.toList, .str (utf16 value.toList)) :: read.1, read.2)
        else none := by
  rw [field_some, more_comma, members_eq (string_name hname _), value_string, string_escape_value]
  split_ifs <;> rfl

/-- The fields that are left, to the closing brace. -/
theorem more_fields (fields : List (String × Option String))
    (hnames : ∀ entry ∈ fields, PlainName entry.1) (fuel : Nat) :
    more (fuel + fields.length + 1)
        ((fields.flatMap fun entry => field entry.1 entry.2) ++ ['\x7d'])
      = if passing fields then some (fields.filterMap member, []) else none := by
  induction fields generalizing fuel with
  | nil => rfl
  | cons entry fields ih =>
    obtain ⟨name, value⟩ := entry
    obtain ⟨hname, hrest⟩ := List.forall_mem_cons.mp hnames
    rw [List.length_cons, List.flatMap_cons, List.append_assoc, passing, List.all_cons]
    cases value with
    | none =>
      have hmore := ih hrest (fuel + 1)
      rw [Nat.add_right_comm fuel 1] at hmore
      exact hmore
    | some value =>
      rw [show fuel + (fields.length + 1) + 1 = fuel + fields.length + 2 from rfl,
        more_field hname, ih hrest fuel, Option.all_some]
      cases value.toList.all passes with
      | true =>
        rw [← passing, Bool.true_and]
        cases passing fields with
        | true => rfl
        | false => rfl
      | false => rfl

theorem plainName_fields (self : Profile) : ∀ entry ∈ self.fields, PlainName entry.1 := by
  have hnames : PlainName "userAgent" ∧ PlainName "cookie" ∧ PlainName "xmst" := by
    refine ⟨?_, ?_, ?_⟩ <;> simp [PlainName]
  exact List.forall_mem_cons.mpr ⟨hnames.1, List.forall_mem_cons.mpr ⟨hnames.2.1,
    List.forall_mem_cons.mpr ⟨hnames.2.2, fun _ h => absurd h List.not_mem_nil⟩⟩⟩

theorem toJson_eq (self : Profile) :
    self.toJson = '\x7b' :: '"' :: ("pinned".toList ++ '"' :: ':' ::
      ((if self.pinned then "true".toList else "false".toList) ++
        ((self.fields.flatMap fun entry => field entry.1 entry.2) ++ ['\x7d']))) := by
  have hopen : "\x7b\"pinned\":".toList = '\x7b' :: '"' :: ("pinned".toList ++ ['"', ':']) := by
    simp
  have hclose : "\x7d".toList = ['\x7d'] := by simp
  have hfields : (self.fields.flatMap fun entry => field entry.1 entry.2)
      = field "userAgent" self.userAgent ++
        (field "cookie" self.cookie ++ field "xmst" self.storedToken) := by
    rw [fields, List.flatMap_cons, List.flatMap_cons, List.flatMap_cons, List.flatMap_nil,
      List.append_nil]
  unfold toJson
  rw [hopen, hclose, hfields]
  simp only [List.append_assoc, List.cons_append, List.nil_append]

theorem value_pinned (pinned : Bool) (fuel : Nat) (rest : List Char) :
    value (fuel + 1) ((if pinned then "true".toList else "false".toList) ++ rest)
      = some (.bool pinned, rest) := by
  cases pinned <;> simp [value, skipBlank, isBlank, word, List.isPrefixOf]

/-- The document is read as the object that is meant, or not at all. -/
theorem parse_toJson (self : Profile) :
    parse self.toJson = if passing self.fields then some self.object else none := by
  have hname : PlainName "pinned" := by simp [PlainName]
  obtain ⟨fuel, hfuel⟩ : ∃ fuel, self.toJson.length + 1 = fuel + self.fields.length + 3 :=
    ⟨self.toJson.length + 1 - 6, by rw [toJson_eq]; simp [fields]⟩
  rw [parse, hfuel, toJson_eq, value_object, members_eq (string_name hname _), value_pinned,
    Option.bind_some, more_fields self.fields self.plainName_fields]
  split_ifs <;> rfl

/-- Parsing the document gives exactly the set fields where no set field
holds a control character other than the line feed and the carriage return. -/
theorem profile_crosses_iff (self : Profile) :
    parse self.toJson = some self.object
      ↔ ∀ entry ∈ self.fields, ∀ value ∈ entry.2, ∀ c ∈ value.toList,
        0x20 ≤ c.toNat ∨ c = '\n' ∨ c = '\r' := by
  have hpassing : passing self.fields = true
      ↔ ∀ entry ∈ self.fields, ∀ value ∈ entry.2, ∀ c ∈ value.toList,
        0x20 ≤ c.toNat ∨ c = '\n' ∨ c = '\r' := by
    simp only [passing, List.all_eq_true, Option.all_eq_true, passes_iff, Option.mem_def]
  rw [parse_toJson, ← hpassing]
  cases passing self.fields with
  | true => exact iff_of_true rfl rfl
  | false => exact iff_of_false (fun h => by cases h) Bool.false_ne_true

/-- A cookie with a tab in it leaves a document that is not JSON. -/
theorem tab_in_cookie_is_not_json :
    parse (toJson ⟨none, some "a\tb", none, false⟩)
      ≠ some (object ⟨none, some "a\tb", none, false⟩) := by
  rw [parse_toJson, if_neg]
  · exact Option.some_ne_none _ ∘ Eq.symm
  · simp [passing, fields, passes]

end Profile

end TiktokSigner.SignEmbedded
