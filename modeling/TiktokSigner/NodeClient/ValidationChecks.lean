import Mathlib.Data.Rat.Lemmas
import TiktokSigner.NodeClient.JsonValidation

/-!
# What the checks of a node come to

The checks of `check`, block by block, against the meaning of the keywords
they read. A check answers, `Answers`, if it comes to a verdict that is right
about a proposition; a row of checks answers the conjunction, and each may
count on the ones before it.

`V` stands for what is valid of the nodes that the walk goes on to: the
checks are right where the visits are.
-/

namespace TiktokSigner.NodeClient.JsonValidation

open Validity

/-! ## The meaning of the schemas -/

def JsLib.vocabulary (js : JsLib) : Vocabulary JsNumber where
  value := JsNumber.toRat
  pattern pattern s := js.test pattern s = true
  format format s := format = "uri" → js.isUri s = true

def JsonSchema.view : JsonSchema → View JsNumber Schema
  | .bool b => .bool b
  | .object schema => .node schema.toKeywords

/-- Schemas, with references into `root`. -/
def language (root : Schema) : SchemaLanguage JsNumber Schema where
  read schema := (readSchema schema).map JsonSchema.view
  resolve reference := (resolveLocalReference root reference).toOption

def typeNames : List String :=
  ["null", "boolean", "integer", "number", "string", "array", "object"]

/-- The schema is of its type, and what it says is known. -/
structure Supported (root schema : Schema) : Prop where
  typed : ∃ form, readSchema schema = some form
  ref : ∀ object, readSchema schema = some (.object object) → ∀ reference ∈ object.ref,
    ∃ target, resolveLocalReference root reference = .ok target
  format : ∀ object, readSchema schema = some (.object object) → ∀ format ∈ object.format,
    format = "uri"
  type : ∀ object, readSchema schema = some (.object object) → ∀ names ∈ object.type,
    names ≠ [] ∧ ∀ name ∈ names, name ∈ typeNames

/-! ## Verdicts -/

/-- The walk comes to a verdict, and accepts exactly if `P`. -/
def Answers (verdict : Verdict) (P : Prop) : Prop :=
  ∃ failed, verdict = .ok failed ∧ (failed = none ↔ P)

theorem Answers.congr {verdict : Verdict} {P Q : Prop} (h : Answers verdict P) (hiff : P ↔ Q) :
    Answers verdict Q := by
  obtain ⟨failed, hverdict, hnone⟩ := h
  exact ⟨failed, hverdict, hnone.trans hiff⟩

theorem Answers.unique {verdict : Verdict} {P Q : Prop} (hP : Answers verdict P)
    (hQ : Answers verdict Q) : P ↔ Q := by
  obtain ⟨failed, hverdict, hfailed⟩ := hP
  obtain ⟨failed', hverdict', hfailed'⟩ := hQ
  obtain rfl := Except.ok.inj (hverdict.symm.trans hverdict')
  exact hfailed.symm.trans hfailed'

theorem answers_accept {P : Prop} (h : P) : Answers accept P :=
  ⟨none, rfl, iff_of_true rfl h⟩

theorem answers_failIf {bad : Bool} {f : Failure} {P : Prop} (h : bad = false ↔ P) :
    Answers (failIf bad f) P := by
  refine ⟨_, rfl, Iff.trans ?_ h⟩
  cases bad with
  | false => simp
  | true => simp

/-- What follows may count on what came before. -/
theorem Answers.andThen {result next : Verdict} {P Q : Prop} (hresult : Answers result P)
    (hnext : P → Answers next Q) : Answers (result.andThen next) (P ∧ Q) := by
  obtain ⟨failed, rfl, hfailed⟩ := hresult
  cases failed with
  | none =>
    have hP := hfailed.mp rfl
    exact (hnext hP).congr ⟨fun hQ => ⟨hP, hQ⟩, And.right⟩
  | some f =>
    refine ⟨some f, rfl, ?_⟩
    have hP : ¬P := fun hP => Option.some_ne_none f (hfailed.mpr hP)
    exact iff_of_false (Option.some_ne_none f) fun h => hP h.1

section Lists

variable {α : Type} {visit : α → Verdict} {P : α → Prop}

theorem answers_each : ∀ {l : List α},
    (∀ front a rest, l = front ++ a :: rest → (∀ b ∈ front, P b) → Answers (visit a) (P a)) →
      Answers (each visit l) (∀ a ∈ l, P a)
  | [], _ => answers_accept fun a ha => absurd ha List.not_mem_nil
  | a :: l, h => by
      have hhead := h [] a l rfl fun b hb => absurd hb List.not_mem_nil
      refine (hhead.andThen fun ha => answers_each fun front b rest hl hfront => ?_).congr
        List.forall_mem_cons.symm
      exact h (a :: front) b rest (by rw [hl]; rfl) (List.forall_mem_cons.mpr ⟨ha, hfront⟩)

theorem not_exactlyOne_nil : ¬ExactlyOne P [] := by
  rintro ⟨front, a, rest, h, -⟩
  exact absurd h (by simp)

theorem exactlyOne_cons {a : α} {l : List α} :
    ExactlyOne P (a :: l) ↔ P a ∧ (∀ b ∈ l, ¬P b) ∨ ¬P a ∧ ExactlyOne P l := by
  constructor
  · rintro ⟨front, b, rest, h, hb, hothers⟩
    cases front with
    | nil =>
      obtain ⟨rfl, rfl⟩ := List.cons.inj h
      exact Or.inl ⟨hb, hothers⟩
    | cons c front =>
      obtain ⟨rfl, rfl⟩ := List.cons.inj h
      obtain ⟨ha, hothers⟩ := List.forall_mem_cons.mp hothers
      exact Or.inr ⟨ha, front, b, rest, rfl, hb, hothers⟩
  · rintro (⟨ha, hothers⟩ | ⟨ha, front, b, rest, rfl, hb, hothers⟩)
    · exact ⟨[], a, l, rfl, ha, hothers⟩
    · exact ⟨a :: front, b, rest, rfl, hb, List.forall_mem_cons.mpr ⟨ha, hothers⟩⟩

theorem countMatches_eq : ∀ {l : List α}, (∀ a ∈ l, Answers (visit a) (P a)) →
    ∃ matched, countMatches visit l = .ok matched ∧ (0 < matched ↔ ∃ a ∈ l, P a) ∧
      (matched = 1 ↔ ExactlyOne P l)
  | [], _ => ⟨0, rfl, by simp, iff_of_false (by simp) not_exactlyOne_nil⟩
  | a :: l, h => by
      obtain ⟨⟨failed, hverdict, hfailed⟩, hrest⟩ := List.forall_mem_cons.mp h
      obtain ⟨matched, hcount, hpos, hone⟩ := countMatches_eq hrest
      have hnone : matched = 0 ↔ ∀ b ∈ l, ¬P b := by
        have hzero := not_congr hpos
        push Not at hzero
        exact Nat.le_zero.symm.trans hzero
      rw [countMatches, hverdict, hcount]
      cases failed with
      | none =>
        have ha := hfailed.mp rfl
        refine ⟨matched + 1, rfl, iff_of_true (by omega) ⟨a, List.mem_cons_self, ha⟩, ?_⟩
        rw [exactlyOne_cons, Nat.add_eq_right, hnone]
        exact ⟨fun hothers => Or.inl ⟨ha, hothers⟩, fun hor => by
          rcases hor with ⟨-, hothers⟩ | ⟨hnot, -⟩
          · exact hothers
          · exact absurd ha hnot⟩
      | some f =>
        have ha : ¬P a := fun ha => Option.some_ne_none f (hfailed.mpr ha)
        refine ⟨matched, rfl, ?_, ?_⟩
        · simp [hpos, ha]
        · rw [hone, exactlyOne_cons]
          simp [ha]

end Lists

/-! ## What the walk reads -/

/-- By identity, a constant or an item of an enumeration. -/
structure Identical (value : Value) (schema : JsonSchemaObject) : Prop where
  const : ∀ const ∈ schema.const, objectIs value const = true
  enum : ∀ items ∈ schema.enum, ∃ item ∈ items, objectIs item value = true

/-- The keywords that are read: `oneOf` only where there is no `anyOf`. -/
def JsonSchemaObject.readKeywords (schema : JsonSchemaObject) : Keywords JsNumber Schema :=
  { schema.toKeywords with
    oneOf := if schema.anyOf.isSome then none else schema.oneOf
    items := schema.truthyItems }

theorem jsonEq_of_objectIs {v w : Value} (h : objectIs v w = true) :
    JsonEq JsNumber.toRat v w := by
  cases v <;> cases w <;> simp only [objectIs, Bool.false_eq_true, beq_iff_eq,
    decide_eq_true_eq] at h
  case null.null => exact .null
  case bool.bool b c =>
    subst h
    exact .bool b
  case num.num m n =>
    subst h
    exact .num rfl
  case str.str s t =>
    subst h
    exact .str s

theorem objectIs_comm (v w : Value) : objectIs v w = objectIs w v := by
  cases v <;> cases w <;> simp only [objectIs, Bool.beq_comm, eq_comm]

theorem isInt_iff (q : ℚ) : q.isInt = true ↔ ∃ z : ℤ, q = z := by
  have hden : q.isInt = (q.den == 1) := rfl
  rw [hden, beq_iff_eq]
  constructor
  · exact fun h => ⟨q.num, (Rat.den_eq_one_iff q).mp h |>.symm⟩
  · rintro ⟨z, rfl⟩
    exact Rat.den_intCast z

theorem matchesType_iff {value : Value} {name : String} (h : name ∈ typeNames) :
    matchesType value name = true ↔ HasType JsNumber.toRat value name := by
  simp only [typeNames, List.mem_cons, List.not_mem_nil, or_false] at h
  rcases h with rfl | rfl | rfl | rfl | rfl | rfl | rfl <;> cases value <;>
    simp [matchesType, HasType, Json.isNull, Json.asNum, Json.asStr, Json.asArray, Json.isObject,
      isInt_iff]

section Node

variable {js : JsLib} {visit : Value → Schema → String → Verdict} {V : Value → Schema → Prop}
  {value : Value} {schema : JsonSchemaObject} {path : String}

theorem checkConst_answers :
    Answers (checkConst js value schema path)
      (∀ const ∈ schema.const, objectIs value const = true) := by
  rw [checkConst]
  cases schema.const with
  | none => exact answers_accept fun const h => absurd h (by simp)
  | some const => exact answers_failIf (by simp)

theorem checkEnum_answers :
    Answers (checkEnum value schema path)
      (∀ items ∈ schema.enum, ∃ item ∈ items, objectIs item value = true) := by
  rw [checkEnum]
  cases schema.enum with
  | none => exact answers_accept fun items h => absurd h (by simp)
  | some items => exact answers_failIf (by simp)

theorem checkFormat_answers (h : ∀ format ∈ schema.format, format = "uri") :
    Answers (checkFormat schema) True := by
  rw [checkFormat]
  cases hformat : schema.format with
  | none => exact answers_accept trivial
  | some format =>
    dsimp only
    rw [if_pos (h format hformat)]
    exact answers_accept trivial

theorem checkAllOf_answers
    (h : ∀ branches ∈ schema.allOf, ∀ front b rest, branches = front ++ b :: rest →
      (∀ c ∈ front, V value c) → Answers (visit value b path) (V value b)) :
    Answers (checkAllOf visit value schema path)
      (∀ branches ∈ schema.allOf, ∀ b ∈ branches, V value b) := by
  rw [checkAllOf]
  cases hallOf : schema.allOf with
  | none => exact answers_accept fun branches h => absurd h (by simp)
  | some branches =>
    have hbranches := answers_each fun front b rest hsplit hfront =>
      h branches hallOf front b rest hsplit hfront
    exact hbranches.congr (by simp)

theorem checkAlternatives_answers
    (h : ∀ branches ∈ schema.alternatives, ∀ b ∈ branches,
      Answers (visit value b path) (V value b)) :
    Answers (checkAlternatives visit value schema path)
      ((∀ branches ∈ schema.anyOf, ∃ b ∈ branches, V value b) ∧
        ∀ branches ∈ schema.readKeywords.oneOf, ExactlyOne (V value) branches) := by
  rw [checkAlternatives]
  rw [JsonSchemaObject.alternatives] at h ⊢
  rw [JsonSchemaObject.readKeywords]
  cases hany : schema.anyOf with
  | some branches =>
    rw [hany] at h
    obtain ⟨matched, hcount, hpos, -⟩ := countMatches_eq (h branches rfl)
    simp only [Option.some_or, hcount, Option.isSome_some, if_true]
    exact answers_failIf (by simp [hpos])
  | none =>
    rw [hany, Option.none_or] at h
    simp only [Option.none_or, Option.isSome_none, Bool.false_eq_true, if_false]
    cases hone : schema.oneOf with
    | none => exact answers_accept (by simp)
    | some branches =>
      obtain ⟨matched, hcount, -, hmatched⟩ := countMatches_eq (h branches hone)
      simp only [hcount]
      exact answers_failIf (by simp [hmatched])

theorem checkType_answers
    (h : ∀ names ∈ schema.type, names ≠ [] ∧ ∀ name ∈ names, name ∈ typeNames) :
    Answers (checkType value schema path)
      (∀ names ∈ schema.type, ∃ name ∈ names, HasType JsNumber.toRat value name) := by
  rw [checkType]
  refine answers_failIf ?_
  cases htype : schema.type with
  | none => simp
  | some names =>
    obtain ⟨hne, hknown⟩ := h names htype
    have hany : (∃ name ∈ names, matchesType value name = true) ↔
        ∃ name ∈ names, HasType JsNumber.toRat value name :=
      exists_congr fun name => and_congr_right fun hname => matchesType_iff (hknown name hname)
    simp [hne, ← hany]

theorem checkString_answers (hempty : ∀ s, js.test "" s = true) :
    Answers (checkString js value schema path)
      ((∀ pattern ∈ schema.pattern, ∀ s, value = .str s → js.vocabulary.pattern pattern s) ∧
        ∀ format ∈ schema.format, ∀ s, value = .str s → js.vocabulary.format format s) := by
  cases value with
  | str s =>
    refine Answers.andThen (answers_failIf ?_) fun _ => answers_failIf ?_
    · cases schema.pattern with
      | none => simp
      | some pattern =>
        by_cases hpattern : pattern = ""
        · simp [hpattern, JsLib.vocabulary, hempty]
        · simp [hpattern, JsLib.vocabulary]
    · cases schema.format with
      | none => simp
      | some format =>
        by_cases hformat : format = "uri"
        · simp [hformat, JsLib.vocabulary]
        · simp [hformat, JsLib.vocabulary]
  | _ => exact answers_accept (by simp)

theorem checkNumber_answers :
    Answers (checkNumber value schema path)
      ((∀ m ∈ schema.minimum, ∀ n, value = .num n → m.toRat ≤ n.toRat) ∧
        ∀ m ∈ schema.maximum, ∀ n, value = .num n → n.toRat ≤ m.toRat) := by
  cases value with
  | num n =>
    refine Answers.andThen (answers_failIf ?_) fun _ => answers_failIf ?_
    · cases schema.minimum with
      | none => simp
      | some m =>
        simp only [Option.any_some, decide_eq_false_iff_not, Option.mem_def, Option.some.injEq,
          Json.num.injEq, forall_eq']
        exact Rat.not_lt
    · cases schema.maximum with
      | none => simp
      | some m =>
        simp only [Option.any_some, decide_eq_false_iff_not, Option.mem_def, Option.some.injEq,
          Json.num.injEq, forall_eq', gt_iff_lt]
        exact Rat.not_lt
  | _ => exact answers_accept (by simp)

/-- The value as a whole is what the keywords that are read say. -/
def Whole (js : JsLib) (root : Schema) (V : Value → Schema → Prop) (value : Value)
    (schema : JsonSchemaObject) : Prop :=
  Identical value schema ∧
    Meets js.vocabulary (language root).resolve V value schema.readKeywords.inPlace

theorem checkWhole_answers {root : Schema} (hempty : ∀ s, js.test "" s = true)
    (href : schema.ref = none) (hformat : ∀ format ∈ schema.format, format = "uri")
    (htype : ∀ names ∈ schema.type, names ≠ [] ∧ ∀ name ∈ names, name ∈ typeNames)
    (hallOf : Identical value schema → ∀ branches ∈ schema.allOf, ∀ front b rest,
      branches = front ++ b :: rest → (∀ c ∈ front, V value c) →
        Answers (visit value b path) (V value b))
    (halternatives : Identical value schema →
      (∀ branches ∈ schema.allOf, ∀ b ∈ branches, V value b) →
        ∀ branches ∈ schema.alternatives, ∀ b ∈ branches,
          Answers (visit value b path) (V value b)) :
    Answers (checkWhole js visit value schema path) (Whole js root V value schema) := by
  refine Answers.congr
    (checkConst_answers.andThen fun hconst => checkEnum_answers.andThen fun henum =>
      (checkFormat_answers hformat).andThen fun _ =>
      (checkAllOf_answers (hallOf ⟨hconst, henum⟩)).andThen fun hbranches =>
      (checkAlternatives_answers (halternatives ⟨hconst, henum⟩ hbranches)).andThen fun _ =>
      (checkType_answers htype).andThen fun _ =>
      (checkString_answers hempty).andThen fun _ => checkNumber_answers) ?_
  constructor
  · rintro ⟨hconst, henum, -, hbranches, ⟨hany, hone⟩, htypes, ⟨hpattern, hformats⟩, hmin, hmax⟩
    refine ⟨⟨hconst, henum⟩, ?_⟩
    exact
      { ref := fun r hr => by
          have hnone : schema.ref = some r := hr
          rw [href] at hnone
          cases hnone
        const := fun c hc => jsonEq_of_objectIs (hconst c hc)
        enum := fun items hitems => by
          obtain ⟨item, hitem, his⟩ := henum items hitems
          exact ⟨item, hitem, jsonEq_of_objectIs (objectIs_comm _ _ ▸ his)⟩
        format := hformats
        allOf := hbranches
        anyOf := hany
        oneOf := hone
        type := htypes
        pattern := hpattern
        minimum := hmin
        maximum := hmax
        items := fun s hs => by cases hs
        required := fun keys hkeys => by cases hkeys
        properties := fun ps hps => by cases hps
        additionalProperties := fun s hs => by cases hs }
  · rintro ⟨hidentical, hmeets⟩
    exact ⟨hidentical.const, hidentical.enum, trivial, hmeets.allOf, ⟨hmeets.anyOf, hmeets.oneOf⟩,
      hmeets.type, ⟨hmeets.pattern, hmeets.format⟩, hmeets.minimum, hmeets.maximum⟩

/-! ## Elements and members -/

theorem checkItems_answers {elements : List Value}
    (h : ∀ items ∈ schema.truthyItems, ∀ front x rest, elements = front ++ x :: rest →
      (∀ y ∈ front, V y items) → ∀ path, Answers (visit x items path) (V x items)) :
    Answers (checkItems visit schema path elements)
      (∀ items ∈ schema.truthyItems, ∀ x ∈ elements, V x items) := by
  rw [checkItems]
  cases hitems : schema.truthyItems with
  | none => exact answers_accept fun items h => absurd h (by simp)
  | some items =>
    refine (answers_each (P := fun pair => V pair.1 items)
      fun front pair rest hsplit hfront => ?_).congr ?_
    · have helements := congrArg (List.map Prod.fst) hsplit
      rw [List.zipIdx_map_fst, List.map_append, List.map_cons] at helements
      refine h items hitems _ _ _ helements (fun y hy => ?_) _
      obtain ⟨pair', hpair', rfl⟩ := List.mem_map.mp hy
      exact hfront pair' hpair'
    · have hmap : (∀ x ∈ elements.zipIdx.map Prod.fst, V x items) ↔
          ∀ pair ∈ elements.zipIdx, V pair.1 items := List.forall_mem_map
      rw [← hmap, List.zipIdx_map_fst]
      simp

theorem checkRequired_answers {members : List (String × Value)} :
    Answers (checkRequired schema path members)
      (∀ keys ∈ schema.required, ∀ key ∈ keys, ∃ x, members.lookup key = some x) := by
  rw [checkRequired]
  cases schema.required with
  | none => exact answers_accept fun keys h => absurd h (by simp)
  | some keys =>
    refine (answers_each (P := fun key => ∃ x, members.lookup key = some x)
      fun front key rest _ _ => answers_failIf ?_).congr (by simp)
    rw [Option.isNone_eq_false_iff, Option.isSome_iff_exists]

theorem checkProperties_answers {members : List (String × Value)}
    (h : ∀ properties ∈ schema.properties, ∀ front key s rest,
      properties = front ++ (key, s) :: rest →
      (∀ p ∈ front, ∀ x, members.lookup p.1 = some x → V x p.2) →
      ∀ x, members.lookup key = some x → ∀ path, Answers (visit x s path) (V x s)) :
    Answers (checkProperties visit schema path members)
      (∀ properties ∈ schema.properties, ∀ p ∈ properties, ∀ x,
        members.lookup p.1 = some x → V x p.2) := by
  rw [checkProperties]
  cases hproperties : schema.properties with
  | none => exact answers_accept fun properties h => absurd h (by simp)
  | some properties =>
    refine (answers_each (P := fun p => ∀ x, members.lookup p.1 = some x → V x p.2)
      fun front p rest hsplit hfront => ?_).congr (by simp)
    obtain ⟨key, s⟩ := p
    dsimp only
    cases hchild : members.lookup key with
    | none => exact answers_accept fun x hx => by cases hx
    | some child =>
      have hvisit := h properties hproperties front key s rest hsplit hfront child hchild
      exact (hvisit _).congr (by simp)

theorem checkAdditional_answers {members : List (String × Value)}
    (hbool : ∀ x b, V x (.bool b) ↔ b = true)
    (h : ∀ s ∈ schema.additionalProperties, (∀ b, s ≠ .bool b) →
      ∀ front m rest, members = front ++ m :: rest →
      (∀ m' ∈ front, m'.1 ∉ schema.known → V m'.2 s) → m.1 ∉ schema.known →
      ∀ path, Answers (visit m.2 s path) (V m.2 s)) :
    Answers (checkAdditional visit schema path members)
      (∀ s ∈ schema.additionalProperties, ∀ m ∈ members, m.1 ∉ schema.known → V m.2 s) := by
  unfold checkAdditional
  split
  case h_1 hnone => exact answers_accept (by simp [hnone])
  case h_2 htrue => exact answers_accept (by simp [htrue, hbool])
  case h_3 hfalse =>
    refine (answers_each (P := fun m => m.1 ∈ schema.known)
      fun front m rest _ _ => answers_failIf (by simp)).congr ?_
    simp [hfalse, hbool]
  case h_4 s htrue hfalse hs =>
    have hschema : ∀ b, s ≠ .bool b := by
      rintro (_ | _) hbool'
      · exact hfalse hbool'
      · exact htrue hbool'
    refine (answers_each (P := fun m => m.1 ∉ schema.known → V m.2 s)
      fun front m rest hsplit hfront => ?_).congr (by simp [hs])
    dsimp only
    split_ifs with hknown
    · exact answers_accept fun hnot => absurd (List.contains_iff_mem.mp hknown) hnot
    · have hnot : m.1 ∉ schema.known := fun hmem => hknown (List.contains_iff_mem.mpr hmem)
      have hvisit := h s hs hschema front m rest hsplit hfront hnot
      exact (hvisit _).congr (by simp [hnot])

/-- The elements and members are what the keywords that are read say. -/
structure Parts (V : Value → Schema → Prop) (value : Value) (schema : JsonSchemaObject) : Prop where
  items : ∀ s ∈ schema.truthyItems, ∀ xs, value = .arr xs → ∀ x ∈ xs, V x s
  required : ∀ keys ∈ schema.required, ∀ ms, value = .obj ms →
    ∀ key ∈ keys, ∃ x, ms.lookup key = some x
  properties : ∀ ps ∈ schema.properties, ∀ ms, value = .obj ms →
    ∀ p ∈ ps, ∀ x, ms.lookup p.1 = some x → V x p.2
  additionalProperties : ∀ s ∈ schema.additionalProperties, ∀ ms, value = .obj ms →
    ∀ m ∈ ms, m.1 ∉ schema.known → V m.2 s

theorem parts_arr {xs : List Value} :
    Parts V (.arr xs) schema ↔ ∀ items ∈ schema.truthyItems, ∀ x ∈ xs, V x items := by
  constructor
  · exact fun h items hitems => h.items items hitems xs rfl
  · intro h
    refine ⟨fun items hitems ys hys => ?_, ?_, ?_, ?_⟩
    · obtain rfl := Json.arr.inj hys
      exact h items hitems
    all_goals intro _ _ ms hms; cases hms

theorem parts_obj {ms : List (String × Value)} :
    Parts V (.obj ms) schema ↔
      (∀ keys ∈ schema.required, ∀ key ∈ keys, ∃ x, ms.lookup key = some x) ∧
      (∀ ps ∈ schema.properties, ∀ p ∈ ps, ∀ x, ms.lookup p.1 = some x → V x p.2) ∧
      ∀ s ∈ schema.additionalProperties, ∀ m ∈ ms, m.1 ∉ schema.known → V m.2 s := by
  constructor
  · exact fun h => ⟨fun keys hkeys => h.required keys hkeys ms rfl,
      fun ps hps => h.properties ps hps ms rfl, fun s hs => h.additionalProperties s hs ms rfl⟩
  · rintro ⟨hrequired, hproperties, hadditional⟩
    refine ⟨fun items hitems xs hxs => ?_, fun keys hkeys ms' hms => ?_,
      fun ps hps ms' hms => ?_, fun s hs ms' hms => ?_⟩
    · cases hxs
    all_goals obtain rfl := Json.obj.inj hms
    · exact hrequired keys hkeys
    · exact hproperties ps hps
    · exact hadditional s hs

theorem parts_other (harr : ∀ xs, value ≠ .arr xs) (hobj : ∀ ms, value ≠ .obj ms) :
    Parts V value schema :=
  ⟨fun _ _ xs h => absurd h (harr xs), fun _ _ ms h => absurd h (hobj ms),
    fun _ _ ms h => absurd h (hobj ms), fun _ _ ms h => absurd h (hobj ms)⟩

theorem whole_and_parts {root : Schema} :
    Whole js root V value schema ∧ Parts V value schema ↔
      Identical value schema ∧
        Meets js.vocabulary (language root).resolve V value schema.readKeywords := by
  constructor
  · rintro ⟨⟨hidentical, hwhole⟩, hparts⟩
    exact ⟨hidentical,
      { hwhole with
        items := hparts.items
        required := hparts.required
        properties := hparts.properties
        additionalProperties := hparts.additionalProperties }⟩
  · rintro ⟨hidentical, hmeets⟩
    exact ⟨⟨hidentical, hmeets.inPlace⟩, hmeets.items, hmeets.required, hmeets.properties,
      hmeets.additionalProperties⟩

end Node

end TiktokSigner.NodeClient.JsonValidation
