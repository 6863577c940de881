import Mathlib.Data.Finite.Prod
import Mathlib.Logic.Relation
import Mathlib.Order.Filter.AtTopBot.Basic
import Mathlib.Order.Filter.Finite
import TiktokSigner.NodeClient.ValidationChecks

/-!
# When the validator is right

The walk of `validateJson` against the meaning of the keywords. It reads
nothing beside a `$ref`, no `oneOf` beside an `anyOf` and no `items: false`,
and it compares constants by identity. Where that makes no difference to the
value at hand the node is `Faithful`, and the verdicts are right on every
node of a walk exactly if every node of it is.

`Step` is where the walk goes on from a node, with the checks that come
before as its guards. A step leads to what the node refers to, `step_child`,
so that the fuel is found by induction along the steps.
-/

namespace TiktokSigner.NodeClient.JsonValidation

open Validity

/-! ## Nodes -/

/-- A node of a walk: a part of the value and a schema for it. -/
abbrev Node := Value × Schema

/-- The walk goes on from one node to another. -/
inductive Step (js : JsLib) (root : Schema) (V : Value → Schema → Prop) : Node → Node → Prop
  | ref {v : Value} {s target : Schema} {object : JsonSchemaObject} {reference : String}
      (hread : readSchema s = some (.object object)) (href : object.ref = some reference)
      (htarget : resolveLocalReference root reference = .ok target) :
      Step js root V (v, s) (v, target)
  | allOf {v : Value} {s b : Schema} {object : JsonSchemaObject} {front rest : List Schema}
      (hread : readSchema s = some (.object object)) (href : object.ref = none)
      (hidentical : Identical v object) (hallOf : object.allOf = some (front ++ b :: rest))
      (hfront : ∀ c ∈ front, V v c) : Step js root V (v, s) (v, b)
  | alternative {v : Value} {s b : Schema} {object : JsonSchemaObject} {branches : List Schema}
      (hread : readSchema s = some (.object object)) (href : object.ref = none)
      (hidentical : Identical v object) (hallOf : ∀ bs ∈ object.allOf, ∀ c ∈ bs, V v c)
      (hbranches : object.alternatives = some branches) (hb : b ∈ branches) :
      Step js root V (v, s) (v, b)
  | item {x : Value} {s items : Schema} {object : JsonSchemaObject} {front rest : List Value}
      (hread : readSchema s = some (.object object)) (href : object.ref = none)
      (hwhole : Whole js root V (.arr (front ++ x :: rest)) object)
      (hitems : object.truthyItems = some items) (hfront : ∀ y ∈ front, V y items) :
      Step js root V (.arr (front ++ x :: rest), s) (x, items)
  | property {ms : List (String × Value)} {key : String} {x : Value} {s t : Schema}
      {object : JsonSchemaObject} {front rest : List (String × Schema)}
      (hread : readSchema s = some (.object object)) (href : object.ref = none)
      (hwhole : Whole js root V (.obj ms) object)
      (hrequired : ∀ keys ∈ object.required, ∀ key ∈ keys, ∃ x, ms.lookup key = some x)
      (hproperties : object.properties = some (front ++ (key, t) :: rest))
      (hfront : ∀ p ∈ front, ∀ x, ms.lookup p.1 = some x → V x p.2)
      (hx : ms.lookup key = some x) : Step js root V (.obj ms, s) (x, t)
  | additional {m : String × Value} {s t : Schema} {object : JsonSchemaObject}
      {front rest : List (String × Value)}
      (hread : readSchema s = some (.object object)) (href : object.ref = none)
      (hwhole : Whole js root V (.obj (front ++ m :: rest)) object)
      (hrequired : ∀ keys ∈ object.required, ∀ key ∈ keys,
        ∃ x, (front ++ m :: rest).lookup key = some x)
      (hproperties : ∀ ps ∈ object.properties, ∀ p ∈ ps, ∀ x,
        (front ++ m :: rest).lookup p.1 = some x → V x p.2)
      (hadditional : object.additionalProperties = some t) (ht : ∀ b, t ≠ .bool b)
      (hfront : ∀ m' ∈ front, m'.1 ∉ object.known → V m'.2 t) (hm : m.1 ∉ object.known) :
      Step js root V (.obj (front ++ m :: rest), s) (m.2, t)

section Walk

variable {js : JsLib} {root : Schema} {V : Value → Schema → Prop}

/-- With enough fuel the walk answers at the node what `V` says. -/
def Judged (js : JsLib) (root : Schema) (V : Value → Schema → Prop) (node : Node) : Prop :=
  ∃ enough, ∀ fuel ≥ enough, ∀ path,
    Answers (check js root fuel node.1 node.2 path) (V node.1 node.2)

variable {fuel : Nat} {v : Value} {s : Schema} {object : JsonSchemaObject}

theorem checkParts_answers (hbool : ∀ x b, V x (.bool b) ↔ b = true)
    (hread : readSchema s = some (.object object)) (href : object.ref = none)
    (hsteps : ∀ node, Step js root V (v, s) node → ∀ path,
      Answers (check js root fuel node.1 node.2 path) (V node.1 node.2))
    (hwhole : Whole js root V v object) (path : String) :
    Answers (checkParts (check js root fuel) v object path) (Parts V v object) := by
  unfold checkParts
  split
  case h_1 elements =>
    rw [parts_arr]
    refine checkItems_answers fun items hitems front x rest helements hfront path => ?_
    subst helements
    exact hsteps _ (.item hread href hwhole hitems hfront) path
  case h_2 members =>
    rw [parts_obj]
    refine checkRequired_answers.andThen fun hrequired => (checkProperties_answers
      fun properties hps front key t rest hsplit hfront x hx path => ?_).andThen
      fun hproperties => checkAdditional_answers hbool
        fun t ht hschema front m rest hsplit hfront hm path => ?_
    · subst hsplit
      exact hsteps _ (.property hread href hwhole hrequired hps hfront hx) path
    · subst hsplit
      exact hsteps _ (.additional hread href hwhole hrequired hproperties ht hschema hfront hm) path
  case h_3 harr hobj => exact answers_accept (parts_other harr hobj)

/-- What the checks of a node without a reference come to, where the nodes
it goes on to are judged right. -/
theorem checks_answer (hempty : ∀ s, js.test "" s = true)
    (hbool : ∀ x b, V x (.bool b) ↔ b = true) (hsupported : Supported root s)
    (hread : readSchema s = some (.object object)) (href : object.ref = none)
    (hsteps : ∀ node, Step js root V (v, s) node → ∀ path,
      Answers (check js root fuel node.1 node.2 path) (V node.1 node.2)) (path : String) :
    Answers (check js root (fuel + 1) v s path)
      (Identical v object ∧
        Meets js.vocabulary (language root).resolve V v object.readKeywords) := by
  have hchecks : check js root (fuel + 1) v s path =
      (checkWhole js (check js root fuel) v object path).andThen
        (checkParts (check js root fuel) v object path) := by
    rw [check, hread]
    dsimp only
    rw [href]
  rw [hchecks, ← whole_and_parts]
  refine Answers.andThen (checkWhole_answers hempty href (hsupported.format object hread)
    (hsupported.type object hread) ?_ ?_) fun hwhole =>
      checkParts_answers hbool hread href hsteps hwhole path
  · rintro hidentical branches hbranches front b rest rfl hfront
    exact hsteps _ (.allOf hread href hidentical hbranches hfront) path
  · intro hidentical hallOf branches hbranches b hb
    exact hsteps _ (.alternative hread href hidentical hallOf hbranches hb) path

theorem check_ref {reference : String} {target : Schema} {P : Prop} {path : String}
    (hread : readSchema s = some (.object object)) (href : object.ref = some reference)
    (htarget : resolveLocalReference root reference = .ok target)
    (h : Answers (check js root fuel v target path) P) :
    Answers (check js root (fuel + 1) v s path) P := by
  have hcheck : check js root (fuel + 1) v s path = check js root fuel v target path := by
    rw [check, hread]
    dsimp only
    rw [href]
    dsimp only
    rw [htarget]
    rfl
  rwa [hcheck]

theorem eq_bool_of_readSchema {b : Bool} (h : readSchema s = some (.bool b)) : s = .bool b := by
  cases s with
  | bool c =>
    obtain rfl := JsonSchema.bool.inj (Option.some.inj h)
    rfl
  | obj members =>
    rw [readSchema, Option.map_eq_some_iff] at h
    obtain ⟨object, -, h⟩ := h
    cases h
  | _ => cases h

theorem check_bool {b : Bool} {path : String} (h : readSchema s = some (.bool b)) :
    Answers (check js root (fuel + 1) v s path) (b = true) := by
  rw [check, h]
  cases b with
  | true => exact answers_accept rfl
  | false => exact ⟨_, rfl, by simp⟩

/-! ## The nodes a node goes on to -/

/-- The value and its elements or members. -/
def parts (v : Value) : List Value :=
  v :: match v with
    | .arr xs => xs
    | .obj ms => ms.map (·.2)
    | _ => []

/-- The schemas in a node, and the one it refers to. -/
def subschemas (root s : Schema) : List Schema :=
  match readSchema s with
  | some (.object object) =>
      (object.ref.bind (language root).resolve).toList ++ (object.branches ++ object.partSchemas)
  | _ => []

theorem language_read (hread : readSchema s = some (.object object)) :
    (language root).read s = some (.node object.toKeywords) := by
  have hview : (language root).read s = (readSchema s).map JsonSchema.view := rfl
  rw [hview, hread]
  rfl

theorem toOption_eq_some {reference : String} {target : Schema} :
    (language root).resolve reference = some target ↔
      resolveLocalReference root reference = .ok target := by
  have hresolve : (language root).resolve reference =
      (resolveLocalReference root reference).toOption := rfl
  rw [hresolve]
  cases resolveLocalReference root reference with
  | error e => exact iff_of_false (fun h => by cases h) (fun h => by cases h)
  | ok t =>
    constructor
    · exact fun h => congrArg Except.ok (Option.some.inj h)
    · exact fun h => congrArg some (Except.ok.inj h)

theorem mem_truthyItems {items : Schema} :
    items ∈ object.truthyItems ↔ items ∈ object.items ∧ items ≠ .bool false := by
  rw [JsonSchemaObject.truthyItems]
  split
  case h_1 hitems => simp [hitems, eq_comm]
  case h_2 hne =>
    refine ⟨fun h => ⟨h, ?_⟩, And.left⟩
    rintro rfl
    exact hne h

theorem mem_branches {b : Schema} {branches : List Schema}
    (hbranches : object.alternatives = some branches) (hb : b ∈ branches) :
    b ∈ object.branches := by
  rw [JsonSchemaObject.alternatives, Option.or_eq_some_iff] at hbranches
  rw [Keywords.branches, List.mem_append, List.mem_append]
  rcases hbranches with hany | ⟨-, hone⟩
  · exact Or.inr (Or.inl (by rw [hany]; exact hb))
  · exact Or.inr (Or.inr (by rw [hone]; exact hb))

theorem mem_allOf_branches {b : Schema} {branches : List Schema}
    (hbranches : object.allOf = some branches) (hb : b ∈ branches) : b ∈ object.branches := by
  rw [Keywords.branches, hbranches]
  exact List.mem_append_left _ hb

theorem step_mem {node next : Node} (h : Step js root V node next) :
    next.1 ∈ parts node.1 ∧ next.2 ∈ subschemas root node.2 := by
  cases h with
  | ref hread href htarget =>
    refine ⟨List.mem_cons_self, ?_⟩
    simp [subschemas, hread, href, toOption_eq_some.mpr htarget]
  | allOf hread href hidentical hallOf hfront =>
    have hb := mem_allOf_branches hallOf (List.mem_append_right _ List.mem_cons_self)
    refine ⟨List.mem_cons_self, ?_⟩
    simp [subschemas, hread, hb]
  | alternative hread href hidentical hallOf hbranches hb =>
    refine ⟨List.mem_cons_self, ?_⟩
    simp [subschemas, hread, mem_branches hbranches hb]
  | item hread href hwhole hitems hfront =>
    have hitems' := (mem_truthyItems.mp hitems).1
    refine ⟨by simp [parts], ?_⟩
    simp [subschemas, Keywords.partSchemas, hread, Option.mem_def.mp hitems']
  | property hread href hwhole hrequired hproperties hfront hx =>
    refine ⟨List.mem_cons_of_mem _ (List.mem_map.mpr ⟨_, mem_of_lookup hx, rfl⟩), ?_⟩
    simp [subschemas, Keywords.partSchemas, hread, hproperties]
  | additional hread href hwhole hrequired hproperties hadditional ht hfront hm =>
    refine ⟨by simp [parts], ?_⟩
    simp [subschemas, Keywords.partSchemas, hread, hadditional]

theorem steps_finite (node : Node) : {next | Step js root V node next}.Finite :=
  ((parts node.1).finite_toSet.prod (subschemas root node.2).finite_toSet).subset
    fun _ h => step_mem h

/-- Fuel for all of them. -/
theorem exists_enough {node : Node} (h : ∀ next, Step js root V node next → Judged js root V next) :
    ∃ enough, ∀ fuel ≥ enough, ∀ next, Step js root V node next → ∀ path,
      Answers (check js root fuel next.1 next.2 path) (V next.1 next.2) := by
  have heach : ∀ next ∈ {next | Step js root V node next}, ∀ᶠ fuel in Filter.atTop,
      ∀ path, Answers (check js root fuel next.1 next.2 path) (V next.1 next.2) :=
    fun next hnext => Filter.eventually_atTop.mpr (h next hnext)
  exact Filter.eventually_atTop.mp
    ((Filter.eventually_all_finite (steps_finite node)).mpr heach)

theorem step_child {node next : Node} (h : Step js root V node next) :
    Child (language root) next node := by
  cases h with
  | ref hread href htarget =>
    exact .inPlace (.ref (language_read hread) href (toOption_eq_some.mpr htarget))
  | allOf hread href hidentical hallOf hfront =>
    have hb := mem_allOf_branches hallOf (List.mem_append_right _ List.mem_cons_self)
    exact .inPlace (.branch (language_read hread) hb)
  | alternative hread href hidentical hallOf hbranches hb =>
    exact .inPlace (.branch (language_read hread) (mem_branches hbranches hb))
  | item hread href hwhole hitems hfront =>
    have hitems' := (mem_truthyItems.mp hitems).1
    refine .part (language_read hread) (.element (by simp)) ?_
    simp [Keywords.partSchemas, Option.mem_def.mp hitems']
  | property hread href hwhole hrequired hproperties hfront hx =>
    refine .part (language_read hread) (.member (mem_of_lookup hx)) ?_
    simp [Keywords.partSchemas, hproperties]
  | additional hread href hwhole hrequired hproperties hadditional ht hfront hm =>
    refine .part (language_read hread) (.member (by simp)) ?_
    simp [Keywords.partSchemas, hadditional]

/-! ## Where the walk is right about a node -/

/-- What is not read, and what is compared by identity, makes no difference
to the value at this node. -/
structure Faithful (js : JsLib) (root : Schema) (V : Value → Schema → Prop) (v : Value)
    (object : JsonSchemaObject) : Prop where
  /-- Where the target of `$ref` holds, so do the keywords beside it. -/
  beside : ∀ reference ∈ object.ref, ∀ target,
    resolveLocalReference root reference = .ok target → V v target →
      Meets js.vocabulary (language root).resolve V v object.toKeywords
  /-- A value that the node allows is its `const`, and an item of its `enum`,
  by `Object.is`. -/
  identical : object.ref = none →
    Meets js.vocabulary (language root).resolve V v object.toKeywords → Identical v object
  /-- Where all else holds, so do a `oneOf` beside `anyOf` and `items: false`. -/
  unread : object.ref = none → Identical v object →
    Meets js.vocabulary (language root).resolve V v object.readKeywords →
      (∀ branches ∈ object.oneOf, ExactlyOne (V v) branches) ∧
      (object.items = some (.bool false) → ∀ xs, v = .arr xs → xs = [])

/-- The walk is right about a node exactly if what it answers there is. -/
theorem judged_iff_of_answers {P : Prop}
    (h : ∃ enough, ∀ fuel ≥ enough, ∀ path, Answers (check js root fuel v s path) P) :
    Judged js root V (v, s) ↔ (P ↔ V v s) := by
  obtain ⟨enough, hanswers⟩ := h
  constructor
  · rintro ⟨enough', hjudged⟩
    have hP := hanswers (max enough enough') (Nat.le_max_left _ _) "$"
    have hV := hjudged (max enough enough') (Nat.le_max_right _ _) "$"
    exact hP.unique hV
  · exact fun hiff => ⟨enough, fun fuel hfuel path => (hanswers fuel hfuel path).congr hiff⟩

/-- The same with one unit of fuel for the node itself. -/
theorem exists_answers_succ {P : Prop} {Q : Nat → Prop} (h : ∃ enough, ∀ fuel ≥ enough, Q fuel)
    (hstep : ∀ fuel, Q fuel → ∀ path, Answers (check js root (fuel + 1) v s path) P) :
    ∃ enough, ∀ fuel ≥ enough, ∀ path, Answers (check js root fuel v s path) P := by
  obtain ⟨enough, hQ⟩ := h
  refine ⟨enough + 1, fun fuel hfuel path => ?_⟩
  cases fuel with
  | zero => omega
  | succ fuel => exact hstep fuel (hQ fuel (by omega)) path

theorem faithful_ref {reference : String} {target : Schema} (href : object.ref = some reference)
    (htarget : resolveLocalReference root reference = .ok target) :
    (V v target ↔ Meets js.vocabulary (language root).resolve V v object.toKeywords) ↔
      Faithful js root V v object := by
  constructor
  · intro hiff
    refine ⟨fun reference' href' target' htarget' hV => ?_, fun hnone => ?_, fun hnone => ?_⟩
    · obtain rfl := Option.some.inj (href.symm.trans href')
      obtain rfl := Except.ok.inj (htarget.symm.trans htarget')
      exact hiff.mp hV
    all_goals exact absurd (href.symm.trans hnone) (Option.some_ne_none _)
  · intro hfaithful
    refine ⟨hfaithful.beside reference href target htarget, fun hmeets => ?_⟩
    obtain ⟨target', htarget', hV⟩ := hmeets.ref reference href
    obtain rfl := Except.ok.inj (htarget.symm.trans (toOption_eq_some.mp htarget'))
    exact hV

theorem faithful_checks (hbool : ∀ x b, V x (.bool b) ↔ b = true) (href : object.ref = none) :
    (Identical v object ∧ Meets js.vocabulary (language root).resolve V v object.readKeywords ↔
      Meets js.vocabulary (language root).resolve V v object.toKeywords) ↔
      Faithful js root V v object := by
  constructor
  · intro hiff
    refine ⟨fun reference href' => ?_, fun _ hmeets => (hiff.mpr hmeets).1,
      fun _ hidentical hread => ?_⟩
    · exact absurd (href.symm.trans href') (Option.some_ne_none _).symm
    · have hmeets := hiff.mp ⟨hidentical, hread⟩
      refine ⟨hmeets.oneOf, fun hitems xs hxs => List.eq_nil_iff_forall_not_mem.mpr fun x hx => ?_⟩
      have hfalse := (hbool x false).mp (hmeets.items _ hitems xs hxs x hx)
      exact absurd hfalse Bool.false_ne_true
  · intro hfaithful
    constructor
    · rintro ⟨hidentical, hread⟩
      obtain ⟨hone, hnone⟩ := hfaithful.unread href hidentical hread
      refine { hread with oneOf := hone, items := fun items hitems xs hxs x hx => ?_ }
      by_cases hfalse : items = .bool false
      · subst hfalse
        rw [hnone hitems xs hxs] at hx
        exact absurd hx List.not_mem_nil
      · exact hread.items items (mem_truthyItems.mpr ⟨hitems, hfalse⟩) xs hxs x hx
    · intro hmeets
      refine ⟨hfaithful.identical href hmeets, { hmeets with oneOf := ?_, items := ?_ }⟩
      · intro branches hbranches
        rw [JsonSchemaObject.readKeywords] at hbranches
        dsimp only at hbranches
        split_ifs at hbranches with hany
        · cases hbranches
        · exact hmeets.oneOf branches hbranches
      · exact fun items hitems => hmeets.items items (mem_truthyItems.mp hitems).1

end Walk

section Walks

variable {js : JsLib} {root : Schema}

/-- The value is valid under a schema of the document. -/
abbrev IsValid (js : JsLib) (root : Schema) : Value → Schema → Prop :=
  Valid js.vocabulary (language root)

/-- What a schema refers to comes to an end. -/
abbrev Grounded (root : Schema) (node : Node) : Prop := Acc (Child (language root)) node

theorem grounded_bool (x : Value) (b : Bool) : Grounded root (x, .bool b) := by
  refine ⟨_, fun next h => ?_⟩
  cases h with
  | inPlace h =>
    cases h with
    | ref hread => cases hread
    | branch hread => cases hread
  | part hread => cases hread

theorem valid_bool (x : Value) (b : Bool) : IsValid js root x (.bool b) ↔ b = true :=
  valid_iff (grounded_bool x b)

theorem valid_object {v : Value} {s : Schema} {object : JsonSchemaObject}
    (hgrounded : Grounded root (v, s)) (hread : readSchema s = some (.object object)) :
    IsValid js root v s ↔
      Meets js.vocabulary (language root).resolve (IsValid js root) v object.toKeywords := by
  refine (valid_iff hgrounded).trans ?_
  rw [Satisfies, language_read hread]

/-- The nodes that a walk from `node` visits. -/
def Visited (js : JsLib) (root : Schema) (V : Value → Schema → Prop) : Node → Node → Prop :=
  Relation.ReflTransGen (Step js root V)

/-- Nothing that the node says goes unread to effect. -/
def FaithfulAt (js : JsLib) (root : Schema) (V : Value → Schema → Prop) (node : Node) : Prop :=
  ∀ object, readSchema node.2 = some (.object object) → Faithful js root V node.1 object

theorem judged_iff (hempty : ∀ s, js.test "" s = true) {node : Node}
    (hgrounded : Grounded root node) (hsupported : Supported root node.2)
    (hsteps : ∀ next, Step js root (IsValid js root) node next →
      Judged js root (IsValid js root) next) :
    Judged js root (IsValid js root) node ↔
      FaithfulAt js root (IsValid js root) node := by
  obtain ⟨v, s⟩ := node
  obtain ⟨form, hread⟩ := hsupported.typed
  dsimp only at hsupported hread
  cases form with
  | bool b =>
    have hanswers : ∃ enough, ∀ fuel ≥ enough, ∀ path,
        Answers (check js root fuel v s path) (b = true) :=
      exists_answers_succ (Q := fun _ => True) ⟨0, fun _ _ => trivial⟩
        fun fuel _ path => check_bool hread
    have hsame : b = true ↔ IsValid js root v s := by
      rw [eq_bool_of_readSchema hread, valid_bool]
    refine iff_of_true ((judged_iff_of_answers hanswers).mpr hsame) fun object hobject => ?_
    cases hread.symm.trans hobject
  | object object =>
    have hfaithful : FaithfulAt js root (IsValid js root) (v, s) ↔
        Faithful js root (IsValid js root) v object := by
      refine ⟨fun h => h object hread, fun h object' hread' => ?_⟩
      obtain rfl := JsonSchema.object.inj (Option.some.inj (hread.symm.trans hread'))
      exact h
    rw [hfaithful]
    cases href : object.ref with
    | some reference =>
      obtain ⟨target, htarget⟩ := hsupported.ref object hread reference href
      rw [← faithful_ref href htarget, ← valid_object hgrounded hread]
      exact judged_iff_of_answers (exists_answers_succ (hsteps _ (.ref hread href htarget))
        fun fuel hfuel path => check_ref hread href htarget (hfuel path))
    | none =>
      rw [← faithful_checks valid_bool href, ← valid_object hgrounded hread]
      exact judged_iff_of_answers (exists_answers_succ (exists_enough hsteps)
        fun fuel hfuel path => checks_answer hempty valid_bool hsupported hread href hfuel path)

theorem grounded_of_visited {start node : Node} (hgrounded : Grounded root start)
    (h : Visited js root (IsValid js root) start node) : Grounded root node := by
  induction h with
  | refl => exact hgrounded
  | tail _ hstep ih => exact ih.inv (step_child hstep)

theorem faithful_of_judged (hempty : ∀ s, js.test "" s = true) {start : Node}
    (hgrounded : Grounded root start)
    (hsupported : ∀ node, Visited js root (IsValid js root) start node → Supported root node.2)
    (hjudged : ∀ node, Visited js root (IsValid js root) start node →
      Judged js root (IsValid js root) node)
    (node : Node) (hnode : Visited js root (IsValid js root) start node) :
    FaithfulAt js root (IsValid js root) node :=
  (judged_iff hempty (grounded_of_visited hgrounded hnode) (hsupported node hnode)
    fun next hnext => hjudged next (hnode.tail hnext)).mp (hjudged node hnode)

theorem judged_of_faithful (hempty : ∀ s, js.test "" s = true) {start : Node}
    (hgrounded : Grounded root start)
    (hsupported : ∀ node, Visited js root (IsValid js root) start node → Supported root node.2)
    (hfaithful : ∀ node, Visited js root (IsValid js root) start node →
      FaithfulAt js root (IsValid js root) node) :
    Judged js root (IsValid js root) start := by
  induction hgrounded with
  | intro start hbelow ih =>
    refine (judged_iff hempty ⟨_, hbelow⟩ (hsupported start .refl) fun next hnext => ?_).mpr
      (hfaithful start .refl)
    exact ih next (step_child hnext) (fun node hnode => hsupported node (.head hnext hnode))
      fun node hnode => hfaithful node (.head hnext hnode)

/-- `validateJson` returns the value or throws the error that says why not. -/
theorem validateJson_of_judged {value : Value} {endpoint : String}
    (h : Judged js root (IsValid js root) (value, root)) :
    ∃ enough, ∀ fuel ≥ enough,
      (validateJson js fuel value root endpoint = .ok value ↔
        IsValid js root value root) ∧
      (validateJson js fuel value root endpoint = .ok value ∨
        ∃ error, validateJson js fuel value root endpoint = .error (.validation error)) := by
  obtain ⟨enough, hanswers⟩ := h
  refine ⟨enough, fun fuel hfuel => ?_⟩
  obtain ⟨failed, hverdict, hfailed⟩ := hanswers fuel hfuel "$"
  dsimp only at hverdict hfailed
  rw [validateJson, hverdict]
  cases failed with
  | none => exact ⟨iff_of_true rfl (hfailed.mp rfl), Or.inl rfl⟩
  | some f =>
    have hinvalid : ¬IsValid js root value root :=
      fun hvalid => Option.some_ne_none f (hfailed.mpr hvalid)
    exact ⟨iff_of_false (fun h => by cases h) hinvalid, Or.inr ⟨_, rfl⟩⟩

/-- The verdicts are right on all nodes of a walk exactly if each of them is
faithful to its keywords; then the value is accepted exactly if it is valid. -/
theorem verdicts_right_iff (js : JsLib) (root : Schema) (value : Value)
    (hempty : ∀ s, js.test "" s = true) (hgrounded : Grounded root (value, root))
    (hsupported : ∀ node, Visited js root (IsValid js root) (value, root) node →
      Supported root node.2) :
    ((∀ node, Visited js root (IsValid js root) (value, root) node →
        Judged js root (IsValid js root) node) ↔
      ∀ node, Visited js root (IsValid js root) (value, root) node →
        FaithfulAt js root (IsValid js root) node) ∧
    ((∀ node, Visited js root (IsValid js root) (value, root) node →
        FaithfulAt js root (IsValid js root) node) →
      ∀ endpoint, ∃ enough, ∀ fuel ≥ enough,
        (validateJson js fuel value root endpoint = .ok value ↔ IsValid js root value root) ∧
        (validateJson js fuel value root endpoint = .ok value ∨
          ∃ error, validateJson js fuel value root endpoint = .error (.validation error))) := by
  have hjudged : (∀ node, Visited js root (IsValid js root) (value, root) node →
      FaithfulAt js root (IsValid js root) node) →
      ∀ node, Visited js root (IsValid js root) (value, root) node →
        Judged js root (IsValid js root) node := by
    intro hfaithful node hnode
    exact judged_of_faithful hempty (grounded_of_visited hgrounded hnode)
      (fun next hnext => hsupported next (hnode.trans hnext))
      fun next hnext => hfaithful next (hnode.trans hnext)
  refine ⟨⟨faithful_of_judged hempty hgrounded hsupported, hjudged⟩, fun hfaithful endpoint => ?_⟩
  exact validateJson_of_judged (hjudged hfaithful (value, root) .refl)

end Walks

/-! ## Documents without references -/

mutual

/-- No object of the document has a `$ref`. -/
def refFree : Schema → Bool
  | .arr elements => refFreeElements elements
  | .obj members => refFreeMembers members
  | _ => true

def refFreeElements : List Schema → Bool
  | [] => true
  | x :: xs => refFree x && refFreeElements xs

def refFreeMembers : List (String × Schema) → Bool
  | [] => true
  | (key, x) :: ms => key != "$ref" && refFree x && refFreeMembers ms

end

theorem refFree_element {x : Schema} : ∀ {xs : List Schema}, refFreeElements xs = true → x ∈ xs →
    refFree x = true
  | y :: ys, h, hx => by
      rw [refFreeElements, Bool.and_eq_true] at h
      rcases List.mem_cons.mp hx with rfl | hx
      · exact h.1
      · exact refFree_element h.2 hx

theorem refFree_member {m : String × Schema} : ∀ {ms : List (String × Schema)},
    refFreeMembers ms = true → m ∈ ms → m.1 ≠ "$ref" ∧ refFree m.2 = true
  | (key, x) :: ms, h, hm => by
      rw [refFreeMembers, Bool.and_eq_true, Bool.and_eq_true, bne_iff_ne] at h
      rcases List.mem_cons.mp hm with rfl | hm
      · exact h.1
      · exact refFree_member h.2 hm

theorem refFree_property {key : String} {s t : Schema} (h : refFree s = true)
    (ht : property key s = some t) : refFree t = true := by
  unfold property at ht
  split at ht
  case h_1 members =>
    rw [refFree] at h
    exact (refFree_member h (mem_of_lookup ht)).2
  case h_2 elements =>
    rw [refFree] at h
    split_ifs at ht
    · obtain rfl := Option.some.inj ht
      rfl
    · obtain ⟨pair, hpair, rfl⟩ := Option.map_eq_some_iff.mp ht
      have hmem := List.mem_map_of_mem (f := Prod.fst) (List.mem_of_find?_eq_some hpair)
      rw [List.zipIdx_map_fst] at hmem
      exact refFree_element h hmem
  case h_3 => cases ht

theorem eq_of_asSchema {s t : Schema} (h : asSchema s = some t) : t = s := by
  unfold asSchema at h
  split at h
  · exact (Option.some.inj h).symm
  · exact (Option.some.inj h).symm
  · cases h

theorem refFree_resolve {root t : Schema} {reference : String} (h : refFree root = true)
    (ht : resolveLocalReference root reference = .ok t) : refFree t = true := by
  have hwalk : ∀ (segments : List (List Char)) (s t : Schema), refFree s = true →
      segments.foldlM (fun value segment => property (segmentKey segment) value) s = some t →
        refFree t = true := by
    intro segments
    induction segments with
    | nil =>
      intro s t hs ht
      obtain rfl := Option.some.inj ht
      exact hs
    | cons segment segments ih =>
      intro s t hs ht
      rw [List.foldlM_cons, Option.bind_eq_bind, Option.bind_eq_some_iff] at ht
      obtain ⟨u, hu, ht⟩ := ht
      exact ih u t (refFree_property hs hu) ht
  unfold resolveLocalReference at ht
  split_ifs at ht
  · obtain rfl := Except.ok.inj ht
    exact h
  · split at ht
    case h_1 => cases ht
    case h_2 pointer hpointer =>
      dsimp only at ht
      split at ht
      case h_1 => cases ht
      case h_2 value hvalue =>
        split at ht
        case h_1 => cases ht
        case h_2 schema hschema =>
          obtain rfl := Except.ok.inj ht
          rw [eq_of_asSchema hschema]
          exact hwalk _ root value h hvalue

theorem readObject_eq_some {members : List (String × Schema)} {object : JsonSchemaObject}
    (h : readObject members = some object) :
    optional members "$ref" Json.asStr = some object.ref ∧
      optional members "allOf" asSchemas = some object.allOf ∧
      optional members "anyOf" asSchemas = some object.anyOf ∧
      optional members "oneOf" asSchemas = some object.oneOf := by
  obtain ⟨ref, href, h⟩ := Option.bind_eq_some_iff.mp h
  obtain ⟨enum, -, h⟩ := Option.bind_eq_some_iff.mp h
  obtain ⟨format, -, h⟩ := Option.bind_eq_some_iff.mp h
  obtain ⟨allOf, hallOf, h⟩ := Option.bind_eq_some_iff.mp h
  obtain ⟨anyOf, hany, h⟩ := Option.bind_eq_some_iff.mp h
  obtain ⟨oneOf, hone, h⟩ := Option.bind_eq_some_iff.mp h
  obtain ⟨type, -, h⟩ := Option.bind_eq_some_iff.mp h
  obtain ⟨pattern, -, h⟩ := Option.bind_eq_some_iff.mp h
  obtain ⟨minimum, -, h⟩ := Option.bind_eq_some_iff.mp h
  obtain ⟨maximum, -, h⟩ := Option.bind_eq_some_iff.mp h
  obtain ⟨items, -, h⟩ := Option.bind_eq_some_iff.mp h
  obtain ⟨required, -, h⟩ := Option.bind_eq_some_iff.mp h
  obtain ⟨properties, -, h⟩ := Option.bind_eq_some_iff.mp h
  obtain ⟨additional, -, h⟩ := Option.bind_eq_some_iff.mp h
  obtain rfl := Option.some.inj h
  exact ⟨href, hallOf, hany, hone⟩

theorem eq_of_mapM_asSchema : ∀ {elements schemas : List Schema},
    elements.mapM asSchema = some schemas → schemas = elements
  | [], _, h => (Option.some.inj h).symm
  | x :: xs, schemas, h => by
      rw [List.mapM_cons, Option.bind_eq_bind, Option.bind_eq_some_iff] at h
      obtain ⟨y, hy, h⟩ := h
      obtain ⟨ys, hys, h⟩ := Option.bind_eq_some_iff.mp h
      obtain rfl := Option.some.inj h
      rw [eq_of_asSchema hy, eq_of_mapM_asSchema hys]

theorem eq_of_asSchemas {json : Schema} {schemas : List Schema}
    (h : asSchemas json = some schemas) : json = .arr schemas := by
  cases json with
  | arr elements =>
    have hall : elements.mapM asSchema = some schemas := h
    rw [eq_of_mapM_asSchema hall]
  | _ => cases h

/-- A branch stands in a list under one of the keywords. -/
theorem branch_mem {members : List (String × Schema)} {object : JsonSchemaObject} {b : Schema}
    (h : readObject members = some object) (hb : b ∈ object.branches) :
    ∃ key elements, (key, .arr elements) ∈ members ∧ b ∈ elements := by
  have hkey : ∀ {key : String} {branches : Option (List Schema)},
      optional members key asSchemas = some branches → b ∈ branches.getD [] →
        ∃ key elements, (key, .arr elements) ∈ members ∧ b ∈ elements := by
    intro key branches hbranches hmem
    unfold optional at hbranches
    split at hbranches
    case h_1 =>
      obtain rfl := Option.some.inj hbranches
      exact absurd hmem List.not_mem_nil
    case h_2 json hjson =>
      obtain ⟨list, hlist, rfl⟩ := Option.map_eq_some_iff.mp hbranches
      obtain rfl := eq_of_asSchemas hlist
      exact ⟨key, list, mem_of_lookup hjson, hmem⟩
  obtain ⟨-, hallOf, hany, hone⟩ := readObject_eq_some h
  rw [Keywords.branches, List.mem_append, List.mem_append] at hb
  rcases hb with hb | hb | hb
  · exact hkey hallOf hb
  · exact hkey hany hb
  · exact hkey hone hb

theorem ref_eq_none {members : List (String × Schema)} {object : JsonSchemaObject}
    (hfree : refFreeMembers members = true) (h : readObject members = some object) :
    object.ref = none := by
  have href := (readObject_eq_some h).1
  unfold optional at href
  split at href
  case h_1 => exact (Option.some.inj href).symm
  case h_2 json hjson => exact absurd rfl (refFree_member hfree (mem_of_lookup hjson)).1

theorem exists_object {root s : Schema} {k : Keywords JsNumber Schema}
    (h : (language root).read s = some (.node k)) :
    ∃ members object, s = .obj members ∧ readObject members = some object ∧
      object.toKeywords = k := by
  have hview : (readSchema s).map JsonSchema.view = some (.node k) := h
  obtain ⟨form, hread, hform⟩ := Option.map_eq_some_iff.mp hview
  cases s with
  | obj members =>
    obtain ⟨object, hobject, rfl⟩ := Option.map_eq_some_iff.mp hread
    exact ⟨members, object, rfl, hobject, View.node.inj hform⟩
  | bool b =>
    obtain rfl := Option.some.inj hread
    cases hform
  | _ => cases hread

theorem inPlace_wf {root : Schema} (h : refFree root = true) :
    WellFounded (InPlace (language root)) := by
  have hbelow : ∀ {members object b}, readObject members = some object → b ∈ object.branches →
      Relation.TransGen IsPart b (Json.obj members) := fun hobject hb => by
    obtain ⟨key, elements, hmem, hb⟩ := branch_mem hobject hb
    exact .tail (.single (.element hb)) (.member hmem)
  have hfree : ∀ s : Schema, refFree s = true → Acc (InPlace (language root)) s := by
    intro s
    induction s using part_wf.transGen.induction with
    | h s ih =>
      refine fun hs => ⟨s, fun t ht => ?_⟩
      cases ht with
      | ref hread href ht =>
        obtain ⟨members, object, rfl, hobject, rfl⟩ := exists_object hread
        rw [refFree] at hs
        rw [ref_eq_none hs hobject] at href
        cases href
      | branch hread ht =>
        obtain ⟨members, object, rfl, hobject, rfl⟩ := exists_object hread
        obtain ⟨key, elements, hmem, hb⟩ := branch_mem hobject ht
        rw [refFree] at hs
        have helements := (refFree_member hs hmem).2
        rw [refFree] at helements
        exact ih t (hbelow hobject ht) (refFree_element helements hb)
  refine ⟨fun s => ?_⟩
  induction s using part_wf.transGen.induction with
  | h s ih =>
    refine ⟨s, fun t ht => ?_⟩
    cases ht with
    | ref hread href ht => exact hfree t (refFree_resolve h (toOption_eq_some.mp ht))
    | branch hread ht =>
      obtain ⟨members, object, rfl, hobject, rfl⟩ := exists_object hread
      exact ih t (hbelow hobject ht)

theorem grounded_of_refFree {root : Schema} (h : refFree root = true) (node : Node) :
    Grounded root node :=
  (child_wf (inPlace_wf h)).apply node

/-! ## A schema that is met, and two that are misjudged -/

/-- Only the empty pattern matches. -/
def plainLib : JsLib where
  test pattern _ := pattern = ""
  isUri _ := false
  stringify _ := ""

def enabledConst : Schema := .obj [("const", .bool true)]

def enabledSchema : Schema :=
  .obj [("type", .str "object"), ("required", .arr [.str "enabled"]),
    ("properties", .obj [("enabled", enabledConst)])]

def enabledValue : Value := .obj [("enabled", .bool true)]

/-- The walk of this schema goes down to the constant and no further. -/
theorem enabled_nodes {V : Value → Schema → Prop} {node : Node}
    (h : Visited plainLib enabledSchema V (enabledValue, enabledSchema) node) :
    node = (enabledValue, enabledSchema) ∨ node.2 = enabledConst := by
  have hroot : subschemas enabledSchema enabledSchema = [enabledConst] := rfl
  have hconst : subschemas enabledSchema enabledConst = [] := rfl
  induction h with
  | refl => exact Or.inl rfl
  | tail hvisited hstep ih =>
    have hmem := (step_mem hstep).2
    rcases ih with rfl | hnode
    · dsimp only at hmem
      rw [hroot] at hmem
      exact Or.inr (List.mem_singleton.mp hmem)
    · rw [hnode, hconst] at hmem
      exact absurd hmem List.not_mem_nil

theorem enabledSchema_supported : Supported enabledSchema enabledSchema where
  typed := ⟨_, rfl⟩
  ref _ h := by cases h; exact fun _ h => by cases h
  format _ h := by cases h; exact fun _ h => by cases h
  type _ h := by
    cases h
    intro names hnames
    obtain rfl := Option.some.inj hnames
    exact ⟨by simp, by simp [typeNames]⟩

theorem enabledConst_supported : Supported enabledSchema enabledConst where
  typed := ⟨_, rfl⟩
  ref _ h := by cases h; exact fun _ h => by cases h
  format _ h := by cases h; exact fun _ h => by cases h
  type _ h := by cases h; exact fun _ h => by cases h

theorem enabledSchema_faithful {V : Value → Schema → Prop} :
    FaithfulAt plainLib enabledSchema V (enabledValue, enabledSchema) := by
  intro object hobject
  cases hobject
  refine ⟨fun r h => absurd h (Option.not_mem_none r), fun _ _ => ⟨?_, ?_⟩,
    fun _ _ _ => ⟨?_, ?_⟩⟩
  · exact fun const h => absurd h (Option.not_mem_none const)
  · exact fun items h => absurd h (Option.not_mem_none items)
  · exact fun branches h => absurd h (Option.not_mem_none branches)
  · exact fun h => absurd h.symm (Option.some_ne_none _)

theorem enabledConst_faithful {V : Value → Schema → Prop} (v : Value) :
    FaithfulAt plainLib enabledSchema V (v, enabledConst) := by
  intro object hobject
  cases hobject
  refine ⟨fun r h => absurd h (Option.not_mem_none r), fun _ hmeets => ⟨?_, ?_⟩,
    fun _ _ _ => ⟨?_, ?_⟩⟩
  · intro const hconst
    obtain rfl := Option.some.inj hconst
    have hequal : JsonEq JsNumber.toRat v (.bool true) := hmeets.const _ rfl
    cases hequal
    rfl
  · exact fun items h => absurd h (Option.not_mem_none items)
  · exact fun branches h => absurd h (Option.not_mem_none branches)
  · exact fun h => absurd h.symm (Option.some_ne_none _)

theorem enabled_judged_right :
    ∃ enough, ∀ fuel ≥ enough,
      (validateJson plainLib fuel enabledValue enabledSchema "definition" = .ok enabledValue ↔
        IsValid plainLib enabledSchema enabledValue enabledSchema) ∧
      (validateJson plainLib fuel enabledValue enabledSchema "definition" = .ok enabledValue ∨
        ∃ error, validateJson plainLib fuel enabledValue enabledSchema "definition" =
          .error (.validation error)) := by
  refine (verdicts_right_iff plainLib enabledSchema enabledValue (fun _ => rfl)
    (grounded_of_refFree rfl _) fun node hnode => ?_).2 (fun node hnode => ?_) "definition"
  · rcases enabled_nodes hnode with rfl | hconst
    · exact enabledSchema_supported
    · rw [hconst]
      exact enabledConst_supported
  · obtain ⟨v, s⟩ := node
    rcases enabled_nodes hnode with h | rfl
    · rw [h]
      exact enabledSchema_faithful
    · exact enabledConst_faithful v

def listConst : Schema := .obj [("const", .arr [.null])]

def bothSchema : Schema :=
  .obj [("anyOf", .arr [.bool true]), ("oneOf", .arr [.bool true, .bool true])]

/-- A list that equals the constant is refused, and a value that meets two
branches of a `oneOf` is let through where there is an `anyOf` as well. -/
theorem walk_misjudges :
    (Grounded listConst (.arr [.null], listConst) ∧
      IsValid plainLib listConst (.arr [.null]) listConst ∧
      ∀ fuel, validateJson plainLib fuel (.arr [.null]) listConst "response" ≠ .ok (.arr [.null])) ∧
    Grounded bothSchema (.null, bothSchema) ∧ ¬IsValid plainLib bothSchema .null bothSchema ∧
      ∀ fuel, validateJson plainLib (fuel + 2) .null bothSchema "response" = .ok .null := by
  have hlist : Grounded listConst (.arr [.null], listConst) := grounded_of_refFree rfl _
  have hboth : Grounded bothSchema (.null, bothSchema) := grounded_of_refFree rfl _
  refine ⟨⟨hlist, ?_, fun fuel => ?_⟩, hboth, fun hvalid => ?_, fun fuel => rfl⟩
  · have hread : readSchema listConst = some (.object _) := rfl
    refine (valid_object hlist hread).mpr ?_
    constructor
    case const =>
      intro const hconst
      obtain rfl := Option.some.inj hconst
      exact .arr rfl (by simp [JsonEq.null])
    all_goals exact fun x h => absurd h (Option.not_mem_none x)
  · cases fuel with
    | zero => exact fun h => by cases h
    | succ fuel => exact fun h => by cases h
  · have hread : readSchema bothSchema = some (.object _) := rfl
    have hone := ((valid_object hboth hread).mp hvalid).oneOf [.bool true, .bool true] rfl
    simp [exactlyOne_cons, valid_bool, not_exactlyOne_nil] at hone

end TiktokSigner.NodeClient.JsonValidation
