import Mathlib.Data.Rat.Defs
import Mathlib.Order.RelClasses
import TiktokSigner.Lib.Json

/-!
# What makes a value valid

The meaning of the keywords of JSON Schema, over any way to read a schema
and to resolve a reference. Every keyword of a node holds, each on its own:
a reference leaves the keywords beside it in force, and values are compared
as JSON values, objects whatever the order of their members.

Validity refers to itself, on parts of the value and, through references
and branches, on the value as a whole. Where no chain of these is infinite,
`Acc`, it is the solution of its own equation, `valid_iff`.
-/

namespace TiktokSigner.Validity

variable {Number σ : Type}

/-! ## Values -/

/-- What the numerals stand for, and what patterns and formats say of a text. -/
structure Vocabulary (Number : Type) where
  value : Number → ℚ
  pattern : String → String → Prop
  format : String → String → Prop

/-- Equality of JSON values. -/
inductive JsonEq (value : Number → ℚ) : Json Number → Json Number → Prop
  | null : JsonEq value .null .null
  | bool (b : Bool) : JsonEq value (.bool b) (.bool b)
  | num {m n : Number} (h : value m = value n) : JsonEq value (.num m) (.num n)
  | str (s : String) : JsonEq value (.str s) (.str s)
  | arr {xs ys : List (Json Number)} (hlength : xs.length = ys.length)
      (h : ∀ pair ∈ xs.zip ys, JsonEq value pair.1 pair.2) : JsonEq value (.arr xs) (.arr ys)
  | obj {ms ns : List (String × Json Number)}
      (hkeys : ∀ key, (∃ x, ms.lookup key = some x) ↔ ∃ y, ns.lookup key = some y)
      (h : ∀ key x y, ms.lookup key = some x → ns.lookup key = some y → JsonEq value x y) :
      JsonEq value (.obj ms) (.obj ns)

/-- The names of `type`; an integer is a number too. -/
def HasType (value : Number → ℚ) (v : Json Number) (name : String) : Prop :=
  match v with
  | .null => name = "null"
  | .bool _ => name = "boolean"
  | .num n => name = "number" ∨ name = "integer" ∧ ∃ z : ℤ, value n = z
  | .str _ => name = "string"
  | .arr _ => name = "array"
  | .obj _ => name = "object"

/-- One place of a list and no other. -/
def ExactlyOne {α : Type} (P : α → Prop) (l : List α) : Prop :=
  ∃ front a rest, l = front ++ a :: rest ∧ P a ∧ ∀ b ∈ front ++ rest, ¬P b

/-! ## Keywords -/

/-- The keywords of a node, each absent or there; `σ` is the type of the
schemas in it. One name under `type` is a list of one. -/
structure Keywords (Number σ : Type) where
  ref : Option String
  const : Option (Json Number)
  enum : Option (List (Json Number))
  format : Option String
  allOf : Option (List σ)
  anyOf : Option (List σ)
  oneOf : Option (List σ)
  type : Option (List String)
  pattern : Option String
  minimum : Option Number
  maximum : Option Number
  items : Option σ
  required : Option (List String)
  properties : Option (List (String × σ))
  additionalProperties : Option σ

namespace Keywords

/-- The schemas that a value has to do with as a whole. -/
def branches (k : Keywords Number σ) : List σ :=
  k.allOf.getD [] ++ (k.anyOf.getD [] ++ k.oneOf.getD [])

/-- The keys that have a schema of their own. -/
def known (k : Keywords Number σ) : List String := (k.properties.getD []).map (·.1)

/-- The schemas for elements and members. -/
def partSchemas (k : Keywords Number σ) : List σ :=
  k.items.toList ++ ((k.properties.getD []).map (·.2) ++ k.additionalProperties.toList)

/-- Without the keywords about elements and members. -/
def inPlace (k : Keywords Number σ) : Keywords Number σ :=
  { k with items := none, required := none, properties := none, additionalProperties := none }

end Keywords

/-- A value meets the keywords of a node, where `V` says what is valid. -/
structure Meets (L : Vocabulary Number) (resolve : String → Option σ) (V : Json Number → σ → Prop)
    (v : Json Number) (k : Keywords Number σ) : Prop where
  ref : ∀ r ∈ k.ref, ∃ t, resolve r = some t ∧ V v t
  const : ∀ c ∈ k.const, JsonEq L.value v c
  enum : ∀ items ∈ k.enum, ∃ item ∈ items, JsonEq L.value v item
  format : ∀ f ∈ k.format, ∀ s, v = .str s → L.format f s
  allOf : ∀ branches ∈ k.allOf, ∀ b ∈ branches, V v b
  anyOf : ∀ branches ∈ k.anyOf, ∃ b ∈ branches, V v b
  oneOf : ∀ branches ∈ k.oneOf, ExactlyOne (V v) branches
  type : ∀ names ∈ k.type, ∃ name ∈ names, HasType L.value v name
  pattern : ∀ p ∈ k.pattern, ∀ s, v = .str s → L.pattern p s
  minimum : ∀ m ∈ k.minimum, ∀ n, v = .num n → L.value m ≤ L.value n
  maximum : ∀ m ∈ k.maximum, ∀ n, v = .num n → L.value n ≤ L.value m
  items : ∀ s ∈ k.items, ∀ xs, v = .arr xs → ∀ x ∈ xs, V x s
  required : ∀ keys ∈ k.required, ∀ ms, v = .obj ms → ∀ key ∈ keys, ∃ x, ms.lookup key = some x
  properties : ∀ ps ∈ k.properties, ∀ ms, v = .obj ms →
    ∀ p ∈ ps, ∀ x, ms.lookup p.1 = some x → V x p.2
  additionalProperties : ∀ s ∈ k.additionalProperties, ∀ ms, v = .obj ms →
    ∀ m ∈ ms, m.1 ∉ k.known → V m.2 s

/-! ## Schemas -/

inductive View (Number σ : Type) where
  | bool (b : Bool)
  | node (k : Keywords Number σ)

/-- How schemas are read; what reads as nothing is no schema. -/
structure SchemaLanguage (Number σ : Type) where
  read : σ → Option (View Number σ)
  resolve : String → Option σ

/-- A value is valid, where `V` says what is valid below. -/
def Satisfies (L : Vocabulary Number) (lang : SchemaLanguage Number σ)
    (V : Json Number → σ → Prop) (v : Json Number) (s : σ) : Prop :=
  match lang.read s with
  | none => False
  | some (.bool b) => b = true
  | some (.node k) => Meets L lang.resolve V v k

/-- The schema `t` applies to a value because `s` does. -/
inductive InPlace (lang : SchemaLanguage Number σ) : σ → σ → Prop
  | ref {s t : σ} {k : Keywords Number σ} {r : String} (hread : lang.read s = some (.node k))
      (href : r ∈ k.ref) (ht : lang.resolve r = some t) : InPlace lang t s
  | branch {s t : σ} {k : Keywords Number σ} (hread : lang.read s = some (.node k))
      (ht : t ∈ k.branches) : InPlace lang t s

/-- The elements of an array and the values of an object. -/
inductive IsPart : Json Number → Json Number → Prop
  | element {x : Json Number} {xs : List (Json Number)} (h : x ∈ xs) : IsPart x (.arr xs)
  | member {m : String × Json Number} {ms : List (String × Json Number)} (h : m ∈ ms) :
      IsPart m.2 (.obj ms)

theorem part_wf : WellFounded (@IsPart Number) := by
  refine Subrelation.wf (fun {x v} h => ?_) (measure (@sizeOf (Json Number) _)).wf
  change sizeOf x < sizeOf v
  cases h with
  | @element x xs hx =>
    have hlt := List.sizeOf_lt_of_mem hx
    rw [Json.arr.sizeOf_spec]
    omega
  | @member m ms hm =>
    have hlt := List.sizeOf_lt_of_mem hm
    have hpair : sizeOf m = 1 + sizeOf m.1 + sizeOf m.2 := rfl
    rw [Json.obj.sizeOf_spec]
    omega

/-- What a node refers to: its schemas for the value and for its parts. -/
inductive Child (lang : SchemaLanguage Number σ) : Json Number × σ → Json Number × σ → Prop
  | inPlace {v : Json Number} {s t : σ} (h : InPlace lang t s) : Child lang (v, t) (v, s)
  | part {v w : Json Number} {s t : σ} {k : Keywords Number σ}
      (hread : lang.read s = some (.node k)) (hpart : IsPart w v) (ht : t ∈ k.partSchemas) :
      Child lang (w, t) (v, s)

/-- Values are finite, so that the schemas decide. -/
theorem child_wf {lang : SchemaLanguage Number σ} (hwf : WellFounded (InPlace lang)) :
    WellFounded (Child lang) := by
  refine Subrelation.wf (fun {_ _} h => ?_) (part_wf.prod_lex hwf)
  cases h with
  | inPlace h => exact Prod.Lex.right _ h
  | part hread hpart ht => exact Prod.Lex.left _ _ hpart

theorem mem_of_lookup {key : String} {x : Json Number} :
    ∀ {ms : List (String × Json Number)}, ms.lookup key = some x → (key, x) ∈ ms
  | (k, y) :: ms, h => by
      rw [List.lookup_cons] at h
      split at h
      case h_1 hkey =>
        obtain rfl := eq_of_beq hkey
        obtain rfl := Option.some.inj h
        exact List.mem_cons_self
      case h_2 => exact List.mem_cons_of_mem _ (mem_of_lookup h)

/-! ## Validity -/

theorem ExactlyOne.congr {α : Type} {P Q : α → Prop} {l : List α} (h : ExactlyOne P l)
    (hiff : ∀ a ∈ l, P a ↔ Q a) : ExactlyOne Q l := by
  obtain ⟨front, a, rest, rfl, ha, hothers⟩ := h
  refine ⟨front, a, rest, rfl, (hiff a (by simp)).mp ha, fun b hb hQ => ?_⟩
  have hmem : b ∈ front ++ a :: rest := by
    rcases List.mem_append.mp hb with hb | hb
    · exact List.mem_append_left _ hb
    · exact List.mem_append_right _ (List.mem_cons_of_mem _ hb)
  exact hothers b hb ((hiff b hmem).mpr hQ)

variable {L : Vocabulary Number} {lang : SchemaLanguage Number σ} {V W : Json Number → σ → Prop}

theorem Meets.inPlace {v : Json Number} {k : Keywords Number σ}
    (h : Meets L lang.resolve V v k) : Meets L lang.resolve V v k.inPlace :=
  { h with
    items := fun s hs => absurd hs (Option.not_mem_none s)
    required := fun keys hkeys => absurd hkeys (Option.not_mem_none keys)
    properties := fun ps hps => absurd hps (Option.not_mem_none ps)
    additionalProperties := fun s hs => absurd hs (Option.not_mem_none s) }

/-- Only what is valid of the parts of a value, and of the value where the
node refers to other schemas for it, matters. -/
theorem Meets.congr {v : Json Number} {k : Keywords Number σ}
    (h : Meets L lang.resolve V v k)
    (href : ∀ r ∈ k.ref, ∀ t, lang.resolve r = some t → (V v t ↔ W v t))
    (hbranch : ∀ t ∈ k.branches, V v t ↔ W v t)
    (hpart : ∀ x, IsPart x v → ∀ t ∈ k.partSchemas, V x t ↔ W x t) :
    Meets L lang.resolve W v k where
  ref r hr := by
    obtain ⟨t, ht, hV⟩ := h.ref r hr
    exact ⟨t, ht, (href r hr t ht).mp hV⟩
  const := h.const
  enum := h.enum
  format := h.format
  allOf branches hbranches b hb := by
    have hmem : b ∈ k.branches := by
      rw [Keywords.branches, Option.mem_def.mp hbranches]
      exact List.mem_append_left _ hb
    exact (hbranch b hmem).mp (h.allOf branches hbranches b hb)
  anyOf branches hbranches := by
    obtain ⟨b, hb, hV⟩ := h.anyOf branches hbranches
    have hmem : b ∈ k.branches := by
      rw [Keywords.branches, Option.mem_def.mp hbranches]
      exact List.mem_append_right _ (List.mem_append_left _ hb)
    exact ⟨b, hb, (hbranch b hmem).mp hV⟩
  oneOf branches hbranches := by
    refine (h.oneOf branches hbranches).congr fun b hb => hbranch b ?_
    rw [Keywords.branches, Option.mem_def.mp hbranches]
    exact List.mem_append_right _ (List.mem_append_right _ hb)
  type := h.type
  pattern := h.pattern
  minimum := h.minimum
  maximum := h.maximum
  items s hs xs hv x hx := by
    subst hv
    have hmem : s ∈ k.partSchemas := by
      rw [Keywords.partSchemas, Option.mem_def.mp hs]
      exact List.mem_append_left _ List.mem_cons_self
    exact (hpart x (.element hx) s hmem).mp (h.items s hs xs rfl x hx)
  required := h.required
  properties ps hps ms hv p hp x hx := by
    subst hv
    have hmem : p.2 ∈ k.partSchemas := by
      rw [Keywords.partSchemas, Option.mem_def.mp hps]
      exact List.mem_append_right _ (List.mem_append_left _ (List.mem_map_of_mem hp))
    exact (hpart x (.member (mem_of_lookup hx)) p.2 hmem).mp (h.properties ps hps ms rfl p hp x hx)
  additionalProperties s hs ms hv m hm hkey := by
    subst hv
    have hmem : s ∈ k.partSchemas := by
      rw [Keywords.partSchemas, Option.mem_def.mp hs]
      exact List.mem_append_right _ (List.mem_append_right _ List.mem_cons_self)
    exact (hpart m.2 (.member hm) s hmem).mp (h.additionalProperties s hs ms rfl m hm hkey)

theorem satisfies_congr {v : Json Number} {s : σ}
    (h : ∀ w t, Child lang (w, t) (v, s) → (V w t ↔ W w t)) :
    Satisfies L lang V v s ↔ Satisfies L lang W v s := by
  unfold Satisfies
  cases hread : lang.read s with
  | none => exact Iff.rfl
  | some view =>
    cases view with
    | bool b => exact Iff.rfl
    | node k =>
      have href : ∀ r ∈ k.ref, ∀ t, lang.resolve r = some t → (V v t ↔ W v t) :=
        fun r hr t ht => h v t (.inPlace (.ref hread hr ht))
      have hbranch : ∀ t ∈ k.branches, V v t ↔ W v t :=
        fun t ht => h v t (.inPlace (.branch hread ht))
      have hpart : ∀ x, IsPart x v → ∀ t ∈ k.partSchemas, V x t ↔ W x t :=
        fun x hx t ht => h x t (.part hread hx ht)
      constructor
      · exact fun hmeets => hmeets.congr href hbranch hpart
      · exact fun hmeets => hmeets.congr (fun r hr t ht => (href r hr t ht).symm)
          (fun t ht => (hbranch t ht).symm) (fun x hx t ht => (hpart x hx t ht).symm)

/-- The value is valid under the schema, by recursion on what it refers to. -/
def Valid (L : Vocabulary Number) (lang : SchemaLanguage Number σ) (v : Json Number) (s : σ) :
    Prop :=
  ∃ hacc : Acc (Child lang) (v, s), WellFounded.fixF (C := fun _ => Prop)
    (fun node below => Satisfies L lang
      (fun w t => ∃ h : Child lang (w, t) node, below (w, t) h) node.1 node.2) (v, s) hacc

/-- The equation of validity. -/
theorem valid_iff {v : Json Number} {s : σ} (hacc : Acc (Child lang) (v, s)) :
    Valid L lang v s ↔ Satisfies L lang (Valid L lang) v s := by
  rw [Valid, exists_prop_of_true hacc, WellFounded.fixF_eq]
  refine satisfies_congr fun w t hchild => ?_
  rw [exists_prop_of_true hchild, Valid, exists_prop_of_true (hacc.inv hchild)]

end TiktokSigner.Validity
