import TiktokSigner.Android.KotlinText
import Mathlib.Data.Rat.Defs

/-!
# `PointsConfig`

The rates of the points and how they are stored: `k=v;k=v`, with nothing
escaped. Numbers are written the way the platform writes a `Double`, so a
number is never where a part ends; the name of the currency is the one text
that a user chooses, and comes back exactly when no `;` stands in it.
-/

namespace TiktokSigner.Android

open Parity (utf16)
open Text

/-- What the app takes of `Double`: its literals, `<`, the text of a value and
`toDoubleOrNull`. -/
structure Doubles (π : Type*) where
  literal : ℚ → π
  lt : π → π → Bool
  toText : π → List UInt16
  toDoubleOrNull : List UInt16 → Option π

namespace Doubles

variable {π : Type*} (D : Doubles π)

/-- The text of a value is read as the value, and is made of digits, a sign, a
point and an exponent. -/
structure ReadsBack : Prop where
  toDoubleOrNull_toText : ∀ d, D.toDoubleOrNull (D.toText d) = some d
  comma_notMem : ∀ d, unit ',' ∉ D.toText d
  semicolon_notMem : ∀ d, unit ';' ∉ D.toText d

def coerceAtLeast (d min : π) : π := if D.lt d min then min else d

def coerceIn (d min max : π) : π := if D.lt d min then min else if D.lt max d then max else d

end Doubles

@[ext] structure PointsConfig (π : Type*) where
  currencyName : List UInt16
  pointsPerChat : π
  pointsPerChatEnabled : Bool
  pointsPerCoin : π
  pointsPerCoinEnabled : Bool
  pointsPerLike : π
  pointsPerLikeEnabled : Bool
  pointsPerFollow : π
  pointsPerFollowEnabled : Bool
  pointsPerShare : π
  pointsPerShareEnabled : Bool
  pointsPerJoin : π
  pointsPerJoinEnabled : Bool
  pointsPerLevel : π
deriving DecidableEq

def maxRate : ℚ := 1000000000

def minLevel : ℚ := 10

namespace PointsConfig

variable {π : Type*} (D : Doubles π)

/-- The defaults of the constructor. -/
def default : PointsConfig π where
  currencyName := utf16 "coins"
  pointsPerChat := D.literal 1
  pointsPerChatEnabled := true
  pointsPerCoin := D.literal 1
  pointsPerCoinEnabled := true
  pointsPerLike := D.literal (1 / 10)
  pointsPerLikeEnabled := false
  pointsPerFollow := D.literal 10
  pointsPerFollowEnabled := true
  pointsPerShare := D.literal 5
  pointsPerShareEnabled := true
  pointsPerJoin := D.literal 1
  pointsPerJoinEnabled := false
  pointsPerLevel := D.literal 100

def normalize (c : PointsConfig π) : PointsConfig π :=
  let rate (d : π) := D.coerceIn d (D.literal 0) (D.literal maxRate)
  let name := trim isWhitespaceUnit c.currencyName
  { c with
    currencyName := if name = [] then utf16 "coins" else name
    pointsPerChat := rate c.pointsPerChat
    pointsPerCoin := rate c.pointsPerCoin
    pointsPerLike := rate c.pointsPerLike
    pointsPerFollow := rate c.pointsPerFollow
    pointsPerShare := rate c.pointsPerShare
    pointsPerJoin := rate c.pointsPerJoin
    pointsPerLevel := D.coerceAtLeast c.pointsPerLevel (D.literal minLevel) }

/-! ## The stored text -/

/-- A rate and its flag. -/
def pair (rate : π) (enabled : Bool) : List UInt16 :=
  D.toText rate ++ unit ',' :: utf16 (toString enabled)

/-- The fields, each under its key. -/
def fields (c : PointsConfig π) : List (List UInt16 × List UInt16) :=
  [(utf16 "currency", c.currencyName),
    (utf16 "chat", pair D c.pointsPerChat c.pointsPerChatEnabled),
    (utf16 "coin", pair D c.pointsPerCoin c.pointsPerCoinEnabled),
    (utf16 "like", pair D c.pointsPerLike c.pointsPerLikeEnabled),
    (utf16 "follow", pair D c.pointsPerFollow c.pointsPerFollowEnabled),
    (utf16 "share", pair D c.pointsPerShare c.pointsPerShareEnabled),
    (utf16 "join", pair D c.pointsPerJoin c.pointsPerJoinEnabled),
    (utf16 "level", D.toText c.pointsPerLevel)]

def encode (c : PointsConfig π) : List UInt16 :=
  [unit ';'].intercalate ((fields D c).map fun field => field.1 ++ unit '=' :: field.2)

/-- A part of the text; `=` has to stand behind a key. -/
def entry (part : List UInt16) : Option (List UInt16 × List UInt16) :=
  match splitOnce (unit '=') part with
  | some (key, value) => if key = [] then none else some (key, value)
  | none => none

def entries (raw : List UInt16) : List (List UInt16 × List UInt16) :=
  (raw.splitOn (unit ';')).filterMap entry

/-- `toMap` and a look at the key: of two pairs with it the later counts. -/
def get (map : List (List UInt16 × List UInt16)) (key : String) : Option (List UInt16) :=
  map.reverse.lookup (utf16 key)

section

variable (map : List (List UInt16 × List UInt16)) (key : String)

def rate (fallback : ℚ) : π :=
  ((get map key).bind fun value => D.toDoubleOrNull (substringBefore (unit ',') value)).getD
    (D.literal fallback)

def flag (fallback : Bool) : Bool :=
  ((get map key).bind fun value =>
    toBooleanStrictOrNull (substringAfter (unit ',') [] value)).getD fallback

end

def decode (raw : List UInt16) : PointsConfig π :=
  let map := entries raw
  { currencyName := (get map "currency").getD (utf16 "coins")
    pointsPerChat := rate D map "chat" 1
    pointsPerChatEnabled := flag map "chat" true
    pointsPerCoin := rate D map "coin" 1
    pointsPerCoinEnabled := flag map "coin" true
    pointsPerLike := rate D map "like" (1 / 10)
    pointsPerLikeEnabled := flag map "like" false
    pointsPerFollow := rate D map "follow" 10
    pointsPerFollowEnabled := flag map "follow" true
    pointsPerShare := rate D map "share" 5
    pointsPerShareEnabled := flag map "share" true
    pointsPerJoin := rate D map "join" 1
    pointsPerJoinEnabled := flag map "join" false
    pointsPerLevel := ((get map "level").bind D.toDoubleOrNull).getD (D.literal 100) }

/-! ## What comes back -/

theorem entry_append {key : List UInt16} (hne : key ≠ []) (hkey : unit '=' ∉ key)
    (value : List UInt16) : entry (key ++ unit '=' :: value) = some (key, value) := by
  rw [entry, splitOnce_eq_some.mpr ⟨rfl, hkey⟩]
  exact if_neg hne

theorem eq_of_entry {part key value : List UInt16} (h : entry part = some (key, value)) :
    part = key ++ unit '=' :: value := by
  cases hsplit : splitOnce (unit '=') part with
  | none => simp [entry, hsplit] at h
  | some cutPart =>
    obtain ⟨before, after⟩ := cutPart
    simp only [entry, hsplit, Option.ite_none_left_eq_some, Option.some.injEq, Prod.mk.injEq] at h
    obtain ⟨-, rfl, rfl⟩ := h
    exact (splitOnce_eq_some.mp hsplit).1

/-- The keys are plain, so their `=` is the first one. -/
theorem key_plain {c : PointsConfig π} {field : List UInt16 × List UInt16}
    (h : field ∈ fields D c) :
    field.1 ≠ [] ∧ unit '=' ∉ field.1 ∧ unit ';' ∉ field.1 := by
  have hkey : field.1 ∈ (fields D c).map Prod.fst := List.mem_map_of_mem h
  have hall : ∀ key ∈ ["currency", "chat", "coin", "like", "follow", "share", "join", "level"].map
      utf16, key ≠ [] ∧ unit '=' ∉ key ∧ unit ';' ∉ key := by decide
  exact hall field.1 hkey

variable {D} (hD : D.ReadsBack)

include hD in
theorem semicolon_notMem_pair (d : π) (enabled : Bool) : unit ';' ∉ pair D d enabled := by
  rw [pair, List.mem_append, List.mem_cons, not_or, not_or]
  exact ⟨hD.semicolon_notMem d, by decide, by cases enabled <;> decide⟩

include hD in
theorem semicolon_notMem_fields {c : PointsConfig π} (hname : unit ';' ∉ c.currencyName)
    {field : List UInt16 × List UInt16} (h : field ∈ fields D c) : unit ';' ∉ field.2 := by
  have hpair := semicolon_notMem_pair hD
  simp only [fields, List.mem_cons, List.not_mem_nil, or_false] at h
  rcases h with rfl | rfl | rfl | rfl | rfl | rfl | rfl | rfl
  · exact hname
  all_goals first
    | exact hpair _ _
    | exact hD.semicolon_notMem _

include hD in
theorem entries_encode {c : PointsConfig π} (hname : unit ';' ∉ c.currencyName) :
    entries (encode D c) = fields D c := by
  have hparts : ∀ part ∈ (fields D c).map fun field => field.1 ++ unit '=' :: field.2,
      unit ';' ∉ part := by
    intro part hpart
    obtain ⟨field, hfield, rfl⟩ := List.mem_map.mp hpart
    rw [List.mem_append, List.mem_cons, not_or, not_or]
    exact ⟨(key_plain D hfield).2.2, by decide, semicolon_notMem_fields hD hname hfield⟩
  rw [entries, encode, List.splitOn_intercalate _ hparts (by simp [fields]), List.filterMap_map]
  refine (List.filterMap_congr fun field hfield => ?_).trans List.filterMap_some
  obtain ⟨hne, hequals, -⟩ := key_plain D hfield
  exact entry_append hne hequals field.2

include hD in
theorem rate_pair {map : List (List UInt16 × List UInt16)} {key : String} {d : π} {enabled : Bool}
    (h : get map key = some (pair D d enabled)) (fallback : ℚ) : rate D map key fallback = d := by
  rw [rate, h, Option.bind_some, pair, substringBefore, cut_append (hD.comma_notMem d),
    hD.toDoubleOrNull_toText, Option.getD_some]

include hD in
theorem flag_pair {map : List (List UInt16 × List UInt16)} {key : String} {d : π} {enabled : Bool}
    (h : get map key = some (pair D d enabled)) (fallback : Bool) :
    flag map key fallback = enabled := by
  rw [flag, h, Option.bind_some, pair, substringAfter, cut_append (hD.comma_notMem d),
    Option.getD_some, toBooleanStrictOrNull_toString, Option.getD_some]

/-- No part of a text that was cut at every `;` has one. -/
theorem semicolon_notMem_decode (raw : List UInt16) :
    unit ';' ∉ (decode D raw).currencyName := by
  change unit ';' ∉ (get (entries raw) "currency").getD (utf16 "coins")
  cases hget : get (entries raw) "currency" with
  | none => decide
  | some value =>
    obtain ⟨front, back, hmap, -⟩ := List.lookup_eq_some_iff.mp hget
    have hmem : (utf16 "currency", value) ∈ entries raw := by
      rw [← List.mem_reverse, hmap]
      simp
    obtain ⟨part, hpart, hentry⟩ := List.mem_filterMap.mp hmem
    have hnot := notMem_of_mem_splitOn hpart
    rw [eq_of_entry hentry] at hnot
    exact fun hmem => hnot (List.mem_append_right _ (List.mem_cons_of_mem _ hmem))

/-- Nothing stored gives the defaults. -/
theorem decode_of_entries_eq_nil {raw : List UInt16} (h : entries raw = []) :
    decode D raw = default D := by
  rw [decode, h]
  rfl

include hD in
/-- What is stored comes back as it was exactly when the name has no `;`. -/
theorem decode_encode_iff (c : PointsConfig π) :
    decode D (encode D c) = c ↔ unit ';' ∉ c.currencyName := by
  constructor
  · intro h
    rw [← h]
    exact semicolon_notMem_decode _
  · intro hname
    rw [decode, entries_encode hD hname]
    refine PointsConfig.ext_iff.mpr ⟨rfl, ?_⟩
    refine ⟨rate_pair hD rfl _, flag_pair hD rfl _, rate_pair hD rfl _, flag_pair hD rfl _, ?_⟩
    refine ⟨rate_pair hD rfl _, flag_pair hD rfl _, rate_pair hD rfl _, flag_pair hD rfl _, ?_⟩
    refine ⟨rate_pair hD rfl _, flag_pair hD rfl _, rate_pair hD rfl _, flag_pair hD rfl _, ?_⟩
    change (D.toDoubleOrNull (D.toText c.pointsPerLevel)).getD _ = _
    rw [hD.toDoubleOrNull_toText, Option.getD_some]

end PointsConfig

/-! ## At the literals -/

/-- The values that the source writes down. -/
inductive Literal where
  | zero
  | tenth
  | one
  | five
  | ten
  | hundred
  | billion
deriving DecidableEq

namespace Literal

def all : List Literal := [zero, tenth, one, five, ten, hundred, billion]

def value : Literal → ℚ
  | zero => 0
  | tenth => 1 / 10
  | one => 1
  | five => 5
  | ten => 10
  | hundred => 100
  | billion => 1000000000

def text : Literal → List UInt16
  | zero => utf16 "0.0"
  | tenth => utf16 "0.1"
  | one => utf16 "1.0"
  | five => utf16 "5.0"
  | ten => utf16 "10.0"
  | hundred => utf16 "100.0"
  | billion => utf16 "1.0E9"

def doubles : Doubles Literal where
  literal q := (all.find? fun d => d.value = q).getD zero
  lt a b := decide (a.value < b.value)
  toText := text
  toDoubleOrNull t := all.find? fun d => d.text = t

theorem readsBack : doubles.ReadsBack where
  toDoubleOrNull_toText d := by cases d <;> decide
  comma_notMem d := by cases d <;> decide
  semicolon_notMem d := by cases d <;> decide

end Literal

namespace PointsConfig

/-- Another currency, whose name has the other separators in it, other rates
and every flag turned. -/
def roses : PointsConfig Literal where
  currencyName := utf16 "roses = 1, gold"
  pointsPerChat := .tenth
  pointsPerChatEnabled := false
  pointsPerCoin := .billion
  pointsPerCoinEnabled := false
  pointsPerLike := .five
  pointsPerLikeEnabled := true
  pointsPerFollow := .zero
  pointsPerFollowEnabled := false
  pointsPerShare := .hundred
  pointsPerShareEnabled := false
  pointsPerJoin := .ten
  pointsPerJoinEnabled := true
  pointsPerLevel := .ten

theorem decode_encode_roses :
    unit ';' ∉ roses.currencyName ∧ roses ≠ default Literal.doubles ∧
      roses.normalize Literal.doubles = roses ∧
      decode Literal.doubles (encode Literal.doubles roses) = roses :=
  have hname : unit ';' ∉ roses.currencyName := by decide
  ⟨hname, by decide +kernel, by decide +kernel,
    (decode_encode_iff Literal.readsBack roses).mpr hname⟩

/-- A name with a `;` in it is cut there. -/
theorem exists_decode_encode_ne :
    Literal.doubles.ReadsBack ∧ ∃ c : PointsConfig Literal, c.normalize Literal.doubles = c ∧
      decode Literal.doubles (encode Literal.doubles c) ≠ c :=
  ⟨Literal.readsBack, { default Literal.doubles with currencyName := utf16 "a;b" },
    by decide +kernel, by decide +kernel⟩

end PointsConfig

end TiktokSigner.Android
