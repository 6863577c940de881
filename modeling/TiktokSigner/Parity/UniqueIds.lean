import TiktokSigner.Lib.Text
import TiktokSigner.Parity.RoomLookup
import TiktokSigner.SignCore.PercentCode

/-!
# A username, normalised three times

`normalize_unique_id`, `normalizeUniqueId` and `UniqueId.normalize`. Each takes
off what its own language trims, and one at sign, and accepts up to 24
characters of one alphabet; so they can differ in whether they accept, by
what stands around the name, and not in the name.
-/

namespace TiktokSigner.Parity

open Java (isHandleChar)
open Text Utf8

/-! ## Rust -/

namespace Rust

/-- `char::is_whitespace`. -/
def isWhitespace (c : Char) : Bool :=
  let n := c.toNat
  (9 ≤ n && n ≤ 13) || n == 0x20 || n == 0x85 || n == 0xa0 || n == 0x1680 ||
    (0x2000 ≤ n && n ≤ 0x200a) || n == 0x2028 || n == 0x2029 || n == 0x202f || n == 0x205f ||
    n == 0x3000

/-- `normalize_unique_id`; the length is that of the bytes. -/
def normalizeUniqueId (input : String) : Option String :=
  let input := trim isWhitespace input.toList
  if "@@".toList.isPrefixOf input then none
  else
    let normalized := (stripPrefix ['@'] input).getD input
    if normalized = [] ∨ 24 < (encode normalized).length ∨ ¬normalized.all isHandleChar then none
    else some (String.ofList normalized)

end Rust

/-! ## TypeScript -/

namespace TypeScript

/-- What `trim` takes off: white space and line terminators. -/
def isTrimmed (c : Char) : Bool :=
  let n := c.toNat
  (9 ≤ n && n ≤ 13) || n == 0x20 || n == 0xa0 || n == 0x1680 || (0x2000 ≤ n && n ≤ 0x200a) ||
    n == 0x2028 || n == 0x2029 || n == 0x202f || n == 0x205f || n == 0x3000 || n == 0xfeff

/-- `normalizeUniqueId`, which throws or has a name. What the expression
matches is ASCII, so its units are characters. -/
def normalizeUniqueId (input : String) : Option String :=
  let value := trim isTrimmed input.toList
  if "@@".toList.isPrefixOf value then none
  else
    let uniqueId := (stripPrefix ['@'] value).getD value
    if 1 ≤ uniqueId.length ∧ uniqueId.length ≤ 24 ∧ uniqueId.all isHandleChar then
      some (String.ofList uniqueId)
    else none

end TypeScript

/-- What the trimming of Java takes off. -/
def Java.isTrimmed (c : Char) : Bool := c.toNat ≤ 32

/-! ## What they have in common -/

/-- A canonical name. -/
def IsHandle (id : List Char) : Prop := id ≠ [] ∧ id.length ≤ 24 ∧ id.all isHandleChar = true

instance : DecidablePred IsHandle := fun id =>
  inferInstanceAs (Decidable (id ≠ [] ∧ id.length ≤ 24 ∧ id.all isHandleChar = true))

/-- The text without one at sign. -/
def bare (text : List Char) : List Char := if text.head? = some '@' then text.tail else text

/-- Trim, take off one at sign, look at what is left. -/
def normalizeBy (p : Char → Bool) (input : String) : Option String :=
  let id := bare (trim p input.toList)
  if IsHandle id then some (String.ofList id) else none

theorem stripPrefix_getD (text : List Char) : (stripPrefix ['@'] text).getD text = bare text := by
  cases text with
  | nil => rfl
  | cons c text =>
    by_cases hc : c = '@'
    · rw [hc]
      rfl
    · have hnone : stripPrefix ['@'] (c :: text) = none := by
        rw [stripPrefix, if_neg]
        simpa [List.isPrefixOf] using Ne.symm hc
      rw [hnone, bare, if_neg (by simpa using hc), Option.getD_none]

/-- A name does not start with an at sign. -/
theorem not_isHandle_at (text : List Char) : ¬IsHandle ('@' :: text) := by
  rintro ⟨-, -, hall⟩
  have hat := List.all_eq_true.mp hall '@' List.mem_cons_self
  exact absurd hat (by decide)

theorem not_isHandle_bare {text : List Char} (h : "@@".toList.isPrefixOf text = true) :
    ¬IsHandle (bare text) := by
  obtain ⟨rest, rfl⟩ := List.isPrefixOf_iff_prefix.mp h
  exact not_isHandle_at rest

theorem isHandleChar_lt {c : Char} (h : isHandleChar c = true) : c.toNat < 128 := by
  simp only [isHandleChar, Bool.or_eq_true, beq_iff_eq] at h
  rcases h with (h | rfl) | rfl
  · exact isAlphanum_lt h
  all_goals decide

/-- A name has one byte for each character. -/
theorem length_encode_of_all {id : List Char} (h : id.all isHandleChar = true) :
    (encode id).length = id.length := by
  rw [encode_ascii fun c hc => isHandleChar_lt (List.all_eq_true.mp h c hc), List.length_map]

theorem rust_eq (input : String) :
    Rust.normalizeUniqueId input = normalizeBy Rust.isWhitespace input := by
  rw [Rust.normalizeUniqueId, normalizeBy]
  simp only [stripPrefix_getD]
  by_cases hat : "@@".toList.isPrefixOf (trim Rust.isWhitespace input.toList) = true
  · rw [if_pos hat, if_neg (not_isHandle_bare hat)]
  · rw [if_neg hat]
    generalize bare (trim Rust.isWhitespace input.toList) = id
    by_cases hall : id.all isHandleChar = true
    · rw [length_encode_of_all hall]
      by_cases hid : IsHandle id
      · rw [if_pos hid, if_neg]
        exact fun h => h.elim hid.1 fun h => h.elim (Nat.not_lt.mpr hid.2.1) (absurd hall)
      · rw [if_neg hid, if_pos]
        by_contra hnot
        rw [not_or, not_or, Nat.not_lt] at hnot
        exact hid ⟨hnot.1, hnot.2.1, hall⟩
    · rw [if_pos (Or.inr (Or.inr hall)), if_neg fun hid => hall hid.2.2]

theorem typeScript_eq (input : String) :
    TypeScript.normalizeUniqueId input = normalizeBy TypeScript.isTrimmed input := by
  rw [TypeScript.normalizeUniqueId, normalizeBy]
  simp only [stripPrefix_getD]
  by_cases hat : "@@".toList.isPrefixOf (trim TypeScript.isTrimmed input.toList) = true
  · rw [if_pos hat, if_neg (not_isHandle_bare hat)]
  · rw [if_neg hat]
    refine if_congr (and_congr_left fun _ => ?_) rfl rfl
    rw [Nat.one_le_iff_ne_zero, ne_eq, List.length_eq_zero_iff]

theorem java_eq (input : String) : Java.normalize input = normalizeBy Java.isTrimmed input := rfl

/-! ## What is accepted -/

/-- A trimming that leaves names and the at sign alone. -/
def Outside (p : Char → Bool) : Prop := ∀ c, p c = true → isHandleChar c = false ∧ c ≠ '@'

/-- The name between what is trimmed, behind an at sign or not. -/
def Holds (p : Char → Bool) (input out : String) : Prop :=
  IsHandle out.toList ∧ ∃ front sign back,
    input.toList = front ++ (sign ++ out.toList) ++ back ∧ (sign = [] ∨ sign = ['@']) ∧
      (∀ c ∈ front, p c = true) ∧ ∀ c ∈ back, p c = true

theorem bare_split (text : List Char) :
    ∃ sign, (sign = [] ∨ sign = ['@']) ∧ text = sign ++ bare text := by
  cases text with
  | nil => exact ⟨[], Or.inl rfl, rfl⟩
  | cons c text =>
    by_cases hc : c = '@'
    · subst hc
      exact ⟨['@'], Or.inr rfl, rfl⟩
    · refine ⟨[], Or.inl rfl, ?_⟩
      rw [bare, if_neg (by simpa using hc), List.nil_append]

theorem bare_append {sign out : List Char} (hsign : sign = [] ∨ sign = ['@'])
    (hout : IsHandle out) : bare (sign ++ out) = out := by
  rcases hsign with rfl | rfl
  · rw [List.nil_append, bare, if_neg]
    intro hhead
    obtain ⟨rest, rfl⟩ := List.head?_eq_some_iff.mp hhead
    exact not_isHandle_at rest hout
  · rfl

section

variable {p q : Char → Bool} {input out out' : String}

/-- What stands in the middle is not trimmed. -/
theorem middle_kept (hp : Outside p) {sign : List Char} (hsign : sign = [] ∨ sign = ['@'])
    (hout : IsHandle out.toList) : ∀ c ∈ sign ++ out.toList, p c = false := by
  intro c hc
  by_contra hpc
  obtain ⟨hchar, hat⟩ := hp c (Bool.eq_true_of_not_eq_false hpc)
  rcases List.mem_append.mp hc with hc | hc
  · rcases hsign with rfl | rfl
    · cases hc
    · exact hat (List.mem_singleton.mp hc)
  · rw [List.all_eq_true.mp hout.2.2 c hc] at hchar
    cases hchar

theorem normalizeBy_eq_some (hp : Outside p) :
    normalizeBy p input = some out ↔ Holds p input out := by
  constructor
  · intro h
    rw [normalizeBy] at h
    split_ifs at h with hid
    obtain rfl := Option.some.inj h
    obtain ⟨front, back, hinput, hfront, hback⟩ := trim_split p input.toList
    obtain ⟨sign, hsign, htrim⟩ := bare_split (trim p input.toList)
    refine ⟨by rwa [String.toList_ofList], front, sign, back, ?_, hsign, hfront, hback⟩
    rw [String.toList_ofList, ← htrim, ← hinput]
  · rintro ⟨hout, front, sign, back, hinput, hsign, hfront, hback⟩
    have htrim : trim p input.toList = sign ++ out.toList := by
      rw [hinput]
      exact trim_append hfront hback (middle_kept hp hsign hout)
    rw [normalizeBy, htrim, bare_append hsign hout, if_pos hout, String.ofList_toList]

/-- The name is what the input has of the alphabet. -/
theorem Holds.eq_filter (hp : Outside p) (h : Holds p input out) :
    out.toList = input.toList.filter isHandleChar := by
  obtain ⟨hout, front, sign, back, hinput, hsign, hfront, hback⟩ := h
  have hnone : ∀ text : List Char, (∀ c ∈ text, p c = true) → text.filter isHandleChar = [] := by
    intro text htext
    refine List.filter_eq_nil_iff.mpr fun c hc => ?_
    simp [(hp c (htext c hc)).1]
  have hsign' : sign.filter isHandleChar = [] := by
    rcases hsign with rfl | rfl
    · rfl
    · decide
  rw [hinput, List.filter_append, List.filter_append, List.filter_append, hnone front hfront,
    hnone back hback, hsign', List.filter_eq_self.mpr (List.all_eq_true.mp hout.2.2),
    List.append_nil, List.nil_append, List.nil_append]

/-- Two trimmings do not give two names. -/
theorem Holds.unique (hp : Outside p) (hq : Outside q) (h : Holds p input out)
    (h' : Holds q input out') : out = out' := by
  have heq : out.toList = out'.toList := (h.eq_filter hp).trans (h'.eq_filter hq).symm
  exact String.toList_inj.mp heq

/-- What is no part of a name is trimmed. -/
theorem Holds.around (h : Holds p input out) :
    ∀ c ∈ input.toList, isHandleChar c = true ∨ c = '@' ∨ p c = true := by
  obtain ⟨hout, front, sign, back, hinput, hsign, hfront, hback⟩ := h
  intro c hc
  rw [hinput, List.mem_append, List.mem_append, List.mem_append] at hc
  rcases hc with (hc | hc | hc) | hc
  · exact Or.inr (Or.inr (hfront c hc))
  · rcases hsign with rfl | rfl
    · cases hc
    · exact Or.inr (Or.inl (List.mem_singleton.mp hc))
  · exact Or.inl (List.all_eq_true.mp hout.2.2 c hc)
  · exact Or.inr (Or.inr (hback c hc))

/-- A trimming that takes off as much accepts as well. -/
theorem Holds.imp (h : Holds p input out) (hpq : ∀ c ∈ input.toList, p c = true → q c = true) :
    Holds q input out := by
  obtain ⟨hout, front, sign, back, hinput, hsign, hfront, hback⟩ := h
  refine ⟨hout, front, sign, back, hinput, hsign, fun c hc => ?_, fun c hc => ?_⟩
  · exact hpq c (by simp [hinput, hc]) (hfront c hc)
  · exact hpq c (by simp [hinput, hc]) (hback c hc)

/-- A name is its own. -/
theorem Holds.self (h : Holds p input out) : Holds q out out :=
  ⟨h.1, [], [], [], by simp, Or.inl rfl, by simp, by simp⟩

end

/-! ## The three of them -/

/-- The space that all three trim: tab to carriage return, and blank. -/
def isCommonSpace (c : Char) : Bool := (9 ≤ c.toNat && c.toNat ≤ 13) || c.toNat == 32

/-- The functions, each with what it trims. -/
def normalisers : List ((String → Option String) × (Char → Bool)) :=
  [(Rust.normalizeUniqueId, Rust.isWhitespace),
    (TypeScript.normalizeUniqueId, TypeScript.isTrimmed), (Java.normalize, Java.isTrimmed)]

theorem forall_normalisers {P : (String → Option String) × (Char → Bool) → Prop} :
    (∀ n ∈ normalisers, P n) ↔
      P (Rust.normalizeUniqueId, Rust.isWhitespace) ∧
        P (TypeScript.normalizeUniqueId, TypeScript.isTrimmed) ∧
        P (Java.normalize, Java.isTrimmed) := by
  simp [normalisers]

/-- No character of a name is trimmed, nor is the at sign. -/
theorem outside_of_mem {n : (String → Option String) × (Char → Bool)} (h : n ∈ normalisers) :
    Outside n.2 := by
  have hall : ∀ k ∈ List.range 128,
      (isHandleChar (Char.ofNat k) || Char.ofNat k == '@') = true →
        ∀ n ∈ normalisers, n.2 (Char.ofNat k) = false := by decide +kernel
  have hkept : ∀ c, (isHandleChar c || c == '@') = true → n.2 c = false := by
    intro c hc
    have hlt : c.toNat < 128 := by
      rcases Bool.or_eq_true_iff.mp hc with hchar | hat
      · exact isHandleChar_lt hchar
      · rw [eq_of_beq hat]
        decide
    have hchar := hall c.toNat (List.mem_range.mpr hlt)
    rw [Char.ofNat_toNat] at hchar
    exact hchar hc n h
  intro c hpc
  refine ⟨?_, ?_⟩
  · by_contra hchar
    have hkept' := hkept c (by simp [Bool.eq_true_of_not_eq_false hchar])
    rw [hpc] at hkept'
    cases hkept'
  · rintro rfl
    have hkept' := hkept '@' (by decide)
    rw [hpc] at hkept'
    cases hkept'

theorem eq_normalizeBy {n : (String → Option String) × (Char → Bool)} (h : n ∈ normalisers)
    (input : String) : n.1 input = normalizeBy n.2 input := by
  revert n
  rw [forall_normalisers]
  exact ⟨rust_eq input, typeScript_eq input, java_eq input⟩

/-- Only common space is trimmed by all. -/
theorem isCommonSpace_iff (c : Char) :
    isCommonSpace c = true ↔ ∀ n ∈ normalisers, n.2 c = true := by
  rw [forall_normalisers]
  simp only [isCommonSpace, Rust.isWhitespace, TypeScript.isTrimmed, Java.isTrimmed,
    Bool.or_eq_true, Bool.and_eq_true, decide_eq_true_eq, beq_iff_eq]
  omega

/-- Each accepts a name between what it trims, none gives another name than
the others, a name is its own, and what one accepts the others accept
exactly where all that stands around the name is common space. -/
theorem normalised_alike (input : String) :
    (∀ n ∈ normalisers, ∀ out, n.1 input = some out ↔ Holds n.2 input out) ∧
    (∀ n ∈ normalisers, ∀ n' ∈ normalisers, ∀ out out',
      n.1 input = some out → n'.1 input = some out' → out = out') ∧
    (∀ n ∈ normalisers, ∀ out, n.1 input = some out → n.1 out = some out) ∧
    (∀ n ∈ normalisers, ∀ out, n.1 input = some out →
      ((∀ n' ∈ normalisers, n'.1 input = some out) ↔
        ∀ c ∈ input.toList, isHandleChar c = true ∨ c = '@' ∨ isCommonSpace c = true)) := by
  have haccepts : ∀ n ∈ normalisers, ∀ input out, n.1 input = some out ↔ Holds n.2 input out :=
    fun n hn input out => by
      rw [eq_normalizeBy hn, normalizeBy_eq_some (outside_of_mem hn)]
  refine ⟨fun n hn => haccepts n hn input, fun n hn n' hn' out out' h h' => ?_,
    fun n hn out h => ?_, fun n hn out h => ?_⟩
  · exact ((haccepts n hn input out).mp h).unique (outside_of_mem hn) (outside_of_mem hn')
      ((haccepts n' hn' input out').mp h')
  · exact (haccepts n hn out out).mpr ((haccepts n hn input out).mp h).self
  · have hholds := (haccepts n hn input out).mp h
    constructor
    · intro hall c hc
      rw [isCommonSpace_iff]
      by_contra hnot
      rw [not_or, not_or] at hnot
      refine hnot.2.2 fun n' hn' => ?_
      have haround := ((haccepts n' hn' input out).mp (hall n' hn')).around c hc
      exact (haround.resolve_left hnot.1).resolve_left hnot.2.1
    · intro hall n' hn'
      refine (haccepts n' hn' input out).mpr (hholds.imp fun c hc hpc => ?_)
      obtain ⟨hchar, hat⟩ := outside_of_mem hn c hpc
      have hspace := ((hall c hc).resolve_left (by simp [hchar])).resolve_left hat
      exact (isCommonSpace_iff c).mp hspace n' hn'

/-- A control character, a no-break space and a byte order mark before the
same name. -/
theorem normalised_apart :
    normalisers.map (fun n => n.1 "\u0000abc") = [none, none, some "abc"] ∧
      normalisers.map (fun n => n.1 "\u00a0abc") = [some "abc", some "abc", none] ∧
      normalisers.map (fun n => n.1 "\ufeffabc") = [none, some "abc", none] ∧
      normalisers.map (fun n => n.1 "\u0085abc") = [some "abc", none, none] := by
  decide

end TiktokSigner.Parity
