import TiktokSigner.Lib.JsonText
import TiktokSigner.Lib.Replace
import TiktokSigner.Lib.Text

/-!
# The reply of the driver

`read`, `read_error` and `unescape` of the embedded signer. The driver answers
with one member that `JSON.stringify` has written. What is read ends at the
first quote, escaped or not, and the escapes are undone one after another:
those of the slash, of `&` and of the quote first, that of the backslash last.
A text without quotes and control characters is taken apart at its runs of
backslashes. A run is written twice as long, and halved when it is read, also
where a slash behind it has taken one away; only `u0026` behind a run is taken
for an escape.
-/

namespace TiktokSigner.SignEmbedded

open Text (cut splitOnce splitOnceText)

/-- Reverse of `escape`, for the two sequences `JSON.stringify` produces in a URL. -/
def unescape (value : List Char) : List Char :=
  Text.replace ['\\', '\\'] ['\\']
    (Text.replace ['\\', '"'] ['"']
      (Text.replace "\\u0026".toList ['&']
        (Text.replace ['\\', '/'] ['/'] value)))

/-- The text up to the first quote. -/
def untilQuote (rest : List Char) : List Char := (cut '"' rest).1

def readError (out : List Char) : Except (List Char) Unit :=
  match splitOnceText "\"error\":\"".toList out with
  | some (_, rest) => .error (unescape (untilQuote rest))
  | none => .ok ()

def read (out : List Char) : Except (List Char) (List Char) :=
  match splitOnceText "\"error\":\"".toList out with
  | some (_, rest) => .error (unescape (untilQuote rest))
  | none =>
      match splitOnceText "\"signed\":\"".toList out with
      | none => .error ("unexpected signer reply: ".toList ++ out)
      | some (_, rest) =>
          match splitOnce '"' rest with
          | none => .error "unterminated signed URL".toList
          | some (url, _) =>
              let signed := unescape url
              if signed = [] ∨ signed = "null".toList then
                .error "the signer produced no URL".toList
              else .ok signed

/-! ## What the driver writes -/

/-- A character in a literal of `JSON.stringify`. -/
def stringifyChar (c : Char) : List Char :=
  if c = '"' then ['\\', '"']
  else if c = '\\' then ['\\', '\\']
  else if c.toNat = 8 then ['\\', 'b']
  else if c.toNat = 12 then ['\\', 'f']
  else if c = '\n' then ['\\', 'n']
  else if c = '\r' then ['\\', 'r']
  else if c = '\t' then ['\\', 't']
  else if c.toNat < 0x20 then
    "\\u00".toList ++ [Nat.digitChar (c.toNat / 16), Nat.digitChar (c.toNat % 16)]
  else [c]

/-- The literal, without its quotes, that a text is written as; each slash may
be escaped. -/
inductive Written : List Char → List Char → Prop
  | nil : Written [] []
  | char (c : Char) {s body : List Char} :
      Written s body → Written (c :: s) (stringifyChar c ++ body)
  | slash {s body : List Char} : Written s body → Written ('/' :: s) ('\\' :: '/' :: body)

/-- `JSON.stringify` of a text, without the quotes. -/
def stringify (s : List Char) : List Char := s.flatMap stringifyChar

def signedReply (body : List Char) : List Char :=
  "\x7b\"signed\":\"".toList ++ (body ++ "\"\x7d".toList)

def errorReply (body : List Char) : List Char :=
  "\x7b\"error\":\"".toList ++ (body ++ "\"\x7d".toList)

theorem written_stringify (s : List Char) : Written s (stringify s) := by
  induction s with
  | nil => exact .nil
  | cons c s ih => exact .char c ih

theorem hexDigit_digitChar {n : ℕ} (h : n < 16) : JsonText.hexDigit (Nat.digitChar n) = some n :=
  (by decide : ∀ n < 16, JsonText.hexDigit (Nat.digitChar n) = some n) n h

theorem string_stringifyChar (c : Char) (rest : List Char) :
    JsonText.string (stringifyChar c ++ rest)
      = (JsonText.string rest).map fun read => (JsonText.units c ++ read.1, read.2) := by
  have hlow : c.toNat < 0x20 → JsonText.units c = [c.toNat] := fun h => if_pos (by omega)
  rw [stringifyChar]
  split_ifs with hquote hback hb hf hline hreturn htab hcontrol
  · subst hquote
    exact JsonText.string_escape (by decide) rfl rest
  · subst hback
    exact JsonText.string_escape (by decide) rfl rest
  · rw [hlow (by omega), hb]
    exact JsonText.string_escape (by decide) rfl rest
  · rw [hlow (by omega), hf]
    exact JsonText.string_escape (by decide) rfl rest
  · subst hline
    exact JsonText.string_escape (by decide) rfl rest
  · subst hreturn
    exact JsonText.string_escape (by decide) rfl rest
  · subst htab
    exact JsonText.string_escape (by decide) rfl rest
  · have hunit : JsonText.hexUnit '0' '0' (Nat.digitChar (c.toNat / 16))
        (Nat.digitChar (c.toNat % 16)) = some c.toNat := by
      rw [JsonText.hexUnit, hexDigit_digitChar (by omega), hexDigit_digitChar (by omega)]
      simp [JsonText.hexDigit]
      omega
    rw [hlow hcontrol]
    change JsonText.string ('\\' :: 'u' :: '0' :: '0' :: Nat.digitChar (c.toNat / 16)
      :: Nat.digitChar (c.toNat % 16) :: rest) = _
    rw [JsonText.string.eq_def]
    simp [hunit]
  · rw [List.singleton_append, JsonText.string_plain hquote hback, if_neg hcontrol]

/-- What is written is a literal of the text. -/
theorem Written.string {s body : List Char} (h : Written s body) (rest : List Char) :
    JsonText.string (body ++ '"' :: rest) = some (JsonText.utf16 s, rest) := by
  induction h with
  | nil => exact JsonText.string_quote rest
  | char c _ ih =>
    rw [List.append_assoc, string_stringifyChar, ih]
    rfl
  | slash _ ih =>
    rw [List.cons_append, List.cons_append, JsonText.string_escape (by decide) rfl, ih]
    rfl

/-! ## Runs of backslashes -/

section Runs

variable (m n : ℕ) (rest : List Char)

theorem not_prefix_run {e c : Char} (he : e ≠ '\\') (hc : c ≠ e) :
    ¬['\\', e] <+: '\\' :: (List.replicate m '\\' ++ c :: rest) := by
  cases m <;> simp [List.cons_prefix_cons, List.replicate_succ, he, Ne.symm hc]

theorem replace_slash_run {c : Char} (hback : c ≠ '\\') (hslash : c ≠ '/') :
    Text.replace ['\\', '/'] ['/'] (List.replicate m '\\' ++ c :: rest)
      = List.replicate m '\\' ++ c :: Text.replace ['\\', '/'] ['/'] rest := by
  induction m with
  | zero =>
    exact Text.replace_cons fun h => hback (List.cons_prefix_cons.mp h).1.symm
  | succ m ih =>
    rw [List.replicate_succ, List.cons_append,
      Text.replace_cons (not_prefix_run m rest (by decide) hslash), ih]
    rfl

theorem replace_slash_slash :
    Text.replace ['\\', '/'] ['/'] (List.replicate (m + 1) '\\' ++ '/' :: rest)
      = List.replicate m '\\' ++ '/' :: Text.replace ['\\', '/'] ['/'] rest := by
  induction m with
  | zero => exact Text.replace_append (by decide) rest
  | succ m ih =>
    have hmiss : ¬['\\', '/'] <+: '\\' :: (List.replicate (m + 1) '\\' ++ '/' :: rest) := by
      simp [List.cons_prefix_cons, List.replicate_succ]
    rw [List.replicate_succ, List.cons_append, Text.replace_cons hmiss, ih]
    rfl

theorem replace_slash_replicate :
    Text.replace ['\\', '/'] ['/'] (List.replicate m '\\') = List.replicate m '\\' := by
  refine Text.replace_eq_self fun h => ?_
  have hslash := List.eq_of_mem_replicate (h.subset (List.mem_cons_of_mem _ List.mem_cons_self))
  exact absurd hslash (by decide)

/-- A run of backslashes is halved, and rounded up. -/
theorem replace_back_run {c : Char} (hback : c ≠ '\\') :
    Text.replace ['\\', '\\'] ['\\'] (List.replicate (2 * n) '\\' ++ c :: rest)
      = List.replicate n '\\' ++ c :: Text.replace ['\\', '\\'] ['\\'] rest := by
  induction n with
  | zero => exact Text.replace_cons fun h => hback (List.cons_prefix_cons.mp h).1.symm
  | succ n ih =>
    change Text.replace ['\\', '\\'] ['\\']
      (['\\', '\\'] ++ (List.replicate (2 * n) '\\' ++ c :: rest)) = _
    rw [Text.replace_append (by decide), ih]
    rfl

theorem replace_back_odd {c : Char} (hback : c ≠ '\\') :
    Text.replace ['\\', '\\'] ['\\'] (List.replicate (2 * n + 1) '\\' ++ c :: rest)
      = List.replicate (n + 1) '\\' ++ c :: Text.replace ['\\', '\\'] ['\\'] rest := by
  induction n with
  | zero =>
    have hmiss : ¬['\\', '\\'] <+: '\\' :: c :: rest := by
      simp [List.cons_prefix_cons, Ne.symm hback]
    have hmiss' : ¬['\\', '\\'] <+: c :: rest := fun h =>
      hback (List.cons_prefix_cons.mp h).1.symm
    change Text.replace ['\\', '\\'] ['\\'] ('\\' :: c :: rest) = _
    rw [Text.replace_cons hmiss, Text.replace_cons hmiss']
    rfl
  | succ n ih =>
    change Text.replace ['\\', '\\'] ['\\']
      (['\\', '\\'] ++ (List.replicate (2 * n + 1) '\\' ++ c :: rest)) = _
    rw [Text.replace_append (by decide), ih]
    rfl

theorem replace_back_replicate :
    Text.replace ['\\', '\\'] ['\\'] (List.replicate (2 * n) '\\') = List.replicate n '\\' := by
  induction n with
  | zero => rfl
  | succ n ih =>
    change Text.replace ['\\', '\\'] ['\\'] (['\\', '\\'] ++ List.replicate (2 * n) '\\') = _
    rw [Text.replace_append (by decide), ih]
    rfl

/-- A pattern that starts with its only backslash, behind a run. -/
theorem infix_run {word : List Char} {c : Char} (hword : '\\' ∉ word) (hne : word ≠ [])
    (hback : c ≠ '\\') :
    '\\' :: word <:+: List.replicate m '\\' ++ c :: rest
      ↔ (0 < m ∧ word <+: c :: rest) ∨ '\\' :: word <:+: rest := by
  induction m with
  | zero =>
    rw [List.replicate_zero, List.nil_append, List.infix_cons_iff, List.cons_prefix_cons]
    simp [Ne.symm hback]
  | succ m ih =>
    rw [List.replicate_succ, List.cons_append, List.infix_cons_iff, List.cons_prefix_cons, ih]
    cases m with
    | zero => simp
    | succ m =>
      obtain ⟨d, tail, rfl⟩ := List.exists_cons_of_ne_nil hne
      have hd : d ≠ '\\' := fun h => hword (h ▸ List.mem_cons_self)
      rw [List.replicate_succ, List.cons_append, List.cons_prefix_cons]
      simp [hd]

end Runs

/-! ## Texts without quotes and control characters -/

/-- What `JSON.stringify` writes as it is, or as two backslashes. -/
structure Easy (s : List Char) : Prop where
  quote : '"' ∉ s
  control : ∀ c ∈ s, 0x20 ≤ c.toNat

theorem Easy.tail {c : Char} {s : List Char} (h : Easy (c :: s)) : Easy s :=
  ⟨fun hquote => h.quote (List.mem_cons_of_mem _ hquote),
    fun d hd => h.control d (List.mem_cons_of_mem _ hd)⟩

theorem Easy.stringifyChar {c : Char} {s : List Char} (h : Easy (c :: s)) (hback : c ≠ '\\') :
    stringifyChar c = [c] := by
  have hquote : c ≠ '"' := fun hc => h.quote (hc ▸ List.mem_cons_self)
  have hcontrol := h.control c List.mem_cons_self
  have hne : ∀ d : Char, d.toNat < 0x20 → c ≠ d := by
    rintro d hd rfl
    omega
  rw [SignEmbedded.stringifyChar, if_neg hquote, if_neg hback, if_neg (by omega),
    if_neg (by omega), if_neg (hne _ (by decide)), if_neg (hne _ (by decide)),
    if_neg (hne _ (by decide)), if_neg (by omega)]

/-- The literals of easy texts. -/
inductive Spelled : List Char → List Char → Prop
  | nil : Spelled [] []
  | back {s body : List Char} : Spelled s body → Spelled ('\\' :: s) ('\\' :: '\\' :: body)
  | bare {s body : List Char} : Spelled s body → Spelled ('/' :: s) ('/' :: body)
  | slash {s body : List Char} : Spelled s body → Spelled ('/' :: s) ('\\' :: '/' :: body)
  | plain {c : Char} {s body : List Char} : c ≠ '\\' → c ≠ '/' → Spelled s body →
      Spelled (c :: s) (c :: body)

theorem Written.spelled {s body : List Char} (h : Written s body) (heasy : Easy s) :
    Spelled s body := by
  induction h with
  | nil => exact .nil
  | @char c s body _ ih =>
    by_cases hback : c = '\\'
    · subst hback
      exact .back (ih heasy.tail)
    · rw [heasy.stringifyChar hback]
      by_cases hslash : c = '/'
      · subst hslash
        exact .bare (ih heasy.tail)
      · exact .plain hback hslash (ih heasy.tail)
  | slash _ ih => exact .slash (ih heasy.tail)

namespace Spelled

variable {s body : List Char}

theorem run_succ (n : ℕ) (rest : List Char) :
    List.replicate (2 * n) '\\' ++ '\\' :: '\\' :: rest
      = List.replicate (2 * (n + 1)) '\\' ++ rest := by
  rw [Nat.mul_succ, List.replicate_add, List.append_assoc]
  rfl

theorem run_append (n : ℕ) (rest : List Char) :
    List.replicate n '\\' ++ '\\' :: rest = List.replicate (n + 1) '\\' ++ rest := by
  rw [List.replicate_succ', List.append_assoc]
  rfl

/-- Undoing the escapes of the slash and then those of the backslash, behind a
run that is half as long in the text. -/
theorem replace_replace (h : Spelled s body) (n : ℕ) :
    Text.replace ['\\', '\\'] ['\\'] (Text.replace ['\\', '/'] ['/']
      (List.replicate (2 * n) '\\' ++ body)) = List.replicate n '\\' ++ s := by
  induction h generalizing n with
  | nil => rw [List.append_nil, replace_slash_replicate, replace_back_replicate, List.append_nil]
  | back _ ih => rw [run_succ, ih, run_append]
  | @bare s body _ ih =>
    have hrest := ih 0
    cases n with
    | zero =>
      have hmiss : ¬['\\', '/'] <+: '/' :: body := by simp [List.cons_prefix_cons]
      rw [Nat.mul_zero, List.replicate_zero, List.nil_append, Text.replace_cons hmiss]
      exact (replace_back_run 0 _ (by decide)).trans (congrArg _ (congrArg _ hrest))
    | succ n =>
      rw [Nat.mul_succ, replace_slash_slash, replace_back_odd _ _ (by decide)]
      exact congrArg _ (congrArg _ hrest)
  | @slash s body _ ih =>
    rw [run_append, replace_slash_slash, replace_back_run _ _ (by decide)]
    exact congrArg _ (congrArg _ (ih 0))
  | @plain c s body hback hslash _ ih =>
    rw [replace_slash_run _ _ hback hslash, replace_back_run _ _ hback]
    exact congrArg _ (congrArg _ (ih 0))

/-- What has no backslash and no slash stands in the literal where it stands
in the text. -/
theorem prefix_iff (h : Spelled s body) {word : List Char} (hback : '\\' ∉ word)
    (hslash : '/' ∉ word) :
    word <+: Text.replace ['\\', '/'] ['/'] body ↔ word <+: s := by
  induction h generalizing word with
  | nil => rfl
  | @back s body _ ih =>
    have hmiss : ¬['\\', '/'] <+: '\\' :: '\\' :: body := by simp [List.cons_prefix_cons]
    rw [Text.replace_cons hmiss]
    cases word with
    | nil => simp
    | cons c word =>
      have hc : c ≠ '\\' := fun hc => hback (hc ▸ List.mem_cons_self)
      simp [List.cons_prefix_cons, hc]
  | @bare s body _ ih =>
    have hmiss : ¬['\\', '/'] <+: '/' :: body := by simp [List.cons_prefix_cons]
    rw [Text.replace_cons hmiss]
    cases word with
    | nil => simp
    | cons c word =>
      have hc : c ≠ '/' := fun hc => hslash (hc ▸ List.mem_cons_self)
      simp [List.cons_prefix_cons, hc]
  | @slash s body _ ih =>
    rw [show Text.replace ['\\', '/'] ['/'] ('\\' :: '/' :: body) = _ from
      Text.replace_append (by decide) body]
    cases word with
    | nil => simp
    | cons c word =>
      have hc : c ≠ '/' := fun hc => hslash (hc ▸ List.mem_cons_self)
      simp [List.cons_prefix_cons, hc]
  | @plain c s body hne hne' _ ih =>
    have hmiss : ¬['\\', '/'] <+: c :: body := by simp [List.cons_prefix_cons, Ne.symm hne]
    rw [Text.replace_cons hmiss]
    cases word with
    | nil => simp
    | cons d word =>
      rw [List.cons_prefix_cons, List.cons_prefix_cons,
        ih (fun hd => hback (List.mem_cons_of_mem _ hd))
          fun hd => hslash (List.mem_cons_of_mem _ hd)]

/-- The escape of `&` stands there exactly where the text has it. -/
theorem infix_iff (h : Spelled s body) (n : ℕ) :
    "\\u0026".toList <:+: Text.replace ['\\', '/'] ['/'] (List.replicate (2 * n) '\\' ++ body)
      ↔ "\\u0026".toList <:+: List.replicate n '\\' ++ s := by
  have hword : '\\' ∉ "u0026".toList := by decide
  have hne : "u0026".toList ≠ [] := by decide
  have hslash : ∀ rest, ¬ "u0026".toList <+: '/' :: rest := fun rest => by
    simp [List.cons_prefix_cons]
  change '\\' :: "u0026".toList <:+: _ ↔ '\\' :: "u0026".toList <:+: _
  induction h generalizing n with
  | nil =>
    have hrun : ∀ m, ¬ '\\' :: "u0026".toList <:+: List.replicate m '\\' := fun m h =>
      absurd (List.eq_of_mem_replicate (h.subset (List.mem_cons_of_mem _ List.mem_cons_self)))
        (by decide)
    rw [List.append_nil, replace_slash_replicate, List.append_nil]
    exact iff_of_false (hrun _) (hrun _)
  | back _ ih => rw [run_succ, ih, run_append]
  | @bare s body _ ih =>
    have hrest := ih 0
    rw [infix_run n s hword hne (by decide)]
    cases n with
    | zero =>
      have hmiss : ¬['\\', '/'] <+: '/' :: body := by simp [List.cons_prefix_cons]
      rw [Nat.mul_zero, List.replicate_zero, List.nil_append, Text.replace_cons hmiss]
      exact (infix_run 0 _ hword hne (by decide)).trans
        (or_congr (iff_of_false (fun h => hslash _ h.2) fun h => hslash _ h.2) hrest)
    | succ n =>
      rw [Nat.mul_succ, replace_slash_slash, infix_run _ _ hword hne (by decide)]
      exact or_congr (iff_of_false (fun h => hslash _ h.2) fun h => hslash _ h.2) hrest
  | @slash s body _ ih =>
    rw [run_append, replace_slash_slash, infix_run _ _ hword hne (by decide),
      infix_run _ _ hword hne (by decide)]
    exact or_congr (iff_of_false (fun h => hslash _ h.2) fun h => hslash _ h.2) (ih 0)
  | @plain c s body hback hnot hspelled ih =>
    have hstart : "u0026".toList <+: c :: Text.replace ['\\', '/'] ['/'] body
        ↔ "u0026".toList <+: c :: s := by
      change 'u' :: "0026".toList <+: _ ↔ 'u' :: "0026".toList <+: _
      rw [List.cons_prefix_cons, List.cons_prefix_cons,
        hspelled.prefix_iff (by decide) (by decide)]
    rw [replace_slash_run _ _ hback hnot, infix_run _ _ hword hne hback,
      infix_run _ _ hword hne hback]
    exact or_congr (and_congr (by omega) hstart) (ih 0)

/-- A slash that is taken away takes nothing else, and `u` is never written. -/
theorem count_eq (h : Spelled s body) : body.count 'u' = s.count 'u' := by
  induction h with
  | nil => rfl
  | back _ ih => simpa using ih
  | bare _ ih => simpa using ih
  | slash _ ih => simpa using ih
  | plain _ _ _ ih => rw [List.count_cons, List.count_cons, ih]

theorem quote_notMem (h : Spelled s body) (hquote : '"' ∉ s) : '"' ∉ body := by
  induction h with
  | nil => exact hquote
  | back _ ih => simpa using ih fun hmem => hquote (List.mem_cons_of_mem _ hmem)
  | bare _ ih => simpa using ih fun hmem => hquote (List.mem_cons_of_mem _ hmem)
  | slash _ ih => simpa using ih fun hmem => hquote (List.mem_cons_of_mem _ hmem)
  | plain _ _ _ ih =>
    rw [List.mem_cons, not_or] at hquote ⊢
    exact ⟨hquote.1, ih hquote.2⟩

theorem quote_notMem_replace (h : Spelled s body) (hquote : '"' ∉ s) :
    '"' ∉ Text.replace ['\\', '/'] ['/'] body := fun hmem =>
  (Text.mem_of_mem_replace (by decide) hmem).elim (h.quote_notMem hquote) (by decide)

theorem unescape_eq (h : Spelled s body) (hquote : '"' ∉ s)
    (hescape : ¬ "\\u0026".toList <:+: s) : unescape body = s := by
  have hescape' : ¬ "\\u0026".toList <:+: Text.replace ['\\', '/'] ['/'] body :=
    fun hwithin => hescape ((h.infix_iff 0).mp hwithin)
  have hquote' : ¬['\\', '"'] <:+: Text.replace ['\\', '/'] ['/'] body := fun hwithin =>
    h.quote_notMem_replace hquote (hwithin.subset (by simp))
  rw [unescape, Text.replace_eq_self hescape', Text.replace_eq_self hquote']
  exact h.replace_replace 0

/-- The escape of `&` is undone though the text spells it out, and a `u` is lost. -/
theorem unescape_ne (h : Spelled s body) (hescape : "\\u0026".toList <:+: s) :
    unescape body ≠ s := by
  intro heq
  have hcount : (unescape body).count 'u' < body.count 'u' :=
    calc (unescape body).count 'u'
      _ ≤ (Text.replace ['\\', '"'] ['"'] (Text.replace "\\u0026".toList ['&']
            (Text.replace ['\\', '/'] ['/'] body))).count 'u' :=
          Text.count_replace_le (by decide) (by decide) _
      _ ≤ (Text.replace "\\u0026".toList ['&'] (Text.replace ['\\', '/'] ['/'] body)).count 'u' :=
          Text.count_replace_le (by decide) (by decide) _
      _ < (Text.replace ['\\', '/'] ['/'] body).count 'u' :=
          Text.count_replace_lt (by decide) (by decide) ((h.infix_iff 0).mpr hescape)
      _ ≤ body.count 'u' := Text.count_replace_le (by decide) (by decide) _
  rw [heq, h.count_eq] at hcount
  exact lt_irrefl _ hcount

end Spelled

/-! ## What is lost -/

/-- Nothing that is undone brings in another character. -/
theorem mem_of_mem_unescape {c : Char} {text : List Char} (h : c ∈ unescape text) :
    c ∈ text ∨ c ∈ ['/', '&', '"', '\\'] := by
  rcases Text.mem_of_mem_replace (by decide) h with h | h
  · rcases Text.mem_of_mem_replace (by decide) h with h | h
    · rcases Text.mem_of_mem_replace (by decide) h with h | h
      · exact (Text.mem_of_mem_replace (by decide) h).imp_right fun h => by simp_all
      · simp_all
    · simp_all
  · simp_all

theorem quote_notMem_unescape {text : List Char} (h : '"' ∉ text) : '"' ∉ unescape text := by
  have hslash : '"' ∉ Text.replace ['\\', '/'] ['/'] text := fun hmem =>
    (Text.mem_of_mem_replace (by decide) hmem).elim h (by decide)
  have hescape : '"' ∉ Text.replace "\\u0026".toList ['&']
      (Text.replace ['\\', '/'] ['/'] text) := fun hmem =>
    (Text.mem_of_mem_replace (by decide) hmem).elim hslash (by decide)
  have hquote : ¬['\\', '"'] <:+: Text.replace "\\u0026".toList ['&']
      (Text.replace ['\\', '/'] ['/'] text) := fun hwithin => hescape (hwithin.subset (by simp))
  rw [unescape, Text.replace_eq_self hquote]
  exact fun hmem => (Text.mem_of_mem_replace (by decide) hmem).elim hescape (by decide)

theorem toNat_of_mem_stringifyChar {c d : Char} (h : d ∈ stringifyChar c) : 0x20 ≤ d.toNat := by
  have hpair : ∀ e : Char, 0x20 ≤ e.toNat → d ∈ ['\\', e] → 0x20 ≤ d.toNat := by
    intro e he hd
    rcases List.mem_cons.mp hd with rfl | hd
    · decide
    · rwa [List.mem_singleton.mp hd]
  rw [stringifyChar] at h
  split_ifs at h with _ _ _ _ _ _ _ hcontrol
  iterate 7 · exact hpair _ (by decide) h
  · have hdigit : ∀ n < 16, 0x20 ≤ (Nat.digitChar n).toNat := by decide
    rcases List.mem_append.mp h with h | h
    · exact (by simp : ∀ d ∈ "\\u00".toList, 0x20 ≤ d.toNat) d h
    · simp only [List.mem_cons, List.not_mem_nil, or_false] at h
      rcases h with rfl | rfl
      · exact hdigit _ (by omega)
      · exact hdigit _ (by omega)
  · rw [List.mem_singleton.mp h]
    omega

theorem Written.toNat_of_mem {s body : List Char} (h : Written s body) {d : Char} (hd : d ∈ body) :
    0x20 ≤ d.toNat := by
  induction h with
  | nil => cases hd
  | char c _ ih =>
    rcases List.mem_append.mp hd with hd | hd
    · exact toNat_of_mem_stringifyChar hd
    · exact ih hd
  | slash _ ih =>
    rcases List.mem_cons.mp hd with rfl | hd
    · decide
    rcases List.mem_cons.mp hd with rfl | hd
    · decide
    · exact ih hd

/-! ## Where the literal ends -/

section Ends

variable {text rest : List Char}

theorem quote_notMem_untilQuote (text : List Char) : '"' ∉ untilQuote text := by
  rw [untilQuote, cut]
  cases hsplit : splitOnce '"' text with
  | none =>
    intro hmem
    obtain ⟨front, back, htext, hfront⟩ := List.eq_append_cons_of_mem hmem
    rw [Text.splitOnce_eq_some.mpr ⟨htext, hfront⟩] at hsplit
    cases hsplit
  | some parts => exact (Text.splitOnce_eq_some.mp hsplit).2

theorem untilQuote_append (h : '"' ∉ text) (rest : List Char) :
    untilQuote (text ++ '"' :: rest) = text := by
  rw [untilQuote, cut, Text.splitOnce_eq_some.mpr ⟨rfl, h⟩]

theorem splitOnce_literal (body rest : List Char) :
    (∃ after, splitOnce '"' (body ++ '"' :: rest)
        = some (untilQuote (body ++ '"' :: rest), after)) ∧
      untilQuote (body ++ '"' :: rest) <+: body := by
  by_cases h : '"' ∈ body
  · obtain ⟨front, back, rfl, hfront⟩ := List.eq_append_cons_of_mem h
    rw [List.append_assoc, List.cons_append, untilQuote_append hfront,
      Text.splitOnce_eq_some.mpr ⟨rfl, hfront⟩]
    exact ⟨⟨_, rfl⟩, List.prefix_append _ _⟩
  · rw [untilQuote_append h, Text.splitOnce_eq_some.mpr ⟨rfl, h⟩]
    exact ⟨⟨_, rfl⟩, List.prefix_rfl⟩

/-- A literal does not begin with a quote. -/
theorem Written.not_prefix {s body : List Char} (h : Written s body) :
    ¬['"', ':'] <+: body ++ "\"\x7d".toList := by
  cases h with
  | nil => decide
  | char c h =>
    rw [stringifyChar]
    split_ifs <;> simp_all [List.cons_prefix_cons, eq_comm]
  | slash h => simp [List.cons_prefix_cons]

theorem not_infix_append {front : List Char} (hfront : 'r' ∉ front)
    (h : ¬['r', '"', ':'] <:+: rest) : ¬['r', '"', ':'] <:+: front ++ rest := by
  induction front with
  | nil => exact h
  | cons c front ih =>
    rw [List.mem_cons, not_or] at hfront
    rw [List.cons_append, List.infix_cons_iff, List.cons_prefix_cons, not_or]
    exact ⟨fun hc => hfront.1 hc.1, ih hfront.2⟩

theorem not_infix_cons {c : Char} (hnext : ¬['"', ':'] <+: rest)
    (h : ¬['r', '"', ':'] <:+: rest) : ¬['r', '"', ':'] <:+: c :: rest := by
  rw [List.infix_cons_iff, List.cons_prefix_cons, not_or]
  exact ⟨fun hc => hnext hc.2, h⟩

theorem r_notMem_stringifyChar {c : Char} (hreturn : c ≠ '\r') (hr : c ≠ 'r') :
    'r' ∉ stringifyChar c := by
  rw [stringifyChar]
  split_ifs
  iterate 6 · decide
  · have hdigit : ∀ n < 16, Nat.digitChar n ≠ 'r' := by decide
    have hhigh := hdigit (c.toNat / 16) (by omega)
    have hlow := hdigit (c.toNat % 16) (by omega)
    simp [Ne.symm hhigh, Ne.symm hlow]
  · simpa using Ne.symm hr

/-- A quote in a literal stands behind a backslash, so no member begins there. -/
theorem Written.not_infix {s body : List Char} (h : Written s body) :
    ¬['r', '"', ':'] <:+: body ++ "\"\x7d".toList := by
  induction h with
  | nil => decide
  | @char c s body h ih =>
    rw [List.append_assoc]
    by_cases hreturn : c = '\r'
    · subst hreturn
      change ¬['r', '"', ':'] <:+: ['\\'] ++ 'r' :: (body ++ _)
      exact not_infix_append (by decide) (not_infix_cons h.not_prefix ih)
    by_cases hr : c = 'r'
    · subst hr
      change ¬['r', '"', ':'] <:+: 'r' :: (body ++ _)
      exact not_infix_cons h.not_prefix ih
    · exact not_infix_append (r_notMem_stringifyChar hreturn hr) ih
  | slash h ih =>
    change ¬['r', '"', ':'] <:+: ['\\', '/'] ++ _
    exact not_infix_append (by decide) ih

theorem Written.no_error {s body : List Char} (h : Written s body) :
    splitOnceText "\"error\":\"".toList (signedReply body) = none := by
  refine Text.splitOnceText_eq_none fun hwithin => ?_
  have hpart : ['r', '"', ':'] <:+: "\"error\":\"".toList :=
    ⟨"\"erro".toList, ['"'], by decide⟩
  have hfront : 'r' ∉ "\x7b\"signed\":\"".toList := by decide
  exact not_infix_append hfront h.not_infix (hpart.trans hwithin)

end Ends

/-! ## The two replies -/

section Replies

variable {s body : List Char}

theorem readError_errorReply (body : List Char) :
    readError (errorReply body) = .error (unescape (untilQuote (body ++ "\"\x7d".toList))) := by
  rfl

theorem read_errorReply (body : List Char) :
    read (errorReply body) = .error (unescape (untilQuote (body ++ "\"\x7d".toList))) := by
  rfl

theorem read_signedReply (h : Written s body) :
    read (signedReply body)
      = if unescape (untilQuote (body ++ "\"\x7d".toList)) = [] ∨
            unescape (untilQuote (body ++ "\"\x7d".toList)) = "null".toList then
          .error "the signer produced no URL".toList
        else .ok (unescape (untilQuote (body ++ "\"\x7d".toList))) := by
  obtain ⟨⟨after, hsplit⟩, -⟩ := splitOnce_literal body ['\x7d']
  have hsigned : splitOnceText "\"signed\":\"".toList (signedReply body)
      = some (['\x7b'], body ++ "\"\x7d".toList) := rfl
  change splitOnce '"' (body ++ "\"\x7d".toList) = _ at hsplit
  rw [read, h.no_error, hsigned]
  simp only [hsplit]
  rfl

end Replies

/-- No quote, no control character, and nowhere `u0026` behind a backslash. -/
structure Exact (s : List Char) : Prop extends Easy s where
  escape : ¬ "\\u0026".toList <:+: s

theorem Written.unescape_eq_iff {s body : List Char} (h : Written s body) :
    unescape (untilQuote (body ++ "\"\x7d".toList)) = s ↔ Exact s := by
  obtain ⟨-, hstart⟩ := splitOnce_literal body ['\x7d']
  constructor
  · intro heq
    have hquote : '"' ∉ s := by
      rw [← heq]
      exact quote_notMem_unescape (quote_notMem_untilQuote _)
    have hcontrol : ∀ c ∈ s, 0x20 ≤ c.toNat := by
      intro c hc
      rw [← heq] at hc
      rcases mem_of_mem_unescape hc with hc | hc
      · exact h.toNat_of_mem (hstart.subset hc)
      · exact (by simp : ∀ c ∈ ['/', '&', '"', '\\'], 0x20 ≤ c.toNat) c hc
    have hspelled := h.spelled ⟨hquote, hcontrol⟩
    refine ⟨⟨hquote, hcontrol⟩, fun hescape => hspelled.unescape_ne hescape ?_⟩
    rwa [show body ++ "\"\x7d".toList = body ++ '"' :: ['\x7d'] from rfl,
      untilQuote_append (hspelled.quote_notMem hquote)] at heq
  · intro hexact
    have hspelled := h.spelled hexact.toEasy
    rw [show body ++ "\"\x7d".toList = body ++ '"' :: ['\x7d'] from rfl,
      untilQuote_append (hspelled.quote_notMem hexact.quote)]
    exact hspelled.unescape_eq hexact.quote hexact.escape

/-- Both replies are read back exactly where the text is exact. -/
theorem read_iff {s body : List Char} (hne : s ≠ []) (hnull : s ≠ "null".toList)
    (h : Written s body) :
    (read (signedReply body) = .ok s ∧ read (errorReply body) = .error s) ↔ Exact s := by
  rw [read_signedReply h, read_errorReply]
  constructor
  · rintro ⟨-, herror⟩
    exact h.unescape_eq_iff.mp (Except.error.inj herror)
  · intro hexact
    rw [h.unescape_eq_iff.mpr hexact, if_neg (not_or.mpr ⟨hne, hnull⟩)]
    exact ⟨rfl, rfl⟩

theorem read_slash :
    read (signedReply "a\\/b".toList) = .ok "a/b".toList ∧
      read (errorReply "a\\/b".toList) = .error "a/b".toList :=
  have hwritten : Written "a/b".toList "a\\/b".toList := .char 'a' (.slash (.char 'b' .nil))
  (read_iff (by decide) (by decide) hwritten).mpr
    { quote := by decide
      control := by simp
      escape := by decide }

/-- An error that quotes a name is cut at the quote. -/
theorem read_quote :
    Written "no \"msToken\"".toList (stringify "no \"msToken\"".toList) ∧
      read (errorReply (stringify "no \"msToken\"".toList)) = .error "no \\".toList ∧
      "no \\".toList ≠ "no \"msToken\"".toList :=
  ⟨written_stringify _, by decide +kernel, by decide⟩

end TiktokSigner.SignEmbedded
