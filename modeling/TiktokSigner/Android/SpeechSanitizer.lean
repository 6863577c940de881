import TiktokSigner.Android.KotlinText

/-!
# `TikTokSpeechSanitizer`

How a comment is prepared for speech: confirmed emotes and emoji are taken out,
and white space is collapsed, each where the settings ask for it. The cursors of
the source go through UTF-16 units and read code points; here a cursor is the
text behind it. `lowercase` is that of the platform.
-/

namespace TiktokSigner.Android.SpeechSanitizer

open Text

/-- The settings that `sanitize` reads. -/
structure SanitizerSettings where
  removeConfirmedEmotes : Bool := true
  removeUnicodeEmoji : Bool := false
  collapseWhitespace : Bool := true
deriving DecidableEq

/-! ## Code points at a cursor -/

/-- `codePointAt`; a surrogate that is not part of a pair is its own code point. -/
def codePointAt : List UInt16 → ℕ
  | [] => 0
  | [u] => u.toNat
  | u :: v :: _ =>
      if isHighSurrogate u && isLowSurrogate v then
        (u.toNat - 0xd800) * 0x400 + (v.toNat - 0xdc00) + 0x10000
      else u.toNat

/-- `Character.charCount`. -/
def charCount (codePoint : ℕ) : ℕ := if 0x10000 ≤ codePoint then 2 else 1

/-- The cursor behind the code point. -/
def next (text : List UInt16) : List UInt16 := text.drop (charCount (codePointAt text))

/-- `cursor < text.length`, and then a code point there. -/
def isAt (p : ℕ → Bool) (text : List UInt16) : Bool := !text.isEmpty && p (codePointAt text)

theorem length_next_lt {text : List UInt16} (h : text ≠ []) : (next text).length < text.length := by
  have hpos := List.length_pos_iff.mpr h
  rw [next, List.length_drop, charCount]
  split_ifs <;> omega

def isEmojiBase (codePoint : ℕ) : Bool :=
  (0x1f000 ≤ codePoint && codePoint ≤ 0x1faff) || (0x2600 ≤ codePoint && codePoint ≤ 0x27bf) ||
    (0x2b00 ≤ codePoint && codePoint ≤ 0x2bff) || (0xfe00 ≤ codePoint && codePoint ≤ 0xfe0f) ||
    (0xe0100 ≤ codePoint && codePoint ≤ 0xe01ef)

def isRegionalIndicator (codePoint : ℕ) : Bool := 0x1f1e6 ≤ codePoint && codePoint ≤ 0x1f1ff

def isSkinTone (codePoint : ℕ) : Bool := 0x1f3fb ≤ codePoint && codePoint ≤ 0x1f3ff

def isVariationSelector (codePoint : ℕ) : Bool :=
  (0xfe00 ≤ codePoint && codePoint ≤ 0xfe0f) || (0xe0100 ≤ codePoint && codePoint ≤ 0xe01ef)

def isKeycapBase (codePoint : ℕ) : Bool :=
  (0x30 ≤ codePoint && codePoint ≤ 0x39) || codePoint == 0x23 || codePoint == 0x2a

/-! ## `removeEmoji` -/

/-- `if (cursor < text.length && text.codePointAt(cursor) == mark) cursor += 1`. -/
def skipMark (mark : ℕ) (cursor : List UInt16) : List UInt16 :=
  if isAt (· == mark) cursor then cursor.drop 1 else cursor

/-- A digit, `#` or `*` followed by an optional `FE0F` and a combining enclosing keycap. -/
def isKeycapSequenceAt (text : List UInt16) : Bool :=
  isKeycapBase (codePointAt text) && isAt (· == 0x20e3) (skipMark 0xfe0f (next text))

def consumeKeycap (text : List UInt16) : List UInt16 :=
  skipMark 0x20e3 (skipMark 0xfe0f (text.drop 1))

/-- The loop of `consumeEmojiCluster`. -/
def clusterTail : List UInt16 → List UInt16
  | [] => []
  | u :: rest =>
      let codePoint := codePointAt (u :: rest)
      if isSkinTone codePoint || isVariationSelector codePoint || codePoint == 0x20e3 then
        clusterTail (next (u :: rest))
      else if codePoint == 0x200d then
        if isAt isEmojiBase rest then clusterTail (next rest) else u :: rest
      else u :: rest
termination_by text => text.length
decreasing_by
  · exact length_next_lt (List.cons_ne_nil _ _)
  · rw [next, List.length_drop, List.length_cons]
    omega

/-- Consumes one emoji base plus its modifiers, regional-indicator pair and ZWJ continuations. -/
def consumeEmojiCluster (text : List UInt16) : List UInt16 :=
  let cursor := next text
  clusterTail <|
    if isRegionalIndicator (codePointAt text) && isAt isRegionalIndicator cursor then next cursor
    else cursor

theorem length_clusterTail_le (text : List UInt16) : (clusterTail text).length ≤ text.length := by
  fun_induction clusterTail text with
  | case1 => exact le_rfl
  | case2 u rest codePoint h ih => exact ih.trans (length_next_lt (List.cons_ne_nil _ _)).le
  | case3 u rest codePoint h h' hnext ih =>
    refine ih.trans ?_
    rw [next, List.length_drop, List.length_cons]
    omega
  | case4 => exact le_rfl
  | case5 => exact le_rfl

theorem length_skipMark_le (mark : ℕ) (cursor : List UInt16) :
    (skipMark mark cursor).length ≤ cursor.length := by
  rw [skipMark]
  split_ifs
  · exact (List.drop_sublist _ _).length_le
  · exact le_rfl

theorem length_consumeKeycap_lt {text : List UInt16} (h : text ≠ []) :
    (consumeKeycap text).length < text.length := by
  have hpos := List.length_pos_iff.mpr h
  have hselector := length_skipMark_le 0xfe0f (text.drop 1)
  have hkeycap := length_skipMark_le 0x20e3 (skipMark 0xfe0f (text.drop 1))
  rw [List.length_drop] at hselector
  rw [consumeKeycap]
  omega

theorem length_consumeEmojiCluster_lt {text : List UInt16} (h : text ≠ []) :
    (consumeEmojiCluster text).length < text.length := by
  have hnext := length_next_lt h
  have hpair : (next (next text)).length ≤ (next text).length :=
    (List.drop_sublist _ _).length_le
  rw [consumeEmojiCluster]
  refine (length_clusterTail_le _).trans_lt ?_
  split_ifs <;> omega

/-- Removes whole emoji sequences, not lone code points. -/
def removeEmoji : List UInt16 → List UInt16
  | [] => []
  | u :: rest =>
      if isKeycapSequenceAt (u :: rest) then removeEmoji (consumeKeycap (u :: rest))
      else if isEmojiBase (codePointAt (u :: rest)) then
        removeEmoji (consumeEmojiCluster (u :: rest))
      else
        (u :: rest).take (charCount (codePointAt (u :: rest))) ++ removeEmoji (next (u :: rest))
termination_by text => text.length
decreasing_by
  · exact length_consumeKeycap_lt (List.cons_ne_nil _ _)
  · exact length_consumeEmojiCluster_lt (List.cons_ne_nil _ _)
  · exact length_next_lt (List.cons_ne_nil _ _)

/-! ## The other two cleanups -/

section

variable (lowercase : List UInt16 → List UInt16)

/-- The name in a match of `\[([^\[\]]{1,64})\]`. -/
def tokenAt (text : List UInt16) : Option (List UInt16) :=
  match text with
  | [] => none
  | u :: rest =>
      if u = unit '[' then
        let name := rest.takeWhile fun v => v ≠ unit '[' && v ≠ unit ']'
        match rest.drop name.length with
        | v :: _ =>
            if v = unit ']' ∧ name ≠ [] ∧ codePointLength name ≤ 64 then some name else none
        | [] => none
      else none

/-- `TOKEN.replace`: the first argument counts what is left of a removed token. -/
def removeTokens (confirmed : List (List UInt16)) : ℕ → List UInt16 → List UInt16
  | _, [] => []
  | skip + 1, _ :: rest => removeTokens confirmed skip rest
  | 0, u :: rest =>
      match tokenAt (u :: rest) with
      | some name =>
          if lowercase (trim isWhitespaceUnit name) ∈ confirmed then
            removeTokens confirmed (name.length + 1) rest
          else u :: removeTokens confirmed 0 rest
      | none => u :: removeTokens confirmed 0 rest

def removeConfirmedEmotes (text : List UInt16) (confirmedShortcodes : List (List UInt16)) :
    List UInt16 :=
  if unit '[' ∈ text then
    removeTokens lowercase (confirmedShortcodes.map fun c => lowercase (trim isWhitespaceUnit c))
      0 text
  else text

/-- The loop of `collapseWhitespace`. -/
def collapseFrom (started pendingSpace : Bool) : List UInt16 → List UInt16
  | [] => []
  | u :: rest =>
      if isWhitespaceUnit u then collapseFrom started (pendingSpace || started) rest
      else (if pendingSpace then [unit ' '] else []) ++ u :: collapseFrom true false rest

def collapseWhitespace (text : List UInt16) : List UInt16 := collapseFrom false false text

def sanitize (text : List UInt16) (settings : SanitizerSettings)
    (confirmedShortcodes : List (List UInt16)) : List UInt16 :=
  let result :=
    if settings.removeConfirmedEmotes && !confirmedShortcodes.isEmpty then
      removeConfirmedEmotes lowercase text confirmedShortcodes
    else text
  let result := if settings.removeUnicodeEmoji then removeEmoji result else result
  if settings.collapseWhitespace then collapseWhitespace result else result

end

end TiktokSigner.Android.SpeechSanitizer
