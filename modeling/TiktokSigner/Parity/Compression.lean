import TiktokSigner.LiveWs.Connection

/-!
# Three clients, one `compress_type`

The Rust, TypeScript and Java clients each look in the headers of a push
frame before they hand its payload to the batch decoder. Rust and
TypeScript take the first `compress_type` header; Java asks whether any of
them says `gzip`.

The gzip codecs are parameters; what a client does with the payload around
the choice (its size limits) is kept as the source has it.
-/

namespace TiktokSigner.Parity

open LiveWs LiveConnection

def gzip : String × String := ("compress_type", "gzip")

/-! ## Rust -/

namespace Rust

/-- The `Some("gzip")` arm of `handle_frame`. -/
def gunzips (frame : PushFrame) : Bool := frame.compressType == some "gzip"

theorem framePayload_eq (codec : Codec) (frame : PushFrame) :
    framePayload codec frame =
      if gunzips frame then gunzip codec frame.payload else .ok frame.payload := by
  unfold framePayload gunzips
  split
  case h_4 heq => rw [heq, if_pos (by simp)]
  case h_1 heq | h_2 heq | h_3 heq => rw [heq, if_neg (by simp)]
  case h_5 hgzip heq => rw [heq, if_neg (by simpa using hgzip)]

end Rust

/-! ## TypeScript -/

namespace TypeScript

def compressTypeHeader : String := "compress_type"
def maxFrameBytes : Nat := 16 * 1024 * 1024
def maxBatchBytes : Nat := 16 * 1024 * 1024

def bounded (input : Bytes) (limit : Nat) (kind : String) : Except String Bytes :=
  if limit < input.length then .error s!"{kind} exceeds {limit} bytes" else .ok input

/-- Read the compression header. -/
def frameCompressType (frame : PushFrame) : String :=
  ((frame.headers.find? fun entry => entry.1 == compressTypeHeader).map (·.2)).getD ""

def gunzips (frame : PushFrame) : Bool := frameCompressType frame == "gzip"

/-- Decompress a frame's payload according to its own header. -/
def decompress (gunzipSync : (maxOutputLength : Nat) → Bytes → Except String Bytes)
    (frame : PushFrame) : Except String Bytes := do
  let payload ← bounded frame.payload maxFrameBytes "compressed payload"
  if gunzips frame then gunzipSync maxBatchBytes payload
  else bounded payload maxBatchBytes "batch"

end TypeScript

/-! ## Java -/

namespace Java

def gunzips (frame : PushFrame) : Bool :=
  frame.headers.any fun h => h.1 == "compress_type" && h.2 == "gzip"

/-- The data that `Protocol.batch` parses. -/
def batchData (readNBytes : Nat → Bytes → Except String Bytes) (frame : PushFrame) :
    Except String Bytes := do
  if 16 * 1024 * 1024 < frame.payload.length then throw "Batch too large"
  if gunzips frame then
    let data ← readNBytes (16 * 1024 * 1024 + 1) frame.payload
    if 16 * 1024 * 1024 < data.length then throw "Decompressed batch too large"
    pure data
  else pure frame.payload

end Java

/-! ## Where they part -/

/-- A `compress_type` header with another value comes first, and a later
one says `gzip`. -/
def Overruled (headers : List (String × String)) : Prop :=
  ∃ before value after, headers = before ++ ("compress_type", value) :: after ∧
    (∀ header ∈ before, header.1 ≠ "compress_type") ∧ value ≠ "gzip" ∧ gzip ∈ after

theorem typeScript_gunzips_eq (frame : PushFrame) :
    TypeScript.gunzips frame = Rust.gunzips frame := by
  unfold TypeScript.gunzips TypeScript.frameCompressType Rust.gunzips PushFrame.compressType
    TypeScript.compressTypeHeader
  cases (frame.headers.find? fun entry => entry.1 == "compress_type") with
  | none => rfl
  | some entry => simp

theorem java_gunzips_iff (frame : PushFrame) : Java.gunzips frame ↔ gzip ∈ frame.headers := by
  unfold Java.gunzips gzip
  rw [List.any_eq_true]
  constructor
  · rintro ⟨⟨key, value⟩, hmem, hentry⟩
    simp only [Bool.and_eq_true, beq_iff_eq] at hentry
    obtain ⟨rfl, rfl⟩ := hentry
    exact hmem
  · intro hmem
    exact ⟨_, hmem, by simp⟩

theorem compressType_eq_some_iff (frame : PushFrame) (value : String) :
    frame.compressType = some value ↔
      ∃ before after, frame.headers = before ++ ("compress_type", value) :: after ∧
        ∀ header ∈ before, header.1 ≠ "compress_type" := by
  unfold PushFrame.compressType
  rw [Option.map_eq_some_iff]
  constructor
  · rintro ⟨⟨key, value⟩, hfind, rfl⟩
    obtain ⟨hkey, before, after, hheaders, hbefore⟩ := List.find?_eq_some_iff_append.mp hfind
    simp only [beq_iff_eq] at hkey
    subst hkey
    exact ⟨before, after, hheaders, by simpa using hbefore⟩
  · rintro ⟨before, after, hheaders, hbefore⟩
    refine ⟨("compress_type", value), ?_, rfl⟩
    exact List.find?_eq_some_iff_append.mpr
      ⟨by simp, before, after, hheaders, by simpa using hbefore⟩

theorem compressType_eq_none_iff (frame : PushFrame) :
    frame.compressType = none ↔ ∀ header ∈ frame.headers, header.1 ≠ "compress_type" := by
  simp [PushFrame.compressType]

/-- Java goes its own way exactly on an overruled header. -/
theorem java_parts_iff (frame : PushFrame) :
    Java.gunzips frame = Rust.gunzips frame ↔ ¬Overruled frame.headers := by
  have hjava := java_gunzips_iff frame
  unfold Rust.gunzips
  cases htype : frame.compressType with
  | none =>
    have hnone := (compressType_eq_none_iff frame).mp htype
    have hno : gzip ∉ frame.headers := fun hmem => hnone _ hmem rfl
    constructor
    · rintro - ⟨before, value, after, hheaders, -, -, -⟩
      exact hnone ("compress_type", value) (by simp [hheaders]) rfl
    · intro _
      simpa [hno] using hjava
  | some value =>
    obtain ⟨before, after, hheaders, hbefore⟩ := (compressType_eq_some_iff frame value).mp htype
    by_cases hvalue : value = "gzip"
    · subst hvalue
      have hmem : gzip ∈ frame.headers := by simp [hheaders, gzip]
      constructor
      · rintro - ⟨before', value', after', hheaders', hbefore', hvalue', -⟩
        have hfirst :=
          (compressType_eq_some_iff frame value').mpr ⟨before', after', hheaders', hbefore'⟩
        rw [htype, Option.some.injEq] at hfirst
        exact hvalue' hfirst.symm
      · intro _
        simpa [hmem] using hjava
    · have hafter : gzip ∈ frame.headers ↔ gzip ∈ after := by
        have hnot : ("compress_type", "gzip") ∉ before := fun hmem => hbefore _ hmem rfl
        simp [hheaders, hnot, gzip, Ne.symm hvalue]
      constructor
      · rintro heq ⟨before', value', after', hheaders', hbefore', -, hgzip⟩
        have hmem : gzip ∈ frame.headers := by simp [hheaders', hgzip]
        rw [hjava.mpr hmem] at heq
        simp [hvalue] at heq
      · intro hnot
        have hno : gzip ∉ frame.headers := fun hmem =>
          hnot ⟨before, value, after, hheaders, hbefore, hvalue, hafter.mp hmem⟩
        have hother : (some value == some "gzip") = false := by simpa using hvalue
        rw [hother, Bool.eq_false_iff, ne_eq, hjava]
        exact hno

/-- The three clients choose alike unless a header is overruled. -/
theorem compression_choice_agrees_iff (frame : PushFrame) :
    (TypeScript.gunzips frame = Rust.gunzips frame ∧
        Java.gunzips frame = Rust.gunzips frame) ↔
      ¬Overruled frame.headers := by
  rw [java_parts_iff]
  exact and_iff_right (typeScript_gunzips_eq frame)

def secondHeader : PushFrame :=
  { headers := [("compress_type", "none"), ("compress_type", "gzip")], payloadType := "msg" }

theorem secondHeader_parts :
    ¬(TypeScript.gunzips secondHeader = Rust.gunzips secondHeader ∧
      Java.gunzips secondHeader = Rust.gunzips secondHeader) := by
  rintro ⟨-, hjava⟩
  have hno := (java_parts_iff _).mp hjava
  exact hno ⟨[], "none", [gzip], rfl, by simp, by simp, by simp⟩

end TiktokSigner.Parity
