import TiktokSigner.LiveEvents.Preflight

/-!
# The two walks over an event payload

`decode_object` reads with `Cursor`, `preflight_event` with `Reader`. The
readers differ on three encodings only, which `Reader` takes and `Cursor`
refuses (`looseField`): a ten-byte varint whose last byte exceeds 1, as a
tag, as a length or as a value, and a tag whose field number does not fit
32 bits. `Cursor.head_eq_field_iff` says so.

`eventEncoding` tells from the bytes what comes first in a payload, a loose
field or something malformed, and `Agree` carries it through both
recursions: before the first loose field the walks meet the same things,
and there one of them stops and the other goes on.
-/

namespace TiktokSigner.LiveEvents

open LiveProto

/-! ## Loose encodings -/

/-- The numeral ahead ends at its digit 9 counted from `i`, above 1. -/
def looseFrom (i : Nat) (bytes : Bytes) : Bool :=
  match Base128.split bytes with
  | some (digits, _) => decide (digits.length + i = 10) && digits.getLast?.any (1 < ·)
  | none => false

/-- A ten-byte varint whose last byte exceeds 1. -/
def looseVarint (bytes : Bytes) : Bool := looseFrom 0 bytes

/-- A value starts with a varint when its wire type is 0 or 2. -/
def looseValue (wire : UInt8) (bytes : Bytes) : Bool :=
  (wire.toNat == 0 || wire.toNat == 2) && looseVarint bytes

/-- A field that only `Reader` takes. -/
def looseField (start : Bytes) : Bool :=
  match Reader.varint start with
  | .ok (tag, rest) =>
      looseVarint start || decide (2 ^ 32 ≤ (tag >>> 3).toNat) ||
        looseValue (tag &&& 7).toUInt8 rest
  | .error _ => false

theorem looseFrom_cons_last {b : UInt8} (bytes : Bytes) (i : Nat) (hb : b.toNat < 128) :
    looseFrom i (b :: bytes) = (decide (i = 9) && decide (1 < b)) := by
  rw [looseFrom, Base128.split_cons_last bytes hb]
  simp [show 1 + i = 10 ↔ i = 9 by omega]

theorem looseFrom_cons_more {b : UInt8} (bytes : Bytes) (i : Nat) (hb : ¬b.toNat < 128) :
    looseFrom i (b :: bytes) = looseFrom (i + 1) bytes := by
  rw [looseFrom, looseFrom, Base128.split_cons_more bytes hb]
  cases hsplit : Base128.split bytes with
  | none => rfl
  | some p =>
      obtain ⟨d, digits, hdigits⟩ := List.exists_cons_of_ne_nil (Base128.split_ne_nil hsplit)
      have hlength : digits.length + 1 + 1 + i = 10 ↔ digits.length + 1 + (i + 1) = 10 := by omega
      simp [hdigits, hlength]

namespace Cursor

/-- The loops differ at the tenth byte only. -/
theorem varintLoop_eq_ok_iff : ∀ (bytes : Bytes) {acc v : UInt64} {i : Nat} {rest : Bytes}, i ≤ 9 →
    (varintLoop acc i bytes = (.ok v, rest) ↔
      Reader.varintLoop bytes acc (i * 7) = .ok (v, rest) ∧ looseFrom i bytes = false)
  | [], _, _, _, _, _ => by simp [varintLoop, Reader.varintLoop]
  | b :: bytes, acc, v, i, rest, hi => by
      have hlast : b < 128 ↔ b.toNat < 128 := Iff.rfl
      have hand : b &&& 0x80 = 0 ↔ b.toNat < 128 := Reader.and_80_eq_zero b
      rw [varintLoop, Reader.varintLoop, if_neg (show ¬i * 7 ≥ 64 by omega)]
      by_cases hb : b.toNat < 128
      · rw [looseFrom_cons_last bytes i hb, if_pos (hlast.mpr hb), if_pos (hand.mpr hb)]
        by_cases hover : i = 9 ∧ b > 1
        · simp [hover]
        · rw [if_neg hover, Prod.mk.injEq, Except.ok.injEq, Except.ok.injEq, Prod.mk.injEq]
          have hdigit : (decide (i = 9) && decide (1 < b)) = false := by simpa using hover
          simp only [hdigit, and_true]
      · rw [looseFrom_cons_more bytes i hb, if_neg (hlast.not.mpr hb), if_neg (hand.not.mpr hb)]
        by_cases hnine : i = 9
        · subst hnine
          have hbig : b > 1 :=
            UInt8.lt_iff_toNat_lt.mpr (Nat.lt_of_lt_of_le (by decide) (Nat.not_lt.mp hb))
          rw [if_pos ⟨rfl, hbig⟩]
          cases bytes <;> simp [Reader.varintLoop]
        · rw [if_neg (by simp [hnine]), varintLoop_eq_ok_iff bytes (by omega),
            show (i + 1) * 7 = i * 7 + 7 by omega]

theorem varint_eq_ok_iff {bytes rest : Bytes} {v : UInt64} :
    varint bytes = (.ok v, rest) ↔
      Reader.varint bytes = .ok (v, rest) ∧ looseVarint bytes = false := by
  have h : varintLoop 0 0 bytes = (.ok v, rest) ↔
      Reader.varintLoop bytes 0 (0 * 7) = .ok (v, rest) ∧ looseFrom 0 bytes = false :=
    varintLoop_eq_ok_iff bytes (by omega)
  rwa [Nat.zero_mul] at h

theorem take_eq_ok_iff {n : Nat} {bytes b rest : Bytes} :
    take n bytes = (.ok b, rest) ↔ Reader.take n bytes = .ok (b, rest) := by
  rw [take, Reader.take]
  split <;> simp

/-- Two sequences of reads agree where their parts do. -/
theorem andThen_iff_bind {α β : Type} {P : Prop} {read : Except ProtoError α × Bytes}
    {read' : Except ProtoError (α × Bytes)} {next : α → Bytes → Except ProtoError β × Bytes}
    {next' : α × Bytes → Except ProtoError (β × Bytes)} {b : β} {rest : Bytes}
    (hread : ∀ a r, read = (.ok a, r) ↔ read' = .ok (a, r) ∧ P)
    (hnext : ∀ a r, next a r = (.ok b, rest) ↔ next' (a, r) = .ok (b, rest)) :
    andThen read next = (.ok b, rest) ↔ (read' >>= next') = .ok (b, rest) ∧ P := by
  rw [andThen_eq_ok, bind_eq_ok]
  constructor
  · rintro ⟨a, r, hr, hn⟩
    exact ⟨⟨(a, r), ((hread a r).mp hr).1, (hnext a r).mp hn⟩, ((hread a r).mp hr).2⟩
  · rintro ⟨⟨⟨a, r⟩, hr, hn⟩, hP⟩
    exact ⟨a, r, (hread a r).mpr ⟨hr, hP⟩, (hnext a r).mpr hn⟩

theorem value_eq_ok_iff {wire : UInt8} {bytes rest : Bytes} {v : RawProtoValue} :
    value wire bytes = (.ok v, rest) ↔
      Reader.value wire bytes = .ok (v, rest) ∧ looseValue wire bytes = false := by
  have htake : ∀ (n : Nat) (bs : Bytes) (b r : Bytes),
      take n bs = (.ok b, r) ↔ Reader.take n bs = .ok (b, r) ∧ True := fun n bs b r => by
    rw [take_eq_ok_iff, and_true]
  rw [value, Reader.value, looseValue]
  split
  case h_1 hwire =>
    simp only [hwire]
    exact andThen_iff_bind (fun _ _ => varint_eq_ok_iff)
      (fun a r => by simp [pure, Except.pure])
  case h_2 hwire | h_3 hwire =>
    simp only [hwire]
    exact andThen_iff_bind (P := (false && looseVarint bytes) = false)
      (fun a r => by rw [take_eq_ok_iff]; simp) (fun a r => by simp [pure, Except.pure])
  case h_4 hwire =>
    simp only [hwire]
    refine andThen_iff_bind (fun _ _ => varint_eq_ok_iff) (fun n r => ?_)
    change _ ↔ (Reader.take n.toNat r >>= fun p => pure (WireValue.bytes p.1, p.2)) = _
    exact (andThen_iff_bind (htake n.toNat r) fun b r' => by simp [pure, Except.pure]).trans
      (and_iff_left trivial)
  case h_5 h0 h1 h5 h2 =>
    have hreader : Reader.value wire bytes = .error (.unsupportedWireType wire) := by
      rw [Reader.value]
      split <;> first | contradiction | rfl
    rw [← Reader.value, hreader]
    simp

/-- The wire type of a tag is the one its value shows. -/
theorem value_wireType {wire : UInt8} {bytes rest : Bytes} {v : RawProtoValue}
    (h : value wire bytes = (.ok v, rest)) : wire = v.wireType := by
  rw [value] at h
  split at h
  case h_1 hwire | h_2 hwire | h_3 hwire =>
    obtain ⟨a, r, -, hv⟩ := andThen_eq_ok.mp h
    simp only [Prod.mk.injEq, Except.ok.injEq] at hv
    exact UInt8.toNat_inj.mp (by rw [hwire, ← hv.1]; rfl)
  case h_4 hwire =>
    obtain ⟨n, r, -, hbytes⟩ := andThen_eq_ok.mp h
    obtain ⟨b, r', -, hv⟩ := andThen_eq_ok.mp hbytes
    simp only [Prod.mk.injEq, Except.ok.injEq] at hv
    exact UInt8.toNat_inj.mp (by rw [hwire, ← hv.1]; rfl)
  case h_5 => simp at h

/-- `decode_object` reads a field where `Reader` does, with a field number
in range, unless the encoding is loose. -/
theorem head_eq_field_iff {bytes rest : Bytes} {number : UInt32} {wire : UInt8}
    {v : RawProtoValue} :
    head bytes = .field number wire v rest ↔
      (Reader.readField bytes = .ok ((number, v), rest) ∧
        0 < number.toNat ∧ number.toNat ≤ maxFieldNumber) ∧
      wire = v.wireType ∧ looseField bytes = false := by
  have hmax : maxFieldNumber < 2 ^ 32 := by decide
  constructor
  · intro h
    rw [head] at h
    split at h
    case h_1 => cases h
    case h_2 tag r hvarint =>
      split_ifs at h with hrange
      dsimp only at h
      split at h
      case h_1 => cases h
      case h_2 v' rest' hvalue =>
        simp only [Head.field.injEq] at h
        obtain ⟨rfl, rfl, rfl, rfl⟩ := h
        obtain ⟨htag, htagstrict⟩ := varint_eq_ok_iff.mp hvarint
        obtain ⟨hread, hstrict⟩ := value_eq_ok_iff.mp hvalue
        have hnumber : (tag >>> 3).toUInt32.toNat = (tag >>> 3).toNat := by
          rw [UInt64.toNat_toUInt32, Nat.mod_eq_of_lt (by omega)]
        refine ⟨⟨?_, by omega, by omega⟩, value_wireType hvalue, ?_⟩
        · exact bind_eq_ok.mpr ⟨(tag, r), htag, bind_eq_ok.mpr ⟨(v', rest'), hread, rfl⟩⟩
        · have hsmall : ¬2 ^ 32 ≤ (tag >>> 3).toNat := by omega
          simp only [looseField, htag, htagstrict, hstrict, hsmall, decide_false, Bool.or_false]
  · rintro ⟨⟨hfield, hpos, hle⟩, rfl, hstrict⟩
    obtain ⟨⟨tag, r⟩, htag, hrest⟩ := bind_eq_ok.mp hfield
    obtain ⟨⟨v', rest'⟩, hread, hf⟩ := bind_eq_ok.mp hrest
    simp only [pure, Except.pure, Except.ok.injEq, Prod.mk.injEq] at hf
    obtain ⟨⟨rfl, rfl⟩, rfl⟩ := hf
    simp only [looseField, htag, Bool.or_eq_false_iff, decide_eq_false_iff_not, not_le] at hstrict
    obtain ⟨⟨htagstrict, hsmall⟩, hvaluestrict⟩ := hstrict
    have hnumber : (tag >>> 3).toUInt32.toNat = (tag >>> 3).toNat := by
      rw [UInt64.toNat_toUInt32, Nat.mod_eq_of_lt hsmall]
    have hvalue := value_eq_ok_iff.mpr ⟨hread, hvaluestrict⟩
    rw [head, varint_eq_ok_iff.mpr ⟨htag, htagstrict⟩]
    simp only
    rw [if_pos ⟨by omega, by omega⟩, hvalue, value_wireType hvalue]

end Cursor

/-! ## The first flaw of a payload -/

/-- What comes first on the wire that is not strictly encoded. -/
inductive Encoding where
  | strict
  | malformed
  | loose
deriving DecidableEq

/-- The first flaw of two parts. -/
def Encoding.andThen : Encoding → Encoding → Encoding
  | .strict, next => next
  | .malformed, _ => .malformed
  | .loose, _ => .loose

def packedEncoding (elementWire : UInt8) (b : Bytes) : Encoding :=
  if b = [] then .strict
  else
    match _ : Cursor.value elementWire b with
    | (.ok _, rest) => packedEncoding elementWire rest
    | (.error _, _) => .malformed
termination_by b.length
decreasing_by exact (Cursor.value_length (by assumption)).1

abbrev NestedEncoding := Option MessageSchema → Bytes → Encoding

section

variable (registry : Registry)

/-- The content of a field: elements or a nested message. -/
def contentEncoding (nested : Option NestedEncoding) (d : Option FieldSchema)
    (value : WireValue) : Encoding :=
  match packedField d value with
  | some (_, elementWire, b) => packedEncoding elementWire b
  | none =>
      match value, d.map FieldSchema.kind, nested with
      | .bytes b, some (.message name), some encoding => encoding (registry.schemaByName name) b
      | _, _, _ => .strict

def loopEncoding (nested : Option NestedEncoding) (schema : Option MessageSchema)
    (payload : Bytes) : Encoding :=
  if payload = [] then .strict
  else
    match _ : Reader.readField payload with
    | .error _ => .malformed
    | .ok ((number, value), rest) =>
        if number.toNat = 0 ∨ maxFieldNumber < number.toNat then .malformed
        else if looseField payload then .loose
        else
          (contentEncoding registry nested (schema.bind (·.field number)) value).andThen
            (loopEncoding nested schema rest)
termination_by payload.length
decreasing_by exact Reader.readField_length (by assumption)

def messageEncoding (depth : Nat) : NestedEncoding := fun schema payload =>
  let nested : Option NestedEncoding :=
    if depth < maxSchemaDepth then some (messageEncoding (depth + 1)) else none
  loopEncoding registry nested schema payload
termination_by maxSchemaDepth - depth

/-- The first flaw of an event payload, nested messages included down to
the depth limit. -/
def eventEncoding (method : String) (payload : Bytes) : Encoding :=
  messageEncoding registry 0 (registry.schemaForMethod method) payload

end

section

variable {registry : Registry} {elementWire : UInt8} {payload rest : Bytes} {number : UInt32}
variable {value : WireValue} {nested : Option NestedEncoding} {schema : Option MessageSchema}

@[simp] theorem packedEncoding_nil : packedEncoding elementWire [] = .strict := by
  rw [packedEncoding, if_pos rfl]

theorem packedEncoding_element (hb : payload ≠ [])
    (h : Cursor.value elementWire payload = (.ok value, rest)) :
    packedEncoding elementWire payload = packedEncoding elementWire rest := by
  rw [packedEncoding, if_neg hb]
  split <;> simp_all

theorem packedEncoding_unreadable {e : ProtoError} (hb : payload ≠ [])
    (h : Cursor.value elementWire payload = (.error e, rest)) :
    packedEncoding elementWire payload = .malformed := by
  rw [packedEncoding, if_neg hb]
  split <;> simp_all

@[simp] theorem loopEncoding_nil : loopEncoding registry nested schema [] = .strict := by
  rw [loopEncoding, if_pos rfl]

theorem loopEncoding_error {e : ProtoError} (hpayload : payload ≠ [])
    (h : Reader.readField payload = .error e) :
    loopEncoding registry nested schema payload = .malformed := by
  rw [loopEncoding, if_neg hpayload]
  split <;> simp_all

theorem loopEncoding_number (hpayload : payload ≠ [])
    (h : Reader.readField payload = .ok ((number, value), rest))
    (hnumber : ¬(0 < number.toNat ∧ number.toNat ≤ maxFieldNumber)) :
    loopEncoding registry nested schema payload = .malformed := by
  have hout : number.toNat = 0 ∨ maxFieldNumber < number.toNat := by omega
  rw [loopEncoding, if_neg hpayload]
  split
  case h_1 heq => simp [h] at heq
  case h_2 heq =>
    simp only [h, Except.ok.injEq, Prod.mk.injEq] at heq
    obtain ⟨⟨rfl, rfl⟩, rfl⟩ := heq
    rw [if_pos hout]

theorem loopEncoding_field (hpayload : payload ≠ [])
    (h : Reader.readField payload = .ok ((number, value), rest))
    (hnumber : 0 < number.toNat ∧ number.toNat ≤ maxFieldNumber) :
    loopEncoding registry nested schema payload =
      if looseField payload then .loose
      else
        (contentEncoding registry nested (schema.bind (·.field number)) value).andThen
          (loopEncoding registry nested schema rest) := by
  have hin : ¬(number.toNat = 0 ∨ maxFieldNumber < number.toNat) := by omega
  rw [loopEncoding, if_neg hpayload]
  split
  case h_1 heq => simp [h] at heq
  case h_2 heq =>
    simp only [h, Except.ok.injEq, Prod.mk.injEq] at heq
    obtain ⟨⟨rfl, rfl⟩, rfl⟩ := heq
    rw [if_neg hin]

end

/-! ## Agreement of two walks -/

/-- The scan goes on after what it has met. -/
theorem Scanned.andThen_met (here : Scanned) (next : Nat → Option UInt64 → Scanned) :
    ∃ more, (here.andThen next).met = here.met ++ more := by
  rw [Scanned.andThen]
  cases here.issue with
  | none => exact ⟨_, rfl⟩
  | some _ => exact ⟨[], (List.append_nil _).symm⟩

/-- A loose field was read. -/
def Met.loose : Met → Bool
  | .field start _ _ _ => looseField start
  | .element _ | .unreadable | .limit => false

/-- On a strict payload the walks met the same things and go on (`same`), on
a malformed one they stopped at the same point (`fault`), and on a loose
one the scan read a loose field where the decoder stopped (`loose`). -/
inductive Agree (d : Decoded) (s : Scanned) : Encoding → Prop where
  | same (hreadable : .unreadable ∉ d.met) (hmet : s.met = d.met) (hissue : s.issue = none)
      (hleft : s.left = d.remaining) : Agree d s .strict
  | fault (before after : List Met) (hreadable : .unreadable ∉ before)
      (hd : d.met = before ++ .unreadable :: after) (hs : s.met = before ++ [.unreadable])
      (hissue : s.issue = some .malformedWire) : Agree d s .malformed
  | loose (before after after' : List Met) (m : Met) (hreadable : .unreadable ∉ before)
      (hd : d.met = before ++ .unreadable :: after) (hs : s.met = before ++ m :: after')
      (hloose : m.loose = true) : Agree d s .loose

namespace Agree

variable {d d' here next : Decoded} {s here' : Scanned} {e e' : Encoding}

/-- Only what was met and the budget left count. -/
theorem congr (h : Agree d s e) (hmet : d'.met = d.met) (hremaining : d'.remaining = d.remaining) :
    Agree d' s e := by
  cases h with
  | same hreadable hs hissue hleft =>
    exact .same (hmet ▸ hreadable) (hmet ▸ hs) hissue (hremaining ▸ hleft)
  | fault before after hreadable hd hs hissue =>
    exact .fault before after hreadable (hmet ▸ hd) hs hissue
  | loose before after after' m hreadable hd hs hloose =>
    exact .loose before after after' m hreadable (hmet ▸ hd) hs hloose

/-- Something readable before both walks. -/
theorem cons (h : Agree d s e) {m : Met} (hm : m ≠ .unreadable) :
    Agree { d with met := m :: d.met } { s with met := m :: s.met } e := by
  have hcons : ∀ {before : List Met}, .unreadable ∉ before → .unreadable ∉ m :: before :=
    fun hreadable => List.not_mem_cons_of_ne_of_not_mem (Ne.symm hm) hreadable
  cases h with
  | same hreadable hs hissue hleft =>
    exact .same (hcons hreadable) (congrArg (m :: ·) hs) hissue hleft
  | fault before after hreadable hd hs hissue =>
    exact .fault (m :: before) after (hcons hreadable) (congrArg (m :: ·) hd)
      (congrArg (m :: ·) hs) hissue
  | loose before after after' m' hreadable hd hs hloose =>
    exact .loose (m :: before) after after' m' (hcons hreadable) (congrArg (m :: ·) hd)
      (congrArg (m :: ·) hs) hloose

/-- One turn of the loops after another: the second is compared only where
the scan gets to it. -/
theorem followedBy {rest : Nat → Option UInt64 → Scanned} (h : Agree here here' e)
    (hnext : here'.left = here.remaining → Agree next (rest here'.left here'.timestamp) e') :
    Agree (here.followedBy next) (here'.andThen rest) (e.andThen e') := by
  cases h with
  | same hreadable hmet hissue hleft =>
    have hrest := hnext hleft
    have hthen : here'.andThen rest = { rest here'.left here'.timestamp with
        met := here'.met ++ (rest here'.left here'.timestamp).met } := by
      rw [Scanned.andThen, hissue]
    rw [hthen, hmet]
    cases hrest with
    | same hreadable' hmet' hissue' hleft' =>
      exact .same (by simp [Decoded.followedBy, hreadable, hreadable'])
        (congrArg (here.met ++ ·) hmet') hissue' hleft'
    | fault before after hreadable' hd hs hissue' =>
      exact .fault (here.met ++ before) after (by simp [hreadable, hreadable'])
        (by simp [Decoded.followedBy, hd]) (by simp [hs]) hissue'
    | loose before after after' m hreadable' hd hs hloose =>
      exact .loose (here.met ++ before) after after' m (by simp [hreadable, hreadable'])
        (by simp [Decoded.followedBy, hd]) (by simp [hs]) hloose
  | fault before after hreadable hd hs hissue =>
    have hthen : here'.andThen rest = here' := by rw [Scanned.andThen, hissue]
    rw [hthen]
    exact .fault before (after ++ next.met) hreadable (by simp [Decoded.followedBy, hd]) hs hissue
  | loose before after after' m hreadable hd hs hloose =>
    obtain ⟨more, hmore⟩ := Scanned.andThen_met here' rest
    exact .loose before (after ++ next.met) (after' ++ more) m hreadable
      (by simp [Decoded.followedBy, hd]) (by simp [hmore, hs]) hloose

/-- Neither walk met anything. -/
theorem nothing {left : Nat} {timestamp : Option UInt64} (hmet : d.met = [])
    (hremaining : d.remaining = left) : Agree d { left, timestamp } .strict :=
  .same (by simp [hmet]) hmet.symm rfl hremaining.symm

/-- Both walks stop here. -/
theorem stop {left : Nat} {timestamp : Option UInt64} (hmet : d.met = [.unreadable]) :
    Agree d { issue := some .malformedWire, left, timestamp, met := [.unreadable] } .malformed :=
  .fault [] [] (by simp) hmet rfl rfl

end Agree

/-! ## The two recursions

Each lemma compares a walk of the decoder that stays within its limits with
the scan of the same bytes from the same budget. -/

section

variable {registry : Registry}

theorem packed_agree {d : FieldSchema} {number : UInt32} {wire elementWire : UInt8}
    {timestamp : Option UInt64} (b : Bytes) (remaining : Nat)
    (hwithin : .limit ∉ (decodePacked registry d number wire elementWire b remaining).met) :
    Agree (decodePacked registry d number wire elementWire b remaining)
      (scanPacked elementWire b remaining timestamp) (packedEncoding elementWire b) := by
  induction b, remaining using decodePacked.induct registry d number wire elementWire with
  | case1 remaining =>
    rw [decodePacked_nil, scanPacked_nil, packedEncoding_nil]
    exact .nothing rfl rfl
  | case2 b hb =>
    rw [decodePacked_out hb] at hwithin
    simp at hwithin
  | case3 b remaining hb hremaining v rest hread _ _ _ ih =>
    rw [decodePacked_element hb hremaining hread] at hwithin ⊢
    rw [scanPacked_element hb hremaining hread, packedEncoding_element hb hread]
    refine Agree.followedBy (.same (by simp) rfl rfl rfl) fun _ => ?_
    exact ih fun hlimit => hwithin (List.mem_append_right _ hlimit)
  | case4 b remaining hb hremaining e rest hread =>
    rw [decodePacked_unreadable hb hremaining hread, scanPacked_unreadable hb hremaining hread,
      packedEncoding_unreadable hb hread]
    exact .stop rfl

/-- Nested walks that agree, where the decoder still descends. -/
def NestedAgree (decode : Option Nested) (scan : Option NestedScan)
    (encoding : Option NestedEncoding) : Prop :=
  ∀ decode' ∈ decode, ∃ scan' ∈ scan, ∃ encoding' ∈ encoding,
    ∀ schema payload common remaining timestamp,
      .limit ∉ (decode' schema payload remaining).met →
        Agree (decode' schema payload remaining)
          (scan' schema payload common remaining timestamp) (encoding' schema payload)

variable {nested : Option Nested} {nestedScan : Option NestedScan}
variable {nestedEncoding : Option NestedEncoding}

theorem nested_agree (hnested : NestedAgree nested nestedScan nestedEncoding)
    {d : Option FieldSchema} {number : UInt32} {wire : UInt8} {name : String} {b : Bytes}
    {remaining : Nat}
    {isCommon : Bool} {timestamp : Option UInt64}
    (hwithin : .limit ∉ (decodeNested registry nested d number wire name b remaining).met) :
    ∃ scan ∈ nestedScan, ∃ encoding ∈ nestedEncoding,
      Agree (decodeNested registry nested d number wire name b remaining)
        (scan (registry.schemaByName name) b isCommon remaining timestamp)
        (encoding (registry.schemaByName name) b) := by
  unfold decodeNested at hwithin ⊢
  cases nested with
  | none => simp at hwithin
  | some decode =>
    obtain ⟨scan, hscan, encoding, hencoding, hagree⟩ := hnested decode rfl
    refine ⟨scan, hscan, encoding, hencoding, ?_⟩
    dsimp only at hwithin ⊢
    split_ifs at hwithin ⊢ with hremaining hwarning
    · simp at hwithin
    · exact (hagree _ b isCommon remaining timestamp hwithin).congr rfl rfl
    · exact (hagree _ b isCommon remaining timestamp hwithin).congr rfl rfl

theorem field_agree (hnested : NestedAgree nested nestedScan nestedEncoding)
    {d : Option FieldSchema} {number : UInt32} {wire : UInt8} {raw : RawProtoValue}
    {remaining : Nat} {isCommon : Bool}
    {timestamp : Option UInt64}
    (hwithin : .limit ∉ (decodeField registry nested d number wire raw remaining).met) :
    Agree (decodeField registry nested d number wire raw remaining)
      (scanField registry nestedScan isCommon d raw remaining timestamp)
      (contentEncoding registry nestedEncoding d raw) := by
  unfold decodeField at hwithin ⊢
  unfold scanField contentEncoding
  cases hpacked : packedField d raw with
  | some packed =>
    simp only [hpacked] at hwithin ⊢
    exact packed_agree _ remaining hwithin
  | none =>
    simp only [hpacked] at hwithin ⊢
    cases raw with
    | varint v | fixed64 v | fixed32 v => exact .nothing rfl rfl
    | bytes b =>
      cases hkind : d.map FieldSchema.kind with
      | none => exact .nothing rfl rfl
      | some kind =>
        cases kind with
        | message name =>
          simp only [hkind] at hwithin ⊢
          obtain ⟨scan, hscan, encoding, hencoding, hagree⟩ := nested_agree hnested hwithin
          rw [Option.mem_def.mp hscan, Option.mem_def.mp hencoding]
          exact hagree
        | string =>
          simp only
          split <;> exact .nothing rfl rfl
        | bytes | varint | fixed32 | fixed64 => exact .nothing rfl rfl

/-- Where the decoder stops in its loop, the scan stops or reads a loose
field. -/
theorem stopped_agree {d : Decoded} {schema : Option MessageSchema} {payload : Bytes}
    {left : Nat} {timestamp : Option UInt64} {top common seenCommon seenTimestamp : Bool}
    (hpayload : payload ≠ []) (hleft : left ≠ 0) (hmet : d.met = [.unreadable])
    (hhead : ∀ number wire raw rest, Cursor.head payload ≠ .field number wire raw rest) :
    Agree d
      (scanLoop registry nestedScan schema top common seenCommon seenTimestamp payload
        left timestamp)
      (loopEncoding registry nestedEncoding schema payload) := by
  cases hread : Reader.readField payload with
  | error e =>
    rw [scanLoop_error hpayload hleft hread, loopEncoding_error hpayload hread]
    exact .stop hmet
  | ok field =>
    obtain ⟨⟨number, value⟩, rest⟩ := field
    by_cases hnumber : 0 < number.toNat ∧ number.toNat ≤ maxFieldNumber
    · have hloose : looseField payload = true := by
        by_contra hstrict
        exact hhead _ _ _ _
          (Cursor.head_eq_field_iff.mpr ⟨⟨hread, hnumber⟩, rfl, by simpa using hstrict⟩)
      rw [scanLoop_field hpayload hleft hread hnumber, loopEncoding_field hpayload hread hnumber,
        if_pos hloose]
      dsimp only
      generalize scanLoop registry nestedScan schema top common _ _ rest = next
      generalize hhere : scanField registry nestedScan _ _ value left _ = here
      obtain ⟨more, hmore⟩ := Scanned.andThen_met
        { here with met := .field payload number value.wireType value :: here.met } next
      exact .loose [] [] (here.met ++ more) (.field payload number value.wireType value) (by simp)
        hmet hmore hloose
    · rw [scanLoop_number hpayload hleft hread hnumber, loopEncoding_number hpayload hread hnumber]
      exact .stop hmet

theorem loop_agree (hnested : NestedAgree nested nestedScan nestedEncoding)
    {schema : Option MessageSchema} {top common : Bool} (payload : Bytes) (remaining : Nat)
    (seenCommon seenTimestamp : Bool)
    (timestamp : Option UInt64)
    (hwithin : .limit ∉ (decodeLoop registry nested schema payload remaining).met) :
    Agree (decodeLoop registry nested schema payload remaining)
      (scanLoop registry nestedScan schema top common seenCommon seenTimestamp payload remaining
        timestamp)
      (loopEncoding registry nestedEncoding schema payload) := by
  induction payload, remaining using decodeLoop.induct registry nested schema
    generalizing seenCommon seenTimestamp timestamp with
  | case1 remaining =>
    rw [decodeLoop_nil, scanLoop_nil, loopEncoding_nil]
    exact .nothing rfl rfl
  | case2 payload hpayload =>
    rw [decodeLoop_out hpayload] at hwithin
    simp at hwithin
  | case3 payload remaining hpayload hremaining hhead =>
    rw [decodeLoop_tag hpayload hremaining hhead]
    exact stopped_agree hpayload hremaining rfl (by simp [hhead])
  | case4 payload remaining hpayload hremaining number wire hhead =>
    rw [decodeLoop_value hpayload hremaining hhead]
    exact stopped_agree hpayload hremaining rfl (by simp [hhead])
  | case5 payload remaining hpayload hremaining number wire raw rest hhead d here ih =>
    obtain ⟨⟨hread, hnumber⟩, rfl, hstrict⟩ := Cursor.head_eq_field_iff.mp hhead
    rw [decodeLoop_field hpayload hremaining hhead] at hwithin ⊢
    rw [scanLoop_field hpayload hremaining hread hnumber, loopEncoding_field hpayload hread hnumber,
      hstrict, if_neg Bool.false_ne_true]
    dsimp only at hwithin ⊢
    have hhere : .limit ∉ here.met := fun hlimit =>
      hwithin (List.mem_append_left _ (List.mem_cons_of_mem _ hlimit))
    have hrest : .limit ∉ (decodeLoop registry nested schema rest here.remaining).met :=
      fun hlimit => hwithin (List.mem_append_right _ hlimit)
    refine Agree.followedBy ((field_agree hnested hhere).cons (by simp)) fun hleft => ?_
    dsimp only at hleft ⊢
    rw [hleft]
    exact ih _ _ _ hrest

/-- At every depth the decoder reaches, the scan has room to descend too. -/
theorem object_agree (depth : Nat) (schema : Option MessageSchema) (payload : Bytes)
    (common : Bool) (remaining : Nat) (timestamp : Option UInt64)
    (hwithin : .limit ∉ (decodeObject registry depth schema payload remaining).met) :
    Agree (decodeObject registry depth schema payload remaining)
      (scan registry depth schema payload common remaining timestamp)
      (messageEncoding registry depth schema payload) := by
  have hlt : maxSchemaDepth < maxNormalizationDepth := by decide
  rw [decodeObject] at hwithin ⊢
  rw [scan, messageEncoding]
  refine loop_agree ?_ payload remaining false false timestamp hwithin
  intro decode hdecode
  split_ifs at hdecode with hdescend
  · obtain rfl := Option.some.inj hdecode
    refine ⟨scan registry (depth + 1), by rw [if_pos (by omega)]; rfl,
      messageEncoding registry (depth + 1), by rw [if_pos hdescend]; rfl, ?_⟩
    exact fun schema payload common remaining timestamp hwithin =>
      object_agree (depth + 1) schema payload common remaining timestamp hwithin
  · cases hdecode
termination_by maxSchemaDepth - depth

end

/-! ## What the walks report -/

section

variable (registry : Registry) (method : String) (payload : Bytes) (budget : Nat)

/-- What `decode_object` meets in an event. -/
def schemaWalk : List Met :=
  (decodeObject registry 0 (registry.schemaForMethod method) payload
    (min budget maxSchemaFields)).met

/-- What the scan of `preflight_event` meets in an event. -/
def preflightWalk : List Met :=
  (scan registry 0 (registry.schemaForMethod method) payload false (min budget maxSchemaFields)
    none).met

end

def Met.asField : Met → Option (UInt32 × UInt8 × WireValue)
  | .field _ number wire value => some (number, wire, value)
  | .element _ | .unreadable | .limit => none

/-- The fields that a walk reads up to the first point it cannot read. -/
def fieldsRead (met : List Met) : List (UInt32 × UInt8 × WireValue) :=
  (met.takeWhile (· ≠ .unreadable)).filterMap Met.asField

theorem takeWhile_readable {before : List Met} (h : .unreadable ∉ before) (after : List Met) :
    (before ++ after).takeWhile (· ≠ .unreadable) =
      before ++ after.takeWhile (· ≠ .unreadable) :=
  List.takeWhile_append_of_pos fun m hm => by
    have hne : m ≠ .unreadable := fun hunreadable => h (hunreadable ▸ hm)
    simpa using hne

theorem Met.asField_of_loose {m : Met} (h : m.loose = true) : ∃ field, m.asField = some field := by
  cases m with
  | field start number wire value => exact ⟨_, rfl⟩
  | element _ | unreadable | limit => cases h

/-- For an event that the decoder walks within its limits: the scan reports
malformed wire exactly when the decoder meets something unreadable, and
both read the same fields up to there, if and only if no loose field comes
first. -/
theorem walks_agree_iff (registry : Registry) (method : String) (payload : Bytes) (budget : Nat)
    (hwithin : .limit ∉ schemaWalk registry method payload budget) :
    ((preflightEvent registry method payload budget).1 = some .malformedWire ↔
        .unreadable ∈ schemaWalk registry method payload budget) ∧
      fieldsRead (schemaWalk registry method payload budget) =
        fieldsRead (preflightWalk registry method payload budget) ↔
    eventEncoding registry method payload ≠ .loose := by
  have hagree := object_agree 0 (registry.schemaForMethod method) payload false
    (min budget maxSchemaFields) none hwithin
  have hissue : (preflightEvent registry method payload budget).1 = some .malformedWire ↔
      (scan registry 0 (registry.schemaForMethod method) payload false
        (min budget maxSchemaFields) none).issue = some .malformedWire := by
    simp only [preflightEvent]
    split_ifs with hlimit
    · simp [hlimit.1]
    · rfl
  rw [hissue, eventEncoding]
  generalize messageEncoding registry 0 _ payload = encoding at hagree ⊢
  cases hagree with
  | same hreadable hmet hnone hleft =>
    refine iff_of_true ⟨?_, congrArg fieldsRead hmet.symm⟩ (by simp)
    exact iff_of_false (by simp [hnone]) hreadable
  | fault before after hreadable hd hs hmalformed =>
    refine iff_of_true ⟨iff_of_true hmalformed ?_, ?_⟩ (by simp)
    · rw [schemaWalk, hd]
      exact List.mem_append_right _ List.mem_cons_self
    · rw [schemaWalk, preflightWalk, hd, hs, fieldsRead, fieldsRead,
        takeWhile_readable hreadable, takeWhile_readable hreadable]
      simp
  | loose before after after' m hreadable hd hs hloose =>
    refine iff_of_false ?_ (by simp)
    -- the scan's list is longer
    rintro ⟨-, hfields⟩
    obtain ⟨field, hfield⟩ := Met.asField_of_loose hloose
    have hne : m ≠ .unreadable := by
      rintro rfl
      cases hloose
    rw [schemaWalk, preflightWalk, hd, hs, fieldsRead, fieldsRead,
      takeWhile_readable hreadable, takeWhile_readable hreadable] at hfields
    simp [hne, hfield] at hfields

/-- A message with a nested message, a packed field and a malformed end. -/
theorem walks_agree_nested :
    let registry : Registry :=
      ⟨[⟨"webcast.model.message.WebcastLikeMessage",
          [⟨1, "common", "common", .message "Common", .message "Common", .optional, false⟩,
            ⟨2, "counts", "counts", .varint, .uint64, .repeated, false⟩]⟩,
        ⟨"Common", [⟨4, "create_time", "createTime", .varint, .int64, .optional, false⟩]⟩], []⟩
    let payload : Bytes := [10, 2, 32, 42, 18, 3, 5, 172, 2, 24, 1, 15]
    ((preflightEvent registry "WebcastLikeMessage" payload 4096).1 = some .malformedWire ↔
        .unreadable ∈ schemaWalk registry "WebcastLikeMessage" payload 4096) ∧
      fieldsRead (schemaWalk registry "WebcastLikeMessage" payload 4096) =
        fieldsRead (preflightWalk registry "WebcastLikeMessage" payload 4096) :=
  (walks_agree_iff _ _ _ _ (by decide +kernel)).mpr (by decide +kernel)

/-- Field 1 with a ten-byte varint that ends in 2: the decoder cannot read
it, the scan has nothing to report. -/
theorem loose_varint_passes_preflight :
    let registry : Registry := ⟨[], []⟩
    let payload : Bytes := 8 :: List.replicate 9 255 ++ [2]
    .limit ∉ schemaWalk registry "" payload maxSchemaFields ∧
      .unreadable ∈ schemaWalk registry "" payload maxSchemaFields ∧
      (preflightEvent registry "" payload maxSchemaFields).1 = none := by
  decide +kernel

end TiktokSigner.LiveEvents
