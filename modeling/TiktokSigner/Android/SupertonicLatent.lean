import Mathlib.Data.Rat.Floor
import Mathlib.Algebra.Order.Floor.Ring

/-!
# `SupertonicEngine.sampleNoisyLatent`

The noise that the model starts from, and the mask that says how much of each
row a text of the batch needs. The length of the noise is rounded up from the
longest duration, the length of the mask from durations already cut to whole
samples. Rounding up does not see the cut, so the two differ only by the lower
bound of the first: where no duration reaches one sample.

Durations and samples are exact, and so are sizes, counts and indices. The
mask of a text is one row; its middle dimension has size one and is left out.
-/

namespace TiktokSigner.Android.SupertonicLatent

/-- The sizes of `SupertonicConfig`. -/
structure SupertonicConfig where
  sampleRate : ℕ
  baseChunkSize : ℕ
  chunkCompress : ℕ
  latentDim : ℕ

namespace SupertonicConfig

variable (config : SupertonicConfig)

def latentChunkSize : ℕ := config.baseChunkSize * config.chunkCompress

def latentDimTotal : ℕ := config.latentDim * config.chunkCompress

end SupertonicConfig

inductive Failure where
  | illegalArgument (message : String)
  | negativeArraySize (size : ℤ)
  | indexOutOfBounds (index length : ℕ)
deriving DecidableEq

structure LatentBundle (φ : Type*) where
  noisy : List (List (List φ))
  mask : List (List φ)
deriving DecidableEq

variable (config : SupertonicConfig) (duration : List ℚ)

/-- `toLong`: towards zero. -/
def toLong (q : ℚ) : ℤ := q.num.tdiv q.den

def wavLenMax : ℚ := duration.max?.getD 0 * config.sampleRate

def wavLengths : List ℤ := duration.map fun d => toLong (d * config.sampleRate)

def latentLen : ℕ :=
  (max ⌊(wavLenMax config duration + config.latentChunkSize - 1) / config.latentChunkSize⌋ 1).toNat

section Latent

variable {φ : Type*} [Zero φ] [One φ] [Mul φ]

def latentLengths (wavLengths : List ℤ) : List ℤ :=
  wavLengths.map fun length =>
    (length + (config.latentChunkSize : ℤ) - 1).tdiv config.latentChunkSize

def latentMask (wavLengths : List ℤ) : Except Failure (List (List φ)) :=
  let lengths := latentLengths config wavLengths
  let maxLen := lengths.max?.getD 0
  if maxLen < 0 then .error (.negativeArraySize maxLen)
  else .ok (lengths.map fun length =>
    (List.range maxLen.toNat).map fun idx : ℕ => if (idx : ℤ) < length then 1 else 0)

/-- `noisy[b][d][t] *= mask[b][0][t]` for the indices of a row. -/
def multiply (mask row : List φ) : Except Failure (List φ) :=
  row.zipIdx.mapM fun (x, t) =>
    match mask[t]? with
    | some m => .ok (x * m)
    | none => .error (.indexOutOfBounds t mask.length)

/-- Fresh noise, drawn one value after another. -/
def freshNoise (boxMuller : ℕ → φ) : List (List (List φ)) :=
  let dim := config.latentDimTotal
  let len := latentLen config duration
  (List.range duration.length).map fun b =>
    (List.range dim).map fun d => (List.range len).map fun t => boxMuller ((b * dim + d) * len + t)

/-- Injected noise has the shape of the fresh one. -/
def hasShape (noise : List (List (List φ))) : Bool :=
  decide (noise.length = duration.length) &&
    noise.all fun channels => decide (channels.length = config.latentDimTotal) &&
      channels.all fun row => decide (row.length = latentLen config duration)

def noiseFor (boxMuller : ℕ → φ) : Option (List (List (List φ))) →
    Except Failure (List (List (List φ)))
  | some injected =>
      if hasShape config duration injected then .ok injected
      else .error (.illegalArgument s!"Injected latent noise must be [{duration.length}][{config.latentDimTotal}][{latentLen config duration}]")
  | none => .ok (freshNoise config duration boxMuller)

def sampleNoisyLatent (boxMuller : ℕ → φ) (injected : Option (List (List (List φ)))) :
    Except Failure (LatentBundle φ) := do
  let noisy ← noiseFor config duration boxMuller injected
  let mask ← latentMask config (wavLengths config duration)
  let noisy ← (noisy.zip mask).mapM fun (channels, row) => channels.mapM (multiply row)
  return ⟨noisy, mask⟩

end Latent

/-! ## The two lengths -/

section Lengths

theorem toLong_of_nonneg {q : ℚ} (h : 0 ≤ q) : toLong q = ⌊q⌋ := by
  rw [toLong, Int.tdiv_eq_ediv_of_nonneg (Rat.num_nonneg.mpr h), Rat.floor_def']

/-- Rounding a quotient up does not see the fraction. -/
theorem floor_ceil (c : ℕ) (q : ℚ) : ⌊(q + c - 1) / c⌋ = (⌊q⌋ + c - 1) / (c : ℤ) := by
  rw [Int.floor_div_natCast, Int.floor_sub_one, Int.floor_add_natCast]

theorem max?_map {α β : Type*} [LinearOrder α] [LinearOrder β] {f : α → β} (hf : Monotone f)
    (l : List α) : (l.map f).max? = l.max?.map f := by
  cases l with
  | nil => rfl
  | cons a l =>
    rw [List.map_cons, List.max?_cons', List.max?_cons', Option.map_some, Option.some.injEq]
    induction l generalizing a with
    | nil => rfl
    | cons b l ih => rw [List.map_cons, List.foldl_cons, List.foldl_cons, ← hf.map_max, ih]

/-- The frames of a latent that a duration needs. -/
def frames (d : ℚ) : ℤ := (⌊d * config.sampleRate⌋ + config.latentChunkSize - 1) / config.latentChunkSize

/-- The frames of the longest duration: the length of the rows of the mask. -/
def maskLen : ℤ := (duration.map (frames config)).max?.getD 0

/-- The sizes that a model package has to have. -/
structure SupertonicConfig.Positive : Prop where
  sampleRate : 0 < config.sampleRate
  baseChunkSize : 0 < config.baseChunkSize
  chunkCompress : 0 < config.chunkCompress

variable {config duration}

theorem SupertonicConfig.Positive.latentChunkSize (h : config.Positive) :
    (0 : ℤ) < config.latentChunkSize :=
  Int.natCast_pos.mpr (Nat.mul_pos h.baseChunkSize h.chunkCompress)

theorem frames_mono (hconfig : config.Positive) {d e : ℚ} (hde : d ≤ e) :
    frames config d ≤ frames config e := by
  refine Int.ediv_le_ediv hconfig.latentChunkSize ?_
  have hfloor : ⌊d * config.sampleRate⌋ ≤ ⌊e * config.sampleRate⌋ :=
    Int.floor_mono (mul_le_mul_of_nonneg_right hde (Nat.cast_nonneg _))
  omega

theorem one_le_frames (hconfig : config.Positive) {d : ℚ} :
    1 ≤ frames config d ↔ 1 ≤ d * config.sampleRate := by
  have hchunk := hconfig.latentChunkSize
  have hfloor : (1 : ℤ) ≤ ⌊d * config.sampleRate⌋ ↔ 1 ≤ d * config.sampleRate := by
    rw [Int.le_floor, Int.cast_one]
  rw [frames, Int.le_ediv_iff_mul_le hchunk, ← hfloor]
  omega

theorem frames_nonneg (hconfig : config.Positive) {d : ℚ} (h : 0 ≤ d) : 0 ≤ frames config d := by
  have hchunk := hconfig.latentChunkSize
  have hsamples : 0 ≤ ⌊d * config.sampleRate⌋ :=
    Int.floor_nonneg.mpr (mul_nonneg h (Nat.cast_nonneg _))
  exact Int.ediv_nonneg (by omega) hchunk.le

theorem latentLengths_wavLengths (hconfig : config.Positive) (h : ∀ d ∈ duration, 0 ≤ d) :
    latentLengths config (wavLengths config duration) = duration.map (frames config) := by
  rw [latentLengths, wavLengths, List.map_map]
  refine List.map_congr_left fun d hd => ?_
  have hchunk := hconfig.latentChunkSize
  have hsamples : 0 ≤ d * (config.sampleRate : ℚ) := mul_nonneg (h d hd) (Nat.cast_nonneg _)
  have hfloor := Int.floor_nonneg.mpr hsamples
  rw [Function.comp_apply, toLong_of_nonneg hsamples,
    Int.tdiv_eq_ediv_of_nonneg (by omega), frames]

theorem maskLen_nonneg (hconfig : config.Positive) (h : ∀ d ∈ duration, 0 ≤ d) :
    0 ≤ maskLen config duration := by
  rw [maskLen]
  cases hmax : (duration.map (frames config)).max? with
  | none => exact le_rfl
  | some len =>
    obtain ⟨d, hd, rfl⟩ := List.mem_map.mp (List.max?_mem hmax)
    exact frames_nonneg hconfig (h d hd)

/-- The noise is as long as the mask, but never shorter than one frame. -/
theorem latentLen_eq (hconfig : config.Positive) (hne : duration ≠ []) :
    latentLen config duration = (max (maskLen config duration) 1).toNat := by
  obtain ⟨d, hd⟩ := Option.isSome_iff_exists.mp (List.isSome_max?_of_ne_nil hne)
  rw [latentLen, wavLenMax, floor_ceil, hd, maskLen, max?_map fun _ _ => frames_mono hconfig, hd]
  rfl

theorem one_le_maskLen (hconfig : config.Positive) :
    1 ≤ maskLen config duration ↔ ∃ d ∈ duration, 1 ≤ d * config.sampleRate := by
  rw [maskLen]
  cases hmax : (duration.map (frames config)).max? with
  | none =>
    rw [List.max?_eq_none_iff, List.map_eq_nil_iff] at hmax
    simp [hmax]
  | some len =>
    obtain ⟨hmem, hle⟩ := List.max?_eq_some_iff.mp hmax
    constructor
    · intro hlen
      obtain ⟨d, hd, rfl⟩ := List.mem_map.mp hmem
      exact ⟨d, hd, (one_le_frames hconfig).mp hlen⟩
    · rintro ⟨d, hd, hsample⟩
      exact ((one_le_frames hconfig).mpr hsample).trans (hle _ (List.mem_map_of_mem hd))

end Lengths

/-! ## The shapes -/

section Shapes

variable {φ : Type*} [Zero φ] [One φ] [Mul φ] {config duration}

omit [Mul φ] in
theorem exists_latentMask (hconfig : config.Positive) (h : ∀ d ∈ duration, 0 ≤ d) :
    ∃ mask : List (List φ), latentMask config (wavLengths config duration) = .ok mask ∧
      mask.length = duration.length ∧
      ∀ row ∈ mask, row.length = (maskLen config duration).toNat := by
  have hnonneg := maskLen_nonneg hconfig h
  rw [maskLen] at hnonneg ⊢
  rw [latentMask, latentLengths_wavLengths hconfig h]
  refine ⟨_, if_neg (not_lt.mpr hnonneg), by simp, fun row hrow => ?_⟩
  obtain ⟨length, -, rfl⟩ := List.mem_map.mp hrow
  rw [List.length_map, List.length_range]

omit [Zero φ] [One φ] [Mul φ] in
theorem length_of_noiseFor {boxMuller : ℕ → φ} {injected : Option (List (List (List φ)))}
    {noisy : List (List (List φ))} (h : noiseFor config duration boxMuller injected = .ok noisy) :
    ∀ channels ∈ noisy, ∀ row ∈ channels, row.length = latentLen config duration := by
  intro channels hchannels row hrow
  cases injected with
  | none =>
    obtain rfl := Except.ok.inj h
    obtain ⟨b, -, rfl⟩ := List.mem_map.mp hchannels
    obtain ⟨d, -, rfl⟩ := List.mem_map.mp hrow
    rw [List.length_map, List.length_range]
  | some injected =>
    rw [noiseFor] at h
    split_ifs at h with hshape
    obtain rfl := Except.ok.inj h
    simp only [hasShape, Bool.and_eq_true, List.all_eq_true, decide_eq_true_eq] at hshape
    exact (hshape.2 channels hchannels).2 row hrow

theorem exists_mapM {α β ε : Type*} {f : α → Except ε β} {l : List α}
    (h : ∀ a ∈ l, ∃ b, f a = .ok b) : ∃ bs, l.mapM f = .ok bs := by
  induction l with
  | nil => exact ⟨[], rfl⟩
  | cons a l ih =>
    obtain ⟨b, hb⟩ := h a List.mem_cons_self
    obtain ⟨bs, hbs⟩ := ih fun a ha => h a (List.mem_cons_of_mem _ ha)
    exact ⟨b :: bs, by rw [List.mapM_cons, hb, hbs]; rfl⟩

omit [Zero φ] [One φ] in
theorem exists_multiply {mask row : List φ} (h : row.length ≤ mask.length) :
    ∃ product, multiply mask row = .ok product := by
  refine exists_mapM fun ⟨x, t⟩ hx => ?_
  have ht : t < mask.length := (List.snd_lt_of_mem_zipIdx hx).trans_le (by omega)
  exact ⟨x * mask[t], by simp [ht]⟩

/-- The rows of the mask have the length of the rows of the noise, and the
product is never read past the mask. -/
structure Fits (φ : Type*) [Zero φ] [One φ] [Mul φ] (config : SupertonicConfig)
    (duration : List ℚ) : Prop where
  rows : ∃ mask : List (List φ), latentMask config (wavLengths config duration) = .ok mask ∧
    ∀ row ∈ mask, row.length = latentLen config duration
  within : ∀ (boxMuller : ℕ → φ) injected index length,
    sampleNoisyLatent config duration boxMuller injected ≠ .error (.indexOutOfBounds index length)

theorem within_of_rows {mask : List (List φ)}
    (hmask : latentMask config (wavLengths config duration) = .ok mask)
    (hrows : ∀ row ∈ mask, row.length = latentLen config duration) (boxMuller : ℕ → φ)
    (injected : Option (List (List (List φ)))) (index length : ℕ) :
    sampleNoisyLatent config duration boxMuller injected
      ≠ .error (.indexOutOfBounds index length) := by
  rw [sampleNoisyLatent, hmask]
  cases hnoise : noiseFor config duration boxMuller injected with
  | error failure =>
    intro h
    obtain rfl := Except.error.inj h
    cases injected with
    | none => cases hnoise
    | some injected =>
      rw [noiseFor] at hnoise
      split_ifs at hnoise
      cases hnoise
  | ok noisy =>
    obtain ⟨products, hproducts⟩ : ∃ products, (noisy.zip mask).mapM
        (fun (channels, row) => channels.mapM (multiply row)) = Except.ok products := by
      refine exists_mapM fun ⟨channels, row⟩ hmem => exists_mapM fun noise hnoiseRow => ?_
      obtain ⟨hchannels, hrow⟩ := List.of_mem_zip hmem
      refine exists_multiply ?_
      rw [hrows row hrow, length_of_noiseFor hnoise channels hchannels noise hnoiseRow]
    intro h
    simp only [bind, Except.bind, hproducts] at h
    cases h

variable (φ) in
/-- The lower bound of one frame counts where no duration reaches a sample. -/
theorem fits_iff (hconfig : config.Positive) (h : ∀ d ∈ duration, 0 ≤ d) :
    Fits φ config duration ↔ duration = [] ∨ ∃ d ∈ duration, 1 ≤ d * config.sampleRate := by
  obtain ⟨mask, hmask, hlength, hrows⟩ := exists_latentMask (φ := φ) hconfig h
  have hnonneg := maskLen_nonneg hconfig h
  constructor
  · rintro ⟨⟨mask', hmask', hfits⟩, -⟩
    rw [hmask] at hmask'
    obtain rfl := Except.ok.inj hmask'
    refine or_iff_not_imp_left.mpr fun hne => (one_le_maskLen hconfig).mp ?_
    obtain ⟨row, hrow⟩ := List.exists_mem_of_length_pos
      (hlength ▸ List.length_pos_iff.mpr hne)
    have hsame := (hrows row hrow).symm.trans (hfits row hrow)
    rw [latentLen_eq hconfig hne] at hsame
    omega
  · intro hcond
    have hfits : ∀ row ∈ mask, row.length = latentLen config duration := by
      intro row hrow
      rcases hcond with rfl | hsample
      · rw [List.eq_nil_of_length_eq_zero hlength] at hrow
        cases hrow
      · have hne : duration ≠ [] := by
          rintro rfl
          obtain ⟨d, hd, -⟩ := hsample
          cases hd
        have hone := (one_le_maskLen hconfig).mpr hsample
        rw [hrows row hrow, latentLen_eq hconfig hne, max_eq_left hone]
    exact ⟨⟨mask, hmask, hfits⟩, within_of_rows hmask hfits⟩

/-- The sizes of the reference package. -/
def reference : SupertonicConfig := ⟨44100, 512, 6, 24⟩

theorem reference_positive : reference.Positive := ⟨by decide, by decide, by decide⟩

theorem fits_one_second : Fits ℚ reference [1] :=
  (fits_iff ℚ reference_positive (by simp)).mpr (Or.inr ⟨1, by simp, by norm_num [reference]⟩)

/-- A duration of zero: one frame of noise, none of the mask. -/
theorem not_fits_zero :
    (reference.Positive ∧ ∀ d ∈ [(0 : ℚ)], 0 ≤ d) ∧
      sampleNoisyLatent reference [0] (fun _ => (1 : ℚ)) none = .error (.indexOutOfBounds 0 0) ∧
      ¬Fits ℚ reference [0] :=
  have hfails : sampleNoisyLatent reference [0] (fun _ => (1 : ℚ)) none
      = .error (.indexOutOfBounds 0 0) := by decide +kernel
  ⟨⟨reference_positive, by simp⟩, hfails, fun h => h.within _ _ _ _ hfails⟩

end Shapes

end TiktokSigner.Android.SupertonicLatent
