import TiktokSigner.Android.SupertonicModels

/-!
# When model files are never active unverified

`fetch` renames the `.part` file and `fetchVerified` checks the digest
afterwards, so a wrong body is at its final path until it is deleted, and
stays there when the process dies in between. No other step puts a file
anywhere: `active_iff` says that the files are good in every state of a run
exactly when every body that is renamed is.
-/

namespace TiktokSigner.Android.SupertonicModels

open Lts

variable {hashes : Hashes} {s s' : State} {a : Action} {spec : FileSpec}

/-! ## What is promised of the disk -/

/-- Each file at its final path has the pinned size and digest. -/
def AllPinned (hashes : Hashes) (disk : Disk) : Prop :=
  ∀ spec ∈ specs, ∀ body ∈ disk.files.lookup spec.localName, Pinned hashes spec body

/-- And `status` is `Ready` only with all six runtime files. -/
def NeverUnverified (hashes : Hashes) (s : State) : Prop :=
  AllPinned hashes s.disk
    ∧ (status s.disk = .ready →
      ∀ spec ∈ FILES, ∃ body ∈ s.disk.files.lookup spec.localName, Pinned hashes spec body)

/-- A `.part` file that is renamed has the pinned size and digest. -/
def RenamesPinned (hashes : Hashes) (s : State) : Action → Prop
  | .rename =>
      ∀ fetch, s.task = .renaming fetch →
        ∀ body ∈ s.disk.parts.lookup fetch.spec.localName, Pinned hashes fetch.spec body
  | _ => True

theorem mem_specs_of_mem_FILES (h : spec ∈ FILES) : spec ∈ specs := List.mem_append_left _ h

/-- A final path is that of one file. -/
theorem spec_eq_of_localName {other : FileSpec} (h : spec ∈ specs) (hother : other ∈ specs)
    (hname : spec.localName = other.localName) : spec = other := by
  have hinj : ∀ a ∈ specs, ∀ b ∈ specs, a.localName = b.localName → a = b := by decide
  exact hinj spec h other hother hname

theorem present_of_ready {disk : Disk} (h : status disk = .ready) (hspec : spec ∈ FILES) :
    ∃ body, disk.files.lookup spec.localName = some body := by
  rw [status] at h
  split at h
  case isTrue => cases h
  case isFalse hmissing =>
    have hnil := List.filter_eq_nil_iff.mp (not_not.mp hmissing) spec hspec
    cases hlookup : disk.files.lookup spec.localName with
    | none => simp [hlookup] at hnil
    | some body => exact ⟨body, rfl⟩

theorem neverUnverified_iff : NeverUnverified hashes s ↔ AllPinned hashes s.disk := by
  refine ⟨fun h => h.1, fun h => ⟨h, fun hready spec hspec => ?_⟩⟩
  obtain ⟨body, hbody⟩ := present_of_ready hready hspec
  exact ⟨body, hbody, h spec (mem_specs_of_mem_FILES hspec) body hbody⟩

/-! ## What a step does to the files -/

/-- No file is there that was not there before. -/
def Shrinks (disk disk' : Disk) : Prop :=
  ∀ name body, disk'.files.lookup name = some body → disk.files.lookup name = some body

theorem Shrinks.refl (disk : Disk) : Shrinks disk disk := fun _ _ h => h

theorem shrinks_deleteFile (disk : Disk) (name : String) (deleted : Bool) :
    Shrinks disk (disk.deleteFile name deleted) := by
  intro other body h
  rw [Disk.deleteFile] at h
  split at h
  case isTrue =>
    by_cases heq : other = name
    · subst heq
      simp at h
    · rwa [AList.lookup_erase_ne heq] at h
  case isFalse => exact h

theorem shrinks_leavePart (disk : Disk) (name : String) (deleted : Bool) :
    Shrinks disk (disk.leavePart name deleted) := by
  intro other body h
  rw [Disk.leavePart] at h
  split at h
  case isTrue => exact h
  case isFalse => exact h

/-- The files that a task is about are pinned ones. -/
def Task.Known : Task → Prop
  | .next todo _ => ∀ spec ∈ todo, spec ∈ specs
  | .connecting fetch | .writing fetch | .renaming fetch | .leaving fetch _ | .checking fetch
  | .dropping fetch _ | .pausing fetch => fetch.spec ∈ specs ∧ ∀ spec ∈ fetch.rest, spec ∈ specs
  | .idle | .verifying .. | .truncating | .writingManifest | .deleting => True

/-- A step renames a `.part` file, or adds no file. -/
inductive Moves (s : State) (a : Action) (s' : State) : Prop
  | rename (fetch : Fetch) (body : List UInt8) (haction : a = .rename)
      (htask : s.task = .renaming fetch)
      (hpart : s.disk.parts.lookup fetch.spec.localName = some body)
      (hfiles : s'.disk.files = s.disk.files.insert fetch.spec.localName body)
  | shrink (haction : a ≠ .rename) (hshrinks : Shrinks s.disk s'.disk)

theorem known_nextTask {todo : List FileSpec} (h : ∀ spec ∈ todo, spec ∈ specs) (verify : Bool) :
    (State.nextTask todo verify).Known := by
  cases todo with
  | nil => cases verify <;> trivial
  | cons spec todo => exact h

theorem moves_hash {readable made : Bool} (h : s.hash hashes readable made = some s')
    (hknown : s.task.Known) : s'.task.Known ∧ Shrinks s.disk s'.disk := by
  rw [State.hash] at h
  split at h
  case h_1 spec todo verify htask =>
    rw [htask] at hknown
    have hspec := hknown spec List.mem_cons_self
    have htodo : ∀ other ∈ todo, other ∈ specs :=
      fun other hmem => hknown other (List.mem_cons_of_mem _ hmem)
    split at h <;> obtain rfl := Option.some.inj h
    · exact ⟨known_nextTask htodo verify, .refl _⟩
    · exact ⟨⟨hspec, htodo⟩, fun _ _ hfile => hfile⟩
  case h_2 fetch htask =>
    rw [htask] at hknown
    split at h <;> obtain rfl := Option.some.inj h
    · exact ⟨known_nextTask hknown.2 _, .refl _⟩
    · exact ⟨hknown, .refl _⟩
  case h_3 =>
    split at h <;> obtain rfl := Option.some.inj h
    · exact ⟨trivial, .refl _⟩
    · exact ⟨trivial, .refl _⟩
  case h_4 failures _ =>
    obtain rfl := Option.some.inj h
    refine ⟨?_, .refl _⟩
    dsimp only [State.goto]
    split_ifs <;> trivial
  case h_5 => cases h

theorem voiceSpec_mem_specs {name : String} (h : voiceSpec name = some spec) : spec ∈ specs := by
  refine List.mem_append_right _ (List.mem_filterMap.mpr ⟨name, ?_, h⟩)
  obtain ⟨⟨size, sha1⟩, hlookup, -⟩ := Option.map_eq_some_iff.mp h
  obtain ⟨before, after, heq, -⟩ := List.lookup_eq_some_iff.mp hlookup
  rw [VOICES, heq]
  simp

theorem moves_begin (h : s.begin a = some s') (hknown : s.task.Known) :
    s'.task.Known ∧ Shrinks s.disk s'.disk := by
  cases a <;> simp only [State.begin, Option.some.injEq, reduceCtorEq] at h
  case download made =>
    subst h
    exact ⟨fun spec hspec => mem_specs_of_mem_FILES hspec, fun _ _ hfile => hfile⟩
  case downloadVoice name =>
    obtain ⟨spec, hspec, rfl⟩ := Option.map_eq_some_iff.mp h
    refine ⟨fun other hmem => ?_, .refl _⟩
    rw [List.mem_singleton.mp hmem]
    exact voiceSpec_mem_specs hspec
  case verifyAll =>
    subst h
    exact ⟨trivial, .refl _⟩
  case deleteVoice name deleted =>
    obtain ⟨spec, -, rfl⟩ := Option.map_eq_some_iff.mp h
    exact ⟨hknown, shrinks_deleteFile _ _ _⟩
  case deleteAll =>
    subst h
    exact ⟨trivial, .refl _⟩

theorem known_afterDrop {fetch : Fetch} (hfetch : fetch.spec ∈ specs
    ∧ ∀ spec ∈ fetch.rest, spec ∈ specs)
    (cancelled : Bool) : (State.afterDrop fetch cancelled).Known := by
  rw [State.afterDrop]
  split_ifs
  · trivial
  · exact hfetch
  · trivial

theorem moves_otherStep (h : s.otherStep s.task a = some s') (hknown : s.task.Known) :
    s'.task.Known ∧ Shrinks s.disk s'.disk := by
  rw [State.otherStep.eq_def] at h
  split at h
  case h_1 =>
    split at h <;> obtain rfl := Option.some.inj h
    · exact ⟨trivial, .refl _⟩
    · exact ⟨trivial, .refl _⟩
  case h_2 =>
    split at h <;> obtain rfl := Option.some.inj h
    · exact ⟨trivial, .refl _⟩
    · exact ⟨trivial, .refl _⟩
  case h_3 =>
    obtain rfl := Option.some.inj h
    exact ⟨hknown, shrinks_deleteFile _ _ _⟩
  case h_4 =>
    obtain rfl := Option.some.inj h
    exact ⟨hknown, fun _ _ hfile => hfile⟩
  case h_5 =>
    obtain rfl := Option.some.inj h
    exact ⟨hknown, fun _ _ hfile => hfile⟩
  case h_6 =>
    split at h <;> cases h
    exact ⟨hknown, fun _ _ hfile => hfile⟩
  case h_7 =>
    obtain rfl := Option.some.inj h
    exact ⟨trivial, .refl _⟩
  case h_8 => cases h

theorem moves_fetchStep (h : s.fetchStep s.task a = some s') (hknown : s.task.Known) :
    s'.task.Known ∧ Moves s a s' := by
  rw [State.fetchStep.eq_def] at h
  split at h
  case h_1 fetch htask =>
    rw [htask] at hknown
    split at h <;> cases h
    exact ⟨hknown, .shrink (by simp) fun _ _ hfile => hfile⟩
  case h_2 fetch htask =>
    rw [htask] at hknown
    obtain rfl := Option.some.inj h
    exact ⟨hknown, .shrink (by simp) (.refl _)⟩
  case h_3 fetch htask =>
    rw [htask] at hknown
    obtain rfl := Option.some.inj h
    exact ⟨hknown, .shrink (by simp) (.refl _)⟩
  case h_4 fetch chunk htask =>
    split at h <;> cases h
    exact ⟨hknown, .shrink (by simp) fun _ _ hfile => hfile⟩
  case h_5 fetch htask =>
    rw [htask] at hknown
    obtain rfl := Option.some.inj h
    exact ⟨hknown, .shrink (by simp) (.refl _)⟩
  case h_6 fetch htask =>
    rw [htask] at hknown
    obtain rfl := Option.some.inj h
    exact ⟨hknown, .shrink (by simp) (.refl _)⟩
  case h_7 fetch htask =>
    rw [htask] at hknown
    obtain rfl := Option.some.inj h
    exact ⟨hknown, .shrink (by simp) (.refl _)⟩
  case h_8 fetch htask =>
    rw [htask] at hknown
    split at h <;> cases h
    rename_i body hpart
    exact ⟨hknown, .rename fetch body rfl htask hpart rfl⟩
  case h_9 fetch htask =>
    rw [htask] at hknown
    obtain rfl := Option.some.inj h
    exact ⟨hknown, .shrink (by simp) (.refl _)⟩
  case h_10 fetch outcome deleted htask =>
    rw [htask] at hknown
    obtain rfl := Option.some.inj h
    refine ⟨?_, .shrink (by simp) (shrinks_leavePart _ _ _)⟩
    cases outcome with
    | saved => exact hknown
    | failed => exact hknown
    | cancelled => exact hknown
  case h_11 fetch cancelled deleted htask =>
    rw [htask] at hknown
    obtain rfl := Option.some.inj h
    exact ⟨known_afterDrop hknown cancelled, .shrink (by simp) (shrinks_deleteFile _ _ _)⟩
  case h_12 fetch htask =>
    rw [htask] at hknown
    obtain rfl := Option.some.inj h
    exact ⟨hknown, .shrink (by simp) (.refl _)⟩
  case h_13 =>
    obtain rfl := Option.some.inj h
    exact ⟨trivial, .shrink (by simp) (.refl _)⟩
  case h_14 => cases h

theorem moves_step (h : s.step hashes a = some s') (hknown : s.task.Known) :
    s'.task.Known ∧ Moves s a s' := by
  cases a <;> simp only [State.step] at h
  case kill =>
    obtain rfl := Option.some.inj h
    exact ⟨trivial, .shrink (by simp) (.refl _)⟩
  case hash => exact (moves_hash h hknown).imp_right (.shrink (by simp))
  case download | downloadVoice | verifyAll | deleteVoice | deleteAll =>
    split at h
    case isTrue => exact (moves_begin h hknown).imp_right (.shrink (by simp))
    case isFalse => cases h
  case manifest | deleteFile | deletePart | deleteManifest | deleteRoot | deleted =>
    exact (moves_otherStep h hknown).imp_right (.shrink (by simp))
  case openPart | write | endOfBody | rename | fail | cancel | leave | drop | resume =>
    exact moves_fetchStep h hknown

/-! ## Over a run -/

/-- A step that renames a body is right about the files exactly when the
body is; any other step keeps them right. -/
theorem neverUnverified_step (hknown : s.task.Known) (h : NeverUnverified hashes s)
    (hstep : s.step hashes a = some s') : NeverUnverified hashes s' ↔ RenamesPinned hashes s a := by
  rw [neverUnverified_iff] at h ⊢
  cases (moves_step hstep hknown).2 with
  | shrink haction hshrinks =>
    have hall : AllPinned hashes s'.disk :=
      fun spec hspec body hbody => h spec hspec body (hshrinks _ _ hbody)
    refine iff_of_true hall ?_
    cases a <;> trivial
  | rename fetch body haction htask hpart hfiles =>
    subst haction
    rw [htask] at hknown
    constructor
    · intro hall fetch' htask' body' hbody'
      rw [htask] at htask'
      cases htask'
      rw [hpart] at hbody'
      obtain rfl := Option.some.inj hbody'
      refine hall fetch.spec hknown.1 body ?_
      rw [hfiles]
      exact AList.lookup_insert _
    · intro hpinned spec hspec body' hbody'
      rw [hfiles] at hbody'
      by_cases hname : spec.localName = fetch.spec.localName
      · obtain rfl := spec_eq_of_localName hspec hknown.1 hname
        rw [AList.lookup_insert] at hbody'
        obtain rfl := Option.some.inj hbody'
        exact hpinned fetch htask body hpart
      · rw [AList.lookup_insert_ne hname] at hbody'
        exact h spec hspec body' hbody'

/-- From an empty directory: the model files are good in every state of a
run exactly when every body that is renamed has the pinned size and digest. -/
theorem active_iff (hashes : Hashes) (actions : List Action) (s : State)
    (hrun : Lts.run (State.step hashes) {} actions = some s) :
    Always (State.step hashes) (NeverUnverified hashes) {} actions ↔
      AllMeet (State.step hashes) (RenamesPinned hashes) {} actions := by
  refine always_iff_allMeet (I := fun s => s.task.Known)
    (fun _ _ _ hknown hstep => (moves_step hstep hknown).1)
    (fun _ _ _ hknown h hstep => neverUnverified_step hknown h hstep) trivial ?_ hrun
  exact neverUnverified_iff.mpr fun spec _ body hbody => by simp at hbody

/-- The digests of the body of one zero byte. -/
def zeroHashes : Hashes where
  sha256 body :=
    if body = [0] then "6e340b9cffb37a989ca544e6bb780a2c78901d3fb33738768511a30617afa01d" else ""
  gitBlobSha1 body := if body = [0] then "f76dd238ade08917e6712764a16a22005a50573d" else ""

/-- A download that is killed while it writes leaves a `.part` file only. -/
theorem active_of_killed_download :
    Always (State.step zeroHashes) (NeverUnverified zeroHashes) {}
      [.download true, .hash true true, .openPart, .write [0], .kill, .verifyAll] := by
  refine (active_iff zeroHashes _ _ rfl).mpr (allMeet_of_forall_mem (fun a ha s => ?_) _)
  simp only [List.mem_cons, List.not_mem_nil, or_false] at ha
  rcases ha with rfl | rfl | rfl | rfl | rfl | rfl <;> trivial

/-- A body of one byte is at its final path once it is renamed, and stays
there when the process dies before the check. -/
theorem renamed_body_unverified :
    ∃ s, Lts.run (State.step zeroHashes) {}
        [.download true, .hash true true, .openPart, .write [0], .endOfBody, .rename, .kill] = some s
      ∧ s.task = .idle ∧ ¬NeverUnverified zeroHashes s := by
  refine ⟨_, rfl, rfl, fun h => ?_⟩
  obtain ⟨hlength, -⟩ := h.1 _ (mem_specs_of_mem_FILES List.mem_cons_self) [0] rfl
  cases hlength

end TiktokSigner.Android.SupertonicModels
