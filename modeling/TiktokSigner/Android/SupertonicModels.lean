import TiktokSigner.Lib.Lts
import Mathlib.Data.List.AList

/-!
# `SupertonicModels`

The pinned model files, their download and their verification, as steps on
the file system: a body is written to a `.part` file, renamed, and then
checked. Every step may be the last one of the process (`kill`), and I/O
may fail where the source lets it.

The digests of the JDK are a parameter. A manifest is `unreadable` while
it is being written.
-/

namespace TiktokSigner.Android.SupertonicModels

inductive Integrity where
  | sha256 (hash : String)
  | blobSha1 (hash : String)
deriving DecidableEq

structure FileSpec where
  localName : String
  size : Nat
  integrity : Integrity
deriving DecidableEq

/-! ## The pinned revision -/

def REVISION : String := "3cadd1ee6394adea1bd021217a0e650ede09a323"

def MANIFEST_VERSION : Nat := 2

def MAX_ATTEMPTS : Nat := 3

/-- The six runtime files. -/
def FILES : List FileSpec :=
  [⟨"duration_predictor.onnx", 3700147,
      .sha256 "c3eb91414d5ff8a7a239b7fe9e34e7e2bf8a8140d8375ffb14718b1c639325db"⟩,
    ⟨"text_encoder.onnx", 36416150,
      .sha256 "c7befd5ea8c3119769e8a6c1486c4edc6a3bc8365c67621c881bbb774b9902ff"⟩,
    ⟨"vector_estimator.onnx", 256534781,
      .sha256 "883ac868ea0275ef0e991524dc64f16b3c0376efd7c320af6b53f5b780d7c61c"⟩,
    ⟨"vocoder.onnx", 101424195,
      .sha256 "085de76dd8e8d5836d6ca66826601f615939218f90e519f70ee8a36ed2a4c4ba"⟩,
    ⟨"tts.json", 8253, .blobSha1 "28575b0793c92607a0f0a292550df9bd17709a79"⟩,
    ⟨"unicode_indexer.json", 277676, .blobSha1 "3aaf4d33024aff0be455633c24b3636b3a810150"⟩]

def voiceSizes : List (String × Nat × String) :=
  [("F1", 292046, "421365f307ed1535d8da16845031d0e9fa3e60c5"),
    ("F2", 292423, "b09a3a433df8a4856d1d7d64736a56ddf37a4ea3"),
    ("F3", 290794, "a366f94c77c4b440404071f1a52bed3ccf83a5ff"),
    ("F4", 291808, "39c78a52795320c6101b7eaf984c0e2352fbdc18"),
    ("F5", 291479, "06983f8816ad00a8eeb7efd37a33d457587e16f8"),
    ("M1", 291748, "bddfff85a7c4c140c11620bd7005d86681dccdac"),
    ("M2", 292055, "602ff6c4d6d48cdb71c37461f7c175d71fe8b34b"),
    ("M3", 290198, "000b60436b77619b933fdc33628ad737595e6794"),
    ("M4", 291522, "aae253ae81185fa06a6469c3f1cdff04ed121ddf"),
    ("M5", 291469, "0536b252698830f8536c077edcb94e1ce4768ab6")]

def VOICES : List String := voiceSizes.map Prod.fst

/-- An unknown voice is refused. -/
def voiceSpec (name : String) : Option FileSpec :=
  (voiceSizes.lookup name).map fun (size, sha1) =>
    ⟨"style_" ++ name ++ ".json", size, .blobSha1 sha1⟩

/-- Every file with a pinned digest. -/
def specs : List FileSpec := FILES ++ VOICES.filterMap voiceSpec

/-! ## Integrity -/

/-- `MessageDigest`, in hexadecimal. -/
structure Hashes where
  sha256 : List UInt8 → String
  /-- With the header that git puts before a blob. -/
  gitBlobSha1 : List UInt8 → String

def equalsIgnoreCase (a b : String) : Prop := a.toLower = b.toLower

instance (a b : String) : Decidable (equalsIgnoreCase a b) :=
  inferInstanceAs (Decidable (_ = _))

def expected (spec : FileSpec) : String :=
  match spec.integrity with
  | .sha256 hash => hash
  | .blobSha1 hash => hash

def digest (hashes : Hashes) (spec : FileSpec) (body : List UInt8) : String :=
  match spec.integrity with
  | .sha256 _ => hashes.sha256 body
  | .blobSha1 _ => hashes.gitBlobSha1 body

/-- Exactly the expected length and digest. -/
def Pinned (hashes : Hashes) (spec : FileSpec) (body : List UInt8) : Prop :=
  body.length = spec.size ∧ equalsIgnoreCase (digest hashes spec body) (expected spec)

instance (hashes : Hashes) (spec : FileSpec) (body : List UInt8) :
    Decidable (Pinned hashes spec body) := inferInstanceAs (Decidable (_ ∧ _))

/-! ## The disk -/

structure LocalManifest where
  manifestVersion : Nat
  revision : String
  files : List (String × String)
deriving DecidableEq

inductive ManifestFile where
  | absent
  | unreadable
  | readable (manifest : LocalManifest)
deriving DecidableEq

structure Disk where
  /-- The directory is there. -/
  root : Bool := false
  files : AList fun _ : String => List UInt8 := ∅
  /-- The `.part` files, by the name they will get. -/
  parts : AList fun _ : String => List UInt8 := ∅
  manifest : ManifestFile := .absent

/-- What `writeManifest` writes. -/
def verifiedManifest : LocalManifest where
  manifestVersion := MANIFEST_VERSION
  revision := REVISION
  files := FILES.map fun spec => (spec.localName, expected spec)

inductive Status where
  | ready
  | missing (files : List String)
  | unverified (files : List String)
deriving DecidableEq

def LocalManifest.certifies (manifest : LocalManifest) : Bool :=
  manifest.manifestVersion = MANIFEST_VERSION && manifest.revision = REVISION
    && FILES.all fun spec => manifest.files.lookup spec.localName = some (expected spec)

def status (disk : Disk) : Status :=
  let missing := FILES.filter fun spec =>
    (disk.files.lookup spec.localName).map List.length ≠ some spec.size
  if missing ≠ [] then .missing (missing.map FileSpec.localName)
  else
    match disk.manifest with
    | .readable manifest =>
        if manifest.certifies then .ready else .unverified (FILES.map FileSpec.localName)
    | .absent | .unreadable => .unverified (FILES.map FileSpec.localName)

/-- `SupertonicIntegrity.matches`; a file that cannot be read does not. -/
def Disk.matches (hashes : Hashes) (disk : Disk) (spec : FileSpec) (readable : Bool) : Bool :=
  match disk.files.lookup spec.localName with
  | some body => readable && decide (Pinned hashes spec body)
  | none => false

/-! ## The process -/

/-- A call of `fetchVerified` and what follows it. -/
structure Fetch where
  spec : FileSpec
  attempt : Nat := 0
  /-- The files that `download` has still to do. -/
  rest : List FileSpec
  /-- It is `download`'s, which verifies all files at its end. -/
  verify : Bool
deriving DecidableEq

inductive Outcome where
  | saved
  | failed
  | cancelled
deriving DecidableEq

inductive Task where
  | idle
  /-- At the next file of `download`, or the one of `downloadVoice`. -/
  | next (todo : List FileSpec) (verify : Bool)
  /-- Before the `.part` file is opened. -/
  | connecting (fetch : Fetch)
  | writing (fetch : Fetch)
  | renaming (fetch : Fetch)
  /-- In the `finally` of `fetch`. -/
  | leaving (fetch : Fetch) (outcome : Outcome)
  | checking (fetch : Fetch)
  /-- Before `out.delete()`. -/
  | dropping (fetch : Fetch) (cancelled : Bool)
  | pausing (fetch : Fetch)
  | verifying (todo : List FileSpec) (failures : List String)
  /-- In `writeText`, before the manifest is truncated. -/
  | truncating
  | writingManifest
  | deleting
deriving DecidableEq

structure State where
  disk : Disk := {}
  task : Task := .idle

inductive Action where
  | download (made : Bool)
  | downloadVoice (name : String)
  | verifyAll
  | deleteVoice (name : String) (deleted : Bool)
  | deleteAll
  /-- A file is hashed; `made` is about `mkdirs`. -/
  | hash (readable made : Bool)
  | openPart
  | write (chunk : List UInt8)
  | endOfBody
  | rename
  /-- An exception. -/
  | fail
  /-- A cancellation. -/
  | cancel
  /-- The `finally` is done; `deleted` is about `tmp.delete()`. -/
  | leave (deleted : Bool)
  | drop (deleted : Bool)
  | resume
  | manifest (written : Bool)
  | deleteFile (name : String)
  | deletePart (name : String)
  | deleteManifest
  | deleteRoot
  /-- `deleteRecursively` returns. -/
  | deleted
  | kill

namespace Disk

/-- `if (tmp.isFile && !out.isFile) tmp.delete()`. -/
def leavePart (disk : Disk) (name : String) (deleted : Bool) : Disk :=
  if name ∈ disk.parts ∧ name ∉ disk.files ∧ deleted then
    { disk with parts := disk.parts.erase name }
  else disk

def deleteFile (disk : Disk) (name : String) (deleted : Bool) : Disk :=
  if deleted then { disk with files := disk.files.erase name } else disk

end Disk

namespace State

def goto (s : State) (task : Task) : State := { s with task }

/-- After the last `out.delete()` of an attempt. -/
def afterDrop (fetch : Fetch) (cancelled : Bool) : Task :=
  if cancelled then .idle
  else if fetch.attempt < MAX_ATTEMPTS - 1 then .pausing fetch
  else .idle

/-- Past the last file: `download` verifies all of them. -/
def nextTask (todo : List FileSpec) (verify : Bool) : Task :=
  match todo, verify with
  | [], true => .verifying FILES []
  | [], false => .idle
  | _ :: _, _ => .next todo verify

def hash (hashes : Hashes) (s : State) (readable made : Bool) : Option State :=
  match s.task with
  | .next (spec :: todo) verify =>
      if s.disk.matches hashes spec readable then some (s.goto (nextTask todo verify))
      else some ({ s with disk := { s.disk with root := s.disk.root || made } }.goto
        (.connecting { spec, rest := todo, verify }))
  | .checking fetch =>
      if s.disk.matches hashes fetch.spec readable then
        some (s.goto (nextTask fetch.rest fetch.verify))
      else some (s.goto (.dropping fetch false))
  | .verifying (spec :: todo) failures =>
      if s.disk.matches hashes spec readable then some (s.goto (.verifying todo failures))
      else some (s.goto (.verifying todo (failures ++ [spec.localName])))
  | .verifying [] failures =>
      some (s.goto (if failures = [] then .truncating else .idle))
  | _ => none

def begin (s : State) : Action → Option State
  | .download made =>
      some ({ s with disk := { s.disk with root := s.disk.root || made } }.goto
        (.next FILES true))
  | .downloadVoice name => (voiceSpec name).map fun spec => s.goto (.next [spec] false)
  | .verifyAll => some (s.goto (.verifying FILES []))
  | .deleteVoice name deleted =>
      (voiceSpec name).map fun spec => { s with disk := s.disk.deleteFile spec.localName deleted }
  | .deleteAll => some (s.goto .deleting)
  | _ => none

/-- A step of `fetchVerified`, hashing apart. -/
def fetchStep (s : State) : Task → Action → Option State
  | .connecting fetch, .openPart =>
      if s.disk.root then
        some ({ s with
          disk := { s.disk with parts := s.disk.parts.insert fetch.spec.localName [] } }.goto
            (.writing fetch))
      else none
  | .connecting fetch, .fail => some (s.goto (.leaving fetch .failed))
  | .connecting fetch, .cancel => some (s.goto (.leaving fetch .cancelled))
  | .writing fetch, .write chunk =>
      match s.disk.parts.lookup fetch.spec.localName with
      | some body =>
          some { s with disk := { s.disk with
            parts := s.disk.parts.insert fetch.spec.localName (body ++ chunk) } }
      | none => none
  | .writing fetch, .endOfBody => some (s.goto (.renaming fetch))
  | .writing fetch, .fail => some (s.goto (.leaving fetch .failed))
  | .writing fetch, .cancel => some (s.goto (.leaving fetch .cancelled))
  | .renaming fetch, .rename =>
      match s.disk.parts.lookup fetch.spec.localName with
      | some body =>
          some ({ s with disk := { s.disk with
            files := s.disk.files.insert fetch.spec.localName body
            parts := s.disk.parts.erase fetch.spec.localName } }.goto (.leaving fetch .saved))
      | none => none
  | .renaming fetch, .fail => some (s.goto (.leaving fetch .failed))
  | .leaving fetch outcome, .leave deleted =>
      some ({ s with disk := s.disk.leavePart fetch.spec.localName deleted }.goto
        (match outcome with
        | .saved => .checking fetch
        | .failed => .dropping fetch false
        | .cancelled => .dropping fetch true))
  | .dropping fetch cancelled, .drop deleted =>
      some ({ s with disk := s.disk.deleteFile fetch.spec.localName deleted }.goto
        (afterDrop fetch cancelled))
  | .pausing fetch, .resume => some (s.goto (.connecting { fetch with attempt := fetch.attempt + 1 }))
  | .pausing _, .cancel => some (s.goto .idle)
  | _, _ => none

/-- A step of `writeManifest` or `deleteRecursively`. -/
def otherStep (s : State) : Task → Action → Option State
  | .truncating, .manifest written =>
      if written then
        some ({ s with disk := { s.disk with manifest := .unreadable } }.goto .writingManifest)
      else some (s.goto .idle)
  | .writingManifest, .manifest written =>
      if written then
        some ({ s with disk := { s.disk with manifest := .readable verifiedManifest } }.goto .idle)
      else some (s.goto .idle)
  | .deleting, .deleteFile name => some { s with disk := s.disk.deleteFile name true }
  | .deleting, .deletePart name =>
      some { s with disk := { s.disk with parts := s.disk.parts.erase name } }
  | .deleting, .deleteManifest => some { s with disk := { s.disk with manifest := .absent } }
  | .deleting, .deleteRoot =>
      if s.disk.files.keys = [] ∧ s.disk.parts.keys = [] ∧ s.disk.manifest = .absent then
        some { s with disk := { s.disk with root := false } }
      else none
  | .deleting, .deleted => some (s.goto .idle)
  | _, _ => none

def step (hashes : Hashes) (s : State) (a : Action) : Option State :=
  match a with
  | .kill => some (s.goto .idle)
  | .hash readable made => s.hash hashes readable made
  | .download _ | .downloadVoice _ | .verifyAll | .deleteVoice _ _ | .deleteAll =>
      if s.task = .idle then s.begin a else none
  | .manifest _ | .deleteFile _ | .deletePart _ | .deleteManifest | .deleteRoot | .deleted =>
      s.otherStep s.task a
  | _ => s.fetchStep s.task a

end State

end TiktokSigner.Android.SupertonicModels
