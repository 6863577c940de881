import TiktokSigner.LiveEvents.Event

/-!
# Social actions

`social.rs`: what the action code of a social message means. Follow and
share are the only confirmed codes.
-/

namespace TiktokSigner.LiveEvents

inductive SocialKind where
  | follow
  | share
  | other
  | unknown
deriving DecidableEq

inductive SocialConfidence where
  | confirmed
  | inferred
  | unknown
deriving DecidableEq

/-- An observed field that accompanies a classification. -/
inductive SocialEvidence where
  | action (value : Int64)
  | shareType (value : Int64)
  | shareTarget (value : String)
  | shareDisplayStyle (value : Int64)
  | followType (value : Int32)
  | scene (value : String)
  | targetUserId (value : Int64)
deriving DecidableEq

structure SocialClassification where
  kind : SocialKind
  confidence : SocialConfidence
  rawAction : Int64
  evidence : List SocialEvidence
deriving DecidableEq

/-- The mapping table. -/
def classifyAction (rawAction : Int64) : SocialClassification :=
  let (kind, confidence) :=
    if rawAction = 1 then (SocialKind.follow, SocialConfidence.confirmed)
    else if rawAction = 3 then (.share, .confirmed)
    else if rawAction = 0 then (.unknown, .unknown)
    else (.other, .unknown)
  { kind, confidence, rawAction, evidence := [.action rawAction] }

/-- The other observed fields are attached as evidence. -/
def SocialEvent.classify (event : SocialEvent) : SocialClassification :=
  let classification := classifyAction event.action
  { classification with
    evidence := classification.evidence ++
      (if event.shareType ≠ 0 then [.shareType event.shareType] else []) ++
      (if event.shareTarget ≠ "" then [.shareTarget event.shareTarget] else []) ++
      (if event.shareDisplayStyle ≠ 0 then [.shareDisplayStyle event.shareDisplayStyle] else []) ++
      (if event.followType ≠ 0 then [.followType event.followType] else []) ++
      (if event.scene ≠ "" then [.scene event.scene] else []) ++
      (if event.targetUserId ≠ 0 then [.targetUserId event.targetUserId] else []) }

theorem classifyAction_kind (rawAction : Int64) :
    (classifyAction rawAction).kind =
      if rawAction.toInt = 1 then .follow
      else if rawAction.toInt = 3 then .share
      else if rawAction.toInt = 0 then .unknown
      else .other := by
  have hone : rawAction.toInt = 1 ↔ rawAction = 1 := Int64.toInt_inj (y := 1)
  have hthree : rawAction.toInt = 3 ↔ rawAction = 3 := Int64.toInt_inj (y := 3)
  have hzero : rawAction.toInt = 0 ↔ rawAction = 0 := Int64.toInt_inj (y := 0)
  simp only [hone, hthree, hzero, classifyAction]
  split_ifs <;> rfl

end TiktokSigner.LiveEvents
