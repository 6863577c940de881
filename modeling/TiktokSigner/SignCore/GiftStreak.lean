/-!
# Turning a burst of gift messages into one gift

`GiftStreaks`: a streak stays open until its last message, and reports the
highest count seen. A gift that cannot streak completes on arrival.
-/

namespace TiktokSigner

structure CompletedGift where
  userId : UInt64
  giftId : UInt64
  count : UInt64
deriving DecidableEq

/-- The running count of every open streak, by sender and gift. -/
structure GiftStreaks where
  running : UInt64 × UInt64 → Option UInt64 := fun _ => none

/-- `Ord::max`. -/
def maxCount (a b : UInt64) : UInt64 := if a ≤ b then b else a

theorem toNat_maxCount (a b : UInt64) : (maxCount a b).toNat = max a.toNat b.toNat := by
  unfold maxCount
  by_cases h : a ≤ b
  · rw [if_pos h, Nat.max_eq_right (UInt64.le_iff_toNat_le.mp h)]
  · have hle : ¬a.toNat ≤ b.toNat := fun hle => h (UInt64.le_iff_toNat_le.mpr hle)
    rw [if_neg h, Nat.max_eq_left (Nat.le_of_not_le hle)]

namespace GiftStreaks

def set (streaks : GiftStreaks) (key : UInt64 × UInt64) (count : Option UInt64) : GiftStreaks where
  running key' := if key' = key then count else streaks.running key'

def observe (streaks : GiftStreaks) (userId giftId repeatCount : UInt64)
    (repeatEnd streakable : Bool) : GiftStreaks × Option CompletedGift :=
  let key := (userId, giftId)
  -- a count of zero still means one gift was sent
  let count := maxCount repeatCount 1
  if !streakable then (streaks, some { userId, giftId, count })
  else
    let running := maxCount ((streaks.running key).getD 0) count
    if repeatEnd then (streaks.set key none, some { userId, giftId, count := running })
    else (streaks.set key (some running), none)

end GiftStreaks

end TiktokSigner
