import TiktokSigner.Parity.RoomLookup

/-!
# Room lookups that do not contradict each other

Whoever finds a usable room id in an answer says live or offline by the
status that it reads, and all four read it from the same two fields. So
they contradict each other only where a status is 2 to one of them and not
to Rust, or where a room id is no text.
-/

namespace TiktokSigner.Parity

open LiveDiscovery

section

variable {Number : Type} (readers : JsonReaders Number)

/-! ## Who accepts the answer, and what each reads -/

/-- What one says who accepts the answer or not, and finds the room live or not. -/
def Verdict.ofRoom (accepted live : Bool) (room : String) : Verdict :=
  if accepted then if live then .live room else .offline else .undecided

/-- The status of the user, or of the room where the user has none that can be read. -/
def statusBy (read : Json Number → Option Int) (body : Json Number) : Option Int :=
  (((userAt body).bind (·.get "status")).bind read).or
    (((liveRoomAt body).bind (·.get "status")).bind read)

/-- An integer literal, as `serde_json` reads it. -/
def literal (field : Json Number) : Option Int := field.asNum.bind readers.asI64

/-- An integer, as JavaScript reads it. -/
def integer (field : Json Number) : Option Int := field.asNum.bind readers.integerOf

/-- The one status field that Java reads. -/
def Java.statusField (body : Json Number) : Option Int :=
  (((userAt body).bind (·.get "status")).or ((liveRoomAt body).bind (·.get "status"))).bind
    (Java.isIntegral readers)

def Java.accepts (handle : String) (body : Json Number) : Bool :=
  (Java.normalize handle).any (Java.checked readers · body)

def Android.uniqueId (body : Json Number) : String :=
  ((userAt body).map (OrgJson.optString readers · "uniqueId" "")).getD ""

/-- Whoever accepts the answer reads a live status exactly where Rust does. -/
structure SameStatus (handle room : String) (body : Json Number) : Prop where
  java : Java.accepts readers handle body = true → Java.isDigits room = true →
    ∀ status, Java.statusField readers body = some status →
      status = 0 ∨ status = 2 ∨ status = 4 →
        (status = 2 ↔ statusBy (literal readers) body = some 2)
  typeScript : TypeScript.roomLookupResponseSchema.valid readers.integerOf body = true →
    (statusBy (integer readers) body = some 2 ↔ statusBy (literal readers) body = some 2)
  android : Android.uniqueId readers body ≠ "" →
    (statusBy (OrgJson.toLong readers) body = some 2 ↔ statusBy (literal readers) body = some 2)

/-- Nobody reads a live room out of a room id that is not a text. -/
structure Unread (handle : String) (roomId body : Json Number) : Prop where
  java : Java.accepts readers handle body = true → Java.statusField readers body = some 2 →
    ∀ n, Java.isIntegral readers roomId = some n → ¬(0 < n ∧ n ≤ maxSafeInteger)
  android : Android.uniqueId readers body ≠ "" →
    isUsableRoomId (readers.stringOf roomId) = true →
      statusBy (OrgJson.toLong readers) body ≠ some 2

/-- The room id of the user, if the user is an object. -/
def roomIdField (body : Json Number) : Option (Json Number) :=
  ((userAt body).filter Json.isObject).bind (·.get "roomId")

/-- No user or no room id; a text, and the status that all read is the one
Rust reads; or no text, and nobody reads a live room out of it. -/
def Harmless (handle : String) (body : Json Number) : Prop :=
  match roomIdField body with
  | none => True
  | some (.str room) => isUsableRoomId room = true → SameStatus readers handle room body
  | some roomId => Unread readers handle roomId body

end

/-! ## Lists of verdicts -/

theorem neverContradict_of_no_live {verdicts : List Verdict}
    (h : ∀ room, .live room ∉ verdicts) : NeverContradict verdicts :=
  fun room hlive => absurd hlive (h room)

theorem neverContradict_noRoom {others : List Verdict} :
    NeverContradict (.noRoom :: others) ↔ ∀ room, .live room ∉ others := by
  constructor
  · intro h room hlive
    rcases h room (List.mem_cons_of_mem _ hlive) .noRoom List.mem_cons_self with h | h <;> cases h
  · intro h
    apply neverContradict_of_no_live
    intro room hlive
    rcases List.mem_cons.mp hlive with hlive | hlive
    · cases hlive
    · exact h room hlive

theorem neverContradict_ofRoom {live : Bool} {room : String} {others : List (Bool × Bool)} :
    NeverContradict
        (Verdict.ofRoom true live room :: others.map fun o => Verdict.ofRoom o.1 o.2 room) ↔
      ∀ o ∈ others, o.1 = true → o.2 = live := by
  have hmem : ∀ {o : Bool × Bool}, o ∈ others → Verdict.ofRoom o.1 o.2 room ∈
      Verdict.ofRoom true live room :: others.map fun o => Verdict.ofRoom o.1 o.2 room :=
    fun ho => List.mem_cons_of_mem _ (List.mem_map_of_mem ho)
  constructor
  · intro h o ho haccepted
    have hother := hmem ho
    rw [haccepted] at hother
    cases hlive : o.2 <;> cases live
    · rfl
    · -- offline against live
      rw [hlive] at hother
      rcases h room List.mem_cons_self _ hother with h | h <;> cases h
    · rw [hlive] at hother
      rcases h room hother _ List.mem_cons_self with h | h <;> cases h
    · rfl
  · intro h found hfound verdict hverdict
    -- whoever says live says what the first one says
    have hsame : ∀ {verdict : Verdict}, verdict ∈ Verdict.ofRoom true live room ::
        (others.map fun o => Verdict.ofRoom o.1 o.2 room) →
        verdict = .undecided ∨ verdict = Verdict.ofRoom true live room := by
      intro verdict hverdict
      rcases List.mem_cons.mp hverdict with rfl | hverdict
      · exact Or.inr rfl
      · obtain ⟨o, ho, rfl⟩ := List.mem_map.mp hverdict
        cases haccepted : o.1
        · exact Or.inl rfl
        · exact Or.inr (by rw [h o ho haccepted])
    rcases hsame hfound with hnone | hlive
    · cases hnone
    · rw [hlive]
      exact hsame hverdict

/-! ## Each reading of an answer with a user -/

section

variable {Number : Type} {readers : JsonReaders Number} {handle room : String} {status : Nat}
  {body user : Json Number}

theorem getD_zero_eq_two {status : Option Int} : status.getD 0 = 2 ↔ status = some 2 := by
  cases status with
  | none => simp
  | some n => simp

theorem statusBy_of_user (huser : userAt body = some user) (read : Json Number → Option Int) :
    statusBy read body = ((user.get "status").bind read).or
      (((liveRoomAt body).bind (·.get "status")).bind read) := by
  rw [statusBy, huser, Option.bind_some]

theorem userAt_filter (huser : userAt body = some user) (hobject : user.isObject = true) :
    (userAt body).filter Json.isObject = some user := by
  rw [huser, Option.filter_some, if_pos hobject]

/-! ### Rust -/

theorem lookupStatus_eq (huser : userAt body = some user) :
    lookupStatus readers.asI64 user (liveRoomAt body) =
      (statusBy (literal readers) body).getD 0 := by
  have hint : ∀ value : Json Number, intAt readers.asI64 value "status" =
      (value.get "status").bind (literal readers) := fun value => Option.bind_assoc ..
  rw [lookupStatus, statusBy_of_user huser, hint, funext hint, Option.bind_assoc]

theorem rustVerdict_of_user (hstatus : 200 ≤ status ∧ status < 300)
    (huser : userAt body = some user) (hobject : user.isObject = true) :
    rustVerdict readers handle status body =
      if isUsableRoomId (stringAt user "roomId") then
        .ofRoom true (statusBy (literal readers) body = some 2) (stringAt user "roomId")
      else .noRoom := by
  have hfound : (!(userAt body).any (!·.isNull)) = false := by
    cases user with
    | obj members => rw [huser]; rfl
    | _ => cases hobject
  have hlookup : RoomLookup.fromValue readers.asI64 body = some
      { uniqueId := stringAt user "uniqueId"
        roomId := stringAt user "roomId"
        nickname := stringAt user "nickname"
        status := lookupStatus readers.asI64 user (liveRoomAt body)
        title := ((liveRoomAt body).map fun liveRoom => stringAt liveRoom "title").getD "" } := by
    rw [RoomLookup.fromValue, userAt_filter huser hobject, Option.map_some]
  rw [rustVerdict, interpretRoomLookup, if_neg (not_not_intro hstatus), if_neg (by simp [hfound]),
    hlookup]
  cases husable : isUsableRoomId (stringAt user "roomId") with
  | false => simp [husable]
  | true =>
    simp only [husable, Bool.not_true, Bool.false_eq_true, if_false, if_true, RoomLookup.isLive,
      Bool.and_true, isLiveStatus, lookupStatus_eq huser, getD_zero_eq_two]
    rfl

/-! ### Android -/

theorem Android.statusOf_eq (huser : userAt body = some user) :
    Android.statusOf readers user
        ((OrgJson.optJsonObject body "data").bind fun data =>
          OrgJson.optJsonObject data "liveRoom") =
      (statusBy (OrgJson.toLong readers) body).getD 0 := by
  obtain ⟨data, hdata, hdatauser⟩ := Option.bind_eq_some_iff.mp huser
  have hroom : liveRoomAt body = data.get "liveRoom" := by rw [liveRoomAt, hdata, Option.bind_some]
  have hopt : OrgJson.optJsonObject body "data" = some data := by
    rw [OrgJson.optJsonObject, hdata, Option.filter_some, if_pos (Json.isObject_of_get hdatauser)]
  rw [statusBy_of_user huser, hroom, hopt, Option.bind_some, Android.statusOf, OrgJson.optLong,
    OrgJson.optJsonObject]
  -- a room that is not an object has no status to read
  cases data.get "liveRoom" with
  | none => cases (user.get "status").bind (OrgJson.toLong readers) <;> rfl
  | some liveRoom =>
    cases liveRoom <;> cases (user.get "status").bind (OrgJson.toLong readers) <;> rfl

theorem Android.RoomLookup.hasRoom_eq (room : Android.RoomLookup) :
    room.hasRoom = isUsableRoomId room.roomId := rfl

theorem Android.RoomLookup.isLive_eq (room : Android.RoomLookup) :
    room.isLive = (isUsableRoomId room.roomId && decide (room.status = 2)) := rfl

theorem Android.verdict_of_user (huser : userAt body = some user)
    (hobject : user.isObject = true) :
    Android.verdict readers handle body =
      if Android.uniqueId readers body = "" then .undecided
      else if isUsableRoomId (OrgJson.optString readers user "roomId" "") then
        .ofRoom true (statusBy (OrgJson.toLong readers) body = some 2)
          (OrgJson.optString readers user "roomId" "")
      else .noRoom := by
  obtain ⟨data, hdata, hdatauser⟩ := Option.bind_eq_some_iff.mp huser
  have hopt : ((OrgJson.optJsonObject body "data").bind fun data =>
      OrgJson.optJsonObject data "user") = some user := by
    rw [OrgJson.optJsonObject, hdata, Option.filter_some, if_pos (Json.isObject_of_get hdatauser),
      Option.bind_some, OrgJson.optJsonObject, hdatauser, Option.filter_some, if_pos hobject]
  have hname : Android.uniqueId readers body = OrgJson.optString readers user "uniqueId" "" := by
    rw [Android.uniqueId, huser, Option.map_some, Option.getD_some]
  rw [Android.verdict, Android.parseRoomLookup, if_neg (by simp [Json.isObject_of_get hdata])]
  simp only [hopt, Android.statusOf_eq huser, hname]
  by_cases hempty : OrgJson.optString readers user "uniqueId" "" = ""
  · rw [if_pos hempty, if_pos hempty]
  rw [if_neg hempty, if_neg hempty, Android.RoomLookup.hasRoom_eq]
  cases husable : isUsableRoomId (OrgJson.optString readers user "roomId" "") with
  | false => rfl
  | true =>
    simp only [Bool.not_true, Bool.false_eq_true, if_false, if_true,
      Android.RoomLookup.isLive_eq, husable, Bool.true_and, getD_zero_eq_two]
    rfl

/-! ### TypeScript -/

theorem TypeScript.statusOf_eq (huser : userAt body = some user) :
    TypeScript.statusOf readers user (liveRoomAt body) =
      (statusBy (integer readers) body).getD 0 := by
  have hint : ∀ value : Json Number, TypeScript.integerAt readers value "status" =
      (value.get "status").bind (integer readers) := fun value => Option.bind_assoc ..
  rw [TypeScript.statusOf, statusBy_of_user huser, hint, funext hint, Option.bind_assoc]

/-- The schema admits an object with no other room id than digits. -/
theorem TypeScript.user_of_valid (huser : userAt body = some user)
    (hvalid : TypeScript.roomLookupResponseSchema.valid readers.integerOf body = true) :
    user.isObject = true ∧ ∀ roomId, user.get "roomId" = some roomId →
      ∃ room, roomId = .str room ∧ room.toList.all Char.isDigit = true := by
  obtain ⟨data, hdata, hdatauser⟩ := Option.bind_eq_some_iff.mp huser
  have hvdata := JsonSchema.valid_get List.mem_cons_self hvalid hdata
  have hvuser := JsonSchema.valid_get List.mem_cons_self hvdata hdatauser
  exact ⟨(JsonSchema.valid_object_iff.mp hvuser).1, fun roomId hroom =>
    JsonSchema.valid_text (List.mem_cons_of_mem _ List.mem_cons_self) hvuser hroom⟩

theorem TypeScript.verdict_of_text (hstatus : 200 ≤ status ∧ status < 300)
    (huser : userAt body = some user) (hroom : user.get "roomId" = some (.str room))
    (husable : isUsableRoomId room = true) :
    TypeScript.verdict readers handle status body =
      .ofRoom (TypeScript.roomLookupResponseSchema.valid readers.integerOf body)
        (statusBy (integer readers) body = some 2) room := by
  rw [TypeScript.verdict, TypeScript.roomLookup, if_neg (not_not_intro hstatus)]
  cases hvalid : TypeScript.roomLookupResponseSchema.valid readers.integerOf body with
  | false => rfl
  | true =>
    obtain ⟨text, htext, hdigits⟩ := (TypeScript.user_of_valid huser hvalid).2 _ hroom
    obtain rfl : room = text := Json.str.inj htext
    have hat : stringAt user "roomId" = room := stringAt_of_get hroom
    have hne : room ≠ "" := ne_empty_of_usable husable
    have hparse : TypeScript.parseId room = some room := by
      rw [TypeScript.parseId, if_pos ⟨hne, hdigits⟩]
    have hlive : (decide (room ≠ "") && decide (room ≠ "0")) = true := husable
    simp only [Bool.not_true, Bool.false_eq_true, if_false, huser, Option.bind_some, hat, hne,
      hparse, Option.map_some, TypeScript.statusOf_eq huser, getD_zero_eq_two, Bool.and_assoc,
      hlive, Bool.and_true, husable, if_true]
    rfl

/-- TypeScript finds a room live by its text only. -/
theorem TypeScript.of_verdict_live
    (h : TypeScript.verdict readers handle status body = .live room) :
    isUsableRoomId room = true ∧ ∃ user, userAt body = some user ∧ user.isObject = true ∧
      user.get "roomId" = some (.str room) := by
  rw [TypeScript.verdict] at h
  cases hlookup : TypeScript.roomLookup readers handle status body with
  | none => rw [hlookup] at h; cases h
  | some lookup =>
    rw [hlookup] at h
    dsimp only at h
    rw [TypeScript.roomLookup] at hlookup
    split_ifs at hlookup with hstatus hvalid
    obtain ⟨user, huser, hparsed⟩ := Option.bind_eq_some_iff.mp hlookup
    obtain ⟨roomId, hroomId, rfl⟩ := Option.map_eq_some_iff.mp hparsed
    split_ifs at h with hlive
    obtain rfl : roomId = room := Verdict.live.inj h
    have husable : isUsableRoomId roomId = true := by
      rw [Bool.and_assoc, Bool.and_eq_true] at hlive
      exact hlive.2
    have hne : stringAt user "roomId" ≠ "" := by
      intro hempty
      rw [if_pos hempty] at hroomId
      exact ne_empty_of_usable husable (Option.some.inj hroomId).symm
    rw [if_neg hne, TypeScript.parseId] at hroomId
    split_ifs at hroomId
    obtain rfl : stringAt user "roomId" = roomId := Option.some.inj hroomId
    exact ⟨husable, user, huser, Json.isObject_of_get (get_of_stringAt_ne hne),
      get_of_stringAt_ne hne⟩

/-! ### Java -/

theorem Java.statusOf_eq_some {n : Int} : Java.statusOf readers body = some n ↔
    Java.statusField readers body = some n ∧ (n = 0 ∨ n = 2 ∨ n = 4) := by
  rw [Java.statusOf, ← Java.statusField, Option.filter_eq_some_iff]
  refine and_congr_right fun _ => ?_
  simp only [Bool.and_eq_true, Bool.or_eq_true, decide_eq_true_eq, or_assoc]
  exact ⟨fun h => h.2, fun h => ⟨by omega, h⟩⟩

theorem Java.verdict_eq (hstatus : 200 ≤ status ∧ status < 300) :
    Java.verdict readers handle status body =
      if Java.accepts readers handle body then
        match Java.statusOf readers body, Java.roomIdOf readers body with
        | some value, some roomId =>
            .ofRoom true (value = 2 && isUsableRoomId roomId) roomId
        | _, _ => .undecided
      else .undecided := by
  have hfail : ¬(status < 200 ∨ 300 ≤ status) := by omega
  rw [Java.verdict, Java.parse, Java.accepts]
  cases Java.normalize handle with
  | none => rfl
  | some id =>
    rw [Option.map_some, Option.any_some, if_neg hfail]
    by_cases hchecked : Java.checked readers id body = true
    · rw [hchecked, if_pos rfl]
      simp only [Bool.not_true, Bool.false_eq_true, if_false]
      cases hvalue : Java.statusOf readers body with
      | none => rfl
      | some value =>
        cases hroomId : Java.roomIdOf readers body with
        | none => rfl
        | some roomId =>
          have hand : (decide (value = 2) && decide (roomId ≠ "") && decide (roomId ≠ "0")) =
              (decide (value = 2) && isUsableRoomId roomId) := Bool.and_assoc ..
          simp only [hand]
          cases decide (value = 2) && isUsableRoomId roomId <;> rfl
    · rw [if_neg hchecked, if_pos (by simp [hchecked])]

theorem Java.verdict_eq_live (hstatus : 200 ≤ status ∧ status < 300) :
    Java.verdict readers handle status body = .live room ↔
      Java.accepts readers handle body = true ∧ Java.statusField readers body = some 2 ∧
        Java.roomIdOf readers body = some room ∧ isUsableRoomId room = true := by
  rw [Java.verdict_eq hstatus]
  constructor
  · intro h
    split_ifs at h with haccepts
    cases hvalue : Java.statusOf readers body with
    | none => simp [hvalue] at h
    | some value =>
      cases hroomId : Java.roomIdOf readers body with
      | none => simp [hvalue, hroomId] at h
      | some roomId =>
        rw [hvalue, hroomId] at h
        dsimp only at h
        rw [Verdict.ofRoom, if_pos rfl] at h
        split_ifs at h with hlive
        obtain rfl : roomId = room := Verdict.live.inj h
        rw [Bool.and_eq_true, decide_eq_true_eq] at hlive
        rw [hlive.1] at hvalue
        exact ⟨haccepts, (Java.statusOf_eq_some.mp hvalue).1, rfl, hlive.2⟩
  · rintro ⟨haccepts, hfield, hroomId, husable⟩
    have hvalue : Java.statusOf readers body = some 2 :=
      Java.statusOf_eq_some.mpr ⟨hfield, Or.inr (Or.inl rfl)⟩
    rw [if_pos haccepts, hvalue, hroomId]
    simp [Verdict.ofRoom, husable]

theorem Java.user_of_accepts (h : Java.accepts readers handle body = true) :
    ∃ user, userAt body = some user ∧ user.isObject = true := by
  obtain ⟨id, -, hchecked⟩ := (Option.any_eq_true ..).mp h
  simp only [Java.checked, Bool.and_eq_true] at hchecked
  have huser : (userAt body).any Json.isObject = true := by tauto
  exact (Option.any_eq_true ..).mp huser

theorem Java.roomIdOf_text (huser : userAt body = some user)
    (hroom : user.get "roomId" = some (.str room)) : Java.roomIdOf readers body =
      if room = "" || Java.isDigits room then some room else none := by
  rw [Java.roomIdOf, huser, Option.bind_some, hroom]

theorem Java.verdict_of_text (hstatus : 200 ≤ status ∧ status < 300)
    (huser : userAt body = some user) (hroom : user.get "roomId" = some (.str room))
    (husable : isUsableRoomId room = true) :
    Java.verdict readers handle status body =
      .ofRoom (Java.accepts readers handle body && Java.isDigits room &&
          (Java.statusOf readers body).isSome)
        (Java.statusOf readers body = some 2) room := by
  have hne := ne_empty_of_usable husable
  rw [Java.verdict_eq hstatus, Java.roomIdOf_text huser hroom, decide_eq_false hne, Bool.false_or]
  cases Java.accepts readers handle body with
  | false => rfl
  | true =>
    cases Java.isDigits room with
    | false => cases Java.statusOf readers body <;> rfl
    | true =>
      cases Java.statusOf readers body with
      | none => rfl
      | some value => simp [husable]

/-- An integral room id is usable where it is positive. -/
theorem usable_repr {n : Int} (hn : 0 ≤ n) : isUsableRoomId n.repr = true ↔ 0 < n := by
  constructor
  · intro husable
    rcases hn.lt_or_eq with hpos | rfl
    · exact hpos
    · cases husable
  · intro hpos
    obtain ⟨m, rfl⟩ := Int.eq_ofNat_of_zero_le hn
    have hempty : (m : Int).repr ≠ "" := Nat.repr_ne_empty
    have hzero : (m : Int).repr ≠ "0" := fun h => hpos.ne' (Int.repr_injective h)
    simp [isUsableRoomId, hempty, hzero]

/-- Java reads a usable room out of a positive integral number, and of
nothing else that is not a text. -/
theorem Java.roomIdOf_unusable_iff {roomId : Json Number} (huser : userAt body = some user)
    (hroom : user.get "roomId" = some roomId) (htext : roomId.asStr = none) :
    (∀ room, Java.roomIdOf readers body = some room → isUsableRoomId room = false) ↔
      ∀ n, Java.isIntegral readers roomId = some n → ¬(0 < n ∧ n ≤ maxSafeInteger) := by
  rw [Java.roomIdOf, huser, Option.bind_some, hroom]
  cases roomId with
  | str s => cases htext
  | null =>
    refine iff_of_true (fun room h => ?_) (fun n h => by cases h)
    obtain rfl : "" = room := Option.some.inj h
    rfl
  | num number =>
    have hread : ∀ n, Java.isIntegral readers (.num number) = some n ↔
        readers.integral number = some n := fun n => Iff.rfl
    constructor
    · intro h n hn hbounds
      have hunusable := h n.repr (by simp [(hread n).mp hn, hbounds.1.le, hbounds.2])
      rw [(usable_repr hbounds.1.le).mpr hbounds.1] at hunusable
      cases hunusable
    · intro h room hroomId
      obtain ⟨n, hn, rfl⟩ := Option.map_eq_some_iff.mp hroomId
      obtain ⟨hnumber, hbounds⟩ := Option.filter_eq_some_iff.mp hn
      simp only [Bool.and_eq_true, decide_eq_true_eq] at hbounds
      rw [← Bool.not_eq_true, usable_repr hbounds.1]
      exact fun hpos => h n ((hread n).mpr hnumber) ⟨hpos, hbounds.2⟩
  | _ => exact iff_of_true (fun room h => by cases h) (fun n h => by cases h)

/-! ## The four together -/

/-- Where Rust finds no room, the others must not find it live. -/
theorem neverContradict_of_unusable (hstatus : 200 ≤ status ∧ status < 300)
    (huser : userAt body = some user) (hobject : user.isObject = true)
    (hunusable : isUsableRoomId (stringAt user "roomId") = false) :
    NeverContradict (verdicts readers handle status body) ↔
      (Java.accepts readers handle body = true → Java.statusField readers body = some 2 →
        ∀ room, Java.roomIdOf readers body = some room → isUsableRoomId room = false) ∧
      (Android.uniqueId readers body ≠ "" →
        isUsableRoomId (OrgJson.optString readers user "roomId" "") = true →
          statusBy (OrgJson.toLong readers) body ≠ some 2) := by
  have hrust : rustVerdict readers handle status body = .noRoom := by
    rw [rustVerdict_of_user hstatus huser hobject, hunusable]
    rfl
  have hts : ∀ room, TypeScript.verdict readers handle status body ≠ .live room := by
    intro room h
    obtain ⟨husable, user', huser', -, hroom⟩ := TypeScript.of_verdict_live h
    obtain rfl : user = user' := Option.some.inj (huser.symm.trans huser')
    have hat : stringAt user "roomId" = room := stringAt_of_get hroom
    rw [hat, husable] at hunusable
    cases hunusable
  rw [verdicts, hrust, neverContradict_noRoom]
  constructor
  · intro h
    refine ⟨?_, ?_⟩
    · intro haccepts hfield room hroomId
      rw [← Bool.not_eq_true]
      intro husable
      have hjava : Java.verdict readers handle status body = .live room :=
        (Java.verdict_eq_live hstatus).mpr ⟨haccepts, hfield, hroomId, husable⟩
      exact h room (hjava ▸ List.mem_cons_self)
    · intro hname husable hlive
      refine h (OrgJson.optString readers user "roomId" "") ?_
      rw [Android.verdict_of_user huser hobject, if_neg hname, if_pos husable, hlive]
      simp [Verdict.ofRoom]
  · rintro ⟨hjava, handroid⟩ room hmem
    simp only [List.mem_cons, List.not_mem_nil, or_false] at hmem
    rcases hmem with hmem | hmem | hmem
    · obtain ⟨haccepts, hfield, hroomId, husable⟩ := (Java.verdict_eq_live hstatus).mp hmem.symm
      rw [hjava haccepts hfield room hroomId] at husable
      cases husable
    · exact hts room hmem.symm
    · rw [Android.verdict_of_user huser hobject] at hmem
      split_ifs at hmem with hname husable
      have hlive := handroid hname husable
      simp [Verdict.ofRoom, hlive] at hmem

theorem neverContradict_of_no_user (h : (userAt body).filter Json.isObject = none)
    (hstatus : 200 ≤ status ∧ status < 300) :
    NeverContradict (verdicts readers handle status body) := by
  have hnone : ∀ user, userAt body = some user → user.isObject = false := fun user huser => by
    rw [← Bool.not_eq_true]
    exact Option.filter_eq_none_iff.mp h user huser
  apply neverContradict_of_no_live
  intro room hmem
  simp only [verdicts, List.mem_cons, List.not_mem_nil, or_false] at hmem
  rcases hmem with hlive | hlive | hlive | hlive
  · rw [rustVerdict, interpretRoomLookup, RoomLookup.fromValue, h] at hlive
    split_ifs at hlive
    simp at hlive
  · obtain ⟨haccepts, -⟩ := (Java.verdict_eq_live hstatus).mp hlive.symm
    obtain ⟨user, huser, hobject⟩ := Java.user_of_accepts haccepts
    rw [hnone user huser] at hobject
    cases hobject
  · obtain ⟨-, user, huser, hobject, -⟩ := TypeScript.of_verdict_live hlive.symm
    rw [hnone user huser] at hobject
    cases hobject
  · have hopt : ((OrgJson.optJsonObject body "data").bind fun data =>
        OrgJson.optJsonObject data "user") = none := by
      rw [Option.bind_eq_none_iff]
      intro data hdata
      rw [OrgJson.optJsonObject, Option.filter_eq_some_iff] at hdata
      rw [OrgJson.optJsonObject, Option.filter_eq_none_iff]
      intro user huser
      rw [hnone user (by rw [userAt, hdata.1, Option.bind_some, huser])]
      exact Bool.false_ne_true
    rw [Android.verdict, Android.parseRoomLookup] at hlive
    simp only [hopt] at hlive
    split_ifs at hlive

theorem neverContradict_of_text (hstatus : 200 ≤ status ∧ status < 300)
    (huser : userAt body = some user) (hobject : user.isObject = true)
    (hroom : user.get "roomId" = some (.str room)) (husable : isUsableRoomId room = true) :
    NeverContradict (verdicts readers handle status body) ↔
      SameStatus readers handle room body := by
  have hat : stringAt user "roomId" = room := stringAt_of_get hroom
  have hopt : OrgJson.optString readers user "roomId" "" = room := by
    rw [OrgJson.optString, hroom, Option.map_some, readers.stringOf_str, Option.getD_some]
  have hrust : rustVerdict readers handle status body =
      .ofRoom true (statusBy (literal readers) body = some 2) room := by
    rw [rustVerdict_of_user hstatus huser hobject, hat, if_pos husable]
  have handroid : Android.verdict readers handle body =
      .ofRoom (Android.uniqueId readers body ≠ "")
        (statusBy (OrgJson.toLong readers) body = some 2) room := by
    rw [Android.verdict_of_user huser hobject, hopt, if_pos husable]
    by_cases hname : Android.uniqueId readers body = "" <;> simp [hname, Verdict.ofRoom]
  have hall := @neverContradict_ofRoom (decide (statusBy (literal readers) body = some 2)) room
    [(Java.accepts readers handle body && Java.isDigits room &&
        (Java.statusOf readers body).isSome, decide (Java.statusOf readers body = some 2)),
      (TypeScript.roomLookupResponseSchema.valid readers.integerOf body,
        decide (statusBy (integer readers) body = some 2)),
      (decide (Android.uniqueId readers body ≠ ""),
        decide (statusBy (OrgJson.toLong readers) body = some 2))]
  rw [verdicts, hrust, handroid, Java.verdict_of_text hstatus huser hroom husable,
    TypeScript.verdict_of_text hstatus huser hroom husable]
  refine hall.trans ?_
  simp only [List.forall_mem_cons, List.not_mem_nil, false_imp_iff, implies_true, and_true,
    Bool.and_eq_true, decide_eq_decide, decide_eq_true_eq]
  constructor
  · rintro ⟨hjava, hts, handroid⟩
    refine ⟨?_, hts, handroid⟩
    intro haccepts hdigits n hfield hn
    have hvalue := Java.statusOf_eq_some.mpr ⟨hfield, hn⟩
    have hsame := hjava ⟨⟨haccepts, hdigits⟩, by rw [hvalue]; rfl⟩
    rwa [hvalue, Option.some_inj] at hsame
  · rintro ⟨hjava, hts, handroid⟩
    refine ⟨?_, hts, handroid⟩
    rintro ⟨⟨haccepts, hdigits⟩, hsome⟩
    obtain ⟨n, hvalue⟩ := Option.isSome_iff_exists.mp hsome
    obtain ⟨hfield, hn⟩ := Java.statusOf_eq_some.mp hvalue
    rw [hvalue, Option.some_inj]
    exact hjava haccepts hdigits n hfield hn

theorem neverContradict_of_not_text {roomId : Json Number} (hstatus : 200 ≤ status ∧ status < 300)
    (huser : userAt body = some user) (hobject : user.isObject = true)
    (hroom : user.get "roomId" = some roomId) (htext : roomId.asStr = none) :
    NeverContradict (verdicts readers handle status body) ↔
      Unread readers handle roomId body := by
  have hunusable : isUsableRoomId (stringAt user "roomId") = false := by
    rw [stringAt, hroom, Option.bind_some, htext]
    rfl
  have hopt : OrgJson.optString readers user "roomId" "" = readers.stringOf roomId := by
    rw [OrgJson.optString, hroom, Option.map_some, Option.getD_some]
  rw [neverContradict_of_unusable hstatus huser hobject hunusable, hopt,
    Java.roomIdOf_unusable_iff huser hroom htext]
  exact ⟨fun h => ⟨h.1, h.2⟩, fun h => ⟨h.java, h.android⟩⟩

theorem neverContradict_of_no_room (hstatus : 200 ≤ status ∧ status < 300)
    (huser : userAt body = some user) (hobject : user.isObject = true)
    (hroom : ∀ roomId, user.get "roomId" = some roomId →
      ∃ room, roomId = .str room ∧ isUsableRoomId room = false) :
    NeverContradict (verdicts readers handle status body) := by
  have hempty : isUsableRoomId "" = false := rfl
  cases hget : user.get "roomId" with
  | none =>
    rw [neverContradict_of_unusable hstatus huser hobject (by rw [stringAt, hget]; rfl),
      OrgJson.optString, hget, Java.roomIdOf, huser, Option.bind_some, hget]
    refine ⟨?_, ?_⟩
    · intro _ _ room h
      obtain rfl : "" = room := Option.some.inj h
      exact hempty
    · intro _ h
      rw [Option.map_none, Option.getD_none, hempty] at h
      cases h
  | some roomId =>
    obtain ⟨room, rfl, hunusable⟩ := hroom roomId hget
    rw [neverContradict_of_unusable hstatus huser hobject (by rw [stringAt, hget]; exact hunusable),
      OrgJson.optString, hget, Option.map_some, readers.stringOf_str, Java.roomIdOf_text huser hget]
    refine ⟨?_, ?_⟩
    · intro _ _ room' h
      split_ifs at h
      obtain rfl : room = room' := Option.some.inj h
      exact hunusable
    · intro _ h
      rw [Option.getD_some, hunusable] at h
      cases h

/-- The four never contradict each other exactly on the harmless answers. -/
theorem room_lookups_never_contradict_iff (readers : JsonReaders Number) (handle : String)
    (status : Nat) (body : Json Number) (hstatus : 200 ≤ status ∧ status < 300) :
    NeverContradict (verdicts readers handle status body) ↔ Harmless readers handle body := by
  rw [Harmless, roomIdField]
  cases huser : (userAt body).filter Json.isObject with
  | none => exact iff_of_true (neverContradict_of_no_user huser hstatus) trivial
  | some user =>
    obtain ⟨hat, hobject⟩ := Option.filter_eq_some_iff.mp huser
    rw [Option.bind_some]
    cases hroom : user.get "roomId" with
    | none =>
      refine iff_of_true (neverContradict_of_no_room hstatus hat hobject ?_) trivial
      intro roomId h
      rw [hroom] at h
      cases h
    | some roomId =>
      cases roomId with
      | str room =>
        cases husable : isUsableRoomId room with
        | true =>
          rw [neverContradict_of_text hstatus hat hobject hroom husable]
          exact ⟨fun h _ => h, fun h => h husable⟩
        | false =>
          refine iff_of_true (neverContradict_of_no_room hstatus hat hobject ?_)
            (fun h => by rw [husable] at h; cases h)
          intro roomId h
          exact ⟨room, Option.some.inj (h.symm.trans hroom), husable⟩
      | _ => exact neverContradict_of_not_text hstatus hat hobject hroom rfl

end

/-! ## On one live answer -/

/-- A live answer; the room id is what the four read differently. -/
def liveAnswer (roomId : Json Int) : Json Int :=
  .obj [("data", .obj [("user", .obj
    [("roomId", roomId), ("nickname", .str "Fixture"), ("uniqueId", .str "fixture"),
      ("status", .num 2)])])]

theorem room_lookups_agree_on_text :
    NeverContradict (verdicts smallIntegers "@fixture" 200
      (liveAnswer (.str "7300000000000000001"))) := by
  refine (room_lookups_never_contradict_iff smallIntegers "@fixture" 200 _ (by decide)).mpr ?_
  have hrust : statusBy (literal smallIntegers) (liveAnswer (.str "7300000000000000001")) =
      some 2 := by decide
  intro _
  refine ⟨?_, ?_, ?_⟩
  · intro _ _ n hn _
    have hfield : Java.statusField smallIntegers (liveAnswer (.str "7300000000000000001")) =
        some 2 := by decide
    exact iff_of_true (Option.some.inj (hn.symm.trans hfield)) hrust
  · intro _
    exact iff_of_true (by decide) hrust
  · intro _
    exact iff_of_true (by decide) hrust

/-- Java and Android find the room live by a numeric id, and Rust finds none. -/
theorem room_lookups_contradict_on_number :
    ¬NeverContradict (verdicts smallIntegers "@fixture" 200 (liveAnswer (.num 7300))) := by
  have hverdicts : verdicts smallIntegers "@fixture" 200 (liveAnswer (.num 7300)) =
      [.noRoom, .live "7300", .undecided, .live "7300"] := by decide
  rw [hverdicts, neverContradict_noRoom]
  exact fun h => h "7300" List.mem_cons_self

end TiktokSigner.Parity
