import TiktokSigner.Parity.LiveSearch

/-!
# What each search picks from an item

On rooms of the usual types Rust and TypeScript never pick more from an
item than the expected room, and Android never less. Each lemma says where
they pick just that.
-/

namespace TiktokSigner.Parity

open LiveDiscovery Ranking

variable {Number : Type} {libraries : JsonLibraries Number} {item room : Json Number} {raw : String}

/-! ## What each picks from an item -/

theorem expectedRoom_eq (hraw : rawData item = some raw) (hjs : libraries.js raw = some room) :
    expectedRoom libraries item =
      if IsLiveRoom libraries.integerOf room then
        some (describe room ((intAt libraries.integerOf room "user_count").getD 0))
      else none := by
  rw [expectedRoom, hraw, Option.bind_some, hjs, Option.bind_some]

theorem expectedRoom_of_not_json (hraw : rawData item = some raw) (hjs : libraries.js raw = none) :
    expectedRoom libraries item = none := by
  rw [expectedRoom, hraw, Option.bind_some, hjs, Option.bind_none]

/-- A count is absent, or a number that is the same to all or no literal. -/
theorem IsCount.cases {key : String} (h : IsCount libraries room key) :
    room.get key = none ∨ ∃ n k, room.get key = some (.num n) ∧ libraries.integerOf n = some k ∧
      0 ≤ k ∧ libraries.longValue n = k ∧
      (libraries.asI64 n = some k ∧ libraries.asU64 n = some k.toNat ∨
        libraries.asI64 n = none ∧ libraries.asU64 n = none) := by
  cases hget : room.get key with
  | none => exact Or.inl rfl
  | some field =>
    obtain ⟨n, k, rfl, hk, hnonneg, hle⟩ := h field hget
    exact Or.inr ⟨n, k, rfl, hk, hnonneg, libraries.small n k hk hnonneg hle⟩

theorem isLiteral_of_num {key : String} {n : Number} (h : room.get key = some (.num n)) :
    IsLiteral libraries room key ↔ libraries.asI64 n ≠ none := by
  constructor
  · exact fun hliteral => hliteral n h
  · intro hn m hm
    obtain rfl : n = m := Json.num.inj (Option.some.inj (h.symm.trans hm))
    exact hn

/-- `serde_json` and `JSON.parse` read the same value out of a text. -/
theorem serde_eq {read : Json Number} (hserde : libraries.serde raw = some read)
    (hjs : libraries.js raw = some room) : read = room :=
  Option.some.inj ((libraries.serde_js raw read hserde).symm.trans hjs)

/-! ### Rust -/

/-- The count that Rust reads. -/
def rustCount (libraries : JsonLibraries Number) (room : Json Number) (key : String) : Nat :=
  (((room.get key).bind Json.asNum).bind libraries.asU64).getD 0

theorem rust_room (hraw : rawData item = some raw) (hserde : libraries.serde raw = some room) :
    (liveRoomOf libraries.asI64 libraries.asU64 libraries.serde item).map searchRoom =
      if IsLiveRoom libraries.asI64 room then
        some (describe room (rustCount libraries room "user_count"))
      else none := by
  rw [liveRoomOf, hraw, Option.bind_some, hserde, Option.bind_some]
  by_cases hstatus : intAt libraries.asI64 room "status" = some 2
  · rw [if_neg (not_not_intro hstatus)]
    by_cases hrest : ownerText room "display_id" ≠ "" ∧
        isUsableRoomId (stringAt room "id_str") = true
    · have hlive : IsLiveRoom libraries.asI64 room := ⟨hstatus, hrest⟩
      rw [if_pos hlive, if_neg (by simp [hrest.1, hrest.2])]
      rfl
    · rw [if_neg (fun h : IsLiveRoom libraries.asI64 room => hrest h.2), if_pos ?_]
      · rfl
      · rw [Bool.or_eq_true, decide_eq_true_eq, Bool.not_eq_true', ← Bool.not_eq_true]
        tauto
  · rw [if_pos hstatus, if_neg (fun h : IsLiveRoom libraries.asI64 room => hstatus h.1)]
    rfl

theorem status_literal_iff (h : IsCount libraries room "status") :
    IsLiveRoom libraries.asI64 room ↔
      IsLiveRoom libraries.integerOf room ∧ IsLiteral libraries room "status" := by
  have hstatus : intAt libraries.asI64 room "status" = some 2 ↔
      intAt libraries.integerOf room "status" = some 2 ∧ IsLiteral libraries room "status" := by
    rcases h.cases with hnone | ⟨n, k, hget, hk, -, -, ⟨hliteral, -⟩ | ⟨hliteral, -⟩⟩
    · rw [intAt, intAt, hnone]
      exact iff_of_false (fun h => by cases h) (fun h => by cases h.1)
    · rw [intAt_of_num hget, intAt_of_num hget, isLiteral_of_num hget, hk, hliteral]
      exact ⟨fun h => ⟨h, Option.some_ne_none k⟩, fun h => h.1⟩
    · rw [intAt_of_num hget, isLiteral_of_num hget, hliteral]
      exact iff_of_false (fun h => by cases h) (fun h => h.2 rfl)
  rw [IsLiveRoom, hstatus, IsLiveRoom]
  tauto

/-- Rust never counts too much, and counts right what is a literal or zero. -/
theorem rustCount_spec (h : IsCount libraries room "user_count") :
    (rustCount libraries room "user_count" : Int) ≤
        (intAt libraries.integerOf room "user_count").getD 0 ∧
      ((rustCount libraries room "user_count" : Int) =
          (intAt libraries.integerOf room "user_count").getD 0 ↔
        IsLiteral libraries room "user_count" ∨
          intAt libraries.integerOf room "user_count" = some 0) := by
  rw [rustCount]
  rcases h.cases with hnone | ⟨n, k, hget, hk, hnonneg, -, ⟨hliteral, hcount⟩ | ⟨hliteral, hcount⟩⟩
  · have habsent : IsLiteral libraries room "user_count" := fun n hn => by
      rw [hnone] at hn
      cases hn
    rw [intAt, hnone]
    exact ⟨le_refl (0 : Int), iff_of_true rfl (Or.inl habsent)⟩
  · rw [intAt_of_num hget, isLiteral_of_num hget, hget, hk, hliteral]
    have hread : (((some (Json.num n)).bind Json.asNum).bind libraries.asU64).getD 0 = k.toNat := by
      rw [Option.bind_some, Json.asNum, Option.bind_some, hcount, Option.getD_some]
    rw [hread, Int.toNat_of_nonneg hnonneg]
    exact ⟨le_refl k, iff_of_true rfl (Or.inl (Option.some_ne_none k))⟩
  · rw [intAt_of_num hget, isLiteral_of_num hget, hget, hk, hliteral]
    have hread : (((some (Json.num n)).bind Json.asNum).bind libraries.asU64).getD 0 = 0 := by
      rw [Option.bind_some, Json.asNum, Option.bind_some, hcount, Option.getD_none]
    rw [hread, Option.getD_some, Option.some_inj]
    exact ⟨hnonneg, ⟨fun h => Or.inr h.symm, fun h => by
      rcases h with h | h
      · exact absurd rfl h
      · exact h.symm⟩⟩

theorem exists_room_of_expected {expected : SearchRoom}
    (h : expectedRoom libraries item = some expected) :
    ∃ raw room, rawData item = some raw ∧ libraries.js raw = some room ∧
      IsLiveRoom libraries.integerOf room ∧
      expected = describe room ((intAt libraries.integerOf room "user_count").getD 0) := by
  obtain ⟨room, hroom, hlive⟩ := Option.bind_eq_some_iff.mp h
  obtain ⟨raw, hraw, hjs⟩ := Option.bind_eq_some_iff.mp hroom
  split_ifs at hlive with hcond
  exact ⟨raw, room, hraw, hjs, hcond, (Option.some.inj hlive).symm⟩

theorem rust_within (husual : Usual libraries item) :
    Within (fun room => room.viewers.toNat)
      ((liveRoomOf libraries.asI64 libraries.asU64 libraries.serde item).map searchRoom)
      (expectedRoom libraries item) := by
  cases hraw : rawData item with
  | none =>
    rw [liveRoomOf, hraw]
    exact Within.none _
  | some raw =>
    cases hserde : libraries.serde raw with
    | none =>
      rw [liveRoomOf, hraw, Option.bind_some, hserde]
      exact Within.none _
    | some room =>
      have hjs := libraries.serde_js raw room hserde
      have hroom := husual raw room hraw hjs
      rw [rust_room hraw hserde, expectedRoom_eq hraw hjs]
      by_cases hlive : IsLiveRoom libraries.asI64 room
      · have hle := (rustCount_spec hroom.viewers).1
        rw [if_pos hlive, if_pos ((status_literal_iff hroom.status).mp hlive).1]
        refine Within.some (Int.toNat_le_toNat hle) ?_
        intro h
        have hviewers : (rustCount libraries room "user_count" : Int) =
            (intAt libraries.integerOf room "user_count").getD 0 := by
          simp only [describe] at h
          omega
        rw [hviewers]
      · rw [if_neg hlive]
        exact Within.none _

/-- Rust picks the expected room exactly where it reads the text and the
numbers in it. -/
theorem rust_eq_iff (husual : Usual libraries item) :
    (liveRoomOf libraries.asI64 libraries.asU64 libraries.serde item).map searchRoom =
        expectedRoom libraries item ↔
      ∀ raw room, rawData item = some raw → libraries.js raw = some room →
        expectedRoom libraries item ≠ none → libraries.serde raw ≠ none ∧
          IsLiteral libraries room "status" ∧
          (IsLiteral libraries room "user_count" ∨
            intAt libraries.integerOf room "user_count" = some 0) := by
  constructor
  · intro heq raw room hraw hjs hne
    have hroom := husual raw room hraw hjs
    cases hserde : libraries.serde raw with
    | none =>
      refine absurd (heq.symm.trans ?_) hne
      rw [liveRoomOf, hraw, Option.bind_some, hserde]
      rfl
    | some read =>
      obtain rfl := serde_eq hserde hjs
      rw [rust_room hraw hserde] at heq
      by_cases hlive : IsLiveRoom libraries.asI64 read
      · obtain ⟨hexpected, hstatus⟩ := (status_literal_iff hroom.status).mp hlive
        rw [if_pos hlive, expectedRoom_eq hraw hjs, if_pos hexpected] at heq
        have hviewers := congrArg SearchRoom.viewers (Option.some.inj heq)
        exact ⟨Option.some_ne_none read, hstatus, (rustCount_spec hroom.viewers).2.mp hviewers⟩
      · rw [if_neg hlive] at heq
        exact absurd heq.symm hne
  · intro h
    cases hexpected : expectedRoom libraries item with
    | none =>
      have hwithin := rust_within husual
      rw [hexpected] at hwithin
      exact hwithin.eq_none
    | some expected =>
      obtain ⟨raw, room, hraw, hjs, hlive, rfl⟩ := exists_room_of_expected hexpected
      obtain ⟨hserde, hstatus, hviewers⟩ :=
        h raw room hraw hjs (by rw [hexpected]; exact Option.some_ne_none _)
      obtain ⟨read, hserde⟩ := Option.ne_none_iff_exists'.mp hserde
      obtain rfl := serde_eq hserde hjs
      have hroom := husual raw read hraw hjs
      rw [rust_room hraw hserde, if_pos ((status_literal_iff hroom.status).mpr ⟨hlive, hstatus⟩),
        (rustCount_spec hroom.viewers).2.mpr hviewers]

theorem serde_of_literal {literals : Json Number → Prop}
    (h : ∀ raw room, rawData item = some raw → libraries.js raw = some room →
      expectedRoom libraries item ≠ none → libraries.serde raw ≠ none ∧ literals room) :
    ∀ raw, rawData item = some raw → expectedRoom libraries item ≠ none →
      libraries.serde raw ≠ none := by
  intro raw hraw hne
  obtain ⟨expected, hexpected⟩ := Option.ne_none_iff_exists'.mp hne
  obtain ⟨raw', room, hraw', hjs, -⟩ := exists_room_of_expected hexpected
  obtain rfl : raw' = raw := Option.some.inj (hraw'.symm.trans hraw)
  exact (h raw' room hraw' hjs hne).1

/-! ### TypeScript -/

theorem IsText.valid {key : String} {pattern : List Char → Bool} (h : IsText room key)
    (hpattern : stringAt room key ≠ "" → pattern (stringAt room key).toList = true)
    (hempty : room.get key = some (.str "") → pattern [] = true) :
    ∀ field, room.get key = some field →
      JsonSchema.valid libraries.integerOf (.string pattern) field = true := by
  intro field hfield
  obtain ⟨s, rfl⟩ := h field hfield
  have hat : stringAt room key = s := stringAt_of_get hfield
  rw [JsonSchema.valid]
  by_cases hs : s = ""
  · subst hs
    exact hempty hfield
  · rw [hat] at hpattern
    exact hpattern hs

/-- The schema admits every live room of the usual types with a number for
an id. -/
theorem searchRoom_valid (hroom : UsualRoom libraries room)
    (hlive : IsLiveRoom libraries.integerOf room)
    (hdigits : (stringAt room "id_str").toList.all Char.isDigit = true) :
    TypeScript.searchRoomSchema.valid libraries.integerOf room = true := by
  obtain ⟨hstatus, howner, husable⟩ := hlive
  obtain ⟨n, hget, -⟩ := exists_num_of_intAt hstatus
  have hany : ∀ s : List Char, TypeScript.anyText s = true := fun _ => rfl
  rw [TypeScript.searchRoomSchema, JsonSchema.valid_object_iff]
  refine ⟨Json.isObject_of_get hget, ?_⟩
  simp only [List.forall_mem_cons, List.not_mem_nil, false_imp_iff, implies_true, and_true]
  refine ⟨?_, ?_, ?_, ?_, ?_⟩
  · intro field hfield
    obtain ⟨n, k, rfl, hk, -⟩ := hroom.status field hfield
    rw [JsonSchema.valid, hk]
    rfl
  · refine hroom.id.valid ?_ ?_
    · intro hne
      have hlist : (stringAt room "id_str").toList ≠ [] :=
        fun h => hne (String.toList_inj.mp h)
      rw [TypeScript.someDigits, hdigits, List.isEmpty_eq_false_iff.mpr hlist]
      rfl
    · intro hempty
      exact absurd (stringAt_of_get hempty) (ne_empty_of_usable husable)
  · exact hroom.title.valid (fun _ => hany _) fun _ => hany _
  · intro field hfield
    obtain ⟨n, k, rfl, hk, hnonneg, hle⟩ := hroom.viewers field hfield
    rw [JsonSchema.valid, hk, Option.any_some, Option.all_some, Option.all_some,
      decide_eq_true hnonneg, decide_eq_true hle]
    rfl
  · -- an owner with a name is an object
    intro field hfield
    obtain ⟨hname, hnickname⟩ := hroom.owner field hfield
    have hobject : field.isObject = true := by
      have hat : ownerText room "display_id" = stringAt field "display_id" := by
        rw [ownerText, hfield]
        rfl
      rw [hat] at howner
      exact Json.isObject_of_get (get_of_stringAt_ne howner)
    rw [JsonSchema.valid_object_iff]
    refine ⟨hobject, ?_⟩
    simp only [List.forall_mem_cons, List.not_mem_nil, false_imp_iff, implies_true, and_true]
    exact ⟨hname.valid (fun _ => hany _) fun _ => hany _,
      hnickname.valid (fun _ => hany _) fun _ => hany _⟩

/-- An id that the schema admits is empty where it is missing, or a number. -/
theorem id_digits_of_valid
    (hvalid : TypeScript.searchRoomSchema.valid libraries.integerOf room = true) :
    (stringAt room "id_str").toList.all Char.isDigit = true := by
  by_cases hempty : stringAt room "id_str" = ""
  · rw [hempty]
    rfl
  · obtain ⟨s, hs, hdigits⟩ := JsonSchema.valid_text (List.mem_cons_of_mem _ List.mem_cons_self)
      hvalid (get_of_stringAt_ne hempty)
    obtain rfl := Json.str.inj hs
    rw [TypeScript.someDigits, Bool.and_eq_true] at hdigits
    exact hdigits.2

/-- TypeScript never throws for a room that is valid. -/
theorem typeScript_room
    (hread : ((rawData item).filter (· ≠ "")).bind libraries.js = some room)
    (hvalid : TypeScript.searchRoomSchema.valid libraries.integerOf room = true) :
    TypeScript.liveRoomOf libraries item =
      .ok (if IsLiveRoom libraries.integerOf room then
        some (describe room ((intAt libraries.integerOf room "user_count").getD 0))
      else none) := by
  rw [TypeScript.liveRoomOf, hread]
  dsimp only
  rw [if_neg (by simp [hvalid])]
  by_cases hskip : intAt libraries.integerOf room "status" ≠ some 2 ∨
      stringAt room "id_str" = ""
  · rw [if_pos (by rw [Bool.or_eq_true, decide_eq_true_eq, decide_eq_true_eq]; exact hskip), if_neg]
    intro hlive
    rcases hskip with hstatus | hempty
    · exact hstatus hlive.1
    · exact ne_empty_of_usable hlive.2.2 hempty
  · obtain ⟨hstatus, hne⟩ := not_or.mp hskip
    have hparse : TypeScript.parseId (stringAt room "id_str") = some (stringAt room "id_str") := by
      rw [TypeScript.parseId, if_pos ⟨hne, id_digits_of_valid hvalid⟩]
    rw [if_neg (by rw [Bool.or_eq_true, decide_eq_true_eq, decide_eq_true_eq]; exact hskip), hparse]
    dsimp only
    by_cases hlive : IsLiveRoom libraries.integerOf room
    · have husable := hlive.2.2
      rw [isUsableRoomId, Bool.and_eq_true, decide_eq_true_eq, decide_eq_true_eq] at husable
      rw [if_neg (by simp [hlive.2.1, husable.1, husable.2]), if_pos hlive]
      rfl
    · rw [if_pos ?_, if_neg hlive]
      rw [Bool.or_eq_true, Bool.or_eq_true, decide_eq_true_eq, decide_eq_true_eq,
        decide_eq_true_eq]
      by_contra hnot
      obtain ⟨⟨hname, -⟩, hzero⟩ := (not_or.mp hnot).imp_left not_or.mp
      exact hlive ⟨of_not_not hstatus, hname, by simp [isUsableRoomId, hne, hzero]⟩

/-- TypeScript never throws for an item, and picks the expected room if its
id is a number. -/
theorem typeScript_item (husual : Usual libraries item) :
    TypeScript.liveRoomOf libraries item =
      .ok ((expectedRoom libraries item).filter fun room =>
        room.roomId.toList.all Char.isDigit) := by
  cases hread : ((rawData item).filter (· ≠ "")).bind libraries.js with
  | none =>
    have hnone : expectedRoom libraries item = none := by
      cases hraw : rawData item with
      | none => rw [expectedRoom, hraw]; rfl
      | some raw =>
        refine expectedRoom_of_not_json hraw ?_
        by_cases hempty : raw = ""
        · rw [hempty, libraries.js_empty]
        · rwa [hraw, Option.filter_some, if_pos (decide_eq_true hempty), Option.bind_some] at hread
    rw [TypeScript.liveRoomOf, hread, hnone]
    rfl
  | some room =>
    obtain ⟨raw, hraw, hjs⟩ := Option.bind_eq_some_iff.mp hread
    have hraw := (Option.filter_eq_some_iff.mp hraw).1
    rw [expectedRoom_eq hraw hjs]
    by_cases hvalid : TypeScript.searchRoomSchema.valid libraries.integerOf room = true
    · rw [typeScript_room hread hvalid]
      split_ifs
      · rw [Option.filter_some, if_pos]
        exact id_digits_of_valid hvalid
      · rfl
    · -- a room that is not valid has no digits for an id, or is not live
      rw [TypeScript.liveRoomOf, hread]
      dsimp only
      rw [if_pos (by simp [hvalid])]
      split_ifs with hlive
      · rw [Option.filter_some, if_neg]
        exact fun hdigits => hvalid (searchRoom_valid (husual raw room hraw hjs) hlive hdigits)
      · rfl

/-! ### Android -/

theorem optString_eq {key : String} (h : IsText room key) :
    OrgJson.optString libraries.toJsonReaders room key "" = stringAt room key := by
  rw [OrgJson.optString, stringAt]
  cases hget : room.get key with
  | none => rfl
  | some field =>
    obtain ⟨s, rfl⟩ := h field hget
    rw [Option.map_some, libraries.stringOf_str]
    rfl

theorem ownerString_eq {key : String}
    (h : ∀ owner, room.get "owner" = some owner → IsText owner key) :
    Android.ownerString libraries room key = ownerText room key := by
  rw [Android.ownerString, ownerText, OrgJson.optJsonObject]
  cases howner : room.get "owner" with
  | none => rfl
  | some owner =>
    rw [Option.filter_some, Option.map_some, Option.getD_some, ← optString_eq (h owner howner)]
    cases owner <;> rfl

theorem optLong_eq {key : String} (h : IsCount libraries room key) (fallback : Int) :
    OrgJson.optLong libraries.toJsonReaders room key fallback =
      (intAt libraries.integerOf room key).getD fallback := by
  rcases h.cases with hnone | ⟨n, k, hget, hk, -, hlong, -⟩
  · rw [OrgJson.optLong, intAt, hnone]
    rfl
  · rw [OrgJson.optLong, intAt_of_num hget, hget, hk, Option.bind_some, OrgJson.toLong, hlong]

theorem isTaken_iff (hroom : UsualRoom libraries room) :
    Android.isTaken libraries room = true ↔ IsLiveRoom libraries.integerOf room := by
  have hstatus : (intAt libraries.integerOf room "status").getD (-1) = 2 ↔
      intAt libraries.integerOf room "status" = some 2 := by
    cases intAt libraries.integerOf room "status" <;> simp
  rw [Android.isTaken, Bool.and_eq_true, Bool.and_eq_true, decide_eq_true_eq, decide_eq_true_eq,
    optLong_eq hroom.status, hstatus, optString_eq hroom.id,
    ownerString_eq fun owner howner => (hroom.owner owner howner).1, and_assoc]
  rfl

/-- The text form is the text where the schema admits the item. -/
theorem rawString_eq (hitem : TypeScript.searchItemSchema.valid libraries.integerOf item = true) :
    Android.rawString libraries item = (rawData item).getD "" := by
  have hobject := (JsonSchema.valid_object_iff.mp hitem).1
  rw [Android.rawString, OrgJson.asJsonObject, Option.filter_some, if_pos hobject, Option.bind_some,
    OrgJson.optJsonObject, rawData]
  cases hinfo : item.get "live_info" with
  | none => rfl
  | some info =>
    have hvalid := JsonSchema.valid_get List.mem_cons_self hitem hinfo
    have htext : IsText info "raw_data" := fun field hfield =>
      (JsonSchema.valid_text List.mem_cons_self hvalid hfield).imp fun _ h => h.1
    rw [Option.filter_some, if_pos (JsonSchema.valid_object_iff.mp hvalid).1, Option.map_some,
      Option.getD_some, optString_eq htext]
    rfl

theorem rawString_of_text
    (hitem : TypeScript.searchItemSchema.valid libraries.integerOf item = true)
    (hraw : rawData item = some raw) : Android.rawString libraries item = raw := by
  rw [rawString_eq hitem, hraw, Option.getD_some]

theorem android_room (hstring : Android.rawString libraries item = raw) (hne : raw ≠ "")
    (horg : libraries.org raw = some room) (hroom : UsualRoom libraries room) :
    (Android.liveRoomOf libraries item).map Android.searchRoom =
      if IsLiveRoom libraries.integerOf room then
        some (describe room ((intAt libraries.integerOf room "user_count").getD 0))
      else none := by
  rw [Android.liveRoomOf, hstring, if_neg hne, horg, Option.bind_some]
  by_cases hlive : IsLiveRoom libraries.integerOf room
  · rw [if_pos hlive, if_neg (by simp [(isTaken_iff hroom).mpr hlive]), Option.map_some,
      Android.searchRoom, describe]
    simp only [optLong_eq hroom.viewers, optString_eq hroom.id, optString_eq hroom.title,
      ownerString_eq fun owner howner => (hroom.owner owner howner).1,
      ownerString_eq fun owner howner => (hroom.owner owner howner).2]
  · have hskip : Android.isTaken libraries room = false := by
      rw [← Bool.not_eq_true, isTaken_iff hroom]
      exact hlive
    rw [if_neg hlive, if_pos (by simp [hskip])]
    rfl

section

variable (hitem : TypeScript.searchItemSchema.valid libraries.integerOf item = true)
  (husual : Usual libraries item)
  (hread : ∀ raw, rawData item = some raw → expectedRoom libraries item ≠ none →
    libraries.serde raw ≠ none)
include hitem husual hread

/-- Android picks the expected room out of a text that is JSON. -/
theorem android_of_json (hraw : rawData item = some raw) (hjs : libraries.js raw = some room) :
    (Android.liveRoomOf libraries item).map Android.searchRoom = expectedRoom libraries item := by
  have hroom := husual raw room hraw hjs
  have hne : raw ≠ "" := by
    rintro rfl
    rw [libraries.js_empty] at hjs
    cases hjs
  have hstring := rawString_of_text hitem hraw
  by_cases hlive : IsLiveRoom libraries.integerOf room
  · have hexpected : expectedRoom libraries item ≠ none := by
      rw [expectedRoom_eq hraw hjs, if_pos hlive]
      exact Option.some_ne_none _
    obtain ⟨read, hserde⟩ := Option.ne_none_iff_exists'.mp (hread raw hraw hexpected)
    obtain rfl := serde_eq hserde hjs
    obtain ⟨n, hget, -⟩ := exists_num_of_intAt hlive.1
    have horg := libraries.org_serde raw read hserde
    rw [Option.filter_some, if_pos (Json.isObject_of_get hget)] at horg
    rw [android_room hstring hne horg hroom, expectedRoom_eq hraw hjs]
  · rw [expectedRoom_eq hraw hjs, if_neg hlive]
    cases horg : libraries.org raw with
    | none =>
      rw [Android.liveRoomOf, hstring, if_neg hne, horg]
      rfl
    | some read =>
      have hfilter : (some room).filter Json.isObject = some read := by
        rcases libraries.org_js raw room hjs with h | h
        · rw [h] at horg
          cases horg
        · rw [← h, horg]
      obtain rfl : room = read := Option.some.inj (Option.filter_eq_some_iff.mp hfilter).1
      rw [android_room hstring hne horg hroom, if_neg hlive]

theorem android_within :
    Within (fun room => room.viewers.toNat) (expectedRoom libraries item)
      ((Android.liveRoomOf libraries item).map Android.searchRoom) := by
  cases hexpected : expectedRoom libraries item with
  | none => exact Within.none _
  | some expected =>
    obtain ⟨raw, room, hraw, hjs, -⟩ := exists_room_of_expected hexpected
    rw [android_of_json hitem husual hread hraw hjs, hexpected]
    exact Within.refl _

/-- And it picks nothing else where it takes no other text for a room. -/
theorem android_eq_iff :
    expectedRoom libraries item =
        (Android.liveRoomOf libraries item).map Android.searchRoom ↔
      ∀ raw room, rawData item = some raw → libraries.js raw = none →
        libraries.org raw = some room → Android.isTaken libraries room = false := by
  constructor
  · intro heq raw room hraw hjs horg
    have hne : raw ≠ "" := by
      rintro rfl
      rw [libraries.org_empty] at horg
      cases horg
    have hstring := rawString_of_text hitem hraw
    rw [expectedRoom_of_not_json hraw hjs, Android.liveRoomOf, hstring, if_neg hne, horg,
      Option.bind_some] at heq
    split_ifs at heq with htaken
    · simpa using htaken
    · cases heq
  · intro h
    cases hraw : rawData item with
    | none =>
      have hstring : Android.rawString libraries item = "" := by
        rw [rawString_eq hitem, hraw, Option.getD_none]
      rw [expectedRoom, hraw, Android.liveRoomOf, if_pos hstring]
      rfl
    | some raw =>
      cases hjs : libraries.js raw with
      | some room => exact (android_of_json hitem husual hread hraw hjs).symm
      | none =>
        have hstring := rawString_of_text hitem hraw
        rw [expectedRoom_of_not_json hraw hjs, Android.liveRoomOf, hstring]
        split_ifs
        · rfl
        · cases horg : libraries.org raw with
          | none => rfl
          | some room => rw [Option.bind_some, if_pos (by simp [h raw room hraw hjs horg])]; rfl

end

end TiktokSigner.Parity
