import TiktokSigner.Parity.SearchPicks

/-!
# Live searches that list the same

What a search should list is picked from each item alone and then ranked.
Rust and TypeScript never pick too much, and Android never too little; so
the three lists are the expected one only if each pick is.
-/

namespace TiktokSigner.Parity

open LiveDiscovery Ranking

/-! ## Refusals -/

section

variable {Number : Type} {libraries : JsonLibraries Number} {body : Json Number}
  {text : String}

theorem fails_map {ε α β : Type} {result : Except ε α} {f : α → β} :
    Fails (result.map f) ↔ Fails result := by
  cases result with
  | error e => exact iff_of_true (fun a h => by cases h) (fun a h => by cases h)
  | ok a => exact iff_of_false (fun h => h (f a) rfl) (fun h => h a rfl)

theorem org_eq {root : Json Number} (horg : libraries.org text = some root)
    (hjs : libraries.js text = some body) : root = body := by
  rcases libraries.org_js text body hjs with hnone | hsome
  · rw [horg] at hnone
    cases hnone
  · exact (Option.some.inj (Option.filter_eq_some_iff.mp (hsome.symm.trans horg)).1).symm

/-- Rust reads a list where there is data and no refusal that it can read. -/
theorem rust_fails_iff {n : Number} {code : Int} (hjs : libraries.js text = some body)
    (hget : body.get "status_code" = some (.num n)) (hcode : libraries.integerOf n = some code)
    (hne : code ≠ 0) :
    Fails (rustChannels libraries text) ↔ (body.get "data").bind Json.asArray = none ∨
      (libraries.serde text = none ∨ libraries.asI64 n ≠ none) := by
  rw [rustChannels, liveChannelsPage, fails_map, interpretLiveSearch]
  cases hserde : libraries.serde text with
  | none => exact iff_of_true (fun a h => by cases h) (Or.inr (Or.inl rfl))
  | some value =>
    obtain rfl := serde_eq hserde hjs
    dsimp only
    rw [interpretLiveSearchValue, intAt_of_num hget]
    cases hliteral : libraries.asI64 n with
    | some k =>
      have hk : k ≠ 0 := by
        rintro rfl
        exact hne (Option.some.inj (hcode.symm.trans (libraries.zero_literal n hliteral)))
      rw [Option.filter_some, if_pos (decide_eq_true hk)]
      exact iff_of_true (fun a h => by cases h) (Or.inr (Or.inr (Option.some_ne_none k)))
    | none =>
      rw [Option.filter_none]
      cases (value.get "data").bind Json.asArray with
      | none => exact iff_of_true (fun a h => by cases h) (Or.inl rfl)
      | some items =>
        refine iff_of_false (fun h => h _ rfl) ?_
        rintro (h | h | h)
        · cases h
        · cases h
        · exact h rfl

theorem typeScript_fails {code : Int} (hjs : libraries.js text = some body)
    (hcode : intAt libraries.integerOf body "status_code" = some code) (hne : code ≠ 0) :
    Fails (TypeScript.liveChannels libraries text) := by
  have hrefusal : (TypeScript.integerAt libraries.toJsonReaders body "status_code").filter
      (fun code => decide (code ≠ 0)) = some code := by
    rw [TypeScript.integerAt, ← intAt, hcode, Option.filter_some, if_pos (decide_eq_true hne)]
  intro rooms h
  rw [TypeScript.liveChannels, hjs] at h
  dsimp only at h
  rw [hrefusal] at h
  split_ifs at h

theorem android_fails_iff {n : Number} (hjs : libraries.js text = some body)
    (hget : body.get "status_code" = some (.num n)) :
    Fails (Android.parseFeed libraries text) ↔ (body.get "data").bind Json.asArray = none ∨
      (libraries.org text = none ∨ libraries.intValue n = 2483) := by
  have hopt : OrgJson.optInt libraries body "status_code" 0 = libraries.intValue n := by
    rw [OrgJson.optInt, hget]
    rfl
  rw [Android.parseFeed]
  cases horg : libraries.org text with
  | none => exact iff_of_true (fun a h => by cases h) (Or.inr (Or.inl rfl))
  | some root =>
    obtain rfl := org_eq horg hjs
    dsimp only
    rw [hopt]
    by_cases hcode : libraries.intValue n = 2483
    · rw [if_pos hcode]
      exact iff_of_true (fun a h => by cases h) (Or.inr (Or.inr hcode))
    · rw [if_neg hcode]
      cases (root.get "data").bind Json.asArray with
      | none => exact iff_of_true (fun a h => by cases h) (Or.inl rfl)
      | some items =>
        refine iff_of_false (fun h => h _ rfl) ?_
        rintro (h | h | h)
        · cases h
        · cases h
        · exact hcode h

/-! ## The lists -/

theorem mapM_eq_ok {ε α β : Type} {f : α → Except ε β} {g : α → β} {items : List α}
    (h : ∀ item ∈ items, f item = .ok (g item)) : items.mapM f = .ok (items.map g) := by
  induction items with
  | nil => rfl
  | cons item items ih =>
    have hrest := ih fun other hmem => h other (List.mem_cons_of_mem _ hmem)
    rw [List.mapM_cons, h item List.mem_cons_self, hrest]
    rfl

variable {items : List (Json Number)}

theorem rust_listed (hserde : libraries.serde text = some body)
    (haccepted : Accepted libraries body) (hdata : body.get "data" = some (.arr items)) :
    (rustChannels libraries text).map (·.map searchRoom) =
      .ok (rank SearchRoom.viewers (items.filterMap fun item =>
        (liveRoomOf libraries.asI64 libraries.asU64 libraries.serde item).map searchRoom)) := by
  have hcode : (intAt libraries.asI64 body "status_code").filter (· ≠ 0) = none := by
    rcases haccepted with hnone | hzero
    · rw [intAt, hnone]
      rfl
    · obtain ⟨n, hget, hn⟩ := exists_num_of_intAt hzero
      rw [intAt_of_num hget]
      rcases (libraries.small n 0 hn le_rfl (by decide)).2 with ⟨hliteral, -⟩ | ⟨hliteral, -⟩ <;>
        rw [hliteral] <;> rfl
  have hkey : ∀ a b : LiveRoom, (searchRoom b).viewers ≤ (searchRoom a).viewers ↔
      b.viewers ≤ a.viewers := fun a b => Int.ofNat_le
  rw [rustChannels, liveChannelsPage, interpretLiveSearch, hserde]
  dsimp only
  rw [interpretLiveSearchValue, hcode, hdata, Option.bind_some]
  refine congrArg Except.ok ?_
  dsimp only
  rw [map_rank hkey, List.map_filterMap]

theorem typeScript_listed (hjs : libraries.js text = some body)
    (hvalid : TypeScript.liveSearchResponseSchema.valid libraries.integerOf body = true)
    (haccepted : Accepted libraries body) (hdata : body.get "data" = some (.arr items))
    (husual : ∀ item ∈ items, Usual libraries item) :
    TypeScript.liveChannels libraries text =
      .ok (rank SearchRoom.viewers (items.filterMap fun item =>
        (expectedRoom libraries item).filter fun room =>
          room.roomId.toList.all Char.isDigit)) := by
  have hcode : (TypeScript.integerAt libraries.toJsonReaders body "status_code").filter
      (fun code => decide (code ≠ 0)) = none := by
    rw [TypeScript.integerAt, ← intAt]
    rcases haccepted with hnone | hzero
    · rw [intAt, hnone]
      rfl
    · rw [hzero]
      rfl
  have hitems := mapM_eq_ok fun item hmem => typeScript_item (husual item hmem)
  rw [TypeScript.liveChannels, hjs]
  dsimp only
  rw [if_neg (by simp [hvalid]), hcode, hdata, Option.bind_some, Json.asArray, Option.getD_some]
  dsimp only
  rw [hitems]
  refine congrArg Except.ok ?_
  dsimp only
  rw [List.filterMap_map]
  rfl

theorem android_listed (horg : libraries.org text = some body)
    (haccepted : Accepted libraries body) (hdata : body.get "data" = some (.arr items)) :
    (Android.parseFeed libraries text).map (·.map Android.searchRoom) =
      .ok (rank SearchRoom.viewers (items.filterMap fun item =>
        (Android.liveRoomOf libraries item).map Android.searchRoom)) := by
  have hcode : OrgJson.optInt libraries body "status_code" 0 = 0 := by
    rcases haccepted with hnone | hzero
    · rw [OrgJson.optInt, hnone]
      rfl
    · obtain ⟨n, hget, hn⟩ := exists_num_of_intAt hzero
      rw [OrgJson.optInt, hget, Option.bind_some, OrgJson.toInt, Option.getD_some,
        libraries.zero n hn]
  have hkey : ∀ a b : Android.LiveRoom,
      (Android.searchRoom b).viewers ≤ (Android.searchRoom a).viewers ↔ b.viewers ≤ a.viewers :=
    fun _ _ => Iff.rfl
  rw [Android.parseFeed, horg]
  dsimp only
  rw [hcode, if_neg (by decide), hdata, Option.bind_some]
  refine congrArg Except.ok ?_
  dsimp only
  rw [map_rank hkey, List.map_filterMap]

/-- The same list is ranked out of two picks that agree on each item only. -/
theorem eq_of_ranked {pick other : Json Number → Option SearchRoom} {rooms : List SearchRoom}
    (hwithin : ∀ item ∈ items, Within (fun room => room.viewers.toNat) (pick item) (other item))
    (hpick : (rank SearchRoom.viewers (items.filterMap pick)).Perm rooms)
    (hother : rooms.Perm (items.filterMap other)) : ∀ item ∈ items, pick item = other item :=
  eq_of_perm_filterMap hwithin ((rank_perm _ _).symm.trans (hpick.trans hother))

theorem valid_items
    (hvalid : TypeScript.liveSearchResponseSchema.valid libraries.integerOf body = true)
    (hdata : body.get "data" = some (.arr items)) : ∀ item ∈ items,
      TypeScript.searchItemSchema.valid libraries.integerOf item = true := by
  have harray := JsonSchema.valid_get (List.mem_cons_of_mem _ (List.mem_cons_of_mem _
    List.mem_cons_self)) hvalid hdata
  rw [JsonSchema.valid] at harray
  exact List.all_eq_true.mp harray

/-- An object that `serde_json` takes is read alike by all three. -/
theorem read_alike (htaken : libraries.serde text ≠ none) (hjs : libraries.js text = some body)
    (hobject : body.isObject = true) :
    libraries.serde text = some body ∧ libraries.org text = some body := by
  obtain ⟨value, hserde⟩ := Option.ne_none_iff_exists'.mp htaken
  obtain rfl := serde_eq hserde hjs
  exact ⟨hserde, by rw [libraries.org_serde text value hserde, Option.filter_some, if_pos hobject]⟩

/-- On an answer that is no refusal, all list the expected rooms only if it
is valid and its items are plain. -/
theorem plain_of_listed {rooms : List SearchRoom} (hjs : libraries.js text = some body)
    (haccepted : Accepted libraries body) (hdata : body.get "data" = some (.arr items))
    (husual : ∀ item ∈ items, Usual libraries item)
    (hranked : Ranked SearchRoom.viewers (items.filterMap (expectedRoom libraries)) rooms)
    (hrust : (rustChannels libraries text).map (·.map searchRoom) = .ok rooms)
    (hts : TypeScript.liveChannels libraries text = .ok rooms)
    (handroid : (Android.parseFeed libraries text).map (·.map Android.searchRoom) = .ok rooms) :
    libraries.serde text ≠ none ∧
      TypeScript.liveSearchResponseSchema.valid libraries.integerOf body = true ∧
      ∀ item ∈ items, PlainItem libraries item := by
  have htaken : libraries.serde text ≠ none := by
    intro hserde
    rw [rustChannels, liveChannelsPage, interpretLiveSearch, hserde] at hrust
    cases hrust
  have hvalid : TypeScript.liveSearchResponseSchema.valid libraries.integerOf body = true := by
    by_contra hinvalid
    rw [TypeScript.liveChannels, hjs] at hts
    dsimp only at hts
    rw [if_pos (by simp [hinvalid])] at hts
    cases hts
  obtain ⟨hserde, horg⟩ := read_alike htaken hjs (Json.isObject_of_get hdata)
  rw [rust_listed hserde haccepted hdata] at hrust
  rw [typeScript_listed hjs hvalid haccepted hdata husual] at hts
  rw [android_listed horg haccepted hdata] at handroid
  have hrust := eq_of_ranked (fun item hmem => rust_within (husual item hmem))
    (.of_eq (Except.ok.inj hrust)) hranked.perm
  have hts := eq_of_ranked (fun item _ => Within.filter (expectedRoom libraries item) _)
    (.of_eq (Except.ok.inj hts)) hranked.perm
  have hliteral := fun item hmem => (rust_eq_iff (husual item hmem)).mp (hrust item hmem)
  have hread := fun item hmem => serde_of_literal (hliteral item hmem)
  -- what Rust reads, Android reads too, so that it lists at least the expected rooms
  have handroid := eq_of_perm_filterMap
    (fun item hmem => android_within (valid_items hvalid hdata item hmem) (husual item hmem)
      (hread item hmem))
    (hranked.perm.symm.trans ((rank_perm _ _).symm.trans (.of_eq (Except.ok.inj handroid))).symm)
  refine ⟨htaken, hvalid, ?_⟩
  intro item hmem
  refine ⟨?_, hliteral item hmem, (android_eq_iff (valid_items hvalid hdata item hmem)
    (husual item hmem) (hread item hmem)).mp (handroid item hmem)⟩
  intro room hroom
  have hkept := hts item hmem
  rw [hroom] at hkept
  exact (Option.filter_eq_some_iff.mp hkept).2

theorem listed_of_plain (hjs : libraries.js text = some body)
    (haccepted : Accepted libraries body) (hdata : body.get "data" = some (.arr items))
    (husual : ∀ item ∈ items, Usual libraries item) (htaken : libraries.serde text ≠ none)
    (hvalid : TypeScript.liveSearchResponseSchema.valid libraries.integerOf body = true)
    (hplain : ∀ item ∈ items, PlainItem libraries item) :
    ∃ rooms, Ranked SearchRoom.viewers (items.filterMap (expectedRoom libraries)) rooms ∧
      (rustChannels libraries text).map (·.map searchRoom) = .ok rooms ∧
      TypeScript.liveChannels libraries text = .ok rooms ∧
      (Android.parseFeed libraries text).map (·.map Android.searchRoom) = .ok rooms := by
  obtain ⟨hserde, horg⟩ := read_alike htaken hjs (Json.isObject_of_get hdata)
  have hread := fun item hmem => serde_of_literal (hplain item hmem).literal
  have hrust := List.filterMap_congr fun item hmem =>
    (rust_eq_iff (husual item hmem)).mpr (hplain item hmem).literal
  have hts : ∀ item ∈ items, ((expectedRoom libraries item).filter fun room =>
      room.roomId.toList.all Char.isDigit) = expectedRoom libraries item := by
    intro item hmem
    cases hexpected : expectedRoom libraries item with
    | none => rfl
    | some room => rw [Option.filter_some, if_pos ((hplain item hmem).digits room hexpected)]
  have handroid := List.filterMap_congr fun item hmem =>
    (android_eq_iff (valid_items hvalid hdata item hmem) (husual item hmem)
      (hread item hmem)).mpr (hplain item hmem).strict
  refine ⟨_, rank_ranked SearchRoom.viewers (items.filterMap (expectedRoom libraries)),
    ?_, ?_, ?_⟩
  · rw [rust_listed hserde haccepted hdata, hrust]
  · rw [typeScript_listed hjs hvalid haccepted hdata husual, List.filterMap_congr hts]
  · rw [android_listed horg haccepted hdata, ← handroid]

/-- The three searches agree exactly on plain answers. -/
theorem live_searches_agree_iff (libraries : JsonLibraries Number) (text : String) :
    SearchesAgree libraries text ↔ PlainSearch libraries text := by
  constructor
  · rintro ⟨hrefused, hlisted⟩
    refine ⟨?_, ?_⟩
    · intro body n code hjs hget hcode hne
      obtain ⟨hrust, -, handroid⟩ :=
        hrefused body code hjs (by rw [intAt_of_num hget, hcode]) hne
      rcases (rust_fails_iff hjs hget hcode hne).mp hrust with hdata | hliteral
      · exact Or.inl hdata
      · exact ((android_fails_iff hjs hget).mp handroid).imp_right fun h => ⟨hliteral, h⟩
    · intro body items hjs haccepted hdata husual
      obtain ⟨rooms, hranked, hrust, hts, handroid⟩ :=
        hlisted body items hjs haccepted hdata husual
      exact plain_of_listed hjs haccepted hdata husual hranked hrust hts handroid
  · rintro ⟨hrefused, hlisted⟩
    refine ⟨?_, ?_⟩
    · intro body code hjs hcode hne
      obtain ⟨n, hget, hn⟩ := exists_num_of_intAt hcode
      have hcond := hrefused body n code hjs hget hn hne
      exact ⟨(rust_fails_iff hjs hget hn hne).mpr (hcond.imp_right And.left),
        typeScript_fails hjs hcode hne,
        (android_fails_iff hjs hget).mpr (hcond.imp_right And.right)⟩
    · intro body items hjs haccepted hdata husual
      obtain ⟨htaken, hvalid, hplain⟩ := hlisted body items hjs haccepted hdata husual
      exact listed_of_plain hjs haccepted hdata husual htaken hvalid hplain

end

/-! ## A refusal that Android does not know -/

/-- A refusal with an empty list. -/
def refusal : Json Int := .obj [("status_code", .num 10), ("data", .arr [])]

def refusalText : String := "\x7b\"status_code\":10,\"data\":[]\x7d"

/-- The three parsers on the text of the refusal. -/
def parseRefusal (text : String) : Option (Json Int) :=
  if text = refusalText then some refusal else none

theorem refusal_of_parse {text : String} {value : Json Int} (h : parseRefusal text = some value) :
    parseRefusal text = (some value).filter Json.isObject := by
  rw [parseRefusal] at h ⊢
  split_ifs at h with htext
  rw [if_pos htext, ← Option.some.inj h]
  rfl

/-- The libraries on small integers and on the text of the refusal. -/
def refusalLibraries : JsonLibraries Int where
  toJsonReaders := smallIntegers
  serde := parseRefusal
  serdeError _ := "expected value at line 1 column 1"
  js := parseRefusal
  org := parseRefusal
  serde_js _ _ h := h
  org_serde _ _ h := refusal_of_parse h
  org_js _ _ h := Or.inr (refusal_of_parse h)
  js_empty := by decide
  org_empty := by decide
  small n k hn hnonneg hle := by
    obtain rfl : n = k := Option.some.inj hn
    have hmax : maxSafeInteger = 9007199254740991 := rfl
    refine ⟨Int.bmod_eq_of_le (by omega) (by omega), Or.inl ⟨if_pos (by omega), if_pos (by omega)⟩⟩
  zero n hn := by
    obtain rfl : n = 0 := Option.some.inj hn
    rfl
  zero_literal n hn := by
    change (if -2 ^ 63 ≤ n ∧ n < 2 ^ 63 then some n else none) = some 0 at hn
    split_ifs at hn
    exact hn

theorem live_searches_disagree_on_refusal : ¬SearchesAgree refusalLibraries refusalText := by
  intro h
  have hjs : refusalLibraries.js refusalText = some refusal := by
    change parseRefusal refusalText = some refusal
    rw [parseRefusal, if_pos rfl]
  have hfails := (h.refused refusal 10 hjs rfl (by decide)).2.2
  rcases (android_fails_iff (n := 10) hjs rfl).mp hfails with hdata | hnone | hcode
  · cases hdata
  · cases hnone.symm.trans hjs
  · exact absurd hcode (by decide)

end TiktokSigner.Parity
