import TiktokSigner.LiveDiscovery.LiveSearch
import TiktokSigner.LiveWs.OpenUri

/-!
# Pages of a live search

`interpret_live_search_page` and the chain of requests that follow the
cursor of each page. The server decides on every cursor; a chain moves on
and keeps its search ID all the same (`Exchange.Follows`), because each
answer is checked against the request before it.

Numbers are what a number literal stands for: `integerOf` is its integer,
and `serde_json` has it as an `i64` or a `u64` where it fits.
-/

namespace TiktokSigner.LiveDiscovery

open LiveWs (parseU64)

/-- Server continuation for a search. -/
structure LiveSearchCursor where
  offset : Nat
  searchId : String
deriving DecidableEq

structure LiveSearchPage where
  rooms : List LiveRoom
  next : Option LiveSearchCursor
deriving DecidableEq

def FitsI64 (n : Int) : Prop := -2 ^ 63 ≤ n ∧ n < 2 ^ 63

instance (n : Int) : Decidable (FitsI64 n) := inferInstanceAs (Decidable (_ ∧ _))

section

variable {Number : Type} (integerOf : Number → Option Int) (parse : String → Option (Json Number))
  (parseError : String → String) (usizeMax : Nat)

/-- `Number::as_i64`. -/
def asI64 (n : Number) : Option Int := (integerOf n).filter fun k => decide (FitsI64 k)

/-- `Number::as_u64`. -/
def asU64 (n : Number) : Option Nat :=
  ((integerOf n).filter fun k => decide (0 ≤ k ∧ k < 2 ^ 64)).map Int.toNat

/-! ## One page -/

/-- Whether a continuation is asserted; a legacy response asserts none. -/
def hasMore (value : Json Number) : Except DiscoveryError Bool :=
  match value.get "has_more" with
  | some (.bool more) => .ok more
  | some field =>
      match field.asNum.bind (asU64 integerOf) with
      | some 1 => .ok true
      | some 0 => .ok false
      | _ => .error (.decode "invalid live search has_more")
  | none => .ok false

/-- `cursor`, a number or the text of one. -/
def cursorOffset (value : Json Number) : Option Nat :=
  ((value.get "cursor").bind fun field =>
    (field.asNum.bind (asU64 integerOf)).or
      (field.asStr.bind fun text => (parseU64 text.toList).map UInt64.toNat)).filter (· ≤ usizeMax)

/-- The ID of the search, else the impression ID of the response. -/
def searchContext (value : Json Number) (previous : Option LiveSearchCursor) : Option String :=
  (((previous.map LiveSearchCursor.searchId).filter (· ≠ "")).or
    (((value.get "log_pb").bind (·.get "impr_id")).bind Json.asStr)).filter
      fun id => id ≠ "" && id.utf8ByteSize ≤ 256

def nextCursor (value : Json Number) (previous : Option LiveSearchCursor) :
    Except DiscoveryError LiveSearchCursor :=
  match cursorOffset integerOf usizeMax value with
  | none => .error (.decode "missing live search cursor")
  | some offset =>
      if offset ≤ (previous.map LiveSearchCursor.offset).getD 0 then
        .error (.decode "live search cursor did not advance")
      else
        match searchContext value previous with
        | none => .error (.decode "missing live search context")
        | some searchId => .ok { offset, searchId }

/-- A terminal continuation may omit its data. -/
def endsWithoutData (value : Json Number) (previous : Option LiveSearchCursor) (more : Bool) :
    Bool :=
  previous.isSome && (value.get "data").isNone &&
    intAt (asI64 integerOf) value "status_code" == some 0 && (value.get "has_more").isSome && !more

def pageRooms (value : Json Number) (previous : Option LiveSearchCursor) (more : Bool) :
    Except DiscoveryError (List LiveRoom) :=
  if endsWithoutData integerOf value previous more then .ok []
  else interpretLiveSearchValue (asI64 integerOf) (asU64 integerOf) parse value

def pageNext (value : Json Number) (previous : Option LiveSearchCursor) (more : Bool) :
    Except DiscoveryError (Option LiveSearchCursor) :=
  if more then (nextCursor integerOf usizeMax value previous).map some else .ok none

/-- The page of a body that is JSON. -/
def pageOf (value : Json Number) (previous : Option LiveSearchCursor) :
    Except DiscoveryError LiveSearchPage := do
  let more ← hasMore integerOf value
  let rooms ← pageRooms integerOf parse value previous more
  let next ← pageNext integerOf usizeMax value previous more
  return { rooms, next }

def interpretLiveSearchPage (body : String) (previous : Option LiveSearchCursor) :
    Except DiscoveryError LiveSearchPage :=
  match parse body with
  | none => .error (.decode (parseError body))
  | some value => pageOf integerOf parse usizeMax value previous

/-! ## Chains -/

/-- What is asked for; a search starts at zero, without an ID. -/
def requested (cursor : Option LiveSearchCursor) : LiveSearchCursor := cursor.getD ⟨0, ""⟩

structure Exchange where
  request : LiveSearchCursor
  body : String
  answer : Except DiscoveryError LiveSearchPage

/-- The requests of a search as long as its pages have a next one, with the
bodies that the server answers with. -/
def chain (cursor : Option LiveSearchCursor) : List String → List Exchange
  | [] => []
  | body :: bodies =>
      let answer := interpretLiveSearchPage integerOf parse parseError usizeMax body cursor
      ⟨requested cursor, body, answer⟩ ::
        match answer with
        | .ok ⟨_, some next⟩ => chain (some next) bodies
        | _ => []

variable {integerOf parse parseError usizeMax}

/-! ## One answer -/

/-- The next request asks further on, in the same search. -/
structure LiveSearchCursor.Follows (next request : LiveSearchCursor) : Prop where
  advances : request.offset < next.offset
  context : request.searchId ≠ "" → next.searchId = request.searchId

theorem LiveSearchCursor.Follows.trans {a b c : LiveSearchCursor} (hcb : c.Follows b)
    (hba : b.Follows a) : c.Follows a where
  advances := Nat.lt_trans hba.advances hcb.advances
  context h := by
    have hb := hba.context h
    rw [hcb.context (by rw [hb]; exact h), hb]

theorem follows_of_nextCursor {value : Json Number} {previous : Option LiveSearchCursor}
    {next : LiveSearchCursor} (h : nextCursor integerOf usizeMax value previous = .ok next) :
    next.Follows (requested previous) := by
  unfold nextCursor at h
  split at h
  case h_1 => cases h
  case h_2 offset hoffset =>
    split_ifs at h with hle
    split at h
    case h_1 => cases h
    case h_2 searchId hcontext =>
      obtain rfl := Except.ok.inj h
      cases previous with
      | none => exact ⟨Nat.lt_of_not_le hle, fun hne => absurd rfl hne⟩
      | some cursor =>
        refine ⟨Nat.lt_of_not_le hle, fun hne => ?_⟩
        -- an ID that is there is the only candidate
        change cursor.searchId ≠ "" at hne
        have hkept : (some cursor.searchId).filter (· ≠ "") = some cursor.searchId := by
          rw [Option.filter_some, if_pos (decide_eq_true hne)]
        rw [searchContext, Option.map_some, hkept, Option.some_or] at hcontext
        exact (Option.some.inj (Option.eq_some_of_filter_eq_some hcontext)).symm

theorem follows_of_page {body : String} {previous : Option LiveSearchCursor} {rooms : List LiveRoom}
    {next : LiveSearchCursor}
    (h : interpretLiveSearchPage integerOf parse parseError usizeMax body previous
      = .ok ⟨rooms, some next⟩) : next.Follows (requested previous) := by
  unfold interpretLiveSearchPage at h
  split at h
  case h_1 => cases h
  case h_2 value hparse =>
    obtain ⟨more, -, h⟩ := bind_eq_ok.mp h
    obtain ⟨rooms', -, h⟩ := bind_eq_ok.mp h
    obtain ⟨next', hnext, h⟩ := bind_eq_ok.mp h
    obtain ⟨rfl, rfl⟩ := (LiveSearchPage.mk.injEq ..).mp (Except.ok.inj h)
    unfold pageNext at hnext
    split_ifs at hnext
    · cases hcursor : nextCursor integerOf usizeMax value previous with
      | error e => rw [hcursor] at hnext; cases hnext
      | ok cursor =>
        rw [hcursor] at hnext
        obtain rfl := Option.some.inj (Except.ok.inj hnext)
        exact follows_of_nextCursor hcursor
    · cases hnext

/-! ## Refusals -/

def Refused {α : Type} (answer : Except DiscoveryError α) : Prop :=
  ∃ message, answer = .error (.refused message)

theorem refused_iff_of_value (value : Json Number) :
    Refused (interpretLiveSearchValue (asI64 integerOf) (asU64 integerOf) parse value) ↔
      ∃ code, intAt (asI64 integerOf) value "status_code" = some code ∧ code ≠ 0 := by
  unfold interpretLiveSearchValue
  cases hcode : (intAt (asI64 integerOf) value "status_code").filter (· ≠ 0) with
  | some code =>
    rw [Option.filter_eq_some_iff] at hcode
    exact ⟨fun _ => ⟨code, hcode.1, of_decide_eq_true hcode.2⟩, fun _ => ⟨_, rfl⟩⟩
  | none =>
    rw [Option.filter_eq_none_iff] at hcode
    constructor
    · rintro ⟨message, h⟩
      dsimp only at h
      split at h <;> cases h
    · rintro ⟨code, hsome, hne⟩
      exact absurd (decide_eq_true hne) (hcode code hsome)

/-- `has_more` is absent, a boolean, zero or one. -/
def ReadableHasMore (integerOf : Number → Option Int) (value : Json Number) : Prop :=
  ∀ field, value.get "has_more" = some field →
    (∃ more, field = .bool more) ∨
      ∃ n, field = .num n ∧ (integerOf n = some 0 ∨ integerOf n = some 1)

theorem asU64_eq_some {n : Number} {k : Nat} (hk : k < 2 ^ 64) :
    asU64 integerOf n = some k ↔ integerOf n = some (k : Int) := by
  unfold asU64
  cases integerOf n with
  | none => exact iff_of_false (fun h => by cases h) (fun h => by cases h)
  | some j =>
    rw [Option.filter_some]
    split_ifs with hj
    · have hj := of_decide_eq_true hj
      rw [Option.map_some, Option.some_inj, Option.some_inj]
      omega
    · refine iff_of_false (fun h => by cases h) fun h => hj ?_
      obtain rfl := Option.some.inj h
      exact decide_eq_true (by omega)

theorem exists_hasMore_iff (value : Json Number) :
    (∃ more, hasMore integerOf value = .ok more) ↔ ReadableHasMore integerOf value := by
  unfold hasMore ReadableHasMore
  cases hfield : value.get "has_more" with
  | none => exact iff_of_true ⟨false, rfl⟩ fun _ h => by cases h
  | some field =>
    simp only [Option.some.injEq, forall_eq']
    cases field with
    | bool more => exact iff_of_true ⟨more, rfl⟩ (Or.inl ⟨more, rfl⟩)
    | num n =>
      have hzero : asU64 integerOf n = some 0 ↔ integerOf n = some ((0 : Nat) : Int) :=
        asU64_eq_some (by decide)
      have hone : asU64 integerOf n = some 1 ↔ integerOf n = some ((1 : Nat) : Int) :=
        asU64_eq_some (by decide)
      simp only [reduceCtorEq, exists_false, Json.num.injEq, false_or, exists_eq_left', Json.asNum,
        Option.bind_some]
      rw [← Nat.cast_zero, ← hzero, ← Nat.cast_one, ← hone]
      split <;> simp_all
    | _ => exact iff_of_false (by rintro ⟨_, h⟩; cases h) (by simp)

theorem not_refused_hasMore (value : Json Number) : ¬Refused (hasMore integerOf value) := by
  rintro ⟨message, h⟩
  unfold hasMore at h
  split at h
  case h_2 => split at h <;> cases h
  all_goals cases h

theorem not_refused_pageNext (value : Json Number) (previous : Option LiveSearchCursor)
    (more : Bool) : ¬Refused (pageNext integerOf usizeMax value previous more) := by
  rintro ⟨message, h⟩
  unfold pageNext nextCursor at h
  split_ifs at h
  · split at h
    case h_1 => cases h
    case h_2 =>
      split_ifs at h
      · cases h
      · split at h <;> cases h

theorem refused_bind {α β : Type} {x : Except DiscoveryError α} {f : α → Except DiscoveryError β} :
    Refused (x >>= f) ↔ Refused x ∨ ∃ a, x = .ok a ∧ Refused (f a) := by
  cases x <;> simp [Refused, bind, Except.bind]

/-- A refusal is told apart where `has_more` can be read and the status code
fits. -/
theorem refused_iff_of_pageOf {value : Json Number} {code : Int}
    (hcode : intAt integerOf value "status_code" = some code) (hne : code ≠ 0)
    (previous : Option LiveSearchCursor) :
    Refused (pageOf integerOf parse usizeMax value previous) ↔
      FitsI64 code ∧ ReadableHasMore integerOf value := by
  have hi64 : intAt (asI64 integerOf) value "status_code"
      = if FitsI64 code then some code else none := by
    obtain ⟨n, hn, hread⟩ := exists_num_of_intAt hcode
    rw [intAt_of_num hn, asI64, hread, Option.filter_some]
    simp only [decide_eq_true_eq]
  have hrooms : ∀ more, Refused (pageRooms integerOf parse value previous more) ↔ FitsI64 code := by
    intro more
    have hfull : endsWithoutData integerOf value previous more = false := by
      rw [endsWithoutData, hi64]
      split_ifs <;> simp [hne]
    rw [pageRooms, hfull, if_neg Bool.false_ne_true, refused_iff_of_value, hi64]
    constructor
    · rintro ⟨k, hk, -⟩
      by_contra hfits
      rw [if_neg hfits] at hk
      cases hk
    · intro hfits
      exact ⟨code, if_pos hfits, hne⟩
  have hrest : ∀ rooms more, ¬Refused (do
      let next ← pageNext integerOf usizeMax value previous more
      return ({ rooms, next } : LiveSearchPage)) := by
    rintro rooms more hrefused
    rcases refused_bind.mp hrefused with h | ⟨next, -, message, h⟩
    · exact not_refused_pageNext value previous more h
    · cases h
  rw [pageOf, refused_bind, or_iff_right (not_refused_hasMore value), ← exists_hasMore_iff]
  constructor
  · rintro ⟨more, hmore, hrefused⟩
    rcases refused_bind.mp hrefused with h | ⟨rooms, -, h⟩
    · exact ⟨(hrooms more).mp h, more, hmore⟩
    · exact absurd h (hrest rooms more)
  · rintro ⟨hfits, more, hmore⟩
    exact ⟨more, hmore, refused_bind.mpr (Or.inl ((hrooms more).mpr hfits))⟩

/-! ## The laws of a chain -/

section

variable (integerOf parse)

/-- The answer is a refusal where the response is one. -/
def Exchange.RefusalTold (exchange : Exchange) : Prop :=
  ∀ value code, parse exchange.body = some value → intAt integerOf value "status_code" = some code →
    code ≠ 0 → Refused exchange.answer

/-- The response is no refusal, or one with a status code in range and a
`has_more` that can be read. -/
def PlainRefusal (body : String) : Prop :=
  ∀ value code, parse body = some value → intAt integerOf value "status_code" = some code →
    code ≠ 0 → FitsI64 code ∧ ReadableHasMore integerOf value

structure ChainLaws (exchanges : List Exchange) : Prop where
  offsets : exchanges.Pairwise fun a b => a.request.offset < b.request.offset
  context : exchanges.Pairwise fun a b =>
    a.request.searchId ≠ "" → b.request.searchId = a.request.searchId
  refusals : ∀ exchange ∈ exchanges, exchange.RefusalTold integerOf parse

end

theorem chain_follows (bodies : List String) (cursor : Option LiveSearchCursor) :
    (chain integerOf parse parseError usizeMax cursor bodies).Pairwise
        (fun a b => b.request.Follows a.request) ∧
      ∀ exchange ∈ chain integerOf parse parseError usizeMax cursor bodies,
        exchange.request = requested cursor ∨ exchange.request.Follows (requested cursor) := by
  induction bodies generalizing cursor with
  | nil => exact ⟨.nil, fun _ h => absurd h List.not_mem_nil⟩
  | cons body bodies ih =>
    rw [chain]
    split
    case h_1 rooms next hanswer =>
      have hfollows := follows_of_page hanswer
      obtain ⟨hpairs, hlater⟩ := ih (some next)
      have hall : ∀ exchange ∈ chain integerOf parse parseError usizeMax (some next) bodies,
          exchange.request.Follows (requested cursor) := by
        intro exchange hmem
        rcases hlater exchange hmem with heq | hafter
        · exact heq ▸ hfollows
        · exact hafter.trans hfollows
      refine ⟨List.pairwise_cons.mpr ⟨hall, hpairs⟩, ?_⟩
      intro exchange hmem
      rcases List.mem_cons.mp hmem with rfl | hmem
      · exact Or.inl rfl
      · exact Or.inr (hall exchange hmem)
    case h_2 =>
      refine ⟨List.pairwise_singleton _ _, ?_⟩
      intro exchange hmem
      obtain rfl := List.mem_singleton.mp hmem
      exact Or.inl rfl

theorem answer_of_chain {bodies : List String} {cursor : Option LiveSearchCursor}
    {exchange : Exchange}
    (h : exchange ∈ chain integerOf parse parseError usizeMax cursor bodies) :
    ∃ previous, exchange.answer
      = interpretLiveSearchPage integerOf parse parseError usizeMax exchange.body previous := by
  induction bodies generalizing cursor with
  | nil => cases h
  | cons body bodies ih =>
    rw [chain] at h
    rcases List.mem_cons.mp h with rfl | h
    · exact ⟨cursor, rfl⟩
    · split at h
      case h_1 => exact ih h
      case h_2 => cases h

theorem refusalTold_iff {bodies : List String} {cursor : Option LiveSearchCursor}
    {exchange : Exchange}
    (h : exchange ∈ chain integerOf parse parseError usizeMax cursor bodies) :
    exchange.RefusalTold integerOf parse ↔ PlainRefusal integerOf parse exchange.body := by
  obtain ⟨previous, hanswer⟩ := answer_of_chain h
  refine forall₅_congr fun value code hparse hcode hne => ?_
  rw [hanswer, interpretLiveSearchPage, hparse]
  exact refused_iff_of_pageOf hcode hne previous

/-- Every chain moves on and keeps its search ID; the refusals among its
responses are told as such exactly where each of them is plain. -/
theorem search_chain_lawful_iff {Number : Type} (integerOf : Number → Option Int)
    (parse : String → Option (Json Number)) (parseError : String → String) (usizeMax : Nat)
    (cursor : Option LiveSearchCursor) (bodies : List String) :
    ChainLaws integerOf parse (chain integerOf parse parseError usizeMax cursor bodies) ↔
      ∀ exchange ∈ chain integerOf parse parseError usizeMax cursor bodies,
        PlainRefusal integerOf parse exchange.body := by
  have hpairs : (chain integerOf parse parseError usizeMax cursor bodies).Pairwise
      (fun a b => b.request.Follows a.request) := (chain_follows bodies cursor).1
  constructor
  · intro h exchange hmem
    exact (refusalTold_iff hmem).mp (h.refusals exchange hmem)
  · intro h
    exact
      { offsets := hpairs.imp fun hfollows => hfollows.advances
        context := hpairs.imp fun hfollows => hfollows.context
        refusals := fun exchange hmem => (refusalTold_iff hmem).mpr (h exchange hmem) }

/-- The first answer, `{"status_code":10,"has_more":null}`, is a refusal
whose `has_more` cannot be read. -/
theorem refusal_without_has_more_is_decode_error :
    ¬ChainLaws (some : Int → Option Int)
      (fun _ => some (.obj [("status_code", .num 10), ("has_more", .null)]))
      (chain some (fun _ => some (.obj [("status_code", .num 10), ("has_more", .null)])) id
        (2 ^ 64 - 1) none ["\x7b\"status_code\":10,\"has_more\":null\x7d"]) := by
  intro h
  obtain ⟨message, hmessage⟩ := h.refusals _ List.mem_cons_self _ 10 rfl rfl (by decide)
  cases hmessage

end

end TiktokSigner.LiveDiscovery
