import Mathlib.Data.Finset.Insert
import Mathlib.Data.List.Chain
import TiktokSigner.Android.KotlinText

/-!
# Event actions

`EventAction.kt` and `onEvent` of `ActionsRepository.kt`: which actions an
event sets off, how an action is stored in its row, and how its templates
are filled in. Texts are sequences of UTF-16 units; comparing them without
regard to case is up to the platform.
-/

namespace TiktokSigner.Android.EventActions

open Parity (utf16)
open Parity.Android (Category)

/-! ## Actions -/

inductive Method where
  | get
  | post
deriving DecidableEq

structure EventAction where
  id : Int64 := 0
  name : List UInt16 := []
  enabled : Bool := true
  triggers : Finset Category := {.chat}
  method : Method := .get
  url : List UInt16 := []
  body : List UInt16 := []
  /-- Per-action cooldown; 0 disables it. -/
  cooldownSecs : Int64 := 0
  giftName : List UInt16 := []
deriving DecidableEq

/-- The name of a constant of the enumeration. -/
def categoryName : Category → String
  | .chat => "CHAT"
  | .emote => "EMOTE"
  | .gift => "GIFT"
  | .like => "LIKE"
  | .follow => "FOLLOW"
  | .share => "SHARE"
  | .social => "SOCIAL"
  | .join => "JOIN"
  | .member => "MEMBER"
  | .room => "ROOM"
  | .unknown => "UNKNOWN"

def isBlank (text : List UInt16) : Bool := text.all isWhitespaceUnit

section Matcher

variable (equalsIgnoreCase : List UInt16 → List UInt16 → Bool)

/-- What `matches` asks of an action apart from its cooldown. -/
def eligible (action : EventAction) (event : Parity.Android.LiveEvent) : Bool :=
  action.enabled && event.category ∈ action.triggers && !isBlank action.url
    && (isBlank action.giftName
      || (event.category == .gift && equalsIgnoreCase event.text action.giftName))

def cooldownMs (action : EventAction) : Int64 := action.cooldownSecs * 1000

/-- The last check of `matches`. -/
def cooledDown (action : EventAction) (nowMs : Int64) (lastFiredMs : Option Int64) : Bool :=
  match lastFiredMs with
  | some lastFiredMs => !(cooldownMs action > 0 && nowMs - lastFiredMs < cooldownMs action)
  | none => true

def matchesEvent (action : EventAction) (event : Parity.Android.LiveEvent) (nowMs : Int64)
    (lastFiredMs : Option Int64) : Bool :=
  eligible equalsIgnoreCase action event && cooledDown action nowMs lastFiredMs

/-! ## The repository -/

abbrev LastFired := Int64 → Option Int64

/-- The `filter` of `onEvent`, with what it writes. -/
def due (event : Parity.Android.LiveEvent) (now : Int64) :
    LastFired → List EventAction → List EventAction × LastFired
  | lastFired, [] => ([], lastFired)
  | lastFired, action :: actions =>
      if matchesEvent equalsIgnoreCase action event now (lastFired action.id) then
        let (rest, lastFired) :=
          due event now (Function.update lastFired action.id (some now)) actions
        (action :: rest, lastFired)
      else due event now lastFired actions

/-- A call of `onEvent`: the actions there are, and the clock. -/
structure Call where
  actions : List EventAction
  event : Parity.Android.LiveEvent
  now : Int64

structure Firing where
  action : EventAction
  event : Parity.Android.LiveEvent
  now : Int64
deriving DecidableEq

/-- What the calls set off. -/
def onEvents : LastFired → List Call → List Firing
  | _, [] => []
  | lastFired, call :: calls =>
      let (actions, lastFired) := due equalsIgnoreCase call.event call.now lastFired call.actions
      actions.map (Firing.mk · call.event call.now) ++ onEvents lastFired calls

/-! ## Every run -/

/-- What could be set off, in the order in which it is looked at. -/
def candidates (calls : List Call) : List Firing :=
  calls.flatMap fun call => call.actions.map (Firing.mk · call.event call.now)

/-- `due`, with the calls put together. -/
def fire : LastFired → List Firing → List Firing
  | _, [] => []
  | lastFired, x :: xs =>
      if matchesEvent equalsIgnoreCase x.action x.event x.now (lastFired x.action.id) then
        x :: fire (Function.update lastFired x.action.id (some x.now)) xs
      else fire lastFired xs

theorem fire_due (event : Parity.Android.LiveEvent) (now : Int64) (actions : List EventAction)
    (lastFired : LastFired) (more : List Firing) :
    fire equalsIgnoreCase lastFired (actions.map (Firing.mk · event now) ++ more)
      = (due equalsIgnoreCase event now lastFired actions).1.map (Firing.mk · event now)
        ++ fire equalsIgnoreCase (due equalsIgnoreCase event now lastFired actions).2 more := by
  induction actions generalizing lastFired with
  | nil => rfl
  | cons action actions ih =>
    rw [List.map_cons, List.cons_append, fire, due]
    dsimp only
    split_ifs
    · rw [ih, List.map_cons, List.cons_append]
    · exact ih lastFired

theorem onEvents_eq (calls : List Call) (lastFired : LastFired) :
    onEvents equalsIgnoreCase lastFired calls
      = fire equalsIgnoreCase lastFired (candidates calls) := by
  induction calls generalizing lastFired with
  | nil => rfl
  | cons call calls ih =>
    rw [candidates, List.flatMap_cons, ← candidates, fire_due, ← ih]
    rfl

/-- The firings of an action. -/
def firingsOf (id : Int64) (log : List Firing) : List Firing :=
  log.filter fun x => x.action.id = id

/-- When an action fired last. -/
def lastTime (log : List Firing) : LastFired := fun id => (firingsOf id log).getLast?.map (·.now)

theorem lastTime_concat (log : List Firing) (x : Firing) :
    lastTime (log ++ [x]) = Function.update (lastTime log) x.action.id (some x.now) := by
  funext id
  by_cases h : id = x.action.id
  · subst h
    simp [lastTime, firingsOf, List.filter_append]
  · have hne : ¬x.action.id = id := fun heq => h heq.symm
    simp [lastTime, firingsOf, List.filter_append, h, hne]

/-- What an action does on an event, by the log alone. -/
def fires (log : List Firing) (x : Firing) : Bool :=
  matchesEvent equalsIgnoreCase x.action x.event x.now (lastTime log x.action.id)

def record (log : List Firing) (x : Firing) : List Firing :=
  if fires equalsIgnoreCase log x then log ++ [x] else log

theorem foldl_record (log xs : List Firing) :
    xs.foldl (record equalsIgnoreCase) log = log ++ fire equalsIgnoreCase (lastTime log) xs := by
  induction xs generalizing log with
  | nil => rw [List.foldl_nil, fire, List.append_nil]
  | cons x xs ih =>
    rw [List.foldl_cons, ih, record, fire, fires]
    split_ifs
    · rw [lastTime_concat, List.append_assoc, List.singleton_append]
    · rfl

/-- The map of the repository is no more than the log of what fired: an
action fires on an event if it is eligible and its cooldown is over since
it fired last. -/
theorem onEvents_spec (calls : List Call) :
    onEvents equalsIgnoreCase (fun _ => none) calls
      = (candidates calls).foldl (record equalsIgnoreCase) [] := by
  rw [foldl_record, onEvents_eq]
  rfl

/-! ## Cooldowns -/

variable {equalsIgnoreCase}

/-- Within these bounds the arithmetic does not wrap. -/
structure Sane (x : Firing) : Prop where
  now_nonneg : 0 ≤ x.now.toInt
  now_lt : x.now.toInt < 2 ^ 62
  cooldown_nonneg : 0 ≤ x.action.cooldownSecs.toInt
  cooldown_le : x.action.cooldownSecs.toInt ≤ 86400

theorem toInt_cooldownMs {x : Firing} (h : Sane x) :
    (cooldownMs x.action).toInt = x.action.cooldownSecs.toInt * 1000 := by
  obtain ⟨-, -, hnonneg, hle⟩ := h
  have hthousand : (1000 : Int64).toInt = 1000 := rfl
  rw [cooldownMs, Int64.toInt_mul, hthousand, Int.bmod_eq_of_le] <;> omega

theorem toInt_sub_now {x y : Firing} (hx : Sane x) (hy : Sane y) :
    (y.now - x.now).toInt = y.now.toInt - x.now.toInt := by
  obtain ⟨hx0, hx1, -, -⟩ := hx
  obtain ⟨hy0, hy1, -, -⟩ := hy
  rw [Int64.toInt_sub, Int.bmod_eq_of_le] <;> omega

theorem le_of_cooledDown {x y : Firing} (hx : Sane x) (hy : Sane y)
    (hpos : 0 < y.action.cooldownSecs.toInt)
    (h : cooledDown y.action y.now (some x.now) = true) :
    x.now.toInt + y.action.cooldownSecs.toInt * 1000 ≤ y.now.toInt := by
  have hcooldown := toInt_cooldownMs hy
  have hsub := toInt_sub_now hx hy
  simp only [cooledDown, Bool.not_eq_true', Bool.and_eq_false_iff, decide_eq_false_iff_not,
    gt_iff_lt, Int64.lt_iff_toInt_lt, hcooldown, hsub, Int64.toInt_zero] at h
  omega

/-- Every firing of an action leaves its cooldown to the one before it. -/
theorem isChain_firings {id : Int64} {secs : Int} (hpos : 0 < secs) (xs : List Firing)
    (hsane : ∀ x ∈ xs, Sane x)
    (hsecs : ∀ x ∈ xs, x.action.id = id → x.action.cooldownSecs.toInt = secs)
    {log : List Firing} (hlog : ∀ x ∈ log, Sane x)
    (h : (firingsOf id log).IsChain fun x y => x.now.toInt + secs * 1000 ≤ y.now.toInt) :
    (firingsOf id (xs.foldl (record equalsIgnoreCase) log)).IsChain
      fun x y => x.now.toInt + secs * 1000 ≤ y.now.toInt := by
  induction xs generalizing log with
  | nil => exact h
  | cons x xs ih =>
    obtain ⟨hx, hxs⟩ := List.forall_mem_cons.mp hsane
    obtain ⟨hxsecs, hxssecs⟩ := List.forall_mem_cons.mp hsecs
    rw [List.foldl_cons, record]
    split_ifs with hfires
    · have hlog' : ∀ y ∈ log ++ [x], Sane y := by
        intro y hy
        rcases List.mem_append.mp hy with hy | hy
        · exact hlog y hy
        · rwa [List.mem_singleton.mp hy]
      refine ih hxs hxssecs hlog' ?_
      rw [firingsOf, List.filter_append, ← firingsOf]
      by_cases hid : x.action.id = id
      · rw [List.filter_cons_of_pos (by simpa using hid), List.filter_nil, List.isChain_append]
        refine ⟨h, List.isChain_singleton x, ?_⟩
        -- the firing before is the one that the map has
        rintro y hy z ⟨⟩
        have hlast : lastTime log x.action.id = some y.now := by
          rw [lastTime, hid, hy]
          rfl
        have hcooled : cooledDown x.action x.now (some y.now) = true := by
          rw [fires, hlast, matchesEvent, Bool.and_eq_true] at hfires
          exact hfires.2
        have hy' : y ∈ log := (List.mem_filter.mp (List.mem_of_getLast? hy)).1
        have hle := le_of_cooledDown (hlog y hy') hx (by rw [hxsecs hid]; exact hpos) hcooled
        rwa [hxsecs hid] at hle
      · rw [List.filter_cons_of_neg (by simpa using hid), List.filter_nil, List.append_nil]
        exact h
    · exact ih hxs hxssecs hlog h

/-- In every run the firings of an action with a cooldown are at least the
cooldown apart, whatever the events and the clock do. -/
theorem pairwise_firings {id : Int64} {secs : Int} (calls : List Call) (hpos : 0 < secs)
    (hsane : ∀ x ∈ candidates calls, Sane x)
    (hsecs : ∀ x ∈ candidates calls, x.action.id = id → x.action.cooldownSecs.toInt = secs) :
    (firingsOf id (onEvents equalsIgnoreCase (fun _ => none) calls)).Pairwise
      fun x y => x.now.toInt + secs * 1000 ≤ y.now.toInt := by
  rw [onEvents_spec]
  have : Trans (fun x y : Firing => x.now.toInt + secs * 1000 ≤ y.now.toInt)
      (fun x y : Firing => x.now.toInt + secs * 1000 ≤ y.now.toInt)
      (fun x y : Firing => x.now.toInt + secs * 1000 ≤ y.now.toInt) :=
    ⟨fun hxy hyz => by omega⟩
  rw [← List.isChain_iff_pairwise]
  exact isChain_firings hpos (candidates calls) hsane hsecs (by simp) .nil

/-- An action on every chat message, with a cooldown of ten seconds. -/
def sampleAction : EventAction := { id := 7, url := utf16 "https://x.test", cooldownSecs := 10 }

def sampleCalls : List Call :=
  [5000, 9000, 15000].map fun now => ⟨[sampleAction], { category := .chat }, now⟩

theorem pairwise_firings_sample :
    (onEvents (· == ·) (fun _ => none) sampleCalls).map (·.now) = [5000, 15000]
      ∧ (firingsOf 7 (onEvents (· == ·) (fun _ => none) sampleCalls)).Pairwise
        fun x y => x.now.toInt + 10 * 1000 ≤ y.now.toInt := by
  refine ⟨by decide, pairwise_firings sampleCalls (by decide) ?_ ?_⟩
  · intro x hx
    simp only [candidates, sampleCalls, List.map_cons, List.map_nil, List.flatMap_cons,
      List.flatMap_nil, List.append_nil, List.singleton_append, List.mem_cons, List.not_mem_nil,
      or_false] at hx
    rcases hx with rfl | rfl | rfl <;> exact ⟨by decide, by decide, by decide, by decide⟩
  · intro x hx _
    simp only [candidates, sampleCalls, List.map_cons, List.map_nil, List.flatMap_cons,
      List.flatMap_nil, List.append_nil, List.singleton_append, List.mem_cons, List.not_mem_nil,
      or_false] at hx
    rcases hx with rfl | rfl | rfl <;> decide

end Matcher

/-! ## Rows -/

/-- The constants in the order of the enumeration. -/
def categories : List Category :=
  [.chat, .emote, .gift, .like, .follow, .share, .social, .join, .member, .room, .unknown]

/-- `Category.valueOf`. -/
def categoryOf (text : List UInt16) : Option Category :=
  categories.find? fun category => utf16 (categoryName category) = text

def comma : UInt16 := 44

namespace EventAction

end EventAction

namespace EventAction

theorem max_zero (secs : Int64) : max secs 0 = if secs ≤ 0 then 0 else secs := rfl

end EventAction

/-! ## Templates -/

namespace Template

variable (space : RegexSpace)

/-- `[a-zA-Z]` -/
def isLetter (u : UInt16) : Bool :=
  (65 ≤ u.toNat && u.toNat ≤ 90) || (97 ≤ u.toNat && u.toNat ≤ 122)

/-- `lowercase` on letters. -/
def lower (u : UInt16) : UInt16 := if u.toNat ≤ 90 then u + 32 else u

def openBraces : List UInt16 := [123, 123]

def closeBraces : List UInt16 := [125, 125]

/-- A match of `PLACEHOLDER`, in its parts. -/
structure Placeholder where
  before : List UInt16
  name : List UInt16
  after : List UInt16
deriving DecidableEq

namespace Placeholder

def text (p : Placeholder) : List UInt16 :=
  openBraces ++ (p.before ++ (p.name ++ (p.after ++ closeBraces)))

structure Valid (p : Placeholder) : Prop where
  before : ∀ u ∈ p.before, space.mem u = true
  name : ∀ u ∈ p.name, isLetter u = true
  name_ne : p.name ≠ []
  after : ∀ u ∈ p.after, space.mem u = true

end Placeholder

/-- The match at the start of a text. Spaces, letters and braces are
different units, so there is at most one, and nothing is given back. -/
def placeholderAt : List UInt16 → Option (Placeholder × List UInt16)
  | 123 :: 123 :: text =>
      let before := text.takeWhile space.mem
      let text := text.dropWhile space.mem
      let name := text.takeWhile isLetter
      let text := text.dropWhile isLetter
      let after := text.takeWhile space.mem
      match text.dropWhile space.mem with
      | 125 :: 125 :: rest => if name = [] then none else some (⟨before, name, after⟩, rest)
      | _ => none
  | _ => none

/-- What a placeholder is replaced by. -/
def value (event : Parity.Android.LiveEvent) (p : Placeholder) : List UInt16 :=
  let name := p.name.map lower
  if name = utf16 "user" then utf16 ("@" ++ event.user)
  else if name = utf16 "name" then
    utf16 (if event.nickname = "" then if event.user = "" then "-" else event.user
      else event.nickname)
  else if name = utf16 "text" then event.text
  else if name = utf16 "type" then utf16 (categoryName event.category).toLower
  else if name = utf16 "count" then utf16 (toString event.count)
  else if name = utf16 "diamonds" then utf16 (toString event.diamonds)
  else p.text

/-- The first argument counts what is left of a match already replaced. -/
def renderFrom (event : Parity.Android.LiveEvent) : Nat → List UInt16 → List UInt16
  | _, [] => []
  | skip + 1, _ :: template => renderFrom event skip template
  | 0, u :: template =>
      match placeholderAt space (u :: template) with
      | some (p, _) => value event p ++ renderFrom event (p.text.length - 1) template
      | none => u :: renderFrom event 0 template

def render (template : List UInt16) (event : Parity.Android.LiveEvent) : List UInt16 :=
  renderFrom space event 0 template

/-! ## What a match is -/

variable {space}

/-- Neither a letter nor a brace is white space. -/
theorem not_mem {u : UInt16} (h : isWhitespaceUnit u = false) : space.mem u = false := by
  by_contra hmem
  rw [space.isWhitespace u (Bool.not_eq_false _ ▸ hmem)] at h
  cases h

theorem not_mem_letter {u : UInt16} (h : isLetter u = true) : space.mem u = false := by
  refine not_mem ?_
  simp only [isLetter, Bool.or_eq_true, Bool.and_eq_true, decide_eq_true_eq] at h
  simp only [isWhitespaceUnit, Bool.or_eq_false_iff, decide_eq_false_iff_not,
    Bool.and_eq_false_iff]
  omega

theorem isLetter_mem {u : UInt16} (h : space.mem u = true) : isLetter u = false := by
  by_contra hletter
  rw [not_mem_letter (Bool.not_eq_false _ ▸ hletter)] at h
  cases h

/-- The match at the start of a text is the only one there. -/
theorem placeholderAt_text {p : Placeholder} (hp : p.Valid space) (rest : List UInt16) :
    placeholderAt space (p.text ++ rest) = some (p, rest) := by
  obtain ⟨u, name, hname⟩ := List.exists_cons_of_ne_nil hp.name_ne
  have hu : space.mem u = false := not_mem_letter (hp.name u (hname ▸ List.mem_cons_self))
  have hnameSpace : ∀ tail, (p.name ++ tail).takeWhile space.mem = []
      ∧ (p.name ++ tail).dropWhile space.mem = p.name ++ tail := by
    intro tail
    rw [hname, List.cons_append]
    exact ⟨List.takeWhile_cons_of_neg (by simp [hu]), List.dropWhile_cons_of_neg (by simp [hu])⟩
  -- behind the letters stand a space or a brace
  have hafterLetter : (p.after ++ (closeBraces ++ rest)).takeWhile isLetter = []
      ∧ (p.after ++ (closeBraces ++ rest)).dropWhile isLetter
        = p.after ++ (closeBraces ++ rest) := by
    cases hafter : p.after with
    | nil => exact ⟨rfl, rfl⟩
    | cons v after =>
      have hv := isLetter_mem (hp.after v (hafter ▸ List.mem_cons_self))
      exact ⟨List.takeWhile_cons_of_neg (by simp [hv]), List.dropWhile_cons_of_neg (by simp [hv])⟩
  have hclose : (closeBraces ++ rest).takeWhile space.mem = []
      ∧ (closeBraces ++ rest).dropWhile space.mem = closeBraces ++ rest := by
    have hbrace : space.mem 125 = false := not_mem rfl
    exact ⟨List.takeWhile_cons_of_neg (by simp [hbrace]),
      List.dropWhile_cons_of_neg (by simp [hbrace])⟩
  have htext : p.text ++ rest
      = 123 :: 123 :: (p.before ++ (p.name ++ (p.after ++ (closeBraces ++ rest)))) := by
    simp [Placeholder.text, openBraces]
  rw [htext, placeholderAt]
  simp only [List.takeWhile_append_of_pos hp.before, List.dropWhile_append_of_pos hp.before,
    (hnameSpace _).1, (hnameSpace _).2, List.append_nil, List.takeWhile_append_of_pos hp.name,
    List.dropWhile_append_of_pos hp.name, hafterLetter.1, hafterLetter.2,
    List.takeWhile_append_of_pos hp.after, List.dropWhile_append_of_pos hp.after, hclose.1,
    hclose.2]
  simp [closeBraces, hp.name_ne]

theorem of_placeholderAt {text rest : List UInt16} {p : Placeholder}
    (h : placeholderAt space text = some (p, rest)) : p.Valid space ∧ text = p.text ++ rest := by
  unfold placeholderAt at h
  split at h
  · rename_i text'
    dsimp only at h
    split at h
    · rename_i rest' hclose
      split_ifs at h with hname
      cases h
      refine ⟨⟨fun u => List.mem_takeWhile_imp, fun u => List.mem_takeWhile_imp, hname,
        fun u => List.mem_takeWhile_imp⟩, ?_⟩
      simp only [Placeholder.text, openBraces, closeBraces, List.append_assoc, List.cons_append,
        List.nil_append]
      rw [← hclose, List.takeWhile_append_dropWhile, List.takeWhile_append_dropWhile,
        List.takeWhile_append_dropWhile]
    · cases h
  · cases h

/-! ## What is replaced -/

theorem renderFrom_eq (event : Parity.Android.LiveEvent) (skip : Nat) (template : List UInt16) :
    renderFrom space event skip template = render space (template.drop skip) event := by
  induction template generalizing skip with
  | nil =>
    rw [List.drop_nil, render]
    cases skip <;> rfl
  | cons u template ih =>
    cases skip with
    | zero => rfl
    | succ skip => exact ih skip

theorem render_text {p : Placeholder} (hp : p.Valid space) (rest : List UInt16)
    (event : Parity.Android.LiveEvent) :
    render space (p.text ++ rest) event = value event p ++ render space rest event := by
  have hat := placeholderAt_text hp rest
  have htext : p.text = 123 :: p.text.tail := rfl
  rw [htext, List.cons_append] at hat ⊢
  rw [render, renderFrom, hat]
  dsimp only
  have hdrop : (p.text.tail ++ rest).drop (p.text.length - 1) = rest := by
    rw [← List.length_tail, List.drop_left]
  rw [renderFrom_eq, hdrop]

theorem render_cons {u : UInt16} {template : List UInt16}
    (h : placeholderAt space (u :: template) = none) (event : Parity.Android.LiveEvent) :
    render space (u :: template) event = u :: render space template event := by
  rw [render, renderFrom, h]
  rfl

/-- A template taken apart: a text, and then placeholders with the texts
behind them. -/
structure Parts where
  head : List UInt16
  tail : List (Placeholder × List UInt16)

namespace Parts

def text (parts : Parts) : List UInt16 :=
  parts.head ++ parts.tail.flatMap fun (p, literal) => p.text ++ literal

def filled (event : Parity.Android.LiveEvent) (parts : Parts) : List UInt16 :=
  parts.head ++ parts.tail.flatMap fun (p, literal) => value event p ++ literal

def literals (parts : Parts) : List (List UInt16) := parts.head :: parts.tail.map Prod.snd

/-- No placeholder is left in a text of its own. -/
structure Complete (space : RegexSpace) (parts : Parts) : Prop where
  valid : ∀ part ∈ parts.tail, part.1.Valid space
  plain : ∀ literal ∈ parts.literals, ∀ p : Placeholder, p.Valid space → ¬p.text <:+: literal

end Parts

variable (space) in
/-- Every template is filled in along its placeholders, from the left. What
is filled in is not looked at again. -/
theorem render_parts (template : List UInt16) :
    ∃ parts : Parts, parts.Complete space ∧ parts.text = template
      ∧ ∀ event, render space template event = parts.filled event := by
  match template with
  | [] =>
    refine ⟨⟨[], []⟩, ⟨by simp, ?_⟩, rfl, fun _ => rfl⟩
    intro literal hliteral p hp hinside
    rw [List.mem_singleton.mp hliteral] at hinside
    have hnil := List.eq_nil_of_infix_nil hinside
    cases hnil
  | u :: template =>
    cases hat : placeholderAt space (u :: template) with
    | none =>
      obtain ⟨parts, hcomplete, htext, hfilled⟩ := render_parts template
      refine ⟨⟨u :: parts.head, parts.tail⟩, ⟨hcomplete.valid, ?_⟩, ?_, fun event => ?_⟩
      · intro literal hliteral p hp hinside
        rcases List.mem_cons.mp hliteral with rfl | hliteral
        · rcases List.infix_cons_iff.mp hinside with hstart | hinside
          · -- it would have been found here
            obtain ⟨rest, hrest⟩ := hstart
            have hfound : placeholderAt space (u :: template)
                = some (p, rest ++ parts.tail.flatMap fun (p, literal) => p.text ++ literal) := by
              rw [← htext, Parts.text, ← List.cons_append, ← hrest, List.append_assoc]
              exact placeholderAt_text hp _
            rw [hat] at hfound
            cases hfound
          · exact hcomplete.plain _ List.mem_cons_self p hp hinside
        · exact hcomplete.plain literal (List.mem_cons_of_mem _ hliteral) p hp hinside
      · rw [← htext]
        rfl
      · rw [render_cons hat, hfilled]
        rfl
    | some found =>
      obtain ⟨p, rest⟩ := found
      obtain ⟨hp, htemplate⟩ := of_placeholderAt hat
      have hlt : rest.length < (u :: template).length := by
        rw [htemplate, List.length_append]
        exact Nat.lt_add_of_pos_left (Nat.succ_pos _)
      obtain ⟨parts, hcomplete, htext, hfilled⟩ := render_parts rest
      refine ⟨⟨[], (p, parts.head) :: parts.tail⟩, ⟨?_, ?_⟩, ?_, fun event => ?_⟩
      · exact List.forall_mem_cons.mpr ⟨hp, hcomplete.valid⟩
      · intro literal hliteral p' hp' hinside
        rcases List.mem_cons.mp hliteral with rfl | hliteral
        · have hnil := List.eq_nil_of_infix_nil hinside
          cases hnil
        · exact hcomplete.plain literal hliteral p' hp' hinside
      · rw [htemplate, ← htext]
        simp [Parts.text]
      · rw [htemplate, render_text hp, hfilled]
        simp [Parts.filled]
termination_by template.length
decreasing_by
  · exact Nat.lt_succ_self _
  · exact hlt

end Template

end TiktokSigner.Android.EventActions
