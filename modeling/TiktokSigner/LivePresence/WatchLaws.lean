import TiktokSigner.LivePresence.Monitor
import TiktokSigner.Lib.Crowd
import Mathlib.Data.List.Nodup

/-!
# Which watches are handed out alive

`Registry` holds in every state: a watch that is not stopped is registered
under its id, and a registered one that is stopped is between the two steps
of its `Watch.close`. So `computeIfAbsent` hands out a stopped watch exactly
when it runs in that window, and nothing but a `close` of the monitor that
is under way ends the probing of a watch that is not stopped.
-/

namespace TiktokSigner.LivePresence.Monitor

open Crowd Lts

/-- What ties the registry to the watches. -/
structure Registry (s : Monitor) : Prop where
  keys : (s.watches.map Prod.fst).Nodup
  named : ∀ {id w}, (id, w) ∈ s.watches → ∃ watch, s.made[w]? = some watch ∧ watch.id = id ∧
    (watch.stopped = true → w ∈ s.removing ∨ s.lock.removes w)
  registered : ∀ {w watch}, s.made[w]? = some watch → watch.stopped = false →
    (watch.id, w) ∈ s.watches
  handed : ∀ {w watch}, s.made[w]? = some watch → watch.stopped = false → w ∈ s.handed
  left : ∀ {w watch todo}, s.made[w]? = some watch → watch.stopped = false →
    s.lock.left = some todo → w ∈ todo
  marked : ∀ {w}, w ∈ s.removing ∨ s.lock.removes w →
    ∃ watch, s.made[w]? = some watch ∧ watch.stopped = true
  watching : ∀ id, s.lock = .watching id → s.closed = false

variable {s t : Monitor} {w : Nat} {watch : Watch}

/-! ## The parts of a step -/

theorem getElem?_setWatch (hmade : s.made[w]? = some watch) (watch' : Watch) (v : Nat) :
    (s.setWatch w watch').made[v]? = if w = v then some watch' else s.made[v]? := by
  obtain ⟨hlt, -⟩ := List.getElem?_eq_some_iff.mp hmade
  rw [setWatch, List.getElem?_set, if_pos hlt]

theorem schedule_stopped (s : Monitor) (watch : Watch) :
    (s.schedule watch).stopped = watch.stopped := by
  rw [schedule]
  split_ifs <;> rfl

theorem schedule_id (s : Monitor) (watch : Watch) : (s.schedule watch).id = watch.id := by
  rw [schedule]
  split_ifs <;> rfl

theorem lookup_stopped (s : Monitor) (watch : Watch) :
    (s.lookup watch).stopped = watch.stopped := by
  rw [lookup]
  split_ifs <;> rfl

theorem lookup_id (s : Monitor) (watch : Watch) : (s.lookup watch).id = watch.id := by
  rw [lookup]
  split_ifs <;> rfl

theorem closed_of_reserve {uniqueId id : List Char} (h : s.reserve uniqueId = .ok id) :
    s.closed = false := by
  by_cases hclosed : s.closed = true
  · rw [reserve, if_pos hclosed] at h
    cases h
  · exact Bool.eq_false_iff.mpr hclosed

/-- The first step of `Watch.close`: nothing but the hand-out list changes
for a stopped watch. -/
theorem stopWatch_cases {first : Bool} (hs : s.stopWatch w = some (first, t)) :
    ∃ watch, s.made[w]? = some watch ∧
      (first = false ∧ watch.stopped = true ∧ t = { s with handed := s.handed.filter (· ≠ w) } ∨
        first = true ∧ watch.stopped = false ∧
          t = { s with handed := s.handed.filter (· ≠ w) }.setWatch w
            { watch with stopped := true, probing := .idle }) := by
  obtain ⟨watch, hmade, hs⟩ := Option.map_eq_some_iff.mp hs
  refine ⟨watch, hmade, ?_⟩
  by_cases hstopped : watch.stopped = true
  · rw [if_pos hstopped] at hs
    cases hs
    exact Or.inl ⟨rfl, hstopped, rfl⟩
  · rw [if_neg hstopped] at hs
    cases hs
    exact Or.inr ⟨rfl, Bool.eq_false_iff.mpr hstopped, rfl⟩

namespace Registry

/-- The lock changes hands, and a `close` of the monitor may begin. -/
theorem relock (h : Registry s) {lock : Lock} {closed : Bool}
    (hremoves : ∀ w, lock.removes w ↔ s.lock.removes w)
    (hleft : ∀ todo, lock.left = some todo → ∀ w watch, s.made[w]? = some watch →
      watch.stopped = false → w ∈ todo)
    (hwatching : ∀ id, lock = .watching id → closed = false) :
    Registry { s with lock, closed } where
  keys := h.keys
  named := fun hmem => by
    obtain ⟨watch, hmade, hid, hmid⟩ := h.named hmem
    exact ⟨watch, hmade, hid, fun hstopped => (hmid hstopped).imp_right (hremoves _).mpr⟩
  registered := h.registered
  handed := h.handed
  left := fun hmade hstopped hl => hleft _ hl _ _ hmade hstopped
  marked := fun hmid => h.marked (hmid.imp_right (hremoves _).mp)
  watching := hwatching

/-- A watch that is stopped already leaves the hand-out list. -/
theorem dropHanded (h : Registry s) (hmade : s.made[w]? = some watch)
    (hstopped : watch.stopped = true) :
    Registry { s with handed := s.handed.filter (· ≠ w) } where
  keys := h.keys
  named := h.named
  registered := h.registered
  handed := fun {v} _ hv hrunning => by
    refine List.mem_filter.mpr ⟨h.handed hv hrunning, decide_eq_true ?_⟩
    rintro rfl
    rw [hmade] at hv
    cases hv
    rw [hstopped] at hrunning
    cases hrunning
  left := h.left
  marked := h.marked
  watching := h.watching

/-- The first step of `Watch.close` on a watch that is not stopped, in a
state where the second step is known to follow. -/
theorem stop (h : Registry s) (hmade : s.made[w]? = some watch) {removing : List Nat} {lock : Lock}
    (hmid : ∀ v, v ∈ removing ∨ lock.removes v ↔ v = w ∨ v ∈ s.removing ∨ s.lock.removes v)
    (hleft : ∀ todo, lock.left = some todo → ∀ v ≠ w, ∀ watch, s.made[v]? = some watch →
      watch.stopped = false → v ∈ todo)
    (hwatching : ∀ id, lock = .watching id → s.closed = false) :
    Registry { { s with handed := s.handed.filter (· ≠ w) }.setWatch w
      { watch with stopped := true, probing := .idle } with removing, lock } := by
  have hget := getElem?_setWatch (s := { s with handed := s.handed.filter (· ≠ w) }) hmade
    { watch with stopped := true, probing := .idle }
  -- a watch that is not stopped is another one
  have hother : ∀ {v x}, ({ s with handed := s.handed.filter (· ≠ w) }.setWatch w
      { watch with stopped := true, probing := .idle }).made[v]? = some x → x.stopped = false →
      v ≠ w ∧ s.made[v]? = some x := by
    intro v x hv hrunning
    rw [hget] at hv
    by_cases heq : w = v
    · rw [if_pos heq] at hv
      cases hv
      cases hrunning
    · rw [if_neg heq] at hv
      exact ⟨Ne.symm heq, hv⟩
  constructor
  · exact h.keys
  · intro id v hmem
    obtain ⟨x, hx, hid, hx'⟩ := h.named hmem
    by_cases heq : w = v
    · subst heq
      rw [hmade] at hx
      cases hx
      exact ⟨_, (hget w).trans (if_pos rfl), hid, fun _ => (hmid w).mpr (Or.inl rfl)⟩
    · exact ⟨x, ((hget v).trans (if_neg heq)).trans hx, hid, fun hstopped =>
        (hmid v).mpr (Or.inr (hx' hstopped))⟩
  · intro v x hv hrunning
    exact h.registered (hother hv hrunning).2 hrunning
  · intro v x hv hrunning
    obtain ⟨hne, hx⟩ := hother hv hrunning
    exact List.mem_filter.mpr ⟨h.handed hx hrunning, decide_eq_true hne⟩
  · intro v x todo hv hrunning hl
    obtain ⟨hne, hx⟩ := hother hv hrunning
    exact hleft todo hl v hne x hx hrunning
  · intro v hv
    by_cases heq : w = v
    · exact ⟨_, (hget v).trans (if_pos heq), rfl⟩
    · obtain ⟨x, hx, hstopped⟩ := h.marked (((hmid v).mp hv).resolve_left (Ne.symm heq))
      exact ⟨x, ((hget v).trans (if_neg heq)).trans hx, hstopped⟩
  · exact hwatching

/-- The second step of `Watch.close`. -/
theorem unregister (h : Registry s) (hmade : s.made[w]? = some watch)
    (hstopped : watch.stopped = true) {removing : List Nat} {lock : Lock}
    (hmid : ∀ v ≠ w, v ∈ s.removing ∨ s.lock.removes v → v ∈ removing ∨ lock.removes v)
    (hback : ∀ v, v ∈ removing ∨ lock.removes v → v ∈ s.removing ∨ s.lock.removes v)
    (hleft : lock.left = s.lock.left)
    (hwatching : ∀ id, lock = .watching id → s.closed = false) :
    Registry { s.unregister w with removing, lock } := by
  have hmem : ∀ {id v}, (id, v) ∈ (s.unregister w).watches ↔
      (id, v) ∈ s.watches ∧ ¬(watch.id = id ∧ v = w) := by
    intro id v
    simp only [Monitor.unregister, hmade, Option.map_some, Option.some.injEq, List.mem_filter,
      decide_not, Bool.not_eq_true', decide_eq_false_iff_not]
  constructor
  · exact h.keys.sublist (List.filter_sublist.map Prod.fst)
  · intro id v hv
    obtain ⟨hv, hne⟩ := hmem.mp hv
    obtain ⟨x, hx, hid, hx'⟩ := h.named hv
    refine ⟨x, hx, hid, fun hstop => ?_⟩
    have hvw : v ≠ w := by
      rintro rfl
      rw [hmade] at hx
      cases hx
      exact hne ⟨hid, rfl⟩
    exact hmid v hvw (hx' hstop)
  · intro v x hx hrunning
    refine hmem.mpr ⟨h.registered hx hrunning, ?_⟩
    rintro ⟨-, rfl⟩
    rw [show s.made[v]? = some x from hx] at hmade
    cases hmade
    rw [hstopped] at hrunning
    cases hrunning
  · exact h.handed
  · intro v x todo hx hrunning hl
    exact h.left hx hrunning (hleft ▸ hl)
  · intro v hv
    exact h.marked (hback v hv)
  · exact hwatching

/-- A watch's timer or probe moves on. -/
theorem setProbing (h : Registry s) (hmade : s.made[w]? = some watch) {watch' : Watch}
    (hid : watch'.id = watch.id) (hstopped : watch'.stopped = watch.stopped) :
    Registry (s.setWatch w watch') := by
  have hget := getElem?_setWatch hmade watch'
  have hback : ∀ {v : Nat} {x : Watch}, (s.setWatch w watch').made[v]? = some x →
      ∃ y, s.made[v]? = some y ∧ x.id = y.id ∧ x.stopped = y.stopped := by
    intro v x hv
    rw [hget] at hv
    by_cases heq : w = v
    · rw [if_pos heq] at hv
      cases hv
      exact ⟨watch, heq ▸ hmade, hid, hstopped⟩
    · rw [if_neg heq] at hv
      exact ⟨x, hv, rfl, rfl⟩
  have hthere : ∀ {v : Nat} {y : Watch}, s.made[v]? = some y →
      ∃ x, (s.setWatch w watch').made[v]? = some x ∧ x.id = y.id ∧ x.stopped = y.stopped := by
    intro v y hv
    by_cases heq : w = v
    · subst heq
      rw [hmade] at hv
      cases hv
      exact ⟨watch', (hget w).trans (if_pos rfl), hid, hstopped⟩
    · exact ⟨y, ((hget v).trans (if_neg heq)).trans hv, rfl, rfl⟩
  constructor
  · exact h.keys
  · intro id v hv
    obtain ⟨y, hy, hyid, hmid⟩ := h.named hv
    obtain ⟨x, hx, hxid, hxs⟩ := hthere hy
    exact ⟨x, hx, hxid.trans hyid, fun hstop => hmid (hxs ▸ hstop)⟩
  · intro v x hx hrunning
    obtain ⟨y, hy, hxid, hxs⟩ := hback hx
    rw [hxid]
    exact h.registered hy (hxs ▸ hrunning)
  · intro v x hx hrunning
    obtain ⟨y, hy, -, hxs⟩ := hback hx
    exact h.handed hy (hxs ▸ hrunning)
  · intro v x todo hx hrunning hl
    obtain ⟨y, hy, -, hxs⟩ := hback hx
    exact h.left hy (hxs ▸ hrunning) hl
  · intro v hv
    obtain ⟨y, hy, hstop⟩ := h.marked hv
    obtain ⟨x, hx, -, hxs⟩ := hthere hy
    exact ⟨x, hx, hxs.trans hstop⟩
  · exact h.watching

/-- A registered watch is handed out. -/
theorem hand (h : Registry s) (w : Nat) : Registry { s with handed := s.handed ++ [w] } where
  keys := h.keys
  named := h.named
  registered := h.registered
  handed := fun hmade hrunning => List.mem_append_left _ (h.handed hmade hrunning)
  left := h.left
  marked := h.marked
  watching := h.watching

/-- A watch is made, registered under an id that is not taken, and handed
out. -/
theorem add (h : Registry s) {id : List Char} (hid : s.watches.lookup id = none)
    (hleft : s.lock.left = none) (hwatch : watch.id = id)
    (hrunning : watch.stopped = false) :
    Registry { s with
      made := s.made ++ [watch]
      watches := s.watches ++ [(id, s.made.length)]
      handed := s.handed ++ [s.made.length] } := by
  constructor
  · rw [List.map_append, List.map_singleton, List.nodup_append]
    refine ⟨h.keys, List.nodup_singleton id, ?_⟩
    rintro k hk _ hk' rfl
    obtain ⟨entry, hentry, rfl⟩ := List.mem_map.mp hk
    have hne := List.lookup_eq_none_iff.mp hid entry hentry
    rw [List.mem_singleton.mp hk'] at hne
    simp at hne
  · intro id' v hv
    rcases List.mem_append.mp hv with hv | hv
    · obtain ⟨x, hx, hxid, hmid⟩ := h.named hv
      exact ⟨x, getElem?_concat_of_some hx watch, hxid, hmid⟩
    · cases List.mem_singleton.mp hv
      refine ⟨watch, List.getElem?_concat_length, hwatch, fun hstop => ?_⟩
      rw [hrunning] at hstop
      cases hstop
  · intro v x hv hrunning
    rcases getElem?_concat_cases hv with hv | ⟨rfl, rfl⟩
    · exact List.mem_append_left _ (h.registered hv hrunning)
    · rw [hwatch]
      exact List.mem_append_right _ List.mem_cons_self
  · intro v x hv hrunning
    rcases getElem?_concat_cases hv with hv | ⟨rfl, rfl⟩
    · exact List.mem_append_left _ (h.handed hv hrunning)
    · exact List.mem_append_right _ List.mem_cons_self
  · intro v x todo _ _ hl
    rw [show s.lock.left = some todo from hl] at hleft
    cases hleft
  · intro v hv
    obtain ⟨x, hx, hstop⟩ := h.marked hv
    exact ⟨x, getElem?_concat_of_some hx watch, hstop⟩
  · exact h.watching

theorem step {a : Action} (h : Registry s) (hs : s.step a = some t) : Registry t := by
  cases a with
  | watch uniqueId =>
    obtain ⟨hfree, hs⟩ := Option.ite_none_right_eq_some.mp hs
    split at hs
    case h_1 id hreserve =>
      cases hs
      refine h.relock (fun v => by rw [hfree]; rfl) (fun _ hl => by cases hl) fun _ _ => ?_
      exact closed_of_reserve hreserve
    case h_2 => cases hs; exact h
  | computeIfAbsent =>
    rw [Monitor.step] at hs
    split at hs
    case h_1 id hlock =>
      have hleft : s.lock.left = none := by rw [hlock]; rfl
      have hfree : ∀ v, Lock.free.removes v ↔ s.lock.removes v := fun v => by rw [hlock]; rfl
      split at hs
      case h_1 w _ =>
        cases hs
        exact (h.hand w).relock hfree (fun _ hl => by cases hl) fun _ hl => by cases hl
      case h_2 hnone =>
        cases hs
        refine (h.add hnone hleft (schedule_id s { id }) (schedule_stopped s { id })).relock hfree
          (fun _ hl => by cases hl) fun _ hl => by cases hl
    case h_2 => cases hs
  | stop w =>
    rw [Monitor.step] at hs
    split at hs
    case h_1 u hstop =>
      cases hs
      rcases stopWatch_cases hstop with ⟨watch, hmade, ⟨hfirst, -⟩ | ⟨-, -, rfl⟩⟩
      · cases hfirst
      · refine h.stop hmade (fun v => ?_) ?_ h.watching
        · rw [List.mem_cons, or_assoc]
          rfl
        · intro todo hl v _ x hx hrunning
          exact h.left hx hrunning hl
    case h_2 u hstop =>
      cases hs
      rcases stopWatch_cases hstop with ⟨watch, hmade, ⟨-, hstopped, rfl⟩ | ⟨hfirst, -⟩⟩
      · exact h.dropHanded hmade hstopped
      · cases hfirst
    case h_3 => cases hs
  | remove w =>
    obtain ⟨hmem, hs⟩ := Option.ite_none_right_eq_some.mp hs
    cases hs
    obtain ⟨watch, hmade, hstopped⟩ := h.marked (Or.inl hmem)
    refine h.unregister hmade hstopped (fun v hne => Or.imp_left fun hv => ?_)
      (fun v => Or.imp_left List.mem_of_mem_erase) rfl h.watching
    exact (List.mem_erase_of_ne hne).mpr hv
  | close =>
    obtain ⟨hfree, hs⟩ := Option.ite_none_right_eq_some.mp hs
    split at hs
    case isTrue => cases hs; exact h
    case isFalse =>
      cases hs
      exact h.relock (fun v => by rw [hfree]; rfl) (fun _ hl => by cases hl) fun _ hl => by cases hl
  | copy =>
    obtain ⟨hcopying, hs⟩ := Option.ite_none_right_eq_some.mp hs
    cases hs
    refine h.relock (fun v => by rw [hcopying]; rfl) ?_ fun _ hl => by cases hl
    intro todo hl v x hx hrunning
    cases hl
    exact List.mem_map.mpr ⟨_, h.registered hx hrunning, rfl⟩
  | closeNext =>
    rw [Monitor.step] at hs
    split at hs
    case h_1 w todo hlock =>
      -- the next watch of the copy is not among those left any more
      have hleft : ∀ v ≠ w, ∀ x, s.made[v]? = some x → x.stopped = false → v ∈ todo := by
        intro v hne x hx hrunning
        have hmem := h.left hx hrunning (show s.lock.left = some (w :: todo) by rw [hlock]; rfl)
        exact (List.mem_cons.mp hmem).resolve_left hne
      split at hs
      case h_1 u hstop =>
        cases hs
        rcases stopWatch_cases hstop with ⟨watch, hmade, ⟨hfirst, -⟩ | ⟨-, -, rfl⟩⟩
        · cases hfirst
        · refine h.stop hmade (fun v => ?_) ?_ fun _ hl => by cases hl
          · rw [hlock]
            change v ∈ s.removing ∨ w = v ↔ v = w ∨ v ∈ s.removing ∨ False
            rw [or_false, or_comm, eq_comm]
          · intro todo' hl
            cases hl
            exact hleft
      case h_2 u hstop =>
        cases hs
        rcases stopWatch_cases hstop with ⟨watch, hmade, ⟨-, hstopped, rfl⟩ | ⟨hfirst, -⟩⟩
        · refine (h.dropHanded hmade hstopped).relock (fun v => by rw [hlock]; rfl) ?_
            fun _ hl => by cases hl
          intro todo' hl v x hx hrunning
          cases hl
          refine hleft v ?_ x hx hrunning
          rintro rfl
          rw [show s.made[v]? = some x from hx] at hmade
          cases hmade
          rw [hstopped] at hrunning
          cases hrunning
        · cases hfirst
      case h_3 => cases hs
    case h_2 => cases hs
  | closeRemove =>
    rw [Monitor.step] at hs
    split at hs
    case h_1 w todo hlock =>
      cases hs
      obtain ⟨watch, hmade, hstopped⟩ := h.marked (w := w) (Or.inr (by rw [hlock]; rfl))
      refine h.unregister hmade hstopped (fun v hne => ?_) (fun v => Or.imp_right False.elim)
        (by rw [hlock]; rfl) fun _ hl => by cases hl
      rw [hlock]
      exact Or.imp_right fun heq => hne (Eq.symm heq)
    case h_2 => cases hs
  | clear =>
    obtain ⟨hclosing, hs⟩ := Option.ite_none_right_eq_some.mp hs
    cases hs
    -- nothing is left, so no watch runs
    have hnone : ∀ {v : Nat} {x : Watch}, s.made[v]? = some x → x.stopped = false → False := by
      intro v x hx hrunning
      exact List.not_mem_nil (h.left hx hrunning (show s.lock.left = some [] by rw [hclosing]; rfl))
    exact {
      keys := List.nodup_nil
      named := fun hmem => absurd hmem List.not_mem_nil
      registered := fun hx hrunning => (hnone hx hrunning).elim
      handed := h.handed
      left := fun _ _ hl => by cases hl
      marked := fun hmid => h.marked (hmid.imp_right False.elim)
      watching := fun _ hl => by cases hl }
  | poll w =>
    rw [Monitor.step] at hs
    split at hs
    case h_1 watch hmade =>
      obtain ⟨-, hs⟩ := Option.ite_none_right_eq_some.mp hs
      cases hs
      exact h.setProbing hmade (lookup_id s watch) (lookup_stopped s watch)
    case h_2 => cases hs
  | complete w =>
    rw [Monitor.step] at hs
    split at hs
    case h_1 watch hmade =>
      obtain ⟨-, hs⟩ := Option.ite_none_right_eq_some.mp hs
      cases hs
      exact h.setProbing hmade (schedule_id s watch) (schedule_stopped s watch)
    case h_2 => cases hs

theorem start (maxWatches : Nat) : Registry (start maxWatches) where
  keys := List.nodup_nil
  named := fun hmem => absurd hmem List.not_mem_nil
  registered := fun hmade => by cases hmade
  handed := fun hmade => by cases hmade
  left := fun hmade => by cases hmade
  marked := fun hmid => by rcases hmid with hmem | hr <;> [cases hmem; cases hr]
  watching := fun _ _ => rfl

/-- Under `watch`, a registered watch is stopped exactly when a
`Watch.close` on it is between its two steps. -/
theorem not_mem_removing_iff (h : Registry s) {id : List Char} (hlock : s.lock = .watching id)
    (hfound : s.watches.lookup id = some w) :
    w ∉ s.removing ↔ ∃ watch, s.made[w]? = some watch ∧ watch.stopped = false := by
  have hmem : (id, w) ∈ s.watches := by
    obtain ⟨l₁, l₂, heq, -⟩ := List.lookup_eq_some_iff.mp hfound
    rw [heq]
    exact List.mem_append_right _ List.mem_cons_self
  obtain ⟨watch, hmade, -, hmid⟩ := h.named hmem
  rw [hlock] at hmid
  constructor
  · intro hnot
    refine ⟨watch, hmade, Bool.eq_false_iff.mpr fun hstopped => ?_⟩
    exact (hmid hstopped).elim hnot False.elim
  · rintro ⟨x, hx, hrunning⟩ hremoving
    obtain ⟨y, hy, hstopped⟩ := h.marked (Or.inl hremoving)
    rw [hx] at hy
    cases hy
    rw [hrunning] at hstopped
    cases hstopped

end Registry

/-! ## What a step does to the watches handed out -/

/-- A property of the watches handed out and not closed since. -/
def HandedOut (p : Watch → Prop) (s : Monitor) : Prop :=
  ∀ w ∈ s.handed, ∃ watch, s.made[w]? = some watch ∧ p watch

/-- What a step does to the hand-out list and to the watches. -/
inductive Moves (s : Monitor) : Action → Monitor → Prop
  | quiet {a : Action} {t : Monitor} (hhanded : t.handed = s.handed) (hmade : t.made = s.made)
      (hclose : s.NotMidClose a) (hcut : s.NotCutShort a) : Moves s a t
  | stop {a : Action} {t : Monitor} (w : Nat) (hhanded : t.handed = s.handed.filter (· ≠ w))
      (hmade : ∀ v ≠ w, t.made[v]? = s.made[v]?)
      (hclose : s.NotMidClose a) (hcut : s.NotCutShort a) : Moves s a t
  | hand {t : Monitor} (id : List Char) (w : Nat) (hlock : s.lock = .watching id)
      (hfound : s.watches.lookup id = some w) (hhanded : t.handed = s.handed ++ [w])
      (hmade : t.made = s.made) : Moves s .computeIfAbsent t
  | add {t : Monitor} (id : List Char) (hlock : s.lock = .watching id)
      (hnone : s.watches.lookup id = none)
      (hhanded : t.handed = s.handed ++ [s.made.length])
      (hmade : t.made = s.made ++ [s.schedule { id }]) : Moves s .computeIfAbsent t
  | poll (w : Nat) (watch : Watch) (hmade : s.made[w]? = some watch) :
      Moves s (.poll w) (s.setWatch w (s.lookup watch))
  | complete (w : Nat) (watch : Watch) (hmade : s.made[w]? = some watch) :
      Moves s (.complete w) (s.setWatch w (s.schedule watch))

/-- The first step of `Watch.close`, and what else its caller does. -/
theorem stopWatch_moves {first : Bool} {u : Monitor} {a : Action}
    (hs : s.stopWatch w = some (first, u))
    (hhanded : t.handed = u.handed) (hmade : t.made = u.made)
    (hclose : s.NotMidClose a) (hcut : s.NotCutShort a) : Moves s a t := by
  rcases stopWatch_cases hs with ⟨watch, hw, ⟨-, -, rfl⟩ | ⟨-, -, rfl⟩⟩
  · exact .stop w hhanded (fun v _ => by rw [hmade]) hclose hcut
  · refine .stop w hhanded (fun v hne => ?_) hclose hcut
    rw [hmade]
    exact (getElem?_setWatch hw _ v).trans (if_neg (Ne.symm hne))

theorem moves_of_step {a : Action} (hs : s.step a = some t) : Moves s a t := by
  cases a with
  | watch uniqueId =>
    obtain ⟨-, hs⟩ := Option.ite_none_right_eq_some.mp hs
    split at hs <;> cases hs <;> exact .quiet rfl rfl trivial trivial
  | computeIfAbsent =>
    rw [step] at hs
    split at hs
    case h_1 id hlock =>
      split at hs
      case h_1 w hfound => cases hs; exact .hand id w hlock hfound rfl rfl
      case h_2 hnone => cases hs; exact .add id hlock hnone rfl rfl
    case h_2 => cases hs
  | stop w =>
    rw [step] at hs
    split at hs
    case h_1 u hstop => cases hs; exact stopWatch_moves hstop rfl rfl trivial trivial
    case h_2 u hstop => cases hs; exact stopWatch_moves hstop rfl rfl trivial trivial
    case h_3 => cases hs
  | remove w =>
    obtain ⟨-, hs⟩ := Option.ite_none_right_eq_some.mp hs
    cases hs
    exact .quiet rfl rfl trivial trivial
  | close =>
    obtain ⟨-, hs⟩ := Option.ite_none_right_eq_some.mp hs
    split at hs <;> cases hs <;> exact .quiet rfl rfl trivial trivial
  | copy =>
    obtain ⟨-, hs⟩ := Option.ite_none_right_eq_some.mp hs
    cases hs
    exact .quiet rfl rfl trivial trivial
  | closeNext =>
    rw [step] at hs
    split at hs
    case h_1 w todo _ =>
      split at hs
      case h_1 u hstop => cases hs; exact stopWatch_moves hstop rfl rfl trivial trivial
      case h_2 u hstop => cases hs; exact stopWatch_moves hstop rfl rfl trivial trivial
      case h_3 => cases hs
    case h_2 => cases hs
  | closeRemove =>
    rw [step] at hs
    split at hs
    case h_1 => cases hs; exact .quiet rfl rfl trivial trivial
    case h_2 => cases hs
  | clear =>
    obtain ⟨-, hs⟩ := Option.ite_none_right_eq_some.mp hs
    cases hs
    exact .quiet rfl rfl trivial trivial
  | poll w =>
    rw [step] at hs
    split at hs
    case h_1 watch hmade =>
      obtain ⟨-, hs⟩ := Option.ite_none_right_eq_some.mp hs
      cases hs
      exact .poll w watch hmade
    case h_2 => cases hs
  | complete w =>
    rw [step] at hs
    split at hs
    case h_1 watch hmade =>
      obtain ⟨-, hs⟩ := Option.ite_none_right_eq_some.mp hs
      cases hs
      exact .complete w watch hmade
    case h_2 => cases hs

section HandedOut

variable {p : Watch → Prop}

theorem HandedOut.of_stop (h : s.HandedOut p) (hhanded : t.handed = s.handed.filter (· ≠ w))
    (hmade : ∀ v ≠ w, t.made[v]? = s.made[v]?) : t.HandedOut p := by
  intro v hv
  rw [hhanded] at hv
  obtain ⟨hmem, hne⟩ := List.mem_filter.mp hv
  rw [hmade v (of_decide_eq_true hne)]
  exact h v hmem

theorem handedOut_iff_of_hand (h : s.HandedOut p) (hhanded : t.handed = s.handed ++ [w])
    (hmade : t.made = s.made) :
    t.HandedOut p ↔ ∃ watch, s.made[w]? = some watch ∧ p watch := by
  rw [HandedOut, hhanded, hmade]
  constructor
  · intro ht
    exact ht w (List.mem_append_right _ List.mem_cons_self)
  · intro hw v hv
    rcases List.mem_append.mp hv with hv | hv
    · exact h v hv
    · cases List.mem_singleton.mp hv
      exact hw

theorem HandedOut.of_add (h : s.HandedOut p) (hp : p watch)
    (hhanded : t.handed = s.handed ++ [s.made.length]) (hmade : t.made = s.made ++ [watch]) :
    t.HandedOut p := by
  intro v hv
  rw [hhanded] at hv
  rw [hmade]
  rcases List.mem_append.mp hv with hv | hv
  · obtain ⟨x, hx, hpx⟩ := h v hv
    exact ⟨x, getElem?_concat_of_some hx watch, hpx⟩
  · cases List.mem_singleton.mp hv
    exact ⟨watch, List.getElem?_concat_length, hp⟩

theorem handedOut_setWatch_iff (h : s.HandedOut p) (hmade : s.made[w]? = some watch)
    (watch' : Watch) : (s.setWatch w watch').HandedOut p ↔ (w ∈ s.handed → p watch') := by
  have hget := getElem?_setWatch hmade watch'
  constructor
  · intro ht hmem
    obtain ⟨x, hx, hpx⟩ := ht w hmem
    rw [hget, if_pos rfl] at hx
    cases hx
    exact hpx
  · intro hw v hv
    rw [hget]
    by_cases heq : w = v
    · rw [if_pos heq]
      exact ⟨watch', rfl, hw (heq ▸ hv)⟩
    · rw [if_neg heq]
      exact h v hv

end HandedOut

theorem found_eq {id : List Char} (hlock : s.lock = .watching id) :
    s.found = s.watches.lookup id := by
  rw [found, hlock]

/-- What is asked of `computeIfAbsent` is asked of the one watch it finds. -/
theorem notMidClose_iff {id : List Char} (hlock : s.lock = .watching id)
    (hfound : s.watches.lookup id = some w) :
    s.NotMidClose .computeIfAbsent ↔ w ∉ s.removing := by
  rw [NotMidClose, found_eq hlock, hfound]
  exact ⟨fun h => h w rfl, fun h v hv => Option.some.inj hv ▸ h⟩

theorem notMidClose_of_none {id : List Char} (hlock : s.lock = .watching id)
    (hnone : s.watches.lookup id = none) : s.NotMidClose .computeIfAbsent := by
  rw [NotMidClose, found_eq hlock, hnone]
  exact fun v hv => by cases hv

theorem unstopped_iff_of_step {a : Action} (hR : s.Registry) (h : s.Unstopped)
    (hs : s.step a = some t) : t.Unstopped ↔ s.NotMidClose a := by
  cases moves_of_step hs with
  | quiet hhanded hmade hclose _ =>
    refine iff_of_true ?_ hclose
    rw [Unstopped, hhanded, hmade]
    exact h
  | stop w hhanded hmade hclose _ => exact iff_of_true (HandedOut.of_stop h hhanded hmade) hclose
  | hand id w hlock hfound hhanded hmade =>
    rw [notMidClose_iff hlock hfound, hR.not_mem_removing_iff hlock hfound]
    exact handedOut_iff_of_hand h hhanded hmade
  | add id hlock hnone hhanded hmade =>
    refine iff_of_true (HandedOut.of_add h ?_ hhanded hmade) (notMidClose_of_none hlock hnone)
    exact schedule_stopped s { id }
  | poll w watch hmade =>
    refine iff_of_true ((handedOut_setWatch_iff h hmade _).mpr fun hmem => ?_) trivial
    obtain ⟨x, hx, hrunning⟩ := h w hmem
    rw [hmade] at hx
    cases hx
    exact (lookup_stopped s watch).trans hrunning
  | complete w watch hmade =>
    refine iff_of_true ((handedOut_setWatch_iff h hmade _).mpr fun hmem => ?_) trivial
    obtain ⟨x, hx, hrunning⟩ := h w hmem
    rw [hmade] at hx
    cases hx
    exact (schedule_stopped s watch).trans hrunning

/-- A watch whose timer or probe comes in stays probed exactly when no
`close` of the monitor cuts it short. -/
theorem probed_setWatch_iff (hR : s.Registry) (h : s.Probed) (hmade : s.made[w]? = some watch)
    {watch' : Watch} (hstopped : watch'.stopped = watch.stopped)
    (hprobing : watch.stopped = false → (watch'.probing ≠ .idle ↔ s.closed = false)) :
    (s.setWatch w watch').Probed ↔
      (s.closed = true → ∀ x ∈ s.made[w]?, x.stopped = true) := by
  refine (handedOut_setWatch_iff h hmade watch').trans
    ⟨fun hw hclosed x hx => ?_, fun hcut hmem => ?_⟩
  · rw [hmade] at hx
    obtain rfl := Option.some.inj hx
    by_contra hne
    have hrunning := Bool.eq_false_iff.mpr hne
    have hopen := (hprobing hrunning).mp (hw (hR.handed hmade hrunning)).2
    rw [hclosed] at hopen
    cases hopen
  · obtain ⟨x, hx, hrunning, -⟩ := h w hmem
    rw [hmade] at hx
    cases hx
    refine ⟨hstopped.trans hrunning, (hprobing hrunning).mpr
      (Bool.eq_false_iff.mpr fun hclosed => ?_)⟩
    rw [hcut hclosed watch hmade] at hrunning
    cases hrunning

theorem schedule_probing (s : Monitor) (hrunning : watch.stopped = false) :
    (s.schedule watch).probing ≠ .idle ↔ s.closed = false := by
  rw [schedule, hrunning]
  cases s.closed <;> simp

theorem lookup_probing (s : Monitor) (hrunning : watch.stopped = false) :
    (s.lookup watch).probing ≠ .idle ↔ s.closed = false := by
  rw [lookup, hrunning]
  cases s.closed <;> simp

theorem probed_iff_of_step {a : Action} (hR : s.Registry) (h : s.Probed)
    (hs : s.step a = some t) : t.Probed ↔ s.NotMidClose a ∧ s.NotCutShort a := by
  cases moves_of_step hs with
  | quiet hhanded hmade hclose hcut =>
    refine iff_of_true ?_ ⟨hclose, hcut⟩
    rw [Probed, hhanded, hmade]
    exact h
  | stop w hhanded hmade hclose hcut =>
    exact iff_of_true (HandedOut.of_stop h hhanded hmade) ⟨hclose, hcut⟩
  | hand id w hlock hfound hhanded hmade =>
    rw [notMidClose_iff hlock hfound, hR.not_mem_removing_iff hlock hfound]
    refine (handedOut_iff_of_hand h hhanded hmade).trans ⟨?_, ?_⟩
    · rintro ⟨watch, hw, hrunning, -⟩
      exact ⟨⟨watch, hw, hrunning⟩, trivial⟩
    · rintro ⟨⟨watch, hw, hrunning⟩, -⟩
      -- it was handed out before, and has been probed since
      exact h w (hR.handed hw hrunning) |>.imp fun x hx => hx
  | add id hlock hnone hhanded hmade =>
    refine iff_of_true (HandedOut.of_add h ?_ hhanded hmade)
      ⟨notMidClose_of_none hlock hnone, trivial⟩
    exact ⟨schedule_stopped s { id }, (schedule_probing s rfl).mpr (hR.watching id hlock)⟩
  | poll w watch hmade =>
    rw [show s.NotMidClose (.poll w) ↔ True from Iff.rfl, true_and]
    exact probed_setWatch_iff hR h hmade (lookup_stopped s watch) (lookup_probing s)
  | complete w watch hmade =>
    rw [show s.NotMidClose (.complete w) ↔ True from Iff.rfl, true_and]
    exact probed_setWatch_iff hR h hmade (schedule_stopped s watch) (schedule_probing s)

/-! ## The law -/

/-- Two registered watches of one id that are not stopped are one watch. -/
theorem Registry.unique (h : Registry s) {w w' : Nat} {watch watch' : Watch}
    (hw : s.made[w]? = some watch) (hw' : s.made[w']? = some watch')
    (hrunning : watch.stopped = false)
    (hrunning' : watch'.stopped = false) (hid : watch.id = watch'.id) : w = w' := by
  have hmem := h.registered hw hrunning
  have hmem' := h.registered hw' hrunning'
  rw [← hid] at hmem'
  exact congrArg Prod.snd (List.inj_on_of_nodup_map h.keys hmem hmem' rfl)

/-- In every run: the watches handed out and not closed since are unstopped
throughout exactly when no `computeIfAbsent` runs inside a `Watch.close` of
the watch it finds, and probed throughout exactly when besides no `close`
of the monitor cuts a watch short; an id has at most one watch that is not
stopped, whatever happens. -/
theorem handed_out_alive_iff (maxWatches : Nat) (as : List Action) (s : Monitor)
    (hrun : run step (start maxWatches) as = some s) :
    (Always step Unstopped (start maxWatches) as ↔ AllMeet step NotMidClose (start maxWatches) as)
    ∧ (Always step Probed (start maxWatches) as ↔
      AllMeet step (fun s a => s.NotMidClose a ∧ s.NotCutShort a) (start maxWatches) as)
    ∧ ∀ (w w' : Nat) (watch watch' : Watch), s.made[w]? = some watch → s.made[w']? = some watch' →
      watch.stopped = false → watch'.stopped = false → watch.id = watch'.id → w = w' := by
  have hinv : ∀ s a t, Registry s → step s a = some t → Registry t := fun _ _ _ h hs => h.step hs
  refine ⟨?_, ?_, ?_⟩
  · exact always_iff_allMeet hinv (fun _ _ _ hR h hs => unstopped_iff_of_step hR h hs)
      (Registry.start maxWatches) (fun _ hmem => by cases hmem) hrun
  · exact always_iff_allMeet hinv (fun _ _ _ hR h hs => probed_iff_of_step hR h hs)
      (Registry.start maxWatches) (fun _ hmem => by cases hmem) hrun
  · have hR : Registry s := run_invariant_all hinv (Registry.start maxWatches) hrun
    intro w w' watch watch' hw hw' hrunning hrunning' hid
    exact hR.unique hw hw' hrunning hrunning' hid

/-- The second `watch` comes after both steps of the first watch's `close`. -/
theorem handed_out_alive_iff_of_rewatch :
    Always step Probed (start 1) [.watch ['a'], .computeIfAbsent, .poll 0, .stop 0, .remove 0,
      .watch ['@', 'a'], .computeIfAbsent, .poll 1, .complete 1] := by
  have h : ∃ s, run step (start 1) [.watch ['a'], .computeIfAbsent, .poll 0, .stop 0, .remove 0,
      .watch ['@', 'a'], .computeIfAbsent, .poll 1, .complete 1] = some s ∧ True :=
    exists_run (P := fun s : Monitor => s.handed = [1]) (by decide) fun _ _ _ => trivial
  obtain ⟨s, hrun, -⟩ := h
  exact (handed_out_alive_iff 1 _ s hrun).2.1.mpr (by decide)

/-- The second `watch` comes between the two steps: it hands out the watch
that has just been stopped, and the registry then loses it. -/
theorem stopped_watch_handed_out : ∃ s,
    run step (start 1) [.watch ['a'], .computeIfAbsent, .stop 0, .watch ['a'], .computeIfAbsent,
      .remove 0] = some s
      ∧ s.closed = false ∧ s.handed = [0] ∧ s.watches = [] ∧ ¬s.Unstopped := by
  refine exists_run (P := fun s : Monitor => s.closed = false ∧ s.handed = [0] ∧ s.watches = []
    ∧ s.made = [{ id := ['a'], stopped := true }]) (by decide) ?_
  rintro s - ⟨hopen, hhanded, hwatches, hmade⟩
  refine ⟨hopen, hhanded, hwatches, fun h => ?_⟩
  obtain ⟨watch, hw, hrunning⟩ := h 0 (by rw [hhanded]; exact List.mem_cons_self)
  rw [hmade] at hw
  cases hw
  cases hrunning

end TiktokSigner.LivePresence.Monitor
