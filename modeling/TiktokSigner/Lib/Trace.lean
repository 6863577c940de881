import Mathlib.Data.List.Basic

/-!
# Laws of growing traces

A system emits events; its trace grows at the end. Three kinds of laws,
each with the rule for one more emission:

- `Follows Q`: after every event `x`, what came later satisfies `Q x`;
- `Precedes P`: before every event `x`, what came earlier satisfies `P`;
- `BoundedBetween reset mark k`: between two `reset` events at most `k`
  events are marked. It is kept by counting (`since`) the marked events
  after the last reset.
-/

namespace Trace

variable {α : Type*}

/-! ## What follows and what precedes an event -/

def Follows (Q : α → List α → Prop) : List α → Prop
  | [] => True
  | x :: post => Q x post ∧ Follows Q post

def Precedes (P : List α → α → Prop) : List α → Prop
  | [] => True
  | x :: post => P [] x ∧ Precedes (fun pre y => P (x :: pre) y) post

@[simp] theorem follows_nil (Q : α → List α → Prop) : Follows Q [] := trivial

@[simp] theorem follows_cons {Q : α → List α → Prop} {x : α} {post : List α} :
    Follows Q (x :: post) ↔ Q x post ∧ Follows Q post := Iff.rfl

@[simp] theorem precedes_nil (P : List α → α → Prop) : Precedes P [] := trivial

@[simp] theorem precedes_cons {P : List α → α → Prop} {x : α} {post : List α} :
    Precedes P (x :: post) ↔ P [] x ∧ Precedes (fun pre y => P (x :: pre) y) post := Iff.rfl

theorem Follows.split {Q : α → List α → Prop} : ∀ {pre : List α} {x : α} {post : List α},
    Follows Q (pre ++ x :: post) → Q x post
  | [], _, _, h => h.1
  | _ :: _, _, _, h => Follows.split h.2

theorem Precedes.split {x : α} {post : List α} : ∀ {pre : List α} {P : List α → α → Prop},
    Precedes P (pre ++ x :: post) → P pre x
  | [], _, h => h.1
  | y :: _, P, h => Precedes.split (P := fun pre z => P (y :: pre) z) h.2

/-- One more emission: what followed an earlier event now also has `es`
after it. -/
theorem Follows.append {Q Q' : α → List α → Prop} {es : List α} :
    ∀ {tr : List α}, Follows Q tr → (∀ x post, x ∈ tr → Q x post → Q' x (post ++ es)) →
      Follows Q' es → Follows Q' (tr ++ es)
  | [], _, _, hes => hes
  | x :: tr, h, hmore, hes =>
      ⟨hmore x tr List.mem_cons_self h.1,
        Follows.append h.2 (fun y post hy => hmore y post (List.mem_cons_of_mem x hy)) hes⟩

theorem Precedes.append {es : List α} : ∀ {tr : List α} {P : List α → α → Prop},
    Precedes P tr → Precedes (fun pre x => P (tr ++ pre) x) es → Precedes P (tr ++ es)
  | [], _, _, hes => hes
  | _ :: _, _, h, hes => ⟨h.1, Precedes.append h.2 hes⟩

/-! ## Counting between resets -/

section Between

variable (reset mark : α → Bool)

/-- The marked events after the last reset, starting from a count of `n`. -/
def since : Nat → List α → Nat
  | n, [] => n
  | n, x :: xs => since (if reset x then 0 else if mark x then n + 1 else n) xs

def BoundedBetween (k : Nat) (tr : List α) : Prop :=
  ∀ pre seg post, tr = pre ++ seg ++ post → (∀ x ∈ seg, reset x = false) → seg.countP mark ≤ k

@[simp] theorem since_nil (n : Nat) : since reset mark n [] = n := rfl

theorem since_cons (n : Nat) (x : α) (xs : List α) :
    since reset mark n (x :: xs)
      = since reset mark (if reset x then 0 else if mark x then n + 1 else n) xs := rfl

theorem since_append : ∀ (n : Nat) (xs ys : List α),
    since reset mark n (xs ++ ys) = since reset mark (since reset mark n xs) ys
  | _, [], _ => rfl
  | _, _ :: xs, ys => since_append _ xs ys

theorem since_le : ∀ (n : Nat) (xs : List α), since reset mark n xs ≤ n + xs.countP mark
  | _, [] => Nat.le_refl _
  | n, x :: xs => by
      have ih := since_le (if reset x then 0 else if mark x then n + 1 else n) xs
      rw [since_cons, List.countP_cons]
      refine Nat.le_trans ih ?_
      cases reset x <;> cases mark x <;> simp <;> omega

/-- Without a reset every marked event counts. -/
theorem countP_le_since : ∀ {seg : List α}, (∀ x ∈ seg, reset x = false) → ∀ n : Nat,
    n + seg.countP mark ≤ since reset mark n seg
  | [], _, n => by simp
  | x :: seg, h, n => by
      have hx := h x List.mem_cons_self
      have htail : ∀ y ∈ seg, reset y = false := fun y hy => h y (List.mem_cons_of_mem x hy)
      rw [since_cons, hx, List.countP_cons]
      cases hm : mark x with
      | false => simpa using countP_le_since htail n
      | true =>
          have := countP_le_since htail (n + 1)
          simp only [if_true, Bool.false_eq_true, if_false]
          omega

variable {reset mark}

/-- If the count never exceeds `k`, at any point of the trace, no stretch
between resets has more than `k` marked events. -/
theorem boundedBetween_of_since {k : Nat} {tr : List α}
    (h : ∀ p, p <+: tr → since reset mark 0 p ≤ k) : BoundedBetween reset mark k tr := by
  rintro pre seg post rfl hseg
  have hprefix := h (pre ++ seg) (List.prefix_append _ _)
  have hcount := countP_le_since reset mark hseg (since reset mark 0 pre)
  rw [since_append] at hprefix
  omega

/-- One more emission: the count stays below `k` at every point of it. -/
theorem since_le_append {k : Nat} {tr es : List α}
    (h : ∀ p, p <+: tr → since reset mark 0 p ≤ k)
    (hes : ∀ p, p <+: es → since reset mark (since reset mark 0 tr) p ≤ k) :
    ∀ p, p <+: tr ++ es → since reset mark 0 p ≤ k := by
  intro p hp
  obtain ⟨rest, hrest⟩ := hp
  rcases List.append_eq_append_iff.mp hrest with ⟨as, rfl, -⟩ | ⟨bs, rfl, rfl⟩
  · exact h p (List.prefix_append _ _)
  · rw [since_append]
    exact hes bs (List.prefix_append _ _)

end Between

end Trace
