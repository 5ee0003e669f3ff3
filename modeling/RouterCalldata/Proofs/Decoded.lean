import Mathlib.Data.List.Forall2
import RouterCalldata.DecodeError

/-!
# Steps of a reading

A reading is a chain of steps, and the first step that fails ends it.  The lemmas here take such
a chain apart, so that no other module has to open the sequencing itself.

Three statements about readings are kept by every chain: that a reading fails only in a certain
way, that two readings agree unless the first fails in a certain way, and that two readings agree
up to one failure.  Readings that succeed together need not agree, nor fail at the same place.

## Main definitions

* `DecodeError.IsTruncated`, `DecodeError.IsOutOfBounds`, `DecodeError.IsMalformed`,
  `DecodeError.IsFault`: kinds of failure;
* `DecodeError.IsUnreadable`: the failures of what looks into a buffer;
* `DecodeError.IsCut`: those of what looks at a position;
* `FailsOnly`: a reading gives a result or fails in a certain way;
* `EqUnless`, `SameUpTo`: two readings that agree except for certain failures;
* `Together`: two readings of different things that succeed alike.

## Main results

* `bind_eq_ok_iff`, `bind_eq_error_iff`: a chain succeeds exactly if its steps do, and fails where
  one of them does;
* `map_bind`, `mapM_map`: results that are changed afterwards;
* `mapM_eq_ok`, `mapM_eq_error`: a list read element by element, where every element succeeds
  and where all failures are the same one;
* `mapM_eq_ok_iff`, `exists_mem_of_forall₂`, `exists_mem_of_mapM_eq_error`: a list is read exactly
  if it is read element by element, and a list that fails has an element that fails;
* `bind_eq_malformed_iff`, `bind_eq_malformed_iff_left`: a fault of the layout among steps that can
  only be cut;
* `FailsOnly.bind`, `EqUnless.bind`, `SameUpTo.bind`: the three statements are kept by a chain.
-/

namespace RouterCalldata

namespace DecodeError

/-- The buffer ends too early. -/
def IsTruncated : DecodeError → Prop
  | truncated .. => True
  | _ => False

/-- A number is no position in a buffer. -/
def IsOutOfBounds : DecodeError → Prop
  | outOfBounds _ => True
  | _ => False

/-- The numbers read describe no valid layout. -/
def IsMalformed : DecodeError → Prop
  | malformed _ => True
  | _ => False

/-- A step has left its range where no check guards it. -/
def IsFault : DecodeError → Prop
  | fault _ => True
  | _ => False

/-- The buffer does not hold what is looked for: it ends too early, or the numbers
in it are no positions or describe no valid layout.  How calls are nested in one
another is not seen in a buffer. -/
def IsUnreadable : DecodeError → Prop
  | truncated .. | outOfBounds _ => True
  | malformed (.nestedOnly _) | malformed (.nestingDepth ..) => False
  | malformed _ => True
  | _ => False

/-- The position that is looked at is not in the buffer, or is no position at all. -/
def IsCut (e : DecodeError) : Prop := e.IsTruncated ∨ e.IsOutOfBounds

theorem not_isCut_malformed (cause : LayoutCause) : ¬ (malformed cause).IsCut :=
  not_or.mpr ⟨not_false, not_false⟩

theorem IsCut.isUnreadable {e : DecodeError} (h : e.IsCut) : e.IsUnreadable := by
  cases e with
  | truncated offset needed available => exact trivial
  | outOfBounds cause => exact trivial
  | _ => rcases h with h | h <;> exact absurd h not_false

theorem IsUnreadable.not_isFault {e : DecodeError} (h : e.IsUnreadable) : ¬ e.IsFault := by
  cases e with
  | fault cause => exact absurd h not_false
  | _ => exact not_false

theorem IsUnreadable.kinds {e : DecodeError} (h : e.IsUnreadable) :
    e.IsTruncated ∨ e.IsOutOfBounds ∨ e.IsMalformed := by
  cases e with
  | truncated offset needed available => exact Or.inl trivial
  | outOfBounds cause => exact Or.inr (Or.inl trivial)
  | malformed cause => exact Or.inr (Or.inr trivial)
  | _ => exact absurd h not_false

end DecodeError

namespace Decoded

variable {α β : Type}

@[simp] theorem ok_bind (a : α) (f : α → Decoded β) : (Except.ok a >>= f : Decoded β) = f a := rfl

@[simp] theorem error_bind (e : DecodeError) (f : α → Decoded β) :
    (Except.error e >>= f : Decoded β) = .error e := rfl

@[simp] theorem pure_eq_ok (a : α) : (pure a : Decoded α) = .ok a := rfl

theorem bind_eq_ok_iff {x : Decoded α} {f : α → Decoded β} {b : β} :
    x >>= f = .ok b ↔ ∃ a, x = .ok a ∧ f a = .ok b := by
  cases x with
  | error e => simp
  | ok a => simp

/-- A chain fails where its first step fails, or where it succeeds and the next one fails. -/
theorem bind_eq_error_iff {x : Decoded α} {f : α → Decoded β} {e : DecodeError} :
    x >>= f = .error e ↔ x = .error e ∨ ∃ a, x = .ok a ∧ f a = .error e := by
  cases x with
  | error e' => simp
  | ok a => simp

/-! ## Results that are changed afterwards -/

@[simp] theorem map_ok (g : α → β) (a : α) : (Except.ok a : Decoded α).map g = .ok (g a) := rfl

@[simp] theorem map_error (g : α → β) (e : DecodeError) :
    (Except.error e : Decoded α).map g = .error e := rfl

/-- What is done to the result of a chain is done behind its last step. -/
theorem map_bind {γ : Type} (x : Decoded α) (f : α → Decoded β) (g : β → γ) :
    (x >>= f).map g = x >>= fun a => (f a).map g := by
  cases x with
  | error e => rfl
  | ok a => rfl

/-- A change of the result leaves the failures as they are. -/
theorem map_eq_error_iff {x : Decoded α} {g : α → β} {e : DecodeError} :
    x.map g = .error e ↔ x = .error e := by
  cases x with
  | error e' => simp
  | ok a => simp

theorem map_eq_ok_iff {x : Decoded α} {g : α → β} {b : β} :
    x.map g = .ok b ↔ ∃ a, x = .ok a ∧ g a = b := by
  cases x with
  | error e => simp
  | ok a => simp

/-! ## Lists -/

theorem mapM_map {γ : Type} (f : α → Decoded β) (g : β → γ) (xs : List α) :
    xs.mapM (fun x => (f x).map g) = (xs.mapM f).map (List.map g) := by
  induction xs with
  | nil => rfl
  | cons x xs ih =>
    rw [List.mapM_cons, List.mapM_cons, ih]
    cases f x with
    | error e => rfl
    | ok y =>
      cases xs.mapM f with
      | error e => rfl
      | ok ys => rfl

theorem mapM_eq_ok {f : α → Decoded β} {g : α → β} {xs : List α}
    (h : ∀ x ∈ xs, f x = .ok (g x)) : xs.mapM f = .ok (xs.map g) := by
  induction xs with
  | nil => rfl
  | cons x xs ih =>
    have hx := h x List.mem_cons_self
    have hxs := ih fun y hy => h y (List.mem_cons_of_mem x hy)
    rw [List.mapM_cons, hx, hxs]
    rfl

/-- Where all elements that fail do so for one reason, the list fails for it
as soon as one element does. -/
theorem mapM_eq_error {f : α → Decoded β} {e : DecodeError} {xs : List α}
    (h : ∀ x ∈ xs, (∃ y, f x = .ok y) ∨ f x = .error e) (hfail : ∃ x ∈ xs, f x = .error e) :
    xs.mapM f = .error e := by
  induction xs with
  | nil =>
    obtain ⟨x, hx, -⟩ := hfail
    exact absurd hx List.not_mem_nil
  | cons x xs ih =>
    rw [List.mapM_cons]
    rcases h x List.mem_cons_self with ⟨y, hy⟩ | hx
    · have hrest : ∃ z ∈ xs, f z = .error e := by
        obtain ⟨z, hz, hfz⟩ := hfail
        rcases List.mem_cons.mp hz with rfl | hz
        · exact absurd (hy.symm.trans hfz) nofun
        · exact ⟨z, hz, hfz⟩
      rw [hy, ok_bind, ih (fun z hz => h z (List.mem_cons_of_mem x hz)) hrest, error_bind]
    · rw [hx, error_bind]

theorem mapM_congr {f g : α → Decoded β} {xs : List α} (h : ∀ x ∈ xs, f x = g x) :
    xs.mapM f = xs.mapM g := by
  induction xs with
  | nil => rfl
  | cons x xs ih =>
    rw [List.mapM_cons, List.mapM_cons, h x List.mem_cons_self,
      ih fun y hy => h y (List.mem_cons_of_mem x hy)]

/-- **A list is read exactly if it is read element by element.** -/
theorem mapM_eq_ok_iff {f : α → Decoded β} {xs : List α} {ys : List β} :
    xs.mapM f = .ok ys ↔ List.Forall₂ (fun x y => f x = .ok y) xs ys := by
  constructor
  · intro h
    induction xs generalizing ys with
    | nil =>
      obtain rfl := Except.ok.inj h
      exact .nil
    | cons x xs ih =>
      rw [List.mapM_cons] at h
      obtain ⟨y, hy, h⟩ := bind_eq_ok_iff.mp h
      obtain ⟨ys, hys, h⟩ := bind_eq_ok_iff.mp h
      obtain rfl := Except.ok.inj h
      exact .cons hy (ih hys)
  · intro h
    induction h with
    | nil => rfl
    | cons hx _ ih =>
      rw [List.mapM_cons, hx, ok_bind, ih]
      rfl

/-- Whatever is among the results belongs to one of the elements. -/
theorem exists_mem_of_forall₂ {r : α → β → Prop} {xs : List α} {ys : List β}
    (h : List.Forall₂ r xs ys) {y : β} (hy : y ∈ ys) : ∃ x ∈ xs, r x y := by
  induction h with
  | nil => exact absurd hy List.not_mem_nil
  | @cons x y' xs ys hxy _ ih =>
    rcases List.mem_cons.mp hy with rfl | hrest
    · exact ⟨x, List.mem_cons_self, hxy⟩
    · obtain ⟨z, hz, hzy⟩ := ih hrest
      exact ⟨z, List.mem_cons_of_mem x hz, hzy⟩

/-- A list that fails has an element that fails in the same way. -/
theorem exists_mem_of_mapM_eq_error {f : α → Decoded β} {xs : List α} {e : DecodeError}
    (h : xs.mapM f = .error e) : ∃ x ∈ xs, f x = .error e := by
  induction xs with
  | nil => exact absurd h nofun
  | cons x xs ih =>
    rw [List.mapM_cons] at h
    cases hx : f x with
    | error e' =>
      rw [hx, error_bind] at h
      exact ⟨x, List.mem_cons_self, by rw [hx, Except.error.inj h]⟩
    | ok y =>
      rw [hx, ok_bind] at h
      cases hxs : xs.mapM f with
      | error e' =>
        rw [hxs, error_bind] at h
        obtain ⟨z, hz, hfail⟩ := ih (hxs.trans h)
        exact ⟨z, List.mem_cons_of_mem x hz, hfail⟩
      | ok ys =>
        rw [hxs] at h
        exact absurd h nofun

/-! ## Readings that fail in one way only -/

/-- If the reading fails, then in one of the given ways. -/
def FailsOnly (p : DecodeError → Prop) (r : Decoded α) : Prop :=
  ∀ e, r = .error e → p e

namespace FailsOnly

variable {p : DecodeError → Prop}

theorem ok (a : α) : FailsOnly p (.ok a : Decoded α) := nofun

theorem error {e : DecodeError} (h : p e) : FailsOnly p (.error e : Decoded α) := by
  rintro _ ⟨⟩
  exact h

theorem mono {q : DecodeError → Prop} {r : Decoded α} (h : FailsOnly p r)
    (hpq : ∀ e, p e → q e) : FailsOnly q r := fun e he => hpq e (h e he)

/-- A step may rely on what the steps before it gave. -/
theorem bind {x : Decoded α} {f : α → Decoded β} (hx : FailsOnly p x)
    (hf : ∀ a, x = .ok a → FailsOnly p (f a)) : FailsOnly p (x >>= f) := by
  cases x with
  | error e => exact error (hx e rfl)
  | ok a => exact hf a rfl

theorem mapM {f : α → Decoded β} {xs : List α} (h : ∀ x ∈ xs, FailsOnly p (f x)) :
    FailsOnly p (xs.mapM f) := by
  induction xs with
  | nil => exact ok _
  | cons x xs ih =>
    rw [List.mapM_cons]
    have hxs := ih fun y hy => h y (List.mem_cons_of_mem x hy)
    exact (h x List.mem_cons_self).bind fun _ _ => hxs.bind fun _ _ => ok _

end FailsOnly

section Malformed

variable {x : Decoded α} {f : α → Decoded β} {cause : LayoutCause}

/-- A step that can only be cut passes the faults of the layout on that come behind it. -/
theorem bind_eq_malformed_iff (hx : FailsOnly DecodeError.IsCut x) :
    x >>= f = .error (.malformed cause) ↔ ∃ a, x = .ok a ∧ f a = .error (.malformed cause) := by
  rw [bind_eq_error_iff]
  constructor
  · rintro (h | h)
    · exact absurd (hx _ h) (DecodeError.not_isCut_malformed cause)
    · exact h
  · exact Or.inr

/-- Steps that can only be cut have no fault of the layout of their own. -/
theorem bind_eq_malformed_iff_left (hf : ∀ a, FailsOnly DecodeError.IsCut (f a)) :
    x >>= f = .error (.malformed cause) ↔ x = .error (.malformed cause) := by
  rw [bind_eq_error_iff]
  constructor
  · rintro (h | ⟨a, -, h⟩)
    · exact h
    · exact absurd (hf a _ h) (DecodeError.not_isCut_malformed cause)
  · exact Or.inl

end Malformed

/-! ## Readings that agree unless the first fails -/

/-- The second reading gives what the first one gives, unless the first one
fails in one of the given ways. -/
def EqUnless (p : DecodeError → Prop) (r r' : Decoded α) : Prop :=
  r' = r ∨ ∃ e, p e ∧ r = .error e

namespace EqUnless

variable {p : DecodeError → Prop} {r r' : Decoded α}

theorem refl (r : Decoded α) : EqUnless p r r := Or.inl rfl

theorem of_error {e : DecodeError} (h : p e) : EqUnless p (.error e) r' := Or.inr ⟨e, h, rfl⟩

theorem mono {q : DecodeError → Prop} (h : EqUnless p r r') (hpq : ∀ e, p e → q e) :
    EqUnless q r r' := by
  rcases h with h | ⟨e, he, hr⟩
  · exact Or.inl h
  · exact Or.inr ⟨e, hpq e he, hr⟩

theorem bind {f f' : α → Decoded β} (h : EqUnless p r r')
    (hf : ∀ a, r = .ok a → EqUnless p (f a) (f' a)) : EqUnless p (r >>= f) (r' >>= f') := by
  rcases h with rfl | ⟨e, he, rfl⟩
  · cases r' with
    | error e => exact refl _
    | ok a => exact hf a rfl
  · exact of_error he

theorem mapM {f f' : α → Decoded β} {xs : List α} (h : ∀ x ∈ xs, EqUnless p (f x) (f' x)) :
    EqUnless p (xs.mapM f) (xs.mapM f') := by
  induction xs with
  | nil => exact refl _
  | cons x xs ih =>
    rw [List.mapM_cons, List.mapM_cons]
    have hxs := ih fun y hy => h y (List.mem_cons_of_mem x hy)
    exact (h x List.mem_cons_self).bind fun _ _ => hxs.bind fun _ _ => refl _

/-- If the first reading fails in other ways only, the two are the same. -/
theorem eq (h : EqUnless p r r') (hr : FailsOnly (¬ p ·) r) : r' = r := by
  rcases h with h | ⟨e, he, hfail⟩
  · exact h
  · exact absurd he (hr e hfail)

/-- What the first reading gives, the second gives too. -/
theorem eq_ok (h : EqUnless p r r') {a : α} (hr : r = .ok a) : r' = .ok a := by
  rcases h with rfl | ⟨e, -, he⟩
  · exact hr
  · exact absurd (hr.symm.trans he) nofun

/-- If the first reading fails in another way, the second fails like it. -/
theorem eq_error (h : EqUnless p r r') {e : DecodeError} (hr : r = .error e) (he : ¬ p e) :
    r' = .error e := by
  rcases h with rfl | ⟨e', he', hr'⟩
  · exact hr
  · obtain rfl := Except.error.inj (hr.symm.trans hr')
    exact absurd he' he

end EqUnless

/-! ## Readings that differ in one failure -/

/-- The second reading gives what the first one gives, except that it may fail
with `e'` where the first fails with `e`. -/
def SameUpTo (e e' : DecodeError) (r r' : Decoded α) : Prop :=
  r' = r ∨ r = .error e ∧ r' = .error e'

namespace SameUpTo

variable {e e' : DecodeError}

theorem refl (r : Decoded α) : SameUpTo e e' r r := Or.inl rfl

theorem eq_ok {r r' : Decoded α} (h : SameUpTo e e' r r') {a : α} (hr : r = .ok a) :
    r' = .ok a := by
  rcases h with rfl | ⟨hfail, -⟩
  · exact hr
  · exact absurd (hfail.symm.trans hr) nofun

theorem eq_error {r r' : Decoded α} (h : SameUpTo e e' r r') {x : DecodeError}
    (hr : r = .error x) : r' = .error x ∨ x = e ∧ r' = .error e' := by
  rcases h with rfl | ⟨hfail, hfail'⟩
  · exact Or.inl hr
  · exact Or.inr ⟨Except.error.inj (hr.symm.trans hfail), hfail'⟩

theorem bind {r r' : Decoded α} {f f' : α → Decoded β} (h : SameUpTo e e' r r')
    (hf : ∀ a, SameUpTo e e' (f a) (f' a)) : SameUpTo e e' (r >>= f) (r' >>= f') := by
  rcases h with rfl | ⟨rfl, rfl⟩
  · cases r' with
    | ok a => exact hf a
    | error _ => exact refl _
  · exact Or.inr ⟨rfl, rfl⟩

theorem mapM {f f' : α → Decoded β} {xs : List α} (h : ∀ x ∈ xs, SameUpTo e e' (f x) (f' x)) :
    SameUpTo e e' (xs.mapM f) (xs.mapM f') := by
  induction xs with
  | nil => exact refl _
  | cons x xs ih =>
    rw [List.mapM_cons, List.mapM_cons]
    have hxs := ih fun y hy => h y (List.mem_cons_of_mem x hy)
    exact (h x List.mem_cons_self).bind fun _ => hxs.bind fun _ => refl _

end SameUpTo

/-! ## Readings that succeed together -/

/-- Both readings give a result, and the two results are related, or both fail in one kind of
way. -/
inductive Together (p : α → β → Prop) : Decoded α → Decoded β → Prop
  | ok {a : α} {b : β} (h : p a b) : Together p (.ok a) (.ok b)
  | error {e e' : DecodeError} (h : e.kind = e'.kind) : Together p (.error e) (.error e')

/-- A first step that is the same fails in one way. -/
theorem Together.bind {γ : Type} {p : β → γ → Prop} {x : Decoded α} {f : α → Decoded β}
    {g : α → Decoded γ} (h : ∀ a, x = .ok a → Together p (f a) (g a)) :
    Together p (x >>= f) (x >>= g) := by
  cases x with
  | error e => exact .error rfl
  | ok a => exact h a rfl

end Decoded

end RouterCalldata
