import NibbleAsm.Layout
import Mathlib.Data.List.Forall2

/-!
# Outcomes

Every operation ends in a value or in a failure. This module says how the outcome of a sequence of
operations comes from the outcomes of its parts, and what it means that two outcomes correspond.

## Main definitions

* `Ends E P x`: the operation `x` ends in a value with `P`, or in a failure with `E`
* `OutcomeRel E R`: two outcomes are values related by `R`, or failures related by `E`
* `Follows excused E R`: the same, except that failures of the first may be excused

## Main results

* `bind_eq_ok`, `bind_eq_error`: when one operation behind another succeeds, and when it fails
* `mapM_eq_ok_iff`, `mapM_eq_error`, `mapM_of_first_error`: the same for an operation on every entry
  of a list
* `mapM_map_of_readBack`: lists that are read back entry by entry
* `Traced.bind_result`: the outcome of operations that take notes
* `Ends.bind`, `Ends.mapM`: what a sequence of operations ends in
* `Follows.bind`, `Follows.mapM`: operations that follow one another step by step do so as a whole
-/

namespace NibbleAsm

variable {ε δ α β γ η : Type}

/-! ## Sequences of operations -/

theorem bind_eq_ok {x : Except ε α} {f : α → Except ε β} {b : β} :
    x >>= f = .ok b ↔ ∃ a, x = .ok a ∧ f a = .ok b := by
  cases x <;> simp [bind, Except.bind]

theorem bind_eq_error {x : Except ε α} {f : α → Except ε β} {e : ε} :
    x >>= f = .error e ↔ x = .error e ∨ ∃ a, x = .ok a ∧ f a = .error e := by
  cases x <;> simp [bind, Except.bind]

theorem map_eq_ok {x : Except ε α} {f : α → β} {b : β} :
    x.map f = .ok b ↔ ∃ a, x = .ok a ∧ f a = b := by
  cases x <;> simp [Except.map]

theorem mapError_eq_ok {x : Except ε α} {f : ε → δ} {a : α} :
    x.mapError f = .ok a ↔ x = .ok a := by
  cases x with
  | error e => exact ⟨nofun, nofun⟩
  | ok b => rw [Except.mapError, Except.ok.injEq, Except.ok.injEq]

theorem toOption_eq_some {x : Except ε α} {a : α} : x.toOption = some a ↔ x = .ok a := by
  cases x <;> simp [Except.toOption]

/-- An operation on every entry of a list succeeds when it succeeds on each of them. -/
theorem mapM_eq_ok_iff {f : α → Except ε β} {as : List α} {bs : List β} :
    as.mapM f = .ok bs ↔ List.Forall₂ (fun a b => f a = .ok b) as bs := by
  induction as generalizing bs with
  | nil =>
    rw [List.mapM_nil, List.forall₂_nil_left_iff]
    exact ⟨fun h => (Except.ok.inj h).symm, fun h => h ▸ rfl⟩
  | cons a as ih =>
    -- the first entry succeeds and then the others do, on either side
    rw [List.mapM_cons, bind_eq_ok, List.forall₂_cons_left_iff]
    constructor
    · rintro ⟨b, hb, h⟩
      obtain ⟨bs', hbs', h⟩ := bind_eq_ok.mp h
      exact ⟨b, bs', hb, ih.mp hbs', (Except.ok.inj h).symm⟩
    · rintro ⟨b, bs', hb, hbs', rfl⟩
      exact ⟨b, hb, bind_eq_ok.mpr ⟨bs', ih.mpr hbs', rfl⟩⟩

/-- An operation on every entry of a list fails where it fails first. -/
theorem mapM_eq_error {f : α → Except ε β} {as : List α} {e : ε} (h : as.mapM f = .error e) :
    ∃ before a after, as = before ++ a :: after ∧ (∀ a' ∈ before, ∃ b, f a' = .ok b) ∧
      f a = .error e := by
  induction as with
  | nil => cases h
  | cons a as ih =>
    rw [List.mapM_cons, bind_eq_error] at h
    rcases h with h | ⟨b, hb, h⟩
    · exact ⟨[], a, as, rfl, List.forall_mem_nil _, h⟩
    · rcases bind_eq_error.mp h with h | ⟨bs, -, h⟩
      · obtain ⟨before, a', after, rfl, hbefore, ha'⟩ := ih h
        exact ⟨a :: before, a', after, rfl, List.forall_mem_cons.mpr ⟨⟨b, hb⟩, hbefore⟩, ha'⟩
      · cases h

theorem mapM_of_first_error {f : α → Except ε β} {before after : List α} {a : α} {e : ε}
    (sound : ∀ a' ∈ before, ∃ b, f a' = .ok b) (failed : f a = .error e) :
    (before ++ a :: after).mapM f = .error e := by
  induction before with
  | nil =>
    rw [List.nil_append, List.mapM_cons, failed]
    rfl
  | cons a' before ih =>
    obtain ⟨⟨b, hb⟩, hbefore⟩ := List.forall_mem_cons.mp sound
    rw [List.cons_append, List.mapM_cons, hb, ih hbefore]
    rfl

theorem exists_mapM_eq_ok {f : α → Except ε β} {as : List α} (h : ∀ a ∈ as, ∃ b, f a = .ok b) :
    ∃ bs, as.mapM f = .ok bs := by
  cases hmap : as.mapM f with
  | ok bs => exact ⟨bs, rfl⟩
  | error e =>
    obtain ⟨before, a, after, rfl, -, ha⟩ := mapM_eq_error hmap
    obtain ⟨b, hb⟩ := h a (by simp)
    rw [hb] at ha
    cases ha

/-- An operation on copies of one entry gives copies of one result. -/
theorem mapM_replicate {f : α → Except ε β} {k : Nat} (hk : k ≠ 0) (a : α) :
    (List.replicate k a).mapM f = (f a).map (List.replicate k) := by
  cases h : f a with
  | error e =>
    obtain ⟨k, rfl⟩ := Nat.exists_eq_succ_of_ne_zero hk
    rw [List.replicate_succ, List.mapM_cons, h]
    rfl
  | ok b =>
    rw [Except.map, mapM_eq_ok_iff, List.forall₂_iff_get]
    refine ⟨by simp, fun i _ _ => ?_⟩
    simpa using h

/-! ## Operations that may have no result -/

theorem mapM_eq_some_of_forall₂ {f : α → Option β} {as : List α} {bs : List β}
    (h : List.Forall₂ (fun a b => f a = some b) as bs) : as.mapM f = some bs := by
  induction h with
  | nil => rfl
  | cons hfirst _ ih =>
    rw [List.mapM_cons, hfirst, ih]
    rfl

/-- What is written entry by entry is read back entry by entry. -/
theorem mapM_map_of_readBack {f : β → Option α} {g : α → β} {as : List α}
    (h : ∀ a ∈ as, f (g a) = some a) : (as.map g).mapM f = some as := by
  apply mapM_eq_some_of_forall₂
  rwa [List.forall₂_map_left_iff, List.forall₂_same]

/-! ## Operations that take notes -/

namespace Traced

@[simp] theorem pure_result (a : α) : (pure a : Traced α).result = .ok a := rfl

@[simp] theorem ofExcept_result (x : Except Failure α) : (ofExcept x).result = x := rfl

@[simp] theorem notes_result (log : List Note) : (notes log).result = .ok () := rfl

/-- Notes have no part in how an operation ends. -/
@[simp] theorem bind_result (x : Traced α) (f : α → Traced β) :
    (x >>= f).result = x.result >>= fun a => (f a).result := by
  change (Traced.bind x f).result = _
  unfold Traced.bind
  cases x.result <;> rfl

end Traced

/-! ## What an operation ends in -/

/-- An operation that ends in a value with the property `P`, or in a failure with the property
`E`. -/
inductive Ends (E : ε → Prop) (P : α → Prop) : Except ε α → Prop
  | ok {a : α} (h : P a) : Ends E P (.ok a)
  | error {e : ε} (h : E e) : Ends E P (.error e)

namespace Ends

variable {E : ε → Prop} {P Q : α → Prop} {S : β → Prop} {x : Except ε α}

theorem of_ok {a : α} (hx : Ends E P x) (h : x = .ok a) : P a := by
  subst h
  cases hx with
  | ok h => exact h

theorem of_error {e : ε} (hx : Ends E P x) (h : x = .error e) : E e := by
  subst h
  cases hx with
  | error h => exact h

theorem mono (hx : Ends E P x) (h : ∀ a, P a → Q a) : Ends E Q x := by
  cases hx with
  | ok ha => exact .ok (h _ ha)
  | error he => exact .error he

theorem mono_error {F : ε → Prop} (hx : Ends E P x) (h : ∀ e, E e → F e) : Ends F P x := by
  cases hx with
  | ok ha => exact .ok ha
  | error he => exact .error (h _ he)

/-- The value that an operation ends in is the value that it ends in. -/
theorem self (hx : Ends E P x) : Ends E (fun a => x = .ok a) x := by
  cases hx with
  | ok ha => exact .ok rfl
  | error he => exact .error he

theorem bind {f : α → Except ε β} (hx : Ends E P x) (hf : ∀ a, P a → Ends E S (f a)) :
    Ends E S (x >>= f) := by
  cases hx with
  | ok ha => exact hf _ ha
  | error he => exact .error he

theorem map {f : α → β} (hx : Ends E P x) (hf : ∀ a, P a → S (f a)) : Ends E S (x.map f) := by
  cases hx with
  | ok ha => exact .ok (hf _ ha)
  | error he => exact .error he

theorem mapM {f : α → Except ε β} {as : List α} (hf : ∀ a ∈ as, Ends E S (f a)) :
    Ends E (fun bs => ∀ b ∈ bs, S b) (as.mapM f) := by
  induction as with
  | nil =>
    rw [List.mapM_nil]
    exact .ok (List.forall_mem_nil _)
  | cons a as ih =>
    rw [List.mapM_cons]
    refine (hf a List.mem_cons_self).bind fun b hb => ?_
    refine (ih fun a' ha' => hf a' (List.mem_cons_of_mem _ ha')).bind fun bs hbs => ?_
    exact .ok (List.forall_mem_cons.mpr ⟨hb, hbs⟩)

end Ends

/-! ## Outcomes that correspond -/

/-- Two outcomes that are related values or related failures. -/
inductive OutcomeRel (E : ε → δ → Prop) (R : α → β → Prop) : Except ε α → Except δ β → Prop
  | ok {a : α} {b : β} (h : R a b) : OutcomeRel E R (.ok a) (.ok b)
  | error {e : ε} {d : δ} (h : E e d) : OutcomeRel E R (.error e) (.error d)

/-- The second outcome follows the first: both are related values or related failures. Where
failures are excused, a first outcome that is a failure says nothing about the second. -/
inductive Follows (excused : Prop) (E : ε → δ → Prop) (R : α → β → Prop) :
    Except ε α → Except δ β → Prop
  | ok {a : α} {b : β} (h : R a b) : Follows excused E R (.ok a) (.ok b)
  | error {e : ε} {d : δ} (h : E e d) : Follows excused E R (.error e) (.error d)
  | excused {e : ε} {y : Except δ β} (h : excused) : Follows excused E R (.error e) y

namespace Follows

variable {excused : Prop} {E : ε → δ → Prop} {R : α → β → Prop} {S : γ → η → Prop}
  {x : Except ε α} {y : Except δ β}

theorem exists_of_ok {a : α} (h : Follows excused E R x y) (hx : x = .ok a) :
    ∃ b, y = .ok b ∧ R a b := by
  subst hx
  cases h with
  | ok h => exact ⟨_, rfl, h⟩

theorem outcomeRel (h : Follows excused E R x y) (strict : ¬excused) : OutcomeRel E R x y := by
  cases h with
  | ok h => exact .ok h
  | error h => exact .error h
  | excused h => exact absurd h strict

theorem mono {R' : α → β → Prop} (h : Follows excused E R x y) (hR : ∀ a b, R a b → R' a b) :
    Follows excused E R' x y := by
  cases h with
  | ok h => exact .ok (hR _ _ h)
  | error h => exact .error h
  | excused h => exact .excused h

theorem mono_error {E' : ε → δ → Prop} (h : Follows excused E R x y)
    (hE : ∀ e d, E e d → E' e d) : Follows excused E' R x y := by
  cases h with
  | ok h => exact .ok h
  | error h => exact .error (hE _ _ h)
  | excused h => exact .excused h

theorem same {E : ε → ε → Prop} (refl : ∀ e, E e e) (x : Except ε α) :
    Follows excused E Eq x x := by
  cases x with
  | ok a => exact .ok rfl
  | error e => exact .error (refl e)

theorem bind {f : α → Except ε γ} {g : β → Except δ η} (h : Follows excused E R x y)
    (hf : ∀ a b, R a b → Follows excused E S (f a) (g b)) :
    Follows excused E S (x >>= f) (y >>= g) := by
  cases h with
  | ok h => exact hf _ _ h
  | error h => exact .error h
  | excused h => exact .excused h

/-- The same value on both sides is bound once. -/
theorem bind_eq {y : Except δ α} {f : α → Except ε γ} {g : α → Except δ η}
    (h : Follows excused E Eq x y) (hf : ∀ a, Follows excused E S (f a) (g a)) :
    Follows excused E S (x >>= f) (y >>= g) :=
  h.bind fun a _ hab => hab ▸ hf a

theorem mapM {f : α → Except ε γ} {g : β → Except δ η} {as : List α} {bs : List β}
    (h : List.Forall₂ R as bs) (hf : ∀ a b, R a b → Follows excused E S (f a) (g b)) :
    Follows excused E (List.Forall₂ S) (as.mapM f) (bs.mapM g) := by
  induction h with
  | nil =>
    rw [List.mapM_nil, List.mapM_nil]
    exact .ok .nil
  | cons hab _ ih =>
    rw [List.mapM_cons, List.mapM_cons]
    exact (hf _ _ hab).bind fun c d hcd => ih.bind fun cs ds hcds => .ok (.cons hcd hcds)

end Follows

end NibbleAsm
