import NibbleAsm.Proofs.Outcome

/-!
# What failed operations leave behind

An operation on a state leaves a state behind also when it fails. It leaves the state as it was if
its steps come in the right order: those that only look at the state come first, and behind the one
that replaces it no step can fail. This is a rule about the order of steps, and a program that
checks too late breaks it.

## Main definitions

* `Effect.Keeps`: operations that leave a part of the state as it is
* `Effect.Reads`: operations that leave the state as it is
* `Effect.Succeeds`: operations that do not fail
* `Effect.Atomic`: operations that leave the state as it is when they fail

## Main results

* `Effect.bind_of_ok`, `Effect.bind_of_error`: one operation after the other
* `Effect.Reads.bind_atomic`: steps that only look come first
* `Effect.Atomic.bind_succeeds`: steps that cannot fail come last
-/

namespace NibbleAsm.Effect

variable {σ τ α β : Type} {view : σ → τ} {x : Effect σ α} {f : α → Effect σ β} {s s' : σ}

/-! ## One operation after the other -/

theorem bind_of_ok {a : α} (h : (x s).2.result = .ok a) :
    (x >>= f) s = ((f a (x s).1).1, ⟨(x s).2.log ++ (f a (x s).1).2.log,
      (f a (x s).1).2.result⟩) := by
  show Effect.bind x f s = _
  simp only [Effect.bind, h]

theorem bind_of_error {e : Failure} (h : (x s).2.result = .error e) :
    (x >>= f) s = ((x s).1, ⟨(x s).2.log, .error e⟩) := by
  show Effect.bind x f s = _
  simp only [Effect.bind, h]

theorem get_bind (f : σ → Effect σ β) (s : σ) : (get >>= f) s = f s s := rfl

theorem ofExcept_ok_bind (a : α) (f : α → Effect σ β) : ofExcept (.ok a) >>= f = f a := rfl

theorem ofExcept_error_bind (e : Failure) (f : α → Effect σ β) :
    ofExcept (.error e) >>= f = ofExcept (.error e) := rfl

theorem bind_result (x : Effect σ α) (f : α → Effect σ β) (s : σ) :
    ((x >>= f) s).2.result = (x s).2.result >>= fun a => (f a (x s).1).2.result := by
  cases h : (x s).2.result with
  | error e =>
    rw [bind_of_error h]
    rfl
  | ok a =>
    rw [bind_of_ok h]
    rfl

theorem exec_eq_ok_iff {x : Effect σ Unit} :
    (x.exec s).result = .ok s' ↔ (x s).2.result = .ok () ∧ (x s).1 = s' := by
  simp only [exec, map_eq_ok]
  constructor
  · rintro ⟨⟨⟩, h, hs⟩
    exact ⟨h, hs⟩
  · rintro ⟨h, hs⟩
    exact ⟨(), h, hs⟩

/-- The state that two operations leave when both succeed. -/
theorem exec_bind_result (x : Effect σ Unit) (f : Unit → Effect σ Unit) (s : σ) :
    ((x >>= f).exec s).result = (x.exec s).result >>= fun mid => ((f ()).exec mid).result := by
  cases h : (x s).2.result with
  | error e =>
    simp only [exec, bind_of_error h, h]
    rfl
  | ok u =>
    simp only [exec, bind_of_ok h, h]
    rfl

/-! ## The order of steps -/

/-- An operation that leaves what is seen of the state as it is. -/
def Keeps (view : σ → τ) (x : Effect σ α) : Prop :=
  ∀ s, view (x s).1 = view s

/-- An operation that leaves the state as it is. -/
def Reads (x : Effect σ α) : Prop :=
  ∀ s, (x s).1 = s

/-- An operation that does not fail. -/
def Succeeds (x : Effect σ α) : Prop :=
  ∀ s, ∃ a, (x s).2.result = .ok a

/-- An operation that leaves the state as it is when it fails. -/
def Atomic (x : Effect σ α) : Prop :=
  ∀ s e, (x s).2.result = .error e → (x s).1 = s

theorem reads_lift (y : Traced α) : Reads (lift y : Effect σ α) :=
  fun _ => rfl

theorem reads_get : Reads (get : Effect σ σ) :=
  fun _ => rfl

theorem succeeds_pure (a : α) : Succeeds (pure a : Effect σ α) :=
  fun _ => ⟨a, rfl⟩

theorem succeeds_notes (log : List Note) : Succeeds (notes log : Effect σ Unit) :=
  fun _ => ⟨(), rfl⟩

theorem succeeds_get : Succeeds (get : Effect σ σ) :=
  fun s => ⟨s, rfl⟩

theorem succeeds_set (s : σ) : Succeeds (set s) :=
  fun _ => ⟨(), rfl⟩

theorem Reads.atomic (h : Reads x) : Atomic x :=
  fun s _ _ => h s

theorem Succeeds.atomic (h : Succeeds x) : Atomic x := by
  intro s e failed
  obtain ⟨a, ha⟩ := h s
  cases ha.symm.trans failed

theorem Reads.keeps (h : Reads x) : Keeps view x :=
  fun s => congrArg view (h s)

theorem Keeps.bind (hx : Keeps view x) (hf : ∀ a, Keeps view (f a)) : Keeps view (x >>= f) := by
  intro s
  cases h : (x s).2.result with
  | error e => rw [bind_of_error h, hx]
  | ok a => rw [bind_of_ok h, hf, hx]

theorem Reads.bind (hx : Reads x) (hf : ∀ a, Reads (f a)) : Reads (x >>= f) :=
  show Keeps id (x >>= f) from hx.keeps.bind fun a => (hf a).keeps

theorem Succeeds.bind (hx : Succeeds x) (hf : ∀ a, Succeeds (f a)) : Succeeds (x >>= f) := by
  intro s
  obtain ⟨a, ha⟩ := hx s
  obtain ⟨b, hb⟩ := hf a (x s).1
  exact ⟨b, by rw [bind_of_ok ha, hb]⟩

/-- What only looks at the state behind an operation leaves the state of the operation. -/
theorem bind_fst_of_reads (hf : ∀ a, Reads (f a)) (s : σ) : ((x >>= f) s).1 = (x s).1 := by
  cases h : (x s).2.result with
  | error e => rw [bind_of_error h]
  | ok a => rw [bind_of_ok h, hf]

/-- **Steps that only look at the state come first.** -/
theorem Reads.bind_atomic (hx : Reads x) (hf : ∀ a, Atomic (f a)) : Atomic (x >>= f) := by
  intro s e failed
  cases h : (x s).2.result with
  | error e => rw [bind_of_error h, hx]
  | ok a =>
    rw [bind_of_ok h] at failed ⊢
    exact (hf a _ e failed).trans (hx s)

/-- **Steps that cannot fail come last.** -/
theorem Atomic.bind_succeeds (hx : Atomic x) (hf : ∀ a, Succeeds (f a)) : Atomic (x >>= f) := by
  intro s e failed
  cases h : (x s).2.result with
  | error e => rw [bind_of_error h, hx s e h]
  | ok a =>
    obtain ⟨b, hb⟩ := hf a (x s).1
    rw [bind_of_ok h, hb] at failed
    cases failed

end NibbleAsm.Effect
