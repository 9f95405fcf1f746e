/-!
# Stateful, fallible operations

A method that takes `&mut self` and returns a `Result` is a computation over a
state that keeps the state it reached when it fails: `ExceptT` over `StateM`, in
this order, so that an early return does not roll back. `exec` runs one, and the
lemmas here are how a proof walks through a `do` block step by step.
-/

namespace ProtocolEnforcer

/-- Computations over a state `σ` that may fail with an `ε`, keeping the state. -/
abbrev Effect (σ ε : Type) := ExceptT ε (StateM σ)

namespace Effect

variable {σ ε α β : Type}

/-- Run a computation: its result, and the state it leaves behind. -/
def exec (x : Effect σ ε α) (s : σ) : Except ε α × σ := x.run.run s

/-- A value read off the state. -/
def reads (f : σ → α) : Effect σ ε α := do return f (← get)

/-- A result computed outside the state. -/
def lift (r : Except ε α) : Effect σ ε α :=
  match r with
  | .ok a => pure a
  | .error e => throw e

@[simp] theorem exec_pure (a : α) (s : σ) :
    exec (pure a : Effect σ ε α) s = (.ok a, s) := rfl

@[simp] theorem exec_throw (e : ε) (s : σ) :
    exec (throw e : Effect σ ε α) s = (.error e, s) := rfl

@[simp] theorem exec_modify (f : σ → σ) (s : σ) :
    exec (modify f : Effect σ ε PUnit) s = (.ok ⟨⟩, f s) := rfl

@[simp] theorem exec_reads (f : σ → α) (s : σ) :
    exec (reads f : Effect σ ε α) s = (.ok (f s), s) := rfl

@[simp] theorem exec_lift (r : Except ε α) (s : σ) :
    exec (lift r : Effect σ ε α) s = (r, s) := by
  cases r <;> rfl

/-- Sequencing: the second computation runs only after the first succeeded. -/
theorem exec_bind (x : Effect σ ε α) (f : α → Effect σ ε β) (s : σ) :
    exec (x >>= f) s =
      match exec x s with
      | (.ok a, s') => exec (f a) s'
      | (.error e, s') => (.error e, s') := by
  unfold exec ExceptT.run StateT.run
  simp only [bind, ExceptT.bind, ExceptT.mk, StateT.bind]
  cases x s with
  | mk r s' => cases r <;> rfl

theorem exec_bind_ok {x : Effect σ ε α} {f : α → Effect σ ε β} {s s' : σ} {a : α}
    (h : exec x s = (.ok a, s')) : exec (x >>= f) s = exec (f a) s' := by
  rw [exec_bind, h]

theorem exec_bind_error {x : Effect σ ε α} {f : α → Effect σ ε β} {s s' : σ} {e : ε}
    (h : exec x s = (.error e, s')) : exec (x >>= f) s = (.error e, s') := by
  rw [exec_bind, h]

theorem exec_map (f : α → β) (x : Effect σ ε α) (s : σ) :
    exec (f <$> x) s = ((exec x s).1.map f, (exec x s).2) := by
  rw [map_eq_pure_bind, exec_bind]
  rcases exec x s with ⟨r, s'⟩
  cases r <;> rfl

/-- A result from outside the state may be changed there. -/
theorem lift_map_bind {γ : Type} (r : Except ε α) (g : α → β) (f : β → Effect σ ε γ) :
    (lift (r.map g) >>= f) = lift r >>= fun a => f (g a) := by
  cases r <;> rfl

/-- Dropping the result leaves the state. -/
theorem exec_drop (x : Effect σ ε α) (b : β) (s : σ) :
    (exec (x >>= fun _ => pure b) s).2 = (exec x s).2 := by
  rw [exec_bind]
  rcases exec x s with ⟨r, s'⟩
  cases r <;> rfl

/-- A handler sees the state in which the body failed. -/
theorem exec_tryCatch (x : Effect σ ε α) (f : ε → Effect σ ε α) (s : σ) :
    exec (tryCatch x f) s =
      match exec x s with
      | (.ok a, s') => (.ok a, s')
      | (.error e, s') => exec (f e) s' := by
  unfold exec ExceptT.run StateT.run
  simp only [tryCatch, tryCatchThe, MonadExceptOf.tryCatch, ExceptT.tryCatch, ExceptT.mk,
    bind, StateT.bind]
  cases x s with
  | mk r s' => cases r <;> rfl

theorem exec_tryCatch_ok {x : Effect σ ε α} {f : ε → Effect σ ε α} {s s' : σ} {a : α}
    (h : exec x s = (.ok a, s')) : exec (tryCatch x f) s = (.ok a, s') := by
  rw [exec_tryCatch, h]

theorem exec_tryCatch_error {x : Effect σ ε α} {f : ε → Effect σ ε α} {s s' : σ} {e : ε}
    (h : exec x s = (.error e, s')) : exec (tryCatch x f) s = exec (f e) s' := by
  rw [exec_tryCatch, h]

/-! ## Pre- and postconditions -/

/-- From a state with `P`, `x` returns with `Q`, or fails with `R`. -/
def Triple (P : σ → Prop) (x : Effect σ ε α) (Q : α → σ → Prop) (R : σ → Prop) : Prop :=
  ∀ s, P s →
    match exec x s with
    | (.ok a, s') => Q a s'
    | (.error _, s') => R s'

namespace Triple

variable {P P' R : σ → Prop} {Q : α → σ → Prop} {Q' : β → σ → Prop} {x : Effect σ ε α}
  {f : α → Effect σ ε β}

theorem pure {a : α} (h : ∀ s, P s → Q a s) : Triple P (Pure.pure a : Effect σ ε α) Q R := h

theorem throw {e : ε} (h : ∀ s, P s → R s) : Triple P (MonadExcept.throw e : Effect σ ε α) Q R := h

theorem lift {r : Except ε α} (ok : ∀ a, r = .ok a → ∀ s, P s → Q a s) (error : ∀ s, P s → R s) :
    Triple P (Effect.lift r : Effect σ ε α) Q R := by
  intro s hs
  rw [exec_lift]
  cases r with
  | ok a => exact ok a rfl s hs
  | error e => exact error s hs

theorem reads {g : σ → α} (h : ∀ s, P s → Q (g s) s) : Triple P (Effect.reads g : Effect σ ε α) Q R :=
  h

theorem modified {g : σ → σ} {Q : PUnit → σ → Prop} (h : ∀ s, P s → Q ⟨⟩ (g s)) :
    Triple P (modify g : Effect σ ε PUnit) Q R := h

/-- Sequencing. -/
theorem bind (hx : Triple P x Q R) (hf : ∀ a, Triple (Q a) (f a) Q' R) :
    Triple P (x >>= f) Q' R := by
  intro s hs
  rw [exec_bind]
  have := hx s hs
  split at this
  · exact hf _ _ this
  · exact this

/-- A fact that does not depend on the state can be assumed. -/
theorem of_fact {p : Prop} (h : p → Triple P x Q R) : Triple (fun s => p ∧ P s) x Q R :=
  fun s hs => h hs.1 s hs.2

/-- What the state is known up to can be named. -/
theorem of_exists {γ : Type} {P : γ → σ → Prop} (h : ∀ c, Triple (P c) x Q R) :
    Triple (fun s => ∃ c, P c s) x Q R := fun s ⟨c, hs⟩ => h c s hs

/-- A result from outside the state, and what follows it. -/
theorem bind_lift {r : Except ε α} (ok : ∀ a, r = .ok a → Triple P (f a) Q' R)
    (error : ∀ s, P s → R s) : Triple P (Effect.lift r >>= f) Q' R := by
  intro s hs
  cases r with
  | ok a =>
    rw [exec_bind_ok (exec_lift _ _)]
    exact ok a rfl s hs
  | error e =>
    rw [exec_bind_error (exec_lift _ _)]
    exact error s hs

/-- An assignment, and what follows it. -/
theorem bind_modify {M : σ → Prop} {g : σ → σ} {f : PUnit → Effect σ ε β}
    (h : ∀ s, P s → M (g s)) (hf : Triple M (f ⟨⟩) Q' R) : Triple P (modify g >>= f) Q' R :=
  .bind (.modified (Q := fun _ => M) h) fun _ => hf

/-- A handler starts where the body failed. -/
theorem tryCatch {h : ε → Effect σ ε α} {R' : σ → Prop} (hx : Triple P x Q R')
    (hh : ∀ e, Triple R' (h e) Q R) : Triple P (MonadExcept.tryCatch x h) Q R := by
  intro s hs
  rw [exec_tryCatch]
  have := hx s hs
  split at this
  · exact this
  · exact hh _ _ this

/-- Consequence. -/
theorem conseq (hx : Triple P x Q R) (pre : ∀ s, P' s → P s) {Q' : α → σ → Prop} {R' : σ → Prop}
    (post : ∀ a s, Q a s → Q' a s) (fail : ∀ s, R s → R' s) : Triple P' x Q' R' := by
  intro s hs
  have := hx s (pre s hs)
  split at this
  · exact post _ _ this
  · exact fail _ this

/-- What `x` answers from a state, and where it ends. -/
theorem answers (hx : Triple P x Q R) {s : σ} (hs : P s) :
    (∃ a, (exec x s).1 = .ok a ∧ Q a (exec x s).2) ∨
      ∃ e, (exec x s).1 = .error e ∧ R (exec x s).2 := by
  have := hx s hs
  split at this
  · rename_i a s' heq
    rw [heq]
    exact Or.inl ⟨a, rfl, this⟩
  · rename_i e s' heq
    rw [heq]
    exact Or.inr ⟨e, rfl, this⟩

/-- Where `x` ends, whatever it answers. -/
theorem ends (hx : Triple P x (fun _ => R) R) {s : σ} (hs : P s) : R (exec x s).2 := by
  have := hx s hs
  split at this
  · rename_i heq
    rwa [heq]
  · rename_i heq
    rwa [heq]

end Triple

/-- From a state with `P`, what `x` returns is in `V`. -/
def Returns (P : σ → Prop) (V : α → Prop) (x : Effect σ ε α) : Prop :=
  Triple P x (fun a _ => V a) fun _ => True

namespace Returns

variable {P : σ → Prop} {V : α → Prop} {W : β → Prop} {x : Effect σ ε α} {f : α → Effect σ ε β}

theorem pure {a : α} (h : V a) : Returns P V (Pure.pure a : Effect σ ε α) := fun _ _ => h

/-- Of every computation something is true. -/
theorem any : Returns P (fun _ => True) x := fun s _ => by split <;> trivial

/-- Sequencing. -/
theorem bind (hx : Returns P V x) (hf : ∀ a, V a → Returns (fun _ => True) W (f a)) :
    Returns P W (x >>= f) :=
  Triple.bind (Q := fun a _ => V a) hx fun a s ha => hf a ha s trivial

theorem of_ok (hx : Returns P V x) {s : σ} (hs : P s) {a : α} (ha : (exec x s).1 = .ok a) :
    V a := by
  rcases Triple.answers hx hs with ⟨a', ha', hV⟩ | ⟨e, he, -⟩
  · rw [ha] at ha'
    cases ha'
    exact hV
  · rw [ha] at he
    cases he

end Returns

/-- `x` keeps `I`, whether it returns or fails. -/
def Keeps (I : σ → Prop) (x : Effect σ ε α) : Prop := Triple I x (fun _ => I) I

namespace Keeps

variable {I : σ → Prop} {x : Effect σ ε α} {f : α → Effect σ ε β}

theorem pure {a : α} : Keeps I (Pure.pure a : Effect σ ε α) := Triple.pure fun _ h => h

theorem throw {e : ε} : Keeps I (MonadExcept.throw e : Effect σ ε α) := Triple.throw fun _ h => h

theorem lift {r : Except ε α} : Keeps I (Effect.lift r : Effect σ ε α) :=
  Triple.lift (fun _ _ _ h => h) fun _ h => h

theorem reads {g : σ → α} : Keeps I (Effect.reads g : Effect σ ε α) := Triple.reads fun _ h => h

theorem modified {g : σ → σ} (h : ∀ s, I s → I (g s)) : Keeps I (modify g : Effect σ ε PUnit) :=
  Triple.modified h

theorem bind (hx : Keeps I x) (hf : ∀ a, Keeps I (f a)) : Keeps I (x >>= f) := Triple.bind hx hf

/-- Sequencing, when something is known of what the first computation answers. -/
theorem bind_of {V : α → Prop} (hx : Keeps I x) (hV : ∀ s a, I s → (exec x s).1 = .ok a → V a)
    (hf : ∀ a, V a → Keeps I (f a)) : Keeps I (x >>= f) := by
  intro s hs
  have hleft := hx s hs
  have hvalue := fun a => hV s a hs
  rw [exec_bind]
  rcases hxs : exec x s with ⟨r, s'⟩
  rw [hxs] at hleft hvalue
  cases r with
  | ok a => exact hf a (hvalue a rfl) s' hleft
  | error e => exact hleft

theorem tryCatch {h : ε → Effect σ ε α} (hx : Keeps I x) (hh : ∀ e, Keeps I (h e)) :
    Keeps I (MonadExcept.tryCatch x h) :=
  Triple.tryCatch hx hh

end Keeps

/-- Whatever `x` fails with is in `E`. -/
def Raises (E : ε → Prop) (x : Effect σ ε α) : Prop := ∀ s e, (exec x s).1 = .error e → E e

namespace Raises

variable {E : ε → Prop} {x : Effect σ ε α} {f : α → Effect σ ε β}

theorem pure {a : α} : Raises E (Pure.pure a : Effect σ ε α) := nofun

theorem throw {e : ε} (h : E e) : Raises E (MonadExcept.throw e : Effect σ ε α) := by
  intro s e' he
  cases he
  exact h

theorem lift {r : Except ε α} (h : ∀ e, r = .error e → E e) :
    Raises E (Effect.lift r : Effect σ ε α) := by
  intro s e he
  rw [exec_lift] at he
  exact h e he

theorem reads {g : σ → α} : Raises E (Effect.reads g : Effect σ ε α) := nofun

theorem modified {g : σ → σ} : Raises E (modify g : Effect σ ε PUnit) := nofun

theorem bind (hx : Raises E x) (hf : ∀ a, Raises E (f a)) : Raises E (x >>= f) := by
  intro s e he
  rw [exec_bind] at he
  split at he
  · exact hf _ _ _ he
  · rename_i hxe
    cases he
    exact hx s _ (congrArg Prod.fst hxe)

/-- A result from outside the state, and what follows it. -/
theorem bind_lift {r : Except ε α} (error : ∀ e, r = .error e → E e)
    (ok : ∀ a, r = .ok a → Raises E (f a)) : Raises E (Effect.lift r >>= f) := by
  intro s e he
  cases r with
  | ok a =>
    rw [exec_bind_ok (exec_lift _ _)] at he
    exact ok a rfl s e he
  | error e' =>
    rw [exec_bind_error (exec_lift _ _)] at he
    exact error e (congrArg Except.error (Except.error.inj he))

/-- A handler sees what the body fails with. -/
theorem tryCatch {h : ε → Effect σ ε α} (hx : Raises E x) (hh : ∀ e, E e → Raises E (h e)) :
    Raises E (MonadExcept.tryCatch x h) := by
  intro s e he
  rw [exec_tryCatch] at he
  split at he
  · cases he
  · rename_i hxe
    exact hh _ (hx s _ (congrArg Prod.fst hxe)) _ _ he

end Raises

/-! ## Two runs side by side -/

section

variable {τ α' β' : Type}

/-- From related states, `x` and `y` both return with related values or both fail, and
leave related states. -/
def Alike (R : σ → τ → Prop) (V : α → β → Prop) (x : Effect σ ε α) (y : Effect τ ε β) : Prop :=
  ∀ s t, R s t →
    match exec x s, exec y t with
    | (.ok a, s'), (.ok b, t') => V a b ∧ R s' t'
    | (.error _, s'), (.error _, t') => R s' t'
    | _, _ => False

namespace Alike

variable {R : σ → τ → Prop} {V : α → β → Prop} {x : Effect σ ε α} {y : Effect τ ε β}

theorem pure {a : α} {b : β} (h : V a b) :
    Alike R V (Pure.pure a : Effect σ ε α) (Pure.pure b : Effect τ ε β) := fun _ _ hs => ⟨h, hs⟩

theorem throw {e : ε} :
    Alike R V (MonadExcept.throw e : Effect σ ε α) (MonadExcept.throw e : Effect τ ε β) :=
  fun _ _ hs => hs

theorem reads {g : σ → α} {g' : τ → β} (h : ∀ s t, R s t → V (g s) (g' t)) :
    Alike R V (Effect.reads g : Effect σ ε α) (Effect.reads g' : Effect τ ε β) :=
  fun _ _ hs => ⟨h _ _ hs, hs⟩

theorem modified {g : σ → σ} {g' : τ → τ} (h : ∀ s t, R s t → R (g s) (g' t)) :
    Alike R (fun _ _ => True) (modify g : Effect σ ε PUnit) (modify g' : Effect τ ε PUnit) :=
  fun _ _ hs => ⟨trivial, h _ _ hs⟩

/-- Sequencing. -/
theorem bind {W : α' → β' → Prop} {f : α → Effect σ ε α'} {g : β → Effect τ ε β'}
    (hx : Alike R V x y) (hf : ∀ a b, V a b → Alike R W (f a) (g b)) :
    Alike R W (x >>= f) (y >>= g) := by
  intro s t hs
  rw [exec_bind, exec_bind]
  have := hx s t hs
  split at this
  · rename_i hx' hy'
    rw [hx', hy']
    exact hf _ _ this.1 _ _ this.2
  · rename_i hx' hy'
    rw [hx', hy']
    exact this
  · exact this.elim

/-- The same result from outside both states, and what follows it. -/
theorem bind_lift {r : Except ε α'} {f : α' → Effect σ ε α} {g : α' → Effect τ ε β}
    (h : ∀ a, r = .ok a → Alike R V (f a) (g a)) :
    Alike R V (Effect.lift r >>= f) (Effect.lift r >>= g) := by
  intro s t hs
  cases r with
  | ok a =>
    rw [exec_bind_ok (exec_lift _ _), exec_bind_ok (exec_lift _ _)]
    exact h a rfl s t hs
  | error e =>
    rw [exec_bind_error (exec_lift _ _), exec_bind_error (exec_lift _ _)]
    exact hs

/-- Where two such runs end. -/
theorem ends (hx : Alike R V x y) {s : σ} {t : τ} (hs : R s t) :
    R (exec x s).2 (exec y t).2 := by
  have := hx s t hs
  split at this
  · rename_i hx' hy'
    rw [hx', hy']
    exact this.2
  · rename_i hx' hy'
    rwa [hx', hy']
  · exact this.elim

end Alike

/-- From related states, `x` and `y` answer the same, and leave related states. -/
def Matches (R : σ → τ → Prop) (x : Effect σ ε α) (y : Effect τ ε α) : Prop :=
  ∀ s t, R s t → (exec x s).1 = (exec y t).1 ∧ R (exec x s).2 (exec y t).2

namespace Matches

variable {R : σ → τ → Prop} {x : Effect σ ε α} {y : Effect τ ε α}

theorem pure {a : α} : Matches R (Pure.pure a : Effect σ ε α) (Pure.pure a : Effect τ ε α) :=
  fun _ _ hs => ⟨rfl, hs⟩

theorem throw {e : ε} :
    Matches R (MonadExcept.throw e : Effect σ ε α) (MonadExcept.throw e : Effect τ ε α) :=
  fun _ _ hs => ⟨rfl, hs⟩

theorem lift {r : Except ε α} :
    Matches R (Effect.lift r : Effect σ ε α) (Effect.lift r : Effect τ ε α) := by
  intro s t hs
  rw [exec_lift, exec_lift]
  exact ⟨rfl, hs⟩

theorem reads {g : σ → α} {g' : τ → α} (h : ∀ s t, R s t → g s = g' t) :
    Matches R (Effect.reads g : Effect σ ε α) (Effect.reads g' : Effect τ ε α) :=
  fun _ _ hs => ⟨congrArg Except.ok (h _ _ hs), hs⟩

theorem modified {g : σ → σ} {g' : τ → τ} (h : ∀ s t, R s t → R (g s) (g' t)) :
    Matches R (modify g : Effect σ ε PUnit) (modify g' : Effect τ ε PUnit) :=
  fun _ _ hs => ⟨rfl, h _ _ hs⟩

/-- Sequencing. -/
theorem bind {f : α → Effect σ ε β} {g : α → Effect τ ε β} (hx : Matches R x y)
    (hf : ∀ a, Matches R (f a) (g a)) : Matches R (x >>= f) (y >>= g) := by
  intro s t hs
  obtain ⟨hanswer, hleft⟩ := hx s t hs
  rw [exec_bind, exec_bind]
  rcases hxs : exec x s with ⟨r, s'⟩
  rcases hyt : exec y t with ⟨r', t'⟩
  rw [hxs, hyt] at hanswer hleft
  cases hanswer
  cases r with
  | ok a => exact hf a s' t' hleft
  | error e => exact ⟨rfl, hleft⟩

/-- Sequencing, when something is known of what the first computation answers. -/
theorem bind_of {V : α → Prop} {f : α → Effect σ ε β} {g : α → Effect τ ε β}
    (hx : Matches R x y) (hV : ∀ s t a, R s t → (exec x s).1 = .ok a → V a)
    (hf : ∀ a, V a → Matches R (f a) (g a)) : Matches R (x >>= f) (y >>= g) := by
  intro s t hs
  obtain ⟨hanswer, hleft⟩ := hx s t hs
  have hvalue := fun a => hV s t a hs
  rw [exec_bind, exec_bind]
  rcases hxs : exec x s with ⟨r, s'⟩
  rcases hyt : exec y t with ⟨r', t'⟩
  rw [hxs, hyt] at hanswer hleft
  rw [hxs] at hvalue
  cases hanswer
  cases r with
  | ok a => exact hf a (hvalue a rfl) s' t' hleft
  | error e => exact ⟨rfl, hleft⟩

/-- A result from outside both states, and what follows it. -/
theorem bind_lift {r : Except ε α} {f : α → Effect σ ε β} {g : α → Effect τ ε β}
    (h : ∀ a, r = .ok a → Matches R (f a) (g a)) :
    Matches R (Effect.lift r >>= f) (Effect.lift r >>= g) := by
  cases r with
  | ok a => exact h a rfl
  | error e => exact .throw

/-- A handler starts where the body failed. -/
theorem tryCatch {h : ε → Effect σ ε α} {h' : ε → Effect τ ε α} (hx : Matches R x y)
    (hh : ∀ e, Matches R (h e) (h' e)) :
    Matches R (MonadExcept.tryCatch x h) (MonadExcept.tryCatch y h') := by
  intro s t hs
  obtain ⟨hanswer, hleft⟩ := hx s t hs
  rw [exec_tryCatch, exec_tryCatch]
  rcases hxs : exec x s with ⟨r, s'⟩
  rcases hyt : exec y t with ⟨r', t'⟩
  rw [hxs, hyt] at hanswer hleft
  cases hanswer
  cases r with
  | ok a => exact ⟨rfl, hleft⟩
  | error e => exact hh e s' t' hleft

end Matches

end

/-! ## A run seen through a projection

A computation over a larger state that does what another does, and more besides. -/

section

variable {τ α' β' : Type} {π : σ → τ}

/-- Where `π` looks, `x` is `y`, and its value read by `v` is `y`'s. -/
def Projects (π : σ → τ) (v : α → β) (x : Effect σ ε α) (y : Effect τ ε β) : Prop :=
  ∀ s, (exec x s).1.map v = (exec y (π s)).1 ∧ π (exec x s).2 = (exec y (π s)).2

namespace Projects

variable {v : α → β} {v' : α' → β'} {x : Effect σ ε α} {y : Effect τ ε β}

theorem pure {a : α} : Projects π v (Pure.pure a : Effect σ ε α) (Pure.pure (v a)) :=
  fun _ => ⟨rfl, rfl⟩

theorem throw {e : ε} :
    Projects π v (MonadExcept.throw e : Effect σ ε α) (MonadExcept.throw e) :=
  fun _ => ⟨rfl, rfl⟩

theorem lift {r : Except ε α} : Projects π id (Effect.lift r : Effect σ ε α) (Effect.lift r) := by
  intro s
  rw [exec_lift, exec_lift]
  cases r <;> exact ⟨rfl, rfl⟩

theorem reads {f : τ → α} : Projects π id (Effect.reads fun s => f (π s) : Effect σ ε α)
    (Effect.reads f) := fun _ => ⟨rfl, rfl⟩

theorem modified {g : σ → σ} {g' : τ → τ} (h : ∀ s, π (g s) = g' (π s)) :
    Projects π id (modify g : Effect σ ε PUnit) (modify g') := fun s => ⟨rfl, h s⟩

/-- Sequencing. -/
theorem bind {f : α → Effect σ ε α'} {g : β → Effect τ ε β'} (hx : Projects π v x y)
    (hf : ∀ a, Projects π v' (f a) (g (v a))) : Projects π v' (x >>= f) (y >>= g) := by
  intro s
  obtain ⟨hres, hst⟩ := hx s
  rw [exec_bind, exec_bind]
  rcases hexec : exec x s with ⟨r, s'⟩
  rcases hexec' : exec y (π s) with ⟨r', t⟩
  rw [hexec, hexec'] at hres hst
  cases hres
  cases hst
  cases r with
  | ok a => exact hf a s'
  | error e => exact ⟨rfl, rfl⟩

/-- What `π` does not see may come in between. -/
theorem bind_unseen {g : σ → σ} {f : PUnit → Effect σ ε α} (h : ∀ s, π (g s) = π s)
    (hf : Projects π v (f ⟨⟩) y) : Projects π v (modify g >>= f) y := by
  intro s
  rw [exec_bind_ok (exec_modify _ _), ← h s]
  exact hf (g s)

theorem bind_reads {g : σ → α'} {f : α' → Effect σ ε α} (hf : ∀ a, Projects π v (f a) y) :
    Projects π v (Effect.reads g >>= f) y := by
  intro s
  rw [exec_bind_ok (exec_reads _ _)]
  exact hf (g s) s

/-- A handler starts where the body failed. -/
theorem tryCatch {h : ε → Effect σ ε α} {h' : ε → Effect τ ε β} (hx : Projects π v x y)
    (hh : ∀ e, Projects π v (h e) (h' e)) :
    Projects π v (MonadExcept.tryCatch x h) (MonadExcept.tryCatch y h') := by
  intro s
  obtain ⟨hres, hst⟩ := hx s
  rw [exec_tryCatch, exec_tryCatch]
  rcases hexec : exec x s with ⟨r, s'⟩
  rcases hexec' : exec y (π s) with ⟨r', t⟩
  rw [hexec, hexec'] at hres hst
  cases hres
  cases hst
  cases r with
  | ok a => exact ⟨rfl, rfl⟩
  | error e => exact hh e s'

end Projects

end

end Effect

end ProtocolEnforcer
