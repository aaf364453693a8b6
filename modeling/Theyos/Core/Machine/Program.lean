import Theyos.Core.Machine.Guard

/-!
# Programs over a state

A program reads and writes a state and returns a value or an error; what it wrote before an error
stays written. `Ends P x Q E` says that from every state in `P` the program ends in `Q` with its
value, or in `E` with its error; `Meets` leaves open which error it is.
-/

namespace Theyos.Machine

/-- A program over the state `σ`. -/
abbrev Program (ε σ α : Type) := ExceptT ε (StateM σ) α

namespace Program

variable {ε σ α β : Type}

/-- The result and the state after a program. -/
def exec (x : Program ε σ α) (s : σ) : Except ε α × σ := x.run.run s

@[simp] theorem exec_get (s : σ) : exec (get : Program ε σ σ) s = (.ok s, s) := rfl

theorem exec_bind (x : Program ε σ α) (f : α → Program ε σ β) (s : σ) :
    exec (x >>= f) s =
      match exec x s with
      | (.ok a, t) => exec (f a) t
      | (.error e, t) => (.error e, t) := by
  simp only [exec, ExceptT.run_bind, StateT.run_bind]
  rcases StateT.run x.run s with ⟨_ | _, _⟩ <;> rfl

theorem exec_map (f : α → β) (x : Program ε σ α) (s : σ) :
    exec (f <$> x) s = ((exec x s).1.map f, (exec x s).2) := by
  rw [map_eq_pure_bind, exec_bind]
  rcases exec x s with ⟨_ | _, _⟩ <;> rfl

variable {ε' : Type}

/-- Rename a program's errors. -/
def adapt (f : ε → ε') (x : Program ε σ α) : Program ε' σ α := ExceptT.adapt f x

theorem exec_adapt (f : ε → ε') (x : Program ε σ α) (s : σ) :
    exec (adapt f x) s = ((exec x s).1.mapError f, (exec x s).2) := rfl

/-- A computation that does not touch the state. -/
def ofExcept (x : Except ε α) : Program ε σ α := ExceptT.mk (pure x)

@[simp] theorem exec_ofExcept (x : Except ε α) (s : σ) : exec (ofExcept x) s = (x, s) := rfl

/-- Fail with `e` unless `p` holds. -/
def require (p : Prop) [Decidable p] (e : ε) : Program ε σ Unit :=
  ofExcept (Machine.require p e)

@[simp] theorem exec_modify (f : σ → σ) (s : σ) :
    exec (modify f : Program ε σ PUnit) s = (.ok ⟨⟩, f s) := rfl

variable (x : Program ε σ α)

/-- Update the state when a program fails; the failure is passed on. -/
def onError (f : σ → σ) : Program ε σ α :=
  ExceptT.mk do
    let result ← x.run
    match result with
    | .ok a => return .ok a
    | .error e =>
      modify f
      return .error e

theorem exec_onError (f : σ → σ) (s : σ) :
    exec (x.onError f) s =
      match exec x s with
      | (.ok a, t) => (.ok a, t)
      | (.error e, t) => (.error e, f t) := by
  rcases h : exec x s with ⟨_ | _, t⟩ <;>
  · simp only [exec] at h
    simp only [exec, onError, ExceptT.run_mk, StateT.run_bind, h]
    rfl

/-- Run a program and go on with its result, whether a value or an error. -/
def attempt : Program ε' σ (Except ε α) :=
  ExceptT.mk do return .ok (← x.run)

theorem exec_attempt (s : σ) :
    exec (attempt x : Program ε' σ (Except ε α)) s = (.ok (exec x s).1, (exec x s).2) := rfl

/-- Run a program on a part of a larger state. -/
def zoom {τ : Type} (part : τ → σ) (put : σ → τ → τ) (x : Program ε σ α) : Program ε τ α :=
  ExceptT.mk fun t => ((exec x (part t)).1, put (exec x (part t)).2 t)

theorem exec_zoom {τ : Type} (part : τ → σ) (put : σ → τ → τ) (x : Program ε σ α) (t : τ) :
    exec (zoom part put x) t = ((exec x (part t)).1, put (exec x (part t)).2 t) := rfl

end Program

open Program

variable {ε σ α β : Type} {P : σ → Prop} {f : α → Program ε σ β}

/-- From `P`, the program ends in `Q` with its value or in `E` with an error. -/
def Ends (P : σ → Prop) (x : Program ε σ α) (Q : α → σ → Prop) (E : ε → σ → Prop) : Prop :=
  ∀ s, P s →
    match x.exec s with
    | (.ok a, t) => Q a t
    | (.error e, t) => E e t

namespace Ends

variable {E : ε → σ → Prop}

variable {Q : α → σ → Prop}

theorem pure {a : α} (h : ∀ s, P s → Q a s) :
    Ends P (Pure.pure a : Program ε σ α) Q E := h

variable {e : ε}

theorem throw (h : ∀ s, P s → E e s) :
    Ends P (MonadExcept.throw e : Program ε σ α) Q E := h

variable {R : β → σ → Prop} {x : Program ε σ α}

theorem bind (hx : Ends P x Q E) (hf : ∀ a, Ends (Q a) (f a) R E) :
    Ends P (x >>= f) R E := by
  intro s hs
  have h := hx s hs
  rw [exec_bind]
  rcases hexec : x.exec s with ⟨_ | a, t⟩
  · rw [hexec] at h
    exact h
  · rw [hexec] at h
    exact hf a t h

section

variable {E' : ε → σ → Prop}

theorem mono {P' : σ → Prop} {Q' : α → σ → Prop} (h : Ends P x Q E)
    (hP : ∀ s, P' s → P s) (hQ : ∀ a s, Q a s → Q' a s) (hE : ∀ e s, E e s → E' e s) :
    Ends P' x Q' E' := by
  intro s hs
  have hx := h s (hP s hs)
  rcases hexec : x.exec s with ⟨e | a, t⟩
  · rw [hexec] at hx
    exact hE e t hx
  · rw [hexec] at hx
    exact hQ a t hx

theorem weaken {Q' : α → σ → Prop} (h : Ends P x Q E)
    (hQ : ∀ a s, Q a s → Q' a s) (hE : ∀ e s, E e s → E' e s) : Ends P x Q' E' :=
  h.mono (fun _ hs => hs) hQ hE

theorem weakenError (h : Ends P x Q E) (hE : ∀ e s, E e s → E' e s) : Ends P x Q E' :=
  h.weaken (fun _ _ hs => hs) hE

end

variable {p : Prop}

/-- A precondition that does not depend on the state can be assumed. -/
theorem assume (h : p → Ends P x Q E) :
    Ends (fun s => p ∧ P s) x Q E := fun s hs => h hs.1 s hs.2

theorem get_bind {f : σ → Program ε σ β} (h : ∀ s, P s → Ends (· = s) (f s) R E) :
    Ends P (MonadState.get >>= f) R E :=
  fun s hs => h s hs s rfl

theorem ofExcept {x : Except ε α} (hok : ∀ a, x = .ok a → ∀ s, P s → Q a s)
    (herror : ∀ e, x = .error e → ∀ s, P s → E e s) : Ends P (Program.ofExcept x) Q E := by
  intro s hs
  cases x with
  | ok a => exact hok a rfl s hs
  | error e => exact herror e rfl s hs

theorem ofExcept_bind {x : Except ε α}
    (hok : ∀ a, x = .ok a → Ends P (f a) R E) (herror : ∀ e, x = .error e → ∀ s, P s → E e s) :
    Ends P (Program.ofExcept x >>= f) R E := by
  refine .bind ?_ fun a => .assume (hok a)
  exact .ofExcept (fun a ha s hs => ⟨ha, hs⟩) herror

theorem require [Decidable p] {Q : Unit → σ → Prop} (hok : p → ∀ s, P s → Q () s)
    (herror : ∀ s, P s → E e s) :
    Ends P (Program.require p e) Q E := by
  refine .ofExcept (fun _ h => hok (require_eq_ok.mp h)) fun e' h => ?_
  unfold Machine.require at h
  split at h
  · cases h
  · exact Except.error.inj h ▸ herror

theorem require_bind [Decidable p] {f : Unit → Program ε σ β} (hok : p → Ends P (f ()) R E)
    (herror : ∀ s, P s → E e s) :
    Ends P (Program.require p e >>= f) R E := by
  refine .bind ?_ fun _ => .assume hok
  exact .require (fun hp s hs => ⟨hp, hs⟩) herror

variable {ε' : Type}

theorem onError {f : σ → σ} (hx : Ends P x Q E) :
    Ends P (x.onError f) Q fun e t => ∃ s, E e s ∧ t = f s := by
  intro s hs
  have h := hx s hs
  rw [exec_onError]
  rcases hexec : x.exec s with ⟨_ | a, t⟩ <;> rw [hexec] at h
  · exact ⟨t, h, rfl⟩
  · exact h

/-- What every end satisfies holds of the state that is left. -/
theorem exec {I : σ → Prop} (h : Ends P x (fun _ => I) fun _ => I) {s : σ} (hs : P s) :
    I (x.exec s).2 := by
  have hx := h s hs
  rcases hexec : x.exec s with ⟨_ | _, _⟩ <;>
  · rw [hexec] at hx
    exact hx

theorem error (h : Ends P x Q E) {s : σ} (hs : P s) (he : (x.exec s).1 = .error e) :
    E e (x.exec s).2 := by
  have hx := h s hs
  rcases hexec : x.exec s with ⟨_ | _, _⟩ <;> rw [hexec] at hx he <;> cases he
  exact hx

section

variable {E' : ε' → σ → Prop}

theorem adapt {f : ε → ε'} (h : Ends P x Q fun e => E' (f e)) : Ends P (x.adapt f) Q E' := by
  intro s hs
  have hx := h s hs
  rw [exec_adapt]
  rcases hexec : x.exec s with ⟨_ | a, t⟩ <;>
  · rw [hexec] at hx
    exact hx

theorem update_bind {M : σ → Prop} {g : σ → σ} {f : PUnit → Program ε σ β}
    (hg : ∀ s, P s → M (g s)) (hf : Ends M (f ⟨⟩) R E) :
    Ends P (modify g >>= f) R E :=
  .bind (Q := fun _ => M) hg fun _ => hf

theorem attempt (hx : Ends P x Q E) : Ends P (x.attempt : Program ε' σ (Except ε α))
      (fun r s => match r with
        | .ok a => Q a s
        | .error e => E e s) E' := by
  intro s hs
  have h := hx s hs
  rw [exec_attempt]
  rcases hexec : x.exec s with ⟨_ | a, t⟩ <;>
  · rw [hexec] at h
    exact h

theorem attempt_bind {f : Except ε α → Program ε' σ β} (hx : Ends P x Q E)
    (hok : ∀ a, Ends (Q a) (f (.ok a)) R E') (herror : ∀ e, Ends (E e) (f (.error e)) R E') :
    Ends P (x.attempt >>= f) R E' := by
  refine .bind (.attempt hx) fun r => ?_
  cases r with
  | ok a => exact hok a
  | error e => exact herror e

end

theorem zoom {τ : Type} {part : τ → σ} {put : σ → τ → τ} {P' : τ → Prop} {Q' : α → τ → Prop}
    {E' : ε → τ → Prop}
    (h : ∀ t, P' t → Ends (· = part t) x (fun a s => Q' a (put s t)) (fun e s => E' e (put s t))) :
    Ends P' (Program.zoom part put x) Q' E' := by
  intro t ht
  have hx := h t ht _ rfl
  rw [exec_zoom]
  rcases hexec : x.exec (part t) with ⟨_ | a, s⟩ <;>
  · rw [hexec] at hx
    exact hx

end Ends

variable {E : σ → Prop}

/-- From `P`, the program ends in `Q` with its value or in `E` with some error. -/
def Meets (P : σ → Prop) (x : Program ε σ α) (Q : α → σ → Prop) (E : σ → Prop) : Prop :=
  Ends P x Q fun _ => E

namespace Meets

variable {Q : α → σ → Prop}

theorem pure {a : α} (h : ∀ s, P s → Q a s) :
    Meets P (Pure.pure a : Program ε σ α) Q E := h

theorem throw {e : ε} (h : ∀ s, P s → E s) :
    Meets P (MonadExcept.throw e : Program ε σ α) Q E := h

variable {R : β → σ → Prop} {x : Program ε σ α}

theorem bind (hx : Meets P x Q E) (hf : ∀ a, Meets (Q a) (f a) R E) :
    Meets P (x >>= f) R E :=
  Ends.bind hx hf

theorem map {Q : β → σ → Prop} {f : α → β} (hx : Meets P x (fun a => Q (f a)) E) :
    Meets P (f <$> x) Q E := by
  exact hx.bind fun a => .pure fun _ h => h

theorem mono {P' : σ → Prop} {Q' : α → σ → Prop} (h : Meets P x Q E) (hP : ∀ s, P' s → P s)
    (hQ : ∀ a s, Q a s → Q' a s) : Meets P' x Q' E :=
  Ends.mono h hP hQ fun _ _ h => h

theorem adapt {ε' : Type} (h : Meets P x Q E) (f : ε → ε') : Meets P (x.adapt f) Q E :=
  Ends.adapt h

/-- A precondition that does not depend on the state can be assumed. -/
theorem assume {p : Prop} (h : p → Meets P x Q E) :
    Meets (fun s => p ∧ P s) x Q E := fun s hs => h hs.1 s hs.2

theorem update {Q : PUnit → σ → Prop} {f : σ → σ} (h : ∀ s, P s → Q ⟨⟩ (f s)) :
    Meets P (modify f : Program ε σ PUnit) Q E := h

theorem ofExcept {x : Except ε α} (hok : ∀ a, x = .ok a → ∀ s, P s → Q a s)
    (herror : ∀ s, P s → E s) : Meets P (Program.ofExcept x) Q E :=
  Ends.ofExcept hok fun _ _ => herror

theorem onError {E' : σ → Prop} {f : σ → σ} (hx : Meets P x Q E') (hf : ∀ s, E' s → E (f s)) :
    Meets P (x.onError f) Q E :=
  Ends.weakenError (.onError hx) fun _ _ ⟨_, h, ht⟩ => ht ▸ hf _ h

theorem zoom {τ : Type} {part : τ → σ} {put : σ → τ → τ} {P' E' : τ → Prop} {Q' : α → τ → Prop}
    (h : ∀ t, P' t → Meets (· = part t) x (fun a s => Q' a (put s t)) (fun s => E' (put s t))) :
    Meets P' (Program.zoom part put x) Q' E' :=
  Ends.zoom h

theorem get_bind {f : σ → Program ε σ β} (h : ∀ s, P s → Meets (· = s) (f s) R E) :
    Meets P (MonadState.get >>= f) R E :=
  Ends.get_bind h

theorem require_bind {p : Prop} [Decidable p] {e : ε} {f : Unit → Program ε σ β}
    (hok : p → Meets P (f ()) R E) (herror : ∀ s, P s → E s) :
    Meets P (Program.require p e >>= f) R E :=
  Ends.require_bind hok herror

theorem ofExcept_bind {x : Except ε α}
    (hok : ∀ a, x = .ok a → Meets P (f a) R E) (herror : ∀ s, P s → E s) :
    Meets P (Program.ofExcept x >>= f) R E :=
  Ends.ofExcept_bind hok fun _ _ => herror

theorem update_bind {M : σ → Prop} {g : σ → σ} {f : PUnit → Program ε σ β}
    (hg : ∀ s, P s → M (g s)) (hf : Meets M (f ⟨⟩) R E) :
    Meets P (modify g >>= f) R E :=
  .bind (.update hg) fun _ => hf

/-- A precondition can be opened by the witness it provides. -/
theorem of_exists {ι : Type} {P' : ι → σ → Prop} (hP : ∀ s, P s → ∃ i, P' i s)
    (h : ∀ i, Meets (P' i) x Q E) : Meets P x Q E := by
  intro s hs
  obtain ⟨i, hi⟩ := hP s hs
  exact h i s hi

end Meets

variable {I : σ → Prop}

/-- The program keeps an invariant, whether it succeeds or fails. -/
def Keeps (I : σ → Prop) (x : Program ε σ α) : Prop := Meets I x (fun _ => I) I

namespace Keeps

variable {x : Program ε σ α}

theorem exec (h : Keeps I x) {s : σ} (hs : I s) : I (x.exec s).2 :=
  Ends.exec h hs

theorem pure (a : α) : Keeps I (Pure.pure a : Program ε σ α) := fun _ h => h

theorem throw (e : ε) : Keeps I (MonadExcept.throw e : Program ε σ α) := fun _ h => h

theorem bind (hx : Keeps I x) (hf : ∀ a, Keeps I (f a)) :
    Keeps I (x >>= f) :=
  Meets.bind hx hf

/-- What follows a read may use the invariant of what was read. -/
theorem get_bind {f : σ → Program ε σ β} (h : ∀ s, I s → Keeps I (f s)) :
    Keeps I (MonadState.get >>= f) :=
  fun s hs => h s hs s hs

theorem ofExcept (x : Except ε α) : Keeps I (Program.ofExcept x : Program ε σ α) :=
  Meets.ofExcept (fun _ _ _ h => h) fun _ h => h

theorem ofExcept_bind {x : Except ε α}
    (hf : ∀ a, x = .ok a → Keeps I (f a)) : Keeps I (Program.ofExcept x >>= f) :=
  Meets.ofExcept_bind hf fun _ h => h

theorem require_bind {p : Prop} [Decidable p] {e : ε} {f : Unit → Program ε σ β}
    (hf : p → Keeps I (f ())) : Keeps I (Program.require p e >>= f) :=
  Meets.require_bind hf fun _ h => h

theorem update {f : σ → σ} (h : ∀ s, I s → I (f s)) :
    Keeps I (modify f : Program ε σ PUnit) := h

end Keeps

end Theyos.Machine
