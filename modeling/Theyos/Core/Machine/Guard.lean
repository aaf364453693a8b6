import Mathlib.Data.List.Basic
import Mathlib.Data.Option.Basic

/-!
# Guarded computations

Sequences of early exits in `Except` and `Option`: a guard that fails with a given error, an option read with a
given error, a check whose success stays with the value, a check of every element of a list, and
an update of the first matching one.
-/

namespace Theyos.Machine

universe u v

variable {ε : Type u} {α β : Type v}

/-- Exit with `e` unless `p` holds. -/
def require (p : Prop) [Decidable p] (e : ε) : Except ε Unit :=
  if p then .ok () else .error e

/-- Read an option, exiting with `e` when there is nothing to read. -/
def okOr (o : Option α) (e : ε) : Except ε α :=
  match o with
  | some a => .ok a
  | none => .error e

/-- The values that pass a check. -/
abbrev Checked (check : α → Except ε Unit) : Type v := { a // check a = .ok () }

/-- Keep a value together with the proof that it passed a check. -/
def validate (check : α → Except ε Unit) (a : α) : Except ε (Checked check) :=
  match h : check a with
  | .ok () => .ok ⟨a, h⟩
  | .error e => .error e

/-- Update the first element satisfying `p`, exiting with `missing` when there is none. -/
def updateFirst (p : α → Bool) (f : α → Except ε α) (missing : ε) : List α → Except ε (List α)
  | [] => .error missing
  | x :: xs =>
    if p x then (f x).map (· :: xs) else (updateFirst p f missing xs).map (x :: ·)

theorem require_eq_ok {p : Prop} [Decidable p] {e : ε} {u : Unit} : require p e = .ok u ↔ p := by
  unfold require
  by_cases h : p <;> simp [h]

theorem okOr_eq_ok {o : Option α} {e : ε} {a : α} : okOr o e = .ok a ↔ o = some a := by
  cases o <;> simp [okOr]

theorem validate_eq_ok {check : α → Except ε Unit} {a : α} {b : Checked check} :
    validate check a = .ok b ↔ b.1 = a := by
  obtain ⟨b, hb⟩ := b
  unfold validate
  split
  · simp [eq_comm]
  · rename_i e he
    simp only [reduceCtorEq, false_iff]
    rintro rfl
    cases hb.symm.trans he

variable {x : Except ε α}

theorem bind_eq_ok {f : α → Except ε β} {b : β} :
    x >>= f = .ok b ↔ ∃ a, x = .ok a ∧ f a = .ok b := by
  cases x with
  | error e | ok a => simp [bind, Except.bind]

theorem pure_eq_ok {a b : α} : (pure a : Except ε α) = .ok b ↔ a = b := by
  simp [pure, Except.pure]

theorem map_eq_ok {f : α → β} {b : β} :
    x.map f = .ok b ↔ ∃ a, x = .ok a ∧ f a = b := by
  cases x <;> simp [Except.map]

theorem mapError_eq_ok {ε' : Type*} {f : ε → ε'} {a : α} :
    x.mapError f = .ok a ↔ x = .ok a := by
  cases x <;> simp [Except.mapError]

/-- When a computation succeeds, as one set of rules. -/
theorem eq_ok_iff :
    (∀ {ε α β : Type} {x : Except ε α} {f : α → Except ε β} {b : β},
      x >>= f = .ok b ↔ ∃ a, x = .ok a ∧ f a = .ok b) ∧
    (∀ {ε : Type} {p : Prop} [Decidable p] {e : ε} {u : Unit}, require p e = .ok u ↔ p) ∧
    (∀ {ε α : Type} {o : Option α} {e : ε} {a : α}, okOr o e = .ok a ↔ o = some a) ∧
    (∀ {ε ε' α : Type} {x : Except ε α} {f : ε → ε'} {a : α}, x.mapError f = .ok a ↔ x = .ok a) ∧
    (∀ {ε α : Type} {a b : α}, (pure a : Except ε α) = .ok b ↔ a = b) ∧
    ∀ {p : Unit → Prop}, (∃ u, p u) ↔ p () :=
  ⟨bind_eq_ok, require_eq_ok, okOr_eq_ok, mapError_eq_ok, pure_eq_ok, Unique.exists_iff⟩

/-- When an optional computation has a result, as one set of rules. -/
theorem eq_some_iff :
    (∀ {α β : Type} {x : Option α} {f : α → Option β} {b : β},
      x >>= f = some b ↔ ∃ a, x = some a ∧ f a = some b) ∧
    (∀ {p : Prop} [Decidable p] {u : Unit}, guard p = some u ↔ p) ∧
    ∀ {α : Type} {a b : α}, pure a = some b ↔ a = b :=
  ⟨Option.bind_eq_some_iff, Option.guard_eq_some' _, Option.some_inj⟩

/-- A check of every element passes when each one passes it. -/
theorem forM_eq_ok {check : α → Except ε PUnit} {xs : List α} {u : PUnit} :
    xs.forM check = .ok u ↔ ∀ x ∈ xs, check x = .ok ⟨⟩ := by
  induction xs with
  | nil => simp [List.forM, pure, Except.pure]
  | cons x xs ih =>
    rw [List.forM, bind_eq_ok, List.forall_mem_cons]
    exact ⟨fun ⟨_, hx, hxs⟩ => ⟨hx, ih.mp hxs⟩, fun ⟨hx, hxs⟩ => ⟨_, hx, ih.mpr hxs⟩⟩

/-- The computation never exits with `e`. -/
def Avoids (e : ε) (x : Except ε α) : Prop := x ≠ .error e

section

variable {e e' : ε}

theorem Avoids.bind {x : Except ε α} {f : α → Except ε β} (hx : Avoids e x)
    (hf : ∀ a, Avoids e (f a)) : Avoids e (x >>= f) := by
  cases x with
  | error e₀ => exact fun h => hx (congrArg _ (Except.error.inj h))
  | ok a => exact hf a

theorem Avoids.pure (a : α) : Avoids e (Pure.pure a) := nofun

theorem Avoids.require {p : Prop} [Decidable p] (h : e' ≠ e) : Avoids e (require p e') := by
  unfold Machine.require
  split
  · exact nofun
  · exact fun he => h (Except.error.inj he)

theorem Avoids.require_bind {p : Prop} [Decidable p] {β : Type} {f : Unit → Except ε β}
    (h : e' ≠ e) (hf : Avoids e (f ())) : Avoids e (Machine.require p e' >>= f) :=
  (Avoids.require h).bind fun _ => hf

theorem Avoids.okOr {o : Option α} (h : e' ≠ e) : Avoids e (okOr o e') := by
  cases o with
  | none => exact fun he => h (Except.error.inj he)
  | some a => exact nofun

theorem Avoids.ok (a : α) : Avoids e (.ok a : Except ε α) := nofun

theorem Avoids.ite {p : Prop} [Decidable p] {x y : Except ε α} (hx : Avoids e x)
    (hy : Avoids e y) : Avoids e (if p then x else y) := by
  split
  · exact hx
  · exact hy

theorem Avoids.forM {check : α → Except ε PUnit} {xs : List α} (h : ∀ x ∈ xs, Avoids e (check x)) :
    Avoids e (xs.forM check) := by
  induction xs with
  | nil => exact Avoids.pure _
  | cons x xs ih =>
    exact (h x List.mem_cons_self).bind fun _ => ih fun y hy => h y (List.mem_cons_of_mem _ hy)

theorem Avoids.mapError {ε₀ : Type*} {x : Except ε₀ α} {f : ε₀ → ε} (h : ∀ e₀, f e₀ ≠ e) :
    Avoids e (x.mapError f) := by
  cases x with
  | error e₀ => exact fun he => h e₀ (Except.error.inj he)
  | ok a => exact nofun

end

/-- A successful update replaces exactly one element, the first one that matches. -/
theorem updateFirst_eq_ok {p : α → Bool} {f : α → Except ε α} {missing : ε} {xs ys : List α} :
    updateFirst p f missing xs = .ok ys ↔
      ∃ before x y after, xs = before ++ x :: after ∧ ys = before ++ y :: after ∧
        (∀ z ∈ before, p z = false) ∧ p x = true ∧ f x = .ok y := by
  constructor
  · intro h
    induction xs generalizing ys with
    | nil => simp [updateFirst] at h
    | cons x xs ih =>
      unfold updateFirst at h
      split at h
      · rename_i hx
        obtain ⟨y, hy, rfl⟩ := map_eq_ok.mp h
        exact ⟨[], x, y, xs, rfl, rfl, by simp, hx, hy⟩
      · rename_i hx
        obtain ⟨zs, hz, rfl⟩ := map_eq_ok.mp h
        obtain ⟨before, a, b, after, rfl, rfl, hb, hab⟩ := ih hz
        refine ⟨x :: before, a, b, after, rfl, rfl, List.forall_mem_cons.mpr ⟨?_, hb⟩, hab⟩
        simpa using hx
  · rintro ⟨before, x, y, after, rfl, rfl, hb, hx, hf⟩
    induction before with
    | nil => simp [updateFirst, hx, hf, Except.map]
    | cons c cs ih =>
      obtain ⟨hc, hcs⟩ := List.forall_mem_cons.mp hb
      simp [updateFirst, hc, ih hcs, Except.map]

end Theyos.Machine
