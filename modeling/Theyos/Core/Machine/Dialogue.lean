import Theyos.Core.Machine.Guard

/-!
# Programs that ask an environment

A dialogue asks questions, continues with the answers, and ends with a value or an error. `Yields
x r w` says that asking and being answered as in the transcript `w` it ends with `r`; nothing
restricts the answers, so a statement about every transcript is one about every environment.
-/

namespace Theyos.Machine

section

variable {Q : Type} (A : Q → Type)

/-- A question with its answer. -/
abbrev Exchange : Type := Σ q, A q

/-- The exchanges of a run, the latest last. -/
abbrev Transcript : Type := List (Exchange A)

/-- Answers every question, from the exchanges before it. -/
abbrev Environment : Type := Transcript A → (q : Q) → A q

/-- A program that asks questions of type `Q`, each answered in its own type. -/
inductive Dialogue (ε α : Type) : Type where
  | done (a : α)
  | fail (e : ε)
  | ask (q : Q) (next : A q → Dialogue ε α)

end

namespace Dialogue

variable {Q : Type} {A : Q → Type} {ε ε' α β : Type}

/-- Continue with the value of a dialogue. -/
protected def bind : Dialogue A ε α → (α → Dialogue A ε β) → Dialogue A ε β
  | done a, f => f a
  | fail e, _ => fail e
  | ask q next, f => ask q fun a => (next a).bind f

instance : Monad (Dialogue A ε) where
  pure := done
  bind := Dialogue.bind

/-- Ask one question. -/
def query (q : Q) : Dialogue A ε (A q) := ask q done

/-- A computation that asks nothing. -/
def lift : Except ε α → Dialogue A ε α
  | .ok a => done a
  | .error e => fail e

/-- Fail with `e` unless `p` holds. -/
def require (p : Prop) [Decidable p] (e : ε) : Dialogue A ε Unit := lift (Machine.require p e)

/-- Replace the outcome of a dialogue. -/
def finish (g : Except ε α → Except ε' β) : Dialogue A ε α → Dialogue A ε' β
  | done a => lift (g (.ok a))
  | fail e => lift (g (.error e))
  | ask q next => ask q fun a => (next a).finish g

/-- Rename the errors of a dialogue. -/
def adapt (f : ε → ε') : Dialogue A ε α → Dialogue A ε' α := finish (Except.mapError f)

/-- Turn the outcome of a dialogue into a value. -/
def attempt : Dialogue A ε α → Dialogue A ε' (Except ε α) := finish .ok

/-- The dialogue ends with the outcome `r` after the exchanges `w`. -/
inductive Yields : Dialogue A ε α → Except ε α → Transcript A → Prop
  | done (a : α) : Yields (.done a) (.ok a) []
  | fail (e : ε) : Yields (.fail e) (.error e) []
  | ask {q : Q} {next : A q → Dialogue A ε α} {r : Except ε α} {w : Transcript A} (a : A q)
      (h : Yields (next a) r w) : Yields (.ask q next) r (⟨q, a⟩ :: w)

section

variable {r : Except ε α} {w : Transcript A}

theorem yields_pure {a : α} : Yields (pure a : Dialogue A ε α) r w ↔ r = .ok a ∧ w = [] := by
  constructor
  · intro h
    cases h
    exact ⟨rfl, rfl⟩
  · rintro ⟨rfl, rfl⟩
    exact .done a

variable {e : ε}

theorem yields_fail : Yields (fail e : Dialogue A ε α) r w ↔ r = .error e ∧ w = [] := by
  constructor
  · intro h
    cases h
    exact ⟨rfl, rfl⟩
  · rintro ⟨rfl, rfl⟩
    exact .fail e

theorem yields_query {q : Q} {r : Except ε (A q)} :
    Yields (query q) r w ↔ ∃ a, r = .ok a ∧ w = [⟨q, a⟩] := by
  constructor
  · rintro (_ | _ | ⟨a, h⟩)
    cases h
    exact ⟨a, rfl, rfl⟩
  · rintro ⟨a, rfl, rfl⟩
    exact .ask a (.done a)

theorem yields_lift {x : Except ε α} : Yields (lift x : Dialogue A ε α) r w ↔ r = x ∧ w = [] := by
  cases x with
  | ok a => exact yields_pure
  | error e => exact yields_fail

theorem yields_require {p : Prop} [Decidable p] {u : Unit} :
    Yields (require p e : Dialogue A ε Unit) (.ok u) w ↔ p ∧ w = [] := by
  rw [require, yields_lift, eq_comm, require_eq_ok]

variable {w : Transcript A}

variable {x : Dialogue A ε α} {f : α → Dialogue A ε β}

/-- An outcome of a sequence is an error of its first part, or an outcome of its second part
after a value of the first. -/
theorem yields_bind {r : Except ε β} :
    Yields (x >>= f) r w ↔ (∃ e, r = .error e ∧ Yields x (.error e) w) ∨
      ∃ a w₁ w₂, Yields x (.ok a) w₁ ∧ Yields (f a) r w₂ ∧ w = w₁ ++ w₂ := by
  constructor
  · intro h
    induction x generalizing w with
    | done a => exact .inr ⟨a, [], w, .done a, h, rfl⟩
    | fail e =>
      cases h
      exact .inl ⟨e, rfl, .fail e⟩
    | ask q next ih =>
      rcases h with _ | _ | ⟨a, h⟩
      rcases ih a h with ⟨e, rfl, he⟩ | ⟨b, w₁, w₂, hx, hf, rfl⟩
      · exact .inl ⟨e, rfl, .ask a he⟩
      · exact .inr ⟨b, ⟨q, a⟩ :: w₁, w₂, .ask a hx, hf, rfl⟩
  · rintro (⟨e, rfl, h⟩ | ⟨a, w₁, w₂, hx, hf, rfl⟩)
    · induction x generalizing w with
      | done a => cases h
      | fail e' =>
        cases h
        exact .fail e
      | ask q next ih =>
        rcases h with _ | _ | ⟨a, h⟩
        exact .ask a (ih a h)
    · induction x generalizing w₁ with
      | done b =>
        cases hx
        exact hf
      | fail e => cases hx
      | ask q next ih =>
        rcases hx with _ | _ | ⟨b, hx⟩
        exact .ask b (ih b _ hx)

variable {b : β}

theorem yields_bind_ok :
    Yields (x >>= f) (.ok b) w ↔
      ∃ a w₁ w₂, Yields x (.ok a) w₁ ∧ Yields (f a) (.ok b) w₂ ∧ w = w₁ ++ w₂ := by
  rw [yields_bind]
  simp

theorem yields_query_bind {q : Q} {f : A q → Dialogue A ε β} {r : Except ε β} :
    Yields (query q >>= f) r w ↔ ∃ a w', Yields (f a) r w' ∧ w = ⟨q, a⟩ :: w' := by
  constructor
  · rintro (_ | _ | ⟨a, h⟩)
    exact ⟨a, _, h, rfl⟩
  · rintro ⟨a, w', h, rfl⟩
    exact .ask a h

theorem yields_lift_bind {x : Except ε α} :
    Yields (lift x >>= f) (.ok b) w ↔ ∃ a, x = .ok a ∧ Yields (f a) (.ok b) w := by
  simp only [yields_bind_ok, yields_lift]
  grind

theorem yields_require_bind {p : Prop} [Decidable p] {f : Unit → Dialogue A ε β} :
    Yields (require p e >>= f) (.ok b) w ↔ p ∧ Yields (f ()) (.ok b) w := by
  simp only [require, yields_lift_bind, require_eq_ok]
  exact ⟨fun ⟨_, hp, h⟩ => ⟨hp, h⟩, fun ⟨hp, h⟩ => ⟨(), hp, h⟩⟩

theorem yields_finish {g : Except ε α → Except ε' β} {r : Except ε' β} :
    Yields (x.finish g) r w ↔ ∃ r', Yields x r' w ∧ r = g r' := by
  constructor
  · intro h
    induction x generalizing w with
    | done a =>
      obtain ⟨rfl, rfl⟩ := yields_lift.mp h
      exact ⟨_, .done a, rfl⟩
    | fail e =>
      obtain ⟨rfl, rfl⟩ := yields_lift.mp h
      exact ⟨_, .fail e, rfl⟩
    | ask q next ih =>
      rcases h with _ | _ | ⟨a, h⟩
      obtain ⟨r', hr, rfl⟩ := ih a h
      exact ⟨r', .ask a hr, rfl⟩
  · rintro ⟨r', h, rfl⟩
    induction h with
    | done | fail => exact yields_lift.mpr ⟨rfl, rfl⟩
    | ask a _ ih => exact .ask a ih

theorem yields_adapt_ok {f : ε → ε'} {a : α} :
    Yields (x.adapt f) (.ok a) w ↔ Yields x (.ok a) w := by
  rw [adapt, yields_finish]
  constructor
  · rintro ⟨_ | b, h, hr⟩
    · cases hr
    · cases hr
      exact h
  · exact fun h => ⟨_, h, rfl⟩

theorem yields_attempt_bind {f : Except ε α → Dialogue A ε' β} {r : Except ε' β} :
    Yields (x.attempt >>= f) r w ↔
      ∃ r' w₁ w₂, Yields x r' w₁ ∧ Yields (f r') r w₂ ∧ w = w₁ ++ w₂ := by
  simp only [attempt, yields_bind, yields_finish]
  grind

end

/-- The dialogue returned the value, in a stretch of the transcript. -/
def Ran (x : Dialogue A ε α) (a : α) (w : Transcript A) : Prop :=
  ∃ v, Yields x (.ok a) v ∧ v <:+: w

theorem Yields.ran {x : Dialogue A ε α} {a : α} {v w : Transcript A} (h : Yields x (.ok a) v)
    (hv : v <:+: w) : Ran x a w :=
  ⟨v, h, hv⟩

namespace Ran

variable {x : Dialogue A ε α} {f : α → Dialogue A ε β} {a : α} {b : β} {e : ε} {w : Transcript A}

protected theorem bind (h : Ran (x >>= f) b w) : ∃ a, Ran x a w ∧ Ran (f a) b w := by
  obtain ⟨_, h, hw⟩ := h
  obtain ⟨a, w₁, w₂, ha, hb, rfl⟩ := yields_bind_ok.mp h
  exact ⟨a, ha.ran ((List.prefix_append _ _).isInfix.trans hw),
    hb.ran ((List.suffix_append _ _).isInfix.trans hw)⟩

theorem query_bind {q : Q} {f : A q → Dialogue A ε β} (h : Ran (query q >>= f) b w) :
    ∃ a, ⟨q, a⟩ ∈ w ∧ Ran (f a) b w := by
  obtain ⟨_, h, hw⟩ := h
  obtain ⟨a, w', hb, rfl⟩ := yields_query_bind.mp h
  exact ⟨a, hw.subset List.mem_cons_self, hb.ran ((List.suffix_cons _ _).isInfix.trans hw)⟩

theorem lift_bind {x : Except ε α} (h : Ran (lift x >>= f) b w) :
    ∃ a, x = .ok a ∧ Ran (f a) b w := by
  obtain ⟨_, h, hw⟩ := h
  exact (yields_lift_bind.mp h).imp fun _ ha => ⟨ha.1, ha.2.ran hw⟩

theorem require_bind {p : Prop} [Decidable p] {f : Unit → Dialogue A ε β}
    (h : Ran (require p e >>= f) b w) : p ∧ Ran (f ()) b w := by
  obtain ⟨_, h, hw⟩ := h
  exact (yields_require_bind.mp h).imp_right (·.ran hw)

theorem lift_eq {x : Except ε α} (h : Ran (lift x) a w) : x = .ok a :=
  (yields_lift.mp h.choose_spec.1).1.symm

theorem pure_eq {a' : α} (h : Ran (pure a : Dialogue A ε α) a' w) : a' = a :=
  Except.ok.inj (yields_pure.mp h.choose_spec.1).1

theorem not_fail (h : Ran (fail e : Dialogue A ε α) a w) : False :=
  nomatch (yields_fail.mp h.choose_spec.1).1

theorem adapt {g : ε → ε'} (h : Ran (x.adapt g) a w) : Ran x a w :=
  h.imp fun _ hv => ⟨yields_adapt_ok.mp hv.1, hv.2⟩

end Ran

/-- The outcome and the exchanges in an environment, after the exchanges `t`. -/
def run (env : Environment A) : Transcript A → Dialogue A ε α → Except ε α × Transcript A
  | _, done a => (.ok a, [])
  | _, fail e => (.error e, [])
  | t, ask q next =>
    let a := env t q
    let (r, w) := run env (t ++ [⟨q, a⟩]) (next a)
    (r, ⟨q, a⟩ :: w)

/-- A run in an environment is a run. -/
theorem run_yields (env : Environment A) (t : Transcript A) (x : Dialogue A ε α) :
    Yields x (run env t x).1 (run env t x).2 := by
  induction x generalizing t with
  | done a => exact .done a
  | fail e => exact .fail e
  | ask q next ih => exact .ask (env t q) (ih _ _)

/-- Every exchange of every run lies in `p`. -/
def Says (p : Exchange A → Prop) (x : Dialogue A ε α) : Prop :=
  ∀ r w, Yields x r w → ∀ e ∈ w, p e

namespace Says

variable {p : Exchange A → Prop}

theorem pure (a : α) : Says p (Pure.pure a : Dialogue A ε α) := by
  intro r w h
  rw [(yields_pure.mp h).2]
  exact nofun

theorem fail (e : ε) : Says p (Dialogue.fail e : Dialogue A ε α) := by
  intro r w h
  rw [(yields_fail.mp h).2]
  exact nofun

theorem lift (x : Except ε α) : Says p (Dialogue.lift x : Dialogue A ε α) := by
  cases x with
  | ok a => exact pure a
  | error e => exact fail e

theorem require (q : Prop) [Decidable q] (e : ε) :
    Says p (Dialogue.require q e : Dialogue A ε Unit) :=
  lift _

theorem query {q : Q} (h : ∀ a, p ⟨q, a⟩) : Says p (Dialogue.query q : Dialogue A ε (A q)) := by
  intro r w hw e he
  obtain ⟨a, rfl, rfl⟩ := yields_query.mp hw
  rw [List.mem_singleton.mp he]
  exact h a

variable {x : Dialogue A ε α}

theorem bind {f : α → Dialogue A ε β} (hx : Says p x) (hf : ∀ a, Says p (f a)) :
    Says p (x >>= f) := by
  intro r w h
  rcases yields_bind.mp h with ⟨e, rfl, he⟩ | ⟨a, w₁, w₂, h₁, h₂, rfl⟩
  · exact hx _ _ he
  · exact List.forall_mem_append.mpr ⟨hx _ _ h₁, hf a _ _ h₂⟩

/-- What follows a computation that asks nothing may assume that it succeeded. -/
theorem lift_bind {x : Except ε α} {f : α → Dialogue A ε β} (hf : ∀ a, x = .ok a → Says p (f a)) :
    Says p (Dialogue.lift x >>= f) := by
  cases x with
  | ok a => exact hf a rfl
  | error e => exact fail e

theorem require_bind {q : Prop} [Decidable q] {e : ε} {f : Unit → Dialogue A ε β}
    (hf : Says p (f ())) : Says p (Dialogue.require q e >>= f) :=
  (require q e).bind fun _ => hf

theorem finish (hx : Says p x) (g : Except ε α → Except ε' β) : Says p (x.finish g) := by
  intro r w h
  obtain ⟨r', hr, rfl⟩ := yields_finish.mp h
  exact hx _ _ hr

theorem adapt (hx : Says p x) (f : ε → ε') : Says p (x.adapt f) := hx.finish _

theorem attempt (hx : Says p x) : Says p (x.attempt : Dialogue A ε' (Except ε α)) := hx.finish _

/-- Exchanges that every run avoids are filtered out. -/
theorem filterMap_eq_nil {γ : Type} {g : Exchange A → Option γ} {r : Except ε α}
    {w : Transcript A} (hx : Says p x) (hg : ∀ e, p e → g e = none) (h : Yields x r w) :
    w.filterMap g = [] :=
  List.filterMap_eq_nil_iff.mpr fun e he => hg e (hx r w h e he)

end Says

section

variable {σ : Type} {serve : σ → Exchange A → Option σ} {s s' : σ} {x : Dialogue A ε α}
  {f : α → Dialogue A ε β} {out : Except ε β × σ}

variable (serve) in
/-- Each question of a run from the state `s` can be served, and however it is served, the run
ends with the outcome and in the state of `out`. -/
def Carries : σ → Dialogue A ε α → Except ε α × σ → Prop
  | s, done a, out => out = (.ok a, s)
  | s, fail e, out => out = (.error e, s)
  | s, ask q next, out => (∃ a, (serve s ⟨q, a⟩).isSome) ∧
    ∀ a s', serve s ⟨q, a⟩ = some s' → Carries s' (next a) out

namespace Carries

theorem query_bind {q : Q} {f : A q → Dialogue A ε β} (hserved : ∃ a, (serve s ⟨q, a⟩).isSome)
    (hf : ∀ a s', serve s ⟨q, a⟩ = some s' → Carries serve s' (f a) out) :
    Carries serve s (query q >>= f) out :=
  ⟨hserved, hf⟩

theorem require_bind {p : Prop} [Decidable p] {e : ε} {f : Unit → Dialogue A ε β}
    (hf : if p then Carries serve s (f ()) out else out = (.error e, s)) :
    Carries serve s (require p e >>= f) out := by
  unfold require Machine.require
  split_ifs at hf ⊢ <;> exact hf

theorem bind {a : α} (hx : Carries serve s x (.ok a, s')) (hf : Carries serve s' (f a) out) :
    Carries serve s (x >>= f) out := by
  induction x generalizing s with
  | done b =>
    cases hx
    exact hf
  | fail e => cases hx
  | ask q next ih => exact ⟨hx.1, fun b t ht => ih b (hx.2 b t ht)⟩

theorem bind_error {e : ε} (hx : Carries serve s x (.error e, s')) :
    Carries serve s (x >>= f) (.error e, s') := by
  induction x generalizing s with
  | done b => cases hx
  | fail e' =>
    cases hx
    rfl
  | ask q next ih => exact ⟨hx.1, fun b t ht => ih b (hx.2 b t ht)⟩

end Carries

end

end Dialogue

end Theyos.Machine
