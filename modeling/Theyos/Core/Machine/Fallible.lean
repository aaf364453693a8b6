import Mathlib.Data.List.Basic

/-!
# Runs of fallible state machines

A fallible machine maps a state and a request either to the next state or to an error. A run folds
a finite list of requests, and an error leaves the state unchanged.
-/

namespace Theyos.Machine

variable {σ α ε : Type*} (step : σ → α → Except ε σ)

/-- One attempted request: an error leaves the state unchanged. -/
def advance (s : σ) (a : α) : σ :=
  match step s a with
  | .ok t => t
  | .error _ => s

/-- The state after a finite list of attempted requests. -/
def run (s : σ) (requests : List α) : σ :=
  requests.foldl (advance step) s

variable {step} {a : α} {s : σ}

theorem advance_ok {s t : σ} (h : step s a = .ok t) : advance step s a = t := by
  simp only [advance, h]

theorem advance_error {e : ε} (h : step s a = .error e) : advance step s a = s := by
  simp only [advance, h]

/-- An attempted request either succeeded with the reached state or changed nothing. -/
theorem advance_cases (step : σ → α → Except ε σ) (s : σ) (a : α) :
    step s a = .ok (advance step s a) ∨ advance step s a = s := by
  cases h : step s a with
  | ok t => exact Or.inl (congrArg _ (advance_ok h).symm)
  | error e => exact Or.inr (advance_error h)

/-- A state change is evidence of success. -/
theorem step_of_advance_ne (h : advance step s a ≠ s) : step s a = .ok (advance step s a) :=
  (advance_cases step s a).resolve_right h

@[simp] theorem run_nil (s : σ) : run step s [] = s := rfl

@[simp] theorem run_cons (s : σ) (a : α) (requests : List α) :
    run step s (a :: requests) = run step (advance step s a) requests := rfl

@[simp] theorem run_append (s : σ) (first second : List α) :
    run step s (first ++ second) = run step (run step s first) second :=
  List.foldl_append

/-- A state is reachable when some finite run leads to it. -/
def Reachable (step : σ → α → Except ε σ) (init s : σ) : Prop :=
  ∃ requests, run step init requests = s

theorem Reachable.init (s : σ) : Reachable step s s := ⟨[], rfl⟩

variable {init : σ}

theorem Reachable.run (h : Reachable step init s) (requests : List α) :
    Reachable step init (run step s requests) := by
  obtain ⟨first, rfl⟩ := h
  exact ⟨first ++ requests, run_append _ _ _⟩

theorem Reachable.advance (h : Reachable step init s) (a : α) :
    Reachable step init (advance step s a) := h.run [a]

theorem Reachable.of_step {s t : σ} (h : Reachable step init s) (hs : step s a = .ok t) :
    Reachable step init t := by
  have hr := h.advance a
  rwa [advance_ok hs] at hr

/-- Some finite run leads to a state in `Q`. -/
def Leads (step : σ → α → Except ε σ) (s : σ) (Q : σ → Prop) : Prop :=
  ∃ requests, Q (run step s requests)

section

variable {s t : σ} {Q R : σ → Prop}

theorem Leads.here (h : Q s) : Leads step s Q := ⟨[], h⟩

theorem Leads.after (hs : step s a = .ok t) (h : Leads step t Q) : Leads step s Q := by
  obtain ⟨requests, h⟩ := h
  refine ⟨a :: requests, ?_⟩
  rwa [run_cons, advance_ok hs]

theorem Leads.trans (h : Leads step s Q) (hQ : ∀ t, Q t → Leads step t R) : Leads step s R := by
  obtain ⟨first, h⟩ := h
  obtain ⟨second, hR⟩ := hQ _ h
  refine ⟨first ++ second, ?_⟩
  rwa [run_append]

end

variable {P : σ → Prop}

/-- What one successful step preserves, every run preserves. -/
theorem run_invariant (h0 : P s) (hstep : ∀ s a t, P s → step s a = .ok t → P t)
    (requests : List α) :
    P (run step s requests) := by
  refine List.foldlRecOn requests _ h0 fun s hs a _ => ?_
  rcases advance_cases step s a with h | h
  · exact hstep s a _ hs h
  · rwa [h]

/-- An invariant of every successful step holds in every reachable state. -/
theorem Reachable.invariant (h : Reachable step init s) (h0 : P init)
    (hstep : ∀ s a t, P s → step s a = .ok t → P t) : P s := by
  obtain ⟨requests, rfl⟩ := h
  exact run_invariant h0 hstep requests

/-- A reflexive and transitive relation respected by steps holds along every run. -/
theorem run_relation {R : σ → σ → Prop} (hrefl : ∀ s, R s s)
    (htrans : ∀ {a b c}, R a b → R b c → R a c) (hP : ∀ s a t, P s → step s a = .ok t → P t)
    (hstep : ∀ s a t, P s → step s a = .ok t → R s t) {s : σ} (hs : P s) (requests : List α) :
    R s (run step s requests) := by
  induction requests generalizing s with
  | nil => exact hrefl s
  | cons a requests ih =>
    rcases advance_cases step s a with h | h
    · exact htrans (hstep s a _ hs h) (ih (hP s a _ hs h))
    · rw [run_cons, h]
      exact ih hs

/-- The condition `G` holds of every request at the state where it is attempted. -/
def Along (step : σ → α → Except ε σ) (G : σ → α → Prop) : σ → List α → Prop
  | _, [] => True
  | s, a :: requests => G s a ∧ Along step G (advance step s a) requests

@[simp] theorem along_nil {G : σ → α → Prop} : Along step G s [] := trivial

@[simp] theorem along_cons {G : σ → α → Prop} {a : α} {requests : List α} :
    Along step G s (a :: requests) ↔ G s a ∧ Along step G (advance step s a) requests := Iff.rfl

variable {G : σ → α → Prop}

theorem along_append {first second : List α} :
    Along step G s (first ++ second) ↔
      Along step G s first ∧ Along step G (run step s first) second := by
  induction first generalizing s with
  | nil => simp
  | cons a first ih => simp only [List.cons_append, along_cons, run_cons, ih, and_assoc]

variable {requests : List α}

/-- A condition along a run is a condition at every split of its requests. -/
theorem along_iff :
    Along step G s requests ↔
      ∀ before a after, requests = before ++ a :: after → G (run step s before) a := by
  constructor
  · rintro h before a after rfl
    exact ((along_append.mp h).2).1
  · intro h
    induction requests generalizing s with
    | nil => trivial
    | cons a requests ih =>
      refine ⟨h [] a requests rfl, ih ?_⟩
      intro before b after he
      exact h (a :: before) b after (by rw [he]; rfl)

/-- The guarded invariant rule: steps need to preserve the invariant only where the guard holds. -/
theorem run_invariant_along (h0 : P s)
    (hstep : ∀ s a t, P s → G s a → step s a = .ok t → P t) (hG : Along step G s requests) :
    P (run step s requests) := by
  induction requests generalizing s with
  | nil => exact h0
  | cons a requests ih =>
    obtain ⟨ha, hrest⟩ := hG
    refine ih ?_ hrest
    rcases advance_cases step s a with h | h
    · exact hstep s a _ h0 ha h
    · rwa [h]

variable (step)

/-- A condition that holds at the end of a run but not at its start was established by some
effective request of the run. -/
theorem exists_rise {Q : σ → Prop} (h0 : ¬ Q s) (h : Q (run step s requests)) :
    ∃ before a after, requests = before ++ a :: after ∧ ¬ Q (run step s before) ∧
      ∃ t, step (run step s before) a = .ok t ∧ Q t := by
  induction requests generalizing s with
  | nil => exact absurd h h0
  | cons a requests ih =>
    by_cases hnext : Q (advance step s a)
    · refine ⟨[], a, requests, rfl, h0, advance step s a, step_of_advance_ne ?_, hnext⟩
      intro he
      rw [run_nil] at he
      rw [he] at hnext
      exact h0 hnext
    · obtain ⟨before, b, after, rfl, hbefore, t, hstep, ht⟩ := ih hnext h
      exact ⟨a :: before, b, after, rfl, hbefore, t, hstep, ht⟩

/-- No request of the class `C` changed the state anywhere along the run. -/
def Quiet (C : α → Prop) : σ → List α → Prop :=
  Along step fun s a => C a → advance step s a = s

/-- A run quiet in a class is quiet in every smaller class. -/
theorem Quiet.mono {step : σ → α → Except ε σ} {C D : α → Prop} {s : σ}
    (h : Quiet step D s requests) (hCD : ∀ a, C a → D a) : Quiet step C s requests :=
  along_iff.mpr fun before a after he ha => along_iff.mp h before a after he (hCD a ha)

/-- The fence rule: a counter that never decreases, and that every effective
request of the class `C` increases, is unchanged only over runs quiet in `C`. -/
theorem quiet_of_counter {C : α → Prop} (counter : σ → ℕ)
    (hP : ∀ s a t, P s → step s a = .ok t → P t)
    (hmono : ∀ s a t, P s → step s a = .ok t → counter s ≤ counter t)
    (hstrict : ∀ s a t, P s → step s a = .ok t → C a → t ≠ s → counter s < counter t) {s : σ}
    (hs : P s) (h : counter (run step s requests) ≤ counter s) : Quiet step C s requests := by
  induction requests generalizing s with
  | nil => trivial
  | cons a requests ih =>
    have hnext : P (advance step s a) := run_invariant hs hP [a]
    have hrun {s : σ} (hs : P s) (requests : List α) : counter s ≤ counter (run step s requests) :=
      run_relation (R := fun s t => counter s ≤ counter t) (fun _ => Nat.le_refl _)
        (fun h₁ h₂ => Nat.le_trans h₁ h₂) hP hmono hs requests
    have hle : counter s ≤ counter (advance step s a) := hrun hs [a]
    have hrest := hrun hnext requests
    rw [run_cons] at h
    refine ⟨?_, ih hnext (by omega)⟩
    intro ha
    by_contra hne
    have := hstrict s a _ hs (step_of_advance_ne hne) ha hne
    omega

end Theyos.Machine
