import Theyos.Models.Instances.Flows
import Mathlib.Data.List.Infix

/-!
# The attempts of a create

A port conflict is to be answered by another call of the runner. Before each attempt the
orchestrator reads the history of errors: it emits the steps of a create when the history is
empty and asks for a retry otherwise, and only the steps hold a call. So the runner is called
once, whatever number of attempts is allowed.
-/

namespace Theyos.Instances

open Lease LeaseTable

/-- The character tables that the text functions read. -/
structure Unicode where
  toLowercase : String → String
  isWhitespace : Char → Bool

def portConflictPatterns : List String :=
  ["address already in use", "port already in use", "slirp_add_hostfwd failed", "add_hostfwd"]

/-- What is asked of the create flow. -/
structure ExecuteFlowRequest where
  instanceId : String
  name : String
  clawType : String
  attemptErrors : List String
  maxPortRetries : ℤ

inductive FlowStatus where
  | completed
  | failed
  deriving DecidableEq, Repr

structure ExecuteFlowResult where
  status : FlowStatus
  error : Option String
  deriving DecidableEq, Repr

def ExecuteFlowResult.failed (msg : String) : ExecuteFlowResult := ⟨.failed, some msg⟩

/-- What the orchestrator decides on a history. -/
inductive FlowDecision where
  | runSteps
  | retry
  | failed (error : String)
  deriving DecidableEq, Repr

/-- How a call of `create_vm` ends: a failed one leaves the machine running or not, and the
machine is then deleted. -/
inductive VmAnswer where
  | created
  | failed (error : String) (running : Bool) (cleanup : Call)
  deriving DecidableEq, Repr

/-- Where the attempts stand: the instances, the history of errors and the number of calls. -/
structure CreateRun where
  world : World
  attemptErrors : List String
  calls : ℕ

section

variable (U : Unicode)

def isPortConflictError (message : String) : Bool :=
  portConflictPatterns.any fun pattern => pattern.toList <:+: (U.toLowercase message).toList

def shouldRetryCreateAttempt (attempt maxAttempts : ℕ) (message : String) : Bool :=
  isPortConflictError U message && attempt + 1 < maxAttempts

/-- A request is refused for its first blank field, or when it allows no attempt. -/
def validateCreateRequest (req : ExecuteFlowRequest) (maxPortRetries : ℕ) : Except String Unit :=
  if req.instanceId.toList.all U.isWhitespace then .error "instance_id is required"
  else if req.name.toList.all U.isWhitespace then .error "name is required"
  else if req.clawType.toList.all U.isWhitespace then .error "claw_type is required"
  else if maxPortRetries = 0 then .error "max_port_retries must be >= 1"
  else .ok ()

/-- An empty history starts a create; another one is failed for its first error that is not to
be retried. -/
def runCreateInstanceFlow (maxPortRetries : ℕ) (attemptErrors : List String) : FlowDecision :=
  if attemptErrors.isEmpty then .runSteps
  else
    match attemptErrors.zipIdx.find? fun (error, attempt) =>
      !shouldRetryCreateAttempt U attempt maxPortRetries error with
    | some (error, _) => .failed error
    | none => .retry

/-- The call of the runner, with what is written before and after it. -/
def executeCreateSteps (req : ExecuteFlowRequest) (answer : VmAnswer) (w : World) : World :=
  let w := w.beginCreate req.instanceId
  let container := req.clawType ++ "-" ++ req.name
  match answer with
  | .created => w.endCreate req.instanceId container .ok .ok
  | .failed _ running cleanup => w.endCreate req.instanceId container (.failed running) cleanup

/-- The flow fails and the row says so. -/
def CreateRun.fail (s : CreateRun) (id msg : String) : ExecuteFlowResult × CreateRun :=
  (.failed msg, { s with world := s.world.updateStatus id .failed })

variable (req : ExecuteFlowRequest) (maxRetries : ℕ) (answers : ℕ → VmAnswer)

/-- The attempts that are left, where call `i` is answered by `answers i`. -/
def createAttempts : ℕ → CreateRun → ExecuteFlowResult × CreateRun
  | 0, s => s.fail req.instanceId s!"create exceeded {maxRetries} port-conflict retries"
  | left + 1, s =>
    -- The orchestrator takes the number of attempts as a byte.
    match validateCreateRequest U req (maxRetries % 256) with
    | .error msg => s.fail req.instanceId msg
    | .ok () =>
      match runCreateInstanceFlow U (maxRetries % 256) s.attemptErrors with
      | .runSteps =>
        let next := { s with
          world := executeCreateSteps req (answers s.calls) s.world, calls := s.calls + 1 }
        match answers s.calls with
        | .created => (⟨.completed, none⟩, next)
        | .failed error _ _ =>
          if isPortConflictError U error then
            createAttempts left { next with attemptErrors := s.attemptErrors ++ [error] }
          else (.failed error, next)
      | .retry => createAttempts left s
      | .failed error => s.fail req.instanceId error

end

def executeCreate (U : Unicode) (req : ExecuteFlowRequest) (answers : ℕ → VmAnswer) (w : World) :
    ExecuteFlowResult × CreateRun :=
  let maxRetries := if 0 < req.maxPortRetries then req.maxPortRetries.toNat else 3
  createAttempts U req maxRetries answers maxRetries ⟨w, req.attemptErrors, 0⟩

/-- The call failed with a port conflict. -/
def VmAnswer.isPortConflict (U : Unicode) : VmAnswer → Bool
  | created => false
  | failed error _ _ => isPortConflictError U error

/-- What the attempts are for: the runner is called again after each port conflict until a call
ends otherwise or `m` calls are made, the flow completes when one of the calls did, and the
instance then keeps the runtime lease that it was admitted with. -/
structure Retries (U : Unicode) (id : String) (m : ℕ) (answers : ℕ → VmAnswer) (w : World)
    (out : ExecuteFlowResult × CreateRun) : Prop where
  called : 0 < out.2.calls
  bounded : out.2.calls ≤ m
  conflicts : ∀ i, i + 1 < out.2.calls → (answers i).isPortConflict U
  stops : out.2.calls = m ∨ (answers (out.2.calls - 1)).isPortConflict U = false
  completed : out.1.status = .completed ↔ ∃ i < out.2.calls, answers i = .created
  leased : out.1.status = .completed → ∀ size, Standing w.leases (runtimeKey id) size →
    Standing out.2.world.leases (runtimeKey id) size

variable {U : Unicode} {req : ExecuteFlowRequest} {maxRetries : ℕ} {answers : ℕ → VmAnswer}
variable {s : CreateRun} {w : World}

/-- Once an error is in the history no attempt calls the runner, and the flow fails. -/
theorem createAttempts_of_history (h : s.attemptErrors ≠ []) (left : ℕ) :
    (createAttempts U req maxRetries answers left s).1.status = .failed ∧
      (createAttempts U req maxRetries answers left s).2.calls = s.calls := by
  induction left with
  | zero => exact ⟨rfl, rfl⟩
  | succ left ih =>
    rw [createAttempts, runCreateInstanceFlow, List.isEmpty_eq_false_iff.mpr h]
    cases validateCreateRequest U req (maxRetries % 256) with
    | error msg => exact ⟨rfl, rfl⟩
    | ok _ =>
      cases s.attemptErrors.zipIdx.find? fun (error, attempt) =>
          !shouldRetryCreateAttempt U attempt (maxRetries % 256) error with
      | none => exact ih
      | some found => exact ⟨rfl, rfl⟩

theorem standing_executeCreateSteps_created {size : ℕ × ℕ} {key : LeaseKey} :
    Standing (executeCreateSteps req .created w).leases key size ↔ Standing w.leases key size :=
  standing_finalizeLease.trans standing_extendLease

section

variable {m : ℕ} (hm : 0 < m) (hvalid : validateCreateRequest U req (m % 256) = .ok ())
  (hmax : req.maxPortRetries = m) (hfresh : req.attemptErrors = [])

include hm hvalid hmax hfresh

/-- Whatever is allowed, a fresh create calls the runner once and completes with that call. -/
theorem executeCreate_fresh (answers : ℕ → VmAnswer) (w : World) :
    (executeCreate U req answers w).2.calls = 1 ∧
      ((executeCreate U req answers w).1.status = .completed ↔ answers 0 = .created) ∧
      (answers 0 = .created →
        (executeCreate U req answers w).2.world = executeCreateSteps req .created w) := by
  have hpos : 0 < req.maxPortRetries := by omega
  obtain ⟨left, rfl⟩ := Nat.exists_eq_succ_of_ne_zero hm.ne'
  rw [executeCreate, if_pos hpos, hmax, hfresh, Int.toNat_natCast, createAttempts, hvalid]
  cases answers 0 with
  | created => simp [runCreateInstanceFlow]
  | failed error running cleanup =>
    by_cases hconflict : isPortConflictError U error
    · simp [runCreateInstanceFlow, hconflict, createAttempts_of_history]
    · simp [runCreateInstanceFlow, hconflict, ExecuteFlowResult.failed]

/-- A fresh create retries as it is to exactly when no second call is due. -/
theorem executeCreate_retries_iff :
    Retries U req.instanceId m answers w (executeCreate U req answers w) ↔
      m = 1 ∨ (answers 0).isPortConflict U = false := by
  obtain ⟨hcalls, hstatus, hworld⟩ := executeCreate_fresh hm hvalid hmax hfresh answers w
  constructor
  · intro h
    have hstops := h.stops
    rw [hcalls] at hstops
    exact hstops.imp_left Eq.symm
  · intro h
    refine ⟨by omega, by omega, fun i hi => by omega, ?_, ?_, fun hdone size hstanding => ?_⟩
    · rw [hcalls]
      exact h.imp_left Eq.symm
    · simpa [hcalls] using hstatus
    · rw [hworld (hstatus.mp hdone)]
      exact standing_executeCreateSteps_created.mpr hstanding

end

/-- An instance that was admitted with a runtime lease. -/
def leasedWorld : World :=
  { World.empty 0 with leases := [⟨⟨runtimeKey "inst-a", 2, 2048, 0, some 60⟩, 0, none⟩] }

theorem executeCreate_retries_iff_leased :
    let out := executeCreate ⟨id, Char.isWhitespace⟩ ⟨"inst-a", "a", "picoclaw", [], 2⟩
      (fun _ => .created) leasedWorld
    Retries ⟨id, Char.isWhitespace⟩ "inst-a" 2 (fun _ => .created) leasedWorld out ∧
      Standing out.2.world.leases (runtimeKey "inst-a") (2, 2048) := by
  have h := (@executeCreate_retries_iff ⟨id, Char.isWhitespace⟩ ⟨"inst-a", "a", "picoclaw", [], 2⟩
    (fun _ => .created) leasedWorld 2 Nat.two_pos (by decide +kernel) rfl rfl).mpr (.inr rfl)
  exact ⟨h, h.leased (by decide +kernel) _ ⟨_, List.mem_cons_self, rfl, rfl, rfl⟩⟩

/-- With two attempts and a port that is taken once, the second call, which would create the
machine, is never made. -/
theorem executeCreate_gives_up :
    let answers : ℕ → VmAnswer := fun i =>
      if i = 0 then .failed "flow failed: slirp_add_hostfwd failed" false .ok else .created
    let out := executeCreate ⟨id, Char.isWhitespace⟩ ⟨"inst-a", "a", "picoclaw", [], 2⟩ answers
      (.empty 0)
    out.1.status = .failed ∧ out.2.calls = 1 ∧
      ¬ Retries ⟨id, Char.isWhitespace⟩ "inst-a" 2 answers (.empty 0) out := by
  refine ⟨by decide +kernel, by decide +kernel, fun h => ?_⟩
  exact absurd h.stops (by decide +kernel)

end Theyos.Instances
