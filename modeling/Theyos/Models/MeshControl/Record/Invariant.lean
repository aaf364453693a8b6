import Theyos.Models.MeshControl.Record.Slot
import Theyos.Models.MeshControl.Record.Retention

/-!
# The loader's predicate on records

`invariantsHold` is the check a record must pass to be loaded from disk. It is written as the
source writes it: early exits, loops over the three containers and one shared set of slot names.
-/

namespace Theyos.MeshControl

open MeshSignerControlRecordV1

/-- The slot of a generation, derived from its record's identity and purpose. -/
def MeshSignerControlRecordV1.derivedSlot (H : Hashes) (r : MeshSignerControlRecordV1)
    (generation : NonZeroU64) (txnId : TxnId) (backend : BackendKind) : SlotId where
  identityDigest := identityDigest H r.identity
  purpose := r.purpose
  generation := generation
  txnId := txnId
  backendInstance := backend

/-- Set insertion that reports a repeated element. -/
def insertNew {β : Type*} [DecidableEq β] (seen : List β) (x : β) : Option (List β) :=
  if x ∈ seen then none else some (x :: seen)

/-- The pending kind each authority admits. -/
def kindMatchesAuthority : Authority → PendingOpKind → Bool
  | .empty, .create => true
  | .active, .routineRotate => true
  | .revoked _, .reactivate => true
  | _, _ => false

/-- A terminal result's outcome has the shape of its own request. -/
def TerminalResult.consistent (r : TerminalResult) : Bool :=
  match r.outcome, r.request with
  | .activated og, .activate rg _ => og == rg
  | .revoked _, .revoke _ => true
  | .reactivated _, .reactivate _ _ => true
  | _, _ => false

/-- A bound entry's binding is for the slot the entry names. -/
def GcEntry.bindingOwnSlot : GcEntry → Bool
  | .bound slot _ binding _ => binding.slot == slot
  | _ => true

/-- A binding is recorded exactly once the key has been observed. -/
def PendingOp.bindingMatchesPhase (p : PendingOp) : Bool :=
  match p.phase with
  | .intent => p.binding.isNone
  | .keyObserved => p.binding.isSome

section

variable (H : Hashes) (r : MeshSignerControlRecordV1)

/-- Loop over the live generations: numbers distinct and bounded, bindings at their own slot. -/
def checkLive : List GenerationRecord → List NonZeroU64 → Bool
  | [], _ => true
  | g :: gs, seen =>
    match insertNew seen g.generation with
    | none => false
    | some seen =>
      if r.generationHighWater < g.generation then false
      else if g.binding.slot ≠
          r.derivedSlot H g.generation g.binding.slot.txnId g.binding.slot.backendInstance then
        false
      else checkLive gs seen

/-- Loop over the live generations: names not seen before. -/
def checkLiveNames : List GenerationRecord → List String → Option (List String)
  | [], seen => some seen
  | g :: gs, seen => (insertNew seen (g.binding.slot.canonicalId H)).bind (checkLiveNames gs)

/-- Loop over the collector's entries: names not seen before, slots of this record. -/
def checkGc : List GcEntry → List String → Option (List String)
  | [], seen => some seen
  | e :: es, seen =>
    (insertNew seen (e.slot.canonicalId H)).bind fun seen =>
      if !e.bindingOwnSlot then none
      else if e.txnId ≠ e.slot.txnId ∨ e.slot.identityDigest ≠ identityDigest H r.identity ∨
          e.slot.purpose ≠ r.purpose ∨ r.generationHighWater < e.slot.generation then none
      else checkGc es seen

/-- The conditions on the operation in flight. -/
def checkPending (seen : List String) : Option PendingOp → Bool
  | none => true
  | some p =>
    if p.purpose ≠ r.purpose then false
    else if p.canonicalSlot ≠ r.derivedSlot H p.generation p.txnId p.backend then false
    else if p.epoch ≠ r.epochHighWater then false
    else if !p.bindingMatchesPhase then false
    else if p.binding.any (·.slot ≠ p.canonicalSlot) then false
    else if r.generationHighWater < p.generation then false
    else if (insertNew seen (p.canonicalSlot.canonicalId H)).isNone then false
    else kindMatchesAuthority r.authority p.kind

/-- Loop over the terminal results: transactions distinct, outcomes consistent. -/
def checkTerminals : List TerminalResult → List TxnId → Bool
  | [], _ => true
  | t :: ts, seen =>
    match insertNew seen t.txnId with
    | none => false
    | some seen => if !t.consistent then false else checkTerminals ts seen

/-- The predicate every loaded record satisfies. -/
def invariantsHold : Bool :=
  if decide (r.authority = .active) ≠ r.currentGeneration.isSome then false
  else if r.currentGeneration.any fun cur =>
      !(r.liveGenerations.any (·.generation == cur)) || decide (r.generationHighWater < cur) then
    false
  else if !checkLive H r r.liveGenerations [] then false
  else
    match (checkLiveNames H r.liveGenerations []).bind (checkGc H r r.gcPending) with
    | none => false
    | some seen =>
      if !checkPending H r seen r.pendingOp then false
      else if maxRecentTerminalResults < r.recentTerminalResults.length then false
      else checkTerminals r.recentTerminalResults []

/-- The clauses on the operation in flight. -/
structure PendingInvariants (p : PendingOp) : Prop where
  /-- It belongs to this record. -/
  purpose : p.purpose = r.purpose
  /-- Its slot is the derived one. -/
  slot : p.canonicalSlot = r.derivedSlot H p.generation p.txnId p.backend
  /-- Its epoch is current. -/
  epoch : p.epoch = r.epochHighWater
  /-- A binding is recorded exactly once the key is observed. -/
  phase : p.phase = .keyObserved ↔ p.binding.isSome
  /-- A recorded binding is for its slot. -/
  binding : ∀ b, p.binding = some b → b.slot = p.canonicalSlot
  /-- Its generation is reserved. -/
  bound : p.generation ≤ r.generationHighWater
  /-- Its kind is the one the authority admits. -/
  kind : kindMatchesAuthority r.authority p.kind = true

/-- The names of all slots of a record, container by container. -/
def slotNames : List String :=
  r.liveGenerations.map (fun g => g.binding.slot.canonicalId H) ++
    r.gcPending.map (fun e => e.slot.canonicalId H) ++
    r.pendingOp.toList.map (fun p => p.canonicalSlot.canonicalId H)

/-- The entry tracks a slot of this record. -/
abbrev Tracks (e : GcEntry) : Prop :=
  e.txnId = e.slot.txnId ∧ e.slot.identityDigest = identityDigest H r.identity ∧
    e.slot.purpose = r.purpose ∧ e.slot.generation ≤ r.generationHighWater

/-- The clauses of the loader's predicate. -/
structure Invariants : Prop where
  /-- Active records, and only those, have a current generation. -/
  active : r.authority = .active ↔ r.currentGeneration.isSome
  /-- The current generation is live and reserved. -/
  current : ∀ cur, r.currentGeneration = some cur →
    (∃ g ∈ r.liveGenerations, g.generation = cur) ∧ cur ≤ r.generationHighWater
  /-- Live generation numbers are distinct. -/
  live_nodup : (r.liveGenerations.map (·.generation)).Nodup
  /-- Live generation numbers are reserved. -/
  live_bound : ∀ g ∈ r.liveGenerations, g.generation ≤ r.generationHighWater
  /-- Live bindings are for their own derived slots. -/
  live_slot : ∀ g ∈ r.liveGenerations, g.binding.slot =
    r.derivedSlot H g.generation g.binding.slot.txnId g.binding.slot.backendInstance
  /-- No two slots of the record share a name. -/
  names : (slotNames H r).Nodup
  /-- Bound entries hold a binding for their own slot. -/
  gc_binding : ∀ e ∈ r.gcPending, e.bindingOwnSlot = true
  /-- Entries track slots of this record. -/
  gc_slot : ∀ e ∈ r.gcPending, Tracks H r e
  /-- The operation in flight satisfies its clauses. -/
  pending : ∀ p, r.pendingOp = some p → PendingInvariants H r p
  /-- Retention is bounded. -/
  terminal_length : r.recentTerminalResults.length ≤ maxRecentTerminalResults
  /-- Recorded transactions are distinct. -/
  terminal_nodup : (r.recentTerminalResults.map (·.txnId)).Nodup
  /-- Recorded outcomes have the shape of their requests. -/
  terminal_consistent : ∀ t ∈ r.recentTerminalResults, t.consistent = true

end

theorem insertNew_eq_some {β : Type*} [DecidableEq β] {seen out : List β} {x : β} :
    insertNew seen x = some out ↔ x ∉ seen ∧ out = x :: seen := by
  unfold insertNew
  by_cases h : x ∈ seen
  · simp [h]
  · simp [h, eq_comm]

theorem insertNew_eq_none {β : Type*} [DecidableEq β] {seen : List β} {x : β} :
    insertNew seen x = none ↔ x ∈ seen := by
  unfold insertNew
  by_cases h : x ∈ seen <;> simp [h]

variable {H : Hashes} {r : MeshSignerControlRecordV1}

theorem NonZeroU64.not_lt_iff {a b : NonZeroU64} : ¬ a < b ↔ b ≤ a := by
  rw [NonZeroU64.le_iff, NonZeroU64.lt_iff, Nat.not_lt]

theorem reject_iff {c : Prop} [Decidable c] {b : Bool} :
    (if c then false else b) = true ↔ ¬ c ∧ b = true := by
  by_cases hc : c <;> simp [hc]

theorem checkLive_iff (gs : List GenerationRecord) (seen : List NonZeroU64) :
    checkLive H r gs seen = true ↔
      (gs.map (·.generation)).Nodup ∧ (∀ g ∈ gs, g.generation ∉ seen) ∧
        (∀ g ∈ gs, g.generation ≤ r.generationHighWater) ∧
          ∀ g ∈ gs, g.binding.slot =
            r.derivedSlot H g.generation g.binding.slot.txnId g.binding.slot.backendInstance := by
  induction gs generalizing seen with
  | nil => simp [checkLive]
  | cons g gs ih =>
    by_cases hseen : g.generation ∈ seen
    · simp [checkLive, insertNew, hseen]
    simp only [checkLive, insertNew, hseen, if_false, reject_iff, NonZeroU64.not_lt_iff, ne_eq,
      not_not, ih, List.mem_cons, not_or, List.map_cons, List.nodup_cons, List.mem_map,
      forall_eq_or_imp]
    constructor
    · rintro ⟨hle, hown, hnodup, hfresh, hles, howns⟩
      refine ⟨⟨?_, hnodup⟩, ⟨not_false, fun x hx => (hfresh x hx).2⟩, ⟨hle, hles⟩, hown, howns⟩
      rintro ⟨x, hx, he⟩
      exact (hfresh x hx).1 he
    · rintro ⟨⟨hnew, hnodup⟩, ⟨-, hfresh⟩, ⟨hle, hles⟩, hown, howns⟩
      exact ⟨hle, hown, hnodup, fun x hx => ⟨fun he => hnew ⟨x, hx, he⟩, hfresh x hx⟩, hles, howns⟩

theorem checkLiveNames_eq_some (gs : List GenerationRecord) {seen out : List String}
    (hseen : seen.Nodup) :
    checkLiveNames H gs seen = some out ↔
      out = (gs.map fun g => g.binding.slot.canonicalId H).reverse ++ seen ∧ out.Nodup := by
  induction gs generalizing seen with
  | nil =>
    simp only [checkLiveNames, Option.some.injEq, List.map_nil, List.reverse_nil, List.nil_append]
    grind
  | cons g gs ih =>
    simp only [checkLiveNames, Option.bind_eq_some_iff, insertNew_eq_some, List.map_cons,
      List.reverse_cons, List.append_assoc, List.singleton_append]
    constructor
    · rintro ⟨_, ⟨hnew, rfl⟩, h⟩
      exact (ih (List.nodup_cons.mpr ⟨hnew, hseen⟩)).mp h
    · rintro ⟨rfl, hnodup⟩
      have hcons := (List.nodup_append.mp hnodup).2.1
      exact ⟨_, ⟨(List.nodup_cons.mp hcons).1, rfl⟩, (ih hcons).mpr ⟨rfl, hnodup⟩⟩

theorem checkGc_eq_some (es : List GcEntry) {seen out : List String} (hseen : seen.Nodup) :
    checkGc H r es seen = some out ↔
      (out = (es.map fun e => e.slot.canonicalId H).reverse ++ seen ∧ out.Nodup) ∧
        (∀ e ∈ es, e.bindingOwnSlot = true) ∧ ∀ e ∈ es, Tracks H r e := by
  induction es generalizing seen with
  | nil =>
    simp only [checkGc, Option.some.injEq, List.map_nil, List.reverse_nil, List.nil_append,
      List.not_mem_nil, false_imp_iff, implies_true, and_true]
    grind
  | cons e es ih =>
    simp only [checkGc, Option.bind_eq_some_iff, insertNew_eq_some, List.map_cons,
      List.reverse_cons, List.append_assoc, List.singleton_append, List.mem_cons,
      forall_eq_or_imp, Option.ite_none_left_eq_some, not_or, NonZeroU64.not_lt_iff, ne_eq, not_not,
      Bool.not_eq_true', Bool.not_eq_false]
    constructor
    · rintro ⟨_, ⟨hnew, rfl⟩, hown, hslot, h⟩
      obtain ⟨hout, hrest, hslots⟩ := (ih (List.nodup_cons.mpr ⟨hnew, hseen⟩)).mp h
      exact ⟨hout, ⟨hown, hrest⟩, hslot, hslots⟩
    · rintro ⟨⟨rfl, hnodup⟩, ⟨hown, hrest⟩, hslot, hslots⟩
      have hcons := (List.nodup_append.mp hnodup).2.1
      exact ⟨_, ⟨(List.nodup_cons.mp hcons).1, rfl⟩, hown, hslot,
        (ih hcons).mpr ⟨⟨rfl, hnodup⟩, hrest, hslots⟩⟩

theorem checkPending_iff {seen : List String} {p : PendingOp} :
    checkPending H r seen (some p) = true ↔
      PendingInvariants H r p ∧ p.canonicalSlot.canonicalId H ∉ seen := by
  have hphase : p.bindingMatchesPhase = true ↔
      (p.phase = .keyObserved ↔ p.binding.isSome = true) := by
    unfold PendingOp.bindingMatchesPhase
    cases p.phase <;> cases p.binding <;> simp
  have hbinding : p.binding.any (fun b => decide (b.slot ≠ p.canonicalSlot)) = false ↔
      ∀ b, p.binding = some b → b.slot = p.canonicalSlot := by
    cases p.binding <;> simp
  have hfresh : (insertNew seen (p.canonicalSlot.canonicalId H)).isNone = true ↔
      p.canonicalSlot.canonicalId H ∈ seen := by
    rw [Option.isNone_iff_eq_none, insertNew_eq_none]
  simp only [checkPending, reject_iff, ne_eq, not_not, Bool.not_eq_true', Bool.not_eq_false, hphase,
    Bool.not_eq_true, hbinding, NonZeroU64.not_lt_iff, hfresh]
  constructor
  · rintro ⟨h1, h2, h3, h4, h5, h6, hnew, h7⟩
    exact ⟨⟨h1, h2, h3, h4, h5, h6, h7⟩, hnew⟩
  · rintro ⟨⟨h1, h2, h3, h4, h5, h6, h7⟩, hnew⟩
    exact ⟨h1, h2, h3, h4, h5, h6, hnew, h7⟩

theorem checkTerminals_iff (ts : List TerminalResult) (seen : List TxnId) :
    checkTerminals ts seen = true ↔
      (ts.map (·.txnId)).Nodup ∧ (∀ t ∈ ts, t.txnId ∉ seen) ∧ ∀ t ∈ ts, t.consistent = true := by
  induction ts generalizing seen with
  | nil => simp [checkTerminals]
  | cons t ts ih =>
    by_cases hseen : t.txnId ∈ seen
    · simp [checkTerminals, insertNew, hseen]
    simp only [checkTerminals, insertNew, hseen, if_false, reject_iff, Bool.not_eq_true',
      Bool.not_eq_false, ih, List.mem_cons, not_or, List.map_cons, List.nodup_cons, List.mem_map,
      forall_eq_or_imp]
    grind

theorem slotNames_nodup_iff :
    (slotNames H r).Nodup ↔
      ((r.pendingOp.toList.map fun p : PendingOp => p.canonicalSlot.canonicalId H) ++
        ((r.gcPending.map fun e : GcEntry => e.slot.canonicalId H).reverse ++
          ((r.liveGenerations.map fun g : GenerationRecord =>
            g.binding.slot.canonicalId H).reverse ++ []))).Nodup := by
  refine List.Perm.nodup_iff (List.perm_append_comm.trans (List.Perm.append_left _ ?_))
  rw [List.append_nil]
  refine List.perm_append_comm.trans ?_
  exact (List.reverse_perm _).symm.append (List.reverse_perm _).symm

theorem current_iff :
    (r.currentGeneration.any fun cur =>
      !(r.liveGenerations.any (·.generation == cur)) ||
        decide (r.generationHighWater < cur)) = false ↔
      ∀ cur, r.currentGeneration = some cur →
        (∃ g ∈ r.liveGenerations, g.generation = cur) ∧ cur ≤ r.generationHighWater := by
  cases r.currentGeneration with
  | none => simp
  | some cur => simp [NonZeroU64.not_lt_iff]

/-- The checks that share the slot names seen so far accept exactly distinct names, with the
clauses on the collection queue and on the operation in flight. -/
theorem exists_seen_iff :
    (∃ seen, (checkLiveNames H r.liveGenerations []).bind (checkGc H r r.gcPending) = some seen ∧
        checkPending H r seen r.pendingOp = true) ↔
      (slotNames H r).Nodup ∧ (∀ e ∈ r.gcPending, e.bindingOwnSlot = true) ∧
        (∀ e ∈ r.gcPending, Tracks H r e) ∧ ∀ p, r.pendingOp = some p → PendingInvariants H r p := by
  rw [slotNames_nodup_iff]
  constructor
  · rintro ⟨seen, hseen, hp⟩
    obtain ⟨names, hnames, hgc⟩ := Option.bind_eq_some_iff.mp hseen
    obtain ⟨rfl, hnodup⟩ := (checkLiveNames_eq_some _ List.nodup_nil).mp hnames
    obtain ⟨⟨rfl, hgcNodup⟩, hgb, hgs⟩ := (checkGc_eq_some _ hnodup).mp hgc
    cases hpend : r.pendingOp with
    | none => exact ⟨by simpa using hgcNodup, hgb, hgs, nofun⟩
    | some p =>
      rw [hpend] at hp
      obtain ⟨hpending, hfresh⟩ := checkPending_iff.mp hp
      refine ⟨List.nodup_cons.mpr ⟨hfresh, hgcNodup⟩, hgb, hgs, ?_⟩
      rintro _ ⟨⟩
      exact hpending
  · rintro ⟨hnames, hgb, hgs, hpending⟩
    have hgcNodup := (List.nodup_append.mp hnames).2.1
    have hliveNodup := (List.nodup_append.mp hgcNodup).2.1
    rw [(checkLiveNames_eq_some _ List.nodup_nil).mpr ⟨rfl, hliveNodup⟩]
    refine ⟨_, (checkGc_eq_some _ hliveNodup).mpr ⟨⟨rfl, hgcNodup⟩, hgb, hgs⟩, ?_⟩
    cases hpend : r.pendingOp with
    | none => rfl
    | some p =>
      rw [hpend] at hnames
      exact checkPending_iff.mpr ⟨hpending p hpend, (List.nodup_cons.mp hnames).1⟩

/-- The loader's check accepts exactly the records satisfying every clause. -/
theorem invariantsHold_iff : invariantsHold H r = true ↔ Invariants H r := by
  have hactive : decide (r.authority = .active) = r.currentGeneration.isSome ↔
      (r.authority = .active ↔ r.currentGeneration.isSome = true) := by
    cases r.currentGeneration.isSome <;> simp
  simp only [invariantsHold, reject_iff, ne_eq, not_not, hactive, Bool.not_eq_true, current_iff,
    Bool.not_eq_true', Bool.not_eq_false, checkLive_iff]
  constructor
  · rintro ⟨hact, hcur, ⟨hlive, -, hlb, hls⟩, h⟩
    split at h
    · cases h
    rename_i seen hseen
    simp only [reject_iff, Bool.not_eq_false, Nat.not_lt, checkTerminals_iff] at h
    obtain ⟨hp, hlen, htn, -, htc⟩ := h
    obtain ⟨hnames, hgb, hgs, hpending⟩ := exists_seen_iff.mp ⟨seen, hseen, hp⟩
    exact ⟨hact, hcur, hlive, hlb, hls, hnames, hgb, hgs, hpending, hlen, htn, htc⟩
  · intro hi
    obtain ⟨seen, hseen, hp⟩ :=
      exists_seen_iff.mpr ⟨hi.names, hi.gc_binding, hi.gc_slot, hi.pending⟩
    refine ⟨hi.active, hi.current, ⟨hi.live_nodup, by simp, hi.live_bound, hi.live_slot⟩, ?_⟩
    simp only [hseen, Bool.not_eq_false, hp, reject_iff, Nat.not_lt, checkTerminals_iff, true_and]
    exact ⟨hi.terminal_length, hi.terminal_nodup, by simp, hi.terminal_consistent⟩

end Theyos.MeshControl
