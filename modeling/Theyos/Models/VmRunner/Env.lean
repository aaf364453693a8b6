import Theyos.Core.Machine.Guard
import Theyos.Core.Text.Decimal

/-!
# The state file of an instance

A virtual machine's state is kept in its directory as `instance.env`, one assignment on a line. It
is written whole by `save` and read by `load_unchecked`, which refuses anything it does not
understand. What `save` writes is read back as it was.
-/

namespace Theyos.VmRunner

open Machine Text

/-- A process identifier that a signal can be sent to. -/
abbrev Pid := { n : ℕ // 1 ≤ n ∧ n ≤ 2147483647 }

/-- What an instance keeps in its state file. -/
structure InstanceEnv where
  container : List Char
  customer : List Char
  clawType : List Char
  hostPort : Fin 65536
  sshPort : Fin 65536
  firecrackerPid : Option Pid
  slirpPid : Option Pid
  customerDir : List Char
  deriving DecidableEq

/-- Why a state file is refused. -/
inductive EnvFault where
  | expectedKeyValue (line : ℕ)
  | emptyKey (line : ℕ)
  | duplicateKey (key : List Char) (line : ℕ)
  | missingKey (key : List Char)
  | badPort (key : List Char) (e : ParseIntError)
  | badPid (key value : List Char) (e : ParseIntError)
  | pidOutOfRange (key value : List Char)
  deriving DecidableEq, Repr

/-! ## Reading -/

/-- The assignments of a state file, the latest first. -/
abbrev Assignments := List (List Char × List Char)

variable (entries : Assignments) (key : List Char)

/-- Read one line; blank lines and comments say nothing. -/
def addLine (line : List Char × ℕ) : Except EnvFault Assignments := do
  let text := trim line.1
  if text = [] ∨ text.head? = some '#' then return entries
  let rest := text.dropWhile (· ≠ '=')
  require (rest ≠ []) (.expectedKeyValue line.2)
  let key := trim (text.takeWhile (· ≠ '='))
  require (key ≠ []) (.emptyKey line.2)
  require (key ∉ entries.map Prod.fst) (.duplicateKey key line.2)
  return (key, rest.tail) :: entries

/-- The lines of a text, with their numbers. -/
def numberedLines (text : List Char) : List (List Char × ℕ) := (text.splitOn '\n').zipIdx 1

/-- The value of a key that has to be there. -/
def getKey : Except EnvFault (List Char) :=
  okOr (entries.lookup key) (.missingKey key)

/-- The port given for a key. -/
def parseU16 : Except EnvFault (Fin 65536) := do
  let value ← getKey entries key
  match h : parseUnsigned 65535 value with
  | .ok n => .ok ⟨n, Nat.lt_succ_of_le (parseUnsigned_le h)⟩
  | .error e => .error (.badPort key e)

/-- The process identifier given for a key, if there is one. -/
def parseOptPid : Except EnvFault (Option Pid) :=
  match entries.lookup key with
  | none | some [] => .ok none
  | some value =>
    match parseUnsigned 4294967295 value with
    | .error e => .error (.badPid key value e)
    | .ok n =>
      if h : 1 ≤ n ∧ n ≤ 2147483647 then .ok (some ⟨n, h⟩)
      else .error (.pidOutOfRange key value)

/-- Read a state file. -/
def parse (text : List Char) : Except EnvFault InstanceEnv := do
  let entries ← (numberedLines text).foldlM addLine []
  let container ← getKey entries "CONTAINER_NAME".toList
  let customer ← getKey entries "CUSTOMER_NAME".toList
  let clawType ← getKey entries "CLAW_TYPE".toList
  let hostPort ← parseU16 entries "PORT".toList
  let sshPort ← parseU16 entries "SSH_PORT".toList
  let firecrackerPid ← parseOptPid entries "FIRECRACKER_PID".toList
  let slirpPid ← parseOptPid entries "SLIRP_PID".toList
  let customerDir := (entries.lookup "CUSTOMER_DIR".toList).getD []
  return { container, customer, clawType, hostPort, sshPort, firecrackerPid, slirpPid, customerDir }

/-! ## Writing -/

/-- The paths of the files beside the state file, which are written and not read. -/
structure Paths where
  rootfsPath : List Char
  firecrackerSock : List Char
  slirpApiSock : List Char
  serialLog : List Char
  slirpLog : List Char
  deriving DecidableEq

/-- The text of a process identifier; nothing when there is none. -/
def renderPid : Option Pid → List Char
  | none => []
  | some pid => Nat.toDigits 10 pid.1

variable (inst : InstanceEnv)

/-- The assignments that are written. -/
def InstanceEnv.assignments (paths : Paths) : List (List Char × List Char) :=
  [("CONTAINER_NAME".toList, inst.container), ("CUSTOMER_NAME".toList, inst.customer),
   ("CLAW_TYPE".toList, inst.clawType),
   ("PORT".toList, Nat.toDigits 10 inst.hostPort),
   ("SSH_PORT".toList, Nat.toDigits 10 inst.sshPort),
   ("ROOTFS_PATH".toList, paths.rootfsPath),
   ("API_SOCK".toList, paths.firecrackerSock),
   ("SLIRP_API_SOCK".toList, paths.slirpApiSock),
   ("SERIAL_LOG".toList, paths.serialLog),
   ("SLIRP_LOG".toList, paths.slirpLog),
   ("CUSTOMER_DIR".toList, inst.customerDir),
   ("CODE_DIR".toList, []),
   ("CONFIG_PATH".toList, []),
   ("WORKSPACE_PATH".toList, []),
   ("FIRECRACKER_PID".toList, renderPid inst.firecrackerPid),
   ("SLIRP_PID".toList, renderPid inst.slirpPid)]

/-- One line of the file. -/
def renderLine (entry : List Char × List Char) : List Char := entry.1 ++ '=' :: entry.2

/-- The text that `save` writes: every line ends with a line break. -/
def InstanceEnv.render (paths : Paths) : List Char :=
  List.intercalate ['\n'] ((inst.assignments paths).map renderLine ++ [[]])

/-! ## What is written is read back -/

/-- A value that one line can hold: no line break, and no white space at its end. -/
structure Printable (value : List Char) : Prop where
  noBreak : '\n' ∉ value
  noTrailing : ∀ c ∈ value.getLast?, whiteSpace c = false

/-- An instance whose names can be written on a line each. -/
structure InstanceEnv.Printable : Prop where
  container : VmRunner.Printable inst.container
  customer : VmRunner.Printable inst.customer
  clawType : VmRunner.Printable inst.clawType
  customerDir : VmRunner.Printable inst.customerDir

/-- Paths that can be written on a line each. -/
def Paths.Printable (paths : Paths) : Prop :=
  ∀ path ∈ [paths.rootfsPath, paths.firecrackerSock, paths.slirpApiSock, paths.serialLog,
    paths.slirpLog], VmRunner.Printable path

/-- A key as the file has them: no blank, no equals sign, and not the start of a comment. -/
def IsKey : Prop :=
  key ≠ [] ∧ key.head? ≠ some '#' ∧ ∀ c ∈ key, c ≠ '=' ∧ c ≠ '\n' ∧ whiteSpace c = false

instance : Decidable (IsKey key) := by
  unfold IsKey
  have := List.decidableBAll (fun c => c ≠ '=' ∧ c ≠ '\n' ∧ whiteSpace c = false) key
  infer_instance

theorem Printable.nil : Printable [] := ⟨List.not_mem_nil, by simp⟩

theorem whiteSpace_of_isDigit {c : Char} (h : c.isDigit = true) :
    whiteSpace c = false ∧ c ≠ '\n' := by
  have hbounds : 48 ≤ c.toNat ∧ c.toNat ≤ 57 := by
    simpa [Char.isDigit, UInt32.le_iff_toNat_le] using h
  refine ⟨?_, ?_⟩
  · simp only [whiteSpace, List.contains_eq_mem]
    simp
    omega
  · rintro rfl
    exact absurd hbounds (by decide)

theorem Printable.toDigits (n : ℕ) : Printable (Nat.toDigits 10 n) := by
  have hdigit : ∀ c ∈ Nat.toDigits 10 n, c.isDigit = true :=
    fun c hc => Nat.isDigit_of_mem_toDigits (by decide) (by decide) hc
  refine ⟨fun h => (whiteSpace_of_isDigit (hdigit _ h)).2 rfl, fun c hc => ?_⟩
  exact (whiteSpace_of_isDigit (hdigit c (List.mem_of_mem_getLast? hc))).1

theorem Printable.renderPid (pid : Option Pid) : Printable (renderPid pid) := by
  cases pid with
  | none => exact .nil
  | some pid => exact .toDigits pid.1

variable {key} {value : List Char}

theorem IsKey.trim (h : IsKey key) : Text.trim key = key :=
  trim_eq_self (fun c hc => (h.2.2 c (List.mem_of_mem_head? hc)).2.2)
    (fun c hc => (h.2.2 c (List.mem_of_mem_getLast? hc)).2.2)

/-- A written line is not trimmed. -/
theorem trim_renderLine (hkey : IsKey key) (hvalue : Printable value) :
    Text.trim (renderLine (key, value)) = renderLine (key, value) := by
  obtain ⟨c, key, rfl⟩ := List.exists_cons_of_ne_nil hkey.1
  apply trim_eq_self
  · intro d hd
    cases hd
    exact (hkey.2.2 c List.mem_cons_self).2.2
  · intro d hd
    have hlast : (renderLine (c :: key, value)).getLast? = ('=' :: value).getLast? := by
      rw [renderLine, List.getLast?_append_of_ne_nil _ (List.cons_ne_nil _ _)]
    rw [hlast] at hd
    cases value with
    | nil =>
      cases hd
      decide
    | cons e value => exact hvalue.noTrailing d (by simpa using hd)

variable {entries}

/-- A written line is read as its key and its value. -/
theorem addLine_renderLine {n : ℕ} (hkey : IsKey key) (hvalue : Printable value)
    (hnew : key ∉ entries.map Prod.fst) :
    addLine entries (renderLine (key, value), n) = .ok ((key, value) :: entries) := by
  have hne : ∀ c ∈ key, decide (c ≠ '=') = true := fun c hc => by simp [(hkey.2.2 c hc).1]
  have hrest : (renderLine (key, value)).dropWhile (· ≠ '=') = '=' :: value := by
    rw [renderLine, List.dropWhile_append_of_pos hne]
    rfl
  have htake : (renderLine (key, value)).takeWhile (· ≠ '=') = key := by
    rw [renderLine, List.takeWhile_append_of_pos hne]
    simp
  have hhead : (renderLine (key, value)).head? = key.head? := by
    obtain ⟨c, key, rfl⟩ := List.exists_cons_of_ne_nil hkey.1
    rfl
  have hkept : ¬(renderLine (key, value) = [] ∨ (renderLine (key, value)).head? = some '#') := by
    rintro (h | h)
    · simp [renderLine] at h
    · exact hkey.2.1 (hhead ▸ h)
  simp only [addLine, trim_renderLine hkey hvalue, hrest, htake, hkey.trim, if_neg hkept]
  simp [require, hkey.1, hnew, bind, Except.bind, pure, Except.pure]

/-- Written lines are read in turn. -/
theorem foldlM_addLine {new : Assignments} (n : ℕ) (hkeys : ∀ entry ∈ new, IsKey entry.1)
    (hvalues : ∀ entry ∈ new, Printable entry.2)
    (hnodup : ((new.map Prod.fst).reverse ++ entries.map Prod.fst).Nodup) :
    ((new.map renderLine).zipIdx n).foldlM addLine entries = .ok (new.reverse ++ entries) := by
  induction new generalizing entries n with
  | nil => rfl
  | cons entry new ih =>
    rw [List.map_cons, List.zipIdx_cons, List.foldlM_cons,
      addLine_renderLine (hkeys entry List.mem_cons_self) (hvalues entry List.mem_cons_self)]
    · have hnodup' : ((new.map Prod.fst).reverse ++ (entry :: entries).map Prod.fst).Nodup := by
        simpa using hnodup
      have hrest := ih (n + 1) (fun e he => hkeys e (List.mem_cons_of_mem _ he))
        (fun e he => hvalues e (List.mem_cons_of_mem _ he)) hnodup'
      rw [List.reverse_cons, List.append_assoc]
      exact hrest
    · simp only [List.map_cons, List.reverse_cons, List.append_assoc] at hnodup
      have := (List.nodup_append.mp hnodup).2.1
      exact (List.nodup_cons.mp this).1

/-- The keys of the file, in the order in which they are written. -/
def fileKeys : List (List Char) :=
  ["CONTAINER_NAME".toList, "CUSTOMER_NAME".toList, "CLAW_TYPE".toList, "PORT".toList,
   "SSH_PORT".toList, "ROOTFS_PATH".toList, "API_SOCK".toList, "SLIRP_API_SOCK".toList,
   "SERIAL_LOG".toList, "SLIRP_LOG".toList, "CUSTOMER_DIR".toList, "CODE_DIR".toList,
   "CONFIG_PATH".toList, "WORKSPACE_PATH".toList, "FIRECRACKER_PID".toList,
   "SLIRP_PID".toList]

theorem isKey_of_mem_fileKeys : ∀ key ∈ fileKeys, IsKey key := by decide +kernel

theorem nodup_fileKeys : fileKeys.Nodup := by decide +kernel

theorem lookup_eq_some_of_mem (hnodup : (entries.map Prod.fst).Nodup)
    (hmem : (key, value) ∈ entries) :
    entries.lookup key = some value := by
  obtain ⟨before, after, rfl⟩ := List.append_of_mem hmem
  refine List.lookup_eq_some_iff.mpr ⟨before, after, rfl, fun entry hentry => ?_⟩
  rw [List.map_append, List.map_cons] at hnodup
  exact bne_iff_ne.mpr fun h => List.disjoint_of_nodup_append hnodup (List.mem_map_of_mem hentry)
    (h ▸ List.mem_cons_self)

variable {inst : InstanceEnv} {paths : Paths}

/-- Every value that is written fits on its line. -/
theorem printable_of_mem_assignments (hinst : inst.Printable) (hpaths : paths.Printable) :
    ∀ entry ∈ inst.assignments paths, Printable entry.2 := by
  simp only [Paths.Printable, List.forall_mem_cons] at hpaths
  obtain ⟨hrootfs, hapi, hslirp, hserial, hlog, -⟩ := hpaths
  simp only [InstanceEnv.assignments, List.forall_mem_cons]
  exact ⟨hinst.container, hinst.customer, hinst.clawType, .toDigits _, .toDigits _, hrootfs,
    hapi, hslirp, hserial, hlog, hinst.customerDir, .nil, .nil, .nil, .renderPid _,
    .renderPid _, List.forall_mem_nil _⟩

theorem numberedLines_render (hvalues : ∀ entry ∈ inst.assignments paths, Printable entry.2) :
    numberedLines (inst.render paths) =
      ((inst.assignments paths).map renderLine).zipIdx 1 ++ [([], 17)] := by
  have hbreak : ∀ line ∈ (inst.assignments paths).map renderLine ++ [[]], '\n' ∉ line := by
    intro line hline
    rcases List.mem_append.mp hline with hline | hline
    · obtain ⟨entry, hentry, rfl⟩ := List.mem_map.mp hline
      have hkey := isKey_of_mem_fileKeys entry.1 (List.mem_map_of_mem hentry)
      intro hmem
      rcases List.mem_append.mp hmem with hmem | hmem
      · exact (hkey.2.2 _ hmem).2.1 rfl
      · rcases List.mem_cons.mp hmem with hmem | hmem
        · cases hmem
        · exact (hvalues entry hentry).noBreak hmem
    · rw [List.mem_singleton.mp hline]
      exact List.not_mem_nil
  rw [numberedLines, InstanceEnv.render, List.splitOn_intercalate _ hbreak (by simp),
    List.zipIdx_append]
  rfl

theorem parseU16_eq_ok (port : Fin 65536) (h : entries.lookup key = some (Nat.toDigits 10 port)) :
    parseU16 entries key = .ok port := by
  have hport := parseUnsigned_toDigits (Nat.le_of_lt_succ port.2)
  simp only [parseU16, getKey, h, okOr, bind, Except.bind]
  split
  · rename_i n hn
    rw [hport] at hn
    cases hn
    rfl
  · rename_i hn
    rw [hport] at hn
    cases hn

theorem parseOptPid_eq_ok (pid : Option Pid) (h : entries.lookup key = some (renderPid pid)) :
    parseOptPid entries key = .ok pid := by
  cases pid with
  | none =>
    rw [parseOptPid, h]
    rfl
  | some pid =>
    have hread : parseUnsigned 4294967295 (renderPid (some pid)) = .ok pid.1 :=
      parseUnsigned_toDigits (le_trans pid.2.2 (by decide))
    have hne : renderPid (some pid) ≠ [] := Nat.toDigits_ne_nil
    rw [parseOptPid, h]
    split
    · contradiction
    · rename_i hnil
      exact absurd (Option.some.inj hnil) hne
    · rename_i hvalue
      cases hvalue
      rw [hread]
      simp only [dif_pos pid.2]

/-- What `save` writes is read back. -/
theorem parse_render (hinst : inst.Printable) (hpaths : paths.Printable) :
    parse (inst.render paths) = .ok inst := by
  have hvalues := printable_of_mem_assignments hinst hpaths
  have hkeys : ∀ entry ∈ inst.assignments paths, IsKey entry.1 :=
    fun entry hentry => isKey_of_mem_fileKeys entry.1 (List.mem_map_of_mem hentry)
  have hnodup : ((inst.assignments paths).map Prod.fst).reverse.Nodup :=
    List.nodup_reverse.mpr nodup_fileKeys
  have hlines : (numberedLines (inst.render paths)).foldlM addLine [] =
      .ok (inst.assignments paths).reverse := by
    have hfresh : (((inst.assignments paths).map Prod.fst).reverse ++
        ([] : Assignments).map Prod.fst).Nodup := by
      rwa [List.map_nil]
    have hread := foldlM_addLine 1 hkeys hvalues hfresh
    rw [numberedLines_render hvalues, List.foldlM_append, hread]
    rfl
  have hlookup : ∀ key value, (key, value) ∈ inst.assignments paths →
      (inst.assignments paths).reverse.lookup key = some value := fun key value hmem =>
    lookup_eq_some_of_mem (by simpa using hnodup) (List.mem_reverse.mpr hmem)
  have hget : ∀ key value, (key, value) ∈ inst.assignments paths →
      getKey (inst.assignments paths).reverse key = .ok value := fun key value hmem => by
    rw [getKey, hlookup key value hmem]
    rfl
  rw [parse, hlines]
  simp only [bind, Except.bind, pure, Except.pure]
  rw [hget _ inst.container (by simp [InstanceEnv.assignments]),
    hget _ inst.customer (by simp [InstanceEnv.assignments]),
    parseU16_eq_ok inst.hostPort (hlookup _ _ (by simp [InstanceEnv.assignments])),
    parseU16_eq_ok inst.sshPort (hlookup _ _ (by simp [InstanceEnv.assignments])),
    parseOptPid_eq_ok inst.firecrackerPid (hlookup _ _ (by simp [InstanceEnv.assignments])),
    parseOptPid_eq_ok inst.slirpPid (hlookup _ _ (by simp [InstanceEnv.assignments])),
    hlookup _ inst.customerDir (by simp [InstanceEnv.assignments])]
  rfl

end Theyos.VmRunner
