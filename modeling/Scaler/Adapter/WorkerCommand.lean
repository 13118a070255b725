import Mathlib.Data.List.Basic
import Scaler.Collections.Shell
import Scaler.Config.WorkerCapabilities

/-! The commands that start the workers of a manager on a machine or in a container:
`ECSWorkerProvisioner._build_task_command`, the command of `OCIRawWorkerProvisioner._start_instance`, and
the one at the end of `ORBAWSEC2WorkerManager._create_user_data`. -/

namespace Scaler.Adapter

open Collections Collections.PythonText Collections.Shell Scaler.Config

/-- The settings of a manager that its workers are started with. Addresses and the other texts are as
`str` gives them; `numWorkers` is `max(1, int(config.instance_ocpus))`. -/
structure WorkerCommandConfig where
  workerSchedulerAddress : List Char
  objectStorageAddress : Option (List Char)
  workerManagerId : List Char
  perWorkerTaskQueueSize : Int
  heartbeatIntervalSeconds : Int
  taskTimeoutSeconds : Int
  garbageCollectIntervalSeconds : Int
  deathTimeoutSeconds : Int
  trimMemoryThresholdBytes : Int
  hardProcessorSuspend : Bool
  eventLoop : List Char
  ioThreads : Int
  preload : Option (List Char)
  ecsTaskCpu : Int
  numWorkers : Int
  networkBackend : List Char

/-- One option of a command and its value. -/
def commandOption (gap : List Char) (name : String) (value : List Char) : List Char := gap ++ name.toList ++ ' ' :: value

namespace WorkerCommandConfig

variable (config : WorkerCommandConfig)

/-- The options that the three commands write in the same order. -/
def settings (gap : List Char) : List Char :=
  commandOption gap "--per-worker-task-queue-size" (str config.perWorkerTaskQueueSize) ++
    commandOption gap "--heartbeat-interval-seconds" (str config.heartbeatIntervalSeconds) ++
    commandOption gap "--task-timeout-seconds" (str config.taskTimeoutSeconds) ++
    commandOption gap "--garbage-collect-interval-seconds" (str config.garbageCollectIntervalSeconds) ++
    commandOption gap "--death-timeout-seconds" (str config.deathTimeoutSeconds) ++
    commandOption gap "--trim-memory-threshold-bytes" (str config.trimMemoryThresholdBytes) ++
    commandOption gap "--event-loop" config.eventLoop ++
    commandOption gap "--io-threads" (str config.ioThreads)

def suspend (gap : List Char) : List Char :=
  if config.hardProcessorSuspend then gap ++ "--hard-processor-suspend".toList else []

def storage (gap : List Char) : List Char :=
  match config.objectStorageAddress with
  | some address => commandOption gap "--object-storage-address" address
  | none => []

def ecsFront : List Char :=
  "scaler_worker_manager baremetal_native ".toList ++ config.workerSchedulerAddress ++
    commandOption [' '] "--mode" "fixed".toList ++ commandOption [' '] "--worker-type" "ECS".toList ++
    commandOption [' '] "--max-task-concurrency" (str config.ecsTaskCpu) ++ config.settings [' '] ++ config.suspend [' '] ++
    config.storage [' ']

def ecsBack : List Char :=
  commandOption [' '] "--worker-manager-id" config.workerManagerId ++
    match config.preload with
    | some preload => commandOption [' '] "--preload" (shlexQuote preload)
    | none => []

def buildTaskCommand (capabilities : Capabilities) : List Char :=
  let option :=
    if strip (formatCapabilities capabilities) ≠ [] then
      commandOption [' '] "--per-worker-capabilities" (formatCapabilities capabilities)
    else []
  config.ecsFront ++ option ++ config.ecsBack

def ociFront (isprintable : Char → Bool) : List Char :=
  "scaler_worker_manager baremetal_native ".toList ++ repr isprintable config.workerSchedulerAddress ++
    commandOption [' '] "--mode" "fixed".toList ++ commandOption [' '] "--worker-type" "OCI_RAW".toList ++
    commandOption [' '] "--max-task-concurrency" (str config.numWorkers) ++
    commandOption [' '] "--worker-manager-id" config.workerManagerId ++ config.settings [' '] ++ config.suspend [' '] ++
    config.storage [' ']

def startInstanceCommand (isprintable : Char → Bool) (capabilities : Capabilities) : List Char :=
  let capabilitiesStr := strip (formatCapabilities capabilities)
  let option := if capabilitiesStr ≠ [] then commandOption [' '] "--per-worker-capabilities" capabilitiesStr else []
  config.ociFront isprintable ++ option

/-- A line of the script goes on after a backslash. -/
def lineGap : List Char := " \\\n    ".toList

def orbFront : List Char :=
  "SCALER_NETWORK_BACKEND=".toList ++ config.networkBackend ++ " nohup scaler_worker_manager baremetal_native ".toList ++
    config.workerSchedulerAddress ++ commandOption lineGap "--mode" "fixed".toList ++
    commandOption lineGap "--worker-type" "ORB".toList ++
    commandOption lineGap "--worker-manager-id" (shlexQuote config.workerManagerId) ++ config.settings lineGap ++
    config.suspend lineGap ++ config.storage lineGap

def orbBack : List Char := " > /var/log/opengris-scaler.log 2>&1 &\n".toList

def createUserDataCommand (capabilities : Capabilities) : List Char :=
  let option :=
    if capabilities ≠ [] ∧ strip (formatCapabilities capabilities) ≠ [] then
      commandOption lineGap "--per-worker-capabilities" (formatCapabilities capabilities)
    else []
  config.orbFront ++ option ++ orbBack

end WorkerCommandConfig

/-- The words before an option are complete, and so are those behind it. -/
def Whole (front back : List Char) : Prop := (∃ s, scan start front = some s ∧ s.mode = .plain) ∧ (tokens back).isSome = true

/-- The shell passes the capabilities as one word, and the other words as without them. -/
def Advertises (command : Capabilities → List Char) (capabilities : Capabilities) : Prop :=
  ∃ front back passed, tokens (command []) = some (front ++ back) ∧
    tokens (command capabilities) = some (front ++ passed ++ back) ∧
    (capabilities = [] ∧ passed = [] ∨
      ∃ w, passed = [Token.word "--per-worker-capabilities".toList, .word w] ∧ WorkerCapabilities.fromString w = .ok capabilities)

/-- No name has a character that the shell does not leave alone. -/
def ShellSafe (capabilities : Capabilities) : Prop :=
  (∀ capability ∈ capabilities, ∀ c ∈ capability.1, special c = false) ∧
    ∀ capability ∈ capabilities.head?, ∀ c ∈ capability.1.head?, c ≠ '#' ∧ c ≠ '~'

instance (capabilities : Capabilities) : Decidable (ShellSafe capabilities) :=
  decidable_of_iff ((capabilities.all fun capability => capability.1.all fun c => !special c) = true ∧
      (capabilities.head?.all fun capability => capability.1.head?.all fun c => c ≠ '#' ∧ c ≠ '~') = true)
    ⟨fun ⟨h1, h2⟩ => ⟨by simpa using h1, by simpa [Option.all_eq_true] using h2⟩,
      fun ⟨h1, h2⟩ => ⟨by simpa using h1, by simpa [Option.all_eq_true] using h2⟩⟩

section Safe

variable {capabilities : Capabilities}

theorem special_of_isDigit {c : Char} (h : c.isDigit = true) : special c = false := by
  have hne : ∀ d : Char, d.isDigit = false → c ≠ d := by
    rintro d hd rfl
    rw [hd] at h
    cases h
  simp only [special, blank, isOperator, quoting, expanding, List.contains_cons, List.contains_nil, Bool.or_eq_false_iff,
    beq_eq_false_iff_ne]
  refine ⟨⟨⟨⟨hne _ rfl, hne _ rfl⟩, ?_⟩, ?_⟩, ?_⟩
  · exact ⟨hne _ rfl, hne _ rfl, hne _ rfl, hne _ rfl, hne _ rfl, hne _ rfl, hne _ rfl, hne _ rfl, trivial⟩
  · exact ⟨hne _ rfl, hne _ rfl, hne _ rfl, trivial⟩
  · exact ⟨hne _ rfl, hne _ rfl, hne _ rfl, hne _ rfl, hne _ rfl, trivial⟩

theorem weight_formatCapabilities (capabilities : Capabilities) :
    weight (formatCapabilities capabilities) = WorkerCapabilities.countNames special capabilities :=
  WorkerCapabilities.countP_formatCapabilities rfl rfl rfl (fun _ => special_of_isDigit) capabilities

theorem weight_eq_zero_iff {text : List Char} : weight text = 0 ↔ ∀ c ∈ text, special c = false := by
  rw [weight, List.countP_eq_zero]
  simp only [Bool.not_eq_true]

theorem countNames_eq_zero_iff :
    WorkerCapabilities.countNames special capabilities = 0 ↔
      ∀ capability ∈ capabilities, ∀ c ∈ capability.1, special c = false := by
  rw [WorkerCapabilities.countNames, List.sum_eq_zero_iff, List.forall_mem_map]
  exact forall₂_congr fun capability _ => weight_eq_zero_iff

/-- The names are safe exactly if the text is one plain word. -/
theorem shellSafe_iff (h : WorkerCapabilities.Wellformed capabilities) (hne : capabilities ≠ []) :
    ShellSafe capabilities ↔ PlainWord (formatCapabilities capabilities) := by
  have hhead := WorkerCapabilities.head?_formatCapabilities h
  have hstart : (∀ capability ∈ capabilities.head?, ∀ c ∈ capability.1.head?, c ≠ '#' ∧ c ≠ '~') ↔
      ∀ c ∈ (formatCapabilities capabilities).head?, c ≠ '#' ∧ c ≠ '~' := by
    rw [hhead]
    cases capabilities with
    | nil => exact absurd rfl hne
    | cons capability rest => simp
  rw [ShellSafe, ← countNames_eq_zero_iff, ← weight_formatCapabilities, weight_eq_zero_iff, hstart]
  constructor
  · rintro ⟨hplain, hhash⟩
    exact ⟨WorkerCapabilities.formatCapabilities_ne_nil h hne, hplain, hhash⟩
  · rintro ⟨-, hplain, hhash⟩
    exact ⟨hplain, hhash⟩

/-- A command that adds the option between two texts. -/
theorem advertises_of_shellSafe {command : Capabilities → List Char} {front gap back : List Char} (hwhole : Whole front back)
    (hgap : Gap gap) (hback : back = [] ∨ ∃ rest, back = ' ' :: rest) (h : WorkerCapabilities.Wellformed capabilities)
    (hsafe : ShellSafe capabilities) (hnil : command [] = front ++ back)
    (hcommand : capabilities ≠ [] → command capabilities =
      front ++ commandOption gap "--per-worker-capabilities" (formatCapabilities capabilities) ++ back) :
    Advertises command capabilities := by
  obtain ⟨⟨s, hfront, hmode⟩, hsome⟩ := hwhole
  obtain ⟨ts, hts⟩ := Option.isSome_iff_exists.mp hsome
  have hoption : PlainWord "--per-worker-capabilities".toList := by decide
  by_cases hne : capabilities = []
  · subst hne
    have hbase : tokens (front ++ back) = some ((endWord s).tokens ++ ts) := by
      rw [tokens, scan_append, hfront, Option.bind_some, scan_finish hmode hback, hts]
      rfl
    refine ⟨(endWord s).tokens, ts, [], ?_, ?_, .inl ⟨rfl, rfl⟩⟩
    · rw [hnil]
      exact hbase
    · rw [hnil, List.append_nil]
      exact hbase
  · have hword := (shellSafe_iff h hne).mp hsafe
    obtain ⟨hbase, hinsert⟩ := tokens_insert hfront hmode hgap hoption hword hback
    rw [hts] at hbase hinsert
    refine ⟨(endWord s).tokens, ts, _, ?_, ?_, .inr ⟨formatCapabilities capabilities, rfl, ?_⟩⟩
    · rw [hnil]
      exact hbase
    · rw [hcommand hne, commandOption, ← List.append_assoc, ← List.append_assoc]
      exact hinsert
    · exact WorkerCapabilities.fromString_formatCapabilities h

end Safe

section Unsafe

/-- A manager with nothing in its other settings that a shell would change. -/
def plainConfig : WorkerCommandConfig where
  workerSchedulerAddress := "tcp://s:1".toList
  objectStorageAddress := none
  workerManagerId := ['m']
  perWorkerTaskQueueSize := 1
  heartbeatIntervalSeconds := 1
  taskTimeoutSeconds := 0
  garbageCollectIntervalSeconds := 1
  deathTimeoutSeconds := 1
  trimMemoryThresholdBytes := 0
  hardProcessorSuspend := false
  eventLoop := "builtin".toList
  ioThreads := 1
  preload := none
  ecsTaskCpu := 1
  numWorkers := 1
  networkBackend := "ymq".toList

def plainTokens : List Token :=
  ["scaler_worker_manager", "baremetal_native", "tcp://s:1", "--mode", "fixed", "--worker-type", "ECS", "--max-task-concurrency",
    "1", "--per-worker-task-queue-size", "1", "--heartbeat-interval-seconds", "1", "--task-timeout-seconds", "0",
    "--garbage-collect-interval-seconds", "1", "--death-timeout-seconds", "1", "--trim-memory-threshold-bytes", "0",
    "--event-loop", "builtin", "--io-threads"].map fun text => .word text.toList

theorem scan_plainConfig : scan start plainConfig.ecsFront = some ⟨plainTokens, some ['1'], .plain⟩ := by
  decide +kernel

theorem tokens_plainConfig : tokens plainConfig.ecsBack = some [.word "--worker-manager-id".toList, .word ['m']] := rfl

theorem whole_plainConfig : Whole plainConfig.ecsFront plainConfig.ecsBack := by
  refine ⟨⟨_, scan_plainConfig, rfl⟩, ?_⟩
  rw [tokens_plainConfig]
  rfl

theorem ecsBack_plainConfig : plainConfig.ecsBack = ' ' :: ("--worker-manager-id".toList ++ [' ', 'm']) := rfl

theorem notMem_plainConfig : Token.word "--per-worker-capabilities".toList ∉
    (endWord ⟨plainTokens, some ['1'], .plain⟩).tokens ++ [Token.word "--worker-manager-id".toList, .word ['m']] := by
  decide

/-- The option behind the capabilities does not close a quote that they open. -/
theorem ends_plainConfig (w : List Char) :
    Ends w plainConfig.ecsBack [.word "--worker-manager-id".toList, .word ['m']] := by
  rintro ⟨ts, current, mode⟩ rfl h
  cases mode with
  | plain =>
    rw [scan_finish rfl (.inr ⟨_, ecsBack_plainConfig⟩), tokens_plainConfig] at h
    cases current with
    | none => cases congrArg List.length (Option.some.inj h)
    | some word =>
      obtain ⟨hword, -⟩ := List.cons.inj (Option.some.inj h)
      exact ⟨rfl, congrArg some (Token.word.inj hword)⟩
  | escaped =>
    have hstep : step ⟨[], current, .escaped⟩ ' ' = some ⟨[], some (current.getD [] ++ [' ']), .plain⟩ := rfl
    have hoption : PlainWord "--worker-manager-id".toList := by decide
    have hplain := hoption.plain
    have hrest : tokens [' ', 'm'] = some [.word ['m']] := rfl
    rw [ecsBack_plainConfig, scan_cons, hstep, Option.bind_some, scan_append, scan_rest_of_word hplain, Option.bind_some,
      scan_finish rfl (.inr ⟨_, rfl⟩), hrest] at h
    cases congrArg List.length (Option.some.inj h)
  | single =>
    have hopen : (scan ⟨[], current, .single⟩ plainConfig.ecsBack).bind finish = none := rfl
    exact absurd (hopen.symm.trans h) nofun
  | double =>
    have hopen : (scan ⟨[], current, .double⟩ plainConfig.ecsBack).bind finish = none := rfl
    exact absurd (hopen.symm.trans h) nofun
  | doubleEscaped =>
    have hopen : (scan ⟨[], current, .doubleEscaped⟩ plainConfig.ecsBack).bind finish = none := rfl
    exact absurd (hopen.symm.trans h) nofun
  | comment =>
    have hskip : (scan ⟨[], current, .comment⟩ plainConfig.ecsBack).bind finish = some (endWord ⟨[], current, .comment⟩).tokens := rfl
    rw [hskip] at h
    cases current with
    | none => cases congrArg List.length (Option.some.inj h)
    | some word => cases congrArg List.length (Option.some.inj h)

theorem buildTaskCommand_eq (config : WorkerCommandConfig) {capabilities : Capabilities}
    (h : WorkerCapabilities.Wellformed capabilities) (hne : capabilities ≠ []) : config.buildTaskCommand capabilities =
      config.ecsFront ++ commandOption [' '] "--per-worker-capabilities" (formatCapabilities capabilities) ++ config.ecsBack := by
  have hsome := WorkerCapabilities.formatCapabilities_ne_nil h hne
  rw [WorkerCommandConfig.buildTaskCommand, WorkerCapabilities.strip_formatCapabilities h, if_pos hsome]

theorem buildTaskCommand_nil (config : WorkerCommandConfig) : config.buildTaskCommand [] = config.ecsFront ++ config.ecsBack := by
  change config.ecsFront ++ [] ++ config.ecsBack = _
  rw [List.append_nil]

theorem shellSafe_of_advertises {capabilities : Capabilities} (h : WorkerCapabilities.Wellformed capabilities)
    (hadvertises : Advertises plainConfig.buildTaskCommand capabilities) : ShellSafe capabilities := by
  by_cases hne : capabilities = []
  · subst hne
    exact ⟨fun _ hmem => absurd hmem List.not_mem_nil, nofun⟩
  · obtain ⟨front, back, passed, hbase, htokens, hpassed⟩ := hadvertises
    obtain ⟨w, rfl, hread⟩ := hpassed.resolve_left fun hnil => hne hnil.1
    rw [buildTaskCommand_nil] at hbase
    rw [buildTaskCommand_eq plainConfig h hne, commandOption, ← List.append_assoc, ← List.append_assoc] at htokens
    have hfirst := first_of_insert scan_plainConfig rfl (by decide) ⟨_, ecsBack_plainConfig⟩ tokens_plainConfig
      notMem_plainConfig hbase htokens
    refine (shellSafe_iff h hne).mpr ?_
    refine plainWord_of_weight (ends_plainConfig w) (WorkerCapabilities.formatCapabilities_ne_nil h hne) hfirst ?_
    rw [weight_formatCapabilities]
    exact WorkerCapabilities.countNames_fromString rfl hread

end Unsafe

theorem startInstanceCommand_eq (config : WorkerCommandConfig) (isprintable : Char → Bool) {capabilities : Capabilities}
    (h : WorkerCapabilities.Wellformed capabilities) (hne : capabilities ≠ []) :
    config.startInstanceCommand isprintable capabilities = config.ociFront isprintable ++
      commandOption [' '] "--per-worker-capabilities" (formatCapabilities capabilities) ++ [] := by
  have hsome := WorkerCapabilities.formatCapabilities_ne_nil h hne
  rw [WorkerCommandConfig.startInstanceCommand, WorkerCapabilities.strip_formatCapabilities h, if_pos hsome, List.append_nil]

theorem createUserDataCommand_eq (config : WorkerCommandConfig) {capabilities : Capabilities}
    (h : WorkerCapabilities.Wellformed capabilities) (hne : capabilities ≠ []) :
    config.createUserDataCommand capabilities = config.orbFront ++
      commandOption WorkerCommandConfig.lineGap "--per-worker-capabilities" (formatCapabilities capabilities) ++
        WorkerCommandConfig.orbBack := by
  have hsome := WorkerCapabilities.formatCapabilities_ne_nil h hne
  rw [WorkerCommandConfig.createUserDataCommand, WorkerCapabilities.strip_formatCapabilities h, if_pos ⟨hne, hsome⟩]

/-- The capabilities of every manager reach its workers, and the other options stay, exactly if the shell
leaves the names alone. -/
theorem advertises_iff_shellSafe {value : List Char} {capabilities : Capabilities}
    (h : WorkerCapabilities.fromString value = .ok capabilities) :
    (∀ (config : WorkerCommandConfig) (isprintable : Char → Bool),
      (Whole config.ecsFront config.ecsBack → Advertises config.buildTaskCommand capabilities) ∧
      (Whole (config.ociFront isprintable) [] → Advertises (config.startInstanceCommand isprintable) capabilities) ∧
      (Whole config.orbFront WorkerCommandConfig.orbBack → Advertises config.createUserDataCommand capabilities)) ↔
      ShellSafe capabilities := by
  have hwell := WorkerCapabilities.wellformed_fromString h
  constructor
  · intro hall
    exact shellSafe_of_advertises hwell ((hall plainConfig fun _ => true).1 whole_plainConfig)
  · intro hsafe config isprintable
    refine ⟨fun hwhole => ?_, fun hwhole => ?_, fun hwhole => ?_⟩
    · exact advertises_of_shellSafe hwhole gap_blank (.inr ⟨_, rfl⟩) hwell hsafe (buildTaskCommand_nil config)
        (buildTaskCommand_eq config hwell)
    · exact advertises_of_shellSafe hwhole gap_blank (.inl rfl) hwell hsafe rfl (startInstanceCommand_eq config isprintable hwell)
    · refine advertises_of_shellSafe hwhole gap_continued (.inr ⟨_, rfl⟩) hwell hsafe ?_ (createUserDataCommand_eq config hwell)
      change config.orbFront ++ [] ++ WorkerCommandConfig.orbBack = _
      rw [List.append_nil]

theorem advertises_iff_shellSafe_gpu :
    WorkerCapabilities.fromString "gpu, cpu=04".toList = .ok [("gpu".toList, -1), ("cpu".toList, 4)] ∧
      Advertises plainConfig.buildTaskCommand [("gpu".toList, -1), ("cpu".toList, 4)] := by
  have hread : WorkerCapabilities.fromString "gpu, cpu=04".toList = .ok [("gpu".toList, -1), ("cpu".toList, 4)] := rfl
  have hsafe : ShellSafe [("gpu".toList, -1), ("cpu".toList, 4)] := by decide
  exact ⟨hread, ((advertises_iff_shellSafe hread).mpr hsafe plainConfig fun _ => true).1 whole_plainConfig⟩

/-- A blank in a name cuts the word in two. -/
theorem blank_splits_capabilities :
    WorkerCapabilities.fromString "big gpu".toList = .ok [("big gpu".toList, -1)] ∧ Whole plainConfig.ecsFront plainConfig.ecsBack ∧
      ¬ Advertises plainConfig.buildTaskCommand [("big gpu".toList, -1)] := by
  have hread : WorkerCapabilities.fromString "big gpu".toList = .ok [("big gpu".toList, -1)] := rfl
  refine ⟨hread, whole_plainConfig, fun hadvertises => ?_⟩
  have hsafe := shellSafe_of_advertises (WorkerCapabilities.wellformed_fromString hread) hadvertises
  have hblank := hsafe.1 _ List.mem_cons_self ' ' (by decide)
  exact absurd hblank (by decide)

end Scaler.Adapter
