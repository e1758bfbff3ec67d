import WorkflowEngine.Workflow.File

/-!
# Settings of the engine

Intervals and limits in milliseconds, and the two numbers that bound parallelism. Every setting has
a default, so a text names only those that differ from it.
-/

namespace WorkflowEngine

structure Settings where
  /-- Time between two checks of the triggers. -/
  triggerInterval : Nat := 30000
  /-- Time between two looks at a paused queue. -/
  pausePoll : Nat := 100
  /-- How long a job's result is kept when nobody fetches it. -/
  jobTtl : Nat := 300000
  workflowTimeout : Nat := 1800000
  taskTimeout : Nat := 120000
  minParallelism : Nat := 2
  parallelismPerCpu : Nat := 2
  deriving DecidableEq

inductive SettingsError where
  | unparsable (format : Format)
  | unreadable (path : String)
  | invalidFile (path : String) (format : Format)

def SettingsError.message : SettingsError → String
  | .unparsable format => s!"Failed to parse runtime config {format.label}"
  | .unreadable path => s!"Failed to read config file: {path}"
  | .invalidFile path format =>
    s!"Invalid config file: {path}: Failed to parse runtime config {format.label}"

namespace Settings

def names : List String :=
  ["trigger_interval_ms", "pause_poll_interval_ms", "completed_job_ttl_ms",
    "default_workflow_timeout_ms", "default_task_timeout_ms", "min_parallelism",
    "parallelism_per_cpu"]

open Document in
def decode? (levels : Nat) (d : Document) : Option Settings :=
  let defaults : Settings := {}
  match d.parts? names levels with
  | some (_, [trigger, pause, ttl, workflow, task, least, perCpu]) =>
    match part? nat? defaults.triggerInterval trigger, part? nat? defaults.pausePoll pause,
      part? nat? defaults.jobTtl ttl, part? nat? defaults.workflowTimeout workflow,
      part? nat? defaults.taskTimeout task, part? nat? defaults.minParallelism least,
      part? nat? defaults.parallelismPerCpu perCpu with
    | some trigger, some pause, some ttl, some workflow, some task, some least, some perCpu =>
      some ⟨trigger, pause, ttl, workflow, task, least, perCpu⟩
    | _, _, _, _, _, _, _ => none
  | _ => none

def entries (s : Settings) : List (String × Nat) :=
  names.zip [s.triggerInterval, s.pausePoll, s.jobTtl, s.workflowTimeout, s.taskTimeout,
    s.minParallelism, s.parallelismPerCpu]

/-- The format of a settings file: JSON for that ending, else YAML. -/
def fileFormat (path : String) : Format :=
  if hasExtension ["json"] path then .json else .yaml

def ofText (format : Format) (text : String) : Except SettingsError Settings :=
  match (format.read text).bind (decode? format.levels) with
  | some s => .ok s
  | none => .error (.unparsable format)

/-- Loads a file whose content is given, if it has one. -/
def ofFile (path : String) (content : Option String) : Except SettingsError Settings :=
  match content with
  | none => .error (.unreadable path)
  | some text =>
    match ofText (fileFormat path) text with
    | .ok s => .ok s
    | .error _ => .error (.invalidFile path (fileFormat path))

/-- Whole milliseconds in a number of microseconds, as far as 64 bits hold them. -/
def milliseconds (microseconds : Nat) : Nat := microseconds / 1000 % Nat.pow 2 64

def withTriggerInterval (s : Settings) (microseconds : Nat) : Settings :=
  { s with triggerInterval := milliseconds microseconds }

def withPausePoll (s : Settings) (microseconds : Nat) : Settings :=
  { s with pausePoll := milliseconds microseconds }

def withJobTtl (s : Settings) (microseconds : Nat) : Settings :=
  { s with jobTtl := milliseconds microseconds }

def withWorkflowTimeout (s : Settings) (microseconds : Nat) : Settings :=
  { s with workflowTimeout := milliseconds microseconds }

def withTaskTimeout (s : Settings) (microseconds : Nat) : Settings :=
  { s with taskTimeout := milliseconds microseconds }

def withMinParallelism (s : Settings) (n : Nat) : Settings := { s with minParallelism := n }

def withParallelismPerCpu (s : Settings) (n : Nat) : Settings := { s with parallelismPerCpu := n }

end Settings

end WorkflowEngine
