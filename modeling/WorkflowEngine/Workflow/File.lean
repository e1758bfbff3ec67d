import WorkflowEngine.Json.Reader
import WorkflowEngine.Text.Case
import WorkflowEngine.Text.Quoted
import WorkflowEngine.Workflow.Decode
import WorkflowEngine.Workflow.Encode
import WorkflowEngine.Yaml.Reader

/-!
# Workflow files

Loading workflows from texts and files, and writing them. The ending of a file's name decides
between JSON and YAML.
-/

namespace WorkflowEngine

inductive Format where
  | json
  | yaml
  deriving DecidableEq

def Format.label : Format → String
  | .json => "JSON"
  | .yaml => "YAML"

/-- How deep collections may nest in a text. -/
def Format.levels : Format → Nat
  | .json => 127
  | .yaml => 128

def Format.read (format : Format) (text : String) : Option Document :=
  match format with
  | .json => Json.readText text
  | .yaml => Yaml.readText text

def fileName (path : String) : List Char :=
  (path.toList.reverse.takeWhile (· != '/')).reverse

/-- What follows the last point in the name of a file, unless the name begins with it. -/
def fileExtension? (path : String) : Option String :=
  let name := fileName path
  let ending := (name.reverse.takeWhile (· != '.')).reverse
  if name == ['.', '.'] then none
  else if name.length ≤ ending.length + 1 then none
  else some (String.ofList ending)

/-- Whether a path has one of the extensions, in any case. -/
def hasExtension (extensions : List String) (path : String) : Bool :=
  (fileExtension? path).any fun e => extensions.any (Text.sameIgnoringAsciiCase e)

inductive LoadError where
  | unparsable (format : Format)
  | unreadable (path : String)
  | invalidFile (path : String) (format : Format)

def LoadError.message : LoadError → String
  | .unparsable format => s!"Failed to parse workflow {format.label} content"
  | .unreadable path => s!"Failed to read workflow file: {Text.quoted path}"
  | .invalidFile path format =>
    s!"Invalid workflow file: {Text.quoted path}: Failed to parse workflow {format.label} content"

inductive SaveError where
  | unwritable (path : String) (format : Format)

def SaveError.message : SaveError → String
  | .unwritable path format => s!"Failed to write {format.label} file: {Text.quoted path}"

/-- Whether a name can be that of a file in a folder that has no folders in it. -/
def isFileName (name : String) : Bool :=
  !name.isEmpty && name != "." && name != ".."
    && !name.toList.any (fun c => c == '/' || c == '\x00') && decide (name.utf8ByteSize ≤ 255)

namespace Workflow

/-- The format of a workflow file: YAML for the two endings of that format, else JSON. -/
def fileFormat (path : String) : Format :=
  if hasExtension ["yaml", "yml"] path then .yaml else .json

def ofText (format : Format) (text : String) : Except LoadError Workflow :=
  match (format.read text).bind (Workflow.decode? format.levels) with
  | some w => .ok w
  | none => .error (.unparsable format)

def toText (format : Format) (w : Workflow) : String :=
  match format with
  | .json => w.pretty
  | .yaml => w.yaml

/-- Loads a file whose content is given, if it has one. -/
def ofFile (path : String) (content : Option String) : Except LoadError Workflow :=
  match content with
  | none => .error (.unreadable path)
  | some text =>
    match ofText (fileFormat path) text with
    | .ok w => .ok w
    | .error _ => .error (.invalidFile path (fileFormat path))

/-- The content of the file that a workflow is saved to, if that file can be written. -/
def toFile (format : Format) (folder name : String) (w : Workflow) : Except SaveError String :=
  if isFileName name then .ok (w.toText format) else .error (.unwritable (folder ++ name) format)

end Workflow

end WorkflowEngine
