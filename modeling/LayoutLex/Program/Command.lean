import LayoutLex.Catalogue.Manifest
import LayoutLex.Program.Report
import LayoutLex.Program.Session

/-!
# The command

One run of the program as a function from what it is given to what it writes.

* The catalogue is read first, if one is named. A file that cannot be read ends the run with the
  reason; so does a faulty manifest, after the fault has been shown.
* An interactive run is a session over the standard input. Otherwise the named file is reported on,
  and the run fails if some line of it is faulty.
* Blanks are dropped if an option or the setting says so.

Of the standard error an `Outcome` holds the report of what went wrong, which is all that decides
how the run ends. The log goes there too, by default from the level `info` on (how many symbols
were loaded, how long a file took, which delimiter was not closed). It is left out.
-/

namespace LayoutLex.Program

/-- Why a file has no text. -/
inductive ReadFailure where
  | missing
  | notText
  | other (reason : String)
  deriving DecidableEq, Repr

/-- The reason in words. -/
def ReadFailure.text : ReadFailure → String
  | missing => "No such file or directory (os error 2)"
  | notText => "stream did not contain valid UTF-8"
  | other reason => reason

/-- A named file and its bytes, if it can be read. -/
structure Document where
  path : String
  bytes : Except ReadFailure (List UInt8)

namespace Document

/-- The text of the file. -/
def text (d : Document) : Except ReadFailure (List Char) :=
  match d.bytes with
  | .error failure => .error failure
  | .ok bytes =>
    match Text.decode? bytes with
    | none => .error .notText
    | some text => .ok text

/-- The part of the path after its last slash. -/
def name (d : Document) : String :=
  String.ofList (d.path.toList.reverse.takeWhile (· != '/')).reverse

end Document

/-- What a run is asked to lex. -/
inductive Task where
  /-- The lines of the standard input. -/
  | converse (input : List UInt8)
  /-- The lines of a file. -/
  | inspect (document : Document)

/-- What a run is given. -/
structure Request where
  task : Task
  catalogue? : Option Document
  /-- The option to drop blanks is given. -/
  noSpaces : Bool
  /-- The setting of the environment for blanks. -/
  setting? : Option String

/-- What a run leaves behind, apart from its log. -/
structure Outcome where
  stdout : String
  stderr : String
  exitCode : Nat
  deriving DecidableEq, Repr

namespace Outcome

/-- A run that has gone well. -/
def success (stdout : String) : Outcome := ⟨stdout, "", 0⟩

/-- A run that ends with a report of what went wrong. -/
def failure (stdout report : String) : Outcome := ⟨stdout, "Error: " ++ report ++ "\n", 1⟩

/-- A run that ends because something could not be done, for a reason. -/
def unread (what : String) (reason : ReadFailure) : Outcome :=
  failure "" ("failed to read " ++ what ++ "\n\nCaused by:\n    " ++ reason.text)

end Outcome

/-- The catalogue of a run, or the outcome if there is none to be had. -/
def loadCatalogue : Option Document → Except Outcome Catalogue
  | none => .ok .empty
  | some document =>
    match document.text with
    | .error reason => .error (.unread ("catalogue " ++ document.path) reason)
    | .ok manifest =>
      match Catalogue.ofManifest (String.ofList manifest) document.name with
      | .ok catalogue => .ok catalogue
      | .error fault =>
        .error (.failure (fault.render (String.ofList manifest)) fault.message)

/-- A run over a file. -/
def inspectFile (lexer : Lexer) (document : Document) : Outcome :=
  match document.text with
  | .error reason => .unread document.path reason
  | .ok source =>
    let report := Report.ofSource lexer document.name source
    if report.failed = 0 then .success report.text
    else .failure report.text (toString report.failed ++ " lines failed to tokenize")

/-- The spacing of a run. -/
def Request.spacing (request : Request) : Scan.Spacing :=
  if request.noSpaces then .drop else .ofSetting request.setting?

/-- A run of the program. -/
def run (request : Request) : Outcome :=
  match loadCatalogue request.catalogue? with
  | .error outcome => outcome
  | .ok catalogue =>
    let lexer : Lexer := ⟨catalogue, request.spacing⟩
    match request.task with
    | .converse input => .success (session lexer (.ofLines (inputLines input)))
    | .inspect document => inspectFile lexer document

end LayoutLex.Program
