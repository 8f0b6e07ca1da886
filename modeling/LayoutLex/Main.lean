import LayoutLex.Program.Command

/-!
# The command line

Reads the arguments, the files and the standard input, and prints what the run leaves behind. A
session is held line by line, so that every answer appears before the next line is entered.
-/

namespace LayoutLex.Program

/-- The command line, taken apart. -/
structure Arguments where
  file? : Option String
  catalogue? : Option String
  noSpaces : Bool
  interactive : Bool

/-- Takes the command line apart; none if it cannot be understood. -/
def Arguments.ofList? (args : Arguments) : List String → Option Arguments
  | [] => if args.interactive || args.file?.isSome then some args else none
  | "--no-spaces" :: rest => ofList? { args with noSpaces := true } rest
  | "--interactive" :: rest | "-i" :: rest => ofList? { args with interactive := true } rest
  | "--catalogue" :: path :: rest | "-c" :: path :: rest =>
    ofList? { args with catalogue? := some path } rest
  | path :: rest =>
    if args.file?.isSome || path.startsWith "-" then none
    else ofList? { args with file? := some path } rest

/-- Reads a file. -/
def readDocument (path : String) : IO Document := do
  try
    let bytes ← IO.FS.readBinFile path
    return ⟨path, .ok bytes.toList⟩
  catch
    | .noFileOrDirectory .. => return ⟨path, .error .missing⟩
    | failure => return ⟨path, .error (.other (toString failure))⟩

/-- Reads the bytes up to and including the next line feed, or up to the end. -/
partial def readRecord (input : IO.FS.Stream) (bytes : ByteArray) : IO (List UInt8) := do
  let next ← input.read 1
  if next.isEmpty then return bytes.toList
  let bytes := bytes ++ next
  if next[0]? == some 0x0A then return bytes.toList else readRecord input bytes

/-- Holds a session while its lines are entered: writes the prompt, reads one record and answers it,
and so on. It ends at the first record that is empty, as all are after the end of the input, or not
UTF-8. The records are those that `terminated` cuts the input into, and `session` goes through them
in the same way (`session_records`), so all that is written is `session` of the whole input. -/
partial def converse (lexer : Lexer) (input output : IO.FS.Stream) : IO Unit := do
  output.putStr prompt
  output.flush
  let record ← readRecord input .empty
  if record.isEmpty then return
  match Text.decode? record with
  | none => return
  | some line =>
    output.putStr (answer lexer (Text.dropLineEnd line))
    converse lexer input output

/-- Prints what a run leaves behind. -/
def finish (outcome : Outcome) : IO UInt32 := do
  (← IO.getStdout).putStr outcome.stdout
  (← IO.getStderr).putStr outcome.stderr
  return outcome.exitCode.toUInt32

end LayoutLex.Program

open LayoutLex LayoutLex.Program in
/-- Runs the program. -/
def main (args : List String) : IO UInt32 := do
  let some args := Arguments.ofList? ⟨none, none, false, false⟩ args
    | (← IO.getStderr).putStr "usage: [--catalogue PATH] [--no-spaces] [--interactive | FILE]\n"
      return 2
  let setting? ← IO.getEnv "GPL_PRESERVE_SPACING"
  let catalogue? ← args.catalogue?.mapM readDocument
  match args.interactive, args.file? with
  | false, some path =>
    finish (run ⟨.inspect (← readDocument path), catalogue?, args.noSpaces, setting?⟩)
  | _, _ =>
    match loadCatalogue catalogue? with
    | .error outcome => finish outcome
    | .ok catalogue =>
      let request : Request := ⟨.converse [], none, args.noSpaces, setting?⟩
      converse ⟨catalogue, request.spacing⟩ (← IO.getStdin) (← IO.getStdout)
      return 0
