import LayoutLex.Program.Command
import LayoutLex.Proofs.Decoding
import LayoutLex.Proofs.Lossless
import LayoutLex.Proofs.Runs

/-!
# The report on a file, line by line

A run over a file keeps its own account of the lines it has lexed: what it has shown of them, how
many were faulty and which words were left over. Each line adds to all three by itself. So the
account of a file is put together from its lines one by one, and the words left over are those that
the lexer finds in the whole text.

* `block` is what is shown of a line, with a `row` for each token, and `faulty` says that it counts
  as a fault.
* `addLine_eq` is one line, `foldl_addLine` any number of them.

Results:
* `sourceLines_eq`: the lines of a source are what stands between its line breaks, less what is
  empty.
* `ofSource_eq`: the report on a source.
* `run_inspect`: what a run over a file writes and how it ends.
-/

namespace LayoutLex

open Text

/-! ## The lines of a source -/

namespace Text

/-- The runs outside a class are what stands between the characters of the class, less what is
empty. -/
theorem runs_eq_filter_splitOnP (p : Char → Bool) (cs : List Char) :
    runs p cs = (cs.splitOnP p).filter (· ≠ []) := by
  fun_induction runs p cs with
  | case1 => simp
  | case2 c rest hsep ih => simp [List.splitOnP_cons_eq_if_modifyHead, hsep, ih]
  | case3 c rest hsep ih =>
    have hrun : ∀ d ∈ c :: rest.takeWhile (!p ·), p d = false :=
      List.forall_mem_cons.mpr ⟨by simpa using hsep, fun d hd => by simpa using mem_takeWhile hd⟩
    have hsplit : c :: rest = (c :: rest.takeWhile (!p ·)) ++ rest.dropWhile (!p ·) := by
      rw [List.cons_append, List.takeWhile_append_dropWhile]
    have hstops := stops_dropWhile (!p ·) rest
    rw [ih, hsplit]
    cases hdrop : rest.dropWhile (!p ·) with
    | nil => simp [List.splitOnP_eq_singleton hrun]
    | cons d tail =>
      rw [hdrop, stops_cons, Bool.not_eq_false'] at hstops
      rw [List.splitOnP_append_cons_of_forall_mem hrun d hstops]
      simp [List.splitOnP_cons_eq_if_modifyHead, hstops]

/-- The lines of a source are what stands between its line breaks, less what is empty. -/
theorem sourceLines_eq (cs : List Char) :
    sourceLines cs = (cs.splitOnP isBreak).filter (· ≠ []) :=
  runs_eq_filter_splitOnP isBreak cs

end Text

theorem Lexer.tokenize_ofList (lexer : Lexer) (file : String) (line : List Char) :
    lexer.tokenize (String.ofList line) (some file) = lexer.lex line file := by
  rw [tokenize, String.toList_ofList, Option.getD_some]

theorem Lexer.mem_unresolvedSymbols {lexer : Lexer} {text : List Char} {file name : String} :
    name ∈ lexer.unresolvedSymbols (String.ofList text) (some file) ↔
      ∃ line ∈ sourceLines text, ∃ tokens,
        lexer.tokenize (String.ofList line) (some file) = .ok tokens ∧
          name ∈ Token.unresolvedTexts tokens := by
  rw [unresolvedSymbols, NameSet.mem_ofList, List.mem_flatMap, String.toList_ofList,
    Option.getD_some]
  refine exists_congr fun line => and_congr_right fun _ => ?_
  rw [tokenize_ofList, unresolvedInLine]
  cases lexer.lex line file with
  | ok tokens => simp
  | error fault => simp

namespace Program

/-! ## One line -/

/-- The line cannot be lexed. -/
def faulty (lexer : Lexer) (file : String) (line : List Char) : Bool :=
  !(lexer.tokenize (String.ofList line) (some file)).isOk

/-- The row of a token in a listing: its kind and text, and the offsets where it starts and ends. -/
def row (t : Token) : String :=
  "    #<:" ++ t.kind.name ++ " '" ++ t.text ++ "'> [" ++ toString t.span.start.offset ++ ".." ++
    toString t.span.stop.offset ++ "]\n"

/-- What is shown of a line: the line, and the texts of its tokens with a row for each, or its
fault. -/
def block (lexer : Lexer) (file : String) (line : List Char) : String :=
  "ORIG : " ++ String.ofList line ++ "\n" ++
    match lexer.tokenize (String.ofList line) (some file) with
    | .ok tokens =>
      "AFTER: " ++ String.join (tokens.map (·.text)) ++ "\n" ++ String.join (tokens.map row)
    | .error fault => fault.render (String.ofList line)

/-- The program writes that row. -/
theorem tokenLine_eq (t : Token) : tokenLine t = row t := by
  have hopening : "    #<:" = "    " ++ "#<:" := rfl
  have hclosing : "'> [" = "'>" ++ " [" := rfl
  unfold tokenLine Token.shown row
  simp only [hopening, hclosing, String.append_assoc]

theorem listing_eq (tokens : List Token) : listing tokens = String.join (tokens.map row) := by
  rw [listing, funext tokenLine_eq]

namespace Report

/-- **A line adds what it would add to any other report.** -/
theorem addLine_eq (lexer : Lexer) (file : String) (report : Report) (line : List Char) :
    addLine lexer file report line =
      ⟨report.text ++ block lexer file line,
        report.failed + if faulty lexer file line then 1 else 0,
        report.symbols.insertAll (lexer.unresolvedInLine file line)⟩ := by
  unfold addLine block faulty Lexer.unresolvedInLine
  rw [Lexer.tokenize_ofList]
  cases lexer.lex line file with
  | ok tokens => simp [tokensBlock, listing_eq, Except.toBool, String.append_assoc]
  | error fault => simp [NameSet.insertAll, Except.toBool, String.append_assoc]

/-! ## All lines -/

/-- **The report on lines** is put together from what each of them adds. -/
theorem foldl_addLine (lexer : Lexer) (file : String) (lines : List (List Char))
    (report : Report) :
    lines.foldl (addLine lexer file) report =
      ⟨report.text ++ String.join (lines.map (block lexer file)),
        report.failed + lines.countP (faulty lexer file),
        report.symbols.insertAll (lines.flatMap (lexer.unresolvedInLine file))⟩ := by
  induction lines generalizing report with
  | nil => simp [NameSet.insertAll]
  | cons line lines ih =>
    rw [List.foldl_cons, ih, addLine_eq, List.map_cons, String.join_cons, List.countP_cons,
      List.flatMap_cons, NameSet.insertAll_append, String.append_assoc, Nat.add_assoc,
      Nat.add_comm (List.countP _ _)]

/-- The report on a source: its lines, how many are faulty, and the words that the lexer leaves
over in the source. -/
theorem ofSource_eq (lexer : Lexer) (file : String) (source : List Char) :
    ofSource lexer file source =
      let symbols := lexer.unresolvedSymbols (String.ofList source) (some file)
      ⟨String.join ((sourceLines source).map (block lexer file)) ++ symbolsLine symbols,
        (sourceLines source).countP (faulty lexer file), symbols⟩ := by
  rw [ofSource, foldl_addLine, Lexer.unresolvedSymbols, String.toList_ofList]
  simp [empty, NameSet.ofList]

end Report

/-! ## A run over a file -/

theorem Document.text_encode (path : String) (source : List Char) :
    Document.text ⟨path, .ok (encode source)⟩ = .ok source := by
  simp only [Document.text, decode?_encode]

/-- A file that can be read is reported on, and the run fails if some line of it is faulty. -/
theorem inspectFile_of_text {document : Document} {source : List Char}
    (htext : document.text = .ok source) {lexer : Lexer} {report : Report}
    (hreport : Report.ofSource lexer document.name source = report) :
    inspectFile lexer document =
      if report.failed = 0 then ⟨report.text, "", 0⟩
      else
        ⟨report.text, "Error: " ++ toString report.failed ++ " lines failed to tokenize\n", 1⟩ := by
  unfold inspectFile
  simp only [htext, hreport, Outcome.success, Outcome.failure, String.append_assoc]
  rfl

/-- **A run over a file is the lexer over its lines.** When the catalogue can be had, the run shows
the lines that are not empty in their order, each by itself, and names what the lexer leaves over in
the whole source, in increasing order and each name once. It fails exactly if some line is faulty,
and reports how many are. With blanks kept, the tokens of a line that is not faulty put together
are the line. -/
theorem run_inspect {catalogue? : Option Document} {c : Catalogue}
    (hload : loadCatalogue catalogue? = .ok c) (path : String) (source : List Char)
    (noSpaces : Bool) (setting? : Option String) :
    let document : Document := ⟨path, .ok (encode source)⟩
    let request : Request := ⟨.inspect document, catalogue?, noSpaces, setting?⟩
    let lexer : Lexer := ⟨c, request.spacing⟩
    let lines := (source.splitOnP isBreak).filter (· ≠ [])
    let symbols := lexer.unresolvedSymbols (String.ofList source) (some document.name)
    let stdout := String.join (lines.map (block lexer document.name)) ++
      "UNRESOLVED: " ++ " ".intercalate symbols.names ++ "\n"
    let failed := lines.countP (faulty lexer document.name)
    run request =
        (if failed = 0 then ⟨stdout, "", 0⟩
        else ⟨stdout, "Error: " ++ toString failed ++ " lines failed to tokenize\n", 1⟩) ∧
      symbols.names.Pairwise (· < ·) ∧
      (∀ name, name ∈ symbols ↔ ∃ line ∈ lines, ∃ tokens,
        lexer.tokenize (String.ofList line) (some document.name) = .ok tokens ∧
          name ∈ Token.unresolvedTexts tokens) ∧
      (request.spacing = .keep → ∀ line tokens,
        lexer.tokenize (String.ofList line) (some document.name) = .ok tokens →
          String.join (tokens.map (·.text)) = String.ofList line) := by
  intro document request lexer lines symbols stdout failed
  have hlines : sourceLines source = lines := sourceLines_eq source
  have hreport : Report.ofSource lexer document.name source = ⟨stdout, failed, symbols⟩ := by
    rw [Report.ofSource_eq, hlines]
    simp only [Report.symbolsLine, stdout, String.append_assoc]
    rfl
  refine ⟨?_, symbols.sorted, fun name => ?_, fun hkeep line tokens h => ?_⟩
  · have hrun : run request = inspectFile lexer document := by
      unfold run
      rw [hload]
    rw [hrun]
    exact inspectFile_of_text (Document.text_encode path source) hreport
  · rw [← hlines]
    exact Lexer.mem_unresolvedSymbols
  · rw [Lexer.tokenize_ofList] at h
    exact Lexer.join_text_of_lex hkeep h

theorem run_inspect_open_string :
    let library : Document := ⟨"lib/names.cat", .ok (encode "FUNCTION SUM\n".toList)⟩
    let source := "B := SUM(A)\r\n\nM:=\"open\rA\n".toList
    let layout : Document := ⟨"lib/layout.gpl", .ok (encode source)⟩
    loadCatalogue (some library) = .ok (.add .empty ⟨.function, "SUM"⟩) ∧
      run ⟨.inspect layout, some library, false, none⟩ =
        ⟨"ORIG : B := SUM(A)\n" ++ "AFTER: B := SUM(A)\n" ++
            "    #<:UNRESOLVED 'B'> [0..1]\n" ++ "    #<:SPACES ' '> [1..2]\n" ++
            "    #<:OPERATOR ':='> [2..4]\n" ++ "    #<:SPACES ' '> [4..5]\n" ++
            "    #<:OPERATOR_FUNCTION 'SUM'> [5..8]\n" ++ "    #<:OPERATOR '('> [8..9]\n" ++
            "    #<:UNRESOLVED 'A'> [9..10]\n" ++ "    #<:OPERATOR ')'> [10..11]\n" ++
          "ORIG : M:=\"open\n" ++
            "Error: UnterminatedLiteral (Missing closing `\"`)\n-> layout.gpl\n" ++
            "  |\n1 | M:=\"open\n  | ----^\n" ++
          "ORIG : A\n" ++ "AFTER: A\n" ++ "    #<:UNRESOLVED 'A'> [0..1]\n" ++
          "UNRESOLVED: A B\n",
          "Error: 1 lines failed to tokenize\n", 1⟩ := by
  intro library source layout
  have hload : loadCatalogue (some library) = .ok (.add .empty ⟨.function, "SUM"⟩) :=
    Lexer.eq_ok_of_toOption_eq_some (by decide +kernel)
  obtain ⟨hrun, -⟩ := run_inspect hload "lib/layout.gpl" source false none
  refine ⟨hload, hrun.trans ?_⟩
  decide +kernel

end Program

end LayoutLex
