import LayoutLex.Proofs.ReadingWords

/-!
# Asking a scanner again

A scanner may be asked for its tokens, for those of them that are not resolved, and whether there
are none of these, in any order and any number of times; at last it may be given up for its tokens.
A scan that fails leaves tokens behind, an open word, a mark that is set and a source that stands in
the middle of its text. None of this is seen by the next scan, which resets what it starts from.

* `Question` is what a scanner may be asked, and `afterAll` is the scanner after some questions.
* `Serves` is what every question keeps: the source has all of the text, wherever it stands; the
  tokens of the text are collected once they have been asked for; no scan with a fault counts as
  finished.
* `Steady` is what follows for the answers.

Results:
* `split_textOf_segments`: the text before an open delimiter has the same segments, and none open.
* `ends_scan`: a scan finds what the text is cut into, whatever the last one has left behind.
* `Serves.ask`, `Serves.afterAll`: one question keeps the invariant, and so do all.
* `start_steady`: the answers of a scanner do not depend on the questions before, except that
  nothing is collected as long as the tokens have not been asked for.
-/

namespace LayoutLex.Scan

open Text LawfulByteSource

/-! ## The text before an open delimiter -/

/-- The segments that are found begin like the text. -/
theorem stops_textOf_segments {p : Char → Bool} {cs : List Char} (h : Stops p cs) :
    Stops p (textOf (segments cs).pieces) := by
  rw [← text_segments cs, Split.text] at h
  exact stops_of_append h

/-- **The text before an open delimiter has the segments found before it**, and nothing open. -/
theorem split_textOf_segments (cs : List Char) :
    segments (textOf (segments cs).pieces) = ⟨(segments cs).pieces, none⟩ := by
  fun_induction segments cs with
  | case1 => rw [textOf, List.flatMap_nil, segments]
  | case2 c cs hbar ih =>
    have hrun : ∀ d ∈ cs.takeWhile (!isBreak ·), (!isBreak d) = true := fun d hd => mem_takeWhile hd
    have hstops := stops_textOf_segments (stops_dropWhile (!isBreak ·) cs)
    rw [Split.pieces_cons, textOf_cons, List.cons_append, segments_line hbar,
      takeWhile_append_of_stops hrun hstops, dropWhile_append_of_stops hrun hstops, ih]
    rfl
  | case3 => rw [textOf, List.flatMap_nil, segments]
  | case4 c cs _ hquote text rest hclosing ih =>
    obtain ⟨body, hbody, rfl, rfl⟩ := exists_body_of_closing? hclosing
    rw [Split.pieces_cons, textOf_cons, List.cons_append, List.append_assoc, List.singleton_append,
      segments_closed hquote hbody, ih]
    rfl
  | case5 c cs hbar hquote ih =>
    have hcode : isOpener c = false := by simp [isOpener, hbar, hquote]
    have hrun : ∀ d ∈ cs.takeWhile (!isOpener ·), (!isOpener d) = true :=
      fun d hd => mem_takeWhile hd
    have hstops := stops_textOf_segments (stops_dropWhile (!isOpener ·) cs)
    rw [Split.pieces_cons, textOf_cons, List.cons_append, segments_code hcode,
      takeWhile_append_of_stops hrun hstops, dropWhile_append_of_stops hrun hstops, ih]
    rfl

/-! ## The passes -/

/-- What a pass cuts a text into. Every text has lexemes. -/
def Pass.split (pass : Pass) (text : List Char) : Split :=
  match pass with
  | .segments => Scan.segments text
  | .lexemes => ⟨Scan.lexemes text, none⟩

/-- What the tokens of a text are, or its fault. -/
def Pass.result (pass : Pass) (spacing : Spacing) (file : String) (base : Nat) (text : List Char) :
    Except Fault (List Token) :=
  match (pass.split text).fault? file base with
  | some fault => .error fault
  | none => .ok (place spacing file base (pass.split text).pieces)

namespace Scanner

variable {σ : Type}

/-! ## Questions -/

/-- What a scanner may be asked. -/
inductive Question where
  | tokens | unresolved | isResolved
  deriving DecidableEq, Repr

section

variable [ByteSource σ]

/-- The scanner after a question. Only the question for the tokens may make it scan. -/
def after (s : Scanner σ) : Question → Scanner σ
  | .tokens => s.tokens.2
  | .unresolved => s
  | .isResolved => s

/-- The scanner after some questions, one after another. -/
def afterAll (s : Scanner σ) (questions : List Question) : Scanner σ :=
  questions.foldl after s

/-- The tokens of the scan, for which the scanner is given up. -/
def intoTokens (s : Scanner σ) : Except Fault (List Token) :=
  match s.tokens with
  | (.error fault, _) => .error fault
  | (.ok _, last) => .ok last.collected

/-- The tokens given are those collected. -/
theorem collected_of_tokens_eq_ok {s : Scanner σ} {tokens : List Token}
    (h : s.tokens.1 = .ok tokens) : s.tokens.2.collected = tokens := by
  unfold Scanner.tokens at h ⊢
  by_cases hdone : s.finished = true
  · rw [if_pos hdone] at h ⊢
    exact Except.ok.inj h
  · rw [if_neg hdone] at h ⊢
    rcases hscan : s.scan with ⟨_ | fault, last⟩
    · rw [hscan] at h
      exact Except.ok.inj h
    · rw [hscan] at h
      cases h

theorem intoTokens_eq (s : Scanner σ) : s.intoTokens = s.tokens.1 := by
  have hcollected : ∀ tokens, s.tokens.1 = .ok tokens → s.tokens.2.collected = tokens :=
    fun tokens => collected_of_tokens_eq_ok
  unfold intoTokens
  rcases htokens : s.tokens with ⟨fault | tokens, last⟩
  · rfl
  · rw [htokens] at hcollected
    exact congrArg _ (hcollected tokens rfl)

end

/-! ## What every question keeps -/

variable [ByteSource σ] [LawfulByteSource σ] {s : Scanner σ} {text : List Char}

/-- **A scan finds what its pass cuts the text into**, wherever the last one has come to. -/
theorem ends_scan (h : Holds s.reading.source (encode text)) :
    s.scan.2.pass = s.pass ∧ s.scan.2.finished = s.finished ∧
      Reading.Ends s.reading.spacing s.reading.file s.reading.base
        ((s.pass.split text).fault? s.reading.file s.reading.base)
        (place s.reading.spacing s.reading.file s.reading.base (s.pass.split text).pieces) text
        (s.scan.1, s.scan.2.reading) := by
  unfold scan
  cases s.pass with
  | segments => exact ⟨rfl, rfl, Reading.ends_scan_reset h⟩
  | lexemes => exact ⟨rfl, rfl, Reading.ends_scanWords_reset h⟩

variable {pass : Pass} {spacing : Spacing} {file : String} {base : Nat} {asked : Bool}

/-- The scanner makes the pass over the text, and its tokens have been `asked` for or not. What word
is open in its last scan and which marks are set is left open: that depends on how the scan
ended. -/
structure Serves (pass : Pass) (spacing : Spacing) (file : String) (base : Nat) (text : List Char)
    (asked : Bool) (s : Scanner σ) : Prop where
  pass_eq : s.pass = pass
  spacing_eq : s.reading.spacing = spacing
  file_eq : s.reading.file = file
  base_eq : s.reading.base = base
  holds : Holds s.reading.source (encode text)
  collected_eq : s.collected =
    if asked then place spacing file base (pass.split text).pieces else []
  of_finished : s.finished = true → asked = true ∧ (pass.split text).fault? file base = none

theorem serves_start {source : σ} (h : Stands source [] (encode text)) (pass : Pass)
    (spacing : Spacing) (file : String) (base : Nat) :
    Serves pass spacing file base text false (start pass source spacing file base) :=
  ⟨rfl, rfl, rfl, rfl, holds_of_stands h, rfl, fun hfinished => by cases hfinished⟩

namespace Serves

/-- Asked for its tokens, a scanner gives what its pass makes of the text. -/
theorem tokens (h : Serves pass spacing file base text asked s) :
    s.tokens.1 = pass.result spacing file base text ∧
      Serves pass spacing file base text true s.tokens.2 := by
  obtain ⟨rfl, rfl, rfl, rfl, hholds, hcollected, hfinished⟩ := h
  unfold Scanner.tokens Pass.result
  split
  · next hdone =>
    obtain ⟨rfl, hnone⟩ := hfinished hdone
    rw [hnone]
    exact ⟨congrArg _ hcollected, rfl, rfl, rfl, rfl, hholds, hcollected, fun _ => ⟨rfl, hnone⟩⟩
  · next hopen =>
    obtain ⟨hpass, hfinished, hfault, hspacing, hfile, hbase, htokens, hsource⟩ := ends_scan hholds
    rcases hscan : s.scan with ⟨fault?, last⟩
    rw [hscan] at hpass hfinished hfault hspacing hfile hbase htokens hsource
    rw [← hfault]
    cases fault? with
    | some fault =>
      exact ⟨rfl, hpass, hspacing, hfile, hbase, hsource, htokens,
        fun hdone => absurd (hfinished.symm.trans hdone) hopen⟩
    | none =>
      exact ⟨congrArg _ htokens, hpass, hspacing, hfile, hbase, hsource, htokens,
        fun _ => ⟨rfl, hfault.symm⟩⟩

/-- A question keeps the scanner at its text. -/
theorem ask (h : Serves pass spacing file base text asked s) (question : Question) :
    Serves pass spacing file base text (asked || question == .tokens) (s.after question) := by
  cases question with
  | tokens =>
    rw [beq_self_eq_true, Bool.or_true]
    exact h.tokens.2
  | unresolved =>
    rw [show (Question.unresolved == .tokens) = false from rfl, Bool.or_false]
    exact h
  | isResolved =>
    rw [show (Question.isResolved == .tokens) = false from rfl, Bool.or_false]
    exact h

/-- Questions keep the scanner at its text, whatever they are. -/
theorem afterAll (h : Serves pass spacing file base text asked s) (questions : List Question) :
    Serves pass spacing file base text (asked || questions.contains .tokens)
      (s.afterAll questions) := by
  induction questions generalizing asked s with
  | nil =>
    rw [List.contains_nil, Bool.or_false]
    exact h
  | cons question questions ih =>
    have hrest := ih (h.ask question)
    rwa [Bool.or_assoc, Bool.beq_comm, ← List.contains_cons] at hrest

end Serves

/-! ## The answers -/

/-- **The answers of a scanner of the text do not depend on what it has been asked before.** -/
structure Steady (text : List Char) (s : Scanner σ) : Prop where
  /-- The tokens are those of the first time, or the fault is, until the scanner is given up too. -/
  tokens_eq : ∀ questions, (s.afterAll questions).tokens.1 = s.tokens.1 ∧
    (s.afterAll questions).intoTokens = s.tokens.1
  /-- Nothing is collected before the tokens have been asked for; from then on it is the same. -/
  collected_eq : ∀ questions, (s.afterAll questions).collected =
    if .tokens ∈ questions then s.tokens.2.collected else []
  unresolved_eq : ∀ questions, (s.afterAll questions).unresolved =
    if .tokens ∈ questions then s.tokens.2.unresolved else []
  isResolved_eq : ∀ questions, (s.afterAll questions).isResolved =
    if .tokens ∈ questions then s.tokens.2.isResolved else true
  /-- What has been collected when all has gone well is the result. -/
  of_ok : ∀ tokens, s.tokens.1 = .ok tokens → s.tokens.2.collected = tokens
  /-- Only segments can fail to be found, and only at a delimiter that is never closed. What has
  been collected then are the tokens of the text before the delimiter, which has no fault. -/
  of_error : ∀ fault, s.tokens.1 = .error fault →
    s.pass = .segments ∧ ∃ before d rest, text = before ++ d :: rest ∧
      Relation.ReflTransGen Past text (d :: rest) ∧ (d = '\x22' ∨ d = '\x60') ∧ d ∉ rest ∧
      fault = ⟨.unclosed d (String.ofList (d :: rest)),
        ⟨s.reading.base + byteLength before + 1, s.reading.file⟩⟩ ∧
      (start .segments (TextSource.ofText before) s.reading.spacing s.reading.file
          s.reading.base).tokens.1 =
        .ok s.tokens.2.collected

/-- The fault of segments is at an open delimiter, and the segments found are those of the text
before it. -/
theorem exists_split_of_fault? {fault : Fault} (h : (segments text).fault? file base = some fault) :
    ∃ before d rest, text = before ++ d :: rest ∧
      Relation.ReflTransGen Past text (d :: rest) ∧ (d = '\x22' ∨ d = '\x60') ∧ d ∉ rest ∧
      fault = ⟨.unclosed d (String.ofList (d :: rest)), ⟨base + byteLength before + 1, file⟩⟩ ∧
      segments before = ⟨(segments text).pieces, none⟩ := by
  obtain ⟨before, d, rest, htext, hunclosed, hfault⟩ := fault?_segments_eq_some_iff.mp h
  obtain ⟨hreach, hquote, hrest⟩ := unclosed?_segments_iff.mp hunclosed
  have hbefore : textOf (segments text).pieces = before := by
    have hsplit := text_segments text
    rw [Split.text, hunclosed, Option.elim_some] at hsplit
    exact List.append_cancel_right (hsplit.trans htext)
  refine ⟨before, d, rest, htext, hreach, hquote, hrest, hfault, ?_⟩
  rw [← hbefore, split_textOf_segments]

theorem steady_of_serves (h : Serves pass spacing file base text false s) : Steady text s := by
  have hcollected : ∀ questions, (s.afterAll questions).collected =
      if .tokens ∈ questions then s.tokens.2.collected else [] := by
    intro questions
    rw [(h.afterAll questions).collected_eq, h.tokens.2.collected_eq]
    simp
  constructor
  · intro questions
    rw [intoTokens_eq, (h.afterAll questions).tokens.1, h.tokens.1]
    exact ⟨rfl, rfl⟩
  · exact hcollected
  · intro questions
    rw [unresolved, hcollected]
    split <;> rfl
  · intro questions
    rw [isResolved, unresolved, hcollected]
    split <;> rfl
  · exact fun tokens => collected_of_tokens_eq_ok
  · intro fault hfault
    rw [h.tokens.1, Pass.result] at hfault
    rw [h.tokens.2.collected_eq, h.pass_eq, h.spacing_eq, h.file_eq, h.base_eq]
    cases pass with
    | lexemes => cases hfault
    | segments =>
      split at hfault
      · next found hfound =>
        cases hfault
        obtain ⟨before, d, rest, htext, hreach, hquote, hrest, rfl, hbefore⟩ :=
          exists_split_of_fault? hfound
        refine ⟨rfl, before, d, rest, htext, hreach, hquote, hrest, rfl, ?_⟩
        rw [(serves_start (TextSource.stands_ofText before) ..).tokens.1, Pass.result, Pass.split,
          hbefore]
        rfl
      · cases hfault

/-- **A scanner can be asked again, after success and after failure.** -/
theorem start_steady (pass : Pass) (spacing : Spacing) (file : String) (base : Nat) :
    (∀ text, Steady text (start pass (TextSource.ofText text) spacing file base)) ∧
    ∀ lines, Steady (lines.flatMap (· ++ ['\n']))
      (start pass (LineSource.ofLines lines) spacing file base) :=
  ⟨fun text => steady_of_serves (serves_start (TextSource.stands_ofText text) ..),
    fun lines => steady_of_serves (serves_start (LineSource.stands_ofLines lines) ..)⟩

theorem start_steady_open_string :
    let s := start .segments (LineSource.ofLines ["A".toList, "B \"c".toList]) .drop "gate.gpl" 3
    s.tokens.1.toOption = none ∧
      (s.tokens.2.reading.inString = true ∧ s.tokens.2.reading.word.size = 3) ∧
      (s.afterAll [.tokens, .isResolved, .tokens]).unresolved =
        [⟨.unresolved, "A\nB", ⟨3, "gate.gpl"⟩, ⟨6, "gate.gpl"⟩⟩] := by
  intro s
  have hfirst : s.tokens.1.toOption = none ∧
      (s.tokens.2.reading.inString = true ∧ s.tokens.2.reading.word.size = 3) ∧
      s.tokens.2.unresolved = [⟨.unresolved, "A\nB", ⟨3, "gate.gpl"⟩, ⟨6, "gate.gpl"⟩⟩] := by
    decide +kernel
  have hsteady := (start_steady .segments .drop "gate.gpl" 3).2 ["A".toList, "B \"c".toList]
  have hagain := hsteady.unresolved_eq [.tokens, .isResolved, .tokens]
  exact ⟨hfirst.1, hfirst.2.1, hagain.trans hfirst.2.2⟩

end Scanner

end LayoutLex.Scan
