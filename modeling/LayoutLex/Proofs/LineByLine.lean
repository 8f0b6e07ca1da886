import Mathlib.Data.List.Forall2
import LayoutLex.Proofs.Manifest
import LayoutLex.Proofs.OperatorTokens
import LayoutLex.Proofs.Reading
import LayoutLex.Proofs.Stretches

/-!
# Lines one by one

At a line break the scan of a source is where it was at the start: a comment ends there, a string
or quoted comment that was closed in its line stays closed, and a line break ends every word. So
lines that can be lexed one by one can be lexed as one source, and have the same words there. Only a
delimiter at the end of a line can tell the difference, because something follows it now.

* `EndsAlike` is what the end of a line can do to its words before they are classified,
  `AgreesButLast` what is left of that after.
* `placedWords` are the words of lines at the offsets that they have in the source.

Results:
* `startsAnew_of_unclosed?`: the scan after a line break is the scan of the rest.
* `words_of_lines`: the words of lines one after another are those of the lines one by one.
* `tokenizeSource_lines`: the same for lines that are lexed as they are pulled.
-/

namespace LayoutLex

open Text Scan

namespace Text

theorem trimEnd_append_blanks {blanks : List Char} (h : ∀ c ∈ blanks, isBlank c = true)
    (cs : List Char) : trimEnd (cs ++ blanks) = trimEnd cs := by
  rw [trimEnd, List.reverse_append, List.dropWhile_append_of_pos fun c hc =>
    h c (List.mem_reverse.mp hc)]
  rfl

end Text

namespace Lexer

variable {spacing : Spacing} {file : String} {start : Nat}

/-! ## A line break in a source -/

/-- The tokens `found` are the tokens `own`, or the last of these is a delimiter that has the kind
there which it has before some blank. -/
def EndsAlike (own found : List Token) : Prop :=
  ∃ b stop, isBlank b = true ∧ Settles b stop own found

theorem EndsAlike.refl (own : List Token) : EndsAlike own own :=
  ⟨'\n', 0, rfl, .same own⟩

theorem EndsAlike.append {own found : List Token} (h : EndsAlike own found) (before : List Token) :
    EndsAlike (before ++ own) (before ++ found) := by
  obtain ⟨b, stop, hb, hsettles⟩ := h
  exact ⟨b, stop, hb, hsettles.append before⟩

/-- Once blanks are dropped, a line break after a stretch settles what is left of the stretch. -/
theorem endsAlike_settle (code : List Char) :
    EndsAlike (wordsOf (stretch .drop file start code))
      (wordsOf (place .drop file start (settle '\n' (lexemes code)))) := by
  have hblanks : ∀ c ∈ trailing code ++ ['\n'], isBlank c = true := by
    intro c hc
    rcases List.mem_append.mp hc with hc | hc
    · exact mem_takeWhile (List.mem_reverse.mp hc)
    · rw [List.mem_singleton.mp hc]
      rfl
  have hcode : code ++ ['\n'] = trimEnd code ++ (trailing code ++ ['\n']) := by
    rw [← List.append_assoc, trailing, trimEnd_append_takeWhile]
  have hplace : place .drop file start (settle '\n' (lexemes code)) =
      place .drop file start (lexemes (code ++ ['\n'])) :=
    (place_lexemes_append_blanks rfl (List.forall_mem_nil _) code).symm
  rw [hplace, hcode]
  cases hcons : trailing code ++ ['\n'] with
  | nil => cases (List.append_eq_nil_iff.mp hcons).2
  | cons b blanks =>
    obtain ⟨hb, hrest⟩ := List.forall_mem_cons.mp (hcons ▸ hblanks)
    rw [place_lexemes_append_blanks hb hrest]
    exact ⟨b, _, hb, settles_place b (trimEnd code)⟩

/-- **A line break ends a stretch of code** and starts another one. -/
theorem stretch_append_break (spacing : Spacing) (file : String) (start : Nat)
    (code rest : List Char) :
    ∃ found, EndsAlike (wordsOf (stretch spacing file start code)) found ∧
      wordsOf (stretch spacing file start (code ++ '\n' :: rest)) =
        found ++ wordsOf (stretch spacing file (start + byteLength code + 1) rest) := by
  cases spacing with
  | keep =>
    exact ⟨_, ⟨'\n', _, rfl, settles_place '\n' code⟩, words_lexemes_append_space rfl code rest⟩
  | drop =>
    by_cases hrest : trimEnd rest = []
    · have hblanks : ∀ c ∈ '\n' :: rest, isBlank c = true :=
        List.forall_mem_cons.mpr ⟨rfl, isBlank_of_trimEnd_eq_nil hrest⟩
      refine ⟨_, .refl _, ?_⟩
      have hnil : stretch .drop file (start + byteLength code + 1) rest = [] := by
        rw [stretch, cutEnd, hrest, lexemes]
        rfl
      rw [hnil, stretch, stretch, cutEnd, cutEnd, trimEnd_append_blanks hblanks]
      exact (List.append_nil _).symm
    · have hbreak : trimEnd ('\n' :: rest) = '\n' :: trimEnd rest :=
        trimEnd_append_of_trimEnd_ne_nil hrest ['\n']
      have hcut : trimEnd (code ++ '\n' :: rest) = code ++ '\n' :: trimEnd rest := by
        rw [trimEnd_append_of_trimEnd_ne_nil (by rw [hbreak]; exact List.cons_ne_nil _ _), hbreak]
      refine ⟨_, endsAlike_settle code, ?_⟩
      rw [stretch, cutEnd, hcut]
      exact words_lexemes_append_space rfl code (trimEnd rest)

/-- After the line and a line break the scan goes on as it starts on the rest. -/
def StartsAnew (spacing : Spacing) (file : String) (start : Nat) (line rest : List Char) : Prop :=
  (segments (line ++ '\n' :: rest)).unclosed? = (segments rest).unclosed? ∧
    ∃ found, EndsAlike (wordsOf (scanned spacing file start line)) found ∧
      wordsOf (scanned spacing file start (line ++ '\n' :: rest)) =
        found ++ wordsOf (scanned spacing file (start + byteLength line + 1) rest)

variable {rest : List Char}

/-- What is cut off a line makes no difference to how the line ends. -/
theorem StartsAnew.cons {line tail : List Char} {piece : Piece}
    (hline : segments line = (segments tail).cons piece)
    (hrest : segments (line ++ '\n' :: rest) = (segments (tail ++ '\n' :: rest)).cons piece)
    (hsplit : piece.text ++ tail = line)
    (h : StartsAnew spacing file (start + byteLength piece.text) tail rest) :
    StartsAnew spacing file start line rest := by
  obtain ⟨hunclosed, found, hfound, heq⟩ := h
  refine ⟨by rw [hrest, Split.cons, hunclosed],
    wordsOf ((piece.token? spacing file start).toList.flatMap (parts spacing)) ++ found, ?_, ?_⟩
  · rw [scanned_of_cons hline, wordsOf_append]
    exact hfound.append _
  · rw [scanned_of_cons hrest, wordsOf_append, heq, List.append_assoc, ← hsplit,
      byteLength_append, Nat.add_assoc start]

/-- A line of code ends at its line break. -/
theorem startsAnew_code {code : List Char} (hcode : ∀ c ∈ code, isOpener c = false)
    (rest : List Char) : StartsAnew spacing file start code rest := by
  have hnewline : isOpener '\n' = false := by decide
  have hrun : ∀ c ∈ rest.takeWhile (!isOpener ·), isOpener c = false := fun c hc => by
    simpa using mem_takeWhile hc
  have hwhole : ∀ c ∈ code ++ '\n' :: rest.takeWhile (!isOpener ·), isOpener c = false :=
    List.forall_mem_append.mpr ⟨hcode, List.forall_mem_cons.mpr ⟨hnewline, hrun⟩⟩
  have hstops : Stops (!isOpener ·) (rest.dropWhile (!isOpener ·)) := stops_dropWhile _ rest
  have hsplit : rest.takeWhile (!isOpener ·) ++ rest.dropWhile (!isOpener ·) = rest :=
    List.takeWhile_append_dropWhile
  refine ⟨?_, ?_⟩
  · rw [← unclosed?_segments_dropWhile, List.dropWhile_append_of_pos (by simpa using hcode),
      List.dropWhile_cons_of_pos (by simp [hnewline]), unclosed?_segments_dropWhile]
  obtain ⟨found, hfound, heq⟩ :=
    stretch_append_break spacing file start code (rest.takeWhile (!isOpener ·))
  have hown := scanned_code spacing file start hcode stops_nil
  have hleft := scanned_code spacing file start hwhole hstops
  have hright := scanned_code spacing file (start + byteLength code + 1) hrun hstops
  rw [List.append_nil, scanned_nil, List.append_nil] at hown
  rw [List.append_assoc, List.cons_append, hsplit] at hleft
  rw [hsplit] at hright
  refine ⟨found, hown ▸ hfound, ?_⟩
  rw [hleft, hright, wordsOf_append, wordsOf_append, heq, List.append_assoc, byteLength_append,
    byteLength_cons, ← Nat.add_assoc, ← Nat.add_assoc]
  rfl

/-- **At a line break the scan starts anew**, if nothing is open there. -/
theorem startsAnew_of_unclosed? (spacing : Spacing) (file : String) (start : Nat)
    {line : List Char} (hline : (segments line).unclosed? = none) (rest : List Char) :
    StartsAnew spacing file start line rest := by
  have hbreak : Stops (!isBreak ·) ('\n' :: rest) := stops_cons.mpr (by decide)
  fun_induction segments line generalizing start with
  | case1 => exact startsAnew_code (List.forall_mem_nil _) rest
  | case2 c cs hbar ih =>
    refine .cons (segments_line hbar cs) ?_ ?_ (ih _ hline)
    · rw [List.cons_append, segments_line hbar, takeWhile_append_of_stops_right hbreak,
        dropWhile_append_of_stops_right hbreak]
    · rw [List.cons_append, List.takeWhile_append_dropWhile]
  | case3 => cases hline
  | case4 c cs _ hquote text tail hclosing ih =>
    obtain ⟨body, hbody, rfl, rfl⟩ := exists_body_of_closing? hclosing
    refine .cons (segments_closed hquote hbody tail) ?_ (by simp) (ih _ hline)
    rw [List.cons_append, List.append_assoc, List.cons_append, segments_closed hquote hbody]
  | case5 c cs hbar hquote ih =>
    have hopener : isOpener c = false := by simp [isOpener, hbar, hquote]
    by_cases hend : cs.dropWhile (!isOpener ·) = []
    · -- The line ends with this stretch of code, which the scan goes on with after the break.
      have hall : ∀ d ∈ cs, isOpener d = false := fun d hd => by
        rw [← takeWhile_of_dropWhile_eq_nil hend] at hd
        simpa using mem_takeWhile hd
      exact startsAnew_code (List.forall_mem_cons.mpr ⟨hopener, hall⟩) rest
    · refine .cons (segments_code hopener cs) ?_ ?_ (ih _ hline)
      · rw [List.cons_append, segments_code hopener, takeWhile_append_of_ne_nil hend,
          dropWhile_append_of_ne_nil hend]
      · rw [List.cons_append, List.takeWhile_append_dropWhile]

end Lexer

/-! ## Moving tokens -/

/-- The token as it is when the text it is in stands after so many bytes. -/
def Token.shift (n : Nat) (t : Token) : Token :=
  { t with
    span := ⟨⟨n + t.span.start.offset, t.span.start.file⟩,
      ⟨n + t.span.stop.offset, t.span.stop.file⟩⟩ }

namespace Scan

theorem token?_shift (n : Nat) (spacing : Spacing) (file : String) (start : Nat) (piece : Piece) :
    piece.token? spacing file (n + start) =
      (piece.token? spacing file start).map (Token.shift n) := by
  unfold Piece.token?
  split
  split
  · rfl
  · simp [Token.shift, Nat.add_assoc]

theorem place_shift (n : Nat) (spacing : Spacing) (file : String) (start : Nat)
    (pieces : List Piece) :
    place spacing file (n + start) pieces =
      (place spacing file start pieces).map (Token.shift n) := by
  induction pieces generalizing start with
  | nil => rfl
  | cons piece pieces ih =>
    rw [place_cons, place_cons, token?_shift, Nat.add_assoc, ih, List.map_append,
      Option.toList_map]

end Scan

theorem wordsOf_shift (n : Nat) (tokens : List Token) :
    wordsOf (tokens.map (Token.shift n)) = (wordsOf tokens).map (Token.shift n) := by
  rw [wordsOf, wordsOf, List.filter_map]
  rfl

theorem classified_shift (c : Catalogue) (n : Nat) (t : Token) :
    (t.shift n).classified c = (t.classified c).shift n := by
  have hres : (t.shift n).isResolved = t.isResolved := rfl
  rw [Token.classified, Token.classified, hres]
  split
  · rfl
  · rfl

namespace Lexer

theorem parts_shift (n : Nat) (spacing : Spacing) (segment : Token) :
    parts spacing (segment.shift n) = (parts spacing segment).map (Token.shift n) := by
  have hres : (segment.shift n).isResolved = segment.isResolved := rfl
  rw [parts, parts, hres]
  split
  · rfl
  · exact place_shift n spacing _ _ _

theorem scanned_shift (n : Nat) (spacing : Spacing) (file : String) (start : Nat)
    (text : List Char) :
    scanned spacing file (n + start) text =
      (scanned spacing file start text).map (Token.shift n) := by
  rw [scanned, scanned, place_shift, List.flatMap_map, List.map_flatMap]
  exact List.flatMap_congr fun segment _ => parts_shift n spacing segment

end Lexer

/-! ## Classifying the last word of a line -/

/-- The words `found` are the words `own`, or only the last of these is of another kind, and is a
sign or a colon. -/
inductive AgreesButLast : List Token → List Token → Prop
  | same (own : List Token) : AgreesButLast own own
  | last (before : List Token) {t : Token} (kind : TokenKind)
      (htext : t.text = "+" ∨ t.text = "-" ∨ t.text = ":") :
      AgreesButLast (before ++ [t]) (before ++ [{ t with kind := kind }])

/-- A delimiter is no name. -/
theorem Catalogue.HasNames.singleton_not_mem {c : Catalogue} (h : c.HasNames) {d : Char}
    (hd : isDelimiter d = true) : String.singleton d ∉ c.symbols := by
  intro hmem
  have hname := h _ hmem
  rw [String.toList_singleton, isName, (classes_of_isDelimiter hd).2.1] at hname
  cases hname

namespace Lexer

/-- Before other characters a delimiter is classified as what it is at the end of a text, unless it
is a sign or a colon: it is no name, so the catalogue does not have it. -/
theorem classified_delimiter {c : Catalogue} (hnames : c.HasNames) {d : Char}
    (hd : isDelimiter d = true) {t : Token} (hkind : t.kind = .unresolved)
    (htext : t.text = String.singleton d) (next : Char) :
    (t.text = "+" ∨ t.text = "-" ∨ t.text = ":") ∨
      ({ t with kind := delimiterKind d next } : Token).classified c = t.classified c := by
  rcases delimiterKind_cases d next with hsign | rfl | hunresolved | ⟨hoperator, hlisted⟩
  · simp only [isSign, Bool.or_eq_true, beq_iff_eq] at hsign
    rcases hsign with rfl | rfl
    · exact Or.inl (Or.inl htext)
    · exact Or.inl (Or.inr (Or.inl htext))
  · exact Or.inl (Or.inr (Or.inr htext))
  · rw [hunresolved, ← hkind]
    exact Or.inr rfl
  · rw [hoperator, classified_of_ne_unresolved c (by simp), classified_of_unresolved c hkind, htext,
      Catalogue.kindOf_of_not_mem (hnames.singleton_not_mem hd) hlisted]
    exact Or.inr rfl

/-- Only a sign or a colon is classified in another way at the end of a line than before a line
break. -/
theorem agreesButLast_of_endsAlike {c : Catalogue} (hnames : c.HasNames) {own found : List Token}
    (h : EndsAlike own found) :
    AgreesButLast (own.map (Token.classified c)) (found.map (Token.classified c)) := by
  obtain ⟨b, stop, hb, hsettles⟩ := h
  cases hsettles with
  | same => exact .same _
  | @last d t own hd hkind htext hstop =>
    rw [List.map_append, List.map_append, List.map_singleton, List.map_singleton]
    rcases classified_delimiter hnames hd hkind htext b with hsign | hsame
    · rw [classified_of_unresolved c hkind, classified_eq c { t with kind := delimiterKind d b }]
      exact .last _ _ hsign
    · rw [hsame]
      exact .same _

/-! ## The tokens of lines -/

/-- The words of the lines, each where it is when the lines stand one after another from the offset
on with a line break after each. -/
def placedWords : Nat → List String → List (List Token) → List (List Token)
  | start, line :: lines, tokens :: more =>
    (wordsOf tokens).map (Token.shift start) ::
      placedWords (start + byteLength line.toList + 1) lines more
  | _, _, _ => []

/-- The words of a line that stands somewhere else. -/
theorem wordsOf_shifted (lexer : Lexer) (file : String) (start : Nat) (line : List Char) :
    (wordsOf ((scanned lexer.spacing file 0 line).map
        (Token.classified lexer.catalogue))).map (Token.shift start) =
      (wordsOf (scanned lexer.spacing file start line)).map (Token.classified lexer.catalogue) := by
  have hscanned := scanned_shift start lexer.spacing file 0 line
  rw [Nat.add_zero] at hscanned
  rw [hscanned, wordsOf_shift, wordsOf_classified, List.map_map, List.map_map]
  exact List.map_congr_left fun t _ => (classified_shift lexer.catalogue start t).symm

/-- **Lines one after another have the words that they have one by one.** -/
theorem words_of_lines {lexer : Lexer} {file : String} {lines : List String}
    {own : List (List Token)} (hnames : lexer.catalogue.HasNames)
    (hown : List.Forall₂ (fun line tokens => lexer.lex line.toList file = .ok tokens) lines own)
    (start : Nat) :
    (segments (lines.flatMap (·.toList ++ ['\n']))).unclosed? = none ∧
      ∃ found, List.Forall₂ AgreesButLast (placedWords start lines own) found ∧
        (wordsOf (scanned lexer.spacing file start (lines.flatMap (·.toList ++ ['\n'])))).map
          (Token.classified lexer.catalogue) = found.flatten := by
  induction hown generalizing start with
  | nil =>
    refine ⟨by rw [List.flatMap_nil, segments], [], .nil, ?_⟩
    rw [List.flatMap_nil, scanned_nil]
    rfl
  | @cons line tokens lines own hline _ ih =>
    obtain ⟨hclosed, rfl⟩ := lex_eq_ok_iff.mp hline
    obtain ⟨hunclosed, words, hwords, heq⟩ := startsAnew_of_unclosed? lexer.spacing file start
      hclosed (lines.flatMap (·.toList ++ ['\n']))
    obtain ⟨hrest, found, hfound, hflatten⟩ := ih (start + byteLength line.toList + 1)
    rw [List.flatMap_cons, List.append_assoc, List.singleton_append]
    refine ⟨hunclosed.trans hrest, words.map (Token.classified lexer.catalogue) :: found, ?_, ?_⟩
    · rw [placedWords, wordsOf_shifted]
      exact .cons (agreesButLast_of_endsAlike hnames hwords) hfound
    · rw [heq, List.map_append, hflatten, List.flatten_cons]

/-- **A session of lines is lexed line by line.** When the catalogue has only names and every line
can be lexed by itself, the lines can be lexed as they come, in either spacing. Apart from
separators the tokens of the session are those of its lines in their order, each moved by the
offset at which its line starts; only a sign or a colon that is the last word of its line may be of
another kind. -/
theorem tokenizeSource_lines {lexer : Lexer} {lines : List String} {own : List (List Token)}
    {file? : Option String} (hnames : lexer.catalogue.HasNames)
    (hown : List.Forall₂ (fun line tokens => lexer.tokenize line file? = .ok tokens) lines own) :
    ∃ tokens found,
      lexer.tokenizeSource (LineSource.ofLines (lines.map String.toList)) file? = .ok tokens ∧
        wordsOf tokens = found.flatten ∧
        List.Forall₂ AgreesButLast (placedWords 0 lines own) found := by
  obtain ⟨hclosed, found, hfound, hflatten⟩ := words_of_lines hnames hown 0
  have hstands := LineSource.stands_ofLines (lines.map String.toList)
  rw [List.flatMap_map] at hstands
  refine ⟨(scanned lexer.spacing (file?.getD defaultFile) 0
    (lines.flatMap (·.toList ++ ['\n']))).map (Token.classified lexer.catalogue), found, ?_, ?_,
    hfound⟩
  · exact (tokenizeSource_eq_lex hstands lexer file?).trans (lex_eq_ok_iff.mpr ⟨hclosed, rfl⟩)
  · rw [wordsOf_classified, hflatten]

theorem tokenizeSource_lines_sum :
    let catalogue := Catalogue.empty.add ⟨.function, "A"⟩
    let own : List (List Token) :=
      [[⟨.function, "A", ⟨0, "shell"⟩, ⟨1, "shell"⟩⟩, ⟨.spaces, " ", ⟨1, "shell"⟩, ⟨2, "shell"⟩⟩,
          ⟨.operator, "+", ⟨2, "shell"⟩, ⟨3, "shell"⟩⟩],
        [⟨.comment, "|B", ⟨0, "shell"⟩, ⟨2, "shell"⟩⟩]]
    ∃ tokens found,
      tokenizeSource ⟨catalogue, .keep⟩ (LineSource.ofLines (["A +", "|B"].map String.toList))
          none = .ok tokens ∧
        wordsOf tokens = found.flatten ∧
        List.Forall₂ AgreesButLast (placedWords 0 ["A +", "|B"] own) found := by
  intro catalogue own
  have hnames : catalogue.HasNames := Catalogue.hasNames_empty.add (by decide)
  have hfirst : tokenize ⟨catalogue, .keep⟩ "A +" none = .ok (own[0]) :=
    eq_ok_of_toOption_eq_some (by decide +kernel)
  have hsecond : tokenize ⟨catalogue, .keep⟩ "|B" none = .ok (own[1]) :=
    eq_ok_of_toOption_eq_some (by decide +kernel)
  exact tokenizeSource_lines hnames (.cons hfirst (.cons hsecond .nil))

end Lexer

end LayoutLex
