import LayoutLex.Proofs.LineByLine
import LayoutLex.Proofs.LiteralTokens

/-!
# Tokens by themselves

What is around a token in its source decides where it starts and where it ends. By itself it has to
be found whole again. It is, since the grammars allow every piece as well when nothing follows it
and when it has lost its blanks. Only a delimiter may be of another kind then: with nothing after
it, its kind is left to the classification.

Results:
* `Spacing.cut_cut`: a text that has lost its blanks has none to lose.
* `Lexeme.alone`: a lexeme with nothing after it, and what becomes of a delimiter.
* `IsPart.cut`: a part of a source that has lost its blanks is a part.
* `lex_of_isPart`: a part that has no blanks to lose is one token by itself.
* `tokenize_token_text`: the tokens of a source by themselves.
-/

namespace LayoutLex

open Text Scan

/-! ## Losing blanks -/

namespace Text

theorem trimEnd_trimEnd (cs : List Char) : trimEnd (trimEnd cs) = trimEnd cs := by
  rw [trimEnd, trimEnd, List.reverse_reverse, dropWhile_of_stops (stops_dropWhile _ _)]

theorem stops_trim (cs : List Char) : Stops isBlank (trim cs) :=
  stops_trimEnd (stops_dropWhile isBlank cs)

theorem trim_trim (cs : List Char) : trim (trim cs) = trim cs := by
  have hstart : trimStart (trim cs) = trim cs := dropWhile_of_stops (stops_trim cs)
  rw [trim, hstart, trim, trimEnd_trimEnd]

theorem trim_of_isBlank {cs : List Char} (h : ∀ c ∈ cs, isBlank c = true) : trim cs = [] :=
  trimEnd_of_isBlank fun c hc => h c ((List.dropWhile_sublist _).mem hc)

end Text

namespace Scan

variable {spacing : Spacing} {piece : Piece} {rest : List Char}

/-- **A text that has lost its blanks has none to lose.** -/
theorem Spacing.cut_cut (spacing : Spacing) (cs : List Char) :
    spacing.cut (spacing.cut cs).2 = (0, (spacing.cut cs).2) := by
  cases spacing with
  | keep => rfl
  | drop =>
    have hfront : (trim cs).takeWhile isBlank = [] := takeWhile_of_stops (stops_trim cs)
    simp only [Spacing.cut, trim_trim, hfront, byteLength_nil]

/-! ## Pieces with nothing after them -/

/-- A lexeme is one as well when nothing follows it, or it is a delimiter. -/
theorem Lexeme.alone_or_delimiter (h : Lexeme piece rest) :
    Lexeme piece [] ∨
      ∃ c next, isDelimiter c = true ∧ piece = ⟨delimiterKind c next, [c]⟩ := by
  cases h with
  | spaces hne hrun _ => exact .inl (.spaces hne hrun stops_nil)
  | name hrun hfirst hmarks _ => exact .inl (.name hrun hfirst hmarks stops_nil)
  | other hne hrun _ => exact .inl (.other hne hrun stops_nil)
  | number hstart hword _ => exact .inl (.number hstart hword fun d hd => by cases hd)
  | pair hpair => exact .inl (.pair hpair)
  | last hc => exact .inl (.last hc)
  | @half c next _ hc _ =>
    obtain ⟨hdelimiter, hkind⟩ := kind_of_pairStart hc next
    exact .inr ⟨c, next, hdelimiter, by rw [hkind]⟩
  | @dyadic c next _ hc hnext =>
    obtain ⟨hdelimiter, -, hkind⟩ := kind_of_sign hc next
    exact .inr ⟨c, next, hdelimiter, by rw [hkind, if_pos hnext]⟩
  | @monadic c next _ hc hnext _ =>
    obtain ⟨hdelimiter, -, hkind⟩ := kind_of_sign hc next
    exact .inr ⟨c, next, hdelimiter, by rw [hkind, if_neg (by simp [hnext])]⟩
  | @delimiter c next _ hc hother =>
    obtain ⟨-, -, hkind⟩ := kind_of_other hother next
    exact .inr ⟨c, next, hc, by rw [hkind]⟩

/-- **The text of a lexeme is a lexeme as well when nothing follows it.** If it is not of the same
kind, then it is a delimiter without a kind. -/
theorem Lexeme.alone (h : Lexeme piece rest) :
    ∃ kind, Lexeme ⟨kind, piece.text⟩ [] ∧
      (kind = piece.kind ∨ kind = .unresolved ∧
        ∃ c next, isDelimiter c = true ∧ piece = ⟨delimiterKind c next, [c]⟩) := by
  rcases h.alone_or_delimiter with halone | ⟨c, next, hc, rfl⟩
  · exact ⟨piece.kind, halone, .inl rfl⟩
  · exact ⟨.unresolved, .last hc, .inr ⟨rfl, c, next, hc, rfl⟩⟩

/-! ## Parts that have lost their blanks -/

theorem Lexeme.not_isBlank_of_number {word : List Char}
    (hstart : ∃ d tail, isNumberStart d = true ∧ (word = d :: tail ∨ word = '-' :: d :: tail))
    (hword : word.IsChain Joins) : ∀ c ∈ word, isBlank c = false := by
  obtain ⟨d, tail, hd, rfl | rfl⟩ := hstart
  · exact List.forall_mem_cons.mpr ⟨not_isBlank_of_isNumberStart hd, fun c hc =>
      not_isBlank_of_isNumberChar (isNumberChar_of_isChain hword c hc)⟩
  · exact List.forall_mem_cons.mpr ⟨rfl, fun c hc =>
      not_isBlank_of_isNumberChar (isNumberChar_of_isChain hword c hc)⟩

/-- What is left of a lexeme without its blanks is a lexeme, if anything is. -/
theorem Lexeme.trim (h : Lexeme piece rest) (hne : Text.trim piece.text ≠ []) :
    ∃ after, Lexeme ⟨piece.kind, Text.trim piece.text⟩ after := by
  -- Most lexemes have no blanks to lose.
  have hsame : (∀ c ∈ piece.text, isBlank c = false) →
      ∃ after, Lexeme ⟨piece.kind, Text.trim piece.text⟩ after := by
    intro hblank
    rw [trim_of_not_isBlank hblank]
    exact ⟨rest, h⟩
  cases h with
  | @spaces run _ _ hrun _ =>
    have hempty : Text.trim run = [] := trim_of_isBlank fun c hc => isBlank_of_isSpace (hrun c hc)
    exact absurd hempty hne
  | @name run marks _ first hrun hfirst hmarks hrest =>
    have hend : trimEnd marks = marks :=
      trimEnd_of_not_isBlank fun c hc => not_isBlank_of_isNameChar (hmarks c hc)
    rw [trim_append_cons (not_isBlank_of_isNameStart hfirst), hend]
    exact ⟨rest, .name (fun c hc => hrun c ((List.dropWhile_sublist _).mem hc)) hfirst hmarks hrest⟩
  | other _ hrun _ =>
    exact ⟨[], .other hne (fun c hc => hrun c (mem_of_mem_trim hc)) stops_nil⟩
  | number hstart hword _ => exact hsame (not_isBlank_of_number hstart hword)
  | @pair c d _ hpair =>
    have hall : ∀ pair ∈ pairs, isBlank pair.1 = false ∧ isBlank pair.2 = false := by decide
    obtain ⟨hc, hd⟩ := hall _ (mem_pairs_iff.mpr hpair)
    exact hsame (by simp [hc, hd])
  | last hc => exact hsame (by simpa using not_isBlank_of_isDelimiter hc)
  | half hc _ =>
    exact hsame (by simpa using not_isBlank_of_isDelimiter (kind_of_pairStart hc ' ').1)
  | dyadic hc _ => exact hsame (by simpa using not_isBlank_of_isDelimiter (kind_of_sign hc ' ').1)
  | monadic hc _ _ =>
    exact hsame (by simpa using not_isBlank_of_isDelimiter (kind_of_sign hc ' ').1)
  | delimiter hc _ => exact hsame (by simpa using not_isBlank_of_isDelimiter hc)

/-- What is left of a comment or string without its blanks is one of the same kind. -/
theorem Segment.trim (h : Segment piece rest) (hkind : piece.kind ≠ .unresolved) :
    ∃ after, Segment ⟨piece.kind, Text.trim piece.text⟩ after := by
  cases h with
  | @line body _ hbody _ =>
    have htrim : Text.trim ([] ++ '|' :: body) = '|' :: trimEnd body := trim_append_cons rfl
    rw [List.nil_append] at htrim
    rw [htrim]
    exact ⟨[], .line (fun c hc => hbody c (mem_of_mem_trimEnd hc)) (fun c hc => by cases hc)⟩
  | string hbody =>
    rw [trim_of_ends rfl rfl]
    exact ⟨rest, .string hbody⟩
  | comment hbody =>
    rw [trim_of_ends rfl rfl]
    exact ⟨rest, .comment hbody⟩
  | code => exact absurd rfl hkind

/-- **What is left of a part without its blanks is a part**, if anything is. -/
theorem IsPart.cut (h : IsPart piece) (spacing : Spacing) (hne : (spacing.cut piece.text).2 ≠ []) :
    IsPart ⟨piece.kind, (spacing.cut piece.text).2⟩ := by
  cases spacing with
  | keep => exact h
  | drop =>
    cases h with
    | segment h hkind =>
      obtain ⟨after, htrim⟩ := h.trim hkind
      exact .segment htrim hkind
    | lexeme h hcode =>
      obtain ⟨after, htrim⟩ := h.trim hne
      exact .lexeme htrim fun c hc => hcode c (mem_of_mem_trim hc)

theorem Lexeme.ne_nil (h : Lexeme piece rest) : piece.text ≠ [] := by
  obtain ⟨c, cs, -, hlexeme⟩ := h.lexeme_eq
  have hne := lexeme_text_ne_nil c cs
  rwa [hlexeme] at hne

/-- A lexeme that nothing follows is the only one of its text. -/
theorem Lexeme.lexemes_eq (h : Lexeme piece []) : lexemes piece.text = [piece] := by
  obtain ⟨c, cs, htext, hlexeme⟩ := h.lexeme_eq
  rw [List.append_nil] at htext
  rw [htext, lexemes_cons, hlexeme, lexemes]

/-- The token of a piece that is the whole source. -/
def Piece.whole (file : String) (piece : Piece) : Token :=
  ⟨piece.kind, String.ofList piece.text, ⟨0, file⟩, ⟨byteLength piece.text, file⟩⟩

theorem place_whole {text : List Char} (hne : text ≠ []) (hcut : spacing.cut text = (0, text))
    (kind : TokenKind) (file : String) :
    place spacing file 0 [⟨kind, text⟩] = [Piece.whole file ⟨kind, text⟩] := by
  rw [place_of_cut hne hcut, Nat.zero_add]
  rfl

end Scan

/-! ## Lexing a part -/

namespace Lexer

variable {lexer : Lexer} {piece : Piece}

/-- A source that is one segment, with no blanks to lose, has the parts of that segment. -/
theorem lex_of_segment (h : Segment piece [])
    (hcut : lexer.spacing.cut piece.text = (0, piece.text)) (file : String) :
    lexer.lex piece.text file =
      .ok ((parts lexer.spacing (piece.whole file)).map (Token.classified lexer.catalogue)) := by
  obtain ⟨hne, hsegments⟩ := h.segments_eq
  rw [List.append_nil, segments] at hsegments
  have hplace : segmentsOf lexer.spacing file piece.text = [piece.whole file] := by
    rw [segmentsOf, hsegments]
    exact place_whole hne hcut piece.kind file
  rw [lex_eq, hplace, hsegments, List.flatMap_singleton]
  rfl

/-- A source that is one lexeme, with no blanks to lose, is one token. -/
theorem lex_of_lexeme (h : Lexeme piece [])
    (hcode : ∀ c ∈ piece.text, c ≠ '|' ∧ c ≠ '\x22' ∧ c ≠ '\x60')
    (hcut : lexer.spacing.cut piece.text = (0, piece.text)) (file : String) :
    lexer.lex piece.text file = .ok [Token.classified lexer.catalogue (piece.whole file)] := by
  have hsegment : Segment ⟨.unresolved, piece.text⟩ [] :=
    .code h.ne_nil hcode fun c hc => by cases hc
  have hopen : ¬ (Piece.whole file ⟨.unresolved, piece.text⟩).isResolved = true := by
    simp [Token.isResolved, Piece.whole]
  have hplace : place lexer.spacing file 0 (lexemes piece.text) = [piece.whole file] := by
    rw [h.lexemes_eq]
    exact place_whole h.ne_nil hcut piece.kind file
  have hparts : parts lexer.spacing (Piece.whole file ⟨.unresolved, piece.text⟩) =
      [piece.whole file] := by
    rw [parts, if_neg hopen, ← hplace]
    simp only [Piece.whole, String.toList_ofList]
  rw [lex_of_segment hsegment hcut, hparts, List.map_singleton]

/-- **A part by itself is one token**, and of the same kind if it is no delimiter. -/
theorem lex_of_isPart (h : IsPart piece) (hcut : lexer.spacing.cut piece.text = (0, piece.text))
    (file : String) :
    ∃ kind,
      lexer.lex piece.text file =
        .ok [Token.classified lexer.catalogue (Piece.whole file ⟨kind, piece.text⟩)] ∧
      (kind = piece.kind ∨ kind = .unresolved ∧
        ∃ c next, isDelimiter c = true ∧ piece = ⟨delimiterKind c next, [c]⟩) := by
  cases h with
  | segment h hkind =>
    refine ⟨piece.kind, ?_, .inl rfl⟩
    have hresolved : (piece.whole file).isResolved = true := by
      simpa [Token.isResolved, Piece.whole] using hkind
    rw [lex_of_segment h.alone hcut, parts, if_pos hresolved, List.map_singleton]
  | lexeme h hcode =>
    obtain ⟨kind, halone, hkind⟩ := h.alone
    exact ⟨kind, lex_of_lexeme halone hcode hcut file, hkind⟩

/-- Classification goes by the kind and the text, wherever the token is. -/
theorem kind_classified (c : Catalogue) (kind : TokenKind) (text : String) (here there : Span) :
    (Token.classified c ⟨kind, text, here⟩).kind =
      (Token.classified c ⟨kind, text, there⟩).kind := by
  by_cases hkind : kind = .unresolved
  · rw [classified_of_unresolved c hkind, classified_of_unresolved c hkind]
  · rw [classified_of_ne_unresolved c hkind, classified_of_ne_unresolved c hkind]

/-- A token is a part of the source that has lost its blanks, classified. -/
theorem exists_cut_part_of_lex {text : List Char} {file : String} {tokens : List Token}
    (h : lexer.lex text file = .ok tokens) {t : Token} (ht : t ∈ tokens) :
    ∃ piece span, IsPart piece ∧ lexer.spacing.cut piece.text = (0, piece.text) ∧
      t = Token.classified lexer.catalogue ⟨piece.kind, String.ofList piece.text, span⟩ := by
  have hne := text_ne_nil_of_covers (covers_of_lex h) ht
  obtain ⟨piece, span, hpart, rfl⟩ := exists_isPart_of_lex h ht
  rw [(classified_text_span _ _).1, String.toList_ofList] at hne
  exact ⟨_, span, hpart.cut lexer.spacing hne, Spacing.cut_cut lexer.spacing piece.text, rfl⟩

/-- **Every token of a source is found again by itself.** Whatever it was cut off from and whatever
it has lost, its text is lexed as one token over all of it. That is of the same kind, if the
catalogue has names only, unless it is one of the three delimiters whose kind is decided by what
follows them. -/
theorem tokenize_token_text {source : String} {file? : Option String} {tokens : List Token}
    (h : lexer.tokenize source file? = .ok tokens) :
    ∀ t ∈ tokens, ∀ again? : Option String, ∃ kind,
      lexer.tokenize t.text again? =
        .ok [⟨kind, t.text, ⟨0, again?.getD "shell"⟩,
          ⟨byteLength t.text.toList, again?.getD "shell"⟩⟩] ∧
      (lexer.catalogue.HasNames → t.text ∉ ["+", "-", ":"] → kind = t.kind) := by
  intro t ht again?
  obtain ⟨piece, span, hpart, hcut, rfl⟩ := exists_cut_part_of_lex h ht
  obtain ⟨kind, hlex, hkind⟩ := lex_of_isPart hpart hcut (again?.getD "shell")
  rw [(classified_text_span _ _).1, tokenize, String.toList_ofList]
  refine ⟨_, hlex.trans (by rw [classified_eq]; rfl), fun hnames hother => ?_⟩
  rcases hkind with rfl | ⟨rfl, d, next, hd, rfl⟩
  · exact kind_classified _ _ _ _ _
  · rw [kind_classified lexer.catalogue _ _ _ span]
    have hsame := classified_delimiter hnames hd (t := ⟨.unresolved, String.singleton d, span⟩) rfl
      rfl next
    exact congrArg _ (hsame.resolve_left (by simpa using hother)).symm

theorem tokenize_token_text_less :
    let lexer : Lexer := ⟨Catalogue.empty.add ⟨.function, "SUM"⟩, .drop⟩
    let less : Token := ⟨.operator, "<", ⟨7, "shell"⟩, ⟨8, "shell"⟩⟩
    let tokens : List Token :=
      [⟨.unresolved, "x", ⟨2, "shell"⟩, ⟨3, "shell"⟩⟩,
        ⟨.function, "SUM", ⟨4, "shell"⟩, ⟨7, "shell"⟩⟩, less,
        ⟨.number, "-1E-2", ⟨8, "shell"⟩, ⟨13, "shell"⟩⟩,
        ⟨.number, "-3", ⟨13, "shell"⟩, ⟨15, "shell"⟩⟩,
        ⟨.comment, "|c", ⟨16, "shell"⟩, ⟨18, "shell"⟩⟩]
    lexer.tokenize "\u00a0x SUM<-1E-2-3 |c " none = .ok tokens ∧ less ∈ tokens ∧
      lexer.catalogue.HasNames ∧ less.text ∉ ["+", "-", ":"] ∧
      lexer.tokenize "<" none = .ok [⟨.operator, "<", ⟨0, "shell"⟩, ⟨1, "shell"⟩⟩] := by
  intro lexer less tokens
  have hnames : lexer.catalogue.HasNames := Catalogue.hasNames_empty.add (by decide)
  have h : lexer.tokenize "\u00a0x SUM<-1E-2-3 |c " none = .ok tokens :=
    eq_ok_of_toOption_eq_some (by decide +kernel)
  have hless : less ∈ tokens ∧ less.text ∉ ["+", "-", ":"] := by decide
  obtain ⟨kind, halone, hkind⟩ := tokenize_token_text h less hless.1 none
  have hlength : byteLength less.text.toList = 1 := by decide
  rw [hkind hnames hless.2, hlength] at halone
  exact ⟨h, hless.1, hnames, hless.2, halone⟩

-- A sign before a separator is not of the kind that it has by itself.
example :
    (tokenize ⟨.empty, .drop⟩ "- B" none).toOption.map (·.map (·.kind)) =
        some [.dyadic, .unresolved] ∧
      (tokenize ⟨.empty, .drop⟩ "-" none).toOption.map (·.map (·.kind)) = some [.operator] := by
  decide +kernel

end Lexer

end LayoutLex
