import LayoutLex.Proofs.Questions
import Mathlib.Data.List.Chain

/-!
# The grammars of the two scans

What either scan finds is said here without the scan: a grammar lists the pieces that may stand at
the front of a text, together with what has to follow them, and a text is cut by taking one such
piece after another off its front.

* `Cut` is cutting a text by a grammar, from the offset of its first byte on.
* `Segment` is the grammar of the first scan: comments, strings, and the code between them.
* `Lexeme` is the grammar of the second scan. `Joins` says which character goes on with a number.

At the front of a text a grammar allows at most one piece. So a text is cut in one way, and the
tokens of a scanner are the cuts of its text.

Results:
* `cut_segment_iff`, `cut_lexeme_iff`: the cuts of a text are its placed segments, or lexemes.
* `start_segments_cut`: a scanner finds the one cut of a text into segments, unless a string or
  quoted comment is left open.
* `start_lexemes_cut`: a scanner finds the one cut of a text into lexemes.
* `refine_eq_scanner`: the lexemes of a segment are what a scanner finds in the segment's text.
-/

namespace LayoutLex

open Text

namespace Scan

/-! ## Cutting by a grammar -/

/-- The tokens are cut off the front of the text one after another. The grammar allows each of them
before the text that is left. -/
inductive Cut (Grammar : Piece → List Char → Prop) (file : String) :
    Nat → List Char → List Token → Prop
  | nil (start : Nat) : Cut Grammar file start [] []
  | cons {start : Nat} {piece : Piece} {rest : List Char} {tokens : List Token}
      (hpiece : Grammar piece rest)
      (hrest : Cut Grammar file (start + byteLength piece.text) rest tokens) :
      Cut Grammar file start (piece.text ++ rest)
        (⟨piece.kind, String.ofList piece.text, ⟨start, file⟩,
          ⟨start + byteLength piece.text, file⟩⟩ :: tokens)

/-- A piece of a text from its front up to a line break, a string or a comment, or one of these. -/
inductive Segment : Piece → List Char → Prop
  /-- A comment ends before the next line break or with the text. -/
  | line {body rest : List Char} (hbody : ∀ c ∈ body, c ≠ '\r' ∧ c ≠ '\n')
      (hrest : ∀ c ∈ rest.head?, c = '\r' ∨ c = '\n') : Segment ⟨.comment, '|' :: body⟩ rest
  /-- A string ends with the next double quote. -/
  | string {body rest : List Char} (hbody : '\x22' ∉ body) :
      Segment ⟨.string, '\x22' :: (body ++ ['\x22'])⟩ rest
  /-- A quoted comment ends with the next backquote. -/
  | comment {body rest : List Char} (hbody : '\x60' ∉ body) :
      Segment ⟨.comment, '\x60' :: (body ++ ['\x60'])⟩ rest
  /-- Code ends before the next of the three delimiters or with the text. -/
  | code {run rest : List Char} (hne : run ≠ [])
      (hrun : ∀ c ∈ run, c ≠ '|' ∧ c ≠ '\x22' ∧ c ≠ '\x60')
      (hrest : ∀ c ∈ rest.head?, c = '|' ∨ c = '\x22' ∨ c = '\x60') :
      Segment ⟨.unresolved, run⟩ rest

/-- After the character `a` a number goes on with `b`: with any of its characters, except that no
sign follows a digit. -/
def Joins (a b : Char) : Prop :=
  isNumberChar b = true ∧ (isSign b = true → a.isDigit = false)

/-- A word at the front of a text, before what is left. -/
inductive Lexeme : Piece → List Char → Prop
  /-- The longest run of separators. -/
  | spaces {run rest : List Char} (hne : run ≠ []) (hrun : ∀ c ∈ run, isSpace c = true)
      (hrest : Stops isSpace rest) : Lexeme ⟨.spaces, run⟩ rest
  /-- A name, as long as possible, with the characters without meaning before it. -/
  | name {run marks rest : List Char} {first : Char} (hrun : ∀ c ∈ run, isOther c = true)
      (hfirst : isNameStart first = true) (hmarks : ∀ c ∈ marks, isNameChar c = true)
      (hrest : Stops isNameChar rest) : Lexeme ⟨.unresolved, run ++ first :: marks⟩ rest
  /-- The longest run of characters without meaning, if no name goes on with it. -/
  | other {run rest : List Char} (hne : run ≠ []) (hrun : ∀ c ∈ run, isOther c = true)
      (hrest : Stops (fun c => isOther c || isNameStart c) rest) : Lexeme ⟨.unresolved, run⟩ rest
  /-- The longest word of a number from a digit or point on, or from a minus before one of these. -/
  | number {word rest : List Char}
      (hstart : ∃ d tail, isNumberStart d = true ∧ (word = d :: tail ∨ word = '-' :: d :: tail))
      (hword : word.IsChain Joins) (hrest : ∀ d ∈ rest.head?, ¬ (word ++ [d]).IsChain Joins) :
      Lexeme ⟨if Literal.isNumber word then .number else .badNumber, word⟩ rest
  /-- Two delimiters that are one operator. -/
  | pair {c d : Char} {rest : List Char}
      (hpair : [c, d] = ":=".toList ∨ [c, d] = "<>".toList ∨ [c, d] = ">=".toList ∨
        [c, d] = "<=".toList) : Lexeme ⟨.operator, [c, d]⟩ rest
  /-- Any delimiter at the end of the text. -/
  | last {c : Char} (hc : isDelimiter c = true) : Lexeme ⟨.unresolved, [c]⟩ []
  /-- A delimiter that could have started an operator of two. -/
  | half {c next : Char} {rest : List Char} (hc : c = ':' ∨ c = '<' ∨ c = '>')
      (hpair : (c, next) ∉ pairs) : Lexeme ⟨.operator, [c]⟩ (next :: rest)
  /-- A sign before a separator. -/
  | dyadic {c next : Char} {rest : List Char} (hc : c = '+' ∨ c = '-')
      (hnext : isSpace next = true) : Lexeme ⟨.dyadic, [c]⟩ (next :: rest)
  /-- A sign before anything else, unless it is the sign of a number. -/
  | monadic {c next : Char} {rest : List Char} (hc : c = '+' ∨ c = '-')
      (hnext : isSpace next = false) (hnumber : c = '-' → isNumberStart next = false) :
      Lexeme ⟨.monadic, [c]⟩ (next :: rest)
  /-- Any other delimiter, of the kind that the table of operators says. -/
  | delimiter {c next : Char} {rest : List Char} (hc : isDelimiter c = true)
      (hother : c ∉ [':', '<', '>', '+', '-']) :
      Lexeme ⟨if Operator.isOperator (String.singleton c) then .operator else .unresolved, [c]⟩
        (next :: rest)

variable {file : String} {start base : Nat} {text cs rest : List Char} {piece : Piece}
variable {tokens : List Token}

/-- With its blanks kept, a piece of some text makes one token. -/
theorem token?_keep (hne : piece.text ≠ []) :
    piece.token? .keep file start = some ⟨piece.kind, String.ofList piece.text, ⟨start, file⟩,
      ⟨start + byteLength piece.text, file⟩⟩ := by
  simp [Piece.token?, Spacing.cut, hne]

/-! ## Segments -/

/-- The piece of the grammar is what the scan finds first. -/
theorem Segment.segments_eq (h : Segment piece rest) :
    piece.text ≠ [] ∧ segments (piece.text ++ rest) = (segments rest).cons piece := by
  cases h with
  | @line body _ hbody hrest =>
    have hrun : ∀ c ∈ body, (!isBreak c) = true := by
      intro c hc
      simpa [← Bool.not_eq_true, isBreak_iff] using hbody c hc
    have hstops : Stops (!isBreak ·) rest := by
      intro c hc
      simpa using isBreak_iff.mpr (hrest c hc)
    refine ⟨List.cons_ne_nil _ _, ?_⟩
    rw [List.cons_append, segments_line (by decide), takeWhile_append_of_stops hrun hstops,
      dropWhile_append_of_stops hrun hstops]
  | string hbody =>
    refine ⟨List.cons_ne_nil _ _, ?_⟩
    rw [List.cons_append, List.append_assoc, List.singleton_append,
      segments_closed (by decide) hbody]
    rfl
  | comment hbody =>
    refine ⟨List.cons_ne_nil _ _, ?_⟩
    rw [List.cons_append, List.append_assoc, List.singleton_append,
      segments_closed (by decide) hbody]
    rfl
  | @code run _ hne hrun hrest =>
    have hrun : ∀ c ∈ run, isOpener c = false := by
      intro c hc
      obtain ⟨hbar, hstring, hcomment⟩ := hrun c hc
      rw [← Bool.not_eq_true, isOpener_iff]
      simp [hbar, hstring, hcomment]
    have hstops : Stops (!isOpener ·) rest := by
      intro c hc
      simpa using isOpener_iff.mpr (hrest c hc)
    refine ⟨hne, ?_⟩
    cases run with
    | nil => exact absurd rfl hne
    | cons c run =>
      have htail : ∀ d ∈ run, (!isOpener d) = true := by
        intro d hd
        simpa using hrun d (List.mem_cons_of_mem c hd)
      rw [List.cons_append, segments_code (hrun c List.mem_cons_self),
        takeWhile_append_of_stops htail hstops, dropWhile_append_of_stops htail hstops]

/-- A text is one segment after another, up to its end or to a delimiter that is never closed. -/
@[elab_as_elim]
theorem segment_induction {motive : List Char → Prop} (text : List Char) (nil : motive [])
    (unclosed : ∀ d rest, isQuote d = true → d ∉ rest → motive (d :: rest))
    (cons : ∀ piece rest, Segment piece rest → motive rest → motive (piece.text ++ rest)) :
    motive text := by
  fun_induction segments text with
  | case1 => exact nil
  | case2 c cs hbar ih =>
    have hline := cons ⟨.comment, '|' :: cs.takeWhile (!isBreak ·)⟩ _ (.line ?_ ?_) ih
    · rwa [List.cons_append, List.takeWhile_append_dropWhile, ← isBar_iff.mp hbar] at hline
    · intro d hd
      have hbreak : ¬ isBreak d = true := by simpa using mem_takeWhile hd
      simpa [isBreak_iff] using hbreak
    · intro d hd
      exact isBreak_iff.mp (by simpa using stops_dropWhile _ cs d hd)
  | case3 c cs _ hquote hclosing =>
    exact unclosed c cs hquote (closing?_eq_none_iff.mp hclosing)
  | case4 c cs _ hquote text rest hclosing ih =>
    obtain ⟨body, hbody, rfl, rfl⟩ := exists_body_of_closing? hclosing
    have hsplit : c :: (body ++ c :: rest) = c :: (body ++ [c]) ++ rest := by simp
    rw [hsplit]
    rcases isQuote_iff.mp hquote with rfl | rfl
    · exact cons ⟨.string, _⟩ rest (.string hbody) ih
    · exact cons ⟨.comment, _⟩ rest (.comment hbody) ih
  | case5 c cs hbar hquote ih =>
    have hcode := cons ⟨.unresolved, c :: cs.takeWhile (!isOpener ·)⟩ _
      (.code (List.cons_ne_nil _ _) ?_ ?_) ih
    · rwa [List.cons_append, List.takeWhile_append_dropWhile] at hcode
    · intro d hd
      have hopener : ¬ isOpener d = true := by
        rcases List.mem_cons.mp hd with rfl | hd
        · simp [isOpener, hbar, hquote]
        · simpa using mem_takeWhile hd
      simpa [isOpener_iff] using hopener
    · intro d hd
      exact isOpener_iff.mp (by simpa using stops_dropWhile _ cs d hd)

/-- Every segment that is found is a piece of the grammar. -/
theorem segment_of_mem_segments (text : List Char) :
    ∀ piece ∈ (segments text).pieces, ∃ rest, Segment piece rest := by
  induction text using segment_induction with
  | nil =>
    rw [segments]
    exact fun piece hpiece => absurd hpiece List.not_mem_nil
  | unclosed d rest hquote hopen =>
    rw [segments_unclosed hquote hopen]
    exact fun piece hpiece => absurd hpiece List.not_mem_nil
  | cons piece rest hpiece ih =>
    rw [hpiece.segments_eq.2, Split.pieces_cons]
    exact List.forall_mem_cons.mpr ⟨⟨rest, hpiece⟩, ih⟩

/-- **The cuts of a text into segments are those of the scan**, if it comes to the end. -/
theorem cut_segment_iff : Cut Segment file start text tokens ↔
    (segments text).unclosed? = none ∧ place .keep file start (segments text).pieces = tokens := by
  constructor
  · intro h
    induction h with
    | nil start =>
      rw [segments]
      exact ⟨rfl, rfl⟩
    | cons hpiece _ ih =>
      obtain ⟨hne, hsegments⟩ := hpiece.segments_eq
      rw [hsegments, Split.pieces_cons, place_cons, token?_keep hne, ih.2]
      exact ⟨ih.1, rfl⟩
  · rintro ⟨hnone, rfl⟩
    induction text using segment_induction generalizing start with
    | nil =>
      rw [segments]
      exact .nil start
    | unclosed d rest hquote hopen =>
      rw [segments_unclosed hquote hopen] at hnone
      cases hnone
    | cons piece rest hpiece ih =>
      obtain ⟨hne, hsegments⟩ := hpiece.segments_eq
      rw [hsegments] at hnone ⊢
      rw [Split.pieces_cons, place_cons, token?_keep hne]
      exact .cons hpiece (ih hnone)

/-! ## Numbers -/

theorem joins_iff {a b : Char} :
    Joins a b ↔ (isNumberChar b && !(isSign b && a.isDigit)) = true := by
  cases hsign : isSign b <;> simp [Joins, hsign]

/-- A number goes as far as its characters join. -/
theorem numberTail_of_isChain {last : Char} {run : List Char} (hrun : (last :: run).IsChain Joins)
    (hrest : ∀ d ∈ rest.head?, ¬ (last :: run ++ [d]).IsChain Joins) :
    numberTail last (run ++ rest) = run := by
  induction run generalizing last with
  | nil =>
    cases rest with
    | nil => rfl
    | cons d rest =>
      have hd : ¬ Joins last d := by simpa using hrest d rfl
      rw [List.nil_append, numberTail, if_neg (joins_iff.not.mp hd)]
  | cons c run ih =>
    obtain ⟨hjoins, hrun⟩ := List.isChain_cons_cons.mp hrun
    rw [List.cons_append, numberTail, if_pos (joins_iff.mp hjoins), ih hrun]
    intro d hd hchain
    exact hrest d hd (List.isChain_cons_cons.mpr ⟨hjoins, hchain⟩)

theorem isChain_numberTail (last : Char) (cs : List Char) :
    (last :: numberTail last cs).IsChain Joins := by
  induction cs generalizing last with
  | nil => exact .singleton last
  | cons c cs ih =>
    rw [numberTail]
    split
    · next hc => exact .cons_cons (joins_iff.mpr hc) (ih c)
    · exact .singleton last

theorem not_isChain_numberTail (last : Char) (cs : List Char) :
    ∀ d ∈ (cs.drop (numberTail last cs).length).head?,
      ¬ (last :: numberTail last cs ++ [d]).IsChain Joins := by
  induction cs generalizing last with
  | nil =>
    intro d hd
    cases hd
  | cons c cs ih =>
    rw [numberTail]
    split
    · intro d hd hchain
      exact ih c d hd (List.isChain_cons_cons.mp hchain).2
    · next hc =>
      intro d hd hchain
      cases hd
      exact hc (joins_iff.mp (List.isChain_cons_cons.mp hchain).1)

theorem isNumberChar_of_isChain {first : Char} {word : List Char}
    (h : (first :: word).IsChain Joins) : ∀ c ∈ word, isNumberChar c = true := by
  induction word generalizing first with
  | nil => exact fun c hc => absurd hc List.not_mem_nil
  | cons c word ih =>
    obtain ⟨hjoins, hword⟩ := List.isChain_cons_cons.mp h
    exact List.forall_mem_cons.mpr ⟨hjoins.1, ih hword⟩

/-! ## Lexemes -/

theorem not_isOther_of_isNameStart {c : Char} (h : isNameStart c = true) : isOther c = false := by
  simp [isOther, h]

theorem isPairStart_iff {c : Char} : isPairStart c = true ↔ c = ':' ∨ c = '<' ∨ c = '>' := by
  simp only [isPairStart, pairs, List.any_cons, List.any_nil, Bool.or_eq_true, beq_iff_eq]
  constructor
  · rintro (rfl | rfl | rfl | rfl | h)
    · exact .inl rfl
    · exact .inr (.inl rfl)
    · exact .inr (.inr rfl)
    · exact .inr (.inl rfl)
    · cases h
  · rintro (rfl | rfl | rfl)
    · exact .inl rfl
    · exact .inr (.inl rfl)
    · exact .inr (.inr (.inl rfl))

theorem isSign_iff {c : Char} : isSign c = true ↔ c = '+' ∨ c = '-' := by
  simp [isSign]

theorem not_mem_pairs {c : Char} (h : ¬ isPairStart c = true) (next : Char) :
    (c, next) ∉ pairs := fun hmem => h (List.any_eq_true.mpr ⟨(c, next), hmem, beq_self_eq_true c⟩)

theorem mem_pairs_iff {c d : Char} : (c, d) ∈ pairs ↔
    [c, d] = ":=".toList ∨ [c, d] = "<>".toList ∨ [c, d] = ">=".toList ∨ [c, d] = "<=".toList := by
  simp [pairs]

/-- A delimiter that could have started a pair is an operator. -/
theorem kind_of_pairStart {c : Char} (hc : c = ':' ∨ c = '<' ∨ c = '>') (next : Char) :
    isDelimiter c = true ∧ delimiterKind c next = .operator := by
  have hdelimiter : isDelimiter c = true := by rcases hc with rfl | rfl | rfl <;> decide
  rw [delimiterKind, if_pos (isPairStart_iff.mpr hc)]
  exact ⟨hdelimiter, rfl⟩

/-- The kind of a sign is decided by what follows it. -/
theorem kind_of_sign {c : Char} (hc : c = '+' ∨ c = '-') (next : Char) :
    isDelimiter c = true ∧ ¬ isPairStart c = true ∧
      delimiterKind c next = if isSpace next then .dyadic else .monadic := by
  have hdelimiter : isDelimiter c = true := by rcases hc with rfl | rfl <;> decide
  have hpair : ¬ isPairStart c = true := by rcases hc with rfl | rfl <;> decide
  rw [delimiterKind, if_neg hpair, if_pos (isSign_iff.mpr hc)]
  exact ⟨hdelimiter, hpair, rfl⟩

/-- The kind of any other delimiter is decided by the table of operators. -/
theorem kind_of_other {c : Char} (hc : c ∉ [':', '<', '>', '+', '-']) (next : Char) :
    ¬ isPairStart c = true ∧ c ≠ '-' ∧ delimiterKind c next =
      if Operator.isOperator (String.singleton c) then .operator else .unresolved := by
  simp only [List.mem_cons, List.not_mem_nil, or_false, not_or] at hc
  obtain ⟨hcolon, hless, hgreater, hplus, hminus⟩ := hc
  have hpair : ¬ isPairStart c = true := by simp [isPairStart_iff, hcolon, hless, hgreater]
  have hsign : ¬ isSign c = true := by simp [isSign_iff, hplus, hminus]
  rw [delimiterKind, if_neg hpair, if_neg hsign]
  exact ⟨hpair, hminus, rfl⟩

/-- A delimiter that is neither a part of a pair nor the sign of a number stands alone. -/
theorem lexeme_single {c next : Char} (hc : isDelimiter c = true) (hpair : (c, next) ∉ pairs)
    (hnumber : c = '-' → isNumberStart next = false) (rest : List Char) :
    lexeme c (next :: rest) = (⟨delimiterKind c next, [c]⟩, next :: rest) := by
  obtain ⟨hspace, hname, hstart⟩ := classes_of_isDelimiter hc
  have hstarts : startsNumber c (next :: rest) = false := by
    rw [startsNumber, hstart]
    simpa using hnumber
  have hcontains : ¬ pairs.contains (c, next) = true := by simpa using hpair
  rw [lexeme_of_delimiter hspace hname hstarts hc, Scan.delimiter, if_neg hcontains]

/-- The piece of the grammar is the lexeme at the front of the text. -/
theorem Lexeme.lexeme_eq (h : Lexeme piece rest) :
    ∃ c cs, piece.text ++ rest = c :: cs ∧ lexeme c cs = (piece, rest) := by
  cases h with
  | @spaces run _ hne hrun hrest =>
    cases run with
    | nil => exact absurd rfl hne
    | cons c run =>
      have htail : ∀ d ∈ run, isSpace d = true := fun d hd => hrun d (List.mem_cons_of_mem c hd)
      refine ⟨c, run ++ rest, rfl, ?_⟩
      rw [lexeme_of_space (hrun c List.mem_cons_self), takeWhile_append_of_stops htail hrest,
        dropWhile_append_of_stops htail hrest]
  | @name run marks _ first hrun hfirst hmarks hrest =>
    cases run with
    | nil =>
      refine ⟨first, marks ++ rest, rfl, ?_⟩
      rw [lexeme_of_nameStart hfirst, takeWhile_append_of_stops hmarks hrest,
        dropWhile_append_of_stops hmarks hrest]
      rfl
    | cons c run =>
      have htail : ∀ d ∈ run, isOther d = true := fun d hd => hrun d (List.mem_cons_of_mem c hd)
      have hstops : Stops isOther (first :: (marks ++ rest)) :=
        stops_cons.mpr (not_isOther_of_isNameStart hfirst)
      refine ⟨c, run ++ first :: (marks ++ rest), by simp, ?_⟩
      rw [lexeme_of_other (hrun c List.mem_cons_self), Scan.other,
        takeWhile_append_of_stops htail hstops, dropWhile_append_of_stops htail hstops]
      dsimp only
      rw [if_pos hfirst, takeWhile_append_of_stops hmarks hrest,
        dropWhile_append_of_stops hmarks hrest]
  | @other run _ hne hrun hrest =>
    cases run with
    | nil => exact absurd rfl hne
    | cons c run =>
      have htail : ∀ d ∈ run, isOther d = true := fun d hd => hrun d (List.mem_cons_of_mem c hd)
      refine ⟨c, run ++ rest, rfl, ?_⟩
      rw [lexeme_of_other (hrun c List.mem_cons_self)]
      cases rest with
      | nil =>
        rw [Scan.other, takeWhile_append_of_stops htail stops_nil,
          dropWhile_append_of_stops htail stops_nil]
      | cons d rest =>
        obtain ⟨hother, hname⟩ := Bool.or_eq_false_iff.mp (stops_cons.mp hrest)
        have hstops : Stops isOther (d :: rest) := stops_cons.mpr hother
        rw [Scan.other, takeWhile_append_of_stops htail hstops,
          dropWhile_append_of_stops htail hstops]
        dsimp only
        rw [if_neg (by simp [hname])]
  | @number word _ hstart hword hrest =>
    obtain ⟨d, tail, hd, rfl | rfl⟩ := hstart
    · have htail := numberTail_of_isChain hword hrest
      have hstarts : startsNumber d (tail ++ rest) = true := by simp [startsNumber, hd]
      refine ⟨d, tail ++ rest, rfl, ?_⟩
      rw [lexeme_of_startsNumber hstarts, htail, List.drop_left]
      rfl
    · have htail := numberTail_of_isChain hword hrest
      have hstarts : startsNumber '-' (d :: tail ++ rest) = true := by simp [startsNumber, hd]
      refine ⟨'-', d :: tail ++ rest, rfl, ?_⟩
      rw [lexeme_of_startsNumber hstarts, htail, List.drop_left]
      rfl
  | @pair c d rest hpair =>
    have hmem := mem_pairs_iff.mpr hpair
    have hdelimiter : isDelimiter c = true ∧ c ≠ '-' := by
      have hall : ∀ pair ∈ pairs, isDelimiter pair.1 = true ∧ pair.1 ≠ '-' := by decide
      exact hall _ hmem
    obtain ⟨hspace, hname, hnumber⟩ := classes_of_isDelimiter hdelimiter.1
    have hstarts : startsNumber c (d :: rest) = false := by
      simp [startsNumber, hnumber, hdelimiter.2]
    refine ⟨c, d :: rest, rfl, ?_⟩
    rw [lexeme_of_delimiter hspace hname hstarts hdelimiter.1, Scan.delimiter,
      if_pos (List.contains_iff_mem.mpr hmem)]
  | @last c hc =>
    obtain ⟨hspace, hname, hnumber⟩ := classes_of_isDelimiter hc
    refine ⟨c, [], rfl, ?_⟩
    rw [lexeme_of_delimiter hspace hname (by simp [startsNumber, hnumber]) hc]
    rfl
  | @half c next rest hc hpair =>
    obtain ⟨hdelimiter, hkind⟩ := kind_of_pairStart hc next
    have hminus : c = '-' → isNumberStart next = false := by
      rintro rfl
      exact absurd hc (by decide)
    exact ⟨c, next :: rest, rfl, hkind ▸ lexeme_single hdelimiter hpair hminus rest⟩
  | @dyadic c next rest hc hnext =>
    obtain ⟨hdelimiter, hpair, hkind⟩ := kind_of_sign hc next
    rw [if_pos hnext] at hkind
    exact ⟨c, next :: rest, rfl, hkind ▸ lexeme_single hdelimiter (not_mem_pairs hpair next)
      (fun _ => not_isNumberStart_of_isSpace hnext) rest⟩
  | @monadic c next rest hc hnext hnumber =>
    obtain ⟨hdelimiter, hpair, hkind⟩ := kind_of_sign hc next
    rw [if_neg (by simp [hnext])] at hkind
    exact ⟨c, next :: rest, rfl,
      hkind ▸ lexeme_single hdelimiter (not_mem_pairs hpair next) hnumber rest⟩
  | @delimiter c next rest hc hother =>
    obtain ⟨hpair, hminus, hkind⟩ := kind_of_other hother next
    exact ⟨c, next :: rest, rfl, hkind ▸ lexeme_single hc (not_mem_pairs hpair next)
      (fun heq => absurd heq hminus) rest⟩

/-- A delimiter that stands alone is of the kind that the grammar says. -/
theorem lexeme_delimiterKind {c next : Char} (hc : isDelimiter c = true)
    (hpair : (c, next) ∉ pairs) (hnumber : c = '-' → isNumberStart next = false)
    (rest : List Char) : Lexeme ⟨delimiterKind c next, [c]⟩ (next :: rest) := by
  rw [delimiterKind]
  split
  · next hstart => exact .half (isPairStart_iff.mp hstart) hpair
  · next hstart =>
    split
    · next hsign =>
      have hc := isSign_iff.mp hsign
      split
      · next hnext => exact .dyadic hc hnext
      · next hnext => exact .monadic hc (Bool.eq_false_iff.mpr hnext) hnumber
    · next hsign =>
      refine .delimiter hc fun hmem => ?_
      simp only [List.mem_cons, List.not_mem_nil, or_false] at hmem
      rcases hmem with rfl | rfl | rfl | rfl | rfl
      · exact hstart (by decide)
      · exact hstart (by decide)
      · exact hstart (by decide)
      · exact hsign (by decide)
      · exact hsign (by decide)

/-- The lexeme at the front of a text is a piece of the grammar. -/
theorem lexeme_lexeme (c : Char) (cs : List Char) : Lexeme (lexeme c cs).1 (lexeme c cs).2 := by
  rcases firstCharacter_cases c cs with
    hc | hc | ⟨-, -, hc⟩ | ⟨hspace, hname, hnumber, hc⟩ | hc
  · rw [lexeme_of_space hc]
    exact .spaces (List.cons_ne_nil _ _)
      (List.forall_mem_cons.mpr ⟨hc, fun d hd => mem_takeWhile hd⟩) (stops_dropWhile _ _)
  · rw [lexeme_of_nameStart hc]
    show Lexeme ⟨.unresolved, [] ++ c :: cs.takeWhile isNameChar⟩ _
    exact .name (fun d hd => absurd hd List.not_mem_nil) hc (fun d hd => mem_takeWhile hd)
      (stops_dropWhile _ _)
  · rw [lexeme_of_startsNumber hc]
    refine .number ?_ (isChain_numberTail c cs) (not_isChain_numberTail c cs)
    by_cases hstart : isNumberStart c = true
    · exact ⟨c, _, hstart, .inl rfl⟩
    · obtain ⟨rfl, d, ds, rfl, hd⟩ := exists_of_startsNumber hc hstart
      exact ⟨d, _, hd, .inr (by rw [numberTail_minus hd])⟩
  · rw [lexeme_of_delimiter hspace hname hnumber hc]
    cases cs with
    | nil => exact .last hc
    | cons next rest =>
      have hminus : c = '-' → isNumberStart next = false := by
        rintro rfl
        simpa [startsNumber] using (Bool.or_eq_false_iff.mp hnumber).2
      rw [Scan.delimiter]
      split
      · next hpair => exact .pair (mem_pairs_iff.mp (List.contains_iff_mem.mp hpair))
      · next hpair =>
        have hpair : (c, next) ∉ pairs := fun hmem => hpair (List.contains_iff_mem.mpr hmem)
        exact lexeme_delimiterKind hc hpair hminus rest
  · have hrun : ∀ d ∈ c :: cs.takeWhile isOther, isOther d = true :=
      List.forall_mem_cons.mpr ⟨hc, fun d hd => mem_takeWhile hd⟩
    have hstops := stops_dropWhile isOther cs
    rw [lexeme_of_other hc, Scan.other]
    split
    · exact .other (List.cons_ne_nil _ _) hrun stops_nil
    · next d rest hdrop =>
      rw [hdrop] at hstops
      split
      · next hd => exact .name hrun hd (fun e he => mem_takeWhile he) (stops_dropWhile _ _)
      · next hd =>
        refine .other (List.cons_ne_nil _ _) hrun (stops_cons.mpr ?_)
        rw [stops_cons.mp hstops, Bool.eq_false_iff.mpr hd]
        rfl

theorem lexeme_of_mem_lexemes (text : List Char) :
    ∀ piece ∈ lexemes text, ∃ rest, Lexeme piece rest := by
  fun_induction lexemes text with
  | case1 => exact fun piece hpiece => absurd hpiece List.not_mem_nil
  | case2 c cs ih => exact List.forall_mem_cons.mpr ⟨⟨_, lexeme_lexeme c cs⟩, ih⟩

/-- **The cuts of a text into lexemes are those of the scan.** -/
theorem cut_lexeme_iff :
    Cut Lexeme file start text tokens ↔ place .keep file start (lexemes text) = tokens := by
  constructor
  · intro h
    induction h with
    | nil start =>
      rw [lexemes]
      rfl
    | cons hpiece _ ih =>
      obtain ⟨c, cs, htext, hlexeme⟩ := hpiece.lexeme_eq
      have hne := lexeme_text_ne_nil c cs
      rw [hlexeme] at hne
      rw [htext, lexemes_cons, hlexeme, place_cons, token?_keep hne, ih]
      rfl
  · rintro rfl
    fun_induction lexemes text generalizing start with
    | case1 => exact .nil start
    | case2 c cs ih =>
      rw [place_cons, token?_keep (lexeme_text_ne_nil c cs), ← lexeme_append c cs]
      exact .cons (lexeme_lexeme c cs) ih

-- A sign after the mark of an exponent goes on with the number, one after a digit starts the next.
example : place .keep "shell" 0 (lexemes "aB-1E-5-.:".toList) =
    [⟨.unresolved, "aB", ⟨0, "shell"⟩, ⟨2, "shell"⟩⟩,
      ⟨.number, "-1E-5", ⟨2, "shell"⟩, ⟨7, "shell"⟩⟩,
      ⟨.number, "-.", ⟨7, "shell"⟩, ⟨9, "shell"⟩⟩,
      ⟨.unresolved, ":", ⟨9, "shell"⟩, ⟨10, "shell"⟩⟩] := by
  decide +kernel

/-! ## What scanners find -/

/-- Every token that is cut off is a piece of the grammar. -/
theorem Cut.exists_of_mem {Grammar : Piece → List Char → Prop} {t : Token}
    (h : Cut Grammar file start text tokens) (ht : t ∈ tokens) :
    ∃ piece rest offset, Grammar piece rest ∧
      t = ⟨piece.kind, String.ofList piece.text, ⟨offset, file⟩,
        ⟨offset + byteLength piece.text, file⟩⟩ := by
  induction h with
  | nil => cases ht
  | cons hpiece _ ih =>
    rcases List.mem_cons.mp ht with rfl | ht
    · exact ⟨_, _, _, hpiece, rfl⟩
    · exact ih ht

/-- A segment is one as well when nothing follows it. -/
theorem Segment.alone (h : Segment piece rest) : Segment piece [] := by
  have hnone : ∀ {p : Char → Prop}, ∀ c ∈ ([] : List Char).head?, p c := by
    intro p c hc
    cases hc
  cases h with
  | line hbody _ => exact .line hbody hnone
  | string hbody => exact .string hbody
  | comment hbody => exact .comment hbody
  | code hne hrun _ => exact .code hne hrun hnone

/-- Code has none of the three delimiters in it. -/
theorem Segment.code_of_kind (h : Segment piece rest) (hkind : piece.kind = .unresolved) :
    ∀ c ∈ piece.text, c ≠ '|' ∧ c ≠ '\x22' ∧ c ≠ '\x60' := by
  cases h with
  | line => cases hkind
  | string => cases hkind
  | comment => cases hkind
  | code _ hrun _ => exact hrun

/-- Reading the text from the left comes to a double quote or backquote that is not in what follows
it. -/
def LeftOpen (text : List Char) : Prop :=
  ∃ d rest, Relation.ReflTransGen Past text (d :: rest) ∧ (d = '\x22' ∨ d = '\x60') ∧ d ∉ rest

theorem leftOpen_iff : LeftOpen text ↔ (segments text).unclosed? ≠ none := by
  rw [LeftOpen, Option.ne_none_iff_exists']
  simp only [← unclosed?_segments_iff]
  exact ⟨fun ⟨d, rest, h⟩ => ⟨_, h⟩, fun ⟨u, h⟩ => ⟨u.delimiter, u.rest, h⟩⟩

namespace Scanner

variable {σ : Type} [ByteSource σ] [LawfulByteSource σ] {source : σ} {spacing : Spacing}

/-- A scanner gives the placed segments of its text, if nothing is left open. -/
theorem tokens_segments (h : LawfulByteSource.Stands source [] (encode text))
    (hnone : (segments text).unclosed? = none) :
    (Scanner.start .segments source spacing file base).tokens.1 =
      .ok (place spacing file base (segments text).pieces) := by
  rw [(serves_start h .segments spacing file base).tokens.1, Pass.result, Pass.split, Split.fault?,
    hnone]
  rfl

/-- A scanner gives the placed lexemes of its text. -/
theorem tokens_lexemes (h : LawfulByteSource.Stands source [] (encode text)) :
    (Scanner.start .lexemes source spacing file base).tokens.1 =
      .ok (place spacing file base (lexemes text)) :=
  (serves_start h .lexemes spacing file base).tokens.1

/-- **The first scan cuts a text in the one way that its grammar allows**, if no string or quoted
comment is left open. No code has a delimiter in it, and what a comment or string has in it opens
nothing: a token alone is found as it is. -/
theorem start_segments_cut (text : List Char) (file : String) (base : Nat)
    (h : ¬ LeftOpen text) :
    ∃ tokens,
      (Scanner.start .segments (TextSource.ofText text) .keep file base).tokens.1 = .ok tokens ∧
      (∀ others, Cut Segment file base text others ↔ others = tokens) ∧
      (∀ t ∈ tokens, t.kind = .unresolved →
        ∀ c ∈ t.text.toList, c ≠ '|' ∧ c ≠ '\x22' ∧ c ≠ '\x60') ∧
      ∀ t ∈ tokens, (Scanner.start .segments (TextSource.ofText t.text.toList) .keep file
        t.span.start.offset).tokens.1 = .ok [t] := by
  have hnone : (segments text).unclosed? = none := not_not.mp (leftOpen_iff.not.mp h)
  have hcut : Cut Segment file base text (place .keep file base (segments text).pieces) :=
    cut_segment_iff.mpr ⟨hnone, rfl⟩
  refine ⟨_, tokens_segments (TextSource.stands_ofText text) hnone, fun others => ?_, ?_, ?_⟩
  · exact cut_segment_iff.trans ((and_iff_right hnone).trans eq_comm)
  · intro t ht hkind c hc
    obtain ⟨piece, rest, offset, hpiece, rfl⟩ := hcut.exists_of_mem ht
    rw [String.toList_ofList] at hc
    cases hpiece with
    | line => cases hkind
    | string => cases hkind
    | comment => cases hkind
    | code _ hrun _ => exact hrun c hc
  · intro t ht
    obtain ⟨piece, rest, offset, hpiece, rfl⟩ := hcut.exists_of_mem ht
    have hself : Cut Segment file offset (piece.text ++ [])
        [⟨piece.kind, String.ofList piece.text, ⟨offset, file⟩,
          ⟨offset + byteLength piece.text, file⟩⟩] := .cons hpiece.alone (.nil _)
    rw [List.append_nil, cut_segment_iff] at hself
    rw [String.toList_ofList, tokens_segments (TextSource.stands_ofText _) hself.1, hself.2]

theorem start_segments_cut_nested :
    let text := "A | its \"\n\"b|\x60c\" \x60\"d|\x60".toList
    ¬ LeftOpen text ∧ Cut Segment "shell" 0 text
      [⟨.unresolved, "A ", ⟨0, "shell"⟩, ⟨2, "shell"⟩⟩,
        ⟨.comment, "| its \"", ⟨2, "shell"⟩, ⟨9, "shell"⟩⟩,
        ⟨.unresolved, "\n", ⟨9, "shell"⟩, ⟨10, "shell"⟩⟩,
        ⟨.string, "\"b|\x60c\"", ⟨10, "shell"⟩, ⟨16, "shell"⟩⟩,
        ⟨.unresolved, " ", ⟨16, "shell"⟩, ⟨17, "shell"⟩⟩,
        ⟨.comment, "\x60\"d|\x60", ⟨17, "shell"⟩, ⟨22, "shell"⟩⟩] := by
  intro text
  have hclosed : ¬ LeftOpen text := leftOpen_iff.not.mpr (not_not.mpr (by decide +kernel))
  obtain ⟨tokens, htokens, hcut, -⟩ := start_segments_cut text "shell" 0 hclosed
  refine ⟨hclosed, (hcut _).mpr (Except.ok.inj (Eq.trans ?_ htokens))⟩
  exact (Lexer.eq_ok_of_toOption_eq_some (by decide +kernel)).symm

/-- **The second scan cuts a text in the one way that its grammar allows.** -/
theorem start_lexemes_cut (text : List Char) (file : String) (base : Nat) :
    ∃ tokens,
      (Scanner.start .lexemes (TextSource.ofText text) .keep file base).tokens.1 = .ok tokens ∧
      ∀ others, Cut Lexeme file base text others ↔ others = tokens :=
  ⟨_, tokens_lexemes (TextSource.stands_ofText text), fun _ => cut_lexeme_iff.trans eq_comm⟩

end Scanner

end Scan

/-- The lexer makes of a segment of code what the second scan finds in its text. -/
theorem Lexer.refine_eq_scanner (lexer : Lexer) (segment : Token)
    (h : ¬ segment.isResolved = true) :
    lexer.refine segment =
      (Scan.Scanner.start .lexemes (TextSource.ofText segment.text.toList) lexer.spacing
        segment.span.start.file segment.span.start.offset).tokens.1 >>= fun parts =>
      if parts.isEmpty then .ok [segment] else parts.mapM (checkFit segment) := by
  rw [Scan.Scanner.tokens_lexemes (TextSource.stands_ofText _), refine, if_neg h]
  rfl

end LayoutLex
