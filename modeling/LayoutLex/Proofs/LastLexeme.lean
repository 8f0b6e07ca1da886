import LayoutLex.Proofs.Spacing

/-!
# The lexeme before white space

White space that is added to a text ends its last lexeme. All lexemes stay as they are but the last,
and that one changes only if it is a delimiter: at the end of its text its kind is open, and now a
character follows that decides it (`settle`). White space that does not separate words may join the
last lexeme; once blanks are dropped that makes no difference.

Results:
* `words_lexemes_append_space`: the words of a text that goes on after a separator.
* `place_lexemes_append_blanks`: the tokens of a text with blanks after it, once blanks are dropped.
* `settles_place`: what settling the last lexeme does to the tokens.
-/

namespace LayoutLex

open Text Scan

/-! ## Words -/

/-- The tokens that are no runs of separators. -/
def wordsOf (tokens : List Token) : List Token :=
  tokens.filter (·.kind != .spaces)

@[simp]
theorem wordsOf_append (as bs : List Token) : wordsOf (as ++ bs) = wordsOf as ++ wordsOf bs :=
  List.filter_append as bs

namespace Scan

variable {spacing : Spacing} {file : String} {start : Nat}
variable {b c d : Char} {ds : List Char}

theorem wordsOf_token?_spaces (text : List Char) :
    wordsOf ((⟨.spaces, text⟩ : Piece).token? spacing file start).toList = [] := by
  cases htoken : (⟨.spaces, text⟩ : Piece).token? spacing file start with
  | none => rfl
  | some t => simp [wordsOf, kind_of_token? htoken]

/-- A separator in front of a text moves its words. -/
theorem words_lexemes_cons_space (hc : isSpace c = true) (cs : List Char) :
    wordsOf (place spacing file start (lexemes (c :: cs))) =
      wordsOf (place spacing file (start + c.utf8Size) (lexemes cs)) := by
  have hrun : wordsOf (place spacing file start (lexemes (c :: cs))) =
      wordsOf (place spacing file (start + c.utf8Size + byteLength (cs.takeWhile isSpace))
        (lexemes (cs.dropWhile isSpace))) := by
    rw [lexemes_cons, lexeme_of_space hc, place_cons, wordsOf_append, wordsOf_token?_spaces,
      List.nil_append, byteLength_cons, Nat.add_assoc]
  rw [hrun]
  cases cs with
  | nil => rfl
  | cons d ds =>
    by_cases hd : isSpace d = true
    · rw [lexemes_cons d, lexeme_of_space hd, place_cons, wordsOf_append, wordsOf_token?_spaces,
        List.nil_append, List.takeWhile_cons_of_pos hd, List.dropWhile_cons_of_pos hd]
    · rw [List.takeWhile_cons_of_neg hd, List.dropWhile_cons_of_neg hd]
      rfl

/-- Separators in front of a text move its words. -/
theorem words_lexemes_separators {run : List Char} (hrun : ∀ c ∈ run, isSpace c = true)
    (cs : List Char) :
    wordsOf (place spacing file start (lexemes (run ++ cs))) =
      wordsOf (place spacing file (start + byteLength run) (lexemes cs)) := by
  induction run generalizing start with
  | nil => rfl
  | cons c run ih =>
    rw [List.cons_append, words_lexemes_cons_space (hrun c List.mem_cons_self),
      ih fun d hd => hrun d (List.mem_cons_of_mem c hd), byteLength_cons, Nat.add_assoc]

/-! ## The last lexeme -/

/-- The piece with the kind it has before the character, if it is a delimiter that nothing has
followed yet. -/
def Piece.before (next : Char) (piece : Piece) : Piece :=
  match piece.text with
  | [c] => if isDelimiter c then ⟨delimiterKind c next, [c]⟩ else piece
  | _ => piece

theorem text_before (next : Char) (piece : Piece) : (piece.before next).text = piece.text := by
  unfold Piece.before
  split
  · next c htext =>
    split
    · exact htext.symm
    · rfl
  · rfl

theorem text_lexeme (hlast : (lexeme d ds).2 = []) : (lexeme d ds).1.text = d :: ds := by
  have happend := lexeme_append d ds
  rwa [hlast, List.append_nil] at happend

/-- Only a lone delimiter waits for what comes after it. -/
theorem before_lexeme (hlast : (lexeme d ds).2 = []) (hd : ds = [] → isDelimiter d = false)
    (next : Char) : (lexeme d ds).1.before next = (lexeme d ds).1 := by
  unfold Piece.before
  split
  · next c htext =>
    rw [text_lexeme hlast] at htext
    cases htext
    rw [if_neg (by simp [hd rfl])]
  · rfl

/-- No character that a blank could go on is a blank. -/
theorem classes_of_isBlank (h : isBlank c = true) :
    isNameStart c = false ∧ isNameChar c = false ∧ isNumberStart c = false ∧
      isNumberChar c = false := by
  have hne : ∀ {p : Bool}, (p = true → isBlank c = false) → p = false := by
    intro p hp
    rw [← Bool.not_eq_true]
    intro htrue
    rw [hp htrue] at h
    cases h
  exact ⟨hne not_isBlank_of_isNameStart, hne not_isBlank_of_isNameChar,
    hne not_isBlank_of_isNumberStart, hne not_isBlank_of_isNumberChar⟩

theorem not_mem_pairs_of_isBlank (h : isBlank b = true) (c : Char) :
    pairs.contains (c, b) = false := by
  have hall : ∀ pair ∈ pairs, isBlank pair.2 = false := by decide
  rw [← Bool.not_eq_true]
  intro hpair
  rw [hall _ (List.contains_iff_mem.mp hpair)] at h
  cases h

theorem delimiter_append_blank (hb : isBlank b = true) (hd : isDelimiter d = true)
    (hlast : (delimiter d ds).2 = []) (tail : List Char) :
    delimiter d (ds ++ b :: tail) = ((delimiter d ds).1.before b, b :: tail) := by
  cases ds with
  | nil =>
    have hpair := not_mem_pairs_of_isBlank hb d
    have hbefore : (delimiter d []).1.before b = ⟨delimiterKind d b, [d]⟩ := if_pos hd
    rw [hbefore, List.nil_append, delimiter, hpair]
    rfl
  | cons c ds =>
    rw [delimiter] at hlast ⊢
    split at hlast
    · next hpair =>
      rw [show ds = [] from hlast, List.singleton_append, delimiter, if_pos hpair, if_pos hpair]
      rfl
    · cases hlast

theorem startsNumber_append_blank (hb : isBlank b = true) (hd : isDelimiter d = true)
    (hnumber : startsNumber d ds = false) (tail : List Char) :
    startsNumber d (ds ++ b :: tail) = false := by
  cases ds with
  | nil =>
    simp [startsNumber, (classes_of_isDelimiter hd).2.2, (classes_of_isBlank hb).2.2.1]
  | cons c ds => exact hnumber

/-- **A blank ends the last lexeme of a text**, unless that is a run of separators or of characters
without meaning. -/
theorem lexeme_append_blank (hb : isBlank b = true) (hspace : isSpace d = false)
    (hother : isOther d = false) (hlast : (lexeme d ds).2 = []) (tail : List Char) :
    lexeme d (ds ++ b :: tail) = ((lexeme d ds).1.before b, b :: tail) := by
  obtain ⟨-, hnameChar, -, hnumberChar⟩ := classes_of_isBlank hb
  rcases firstCharacter_cases d ds with
    hd | hd | ⟨-, hname, hd⟩ | ⟨-, hname, hnumber, hd⟩ | hd
  · rw [hspace] at hd
    cases hd
  · rw [before_lexeme hlast fun _ => not_isDelimiter_of_isNameStart hd]
    rw [lexeme_of_nameStart hd] at hlast ⊢
    have hrun : ds.takeWhile isNameChar = ds := takeWhile_of_dropWhile_eq_nil hlast
    have hall : ∀ c ∈ ds, isNameChar c = true := fun c hc => mem_takeWhile (hrun ▸ hc)
    rw [lexeme_of_nameStart hd, takeWhile_append_of_stops hall (stops_cons.mpr hnameChar),
      dropWhile_append_of_stops hall (stops_cons.mpr hnameChar), hrun]
  · have hlone : ds = [] → isDelimiter d = false := by
      rintro rfl
      rw [← Bool.not_eq_true]
      intro hdelimiter
      simp [startsNumber, (classes_of_isDelimiter hdelimiter).2.2] at hd
    rw [before_lexeme hlast hlone]
    rw [lexeme_of_number hspace hname hd] at hlast ⊢
    have hdrop : ds.drop (numberTail d ds).length = [] := hlast
    have htail : numberTail d ds = ds := by
      have happend := numberTail_append_drop d ds
      rwa [hdrop, List.append_nil] at happend
    rw [lexeme_of_number hspace hname (startsNumber_append_of_startsNumber hd (b :: tail)),
      numberTail_append htail (stops_cons.mpr hnumberChar), htail, List.drop_left]
  · rw [lexeme_of_delimiter hspace hname hnumber hd] at hlast ⊢
    rw [lexeme_of_delimiter hspace hname (startsNumber_append_blank hb hd hnumber tail) hd,
      delimiter_append_blank hb hd hlast]
  · rw [hother] at hd
    cases hd

theorem kind_lexeme_of_isOther (hd : isOther d = true) : (lexeme d ds).1.kind = .unresolved := by
  rw [lexeme_of_other hd]
  exact kind_other d ds

/-- A separator ends a last lexeme of characters without meaning. -/
theorem other_append_space (hb : isSpace b = true) (hlast : (other d ds).2 = [])
    (tail : List Char) : other d (ds ++ b :: tail) = ((other d ds).1, b :: tail) := by
  obtain ⟨hnameStart, hnameChar, -, -⟩ := classes_of_isBlank (isBlank_of_isSpace hb)
  have hother : isOther b = false := by simp [isOther, hb]
  cases hdrop : ds.dropWhile isOther with
  | nil =>
    have hrun : ds.takeWhile isOther = ds := takeWhile_of_dropWhile_eq_nil hdrop
    have hall : ∀ c ∈ ds, isOther c = true := fun c hc => mem_takeWhile (hrun ▸ hc)
    simp only [other, takeWhile_append_of_stops hall (stops_cons.mpr hother),
      dropWhile_append_of_stops hall (stops_cons.mpr hother), hdrop, hrun, hnameStart,
      Bool.false_eq_true, if_false]
  | cons c rest =>
    have hne : ds.dropWhile isOther ≠ [] := by simp [hdrop]
    simp only [other, hdrop] at hlast
    simp only [other, takeWhile_append_of_ne_nil hne, dropWhile_append_of_ne_nil hne, hdrop,
      List.cons_append]
    split at hlast
    · next hc =>
      have hrun : rest.takeWhile isNameChar = rest := takeWhile_of_dropWhile_eq_nil hlast
      have hall : ∀ c ∈ rest, isNameChar c = true := fun c hc => mem_takeWhile (hrun ▸ hc)
      simp only [if_pos hc, takeWhile_append_of_stops hall (stops_cons.mpr hnameChar),
        dropWhile_append_of_stops hall (stops_cons.mpr hnameChar), hrun]
    · cases hlast

theorem not_isDelimiter_of_isOther (h : isOther c = true) : isDelimiter c = false :=
  (isOther_iff.mp h).2.2.2

/-- **A separator ends the last lexeme of a text**, unless that is a run of separators. -/
theorem lexeme_append_space (hb : isSpace b = true) (hspace : isSpace d = false)
    (hlast : (lexeme d ds).2 = []) (tail : List Char) :
    lexeme d (ds ++ b :: tail) = ((lexeme d ds).1.before b, b :: tail) := by
  cases hother : isOther d with
  | false => exact lexeme_append_blank (isBlank_of_isSpace hb) hspace hother hlast tail
  | true =>
    rw [before_lexeme hlast fun _ => not_isDelimiter_of_isOther hother]
    rw [lexeme_of_other hother] at hlast ⊢
    rw [lexeme_of_other hother, other_append_space hb hlast]

/-- A blank gives the last lexeme its kind, whether it ends it or joins it. -/
theorem kind_lexeme_append_blank (hb : isBlank b = true) (hlast : (lexeme d ds).2 = [])
    (tail : List Char) :
    (lexeme d (ds ++ b :: tail)).1.kind = ((lexeme d ds).1.before b).kind := by
  cases hspace : isSpace d with
  | true =>
    rw [before_lexeme hlast fun _ => not_isDelimiter_of_isSpace hspace, lexeme_of_space hspace,
      lexeme_of_space hspace]
  | false =>
    cases hother : isOther d with
    | false => rw [lexeme_append_blank hb hspace hother hlast]
    | true =>
      rw [before_lexeme hlast fun _ => not_isDelimiter_of_isOther hother,
        kind_lexeme_of_isOther hother, kind_lexeme_of_isOther hother]

/-! ## Settling the last lexeme -/

/-- The lexemes of a text when the text goes on with the character. -/
def settle (next : Char) : List Piece → List Piece
  | [] => []
  | [piece] => [piece.before next]
  | piece :: more :: rest => piece :: settle next (more :: rest)

theorem settle_lexemes_cons (next : Char) (d : Char) (ds : List Char) :
    settle next ((lexeme d ds).1 :: lexemes (lexeme d ds).2) =
      if (lexeme d ds).2 = [] then [(lexeme d ds).1.before next]
      else (lexeme d ds).1 :: settle next (lexemes (lexeme d ds).2) := by
  cases hrest : (lexeme d ds).2 with
  | nil =>
    rw [if_pos rfl, lexemes]
    rfl
  | cons c cs =>
    rw [if_neg (List.cons_ne_nil c cs), lexemes_cons]
    rfl

theorem byteLength_lexeme (d : Char) (ds : List Char) :
    byteLength (d :: ds) = byteLength (lexeme d ds).1.text + byteLength (lexeme d ds).2 := by
  rw [← byteLength_append, lexeme_append]

/-- **A separator ends a text**: the words before it are those of the text on its own, with the last
one settled, and the words after it are as if they stood alone. -/
theorem words_lexemes_append_space (hb : isSpace b = true) (cs tail : List Char) :
    wordsOf (place spacing file start (lexemes (cs ++ b :: tail))) =
      wordsOf (place spacing file start (settle b (lexemes cs))) ++
        wordsOf (place spacing file (start + byteLength cs + b.utf8Size) (lexemes tail)) := by
  fun_induction lexemes cs generalizing start with
  | case1 => exact words_lexemes_cons_space hb tail
  | case2 d ds ih =>
    rw [settle_lexemes_cons]
    by_cases hlast : (lexeme d ds).2 = []
    · rw [if_pos hlast]
      cases hspace : isSpace d with
      | true =>
        have hrun : ∀ c ∈ d :: ds, isSpace c = true := by
          rw [lexeme_of_space hspace] at hlast
          have hall : ds.takeWhile isSpace = ds := takeWhile_of_dropWhile_eq_nil hlast
          exact List.forall_mem_cons.mpr ⟨hspace, fun c hc => mem_takeWhile (hall ▸ hc)⟩
        rw [words_lexemes_separators hrun, words_lexemes_cons_space hb,
          before_lexeme hlast fun _ => not_isDelimiter_of_isSpace hspace, lexeme_of_space hspace,
          place_cons, wordsOf_append, wordsOf_token?_spaces]
        rfl
      | false =>
        rw [List.cons_append, lexemes_cons, lexeme_append_space hb hspace hlast, place_cons,
          place_cons, wordsOf_append, wordsOf_append, words_lexemes_cons_space hb, text_before,
          text_lexeme hlast]
        simp [place, wordsOf]
    · rw [if_neg hlast, List.cons_append, lexemes_cons, lexeme_append_of_ne_nil hlast, place_cons,
        place_cons, wordsOf_append, wordsOf_append, ih, byteLength_lexeme, List.append_assoc,
        Nat.add_assoc start]

/-- Blanks after a piece change nothing once blanks are dropped. -/
theorem token?_append_blanks {blanks : List Char} (hblanks : ∀ c ∈ blanks, isBlank c = true)
    (kind : TokenKind) (cs : List Char) :
    (⟨kind, cs ++ blanks⟩ : Piece).token? .drop file start =
      (⟨kind, cs⟩ : Piece).token? .drop file start := by
  induction blanks generalizing cs with
  | nil => rw [List.append_nil]
  | cons c blanks ih =>
    have hc := hblanks c List.mem_cons_self
    rw [← List.singleton_append, ← List.append_assoc,
      ih fun d hd => hblanks d (List.mem_cons_of_mem c hd)]
    unfold Piece.token? Spacing.cut
    by_cases htrim : trim cs = []
    · simp [trim_append hc, htrim]
    · have hne : cs.dropWhile isBlank ≠ [] := by
        intro hnil
        apply htrim
        rw [trim, trimStart, hnil]
        rfl
      simp [trim_append hc, htrim, takeWhile_append_of_ne_nil hne]

theorem place_lexemes_blanks {blanks : List Char} (hblanks : ∀ c ∈ blanks, isBlank c = true) :
    place .drop file start (lexemes blanks) = [] := by
  have hplace : place .drop file start (lexemes (blanks ++ [])) =
      place .drop file (start + byteLength blanks) (lexemes []) := place_lexemes_leading hblanks []
  rwa [List.append_nil, lexemes] at hplace

/-- **Blanks end a text**: once blanks are dropped, the tokens are those of the text on its own,
with the last one settled. -/
theorem place_lexemes_append_blanks (hb : isBlank b = true) {blanks : List Char}
    (hblanks : ∀ c ∈ blanks, isBlank c = true) (cs : List Char) :
    place .drop file start (lexemes (cs ++ b :: blanks)) =
      place .drop file start (settle b (lexemes cs)) := by
  have hall : ∀ c ∈ b :: blanks, isBlank c = true := List.forall_mem_cons.mpr ⟨hb, hblanks⟩
  fun_induction lexemes cs generalizing start with
  | case1 => exact place_lexemes_blanks hall
  | case2 d ds ih =>
    rw [settle_lexemes_cons]
    by_cases hlast : (lexeme d ds).2 = []
    · rw [if_pos hlast, List.cons_append, lexemes_cons]
      -- The last lexeme takes some of the blanks, and the others stand alone.
      obtain ⟨taken, htaken⟩ := suffix_lexeme_append hlast (b :: blanks)
      have hrest : ∀ c ∈ (lexeme d (ds ++ b :: blanks)).2, isBlank c = true := fun c hc =>
        hall c (htaken ▸ List.mem_append_right taken hc)
      have htext : (lexeme d (ds ++ b :: blanks)).1.text = (lexeme d ds).1.text ++ taken := by
        have hsplit : d :: (ds ++ b :: blanks) =
            d :: ds ++ taken ++ (lexeme d (ds ++ b :: blanks)).2 := by
          rw [List.append_assoc, htaken, List.cons_append]
        rw [text_lexeme hlast]
        exact List.append_cancel_right ((lexeme_append d (ds ++ b :: blanks)).trans hsplit)
      have hpiece : (lexeme d (ds ++ b :: blanks)).1 =
          ⟨((lexeme d ds).1.before b).kind, ((lexeme d ds).1.before b).text ++ taken⟩ := by
        rw [← kind_lexeme_append_blank hb hlast blanks, text_before, ← htext]
      rw [place_cons, place_cons, place_lexemes_blanks hrest, hpiece,
        token?_append_blanks fun c hc => hall c (htaken ▸ List.mem_append_left _ hc)]
      rfl
    · rw [if_neg hlast, List.cons_append, lexemes_cons, lexeme_append_of_ne_nil hlast, place_cons,
        place_cons, ih]

/-- The tokens `found` are the tokens `own`, or the last of these is a delimiter which has no kind
of its own there but the one that it has before the character. -/
inductive Settles (next : Char) (stop : Nat) : List Token → List Token → Prop
  | same (own : List Token) : Settles next stop own own
  | last {c : Char} {t : Token} (own : List Token) (hc : isDelimiter c = true)
      (hkind : t.kind = .unresolved) (htext : t.text = String.singleton c)
      (hstop : t.span.stop.offset = stop) :
      Settles next stop (own ++ [t]) (own ++ [{ t with kind := delimiterKind c next }])

theorem Settles.append {next : Char} {stop : Nat} {own found : List Token}
    (h : Settles next stop own found) (before : List Token) :
    Settles next stop (before ++ own) (before ++ found) := by
  cases h with
  | same => exact .same _
  | last own hc hkind htext hstop =>
    rw [← List.append_assoc, ← List.append_assoc]
    exact .last _ hc hkind htext hstop

theorem delimiterKind_ne_spaces (c next : Char) : delimiterKind c next ≠ .spaces := by
  unfold delimiterKind
  split
  · decide
  split
  · split <;> decide
  split <;> decide

theorem lexeme_singleton (hd : isDelimiter d = true) :
    lexeme d [] = (⟨.unresolved, [d]⟩, []) := by
  obtain ⟨hspace, hname, hnumber⟩ := classes_of_isDelimiter hd
  rw [lexeme_of_delimiter hspace hname (by simp [startsNumber, hnumber]) hd, delimiter]

/-- A delimiter by itself is a token in either spacing. -/
theorem token?_delimiter (hd : isDelimiter d = true) (kind : TokenKind) :
    (⟨kind, [d]⟩ : Piece).token? spacing file start =
      some ⟨kind, String.singleton d, ⟨start, file⟩, ⟨start + byteLength [d], file⟩⟩ := by
  have hblank : ∀ c ∈ [d], isBlank c = false := by simpa using not_isBlank_of_isDelimiter hd
  exact token?_of_cut (List.cons_ne_nil d []) (Spacing.cut_of_not_isBlank hblank spacing) kind

/-- **Settling a text changes the kind of its last word at most.** -/
theorem settles_place (next : Char) (cs : List Char) :
    Settles next (start + byteLength cs) (wordsOf (place spacing file start (lexemes cs)))
      (wordsOf (place spacing file start (settle next (lexemes cs)))) := by
  fun_induction lexemes cs generalizing start with
  | case1 => exact .same _
  | case2 d ds ih =>
    rw [settle_lexemes_cons]
    by_cases hlast : (lexeme d ds).2 = []
    · rw [if_pos hlast, hlast, lexemes]
      cases hd : isDelimiter d with
      | false =>
        rw [before_lexeme hlast fun _ => hd]
        exact .same _
      | true =>
        cases ds with
        | nil =>
          have hbefore : (lexeme d []).1.before next = ⟨delimiterKind d next, [d]⟩ := by
            rw [lexeme_singleton hd]
            exact if_pos hd
          have hne : (delimiterKind d next != .spaces) = true :=
            bne_iff_ne.mpr (delimiterKind_ne_spaces d next)
          rw [hbefore, lexeme_singleton hd, place_cons, place_cons, token?_delimiter hd,
            token?_delimiter hd]
          simp only [Option.toList_some, place, List.append_nil, wordsOf, List.filter_cons, hne]
          exact .last [] hd rfl rfl rfl
        | cons c cs =>
          rw [before_lexeme hlast fun h => absurd h (List.cons_ne_nil c cs)]
          exact .same _
    · rw [if_neg hlast, place_cons, place_cons, wordsOf_append, wordsOf_append, byteLength_lexeme,
        ← Nat.add_assoc]
      exact ih.append _

end Scan

end LayoutLex
