import LayoutLex.Catalogue.Wildcard
import LayoutLex.Proofs.Number.Patterns
import Mathlib.Data.List.Forall2

/-!
# What wildcards match

A name matches a pattern if it can be cut into one piece for each character of the pattern, put into
uppercase, such that each piece is one that its character stands for. With several `-` there are
many ways to cut a name, and one of them has to be found if there is any. The matcher tries none of
them: it goes through the pattern from its end and keeps a row that says of every suffix of the name
whether the pattern so far matches it.

* `StandsFor` is what the characters of a pattern stand for.
* `translate` is the regular expression that a pattern is a way to write, `Recognizes` what it is
  for one to match the texts of a language, and `patternLanguage` the language of a pattern.
* `Tabulates` is what is true of a row.

Results:
* `matches_any_iff`, `matches_many_iff`, `matches_exactly_iff`: matching from the first character.
* `tabulates_row`: one more item of the pattern keeps what is true of a row.
* `covers_iff`: the matcher finds a cut exactly if there is one.
* `recognizes_translate_iff`: the regular expression for a pattern has the language of its items.
* `matching_iff`: the names that a pattern asks for.
-/

namespace LayoutLex.Catalogue

open Text
open scoped Computability

variable {item : Item} {parts : List Item} {text cs : List Char} {c d : Char}

/-! ## Matching from the first character on -/

theorem matches_nil_iff : Matches [] text ↔ text = [] := by
  constructor
  · intro h
    cases h
    rfl
  · rintro rfl
    exact .nil

theorem matches_cons_iff : Matches (item :: parts) text ↔
    ∃ piece rest, text = piece ++ rest ∧ item.Takes piece ∧ Matches parts rest := by
  constructor
  · intro h
    cases h with
    | cons takes others => exact ⟨_, _, rfl, takes, others⟩
  · rintro ⟨piece, rest, rfl, takes, others⟩
    exact .cons takes others

/-- No item stands for nothing. -/
theorem Item.ne_nil_of_takes {piece : List Char} (h : item.Takes piece) : piece ≠ [] := by
  cases item with
  | any =>
    obtain ⟨c, rfl, -⟩ := h
    exact List.cons_ne_nil c []
  | many => exact h.1
  | exactly d =>
    rintro rfl
    cases h

theorem not_matches_nil : ¬ Matches (item :: parts) [] := by
  rw [matches_cons_iff]
  rintro ⟨piece, rest, hsplit, htakes, -⟩
  exact Item.ne_nil_of_takes htakes (List.append_eq_nil_iff.mp hsplit.symm).1

theorem matches_any_iff :
    Matches (.any :: parts) (c :: cs) ↔ c ≠ '\n' ∧ Matches parts cs := by
  rw [matches_cons_iff]
  constructor
  · rintro ⟨_, rest, hsplit, ⟨d, rfl, hd⟩, hrest⟩
    cases hsplit
    exact ⟨hd, hrest⟩
  · rintro ⟨hc, hcs⟩
    exact ⟨[c], cs, rfl, ⟨c, rfl, hc⟩, hcs⟩

theorem matches_exactly_iff :
    Matches (.exactly d :: parts) (c :: cs) ↔ c = d ∧ Matches parts cs := by
  rw [matches_cons_iff]
  constructor
  · rintro ⟨_, rest, hsplit, rfl, hrest⟩
    cases hsplit
    exact ⟨rfl, hrest⟩
  · rintro ⟨rfl, hcs⟩
    exact ⟨[c], cs, rfl, rfl, hcs⟩

/-- **A piece of one or more characters** ends after its first or goes on from there. -/
theorem matches_many_iff : Matches (.many :: parts) (c :: cs) ↔
    c ≠ '\n' ∧ (Matches parts cs ∨ Matches (.many :: parts) cs) := by
  rw [matches_cons_iff, matches_cons_iff]
  constructor
  · rintro ⟨piece, rest, hsplit, ⟨hne, hpiece⟩, hrest⟩
    cases piece with
    | nil => exact absurd rfl hne
    | cons d piece =>
      cases hsplit
      obtain ⟨hc, hpiece⟩ := List.forall_mem_cons.mp hpiece
      cases piece with
      | nil => exact ⟨hc, .inl hrest⟩
      | cons e piece =>
        exact ⟨hc, .inr ⟨e :: piece, rest, rfl, ⟨List.cons_ne_nil e piece, hpiece⟩, hrest⟩⟩
  · rintro ⟨hc, hcs | ⟨piece, rest, rfl, ⟨-, hpiece⟩, hrest⟩⟩
    · exact ⟨[c], cs, rfl, ⟨List.cons_ne_nil c [], by simpa using hc⟩, hcs⟩
    · exact ⟨c :: piece, rest, rfl,
        ⟨List.cons_ne_nil c piece, List.forall_mem_cons.mpr ⟨hc, hpiece⟩⟩, hrest⟩

/-! ## Rows -/

/-- The row says of each suffix of the text, the longest first, whether the items match it. -/
inductive Tabulates (parts : List Item) : List Char → List Bool → Prop
  | nil {here : Bool} (hhere : here = true ↔ Matches parts []) : Tabulates parts [] [here]
  | cons {c : Char} {cs : List Char} {here : Bool} {row : List Bool}
      (hhere : here = true ↔ Matches parts (c :: cs)) (hrow : Tabulates parts cs row) :
      Tabulates parts (c :: cs) (here :: row)

theorem Tabulates.headD_iff {row : List Bool} (h : Tabulates parts text row) :
    row.headD false = true ↔ Matches parts text := by
  cases h with
  | nil hhere => exact hhere
  | cons hhere _ => exact hhere

/-- Without items only the empty suffix is matched. -/
theorem tabulates_finished (text : List Char) :
    Tabulates [] text (List.replicate text.length false ++ [true]) := by
  induction text with
  | nil => exact .nil (by simp [matches_nil_iff])
  | cons c cs ih => exact .cons (by simp [matches_nil_iff]) ih

/-- **One more item keeps what is true of a row.** -/
theorem tabulates_row {following : List Bool} (h : Tabulates parts text following) :
    Tabulates (item :: parts) text (item.row text following) := by
  induction h with
  | nil _ => exact .nil (by simp [not_matches_nil])
  | @cons c cs here row hhere hrow ih =>
    refine .cons ?_ ih
    have hafter := hrow.headD_iff
    cases item with
    | any => simp [matches_any_iff, ← hafter]
    | many => simp [matches_many_iff, ← hafter, ← ih.headD_iff]
    | exactly d => simp [matches_exactly_iff, ← hafter]

/-- **The matcher finds a cut exactly if there is one.** -/
theorem covers_iff : covers parts text = true ↔ Matches parts text := by
  have h : Tabulates parts text (parts.foldr (fun item following => item.row text following)
      (List.replicate text.length false ++ [true])) := by
    induction parts with
    | nil => exact tabulates_finished text
    | cons item parts ih => exact tabulates_row ih
  exact h.headD_iff

/-! ## Regular expressions -/

/-- The character has a meaning of its own in a regular expression, unless a backslash is before
it. -/
def isMeta (c : Char) : Bool :=
  "\\.+*?()|[]\x7b\x7d^$#&-~".toList.contains c

/-- What a character of a pattern in uppercase becomes in a regular expression. -/
def translateChar (c : Char) : List Char :=
  if c = '*' then ['.']
  else if c = '-' then ['.', '+']
  else if isMeta c then ['\\', c]
  else [c]

/-- The regular expression that a pattern is a way to write. -/
def translate (pattern : String) : List Char :=
  '^' :: ((uppercase pattern.toList).flatMap translateChar ++ ['$'])

/-- One character of a line, `.`. -/
def lineLanguage : Language Char :=
  classLanguage (· ≠ '\n')

/-- The language of a regular expression in which there are single characters, some of them after a
backslash, and `.` and `.+`. -/
inductive Expresses : List Char → Language Char → Prop
  | nil : Expresses [] 1
  | line {rest : List Char} {l : Language Char} (hrest : Expresses rest l) :
      Expresses ('.' :: rest) (lineLanguage * l)
  | lines {rest : List Char} {l : Language Char} (hrest : Expresses rest l) :
      Expresses ('.' :: '+' :: rest) (lineLanguage * lineLanguage∗ * l)
  | escaped {c : Char} {rest : List Char} {l : Language Char} (hc : isMeta c = true)
      (hrest : Expresses rest l) : Expresses ('\\' :: c :: rest) ({[c]} * l)
  | plain {c : Char} {rest : List Char} {l : Language Char} (hc : isMeta c = false)
      (hrest : Expresses rest l) : Expresses (c :: rest) ({[c]} * l)

/-- The regular expression matches the texts of the language and no part of any other text: its
anchors stand for the ends of the text. -/
def Recognizes (expression : List Char) (l : Language Char) : Prop :=
  ∃ body, expression = '^' :: (body ++ ['$']) ∧ Expresses body l

/-- The language of what an item is in a regular expression: `.`, `.+` or the character itself. -/
def Item.language : Item → Language Char
  | any => lineLanguage
  | many => lineLanguage * lineLanguage∗
  | exactly c => {[c]}

/-- The language of the items of a pattern, one after another. -/
def patternLanguage (pattern : String) : Language Char :=
  ((items pattern.toList).map Item.language).prod

theorem not_expresses_plus {l : Language Char} : ¬ Expresses ('+' :: cs) l := by
  intro h
  cases h with
  | plain hc _ => exact absurd hc (by decide)

/-- **A regular expression has one language.** -/
theorem Expresses.unique {l m : Language Char} (h : Expresses cs l) (h' : Expresses cs m) :
    l = m := by
  induction h generalizing m with
  | nil =>
    cases h'
    rfl
  | line hrest ih =>
    cases h' with
    | line hrest' => rw [ih hrest']
    | lines _ => exact absurd hrest not_expresses_plus
    | plain hc _ => exact absurd hc (by decide)
  | lines _ ih =>
    cases h' with
    | line hrest' => exact absurd hrest' not_expresses_plus
    | lines hrest' => rw [ih hrest']
    | plain hc _ => exact absurd hc (by decide)
  | escaped _ _ ih =>
    cases h' with
    | escaped _ hrest' => rw [ih hrest']
    | plain hc _ => exact absurd hc (by decide)
  | plain hc _ ih =>
    cases h' with
    | line _ | lines _ | escaped _ _ => exact absurd hc (by decide)
    | plain _ hrest' => rw [ih hrest']

/-- The regular expression for a character before another expression. -/
theorem expresses_translateChar {l : Language Char} (c : Char) (h : Expresses cs l) :
    Expresses (translateChar c ++ cs) ((Item.ofChar c).language * l) := by
  unfold translateChar Item.ofChar
  split_ifs with hstar hhyphen hmeta
  · exact .line h
  · exact .lines h
  · exact .escaped hmeta h
  · exact .plain (Bool.eq_false_iff.mpr hmeta) h

theorem expresses_flatMap_translateChar (cs : List Char) :
    Expresses (cs.flatMap translateChar) ((cs.map Item.ofChar).map Item.language).prod := by
  induction cs with
  | nil => exact .nil
  | cons c cs ih =>
    rw [List.flatMap_cons, List.map_cons, List.map_cons, List.prod_cons]
    exact expresses_translateChar c ih

/-- **The regular expression for a pattern** has the language of its items: no character of the
pattern is taken for another part of the expression. -/
theorem recognizes_translate_iff {pattern : String} {l : Language Char} :
    Recognizes (translate pattern) l ↔ l = patternLanguage pattern := by
  have hitems := expresses_flatMap_translateChar (uppercase pattern.toList)
  constructor
  · rintro ⟨body, hbody, hl⟩
    have hbody := List.append_cancel_right (List.cons.inj hbody).2
    rw [← hbody] at hl
    exact hl.unique hitems
  · rintro rfl
    exact ⟨_, rfl, hitems⟩

/-- `.` and `+` stand for themselves in a pattern, but not in a regular expression. -/
example : translate "p.+*-" = "^P\\.\\+..+$".toList := by decide +kernel

theorem Item.mem_language_iff {piece : List Char} : piece ∈ item.language ↔ item.Takes piece := by
  cases item with
  | any => exact exists_congr fun c => and_comm
  | many =>
    refine mem_class_mul_kstar_iff.trans ⟨?_, ?_⟩
    · rintro ⟨c, rest, rfl, hline⟩
      exact ⟨List.cons_ne_nil c rest, List.forall_mem_cons.mpr hline⟩
    · rintro ⟨hne, hline⟩
      obtain ⟨c, rest, rfl⟩ := List.exists_cons_of_ne_nil hne
      exact ⟨c, rest, rfl, List.forall_mem_cons.mp hline⟩
  | exactly d => exact Iff.rfl

theorem mem_prod_language_iff :
    text ∈ (parts.map Item.language).prod ↔ Matches parts text := by
  induction parts generalizing text with
  | nil => rw [List.map_nil, List.prod_nil, Language.mem_one, matches_nil_iff]
  | cons item parts ih =>
    rw [List.map_cons, List.prod_cons, Language.mem_mul, matches_cons_iff]
    constructor
    · rintro ⟨piece, hpiece, rest, hrest, rfl⟩
      exact ⟨piece, rest, rfl, Item.mem_language_iff.mp hpiece, ih.mp hrest⟩
    · rintro ⟨piece, rest, rfl, hpiece, hrest⟩
      exact ⟨piece, Item.mem_language_iff.mpr hpiece, rest, ih.mpr hrest, rfl⟩

/-! ## Pieces -/

/-- What the characters of a pattern stand for. -/
inductive StandsFor : Char → List Char → Prop
  /-- A star stands for one character of a line. -/
  | one {c : Char} (hc : c ≠ '\n') : StandsFor '*' [c]
  /-- A hyphen stands for one or more. -/
  | many {piece : List Char} (hne : piece ≠ []) (hpiece : '\n' ∉ piece) : StandsFor '-' piece
  /-- Any other character stands for itself. -/
  | self {c : Char} (hstar : c ≠ '*') (hhyphen : c ≠ '-') : StandsFor c [c]

/-- The name can be cut into pieces that the characters of the pattern, put into uppercase, stand
for. -/
def Fits (pattern name : String) : Prop :=
  ∃ pieces : List (List Char), pieces.flatten = name.toList ∧
    List.Forall₂ StandsFor (uppercase pattern.toList) pieces

theorem standsFor_iff {piece : List Char} : StandsFor c piece ↔ (Item.ofChar c).Takes piece := by
  constructor
  · intro h
    cases h with
    | one hc => exact ⟨_, rfl, hc⟩
    | many hne hpiece => exact ⟨hne, fun d hd heq => hpiece (heq ▸ hd)⟩
    | self hstar hhyphen =>
      rw [Item.ofChar, if_neg hstar, if_neg hhyphen]
      rfl
  · intro h
    unfold Item.ofChar at h
    split at h
    · next hstar =>
      obtain ⟨d, rfl, hd⟩ := h
      exact hstar ▸ .one hd
    split at h
    · next hhyphen => exact hhyphen ▸ .many h.1 fun hmem => h.2 _ hmem rfl
    · next hstar hhyphen =>
      cases h
      exact .self hstar hhyphen

/-- Matching items is being cut into one piece for each of them. -/
theorem matches_iff_exists_pieces : Matches parts text ↔
    ∃ pieces : List (List Char), pieces.flatten = text ∧
      List.Forall₂ Item.Takes parts pieces := by
  constructor
  · intro h
    induction h with
    | nil => exact ⟨[], rfl, .nil⟩
    | cons takes _ ih =>
      obtain ⟨pieces, rfl, hpieces⟩ := ih
      exact ⟨_ :: pieces, List.flatten_cons, .cons takes hpieces⟩
  · rintro ⟨pieces, rfl, hpieces⟩
    induction hpieces with
    | nil => exact .nil
    | cons takes _ ih => exact .cons takes ih

theorem fits_iff {pattern name : String} :
    Fits pattern name ↔ Matches (items pattern.toList) name.toList := by
  rw [matches_iff_exists_pieces, items]
  simp only [List.forall₂_map_left_iff, ← standsFor_iff]
  rfl

theorem mem_matching_iff {pattern name : String} {names : NameSet} :
    name ∈ matching pattern names ↔ name ∈ names ∧ (pattern = "" ∨ Fits pattern name) := by
  unfold matching
  split
  · next hempty =>
    have hpattern : pattern = "" := by simpa using hempty
    simp [hpattern]
  · next hne =>
    have hpattern : pattern ≠ "" := by simpa using hne
    rw [NameSet.mem_filter, patternMatches, covers_iff, fits_iff, or_iff_right hpattern]

/-- **The names that a pattern asks for.** The regular expression for a pattern has the language of
its items. A pattern matches a name exactly if the name is in that language, and exactly if the name
can be cut into pieces that the characters of the pattern stand for. The functions and the commands
of a catalogue that a pattern asks for are those of them that it matches, and all of them if it is
empty. -/
theorem matching_iff (pattern : String) :
    (∀ l, Recognizes (translate pattern) l ↔ l = patternLanguage pattern) ∧
    (∀ name, (patternMatches pattern name = true ↔ name.toList ∈ patternLanguage pattern) ∧
      (patternMatches pattern name = true ↔ Fits pattern name)) ∧
    ∀ c : Catalogue,
      (∀ name, name ∈ c.functionsMatching pattern ↔
        c.isFunction name = true ∧ (pattern = "" ∨ Fits pattern name)) ∧
      ∀ name, name ∈ c.commandsMatching pattern ↔
        c.isCommand name = true ∧ (pattern = "" ∨ Fits pattern name) := by
  refine ⟨fun l => recognizes_translate_iff, fun name => ⟨?_, ?_⟩,
    fun c => ⟨fun name => ?_, fun name => ?_⟩⟩
  · rw [patternMatches, covers_iff, patternLanguage, mem_prod_language_iff]
  · rw [patternMatches, covers_iff, fits_iff]
  · rw [functionsMatching, mem_matching_iff, isFunction, decide_eq_true_iff]
  · rw [commandsMatching, mem_matching_iff, isCommand, decide_eq_true_iff]

/-- A hyphen leaves over what comes after it, and `ß` is two characters in uppercase. -/
example : patternMatches "a-b-ß" "A1BB2BSS" = true := by decide +kernel

end LayoutLex.Catalogue
