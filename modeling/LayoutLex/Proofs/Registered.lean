import LayoutLex.Proofs.Manifest
import LayoutLex.Proofs.Spacing
import LayoutLex.Proofs.Unclosed

/-!
# Registered names are words

What a manifest accepts for a name is what the lexer reads as one word: a name has no delimiter,
space or quote in it, so both scans leave it whole, and it has no blank at its ends. The catalogue
is asked about a word before the language is, so a name gets the kind of its roles even if it is an
operator or a reserved word too.

Results:
* `lexemes_of_isName`: a name is one lexeme.
* `lex_of_isName`: a name is one token, with the kind the catalogue gives it.
* `tokenize_registered`: the token of a name that a manifest registers.
-/

namespace LayoutLex

open Text Scan

/-! ## Names -/

theorem Text.not_isOpener_of_isNameChar {c : Char} (h : isNameChar c = true) :
    isOpener c = false := by
  rw [Bool.eq_false_iff]
  intro hopener
  rcases isOpener_iff.mp hopener with rfl | rfl | rfl
  · exact absurd h (by decide)
  · exact absurd h (by decide)
  · exact absurd h (by decide)

theorem Text.isNameChar_of_isName {name : List Char} (h : isName name = true) :
    ∀ c ∈ name, isNameChar c = true := by
  cases name with
  | nil => exact fun c hc => absurd hc List.not_mem_nil
  | cons c cs =>
    rw [isName, Bool.and_eq_true, List.all_eq_true] at h
    exact List.forall_mem_cons.mpr ⟨isNameChar_of_isNameStart h.1, h.2⟩

/-- A name is one lexeme. -/
theorem Scan.lexemes_of_isName {name : List Char} (h : isName name = true) :
    lexemes name = [⟨.unresolved, name⟩] := by
  cases name with
  | nil => cases h
  | cons c cs =>
    rw [isName, Bool.and_eq_true, List.all_eq_true] at h
    have htake := takeWhile_append_of_stops h.2 stops_nil
    have hdrop := dropWhile_append_of_stops h.2 stops_nil
    rw [List.append_nil] at htake hdrop
    rw [lexemes_cons, lexeme_of_nameStart h.1, htake, hdrop, lexemes]

/-- A piece without blanks is placed whole, whether blanks are kept or not. -/
theorem Scan.place_word {text : List Char} (hne : text ≠ [])
    (hblank : ∀ c ∈ text, isBlank c = false) (spacing : Spacing) (file : String) (start : Nat)
    (kind : TokenKind) :
    place spacing file start [⟨kind, text⟩] =
      [⟨kind, String.ofList text, ⟨start, file⟩, ⟨start + byteLength text, file⟩⟩] :=
  place_of_cut hne (Spacing.cut_of_not_isBlank hblank spacing) kind

namespace Lexer

/-- **A name is one token**, of the kind that the catalogue gives it. -/
theorem lex_of_isName (lexer : Lexer) {name : List Char} (h : isName name = true) (file : String) :
    lexer.lex name file =
      .ok [⟨lexer.catalogue.kindOf (String.ofList name), String.ofList name, ⟨0, file⟩,
        ⟨byteLength name, file⟩⟩] := by
  have hne : name ≠ [] := by
    rintro rfl
    cases h
  have hchars := isNameChar_of_isName h
  have hblank : ∀ c ∈ name, isBlank c = false := fun c hc => not_isBlank_of_isNameChar (hchars c hc)
  have hsegments := segments_of_code fun c hc => not_isOpener_of_isNameChar (hchars c hc)
  rw [if_neg hne] at hsegments
  have hparts : (segmentsOf lexer.spacing file name).flatMap (parts lexer.spacing) =
      [⟨.unresolved, String.ofList name, ⟨0, file⟩, ⟨byteLength name, file⟩⟩] := by
    rw [segmentsOf, hsegments, place_word hne hblank, List.flatMap_singleton, parts,
      if_neg (by simp [Token.isResolved]), String.toList_ofList, lexemes_of_isName h,
      place_word hne hblank, Nat.zero_add]
  rw [lex_eq, hparts, Split.fault?, hsegments]
  rfl

end Lexer

/-! ## Registered names -/

namespace Catalogue

variable {c : Catalogue} {word : String}

theorem kindOf_of_functionOnly (hfunction : word ∈ c.functions) (hcommand : word ∉ c.commands) :
    c.kindOf word = .function := by
  simp [kindOf, isFunctionOnly, isFunction, isCommand, hfunction, hcommand]

theorem kindOf_of_commandOnly (hfunction : word ∉ c.functions) (hcommand : word ∈ c.commands) :
    c.kindOf word = .command := by
  simp [kindOf, isFunctionOnly, isCommandOnly, isFunction, isCommand, hfunction, hcommand]

theorem kindOf_of_both (hfunction : word ∈ c.functions) (hcommand : word ∈ c.commands) :
    c.kindOf word = .both := by
  simp [kindOf, isFunctionOnly, isCommandOnly, isBoth, isFunction, isCommand, hfunction, hcommand]

end Catalogue

namespace Lexer

open Catalogue

/-- **Every name that a manifest registers is a token.** The catalogue of an accepted manifest has
the names that it lists. Such a name alone is lexed as one token over all of it, a function, a
command or both as the manifest lists it, whatever else the name is in the language. -/
theorem tokenize_registered {manifest file : String} {c : Catalogue}
    (h : Catalogue.ofManifest manifest file = .ok c) (name : String) :
    (name ∈ c.symbols ↔ ∃ role, Lists manifest role name) ∧
    ∀ role, Lists manifest role name → ∀ (spacing : Spacing) (file? : Option String),
      ∃ kind,
        tokenize ⟨c, spacing⟩ name file? =
          .ok [⟨kind, name, ⟨0, file?.getD "shell"⟩,
            ⟨byteLength name.toList, file?.getD "shell"⟩⟩] ∧
        ((kind = .function ∧ ListsFunction manifest name ∧ ¬ ListsCommand manifest name) ∨
          (kind = .command ∧ ¬ ListsFunction manifest name ∧ ListsCommand manifest name) ∨
          (kind = .both ∧ ListsFunction manifest name ∧ ListsCommand manifest name)) := by
  refine ⟨mem_symbols_ofManifest h name, fun role hlists spacing file? => ?_⟩
  have hsymbol := (mem_symbols_ofManifest h name).mpr ⟨role, hlists⟩
  have hlex := lex_of_isName ⟨c, spacing⟩ (hasNames_ofManifest h name hsymbol) (file?.getD "shell")
  rw [String.ofList_toList] at hlex
  refine ⟨c.kindOf name, hlex, ?_⟩
  rw [← mem_functions_ofManifest h, ← mem_commands_ofManifest h]
  by_cases hfunction : name ∈ c.functions
  · by_cases hcommand : name ∈ c.commands
    · exact Or.inr (Or.inr ⟨kindOf_of_both hfunction hcommand, hfunction, hcommand⟩)
    · exact Or.inl ⟨kindOf_of_functionOnly hfunction hcommand, hfunction, hcommand⟩
  · by_cases hcommand : name ∈ c.commands
    · exact Or.inr (Or.inl ⟨kindOf_of_commandOnly hfunction hcommand, hfunction, hcommand⟩)
    · rw [symbols, NameSet.mem_union] at hsymbol
      exact absurd hsymbol (by simp [hfunction, hcommand])

theorem tokenize_registered_keyword :
    let manifest := "FUNCTION SUM\n # IF\n\tcommand  IF\r\n\nFunction IF"
    ∃ c, Catalogue.ofManifest manifest "library.cat" = .ok c ∧ Lists manifest .command "IF" ∧
      tokenize ⟨c, .drop⟩ "IF" none = .ok [⟨.both, "IF", ⟨0, "shell"⟩, ⟨2, "shell"⟩⟩] := by
  intro manifest
  let c : Catalogue := ((Catalogue.empty.add ⟨.function, "SUM"⟩).add ⟨.command, "IF"⟩).add
    ⟨.function, "IF"⟩
  have h : Catalogue.ofManifest manifest "library.cat" = .ok c :=
    eq_ok_of_toOption_eq_some (by decide +kernel)
  have hfunction : Lists manifest .function "IF" :=
    ⟨"Function IF".toList, by decide +kernel, by decide, "Function".toList, by decide +kernel,
      by decide⟩
  have hcommand : Lists manifest .command "IF" :=
    ⟨"\tcommand  IF\r\n".toList, by decide +kernel, by decide, "command".toList,
      by decide +kernel, by decide⟩
  obtain ⟨kind, htoken, hkind⟩ := (tokenize_registered h "IF").2 .command hcommand .drop none
  rcases hkind with ⟨-, -, hnot⟩ | ⟨-, hnot, -⟩ | ⟨rfl, -⟩
  · exact absurd (Or.inl hcommand) hnot
  · exact absurd (Or.inl hfunction) hnot
  · exact ⟨c, h, hcommand, htoken⟩

end Lexer

end LayoutLex
