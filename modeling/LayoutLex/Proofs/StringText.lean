import LayoutLex.Proofs.LiteralTokens
import LayoutLex.Value.Canonical

/-!
# How strings are printed

The value of a string holds one character for each byte of its text, and a character is printed as
the Latin-1 character with its code. So a string is printed as its bytes read as Latin-1. Below 128
the two encodings agree, and from there on a character has two bytes or more, each of which is
printed as a character of its own.

Results:
* `text_ofText`: what the value of a text prints.
* `map_latin_encode_eq_iff`: that is the text exactly if the text is ASCII.
* `tokenize_strings_printed`: what the strings of a source print.
-/

namespace LayoutLex

open Text

namespace Value

theorem codes?_characters (bs : List UInt8) : codes? (bs.map character) = some bs := by
  rw [codes?, List.mapM_map]
  exact List.mapM_pure.trans (congrArg some (List.map_id bs))

/-- A vector of characters prints one character for each code. -/
theorem text_characters (bs : List UInt8) (mode? : Option Mode) :
    text (vector ⟨bs.map character, mode?⟩) = bs.map latin := by
  rw [text, codes?_characters]
  cases bs with
  | nil => rfl
  | cons b bs => rfl

/-- **A text is printed as its bytes read as Latin-1.** -/
theorem text_ofText (cs : List Char) : text (ofText cs) = (encode cs).map latin :=
  text_characters (encode cs) _

theorem latin_toUInt8 {c : Char} (h : c.toNat < 128) : latin c.toUInt8 = c := by
  have hcode : c.toUInt8.toNat = c.toNat :=
    (UInt32.toNat_toUInt8 c.val).trans (Nat.mod_eq_of_lt (Nat.lt_trans h (by decide)))
  rw [latin, hcode, Char.ofNat_toNat]

/-- **The bytes of a text read as Latin-1 are the text exactly if it is ASCII.** -/
theorem map_latin_encode_eq_iff {cs : List Char} :
    (encode cs).map latin = cs ↔ ∀ c ∈ cs, c.toNat < 128 := by
  constructor
  · intro h
    -- There are as many characters as bytes.
    have hlength := congrArg List.length h
    rw [List.length_map, length_encode] at hlength
    exact byteLength_eq_length_iff.mp hlength
  · intro h
    induction cs with
    | nil => rfl
    | cons c cs ih =>
      obtain ⟨hc, hcs⟩ := List.forall_mem_cons.mp h
      rw [encode_cons_of_lt hc, List.map_cons, latin_toUInt8 hc, ih hcs]

/-- The same of the text as it is given to a reader. -/
theorem canonical_ofText (cs : List Char) :
    (ofText cs).canonical = String.ofList ((encode cs).map latin) ∧
      ((ofText cs).canonical = String.ofList cs ↔ ∀ c ∈ cs, c.toNat < 128) := by
  rw [canonical, text_ofText]
  exact ⟨rfl, String.ofList_inj.trans map_latin_encode_eq_iff⟩

end Value

/-- The value of a string is that of the text between its quotes. -/
theorem Token.literal?_of_string {t : Token} (hkind : t.kind = .string) {body : List Char}
    (hne : body ≠ []) (htext : t.text.toList = '\x22' :: (body ++ ['\x22'])) :
    t.literal? = some (.ofText body) := by
  have hunquoted : unquoted? ('\x22' :: (body ++ ['\x22'])) = some body := by simp [unquoted?]
  rw [literal?, hkind, htext]
  simp [hunquoted, hne]

namespace Lexer

/-- **What strings print.** A string with something between its quotes prints the bytes of that,
read as Latin-1, and this is what stands between the quotes exactly if that is ASCII. The same is
true of the value of any text. -/
theorem tokenize_strings_printed (lexer : Lexer) :
    (∀ source file? tokens, lexer.tokenize source file? = .ok tokens →
      ∀ t ∈ tokens, t.kind = .string →
        ∃ body, t.text.toList = '\x22' :: (body ++ ['\x22']) ∧
          (body ≠ [] → ∃ v, t.literal? = some v ∧
            v.canonical = String.ofList ((encode body).map Value.latin) ∧
            (v.canonical = String.ofList body ↔ ∀ c ∈ body, c.toNat < 128))) ∧
      ∀ text, (Value.ofText text).canonical = String.ofList ((encode text).map Value.latin) ∧
        ((Value.ofText text).canonical = String.ofList text ↔ ∀ c ∈ text, c.toNat < 128) := by
  refine ⟨fun source file? tokens h t ht hkind => ?_, Value.canonical_ofText⟩
  obtain ⟨body, -, htext⟩ := exists_body_of_string h ht hkind
  exact ⟨body, htext, fun hne =>
    ⟨_, Token.literal?_of_string hkind hne htext, Value.canonical_ofText body⟩⟩

theorem tokenize_strings_printed_latin :
    let plain : Token := ⟨.string, "\"ab\"", ⟨0, "shell"⟩, ⟨4, "shell"⟩⟩
    let accented : Token := ⟨.string, "\"né\"", ⟨4, "shell"⟩, ⟨9, "shell"⟩⟩
    tokenize ⟨.empty, .drop⟩ "\"ab\"\"né\"" none = .ok [plain, accented] ∧
      (∃ v, plain.literal? = some v ∧ v.canonical = "ab") ∧
      ∃ v, accented.literal? = some v ∧ v.canonical = "nÃ©" := by
  intro plain accented
  have h : tokenize ⟨.empty, .drop⟩ "\"ab\"\"né\"" none = .ok [plain, accented] :=
    eq_ok_of_toOption_eq_some (by decide +kernel)
  obtain ⟨hstrings, -⟩ := tokenize_strings_printed ⟨.empty, .drop⟩
  -- What stands between the quotes is determined by the token.
  have hbody : ∀ {t : Token} {text body : List Char},
      t.text = String.ofList ('\x22' :: (text ++ ['\x22'])) →
        t.text.toList = '\x22' :: (body ++ ['\x22']) → text = body := by
    intro t text body hgiven htext
    rw [hgiven, String.toList_ofList] at htext
    exact List.append_cancel_right (List.cons.inj htext).2
  refine ⟨h, ?_, ?_⟩
  · obtain ⟨body, htext, hvalue⟩ := hstrings _ _ _ h plain (by decide) rfl
    obtain rfl : ['a', 'b'] = body := hbody rfl htext
    obtain ⟨v, hv, -, hplain⟩ := hvalue (List.cons_ne_nil _ _)
    exact ⟨v, hv, hplain.mpr (by simp)⟩
  · obtain ⟨body, htext, hvalue⟩ := hstrings _ _ _ h accented (by decide) rfl
    obtain rfl : ['n', 'é'] = body := hbody rfl htext
    obtain ⟨v, hv, hlatin, -⟩ := hvalue (List.cons_ne_nil _ _)
    exact ⟨v, hv, hlatin.trans (by decide +kernel)⟩

/-- A string of one accented letter prints two other characters. -/
theorem not_tokenize_strings_printed :
    ¬ ∀ (lexer : Lexer) source file? tokens, lexer.tokenize source file? = .ok tokens →
      ∀ t ∈ tokens, t.kind = .string → ∀ body ≠ [], t.text.toList = '\x22' :: (body ++ ['\x22']) →
        ∃ v, t.literal? = some v ∧ v.canonical = String.ofList body := by
  intro hall
  let accented : Token := ⟨.string, "\"é\"", ⟨0, "shell"⟩, ⟨4, "shell"⟩⟩
  have h : tokenize ⟨.empty, .keep⟩ "\"é\"" none = .ok [accented] :=
    eq_ok_of_toOption_eq_some (by decide +kernel)
  have htext : accented.text.toList = '\x22' :: (['é'] ++ ['\x22']) := by decide +kernel
  have hne := List.cons_ne_nil 'é' []
  obtain ⟨v, hv, hprinted⟩ := hall _ _ _ _ h accented List.mem_cons_self rfl _ hne htext
  rw [Token.literal?_of_string rfl hne htext] at hv
  cases hv
  have hascii := (Value.canonical_ofText ['é']).2.mp hprinted
  exact absurd (hascii 'é' List.mem_cons_self) (by decide)

end Lexer

end LayoutLex
