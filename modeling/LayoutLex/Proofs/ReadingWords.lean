import LayoutLex.Proofs.Lexemes
import LayoutLex.Proofs.Reading

/-!
# Reading words is cutting the text into lexemes

The scan that reads a byte source word by word finds the lexemes of the text that the source holds.
`AtText` says in characters where such a scan is: what pieces have been cut off, what text is open
and what text is to come. A word is open between two bytes in four cases only. Characters without
meaning may go on, or with a name; a minus is the sign of the number to come; and at the end of the
source a delimiter is open because nothing follows it. So what is open belongs to the next lexeme,
or is a lexeme that nothing to come joins (`Rests`).

Results:
* `At.readWhile`, `At.readBlanks`, `At.passBlanks`: what reading a run of characters does.
* `AtText.name`, `AtText.number`, `AtText.delimiter`, `AtText.spaces`: the handling of each class of
  first character.
* `AtText.lexeme`: the scan comes to the end of the next lexeme.
* `AtText.scanWords`, `ends_scanWords_reset`: the scan of a source gives the lexemes of its text.
-/

namespace LayoutLex.Text

/-! ## The classes of bytes -/

theorem isAscii_isSpace : IsAscii isSpace := by
  intro c hc
  simp only [isSpace, isBreak, Bool.or_eq_true, beq_iff_eq] at hc
  rcases hc with (rfl | rfl) | rfl | rfl <;> decide

theorem isAscii_isDigit : IsAscii Char.isDigit := by
  intro c hc
  simp only [Char.isDigit, ge_iff_le, Bool.and_eq_true, decide_eq_true_eq,
    UInt32.le_iff_toNat_le] at hc
  exact Nat.lt_of_le_of_lt hc.2 (by decide)

theorem isAscii_isNameStart : IsAscii isNameStart :=
  fun c hc => Nat.lt_of_le_of_lt (Scan.toNat_of_isNameStart hc).2 (by decide)

theorem isAscii_isNameChar : IsAscii isNameChar := by
  intro c hc
  simp only [isNameChar, Bool.or_eq_true, beq_iff_eq] at hc
  rcases hc with (((hupper | hdigit) | rfl) | rfl) | rfl
  · exact isAscii_isNameStart c hupper
  · exact isAscii_isDigit c hdigit
  · decide
  · decide
  · decide

theorem isAscii_isNumberChar : IsAscii isNumberChar := by
  intro c hc
  simp only [isNumberChar, isSign, Bool.or_eq_true, beq_iff_eq] at hc
  rcases hc with (((hdigit | rfl) | (rfl | rfl)) | rfl) | rfl
  · exact isAscii_isDigit c hdigit
  · decide
  · decide
  · decide
  · decide
  · decide

theorem isAscii_isNumberStart : IsAscii isNumberStart := by
  intro c hc
  simp only [isNumberStart, Bool.or_eq_true, beq_iff_eq] at hc
  rcases hc with hdigit | rfl
  · exact isAscii_isDigit c hdigit
  · decide

theorem isAscii_isDelimiter : IsAscii isDelimiter := by
  have hall : delimiters.all (·.toNat < 128) = true := by decide
  intro c hc
  exact of_decide_eq_true (List.all_eq_true.mp hall c (List.contains_iff_mem.mp hc))

theorem isAscii_pair (c : Char) : IsAscii fun d => Scan.pairs.contains (c, d) := by
  have hall : ∀ pair ∈ Scan.pairs, pair.2.toNat < 128 := by decide
  exact fun d hd => hall (c, d) (List.contains_iff_mem.mp hd)

/-- A byte of a character has no meaning exactly if the character has none. -/
theorem isOther_ofUInt8 {c : Char} {b : UInt8} (hb : b ∈ String.utf8EncodeChar c) :
    Scan.isOther (Char.ofUInt8 b) = Scan.isOther c := by
  simp only [Scan.isOther, ofUInt8_of_mem_utf8EncodeChar isAscii_isSpace hb,
    ofUInt8_of_mem_utf8EncodeChar isAscii_isNameStart hb,
    ofUInt8_of_mem_utf8EncodeChar isAscii_isNumberStart hb,
    ofUInt8_of_mem_utf8EncodeChar isAscii_isDelimiter hb]

theorem of_mem_encode {p : Char → Bool} (hp : IsAscii p) {cs : List Char}
    (h : ∀ c ∈ cs, p c = true) {b : UInt8} (hb : b ∈ encode cs) : p (Char.ofUInt8 b) = true := by
  obtain ⟨c, hc, hbc⟩ := List.mem_flatMap.mp hb
  rw [ofUInt8_of_mem_utf8EncodeChar hp hbc, h c hc]

/-- The first byte of a text is one of its first character. -/
theorem exists_encode_cons (c : Char) (cs : List Char) :
    ∃ b bytes, encode (c :: cs) = b :: bytes ∧ b ∈ String.utf8EncodeChar c := by
  obtain ⟨b, bytes, hc⟩ := List.exists_cons_of_ne_nil (String.utf8EncodeChar_ne_nil (c := c))
  refine ⟨b, bytes ++ encode cs, ?_, hc ▸ List.mem_cons_self⟩
  rw [encode, List.flatMap_cons, hc]
  rfl

/-- A text that starts with no character of a class below 128 starts with no byte of one. -/
theorem stops_encode {p : Char → Bool} (hp : IsAscii p) {cs : List Char} (h : Stops p cs) :
    ∀ b ∈ (encode cs).head?, p (Char.ofUInt8 b) = false := by
  intro b hb
  cases cs with
  | nil => cases hb
  | cons c cs =>
    obtain ⟨first, bytes, hbytes, hfirst⟩ := exists_encode_cons c cs
    rw [hbytes] at hb
    cases hb
    rw [ofUInt8_of_mem_utf8EncodeChar hp hfirst, stops_cons.mp h]

end LayoutLex.Text

namespace LayoutLex.Scan.Reading

open Text

variable {σ : Type} [ByteSource σ] [LawfulByteSource σ]
variable {spacing : Spacing} {file : String} {base : Nat} {tokens : List Token}
variable {done word rest bytes : List UInt8} {r : Reading σ}

/-! ## Runs -/

/-- The longest run of characters each of which joins what stands before it, after `last`. -/
def runAfter (joins : Option Char → Char → Bool) (last : Char) : List Char → List Char
  | [] => []
  | c :: cs => if joins (some last) c then c :: runAfter joins c cs else []

theorem runAfter_joinsName (last : Char) (cs : List Char) :
    runAfter joinsName last cs = cs.takeWhile isNameChar := by
  induction cs generalizing last with
  | nil => rfl
  | cons c cs ih =>
    rw [runAfter, ih, List.takeWhile_cons]
    rfl

theorem runAfter_joinsNumber (last : Char) (cs : List Char) :
    runAfter joinsNumber last cs = numberTail last cs := by
  induction cs generalizing last with
  | nil => rfl
  | cons c cs ih =>
    rw [runAfter, ih, numberTail]
    rfl

omit [ByteSource σ] [LawfulByteSource σ] in
/-- Blanks make no token if they are dropped. -/
theorem token?_drop_blank {blanks : List Char} (h : ∀ c ∈ blanks, isBlank c = true)
    (kind : TokenKind) (start : Nat) : (⟨kind, blanks⟩ : Piece).token? .drop file start = none := by
  have hstart : trimStart (blanks ++ []) = [] := dropWhile_append_of_stops h stops_nil
  rw [List.append_nil] at hstart
  have htrim : trim blanks = [] := by rw [trim, hstart]; rfl
  simp [Piece.token?, Spacing.cut, htrim]

namespace At

omit [ByteSource σ] [LawfulByteSource σ] in
theorem last?_eq (h : r.word.toList = word) : r.last? = word.getLast?.map Char.ofUInt8 := by
  rw [last?, ← h, Array.getLast?_toList]

/-- The last character of the open word, if it is below 128. -/
theorem last?_concat {pending : List Char} {c : Char} (hc : c.toNat < 128)
    (h : At spacing file base tokens done (encode (pending ++ [c])) rest r) :
    r.last? = some c := by
  have hlast : encode [c] = [c.toUInt8] := encode_cons_of_lt hc []
  rw [last?_eq h.word_eq, encode_append, hlast, List.getLast?_concat, Option.map_some,
    ofUInt8_toUInt8 hc]

/-- The open word does not end with a minus if its text has none. -/
theorem last?_ne_minus {pending : List Char} (hminus : '-' ∉ pending)
    (h : At spacing file base tokens done (encode pending) rest r) : r.last? ≠ some '-' := by
  have hascii : IsAscii (· == '-') := by
    intro c hc
    rw [beq_iff_eq.mp hc]
    decide
  have hne : ∀ c ∈ pending, (c == '-') = false := by
    intro c hc
    rw [beq_eq_false_iff_ne]
    rintro rfl
    exact hminus hc
  rw [last?_eq h.word_eq]
  intro hlast
  obtain ⟨b, hb, hchar⟩ := Option.map_eq_some_iff.mp hlast
  have hfalse := not_of_mem_encode hascii hne (List.mem_of_getLast? hb)
  rw [hchar] at hfalse
  cases hfalse

/-- A byte that is read and not pushed is passed over. -/
theorem pass {b : UInt8} {b? : Option UInt8} {after : σ}
    (h : At spacing file base tokens done [] (b :: rest) r)
    (hread : ByteSource.next? r.source = (b?, after)) :
    b? = some b ∧ At spacing file base tokens (done ++ [b]) [] rest { r with source := after } := by
  obtain ⟨hbyte, hafter⟩ := LawfulByteSource.next_cons h.stands
  rw [hread] at hbyte hafter
  refine ⟨hbyte, ⟨h.spacing_eq, h.file_eq, h.base_eq, h.tokens_eq, h.word_eq, ?_, ?_⟩⟩
  · exact fun hne => absurd rfl hne
  · simpa using hafter

/-- A byte that was read only to be looked at is given back. -/
theorem giveBack {b : UInt8} {b? : Option UInt8} {after : σ}
    (h : At spacing file base tokens done word (b :: rest) r)
    (hread : ByteSource.next? r.source = (b?, after)) :
    At spacing file base tokens done word (b :: rest)
      { r with source := ByteSource.back after 1 } := by
  obtain ⟨-, hafter⟩ := LawfulByteSource.next_cons h.stands
  rw [hread] at hafter
  exact { h with stands := LawfulByteSource.back hafter }

/-! ## Reading a run to its end -/

/-- Characters that join the open word are read, up to the first that does not. -/
theorem readWhile {joins : Option Char → Char → Bool} (hjoins : ∀ last?, IsAscii (joins last?))
    {pending cs : List Char} {last : Char} (hlast : last.toNat < 128)
    (h : At spacing file base tokens done (encode (pending ++ [last])) (encode cs) r) :
    At spacing file base tokens done (encode (pending ++ last :: runAfter joins last cs))
      (encode (cs.drop (runAfter joins last cs).length)) (r.readWhile joins) := by
  induction cs generalizing pending last r with
  | nil =>
    unfold Reading.readWhile
    split
    · next after hread => exact (h.next_nil hread).2
    · next b after hread => cases (h.next_nil hread).1
  | cons c cs ih =>
    have hlast? := h.last?_concat hlast
    obtain ⟨b, bytes, hbytes, hb⟩ := exists_encode_cons c cs
    have hbyte := ofUInt8_of_mem_utf8EncodeChar (hjoins (some last)) hb
    unfold Reading.readWhile
    split
    · next after hread =>
      rw [hbytes] at h
      cases (h.push hread).1
    · next d after hread =>
      have hd : d = b := by
        rw [hbytes] at h
        exact Option.some.inj (h.push hread).1
      rw [hlast?, hd, hbyte, runAfter]
      split
      · next hc =>
        have hascii := hjoins (some last) c hc
        rw [encode_cons_of_lt hascii] at h hbytes
        rw [← (List.cons.inj hbytes).1]
        have hpush := (h.push hread).2
        have hword : encode (pending ++ [last]) ++ [c.toUInt8] =
            encode (pending ++ [last] ++ [c]) := by
          rw [encode_append (pending ++ [last]), encode_cons_of_lt hascii]
          rfl
        rw [hword] at hpush
        rw [List.length_cons, List.drop_succ_cons]
        dsimp only
        split
        · next looked hlook =>
          obtain ⟨hend, hlooked⟩ := hpush.look hlook
          have hcs := eq_nil_of_encode_eq_nil (List.isEmpty_iff.mp hend.symm)
          rw [hcs] at hlooked ⊢
          rwa [List.append_assoc] at hlooked
        · next looked hlook =>
          have hread := ih hascii (hpush.look hlook).2
          rwa [List.append_assoc] at hread
      · rw [List.length_nil, List.drop_zero, hbytes]
        rw [hbytes] at h
        exact h.giveBack hread

/-- Reading separators ends before the first byte that is none. -/
theorem readBlanks_of_stops (hrest : ∀ b ∈ rest.head?, isSpace (Char.ofUInt8 b) = false)
    (h : At spacing file base tokens done word rest r) :
    At spacing file base tokens done word rest r.readBlanks := by
  unfold Reading.readBlanks
  cases rest with
  | nil =>
    split
    · next after hread => exact (h.next_nil hread).2
    · next b after hread => cases (h.next_nil hread).1
  | cons b rest =>
    split
    · next after hread => cases (h.push hread).1
    · next d after hread =>
      cases (h.push hread).1
      rw [if_neg (by simp [hrest b rfl])]
      exact h.giveBack hread

/-- Reading separators goes on after one, which joins the open word if blanks are kept. -/
theorem readBlanks_cons {b : UInt8} (hb : isSpace (Char.ofUInt8 b) = true)
    (h : At spacing file base tokens done word (b :: rest) r) :
    ∃ after, ByteSource.next? r.source = (some b, after) ∧
      r.readBlanks = (if spacing.keeps then ({ r with source := after } : Reading σ).push b
        else { r with source := after }).readBlanks := by
  rw [Reading.readBlanks]
  split
  · next after hread => cases (h.push hread).1
  · next d after hread =>
    cases (h.push hread).1
    rw [if_pos hb, h.spacing_eq]
    exact ⟨after, hread, rfl⟩

/-- Separators are read, up to the first byte that is none, and join the open word if blanks are
kept. -/
theorem readBlanks (hbytes : ∀ b ∈ bytes, isSpace (Char.ofUInt8 b) = true)
    (hrest : ∀ b ∈ rest.head?, isSpace (Char.ofUInt8 b) = false)
    (h : At .keep file base tokens done word (bytes ++ rest) r) :
    At .keep file base tokens done (word ++ bytes) rest r.readBlanks := by
  induction bytes generalizing word r with
  | nil =>
    rw [List.append_nil]
    exact h.readBlanks_of_stops hrest
  | cons b bytes ih =>
    obtain ⟨after, hread, heq⟩ := h.readBlanks_cons (hbytes b List.mem_cons_self)
    have hblanks := ih (fun c hc => hbytes c (List.mem_cons_of_mem b hc)) (h.push hread).2
    rw [List.append_assoc] at hblanks
    rwa [heq, if_pos (by decide)]

/-- Separators are passed over if blanks are dropped. -/
theorem passBlanks (hbytes : ∀ b ∈ bytes, isSpace (Char.ofUInt8 b) = true)
    (hrest : ∀ b ∈ rest.head?, isSpace (Char.ofUInt8 b) = false)
    (h : At .drop file base tokens done [] (bytes ++ rest) r) :
    At .drop file base tokens (done ++ bytes) [] rest r.readBlanks := by
  induction bytes generalizing done r with
  | nil =>
    rw [List.append_nil]
    exact h.readBlanks_of_stops hrest
  | cons b bytes ih =>
    obtain ⟨after, hread, heq⟩ := h.readBlanks_cons (hbytes b List.mem_cons_self)
    have hblanks := ih (fun c hc => hbytes c (List.mem_cons_of_mem b hc)) (h.pass hread).2
    rw [List.append_assoc] at hblanks
    rwa [heq, if_neg (by decide)]

/-! ## One byte of the scan -/

/-- A scan with no byte to come closes the open word. -/
theorem scanWords_nil (h : At spacing file base tokens done word [] r) :
    ∃ last, r.scanWords = last.close .unresolved ∧
      At spacing file base tokens done word [] last := by
  rw [Reading.scanWords]
  split
  · next looked hlook => exact ⟨_, rfl, (h.look hlook).2⟩
  · next looked hlook => cases (h.look hlook).1

/-- A scan with a byte to come reads it, does what follows from it, and goes on. -/
theorem scanWords_cons {b : UInt8} (h : At spacing file base tokens done word (b :: rest) r) :
    ∃ (before : Reading σ) (source : σ),
      At spacing file base tokens done word (b :: rest) before ∧
      ByteSource.next? before.source = (some b, source) ∧
      r.scanWords = (readWord b { before with source := source }).scanWords := by
  rw [Reading.scanWords]
  split
  · next looked hlook => cases (h.look hlook).1
  · next looked hlook =>
    obtain ⟨-, hlooked⟩ := h.look hlook
    split
    · next after hread => cases (hlooked.push hread).1
    · next d after hread =>
      cases (hlooked.push hread).1
      exact ⟨_, after, hlooked, hread, rfl⟩

/-- Bytes without meaning join the open word. -/
theorem exists_scanWords_eq (hbytes : ∀ b ∈ bytes, isOther (Char.ofUInt8 b) = true)
    (h : At spacing file base tokens done word (bytes ++ rest) r) :
    ∃ later, r.scanWords = later.scanWords ∧
      At spacing file base tokens done (word ++ bytes) rest later := by
  induction bytes generalizing word r with
  | nil => exact ⟨r, rfl, by rwa [List.append_nil]⟩
  | cons b bytes ih =>
    obtain ⟨before, source, hbefore, hread, hscan⟩ := h.scanWords_cons
    obtain ⟨hspace, hname, hnumber, hdelimiter⟩ :=
      isOther_iff.mp (hbytes b List.mem_cons_self)
    have hword : readWord b { before with source := source } =
        ({ before with source := source } : Reading σ).push b := by
      simp [readWord, hspace, hname, hnumber, hdelimiter]
    obtain ⟨later, heq, hlater⟩ := ih (fun c hc => hbytes c (List.mem_cons_of_mem b hc))
      (hbefore.push hread).2
    rw [List.append_assoc] at hlater
    exact ⟨later, by rw [hscan, hword, heq], hlater⟩

end At

/-! ## The scan in characters -/

/-- The scan has cut off the pieces, the text `pending` is open and the text `coming` is to come. -/
abbrev AtText (spacing : Spacing) (file : String) (base : Nat) (pieces : List Piece)
    (pending coming : List Char) (r : Reading σ) : Prop :=
  At spacing file base (place spacing file base pieces) (encode (textOf pieces)) (encode pending)
    (encode coming) r

/-- Nothing of what comes joins what is open. -/
def Rests (pending : List Char) : List Char → Prop
  | [] => True
  | c :: _ => pending = [] ∨ ('-' ∉ pending ∧ isOther c = false ∧ isNameStart c = false)

theorem rests_nil (cs : List Char) : Rests [] cs := by
  cases cs with
  | nil => trivial
  | cons c cs => exact Or.inl rfl

variable {pieces more : List Piece} {pending cs : List Char} {c : Char}

namespace AtText

/-- A character below 128 is read as one byte. -/
theorem exists_read (hc : c.toNat < 128)
    (h : AtText spacing file base pieces pending (c :: cs) r) :
    ∃ (before : Reading σ) (source : σ), AtText spacing file base pieces pending (c :: cs) before ∧
      ByteSource.next? before.source = (some c.toUInt8, source) ∧
      r.scanWords = (readWord c.toUInt8 { before with source := source }).scanWords := by
  rw [AtText, encode_cons_of_lt hc] at h
  obtain ⟨before, source, hbefore, hread, hscan⟩ := h.scanWords_cons
  refine ⟨before, source, ?_, hread, hscan⟩
  rwa [AtText, encode_cons_of_lt hc]

/-- The character that has been read joins the open word. -/
theorem push {source : σ} (hc : c.toNat < 128)
    (h : AtText spacing file base pieces pending (c :: cs) r)
    (hread : ByteSource.next? r.source = (some c.toUInt8, source)) :
    AtText spacing file base pieces (pending ++ [c]) cs
      (({ r with source := source } : Reading σ).push c.toUInt8) := by
  rw [AtText, encode_cons_of_lt hc] at h
  have hpush := (h.push hread).2
  rwa [AtText, encode_append, encode_cons_of_lt hc]

/-- Closing the open word cuts off one more piece. -/
theorem close (kind : TokenKind) (h : AtText spacing file base pieces pending cs r) :
    AtText spacing file base (pieces ++ [⟨kind, pending⟩]) [] cs (r.close kind) :=
  Reads.close kind h

/-- The character that has been read closes the open word and starts another. -/
theorem enter {source : σ} (hc : c.toNat < 128)
    (h : AtText spacing file base pieces pending (c :: cs) r)
    (hread : ByteSource.next? r.source = (some c.toUInt8, source)) :
    AtText spacing file base (pieces ++ [⟨.unresolved, pending⟩]) [c] cs
      ((({ r with source := source } : Reading σ).close .unresolved).push c.toUInt8) :=
  (h.close .unresolved).push hc hread

/-- The next character is looked at through its first byte, which is given back or joins the open
word. -/
theorem peek (h : AtText spacing file base pieces pending (c :: cs) r) :
    ∃ b source, ByteSource.next? r.source = (some b, source) ∧ b ∈ String.utf8EncodeChar c ∧
      AtText spacing file base pieces pending (c :: cs)
        { r with source := ByteSource.back source 1 } ∧
      (c.toNat < 128 → AtText spacing file base pieces (pending ++ [c]) cs
        (({ r with source := source } : Reading σ).push b)) := by
  obtain ⟨b, bytes, hbytes, hb⟩ := exists_encode_cons c cs
  rcases hread : ByteSource.next? r.source with ⟨b?, source⟩
  have hbyte : b? = some b := by
    rw [AtText, hbytes] at h
    exact (h.push hread).1
  subst hbyte
  refine ⟨b, source, rfl, hb, ?_, fun hc => ?_⟩
  · rw [AtText, hbytes] at h ⊢
    exact h.giveBack hread
  · rw [utf8EncodeChar_of_lt hc, List.mem_singleton] at hb
    subst hb
    exact h.push hc hread

/-! ## Each class of first character -/

/-- A name is read to its end, with what is open before it. -/
theorem name (hname : isNameStart c = true)
    (h : AtText spacing file base pieces pending (c :: cs) r) :
    ∃ after, r.scanWords = after.scanWords ∧
      AtText spacing file base
        (pieces ++ [⟨.unresolved, pending ++ c :: cs.takeWhile isNameChar⟩]) []
        (cs.dropWhile isNameChar) after := by
  have hc := isAscii_isNameStart c hname
  obtain ⟨before, source, hbefore, hread, hscan⟩ := h.exists_read hc
  have hjoins : ∀ last?, IsAscii (joinsName last?) := fun _ => isAscii_isNameChar
  have hrun := (hbefore.push hc hread).readWhile hjoins hc
  have hdrop : cs.drop (cs.takeWhile isNameChar).length = cs.dropWhile isNameChar := by
    have hleft := @List.drop_left _ (cs.takeWhile isNameChar) (cs.dropWhile isNameChar)
    rwa [List.takeWhile_append_dropWhile] at hleft
  rw [runAfter_joinsName, hdrop] at hrun
  refine ⟨_, ?_, Reads.close .unresolved hrun⟩
  rw [hscan, readWord, ofUInt8_toUInt8 hc, if_pos hname, readName]

/-- A number is read to its end after its first characters. -/
theorem numberRest (hc : c.toNat < 128)
    (h : AtText spacing file base pieces (pending ++ [c]) cs r) :
    let read := r.readWhile joinsNumber
    AtText spacing file base (pieces ++ [Scan.number (pending ++ c :: numberTail c cs)]) []
      (cs.drop (numberTail c cs).length)
      (read.close (if Literal.isNumber read.text then .number else .badNumber)) := by
  intro read
  have hjoins : ∀ last?, IsAscii (joinsNumber last?) := by
    intro last? d hd
    exact isAscii_isNumberChar d (Bool.and_eq_true_iff.mp hd).1
  have hrun := h.readWhile hjoins hc
  rw [runAfter_joinsNumber] at hrun
  have htext : read.text = pending ++ c :: numberTail c cs := by
    rw [text, hrun.word_eq, decodeLossy_encode]
  rw [htext]
  exact Reads.close _ hrun

/-- A number without a sign is read to its end. -/
theorem number (hnumber : isNumberStart c = true) (hminus : '-' ∉ pending)
    (h : AtText spacing file base pieces pending (c :: cs) r) :
    ∃ after, r.scanWords = after.scanWords ∧
      AtText spacing file base
        (pieces ++ [⟨.unresolved, pending⟩] ++ [Scan.number (c :: numberTail c cs)]) []
        (cs.drop (numberTail c cs).length) after := by
  have hc := isAscii_isNumberStart c hnumber
  have hname : ¬ isNameStart c = true := by
    rw [not_isNameStart_of_isNumberStart hnumber]
    decide
  obtain ⟨before, source, hbefore, hread, hscan⟩ := h.exists_read hc
  have hlast : ({ before with source := source } : Reading σ).last? ≠ some '-' :=
    fun heq => hbefore.last?_ne_minus hminus heq
  have hopened : AtText spacing file base (pieces ++ [⟨.unresolved, pending⟩]) ([] ++ [c]) cs
      ((({ before with source := source } : Reading σ).close .unresolved).push c.toUInt8) :=
    hbefore.enter hc hread
  have hrest := hopened.numberRest hc
  rw [List.nil_append] at hrest
  refine ⟨_, ?_, hrest⟩
  rw [hscan, readWord, ofUInt8_toUInt8 hc, if_neg hname, if_pos hnumber, readNumber, if_neg hlast]

/-- A number after its sign, which is open, is read to its end. -/
theorem signed (hnumber : isNumberStart c = true)
    (h : AtText spacing file base pieces ['-'] (c :: cs) r) :
    ∃ after, r.scanWords = after.scanWords ∧
      AtText spacing file base (pieces ++ [Scan.number ('-' :: c :: numberTail c cs)]) []
        (cs.drop (numberTail c cs).length) after := by
  have hc := isAscii_isNumberStart c hnumber
  have hname : ¬ isNameStart c = true := by
    rw [not_isNameStart_of_isNumberStart hnumber]
    decide
  obtain ⟨before, source, hbefore, hread, hscan⟩ := h.exists_read hc
  have hsign : AtText spacing file base pieces ([] ++ ['-']) (c :: cs) before := hbefore
  have hlast : before.last? = some '-' := At.last?_concat (by decide) hsign
  have hlast : ({ before with source := source } : Reading σ).last? = some '-' := hlast
  have hopened : AtText spacing file base pieces (['-'] ++ [c]) cs
      (({ before with source := source } : Reading σ).push c.toUInt8) := hbefore.push hc hread
  have hrest := hopened.numberRest hc
  rw [List.singleton_append] at hrest
  refine ⟨_, ?_, hrest⟩
  rw [hscan, readWord, ofUInt8_toUInt8 hc, if_neg hname, if_pos hnumber, readNumber, if_pos hlast]

/-- An open delimiter is a word, or a part of a pair, once the next character has been looked at.
With none to come it stays open, and so does the sign of a number. -/
theorem closeDelimiter (hnumber : isNumberStart c = false)
    (h : AtText spacing file base pieces [c] cs r) :
    if cs = [] ∨ startsNumber c cs = true then
      AtText spacing file base pieces [c] cs (Reading.closeDelimiter c r)
    else
      AtText spacing file base (pieces ++ [(Scan.delimiter c cs).1]) [] (Scan.delimiter c cs).2
        (Reading.closeDelimiter c r) := by
  rw [Reading.closeDelimiter]
  cases cs with
  | nil =>
    rw [if_pos (Or.inl rfl)]
    rcases hlook : ByteSource.next? r.source with ⟨b?, after⟩
    obtain ⟨rfl, hafter⟩ := At.next_nil h hlook
    exact hafter
  | cons next rest =>
    obtain ⟨b, after, hlook, hb, hgiven, hpushed⟩ := h.peek
    have hpair := ofUInt8_of_mem_utf8EncodeChar (isAscii_pair c) hb
    have hstart := ofUInt8_of_mem_utf8EncodeChar isAscii_isNumberStart hb
    have hspace := ofUInt8_of_mem_utf8EncodeChar isAscii_isSpace hb
    have hkind : delimiterKind c (Char.ofUInt8 b) = delimiterKind c next := by
      rw [delimiterKind, delimiterKind, hspace]
    have hsign : startsNumber c (next :: rest) = (c == '-' && isNumberStart next) := by
      rw [startsNumber, hnumber]
      rfl
    rw [hlook]
    dsimp only
    rw [hpair, hstart, hkind, hsign, Scan.delimiter]
    by_cases hp : pairs.contains (c, next) = true
    · have hminus : (c == '-' && isNumberStart next) = false := by
        have hall : ∀ pair ∈ pairs, (pair.1 == '-') = false := by decide
        rw [hall (c, next) (List.contains_iff_mem.mp hp), Bool.false_and]
      rw [if_pos hp, if_pos hp, hminus, if_neg (by simp)]
      exact (hpushed (isAscii_pair c next hp)).close .operator
    · rw [if_neg hp, if_neg hp]
      by_cases hs : (c == '-' && isNumberStart next) = true
      · rw [if_pos hs, if_pos (Or.inr hs)]
        exact hgiven
      · rw [if_neg hs, if_neg (by simpa using hs)]
        exact hgiven.close _

/-- A delimiter closes what is open before it. -/
theorem delimiter (hdelimiter : isDelimiter c = true)
    (h : AtText spacing file base pieces pending (c :: cs) r) :
    ∃ opened : Reading σ, r.scanWords = (Reading.closeDelimiter c opened).scanWords ∧
      AtText spacing file base (pieces ++ [⟨.unresolved, pending⟩]) [c] cs opened := by
  have hc := isAscii_isDelimiter c hdelimiter
  obtain ⟨-, hname, hnumber⟩ := classes_of_isDelimiter hdelimiter
  obtain ⟨before, source, hbefore, hread, hscan⟩ := h.exists_read hc
  refine ⟨_, ?_, hbefore.enter hc hread⟩
  rw [hscan, readWord, ofUInt8_toUInt8 hc, hname, hnumber, hdelimiter, if_neg Bool.false_ne_true,
    if_neg Bool.false_ne_true, if_pos rfl, readDelimiter, ofUInt8_toUInt8 hc]

/-- Separators close what is open before them. They are a word if blanks are kept, and else make no
token. -/
theorem spaces (hspace : isSpace c = true)
    (h : AtText spacing file base pieces pending (c :: cs) r) :
    ∃ after, r.scanWords = after.scanWords ∧
      AtText spacing file base
        (pieces ++ [⟨.unresolved, pending⟩] ++ [⟨.spaces, c :: cs.takeWhile isSpace⟩]) []
        (cs.dropWhile isSpace) after := by
  have hc := isAscii_isSpace c hspace
  have hname := not_isNameStart_of_isSpace hspace
  have hnumber := not_isNumberStart_of_isSpace hspace
  have hdelimiter := not_isDelimiter_of_isSpace hspace
  obtain ⟨before, source, hbefore, hread, hscan⟩ := h.exists_read hc
  have hrun : ∀ b ∈ encode (cs.takeWhile isSpace), isSpace (Char.ofUInt8 b) = true :=
    fun b hb => of_mem_encode isAscii_isSpace (fun d hd => mem_takeWhile hd) hb
  have hrest : ∀ b ∈ (encode (cs.dropWhile isSpace)).head?, isSpace (Char.ofUInt8 b) = false :=
    stops_encode isAscii_isSpace (stops_dropWhile isSpace cs)
  have hall : ∀ d ∈ c :: cs.takeWhile isSpace, isBlank d = true :=
    List.forall_mem_cons.mpr ⟨isBlank_of_isSpace hspace, fun d hd =>
      isBlank_of_isSpace (mem_takeWhile hd)⟩
  have hsplit : encode cs = encode (cs.takeWhile isSpace) ++ encode (cs.dropWhile isSpace) := by
    rw [← encode_append, List.takeWhile_append_dropWhile]
  refine ⟨_, hscan, ?_⟩
  rw [readWord, ofUInt8_toUInt8 hc, hname, hnumber, hdelimiter, hspace, if_neg Bool.false_ne_true,
    if_neg Bool.false_ne_true, if_neg Bool.false_ne_true, if_pos rfl, readSpaces]
  have hspacing : before.spacing = spacing := hbefore.spacing_eq
  cases spacing with
  | keep =>
    have hkeeps : before.spacing.keeps = true := by rw [hspacing]; rfl
    have hopened := hbefore.enter hc hread
    rw [AtText, hsplit] at hopened
    have hblanks := hopened.readBlanks hrun hrest
    rw [← encode_append] at hblanks
    exact if_pos hkeeps ▸ Reads.close .spaces hblanks
  | drop =>
    have hdrops : ¬ before.spacing.keeps = true := by rw [hspacing]; decide
    have hclosed := hbefore.close .unresolved
    rw [AtText, encode_cons_of_lt hc] at hclosed
    have hpassed := (hclosed.pass hread).2
    rw [hsplit] at hpassed
    have hblanks := hpassed.passBlanks hrun hrest
    have hdone : encode (textOf (pieces ++ [⟨.unresolved, pending⟩])) ++ [c.toUInt8] ++
        encode (cs.takeWhile isSpace) = encode (textOf (pieces ++ [⟨.unresolved, pending⟩] ++
          [⟨.spaces, c :: cs.takeWhile isSpace⟩])) := by
      rw [textOf_concat (pieces ++ _), encode_append, encode_cons_of_lt hc, List.append_assoc]
      rfl
    rw [hdone] at hblanks
    rw [if_neg hdrops, AtText, place_append, place_cons, place, token?_drop_blank hall]
    rw [Option.toList_none, List.append_nil, List.append_nil]
    exact hblanks

/-- Characters without meaning stay open, unless a name goes on with them. -/
theorem other (hother : isOther c = true)
    (h : AtText spacing file base pieces [] (c :: cs) r) :
    ∃ after, r.scanWords = after.scanWords ∧
      (AtText spacing file base (pieces ++ [(Scan.other c cs).1]) [] (Scan.other c cs).2 after ∨
        (Rests (Scan.other c cs).1.text (Scan.other c cs).2 ∧
          AtText spacing file base pieces (Scan.other c cs).1.text (Scan.other c cs).2 after)) := by
  let run := c :: cs.takeWhile isOther
  have hrun : ∀ d ∈ run, isOther d = true := by
    intro d hd
    rcases List.mem_cons.mp hd with rfl | hd
    · exact hother
    · exact mem_takeWhile hd
  have hbytes : ∀ b ∈ encode run, isOther (Char.ofUInt8 b) = true := by
    intro b hb
    obtain ⟨d, hd, hbd⟩ := List.mem_flatMap.mp hb
    rw [isOther_ofUInt8 hbd, hrun d hd]
  have hminus : '-' ∉ run := fun hmem => absurd (hrun '-' hmem) (by decide)
  have hsplit : c :: cs = run ++ cs.dropWhile isOther := by
    rw [List.cons_append, List.takeWhile_append_dropWhile]
  rw [hsplit, AtText, encode_append] at h
  obtain ⟨later, hscan, hlater⟩ := h.exists_scanWords_eq hbytes
  have hopened : AtText spacing file base pieces run (cs.dropWhile isOther) later := hlater
  have hstops := stops_dropWhile isOther cs
  unfold Scan.other
  split
  · next hdrop =>
    rw [hdrop] at hopened
    exact ⟨later, hscan, Or.inr ⟨trivial, hopened⟩⟩
  · next d rest hdrop =>
    rw [hdrop] at hopened hstops
    split
    · next hd =>
      obtain ⟨after, heq, hafter⟩ := hopened.name hd
      exact ⟨after, hscan.trans heq, Or.inl hafter⟩
    · next hd =>
      refine ⟨later, hscan, Or.inr ⟨Or.inr ⟨hminus, stops_cons.mp hstops, ?_⟩, hopened⟩⟩
      exact Bool.eq_false_iff.mpr hd

/-! ## The lexemes of a text -/

/-- A piece without text may be cut off at any time. -/
theorem skip (h : AtText spacing file base (pieces ++ more) pending cs r) :
    AtText spacing file base (pieces ++ [⟨.unresolved, []⟩] ++ more) pending cs r := by
  have htext : textOf (pieces ++ [⟨.unresolved, []⟩] ++ more) = textOf (pieces ++ more) := by
    simp [textOf]
  rwa [AtText, place_append_nil, htext]

/-- **The scan comes to the end of the next lexeme**, which is cut off or rests open. -/
theorem lexeme (hrests : Rests pending (c :: cs))
    (h : AtText spacing file base pieces pending (c :: cs) r) :
    ∃ after, r.scanWords = after.scanWords ∧
      (AtText spacing file base (pieces ++ [⟨.unresolved, pending⟩] ++ [(Scan.lexeme c cs).1]) []
          (Scan.lexeme c cs).2 after ∨
        ((Scan.lexeme c cs).1.kind = .unresolved ∧
          Rests (Scan.lexeme c cs).1.text (Scan.lexeme c cs).2 ∧
          AtText spacing file base (pieces ++ [⟨.unresolved, pending⟩]) (Scan.lexeme c cs).1.text
            (Scan.lexeme c cs).2 after)) := by
  rcases firstCharacter_cases c cs with
    hc | hc | ⟨hspace, hname, hc⟩ | ⟨hspace, hname, hstarts, hc⟩ | hc
  · rw [lexeme_of_space hc]
    obtain ⟨after, hscan, hafter⟩ := h.spaces hc
    exact ⟨after, hscan, Or.inl hafter⟩
  · have hempty : pending = [] := hrests.elim id fun hnone => absurd hc (by simp [hnone.2.2])
    subst hempty
    rw [lexeme_of_nameStart hc]
    obtain ⟨after, hscan, hafter⟩ := h.name hc
    exact ⟨after, hscan, Or.inl hafter.skip⟩
  · rw [lexeme_of_startsNumber hc]
    have hminus : '-' ∉ pending := by
      rcases hrests with rfl | ⟨hminus, -, -⟩
      · exact List.not_mem_nil
      · exact hminus
    by_cases hstart : isNumberStart c = true
    · obtain ⟨after, hscan, hafter⟩ := h.number hstart hminus
      exact ⟨after, hscan, Or.inl hafter⟩
    · -- The sign is read first, and stays open before its number.
      obtain ⟨rfl, d, ds, rfl, hd⟩ := exists_of_startsNumber hc hstart
      obtain ⟨opened, hscan, hopened⟩ := h.delimiter (by decide)
      have hclosed := hopened.closeDelimiter (by decide)
      rw [if_pos (Or.inr hc)] at hclosed
      obtain ⟨after, heq, hafter⟩ := hclosed.signed hd
      rw [numberTail_minus hd]
      exact ⟨after, hscan.trans heq, Or.inl hafter⟩
  · rw [lexeme_of_delimiter hspace hname hstarts hc]
    obtain ⟨opened, hscan, hopened⟩ := h.delimiter hc
    have hclosed := hopened.closeDelimiter (classes_of_isDelimiter hc).2.2
    refine ⟨_, hscan, ?_⟩
    by_cases hnil : cs = []
    · subst hnil
      rw [if_pos (Or.inl rfl)] at hclosed
      exact Or.inr ⟨rfl, trivial, hclosed⟩
    · rw [if_neg (by simp [hnil, hstarts])] at hclosed
      exact Or.inl hclosed
  · have hempty : pending = [] := hrests.elim id fun hnone => absurd hc (by simp [hnone.2.1])
    subst hempty
    rw [lexeme_of_other hc]
    obtain ⟨after, hscan, hafter | ⟨hrests, hafter⟩⟩ := h.other hc
    · exact ⟨after, hscan, Or.inl hafter.skip⟩
    · rw [← List.append_nil pieces] at hafter
      have hskip := hafter.skip
      rw [List.append_nil] at hskip
      exact ⟨after, hscan, Or.inr ⟨kind_other c cs, hrests, hskip⟩⟩

/-- **The scan of a source finds the lexemes of its text**, and leaves the source with the text. -/
theorem scanWords (hrests : Rests pending cs)
    (h : AtText spacing file base pieces pending cs r) :
    Ends spacing file base none
      (place spacing file base (pieces ++ [⟨.unresolved, pending⟩] ++ lexemes cs))
      (textOf pieces ++ pending ++ cs) (none, r.scanWords) := by
  fun_induction lexemes cs generalizing pieces pending r with
  | case1 =>
    obtain ⟨last, heq, hlast⟩ := At.scanWords_nil h
    have hholds := LawfulByteSource.holds_of_stands hlast.stands
    rw [List.append_nil, ← encode_append] at hholds
    rw [heq, List.append_nil, List.append_nil]
    exact ⟨rfl, hlast.spacing_eq, hlast.file_eq, hlast.base_eq,
      (Reads.close .unresolved hlast).tokens_eq, hholds⟩
  | case2 c cs ih =>
    obtain ⟨after, heq, hafter | ⟨hkind, hrests, hafter⟩⟩ := h.lexeme hrests
    · have hends := ih (rests_nil _) hafter
      rw [place_append_nil, textOf_concat, textOf_concat, List.append_nil] at hends
      rw [heq, List.append_cons]
      simpa [lexeme_append] using hends
    · have hends := ih hrests hafter
      rw [textOf_concat, List.append_assoc _ _ (Scan.lexeme c cs).2, lexeme_append] at hends
      have hpiece : (Scan.lexeme c cs).1 = ⟨.unresolved, (Scan.lexeme c cs).1.text⟩ := by
        rw [← hkind]
      rw [heq, List.append_cons, hpiece]
      exact hends

end AtText

/-- **A scan that is reset finds the lexemes of the text that its source holds**, wherever it has
come to before. -/
theorem ends_scanWords_reset {text : List Char}
    (h : LawfulByteSource.Holds r.source (encode text)) :
    Ends r.spacing r.file r.base none (place r.spacing r.file r.base (lexemes text)) text
      (none, r.reset.scanWords) := by
  have hat : AtText r.spacing r.file r.base [] [] text r.reset := At.reset h.rewind
  have hends := hat.scanWords (rests_nil text)
  rwa [List.nil_append, ← List.nil_append [_], place_append_nil] at hends

end LayoutLex.Scan.Reading
