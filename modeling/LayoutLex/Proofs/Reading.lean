import LayoutLex.Lexer
import LayoutLex.Proofs.Decoding
import LayoutLex.Proofs.Streams
import LayoutLex.Proofs.Unclosed

/-!
# Scanning while reading is scanning the text

The scan that reads a byte source finds the segments of the text that the source holds, however the
source gets hold of its bytes. `Reading.At` says where such a scan is: what tokens it has made of
the bytes before the open word, what the open word is and what is still to come. Every operation of
the scan moves it along the bytes, over lines not yet pulled and back again. `Reads` says the same
in characters: what pieces have been cut off, what text is open and what text is still to come. It
holds between words, where the scan is `Idle`: no mark is set, so every delimiter counts.

Results:
* `At.readLine`, `At.readTo_of_mem`, `At.readTo_of_not_mem`: what reading a word to its end does.
* `Reads.scan`: the scan of a source gives the fault and the tokens of the segments of its text.
* `ends_scan_reset`: so does a scan that is reset, whatever it has come to before.
* `Lexer.tokenizeSource_eq_lex`: lexing a source is lexing its text.
* `Lexer.tokenizeSource_ofLines`: lexing lines as they are pulled is lexing them as one text.
-/

namespace LayoutLex.Scan.Reading

open Text

variable {σ : Type} [ByteSource σ] [LawfulByteSource σ]

/-- The scan has made `tokens` of the bytes `done`, the open word is `word`, and the source stands
before `rest`. -/
structure At (spacing : Spacing) (file : String) (base : Nat) (tokens : List Token)
    (done word rest : List UInt8) (r : Reading σ) : Prop where
  spacing_eq : r.spacing = spacing
  file_eq : r.file = file
  base_eq : r.base = base
  tokens_eq : r.tokens = tokens
  word_eq : r.word.toList = word
  wordStart_eq : word ≠ [] → r.wordStart = done.length
  stands : LawfulByteSource.Stands r.source (done ++ word) rest

variable {spacing : Spacing} {file : String} {base : Nat} {tokens : List Token}
variable {done word rest bytes : List UInt8} {r : Reading σ}

theorem token?_nil (kind : TokenKind) (start : Nat) :
    (⟨kind, []⟩ : Piece).token? spacing file start = none := by
  cases spacing <;> rfl

/-! ## The marks -/

/-- Neither a comment nor a string is being read. -/
structure Idle (r : Reading σ) : Prop where
  inComment_eq : r.inComment = false
  inString_eq : r.inString = false

omit [LawfulByteSource σ]

theorem marks_readLine (r : Reading σ) :
    r.readLine.inComment = r.inComment ∧ r.readLine.inString = r.inString := by
  fun_induction readLine r with
  | case1 => exact ⟨rfl, rfl⟩
  | case2 => exact ⟨rfl, rfl⟩
  | case3 _ _ _ _ _ ih => exact ih

theorem marks_readTo (d : UInt8) (r : Reading σ) :
    (r.readTo d).2.inComment = r.inComment ∧ (r.readTo d).2.inString = r.inString := by
  fun_induction readTo d r with
  | case1 => exact ⟨rfl, rfl⟩
  | case2 => exact ⟨rfl, rfl⟩
  | case3 => exact ⟨rfl, rfl⟩
  | case4 _ _ _ _ _ _ _ ih => exact ih

omit [ByteSource σ] in
theorem Idle.moved (h : Idle r) (source : σ) : Idle { r with source := source } :=
  ⟨h.inComment_eq, h.inString_eq⟩

/-- The mark that is set when a word starts is cleared after it. -/
theorem Idle.leave {after : Reading σ} (h : Idle r) {d : UInt8}
    (hcomment : after.inComment = (r.enter d).inComment)
    (hstring : after.inString = (r.enter d).inString) : Idle (after.mark d false) := by
  by_cases hquote : isStringQuote (Char.ofUInt8 d) = true
  · have hkept : (r.enter d).inComment = r.inComment := if_pos hquote
    exact ⟨(if_pos hquote).trans (hcomment.trans (hkept.trans h.inComment_eq)), if_pos hquote⟩
  · have hkept : (r.enter d).inString = r.inString := if_neg hquote
    exact ⟨if_neg hquote, (if_neg hquote).trans (hstring.trans (hkept.trans h.inString_eq))⟩

variable [LawfulByteSource σ]

namespace At

/-- A scan that is reset is at the start of what its source holds. -/
theorem reset (h : LawfulByteSource.Stands (ByteSource.rewind r.source) [] rest) :
    At r.spacing r.file r.base [] [] [] rest r.reset :=
  ⟨rfl, rfl, rfl, rfl, rfl, fun hne => absurd rfl hne, h⟩

theorem marked (h : At spacing file base tokens done word rest r) (inComment inString : Bool) :
    At spacing file base tokens done word rest
      { r with inComment := inComment, inString := inString } :=
  ⟨h.spacing_eq, h.file_eq, h.base_eq, h.tokens_eq, h.word_eq, h.wordStart_eq, h.stands⟩

/-! ## Reading a byte -/

/-- The byte to come is read, and joins the open word. -/
theorem push {b : UInt8} {b? : Option UInt8} {after : σ}
    (h : At spacing file base tokens done word (b :: rest) r)
    (hread : ByteSource.next? r.source = (b?, after)) :
    b? = some b ∧
      At spacing file base tokens done (word ++ [b]) rest
        (({ r with source := after }).push b) := by
  obtain ⟨hbyte, hafter⟩ := LawfulByteSource.next_cons h.stands
  rw [hread] at hbyte hafter
  refine ⟨hbyte, ⟨h.spacing_eq, h.file_eq, h.base_eq, h.tokens_eq, ?_, fun _ => ?_, ?_⟩⟩
  · simp [Reading.push, h.word_eq]
  · have hposition := LawfulByteSource.position hafter
    have hword := h.word_eq
    by_cases hempty : r.word.isEmpty
    · rw [Array.isEmpty_iff.mp hempty] at hword
      subst hword
      simp [Reading.push, hempty, hposition]
    · have hne : word ≠ [] := by
        rintro rfl
        simp_all
      simp [Reading.push, hempty, h.wordStart_eq hne]
  · simpa [Reading.push] using hafter

/-- Looking for the end tells whether there is a byte to come. -/
theorem look {ended : Bool} {looked : σ} (h : At spacing file base tokens done word rest r)
    (hlook : ByteSource.atEnd r.source = (ended, looked)) :
    ended = rest.isEmpty ∧
      At spacing file base tokens done word rest { r with source := looked } := by
  obtain ⟨hend, hlooked⟩ := LawfulByteSource.atEnd h.stands
  rw [hlook] at hend hlooked
  exact ⟨hend, { h with stands := hlooked }⟩

/-- No byte is read where none is to come. -/
theorem next_nil {b? : Option UInt8} {after : σ} (h : At spacing file base tokens done word [] r)
    (hread : ByteSource.next? r.source = (b?, after)) :
    b? = none ∧ At spacing file base tokens done word [] { r with source := after } := by
  obtain ⟨hbyte, hafter⟩ := LawfulByteSource.next_nil h.stands
  rw [hread] at hbyte hafter
  exact ⟨hbyte, { h with stands := hafter }⟩

/-- Closing the open word makes a token of it. -/
theorem close (h : At spacing file base tokens done word rest r) (kind : TokenKind) :
    At spacing file base
      (tokens ++
        ((⟨kind, decodeLossy word⟩ : Piece).token? spacing file (base + done.length)).toList)
      (done ++ word) [] rest (r.close kind) := by
  refine ⟨h.spacing_eq, h.file_eq, h.base_eq, ?_, rfl, fun hne => absurd rfl hne, ?_⟩
  · simp only [Reading.close, text, h.spacing_eq, h.file_eq, h.base_eq, h.tokens_eq, h.word_eq]
    by_cases hne : word = []
    · simp [hne, decodeLossy, decodeUnits, token?_nil]
    · rw [h.wordStart_eq hne]
  · simpa [Reading.close] using h.stands

/-! ## Reading a word to its end -/

/-- A comment goes up to the next line break. -/
theorem readLine (hbytes : ∀ b ∈ bytes, isBreak (Char.ofUInt8 b) = false)
    (hrest : ∀ b ∈ rest.head?, isBreak (Char.ofUInt8 b) = true)
    (h : At spacing file base tokens done word (bytes ++ rest) r) :
    At spacing file base tokens done (word ++ bytes) rest r.readLine := by
  induction bytes generalizing word r with
  | nil =>
    rw [List.nil_append] at h
    rw [List.append_nil]
    unfold Reading.readLine
    split
    · next after hread =>
      cases rest with
      | nil => exact (h.next_nil hread).2
      | cons b rest => cases (h.push hread).1
    · next b after hread =>
      cases rest with
      | nil => cases (h.next_nil hread).1
      | cons d rest =>
        -- The line break has been read, and is given back.
        obtain ⟨hd, hafter⟩ := LawfulByteSource.next_cons h.stands
        rw [hread] at hd hafter
        cases hd
        rw [if_pos (hrest b rfl)]
        exact { h with stands := LawfulByteSource.back hafter }
  | cons b bytes ih =>
    unfold Reading.readLine
    split
    · next after hread => cases (h.push hread).1
    · next d after hread =>
      obtain ⟨hd, hpush⟩ := h.push hread
      cases hd
      rw [if_neg (by simp [hbytes b List.mem_cons_self])]
      have hline := ih (fun c hc => hbytes c (List.mem_cons_of_mem b hc)) hpush
      rwa [List.append_assoc] at hline

/-- Bytes other than the delimiter join the open word. -/
theorem exists_readTo_eq {d : UInt8} (hbytes : d ∉ bytes)
    (h : At spacing file base tokens done word (bytes ++ rest) r) :
    ∃ later, r.readTo d = later.readTo d ∧
      At spacing file base tokens done (word ++ bytes) rest later := by
  induction bytes generalizing word r with
  | nil => exact ⟨r, rfl, by rwa [List.append_nil]⟩
  | cons b bytes ih =>
    rw [Reading.readTo]
    split
    · next looked hlook => cases (h.look hlook).1
    · next looked hlook =>
      obtain ⟨-, hlooked⟩ := h.look hlook
      split
      · next after hread => cases (hlooked.push hread).1
      · next e after hread =>
        obtain ⟨he, hpush⟩ := hlooked.push hread
        cases he
        have hne : b ≠ d := fun heq => hbytes (heq ▸ List.mem_cons_self)
        rw [if_neg hne]
        have hlater := ih (fun hmem => hbytes (List.mem_cons_of_mem b hmem)) hpush
        rwa [List.append_assoc] at hlater

/-- A delimiter that is to come is read up to. -/
theorem readTo_of_mem {d : UInt8} (hbytes : d ∉ bytes)
    (h : At spacing file base tokens done word (bytes ++ d :: rest) r) :
    ∃ after, r.readTo d = (true, after) ∧
      At spacing file base tokens done (word ++ bytes ++ [d]) rest after := by
  obtain ⟨later, heq, hlater⟩ := exists_readTo_eq hbytes h
  rw [heq, Reading.readTo]
  split
  · next looked hlook => cases (hlater.look hlook).1
  · next looked hlook =>
    obtain ⟨-, hlooked⟩ := hlater.look hlook
    split
    · next after hread => cases (hlooked.push hread).1
    · next b after hread =>
      obtain ⟨hb, hpush⟩ := hlooked.push hread
      cases hb
      rw [if_pos rfl]
      exact ⟨_, rfl, hpush⟩

/-- Looking for a delimiter that is not to come reads to the end. -/
theorem readTo_of_not_mem {d : UInt8} (hbytes : d ∉ bytes)
    (h : At spacing file base tokens done word bytes r) :
    ∃ after, r.readTo d = (false, after) ∧
      At spacing file base tokens done (word ++ bytes) [] after := by
  rw [← List.append_nil bytes] at h
  obtain ⟨later, heq, hlater⟩ := exists_readTo_eq hbytes h
  rw [heq, Reading.readTo]
  split
  · next looked hlook => exact ⟨_, rfl, (hlater.look hlook).2⟩
  · next looked hlook => cases (hlater.look hlook).1

/-- When all has been read, the source can go back to the second byte of the open word. -/
theorem stands_back {b : UInt8} (h : At spacing file base tokens done (b :: bytes) [] r) :
    LawfulByteSource.Stands (ByteSource.back r.source (r.word.size - 1)) (done ++ [b]) bytes := by
  have hsize : r.word.size - 1 = bytes.length := by
    rw [← Array.length_toList, h.word_eq, List.length_cons, Nat.add_sub_cancel]
  have hend := h.stands
  rw [List.append_cons] at hend
  have hback := LawfulByteSource.back hend
  rwa [← hsize, List.append_nil] at hback

/-! ## The scan -/

/-- A scan with no byte to come closes the open word. -/
theorem scan_nil (h : At spacing file base tokens done word [] r) :
    ∃ last, r.scan = (none, last.close .unresolved) ∧
      At spacing file base tokens done word [] last := by
  rw [Reading.scan]
  split
  · next looked hlook => exact ⟨_, rfl, (h.look hlook).2⟩
  · next looked hlook => cases (h.look hlook).1

/-- A scan with a byte to come reads it, does what follows from it, and goes on. -/
theorem scan_cons {b : UInt8} (h : At spacing file base tokens done word (b :: rest) r) :
    ∃ looked source : σ,
      At spacing file base tokens done word (b :: rest) { r with source := looked } ∧
      ByteSource.next? looked = (some b, source) ∧
      (∀ after, step b { r with source := source } = (none, after) → r.scan = after.scan) ∧
      ∀ fault after, step b { r with source := source } = (some fault, after) →
        r.scan = (some fault, after) := by
  rw [Reading.scan]
  split
  · next looked hlook => cases (h.look hlook).1
  · next looked hlook =>
    obtain ⟨-, hlooked⟩ := h.look hlook
    split
    · next after hread => cases (hlooked.push hread).1
    · next e after hread =>
      obtain ⟨he, -⟩ := hlooked.push hread
      cases he
      refine ⟨_, after, hlooked, hread, fun next hstep => ?_, fun fault next hstep => ?_⟩
      · split
        · next hstep' => rw [hstep] at hstep'; cases hstep'
        · next hstep' => rw [hstep] at hstep'; cases hstep'; rfl
      · split
        · next hstep' => rw [hstep] at hstep'; cases hstep'; rfl
        · next hstep' => rw [hstep] at hstep'; cases hstep'

/-- Bytes of code join the open word. -/
theorem exists_scan_eq (hbytes : ∀ b ∈ bytes, isOpener (Char.ofUInt8 b) = false)
    (h : At spacing file base tokens done word (bytes ++ rest) r) :
    ∃ later, r.scan = later.scan ∧ At spacing file base tokens done (word ++ bytes) rest later ∧
      (Idle r → Idle later) := by
  induction bytes generalizing word r with
  | nil => exact ⟨r, rfl, by rwa [List.append_nil], id⟩
  | cons b bytes ih =>
    obtain ⟨looked, source, hlooked, hread, hnone, -⟩ := h.scan_cons
    have hb := hbytes b List.mem_cons_self
    rw [isOpener, Bool.or_eq_false_iff] at hb
    have hstep : step b { r with source := source } =
        (none, ({ r with source := source }).push b) := by
      simp [step, hb.1, hb.2]
    obtain ⟨later, heq, hlater, hidle⟩ := ih (fun c hc => hbytes c (List.mem_cons_of_mem b hc))
      (hlooked.push hread).2
    rw [List.append_assoc] at hlater
    exact ⟨later, (hnone _ hstep).trans heq, hlater, fun h => hidle ⟨h.1, h.2⟩⟩

end At

/-! ## The segments of a text -/

theorem isAscii_isBreak : IsAscii isBreak := by
  intro c hc
  rcases isBreak_iff.mp hc with rfl | rfl <;> decide

theorem isAscii_isOpener : IsAscii isOpener := by
  intro c hc
  rcases isOpener_iff.mp hc with rfl | rfl | rfl <;> decide

theorem textOf_concat (pieces : List Piece) (kind : TokenKind) (text : List Char) :
    textOf (pieces ++ [⟨kind, text⟩]) = textOf pieces ++ text := by
  simp [textOf]

/-- A piece without text makes no token. -/
theorem place_append_nil (a b : List Piece) (kind : TokenKind) :
    place spacing file base (a ++ [⟨kind, []⟩] ++ b) = place spacing file base (a ++ b) := by
  simp [place_append, place, token?_nil, textOf]

/-- The scan has cut off the pieces, the text `pending` is open and the text `rest` is to come. -/
structure Reads (spacing : Spacing) (file : String) (base : Nat) (pieces : List Piece)
    (pending rest : List Char) (r : Reading σ) : Prop where
  here : At spacing file base (place spacing file base pieces) (encode (textOf pieces))
    (encode pending) (encode rest) r
  idle : Idle r

/-- The scan of the text has come to its end with the fault, or with none, and has made the
tokens. -/
structure Ends (spacing : Spacing) (file : String) (base : Nat) (fault? : Option Fault)
    (tokens : List Token) (text : List Char) (last : Option Fault × Reading σ) : Prop where
  fault_eq : last.1 = fault?
  spacing_eq : last.2.spacing = spacing
  file_eq : last.2.file = file
  base_eq : last.2.base = base
  tokens_eq : last.2.tokens = tokens
  holds : LawfulByteSource.Holds last.2.source (encode text)

variable {pieces : List Piece} {pending cs : List Char}

namespace Reads

/-- Closing the open word cuts off one more piece. -/
theorem close (kind : TokenKind) (h : At spacing file base (place spacing file base pieces)
      (encode (textOf pieces)) (encode pending) rest r) :
    At spacing file base (place spacing file base (pieces ++ [⟨kind, pending⟩]))
      (encode (textOf (pieces ++ [⟨kind, pending⟩]))) [] rest (r.close kind) := by
  have hclose := h.close kind
  rw [decodeLossy_encode, length_encode, ← encode_append] at hclose
  rw [place_append, place_cons, place, List.append_nil]
  simpa [textOf] using hclose

/-- The byte to come closes the open word, which is one more piece, and starts another. -/
theorem enter {b : UInt8} {source : σ} (h : At spacing file base (place spacing file base pieces)
      (encode (textOf pieces)) (encode pending) (b :: rest) r)
    (hread : ByteSource.next? r.source = (some b, source)) :
    At spacing file base (place spacing file base (pieces ++ [⟨.unresolved, pending⟩]))
      (encode (textOf (pieces ++ [⟨.unresolved, pending⟩]))) [b] rest
      (({ r with source := source } : Reading σ).enter b) :=
  ((Reads.close .unresolved (h.marked _ _)).push hread).2

/-- A bar and what follows up to the end of its line are cut off as a comment. -/
theorem scan_line {body tail : List Char} (hbody : ∀ d ∈ body, isBreak d = false)
    (htail : ∀ d ∈ tail.head?, isBreak d = true)
    (h : Reads spacing file base pieces pending ('|' :: (body ++ tail)) r) :
    ∃ after, r.scan = after.scan ∧ Reads spacing file base
      (pieces ++ [⟨.unresolved, pending⟩] ++ [⟨.comment, '|' :: body⟩]) [] tail after := by
  have hbar : '|'.toNat < 128 := by decide
  obtain ⟨h, hidle⟩ := h
  rw [encode_cons_of_lt hbar, encode_append] at h
  obtain ⟨looked, source, hlooked, hread, hnone, -⟩ := h.scan_cons
  let begun : Reading σ := { r with source := source }
  have hline := (Reads.enter hlooked hread).readLine
    (fun b hb => not_of_mem_encode isAscii_isBreak hbody hb) (by
      intro b hb
      cases tail with
      | nil => cases hb
      | cons d tail =>
        have hd := htail d rfl
        rw [encode_cons_of_lt (isAscii_isBreak d hd)] at hb
        cases hb
        rwa [ofUInt8_toUInt8 (isAscii_isBreak d hd)])
  rw [List.singleton_append, ← encode_cons_of_lt hbar] at hline
  have hstep : step '|'.toUInt8 begun =
      (none, ((begun.enter '|'.toUInt8).readLine.close .comment).mark '|'.toUInt8 false) := by
    have hstring : begun.inString = false := hidle.inString_eq
    rw [step, if_pos (by decide), readComment, hstring]
    rfl
  have hmarks := marks_readLine (begun.enter '|'.toUInt8)
  exact ⟨_, hnone _ hstep, (Reads.close .comment hline).marked _ _,
    (hidle.moved source).leave hmarks.1 hmarks.2⟩

omit [LawfulByteSource σ] in
/-- What a quote does when nothing is being read. -/
theorem step_quoted {d : Char} (hquote : isQuote d = true) (h : Idle r) :
    step d.toUInt8 r =
      match (r.enter d.toUInt8).readTo d.toUInt8 with
      | (true, after) => (none, (after.close (quotedKind d)).mark d.toUInt8 false)
      | (false, after) =>
        let stopped := { after with source := ByteSource.back after.source (after.word.size - 1) }
        (some ⟨.unclosed d (String.ofList stopped.text),
          ⟨stopped.base + ByteSource.position stopped.source, stopped.file⟩⟩, stopped) := by
  have hd : d.toNat < 128 := isAscii_isOpener d (by simp [isOpener, hquote])
  rw [step, ofUInt8_toUInt8 hd, if_neg (not_isBar_of_isQuote hquote), if_pos hquote, readQuoted,
    h.inComment_eq, h.inString_eq, ofUInt8_toUInt8 hd]
  rfl

/-- A closed string or quoted comment is cut off. -/
theorem scan_quoted {d : Char} {body tail : List Char} (hquote : isQuote d = true)
    (hbody : d ∉ body)
    (h : Reads spacing file base pieces pending (d :: (body ++ d :: tail)) r) :
    ∃ after, r.scan = after.scan ∧
      Reads spacing file base
        (pieces ++ [⟨.unresolved, pending⟩] ++ [⟨quotedKind d, d :: (body ++ [d])⟩]) [] tail
        after := by
  have hd : d.toNat < 128 := isAscii_isOpener d (by simp [isOpener, hquote])
  obtain ⟨h, hidle⟩ := h
  rw [encode_cons_of_lt hd, encode_append, encode_cons_of_lt hd] at h
  obtain ⟨looked, source, hlooked, hread, hnone, -⟩ := h.scan_cons
  obtain ⟨after, hto, hafter⟩ :=
    (Reads.enter hlooked hread).readTo_of_mem (not_mem_encode hd hbody)
  have hword : [d.toUInt8] ++ encode body ++ [d.toUInt8] = encode (d :: (body ++ [d])) := by
    rw [encode_cons_of_lt hd, encode_append, encode_cons_of_lt hd]
    rfl
  rw [hword] at hafter
  have hstep := step_quoted hquote (hidle.moved source)
  have hmarks := marks_readTo d.toUInt8 (Reading.enter d.toUInt8 { r with source := source })
  rw [hto] at hstep hmarks
  exact ⟨_, hnone _ hstep, (Reads.close _ hafter).marked _ _,
    (hidle.moved source).leave hmarks.1 hmarks.2⟩

/-- A string or quoted comment that is never closed ends the scan. The source goes back to the byte
after the delimiter, so that is where the fault is. -/
theorem scan_unclosed {d : Char} {tail : List Char} (hquote : isQuote d = true) (htail : d ∉ tail)
    (h : Reads spacing file base pieces pending (d :: tail) r) :
    Ends spacing file base
      (some ⟨.unclosed d (String.ofList (d :: tail)),
        ⟨base + byteLength (textOf pieces ++ pending) + 1, file⟩⟩)
      (place spacing file base (pieces ++ [⟨.unresolved, pending⟩]))
      (textOf pieces ++ pending ++ d :: tail) r.scan := by
  have hd : d.toNat < 128 := isAscii_isOpener d (by simp [isOpener, hquote])
  obtain ⟨h, hidle⟩ := h
  rw [encode_cons_of_lt hd] at h
  obtain ⟨looked, source, hlooked, hread, -, hsome⟩ := h.scan_cons
  obtain ⟨after, hto, hafter⟩ :=
    (Reads.enter hlooked hread).readTo_of_not_mem (not_mem_encode hd htail)
  let stopped : Reading σ :=
    { after with source := ByteSource.back after.source (after.word.size - 1) }
  have htext : stopped.text = d :: tail := by
    rw [← decodeLossy_encode (d :: tail), encode_cons_of_lt hd]
    exact congrArg decodeLossy hafter.word_eq
  have hstands : LawfulByteSource.Stands stopped.source
      (encode (textOf pieces ++ pending) ++ [d.toUInt8]) (encode tail) := by
    rw [← textOf_concat pieces .unresolved]
    exact hafter.stands_back
  have hposition : ByteSource.position stopped.source =
      byteLength (textOf pieces ++ pending) + 1 := by
    rw [LawfulByteSource.position hstands, List.length_append, length_encode, List.length_singleton]
  have hholds := LawfulByteSource.holds_of_stands hstands
  rw [List.append_assoc, List.singleton_append, ← encode_cons_of_lt hd, ← encode_append] at hholds
  have hstep := step_quoted hquote (hidle.moved source)
  rw [hto] at hstep
  have hscan : r.scan = (some ⟨.unclosed d (String.ofList stopped.text),
      ⟨stopped.base + ByteSource.position stopped.source, stopped.file⟩⟩, stopped) :=
    hsome _ _ hstep
  rw [hscan, htext, hposition, Nat.add_assoc, hafter.base_eq, hafter.file_eq]
  exact ⟨rfl, hafter.spacing_eq, hafter.file_eq, hafter.base_eq, hafter.tokens_eq, hholds⟩

/-- **The scan of a source finds the segments of its text**, and leaves the source with the text. -/
theorem scan (h : Reads spacing file base pieces pending cs r)
    (hpending : pending = [] ∨ Stops (!isOpener ·) cs) :
    Ends spacing file base
      ((segments cs).fault? file (base + byteLength (textOf pieces ++ pending)))
      (place spacing file base (pieces ++ [⟨.unresolved, pending⟩] ++ (segments cs).pieces))
      (textOf pieces ++ pending ++ cs) r.scan := by
  fun_induction segments cs generalizing pieces pending r with
  | case1 =>
    obtain ⟨last, heq, hlast⟩ := h.here.scan_nil
    have hholds := LawfulByteSource.holds_of_stands hlast.stands
    rw [List.append_nil, ← encode_append] at hholds
    rw [heq, List.append_nil, List.append_nil]
    exact ⟨rfl, hlast.spacing_eq, hlast.file_eq, hlast.base_eq,
      (Reads.close .unresolved hlast).tokens_eq, hholds⟩
  | case2 c cs hbar ih =>
    have hline : cs.takeWhile (!isBreak ·) ++ cs.dropWhile (!isBreak ·) = cs :=
      List.takeWhile_append_dropWhile
    rw [isBar_iff.mp hbar, ← hline] at h
    obtain ⟨after, heq, hafter⟩ := h.scan_line (fun d hd => by simpa using mem_takeWhile hd)
      (fun d hd => by simpa using stops_dropWhile _ cs d hd)
    have hends := ih hafter (Or.inl rfl)
    rw [place_append_nil, textOf_concat, textOf_concat, List.append_nil] at hends
    rw [List.append_assoc _ _ (cs.dropWhile _), List.cons_append, hline] at hends
    rw [heq, Split.fault?_cons, isBar_iff.mp hbar]
    simpa [Nat.add_assoc] using hends
  | case3 c cs _ hquote hclosing =>
    rw [List.append_nil]
    exact h.scan_unclosed hquote (closing?_eq_none_iff.mp hclosing)
  | case4 c cs _ hquote text rest hclosing ih =>
    obtain ⟨body, hbody, rfl, rfl⟩ := exists_body_of_closing? hclosing
    obtain ⟨after, heq, hafter⟩ := h.scan_quoted hquote hbody
    have hends := ih hafter (Or.inl rfl)
    rw [place_append_nil, textOf_concat, textOf_concat, List.append_nil] at hends
    rw [heq, Split.fault?_cons]
    simpa [Nat.add_assoc] using hends
  | case5 c cs hbar hquote ih =>
    have hopener : isOpener c = false := by simp [isOpener, hbar, hquote]
    have hempty : pending = [] := by
      rcases hpending with hempty | hstops
      · exact hempty
      · have hc := stops_cons.mp hstops
        simp [hopener] at hc
    subst hempty
    have hrun : ∀ d ∈ c :: cs.takeWhile (!isOpener ·), isOpener d = false := by
      intro d hd
      rcases List.mem_cons.mp hd with rfl | hd
      · exact hopener
      · simpa using mem_takeWhile hd
    have hsplit : c :: cs = c :: cs.takeWhile (!isOpener ·) ++ cs.dropWhile (!isOpener ·) := by
      rw [List.cons_append, List.takeWhile_append_dropWhile]
    obtain ⟨hhere, hidle⟩ := h
    rw [hsplit, encode_append] at hhere
    obtain ⟨later, heq, hlater, hlateridle⟩ := hhere.exists_scan_eq
      (fun b hb => not_of_mem_encode isAscii_isOpener hrun hb)
    have hends := ih ⟨hlater, hlateridle hidle⟩ (Or.inr (stops_dropWhile _ cs))
    rw [← List.append_cons, List.append_assoc _ _ (cs.dropWhile _), ← hsplit] at hends
    rw [heq, Split.fault?_cons, Split.pieces_cons, place_append_nil, List.append_nil,
      Nat.add_assoc, ← byteLength_append]
    exact hends

end Reads

/-- **A scan that is reset finds the segments of the text that its source holds**, wherever it has
come to before: how far the source has been read, what word is open and which marks are set makes no
difference. -/
theorem ends_scan_reset {text : List Char}
    (h : LawfulByteSource.Holds r.source (encode text)) :
    Ends r.spacing r.file r.base ((segments text).fault? r.file r.base)
      (place r.spacing r.file r.base (segments text).pieces) text r.reset.scan := by
  have hreads : Reads r.spacing r.file r.base [] [] text r.reset := ⟨At.reset h.rewind, rfl, rfl⟩
  have hends := hreads.scan (Or.inl rfl)
  rwa [List.nil_append, ← List.nil_append [_], place_append_nil] at hends

/-- The tokens of a source asked for the first time are those of its segments. -/
theorem tokens_eq {source : σ} {text : List Char}
    (h : LawfulByteSource.Stands source [] (encode text)) (spacing : Spacing) (file : String)
    (base : Nat) :
    (Scanner.start .first source spacing file base).tokens.1 =
      match (segments text).fault? file base with
      | some fault => .error fault
      | none => .ok (place spacing file base (segments text).pieces) := by
  have hends := ends_scan_reset (r := start source spacing file base)
    (LawfulByteSource.holds_of_stands h)
  have hfault : (Scanner.start .first source spacing file base).scan.1 =
      (segments text).fault? file base := hends.fault_eq
  have hcollected : (Scanner.start .first source spacing file base).scan.2.collected =
      place spacing file base (segments text).pieces := hends.tokens_eq
  unfold Scanner.tokens
  split
  · next hfinished => cases hfinished
  · rw [← hfault, ← hcollected]
    split
    · next heq => rw [heq]
    · next heq => rw [heq]

end LayoutLex.Scan.Reading

/-! ## Lexing a source -/

namespace LayoutLex.Lexer

open Text Scan

/-- **Lexing a source is lexing the text it holds.** -/
theorem tokenizeSource_eq_lex {σ : Type} [ByteSource σ] [LawfulByteSource σ] {source : σ}
    {text : List Char} (h : LawfulByteSource.Stands source [] (encode text)) (lexer : Lexer)
    (file? : Option String) :
    lexer.tokenizeSource source file? = lexer.lex text (file?.getD defaultFile) := by
  simp only [tokenizeSource, lex, Reading.tokens_eq h]
  cases (segments text).fault? (file?.getD defaultFile) 0 with
  | some fault => rfl
  | none => rfl

/-- **Lines may be lexed as they come.** Reading lines on demand gives the tokens, or the fault, of
the one text in which every line has a line break after it, whether that text is read through a
source of its own or not. -/
theorem tokenizeSource_ofLines (lexer : Lexer) (lines : List String) (file? : Option String) :
    let source := String.join (lines.map (· ++ "\n"))
    lexer.tokenizeSource (LineSource.ofLines (lines.map String.toList)) file? =
        lexer.tokenize source file? ∧
      lexer.tokenizeSource (TextSource.ofText source.toList) file? =
        lexer.tokenize source file? := by
  intro source
  have htext : source.toList = (lines.map String.toList).flatMap (· ++ ['\n']) := by
    rw [String.toList_join, List.flatMap_map, List.flatMap_map]
    exact congrArg (List.flatMap · lines) (funext fun _ => String.toList_append)
  constructor
  · refine tokenizeSource_eq_lex ?_ lexer file?
    rw [htext]
    exact LineSource.stands_ofLines _
  · exact tokenizeSource_eq_lex (TextSource.stands_ofText _) lexer file?

end LayoutLex.Lexer
