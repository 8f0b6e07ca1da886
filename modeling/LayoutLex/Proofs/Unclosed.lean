import LayoutLex.Proofs.Lexing
import Mathlib.Logic.Relation

/-!
# When lexing fails

A source is faulty exactly when reading it from the left comes to a string or quoted comment that
is never closed. `Past` is one step of that reading, said without the scan: past a character of
code, past a comment up to the end of its line, or past a closed string or quoted comment.

Results:
* `closing?_eq_none_iff`, `exists_body_of_closing?`: what looking for the closing delimiter finds.
* `unclosed?_of_past`: a step does not change where the scan ends.
* `unclosed?_segments_iff`: the scan ends at an open delimiter exactly when reading comes to it.
* `tokenize_eq_error_iff`: the faults of a source, and their texts and places.
-/

namespace LayoutLex

open Text

namespace Scan

open Relation (ReflTransGen)

/-- A source is read past some of its text, with `rest` left to read. -/
inductive Past : List Char → List Char → Prop
  | code {c : Char} {rest : List Char} (hbar : c ≠ '|') (hstring : c ≠ '\x22')
      (hcomment : c ≠ '\x60') : Past (c :: rest) rest
  | line {body rest : List Char} (hbody : ∀ c ∈ body, c ≠ '\r' ∧ c ≠ '\n')
      (hrest : ∀ c ∈ rest.head?, c = '\r' ∨ c = '\n') : Past ('|' :: (body ++ rest)) rest
  | closed {d : Char} {body rest : List Char} (hquote : d = '\x22' ∨ d = '\x60')
      (hbody : d ∉ body) : Past (d :: (body ++ d :: rest)) rest

/-! ## The classes of characters -/

theorem isBar_iff {c : Char} : isBar c = true ↔ c = '|' := by
  simp [isBar]

theorem isQuote_iff {c : Char} : isQuote c = true ↔ c = '\x22' ∨ c = '\x60' := by
  simp [isQuote, isStringQuote, isCommentQuote]

theorem isOpener_iff {c : Char} : isOpener c = true ↔ c = '|' ∨ c = '\x22' ∨ c = '\x60' := by
  rw [isOpener, Bool.or_eq_true, isBar_iff, isQuote_iff]

theorem isBreak_iff {c : Char} : isBreak c = true ↔ c = '\r' ∨ c = '\n' := by
  simp [isBreak]

theorem quotedKind_ne_unresolved (c : Char) : quotedKind c ≠ .unresolved := by
  unfold quotedKind
  split <;> decide

theorem quotedKind_ne_spaces (c : Char) : quotedKind c ≠ .spaces := by
  unfold quotedKind
  split <;> decide

theorem not_isBar_of_isQuote {c : Char} (h : isQuote c = true) : ¬ isBar c = true := by
  rw [isBar_iff]
  rintro rfl
  exact absurd h (by decide)

/-! ## Looking for the closing delimiter -/

theorem closing?_eq_none_iff {d : Char} {cs : List Char} : closing? d cs = none ↔ d ∉ cs := by
  induction cs with
  | nil => simp [closing?]
  | cons c cs ih =>
    unfold closing?
    by_cases h : c = d
    · simp [h]
    · rw [if_neg h, Option.map_eq_none_iff, ih, List.mem_cons]
      have hne : ¬ d = c := fun heq => h heq.symm
      simp [hne]

theorem closing?_append_cons {d : Char} {body : List Char} (h : d ∉ body) (rest : List Char) :
    closing? d (body ++ d :: rest) = some (body ++ [d], rest) := by
  induction body with
  | nil => simp [closing?]
  | cons c body ih =>
    have hne : c ≠ d := fun heq => h (heq ▸ List.mem_cons_self)
    rw [List.cons_append, closing?, if_neg hne, ih fun hmem => h (List.mem_cons_of_mem c hmem)]
    rfl

theorem exists_body_of_closing? {d : Char} {cs text rest : List Char}
    (h : closing? d cs = some (text, rest)) :
    ∃ body, d ∉ body ∧ text = body ++ [d] ∧ cs = body ++ d :: rest := by
  by_cases hmem : d ∈ cs
  · obtain ⟨body, after, rfl, hbody⟩ := List.eq_append_cons_of_mem hmem
    rw [closing?_append_cons hbody] at h
    cases h
    exact ⟨body, hbody, rfl, rfl⟩
  · rw [closing?_eq_none_iff.mpr hmem] at h
    cases h

/-! ## The scan of each kind of segment -/

theorem segments_line {c : Char} (hbar : isBar c = true) (cs : List Char) :
    segments (c :: cs) = (segments (cs.dropWhile (!isBreak ·))).cons
      ⟨.comment, c :: cs.takeWhile (!isBreak ·)⟩ := by
  rw [segments, if_pos hbar]

theorem segments_code {c : Char} (hcode : isOpener c = false) (cs : List Char) :
    segments (c :: cs) = (segments (cs.dropWhile (!isOpener ·))).cons
      ⟨.unresolved, c :: cs.takeWhile (!isOpener ·)⟩ := by
  rw [isOpener, Bool.or_eq_false_iff] at hcode
  rw [segments, if_neg (by simp [hcode.1]), if_neg (by simp [hcode.2])]

theorem segments_closed {d : Char} (hquote : isQuote d = true) {body : List Char} (hbody : d ∉ body)
    (rest : List Char) :
    segments (d :: (body ++ d :: rest)) =
      (segments rest).cons ⟨quotedKind d, d :: (body ++ [d])⟩ := by
  rw [segments, if_neg (not_isBar_of_isQuote hquote), if_pos hquote]
  have hclosing := closing?_append_cons hbody rest
  split
  · next hnone => rw [hclosing] at hnone; cases hnone
  · next hsome => rw [hclosing] at hsome; cases hsome; rfl

theorem segments_unclosed {d : Char} (hquote : isQuote d = true) {rest : List Char}
    (hrest : d ∉ rest) : segments (d :: rest) = ⟨[], some ⟨d, rest⟩⟩ := by
  rw [segments, if_neg (not_isBar_of_isQuote hquote), if_pos hquote]
  have hclosing := closing?_eq_none_iff.mpr hrest
  split
  · rfl
  · next hsome => rw [hclosing] at hsome; cases hsome

/-- A source without openers is one segment, unless it is empty. -/
theorem segments_of_code {cs : List Char} (h : ∀ c ∈ cs, isOpener c = false) :
    segments cs = ⟨if cs = [] then [] else [⟨.unresolved, cs⟩], none⟩ := by
  cases cs with
  | nil => rw [segments, if_pos rfl]
  | cons c cs =>
    have hrest : ∀ d ∈ cs, (!isOpener d) = true := by
      intro d hd
      rw [h d (List.mem_cons_of_mem c hd)]
      rfl
    have htake := takeWhile_append_of_stops hrest stops_nil
    have hdrop := dropWhile_append_of_stops hrest stops_nil
    rw [List.append_nil] at htake hdrop
    rw [segments_code (h c List.mem_cons_self), htake, hdrop, segments,
      if_neg (List.cons_ne_nil c cs)]
    rfl

/-- Where the scan of code ends does not depend on where it starts. -/
theorem unclosed?_segments_dropWhile (cs : List Char) :
    (segments (cs.dropWhile (!isOpener ·))).unclosed? = (segments cs).unclosed? := by
  cases cs with
  | nil => rfl
  | cons c cs =>
    cases hc : isOpener c with
    | true => rw [List.dropWhile_cons_of_neg (by simp [hc])]
    | false => rw [List.dropWhile_cons_of_pos (by simp [hc]), segments_code hc, Split.cons]

/-! ## Where the scan ends -/

/-- **A step of reading does not change where the scan ends.** -/
theorem unclosed?_of_past {cs rest : List Char} (h : Past cs rest) :
    (segments cs).unclosed? = (segments rest).unclosed? := by
  cases h with
  | @code c _ hbar hstring hcomment =>
    have hc : isOpener c = false := by
      rw [Bool.eq_false_iff]
      intro h
      rcases isOpener_iff.mp h with h | h | h
      · exact hbar h
      · exact hstring h
      · exact hcomment h
    rw [segments_code hc, Split.cons, unclosed?_segments_dropWhile]
  | @line body rest hbody hrest =>
    have hrun : ∀ c ∈ body, (!isBreak c) = true := by
      intro c hc
      simp [isBreak, hbody c hc]
    have hstops : Stops (!isBreak ·) rest := by
      intro c hc
      simp [isBreak_iff.mpr (hrest c hc)]
    rw [segments_line rfl, Split.cons, dropWhile_append_of_stops hrun hstops]
  | closed hquote hbody => rw [segments_closed (isQuote_iff.mpr hquote) hbody, Split.cons]

theorem unclosed?_of_reaches {cs rest : List Char} (h : ReflTransGen Past cs rest) :
    (segments cs).unclosed? = (segments rest).unclosed? := by
  induction h with
  | refl => rfl
  | tail _ hpast ih => rw [ih, unclosed?_of_past hpast]

/-- Code is read past one character at a time. -/
theorem reaches_of_code {run : List Char} (hrun : ∀ c ∈ run, isOpener c = false)
    (rest : List Char) : ReflTransGen Past (run ++ rest) rest := by
  induction run with
  | nil => exact .refl
  | cons c run ih =>
    have hc : ¬ (c = '|' ∨ c = '\x22' ∨ c = '\x60') := by
      rw [← isOpener_iff, hrun c List.mem_cons_self]
      exact Bool.false_ne_true
    have hpast : Past (c :: (run ++ rest)) (run ++ rest) :=
      .code (fun h => hc (Or.inl h)) (fun h => hc (Or.inr (Or.inl h)))
        (fun h => hc (Or.inr (Or.inr h)))
    exact .head hpast (ih fun d hd => hrun d (List.mem_cons_of_mem c hd))

/-- Where the scan ends is reached by reading. -/
theorem reaches_of_unclosed? {cs : List Char} {u : Unclosed}
    (h : (segments cs).unclosed? = some u) :
    ReflTransGen Past cs (u.delimiter :: u.rest) ∧ isQuote u.delimiter = true ∧
      u.delimiter ∉ u.rest := by
  fun_induction segments cs with
  | case1 => cases h
  | case2 c cs hbar ih =>
    obtain ⟨hreach, hquote⟩ := ih h
    refine ⟨.head ?_ hreach, hquote⟩
    have hline : Past ('|' :: (cs.takeWhile (!isBreak ·) ++ cs.dropWhile (!isBreak ·)))
        (cs.dropWhile (!isBreak ·)) := by
      refine .line (fun d hd => ?_) fun d hd => ?_
      · have hbreak := mem_takeWhile hd
        simpa [isBreak] using hbreak
      · have hstop := stops_dropWhile (!isBreak ·) cs d hd
        exact isBreak_iff.mp (by simpa using hstop)
    rwa [List.takeWhile_append_dropWhile, ← isBar_iff.mp hbar] at hline
  | case3 c cs _ hquote hclosing =>
    cases h
    exact ⟨.refl, hquote, closing?_eq_none_iff.mp hclosing⟩
  | case4 c cs _ hquote text rest hclosing ih =>
    obtain ⟨hreach, hopen⟩ := ih h
    obtain ⟨body, hbody, -, rfl⟩ := exists_body_of_closing? hclosing
    exact ⟨.head (.closed (isQuote_iff.mp hquote) hbody) hreach, hopen⟩
  | case5 c cs hbar hquote ih =>
    obtain ⟨hreach, hopen⟩ := ih h
    have hrun : ∀ d ∈ c :: cs.takeWhile (!isOpener ·), isOpener d = false := by
      intro d hd
      rcases List.mem_cons.mp hd with rfl | hd
      · simpa [isOpener] using And.intro hbar hquote
      · simpa using mem_takeWhile hd
    have hcode := reaches_of_code hrun (cs.dropWhile (!isOpener ·))
    rw [List.cons_append, List.takeWhile_append_dropWhile] at hcode
    exact ⟨hcode.trans hreach, hopen⟩

/-- **The scan ends at an open delimiter exactly when reading comes to it.** -/
theorem unclosed?_segments_iff {cs : List Char} {d : Char} {rest : List Char} :
    (segments cs).unclosed? = some ⟨d, rest⟩ ↔
      ReflTransGen Past cs (d :: rest) ∧ (d = '\x22' ∨ d = '\x60') ∧ d ∉ rest := by
  constructor
  · intro h
    obtain ⟨hreach, hquote, hrest⟩ := reaches_of_unclosed? h
    exact ⟨hreach, isQuote_iff.mp hquote, hrest⟩
  · rintro ⟨hreach, hquote, hrest⟩
    rw [unclosed?_of_reaches hreach, segments_unclosed (isQuote_iff.mpr hquote) hrest]

/-- The fault of a source is at its open delimiter, wherever the source is taken to start. -/
theorem fault?_segments_eq_some_iff {cs : List Char} {file : String} {start : Nat} {fault : Fault} :
    (segments cs).fault? file start = some fault ↔
      ∃ before d rest, cs = before ++ d :: rest ∧ (segments cs).unclosed? = some ⟨d, rest⟩ ∧
        fault =
          ⟨.unclosed d (String.ofList (d :: rest)), ⟨start + byteLength before + 1, file⟩⟩ := by
  have htext := text_segments cs
  unfold Split.text at htext
  unfold Split.fault?
  rw [Option.map_eq_some_iff]
  constructor
  · rintro ⟨u, hu, rfl⟩
    rw [hu] at htext
    exact ⟨textOf (segments cs).pieces, u.delimiter, u.rest, htext.symm, hu, rfl⟩
  · rintro ⟨before, d, rest, hcs, hu, rfl⟩
    refine ⟨⟨d, rest⟩, hu, ?_⟩
    rw [hu, Option.elim_some, hcs] at htext
    rw [hcs, List.append_cancel_right htext]

end Scan

namespace Lexer

/-- **What makes a source faulty.** Reading it from the left comes to a double quote or backquote
that does not occur again; the fault shows the source from there on and stands just after the
delimiter. No token is ever a misfit. -/
theorem tokenize_eq_error_iff (lexer : Lexer) (source : String) (file? : Option String)
    (fault : Fault) :
    (lexer.tokenize source file? = .error fault ↔
      ∃ before d rest, source.toList = before ++ d :: rest ∧
        Relation.ReflTransGen Scan.Past source.toList (d :: rest) ∧ (d = '\x22' ∨ d = '\x60') ∧
        d ∉ rest ∧
        fault = ⟨.unclosed d (String.ofList (d :: rest)),
          ⟨byteLength before + 1, file?.getD "shell"⟩⟩) ∧
    ∀ token position, lexer.tokenize source file? ≠ .error ⟨.misfit token, position⟩ := by
  have hiff : ∀ fault, lexer.tokenize source file? = .error fault ↔
      (Scan.segments source.toList).fault? (file?.getD defaultFile) 0 = some fault := by
    intro fault
    rw [tokenize, lex_eq]
    cases (Scan.segments source.toList).fault? (file?.getD defaultFile) 0 with
    | none => simp
    | some found => simp
  refine ⟨?_, ?_⟩
  · rw [hiff, Scan.fault?_segments_eq_some_iff]
    simp only [Scan.unclosed?_segments_iff, Nat.zero_add, defaultFile, and_assoc]
  · intro token position h
    rw [hiff, Scan.fault?_segments_eq_some_iff] at h
    obtain ⟨_, _, _, _, _, heq⟩ := h
    cases heq

end Lexer

end LayoutLex
