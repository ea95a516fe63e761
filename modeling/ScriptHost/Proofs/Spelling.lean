import ScriptHost.Proofs.CallText

/-!
# Lexing inverts spelling

A token can be spelled in one or several ways, and between two tokens there can stand any mixture
of blanks and comments that begins with a blank. Whatever the tokens, their spellings and the
separators are, the text made of them is read as exactly those tokens, each with the line on which
its first character stands.
-/

namespace ScriptHost
namespace Script

/-! ## Spellings -/

/-- A row of decimal digits, at least one of them. -/
structure Digits where
  first : Char
  others : List Char
  isDigit_first : Number.isDigit first = true
  isDigit_others : ∀ c ∈ others, Number.isDigit c = true

def Digits.chars (ds : Digits) : List Char :=
  ds.first :: ds.others

/-- A token as it can be written. -/
inductive Spelling
  | keyword (k : Keyword)
  | symbol (s : Symbol)
  | name (x : String) (h : IsIdentifier x)
  | whole (ds : Digits)
  | decimal (ds fraction : Digits)
  | literal (parts : List BodyPart)

namespace Spelling

/-- How the token is written. -/
def text : Spelling → List Char
  | keyword k => k.spelling.toList
  | symbol s => s.spelling.toList
  | name x _ => x.toList
  | whole ds => ds.chars
  | decimal ds fraction => ds.chars ++ '.' :: fraction.chars
  | literal parts => '"' :: (parts.flatMap BodyPart.written ++ ['"'])

/-- Which token it is. -/
def token : Spelling → Token
  | keyword k => .keyword k
  | symbol s => .symbol s
  | name x _ => .ident x
  | whole ds => .number (Lexer.numeralValue ds.chars [])
  | decimal ds fraction => .number (Lexer.numeralValue ds.chars fraction.chars)
  | literal parts => .text (String.ofList (parts.map BodyPart.meant))

end Spelling

/-! ## Separators -/

/-- What may stand between two tokens. -/
inductive Blank
  | space
  | tab
  | carriageReturn
  | lineFeed
  deriving DecidableEq

def Blank.char : Blank → Char
  | space => ' '
  | tab => '\t'
  | carriageReturn => '\r'
  | lineFeed => '\n'

/-- What a comment says, on its one line. -/
structure Remark where
  chars : List Char
  oneLine : '\n' ∉ chars

/-- A blank, or a comment that begins behind one. -/
inductive Filler
  | blank (b : Blank)
  | comment (r : Remark)

/-- A comment includes the line feed that closes it. -/
def Filler.text : Filler → List Char
  | blank b => [b.char]
  | comment r => '/' :: '/' :: (r.chars ++ ['\n'])

/-- A comment does not stand directly behind a token, where its slash might belong to that. -/
structure Separator where
  first : Blank
  others : List Filler

def Separator.text (sep : Separator) : List Char :=
  sep.first.char :: sep.others.flatMap Filler.text

/-! ## Texts -/

/-- What stands behind the last separator. -/
inductive Ending
  | nothing
  /-- the text ends with this token -/
  | token (s : Spelling)
  /-- the text ends within this comment -/
  | comment (r : Remark)

namespace Ending

def text : Ending → List Char
  | nothing => []
  | token s => s.text
  | comment r => '/' :: '/' :: r.chars

/-- The token there, if the characters before it are those. -/
def located (before : List Char) : Ending → List Located
  | token s => [⟨s.token, 1 + before.count '\n'⟩]
  | _ => []

end Ending

/-- A text in pieces: what stands before the first token, then tokens with the separator behind
each, and the end. -/
structure Layout where
  opening : List Filler
  entries : List (Spelling × Separator)
  ending : Ending

def entryText (entry : Spelling × Separator) : List Char :=
  entry.1.text ++ entry.2.text

/-- The tokens behind the characters `before`: each is on line one and as many further lines as
there are line feeds anywhere before its first character. -/
def locatedAfter (before : List Char) : List (Spelling × Separator) → Ending → List Located
  | [], ending => ending.located before
  | entry :: entries, ending =>
      ⟨entry.1.token, 1 + before.count '\n'⟩ ::
        locatedAfter (before ++ entryText entry) entries ending

namespace Layout

/-- The whole text. -/
def text (l : Layout) : List Char :=
  l.opening.flatMap Filler.text ++ (l.entries.flatMap entryText ++ l.ending.text)

/-- Its tokens, each with its line. -/
def located (l : Layout) : List Located :=
  locatedAfter (l.opening.flatMap Filler.text) l.entries l.ending

end Layout

/-! ## One token -/

/-- The text is over, or a blank is next. -/
def AtGap (rest : List Char) : Prop :=
  ∀ c, rest.head? = some c → Lexer.isBlank c = true

theorem atGap_nil : AtGap [] := nofun

theorem isBlank_char (b : Blank) : Lexer.isBlank b.char = true := by
  cases b <;> decide

/-- A separator begins with a gap. -/
theorem atGap_separator (sep : Separator) (rest : List Char) : AtGap (sep.text ++ rest) := by
  intro c hc
  cases hc
  exact isBlank_char sep.first

section OneToken

variable {rest : List Char}

/-- A class of characters without blanks ends where the gap is. -/
theorem takeWhile_eq_of_atGap {p : Char → Bool} {body : List Char} (h : AtGap rest)
    (hp : ∀ c, Lexer.isBlank c = true → p c = false) (hbody : ∀ c ∈ body, p c = true) :
    (body ++ rest).takeWhile p = body := by
  rw [List.takeWhile_append_of_pos hbody]
  cases rest with
  | nil => simp
  | cons c rest => simp [hp c (h c rfl)]

theorem isNamePart_of_isBlank (c : Char) (h : Lexer.isBlank c = true) :
    Lexer.isNamePart c = false := by
  simp only [Lexer.isBlank, Bool.or_eq_true, beq_iff_eq] at h
  rcases h with ((rfl | rfl) | rfl) | rfl <;> decide

theorem isDigit_of_isBlank (c : Char) (h : Lexer.isBlank c = true) :
    Number.isDigit c = false := by
  have hpart := isNamePart_of_isBlank c h
  rw [Lexer.isNamePart, Bool.or_eq_false_iff] at hpart
  exact hpart.2

/-- The characters are read as that token, up to the end of the text or a blank. -/
def IsRead (s : Spelling) : Prop :=
  ∀ rest, AtGap rest → ∃ c tail, s.text = c :: tail ∧
    Lexer.next c (tail ++ rest) = (.token s.token, tail.length)

/-- A keyword that is spelled is read as the keyword. -/
theorem word_of_keyword (k : Keyword) : Lexer.word k.spelling = .keyword k := by
  cases k <;> decide

/-- Keywords look like names. -/
theorem keyword_isWord (k : Keyword) : ∃ c cs, k.spelling.toList = c :: cs ∧
    Lexer.isNameStart c = true ∧ ∀ d ∈ cs, Lexer.isNamePart d = true := by
  cases k <;> exact ⟨_, _, rfl, by decide, List.all_eq_true.1 (by decide)⟩

theorem isRead_keyword (k : Keyword) : IsRead (.keyword k) := by
  intro rest hrest
  rcases keyword_isWord k with ⟨c, cs, hname, hstart, hparts⟩
  have hnext := next_word hname hstart hparts fun d hd => isNamePart_of_isBlank d (hrest d hd)
  rw [word_of_keyword] at hnext
  exact ⟨c, cs, hname, hnext⟩

/-- Identifiers are read back. -/
theorem isRead_name {x : String} (h : IsIdentifier x) : IsRead (.name x h) := by
  intro rest hrest
  rcases h.chars with ⟨c, cs, hname, hstart, hparts⟩
  have hnext := next_word hname hstart hparts fun d hd => isNamePart_of_isBlank d (hrest d hd)
  have hword : Lexer.word x = .ident x := by
    rw [Lexer.word, h.notKeyword]
  rw [hword] at hnext
  exact ⟨c, cs, hname, hnext⟩

/-- Symbols are read back, also those that begin like others. -/
theorem isRead_symbol (s : Symbol) : IsRead (.symbol s) := by
  intro rest hrest
  have hcases : rest = [] ∨ ∃ c cs, rest = c :: cs ∧
      (c = ' ' ∨ c = '\t' ∨ c = '\r' ∨ c = '\n') := by
    cases rest with
    | nil => exact .inl rfl
    | cons c cs =>
        have hc := hrest c rfl
        simp only [Lexer.isBlank, Bool.or_eq_true, beq_iff_eq, or_assoc] at hc
        exact .inr ⟨c, cs, rfl, hc⟩
  -- a gap is neither the second character of a symbol nor the beginning of a comment
  rcases hcases with rfl | ⟨c, cs, rfl, rfl | rfl | rfl | rfl⟩ <;> cases s <;>
    exact ⟨_, _, rfl, rfl⟩

/-! ### Numerals -/

/-- What begins with a digit is a numeral. -/
theorem next_digits (ds : Digits) (rest : List Char) :
    Lexer.next ds.first rest = Lexer.numeral ds.first rest := by
  have hfirst := ds.isDigit_first
  have hblank : Lexer.isBlank ds.first = false := by
    rw [Bool.eq_false_iff]
    intro hblank
    rw [isDigit_of_isBlank _ hblank] at hfirst
    cases hfirst
  have hstart : Lexer.isNameStart ds.first = false := by
    simp only [Number.isDigit, Bool.and_eq_true, decide_eq_true_eq, Char.le_def,
      UInt32.le_iff_toNat_le] at hfirst
    simp only [Lexer.isNameStart, Bool.or_eq_false_iff, Bool.and_eq_false_iff,
      decide_eq_false_iff_not, beq_eq_false_iff_ne, Char.le_def, UInt32.le_iff_toNat_le]
    refine ⟨⟨.inl ?_, .inl ?_⟩, ?_⟩
    · exact fun h => absurd (Nat.le_trans h hfirst.2) (by decide)
    · exact fun h => absurd (Nat.le_trans h hfirst.2) (by decide)
    · intro h
      rw [h] at hfirst
      exact absurd hfirst.2 (by decide)
  unfold Lexer.next
  rw [if_neg (by simp [hblank]), if_neg (by simp [hstart]), if_pos hfirst]

/-- Numerals without a fraction are read back. -/
theorem isRead_whole (ds : Digits) : IsRead (.whole ds) := by
  intro rest hrest
  have htake := takeWhile_eq_of_atGap hrest isDigit_of_isBlank ds.isDigit_others
  refine ⟨ds.first, ds.others, rfl, ?_⟩
  rw [next_digits, Lexer.numeral]
  simp only [htake, List.drop_left]
  split
  · -- a point is no blank
    exact absurd (hrest '.' rfl) (by decide)
  · rfl

theorem isRead_decimal (ds fraction : Digits) : IsRead (.decimal ds fraction) := by
  intro rest hrest
  have hwhole : (ds.others ++ '.' :: (fraction.chars ++ rest)).takeWhile Number.isDigit =
      ds.others := by
    rw [List.takeWhile_append_of_pos ds.isDigit_others]
    simp [show Number.isDigit '.' = false by decide]
  have hfraction : (fraction.chars ++ rest).takeWhile Number.isDigit = fraction.chars := by
    refine takeWhile_eq_of_atGap hrest isDigit_of_isBlank ?_
    intro c hc
    rcases List.mem_cons.1 hc with rfl | hc
    · exact fraction.isDigit_first
    · exact fraction.isDigit_others c hc
  refine ⟨ds.first, ds.others ++ '.' :: fraction.chars, rfl, ?_⟩
  rw [next_digits, List.append_assoc, List.cons_append, Lexer.numeral]
  simp only [hwhole, List.drop_left, hfraction]
  simp [Spelling.token, Digits.chars, Nat.add_assoc, Nat.add_comm 1]

/-! ### All spellings -/

theorem isRead_literal (parts : List BodyPart) : IsRead (.literal parts) := by
  intro rest _
  refine ⟨'"', parts.flatMap BodyPart.written ++ ['"'], rfl, ?_⟩
  rw [List.append_assoc, List.singleton_append, next_literal, List.length_append]
  rfl

theorem isRead (s : Spelling) : IsRead s := by
  cases s with
  | keyword k => exact isRead_keyword k
  | symbol s => exact isRead_symbol s
  | name x h => exact isRead_name h
  | whole ds => exact isRead_whole ds
  | decimal ds fraction => exact isRead_decimal ds fraction
  | literal parts => exact isRead_literal parts

end OneToken

/-! ## Reading on -/

section ReadingOn

variable {line : Nat} {rest : List Char}

/-- Behind a token before a gap the lexer goes on in the line where it ends. -/
theorem scan_spelling (s : Spelling) (hrest : AtGap rest) {ts : List Located}
    (h : Lexer.scan (line + s.text.count '\n') rest = .ok ts) :
    Lexer.scan line (s.text ++ rest) = .ok (⟨s.token, line⟩ :: ts) := by
  rcases isRead s rest hrest with ⟨c, tail, htext, hnext⟩
  rw [htext] at h ⊢
  rw [List.cons_append, Lexer.scan]
  simp only [hnext, List.take_left, List.drop_left, h]
  rfl

/-- Blanks are read as far as they go, which leads to the same as reading the first one alone. -/
theorem scan_blank (b : Blank) :
    Lexer.scan line (b.char :: rest) = Lexer.scan (line + [b.char].count '\n') rest := by
  have hnext (c : Char) (hc : Lexer.isBlank c = true) (cs : List Char) :
      Lexer.next c cs = (.skipped, (cs.takeWhile Lexer.isBlank).length) := by
    unfold Lexer.next
    rw [if_pos hc]
  -- The scanner takes a whole run of blanks at once, so one blank is compared with the run it
  -- starts.
  have hskip (line : Nat) (c : Char) (hc : Lexer.isBlank c = true) (cs : List Char) :
      Lexer.scan line (c :: cs) =
        Lexer.scan (line + (c :: cs.takeWhile Lexer.isBlank).count '\n')
          (cs.dropWhile Lexer.isBlank) := by
    have hsplit := List.takeWhile_append_dropWhile (p := Lexer.isBlank) (l := cs)
    have htake : cs.take (cs.takeWhile Lexer.isBlank).length = cs.takeWhile Lexer.isBlank := by
      conv => lhs; arg 2; rw [← hsplit]
      rw [List.take_left]
    have hdrop : cs.drop (cs.takeWhile Lexer.isBlank).length = cs.dropWhile Lexer.isBlank := by
      conv => lhs; arg 2; rw [← hsplit]
      rw [List.drop_left]
    rw [Lexer.scan]
    simp only [hnext c hc, htake, hdrop]
  rw [hskip line b.char (isBlank_char b) rest]
  cases rest with
  | nil => rfl
  | cons d ds =>
      by_cases hd : Lexer.isBlank d = true
      · rw [hskip _ d hd ds, List.takeWhile_cons_of_pos hd, List.dropWhile_cons_of_pos hd,
          Nat.add_assoc, ← List.count_append, List.singleton_append]
      · rw [List.takeWhile_cons_of_neg hd, List.dropWhile_cons_of_neg hd]

/-- A remark ends with its line. -/
theorem takeWhile_remark (r : Remark) (hrest : rest = [] ∨ ∃ cs, rest = '\n' :: cs) :
    ('/' :: (r.chars ++ rest)).takeWhile (· != '\n') = '/' :: r.chars := by
  have hchars : ∀ c ∈ r.chars, (c != '\n') = true := by
    intro c hc
    have hne : c ≠ '\n' := by
      rintro rfl
      exact r.oneLine hc
    simpa using hne
  rw [List.takeWhile_cons_of_pos (by decide), List.takeWhile_append_of_pos hchars]
  rcases hrest with rfl | ⟨cs, rfl⟩ <;> simp

/-- A comment is passed over up to the end of its line, which it leaves to be read. -/
theorem scan_comment (r : Remark) (hrest : rest = [] ∨ ∃ cs, rest = '\n' :: cs) :
    Lexer.scan line ('/' :: '/' :: (r.chars ++ rest)) = Lexer.scan line rest := by
  have hnext : Lexer.next '/' ('/' :: (r.chars ++ rest)) =
      (.skipped, ('/' :: r.chars).length) := by
    show (Lexer.Lexeme.skipped, (('/' :: (r.chars ++ rest)).takeWhile (· != '\n')).length) = _
    rw [takeWhile_remark r hrest]
  have hcount : r.chars.count '\n' = 0 := List.count_eq_zero.2 r.oneLine
  rw [Lexer.scan]
  simp only [hnext]
  rw [← List.cons_append, List.take_left, List.drop_left]
  simp [hcount]

/-- Fillers give no tokens, but their lines count. -/
theorem scan_filler (f : Filler) :
    Lexer.scan line (f.text ++ rest) = Lexer.scan (line + f.text.count '\n') rest := by
  cases f with
  | blank b => exact scan_blank b
  | comment r =>
      have hcount : (Filler.comment r).text.count '\n' = ['\n'].count '\n' := by
        simp [Filler.text, List.count_eq_zero.2 r.oneLine]
      have htext : (Filler.comment r).text ++ rest = '/' :: '/' :: (r.chars ++ '\n' :: rest) := by
        simp [Filler.text]
      rw [htext, hcount, scan_comment r (.inr ⟨rest, rfl⟩)]
      exact scan_blank .lineFeed

theorem scan_fillers (fs : List Filler) (line : Nat) :
    Lexer.scan line (fs.flatMap Filler.text ++ rest) =
      Lexer.scan (line + (fs.flatMap Filler.text).count '\n') rest := by
  induction fs generalizing line with
  | nil => rfl
  | cons f fs ih =>
      rw [List.flatMap_cons, List.append_assoc, scan_filler, ih, List.count_append, Nat.add_assoc]

theorem scan_separator (sep : Separator) :
    Lexer.scan line (sep.text ++ rest) = Lexer.scan (line + sep.text.count '\n') rest := by
  rw [Separator.text, List.cons_append, scan_blank, scan_fillers, Nat.add_assoc,
    ← List.count_append, List.singleton_append]

end ReadingOn

/-! ## Whole texts -/

/-- The end of a text may have a token or a remark without a gap. -/
theorem scan_ending (before : List Char) (ending : Ending) :
    Lexer.scan (1 + before.count '\n') ending.text = .ok (ending.located before) := by
  have hnil (line : Nat) : Lexer.scan line [] = .ok [] := by
    rw [Lexer.scan]
  cases ending with
  | nothing => exact hnil _
  | token s =>
      have hlast := scan_spelling s atGap_nil (hnil (1 + before.count '\n' + s.text.count '\n'))
      rwa [List.append_nil] at hlast
  | comment r =>
      have hcomment := (scan_comment r (.inl rfl)).trans (hnil (1 + before.count '\n'))
      rwa [List.append_nil] at hcomment

/-- What is read does not depend on the pieces before it, except that their line feeds have been
counted. -/
theorem scan_entries (before : List Char) (entries : List (Spelling × Separator))
    (ending : Ending) :
    Lexer.scan (1 + before.count '\n') (entries.flatMap entryText ++ ending.text) =
      .ok (locatedAfter before entries ending) := by
  induction entries generalizing before with
  | nil => exact scan_ending before ending
  | cons entry entries ih =>
      have hlines : 1 + before.count '\n' + entry.1.text.count '\n' + entry.2.text.count '\n' =
          1 + (before ++ entryText entry).count '\n' := by
        rw [entryText, List.count_append, List.count_append]
        omega
      rw [List.flatMap_cons, entryText, List.append_assoc, List.append_assoc]
      refine scan_spelling entry.1 (atGap_separator _ _) ?_
      rw [scan_separator, hlines]
      exact ih (before ++ entryText entry)

/-- The tokens of a layout are those that are spelled in it. -/
theorem tokenize_layout (l : Layout) : tokenize (String.ofList l.text) = .ok l.located := by
  rw [tokenize, String.toList_ofList, Layout.text, scan_fillers]
  exact scan_entries _ l.entries l.ending

/-- A text made of spelled tokens and separators is read as exactly these tokens on their lines;
so quoting a string, with a backslash before its quotes and backslashes only, keeps the string. -/
theorem lexing_inverts_spelling :
    (∀ l : Layout, tokenize (String.ofList l.text) = .ok l.located) ∧
      ∀ s, tokenize (literalText s) = .ok [⟨.text s, 1⟩] := by
  refine ⟨tokenize_layout, fun s => ?_⟩
  have h := tokenize_layout ⟨[], [], .token (.literal (s.toList.map BodyPart.ofChar))⟩
  have htext : String.ofList (Layout.text
      ⟨[], [], .token (.literal (s.toList.map BodyPart.ofChar))⟩) = literalText s := by
    simp [Layout.text, Ending.text, Spelling.text, literalText, flatMap_escaped,
      String.ext_iff]
  rw [htext] at h
  rw [h, Layout.located, locatedAfter, Ending.located, Spelling.token, map_meant_ofChar,
    String.ofList_toList]
  rfl

end Script
end ScriptHost
