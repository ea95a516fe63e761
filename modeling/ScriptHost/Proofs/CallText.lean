import ScriptHost.Proofs.Recognition

/-!
# Calls as sources

Any call of a function with strings for arguments can be written as a source: the name, and each
argument as a string literal in which quotes and backslashes are escaped. Whatever characters the
arguments consist of, the source reads back as just that call, and two levels of nesting are enough
for it.
-/

namespace ScriptHost
namespace Script

/-! ## Writing -/

/-- A character as the body of a string literal has it. -/
def escaped (c : Char) : List Char :=
  if c = '"' ∨ c = '\\' then ['\\', c] else [c]

/-- A string as a string literal. -/
def literalText (s : String) : String :=
  "\"" ++ String.ofList (s.toList.flatMap escaped) ++ "\""

/-- The source that calls a function with the given strings. -/
def callText (name : String) (args : List String) : String :=
  name ++ "(" ++ ", ".intercalate (args.map literalText) ++ ")"

/-- The tree of such a source. -/
def callBlock (name : String) (args : List String) : Block :=
  [.eval (.call (normalizeName name) (args.map fun s => .literal (.text s)))]

/-! ## Identifiers -/

/-- The name is an identifier, and so not a keyword. -/
structure IsIdentifier (name : String) : Prop where
  chars : ∃ c cs, name.toList = c :: cs ∧ Lexer.isNameStart c = true ∧
    ∀ d ∈ cs, Lexer.isNamePart d = true
  notKeyword : Lexer.keyword? name = none

namespace Lexer

section Identifiers

variable {c : Char} {rest : List Char} {x : String} {n : Nat}

/-- A word is an identifier if it is no keyword. -/
theorem word_eq_ident {name : String} (h : word name = .ident x) :
    name = x ∧ keyword? x = none := by
  unfold word at h
  split at h
  · cases h
  · rename_i hnone
    cases h
    exact ⟨rfl, hnone⟩

/-- No numeral is an identifier. -/
theorem numeral_ne_ident : numeral c rest ≠ (.token (.ident x), n) := by
  intro h
  unfold numeral at h
  dsimp only at h
  split at h
  · split at h <;> cases h
  · cases h

/-- No string literal is one. -/
theorem stringLiteral_ne_ident : stringLiteral rest ≠ (.token (.ident x), n) := by
  intro h
  unfold stringLiteral at h
  split at h
  · cases h
  · split at h <;> cases h

theorem orEqual_ne_ident {short long : Symbol} :
    orEqual rest short long ≠ (.token (.ident x), n) := by
  intro h
  unfold orEqual at h
  split at h <;> cases h

/-- Only the characters of names make an identifier. -/
theorem next_eq_ident (h : next c rest = (.token (.ident x), n)) :
    isNameStart c = true ∧ String.ofList (c :: rest.takeWhile isNamePart) = x ∧
      keyword? x = none := by
  unfold next at h
  split at h
  · cases h
  · split at h
    · rename_i hstart
      have hword : word (String.ofList (c :: rest.takeWhile isNamePart)) = .ident x := by
        simpa using congrArg Prod.fst h
      exact ⟨hstart, word_eq_ident hword⟩
    · split at h
      · exact absurd h numeral_ne_ident
      · split at h
        · exact absurd h stringLiteral_ne_ident
        · split at h <;> cases h
        · exact absurd h orEqual_ne_ident
        · exact absurd h orEqual_ne_ident
        · exact absurd h orEqual_ne_ident
        · exact absurd h orEqual_ne_ident
        all_goals cases h

end Identifiers

/-- No identifier is longer than the text in which it stands. -/
theorem length_le_of_scan {line : Nat} {cs : List Char} {ts : List Located} {t : Located}
    {x : String} (h : scan line cs = .ok ts) (ht : t ∈ ts) (hx : t.token = .ident x) :
    x.toList.length ≤ cs.length := by
  fun_induction scan line cs generalizing ts with
  -- The cases are those of the scan: the end, an error, what is skipped, and a token.
  | case1 line =>
      cases h
      cases ht
  | case2 => cases h
  | case3 =>
      rename_i cs n _ _ _ ih
      have hlength := ih h ht
      rw [List.length_drop] at hlength
      rw [List.length_cons]
      omega
  | case4 =>
      rename_i c cs n _ lineAfter u hnext ih
      cases hrest : scan lineAfter (cs.drop n) with
      | error e =>
          rw [hrest] at h
          cases h
      | ok rest =>
          rw [hrest] at h
          cases h
          rcases List.mem_cons.1 ht with rfl | ht
          · subst hx
            rcases next_eq_ident hnext with ⟨_, rfl, _⟩
            have hprefix := (List.takeWhile_prefix isNamePart (l := cs)).length_le
            simpa using hprefix
          · have hlength := ih hrest ht
            rw [List.length_drop] at hlength
            rw [List.length_cons]
            omega

end Lexer

/-- A name that is read as a single identifier is one. -/
theorem isIdentifier_of_tokenize {name : String} {line : Nat}
    (h : tokenize name = .ok [⟨.ident name, line⟩]) : IsIdentifier name := by
  unfold tokenize at h
  rcases hcs : name.toList with _ | ⟨c, cs⟩
  · rw [hcs, Lexer.scan] at h
    cases h
  · rw [hcs, Lexer.scan] at h
    rcases hnext : Lexer.next c cs with ⟨_ | t | _, n⟩
    · -- what is left behind blanks or a comment is shorter than the name
      simp only [hnext] at h
      have hlength := Lexer.length_le_of_scan h List.mem_cons_self rfl
      rw [hcs, List.length_cons, List.length_drop] at hlength
      omega
    · simp only [hnext] at h
      cases hrest : Lexer.scan (1 + List.count '\n' (c :: cs.take n)) (cs.drop n) with
      | error e =>
          rw [hrest] at h
          cases h
      | ok rest =>
          rw [hrest] at h
          cases h
          rcases Lexer.next_eq_ident hnext with ⟨hstart, hname, hkeyword⟩
          have htail : cs.takeWhile Lexer.isNamePart = cs := by
            have htoList := congrArg String.toList hname
            rw [String.toList_ofList, hcs] at htoList
            exact (List.cons.inj htoList).2
          have hparts := List.all_takeWhile (p := Lexer.isNamePart) (l := cs)
          rw [htail] at hparts
          exact ⟨⟨c, cs, hcs, hstart, List.all_eq_true.1 hparts⟩, hkeyword⟩
    · simp only [hnext] at h
      cases h

/-! ## Names in lower case -/

/-- In ASCII every letter has its lower case, wherever it stands. -/
theorem lowerAfter_of_ascii {cs : List Char} (h : ∀ c ∈ cs, c.toNat < 0x80)
    (before : List Char) : Text.lowerAfter before cs = cs.map Char.toLower := by
  induction cs generalizing before with
  | nil => rfl
  | cons c rest ih =>
      have hc := h c List.mem_cons_self
      have hsigma : c ≠ '\u03a3' := by
        rintro rfl
        exact absurd hc (by decide)
      rw [Text.lowerAfter, ih (fun d hd => h d (List.mem_cons_of_mem c hd)), if_neg hsigma,
        Text.lowerChar, if_pos hc]
      rfl

theorem toNat_lt_of_isNamePart {c : Char} (h : Lexer.isNamePart c = true) : c.toNat < 0x80 := by
  simp only [Lexer.isNamePart, Lexer.isNameStart, Number.isDigit, Bool.or_eq_true,
    Bool.and_eq_true, decide_eq_true_eq, beq_iff_eq, Char.le_def, UInt32.le_iff_toNat_le] at h
  show c.val.toNat < 0x80
  rcases h with ((h | h) | rfl) | h
  · exact Nat.lt_of_le_of_lt h.2 (by decide)
  · exact Nat.lt_of_le_of_lt h.2 (by decide)
  · decide
  · exact Nat.lt_of_le_of_lt h.2 (by decide)

namespace IsIdentifier

variable {name : String}

/-- Identifiers are in ASCII. -/
theorem ascii (h : IsIdentifier name) : ∀ c ∈ name.toList, c.toNat < 0x80 := by
  rcases h.chars with ⟨c, cs, hname, hstart, hparts⟩
  rw [hname]
  intro d hd
  rcases List.mem_cons.1 hd with rfl | hd
  · refine toNat_lt_of_isNamePart ?_
    rw [Lexer.isNamePart, hstart, Bool.true_or]
  · exact toNat_lt_of_isNamePart (hparts d hd)

theorem ne_empty (h : IsIdentifier name) : name ≠ "" := by
  rintro rfl
  rcases h.chars with ⟨c, cs, hname, _⟩
  cases hname

end IsIdentifier

/-! ## Reading back the characters -/

/-- The characters are read as those tokens, whatever the line on which they begin. -/
def Lexes (cs : List Char) (ts : List Token) : Prop :=
  ∀ line, ∃ located, Lexer.scan line cs = .ok located ∧ located.map (·.token) = ts

section Reading

variable {c : Char} {cs rest : List Char} {t : Token} {ts : List Token} {n : Nat}

theorem lexes_nil : Lexes [] [] := by
  intro line
  exact ⟨[], by rw [Lexer.scan], rfl⟩

/-- One token, and then the rest. -/
theorem lexes_token (hnext : Lexer.next c cs = (.token t, n)) (hrest : Lexes (cs.drop n) ts) :
    Lexes (c :: cs) (t :: ts) := by
  intro line
  rcases hrest (line + List.count '\n' (c :: cs.take n)) with ⟨located, hscan, hmap⟩
  refine ⟨⟨t, line⟩ :: located, ?_, by rw [List.map_cons, hmap]⟩
  rw [Lexer.scan]
  simp only [hnext, hscan]
  rfl

/-- A symbol that nothing can be added to. -/
theorem lexes_symbol {s : Symbol} (hnext : ∀ rest, Lexer.next c rest = Lexer.symbol s)
    (hrest : Lexes rest ts) : Lexes (c :: rest) (.symbol s :: ts) :=
  lexes_token (hnext rest) hrest

/-- A blank between two tokens. -/
theorem lexes_blank (hrest : Lexes rest ts) (hhead : ∀ c, rest.head? = some c → ¬ Lexer.isBlank c) :
    Lexes (' ' :: rest) ts := by
  intro line
  have htail : rest.takeWhile Lexer.isBlank = [] := by
    cases rest with
    | nil => rfl
    | cons c rest => simp [hhead c rfl]
  have hnext : Lexer.next ' ' rest = (.skipped, 0) := by
    show (Lexer.Lexeme.skipped, (rest.takeWhile Lexer.isBlank).length) = _
    rw [htail, List.length_nil]
  rcases hrest (line + List.count '\n' [' ']) with ⟨located, hscan, hmap⟩
  refine ⟨located, ?_, hmap⟩
  rw [Lexer.scan]
  simp only [hnext]
  exact hscan

/-! ### String literals -/

/-- The ways in which a string literal can name a character behind a backslash. -/
inductive Escape
  | lineFeed
  | tab
  | quote
  | backslash
  deriving DecidableEq

namespace Escape

/-- The letter after the backslash. -/
def letter : Escape → Char
  | lineFeed => 'n'
  | tab => 't'
  | quote => '"'
  | backslash => '\\'

/-- The character that is meant. -/
def meaning : Escape → Char
  | lineFeed => '\n'
  | tab => '\t'
  | quote => '"'
  | backslash => '\\'

end Escape

/-- One character of a string, as the body of a literal has it. -/
inductive BodyPart
  | plain (c : Char) (h : c ≠ '"' ∧ c ≠ '\\')
  | escape (e : Escape)

namespace BodyPart

/-- How a part of the body is written. -/
def written : BodyPart → List Char
  | plain c _ => [c]
  | escape e => ['\\', e.letter]

/-- What a part of the body stands for. -/
def meant : BodyPart → Char
  | plain c _ => c
  | escape e => e.meaning

/-- The body ends at the first quote that is not escaped. -/
theorem bodyExtent_written (parts : List BodyPart) (rest : List Char) :
    Lexer.bodyExtent (parts.flatMap written ++ '"' :: rest) =
      ((parts.flatMap written).length + 1, true) := by
  induction parts with
  | nil => rfl
  | cons part parts ih =>
      rw [List.flatMap_cons, List.append_assoc]
      cases part with
      | plain c h => simp [written, Lexer.bodyExtent, h.1, h.2, ih]
      | escape e =>
          -- the character behind the backslash is no line feed
          cases e <;> simp [written, Escape.letter, Lexer.bodyExtent, ih]

/-- A body is read as what its parts stand for. -/
theorem unescape_written (parts : List BodyPart) :
    Lexer.unescape (parts.flatMap written) = some (parts.map meant) := by
  induction parts with
  | nil => rfl
  | cons part parts ih =>
      rw [List.flatMap_cons, List.map_cons]
      cases part with
      | plain c h => simp [written, meant, Lexer.unescape, h.2, ih]
      | escape e =>
          cases e <;>
            simp [written, meant, Escape.letter, Escape.meaning, Lexer.unescape,
              Lexer.escapedChar, ih]

/-- The character, escaped only if it has to be. -/
def ofChar (c : Char) : BodyPart :=
  if hquote : c = '"' then .escape .quote
  else if hbackslash : c = '\\' then .escape .backslash
  else .plain c ⟨hquote, hbackslash⟩

/-- Every character is written as a part of a body. -/
theorem written_ofChar (c : Char) : (ofChar c).written = escaped c := by
  unfold ofChar escaped
  by_cases hquote : c = '"'
  · simp [hquote, written, Escape.letter]
  · by_cases hbackslash : c = '\\'
    · simp [hbackslash, written, Escape.letter]
    · simp [hquote, hbackslash, written]

theorem meant_ofChar (c : Char) : (ofChar c).meant = c := by
  unfold ofChar
  split
  · rename_i hquote
    exact hquote.symm
  · split
    · rename_i hbackslash
      exact hbackslash.symm
    · rfl

end BodyPart

/-- A literal is read as what its parts mean, whatever comes behind it. -/
theorem next_literal (parts : List BodyPart) (rest : List Char) :
    Lexer.next '"' (parts.flatMap BodyPart.written ++ '"' :: rest) =
      (.token (.text (String.ofList (parts.map BodyPart.meant))),
        (parts.flatMap BodyPart.written).length + 1) := by
  show Lexer.stringLiteral _ = _
  simp [Lexer.stringLiteral, BodyPart.bodyExtent_written, BodyPart.unescape_written]

theorem flatMap_escaped (cs : List Char) :
    cs.flatMap escaped = (cs.map BodyPart.ofChar).flatMap BodyPart.written := by
  rw [List.flatMap_map]
  exact congrArg cs.flatMap (funext fun c => (BodyPart.written_ofChar c).symm)

theorem map_meant_ofChar (cs : List Char) :
    (cs.map BodyPart.ofChar).map BodyPart.meant = cs := by
  rw [List.map_map]
  exact (List.map_congr_left fun c _ => BodyPart.meant_ofChar c).trans (List.map_id cs)

/-- A string that is written as a literal is read back. -/
theorem lexes_literal (s : String) (hrest : Lexes rest ts) :
    Lexes ((literalText s).toList ++ rest) (.text s :: ts) := by
  have htoList : (literalText s).toList ++ rest =
      '"' :: (s.toList.flatMap escaped ++ '"' :: rest) := by
    simp [literalText]
  have hnext := next_literal (s.toList.map BodyPart.ofChar) rest
  rw [← flatMap_escaped, map_meant_ofChar, String.ofList_toList] at hnext
  have hdrop (body : List Char) : (body ++ '"' :: rest).drop (body.length + 1) = rest := by
    simp [List.drop_append]
  rw [htoList]
  refine lexes_token hnext ?_
  rwa [hdrop]

/-! ### Calls -/

/-- The tokens behind the first argument of a call. -/
def furtherTokens : List String → List Token
  | [] => [.symbol .closeParen]
  | s :: args => .symbol .comma :: .text s :: furtherTokens args

/-- The tokens of an argument list, with the closing parenthesis. -/
def argumentTokens : List String → List Token
  | [] => [.symbol .closeParen]
  | s :: args => .text s :: furtherTokens args

/-- The arguments after the first one. -/
theorem lexes_further (args : List String) :
    Lexes (args.flatMap (fun s => [',', ' '] ++ (literalText s).toList) ++ [')'])
      (furtherTokens args) := by
  induction args with
  | nil => exact lexes_symbol (fun _ => rfl) lexes_nil
  | cons s args ih =>
      rw [List.flatMap_cons, List.append_assoc, List.append_assoc, List.cons_append,
        List.cons_append, List.nil_append, furtherTokens]
      refine lexes_symbol (fun _ => rfl) (lexes_blank (lexes_literal s ih) ?_)
      intro c hc
      have hquote : c = '"' := by simpa [literalText] using hc.symm
      rw [hquote]
      decide

/-- The first argument has no comma before it. -/
theorem toList_intercalate_cons (s : String) (args : List String) :
    (", ".intercalate ((s :: args).map literalText)).toList =
      (literalText s).toList ++ args.flatMap fun s => [',', ' '] ++ (literalText s).toList := by
  induction args generalizing s with
  | nil => simp
  | cons t args ih =>
      rw [List.map_cons, List.map_cons, String.intercalate_cons_cons, String.toList_append,
        String.toList_append, ← List.map_cons, ih]
      simp

/-- An argument list of any length. -/
theorem lexes_arguments (args : List String) :
    Lexes ((", ".intercalate (args.map literalText)).toList ++ [')']) (argumentTokens args) := by
  cases args with
  | nil => exact lexes_symbol (fun _ => rfl) lexes_nil
  | cons s args =>
      rw [toList_intercalate_cons, List.append_assoc]
      exact lexes_literal s (lexes_further args)

theorem isBlank_of_isNameStart (h : Lexer.isNameStart c = true) : Lexer.isBlank c = false := by
  -- each blank is a definite character, and none of them begins a name
  rw [Bool.eq_false_iff]
  intro hblank
  simp only [Lexer.isBlank, Bool.or_eq_true, beq_iff_eq] at hblank
  rcases hblank with ((rfl | rfl) | rfl) | rfl <;> revert h <;> decide

/-- A row of name characters is read as one word, if no further one follows. -/
theorem next_word {name : String} (hname : name.toList = c :: cs)
    (hstart : Lexer.isNameStart c = true) (hparts : ∀ d ∈ cs, Lexer.isNamePart d = true)
    (hhead : ∀ d, rest.head? = some d → Lexer.isNamePart d = false) :
    Lexer.next c (cs ++ rest) = (.token (Lexer.word name), cs.length) := by
  have htail : (cs ++ rest).takeWhile Lexer.isNamePart = cs := by
    rw [List.takeWhile_append_of_pos hparts]
    cases rest with
    | nil => simp
    | cons d rest => simp [hhead d rfl]
  unfold Lexer.next
  rw [if_neg (by simp [isBlank_of_isNameStart hstart]), if_pos hstart]
  simp only [htail]
  rw [← hname, String.ofList_toList]

/-- A name ends where no part of a name follows. -/
theorem lexes_name {name : String} (h : IsIdentifier name) (hrest : Lexes rest ts)
    (hhead : ∀ c, rest.head? = some c → Lexer.isNamePart c = false) :
    Lexes (name.toList ++ rest) (.ident name :: ts) := by
  rcases h.chars with ⟨c, cs, hname, hstart, hparts⟩
  have hword : Lexer.word name = .ident name := by
    rw [Lexer.word, h.notKeyword]
  have hnext := next_word hname hstart hparts hhead
  rw [hword] at hnext
  rw [hname, List.cons_append]
  refine lexes_token hnext ?_
  rwa [List.drop_left]

/-- The tokens of a call. -/
def callTokens (name : String) (args : List String) : List Token :=
  .ident name :: .symbol .openParen :: argumentTokens args

/-- A call that is written is read as these tokens. -/
theorem lexes_call {name : String} (h : IsIdentifier name) (args : List String) :
    Lexes (callText name args).toList (callTokens name args) := by
  have htoList : (callText name args).toList =
      name.toList ++ '(' :: ((", ".intercalate (args.map literalText)).toList ++ [')']) := by
    simp [callText]
  rw [htoList]
  refine lexes_name h (lexes_symbol (fun _ => rfl) (lexes_arguments args)) ?_
  intro c hc
  cases hc
  decide

end Reading

/-! ## Reading back the tree -/

namespace Grammar

variable {d : Nat} {ts rest : List Token} {e : Expr}

/-- An operand behind which no operator stands is an expression. -/
theorem Operand.expression (h : Operand d ts e rest)
    (hends : ∀ op : BinaryOp, rest.head? ≠ some (.symbol op.symbol)) :
    Expression (d + 1) ts e rest := by
  have hbefore (p : Precedence) : EndsBefore p rest := by
    rintro op t ht ⟨_, rfl⟩
    exact hends op ht
  exact .nested (.parts (.equality (.parts (.comparison (.parts (.term (.parts (.factor h)
    (.done (hbefore _)))) (.done (hbefore _)))) (.done (hbefore _)))) (.done (hbefore _)))

theorem argumentList_texts (s : String) (args : List String) :
    ArgumentList 1 (.text s :: furtherTokens args)
      ((s :: args).map fun s => .literal (.text s)) [.symbol .closeParen] := by
  induction args generalizing s with
  | nil =>
      refine .last ((Operand.literal (.text s)).expression ?_) nofun
      intro op
      cases op <;> nofun
  | cons t args ih =>
      refine .more ((Operand.literal (.text s)).expression ?_) (ih t)
      intro op
      cases op <;> nofun

/-- A call is a unit by itself. -/
theorem isUnit_call (name : String) (args : List String) :
    IsUnit 2 (callTokens name args) (callBlock name args) := by
  have harguments : Arguments 1 (argumentTokens args)
      (args.map fun s => .literal (.text s)) [] := by
    cases args with
    | nil => exact .none
    | cons s args => exact .some (argumentList_texts s args)
  refine .cons (.plain (.eval ?_ ((Operand.call harguments).expression nofun)) nofun) .nil
  rintro ⟨x, rest, h⟩
  cases h

end Grammar

/-- The source of a call is read as that call, if two levels of nesting are allowed. -/
theorem parse_callText {name : String} (h : IsIdentifier name) (args : List String) {limit : Nat}
    (hlimit : 2 ≤ limit) : parse limit (callText name args) = .ok (callBlock name args) := by
  rcases lexes_call h args 1 with ⟨located, hscan, hmap⟩
  have hunit := (Grammar.isUnit_call name args).mono hlimit
  rw [← hmap] at hunit
  rw [parse, tokenize, hscan]
  exact (parseTokens_eq_ok limit located _).2 hunit

end Script
end ScriptHost
