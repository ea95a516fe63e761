import Mathlib.Data.List.Forall2
import ScriptHost.Proofs.CallText

/-!
# Identifiers in other letters

A source may spell each of its identifiers in letters of another case, as long as the new spelling
is no keyword. Where a lexeme ends never depends on the case of a letter behind it, so both sources
are cut at the same places, and both have the same tokens on the same lines apart from how their
identifiers are spelled.
-/

namespace ScriptHost
namespace Script

/-! ## Spellings that differ in case -/

/-- The names consist of the same letters, in any case. -/
def SameLetters (x y : String) : Prop :=
  x.toList.map Char.toLower = y.toList.map Char.toLower

/-- The case of the letters makes no difference to the normal form. -/
theorem normalizeName_of_sameLetters {x y : String} (hx : IsIdentifier x) (hy : IsIdentifier y)
    (h : SameLetters x y) : normalizeName x = normalizeName y := by
  unfold normalizeName Text.lowercase
  -- among the characters of a name no lower-case form depends on its neighbours
  rw [lowerAfter_of_ascii hx.ascii, lowerAfter_of_ascii hy.ascii, h]

/-- The second text comes from the first one by spelling its identifiers in other letters, each of
them as an identifier again. -/
inductive Recased : List Char → List Char → Prop
  | nil : Recased [] []
  | name {c cs x n y cs'} : Lexer.next c cs = (.token (.ident x), n) → IsIdentifier y →
      SameLetters x y → Recased (cs.drop n) cs' → Recased (c :: cs) (y.toList ++ cs')
  | other {c cs lexeme n cs'} : Lexer.next c cs = (lexeme, n) →
      (∀ x, lexeme ≠ .token (.ident x)) → Recased (cs.drop n) cs' →
      Recased (c :: cs) (c :: (cs.take n ++ cs'))

/-- The same token, or identifiers of one normal form. -/
inductive Token.Alike : Token → Token → Prop
  | same (t : Token) : Alike t t
  | ident {x y : String} : normalizeName x = normalizeName y → Alike (.ident x) (.ident y)

/-- Tokens that are alike on the same line. -/
structure Located.Alike (t t' : Located) : Prop where
  token : t.token.Alike t'.token
  line : t.line = t'.line

namespace Lexer

variable {c : Char} {cs cs' : List Char} {x : String} {n : Nat}

/-! ## Looking ahead -/

/-- A class to which either all characters that begin a name belong, or none of them. -/
def IgnoresNames (p : Char → Bool) : Prop :=
  ∀ c d, isNameStart c = true → isNameStart d = true → p c = p d

/-- An identifier begins as names do. -/
theorem IsIdentifier.start {name : String} (h : IsIdentifier name) :
    ∃ c cs, name.toList = c :: cs ∧ isNameStart c = true := by
  rcases h.chars with ⟨c, cs, hname, hstart, _⟩
  exact ⟨c, cs, hname, hstart⟩

/-- What comes next belongs to the same classes, whatever the case of its letters. -/
theorem head?_recased {p : Char → Bool} (hp : IgnoresNames p) (h : Recased cs cs') :
    cs'.head?.map p = cs.head?.map p := by
  cases h with
  | nil => rfl
  | name hnext hy _ _ =>
      rcases IsIdentifier.start hy with ⟨d, ds, hds, hd⟩
      rw [hds]
      exact congrArg some (hp _ _ hd (next_eq_ident hnext).1)
  | other => rfl

/-- What does not come next on one side does not come next on the other. -/
theorem head?_recased_of_false {p : Char → Bool} (hp : IgnoresNames p) (h : Recased cs cs')
    (hcs : ∀ d, cs.head? = some d → p d = false) : ∀ d, cs'.head? = some d → p d = false := by
  intro d hd
  have hhead := head?_recased hp h
  rw [hd] at hhead
  rcases Option.map_eq_some_iff.1 hhead.symm with ⟨e, he, hpe⟩
  rw [← hpe]
  exact hcs e he

/-- A longest row ends before something else. -/
theorem not_of_head?_drop {p : Char → Bool} (cs : List Char) :
    ∀ d, (cs.drop (cs.takeWhile p).length).head? = some d → p d = false := by
  induction cs with
  | nil => exact nofun
  | cons c cs ih =>
      cases hc : p c with
      | true =>
          rw [List.takeWhile_cons_of_pos hc]
          exact ih
      | false =>
          rw [List.takeWhile_cons_of_neg (by simp [hc])]
          rintro d ⟨⟩
          exact hc

theorem take_length_takeWhile (p : Char → Bool) (cs : List Char) :
    cs.take (cs.takeWhile p).length = cs.takeWhile p :=
  (List.prefix_iff_eq_take.1 (List.takeWhile_prefix p)).symm

/-- A row ends where something else follows. -/
theorem takeWhile_append_of_head {p : Char → Bool} {row : List Char}
    (hrow : ∀ d ∈ row, p d = true) (hcs : ∀ d, cs.head? = some d → p d = false) :
    (row ++ cs).takeWhile p = row := by
  rw [List.takeWhile_append_of_pos hrow]
  cases cs with
  | nil => exact List.append_nil _
  | cons d rest =>
      rw [List.takeWhile_cons_of_neg (by simp [hcs d rfl])]
      exact List.append_nil _

/-- A row of characters of one class is as long as before. -/
theorem takeWhile_recased {p : Char → Bool} (hp : IgnoresNames p)
    (h : Recased (cs.drop (cs.takeWhile p).length) cs') :
    (cs.take (cs.takeWhile p).length ++ cs').takeWhile p = cs.takeWhile p := by
  have hhead := head?_recased_of_false hp h (not_of_head?_drop cs)
  rw [take_length_takeWhile]
  exact takeWhile_append_of_head (List.all_eq_true.1 List.all_takeWhile) hhead

/-- No name begins with a blank. -/
theorem ignoresNames_isBlank : IgnoresNames isBlank := by
  intro c d hc hd
  rw [isBlank_of_isNameStart hc, isBlank_of_isNameStart hd]

/-- Whatever begins a name is a part of one. -/
theorem ignoresNames_isNamePart : IgnoresNames isNamePart := by
  intro c d hc hd
  rw [isNamePart, isNamePart, hc, hd]
  rfl

/-- A definite character that begins no name can be told from those that do. -/
theorem ignoresNames_of_mark {e : Char} (he : isNameStart e = false) : IgnoresNames (· == e) := by
  have hother {c : Char} (hc : isNameStart c = true) : (c == e) = false := by
    rw [beq_eq_false_iff_ne]
    rintro rfl
    rw [he] at hc
    cases hc
  intro c d hc hd
  exact (hother hc).trans (hother hd).symm

/-- No name begins with a digit. -/
theorem isDigit_of_isNameStart (h : isNameStart c = true) : Number.isDigit c = false := by
  rw [Bool.eq_false_iff]
  intro hdigit
  simp only [isNameStart, Number.isDigit, Bool.or_eq_true, Bool.and_eq_true, decide_eq_true_eq,
    beq_iff_eq, Char.le_def, UInt32.le_iff_toNat_le] at h hdigit
  have hlast : c.val.toNat ≤ 57 := hdigit.2
  rcases h with (h | h) | rfl
  · exact absurd (Nat.le_trans h.1 hlast) (by decide)
  · exact absurd (Nat.le_trans h.1 hlast) (by decide)
  · exact absurd hlast (by decide)

theorem ignoresNames_isDigit : IgnoresNames Number.isDigit := by
  intro c d hc hd
  rw [isDigit_of_isNameStart hc, isDigit_of_isNameStart hd]

/-- A definite character that begins no name comes next in both texts or in neither. -/
theorem head_of_recased {mark : Char} {rest' : List Char} (hmark : isNameStart mark = false)
    (h : Recased cs (mark :: rest')) : ∃ rest, cs = mark :: rest := by
  have hhead := head?_recased (ignoresNames_of_mark hmark) h
  cases cs with
  | nil => cases hhead
  | cons d rest =>
      have hd : d = mark := by simpa using hhead
      exact ⟨rest, hd ▸ rfl⟩

/-- A character that no lexeme contains stays where it is. -/
theorem recased_mark {mark : Char} (hmark : ∀ rest, next mark rest = (.malformed, 0))
    (h : Recased (mark :: cs) cs') : ∃ rest, cs' = mark :: rest ∧ Recased cs rest := by
  cases h with
  | name hnext =>
      rw [hmark] at hnext
      cases hnext
  | other hnext _ hrest =>
      rw [hmark] at hnext
      cases hnext
      exact ⟨_, rfl, hrest⟩

/-- A line ends on both sides. -/
theorem recased_lineFeed (h : Recased ('\n' :: cs) cs') : ∃ rest, cs' = '\n' :: rest := by
  cases h with
  | name hnext => cases hnext
  | other => exact ⟨_, rfl⟩

/-! ## Numerals -/

/-- The digits behind a point, if there is one. -/
def fractionOf : List Char → List Char
  | '.' :: after => after.takeWhile Number.isDigit
  | _ => []

/-- How much of a text such digits take together with the point; a point alone is left there. -/
def extentOf : List Char → Nat
  | [] => 0
  | fraction => 1 + fraction.length

section Numerals

variable {whole tail : List Char} {lexeme : Lexeme}

/-- Without a point there is no fraction. -/
theorem fractionOf_of_no_point (h : ∀ after, tail ≠ '.' :: after) : fractionOf tail = [] := by
  unfold fractionOf
  split
  · exact absurd rfl (h _)
  · rfl

/-- A numeral is its digits, and a fraction if one follows. -/
theorem numeral_append (hwhole : ∀ d ∈ whole, Number.isDigit d = true)
    (htail : ∀ d, tail.head? = some d → Number.isDigit d = false) (c : Char) :
    numeral c (whole ++ tail) =
      (.token (.number (numeralValue (c :: whole) (fractionOf tail))),
        whole.length + extentOf (fractionOf tail)) := by
  unfold numeral
  simp only [takeWhile_append_of_head hwhole htail, List.drop_left]
  split
  · rename_i _ after
    have hfraction : fractionOf ('.' :: after) = after.takeWhile Number.isDigit := rfl
    rw [hfraction]
    cases after.takeWhile Number.isDigit with
    | nil => rfl
    | cons d ds => exact congrArg (Prod.mk _) (Nat.add_assoc _ _ _)
  · rename_i hother
    rw [fractionOf_of_no_point hother]
    rfl

/-- Neither the digits behind a point nor the end of the digits before it come to depend on letters
that follow. -/
theorem fractionOf_recased (htail : ∀ d, tail.head? = some d → Number.isDigit d = false)
    (h : Recased (tail.drop (extentOf (fractionOf tail))) cs') :
    fractionOf (tail.take (extentOf (fractionOf tail)) ++ cs') = fractionOf tail ∧
      ∀ d, (tail.take (extentOf (fractionOf tail)) ++ cs').head? = some d →
        Number.isDigit d = false := by
  by_cases hpoint : ∃ after, tail = '.' :: after
  · rcases hpoint with ⟨after, rfl⟩
    have hfraction : fractionOf ('.' :: after) = after.takeWhile Number.isDigit := rfl
    rw [hfraction] at h ⊢
    cases hsome : after.takeWhile Number.isDigit with
    | nil =>
        rw [hsome] at h
        rcases recased_mark (fun _ => rfl) h with ⟨after', rfl, hafter⟩
        have hbehind : Recased (after.drop (after.takeWhile Number.isDigit).length) after' := by
          rwa [hsome]
        have hrow := takeWhile_recased ignoresNames_isDigit hbehind
        rw [hsome] at hrow
        refine ⟨hrow, ?_⟩
        rintro d ⟨⟩
        decide
    | cons d ds =>
        rw [hsome] at h
        have hextent : extentOf (d :: ds) = (after.takeWhile Number.isDigit).length + 1 := by
          rw [hsome, extentOf, Nat.add_comm]
          exact nofun
        rw [hextent] at h ⊢
        have hrow := takeWhile_recased ignoresNames_isDigit h
        refine ⟨hrow.trans hsome, ?_⟩
        rintro e ⟨⟩
        decide
  · have hnone := fractionOf_of_no_point (not_exists.1 hpoint)
    rw [hnone] at h ⊢
    refine ⟨fractionOf_of_no_point ?_, head?_recased_of_false ignoresNames_isDigit h htail⟩
    -- a point there would stand in the first text as well
    rintro after rfl
    exact hpoint (head_of_recased (by decide) h)

/-- Digits up to something else. -/
theorem exists_digits (cs : List Char) : ∃ whole tail, cs = whole ++ tail ∧
    (∀ d ∈ whole, Number.isDigit d = true) ∧
    ∀ d, tail.head? = some d → Number.isDigit d = false := by
  refine ⟨cs.takeWhile Number.isDigit, cs.drop (cs.takeWhile Number.isDigit).length, ?_,
    List.all_eq_true.1 List.all_takeWhile, not_of_head?_drop cs⟩
  calc
    cs = cs.take (cs.takeWhile Number.isDigit).length ++
        cs.drop (cs.takeWhile Number.isDigit).length := (List.take_append_drop _ cs).symm
    _ = _ := by rw [take_length_takeWhile]

/-- A numeral ends at the same place on both sides. -/
theorem numeral_recased (h : numeral c cs = (lexeme, n)) (hcs : Recased (cs.drop n) cs') :
    numeral c (cs.take n ++ cs') = (lexeme, n) := by
  rcases exists_digits cs with ⟨whole, tail, rfl, hwhole, htail⟩
  rw [numeral_append hwhole htail] at h
  cases h
  rw [List.drop_length_add_append] at hcs
  rcases fractionOf_recased htail hcs with ⟨hfraction, hhead⟩
  rw [List.take_length_add_append, List.append_assoc, numeral_append hwhole hhead, hfraction]

end Numerals

/-! ## String literals -/

/-- A backslash takes the next character with it. -/
theorem bodyExtent_escape {d : Char} (hd : d ≠ '\n') (cs : List Char) :
    bodyExtent ('\\' :: d :: cs) = ((bodyExtent cs).1 + 2, (bodyExtent cs).2) := by
  simp [bodyExtent]

/-- Other characters stand for themselves. -/
theorem bodyExtent_plain (hquote : c ≠ '"') (hbackslash : c ≠ '\\') (cs : List Char) :
    bodyExtent (c :: cs) = ((bodyExtent cs).1 + 1, (bodyExtent cs).2) := by
  simp [bodyExtent, hbackslash]

/-- A body that is not closed ends with the text, or before a backslash and a line feed. -/
theorem bodyExtent_recased {closed : Bool} (h : bodyExtent cs = (n, closed))
    (hcs : Recased (cs.drop n) cs') : bodyExtent (cs.take n ++ cs') = (n, closed) := by
  fun_induction bodyExtent cs generalizing n with
  | case1 =>
      cases h
      cases hcs
      rfl
  | case2 rest =>
      cases h
      rfl
  | case3 rest =>
      cases h
      -- neither the backslash nor the line feed behind it belongs to a name
      rcases recased_mark (fun _ => rfl) hcs with ⟨_, rfl, hrest⟩
      rcases recased_lineFeed hrest with ⟨rest', rfl⟩
      rfl
  | case4 d rest hd m inner hinner ih =>
      cases h
      rw [List.take_succ_cons, List.take_succ_cons, List.cons_append, List.cons_append,
        bodyExtent_escape hd, ih hinner hcs]
  | case5 =>
      cases h
      rcases recased_mark (fun _ => rfl) hcs with ⟨rest', rfl, hrest⟩
      cases hrest
      rfl
  | case6 d rest hquote hfeed hescape hlast m inner hinner ih =>
      cases h
      have hbackslash : d ≠ '\\' := fun hd => by
        cases rest with
        | nil => exact hlast hd rfl
        | cons e rest => exact hescape e rest hd rfl
      rw [List.take_succ_cons, List.cons_append, bodyExtent_plain hquote hbackslash,
        ih hinner hcs]

/-- A body does not go beyond the end. -/
theorem bodyExtent_le (cs : List Char) : (bodyExtent cs).1 ≤ cs.length := by
  fun_induction bodyExtent cs with
  | case4 d rest hd m closed hinner ih | case6 d rest _ _ _ _ m closed hinner ih =>
      rw [hinner] at ih
      simpa using ih
  | _ => simp

/-- What is in a string is no identifier. -/
theorem stringLiteral_recased {lexeme : Lexeme} (h : stringLiteral cs = (lexeme, n))
    (hcs : Recased (cs.drop n) cs') : stringLiteral (cs.take n ++ cs') = (lexeme, n) := by
  have hn : (bodyExtent cs).1 = n := by
    unfold stringLiteral at h
    split at h
    · rename_i hextent
      cases h
      rw [hextent]
    · rename_i hextent
      split at h <;> cases h <;> rw [hextent]
  have hextent : bodyExtent (cs.take n ++ cs') = bodyExtent cs :=
    (bodyExtent_recased (Prod.ext hn rfl) hcs).trans (Prod.ext hn.symm rfl)
  -- what stands between the quotes lies within the part that both texts share
  have hbody : (cs.take n ++ cs').take (n - 1) = cs.take (n - 1) := by
    have hle := bodyExtent_le cs
    rw [List.take_append_of_le_length, List.take_take, Nat.min_eq_left (Nat.sub_le n 1)]
    rw [List.length_take]
    omega
  unfold stringLiteral at h ⊢
  rw [hextent]
  rcases hcut : bodyExtent cs with ⟨m, closed⟩
  rw [hcut] at h hn
  cases hn
  cases closed with
  | false => exact h
  | true =>
      simp only [hbody]
      exact h

/-! ## Other lexemes -/

/-- An equals sign is no identifier either. -/
theorem orEqual_recased {lexeme : Lexeme} {short long : Symbol}
    (h : orEqual cs short long = (lexeme, n)) (hcs : Recased (cs.drop n) cs') :
    orEqual (cs.take n ++ cs') short long = (lexeme, n) := by
  unfold orEqual at h
  split at h
  · cases h
    rfl
  · rename_i hother
    cases h
    show orEqual cs' short long = _
    unfold orEqual
    split
    · rcases head_of_recased (by decide) hcs with ⟨rest, heq⟩
      exact absurd heq (hother rest)
    · rfl

/-- What begins with a slash: a comment or an operator. -/
def slash (rest : List Char) : Lexeme × Nat :=
  match rest with
  | '/' :: _ => (.skipped, (rest.takeWhile (· != '\n')).length)
  | _ => symbol .slash

theorem ignoresNames_remark : IgnoresNames (· != '\n') := by
  intro c d hc hd
  have hmark := ignoresNames_of_mark (e := '\n') (by decide) c d hc hd
  exact congrArg not hmark

theorem slash_recased {lexeme : Lexeme} (h : slash cs = (lexeme, n))
    (hcs : Recased (cs.drop n) cs') : slash (cs.take n ++ cs') = (lexeme, n) := by
  unfold slash at h
  split at h
  · rename_i rest
    cases h
    have hrow := takeWhile_recased ignoresNames_remark hcs
    exact congrArg (fun row => (Lexeme.skipped, List.length row)) hrow
  · rename_i hother
    cases h
    show slash cs' = _
    unfold slash
    split
    · rcases head_of_recased (by decide) hcs with ⟨rest, heq⟩
      exact absurd heq (hother rest)
    · rfl

/-- Where the lexeme ends does not depend on the case of letters behind it. -/
theorem next_recased {lexeme : Lexeme} (h : next c cs = (lexeme, n))
    (hcs : Recased (cs.drop n) cs') : next c (cs.take n ++ cs') = (lexeme, n) := by
  unfold next at h ⊢
  -- the first character is the same, so both texts come to the same of the following cases
  split at h
  · rename_i hblank
    cases h
    rw [if_pos hblank, takeWhile_recased ignoresNames_isBlank hcs]
  rename_i hblank
  rw [if_neg hblank]
  split at h
  · rename_i hstart
    cases h
    rw [if_pos hstart, takeWhile_recased ignoresNames_isNamePart hcs]
  rename_i hstart
  rw [if_neg hstart]
  split at h
  · rename_i hdigit
    rw [if_pos hdigit]
    exact numeral_recased h hcs
  rename_i hdigit
  rw [if_neg hdigit]
  split at h
  · exact stringLiteral_recased h hcs
  · exact slash_recased h hcs
  · exact orEqual_recased h hcs
  · exact orEqual_recased h hcs
  · exact orEqual_recased h hcs
  · exact orEqual_recased h hcs
  all_goals
    cases h
    rfl

/-! ## Tokens -/

/-- A word goes on as long as there are parts of a name. -/
theorem next_of_isNameStart (h : isNameStart c = true) (cs : List Char) :
    next c cs = (.token (word (String.ofList (c :: cs.takeWhile isNamePart))),
      (cs.takeWhile isNamePart).length) := by
  unfold next
  rw [if_neg (by simp [isBlank_of_isNameStart h]), if_pos h]

/-- An identifier stands on one line. -/
theorem count_lineFeed {name : String} (h : IsIdentifier name) :
    name.toList.count '\n' = 0 := by
  rcases h.chars with ⟨c, cs, hname, hstart, hparts⟩
  rw [hname, List.count_eq_zero]
  intro hmem
  rcases List.mem_cons.1 hmem with rfl | hmem
  · exact absurd hstart (by decide)
  · exact absurd (hparts _ hmem) (by decide)

/-- An identifier that is next, and what is left behind it. -/
theorem ident_of_next (h : next c cs = (.token (.ident x), n)) :
    IsIdentifier x ∧ x.toList = c :: cs.take n ∧
      ∀ d, (cs.drop n).head? = some d → isNamePart d = false := by
  rcases next_eq_ident h with ⟨hstart, hx, hkeyword⟩
  have hn : (cs.takeWhile isNamePart).length = n := by
    rw [next_of_isNameStart hstart] at h
    exact congrArg Prod.snd h
  subst hn hx
  rw [take_length_takeWhile, String.toList_ofList]
  refine ⟨⟨⟨c, _, String.toList_ofList, hstart, ?_⟩, hkeyword⟩, rfl, not_of_head?_drop cs⟩
  exact List.all_eq_true.1 List.all_takeWhile

/-- An identifier is read up to something else. -/
theorem next_of_ident {y : String} {d : Char} {ds : List Char} (hy : IsIdentifier y)
    (hname : y.toList = d :: ds) (hhead : ∀ e, cs.head? = some e → isNamePart e = false) :
    next d (ds ++ cs) = (.token (.ident y), ds.length) := by
  rcases hy.chars with ⟨c, cs', hchars, hstart, hparts⟩
  rw [hname] at hchars
  cases hchars
  have hword : word y = .ident y := by
    rw [word, hy.notKeyword]
  rw [next_word hname hstart hparts hhead, hword]

/-- A lexeme other than an identifier is cut off both texts alike. -/
theorem cut_recased (h : Recased (cs.drop n) cs') :
    (cs.take n ++ cs').take n = cs.take n ∧ (cs.take n ++ cs').drop n = cs' := by
  by_cases hn : n ≤ cs.length
  · have hlength : (cs.take n).length = n := List.length_take_of_le hn
    exact ⟨List.take_left' hlength, List.drop_left' hlength⟩
  · have hlong : cs.length ≤ n := Nat.le_of_not_le hn
    rw [List.drop_of_length_le hlong] at h
    cases h
    simp [List.take_of_length_le hlong, List.drop_of_length_le hlong]

/-- Both texts are refused for the same characters on the same line, or have alike tokens. -/
theorem scan_recased (h : Recased cs cs') (line : Nat) :
    (∃ e, scan line cs = .error e ∧ scan line cs' = .error e) ∨
      ∃ ts ts', scan line cs = .ok ts ∧ scan line cs' = .ok ts' ∧
        List.Forall₂ Located.Alike ts ts' := by
  induction h generalizing line with
  | nil =>
      refine .inr ⟨[], [], ?_, ?_, .nil⟩
      · rw [scan]
      · rw [scan]
  | @name c cs x n y cs' hnext hy hsame hrest ih =>
      rcases ident_of_next hnext with ⟨hx, hchars, hhead⟩
      rcases hy.chars with ⟨d, ds, hname, hstart, hparts⟩
      have hhead' := head?_recased_of_false ignoresNames_isNamePart hrest hhead
      have hnext' := next_of_ident hy hname hhead'
      -- no line ends within an identifier, so what follows begins on the same line in both
      have hcount : List.count '\n' (c :: cs.take n) = 0 := hchars ▸ count_lineFeed hx
      have hcount' : List.count '\n' (d :: (ds ++ cs').take ds.length) = 0 := by
        rw [List.take_left, ← hname]
        exact count_lineFeed hy
      rw [hname, List.cons_append, scan, scan]
      simp only [hnext, hnext', hcount, hcount', List.drop_left]
      rcases ih (line + 0) with ⟨e, he, he'⟩ | ⟨ts, ts', hts, hts', halike⟩
      · rw [he, he']
        exact .inl ⟨e, rfl, rfl⟩
      · rw [hts, hts']
        refine .inr ⟨_, _, rfl, rfl, .cons ⟨?_, rfl⟩ halike⟩
        exact .ident (normalizeName_of_sameLetters hx hy hsame)
  | @other c cs lexeme n cs' hnext hident hrest ih =>
      have hnext' := next_recased hnext hrest
      rcases cut_recased hrest with ⟨htake, hdrop⟩
      rw [scan, scan]
      simp only [hnext, hnext', htake, hdrop]
      cases lexeme with
      | malformed => exact .inl ⟨_, rfl, rfl⟩
      | skipped => exact ih _
      | token t =>
          rcases ih (line + List.count '\n' (c :: cs.take n)) with
            ⟨e, he, he'⟩ | ⟨ts, ts', hts, hts', halike⟩
          · simp only [he, he']
            exact .inl ⟨e, rfl, rfl⟩
          · simp only [hts, hts']
            exact .inr ⟨_, _, rfl, rfl, .cons ⟨.same t, rfl⟩ halike⟩

end Lexer
end Script
end ScriptHost
