import Mathlib.Data.List.Induction
import ScriptHost.Host.Event

/-!
# Events and their texts

Every event has a text of its own, and a text is read as that event whose text it is. Only the size
of a window can be written in other ways besides, since a plus sign and zeros may stand in front of
its digits. Texts are cut at their first colon, and sizes at their first cross; what titles and
addresses contain makes no difference to that.
-/

namespace ScriptHost

/-! ## Where a text is cut -/

namespace Text

variable {sep : Char} {cs before after : List Char}

/-- A text is cut at the first separator. -/
theorem splitAtFirst_append (h : sep ∉ before) (after : List Char) :
    splitAtFirst sep (before ++ sep :: after) = some (before, after) := by
  induction before with
  | nil => simp [splitAtFirst]
  | cons c before ih =>
      simp only [List.mem_cons, not_or] at h
      simp [splitAtFirst, Ne.symm h.1, ih h.2]

/-- Both parts make up the text, with the separator in between. -/
theorem eq_append_of_splitAtFirst (h : splitAtFirst sep cs = some (before, after)) :
    cs = before ++ sep :: after := by
  induction cs generalizing before with
  | nil => cases h
  | cons c cs ih =>
      unfold splitAtFirst at h
      split at h
      · rename_i hc
        cases h
        rw [hc]
        rfl
      · rcases Option.map_eq_some_iff.1 h with ⟨⟨before', after'⟩, hrest, heq⟩
        cases heq
        rw [ih hrest]
        rfl

end Text

/-! ## Numerals -/

namespace Number

/-- A number in decimal digits, with any number of zeros in front. -/
inductive InDigits : List Char → Nat → Prop
  | digit {d : Nat} : d < 10 → InDigits [d.digitChar] d
  | append {cs : List Char} {n d : Nat} : InDigits cs n → d < 10 →
      InDigits (cs ++ [d.digitChar]) (10 * n + d)

/-- The characters of digits are digits, and have their values. -/
theorem isDigit_digitChar {d : Nat} (h : d < 10) :
    isDigit d.digitChar = true ∧ digitValue d.digitChar = d := by
  have hall : ∀ d < 10, isDigit d.digitChar = true ∧ digitValue d.digitChar = d := by decide
  exact hall d h

theorem exists_digitChar {c : Char} (h : isDigit c = true) : ∃ d < 10, d.digitChar = c := by
  have hrange : '0'.toNat ≤ c.toNat ∧ c.toNat ≤ '9'.toNat := by
    simpa [isDigit, Char.le_def, UInt32.le_iff_toNat_le] using h
  have hall : ∀ n < 10, n.digitChar = Char.ofNat ('0'.toNat + n) := by decide
  have hlt : c.toNat - '0'.toNat < 10 := Nat.lt_of_le_of_lt (Nat.sub_le_sub_right hrange.2 _)
    (by decide)
  refine ⟨c.toNat - '0'.toNat, hlt, ?_⟩
  rw [hall _ hlt, Nat.add_sub_cancel' hrange.1, Char.ofNat_toNat]

theorem InDigits.isDigit {cs : List Char} {n : Nat} (h : InDigits cs n) :
    ∀ c ∈ cs, Number.isDigit c = true := by
  induction h with
  | digit hd => simpa using (isDigit_digitChar hd).1
  | append _ hd ih =>
      intro c hc
      rcases List.mem_append.1 hc with hc | hc
      · exact ih c hc
      · rw [List.mem_singleton.1 hc]
        exact (isDigit_digitChar hd).1

/-- Digits denote the number that they are the digits of. -/
theorem InDigits.numeralValue_eq {cs : List Char} {n : Nat} (h : InDigits cs n) :
    numeralValue 10 cs = n := by
  induction h with
  | digit hd => simp [numeralValue, (isDigit_digitChar hd).2]
  | append _ hd ih => rw [numeralValue_append_singleton, ih, (isDigit_digitChar hd).2]

theorem InDigits.ne_nil {cs : List Char} {n : Nat} (h : InDigits cs n) : cs ≠ [] := by
  cases h <;> simp

/-- Any row of digits is that of its number. -/
theorem inDigits_of_isDigit {cs : List Char} (hne : cs ≠ [])
    (h : ∀ c ∈ cs, Number.isDigit c = true) : InDigits cs (numeralValue 10 cs) := by
  induction cs using List.reverseRecOn with
  | nil => exact absurd rfl hne
  | append_singleton cs c ih =>
      rcases exists_digitChar (h c (by simp)) with ⟨d, hd, rfl⟩
      rw [numeralValue_append_singleton, (isDigit_digitChar hd).2]
      by_cases hcs : cs = []
      -- a single digit is a numeral, and nothing else is the beginning of one
      · subst hcs
        simpa [numeralValue] using InDigits.digit hd
      · exact .append (ih hcs fun e he => h e (List.mem_append_left _ he)) hd

/-- Digits with zeros before them are allowed. -/
theorem inDigits_iff {cs : List Char} {n : Nat} :
    InDigits cs n ↔ cs ≠ [] ∧ (∀ c ∈ cs, isDigit c = true) ∧ numeralValue 10 cs = n := by
  constructor
  · intro h
    exact ⟨h.ne_nil, h.isDigit, h.numeralValue_eq⟩
  · rintro ⟨hne, hdigits, rfl⟩
    exact inDigits_of_isDigit hne hdigits

/-- How numbers are written is one of the ways in which they are read. -/
theorem inDigits_toDigits (n : Nat) : InDigits (Nat.toDigits 10 n) n := by
  induction n using Nat.strongRecOn with
  | ind n ih =>
      by_cases hn : n < 10
      · rw [Nat.toDigits_of_lt_base hn]
        exact .digit hn
      · have hlast : InDigits (Nat.toDigits 10 (n / 10) ++ [(n % 10).digitChar])
            (10 * (n / 10) + n % 10) :=
          .append (ih (n / 10) (by omega)) (Nat.mod_lt n (by decide))
        rwa [← Nat.toDigits_of_base_le (by decide) (Nat.not_lt.1 hn), Nat.div_add_mod] at hlast

end Number

namespace Host

open Number

/-- A numeral as it may stand in a size: digits, with a plus sign in front or without. -/
inductive IsNumeral : List Char → Nat → Prop
  | plain {cs : List Char} {n : Nat} : InDigits cs n → IsNumeral cs n
  | signed {cs : List Char} {n : Nat} : InDigits cs n → IsNumeral ('+' :: cs) n

/-- A number that is printed can be read. -/
theorem isNumeral_toString (n : Nat) : IsNumeral (toString n).toList n := by
  rw [Nat.toString_eq_ofList_toDigits, String.toList_ofList]
  exact .plain (inDigits_toDigits n)

/-- No numeral contains a cross. -/
theorem IsNumeral.not_mem {cs : List Char} {n : Nat} (h : IsNumeral cs n) : 'x' ∉ cs := by
  have hdigits {ds : List Char} (hds : InDigits ds n) : 'x' ∉ ds := by
    intro hx
    exact absurd (hds.isDigit 'x' hx) (by decide)
  cases h with
  | plain h => exact hdigits h
  | signed h => simpa using hdigits h

namespace Event

/-- The number that a row of digits denotes; nothing if it is empty or not all of it are digits. -/
def digits? (ds : List Char) : Option Nat :=
  if ds ≠ [] ∧ ds.all isDigit then some (numeralValue 10 ds) else none

/-- Digits are read as their number. -/
theorem digits?_eq_some {ds : List Char} {n : Nat} : digits? ds = some n ↔ InDigits ds n := by
  unfold digits?
  split
  · rename_i h
    have hall : ∀ c ∈ ds, isDigit c = true := List.all_eq_true.1 h.2
    rw [inDigits_iff, Option.some.injEq]
    exact ⟨fun hn => ⟨h.1, hall, hn⟩, fun hn => hn.2.2⟩
  · rename_i h
    refine ⟨nofun, fun hn => ?_⟩
    exact absurd ⟨hn.ne_nil, List.all_eq_true.2 hn.isDigit⟩ h

/-- Without a plus sign there are only digits. -/
theorem natural?_of_unsigned {cs : List Char} (h : ∀ rest, cs ≠ '+' :: rest) :
    natural? cs = digits? cs := by
  simp [natural?, digits?]

/-- Digits do not begin with a sign, so only one of the two forms can apply. -/
theorem natural?_eq_some {cs : List Char} {n : Nat} : natural? cs = some n ↔ IsNumeral cs n := by
  by_cases hsigned : ∃ rest, cs = '+' :: rest
  · rcases hsigned with ⟨rest, rfl⟩
    have hread : natural? ('+' :: rest) = digits? rest := rfl
    rw [hread, digits?_eq_some]
    refine ⟨.signed, ?_⟩
    rintro (h | h)
    · exact absurd (h.isDigit '+' List.mem_cons_self) (by decide)
    · exact h
  · rw [natural?_of_unsigned (not_exists.1 hsigned), digits?_eq_some]
    refine ⟨.plain, ?_⟩
    rintro (h | h)
    · exact h
    · exact absurd ⟨_, rfl⟩ hsigned

/-- A size is read if it has 32 bits. -/
theorem pixels?_eq_some {cs : List Char} {w : UInt32} :
    pixels? cs = some w ↔ IsNumeral cs w.toNat := by
  constructor
  · intro h
    rcases Option.bind_eq_some_iff.1 h with ⟨n, hn, hw⟩
    -- a number that is too large is refused, and every other one is its own remainder
    split at hw
    · rename_i hlt
      cases hw
      rw [UInt32.toNat_ofNat_of_lt' hlt]
      exact natural?_eq_some.1 hn
    · cases hw
  · intro h
    refine Option.bind_eq_some_iff.2 ⟨w.toNat, natural?_eq_some.2 h, ?_⟩
    rw [if_pos w.toNat_lt, UInt32.ofNat_toNat]

/-- Two sizes are cut at the first cross. -/
theorem resized?_eq_some {cs : List Char} {e : Event} :
    resized? cs = some e ↔ ∃ (width height : UInt32) (a b : List Char), e = .resized width height ∧
      cs = a ++ 'x' :: b ∧ IsNumeral a width.toNat ∧ IsNumeral b height.toNat := by
  constructor
  · intro h
    rcases Option.bind_eq_some_iff.1 h with ⟨⟨a, b⟩, hcut, hsizes⟩
    rcases Option.bind_eq_some_iff.1 hsizes with ⟨width, hwidth, hrest⟩
    rcases Option.bind_eq_some_iff.1 hrest with ⟨height, hheight, hevent⟩
    cases hevent
    exact ⟨width, height, a, b, rfl, Text.eq_append_of_splitAtFirst hcut,
      pixels?_eq_some.1 hwidth, pixels?_eq_some.1 hheight⟩
  -- a numeral contains no cross, so the first cross is the one between the two
  · rintro ⟨width, height, a, b, rfl, rfl, ha, hb⟩
    have hcut := Text.splitAtFirst_append ha.not_mem b
    refine Option.bind_eq_some_iff.2 ⟨(a, b), hcut, ?_⟩
    refine Option.bind_eq_some_iff.2 ⟨width, pixels?_eq_some.2 ha, ?_⟩
    exact Option.bind_eq_some_iff.2 ⟨height, pixels?_eq_some.2 hb, rfl⟩

/-! ## Texts of events -/

/-- The text is that of the event, or gives its sizes as numerals of another form. -/
def IsWritten (e : Event) (s : String) : Prop :=
  s = e.text ∨ ∃ (width height : UInt32) (a b : String), e = .resized width height ∧
    s = "resize:" ++ a ++ "x" ++ b ∧
    IsNumeral a.toList width.toNat ∧ IsNumeral b.toList height.toNat

/-- Only two texts are flags. -/
theorem flag?_eq_some {s : String} {b : Bool} : flag? s = some b ↔ s = Text.flag b := by
  unfold flag?
  split
  · rename_i h
    subst h
    cases b <;> decide
  · rename_i hne
    split
    · rename_i h
      subst h
      cases b <;> decide
    · rename_i hne'
      cases b
      · exact ⟨nofun, fun h => absurd h hne'⟩
      · exact ⟨nofun, fun h => absurd h hne⟩

/-- Without an argument only those events are meant that have none. -/
theorem plain?_eq_some {s : String} {e : Event} (h : plain? s = some e) : s = e.text := by
  have htext := List.find?_some h
  exact (beq_iff_eq.1 htext).symm

/-- The kind of an event ends at the first colon. -/
theorem ofText?_of_colon {kind : List Char} (h : ':' ∉ kind) (argument : List Char) :
    ofText? (String.ofList (kind ++ ':' :: argument)) =
      withArgument? (String.ofList kind) argument := by
  unfold ofText?
  rw [String.toList_ofList, Text.splitAtFirst_append h]

/-- An argument is never misread: the kind in front of it tells how it was written. -/
theorem isWritten_of_withArgument? {kind argument : List Char} {e : Event}
    (h : withArgument? (String.ofList kind) argument = some e) :
    e.IsWritten (String.ofList (kind ++ ':' :: argument)) := by
  have htext : String.ofList (kind ++ ':' :: argument) =
      String.ofList kind ++ ":" ++ String.ofList argument := by
    simp [← String.toList_inj]
  rw [htext]
  unfold withArgument? at h
  split at h
  · rename_i hkind
    cases h
    rw [hkind]
    exact .inl rfl
  · rename_i hkind
    cases h
    rw [hkind]
    exact .inl rfl
  · rename_i hkind
    rcases Option.map_eq_some_iff.1 h with ⟨b, hb, rfl⟩
    rw [hkind, flag?_eq_some.1 hb]
    exact .inl rfl
  · -- The sizes are the one argument that can be written in several ways.
    rename_i hkind
    rcases resized?_eq_some.1 h with ⟨width, height, a, b, rfl, rfl, ha, hb⟩
    refine .inr ⟨width, height, String.ofList a, String.ofList b, rfl, ?_, ?_, ?_⟩
    · rw [hkind]
      simp [← String.toList_inj]
    · rwa [String.toList_ofList]
    · rwa [String.toList_ofList]
  · cases h

/-- What can be read is written as the event. -/
theorem isWritten_of_ofText? {s : String} {e : Event} (h : ofText? s = some e) :
    e.IsWritten s := by
  unfold ofText? at h
  split at h
  · rename_i kind argument hcut
    have hs := Text.eq_append_of_splitAtFirst hcut
    have hwritten := isWritten_of_withArgument? h
    rwa [← hs, String.ofList_toList] at hwritten
  · exact .inl (plain?_eq_some h)

/-- Sizes can be written in several ways. -/
theorem ofText?_resized {width height : UInt32} {a b : String}
    (ha : IsNumeral a.toList width.toNat) (hb : IsNumeral b.toList height.toNat) :
    ofText? ("resize:" ++ a ++ "x" ++ b) = some (.resized width height) := by
  have htext : "resize:" ++ a ++ "x" ++ b =
      String.ofList ("resize".toList ++ ':' :: (a.toList ++ 'x' :: b.toList)) := by
    simp [← String.toList_inj]
  rw [htext, ofText?_of_colon (by decide)]
  exact resized?_eq_some.2 ⟨width, height, _, _, rfl, rfl, ha, hb⟩

/-- The text of an event is read as the event. -/
theorem ofText?_text (e : Event) : ofText? e.text = some e := by
  -- the argument may contain further colons, since only the kind is looked at
  have hargument (kind argument : String) (hkind : ':' ∉ kind.toList) :
      ofText? (kind ++ ":" ++ argument) = withArgument? kind argument.toList := by
    have htext : kind ++ ":" ++ argument =
        String.ofList (kind.toList ++ ':' :: argument.toList) := by
      simp [← String.toList_inj]
    rw [htext, ofText?_of_colon hkind, String.ofList_toList]
  cases e with
  | loadStarted => decide
  | loadFinished => decide
  | domReady => decide
  | closeRequested => decide
  | titleChanged title =>
      refine (hargument "title" title (by decide)).trans ?_
      simp [withArgument?]
  | uriChanged uri =>
      refine (hargument "navigate" uri (by decide)).trans ?_
      simp [withArgument?]
  | focusChanged focused => cases focused <;> decide
  | resized width height =>
      have htext : text (.resized width height) =
          "resize:" ++ toString width.toNat ++ "x" ++ toString height.toNat := by
        simp [text, sizeText, ← String.toList_inj]
      rw [htext]
      exact ofText?_resized (isNumeral_toString _) (isNumeral_toString _)

theorem ofText?_eq_some {s : String} {e : Event} : ofText? s = some e ↔ e.IsWritten s := by
  constructor
  · exact isWritten_of_ofText?
  · rintro (rfl | ⟨width, height, a, b, rfl, rfl, ha, hb⟩)
    · exact ofText?_text e
    · exact ofText?_resized ha hb

/-- A text is read as an event just if it is the text of that event or gives its sizes in another
form. So every event is read back from its text, no two events share one, and whatever is not the
text of an event in any form is refused. -/
theorem texts_correspond_to_events :
    (∀ s e, ofText? s = some e ↔ e.IsWritten s) ∧
    (∀ e, ofText? e.text = some e) ∧
    (∀ e e' : Event, e.text = e'.text → e = e') ∧
    ∀ s, ofText? s = none ↔ ∀ e : Event, ¬ e.IsWritten s := by
  refine ⟨fun s e => ofText?_eq_some, ofText?_text, fun e e' h => ?_, fun s => ?_⟩
  · have hread := ofText?_text e
    rw [h, ofText?_text e'] at hread
    exact (Option.some.inj hread).symm
  · rw [Option.eq_none_iff_forall_ne_some]
    exact forall_congr' fun e => not_congr ofText?_eq_some

end Event
end Host
end ScriptHost
