import ScriptHost.Text.CaseData

/-!
# Lower-casing

Full lower-casing of a text. Each character has a lower-case form that depends on the character
alone, with two exceptions: the dotted capital `İ` becomes two characters, and the capital sigma
becomes the final small sigma at the end of a word and the ordinary one elsewhere.
-/

namespace ScriptHost
namespace Text

/-! ## Single characters -/

def isCased (c : Char) : Bool :=
  within casedRanges c

def isCaseIgnorable (c : Char) : Bool :=
  within caseIgnorableRanges c

/-- The lower-case form of a character, whatever stands around it. -/
def lowerChar (c : Char) : List Char :=
  if c.toNat < 0x80 then
    -- the case of these letters is not in the table
    [c.toLower]
  else if c = '\u0130' then
    ['i', '\u0307']
  else
    match lowerRuns.find? fun r => r.covers c.toNat with
    | some r => [Char.ofNat (c.toNat + r.offset).toNat]
    | none => [c]

/-! ## Sigma in context -/

/-- Whether the first character that counts for case is a letter with case. -/
def startsCased (cs : List Char) : Bool :=
  match cs.dropWhile isCaseIgnorable with
  | c :: _ => isCased c
  | [] => false

/-- A sigma ends a word when a cased letter precedes it and none follows. The characters in
front are given nearest first. -/
def endsWord (before after : List Char) : Bool :=
  startsCased before && !startsCased after

/-! ## Whole texts -/

def lowerAfter (before : List Char) : List Char → List Char
  | [] => []
  | c :: rest =>
      let lowered :=
        if c = '\u03a3' then
          [if endsWord before rest then '\u03c2' else '\u03c3']
        else
          lowerChar c
      lowered ++ lowerAfter (c :: before) rest

def lowercase (s : String) : String :=
  String.ofList (lowerAfter [] s.toList)

end Text
end ScriptHost
