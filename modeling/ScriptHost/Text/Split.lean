/-!
# Cutting texts
-/

namespace ScriptHost
namespace Text

/-- What stands before and after the first occurrence of a character. -/
def splitAtFirst (sep : Char) : List Char → Option (List Char × List Char)
  | [] => none
  | c :: rest =>
      if c = sep then
        some ([], rest)
      else
        (splitAtFirst sep rest).map fun (before, after) => (c :: before, after)

end Text
end ScriptHost
