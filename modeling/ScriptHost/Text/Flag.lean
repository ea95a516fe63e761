/-!
# Words for truth values
-/

namespace ScriptHost
namespace Text

def flag (b : Bool) : String :=
  if b then "true" else "false"

end Text
end ScriptHost
