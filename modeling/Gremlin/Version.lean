/-!
# Release number
-/

namespace Gremlin

/-- The release of this library, as three dotted numbers. -/
def version : String := "0.1.0"

end Gremlin
