import Phrasebook.Extraction
import Phrasebook.Proofs.Extraction.Flags
import Phrasebook.Proofs.Session.UnknownCalls

/-!
# Calls that stay unresolved

A call of a translation function that passes no literal key is unresolved unless an expansion is
known for its text.  The unresolved calls of an extraction are those in the sources it has read and
parsed, and these it counts.
-/

namespace Phrasebook

open CommandLine

namespace Source

end Source

namespace Session

variable {session : Session} {tree : FileTree}

end Session

namespace Extraction

variable {tree : FileTree} {arguments : ExtractArguments} {config : Config} {root : Path}

end Extraction
end Phrasebook
