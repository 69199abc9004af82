import CheckHarness.Checker
import CheckHarness.Proofs.Execution.Guard

namespace CheckHarness

variable {event : Log.Event}

namespace Guarded

variable {deadline : Nat} {turns : List Turn}

end Guarded

namespace Operation

variable {deadline now : Nat}

end Operation

namespace Checker

end Checker

end CheckHarness
