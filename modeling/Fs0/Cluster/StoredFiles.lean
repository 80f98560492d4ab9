import Fs0.Central.CommittedReads
import Fs0.Central.FileSizes
import Fs0.Client.RoundTrip

/-!
Contract: files, from the client that uploads them through central to the client that downloads
them.

Owns:
- that the plan central answers for a committed upload lists its bundles;
- that a download of this plan gives the file that was uploaded.

Does not own: how central and the storages come by the replicas of a bundle.
-/

set_option autoImplicit false

namespace Fs0

open Lib Fallible

/-! ## Plans of committed uploads -/

namespace StoredFilesScenario

open RoundTripScenario Scenario

/-- The commit of the file of two chunks. -/
def submitted : CommitUpdateRequest :=
  ⟨1, 1, 0, volumeRawChunkSize + 3, [⟨bundleId, volumeRawChunkSize + 3, 9⟩]⟩

/-- The events up to the second section of the commit. -/
def storing : List CentralEvent :=
  (Scenario.registered ++ request 1 3 4 2 (.beginUpdate ⟨"/a", 0, none, none⟩) ++
    request 2 4 1 2 (.reportBundleReplica [⟨1, .stored, 1, bundleId, some (volumeRawChunkSize + 3), some 9⟩]) ++
    request 1 5 2 3 (.commitUpdate submitted)).dropLast

/-- The commit is answered, and a request for the plan is started. -/
def asked : List CentralEvent :=
  [.run 1 (inputs 3), .run 1 (inputs 3), .receive 1 (.control (.getFileReadPlanById 1)),
    .lockIdentity 1 6]

/-- A report of bundles of the length of the file. -/
def tellsLength : ProtocolRequest → Bool
  | .control (.reportBundleReplica events) =>
      events.all fun event => event.rawLen = some (volumeRawChunkSize + 3)
  | _ => true

/-- Every report is one of bundles of the length of the file. -/
def agrees (_ : Central) : CentralEvent → Bool
  | .receive _ request => tellsLength request
  | _ => true

/-- What may happen between the commit and the plan. -/
def reads (s : Central) (e : CentralEvent) : Bool := agrees s e && onlyRenames s e

end StoredFilesScenario

end Fs0
