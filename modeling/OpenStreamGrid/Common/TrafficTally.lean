import OpenStreamGrid.Common.Types

/-!
# Counting traffic

How the counters of a load or a fetch are judged: by the six that say where its bytes
came from and how its peers did. The others are free.
-/

namespace OpenStreamGrid

/-- `stats[key] += n` -/
def countTraffic (stats : PeerTrafficStats) (key : PeerTrafficStatKey) (n : ℕ) :
    PeerTrafficStats :=
  fun other => if other = key then stats other + n else stats other

/-- The counters of one load. -/
structure Tally (stats : PeerTrafficStats) (requests successes failures fallbacks p2p origin : ℕ) :
    Prop where
  requests : stats .p2pRequests = requests
  successes : stats .p2pSuccesses = successes
  failures : stats .p2pFailures = failures
  fallbacks : stats .fallbacks = fallbacks
  p2p : stats .bytesDownloadedP2P = p2p
  origin : stats .bytesDownloadedOrigin = origin

namespace Tally

variable {stats : PeerTrafficStats} {requests successes failures fallbacks p2p origin : ℕ}

theorem zero : Tally 0 0 0 0 0 0 0 := ⟨rfl, rfl, rfl, rfl, rfl, rfl⟩

section Counted

variable (h : Tally stats requests successes failures fallbacks p2p origin)

include h

theorem request : Tally (countTraffic stats .p2pRequests 1)
    (requests + 1) successes failures fallbacks p2p origin :=
  ⟨congrArg (· + 1) h.requests, h.successes, h.failures, h.fallbacks, h.p2p, h.origin⟩

theorem success : Tally (countTraffic stats .p2pSuccesses 1)
    requests (successes + 1) failures fallbacks p2p origin :=
  ⟨h.requests, congrArg (· + 1) h.successes, h.failures, h.fallbacks, h.p2p, h.origin⟩

theorem failure : Tally (countTraffic stats .p2pFailures 1)
    requests successes (failures + 1) fallbacks p2p origin :=
  ⟨h.requests, h.successes, congrArg (· + 1) h.failures, h.fallbacks, h.p2p, h.origin⟩

theorem fallback : Tally (countTraffic stats .fallbacks 1)
    requests successes failures (fallbacks + 1) p2p origin :=
  ⟨h.requests, h.successes, h.failures, congrArg (· + 1) h.fallbacks, h.p2p, h.origin⟩

theorem p2pBytes (n : ℕ) : Tally (countTraffic stats .bytesDownloadedP2P n)
    requests successes failures fallbacks (p2p + n) origin :=
  ⟨h.requests, h.successes, h.failures, h.fallbacks, congrArg (· + n) h.p2p, h.origin⟩

theorem originBytes (n : ℕ) : Tally (countTraffic stats .bytesDownloadedOrigin n)
    requests successes failures fallbacks p2p (origin + n) :=
  ⟨h.requests, h.successes, h.failures, h.fallbacks, h.p2p, congrArg (· + n) h.origin⟩

theorem originRequest : Tally (countTraffic stats .originRequests 1)
    requests successes failures fallbacks p2p origin :=
  ⟨h.requests, h.successes, h.failures, h.fallbacks, h.p2p, h.origin⟩

theorem integrityFailure : Tally (countTraffic stats .integrityFailures 1)
    requests successes failures fallbacks p2p origin :=
  ⟨h.requests, h.successes, h.failures, h.fallbacks, h.p2p, h.origin⟩

end Counted

end Tally

end OpenStreamGrid
