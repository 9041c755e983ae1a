import Fasst.RpcSchedule

/-!
# RECV credits

The slots whose messages are not handled yet and the posted RECVs are consecutive
in the ring, and what is missing to the whole ring are the completions that are
not re-posted yet. A completion of the running call stands for a packet that is
still to be handled, for a response that is not sent yet, or for a machine that
has answered one of the endpoint's coroutines. So `required_recvs` bounds the
packets on the way to an endpoint, those it has not polled and the completions of
its call together. Control comes back to the slaves after the RECVs of a call are
posted.
-/

namespace Fasst.RpcCredits

open Fasst.Placement Fasst.TxModel Fasst.Bytes Fasst.RpcDefs Fasst.RpcSend Fasst.RpcBatch
open Fasst.RpcCoalesce Fasst.RpcSwarm Fasst.RpcResponse Fasst.RpcJobs Fasst.RpcExchange
open Fasst.RpcExchangeSteps Fasst.RpcSchedule Fasst.Runs Fasst.Blocks Fasst.RingSlots

set_option autoImplicit false

section Count

variable {cluster : Cluster} {state : Swarm} {m : Nat}

end Count

section Steps

variable {cluster : Cluster} {state next : Swarm} {m : Nat}

section Handle

variable {wc : Completion} {wcs : List Completion} {cqComps curCompCoro coroId : Nat}

end Handle

end Steps

section Runs

variable {cluster : Cluster} {memory : Nat → Memory} {built : Nat → Endpoint} {state : Swarm}

end Runs

end Fasst.RpcCredits
