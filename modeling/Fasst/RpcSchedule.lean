import Fasst.RpcExchangeSteps
import Fasst.Threads

/-!
# The ring of coroutines

While `poll_comps` handles completions, the coroutines whose batch got its last
response are threaded through `next_coro` behind the master, and the last of them
is `cur_comp_coro`; returning closes the ring. Each of them then runs once, sends
and hands control to the one behind it. So the ring lists exactly the coroutines
that are not waiting, and a coroutine that runs has no response outstanding. This
makes every run of the endpoints a run in the sense of `openStep`.
-/

namespace Fasst.RpcSchedule

open Fasst.Placement Fasst.TxModel Fasst.Bytes Fasst.RpcDefs Fasst.RpcSend Fasst.RpcBatch
open Fasst.RpcCoalesce Fasst.RpcSwarm Fasst.RpcJobs Fasst.RpcExchange Fasst.RpcExchangeSteps
open Fasst.Runs Fasst.Threads

set_option autoImplicit false

structure Status where
  sent : Nat
  resumed : Nat
  answered : Bool

def status (job : Job) : Status := ⟨job.sent, job.resumed, job.answered⟩

def Status.Waiting (coro : Status) : Prop := coro.resumed = coro.sent ∧ coro.answered = false

/-- The batch is complete, or there is none yet; control has not come back. -/
def Status.Listed (coro : Status) : Prop := coro.resumed = coro.sent ∧ coro.answered = true

def Status.Running (coro : Status) : Prop := coro.resumed = coro.sent + 1 ∧ coro.answered = true

/-- The coroutines of a call of `poll_comps` so far. -/
structure Collected (args : RpcArgs) (curCompCoro : Nat) (nextCoro : Nat → Nat)
    (coros : Nat → Status) (round : List Nat) : Prop where
  nodup : round.Nodup
  slaves : ∀ coro ∈ round, coro ∈ slaves args
  threaded : Threaded nextCoro rpcMasterCoroId round
  last : curCompCoro = round.getLastD rpcMasterCoroId
  listed : ∀ coro ∈ round, (coros coro).Listed
  waiting : ∀ coro ∈ RpcExchange.slaves args, coro ∉ round → (coros coro).Waiting

/-- The ring while `poll_comps` does not run: the coroutine that runs, if any, and
those that have not run yet. -/
structure Ring (args : RpcArgs) (nextCoro : Nat → Nat) (coros : Nat → Status) (round : List Nat)
    (current later : List Nat) : Prop where
  nodup : round.Nodup
  slaves : ∀ coro ∈ round, coro ∈ slaves args
  closed : Threaded nextCoro rpcMasterCoroId (round ++ [rpcMasterCoroId])
  rest : current ++ later <:+ round
  running : ∀ coro ∈ current, (coros coro).Running
  listed : ∀ coro ∈ later, (coros coro).Listed
  waiting : ∀ coro ∈ RpcExchange.slaves args, coro ∉ current ++ later → (coros coro).Waiting

def Scheduled (args : RpcArgs) (ctl : Ctl) (nextCoro : Nat → Nat) (coros : Nat → Status)
    (round : List Nat) : Prop :=
  match ctl with
  | .polling => Ring args nextCoro coros round [] []
  | .handling _ _ curCompCoro => Collected args curCompCoro nextCoro coros round
  | .responding curCompCoro => Collected args curCompCoro nextCoro coros round
  | .running coroId => ∃ later, Ring args nextCoro coros round [coroId] later

def Schedule (cluster : Cluster) (state : Swarm) : Prop :=
  ∀ m, m < cluster.numMachines →
    Scheduled (cluster.args m) (state.endpoints m).ctl (state.endpoints m).nextCoro
      (fun coro => status (state.jobs m coro)) (state.round m)

variable {args : RpcArgs} {nextCoro : Nat → Nat} {coros : Nat → Status} {round later : List Nat}

theorem slave_ne_master {coro : Nat} (slave : coro ∈ slaves args) : coro ≠ rpcMasterCoroId := by
  obtain ⟨first, -⟩ := List.mem_range'_1.mp slave
  simp only [rpcMasterCoroId]
  omega

theorem master_not_mem (member : ∀ coro ∈ round, coro ∈ slaves args) :
    rpcMasterCoroId ∉ round :=
  fun master => slave_ne_master (member _ master) rfl

section Rings

/-- The coroutine behind the ones that have run. -/
def nextOf (later : List Nat) : Nat := later.headD rpcMasterCoroId

theorem threaded_next {start : Nat} (threaded : Threaded nextCoro start (later ++ [rpcMasterCoroId])) :
    nextCoro start = nextOf later := by
  cases later with
  | nil => exact threaded.1
  | cons coro rest => exact threaded.1

theorem ring_next {coro : Nat} (ring : Ring args nextCoro coros round [coro] later) :
    nextCoro coro = nextOf later := by
  obtain ⟨before, all⟩ := ring.rest
  have closed := ring.closed
  rw [← all, List.append_assoc, List.append_assoc, ← List.append_assoc before,
    threaded_append] at closed
  have last : (before ++ [coro]).getLastD rpcMasterCoroId = coro := List.getLastD_concat
  rw [last] at closed
  exact threaded_next closed.2

/-- Control goes to the next coroutine of the ring. -/
theorem ring_pass {coro : Nat} (ring : Ring args nextCoro coros round [] (coro :: later)) :
    Ring args nextCoro
      (Function.update coros coro { coros coro with resumed := (coros coro).resumed + 1 }) round
      [coro] later := by
  have once : (coro :: later).Nodup := ring.nodup.sublist ring.rest.sublist
  have listed := ring.listed coro List.mem_cons_self
  refine ⟨ring.nodup, ring.slaves, ring.closed, ring.rest, ?_, ?_, ?_⟩
  · intro other member
    rw [List.mem_singleton.mp member, Function.update_self]
    exact ⟨congrArg (· + 1) listed.1, listed.2⟩
  · intro other member
    have apart : other ≠ coro := by
      intro equal
      exact (List.nodup_cons.mp once).1 (equal ▸ member)
    rw [Function.update_of_ne apart]
    exact ring.listed other (List.mem_cons_of_mem coro member)
  · intro other slave absent
    have apart : other ≠ coro := by
      intro equal
      exact absent (equal ▸ List.mem_cons_self)
    rw [Function.update_of_ne apart]
    exact ring.waiting other slave absent

/-- The coroutine that runs sends a batch. -/
theorem ring_sent {coro : Nat} {after : Status}
    (ring : Ring args nextCoro coros round [coro] later) (waiting : after.Waiting) :
    Ring args nextCoro (Function.update coros coro after) round [] later := by
  have once : ([coro] ++ later).Nodup := ring.nodup.sublist ring.rest.sublist
  refine ⟨ring.nodup, ring.slaves, ring.closed, (List.suffix_cons coro later).trans ring.rest,
    nofun, ?_, ?_⟩
  · intro other member
    have apart : other ≠ coro := by
      intro equal
      exact (List.nodup_cons.mp once).1 (equal ▸ member)
    rw [Function.update_of_ne apart]
    exact ring.listed other member
  · intro other slave absent
    by_cases here : other = coro
    · rw [here, Function.update_self]
      exact waiting
    · rw [Function.update_of_ne here]
      apply ring.waiting other slave
      intro member
      rcases List.mem_cons.mp member with same | among
      · exact here same
      · exact absent among

/-- `poll_comps` returns. -/
theorem collected_ring {curCompCoro : Nat}
    (collected : Collected args curCompCoro nextCoro coros round) :
    Ring args (Function.update nextCoro curCompCoro rpcMasterCoroId) coros round [] round := by
  refine ⟨collected.nodup, collected.slaves, ?_, List.suffix_rfl, nofun, collected.listed,
    collected.waiting⟩
  rw [collected.last]
  apply threaded_update_last _ collected.threaded
  exact List.nodup_cons.mpr ⟨master_not_mem collected.slaves, collected.nodup⟩

/-- A batch gets its last response. -/
theorem collected_completes {curCompCoro coro : Nat} {after : Status}
    (collected : Collected args curCompCoro nextCoro coros round) (slave : coro ∈ slaves args)
    (absent : coro ∉ round) (listed : after.Listed) :
    Collected args coro (Function.update nextCoro curCompCoro coro)
      (Function.update coros coro after) (round ++ [coro]) := by
  refine ⟨?_, ?_, ?_, List.getLastD_concat.symm, ?_, ?_⟩
  · rw [← List.concat_eq_append]
    exact collected.nodup.concat absent
  · intro other member
    rcases List.mem_append.mp member with earlier | last
    · exact collected.slaves other earlier
    · rw [List.mem_singleton.mp last]
      exact slave
  · rw [collected.last]
    apply threaded_update_last _ collected.threaded
    exact List.nodup_cons.mpr ⟨master_not_mem collected.slaves, collected.nodup⟩
  · intro other member
    by_cases here : other = coro
    · rw [here, Function.update_self]
      exact listed
    · rw [Function.update_of_ne here]
      rcases List.mem_append.mp member with earlier | last
      · exact collected.listed other earlier
      · exact absurd (List.mem_singleton.mp last) here
  · intro other inside missing
    have here : other ≠ coro := by
      intro equal
      exact missing (List.mem_append_right _ (equal ▸ List.mem_singleton_self coro))
    rw [Function.update_of_ne here]
    exact collected.waiting other inside fun member => missing (List.mem_append_left _ member)

/-- A batch gets a response and waits for more. -/
theorem collected_waits {curCompCoro coro : Nat} {after : Status}
    (collected : Collected args curCompCoro nextCoro coros round) (absent : coro ∉ round)
    (waiting : after.Waiting) :
    Collected args curCompCoro nextCoro (Function.update coros coro after) round := by
  refine ⟨collected.nodup, collected.slaves, collected.threaded, collected.last, ?_, ?_⟩
  · intro other member
    have here : other ≠ coro := by
      intro equal
      exact absent (equal ▸ member)
    rw [Function.update_of_ne here]
    exact collected.listed other member
  · intro other inside missing
    by_cases here : other = coro
    · rw [here, Function.update_self]
      exact waiting
    · rw [Function.update_of_ne here]
      exact collected.waiting other inside missing

theorem yield_scheduled {ep : Endpoint} {jobs : Nat → Job}
    (ring : Ring args nextCoro (fun coro => status (jobs coro)) round [] later) :
    Scheduled args (ep.yieldTo (nextOf later)).ctl nextCoro
      (fun coro => status (Job.resume jobs (nextOf later) coro)) round := by
  cases later with
  | nil => exact ring
  | cons coro rest =>
      have slave := ring.slaves coro (ring.rest.subset List.mem_cons_self)
      have other := slave_ne_master slave
      have resumed : (fun other => status (Job.resume jobs coro other)) =
          Function.update (fun other => status (jobs other)) coro
            { status (jobs coro) with resumed := (status (jobs coro)).resumed + 1 } := by
        funext other
        rw [Job.resume, if_neg (slave_ne_master slave)]
        by_cases here : other = coro
        · rw [here, Function.update_self, Function.update_self]
          rfl
        · rw [Function.update_of_ne here, Function.update_of_ne here]
      have running : (ep.yieldTo (nextOf (coro :: rest))).ctl = .running coro := if_neg other
      rw [running, show nextOf (coro :: rest) = coro from rfl, resumed]
      exact ⟨rest, ring_pass ring⟩

end Rings

section Steps

variable {cluster : Cluster} {state next : Swarm} {m : Nat}

/-- A step that changes the schedule of one endpoint at most. -/
theorem schedule_local (schedule : Schedule cluster state)
    (ctls : ∀ other, other ≠ m → next.endpoints other = state.endpoints other)
    (coros : ∀ other coro, other ≠ m → status (next.jobs other coro) = status (state.jobs other coro))
    (rounds : ∀ other, other ≠ m → next.round other = state.round other)
    (here : m < cluster.numMachines →
      Scheduled (cluster.args m) (next.endpoints m).ctl (next.endpoints m).nextCoro
        (fun coro => status (next.jobs m coro)) (next.round m)) :
    Schedule cluster next := by
  intro other below
  by_cases same : other = m
  · rw [same] at below ⊢
    exact here below
  · have kept : (fun coro => status (next.jobs other coro)) =
        fun coro => status (state.jobs other coro) := by
      funext coro
      exact coros other coro same
    rw [ctls other same, kept, rounds other same]
    exact schedule other below

theorem status_set_job (state : Swarm) (m coroId : Nat) (job : Job) :
    (fun coro => status ((state.setJob m coroId job).jobs m coro)) =
      Function.update (fun coro => status (state.jobs m coro)) coroId (status job) := by
  funext coro
  by_cases here : coro = coroId
  · rw [here, set_job_self, Function.update_self]
  · rw [Function.update_of_ne here, set_job_other]
    intro equal
    exact here (Prod.mk.inj equal).2

theorem set_job_elsewhere (state : Swarm) (m coroId : Nat) (job : Job) (other coro : Nat)
    (apart : other ≠ m) : (state.setJob m coroId job).jobs other coro = state.jobs other coro :=
  set_job_other state m coroId job other coro fun equal => apart (Prod.mk.inj equal).1

theorem schedule_arrive (schedule : Schedule cluster state) {index : Nat} {stale : Buffer}
    (ran : state.arrive index stale = some next) : Schedule cluster next := by
  obtain ⟨msg, m, slot, posted, -, -, -, rfl⟩ := arrive_inv ran
  apply schedule_local schedule
  · exact set_endpoint_other state _
  · intros
    rfl
  · intros
    rfl
  · intro below
    simp only [set_endpoint_self]
    exact schedule m below

theorem schedule_poll (schedule : Schedule cluster state) {cqComps : Nat}
    (ran : state.poll m cqComps = some next) : Schedule cluster next := by
  obtain ⟨polling, -, rfl⟩ := poll_inv ran
  apply schedule_local schedule
  · exact set_endpoint_other state _
  · intros
    rfl
  · intro other apart
    exact Function.update_of_ne apart _ _
  · intro below
    have ring := schedule m below
    rw [polling] at ring
    simp only [Swarm.setRound, set_endpoint_self, Function.update_self, Endpoint.poll]
    split_ifs with none_
    · have home : Function.update (state.endpoints m).nextCoro rpcMasterCoroId rpcMasterCoroId
          rpcMasterCoroId = rpcMasterCoroId := Function.update_self _ _ _
      rw [polling]
      exact ⟨List.nodup_nil, by rintro _ ⟨⟩, ⟨home, trivial⟩, List.suffix_rfl, by rintro _ ⟨⟩,
        by rintro _ ⟨⟩, ring.waiting⟩
    · exact ⟨List.nodup_nil, by rintro _ ⟨⟩, trivial, rfl, by rintro _ ⟨⟩, ring.waiting⟩

theorem schedule_repost (schedule : Schedule cluster state)
    (ran : state.repost cluster m = some next) : Schedule cluster next := by
  obtain ⟨cqComps, curCompCoro, handling, rfl⟩ := repost_inv ran
  obtain ⟨-, -, -, nextCoro, ctl⟩ :=
    repost_fields (cluster.args m) (state.endpoints m) cqComps curCompCoro
  apply schedule_local schedule
  · exact set_endpoint_other state _
  · intros
    rfl
  · intros
    rfl
  · intro below
    have collected := schedule m below
    rw [handling] at collected
    rw [set_endpoint_self, ctl, nextCoro]
    exact collected

/-- After a step at an endpoint whose ring is closed, control is handed on. -/
theorem schedule_yield (schedule : ∀ other, other < cluster.numMachines → other ≠ m →
      Scheduled (cluster.args other) (state.endpoints other).ctl (state.endpoints other).nextCoro
        (fun coro => status (state.jobs other coro)) (state.round other))
    {later : List Nat}
    (ring : m < cluster.numMachines → Ring (cluster.args m) (state.endpoints m).nextCoro
      (fun coro => status (state.jobs m coro)) (state.round m) [] later) :
    Schedule cluster (state.yieldTo m (nextOf later)) := by
  intro other below
  by_cases same : other = m
  · rw [same] at below ⊢
    simp only [Swarm.yieldTo, set_endpoint_self, Function.update_self]
    exact yield_scheduled (ring below)
  · simp only [Swarm.yieldTo, set_endpoint_other state _ other same, Function.update_of_ne same]
    exact schedule other below same

theorem schedule_respond (admitted : Admitted cluster) (exchange : Exchange cluster state)
    (schedule : Schedule cluster state) (below : m < cluster.numMachines)
    (ran : state.respond cluster m = some next) :
    Schedule cluster (next.yieldTo m ((next.endpoints m).nextCoro rpcMasterCoroId)) := by
  obtain ⟨curCompCoro, sender, responding, -, rfl⟩ := respond_inv admitted exchange below ran
  have collected := schedule m below
  rw [responding] at collected
  have ring := collected_ring collected
  have first := threaded_next ring.closed
  simp only [set_endpoint_self, first]
  apply schedule_yield
  · intro other inside apart
    simp only [set_endpoint_other state _ other apart]
    exact schedule other inside
  · intro _
    simp only [set_endpoint_self]
    exact ring

theorem issued_waiting {job : Job} {rest : Nat} {specs : List ReqSpec} (some_ : specs ≠ [])
    (running : (status job).Running) : (status (job.issue rest specs)).Waiting := by
  refine ⟨running.1, ?_⟩
  simp only [status, ← Bool.not_eq_true, answered_iff]
  intro all
  cases all 0 (List.length_pos_iff.mpr some_)

theorem schedule_issue (admitted : Admitted cluster) (exchange : Exchange cluster state)
    (schedule : Schedule cluster state) (below : m < cluster.numMachines) {coroId rest : Nat}
    {specs : List ReqSpec} (running : (state.endpoints m).ctl = .running coroId)
    (ran : state.send cluster m coroId rest specs = some next) :
    Schedule cluster (next.yieldTo m ((state.endpoints m).nextCoro coroId)) := by
  obtain ⟨sender, sendable, -, rfl⟩ := send_inv admitted exchange below ran
  have scheduled := schedule m below
  rw [running] at scheduled
  obtain ⟨later, ring⟩ := scheduled
  rw [ring_next ring]
  apply schedule_yield
  · intro other inside apart
    simp only [set_job_elsewhere _ m coroId _ other _ apart]
    simp only [Swarm.setJob, set_endpoint_other state _ other apart]
    exact schedule other inside
  · intro _
    rw [status_set_job]
    simp only [Swarm.setJob, set_endpoint_self]
    exact ring_sent ring (issued_waiting sendable.some_ (ring.running coroId List.mem_cons_self))

theorem schedule_request (schedule : Schedule cluster state) {client coroId : Nat}
    {wc : Completion} {wcs : List Completion} {cqComps curCompCoro : Nat} {calls : List Handled}
    {mbuf : Mbuf}
    (handling : (state.endpoints m).ctl = .handling (wc :: wcs) cqComps curCompCoro) :
    Schedule cluster (afterRequest state m client coroId wc wcs cqComps curCompCoro calls mbuf) := by
  have kept : ∀ other coro,
      status ((afterRequest state m client coroId wc wcs cqComps curCompCoro calls mbuf).jobs
        other coro) = status (state.jobs other coro) := by
    intro other coro
    by_cases here : (other, coro) = (client, coroId)
    · obtain ⟨rfl, rfl⟩ := Prod.mk.inj here
      rw [afterRequest, set_job_self]
      rfl
    · rw [afterRequest, set_job_other _ _ _ _ _ _ here]
      rfl
  apply schedule_local schedule
  · exact set_endpoint_other state _
  · exact fun other coro _ => kept other coro
  · intros
    rfl
  · intro below
    have collected := schedule m below
    rw [handling] at collected
    simp only [kept]
    simp only [afterRequest, Swarm.setJob, set_endpoint_self]
    exact collected

theorem schedule_response (exchange : Exchange cluster state) (schedule : Schedule cluster state)
    {coroId server : Nat} {wc : Completion} {wcs : List Completion} {cqComps curCompCoro : Nat}
    (packet : Packet cluster state.jobs m coroId server)
    (handling : (state.endpoints m).ctl = .handling (wc :: wcs) cqComps curCompCoro) :
    Schedule cluster (afterResponse state m coroId server wcs cqComps curCompCoro) := by
  have responded := after_response_responded state m coroId server wcs cqComps curCompCoro
  have unanswered := unanswered_job (exchange.jobs m packet.below coroId) packet.dest
    packet.unanswered
  have collected := schedule m packet.below
  rw [handling] at collected
  have absent : coroId ∉ state.round m := by
    intro member
    have listed := (collected.listed coroId member).2
    simp only [status, unanswered] at listed
    cases listed
  have balanced := (collected.waiting coroId packet.slave absent).1
  apply schedule_local schedule responded.others
  · intro other coro apart
    rw [responded.jobs, set_job_elsewhere _ _ _ _ _ _ apart]
  · intro other apart
    simp only [afterResponse]
    split_ifs <;> exact Function.update_of_ne apart _ _
  · intro _
    rw [responded.jobs, status_set_job]
    simp only [afterResponse]
    split_ifs with last
    · simp only [Swarm.setRound, Swarm.setJob, set_endpoint_self, Function.update_self, withBatch]
      exact collected_completes collected packet.slave absent ⟨balanced, last⟩
    · simp only [Swarm.setRound, Swarm.setJob, set_endpoint_self, Function.update_self, withBatch]
      exact collected_waits collected absent ⟨balanced, Bool.not_eq_true _ ▸ last⟩

theorem schedule_handle (admitted : Admitted cluster) (exchange : Exchange cluster state)
    (schedule : Schedule cluster state) (below : m < cluster.numMachines)
    {handler : Frame → HandlerResult} (ran : state.handle cluster m handler = some next) :
    Schedule cluster next := by
  obtain ⟨wc, wcs, cqComps, curCompCoro, handling, shape⟩ :=
    handle_cases admitted exchange below ran
  rcases shape with ⟨client, coroId, calls, mbuf, -, -, -, -, rfl⟩ |
    ⟨coroId, server, packet, -, -, rfl⟩
  · exact schedule_request schedule handling
  · exact schedule_response exchange schedule packet handling

theorem schedule_step (admitted : Admitted cluster) (exchange : Exchange cluster state)
    (schedule : Schedule cluster state) (label : Label)
    (ran : step cluster state label = some next) : Schedule cluster next := by
  cases label with
  | issue m rest specs =>
      simp only [step] at ran
      split at ran
      · rename_i coroId running
        split_ifs at ran with below
        obtain ⟨after, sent, rfl⟩ := Option.map_eq_some_iff.mp ran
        exact schedule_issue admitted exchange schedule below running sent
      · cases ran
  | arrive index stale => exact schedule_arrive schedule ran
  | poll m cqComps =>
      simp only [step] at ran
      split_ifs at ran with below
      exact schedule_poll schedule ran
  | handle m handler =>
      simp only [step] at ran
      split_ifs at ran with below
      exact schedule_handle admitted exchange schedule below ran
  | repost m =>
      simp only [step] at ran
      split_ifs at ran with below
      exact schedule_repost schedule ran
  | respond m =>
      simp only [step] at ran
      split_ifs at ran with below
      obtain ⟨after, sent, rfl⟩ := Option.map_eq_some_iff.mp ran
      exact schedule_respond admitted exchange schedule below sent

end Steps

section Runs

variable {cluster : Cluster} {memory : Nat → Memory} {built : Nat → Endpoint}
  {state next : Swarm} {m : Nat}

theorem spawn_threaded (args : RpcArgs) (ep : Endpoint) (count first : Nat)
    (all : first + count + 1 = args.numCoro) :
    Threaded (ep.spawn args).nextCoro first (List.range' (first + 1) count ++ [rpcMasterCoroId]) := by
  induction count generalizing first with
  | zero =>
      refine ⟨?_, trivial⟩
      have inside : first < args.numCoro := by omega
      have last : first = args.numCoro - 1 := by omega
      simp only [Endpoint.spawn, Endpoint.yieldTo, if_pos inside, if_pos last]
      rfl
  | succ count ih =>
      have inside : first < args.numCoro := by omega
      have more : first ≠ args.numCoro - 1 := by omega
      rw [List.range'_succ]
      refine ⟨?_, ih (first + 1) (by omega)⟩
      simp only [Endpoint.spawn, Endpoint.yieldTo, if_pos inside, if_neg more]

theorem schedule_init (constructed : Constructed cluster memory built) :
    Schedule cluster (Swarm.init cluster built) := by
  intro m below
  obtain ⟨some_, -⟩ := check_info_coros ((constructed_admitted constructed).checked m below)
  have round : List.range' 1 ((cluster.args m).numCoro - 1) =
      [1] ++ List.range' 2 ((cluster.args m).numCoro - 2) := by
    rw [show (cluster.args m).numCoro - 1 = (cluster.args m).numCoro - 2 + 1 by omega,
      List.range'_succ]
    rfl
  refine ⟨List.range' 2 ((cluster.args m).numCoro - 2), List.nodup_range', fun _ => id, ?_, ?_, ?_,
    ?_, ?_⟩
  · exact spawn_threaded (cluster.args m) (built m) _ 0 (by omega)
  · rw [← round]
    exact List.suffix_rfl
  · intro coro member
    rw [List.mem_singleton.mp member]
    exact ⟨rfl, rfl⟩
  · intro coro member
    obtain ⟨later, -⟩ := List.mem_range'_1.mp member
    have apart : coro ≠ 1 := by omega
    have untouched := resume_other (fun _ => ⟨0, [], [], [], 0, 0⟩) apart
    rw [show (Swarm.init cluster built).jobs m coro = _ from untouched]
    exact ⟨rfl, rfl⟩
  · intro coro slave absent
    rw [← round] at absent
    exact absurd slave absent

/-- What the endpoints do is one of the things that `openStep` allows. -/
theorem step_opens (admitted : Admitted cluster) (exchange : Exchange cluster state)
    (schedule : Schedule cluster state) {init : Swarm}
    (reached : Reachable (openStep cluster) init state) (label : Label)
    (ran : step cluster state label = some next) : Reachable (openStep cluster) init next := by
  cases label with
  | issue m rest specs =>
      simp only [step] at ran
      split at ran
      · rename_i coroId running
        split_ifs at ran with below
        obtain ⟨after, sent, rfl⟩ := Option.map_eq_some_iff.mp ran
        have scheduled := schedule m below
        rw [running] at scheduled
        obtain ⟨later, ring⟩ := scheduled
        have slave := ring.slaves coroId (ring.rest.subset List.mem_cons_self)
        have answered := (ring.running coroId List.mem_cons_self).2
        have outside : Ctl.outside (state.endpoints m).ctl = true := by rw [running]; rfl
        apply RunsTo.step (.yield m _) (RunsTo.step (.send m coroId rest specs) reached _)
        · rw [openStep, if_pos]
          obtain ⟨sender, -, -, rfl⟩ := send_inv admitted exchange below sent
          refine ⟨below, ?_⟩
          simp only [Swarm.setJob, set_endpoint_self]
          exact outside
        · rw [openStep, if_pos ⟨below, outside, slave, answered⟩]
          exact sent
      · cases ran
  | arrive index stale => exact .step (.arrive index stale) reached ran
  | poll m cqComps => exact .step (.poll m cqComps) reached ran
  | handle m handler => exact .step (.handle m handler) reached ran
  | repost m => exact .step (.repost m) reached ran
  | respond m =>
      simp only [step] at ran
      split_ifs at ran with below
      obtain ⟨after, sent, rfl⟩ := Option.map_eq_some_iff.mp ran
      apply RunsTo.step (.yield m _) (RunsTo.step (.respond m) reached _)
      · rw [openStep, if_pos]
        obtain ⟨curCompCoro, sender, -, -, rfl⟩ := respond_inv admitted exchange below sent
        refine ⟨below, ?_⟩
        simp only [set_endpoint_self]
        rfl
      · rw [openStep, if_pos below]
        exact sent

theorem run_scheduled (constructed : Constructed cluster memory built)
    (reached : Reachable (step cluster) (Swarm.init cluster built) state) :
    Reachable (openStep cluster) (Swarm.init cluster built) state ∧ Schedule cluster state := by
  have admitted := constructed_admitted constructed
  apply reachable_invariant _ _ reached
  · exact ⟨.refl, schedule_init constructed⟩
  · intro before label after holds ran
    have exchange := open_exchange constructed holds.1
    exact ⟨step_opens admitted exchange holds.2 holds.1 label ran,
      schedule_step admitted exchange holds.2 label ran⟩

theorem round_short (checked : args.checkInfo = true) (nodup : round.Nodup)
    (member : ∀ coro ∈ round, coro ∈ slaves args) : round.length < rpcMaxCoro := by
  have bound := (nodup.subperm fun coro => member coro).length_le
  obtain ⟨lower, upper⟩ := check_info_coros checked
  rw [slaves, List.length_range'] at bound
  omega

theorem ring_follow {current : List Nat} (checked : args.checkInfo = true)
    (ring : Ring args nextCoro coros round current later) :
    follow nextCoro rpcMasterCoroId rpcMaxCoro (nextCoro rpcMasterCoroId) = some round :=
  follow_threaded rpcMaxCoro ring.closed (master_not_mem ring.slaves)
    (round_short checked ring.nodup ring.slaves)

theorem ring_current {coro : Nat} (ring : Ring args nextCoro coros round [coro] later) :
    coro ∈ round ∧ nextCoro coro ≠ coro ∧
      (nextCoro coro = rpcMasterCoroId ∨ nextCoro coro ∈ round) := by
  have inside := ring.rest.subset
  have once : ([coro] ++ later).Nodup := ring.nodup.sublist ring.rest.sublist
  have own := inside List.mem_cons_self
  rw [ring_next ring]
  cases later with
  | nil => exact ⟨own, (slave_ne_master (ring.slaves coro own)).symm, Or.inl rfl⟩
  | cons next rest =>
      refine ⟨own, ?_, Or.inr (inside (List.mem_cons_of_mem coro List.mem_cons_self))⟩
      intro equal
      have same : next = coro := equal
      exact (List.nodup_cons.mp once).1 (same ▸ List.mem_cons_self)

theorem scheduled_ring {ctl : Ctl} (checked : args.checkInfo = true)
    (scheduled : Scheduled args ctl nextCoro coros round) (outside : Ctl.outside ctl = true) :
    follow nextCoro rpcMasterCoroId rpcMaxCoro (nextCoro rpcMasterCoroId) = some round ∧
      round.Nodup := by
  cases ctl with
  | polling => exact ⟨ring_follow checked scheduled, scheduled.nodup⟩
  | running coroId =>
      obtain ⟨later, ring⟩ := scheduled
      exact ⟨ring_follow checked ring, ring.nodup⟩
  | handling wcs cqComps curCompCoro => cases outside
  | responding curCompCoro => cases outside

theorem collected_balanced {curCompCoro coro : Nat}
    (collected : Collected args curCompCoro nextCoro coros round) (slave : coro ∈ slaves args) :
    (coros coro).resumed = (coros coro).sent := by
  by_cases member : coro ∈ round
  · exact (collected.listed coro member).1
  · exact (collected.waiting coro slave member).1

theorem scheduled_counts {ctl : Ctl} {coro : Nat}
    (scheduled : Scheduled args ctl nextCoro coros round) (slave : coro ∈ slaves args) :
    (ctl = .running coro → (coros coro).resumed = (coros coro).sent + 1) ∧
      (ctl ≠ .running coro → (coros coro).resumed = (coros coro).sent) ∧
      (ctl = .polling → (coros coro).answered = false) := by
  cases ctl with
  | polling =>
      have waiting := scheduled.waiting coro slave List.not_mem_nil
      exact ⟨nofun, fun _ => waiting.1, fun _ => waiting.2⟩
  | handling wcs cqComps curCompCoro =>
      exact ⟨nofun, fun _ => collected_balanced scheduled slave, nofun⟩
  | responding curCompCoro =>
      exact ⟨nofun, fun _ => collected_balanced scheduled slave, nofun⟩
  | running coroId =>
      obtain ⟨later, ring⟩ := scheduled
      refine ⟨?_, ?_, nofun⟩
      · intro same
        injection same with same
        exact same ▸ (ring.running coroId List.mem_cons_self).1
      · intro idle
        by_cases ready : coro ∈ later
        · exact (ring.listed coro ready).1
        · apply (ring.waiting coro slave _).1
          intro member
          rcases List.mem_cons.mp member with same | among
          · exact idle (congrArg Ctl.running same.symm)
          · exact ready among

/-- When `poll_comps` has returned, `next_coro` leads from the master through the
coroutines whose batch got its last response, once through each and back. A slave
that runs finds the one behind it there and has no response outstanding. Between a
slave's batches it is given control once, and when the master polls again no slave
with a complete batch is left. -/
theorem coroutines_follow_the_ring (cluster : Cluster) (memory : Nat → Memory)
    (built : Nat → Endpoint) (constructed : Constructed cluster memory built) (state : Swarm)
    (reached : Reachable (step cluster) (Swarm.init cluster built) state) (m : Nat)
    (below : m < cluster.numMachines) :
    let ep := state.endpoints m
    (Ctl.outside ep.ctl = true →
      follow ep.nextCoro rpcMasterCoroId rpcMaxCoro (ep.nextCoro rpcMasterCoroId) =
        some (state.round m) ∧ (state.round m).Nodup) ∧
    (∀ coroId, ep.ctl = .running coroId →
      coroId ∈ state.round m ∧ ep.nextCoro coroId ≠ coroId ∧
        (ep.nextCoro coroId = rpcMasterCoroId ∨ ep.nextCoro coroId ∈ state.round m) ∧
        (state.jobs m coroId).answered = true) ∧
    ∀ coroId ∈ slaves (cluster.args m),
      (ep.ctl = .running coroId →
        (state.jobs m coroId).resumed = (state.jobs m coroId).sent + 1) ∧
      (ep.ctl ≠ .running coroId → (state.jobs m coroId).resumed = (state.jobs m coroId).sent) ∧
      (ep.ctl = .polling → (state.jobs m coroId).answered = false) := by
  have checked := (constructed_admitted constructed).checked m below
  have scheduled := (run_scheduled constructed reached).2 m below
  refine ⟨scheduled_ring checked scheduled, ?_, fun coroId slave => scheduled_counts scheduled slave⟩
  intro coroId running
  rw [running] at scheduled
  obtain ⟨later, ring⟩ := scheduled
  obtain ⟨own, other, names⟩ := ring_current ring
  exact ⟨own, other, names, (ring.running coroId List.mem_cons_self).2⟩

end Runs

section Pair

/-- Machines with one worker each. -/
def uniform (numMachines numCoro : Nat) : Cluster where
  numMachines := numMachines
  args := fun m => { RpcSendWindow.shortLists with wrkrGid := m, numWorkers := numMachines, numCoro }
  sized := fun _ _ => Nat.div_one numMachines
  placed := fun m _ => Nat.div_one m

def emptyMemory : Memory := ⟨fun _ _ _ => 0, fun _ _ => 0, fun _ => 7⟩

def uniformBuilt (numMachines numCoro m : Nat) : Endpoint :=
  (Endpoint.blank ((uniform numMachines numCoro).args m) emptyMemory).postRecvs hrdRqDepth

theorem uniform_constructed {numMachines numCoro : Nat} (few : numMachines ≤ hotsMaxMachines)
    (accepted : ∀ m < numMachines, (((uniform numMachines numCoro).args m).checkInfo &&
      ((uniform numMachines numCoro).args m).checkPort &&
      ((uniform numMachines numCoro).args m).initNonZeroMembers) = true) :
    Constructed (uniform numMachines numCoro) (fun _ => emptyMemory)
      (uniformBuilt numMachines numCoro) := by
  intro m below
  rw [Endpoint.construct, accepted m below, (uniform numMachines numCoro).sized m below,
    if_neg Bool.noConfusion]
  exact if_neg (Nat.not_lt.mpr few)

/-- Two machines with two slaves each. -/
def pair : Cluster := uniform 2 3

theorem pair_constructed : Constructed pair (fun _ => emptyMemory) (uniformBuilt 2 3) :=
  uniform_constructed (by decide) (by decide +kernel)

def echo (frame : Frame) : HandlerResult := ⟨UInt8.ofNat frame.type, frame.data, frame.data.length⟩

/-- All slaves send a request; those of the first machine are answered, the second one
first. -/
def pairRun : List Label :=
  [.issue 0 0 [requestTo 1 7], .issue 0 0 [requestTo 1 8], .issue 1 0 [requestTo 0 9],
    .issue 1 0 [requestTo 0 5], .arrive 0 fun _ => 0, .arrive 0 fun _ => 0, .poll 1 2,
    .handle 1 echo, .handle 1 echo, .repost 1, .respond 1, .arrive 3 fun _ => 0,
    .arrive 2 fun _ => 0, .poll 0 2, .handle 0 echo, .handle 0 echo, .repost 0, .respond 0]

theorem pair_run_round :
    (pairRun.foldlM (step pair) (Swarm.init pair (uniformBuilt 2 3))).map
      (fun state => (state.round 0, Ctl.outside (state.endpoints 0).ctl)) = some ([2, 1], true) := by
  decide +kernel

theorem coroutines_follow_the_ring_pair :
    ∃ state, Reachable (step pair) (Swarm.init pair (uniformBuilt 2 3)) state ∧
      follow (state.endpoints 0).nextCoro 0 rpcMaxCoro ((state.endpoints 0).nextCoro 0) =
        some [2, 1] := by
  obtain ⟨state, ran, facts⟩ := Option.map_eq_some_iff.mp pair_run_round
  obtain ⟨round, outside⟩ := Prod.mk.inj facts
  have reached := reachable_of_run pairRun .refl ran
  have ring := (coroutines_follow_the_ring pair (fun _ => emptyMemory) (uniformBuilt 2 3)
    pair_constructed state reached 0 (by decide)).1 outside
  rw [round] at ring
  exact ⟨state, reached, ring.1⟩

end Pair

end Fasst.RpcSchedule
