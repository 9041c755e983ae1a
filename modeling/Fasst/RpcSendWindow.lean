import Fasst.RpcSend
import Mathlib.Tactic.Linarith

/-!
# Chains, windows and completions

While a call fills `send_wr`, the filled work requests and the uncovered ones of
the active queue pair form one sequence in which `set_flags` has marked the first
of every `RPC_UNSIG_BATCH`. A chain is shorter than a window, so the marked work
request of a full window has been posted.
-/

namespace Fasst.RpcSendWindow

open Fasst.RpcDefs Fasst.RpcSend Fasst.SignalWindow

set_option autoImplicit false

variable {args : RpcArgs} {sender : Sender} {wrI : Nat}

/-- The links that `init_send_wrs` sets. -/
def ChainRestored (sender : Sender) : Prop :=
  sender.sendWr.length = rpcMaxPostlist + 1 ∧
    ∀ index, index < rpcMaxPostlist →
      (sender.sendWr[index]?).map SendWr.next = some (some (index + 1))

def queuedOn (sender : Sender) (wrI index : Nat) : List SendWr :=
  if index = sender.activeQp then sender.sendWr.take wrI else []

structure Filling (args : RpcArgs) (sender : Sender) (wrI : Nat) : Prop where
  active : sender.activeQp < args.numQps
  count : sender.qps.length = args.numQps
  restored : ChainRestored sender
  room : wrI ≤ args.postlist
  windows : ∀ index queue, sender.qps[index]? = some queue →
    Windowed SendWr.signaled rpcUnsigBatch queue.nbPending
      (queue.outstanding ++ queuedOn sender wrI index)

/-- The bounds of `check_info` on which sending depends. -/
structure Accepted (args : RpcArgs) : Prop where
  somePostlist : 1 ≤ args.postlist
  postlistBound : args.postlist ≤ rpcMaxPostlist
  someQps : 1 ≤ args.numQps
  qpsBound : args.numQps ≤ rpcMaxQps

theorem map_modify_of_fixed {Item View : Type} (items : List Item) (index : Nat)
    (change : Item → Item) (view : Item → View) (fixed : ∀ item, view (change item) = view item) :
    (items.modify index change).map view = items.map view := by
  apply List.ext_getElem?
  intro position
  rw [List.getElem?_map, List.getElem?_map, List.getElem?_modify]
  cases items[position]? with
  | none => rfl
  | some item =>
      simp only [Option.map_some, Option.map_eq_map]
      split_ifs
      · rw [fixed]
      · rfl

theorem take_modify_last {Item : Type} (items : List Item) (index : Nat) (change : Item → Item)
    (item : Item) (found : items[index]? = some item) :
    (items.modify index change).take (index + 1) = items.take index ++ [change item] := by
  rw [List.take_add_one, List.getElem?_modify, found]
  simp only [Option.map_eq_map, Option.map_some, if_true, Option.toList_some]
  congr 1
  apply List.ext_getElem?
  intro position
  rw [List.getElem?_take, List.getElem?_take, List.getElem?_modify]
  split_ifs with below same
  · omega
  · simp
  · rfl

theorem chain_from_linked (wrs : List SendWr) (count : Nat) (inside : count ≤ wrs.length)
    (linked : ∀ index, index + 1 < count →
      (wrs[index]?).map SendWr.next = some (some (index + 1)))
    (last : (wrs[count - 1]?).map SendWr.next = some none) (fuel wrI : Nat) (below : wrI < count)
    (enough : count ≤ wrI + fuel) :
    chainFrom wrs fuel wrI = .ok ((wrs.take count).drop wrI) := by
  induction fuel generalizing wrI with
  | zero => omega
  | succ fuel ih =>
      have bound : wrI < wrs.length := by omega
      have taken : wrI < (wrs.take count).length := by
        rw [List.length_take]
        omega
      rw [chainFrom, List.getElem?_eq_getElem bound, List.drop_eq_getElem_cons taken,
        List.getElem_take]
      by_cases final : wrI + 1 = count
      · have stop : wrs[wrI].next = none := by
          rw [show count - 1 = wrI by omega, List.getElem?_eq_getElem bound] at last
          exact Option.some.inj last
        rw [List.drop_of_length_le (by rw [List.length_take]; omega)]
        simp only [stop]
      · have link : wrs[wrI].next = some (wrI + 1) := by
          have found := linked wrI (by omega)
          rw [List.getElem?_eq_getElem bound] at found
          exact Option.some.inj found
        simp only [link]
        rw [ih (wrI + 1) (by omega) (by omega)]
        rfl

theorem active_queue (filling : Filling args sender wrI) :
    ∃ queue, sender.qps[sender.activeQp]? = some queue := by
  have bound : sender.activeQp < sender.qps.length := by
    rw [filling.count]
    exact filling.active
  exact ⟨sender.qps[sender.activeQp], List.getElem?_eq_getElem bound⟩

theorem active_window (filling : Filling args sender wrI) {queue : SendQp}
    (found : sender.qps[sender.activeQp]? = some queue) :
    Windowed SendWr.signaled rpcUnsigBatch queue.nbPending
      (queue.outstanding ++ sender.sendWr.take wrI) := by
  have windowed := filling.windows _ _ found
  rw [queuedOn, if_pos rfl] at windowed
  exact windowed

def nextPending (pending : Nat) : Nat := if pending = rpcUnsigBatch - 1 then 0 else pending + 1

/-- What `set_flags` does for the next message of the active queue pair. -/
structure Advance (sender : Sender) (wrI : Nat) (queue : SendQp) (rest : List SendWr) : Prop where
  found : sender.qps[sender.activeQp]? = some queue
  suffix : ∃ front, queue.outstanding = front ++ rest
  ran : ∀ size, sender.setFlags sender.activeQp size =
    .ok (⟨queue.nbPending == 0, decide (size ≤ hrdMaxInline)⟩,
      sender.setQp sender.activeQp ⟨nextPending queue.nbPending, rest⟩)
  window : ∀ entry : SendWr, entry.signaled = (queue.nbPending == 0) →
    Windowed SendWr.signaled rpcUnsigBatch (nextPending queue.nbPending)
      ((rest ++ sender.sendWr.take wrI) ++ [entry])

theorem set_flags_advance (accepted : Accepted args) (filling : Filling args sender wrI)
    (room : wrI < args.postlist) : ∃ queue rest, Advance sender wrI queue rest := by
  obtain ⟨queue, found⟩ := active_queue filling
  have windowed := active_window filling found
  have small : wrI < rpcMaxPostlist := Nat.lt_of_lt_of_le room accepted.postlistBound
  have access : sender.qp sender.activeQp = .ok queue := by
    rw [Sender.qp, found]
  by_cases full : queue.nbPending = rpcUnsigBatch - 1
  · have few : (sender.sendWr.take wrI).length < queue.nbPending := by
      rw [List.length_take, full]
      simp only [rpcMaxPostlist, rpcUnsigBatch] at small ⊢
      omega
    have notFirst : (queue.nbPending == 0) = false := by
      rw [full]
      rfl
    have filledUp : queue.nbPending + 1 = rpcUnsigBatch := by
      rw [full]
      rfl
    have reset : nextPending queue.nbPending = 0 := if_pos full
    obtain ⟨rest, polled, -⟩ :=
      windowed_poll windowed filledUp few (show (initSendWr 0).signaled = false from rfl)
    refine ⟨queue, rest, found, poll_one_suffix rest polled, ?_, ?_⟩
    · intro size
      unfold Sender.setFlags
      rw [access]
      simp only [bind, Except.bind]
      rw [if_pos full, Sender.hrdPollCq, polled, reset]
    · intro entry flag
      rw [notFirst] at flag
      obtain ⟨other, again, window⟩ := windowed_poll windowed filledUp few flag
      rw [polled] at again
      rw [reset, Option.some.inj again]
      exact window
  · have step : nextPending queue.nbPending = queue.nbPending + 1 := if_neg full
    have below : queue.nbPending + 1 < rpcUnsigBatch := by
      obtain ⟨_, _, _, _, _, _, bound, _⟩ := windowed
      simp only [rpcUnsigBatch] at full bound ⊢
      omega
    refine ⟨queue, queue.outstanding, found, ⟨[], rfl⟩, ?_, ?_⟩
    · intro size
      unfold Sender.setFlags
      rw [access]
      simp only [bind, Except.bind]
      rw [if_neg full, step]
    · intro entry flag
      rw [step]
      exact windowed_push windowed below flag

def advanced (sender : Sender) (queue : SendQp) (rest : List SendWr) : Sender :=
  sender.setQp sender.activeQp ⟨nextPending queue.nbPending, rest⟩

theorem slot_found (accepted : Accepted args) (filling : Filling args sender wrI)
    (room : wrI < args.postlist) :
    ∃ wr, sender.sendWr[wrI]? = some wr := by
  have small : wrI < rpcMaxPostlist := Nat.lt_of_lt_of_le room accepted.postlistBound
  have bound : wrI < sender.sendWr.length := by
    rw [filling.restored.1]
    omega
  exact ⟨sender.sendWr[wrI], List.getElem?_eq_getElem bound⟩

theorem put_restored (restored : ChainRestored sender) (wrI : Nat) (addr : SgAddr)
    (flags : SendFlags) (msg : Message) : ChainRestored (sender.putWr wrI addr flags msg) := by
  constructor
  · rw [Sender.putWr, List.length_modify]
    exact restored.1
  · intro index below
    have links : (sender.putWr wrI addr flags msg).sendWr.map SendWr.next =
        sender.sendWr.map SendWr.next := map_modify_of_fixed _ _ _ _ fun _ => rfl
    rw [← List.getElem?_map, links, List.getElem?_map]
    exact restored.2 index below

theorem put_filling (accepted : Accepted args) (filling : Filling args sender wrI)
    (room : wrI < args.postlist) {queue : SendQp} {rest : List SendWr}
    (advance : Advance sender wrI queue rest) (addr : SgAddr) (flags : SendFlags) (msg : Message)
    (flag : flags.signaled = (queue.nbPending == 0)) :
    Filling args ((advanced sender queue rest).putWr wrI addr flags msg) (wrI + 1) := by
  obtain ⟨wr, slot⟩ := slot_found accepted filling room
  refine ⟨filling.active, ?_, ?_, room, ?_⟩
  · rw [← filling.count]
    exact List.length_set
  · exact put_restored filling.restored wrI addr flags msg
  · intro index other found
    have lookup : (sender.qps.set sender.activeQp ⟨nextPending queue.nbPending, rest⟩)[index]? =
        some other := found
    by_cases same : index = sender.activeQp
    · have bound : sender.activeQp < sender.qps.length := by
        rw [filling.count]
        exact filling.active
      rw [same, List.getElem?_set_self bound] at lookup
      have queued : queuedOn ((advanced sender queue rest).putWr wrI addr flags msg) (wrI + 1) index =
          sender.sendWr.take wrI ++
            [{ wr with sgAddr := addr, sendFlags := flags, msg := msg }] :=
        (if_pos same).trans (take_modify_last _ _ _ _ slot)
      rw [queued, ← Option.some.inj lookup, ← List.append_assoc]
      exact advance.window _ flag
    · rw [List.getElem?_set_ne (Ne.symm same)] at lookup
      have windowed := filling.windows index other lookup
      rw [queuedOn, if_neg same] at windowed
      have queued : queuedOn ((advanced sender queue rest).putWr wrI addr flags msg) (wrI + 1) index =
          [] := if_neg same
      rw [queued]
      exact windowed

/-- The chain that is posted: the filled work requests with the last link cut. -/
def cutChain (sender : Sender) (wrI : Nat) : List SendWr :=
  (sender.setNext (wrI - 1) none).sendWr.take wrI

theorem cut_chain_map {View : Type} (sender : Sender) (wrI : Nat) (view : SendWr → View)
    (fixed : ∀ (wr : SendWr) (next : Option Nat), view { wr with next := next } = view wr) :
    (cutChain sender wrI).map view = (sender.sendWr.take wrI).map view := by
  rw [cutChain, List.map_take, List.map_take, Sender.setNext,
    map_modify_of_fixed _ _ _ _ fun wr => fixed wr none]

theorem cut_chain_length : (cutChain sender wrI).length = (sender.sendWr.take wrI).length := by
  have same := congrArg List.length (cut_chain_map sender wrI SendWr.msg
    fun _ _ => rfl)
  rw [List.length_map, List.length_map] at same
  exact same

theorem cut_link_restored (restored : ChainRestored sender) (some_ : 0 < wrI)
    (small : wrI ≤ rpcMaxPostlist) :
    ((sender.setNext (wrI - 1) none).setNext (wrI - 1) (some wrI)).sendWr = sender.sendWr := by
  have link := restored.2 (wrI - 1) (by omega)
  rw [show wrI - 1 + 1 = wrI by omega] at link
  apply List.ext_getElem?
  intro position
  simp only [Sender.setNext]
  rw [List.getElem?_modify, List.getElem?_modify]
  cases found : sender.sendWr[position]? with
  | none => rfl
  | some wr =>
      simp only [Option.map_eq_map, Option.map_some]
      split_ifs with here
      · rw [here, found] at link
        rw [← Option.some.inj link]
      · rfl

theorem chain_posted (restored : ChainRestored sender) (some_ : 0 < wrI)
    (small : wrI ≤ rpcMaxPostlist) :
    chainFrom (sender.setNext (wrI - 1) none).sendWr
      (sender.setNext (wrI - 1) none).sendWr.length 0 = .ok (cutChain sender wrI) := by
  have length : (sender.setNext (wrI - 1) none).sendWr.length = rpcMaxPostlist + 1 := by
    rw [Sender.setNext, List.length_modify]
    exact restored.1
  have inside : wrI - 1 < sender.sendWr.length := by
    rw [restored.1]
    omega
  apply chain_from_linked _ wrI (by omega) ?_ ?_ _ 0 some_ (by omega)
  · intro index below
    have apart : wrI - 1 ≠ index := by omega
    simp only [Sender.setNext]
    rw [List.getElem?_modify_ne _ _ apart]
    exact restored.2 index (by omega)
  · rw [Sender.setNext, List.getElem?_modify_eq, List.getElem?_eq_getElem inside]
    rfl

def chainSent (args : RpcArgs) (sender : Sender) (wrI : Nat) (queue : SendQp) : Sender :=
  { sender.setQp sender.activeQp
      { queue with outstanding := queue.outstanding ++ cutChain sender wrI } with
    posted := sender.posted ++ [cutChain sender wrI]
    activeQp := hrdModAdd sender.activeQp args.numQps }

theorem post_chain_ran (accepted : Accepted args) (filling : Filling args sender wrI)
    (some_ : 0 < wrI) {queue : SendQp} (found : sender.qps[sender.activeQp]? = some queue) :
    sender.postChain args wrI = .ok (chainSent args sender wrI queue) := by
  have small : wrI ≤ rpcMaxPostlist := Nat.le_trans filling.room accepted.postlistBound
  have windowed := active_window filling found
  have few := windowed_length windowed
  obtain ⟨_, _, _, _, _, _, pendingBound, _⟩ := windowed
  have access : (sender.setNext (wrI - 1) none).qp sender.activeQp = .ok queue := by
    rw [Sender.qp]
    simp only [Sender.setNext]
    rw [found]
  have fits : ¬hrdSqDepth < queue.outstanding.length + (cutChain sender wrI).length := by
    rw [List.length_append] at few
    rw [cut_chain_length]
    simp only [rpcUnsigBatch, hrdSqDepth] at *
    omega
  have restored := cut_link_restored filling.restored some_ small
  unfold Sender.postChain Sender.ibvPostSend
  rw [chain_posted filling.restored some_ small, access]
  simp only [bind, Except.bind]
  rw [if_neg fits]
  simp only [chainSent, Sender.setQp]
  congr 1
  simp only [Sender.setNext] at restored ⊢
  rw [restored]

theorem post_filling (filling : Filling args sender wrI) {queue : SendQp}
    (found : sender.qps[sender.activeQp]? = some queue) :
    Filling args (chainSent args sender wrI queue) 0 := by
  have bound : sender.activeQp < sender.qps.length := by
    rw [filling.count]
    exact filling.active
  refine ⟨?_, ?_, filling.restored, Nat.zero_le _, ?_⟩
  · have active := filling.active
    simp only [chainSent, hrdModAdd]
    split_ifs <;> omega
  · rw [← filling.count]
    exact List.length_set
  · intro index other lookup
    have none_ : queuedOn (chainSent args sender wrI queue) 0 index = [] := by
      rw [queuedOn]
      split_ifs <;> rfl
    rw [none_, List.append_nil]
    replace lookup : (sender.qps.set sender.activeQp
      { queue with outstanding := queue.outstanding ++ cutChain sender wrI })[index]? =
        some other := lookup
    by_cases same : index = sender.activeQp
    · rw [same, List.getElem?_set_self bound] at lookup
      rw [← Option.some.inj lookup]
      apply windowed_congr ?_ (active_window filling found)
      rw [List.map_append, List.map_append, cut_chain_map _ _ _ fun _ _ => rfl]
    · rw [List.getElem?_set_ne (Ne.symm same)] at lookup
      have windowed := filling.windows index other lookup
      rw [queuedOn, if_neg same, List.append_nil] at windowed
      exact windowed

/-- The rule for the loop of `send_reqs` and `send_resps`: what holds with the
messages sent so far, and is kept by encoding one and by posting a chain. -/
theorem send_loop_rule {encode : Sender → Nat → Cmsg → Except SendFault Sender}
    (message : Cmsg → Message) (holds : Sender → Nat → List Message → Prop)
    (encoded : ∀ sender wrI sent cmsg, wrI < args.postlist → holds sender wrI sent →
      ∃ next, encode sender wrI cmsg = .ok next ∧ holds next (wrI + 1) (sent ++ [message cmsg]))
    (posted : ∀ sender wrI sent, 0 < wrI → holds sender wrI sent →
      ∃ next, sender.postChain args wrI = .ok next ∧ holds next 0 sent)
    (cmsgs : List Cmsg) (sender : Sender) (wrI : Nat) (sent : List Message)
    (room : wrI < args.postlist) (flushed : cmsgs = [] → wrI = 0) (start : holds sender wrI sent) :
    ∃ final, sendLoop args encode sender wrI cmsgs = .ok final ∧
      holds final 0 (sent ++ cmsgs.map message) := by
  induction cmsgs generalizing sender wrI sent with
  | nil =>
      rw [flushed rfl] at start
      rw [List.map_nil, List.append_nil]
      exact ⟨sender, rfl, start⟩
  | cons cmsg rest ih =>
      obtain ⟨filled, ran, kept⟩ := encoded sender wrI sent cmsg room start
      have split : sent ++ (cmsg :: rest).map message =
          (sent ++ [message cmsg]) ++ rest.map message := by
        rw [List.map_cons, List.append_assoc, List.singleton_append]
      rw [sendLoop, ran, split]
      simp only [bind, Except.bind]
      by_cases full : wrI + 1 = args.postlist ∨ rest.isEmpty = true
      · obtain ⟨next, sentOff, keptToo⟩ := posted filled (wrI + 1) _ (Nat.succ_pos wrI) kept
        rw [if_pos full, sentOff]
        exact ih next 0 _ (by omega) (fun _ => rfl) keptToo
      · rw [if_neg full]
        apply ih filled (wrI + 1) _ (by omega) _ kept
        intro empty
        rw [empty] at full
        exact absurd (Or.inr rfl) full

theorem encode_req_ran {queue : SendQp} {rest : List SendWr}
    (advance : Advance sender wrI queue rest) (coroId bits : Nat) (cmsg : Cmsg) :
    encodeReq args coroId bits sender wrI cmsg =
      .ok ((advanced sender queue rest).putWr wrI .mbuf
        ⟨queue.nbPending == 0, decide (cmsg.reqMbuf.length ≤ hrdMaxInline)⟩
        (reqMessage args coroId bits cmsg)) := by
  rw [encodeReq, advance.ran]
  rfl

theorem encode_resp_ran {queue : SendQp} {rest : List SendWr}
    (advance : Advance sender wrI queue rest) (cmsg : Cmsg) :
    encodeResp sender wrI cmsg =
      .ok (if hrdMaxInline < cmsg.respMbuf.length then
          (advanced sender queue rest).copyNonInline.2.putWr wrI (.nonInline sender.nonInlineIndex)
            ⟨queue.nbPending == 0, decide (cmsg.respMbuf.length ≤ hrdMaxInline)⟩ (respMessage cmsg)
        else
          (advanced sender queue rest).putWr wrI .mbuf
            ⟨queue.nbPending == 0, decide (cmsg.respMbuf.length ≤ hrdMaxInline)⟩
            (respMessage cmsg)) := by
  rw [encodeResp, advance.ran]
  simp only [bind, Except.bind]
  split_ifs <;> rfl

/-- In the middle of a call, with the messages of all calls so far. -/
structure Posting (args : RpcArgs) (sender : Sender) (wrI : Nat) (sent : List Message) : Prop where
  filling : Filling args sender wrI
  order : (sender.posted.flatten ++ sender.sendWr.take wrI).map SendWr.msg = sent
  short : ∀ chain ∈ sender.posted, chain.length ≤ args.postlist

variable {sent : List Message}

theorem put_posting (accepted : Accepted args) (posting : Posting args sender wrI sent)
    (room : wrI < args.postlist) {queue : SendQp} {rest : List SendWr}
    (advance : Advance sender wrI queue rest) (addr : SgAddr) (flags : SendFlags) (msg : Message)
    (flag : flags.signaled = (queue.nbPending == 0)) :
    Posting args ((advanced sender queue rest).putWr wrI addr flags msg) (wrI + 1)
      (sent ++ [msg]) := by
  obtain ⟨wr, slot⟩ := slot_found accepted posting.filling room
  refine ⟨put_filling accepted posting.filling room advance addr flags msg flag, ?_, posting.short⟩
  have taken : ((advanced sender queue rest).putWr wrI addr flags msg).sendWr.take (wrI + 1) =
      sender.sendWr.take wrI ++ [{ wr with sgAddr := addr, sendFlags := flags, msg := msg }] :=
    take_modify_last _ _ _ _ slot
  rw [taken, ← List.append_assoc, List.map_append, ← posting.order]
  rfl

theorem copied_posting (posting : Posting args sender wrI sent) (index : Nat) (hits : List Nat) :
    Posting args { sender with nonInlineIndex := index, overwritten := hits } wrI sent :=
  ⟨⟨posting.filling.active, posting.filling.count, posting.filling.restored, posting.filling.room,
    posting.filling.windows⟩, posting.order, posting.short⟩

theorem encode_req_posting (accepted : Accepted args) (coroId bits : Nat) (cmsg : Cmsg)
    (room : wrI < args.postlist) (posting : Posting args sender wrI sent) :
    ∃ next, encodeReq args coroId bits sender wrI cmsg = .ok next ∧
      Posting args next (wrI + 1) (sent ++ [reqMessage args coroId bits cmsg]) := by
  obtain ⟨queue, rest, advance⟩ := set_flags_advance accepted posting.filling room
  exact ⟨_, encode_req_ran advance coroId bits cmsg,
    put_posting accepted posting room advance _ _ _ rfl⟩

theorem encode_resp_posting (accepted : Accepted args) (cmsg : Cmsg) (room : wrI < args.postlist)
    (posting : Posting args sender wrI sent) :
    ∃ next, encodeResp sender wrI cmsg = .ok next ∧
      Posting args next (wrI + 1) (sent ++ [respMessage cmsg]) := by
  obtain ⟨queue, rest, advance⟩ := set_flags_advance accepted posting.filling room
  refine ⟨_, encode_resp_ran advance cmsg, ?_⟩
  split_ifs
  · exact copied_posting (put_posting accepted posting room advance _ _ _ rfl) _ _
  · exact put_posting accepted posting room advance _ _ _ rfl

theorem post_posting (accepted : Accepted args) (some_ : 0 < wrI)
    (posting : Posting args sender wrI sent) :
    ∃ next, sender.postChain args wrI = .ok next ∧ Posting args next 0 sent := by
  obtain ⟨queue, found⟩ := active_queue posting.filling
  refine ⟨_, post_chain_ran accepted posting.filling some_ found,
    post_filling posting.filling found, ?_, ?_⟩
  · have chain := cut_chain_map sender wrI SendWr.msg fun _ _ => rfl
    simp only [chainSent]
    rw [List.take_zero, List.append_nil, List.flatten_append, List.map_append, List.flatten_singleton,
      chain, ← List.map_append, posting.order]
  · intro chain member
    rcases List.mem_append.mp member with before | last
    · exact posting.short chain before
    · rw [List.mem_singleton.mp last, cut_chain_length, List.length_take]
      exact Nat.le_trans (Nat.min_le_left _ _) posting.filling.room

theorem call_posting (accepted : Accepted args) (call : SendCall)
    (posting : Posting args sender 0 sent) :
    ∃ final, call.run args sender = .ok final ∧
      Posting args final 0 (sent ++ call.messages args) := by
  have room : 0 < args.postlist := accepted.somePostlist
  cases call with
  | reqs coroId bits cmsgs =>
      exact send_loop_rule (reqMessage args coroId bits) (Posting args)
        (fun _ _ _ cmsg => encode_req_posting accepted coroId bits cmsg)
        (fun _ _ _ => post_posting accepted) cmsgs sender 0 sent room (fun _ => rfl) posting
  | resps cmsgs =>
      exact send_loop_rule respMessage (Posting args)
        (fun _ _ _ cmsg => encode_resp_posting accepted cmsg)
        (fun _ _ _ => post_posting accepted) cmsgs sender 0 sent room (fun _ => rfl) posting

theorem init_posting (accepted : Accepted args) : Posting args (Sender.init args.numQps) 0 [] := by
  refine ⟨⟨accepted.someQps, List.length_replicate, ⟨rfl, ?_⟩, Nat.zero_le _, ?_⟩, rfl, ?_⟩
  · intro index below
    have bound : index < rpcMaxPostlist + 1 := by omega
    simp only [Sender.init]
    rw [List.getElem?_map, List.getElem?_range bound]
    simp only [Option.map_some, initSendWr, if_pos below]
  · intro index queue found
    have fresh : queue = ⟨0, []⟩ := List.eq_of_mem_replicate (List.mem_of_getElem? found)
    have none_ : queuedOn (Sender.init args.numQps) 0 index = [] := by
      rw [queuedOn]
      split_ifs <;> rfl
    rw [fresh, none_]
    exact windowed_nil (by decide)
  · intro chain member
    cases member

theorem calls_posting (accepted : Accepted args) (calls : List SendCall)
    (posting : Posting args sender 0 sent) :
    ∃ final, calls.foldlM (SendCall.run args) sender = .ok final ∧
      Posting args final 0 (sent ++ calls.flatMap (SendCall.messages args)) := by
  induction calls generalizing sender sent with
  | nil =>
      rw [List.flatMap_nil, List.append_nil]
      exact ⟨sender, rfl, posting⟩
  | cons call rest ih =>
      obtain ⟨middle, ran, kept⟩ := call_posting accepted call posting
      obtain ⟨final, others, keptToo⟩ := ih kept
      refine ⟨final, ?_, ?_⟩
      · rw [List.foldlM_cons, ran]
        exact others
      · rw [List.flatMap_cons, ← List.append_assoc]
        exact keptToo

theorem posting_outstanding (posting : Posting args sender 0 sent) :
    ∀ queue ∈ sender.qps, queue.outstanding.length ≤ hrdSqDepth := by
  intro queue member
  obtain ⟨index, found⟩ := List.getElem?_of_mem member
  have windowed := posting.filling.windows index queue found
  have few := windowed_length windowed
  obtain ⟨_, _, _, _, _, _, pendingBound, _⟩ := windowed
  rw [List.length_append] at few
  simp only [rpcUnsigBatch, hrdSqDepth] at *
  omega

/-- No call waits for a completion that cannot come and no send queue overflows;
the messages are posted once each, in order, in chains of at most `postlist`. -/
theorem sends_are_posted_in_chains (args : RpcArgs) (accepted : Accepted args)
    (calls : List SendCall) :
    ∃ final, calls.foldlM (SendCall.run args) (Sender.init args.numQps) = .ok final ∧
      final.posted.flatten.map SendWr.msg = calls.flatMap (SendCall.messages args) ∧
      (∀ chain ∈ final.posted, chain.length ≤ args.postlist) ∧ ChainRestored final ∧
      ∀ queue ∈ final.qps, queue.outstanding.length ≤ hrdSqDepth := by
  obtain ⟨final, ran, posting⟩ := calls_posting accepted calls (init_posting accepted)
  refine ⟨final, ran, ?_, posting.short, posting.filling.restored, posting_outstanding posting⟩
  have order := posting.order
  rw [List.take_zero, List.append_nil, List.nil_append] at order
  exact order

def shortLists : RpcArgs where
  wrkrGid := 0
  wrkrLid := 0
  numWorkers := 2
  workersPerMachine := 1
  numCoro := 2
  basePortIndex := 0
  numPorts := 1
  numQps := 2
  numaNode := 0
  postlist := 2
  maxPktSize := 2048

def mbufOf (length : Nat) : Mbuf := ⟨fun _ => 0, 2048, length⟩

def cmsgTo (machine length : Nat) : Cmsg := ⟨some machine, 0, 1, mbufOf length, mbufOf length⟩

/-- More messages on each queue pair than between two signaled ones. -/
def manyMessages : List SendCall :=
  List.replicate 44 (.reqs 1 0 [cmsgTo 0 28, cmsgTo 1 28, cmsgTo 0 28]) ++
    List.replicate 44 (.resps [cmsgTo 1 64, cmsgTo 0 64, cmsgTo 1 64])

theorem sends_are_posted_in_chains_many :
    ∃ final, manyMessages.foldlM (SendCall.run shortLists) (Sender.init 2) = .ok final ∧
      final.posted.length = 176 ∧ ChainRestored final := by
  obtain ⟨final, ran, -, -, restored, -⟩ := sends_are_posted_in_chains shortLists
    ⟨by decide, by decide, by decide, by decide⟩ manyMessages
  refine ⟨final, ran, ?_, restored⟩
  have chains :
      (manyMessages.foldlM (SendCall.run shortLists) (Sender.init shortLists.numQps)).map
        (fun sender => sender.posted.length) = .ok 176 := by decide +kernel
  rw [ran] at chains
  exact Except.ok.inj chains

end Fasst.RpcSendWindow
