import Fasst.RpcSendWindow

/-!
# Recycling the non-inline response buffers

The buffers are handed out by one counter for all queue pairs. While a send on a
queue pair is uncovered, at most two windows of sends follow it there, and between
two chains on its queue pair every other queue pair has one chain. The buffer of
the send is therefore not reached again if `num_qps - 1` chains of `postlist`
sends are few; in general it is.
-/

namespace Fasst.RpcNonInline

open Fasst.RpcDefs Fasst.RpcSend Fasst.RpcSendWindow Fasst.SignalWindow

set_option autoImplicit false

/-- The chains of other queue pairs since the last one of a queue pair. -/
def turns (numQps active index : Nat) : Nat :=
  if index < active then active - index - 1 else active + numQps - index - 1

/-- The most sends of other queue pairs between two chains of one. -/
def share (args : RpcArgs) : Nat := (args.numQps - 1) * args.postlist

/-- The most sends of other queue pairs since the last chain of a queue pair. -/
def turnSlack (args : RpcArgs) (active wrI index : Nat) : Nat :=
  if index = active then (if wrI = 0 then share args else 0)
  else turns args.numQps active index * args.postlist + wrI

/-- Every buffer in a queue was the `number`-th that was copied, with few copies
since: one for each later send of the queue and for each send in between. -/
def Aged (between slack copies : Nat) (addrs : List SgAddr) : Prop :=
  ∀ front buffer back, addrs = front ++ SgAddr.nonInline buffer :: back →
    ∃ number, number < copies ∧ buffer = number % hrdRqDepth ∧
      copies ≤ number + 1 + back.length + between * back.length + slack

section Aged

variable {between slack copies : Nat} {addrs : List SgAddr}

theorem aged_suffix (dropped rest : List SgAddr) (aged : Aged between slack copies (dropped ++ rest)) :
    Aged between slack copies rest := by
  intro front buffer back split
  apply aged (dropped ++ front) buffer back
  rw [split, List.append_assoc]

theorem aged_slack {more : Nat} (aged : Aged between slack copies addrs) (larger : slack ≤ more) :
    Aged between more copies addrs := by
  intro front buffer back split
  obtain ⟨number, older, same, bound⟩ := aged front buffer back split
  exact ⟨number, older, same, by omega⟩

/-- A send on another queue pair. -/
theorem aged_elsewhere {later : Nat} (aged : Aged between slack copies addrs)
    (known : copies ≤ later) (one : later ≤ copies + 1) : Aged between (slack + 1) later addrs := by
  intro front buffer back split
  obtain ⟨number, older, same, bound⟩ := aged front buffer back split
  exact ⟨number, by omega, same, by omega⟩

/-- A send on the same queue pair, which may have started a new chain. -/
theorem aged_push {addr : SgAddr} {later : Nat} (aged : Aged between slack copies addrs)
    (turn : slack ≤ between) (known : copies ≤ later) (one : later ≤ copies + 1)
    (fresh : ∀ buffer, addr = .nonInline buffer →
      later = copies + 1 ∧ buffer = copies % hrdRqDepth) :
    Aged between 0 later (addrs ++ [addr]) := by
  intro front buffer back split
  rcases List.eq_nil_or_concat back with rfl | ⟨middle, last, rfl⟩
  · obtain ⟨-, single⟩ := List.append_inj' split rfl
    obtain ⟨counted, same⟩ := fresh buffer (List.cons.inj single).1
    refine ⟨copies, by omega, same, ?_⟩
    rw [List.length_nil]
    omega
  · rw [List.concat_eq_append, ← List.cons_append, ← List.append_assoc] at split
    obtain ⟨before, -⟩ := List.append_inj' split rfl
    obtain ⟨number, older, same, bound⟩ := aged front buffer middle before
    refine ⟨number, by omega, same, ?_⟩
    rw [List.length_concat, Nat.mul_add, Nat.mul_one]
    omega

/-- A short queue does not hold the buffer that is copied next. -/
theorem aged_apart (length : Nat) (aged : Aged between slack copies addrs)
    (short : addrs.length ≤ length)
    (few : length + between * (length - 1) + slack < hrdRqDepth) :
    SgAddr.nonInline (copies % hrdRqDepth) ∉ addrs := by
  intro member
  obtain ⟨front, back, split⟩ := List.append_of_mem member
  obtain ⟨number, older, same, bound⟩ := aged front _ back split
  have shorter : back.length ≤ length - 1 := by
    rw [split, List.length_append, List.length_cons] at short
    omega
  have scaled := Nat.mul_le_mul_left between shorter
  have some_ : 1 ≤ length := by
    rw [split, List.length_append, List.length_cons] at short
    omega
  simp only [hrdRqDepth] at few same
  omega

end Aged

variable {args : RpcArgs} {sender : Sender} {wrI : Nat}

theorem turn_slack_active (args : RpcArgs) (active wrI : Nat) : turnSlack args active wrI active ≤ share args := by
  rw [turnSlack, if_pos rfl]
  split_ifs
  · exact Nat.le_refl _
  · exact Nat.zero_le _

theorem turn_slack_step (active index : Nat) (other : index ≠ active) :
    turnSlack args active (wrI + 1) index = turnSlack args active wrI index + 1 := by
  rw [turnSlack, turnSlack, if_neg other, if_neg other, Nat.add_assoc]

theorem turn_slack_other (active index : Nat) (other : index ≠ active)
    (activeBound : active < args.numQps) (indexBound : index < args.numQps)
    (room : wrI < args.postlist) : turnSlack args active wrI index + 1 ≤ share args := by
  have fewer : turns args.numQps active index + 1 ≤ args.numQps - 1 := by
    unfold turns
    split_ifs <;> omega
  have scaled := Nat.mul_le_mul_right args.postlist fewer
  rw [Nat.add_mul, Nat.one_mul] at scaled
  rw [turnSlack, if_neg other, share]
  omega

/-- When a chain is posted and the next queue pair has its turn. -/
theorem turn_slack_rotate (active index : Nat) (indexBound : index < args.numQps) (some_ : 0 < wrI)
    (room : wrI ≤ args.postlist) :
    turnSlack args active wrI index ≤ turnSlack args (hrdModAdd active args.numQps) 0 index := by
  by_cases own : index = active
  · rw [turnSlack, if_pos own, if_neg (Nat.ne_of_gt some_)]
    exact Nat.zero_le _
  · have later : turnSlack args (hrdModAdd active args.numQps) 0 index =
        (turns args.numQps active index + 1) * args.postlist := by
      by_cases turn : index = hrdModAdd active args.numQps
      · have chains : args.numQps - 1 = turns args.numQps active index + 1 := by
          unfold turns hrdModAdd at *
          split_ifs at * <;> omega
        rw [turnSlack, if_pos turn, if_pos rfl, share, chains]
      · have chains : turns args.numQps (hrdModAdd active args.numQps) index =
            turns args.numQps active index + 1 := by
          unfold turns hrdModAdd at *
          split_ifs at * <;> omega
        rw [turnSlack, if_neg turn, chains, Nat.add_zero]
    rw [later, turnSlack, if_neg own, Nat.add_mul, Nat.one_mul]
    omega

theorem mod_add_count (copies : Nat) :
    hrdModAdd (copies % hrdRqDepth) hrdRqDepth = (copies + 1) % hrdRqDepth := by
  by_cases wraps : copies % hrdRqDepth + 1 = hrdRqDepth
  · rw [hrdModAdd, if_pos wraps]
    simp only [hrdRqDepth] at *
    omega
  · rw [hrdModAdd, if_neg wraps]
    simp only [hrdRqDepth] at *
    omega

def addrsOf (sender : Sender) (wrI index : Nat) (queue : SendQp) : List SgAddr :=
  (queue.outstanding ++ queuedOn sender wrI index).map SendWr.sgAddr

/-- After `copies` copies no buffer was overwritten, and those in use are recent. -/
structure Cycling (args : RpcArgs) (sender : Sender) (wrI copies : Nat) : Prop where
  filling : Filling args sender wrI
  next : sender.nonInlineIndex = copies % hrdRqDepth
  safe : sender.overwritten = []
  ages : ∀ index queue, sender.qps[index]? = some queue →
    Aged (share args) (turnSlack args sender.activeQp wrI index) copies
      (addrsOf sender wrI index queue)

variable {copies : Nat}

theorem index_bound (filling : Filling args sender wrI) {index : Nat} {queue : SendQp}
    (found : sender.qps[index]? = some queue) : index < args.numQps := by
  rw [← filling.count]
  exact (List.getElem?_eq_some_iff.mp found).1

theorem put_cycling (accepted : Accepted args) (cycling : Cycling args sender wrI copies)
    (room : wrI < args.postlist) {queue : SendQp} {rest : List SendWr}
    (advance : Advance sender wrI queue rest) (addr : SgAddr) (flags : SendFlags) (msg : Message)
    (later : Nat) (known : copies ≤ later) (one : later ≤ copies + 1)
    (fresh : ∀ buffer, addr = .nonInline buffer → later = copies + 1 ∧ buffer = copies % hrdRqDepth) :
    ∀ index other,
      ((advanced sender queue rest).putWr wrI addr flags msg).qps[index]? = some other →
      Aged (share args) (turnSlack args sender.activeQp (wrI + 1) index) later
        (addrsOf ((advanced sender queue rest).putWr wrI addr flags msg) (wrI + 1) index other) := by
  intro index other found
  obtain ⟨wr, slot⟩ := slot_found accepted cycling.filling room
  replace found : (sender.qps.set sender.activeQp ⟨nextPending queue.nbPending, rest⟩)[index]? =
    some other := found
  by_cases same : index = sender.activeQp
  · have bound : sender.activeQp < sender.qps.length := by
      rw [cycling.filling.count]
      exact cycling.filling.active
    rw [same, List.getElem?_set_self bound] at found
    have queued : queuedOn ((advanced sender queue rest).putWr wrI addr flags msg) (wrI + 1) index =
        sender.sendWr.take wrI ++ [{ wr with sgAddr := addr, sendFlags := flags, msg := msg }] :=
      (if_pos same).trans (take_modify_last _ _ _ _ slot)
    obtain ⟨front, split⟩ := advance.suffix
    have aged := cycling.ages _ _ advance.found
    rw [addrsOf, queuedOn, if_pos rfl, split, List.append_assoc, List.map_append] at aged
    have pushed := aged_push (aged_suffix _ _ aged) (turn_slack_active args _ wrI) known one fresh
    have slack : turnSlack args sender.activeQp (wrI + 1) index = 0 := by
      rw [turnSlack, if_pos same, if_neg (Nat.succ_ne_zero wrI)]
    rw [slack, addrsOf, queued, ← Option.some.inj found, ← List.append_assoc, List.map_append]
    exact pushed
  · rw [List.getElem?_set_ne (Ne.symm same)] at found
    have queued : queuedOn ((advanced sender queue rest).putWr wrI addr flags msg) (wrI + 1) index =
        queuedOn sender wrI index := (if_neg same).trans (if_neg same).symm
    rw [addrsOf, queued, turn_slack_step _ _ same]
    exact aged_elsewhere (cycling.ages index other found) known one

/-- The next buffer is not referenced by an uncovered send. -/
theorem next_not_readable (cycling : Cycling args sender wrI copies)
    (few : share args ≤ 7) (room : wrI < args.postlist) {queue : SendQp} {rest : List SendWr}
    (advance : Advance sender wrI queue rest) :
    (advanced sender queue rest).readable (copies % hrdRqDepth) = false := by
  apply List.any_eq_false.mpr
  intro other member
  rw [Bool.not_eq_true]
  apply List.any_eq_false.mpr
  intro wr posted
  rw [beq_iff_eq]
  intro here
  obtain ⟨index, found⟩ := List.getElem?_of_mem member
  replace found : (sender.qps.set sender.activeQp ⟨nextPending queue.nbPending, rest⟩)[index]? =
    some other := found
  have among : SgAddr.nonInline (copies % hrdRqDepth) ∈ other.outstanding.map SendWr.sgAddr := by
    rw [← here]
    exact List.mem_map_of_mem posted
  by_cases same : index = sender.activeQp
  · have bound : sender.activeQp < sender.qps.length := by
      rw [cycling.filling.count]
      exact cycling.filling.active
    rw [same, List.getElem?_set_self bound] at found
    rw [← Option.some.inj found] at among
    obtain ⟨front, split⟩ := advance.suffix
    have aged := cycling.ages _ _ advance.found
    rw [addrsOf, queuedOn, if_pos rfl, split, List.append_assoc, List.map_append] at aged
    obtain ⟨first, flag⟩ : ∃ entry : SendWr, entry.signaled = (queue.nbPending == 0) :=
      ⟨{ initSendWr 0 with sendFlags := ⟨queue.nbPending == 0, false⟩ }, rfl⟩
    have window := advance.window first flag
    have length := windowed_length window
    obtain ⟨_, _, _, _, _, _, pendingBound, _⟩ := window
    rw [List.length_append, List.length_singleton] at length
    apply aged_apart 253 (aged_suffix _ _ aged)
    · rw [List.length_map]
      simp only [rpcUnsigBatch] at length pendingBound
      omega
    · have slack := turn_slack_active args sender.activeQp wrI
      simp only [hrdRqDepth]
      omega
    · rw [List.map_append]
      exact List.mem_append_left _ among
  · rw [List.getElem?_set_ne (Ne.symm same)] at found
    have window := cycling.filling.windows index other found
    have length := windowed_length window
    obtain ⟨_, _, _, _, _, _, pendingBound, _⟩ := window
    apply aged_apart 254 (cycling.ages index other found)
    · rw [addrsOf, List.length_map]
      simp only [rpcUnsigBatch] at length pendingBound
      omega
    · have slack := turn_slack_other sender.activeQp index same cycling.filling.active
        (index_bound cycling.filling found) room
      simp only [hrdRqDepth]
      omega
    · rw [addrsOf, List.map_append]
      exact List.mem_append_left _ among

theorem encode_req_cycling (accepted : Accepted args) (coroId bits : Nat) (cmsg : Cmsg)
    (room : wrI < args.postlist) (cycling : Cycling args sender wrI copies) :
    ∃ next, encodeReq args coroId bits sender wrI cmsg = .ok next ∧
      Cycling args next (wrI + 1) copies := by
  obtain ⟨queue, rest, advance⟩ := set_flags_advance accepted cycling.filling room
  exact ⟨_, encode_req_ran advance coroId bits cmsg,
    put_filling accepted cycling.filling room advance _ _ _ rfl, cycling.next, cycling.safe,
    put_cycling accepted cycling room advance _ _ _ copies (Nat.le_refl _) (by omega)
      (by rintro _ ⟨⟩)⟩

theorem encode_resp_cycling (accepted : Accepted args) (few : share args ≤ 7) (cmsg : Cmsg)
    (room : wrI < args.postlist) (cycling : Cycling args sender wrI copies) :
    ∃ next, encodeResp sender wrI cmsg = .ok next ∧
      ∃ later, Cycling args next (wrI + 1) later := by
  obtain ⟨queue, rest, advance⟩ := set_flags_advance accepted cycling.filling room
  refine ⟨_, encode_resp_ran advance cmsg, ?_⟩
  split_ifs
  · have unread := next_not_readable cycling few room advance
    have filling := put_filling accepted cycling.filling room advance
      (.nonInline sender.nonInlineIndex)
      ⟨queue.nbPending == 0, decide (cmsg.respMbuf.length ≤ hrdMaxInline)⟩ (respMessage cmsg) rfl
    refine ⟨copies + 1, ⟨filling.active, filling.count, filling.restored, filling.room,
      filling.windows⟩, ?_, ?_, ?_⟩
    · rw [← mod_add_count, ← cycling.next]
      rfl
    · rw [← cycling.next] at unread
      simp only [Sender.copyNonInline, Sender.putWr]
      have same : (advanced sender queue rest).nonInlineIndex = sender.nonInlineIndex := rfl
      rw [same, unread, if_neg Bool.false_ne_true]
      exact cycling.safe
    · apply put_cycling accepted cycling room advance _ _ _ (copies + 1) (by omega)
        (Nat.le_refl _)
      intro buffer given
      rw [← SgAddr.nonInline.inj given, cycling.next]
      exact ⟨rfl, rfl⟩
  · exact ⟨copies, put_filling accepted cycling.filling room advance _ _ _ rfl, cycling.next,
      cycling.safe,
      put_cycling accepted cycling room advance _ _ _ copies (Nat.le_refl _) (by omega)
      (by rintro _ ⟨⟩)⟩

theorem post_cycling (accepted : Accepted args) (some_ : 0 < wrI)
    (cycling : Cycling args sender wrI copies) :
    ∃ next, sender.postChain args wrI = .ok next ∧ Cycling args next 0 copies := by
  obtain ⟨queue, found⟩ := active_queue cycling.filling
  refine ⟨_, post_chain_ran accepted cycling.filling some_ found,
    post_filling cycling.filling found, cycling.next, cycling.safe, ?_⟩
  intro index other lookup
  have inside := index_bound (post_filling cycling.filling found) lookup
  apply aged_slack _ (turn_slack_rotate sender.activeQp index inside some_ cycling.filling.room)
  replace lookup : (sender.qps.set sender.activeQp
    { queue with outstanding := queue.outstanding ++ cutChain sender wrI })[index]? = some other :=
    lookup
  have none_ : queuedOn (chainSent args sender wrI queue) 0 index = [] := by
    rw [queuedOn]
    split_ifs <;> rfl
  rw [addrsOf, none_, List.append_nil]
  by_cases same : index = sender.activeQp
  · have bound : sender.activeQp < sender.qps.length := by
      rw [cycling.filling.count]
      exact cycling.filling.active
    rw [same, List.getElem?_set_self bound] at lookup
    have aged := cycling.ages _ _ found
    rw [addrsOf, queuedOn, if_pos rfl, List.map_append] at aged
    rw [← Option.some.inj lookup, List.map_append, cut_chain_map _ _ _ fun _ _ => rfl, same]
    exact aged
  · rw [List.getElem?_set_ne (Ne.symm same)] at lookup
    have aged := cycling.ages index other lookup
    rw [addrsOf, queuedOn, if_neg same, List.append_nil] at aged
    exact aged

theorem call_cycling (accepted : Accepted args) (few : share args ≤ 7) (call : SendCall)
    (cycling : ∃ copies, Cycling args sender 0 copies) :
    ∃ final, call.run args sender = .ok final ∧ ∃ copies, Cycling args final 0 copies := by
  have room : 0 < args.postlist := accepted.somePostlist
  have posts : ∀ sender wrI (_ : List Message), 0 < wrI → (∃ copies, Cycling args sender wrI copies) →
      ∃ next, sender.postChain args wrI = .ok next ∧ ∃ copies, Cycling args next 0 copies := by
    rintro sender wrI - some_ ⟨copies, cycling⟩
    obtain ⟨next, ran, kept⟩ := post_cycling accepted some_ cycling
    exact ⟨next, ran, copies, kept⟩
  cases call with
  | reqs coroId bits cmsgs =>
      apply send_loop_rule (reqMessage args coroId bits)
        (fun sender wrI _ => ∃ copies, Cycling args sender wrI copies) _ posts cmsgs sender 0 [] room
        (fun _ => rfl) cycling
      rintro sender wrI - cmsg room ⟨copies, cycling⟩
      obtain ⟨next, ran, kept⟩ := encode_req_cycling accepted coroId bits cmsg room cycling
      exact ⟨next, ran, copies, kept⟩
  | resps cmsgs =>
      apply send_loop_rule respMessage
        (fun sender wrI _ => ∃ copies, Cycling args sender wrI copies) _ posts cmsgs sender 0 [] room
        (fun _ => rfl) cycling
      rintro sender wrI - cmsg room ⟨copies, cycling⟩
      exact encode_resp_cycling accepted few cmsg room cycling

theorem init_cycling (accepted : Accepted args) : Cycling args (Sender.init args.numQps) 0 0 := by
  refine ⟨(init_posting accepted).filling, rfl, rfl, ?_⟩
  intro index queue found front buffer back split
  have fresh : queue = ⟨0, []⟩ := List.eq_of_mem_replicate (List.mem_of_getElem? found)
  have none_ : queuedOn (Sender.init args.numQps) 0 index = [] := by
    rw [queuedOn]
    split_ifs <;> rfl
  rw [addrsOf, fresh, none_] at split
  exact absurd split.symm (List.append_ne_nil_of_right_ne_nil _ (List.cons_ne_nil _ _))

theorem calls_cycling (accepted : Accepted args) (few : share args ≤ 7) (calls : List SendCall)
    (cycling : ∃ copies, Cycling args sender 0 copies) :
    ∃ final, calls.foldlM (SendCall.run args) sender = .ok final ∧
      ∃ copies, Cycling args final 0 copies := by
  induction calls generalizing sender with
  | nil => exact ⟨sender, rfl, cycling⟩
  | cons call rest ih =>
      obtain ⟨middle, ran, kept⟩ := call_cycling accepted few call cycling
      rw [List.foldlM_cons, ran]
      exact ih kept

theorem non_inline_buffers_are_free (args : RpcArgs) (accepted : Accepted args)
    (few : (args.numQps - 1) * args.postlist ≤ 7) (calls : List SendCall) :
    ∃ final, calls.foldlM (SendCall.run args) (Sender.init args.numQps) = .ok final ∧
      final.overwritten = [] := by
  obtain ⟨final, ran, _, cycling⟩ := calls_cycling accepted few calls ⟨0, init_cycling accepted⟩
  exact ⟨final, ran, cycling.safe⟩

def unevenBatches : List SendCall :=
  List.replicate 32 (.resps (List.replicate 65 (cmsgTo 1 64))) ++
    [.resps (List.replicate 33 (cmsgTo 1 64))]

theorem non_inline_buffers_are_free_uneven :
    ∃ final, unevenBatches.foldlM (SendCall.run shortLists) (Sender.init 2) = .ok final ∧
      final.overwritten = [] :=
  non_inline_buffers_are_free shortLists ⟨by decide, by decide, by decide, by decide⟩ (by decide)
    unevenBatches

def longLists : RpcArgs := { shortLists with postlist := 64 }

def lastOverwritten : Except SendFault Sender → Option Nat
  | .ok sender => sender.overwritten.head?
  | .error _ => none

/-- The first response of the second queue pair is uncovered when its buffer, the
64th, is copied into again. -/
theorem uneven_batches_overwrite :
    ∃ final, unevenBatches.foldlM (SendCall.run longLists) (Sender.init 2) = .ok final ∧
      64 ∈ final.overwritten := by
  have hit : lastOverwritten (unevenBatches.foldlM (SendCall.run longLists) (Sender.init 2)) =
      some 64 := by decide +kernel
  cases ran : unevenBatches.foldlM (SendCall.run longLists) (Sender.init 2) with
  | ok final =>
      rw [ran] at hit
      exact ⟨final, rfl, List.mem_of_mem_head? hit⟩
  | error fault =>
      rw [ran] at hit
      cases hit

end Fasst.RpcNonInline
