import Mathlib.Tactic.Common

/-!
# Programs that talk to a service

A program is a tree of calls: what it does after a call depends on the reply. It
ends normally or gives up. A `Service` says when a call may be made and in which
local state it can return; `Safe` follows a program through all answers that the
service can give. Whether a call returns at all is not its subject.
-/

namespace Fasst.Dialogues

set_option autoImplicit false

universe u v w

inductive Program (Call : Type u) (Reply : Type v) where
  | done
  | exit
  | call (next : Call) (rest : Reply → Program Call Reply)

/-- Where a client is: outside of any call, with the rest of its program, or
inside a call. -/
inductive Control (Call : Type u) (Reply : Type v) where
  | ready (program : Program Call Reply)
  | waiting (next : Call) (rest : Reply → Program Call Reply)

structure Service (Call : Type u) (Reply : Type v) (Local : Type w) where
  view : Local → Reply
  ended : Local → Prop
  allowed : Call → Local → Prop
  /-- The states that a call made in the first state can go through. -/
  inside : Call → Local → Local → Prop
  /-- The states in which a call can return. -/
  returned : Local → Prop

variable {Call : Type u} {Reply : Type v} {Local : Type w} {service : Service Call Reply Local}

def Safe (service : Service Call Reply Local) : Program Call Reply → Local → Prop
  | .done, now => service.ended now
  | .exit, _ => False
  | .call next rest, now => service.allowed next now ∧
      ∀ after, service.inside next now after → service.returned after →
        Safe service (rest (service.view after)) after

def Holds (service : Service Call Reply Local) : Control Call Reply → Local → Prop
  | .ready program, now => Safe service program now
  | .waiting next rest, now => ∃ before, service.inside next before now ∧
      ∀ after, service.inside next before after → service.returned after →
        Safe service (rest (service.view after)) after

def callAll (calls : List Call) (rest : Program Call Reply) : Program Call Reply :=
  calls.foldr (fun next program => .call next fun _ => program) rest

theorem holds_call {next : Call} {rest : Reply → Program Call Reply} {now after : Local}
    (holds : Holds service (.ready (.call next rest)) now) (moved : service.inside next now after) :
    Holds service (.waiting next rest) after :=
  ⟨now, moved, holds.2⟩

theorem holds_inside {next : Call} {rest : Reply → Program Call Reply} {now after : Local}
    (holds : Holds service (.waiting next rest) now)
    (moved : ∀ before, service.inside next before now → service.inside next before after) :
    Holds service (.waiting next rest) after := by
  obtain ⟨before, inside, continues⟩ := holds
  exact ⟨before, moved before inside, continues⟩

theorem holds_return {next : Call} {rest : Reply → Program Call Reply} {now : Local}
    (holds : Holds service (.waiting next rest) now) (returned : service.returned now) :
    Holds service (.ready (rest (service.view now))) now := by
  obtain ⟨before, inside, continues⟩ := holds
  exact continues now inside returned

/-- The rule for a list of calls: an assertion about the calls still to be made
that every call carries on. -/
theorem safe_call_all {rest : Program Call Reply} (during : List Call → Local → Prop)
    (step : ∀ next calls now, during (next :: calls) now → service.allowed next now ∧
      ∀ after, service.inside next now after → service.returned after → during calls after)
    (last : ∀ now, during [] now → Safe service rest now)
    (calls : List Call) (now : Local) (start : during calls now) :
    Safe service (callAll calls rest) now := by
  induction calls generalizing now with
  | nil => exact last now start
  | cons next calls ih =>
      obtain ⟨allowed, moves⟩ := step next calls now start
      refine ⟨allowed, ?_⟩
      intro after inside returned
      exact ih after (moves after inside returned)

end Fasst.Dialogues
