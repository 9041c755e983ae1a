import Mathlib.Data.List.Nodup
import Mathlib.Logic.Function.Basic

/-!
# Optimistic reads with locked writes are serializable

Transactions over a store whose keys are divided into buckets. A bucket has an
owner while it is locked and a version that grows with every final unlock. A
transaction locks the keys it writes and remembers for every key it reads the
version of the bucket; after its last operation it is `called`, it then checks
its reads again one by one, and is `decided` when all of them have passed. A
decided transaction applies its writes one by one and releases its buckets.

The serial order is the order of the calls. It is not part of the state: the
invariant says that there is one.
-/

namespace Fasst.OptimisticLocking

set_option autoImplicit false

universe u v w x

variable {Txn : Type u} {Key : Type v} {Bucket : Type w} {Entry : Type x}

inductive Phase where
  | running
  | called
  | decided
  | failed
  deriving DecidableEq

/-- What a read can be checked against: the version it met, or nothing but the
ownership of the bucket. -/
inductive Mark where
  | exact (version : Nat)
  | held

structure Occ (Txn : Type u) (Key : Type v) (Bucket : Type w) (Entry : Type x) where
  store : Key → Entry
  version : Bucket → Nat
  owner : Bucket → Option Txn
  phase : Txn → Phase
  reads : Txn → Key → Option (Entry × Mark)
  checked : Txn → Key → Prop
  locked : Txn → Key → Option Entry
  news : Txn → Key → Option Entry
  applied : Txn → Key → Prop

section Replay

/-- The store after the writes of the listed transactions, one after the other. -/
def replay (news : Txn → Key → Option Entry) (init : Key → Entry) (order : List Txn) (key : Key) :
    Entry :=
  order.foldl (fun entry txn => (news txn key).getD entry) (init key)

variable {news other : Txn → Key → Option Entry} {init : Key → Entry} {key : Key}

theorem replay_append (front back : List Txn) :
    replay news init (front ++ back) key = replay news (replay news init front) back key := by
  unfold replay
  rw [List.foldl_append]

theorem replay_cons (txn : Txn) (order : List Txn) :
    replay news init (txn :: order) key =
      replay news (fun key => (news txn key).getD (init key)) order key := rfl

theorem replay_congr {order : List Txn} (same : ∀ txn ∈ order, other txn key = news txn key) :
    replay other init order key = replay news init order key := by
  apply List.foldl_ext
  intro entry txn member
  rw [same txn member]

theorem replay_quiet {order : List Txn} (quiet : ∀ txn ∈ order, news txn key = none) :
    replay news init order key = init key := by
  induction order generalizing init with
  | nil => rfl
  | cons txn order ih =>
      rw [replay_cons, ih fun other member => quiet other (List.mem_cons_of_mem _ member),
        quiet txn List.mem_cons_self]
      rfl

/-- A transaction that does not write a key can stand anywhere. -/
theorem replay_insert {txn : Txn} (quiet : news txn key = none) (front back : List Txn) :
    replay news init (front ++ txn :: back) key = replay news init (front ++ back) key := by
  unfold replay
  rw [List.foldl_append, List.foldl_append, List.foldl_cons, quiet]
  rfl

theorem replay_filter (keep : Txn → Bool) (order : List Txn) :
    replay news init (order.filter keep) key =
      replay (fun txn key => if keep txn then news txn key else none) init order key := by
  unfold replay
  rw [List.foldl_filter]
  apply List.foldl_ext
  intro entry txn _
  by_cases kept : keep txn = true
  · simp only [if_pos kept]
  · simp only [if_neg kept, Option.getD_none]

end Replay

/-- The cases of an element of a list into which one was inserted. -/
theorem split_insert {front back before after : List Txn} {txn other : Txn}
    (split : front ++ txn :: back = before ++ other :: after) :
    (other = txn ∧ before = front) ∨
      (∃ rest, front ++ back = before ++ other :: rest ∧ before <+: front) ∨
      ∃ middle, before = front ++ txn :: middle ∧ front ++ back = (front ++ middle) ++ other :: after := by
  rcases List.append_eq_append_iff.mp split with ⟨middle, beforeEq, tail⟩ | ⟨middle, frontEq, tail⟩
  · cases middle with
    | nil =>
        left
        rw [List.nil_append] at tail
        exact ⟨(List.cons.inj tail).1.symm, by rw [beforeEq, List.append_nil]⟩
    | cons head middle =>
        rw [List.cons_append] at tail
        obtain ⟨rfl, rest⟩ := List.cons.inj tail
        exact Or.inr (Or.inr ⟨middle, beforeEq, by rw [rest, List.append_assoc]⟩)
  · cases middle with
    | nil =>
        left
        rw [List.nil_append] at tail
        exact ⟨(List.cons.inj tail).1, by rw [frontEq, List.append_nil]⟩
    | cons head middle =>
        rw [List.cons_append] at tail
        obtain ⟨rfl, rest⟩ := List.cons.inj tail
        refine Or.inr (Or.inl ⟨middle ++ back, ?_, ?_⟩)
        · rw [frontEq, List.append_assoc, List.cons_append]
        · exact ⟨_, frontEq.symm⟩

/-- The places of an order with a new last one. -/
theorem split_last {order front back : List Txn} {txn other : Txn} (absent : txn ∉ order)
    (split : order ++ [txn] = front ++ other :: back) :
    (other = txn ∧ front = order) ∨ (other ≠ txn ∧ (∀ member ∈ front, member ∈ order) ∧
      ∃ rest, order = front ++ other :: rest) := by
  rcases split_insert split with last | ⟨rest, before, _⟩ | ⟨middle, _, before⟩
  · exact Or.inl last
  · rw [List.append_nil] at before
    refine Or.inr ⟨fun self => absent ?_, fun member inside => ?_, rest, before⟩
    · rw [before, self]
      simp
    · rw [before]
      exact List.mem_append_left _ inside
  · have lengths := congrArg List.length before
    simp only [List.length_append, List.length_cons, List.length_nil] at lengths
    omega

namespace Occ

variable (s : Occ Txn Key Bucket Entry)

def written (txn : Txn) (key : Key) : Option Entry :=
  if s.phase txn = .decided then s.news txn key else none

def Open (txn : Txn) : Prop := s.phase txn = .running ∨ s.phase txn = .called

def Pending (txn : Txn) (key : Key) : Prop :=
  s.phase txn = .decided ∧ s.news txn key ≠ none ∧ ¬ s.applied txn key

/-- The value of a key after a part of the order, which no transaction that
might still be decided can change. -/
def Sealed (init : Key → Entry) (order : List Txn) (key : Key) (entry : Entry) : Prop :=
  replay s.written init order key = entry ∧
    ∀ txn ∈ order, s.phase txn = .called → s.news txn key = none

variable (home : Key → Bucket)

/-- A read of this version will never pass a check by version. -/
def Doomed (txn : Txn) (key : Key) (version : Nat) : Prop :=
  version < s.version (home key) ∨ ∃ other, s.owner (home key) = some other ∧ other ≠ txn

def Accessible (txn : Txn) (key : Key) : Prop :=
  s.owner (home key) = none ∨ s.owner (home key) = some txn

end Occ

section Machine

variable [DecidableEq Txn] [DecidableEq Key] [DecidableEq Bucket]

def put {α : Type*} (table : Txn → Key → α) (txn : Txn) (key : Key) (value : α) : Txn → Key → α :=
  Function.update table txn (Function.update (table txn) key value)

theorem put_apply {α : Type*} (table : Txn → Key → α) (txn other : Txn) (key target : Key)
    (value : α) : put table txn key value other target =
      if other = txn ∧ target = key then value else table other target := by
  unfold put
  by_cases same : other = txn
  · subst same
    rw [Function.update_self, Function.update_apply]
    simp only [true_and]
  · rw [Function.update_of_ne same, if_neg fun both => same both.1]

inductive Step (home : Key → Bucket) (s : Occ Txn Key Bucket Entry) :
    Occ Txn Key Bucket Entry → Prop where
  | lock (txn : Txn) (key : Key) (running : s.phase txn = .running)
      (free : s.Accessible home txn key) :
      Step home s { s with
        owner := Function.update s.owner (home key) (some txn)
        locked := put s.locked txn key (some (s.store key)) }
  | bump (bucket : Bucket) (free : s.owner bucket = none) :
      Step home s { s with version := Function.update s.version bucket (s.version bucket + 1) }
  | read (txn : Txn) (key : Key) (mark : Mark) (running : s.phase txn = .running)
      (free : s.Accessible home txn key)
      (marked : mark = .exact (s.version (home key)) ∨
        (mark = .held ∧ s.owner (home key) = some txn)) :
      Step home s { s with reads := put s.reads txn key (some (s.store key, mark)) }
  | call (txn : Txn) (news : Key → Option Entry) (running : s.phase txn = .running)
      (covered : ∀ key, news key ≠ none → s.locked txn key ≠ none) :
      Step home s { s with
        phase := Function.update s.phase txn .called
        news := Function.update s.news txn news }
  | check (txn : Txn) (key : Key) (entry : Entry) (mark : Mark) (called : s.phase txn = .called)
      (was : s.reads txn key = some (entry, mark))
      (valid : (mark = .exact (s.version (home key)) ∧ s.Accessible home txn key) ∨
        (s.owner (home key) = some txn ∧ s.store key = entry)) :
      Step home s { s with checked := put s.checked txn key True }
  | decide (txn : Txn) (called : s.phase txn = .called)
      (all : ∀ key, s.reads txn key ≠ none → s.checked txn key) :
      Step home s { s with phase := Function.update s.phase txn .decided }
  | single (txn : Txn) (key : Key) (running : s.phase txn = .running)
      (readOnly : ∀ key, s.locked txn key = none)
      (only : ∀ target, s.reads txn target ≠ none → target = key) :
      Step home s { s with phase := Function.update s.phase txn .decided }
  | fail (txn : Txn) (undecided : s.Open txn) :
      Step home s { s with phase := Function.update s.phase txn .failed }
  | apply (txn : Txn) (key : Key) (entry : Entry) (decided : s.phase txn = .decided)
      (new : s.news txn key = some entry) (pending : ¬ s.applied txn key) :
      Step home s { s with
        store := Function.update s.store key entry
        applied := put s.applied txn key True }
  | release (txn : Txn) (bucket : Bucket) (owned : s.owner bucket = some txn)
      (ended : s.phase txn = .failed ∨ (s.phase txn = .decided ∧
        ∀ key, home key = bucket → ¬ s.Pending txn key)) :
      Step home s { s with
        owner := Function.update s.owner bucket none
        version := Function.update s.version bucket (s.version bucket + 1) }

end Machine

/-- The invariant for a serial order of the transactions that have been called. -/
structure SerialInv (home : Key → Bucket) (init : Key → Entry) (s : Occ Txn Key Bucket Entry)
    (order : List Txn) : Prop where
  nodup : order.Nodup
  listed : ∀ txn, s.phase txn = .called ∨ s.phase txn = .decided → txn ∈ order
  started : ∀ txn ∈ order, s.phase txn ≠ .running
  ownsLocked : ∀ txn key, s.Open txn → s.locked txn key ≠ none → s.owner (home key) = some txn
  ownsPending : ∀ txn key, s.Pending txn key → s.owner (home key) = some txn
  lockedStore : ∀ txn key entry, s.Open txn → s.locked txn key = some entry → s.store key = entry
  idle : ∀ txn key, s.phase txn = .running → s.news txn key = none ∧ ¬ s.checked txn key
  unapplied : ∀ txn key, s.Open txn → ¬ s.applied txn key
  covered : ∀ txn key, s.news txn key ≠ none → s.locked txn key ≠ none
  versions : ∀ txn key entry version, s.reads txn key = some (entry, .exact version) →
    version ≤ s.version (home key)
  current : ∀ key, (∀ txn, ¬ s.Pending txn key) → replay s.written init order key = s.store key
  pending : ∀ txn key entry, s.Pending txn key → s.news txn key = some entry →
    replay s.written init order key = entry
  reading : ∀ txn key entry version, s.phase txn = .running →
    s.reads txn key = some (entry, .exact version) →
      s.Doomed home txn key version ∨ s.store key = entry
  holding : ∀ txn key entry, s.Open txn → s.reads txn key = some (entry, .held) →
    s.owner (home key) = some txn
  snapshot : ∀ txn key entry mark, s.phase txn = .running →
    s.reads txn key = some (entry, mark) →
      ∃ front back, order = front ++ back ∧ s.Sealed init front key entry
  lockedSealed : ∀ front txn back, order = front ++ txn :: back →
    s.phase txn = .called ∨ s.phase txn = .decided →
      ∀ key entry, s.locked txn key = some entry → s.Sealed init front key entry
  checkedSealed : ∀ front txn back, order = front ++ txn :: back → ∀ key entry mark,
    (s.phase txn = .called ∧ s.checked txn key) ∨ s.phase txn = .decided →
      s.reads txn key = some (entry, mark) → s.Sealed init front key entry
  unchecked : ∀ front txn back, order = front ++ txn :: back → s.phase txn = .called →
    ∀ key entry version, s.reads txn key = some (entry, .exact version) →
      s.Doomed home txn key version ∨ replay s.written init front key = entry
  ownedStore : ∀ front txn back, order = front ++ txn :: back → s.phase txn = .called →
    ∀ key, s.owner (home key) = some txn → replay s.written init front key = s.store key

section Consequences

variable {home : Key → Bucket} {init : Key → Entry} {s : Occ Txn Key Bucket Entry}
  {order : List Txn}

/-- What holds of a key whose bucket is free for a transaction that is not
decided: all decided writes are in the store, and no other writer is left. -/
theorem sealed_of_accessible (inv : SerialInv home init s order) {txn : Txn} {key : Key}
    (undecided : s.phase txn ≠ .decided) (free : s.Accessible home txn key) :
    replay s.written init order key = s.store key ∧
      ∀ other, other ≠ txn → s.phase other = .called → s.news other key = none := by
  have foreign : ∀ other, other ≠ txn → s.owner (home key) ≠ some other := by
    intro other different owner
    rcases free with free | free
    · rw [free] at owner
      cases owner
    · rw [free] at owner
      exact different (Option.some.inj owner).symm
  constructor
  · apply inv.current
    intro other waiting
    by_cases same : other = txn
    · subst same
      exact undecided waiting.1
    · exact foreign other same (inv.ownsPending other key waiting)
  · intro other different called
    by_contra wrote
    exact foreign other different
      (inv.ownsLocked other key (Or.inr called) (inv.covered other key wrote))

theorem not_doomed {txn : Txn} {key : Key} {version : Nat} (now : version = s.version (home key))
    (free : s.Accessible home txn key) : ¬ s.Doomed home txn key version := by
  rintro (older | ⟨other, owner, different⟩)
  · exact absurd now (Nat.ne_of_lt older)
  · rcases free with free | free
    · rw [free] at owner
      cases owner
    · rw [free] at owner
      exact different (Option.some.inj owner).symm

theorem sealed_step {next : Occ Txn Key Bucket Entry} {front : List Txn} {key : Key} {entry : Entry}
    (old : s.Sealed init front key entry)
    (written : ∀ txn ∈ front, next.written txn key = s.written txn key)
    (called : ∀ txn ∈ front, next.phase txn = .called →
      s.phase txn = .called ∧ next.news txn key = s.news txn key) :
    next.Sealed init front key entry := by
  constructor
  · rw [replay_congr written]
    exact old.1
  · intro txn member phase
    obtain ⟨before, same⟩ := called txn member phase
    rw [same]
    exact old.2 txn member before

/-- Who comes later in the order than an undecided writer of a key has not
written the key. -/
theorem later_quiet (inv : SerialInv home init s order) {front back : List Txn} {txn : Txn} {key : Key}
    (split : order = front ++ txn :: back) (called : s.phase txn = .called)
    (wrote : s.news txn key ≠ none) : ∀ later ∈ back, s.written later key = none := by
  intro later member
  unfold Occ.written
  split_ifs with decided
  · by_contra new
    obtain ⟨middle, rest, tail⟩ := List.append_of_mem member
    obtain ⟨entry, locked⟩ := Option.ne_none_iff_exists'.mp (inv.covered later key new)
    have whole : order = (front ++ txn :: middle) ++ later :: rest := by
      rw [split, tail]
      simp
    have kept := inv.lockedSealed _ later rest whole (Or.inr decided) key entry locked
    exact wrote (kept.2 txn (by simp) called)
  · rfl

/-- The transactions that have been decided, in a serial order that explains
what they have read and overwritten and, when all writes are applied, the store. -/
theorem serial_order (inv : SerialInv home init s order) :
    ∃ serial : List Txn, serial.Nodup ∧ (∀ txn, txn ∈ serial ↔ s.phase txn = .decided) ∧
      (∀ front txn back, serial = front ++ txn :: back → ∀ key entry,
        (s.locked txn key = some entry ∨ ∃ mark, s.reads txn key = some (entry, mark)) →
          replay s.news init front key = entry) ∧
      ((∀ txn key, ¬ s.Pending txn key) → ∀ key, replay s.news init serial key = s.store key) := by
  have agree : ∀ part key, replay s.news init (part.filter fun txn => s.phase txn = .decided) key =
      replay s.written init part key := by
    intro part key
    rw [replay_filter]
    simp only [decide_eq_true_eq]
    rfl
  refine ⟨order.filter fun txn => s.phase txn = .decided, inv.nodup.filter _, ?_, ?_, ?_⟩
  · intro txn
    rw [List.mem_filter, decide_eq_true_eq]
    exact ⟨And.right, fun decided => ⟨inv.listed txn (Or.inr decided), decided⟩⟩
  · intro front txn back split key entry saw
    obtain ⟨left, right, whole, kept, rest⟩ := List.filter_eq_append_iff.mp split
    obtain ⟨skipped, tail, shape, passed, decided, after⟩ := List.filter_eq_cons_iff.mp rest
    rw [decide_eq_true_eq] at decided
    have quiet : skipped.filter (fun txn => decide (s.phase txn = .decided)) = [] := by
      rw [List.filter_eq_nil_iff]
      exact passed
    have whole : order = (left ++ skipped) ++ txn :: tail := by
      rw [whole, shape, List.append_assoc]
    rw [← kept, ← List.append_nil (left.filter _), ← quiet, ← List.filter_append, agree]
    rcases saw with locked | ⟨mark, read⟩
    · exact (inv.lockedSealed _ txn _ whole (Or.inr decided) key entry locked).1
    · exact (inv.checkedSealed _ txn _ whole key entry mark (Or.inr decided) read).1
  · intro settled key
    rw [agree]
    exact inv.current key fun txn => settled txn key

end Consequences

end Fasst.OptimisticLocking
