import Fasst.OptimisticLocking

/-!
# Every step keeps a serial order

A call puts its transaction at the end of the order; a transaction that is
decided by its single read goes back to a place at which its read is sealed; all
other steps keep the order.
-/

namespace Fasst.OptimisticSteps

open Fasst.OptimisticLocking

set_option autoImplicit false

universe u v w x

variable {Txn : Type u} {Key : Type v} {Bucket : Type w} {Entry : Type x}
variable {home : Key → Bucket} {init : Key → Entry} {s : Occ Txn Key Bucket Entry}
  {order : List Txn} {txn : Txn}

section Accesses

theorem lock_kept [DecidableEq Txn] [DecidableEq Key] [DecidableEq Bucket]
    (inv : SerialInv home init s order) {key : Key} (running : s.phase txn = .running)
    (free : s.Accessible home txn key) :
    SerialInv home init { s with
      owner := Function.update s.owner (home key) (some txn)
      locked := put s.locked txn key (some (s.store key)) } order := by
  have kept : ∀ target other, s.owner (home target) = some other →
      Function.update s.owner (home key) (some txn) (home target) = some other := by
    intro target other owner
    by_cases here : home target = home key
    · rw [here] at owner ⊢
      rw [Function.update_self]
      rcases free with free | free
      · rw [free] at owner
        cases owner
      · rw [← free, owner]
    · rw [Function.update_of_ne here, owner]
  have doomed : ∀ {other target version}, s.Doomed home other target version →
      version < s.version (home target) ∨ ∃ owner, Function.update s.owner (home key) (some txn)
        (home target) = some owner ∧ owner ≠ other := by
    rintro other target version (older | ⟨owner, owned, different⟩)
    · exact Or.inl older
    · exact Or.inr ⟨owner, kept target owner owned, different⟩
  refine { inv with
    ownsLocked := ?_, ownsPending := ?_, lockedStore := ?_, covered := ?_, reading := ?_
    holding := ?_, lockedSealed := ?_, unchecked := ?_, ownedStore := ?_ }
  · intro other target opened locked
    simp only [put_apply] at locked
    split_ifs at locked with same
    · rw [same.1, same.2]
      exact Function.update_self _ _ _
    · exact kept target other (inv.ownsLocked other target opened locked)
  · exact fun other target waiting => kept target other (inv.ownsPending other target waiting)
  · intro other target entry opened locked
    simp only [put_apply] at locked
    split_ifs at locked with same
    · rw [same.2]
      exact Option.some.inj locked
    · exact inv.lockedStore other target entry opened locked
  · intro other target wrote
    simp only [put_apply]
    split_ifs
    · exact Option.some_ne_none _
    · exact inv.covered other target wrote
  · intro other target entry version phase read
    exact (inv.reading other target entry version phase read).imp doomed id
  · exact fun other target entry opened read => kept target other
      (inv.holding other target entry opened read)
  · intro front other back split phase target entry locked
    simp only [put_apply] at locked
    split_ifs at locked with same
    · rw [same.1, running] at phase
      rcases phase with phase | phase <;> cases phase
    · exact inv.lockedSealed front other back split phase target entry locked
  · intro front other back split phase target entry version read
    exact (inv.unchecked front other back split phase target entry version read).imp doomed id
  · intro front other back split phase target owner
    by_cases here : home target = home key
    · simp only [here, Function.update_self] at owner
      rw [← Option.some.inj owner, running] at phase
      cases phase
    · simp only [Function.update_of_ne here] at owner
      exact inv.ownedStore front other back split phase target owner

theorem bump_kept [DecidableEq Bucket] (inv : SerialInv home init s order) (bucket : Bucket) :
    SerialInv home init
      { s with version := Function.update s.version bucket (s.version bucket + 1) } order := by
  have grows : ∀ target, s.version (home target) ≤
      Function.update s.version bucket (s.version bucket + 1) (home target) := by
    intro target
    by_cases here : home target = bucket
    · rw [here, Function.update_self]
      exact Nat.le_succ _
    · exact Nat.le_of_eq (Function.update_of_ne here _ _).symm
  have doomed : ∀ {other target version}, s.Doomed home other target version →
      version < Function.update s.version bucket (s.version bucket + 1) (home target) ∨
        ∃ owner, s.owner (home target) = some owner ∧ owner ≠ other :=
    fun {_ target _} => Or.imp (fun older => Nat.lt_of_lt_of_le older (grows target)) id
  refine { inv with versions := ?_, reading := ?_, unchecked := ?_ }
  · exact fun other target entry version read =>
      Nat.le_trans (inv.versions other target entry version read) (grows target)
  · intro other target entry version phase read
    exact (inv.reading other target entry version phase read).imp doomed id
  · intro front other back split phase target entry version read
    exact (inv.unchecked front other back split phase target entry version read).imp doomed id

theorem read_kept [DecidableEq Txn] [DecidableEq Key] (inv : SerialInv home init s order) {key : Key} {mark : Mark}
    (running : s.phase txn = .running) (free : s.Accessible home txn key)
    (marked : mark = .exact (s.version (home key)) ∨
      (mark = .held ∧ s.owner (home key) = some txn)) :
    SerialInv home init { s with reads := put s.reads txn key (some (s.store key, mark)) } order := by
  have undecided : s.phase txn ≠ .decided := by
    rw [running]
    exact Phase.noConfusion
  obtain ⟨stored, quiet⟩ := sealed_of_accessible inv undecided free
  refine { inv with
    versions := ?_, reading := ?_, holding := ?_, snapshot := ?_, checkedSealed := ?_
    unchecked := ?_ }
  · intro other target entry version read
    simp only [put_apply] at read
    split_ifs at read with same
    · rw [Option.some.injEq, Prod.mk.injEq] at read
      rcases marked with now | ⟨now, _⟩
      · rw [now] at read
        exact Nat.le_of_eq (by rw [← Mark.exact.inj read.2, same.2])
      · rw [now] at read
        cases read.2
    · exact inv.versions other target entry version read
  · intro other target entry version phase read
    simp only [put_apply] at read
    split_ifs at read with same
    · rw [Option.some.injEq, Prod.mk.injEq] at read
      rw [same.2]
      exact Or.inr read.1
    · exact inv.reading other target entry version phase read
  · intro other target entry opened read
    simp only [put_apply] at read
    split_ifs at read with same
    · rw [Option.some.injEq, Prod.mk.injEq] at read
      rcases marked with now | ⟨_, owner⟩
      · rw [now] at read
        cases read.2
      · rw [same.1, same.2]
        exact owner
    · exact inv.holding other target entry opened read
  · intro other target entry mark phase read
    simp only [put_apply] at read
    split_ifs at read with same
    · rw [Option.some.injEq, Prod.mk.injEq] at read
      refine ⟨order, [], (List.append_nil _).symm, ?_, ?_⟩
      · rw [same.2, ← read.1]
        exact stored
      · intro writer _ called
        rw [same.2]
        refine quiet writer ?_ called
        intro self
        rw [self, running] at called
        cases called
    · exact inv.snapshot other target entry mark phase read
  · intro front other back split target entry mark phase read
    simp only [put_apply] at read
    split_ifs at read with same
    · rw [same.1, running] at phase
      rcases phase with ⟨phase, _⟩ | phase <;> cases phase
    · exact inv.checkedSealed front other back split target entry mark phase read
  · intro front other back split phase target entry version read
    simp only [put_apply] at read
    split_ifs at read with same
    · rw [same.1, running] at phase
      cases phase
    · exact inv.unchecked front other back split phase target entry version read

theorem check_kept [DecidableEq Txn] [DecidableEq Key] (inv : SerialInv home init s order) {key : Key} {entry : Entry} {mark : Mark}
    (called : s.phase txn = .called) (was : s.reads txn key = some (entry, mark))
    (valid : (mark = .exact (s.version (home key)) ∧ s.Accessible home txn key) ∨
      (s.owner (home key) = some txn ∧ s.store key = entry)) :
    SerialInv home init { s with checked := put s.checked txn key True } order := by
  have undecided : s.phase txn ≠ .decided := by
    rw [called]
    exact Phase.noConfusion
  refine { inv with idle := ?_, checkedSealed := ?_ }
  · intro other target phase
    refine ⟨(inv.idle other target phase).1, ?_⟩
    simp only [put_apply]
    rw [if_neg]
    · exact (inv.idle other target phase).2
    · rintro ⟨self, _⟩
      rw [self, called] at phase
      cases phase
  intro front other back split target value sign phase read
  simp only [put_apply] at phase
  split_ifs at phase with same
  · obtain ⟨self, here⟩ := same
    subst self here
    rw [was, Option.some.injEq, Prod.mk.injEq] at read
    obtain ⟨rfl, rfl⟩ := read
    have free : s.Accessible home other target := by
      rcases valid with ⟨_, free⟩ | ⟨owner, _⟩
      · exact free
      · exact Or.inr owner
    obtain ⟨_, quiet⟩ := sealed_of_accessible inv undecided free
    have absent : other ∉ front := by
      have nodup := inv.nodup
      rw [split] at nodup
      exact fun member => (List.nodup_append.mp nodup).2.2 other member other (by simp) rfl
    constructor
    · rcases valid with ⟨now, _⟩ | ⟨owner, stored⟩
      · rw [now] at was
        exact (inv.unchecked front other back split called target entry _ was).resolve_left
          (not_doomed rfl free)
      · exact (inv.ownedStore front other back split called target owner).trans stored
    · intro writer member
      exact quiet writer fun self => absent (self ▸ member)
  · exact inv.checkedSealed front other back split target value sign phase read

end Accesses

section Writes

theorem apply_kept [DecidableEq Txn] [DecidableEq Key] (inv : SerialInv home init s order) {key : Key} {entry : Entry}
    (decided : s.phase txn = .decided) (new : s.news txn key = some entry)
    (pending : ¬ s.applied txn key) :
    SerialInv home init { s with
      store := Function.update s.store key entry
      applied := put s.applied txn key True } order := by
  have waiting : s.Pending txn key := ⟨decided, by rw [new]; exact Option.some_ne_none _, pending⟩
  have owner := inv.ownsPending txn key waiting
  have notOpen : ¬ s.Open txn := by
    rintro (phase | phase) <;> rw [decided] at phase <;> cases phase
  have still : ∀ {other target}, ¬ put s.applied txn key True other target →
      ¬ s.applied other target := by
    intro other target unapplied applied
    rw [put_apply] at unapplied
    split_ifs at unapplied with same
    · exact unapplied trivial
    · exact unapplied applied
  refine { inv with
    ownsPending := ?_, lockedStore := ?_, unapplied := ?_, current := ?_, pending := ?_
    reading := ?_, ownedStore := ?_ }
  · exact fun other target later =>
      inv.ownsPending other target ⟨later.1, later.2.1, still later.2.2⟩
  · intro other target value opened locked
    have before := inv.lockedStore other target value opened locked
    by_cases here : target = key
    · subst here
      have owned := inv.ownsLocked other target opened (by rw [locked]; exact Option.some_ne_none _)
      rw [owner] at owned
      exact absurd (Option.some.inj owned ▸ opened) notOpen
    · exact (Function.update_of_ne here _ _).trans before
  · intro other target opened applied
    simp only [put_apply] at applied
    split_ifs at applied with same
    · exact notOpen (same.1 ▸ opened)
    · exact inv.unapplied other target opened applied
  · intro target settled
    by_cases here : target = key
    · subst here
      have now : Function.update s.store target entry target = entry := Function.update_self _ _ _
      exact (inv.pending txn target entry waiting new).trans now.symm
    · refine (inv.current target fun other later => settled other ⟨later.1, later.2.1, ?_⟩).trans
        (Function.update_of_ne here _ _).symm
      simp only [put_apply, here, and_false, if_false]
      exact later.2.2
  · exact fun other target value later =>
      inv.pending other target value ⟨later.1, later.2.1, still later.2.2⟩
  · intro other target value version phase read
    by_cases here : target = key
    · subst here
      refine Or.inl (Or.inr ⟨txn, owner, ?_⟩)
      intro self
      rw [← self, decided] at phase
      cases phase
    · exact (inv.reading other target value version phase read).imp id
        (Function.update_of_ne here _ _).trans
  · intro front other back split phase target owned
    have before := inv.ownedStore front other back split phase target owned
    by_cases here : target = key
    · subst here
      rw [show s.owner (home target) = some txn from owner] at owned
      rw [← Option.some.inj owned, decided] at phase
      cases phase
    · exact before.trans (Function.update_of_ne here _ _).symm

theorem release_kept [DecidableEq Bucket] (inv : SerialInv home init s order) {bucket : Bucket}
    (owned : s.owner bucket = some txn)
    (ended : s.phase txn = .failed ∨ (s.phase txn = .decided ∧
      ∀ key, home key = bucket → ¬ s.Pending txn key)) :
    SerialInv home init { s with
      owner := Function.update s.owner bucket none
      version := Function.update s.version bucket (s.version bucket + 1) } order := by
  have notOpen : ¬ s.Open txn := by
    rintro (phase | phase) <;> rcases ended with ended | ⟨ended, _⟩ <;> rw [ended] at phase <;>
      cases phase
  have kept : ∀ {target other}, other ≠ txn → s.owner (home target) = some other →
      Function.update s.owner bucket none (home target) = some other := by
    intro target other different owner
    rw [Function.update_of_ne, owner]
    intro here
    rw [here, owned] at owner
    exact different (Option.some.inj owner).symm
  have doomed : ∀ {other target entry version}, s.reads other target = some (entry, .exact version) →
      s.Doomed home other target version →
        version < Function.update s.version bucket (s.version bucket + 1) (home target) ∨
          ∃ owner, Function.update s.owner bucket none (home target) = some owner ∧
            owner ≠ other := by
    intro other target entry version read before
    have bound := inv.versions other target entry version read
    by_cases here : home target = bucket
    · left
      rw [here, Function.update_self, ← here]
      exact Nat.lt_succ_of_le bound
    · rw [Function.update_of_ne here, Function.update_of_ne here]
      exact before
  refine { inv with
    ownsLocked := ?_, ownsPending := ?_, versions := ?_, reading := ?_, holding := ?_
    unchecked := ?_, ownedStore := ?_ }
  · intro other target opened locked
    exact kept (fun self => notOpen (self ▸ opened)) (inv.ownsLocked other target opened locked)
  · intro other target waiting
    have owner := inv.ownsPending other target waiting
    by_cases self : other = txn
    · subst self
      refine (Function.update_of_ne ?_ _ _).trans owner
      intro here
      rcases ended with failed | ⟨_, settled⟩
      · exact absurd (waiting.1.symm.trans failed) Phase.noConfusion
      · exact settled target here waiting
    · exact kept self owner
  · intro other target entry version read
    have bound := inv.versions other target entry version read
    by_cases here : home target = bucket
    · simp only [here, Function.update_self]
      rw [here] at bound
      exact Nat.le_succ_of_le bound
    · simp only [Function.update_of_ne here]
      exact bound
  · intro other target entry version phase read
    exact (inv.reading other target entry version phase read).imp (doomed read) id
  · intro other target entry opened read
    exact kept (fun self => notOpen (self ▸ opened)) (inv.holding other target entry opened read)
  · intro front other back split phase target entry version read
    exact (inv.unchecked front other back split phase target entry version read).imp (doomed read) id
  · intro front other back split phase target owner
    by_cases here : home target = bucket
    · simp only [here, Function.update_self] at owner
      cases owner
    · simp only [Function.update_of_ne here] at owner
      exact inv.ownedStore front other back split phase target owner

end Writes

section Phases

def enter (s : Occ Txn Key Bucket Entry) (phase : Txn → Phase) (news : Txn → Key → Option Entry) :
    Occ Txn Key Bucket Entry :=
  { s with phase := phase, news := news }

/-- Only one transaction has another phase or other writes. -/
structure Enters (txn : Txn) (s next : Occ Txn Key Bucket Entry) : Prop where
  phases : ∀ other, other ≠ txn → next.phase other = s.phase other
  news : ∀ other, other ≠ txn → next.news other = s.news other
  applied : next.applied = s.applied

variable {next : Occ Txn Key Bucket Entry}

theorem written_other (enters : Enters txn s next) {other : Txn} (different : other ≠ txn)
    (key : Key) : next.written other key = s.written other key := by
  unfold Occ.written
  rw [enters.phases other different, enters.news other different]

theorem pending_other (enters : Enters txn s next) {other : Txn} (different : other ≠ txn)
    {key : Key} : next.Pending other key ↔ s.Pending other key := by
  unfold Occ.Pending
  rw [enters.phases other different, enters.news other different, enters.applied]

section Entering

variable (enters : Enters txn s next) {key : Key}

include enters

theorem open_enters (self : next.Open txn → s.Open txn) {other : Txn} (now : next.Open other) :
    s.Open other := by
  by_cases same : other = txn
  · exact same ▸ self (same ▸ now)
  · unfold Occ.Open at now
    rw [enters.phases other same] at now
    exact now

theorem pending_enters (self : next.Pending txn key ↔ s.Pending txn key) {other : Txn} :
    next.Pending other key ↔ s.Pending other key := by
  by_cases same : other = txn
  · rw [same]
    exact self
  · exact pending_other enters same

theorem written_enters (self : next.written txn key = s.written txn key) (other : Txn) :
    next.written other key = s.written other key := by
  by_cases same : other = txn
  · rw [same]
    exact self
  · exact written_other enters same key

theorem replay_enters (self : next.written txn key = s.written txn key) (part : List Txn) :
    replay next.written init part key = replay s.written init part key :=
  replay_congr fun other _ => written_enters enters self other

end Entering

theorem phase_before (enters : Enters txn s next) {other : Txn} {phase : Phase}
    (new : next.phase txn ≠ phase) (now : next.phase other = phase) :
    other ≠ txn ∧ s.phase other = phase := by
  have different : other ≠ txn := fun same => new (same ▸ now)
  exact ⟨different, (enters.phases other different).symm.trans now⟩

theorem written_undecided (undecided : s.phase txn ≠ .decided) (key : Key) :
    s.written txn key = none := by
  unfold Occ.written
  rw [if_neg undecided]

theorem open_undecided (opened : s.Open txn) : s.phase txn ≠ .decided := by
  intro decided
  rcases opened with phase | phase <;> rw [decided] at phase <;> cases phase

/-- A value stays sealed unless the transaction is in the way. -/
theorem sealed_enters (enters : Enters txn s next) {front : List Txn} {key : Key} {entry : Entry}
    (self : txn ∈ front → next.written txn key = s.written txn key ∧ next.phase txn ≠ .called)
    (old : s.Sealed init front key entry) : next.Sealed init front key entry := by
  refine sealed_step old ?_ ?_
  · intro other member
    by_cases same : other = txn
    · subst same
      exact (self member).1
    · exact written_other enters same key
  · intro other member called
    have different : other ≠ txn := fun same => (self (same ▸ member)).2 (same ▸ called)
    rw [enters.phases other different] at called
    exact ⟨called, by rw [enters.news other different]⟩

variable {phase : Txn → Phase} {news : Txn → Key → Option Entry}

theorem fail_inv (inv : SerialInv home init s order) (undecided : s.Open txn)
    (enters : Enters txn s (enter s phase s.news)) (failed : phase txn = .failed) :
    SerialInv home init (enter s phase s.news) order := by
  have phases : ∀ {other now}, now ≠ .failed → phase other = now → s.phase other = now :=
    fun different now => (phase_before enters
      (fun same => different (same.symm.trans failed)) now).2
  have opened : ∀ {other}, (enter s phase s.news).Open other → s.Open other :=
    Or.imp (phases Phase.noConfusion) (phases Phase.noConfusion)
  have reached : ∀ {other}, phase other = .called ∨ phase other = .decided →
      s.phase other = .called ∨ s.phase other = .decided :=
    Or.imp (phases Phase.noConfusion) (phases Phase.noConfusion)
  have written : ∀ key, (enter s phase s.news).written txn key = s.written txn key := by
    intro key
    rw [written_undecided (open_undecided undecided) key, written_undecided]
    exact fun decided => absurd (failed.symm.trans decided) Phase.noConfusion
  have values : ∀ part key, replay (enter s phase s.news).written init part key =
      replay s.written init part key :=
    fun part key => replay_enters enters (written key) part
  have kept : ∀ {front key entry}, s.Sealed init front key entry →
      (enter s phase s.news).Sealed init front key entry :=
    fun {_ key _} old => sealed_enters enters (fun _ => ⟨written key,
      fun called => absurd (failed.symm.trans called) Phase.noConfusion⟩) old
  constructor
  · exact inv.nodup
  · exact fun other now => inv.listed other (reached now)
  · exact fun other member now => inv.started other member (phases Phase.noConfusion now)
  · exact fun other key now => inv.ownsLocked other key (opened now)
  · exact fun other key now => inv.ownsPending other key ⟨phases Phase.noConfusion now.1, now.2⟩
  · exact fun other key entry now => inv.lockedStore other key entry (opened now)
  · exact fun other key now => inv.idle other key (phases Phase.noConfusion now)
  · exact fun other key now => inv.unapplied other key (opened now)
  · exact inv.covered
  · exact inv.versions
  · intro key settled
    rw [values]
    refine inv.current key fun other before => settled other ?_
    refine (pending_other enters ?_).mpr before
    exact fun same => open_undecided undecided (same ▸ before.1)
  · intro other key entry now new
    rw [values]
    exact inv.pending other key entry ⟨phases Phase.noConfusion now.1, now.2⟩ new
  · exact fun other key entry version now =>
      inv.reading other key entry version (phases Phase.noConfusion now)
  · exact fun other key entry now => inv.holding other key entry (opened now)
  · intro other key entry mark now read
    obtain ⟨front, back, split, old⟩ :=
      inv.snapshot other key entry mark (phases Phase.noConfusion now) read
    exact ⟨front, back, split, kept old⟩
  · intro front other back split now key entry locked
    exact kept (inv.lockedSealed front other back split (reached now) key entry locked)
  · intro front other back split key entry mark now read
    refine kept (inv.checkedSealed front other back split key entry mark ?_ read)
    exact now.imp (fun both => ⟨phases Phase.noConfusion both.1, both.2⟩) (phases Phase.noConfusion)
  · intro front other back split now key entry version read
    rw [values]
    exact inv.unchecked front other back split (phases Phase.noConfusion now) key entry version read
  · intro front other back split now key owner
    rw [values]
    exact inv.ownedStore front other back split (phases Phase.noConfusion now) key owner

/-- The value of a key that a transaction writes when it is decided is its own:
those that come later in the order have not touched the key. -/
theorem decided_value (inv : SerialInv home init s order) (called : s.phase txn = .called)
    (enters : Enters txn s (enter s phase s.news)) (decided : phase txn = .decided) {key : Key}
    {entry : Entry} (wrote : s.news txn key = some entry) :
    replay (enter s phase s.news).written init order key = entry := by
  obtain ⟨front, back, split⟩ := List.append_of_mem (inv.listed txn (Or.inl called))
  have nodup := inv.nodup
  rw [split] at nodup
  have absent : txn ∉ back := (List.nodup_cons.mp (List.nodup_append.mp nodup).2.1).1
  have own : (enter s phase s.news).written txn key = some entry :=
    (if_pos decided).trans wrote
  rw [split, replay_append, replay_cons, replay_quiet]
  · rw [own]
    rfl
  · intro later member
    rw [written_other enters fun self => absent (self ▸ member)]
    exact later_quiet inv split called (by rw [wrote]; exact Option.some_ne_none _) later member

/-- The point at which the writes of a transaction become part of the history. -/
theorem decide_inv (inv : SerialInv home init s order) (called : s.phase txn = .called)
    (all : ∀ key, s.reads txn key ≠ none → s.checked txn key)
    (enters : Enters txn s (enter s phase s.news)) (decided : phase txn = .decided) :
    SerialInv home init (enter s phase s.news) order := by
  have owner : ∀ key, s.news txn key ≠ none → s.owner (home key) = some txn :=
    fun key wrote => inv.ownsLocked txn key (Or.inr called) (inv.covered txn key wrote)
  have phases : ∀ {other now}, now ≠ .decided → phase other = now →
      other ≠ txn ∧ s.phase other = now :=
    fun different now => phase_before enters (fun same => different (same.symm.trans decided)) now
  have opened : ∀ {other}, (enter s phase s.news).Open other → s.Open other :=
    Or.imp (fun now => (phases Phase.noConfusion now).2) (fun now => (phases Phase.noConfusion now).2)
  have quiet := written_undecided (open_undecided (Or.inr called))
  have written : ∀ {key}, s.news txn key = none →
      (enter s phase s.news).written txn key = s.written txn key := by
    intro key none_
    rw [quiet key]
    exact (if_pos decided).trans none_
  have values : ∀ {key}, s.news txn key = none → ∀ part,
      replay (enter s phase s.news).written init part key = replay s.written init part key :=
    fun none_ part => replay_enters enters (written none_) part
  have kept : ∀ {front key entry}, s.Sealed init front key entry →
      (enter s phase s.news).Sealed init front key entry := by
    intro front key entry old
    refine sealed_enters enters (fun member => ⟨?_, ?_⟩) old
    · exact written (old.2 txn member called)
    · exact fun still => absurd (decided.symm.trans still) Phase.noConfusion
  constructor
  · exact inv.nodup
  · intro other now
    by_cases self : other = txn
    · rw [self]
      exact inv.listed txn (Or.inl called)
    · rw [enters.phases other self] at now
      exact inv.listed other now
  · exact fun other member now => inv.started other member (phases Phase.noConfusion now).2
  · exact fun other key now => inv.ownsLocked other key (opened now)
  · intro other key now
    by_cases self : other = txn
    · rw [self] at now ⊢
      exact owner key now.2.1
    · exact inv.ownsPending other key ((pending_other enters self).mp now)
  · exact fun other key entry now => inv.lockedStore other key entry (opened now)
  · exact fun other key now => inv.idle other key (phases Phase.noConfusion now).2
  · exact fun other key now => inv.unapplied other key (opened now)
  · exact inv.covered
  · exact inv.versions
  · intro key settled
    have none_ : s.news txn key = none := by
      by_contra wrote
      exact settled txn ⟨decided, wrote, inv.unapplied txn key (Or.inr called)⟩
    rw [values none_]
    refine inv.current key fun other before => ?_
    by_cases self : other = txn
    · rw [self] at before
      exact before.2.1 none_
    · exact settled other ((pending_other enters self).mpr before)
  · intro other key entry now wrote
    by_cases self : other = txn
    · rw [self] at wrote
      exact decided_value inv called enters decided wrote
    · have before := (pending_other enters self).mp now
      have none_ : s.news txn key = none := by
        by_contra mine
        have owned := inv.ownsPending other key before
        rw [owner key mine] at owned
        exact self (Option.some.inj owned).symm
      rw [values none_]
      exact inv.pending other key entry before wrote
  · exact fun other key entry version now =>
      inv.reading other key entry version (phases Phase.noConfusion now).2
  · exact fun other key entry now => inv.holding other key entry (opened now)
  · intro other key entry mark now read
    obtain ⟨front, back, split, old⟩ :=
      inv.snapshot other key entry mark (phases Phase.noConfusion now).2 read
    exact ⟨front, back, split, kept old⟩
  · intro front other back split now key entry locked
    refine kept (inv.lockedSealed front other back split ?_ key entry locked)
    by_cases self : other = txn
    · rw [self]
      exact Or.inl called
    · rw [enters.phases other self] at now
      exact now
  · intro front other back split key entry mark now read
    refine kept (inv.checkedSealed front other back split key entry mark ?_ read)
    by_cases self : other = txn
    · rw [self] at read ⊢
      have some_ : s.reads txn key = some (entry, mark) := read
      exact Or.inl ⟨called, all key (by rw [some_]; exact Option.some_ne_none _)⟩
    · rw [enters.phases other self] at now
      exact now
  · intro front other back split now key entry version read
    obtain ⟨different, before⟩ := phases Phase.noConfusion now
    by_cases none_ : s.news txn key = none
    · rw [values none_]
      exact inv.unchecked front other back split before key entry version read
    · exact Or.inl (Or.inr ⟨txn, owner key none_, different.symm⟩)
  · intro front other back split now key owned
    obtain ⟨different, before⟩ := phases Phase.noConfusion now
    have none_ : s.news txn key = none := by
      by_contra mine
      rw [show (enter s phase s.news).owner (home key) = some txn from owner key mine] at owned
      exact different (Option.some.inj owned).symm
    rw [values none_]
    exact inv.ownedStore front other back split before key owned

end Phases

section Insertions

variable {phase : Txn → Phase} {news : Txn → Key → Option Entry}

theorem running_absent (inv : SerialInv home init s order) (running : s.phase txn = .running) :
    txn ∉ order := fun member => inv.started txn member running

/-- The last operation of a transaction gives it the last place. What it has
locked is sealed there, and what it has read unless the read is doomed. -/
theorem call_inv (inv : SerialInv home init s order) (running : s.phase txn = .running)
    (covered : ∀ key, news txn key ≠ none → s.locked txn key ≠ none)
    (enters : Enters txn s (enter s phase news)) (called : phase txn = .called) :
    SerialInv home init (enter s phase news) (order ++ [txn]) := by
  have absent := running_absent inv running
  have undecided : s.phase txn ≠ .decided := open_undecided (Or.inl running)
  have stillUndecided : (enter s phase news).phase txn ≠ .decided :=
    fun decided => absurd (called.symm.trans decided) Phase.noConfusion
  have phases : ∀ {other now}, now ≠ .called → phase other = now →
      other ≠ txn ∧ s.phase other = now :=
    fun different now => phase_before enters (fun same => different (same.symm.trans called)) now
  have opened : ∀ {other}, (enter s phase news).Open other → s.Open other :=
    open_enters enters fun _ => Or.inl running
  have waiting : ∀ {other key}, (enter s phase news).Pending other key ↔ s.Pending other key :=
    pending_enters enters
      ⟨fun now => absurd now.1 stillUndecided, fun before => absurd before.1 undecided⟩
  have values : ∀ part key, replay (enter s phase news).written init part key =
      replay s.written init part key := by
    intro part key
    apply replay_enters enters
    rw [written_undecided undecided key, written_undecided stillUndecided key]
  have whole : ∀ key, replay (enter s phase news).written init (order ++ [txn]) key =
      replay s.written init order key := by
    intro key
    rw [values, replay_insert (written_undecided undecided key), List.append_nil]
  have kept : ∀ {front key entry}, (∀ other ∈ front, other ∈ order) →
      s.Sealed init front key entry → (enter s phase news).Sealed init front key entry :=
    fun part old => sealed_enters enters (fun member => absurd (part txn member) absent) old
  have sealed_ : ∀ {key}, s.Accessible home txn key →
      (enter s phase news).Sealed init order key (s.store key) := by
    intro key free
    obtain ⟨stored, quiet⟩ := sealed_of_accessible inv undecided free
    refine kept (fun _ member => member) ⟨stored, fun other member => quiet other ?_⟩
    exact fun self => absent (self ▸ member)
  have places : ∀ {front other back}, order ++ [txn] = front ++ other :: back →
      (other = txn ∧ front = order) ∨ (other ≠ txn ∧ (∀ member ∈ front, member ∈ order) ∧
        ∃ rest, order = front ++ other :: rest) :=
    split_last absent
  constructor
  · rw [List.nodup_append]
    refine ⟨inv.nodup, List.nodup_singleton _, fun other member last inside same => absent ?_⟩
    rw [List.mem_singleton] at inside
    rw [← inside, ← same]
    exact member
  · intro other now
    rw [List.mem_append, List.mem_singleton]
    by_cases self : other = txn
    · exact Or.inr self
    · rw [enters.phases other self] at now
      exact Or.inl (inv.listed other now)
  · intro other member now
    obtain ⟨different, before⟩ := phases Phase.noConfusion now
    rw [List.mem_append, List.mem_singleton] at member
    exact inv.started other (member.resolve_right different) before
  · exact fun other key now => inv.ownsLocked other key (opened now)
  · exact fun other key now => inv.ownsPending other key (waiting.mp now)
  · exact fun other key entry now => inv.lockedStore other key entry (opened now)
  · intro other key now
    obtain ⟨different, before⟩ := phases Phase.noConfusion now
    rw [enters.news other different]
    exact inv.idle other key before
  · exact fun other key now => inv.unapplied other key (opened now)
  · intro other key wrote
    by_cases self : other = txn
    · rw [self] at wrote ⊢
      exact covered key wrote
    · rw [enters.news other self] at wrote
      exact inv.covered other key wrote
  · exact inv.versions
  · intro key settled
    rw [whole]
    exact inv.current key fun other before => settled other (waiting.mpr before)
  · intro other key entry now new
    have different : other ≠ txn := fun self => stillUndecided (self ▸ now.1)
    rw [enters.news other different] at new
    rw [whole]
    exact inv.pending other key entry (waiting.mp now) new
  · exact fun other key entry version now =>
      inv.reading other key entry version (phases Phase.noConfusion now).2
  · exact fun other key entry now => inv.holding other key entry (opened now)
  · intro other key entry mark now read
    obtain ⟨front, back, split, old⟩ :=
      inv.snapshot other key entry mark (phases Phase.noConfusion now).2 read
    refine ⟨front, back ++ [txn], by rw [split, List.append_assoc], kept ?_ old⟩
    intro member inside
    rw [split]
    exact List.mem_append_left _ inside
  · intro front other back split now key entry locked
    rcases places split with ⟨self, all⟩ | ⟨different, part, rest, before⟩
    · subst self all
      have some_ : s.locked other key ≠ none := by
        rw [show s.locked other key = some entry from locked]
        exact Option.some_ne_none _
      have owner := inv.ownsLocked other key (Or.inl running) some_
      rw [← inv.lockedStore other key entry (Or.inl running) locked]
      exact sealed_ (Or.inr owner)
    · rw [enters.phases other different] at now
      exact kept part (inv.lockedSealed front other rest before now key entry locked)
  · intro front other back split key entry mark now read
    rcases places split with ⟨self, all⟩ | ⟨different, part, rest, before⟩
    · subst self all
      rcases now with ⟨_, done⟩ | decided
      · exact absurd done (inv.idle other key running).2
      · exact absurd decided stillUndecided
    · rw [enters.phases other different] at now
      exact kept part (inv.checkedSealed front other rest before key entry mark now read)
  · intro front other back split now key entry version read
    rw [values]
    rcases places split with ⟨self, all⟩ | ⟨different, part, rest, before⟩
    · subst self all
      by_cases doomed : s.Doomed home other key version
      · exact Or.inl doomed
      · have stored := (inv.reading other key entry version running read).resolve_left doomed
        rw [← stored]
        refine Or.inr (sealed_of_accessible inv undecided ?_).1
        cases owner : s.owner (home key) with
        | none => exact Or.inl owner
        | some holder =>
            refine Or.inr (owner.trans ?_)
            by_contra foreign
            exact doomed (Or.inr ⟨holder, owner, fun same => foreign (congrArg some same)⟩)
    · rw [enters.phases other different] at now
      exact inv.unchecked front other rest before now key entry version read
  · intro front other back split now key owner
    rw [values]
    rcases places split with ⟨self, all⟩ | ⟨different, part, rest, before⟩
    · subst self all
      exact (sealed_of_accessible inv undecided (Or.inr owner)).1
    · rw [enters.phases other different] at now
      exact inv.ownedStore front other rest before now key owner

theorem sealed_insert {front back : List Txn} {key : Key} {entry : Entry}
    (quiet : s.written txn key = none) (settled : s.phase txn ≠ .called)
    (old : s.Sealed init (front ++ back) key entry) :
    s.Sealed init (front ++ txn :: back) key entry := by
  refine ⟨(replay_insert quiet front back).trans old.1, fun other member called => ?_⟩
  have inside : other ∈ front ++ back := by
    simp only [List.mem_append, List.mem_cons] at member ⊢
    have different : other ≠ txn := fun self => settled (self ▸ called)
    tauto
  exact old.2 other inside called

/-- A transaction that has read one key and locked none goes to a place where
its read is sealed. -/
theorem single_inv {front back : List Txn} (inv : SerialInv home init s (front ++ back))
    (running : s.phase txn = .running) (readOnly : ∀ key, s.locked txn key = none)
    (place : ∀ key entry mark, s.reads txn key = some (entry, mark) → s.Sealed init front key entry)
    (enters : Enters txn s (enter s phase s.news)) (decided : phase txn = .decided) :
    SerialInv home init (enter s phase s.news) (front ++ txn :: back) := by
  have absent := running_absent inv running
  have silent : ∀ key, s.news txn key = none := fun key => (inv.idle txn key running).1
  have settled : (enter s phase s.news).phase txn ≠ .called :=
    fun called => absurd (decided.symm.trans called) Phase.noConfusion
  have phases : ∀ {other now}, now ≠ .decided → phase other = now →
      other ≠ txn ∧ s.phase other = now :=
    fun different now => phase_before enters (fun same => different (same.symm.trans decided)) now
  have opened : ∀ {other}, (enter s phase s.news).Open other → s.Open other :=
    Or.imp (fun now => (phases Phase.noConfusion now).2) (fun now => (phases Phase.noConfusion now).2)
  have waiting : ∀ {other key}, (enter s phase s.news).Pending other key ↔ s.Pending other key :=
    fun {_ key} => pending_enters enters
      ⟨fun now => absurd (silent key) now.2.1, fun before => absurd (silent key) before.2.1⟩
  have quiet : ∀ key, (enter s phase s.news).written txn key = none := by
    intro key
    unfold Occ.written
    split_ifs
    · exact silent key
    · rfl
  have written : ∀ key, (enter s phase s.news).written txn key = s.written txn key := by
    intro key
    rw [quiet, written_undecided (open_undecided (Or.inl running))]
  have values : ∀ part key, replay (enter s phase s.news).written init part key =
      replay s.written init part key :=
    fun part key => replay_enters enters (written key) part
  have whole : ∀ left right key, replay (enter s phase s.news).written init (left ++ txn :: right) key =
      replay s.written init (left ++ right) key := by
    intro left right key
    rw [replay_insert (quiet key), values]
  have kept : ∀ {part key entry}, s.Sealed init part key entry →
      (enter s phase s.news).Sealed init part key entry :=
    fun {_ key _} old => sealed_enters enters (fun _ => ⟨written key, settled⟩) old
  have other_of : ∀ {left other right}, front ++ back = left ++ other :: right → other ≠ txn := by
    intro left other right split self
    apply absent
    rw [split, self]
    simp
  constructor
  · have nodup := inv.nodup
    rw [List.nodup_append] at nodup ⊢
    rw [List.mem_append, not_or] at absent
    refine ⟨nodup.1, List.nodup_cons.mpr ⟨absent.2, nodup.2.1⟩, ?_⟩
    intro left inFront right inBack
    rcases List.mem_cons.mp inBack with self | inside
    · exact fun same => absent.1 (self ▸ same ▸ inFront)
    · exact nodup.2.2 left inFront right inside
  · intro other now
    by_cases self : other = txn
    · rw [self]
      simp
    · rw [enters.phases other self] at now
      have before := inv.listed other now
      simp only [List.mem_append, List.mem_cons] at before ⊢
      tauto
  · intro other member now
    obtain ⟨different, before⟩ := phases Phase.noConfusion now
    refine inv.started other ?_ before
    simp only [List.mem_append, List.mem_cons] at member ⊢
    tauto
  · exact fun other key now => inv.ownsLocked other key (opened now)
  · exact fun other key now => inv.ownsPending other key (waiting.mp now)
  · exact fun other key entry now => inv.lockedStore other key entry (opened now)
  · exact fun other key now => inv.idle other key (phases Phase.noConfusion now).2
  · exact fun other key now => inv.unapplied other key (opened now)
  · exact inv.covered
  · exact inv.versions
  · intro key none_
    rw [whole]
    exact inv.current key fun other before => none_ other (waiting.mpr before)
  · intro other key entry now new
    rw [whole]
    exact inv.pending other key entry (waiting.mp now) new
  · exact fun other key entry version now =>
      inv.reading other key entry version (phases Phase.noConfusion now).2
  · exact fun other key entry now => inv.holding other key entry (opened now)
  · intro other key entry mark now read
    obtain ⟨left, right, split, old⟩ :=
      inv.snapshot other key entry mark (phases Phase.noConfusion now).2 read
    rcases List.append_eq_append_iff.mp split with ⟨middle, shape, tail⟩ | ⟨middle, shape, _⟩
    · refine ⟨front ++ txn :: middle, right, ?_, ?_⟩
      · rw [tail, List.append_assoc]
        rfl
      · rw [shape] at old
        exact sealed_insert (quiet key) settled (kept old)
    · refine ⟨left, middle ++ txn :: back, ?_, kept old⟩
      rw [shape, List.append_assoc]
  · intro left other right split now key entry locked
    rcases split_insert split with ⟨self, _⟩ | ⟨rest, before, _⟩ | ⟨middle, shape, before⟩
    · rw [self, show (enter s phase s.news).locked txn key = none from readOnly key] at locked
      cases locked
    · rw [enters.phases other (other_of before)] at now
      exact kept (inv.lockedSealed left other rest before now key entry locked)
    · rw [enters.phases other (other_of before)] at now
      rw [shape]
      exact sealed_insert (quiet key) settled
        (kept (inv.lockedSealed _ other right before now key entry locked))
  · intro left other right split key entry mark now read
    rcases split_insert split with ⟨self, first⟩ | ⟨rest, before, _⟩ | ⟨middle, shape, before⟩
    · rw [self] at read
      rw [first]
      exact kept (place key entry mark read)
    · rw [enters.phases other (other_of before)] at now
      exact kept (inv.checkedSealed left other rest before key entry mark now read)
    · rw [enters.phases other (other_of before)] at now
      rw [shape]
      exact sealed_insert (quiet key) settled
        (kept (inv.checkedSealed _ other right before key entry mark now read))
  · intro left other right split now key entry version read
    obtain ⟨different, called⟩ := phases Phase.noConfusion now
    rcases split_insert split with ⟨self, _⟩ | ⟨rest, before, _⟩ | ⟨middle, shape, before⟩
    · exact absurd self different
    · rw [values]
      exact inv.unchecked left other rest before called key entry version read
    · rw [shape, whole]
      exact inv.unchecked _ other right before called key entry version read
  · intro left other right split now key owner
    obtain ⟨different, called⟩ := phases Phase.noConfusion now
    rcases split_insert split with ⟨self, _⟩ | ⟨rest, before, _⟩ | ⟨middle, shape, before⟩
    · exact absurd self different
    · rw [values]
      exact inv.ownedStore left other rest before called key owner
    · rw [shape, whole]
      exact inv.ownedStore _ other right before called key owner

end Insertions

section Runs

theorem step_serial [DecidableEq Txn] [DecidableEq Key] [DecidableEq Bucket]
    {next : Occ Txn Key Bucket Entry} (inv : SerialInv home init s order) (step : Step home s next) :
    ∃ order, SerialInv home init next order := by
  have enters : ∀ txn new, Enters txn s (enter s (Function.update s.phase txn new) s.news) :=
    fun _ _ => ⟨fun _ different => Function.update_of_ne different _ _, fun _ _ => rfl, rfl⟩
  cases step with
  | lock txn key running free => exact ⟨order, lock_kept inv running free⟩
  | bump bucket free => exact ⟨order, bump_kept inv bucket⟩
  | read txn key mark running free marked => exact ⟨order, read_kept inv running free marked⟩
  | call txn news running covered =>
      refine ⟨order ++ [txn], call_inv inv running ?_ ?_ (Function.update_self _ _ _)⟩
      · rw [Function.update_self]
        exact covered
      · exact ⟨fun _ different => Function.update_of_ne different _ _,
          fun _ different => Function.update_of_ne different _ _, rfl⟩
  | check txn key entry mark called was valid => exact ⟨order, check_kept inv called was valid⟩
  | decide txn called all =>
      exact ⟨order, decide_inv inv called all (enters txn .decided) (Function.update_self _ _ _)⟩
  | single txn key running readOnly only =>
      have place : ∃ front back, order = front ++ back ∧ ∀ target entry mark,
          s.reads txn target = some (entry, mark) → s.Sealed init front target entry := by
        cases read : s.reads txn key with
        | none =>
            refine ⟨order, [], (List.append_nil _).symm, fun target entry mark found => ?_⟩
            rw [only target (by rw [found]; exact Option.some_ne_none _), read] at found
            cases found
        | some pair =>
            obtain ⟨front, back, split, old⟩ := inv.snapshot txn key pair.1 pair.2 running read
            refine ⟨front, back, split, fun target entry mark found => ?_⟩
            have same := only target (by rw [found]; exact Option.some_ne_none _)
            rw [same, read] at found
            rw [Option.some.inj found] at old
            rw [same]
            exact old
      obtain ⟨front, back, split, sealed_⟩ := place
      rw [split] at inv
      exact ⟨front ++ txn :: back, single_inv inv running readOnly sealed_ (enters txn .decided)
        (Function.update_self _ _ _)⟩
  | fail txn undecided =>
      exact ⟨order, fail_inv inv undecided (enters txn .failed) (Function.update_self _ _ _)⟩
  | apply txn key entry decided new pending => exact ⟨order, apply_kept inv decided new pending⟩
  | release txn bucket owned ended => exact ⟨order, release_kept inv owned ended⟩

structure Fresh (s : Occ Txn Key Bucket Entry) : Prop where
  phase : ∀ txn, s.phase txn = .running ∨ s.phase txn = .failed
  reads : ∀ txn key, s.reads txn key = none
  checked : ∀ txn key, ¬ s.checked txn key
  locked : ∀ txn key, s.locked txn key = none
  news : ∀ txn key, s.news txn key = none
  applied : ∀ txn key, ¬ s.applied txn key

theorem fresh_inv (fresh : Fresh s) : SerialInv home s.store s [] := by
  have early : ∀ {txn}, ¬ (s.phase txn = .called ∨ s.phase txn = .decided) := by
    rintro txn (phase | phase) <;> rcases fresh.phase txn with start | start <;>
      rw [start] at phase <;> cases phase
  have unread : ∀ {txn key pair}, s.reads txn key ≠ some pair := by
    intro txn key pair
    rw [fresh.reads]
    exact (Option.some_ne_none _).symm
  constructor
  · exact List.nodup_nil
  · exact fun txn phase => absurd phase early
  · exact fun _ member => by cases member
  · exact fun txn key _ locked => absurd (fresh.locked txn key) locked
  · exact fun txn key waiting => absurd (fresh.news txn key) waiting.2.1
  · intro txn key entry _ locked
    rw [fresh.locked] at locked
    cases locked
  · exact fun txn key _ => ⟨fresh.news txn key, fresh.checked txn key⟩
  · exact fun txn key _ => fresh.applied txn key
  · exact fun txn key wrote => absurd (fresh.news txn key) wrote
  · exact fun txn key entry version read => absurd read unread
  · exact fun _ _ => rfl
  · exact fun txn key entry waiting => absurd (fresh.news txn key) waiting.2.1
  · exact fun txn key entry version _ read => absurd read unread
  · exact fun txn key entry _ read => absurd read unread
  · exact fun txn key entry mark _ read => absurd read unread
  · exact fun front txn back split => absurd split (by simp)
  · exact fun front txn back split => absurd split (by simp)
  · exact fun front txn back split => absurd split (by simp)
  · exact fun front txn back split => absurd split (by simp)

end Runs

end Fasst.OptimisticSteps
