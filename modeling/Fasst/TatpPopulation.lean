import Fasst.TatpRows
import Mathlib.Data.List.Dedup

/-!
# The rows that TATP is loaded with

The random selections end, and what they select are different values. So the rows
of all tables have different keys, every row is in its place, and every special
facility and every call forwarding row belongs to something that is loaded too.
-/

namespace Fasst.TatpPopulation

open List Fasst.Congruential Fasst.HrdRandom Fasst.FixedTableModel Fasst.TxLocal
open Fasst.TatpSubNbr Fasst.TatpModel Fasst.TatpRows
open Fasst.TatpSecondary (SecSubVal tatpSecSubMagic secondary_rows_some)

set_option autoImplicit false

section Selection

variable {fuel count : Nat} {values picked : List UInt8} {used : UInt8 → Bool} {seed next : UInt64}

theorem unused_value {draw : UInt32} (accepted : unused values used draw = true) :
    ∃ value, values[draw.toNat % values.length]? = some value ∧ used value = false := by
  rw [unused] at accepted
  cases found : values[draw.toNat % values.length]? with
  | none => rw [found] at accepted; cases accepted
  | some value =>
      rw [found] at accepted
      exact ⟨value, rfl, by simpa using accepted⟩

theorem select_loop_spec (selected : selectLoop fuel values count used seed = some (picked, next)) :
    picked.length = count ∧ picked.Nodup ∧
      ∀ value ∈ picked, value ∈ values ∧ used value = false := by
  induction count generalizing used seed picked next with
  | zero =>
      obtain ⟨rfl, _⟩ := Prod.mk.inj (Option.some.inj selected)
      exact ⟨rfl, nodup_nil, fun value member => (by cases member)⟩
  | succ count ih =>
      rw [selectLoop] at selected
      obtain ⟨drawn, accepted, selected⟩ := Option.bind_eq_some_iff.mp selected
      obtain ⟨value, found, selected⟩ := Option.bind_eq_some_iff.mp selected
      obtain ⟨other, sameFound, fresh⟩ := unused_value (draw_until_accepted accepted)
      obtain rfl := Option.some.inj (found.symm.trans sameFound)
      split_ifs at selected with small
      obtain ⟨later, rest, shape⟩ := Option.bind_eq_some_iff.mp selected
      obtain ⟨rfl, _⟩ := Prod.mk.inj (Option.some.inj shape)
      obtain ⟨length, nodup, each⟩ := ih rest
      have unpicked : value ∉ later.1 := by
        intro again
        have marked := (each value again).2
        rw [Function.update_self] at marked
        cases marked
      refine ⟨congrArg (· + 1) length, nodup_cons.mpr ⟨unpicked, nodup⟩, ?_⟩
      intro one member
      rcases mem_cons.mp member with rfl | inside
      · exact ⟨mem_of_getElem? found, fresh⟩
      · have different : one ≠ value := fun same => unpicked (same ▸ inside)
        have fact := each one inside
        rw [Function.update_of_ne different] at fact
        exact fact

/-- As long as a value is left, one is drawn at some time. -/
theorem select_loop_returns (enough : 2 ^ 64 ≤ fuel) (fits : values.length ≤ 2 ^ 32)
    (small : ∀ value ∈ values, value < 32)
    (left : count ≤ values.dedup.countP fun value => !used value) (seed : UInt64) :
    ∃ result, selectLoop fuel values count used seed = some result := by
  induction count generalizing used seed with
  | zero => exact ⟨_, rfl⟩
  | succ count ih =>
      obtain ⟨free, inside, fresh⟩ := countP_pos_iff.mp (Nat.lt_of_lt_of_le (Nat.succ_pos _) left)
      obtain ⟨i, bound, same⟩ := getElem_of_mem (mem_dedup.mp inside)
      have word : (UInt32.ofNat i).toNat = i :=
        UInt32.toNat_ofNat_of_lt' (Nat.lt_of_lt_of_le bound fits)
      have accepted : unused values used (UInt32.ofNat i) = true := by
        rw [unused, word, Nat.mod_eq_of_lt bound, getElem?_eq_getElem bound, same]
        exact fresh
      obtain ⟨drawn, drew⟩ := fastrand_until_ends enough accepted seed
      obtain ⟨value, found, free⟩ := unused_value (draw_until_accepted drew)
      have member := mem_of_getElem? found
      have rest : count ≤ values.dedup.countP fun other =>
          !(Function.update used value true) other := by
        have one : (values.dedup.countP fun other => !used other) =
            (values.dedup.countP fun other => !(Function.update used value true) other) + 1 :=
          Aligned.countP_flip (nodup_dedup values) (mem_dedup.mpr member)
            (fun other _ different => by rw [Function.update_of_ne different])
            (by rw [Function.update_self]; rfl) (by rw [free]; rfl)
        omega
      obtain ⟨later, returned⟩ := ih rest drawn.2
      refine ⟨(value :: later.1, later.2), ?_⟩
      rw [selectLoop, drew]
      simp only [Option.bind_eq_bind, Option.bind_some, found, small value member, if_true, returned]

theorem to_select_bounds {n m : UInt32} (order : n ≤ m) (small : m.toNat ≤ 32) :
    n.toNat ≤ (toSelect seed n m).toNat ∧ toSelect seed n m ≤ m.toNat := by
  have below : n.toNat ≤ m.toNat := UInt32.le_iff_toNat_le.mp order
  have width : (m - n + 1).toNat = m.toNat - n.toNat + 1 := by
    rw [UInt32.toNat_add, UInt32.toNat_sub_of_le _ _ order, show (1 : UInt32).toNat = 1 from rfl,
      Nat.mod_eq_of_lt (by omega)]
  have draw : (hrdFastrand seed).1.toNat % (m.toNat - n.toNat + 1) < m.toNat - n.toNat + 1 :=
    Nat.mod_lt _ (Nat.succ_pos _)
  have sum : (((hrdFastrand seed).1 % (m - n + 1)) + n).toNat =
      (hrdFastrand seed).1.toNat % (m.toNat - n.toNat + 1) + n.toNat := by
    rw [UInt32.toNat_add, UInt32.toNat_mod, width, Nat.mod_eq_of_lt (by omega)]
  -- Below 2^31 the conversion to `int` changes nothing.
  have signed : toSelect seed n m = (((hrdFastrand seed).1 % (m - n + 1)) + n).toNat :=
    BitVec.toInt_eq_toNat_of_lt (show 2 * (((hrdFastrand seed).1 % (m - n + 1)) + n).toNat < 2 ^ 32 by
      omega)
  omega

theorem select_spec {n m : UInt32}
    (selected : selectBetweenNAndMFrom fuel seed values n m = some (picked, next)) :
    m - n + 1 ≠ 0 ∧ picked.length = (toSelect seed n m).toNat ∧ picked.Nodup ∧ picked ⊆ values := by
  rw [selectBetweenNAndMFrom] at selected
  split_ifs at selected with asserted
  obtain ⟨length, nodup, each⟩ := select_loop_spec selected
  exact ⟨asserted.2.2, length, nodup, fun value member => (each value member).1⟩

theorem select_returns {n m : UInt32} (enough : 2 ^ 64 ≤ fuel) (order : m ≥ n)
    (asserted : m.toNat ≥ values.length) (small : ∀ value ∈ values, value < 32)
    (width : m - n + 1 ≠ 0) (possible : toSelect seed n m ≤ values.dedup.length) :
    ∃ result, selectBetweenNAndMFrom fuel seed values n m = some result := by
  have all : (values.dedup.countP fun value => !(fun _ : UInt8 => false) value) =
      values.dedup.length := countP_eq_length.mpr fun _ _ => rfl
  obtain ⟨result, returned⟩ := select_loop_returns enough
    (Nat.le_trans asserted (Nat.le_of_lt m.toNat_lt)) small
    (Nat.le_trans (Int.toNat_le.mpr possible) (Nat.le_of_eq all.symm)) (hrdFastrand seed).2
  refine ⟨result, ?_⟩
  rw [selectBetweenNAndMFrom, if_pos ⟨order, asserted, width⟩]
  exact returned

/-- A selection ends if there are that many different values; otherwise it goes on for
ever or divides by zero, and its assertions do not prevent that. -/
theorem select_ends_iff {n m : UInt32} (enough : 2 ^ 64 ≤ fuel) (order : m ≥ n)
    (asserted : m.toNat ≥ values.length) (small : ∀ value ∈ values, value < 32) (seed : UInt64) :
    (∃ result, selectBetweenNAndMFrom fuel seed values n m = some result) ↔
      m - n + 1 ≠ 0 ∧ toSelect seed n m ≤ values.dedup.length := by
  constructor
  · rintro ⟨⟨picked, next⟩, selected⟩
    obtain ⟨width, length, different, inside⟩ := select_spec selected
    refine ⟨width, Int.toNat_le.mp ?_⟩
    rw [← length]
    exact (subperm_of_subset different fun _ member => mem_dedup.mpr (inside member)).length_le
  · rintro ⟨width, possible⟩
    exact select_returns enough order asserted small width possible

/-- Four types, one value offered twice, and a number that is negative as an `int`. -/
theorem select_ends_iff_four_types :
    (∃ result, selectBetweenNAndMFrom (2 ^ 64) 1 [1, 2, 3, 4] 1 4 = some result) ∧
      (¬ ∃ result, selectBetweenNAndMFrom (2 ^ 64) 1 [9, 9] 2 2 = some result) ∧
      ∃ result, selectBetweenNAndMFrom (2 ^ 64) 1 [9, 9] 2147483648 2147483648 = some result := by
  refine ⟨?_, ?_, ?_⟩
  · exact (select_ends_iff (Nat.le_refl _) (by decide) (by decide) (by simp) 1).mpr
      (by decide +kernel)
  · intro returned
    have possible := (select_ends_iff (Nat.le_refl _) (by decide) (by decide) (by simp) 1).mp returned
    exact absurd possible (by decide +kernel)
  · exact (select_ends_iff (Nat.le_refl _) (by decide) (by decide) (by simp) 1).mpr
      (by decide +kernel)

end Selection

section Tables

def rowLoc (row : Row) : Loc := (row.reqtype, row.key)

/-- The subscribers below the size, with the types that have been drawn. -/
def directoryOf (subscriberSize : UInt32) (rows : List Row) : Directory where
  listed sId := sId.toNat < subscriberSize.toNat
  accesses sId aiType :=
    sId.toNat < subscriberSize.toNat ∧ accinfLoc sId aiType ∈ rows.map rowLoc
  facilities sId sfType :=
    sId.toNat < subscriberSize.toNat ∧ specfacLoc sId sfType ∈ rows.map rowLoc
  accessOf _ _ known := known.1
  facilityOf _ _ known := known.1

variable {fuel : Nat} {sIds : List UInt32} {seed : UInt64} {rows : List Row}

theorem subscriber_rows (loaded : populateSubscriberTable sIds seed = some rows) :
    rows.map rowLoc = sIds.map subLoc ∧ ∀ row ∈ rows, ∃ sId ∈ sIds, ∃ val : SubVal,
      rowLoc row = subLoc sId ∧ row.val = .sub val ∧ val.mscLocation = tatpSubMscLocationMagic := by
  induction sIds generalizing seed rows with
  | nil =>
      obtain rfl := Option.some.inj loaded
      exact ⟨rfl, fun row member => (by cases member)⟩
  | cons sId rest ih =>
      rw [populateSubscriberTable] at loaded
      obtain ⟨⟨val, next⟩, drawn, loaded⟩ := Option.bind_eq_some_iff.mp loaded
      obtain ⟨later, others, shape⟩ := Option.bind_eq_some_iff.mp loaded
      obtain rfl := Option.some.inj shape
      obtain ⟨locs, each⟩ := ih others
      have magic : val.mscLocation = tatpSubMscLocationMagic := by
        rw [drawSubVal, simple_is_bcd] at drawn
        rw [← (Prod.mk.inj (Option.some.inj drawn)).1]
      refine ⟨congrArg (subLoc sId :: ·) locs, ?_⟩
      intro row member
      rcases mem_cons.mp member with rfl | inside
      · exact ⟨sId, mem_cons_self, val, rfl, rfl, magic⟩
      · obtain ⟨other, listed, facts⟩ := each row inside
        exact ⟨other, mem_cons_of_mem _ listed, facts⟩

theorem secondary_rows (loaded : populateSecondarySubscriberTable sIds = some rows) :
    rows = sIds.map fun sId =>
      ⟨rpcSecSubscriberReq, UInt64.ofNat (bcd sId.toNat), .secSub ⟨sId, tatpSecSubMagic⟩⟩ := by
  rw [populateSecondarySubscriberTable, secondary_rows_some] at loaded
  simp only [Option.bind_eq_bind, Option.bind_some, map_map] at loaded
  exact (Option.some.inj loaded).symm

/-- The rows of a table with one row for each of some types. -/
structure Accesses (picks : List (UInt32 × UInt8)) (rows : List Row) : Prop where
  locs : rows.map rowLoc = picks.map fun pick => accinfLoc pick.1 pick.2
  values : ∀ row ∈ rows, row.val = .accinf ⟨tatpAccinfData1Magic⟩

/-- The rows of special facilities and of their call forwarding. -/
structure Facilities (picks : List (UInt32 × UInt8)) (rows : List Row) : Prop where
  locs : rows.map rowLoc <+ picks.flatMap fun pick =>
    specfacLoc pick.1 pick.2 :: [0, 8, 16].map (callfwdLoc pick.1 pick.2)
  loaded : ∀ pick ∈ picks, specfacLoc pick.1 pick.2 ∈ rows.map rowLoc
  values : ∀ row ∈ rows, ∃ pick ∈ picks,
    (∃ val : SpecfacVal, rowLoc row = specfacLoc pick.1 pick.2 ∧ row.val = .specfac val ∧
      val.dataB0 = tatpSpecfacDataB0Magic) ∨
    ∃ startTime ∈ [0, 8, 16], ∃ val : CallfwdVal,
      rowLoc row = callfwdLoc pick.1 pick.2 startTime ∧ row.val = .callfwd val ∧
        val.numberx0 = tatpCallfwdNumberx0Magic

/-- From one to four different types. -/
structure Drawn (types : List UInt8) : Prop where
  nodup : types.Nodup
  inside : types ⊆ [1, 2, 3, 4]
  some_ : 1 ≤ types.length
  few : types.length ≤ 4

theorem drawn_of_select {types : List UInt8} {next : UInt64}
    (selected : selectBetweenNAndMFrom fuel seed [1, 2, 3, 4] 1 4 = some (types, next)) :
    Drawn types := by
  obtain ⟨_, length, nodup, inside⟩ := select_spec selected
  obtain ⟨least, most⟩ := to_select_bounds (n := 1) (m := 4) (by decide) (by decide)
  exact ⟨nodup, inside, by rw [length]; exact least, by rw [length]; exact Int.toNat_le.mpr most⟩

/-- Such types for each of the subscribers. -/
structure Picked (sIds : List UInt32) (picks : List (UInt32 × UInt8)) : Prop where
  nodup : picks.Nodup
  owned : ∀ pick ∈ picks, pick.1 ∈ sIds
  types : ∀ sId ∈ sIds, ∃ types, Drawn types ∧ ∀ type, (sId, type) ∈ picks ↔ type ∈ types

theorem picked_nil : Picked [] [] :=
  ⟨nodup_nil, fun pick member => (by cases member), fun sId member => (by cases member)⟩

theorem picked_cons {sId : UInt32} {rest : List UInt32} {types : List UInt8}
    {picks : List (UInt32 × UInt8)} (fresh : sId ∉ rest) (drawn : Drawn types)
    (picked : Picked rest picks) : Picked (sId :: rest) (types.map (sId, ·) ++ picks) := by
  refine ⟨Nodup.append (drawn.nodup.map fun _ _ same => (Prod.mk.inj same).2) picked.nodup ?_, ?_,
    ?_⟩
  · intro pick mine others
    obtain ⟨type, _, rfl⟩ := mem_map.mp mine
    exact fresh (picked.owned _ others)
  · intro pick member
    rcases mem_append.mp member with mine | others
    · obtain ⟨type, _, rfl⟩ := mem_map.mp mine
      exact mem_cons_self
    · exact mem_cons_of_mem _ (picked.owned pick others)
  · intro other member
    by_cases same : other = sId
    · obtain rfl := same
      refine ⟨types, drawn, fun type => ?_⟩
      have elsewhere : (other, type) ∉ picks := fun again => fresh (picked.owned _ again)
      simp [elsewhere]
    · obtain ⟨others, theirs, exactly⟩ := picked.types other ((mem_cons.mp member).resolve_left same)
      refine ⟨others, theirs, fun type => ?_⟩
      rw [← exactly type, mem_append, or_iff_right]
      intro mine
      obtain ⟨_, _, pair⟩ := mem_map.mp mine
      exact same (Prod.mk.inj pair).1.symm

theorem access_rows (nodup : sIds.Nodup) (loaded : populateAccessInfoTable fuel sIds seed = some rows) :
    ∃ picks, Picked sIds picks ∧ Accesses picks rows := by
  induction sIds generalizing seed rows with
  | nil =>
      obtain rfl := Option.some.inj loaded
      exact ⟨[], picked_nil, rfl, fun row member => (by cases member)⟩
  | cons sId rest ih =>
      obtain ⟨fresh, tail⟩ := nodup_cons.mp nodup
      rw [populateAccessInfoTable] at loaded
      obtain ⟨⟨types, next⟩, selected, loaded⟩ := Option.bind_eq_some_iff.mp loaded
      obtain ⟨later, others, shape⟩ := Option.bind_eq_some_iff.mp loaded
      obtain rfl := Option.some.inj shape
      obtain ⟨picks, picked, accesses⟩ := ih tail others
      refine ⟨types.map (sId, ·) ++ picks, picked_cons fresh (drawn_of_select selected) picked, ?_, ?_⟩
      · rw [map_append, map_append, accesses.locs, map_map, map_map]
        rfl
      · intro row member
        rcases mem_append.mp member with mine | other
        · obtain ⟨type, _, rfl⟩ := mem_map.mp mine
          rfl
        · exact accesses.values row other

theorem facilities_append {left right : List (UInt32 × UInt8)} {first second : List Row}
    (one : Facilities left first) (two : Facilities right second) :
    Facilities (left ++ right) (first ++ second) := by
  constructor
  · rw [map_append, flatMap_append]
    exact one.locs.append two.locs
  · intro pick member
    rw [map_append, mem_append]
    rcases mem_append.mp member with inLeft | inRight
    · exact Or.inl (one.loaded pick inLeft)
    · exact Or.inr (two.loaded pick inRight)
  · intro row member
    rcases mem_append.mp member with inFirst | inSecond
    · obtain ⟨pick, inside, facts⟩ := one.values row inFirst
      exact ⟨pick, mem_append_left _ inside, facts⟩
    · obtain ⟨pick, inside, facts⟩ := two.values row inSecond
      exact ⟨pick, mem_append_right _ inside, facts⟩

theorem callfwd_rows (sId : UInt32) (sfType : UInt8) (times : List UInt8) (seed : UInt64) :
    (callfwdRows sId sfType times seed).1.map rowLoc <+ times.map (callfwdLoc sId sfType) ∧
      ∀ row ∈ (callfwdRows sId sfType times seed).1, ∃ startTime ∈ times, ∃ val : CallfwdVal,
        rowLoc row = callfwdLoc sId sfType startTime ∧ row.val = .callfwd val ∧
          val.numberx0 = tatpCallfwdNumberx0Magic := by
  induction times generalizing seed with
  | nil => exact ⟨.slnil, fun row member => (by cases member)⟩
  | cons startTime rest ih =>
      simp only [callfwdRows]
      split_ifs with skipped
      · obtain ⟨locs, each⟩ := ih (hrdFastrand seed).2
        refine ⟨locs.cons _, fun row member => ?_⟩
        obtain ⟨time, inside, facts⟩ := each row member
        exact ⟨time, mem_cons_of_mem _ inside, facts⟩
      · obtain ⟨locs, each⟩ := ih (hrdFastrand (hrdFastrand seed).2).2
        refine ⟨locs.cons_cons _, fun row member => ?_⟩
        rcases mem_cons.mp member with rfl | other
        · exact ⟨startTime, mem_cons_self, _, rfl, rfl, rfl⟩
        · obtain ⟨time, inside, facts⟩ := each row other
          exact ⟨time, mem_cons_of_mem _ inside, facts⟩

theorem facility_one (sId : UInt32) (sfType isActive : UInt8) (seed : UInt64) :
    Facilities [(sId, sfType)] (⟨rpcSpecialFacilityReq, typedKey sId sfType,
      .specfac ⟨isActive, none, tatpSpecfacDataB0Magic⟩⟩ ::
        (callfwdRows sId sfType [0, 8, 16] seed).1) := by
  obtain ⟨locs, each⟩ := callfwd_rows sId sfType [0, 8, 16] seed
  refine ⟨?_, ?_, ?_⟩
  · rw [flatMap_singleton, map_cons]
    exact locs.cons_cons _
  · intro pick member
    obtain rfl := mem_singleton.mp member
    rw [map_cons]
    exact mem_cons_self
  · intro row member
    refine ⟨(sId, sfType), mem_singleton_self _, ?_⟩
    rcases mem_cons.mp member with rfl | forwards
    · exact Or.inl ⟨_, rfl, rfl, rfl⟩
    · exact Or.inr (each row forwards)

theorem specfac_rows (sId : UInt32) (types : List UInt8) (seed : UInt64) :
    Facilities (types.map (sId, ·)) (specfacRows sId types seed).1 := by
  induction types generalizing seed with
  | nil => exact ⟨.slnil, fun pick member => (by cases member), fun row member => (by cases member)⟩
  | cons sfType rest ih => exact facilities_append (facility_one sId sfType _ _) (ih _)

theorem facility_rows (nodup : sIds.Nodup)
    (loaded : populateSpecfacAndCallfwdTable fuel sIds seed = some rows) :
    ∃ picks, Picked sIds picks ∧ Facilities picks rows := by
  induction sIds generalizing seed rows with
  | nil =>
      obtain rfl := Option.some.inj loaded
      exact ⟨[], picked_nil, .slnil, fun pick member => (by cases member),
        fun row member => (by cases member)⟩
  | cons sId rest ih =>
      obtain ⟨fresh, tail⟩ := nodup_cons.mp nodup
      rw [populateSpecfacAndCallfwdTable] at loaded
      obtain ⟨⟨types, next⟩, selected, loaded⟩ := Option.bind_eq_some_iff.mp loaded
      obtain ⟨later, others, shape⟩ := Option.bind_eq_some_iff.mp loaded
      obtain rfl := Option.some.inj shape
      obtain ⟨picks, picked, facilities⟩ := ih tail others
      exact ⟨types.map (sId, ·) ++ picks, picked_cons fresh (drawn_of_select selected) picked,
        facilities_append (specfac_rows sId types next) facilities⟩

end Tables

section All

variable {fuel : Nat} {subscriberSize : UInt32} {rows : List Row}

theorem mem_subscribers {sId : UInt32} :
    sId ∈ subscribers subscriberSize ↔ sId.toNat < subscriberSize.toNat := by
  simp only [subscribers, mem_map, mem_range]
  constructor
  · rintro ⟨index, bound, rfl⟩
    rwa [UInt32.toNat_ofNat_of_lt' (Nat.lt_trans bound subscriberSize.toNat_lt)]
  · intro bound
    exact ⟨sId.toNat, bound, UInt32.ofNat_toNat⟩

theorem subscribers_nodup : (subscribers subscriberSize).Nodup := by
  refine Nodup.map_on ?_ nodup_range
  intro left leftBound right rightBound same
  have words := congrArg UInt32.toNat same
  have wide := subscriberSize.toNat_lt
  rwa [UInt32.toNat_ofNat_of_lt' (Nat.lt_trans (mem_range.mp leftBound) wide),
    UInt32.toNat_ofNat_of_lt' (Nat.lt_trans (mem_range.mp rightBound) wide)] at words

structure Parts (subscriberSize : UInt32) (rows : List Row) where
  subs : List Row
  secSubs : List Row
  accinfs : List Row
  specfacs : List Row
  shape : rows = subs ++ secSubs ++ accinfs ++ specfacs
  subLocs : subs.map rowLoc = (subscribers subscriberSize).map subLoc
  subVals : ∀ row ∈ subs, ∃ sId ∈ subscribers subscriberSize, ∃ val : SubVal,
    rowLoc row = subLoc sId ∧ row.val = .sub val ∧ val.mscLocation = tatpSubMscLocationMagic
  secSubRows : secSubs = (subscribers subscriberSize).map fun sId =>
    ⟨rpcSecSubscriberReq, UInt64.ofNat (bcd sId.toNat), .secSub ⟨sId, tatpSecSubMagic⟩⟩
  aiPicks : List (UInt32 × UInt8)
  aiPicked : Picked (subscribers subscriberSize) aiPicks
  accesses : Accesses aiPicks accinfs
  sfPicks : List (UInt32 × UInt8)
  sfPicked : Picked (subscribers subscriberSize) sfPicks
  facilities : Facilities sfPicks specfacs

theorem all_rows_parts (loaded : allRows fuel subscriberSize = some rows) :
    Nonempty (Parts subscriberSize rows) := by
  rw [allRows] at loaded
  obtain ⟨subs, loadedSubs, loaded⟩ := Option.bind_eq_some_iff.mp loaded
  obtain ⟨secSubs, loadedSecSubs, loaded⟩ := Option.bind_eq_some_iff.mp loaded
  obtain ⟨accinfs, loadedAccinfs, loaded⟩ := Option.bind_eq_some_iff.mp loaded
  obtain ⟨specfacs, loadedSpecfacs, shape⟩ := Option.bind_eq_some_iff.mp loaded
  obtain ⟨subLocs, subVals⟩ := subscriber_rows loadedSubs
  obtain ⟨aiPicks, aiPicked, accesses⟩ := access_rows subscribers_nodup loadedAccinfs
  obtain ⟨sfPicks, sfPicked, facilities⟩ := facility_rows subscribers_nodup loadedSpecfacs
  exact ⟨⟨subs, secSubs, accinfs, specfacs, (Option.some.inj shape).symm, subLocs, subVals,
    secondary_rows loadedSecSubs, aiPicks, aiPicked, accesses, sfPicks, sfPicked, facilities⟩⟩

theorem sec_sub_locs (parts : Parts subscriberSize rows) :
    parts.secSubs.map rowLoc = (subscribers subscriberSize).map secSubLoc := by
  rw [parts.secSubRows, map_map]
  rfl

theorem row_locs (parts : Parts subscriberSize rows) :
    rows.map rowLoc = (subscribers subscriberSize).map subLoc ++
      (subscribers subscriberSize).map secSubLoc ++
      (parts.aiPicks.map fun pick => accinfLoc pick.1 pick.2) ++ parts.specfacs.map rowLoc := by
  rw [← parts.subLocs, ← sec_sub_locs parts, ← parts.accesses.locs, ← map_append, ← map_append,
    ← map_append, ← parts.shape]

theorem facility_locs_nodup {picks : List (UInt32 × UInt8)} (nodup : picks.Nodup) :
    (picks.flatMap fun pick =>
      specfacLoc pick.1 pick.2 :: [0, 8, 16].map (callfwdLoc pick.1 pick.2)).Nodup := by
  refine nodup_flatMap.mpr ⟨?_, ?_⟩
  · intro pick _
    refine nodup_cons.mpr ⟨?_, Nodup.map (fun _ _ same =>
      (callfwd_key_inj (Prod.mk.inj same).2).2.2) (by decide)⟩
    intro member
    obtain ⟨time, _, same⟩ := mem_map.mp member
    cases (Prod.mk.inj same).1
  · refine nodup.imp ?_
    intro left right different loc inLeft inRight
    apply different
    rcases mem_cons.mp inLeft with rfl | inLeft
    · rcases mem_cons.mp inRight with same | inRight
      · obtain ⟨sId, type⟩ := typed_key_inj (Prod.mk.inj same).2
        exact Prod.ext sId type
      · obtain ⟨time, _, same⟩ := mem_map.mp inRight
        cases (Prod.mk.inj same).1
    · obtain ⟨time, _, rfl⟩ := mem_map.mp inLeft
      rcases mem_cons.mp inRight with same | inRight
      · cases (Prod.mk.inj same).1
      · obtain ⟨other, _, same⟩ := mem_map.mp inRight
        obtain ⟨sId, type, _⟩ := callfwd_key_inj (Prod.mk.inj same).2
        exact Prod.ext sId.symm type.symm

theorem facility_reqtype (parts : Parts subscriberSize rows) {loc : Loc}
    (member : loc ∈ parts.specfacs.map rowLoc) :
    loc.1 = rpcSpecialFacilityReq ∨ loc.1 = rpcCallForwardingReq := by
  obtain ⟨row, inside, rfl⟩ := mem_map.mp member
  obtain ⟨pick, _, ⟨_, place, _⟩ | ⟨_, _, _, place, _⟩⟩ := parts.facilities.values row inside
  · exact Or.inl (congrArg Prod.fst place)
  · exact Or.inr (congrArg Prod.fst place)

/-- No key of a table is loaded twice. -/
theorem rows_nodup (parts : Parts subscriberSize rows) : (rows.map rowLoc).Nodup := by
  rw [row_locs parts]
  refine Nodup.append (Nodup.append (Nodup.append ?_ ?_ ?_) ?_ ?_) ?_ ?_
  · exact subscribers_nodup.map fun _ _ same => sub_key_inj (Prod.mk.inj same).2
  · exact subscribers_nodup.map fun _ _ same => bcd_key_injective (Prod.mk.inj same).2
  · intro loc first second
    obtain ⟨_, _, rfl⟩ := mem_map.mp first
    obtain ⟨_, _, same⟩ := mem_map.mp second
    cases (Prod.mk.inj same).1
  · refine parts.aiPicked.nodup.map ?_
    intro left right same
    obtain ⟨sId, type⟩ := typed_key_inj (Prod.mk.inj same).2
    exact Prod.ext sId type
  · intro loc first second
    obtain ⟨_, _, rfl⟩ := mem_map.mp second
    rcases mem_append.mp first with member | member
    · obtain ⟨_, _, same⟩ := mem_map.mp member
      cases (Prod.mk.inj same).1
    · obtain ⟨_, _, same⟩ := mem_map.mp member
      cases (Prod.mk.inj same).1
  · exact (facility_locs_nodup parts.sfPicked.nodup).sublist parts.facilities.locs
  · intro loc first second
    have reqtype := facility_reqtype parts second
    rcases mem_append.mp first with member | member
    · rcases mem_append.mp member with member | member
      · obtain ⟨_, _, rfl⟩ := mem_map.mp member
        rcases reqtype with other | other <;> cases other
      · obtain ⟨_, _, rfl⟩ := mem_map.mp member
        rcases reqtype with other | other <;> cases other
    · obtain ⟨_, _, rfl⟩ := mem_map.mp member
      rcases reqtype with other | other <;> cases other

/-- Every row is where it belongs, in the directory of all of them. -/
theorem rows_ok (parts : Parts subscriberSize rows) :
    ∀ row ∈ rows, RowOk (directoryOf subscriberSize rows) (rowLoc row) row.val := by
  have places := row_locs parts
  intro row member
  rw [parts.shape] at member
  rcases mem_append.mp member with member | member
  · rcases mem_append.mp member with member | member
    · rcases mem_append.mp member with member | member
      · obtain ⟨sId, listed, val, place, shape, magic⟩ := parts.subVals row member
        exact .sub sId val place shape (mem_subscribers.mp listed) magic
      · rw [parts.secSubRows] at member
        obtain ⟨sId, listed, rfl⟩ := mem_map.mp member
        exact .secSub sId rfl rfl (mem_subscribers.mp listed)
    · have inside := mem_map_of_mem (f := rowLoc) member
      rw [parts.accesses.locs] at inside
      obtain ⟨pick, picked, place⟩ := mem_map.mp inside
      refine .accinf pick.1 pick.2 _ place.symm (parts.accesses.values row member)
        ⟨mem_subscribers.mp (parts.aiPicked.owned pick picked), ?_⟩ rfl
      rw [places]
      exact mem_append_left _ (mem_append_right _ (mem_map_of_mem picked))
  · obtain ⟨pick, picked, facts⟩ := parts.facilities.values row member
    have facility : (directoryOf subscriberSize rows).facilities pick.1 pick.2 := by
      refine ⟨mem_subscribers.mp (parts.sfPicked.owned pick picked), ?_⟩
      rw [places]
      exact mem_append_right _ (parts.facilities.loaded pick picked)
    rcases facts with ⟨val, place, shape, magic⟩ | ⟨startTime, times, val, place, shape, magic⟩
    · exact .specfac pick.1 pick.2 val place shape facility magic
    · exact .callfwd pick.1 pick.2 startTime val place shape facility times magic

theorem rows_present (parts : Parts subscriberSize rows) {loc : Loc}
    (present : Present (directoryOf subscriberSize rows) loc) : loc ∈ rows.map rowLoc := by
  cases present with
  | sub sId place known =>
      rw [row_locs parts, place]
      exact mem_append_left _ (mem_append_left _ (mem_append_left _
        (mem_map_of_mem (mem_subscribers.mpr known))))
  | secSub sId place known =>
      rw [row_locs parts, place]
      exact mem_append_left _ (mem_append_left _ (mem_append_right _
        (mem_map_of_mem (mem_subscribers.mpr known))))
  | accinf sId aiType place known =>
      rw [place]
      exact known.2
  | specfac sId sfType place known =>
      rw [place]
      exact known.2

theorem access_types (parts : Parts subscriberSize rows) (sId : UInt32) (aiType : UInt8) :
    accinfLoc sId aiType ∈ rows.map rowLoc ↔ (sId, aiType) ∈ parts.aiPicks := by
  rw [row_locs parts]
  constructor
  · intro member
    rcases mem_append.mp member with member | member
    · rcases mem_append.mp member with member | member
      · rcases mem_append.mp member with member | member
        · obtain ⟨_, _, same⟩ := mem_map.mp member
          cases (Prod.mk.inj same).1
        · obtain ⟨_, _, same⟩ := mem_map.mp member
          cases (Prod.mk.inj same).1
      · obtain ⟨pick, picked, same⟩ := mem_map.mp member
        obtain ⟨left, right⟩ := typed_key_inj (Prod.mk.inj same).2
        rw [← left, ← right]
        exact picked
    · rcases facility_reqtype parts member with other | other <;> cases other
  · intro picked
    exact mem_append_left _ (mem_append_right _
      (mem_map_of_mem (f := fun pick => accinfLoc pick.1 pick.2) picked))

theorem facility_types (parts : Parts subscriberSize rows) (sId : UInt32) (sfType : UInt8) :
    specfacLoc sId sfType ∈ rows.map rowLoc ↔ (sId, sfType) ∈ parts.sfPicks := by
  rw [row_locs parts]
  constructor
  · intro member
    rcases mem_append.mp member with member | member
    · rcases mem_append.mp member with member | member
      · rcases mem_append.mp member with member | member
        · obtain ⟨_, _, same⟩ := mem_map.mp member
          cases (Prod.mk.inj same).1
        · obtain ⟨_, _, same⟩ := mem_map.mp member
          cases (Prod.mk.inj same).1
      · obtain ⟨_, _, same⟩ := mem_map.mp member
        cases (Prod.mk.inj same).1
    · obtain ⟨row, inside, place⟩ := mem_map.mp member
      obtain ⟨pick, picked, ⟨_, same, _⟩ | ⟨_, _, _, same, _⟩⟩ := parts.facilities.values row inside
      · obtain ⟨left, right⟩ := typed_key_inj (Prod.mk.inj (place.symm.trans same)).2
        rw [left, right]
        exact picked
      · cases (Prod.mk.inj (place.symm.trans same)).1
  · intro picked
    exact mem_append_right _ (parts.facilities.loaded _ picked)

theorem types_return (enough : 2 ^ 64 ≤ fuel) (seed : UInt64) :
    ∃ result, selectBetweenNAndMFrom fuel seed [1, 2, 3, 4] 1 4 = some result :=
  select_returns enough (by decide) (by decide) (by simp) (by decide)
    (to_select_bounds (by decide) (by decide)).2

theorem subscriber_table_returns (sIds : List UInt32) (seed : UInt64) :
    ∃ rows, populateSubscriberTable sIds seed = some rows := by
  induction sIds generalizing seed with
  | nil => exact ⟨_, rfl⟩
  | cons sId rest ih =>
      obtain ⟨⟨val, next⟩, drawn⟩ : ∃ result, drawSubVal sId seed = some result := by
        rw [drawSubVal, simple_is_bcd]
        exact ⟨_, rfl⟩
      obtain ⟨later, returned⟩ := ih next
      rw [populateSubscriberTable, drawn]
      simp only [Option.bind_eq_bind, Option.bind_some, returned]
      exact ⟨_, rfl⟩

theorem access_table_returns (enough : 2 ^ 64 ≤ fuel) (sIds : List UInt32) (seed : UInt64) :
    ∃ rows, populateAccessInfoTable fuel sIds seed = some rows := by
  induction sIds generalizing seed with
  | nil => exact ⟨_, rfl⟩
  | cons sId rest ih =>
      obtain ⟨⟨types, next⟩, selected⟩ := types_return enough seed
      obtain ⟨later, returned⟩ := ih next
      rw [populateAccessInfoTable, selected]
      simp only [Option.bind_eq_bind, Option.bind_some, returned]
      exact ⟨_, rfl⟩

theorem facility_table_returns (enough : 2 ^ 64 ≤ fuel) (sIds : List UInt32) (seed : UInt64) :
    ∃ rows, populateSpecfacAndCallfwdTable fuel sIds seed = some rows := by
  induction sIds generalizing seed with
  | nil => exact ⟨_, rfl⟩
  | cons sId rest ih =>
      obtain ⟨⟨types, next⟩, selected⟩ := types_return enough seed
      obtain ⟨later, returned⟩ := ih (specfacRows sId types next).2
      rw [populateSpecfacAndCallfwdTable, selected]
      simp only [Option.bind_eq_bind, Option.bind_some, returned]
      exact ⟨_, rfl⟩

theorem secondary_table_returns (sIds : List UInt32) :
    ∃ rows, populateSecondarySubscriberTable sIds = some rows := by
  rw [populateSecondarySubscriberTable, secondary_rows_some]
  exact ⟨_, rfl⟩

/-- The population ends with no assertion failed. Its rows have different keys, every
row is where it belongs in the directory of all of them, and every subscriber has its
two rows, from one to four access rows and from one to four facilities. -/
theorem all_rows_return (enough : 2 ^ 64 ≤ fuel) (subscriberSize : UInt32) :
    ∃ rows, allRows fuel subscriberSize = some rows ∧ (rows.map rowLoc).Nodup ∧
      (∀ row ∈ rows, RowOk (directoryOf subscriberSize rows) (rowLoc row) row.val) ∧
      (∀ loc, Present (directoryOf subscriberSize rows) loc → loc ∈ rows.map rowLoc) ∧
      ∀ sId : UInt32, sId.toNat < subscriberSize.toNat →
        (∃ types, Drawn types ∧ ∀ aiType, accinfLoc sId aiType ∈ rows.map rowLoc ↔ aiType ∈ types) ∧
        ∃ types, Drawn types ∧ ∀ sfType, specfacLoc sId sfType ∈ rows.map rowLoc ↔ sfType ∈ types := by
  obtain ⟨subs, loadedSubs⟩ := subscriber_table_returns (subscribers subscriberSize) 0xdeadbeef
  obtain ⟨secSubs, loadedSecSubs⟩ := secondary_table_returns (subscribers subscriberSize)
  obtain ⟨accinfs, loadedAccinfs⟩ :=
    access_table_returns enough (subscribers subscriberSize) 0xdeadbeef
  obtain ⟨specfacs, loadedSpecfacs⟩ :=
    facility_table_returns enough (subscribers subscriberSize) 0xdeadbeef
  have returned : allRows fuel subscriberSize = some (subs ++ secSubs ++ accinfs ++ specfacs) := by
    rw [allRows, loadedSubs, loadedSecSubs, loadedAccinfs, loadedSpecfacs]
    rfl
  obtain ⟨parts⟩ := all_rows_parts returned
  refine ⟨_, returned, rows_nodup parts, rows_ok parts, fun _ present => rows_present parts present,
    ?_⟩
  intro sId known
  simp only [access_types parts, facility_types parts]
  exact ⟨parts.aiPicked.types sId (mem_subscribers.mpr known),
    parts.sfPicked.types sId (mem_subscribers.mpr known)⟩

/-- The subscribers of one machine. -/
theorem all_rows_return_million :
    ∃ tatp rows, newTatp 1 = some tatp ∧ tatp.Ok ∧ allRows (2 ^ 64) tatp.subscriberSize = some rows ∧
      (rows.map rowLoc).Nodup ∧ subLoc 999999 ∈ rows.map rowLoc ∧
      ∃ aiType, accinfLoc 999999 aiType ∈ rows.map rowLoc := by
  obtain ⟨rows, returned, nodup, _, present, types⟩ := all_rows_return (Nat.le_refl (2 ^ 64)) 1000000
  have built : newTatp 1 = some ⟨1000000, 65535⟩ := by decide
  obtain ⟨⟨aiTypes, drawn, exactly⟩, _⟩ := types 999999 (by decide)
  obtain ⟨aiType, member⟩ := exists_mem_of_length_pos drawn.some_
  have listed : (999999 : UInt32).toNat < (1000000 : UInt32).toNat := by decide
  exact ⟨_, rows, built, new_tatp_ok (by decide) built, returned, nodup,
    present _ (.sub 999999 rfl listed), aiType, (exactly aiType).mpr member⟩

end All

end Fasst.TatpPopulation
