import Mathlib.Tactic.Ring
import Xllm.Lib.MixedRadix
import Xllm.Lib.Outcome

/-!
# The rank groups of several parallel dimensions

`RankGenerator` of `core/framework/parallel_state/rank_generator.h`: from the sizes of the
dimensions in their order, for each name the groups that vary the dimensions the name asks for. A
rank is a number in mixed radix with the sizes as they stand, and a group fixes the digits of the
others. The loops over strides compute `MixedRadix.combine`
(`generateMaskedOrthogonalRankGroups_eq`).

Sizes are integers, as `int32_t` are; a product of positive sizes that is the world size has no
factor that leaves the type. Names are their characters. What is only logged is left out.
-/

namespace Xllm.Parallel

open Xllm.Lib Xllm.Lib.MixedRadix List

namespace RankGenerator

/-- How `get_ranks_mapping` stops the process. -/
inductive RankError
  | emptyGroupRanks
  | emptyGroupOrder
  | divisionByZero
  | notDivisible
  | wrongProduct
  | sizeMismatch
  deriving Repr, DecidableEq

def prefixProduct : List Int → Int → List Int
  | [], init => [init]
  | size :: groupSize, init => init :: prefixProduct groupSize (init * size)

def innerProduct (a b : List Int) : Int := (List.zipWith (· * ·) a b).sum

/-- `decompose` with the strides of the shape, the only ones it is called with. -/
def decompose (index : Int) (shape : List Int) : List Int :=
  List.zipWith (fun d s => (index.tdiv d).tmod s) (prefixProduct shape 1) shape

def select (values : List Int) (mask : List Bool) : List Int :=
  ((values.zip mask).filter fun value => value.2).map Prod.fst

def generateMaskedOrthogonalRankGroups (worldSize : Int) (parallelSize : List Int)
    (mask : List Bool) : Except RankError (List (List Int)) := do
  let queriedGroupSize := select parallelSize mask
  let unqueriedGroupSize := select parallelSize (mask.map not)
  let globalGroupStride := prefixProduct parallelSize 1
  let queriedGroupStride := select globalGroupStride mask
  let unqueriedGroupStride := select globalGroupStride (mask.map not)
  let groupSize := (prefixProduct queriedGroupSize 1).getLastD 1
  check (groupSize ≠ 0) .divisionByZero
  let numOfGroup := worldSize.tdiv groupSize
  return (List.range numOfGroup.toNat).map fun groupIndex : Nat =>
    (List.range groupSize.toNat).map fun rankInGroup : Nat =>
      innerProduct (decompose rankInGroup queriedGroupSize) queriedGroupStride +
        innerProduct (decompose groupIndex unqueriedGroupSize) unqueriedGroupStride

/-- `std::getline` up to the end: nothing follows a delimiter at the end, and nothing is in an empty
string. -/
def split (s : List Char) (delimiter : Char) : List (List Char) :=
  let parts := s.splitOn delimiter
  if parts.getLast? = some [] then parts.dropLast else parts

def getMask (groupQuery : List Char) (groupOrder : List (List Char)) : List Bool :=
  (split groupQuery '-').foldl (fun mask groupName =>
      if groupName ∈ groupOrder then mask.set (groupOrder.idxOf groupName) true else mask)
    (List.replicate groupOrder.length false)

def getRanks (worldSize rankOffset : Int) (groupQuery : List Char) (groupRanks : List Int)
    (groupOrder : List (List Char)) : Except RankError (List (List Int)) := do
  let ranks ← generateMaskedOrthogonalRankGroups worldSize groupRanks (getMask groupQuery groupOrder)
  return if 0 < rankOffset then ranks.map fun rankGroup => rankGroup.map (· + rankOffset) else ranks

/-- The mapping and the two arguments, to which a dimension may have been added. -/
structure RanksMapping where
  groupRanks : List Int
  groupOrder : List (List Char)
  groupMapping : List (List Char × List (List Int))
  deriving Repr, DecidableEq

/-- `insert` of an `unordered_map`, which keeps a value that is there. -/
def insertGroups (groupMapping : List (List Char × List (List Int))) (groupName : List Char)
    (ranks : List (List Int)) : List (List Char × List (List Int)) :=
  if (groupMapping.lookup groupName).isSome then groupMapping
  else groupMapping ++ [(groupName, ranks)]

/-- The sizes and names after a single dimension that is not the whole world got a place holder. -/
def completeGroups (worldSize : Int) (groupRanks : List Int) (groupOrder : List (List Char)) :
    Except RankError (List Int × List (List Char)) :=
  match groupRanks with
  | [groupRank] =>
    if groupRank = worldSize then .ok (groupRanks, groupOrder)
    else do
      check (groupRank ≠ 0) .divisionByZero
      check (worldSize.tmod groupRank = 0) .notDivisible
      return ([groupRank, worldSize.tdiv groupRank], groupOrder ++ ["place_holder".toList])
  | _ => do
    check (worldSize = groupRanks.prod) .wrongProduct
    return (groupRanks, groupOrder)

def getRanksMapping (worldSize rankOffset : Int) (groupRanks : List Int)
    (groupOrder : List (List Char)) : Except RankError RanksMapping := do
  check (groupRanks ≠ []) .emptyGroupRanks
  check (groupOrder ≠ []) .emptyGroupOrder
  let (groupRanks, groupOrder) ← completeGroups worldSize groupRanks groupOrder
  check (groupOrder.length = groupRanks.length) .sizeMismatch
  let groupMapping ← groupOrder.foldlM (fun groupMapping groupName => do
      let subGroupRanks ← getRanks worldSize rankOffset groupName groupRanks groupOrder
      return insertGroups groupMapping groupName subGroupRanks) []
  return { groupRanks, groupOrder, groupMapping }

/-! ## The strides compute mixed radix -/

def ints (sizes : List Nat) : List Int := sizes.map Nat.cast

/-- The sizes of the dimensions, as the source has them. -/
def sizesOf (dims : Dims) : List Int := ints (dims.map Prod.fst)

def maskOf (dims : Dims) : List Bool := dims.map Prod.snd

/-- The sizes of the dimensions that are varied, or of the fixed ones. -/
def sizesWhere (varied : Bool) (dims : Dims) : List Nat :=
  (dims.filter fun dim => dim.2 == varied).map Prod.fst

@[simp] theorem ints_cons (size : Nat) (sizes : List Nat) :
    ints (size :: sizes) = (size : Int) :: ints sizes := rfl

@[simp] theorem sizesOf_cons (size : Nat) (varied : Bool) (dims : Dims) :
    sizesOf ((size, varied) :: dims) = (size : Int) :: sizesOf dims := rfl

@[simp] theorem maskOf_cons (size : Nat) (varied : Bool) (dims : Dims) :
    maskOf ((size, varied) :: dims) = varied :: maskOf dims := rfl

@[simp] theorem sizesWhere_cons (size : Nat) (varied wanted : Bool) (dims : Dims) :
    sizesWhere wanted ((size, varied) :: dims) =
      if varied = wanted then size :: sizesWhere wanted dims else sizesWhere wanted dims := by
  unfold sizesWhere
  by_cases h : varied = wanted
  · simp [h]
  · simp [h]

@[simp] theorem select_cons (value : Int) (values : List Int) (queried : Bool) (mask : List Bool) :
    select (value :: values) (queried :: mask) =
      if queried then value :: select values mask else select values mask := by
  cases queried with
  | true => rfl
  | false => rfl

@[simp] theorem innerProduct_cons (x y : Int) (xs ys : List Int) :
    innerProduct (x :: xs) (y :: ys) = x * y + innerProduct xs ys := by
  simp [innerProduct]

theorem getLastD_prefixProduct (groupSize : List Int) (init default : Int) :
    (prefixProduct groupSize init).getLastD default = init * groupSize.prod := by
  induction groupSize generalizing init default with
  | nil => simp [prefixProduct]
  | cons size groupSize ih =>
    rw [prefixProduct, getLastD_cons, ih, prod_cons, mul_assoc]

theorem prod_ints (sizes : List Nat) : (ints sizes).prod = (sizes.prod : Nat) := by
  induction sizes with
  | nil => rfl
  | cons size sizes ih => rw [ints_cons, prod_cons, ih, prod_cons, Int.natCast_mul]

theorem select_sizesOf (dims : Dims) :
    select (sizesOf dims) (maskOf dims) = ints (sizesWhere true dims) := by
  induction dims with
  | nil => rfl
  | cons dim dims ih =>
    obtain ⟨size, varied⟩ := dim
    cases varied with
    | true => simp [ih]
    | false => simp [ih]

theorem select_sizesOf_not (dims : Dims) :
    select (sizesOf dims) ((maskOf dims).map not) = ints (sizesWhere false dims) := by
  induction dims with
  | nil => rfl
  | cons dim dims ih =>
    obtain ⟨size, varied⟩ := dim
    cases varied with
    | true => simp [ih]
    | false => simp [ih]

theorem prod_sizesWhere_true (dims : Dims) : (sizesWhere true dims).prod = groupSize dims := by
  simp [sizesWhere, groupSize]

def digits : List Nat → Nat → List Int
  | [], _ => []
  | size :: sizes, n => (n % size : Nat) :: digits sizes (n / size)

theorem decompose_digits (sizes : List Nat) (index stride : Nat) :
    List.zipWith (fun d s => ((index : Int).tdiv d).tmod s) (prefixProduct (ints sizes) stride)
        (ints sizes) =
      digits sizes (index / stride) := by
  induction sizes generalizing stride with
  | nil => rfl
  | cons size sizes ih =>
    have hrest := ih (stride * size)
    rw [Int.natCast_mul, ← Nat.div_div_eq_div_mul] at hrest
    rw [ints_cons, prefixProduct, zipWith_cons_cons, hrest, digits]
    simp only [← Int.ofNat_tdiv, ← Int.ofNat_tmod]

theorem decompose_eq (sizes : List Nat) (index : Nat) :
    decompose index (ints sizes) = digits sizes index := by
  have h := decompose_digits sizes index 1
  rw [Nat.div_one] at h
  exact h

theorem innerProduct_digits (dims : Dims) (stride group place : Nat) :
    innerProduct (digits (sizesWhere true dims) place)
        (select (prefixProduct (sizesOf dims) stride) (maskOf dims)) +
      innerProduct (digits (sizesWhere false dims) group)
        (select (prefixProduct (sizesOf dims) stride) ((maskOf dims).map not)) =
      (stride * combine dims group place : Nat) := by
  induction dims generalizing stride group place with
  | nil => simp [innerProduct, sizesWhere, digits, combine]
  | cons dim dims ih =>
    obtain ⟨size, varied⟩ := dim
    cases varied with
    | true =>
      have hrest := ih (stride * size) group (place / size)
      rw [Int.natCast_mul] at hrest
      simp only [sizesWhere_cons, sizesOf_cons, maskOf_cons, prefixProduct, digits, combine,
        select_cons, innerProduct_cons, map_cons, if_true, Bool.not_true, reduceCtorEq,
        if_false]
      rw [add_assoc, hrest]
      push_cast
      ring
    | false =>
      have hrest := ih (stride * size) (group / size) place
      rw [Int.natCast_mul] at hrest
      simp only [sizesWhere_cons, sizesOf_cons, maskOf_cons, prefixProduct, digits, combine,
        select_cons, innerProduct_cons, map_cons, if_true, Bool.not_false, reduceCtorEq,
        if_false]
      rw [add_left_comm, hrest]
      push_cast
      ring

/-- With positive sizes the loops build the groups of the masked dimensions. -/
theorem generateMaskedOrthogonalRankGroups_eq {dims : Dims} (hdims : ∀ dim ∈ dims, 0 < dim.1) :
    generateMaskedOrthogonalRankGroups (volume dims) (sizesOf dims) (maskOf dims) =
      .ok ((groups dims).map ints) := by
  have hsize : (prefixProduct (select (sizesOf dims) (maskOf dims)) 1).getLastD 1 =
      (groupSize dims : Int) := by
    rw [getLastD_prefixProduct, select_sizesOf, prod_ints, prod_sizesWhere_true, Int.one_mul]
  have hpos : 0 < groupSize dims := Nat.lt_of_le_of_lt (Nat.zero_le _) (placeOf_lt hdims 0)
  have hcount : ((volume dims : Int).tdiv (groupSize dims)).toNat = groupCount dims := by
    rw [← Int.ofNat_tdiv, Int.toNat_natCast, ← groupSize_mul_groupCount,
      Nat.mul_div_cancel_left _ hpos]
  unfold generateMaskedOrthogonalRankGroups
  simp only [hsize, hcount]
  rw [check_bind_eq_ok]
  refine ⟨by omega, congrArg Except.ok ?_⟩
  unfold groups groupAt
  rw [map_map]
  apply map_congr_left
  intro group _
  rw [Int.toNat_natCast, Function.comp_apply, ints, map_map]
  apply map_congr_left
  intro place _
  rw [select_sizesOf, select_sizesOf_not, decompose_eq, decompose_eq]
  have hrank := innerProduct_digits dims 1 group place
  rw [Nat.one_mul] at hrank
  exact hrank

/-! ## What a name asks for -/

variable {name : List Char} {groupOrder : List (List Char)}

theorem getMask_name (hdelimiter : '-' ∉ name) (hname : name ∈ groupOrder) :
    getMask name groupOrder =
      if name = [] then List.replicate groupOrder.length false
      else (List.replicate groupOrder.length false).set (groupOrder.idxOf name) true := by
  unfold getMask split
  rw [splitOn_eq_singleton hdelimiter]
  by_cases hempty : name = []
  · subst hempty
    rfl
  · have hlast : ¬ [name].getLast? = some [] := by
      intro h
      exact hempty (Option.some.inj h)
    simp only [if_neg hlast, foldl_cons, foldl_nil, if_pos hname, if_neg hempty]

theorem length_getMask {groupQuery : List Char} :
    (getMask groupQuery groupOrder).length = groupOrder.length := by
  unfold getMask
  have hlength : ∀ (names : List (List Char)) (mask : List Bool),
      (names.foldl (fun mask groupName => if groupName ∈ groupOrder then
        mask.set (groupOrder.idxOf groupName) true else mask) mask).length = mask.length := by
    intro names
    induction names with
    | nil => intro mask; rfl
    | cons name names ih =>
      intro mask
      rw [foldl_cons, ih]
      by_cases hname : name ∈ groupOrder
      · rw [if_pos hname, length_set]
      · rw [if_neg hname]
  rw [hlength, length_replicate]

theorem eq_idxOf_of_getMask (hdelimiter : '-' ∉ name) (hname : name ∈ groupOrder) {i : Nat}
    (hmask : (getMask name groupOrder)[i]? = some true) : i = groupOrder.idxOf name := by
  rw [getMask_name hdelimiter hname] at hmask
  by_cases hempty : name = []
  · rw [if_pos hempty] at hmask
    have hfalse := eq_of_mem_replicate (mem_of_getElem? hmask)
    cases hfalse
  · rw [if_neg hempty] at hmask
    by_cases hi : groupOrder.idxOf name = i
    · exact hi.symm
    · rw [List.getElem?_set_ne hi] at hmask
      have hfalse := eq_of_mem_replicate (mem_of_getElem? hmask)
      cases hfalse

/-- The dimensions, with the one of the name varied. -/
def dimsFor (sizes : List Nat) (groupOrder : List (List Char)) (name : List Char) : Dims :=
  sizes.zip (getMask name groupOrder)

section Mapping

variable {sizes : List Nat} {groupOrder : List (List Char)} {name : List Char}

theorem map_fst_dimsFor (hlength : groupOrder.length = sizes.length) (name : List Char) :
    (dimsFor sizes groupOrder name).map Prod.fst = sizes := by
  exact map_fst_zip (by rw [length_getMask, hlength])

theorem maskOf_dimsFor (hlength : groupOrder.length = sizes.length) (name : List Char) :
    maskOf (dimsFor sizes groupOrder name) = getMask name groupOrder := by
  exact map_snd_zip (by rw [length_getMask, hlength])

theorem positive_dimsFor (hlength : groupOrder.length = sizes.length) (hpos : ∀ size ∈ sizes, 0 < size)
    (name : List Char) : ∀ dim ∈ dimsFor sizes groupOrder name, 0 < dim.1 := by
  intro dim hdim
  apply hpos
  rw [← map_fst_dimsFor hlength name]
  exact mem_map_of_mem hdim

/-- The groups of a name: those of its dimension, moved by the offset. -/
def groupsFor (rankOffset : Int) (sizes : List Nat) (groupOrder : List (List Char))
    (name : List Char) : List (List Int) :=
  (groups (dimsFor sizes groupOrder name)).map fun group =>
    group.map fun rank : Nat => (rank : Int) + rankOffset

variable {rankOffset : Int}

theorem getRanks_eq (hoffset : 0 ≤ rankOffset)
    (hlength : groupOrder.length = sizes.length) (hpos : ∀ size ∈ sizes, 0 < size)
    (name : List Char) :
    getRanks sizes.prod rankOffset name (ints sizes) groupOrder =
      .ok (groupsFor rankOffset sizes groupOrder name) := by
  have hgenerate := generateMaskedOrthogonalRankGroups_eq (positive_dimsFor hlength hpos name)
  rw [maskOf_dimsFor hlength, sizesOf, volume, map_fst_dimsFor hlength] at hgenerate
  unfold getRanks
  rw [hgenerate, ok_bind]
  refine congrArg Except.ok ?_
  unfold groupsFor ints
  by_cases hzero : 0 < rankOffset
  · rw [if_pos hzero, map_map]
    apply map_congr_left
    intro group _
    rw [Function.comp_apply, map_map]
    rfl
  · -- No offset is added, and there is none.
    have hno : rankOffset = 0 := by omega
    rw [if_neg hzero, hno]
    apply map_congr_left
    intro group _
    apply map_congr_left
    intro rank _
    exact (Int.add_zero _).symm

variable {g : List Char → List (List Int)}

theorem lookup_insertGroups {mapping : List (List Char × List (List Int))}
    (hmapping : ∀ name ranks, mapping.lookup name = some ranks → ranks = g name)
    (name query : List Char) :
    (insertGroups mapping name (g name)).lookup query =
      if query = name then some (g name) else mapping.lookup query := by
  unfold insertGroups
  cases hlookup : mapping.lookup name with
  | some ranks =>
    rw [Option.isSome_some, if_pos rfl]
    by_cases heq : query = name
    · rw [if_pos heq, heq, hlookup, hmapping name ranks hlookup]
    · rw [if_neg heq]
  | none =>
    rw [Option.isSome_none, if_neg (by simp), lookup_append]
    by_cases heq : query = name
    · rw [if_pos heq, heq, hlookup, Option.none_or, lookup_cons_self]
    · have hne : (query == name) = false := by
        rw [beq_eq_false_iff_ne]
        exact heq
      rw [if_neg heq, lookup_cons, hne, lookup_nil, Option.or_none]

theorem foldlM_insertGroups {f : List Char → Except RankError (List (List Int))}
    (hf : ∀ name, f name = .ok (g name))
    (names : List (List Char)) (mapping : List (List Char × List (List Int)))
    (hmapping : ∀ name ranks, mapping.lookup name = some ranks → ranks = g name) :
    ∃ mapping', (names.foldlM (fun groupMapping groupName => do
          let subGroupRanks ← f groupName
          return insertGroups groupMapping groupName subGroupRanks) mapping) = .ok mapping' ∧
      (∀ name ranks, mapping.lookup name = some ranks → mapping'.lookup name = some ranks) ∧
      ∀ name ∈ names, mapping'.lookup name = some (g name) := by
  induction names generalizing mapping with
  | nil => exact ⟨mapping, rfl, fun _ _ h => h, nofun⟩
  | cons first names ih =>
    have hlookup := lookup_insertGroups hmapping first
    have hinserted : ∀ name ranks,
        (insertGroups mapping first (g first)).lookup name = some ranks → ranks = g name := by
      intro name ranks h
      rw [hlookup name] at h
      by_cases heq : name = first
      · rw [if_pos heq] at h
        rw [heq]
        exact (Option.some.inj h).symm
      · rw [if_neg heq] at h
        exact hmapping name ranks h
    obtain ⟨mapping', hfold, hkeep, hnames⟩ := ih _ hinserted
    refine ⟨mapping', ?_, ?_, ?_⟩
    · rw [foldlM_cons, hf first]
      exact hfold
    · intro name ranks h
      apply hkeep
      rw [hlookup name]
      by_cases heq : name = first
      · rw [if_pos heq, ← heq, hmapping name ranks h]
      · rw [if_neg heq, h]
    · intro name hname
      cases mem_cons.mp hname with
      | inl heq =>
        subst heq
        apply hkeep
        rw [hlookup name, if_pos rfl]
      | inr hname => exact hnames name hname

/-- Sizes whose product is the world size are taken as they are. -/
theorem completeGroups_of_prod {groupRanks : List Int} {groupOrder : List (List Char)} :
    completeGroups groupRanks.prod groupRanks groupOrder = .ok (groupRanks, groupOrder) := by
  match groupRanks with
  | [] => rfl
  | [groupRank] =>
    exact if_pos (prod_singleton).symm
  | first :: second :: groupRanks =>
    unfold completeGroups
    rw [check_bind_eq_ok]
    exact ⟨rfl, rfl⟩

theorem getRanksMapping_eq (hoffset : 0 ≤ rankOffset) (hsizes : sizes ≠ [])
    (hlength : groupOrder.length = sizes.length) (hpos : ∀ size ∈ sizes, 0 < size) :
    ∃ mapping, getRanksMapping sizes.prod rankOffset (ints sizes) groupOrder = .ok mapping ∧
      ∀ name ∈ groupOrder,
        mapping.groupMapping.lookup name = some (groupsFor rankOffset sizes groupOrder name) := by
  have hnonempty : ints sizes ≠ [] := by
    unfold ints
    rw [ne_eq, map_eq_nil_iff]
    exact hsizes
  have horder : groupOrder ≠ [] := by
    intro hnil
    rw [hnil] at hlength
    exact hsizes (length_eq_zero_iff.mp hlength.symm)
  obtain ⟨mapping, hfold, _, hnames⟩ := foldlM_insertGroups
    (fun name => getRanks_eq hoffset hlength hpos name) groupOrder [] (by intro _ _ h; cases h)
  refine ⟨⟨ints sizes, groupOrder, mapping⟩, ?_, hnames⟩
  unfold getRanksMapping
  rw [check_bind_eq_ok, check_bind_eq_ok, ← prod_ints, completeGroups_of_prod, ok_bind]
  rw [check_bind_eq_ok, prod_ints, hfold]
  refine ⟨hnonempty, horder, ?_, rfl⟩
  unfold ints
  rw [length_map, hlength]

/-! ## Partitions that meet in one rank -/

theorem flatten_groupsFor_perm (hlength : groupOrder.length = sizes.length)
    (hpos : ∀ size ∈ sizes, 0 < size) (name : List Char) :
    (groupsFor rankOffset sizes groupOrder name).flatten.Perm
      ((List.range sizes.prod).map fun rank : Nat => (rank : Int) + rankOffset) := by
  have hperm := flatten_groups_perm (positive_dimsFor hlength hpos name)
  rw [volume, map_fst_dimsFor hlength] at hperm
  have hmoved := hperm.map fun rank : Nat => (rank : Int) + rankOffset
  rw [map_flatten] at hmoved
  exact hmoved

variable {group : List Int}

theorem mem_group (hlength : groupOrder.length = sizes.length) (hpos : ∀ size ∈ sizes, 0 < size)
    (hgroup : group ∈ groupsFor rankOffset sizes groupOrder name) :
    ∃ number, ∀ a ∈ group, ∃ rank : Nat, a = rank + rankOffset ∧
      rank < volume (dimsFor sizes groupOrder name) ∧
      groupOf (dimsFor sizes groupOrder name) rank = number := by
  obtain ⟨_, hmem, heq⟩ := mem_map.mp hgroup
  obtain ⟨number, hnumber, hat⟩ := mem_map.mp hmem
  subst heq hat
  refine ⟨number, fun a ha => ?_⟩
  obtain ⟨rank, hrank, hmoved⟩ := mem_map.mp ha
  obtain ⟨hlt, hof⟩ :=
    (mem_groupAt (positive_dimsFor hlength hpos name) (mem_range.mp hnumber)).mp hrank
  exact ⟨rank, hmoved.symm, hlt, hof⟩

theorem dimsFor_fst (sizes : List Nat) (groupOrder : List (List Char)) (name name' : List Char) :
    dimsFor sizes groupOrder name =
      (sizes.zip ((getMask name groupOrder).zip (getMask name' groupOrder))).map
        fun size => (size.1, size.2.1) := by
  have hmasks : ((getMask name groupOrder).zip (getMask name' groupOrder)).map Prod.fst =
      getMask name groupOrder := map_fst_zip (by rw [length_getMask, length_getMask])
  unfold dimsFor
  conv => lhs; rw [← hmasks, zip_map_right]
  rfl

theorem dimsFor_snd (sizes : List Nat) (groupOrder : List (List Char)) (name name' : List Char) :
    dimsFor sizes groupOrder name' =
      (sizes.zip ((getMask name groupOrder).zip (getMask name' groupOrder))).map
        fun size => (size.1, size.2.2) := by
  have hmasks : ((getMask name groupOrder).zip (getMask name' groupOrder)).map Prod.snd =
      getMask name' groupOrder := map_snd_zip (by rw [length_getMask, length_getMask])
  unfold dimsFor
  conv => lhs; rw [← hmasks, zip_map_right]
  rfl

theorem eq_of_mem_groupsFor (hlength : groupOrder.length = sizes.length)
    (hpos : ∀ size ∈ sizes, 0 < size) (hdelimiters : ∀ name ∈ groupOrder, '-' ∉ name)
    {name name' : List Char} (hname : name ∈ groupOrder) (hname' : name' ∈ groupOrder)
    (hne : name ≠ name') {group' : List Int}
    (hgroup : group ∈ groupsFor rankOffset sizes groupOrder name)
    (hgroup' : group' ∈ groupsFor rankOffset sizes groupOrder name') {a b : Int}
    (ha : a ∈ group) (ha' : a ∈ group') (hb : b ∈ group) (hb' : b ∈ group') : a = b := by
  obtain ⟨number, hgroup⟩ := mem_group hlength hpos hgroup
  obtain ⟨number', hgroup'⟩ := mem_group hlength hpos hgroup'
  obtain ⟨m, hm, hmlt, hmof⟩ := hgroup a ha
  obtain ⟨n, hn, hnlt, hnof⟩ := hgroup b hb
  obtain ⟨m', hm', _, hmof'⟩ := hgroup' a ha'
  obtain ⟨n', hn', _, hnof'⟩ := hgroup' b hb'
  have hmm : m' = m := by omega
  have hnn : n' = n := by omega
  rw [hmm] at hmof'
  rw [hnn] at hnof'
  rw [dimsFor_fst sizes groupOrder name name'] at hmlt hnlt hmof hnof
  rw [dimsFor_snd sizes groupOrder name name'] at hmof' hnof'
  have heq : m = n := by
    refine eq_of_groups ?_ ?_ hmlt hnlt (hmof.trans hnof.symm) (hmof'.trans hnof'.symm)
    · intro size hsize
      exact hpos size.1 (of_mem_zip hsize).1
    · intro size hsize
      obtain ⟨i, hi⟩ := mem_iff_getElem?.mp hsize
      obtain ⟨_, hmasks⟩ := List.getElem?_zip_eq_some.mp hi
      obtain ⟨hfirst, hsecond⟩ := List.getElem?_zip_eq_some.mp hmasks
      -- A dimension varied for both names would be the one of both.
      cases hvaried : size.2.1 with
      | false => exact Or.inl rfl
      | true =>
        cases hvaried' : size.2.2 with
        | false => exact Or.inr rfl
        | true =>
          rw [hvaried] at hfirst
          rw [hvaried'] at hsecond
          have hi := eq_idxOf_of_getMask (hdelimiters name hname) hname hfirst
          have hi' := eq_idxOf_of_getMask (hdelimiters name' hname') hname' hsecond
          exact absurd ((idxOf_inj hname).mp (hi.symm.trans hi')) hne
  rw [hm, hn, heq]

end Mapping

end RankGenerator

end Xllm.Parallel
