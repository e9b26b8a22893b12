import Xllm.Lib.BytePairs
import Xllm.Tokenizer.Tiktoken

/-!
# The working list follows the merges

`partsOf` is the working list of a piece that is cut into segments: where each segment starts, and
the rank of the segment with its neighbour, which so is never stale. The list before the first merge
is that of the single bytes, a turn of the loop is one merge of the leftmost pair of the least rank,
and no turn is taken when no two neighbours are a token.
-/

namespace Xllm.Tokenizer

open Xllm.Lib List

variable {encoder : Bytes → Option Int} {segments : List Bytes}

/-! ## Working lists -/

def pairRank (encoder : Bytes → Option Int) (segment : Bytes) : List Bytes → Int
  | [] => kMaxRank
  | next :: _ => (encoder (segment ++ next)).getD kMaxRank

@[simp] theorem pairRank_cons (segment next : Bytes) (rest : List Bytes) :
    pairRank encoder segment (next :: rest) = (encoder (segment ++ next)).getD kMaxRank := rfl

/-- The working list of a piece that is cut into segments. -/
def partsOf (encoder : Bytes → Option Int) : Nat → List Bytes → List Part
  | start, [] => [{ start, rank := kMaxRank }]
  | start, segment :: rest =>
    { start, rank := pairRank encoder segment rest } ::
      partsOf encoder (start + segment.length) rest

/-- Where segments start, and where the last one ends. -/
def startsOf : Nat → List Bytes → List Nat
  | start, [] => [start]
  | start, segment :: rest => start :: startsOf (start + segment.length) rest

theorem startsOf_length (start : Nat) (segments : List Bytes) :
    (startsOf start segments).length = segments.length + 1 := by
  induction segments generalizing start with
  | nil => rfl
  | cons segment rest ih => simp [startsOf, ih]

theorem partsOf_starts (encoder : Bytes → Option Int) (start : Nat) (segments : List Bytes) :
    (partsOf encoder start segments).map Part.start = startsOf start segments := by
  induction segments generalizing start with
  | nil => rfl
  | cons segment rest ih => simp [partsOf, startsOf, ih]

theorem partsOf_length (encoder : Bytes → Option Int) (start : Nat) (segments : List Bytes) :
    (partsOf encoder start segments).length = segments.length + 1 := by
  rw [← startsOf_length start, ← partsOf_starts encoder, length_map]

variable {start i : Nat}

theorem startsOf_get (hi : i ≤ segments.length) :
    (startsOf start segments)[i]? = some (start + (segments.take i).flatten.length) := by
  induction segments generalizing start i with
  | nil =>
    obtain rfl := Nat.le_zero.mp hi
    rfl
  | cons segment rest ih =>
    cases i with
    | zero => rfl
    | succ i =>
      simp only [startsOf, List.getElem?_cons_succ, take_succ_cons, flatten_cons, length_append]
      rw [ih (Nat.le_of_succ_le_succ hi), Nat.add_assoc]

theorem substr_flatten (segments : List Bytes) (i k : Nat) :
    substr segments.flatten (segments.take i).flatten.length
      (segments.take (i + k)).flatten.length = .ok ((segments.drop i).take k).flatten := by
  have htake : (segments.take (i + k)).flatten =
      (segments.take i).flatten ++ ((segments.drop i).take k).flatten := by
    rw [take_add, flatten_append]
  have hall : segments.flatten =
      (segments.take i).flatten ++ (segments.drop i).flatten := by
    rw [← flatten_append, take_append_drop]
  have hdrop : (segments.drop i).flatten = ((segments.drop i).take k).flatten ++
      ((segments.drop i).drop k).flatten := by
    rw [← flatten_append, take_append_drop]
  unfold substr
  rw [htake, hall, length_append, length_append, if_neg (by omega), if_neg (by omega),
    drop_left, Nat.add_sub_cancel_left, hdrop, take_left]

variable {parts : List Part}

theorem partAt_starts (hparts : parts.map Part.start =
    startsOf 0 segments) (hi : i ≤ segments.length) :
    ∃ part, partAt parts i = .ok part ∧ part.start = (segments.take i).flatten.length := by
  have hget := @startsOf_get segments 0 i hi
  rw [← hparts, List.getElem?_map, Option.map_eq_some_iff, Nat.zero_add] at hget
  obtain ⟨part, hpart, hstart⟩ := hget
  refine ⟨part, ?_, hstart⟩
  unfold partAt
  rw [hpart]

theorem getRank_eq (hparts : parts.map Part.start = startsOf 0 segments) (i skip : Nat) :
    getRank encoder segments.flatten parts i skip =
      .ok (if i + skip + 2 ≤ segments.length then
        encoder ((segments.drop i).take (skip + 2)).flatten else none) := by
  have hlength : parts.length = segments.length + 1 := by
    rw [← startsOf_length 0, ← hparts, length_map]
  unfold getRank
  by_cases hi : i + skip + 2 ≤ segments.length
  · obtain ⟨first, hfirst, hs⟩ := partAt_starts (i := i) hparts (by omega)
    obtain ⟨last, hlast, he⟩ := partAt_starts (i := i + skip + 2) hparts hi
    rw [if_pos (by omega), if_pos hi, hfirst, ok_bind, hlast, ok_bind, hs, he, Nat.add_assoc,
      substr_flatten, ok_bind]
    rfl
  · rw [if_neg (by omega), if_neg hi]

/-! ## Changes of a working list -/

theorem partAt_append (front : List Part) (part : Part) (rest : List Part) :
    partAt (front ++ part :: rest) front.length = .ok part := by
  unfold partAt
  simp

theorem setRank_append (front : List Part) (part : Part) (rest : List Part) (rank : Int) :
    setRank (front ++ part :: rest) front.length rank =
      .ok (front ++ { part with rank := rank } :: rest) := by
  unfold setRank
  rw [partAt_append, ok_bind]
  simp [pure, Except.pure]

theorem partsOf_append (encoder : Bytes → Option Int) (start : Nat) (before : List Bytes)
    (segment : Bytes) :
    ∃ front, front.length = before.length ∧ ∀ rest,
      partsOf encoder start (before ++ segment :: rest) =
        front ++ partsOf encoder (start + before.flatten.length) (segment :: rest) := by
  induction before generalizing start with
  | nil => exact ⟨[], rfl, fun rest => rfl⟩
  | cons first before ih =>
    obtain ⟨front, hlength, hfront⟩ := ih (start + first.length)
    -- the neighbour of the first segment is the same for every rest
    have hhead : ∀ rest, pairRank encoder first (before ++ segment :: rest) =
        pairRank encoder first (before ++ [segment]) := by
      intro rest
      cases before <;> rfl
    refine ⟨{ start, rank := pairRank encoder first (before ++ [segment]) } :: front, ?_, ?_⟩
    · simp [hlength]
    · intro rest
      rw [cons_append, partsOf, hhead, hfront]
      simp [Nat.add_assoc]

/-! ## Before the first merge -/

/-- The working list before any rank is known. -/
def unranked (segments : List Bytes) : List Part :=
  (startsOf 0 segments).map fun start => { start, rank := kMaxRank }

theorem partsOf_get (hi : i < segments.length) :
    (partsOf encoder start segments)[i]? = some
      { start := start + (segments.take i).flatten.length
        rank := if i + 2 ≤ segments.length then
          (encoder ((segments.drop i).take 2).flatten).getD kMaxRank else kMaxRank } := by
  induction segments generalizing start i with
  | nil => cases hi
  | cons segment rest ih =>
    cases i with
    | zero =>
      cases rest with
      | nil => rfl
      | cons next rest => simp [partsOf, pairRank]
    | succ i =>
      simp only [partsOf, List.getElem?_cons_succ, take_succ_cons, flatten_cons,
        length_append, drop_succ_cons, length_cons]
      rw [ih (Nat.lt_of_succ_lt_succ hi), Nat.add_assoc]
      simp only [Nat.add_right_comm i 1 2, Nat.add_le_add_iff_right]

/-- The turns of the loop from a segment on, with the parts of the segments before it. -/
theorem initRanks_from (hranks : ∀ token rank, encoder token = some rank → rank < kMaxRank)
    (before : List Bytes) {front : List Part} (hlength : front.length = before.length)
    (hfront : front.map Part.start ++ startsOf before.flatten.length segments =
      startsOf 0 (before ++ segments)) :
    (List.range' before.length (segments.length - 1)).foldlM
      (initRank encoder (before ++ segments).flatten)
      (front ++ (startsOf before.flatten.length segments).map fun start =>
        { start, rank := kMaxRank }) =
      .ok (front ++ partsOf encoder before.flatten.length segments) := by
  induction segments generalizing before front with
  | nil => rfl
  | cons segment rest ih =>
    cases rest with
    | nil => rfl
    | cons next rest =>
      have hstarts : (front ++ (startsOf before.flatten.length (segment :: next :: rest)).map
          fun start => ({ start, rank := kMaxRank } : Part)).map Part.start =
            startsOf 0 (before ++ segment :: next :: rest) := by
        rw [map_append, map_map, ← hfront]
        exact congrArg _ (map_id _)
      have hkey : (((before ++ segment :: next :: rest).drop before.length).take 2).flatten =
          segment ++ next := by
        simp
      have hturn : initRank encoder (before ++ segment :: next :: rest).flatten
          (front ++ (startsOf before.flatten.length (segment :: next :: rest)).map fun start =>
            { start, rank := kMaxRank }) before.length =
          .ok ((front ++ [{ start := before.flatten.length
                            rank := (encoder (segment ++ next)).getD kMaxRank }]) ++
            (startsOf (before ++ [segment]).flatten.length (next :: rest)).map fun start =>
              { start, rank := kMaxRank }) := by
        unfold initRank
        rw [getRank_eq hstarts, ok_bind, if_pos (by simp), hkey]
        cases hrank : encoder (segment ++ next) with
        | none => simp [startsOf, pure, Except.pure]
        | some rank =>
          dsimp only
          rw [if_neg (hranks _ _ hrank).ne, ← hlength, startsOf, map_cons, setRank_append]
          simp
      have hnext := @ih (before ++ [segment])
        (front ++ [{ start := before.flatten.length
                     rank := (encoder (segment ++ next)).getD kMaxRank }])
        (by simp [hlength]) (by simpa [startsOf] using hfront)
      rw [length_cons, length_cons, Nat.add_sub_cancel, range'_succ, foldlM_cons, hturn, ok_bind]
      simpa [partsOf] using hnext

theorem initRanks_eq (hranks : ∀ token rank, encoder token = some rank → rank < kMaxRank)
    (segments : List Bytes) :
    initRanks encoder segments.flatten (unranked segments) = .ok (partsOf encoder 0 segments) := by
  have hall := @initRanks_from encoder segments hranks [] [] rfl rfl
  unfold initRanks unranked
  rw [length_map, startsOf_length, range_eq_range']
  exact hall

/-! ## The least rank -/

/-- The scan finds the first of the least ranks, by induction for any rank to start from. -/
theorem scan_spec (ranks : List Int) (minRank : Int) (minI k : Nat) :
    let found := (ranks.zipIdx k).foldl
      (fun (best : Int × Nat) (item : Int × Nat) => if item.1 < best.1 then item else best)
      (minRank, minI)
    found.1 ≤ minRank ∧ (∀ rank ∈ ranks, found.1 ≤ rank) ∧
      (found = (minRank, minI) ∨ ∃ before after, ranks = before ++ found.1 :: after ∧
        found.2 = k + before.length ∧ found.1 < minRank ∧ ∀ rank ∈ before, found.1 < rank) := by
  induction ranks generalizing minRank minI k with
  | nil => simp
  | cons rank ranks ih =>
    simp only [zipIdx_cons, foldl_cons]
    by_cases hlt : rank < minRank
    · rw [if_pos hlt]
      obtain ⟨hle, hall, hwhere⟩ := ih rank k (k + 1)
      refine ⟨hle.trans hlt.le, ?_, Or.inr ?_⟩
      · intro other hother
        rcases mem_cons.mp hother with rfl | hother
        · exact hle
        · exact hall other hother
      · rcases hwhere with heq | ⟨before, after, hsplit, hindex, hbelow, hbefore⟩
        · rw [heq]
          exact ⟨[], ranks, rfl, rfl, hlt, nofun⟩
        · refine ⟨rank :: before, after, ?_, ?_, hbelow.trans hlt, ?_⟩
          · rw [cons_append, ← hsplit]
          · rw [hindex, length_cons]
            omega
          · intro other hother
            rcases mem_cons.mp hother with rfl | hother
            · exact hbelow
            · exact hbefore other hother
    · rw [if_neg hlt]
      obtain ⟨hle, hall, hwhere⟩ := ih minRank minI (k + 1)
      have hrank := hle.trans (not_lt.mp hlt)
      refine ⟨hle, ?_, hwhere.imp_right ?_⟩
      · intro other hother
        rcases mem_cons.mp hother with rfl | hother
        · exact hrank
        · exact hall other hother
      · rintro ⟨before, after, hsplit, hindex, hbelow, hbefore⟩
        refine ⟨rank :: before, after, ?_, ?_, hbelow, ?_⟩
        · rw [cons_append, ← hsplit]
        · rw [hindex, length_cons]
          omega
        · intro other hother
          rcases mem_cons.mp hother with rfl | hother
          · exact hbelow.trans_le (not_lt.mp hlt)
          · exact hbefore other hother

/-- The ranks of a working list, without its last item. -/
def ranksOf (encoder : Bytes → Option Int) : List Bytes → List Int
  | [] => []
  | segment :: rest => pairRank encoder segment rest :: ranksOf encoder rest

theorem ranksOf_append (before : List Bytes) (segment : Bytes) (rest : List Bytes) :
    ∃ front, front.length = before.length ∧
      ranksOf encoder (before ++ segment :: rest) =
        front ++ pairRank encoder segment rest :: ranksOf encoder rest := by
  induction before with
  | nil => exact ⟨[], rfl, rfl⟩
  | cons first before ih =>
    obtain ⟨front, hlength, hfront⟩ := ih
    refine ⟨pairRank encoder first (before ++ segment :: rest) :: front, ?_, ?_⟩
    · simp [hlength]
    · simp [ranksOf, hfront]

theorem of_ranksOf_eq {front after : List Int} {rank : Int}
    (h : ranksOf encoder segments = front ++ rank :: after) :
    ∃ before segment rest, segments = before ++ segment :: rest ∧
      before.length = front.length ∧ pairRank encoder segment rest = rank := by
  induction segments generalizing front with
  | nil =>
    unfold ranksOf at h
    simp at h
  | cons segment segments ih =>
    cases front with
    | nil =>
      cases h
      exact ⟨[], segment, segments, rfl, rfl, rfl⟩
    | cons first front =>
      simp only [ranksOf, cons_append, List.cons.injEq] at h
      obtain ⟨before, next, rest, rfl, hlength, hrank⟩ := ih h.2
      exact ⟨segment :: before, next, rest, rfl, by simp [hlength], hrank⟩

theorem partsOf_ranks (start : Nat) (segments : List Bytes) :
    ((partsOf encoder start segments).take segments.length).map Part.rank =
      ranksOf encoder segments := by
  induction segments generalizing start with
  | nil => rfl
  | cons segment rest ih => simp [partsOf, ranksOf, ih]

theorem findMin_partsOf (encoder : Bytes → Option Int) (start : Nat) (segments : List Bytes) :
    findMin (partsOf encoder start segments) =
      (ranksOf encoder segments).zipIdx.foldl
        (fun best item => if item.1 < best.1 then item else best) (kMaxRank, 0) := by
  unfold findMin
  rw [partsOf_length, Nat.add_sub_cancel, ← partsOf_ranks start, zipIdx_map, foldl_map]
  rfl

theorem leastPair_of_found (hranks : ∀ token rank, encoder token = some rank → rank < kMaxRank)
    {found : Int × Nat} (hall : ∀ rank ∈ ranksOf encoder segments, found.1 ≤ rank)
    (hwhere : found = (kMaxRank, 0) ∨ ∃ before after,
      ranksOf encoder segments = before ++ found.1 :: after ∧ found.2 = 0 + before.length ∧
        found.1 < kMaxRank ∧ ∀ rank ∈ before, found.1 < rank) :
    (found.1 = kMaxRank ∧ Merged encoder segments) ∨
      (found.1 ≠ kMaxRank ∧ ∃ before a b after, segments = before ++ a :: b :: after ∧
        found.2 = before.length ∧ LeastPair encoder before a b after found.1) := by
  -- a pair of neighbours that is a token has its rank in the list
  have hpair : ∀ pre x y post, segments = pre ++ x :: y :: post → ∀ rank,
      encoder (x ++ y) = some rank → ∃ front after, front.length = pre.length ∧
        ranksOf encoder segments = front ++ rank :: after := by
    rintro pre x y post rfl rank hrank
    obtain ⟨front, hlength, hfront⟩ := @ranksOf_append encoder pre x (y :: post)
    refine ⟨front, ranksOf encoder (y :: post), hlength, ?_⟩
    rw [hfront, pairRank_cons, hrank]
    rfl
  rcases hwhere with rfl | ⟨front, after, hsplit, hindex, hbelow, hbefore⟩
  · left
    refine ⟨rfl, fun pre x y post hsegments => ?_⟩
    by_contra hsome
    obtain ⟨rank, hrank⟩ := Option.ne_none_iff_exists'.mp hsome
    obtain ⟨front, after, -, hsplit⟩ := hpair pre x y post hsegments rank hrank
    have hge := hall rank (by simp [hsplit])
    exact absurd (hranks _ _ hrank) (not_lt.mpr hge)
  · right
    refine ⟨hbelow.ne, ?_⟩
    obtain ⟨before, a, rest, hsegments, hlength, hrank⟩ := of_ranksOf_eq hsplit
    cases rest with
    | nil => exact absurd hrank.symm hbelow.ne
    | cons b rest =>
      rw [pairRank_cons] at hrank
      have htoken : encoder (a ++ b) = some found.1 := by
        cases htoken : encoder (a ++ b) with
        | none =>
          rw [htoken] at hrank
          exact absurd hrank.symm hbelow.ne
        | some rank =>
          rw [htoken] at hrank
          exact congrArg some hrank
      refine ⟨before, a, b, rest, hsegments, ?_, htoken, ?_⟩
      · rw [hindex, Nat.zero_add, hlength]
      · intro pre x y post hsame rank hrank'
        obtain ⟨front', after', hlength', hsplit'⟩ :=
          hpair pre x y post (hsegments.trans hsame) rank hrank'
        refine ⟨hall rank (by simp [hsplit']), fun hlt => hbefore rank ?_⟩
        -- the rank stands in the list before the one that was found
        rw [hsplit] at hsplit'
        have hget := congrArg (fun ranks => ranks[front'.length]?) hsplit'
        rw [List.getElem?_append_left (by omega), List.getElem?_append_right le_rfl,
          Nat.sub_self, List.getElem?_cons_zero] at hget
        exact mem_of_getElem? hget

theorem findMin_spec (hranks : ∀ token rank, encoder token = some rank → rank < kMaxRank)
    (start : Nat) (segments : List Bytes) :
    ((findMin (partsOf encoder start segments)).1 = kMaxRank ∧ Merged encoder segments) ∨
      ((findMin (partsOf encoder start segments)).1 ≠ kMaxRank ∧
        ∃ before a b after, segments = before ++ a :: b :: after ∧
          (findMin (partsOf encoder start segments)).2 = before.length ∧
          LeastPair encoder before a b after (findMin (partsOf encoder start segments)).1) := by
  rw [findMin_partsOf]
  obtain ⟨-, hall, hwhere⟩ := scan_spec (ranksOf encoder segments) kMaxRank 0 0
  exact leastPair_of_found hranks hall hwhere

/-! ## A merge -/

theorem getRank_merged {before after : List Bytes} {a b : Bytes}
    (hparts : parts.map Part.start = startsOf 0 (before ++ a :: b :: after)) :
    ∃ rank, getRank encoder (before ++ a :: b :: after).flatten parts before.length 1 = .ok rank ∧
      rank.getD kMaxRank = pairRank encoder (a ++ b) after := by
  refine ⟨_, getRank_eq hparts _ _, ?_⟩
  cases after with
  | nil =>
    rw [if_neg (by simp)]
    rfl
  | cons next after =>
    rw [if_pos (by simp; omega), drop_left]
    simp

/-- One turn of the loop is a merge, and there is none when nothing can be merged. -/
theorem mergeTurn_spec (hranks : ∀ token rank, encoder token = some rank → rank < kMaxRank)
    (segments : List Bytes) :
    (mergeTurn encoder segments.flatten (partsOf encoder 0 segments) = .ok none ∧
        Merged encoder segments) ∨
      ∃ next, mergeTurn encoder segments.flatten (partsOf encoder 0 segments) =
        .ok (some (partsOf encoder 0 next)) ∧ Merge encoder segments next := by
  unfold mergeTurn
  rw [partsOf_length]
  by_cases hone : segments.length + 1 ≤ 1
  · left
    rw [if_pos hone]
    refine ⟨rfl, fun pre x y post hsegments => ?_⟩
    rw [hsegments] at hone
    simp at hone
  rw [if_neg hone]
  rcases findMin_spec hranks 0 segments with ⟨hnone, hmerged⟩ |
    ⟨hsome, before, a, b, after, hsegments, hindex, hleast⟩
  · left
    dsimp only
    rw [if_pos hnone]
    exact ⟨rfl, hmerged⟩
  · right
    refine ⟨before ++ (a ++ b) :: after, ?_, hsegments ▸ .pair hleast⟩
    dsimp only
    rw [if_neg hsome, hindex, hsegments]
    have hstarts := partsOf_starts encoder 0 (before ++ a :: b :: after)
    obtain ⟨rank, hrank, hvalue⟩ := @getRank_merged encoder _ before after a b hstarts
    rw [hrank, ok_bind, hvalue]
    -- the left neighbour of the pair, if there is one, changes its rank too
    rcases before.eq_nil_or_concat' with rfl | ⟨before, x, rfl⟩
    · rw [nil_append, partsOf, length_nil]
      have hset := setRank_append [] { start := 0, rank := pairRank encoder a (b :: after) }
        (partsOf encoder (0 + a.length) (b :: after)) (pairRank encoder (a ++ b) after)
      rw [nil_append, length_nil] at hset
      rw [hset, ok_bind, if_neg (by simp)]
      simp [partsOf, partsOf_length, pure, Except.pure, Nat.add_assoc]
    · obtain ⟨front, hfront, happend⟩ := partsOf_append encoder 0 before x
      have hsegments : before ++ [x] ++ a :: b :: after = before ++ x :: a :: b :: after := by simp
      have hmerged : before ++ [x] ++ (a ++ b) :: after = before ++ x :: (a ++ b) :: after := by
        simp
      have hlength : (before ++ [x]).length = front.length + 1 := by simp [hfront]
      rw [hsegments] at hstarts
      rw [hsegments, hmerged, hlength, happend, happend]
      simp only [partsOf]
      -- the pair gets its rank
      have hpair := setRank_append
        (front ++ [{ start := 0 + before.flatten.length, rank := pairRank encoder x (a :: b :: after) }])
        { start := 0 + before.flatten.length + x.length, rank := pairRank encoder a (b :: after) }
        ({ start := 0 + before.flatten.length + x.length + a.length,
           rank := pairRank encoder b after } ::
          partsOf encoder (0 + before.flatten.length + x.length + a.length + b.length) after)
        (pairRank encoder (a ++ b) after)
      rw [length_append, length_singleton, List.append_assoc, List.append_assoc,
        singleton_append, singleton_append] at hpair
      rw [hpair, ok_bind, if_pos (Nat.succ_pos _), Nat.add_sub_cancel]
      -- so does its left neighbour
      have hsame : (front ++
          { start := 0 + before.flatten.length, rank := pairRank encoder x (a :: b :: after) } ::
            { start := 0 + before.flatten.length + x.length,
              rank := pairRank encoder (a ++ b) after } ::
            { start := 0 + before.flatten.length + x.length + a.length,
              rank := pairRank encoder b after } ::
            partsOf encoder (0 + before.flatten.length + x.length + a.length + b.length) after).map
          Part.start = startsOf 0 (before ++ x :: a :: b :: after) := by
        rw [← hstarts, happend]
        simp [partsOf]
      obtain ⟨left, hleft, hvalue⟩ := @getRank_merged encoder _ before (b :: after) x a hsame
      rw [hfront, hleft, ok_bind, hvalue, ← hfront, setRank_append, ok_bind,
        if_pos (by simp; omega)]
      have herase : ∀ p q r : Part, ∀ rest : List Part,
          (front ++ p :: q :: r :: rest).eraseIdx (front.length + 1 + 1) =
            front ++ p :: q :: rest := by
        intro p q r rest
        rw [eraseIdx_append_of_length_le (by omega)]
        simp [Nat.add_assoc]
      rw [herase]
      simp [pure, Except.pure, Nat.add_assoc]

/-! ## The whole loop -/

theorem mergeLoop_spec (hranks : ∀ token rank, encoder token = some rank → rank < kMaxRank)
    {turns : Nat} {segments : List Bytes} (hturns : segments.length < turns) :
    ∃ last, mergeLoop encoder segments.flatten turns (partsOf encoder 0 segments) =
      .ok (partsOf encoder 0 last) ∧ Merges encoder segments last := by
  induction turns generalizing segments with
  | zero => cases hturns
  | succ turns ih =>
    unfold mergeLoop
    rcases mergeTurn_spec hranks segments with ⟨hturn, hmerged⟩ | ⟨next, hturn, hmerge⟩
    · rw [hturn, ok_bind]
      exact ⟨segments, rfl, .done hmerged⟩
    · rw [hturn, ok_bind]
      have hlength := hmerge.length
      obtain ⟨last, hloop, hmerges⟩ := @ih next (by omega)
      rw [hmerge.flatten] at hloop
      exact ⟨last, hloop, .step hmerge hmerges⟩

theorem emitTokens_eq (segments : List Bytes) :
    emitTokens encoder segments.flatten (partsOf encoder 0 segments) =
      .ok (segments.filterMap encoder) := by
  have hstarts := partsOf_starts encoder 0 segments
  have hmap : ∀ i ∈ List.range segments.length, (do
      let s ← partAt (partsOf encoder 0 segments) i
      let e ← partAt (partsOf encoder 0 segments) (i + 1)
      let key ← substr segments.flatten s.start e.start
      return encoder key : Except TokenizerCheck (Option Int)) =
        .ok (encoder ((segments.drop i).take 1).flatten) := by
    intro i hi
    rw [mem_range] at hi
    obtain ⟨first, hfirst, hs⟩ := partAt_starts (i := i) hstarts hi.le
    obtain ⟨last, hlast, he⟩ := partAt_starts (i := i + 1) hstarts hi
    rw [hfirst, ok_bind, hlast, ok_bind, hs, he, substr_flatten, ok_bind]
    rfl
  have htokens : ((List.range segments.length).map fun i =>
      encoder ((segments.drop i).take 1).flatten) = segments.map encoder := by
    apply ext_getElem?
    intro i
    rw [List.getElem?_map, List.getElem?_map]
    by_cases hi : i < segments.length
    · rw [List.getElem?_range hi, List.getElem?_eq_getElem hi, Option.map_some, Option.map_some,
        drop_eq_getElem_cons hi, take_succ_cons, take_zero, flatten_singleton]
    · rw [List.getElem?_eq_none (by simpa using hi), List.getElem?_eq_none (not_lt.mp hi)]
      rfl
  unfold emitTokens
  rw [partsOf_length, Nat.add_sub_cancel, mapM_eq_ok hmap, ok_bind, htokens]
  show Except.ok ((segments.map encoder).filterMap id) = _
  rw [filterMap_map]
  rfl

def bytesOf (piece : Bytes) : List Bytes := piece.map fun byte => [byte]

theorem bytesOf_flatten (piece : Bytes) : (bytesOf piece).flatten = piece := by
  unfold bytesOf
  induction piece with
  | nil => rfl
  | cons byte piece ih => simp [ih]

theorem startsOf_bytesOf (start : Nat) (piece : Bytes) :
    startsOf start (bytesOf piece) = List.range' start (piece.length + 1) := by
  induction piece generalizing start with
  | nil => rfl
  | cons byte piece ih => exact congrArg (start :: ·) (ih (start + 1))

theorem unranked_bytesOf (piece : Bytes) :
    unranked (bytesOf piece) =
      (List.range (piece.length + 1)).map fun i => { start := i, rank := kMaxRank } := by
  rw [unranked, startsOf_bytesOf, range_eq_range']

theorem initParts_eq (hranks : ∀ token rank, encoder token = some rank → rank < kMaxRank)
    {piece : Bytes} (hsize : (piece.length : Int) < kMaxRank) :
    initParts encoder piece = .ok (partsOf encoder 0 (bytesOf piece)) := by
  have hinit := initRanks_eq hranks (bytesOf piece)
  rw [bytesOf_flatten, unranked_bytesOf] at hinit
  unfold initParts
  rw [if_neg (not_le.mpr hsize)]
  exact hinit

theorem bytePairEncode_eq (hranks : ∀ token rank, encoder token = some rank → rank < kMaxRank)
    {piece : Bytes} (hsize : (piece.length : Int) < kMaxRank) :
    ∃ last, Merges encoder (bytesOf piece) last ∧
      bytePairEncode encoder piece = .ok (last.filterMap encoder) := by
  unfold bytePairEncode
  by_cases hnil : piece = []
  · subst hnil
    refine ⟨[], .done fun pre x y post hsegments => ?_, rfl⟩
    simp [bytesOf] at hsegments
  · rw [if_neg hnil, initParts_eq hranks hsize, ok_bind]
    have hturns : (bytesOf piece).length < (partsOf encoder 0 (bytesOf piece)).length := by
      rw [partsOf_length]
      exact Nat.lt_succ_self _
    obtain ⟨last, hloop, hmerges⟩ := mergeLoop_spec hranks hturns
    have hflatten : piece = last.flatten := (bytesOf_flatten piece).symm.trans hmerges.flatten.symm
    rw [bytesOf_flatten] at hloop
    rw [hloop, ok_bind]
    refine ⟨last, hmerges, ?_⟩
    rw [hflatten]
    exact emitTokens_eq last

end Xllm.Tokenizer
