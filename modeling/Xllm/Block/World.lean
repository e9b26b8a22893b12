import Xllm.Block.Operations
import Xllm.Lib.Rows
import Xllm.Lib.Run

/-!
# A leaf and its callers

Everything outside a leaf that can touch it is a list of aliases: the blocks in sequences, in
staging vectors, in temporaries. `World` is a leaf with that list, and `World.step` is one thing a
caller can do: call an entry point of the leaf or of its cache, or copy, move, stamp or destroy an alias. Positions name
aliases; an operation that names one that does not exist is not a program, and is refused.

Any order of operations is a run of `World.step`, so a statement about every reachable world is
one about every interleaving of the callers.
-/

namespace Xllm.Framework

open Xllm.Lib List

structure World (Key : Type) where
  leaf : Leaf Key
  live : List (Block Key) := []

inductive Op (Key : Type)
  | allocate (numBlocks : Nat)
  | allocateShared (tokenIds : List Int) (existed : List Nat) (mmItems : List (MMItem Key))
      (blockHashes : List Key)
  | matchPrefix (tokenIds : List Int) (existed : List Nat) (mmItems : List (MMItem Key))
      (blockHashes : List Key)
  | cacheTokens (tokenIds : List Int) (blocks : List Nat) (existedNum : Nat)
      (mmItems : List (MMItem Key)) (blockHashes : List Key)
  | cacheStamped (blocks : List Nat)
  | resetPrefixCache
  | evict (nBlocks : Nat)
  | setHashValue (i : Nat) (hashValue : Key)
  | copyConstruct (other : Nat)
  | copyAssign (this other : Nat)
  | moveConstruct (other : Nat)
  | moveAssign (this other : Nat)
  | destroy (this : Nat)

variable {Key : Type} [DecidableEq Key] [Inhabited Key]

/-- `copy` and `move` assignment release the old block first; a self assignment does nothing. -/
def World.assign (w : World Key) (this other : Nat) (move : Bool) :
    Except Fatal (World Key) :=
  if this = other then .ok w
  else
    match w.live[this]?, w.live[other]? with
    | some old, some b => do
      let s ← w.leaf.release old
      if move then
        .ok { leaf := s, live := (w.live.set this b).set other b.movedFrom }
      else
        let (s, b) := s.copyBlock b
        .ok { leaf := s, live := w.live.set this b }
    | _, _ => .error .outOfBounds

section

variable (xxh3 : HashInput Key → Key)

def World.step (w : World Key) : Op Key → Except Fatal (World Key)
  | .allocate numBlocks => do
    let (s, blocks) ← w.leaf.allocate numBlocks
    .ok { leaf := s, live := w.live ++ blocks }
  | .allocateShared tokenIds existed mmItems blockHashes =>
    match indexSelect w.live existed with
    | none => .error .outOfBounds
    | some existed => do
      let (s, blocks) ← w.leaf.allocateShared xxh3 tokenIds existed mmItems blockHashes
      .ok { leaf := s, live := w.live ++ blocks }
  | .matchPrefix tokenIds existed mmItems blockHashes =>
    match indexSelect w.live existed with
    | none => .error .outOfBounds
    | some existed => do
      let (s, blocks) ← w.leaf.matchPrefix xxh3 tokenIds existed mmItems blockHashes
      .ok { leaf := s, live := w.live ++ blocks }
  | .cacheTokens tokenIds blocks existedNum mmItems blockHashes =>
    match indexSelect w.live blocks with
    | none => .error .outOfBounds
    | some chosen => do
      let (s, stamped) ← w.leaf.cacheTokens xxh3 tokenIds chosen existedNum mmItems blockHashes
      match indexPut w.live blocks stamped with
      | none => .error .outOfBounds
      | some live => .ok { leaf := s, live }
  | .cacheStamped blocks =>
    match indexSelect w.live blocks with
    | none => .error .outOfBounds
    | some chosen => do
      let s ← w.leaf.cacheStamped chosen
      .ok { w with leaf := s }
  | .resetPrefixCache => do
    let s ← w.leaf.resetPrefixCache
    .ok { w with leaf := s }
  | .evict nBlocks => do
    let (s, _) ← w.leaf.evict nBlocks
    .ok { w with leaf := s }
  | .setHashValue i hashValue =>
    match w.live[i]? with
    | none => .error .outOfBounds
    | some b => .ok { w with live := w.live.set i (b.setHashValue hashValue) }
  | .copyConstruct other =>
    match w.live[other]? with
    | none => .error .outOfBounds
    | some b =>
      let (s, b) := w.leaf.copyBlock b
      .ok { leaf := s, live := w.live ++ [b] }
  | .copyAssign this other => w.assign this other false
  | .moveConstruct other =>
    match w.live[other]? with
    | none => .error .outOfBounds
    | some b => .ok { w with live := w.live.set other b.movedFrom ++ [b] }
  | .moveAssign this other => w.assign this other true
  | .destroy this =>
    match w.live[this]? with
    | none => .error .outOfBounds
    | some b => do
      let s ← w.leaf.release b
      .ok { leaf := s, live := w.live.eraseIdx this }

/-- The documented condition on an insert into a solid cache: no placeholders. -/
def World.SolidInsert (w : World Key) : Op Key → Prop
  | .cacheTokens _ blocks _ _ _ =>
    w.leaf.options.gapTolerant = false → ∀ i ∈ blocks, ∀ b, w.live[i]? = some b → b.isValid
  | _ => True

/-- The operation puts `node` into the cache, unless its key is already there. -/
def World.Inserts (w : World Key) : Op Key → Block Key → Prop
  | .cacheTokens tokenIds blocks existedNum mmItems blockHashes, node =>
    ∃ chosen, indexSelect w.live blocks = some chosen ∧
      w.leaf.Stamps xxh3 tokenIds chosen existedNum mmItems blockHashes node
  | .cacheStamped blocks, node =>
    ∃ chosen, indexSelect w.live blocks = some chosen ∧ node ∈ chosen ∧ node.isValid
  | _, _ => False

end

/-! ## Every operation keeps the invariant -/

/-- The invariant of a world: the callers' aliases are all there are outside the cache. -/
def World.Sound (acc : Prop) (w : World Key) : Prop :=
  Framework.Sound acc w.leaf (w.live.map Block.handle)

/-- The CHECKs a run can still stop at: a narrowed count, a block registered under another hash, a
foreign block, or an operation on an alias that does not exist. -/
def Fatal.Reachable (e : Fatal) : Prop :=
  e = .notEnoughBlocks ∨ CacheFatal e ∨ e = .outOfBounds

variable {live : List (Block Key)} {i : Nat}

omit [DecidableEq Key] [Inhabited Key] in
theorem handles_eraseIdx {b : Block Key} (h : live[i]? = some b) :
    (live.map Block.handle).Perm (b.handle :: (live.eraseIdx i).map Block.handle) := by
  obtain ⟨hi, rfl⟩ := List.getElem?_eq_some_iff.mp h
  exact (getElem_cons_eraseIdx_perm hi).symm.map Block.handle

omit [DecidableEq Key] [Inhabited Key] in
theorem handles_set (hi : i < live.length) (b : Block Key) :
    ((live.set i b).map Block.handle).Perm (b.handle :: (live.eraseIdx i).map Block.handle) :=
  (set_perm_cons_eraseIdx hi b).map Block.handle

omit [DecidableEq Key] [Inhabited Key] in
theorem mem_handles_of_indexSelect {chosen : List (Block Key)} {is : List Nat}
    (h : indexSelect live is = some chosen) :
    ∀ b ∈ chosen, b.handle ∈ live.map Block.handle := by
  intro b hb
  obtain ⟨i, -, hi⟩ := mem_of_indexSelect h b hb
  exact mem_map_of_mem (mem_of_getElem? hi)

variable {acc : Prop}

omit [Inhabited Key] in
theorem Leaf.Adds.of_cachedBlocks {s s' : Leaf Key} {ext ext' : List Handle}
    {P : Block Key → Prop} (h : Framework.Sound acc s ext) (h' : Framework.Sound acc s' ext')
    (hc : s'.prefixCache.cachedBlocks = s.prefixCache.cachedBlocks) : s.Adds s' P := by
  refine .of_subset fun node hn => ?_
  have hlookup := (h'.conserved.registered.lookup node.hashValue node).mpr ⟨hn, rfl⟩
  rw [hc] at hlookup
  exact ((h.conserved.registered.lookup _ _).mp hlookup).1

variable {w : World Key}

omit [Inhabited Key] in
theorem assign_spec (h : w.Sound acc) (this other : Nat) (move : Bool) :
    Outcome Fatal.Reachable (fun w' => w'.Sound acc ∧ w.leaf.Frame w'.leaf ∧
      w'.leaf.prefixCache.lruLst = w.leaf.prefixCache.lruLst) (w.assign this other move) := by
  unfold World.assign
  split
  · exact ⟨h, .refl _, rfl⟩
  · rename_i hne
    cases hold : w.live[this]? with
    | none => exact Or.inr (Or.inr rfl)
    | some old =>
      cases hb : w.live[other]? with
      | none => exact Or.inr (Or.inr rfl)
      | some b =>
        have hthis := (List.getElem?_eq_some_iff.mp hold).1
        obtain ⟨s, hrun, hs, hframe, hlru, -⟩ := (h.perm (handles_eraseIdx hold)).release
        have hbmem : b ∈ w.live.eraseIdx this := by
          rw [mem_eraseIdx_iff_getElem?]
          exact ⟨other, fun e => hne e.symm, hb⟩
        dsimp only
        rw [hrun]
        simp only [bind, Except.bind]
        cases move with
        | true =>
          refine ⟨?_, hframe, hlru⟩
          -- the handle of `other` moves to `this`, a null handle takes its place
          have hset : (w.live.set this b)[other]? = some b := by
            rw [List.getElem?_set_ne hne]; exact hb
          have hother := (List.getElem?_eq_some_iff.mp hset).1
          have hback : (w.live.set this b).Perm (b :: w.live.eraseIdx this) :=
            set_perm_cons_eraseIdx hthis b
          have hdrop : ((w.live.set this b).eraseIdx other).Perm (w.live.eraseIdx this) := by
            have hsplit := (getElem_cons_eraseIdx_perm hother).trans hback
            rw [(List.getElem?_eq_some_iff.mp hset).2] at hsplit
            exact List.Perm.cons_inv hsplit
          have hfinal := (handles_set hother b.movedFrom).trans
            ((hdrop.map Block.handle).cons Handle.null)
          exact (hs.cons_null).perm hfinal.symm
        | false =>
          obtain ⟨hcopy, hs', hframe', hcache⟩ := hs.copyBlock
            (mem_map_of_mem (f := Block.handle) hbmem)
          refine ⟨?_, hframe.trans hframe', by dsimp only; rw [hcache]; exact hlru⟩
          rw [hcopy]
          exact hs'.perm (handles_set hthis b).symm

/-- One operation of a caller: the invariant holds after it, only an insert adds nodes to the
cache, and only the documented CHECKs can stop it. -/
theorem World.step_spec (xxh3 : HashInput Key → Key)
    (h : w.Sound acc) (op : Op Key) (hsolid : acc → w.SolidInsert op) :
    Outcome Fatal.Reachable (fun w' => w'.Sound acc ∧ w.leaf.Frame w'.leaf ∧
      w.leaf.Adds w'.leaf (w.Inserts xxh3 op)) (w.step xxh3 op) := by
  cases op with
  | allocate numBlocks =>
    refine Outcome.bind (P := fun r => Framework.Sound acc r.1
      (r.2.map Block.handle ++ w.live.map Block.handle) ∧ w.leaf.Frame r.1 ∧
      r.1.prefixCache.lruLst.Sublist w.leaf.prefixCache.lruLst) ?_ ?_
    · exact (allocate_spec h numBlocks).mono (fun e he => Or.inl he.1)
        (fun r hr => ⟨hr.1, hr.2.1.frame, hr.2.1.sublist⟩)
    · rintro ⟨s, blocks⟩ ⟨hs, hframe, hsub⟩
      refine ⟨?_, hframe, .of_subset fun _ hn => hsub.subset hn⟩
      unfold World.Sound
      rw [map_append]
      exact hs.perm perm_append_comm
  | allocateShared tokenIds existed mmItems blockHashes =>
    simp only [World.step]
    cases hsel : indexSelect w.live existed with
    | none => exact Or.inr (Or.inr rfl)
    | some chosen =>
      obtain ⟨s, blocks, hrun, hs, hframe, hcached⟩ := allocateShared_spec xxh3 h tokenIds
        (mem_handles_of_indexSelect hsel) mmItems blockHashes
      dsimp only
      rw [hrun]
      refine ⟨?_, hframe, .of_cachedBlocks h hs hcached⟩
      unfold World.Sound
      rw [map_append]
      exact hs.perm perm_append_comm
  | matchPrefix tokenIds existed mmItems blockHashes =>
    simp only [World.step]
    cases hsel : indexSelect w.live existed with
    | none => exact Or.inr (Or.inr rfl)
    | some chosen =>
      obtain ⟨s, blocks, hrun, hs, hm⟩ := matchPrefix_spec xxh3 h tokenIds chosen
        (mem_handles_of_indexSelect hsel) mmItems blockHashes
      dsimp only
      rw [hrun]
      refine ⟨?_, hm.frame, .of_cachedBlocks h hs hm.cachedBlocks⟩
      unfold World.Sound
      rw [map_append]
      exact hs.perm perm_append_comm
  | cacheTokens tokenIds blocks existedNum mmItems blockHashes =>
    simp only [World.step]
    cases hsel : indexSelect w.live blocks with
    | none => exact Or.inr (Or.inr rfl)
    | some chosen =>
      refine Outcome.bind (P := fun r => Framework.Sound acc r.1 (w.live.map Block.handle) ∧
        w.leaf.Frame r.1 ∧ r.2.map Block.handle = chosen.map Block.handle ∧
        w.leaf.Adds r.1 (w.leaf.Stamps xxh3 tokenIds chosen existedNum mmItems blockHashes)) ?_ ?_
      · refine (cacheTokens_spec xxh3 h tokenIds (mem_handles_of_indexSelect hsel) ?_ existedNum
          mmItems blockHashes).mono (fun e he => Or.inr (Or.inl he)) (fun r hr => hr)
        intro ha hg b hb
        obtain ⟨i, hi, hib⟩ := mem_of_indexSelect hsel b hb
        exact hsolid ha hg i hi b hib
      · rintro ⟨s, stamped⟩ ⟨hs, hframe, hhandles, hadds⟩
        obtain ⟨live, hput, hlive⟩ := indexPut_map_of_indexSelect Block.handle hsel hhandles
        rw [hput]
        refine ⟨?_, hframe, hadds.imp fun node hn => ⟨chosen, hsel, hn⟩⟩
        unfold World.Sound
        rw [hlive]
        exact hs
  | cacheStamped blocks =>
    simp only [World.step]
    cases hsel : indexSelect w.live blocks with
    | none => exact Or.inr (Or.inr rfl)
    | some chosen =>
      refine Outcome.bind (P := fun s => Framework.Sound acc s (w.live.map Block.handle) ∧
        w.leaf.Frame s ∧ w.leaf.Adds s (fun node => node ∈ chosen ∧ node.isValid)) ?_
        (fun s hs => ⟨hs.1, hs.2.1, hs.2.2.imp fun node hn => ⟨chosen, hsel, hn⟩⟩)
      exact (cacheStamped_spec h (mem_handles_of_indexSelect hsel)).mono
        (fun e he => Or.inr (Or.inl he)) (fun s hs => hs)
  | resetPrefixCache =>
    obtain ⟨s, hrun, hs, hframe, hsub, -⟩ := resetPrefixCache_spec h
    simp only [World.step]
    rw [hrun]
    exact ⟨hs, hframe, .of_subset fun _ hn => hsub.subset hn⟩
  | evict nBlocks =>
    obtain ⟨s, evicted, hrun, -, hs, hshrunk⟩ := evict_spec h nBlocks
    simp only [World.step]
    rw [hrun]
    exact ⟨hs, hshrunk.frame, .of_subset fun _ hn => hshrunk.sublist.subset hn⟩
  | setHashValue i hashValue =>
    simp only [World.step]
    cases hi : w.live[i]? with
    | none => exact Or.inr (Or.inr rfl)
    | some b =>
      refine ⟨?_, .refl _, .of_subset fun _ hn => hn⟩
      have hlt := (List.getElem?_eq_some_iff.mp hi).1
      exact h.perm ((handles_eraseIdx hi).trans (handles_set hlt (b.setHashValue hashValue)).symm)
  | copyConstruct other =>
    simp only [World.step]
    cases hi : w.live[other]? with
    | none => exact Or.inr (Or.inr rfl)
    | some b =>
      obtain ⟨hcopy, hs, hframe, hcache⟩ := Framework.Sound.copyBlock h
        (mem_map_of_mem (f := Block.handle) (mem_of_getElem? hi))
      refine ⟨?_, hframe, .of_subset fun node hn => by dsimp only at hn; rwa [hcache] at hn⟩
      unfold World.Sound
      rw [map_append, hcopy]
      exact hs.perm (perm_append_singleton _ _).symm
  | copyAssign this other =>
    refine (assign_spec h this other false).imp fun w' hw' => ⟨hw'.1, hw'.2.1, ?_⟩
    exact .of_subset fun _ hn => hw'.2.2 ▸ hn
  | moveConstruct other =>
    simp only [World.step]
    cases hi : w.live[other]? with
    | none => exact Or.inr (Or.inr rfl)
    | some b =>
      refine ⟨?_, .refl _, .of_subset fun _ hn => hn⟩
      have hlt := (List.getElem?_eq_some_iff.mp hi).1
      unfold World.Sound
      rw [map_append]
      have hnull : Framework.Sound acc w.leaf (.null :: w.live.map Block.handle) := h.cons_null
      refine hnull.perm ?_
      refine ((handles_eraseIdx hi).cons Handle.null).trans ?_
      refine (List.Perm.swap b.handle Handle.null _).trans ?_
      exact ((handles_set hlt b.movedFrom).symm.cons b.handle).trans
        (perm_append_singleton _ _).symm
  | moveAssign this other =>
    refine (assign_spec h this other true).imp fun w' hw' => ⟨hw'.1, hw'.2.1, ?_⟩
    exact .of_subset fun _ hn => hw'.2.2 ▸ hn
  | destroy this =>
    simp only [World.step]
    cases hi : w.live[this]? with
    | none => exact Or.inr (Or.inr rfl)
    | some b =>
      obtain ⟨s, hrun, hs, hframe, hlru, -⟩ := (h.perm (handles_eraseIdx hi)).release
      dsimp only
      rw [hrun]
      exact ⟨hs, hframe, .of_subset fun _ hn => hlru ▸ hn⟩

/-! ## Runs -/

section

variable (xxh3 : HashInput Key → Key)

/-- What holds in every world a leaf reaches from its constructor. -/
structure World.Kept (acc : Prop) (options : Options) (w : World Key) : Prop where
  sound : w.Sound acc
  options : w.leaf.options = options

variable {acc : Prop} {options : Options} {self : Nat} {s : Leaf Key}

theorem World.Kept.initial
    (hinit : Leaf.init options self = .ok s) : World.Kept acc options { leaf := s } := by
  obtain ⟨hpos, -, rfl⟩ := init_inv hinit
  exact ⟨initial_sound self hpos, rfl⟩

variable {w : World Key}

theorem World.Kept.step {w' : World Key} {op : Op Key}
    (h : w.Kept acc options) (hsolid : acc → w.SolidInsert op)
    (hstep : w.step xxh3 op = .ok w') : w'.Kept acc options := by
  obtain ⟨hs, hframe, -⟩ := (World.step_spec xxh3 h.sound op hsolid).of_ok hstep
  exact ⟨hs, hframe.options.trans h.options⟩

theorem World.Kept.of_run {ok : World Key → Op Key → Prop} (hinit : Leaf.init options self = .ok s)
    (hok : ∀ w op, w.Kept acc options → ok w op → acc → w.SolidInsert op) {ops : List (Op Key)}
    (run : ReachesWith (World.step xxh3) ok { leaf := s } ops w) :
    w.Kept acc options :=
  run.invariant (fun w op _ h hop hstep => h.step xxh3 (hok w op h hop) hstep) (.initial hinit)

end

end Xllm.Framework
