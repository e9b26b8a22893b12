import Xllm.Block.Conservation

/-!
# How residents come and go around a holder

A caller that holds aliases cares about three things when a leaf moves on: which residents survive
(those it shares a block with), which appear, and what the frame is. `Leaf.Evolves` is that
relation, with the aliases it is about and the nodes that may appear as parameters; every entry
point a slot manager uses has one lemma in terms of it.
-/

namespace Xllm.Framework

open Xllm.Lib

variable {Key : Type}

/-- The block is registered in the prefix cache. -/
def Leaf.Resident (s : Leaf Key) (b : Block Key) : Prop := b.id ∈ s.prefixCache.blocksById

/-- From `s` to `s'` no node an alias of `ext` shares was evicted, and only `P` nodes were added. -/
structure Leaf.Evolves (s s' : Leaf Key) (ext : List Handle) (P : Block Key → Prop) : Prop where
  frame : s.Frame s'
  kept : ∀ node ∈ s.prefixCache.lruLst, (∃ x ∈ ext, x.id = node.id) →
    node ∈ s'.prefixCache.lruLst
  added : s.Adds s' P

namespace Leaf.Evolves

variable {s s' s'' : Leaf Key} {ext ext' : List Handle} {P Q : Block Key → Prop}

theorem refl (s : Leaf Key) (ext : List Handle) (P : Block Key → Prop) : s.Evolves s ext P :=
  ⟨.refl s, fun _ hn _ => hn, .of_subset fun _ hn => hn⟩

theorem trans (h : s.Evolves s' ext P) (h' : s'.Evolves s'' ext P) : s.Evolves s'' ext P :=
  ⟨h.frame.trans h'.frame, fun node hn hx => h'.kept node (h.kept node hn hx) hx,
    h.added.trans h'.added⟩

theorem mono (h : s.Evolves s' ext P) (hext : ∀ x ∈ ext', x ∈ ext) (hPQ : ∀ node, P node → Q node) :
    s.Evolves s' ext' Q :=
  ⟨h.frame, fun node hn ⟨x, hx, he⟩ => h.kept node hn ⟨x, hext x hx, he⟩, h.added.imp hPQ⟩

theorem of_prefixCache (hframe : s.Frame s') (hcache : s'.prefixCache = s.prefixCache)
    (ext : List Handle) (P : Block Key → Prop) : s.Evolves s' ext P :=
  ⟨hframe, fun node hn _ => by rw [hcache]; exact hn, .of_subset fun node hn => by
    rw [hcache] at hn
    exact hn⟩

end Leaf.Evolves

section

variable [DecidableEq Key] {s s' : Leaf Key} {ext ext' : List Handle} {acc : Prop}
  {P : Block Key → Prop}

variable {b : Block Key}

theorem Sound.resident_iff (h : Sound acc s ext) :
    s.Resident b ↔ ∃ node ∈ s.prefixCache.lruLst, node.id = b.id :=
  h.conserved.registered.byId b.id

variable {acc' : Prop} {ext'' : List Handle}

theorem Leaf.Evolves.resident (h : s.Evolves s' ext P) (hs : Sound acc s ext')
    (hs' : Sound acc' s' ext'') (hb : b.handle ∈ ext) (hr : s.Resident b) : s'.Resident b := by
  obtain ⟨node, hn, hid⟩ := hs.resident_iff.mp hr
  exact hs'.resident_iff.mpr ⟨node, h.kept node hn ⟨b.handle, hb, hid.symm⟩, hid⟩

/-- A block none of the new nodes holds does not become resident. -/
theorem Leaf.Evolves.not_resident (h : s.Evolves s' ext P) (hs : Sound acc s ext')
    (hs' : Sound acc' s' ext'')
    (hnew : ∀ node, P node → node.id ≠ b.id) (hr : ¬ s.Resident b) : ¬ s'.Resident b := by
  intro hr'
  obtain ⟨node, hn, hid⟩ := hs'.resident_iff.mp hr'
  rcases h.added node hn with hold | hp
  · exact hr (hs.resident_iff.mpr ⟨node, hold, hid⟩)
  · exact hnew node hp hid

theorem Sound.isShared_of_alias (h : Sound acc s ext) {x : Handle} (hx : x ∈ ext)
    {node : Block Key} (hn : node ∈ s.prefixCache.lruLst) (hid : x.id = node.id)
    (hv : node.isValid = true) : s.isShared node = true := by
  obtain ⟨i, a, hm⟩ := h.conserved.node_managed hn hv
  have hrc : node.refCount = some a := congrArg Handle.refCount hm
  have hxrc : x.refCount = some a :=
    ((h.conserved.owned.sameBlock _ (h.conserved.ext_mem hx) _ (h.conserved.node_mem hn)).mp
      hid).trans hrc
  obtain ⟨l, r, hlr⟩ := List.append_of_mem hx
  have hperm : (s.handles ext).Perm
      (x :: (l ++ r ++ s.prefixCache.lruLst.map Block.handle)) := by
    rw [hlr]
    exact List.perm_middle.append_right _
  have htwo : 2 ≤ s.refCounts a := (h.conserved.owned.counted.perm hperm).two_le hxrc
    ⟨node.handle, List.mem_append.mpr (Or.inr (List.mem_map_of_mem hn)), hrc⟩
  unfold Leaf.isShared
  rw [Leaf.refCount_eq, hrc, decide_eq_true_eq]
  exact htwo

/-! ## The entry points -/

theorem Leaf.Evolves.of_sublist (h : Sound True s ext) (hframe : s.Frame s')
    (hsub : s'.prefixCache.lruLst.Sublist s.prefixCache.lruLst)
    (hkeep : ∀ node ∈ s.prefixCache.lruLst, s.isShared node = true →
      node ∈ s'.prefixCache.lruLst) : s.Evolves s' ext P where
  frame := hframe
  kept := by
    rintro node hn ⟨x, hx, hid⟩
    exact hkeep node hn (h.isShared_of_alias hx hn hid ((h.accounted trivial).valid node hn))
  added := .of_subset fun _ hn => hsub.subset hn

theorem Sound.release_evolves (h : Sound acc s (b.handle :: ext)) :
    ∃ s', s.release b = .ok s' ∧ Sound acc s' ext ∧ ∀ ext', s.Evolves s' ext' P := by
  obtain ⟨s', hrun, hs', hframe, hlru, -⟩ := h.release
  exact ⟨s', hrun, hs', fun _ => ⟨hframe, fun node hn _ => hlru.symm ▸ hn,
    .of_subset fun _ hn => hlru ▸ hn⟩⟩

section

variable [Inhabited Key]

/-- A small allocation is served exactly when enough blocks are free or evictable, by blocks no
holder and no node has. -/
theorem Sound.allocate_evolves (h : Sound True s ext) {n : Nat} (hn : n < 2 ^ 32)
    {live : List (Block Key)} (hlive : live.map Block.handle = ext) :
    ∃ s' blocks, s.allocate n = .ok (s', blocks) ∧
      Sound True s' (blocks.map Block.handle ++ ext) ∧ s.Evolves s' ext P ∧ Fresh blocks ext ∧
      (∀ b ∈ blocks, ¬ s'.Resident b) ∧
      ((n ≤ s.numFreeBlocks + s.numEvictableBlocks ∧ blocks.length = n) ∨
        (s.numFreeBlocks + s.numEvictableBlocks < n ∧ blocks = [])) := by
  subst hlive
  have hexact := allocateExact_of_lt (w := { leaf := s, live }) h hn
  have hspec := allocate_spec h n
  unfold Leaf.AllocateExact at hexact
  dsimp only at hexact
  split at hexact
  · rename_i hle
    obtain ⟨s', blocks, hrun, hlen, -, -⟩ := hexact
    obtain ⟨hs', hnew, -⟩ := hspec.of_ok hrun
    exact ⟨s', blocks, hrun, hs', .of_sublist h hnew.frame hnew.sublist hnew.keepsShared,
      hnew.fresh, hnew.unregistered, Or.inl ⟨hle, hlen⟩⟩
  · obtain ⟨s', hrun⟩ := hexact
    obtain ⟨hs', hnew, -⟩ := hspec.of_ok hrun
    exact ⟨s', [], hrun, hs', .of_sublist h hnew.frame hnew.sublist hnew.keepsShared,
      hnew.fresh, hnew.unregistered, Or.inr ⟨by omega, rfl⟩⟩

end

/-- Publishing one stamped block: it succeeds unless the block is registered under another key, and
adds at most this block. -/
theorem Sound.insertOne_evolves (h : Sound acc s ext)
    (hen : s.options.enablePrefixCache = true) (hb : b.handle ∈ ext) (hv : b.isValid = true)
    (hkey : s.Resident b → ∃ node ∈ s.prefixCache.lruLst, node.hashValue = b.hashValue) :
    ∃ s' n, s.insertStamped [b] = .ok (s', n) ∧ Sound acc s' ext ∧
      (∀ ext', s.Evolves s' ext' (fun node => node = b)) ∧
      (¬ s.Resident b → s'.Resident b → b ∈ s'.prefixCache.lruLst) := by
  have hflush : ({ leaf := s } : Working Key).flush = s := by
    simp only [Working.flush, List.append_nil]
    rfl
  have hstart : Sound acc ({ leaf := s } : Working Key).flush ext := by
    rw [hflush]
    exact h
  have hspec := insertBlock_spec hstart hen hb rfl (fun _ => hv)
  obtain ⟨w, hw⟩ : ∃ w, insertBlock { leaf := s } b.hashValue b = .ok w := by
    unfold insertBlock
    cases hlookup : s.prefixCache.cachedBlocks.lookup b.hashValue with
    | some node => exact ⟨_, rfl⟩
    | none =>
      have hnew : b.id ∉ s.prefixCache.blocksById := by
        intro hr
        obtain ⟨node, hn, he⟩ := hkey hr
        have := (h.conserved.registered.lookup b.hashValue node).mpr ⟨hn, he⟩
        rw [hlookup] at this
        cases this
      rw [if_neg hnew]
      exact ⟨_, rfl⟩
  obtain ⟨hs', hframe, -, hins⟩ := hspec.of_ok hw
  rw [hflush] at hins
  have hevolves : ∀ ext', s.Evolves w.flush ext' (fun node => node = b) := fun _ =>
    ⟨⟨hframe.options, hframe.self, hframe.blockAllocator⟩, fun node hn _ => hins.kept node hn,
      hins.added.imp fun node hn => hn.1⟩
  refine ⟨w.flush, s.options.blockSize, ?_, hs', hevolves, fun hnr hr => ?_⟩
  · unfold Leaf.insertStamped
    rw [h.checkCachedBlockCount]
    simp only [bind, Except.bind, insertStampedLoop]
    rw [if_neg (by rw [hv]; simp), hw]
    dsimp only
    rw [hs'.checkCachedBlockCount]
    simp
  · obtain ⟨node, hn, hid⟩ := hs'.resident_iff.mp hr
    rcases hins.added node hn with hold | ⟨rfl, -⟩
    · exact absurd (h.resident_iff.mpr ⟨node, hold, hid⟩) hnr
    · exact hn

end

end Xllm.Framework
